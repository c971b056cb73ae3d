/-!
# Punycode

A label of a domain name with characters outside ASCII is written in ASCII: first its ASCII
characters and a `-`, then, in a number system of base 36 whose thresholds adapt, where each of the
other characters goes, in the order of their codes.
-/
namespace GitPublish.Url.Punycode

/-- The character of a digit: `a` to `z`, then `0` to `9`. -/
def digitChar (d : Nat) : Char := if d < 26 then Char.ofNat (97 + d) else Char.ofNat (22 + d)

def digitValue? (c : Char) : Option Nat :=
  if c.isLower then some (c.toNat - 97)
  else if c.isUpper then some (c.toNat - 65)
  else if c.isDigit then some (c.toNat - 22)
  else none

/-- The threshold of the digit at a position, which counts in steps of 36. -/
def threshold (position bias : Nat) : Nat := min 26 (max 1 (position - bias))

theorem threshold_pos (position bias : Nat) : 1 ≤ threshold position bias := by
  simp only [threshold]; omega

theorem threshold_le (position bias : Nat) : threshold position bias ≤ 26 := by
  simp only [threshold]; omega

/-- Divides by 35 until the value is small, and counts in steps of 36. -/
def scaleDown (delta steps : Nat) : Nat × Nat :=
  if 455 < delta then scaleDown (delta / 35) (steps + 36) else (delta, steps)
termination_by delta
decreasing_by omega

/-- The bias behind a difference `delta`, when `count` characters are placed. -/
def adapt (delta count : Nat) (isFirst : Bool) : Nat :=
  let delta := if isFirst then delta / 700 else delta / 2
  let (delta, steps) := scaleDown (delta + delta / count) 0
  steps + 36 * delta / (delta + 38)

/-- The digits of a number, lowest first. -/
def encodeNumber (bias position n : Nat) : List Char :=
  let t := threshold position bias
  if n < t then [digitChar n]
  else digitChar (t + (n - t) % (36 - t)) :: encodeNumber bias (position + 36) ((n - t) / (36 - t))
termination_by n
decreasing_by
  have := threshold_pos position bias
  have := threshold_le position bias
  have : (n - threshold position bias) / (36 - threshold position bias) ≤
      n - threshold position bias := Nat.div_le_self ..
  omega

/-- What is left to place, while placing the occurrences of one character: the digits written so
far in reverse, the difference, the bias and the number of characters placed. -/
structure Progress where
  digits : List Char
  delta : Nat
  bias : Nat
  placed : Nat

/-- Passes over one character of the label while placing the character `code`. -/
def Progress.pass (code basics : Nat) (p : Progress) (c : Char) : Progress :=
  if c.toNat < code then { p with delta := p.delta + 1 }
  else if c.toNat = code then
    { digits := (encodeNumber p.bias 36 p.delta).reverse ++ p.digits
      delta := 0
      bias := adapt p.delta (p.placed + 1) (p.placed = basics)
      placed := p.placed + 1 }
  else p

/-- The digits for characters of a label, each given by its code, in increasing order. -/
def encodeCodes (label : List Char) (basics next : Nat) (p : Progress) : List Nat → List Char
  | [] => p.digits.reverse
  | code :: codes =>
    let p := { p with delta := p.delta + (code - next) * (p.placed + 1) }
    let p := label.foldl (Progress.pass code basics) p
    encodeCodes label basics (code + 1) { p with delta := p.delta + 1 } codes

/-- A label in ASCII, without a mark that it is encoded. -/
def encode (label : List Char) : List Char :=
  let basic := label.filter fun c => c.toNat < 0x80
  let codes := (((label.filter fun c => 0x80 ≤ c.toNat).map Char.toNat).mergeSort (· ≤ ·)).eraseReps
  (if basic = [] then [] else basic ++ ['-']) ++
    encodeCodes label basic.length 0x80 ⟨[], 0, 72, basic.length⟩ codes

/-- Reads a number; returns it and the text behind it. -/
def decodeNumber? (bias position weight n : Nat) : List Char → Option (Nat × List Char)
  | [] => none
  | c :: rest => do
    let d ← digitValue? c
    let n := n + d * weight
    let t := threshold position bias
    if d < t then some (n, rest) else decodeNumber? bias (position + 36) (weight * (36 - t)) n rest

theorem decodeNumber?_length {bias position weight n : Nat} {cs : List Char} {r : Nat × List Char}
    (h : decodeNumber? bias position weight n cs = some r) : r.2.length < cs.length := by
  induction cs generalizing position weight n with
  | nil => simp [decodeNumber?] at h
  | cons c rest ih =>
    simp only [decodeNumber?, Option.bind_eq_bind, Option.bind_eq_some_iff] at h
    obtain ⟨d, -, h⟩ := h
    split at h
    · simp only [Option.some.injEq] at h
      subst h
      simp
    · have := ih h
      simp only [List.length_cons]
      omega

def isCode (n : Nat) : Bool := n < 0xD800 || (0xE000 ≤ n && n < 0x110000)

/-- Places characters until the digits end. `position` is the place and `code` the character of the
last placement. -/
def decodeDigits? (code position bias : Nat) (label : List Char) (cs : List Char) :
    Option (List Char) :=
  if cs = [] then some label
  else
    match h : decodeNumber? bias 36 1 0 cs with
    | none => none
    | some (n, rest) =>
      let size := label.length + 1
      let code' := code + (position + n) / size
      let place := (position + n) % size
      if isCode code' then
        decodeDigits? code' (place + 1) (adapt n size (position = 0))
          (label.insertIdx place (Char.ofNat code')) rest
      else none
termination_by cs.length
decreasing_by exact decodeNumber?_length h

def decode? (cs : List Char) : Option (List Char) :=
  let back := cs.reverse
  let tail := (back.takeWhile (· ≠ '-')).reverse
  match back.dropWhile (· ≠ '-') with
  | [] => decodeDigits? 0x80 0 72 [] cs
  | [_] => none
  | _ :: basic =>
    if cs.all fun c => c.toNat < 0x80 then decodeDigits? 0x80 0 72 basic.reverse tail else none

end GitPublish.Url.Punycode
