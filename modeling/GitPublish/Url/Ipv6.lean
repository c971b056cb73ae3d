import GitPublish.Url.Percent

/-!
# IPv6 addresses

An address is eight pieces of sixteen bits in hexadecimal, with colons between them. One run of zero
pieces may be left out and marked by `::`, and the last two pieces may be written as an IPv4
address.
-/
namespace GitPublish.Url.Ipv6

/-- The pieces read so far, and where pieces were left out. -/
structure Partial where
  pieces : List Nat
  gap : Option Nat
  deriving Repr

def Partial.push (p : Partial) (piece : Nat) : Partial := { p with pieces := p.pieces ++ [piece] }

/-- The eight pieces, with zeros for those left out. -/
def Partial.finish? (p : Partial) : Option (List Nat) :=
  match p.gap with
  | some gap =>
    some (p.pieces.take gap ++ List.replicate (8 - p.pieces.length) 0 ++ p.pieces.drop gap)
  | none => if p.pieces.length = 8 then some p.pieces else none

/-- The value of digits in a base. -/
def value (base : Nat) (ds : List Char) : Nat :=
  ds.foldl (fun n d => n * base + (hexValue? d).getD 0) 0

/-- A byte in decimal, without a leading zero, and the text behind it. -/
def byte? (cs : List Char) : Option (Nat × List Char) :=
  let ds := cs.takeWhile Char.isDigit
  let n := value 10 ds
  if ds = [] || 255 < n || (1 < ds.length && ds.head? = some '0') then none
  else some (n, cs.drop ds.length)

/-- The two pieces that an IPv4 address stands for; nothing may follow it. -/
def embedded? (cs : List Char) : Option (Nat × Nat) :=
  match byte? cs with
  | some (a, '.' :: cs) => match byte? cs with
    | some (b, '.' :: cs) => match byte? cs with
      | some (c, '.' :: cs) => match byte? cs with
        | some (d, []) => some (a * 256 + b, c * 256 + d)
        | _ => none
      | _ => none
    | _ => none
  | _ => none

/-- Reads pieces to the end of the text. `fuel` bounds the number of steps; each takes a character
away, so that the length of the text is enough. -/
def read? (fuel : Nat) (p : Partial) (cs : List Char) : Option Partial :=
  match fuel, cs with
  | _, [] => some p
  | 0, _ => none
  | fuel + 1, ':' :: rest =>
    if p.pieces.length = 8 || p.gap.isSome then none
    else read? fuel { pieces := p.pieces ++ [0], gap := some (p.pieces.length + 1) } rest
  | fuel + 1, cs =>
    if p.pieces.length = 8 then none
    else
      let ds := (cs.take 4).takeWhile fun c => (hexValue? c).isSome
      match cs.drop ds.length with
      | [] => some (p.push (value 16 ds))
      | '.' :: _ =>
        if ds = [] || 6 < p.pieces.length then none
        else (embedded? cs).map fun (a, b) => (p.push a).push b
      | ':' :: rest => if rest = [] then none else read? fuel (p.push (value 16 ds)) rest
      | _ => none

def parse? (cs : List Char) : Option (List Nat) :=
  if cs.length < 2 then none
  else do
    let p ← match cs with
      | ':' :: ':' :: rest => read? cs.length ⟨[0], some 1⟩ rest
      | ':' :: _ => none
      | cs => read? cs.length ⟨[], none⟩ cs
    p.finish?

/-- The lengths of the runs of zeros that start at each piece. -/
def zeroRuns : List Nat → List Nat
  | [] => []
  | n :: rest =>
    let runs := zeroRuns rest
    (if n = 0 then runs.headD 0 + 1 else 0) :: runs

/-- Where the longest run of zeros starts, the first of several, and its length. -/
def longestZeros (pieces : List Nat) : Nat × Nat :=
  let runs := zeroRuns pieces
  let longest := runs.foldl max 0
  (runs.findIdx (· = longest), longest)

def joined (pieces : List Nat) : List Char :=
  [':'].intercalate (pieces.map (Nat.toDigits 16))

/-- An address in its shortest form: the longest run of at least two zeros becomes `::`. -/
def text (pieces : List Nat) : String :=
  let (start, length) := longestZeros pieces
  String.ofList <|
    if length < 2 then joined pieces
    else joined (pieces.take start) ++ [':', ':'] ++ joined (pieces.drop (start + length))

end GitPublish.Url.Ipv6
