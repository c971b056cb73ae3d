/-!
# Percent encoding

A byte is written as `%` and two hexadecimal digits where the character itself may not stand. Which
ASCII characters may not stand depends on the part of the URL; other characters never may.
-/
namespace GitPublish.Url

/-- The ASCII characters that a part of a URL writes as bytes. -/
abbrev EscapeSet := Char → Bool

def controlSet : EscapeSet := fun c => c < ' ' || c == '\x7f'

def pathSet : EscapeSet := fun c => controlSet c || " \"<>`#?\x7b\x7d".toList.contains c

def userSet : EscapeSet := fun c => pathSet c || "/:;=@[\\]^|".toList.contains c

def hexDigit (n : Nat) : Char := if n < 10 then Char.ofNat (48 + n) else Char.ofNat (55 + n)

def hexValue? (c : Char) : Option Nat :=
  if c.isDigit then some (c.toNat - 48)
  else if 'a' ≤ c && c ≤ 'f' then some (c.toNat - 87)
  else if 'A' ≤ c && c ≤ 'F' then some (c.toNat - 55)
  else none

/-- A byte as `%` and two digits. -/
def escapeByte (b : UInt8) : List Char :=
  ['%', hexDigit (b.toNat / 16), hexDigit (b.toNat % 16)]

/-- A character, escaped if the set or its code demands it. -/
def escapeChar (escapes : EscapeSet) (c : Char) : List Char :=
  if c.toNat < 0x80 && !escapes c then [c] else (String.utf8EncodeChar c).flatMap escapeByte

/-- A text, with every character escaped that the set or its code demands. -/
def escape (escapes : EscapeSet) (cs : List Char) : List Char := cs.flatMap (escapeChar escapes)

/-- A text of plain characters stays as it is. -/
theorem escape_eq_self (escapes : EscapeSet) (cs : List Char)
    (h : ∀ c ∈ cs, c.toNat < 0x80 ∧ escapes c = false) : escape escapes cs = cs := by
  induction cs with
  | nil => rfl
  | cons c cs ih =>
    simp only [List.mem_cons, forall_eq_or_imp] at h
    have hc : escapeChar escapes c = [c] := by simp [escapeChar, h.1.1, h.1.2]
    have : escape escapes (c :: cs) = escapeChar escapes c ++ escape escapes cs := rfl
    rw [this, hc, ih h.2, List.singleton_append]

/-- The bytes that a text stands for: those that it writes with `%`, and the UTF-8 form of the
rest. A `%` without two digits stands for itself. -/
def unescape : List Char → List UInt8
  | [] => []
  | '%' :: a :: b :: rest =>
    match hexValue? a, hexValue? b with
    | some m, some n => UInt8.ofNat (16 * m + n) :: unescape rest
    | _, _ => String.utf8EncodeChar '%' ++ unescape (a :: b :: rest)
  | c :: rest => String.utf8EncodeChar c ++ unescape rest

end GitPublish.Url
