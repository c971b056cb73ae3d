/-!
# Texts

Texts are trimmed of blank characters, searched for words without regard to case, cut at a
separator and read from bytes.
-/
namespace GitPublish.Text

/-! ## Blank characters and trimming -/

/-- The Unicode property White_Space. -/
def isBlank (c : Char) : Bool :=
  let n := c.toNat
  (9 ≤ n && n ≤ 13) || n == 0x20 || n == 0x85 || n == 0xA0 || n == 0x1680 ||
    (0x2000 ≤ n && n ≤ 0x200A) || n == 0x2028 || n == 0x2029 || n == 0x202F || n == 0x205F ||
    n == 0x3000

def trimStart (cs : List Char) : List Char := cs.dropWhile isBlank

def trimEnd (cs : List Char) : List Char := (cs.reverse.dropWhile isBlank).reverse

/-- The text without the blank characters at its ends. -/
def trim (cs : List Char) : List Char := trimEnd (trimStart cs)

/-- The lines of a text that say something: trimmed, and without blank ones. -/
def telling (cs : List Char) : List (List Char) := ((cs.splitOn '\n').map trim).filter (· ≠ [])

/-! ## Searching and cutting

Words to look for are ASCII and in lower case. `lowered` brings a text into the form in which such
words are found: it lowers the ASCII letters and the two other characters whose lower case form
contains an ASCII letter, and leaves every other character as it is.
-/

/-- Whether `needle` occurs in the text as one run of characters. -/
def contains (needle : List Char) : List Char → Bool
  | [] => needle.isEmpty
  | c :: cs => needle.isPrefixOf (c :: cs) || contains needle cs

theorem contains_iff (needle cs : List Char) : contains needle cs = true ↔ needle <:+: cs := by
  induction cs with
  | nil => simp [contains]
  | cons c cs ih => simp [contains, ih, List.infix_cons_iff]

/-- Lower case of a character, as far as an ASCII word can tell: the Kelvin sign lowers to `k`, and
the capital I with a dot to `i` and a combining dot. -/
def lowerChar (c : Char) : List Char :=
  if c = '\u212A' then ['k'] else if c = '\u0130' then ['i', '\u0307'] else [c.toLower]

def lowered (cs : List Char) : List Char := cs.flatMap lowerChar

theorem lowered_append (s t : List Char) : lowered (s ++ t) = lowered s ++ lowered t :=
  List.flatMap_append

/-- The text up to the first `sep`, and the text after it if there is one. -/
def cut (sep : Char) (cs : List Char) : List Char × Option (List Char) :=
  (cs.takeWhile (· ≠ sep),
    match cs.dropWhile (· ≠ sep) with
    | [] => none
    | _ :: rest => some rest)

/-! ## Bytes read as text

What commands write is bytes, which need not be UTF-8, and neither need the names of files. They are
read one at a time, and bytes that begin a character but do not end it count as one replacement
character, as does a byte that begins none.
-/

/-- A character that has begun: how many bytes it still needs, the bounds of the next one, and the
bits that are known. -/
structure Begun where
  missing : Nat
  least : Nat
  greatest : Nat
  bits : Nat
  deriving DecidableEq, Repr

/-- The character that a byte begins; one with no byte missing is complete. -/
def Begun.ofByte? (b : Nat) : Option Begun :=
  if b < 0x80 then some ⟨0, 0x80, 0xBF, b⟩
  else if 0xC2 ≤ b && b ≤ 0xDF then some ⟨1, 0x80, 0xBF, b - 0xC0⟩
  else if 0xE0 ≤ b && b ≤ 0xEF then
    some ⟨2, if b = 0xE0 then 0xA0 else 0x80, if b = 0xED then 0x9F else 0xBF, b - 0xE0⟩
  else if 0xF0 ≤ b && b ≤ 0xF4 then
    some ⟨3, if b = 0xF0 then 0x90 else 0x80, if b = 0xF4 then 0x8F else 0xBF, b - 0xF0⟩
  else none

/-- The character that stands for bytes that are no text. -/
def replacement : Char := '\uFFFD'

/-- Text that is being read: its characters, the last first, and the one that has begun. -/
structure Decoding where
  back : List Char := []
  begun : Option Begun := none
  deriving Repr

namespace Decoding

/-- Takes up what a byte begins. -/
def start (d : Decoding) (b : Nat) : Decoding :=
  match Begun.ofByte? b with
  | none => { d with back := replacement :: d.back }
  | some c =>
    if c.missing = 0 then { d with back := Char.ofNat c.bits :: d.back }
    else { d with begun := some c }

def push (d : Decoding) (byte : UInt8) : Decoding :=
  let b := byte.toNat
  match d.begun with
  | none => d.start b
  | some c =>
    if c.least ≤ b && b ≤ c.greatest then
      let bits := c.bits * 64 + (b - 0x80)
      if c.missing ≤ 1 then { back := Char.ofNat bits :: d.back, begun := none }
      else { d with begun := some ⟨c.missing - 1, 0x80, 0xBF, bits⟩ }
    else start { back := replacement :: d.back, begun := none } b

def text (d : Decoding) : List Char :=
  match d.begun with
  | none => d.back.reverse
  | some _ => (replacement :: d.back).reverse

end Decoding

def decode (bytes : List UInt8) : List Char := (bytes.foldl Decoding.push {}).text

def encode (cs : List Char) : List UInt8 := cs.flatMap String.utf8EncodeChar

end GitPublish.Text
