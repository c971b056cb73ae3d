import GitPublish.Text
import GitPublish.Url.Percent

/-!
# IPv4 addresses

An address is up to four numbers with dots between them, each in decimal, octal or hexadecimal. The
last number fills all the bytes that the others leave. A domain name whose last label is a number
has to be an address.
-/
namespace GitPublish.Url.Ipv4

inductive Number where
  | none
  | tooLarge
  | value (n : Nat)
  deriving DecidableEq, Repr

/-- The digits of a label and their base. `0x` starts a hexadecimal number, any other `0` before a
digit an octal one. -/
def digits : List Char → Nat × List Char
  | '0' :: 'x' :: rest => (16, rest)
  | '0' :: 'X' :: rest => (16, rest)
  | '0' :: d :: rest => (8, d :: rest)
  | cs => (10, cs)

def digitIn? (base : Nat) (c : Char) : Option Nat := (hexValue? c).filter (· < base)

def number (label : List Char) : Number :=
  if label = [] then .none
  else
    let (base, ds) := digits label
    match ds.mapM (digitIn? base) with
    | Option.none => .none
    | some values =>
      let n := values.foldl (fun n d => n * base + d) 0
      if n < Nat.pow 2 32 then .value n else .tooLarge

/-- The labels of a domain name, without the empty one behind a final dot. -/
def labels (domain : List Char) : List (List Char) :=
  let all := List.splitOn '.' domain
  if 1 < all.length && all.getLast? = some [] then all.dropLast else all

/-- Whether the last label of a domain name is a number. -/
def endsInNumber (domain : List Char) : Bool :=
  match (labels domain).getLast? with
  | some last => (last ≠ [] && last.all Char.isDigit) || number last ≠ .none
  | none => false

/-- The address that up to four numbers stand for: all but the last are bytes, and the last fills
the rest. -/
def ofNumbers? (ns : List Nat) : Option Nat :=
  let leading := ns.dropLast
  match ns.getLast? with
  | none => none
  | some last =>
    if 4 < ns.length || leading.any (255 < ·) || Nat.pow 256 (4 - leading.length) ≤ last then none
    else some (leading.foldl (fun a n => a * 256 + n) 0 * Nat.pow 256 (4 - leading.length) + last)

def parse? (domain : List Char) : Option Nat := do
  let ns ← (labels domain).mapM fun label =>
    match number label with
    | .value n => some n
    | _ => none
  ofNumbers? ns

/-- An address as four decimal numbers. -/
def text (address : Nat) : String :=
  ".".intercalate
    ([address / 0x1000000, address / 0x10000 % 256, address / 0x100 % 256, address % 256].map
      toString)

end GitPublish.Url.Ipv4
