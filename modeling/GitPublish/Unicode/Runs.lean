/-!
# Properties of characters as runs

A property of characters is constant on long runs of code points. A table lists the runs in order,
each by its first code point and its value, and a character is looked up by bisection. Tables are
written as lines of whole numbers in base 32. The last digit of a number is one of `0` to `9` and
`a` to `v`; the digits before it are one of `A` to `Z`, `w` to `z`, `+` and `-`, in the order of
their values. So the numbers need no separators,
and a line may end inside a number.
-/
namespace GitPublish.Unicode

/-- A property with values in `α`: the first code point of each run, in increasing order, and the
value on the run. -/
structure Runs (α : Type) where
  runs : Array (Nat × α)

namespace Runs

/-- The number of runs that start at or before `n`, given that those before `lo` do and those from
`hi` on do not. -/
def countUpTo {α : Type} (runs : Array (Nat × α)) (n lo hi : Nat) : Nat :=
  if lo < hi then
    let mid := (lo + hi) / 2
    match runs[mid]? with
    | some (first, _) =>
      if first ≤ n then countUpTo runs n (mid + 1) hi else countUpTo runs n lo mid
    | none => lo
  else lo
termination_by hi - lo

def get? {α : Type} (r : Runs α) (n : Nat) : Option α :=
  match countUpTo r.runs n 0 r.runs.size with
  | 0 => none
  | k + 1 => r.runs[k]?.map (·.2)

/-- The value at a character, with a value for characters before the first run. -/
def getD {α : Type} (r : Runs α) (c : Char) (default : α) : α := (r.get? c.toNat).getD default

end Runs

/-- The value of a digit, and whether it ends its number. -/
def digit (c : Char) : Nat × Bool :=
  if c.isDigit then (c.toNat - '0'.toNat, true)
  else if c.isUpper then (c.toNat - 'A'.toNat, false)
  else if c ≤ 'v' && 'a' ≤ c then (c.toNat - 'a'.toNat + 10, true)
  else if 'w' ≤ c then (c.toNat - 'w'.toNat + 26, false)
  else if c = '+' then (30, false)
  else (31, false)

/-- The numbers that lines of a table write. -/
def numbers (lines : List String) : List Nat :=
  ((lines.flatMap String.toList).foldl (fun (found, part) c =>
    let (value, ends) := digit c
    if ends then ((part * 32 + value) :: found, 0) else (found, part * 32 + value))
    (([] : List Nat), 0)).1.reverse

/-- Runs from the length and the value of each, starting at code point `first`. -/
def runsFrom (first : Nat) : List Nat → List (Nat × Nat)
  | length :: value :: rest => (first, value) :: runsFrom (first + length) rest
  | _ => []

/-- The table whose runs are given by length and value, from code point 0 on. -/
def numbered (lines : List String) : Runs Nat := ⟨(runsFrom 0 (numbers lines)).toArray⟩

/-- Runs from lengths alone: the property is absent from the first, holds on the second, is absent
from the third, and so on. -/
def alternating (first : Nat) (holds : Bool) : List Nat → List (Nat × Bool)
  | [] => [(first, holds)]
  | length :: rest => (first, holds) :: alternating (first + length) (!holds) rest

/-- The set whose runs outside and inside it have the given lengths, from code point 0 on. -/
def members (lines : List String) : Runs Bool := ⟨(alternating 0 false (numbers lines)).toArray⟩

end GitPublish.Unicode
