/-!
# Tables of a TOML document

A document is a table: keys with values, in the order in which they were written. It is put together
line by line. A header opens a table, and a key with a value adds to the table that was opened last;
dots in either lead through tables on the way, which are made where they are missing. A table is
opened once, and what one way of writing has closed another cannot reopen; so tables remember how
they were written.
-/
namespace GitPublish.Toml

/-- How a table came to be: by a header of its own or of a table below it, by a dotted key, or
between braces. -/
inductive Origin where
  | header
  | implied
  | dotted
  | inline
  deriving DecidableEq, Repr

inductive Value where
  | string (text : String)
  | integer (n : Int)
  | float (text : List Char)
  | boolean (b : Bool)
  | datetime
  | array (items : List Value)
  | tables (items : List (List (String × Value)))
  | table (origin : Origin) (entries : List (String × Value))

abbrev Entries := List (String × Value)

namespace Entries

/-- The entries with those of a key replaced. -/
def replace (key : String) (value : Value) (entries : Entries) : Entries :=
  entries.map fun (k, v) => if k = key then (k, value) else (k, v)

end Entries

/-- Whether keys with dots may lead through a table. -/
def Origin.isOpenToDots (o : Origin) : Bool := o = .implied || o = .dotted

/-- Does something to the table at the end of a path, and fails if the path does not lead there. A
path of a header (`dotted = false`) leads through every table that is not inline, and through the
last of a list of tables; a path of a dotted key only through tables without a header. -/
def descend (dotted : Bool) (act : Origin → Entries → Option (Origin × Entries)) (origin : Origin)
    (entries : Entries) : List String → Option (Origin × Entries)
  | [] => act origin entries
  | key :: path =>
    match entries.lookup key with
    | none => do
      let (o, inner) ← descend dotted act (if dotted then .dotted else .implied) [] path
      some (origin, entries ++ [(key, .table o inner)])
    | some (.table o inner) =>
      if o = .inline || (dotted && !o.isOpenToDots) then none
      else do
        let (o, inner) ← descend dotted act o inner path
        some (origin, entries.replace key (.table o inner))
    | some (.tables items) =>
      match items.getLast? with
      | none => none
      | some last => do
        let (_, inner) ← descend dotted act .header last path
        some (origin, entries.replace key (.tables (items.dropLast ++ [inner])))
    | some _ => none

/-- Adds a key to a table that a dotted key has led to, or to the table itself. -/
def addEntry (isDotted : Bool) (key : String) (value : Value) (origin : Origin)
    (entries : Entries) : Option (Origin × Entries) :=
  if (isDotted && origin ≠ .dotted) || (entries.lookup key).isSome then none
  else some (origin, entries ++ [(key, value)])

/-- Adds a key, which may have dots, to a table. -/
def addPair (key : List String) (value : Value) (origin : Origin) (entries : Entries) :
    Option (Origin × Entries) :=
  match key.getLast? with
  | none => none
  | some last =>
    let path := key.dropLast
    descend true (addEntry (path ≠ []) last value) origin entries path

def openTable (key : String) (origin : Origin) (entries : Entries) : Option (Origin × Entries) :=
  match entries.lookup key with
  | none => some (origin, entries ++ [(key, .table .header [])])
  | some (.table .implied inner) => some (origin, entries.replace key (.table .header inner))
  | some _ => none

/-- Opens the next of a list of tables. -/
def openNext (key : String) (origin : Origin) (entries : Entries) : Option (Origin × Entries) :=
  match entries.lookup key with
  | none => some (origin, entries ++ [(key, .tables [[]])])
  | some (.tables items) => some (origin, entries.replace key (.tables (items ++ [[]])))
  | some _ => none

inductive Line where
  | blank
  | table (path : List String)
  | next (path : List String)
  | pair (key : List String) (value : Value)

/-- A document in the making: its entries, and the path to the table that was opened last. -/
structure Draft where
  entries : Entries
  opened : List String

def Draft.add? (d : Draft) (line : Line) : Option Draft :=
  let within (path : List String) (act : Origin → Entries → Option (Origin × Entries)) :=
    (descend false act .header d.entries path).map (·.2)
  let opening (path : List String) (act : String → Origin → Entries → Option (Origin × Entries)) :=
    match path.getLast? with
    | none => none
    | some last => (within path.dropLast (act last)).map fun entries => { entries, opened := path }
  match line with
  | .blank => some d
  | .table path => opening path openTable
  | .next path => opening path openNext
  | .pair key value => (within d.opened (addPair key value)).map fun entries => { d with entries }

end GitPublish.Toml
