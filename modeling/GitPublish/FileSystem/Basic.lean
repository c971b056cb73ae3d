/-!
# File systems

A file system says what is found at each address. An address is the list of names that lead from
the root to a directory, a file or a symbolic link; nothing is said about how it is written as a
path. The root is always a directory.
-/
namespace GitPublish

/-- The names that lead from the root to a thing in a file system. -/
abbrev Address := List String

inductive Entry where
  | directory (mode : Nat)
  | file (mode : Nat) (content : ByteArray)
  | link (target : String)

namespace Entry

/-- Entries can be told apart: files by their permissions and their bytes. -/
instance : DecidableEq Entry
  | directory m, directory n => decidable_of_iff (m = n) (by simp)
  | file m b, file n c => decidable_of_iff (m = n ∧ b.data = c.data) (by simp [ByteArray.ext_iff])
  | link s, link t => decidable_of_iff (s = t) (by simp)
  | directory _, file .. => isFalse (by simp)
  | directory _, link _ => isFalse (by simp)
  | file .., directory _ => isFalse (by simp)
  | file .., link _ => isFalse (by simp)
  | link _, directory _ => isFalse (by simp)
  | link _, file .. => isFalse (by simp)

def isDirectory : Entry → Bool
  | directory _ => true
  | _ => false

def isFile : Entry → Bool
  | file .. => true
  | _ => false

/-- The permissions of an entry; a link has all. -/
def mode : Entry → Nat
  | directory mode => mode
  | file mode _ => mode
  | link _ => 0o777

end Entry

/-- A file system, as one process sees it: what is found where, and the current directory. -/
structure FileSystem where
  entries : List (Address × Entry)
  current : Address
  nodup : (entries.map Prod.fst).Nodup

namespace FileSystem

def empty : FileSystem := { entries := [], current := [], nodup := List.nodup_nil }

instance : Inhabited FileSystem := ⟨empty⟩

def get? (fs : FileSystem) (a : Address) : Option Entry :=
  match fs.entries.lookup a with
  | some e => some e
  | none => if a = [] then some (.directory 0o755) else none

def isDirectoryAt (fs : FileSystem) (a : Address) : Bool := (fs.get? a).any Entry.isDirectory

/-- Places an entry at an address, in the place of what was there. -/
def put (fs : FileSystem) (a : Address) (e : Entry) : FileSystem where
  entries := (a, e) :: fs.entries.filter (·.1 ≠ a)
  current := fs.current
  nodup := List.nodup_cons.2 ⟨by simp, fs.nodup.sublist (List.filter_sublist.map _)⟩

/-- Places directories at an address and on the way to it. -/
def putDirectories (fs : FileSystem) (a : Address) : FileSystem :=
  (List.range a.length).foldl (fun fs n => fs.put (a.take (n + 1)) (.directory 0o755)) fs

/-- Takes away what is found at an address and below it. -/
def remove (fs : FileSystem) (a : Address) : FileSystem where
  entries := fs.entries.filter fun x => !a.isPrefixOf x.1
  current := fs.current
  nodup := fs.nodup.sublist (List.filter_sublist.map _)

def removeBelow (fs : FileSystem) (a : Address) : FileSystem where
  entries := fs.entries.filter fun x => x.1 = a || !a.isPrefixOf x.1
  current := fs.current
  nodup := fs.nodup.sublist (List.filter_sublist.map _)

/-- The same files, with another current directory. -/
def moveTo (fs : FileSystem) (a : Address) : FileSystem := { fs with current := a }

theorem lookup_filter_ne {a b : Address} (h : b ≠ a) (l : List (Address × Entry)) :
    (l.filter (·.1 ≠ a)).lookup b = l.lookup b := by
  induction l with
  | nil => rfl
  | cons x l ih =>
    by_cases hx : x.1 = a
    · have hb : (b == x.1) = false := by simp [hx, h]
      rw [List.filter_cons_of_neg (by simp [hx]), ih]
      obtain ⟨k, v⟩ := x
      simp [List.lookup_cons, hb]
    · rw [List.filter_cons_of_pos (by simp [hx])]
      obtain ⟨k, v⟩ := x
      simp only [List.lookup_cons, ih]

@[simp] theorem get?_put_self (fs : FileSystem) (a : Address) (e : Entry) :
    (fs.put a e).get? a = some e := by
  simp [get?, put]

theorem get?_put_of_ne (fs : FileSystem) {a b : Address} (e : Entry) (h : b ≠ a) :
    (fs.put a e).get? b = fs.get? b := by
  have hb : (b == a) = false := by simp [h]
  simp only [get?, put, List.lookup_cons, hb, lookup_filter_ne h]

theorem get?_put (fs : FileSystem) (a b : Address) (e : Entry) :
    (fs.put a e).get? b = if b = a then some e else fs.get? b := by
  split
  next h => rw [h, get?_put_self]
  next h => exact get?_put_of_ne fs e h

@[simp] theorem current_put (fs : FileSystem) (a : Address) (e : Entry) :
    (fs.put a e).current = fs.current := rfl

@[simp] theorem current_remove (fs : FileSystem) (a : Address) :
    (fs.remove a).current = fs.current := rfl

end FileSystem
end GitPublish
