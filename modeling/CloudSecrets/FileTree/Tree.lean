import CloudSecrets.Entries
import CloudSecrets.FileTree.Path
import CloudSecrets.Text.Utf8

/-!
# The file tree

A file tree gives each location an entry: a file with its content, a folder, a symbolic link with
the path it holds, or a device, which is neither file nor folder. The root is always a folder.
`lookup` is the view of a tree.
-/

namespace CloudSecrets

/-- What a location holds. -/
inductive Entry where
  | file (content : Bytes)
  | folder
  | link (target : String)
  | device
  deriving Repr, BEq, DecidableEq

/-- The entries of a file system, and the numbers of the open descriptors, each with whether it is
open on a file. -/
structure FileTree where
  entries : Entries Location Entry := []
  descriptors : Entries Int Bool := []

namespace FileTree

/-- The entry at a location. -/
def lookup (t : FileTree) : Location → Option Entry
  | [] => some .folder
  | l => Entries.get? l t.entries

/-- Gives a location an entry. -/
def put (t : FileTree) (l : Location) (e : Entry) : FileTree :=
  { t with entries := Entries.put l e t.entries }

/-- Removes a location and everything below it. -/
def remove (t : FileTree) (l : Location) : FileTree :=
  { t with entries := t.entries.filter fun e => !l.isPrefixOf e.1 }

/-! ## Looking up -/

/-- The entry of a location other than the root is the one that was put there last. -/
theorem lookup_put_self {l : Location} (hl : l ≠ []) (t : FileTree) (e : Entry) :
    (t.put l e).lookup l = some e := by
  cases l with
  | nil => exact absurd rfl hl
  | cons name l => exact Entries.get?_put_self _ _ _

/-- Putting an entry leaves the other locations alone. -/
theorem lookup_put_of_ne {l m : Location} (h : l ≠ m) (t : FileTree) (e : Entry) :
    (t.put l e).lookup m = t.lookup m := by
  cases m with
  | nil => rfl
  | cons name m => exact Entries.get?_put_of_ne h _ _

end FileTree

end CloudSecrets
