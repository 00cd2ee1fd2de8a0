import CloudSecrets.Text.Lines

/-!
# Paths

A path is a root, empty for a relative path, and the names behind it. The text of a path loses
doubled and trailing slashes and the name `.` but keeps `..`, which only the file tree can resolve.
Exactly two leading slashes are a root of their own.
-/

namespace CloudSecrets

/-- The names on the way from the root to an entry of the file tree. -/
abbrev Location := List String

namespace Location

/-- The absolute path of a location. -/
def text (l : Location) : String := "/" ++ String.intercalate "/" l

/-- The location that holds a location; the root holds itself. -/
def parent (l : Location) : Location := l.dropLast

end Location

/-- What stands between the slashes of a text. -/
def pathPieces (s : String) : List String := (Text.splitAtEach '/' s.toList).map String.ofList

/-- The names between the slashes of a text. -/
def pathNames (s : String) : List String := (pathPieces s).filter fun name => !name.isEmpty

/-- Whether a text holds the null character, which no path can. -/
def holdsNull (text : String) : Bool := text.toList.contains '\x00'

/-- A path without redundant slashes and dots. -/
structure Path where
  root : String
  parts : List String
  deriving Repr, BEq, DecidableEq

namespace Path

/-- The root of a text: how many slashes lead decides. -/
def rootOf (s : String) : String :=
  match (s.toList.takeWhile (· == '/')).length with
  | 0 => ""
  | 2 => "//"
  | _ => "/"

/-- The path that a text writes. -/
def ofText (s : String) : Path := ⟨rootOf s, (pathNames s).filter (· != ".")⟩

/-- The text of a path; the empty path is the current folder. -/
def text (p : Path) : String :=
  if p.root.isEmpty && p.parts.isEmpty then "." else p.root ++ String.intercalate "/" p.parts

/-- The path of a name in a folder. -/
def child (p : Path) (name : String) : Path := { p with parts := p.parts ++ [name] }

/-- The path of the folder that holds a path's entry; a root is its own. -/
def parent (p : Path) : Path := { p with parts := p.parts.dropLast }

/-- The text of a path continued by another; an absolute one takes its place. -/
def continued (path rest : String) : String :=
  if rest.toList.head? == some '/' then rest
  else if path.toList.getLast? == some '/' then path ++ rest
  else path ++ "/" ++ rest

/-- The path of the folder above: a relative path that has no more names goes on upwards. -/
def up (p : Path) : Path :=
  match p.parts.getLast? with
  | none => if p.root.isEmpty then p.child ".." else p
  | some name => if name == ".." then p.child ".." else p.parent

/-- Where names lead from a location if none of them is a link. -/
def follow (l : Location) (names : List String) : Location :=
  names.foldl (fun l name => if name == ".." then l.parent else l ++ [name]) l

/-- The location that a path names if it crosses no link. -/
def location (here : Location) (p : Path) : Location :=
  follow (if p.root.isEmpty then here else []) p.parts

/-- The path with every `..` taken to remove the name before it. -/
def lexical (p : Path) : Path := { p with parts := follow [] p.parts }

/-- Replaces a leading `~` by the home folder, and `~user` by that user's; `none` if there is no
such user. -/
def expandHome? (home : String) (homes : List (String × String)) (p : Path) : Option Path :=
  match p.root, p.parts with
  | "", first :: rest =>
    match first.toList with
    | '~' :: user =>
      let folder := if user.isEmpty then some home else homes.lookup (String.ofList user)
      folder.map fun folder =>
        let base := ofText folder
        { base with parts := base.parts ++ rest }
    | _ => some p
  | _, _ => some p

end Path

end CloudSecrets
