import CloudSecrets.FileTree.Tree
import CloudSecrets.Text.Quoted

/-!
# Following paths

`find` follows a path through a file tree: names lead down, `..` leads up, and a symbolic link leads
where its own path leads. It ends at an entry, or at a vacant name in a folder. A path may cross at
most forty links, so following always ends. `canonical` is the path with every link resolved that
can be, where missing entries count as plain names.
-/

namespace CloudSecrets

/-- Why the file system refuses an operation. -/
inductive FileCause where
  | missing
  | occupied
  | notFolder
  | isFolder
  | nameTooLong
  | tooManyLinks
  deriving Repr, DecidableEq

/-- The number and the wording of a cause. -/
def FileCause.describe : FileCause → Nat × String
  | .missing => (2, "No such file or directory")
  | .occupied => (17, "File exists")
  | .notFolder => (20, "Not a directory")
  | .isFolder => (21, "Is a directory")
  | .nameTooLong => (36, "File name too long")
  | .tooManyLinks => (40, "Too many levels of symbolic links")

/-- A refused operation: the cause and the path it was asked for. -/
structure FileFault where
  cause : FileCause
  path : String
  deriving Repr, DecidableEq

/-- The wording of a refusal. -/
def FileFault.message (f : FileFault) : String :=
  let (number, wording) := f.cause.describe
  s!"[Errno {number}] {wording}: {Text.quoted f.path}"

namespace FileTree

/-- What is looked for at the end of a path: the entry there, what it leads to if it is a link, or a
place for a file. -/
inductive Aim where
  | entry
  | target
  | place
  deriving Repr, BEq, DecidableEq

/-- Where a path leads. -/
inductive Found where
  | entry (l : Location) (e : Entry)
  | vacant (l : Location)
  deriving Repr, DecidableEq

/-- The most octets of a name. -/
def longestName : Nat := 255

/-- The most octets of a path. -/
def longestPath : Nat := 4095

/-- The most symbolic links that a path may cross. -/
def mostLinks : Nat := 40

/-- The names that a path leads along, with an empty one behind a trailing slash, which asks for a
folder. -/
def steps (path : String) : List String :=
  pathNames path ++ (if path.toList.getLast? == some '/' then [""] else [])

/-- Where a path starts. -/
def start (here : Location) (path : String) : Location :=
  if path.toList.head? == some '/' then [] else here

/-- Whether only trailing slashes stand behind a name. -/
def asksForFolder (rest : List String) : Bool := !rest.isEmpty && rest.all String.isEmpty

/-- Follows names from a folder, where `cross` follows a link from the folder that holds it. A place
for a file cannot be asked for as a folder. -/
def walkAcross (t : FileTree) (aim : Aim)
    (cross : Location → String → List String → Except FileCause Found) (here : Location) :
    List String → Except FileCause Found
  | [] => .ok (.entry here .folder)
  | name :: rest =>
    if name.isEmpty || name == "." then walkAcross t aim cross here rest
    else if name == ".." then walkAcross t aim cross here.parent rest
    else if aim == .place && asksForFolder rest then .error .isFolder
    else if longestName < name.utf8ByteSize then .error .nameTooLong
    else
      let there := here ++ [name]
      match t.lookup there with
      | none => if rest.isEmpty then .ok (.vacant there) else .error .missing
      | some .folder => walkAcross t aim cross there rest
      | some (.link target) =>
        if rest.isEmpty && aim == .entry then .ok (.entry there (.link target))
        else cross here target rest
      | some e => if rest.isEmpty then .ok (.entry there e) else .error .notFolder

/-- Follows names from a folder across at most `links` symbolic links. -/
def walk (t : FileTree) (aim : Aim) : (links : Nat) → Location → List String →
    Except FileCause Found
  | 0 => walkAcross t aim fun _ _ _ => .error .tooManyLinks
  | links + 1 => walkAcross t aim fun here target rest =>
    if target.isEmpty then .error .missing
    else walk t aim links (start here target) (steps target ++ rest)

/-- Where a path leads from a folder. -/
def findAim (t : FileTree) (aim : Aim) (here : Location) (path : String) :
    Except FileCause Found :=
  if path.isEmpty then .error .missing
  else if longestPath < path.utf8ByteSize then .error .nameTooLong
  else walk t aim mostLinks (start here path) (steps path)

/-- The entry that a path names, which may be a link. -/
def findEntry (t : FileTree) (here : Location) (path : String) : Except FileCause Found :=
  t.findAim .entry here path

/-- What a path leads to. -/
def find (t : FileTree) (here : Location) (path : String) : Except FileCause Found :=
  t.findAim .target here path

/-! ## Canonical paths -/

/-- How far resolving links has come: the path reached, the path that is given up because a link
leads back to itself, and the links seen, with where they lead once that is known. -/
structure Progress where
  reached : Path
  givenUp : Option String
  seen : Entries Path (Option Path)

/-- A path and the pieces behind it. -/
def behind (path : String) (rest : List String) : String :=
  Path.continued path (String.intercalate "/" rest)

/-- Where the resolution of a path starts: the root, or the path of the folder it stands in. -/
def origin (folder : Path) (path : String) : Path :=
  if path.toList.head? == some '/' then ⟨"/", []⟩ else folder

/-- Resolves pieces behind a path, where `enter` resolves the pieces of a link, if it still may. -/
def resolveWith (t : FileTree) (here : Location)
    (enter : Entries Path (Option Path) → Path → List String → Option Progress)
    (seen : Entries Path (Option Path)) (folder : Path) : List String → Progress
  | [] => ⟨folder, none, seen⟩
  | name :: rest =>
    if name.isEmpty || name == "." then resolveWith t here enter seen folder rest
    else if name == ".." then resolveWith t here enter seen folder.up rest
    else
      let there := folder.child name
      match t.lookup (there.location here) with
      | some (.link target) =>
        match Entries.get? there seen with
        | some (some p) => resolveWith t here enter seen p rest
        | some none => ⟨there, some (behind there.text rest), seen⟩
        | none =>
          match enter (Entries.put there none seen) (origin folder target) (pathPieces target) with
          | none => ⟨there, some (behind there.text rest), seen⟩
          | some inner =>
            match inner.givenUp with
            | some path => { inner with givenUp := some (behind path rest) }
            | none =>
              resolveWith t here enter (Entries.put there (some inner.reached) inner.seen)
                inner.reached rest
      | _ => resolveWith t here enter seen there rest

/-- Resolves pieces behind a path, links inside links at most `depth` deep. -/
def resolve (t : FileTree) (here : Location) : (depth : Nat) → Entries Path (Option Path) → Path →
    List String → Progress
  | 0 => resolveWith t here fun _ _ _ => none
  | depth + 1 => resolveWith t here fun seen folder pieces =>
    some (resolve t here depth seen folder pieces)

/-- The absolute path with its links resolved. A path that is given up at a link that leads back to
itself keeps its remaining pieces. A link has one absolute path and at most one relative path for
every folder above the current one, so links nest no deeper than that many times their number. -/
def canonical (t : FileTree) (here : Location) (path : String) : String :=
  let depth := (here.length + 2) * t.entries.length + 1
  let p := resolve t here depth [] (origin ⟨"", []⟩ path) (pathPieces path)
  (Path.ofText (Path.continued here.text (p.givenUp.getD p.reached.text))).lexical.text

/-! ## Reading and writing -/

/-- Whether a path leads to an entry; a path that cannot be followed does not. -/
def exists? (t : FileTree) (here : Location) (path : String) : Bool :=
  match t.find here path with
  | .ok (.entry ..) => true
  | _ => false

/-- Whether a path leads to a file. -/
def isFile (t : FileTree) (here : Location) (path : String) : Bool :=
  match t.find here path with
  | .ok (.entry _ (.file _)) => true
  | _ => false

/-- A file is an entry. -/
theorem exists?_of_isFile {t : FileTree} {here : Location} {path : String}
    (h : t.isFile here path = true) : t.exists? here path = true := by
  unfold isFile at h
  split at h
  · rename_i found
    simp [exists?, found]
  · cases h

/-- Whether a path leads to a folder. -/
def isFolder (t : FileTree) (here : Location) (path : String) : Bool :=
  match t.find here path with
  | .ok (.entry _ .folder) => true
  | _ => false

/-- Refuses a path whose names are too long; any other text that leads nowhere, which one that holds
the null character does, is just absent. -/
def checked {α : Type} (t : FileTree) (here : Location) (path : String) (answer : α) :
    Except FileFault α :=
  if holdsNull path then .ok answer
  else
    match t.find here path with
    | .error .nameTooLong => .error ⟨.nameTooLong, path⟩
    | _ => .ok answer

/-- The content of the file that a path leads to. -/
def read (t : FileTree) (here : Location) (path : String) : Except FileFault Bytes :=
  match t.find here path with
  | .error cause => .error ⟨cause, path⟩
  | .ok (.vacant _) => .error ⟨.missing, path⟩
  | .ok (.entry _ (.file content)) => .ok content
  | .ok (.entry _ .folder) => .error ⟨.isFolder, path⟩
  | .ok (.entry _ _) => .ok []

/-- The tree with the content of the file that a path leads to, which is created if it is vacant. -/
def write (t : FileTree) (here : Location) (path : String) (content : Bytes) :
    Except FileFault FileTree :=
  match t.findAim .place here path with
  | .error cause => .error ⟨cause, path⟩
  | .ok (.vacant l) => .ok (t.put l (.file content))
  | .ok (.entry l (.file _)) => .ok (t.put l (.file content))
  | .ok (.entry _ .folder) => .error ⟨.isFolder, path⟩
  | .ok (.entry _ _) => .ok t

/-- The tree with a new folder. -/
def makeFolder (t : FileTree) (here : Location) (path : Path) : Except FileFault FileTree :=
  match t.findEntry here path.text with
  | .error cause => .error ⟨cause, path.text⟩
  | .ok (.vacant l) => .ok (t.put l .folder)
  | .ok (.entry ..) => .error ⟨.occupied, path.text⟩

/-- A failed attempt to make a folder is no failure if the folder is there. -/
def orPresent (t : FileTree) (here : Location) (path : Path) (f : FileFault) :
    Except (FileFault × FileTree) FileTree :=
  if t.isFolder here path.text then .ok t else .error (f, t)

/-- The tree with a folder and the folders that hold it; `names` are those below `root`, the last
first. A failure comes with the tree in which the folders made so far stay. -/
def makeFoldersFrom (here : Location) (root : String) : List String → FileTree →
    Except (FileFault × FileTree) FileTree
  | [], t =>
    match t.makeFolder here ⟨root, []⟩ with
    | .ok t => .ok t
    | .error f => orPresent t here ⟨root, []⟩ f
  | name :: above, t =>
    let path : Path := ⟨root, (name :: above).reverse⟩
    match t.makeFolder here path with
    | .ok t => .ok t
    | .error f =>
      if f.cause == .missing then do
        let t ← makeFoldersFrom here root above t
        match t.makeFolder here path with
        | .ok t => .ok t
        | .error f => if f.cause == .missing then .error (f, t) else orPresent t here path f
      else orPresent t here path f

/-- The tree with a folder and the folders that hold it, or why they cannot all be made and the tree
that is left. -/
def makeFolders (t : FileTree) (here : Location) (path : Path) :
    Except (FileFault × FileTree) FileTree :=
  makeFoldersFrom here path.root path.parts.reverse t

end FileTree

end CloudSecrets
