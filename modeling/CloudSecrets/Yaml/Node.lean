import CloudSecrets.Yaml.Tag
import CloudSecrets.Yaml.Token

/-!
# Nodes

A document is a tree of nodes: texts, sequences and mappings, each with its tag. Anchors name nodes,
and an alias stands for the node it names; inside that very node it stands for the enclosing
collection. `Node.read` builds the tree of the only document of a text from its tokens. It asks for
a token only when it needs one, so the first fault, of the tokens or of their order, is reported.

The fuel bounds the number of steps; each step that takes no token is followed by one that does, so
a multiple of the number of tokens is always enough.
-/

namespace CloudSecrets.Yaml

/-- A node of a document. -/
inductive Node where
  | scalar (tag : Tag) (text : List Char)
  | sequence (tag : Tag) (items : List Node)
  | mapping (tag : Tag) (entries : List (Node × Node))
  /-- An enclosing sequence (`false`) or mapping (`true`) once more. -/
  | enclosing (isMap : Bool)
  deriving Repr

namespace Node

/-- What an anchor names: a finished node, or a collection that is still being read. -/
inductive Named where
  | finished (n : Node)
  | unfinished (isMap : Bool)

/-- The state of reading: the tokens that are left, the fault behind them, the tag handles and the
anchors of the document. -/
structure State where
  tokens : List Token
  fault : Option Fault
  handles : Entries String String := []
  anchors : Entries String Named := []

/-- A part of reading a document. -/
abbrev Reader := StateT State (Except Fault)

/-- A document that is not well-formed. -/
def refuse {α : Type} : Reader α := fun _ => .error .malformed

/-- The next token. -/
def peek : Reader Token := fun s =>
  match s.tokens with
  | t :: _ => .ok (t, s)
  | [] => .error (s.fault.getD .malformed)

/-- Leaves the next token behind. -/
def advance : Reader Unit := fun s => .ok ((), { s with tokens := s.tokens.drop 1 })

/-- Leaves the next token behind if it is the given one, and says whether it was. -/
def accept (t : Token) : Reader Bool := do
  if (← peek) == t then
    advance
    return true
  else return false

/-! ## Properties of nodes -/

/-- The tag that a handle and a suffix write. -/
def fullTag : Option String → String → Reader String
  | none, suffix => return suffix
  | some h, suffix => do
    match Entries.get? h (← get).handles with
    | some start => return start ++ suffix
    | none => refuse

/-- An anchor and a tag in either order, each optional. -/
def properties : Reader (Option String × Option (Option String × String)) := do
  match ← peek with
  | .anchor a => do
    advance
    match ← peek with
    | .tag h s => do
      advance
      return (some a, some (h, s))
    | _ => return (some a, none)
  | .tag h s => do
    advance
    match ← peek with
    | .anchor a => do
      advance
      return (some a, some (h, s))
    | _ => return (none, some (h, s))
  | _ => return (none, none)

/-- Names a node. An anchor names one node only. -/
def nameNode (anchor : Option String) (n : Named) : Reader Unit :=
  match anchor with
  | none => return ()
  | some a => modify fun s => { s with anchors := Entries.put a n s.anchors }

/-- Refuses an anchor that already names a node. -/
def checkAnchor (anchor : Option String) : Reader Unit :=
  match anchor with
  | none => return ()
  | some a => do if Entries.has a (← get).anchors then refuse else return ()

/-- The tag of a text: the written one, or that of its form unless quotes make it a string. -/
def scalarTag (tag : Option String) (text : List Char) (plain : Bool) : Tag :=
  match tag with
  | some "!" => formTag text
  | some t => Tag.ofName t
  | none => if plain then formTag text else .str

/-- The tag of a collection: the written one, or the usual one. -/
def collectionTag (tag : Option String) (usual : Tag) : Tag :=
  match tag with
  | some "!" => usual
  | some t => Tag.ofName t
  | none => usual

/-- The node that stands where none is written. -/
def absent : Node := .scalar .null []

/-- The node that an alias stands for. -/
def aliased (name : String) : Reader Node := do
  match Entries.get? name (← get).anchors with
  | some (.finished n) => return n
  | some (.unfinished isMap) => return .enclosing isMap
  | none => refuse

/-- Whether a token ends an entry of a flow sequence. -/
def endsFlowItem (t : Token) : Bool := t == .flowEntry || t == .flowSequenceEnd

/-- Whether a token ends an entry of a flow mapping. -/
def endsFlowEntry (t : Token) : Bool := t == .flowEntry || t == .flowMappingEnd

/-- Whether a token ends a part of an entry of a block mapping. -/
def endsBlockPart (t : Token) : Bool := t == .key || t == .value || t == .blockEnd

/-- Finishes a collection that has been read by `body`, naming it before and after. -/
def collection (anchor : Option String) (isMap : Bool) (body : Reader Node) : Reader Node := do
  nameNode anchor (.unfinished isMap)
  let n ← body
  nameNode anchor (.finished n)
  return n

/-! ## Nodes by their tokens -/

/-- A node of which only properties are written. -/
def emptyNode (anchor tag : Option String) : Reader Node := do
  if anchor.isNone && tag.isNone then refuse
  else
    checkAnchor anchor
    let n := Node.scalar (scalarTag tag [] true) []
    nameNode anchor (.finished n)
    return n

mutual

/-- A node. Block collections are allowed only if `block` says so, and a sequence without
indentation of its own only if `bare` does. -/
def node (block bare : Bool) : Nat → Reader Node
  | 0 => refuse
  | fuel + 1 => do
    match ← peek with
    | .alias name => do
      advance
      aliased name
    | _ => do
      let (anchor, tagParts) ← properties
      let tag ← match tagParts with
        | some (h, s) => some <$> fullTag h s
        | none => pure none
      let t ← peek
      if bare && t == .blockEntry then do
        checkAnchor anchor
        collection anchor false do
          return .sequence (collectionTag tag .seq) (← bareItems fuel)
      else
        match t with
        | .scalar text plain => do
          advance
          checkAnchor anchor
          let n := Node.scalar (scalarTag tag text plain) text
          nameNode anchor (.finished n)
          return n
        | .flowSequenceStart => do
          checkAnchor anchor
          advance
          collection anchor false do
            return .sequence (collectionTag tag .seq) (← flowItems true fuel)
        | .flowMappingStart => do
          checkAnchor anchor
          advance
          collection anchor true do
            return .mapping (collectionTag tag .map) (← flowEntries true fuel)
        | .blockSequenceStart => do
          if !block then emptyNode anchor tag
          else
            checkAnchor anchor
            advance
            collection anchor false do
              return .sequence (collectionTag tag .seq) (← blockItems fuel)
        | .blockMappingStart => do
          if !block then emptyNode anchor tag
          else
            checkAnchor anchor
            advance
            collection anchor true do
              return .mapping (collectionTag tag .map) (← blockEntries fuel)
        | _ => emptyNode anchor tag

/-- The items of a block sequence up to its end. -/
def blockItems : Nat → Reader (List Node)
  | 0 => refuse
  | fuel + 1 => do
    if ← accept .blockEntry then
      let t ← peek
      let item ←
        if t == .blockEntry || t == .blockEnd then pure absent else node true false fuel
      return item :: (← blockItems fuel)
    else if ← accept .blockEnd then return []
    else refuse

/-- The items of a block sequence that shares its indentation with the mapping around it. -/
def bareItems : Nat → Reader (List Node)
  | 0 => refuse
  | fuel + 1 => do
    if ← accept .blockEntry then
      let t ← peek
      let item ←
        if t == .blockEntry || endsBlockPart t then pure absent else node true false fuel
      return item :: (← bareItems fuel)
    else return []

/-- The entries of a block mapping up to its end. -/
def blockEntries : Nat → Reader (List (Node × Node))
  | 0 => refuse
  | fuel + 1 => do
    if ← accept .key then
      let k ← if endsBlockPart (← peek) then pure absent else node true true fuel
      let v ← blockValue fuel
      return (k, v) :: (← blockEntries fuel)
    else if ← accept .blockEnd then return []
    else refuse

/-- The value of an entry of a block mapping. -/
def blockValue : Nat → Reader Node
  | 0 => refuse
  | fuel + 1 => do
    if ← accept .value then
      if endsBlockPart (← peek) then return absent else node true true fuel
    else return absent

/-- The items of a flow sequence up to its bracket. An item with a key is a mapping of one entry. -/
def flowItems (first : Bool) : Nat → Reader (List Node)
  | 0 => refuse
  | fuel + 1 => do
    if ← accept .flowSequenceEnd then return []
    else
      let separated ← if first then pure true else accept .flowEntry
      if !separated then refuse
      else if ← accept .key then
        let t ← peek
        let k ← if t == .value || endsFlowItem t then pure absent else node false false fuel
        let v ←
          if ← accept .value then
            if endsFlowItem (← peek) then pure absent else node false false fuel
          else pure absent
        return .mapping .map [(k, v)] :: (← flowItems false fuel)
      else if (← peek) == .flowSequenceEnd then
        advance
        return []
      else
        let item ← node false false fuel
        return item :: (← flowItems false fuel)

/-- The entries of a flow mapping up to its brace. A node without a colon is a key without value. -/
def flowEntries (first : Bool) : Nat → Reader (List (Node × Node))
  | 0 => refuse
  | fuel + 1 => do
    if ← accept .flowMappingEnd then return []
    else
      let separated ← if first then pure true else accept .flowEntry
      if !separated then refuse
      else if ← accept .key then
        let t ← peek
        let k ← if t == .value || endsFlowEntry t then pure absent else node false false fuel
        let v ←
          if ← accept .value then
            if endsFlowEntry (← peek) then pure absent else node false false fuel
          else pure absent
        return (k, v) :: (← flowEntries false fuel)
      else if (← peek) == .flowMappingEnd then
        advance
        return []
      else
        let k ← node false false fuel
        return (k, absent) :: (← flowEntries false fuel)

end

/-! ## Documents -/

/-- The handles that every document knows. -/
def usualHandles : Entries String String := [("!", "!"), ("!!", standardTags)]

/-- Reads the directives before a document. -/
def directives : Nat → Bool → Entries String String → Reader (Entries String String)
  | 0, _, _ => refuse
  | fuel + 1, versioned, handles => do
    match ← peek with
    | .version major => do
      advance
      if versioned || major != 1 then refuse else directives fuel true handles
    | .tagHandle h start => do
      advance
      if Entries.has h handles then refuse
      else directives fuel versioned (handles ++ [(h, start)])
    | .directive => do
      advance
      directives fuel versioned handles
    | _ => return handles

/-- Adds the usual handles that have not been given. -/
def withUsual (handles : Entries String String) : Entries String String :=
  handles ++ usualHandles.filter fun (h, _) => !Entries.has h handles

/-- The content of a document that starts with a marker. -/
def content (fuel : Nat) : Reader Node := do
  match ← peek with
  | .version _ | .tagHandle .. | .directive | .documentStart | .documentEnd | .streamEnd =>
    return absent
  | _ => node true false fuel

/-- Leaves markers of a document's end behind. -/
def skipEnds : Nat → Reader Unit
  | 0 => refuse
  | fuel + 1 => do if ← accept .documentEnd then skipEnds fuel else return ()

/-- Requires the text to end here, after at most the marker of the document's end. -/
def finish (fuel : Nat) : Reader Unit := do
  skipEnds fuel
  if (← peek) == .streamEnd then return () else refuse

/-- The only document of a text, if there is one. -/
def document (fuel : Nat) : Reader (Option Node) := do
  match ← peek with
  | .streamEnd => return none
  | .version _ | .tagHandle .. | .directive | .documentStart => do
    let handles ← directives fuel false []
    modify fun s => { s with handles := withUsual handles }
    if ← accept .documentStart then
      let n ← content fuel
      finish fuel
      return some n
    else refuse
  | _ => do
    modify fun s => { s with handles := usualHandles }
    let n ← node true false fuel
    finish fuel
    return some n

/-- The root of the only document of a text. -/
def read (cs : List Char) : Except Fault (Option Node) :=
  let (tokens, fault) := Token.scan cs
  (document (4 * tokens.length + 16) |>.run { tokens := tokens, fault := fault }).map (·.1)

end Node

end CloudSecrets.Yaml
