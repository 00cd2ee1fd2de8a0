import CloudSecrets.Yaml.Node
import CloudSecrets.Yaml.Scalar

/-!
# Values of documents

A document is evaluated level by level: texts at once, the members of a collection one level after
the collection itself. So the fault that is reported is one of least depth, and of several at that
depth the first. The entries of a merge key join the mapping in front of its own entries; of several
entries with one key the first keeps its place and the last its value.
-/

namespace CloudSecrets.Yaml

/-- A fault with the level at which it is noticed. -/
structure Deep where
  level : Nat
  fault : Fault

/-- A value, or the fault that is noticed first. -/
abbrev Evaluated (α : Type) := Except Deep α

/-- Both values, or the fault that is noticed first: that of lesser depth, the left one of two at
the same depth. -/
def both {α β : Type} (a : Evaluated α) (b : Evaluated β) : Evaluated (α × β) :=
  match a, b with
  | .ok a, .ok b => .ok (a, b)
  | .error e, .error f => .error (if f.level < e.level then f else e)
  | .error e, .ok _ => .error e
  | .ok _, .error f => .error f

namespace Node

/-- The tag of a node. -/
def tag : Node → Tag
  | .scalar t _ => t
  | .sequence t _ => t
  | .mapping t _ => t
  | .enclosing isMap => if isMap then .map else .seq

/-- The text of a node: that of a scalar, or of the value key of a mapping. -/
def text? : Node → Option (List Char)
  | .scalar _ cs => some cs
  | .mapping _ es => valueText? es
  | _ => none
where
  /-- The text behind the first value key. -/
  valueText? : List (Node × Node) → Option (List Char)
    | [] => none
    | (.scalar .value _, v) :: _ => text? v
    | _ :: es => valueText? es

/-- A key as it stands in a mapping: the value key is a string there. -/
def asKey : Node → Node
  | .scalar .value cs => .scalar .str cs
  | n => n

mutual

/-- The merged entries and the own entries of a mapping. -/
def separate : List (Node × Node) → Option (List (Node × Node) × List (Node × Node))
  | [] => some ([], [])
  | (k, v) :: es => do
    let (merged, own) ← separate es
    if k.tag == .merge then
      let front ← mergedFrom v
      some (front ++ merged, own)
    else some (merged, (k.asKey, v) :: own)

/-- The entries that a merge key brings in: those of a mapping, or of a sequence of mappings in
which earlier ones win. -/
def mergedFrom : Node → Option (List (Node × Node))
  | .mapping _ es => (separate es).map fun (merged, own) => merged ++ own
  | .sequence _ items => mergedFromAll items
  | .enclosing true => some []
  | _ => none

/-- The entries of a sequence of mappings, the last mapping first. -/
def mergedFromAll : List Node → Option (List (Node × Node))
  | [] => some []
  | .mapping _ es :: items => do
    let (merged, own) ← separate es
    let rest ← mergedFromAll items
    some (rest ++ (merged ++ own))
  | .enclosing true :: items => mergedFromAll items
  | _ :: _ => none

end

/-- The entries of a mapping with its merges carried out: merged entries, then its own. -/
def flatten (es : List (Node × Node)) : Option (List (Node × Node)) :=
  (separate es).map fun (merged, own) => merged ++ own

mutual

/-- How many levels of collections a node has. -/
def depth : Node → Nat
  | .sequence _ items => depths items + 1
  | .mapping _ es => entryDepths es + 1
  | _ => 1

/-- The greatest depth of several nodes. -/
def depths : List Node → Nat
  | [] => 0
  | n :: ns => max n.depth (depths ns)

/-- The greatest depth of several entries. -/
def entryDepths : List (Node × Node) → Nat
  | [] => 0
  | (k, v) :: es => max (max k.depth v.depth) (entryDepths es)

end

end Node

/-! ## Evaluation -/

/-- A document that is not well-formed, noticed at a level. -/
def malformedAt {α : Type} (level : Nat) : Evaluated α := .error ⟨level, .malformed⟩

/-- All values, or the fault that is noticed first. -/
def all {α : Type} : List (Evaluated α) → Evaluated (List α)
  | [] => .ok []
  | e :: es => (both e (all es)).map fun (v, vs) => v :: vs

/-- A value as a key of a mapping whose members are at a level. A collection is no key, whatever is
wrong inside it. -/
def keyAt (level : Nat) : Evaluated Value → Evaluated Value
  | .ok v => if v.canBeKey then .ok v else malformedAt level
  | .error e => if level < e.level then malformedAt level else .error e

/-- The map of a list of entries, later ones replacing the values of earlier ones. -/
def mapOf (es : List (Value × Value)) : List (Value × Value) :=
  es.foldl (fun m e => Value.putEntry e.1 e.2 m) []

/-- The value of a node at a level; the fuel is at least the depth of the node. -/
def evaluate : Nat → Nat → Node → Evaluated Value
  | 0, level, _ => malformedAt level
  | fuel + 1, level, n =>
    let entries (es : List (Node × Node)) : Evaluated (List (Value × Value)) :=
      all (es.map fun (k, v) =>
        both (keyAt (level + 1) (evaluate fuel (level + 1) k)) (evaluate fuel (level + 1) v))
    let pairOf : Node → Evaluated Value
      | .mapping _ [(k, v)] =>
        (both (evaluate fuel (level + 1) k) (evaluate fuel (level + 1) v)).map fun (a, b) =>
          .pair a b
      | _ => malformedAt (level + 1)
    match n.tag with
    | .seq =>
      match n with
      | .sequence _ items => (all (items.map (evaluate fuel (level + 1)))).map .list
      | .enclosing isMap => .ok (.enclosing isMap)
      | _ => malformedAt (level + 1)
    | .omap | .pairs =>
      match n with
      | .sequence _ items => (all (items.map pairOf)).map .list
      | _ => malformedAt (level + 1)
    | .map =>
      match n with
      | .mapping _ es =>
        match Node.flatten es with
        | some es => (entries es).map fun es => .map (mapOf es)
        | none => malformedAt (level + 1)
      | .enclosing isMap => .ok (.enclosing isMap)
      | _ => malformedAt (level + 1)
    | .set =>
      match n with
      | .mapping _ es =>
        match Node.flatten es with
        | some es => (entries es).map fun es => .set ((mapOf es).map (·.1))
        | none => malformedAt (level + 1)
      | _ => malformedAt (level + 1)
    | tag =>
      match n.text?.bind (scalarValue? tag) with
      | some (.ok v) => .ok v
      | some (.error f) => .error ⟨level, f⟩
      | none => malformedAt level

/-- Whether a character may stand in a document. -/
def isDocumentChar (c : Char) : Bool :=
  let n := c.toNat
  n == 9 || n == 10 || n == 13 || (0x20 ≤ n && n ≤ 0x7E) || n == 0x85 || (0xA0 ≤ n && n ≤ 0xD7FF)
    || (0xE000 ≤ n && n ≤ 0xFFFD) || 0x10000 ≤ n

/-- A map in which the map itself stands for every value that names it once more. -/
def unrolled : Value → Value
  | .map es => .map (es.map fun (k, v) => (k, if v == .enclosing true then .map es else v))
  | v => v

/-- The value of the only document of a text; a text without a document stands for null. -/
def read (cs : List Char) : Except Fault Value :=
  if !cs.all isDocumentChar then .error .malformed
  else
    match Node.read cs with
    | .error f => .error f
    | .ok none => .ok .null
    | .ok (some n) => ((evaluate n.depth 0 n).map unrolled).mapError (·.fault)

end CloudSecrets.Yaml
