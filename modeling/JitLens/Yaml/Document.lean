import JitLens.Yaml.Node
/-!
# Documents

Reads a settings text into a value.  The entries of a mapping that are merged into another one
come before its own, so that its own win.
-/

namespace JitLens.Yaml

namespace Node

/-- Whether a node is a key that merges its value into the mapping. -/
def isMerge : Node → Bool
  | .scalar .merge _ | .sequence .merge _ | .mapping .merge _ => true
  | _ => false

/-- Whether a node is the key of the value that a mapping stands for. -/
def isDefault : Node → Bool
  | .scalar .defaultValue _ | .sequence .defaultValue _ | .mapping .defaultValue _ => true
  | _ => false

mutual

/-- The text of a scalar; a mapping with a default value stands for that. -/
def scalarText : Node → Read String
  | .scalar _ text => .ok text
  | .mapping _ entries => defaultText entries
  | .sequence _ _ | .enclosing _ => refuse .wrongKind

/-- The text of the default value among entries. -/
def defaultText : List (Node × Node) → Read String
  | [] => refuse .wrongKind
  | (k, v) :: rest => if k.isDefault then v.scalarText else defaultText rest

end

/-- Whether a type is that of a collection or unknown. -/
def isScalarTag : Tag → Bool
  | .null | .bool | .int | .float | .binary | .timestamp | .text => true
  | _ => false

/-- The fault of a node whose kind its type does not allow. -/
def kindFault (tag : Tag) : Fault :=
  match tag with
  | .merge | .defaultValue | .unknown => .unknownTag
  | _ => .wrongKind

mutual

def value : Node → Read Value
  | .enclosing isMap => .ok (.enclosing isMap)
  | .scalar tag text => readScalar tag text
  | .sequence tag items =>
    match tag with
    | .sequence => (values items).map .list
    | .orderedMap | .pairs => (pairValues items).map .pairs
    | tag => refuse (kindFault tag)
  | .mapping tag entries =>
    match tag with
    | .mapping => do
      let (merged, own) ← entryValues entries
      .ok (.map ((merged ++ own).foldl (fun es (k, v) => Value.putEntry es k v) []))
    | .set => do
      let (merged, own) ← entryValues entries
      let es := (merged ++ own).foldl (fun es (k, v) => Value.putEntry es k v) []
      .ok (.set (es.map Prod.fst))
    | tag =>
      if isScalarTag tag then do readScalar tag (← defaultText entries)
      else refuse (kindFault tag)

def values : List Node → Read (List Value)
  | [] => .ok []
  | n :: ns => do
    let v ← n.value
    .ok (v :: (← values ns))

/-- The pairs that mappings of one entry each stand for. -/
def pairValues : List Node → Read (List (Value × Value))
  | [] => .ok []
  | .mapping _ [(k, v)] :: ns => do
    let key ← k.value
    let v ← v.value
    .ok ((key, v) :: (← pairValues ns))
  | _ :: _ => refuse .wrongKind

/-- The entries that are merged into a mapping and its own ones. -/
def entryValues : List (Node × Node) → Read (List (Value × Value) × List (Value × Value))
  | [] => .ok ([], [])
  | (k, v) :: rest => do
    if k.isMerge then
      let here ← v.mergedValues
      let (merged, own) ← entryValues rest
      .ok (here ++ merged, own)
    else
      let key ← if k.isDefault then (k.scalarText).map .text else k.value
      if !key.isKey then refuse .keyKind
      else
        let v ← v.value
        let (merged, own) ← entryValues rest
        .ok (merged, (key, v) :: own)

/-- The entries of a mapping, or of several ones, the first of which win. -/
def mergedValues : Node → Read (List (Value × Value))
  | .mapping _ entries => do
    let (merged, own) ← entryValues entries
    .ok (merged ++ own)
  | .sequence _ items => mergedAll items
  | .enclosing _ => refuse .enclosingAlias
  | .scalar _ _ => refuse .mergeKind

/-- The entries of several mappings, those of the last one first. -/
def mergedAll : List Node → Read (List (Value × Value))
  | [] => .ok []
  | .mapping _ entries :: ns => do
    let (merged, own) ← entryValues entries
    let later ← mergedAll ns
    .ok (later ++ (merged ++ own))
  | .enclosing _ :: _ => refuse .enclosingAlias
  | _ :: _ => refuse .mergeKind

end

end Node

/-- Reads a settings text; a text without a document is nothing. -/
def read (cs : List Char) : Read Value := do
  match ← Node.ofTokens? (← tokens cs) with
  | none => .ok .null
  | some root => root.value

end JitLens.Yaml
