import JitLens.Yaml.Lexer
import JitLens.Yaml.Scalar
/-!
# Nodes

The tree of scalars, sequences and mappings that tokens describe.  A node has a type, by its tag
or by its looks.  An alias stands for the node of its anchor; inside of that node itself only the
fact that it does so is kept.
-/

namespace JitLens.Yaml

/-- A node of a document. -/
inductive Node where
  | scalar (tag : Tag) (text : String)
  | sequence (tag : Tag) (items : List Node)
  | mapping (tag : Tag) (entries : List (Node × Node))
  | enclosing (isMap : Bool)
  deriving Repr, Inhabited

/-- What an anchor stands for: a node, or a collection that is not closed yet. -/
inductive Anchored where
  | node (n : Node)
  | unfinished (isMap : Bool)

/-- Tokens that are still to be read, with the anchors and tag handles that are known. -/
structure Outline where
  tokens : List Token
  anchors : List (String × Anchored) := []
  handles : List (String × String) := []

/-- Readers of tokens. -/
abbrev OutlineM := StateT Outline Read

namespace Outline

/-- The reader that fails. -/
def fail {α : Type} (fault : Fault) : OutlineM α :=
  fun _ => refuse fault

/-- The next token. -/
def peek : OutlineM (Option Token) := do
  return (← get).tokens.head?

/-- Passes the next token over. -/
def skip : OutlineM Unit :=
  modify fun o => { o with tokens := o.tokens.drop 1 }

def nextIs (ts : List Token) : OutlineM Bool := do
  match ← peek with
  | some t => return ts.contains t
  | none => return false

/-- Handles that are always known. -/
def standardHandles : List (String × String) := [("!", "!"), ("!!", standardTags)]

/-- The name of a tag as it is written. -/
def tagName (handle : Option String) (rest : String) : OutlineM String := do
  match handle with
  | none => return rest
  | some h =>
    match (← get).handles.lookup h with
    | some lead => return lead ++ rest
    | none => fail .unknownHandle

/-- The anchor and the tag before a node, in either order. -/
def properties : OutlineM (Option String × Option String) := do
  match (← get).tokens with
  | .anchor a :: .tag h r :: _ => do
    skip
    skip
    return (some a, some (← tagName h r))
  | .anchor a :: _ => do
    skip
    return (some a, none)
  | .tag h r :: .anchor a :: _ => do
    skip
    skip
    return (some a, some (← tagName h r))
  | .tag h r :: _ => do
    skip
    return (none, some (← tagName h r))
  | _ => return (none, none)

/-- Gives an anchor its meaning. -/
def anchorTo (anchor : Option String) (meaning : Anchored) : OutlineM Unit :=
  match anchor with
  | none => pure ()
  | some a => modify fun o => { o with anchors := (a, meaning) :: o.anchors }

/-- Refuses an anchor that has a meaning already. -/
def checkAnchor (anchor : Option String) : OutlineM Unit := do
  match anchor with
  | none => pure ()
  | some a => if ((← get).anchors.lookup a).isSome then fail .repeatedAnchor else pure ()

/-- The type of a collection with the tag given. -/
def collectionTag (plain : Tag) : Option String → Tag
  | none => plain
  | some "!" => plain
  | some name => .ofName name

/-- The type of a scalar with the tag given. -/
def scalarTag (plain : Bool) (text : String) : Option String → Tag
  | none => if plain then implicitTag text else .text
  | some "!" => implicitTag text
  | some name => .ofName name

/-- A scalar that is not written. -/
def emptyNode : Node := .scalar .null ""

/-- A collection with its anchor, whose content is read by the reader given. -/
def collection (anchor : Option String) (isMap : Bool) (content : OutlineM Node) :
    OutlineM Node := do
  anchorTo anchor (.unfinished isMap)
  let n ← content
  anchorTo anchor (.node n)
  return n

/-- Where a node stands, which tells the collections that may start there. -/
inductive Place where
  | block
  /-- The value of a mapping, where a sequence needs no indentation. -/
  | blockValue
  | flow
  deriving DecidableEq

mutual

/-- Reads a node. -/
def node (place : Place) : Nat → OutlineM Node
  | 0 => fail .depth
  | fuel + 1 => do
    match ← peek with
    | some (.reference name) =>
      skip
      match (← get).anchors.lookup name with
      | some (.node n) => return n
      | some (.unfinished isMap) => return .enclosing isMap
      | none => fail .unknownAlias
    | _ =>
      let (anchor, tag) ← properties
      checkAnchor anchor
      match ← peek with
      | some .blockEntry =>
        if place = .blockValue then
          collection anchor false do
            return .sequence (collectionTag .sequence tag) (← indentlessItems fuel)
        else absent anchor tag
      | some (.scalar text plain) =>
        skip
        let n := Node.scalar (scalarTag plain text tag) text
        anchorTo anchor (.node n)
        return n
      | some .flowSequenceStart =>
        skip
        collection anchor false do
          return .sequence (collectionTag .sequence tag) (← flowItems true fuel)
      | some .flowMappingStart =>
        skip
        collection anchor true do
          return .mapping (collectionTag .mapping tag) (← flowEntries true fuel)
      | some .blockSequenceStart =>
        if place = .flow then absent anchor tag
        else
          skip
          collection anchor false do
            return .sequence (collectionTag .sequence tag) (← blockItems fuel)
      | some .blockMappingStart =>
        if place = .flow then absent anchor tag
        else
          skip
          collection anchor true do
            return .mapping (collectionTag .mapping tag) (← blockEntries fuel)
      | _ => absent anchor tag

/-- The node of an anchor or a tag that nothing follows. -/
def absent (anchor tag : Option String) : OutlineM Node := do
  if anchor.isSome || tag.isSome then
    let n := Node.scalar (scalarTag true "" tag) ""
    anchorTo anchor (.node n)
    return n
  else fail .nodeContent

/-- Reads the items of a block sequence. -/
def blockItems : Nat → OutlineM (List Node)
  | 0 => fail .depth
  | fuel + 1 => do
    match ← peek with
    | some .blockEntry =>
      skip
      let n ←
        if ← nextIs [.blockEntry, .blockEnd] then pure emptyNode else node .block fuel
      return n :: (← blockItems fuel)
    | some .blockEnd =>
      skip
      return []
    | _ => fail .blockEnd

/-- Reads the items of a sequence that is not indented. -/
def indentlessItems : Nat → OutlineM (List Node)
  | 0 => fail .depth
  | fuel + 1 => do
    match ← peek with
    | some .blockEntry =>
      skip
      let n ←
        if ← nextIs [.blockEntry, .key, .value, .blockEnd] then pure emptyNode
        else node .block fuel
      return n :: (← indentlessItems fuel)
    | _ => return []

/-- Reads the entries of a block mapping. -/
def blockEntries : Nat → OutlineM (List (Node × Node))
  | 0 => fail .depth
  | fuel + 1 => do
    match ← peek with
    | some .key =>
      skip
      let k ←
        if ← nextIs [.key, .value, .blockEnd] then pure emptyNode else node .blockValue fuel
      let v ← blockValue fuel
      return (k, v) :: (← blockEntries fuel)
    | some .blockEnd =>
      skip
      return []
    | _ => fail .blockEnd

/-- Reads the value of an entry of a block mapping. -/
def blockValue : Nat → OutlineM Node
  | 0 => fail .depth
  | fuel + 1 => do
    match ← peek with
    | some .value =>
      skip
      if ← nextIs [.key, .value, .blockEnd] then return emptyNode else node .blockValue fuel
    | _ => return emptyNode

/-- Reads the items of a flow sequence; an entry of a mapping may stand as an item. -/
def flowItems (first : Bool) : Nat → OutlineM (List Node)
  | 0 => fail .depth
  | fuel + 1 => do
    if ← nextIs [.flowSequenceEnd] then
      skip
      return []
    else
      if !first then
        if ← nextIs [.flowEntry] then skip else fail .flowSeparator
      match ← peek with
      | some .key =>
        skip
        let k ←
          if ← nextIs [.value, .flowEntry, .flowSequenceEnd] then pure emptyNode
          else node .flow fuel
        let v ← flowValue [.flowEntry, .flowSequenceEnd] fuel
        return .mapping .mapping [(k, v)] :: (← flowItems false fuel)
      | some .flowSequenceEnd =>
        skip
        return []
      | _ =>
        let n ← node .flow fuel
        return n :: (← flowItems false fuel)

/-- Reads the value behind a key in a flow collection, if there is one before its end. -/
def flowValue (ends : List Token) : Nat → OutlineM Node
  | 0 => fail .depth
  | fuel + 1 => do
    if ← nextIs [.value] then
      skip
      if ← nextIs ends then return emptyNode else node .flow fuel
    else return emptyNode

/-- Reads the entries of a flow mapping. -/
def flowEntries (first : Bool) : Nat → OutlineM (List (Node × Node))
  | 0 => fail .depth
  | fuel + 1 => do
    if ← nextIs [.flowMappingEnd] then
      skip
      return []
    else
      if !first then
        if ← nextIs [.flowEntry] then skip else fail .flowSeparator
      match ← peek with
      | some .key =>
        skip
        let k ←
          if ← nextIs [.value, .flowEntry, .flowMappingEnd] then pure emptyNode
          else node .flow fuel
        let v ← flowValue [.flowEntry, .flowMappingEnd] fuel
        return (k, v) :: (← flowEntries false fuel)
      | some .flowMappingEnd =>
        skip
        return []
      | _ =>
        let k ← node .flow fuel
        return (k, emptyNode) :: (← flowEntries false fuel)

end

/-- Reads the directives before a document; the version may be given once and each handle once. -/
def directives (versionSeen : Bool) : List Token → List (String × String) →
    Read (List Token × List (String × String))
  | .directive (.version major) :: ts, handles =>
    if versionSeen then refuse .repeatedDirective
    else if major ≠ 1 then refuse .version
    else directives true ts handles
  | .directive (.tag handle lead) :: ts, handles =>
    if (handles.lookup handle).isSome then refuse .repeatedDirective
    else directives versionSeen ts ((handle, lead) :: handles)
  | .directive .other :: ts, handles => directives versionSeen ts handles
  | ts, handles => .ok (ts, handles)

/-- The end of a text behind its document. -/
def finish (root : Node) : OutlineM (Option Node) := do
  let o ← get
  if (o.tokens.dropWhile (· == .documentEnd)).isEmpty then return some root
  else fail .secondDocument

end Outline

/-- The document of a list of tokens; a text without a document has none. -/
def Node.ofTokens? (ts : List Token) : Read (Option Node) := do
  let fuel := 4 * ts.length + 8
  let starts := match ts with
    | [] | .directive _ :: _ | .documentStart :: _ => true
    | _ => false
  if !starts then
    (do Outline.finish (← Outline.node .block fuel) : OutlineM (Option Node)).run'
      { tokens := ts, handles := Outline.standardHandles }
  else if ts.isEmpty then .ok none
  else
    let (ts, handles) ← Outline.directives false ts []
    match ts with
    | .documentStart :: ts =>
      let content : OutlineM Node := do
        match ← Outline.peek with
        | none | some (.directive _) | some .documentStart | some .documentEnd =>
          return Outline.emptyNode
        | _ => Outline.node .block fuel
      (do Outline.finish (← content) : OutlineM (Option Node)).run'
        { tokens := ts, handles := handles ++ Outline.standardHandles }
    | _ => refuse .documentStart

end JitLens.Yaml
