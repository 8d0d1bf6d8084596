import RetryWeave.Yaml.Lexer

/-!
The nodes of the first document of a YAML stream.
-/

namespace RetryWeave.Yaml

mutual

/-- A node of a document. Tags are kept in their short form, such as `!!int`. -/
inductive Node where
  | scalar (tag : Option (List Char)) (isPlain : Bool) (text : List Char)
  | sequence (items : List Node)
  | mapping (entries : List Entry)
  | alias (name : List Char) (target : Node)
  /-- An alias inside the node that it names. -/
  | loop (name : List Char)

/-- A key and its value. -/
inductive Entry where
  | mk (key value : Node)

end

namespace Entry

def key : Entry → Node
  | mk k _ => k

def value : Entry → Node
  | mk _ v => v

end Entry

namespace Node

/-- A node of which nothing is written. -/
def empty : Node := .scalar none true []

end Node

/-- The tokens that are left, the handles of tags, and the nodes that have names. -/
structure Reader where
  tokens : List Token
  handles : List (List Char × List Char)
  /-- A name without a node belongs to a node that is being read. -/
  anchors : List (List Char × Option Node)

abbrev Read := StateT Reader Option

namespace Read

def refuse {α : Type} : Read α := fun _ => none

/-- The token at hand. Where the stream is broken there is none. -/
def peek : Read Token := do
  match (← get).tokens with
  | [] => return .streamEnd
  | .broken :: _ => refuse
  | t :: _ => return t

def skip : Read Unit := modify fun r => { r with tokens := r.tokens.tail }

/-- Gives a name to the node that is read next. -/
def openName (name : Option (List Char)) : Read Unit :=
  match name with
  | none => pure ()
  | some name => modify fun r => { r with anchors := (name, none) :: r.anchors }

/-- The innermost node that is being read under a name is complete. -/
def fillName (name : List Char) (n : Node) :
    List (List Char × Option Node) → List (List Char × Option Node)
  | [] => []
  | (m, none) :: rest => if m = name then (m, some n) :: rest else (m, none) :: fillName name n rest
  | e :: rest => e :: fillName name n rest

def closeName (name : Option (List Char)) (n : Node) : Read Unit :=
  match name with
  | none => pure ()
  | some name => modify fun r => { r with anchors := fillName name n r.anchors }

def aliased (name : List Char) : Read Node := do
  match (← get).anchors.lookup name with
  | some (some n) => return .alias name n
  | some none => return .loop name
  | none => refuse

/-! ### Tags and anchors -/

/-- What the tags of the format's own types start with. -/
def coreStem : List Char := "tag:yaml.org,2002:".toList

/-- The short form of a tag. -/
def shortTag (tag : List Char) : List Char :=
  if coreStem.isPrefixOf tag then '!' :: '!' :: tag.drop coreStem.length else tag

def resolveTag (handle suffix : List Char) : Read (List Char) := do
  if handle.isEmpty then return suffix
  else
    match (← get).handles.lookup handle with
    | some stem => return stem ++ suffix
    | none => refuse

def acceptTag : Read (Option (List Char)) := do
  match ← peek with
  | .tag handle suffix =>
    skip
    return some (← resolveTag handle suffix)
  | _ => return none

def acceptAnchor : Read (Option (List Char)) := do
  match ← peek with
  | .anchor name =>
    skip
    return some name
  | _ => return none

/-- The anchor and the tag of a node, in either order. -/
def properties : Read (Option (List Char) × Option (List Char)) := do
  match ← acceptAnchor with
  | some name => return (some name, ← acceptTag)
  | none =>
    let tag ← acceptTag
    if tag.isSome then return (← acceptAnchor, tag) else return (none, none)

/-- The tag that tells something about a node: neither an empty one nor a lone mark. -/
def tellingTag (tag : Option (List Char)) : Option (List Char) :=
  (tag.filter fun t => !(t.isEmpty || t == ['!'])).map shortTag

/-! ### Nodes -/

/-- A node unless one of the given tokens stands in its place. -/
def unlessAt (stops : List Token) (node : Read Node) : Read Node := do
  if stops.contains (← peek) then return .empty else node

/-- The value after a value mark; without the mark the value is empty. -/
def valueUnless (stops : List Token) (node : Read Node) : Read Node := do
  if (← peek) == .value then
    skip
    unlessAt stops node
  else return .empty

/-- The entries of a block sequence. -/
def blockItems (node : Read Node) : Nat → Read (List Node)
  | 0 => refuse
  | fuel + 1 => do
    match ← peek with
    | .blockEntry =>
      skip
      let n ← unlessAt [.blockEntry, .blockEnd] node
      let rest ← blockItems node fuel
      return n :: rest
    | .blockEnd =>
      skip
      return []
    | _ => refuse

/-- The entries of a block sequence that is not indented inside its mapping. -/
def flushItems (node : Read Node) : Nat → Read (List Node)
  | 0 => refuse
  | fuel + 1 => do
    if (← peek) == .blockEntry then
      skip
      let n ← unlessAt [.blockEntry, .key, .value, .blockEnd] node
      let rest ← flushItems node fuel
      return n :: rest
    else return []

/-- The entries of a block mapping. -/
def blockEntries (node : Read Node) : Nat → Read (List Entry)
  | 0 => refuse
  | fuel + 1 => do
    let stops : List Token := [.key, .value, .blockEnd]
    match ← peek with
    | .key =>
      skip
      let k ← unlessAt stops node
      let v ← valueUnless stops node
      let rest ← blockEntries node fuel
      return .mk k v :: rest
    | .blockEnd =>
      skip
      return []
    | _ => refuse

/-- Passes the comma before an entry that is not the first. -/
def flowComma (first : Bool) (closing : Token) : Read Unit := do
  let t ← peek
  if first || t == closing then return ()
  else if t == .flowEntry then skip
  else refuse

/-- An entry of a flow sequence that is a single key with its value. -/
def flowPair (node : Read Node) : Read Node := do
  let t ← peek
  let k ←
    if t == .value || t == .flowEntry || t == .flowSequenceEnd then do
      skip
      pure Node.empty
    else node
  let v ← valueUnless [.flowEntry, .flowSequenceEnd] node
  return .mapping [.mk k v]

/-- The entries of a flow sequence. -/
def flowItems (node : Read Node) : Nat → Bool → Read (List Node)
  | 0, _ => refuse
  | fuel + 1, first => do
    flowComma first .flowSequenceEnd
    match ← peek with
    | .flowSequenceEnd =>
      skip
      return []
    | .key =>
      skip
      let n ← flowPair node
      let rest ← flowItems node fuel false
      return n :: rest
    | _ =>
      let n ← node
      let rest ← flowItems node fuel false
      return n :: rest

/-- The entries of a flow mapping. -/
def flowEntries (node : Read Node) : Nat → Bool → Read (List Entry)
  | 0, _ => refuse
  | fuel + 1, first => do
    flowComma first .flowMappingEnd
    match ← peek with
    | .flowMappingEnd =>
      skip
      return []
    | .key =>
      skip
      let k ← unlessAt [.value, .flowEntry, .flowMappingEnd] node
      let v ← valueUnless [.flowEntry, .flowMappingEnd] node
      let rest ← flowEntries node fuel false
      return .mk k v :: rest
    | _ =>
      let k ← node
      let rest ← flowEntries node fuel false
      return .mk k .empty :: rest

/-- What a node holds. A node with a tag or an anchor may hold nothing. -/
def content (nested : Bool → Bool → Read Node) (fuel : Nat) (block flush named : Bool)
    (tag : Option (List Char)) : Read Node := do
  match ← peek with
  | .scalar isPlain text =>
    skip
    return .scalar (tellingTag tag) isPlain text
  | .blockEntry =>
    if flush then return .sequence (← flushItems (nested true false) fuel)
    else if named then return .scalar (tellingTag tag) true []
    else refuse
  | .flowSequence =>
    skip
    return .sequence (← flowItems (nested false false) fuel true)
  | .flowMapping =>
    skip
    return .mapping (← flowEntries (nested false false) fuel true)
  | .blockSequence =>
    if block then
      skip
      return .sequence (← blockItems (nested true false) fuel)
    else refuse
  | .blockMapping =>
    if block then
      skip
      return .mapping (← blockEntries (nested true true) fuel)
    else refuse
  | _ => if named then return .scalar (tellingTag tag) true [] else refuse

/-- A node. Block collections are read only where `block` holds, and sequences that are not indented
only where `flush` holds. -/
def node : Nat → Bool → Bool → Read Node
  | 0, _, _ => refuse
  | fuel + 1, block, flush => do
    match ← peek with
    | .alias name =>
      skip
      aliased name
    | _ =>
      let (name, tag) ← properties
      openName name
      let named := name.isSome || (tag.map (!·.isEmpty)).getD false
      let n ← content (node fuel) fuel block flush named tag
      closeName name n
      return n

/-! ### Documents -/

/-- The directives before a document: the handles that they declare. -/
def directives : Nat → Bool → List (List Char × List Char) → Read (List (List Char × List Char))
  | 0, _, _ => refuse
  | fuel + 1, versioned, handles => do
    match ← peek with
    | .version major minor =>
      if versioned || major ≠ 1 || minor ≠ 1 then refuse
      else
        skip
        directives fuel true handles
    | .tagHandle handle stem =>
      if (handles.lookup handle).isSome then refuse
      else
        skip
        directives fuel versioned (handles ++ [(handle, stem)])
    | _ => return handles

/-- What ends a document before it has any content. -/
def isDocumentBreak : Token → Bool
  | .version _ _ | .tagHandle _ _ | .documentStart | .documentEnd | .streamEnd => true
  | _ => false

/-- The first document, if there is one. Something else may follow it. -/
def document (fuel : Nat) : Read (Option Node) := do
  let before := (← get).tokens.length
  let handles ← directives fuel false []
  let defaults := [(['!'], ['!']), (['!', '!'], coreStem)]
  modify fun r => { r with handles := handles ++ defaults }
  let t ← peek
  let declared := (← get).tokens.length < before
  let root : Read (Option Node) :=
    if t == .documentStart then do
      skip
      if isDocumentBreak (← peek) then return some Node.empty
      else return some (← node fuel true false)
    else if declared then refuse
    else if t == .streamEnd then return none
    else return some (← node fuel true false)
  let n ← root
  let _ ← peek
  return n

end Read

/-- The first document of a stream; nothing if the stream is malformed, and no node if it has no
document. -/
def firstDocument? (b : Bytes) : Option (Option Node) :=
  let ts := tokens b
  (Read.document (2 * ts.length + 2) ⟨ts, [], []⟩).map (·.1)

end RetryWeave.Yaml
