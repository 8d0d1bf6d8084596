import RetryWeave.Yaml.Meaning

/-!
A mapping as named fields. A mapping may take over the fields of others under the key `<<`; its own
fields come first, and of the others the first with a name counts. The nodes that are looked at are
counted, since a short text can stand for a very large document.
-/

namespace RetryWeave.Yaml

/-- How much of a document has been looked at. -/
structure Effort where
  nodes : Nat
  /-- How many of the nodes were reached through an alias. -/
  aliased : Nat
  /-- How many aliases are being followed. -/
  depth : Nat
deriving Repr

namespace Effort

def none : Effort := ⟨0, 0, 0⟩

/-- The whole of which `allowedShare` is a part. -/
def wholeShare : Nat := 360000000

/-- The share of nodes that may be reached through aliases: 99 percent of up to 400 thousand nodes,
10 percent from 4 million on, and in between it falls evenly. -/
def allowedShare (nodes : Nat) : Nat :=
  if nodes ≤ 400000 then 356400000
  else if nodes ≥ 4000000 then 36000000
  else 392000000 - 89 * nodes

/-- More is reached through aliases than a document may use. -/
def isExcessive (e : Effort) : Bool :=
  e.aliased > 100 && e.nodes > 1000 && e.aliased * wholeShare > e.nodes * allowedShare e.nodes

end Effort

/-- A step that looks at nodes, and may find that they are not what is asked for. -/
abbrev Decode := StateT Effort Option

namespace Decode

def refuse {α : Type} : Decode α := fun _ => none

/-- Counts a node. -/
def count : Decode Unit := do
  let e ← get
  let e' := { e with
    nodes := e.nodes + 1, aliased := if e.depth > 0 then e.aliased + 1 else e.aliased }
  if e'.isExcessive then refuse else set e'

/-- Looks at a node, or at the node that an alias stands for. -/
def follow {α : Type} (n : Node) (look : Node → Decode α) : Decode α := do
  count
  match n with
  | .alias _ target =>
    modify fun e => { e with depth := e.depth + 1 }
    count
    let a ← look target
    modify fun e => { e with depth := e.depth - 1 }
    return a
  | .loop _ => refuse
  | n => look n

/-- A scalar as text: nothing where it is null. The text has to fit a tag. -/
def text (n : Node) : Decode (Option Bytes) := follow n fun
  | .scalar tag isPlain text =>
    match meaning? tag isPlain text with
    | none => refuse
    | some .null => return none
    | some (.text b) => return some b
    | some _ => return some (Bytes.ofChars text)
  | _ => refuse

/-- A scalar as a number of sixty-four bits: nothing where it is null. -/
def int (n : Node) : Decode (Option Int) := follow n fun
  | .scalar tag isPlain text =>
    match meaning? tag isPlain text with
    | some .null => return none
    | some (.int i) => if i < (1 <<< 63 : Nat) then return some i else refuse
    | some (.float (some w)) => return some w
    | _ => refuse
  | _ => refuse

/-- A sequence as texts, without those that are null; null is the empty sequence. -/
def texts (n : Node) : Decode (List Bytes) := follow n fun
  | .sequence items => return (← items.mapM text).filterMap id
  | .scalar tag isPlain text => if meaning? tag isPlain text = some .null then return [] else refuse
  | _ => refuse

end Decode

namespace Node

/-- Two keys are written the same. -/
def sameKey : Node → Node → Bool
  | .scalar _ _ a, .scalar _ _ b => a == b
  | .sequence _, .sequence _ => true
  | .mapping _, .mapping _ => true
  | .alias a _, .alias b _ => a == b
  | .alias a _, .loop b => a == b
  | .loop a, .alias b _ => a == b
  | .loop a, .loop b => a == b
  | _, _ => false

/-- The key under which the fields of other mappings are taken over. -/
def mergeKey : List Char := ['<', '<']

def isMergeKey : Node → Bool
  | .scalar tag isPlain text =>
    text == mergeKey &&
      (match tag with
        | none => isPlain
        | some t => t == "!!merge".toList)
  | _ => false

/-- The nodes whose fields are taken over: one, or each of a sequence. -/
def merged : Node → List Node
  | .sequence items => items
  | n => [n]

end Node

/-- Whether two of the keys are written the same. -/
def repeatsKey : List Entry → Bool
  | [] => false
  | e :: rest => rest.any (fun e' => Node.sameKey e.key e'.key) || repeatsKey rest

namespace Decode

/-- What has been put together, and the names of the fields that count no more. -/
structure Gathered (σ : Type) where
  taken : List Bytes
  value : σ

/-- Puts a field in, unless its key is null. A name that is taken is refused in the outermost
mapping and passed over in the others. -/
def putEntry {σ : Type} (put : Bytes → Node → σ → Decode σ) (outermost : Bool) (g : Gathered σ)
    (e : Entry) : Decode (Gathered σ) := do
  if e.key.isMergeKey then return g
  else
    match ← text e.key with
    | none => return g
    | some name =>
      if g.taken.contains name then if outermost then refuse else return g
      else return ⟨name :: g.taken, ← put name e.value g.value⟩

/-- Puts the fields of a mapping in, and then those of the mappings that it takes over. Before the
first of these the keys of the outermost mapping are looked at once more. -/
def gather {σ : Type} (put : Bytes → Node → σ → Decode σ) : Nat → Bool → List Entry → Gathered σ →
    Decode (Gathered σ)
  | 0, _, _, _ => refuse
  | fuel + 1, outermost, entries, g => do
    if repeatsKey entries then refuse
    else
      let own ← entries.foldlM (putEntry put outermost) g
      match entries.reverse.find? (·.key.isMergeKey) with
      | none => return own
      | some e =>
        if outermost then entries.forM fun e => follow e.key fun _ => return ()
        let taken := if outermost then Bytes.ofChars Node.mergeKey :: own.taken else own.taken
        e.value.merged.foldlM
          (fun g n => follow n fun
            | .mapping es => gather put fuel false es g
            | _ => refuse)
          ⟨taken, own.value⟩

/-- Puts the fields of a mapping into a value. Mappings in it are nested at most `bound` deep. -/
def fields {σ : Type} (put : Bytes → Node → σ → Decode σ) (bound : Nat) (entries : List Entry)
    (value : σ) : Decode σ := do
  return (← gather put (bound + 1) true entries ⟨[], value⟩).value

end Decode

end RetryWeave.Yaml
