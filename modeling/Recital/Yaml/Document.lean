import Recital.Yaml.Node

/-!
# From a YAML text to its value

A text holds at most one document, after directives that concern it; a text without one stands for
nothing.  Collections may nest only so deep, the keys of a mapping must differ, and aliases may not
blow a document up.
-/

namespace Recital.Yaml

namespace Node

/-- How deep collections may nest. -/
def depthLimit : Nat := 128

/-- How many aliases may be followed for each part of a document. -/
def aliasLimit : Nat := 100

mutual

/-- How many marks and scalars a node consists of. -/
def size : Node → Nat
  | scalar .. => 1
  | reference _ => 1
  | seq _ items => itemsSize items + 2
  | map _ entries => entriesSize entries + 2

/-- How many marks and scalars the nodes consist of. -/
def itemsSize : List Node → Nat
  | [] => 0
  | n :: rest => size n + itemsSize rest

/-- How many marks and scalars the entries consist of. -/
def entriesSize : List (Node × Node) → Nat
  | [] => 0
  | (k, v) :: rest => size k + size v + entriesSize rest

end

/-- The byte of the mark that the application's own tags start with. -/
def tagMark : UInt8 := 33

/-- The tag, if there is one, is the application's own. -/
def isOwn (tag : Option (List UInt8)) : Bool := (tag.bind List.head?) == some tagMark

/-- The bytes without the mark in front of them, unless there is nothing else. -/
def unmarked : List UInt8 → List UInt8
  | b :: c :: rest => if b = tagMark then c :: rest else b :: c :: rest
  | bytes => bytes

/-- The name of one of the application's own tags, written with the mark once or twice.  Bytes that
are no text give no name. -/
def ownName? (tag : Option (List UInt8)) : Option String :=
  if isOwn tag then tag.bind fun t => String.fromUTF8? ⟨(unmarked (unmarked t)).toArray⟩ else none

/-- A value with the tag of its node, if that is the application's own. -/
def mark (tag : Option (List UInt8)) (y : Yaml) : Yaml :=
  match ownName? tag with
  | none => y
  | some name => .tagged name y

/-- The keys of the entries differ. -/
def distinctKeys : List (Yaml × Yaml) → Bool
  | [] => true
  | e :: rest => !rest.any (same e.1 ·.1) && distinctKeys rest

/-- What evaluating nodes goes by and keeps count of: how many aliases may still be followed. -/
abbrev Evaluation := StateT Nat Option

/-- Counts an alias that is followed. -/
def count : Evaluation Unit := do
  match ← get with
  | 0 => failure
  | n + 1 => set n

/-- Enters a collection, given how many more may nest. -/
def enter : Nat → Evaluation Nat
  | 0 => failure
  | depth + 1 => return depth

mutual

/-- The value of a node in which `depth` levels of collections may nest, where `follow` gives the
value of the node of an anchor. -/
def value (follow : Nat → Nat → Evaluation Yaml) (depth : Nat) : Node → Evaluation Yaml
  | scalar tag plain text => do
    let y ← (ofScalar? (if isOwn tag then none else tag) plain text : Option Yaml)
    return mark tag y
  | seq tag items => do
    let depth ← enter depth
    let ys ← itemValues follow depth items
    return mark tag (.seq ys)
  | map tag entries => do
    let depth ← enter depth
    let es ← entryValues follow depth entries
    if distinctKeys es then return mark tag (.map es) else failure
  | reference number => follow depth number

/-- The values of nodes. -/
def itemValues (follow : Nat → Nat → Evaluation Yaml) (depth : Nat) :
    List Node → Evaluation (List Yaml)
  | [] => return []
  | n :: rest => do
    let y ← value follow depth n
    return y :: (← itemValues follow depth rest)

/-- The values of entries. -/
def entryValues (follow : Nat → Nat → Evaluation Yaml) (depth : Nat) :
    List (Node × Node) → Evaluation (List (Yaml × Yaml))
  | [] => return []
  | (k, v) :: rest => do
    let k ← value follow depth k
    let v ← value follow depth v
    return (k, v) :: (← entryValues follow depth rest)

end

/-- The value of the node of an anchor.  `fuel` bounds how many aliases lead from one to the next;
since each stands in a collection, they are no more than collections may nest. -/
def follow (nodes : Nat → Option Node) : Nat → Nat → Nat → Evaluation Yaml
  | 0, _, _ => failure
  | fuel + 1, depth, number => do
    count
    let node ← (nodes number : Option Node)
    value (follow nodes fuel) depth node

/-- The value of a root node, given the nodes of the anchors. -/
def value? (nodes : Nat → Option Node) (n : Node) : Option Yaml :=
  ((value (follow nodes (depthLimit + 1)) depthLimit n).run (aliasLimit * n.size)).map (·.1)

/-! ### Documents -/

/-- Reads the directives of a document.  There may be one version, which must be a known one, and
one start of tags for each handle. -/
def readDirectives : Nat → (versioned : Bool) → List (String × List UInt8) → Reader Unit
  | 0, _, _ => failure
  | fuel + 1, versioned, given => do
    match ← peek with
    | some (.version major minor) =>
      if versioned || major != 1 || (minor != 1 && minor != 2) then failure
      skip
      readDirectives fuel true given
    | some (.handle name start) =>
      if (given.lookup name).isSome then failure
      skip
      readDirectives fuel versioned ((name, start) :: given)
    | _ => modify fun r => { r with handles := given ++ r.handles }

/-- Reads the root node of a document. -/
def readRoot (fuel : Nat) : Reader Node := do
  match ← peek with
  | some (.version ..) | some (.handle ..) | some .documentStart =>
    readDirectives fuel false []
    if !(← accept .documentStart) then failure
    match ← peek with
    | none => return empty
    | some (.version ..) | some (.handle ..) | some .documentStart | some .documentEnd =>
      return empty
    | _ => read fuel true false
  | _ => read fuel true false

/-- Reads the only document of a text and the marks of its end. -/
def readOnly (fuel : Nat) : Reader Node := do
  let node ← readRoot fuel
  let rest := (← get).tokens.dropWhile (· == .documentEnd)
  if rest.isEmpty then return node else failure

/-- The node of the last anchor with a number. -/
def anchored (r : Reading) (number : Nat) : Option Node :=
  (r.anchors.toList.reverse.lookup number).join

end Node

/-- The value of a text. -/
def parse? (s : String) : Option Yaml := do
  let tokens ← tokens? s
  if tokens.isEmpty then some .null
  else
    let (node, r) ← (Node.readOnly (4 * tokens.length + 8)).run { tokens }
    node.value? (Node.anchored r)

end Recital.Yaml
