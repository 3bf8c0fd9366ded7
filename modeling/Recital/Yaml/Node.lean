import Recital.Yaml.Lexer
import Recital.Yaml.Scalar

/-!
# YAML documents

The tokens of a text form a tree of nodes.  A node is a scalar, a sequence, a mapping, or an alias,
which repeats a node with an anchor.

Each anchor gets a number when it is set: how many names were in use before.  An alias stands for
the number that its name has at that point, and repeats the last node in the document whose anchor
got this number.
-/

namespace Recital.Yaml

/-- A part of a document.  Its tag, if it has one, is written out in full. -/
inductive Node
  | scalar (tag : Option (List UInt8)) (plain : Bool) (text : String)
  | seq (tag : Option (List UInt8)) (items : List Node)
  | map (tag : Option (List UInt8)) (entries : List (Node × Node))
  /-- The node that an anchor with this number is set to. -/
  | reference (number : Nat)
deriving Inhabited

/-- The state of reading nodes. -/
structure Reading where
  /-- The tokens that are left. -/
  tokens : List Token
  /-- What the handles of tags stand for. -/
  handles : List (String × List UInt8) := [("!", "!".toUTF8.toList), ("!!", coreStart)]
  /-- The names of anchors, each with the number it got last. -/
  names : List (String × Nat) := []
  /-- The numbers of the anchors in the order in which they were set, with their nodes as far as
  these are complete. -/
  anchors : Array (Nat × Option Node) := #[]

/-- A step of reading nodes. -/
abbrev Reader := StateT Reading Option

namespace Node

/-- A node that is not written at all. -/
def empty : Node := .scalar none true ""

/-- The next token. -/
def peek : Reader (Option Token) := do return (← get).tokens.head?

/-- Passes over the next token. -/
def skip : Reader Unit := modify fun r => { r with tokens := r.tokens.drop 1 }

/-- The next token is one of the given ones. -/
def sees (ts : List Token) : Reader Bool := do
  match ← peek with
  | some t => return ts.contains t
  | none => return false

/-- Passes over the next token if it is the given one; tells whether it is. -/
def accept (t : Token) : Reader Bool := do
  if ← sees [t] then
    skip
    return true
  else return false

/-- Passes over the comma before every item but the first; tells whether it is there. -/
def separated (first : Bool) : Reader Bool :=
  if first then return true else accept .comma

/-- Reads an anchor, if one comes next. -/
def anchor? : Reader (Option String) := do
  match ← peek with
  | some (.anchor name) =>
    skip
    return some name
  | _ => return none

/-- Reads a tag, if one comes next, and writes it out in full. -/
def tag? : Reader (Option (List UInt8)) := do
  match ← peek with
  | some (.tag handle rest) =>
    skip
    if handle.isEmpty then return some rest
    match (← get).handles.lookup handle with
    | some start => return some (start ++ rest)
    | none => failure
  | _ => return none

/-- Reads an anchor and a tag in either order, each at most once. -/
def properties : Reader (Option String × Option (List UInt8)) := do
  match ← anchor? with
  | some a => return (some a, ← tag?)
  | none => do
    let t ← tag?
    if t.isSome then return (← anchor?, t) else return (none, none)

/-- Sets an anchor, whose node is not complete yet; gives the position and the number of the
anchor. -/
def open_ (name : String) : Reader (Nat × Nat) := do
  let r ← get
  let number := r.names.length
  set { r with
    names := (name, number) :: r.names.filter (·.1 != name)
    anchors := r.anchors.push (number, none) }
  return (r.anchors.size, number)

/-- Says which node the anchor at a position is set to. -/
def close (position number : Nat) (node : Node) : Reader Unit :=
  modify fun r => { r with anchors := r.anchors.setIfInBounds position (number, some node) }

/-- The number of the anchor that a name stands for. -/
def number (name : String) : Reader Nat := do
  match (← get).names.lookup name with
  | some n => return n
  | none => failure

mutual

/-- Reads a node.  Where `block` holds it can be one that is shown by indentation, and where
`indentless` holds also a sequence that is not indented.  `fuel` bounds the depth. -/
def read : Nat → (block indentless : Bool) → Reader Node
  | 0, _, _ => failure
  | fuel + 1, block, indentless => do
    match ← peek with
    | some (.reference name) =>
      skip
      return .reference (← number name)
    | _ =>
      let (anchor, tag) ← properties
      match anchor with
      | some name =>
        let (position, number) ← open_ name
        let node ← readContent fuel block indentless tag true
        close position number node
        return node
      | none => readContent fuel block indentless tag tag.isSome

/-- Reads what a node holds; it may be missing if the node has an anchor or a tag. -/
def readContent :
    Nat → (block indentless : Bool) → Option (List UInt8) → (optional : Bool) → Reader Node
  | 0, _, _, _, _ => failure
  | fuel + 1, block, indentless, tag, optional => do
    match ← peek, block, indentless with
    | some .entry, _, true => return .seq tag (← readIndentless fuel)
    | some (.scalar plain text), _, _ =>
      skip
      return .scalar tag plain text
    | some .openBracket, _, _ =>
      skip
      return .seq tag (← readFlowItems fuel true)
    | some .openBrace, _, _ =>
      skip
      return .map tag (← readFlowEntries fuel true)
    | some .blockSequence, true, _ =>
      skip
      return .seq tag (← readItems fuel)
    | some .blockMapping, true, _ =>
      skip
      return .map tag (← readEntries fuel)
    | _, _, _ => if optional then return .scalar tag true "" else failure

/-- Reads a node that is missing if one of the given tokens comes next. -/
def readUnless : Nat → List Token → (block indentless : Bool) → Reader Node
  | 0, _, _, _ => failure
  | fuel + 1, ends, block, indentless => do
    if ← sees ends then return empty else read fuel block indentless

/-- Reads the items of a sequence shown by indentation. -/
def readItems : Nat → Reader (List Node)
  | 0 => failure
  | fuel + 1 => do
    if ← accept .entry then
      let item ← readUnless fuel [.entry, .blockEnd] true false
      return item :: (← readItems fuel)
    else if ← accept .blockEnd then return []
    else failure

/-- Reads the items of a sequence that is not indented. -/
def readIndentless : Nat → Reader (List Node)
  | 0 => failure
  | fuel + 1 => do
    if ← accept .entry then
      let item ← readUnless fuel [.entry, .key, .value, .blockEnd] true false
      return item :: (← readIndentless fuel)
    else return []

/-- Reads the entries of a mapping shown by indentation. -/
def readEntries : Nat → Reader (List (Node × Node))
  | 0 => failure
  | fuel + 1 => do
    let ends := [.key, .value, .blockEnd]
    if ← accept .blockEnd then return []
    else if ← accept .key then
      let k ← readUnless fuel ends true true
      let v ← if ← accept .value then readUnless fuel ends true true else pure empty
      return (k, v) :: (← readEntries fuel)
    else failure

/-- Reads the items of a sequence in brackets, of which this is the first or not.  An item can be a
single entry of a mapping. -/
def readFlowItems : Nat → (first : Bool) → Reader (List Node)
  | 0, _ => failure
  | fuel + 1, first => do
    if ← accept .closeBracket then return []
    else if !(← separated first) then failure
    else if ← accept .closeBracket then return []
    else
      let item ← if ← accept .key then readPair fuel else read fuel false false
      return item :: (← readFlowItems fuel false)

/-- Reads a single entry as a mapping.  A mark in the place of its key is passed over. -/
def readPair : Nat → Reader Node
  | 0 => failure
  | fuel + 1 => do
    let k ← if ← sees [.value, .comma, .closeBracket] then (do skip; pure empty)
      else read fuel false false
    let v ← if ← accept .value then readUnless fuel [.comma, .closeBracket] false false
      else pure empty
    return .map none [(k, v)]

/-- Reads the entries of a mapping in braces, of which this is the first or not. -/
def readFlowEntries : Nat → (first : Bool) → Reader (List (Node × Node))
  | 0, _ => failure
  | fuel + 1, first => do
    if ← accept .closeBrace then return []
    else if !(← separated first) then failure
    else if ← accept .closeBrace then return []
    else
      let entry ← if ← accept .key then do
          let k ← readUnless fuel [.value, .comma, .closeBrace] false false
          let v ← if ← accept .value then readUnless fuel [.comma, .closeBrace] false false
            else pure empty
          pure (k, v)
        else do
          let k ← read fuel false false
          pure (k, empty)
      return entry :: (← readFlowEntries fuel false)

end

end Node

end Recital.Yaml
