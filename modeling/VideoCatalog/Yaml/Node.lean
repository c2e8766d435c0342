import VideoCatalog.Yaml.Lexer

/-!
# Nodes of settings files

The tokens of a text form one tree of scalars, sequences and mappings. A node may be named and
used again further down.

* `Node`: the tree; `Node.tag?` is what was written before a node.
* `Composer`: reads nodes off a list of tokens and remembers their names.
* `blockSequence`, `blockMapping`, `flowSequence`, `flowMapping`: the forms of a node, each over
  a way to read what is inside.
* `node`: a node of bounded depth.
* `nodeOf`: the node of a text; a text without documents has none.
-/

namespace VideoCatalog.Yaml

/-- A node with the tag that was written before it. A scalar also tells whether it was written
without quotes. -/
inductive Node where
  | scalar (tag? : Option String) (text : String) (plain : Bool)
  | sequence (tag? : Option String) (items : List Node)
  | mapping (tag? : Option String) (entries : List (Node × Node))
deriving Inhabited

/-- The node where nothing is written. -/
def Node.empty : Node := .scalar none "" true

/-- The tokens ahead, the named nodes, and the tags that handles stand for. -/
structure Composition where
  tokens : List Token
  names : List (String × Node) := []
  unfinished : List String := []
  handles : List (String × String) := []

/-- Operations that read tokens. -/
abbrev Composer := StateT Composition (Except Fault)

namespace Composer

/-- How deep nodes may be nested. -/
def deepest : Nat := 480

/-- Gives up. -/
def fail {α : Type} : Composer α := throw .malformed

/-- The next token. -/
def peek : Composer Token := do return (← get).tokens.headD .streamEnd

/-- Takes the next token. -/
def take : Composer Unit := modify fun s => { s with tokens := s.tokens.tail }

/-- Takes the next token, which has to be a certain one. -/
def expect (t : Token) : Composer Unit := do
  if (← peek) = t then take else fail

/-- What is read inside a node: by a form that may be a block, or a sequence that is not
indented. -/
structure Place where
  block : Bool
  dashes : Bool
deriving DecidableEq, Repr

/-- Inside a flow. -/
def inFlow : Place := ⟨false, false⟩

/-- Behind a dash. -/
def behindDash : Place := ⟨true, false⟩

/-- Behind a key or its colon. -/
def behindMark : Place := ⟨true, true⟩

variable (child : Place → Composer Node)

/-- A node, or nothing before one of some tokens. -/
def orEmpty (place : Place) (stops : List Token) : Composer Node := do
  if stops.contains (← peek) then return .empty else child place

/-- The value behind a key, or nothing if there is no colon. -/
def valueOr (place : Place) (stops : List Token) : Composer Node := do
  if (← peek) = .value then
    take
    orEmpty child place stops
  else return .empty

/-- The entries behind dashes, up to the end of their block. -/
def blockSequence : Nat → Composer (List Node)
  | 0 => fail
  | fuel + 1 => do
    if (← peek) = .blockEntry then
      take
      let item ← orEmpty child behindDash [.blockEntry, .blockEnd]
      return item :: (← blockSequence fuel)
    else
      expect .blockEnd
      return []

/-- The entries behind dashes that are no deeper than the key before them. -/
def dashes : Nat → Composer (List Node)
  | 0 => fail
  | fuel + 1 => do
    if (← peek) = .blockEntry then
      take
      let item ← orEmpty child behindDash [.blockEntry, .key, .value, .blockEnd]
      return item :: (← dashes fuel)
    else return []

/-- The keys and values of a block. -/
def blockMapping : Nat → Composer (List (Node × Node))
  | 0 => fail
  | fuel + 1 => do
    let stops := [Token.key, .value, .blockEnd]
    let t ← peek
    if t = .key then
      take
      let key ← orEmpty child behindMark stops
      let value ← valueOr child behindMark stops
      return (key, value) :: (← blockMapping fuel)
    else
      expect .blockEnd
      return []

/-- A comma, except before the first entry of a flow. -/
def comma (first : Bool) : Composer Unit := if first then pure () else expect .flowEntry

/-- The entries of a sequence in brackets. A key makes a mapping of one entry. -/
def flowSequence (first : Bool) : Nat → Composer (List Node)
  | 0 => fail
  | fuel + 1 => do
    if (← peek) = .flowSequenceEnd then
      take
      return []
    else
      comma first
      let t ← peek
      if t = .flowSequenceEnd then
        take
        return []
      else if t = .key then
        take
        let key ← orEmpty child inFlow [.value, .flowEntry, .flowSequenceEnd]
        let value ← valueOr child inFlow [.flowEntry, .flowSequenceEnd]
        return .mapping none [(key, value)] :: (← flowSequence false fuel)
      else
        let item ← child inFlow
        return item :: (← flowSequence false fuel)

/-- The entries of a mapping in braces. A node without a key before it is a key without a
value. -/
def flowMapping (first : Bool) : Nat → Composer (List (Node × Node))
  | 0 => fail
  | fuel + 1 => do
    if (← peek) = .flowMappingEnd then
      take
      return []
    else
      comma first
      let t ← peek
      if t = .flowMappingEnd then
        take
        return []
      else if t = .key then
        take
        let key ← orEmpty child inFlow [.value, .flowEntry, .flowMappingEnd]
        let value ← valueOr child inFlow [.flowEntry, .flowMappingEnd]
        return (key, value) :: (← flowMapping false fuel)
      else
        let key ← child inFlow
        return (key, .empty) :: (← flowMapping false fuel)

/-- The name that a node is given, if one is written here. -/
def anchor? : Composer (Option String) := do
  match ← peek with
  | .anchor name => do
    take
    return some name
  | _ => return none

/-- The tag that is written here, with its handle replaced. -/
def tag? : Composer (Option String) := do
  match ← peek with
  | .tag none suffix => do
    take
    return some suffix
  | .tag (some handle) suffix => do
    take
    match (← get).handles.lookup handle with
    | some start => return some (start ++ suffix)
    | none => fail
  | _ => return none

/-- The name and the tag before a node, in either order. -/
def properties : Composer (Option String × Option String) := do
  match ← anchor? with
  | some name => return (some name, ← tag?)
  | none =>
    let tag ← tag?
    if tag.isSome then return (← anchor?, tag) else return (none, none)

/-- The form of a node behind its properties. -/
def form (place : Place) (tag : Option String) (named : Bool) : Composer Node := do
  let size := (← get).tokens.length + 1
  match ← peek with
  | .scalar text plain =>
    take
    return .scalar tag text plain
  | .flowSequenceStart =>
    take
    return .sequence tag (← flowSequence child true size)
  | .flowMappingStart =>
    take
    return .mapping tag (← flowMapping child true size)
  | .blockSequenceStart =>
    if place.block then
      take
      return .sequence tag (← blockSequence child size)
    else if named || tag.isSome then return .scalar tag "" tag.isNone
    else fail
  | .blockMappingStart =>
    if place.block then
      take
      return .mapping tag (← blockMapping child size)
    else if named || tag.isSome then return .scalar tag "" tag.isNone
    else fail
  | .blockEntry =>
    if place.dashes then return .sequence tag (← dashes child size)
    else if named || tag.isSome then return .scalar tag "" tag.isNone
    else fail
  | _ => if named || tag.isSome then return .scalar tag "" tag.isNone else fail

/-- A node that is given a name. Names are given once, and used behind the node. -/
def remember (name : String) (read : Composer Node) : Composer Node := do
  let s ← get
  if (s.names.lookup name).isSome || s.unfinished.contains name then fail
  else
    set { s with unfinished := name :: s.unfinished }
    let node ← read
    modify fun s =>
      { s with names := (name, node) :: s.names, unfinished := s.unfinished.erase name }
    return node

/-- The node that has a name. A node that is used inside itself has no end. -/
def named (name : String) : Composer Node := do
  let s ← get
  match s.names.lookup name with
  | some node => return node
  | none => if s.unfinished.contains name then throw .tooDeep else fail

/-- A node that is nested no deeper than a bound. -/
def node : Nat → Place → Composer Node
  | 0, _ => throw .tooDeep
  | depth + 1, place => do
    match ← peek with
    | .alias_ name =>
      take
      named name
    | _ =>
      let (name?, tag) ← properties
      let read := form (node depth) place tag name?.isSome
      match name? with
      | some name => remember name read
      | none => read

/-- The handles that stand for something without a directive. -/
def standardHandles : List (String × String) := [("!", "!"), ("!!", "tag:yaml.org,2002:")]

/-- The directives before a document: at most one version, and handles given once each. -/
def directives (versioned : Bool) (handles : List (String × String)) :
    Nat → Composer (List (String × String))
  | 0 => fail
  | fuel + 1 => do
    match ← peek with
    | .directive "YAML" args =>
      take
      if versioned || (args.head?.bind String.toNat?) != some 1 then fail
      else directives true handles fuel
    | .directive "TAG" [handle, start] =>
      take
      if (handles.lookup handle).isSome then fail
      else directives versioned (handles ++ [(handle, start)]) fuel
    | .directive .. =>
      take
      directives versioned handles fuel
    | _ => return handles ++ standardHandles

/-- Drops marks of the end of a document. -/
def dropEnds : Nat → Composer Unit
  | 0 => fail
  | fuel + 1 => do
    if (← peek) = .documentEnd then
      take
      dropEnds fuel

/-- A document behind its directives and its mark. -/
def markedDocument : Composer Node := do
  let handles ← directives false [] ((← get).tokens.length + 1)
  modify fun s => { s with handles := handles }
  expect .documentStart
  match ← peek with
  | .directive .. | .documentStart | .documentEnd | .streamEnd => return .empty
  | _ => node deepest behindDash

/-- A document without a mark. -/
def bareDocument : Composer Node := do
  modify fun s => { s with handles := standardHandles }
  node deepest behindDash

/-- The only document of a text, if there is one. -/
def document : Composer (Option Node) := do
  let document ← match ← peek with
    | .streamEnd => return none
    | .directive .. | .documentStart => markedDocument
    | _ => bareDocument
  dropEnds ((← get).tokens.length + 1)
  expect .streamEnd
  return some document

end Composer

/-- The node of a text; a text without documents has none. -/
def nodeOf (text : String) : Except Fault (Option Node) := do
  let tokens ← tokensOf text
  let (node, _) ← Composer.document.run { tokens := tokens }
  return node

end VideoCatalog.Yaml
