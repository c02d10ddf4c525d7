import DtoGen.Document.Yaml.Node
import DtoGen.Document.Yaml.Token

namespace DtoGen.Yaml.Compose

def maxDepth : Nat := 488

/-- Tokens not yet read and the fault after them, the nodes so far and those that anchors name, the
tag handles, and how many more collections may be opened. -/
structure State where
  stream : TokenStream
  room : Nat := maxDepth
  graph : Graph := #[]
  anchors : List (String × NodeId) := []
  handles : List (String × String) := []

abbrev Composer := StateT State (Except Fault)

def fail {α : Type} (m : Malformed) : Composer α := fun _ => malformed m

/-- The next token; none is left at the end of the text. -/
def peek : Composer (Option Token) := fun s =>
  match s.stream.tokens, s.stream.fault with
  | t :: _, _ => .ok (some t, s)
  | [], none => .ok (none, s)
  | [], some f => .error f

def drop : Composer Unit :=
  modify fun s => { s with stream := { s.stream with tokens := s.stream.tokens.tail } }

def accept (t : Token) : Composer Bool := do
  if (← peek) = some t then
    drop
    return true
  else return false

def nextIs (ts : List Token) : Composer Bool := do return ((← peek).map ts.contains).getD false

def unexpected {α : Type} : Composer α := do
  match ← peek with
  | some t => fail (.unexpected t.what)
  | none => fail (.unexpected "end of text")

def expect (t : Token) : Composer Unit := do
  if ← accept t then return () else unexpected

def add (n : Node) : Composer NodeId := fun s =>
  .ok (s.graph.size, { s with graph := s.graph.push n })

def addEmpty : Composer NodeId := add .empty

structure Properties where
  anchor : Option String
  tag : Option String

def anchor? : Composer (Option String) := do
  match ← peek with
  | some (.anchor n) =>
    drop
    return some n
  | _ => return none

def tag? : Composer (Option String) := do
  match ← peek with
  | some (.tag h suffix) =>
    drop
    match h with
    | none => return some suffix
    | some h =>
      match (← get).handles.lookup h with
      | some lead => return some (lead ++ suffix)
      | none => fail (.undefinedHandle h)
  | _ => return none

def properties : Composer Properties := do
  match ← anchor? with
  | some a => return ⟨some a, ← tag?⟩
  | none =>
    let t ← tag?
    if t.isSome then return ⟨← anchor?, t⟩ else return ⟨none, none⟩

def checkAnchor (p : Properties) : Composer Unit := do
  match p.anchor with
  | some a => if ((← get).anchors.lookup a).isSome then fail (.duplicateAnchor a) else return ()
  | none => return ()

def start (p : Properties) (n : Node) : Composer NodeId := do
  let id ← add n
  match p.anchor with
  | some a =>
    modify fun s => { s with anchors := (a, id) :: s.anchors }
    return id
  | none => return id

/-- The tag of a scalar: its own, or by its form if that is looked at. -/
def scalarTag (tag : Option String) (text : String) (plain : Bool) : Tag :=
  match tag with
  | none => if plain then Tag.ofForm text else .string
  | some "!" => Tag.ofForm text
  | some t => Tag.ofName t

def collectionTag (tag : Option String) (fallback : Tag) : Tag :=
  match tag with
  | none | some "!" => fallback
  | some t => Tag.ofName t

def enter : Composer Unit := fun s =>
  match s.room with
  | 0 => aborted (.nesting .node)
  | room + 1 => .ok ((), { s with room })

def startSequence (p : Properties) : Composer NodeId := do
  enter
  start p ⟨collectionTag p.tag .sequence, .sequence []⟩

def startMapping (p : Properties) : Composer NodeId := do
  enter
  start p ⟨collectionTag p.tag .mapping, .mapping []⟩

/-- Gives a collection that was started what it holds, and goes one level up. -/
def finish (id : NodeId) (c : Content) : Composer NodeId := do
  modify fun s => { s with graph := s.graph.setContent id c, room := s.room + 1 }
  return id

def named (n : String) : Composer NodeId := do
  match (← get).anchors.lookup n with
  | some id => return id
  | none => fail (.undefinedAlias n)

/-- Where a node stands: in a block, in a block next to a key, or between brackets. -/
inductive Place where
  | block
  | blockOrEntries
  | flow
deriving DecidableEq

def bare (p : Properties) : Composer NodeId :=
  if p.anchor.isNone && p.tag.isNone then unexpected
  else start p ⟨scalarTag p.tag "" true, .scalar ""⟩

mutual
/-- A node; next to a key, entries of a sequence need no further indentation. Each call reads a token
or hands over to one that does, so three times the tokens left is `fuel` enough. -/
def node (place : Place) : (fuel : Nat) → Composer NodeId
  | 0 => unexpected
  | fuel + 1 => do
    match ← peek with
    | some (.link n) =>
      drop
      named n
    | _ =>
      let p ← properties
      let next ← peek
      checkAnchor p
      match place, next with
      | .blockOrEntries, some .blockEntry =>
        let id ← startSequence p
        finish id (.sequence (← entries fuel))
      | _, some (.scalar text plain) =>
        drop
        start p ⟨scalarTag p.tag text plain, .scalar text⟩
      | _, some .flowSequenceStart =>
        drop
        let id ← startSequence p
        finish id (.sequence (← flowItems true fuel))
      | _, some .flowMappingStart =>
        drop
        let id ← startMapping p
        finish id (.mapping (← flowEntries true fuel))
      | .flow, _ => bare p
      | _, some .blockSequenceStart =>
        drop
        let id ← startSequence p
        finish id (.sequence (← blockItems fuel))
      | _, some .blockMappingStart =>
        drop
        let id ← startMapping p
        finish id (.mapping (← blockEntries fuel))
      | _, _ => bare p

def nodeUnless (stops : List Token) (place : Place) : (fuel : Nat) → Composer NodeId
  | 0 => unexpected
  | fuel + 1 => do
    if ← nextIs stops then addEmpty else node place fuel

def nodeAfter (mark : Token) (stops : List Token) (place : Place) : (fuel : Nat) → Composer NodeId
  | 0 => unexpected
  | fuel + 1 => do
    if ← accept mark then
      if ← nextIs stops then addEmpty else node place fuel
    else addEmpty

def blockItems : (fuel : Nat) → Composer (List NodeId)
  | 0 => unexpected
  | fuel + 1 => do
    if ← accept .blockEntry then
      let n ← nodeUnless [.blockEntry, .blockEnd] .block fuel
      return n :: (← blockItems fuel)
    else
      expect .blockEnd
      return []

/-- The items of a sequence that is indented like the key before it. -/
def entries : (fuel : Nat) → Composer (List NodeId)
  | 0 => unexpected
  | fuel + 1 => do
    if ← accept .blockEntry then
      let n ← nodeUnless [.blockEntry, .key, .value, .blockEnd] .block fuel
      return n :: (← entries fuel)
    else return []

def blockEntries : (fuel : Nat) → Composer (List (NodeId × NodeId))
  | 0 => unexpected
  | fuel + 1 => do
    if ← accept .key then
      let k ← nodeUnless [.key, .value, .blockEnd] .blockOrEntries fuel
      let v ← nodeAfter .value [.key, .value, .blockEnd] .blockOrEntries fuel
      return (k, v) :: (← blockEntries fuel)
    else
      expect .blockEnd
      return []

/-- The items up to a closing bracket; a key among them makes a mapping of one entry. -/
def flowItems (first : Bool) : (fuel : Nat) → Composer (List NodeId)
  | 0 => unexpected
  | fuel + 1 => do
    if ← accept .flowSequenceEnd then return []
    else
      if !first then expect .flowEntry
      if ← accept .key then
        let id ← startMapping ⟨none, none⟩
        let k ← nodeUnless [.value, .flowEntry, .flowSequenceEnd] .flow fuel
        let v ← nodeAfter .value [.flowEntry, .flowSequenceEnd] .flow fuel
        let n ← finish id (.mapping [(k, v)])
        return n :: (← flowItems false fuel)
      else if ← accept .flowSequenceEnd then return []
      else
        let n ← node .flow fuel
        return n :: (← flowItems false fuel)

def flowEntries (first : Bool) : (fuel : Nat) → Composer (List (NodeId × NodeId))
  | 0 => unexpected
  | fuel + 1 => do
    if ← accept .flowMappingEnd then return []
    else
      if !first then expect .flowEntry
      if ← accept .key then
        let k ← nodeUnless [.value, .flowEntry, .flowMappingEnd] .flow fuel
        let v ← nodeAfter .value [.flowEntry, .flowMappingEnd] .flow fuel
        return (k, v) :: (← flowEntries false fuel)
      else if ← accept .flowMappingEnd then return []
      else
        let k ← node .flow fuel
        let v ← addEmpty
        return (k, v) :: (← flowEntries false fuel)
end

def defaultHandles : List (String × String) := [("!", "!"), ("!!", Tag.coreStem)]

/-- The directives before a document: one version at most, and one meaning for each handle. -/
def directives (hasVersion : Bool) (handles : List (String × String)) :
    List Token → Except Fault (List (String × String) × List Token)
  | .directive (.version major) :: rest =>
    if hasVersion || major ≠ 1 then malformed .directive else directives true handles rest
  | .directive (.tag h lead) :: rest =>
    if (handles.lookup h).isSome then malformed .directive
    else directives hasVersion (handles ++ [(h, lead)]) rest
  | .directive .other :: rest => directives hasVersion handles rest
  | rest => .ok (handles ++ defaultHandles, rest)

structure Composed where
  graph : Graph
  root : NodeId
  rest : TokenStream

def runWith (x : Composer NodeId) (handles : List (String × String)) (ts : TokenStream) :
    Except Fault Composed := do
  let (id, s) ← x.run { stream := ts, handles }
  .ok ⟨s.graph, id, s.stream⟩

def content (handles : List (String × String)) (ts : TokenStream) : Except Fault Composed :=
  runWith (node .block (3 * ts.tokens.length + 3)) handles ts

def explicitDocument (ts : TokenStream) : Except Fault Composed := do
  let (handles, rest) ← directives false [] ts.tokens
  match rest, ts.fault with
  | .documentStart :: body, fault =>
    let after : TokenStream := ⟨body, fault⟩
    match body, fault with
    | [], some f => .error f
    | [], none | .directive _ :: _, _ | .documentStart :: _, _ | .documentEnd :: _, _ =>
      runWith addEmpty handles after
    | _, _ => content handles after
  | [], some f => .error f
  | _, _ => malformed (.unexpected "text where a document should start")

end DtoGen.Yaml.Compose

namespace DtoGen.Yaml

/-- A graph and the node that a document consists of. -/
structure Rooted where
  graph : Graph
  root : NodeId

/-- The only document in a stream of tokens, if there is a document. -/
def Rooted.ofTokens? (ts : TokenStream) : Except Fault (Option Rooted) := do
  match ts.tokens, ts.fault with
  | [], some f => .error f
  | [], none => .ok none
  | t :: _, _ =>
    let isExplicit := match t with
      | .directive _ | .documentStart => true
      | _ => false
    let c ← if isExplicit then Compose.explicitDocument ts
      else Compose.content Compose.defaultHandles ts
    match c.rest.tokens.dropWhile (· = .documentEnd), c.rest.fault with
    | [], none => .ok (some ⟨c.graph, c.root⟩)
    | [], some f => .error f
    | _ :: _, _ => malformed .secondDocument

end DtoGen.Yaml
