import DtoGen.Document.Yaml.Graph
import DtoGen.Document.Yaml.Merge
import DtoGen.Document.Yaml.Value

namespace DtoGen.Yaml

/-- What a node stands for, its parts by number. -/
inductive Shape where
  | scalar (s : Scalar)
  | list (items : List NodeId)
  | pairs (entries : List (NodeId × NodeId))
  | mapping (entries : List (Scalar × NodeId))
  | keys (ks : List Scalar)
deriving Repr

namespace Build

/-- The graph, the shapes of the nodes met so far, and the collections to be filled, the last one
first. -/
structure State where
  graph : Graph
  shapes : Array (Option Shape)
  waiting : List NodeId := []

abbrev Builder := StateT State (Except Fault)

def fail {α : Type} (m : Malformed) : Builder α := fun _ => malformed m

def setShape (id : NodeId) (s : Shape) : Builder Unit :=
  modify fun b => { b with shapes := b.shapes.setIfInBounds id (some s) }

def shape? (id : NodeId) : Builder (Option Shape) := do return (← get).shapes.getD id none

def tagOf (id : NodeId) : Builder Tag := do return (← get).graph.tag id

def contentOf (id : NodeId) : Builder Content := do return (← get).graph.content id

/-- The text of a node that is read as a scalar. A mapping is read as the value under its key that is
an equals sign; `fuel` bounds the mappings on the way. -/
def text (g : Graph) : (fuel : Nat) → NodeId → Except Fault String
  | 0, _ => aborted (.nesting .node)
  | fuel + 1, id =>
    match g.content id with
    | .scalar t => .ok t
    | .mapping es =>
      match es.find? fun e => g.tag e.1 = .default with
      | some (_, v) => text g fuel v
      | none => malformed (.wrongKind (g.tag id).name)
    | .sequence _ => malformed (.wrongKind (g.tag id).name)

/-- Whether a node is a scalar in form, and not only read as one. -/
def isScalar (g : Graph) (id : NodeId) : Bool :=
  match g.content id with
  | .scalar _ => true
  | _ => false

def scalar (g : Graph) (id : NodeId) : Except Fault Scalar := do
  let tag := g.tag id
  if tag.isScalar then
    let t ← text g (g.size + 1) id
    if tag = .timestamp && !isScalar g id then aborted .timeOfMapping else Read.scalar tag t
  else malformed (.unknownTag tag.name)

/-- Meets a node: a scalar is read, a collection is noted. -/
def meet (id : NodeId) : Builder Unit := do
  if (← shape? id).isSome then return ()
  else
    if (← tagOf id).isCollection then
      setShape id (.list [])
      modify fun b => { b with waiting := id :: b.waiting }
    else
      let s ← scalar (← get).graph id
      setShape id (.scalar s)

def meetKey (id : NodeId) : Builder Scalar := do
  meet id
  match ← shape? id with
  | some (.scalar s) => return s
  | _ => fail .unhashableKey

/-- Meets the entries of a mapping in order. Of two values under one key the later one counts. -/
def meetEntries (done : List (Scalar × NodeId)) :
    List (NodeId × NodeId) → Builder (List (Scalar × NodeId))
  | [] => return done
  | (k, v) :: rest => do
    let key ← meetKey k
    meet v
    meetEntries (Document.put key v done) rest

def mappingEntries (id : NodeId) : Builder (List (Scalar × NodeId)) := do
  match ← contentOf id with
  | .mapping _ =>
    let g ← (← get).graph.flatten id
    modify fun b => { b with graph := g }
    meetEntries [] (g.entries id)
  | _ => fail (.wrongKind (← tagOf id).name)

def meetItem (id : NodeId) : Builder NodeId := do
  meet id
  return id

def meetPair (id : NodeId) : Builder (NodeId × NodeId) := do
  match ← contentOf id with
  | .mapping [(k, v)] =>
    meet k
    meet v
    return (k, v)
  | _ => fail (.wrongKind (← tagOf id).name)

def fill (id : NodeId) : Builder Unit := do
  let tag ← tagOf id
  match tag, ← contentOf id with
  | .mapping, _ => setShape id (.mapping (← mappingEntries id))
  | .set, _ => setShape id (.keys ((← mappingEntries id).map Prod.fst))
  | .sequence, .sequence items => setShape id (.list (← items.mapM meetItem))
  | .sequence, _ => fail (.wrongKind tag.name)
  | _, .sequence items => setShape id (.pairs (← items.mapM meetPair))
  | _, _ => fail (.wrongKind tag.name)

/-- Fills the collections noted so far, then those noted meanwhile; `fuel` bounds the rounds. -/
def fillAll : (fuel : Nat) → Builder Unit
  | 0 => return ()
  | fuel + 1 => do
    let noted := (← get).waiting.reverse
    modify fun b => { b with waiting := [] }
    match noted with
    | [] => return ()
    | _ =>
      noted.forM fill
      fillAll fuel

def shapes (g : Graph) (root : NodeId) : Except Fault (Array (Option Shape)) := do
  let work : Builder Unit := do
    meet root
    fillAll (g.size + 1)
  let (_, b) ← work.run { graph := g, shapes := Array.replicate g.size none }
  .ok b.shapes

end Build

def Shape.document (parts : Array Document) : Shape → Document
  | .scalar s => .scalar s
  | .list items => .list (items.map fun n => parts.getD n .null)
  | .pairs es => .list (es.map fun (k, v) => .list [parts.getD k .null, parts.getD v .null])
  | .mapping es => .mapping (es.map fun (k, n) => (k, parts.getD n .null))
  | .keys ks => .list (ks.map .scalar)

def unroll (shapes : Array (Option Shape)) : (depth : Nat) → Array Document
  | 0 => shapes.map fun _ => .null
  | depth + 1 =>
    let parts := unroll shapes depth
    shapes.map fun s => (s.map (·.document parts)).getD .null

/-- A node may contain itself, so documents end at a depth below which nothing is read. -/
def maxUnroll : Nat := 32

def Rooted.toDocument (r : Rooted) : Except Fault Document := do
  let shapes ← Build.shapes r.graph r.root
  .ok ((unroll shapes (min (shapes.size + 1) maxUnroll)).getD r.root .null)

/-- Reads a text that holds one document at most; without one it counts as null. -/
def parse (text : String) : Except Fault Document := do
  match ← Rooted.ofTokens? (TokenStream.ofText text) with
  | none => .ok .null
  | some r => r.toDocument

end DtoGen.Yaml
