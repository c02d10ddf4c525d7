import DtoGen.Document.Yaml.Cursor
import DtoGen.Document.Yaml.Node

namespace DtoGen.Yaml.Graph

abbrev Entry := NodeId × NodeId

def isMerge (g : Graph) (e : Entry) : Bool := g.tag e.1 = .merge

def settleDefault (g : Graph) (e : Entry) : Graph :=
  if g.tag e.1 = .default then g.setTag e.1 .string else g

/-- Brings the merge keys of a mapping to an end, after those that gave the entries `merged`. Each
step takes one merge key out of the graph and none comes in, so their number is `fuel` enough. -/
def spread : (fuel : Nat) → (merged : List Entry) → NodeId → Graph → Except Fault Graph
  | 0, _, _, g => .ok g
  | fuel + 1, merged, id, g =>
    let own := g.entries id
    match own.findIdx? g.isMerge with
    | none => .ok ((own.foldl settleDefault g).setContent id (.mapping (merged ++ own)))
    | some i =>
      let source := (own.getD i (0, 0)).2
      let g := g.setContent id (.mapping (own.eraseIdx i))
      match g.content source with
      | .mapping _ => do
        let g ← spread fuel [] source g
        spread fuel (merged ++ g.entries source) id g
      | .sequence items => do
        let (g, parts) ← items.foldlM (fun (g, parts) n =>
          match g.content n with
          | .mapping _ => do
            let g ← spread fuel [] n g
            .ok (g, g.entries n :: parts)
          | _ => malformed .mergeSource) (g, [])
        spread fuel (merged ++ parts.flatten) id g
      | .scalar _ => malformed .mergeSource

def mergeCount (g : Graph) : Nat :=
  g.foldl (fun n x => n + (x.entries?.getD []).countP g.isMerge) 0

/-- Replaces the merge keys of a mapping by what they bring in. -/
def flatten (id : NodeId) (g : Graph) : Except Fault Graph :=
  let fuel := if (g.entries id).any g.isMerge then g.mergeCount else 0
  spread (fuel + 1) [] id g

end DtoGen.Yaml.Graph
