import DtoGen.Document.Yaml.Tag

namespace DtoGen.Yaml

/-- The place of a node among those of its document, in the order in which they start. -/
abbrev NodeId := Nat

inductive Content where
  | scalar (text : String)
  | sequence (items : List NodeId)
  | mapping (entries : List (NodeId × NodeId))
deriving DecidableEq, Repr

structure Node where
  tag : Tag
  content : Content
deriving DecidableEq, Repr

namespace Node

def empty : Node := ⟨.null, .scalar ""⟩

def entries? (n : Node) : Option (List (NodeId × NodeId)) :=
  match n.content with
  | .mapping es => some es
  | _ => none

end Node

abbrev Graph := Array Node

namespace Graph

def node (g : Graph) (id : NodeId) : Node := g.getD id Node.empty

def tag (g : Graph) (id : NodeId) : Tag := (g.node id).tag

def content (g : Graph) (id : NodeId) : Content := (g.node id).content

def setContent (id : NodeId) (c : Content) (g : Graph) : Graph :=
  g.modify id fun n => { n with content := c }

def setTag (id : NodeId) (t : Tag) (g : Graph) : Graph := g.modify id fun n => { n with tag := t }

def entries (g : Graph) (id : NodeId) : List (NodeId × NodeId) := (g.node id).entries?.getD []

end Graph

end DtoGen.Yaml
