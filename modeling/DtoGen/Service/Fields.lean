import DtoGen.Service.Scalars

namespace DtoGen.Read

structure Key where
  camel : String
  snake : String
deriving DecidableEq, Repr

def Key.plain (name : String) : Key := ⟨name, name⟩

/-- The spelling under which a field stands in an object, and its value. -/
def Key.find? (k : Key) (entries : Document.Entries) : Option (String × Document) :=
  match Document.get? k.camel entries with
  | some d => some (k.camel, d)
  | none => (Document.get? k.snake entries).map fun d => (k.snake, d)

/-- Reads an object field by field and knows which fields it has. -/
structure Fields (α : Type) where
  keys : List Key
  read : Document.Entries → Checked α

namespace Fields

variable {α β : Type}

def map (f : α → β) (x : Fields α) : Fields β := ⟨x.keys, fun e => (x.read e).map f⟩

def seq (f : Fields (α → β)) (x : Fields α) : Fields β :=
  ⟨f.keys ++ x.keys, fun e => (f.read e).seq (x.read e)⟩

instance : Functor Fields where
  map := Fields.map

instance : Applicative Fields where
  pure a := ⟨[], fun _ => .ok a⟩
  seq f x := Fields.seq f (x ())

def required (k : Key) (read : Reader α) : Fields α where
  keys := [k]
  read e :=
    match k.find? e with
    | some (name, d) => (read d).under (.key name)
    | none => .bad [⟨[.key k.camel], .missing⟩]

def optional (k : Key) (default : α) (read : Reader α) : Fields α where
  keys := [k]
  read e :=
    match k.find? e with
    | some (name, d) => (read d).under (.key name)
    | none => .ok default

/-- The step at which a key that is no text is reported: a number if it fits a machine word. -/
def keyStep : Scalar → PathStep
  | .literal (.string s) => .key s
  | .literal (.int n) => if fitsWord n then .index n else .key (toString n)
  | .literal (.bool b) => .index (if b then 1 else 0)
  | s => .key s.expression

def keyIssue? (used : List String) (key : Scalar) : Option Issue :=
  match key with
  | .literal (.string s) => if used.contains s then none else some ⟨[.key s], .unknownKey⟩
  | _ => some ⟨[keyStep key], .invalidKey⟩

def unknown (keys : List Key) (entries : Document.Entries) : Checked Unit :=
  let used := keys.filterMap fun k => (k.find? entries).map Prod.fst
  match entries.filterMap fun e => keyIssue? used e.1 with
  | [] => .ok ()
  | is => .bad is

def isBrokenKey : Scalar → Bool
  | .literal (.string s) => Text.hasLone s
  | _ => false

/-- Reads the entries of an object: its fields in order, then the check for unknown keys. A key with a
lone surrogate spoils the object, and nothing else is reported of it. -/
def entries (x : Fields α) (es : Document.Entries) : Checked α :=
  if es.any fun e => isBrokenKey e.1 then .issue .brokenText
  else ((x.read es).map fun a _ => a).seq (unknown x.keys es)

def object (x : Fields α) : Reader α
  | .mapping es => x.entries es
  | _ => .issue .notObject

end Fields

/-- Reads an object by the case that its tag names; the tag is a step of the path. -/
def tagged {α : Type} (tag : String) (cases : List (String × Fields α)) : Reader α
  | .mapping es =>
    match Document.get? tag es with
    | none => .issue .tagMissing
    | some (.scalar (.literal (.string t))) =>
      match cases.lookup t with
      | some x => (x.entries es).under (.key t)
      | none => .issue .tagUnknown
    | some _ => .issue .tagUnknown
  | _ => .issue .notTagged

end DtoGen.Read
