import DtoGen.Generate
import DtoGen.Proofs.UnionCalls

namespace DtoGen

def Facet.artifact : Facet → ArtifactKind
  | .internal => .types
  | .wire => .dtos

/-- The types that artifacts declare: interfaces, parameters of those methods that have some, enums,
records and unions, and the handlers of bound methods. -/
inductive Declared (s : Service) (o : Options) : ArtifactKind → String → Prop where
  | interface {i : Interface} (hi : i ∈ s.interfaces) :
    Declared s o .types (Naming.interfaceName i.name o.nomenclature)
  | params {m : Method} (hm : m ∈ s.methods) (hp : m.parameters ≠ []) :
    Declared s o .types (Naming.paramsTypeName m.name)
  | enum {e : EnumDecl} (he : e ∈ s.enums) : Declared s o .types (Naming.typeName e.name)
  | record (f : Facet) {t : TypeDecl} (ht : t ∈ s.types) : Declared s o f.artifact (f.spell t.name)
  | union (f : Facet) {u : UnionDecl} (hu : u ∈ s.unions) : Declared s o f.artifact (f.spell u.name)
  | handler {b : Binding} (hb : b ∈ s.bindings) :
    Declared s o .handlerTypes (Naming.requestHandlerTypeName b.method.name)

def Mention.typeName? : Mention → Option String
  | .declared _ x => some x
  | .member "expressTypes" x => some x
  | _ => none

namespace ArtifactKind

/-- The artifact that is imported as a module of some name, if one is. -/
def ofModule? : String → Option ArtifactKind
  | "types" => some .types
  | "dtos" => some .dtos
  | "mappers" => some .mappers
  | "errors" => some .errors
  | "expressTypes" => some .handlerTypes
  | _ => none

/-- The artifact in which a mention of `k` is looked for: an imported one, or `k` itself. -/
def home? (k : ArtifactKind) (s : Service) (o : Options) (m : Mention) : Option ArtifactKind :=
  match (k.frame s o).scope.moduleName? m with
  | none => some k
  | some a => ((k.frame s o).modules.lookup a).bind fun _ => ofModule? a

/-- The side for which an artifact converts values; handlers are always those of a server. -/
def side (k : ArtifactKind) (o : Options) : Perspective :=
  match k with
  | .handlers => .server
  | _ => o.role

end ArtifactKind

/-- The mappers for one side: those of what the inputs lead to, and those of what the outputs do. -/
def Service.HasMapper (s : Service) (p : Perspective) (g : Signature) : Prop :=
  g.role = p.inputs ∧ s.Reaches s.inputs g.name ∨ g.role = p.outputs ∧ s.Reaches s.outputs g.name

/-- What an artifact may mention: modules that it imports, types that they declare, mappers for its
side, and integers of the service. -/
structure Known (s : Service) (o : Options) (k : ArtifactKind) (m : Mention) : Prop where
  imported : ∀ a, (k.frame s o).scope.moduleName? m = some a →
    ((k.frame s o).modules.lookup a).isSome = true
  exported : ∀ x, m.typeName? = some x → ∃ home, k.home? s o m = some home ∧ Declared s o home x
  mapped : ∀ c, m = .mapper c → ∃ g : Signature, s.HasMapper (k.side o) g ∧ c = mapperName g.name g.role
  numbered : ∀ n, m = .numeral n → n ∈ s.integers

/-- A line that declares and exports a type. -/
inductive Declares : String → String → Prop where
  | type (x definition : String) : Declares ("export type " ++ x ++ " = " ++ definition) x
  | interface (x : String) : Declares ("export interface " ++ x ++ " \x7b") x

/-- One of the lines of which an artifact is made declares the type. -/
def Artifact.Exports (a : Artifact) (x : String) : Prop :=
  ∃ lines, a.contents = Layout.reindent lines ∧ ∃ l ∈ lines, Declares l x

def Exporting (X : String → Prop) (lines : List String) : Prop :=
  ∀ x, X x → ∃ l ∈ lines, Declares l x

theorem exporting_singleton {n : String} {lines : List String} (h : ∃ l ∈ lines, Declares l n) :
    Exporting (· = n) lines := by
  rintro x rfl
  exact h

namespace Journal.Meets

variable {α : Type} {P : Mention → Prop} {E : RenderError → Prop}

theorem exporting_append {x y : Body} {X Y : String → Prop} (hx : x.Meets P E (Exporting X))
    (hy : y.Meets P E (Exporting Y)) : (x ++ y).Meets P E (Exporting fun n => X n ∨ Y n) := by
  refine (hx.append hy).mono fun ls hls => ?_
  obtain ⟨a, b, ha, hb, rfl⟩ := hls
  rintro n (hn | hn)
  · obtain ⟨l, hl, hd⟩ := ha n hn
    exact ⟨l, List.mem_append_left b hl, hd⟩
  · obtain ⟨l, hl, hd⟩ := hb n hn
    exact ⟨l, List.mem_append_right a hl, hd⟩

theorem exporting_concat {f : α → Body} {X : α → String → Prop} {as : List α}
    (h : ∀ a ∈ as, (f a).Meets P E (Exporting (X a))) :
    (Journal.concat f as).Meets P E (Exporting fun n => ∃ a ∈ as, X a n) := by
  refine (Meets.concat h).mono fun ls hls => ?_
  obtain ⟨parts, hparts, rfl⟩ := hls
  rintro n ⟨a, ha, hn⟩
  obtain ⟨part, hpart, hexports⟩ := exists_related_of_mem_left hparts ha
  obtain ⟨l, hl, hd⟩ := hexports n hn
  exact ⟨l, List.mem_flatten.2 ⟨part, hpart, hl⟩, hd⟩

theorem exporting_sorted (nameOf : α → String) {f : α → Body} {X : α → String → Prop} {as : List α}
    (h : ∀ a ∈ as, (f a).Meets P E (Exporting (X a))) :
    (Journal.concat f (sortByName nameOf as)).Meets P E (Exporting fun n => ∃ a ∈ as, X a n) := by
  have hsorted : ∀ a ∈ sortByName nameOf as, (f a).Meets P E (Exporting (X a)) :=
    fun a ha => h a (mem_sortByName.1 ha)
  simpa only [mem_sortByName] using exporting_concat hsorted

/-- The banner and the imports change nothing of what a body declares. -/
theorem assemble {f : Frame} {path : List String} {body : Body} {R : List String → Prop}
    (h : body.Meets P E R) (hv : P (.numeral f.service.majorVersion)) :
    (f.assemble path body).Meets P E fun a =>
      ∃ lines, R lines ∧
        a.contents = Layout.reindent (f.banner ++ f.importLines body.mentions ++ lines) :=
  h.bind fun lines hlines => .record (by simpa using hv) ⟨lines, hlines, rfl⟩

theorem exporting_assemble {f : Frame} {path : List String} {body : Body} {X : String → Prop}
    (h : body.Meets P E (Exporting X)) (hv : P (.numeral f.service.majorVersion)) :
    (f.assemble path body).Meets P E fun a => ∀ x, X x → a.Exports x := by
  refine (h.assemble hv).mono fun a ha x hx => ?_
  obtain ⟨lines, hlines, hcontents⟩ := ha
  obtain ⟨l, hl, hd⟩ := hlines x hx
  exact ⟨_, hcontents, l, List.mem_append_right _ hl, hd⟩

end Journal.Meets

namespace Service

variable {s : Service} {o : Options} {f : Facet} {P : Mention → Prop}

theorem Sound.declared_of_isMapped (h : s.Sound) (f : Facet) {n : String}
    (hn : (s.resolveName n).isMapped = true) : Declared s o f.artifact (f.spell n) := by
  cases hr : s.resolveName n with
  | type t =>
    obtain ⟨ht, rfl⟩ := h.resolveName_eq_type_iff.1 hr
    exact .record f ht
  | union u =>
    obtain ⟨hu, rfl⟩ := h.resolveName_eq_union_iff.1 hr
    exact .union f hu
  | primitive | enum | unresolved => simp [hr, Resolution.isMapped] at hn

theorem Sound.declared_of_enum (h : s.Sound) {n : String} {e : EnumDecl}
    (hn : s.resolveName n = .enum e) : Declared s o .types (Naming.typeName n) := by
  have he : s.enum? n = some e := by
    unfold resolveName at hn
    cases ht : s.type? n <;> cases he : s.enum? n <;> cases hu : s.union? n <;> simp_all
  obtain ⟨hmem, rfl⟩ := h.enum?_eq_some_iff.1 he
  exact .enum hmem

/-- The types of values in a facet may be mentioned, and so may the integers of the service. -/
structure Nameable (s : Service) (f : Facet) (P : Mention → Prop) : Prop where
  numeral : ∀ n ∈ s.integers, P (.numeral n)
  mapped : ∀ n, (s.resolveName n).isMapped = true → P (.declared f (f.spell n))
  enum : ∀ n e, s.resolveName n = .enum e → P (.declared .internal (Naming.typeName n))

section Nameable

variable (hP : s.Nameable f P)

include hP

theorem Nameable.literal {l : Literal} (hl : l.integers ⊆ s.integers) : ∀ m ∈ l.mentions, P m := by
  intro m hm
  obtain ⟨n, hn, rfl⟩ := List.mem_map.1 hm
  exact hP.numeral n (hl hn)

theorem Nameable.valueType {v : Value} (hv : v.integers ⊆ s.integers) :
    ∀ m ∈ (s.valueType f v).mentions, P m := by
  intro m hm
  simp only [ValueType.mentions, Service.valueType, elementType] at hm
  cases hb : v.base with
  | primitive k l =>
    cases l with
    | none => simp [hb, ElementType.mentions] at hm
    | some l =>
      have hl : v.integers = l.integers := Value.integers_eq (by rw [Value.constant?, hb])
      rw [hl] at hv
      exact hP.literal hv m (by simpa [hb, ElementType.mentions] using hm)
  | named n =>
    cases hr : s.resolveName n with
    | type | union =>
      have hm : m = .declared f (f.spell n) := by simpa [hb, hr, ElementType.mentions] using hm
      exact hm ▸ hP.mapped n (by rw [hr, Resolution.isMapped])
    | enum e =>
      have hm : m = .declared .internal (Naming.typeName n) := by
        simpa [hb, hr, ElementType.mentions] using hm
      exact hm ▸ hP.enum n e hr
    | primitive | unresolved => simp [hb, hr, ElementType.mentions] at hm

theorem Nameable.unionTypes {u : UnionDecl} (hu : u ∈ s.unions) :
    ∀ m ∈ (s.unionTypes f u).flatMap ValueType.mentions, P m := by
  intro m hm
  obtain ⟨t, ht, hm⟩ := List.mem_flatMap.1 hm
  obtain ⟨v, hv, rfl⟩ := List.mem_map.1 ht
  exact hP.valueType (integers_subset_of_member hu hv) m hm

theorem Nameable.objectType? {t : TypeDecl} (ht : t ∈ s.types) {r : ObjectType}
    (hr : s.objectType? f t = some r) : ∀ m ∈ r.mentions, P m := by
  unfold Service.objectType? at hr
  split_ifs at hr
  obtain rfl := Option.some.inj hr
  intro m hm
  rcases List.mem_append.1 hm with hm | hm
  · obtain ⟨k, hk, hm⟩ := List.mem_flatMap.1 hm
    obtain ⟨p, hp, rfl⟩ := List.mem_map.1 hk
    have hv := integers_subset_of_property ht (mem_orderedProperties.1 hp)
    cases f <;> exact hP.valueType hv m hm
  · cases hc : t.mapClause with
    | none => simp [hc] at hm
    | some c =>
      have hv : c.value.integers ⊆ s.integers :=
        integers_subset_of_type ht (by simp [TypeDecl.values, hc])
      simp only [hc, Option.map_some, Option.getD_some] at hm
      -- whether a value may be absent says nothing of its constant
      exact hP.valueType (v := c.value.asRequired) hv m hm

theorem Nameable.openType? {t : TypeDecl} (ht : t ∈ s.types) {r : OpenType}
    (hr : s.openType? f t = some r) : ∀ m ∈ r.mentions, P m := by
  unfold Service.openType? at hr
  cases hc : t.mapClause with
  | none => simp [hc] at hr
  | some c =>
    have hkey : c.key.integers ⊆ s.integers :=
      integers_subset_of_type ht (by simp [TypeDecl.values, hc])
    have hvalue : c.value.integers ⊆ s.integers :=
      integers_subset_of_type ht (by simp [TypeDecl.values, hc])
    simp only [hc] at hr
    split_ifs at hr
    obtain rfl := Option.some.inj hr
    intro m hm
    rcases List.mem_append.1 hm with hm | hm
    · obtain ⟨k, hk, hm⟩ := List.mem_flatMap.1 hm
      rcases List.mem_append.1 hk with hk | hk
      · obtain ⟨p, hp, rfl⟩ := List.mem_map.1 hk
        exact hP.valueType (integers_subset_of_property ht (mem_orderedProperties.1 hp)) m hm
      · obtain rfl := List.mem_singleton.1 hk
        exact hP.valueType hvalue m hm
    · exact hP.valueType (v := c.key.asRequired) hkey m hm

theorem Nameable.recordType {t : TypeDecl} (ht : t ∈ s.types) {r : RecordType}
    (hr : s.recordType f t = .ok r) : ∀ m ∈ r.mentions, P m := by
  have hshaped : ∀ m ∈ (RecordType.shaped (s.objectType? f t) (s.openType? f t)).mentions, P m := by
    intro m hm
    rcases List.mem_append.1 hm with hm | hm
    · cases hobject : s.objectType? f t with
      | none => simp [hobject] at hm
      | some r => exact hP.objectType? ht hobject m (by simpa [hobject] using hm)
    · cases hopen : s.openType? f t with
      | none => simp [hopen] at hm
      | some r => exact hP.openType? ht hopen m (by simpa [hopen] using hm)
  unfold Service.recordType at hr
  split_ifs at hr
  · obtain rfl := Except.ok.inj hr
    intro m hm
    cases hm
  · split at hr
    · split_ifs at hr
      obtain rfl := Except.ok.inj hr
      exact hshaped
    · obtain rfl := Except.ok.inj hr
      exact hshaped

end Nameable

end Service

end DtoGen
