import DtoGen.Proofs.Lookups
import DtoGen.Proofs.Switch

namespace DtoGen

namespace Service

/-- The body for a record with a map clause. Variables avoid the names of the service itself. -/
def openBodyOver (x s : Service) (role : Role) (t : TypeDecl) (m : MapClause) : RecordBody :=
  if t.definedCount = 0 then
    match x.fold? role t m with
    | some f => .folded f
    | none => .empty
  else
    let names := t.properties.map (·.name) ++ m.requiredKeys
    let table := Locals.table s names
    let field name v : Field :=
      ⟨role.target.memberName name, x.expression role v (.raw (Locals.variableOf table name)) none⟩
    .destructured
      (names.map fun n => ⟨role.source.memberName n, Locals.variableOf table n⟩)
      (t.properties.map (fun p => field p.name p.value) ++
        m.requiredKeys.map fun k => field k m.value.asRequired)
      (x.fold? role t m)

def recordMapperOver (x s : Service) (role : Role) (t : TypeDecl) : RecordMapper where
  signature := ⟨t.name, role⟩
  body :=
    match t.mapClause with
    | some m => x.openBodyOver s role t m
    | none =>
      if t.properties.isEmpty then .empty
      else .literal (t.properties.map fun p => x.propertyField role p role.parameter)

theorem Answers.recordMapperOver {x s : Service} (h : x.Answers s) (role : Role) {t : TypeDecl}
    (ht : t ∈ s.types) : x.recordMapperOver s role t = s.recordMapper role t := by
  have hfields : (t.properties.map fun p => x.propertyField role p role.parameter) =
      t.properties.map fun p => s.propertyField role p role.parameter :=
    List.map_congr_left fun p hp => h.propertyField role (covers_property ht hp) _
  have hopen : ∀ c, t.mapClause = some c → x.openBodyOver s role t c = s.openBody role t c := by
    intro c hc
    have hrequired : ∀ y, x.expression role c.value.asRequired y none =
        s.expression role c.value.asRequired y none := by
      intro y
      exact h.expression role (v := c.value.asRequired) (covers_mapValue ht hc) y none
    have hproperties : ∀ table, (t.properties.map fun p => (⟨role.target.memberName p.name,
          x.expression role p.value (.raw (Locals.variableOf table p.name)) none⟩ : Field)) =
        t.properties.map fun p => ⟨role.target.memberName p.name,
          s.expression role p.value (.raw (Locals.variableOf table p.name)) none⟩ := by
      intro table
      refine List.map_congr_left fun p hp => ?_
      rw [h.expression role (covers_property ht hp)]
    cases hfold : s.fold? role t c <;>
      simp only [openBodyOver, openBody, h.fold? role ht hc, hfold, hrequired, hproperties]
  unfold Service.recordMapperOver recordMapper
  cases hc : t.mapClause with
  | none => simp only [hfields]
  | some c => simp only [hopen c hc]

end Service

namespace Artifact

variable {x s : Service} {o : Options}

namespace Types

def guardsOver (x s : Service) : List Guard :=
  let us := s.sortedUnions.filterMap discriminated?
  ((us.flatMap (·.members)).eraseDups.mergeSort Text.le).filterMap (guard? x us)

def bodyOver (x s : Service) (o : Options) (scope : Scope := scope) : Body :=
  Journal.concat (interfaceBody x o · scope) (sortByName Interface.name s.interfaces) ++
    Journal.concat (paramsBody x · scope) (sortByName Method.name s.methods) ++
    Journal.concat enumBody (sortByName EnumDecl.name s.enums) ++
    Journal.concat (recordBody x · scope) s.sortedTypes ++
    Journal.concat (unionBody x · scope) s.sortedUnions ++
    .record ((guardsOver x s).flatMap Guard.lines) ((guardsOver x s).flatMap Guard.mentions)

theorem method_eq (h : x.Answers s) {m : Method} (hm : m ∈ s.methods) (scope : Scope) :
    methodLines x m scope = methodLines s m scope ∧ methodMentions x m = methodMentions s m := by
  cases hv : m.returns with
  | none => simp [methodLines, returnType, methodMentions, hv]
  | some v =>
    have hvalue := h.valueType .internal (Service.covers_returns hm hv)
    simp [methodLines, returnType, methodMentions, hv, hvalue]

theorem interfaceBody_eq (h : x.Answers s) {i : Interface} (hi : i ∈ s.interfaces) (scope : Scope) :
    interfaceBody x o i scope = interfaceBody s o i scope := by
  have hmethod : ∀ m ∈ sortByName Method.name i.methods,
      methodLines x m scope = methodLines s m scope ∧ methodMentions x m = methodMentions s m :=
    fun m hm => method_eq h (List.mem_flatMap.2 ⟨i, hi, mem_sortByName.1 hm⟩) scope
  have hlines : (sortByName Method.name i.methods).flatMap (methodLines x · scope) =
      (sortByName Method.name i.methods).flatMap (methodLines s · scope) :=
    List.flatMap_congr fun m hm => (hmethod m hm).1
  have hmentions : (sortByName Method.name i.methods).flatMap (methodMentions x) =
      (sortByName Method.name i.methods).flatMap (methodMentions s) :=
    List.flatMap_congr fun m hm => (hmethod m hm).2
  simp only [interfaceBody, hlines, hmentions]

theorem paramsBody_eq (h : x.Answers s) {m : Method} (hm : m ∈ s.methods) (scope : Scope) :
    paramsBody x m scope = paramsBody s m scope := by
  have hparameter : ∀ p ∈ m.parameters.filter (·.value.isRequired) ++
      m.parameters.filter (·.value.isOptional),
      x.parameterType .internal p = s.parameterType .internal p := by
    intro p hp
    have hmem : p ∈ m.parameters := by
      rcases List.mem_append.1 hp with hp | hp <;> exact List.mem_of_mem_filter hp
    rw [Service.parameterType, Service.parameterType,
      h.valueType .internal (Service.covers_parameter hm hmem)]
  unfold paramsBody
  split_ifs
  · rfl
  · generalize m.parameters.filter (·.value.isRequired) ++ m.parameters.filter (·.value.isOptional) = ps
      at hparameter
    have hlines : (ps.flatMap fun p => Comment.doc p.description p.deprecated ++
          [(x.parameterType .internal p).text scope]) =
        ps.flatMap fun p => Comment.doc p.description p.deprecated ++
          [(s.parameterType .internal p).text scope] :=
      List.flatMap_congr fun p hp => by rw [hparameter p hp]
    have hmentions : (ps.flatMap fun p => (x.parameterType .internal p).type.mentions) =
        ps.flatMap fun p => (s.parameterType .internal p).type.mentions :=
      List.flatMap_congr fun p hp => by rw [hparameter p hp]
    simp only [hlines, hmentions]

/-- Guards are looked up under the members of discriminated unions. -/
theorem guardsOver_eq (h : x.Answers s) : guardsOver x s = guards s := by
  refine List.filterMap_congr fun n hn => ?_
  obtain ⟨d, hd, hn⟩ := List.mem_flatMap.1 (List.mem_eraseDups.1 (List.mem_mergeSort.1 hn))
  obtain ⟨u, hu, hd⟩ := List.mem_filterMap.1 hd
  unfold discriminated? at hd
  split at hd
  · cases hd
  · rename_i hb
    obtain rfl := Option.some.inj hd
    obtain ⟨r, hr, rfl⟩ := List.mem_map.1 hn
    rw [guard?, guard?, h.type? _ (Service.refers_reference (mem_sortByName.1 hu) hb hr)]

theorem bodyOver_eq (h : x.Answers s) (scope : Scope) : bodyOver x s o scope = body s o scope := by
  have hinterface : ∀ i ∈ sortByName Interface.name s.interfaces,
      interfaceBody x o i scope = interfaceBody s o i scope :=
    fun i hi => interfaceBody_eq h (mem_sortByName.1 hi) scope
  have hparams : ∀ m ∈ sortByName Method.name s.methods, paramsBody x m scope = paramsBody s m scope :=
    fun m hm => paramsBody_eq h (mem_sortByName.1 hm) scope
  have hrecord : ∀ t ∈ s.sortedTypes, recordBody x t scope = recordBody s t scope := by
    intro t ht
    rw [recordBody, recordBody, h.recordType .internal (mem_sortByName.1 ht)]
  have hunion : ∀ u ∈ s.sortedUnions, unionBody x u scope = unionBody s u scope := by
    intro u hu
    rw [unionBody, unionBody, h.unionTypes .internal (mem_sortByName.1 hu)]
  rw [bodyOver, body, Journal.concat_congr hinterface, Journal.concat_congr hparams,
    Journal.concat_congr hrecord, Journal.concat_congr hunion, guardsOver_eq h]
  rfl

end Types

namespace Dtos

def bodyOver (x s : Service) (scope : Scope := scope) : Body :=
  Journal.concat (recordBody x · scope) s.sortedTypes ++
    Journal.concat (unionBody x · scope) s.sortedUnions

theorem bodyOver_eq (h : x.Answers s) (scope : Scope) : bodyOver x s scope = body s scope := by
  have hrecord : ∀ t ∈ s.sortedTypes, recordBody x t scope = recordBody s t scope := by
    intro t ht
    rw [recordBody, recordBody, h.recordType .wire (mem_sortByName.1 ht)]
  have hunion : ∀ u ∈ s.sortedUnions, unionBody x u scope = unionBody s u scope := by
    intro u hu
    rw [unionBody, unionBody, h.unionTypes .wire (mem_sortByName.1 hu)]
  rw [bodyOver, body, Journal.concat_congr hrecord, Journal.concat_congr hunion]

end Dtos

namespace Mappers

def recordBodyOver (x s : Service) (role : Role) (t : TypeDecl) (scope : Scope := scope) : Body :=
  let m := x.recordMapperOver s role t
  .record ("" :: m.lines scope) (.notice (.typeMapper role.name t.name) :: m.mentions)

def groupBodyOver (x s : Service) (g : Group) (scope : Scope := scope) : Body :=
  Journal.concat (recordBodyOver x s g.role · scope) g.types ++
    Journal.concat (unionBody x g.role · scope) g.unions

def groupsOver (x s : Service) (p : Perspective) : List Group :=
  let inputs : Group := ⟨p.inputs, x.reachedTypes s.inputs, x.reachedUnions s.inputs⟩
  let outputs : Group := ⟨p.outputs, x.reachedTypes s.outputs, x.reachedUnions s.outputs⟩
  match p with
  | .server => [inputs, outputs]
  | .client => [outputs, inputs]

def bodyOver (x s : Service) (o : Options) (scope : Scope := scope) : Body :=
  let mappers := Journal.concat (groupBodyOver x s · scope) (groupsOver x s o.role)
  mappers.bind fun lines => .record (helperLines mappers.mentions ++ lines) []

theorem groupsOver_eq (h : x.Answers s) (p : Perspective) : groupsOver x s p = groups s p := by
  cases p <;>
    simp only [groupsOver, groups, inputs, outputs, h.reachedTypes Service.covers_inputs,
      h.reachedTypes Service.covers_outputs, h.reachedUnions Service.covers_inputs,
      h.reachedUnions Service.covers_outputs]

theorem bodyOver_eq (h : x.Answers s) (scope : Scope) : bodyOver x s o scope = body s o scope := by
  have hpart : ∀ role roots, groupBodyOver x s ⟨role, s.reachedTypes roots, s.reachedUnions roots⟩ scope =
      groupBody s ⟨role, s.reachedTypes roots, s.reachedUnions roots⟩ scope := by
    intro role roots
    have hrecord : ∀ t ∈ s.reachedTypes roots, recordBodyOver x s role t scope =
        recordBody s role t scope := by
      intro t ht
      rw [recordBodyOver, recordBody,
        h.recordMapperOver role (Service.mem_types_of_mem_reachedTypes ht)]
    have hunion : ∀ u ∈ s.reachedUnions roots, unionBody x role u scope = unionBody s role u scope := by
      intro u hu
      rw [unionBody, unionBody, h.unionMapper role (Service.mem_unions_of_mem_reachedUnions hu)]
    rw [groupBodyOver, groupBody, Journal.concat_congr hrecord, Journal.concat_congr hunion]
  have hgroup : ∀ g ∈ groups s o.role, groupBodyOver x s g scope = groupBody s g scope := by
    intro g hg
    rcases mem_groups_iff.1 hg with rfl | rfl
    · exact hpart _ _
    · exact hpart _ _
  rw [bodyOver, body, groupsOver_eq h, Journal.concat_congr hgroup]

end Mappers

namespace Handlers

def bodyOver (x s : Service) (o : Options) (scope : Scope := scope) : Body :=
  Journal.concat (handlerBody x o · scope) s.bindings

theorem converted_eq (h : x.Answers s) (role : Role) {v : Value} (hv : s.Covers v) (source : String)
    (scope : Scope) : converted x role v source scope = converted s role v source scope := by
  rw [converted, converted, h.expression role hv]

theorem bodyOver_eq (h : x.Answers s) (scope : Scope) : bodyOver x s o scope = body s o scope := by
  refine Journal.concat_congr fun b hb => ?_
  have hmethod := (Service.mem_methods_of_mem_bindings hb).2
  have hfields : fields x b scope = fields s b scope := by
    refine Journal.concat_congr fun p hp => ?_
    have hsource : ∀ k, parameterSource x p k scope = parameterSource s p k scope := by
      intro k
      simp only [parameterSource, converted_eq h _ (Service.covers_parameter hmethod hp)]
    simp only [hsource]
  have hparameters : parameterLines x o b scope = parameterLines s o b scope := by
    simp only [parameterLines, hfields]
  have hresponse : responseLines x b.method scope = responseLines s b.method scope := by
    unfold responseLines
    cases hv : b.method.returns with
    | none => rfl
    | some v => simp only [converted_eq h _ (Service.covers_returns hmethod hv)]
  rw [handlerBody, handlerBody, hparameters, hresponse]

end Handlers

namespace HandlerTypes

def bodyOver (x s : Service) (scope : Scope := scope) : Body :=
  Journal.concat (handlerBody x · scope) s.bindings

theorem bodyOver_eq (h : x.Answers s) (scope : Scope) : bodyOver x s scope = body s scope := by
  refine Journal.concat_congr fun b hb => ?_
  have hmethod := (Service.mem_methods_of_mem_bindings hb).2
  have hbodies : bodyTypes x b = bodyTypes s b := by
    refine List.filterMap_congr fun k _ => ?_
    cases hp : parameter? b.method k.name with
    | none => rfl
    | some p =>
      have hmem : p ∈ b.method.parameters := by simpa using List.mem_of_find?_eq_some hp
      exact congrArg some (h.valueType .wire (Service.covers_parameter hmethod hmem))
  have hreturned : b.method.returns.map (x.valueType .wire) = b.method.returns.map (s.valueType .wire) := by
    cases hv : b.method.returns with
    | none => rfl
    | some v => exact congrArg some (h.valueType .wire (Service.covers_returns hmethod hv))
  simp only [handlerBody, hbodies, hreturned]

end HandlerTypes

end Artifact

namespace ArtifactKind

/-- The lines of an artifact of a service whose names are looked up in an index. -/
def bodyOver (k : ArtifactKind) (x s : Service) (o : Options) (scope : Scope) : Body :=
  match k with
  | .types => Artifact.Types.bodyOver x s o scope
  | .dtos => Artifact.Dtos.bodyOver x s scope
  | .mappers => Artifact.Mappers.bodyOver x s o scope
  | .handlers => Artifact.Handlers.bodyOver x s o scope
  | .handlerTypes => Artifact.HandlerTypes.bodyOver x s scope
  | .readme | .errors | .index => k.body s o scope

theorem bodyOver_self (k : ArtifactKind) (s : Service) (o : Options) (scope : Scope) :
    k.bodyOver s s o scope = k.body s o scope := by
  cases k <;> rfl

theorem bodyOver_eq {x s : Service} (h : x.Answers s) (k : ArtifactKind) (o : Options) (scope : Scope) :
    k.bodyOver x s o scope = k.body s o scope := by
  cases k with
  | types => exact Artifact.Types.bodyOver_eq h scope
  | dtos => exact Artifact.Dtos.bodyOver_eq h scope
  | mappers => exact Artifact.Mappers.bodyOver_eq h scope
  | handlers => exact Artifact.Handlers.bodyOver_eq h scope
  | handlerTypes => exact Artifact.HandlerTypes.bodyOver_eq h scope
  | readme | errors | index => rfl

end ArtifactKind

namespace Service

variable {s : Service}

theorem unresolved_mem_concerns_iff {n : String} {p : Place} :
    .unresolved n p ∈ s.check.concerns ↔ .unresolved n p ∈ Check.unresolved s := by
  have hmembers : .unresolved n p ∉ s.unions.flatMap (Check.memberConcerns s) := by
    intro hp
    obtain ⟨u, -, hp⟩ := List.mem_flatMap.1 hp
    unfold Check.memberConcerns at hp
    split at hp
    · cases hp
    · obtain ⟨r, -, hr⟩ := List.mem_filterMap.1 hp
      split at hr
      · split_ifs at hr
        cases hr
      · cases hr
  have hbindings : .unresolved n p ∉ s.interfaces.flatMap Check.bindingConcerns := by
    intro hp
    obtain ⟨i, -, hp⟩ := List.mem_flatMap.1 hp
    obtain ⟨r, -, hp⟩ := List.mem_flatMap.1 hp
    obtain ⟨b, -, hp⟩ := List.mem_flatMap.1 hp
    split at hp
    · obtain ⟨_, -, hq⟩ := List.mem_map.1 hp
      cases hq
    · cases List.mem_singleton.1 hp
  simp [check, hmembers, hbindings]

/-- The check reports a name just if some value refers to it and no declaration answers. -/
theorem exists_unresolved_iff {n : String} : (∃ p, .unresolved n p ∈ s.check.concerns) ↔
    s.Refers n ∧ s.resolveName n = .unresolved := by
  simp only [unresolved_mem_concerns_iff]
  constructor
  · rintro ⟨p, hp⟩
    obtain ⟨⟨q, v⟩, hv, hconcern⟩ := List.mem_filterMap.1 hp
    cases hb : v.base with
    | primitive k c => simp [hb] at hconcern
    | named m =>
      simp only [hb] at hconcern
      split at hconcern
      · rename_i hnone
        obtain ⟨rfl, rfl⟩ := Concern.unresolved.inj (Option.some.inj hconcern)
        exact ⟨⟨v, List.mem_map.2 ⟨_, hv, rfl⟩, Value.name?_eq_some_iff.2 hb⟩, hnone⟩
      · cases hconcern
  · rintro ⟨⟨v, hv, hname⟩, hnone⟩
    obtain ⟨⟨p, v⟩, hp, rfl⟩ := List.mem_map.1 hv
    have hbase : v.base = .named n := Value.name?_eq_some_iff.1 hname
    exact ⟨p, List.mem_filterMap.2 ⟨(p, v), hp, by simp [hbase, hnone]⟩⟩

/-- A lookup of the value finds something: a reference is written as the type that it refers to, and
converted by its mapper unless that is an enum. -/
structure Found (s : Service) (v : Value) : Prop where
  resolve : s.resolve v ≠ .unresolved
  shape : s.shape v ≠ .unresolved
  written : ∀ n, v.name? = some n → ∀ f, ∃ g : Facet, s.elementType f v = .declared g (g.spell n)
  converted : ∀ n, v.name? = some n → ∀ role,
    s.change role v = .mapper (mapperName n role) ∨ ∃ e, s.resolve v = .enum e

theorem shape_eq_unresolved_iff {v : Value} : s.shape v = .unresolved ↔ s.resolve v = .unresolved := by
  unfold shape
  cases s.resolve v with
  | enum | unresolved => simp
  | primitive | union => cases v.isArray <;> simp
  | type t =>
    dsimp only
    cases v.isArray with
    | true => simp
    | false => cases t.mapClause.isSome && t.properties.isEmpty <;> simp

theorem found_of_covers (hs : ∀ n p, .unresolved n p ∉ s.check.concerns) {v : Value} (hv : s.Covers v) :
    s.Found v := by
  have hname : ∀ n, v.name? = some n → s.resolveName n ≠ .unresolved := by
    intro n hn hnone
    obtain ⟨p, hp⟩ := exists_unresolved_iff.2 ⟨hv n hn, hnone⟩
    exact hs n p hp
  have hresolve : s.resolve v ≠ .unresolved := by
    cases hb : v.base with
    | primitive k c => simp [resolve, hb]
    | named n => simpa [resolve, hb] using hname n (Value.name?_eq_some_iff.2 hb)
  refine ⟨hresolve, mt shape_eq_unresolved_iff.1 hresolve, fun n hn f => ?_, fun n hn role => ?_⟩
  · simp only [elementType, Value.name?_eq_some_iff.1 hn]
    cases hr : s.resolveName n with
    | primitive => exact absurd hr (s.resolveName_ne_primitive n)
    | unresolved => exact absurd hr (hname n hn)
    | enum e => exact ⟨.internal, rfl⟩
    | type t => exact ⟨f, rfl⟩
    | union u => exact ⟨f, rfl⟩
  · simp only [change, resolve, Value.name?_eq_some_iff.1 hn]
    cases hr : s.resolveName n with
    | primitive => exact absurd hr (s.resolveName_ne_primitive n)
    | unresolved => exact absurd hr (hname n hn)
    | enum e => exact .inr ⟨e, rfl⟩
    | type t => exact .inl rfl
    | union u => exact .inl rfl

/-- If the check finds a declaration for every reference, then every lookup finds one. What is looked up are
the values of the service, and copies of them that are required or optional: over any index that answers
alike under the names of these values, the lines of every artifact are the same. -/
theorem lookups_found (hs : ∀ n p, .unresolved n p ∉ s.check.concerns) :
    (∀ v, s.Covers v → s.Found v) ∧
    (∀ vs, (∀ v ∈ vs, s.Covers v) → (s.memberKinds vs).hasUnknown = false) ∧
    ∀ (k : ArtifactKind) (o : Options) (scope : Scope),
      k.bodyOver s s o scope = k.body s o scope ∧
        ∀ x : Service, x.Answers s → k.bodyOver x s o scope = k.body s o scope := by
  refine ⟨fun v hv => found_of_covers hs hv, fun vs hvs => ?_, fun k o scope => ?_⟩
  · refine List.any_eq_false.2 fun v hv hunknown => ?_
    have hfound := (found_of_covers hs (hvs v hv)).resolve
    split at hunknown
    · exact absurd ‹_› hfound
    · cases hunknown
  · exact ⟨k.bodyOver_self s o scope, fun x hx => k.bodyOver_eq hx o scope⟩

end Service

namespace Library

/-- The library as an index, with shelves to which nothing refers. -/
def indexed : Service := { service with types := service.types ++ [{ name := "shelf" }] }

theorem indexed_answers : indexed.Answers service := by
  have hnames : ∀ n, service.Refers n → n ∈ service.values.filterMap Value.name? := by
    rintro n ⟨v, hv, hn⟩
    exact List.mem_filterMap.2 ⟨v, hv, hn⟩
  have htypes : ∀ n ∈ service.values.filterMap Value.name?, indexed.type? n = service.type? n := by
    decide +kernel
  exact ⟨fun n hn => htypes n (hnames n hn), fun _ _ => rfl, fun _ _ => rfl⟩

theorem work_found : service.check.concerns = [] ∧ service.Found { base := .named "work" } ∧
    ∀ scope, ArtifactKind.mappers.bodyOver indexed service {} scope =
      ArtifactKind.mappers.body service {} scope := by
  have hconcerns : service.check.concerns = [] := by decide +kernel
  have hnone : ∀ n p, .unresolved n p ∉ service.check.concerns := by simp [hconcerns]
  obtain ⟨hfound, -, hbodies⟩ := Service.lookups_found hnone
  refine ⟨hconcerns, hfound _ ?_, fun scope => (hbodies .mappers {} scope).2 indexed indexed_answers⟩
  refine Service.covers_member (u := item) (by simp [service]) ?_
  simp [UnionDecl.members, item]

end Library

end DtoGen
