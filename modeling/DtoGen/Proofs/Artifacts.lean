import DtoGen.Proofs.Exports

namespace DtoGen

open Journal

variable {s : Service} {o : Options} {k : ArtifactKind} {m : Mention} {E : RenderError → Prop}

/-- Outside the internal types, the types of either facet are imported or at home. -/
theorem ArtifactKind.home_declared (hk : k ∈ [.dtos, .mappers, .handlers, .handlerTypes]) (f : Facet)
    (x : String) : k.home? s o (.declared f x) = some f.artifact := by
  simp only [List.mem_cons, List.not_mem_nil, or_false] at hk
  rcases hk with rfl | rfl | rfl | rfl <;> cases f <;> rfl

namespace Known

theorem of_home {home : ArtifactKind} (hhome : k.home? s o m = some home)
    (hx : ∀ x, m.typeName? = some x → Declared s o home x) (hm : ∀ c, m ≠ .mapper c)
    (hn : ∀ n, m ≠ .numeral n) : Known s o k m where
  imported a ha := by
    simp only [ArtifactKind.home?, ha] at hhome
    obtain ⟨i, hi, -⟩ := Option.bind_eq_some_iff.1 hhome
    rw [hi, Option.isSome_some]
  exported x h := ⟨home, hhome, hx x h⟩
  mapped c hc := (hm c hc).elim
  numbered n h := (hn n h).elim

theorem declared {f : Facet} {x : String} (hhome : k.home? s o (.declared f x) = some f.artifact)
    (hx : Declared s o f.artifact x) : Known s o k (.declared f x) := by
  refine of_home hhome (fun y hy => ?_) nofun nofun
  obtain rfl := Option.some.inj hy
  exact hx

theorem helper (h : Helper) : Known s o k (.helper h) := ⟨nofun, nofun, nofun, nofun⟩

theorem notice (n : Notice) : Known s o k (.notice n) := ⟨nofun, nofun, nofun, nofun⟩

theorem package (p n : String) (t : Bool) : Known s o k (.imported p n t) :=
  ⟨nofun, nofun, nofun, nofun⟩

theorem numeral {n : Int} (hn : n ∈ s.integers) : Known s o k (.numeral n) := by
  refine ⟨nofun, nofun, nofun, fun i hi => ?_⟩
  obtain rfl := Mention.numeral.inj hi
  exact hn

theorem version : Known s o k (.numeral s.majorVersion) := numeral List.mem_cons_self

theorem status {b : Binding} (hb : b ∈ s.bindings) : Known s o k (.numeral b.http.successCode) :=
  numeral (List.mem_append_left _ (List.mem_cons_of_mem _ (List.mem_map_of_mem hb)))

end Known

namespace Service

/-- Types are known where their facet, and with it that of enums, is imported or at home. -/
theorem Sound.nameable (h : s.Sound) {f : Facet}
    (hf : ∀ x, k.home? s o (.declared f x) = some f.artifact)
    (hi : ∀ x, k.home? s o (.declared .internal x) = some .types) : s.Nameable f (Known s o k) where
  numeral _ := .numeral
  mapped _ hn := .declared (hf _) (h.declared_of_isMapped f hn)
  enum _ _ hn := .declared (hi _) (h.declared_of_enum hn)

theorem Sound.mentionable (h : s.Sound) {role : Role} {roots : List Value}
    (hf : ∀ f x, k.home? s o (.declared f x) = some f.artifact)
    (hmapper : ∀ n, s.Reaches roots n → Known s o k (.mapper (mapperName n role))) :
    s.Mentionable role roots (Known s o k) where
  helper := .helper
  notice := .notice
  numeral _ := .numeral
  declared f _ hn := .declared (hf f _) (h.declared_of_isMapped f hn)
  mapper := hmapper

theorem Sound.recordType_meets (h : s.Sound) {f : Facet} {P : Mention → Prop} (hP : s.Nameable f P)
    {t : TypeDecl} (ht : t ∈ s.types) :
    (ofExcept (s.recordType f t)).Meets P E fun r => ∀ m ∈ r.mentions, P m := by
  refine .ofExcept (fun r hr => hP.recordType ht hr) fun e he => ?_
  obtain ⟨r, hr⟩ := h.exists_recordType ht f
  rw [hr] at he
  cases he

theorem mem_methods_of_mem_bindings {b : Binding} (hb : b ∈ s.bindings) :
    b.interface ∈ s.interfaces ∧ b.method ∈ s.methods := by
  unfold bindings at hb
  simp only [mem_sortByName, List.mem_flatMap, List.mem_filterMap, Option.map_eq_some_iff] at hb
  obtain ⟨i, hi, r, -, http, -, m, hm, rfl⟩ := hb
  exact ⟨hi, List.mem_flatMap.2 ⟨i, hi, List.mem_of_find?_eq_some hm⟩⟩

end Service

namespace Artifact

namespace Types

theorem nameable (h : s.Sound) : s.Nameable .internal (Known s o .types) :=
  h.nameable (fun _ => rfl) fun _ => rfl

theorem exports_declaration (description : Option String) (deprecated : Bool) (name type : String) :
    Exporting (· = Naming.typeName name) (declaration description deprecated name type) := by
  refine exporting_singleton ⟨_, List.mem_append_right _ List.mem_cons_self, ?_⟩
  rw [String.append_assoc]
  exact .type _ _

theorem interfaceBody_meets (h : s.Sound) {i : Interface} (hi : i ∈ s.interfaces) :
    (interfaceBody s o i).Meets (Known s o .types) E
      (Exporting (· = Naming.interfaceName i.name o.nomenclature)) := by
  refine .record (fun m hm => ?_) (exporting_singleton ⟨_, ?_, .interface _⟩)
  · obtain ⟨d, hd, hm⟩ := List.mem_flatMap.1 hm
    have hmethod : d ∈ s.methods := List.mem_flatMap.2 ⟨i, hi, mem_sortByName.1 hd⟩
    rcases List.mem_append.1 hm with hm | hm
    · split_ifs at hm with hp
      · cases hm
      · obtain rfl := List.mem_singleton.1 hm
        exact .declared rfl (.params hmethod (by simpa using hp))
    · cases hr : d.returns with
      | none => simp [hr] at hm
      | some v =>
        have hv := Service.integers_subset_of_method hmethod (v := v) (by simp [hr])
        exact (nameable h).valueType hv m (by simpa [hr] using hm)
  · simp

theorem paramsBody_meets (h : s.Sound) {d : Method} (hd : d ∈ s.methods) :
    (paramsBody s d).Meets (Known s o .types) E
      (Exporting fun x => d.parameters ≠ [] ∧ x = Naming.paramsTypeName d.name) := by
  unfold paramsBody
  split_ifs with hp
  · refine .record (by simp) fun x hx => ?_
    exact (hx.1 (List.isEmpty_iff.1 hp)).elim
  · refine .record (fun m hm => ?_) ?_
    · obtain ⟨p, hp, hm⟩ := List.mem_flatMap.1 hm
      have hparameter : p ∈ d.parameters :=
        (List.mem_append.1 hp).elim List.mem_of_mem_filter List.mem_of_mem_filter
      have hv := Service.integers_subset_of_method hd
        (List.mem_append_left _ (List.mem_map_of_mem hparameter))
      exact (nameable h).valueType hv m hm
    · rintro x ⟨-, rfl⟩
      refine ⟨_, List.mem_cons_of_mem _ List.mem_cons_self, ?_⟩
      have hline := Declares.type (Naming.paramsTypeName d.name) "\x7b"
      rwa [String.append_assoc] at hline

theorem recordBody_meets (h : s.Sound) {t : TypeDecl} (ht : t ∈ s.types) :
    (recordBody s t).Meets (Known s o .types) E (Exporting (· = Naming.typeName t.name)) := by
  unfold recordBody
  refine (h.recordType_meets (nameable h) ht).bind fun r hr => ?_
  exact .record hr (exports_declaration _ _ _ _)

theorem enumBody_meets (e : EnumDecl) :
    (enumBody e).Meets (Known s o .types) E (Exporting (· = Naming.typeName e.name)) :=
  .record (by simp) (exports_declaration _ _ _ _)

theorem unionBody_meets (h : s.Sound) {u : UnionDecl} (hu : u ∈ s.unions) :
    (unionBody s u).Meets (Known s o .types) E (Exporting (· = Naming.typeName u.name)) :=
  .record ((nameable h).unionTypes hu) (exports_declaration _ _ _ _)

theorem discriminated?_name {u : UnionDecl} {d : Discriminated} (h : discriminated? u = some d) :
    d.name = u.name := by
  unfold discriminated? at h
  split at h
  · cases h
  · obtain rfl := Option.some.inj h
    rfl

/-- A guard narrows unions of the service to one of its records, by constants of that. -/
theorem mem_guards {g : Guard} (hg : g ∈ guards s) :
    (∃ t ∈ s.types, t.name = g.member) ∧ (∀ n ∈ g.unions, ∃ u ∈ s.unions, u.name = n) ∧
      ∀ l ∈ g.constants, l.integers ⊆ s.integers := by
  obtain ⟨member, -, hg⟩ := List.mem_filterMap.1 hg
  unfold guard? at hg
  split at hg
  · cases hg
  · rename_i t ht
    simp only at hg
    split at hg
    · cases hg
    · obtain rfl := Option.some.inj hg
      refine ⟨⟨t, Service.type?_spec ht⟩, fun n hn => ?_, fun l hl => ?_⟩
      · -- its unions were taken from the sorted ones of the service
        obtain ⟨d, hd, rfl⟩ := List.mem_map.1 hn
        obtain ⟨d', hd', hd⟩ := List.mem_flatMap.1 hd
        obtain ⟨-, -, rfl⟩ := List.mem_map.1 hd
        obtain ⟨u, hu, hd'⟩ := List.mem_filterMap.1 hd'
        exact ⟨u, mem_sortByName.1 hu, (discriminated?_name hd').symm⟩
      · obtain ⟨d, -, hl⟩ := List.mem_flatMap.1 hl
        obtain ⟨p, hp, hc⟩ := List.mem_filterMap.1 hl
        split_ifs at hc
        rw [← Value.integers_eq hc]
        exact Service.integers_subset_of_property (Service.type?_spec ht).1 hp

theorem guards_mentions :
    ∀ m ∈ (guards s).flatMap Guard.mentions, Known s o .types m := by
  intro m hm
  obtain ⟨g, hg, hm⟩ := List.mem_flatMap.1 hm
  obtain ⟨⟨t, ht, hmember⟩, hunions, hconstants⟩ := mem_guards hg
  rcases List.mem_append.1 hm with hm | hm
  · obtain ⟨l, hl, hm⟩ := List.mem_flatMap.1 hm
    obtain ⟨n, hn, rfl⟩ := List.mem_map.1 hm
    exact .numeral (hconstants l hl hn)
  · obtain ⟨n, hn, rfl⟩ := List.mem_map.1 hm
    refine .declared rfl ?_
    rcases List.mem_append.1 hn with hn | hn
    · obtain ⟨u, hu, rfl⟩ := hunions n hn
      exact .union .internal hu
    · obtain rfl := List.mem_singleton.1 hn
      rw [← hmember]
      exact .record .internal ht

theorem render_meets (h : s.Sound) : (render s o).Meets (Known s o .types) E
    fun a => ∀ x, Declared s o .types x → a.Exports x := by
  have hinterfaces := Meets.exporting_sorted Interface.name
    fun i (hi : i ∈ s.interfaces) => interfaceBody_meets (o := o) (E := E) h hi
  have hparams := Meets.exporting_sorted Method.name
    fun d (hd : d ∈ s.methods) => paramsBody_meets (o := o) (E := E) h hd
  have henums := Meets.exporting_sorted EnumDecl.name
    fun e (_ : e ∈ s.enums) => enumBody_meets (s := s) (o := o) (E := E) e
  have hrecords := Meets.exporting_sorted TypeDecl.name
    fun t (ht : t ∈ s.types) => recordBody_meets (o := o) (E := E) h ht
  have hunions := Meets.exporting_sorted UnionDecl.name
    fun u (hu : u ∈ s.unions) => unionBody_meets (o := o) (E := E) h hu
  have hguards : (guardBody s).Meets (Known s o .types) E (Exporting fun _ => False) :=
    .record guards_mentions nofun
  have hbody := ((((hinterfaces.exporting_append hparams).exporting_append henums).exporting_append
    hrecords).exporting_append hunions).exporting_append hguards
  refine (hbody.exporting_assemble .version).mono fun a ha x hx => ha x ?_
  -- the kind is an index of `Declared`; records and unions have it only in their facet
  generalize hk : ArtifactKind.types = k at hx
  cases hx with
  | interface hi => exact .inl (.inl (.inl (.inl (.inl ⟨_, hi, rfl⟩))))
  | params hd hp => exact .inl (.inl (.inl (.inl (.inr ⟨_, hd, hp, rfl⟩))))
  | enum he => exact .inl (.inl (.inl (.inr ⟨_, he, rfl⟩)))
  | record f ht =>
    cases f with
    | internal => exact .inl (.inl (.inr ⟨_, ht, rfl⟩))
    | wire => cases hk
  | union f hu =>
    cases f with
    | internal => exact .inl (.inr ⟨_, hu, rfl⟩)
    | wire => cases hk
  | handler => cases hk

end Types

namespace Dtos

theorem nameable (h : s.Sound) : s.Nameable .wire (Known s o .dtos) :=
  h.nameable (ArtifactKind.home_declared (by decide) _) (ArtifactKind.home_declared (by decide) _)

theorem exports_declaration (name type : String) :
    Exporting (· = Naming.dtoName name) (declaration name type) := by
  refine exporting_singleton ⟨_, List.mem_singleton_self _, ?_⟩
  rw [String.append_assoc]
  exact .type _ _

theorem summary_meets {name : String} (hname : Declared s o .types (Naming.typeName name)) :
    (summary name).Meets (Known s o .dtos) E (Exporting fun _ => False) := by
  refine .record (fun m hm => ?_) nofun
  obtain rfl := List.mem_singleton.1 hm
  exact .declared (ArtifactKind.home_declared (by decide) .internal _) hname

theorem recordBody_meets (h : s.Sound) {t : TypeDecl} (ht : t ∈ s.types) :
    (recordBody s t).Meets (Known s o .dtos) E
      (Exporting fun x => False ∨ x = Naming.dtoName t.name) := by
  refine (summary_meets (.record .internal ht)).exporting_append ?_
  refine (h.recordType_meets (nameable h) ht).bind fun r hr => ?_
  exact .record hr (exports_declaration _ _)

theorem unionBody_meets (h : s.Sound) {u : UnionDecl} (hu : u ∈ s.unions) :
    (unionBody s u).Meets (Known s o .dtos) E
      (Exporting fun x => False ∨ x = Naming.dtoName u.name) := by
  refine (summary_meets (.union .internal hu)).exporting_append ?_
  exact .record ((nameable h).unionTypes hu) (exports_declaration _ _)

theorem render_meets (h : s.Sound) : (render s o).Meets (Known s o .dtos) E
    fun a => ∀ x, Declared s o .dtos x → a.Exports x := by
  have hrecords := Meets.exporting_sorted TypeDecl.name
    fun t (ht : t ∈ s.types) => recordBody_meets (o := o) (E := E) h ht
  have hunions := Meets.exporting_sorted UnionDecl.name
    fun u (hu : u ∈ s.unions) => unionBody_meets (o := o) (E := E) h hu
  have hbody := hrecords.exporting_append hunions
  refine (hbody.exporting_assemble .version).mono fun a ha x hx => ha x ?_
  generalize hk : ArtifactKind.dtos = k at hx
  cases hx with
  | record f ht =>
    cases f with
    | internal => cases hk
    | wire => exact .inl ⟨_, ht, .inr rfl⟩
  | union f hu =>
    cases f with
    | internal => cases hk
    | wire => exact .inr ⟨_, hu, .inr rfl⟩
  | interface | params | enum | handler => cases hk

end Dtos

namespace HandlerTypes

theorem nameable (h : s.Sound) : s.Nameable .wire (Known s o .handlerTypes) :=
  h.nameable (ArtifactKind.home_declared (by decide) _) (ArtifactKind.home_declared (by decide) _)

theorem handlerBody_meets (h : s.Sound) {b : Binding} (hb : b ∈ s.bindings) :
    (handlerBody s b).Meets (Known s o .handlerTypes) E
      (Exporting (· = Naming.requestHandlerTypeName b.method.name)) := by
  have hmethod := (Service.mem_methods_of_mem_bindings hb).2
  refine .record (fun m hm => ?_) (exporting_singleton ?_)
  · rcases List.mem_append.1 hm with hm | hm
    · rcases List.mem_cons.1 hm with rfl | hm
      · exact .package _ _ _
      · obtain ⟨t, ht, hm⟩ := List.mem_flatMap.1 hm
        obtain ⟨p, -, ht⟩ := List.mem_filterMap.1 ht
        obtain ⟨v, hv, rfl⟩ := Option.map_eq_some_iff.1 ht
        have hparameter : v ∈ b.method.parameters := by
          simpa using List.mem_of_find?_eq_some hv
        have hinteger := Service.integers_subset_of_method hmethod
          (List.mem_append_left _ (List.mem_map_of_mem hparameter))
        exact (nameable h).valueType hinteger m hm
    · cases hr : b.method.returns with
      | none => simp [hr] at hm
      | some v =>
        have hv := Service.integers_subset_of_method hmethod (v := v) (by simp [hr])
        exact (nameable h).valueType hv m (by simpa [hr] using hm)
  · exact ⟨_, List.mem_append_right _ List.mem_cons_self, .type _ _⟩

theorem render_meets (h : s.Sound) : (render s o).Meets (Known s o .handlerTypes) E
    fun a => ∀ x, Declared s o .handlerTypes x → a.Exports x := by
  have hbody := Meets.exporting_concat
    fun b (hb : b ∈ s.bindings) => handlerBody_meets (o := o) (E := E) h hb
  refine (hbody.exporting_assemble .version).mono fun a ha x hx => ha x ?_
  generalize hk : ArtifactKind.handlerTypes = k at hx
  cases hx with
  | handler hb => exact ⟨_, hb, rfl⟩
  | record f _ | union f _ => cases f <;> cases hk
  | interface | params | enum => cases hk

end HandlerTypes

namespace Handlers

/-- Handlers convert inputs and outputs as a server does. -/
theorem mentionable (h : s.Sound) {role : Role} {roots : List Value}
    (hrole : ∀ n, s.Reaches roots n → s.HasMapper .server ⟨n, role⟩) :
    s.Mentionable role roots (Known s o .handlers) := by
  refine h.mentionable (ArtifactKind.home_declared (by decide)) fun n hn =>
    ⟨fun a ha => ?_, nofun, fun c hc => ?_, nofun⟩
  · obtain rfl : "mappers" = a := Option.some.inj ha
    rfl
  · obtain rfl := Mention.mapper.inj hc
    exact ⟨⟨n, role⟩, hrole n hn, rfl⟩

theorem known_member {a x : String} (ha : ((modules o).lookup a).isSome = true)
    (hne : a ≠ "expressTypes") : Known s o .handlers (.member a x) where
  imported b hb := by
    obtain rfl : a = b := Option.some.inj hb
    exact ha
  exported y hy := by
    unfold Mention.typeName? at hy
    split at hy <;> simp_all
  mapped := nofun
  numbered := nofun

theorem known_handlerType {b : Binding} (hb : b ∈ s.bindings) : Known s o .handlers
    (.member "expressTypes" (Naming.requestHandlerTypeName b.method.name)) := by
  have hhome : ArtifactKind.handlers.home? s o
      (.member "expressTypes" (Naming.requestHandlerTypeName b.method.name)) = some .handlerTypes := rfl
  refine .of_home hhome (fun x hx => ?_) nofun nofun
  obtain rfl := Option.some.inj hx
  exact .handler hb

theorem internal_meets {x : String} (hx : Declared s o .types x) :
    (internal x).Meets (Known s o .handlers) E fun _ => True := by
  refine .record (fun m hm => ?_) trivial
  obtain rfl := List.mem_singleton.1 hm
  exact .declared (ArtifactKind.home_declared (by decide) .internal x) hx

theorem member_meets {a x : String} (h : Known s o .handlers (.member a x)) :
    (member a x).Meets (Known s o .handlers) E fun _ => True :=
  .record (by simpa using h) trivial

theorem imported_meets (p x : String) (t : Bool) :
    (imported p x t).Meets (Known s o .handlers) E fun _ => True :=
  .record (by simpa using Known.package p x t) trivial

theorem converted_meets {role : Role} {roots : List Value}
    (hP : s.Mentionable role roots (Known s o .handlers)) {v : Value} (hv : v ∈ roots)
    (source : String) :
    (converted s role v source).Meets (Known s o .handlers) E fun _ => True := by
  have hcovered : s.Covered roots v := fun _ hn hmapped => .root hv hn hmapped
  exact .record (hcovered.mentions hP rfl Service.castOf_none) trivial

theorem fields_meets (h : s.Sound) {b : Binding} (hb : b ∈ s.bindings) :
    (fields s b).Meets (Known s o .handlers) E fun _ => True := by
  have hP : s.Mentionable .serverInbound s.inputs (Known s o .handlers) :=
    mentionable h fun _ hn => .inl ⟨rfl, hn⟩
  have hmethod := (Service.mem_methods_of_mem_bindings hb).2
  refine (Meets.concat (S := fun _ _ => True) fun p hp => ?_).mono fun _ _ => trivial
  have hinput : p.value ∈ s.inputs := List.mem_flatMap.2 ⟨_, hmethod, List.mem_map_of_mem hp⟩
  split
  · exact .record (by simp) trivial
  · rename_i http _
    have hsource : (parameterSource s p http).Meets (Known s o .handlers) E fun _ => True := by
      unfold parameterSource
      split
      · exact converted_meets hP hinput _
      · exact converted_meets hP hinput _
      · exact .record (by simp) trivial
    exact hsource.bind fun _ _ => .record (by simp) trivial

theorem parsedLines_meets (d : Method) (type : String) (fs : List String) :
    (parsedLines d type fs).Meets (Known s o .handlers) E fun _ => True := by
  unfold parsedLines
  refine (member_meets (known_member rfl (by decide))).bind fun _ _ => ?_
  exact .record (by simp) trivial

theorem validatedLines_meets (d : Method) (type : String) (fs : List String) :
    (validatedLines d type fs).Meets (Known s o .handlers) E fun _ => True := by
  unfold validatedLines
  refine (member_meets (known_member rfl (by decide))).bind fun _ _ => ?_
  refine (member_meets (known_member rfl (by decide))).bind fun _ _ => ?_
  exact .record (by simp) trivial

theorem parameterLines_meets (h : s.Sound) {b : Binding} (hb : b ∈ s.bindings) :
    (parameterLines s o b).Meets (Known s o .handlers) E fun _ => True := by
  have hmethod := (Service.mem_methods_of_mem_bindings hb).2
  unfold parameterLines
  split
  · exact .record (by simp) trivial
  · rename_i hp
    refine (internal_meets (.params hmethod (by simpa using hp))).bind fun type _ => ?_
    refine (fields_meets h hb).bind fun fs _ => ?_
    split_ifs
    · exact (parsedLines_meets _ type fs).bind fun _ _ => .record (by simp) trivial
    · exact (validatedLines_meets _ type fs).bind fun _ _ => .record (by simp) trivial

theorem responseLines_meets (h : s.Sound) {d : Method} (hd : d ∈ s.methods) :
    (responseLines s d).Meets (Known s o .handlers) E fun _ => True := by
  have hP : s.Mentionable .serverOutbound s.outputs (Known s o .handlers) :=
    mentionable h fun _ hn => .inr ⟨rfl, hn⟩
  unfold responseLines
  split
  · exact .record (by simp) trivial
  · rename_i v hv
    have houtput : v ∈ s.outputs := List.mem_filterMap.2 ⟨d, hd, hv⟩
    exact (converted_meets hP houtput _).bind fun _ _ => .record (by simp) trivial

theorem failureLines_meets : (failureLines o).Meets (Known s o .handlers) E fun _ => True := by
  unfold failureLines
  refine (member_meets (known_member rfl (by decide))).bind fun _ _ => ?_
  split_ifs
  · refine (imported_meets _ _ _).bind fun _ _ => ?_
    refine (member_meets (known_member rfl (by decide))).bind fun _ _ => ?_
    exact .record (by simp) trivial
  · exact .record (by simp) trivial

theorem headLines_meets {b : Binding} (hb : b ∈ s.bindings) :
    (headLines o b).Meets (Known s o .handlers) E fun _ => True := by
  have hinterface := (Service.mem_methods_of_mem_bindings hb).1
  unfold headLines
  refine (imported_meets _ _ _).bind fun _ _ => ?_
  refine (imported_meets _ _ _).bind fun _ _ => ?_
  refine (internal_meets (.interface hinterface)).bind fun _ _ => ?_
  refine (member_meets (known_handlerType hb)).bind fun _ _ => ?_
  exact .record (by simp) trivial

theorem handlerBody_meets (h : s.Sound) {b : Binding} (hb : b ∈ s.bindings) :
    (handlerBody s o b).Meets (Known s o .handlers) E fun _ => True := by
  have hcall : (.record (callLines b) [.numeral b.http.successCode] : Body).Meets
      (Known s o .handlers) E fun _ => True := .record (by simpa using Known.status hb) trivial
  have hend : (.record ["\x7d", "\x7d;"] [] : Body).Meets (Known s o .handlers) E fun _ => True :=
    .record (by simp) trivial
  have hresponse := responseLines_meets (o := o) (E := E) h (Service.mem_methods_of_mem_bindings hb).2
  have hbody := (((((headLines_meets hb).append (parameterLines_meets h hb)).append
    hcall).append hresponse).append failureLines_meets).append hend
  exact hbody.mono fun _ _ => trivial

theorem render_meets (h : s.Sound) :
    (render s o).Meets (Known s o .handlers) E fun _ => True := by
  have hbody := Meets.concat (S := fun _ _ => True)
    fun b (hb : b ∈ s.bindings) => handlerBody_meets (o := o) (E := E) h hb
  exact (hbody.assemble .version).mono fun _ _ => trivial

end Handlers

theorem Errors.render_meets : (Errors.render s o).Meets (Known s o .errors) E fun _ => True := by
  have hissue : (Errors.issueType o).Meets (Known s o .errors) E fun _ => True := by
    unfold Errors.issueType
    split_ifs
    · exact .record (by simpa using Known.package _ _ _) trivial
    · refine .record (fun m hm => ?_) trivial
      obtain rfl := List.mem_singleton.1 hm
      refine ⟨fun a ha => ?_, nofun, nofun, nofun⟩
      obtain rfl : "validators" = a := Option.some.inj ha
      rfl
  have hbody : (Errors.body o).Meets (Known s o .errors) E fun _ => True :=
    hissue.bind fun _ _ => .record (by simp) trivial
  exact (hbody.assemble .version).mono fun _ _ => trivial

theorem Index.render_meets : (Index.render s o).Meets (Known s o .index) E fun _ => True := by
  have hbody : (.record (Index.lines o) [] : Body).Meets (Known s o .index) E fun _ => True :=
    .record (by simp) trivial
  exact (hbody.assemble .version).mono fun _ _ => trivial

theorem Readme.render_meets : (Readme.render s o).Meets (Known s o .readme) E fun _ => True :=
  .record (by simpa using Known.version) trivial

end Artifact

end DtoGen
