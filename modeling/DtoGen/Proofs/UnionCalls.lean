import DtoGen.Proofs.Calls
import DtoGen.Proofs.Constant

namespace DtoGen.Service

open Journal

variable {s : Service} {role : Role} {roots : List Value} {P : Mention → Prop}
  {E : RenderError → Prop} {union : String} {x : Subject} {each : Bool}

theorem Sound.reaches_of_mem_collectRecords (h : s.Sound) {names : List String}
    (hn : ∀ n ∈ names, s.Reaches roots n) {t : TypeDecl} (ht : t ∈ s.collectRecords names) :
    s.Reaches roots t.name := by
  have hreached : ∀ n, ReachedFrom s.nestedMembers s.declaredNames names n → s.Reaches roots n := by
    intro n hfrom
    induction hfrom with
    | start hw _ => exact hn _ hw
    | @step m n _ hl hp ih =>
      unfold nestedMembers at hl
      split at hl
      · rename_i u _ hu
        obtain ⟨v, hv, hname⟩ := List.mem_filterMap.1 hl
        have hunion := h.resolveName_eq_union_iff.2 (h.union?_eq_some_iff.1 hu)
        exact .step ih (.member hunion hv hname) (h.isMapped_iff.2 hp)
      · cases hl
  obtain ⟨n, hmem, ht⟩ := List.mem_filterMap.1 ht
  rw [(type?_spec ht).2]
  exact hreached n (mem_closure_iff.1 hmem)

/-- The names of a union that are taken for records are members of it. -/
theorem memberKinds_records_reached {members : List Value}
    (hm : ∀ v ∈ members, s.Covered roots v) :
    ∀ n ∈ (s.memberKinds members).records, s.Reaches roots n := by
  intro n hn
  obtain ⟨v, hv, hn⟩ := List.mem_filterMap.1 hn
  split at hn
  · cases hn
  · rename_i k hb
    split_ifs at hn with hmapped
    obtain rfl := Option.some.inj hn
    exact hm v hv k (by rw [Value.name?, hb]) hmapped

theorem calls_dateBranches (k : MemberKinds) (d : Direction) :
    Branching.calls (k.dateBranches d x each) = [] := by
  unfold MemberKinds.dateBranches dateChange
  split_ifs
  · rfl
  · cases d <;> rfl

theorem calls_primitiveBranches (k : MemberKinds) :
    Branching.calls (k.primitiveBranches x) = [] := by
  unfold MemberKinds.primitiveBranches
  split <;> rfl

theorem calls_snoc {bs : List Branching} {a : Action} {k : Condition Test}
    (hbs : ∀ c ∈ Branching.calls bs, P (.mapper c)) (ha : ∀ c ∈ a.calls, P (.mapper c)) :
    ∀ c ∈ Branching.calls (bs ++ [.leaf k [a]]), P (.mapper c) := by
  intro c hc
  rw [Branching.calls_append, Branching.calls_leaf, Branching.calls_nil, List.append_nil] at hc
  rcases List.mem_append.1 hc with hc | hc
  · exact hbs c hc
  · exact ha c hc

/-- A mark compares with nothing but a constant of the service. -/
theorem integers_of_firstMark {others : List String} {member name : String} {c : Literal}
    (h : s.firstMark others member = some (.constant name c)) : c.integers ⊆ s.integers := by
  have hmark := List.mem_of_mem_head? h
  cases ht : s.type? member with
  | none => simp [Discrimination.marks, ht] at hmark
  | some t =>
    obtain ⟨⟨p, hp, -, -, hc⟩, -⟩ :=
      Discrimination.mem_constantMarks (Discrimination.constant_mark ht hmark)
    rw [← Value.integers_eq hc]
    exact integers_subset_of_property (type?_spec ht).1 hp

theorem integers_of_discriminatorValue? {discriminator member : String} {l : Literal}
    (h : s.discriminatorValue? discriminator member = some l) : l.integers ⊆ s.integers := by
  obtain ⟨t, ht, h⟩ := Option.bind_eq_some_iff.1 h
  obtain ⟨p, hp, hc⟩ := Option.bind_eq_some_iff.1 h
  rw [← Value.integers_eq hc]
  exact integers_subset_of_property (type?_spec ht).1 (List.mem_of_find?_eq_some hp)

section Mentionable

variable (hP : s.Mentionable role roots P)

include hP

theorem Mentionable.delegate {n : String} (hn : s.Reaches roots n) :
    (delegate role each n).Meets P E fun a => ∀ c ∈ a.calls, P (.mapper c) := by
  have hmapper := hP.mapper n hn
  refine .record (fun m hm => ?_) fun c hc => ?_
  · obtain rfl := List.mem_singleton.1 hm
    exact hmapper
  · obtain rfl := List.mem_singleton.1 hc
    exact hmapper

theorem Mentionable.literal {l : Literal} (hl : l.integers ⊆ s.integers) :
    ∀ m ∈ l.mentions, P m := by
  intro m hm
  obtain ⟨n, hn, rfl⟩ := List.mem_map.1 hm
  exact hP.numeral n (hl hn)

theorem Mentionable.mark {others : List String} {member : String} {mark : Mark}
    (h : s.firstMark others member = some mark) : ∀ m ∈ mark.mentions, P m := by
  cases mark with
  | property | properties => simp [Mark.mentions]
  | constant name c => exact hP.literal (integers_of_firstMark h)

/-- Members with a mark are handed to their mappers; those without one are left over. -/
theorem Mentionable.markMembers {names : List String} (hn : ∀ n ∈ names, s.Reaches roots n)
    (before : List String) :
    (s.markMembers role x each before names).Meets P E fun r =>
      (∀ c ∈ Branching.calls r.branches, P (.mapper c)) ∧ ∀ n ∈ r.unmarked, n ∈ names := by
  induction names generalizing before with
  | nil => exact .record (by simp) ⟨by simp, by simp⟩
  | cons m rest ih =>
    have hrest := ih (fun n h => hn n (List.mem_cons_of_mem m h)) (before ++ [m])
    have hnotices : ∀ k ∈ (Discrimination.notices s m).map Mention.notice, P k := by
      intro k hk
      obtain ⟨k, -, rfl⟩ := List.mem_map.1 hk
      exact hP.notice k
    rw [Service.markMembers]
    refine (Meets.note hnotices).bind fun _ _ => ?_
    cases hmark : s.firstMark (before ++ rest) m with
    | none =>
      refine hrest.bind fun r hr => .record (by simp) ⟨hr.1, fun n h => ?_⟩
      rcases List.mem_cons.1 h with rfl | h
      · exact List.mem_cons_self
      · exact List.mem_cons_of_mem m (hr.2 n h)
    | some mark =>
      refine (Meets.note (hP.mark hmark)).bind fun _ _ => ?_
      refine (hP.delegate (hn m List.mem_cons_self)).bind fun a ha => ?_
      refine hrest.bind fun r hr => .record (by simp) ⟨fun c hc => ?_, fun n h => ?_⟩
      · rw [Branching.calls_leaf] at hc
        rcases List.mem_append.1 hc with hc | hc
        · exact ha c hc
        · exact hr.1 c hc
      · exact List.mem_cons_of_mem m (hr.2 n h)

theorem Mentionable.mergeFields {conflict : RenderError} (hconflict : E conflict)
    {ps : List Property} (hps : ∀ p ∈ ps, s.Covered roots p.value) {fields : List (String × Field)}
    (hfields : ∀ f ∈ fields, ∀ c ∈ f.2.expression.conversion.calls, P (.mapper c)) :
    (s.mergeFields role conflict fields ps).Meets P E fun fs =>
      ∀ f ∈ fs, ∀ c ∈ f.expression.conversion.calls, P (.mapper c) := by
  induction ps generalizing fields with
  | nil =>
    refine .record (by simp) fun f hf => ?_
    obtain ⟨g, hg, rfl⟩ := List.mem_map.1 hf
    exact hfields g hg
  | cons p ps ih =>
    have hp := hps p List.mem_cons_self
    have hrest := fun q hq => hps q (List.mem_cons_of_mem p hq)
    rw [Service.mergeFields]
    refine (Meets.note (hp.mentions hP rfl castOf_none)).bind fun _ _ => ?_
    split
    · refine ih hrest fun f hf => ?_
      rcases List.mem_append.1 hf with hf | hf
      · exact hfields f hf
      · obtain rfl := List.mem_singleton.1 hf
        exact hp.calls hP
    · split_ifs
      · exact ih hrest hfields
      · exact .fail hconflict

theorem Mentionable.mergeMembers (h : s.Sound) {members : List String}
    (hm : ∀ n ∈ members, s.Reaches roots n) :
    (s.mergeMembers union role each members).Meets P (RenderError.NoMapper union) fun a =>
      ∀ c ∈ a.calls, P (.mapper c) := by
  unfold Service.mergeMembers
  simp only
  split_ifs
  · exact .fail (.indistinct members)
  · have hps : ∀ p ∈ (s.collectRecords members).flatMap (·.properties), s.Covered roots p.value := by
      intro p hp
      obtain ⟨t, ht, hp⟩ := List.mem_flatMap.1 hp
      refine covered_of_mem_values ?_ (h.reaches_of_mem_collectRecords hm ht) ?_
      · exact resolveName_eq_type.2 (type?_name_of_mem_collectRecords ht)
      · exact List.mem_append_left _ (List.mem_map_of_mem hp)
    refine (hP.mergeFields (.indistinct members) hps (by simp)).bind fun fields hfields => ?_
    refine .record (fun m hm => ?_) fun c hc => ?_
    · obtain rfl := List.mem_singleton.1 hm
      exact hP.helper _
    · obtain ⟨f, hf, hc⟩ := List.mem_flatMap.1 hc
      exact hfields f hf c hc

theorem Mentionable.recordBranches (h : s.Sound) {names : List String}
    (hn : ∀ n ∈ names, s.Reaches roots n) :
    (s.recordBranches union role x each names).Meets P (RenderError.NoMapper union) fun bs =>
      ∀ c ∈ Branching.calls bs, P (.mapper c) := by
  unfold Service.recordBranches
  split
  · exact .record (by simp) (by simp)
  · rename_i m
    refine (hP.delegate (hn m List.mem_cons_self)).bind fun a ha => ?_
    exact .record (by simp) (by simpa using ha)
  · refine (hP.markMembers hn []).bind fun r hr => ?_
    split
    · exact .record (by simp) hr.1
    · rename_i m hm
      have hreached : s.Reaches roots m := hn m (hr.2 m (by simp [hm]))
      refine (hP.delegate hreached).bind fun a ha => .record (by simp) ?_
      exact calls_snoc hr.1 ha
    · refine (hP.mergeMembers h fun n hu => hn n (hr.2 n hu)).bind fun a ha => ?_
      exact .record (by simp) (calls_snoc hr.1 ha)

theorem Mentionable.memberBranches (h : s.Sound) {members : List Value}
    (hm : ∀ v ∈ members, s.Covered roots v) :
    (s.memberBranches union role each members).Meets P (RenderError.NoMapper union) fun bs =>
      ∀ c ∈ Branching.calls bs, P (.mapper c) := by
  have hhelpers : ∀ m ∈ (s.memberKinds members).helpers role.direction, P m := by
    intro m hmem
    unfold MemberKinds.helpers at hmem
    split_ifs at hmem
    · obtain ⟨f, -, rfl⟩ := List.mem_map.1 hmem
      exact hP.helper _
    · cases hmem
  unfold Service.memberBranches
  refine (Meets.note hhelpers).bind fun _ _ => ?_
  refine (hP.recordBranches h (memberKinds_records_reached hm)).bind fun records hrecords => ?_
  refine .record (by simp) fun c hc => hrecords c ?_
  -- nothing but the branches of records calls a mapper
  have hempty : Branching.calls
      (if each && 1 < members.length then [.leaf (.test .isEmpty) [.empty]] else []) = [] := by
    split_ifs <;> rfl
  have hpass : Branching.calls
      (if (s.memberKinds members).passes then [.leaf (.test .always) [.same]] else []) = [] := by
    split_ifs <;> rfl
  rw [Branching.calls_append, Branching.calls_append, Branching.calls_append,
    Branching.calls_append, hempty, hpass, calls_dateBranches, calls_primitiveBranches] at hc
  simpa using hc

theorem Mentionable.formBranches (h : s.Sound) {members : List Value}
    (hm : ∀ v ∈ members, s.Covered roots v) :
    (s.formBranches union role each members).Meets P (RenderError.NoMapper union) fun bs =>
      ∀ c ∈ Branching.calls bs, P (.mapper c) := by
  unfold Service.formBranches
  split
  · exact .record (by simp) (by simp)
  · refine (hP.memberBranches h hm).bind fun bs hbs => .record (by simp) ?_
    rwa [Branching.calls_nested]

theorem Mentionable.simpleBody (h : s.Sound) {members : List Value}
    (hm : ∀ v ∈ members, s.Covered roots v) :
    (s.simpleBody union role members).Meets P (RenderError.NoMapper union) fun b =>
      ∀ c ∈ b.calls, P (.mapper c) := by
  have hform : ∀ p : Value → Bool, ∀ v ∈ members.filter p, s.Covered roots v :=
    fun _ v hv => hm v (List.mem_of_mem_filter hv)
  unfold Service.simpleBody
  refine (hP.formBranches h (hform _)).bind fun arrays harrays => ?_
  refine (hP.formBranches h (hform _)).bind fun others hothers => ?_
  split_ifs
  · refine .record (by simp) fun c hc => ?_
    cases hc
  · refine .record (by simp) fun c hc => ?_
    rw [UnionBody.calls, Branching.calls_append] at hc
    rcases List.mem_append.1 hc with hc | hc
    · exact harrays c hc
    · exact hothers c hc

/-- A case stands for a member that is a record with the constant. -/
theorem Mentionable.switchCases {discriminator : String} {members : List Reference}
    (hm : ∀ r ∈ members, s.Covered roots r.toValue) :
    (s.switchCases union role discriminator members).Meets P (RenderError.NoMapper union)
      fun cs => ∀ k ∈ cs, P (.mapper k.mapper) := by
  unfold Service.switchCases
  refine (Meets.traverse (S := fun _ k => P (.mapper k.mapper)) fun r hr => ?_).mono
    fun cs hcs k hk => ?_
  · cases hd : s.discriminatorValue? discriminator r.name with
    | none => exact .fail (.missingConstant r.name discriminator)
    | some l =>
      obtain ⟨t, ht, -⟩ := Option.bind_eq_some_iff.1 hd
      have hmapped : (s.resolveName r.name).isMapped = true := by
        rw [resolveName_eq_type.2 ht, Resolution.isMapped]
      have hmapper := hP.mapper r.name (hm r hr r.name rfl hmapped)
      have hliteral := hP.literal (integers_of_discriminatorValue? hd)
      exact .record (List.forall_mem_cons.2 ⟨hmapper, hliteral⟩) hmapper
  · obtain ⟨r, -, hk⟩ := exists_related_of_mem_right hcs hk
    exact hk

/-- The mapper of a union that is reached calls and mentions only what it may, and fails only for want
of a mark or of a constant. -/
theorem Mentionable.unionMapper (h : s.Sound) {u : UnionDecl}
    (hu : s.resolveName u.name = .union u) (hr : s.Reaches roots u.name) :
    (s.unionMapper role u).Meets P (RenderError.NoMapper u.name) fun m =>
      m.signature = ⟨u.name, role⟩ ∧ ∀ c ∈ m.body.calls, P (.mapper c) := by
  have hmapped : (s.resolveName u.name).isMapped = true := by rw [hu, Resolution.isMapped]
  have hmembers := fun v hv => covered_of_mem_members (v := v) hu hr hv
  unfold Service.unionMapper
  refine (Meets.note (hP.signature hmapped)).bind fun _ _ => ?_
  unfold UnionDecl.members at hmembers
  split
  · rename_i ms hbody
    rw [hbody] at hmembers
    exact (hP.simpleBody h hmembers).bind fun body hb => .record (by simp) ⟨rfl, hb⟩
  · rename_i d ms hbody
    rw [hbody] at hmembers
    have hrefs : ∀ r ∈ ms, s.Covered roots r.toValue :=
      fun r hr => hmembers _ (List.mem_map_of_mem hr)
    refine (hP.switchCases hrefs).bind fun cs hcs => .record (by simp) ⟨rfl, fun c hc => ?_⟩
    obtain ⟨k, hk, rfl⟩ := List.mem_map.1 hc
    exact hcs k hk

end Mentionable

end DtoGen.Service
