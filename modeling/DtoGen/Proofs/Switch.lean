import DtoGen.Proofs.Defects
import DtoGen.Proofs.Meets
import DtoGen.Proofs.RoundTrip
import Mathlib

namespace DtoGen

namespace Case

theorem denoted?_of_taken? {v : Datum} {cases : List Case} {i : Nat} (h : taken? v cases = some i) :
    ∃ c, cases[i]? = some c ∧ c.constant.denoted? = some v := by
  induction cases generalizing i with
  | nil => simp [taken?] at h
  | cons c cs ih =>
    obtain ⟨d, hd, h⟩ := Option.bind_eq_some_iff.1 h
    split_ifs at h with he
    · obtain rfl := Option.some.inj h
      exact ⟨c, rfl, Datum.eq_of_strictEq he ▸ hd⟩
    · obtain ⟨j, hj, rfl⟩ := Option.map_eq_some_iff.1 h
      exact ih hj

theorem exists_taken? {v : Datum} {cases : List Case}
    (hread : ∀ c ∈ cases, c.constant.denoted?.isSome = true) {c : Case} (hc : c ∈ cases)
    (hv : c.constant.denoted? = some v) : ∃ i, taken? v cases = some i := by
  induction cases with
  | nil => cases hc
  | cons a cs ih =>
    obtain ⟨ha, hcs⟩ := List.forall_mem_cons.1 hread
    obtain ⟨d, hd⟩ := Option.isSome_iff_exists.1 ha
    simp only [taken?, hd, Option.bind_some]
    split_ifs with he
    · exact ⟨0, rfl⟩
    · rcases List.mem_cons.1 hc with rfl | hc
      · obtain rfl : d = v := by simpa [hd] using hv
        exact absurd (Literal.strictEq_self_of_denoted? hd) he
      · obtain ⟨i, hi⟩ := ih hcs hc
        exact ⟨i + 1, by simp [hi]⟩

end Case

/-- An object with the keys of a record that holds the constant of its discriminator. -/
structure TypeDecl.Tagged (t : TypeDecl) (f : Facet) (discriminator : String) (c : Literal)
    (x : Members) : Prop extends t.Shaped f x where
  tag : x.lookup (f.memberName discriminator) = some c.value

theorem TypeDecl.Tagged.read {t : TypeDecl} {f : Facet} {d : String} {c : Literal} {x : Members}
    (h : t.Tagged f d c x) : x.read (f.memberName d) = c.value := by
  rw [Members.read, h.tag, Option.getD_some]

/-- There are such objects, also with nothing under other keys that equals a constant. -/
theorem TypeDecl.exists_tagged {t : TypeDecl} {d : String} {p : Property} (hp : t.property? d = some p)
    (f : Facet) (c : Literal) :
    ∃ x, t.Tagged f d c x ∧ ∀ k, k ≠ f.memberName d → ∀ l : Literal, x.read k ≠ l.value := by
  have hmem : p ∈ t.properties := List.mem_of_find?_eq_some hp
  have hname : p.name = d := by simpa using List.find?_some hp
  -- an object stands under every other key, and no object equals a constant
  refine ⟨(f.memberName d, c.value) :: t.properties.map fun q => (f.memberName q.name, .object []),
    ⟨⟨fun n hn => ?_, fun _ k hk => ?_⟩, ?_⟩, fun k hk l => ?_⟩
  · obtain ⟨q, hq, -, rfl⟩ := mem_requiredNames.1 hn
    simp only [Members.has, List.lookup_isSome_iff, List.mem_cons, List.mem_map]
    exact ⟨_, .inr ⟨q, hq, rfl⟩, by simp⟩
  · obtain ⟨v, hv⟩ := Members.has_iff.1 hk
    rcases List.mem_cons.1 (Assoc.mem_of_lookup hv) with he | he
    · exact ⟨p, hmem, by rw [hname, (Prod.mk.inj he).1]⟩
    · obtain ⟨q, hq, he⟩ := List.mem_map.1 he
      exact ⟨q, hq, (Prod.mk.inj he).1⟩
  · rw [Assoc.lookup_cons, if_pos rfl]
  · rw [Members.read, Assoc.lookup_cons, if_neg hk]
    cases hv : (t.properties.map fun q => (f.memberName q.name, Datum.object [])).lookup k with
    | none => exact l.value_ne_undefined.symm
    | some v =>
      obtain ⟨q, -, he⟩ := List.mem_map.1 (Assoc.mem_of_lookup hv)
      obtain rfl := (Prod.mk.inj he).2
      exact l.value_ne_object.symm

namespace Service

/-- A case for a member: its constant, and its mapper. -/
structure CaseOf (s : Service) (role : Role) (discriminator : String) (r : Reference) (c : Case) :
    Prop where
  constant : s.discriminatorValue? discriminator r.name = some c.constant
  mapper : c.mapper = mapperName r.name role

variable {s : Service} {role : Role} {u : UnionDecl} {d : String} {ms : List Reference}

theorem switchCases_meets {union : String} :
    (s.switchCases union role d ms).Meets (fun _ => True)
      (fun e => ∃ r ∈ ms, s.discriminatorValue? d r.name = none ∧
        e = .missingConstant union r.name d)
      fun cases => List.Forall₂ (s.CaseOf role d) ms cases := by
  refine Journal.Meets.traverse fun r hr => ?_
  cases hd : s.discriminatorValue? d r.name with
  | none => exact .fail ⟨r, hr, hd, rfl⟩
  | some c => exact .record (by simp) ⟨hd, rfl⟩

/-- The mapper of a discriminated union is a switch with a case for each member, and there is none just
for want of a constant. -/
theorem unionMapper_meets (hu : u.body = .discriminated d ms) :
    (s.unionMapper role u).Meets (fun _ => True)
      (fun e => ∃ r ∈ ms, s.discriminatorValue? d r.name = none ∧
        e = .missingConstant u.name r.name d)
      fun m => ∃ cases, m.body = .switch (role.source.memberName d) cases ∧
        List.Forall₂ (s.CaseOf role d) ms cases := by
  unfold unionMapper
  refine (Journal.Meets.note (by simp)).bind fun _ _ => ?_
  simp only [hu]
  exact switchCases_meets.bind fun cases hcases => .record (by simp) ⟨cases, rfl, hcases⟩

/-- What the members of a union need for a switch to find them: the discriminator is read under its own
name, all constants can be read, and those of different members are different values. -/
structure TellsApart (s : Service) (role : Role) (discriminator : String) (ms : List Reference) :
    Prop where
  readable : ms ≠ [] → Naming.Faithful (role.source.memberName discriminator)
  written : ∀ r ∈ ms, ∀ c, s.discriminatorValue? discriminator r.name = some c →
    c.denoted?.isSome = true
  apart : ∀ r ∈ ms, ∀ q ∈ ms, r.name ≠ q.name →
    ∀ a b, s.discriminatorValue? discriminator r.name = some a →
      s.discriminatorValue? discriminator q.name = some b → a.value ≠ b.value

/-- Every instance of a member takes the case of that member. -/
def Dispatches (s : Service) (role : Role) (discriminator : String) (ms : List Reference)
    (body : UnionBody) : Prop :=
  ∀ r ∈ ms, ∀ t, s.type? r.name = some t →
    ∀ c, s.discriminatorValue? discriminator r.name = some c →
      ∀ x, t.Tagged role.source discriminator c x →
        ∃ i own, body.taken? x = some i ∧ ms[i]? = some own ∧ own.name = r.name

variable {cases : List Case}

theorem dispatches_of_tellsApart (hcases : List.Forall₂ (s.CaseOf role d) ms cases)
    (h : s.TellsApart role d ms) :
    s.Dispatches role d ms (.switch (role.source.memberName d) cases) := by
  intro r hr t _ c hc x hx
  have htaken : (UnionBody.switch (role.source.memberName d) cases).taken? x =
      Case.taken? c.value cases := by
    rw [UnionBody.taken?, Naming.accessName?_accessor,
      Naming.denoted?_of_faithful (h.readable (List.ne_nil_of_mem hr)), Option.bind_some, hx.read]
  have hwritten : ∀ k ∈ cases, k.constant.denoted?.isSome = true := by
    intro k hk
    obtain ⟨q, hq, hcase⟩ := exists_related_of_mem_right hcases hk
    exact h.written q hq _ hcase.constant
  obtain ⟨k, hk, hcase⟩ := exists_related_of_mem_left hcases hr
  obtain rfl : c = k.constant := Option.some.inj (hc.symm.trans hcase.constant)
  have hown : k.constant.denoted? = some k.constant.value := by
    obtain ⟨v, hv⟩ := Option.isSome_iff_exists.1 (hwritten k hk)
    rw [hv, Literal.value_eq_of_denoted? hv]
  -- some case is taken, and its constant is the value, so it is that of the member
  obtain ⟨i, hi⟩ := Case.exists_taken? hwritten hk hown
  obtain ⟨k', hk', hvalue⟩ := Case.denoted?_of_taken? hi
  obtain ⟨own, hget, hcase'⟩ := exists_related_of_getElem? hcases hk'
  refine ⟨i, own, htaken.trans hi, hget, ?_⟩
  by_contra hne
  exact h.apart own (List.mem_of_getElem? hget) r hr hne _ _ hcase'.constant hc
    (Literal.value_eq_of_denoted? hvalue)

/-- In a switch that finds the members, an instance takes a case with the constant it holds. -/
theorem exists_taken_of_dispatches (hcases : List.Forall₂ (s.CaseOf role d) ms cases)
    (h : s.Dispatches role d ms (.switch (role.source.memberName d) cases)) {r : Reference}
    (hr : r ∈ ms) {c : Literal} (hc : s.discriminatorValue? d r.name = some c) :
    Naming.Faithful (role.source.memberName d) ∧ c.denoted? = some c.value ∧
      ∃ i own, Case.taken? c.value cases = some i ∧ ms[i]? = some own ∧ own.name = r.name := by
  obtain ⟨t, ht, hp⟩ := Option.bind_eq_some_iff.1 hc
  obtain ⟨p, hp, -⟩ := Option.bind_eq_some_iff.1 hp
  obtain ⟨x, hx, hother⟩ := TypeDecl.exists_tagged hp role.source c
  obtain ⟨i, own, htaken, hget, hname⟩ := h r hr t ht c hc x hx
  rw [UnionBody.taken?, Naming.accessName?_accessor] at htaken
  obtain ⟨k, hk, htaken⟩ := Option.bind_eq_some_iff.1 htaken
  obtain ⟨case, hcase, hdenoted⟩ := Case.denoted?_of_taken? htaken
  -- whatever was read is a constant, so it was read under the key of the discriminator
  have hkey : k = role.source.memberName d := by
    by_contra hne
    exact hother k hne case.constant (Literal.value_eq_of_denoted? hdenoted).symm
  subst hkey
  rw [hx.read] at htaken hdenoted
  obtain ⟨own', hget', hof⟩ := exists_related_of_getElem? hcases hcase
  obtain rfl : own' = own := Option.some.inj (hget'.symm.trans hget)
  have hconstant : case.constant = c := by
    have hvalue := hof.constant
    rw [hname, hc] at hvalue
    exact (Option.some.inj hvalue).symm
  exact ⟨Naming.faithful_of_denoted? hk, hconstant ▸ hdenoted, i, own', htaken, hget, hname⟩

theorem tellsApart_of_dispatches (hcases : List.Forall₂ (s.CaseOf role d) ms cases)
    (h : s.Dispatches role d ms (.switch (role.source.memberName d) cases)) :
    s.TellsApart role d ms where
  readable hne := by
    obtain ⟨r, hr⟩ := List.exists_mem_of_ne_nil ms hne
    obtain ⟨k, -, hcase⟩ := exists_related_of_mem_left hcases hr
    exact (exists_taken_of_dispatches hcases h hr hcase.constant).1
  written r hr c hc := by rw [(exists_taken_of_dispatches hcases h hr hc).2.1, Option.isSome_some]
  apart r hr q hq hne a b ha hb hvalue := by
    obtain ⟨-, -, i, own, hi, hget, hname⟩ := exists_taken_of_dispatches hcases h hr ha
    obtain ⟨-, -, j, own', hj, hget', hname'⟩ := exists_taken_of_dispatches hcases h hq hb
    -- one value takes one case
    obtain rfl : i = j := by simpa [hvalue, hj, eq_comm] using hi
    obtain rfl : own = own' := Option.some.inj (hget.symm.trans hget')
    exact hne (hname.symm.trans hname')

/-- The mapper of a discriminated union has the cases of its members, in their order. They are taken by
the instances of their members just if the members are told apart. -/
theorem switch_dispatches_iff (s : Service) (role : Role) (u : UnionDecl) (d : String)
    (ms : List Reference) (hu : u.body = .discriminated d ms) (m : UnionMapper)
    (hm : (s.unionMapper role u).result = .ok m) :
    (∃ cases, m.body = .switch (role.source.memberName d) cases ∧
      List.Forall₂ (s.CaseOf role d) ms cases) ∧
    (s.Dispatches role d ms m.body ↔ s.TellsApart role d ms) := by
  obtain ⟨cases, hbody, hcases⟩ := (unionMapper_meets hu).ok m hm
  refine ⟨⟨cases, hbody, hcases⟩, ?_⟩
  rw [hbody]
  exact ⟨tellsApart_of_dispatches hcases, dispatches_of_tellsApart hcases⟩

def kindRecord (name kind : String) : TypeDecl where
  name := name
  properties := [{ name := "kind", value := { base := .primitive .string (some (.string kind)) } }]

def figure (other : String) : UnionDecl where
  name := "figure"
  body := .discriminated "kind" [{ name := "circle" }, { name := other }]

/-- Two records, of which the second has a kind to choose, and a union of the first and another. -/
def figures (kind other : String) : Service where
  title := "figures"
  types := [kindRecord "circle" "round", kindRecord "square" kind]
  unions := [figure other]

theorem figures_dispatch : ∃ m,
    ((figures "angular" "square").unionMapper .serverInbound (figure "square")).result = .ok m ∧
      (figures "angular" "square").Dispatches .serverInbound "kind"
        [{ name := "circle" }, { name := "square" }] m.body := by
  have hok : ((figures "angular" "square").unionMapper .serverInbound (figure "square")).result.isOk =
      true := by cbv
  obtain ⟨m, hm⟩ := Journal.exists_result hok
  have hiff := (switch_dispatches_iff _ .serverInbound (figure "square") _ _ rfl m hm).2
  have hcircle : (figures "angular" "square").discriminatorValue? "kind" "circle" =
    some (.string "round") := rfl
  have hsquare : (figures "angular" "square").discriminatorValue? "kind" "square" =
    some (.string "angular") := rfl
  have hkind : Naming.denoted? "kind" = some "kind" := by decide
  refine ⟨m, hm, hiff.2 ⟨fun _ => Naming.faithful_of_denoted? hkind, ?_, ?_⟩⟩
  · simp [hcircle, hsquare, Literal.denoted?, Literal.text, Naming.keyName?_quote]
  · simp [hcircle, hsquare, Literal.value, Literal.datum]

/-- An instance of the second member takes the case of the first one. -/
theorem figures_confused : (figures "round" "square").check.defects = [] ∧
    figure "square" ∈ (figures "round" "square").unions ∧
    (kindRecord "square" "round").Tagged .wire "kind" (.string "round") [("kind", .string "round")] ∧
    ∃ m, ((figures "round" "square").unionMapper .serverInbound (figure "square")).result = .ok m ∧
      m.body = .switch "kind" [⟨.string "round", mapperName "circle" .serverInbound⟩,
        ⟨.string "round", mapperName "square" .serverInbound⟩] ∧
      m.body.taken? [("kind", .string "round")] = some 0 := by
  refine ⟨by decide, by simp [figures], ⟨⟨by decide, fun _ k hk => ?_⟩, rfl⟩, _, rfl, rfl, by decide⟩
  obtain ⟨v, hv⟩ := Members.has_iff.1 hk
  obtain ⟨rfl, -⟩ : k = "kind" ∧ v = .string "round" := by simpa using Assoc.mem_of_lookup hv
  exact ⟨_, List.mem_singleton.2 rfl, rfl⟩

theorem resolveName_ne_primitive (s : Service) (n : String) : s.resolveName n ≠ .primitive := by
  unfold resolveName
  cases s.type? n <;> cases s.enum? n <;> cases s.union? n <;> simp

theorem memberWithoutConstant_mem (hmem : u ∈ s.unions) (hu : u.body = .discriminated d ms)
    {r : Reference} (hr : r ∈ ms) {t : TypeDecl} (ht : s.resolveName r.name = .type t)
    (hnone : s.discriminatorValue? d r.name = none) :
    .memberWithoutConstant r.name u.name d ∈ s.check.concerns := by
  have hconstant : (t.property? d).bind (·.value.constant?) = none := by
    simpa [discriminatorValue?, resolveName_eq_type.1 ht] using hnone
  have hconcern : .memberWithoutConstant r.name u.name d ∈ Check.memberConcerns s u := by
    simp only [Check.memberConcerns, hu, List.mem_filterMap]
    exact ⟨r, hr, by simp [ht, hconstant]⟩
  have hall := List.mem_flatMap_of_mem hmem hconcern
  simp [check, hall]

theorem unresolved_mem (hmem : u ∈ s.unions) (hu : u.body = .discriminated d ms) {r : Reference}
    (hr : r ∈ ms) (hn : s.resolveName r.name = .unresolved) :
    .unresolved r.name (.member u.name) ∈ s.check.concerns := by
  have hplace : (.member u.name, r.toValue) ∈ Check.places s := by
    have hplaces : (.member u.name, r.toValue) ∈ Check.unionPlaces u := by
      simp only [Check.unionPlaces, UnionDecl.members, hu, List.map_map]
      exact List.mem_map_of_mem hr
    have hall := List.mem_flatMap_of_mem hmem hplaces
    simp [Check.places, hall]
  have hconcern : .unresolved r.name (.member u.name) ∈ Check.unresolved s :=
    List.mem_filterMap.2 ⟨_, hplace, by simp [Reference.toValue, hn]⟩
  simp [check, hconcern]

/-- After a check that reports neither defects nor members without a constant, those still lack one
that are not declared. -/
theorem discriminatorValue?_eq_none_iff (hs : s.Sound) (hmem : u ∈ s.unions)
    (hu : u.body = .discriminated d ms) {r : Reference} (hr : r ∈ ms)
    (hc : .memberWithoutConstant r.name u.name d ∉ s.check.concerns) :
    s.discriminatorValue? d r.name = none ↔ s.resolveName r.name = .unresolved := by
  have hdefects := hs.members u hmem
  simp only [Check.memberDefects, hu, List.filterMap_eq_nil_iff] at hdefects
  cases hn : s.resolveName r.name with
  | type t =>
    refine iff_of_false (fun hnone => hc ?_) (by simp)
    exact memberWithoutConstant_mem hmem hu hr hn hnone
  | enum e => simpa [hn] using hdefects r hr
  | union w => simpa [hn] using hdefects r hr
  | primitive => exact absurd hn (s.resolveName_ne_primitive r.name)
  | unresolved =>
    refine iff_of_true ?_ rfl
    cases ht : s.type? r.name with
    | none => simp [discriminatorValue?, ht]
    | some t => simp [resolveName_eq_type.2 ht] at hn

/-- After such a check a discriminated union has a mapper just if all its members are declared. If it
has none, then for want of the constant of a member that the check reports as unresolved only. -/
theorem switch_built_iff (s : Service) (hs : s.check.isSound = true)
    (hc : ∀ member union discriminator,
      .memberWithoutConstant member union discriminator ∉ s.check.concerns)
    (u : UnionDecl) (hmem : u ∈ s.unions) (d : String) (ms : List Reference)
    (hu : u.body = .discriminated d ms) (role : Role) :
    ((∃ m, (s.unionMapper role u).result = .ok m) ↔
      ∀ r ∈ ms, s.resolveName r.name ≠ .unresolved) ∧
    ∀ e, (s.unionMapper role u).result = .error e → ∃ r ∈ ms, s.resolveName r.name = .unresolved ∧
      .unresolved r.name (.member u.name) ∈ s.check.concerns ∧
      e = .missingConstant u.name r.name d := by
  have hnone : ∀ r ∈ ms, (s.discriminatorValue? d r.name = none ↔
      s.resolveName r.name = .unresolved) :=
    fun r hr => discriminatorValue?_eq_none_iff (isSound_iff.1 hs) hmem hu hr (hc _ _ _)
  have herror : ∀ e, (s.unionMapper role u).result = .error e → ∃ r ∈ ms,
      s.resolveName r.name = .unresolved ∧ e = .missingConstant u.name r.name d := by
    intro e he
    obtain ⟨r, hr, hvalue, rfl⟩ := (unionMapper_meets hu).error e he
    exact ⟨r, hr, (hnone r hr).1 hvalue, rfl⟩
  refine ⟨⟨?_, fun hresolved => ?_⟩, fun e he => ?_⟩
  · rintro ⟨m, hm⟩ r hr hunresolved
    obtain ⟨cases, -, hcases⟩ := (unionMapper_meets hu).ok m hm
    obtain ⟨k, -, hcase⟩ := exists_related_of_mem_left hcases hr
    simpa [(hnone r hr).2 hunresolved] using hcase.constant
  · cases hm : (s.unionMapper role u).result with
    | ok m => exact ⟨m, rfl⟩
    | error e =>
      obtain ⟨r, hr, hunresolved, -⟩ := herror e hm
      exact absurd hunresolved (hresolved r hr)
  · obtain ⟨r, hr, hunresolved, he⟩ := herror e he
    exact ⟨r, hr, hunresolved, unresolved_mem hmem hu hr hunresolved, he⟩

theorem figures_built : (figures "angular" "square").check.isSound = true ∧
    (figures "angular" "square").check.concerns = [] ∧
    ∃ m, ((figures "angular" "square").unionMapper .serverOutbound (figure "square")).result =
      .ok m := by
  have hsound : (figures "angular" "square").check.isSound = true := by decide
  have hconcerns : (figures "angular" "square").check.concerns = [] := by decide
  have hcircle : (figures "angular" "square").resolveName "circle" =
    .type (kindRecord "circle" "round") := rfl
  have hsquare : (figures "angular" "square").resolveName "square" =
    .type (kindRecord "square" "angular") := rfl
  have hbuilt := switch_built_iff _ hsound (by simp [hconcerns]) (figure "square") (by simp [figures])
    _ _ rfl .serverOutbound
  exact ⟨hsound, hconcerns, hbuilt.1.2 (by simp [hcircle, hsquare])⟩

/-- A member that is not declared passes the check and leaves the union without a mapper. -/
theorem figures_unbuilt : (figures "angular" "blob").check.defects = [] ∧
    (figures "angular" "blob").check.concerns = [.unresolved "blob" (.member "figure")] ∧
    figure "blob" ∈ (figures "angular" "blob").unions ∧
    ((figures "angular" "blob").unionMapper .serverInbound (figure "blob")).result =
      .error (.missingConstant "figure" "blob" "kind") := by
  exact ⟨by decide, by decide, by simp [figures], rfl⟩

end Service

end DtoGen
