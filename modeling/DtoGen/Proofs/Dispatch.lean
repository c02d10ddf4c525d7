import DtoGen.Proofs.MemberKinds
import DtoGen.Service.Check
import Mathlib

namespace DtoGen

namespace Service

/-- What is done with the instances of a member. -/
inductive Handled (s : Service) (union : String) (role : Role) (each : Bool) (names : List String) :
    Base → Action → Prop where
  | primitive (p : Primitive) (c : Option Literal) :
    Handled s union role each names (.primitive p c) .same
  | enum {n : String} {e : EnumDecl} (he : s.resolveName n = .enum e) :
    Handled s union role each names (.named n) .same
  | record {n : String} {t : TypeDecl} {a : Action} (ht : s.resolveName n = .type t)
    (h : s.Chosen union role each names n a) : Handled s union role each names (.named n) a

/-- What the mapper of a union gives for an instance of a member. Primitives and enums stay as they
are; a record goes to its own mapper if it has a mark among the records `names` or is the only one
without, and else it is merged with all those that have none. -/
inductive Reads (s : Service) (union : String) (role : Role) (env : Runtime) (names : List String) :
    Base → Datum → Mapped → Prop where
  | primitive (p : Primitive) (c : Option Literal) (d : Datum) :
    Reads s union role env names (.primitive p c) d (.returned d)
  | enum {n : String} {e : EnumDecl} (he : s.resolveName n = .enum e) (d : Datum) :
    Reads s union role env names (.named n) d (.returned d)
  | own {n : String} {t : TypeDecl} (ht : s.resolveName n = .type t)
    (h : n ∉ s.unmarked names ∨ s.unmarked names = [n]) (d : Datum) :
    Reads s union role env names (.named n) d (.returned (env.mapper (mapperName n role) d))
  | merged {n : String} {t : TypeDecl} {fields : List Field} (ht : s.resolveName n = .type t)
    (hn : n ∈ s.unmarked names) (hne : s.unmarked names ≠ [n])
    (hm : (s.mergeMembers union role false (s.unmarked names)).result = .ok (.merge fields))
    (d : Datum) : Reads s union role env names (.named n) d (.merged fields)

/-- The same for a member that may be an array, which is read item by item. -/
def ReadsMember (s : Service) (union : String) (role : Role) (env : Runtime) (names : List String)
    (v : Value) (d : Datum) (r : Mapped) : Prop :=
  if v.isArray then
    ∃ items outs, d = .array items ∧ r = .returned (.array outs) ∧
      List.Forall₂ (fun i o => s.Reads union role env names v.base i (.returned o)) items outs
  else s.Reads union role env names v.base d r

section Handled

variable {s : Service} {union : String} {role : Role} {names : List String} {b : Base} {a : Action}

theorem Handled.run_scalar (h : s.Handled union role false names b a) (env : Runtime) (d : Datum) :
    ∃ r, a.run env d = some r ∧ s.Reads union role env names b d r := by
  cases h with
  | primitive p c => exact ⟨_, rfl, .primitive p c d⟩
  | enum he => exact ⟨_, rfl, .enum he d⟩
  | record ht h =>
    cases h with
    | own h => exact ⟨_, rfl, .own ht h d⟩
    | merged hn hne hm => exact ⟨_, rfl, .merged ht hn hne hm d⟩

/-- Arrays are never merged, so every item goes the same way. -/
theorem Handled.run_array (h : s.Handled union role true names b a) (env : Runtime)
    (items : List Datum) :
    ∃ outs, a.run env (.array items) = some (.returned (.array outs)) ∧
      List.Forall₂ (fun i o => s.Reads union role env names b i (.returned o)) items outs := by
  cases h with
  | primitive p c => exact ⟨items, rfl, List.forall₂_same.2 fun d _ => .primitive p c d⟩
  | enum he => exact ⟨items, rfl, List.forall₂_same.2 fun d _ => .enum he d⟩
  | record ht h =>
    cases h with
    | own h =>
      refine ⟨items.map (env.mapper (mapperName _ role)), rfl, ?_⟩
      rw [List.forall₂_map_right_iff]
      exact List.forall₂_same.2 fun d _ => .own ht h d
    | merged hn hne hm =>
      obtain ⟨hfalse, -⟩ := mergeMembers_ok hm
      cases hfalse

end Handled

section Run

variable {s : Service} {union : String} {role : Role} {each : Bool} {members : List Value}
  {v d : Datum} {bs : List Branching}

/-- Without dates and values of unknown kind only the tests for primitives and records remain. -/
theorem tellableBranches_ok (htell : ∀ w ∈ members, s.Tellable w.base)
    (hbs : (s.memberBranches union role each members).result = .ok bs) :
    ∃ records,
      (s.recordBranches union role (subject each) each (s.memberKinds members).records).result =
        .ok records ∧
      bs = (if each && 1 < members.length then [.leaf (.test .isEmpty) [.empty]] else []) ++
        ((s.memberKinds members).primitiveBranches (subject each) ++ records) := by
  obtain ⟨records, hr, rfl⟩ := memberBranches_ok hbs
  refine ⟨records, hr, ?_⟩
  simp [MemberKinds.dateBranches, memberKinds_dates htell, memberKinds_passes htell]

/-- An instance of a member comes to what is done with that member. -/
theorem run_memberBranches (hrole : role.direction = .wireToInternal)
    (htell : ∀ w ∈ members, s.Tellable w.base)
    (hbs : (s.memberBranches union role each members).result = .ok bs)
    (env : Runtime) (hread : (subject each).read v = some d)
    (hfull : each = true → Test.run env v .isEmpty = some false)
    (hf : ∀ t ∈ Block.written bs, t.Faithful) {w : Value} (hw : w ∈ members)
    (hd : s.Admits w.base d) :
    ∃ a, Block.run (Test.run env v) bs = some [a] ∧
      s.Handled union role each (s.memberKinds members).records w.base a := by
  obtain ⟨records, hr, rfl⟩ := tellableBranches_ok htell hbs
  have hskip : ∀ (rest : List Branching) (a : Action), Block.run (Test.run env v) rest = some [a] →
      Block.run (Test.run env v)
        ((if each && 1 < members.length then [.leaf (.test .isEmpty) [.empty]] else []) ++ rest) =
          some [a] := by
    intro rest a hrest
    rw [Block.run_append_of_false ?_ (Block.ne_nil_of_run hrest), hrest]
    intro b hb
    split_ifs at hb with hcond
    · obtain rfl := List.mem_singleton.1 hb
      exact hfull (by simp_all)
    · simp at hb
  have htw := htell w hw
  generalize hb : w.base = b at htw hd
  cases htw with
  | kind hk =>
    rw [← hb] at hk hd
    obtain ⟨t, ht, hacc⟩ := hk.exists_test hw (subject each)
    refine ⟨.same, hskip _ _ (MemberKinds.run_primitiveBranches hread ht (hacc d hd) records), ?_⟩
    rw [hb] at hk
    cases hk with
    | primitive c _ _ _ => exact .primitive _ c
    | enum he => exact .enum he
  | record ht _ =>
    cases hd with
    | enum he _ => simp [ht] at he
    | record ht' hx =>
      have hplain : ∀ m ∈ (s.memberKinds members).records, s.IsPlainRecord m := fun _ hm =>
        isPlainRecord_of_mem_records htell hm
      have hfaithful : ∀ t ∈ Block.written records, t.Faithful := fun t ht =>
        hf t (Block.written_subset_append _ _ (Block.written_subset_append _ _ ht))
      obtain ⟨a, ha, hchosen⟩ := run_recordBranches hrole hr hread (mem_records hw hb ht') hplain
        (resolveName_eq_type.1 ht') hx hfaithful
      refine ⟨a, hskip _ a ?_, .record ht' hchosen⟩
      rw [Block.run_append_of_false ?_ (Block.ne_nil_of_run ha), ha]
      exact fun b hb => MemberKinds.primitiveBranches_object hread hb

theorem run_memberBranches_empty (htell : ∀ w ∈ members, s.Tellable w.base) (hne : members ≠ [])
    (hbs : (s.memberBranches union role true members).result = .ok bs) (env : Runtime) :
    ∃ a, Block.run (Test.run env (.array [])) bs = some [a] ∧
      a.run env (.array []) = some (.returned (.array [])) := by
  obtain ⟨records, hr, rfl⟩ := tellableBranches_ok htell hbs
  by_cases hlen : 1 < members.length
  · refine ⟨.empty, ?_, rfl⟩
    rw [if_pos (by simpa using hlen), List.singleton_append, Block.run_cons_true rfl, Block.enter]
  · -- a single member has a single branch, and its condition is not run
    obtain ⟨w, rfl⟩ : ∃ w, members = [w] := by
      rw [← List.length_eq_one_iff]
      have := List.length_pos_iff.2 hne
      omega
    rw [if_neg (by simp), List.nil_append]
    have htw := htell w (by simp)
    generalize hb : w.base = b at htw
    cases htw with
    | kind hk =>
      rw [← hb] at hk
      obtain ⟨t, ht, -⟩ := hk.exists_test (List.mem_singleton.2 rfl) (subject true)
      rw [hk.records_eq_nil] at hr
      obtain rfl : [] = records := by simpa [recordBranches] using hr
      rw [MemberKinds.primitiveBranches_eq, if_neg ?_, List.append_nil]
      · exact ⟨_, Block.run_leaf _ _, rfl⟩
      · rw [List.isEmpty_iff]
        exact List.ne_nil_of_mem ht
    | @record n t ht _ =>
      have hnames : (s.memberKinds [w]).records = [n] := by
        simp [memberKinds, hb, ht, Resolution.isMapped]
      have hprim : (s.memberKinds [w]).primitiveBranches (subject true) = [] := by
        simp [MemberKinds.primitiveBranches_eq, MemberKinds.primitiveTests, memberKinds, hb, ht]
      rw [hnames] at hr
      rw [hprim, recordBranches_single hr, List.nil_append]
      exact ⟨_, Block.run_leaf _ _, rfl⟩

theorem run_of_select {m : UnionMapper} {env : Runtime} {a : Action}
    (h : m.body.select env v = some [a]) : m.run env v = a.run env v := by
  simp [UnionMapper.run, h]

theorem Admits.isArray_eq_false {b : Base} (h : s.Admits b d) (htell : s.Tellable b) :
    d.isArray = false := by
  cases h with
  | enum _ _ => rfl
  | record _ _ => rfl
  | @primitive p _ _ hp _ =>
    rcases htell with ⟨_, hdate, hbinary, huntyped⟩
    cases p with
    | string | number | integer | long | float | double | boolean =>
      obtain ⟨_, rfl⟩ := hp
      rfl
    | null =>
      obtain rfl := hp
      rfl
    | date | dateTime => cases hdate
    | binary => exact absurd rfl hbinary
    | untyped => exact absurd rfl huntyped

end Run

section Dispatch

variable {s : Service} {role : Role} {u : UnionDecl} {members : List Value} {m : UnionMapper}
  {v : Value}

/-- Arrays come to the branches of the members that are arrays, other values to those of the others. -/
theorem select_form {each : Bool} {d : Datum} (hu : u.body = .simple members)
    (hm : (s.unionMapper role u).result = .ok m)
    (hne : peers each members ≠ []) (env : Runtime) (hd : d.isArray = each) :
    ∃ bs, (s.memberBranches u.name role each (peers each members)).result = .ok bs ∧
      Block.written bs ⊆ m.body.writtenTests ∧
      m.body.select env d = Block.run (Test.run env d) bs := by
  have hmem : members ≠ [] := by
    rintro rfl
    simp [peers] at hne
  obtain ⟨arrays, others, harrays, hothers, hbody⟩ := unionMapper_ok hu hmem hm
  rw [hbody, UnionBody.select, UnionBody.writtenTests]
  cases each with
  | true =>
    obtain ⟨bs, hbs, rfl⟩ := formBranches_ok hne harrays
    refine ⟨bs, hbs, Block.written_subset_of_nested (List.mem_append_left _ List.mem_cons_self), ?_⟩
    rw [List.singleton_append, Block.run_cons_true, Block.enter]
    simp [Block.condition, Condition.run, Test.run, hd]
  | false =>
    obtain ⟨bs, hbs, rfl⟩ := formBranches_ok hne hothers
    refine ⟨bs, hbs, Block.written_subset_of_nested (List.mem_append_right _ List.mem_cons_self), ?_⟩
    rw [Block.run_append_of_false ?_ (by simp), Block.run, Block.enter]
    intro b hb
    by_cases harr : peers true members = []
    · rw [harr] at harrays
      simp [formBranches_nil harrays] at hb
    · obtain ⟨inner, -, rfl⟩ := formBranches_ok harr harrays
      obtain rfl := List.mem_singleton.1 hb
      simp [Block.condition, Condition.run, Test.run, hd]

theorem run_items (hrole : role.direction = .wireToInternal) (hu : u.body = .simple members)
    (htell : ∀ w ∈ peers true members, s.Tellable w.base)
    (hm : (s.unionMapper role u).result = .ok m)
    (hf : ∀ t ∈ m.body.writtenTests, t.Faithful) (env : Runtime) (hv : v ∈ peers true members)
    {items : List Datum} (hitems : ∀ i ∈ items, s.Admits v.base i) :
    ∃ outs, m.run env (.array items) = some (.returned (.array outs)) ∧
      List.Forall₂ (fun i o => s.Reads u.name role env (s.memberKinds (peers true members)).records
        v.base i (.returned o)) items outs := by
  have hne : peers true members ≠ [] := List.ne_nil_of_mem hv
  obtain ⟨bs, hbs, hwritten, hsel⟩ := select_form (d := .array items) hu hm hne env rfl
  cases items with
  | nil =>
    obtain ⟨a, ha, hrun⟩ := run_memberBranches_empty htell hne hbs env
    exact ⟨[], (run_of_select (hsel.trans ha)).trans hrun, .nil⟩
  | cons i items =>
    -- the first item decides for all of them
    have hread : (subject true).read (.array (i :: items)) = some i := rfl
    obtain ⟨a, ha, hhandled⟩ := run_memberBranches hrole htell hbs env hread (fun _ => rfl)
      (fun t ht => hf t (hwritten ht)) hv (hitems i (by simp))
    obtain ⟨outs, houts, hreads⟩ := hhandled.run_array env (i :: items)
    exact ⟨outs, (run_of_select (hsel.trans ha)).trans houts, hreads⟩

theorem run_scalar (hrole : role.direction = .wireToInternal) (hu : u.body = .simple members)
    (htell : ∀ w ∈ peers false members, s.Tellable w.base)
    (hm : (s.unionMapper role u).result = .ok m)
    (hf : ∀ t ∈ m.body.writtenTests, t.Faithful) (env : Runtime) (hv : v ∈ peers false members)
    {d : Datum} (hd : s.Admits v.base d) :
    ∃ r, m.run env d = some r ∧
      s.Reads u.name role env (s.memberKinds (peers false members)).records v.base d r := by
  have hform : d.isArray = false := hd.isArray_eq_false (htell v hv)
  obtain ⟨bs, hbs, hwritten, hsel⟩ := select_form hu hm (List.ne_nil_of_mem hv) env hform
  have hread : (subject false).read d = some d := rfl
  obtain ⟨a, ha, hhandled⟩ := run_memberBranches hrole htell hbs env hread (by simp)
    (fun t ht => hf t (hwritten ht)) hv hd
  obtain ⟨r, hr, hreads⟩ := hhandled.run_scalar env d
  exact ⟨r, (run_of_select (hsel.trans ha)).trans hr, hreads⟩

end Dispatch

/-- A mapper that reads a simple union off the wire, and whose tests are read back as they are, gives
for every instance of a member what that member calls for, and leaves an empty array empty. -/
theorem simple_union_dispatch (s : Service) (role : Role) (hrole : role.direction = .wireToInternal)
    (u : UnionDecl) (members : List Value) (hu : u.body = .simple members)
    (hmembers : ∀ v ∈ members, s.TellableMember v) (m : UnionMapper)
    (hm : (s.unionMapper role u).result = .ok m) (hf : ∀ t ∈ m.body.writtenTests, t.Faithful)
    (env : Runtime) (v : Value) (hv : v ∈ members) :
    (∀ d, s.Carries v d → ∃ r, m.run env d = some r ∧
      s.ReadsMember u.name role env (s.memberKinds (peers v.isArray members)).records v d r) ∧
      (v.isArray = true → m.run env (.array []) = some (.returned (.array []))) := by
  have htell : ∀ each, ∀ w ∈ peers each members, s.Tellable w.base := fun _ w hw =>
    (hmembers w (mem_peers.1 hw).1).base
  refine ⟨fun d hd => ?_, fun harr => ?_⟩
  · have hd : if v.isArray then ∃ items, d = .array items ∧ ∀ i ∈ items, s.Admits v.base i
        else s.Admits v.base d := by
      simpa [Carries, (hmembers v hv).required, (hmembers v hv).notNull] using hd
    unfold ReadsMember
    cases harr : v.isArray with
    | true =>
      rw [harr] at hd
      obtain ⟨items, rfl, hitems⟩ := hd
      obtain ⟨outs, hrun, hreads⟩ := run_items hrole hu (htell true) hm hf env
        (mem_peers.2 ⟨hv, harr⟩) hitems
      exact ⟨_, hrun, items, outs, rfl, rfl, hreads⟩
    | false =>
      rw [harr] at hd
      exact run_scalar hrole hu (htell false) hm hf env (mem_peers.2 ⟨hv, harr⟩) hd
  · obtain ⟨outs, hrun, hreads⟩ := run_items hrole hu (htell true) hm hf env
      (mem_peers.2 ⟨hv, harr⟩) (List.forall_mem_nil _)
    obtain rfl := List.forall₂_nil_left_iff.1 hreads
    exact hrun

/-- A number, text from an enum, or one of two records, some of them also in arrays. -/
def pet : UnionDecl where
  name := "pet"
  body := .simple
    [{ base := .primitive .integer none }, { base := .named "tone" }, { base := .named "cat" },
     { base := .named "dog" }, { base := .named "cat", isArray := true },
     { base := .named "tone", isArray := true }]

def voiced (name key : String) : TypeDecl where
  name := name
  properties := [{ name := key, value := { base := .named "tone" } }]

def pets : Service where
  title := "pets"
  types := [voiced "cat" "meow", voiced "dog" "bark"]
  enums := [{ name := "tone", members := [{ content := "loud" }] }]
  unions := [pet]

theorem pets_tellable : ∀ v ∈ pet.members, pets.TellableMember v := by
  have hplain : ∀ name key, (voiced name key).PlainConstants := by
    simp [TypeDecl.PlainConstants, voiced, Value.constant?]
  have hnumber : pets.Tellable (.primitive .integer none) :=
    .kind (.primitive _ rfl (by simp) (by simp))
  have htone : pets.Tellable (.named "tone") := .kind (.enum rfl)
  have hcat : pets.Tellable (.named "cat") := .record rfl (hplain "cat" "meow")
  have hdog : pets.Tellable (.named "dog") := .record rfl (hplain "dog" "bark")
  simp only [pet, UnionDecl.members, List.forall_mem_cons]
  exact ⟨⟨rfl, rfl, hnumber⟩, ⟨rfl, rfl, htone⟩, ⟨rfl, rfl, hcat⟩, ⟨rfl, rfl, hdog⟩,
    ⟨rfl, rfl, hcat⟩, ⟨rfl, rfl, htone⟩, List.forall_mem_nil _⟩

theorem voiced_instance (name key text : String) :
    (voiced name key).Instance [(key, .string text)] := by
  have hun : (voiced name key).Unrepeated := by simp [TypeDecl.Unrepeated, voiced]
  exact TypeDecl.instance_of_choice hun (fun _ => .string text) (by simp [voiced, Value.constant?])

theorem pets_dispatch : ∃ m, (pets.unionMapper .serverInbound pet).result = .ok m ∧
    (∀ t ∈ m.body.writtenTests, t.Faithful) ∧
    ∀ env : Runtime,
      (∃ r, m.run env (.object [("meow", .string "loud")]) = some r ∧
        pets.ReadsMember "pet" .serverInbound env ["cat", "dog"] { base := .named "cat" }
          (.object [("meow", .string "loud")]) r) ∧
      (∃ r, m.run env (.array [.string "loud"]) = some r ∧
        pets.ReadsMember "pet" .serverInbound env ["cat"] { base := .named "tone", isArray := true }
          (.array [.string "loud"]) r) ∧
      m.run env (.array []) = some (.returned (.array [])) := by
  have htests : (pets.unionMapper .serverInbound pet).result.map (·.body.writtenTests) =
      .ok [.isArray, .isEmpty, .hasKind .first .string, .hasKind .whole .string,
        .hasKind .whole .number, .hasMember .whole "meow"] := by cbv
  obtain ⟨m, hm⟩ := Journal.exists_result (x := pets.unionMapper .serverInbound pet) (by cbv)
  have hf : ∀ t ∈ m.body.writtenTests, t.Faithful := by
    rw [hm] at htests
    have hlist : m.body.writtenTests = _ := Except.ok.inj htests
    rw [hlist]
    simp [Test.Faithful]
  refine ⟨m, hm, hf, fun env => ?_⟩
  have hread := simple_union_dispatch pets .serverInbound rfl pet _ rfl pets_tellable m hm hf env
  have hcat := hread { base := .named "cat" } (by simp)
  have htone := hread { base := .named "tone", isArray := true } (by simp)
  refine ⟨hcat.1 _ ?_, htone.1 _ ?_, htone.2 rfl⟩
  · exact Or.inr (Or.inr (.record rfl (voiced_instance "cat" "meow" "loud")))
  · refine Or.inr (Or.inr ⟨_, rfl, ?_⟩)
    rw [List.forall_mem_singleton]
    exact .enum (m := { content := "loud" }) rfl (List.mem_singleton.2 rfl)

/-- A record whose only key ends in a line feed and holds the name of the record. -/
def ruled (name : String) : TypeDecl where
  name := name
  properties := [{ name := "kind\n", value := { base := .primitive .string (some (.string name)) } }]

def ruledEither : UnionDecl where
  name := "either"
  body := .simple [{ base := .named "a" }, { base := .named "b" }]

def ruledPair : Service where
  title := "ruled"
  types := [ruled "a", ruled "b"]
  unions := [ruledEither]

def ruledMark (name : String) : Branching :=
  .leaf ((Mark.constant "kind\n" (.string name)).condition .wire .whole)
    [call .serverInbound false name]

/-- Neither key is there without its line feed, and the last branch is taken. -/
theorem ruled_select (env : Runtime) (name : String) :
    (UnionBody.chain [.nested (.test .isNoArray) [ruledMark "a", ruledMark "b"]]).select env
      (.object [("kind\n", .string name)]) = some [call .serverInbound false "b"] := by
  have hkey : Naming.denoted? "kind\n" = some "kind" := by decide
  have hhas : Test.run env (.object [("kind\n", .string name)]) (.hasMember .whole "kind\n") =
      some true := by
    simp [Test.run, Subject.read, Datum.members?, Naming.keyName?_quote, Members.has]
  have hread : Members.read [("kind\n", .string name)] "kind" = .undefined := by
    simp [Members.read, List.lookup_cons]
  have his : Test.run env (.object [("kind\n", .string name)])
      (.memberIs .whole "kind\n" (.string "a")) = some false := by
    simp [Test.run, Subject.read, Datum.members?, Naming.accessName?_accessor, hkey, hread,
      Literal.denoted?, Literal.text, Naming.keyName?_quote, Datum.strictEq]
  have hcond : (ruledMark "a").condition.run (Test.run env (.object [("kind\n", .string name)])) =
      some false := by
    simp [ruledMark, Block.condition, Mark.condition, Facet.memberName, Condition.run,
      Condition.runClauses, hhas, his, Connective.neutral]
  rw [UnionBody.select, Block.run, Block.enter, Block.run_cons_false hcond (by simp)]
  exact Block.run_leaf _ _

/-- The key is read without its line feed, so an instance of the first record goes to the mapper of the
second one. -/
theorem ruledPair_confused : ruledPair.check.defects = [] ∧
    (∀ v ∈ ruledEither.members, ruledPair.TellableMember v) ∧
    ruledPair.Carries { base := .named "a" } (.object [("kind\n", .string "a")]) ∧
    "a" ∉ ruledPair.unmarked ["a", "b"] ∧
    ∃ m, (ruledPair.unionMapper .serverInbound ruledEither).result = .ok m ∧
      (∀ env, m.run env (.object [("kind\n", .string "a")]) = some (.returned
        (env.mapper (mapperName "b" .serverInbound) (.object [("kind\n", .string "a")])))) ∧
      ∃ env, ¬ ∃ r, m.run env (.object [("kind\n", .string "a")]) = some r ∧
        ruledPair.ReadsMember "either" .serverInbound env ["a", "b"] { base := .named "a" }
          (.object [("kind\n", .string "a")]) r := by
  have hplain : ∀ name, (ruled name).PlainConstants := by
    simp [TypeDecl.PlainConstants, ruled, Value.constant?, Literal.isNan]
  have hinstance : (ruled "a").Instance [("kind\n", .string "a")] := by
    refine TypeDecl.instance_of_choice (by simp [TypeDecl.Unrepeated, ruled]) (fun _ => .string "a") ?_
    simp [ruled, Value.constant?, Value.Holds, Literal.datum]
  have hunmarked : ruledPair.unmarked ["a", "b"] = [] := by cbv
  have hbody : (ruledPair.unionMapper .serverInbound ruledEither).result.map (·.body) =
      .ok (.chain [.nested (.test .isNoArray) [ruledMark "a", ruledMark "b"]]) := by cbv
  obtain ⟨m, hm⟩ := Journal.exists_result
    (x := ruledPair.unionMapper .serverInbound ruledEither) (by cbv)
  rw [hm] at hbody
  have hrun : ∀ env, m.run env (.object [("kind\n", .string "a")]) = some (.returned
      (env.mapper (mapperName "b" .serverInbound) (.object [("kind\n", .string "a")]))) := by
    intro env
    have hbody : m.body = _ := Except.ok.inj hbody
    rw [run_of_select (hbody ▸ ruled_select env "a")]
    rfl
  refine ⟨by decide, ?_, Or.inr (Or.inr (.record rfl hinstance)), by simp [hunmarked], m, hm, hrun,
    ⟨fun n _ => .string n, id, fun _ => id, fun _ _ => false⟩, ?_⟩
  · simp only [ruledEither, UnionDecl.members, List.forall_mem_cons]
    exact ⟨⟨rfl, rfl, .record rfl (hplain "a")⟩, ⟨rfl, rfl, .record rfl (hplain "b")⟩,
      List.forall_mem_nil _⟩
  · rintro ⟨r, hr, hreads⟩
    rw [hrun] at hr
    obtain rfl := Option.some.inj hr
    -- its own mapper was called for
    cases hreads

end Service

end DtoGen
