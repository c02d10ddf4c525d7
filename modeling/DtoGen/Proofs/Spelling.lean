import DtoGen.Proofs.Collection
import DtoGen.Proofs.Execution
import DtoGen.Proofs.UnionMapper
import DtoGen.Service.Check
import Mathlib

namespace DtoGen

namespace Service

/-- Every member with a mark has its branch, whatever stands before it. -/
theorem mem_markedFrom {s : Service} {role : Role} {x : Subject} {each : Bool} {n : String}
    {after : List String} {mark : Mark} (seen before : List String)
    (h : s.firstMark (seen ++ before ++ after) n = some mark) :
    .leaf (mark.condition role.source x) [call role each n] ∈
      s.markedFrom role x each seen (before ++ n :: after) := by
  induction before generalizing seen with
  | nil =>
    rw [List.append_nil] at h
    simp [markedFrom, h]
  | cons m before ih =>
    have hrest := ih (seen ++ [m]) (by simpa using h)
    rw [List.cons_append]
    unfold markedFrom
    split
    · exact hrest
    · exact List.mem_cons_of_mem _ hrest

/-- The branch of a member with a mark stands in the chain of the union. -/
theorem exists_branch {s : Service} {role : Role} {u : UnionDecl} {members : List Value}
    {m : UnionMapper} (hu : u.body = .simple members)
    (hm : (s.unionMapper role u).result = .ok m) {each : Bool} {before after : List String}
    {n : String} (hnames : (s.memberKinds (peers each members)).records = before ++ n :: after)
    (hothers : before ++ after ≠ []) {mark : Mark}
    (hmark : s.firstMark (before ++ after) n = some mark) :
    ∃ blocks c inner, m.body = .chain blocks ∧ .nested c inner ∈ blocks ∧
      .leaf (mark.condition role.source (subject each)) [call role each n] ∈ inner := by
  have hne : peers each members ≠ [] := by
    intro hnil
    simp [hnil, memberKinds] at hnames
  have hlen : 2 ≤ (before ++ n :: after).length := by
    have := List.length_pos_iff.2 hothers
    simp only [List.length_append, List.length_cons] at this ⊢
    omega
  obtain ⟨blocks, inner, hbody, hmem, hinner⟩ := nested_mem_of_peers hu hm hne
  refine ⟨blocks, _, inner, hbody, hmem, ?_⟩
  obtain ⟨records, hrecords, rfl⟩ := memberBranches_ok hinner
  rw [hnames] at hrecords
  obtain ⟨rest, -, rfl⟩ := recordBranches_ok hlen hrecords
  have hleaf : .leaf (mark.condition role.source (subject each)) [call role each n] ∈
      s.markedFrom role (subject each) each [] (before ++ n :: after) :=
    mem_markedFrom [] before hmark
  simp [hleaf]

theorem exists_read (each : Bool) (x : Members) : ∃ v, (subject each).read v = some (.object x) := by
  cases each with
  | true => exact ⟨.array [.object x], rfl⟩
  | false => exact ⟨.object x, rfl⟩

/-- Whether the spelling of a name inside a program can be written as a key that is looked for. -/
def isWritable (name : String) : Bool := '\r' ∉ (Naming.propertyName name).toList

/-- Where a mapper writes the wire, a mark by presence has its branch. The test there succeeds on every
instance of the member just if all its names can be written. It fails on all instances of another
record just if, before any that cannot be written, it looks for a name whose spelling no property of
that record shares. -/
theorem presence_branch_decides_iff (s : Service) (role : Role)
    (hrole : role.direction = .internalToWire) (u : UnionDecl) (members : List Value)
    (hu : u.body = .simple members) (m : UnionMapper) (hm : (s.unionMapper role u).result = .ok m)
    (each : Bool) (before after : List String) (n : String)
    (hnames : (s.memberKinds (peers each members)).records = before ++ n :: after)
    (hothers : before ++ after ≠ []) (mark : Mark)
    (hmark : s.firstMark (before ++ after) n = some mark) (names : List String)
    (hp : mark.presence? = some names) (env : Runtime) :
    (∃ blocks c inner, m.body = .chain blocks ∧ .nested c inner ∈ blocks ∧
      .leaf (mark.condition role.source (subject each)) [call role each n] ∈ inner) ∧
    (∃ t, s.type? n = some t ∧ ((∀ x, t.Shaped .internal x →
      ∀ v, (subject each).read v = some (.object x) →
        (mark.condition role.source (subject each)).run (Test.run env v) = some true) ↔
          ∀ k ∈ names, isWritable k = true)) ∧
    ∀ o ∈ s.collectRecords (before ++ after), o.mapClause = none →
      ((∀ x, o.Shaped .internal x → ∀ v, (subject each).read v = some (.object x) →
          (mark.condition role.source (subject each)).run (Test.run env v) = some false) ↔
        ∃ k ∈ names.takeWhile isWritable,
          ∀ p ∈ o.properties, Naming.propertyName p.name ≠ Naming.propertyName k) := by
  have hsource : role.source = .internal := congrArg Direction.source hrole
  have hmem := List.mem_of_mem_head? hmark
  have hall : ∀ v, (mark.condition role.source (subject each)).run (Test.run env v) =
      Condition.run (Test.run env v)
        (.join .all (names.map fun k => .test (.hasMember (subject each) (Naming.propertyName k)))) := by
    intro v
    rw [Mark.condition_run_of_presence hp, hsource]
    rfl
  have htest : ∀ (x : Members) v, (subject each).read v = some (.object x) → ∀ k ∈ names,
      Test.run env v (.hasMember (subject each) (Naming.propertyName k)) =
        if isWritable k then some (x.has (Naming.propertyName k)) else none := by
    intro x v hv k _
    simp [Test.run_hasMember hv, isWritable]
  obtain ⟨t, ht⟩ : ∃ t, s.type? n = some t := by
    cases ht : s.type? n with
    | some t => exact ⟨t, rfl⟩
    | none => simp [Discrimination.marks, ht] at hmem
  obtain ⟨hreq, -⟩ := Discrimination.presence_mark ht hmem hp
  refine ⟨exists_branch hu hm hnames hothers hmark, ⟨t, ht, fun h k hk => ?_, fun h x hx v hv => ?_⟩,
    fun o ho hc => ?_⟩
  · obtain ⟨v, hv⟩ := exists_read each (.ofKeys (t.properties.map fun p => Naming.propertyName p.name))
    have hshaped : t.Shaped .internal _ := TypeDecl.shaped_ofKeys [] fun _ => rfl
    rw [List.append_nil] at hshaped
    have htrue := h _ hshaped v hv
    rw [hall, Condition.run_all_eq_true_iff (htest _ v hv)] at htrue
    exact (htrue k hk).1
  · rw [hall, Condition.run_all_eq_true_iff (htest x v hv)]
    exact fun k hk => ⟨h k hk, hx.required k (hreq k hk)⟩
  · refine Iff.trans ?_ (TypeDecl.forall_shaped_missing_iff (f := .internal) hc)
    -- the same is said of each instance, once by the test and once by its keys
    refine forall₂_congr fun x _ => ?_
    constructor
    · intro h
      obtain ⟨v, hv⟩ := exists_read each x
      exact (Condition.run_all_eq_false_iff (htest x v hv)).1 (hall v ▸ h v hv)
    · intro h v hv
      rw [hall, Condition.run_all_eq_false_iff (htest x v hv)]
      exact h

def textRecord (name : String) (keys : List String) : TypeDecl where
  name := name
  properties := keys.map fun k => { name := k, value := { base := .primitive .string none } }

def either : UnionDecl where
  name := "either"
  body := .simple [{ base := .named "page" }, { base := .named "view" }]

def spelled (key : String) : Service where
  title := "spelled"
  types := [textRecord "page" ["page_size", "cursor"], textRecord "view" [key, "zoom"]]
  unions := [either]

theorem spelled_names (key : String) :
    ((spelled key).memberKinds (peers false either.members)).records = [] ++ "page" :: ["view"] := rfl

theorem spelled_branch_decides :
    ∃ m, ((spelled "width").unionMapper .serverOutbound either).result = .ok m ∧
      ∃ o ∈ (spelled "width").collectRecords ["view"], o.mapClause = none ∧
        ∀ env x, o.Shaped .internal x → ∀ v, Subject.whole.read v = some (.object x) →
          ((Mark.property "page_size").condition .internal .whole).run (Test.run env v) =
            some false := by
  have hok : ((spelled "width").unionMapper .serverOutbound either).result.isOk = true := by cbv
  have hmark : (spelled "width").firstMark ["view"] "page" = some (.property "page_size") := by cbv
  obtain ⟨m, hm⟩ := Journal.exists_result hok
  have ho : textRecord "view" ["width", "zoom"] ∈ (spelled "width").collectRecords ["view"] :=
    mem_collectRecords (List.mem_singleton.2 rfl) rfl
  refine ⟨m, hm, _, ho, rfl, fun env => ?_⟩
  have hdecides := presence_branch_decides_iff (spelled "width") .serverOutbound rfl either _ rfl m hm
    false [] ["view"] "page" (spelled_names _) (by simp) _ hmark _ rfl env
  exact (hdecides.2.2 _ ho rfl).2 ⟨"page_size", by decide, by decide⟩

/-- The test for a name of the first record succeeds on instances of the second one. -/
theorem spelled_mark_confused : (spelled "pageSize").check.defects = [] ∧
    (∃ m blocks c inner, ((spelled "pageSize").unionMapper .serverOutbound either).result = .ok m ∧
      m.body = .chain blocks ∧ .nested c inner ∈ blocks ∧
      .leaf ((Mark.property "page_size").condition .internal .whole)
        [call .serverOutbound false "page"] ∈ inner) ∧
    ∃ o ∈ (spelled "pageSize").collectRecords ["view"], o.mapClause = none ∧
      ∃ x, o.Shaped .internal x ∧ ∀ env,
        ((Mark.property "page_size").condition .internal .whole).run (Test.run env (.object x)) =
          some true := by
  have hok : ((spelled "pageSize").unionMapper .serverOutbound either).result.isOk = true := by cbv
  have hmark : (spelled "pageSize").firstMark ["view"] "page" = some (.property "page_size") := by
    cbv
  obtain ⟨m, hm⟩ := Journal.exists_result hok
  obtain ⟨blocks, c, inner, hbranch⟩ := exists_branch rfl hm (spelled_names _) (by simp) hmark
  refine ⟨by decide, ⟨m, blocks, c, inner, hm, hbranch⟩, ?_⟩
  refine ⟨textRecord "view" ["pageSize", "zoom"], mem_collectRecords (List.mem_singleton.2 rfl) rfl, rfl, _,
    TypeDecl.shaped_ofKeys [] fun _ => rfl, fun env => ?_⟩
  rw [Mark.condition, Condition.run, Test.run_hasMember rfl]
  decide

end Service

end DtoGen
