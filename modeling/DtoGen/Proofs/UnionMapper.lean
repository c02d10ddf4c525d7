import DtoGen.Mapping.Union
import Mathlib.Tactic.Common

namespace DtoGen

namespace Journal

variable {ε α β : Type}

@[simp] theorem result_record (a : α) (ms : List Mention) :
    (record a ms : Journal ε α).result = .ok a := rfl

@[simp] theorem result_note (ms : List Mention) : (note ms : Journal ε Unit).result = .ok () := rfl

@[simp] theorem result_fail (e : ε) : (fail e : Journal ε α).result = .error e := rfl

theorem bind_of_ok {x : Journal ε α} {a : α} (h : x.result = .ok a) (f : α → Journal ε β) :
    x.bind f = ⟨x.mentions ++ (f a).mentions, (f a).result⟩ := by
  rw [Journal.bind, h]

theorem bind_of_error {x : Journal ε α} {e : ε} (h : x.result = .error e) (f : α → Journal ε β) :
    x.bind f = ⟨x.mentions, .error e⟩ := by
  rw [Journal.bind, h]

theorem bind_result_ok {x : Journal ε α} {f : α → Journal ε β} {b : β} :
    (x >>= f).result = .ok b ↔ ∃ a, x.result = .ok a ∧ (f a).result = .ok b := by
  change (Journal.bind x f).result = .ok b ↔ _
  unfold Journal.bind
  cases x.result <;> simp

theorem exists_result {x : Journal ε α} (h : x.result.isOk = true) : ∃ a, x.result = .ok a := by
  cases hr : x.result with
  | ok a => exact ⟨a, rfl⟩
  | error e =>
    rw [hr] at h
    cases h

end Journal

namespace Service

open Journal

def call (role : Role) (each : Bool) (member : String) : Action :=
  .convert ⟨.mapper (mapperName member role), each⟩

@[simp] theorem delegate_result (role : Role) (each : Bool) (member : String) :
    (delegate role each member).result = .ok (call role each member) := rfl

/-- The members without a mark among all the others; `before` holds those already seen. -/
def unmarkedFrom (s : Service) (before : List String) : List String → List String
  | [] => []
  | m :: rest =>
    match s.firstMark (before ++ rest) m with
    | none => m :: s.unmarkedFrom (before ++ [m]) rest
    | some _ => s.unmarkedFrom (before ++ [m]) rest

def markedFrom (s : Service) (role : Role) (x : Subject) (each : Bool) (before : List String) :
    List String → List Branching
  | [] => []
  | m :: rest =>
    match s.firstMark (before ++ rest) m with
    | none => s.markedFrom role x each (before ++ [m]) rest
    | some mark =>
      .leaf (mark.condition role.source x) [call role each m] ::
        s.markedFrom role x each (before ++ [m]) rest

theorem markMembers_result (s : Service) (role : Role) (x : Subject) (each : Bool)
    (before names : List String) :
    (s.markMembers role x each before names).result =
      .ok ⟨s.markedFrom role x each before names, s.unmarkedFrom before names⟩ := by
  induction names generalizing before with
  | nil => rfl
  | cons m rest ih =>
    rw [markMembers, bind_result_ok]
    refine ⟨(), rfl, ?_⟩
    unfold markedFrom unmarkedFrom
    cases s.firstMark (before ++ rest) m with
    | none => exact bind_result_ok.2 ⟨_, ih _, rfl⟩
    | some mark =>
      refine bind_result_ok.2 ⟨(), rfl, ?_⟩
      exact bind_result_ok.2 ⟨_, rfl, bind_result_ok.2 ⟨_, ih _, rfl⟩⟩

/-- The members of a union that have no mark among the others. -/
def unmarked (s : Service) (names : List String) : List String := s.unmarkedFrom [] names

/-- What is left for the members without a mark: nothing, the call of a single one, or one merged
object. -/
inductive Rest (s : Service) (union : String) (role : Role) (x : Subject) (each : Bool) :
    List String → List Branching → Prop where
  | none : Rest s union role x each [] []
  | single (m : String) : Rest s union role x each [m] [.leaf (isObject x) [call role each m]]
  | merged {us : List String} {fields : List Field} (hlen : 2 ≤ us.length)
    (hm : (s.mergeMembers union role each us).result = .ok (.merge fields)) :
    Rest s union role x each us [.leaf (isObject x) [.merge fields]]

theorem mergeMembers_ok {s : Service} {union : String} {role : Role} {each : Bool}
    {us : List String} {a : Action} (h : (s.mergeMembers union role each us).result = .ok a) :
    each = false ∧ ∃ fields, a = .merge fields := by
  unfold mergeMembers at h
  simp only at h
  split_ifs at h with hc
  · simp at h
  · obtain ⟨fields, -, ha⟩ := bind_result_ok.1 h
    refine ⟨by simp_all, fields, ?_⟩
    simpa using ha.symm

/-- The branches of several records: those with a mark in order, then the rest. -/
theorem recordBranches_ok {s : Service} {union : String} {role : Role} {x : Subject} {each : Bool}
    {names : List String} {bs : List Branching} (hlen : 2 ≤ names.length)
    (h : (s.recordBranches union role x each names).result = .ok bs) :
    ∃ rest, Rest s union role x each (s.unmarked names) rest ∧
      bs = s.markedFrom role x each [] names ++ rest := by
  obtain _ | ⟨m, _ | ⟨n, ns⟩⟩ := names
  · simp at hlen
  · simp at hlen
  simp only [recordBranches] at h
  obtain ⟨r, hr, h⟩ := bind_result_ok.1 h
  rw [markMembers_result] at hr
  have hunmarked : r.unmarked = s.unmarked (m :: n :: ns) :=
    (congrArg Marked.unmarked (Except.ok.inj hr)).symm
  have hbranches : r.branches = s.markedFrom role x each [] (m :: n :: ns) :=
    (congrArg Marked.branches (Except.ok.inj hr)).symm
  rw [hunmarked, hbranches] at h
  generalize s.unmarked (m :: n :: ns) = us at h ⊢
  obtain _ | ⟨k, _ | ⟨l, us⟩⟩ := us
  · exact ⟨[], .none, by simpa using h.symm⟩
  · obtain ⟨a, ha, h⟩ := bind_result_ok.1 h
    obtain rfl : call role each k = a := by simpa using ha
    exact ⟨_, .single k, by simpa using h.symm⟩
  · obtain ⟨a, ha, h⟩ := bind_result_ok.1 h
    obtain ⟨-, fields, rfl⟩ := mergeMembers_ok ha
    exact ⟨_, .merged (by simp) ha, by simpa using h.symm⟩

theorem recordBranches_single {s : Service} {union : String} {role : Role} {x : Subject}
    {each : Bool} {m : String} {bs : List Branching}
    (h : (s.recordBranches union role x each [m]).result = .ok bs) :
    bs = [.leaf (isObject x) [call role each m]] := by
  obtain ⟨a, ha, h⟩ := bind_result_ok.1 h
  obtain rfl : call role each m = a := by simpa using ha
  simpa using h.symm

def subject (each : Bool) : Subject := if each then .first else .whole

theorem memberBranches_ok {s : Service} {union : String} {role : Role} {each : Bool}
    {members : List Value} {bs : List Branching}
    (h : (s.memberBranches union role each members).result = .ok bs) :
    ∃ records,
      (s.recordBranches union role (subject each) each (s.memberKinds members).records).result =
        .ok records ∧
      bs = (if each && 1 < members.length then [.leaf (.test .isEmpty) [.empty]] else []) ++
        (s.memberKinds members).dateBranches role.direction (subject each) each ++
        (s.memberKinds members).primitiveBranches (subject each) ++ records ++
        (if (s.memberKinds members).passes then [.leaf (.test .always) [.same]] else []) := by
  obtain ⟨-, -, h⟩ := bind_result_ok.1 h
  obtain ⟨records, hr, h⟩ := bind_result_ok.1 h
  exact ⟨records, hr, (Except.ok.inj h).symm⟩

theorem formBranches_ok {s : Service} {union : String} {role : Role} {each : Bool}
    {members : List Value} {bs : List Branching} (hne : members ≠ [])
    (h : (s.formBranches union role each members).result = .ok bs) :
    ∃ inner, (s.memberBranches union role each members).result = .ok inner ∧
      bs = [.nested (.test (if each then .isArray else .isNoArray)) inner] := by
  rw [formBranches, if_neg (by simpa using hne)] at h
  obtain ⟨inner, hi, h⟩ := bind_result_ok.1 h
  exact ⟨inner, hi, (Except.ok.inj h).symm⟩

theorem formBranches_nil {s : Service} {union : String} {role : Role} {each : Bool}
    {bs : List Branching} (h : (s.formBranches union role each []).result = .ok bs) : bs = [] := by
  simpa [formBranches] using h.symm

/-- The members of one form: those that are arrays, or those that are not. -/
def peers (each : Bool) (members : List Value) : List Value := members.filter (·.isArray == each)

theorem mem_peers {each : Bool} {members : List Value} {v : Value} :
    v ∈ peers each members ↔ v ∈ members ∧ v.isArray = each := by
  simp [peers]

/-- The body of a simple union: the branches of its arrays and of its other members. -/
theorem unionMapper_ok {s : Service} {role : Role} {u : UnionDecl} {members : List Value}
    {m : UnionMapper} (hu : u.body = .simple members) (hne : members ≠ [])
    (h : (s.unionMapper role u).result = .ok m) :
    ∃ arrays others,
      (s.formBranches u.name role true (peers true members)).result = .ok arrays ∧
      (s.formBranches u.name role false (peers false members)).result = .ok others ∧
      m.body = .chain (arrays ++ others) := by
  have harrays : peers true members = members.filter (·.isArray) := by simp [peers]
  have hothers : peers false members = members.filter fun v => !v.isArray := by simp [peers]
  unfold unionMapper at h
  rw [hu] at h
  obtain ⟨-, -, h⟩ := bind_result_ok.1 h
  obtain ⟨body, hb, h⟩ := bind_result_ok.1 h
  obtain ⟨arrays, ha, hb⟩ := bind_result_ok.1 hb
  obtain ⟨others, ho, hb⟩ := bind_result_ok.1 hb
  rw [if_neg (by simpa using hne)] at hb
  obtain rfl := Except.ok.inj hb
  rw [harrays, hothers]
  exact ⟨arrays, others, ha, ho, (congrArg UnionMapper.body (Except.ok.inj h)).symm⟩

/-- The branches of the members of one form stand in the body. -/
theorem nested_mem_of_peers {s : Service} {role : Role} {u : UnionDecl} {members : List Value}
    {m : UnionMapper} (hu : u.body = .simple members) (h : (s.unionMapper role u).result = .ok m)
    {each : Bool} (hne : peers each members ≠ []) :
    ∃ blocks inner, m.body = .chain blocks ∧
      .nested (.test (if each then .isArray else .isNoArray)) inner ∈ blocks ∧
      (s.memberBranches u.name role each (peers each members)).result = .ok inner := by
  have hmem : members ≠ [] := by
    rintro rfl
    simp [peers] at hne
  obtain ⟨arrays, others, harrays, hothers, hbody⟩ := unionMapper_ok hu hmem h
  cases each with
  | true =>
    obtain ⟨inner, hi, rfl⟩ := formBranches_ok hne harrays
    exact ⟨_, inner, hbody, by simp, hi⟩
  | false =>
    obtain ⟨inner, hi, rfl⟩ := formBranches_ok hne hothers
    exact ⟨_, inner, hbody, by simp, hi⟩

end Service

end DtoGen
