import DtoGen.Proofs.Lookups

namespace DtoGen

namespace Service

/-- The names that some members lead to. A name leads on to the members of a union of that name, unless
there is a record of that name. -/
inductive Nested (s : Service) (members : List String) : String → Prop where
  | member {n : String} (hn : n ∈ members) : Nested s members n
  | inside {m n : String} {u : UnionDecl} {v : Value} (hm : Nested s members m)
    (ht : s.type? m = none) (hu : s.union? m = some u) (hv : v ∈ u.members) (hn : v.name? = some n) :
    Nested s members n

/-- The recursive traversal of some names, from left to right and each one into its depth. It starts with
names that count as seen, and has met records and seen more names when it is done. -/
inductive Traversal (s : Service) :
    List String → List String → List TypeDecl → List String → Prop where
  | done {seen : List String} : Traversal s seen [] [] seen
  | again {seen seen' ns : List String} {n : String} {rs : List TypeDecl} (hn : n ∈ seen)
    (hrest : Traversal s seen ns rs seen') : Traversal s seen (n :: ns) rs seen'
  | record {seen seen' ns : List String} {n : String} {t : TypeDecl} {rs : List TypeDecl}
    (hn : n ∉ seen) (ht : s.type? n = some t) (hrest : Traversal s (n :: seen) ns rs seen') :
    Traversal s seen (n :: ns) (t :: rs) seen'
  | union {seen inner seen' ns : List String} {n : String} {u : UnionDecl} {rs rs' : List TypeDecl}
    (hn : n ∉ seen) (ht : s.type? n = none) (hu : s.union? n = some u)
    (hinside : Traversal s (n :: seen) (u.members.filterMap Value.name?) rs inner)
    (hrest : Traversal s inner ns rs' seen') : Traversal s seen (n :: ns) (rs ++ rs') seen'
  | other {seen seen' ns : List String} {n : String} {rs : List TypeDecl} (hn : n ∉ seen)
    (ht : s.type? n = none) (hu : s.union? n = none) (hrest : Traversal s (n :: seen) ns rs seen') :
    Traversal s seen (n :: ns) rs seen'

variable {s : Service} {seen seen' members ns rest : List String} {n : String} {rs : List TypeDecl}

def unseen (s : Service) (seen : List String) : List String := s.declaredNames.filter (· ∉ seen)

/-- The records that some names lead to without those seen. -/
def collectedBeyond (s : Service) (seen names : List String) : List TypeDecl :=
  (closure s.nestedMembers (s.unseen seen) names).filterMap s.type?

theorem collectedBeyond_nothing (s : Service) (names : List String) :
    s.collectedBeyond [] names = s.collectRecords names := by
  simp [collectedBeyond, collectRecords, unseen]

theorem collectedBeyond_nil (s : Service) (seen : List String) : s.collectedBeyond seen [] = [] := by
  rw [collectedBeyond, closure, List.filterMap_nil]

theorem mem_unseen_iff : n ∈ s.unseen seen ↔ n ∈ s.declaredNames ∧ n ∉ seen := by
  simp [unseen]

theorem collectedBeyond_again (hn : n ∈ seen) (ns : List String) :
    s.collectedBeyond seen (n :: ns) = s.collectedBeyond seen ns := by
  have hpool : n ∉ s.unseen seen := fun h => (mem_unseen_iff.1 h).2 hn
  rw [collectedBeyond, closure, if_neg hpool, collectedBeyond]

theorem erase_unseen (s : Service) (seen : List String) (n : String) :
    (s.unseen seen).erase n = s.unseen (n :: seen) := by
  have hnodup : (s.unseen seen).Nodup := (nodup_eraseDups _).filter _
  rw [hnodup.erase_eq_filter, unseen, unseen, List.filter_filter]
  congr 1
  funext m
  by_cases hm : m = n <;> simp [hm]

/-- A name of neither a record nor a union leads nowhere. -/
theorem undeclared (hn : n ∉ s.declaredNames) : s.type? n = none ∧ s.union? n = none := by
  simpa [mem_declaredNames_iff] using hn

/-- A name that is looked at for the first time gives its record, or goes on with the members of its
union. -/
theorem collectedBeyond_first (hn : n ∉ seen) (ns : List String) :
    s.collectedBeyond seen (n :: ns) =
      (s.type? n).toList ++ s.collectedBeyond (n :: seen) (s.nestedMembers n ++ ns) := by
  by_cases hd : n ∈ s.declaredNames
  · have hpool : n ∈ s.unseen seen := mem_unseen_iff.2 ⟨hd, hn⟩
    rw [collectedBeyond, closure, if_pos hpool, erase_unseen, List.filterMap_cons]
    cases s.type? n <;> rfl
  · have hpool : n ∉ s.unseen seen := fun h => hd (mem_unseen_iff.1 h).1
    obtain ⟨ht, hu⟩ := undeclared hd
    have hinside : s.nestedMembers n = [] := by simp [nestedMembers, ht, hu]
    -- such a name is not in the pool, so nothing changes when it is marked
    rw [collectedBeyond, closure, if_neg hpool, ht, hinside, collectedBeyond, ← erase_unseen,
      List.erase_of_not_mem hpool]
    rfl

theorem nestedMembers_record {t : TypeDecl} (ht : s.type? n = some t) : s.nestedMembers n = [] := by
  simp [nestedMembers, ht]

theorem nestedMembers_union {u : UnionDecl} (ht : s.type? n = none) (hu : s.union? n = some u) :
    s.nestedMembers n = u.members.filterMap Value.name? := by
  simp [nestedMembers, ht, hu]

theorem nestedMembers_other (ht : s.type? n = none) (hu : s.union? n = none) :
    s.nestedMembers n = [] := by
  simp [nestedMembers, ht, hu]

/-- A traversal meets the records that its names give, and leaves the other names the rest. -/
theorem Traversal.collectedBeyond_append (h : Traversal s seen ns rs seen') (rest : List String) :
    s.collectedBeyond seen (ns ++ rest) = rs ++ s.collectedBeyond seen' rest := by
  induction h generalizing rest with
  | done => rfl
  | again hn _ ih => rw [List.cons_append, collectedBeyond_again hn, ih]
  | record hn ht _ ih =>
    rw [List.cons_append, collectedBeyond_first hn, nestedMembers_record ht, ht, List.nil_append, ih]
    rfl
  | union hn ht hu _ _ ihin ih =>
    rw [List.cons_append, collectedBeyond_first hn, nestedMembers_union ht hu, ht, ihin, ih,
      List.append_assoc]
    rfl
  | other hn ht hu _ ih =>
    rw [List.cons_append, collectedBeyond_first hn, nestedMembers_other ht hu, ht, List.nil_append, ih]
    rfl

theorem Traversal.seen_subset (h : Traversal s seen ns rs seen') : seen ⊆ seen' := by
  induction h with
  | done => exact List.Subset.refl _
  | again _ _ ih => exact ih
  | record _ _ _ ih | other _ _ _ _ ih => exact fun m hm => ih (List.mem_cons_of_mem _ hm)
  | union _ _ _ _ _ ihin ih => exact fun m hm => ih (ihin (List.mem_cons_of_mem _ hm))

theorem length_unseen_le (h : seen ⊆ seen') :
    (s.unseen seen').length ≤ (s.unseen seen).length := by
  apply List.Sublist.length_le
  apply List.monotone_filter_right
  intro m hm
  simp only [decide_eq_true_eq] at hm ⊢
  exact fun hs => hm (h hs)

theorem length_unseen_lt (hd : n ∈ s.declaredNames) (hn : n ∉ seen) :
    (s.unseen (n :: seen)).length < (s.unseen seen).length := by
  have hpool : n ∈ s.unseen seen := mem_unseen_iff.2 ⟨hd, hn⟩
  have hpos := List.length_pos_of_mem hpool
  rw [← erase_unseen, List.length_erase_of_mem hpool]
  omega

/-- Every traversal comes to an end, also where unions hold each other. -/
theorem exists_traversal (s : Service) (seen ns : List String) :
    ∃ rs seen', Traversal s seen ns rs seen' := by
  -- a union that is entered leaves fewer names unseen, all else fewer names to visit
  induction hk : (s.unseen seen).length using Nat.strong_induction_on generalizing seen ns with
  | _ k ih =>
    induction ns generalizing seen with
    | nil => exact ⟨[], seen, .done⟩
    | cons n ns ihns =>
      have hsmaller : ∀ {inner}, n :: seen ⊆ inner → ∃ rs seen', Traversal s inner ns rs seen' := by
        intro inner hinner
        have hle : (s.unseen inner).length ≤ (s.unseen seen).length :=
          length_unseen_le fun m hm => hinner (List.mem_cons_of_mem n hm)
        by_cases heq : (s.unseen inner).length = k
        · exact ihns inner heq
        · exact ih _ (by omega) inner ns rfl
      by_cases hn : n ∈ seen
      · obtain ⟨rs, seen', h⟩ := ihns seen hk
        exact ⟨rs, seen', .again hn h⟩
      cases ht : s.type? n with
      | some t =>
        obtain ⟨rs, seen', h⟩ := hsmaller (List.Subset.refl _)
        exact ⟨t :: rs, seen', .record hn ht h⟩
      | none =>
        cases hu : s.union? n with
        | none =>
          obtain ⟨rs, seen', h⟩ := hsmaller (List.Subset.refl _)
          exact ⟨rs, seen', .other hn ht hu h⟩
        | some u =>
          have hd : n ∈ s.declaredNames := mem_declaredNames_iff.2 (.inr (by simp [hu]))
          have hlt := length_unseen_lt hd hn
          obtain ⟨rs, inner, hinside⟩ := ih _ (by omega) (n :: seen)
            (u.members.filterMap Value.name?) rfl
          obtain ⟨rs', seen', h⟩ := hsmaller hinside.seen_subset
          exact ⟨rs ++ rs', seen', .union hn ht hu hinside h⟩

theorem exists_traversal_iff {members : List String} :
    (∃ seen', Traversal s [] members rs seen') ↔ rs = s.collectRecords members := by
  have hunique : ∀ {rs seen'}, Traversal s [] members rs seen' → rs = s.collectRecords members := by
    intro rs seen' h
    have hall := h.collectedBeyond_append []
    rw [List.append_nil, collectedBeyond_nothing, collectedBeyond_nil, List.append_nil] at hall
    exact hall.symm
  constructor
  · rintro ⟨seen', h⟩
    exact hunique h
  · intro heq
    obtain ⟨rs', seen', h⟩ := exists_traversal s [] members
    rw [heq, ← hunique h]
    exact ⟨seen', h⟩

theorem mem_nestedMembers_iff {m : String} : n ∈ s.nestedMembers m ↔
    s.type? m = none ∧ ∃ u, s.union? m = some u ∧ ∃ v ∈ u.members, v.name? = some n := by
  unfold nestedMembers
  cases s.type? m <;> cases s.union? m <;> simp

theorem Nested.reachedFrom (h : s.Nested members n) (hd : n ∈ s.declaredNames) :
    ReachedFrom s.nestedMembers s.declaredNames members n := by
  induction h with
  | member hn => exact .start hn hd
  | @inside m n u v _ ht hu hv hn ih =>
    have hm : m ∈ s.declaredNames := mem_declaredNames_iff.2 (.inr (by simp [hu]))
    exact .step (ih hm) (mem_nestedMembers_iff.2 ⟨ht, u, hu, v, hv, hn⟩) hd

theorem nested_of_reachedFrom (h : ReachedFrom s.nestedMembers s.declaredNames members n) :
    s.Nested members n := by
  induction h with
  | start hn _ => exact .member hn
  | step _ hn _ ih =>
    obtain ⟨ht, u, hu, v, hv, hname⟩ := mem_nestedMembers_iff.1 hn
    exact .inside ih ht hu hv hname

theorem mem_collectRecords_iff {t : TypeDecl} :
    t ∈ s.collectRecords members ↔ ∃ n, s.Nested members n ∧ s.type? n = some t := by
  rw [collectRecords, List.mem_filterMap]
  refine exists_congr fun n => and_congr_left fun ht => ?_
  rw [mem_closure_iff]
  exact ⟨nested_of_reachedFrom, fun h => h.reachedFrom (mem_declaredNames_of_type? ht)⟩

theorem nodup_map_name_collectRecords (s : Service) (members : List String) :
    ((s.collectRecords members).map (·.name)).Nodup := by
  have hnames : (closure s.nestedMembers s.declaredNames members).Nodup :=
    nodup_closure (nodup_eraseDups _)
  exact hnames.sublist (map_filterMap_sublist fun n t ht => (type?_spec ht).2)

end Service

/-- A collection in progress: the names marked, the records so far, and a stack of names whose top stands
at its end. -/
structure Collection where
  seen : List String
  records : List TypeDecl
  stack : List String

namespace Collection

variable {s : Service} {x y : Collection} {n : String}

def start (members : List String) : Collection := ⟨[], [], members.reverse⟩

/-- Looks at a name that was taken from the stack. -/
def visit (s : Service) (x : Collection) (n : String) : Collection :=
  if n ∈ x.seen then x
  else
    match s.type? n, s.union? n with
    | some t, _ => { x with seen := n :: x.seen, records := x.records ++ [t] }
    | none, some u =>
      { x with seen := n :: x.seen, stack := x.stack ++ u.members.reverse.filterMap Value.name? }
    | none, none => { x with seen := n :: x.seen }

def step (s : Service) (x : Collection) : Option Collection :=
  x.stack.getLast?.map fun n => { x with stack := x.stack.dropLast }.visit s n

/-- How many names are not marked, and how many are on the stack. -/
def measure (s : Service) (x : Collection) : Nat × Nat := ((s.unseen x.seen).length, x.stack.length)

theorem step_eq_none_iff : x.step s = none ↔ x.stack = [] := by
  simp [step]

theorem exists_of_step (h : x.step s = some y) :
    ∃ rest n, x.stack = rest ++ [n] ∧ y = { x with stack := rest }.visit s n := by
  obtain ⟨n, hn, rfl⟩ := Option.map_eq_some_iff.1 h
  exact ⟨x.stack.dropLast, n, (List.dropLast_append_getLast? n hn).symm, rfl⟩

/-- The stack may grow, but then fewer names are left to be marked. -/
theorem measure_lt_of_step (h : x.step s = some y) :
    Prod.Lex (· < ·) (· < ·) (y.measure s) (x.measure s) := by
  obtain ⟨rest, n, hstack, rfl⟩ := exists_of_step h
  have hshorter : rest.length < x.stack.length := by simp [hstack]
  unfold visit
  by_cases hn : n ∈ x.seen
  · rw [if_pos hn]
    exact .right _ hshorter
  rw [if_neg hn]
  by_cases hd : n ∈ s.declaredNames
  · have hfewer := Service.length_unseen_lt hd hn
    cases s.type? n <;> cases s.union? n <;> exact .left _ _ hfewer
  · obtain ⟨ht, hu⟩ := Service.undeclared hd
    have hsame : s.unseen (n :: x.seen) = s.unseen x.seen := by
      rw [← Service.erase_unseen]
      exact List.erase_of_not_mem fun hm => hd (Service.mem_unseen_iff.1 hm).1
    rw [ht, hu, measure, measure, hsame]
    exact .right _ hshorter

def run (s : Service) (x : Collection) : Collection :=
  match _h : x.step s with
  | none => x
  | some y => y.run s
termination_by x.measure s
decreasing_by exact measure_lt_of_step _h

/-- All that a collection will have found, if it goes on like a traversal. -/
def outcome (s : Service) (x : Collection) : List TypeDecl :=
  x.records ++ s.collectedBeyond x.seen x.stack.reverse

theorem outcome_visit (s : Service) (x : Collection) (n : String) :
    (x.visit s n).outcome s = outcome s { x with stack := x.stack ++ [n] } := by
  have hreverse : (x.stack ++ [n]).reverse = n :: x.stack.reverse := by simp
  unfold visit outcome
  rw [hreverse]
  by_cases hn : n ∈ x.seen
  · rw [if_pos hn, Service.collectedBeyond_again hn]
  rw [if_neg hn, Service.collectedBeyond_first hn]
  cases ht : s.type? n with
  | some t => simp [Service.nestedMembers_record ht]
  | none =>
    cases hu : s.union? n with
    | none => simp [Service.nestedMembers_other ht hu]
    | some u => simp [Service.nestedMembers_union ht hu, List.filterMap_reverse]

theorem outcome_of_step (h : x.step s = some y) : y.outcome s = x.outcome s := by
  obtain ⟨rest, n, hstack, rfl⟩ := exists_of_step h
  rw [outcome_visit, ← hstack]

theorem records_run (s : Service) (x : Collection) : (x.run s).records = x.outcome s := by
  induction x using run.induct s with
  | case1 x h =>
    have hstack := step_eq_none_iff.1 h
    rw [run.eq_1, h]
    simp [outcome, hstack, Service.collectedBeyond_nil]
  | case2 x y h ih =>
    rw [run.eq_1, h, ← outcome_of_step h]
    exact ih

theorem outcome_start (s : Service) (members : List String) :
    (start members).outcome s = s.collectRecords members := by
  rw [outcome, start, List.reverse_reverse, Service.collectedBeyond_nothing, List.nil_append]

end Collection

namespace Service

/-- The loop over the stack ends with the records that are collected. These are the records that the members
lead to and no others, none of them twice, and they stand in the order of the recursive traversal. -/
theorem records_collected_in_order (s : Service) (members : List String) :
    (∀ t, t ∈ s.collectRecords members ↔ ∃ n, s.Nested members n ∧ s.type? n = some t) ∧
    ((s.collectRecords members).map (·.name)).Nodup ∧
    (∀ rs, (∃ seen, Traversal s [] members rs seen) ↔ rs = s.collectRecords members) ∧
    (WellFounded fun y x => Collection.step s x = some y) ∧
    ((Collection.start members).run s).records = s.collectRecords members := by
  refine ⟨fun t => mem_collectRecords_iff, nodup_map_name_collectRecords s members,
    fun rs => exists_traversal_iff, ?_, ?_⟩
  · apply Subrelation.wf (r := InvImage (Prod.Lex (· < ·) (· < ·)) (Collection.measure s))
    · exact Collection.measure_lt_of_step
    · exact InvImage.wf _ (WellFounded.prod_lex Nat.lt_wfRel.wf Nat.lt_wfRel.wf)
  · rw [Collection.records_run, Collection.outcome_start]

/-- Two unions that hold each other, and a name that is not declared. -/
def bodies : Service where
  title := "bodies"
  types := [{ name := "ball" }, { name := "cube" }]
  unions := [
    { name := "solid", body := .simple [⟨.named "round", false, false, false⟩,
        ⟨.named "cube", false, false, false⟩] },
    { name := "round", body := .simple [⟨.named "solid", false, false, false⟩,
        ⟨.named "ball", false, false, false⟩, ⟨.named "ring", false, false, false⟩] }]

theorem bodies_collected :
    (∃ seen, Traversal bodies [] ["solid", "ball"] [{ name := "ball" }, { name := "cube" }] seen) ∧
      bodies.Nested ["solid", "ball"] "solid" ∧
      bodies.collectRecords ["solid", "ball"] = [{ name := "ball" }, { name := "cube" }] ∧
      ((Collection.start ["solid", "ball"]).run bodies).records =
        [{ name := "ball" }, { name := "cube" }] := by
  have hround : Traversal bodies ["round", "solid"] ["solid", "ball", "ring"] [{ name := "ball" }]
      ["ring", "ball", "round", "solid"] :=
    .again (by decide) (.record (by decide) rfl (.other (by decide) rfl rfl .done))
  have hsolid : Traversal bodies ["solid"] ["round", "cube"] ([{ name := "ball" }] ++ [{ name := "cube" }])
      ["cube", "ring", "ball", "round", "solid"] :=
    .union (by decide) rfl rfl hround (.record (by decide) rfl .done)
  have hall : Traversal bodies [] ["solid", "ball"] ([{ name := "ball" }, { name := "cube" }] ++ [])
      ["cube", "ring", "ball", "round", "solid"] :=
    .union (by decide) rfl rfl hsolid (.again (by decide) .done)
  obtain ⟨-, -, htraversal, -, hrun⟩ := records_collected_in_order bodies ["solid", "ball"]
  have hrecords := (htraversal _).1 ⟨_, hall⟩
  exact ⟨⟨_, hall⟩, .member (by decide), hrecords.symm, hrun.trans hrecords.symm⟩

end Service

end DtoGen
