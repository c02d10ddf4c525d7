import DtoGen.Proofs.Defects

namespace DtoGen

/-- The names that are reached from `work` by steps inside a pool. -/
inductive ReachedFrom (next : String → List String) (pool work : List String) : String → Prop where
  | start {n : String} (hw : n ∈ work) (hp : n ∈ pool) : ReachedFrom next pool work n
  | step {m n : String} (hm : ReachedFrom next pool work m) (hn : n ∈ next m) (hp : n ∈ pool) :
    ReachedFrom next pool work n

section Closure

variable {next : String → List String} {pool work rest : List String} {m n : String}

theorem ReachedFrom.of_visited (hm : m ∈ pool)
    (h : ReachedFrom next (pool.erase m) (next m ++ rest) n) : ReachedFrom next pool (m :: rest) n := by
  induction h with
  | start hw hp =>
    have hpool := List.mem_of_mem_erase hp
    rcases List.mem_append.1 hw with hw | hw
    · exact .step (.start List.mem_cons_self hm) hw hpool
    · exact .start (List.mem_cons_of_mem m hw) hpool
  | step _ hn hp ih => exact .step ih hn (List.mem_of_mem_erase hp)

theorem ReachedFrom.visited (h : ReachedFrom next pool (m :: rest) n) (hne : n ≠ m) :
    ReachedFrom next (pool.erase m) (next m ++ rest) n := by
  induction h with
  | start hw hp =>
    have hrest := (List.mem_cons.1 hw).resolve_left hne
    exact .start (List.mem_append_right _ hrest) ((List.mem_erase_of_ne hne).2 hp)
  | @step k n _ hn hp ih =>
    have hpool := (List.mem_erase_of_ne hne).2 hp
    -- a step from `m` starts anew, since its successors are now in the work list
    by_cases hk : k = m
    · subst hk
      exact .start (List.mem_append_left _ hn) hpool
    · exact .step (ih hk) hn hpool

theorem reachedFrom_cons_of_not_mem (hm : m ∉ pool) :
    ReachedFrom next pool (m :: rest) n ↔ ReachedFrom next pool rest n := by
  constructor
  · intro h
    induction h with
    | start hw hp =>
      have hne : _ ≠ m := ne_of_mem_of_not_mem hp hm
      exact .start ((List.mem_cons.1 hw).resolve_left hne) hp
    | step _ hn hp ih => exact .step ih hn hp
  · intro h
    induction h with
    | start hw hp => exact .start (List.mem_cons_of_mem m hw) hp
    | step _ hn hp ih => exact .step ih hn hp

theorem mem_closure_iff : n ∈ closure next pool work ↔ ReachedFrom next pool work n := by
  induction pool, work using closure.induct next with
  | case1 pool =>
    rw [closure]
    constructor
    · intro h
      cases h
    · intro h
      induction h with
      | start hw _ => cases hw
      | step _ _ _ ih => cases ih
  | case2 pool m rest hm ih =>
    rw [closure, if_pos hm, List.mem_cons, ih]
    constructor
    · rintro (rfl | h)
      · exact .start List.mem_cons_self hm
      · exact h.of_visited hm
    · intro h
      by_cases hne : n = m
      · exact .inl hne
      · exact .inr (h.visited hne)
  | case3 pool m rest hm ih =>
    rw [closure, if_neg hm, ih, reachedFrom_cons_of_not_mem hm]

theorem ReachedFrom.mem_pool (h : ReachedFrom next pool work n) : n ∈ pool := by
  cases h with
  | start _ hp => exact hp
  | step _ _ hp => exact hp

theorem nodup_closure (h : pool.Nodup) : (closure next pool work).Nodup := by
  induction pool, work using closure.induct next with
  | case1 pool =>
    rw [closure]
    exact List.nodup_nil
  | case2 pool m rest hm ih =>
    rw [closure, if_pos hm, List.nodup_cons]
    refine ⟨fun hagain => ?_, ih (h.erase m)⟩
    have hpool := (mem_closure_iff.1 hagain).mem_pool
    exact (h.mem_erase_iff.1 hpool).1 rfl
  | case3 pool m rest hm ih =>
    rw [closure, if_neg hm]
    exact ih h

end Closure

/-- Names that are looked up, and the names of what is found. -/
theorem map_filterMap_sublist {α : Type} {nameOf : α → String} {find : String → Option α}
    (h : ∀ n a, find n = some a → nameOf a = n) {ns : List String} :
    ((ns.filterMap find).map nameOf).Sublist ns := by
  induction ns with
  | nil => simp
  | cons n ns ih =>
    cases hn : find n with
    | none =>
      rw [List.filterMap_cons_none hn]
      exact ih.cons n
    | some a =>
      rw [List.filterMap_cons_some hn, List.map_cons, h n a hn]
      exact ih.cons_cons n

namespace Service

/-- What a declaration holds: a record its properties and the keys and values of its map clause, a
union its members. -/
inductive Leads (s : Service) : String → String → Prop where
  | property {m n : String} {t : TypeDecl} {p : Property} (ht : s.resolveName m = .type t)
    (hp : p ∈ t.properties) (hn : p.value.name? = some n) : Leads s m n
  | mapKey {m n : String} {t : TypeDecl} {c : MapClause} (ht : s.resolveName m = .type t)
    (hc : t.mapClause = some c) (hn : c.key.name? = some n) : Leads s m n
  | mapValue {m n : String} {t : TypeDecl} {c : MapClause} (ht : s.resolveName m = .type t)
    (hc : t.mapClause = some c) (hn : c.value.name? = some n) : Leads s m n
  | member {m n : String} {u : UnionDecl} {v : Value} (hu : s.resolveName m = .union u)
    (hv : v ∈ u.members) (hn : v.name? = some n) : Leads s m n

theorem leads_iff {s : Service} {m n : String} : s.Leads m n ↔ n ∈ s.successors m := by
  unfold successors
  constructor
  · rintro (⟨ht, hp, hn⟩ | ⟨ht, hc, hn⟩ | ⟨ht, hc, hn⟩ | ⟨hu, hv, hn⟩)
    · rw [ht]
      exact List.mem_filterMap.2 ⟨_, List.mem_append_left _ (List.mem_map_of_mem hp), hn⟩
    · rw [ht]
      exact List.mem_filterMap.2 ⟨_, by simp [TypeDecl.values, hc], hn⟩
    · rw [ht]
      exact List.mem_filterMap.2 ⟨_, by simp [TypeDecl.values, hc], hn⟩
    · rw [hu]
      exact List.mem_filterMap.2 ⟨_, hv, hn⟩
  · intro h
    cases hr : s.resolveName m with
    | type t =>
      rw [hr] at h
      obtain ⟨v, hv, hn⟩ := List.mem_filterMap.1 h
      rcases List.mem_append.1 hv with hv | hv
      · obtain ⟨p, hp, rfl⟩ := List.mem_map.1 hv
        exact .property hr hp hn
      · cases hc : t.mapClause with
        | none => simp [hc] at hv
        | some c =>
          rw [hc] at hv
          rcases List.mem_pair.1 hv with rfl | rfl
          · exact .mapKey hr hc hn
          · exact .mapValue hr hc hn
    | union u =>
      rw [hr] at h
      obtain ⟨v, hv, hn⟩ := List.mem_filterMap.1 h
      exact .member hr hv hn
    | primitive | enum | unresolved => simp [hr] at h

/-- The types and unions that some values lead to. -/
inductive Reaches (s : Service) (roots : List Value) : String → Prop where
  | root {v : Value} {n : String} (hv : v ∈ roots) (hn : v.name? = some n)
    (hm : (s.resolveName n).isMapped = true) : Reaches s roots n
  | step {m n : String} (h : Reaches s roots m) (hl : s.Leads m n)
    (hm : (s.resolveName n).isMapped = true) : Reaches s roots n

namespace Sound

variable {s : Service} (h : s.Sound) {roots : List Value}

include h

theorem mem_reached_iff {n : String} : n ∈ s.reached roots ↔ s.Reaches roots n := by
  rw [reached, mem_closure_iff]
  constructor
  · intro hn
    induction hn with
    | start hw hp =>
      obtain ⟨v, hv, hn⟩ := List.mem_filterMap.1 hw
      exact .root hv hn (h.isMapped_iff.2 hp)
    | step _ hn hp ih => exact .step ih (leads_iff.2 hn) (h.isMapped_iff.2 hp)
  · intro hn
    induction hn with
    | root hv hn hm => exact .start (List.mem_filterMap.2 ⟨_, hv, hn⟩) (h.isMapped_iff.1 hm)
    | step _ hl hm ih => exact .step ih (leads_iff.1 hl) (h.isMapped_iff.1 hm)

theorem mem_reachedTypes_iff {t : TypeDecl} :
    t ∈ s.reachedTypes roots ↔ t ∈ s.types ∧ s.Reaches roots t.name := by
  rw [reachedTypes, mem_sortByName, List.mem_filterMap]
  constructor
  · rintro ⟨n, hn, ht⟩
    have hr : s.resolveName n = .type t := by
      split at ht <;> simp_all
    obtain ⟨hmem, rfl⟩ := h.resolveName_eq_type_iff.1 hr
    exact ⟨hmem, h.mem_reached_iff.1 hn⟩
  · rintro ⟨hmem, hn⟩
    have hr : s.resolveName t.name = .type t := h.resolveName_eq_type_iff.2 ⟨hmem, rfl⟩
    exact ⟨t.name, h.mem_reached_iff.2 hn, by rw [hr]⟩

theorem mem_reachedUnions_iff {u : UnionDecl} :
    u ∈ s.reachedUnions roots ↔ u ∈ s.unions ∧ s.Reaches roots u.name := by
  rw [reachedUnions, mem_sortByName, List.mem_filterMap]
  constructor
  · rintro ⟨n, hn, hu⟩
    have hr : s.resolveName n = .union u := by
      split at hu <;> simp_all
    obtain ⟨hmem, rfl⟩ := h.resolveName_eq_union_iff.1 hr
    exact ⟨hmem, h.mem_reached_iff.1 hn⟩
  · rintro ⟨hmem, hn⟩
    have hr : s.resolveName u.name = .union u := h.resolveName_eq_union_iff.2 ⟨hmem, rfl⟩
    exact ⟨u.name, h.mem_reached_iff.2 hn, by rw [hr]⟩

/-- No name is listed twice among the types and unions that are reached. -/
theorem nodup_reachedNames : ((s.reachedTypes roots).map (·.name) ++
    (s.reachedUnions roots).map (·.name)).Nodup := by
  have hreached : (s.reached roots).Nodup := nodup_closure h.nodup_declaredNames
  rw [List.nodup_append]
  refine ⟨?_, ?_, fun m hm n hn hmn => ?_⟩
  · refine ((sortByName_perm _ _).map _).nodup_iff.2 (hreached.sublist ?_)
    refine map_filterMap_sublist fun n t ht => ?_
    split at ht <;> simp_all [h.resolveName_eq_type_iff]
  · refine ((sortByName_perm _ _).map _).nodup_iff.2 (hreached.sublist ?_)
    refine map_filterMap_sublist fun n u hu => ?_
    split at hu <;> simp_all [h.resolveName_eq_union_iff]
  · obtain ⟨t, ht, rfl⟩ := List.mem_map.1 hm
    obtain ⟨u, hu, rfl⟩ := List.mem_map.1 hn
    have htype := h.resolveName_eq_type_iff.2 ⟨(h.mem_reachedTypes_iff.1 ht).1, hmn⟩
    have hunion := h.resolveName_eq_union_iff.2 ⟨(h.mem_reachedUnions_iff.1 hu).1, rfl⟩
    rw [htype] at hunion
    cases hunion

end Sound

end Service

end DtoGen
