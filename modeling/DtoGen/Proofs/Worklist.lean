import DtoGen.Proofs.Lookups
import DtoGen.Proofs.Ordering

namespace DtoGen

/-- The values that the declaration behind a reference holds. -/
def Resolution.values : Resolution → List Value
  | .type t => t.values
  | .union u => u.members
  | _ => []

def Resolution.names (r : Resolution) : List String := r.values.filterMap Value.name?

namespace Service

/-- What some values lead to: a value leads to what it refers to, a record to the values of its
properties and the key and value of its map clause, a union to its members. -/
inductive Reachable (s : Service) (roots : List Value) : Resolution → Prop where
  | root {v : Value} (hv : v ∈ roots) : Reachable s roots (s.resolve v)
  | property {t : TypeDecl} {p : Property} (ht : Reachable s roots (.type t)) (hp : p ∈ t.properties) :
    Reachable s roots (s.resolve p.value)
  | mapKey {t : TypeDecl} {c : MapClause} (ht : Reachable s roots (.type t))
    (hc : t.mapClause = some c) : Reachable s roots (s.resolve c.key)
  | mapValue {t : TypeDecl} {c : MapClause} (ht : Reachable s roots (.type t))
    (hc : t.mapClause = some c) : Reachable s roots (s.resolve c.value)
  | member {u : UnionDecl} {v : Value} (hu : Reachable s roots (.union u)) (hv : v ∈ u.members) :
    Reachable s roots (s.resolve v)

section Reachable

variable {s : Service} {roots : List Value} {r : Resolution} {v : Value} {n : String}

theorem Reachable.held (h : s.Reachable roots r) (hv : v ∈ r.values) :
    s.Reachable roots (s.resolve v) := by
  cases r with
  | type t =>
    rcases List.mem_append.1 hv with hp | hc
    · obtain ⟨p, hmem, rfl⟩ := List.mem_map.1 hp
      exact .property h hmem
    · cases hm : t.mapClause with
      | none => simp [hm] at hc
      | some c =>
        rw [hm] at hc
        rcases List.mem_pair.1 hc with rfl | rfl
        · exact .mapKey h hm
        · exact .mapValue h hm
  | union u => exact .member h hv
  | primitive | enum | unresolved => cases hv

/-- What holds of the roots and is passed on to all that is held holds of all that is reached. -/
theorem Reachable.closed {P : Resolution → Prop} (hroots : ∀ v ∈ roots, P (s.resolve v))
    (hheld : ∀ r, P r → ∀ v ∈ r.values, P (s.resolve v)) (h : s.Reachable roots r) : P r := by
  induction h with
  | root hv => exact hroots _ hv
  | property _ hp ih => exact hheld _ ih _ (List.mem_append_left _ (List.mem_map_of_mem hp))
  | mapKey _ hc ih => exact hheld _ ih _ (by simp [Resolution.values, TypeDecl.values, hc])
  | mapValue _ hc ih => exact hheld _ ih _ (by simp [Resolution.values, TypeDecl.values, hc])
  | member _ hv ih => exact hheld _ ih _ hv

theorem resolve_eq_primitive (h : v.name? = none) : s.resolve v = .primitive := by
  unfold resolve
  cases hb : v.base with
  | primitive k l => rfl
  | named n => simp [Value.name?, hb] at h

theorem mem_names_iff : n ∈ r.names ↔ ∃ v ∈ r.values, v.name? = some n := List.mem_filterMap

theorem successors_eq (s : Service) (n : String) : s.successors n = (s.resolveName n).names := by
  unfold successors Resolution.names Resolution.values
  cases s.resolveName n <;> rfl

theorem Reachable.root_name (h : n ∈ roots.filterMap Value.name?) :
    s.Reachable roots (s.resolveName n) := by
  obtain ⟨v, hv, hn⟩ := List.mem_filterMap.1 h
  rw [← resolve_of_name? hn]
  exact .root hv

theorem Reachable.held_name (h : s.Reachable roots r) (hn : n ∈ r.names) :
    s.Reachable roots (s.resolveName n) := by
  obtain ⟨v, hv, hn⟩ := mem_names_iff.1 hn
  rw [← resolve_of_name? hn]
  exact h.held hv

theorem mem_declaredNames_of_isMapped (h : (s.resolveName n).isMapped = true) :
    n ∈ s.declaredNames := by
  rw [mem_declaredNames_iff]
  cases hr : s.resolveName n with
  | type t => exact .inl (by simp [resolveName_eq_type.1 hr])
  | union u => exact .inr (by simp [resolveName_eq_union hr])
  | primitive | enum | unresolved => simp [hr, Resolution.isMapped] at h

theorem reachable_of_mem_reached (h : n ∈ s.reached roots) : s.Reachable roots (s.resolveName n) := by
  have hreached := mem_closure_iff.1 h
  clear h
  induction hreached with
  | start hw _ => exact .root_name hw
  | step _ hn _ ih => exact ih.held_name (by rwa [← successors_eq])

theorem Reachable.exists_name (h : s.Reachable roots r) (hr : r.isMapped = true) :
    ∃ n ∈ s.reached roots, s.resolveName n = r := by
  have hnamed : r.isMapped = true → ∃ n ∈ s.reached roots, s.resolveName n = r := by
    refine h.closed (P := fun r => r.isMapped = true → ∃ n ∈ s.reached roots, s.resolveName n = r)
      (fun v hv hm => ?_) (fun q hq v hv hm => ?_)
    · cases hn : v.name? with
      | none => simp [resolve_eq_primitive hn, Resolution.isMapped] at hm
      | some n =>
        rw [resolve_of_name? hn] at hm ⊢
        refine ⟨n, mem_closure_iff.2 (.start ?_ (mem_declaredNames_of_isMapped hm)), rfl⟩
        exact List.mem_filterMap.2 ⟨v, hv, hn⟩
    · cases hn : v.name? with
      | none => simp [resolve_eq_primitive hn, Resolution.isMapped] at hm
      | some n =>
        rw [resolve_of_name? hn] at hm ⊢
        -- only records and unions hold values
        have hmapped : q.isMapped = true := by
          cases q with
          | type t | union u => rfl
          | primitive | enum | unresolved => cases hv
        obtain ⟨m, hm', rfl⟩ := hq hmapped
        refine ⟨n, mem_closure_iff.2 ((mem_closure_iff.1 hm').step ?_ ?_), rfl⟩
        · rw [successors_eq]
          exact mem_names_iff.2 ⟨v, hv, hn⟩
        · exact mem_declaredNames_of_isMapped hm
  exact hnamed hr

theorem mem_reachedTypes_iff {t : TypeDecl} :
    t ∈ s.reachedTypes roots ↔ s.Reachable roots (.type t) := by
  rw [reachedTypes, mem_sortByName, List.mem_filterMap]
  constructor
  · rintro ⟨n, hn, ht⟩
    have hr : s.resolveName n = .type t := by
      split at ht <;> simp_all
    exact hr ▸ reachable_of_mem_reached hn
  · intro h
    obtain ⟨n, hn, hr⟩ := h.exists_name rfl
    exact ⟨n, hn, by rw [hr]⟩

theorem mem_reachedUnions_iff {u : UnionDecl} :
    u ∈ s.reachedUnions roots ↔ s.Reachable roots (.union u) := by
  rw [reachedUnions, mem_sortByName, List.mem_filterMap]
  constructor
  · rintro ⟨n, hn, hu⟩
    have hr : s.resolveName n = .union u := by
      split at hu <;> simp_all
    exact hr ▸ reachable_of_mem_reached hn
  · intro h
    obtain ⟨n, hn, hr⟩ := h.exists_name rfl
    exact ⟨n, hn, by rw [hr]⟩

theorem Reachable.resolveName_type {t : TypeDecl} (h : s.Reachable roots (.type t)) :
    s.resolveName t.name = .type t := by
  obtain ⟨n, -, hn⟩ := h.exists_name rfl
  rwa [(type?_spec (resolveName_eq_type.1 hn)).2]

theorem Reachable.resolveName_union {u : UnionDecl} (h : s.Reachable roots (.union u)) :
    s.resolveName u.name = .union u := by
  obtain ⟨n, -, hn⟩ := h.exists_name rfl
  rwa [(union?_spec (resolveName_eq_union hn)).2]

theorem nodup_reached (s : Service) (roots : List Value) : (s.reached roots).Nodup :=
  nodup_closure (nodup_eraseDups _)

end Reachable

/-- Records and unions that some values lead to, all of them and no others, each once and in the order
of their names. -/
structure ListsReachable (s : Service) (roots : List Value) (types : List TypeDecl)
    (unions : List UnionDecl) : Prop where
  mem_types : ∀ t, t ∈ types ↔ s.Reachable roots (.type t)
  mem_unions : ∀ u, u ∈ unions ↔ s.Reachable roots (.union u)
  nodup_types : (types.map (·.name)).Nodup
  nodup_unions : (unions.map (·.name)).Nodup
  sorted_types : (types.map (·.name)).Pairwise fun a b => Text.le a b = true
  sorted_unions : (unions.map (·.name)).Pairwise fun a b => Text.le a b = true

theorem listsReachable_reached (s : Service) (roots : List Value) :
    s.ListsReachable roots (s.reachedTypes roots) (s.reachedUnions roots) where
  mem_types _ := mem_reachedTypes_iff
  mem_unions _ := mem_reachedUnions_iff
  nodup_types := by
    refine ((sortByName_perm _ _).map _).nodup_iff.2 ((s.nodup_reached roots).sublist ?_)
    refine map_filterMap_sublist fun n t ht => ?_
    split at ht
    · rename_i t' ht'
      obtain rfl := Option.some.inj ht
      exact (type?_spec (resolveName_eq_type.1 ht')).2
    · cases ht
  nodup_unions := by
    refine ((sortByName_perm _ _).map _).nodup_iff.2 ((s.nodup_reached roots).sublist ?_)
    refine map_filterMap_sublist fun n u hu => ?_
    split at hu
    · rename_i u' hu'
      obtain rfl := Option.some.inj hu
      exact (union?_spec (resolveName_eq_union hu')).2
    · cases hu
  sorted_types := List.pairwise_map.2 (pairwise_sortByName _ _)
  sorted_unions := List.pairwise_map.2 (pairwise_sortByName _ _)

end Service

/-- A search in progress: what is marked so far, and the names still to be looked at. -/
structure Search where
  types : List TypeDecl
  unions : List UnionDecl
  work : List String

namespace Search

open Service

def start (roots : List Value) : Search := ⟨[], [], roots.filterMap Value.name?⟩

def IsNew (x : Search) : Resolution → Prop
  | .type t => t.name ∉ x.types.map (·.name)
  | .union u => u.name ∉ x.unions.map (·.name)
  | _ => False

/-- Marks a record or union and goes on with some names. -/
def mark (x : Search) (r : Resolution) (work : List String) : Search :=
  match r with
  | .type t => { x with types := x.types ++ [t], work }
  | .union u => { x with unions := x.unions ++ [u], work }
  | _ => { x with work }

/-- A name is taken from anywhere in the work. What is behind it is marked, and what that holds is added
to the work, unless this was done before. -/
inductive Step (s : Service) : Search → Search → Prop where
  | visit {x : Search} {a b : List String} {n : String} (hw : x.work = a ++ n :: b)
    (hnew : x.IsNew (s.resolveName n)) :
    Step s x (x.mark (s.resolveName n) (a ++ b ++ (s.resolveName n).names))
  | skip {x : Search} {a b : List String} {n : String} (hw : x.work = a ++ n :: b)
    (hold : ¬ x.IsNew (s.resolveName n)) : Step s x { x with work := a ++ b }

variable {s : Service} {roots : List Value} {x y : Search}

theorem exists_step (h : x.work ≠ []) : ∃ y, Step s x y := by
  obtain ⟨n, rest, hw⟩ := List.exists_cons_of_ne_nil h
  by_cases hnew : x.IsNew (s.resolveName n)
  · exact ⟨_, .visit (a := []) hw hnew⟩
  · exact ⟨_, .skip (a := []) hw hnew⟩

/-- The declarations under names that are not marked. -/
def unmarked {α : Type} (nameOf : α → String) (as : List α) (marked : List String) : List α :=
  as.filter fun a => nameOf a ∉ marked

theorem length_unmarked_lt {α : Type} {nameOf : α → String} {as : List α} {marked : List String} {a : α}
    (ha : a ∈ as) (hnew : nameOf a ∉ marked) :
    (unmarked nameOf as (marked ++ [nameOf a])).length < (unmarked nameOf as marked).length := by
  have hless : unmarked nameOf as (marked ++ [nameOf a]) =
      (unmarked nameOf as marked).filter fun b => nameOf b ≠ nameOf a := by
    rw [unmarked, unmarked, List.filter_filter]
    congr 1
    funext b
    simp [and_comm]
  rw [hless]
  refine List.length_filter_lt_length_iff_exists.2 ⟨a, ?_, by simp⟩
  exact List.mem_filter.2 ⟨ha, by simpa using hnew⟩

/-- How many declarations are not marked, and how much work there is. -/
def measure (s : Service) (x : Search) : Nat × Nat :=
  ((unmarked TypeDecl.name s.types (x.types.map (·.name))).length +
    (unmarked UnionDecl.name s.unions (x.unions.map (·.name))).length, x.work.length)

/-- The work may grow, but then less is left to be marked. -/
theorem Step.measure_lt (h : Step s x y) :
    Prod.Lex (· < ·) (· < ·) (measure s y) (measure s x) := by
  cases h with
  | @visit a b n hw hnew =>
    refine .left _ _ ?_
    cases hr : s.resolveName n with
    | type t =>
      rw [hr] at hnew
      have hless := length_unmarked_lt (type?_spec (resolveName_eq_type.1 hr)).1 hnew
      simpa [mark] using hless
    | union u =>
      rw [hr] at hnew
      have hless := length_unmarked_lt (union?_spec (resolveName_eq_union hr)).1 hnew
      simpa [mark] using hless
    | primitive | enum | unresolved => simp [hr, IsNew] at hnew
  | @skip a b n hw _ =>
    refine .right _ ?_
    simp [hw]

theorem wellFounded_step (s : Service) : WellFounded fun y x => Step s x y :=
  Subrelation.wf Step.measure_lt
    (InvImage.wf (measure s) (WellFounded.prod_lex Nat.lt_wfRel.wf Nat.lt_wfRel.wf))

/-- A record or union is marked; anything else need not be. -/
def Marks (x : Search) : Resolution → Prop
  | .type t => t ∈ x.types
  | .union u => u ∈ x.unions
  | _ => True

/-- A name is still to be looked at, or what is behind it is marked. -/
def Sees (s : Service) (x : Search) (n : String) : Prop := n ∈ x.work ∨ x.Marks (s.resolveName n)

/-- What holds all along a search: it marks only what it should, nothing twice, and forgets nothing. -/
structure Invariant (s : Service) (roots : List Value) (x : Search) : Prop where
  reachable_marked : ∀ r, r.isMapped = true → x.Marks r → s.Reachable roots r
  reachable_work : ∀ n ∈ x.work, s.Reachable roots (s.resolveName n)
  nodup_types : (x.types.map (·.name)).Nodup
  nodup_unions : (x.unions.map (·.name)).Nodup
  roots_seen : ∀ n ∈ roots.filterMap Value.name?, x.Sees s n
  names_seen : ∀ r, x.Marks r → ∀ n ∈ r.names, x.Sees s n

theorem not_marks_start {r : Resolution} (hr : r.isMapped = true) : ¬ (start roots).Marks r := by
  cases r with
  | type t | union u => exact List.not_mem_nil
  | primitive | enum | unresolved => cases hr

theorem isMapped_of_mem_names {r : Resolution} {n : String} (h : n ∈ r.names) : r.isMapped = true := by
  cases r with
  | type t | union u => rfl
  | primitive | enum | unresolved => cases h

theorem invariant_start (s : Service) (roots : List Value) : Invariant s roots (start roots) where
  reachable_marked _ hr h := absurd h (not_marks_start hr)
  reachable_work _ hn := .root_name hn
  nodup_types := List.nodup_nil
  nodup_unions := List.nodup_nil
  roots_seen _ hn := .inl hn
  names_seen _ h _ hn := absurd h (not_marks_start (isMapped_of_mem_names hn))

@[simp] theorem work_mark (x : Search) (r : Resolution) (work : List String) :
    (x.mark r work).work = work := by
  cases r <;> rfl

theorem marks_mark {r q : Resolution} {work : List String} :
    (x.mark r work).Marks q ↔ x.Marks q ∨ q = r := by
  cases r <;> cases q <;> simp [mark, Marks]

namespace Invariant

variable (h : Invariant s roots x)

include h

/-- What is marked under the name of a declaration that is reached is that declaration. -/
theorem marks_of_not_isNew {r : Resolution} (hr : s.Reachable roots r) (hold : ¬ x.IsNew r) :
    x.Marks r := by
  cases r with
  | type t =>
    obtain ⟨t', ht', hname⟩ := List.mem_map.1 (not_not.1 hold)
    have hsame := (h.reachable_marked (.type t') rfl ht').resolveName_type
    rw [hname, hr.resolveName_type] at hsame
    rwa [Marks, Resolution.type.inj hsame]
  | union u =>
    obtain ⟨u', hu', hname⟩ := List.mem_map.1 (not_not.1 hold)
    have hsame := (h.reachable_marked (.union u') rfl hu').resolveName_union
    rw [hname, hr.resolveName_union] at hsame
    rwa [Marks, Resolution.union.inj hsame]
  | primitive | enum | unresolved => trivial

theorem visit {a b : List String} {n : String} (hw : x.work = a ++ n :: b)
    (hnew : x.IsNew (s.resolveName n)) :
    Invariant s roots (x.mark (s.resolveName n) (a ++ b ++ (s.resolveName n).names)) := by
  have hn : s.Reachable roots (s.resolveName n) := h.reachable_work n (by simp [hw])
  have hsees : ∀ m, x.Sees s m →
      (x.mark (s.resolveName n) (a ++ b ++ (s.resolveName n).names)).Sees s m := by
    intro m hm
    rw [Sees, work_mark, marks_mark]
    rcases hm with hm | hm
    · rw [hw] at hm
      rcases List.mem_append.1 hm with hm | hm
      · exact .inl (by simp [hm])
      · rcases List.mem_cons.1 hm with rfl | hm
        · exact .inr (.inr rfl)
        · exact .inl (by simp [hm])
    · exact .inr (.inl hm)
  refine ⟨fun r hr hm => ?_, fun m hm => ?_, ?_, ?_, fun m hm => hsees m (h.roots_seen m hm),
    fun r hr m hm => ?_⟩
  · rcases marks_mark.1 hm with hm | rfl
    · exact h.reachable_marked r hr hm
    · exact hn
  · rw [work_mark] at hm
    rcases List.mem_append.1 hm with hm | hm
    · exact h.reachable_work m (by rw [hw]; simp only [List.mem_append, List.mem_cons] at hm ⊢; tauto)
    · exact hn.held_name hm
  · cases hr : s.resolveName n with
    | type t =>
      rw [hr] at hnew
      simpa [mark, List.nodup_append, h.nodup_types, IsNew] using hnew
    | union | primitive | enum | unresolved => exact h.nodup_types
  · cases hr : s.resolveName n with
    | union u =>
      rw [hr] at hnew
      simpa [mark, List.nodup_append, h.nodup_unions, IsNew] using hnew
    | type | primitive | enum | unresolved => exact h.nodup_unions
  · rcases marks_mark.1 hr with hr | rfl
    · exact hsees m (h.names_seen r hr m hm)
    · exact .inl (by simp [hm])

theorem skip {a b : List String} {n : String} (hw : x.work = a ++ n :: b)
    (hold : ¬ x.IsNew (s.resolveName n)) : Invariant s roots { x with work := a ++ b } := by
  have hwork : ∀ m ∈ a ++ b, m ∈ x.work := by
    intro m hm
    rw [hw]
    rcases List.mem_append.1 hm with hm | hm
    · exact List.mem_append_left _ hm
    · exact List.mem_append_right _ (List.mem_cons_of_mem n hm)
  have hn := h.marks_of_not_isNew (h.reachable_work n (by simp [hw])) hold
  have hsees : ∀ m, x.Sees s m → Sees s { x with work := a ++ b } m := by
    rintro m (hm | hm)
    · rw [hw] at hm
      rcases List.mem_append.1 hm with hm | hm
      · exact .inl (List.mem_append_left b hm)
      · rcases List.mem_cons.1 hm with rfl | hm
        · exact .inr hn
        · exact .inl (List.mem_append_right a hm)
    · exact .inr hm
  exact ⟨h.reachable_marked, fun m hm => h.reachable_work m (hwork m hm), h.nodup_types,
    h.nodup_unions, fun m hm => hsees m (h.roots_seen m hm),
    fun r hr m hm => hsees m (h.names_seen r hr m hm)⟩

theorem step (hstep : Step s x y) : Invariant s roots y := by
  cases hstep with
  | visit hw hnew => exact h.visit hw hnew
  | skip hw hold => exact h.skip hw hold

theorem marks_of_done (hdone : x.work = []) {r : Resolution} (hr : s.Reachable roots r) : x.Marks r := by
  have hmarks : ∀ n, x.Sees s n → x.Marks (s.resolveName n) := by
    rintro n (hn | hn)
    · rw [hdone] at hn
      cases hn
    · exact hn
  refine hr.closed (fun v hv => ?_) (fun q hq v hv => ?_)
  · cases hn : v.name? with
    | none =>
      rw [resolve_eq_primitive hn]
      trivial
    | some n =>
      rw [resolve_of_name? hn]
      exact hmarks n (h.roots_seen n (List.mem_filterMap.2 ⟨v, hv, hn⟩))
  · cases hn : v.name? with
    | none =>
      rw [resolve_eq_primitive hn]
      trivial
    | some n =>
      rw [resolve_of_name? hn]
      exact hmarks n (h.names_seen q hq n (mem_names_iff.2 ⟨v, hv, hn⟩))

theorem listsReachable (hdone : x.work = []) :
    s.ListsReachable roots (sortByName TypeDecl.name x.types) (sortByName UnionDecl.name x.unions) where
  mem_types t := mem_sortByName.trans ⟨h.reachable_marked (.type t) rfl, h.marks_of_done hdone⟩
  mem_unions u := mem_sortByName.trans ⟨h.reachable_marked (.union u) rfl, h.marks_of_done hdone⟩
  nodup_types := ((sortByName_perm _ _).map _).nodup_iff.2 h.nodup_types
  nodup_unions := ((sortByName_perm _ _).map _).nodup_iff.2 h.nodup_unions
  sorted_types := List.pairwise_map.2 (pairwise_sortByName _ _)
  sorted_unions := List.pairwise_map.2 (pairwise_sortByName _ _)

end Invariant

theorem invariant_of_run (h : Relation.ReflTransGen (Step s) (start roots) x) : Invariant s roots x := by
  induction h with
  | refl => exact invariant_start s roots
  | tail _ hstep ih => exact ih.step hstep

end Search

namespace Service

theorem ListsReachable.unique {s : Service} {roots : List Value} {ts ts' : List TypeDecl}
    {us us' : List UnionDecl} (h : s.ListsReachable roots ts us) (h' : s.ListsReachable roots ts' us') :
    ts = ts' ∧ us = us' := by
  have htypes : ts.Perm ts' := by
    rw [List.perm_ext_iff_of_nodup h.nodup_types.of_map h'.nodup_types.of_map]
    exact fun t => (h.mem_types t).trans (h'.mem_types t).symm
  have hunions : us.Perm us' := by
    rw [List.perm_ext_iff_of_nodup h.nodup_unions.of_map h'.nodup_unions.of_map]
    exact fun u => (h.mem_unions u).trans (h'.mem_unions u).symm
  exact ⟨eq_of_pairwise_le htypes h.nodup_types (List.pairwise_map.1 h.sorted_types)
      (List.pairwise_map.1 h'.sorted_types),
    eq_of_pairwise_le hunions h.nodup_unions (List.pairwise_map.1 h.sorted_unions)
      (List.pairwise_map.1 h'.sorted_unions)⟩

/-- The lists of a service hold just what parameters and what return values lead to. A search for that
never goes on for ever, and where it cannot go on it has found these lists. -/
theorem reachable_listed (s : Service) :
    s.ListsReachable s.inputs (s.reachedTypes s.inputs) (s.reachedUnions s.inputs) ∧
      s.ListsReachable s.outputs (s.reachedTypes s.outputs) (s.reachedUnions s.outputs) ∧
      (WellFounded fun y x => Search.Step s x y) ∧
      ∀ roots x, Relation.ReflTransGen (Search.Step s) (Search.start roots) x →
        (∃ y, Search.Step s x y) ∨
          (x.work = [] ∧ sortByName TypeDecl.name x.types = s.reachedTypes roots ∧
            sortByName UnionDecl.name x.unions = s.reachedUnions roots) := by
  refine ⟨s.listsReachable_reached _, s.listsReachable_reached _, Search.wellFounded_step s,
    fun roots x hrun => ?_⟩
  by_cases hdone : x.work = []
  · have hlists := (Search.invariant_of_run hrun).listsReachable hdone
    exact .inr ⟨hdone, hlists.unique (s.listsReachable_reached roots)⟩
  · exact .inl (Search.exists_step hdone)

end Service

end DtoGen
