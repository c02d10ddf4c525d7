import DtoGen.Mapping.Union
import Mathlib.Tactic.Common

namespace DtoGen

/-- Names of the pool that stand in the work list are reached. -/
theorem mem_closure_of_mem {next : String → List String} {pool work : List String} {n : String}
    (hw : n ∈ work) (hp : n ∈ pool) : n ∈ closure next pool work := by
  induction pool, work using closure.induct next with
  | case1 pool => simp at hw
  | case2 pool m rest hm ih =>
    rw [closure, if_pos hm]
    by_cases he : n = m
    · simp [he]
    · have hrest : n ∈ rest := by simpa [he] using hw
      -- only `m` leaves the pool, so `n` is still there when its turn comes
      refine List.mem_cons_of_mem m (ih (List.mem_append_right _ hrest) ?_)
      exact (List.mem_erase_of_ne he).2 hp
  | case3 pool m rest hm ih =>
    rw [closure, if_neg hm]
    have he : n ≠ m := by
      rintro rfl
      exact hm hp
    exact ih (by simpa [he] using hw) hp

theorem mem_of_mem_closure {next : String → List String} {pool work : List String} {n : String}
    (h : ∀ m ∈ work, next m = []) (hn : n ∈ closure next pool work) : n ∈ work := by
  induction pool, work using closure.induct next with
  | case1 pool => simp [closure] at hn
  | case2 pool m rest hm ih =>
    rw [closure, if_pos hm, h m (by simp), List.nil_append] at hn
    rw [h m (by simp), List.nil_append] at ih
    rcases List.mem_cons.1 hn with rfl | hn
    · simp
    · exact List.mem_cons_of_mem m (ih (fun k hk => h k (List.mem_cons_of_mem m hk)) hn)
  | case3 pool m rest hm ih =>
    rw [closure, if_neg hm] at hn
    exact List.mem_cons_of_mem m (ih (fun k hk => h k (List.mem_cons_of_mem m hk)) hn)

namespace Service

theorem type?_spec {s : Service} {n : String} {t : TypeDecl} (h : s.type? n = some t) :
    t ∈ s.types ∧ t.name = n :=
  ⟨by simpa using List.mem_of_find?_eq_some h, by simpa using List.find?_some h⟩

theorem resolveName_eq_type {s : Service} {n : String} {t : TypeDecl} :
    s.resolveName n = .type t ↔ s.type? n = some t := by
  unfold resolveName
  cases s.type? n with
  | some t' => simp
  | none => cases s.enum? n <;> cases s.union? n <;> simp

theorem mem_declaredNames_of_type? {s : Service} {n : String} {t : TypeDecl}
    (h : s.type? n = some t) : n ∈ s.declaredNames := by
  obtain ⟨hm, rfl⟩ := type?_spec h
  exact List.mem_eraseDups.2 (List.mem_append_left _ (List.mem_map_of_mem hm))

theorem mem_collectRecords {s : Service} {names : List String} {n : String} {t : TypeDecl}
    (hn : n ∈ names) (ht : s.type? n = some t) : t ∈ s.collectRecords names :=
  List.mem_filterMap.2 ⟨n, mem_closure_of_mem hn (mem_declaredNames_of_type? ht), ht⟩

theorem type?_name_of_mem_collectRecords {s : Service} {names : List String} {t : TypeDecl}
    (h : t ∈ s.collectRecords names) : s.type? t.name = some t := by
  obtain ⟨n, -, ht⟩ := List.mem_filterMap.1 h
  rwa [(type?_spec ht).2]

theorem mem_records_collectRecords {s : Service} {names : List String} {t : TypeDecl} :
    t ∈ Discrimination.records s ((s.collectRecords names).map (·.name)) ↔
      t ∈ s.collectRecords names := by
  simp only [Discrimination.records, List.filterMap_map, List.mem_filterMap, Function.comp]
  constructor
  · rintro ⟨o, ho, ht⟩
    rw [type?_name_of_mem_collectRecords ho] at ht
    exact Option.some.inj ht ▸ ho
  · exact fun h => ⟨t, h, type?_name_of_mem_collectRecords h⟩

end Service

end DtoGen
