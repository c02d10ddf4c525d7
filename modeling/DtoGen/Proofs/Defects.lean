import DtoGen.Proofs.Collection
import DtoGen.Service.Check
import DtoGen.Types.Record
import Mathlib.Data.List.Nodup

namespace DtoGen

/-- Of elements with different names, the one with a given name is found. -/
theorem lastNamed_eq_some_iff {α : Type} {nameOf : α → String} {as : List α}
    (h : (as.map nameOf).Nodup) {n : String} {a : α} :
    lastNamed nameOf n as = some a ↔ a ∈ as ∧ nameOf a = n := by
  unfold lastNamed
  constructor
  · intro ha
    exact ⟨by simpa using List.mem_of_find?_eq_some ha, by simpa using List.find?_some ha⟩
  · rintro ⟨ha, hn⟩
    obtain ⟨b, hb⟩ : ∃ b, as.reverse.find? (nameOf · == n) = some b := by
      rw [← Option.isSome_iff_exists, List.find?_isSome]
      exact ⟨a, by simpa using ha, by simpa using hn⟩
    have hmem : b ∈ as := by simpa using List.mem_of_find?_eq_some hb
    have hname : nameOf b = n := by simpa using List.find?_some hb
    rw [hb, List.inj_on_of_nodup_map h hmem ha (hname.trans hn.symm)]

theorem eraseDups_of_nodup {as : List String} (h : as.Nodup) : as.eraseDups = as := by
  induction as with
  | nil => rfl
  | cons a as ih =>
    obtain ⟨ha, has⟩ := List.nodup_cons.1 h
    have hfilter : as.filter (fun b => !b == a) = as := by
      refine List.filter_eq_self.2 fun b hb => ?_
      have hne : b ≠ a := ne_of_mem_of_not_mem hb ha
      simpa using hne
    rw [List.eraseDups_cons, hfilter, ih has]

namespace Check

/-- No duplicates are found just if all names differ, from each other and from those seen before. -/
theorem duplicates_eq_nil_iff (seen ds : List (String × DeclKind)) :
    duplicates seen ds = [] ↔
      (ds.map Prod.fst).Nodup ∧ ∀ d ∈ ds, seen.lookup d.1 = none := by
  induction ds generalizing seen with
  | nil => simp [duplicates]
  | cons d ds ih =>
    obtain ⟨n, k⟩ := d
    cases h : seen.lookup n with
    | some first =>
      rw [duplicates, h]
      refine iff_of_false (by simp) fun hall => ?_
      have hnone := hall.2 (n, k) List.mem_cons_self
      rw [h] at hnone
      cases hnone
    | none =>
      -- the name counts as seen from here on
      have hseen : (∀ d ∈ ds, ((n, k) :: seen).lookup d.1 = none) ↔
          n ∉ ds.map Prod.fst ∧ ∀ d ∈ ds, seen.lookup d.1 = none := by
        constructor
        · intro hall
          refine ⟨fun hn => ?_, fun d hd => ?_⟩
          · obtain ⟨d, hd, rfl⟩ := List.mem_map.1 hn
            simpa using hall d hd
          · have hlookup := hall d hd
            rw [List.lookup_cons] at hlookup
            split at hlookup
            · cases hlookup
            · exact hlookup
        · rintro ⟨hn, hall⟩ d hd
          have hne : (d.1 == n) = false := by
            rw [beq_eq_false_iff_ne]
            rintro rfl
            exact hn (List.mem_map_of_mem hd)
          rw [List.lookup_cons, hne]
          exact hall d hd
      rw [duplicates, h, ih, hseen, List.map_cons, List.nodup_cons, List.forall_mem_cons]
      tauto

end Check

namespace Service

/-- What the check of a service without defects has established. -/
structure Sound (s : Service) : Prop where
  names : ((Check.declarations s).map Prod.fst).Nodup
  limits : ∀ t ∈ s.types, Check.limits t = []
  keys : ∀ t ∈ s.types, Check.collisions t = []
  members : ∀ u ∈ s.unions, Check.memberDefects s u = []

theorem isSound_iff {s : Service} : s.check.isSound = true ↔ s.Sound := by
  have hdefects : s.check.isSound = true ↔
      ((Check.duplicates [] (Check.declarations s) = [] ∧
        ∀ t ∈ s.types, Check.limits t = [] ∧ Check.collisions t = []) ∧
        ∀ u ∈ s.unions, Check.memberDefects s u = []) := by
    simp [check, CheckReport.isSound, List.flatMap_eq_nil_iff, and_assoc]
  rw [hdefects, Check.duplicates_eq_nil_iff]
  constructor
  · rintro ⟨⟨⟨hnames, -⟩, htypes⟩, hmembers⟩
    exact ⟨hnames, fun t ht => (htypes t ht).1, fun t ht => (htypes t ht).2, hmembers⟩
  · intro h
    exact ⟨⟨⟨h.names, by simp⟩, fun t ht => ⟨h.limits t ht, h.keys t ht⟩⟩, h.members⟩

theorem declarations_names (s : Service) : (Check.declarations s).map Prod.fst =
    s.types.map (·.name) ++ s.enums.map (·.name) ++ s.unions.map (·.name) := by
  simp [Check.declarations, Function.comp_def]

namespace Sound

variable {s : Service} (h : s.Sound)

include h

theorem nodup : (s.types.map (·.name) ++ s.enums.map (·.name) ++ s.unions.map (·.name)).Nodup :=
  declarations_names s ▸ h.names

theorem type?_eq_some_iff {n : String} {t : TypeDecl} :
    s.type? n = some t ↔ t ∈ s.types ∧ t.name = n :=
  lastNamed_eq_some_iff (List.nodup_append.1 (List.nodup_append.1 h.nodup).1).1

theorem enum?_eq_some_iff {n : String} {e : EnumDecl} :
    s.enum? n = some e ↔ e ∈ s.enums ∧ e.name = n :=
  lastNamed_eq_some_iff (List.nodup_append.1 (List.nodup_append.1 h.nodup).1).2.1

theorem union?_eq_some_iff {n : String} {u : UnionDecl} :
    s.union? n = some u ↔ u ∈ s.unions ∧ u.name = n :=
  lastNamed_eq_some_iff (List.nodup_append.1 h.nodup).2.1

theorem resolveName_eq_union_iff {n : String} {u : UnionDecl} :
    s.resolveName n = .union u ↔ u ∈ s.unions ∧ u.name = n := by
  have hdisjoint := (List.nodup_append.1 h.nodup).2.2
  rw [← h.union?_eq_some_iff]
  unfold resolveName
  constructor
  · intro hu
    cases ht : s.type? n <;> cases he : s.enum? n <;> cases hn : s.union? n <;> simp_all
  · intro hu
    obtain ⟨hmem, hname⟩ := h.union?_eq_some_iff.1 hu
    have htype : s.type? n = none := by
      rw [Option.eq_none_iff_forall_ne_some]
      intro t ht
      obtain ⟨htmem, htname⟩ := h.type?_eq_some_iff.1 ht
      exact hdisjoint t.name (List.mem_append_left _ (List.mem_map_of_mem htmem)) u.name
        (List.mem_map_of_mem hmem) (htname.trans hname.symm)
    have henum : s.enum? n = none := by
      rw [Option.eq_none_iff_forall_ne_some]
      intro e he
      obtain ⟨hemem, hename⟩ := h.enum?_eq_some_iff.1 he
      exact hdisjoint e.name (List.mem_append_right _ (List.mem_map_of_mem hemem)) u.name
        (List.mem_map_of_mem hmem) (hename.trans hname.symm)
    simp [htype, henum, hu]

theorem resolveName_eq_type_iff {n : String} {t : TypeDecl} :
    s.resolveName n = .type t ↔ t ∈ s.types ∧ t.name = n :=
  resolveName_eq_type.trans h.type?_eq_some_iff

theorem declaredNames_eq : s.declaredNames = s.types.map (·.name) ++ s.unions.map (·.name) := by
  refine eraseDups_of_nodup (h.nodup.sublist ?_)
  exact (List.sublist_append_left _ _).append (List.Sublist.refl _)

theorem nodup_declaredNames : s.declaredNames.Nodup := by
  rw [h.declaredNames_eq]
  refine h.nodup.sublist ?_
  exact (List.sublist_append_left _ _).append (List.Sublist.refl _)

/-- The names of types and unions are those that a mapper can have. -/
theorem isMapped_iff {n : String} : (s.resolveName n).isMapped = true ↔ n ∈ s.declaredNames := by
  rw [declaredNames, List.mem_eraseDups, List.mem_append, List.mem_map, List.mem_map]
  constructor
  · intro hn
    cases hr : s.resolveName n with
    | type t => exact .inl ⟨t, h.resolveName_eq_type_iff.1 hr⟩
    | union u => exact .inr ⟨u, h.resolveName_eq_union_iff.1 hr⟩
    | primitive | enum | unresolved => simp [hr, Resolution.isMapped] at hn
  · rintro (⟨t, ht⟩ | ⟨u, hu⟩)
    · rw [h.resolveName_eq_type_iff.2 ht, Resolution.isMapped]
    · rw [h.resolveName_eq_union_iff.2 hu, Resolution.isMapped]

/-- Every record has a type in either facet: the limit on its members leaves room for the named
ones. -/
theorem exists_recordType {t : TypeDecl} (ht : t ∈ s.types) (f : Facet) :
    ∃ r, s.recordType f t = .ok r := by
  have hlimits := h.limits t ht
  unfold Check.limits at hlimits
  unfold recordType
  split_ifs
  · exact ⟨_, rfl⟩
  · cases hmax : t.maxProperties with
    | none => exact ⟨_, rfl⟩
    | some n =>
      rw [hmax] at hlimits
      have hroom : ¬ n < (t.definedCount : Int) := by
        intro hlt
        simp [hlt] at hlimits
      exact ⟨_, if_neg hroom⟩

end Sound

end Service

end DtoGen
