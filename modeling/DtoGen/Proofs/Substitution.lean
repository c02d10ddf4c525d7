import Mathlib.Data.List.Basic
import Mathlib.Tactic.Common

namespace DtoGen.Text

/-- Some text in front of a rest is the longest match of a pattern there. -/
structure Longest (p : List Char → Prop) (m rest : List Char) : Prop where
  matched : p m
  nonempty : m ≠ []
  longest : ∀ m', p m' → m' <+: m ++ rest → m'.length ≤ m.length

/-- A text, and what it becomes where each match `m` of a pattern is replaced by `f m`. -/
inductive Substituted (p : List Char → Prop) (f : List Char → List Char) :
    List Char → List Char → Prop where
  | nil : Substituted p f [] []
  | hit {m s t : List Char} (hm : Longest p m s) (hs : Substituted p f s t) :
    Substituted p f (m ++ s) (f m ++ t)
  | keep {c : Char} {s t : List Char} (hnone : ∀ m, p m → ¬ m <+: c :: s) (hs : Substituted p f s t) :
    Substituted p f (c :: s) (c :: t)

variable {p : List Char → Prop} {f g : List Char → List Char} {m s r : List Char} {c : Char}

theorem Longest.append_inj {m' s' : List Char} (hm : Longest p m s) (hm' : Longest p m' s')
    (h : m ++ s = m' ++ s') : m = m' ∧ s = s' := by
  have hle := hm'.longest m hm.matched ⟨s, h⟩
  have hge := hm.longest m' hm'.matched ⟨s', h.symm⟩
  exact List.append_inj h (by omega)

theorem substituted_nil_iff : Substituted p f [] r ↔ r = [] := by
  constructor
  · intro h
    generalize hx : ([] : List Char) = x at h
    cases h with
    | nil => rfl
    | hit hm _ => exact absurd (List.append_eq_nil_iff.1 hx.symm).1 hm.nonempty
    | keep => cases hx
  · rintro rfl
    exact .nil

theorem substituted_hit_iff (hm : Longest p m s) :
    Substituted p f (m ++ s) r ↔ ∃ t, r = f m ++ t ∧ Substituted p f s t := by
  constructor
  · intro h
    generalize hx : m ++ s = x at h
    cases h with
    | nil => exact absurd (List.append_eq_nil_iff.1 hx).1 hm.nonempty
    | @hit m' s' t hm' hs =>
      obtain ⟨rfl, rfl⟩ := hm.append_inj hm' hx
      exact ⟨t, rfl, hs⟩
    | keep hnone _ => exact absurd ⟨s, hx⟩ (hnone m hm.matched)
  · rintro ⟨t, rfl, hs⟩
    exact .hit hm hs

theorem substituted_keep_iff (hnone : ∀ m, p m → ¬ m <+: c :: s) :
    Substituted p f (c :: s) r ↔ ∃ t, r = c :: t ∧ Substituted p f s t := by
  constructor
  · intro h
    generalize hx : c :: s = x at h
    cases h with
    | nil => cases hx
    | @hit m s' t hm _ => exact absurd ⟨s', hx.symm⟩ (hnone m hm.matched)
    | @keep d s' t _ hs =>
      obtain ⟨rfl, rfl⟩ := List.cons.inj hx
      exact ⟨t, rfl, hs⟩
  · rintro ⟨t, rfl, hs⟩
    exact .keep hnone hs

theorem Substituted.unique {r' : List Char} (h : Substituted p f s r) (h' : Substituted p f s r') :
    r = r' := by
  induction h generalizing r' with
  | nil => exact (substituted_nil_iff.1 h').symm
  | hit hm _ ih =>
    obtain ⟨t, rfl, ht⟩ := (substituted_hit_iff hm).1 h'
    rw [ih ht]
  | keep hnone _ ih =>
    obtain ⟨t, rfl, ht⟩ := (substituted_keep_iff hnone).1 h'
    rw [ih ht]

theorem substituted_iff (h : Substituted p f s (g s)) : Substituted p f s r ↔ r = g s := by
  constructor
  · exact fun h' => h'.unique h
  · rintro rfl
    exact h

end DtoGen.Text
