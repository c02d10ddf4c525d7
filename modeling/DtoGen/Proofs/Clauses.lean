import DtoGen.Condition.Basic
import Mathlib.Tactic.Common

namespace DtoGen

section Firsts

variable {α β : Type} {key : α → String} {seen : List String} {as : List α} {a : α}

theorem exists_mem_firstsFrom (ha : a ∈ as) (hseen : key a ∉ seen) :
    ∃ b ∈ firstsFrom key seen as, key b = key a := by
  induction as generalizing seen with
  | nil => cases ha
  | cons b as ih =>
    unfold firstsFrom
    by_cases hb : seen.contains (key b) = true
    · rw [if_pos hb]
      rcases List.mem_cons.1 ha with rfl | ha
      · exact absurd (by simpa using hb) hseen
      · exact ih ha hseen
    · rw [if_neg hb]
      by_cases hkey : key b = key a
      · exact ⟨b, List.mem_cons_self, hkey⟩
      · rcases List.mem_cons.1 ha with rfl | ha
        · exact absurd rfl hkey
        · have hnew : key a ∉ key b :: seen := by simp [Ne.symm hkey, hseen]
          obtain ⟨c, hc, hca⟩ := ih ha hnew
          exact ⟨c, List.mem_cons_of_mem _ hc, hca⟩

theorem mem_of_mem_firstsFrom (h : a ∈ firstsFrom key seen as) : a ∈ as := by
  induction as generalizing seen with
  | nil => cases h
  | cons b as ih =>
    unfold firstsFrom at h
    split_ifs at h
    · exact List.mem_cons_of_mem b (ih h)
    · rcases List.mem_cons.1 h with rfl | h
      · exact List.mem_cons_self
      · exact List.mem_cons_of_mem b (ih h)

theorem firstsFrom_map (key : β → String) (f : α → β) (seen : List String) (as : List α) :
    firstsFrom key seen (as.map f) = (firstsFrom (key ∘ f) seen as).map f := by
  induction as generalizing seen with
  | nil => rfl
  | cons a as ih =>
    simp only [List.map_cons, firstsFrom, Function.comp_apply, ih]
    split_ifs <;> rfl

theorem firstsFrom_congr {key' : α → String} (h : ∀ a ∈ as, key a = key' a) :
    firstsFrom key seen as = firstsFrom key' seen as := by
  induction as generalizing seen with
  | nil => rfl
  | cons a as ih =>
    obtain ⟨ha, has⟩ := List.forall_mem_cons.1 h
    rw [firstsFrom, firstsFrom, ha, ih has, ih has]

end Firsts

namespace Condition

variable {α : Type}

mutual
def tests : Condition α → List α
  | .test a => [a]
  | .join _ cs => testsOf cs
def testsOf : List (Condition α) → List α
  | [] => []
  | c :: cs => c.tests ++ testsOf cs
end

theorem testsOf_append (cs ds : List (Condition α)) : testsOf (cs ++ ds) = testsOf cs ++ testsOf ds := by
  induction cs with
  | nil => rfl
  | cons c cs ih => rw [List.cons_append, testsOf, testsOf, ih, List.append_assoc]

theorem mem_testsOf_iff {cs : List (Condition α)} {a : α} :
    a ∈ testsOf cs ↔ ∃ c ∈ cs, a ∈ c.tests := by
  induction cs with
  | nil => simp [testsOf]
  | cons c cs ih => simp [testsOf, ih]

theorem testsOf_map {β : Type} (t : β → α) (bs : List β) :
    testsOf (bs.map fun b => .test (t b)) = bs.map t := by
  induction bs with
  | nil => rfl
  | cons b bs ih => rw [List.map_cons, testsOf, ih, tests, List.singleton_append, List.map_cons]

theorem testsOf_clausesOf (k : Connective) (c : Condition α) : testsOf (c.clausesOf k) = c.tests := by
  cases c with
  | test a => rfl
  | join j cs =>
    rw [clausesOf]
    split_ifs
    · rfl
    · rw [testsOf, testsOf, List.append_nil]

mutual
theorem tests_flatten : ∀ c : Condition α, c.flatten.tests = c.tests
  | .test _ => rfl
  | .join k cs => testsOf_flattenClauses k cs
theorem testsOf_flattenClauses (k : Connective) :
    ∀ cs : List (Condition α), testsOf (flattenClauses k cs) = testsOf cs
  | [] => rfl
  | c :: cs => by
    rw [flattenClauses, testsOf_append, testsOf_clausesOf, tests_flatten c,
      testsOf_flattenClauses k cs, testsOf]
end

def connective? : Condition α → Option Connective
  | .test _ => none
  | .join k _ => some k

/-- No clause, at any depth, is of the kind of its parent. -/
inductive Merged : Condition α → Prop where
  | test (a : α) : Merged (.test a)
  | join {k : Connective} {cs : List (Condition α)} (hkind : ∀ c ∈ cs, c.connective? ≠ some k)
    (hcs : ∀ c ∈ cs, Merged c) : Merged (.join k cs)

theorem Merged.clauses {k : Connective} {cs : List (Condition α)} (h : Merged (.join k cs)) :
    ∀ c ∈ cs, c.connective? ≠ some k ∧ c.Merged := by
  cases h with
  | join hkind hcs => exact fun c hc => ⟨hkind c hc, hcs c hc⟩

theorem Merged.of_mem_clausesOf {k : Connective} {c d : Condition α} (h : c.Merged)
    (hd : d ∈ c.clausesOf k) : d.connective? ≠ some k ∧ d.Merged := by
  cases c with
  | test a =>
    obtain rfl := List.mem_singleton.1 hd
    exact ⟨by simp [connective?], h⟩
  | join j cs =>
    rw [clausesOf] at hd
    split_ifs at hd with hjk
    · subst hjk
      exact h.clauses d hd
    · obtain rfl := List.mem_singleton.1 hd
      exact ⟨by simpa [connective?] using hjk, h⟩

mutual
theorem merged_flatten : ∀ c : Condition α, c.flatten.Merged
  | .test a => .test a
  | .join k cs => .join (fun d hd => (merged_flattenClauses k cs d hd).1)
      fun d hd => (merged_flattenClauses k cs d hd).2
theorem merged_flattenClauses (k : Connective) : ∀ cs : List (Condition α),
    ∀ d ∈ flattenClauses k cs, d.connective? ≠ some k ∧ d.Merged
  | [], _, hd => by cases hd
  | c :: cs, d, hd => by
    rcases List.mem_append.1 hd with hd | hd
    · exact (merged_flatten c).of_mem_clausesOf hd
    · exact merged_flattenClauses k cs d hd
end

theorem clausesOf_of_ne {k : Connective} {c : Condition α} (h : c.connective? ≠ some k) :
    c.clausesOf k = [c] := by
  cases c with
  | test a => rfl
  | join j cs => rw [clausesOf, if_neg (by simpa [connective?] using h)]

theorem Merged.flatten_eq {c : Condition α} (h : c.Merged) : c.flatten = c := by
  induction h with
  | test a => rfl
  | @join k cs hkind _ ih =>
    have hclauses : flattenClauses k cs = cs := by
      clear * - hkind ih
      induction cs with
      | nil => rfl
      | cons c cs ihcs =>
        obtain ⟨hc, hcs⟩ := List.forall_mem_cons.1 hkind
        obtain ⟨hflat, hflats⟩ := List.forall_mem_cons.1 ih
        rw [flattenClauses, hflat, clausesOf_of_ne hc, ihcs hcs hflats, List.singleton_append]
    rw [flatten, hclauses]

theorem flatten_flatten (c : Condition α) : c.flatten.flatten = c.flatten :=
  (merged_flatten c).flatten_eq

theorem render_flatten (c : Condition String) : c.flatten.render = c.render := by
  rw [render, flatten_flatten, render]

theorem flatten_of_mem_clauses {k : Connective} {cs : List (Condition α)} {d : Condition α}
    (hd : d ∈ flattenClauses k cs) : d.flatten = d :=
  (merged_flattenClauses k cs d hd).2.flatten_eq

/-- Induction over merged clauses: they are parts of the merged condition, and merged themselves. -/
theorem flatten_induction {P : Condition α → Prop} (test : ∀ a, P (.test a))
    (join : ∀ k cs, (∀ d ∈ flattenClauses k cs, P d) → P (.join k cs)) (c : Condition α) : P c := by
  induction hn : sizeOf c.flatten using Nat.strongRecOn generalizing c with
  | ind n ih =>
    cases c with
    | test a => exact test a
    | join k cs =>
      refine join k cs fun d hd => ih _ ?_ d rfl
      have hlt := List.sizeOf_lt_of_mem hd
      rw [flatten_of_mem_clauses hd, ← hn, flatten, Condition.join.sizeOf_spec]
      omega

/-- The text of a condition, on its own or inside another one. -/
def text : (nested : Bool) → Condition String → String
  | false, c => c.render
  | true, c => c.flatten.rendering.inside

/-- Parentheses around what stands inside another condition. -/
def parenthesize (nested : Bool) (t : String) : String := if nested then "(" ++ t ++ ")" else t

mutual
/-- A run of the recursion that renders a condition: its clauses are merged, of those that render alike
the first is kept, and each of several that are left is rendered again, inside the whole. -/
inductive Rendered : (nested : Bool) → Condition String → String → Prop where
  | test (nested : Bool) (a : String) : Rendered nested (.test a) a
  | unit {nested : Bool} {k : Connective} {cs : List (Condition String)}
    (h : Kept [] (join k cs).flatten.clauses []) : Rendered nested (.join k cs) k.unit
  | single {nested : Bool} {k : Connective} {cs : List (Condition String)} {d : Condition String}
    {t : String} (h : Kept [] (join k cs).flatten.clauses [d]) (hd : Rendered nested d t) :
    Rendered nested (.join k cs) t
  | several {nested : Bool} {k : Connective} {cs : List (Condition String)} {d e : Condition String}
    {ds : List (Condition String)} {ts : List String}
    (h : Kept [] (join k cs).flatten.clauses (d :: e :: ds)) (hts : RenderedAll (d :: e :: ds) ts) :
    Rendered nested (.join k cs) (parenthesize nested (k.operator.intercalate ts))
/-- The conditions left out of a list are those whose text, on its own, was seen before. -/
inductive Kept : (seen : List String) → List (Condition String) → List (Condition String) → Prop where
  | nil {seen : List String} : Kept seen [] []
  | repeated {seen : List String} {c : Condition String} {t : String} {cs ds : List (Condition String)}
    (hc : Rendered false c t) (ht : t ∈ seen) (h : Kept seen cs ds) : Kept seen (c :: cs) ds
  | first {seen : List String} {c : Condition String} {t : String} {cs ds : List (Condition String)}
    (hc : Rendered false c t) (ht : t ∉ seen) (h : Kept (t :: seen) cs ds) :
    Kept seen (c :: cs) (c :: ds)
inductive RenderedAll : List (Condition String) → List String → Prop where
  | nil : RenderedAll [] []
  | cons {c : Condition String} {t : String} {cs : List (Condition String)} {ts : List String}
    (hc : Rendered true c t) (h : RenderedAll cs ts) : RenderedAll (c :: cs) (t :: ts)
end

theorem renderings_eq (cs : List (Condition String)) : renderings cs = cs.map rendering := by
  induction cs with
  | nil => rfl
  | cons c cs ih => rw [renderings, ih, List.map_cons]

/-- What is left of merged clauses has the renderings that are left of theirs. -/
theorem firstsBy_renderings {k : Connective} {cs : List (Condition String)} :
    firstsBy Rendering.alone (renderings (flattenClauses k cs)) =
      (dedup (flattenClauses k cs)).map rendering := by
  have hrender : ∀ d ∈ flattenClauses k cs, (Rendering.alone ∘ rendering) d = d.render := by
    intro d hd
    rw [render, flatten_of_mem_clauses hd, Function.comp_apply]
  rw [firstsBy, renderings_eq, firstsFrom_map, firstsFrom_congr hrender]
  rfl

/-- The text of merged clauses by the texts of those left. -/
def joinTexts (nested : Bool) (k : Connective) : List (Condition String) → String
  | [] => k.unit
  | [d] => d.text nested
  | ds => parenthesize nested (k.operator.intercalate (ds.map (text true)))

theorem mem_of_mem_dedup {cs : List (Condition String)} {d : Condition String} (h : d ∈ dedup cs) :
    d ∈ cs := mem_of_mem_firstsFrom h

theorem text_join (nested : Bool) (k : Connective) (cs : List (Condition String)) :
    text nested (.join k cs) = joinTexts nested k (dedup (join k cs).flatten.clauses) := by
  have hinside : ∀ d ∈ dedup (flattenClauses k cs), d.rendering.inside = d.text true := by
    intro d hd
    rw [text, flatten_of_mem_clauses (mem_of_mem_dedup hd)]
  have halone : ∀ d ∈ dedup (flattenClauses k cs), d.rendering.alone = d.text false := by
    intro d hd
    rw [text, render, flatten_of_mem_clauses (mem_of_mem_dedup hd)]
  have htext : ∀ r, joinRenderings k (renderings (flattenClauses k cs)) = r →
      text nested (.join k cs) = if nested then r.inside else r.alone := by
    rintro r rfl
    cases nested <;> rfl
  rw [htext _ rfl, joinRenderings, firstsBy_renderings]
  change _ = joinTexts nested k (dedup (flattenClauses k cs))
  generalize dedup (flattenClauses k cs) = ds at hinside halone
  match ds with
  | [] => cases nested <;> rfl
  | [d] =>
    rw [joinTexts]
    cases nested
    · exact halone d List.mem_cons_self
    · exact hinside d List.mem_cons_self
  | d :: e :: ds =>
    have htexts := List.map_congr_left hinside
    simp only [List.map_cons, List.map_map] at htexts ⊢
    cases nested <;> simp [joinTexts, parenthesize, htexts, Function.comp_def]

/-- Where each condition of a list has its one text, so much is kept of the list. -/
theorem kept_iff {seen : List String} {cs ds : List (Condition String)}
    (h : ∀ c ∈ cs, ∀ t, Rendered false c t ↔ t = c.render) :
    Kept seen cs ds ↔ ds = firstsFrom render seen cs := by
  induction cs generalizing seen ds with
  | nil =>
    constructor
    · rintro ⟨⟩
      rfl
    · rintro rfl
      exact .nil
  | cons c cs ih =>
    obtain ⟨hc, hcs⟩ := List.forall_mem_cons.1 h
    constructor
    · intro hkept
      cases hkept with
      | repeated ht hmem hrest =>
        obtain rfl := (hc _).1 ht
        rw [firstsFrom, if_pos (by simpa using hmem), (ih hcs).1 hrest]
      | first ht hmem hrest =>
        obtain rfl := (hc _).1 ht
        rw [firstsFrom, if_neg (by simpa using hmem), ← (ih hcs).1 hrest]
    · rintro rfl
      rw [firstsFrom]
      split_ifs with hseen
      · exact .repeated ((hc _).2 rfl) (by simpa using hseen) ((ih hcs).2 rfl)
      · exact .first ((hc _).2 rfl) (by simpa using hseen) ((ih hcs).2 rfl)

theorem renderedAll_iff {cs : List (Condition String)} {ts : List String}
    (h : ∀ c ∈ cs, ∀ t, Rendered true c t ↔ t = c.text true) :
    RenderedAll cs ts ↔ ts = cs.map (text true) := by
  induction cs generalizing ts with
  | nil =>
    constructor
    · rintro ⟨⟩
      rfl
    · rintro rfl
      exact .nil
  | cons c cs ih =>
    obtain ⟨hc, hcs⟩ := List.forall_mem_cons.1 h
    constructor
    · intro hall
      cases hall with
      | cons ht hrest => rw [List.map_cons, (hc _).1 ht, (ih hcs).1 hrest]
    · rintro rfl
      exact .cons ((hc _).2 rfl) ((ih hcs).2 rfl)

theorem rendered_iff (nested : Bool) (c : Condition String) (t : String) :
    Rendered nested c t ↔ t = c.text nested := by
  induction c using flatten_induction generalizing nested t with
  | test a =>
    constructor
    · rintro ⟨⟩
      cases nested <;> rfl
    · rintro rfl
      cases nested <;> exact .test _ a
  | join k cs hclauses =>
    have hkept : ∀ ds, Kept [] (flattenClauses k cs) ds ↔ ds = dedup (flattenClauses k cs) :=
      fun ds => kept_iff fun d hd => hclauses d hd false
    have hleft : ∀ d ∈ dedup (flattenClauses k cs), ∀ inner t,
        Rendered inner d t ↔ t = d.text inner :=
      fun d hd => hclauses d (mem_of_mem_dedup hd)
    rw [text_join]
    change _ ↔ t = joinTexts nested k (dedup (flattenClauses k cs))
    generalize dedup (flattenClauses k cs) = ds at hkept hleft
    constructor
    · intro h
      cases h with
      | unit h => rw [← (hkept _).1 h, joinTexts]
      | single h hd =>
        obtain rfl := (hkept _).1 h
        exact (hleft _ List.mem_cons_self _ _).1 hd
      | several h hts =>
        obtain rfl := (hkept _).1 h
        rw [(renderedAll_iff fun d hd => hleft d hd true).1 hts]
        rfl
    · rintro rfl
      have hself := (hkept ds).2 rfl
      match ds with
      | [] => exact .unit hself
      | [d] => exact .single hself ((hleft d List.mem_cons_self _ _).2 rfl)
      | d :: e :: ds =>
        exact .several hself ((renderedAll_iff fun d hd => hleft d hd true).2 rfl)

/-- Merging clauses is a normal form that rendering respects, and the recursion that renders a condition
ends with its text. -/
theorem flatten_canonical (c : Condition String) :
    c.flatten.Merged ∧ c.flatten.flatten = c.flatten ∧ c.flatten.render = c.render ∧
      (∀ t, Rendered false c t ↔ t = c.render) ∧ ∀ t, Rendered true c t ↔ t = c.text true :=
  ⟨merged_flatten c, flatten_flatten c, render_flatten c, rendered_iff false c, rendered_iff true c⟩

end Condition

end DtoGen
