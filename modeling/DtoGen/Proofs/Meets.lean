import DtoGen.Artifact.Basic
import Mathlib.Tactic.Common
import Mathlib.Data.List.Forall2

namespace DtoGen

section Related

variable {α β : Type} {S : α → β → Prop} {as : List α} {bs : List β}

theorem exists_related_of_mem_left (h : List.Forall₂ S as bs) {a : α} (ha : a ∈ as) :
    ∃ b ∈ bs, S a b := by
  induction h with
  | nil => cases ha
  | cons hab _ ih =>
    rcases List.mem_cons.1 ha with rfl | ha
    · exact ⟨_, List.mem_cons_self, hab⟩
    · obtain ⟨b, hb, hS⟩ := ih ha
      exact ⟨b, List.mem_cons_of_mem _ hb, hS⟩

theorem exists_related_of_mem_right (h : List.Forall₂ S as bs) {b : β} (hb : b ∈ bs) :
    ∃ a ∈ as, S a b :=
  exists_related_of_mem_left h.flip hb

theorem exists_related_of_getElem? (h : List.Forall₂ S as bs) {i : Nat} {b : β}
    (hb : bs[i]? = some b) : ∃ a, as[i]? = some a ∧ S a b := by
  induction h generalizing i with
  | nil => simp at hb
  | cons hab _ ih =>
    cases i with
    | zero =>
      obtain rfl := Option.some.inj hb
      exact ⟨_, rfl, hab⟩
    | succ i => exact ih hb

end Related

namespace Journal

variable {ε α β : Type} {P : Mention → Prop} {E : ε → Prop}

theorem mentions_subset_bind (x : Journal ε α) (f : α → Journal ε β) :
    x.mentions ⊆ (x.bind f).mentions := by
  unfold Journal.bind
  cases x.result with
  | ok a => exact List.subset_append_left _ _
  | error e => exact List.Subset.refl _

structure Meets (x : Journal ε α) (P : Mention → Prop) (E : ε → Prop) (R : α → Prop) : Prop where
  mentions : ∀ m ∈ x.mentions, P m
  ok : ∀ a, x.result = .ok a → R a
  error : ∀ e, x.result = .error e → E e

namespace Meets

variable {R : α → Prop} {S : β → Prop}

theorem mono {x : Journal ε α} {R' : α → Prop} (h : x.Meets P E R) (hR : ∀ a, R a → R' a) :
    x.Meets P E R' :=
  ⟨h.mentions, fun a ha => hR a (h.ok a ha), h.error⟩

theorem mono_error {x : Journal ε α} {E' : ε → Prop} (h : x.Meets P E R) (hE : ∀ e, E e → E' e) :
    x.Meets P E' R :=
  ⟨h.mentions, h.ok, fun e he => hE e (h.error e he)⟩

theorem self {x : Journal ε α} (h : x.Meets P E R) :
    x.Meets P (fun e => x.result = .error e ∧ E e) fun a => x.result = .ok a ∧ R a :=
  ⟨h.mentions, fun a ha => ⟨ha, h.ok a ha⟩, fun e he => ⟨he, h.error e he⟩⟩

theorem exists_ok {x : Journal ε α} (h : x.Meets P (fun _ => False) R) :
    ∃ a, x.result = .ok a ∧ R a := by
  cases hx : x.result with
  | ok a => exact ⟨a, rfl, h.ok a hx⟩
  | error e => exact (h.error e hx).elim

theorem record {a : α} {ms : List Mention} (hms : ∀ m ∈ ms, P m) (ha : R a) :
    (record a ms : Journal ε α).Meets P E R where
  mentions := hms
  ok b hb := by
    cases hb
    exact ha
  error e he := by cases he

theorem pure {a : α} (ha : R a) : (Journal.pure a : Journal ε α).Meets P E R :=
  record (by simp) ha

theorem note {ms : List Mention} (hms : ∀ m ∈ ms, P m) :
    (note ms : Journal ε Unit).Meets P E fun _ => True :=
  record hms trivial

theorem fail {e : ε} (he : E e) : (fail e : Journal ε α).Meets P E R where
  mentions m hm := by cases hm
  ok a ha := by cases ha
  error e' he' := by
    cases he'
    exact he

theorem ofExcept {x : Except ε α} (hok : ∀ a, x = .ok a → R a) (herror : ∀ e, x = .error e → E e) :
    (ofExcept x).Meets P E R where
  mentions m hm := by cases hm
  ok := hok
  error := herror

theorem mapError {ε' : Type} {E' : ε' → Prop} {f : ε → ε'} {x : Journal ε α} (h : x.Meets P E R)
    (hE : ∀ e, E e → E' (f e)) : (x.mapError f).Meets P E' R := by
  unfold Journal.mapError
  cases hx : x.result with
  | ok a =>
    refine ⟨h.mentions, fun b hb => ?_, fun e he => ?_⟩
    · cases hb
      exact h.ok a hx
    · cases he
  | error e =>
    refine ⟨h.mentions, fun b hb => ?_, fun e' he' => ?_⟩
    · cases hb
    · cases he'
      exact hE e (h.error e hx)

theorem stopAt {x : Journal ε α} (h : x.Meets P E R) (stops : Mention → Bool) (e : ε) :
    (x.stopAt stops e).Meets P (fun e' => E e' ∨ e' = e ∧ ∃ m ∈ x.mentions, stops m = true) R := by
  unfold Journal.stopAt
  split_ifs with hstops
  · refine ⟨fun m hm => ?_, nofun, fun e' he' => ?_⟩
    · exact h.mentions m ((List.takeWhile_sublist _).subset hm)
    · obtain rfl := Except.error.inj he'
      exact .inr ⟨rfl, List.any_eq_true.1 hstops⟩
  · exact h.mono_error fun e' he' => .inl he'

theorem bind {x : Journal ε α} {f : α → Journal ε β} (hx : x.Meets P E R)
    (hf : ∀ a, R a → (f a).Meets P E S) : (x.bind f).Meets P E S := by
  unfold Journal.bind
  cases h : x.result with
  | error e =>
    refine ⟨hx.mentions, fun b hb => ?_, fun e' he' => ?_⟩
    · cases hb
    · cases he'
      exact hx.error e h
  | ok a =>
    have ha := hf a (hx.ok a h)
    refine ⟨fun m hm => ?_, ha.ok, ha.error⟩
    rcases List.mem_append.1 hm with hm | hm
    · exact hx.mentions m hm
    · exact ha.mentions m hm

theorem traverse {f : α → Journal ε β} {S : α → β → Prop} {as : List α}
    (h : ∀ a ∈ as, (f a).Meets P E (S a)) :
    (traverse f as).Meets P E fun bs => List.Forall₂ S as bs := by
  induction as with
  | nil => exact pure .nil
  | cons a as ih =>
    have hrest := ih fun b hb => h b (List.mem_cons_of_mem a hb)
    refine bind (h a List.mem_cons_self) fun b hb => ?_
    exact bind hrest fun bs hbs => pure (.cons hb hbs)

theorem concat {f : α → Journal ε (List String)} {S : α → List String → Prop} {as : List α}
    (h : ∀ a ∈ as, (f a).Meets P E (S a)) :
    (concat f as).Meets P E fun ls => ∃ parts, List.Forall₂ S as parts ∧ ls = parts.flatten :=
  bind (traverse h) fun parts hparts => pure ⟨parts, hparts, rfl⟩

theorem append {x y : Journal ε (List String)} {R S : List String → Prop} (hx : x.Meets P E R)
    (hy : y.Meets P E S) : (x ++ y).Meets P E fun ls => ∃ a b, R a ∧ S b ∧ ls = a ++ b :=
  bind hx fun a ha => bind hy fun b hb => pure ⟨a, b, ha, hb, rfl⟩

end Meets

end Journal

end DtoGen
