import DtoGen.Proofs.FirstWords
import DtoGen.Proofs.Steadiness

namespace DtoGen

def Signature.function (g : Signature) : String := mapperName g.name g.role

def Signature.opening (g : Signature) : String :=
  "export function " ++ g.function ++ "(" ++ g.role.parameter ++ ": "

/-- A line that opens the definition of a mapper and exports it. -/
def Signature.OpenedBy (g : Signature) (l : String) : Prop := ∃ types, l = g.opening ++ types

theorem Signature.text_eq (g : Signature) (scope : Scope) : g.text scope = g.opening ++
    (scope.declared g.role.source g.sourceSpelling ++ "): " ++
      scope.declared g.role.target g.targetSpelling) := by
  rw [← String.append_assoc, ← String.append_assoc]
  rfl

theorem Signature.firstWord_opening (g : Signature) (types : String) :
    firstWord (g.opening ++ types) = "export".toList := by
  unfold opening
  rw [String.append_assoc, String.append_assoc, String.append_assoc, String.append_assoc,
    firstWord_append _ (by decide)]
  decide

theorem Signature.function_ne {w : String} (hfrom : ¬ "mapFrom".toList <+: w.toList)
    (hto : ¬ "mapTo".toList <+: w.toList) (g : Signature) : g.function ≠ w := by
  rintro rfl
  unfold function mapperName at hfrom hto
  rw [String.toList_append] at hfrom hto
  cases hd : g.role.direction with
  | wireToInternal =>
    rw [hd] at hfrom
    exact hfrom (List.prefix_append _ _)
  | internalToWire =>
    rw [hd] at hto
    exact hto (List.prefix_append _ _)

theorem Signature.function_ne_helper (g : Signature) (h : Helper) : g.function ≠ h.name := by
  refine g.function_ne ?_ ?_ <;> cases h <;> decide +kernel

/-- The head of a mapper is an export, and no other line of it opens anything. -/
theorem Mapper.lines_eq_opening (scope : Scope) (m : Mapper) : ∃ types body,
    m.lines scope = (m.signature.opening ++ types) :: body ∧ ∀ l ∈ body, Interior l := by
  obtain ⟨body, hlines, hbody⟩ := m.lines_eq scope
  rw [m.signature.text_eq, String.append_assoc] at hlines
  exact ⟨_, body, hlines, hbody⟩

theorem Mapper.linesOf_export (scope : Scope) (m : Mapper) :
    List.Forall₂ Signature.OpenedBy [m.signature] (linesOf "export" (m.lines scope)) := by
  obtain ⟨types, body, hlines, hbody⟩ := m.lines_eq_opening scope
  have hrest : linesOf "export" body = [] := linesOf_eq_nil (by simp [openingWords]) hbody
  have hhead : linesOf "export" (m.lines scope) = [m.signature.opening ++ types] := by
    rw [hlines, linesOf, List.filter_cons, if_pos (decide_eq_true (m.signature.firstWord_opening types))]
    exact congrArg (_ :: ·) hrest
  rw [hhead]
  exact .cons ⟨types, rfl⟩ .nil

theorem Mapper.linesOf_function (scope : Scope) (m : Mapper) :
    linesOf "function" (m.lines scope) = [] := by
  obtain ⟨types, body, hlines, hbody⟩ := m.lines_eq_opening scope
  have hrest : linesOf "function" body = [] := linesOf_eq_nil (by simp [openingWords]) hbody
  have hhead : ¬ firstWord (m.signature.opening ++ types) = "function".toList := by
    rw [m.signature.firstWord_opening]
    decide
  rw [hlines, linesOf, List.filter_cons, if_neg fun h => hhead (of_decide_eq_true h)]
  exact hrest

def Helper.DefinedBy (h : Helper) (l : String) : Prop :=
  ∃ rest, l = "function " ++ h.name ++ "(" ++ rest ∨ l = "function " ++ h.name ++ "<" ++ rest

theorem Helper.linesOf_function (h : Helper) :
    List.Forall₂ Helper.DefinedBy [h] (linesOf "function" h.source) := by
  have hline : ∃ rest, linesOf "function" h.source = ["function " ++ h.name ++ "(" ++ rest] ∨
      linesOf "function" h.source = ["function " ++ h.name ++ "<" ++ rest] := by
    cases h with
    | isIsoDate | isIsoDateTime => exact ⟨"s: string): boolean \x7b", .inl (by decide +kernel)⟩
    | compact => exact ⟨"T extends object>(obj: T): T \x7b", .inr (by decide +kernel)⟩
  obtain ⟨rest, hline | hline⟩ := hline
  · rw [hline]
    exact .cons ⟨rest, .inl rfl⟩ .nil
  · rw [hline]
    exact .cons ⟨rest, .inr rfl⟩ .nil

theorem Helper.linesOf_export (h : Helper) : linesOf "export" h.source = [] := by
  cases h <;> decide +kernel

/-- Parts below empty lines, each of which has one line of the first word. -/
theorem forall₂_linesOf {α β : Type} {R : α → String → Prop} {word : String} (hword : word ≠ "")
    {f : β → α} {g : β → List String} {bs : List β}
    (h : ∀ b ∈ bs, List.Forall₂ R [f b] (linesOf word (g b))) :
    List.Forall₂ R (bs.map f) (linesOf word (bs.flatMap fun b => "" :: g b)) := by
  have hempty : ∀ ls, linesOf word ("" :: ls) = linesOf word ls := by
    intro ls
    refine List.filter_cons_of_neg fun hfirst => hword ?_
    have hfirst : "".toList = word.toList := of_decide_eq_true hfirst
    exact (String.toList_inj.1 hfirst).symm
  induction bs with
  | nil => exact .nil
  | cons b bs ih =>
    obtain ⟨hb, hrest⟩ := List.forall_mem_cons.1 h
    rw [List.flatMap_cons, linesOf_append, hempty]
    exact List.rel_append hb (ih hrest)

theorem linesOf_helpers (helpers : List Helper) :
    List.Forall₂ Helper.DefinedBy helpers (linesOf "function" (helpers.flatMap fun h => "" :: h.source)) ∧
      linesOf "export" (helpers.flatMap fun h => "" :: h.source) = [] := by
  constructor
  · have hdefined := forall₂_linesOf (by decide) fun h (_ : h ∈ helpers) => h.linesOf_function
    rwa [List.map_id'] at hdefined
  · rw [linesOf_flatMap]
    exact List.flatMap_eq_nil_iff.2 fun h _ => h.linesOf_export

theorem Expression.mapper_mem_mentions_iff {e : Expression} {c : String} :
    .mapper c ∈ e.mentions ↔ c ∈ e.conversion.calls := by
  have hcast : .mapper c ∉ (e.cast.map ElementType.mentions).getD [] := by
    cases e.cast with
    | none => simp
    | some t => cases t <;> simp [ElementType.mentions, Literal.mentions]
  rw [mentions, List.mem_append, or_iff_right hcast, Conversion.mentions_eq]
  simp

theorem RecordBody.mapper_mem_mentions_iff {b : RecordBody} {c : String} :
    .mapper c ∈ b.mentions ↔ c ∈ b.calls := by
  have hfields : ∀ fields : List Field, .mapper c ∈ fields.flatMap Field.mentions ↔
      c ∈ (fields.map (·.expression)).flatMap (·.conversion.calls) := by
    simp [Field.mentions, Expression.mapper_mem_mentions_iff]
  have hfold : ∀ f : Fold, .mapper c ∈ f.mentions ↔ c ∈ f.converted.conversion.calls := by
    simp [Fold.mentions, Expression.mapper_mem_mentions_iff]
  unfold calls
  cases b with
  | empty => simp [mentions, expressions]
  | literal fields => simp [mentions, expressions, ← hfields]
  | destructured captures fields rest =>
    cases rest with
    | none => simp [mentions, expressions, ← hfields]
    | some f => simp [mentions, expressions, List.flatMap_append, ← hfields, hfold]
  | folded f => simp [mentions, expressions, hfold]

theorem Action.mapper_mem_mentions_iff {a : Action} {c : String} :
    .mapper c ∈ a.mentions ↔ c ∈ a.calls := by
  cases a with
  | same | empty | unchecked => simp [mentions, calls]
  | convert k => simp [mentions, calls, Conversion.mentions_eq]
  | merge fields => simp [mentions, calls, Field.mentions, Expression.mapper_mem_mentions_iff]

theorem UnionBody.mapper_mem_mentions_iff {b : UnionBody} {c : String} :
    .mapper c ∈ b.mentions ↔ c ∈ b.calls := by
  cases b with
  | switch d cases => simp [mentions, calls]
  | chain bs =>
    have htests : .mapper c ∉ (Block.shown bs).flatMap Test.mentions := by
      intro hm
      obtain ⟨t, -, hm⟩ := List.mem_flatMap.1 hm
      cases t <;> simp [Test.mentions] at hm
    rw [mentions, Branching.mentions, List.mem_append, or_iff_right htests, calls, Branching.calls]
    simp [Action.mapper_mem_mentions_iff]

theorem Mapper.mapper_mem_mentions_iff {m : Mapper} {c : String} :
    .mapper c ∈ m.mentions ↔ c ∈ m.calls := by
  have hsignature : ∀ g : Signature, .mapper c ∉ g.mentions := by simp [Signature.mentions]
  cases m with
  | record m =>
    change .mapper c ∈ m.signature.mentions ++ m.body.mentions ↔ c ∈ m.body.calls
    rw [List.mem_append, or_iff_right (hsignature _), RecordBody.mapper_mem_mentions_iff]
  | union m =>
    change .mapper c ∈ m.signature.mentions ++ m.body.mentions ↔ c ∈ m.body.calls
    rw [List.mem_append, or_iff_right (hsignature _), UnionBody.mapper_mem_mentions_iff]

/-- Some line holds a call of a function, on an argument or on the items of an array. -/
def CallsIn (lines : List String) (f : String) : Prop :=
  Holds lines (f ++ "(") ∨ Holds lines (".map(" ++ f ++ ")")

theorem CallsIn.mono {as bs : List String} {f : String} (h : CallsIn as f) (hsub : as ⊆ bs) :
    CallsIn bs f :=
  h.imp (·.mono hsub) (·.mono hsub)

theorem shows_mapper_iff {scope : Scope} {lines : List String} {c : String} :
    Shows scope lines (.mapper c) ↔ CallsIn lines (scope.mapperText c) := by
  simp [Shows, CallsIn, Mention.callTexts]

namespace Artifact.Mappers

variable {s : Service} {o : Options}

theorem uses_mapper_iff (m : Mapper) (g : Signature) :
    Uses (fun w => m.lines (scope.respelled w)) g.function ↔ g.function ∈ m.calls := by
  rw [← Mapper.mapper_mem_mentions_iff]
  refine Mapper.uses_iff rfl rfl fun j hj hname => ?_
  have hgenerated := Mapper.isGenerated_of_mem hj
  cases j with
  | mapper x =>
    obtain rfl := List.mem_singleton.1 hname
    rfl
  | helper h => exact absurd (List.mem_singleton.1 hname) (g.function_ne_helper h)
  | declared f x =>
    cases f with
    | internal => exact absurd (List.mem_singleton.1 hname) (g.function_ne (by decide) (by decide))
    | wire => exact absurd (List.mem_singleton.1 hname) (g.function_ne (by decide) (by decide))
  | numeral i => cases hname
  | imported | module | member | notice => cases hgenerated

end Artifact.Mappers

end DtoGen
