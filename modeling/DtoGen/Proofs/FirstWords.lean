import DtoGen.Proofs.WrittenCalls

namespace DtoGen

def firstWord (l : String) : List Char := l.toList.takeWhile (· ≠ ' ')

def linesOf (word : String) (lines : List String) : List String :=
  lines.filter fun l => firstWord l = word.toList

theorem linesOf_append (word : String) (as bs : List String) :
    linesOf word (as ++ bs) = linesOf word as ++ linesOf word bs :=
  List.filter_append ..

theorem linesOf_flatMap {α : Type} (word : String) (f : α → List String) (as : List α) :
    linesOf word (as.flatMap f) = as.flatMap fun a => linesOf word (f a) :=
  List.filter_flatMap ..

theorem firstWord_append {a : String} (b : String) (h : ' ' ∈ a.toList) :
    firstWord (a ++ b) = firstWord a := by
  obtain ⟨s, t, ha, hs⟩ := List.eq_append_cons_of_mem h
  have hword : ∀ c ∈ s, decide (c ≠ ' ') = true :=
    fun c hc => decide_eq_true (ne_of_mem_of_not_mem hc hs)
  simp only [firstWord, String.toList_append, ha, List.append_assoc, List.takeWhile_append_of_pos hword]
  rfl

/-- The words that open a definition, an import or an export. -/
def openingWords : List (List Char) := ["import".toList, "function".toList, "export".toList]

def Interior (l : String) : Prop := firstWord l ∉ openingWords

instance : DecidablePred Interior := fun l => inferInstanceAs (Decidable (firstWord l ∉ openingWords))

theorem interior_append {a : String} (b : String) (hblank : ' ' ∈ a.toList) (ha : Interior a) :
    Interior (a ++ b) := by
  rwa [Interior, firstWord_append b hblank]

theorem linesOf_eq_nil {word : String} {lines : List String} (hword : word.toList ∈ openingWords)
    (h : ∀ l ∈ lines, Interior l) : linesOf word lines = [] := by
  refine List.filter_eq_nil_iff.2 fun l hl => ?_
  intro hfirst
  refine h l hl ?_
  rwa [of_decide_eq_true hfirst]

theorem interior_of_mem {l : String} {c : Char} (hc : c ∈ firstWord l) (h : ∀ w ∈ openingWords, c ∉ w) :
    Interior l :=
  fun hword => h _ hword hc

namespace Naming

theorem blank_not_mem_of_isIdentifier {name : String} (h : isIdentifier name = true) :
    ' ' ∉ name.toList := by
  obtain ⟨i, hi, hname⟩ := isIdentifierChars_iff.1 h
  have hplain : ' ' ∉ i := fun hmem => absurd (forall_isTail hi ' ' hmem) (by decide)
  rcases hname with hname | hname
  · rwa [hname]
  · rw [hname]
    simpa using hplain

/-- A line that begins with a key opens nothing: a key is quoted, or ends in front of a mark. -/
theorem interior_memberKey (name : String) {s : String} {c : Char} (hs : s.toList.head? = some c)
    (hmark : c = ',' ∨ c = ':') : Interior (memberKey name ++ s) := by
  obtain ⟨cs, hs⟩ := List.head?_eq_some_iff.1 hs
  have hword : c ≠ ' ' ∧ ∀ w ∈ openingWords, c ∉ w := by
    rcases hmark with rfl | rfl <;> decide
  unfold memberKey
  split_ifs with hi
  · -- the mark belongs to the first word
    refine interior_of_mem (c := c) ?_ hword.2
    have hkey : ∀ d ∈ name.toList, decide (d ≠ ' ') = true := by
      intro d hd
      refine decide_eq_true fun hblank => ?_
      exact blank_not_mem_of_isIdentifier hi (hblank ▸ hd)
    rw [firstWord, String.toList_append, List.takeWhile_append_of_pos hkey, hs,
      List.takeWhile_cons_of_pos (by simpa using hword.1)]
    simp
  · refine interior_of_mem (c := '\'') ?_ (by decide)
    simp [firstWord, Text.quote, Text.quoted]

end Naming

namespace Block

variable {α σ : Type} {f : α → String} {g : σ → List String}

theorem interior_closing (l : String) : Interior ("\x7d " ++ l) := interior_append l (by decide) (by decide)

theorem interior_if (c : String) : Interior ("if (" ++ c ++ ") \x7b") := by
  rw [String.append_assoc]
  exact interior_append _ (by decide) (by decide)

theorem interior_elseIf (c : String) : Interior ("else if (" ++ c ++ ") \x7b") := by
  rw [String.append_assoc]
  exact interior_append _ (by decide) (by decide)

theorem interior_joinElse {ls : List String} (h : ∀ l ∈ ls, Interior l) : ∀ l ∈ joinElse ls, Interior l := by
  fun_induction joinElse ls with
  | case1 => exact h
  | case2 k => exact h
  | case3 k m rest hjoin ih =>
    have hrest := ih fun l hl => h l (List.mem_cons_of_mem _ (List.mem_cons_of_mem _ hl))
    exact List.forall_mem_cons.2 ⟨interior_closing m, hrest⟩
  | case4 k m rest hjoin ih =>
    obtain ⟨hk, hrest⟩ := List.forall_mem_cons.1 h
    exact List.forall_mem_cons.2 ⟨hk, ih hrest⟩

theorem interior_branch {opening : String} {body later : List String} (hopening : Interior opening)
    (hbody : ∀ l ∈ body, Interior l) (hlater : ∀ l ∈ later, Interior l) :
    ∀ l ∈ opening :: body ++ "\x7d" :: later, Interior l := by
  refine List.forall_mem_append.2 ⟨List.forall_mem_cons.2 ⟨hopening, hbody⟩, ?_⟩
  exact List.forall_mem_cons.2 ⟨by decide, hlater⟩

mutual
theorem interior_bodyLines : ∀ b : Block α σ, (∀ x ∈ b.statements, ∀ l ∈ g x, Interior l) →
    ∀ l ∈ (b.map f g).bodyLines, Interior l
  | .leaf _ body, h => by
    intro l hl
    obtain ⟨x, hx, hl⟩ := List.mem_flatMap.1 hl
    exact h x hx l hl
  | .nested _ bs, h => (interior_lines bs h).1
theorem interior_lines : ∀ bs : List (Block α σ), (∀ x ∈ statementsOf bs, ∀ l ∈ g x, Interior l) →
    (∀ l ∈ lines (mapAll f g bs), Interior l) ∧
      ∀ l ∈ laterBranches (branches (mapAll f g bs)), Interior l
  | [], _ => ⟨List.forall_mem_nil _, List.forall_mem_nil _⟩
  | [b], h => by
    have hbody : ∀ l ∈ (b.map f g).bodyLines, Interior l :=
      interior_bodyLines b fun x hx => h x (List.mem_append_left _ hx)
    simp only [mapAll, lines, branches, chain, laterBranches]
    refine ⟨hbody, List.forall_mem_append.2 ⟨List.forall_mem_cons.2 ⟨by decide, hbody⟩, ?_⟩⟩
    decide
  | b :: c :: bs, h => by
    have hbody : ∀ l ∈ (b.map f g).bodyLines, Interior l :=
      interior_bodyLines b fun x hx => h x (List.mem_append_left _ hx)
    have hlater := (interior_lines (c :: bs) fun x hx => h x (List.mem_append_right _ hx)).2
    simp only [mapAll] at hlater ⊢
    rw [lines_cons_cons, laterBranches_cons_cons]
    exact ⟨interior_joinElse (interior_branch (interior_if _) hbody hlater),
      interior_branch (interior_elseIf _) hbody hlater⟩
end

end Block

variable {scope : Scope}

theorem Field.interior_text (f : Field) : Interior (f.text scope) := by
  unfold text
  simp only
  split_ifs
  · exact Naming.interior_memberKey f.name (s := ",") rfl (.inl rfl)
  · rw [String.append_assoc, String.append_assoc]
    exact Naming.interior_memberKey f.name (by simp) (.inr rfl)

theorem Capture.interior_text (c : Capture) : Interior c.text := by
  unfold text
  simp only
  split_ifs
  · exact Naming.interior_memberKey c.name (s := ",") rfl (.inl rfl)
  · rw [String.append_assoc, String.append_assoc]
    exact Naming.interior_memberKey c.name (by simp) (.inr rfl)

theorem interior_fields {opening : String} (hblank : ' ' ∈ opening.toList) (ho : Interior opening)
    (fields : List Field) {ending : List String} (he : ∀ l ∈ ending, Interior l) :
    ∀ l ∈ (opening ++ scope.written Helper.compact.name ++ "(\x7b") ::
      fields.map (·.text scope) ++ ending, Interior l := by
  refine List.forall_mem_append.2 ⟨List.forall_mem_cons.2 ⟨?_, fun l hl => ?_⟩, he⟩
  · rw [String.append_assoc]
    exact interior_append _ hblank ho
  · obtain ⟨f, -, rfl⟩ := List.mem_map.1 hl
    exact f.interior_text

theorem Fold.interior_lines (f : Fold) (source initial : String) :
    ∀ l ∈ f.lines scope source initial, Interior l := by
  simp only [lines, List.forall_mem_cons, String.append_assoc]
  exact ⟨interior_append _ (by decide) (by decide), interior_append _ (by decide) (by decide), by decide,
    interior_append _ (by decide) (by decide), List.forall_mem_nil _⟩

theorem RecordBody.interior_lines (b : RecordBody) (parameter : String) :
    ∀ l ∈ b.lines scope parameter, Interior l := by
  have hreturn : ∀ fields, ∀ l ∈ fieldLines scope "return " fields, Interior l :=
    fun fields => interior_fields (by decide) (by decide) fields (by decide)
  have hcaptured : ∀ captures : List Capture, ∀ l ∈ captures.map Capture.text, Interior l := by
    intro captures l hl
    obtain ⟨c, -, rfl⟩ := List.mem_map.1 hl
    exact c.interior_text
  have hend : Interior ("\x7d = " ++ parameter ++ ";") := by
    rw [String.append_assoc]
    exact interior_append _ (by decide) (by decide)
  cases b with
  | empty => exact List.forall_mem_singleton.2 (by decide)
  | literal fields => exact hreturn fields
  | folded fold => exact fold.interior_lines _ _
  | destructured captures fields rest =>
    cases rest with
    | none =>
      simp only [lines, List.forall_mem_append, List.forall_mem_cons]
      exact ⟨⟨⟨by decide, hcaptured captures⟩, hend, by decide, List.forall_mem_nil _⟩,
        hreturn fields⟩
    | some fold =>
      have hdefined : ∀ l ∈ fieldLines scope "const __defined__ = " fields, Interior l :=
        interior_fields (by decide) (by decide) fields (by decide)
      simp only [lines, List.forall_mem_append, List.forall_mem_cons]
      exact ⟨⟨⟨⟨by decide, hcaptured captures⟩, by decide, hend, by decide, List.forall_mem_nil _⟩,
        hdefined⟩,
        by decide, fold.interior_lines _ _⟩

theorem Action.interior_lines (a : Action) (parameter : String) : ∀ l ∈ a.lines scope parameter, Interior l := by
  cases a with
  | same | unchecked | convert =>
    simp only [lines, List.forall_mem_singleton, String.append_assoc]
    exact interior_append _ (by decide) (by decide)
  | empty => exact List.forall_mem_singleton.2 (by decide)
  | merge fields =>
    refine List.forall_mem_cons.2 ⟨?_, interior_fields (by decide) (by decide) fields (by decide)⟩
    simp only [String.append_assoc]
    exact interior_append _ (by decide) (by decide)

theorem UnionBody.interior_lines (b : UnionBody) (parameter : String) :
    ∀ l ∈ b.lines scope parameter, Interior l := by
  cases b with
  | switch d cases =>
    simp only [lines, List.forall_mem_append, List.forall_mem_cons, String.append_assoc]
    refine ⟨⟨interior_append _ (by decide) (by decide), fun l hl => ?_⟩, by decide, by decide,
      List.forall_mem_nil _⟩
    obtain ⟨c, -, rfl⟩ := List.mem_map.1 hl
    exact interior_append _ (by decide) (by decide)
  | chain bs => exact (Block.interior_lines bs fun a _ => a.interior_lines parameter).1

/-- The head of a mapper is the only line of it that opens something. -/
theorem Mapper.lines_eq (scope : Scope) (m : Mapper) : ∃ body, m.lines scope =
    (m.signature.text scope ++ " \x7b") :: body ∧ ∀ l ∈ body, Interior l := by
  cases m with
  | record m =>
    refine ⟨_, rfl, List.forall_mem_append.2 ⟨m.body.interior_lines _, by decide⟩⟩
  | union m =>
    refine ⟨_, rfl, List.forall_mem_append.2 ⟨m.body.interior_lines _, by decide⟩⟩

namespace Frame

variable {f : Frame} {ms : List Mention}

theorem interior_banner : ∀ l ∈ f.banner, Interior l := by
  have htitle : Interior (" * Service: " ++ f.service.title ++ " v" ++ toString f.service.majorVersion) := by
    rw [String.append_assoc, String.append_assoc]
    exact interior_append _ (by decide) (by decide)
  simp only [banner, List.forall_mem_cons]
  exact ⟨by decide, by decide, by decide, by decide, htitle, by decide, by decide,
    List.forall_mem_nil _⟩

theorem firstWord_importWord (typeOnly : Bool) {sep : String}
    (hsep : sep.toList.takeWhile (· ≠ ' ') = []) (hblank : ' ' ∈ sep.toList) (rest : String) :
    firstWord (importWord typeOnly ++ sep ++ rest) = "import".toList := by
  cases typeOnly with
  | true =>
    rw [String.append_assoc]
    exact firstWord_append _ (by decide)
  | false =>
    have hword : ∀ c ∈ (importWord false).toList, decide (c ≠ ' ') = true := by
      simp [importWord]
    rw [firstWord_append rest (by simp [hblank]), firstWord, String.toList_append,
      List.takeWhile_append_of_pos hword, hsep, List.append_nil]
    rfl

theorem firstWord_moduleLine (a : String) (m : ModuleImport) :
    firstWord (moduleLine a m) = "import".toList := by
  unfold moduleLine
  rw [String.append_assoc, String.append_assoc, String.append_assoc]
  exact firstWord_importWord m.typeOnly (by decide) (by decide) _

theorem firstWord_packageLine (p : String × Bool) (ms : List Mention) :
    firstWord (packageLine p ms) = "import".toList := by
  unfold packageLine
  rw [String.append_assoc, String.append_assoc, String.append_assoc]
  exact firstWord_importWord p.2 (by decide) (by decide) _

theorem firstWord_of_mem_importLines {l : String} (hl : l ∈ f.importLines ms) :
    firstWord l = "import".toList := by
  rcases List.mem_append.1 hl with hl | hl
  · obtain ⟨p, -, rfl⟩ := List.mem_map.1 hl
    exact firstWord_packageLine p ms
  · obtain ⟨a, -, hl⟩ := List.mem_filterMap.1 hl
    obtain ⟨m, -, rfl⟩ := Option.map_eq_some_iff.1 hl
    exact firstWord_moduleLine a m

end Frame

end DtoGen
