import DtoGen.Proofs.Accounts

namespace DtoGen

def Within (a b : String) : Prop := ∃ x y, b = x ++ a ++ y

namespace Within

variable {a b c : String}

theorem refl (a : String) : Within a a := ⟨"", "", by simp⟩

theorem trans (hab : Within a b) (hbc : Within b c) : Within a c := by
  obtain ⟨x, y, rfl⟩ := hab
  obtain ⟨z, t, rfl⟩ := hbc
  exact ⟨z ++ x, y ++ t, by simp only [String.append_assoc]⟩

theorem append_left (h : Within a b) (c : String) : Within a (c ++ b) :=
  h.trans ⟨c, "", by simp⟩

theorem append_right (h : Within a b) (c : String) : Within a (b ++ c) :=
  h.trans ⟨"", c, by simp⟩

theorem intercalate {sep t : String} {ts : List String} (h : t ∈ ts) :
    Within t (sep.intercalate ts) := by
  induction ts with
  | nil => cases h
  | cons u ts ih =>
    cases ts with
    | nil =>
      obtain rfl := List.mem_singleton.1 h
      rw [String.intercalate_singleton]
      exact refl t
    | cons v ts =>
      rw [String.intercalate_cons_cons]
      rcases List.mem_cons.1 h with rfl | h
      · exact ((refl t).append_right _).append_right _
      · exact (ih h).append_left _

theorem length_le (h : Within a b) : a.length ≤ b.length := by
  obtain ⟨x, y, rfl⟩ := h
  simp only [String.length_append]
  omega

end Within

def Holds (lines : List String) (t : String) : Prop := ∃ l ∈ lines, Within t l

theorem not_holds_nil (t : String) : ¬ Holds [] t := by simp [Holds]

theorem Holds.mono {as bs : List String} {t : String} (h : Holds as t) (hsub : as ⊆ bs) :
    Holds bs t := by
  obtain ⟨l, hl, ht⟩ := h
  exact ⟨l, hsub hl, ht⟩

namespace Condition

variable {α β : Type}

mutual
theorem tests_map (f : α → β) : ∀ c : Condition α, (c.map f).tests = c.tests.map f
  | .test _ => rfl
  | .join _ cs => testsOf_mapClauses f cs
theorem testsOf_mapClauses (f : α → β) :
    ∀ cs : List (Condition α), testsOf (mapClauses f cs) = (testsOf cs).map f
  | [] => rfl
  | c :: cs => by
    rw [mapClauses, testsOf, testsOf, List.map_append, tests_map f c, testsOf_mapClauses f cs]
end

/-- Joined clauses hold the text of each of them, which is kept once, and so they do in parentheses. -/
theorem within_joinRenderings (k : Connective) {rs : List Rendering}
    (hinside : ∀ r ∈ rs, Within r.alone r.inside) :
    Within (joinRenderings k rs).alone (joinRenderings k rs).inside ∧
      ∀ r ∈ rs, Within r.alone (joinRenderings k rs).alone := by
  have hkept : ∀ r ∈ rs, ∃ q ∈ firstsBy Rendering.alone rs, q.alone = r.alone :=
    fun r hr => exists_mem_firstsFrom hr List.not_mem_nil
  have hfrom : ∀ q ∈ firstsBy Rendering.alone rs, Within q.alone q.inside :=
    fun q hq => hinside q (mem_of_mem_firstsFrom hq)
  unfold joinRenderings
  generalize firstsBy Rendering.alone rs = qs at hkept hfrom
  match qs with
  | [] =>
    refine ⟨Within.refl _, fun r hr => ?_⟩
    obtain ⟨q, hq, -⟩ := hkept r hr
    cases hq
  | [q] =>
    refine ⟨hfrom q List.mem_cons_self, fun r hr => ?_⟩
    obtain ⟨q', hq, heq⟩ := hkept r hr
    obtain rfl := List.mem_singleton.1 hq
    exact heq ▸ Within.refl _
  | q :: q' :: qs =>
    refine ⟨((Within.refl _).append_left _).append_right _, fun r hr => ?_⟩
    obtain ⟨p, hp, heq⟩ := hkept r hr
    rw [← heq]
    exact (hfrom p hp).trans (Within.intercalate (List.mem_map_of_mem hp))

mutual
theorem within_rendering : ∀ c : Condition String, Within c.rendering.alone c.rendering.inside ∧
    ∀ t ∈ c.tests, Within t c.rendering.alone
  | .test a => by
    refine ⟨Within.refl a, fun t ht => ?_⟩
    obtain rfl := List.mem_singleton.1 ht
    exact Within.refl t
  | .join k cs => by
    obtain ⟨hinside, htests⟩ := within_renderings cs
    obtain ⟨hparens, hclauses⟩ := within_joinRenderings k hinside
    refine ⟨hparens, fun t ht => ?_⟩
    obtain ⟨r, hr, htr⟩ := htests t ht
    exact htr.trans (hclauses r hr)
theorem within_renderings : ∀ cs : List (Condition String),
    (∀ r ∈ renderings cs, Within r.alone r.inside) ∧
      ∀ t ∈ testsOf cs, ∃ r ∈ renderings cs, Within t r.alone
  | [] => ⟨by simp [renderings], by simp [testsOf]⟩
  | c :: cs => by
    obtain ⟨hc, hctests⟩ := within_rendering c
    obtain ⟨hcs, hcstests⟩ := within_renderings cs
    refine ⟨List.forall_mem_cons.2 ⟨hc, hcs⟩, fun t ht => ?_⟩
    rcases List.mem_append.1 ht with ht | ht
    · exact ⟨c.rendering, List.mem_cons_self, hctests t ht⟩
    · obtain ⟨r, hr, htr⟩ := hcstests t ht
      exact ⟨r, List.mem_cons_of_mem _ hr, htr⟩
end

theorem within_render {f : α → String} {c : Condition α} {a : α} (ha : a ∈ c.tests) :
    Within (f a) (c.map f).render := by
  refine (within_rendering (c.map f).flatten).2 (f a) ?_
  rw [tests_flatten, tests_map]
  exact List.mem_map_of_mem ha

end Condition

namespace Block

variable {α σ : Type} {f : α → String} {g : σ → List String}

theorem Holds.joinElse {ls : List String} {t : String} (h : Holds ls t) : Holds (joinElse ls) t := by
  obtain ⟨l, hl, ht⟩ := h
  fun_induction Block.joinElse ls with
  | case1 => cases hl
  | case2 k => exact ⟨l, hl, ht⟩
  | case3 k m rest hjoin ih =>
    simp only [Bool.and_eq_true, decide_eq_true_eq] at hjoin
    rcases List.mem_cons.1 hl with rfl | hl
    · rw [hjoin.1] at ht
      exact ⟨_, List.mem_cons_self, (ht.append_right " ").append_right m⟩
    · rcases List.mem_cons.1 hl with rfl | hl
      · exact ⟨_, List.mem_cons_self, ht.append_left _⟩
      · obtain ⟨l', hl', ht'⟩ := ih hl
        exact ⟨l', List.mem_cons_of_mem _ hl', ht'⟩
  | case4 k m rest hjoin ih =>
    rcases List.mem_cons.1 hl with rfl | hl
    · exact ⟨l, List.mem_cons_self, ht⟩
    · obtain ⟨l', hl', ht'⟩ := ih hl
      exact ⟨l', List.mem_cons_of_mem _ hl', ht'⟩

/-- A branch with others after it holds the tests of its condition and what stands in either part. -/
theorem holds_branch {b : Block α σ} {opening t : String} {later : List String}
    (hopening : Within (b.map f g).condition.render opening)
    (h : t ∈ b.condition.tests.map f ∨ Holds (b.map f g).bodyLines t ∨ Holds later t) :
    Holds (opening :: (b.map f g).bodyLines ++ "\x7d" :: later) t := by
  rcases h with ht | ht | ht
  · obtain ⟨a, ha, rfl⟩ := List.mem_map.1 ht
    have hshown : Within (f a) (b.map f g).condition.render := by
      rw [condition_map]
      exact Condition.within_render ha
    exact ⟨opening, List.mem_cons_self, hshown.trans hopening⟩
  · refine ht.mono fun l hl => ?_
    exact List.mem_cons_of_mem _ (List.mem_append_left _ hl)
  · refine ht.mono fun l hl => ?_
    exact List.mem_cons_of_mem _ (List.mem_append_right _ (List.mem_cons_of_mem _ hl))

mutual
theorem holds_bodyLines : ∀ (b : Block α σ) {t : String},
    t ∈ b.shownInside.map f ∨ t ∈ b.statements.flatMap g → Holds (b.map f g).bodyLines t
  | .leaf _ _, t, h => ⟨t, h.resolve_left List.not_mem_nil, Within.refl t⟩
  | .nested _ bs, _, h => (holds_lines bs h).1
/-- The lines of a chain hold the tests that it shows and its statements, from its start and after
others. -/
theorem holds_lines : ∀ (bs : List (Block α σ)) {t : String},
    t ∈ (shown bs).map f ∨ t ∈ (statementsOf bs).flatMap g →
    Holds (lines (mapAll f g bs)) t ∧ Holds (laterBranches (branches (mapAll f g bs))) t
  | [], _, h => by simp [shown, statementsOf] at h
  | [b], t, h => by
    have hbody : Holds (b.map f g).bodyLines t :=
      holds_bodyLines b (by simpa [shown, statementsOf] using h)
    simp only [mapAll, lines, branches, chain, laterBranches]
    exact ⟨hbody, hbody.mono fun l hl => List.mem_cons_of_mem _ (List.mem_append_left _ hl)⟩
  | b :: c :: bs, t, h => by
    have hparts : t ∈ b.condition.tests.map f ∨ Holds (b.map f g).bodyLines t ∨
        Holds (laterBranches (branches (mapAll f g (c :: bs)))) t := by
      rw [shown, statementsOf, List.map_append, List.map_append, List.flatMap_append, List.mem_append,
        List.mem_append, List.mem_append] at h
      rcases h with (ht | ht | ht) | ht | ht
      · exact .inl ht
      · exact .inr (.inl (holds_bodyLines b (.inl ht)))
      · exact .inr (.inr (holds_lines (c :: bs) (.inl ht)).2)
      · exact .inr (.inl (holds_bodyLines b (.inr ht)))
      · exact .inr (.inr (holds_lines (c :: bs) (.inr ht)).2)
    have hopening : ∀ x y, Within (b.map f g).condition.render
        (x ++ (b.map f g).condition.render ++ y) := fun x y => ⟨x, y, rfl⟩
    simp only [mapAll] at hparts ⊢
    rw [lines_cons_cons, laterBranches_cons_cons]
    exact ⟨Holds.joinElse (holds_branch (hopening _ _) hparts), holds_branch (hopening _ _) hparts⟩
end

end Block

namespace Mention

/-- The name of a helper or of a mapper, which is mentioned where it is called. -/
def callName? : Mention → Option String
  | .helper h => some h.name
  | .mapper x => some x
  | _ => none

/-- The texts of a call, one of which stands where it is written: a name in front of an argument, or
handed to an array. -/
def callTexts (scope : Scope) : Mention → List String
  | .helper h => [scope.written h.name ++ "("]
  | .mapper x => [scope.mapperText x ++ "(", ".map(" ++ scope.mapperText x ++ ")"]
  | _ => []

/-- A mention of something that is generated as well, or of an integer. -/
def isGenerated : Mention → Bool
  | .declared _ _ | .mapper _ | .helper _ | .numeral _ => true
  | _ => false

theorem within_callTexts {scope : Scope} {k : Mention} {n t : String} (hn : k.callName? = some n)
    (ht : t ∈ k.callTexts scope) : Within (scope.written n) t := by
  cases k with
  | helper h =>
    obtain rfl := Option.some.inj hn
    obtain rfl := List.mem_singleton.1 ht
    exact (Within.refl _).append_right _
  | mapper x =>
    obtain rfl := Option.some.inj hn
    have hname : Within (scope.written x) (scope.mapperText x) := by
      unfold Scope.mapperText Scope.qualify
      cases scope.mapper with
      | none => exact Within.refl _
      | some m => exact (Within.refl _).append_left _
    rcases List.mem_pair.1 ht with rfl | rfl
    · exact hname.append_right _
    · exact (hname.append_left _).append_right _
  | declared | imported | module | member | numeral | notice => cases hn

end Mention

def Shows (scope : Scope) (lines : List String) (k : Mention) : Prop :=
  ∃ t ∈ k.callTexts scope, Holds lines t

theorem Shows.mono {scope : Scope} {as bs : List String} {k : Mention} (h : Shows scope as k)
    (hsub : as ⊆ bs) : Shows scope bs k := by
  obtain ⟨t, ht, hholds⟩ := h
  exact ⟨t, ht, hholds.mono hsub⟩

theorem Shows.of_mem {scope : Scope} {lines : List String} {k : Mention} {l : String} (hl : l ∈ lines)
    (h : ∃ t ∈ k.callTexts scope, Within t l) : Shows scope lines k := by
  obtain ⟨t, ht, hwithin⟩ := h
  exact ⟨t, ht, l, hl, hwithin⟩

variable {scope : Scope} {k : Mention} {n : String}

theorem exists_within {a b : String} (h : ∃ t ∈ k.callTexts scope, Within t a) (hab : Within a b) :
    ∃ t ∈ k.callTexts scope, Within t b := by
  obtain ⟨t, ht, hwithin⟩ := h
  exact ⟨t, ht, hwithin.trans hab⟩

theorem Conversion.within_call {c : Conversion} (hk : k ∈ c.mentions) (x : String)
    (cast : Option String) : ∃ t ∈ k.callTexts scope, Within t (c.apply scope x cast) := by
  obtain ⟨change, each⟩ := c
  cases change with
  | identity | parseDate | formatDate => cases hk
  | mapper m =>
    obtain rfl := List.mem_singleton.1 hk
    cases each with
    | true =>
      refine ⟨_, List.mem_cons_of_mem _ List.mem_cons_self, x, "", ?_⟩
      simp [apply, String.append_assoc]
    | false =>
      refine ⟨_, List.mem_cons_self, ?_⟩
      cases cast with
      | none => exact ((Within.refl _).append_right _).append_right _
      | some t =>
        exact ((((Within.refl _).append_right _).append_right _).append_right _).append_right _

theorem ElementType.callName?_of_mem {t : ElementType} (hk : k ∈ t.mentions) : k.callName? = none := by
  cases t with
  | literal l =>
    obtain ⟨i, -, rfl⟩ := List.mem_map.1 hk
    rfl
  | builtin => cases hk
  | declared f x =>
    obtain rfl := List.mem_singleton.1 hk
    rfl

theorem Expression.within_call {e : Expression} (hk : k ∈ e.mentions) (hn : k.callName? = some n) :
    ∃ t ∈ k.callTexts scope, Within t (e.text scope) := by
  have hconversion : k ∈ e.conversion.mentions := by
    refine (List.mem_append.1 hk).resolve_left fun hcast => ?_
    cases hc : e.cast with
    | none => simp [hc] at hcast
    | some t =>
      rw [ElementType.callName?_of_mem (t := t) (by simpa [hc] using hcast)] at hn
      cases hn
  refine exists_within (Conversion.within_call hconversion e.operand.text (e.castText scope)) ?_
  unfold text
  split_ifs
  · exact Within.refl _
  · exact (Within.refl _).append_left _

theorem Field.within_call {f : Field} (hk : k ∈ f.mentions) (hn : k.callName? = some n) :
    ∃ t ∈ k.callTexts scope, Within t (f.text scope) := by
  have hvalue : ∃ t ∈ k.callTexts scope, Within t (f.expression.text scope) := Expression.within_call hk hn
  refine exists_within hvalue ?_
  unfold text
  simp only
  split_ifs with hkey
  · rw [hkey]
    exact (Within.refl _).append_right _
  · exact ((Within.refl _).append_left _).append_right _

theorem Helper.within_opening (scope : Scope) (h : Helper) (opening : String) :
    ∃ t ∈ (Mention.helper h).callTexts scope, Within t (opening ++ scope.written h.name ++ "(\x7b") := by
  have hbrace : "(\x7b" = "(" ++ "\x7b" := rfl
  refine ⟨_, List.mem_singleton_self _, opening, "\x7b", ?_⟩
  rw [hbrace, String.append_assoc, String.append_assoc, String.append_assoc]

/-- The lines of an object of fields, from the one that opens it. -/
theorem shows_fields {fields : List Field} (hk : k ∈ .helper .compact :: fields.flatMap Field.mentions)
    (hn : k.callName? = some n) (opening : String) (ending : List String) :
    Shows scope ((opening ++ scope.written Helper.compact.name ++ "(\x7b") ::
      fields.map (·.text scope) ++ ending) k := by
  rcases List.mem_cons.1 hk with rfl | hk
  · exact .of_mem List.mem_cons_self (Helper.within_opening scope .compact opening)
  · obtain ⟨f, hf, hk⟩ := List.mem_flatMap.1 hk
    refine .of_mem (l := f.text scope) ?_ (Field.within_call hk hn)
    exact List.mem_append_left _ (List.mem_cons_of_mem _ (List.mem_map_of_mem hf))

theorem Fold.shows_call {f : Fold} (hk : k ∈ f.mentions) (hn : k.callName? = some n)
    (source initial : String) : Shows scope (f.lines scope source initial) k := by
  have hconverted : k ∈ f.converted.mentions := by
    refine (List.mem_append.1 hk).resolve_right fun hdeclared => ?_
    obtain rfl := List.mem_singleton.1 hdeclared
    cases hn
  refine .of_mem (List.mem_cons_of_mem _ List.mem_cons_self) ?_
  have hvalue : ∃ t ∈ k.callTexts scope, Within t (f.converted.text scope) :=
    Expression.within_call hconverted hn
  refine exists_within hvalue ?_
  exact ((Within.refl _).append_left _).append_right _

theorem RecordBody.shows_call {b : RecordBody} (hk : k ∈ b.mentions) (hn : k.callName? = some n)
    (parameter : String) : Shows scope (b.lines scope parameter) k := by
  cases b with
  | empty => cases hk
  | literal fields => exact shows_fields hk hn "return " _
  | destructured captures fields rest =>
    cases rest with
    | none =>
      have hfields : k ∈ .helper .compact :: fields.flatMap Field.mentions := by
        simpa [mentions] using hk
      exact (shows_fields hfields hn "return " _).mono (List.subset_append_right _ _)
    | some fold =>
      rcases List.mem_append.1 hk with hk | hk
      · refine (shows_fields hk hn "const __defined__ = " ["\x7d);"]).mono fun l hl => ?_
        exact List.mem_append_left _ (List.mem_append_right _ hl)
      · refine (Fold.shows_call hk hn "__rest__" "__defined__").mono fun l hl => ?_
        exact List.mem_append_right _ (List.mem_cons_of_mem _ hl)
  | folded fold => exact Fold.shows_call hk hn _ _

theorem Test.within_call {t : Test} (hk : k ∈ t.mentions) (parameter : String) :
    ∃ u ∈ k.callTexts scope, Within u (t.text scope parameter) := by
  cases t with
  | isDateText x f =>
    obtain rfl := List.mem_singleton.1 hk
    exact ⟨_, List.mem_singleton_self _, ((Within.refl _).append_right _).append_right _⟩
  | _ => cases hk

theorem Action.shows_call {a : Action} (hk : k ∈ a.mentions) (hn : k.callName? = some n)
    (parameter : String) : Shows scope (a.lines scope parameter) k := by
  cases a with
  | same | empty | unchecked => cases hk
  | convert c =>
    refine .of_mem List.mem_cons_self ?_
    have hcall : ∃ t ∈ k.callTexts scope, Within t (c.apply scope parameter none) :=
      Conversion.within_call hk parameter none
    refine exists_within hcall ?_
    exact ((Within.refl _).append_left _).append_right _
  | merge fields =>
    exact (shows_fields hk hn "return " ["\x7d) as any;"]).mono (List.subset_cons_self _ _)

theorem UnionBody.shows_call {b : UnionBody} (hk : k ∈ b.mentions) (hn : k.callName? = some n)
    (parameter : String) : Shows scope (b.lines scope parameter) k := by
  cases b with
  | switch d cases =>
    obtain ⟨c, hc, rfl⟩ := List.mem_map.1 hk
    have hline : "case " ++ c.constant.text ++ ": return " ++ scope.mapperText c.mapper ++ "(" ++
        parameter ++ ");" ∈ (UnionBody.switch d cases).lines scope parameter :=
      List.mem_append_left _ (List.mem_cons_of_mem _ (List.mem_map.2 ⟨c, hc, rfl⟩))
    refine .of_mem hline ⟨_, List.mem_cons_self, "case " ++ c.constant.text ++ ": return ",
      parameter ++ ");", ?_⟩
    simp only [String.append_assoc]
  | chain bs =>
    have hlines : ∀ t, t ∈ (Block.shown bs).map (Test.text scope parameter) ∨
        t ∈ (Block.statementsOf bs).flatMap (Action.lines scope parameter) →
        Holds (Branching.lines scope parameter bs) t := fun t ht => (Block.holds_lines bs ht).1
    rcases List.mem_append.1 hk with hk | hk
    · obtain ⟨t, ht, hmention⟩ := List.mem_flatMap.1 hk
      obtain ⟨u, hu, hcall⟩ : ∃ u ∈ k.callTexts scope, Within u (t.text scope parameter) :=
        Test.within_call hmention parameter
      obtain ⟨l, hl, hwithin⟩ := hlines _ (.inl (List.mem_map_of_mem ht))
      exact ⟨u, hu, l, hl, hcall.trans hwithin⟩
    · obtain ⟨a, ha, hmention⟩ := List.mem_flatMap.1 hk
      obtain ⟨u, hu, j, hj, hcall⟩ : Shows scope (a.lines scope parameter) k :=
        Action.shows_call hmention hn parameter
      obtain ⟨l, hl, hwithin⟩ := hlines j (.inr (List.mem_flatMap.2 ⟨a, ha, hj⟩))
      exact ⟨u, hu, l, hl, hcall.trans hwithin⟩

/-- Every helper and every mapper that a mapper mentions is called in one of its lines. -/
theorem Mapper.shows_call (scope : Scope) {m : Mapper} (hk : k ∈ m.mentions)
    (hn : k.callName? = some n) : Shows scope (m.lines scope) k := by
  have hsignature : ∀ g : Signature, k ∉ g.mentions := by
    intro g hg
    rcases List.mem_pair.1 hg with rfl | rfl <;> cases hn
  cases m with
  | record m =>
    have hbody := (List.mem_append.1 hk).resolve_left (hsignature m.signature)
    refine (RecordBody.shows_call hbody hn m.signature.role.parameter).mono fun l hl => ?_
    exact List.mem_append_left _ (List.mem_cons_of_mem _ hl)
  | union m =>
    have hbody := (List.mem_append.1 hk).resolve_left (hsignature m.signature)
    refine (UnionBody.shows_call hbody hn m.signature.role.parameter).mono fun l hl => ?_
    exact List.mem_append_left _ (List.mem_cons_of_mem _ hl)

/-- A text uses a name if it changes when the name is written in another way. -/
def Uses {α : Type} (text : (String → String) → α) (n : String) : Prop :=
  ∃ other, text (Function.update id n other) ≠ text id

theorem exists_not_holds (lines : List String) : ∃ t, ¬ Holds lines t := by
  refine ⟨String.ofList (List.replicate ((lines.map String.length).sum + 1) 'x'), ?_⟩
  rintro ⟨l, hl, ht⟩
  have hlong := ht.length_le
  have hshort := List.le_sum_of_mem (List.mem_map_of_mem (f := String.length) hl)
  rw [String.length_ofList, List.length_replicate] at hlong
  omega

/-- Mentions without a name do not keep it from being written in another way. -/
theorem keeps_update {ms : List Mention} (hwritten : scope.written = id)
    (h : ∀ j ∈ ms, n ∉ scope.outside j) (other : String) :
    scope.Keeps (Function.update id n other) ms := by
  intro j hj x hx
  have hne : x ≠ n := by
    rintro rfl
    exact h j hj hx
  rw [Function.update_of_ne hne, hwritten]

theorem Mapper.uses_of_mem {m : Mapper} (hn : k.callName? = some n) (hk : k ∈ m.mentions) :
    Uses (fun w => m.lines (scope.respelled w)) n := by
  obtain ⟨other, hno⟩ := exists_not_holds (m.lines (scope.respelled id))
  refine ⟨other, fun hsame => hno ?_⟩
  have hlines : m.lines (scope.respelled (Function.update id n other)) =
      m.lines (scope.respelled id) := hsame
  obtain ⟨t, ht, l, hl, hcall⟩ :=
    Mapper.shows_call (scope.respelled (Function.update id n other)) hk hn
  have hname := Mention.within_callTexts hn ht
  rw [hlines] at hl
  have hother : (scope.respelled (Function.update id n other)).written n = other := by
    simp [Scope.respelled]
  rw [hother] at hname
  exact ⟨l, hl, hname.trans hcall⟩

/-- A mapper uses just the names of helpers and mappers that it mentions. -/
theorem Mapper.uses_iff {m : Mapper} (hn : k.callName? = some n) (hwritten : scope.written = id)
    (hapart : ∀ j ∈ m.mentions, n ∈ scope.outside j → j = k) :
    Uses (fun w => m.lines (scope.respelled w)) n ↔ k ∈ m.mentions := by
  refine ⟨?_, m.uses_of_mem hn⟩
  rintro ⟨other, hother⟩
  by_contra hno
  have hkeeps : scope.Keeps (Function.update id n other) m.mentions :=
    keeps_update hwritten (fun j hj hx => hno (hapart j hj hx ▸ hj)) other
  have hscope := Scope.respelled_id hwritten
  exact hother ((Mapper.lines_respelled hkeeps).trans (congrArg m.lines hscope.symm))

theorem Helper.name_injective : Function.Injective Helper.name := by
  intro h k hname
  cases h <;> cases k <;> first | rfl | simp [name] at hname

theorem Conversion.isGenerated_of_mem {c : Conversion} {m : Mention} (hm : m ∈ c.mentions) :
    m.isGenerated = true := by
  rw [mentions_eq] at hm
  obtain ⟨x, -, rfl⟩ := List.mem_map.1 hm
  rfl

theorem ElementType.isGenerated_of_mem {t : ElementType} {m : Mention} (hm : m ∈ t.mentions) :
    m.isGenerated = true := by
  cases t with
  | literal l =>
    obtain ⟨n, -, rfl⟩ := List.mem_map.1 hm
    rfl
  | builtin n => cases hm
  | declared f x =>
    obtain rfl := List.mem_singleton.1 hm
    rfl

theorem Expression.isGenerated_of_mem {e : Expression} {m : Mention} (hm : m ∈ e.mentions) :
    m.isGenerated = true := by
  rcases List.mem_append.1 hm with hm | hm
  · cases hc : e.cast with
    | none => simp [hc] at hm
    | some t => exact ElementType.isGenerated_of_mem (t := t) (by simpa [hc] using hm)
  · exact Conversion.isGenerated_of_mem hm

theorem Action.isGenerated_of_mem {a : Action} {m : Mention} (hm : m ∈ a.mentions) :
    m.isGenerated = true := by
  cases a with
  | same | empty | unchecked => cases hm
  | convert c => exact Conversion.isGenerated_of_mem hm
  | merge fields =>
    rcases List.mem_cons.1 hm with rfl | hm
    · rfl
    · obtain ⟨f, -, hm⟩ := List.mem_flatMap.1 hm
      exact Expression.isGenerated_of_mem hm

theorem Mapper.isGenerated_of_mem {m : Mapper} {k : Mention} (hk : k ∈ m.mentions) :
    k.isGenerated = true := by
  have hsignature : ∀ g : Signature, k ∈ g.mentions → k.isGenerated = true := by
    intro g hg
    rcases List.mem_pair.1 hg with rfl | rfl <;> rfl
  cases m with
  | record m =>
    rcases List.mem_append.1 hk with hk | hk
    · exact hsignature _ hk
    · rcases RecordBody.mem_mentions hk with rfl | ⟨e, -, he⟩ | ⟨f, -, rfl⟩
      · rfl
      · exact Expression.isGenerated_of_mem he
      · rfl
  | union m =>
    rcases List.mem_append.1 hk with hk | hk
    · exact hsignature _ hk
    · cases hb : m.body with
      | switch d cases =>
        rw [hb] at hk
        obtain ⟨c, -, rfl⟩ := List.mem_map.1 hk
        rfl
      | chain bs =>
        rw [hb] at hk
        rcases List.mem_append.1 hk with hk | hk
        · obtain ⟨t, -, hk⟩ := List.mem_flatMap.1 hk
          cases t with
          | isDateText x f =>
            obtain rfl := List.mem_singleton.1 hk
            rfl
          | _ => cases hk
        · obtain ⟨a, -, hk⟩ := List.mem_flatMap.1 hk
          exact Action.isGenerated_of_mem hk

end DtoGen
