import DtoGen.Proofs.MapperNames
import DtoGen.Proofs.ObjectTests

namespace DtoGen

namespace Scope

/-- The names from outside with which a mention is written: of a module, an import, a helper or a
mapper. -/
def outside (s : Scope) : Mention → List String
  | .imported _ n _ => [n]
  | .helper h => [h.name]
  | .mapper x => x :: s.mapper.toList
  | m => (s.moduleName? m).toList

def respelled (s : Scope) (w : String → String) : Scope := { s with written := w }

/-- The names of some mentions are written as before. -/
def Keeps (s : Scope) (w : String → String) (ms : List Mention) : Prop :=
  ∀ m ∈ ms, ∀ n ∈ s.outside m, w n = s.written n

variable {s : Scope} {w : String → String} {ms ns : List Mention}

theorem respelled_id (h : s.written = id) : s.respelled id = s := by rw [respelled, ← h]

theorem Keeps.mono (h : s.Keeps w ms) (hsub : ns ⊆ ms) : s.Keeps w ns :=
  fun m hm => h m (hsub hm)

theorem Keeps.left (h : s.Keeps w (ms ++ ns)) : s.Keeps w ms := h.mono (List.subset_append_left _ _)

theorem Keeps.right (h : s.Keeps w (ms ++ ns)) : s.Keeps w ns := h.mono (List.subset_append_right _ _)

theorem Keeps.of_mem_flatMap {α : Type} {f : α → List Mention} {as : List α}
    (h : s.Keeps w (as.flatMap f)) {a : α} (ha : a ∈ as) : s.Keeps w (f a) :=
  h.mono fun _ hm => List.mem_flatMap.2 ⟨a, ha, hm⟩

theorem Keeps.declared (h : s.Keeps w ms) {f : Facet} {x : String} (hm : .declared f x ∈ ms) :
    (s.respelled w).declared f x = s.declared f x := by
  have hkeeps : ∀ a, s.moduleOf f = some a → w a = s.written a :=
    fun a ha => h _ hm a (Option.mem_toList.2 ha)
  change (s.respelled w).qualify (s.moduleOf f) x = s.qualify (s.moduleOf f) x
  cases ha : s.moduleOf f with
  | none => rfl
  | some a => exact congrArg (· ++ "." ++ x) (hkeeps a ha)

theorem Keeps.mapperText (h : s.Keeps w ms) {x : String} (hm : .mapper x ∈ ms) :
    (s.respelled w).mapperText x = s.mapperText x := by
  have hx : w x = s.written x := h _ hm x List.mem_cons_self
  have hkeeps : ∀ a, s.mapper = some a → w a = s.written a :=
    fun a ha => h _ hm a (List.mem_cons_of_mem x (Option.mem_toList.2 ha))
  change (s.respelled w).qualify s.mapper (w x) = s.qualify s.mapper (s.written x)
  rw [hx]
  cases ha : s.mapper with
  | none => rfl
  | some a => exact congrArg (· ++ "." ++ s.written x) (hkeeps a ha)

theorem Keeps.helper (h : s.Keeps w ms) {k : Helper} (hm : .helper k ∈ ms) :
    w k.name = s.written k.name :=
  h _ hm _ List.mem_cons_self

end Scope

variable {s : Scope} {w : String → String}

theorem ElementType.text_respelled {t : ElementType} (h : s.Keeps w t.mentions) :
    t.text (s.respelled w) = t.text s := by
  cases t with
  | literal l => rfl
  | builtin n => rfl
  | declared f x => exact h.declared List.mem_cons_self

namespace ValueType

theorem parts_respelled {t : ValueType} (h : s.Keeps w t.mentions) :
    t.parts (s.respelled w) = t.parts s := by
  rw [parts, parts, ElementType.text_respelled h]

theorem text_respelled {t : ValueType} (h : s.Keeps w t.mentions) :
    t.text (s.respelled w) = t.text s := by
  rw [text, text, parts_respelled h]

end ValueType

theorem MemberType.text_respelled {m : MemberType} (h : s.Keeps w m.type.mentions) :
    m.text (s.respelled w) = m.text s := by
  rw [text, text, ValueType.text_respelled h]

theorem MemberType.lines_respelled {m : MemberType} (h : s.Keeps w m.type.mentions) :
    m.lines (s.respelled w) = m.lines s := by
  rw [lines, lines, text_respelled h]

theorem ObjectType.lines_respelled {o : ObjectType} (h : s.Keeps w o.mentions) :
    o.lines (s.respelled w) = o.lines s := by
  have hmembers : o.members.flatMap (·.lines (s.respelled w)) = o.members.flatMap (·.lines s) :=
    List.flatMap_congr fun m hm => MemberType.lines_respelled (h.left.of_mem_flatMap hm)
  unfold lines
  rw [hmembers]
  cases ht : o.requiredType with
  | none => rfl
  | some t =>
    have htype : s.Keeps w t.mentions := by simpa [mentions, ht] using h.right
    simp only [ValueType.text_respelled htype]

theorem OpenType.text_respelled {o : OpenType} (h : s.Keeps w o.mentions) :
    o.text (s.respelled w) = o.text s := by
  have hvalues : o.values.flatMap (·.parts (s.respelled w)) = o.values.flatMap (·.parts s) :=
    List.flatMap_congr fun v hv => ValueType.parts_respelled (h.left.of_mem_flatMap hv)
  unfold text alternatives
  rw [hvalues, ValueType.text_respelled h.right]

theorem RecordType.text_respelled {r : RecordType} (h : s.Keeps w r.mentions) :
    r.text (s.respelled w) = r.text s := by
  cases r with
  | unconstrained => rfl
  | shaped object rest =>
    have hobject : ∀ o, object = some o → o.lines (s.respelled w) = o.lines s := by
      rintro o rfl
      exact ObjectType.lines_respelled h.left
    have hrest : ∀ o, rest = some o → o.text (s.respelled w) = o.text s := by
      rintro o rfl
      exact OpenType.text_respelled h.right
    cases object with
    | none =>
      cases rest with
      | none => rfl
      | some b => simp only [text, Option.map_none, Option.map_some, hrest b rfl]
    | some a =>
      cases rest with
      | none => simp only [text, Option.map_none, Option.map_some, hobject a rfl]
      | some b => simp only [text, Option.map_some, hobject a rfl, hrest b rfl]

theorem Conversion.apply_respelled {c : Conversion} (h : s.Keeps w c.mentions) (x : String)
    (cast : Option String) : c.apply (s.respelled w) x cast = c.apply s x cast := by
  obtain ⟨change, each⟩ := c
  cases change with
  | identity | parseDate | formatDate => rfl
  | mapper m =>
    have hm : (s.respelled w).mapperText m = s.mapperText m := h.mapperText List.mem_cons_self
    simp only [apply, hm]

theorem Expression.text_respelled {e : Expression} (h : s.Keeps w e.mentions) :
    e.text (s.respelled w) = e.text s := by
  have hcast : e.castText (s.respelled w) = e.castText s := by
    unfold castText
    cases hc : e.cast with
    | none => rfl
    | some t =>
      have ht : s.Keeps w t.mentions := by simpa [mentions, hc] using h.left
      rw [Option.map_some, Option.map_some, ElementType.text_respelled ht]
  rw [text, text, hcast, Conversion.apply_respelled h.right]

theorem Field.text_respelled {f : Field} (h : s.Keeps w f.mentions) :
    f.text (s.respelled w) = f.text s := by
  rw [text, text, Expression.text_respelled h]

theorem Signature.text_respelled {g : Signature} (h : s.Keeps w g.mentions) :
    g.text (s.respelled w) = g.text s := by
  have hsource : (s.respelled w).declared g.role.source g.sourceSpelling =
      s.declared g.role.source g.sourceSpelling := h.declared List.mem_cons_self
  have htarget : (s.respelled w).declared g.role.target g.targetSpelling =
      s.declared g.role.target g.targetSpelling :=
    h.declared (List.mem_cons_of_mem _ List.mem_cons_self)
  unfold text
  rw [hsource, htarget]

theorem Fold.lines_respelled {f : Fold} (h : s.Keeps w f.mentions) (source initial : String) :
    f.lines (s.respelled w) source initial = f.lines s source initial := by
  rw [lines, lines, Expression.text_respelled h.left, h.right.declared List.mem_cons_self]

theorem fields_respelled {fields : List Field} (h : s.Keeps w (fields.flatMap Field.mentions)) :
    fields.map (·.text (s.respelled w)) = fields.map (·.text s) :=
  List.map_congr_left fun _ hf => Field.text_respelled (h.of_mem_flatMap hf)

theorem RecordBody.fieldLines_respelled {fields : List Field}
    (h : s.Keeps w (.helper .compact :: fields.flatMap Field.mentions)) (opening : String) :
    fieldLines (s.respelled w) opening fields = fieldLines s opening fields := by
  have hcompact : (s.respelled w).written Helper.compact.name = s.written Helper.compact.name :=
    h.helper List.mem_cons_self
  rw [fieldLines, fieldLines, hcompact, fields_respelled (h.mono (List.subset_cons_self _ _))]

theorem RecordBody.lines_respelled {b : RecordBody} (h : s.Keeps w b.mentions) (parameter : String) :
    b.lines (s.respelled w) parameter = b.lines s parameter := by
  cases b with
  | empty => rfl
  | literal fields => exact fieldLines_respelled h _
  | destructured captures fields rest =>
    cases rest with
    | none => rw [lines, lines, fieldLines_respelled h.left]
    | some fold => rw [lines, lines, fieldLines_respelled h.left, Fold.lines_respelled h.right]
  | folded fold => exact Fold.lines_respelled h _ _

theorem RecordMapper.lines_respelled {m : RecordMapper} (h : s.Keeps w m.mentions) :
    m.lines (s.respelled w) = m.lines s := by
  rw [lines, lines, Signature.text_respelled h.left, RecordBody.lines_respelled h.right]

namespace Condition

variable {α β : Type} {f g : α → β}

mutual
theorem map_congr : ∀ c : Condition α, (∀ a ∈ c.tests, f a = g a) → c.map f = c.map g
  | .test a, h => congrArg Condition.test (h a List.mem_cons_self)
  | .join k cs, h => congrArg (Condition.join k) (mapClauses_congr cs h)
theorem mapClauses_congr :
    ∀ cs : List (Condition α), (∀ a ∈ testsOf cs, f a = g a) → mapClauses f cs = mapClauses g cs
  | [], _ => rfl
  | c :: cs, h => by
    rw [testsOf] at h
    obtain ⟨hc, hcs⟩ := List.forall_mem_append.1 h
    rw [mapClauses, mapClauses, map_congr c hc, mapClauses_congr cs hcs]
end

end Condition

namespace Block

variable {α σ : Type}

mutual
def shownInside : Block α σ → List α
  | .leaf _ _ => []
  | .nested _ bs => shown bs
/-- The tests of a chain that are written out. A block alone stands without its condition, and so does
the last of several. -/
def shown : List (Block α σ) → List α
  | [] => []
  | [b] => b.shownInside
  | b :: c :: bs => b.condition.tests ++ (b.shownInside ++ shown (c :: bs))
end

variable {f f' : α → String} {g g' : σ → List String}

theorem condition_map (b : Block α σ) : (b.map f g).condition = b.condition.map f := by
  cases b with
  | leaf c body => rfl
  | nested c bs => rfl

theorem lines_cons_cons (b c : Block String String) (bs : List (Block String String)) :
    lines (b :: c :: bs) = joinElse (("if (" ++ b.condition.render ++ ") \x7b") :: b.bodyLines ++
      "\x7d" :: laterBranches (branches (c :: bs))) :=
  rfl

theorem laterBranches_cons_cons (b c : Block String String) (bs : List (Block String String)) :
    laterBranches (branches (b :: c :: bs)) =
      ("else if (" ++ b.condition.render ++ ") \x7b") :: b.bodyLines ++
        "\x7d" :: laterBranches (branches (c :: bs)) :=
  rfl

mutual
theorem bodyLines_congr : ∀ b : Block α σ, (∀ a ∈ b.shownInside, f a = f' a) →
    (∀ x ∈ b.statements, g x = g' x) → (b.map f g).bodyLines = (b.map f' g').bodyLines
  | .leaf _ _, _, hg => List.flatMap_congr hg
  | .nested _ bs, hf, hg => (lines_congr bs hf hg).1
/-- A chain is written alike if the tests that it shows and its statements are, from its start and after
others. -/
theorem lines_congr : ∀ bs : List (Block α σ), (∀ a ∈ shown bs, f a = f' a) →
    (∀ x ∈ statementsOf bs, g x = g' x) →
    lines (mapAll f g bs) = lines (mapAll f' g' bs) ∧
      laterBranches (branches (mapAll f g bs)) = laterBranches (branches (mapAll f' g' bs))
  | [], _, _ => ⟨rfl, rfl⟩
  | [b], hf, hg => by
    -- no condition is written, so nothing is asked of its tests
    have hbody := bodyLines_congr b hf fun x hx => hg x (List.mem_append_left _ hx)
    simp only [mapAll, lines, branches, chain, laterBranches, hbody, and_self]
  | b :: c :: bs, hf, hg => by
    simp only [shown, List.forall_mem_append] at hf
    obtain ⟨hcondition, hinside, hlater⟩ := hf
    obtain ⟨hstatements, hothers⟩ := List.forall_mem_append.1 hg
    have hbody := bodyLines_congr b hinside hstatements
    have hrest := (lines_congr (c :: bs) hlater hothers).2
    have htext := Condition.map_congr b.condition hcondition
    simp only [mapAll] at hrest ⊢
    simp only [lines_cons_cons, laterBranches_cons_cons, condition_map, hbody, htext, hrest, and_self]
end

end Block

def Test.mentions : Test → List Mention
  | .isDateText _ f => [.helper f.helper]
  | _ => []

def Action.mentions : Action → List Mention
  | .convert c => c.mentions
  | .merge fields => .helper .compact :: fields.flatMap Field.mentions
  | _ => []

/-- What the lines of a chain mention, in conditions that they show and in statements. -/
def Branching.mentions (bs : List Branching) : List Mention :=
  (Block.shown bs).flatMap Test.mentions ++ (Block.statementsOf bs).flatMap Action.mentions

def UnionBody.mentions : UnionBody → List Mention
  | .switch _ cases => cases.map fun c => .mapper c.mapper
  | .chain bs => Branching.mentions bs

def UnionMapper.mentions (m : UnionMapper) : List Mention := m.signature.mentions ++ m.body.mentions

def Mapper.mentions : Mapper → List Mention
  | .record m => m.mentions
  | .union m => m.mentions

theorem Test.text_respelled {t : Test} (h : s.Keeps w t.mentions) (parameter : String) :
    t.text (s.respelled w) parameter = t.text s parameter := by
  cases t with
  | isDateText x f =>
    exact congrArg (· ++ "(" ++ x.text parameter ++ ")") (h.helper List.mem_cons_self)
  | _ => rfl

theorem Action.lines_respelled {a : Action} (h : s.Keeps w a.mentions) (parameter : String) :
    a.lines (s.respelled w) parameter = a.lines s parameter := by
  cases a with
  | same | empty | unchecked => rfl
  | convert c => rw [lines, lines, Conversion.apply_respelled h]
  | merge fields =>
    have hcompact : (s.respelled w).written Helper.compact.name = s.written Helper.compact.name :=
      h.helper List.mem_cons_self
    rw [lines, lines, hcompact, fields_respelled (h.mono (List.subset_cons_self _ _))]

theorem UnionBody.lines_respelled {b : UnionBody} (h : s.Keeps w b.mentions) (parameter : String) :
    b.lines (s.respelled w) parameter = b.lines s parameter := by
  cases b with
  | switch d cases =>
    have hcases : cases.map (fun c => "case " ++ c.constant.text ++ ": return " ++
          (s.respelled w).mapperText c.mapper ++ "(" ++ parameter ++ ");") =
        cases.map (fun c => "case " ++ c.constant.text ++ ": return " ++ s.mapperText c.mapper ++
          "(" ++ parameter ++ ");") := by
      refine List.map_congr_left fun c hc => ?_
      rw [h.mapperText (List.mem_map.2 ⟨c, hc, rfl⟩)]
    rw [lines, lines, hcases]
  | chain bs =>
    refine (Block.lines_congr bs (fun t ht => ?_) fun a ha => ?_).1
    · exact Test.text_respelled (h.left.of_mem_flatMap ht) parameter
    · exact Action.lines_respelled (h.right.of_mem_flatMap ha) parameter

theorem UnionMapper.lines_respelled {m : UnionMapper} (h : s.Keeps w m.mentions) :
    m.lines (s.respelled w) = m.lines s := by
  rw [lines, lines, Signature.text_respelled h.left, UnionBody.lines_respelled h.right]

theorem Mapper.lines_respelled {m : Mapper} (h : s.Keeps w m.mentions) :
    m.lines (s.respelled w) = m.lines s := by
  cases m with
  | record m => exact RecordMapper.lines_respelled h
  | union m => exact UnionMapper.lines_respelled h

end DtoGen
