import DtoGen.Condition.Chain
import DtoGen.Proofs.Calls
import Mathlib.Data.List.Basic

namespace DtoGen

namespace Chain

/-- A line, or bodies of which the first is taken whose condition holds, or else the last. -/
inductive Statement where
  | line (text : String)
  | choice (branches : List (String × List Statement)) (otherwise : Option (List Statement))

def between? (opening closing line : String) : Option String :=
  ((line.toList.dropPrefix? opening.toList).bind (·.dropSuffix? closing.toList)).map String.ofList

inductive Piece where
  | first (condition : String)
  | further (condition : String)
  | otherwise
  | closing
  | statement

def classify (line : String) : Piece :=
  match between? "if (" ") \x7b" line, between? "\x7d else if (" ") \x7b" line with
  | some c, _ => .first c
  | none, some c => .further c
  | none, none =>
    if line = "\x7d else \x7b" then .otherwise else if line = "\x7d" then .closing else .statement

/-- A chain that is not closed yet, with what stands before it. The branch that is read has a condition
unless it is the `else`. -/
structure Pending where
  before : List Statement
  branches : List (String × List Statement)
  condition? : Option String

/-- The open chains, innermost first, and the body that is read. -/
structure State where
  chains : List Pending
  body : List Statement

def step (s : State) (line : String) : Option State :=
  match classify line, s.chains with
  | .first c, ps => some ⟨⟨s.body, [], some c⟩ :: ps, []⟩
  | .further c, ⟨before, bs, some d⟩ :: ps => some ⟨⟨before, bs ++ [(d, s.body)], some c⟩ :: ps, []⟩
  | .otherwise, ⟨before, bs, some d⟩ :: ps => some ⟨⟨before, bs ++ [(d, s.body)], none⟩ :: ps, []⟩
  | .closing, ⟨before, bs, some d⟩ :: ps =>
    some ⟨ps, before ++ [.choice (bs ++ [(d, s.body)]) none]⟩
  | .closing, ⟨before, bs, none⟩ :: ps => some ⟨ps, before ++ [.choice bs (some s.body)]⟩
  | .statement, ps => some ⟨ps, s.body ++ [.line line]⟩
  | _, _ => none

def run (s : State) : List String → Option State
  | [] => some s
  | line :: lines => (step s line).bind fun s => run s lines

/-- The statements of some lines, if every chain in them is closed. -/
def parse (lines : List String) : Option (List Statement) :=
  (run ⟨[], []⟩ lines).bind fun s => if s.chains.isEmpty then some s.body else none

/-- One chain of several bodies, the last of which is the `else`; a body alone stands for itself. -/
def choose : List (String × List Statement) → List Statement
  | [] => []
  | [(_, body)] => body
  | bs => [.choice bs.dropLast (bs.getLast?.map Prod.snd)]

end Chain

namespace Block

open Chain

mutual
def structured : Block String String → List Statement
  | .leaf _ body => body.map .line
  | .nested _ bs => choose (structuredBranches bs)
def structuredBranches : List (Block String String) → List (String × List Statement)
  | [] => []
  | b :: bs => (b.condition.render, b.structured) :: structuredBranches bs
end

end Block

namespace Chain

/-- A line that opens, continues or closes no chain. -/
structure IsPlain (line : String) : Prop where
  ne_brace : line ≠ "\x7d"
  not_if : ¬"if (".toList <+: line.toList
  not_else : ¬"\x7d else".toList <+: line.toList

theorem between?_append (opening c closing : String) :
    between? opening closing (opening ++ c ++ closing) = some c := by
  have hprefix : (opening ++ c ++ closing).toList.dropPrefix? opening.toList =
      some (c.toList ++ closing.toList) := by
    simp [List.dropPrefix?_append_of_beq]
  have hsuffix : (c.toList ++ closing.toList).dropSuffix? closing.toList = some c.toList :=
    List.dropSuffix?_eq_some_iff.2 ⟨closing.toList, rfl, by simp⟩
  rw [between?, hprefix, Option.bind_some, hsuffix, Option.map_some, String.ofList_toList]

theorem between?_eq_none {opening closing line : String} (h : ¬opening.toList <+: line.toList) :
    between? opening closing line = none := by
  have hnone : line.toList.dropPrefix? opening.toList = none := by
    by_contra hsome
    obtain ⟨rest, hrest⟩ := Option.ne_none_iff_exists'.1 hsome
    obtain ⟨p, hp, heq⟩ := List.dropPrefix?_eq_some_iff.1 hrest
    exact h ⟨rest, by rw [hp, beq_iff_eq.1 heq]⟩
  rw [between?, hnone]
  rfl

theorem classify_if (c : String) : classify ("if (" ++ c ++ ") \x7b") = .first c := by
  rw [classify, between?_append]

theorem classify_elseIf (c : String) :
    classify ("\x7d " ++ ("else if (" ++ c ++ ") \x7b")) = .further c := by
  have hline : "\x7d " ++ ("else if (" ++ c ++ ") \x7b") = "\x7d else if (" ++ c ++ ") \x7b" := by
    simp only [← String.append_assoc]
    rfl
  have hif : between? "if (" ") \x7b" ("\x7d else if (" ++ c ++ ") \x7b") = none :=
    between?_eq_none (by simp)
  rw [hline, classify, hif, between?_append]

theorem classify_else : classify "\x7d else \x7b" = .otherwise := rfl

theorem classify_brace : classify "\x7d" = .closing := rfl

theorem IsPlain.classify_eq {line : String} (h : IsPlain line) : classify line = .statement := by
  have hlong : ¬"\x7d else if (".toList <+: line.toList := fun hp =>
    h.not_else (List.IsPrefix.trans (by decide) hp)
  have helse : line ≠ "\x7d else \x7b" := by
    rintro rfl
    exact h.not_else (by decide)
  rw [classify, between?_eq_none h.not_if, between?_eq_none hlong]
  simp [helse, h.ne_brace]

theorem run_append (s : State) (as bs : List String) :
    run s (as ++ bs) = (run s as).bind fun s => run s bs := by
  induction as generalizing s with
  | nil => rfl
  | cons a as ih =>
    rw [List.cons_append, run, run]
    cases step s a with
    | none => rfl
    | some s => exact ih s

open Block

theorem joinElse_brace {l : String} (h : isElse l = true) (rest : List String) :
    joinElse ("\x7d" :: l :: rest) = ("\x7d " ++ l) :: joinElse rest := by
  rw [joinElse, if_pos (by simp [h])]

theorem joinElse_cons_cons {l m : String} (h : l ≠ "\x7d" ∨ isElse m = false) (rest : List String) :
    joinElse (l :: m :: rest) = l :: joinElse (m :: rest) := by
  rw [joinElse, if_neg]
  simp only [Bool.and_eq_true, decide_eq_true_eq, not_and]
  rcases h with h | h <;> simp [h]

/-- Lines that stay as they are before a line that is no `else`. -/
def Settled (lines : List String) : Prop :=
  ∀ l rest, isElse l = false → joinElse (lines ++ l :: rest) = lines ++ joinElse (l :: rest)

namespace Settled

variable {l : String} {as bs : List String}

theorem nil : Settled [] := fun _ _ _ => rfl

theorem cons (h : l ≠ "\x7d") (hs : Settled bs) : Settled (l :: bs) := by
  intro m rest hm
  have hstep : ∀ ls, ls ≠ [] → joinElse (l :: ls) = l :: joinElse ls := by
    intro ls hls
    obtain ⟨n, ls, rfl⟩ := List.exists_cons_of_ne_nil hls
    exact joinElse_cons_cons (.inl h) ls
  rw [List.cons_append, hstep _ (by simp), hs m rest hm, List.cons_append]

theorem append (ha : Settled as) (hb : Settled bs) (hhead : ∀ b ∈ bs.head?, isElse b = false) :
    Settled (as ++ bs) := by
  intro m rest hm
  cases bs with
  | nil => simpa using ha m rest hm
  | cons b bs =>
    have hb' := hb m rest hm
    rw [List.cons_append] at hb'
    rw [List.append_assoc, List.cons_append, ha b _ (hhead b rfl), hb', List.append_assoc,
      List.cons_append]

theorem brace : Settled ["\x7d"] := fun _ rest hm => joinElse_cons_cons (.inr hm) rest

theorem of_forall_ne (h : ∀ l ∈ bs, l ≠ "\x7d") : Settled bs := by
  induction bs with
  | nil => exact nil
  | cons b bs ih =>
    obtain ⟨hb, hbs⟩ := List.forall_mem_cons.1 h
    exact cons hb (ih hbs)

end Settled

/-- The lines of the later branches, each from the brace before it on. -/
def joined : List Branch → List String
  | [] => []
  | [(_, body)] => "\x7d else \x7b" :: (body ++ ["\x7d"])
  | (c, body) :: rest => ("\x7d " ++ ("else if (" ++ c ++ ") \x7b")) :: (body ++ joined rest)

theorem joinElse_laterBranches {brs : List Branch} (hne : brs ≠ [])
    (h : ∀ br ∈ brs, Settled br.2) : joinElse ("\x7d" :: laterBranches brs) = joined brs := by
  induction brs with
  | nil => exact absurd rfl hne
  | cons br brs ih =>
    obtain ⟨c, body⟩ := br
    obtain ⟨hbody, hbrs⟩ := List.forall_mem_cons.1 h
    have hbrace : isElse "\x7d" = false := rfl
    cases brs with
    | nil =>
      rw [laterBranches, List.cons_append, joinElse_brace rfl, hbody "\x7d" [] hbrace]
      rfl
    | cons br' brs =>
      have helse : isElse ("else if (" ++ c ++ ") \x7b") = true := by simp [isElse]
      rw [laterBranches, List.cons_append, joinElse_brace helse, hbody "\x7d" _ hbrace,
        ih (by simp) hbrs]
      · rfl
      · simp

theorem isElse_of_mem_head?_joined {brs : List Branch} {l : String} (h : l ∈ (joined brs).head?) :
    isElse l = false := by
  match brs with
  | [] => cases h
  | [(_, body)] =>
    obtain rfl := Option.some.inj h
    rfl
  | (c, body) :: br :: brs =>
    obtain rfl := Option.some.inj h
    rw [isElse, String.toList_append]
    rfl

theorem append_ne_brace {opening : String} (h : 1 < opening.length) (t : String) :
    opening ++ t ≠ "\x7d" := by
  intro heq
  have hlen := congrArg String.length heq
  have hbrace : "\x7d".length = 1 := rfl
  rw [String.length_append] at hlen
  omega

theorem settled_joined {brs : List Branch} (h : ∀ br ∈ brs, Settled br.2) : Settled (joined brs) := by
  induction brs with
  | nil => exact .nil
  | cons br brs ih =>
    obtain ⟨c, body⟩ := br
    obtain ⟨hbody, hbrs⟩ := List.forall_mem_cons.1 h
    cases brs with
    | nil =>
      refine .cons (by decide) (hbody.append .brace fun l hl => ?_)
      obtain rfl := Option.some.inj hl
      rfl
    | cons br' brs =>
      have hne : "\x7d " ++ ("else if (" ++ c ++ ") \x7b") ≠ "\x7d" := append_ne_brace (by decide) _
      exact .cons hne (hbody.append (ih hbrs) fun l hl => isElse_of_mem_head?_joined hl)

theorem if_ne_brace (c : String) : "if (" ++ c ++ ") \x7b" ≠ "\x7d" := by
  rw [String.append_assoc]
  exact append_ne_brace (by decide) _

/-- The lines of several branches: those of a body stay as they are. -/
theorem chain_cons {c : String} {body : List String} {brs : List Branch} (hne : brs ≠ [])
    (hbody : Settled body) (h : ∀ br ∈ brs, Settled br.2) :
    chain ((c, body) :: brs) = ("if (" ++ c ++ ") \x7b") :: (body ++ joined brs) := by
  obtain ⟨br, brs, rfl⟩ := List.exists_cons_of_ne_nil hne
  have hopening : Settled (("if (" ++ c ++ ") \x7b") :: body) := .cons (if_ne_brace c) hbody
  rw [chain, hopening _ _ rfl, joinElse_laterBranches hne h, List.cons_append]
  simp

theorem settled_chain {brs : List Branch} (h : ∀ br ∈ brs, Settled br.2) : Settled (chain brs) := by
  match brs with
  | [] => exact .nil
  | [(_, body)] => exact h _ List.mem_cons_self
  | (c, body) :: br :: brs =>
    obtain ⟨hbody, hbrs⟩ := List.forall_mem_cons.1 h
    rw [chain_cons (by simp) hbody hbrs]
    exact .cons (if_ne_brace c)
      (hbody.append (settled_joined hbrs) fun l hl => isElse_of_mem_head?_joined hl)

/-- Lines that are read, wherever they stand, as some statements. -/
structure Reads (lines : List String) (ss : List Statement) : Prop where
  settled : Settled lines
  run_eq : ∀ ps body, run ⟨ps, body⟩ lines = some ⟨ps, body ++ ss⟩

theorem reads_plain {body : List String} (h : ∀ l ∈ body, IsPlain l) :
    Reads body (body.map .line) where
  settled := .of_forall_ne fun l hl => (h l hl).ne_brace
  run_eq ps before := by
    induction body generalizing before with
    | nil => simp [run]
    | cons l body ih =>
      obtain ⟨hl, hbody⟩ := List.forall_mem_cons.1 h
      have hstep : step ⟨ps, before⟩ l = some ⟨ps, before ++ [.line l]⟩ := by
        rw [step, hl.classify_eq]
      rw [run, hstep, Option.bind_some, ih hbody, List.append_assoc, List.map_cons,
        List.singleton_append]

section Blocks

variable {bs : List (Block String String)}

theorem settled_branches (h : ∀ b ∈ bs, Reads b.bodyLines b.structured) :
    ∀ br ∈ branches bs, Settled br.2 := by
  induction bs with
  | nil => simp [branches]
  | cons b bs ih =>
    obtain ⟨hb, hbs⟩ := List.forall_mem_cons.1 h
    exact List.forall_mem_cons.2 ⟨hb.settled, ih hbs⟩

/-- After a branch the others are read into its chain, which the last one closes. -/
theorem run_joined (hne : bs ≠ []) (h : ∀ b ∈ bs, Reads b.bodyLines b.structured)
    (before : List Statement) (done : List (String × List Statement)) (c : String)
    (ps : List Pending) (body : List Statement) :
    run ⟨⟨before, done, some c⟩ :: ps, body⟩ (joined (branches bs)) =
      some ⟨ps, before ++ [.choice (done ++ (c, body) :: (structuredBranches bs).dropLast)
        ((structuredBranches bs).getLast?.map Prod.snd)]⟩ := by
  induction bs generalizing done c body with
  | nil => exact absurd rfl hne
  | cons b bs ih =>
    obtain ⟨hb, hbs⟩ := List.forall_mem_cons.1 h
    cases bs with
    | nil =>
      have helse : step ⟨⟨before, done, some c⟩ :: ps, body⟩ "\x7d else \x7b" =
          some ⟨⟨before, done ++ [(c, body)], none⟩ :: ps, []⟩ := by
        rw [step, classify_else]
      have hclose : step ⟨⟨before, done ++ [(c, body)], none⟩ :: ps, b.structured⟩ "\x7d" =
          some ⟨ps, before ++ [.choice (done ++ [(c, body)]) (some b.structured)]⟩ := by
        rw [step, classify_brace]
      rw [branches, branches, joined, run, helse, Option.bind_some, run_append, hb.run_eq,
        Option.bind_some, List.nil_append, run, hclose]
      rfl
    | cons b' bs =>
      have hfurther : step ⟨⟨before, done, some c⟩ :: ps, body⟩
          ("\x7d " ++ ("else if (" ++ b.condition.render ++ ") \x7b")) =
          some ⟨⟨before, done ++ [(c, body)], some b.condition.render⟩ :: ps, []⟩ := by
        rw [step, classify_elseIf]
      have hlater := ih (by simp) hbs (done ++ [(c, body)]) b.condition.render b.structured
      rw [branches] at hlater ⊢
      rw [branches, joined, run, hfurther, Option.bind_some, run_append, hb.run_eq, Option.bind_some,
        List.nil_append, hlater]
      · simp [structuredBranches]
      · simp

theorem reads_chain (h : ∀ b ∈ bs, Reads b.bodyLines b.structured) :
    Reads (chain (branches bs)) (choose (structuredBranches bs)) where
  settled := settled_chain (settled_branches h)
  run_eq ps body := by
    match bs with
    | [] => simp [branches, chain, structuredBranches, choose, run]
    | [b] => exact (h b List.mem_cons_self).run_eq ps body
    | b :: b' :: bs =>
      obtain ⟨hb, hbs⟩ := List.forall_mem_cons.1 h
      have hif : step ⟨ps, body⟩ ("if (" ++ b.condition.render ++ ") \x7b") =
          some ⟨⟨body, [], some b.condition.render⟩ :: ps, []⟩ := by
        rw [step, classify_if]
      rw [branches, chain_cons (by simp [branches]) hb.settled (settled_branches hbs), run, hif,
        Option.bind_some, run_append, hb.run_eq, Option.bind_some, run_joined (by simp) hbs]
      simp [structuredBranches, choose]

end Blocks

mutual
theorem reads_block : ∀ b : Block String String, (∀ l ∈ b.statements, IsPlain l) →
    Reads b.bodyLines b.structured
  | .leaf _ _, h => reads_plain h
  | .nested _ bs, h => reads_chain (reads_blocks bs h)
theorem reads_blocks : ∀ bs : List (Block String String), (∀ l ∈ statementsOf bs, IsPlain l) →
    ∀ b ∈ bs, Reads b.bodyLines b.structured
  | [], _ => by simp
  | b :: bs, h => by
    obtain ⟨hb, hbs⟩ := List.forall_mem_append.1 h
    exact List.forall_mem_cons.2 ⟨reads_block b hb, reads_blocks bs hbs⟩
end

/-- The lines of blocks are read as one chain of them, in order and the last as its `else`, and their
bodies likewise. -/
theorem parse_lines (bs : List (Block String String)) (h : ∀ l ∈ statementsOf bs, IsPlain l) :
    parse (lines bs) = some (choose (structuredBranches bs)) := by
  have hrun := (reads_chain (reads_blocks bs h)).run_eq [] []
  rw [parse, lines, hrun]
  rfl

/-- A chain in the body of another one, before its `else`, and a block alone. -/
def layeredBlocks : List (Block String String) :=
  [.nested (.test "a")
      [.leaf (.test "b") ["x;"], .nested (.test "c") [.leaf (.test "d") ["elsewhere;"]]],
    .leaf (.join .any [.test "e", .test "f"]) [], .leaf (.test "g") ["y;", "z;"]]

theorem parse_lines_layered :
    lines layeredBlocks =
        ["if (a) \x7b", "if (b) \x7b", "x;", "\x7d else \x7b", "elsewhere;", "\x7d",
          "\x7d else if (e || f) \x7b", "\x7d else \x7b", "y;", "z;", "\x7d"] ∧
      parse (lines layeredBlocks) =
        some [.choice [("a", [.choice [("b", [.line "x;"])] (some [.line "elsewhere;"])]),
          ("e || f", [])] (some [.line "y;", .line "z;"])] := by
  have hplain : ∀ l ∈ statementsOf layeredBlocks, IsPlain l := by
    have hall : statementsOf layeredBlocks = ["x;", "elsewhere;", "y;", "z;"] := rfl
    simp only [hall, List.forall_mem_cons]
    refine ⟨?_, ?_, ?_, ?_, by simp⟩ <;> exact ⟨by decide, by decide, by decide⟩
  refine ⟨by decide, ?_⟩
  rw [parse_lines layeredBlocks hplain]
  rfl

end Chain

end DtoGen
