import DtoGen.Command.Basic
import DtoGen.Files.Tree
import DtoGen.Proofs.Rendering

namespace DtoGen

/-- The place that a path leads to, whether anything is there or not. -/
def Path.place (current : List String) (p : Path) : List String :=
  p.parts.foldl (fun q n => if n = ".." then q.dropLast else q ++ [n])
    (if p.root = "" then current else [])

namespace FileTree

def file? (t : FileTree) (place : List String) : Option String :=
  match t.entry? place with
  | some (.file text) => some text
  | _ => none

theorem follow_eq {t : FileTree} {place q : List String} {names : List String}
    (h : t.follow place names = .ok q) :
    q = names.foldl (fun q n => if n = ".." then q.dropLast else q ++ [n]) place := by
  induction names generalizing place with
  | nil => exact (Except.ok.inj h).symm
  | cons n ns ih =>
    rw [follow] at h
    split at h
    · split_ifs at h with hlong hup
      · exact (ih h).trans (by rw [List.foldl_cons, if_pos hup])
      · exact (ih h).trans (by rw [List.foldl_cons, if_neg hup])
    · cases h
    · cases h

theorem locate_eq {t : FileTree} {p : Path} {place : List String} (h : t.locate p = .ok place) :
    place = p.place t.current := by
  unfold locate at h
  split_ifs at h with hlong hroot
  · rw [Path.place, if_pos hroot]
    exact follow_eq h
  · rw [Path.place, if_neg hroot]
    exact follow_eq h

theorem lookup_filter_ne {entries : List (List String × FileEntry)} {place q : List String}
    (h : q ≠ place) : (entries.filter (·.1 ≠ place)).lookup q = entries.lookup q := by
  induction entries with
  | nil => rfl
  | cons e rest ih =>
    obtain ⟨k, v⟩ := e
    by_cases hk : k = place
    · subst hk
      have hq : (q == k) = false := beq_eq_false_iff_ne.2 h
      simp only [List.filter_cons, ne_eq, not_true_eq_false, decide_false, Bool.false_eq_true,
        if_false, List.lookup_cons, hq, ih]
    · simp only [List.filter_cons, ne_eq, hk, not_false_eq_true, decide_true, if_true,
        List.lookup_cons, ih]

/-- Putting an entry changes nothing elsewhere. The top is always a directory. -/
theorem entry?_put {t : FileTree} {place : List String} (hne : place ≠ []) (e : FileEntry)
    (q : List String) : FileTree.entry? (t.put place e) q = if q = place then some e else t.entry? q := by
  unfold entry? put
  by_cases hq : q = place
  · subst hq
    simp [hne]
  · have hne' : (q == place) = false := beq_eq_false_iff_ne.2 hq
    simp only [hq, if_false, List.lookup_cons, hne', lookup_filter_ne hq]

/-- The files of a tree after some texts have been written, of which the last at a place counts. -/
structure Changes (t : FileTree) (writes : List (List String × String)) (t' : FileTree) : Prop where
  current : t'.current = t.current
  files : ∀ q, t'.file? q = (writes.reverse.lookup q).or (t.file? q)

namespace Changes

variable {t t' t'' : FileTree} {ws ws' : List (List String × String)}

theorem refl (t : FileTree) : Changes t [] t := ⟨rfl, fun _ => rfl⟩

theorem trans (h : Changes t ws t') (h' : Changes t' ws' t'') : Changes t (ws ++ ws') t'' where
  current := h'.current.trans h.current
  files q := by
    rw [h'.files, h.files, List.reverse_append, List.lookup_append, Option.or_assoc]

/-- Nothing has changed just if every text was there before. -/
theorem unchanged_iff (h : Changes t ws t') :
    (∀ q, t'.file? q = t.file? q) ↔ ∀ q x, ws.reverse.lookup q = some x → t.file? q = some x := by
  constructor
  · intro hsame q x hx
    rw [← hsame, h.files, hx, Option.some_or]
  · intro hthere q
    rw [h.files]
    cases hx : ws.reverse.lookup q with
    | none => rfl
    | some x => exact (hthere q x hx).symm

theorem write {p : Path} {text : String} (h : t.write p text = .ok t') :
    Changes t [(p.place t.current, text)] t' := by
  unfold FileTree.write at h
  cases hl : t.locate p with
  | error c => simp [hl, bind, Except.bind] at h
  | ok place =>
    have hplace := locate_eq hl
    simp only [hl, bind, Except.bind] at h
    split at h
    · cases h
    · rename_i hentry
      obtain rfl := Except.ok.inj h
      have hne : place ≠ [] := by
        rintro rfl
        exact hentry rfl
      refine ⟨rfl, fun q => ?_⟩
      rw [file?, entry?_put hne, ← hplace]
      by_cases hq : q = place
      · simp [hq]
      · have hne' : (q == place) = false := beq_eq_false_iff_ne.2 hq
        simp [hq, hne', List.lookup_cons, file?]

theorem makeDirectory {p : Path} (h : t.makeDirectory p = .ok t') : Changes t [] t' := by
  unfold FileTree.makeDirectory at h
  cases hl : t.locate p with
  | error c => simp [hl, bind, Except.bind] at h
  | ok place =>
    simp only [hl, bind, Except.bind] at h
    split at h
    · cases h
    · rename_i hentry
      obtain rfl := Except.ok.inj h
      have hne : place ≠ [] := by
        rintro rfl
        cases hentry
      refine ⟨rfl, fun q => ?_⟩
      rw [file?, entry?_put hne]
      by_cases hq : q = place
      · simp [hq, file?, hentry]
      · simp [hq, file?]

end Changes

def Keeps {α : Type} (x : StateM FileTree α) : Prop := ∀ t, Changes t [] (x t).2

namespace Keeps

variable {α β : Type}

theorem pure (a : α) : Keeps (Pure.pure a) := fun t => .refl t

theorem bind {x : StateM FileTree α} {f : α → StateM FileTree β} (hx : Keeps x)
    (hf : ∀ a, Keeps (f a)) : Keeps (x >>= f) := fun t => (hx t).trans (hf (x t).1 (x t).2)

theorem read (p : Path) : Keeps (fileSystem.read p) := fun t => .refl t

theorem isDirectory (p : Path) : Keeps (fileSystem.isDirectory p) := fun t => .refl t

theorem makeDirectory (p : Path) : Keeps (fileSystem.makeDirectory p) := by
  intro t
  change Changes t [] (attempt (·.makeDirectory p) t).2
  unfold attempt
  split
  · exact .makeDirectory ‹_›
  · exact .refl t

theorem unlessDirectory (p : Path) (c : FileCause) : Keeps (fileSystem.unlessDirectory p c) := by
  refine (isDirectory p).bind fun b => ?_
  cases b <;> exact .pure _

theorem makeDirectories (depth : Nat) (p : Path) : Keeps (fileSystem.makeDirectories depth p) := by
  induction depth generalizing p with
  | zero =>
    rw [FileSystem.makeDirectories]
    refine (makeDirectory p).bind fun r => ?_
    split
    · exact .pure _
    · exact .pure _
    · exact unlessDirectory p _
  | succ d ih =>
    rw [FileSystem.makeDirectories]
    refine (makeDirectory p).bind fun r => ?_
    split
    · exact .pure _
    · refine (ih p.parent).bind fun r => ?_
      split
      · exact .pure _
      · refine (makeDirectory p).bind fun r => ?_
        split
        · exact .pure _
        · exact .pure _
        · exact unlessDirectory p _
    · exact unlessDirectory p _

end Keeps

theorem bind_run {α β : Type} (x : StateM FileTree α) (f : α → StateM FileTree β) (t : FileTree) :
    (x >>= f) t = f (x t).1 (x t).2 := rfl

theorem makeDirectories_of_isDirectory {t : FileTree} {p : Path} (h : t.isDirectory p = true)
    (depth : Nat) : fileSystem.makeDirectories depth p t = (.ok (), t) := by
  have hmake : fileSystem.makeDirectory p t = (.error .exists, t) := by
    unfold FileTree.isDirectory at h
    simp only [fileSystem, attempt, FileTree.makeDirectory]
    cases hl : t.locate p with
    | error c => simp [hl] at h
    | ok place =>
      simp only [hl, decide_eq_true_eq] at h
      simp only [bind, Except.bind, h]
  have hthere : (fileSystem.isDirectory p t).1 = true := h
  rw [FileSystem.makeDirectories.eq_def]
  simp only [FileSystem.unlessDirectory, bind_run, hmake, hthere, if_true]
  rfl

def Encodable (text : String) : Prop := Text.unencodable? (fun _ => false) 0 text.toList = none

inductive Wrote (t : FileTree) (p : Path) (text : String) : Except FileError Unit × FileTree → Prop where
  | done {t' : FileTree} (h : Changes t [(p.place t.current, text)] t') : Wrote t p text (.ok (), t')
  | refused {t' : FileTree} (e : FileError) (h : Changes t [] t') : Wrote t p text (.error e, t')
  | emptied {t' : FileTree} (e : FileError) (hbroken : ¬Encodable text)
      (h : Changes t [(p.place t.current, "")] t') : Wrote t p text (.error e, t')

namespace Wrote

variable {t t₁ : FileTree} {p : Path} {text : String}

theorem writeText (t : FileTree) (p : Path) (text : String) :
    Wrote t p text (fileSystem.writeText p text t) := by
  simp only [FileSystem.writeText, fileSystem, attempt, bind, StateT.bind]
  cases hbroken : Text.unencodable? (fun _ => false) 0 text.toList with
  | none =>
    simp only [Option.isSome_none, Bool.false_eq_true, if_false]
    cases hw : t.write p text with
    | ok t' => exact .done (.write hw)
    | error c => exact .refused _ (.refl t)
  | some u =>
    have hno : ¬Encodable text := by simp [Encodable, hbroken]
    simp only [Option.isSome_some, if_true]
    cases hw : t.write p "" with
    | ok t' => exact .emptied _ hno (.write hw)
    | error c => exact .refused _ (.refl t)

theorem after (h : Changes t [] t₁) {r : Except FileError Unit × FileTree} (hr : Wrote t₁ p text r) :
    Wrote t p text r := by
  cases hr with
  | done h' => exact .done (h.current ▸ h.trans h')
  | refused e h' => exact .refused e (h.trans h')
  | emptied e hbroken h' => exact .emptied e hbroken (h.current ▸ h.trans h')

theorem writeFile (t : FileTree) (p : Path) (text : String) :
    Wrote t p text (fileSystem.writeFile p text t) := by
  unfold FileSystem.writeFile
  cases p.abort? with
  | some a => exact .refused _ (.refl t)
  | none =>
    have hkeeps := Keeps.makeDirectories p.parent.parts.length p.parent t
    simp only [bind_run]
    generalize fileSystem.makeDirectories p.parent.parts.length p.parent t = r at hkeeps ⊢
    obtain ⟨made, t₁⟩ := r
    cases made with
    | error e => exact .refused e hkeeps
    | ok _ => exact (writeText t₁ p text).after hkeeps

end Wrote

theorem writeFile_eq {t : FileTree} {p : Path} (text : String) (hname : p.abort? = none)
    (hparent : t.isDirectory p.parent = true) :
    fileSystem.writeFile p text t = fileSystem.writeText p text t := by
  simp only [FileSystem.writeFile, hname, bind_run, makeDirectories_of_isDirectory hparent]

/-- What is left of files to be written when writing them fails: those before the failure, and the one
at which it failed if there was no way to write its text. -/
inductive Unfinished (current : List String) :
    List (Path × String) → List (List String × String) → Prop where
  | refused (p : Path) (text : String) (rest : List (Path × String)) :
      Unfinished current ((p, text) :: rest) []
  | emptied (p : Path) {text : String} (hbroken : ¬Encodable text) (rest : List (Path × String)) :
      Unfinished current ((p, text) :: rest) [(p.place current, "")]
  | later (p : Path) (text : String) {rest : List (Path × String)} {left : List (List String × String)}
      (h : Unfinished current rest left) :
      Unfinished current ((p, text) :: rest) ((p.place current, text) :: left)

theorem unfinished_writeAll {t : FileTree} {files : List (Path × String)} {e : FileError}
    (h : (fileSystem.writeAll files t).1 = .error e) :
    ∃ left, Unfinished t.current files left ∧ Changes t left (fileSystem.writeAll files t).2 := by
  induction files generalizing t with
  | nil => cases h
  | cons f rest ih =>
    obtain ⟨p, text⟩ := f
    have hfile := Wrote.writeFile t p text
    simp only [FileSystem.writeAll, bind_run] at h ⊢
    generalize fileSystem.writeFile p text t = r at hfile h ⊢
    cases hfile with
    | refused e' hchanges => exact ⟨[], .refused p text rest, hchanges⟩
    | emptied e' hbroken hchanges => exact ⟨_, .emptied p hbroken rest, hchanges⟩
    | @done t₁ hchanges =>
      -- the failure is a later one, and what it leaves comes on top of this file
      simp only [bind_run] at h ⊢
      generalize hrest : fileSystem.writeAll rest t₁ = r at h ⊢
      obtain ⟨wrote, t₂⟩ := r
      cases wrote with
      | ok ps => cases h
      | error e' =>
        obtain ⟨left, hleft, hlater⟩ := ih (t := t₁) (by rw [hrest]; exact h)
        rw [hrest] at hlater
        rw [hchanges.current] at hleft
        exact ⟨_, .later p text hleft, hchanges.trans hlater⟩

def Reads {α : Type} (x : StateM FileTree α) : Prop := ∀ t, (x t).2 = t

namespace Reads

theorem pure {α : Type} (a : α) : Reads (Pure.pure a) := fun _ => rfl

theorem bind {α β : Type} {x : StateM FileTree α} {f : α → StateM FileTree β} (hx : Reads x)
    (hf : ∀ a, Reads (f a)) : Reads (x >>= f) := fun t => (hf _ _).trans (hx t)

theorem read (p : Path) : Reads (fileSystem.read p) := fun _ => rfl

theorem readText (p : Path) : Reads (fileSystem.readText p) := by
  unfold FileSystem.readText
  split
  · exact .pure _
  · refine (read p).bind fun r => ?_
    split <;> exact .pure _

theorem loadService (p : Path) : Reads (Service.load fileSystem p) := by
  unfold Service.load
  split
  · exact .pure _
  · refine (readText p).bind fun r => ?_
    split <;> exact .pure _

theorem loadOptions (config : Option Arguments.Setting) :
    Reads (Command.loadOptions fileSystem config) := by
  unfold Command.loadOptions
  split
  · exact .pure _
  · exact .pure _
  · exact .pure _
  · refine (readText _).bind fun r => ?_
    split <;> exact .pure _

end Reads

end FileTree

namespace Command

open Arguments (Setting)

open FileTree (fileSystem)

def hasFailed : Run → Bool
  | .ok o => o.exit = 1
  | .error _ => true

/-- The files that are to be written, unless something fails before the first of them. -/
def planned (t : FileTree) (file : String) (config role : Option Setting) (output : Setting) :
    Option (List (Path × String)) := do
  let s ← (Service.load fileSystem (Path.ofText file) t).1.toOption
  let o ← (loadOptions fileSystem config t).1.toOption
  let o ← (withRole role o).toOption
  let as ← (s.generate o).result.toOption
  match output with
  | .text directory => some (as.map fun a => ((Path.ofText directory).join a.path, a.contents))
  | .nothing => none

variable {t : FileTree} {verbose : Bool} {file : String} {config role : Option Setting}
  {output : Setting}

theorem reportIn_run (directory : Path) (as : List Artifact) :
    (reportIn fileSystem directory as t).2 = (writeArtifacts fileSystem directory as t).2 ∧
      (hasFailed (reportIn fileSystem directory as t).1 = true ↔
        ∃ e, (writeArtifacts fileSystem directory as t).1 = .error e) := by
  unfold reportIn
  simp only [FileTree.bind_run]
  generalize writeArtifacts fileSystem directory as t = w
  obtain ⟨wrote, t'⟩ := w
  cases wrote with
  | ok paths => exact ⟨rfl, fun h => (by cases h), fun ⟨e, he⟩ => (by cases he)⟩
  | error e =>
    obtain ⟨cause, path⟩ := e
    cases cause <;> exact ⟨rfl, fun _ => ⟨_, rfl⟩, fun _ => rfl⟩

theorem hasFailed_map_after (r : Run) (out err : String) :
    hasFailed (r.map (Outcome.after out err)) = true ↔ hasFailed r = true := by
  cases r <;> rfl

/-- The part of a run that comes before writing touches nothing, and a run that comes to writing fails
just if writing does. -/
theorem runGenerate_run (t : FileTree) (verbose : Bool) (file : String)
    (config role : Option Setting) (output : Setting) :
    planned t file config role output = none ∧
        (runGenerate fileSystem verbose file config role output t).2 = t ∨
      ∃ files, planned t file config role output = some files ∧
        (runGenerate fileSystem verbose file config role output t).2 =
          (fileSystem.writeAll files t).2 ∧
        (hasFailed (runGenerate fileSystem verbose file config role output t).1 = true ↔
          ∃ e, (fileSystem.writeAll files t).1 = .error e) := by
  have hs := FileTree.Reads.loadService (Path.ofText file) t
  have ho := FileTree.Reads.loadOptions config t
  simp only [runGenerate, planned, FileTree.bind_run, hs]
  -- each step before writing either ends the run or gives what the next one needs
  cases (Service.load fileSystem (Path.ofText file) t).1 with
  | error e => exact .inl ⟨rfl, rfl⟩
  | ok s =>
    simp only [FileTree.bind_run, ho, Except.toOption, Option.bind_eq_bind, Option.bind_some]
    cases (loadOptions fileSystem config t).1 with
    | error e => exact .inl ⟨rfl, rfl⟩
    | ok o =>
      simp only [Option.bind_some]
      cases withRole role o with
      | error a => exact .inl ⟨rfl, rfl⟩
      | ok o =>
        simp only [generateInto, Option.bind_some]
        cases (s.generate o).result with
        | error e => cases e <;> exact .inl ⟨rfl, rfl⟩
        | ok as =>
          cases output with
          | nothing => exact .inl ⟨rfl, rfl⟩
          | text directory =>
            obtain ⟨htree, hfailed⟩ := reportIn_run (t := t) (Path.ofText directory) as
            exact .inr ⟨_, rfl, htree, (hasFailed_map_after _ _ _).trans hfailed⟩

end Command

namespace Blocked

open FileTree (fileSystem)

def service : Service := { title := "T" }

/-- A directory lies where the second artifact goes. -/
def tree : FileTree where
  entries :=
    [(["s.json"], .file "\x7b\"title\": \"T\"\x7d"),
     (["generated"], .directory),
     (["generated", "v1"], .directory),
     (["generated", "v1", "dtos"], .directory),
     (["generated", "v1", "dtos", "types.ts"], .directory)]

theorem load_json {t : FileTree} {p : Path} {text : String} (hp : Read.lowerAscii p.suffix = ".json")
    (hread : fileSystem.readText p t = (.ok text, t)) :
    (Service.load fileSystem p t).1 = Service.parseJson p.text text := by
  have hparser : Service.parser? p.suffix = some Service.parseJson := by
    unfold Service.parser?
    exact if_pos hp
  unfold Service.load
  rw [hparser]
  change ((fileSystem.readText p >>= _) t).1 = _
  rw [FileTree.bind_run, hread]
  rfl

theorem loads : (Service.load fileSystem (Path.ofText "s.json") tree).1 = .ok service := by
  have hpath : Path.ofText "s.json" = ⟨"", ["s.json"]⟩ := by decide +kernel
  have hparse : Service.parseJson (Path.text ⟨"", ["s.json"]⟩) "\x7b\"title\": \"T\"\x7d" =
      .ok service := by
    cbv
  rw [hpath]
  exact (load_json (by decide +kernel) rfl).trans hparse

theorem sound : service.check.isSound = true := by decide +kernel

theorem exists_mappers : ∃ a, (Artifact.Mappers.render service {}).result = .ok a := by
  refine (Artifact.Mappers.exists_render_iff (Service.isSound_iff.1 sound)).2 fun u hu => ?_
  cases hu

/-- Whatever the artifacts say, the first two go to these places. -/
theorem exists_planned : ∃ x y rest,
    Command.planned tree "s.json" none none (.text "./generated") =
      some ((⟨"", ["generated", "v1", "types.ts"]⟩, x) ::
        (⟨"", ["generated", "v1", "dtos", "types.ts"]⟩, y) :: rest) := by
  have hintegers : service.integers = [1] := by cbv
  have hshort : ∀ n ∈ service.integers, Abort.isShort n = true := by
    rw [hintegers]
    decide
  obtain ⟨files, hfiles⟩ := Service.exists_generate (o := {}) sound exists_mappers hshort
  obtain ⟨-, hrendered⟩ := Service.rendered_of_generate hfiles
  obtain ⟨types, _, htypes, hrest, rfl⟩ := List.forall₂_cons_left_iff.1 hrendered
  obtain ⟨dtos, rest, hdtos, -, rfl⟩ := List.forall₂_cons_left_iff.1 hrest
  have htypesPath : types.path = ["v1", "types.ts"] := by
    obtain ⟨_, -, ha⟩ := Journal.bind_result_ok.1 htypes
    exact Except.ok.inj ha ▸ rfl
  have hdtosPath : dtos.path = ["v1", "dtos", "types.ts"] := by
    obtain ⟨_, -, ha⟩ := Journal.bind_result_ok.1 hdtos
    exact Except.ok.inj ha ▸ rfl
  have hplanned : Command.planned tree "s.json" none none (.text "./generated") =
      some ((types :: dtos :: rest).map fun a =>
        ((Path.ofText "./generated").join a.path, a.contents)) := by
    simp only [Command.planned, loads]
    change Option.bind (service.generate {}).result.toOption _ = _
    rw [hfiles]
    rfl
  refine ⟨types.contents, dtos.contents,
    rest.map fun a => ((Path.ofText "./generated").join a.path, a.contents), ?_⟩
  rw [hplanned, List.map_cons, List.map_cons, htypesPath, hdtosPath]
  rfl

def begun (x : String) : FileTree := tree.put ["generated", "v1", "types.ts"] (.file x)

theorem write_first (x : String) :
    fileSystem.write ⟨"", ["generated", "v1", "types.ts"]⟩ x tree = (.ok (), begun x) := rfl

theorem write_second (x y : String) :
    fileSystem.write ⟨"", ["generated", "v1", "dtos", "types.ts"]⟩ y (begun x) =
      (.error .isDirectory, begun x) := rfl

theorem writeFile_second (x y : String) :
    fileSystem.writeFile ⟨"", ["generated", "v1", "dtos", "types.ts"]⟩ y (begun x) =
      (.error ⟨.isDirectory, ⟨"", ["generated", "v1", "dtos", "types.ts"]⟩⟩, begun x) := by
  rw [FileTree.writeFile_eq y (by decide +kernel) rfl, FileSystem.writeText, FileTree.bind_run,
    write_second]
  rfl

/-- The first artifact is written, or made and left empty; the second cannot be. -/
theorem writeAll_fails (x y : String) (rest : List (Path × String)) :
    ∃ e text, fileSystem.writeAll ((⟨"", ["generated", "v1", "types.ts"]⟩, x) ::
      (⟨"", ["generated", "v1", "dtos", "types.ts"]⟩, y) :: rest) tree = (.error e, begun text) := by
  rw [FileSystem.writeAll, FileTree.bind_run, FileTree.writeFile_eq x (by decide +kernel) rfl,
    FileSystem.writeText, FileTree.bind_run, write_first]
  cases hbroken : Text.unencodable? (fun _ => false) 0 x.toList with
  | some u => exact ⟨_, "", rfl⟩
  | none =>
    refine ⟨⟨.isDirectory, ⟨"", ["generated", "v1", "dtos", "types.ts"]⟩⟩, x, ?_⟩
    simp only [Option.isSome_none, Bool.false_eq_true, if_false]
    change (fileSystem.writeAll _ >>= _) (begun x) = _
    rw [FileTree.bind_run, FileSystem.writeAll, FileTree.bind_run, writeFile_second]
    rfl

set_option maxRecDepth 8000 in
theorem parsed : Command.parse ["generate", "s.json"] =
    .ok ⟨false, some (.generate "s.json" none none (.text "./generated"))⟩ := rfl

theorem runs : Command.hasFailed (Command.run fileSystem ["generate", "s.json"] tree).1 = true ∧
    ∃ text, (Command.run fileSystem ["generate", "s.json"] tree).2 = begun text := by
  have hrun : Command.run fileSystem ["generate", "s.json"] tree =
      Command.runGenerate fileSystem false "s.json" none none (.text "./generated") tree := by
    simp only [Command.run, parsed]
  obtain ⟨x, y, rest, hplanned⟩ := exists_planned
  obtain ⟨e, text, hwrite⟩ := writeAll_fails x y rest
  rw [hrun]
  rcases Command.runGenerate_run tree false "s.json" none none (.text "./generated") with
    ⟨hnone, -⟩ | ⟨files, hfiles, htree, hfailed⟩
  · rw [hplanned] at hnone
    cases hnone
  · obtain rfl := Option.some.inj (hplanned.symm.trans hfiles)
    rw [hwrite] at htree hfailed
    exact ⟨hfailed.2 ⟨e, rfl⟩, text, htree⟩

end Blocked

namespace Command

open Arguments (Setting)

open FileTree (fileSystem)

variable {t : FileTree} {verbose : Bool} {file : String} {config role : Option Setting}
  {output : Setting}

/-- A run of `generate` that ends with status 1 leaves what was written before the failure, so nothing
has changed just if all that was there before. -/
theorem failed_generate_unchanged_iff {args : List String}
    (hargs : parse args = .ok ⟨verbose, some (.generate file config role output)⟩)
    (hfailed : hasFailed (run fileSystem args t).1 = true) :
    ∃ left,
      (planned t file config role output = none → left = []) ∧
      (∀ files, planned t file config role output = some files →
        FileTree.Unfinished t.current files left) ∧
      FileTree.Changes t left (run fileSystem args t).2 ∧
      ((∀ q, (run fileSystem args t).2.file? q = t.file? q) ↔
        ∀ q x, left.reverse.lookup q = some x → t.file? q = some x) := by
  have hrun : run fileSystem args t = runGenerate fileSystem verbose file config role output t := by
    simp only [run, hargs]
  rw [hrun] at hfailed ⊢
  rcases runGenerate_run t verbose file config role output with
    ⟨hnone, htree⟩ | ⟨files, hsome, htree, hwrite⟩
  · rw [htree]
    refine ⟨[], fun _ => rfl, fun files h => ?_, .refl t, (FileTree.Changes.refl t).unchanged_iff⟩
    exact (Option.some_ne_none files (h.symm.trans hnone)).elim
  · obtain ⟨e, he⟩ := hwrite.1 hfailed
    obtain ⟨left, hleft, hchanges⟩ := FileTree.unfinished_writeAll he
    rw [htree]
    refine ⟨left, fun h => ?_, fun files' h => ?_, hchanges, hchanges.unchanged_iff⟩
    · rw [hsome] at h
      cases h
    · rw [hsome] at h
      exact Option.some.inj h ▸ hleft

end Command

namespace Blocked

open FileTree (fileSystem)

/-- What the run with a directory in the way leaves is a part of what was planned. -/
theorem leaves_planned :
    Command.parse ["generate", "s.json"] =
      .ok ⟨false, some (.generate "s.json" none none (.text "./generated"))⟩ ∧
    Command.hasFailed (Command.run fileSystem ["generate", "s.json"] tree).1 = true ∧
    ∃ files left, Command.planned tree "s.json" none none (.text "./generated") = some files ∧
      FileTree.Unfinished [] files left ∧
      FileTree.Changes tree left (Command.run fileSystem ["generate", "s.json"] tree).2 := by
  obtain ⟨left, -, hleft, hchanges, -⟩ := Command.failed_generate_unchanged_iff parsed runs.1
  obtain ⟨x, y, rest, hplanned⟩ := exists_planned
  exact ⟨parsed, runs.1, _, left, hplanned, hleft _ hplanned, hchanges⟩

/-- The run fails, and there is a file that was not there. -/
theorem failed_run_writes :
    Command.hasFailed (Command.run fileSystem ["generate", "s.json"] tree).1 = true ∧
      tree.file? ["generated", "v1", "types.ts"] = none ∧
      (Command.run fileSystem ["generate", "s.json"] tree).2.file? ["generated", "v1", "types.ts"] ≠
        none := by
  obtain ⟨hfailed, text, htree⟩ := runs
  refine ⟨hfailed, rfl, ?_⟩
  rw [htree]
  exact Option.some_ne_none text

end Blocked

end DtoGen
