import DtoGen.Proofs.MapperNames

namespace DtoGen

open Journal

variable {s : Service} {o : Options}

theorem Declared.kind {k : ArtifactKind} {x : String} (h : Declared s o k x) :
    k = .types ∨ k = .dtos ∨ k = .handlerTypes := by
  cases h with
  | record f _ | union f _ => cases f <;> simp [Facet.artifact]
  | interface | params | enum | handler => simp

/-- What is said of a union without a mapper holds no integer. -/
theorem RenderError.NoMapper.ofRender {u : String} {c : RenderError} (h : NoMapper u c) :
    GenerationError.ofRender c = .unrenderable c := by
  cases h <;> rfl

namespace ArtifactKind

/-- What any artifact mentions, fails with and declares. -/
theorem render_meets (h : s.Sound) (k : ArtifactKind) :
    (k.render s o).Meets (Known s o k) (fun e => k = .mappers ∧ Artifact.Mappers.Fails s o e)
      fun a => ∀ x, Declared s o k x → a.Exports x := by
  cases k with
  | types => exact Artifact.Types.render_meets h
  | dtos => exact Artifact.Dtos.render_meets h
  | handlerTypes => exact Artifact.HandlerTypes.render_meets h
  | mappers =>
    refine ((Artifact.Mappers.render_meets h).mono_error fun e he => ⟨rfl, he⟩).mono ?_
    intro a _ x hx
    simpa using hx.kind
  | readme => exact Artifact.Readme.render_meets.mono fun a _ x hx => by simpa using hx.kind
  | handlers => exact (Artifact.Handlers.render_meets h).mono fun a _ x hx => by simpa using hx.kind
  | errors => exact Artifact.Errors.render_meets.mono fun a _ x hx => by simpa using hx.kind
  | index => exact Artifact.Index.render_meets.mono fun a _ x hx => by simpa using hx.kind

/-- Only handlers look for types among those of handlers, so what is looked for is generated too. -/
theorem home_mem_all {k home : ArtifactKind} {p : Perspective} {m : Mention} (hk : k ∈ all p)
    (hhome : k.home? s o m = some home) {x : String} (hx : Declared s o home x) : home ∈ all p := by
  cases p with
  | server => rcases hx.kind with rfl | rfl | rfl <;> simp [all]
  | client =>
    have hne : home ≠ .handlerTypes := by
      rintro rfl
      unfold home? at hhome
      split at hhome
      · obtain rfl := Option.some.inj hhome
        simp [all] at hk
      · -- only the module of handler types leads there, and these artifacts do not import it
        rename_i a _
        obtain ⟨i, hi, hmodule⟩ := Option.bind_eq_some_iff.1 hhome
        obtain rfl : a = "expressTypes" := by
          unfold ofModule? at hmodule
          split at hmodule <;> simp_all
        simp only [all, List.mem_cons, List.not_mem_nil, or_false] at hk
        rcases hk with rfl | rfl | rfl | rfl <;> cases hi
    rcases hx.kind with rfl | rfl | rfl
    · simp [all]
    · simp [all]
    · exact absurd rfl hne

/-- An artifact is made if it is rendered and all integers in it can be written out. -/
theorem emit_ok_iff {k : ArtifactKind} {a : Artifact} : (k.emit s o).result = .ok a ↔
    (k.render s o).result = .ok a ∧ ∀ m ∈ (k.render s o).mentions, m.isLong = false := by
  unfold emit Journal.stopAt Journal.mapError
  split_ifs with hlong
  · refine iff_of_false nofun fun h => ?_
    obtain ⟨m, hm, htrue⟩ := List.any_eq_true.1 hlong
    rw [h.2 m hm] at htrue
    cases htrue
  · have hshort : ∀ m ∈ (k.render s o).mentions, m.isLong = false := by simpa using hlong
    rw [and_iff_left hshort]
    cases (k.render s o).result with
    | ok b => exact ⟨fun h => congrArg Except.ok (Except.ok.inj h),
        fun h => congrArg Except.ok (Except.ok.inj h)⟩
    | error c => exact ⟨nofun, nofun⟩

theorem emit_of_long {k : ArtifactKind} {m : Mention} (hm : m ∈ (k.render s o).mentions)
    (hlong : m.isLong = true) : (k.emit s o).result = .error (.aborted .longNumeral) := by
  have hany : (k.render s o).mentions.any Mention.isLong = true := List.any_eq_true.2 ⟨m, hm, hlong⟩
  unfold emit Journal.stopAt Journal.mapError
  rw [if_pos hany]

theorem version_mentioned {k : ArtifactKind} {a : Artifact} (h : (k.render s o).result = .ok a) :
    .numeral s.majorVersion ∈ (k.render s o).mentions := by
  have hassemble : ∀ (f : Frame) (path : List String) (body : Body),
      (f.assemble path body).result = .ok a →
        .numeral f.service.majorVersion ∈ (f.assemble path body).mentions := by
    intro f path body ha
    obtain ⟨lines, hlines, -⟩ := bind_result_ok.1 ha
    rw [Frame.assemble, bind_of_ok hlines]
    exact List.mem_append_right _ (List.mem_singleton_self _)
  cases k with
  | readme => exact List.mem_singleton_self _
  | _ => exact hassemble _ _ _ h

theorem emit_error {k : ArtifactKind} {e : GenerationError} (h : (k.emit s o).result = .error e) :
    (∃ c, (k.render s o).result = .error c ∧ e = .ofRender c) ∨
      e = .aborted .longNumeral ∧ ∃ m ∈ (k.render s o).mentions, m.isLong = true := by
  have hrender : (k.render s o).Meets (fun _ => True) (fun c => (k.render s o).result = .error c)
      fun _ => True := ⟨fun _ _ => trivial, fun _ _ => trivial, fun c hc => hc⟩
  have hmapped : ((k.render s o).mapError GenerationError.ofRender).Meets (fun _ => True)
      (fun e => ∃ c, (k.render s o).result = .error c ∧ e = .ofRender c) fun _ => True :=
    hrender.mapError fun c hc => ⟨c, hc, rfl⟩
  exact (hmapped.stopAt Mention.isLong (.aborted .longNumeral)).error e h

end ArtifactKind

namespace Service

/-- All artifacts are made, in their order, or the first that cannot be made ends the work. -/
theorem generate_meets : (s.generate o).Meets (fun _ => True)
    (fun e => s.check.isSound = false ∨
      ∃ k ∈ ArtifactKind.all o.role, (∃ c, (k.render s o).result = .error c ∧ e = .ofRender c) ∨
        e = .aborted .longNumeral ∧ ∃ m ∈ (k.render s o).mentions, m.isLong = true)
    fun files => s.check.isSound = true ∧
      List.Forall₂ (fun k a => (k.emit s o).result = .ok a) (ArtifactKind.all o.role) files := by
  have hannounced : ∀ k ∈ ArtifactKind.all o.role, (s.announced o k).Meets (fun _ => True)
      (fun e => s.check.isSound = false ∨
        ∃ k ∈ ArtifactKind.all o.role, (∃ c, (k.render s o).result = .error c ∧ e = .ofRender c) ∨
          e = .aborted .longNumeral ∧ ∃ m ∈ (k.render s o).mentions, m.isLong = true)
      fun a => (k.emit s o).result = .ok a := by
    intro k hk
    unfold announced
    refine (Meets.note fun _ _ => trivial).bind fun _ _ => ?_
    refine Meets.bind (R := fun a => (k.emit s o).result = .ok a)
      ⟨fun _ _ => trivial, fun _ ha => ha, fun e he => .inr ⟨k, hk, k.emit_error he⟩⟩ fun a ha => ?_
    exact .record (fun _ _ => trivial) ha
  unfold generate
  simp only
  split_ifs with hw hs
  · refine (Meets.note fun _ _ => trivial).bind fun _ _ => ?_
    exact (Meets.traverse hannounced).mono fun files hfiles => ⟨hs, hfiles⟩
  · exact (Meets.note fun _ _ => trivial).bind fun _ _ => .fail (.inl (by simpa using hs))
  · -- a report with findings that cannot be put into words has findings
    refine .fail (.inl ?_)
    by_contra hs
    have hnone : s.check.defects = [] := by simpa [CheckReport.isSound] using hs
    simp [CheckReport.isWritable, hnone] at hw

theorem rendered_of_generate {files : List Artifact} (h : (s.generate o).result = .ok files) :
    s.check.isSound = true ∧
      List.Forall₂ (fun k a => (k.render s o).result = .ok a) (ArtifactKind.all o.role) files := by
  obtain ⟨hs, hfiles⟩ := generate_meets.ok files h
  exact ⟨hs, hfiles.imp fun k a ha => (k.emit_ok_iff.1 ha).1⟩

/-- Every type that a generated artifact mentions, of its own or of another one, is exported there. -/
theorem mentioned_types_exported {files : List Artifact} (h : (s.generate o).result = .ok files)
    {k : ArtifactKind} (hk : k ∈ ArtifactKind.all o.role) {m : Mention}
    (hm : m ∈ (k.render s o).mentions) {x : String} (hx : m.typeName? = some x) :
    ∃ home a, k.home? s o m = some home ∧ home ∈ ArtifactKind.all o.role ∧
      (home.render s o).result = .ok a ∧ a ∈ files ∧ a.Exports x := by
  obtain ⟨hs, hfiles⟩ := rendered_of_generate h
  have hsound := isSound_iff.1 hs
  have hknown : Known s o k m := (k.render_meets hsound).mentions m hm
  obtain ⟨home, hhome, hdeclared⟩ := hknown.exported x hx
  have hmem := ArtifactKind.home_mem_all hk hhome hdeclared
  obtain ⟨a, ha, hok⟩ := exists_related_of_mem_left hfiles hmem
  exact ⟨home, a, hhome, hmem, hok, ha, (home.render_meets hsound).ok a hok x hdeclared⟩

/-- What is too long to be written out is an integer of the service. -/
theorem Sound.exists_long (h : s.Sound) {k : ArtifactKind} {m : Mention}
    (hm : m ∈ (k.render s o).mentions) (hlong : m.isLong = true) :
    ∃ n ∈ s.integers, .numeral n ∈ (k.render s o).mentions ∧ Abort.isShort n = false := by
  cases m with
  | numeral n =>
    have hmem : n ∈ s.integers := ((k.render_meets h).mentions _ hm).numbered n rfl
    exact ⟨n, hmem, hm, by simpa [Mention.isLong] using hlong⟩
  | _ => cases hlong

/-- Nothing but mappers can be wanting in a service without defects. -/
theorem Sound.exists_render (h : s.Sound) (o : Options) {k : ArtifactKind} (hk : k ≠ .mappers) :
    ∃ a, (k.render s o).result = .ok a := by
  have hnever := (k.render_meets (o := o) h).mono_error fun e he => hk he.1
  obtain ⟨a, ha, -⟩ := hnever.exists_ok
  exact ⟨a, ha⟩

/-- What ends generation is the want of a mapper or an integer that is too long. -/
theorem Sound.generate_error (h : s.Sound) {e : GenerationError} (he : (s.generate o).result = .error e) :
    (∃ c, (Artifact.Mappers.render s o).result = .error c ∧ e = .unrenderable c ∧
      ∃ u ∈ s.unions, RenderError.NoMapper u.name c) ∨
    e = .aborted .longNumeral ∧ ∃ k ∈ ArtifactKind.all o.role, ∃ n ∈ s.integers,
      .numeral n ∈ (k.render s o).mentions ∧ Abort.isShort n = false := by
  rcases generate_meets.error e he with hdefects | ⟨k, hk, ⟨c, hc, rfl⟩ | ⟨rfl, m, hm, hlong⟩⟩
  · rw [isSound_iff.2 h] at hdefects
    cases hdefects
  · obtain ⟨rfl, u, hu, -, -, -, hno⟩ := (k.render_meets h).error c hc
    exact .inl ⟨c, hc, hno.ofRender, u, hu, hno⟩
  · exact .inr ⟨rfl, k, hk, h.exists_long hm hlong⟩

/-- If every union has its mappers and no integer is too long, then all artifacts are generated. -/
theorem exists_generate (hs : s.check.isSound = true)
    (hm : ∃ a, (Artifact.Mappers.render s o).result = .ok a)
    (hn : ∀ n ∈ s.integers, Abort.isShort n = true) :
    ∃ files, (s.generate o).result = .ok files := by
  obtain ⟨a, ha⟩ := hm
  cases hg : (s.generate o).result with
  | ok files => exact ⟨files, rfl⟩
  | error e =>
    rcases (isSound_iff.1 hs).generate_error hg with ⟨c, hc, -⟩ | ⟨-, k, -, n, hmem, -, hlong⟩
    · have hboth : Except.ok a = .error c := ha.symm.trans hc
      cases hboth
    · rw [hn n hmem] at hlong
      cases hlong

/-- What the check of a service guards against: apart from integers that are too long to be written out,
no artifact but the mappers fails, none lacks an import, and no record lacks a type; what else
generation fails with is said of a union. -/
structure Guarded (s : Service) (o : Options) : Prop where
  others : ∀ k ≠ ArtifactKind.mappers, ∃ a, (k.render s o).result = .ok a
  emitted : ∀ k ≠ ArtifactKind.mappers, (∃ a, (k.emit s o).result = .ok a) ↔
    ∀ n, .numeral n ∈ (k.render s o).mentions → Abort.isShort n = true
  aborted : ∀ k ≠ ArtifactKind.mappers, ∀ e, (k.emit s o).result = .error e → e = .aborted .longNumeral
  numerals : ∀ (k : ArtifactKind) n, .numeral n ∈ (k.render s o).mentions → n ∈ s.integers
  imports : ∀ k : ArtifactKind, ∀ a ∈ (k.frame s o).scope.moduleNames (k.render s o).mentions,
    ((k.frame s o).modules.lookup a).isSome = true
  failure : ∀ e, (s.generate o).result = .error e →
    (∃ c, (Artifact.Mappers.render s o).result = .error c ∧ e = .unrenderable c ∧
      e.message = c.message ∧ ∃ u ∈ s.unions, RenderError.NoMapper u.name c) ∨
    e = .aborted .longNumeral ∧ ∃ k ∈ ArtifactKind.all o.role, ∃ n,
      .numeral n ∈ (k.render s o).mentions ∧ Abort.isShort n = false
  records : ∀ t ∈ s.types, ∀ f, ∃ r, s.recordType f t = .ok r

theorem guarded_of_isSound (hs : s.check.isSound = true) (o : Options) : s.Guarded o := by
  have hsound := isSound_iff.1 hs
  refine ⟨fun k hk => hsound.exists_render o hk, fun k hk => ?_, fun k hk e he => ?_, fun k n hn => ?_,
    fun k a ha => ?_, fun e he => ?_, fun t ht f => hsound.exists_recordType ht f⟩
  · obtain ⟨a, ha⟩ := hsound.exists_render o hk
    constructor
    · rintro ⟨b, hb⟩ n hn
      simpa [Mention.isLong] using (ArtifactKind.emit_ok_iff.1 hb).2 _ hn
    · intro hshort
      refine ⟨a, ArtifactKind.emit_ok_iff.2 ⟨ha, fun m hm => ?_⟩⟩
      cases m with
      | numeral n => simpa [Mention.isLong] using hshort n hm
      | _ => rfl
  · rcases ArtifactKind.emit_error he with ⟨c, hc, -⟩ | ⟨rfl, -⟩
    · obtain ⟨a, ha⟩ := hsound.exists_render o hk
      rw [ha] at hc
      cases hc
    · rfl
  · exact ((k.render_meets hsound).mentions _ hn).numbered n rfl
  · unfold Scope.moduleNames at ha
    obtain ⟨m, hm, hname⟩ := List.mem_filterMap.1 (List.mem_eraseDups.1 (List.mem_mergeSort.1 ha))
    exact ((k.render_meets hsound).mentions m hm).imported a hname
  · rcases hsound.generate_error he with ⟨c, hc, rfl, hno⟩ | ⟨rfl, k, hk, n, -, hn, hlong⟩
    · exact .inl ⟨c, hc, rfl, rfl, hno⟩
    · exact .inr ⟨rfl, k, hk, n, hn, hlong⟩

end Service

namespace Library

theorem handler_mentioned : .member "expressTypes" "FindRequestHandler" ∈
    (ArtifactKind.handlers.render service {}).mentions := by
  have hfirst : service.bindings.head?.map (·.method.name) = some "find" := by cbv
  have hname : Naming.requestHandlerTypeName "find" = "FindRequestHandler" := by decide +kernel
  obtain ⟨b, hb, hfind⟩ := Option.map_eq_some_iff.1 hfirst
  obtain ⟨rest, hbindings⟩ := List.head?_eq_some_iff.1 hb
  have hhead : .member "expressTypes" "FindRequestHandler" ∈
      (Artifact.Handlers.headLines {} b).mentions := by
    rw [← hname, ← hfind]
    exact .tail _ (.tail _ (.tail _ (.head _)))
  have hhandler : .member "expressTypes" "FindRequestHandler" ∈
      (Artifact.Handlers.handlerBody service {} b).mentions := by
    -- the head is the innermost part of the body on the left
    iterate 5 apply mentions_subset_bind
    exact hhead
  have hbody : .member "expressTypes" "FindRequestHandler" ∈
      (Artifact.Handlers.body service {}).mentions := by
    -- and the handler the first of all
    unfold Artifact.Handlers.body
    rw [hbindings]
    iterate 2 apply mentions_subset_bind
    exact hhandler
  exact mentions_subset_bind _ _ hbody

theorem handler_exported : ∃ files, (service.generate {}).result = .ok files ∧
    .member "expressTypes" "FindRequestHandler" ∈ (ArtifactKind.handlers.render service {}).mentions ∧
    ∃ a ∈ files, (Artifact.HandlerTypes.render service {}).result = .ok a ∧
      a.Exports "FindRequestHandler" := by
  have hintegers : service.integers = [1, 200] := by cbv
  have hshort : ∀ n ∈ service.integers, Abort.isShort n = true := by
    rw [hintegers]
    decide
  obtain ⟨files, hfiles⟩ := Service.exists_generate (o := {}) service_sound exists_mappers hshort
  obtain ⟨home, a, hhome, -, hok, ha, hexports⟩ := Service.mentioned_types_exported hfiles
    (k := .handlers) (by decide) handler_mentioned rfl
  obtain rfl := Option.some.inj hhome
  exact ⟨files, hfiles, handler_mentioned, a, ha, hok, hexports⟩

/-- A union of pages, which hold no constant that could tell them. -/
def shelf : UnionDecl where
  name := "shelf"
  body := .discriminated "kind" [{ name := "page" }]

def untagged : Service where
  title := "untagged"
  interfaces :=
    [{ name := "catalog", methods := [{ name := "show", returns := some { base := .named "shelf" } }] }]
  types :=
    [{ name := "page"
       mapClause := some
        { key := { base := .primitive .string none }, value := { base := .primitive .date none }
          requiredKeys := ["first"] }
       rules := [.atLeast (-1), .atMost 9, .atLeast 12, .atMost (-3)] }]
  unions := [shelf]

theorem untagged_sound : untagged.check.isSound = true := by decide +kernel

theorem untagged_fails : ∃ e, (untagged.generate {}).result = .error e := by
  have hshelf : (untagged.unionMapper .serverOutbound shelf).result.isOk = false := by cbv
  cases hg : (untagged.generate {}).result with
  | error e => exact ⟨e, rfl⟩
  | ok files =>
    obtain ⟨hs, hfiles⟩ := Service.rendered_of_generate hg
    obtain ⟨a, -, ha⟩ := exists_related_of_mem_left hfiles (a := .mappers) (by decide)
    have hsound := Service.isSound_iff.1 hs
    have hreached : untagged.Reaches untagged.outputs "shelf" := .root List.mem_cons_self rfl rfl
    obtain ⟨m, hm⟩ := (Artifact.Mappers.exists_render_iff hsound).1 ⟨a, ha⟩ shelf List.mem_cons_self
      .serverOutbound (.inr ⟨rfl, hreached⟩)
    rw [hm] at hshelf
    cases hshelf

/-- Limits beyond the first ones, whatever they are, do no harm; the union has no mapper, and so only
that artifact fails. -/
theorem untagged_guarded : untagged.check.isSound = true ∧ untagged.Guarded {} ∧
    ∃ e, (untagged.generate {}).result = .error e ∧
      ∃ c, e.message = c.message ∧ RenderError.NoMapper "shelf" c := by
  have hguarded := Service.guarded_of_isSound untagged_sound {}
  obtain ⟨e, he⟩ := untagged_fails
  rcases hguarded.failure e he with ⟨c, -, -, hmessage, u, hu, hno⟩ | ⟨-, k, -, n, hn, hlong⟩
  · obtain rfl := List.mem_singleton.1 hu
    exact ⟨untagged_sound, hguarded, e, he, c, hmessage, hno⟩
  · -- its only integer is the version
    have hintegers : untagged.integers = [1] := by cbv
    have hmem := hguarded.numerals k n hn
    rw [hintegers] at hmem
    obtain rfl := List.mem_singleton.1 hmem
    cases hlong

theorem lt_length_digits (k : Nat) : k < (Nat.toDigits 10 ((10 : Int) ^ k).natAbs).length := by
  rw [Int.natAbs_pow]
  change k < (Nat.toDigits 10 (10 ^ k)).length
  rcases k.eq_zero_or_pos with rfl | hk
  · exact Nat.length_toDigits_pos
  · rw [← Nat.not_le, Nat.length_toDigits_le_iff (by decide) hk]
    exact Nat.lt_irrefl _

/-- A version of one digit more than can be written out. -/
def archive : Service where
  title := "archive"
  majorVersion := 10 ^ Abort.maxDigits

/-- The check says nothing of the version, and every artifact is headed by it. -/
theorem archive_aborted : archive.check.isSound = true ∧
    (ArtifactKind.types.emit archive {}).result = .error (.aborted .longNumeral) ∧
    ∃ e, (archive.generate {}).result = .error e ∧ ∀ u c, RenderError.NoMapper u c → e ≠ .unrenderable c := by
  have hs : archive.check.isSound = true := by decide +kernel
  have hsound := Service.isSound_iff.1 hs
  have hlong : (Mention.numeral archive.majorVersion).isLong = true := by
    have hdigits : ¬ (Nat.toDigits 10 archive.majorVersion.natAbs).length ≤ Abort.maxDigits :=
      Nat.not_le.2 (lt_length_digits Abort.maxDigits)
    rw [Mention.isLong, Abort.isShort, decide_eq_false hdigits, Bool.not_false]
  have hnever := (Artifact.Types.render_meets (o := {}) (E := fun _ => False) hsound).exists_ok
  obtain ⟨a, ha, -⟩ := hnever
  have htypes := ArtifactKind.emit_of_long (k := .types) (ArtifactKind.version_mentioned ha) hlong
  refine ⟨hs, htypes, ?_⟩
  cases hg : (archive.generate {}).result with
  | ok files =>
    obtain ⟨-, hfiles⟩ := Service.generate_meets.ok files hg
    obtain ⟨b, -, hb⟩ := exists_related_of_mem_left hfiles (a := .types) (by decide)
    rw [htypes] at hb
    cases hb
  | error e =>
    refine ⟨e, rfl, ?_⟩
    rintro u c hno rfl
    rcases Service.generate_meets.error _ hg with hdefects | ⟨k, -, ⟨c', hc, -⟩ | ⟨he, -⟩⟩
    · rw [hs] at hdefects
      cases hdefects
    · -- without unions no mapper can be missing
      obtain ⟨-, v, hv, -⟩ := (k.render_meets hsound).error c' hc
      cases hv
    · cases he

end Library

end DtoGen
