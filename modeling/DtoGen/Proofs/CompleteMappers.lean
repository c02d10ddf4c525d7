import DtoGen.Proofs.Definitions

namespace DtoGen

namespace Journal

variable {ε α β γ : Type}

/-- Work that succeeds mentioned all that its steps did. -/
theorem bind_ok {x : Journal ε α} {f : α → Journal ε β} {b : β} (h : (x >>= f).result = .ok b) :
    ∃ a, x.result = .ok a ∧ (f a).result = .ok b ∧
      (x >>= f).mentions = x.mentions ++ (f a).mentions := by
  obtain ⟨a, ha, hb⟩ := bind_result_ok.1 h
  refine ⟨a, ha, hb, ?_⟩
  change (x.bind f).mentions = _
  rw [bind_of_ok ha]

theorem append_ok {x y : Journal ε (List String)} {ls : List String} (h : (x ++ y).result = .ok ls) :
    (x ++ y).mentions = x.mentions ++ y.mentions ∧
      ∃ as bs, x.result = .ok as ∧ y.result = .ok bs ∧ ls = as ++ bs := by
  obtain ⟨as, has, h, hx⟩ := bind_ok h
  obtain ⟨bs, hbs, h, hy⟩ := bind_ok h
  refine ⟨hx.trans (congrArg (x.mentions ++ ·) ?_), as, bs, has, hbs, (Except.ok.inj h).symm⟩
  exact hy.trans (List.append_nil _)

theorem bind_assoc (x : Journal ε α) (f : α → Journal ε β) (g : β → Journal ε γ) :
    (x.bind f).bind g = x.bind fun a => (f a).bind g := by
  cases h : x.result with
  | error e => rw [bind_of_error h, bind_of_error h, bind_of_error rfl]
  | ok a =>
    rw [bind_of_ok h, bind_of_ok h]
    unfold Journal.bind
    cases (f a).result with
    | error e => rfl
    | ok b => simp only [List.append_assoc]

theorem concat_cons (f : α → Journal ε (List String)) (a : α) (as : List α) :
    concat f (a :: as) = f a ++ concat f as := by
  change ((f a).bind fun b => (traverse f as).bind fun bs => Journal.pure (b :: bs)).bind _ =
    (f a).bind fun b => ((traverse f as).bind fun bs => Journal.pure bs.flatten).bind fun c =>
      Journal.pure (b ++ c)
  rw [bind_assoc]
  congr 1
  funext b
  rw [bind_assoc, bind_assoc]
  rfl

/-- The text of a result holds calls of all mappers that were mentioned. -/
def Tells (scope : Scope) (text : α → List String) (x : Journal ε α) : Prop :=
  ∀ a, x.result = .ok a → ∀ c, .mapper c ∈ x.mentions → CallsIn (text a) (scope.mapperText c)

namespace Tells

variable {scope : Scope} {text : α → List String}

theorem silent {x : Journal ε α} (h : ∀ c, .mapper c ∉ x.mentions) : Tells scope text x :=
  fun _ _ c hc => (h c hc).elim

theorem plain (a : α) : Tells scope text (Journal.record a [] : Journal ε α) :=
  silent fun _ => List.not_mem_nil

theorem bind {x : Journal ε α} {f : α → Journal ε β} {text' : β → List String}
    (hx : Tells scope text x) (hf : ∀ a, Tells scope text' (f a))
    (hkept : ∀ a b, (f a).result = .ok b → ∀ t, Holds (text a) t → Holds (text' b) t) :
    Tells scope text' (x >>= f) := by
  intro b hb c hc
  obtain ⟨a, ha, hfa, hmentions⟩ := bind_ok hb
  rw [hmentions] at hc
  rcases List.mem_append.1 hc with hc | hc
  · exact (hx a ha c hc).imp (hkept a b hfa _) (hkept a b hfa _)
  · exact hf a b hfa c hc

theorem line {x : Journal ε String} {lines : String → List String}
    (hx : Tells scope (fun t => [t]) x) (hlines : ∀ t, ∃ l ∈ lines t, Within t l) :
    Tells scope id (x >>= fun t => Journal.record (lines t) []) := by
  refine hx.bind (fun _ => .plain _) fun a ls hls t ht => ?_
  obtain rfl := Except.ok.inj hls
  obtain ⟨_, hl, ht⟩ := ht
  obtain rfl := List.mem_singleton.1 hl
  obtain ⟨l, hl, hwithin⟩ := hlines _
  exact ⟨l, hl, ht.trans hwithin⟩

theorem append {x y : Journal ε (List String)} (hx : Tells scope id x) (hy : Tells scope id y) :
    Tells scope id (x ++ y) := by
  intro ls hls c hc
  obtain ⟨hmentions, as, bs, has, hbs, rfl⟩ := append_ok hls
  have hleft : ∀ t, Holds as t → Holds (as ++ bs) t :=
    fun t ht => ht.mono (List.subset_append_left _ _)
  have hright : ∀ t, Holds bs t → Holds (as ++ bs) t :=
    fun t ht => ht.mono (List.subset_append_right _ _)
  rw [hmentions] at hc
  rcases List.mem_append.1 hc with hc | hc
  · exact (hx as has c hc).imp (hleft _) (hleft _)
  · exact (hy bs hbs c hc).imp (hright _) (hright _)

theorem concat {f : α → Journal ε (List String)} {as : List α} (h : ∀ a ∈ as, Tells scope id (f a)) :
    Tells scope id (concat f as) := by
  induction as with
  | nil => exact silent (by simp [Journal.concat, traverse, Journal.bind, Journal.pure])
  | cons a as ih =>
    obtain ⟨ha, hrest⟩ := List.forall_mem_cons.1 h
    rw [concat_cons]
    exact ha.append (ih hrest)

end Tells

end Journal

namespace Artifact.Handlers

open Journal

variable {s : Service} {o : Options}

theorem converted_tells (role : Role) (v : Value) (source : String) :
    Tells scope (fun t => [t]) (converted s role v source) := by
  intro t ht c hc
  obtain rfl := Except.ok.inj ht
  refine shows_mapper_iff.1 (Shows.of_mem List.mem_cons_self ?_)
  exact Expression.within_call hc rfl

theorem fields_tells (b : Binding) : Tells scope id (fields s b) := by
  refine .concat fun p _ => ?_
  cases b.http.parameters.find? (·.name == p.name) with
  | none => exact .plain _
  | some http =>
    have hsource : Tells scope (fun t => [t]) (parameterSource s p http) := by
      unfold parameterSource
      split
      · exact converted_tells _ _ _
      · exact converted_tells _ _ _
      · exact .plain _
    exact hsource.line fun t => ⟨_, List.mem_cons_self, ((Within.refl t).append_left _).append_right _⟩

theorem subset_parsedLines {m : Method} {type : String} {fs ls : List String}
    (h : (parsedLines m type fs).result = .ok ls) : fs ⊆ ls := by
  obtain rfl := Except.ok.inj h
  intro l hl
  simp [hl]

theorem subset_validatedLines {m : Method} {type : String} {fs ls : List String}
    (h : (validatedLines m type fs).result = .ok ls) : fs ⊆ ls := by
  obtain rfl := Except.ok.inj h
  intro l hl
  simp [hl]

theorem parameterLines_tells (b : Binding) : Tells scope id (parameterLines s o b) := by
  unfold parameterLines
  split
  · exact .plain _
  · have hparameter : ∀ name, Tells scope (fun _ => []) (internal name) :=
      fun name => .silent (by simp [internal, text, record])
    refine (hparameter _).bind (fun type => ?_) fun _ _ _ t ht => absurd ht (not_holds_nil t)
    refine (fields_tells b).bind (fun fs => .silent fun c => ?_) fun fs ls hls t ht => ?_
    · split_ifs <;>
        simp [parsedLines, validatedLines, member, text, Bind.bind, Journal.bind, record]
    · -- the members are among the lines that are made of them
      refine ht.mono fun l hl => ?_
      split_ifs at hls <;> obtain ⟨lines, hlines, hls⟩ := bind_result_ok.1 hls <;>
        obtain rfl := Except.ok.inj hls
      · exact List.mem_append_left _ (subset_parsedLines hlines hl)
      · exact List.mem_append_left _ (subset_validatedLines hlines hl)

theorem responseLines_tells (m : Method) : Tells scope id (responseLines s m) := by
  unfold responseLines
  split
  · exact .plain _
  · exact (converted_tells _ _ _).line fun t =>
      ⟨_, List.mem_cons_self, ((Within.refl t).append_left _).append_right _⟩

theorem body_tells : Tells scope id (body s o) := by
  refine .concat fun b _ => ?_
  have hhead : ∀ c, .mapper c ∉ (headLines o b).mentions := by
    simp [headLines, imported, internal, member, text, Bind.bind, Journal.bind, record]
  have hfailure : ∀ c, .mapper c ∉ (failureLines o).mentions := by
    unfold failureLines
    intro c
    split_ifs <;> simp [imported, member, text, Bind.bind, Journal.bind, record]
  refine ((((Tells.append (.silent hhead) (parameterLines_tells b)).append (.silent ?_)).append
    (responseLines_tells b.method)).append (.silent hfailure)).append (.plain _)
  simp [record]

theorem mapper_mem_body {c : String} (h : .mapper c ∈ (render s o).mentions) :
    .mapper c ∈ (body s o).mentions := by
  change Mention.mapper c ∈ ((body s o).bind _).mentions at h
  cases hbody : (body s o).result with
  | error e => rwa [bind_of_error hbody] at h
  | ok ls =>
    rw [bind_of_ok hbody] at h
    exact (List.mem_append.1 h).resolve_right (by simp [record])

end Artifact.Handlers

namespace Artifact.Mappers

variable {s : Service} {o : Options}

/-- Above the mappers nothing is exported, and each mapper is one export. -/
theorem Lists.defined {lines : List String} {ms : List Mapper} (h : Lists s o lines ms) :
    List.Forall₂ Signature.OpenedBy (ms.map Mapper.signature) (linesOf "export" lines) := by
  obtain ⟨helpers, rfl⟩ := h
  have hword : "export".toList ∈ openingWords := by simp [openingWords]
  have hbanner := linesOf_eq_nil hword (frame s o).interior_banner
  have himports : linesOf "export" ((frame s o).importLines (body s o).mentions) = [] := by
    refine List.filter_eq_nil_iff.2 fun l hl => ?_
    rw [Frame.firstWord_of_mem_importLines hl]
    decide
  rw [linesOf_append, linesOf_append, linesOf_append, hbanner, himports, (linesOf_helpers helpers).2]
  exact forall₂_linesOf (by decide) fun m _ => m.linesOf_export scope

theorem function_ne_of_lookup {a : String} (h : ((Handlers.modules o).lookup a).isSome = true)
    (g : Signature) : g.function ≠ a := by
  obtain ⟨e, he, ha⟩ := List.lookup_isSome_iff.1 h
  obtain rfl := eq_of_beq ha
  have hstarts : ∀ n ∈ (Handlers.modules o).map Prod.fst,
      ¬ "mapFrom".toList <+: n.toList ∧ ¬ "mapTo".toList <+: n.toList := by
    simp only [Handlers.modules, List.map_cons, List.map_nil]
    decide +kernel
  obtain ⟨hfrom, hto⟩ := hstarts _ (List.mem_map_of_mem he)
  exact g.function_ne hfrom hto

/-- Handlers use a name like that of a mapper just for a mapper, since no module or import has it. -/
theorem mapper_mem_of_uses_handlers (hs : s.Sound) {g : Signature}
    (h : Uses (fun w => (Handlers.body s o (Handlers.scope.respelled w)).result) g.function) :
    .mapper g.function ∈ (Handlers.body s o).mentions := by
  obtain ⟨m, hm, hname⟩ := Journal.Steady.mentioned_of_uses (fun w => Handlers.body s o w) rfl
    (fun w => Handlers.body_steady w s o) h
  have hknown : Known s o .handlers m :=
    (Handlers.render_meets (E := fun _ => False) hs).mentions m (Journal.mentions_subset_bind _ _ hm)
  have hmodule : Handlers.scope.moduleName? m ≠ some g.function :=
    fun ha => function_ne_of_lookup (hknown.imported _ ha) g rfl
  cases m with
  | mapper x =>
    rcases List.mem_cons.1 hname with rfl | hname
    · exact hm
    · exact (hmodule (Option.mem_toList.1 hname)).elim
  | imported p n t =>
    obtain rfl := List.mem_singleton.1 hname
    have hpackage := (Handlers.body_steady id s o).packaged p _ t hm
    have hstarts : ∀ e ∈ Handlers.packageNames,
        ¬ "mapFrom".toList <+: e.2.1.toList ∧ ¬ "mapTo".toList <+: e.2.1.toList := by
      decide +kernel
    obtain ⟨hfrom, hto⟩ := hstarts _ hpackage
    exact (g.function_ne hfrom hto rfl).elim
  | helper h => exact (g.function_ne_helper h (List.mem_singleton.1 hname)).elim
  | declared | module | member | numeral | notice =>
    exact (hmodule (Option.mem_toList.1 hname)).elim

/-- The written mappers of a service are complete for the side of the options. The lines define and
export one for each declaration and role in which it crosses the wire, and no others; these stand at the
end. Whatever mapper one of them calls is among them, and so is what the request handlers call: the calls
stand in the lines, which change with no other names of mappers. -/
structure Complete (s : Service) (o : Options) (lines : List String) (ms : List Mapper) : Prop where
  of : ∀ m ∈ ms, Mapper.Of s m.signature m
  placed : (ms.flatMap fun m => "" :: m.lines scope) <:+ lines
  defined : List.Forall₂ Signature.OpenedBy (ms.map Mapper.signature) (linesOf "export" lines)
  once : (ms.map Mapper.signature).Nodup
  exactly : ∀ g, g ∈ ms.map Mapper.signature ↔ s.HasMapper o.role g
  used : ∀ m ∈ ms, ∀ g : Signature,
    Uses (fun w => m.lines (scope.respelled w)) g.function ↔ g.function ∈ m.calls
  called : ∀ m ∈ ms, ∀ c ∈ m.calls, CallsIn (m.lines scope) c ∧ c ∈ ms.map Mapper.name
  handled : o.role = .server → ∀ g : Signature,
    Uses (fun w => (Handlers.body s o (Handlers.scope.respelled w)).result) g.function →
      .mapper g.function ∈ (Handlers.render s o).mentions
  converted : o.role = .server → ∀ c, .mapper c ∈ (Handlers.render s o).mentions →
    c ∈ ms.map Mapper.name ∧ ∀ h, (Handlers.render s o).result = .ok h →
      ∃ ls, h.contents = Layout.reindent ls ∧ CallsIn ls ("mappers." ++ c)

/-- The mappers that are written out are complete. -/
theorem exists_complete_mappers {a : Artifact} (hs : s.check.isSound = true)
    (ha : (render s o).result = .ok a) :
    ∃ lines ms, a.contents = Layout.reindent lines ∧ Complete s o lines ms := by
  have hsound := Service.isSound_iff.1 hs
  obtain ⟨lines, ms, hcontents, hlists, hsignatures, hms⟩ := (render_meets hsound).ok a ha
  have hexactly : ∀ g, g ∈ ms.map Mapper.signature ↔ s.HasMapper o.role g := by
    intro g
    rw [hsignatures, mem_signatures_iff hsound]
  have hnamed : ∀ c, (∃ g : Signature, s.HasMapper o.role g ∧ c = mapperName g.name g.role) →
      c ∈ ms.map Mapper.name := by
    rintro c ⟨g, hg, rfl⟩
    -- a mapper that the service has is on the list, and has its name from its signature
    obtain ⟨m, hm, rfl⟩ := List.mem_map.1 ((hexactly g).2 hg)
    exact List.mem_map_of_mem hm
  refine ⟨lines, ms, hcontents, ?_⟩
  constructor
  case of => exact fun m hm => (hms m hm).1
  case placed =>
    obtain ⟨helpers, rfl⟩ := hlists
    exact (List.suffix_append _ _).trans (List.suffix_append _ _)
  case defined => exact hlists.defined
  case once =>
    rw [hsignatures]
    exact nodup_signatures hsound o.role
  case exactly => exact hexactly
  case used => exact fun m _ g => uses_mapper_iff m g
  case called =>
    intro m hm c hc
    have htext : scope.mapperText c = c := rfl
    have hcall := Mapper.shows_call scope (Mapper.mapper_mem_mentions_iff.2 hc) rfl
    rw [shows_mapper_iff, htext] at hcall
    exact ⟨hcall, hnamed c (((hms m hm).2 c hc).mapped c rfl)⟩
  case handled =>
    intro _ g hg
    exact Journal.mentions_subset_bind _ _ (mapper_mem_of_uses_handlers hsound hg)
  case converted =>
    intro hp c hc
    -- the handlers convert for a server, which is the side at hand
    have hknown := (Handlers.render_meets (E := fun _ => False) hsound).mentions _ hc
    obtain ⟨g, hg, hname⟩ := hknown.mapped c rfl
    refine ⟨hnamed c ⟨g, hp ▸ hg, hname⟩, fun h hh => ?_⟩
    obtain ⟨ls, hls, hh⟩ := Journal.bind_result_ok.1 hh
    obtain rfl := Except.ok.inj hh
    have hmodule : "mappers" ++ "." = "mappers." := by decide
    have htext : Handlers.scope.mapperText c = "mappers." ++ c := congrArg (· ++ c) hmodule
    have hcall := Handlers.body_tells ls hls c (Handlers.mapper_mem_body hc)
    rw [htext] at hcall
    exact ⟨_, rfl, hcall.mono (List.subset_append_right _ _)⟩

end Artifact.Mappers

namespace Library

/-- Authors are only met inside books and works, and yet have a mapper. -/
theorem complete_mappers : service.check.isSound = true ∧
    ∃ a, (Artifact.Mappers.render service {}).result = .ok a ∧
      ∃ lines ms, a.contents = Layout.reindent lines ∧
        Artifact.Mappers.Complete service {} lines ms ∧
        ⟨"author", .serverInbound⟩ ∈ ms.map Mapper.signature := by
  obtain ⟨a, ha⟩ := exists_mappers
  obtain ⟨lines, ms, hcontents, hcomplete⟩ :=
    Artifact.Mappers.exists_complete_mappers service_sound ha
  exact ⟨service_sound, a, ha, lines, ms, hcontents, hcomplete,
    (hcomplete.exactly _).2 (.inl ⟨rfl, author_reached⟩)⟩

end Library

end DtoGen
