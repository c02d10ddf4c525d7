import DtoGen.Proofs.WrittenCalls

namespace DtoGen

namespace Journal

variable {ε α β : Type} {scope : Scope} {w : String → String} {names : List (String × String × Bool)}

/-- Work done twice, with names written as they are and in another way. It takes only some names from
packages, and comes out alike if the names that it mentions are written alike. -/
structure Steady (scope : Scope) (w : String → String) (names : List (String × String × Bool))
    (x y : Journal ε α) : Prop where
  packaged : ∀ p n t, .imported p n t ∈ x.mentions → (p, n, t) ∈ names
  same : scope.Keeps w x.mentions → y = x

namespace Steady

variable {x y : Journal ε α}

theorem refl (h : ∀ p n t, .imported p n t ∈ x.mentions → (p, n, t) ∈ names) :
    Steady scope w names x x :=
  ⟨h, fun _ => rfl⟩

theorem record {a b : α} {ms : List Mention}
    (hms : ∀ p n t, .imported p n t ∈ ms → (p, n, t) ∈ names) (h : scope.Keeps w ms → b = a) :
    Steady scope w names (record a ms : Journal ε α) (Journal.record b ms) :=
  ⟨hms, fun hkeeps => congrArg (Journal.record · ms) (h hkeeps)⟩

theorem plain (a : α) : Steady scope w names (Journal.record a [] : Journal ε α) (.record a []) :=
  refl (by simp [Journal.record])

/-- What comes after may depend on what was mentioned before. -/
theorem bind_of_keeps {f g : α → Journal ε β} (hx : Steady scope w names x y)
    (hf : ∀ a, x.result = .ok a →
      (∀ p n t, .imported p n t ∈ (f a).mentions → (p, n, t) ∈ names) ∧
        (scope.Keeps w (x.mentions ++ (f a).mentions) → g a = f a)) :
    Steady scope w names (x.bind f) (y.bind g) := by
  cases hr : x.result with
  | error e =>
    -- both stop here, and have mentioned the same
    refine ⟨?_, fun hkeeps => ?_⟩
    · rw [bind_of_error hr]
      exact hx.packaged
    · rw [bind_of_error hr] at hkeeps
      rw [hx.same hkeeps, bind_of_error hr, bind_of_error hr]
  | ok a =>
    refine ⟨fun p n t hm => ?_, fun hkeeps => ?_⟩
    · rw [bind_of_ok hr] at hm
      rcases List.mem_append.1 hm with hm | hm
      · exact hx.packaged p n t hm
      · exact (hf a hr).1 p n t hm
    · rw [bind_of_ok hr] at hkeeps
      rw [hx.same hkeeps.left, bind_of_ok hr, bind_of_ok hr, (hf a hr).2 hkeeps]

theorem bind {f g : α → Journal ε β} (hx : Steady scope w names x y)
    (hf : ∀ a, x.result = .ok a → Steady scope w names (f a) (g a)) :
    Steady scope w names (x.bind f) (y.bind g) :=
  hx.bind_of_keeps fun a ha => ⟨(hf a ha).packaged, fun h => (hf a ha).same h.right⟩

theorem traverse {f g : α → Journal ε β} {as : List α}
    (h : ∀ a ∈ as, Steady scope w names (f a) (g a)) :
    Steady scope w names (traverse f as) (Journal.traverse g as) := by
  induction as with
  | nil => exact refl (by simp [Journal.traverse])
  | cons a as ih =>
    obtain ⟨ha, hrest⟩ := List.forall_mem_cons.1 h
    exact ha.bind fun b _ => (ih hrest).bind fun bs _ => refl (by simp)

theorem concat {f g : α → Journal ε (List String)} {as : List α}
    (h : ∀ a ∈ as, Steady scope w names (f a) (g a)) :
    Steady scope w names (concat f as) (Journal.concat g as) :=
  (traverse h).bind fun _ _ => refl (by simp)

theorem append {x y x' y' : Journal ε (List String)} (hx : Steady scope w names x y)
    (hx' : Steady scope w names x' y') : Steady scope w names (x ++ x') (y ++ y') :=
  hx.bind fun _ _ => hx'.bind fun _ _ => refl (by simp)

theorem mentioned_of_uses (work : Scope → Journal ε α) (hwritten : scope.written = id)
    (h : ∀ w, Steady scope w names (work scope) (work (scope.respelled w))) {n : String}
    (hn : Uses (fun w => (work (scope.respelled w)).result) n) :
    ∃ m ∈ (work scope).mentions, n ∈ scope.outside m := by
  obtain ⟨other, hother⟩ := hn
  simp only [Scope.respelled_id hwritten] at hother
  by_contra hno
  -- to write an unmentioned name in another way keeps all that were mentioned
  have hkeeps := keeps_update hwritten (fun m hm hname => hno ⟨m, hm, hname⟩) other
  exact hother (congrArg Journal.result ((h _).same hkeeps))

end Steady

end Journal

theorem packaged_of_isGenerated {names : List (String × String × Bool)} {ms : List Mention}
    (h : ∀ m ∈ ms, m.isGenerated = true) (p n : String) (t : Bool) (hm : .imported p n t ∈ ms) :
    (p, n, t) ∈ names := by
  cases h _ hm

theorem ValueType.isGenerated_of_mem {t : ValueType} {m : Mention} (hm : m ∈ t.mentions) :
    m.isGenerated = true :=
  ElementType.isGenerated_of_mem hm

theorem ValueType.isGenerated_of_mem_flatMap {ts : List ValueType} {m : Mention}
    (hm : m ∈ ts.flatMap mentions) : m.isGenerated = true := by
  obtain ⟨t, -, hm⟩ := List.mem_flatMap.1 hm
  exact isGenerated_of_mem hm

theorem ValueType.isGenerated_of_mem_map {t : Option ValueType} {m : Mention}
    (hm : m ∈ (t.map mentions).getD []) : m.isGenerated = true := by
  cases t with
  | none => cases hm
  | some t => exact isGenerated_of_mem hm

theorem RecordType.isGenerated_of_mem {r : RecordType} {m : Mention} (hm : m ∈ r.mentions) :
    m.isGenerated = true := by
  cases r with
  | unconstrained => cases hm
  | shaped object rest =>
    rcases List.mem_append.1 hm with hm | hm
    · cases object with
      | none => cases hm
      | some o =>
        rcases List.mem_append.1 hm with hm | hm
        · obtain ⟨k, -, hm⟩ := List.mem_flatMap.1 hm
          exact ValueType.isGenerated_of_mem hm
        · exact ValueType.isGenerated_of_mem_map hm
    · cases rest with
      | none => cases hm
      | some o =>
        rcases List.mem_append.1 hm with hm | hm
        · exact ValueType.isGenerated_of_mem_flatMap hm
        · exact ValueType.isGenerated_of_mem hm

namespace Artifact

open Journal

variable {s : Service} {o : Options} {w : String → String}

namespace Types

theorem returnType_respelled {m : Method} (h : scope.Keeps w (methodMentions s m)) :
    returnType s m (scope.respelled w) = returnType s m := by
  unfold returnType
  cases hreturns : m.returns with
  | none => rfl
  | some v =>
    have hmentions : (s.valueType .internal v).mentions ⊆ methodMentions s m := by
      simp [methodMentions, hreturns]
    simp only
    rw [ValueType.text_respelled (h.mono hmentions)]

theorem interfaceBody_steady (i : Interface) :
    Steady scope w [] (interfaceBody s o i) (interfaceBody s o i (scope.respelled w)) := by
  refine .record (packaged_of_isGenerated fun m hm => ?_) fun h => ?_
  · obtain ⟨d, -, hm⟩ := List.mem_flatMap.1 hm
    rcases List.mem_append.1 hm with hm | hm
    · split_ifs at hm
      · cases hm
      · obtain rfl := List.mem_singleton.1 hm
        rfl
    · cases hreturns : d.returns with
      | none => simp [hreturns] at hm
      | some v =>
        have hm : m ∈ (s.valueType .internal v).mentions := by simpa [hreturns] using hm
        exact ValueType.isGenerated_of_mem hm
  · have hlines : (sortByName Method.name i.methods).flatMap (methodLines s · (scope.respelled w)) =
        (sortByName Method.name i.methods).flatMap (methodLines s) := by
      refine List.flatMap_congr fun d hd => ?_
      rw [methodLines, returnType_respelled (h.of_mem_flatMap hd), methodLines]
    rw [hlines]

theorem paramsBody_steady (m : Method) :
    Steady scope w [] (paramsBody s m) (paramsBody s m (scope.respelled w)) := by
  unfold paramsBody
  split_ifs
  · exact .plain _
  · refine .record (packaged_of_isGenerated fun k hk => ?_) fun h => ?_
    · obtain ⟨p, -, hk⟩ := List.mem_flatMap.1 hk
      exact ValueType.isGenerated_of_mem hk
    · have hlines := List.flatMap_congr fun p hp =>
        congrArg (fun text => Comment.doc p.description p.deprecated ++ [text])
          (MemberType.text_respelled (h.of_mem_flatMap hp))
      rw [hlines]

theorem recordBody_steady (t : TypeDecl) :
    Steady scope w [] (recordBody s t) (recordBody s t (scope.respelled w)) := by
  refine .bind (.refl nofun) fun r _ => ?_
  refine .record (packaged_of_isGenerated fun _ => RecordType.isGenerated_of_mem) fun h => ?_
  rw [RecordType.text_respelled h]

theorem unionBody_steady (u : UnionDecl) :
    Steady scope w [] (unionBody s u) (unionBody s u (scope.respelled w)) := by
  refine .record (packaged_of_isGenerated fun _ => ValueType.isGenerated_of_mem_flatMap) fun h => ?_
  rw [List.map_congr_left fun t ht => ValueType.text_respelled (h.of_mem_flatMap ht)]

theorem guardBody_steady : Steady scope w [] (guardBody s) (guardBody s) := by
  refine .refl (packaged_of_isGenerated fun m hm => ?_)
  obtain ⟨g, -, hm⟩ := List.mem_flatMap.1 hm
  rcases List.mem_append.1 hm with hm | hm
  · obtain ⟨l, -, hm⟩ := List.mem_flatMap.1 hm
    obtain ⟨n, -, rfl⟩ := List.mem_map.1 hm
    rfl
  · obtain ⟨n, -, rfl⟩ := List.mem_map.1 hm
    rfl

theorem body_steady (w : String → String) (s : Service) (o : Options) :
    Steady scope w [] (body s o) (body s o (scope.respelled w)) :=
  (((((Steady.concat fun i _ => interfaceBody_steady i).append
    (.concat fun m _ => paramsBody_steady m)).append (.concat fun _ _ => .plain _)).append
    (.concat fun t _ => recordBody_steady t)).append (.concat fun u _ => unionBody_steady u)).append
    guardBody_steady

end Types

namespace Dtos

theorem summary_steady (name : String) :
    Steady scope w [] (summary name) (summary name (scope.respelled w)) := by
  refine .record (by simp) fun h => ?_
  rw [h.declared List.mem_cons_self]

theorem recordBody_steady (t : TypeDecl) :
    Steady scope w [] (recordBody s t) (recordBody s t (scope.respelled w)) := by
  refine (summary_steady t.name).append (.bind (.refl nofun) fun r _ => ?_)
  refine .record (packaged_of_isGenerated fun _ => RecordType.isGenerated_of_mem) fun h => ?_
  rw [RecordType.text_respelled h]

theorem unionBody_steady (u : UnionDecl) :
    Steady scope w [] (unionBody s u) (unionBody s u (scope.respelled w)) := by
  refine (summary_steady u.name).append ?_
  refine .record (packaged_of_isGenerated fun _ => ValueType.isGenerated_of_mem_flatMap) fun h => ?_
  rw [List.map_congr_left fun t ht => ValueType.text_respelled (h.of_mem_flatMap ht)]

theorem body_steady (w : String → String) (s : Service) :
    Steady scope w [] (body s) (body s (scope.respelled w)) :=
  (Steady.concat fun t _ => recordBody_steady t).append (.concat fun u _ => unionBody_steady u)

end Dtos

namespace HandlerTypes

def packageNames : List (String × String × Bool) := [("express", "RequestHandler", true)]

theorem handlerBody_steady (b : Binding) :
    Steady scope w packageNames (handlerBody s b) (handlerBody s b (scope.respelled w)) := by
  refine .record (fun p n t hm => ?_) fun h => ?_
  · rcases List.mem_append.1 hm with hm | hm
    · rcases List.mem_cons.1 hm with hm | hm
      · obtain ⟨rfl, rfl, rfl⟩ := Mention.imported.inj hm
        exact List.mem_cons_self
      · cases ValueType.isGenerated_of_mem_flatMap hm
    · cases ValueType.isGenerated_of_mem_map (t := b.method.returns.map (s.valueType .wire)) hm
  · have hhandler : (scope.respelled w).written "RequestHandler" = scope.written "RequestHandler" :=
      h _ List.mem_cons_self _ List.mem_cons_self
    have hbodies : ∀ t ∈ bodyTypes s b, t.text (scope.respelled w) = t.text scope :=
      fun t ht => ValueType.text_respelled
        ((h.left.mono (List.subset_cons_self _ _)).of_mem_flatMap ht)
    have hlast : (bodyTypes s b).getLast?.map (·.text (scope.respelled w)) =
        (bodyTypes s b).getLast?.map (·.text scope) :=
      Option.map_congr fun t ht => hbodies t (List.mem_of_getLast? ht)
    have hreturned : (b.method.returns.map (s.valueType .wire)).map (·.text (scope.respelled w)) =
        (b.method.returns.map (s.valueType .wire)).map (·.text scope) := by
      refine Option.map_congr fun t ht => ValueType.text_respelled (h.right.mono fun m hm => ?_)
      rw [Option.mem_def.1 ht]
      exact hm
    rw [hhandler, hlast, hreturned]

theorem body_steady (w : String → String) (s : Service) :
    Steady scope w packageNames (body s) (body s (scope.respelled w)) :=
  .concat fun b _ => handlerBody_steady b

end HandlerTypes

namespace Errors

def packageNames : List (String × String × Bool) := [("zod", "ZodIssue", true)]

theorem body_steady (w : String → String) (o : Options) :
    Steady scope w packageNames (body o) (body o (scope.respelled w)) := by
  have hissue : Steady scope w packageNames (issueType o) (issueType o (scope.respelled w)) := by
    unfold issueType
    split_ifs
    · refine .record (by simp [packageNames]) fun h => ?_
      exact h _ List.mem_cons_self _ List.mem_cons_self
    · refine .record (by simp) fun h => ?_
      exact congrArg (· ++ "." ++ "ValidationError") (h _ List.mem_cons_self _ List.mem_cons_self)
  exact hissue.bind fun _ _ => .plain _

end Errors

namespace Handlers

def packageNames : List (String × String × Bool) :=
  [("express", "Request", true), ("express", "Response", true), ("zod", "ZodError", false)]

theorem internal_steady (x : String) :
    Steady scope w packageNames (internal x) (internal x (scope.respelled w)) :=
  .record (by simp) fun h => h.declared List.mem_cons_self

theorem member_steady (a x : String) :
    Steady scope w packageNames (member a x) (member a x (scope.respelled w)) :=
  .record (by simp) fun h => congrArg (· ++ "." ++ x) (h _ List.mem_cons_self _ List.mem_cons_self)

theorem imported_steady {p n : String} {t : Bool} (hn : (p, n, t) ∈ packageNames) :
    Steady scope w packageNames (imported p n t) (imported p n t (scope.respelled w)) := by
  refine .record (fun q k u hm => ?_) fun h => h _ List.mem_cons_self _ List.mem_cons_self
  obtain ⟨rfl, rfl, rfl⟩ := Mention.imported.inj (List.mem_singleton.1 hm)
  exact hn

theorem converted_steady (role : Role) (v : Value) (source : String) :
    Steady scope w packageNames (converted s role v source)
      (converted s role v source (scope.respelled w)) :=
  .record (packaged_of_isGenerated fun _ => Expression.isGenerated_of_mem)
    fun h => Expression.text_respelled h

theorem fields_steady (b : Binding) :
    Steady scope w packageNames (fields s b) (fields s b (scope.respelled w)) := by
  refine .concat fun p _ => ?_
  cases b.http.parameters.find? (·.name == p.name) with
  | none => exact .plain _
  | some http =>
    have hsource : Steady scope w packageNames (parameterSource s p http)
        (parameterSource s p http (scope.respelled w)) := by
      unfold parameterSource
      split
      · exact converted_steady _ _ _
      · exact converted_steady _ _ _
      · exact .plain _
    exact hsource.bind fun _ _ => .plain _

theorem parsedLines_steady (m : Method) (type : String) (fs : List String) :
    Steady scope w packageNames (parsedLines m type fs) (parsedLines m type fs (scope.respelled w)) := by
  unfold parsedLines
  exact (member_steady _ _).bind fun _ _ => .plain _

theorem validatedLines_steady (m : Method) (type : String) (fs : List String) :
    Steady scope w packageNames (validatedLines m type fs)
      (validatedLines m type fs (scope.respelled w)) := by
  unfold validatedLines
  refine (member_steady _ _).bind fun _ _ => ?_
  exact (member_steady _ _).bind fun _ _ => .plain _

theorem parameterLines_steady (b : Binding) :
    Steady scope w packageNames (parameterLines s o b) (parameterLines s o b (scope.respelled w)) := by
  unfold parameterLines
  split
  · exact .plain _
  · refine (internal_steady _).bind fun type _ => ?_
    refine (fields_steady b).bind fun fs _ => ?_
    split_ifs
    · exact (parsedLines_steady _ type fs).bind fun _ _ => .plain _
    · exact (validatedLines_steady _ type fs).bind fun _ _ => .plain _

theorem responseLines_steady (m : Method) :
    Steady scope w packageNames (responseLines s m) (responseLines s m (scope.respelled w)) := by
  unfold responseLines
  split
  · exact .plain _
  · exact (converted_steady _ _ _).bind fun _ _ => .plain _

theorem failureLines_steady :
    Steady scope w packageNames (failureLines o) (failureLines o (scope.respelled w)) := by
  unfold failureLines
  refine (member_steady _ _).bind fun _ _ => ?_
  split_ifs
  · refine (imported_steady (by simp [packageNames])).bind fun _ _ => ?_
    exact (member_steady _ _).bind fun _ _ => .plain _
  · exact .plain _

theorem headLines_steady (b : Binding) :
    Steady scope w packageNames (headLines o b) (headLines o b (scope.respelled w)) := by
  unfold headLines
  refine (imported_steady (by simp [packageNames])).bind fun _ _ => ?_
  refine (imported_steady (by simp [packageNames])).bind fun _ _ => ?_
  refine (internal_steady _).bind fun _ _ => ?_
  exact (member_steady _ _).bind fun _ _ => .plain _

theorem body_steady (w : String → String) (s : Service) (o : Options) :
    Steady scope w packageNames (body s o) (body s o (scope.respelled w)) := by
  refine .concat fun b _ => ?_
  have hcall : Steady scope w packageNames (.record (callLines b) [.numeral b.http.successCode] : Body)
      (.record (callLines b) [.numeral b.http.successCode]) := .refl (by simp [record])
  exact (((((headLines_steady b).append (parameterLines_steady b)).append hcall).append
    (responseLines_steady b.method)).append failureLines_steady).append (.plain _)

end Handlers

namespace Mappers

theorem recordBody_steady (role : Role) (t : TypeDecl) :
    Steady scope w [] (recordBody s role t) (recordBody s role t (scope.respelled w)) := by
  have hgenerated : ∀ m ∈ (s.recordMapper role t).mentions, m.isGenerated = true :=
    fun m hm => Mapper.isGenerated_of_mem (m := .record _) hm
  refine .record (fun p n u hm => ?_) fun h => ?_
  · rcases List.mem_cons.1 hm with hm | hm
    · cases hm
    · cases hgenerated _ hm
  · rw [RecordMapper.lines_respelled (h.mono (List.subset_cons_self _ _))]

/-- While mappers are built, nothing is taken from a package. -/
theorem mentionable_packaged (role : Role) (roots : List Value) :
    s.Mentionable role roots fun m => ∀ p n t, m ≠ .imported p n t :=
  ⟨nofun, nofun, nofun, nofun, nofun⟩

theorem unionBody_steady (hs : s.Sound) {role : Role} {roots : List Value} {u : UnionDecl}
    (hu : u ∈ s.reachedUnions roots) :
    Steady scope w [] (unionBody s role u) (unionBody s role u (scope.respelled w)) := by
  obtain ⟨hmem, hreached⟩ := hs.mem_reachedUnions_iff.1 hu
  have hresolve := hs.resolveName_eq_union_iff.2 ⟨hmem, rfl⟩
  have hmapper := (mentionable_packaged role roots).unionMapper hs hresolve hreached
  have hnote : Steady scope w []
      (.note [.notice (.unionMapper role.name u.name)] : Journal RenderError Unit) (.note _) :=
    .refl (by simp [note])
  have hbuilt : Steady scope w [] (s.unionMapper role u) (s.unionMapper role u) :=
    .refl fun p n t hm => (hmapper.mentions _ hm p n t rfl).elim
  refine hnote.bind fun _ _ => hbuilt.bind_of_keeps fun m hm => ⟨by simp [record], fun h => ?_⟩
  -- the journal may have more, but not less, than the lines of the mapper show
  have hkeeps : scope.Keeps w m.mentions :=
    h.left.mono (s.unionMapper_accounts role u m hm).subset
  rw [UnionMapper.lines_respelled hkeeps]

theorem body_steady (hs : s.Sound) (w : String → String) (o : Options) :
    Steady scope w [] (body s o) (body s o (scope.respelled w)) := by
  have hgroup : ∀ g ∈ groups s o.role,
      Steady scope w [] (groupBody s g) (groupBody s g (scope.respelled w)) := by
    have hgroup : ∀ role roots, Steady scope w []
        (groupBody s ⟨role, s.reachedTypes roots, s.reachedUnions roots⟩)
        (groupBody s ⟨role, s.reachedTypes roots, s.reachedUnions roots⟩ (scope.respelled w)) :=
      fun role roots => (Steady.concat fun t _ => recordBody_steady role t).append
        (.concat fun u hu => unionBody_steady hs hu)
    intro g hg
    rcases mem_groups_iff.1 hg with rfl | rfl
    · exact hgroup _ _
    · exact hgroup _ _
  have hmappers := Steady.concat hgroup
  refine hmappers.bind_of_keeps fun lines _ => ⟨by simp [record], fun h => ?_⟩
  rw [hmappers.same h.left]

end Mappers

end Artifact

end DtoGen
