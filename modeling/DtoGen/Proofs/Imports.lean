import DtoGen.Proofs.CompleteMappers
import DtoGen.Proofs.Rendering

namespace DtoGen

def importKeywords : List (List Char) :=
  ["import", "type", "*", "as", "\x7b", "\x7d", "from"].map String.toList

/-- The names that a line of imports binds: its words in front of the source, without commas. -/
def importedNames (l : String) : List String :=
  let words := (l.toList.splitOn ' ').takeWhile (· ≠ "from".toList)
  ((words.map (·.filter (· ≠ ','))).filter (· ∉ importKeywords)).map String.ofList

/-- A name that stands in a line of imports as one word. -/
structure Plain (n : String) : Prop where
  blank : ' ' ∉ n.toList
  comma : ',' ∉ n.toList
  keyword : n.toList ∉ importKeywords

instance : DecidablePred Plain := fun n =>
  decidable_of_iff (' ' ∉ n.toList ∧ ',' ∉ n.toList ∧ n.toList ∉ importKeywords)
    ⟨fun ⟨h₁, h₂, h₃⟩ => ⟨h₁, h₂, h₃⟩, fun ⟨h₁, h₂, h₃⟩ => ⟨h₁, h₂, h₃⟩⟩

namespace Plain

variable {n : String}

theorem filter_comma (h : Plain n) : n.toList.filter (· ≠ ',') = n.toList :=
  List.filter_eq_self.2 fun _ hc => decide_eq_true (ne_of_mem_of_not_mem hc h.comma)

theorem splitOn (h : Plain n) : n.toList.splitOn ' ' = [n.toList] := List.splitOn_eq_singleton h.blank

/-- The words of a list of names are these, with commas. -/
theorem splitOn_intercalate {ns : List String} (hns : ns ≠ []) (h : ∀ n ∈ ns, Plain n) :
    ((", ".intercalate ns).toList.splitOn ' ').map (·.filter (· ≠ ',')) = ns.map String.toList := by
  induction ns with
  | nil => exact absurd rfl hns
  | cons n ns ih =>
    obtain ⟨hn, hrest⟩ := List.forall_mem_cons.1 h
    cases ns with
    | nil =>
      rw [String.intercalate_singleton, hn.splitOn]
      exact congrArg ([·]) hn.filter_comma
    | cons m ns =>
      have htext : (", ".intercalate (n :: m :: ns)).toList =
          (n.toList ++ [',']) ++ ' ' :: (", ".intercalate (m :: ns)).toList := by
        rw [String.intercalate_cons_cons, String.toList_append, String.toList_append]
        simp
      have hword : ' ' ∉ n.toList ++ [','] := by simpa using hn.blank
      rw [htext, List.splitOn_append_cons_self, List.splitOn_eq_singleton hword, List.map_append,
        ih (List.cons_ne_nil _ _) hrest]
      simpa using hn.filter_comma

end Plain

theorem importedNames_append {p : String} (h : "from".toList ∉ p.toList.splitOn ' ') (source : String) :
    importedNames (p ++ " from '" ++ source) =
      (((p.toList.splitOn ' ').map (·.filter (· ≠ ','))).filter (· ∉ importKeywords)).map String.ofList := by
  have htext : (p ++ " from '" ++ source).toList =
      p.toList ++ ' ' :: ("from".toList ++ ' ' :: ('\'' :: source.toList)) := by
    rw [String.toList_append, String.toList_append]
    simp
  have hfrom : ' ' ∉ "from".toList := by decide
  have hwords : ∀ w ∈ p.toList.splitOn ' ', decide (w ≠ "from".toList) = true :=
    fun w hw => decide_eq_true (ne_of_mem_of_not_mem hw h)
  rw [importedNames, htext, List.splitOn_append_cons_self, List.splitOn_append_cons_self,
    List.splitOn_eq_singleton hfrom, List.takeWhile_append_of_pos hwords]
  simp

def Scope.importName? (s : Scope) : Mention → Option String
  | .imported _ n _ => some n
  | m => s.moduleName? m

/-- Words of a line of imports other than the names. -/
def Surrounds (words : List (List Char)) : Prop :=
  ∀ w ∈ words, w ∈ importKeywords ∧ w ≠ "from".toList

instance : DecidablePred Surrounds := fun words =>
  inferInstanceAs (Decidable (∀ w ∈ words, w ∈ importKeywords ∧ w ≠ "from".toList))

theorem Surrounds.filter {words : List (List Char)} (h : Surrounds words) :
    (words.map (·.filter (· ≠ ','))).filter (· ∉ importKeywords) = [] := by
  have hcomma : ∀ w ∈ importKeywords, w.filter (· ≠ ',') = w := by decide
  refine List.filter_eq_nil_iff.2 fun w hw => ?_
  obtain ⟨v, hv, rfl⟩ := List.mem_map.1 hw
  rw [hcomma v (h v hv).1]
  simpa using (h v hv).1

theorem importedNames_eq {p source : String} {before names after : List (List Char)}
    {ns : List String} (hwords : p.toList.splitOn ' ' = before ++ names ++ after)
    (hbefore : Surrounds before) (hafter : Surrounds after)
    (hnames : names.map (·.filter (· ≠ ',')) = ns.map String.toList) (hplain : ∀ n ∈ ns, Plain n) :
    importedNames (p ++ " from '" ++ source) = ns := by
  have hkept : (ns.map String.toList).filter (· ∉ importKeywords) = ns.map String.toList := by
    refine List.filter_eq_self.2 fun w hw => ?_
    obtain ⟨n, hn, rfl⟩ := List.mem_map.1 hw
    exact decide_eq_true (hplain n hn).keyword
  have hfrom : "from".toList ∉ p.toList.splitOn ' ' := by
    rw [hwords]
    intro hmem
    rcases List.mem_append.1 hmem with hmem | hmem
    · rcases List.mem_append.1 hmem with hmem | hmem
      · exact (hbefore _ hmem).2 rfl
      · -- a name would be this word, and be no name then
        have hname : "from".toList.filter (· ≠ ',') ∈ ns.map String.toList :=
          hnames ▸ List.mem_map_of_mem hmem
        obtain ⟨n, hn, htext⟩ := List.mem_map.1 hname
        refine (hplain n hn).keyword ?_
        rw [htext]
        decide
    · exact (hafter _ hmem).2 rfl
  rw [importedNames_append hfrom, hwords, List.map_append, List.map_append, List.filter_append,
    List.filter_append, hbefore.filter, hafter.filter, hnames, hkept]
  simp

namespace Frame

variable {f : Frame} {ms : List Mention}

theorem surrounds_importWord (t : Bool) {w : String} (hw : w = " * as" ∨ w = " \x7b") :
    Surrounds ((importWord t ++ w).toList.splitOn ' ') := by
  rcases hw with rfl | rfl <;> cases t <;> decide +kernel

theorem importedNames_moduleLine {a : String} (ha : Plain a) (m : ModuleImport) :
    importedNames (moduleLine a m) = [a] := by
  have hwords : (importWord m.typeOnly ++ " * as " ++ a).toList.splitOn ' ' =
      (importWord m.typeOnly ++ " * as").toList.splitOn ' ' ++ [a.toList] ++ [] := by
    have htext : (importWord m.typeOnly ++ " * as " ++ a).toList =
        (importWord m.typeOnly ++ " * as").toList ++ ' ' :: a.toList := by
      simp
    rw [htext, List.splitOn_append_cons_self, ha.splitOn, List.append_nil]
  unfold moduleLine
  rw [String.append_assoc]
  refine importedNames_eq hwords (surrounds_importWord _ (.inl rfl)) nofun ?_ ?_
  · exact congrArg ([·]) ha.filter_comma
  · exact List.forall_mem_singleton.2 ha

theorem importedNames_packageLine {p : String × Bool}
    (hne : namesFrom p ms ≠ []) (hplain : ∀ n ∈ namesFrom p ms, Plain n) :
    importedNames (packageLine p ms) = namesFrom p ms := by
  have hwords : (importWord p.2 ++ " \x7b " ++ ", ".intercalate (namesFrom p ms) ++ " \x7d").toList.splitOn
      ' ' = (importWord p.2 ++ " \x7b").toList.splitOn ' ' ++
        (", ".intercalate (namesFrom p ms)).toList.splitOn ' ' ++ [['\x7d']] := by
    have htext : (importWord p.2 ++ " \x7b " ++ ", ".intercalate (namesFrom p ms) ++ " \x7d").toList =
        (importWord p.2 ++ " \x7b").toList ++
          ' ' :: ((", ".intercalate (namesFrom p ms)).toList ++ ' ' :: ['\x7d']) := by
      simp
    have hbrace : ' ' ∉ ['\x7d'] := by decide
    rw [htext, List.splitOn_append_cons_self, List.splitOn_append_cons_self,
      List.splitOn_eq_singleton hbrace, List.append_assoc]
  have hsource : " \x7d from '" = " \x7d" ++ " from '" := by decide
  unfold packageLine
  rw [hsource, ← String.append_assoc, String.append_assoc]
  exact importedNames_eq hwords (surrounds_importWord _ (.inr rfl)) (by decide)
    (Plain.splitOn_intercalate hne hplain) hplain

theorem mem_moduleNames {s : Scope} {a : String} :
    a ∈ s.moduleNames ms ↔ ∃ m ∈ ms, s.moduleName? m = some a := by
  rw [Scope.moduleNames, List.mem_mergeSort, List.mem_eraseDups, List.mem_filterMap]

theorem mem_packages {p : String × Bool} : p ∈ packages ms ↔ ∃ n, .imported p.1 n p.2 ∈ ms := by
  obtain ⟨q, t⟩ := p
  simp only [packages, List.mem_mergeSort, List.mem_eraseDups, List.mem_filterMap]
  constructor
  · rintro ⟨m, hm, hp⟩
    cases m with
    | imported q' n t' =>
      obtain ⟨rfl, rfl⟩ := Prod.mk.inj (Option.some.inj hp)
      exact ⟨n, hm⟩
    | _ => cases hp
  · rintro ⟨n, hm⟩
    exact ⟨_, hm, rfl⟩

theorem mem_namesFrom {p : String × Bool} {n : String} :
    n ∈ namesFrom p ms ↔ .imported p.1 n p.2 ∈ ms := by
  simp only [namesFrom, sortTexts, List.mem_mergeSort, List.mem_eraseDups, List.mem_filterMap]
  constructor
  · rintro ⟨m, hm, hn⟩
    cases m with
    | imported q k t =>
      simp only [Option.ite_none_right_eq_some, Option.some.injEq] at hn
      obtain ⟨rfl, rfl⟩ := hn
      exact hm
    | _ => cases hn
  · intro hm
    exact ⟨_, hm, if_pos rfl⟩

/-- Modules that were mentioned are found, the names to import are words, and no two imports bind one. -/
structure Imports (f : Frame) (ms : List Mention) : Prop where
  found : ∀ a ∈ f.scope.moduleNames ms, (f.modules.lookup a).isSome = true
  module : ∀ a ∈ f.scope.moduleNames ms, Plain a
  name : ∀ p n t, .imported p n t ∈ ms → Plain n
  package : ∀ p q n t u, .imported p n t ∈ ms → .imported q n u ∈ ms → p = q ∧ t = u
  apart : ∀ p n t, .imported p n t ∈ ms → n ∉ f.scope.moduleNames ms

namespace Imports

theorem importedNames_importLines (h : f.Imports ms) : (f.importLines ms).flatMap importedNames =
    (packages ms).flatMap (namesFrom · ms) ++ f.scope.moduleNames ms := by
  have hpackages : ((packages ms).map (packageLine · ms)).flatMap importedNames =
      (packages ms).flatMap (namesFrom · ms) := by
    rw [List.flatMap_map]
    refine List.flatMap_congr fun p hp => ?_
    obtain ⟨n, hn⟩ := mem_packages.1 hp
    refine importedNames_packageLine (List.ne_nil_of_mem (mem_namesFrom.2 hn)) fun k hk => ?_
    exact h.name _ _ _ (mem_namesFrom.1 hk)
  have hmodules : ∀ as : List String, (∀ a ∈ as, (f.modules.lookup a).isSome = true ∧ Plain a) →
      (as.filterMap fun a => (f.modules.lookup a).map (moduleLine a)).flatMap importedNames = as := by
    intro as has
    induction as with
    | nil => rfl
    | cons a as ih =>
      obtain ⟨⟨hfound, ha⟩, hrest⟩ := List.forall_mem_cons.1 has
      obtain ⟨m, hm⟩ := Option.isSome_iff_exists.1 hfound
      simp only [List.filterMap_cons, hm, Option.map_some, List.flatMap_cons, ih hrest,
        importedNames_moduleLine ha, List.singleton_append]
  rw [importLines, List.flatMap_append, hpackages,
    hmodules _ fun a ha => ⟨h.found a ha, h.module a ha⟩]

theorem count_importedNames (h : f.Imports ms) {m : Mention} (hm : m ∈ ms) {n : String}
    (hn : f.scope.importName? m = some n) : ((f.importLines ms).flatMap importedNames).count n = 1 := by
  have hnames : ((packages ms).flatMap (namesFrom · ms)).Nodup := by
    refine List.nodup_flatMap.2 ⟨fun p _ => ?_, ?_⟩
    · exact List.nodup_mergeSort.2 (nodup_eraseDups _)
    · have hpackages : (packages ms).Nodup := List.nodup_mergeSort.2 (nodup_eraseDups _)
      refine hpackages.imp fun {p q} hpq k hp hq => hpq ?_
      obtain ⟨h₁, h₂⟩ := h.package _ _ _ _ _ (mem_namesFrom.1 hp) (mem_namesFrom.1 hq)
      exact Prod.ext h₁ h₂
  have hmodules : (f.scope.moduleNames ms).Nodup := List.nodup_mergeSort.2 (nodup_eraseDups _)
  have hapart : ∀ k ∈ (packages ms).flatMap (namesFrom · ms),
      ∀ a ∈ f.scope.moduleNames ms, k ≠ a := by
    rintro k hk _ ha rfl
    obtain ⟨p, -, hk⟩ := List.mem_flatMap.1 hk
    exact h.apart _ _ _ (mem_namesFrom.1 hk) ha
  -- no name is bound twice, so it is enough that this one is bound
  rw [h.importedNames_importLines]
  refine List.count_eq_one_of_mem (List.nodup_append.2 ⟨hnames, hmodules, hapart⟩) ?_
  have hmodule : f.scope.moduleName? m = some n → n ∈ f.scope.moduleNames ms :=
    fun hname => mem_moduleNames.2 ⟨m, hm, hname⟩
  cases m with
  | imported p k t =>
    obtain rfl := Option.some.inj hn
    refine List.mem_append_left _ (List.mem_flatMap.2 ⟨(p, t), mem_packages.2 ⟨k, hm⟩, ?_⟩)
    exact mem_namesFrom.2 hm
  | declared | mapper | module | member | helper | numeral | notice =>
    exact List.mem_append_right _ (hmodule hn)

end Imports

theorem assemble_ok {segments : List String} {body : Body} {a : Artifact}
    (h : (f.assemble segments body).result = .ok a) :
    (f.assemble segments body).mentions = body.mentions ++ [.numeral f.service.majorVersion] ∧
      ∃ lines, body.result = .ok lines ∧
        a.contents = Layout.reindent (f.banner ++ f.importLines body.mentions ++ lines) := by
  obtain ⟨lines, hlines, ha, hmentions⟩ := Journal.bind_ok h
  obtain rfl := Except.ok.inj ha
  exact ⟨hmentions, lines, hlines, rfl⟩

end Frame

namespace Artifact.Mappers

variable {s : Service} {o : Options}

/-- The mapper of a declaration in a role, which calls mappers of declarations. -/
structure Mapped (s : Service) (m : Mapper) : Prop where
  of : Mapper.Of s m.signature m
  calls : ∀ c ∈ m.calls, ∃ g : Signature, c = g.function

/-- The work gives the lines of mappers with some signatures, and mentions what they mention. -/
def Writes (s : Service) (gs : List Signature) (x : Body) : Prop :=
  ∀ ls, x.result = .ok ls → ∃ ms : List Mapper, ls = (ms.flatMap fun m => "" :: m.lines scope) ∧
    ms.map Mapper.signature = gs ∧ (∀ m ∈ ms, Mapped s m) ∧
      Mirrors (ms.flatMap Mapper.mentions) x.mentions

namespace Writes

theorem append {gs hs : List Signature} {x y : Body} (hx : Writes s gs x) (hy : Writes s hs y) :
    Writes s (gs ++ hs) (x ++ y) := by
  intro ls hls
  obtain ⟨hmentions, as, bs, has, hbs, rfl⟩ := Journal.append_ok hls
  obtain ⟨ms, rfl, rfl, hms, hmirrors⟩ := hx as has
  obtain ⟨ns, rfl, rfl, hns, hmirrors'⟩ := hy bs hbs
  refine ⟨ms ++ ns, by simp, by simp, List.forall_mem_append.2 ⟨hms, hns⟩, ?_⟩
  rw [hmentions, List.flatMap_append]
  exact hmirrors.append hmirrors'

theorem concat {α : Type} {f : α → List Signature} {g : α → Body} {as : List α}
    (h : ∀ a ∈ as, Writes s (f a) (g a)) : Writes s (as.flatMap f) (Journal.concat g as) := by
  induction as with
  | nil =>
    intro ls hls
    obtain rfl := Except.ok.inj hls
    exact ⟨[], rfl, rfl, by simp, Mirrors.refl _⟩
  | cons a as ih =>
    obtain ⟨ha, hrest⟩ := List.forall_mem_cons.1 h
    rw [Journal.concat_cons, List.flatMap_cons]
    exact ha.append (ih hrest)

theorem single {m : Mapper} {x : Body} {notice : Notice} {ms : List Mention} (hm : Mapped s m)
    (hx : x = ⟨.notice notice :: ms, .ok ("" :: m.lines scope)⟩) (hms : Mirrors m.mentions ms) :
    Writes s [m.signature] x := by
  intro ls hls
  rw [hx] at hls ⊢
  obtain rfl := Except.ok.inj hls
  refine ⟨[m], by simp, rfl, by simpa using hm, ?_⟩
  rw [List.flatMap_singleton]
  refine ⟨List.subset_cons_of_subset _ hms.subset, fun h hh => ?_⟩
  exact hms.helper h ((List.mem_cons.1 hh).resolve_left nofun)

end Writes

theorem mentionable_function (role : Role) (roots : List Value) :
    s.Mentionable role roots fun m => ∀ c, m = .mapper c → ∃ g : Signature, c = g.function where
  helper _ := nofun
  notice _ := nofun
  numeral _ _ := nofun
  declared _ _ _ := nofun
  mapper n _ := by
    rintro c hc
    exact ⟨⟨n, role⟩, (Mention.mapper.inj hc).symm⟩

theorem recordBody_writes (hs : s.Sound) (role : Role) {roots : List Value} {t : TypeDecl}
    (ht : t ∈ s.reachedTypes roots) : Writes s [⟨t.name, role⟩] (recordBody s role t) := by
  obtain ⟨hmem, hreached⟩ := hs.mem_reachedTypes_iff.1 ht
  have hresolve := hs.resolveName_eq_type_iff.2 ⟨hmem, rfl⟩
  have hcalls := ((mentionable_function role roots).recordMapper hresolve hreached).2
  exact Writes.single (m := .record (s.recordMapper role t))
    ⟨.record hmem role, fun c hc => hcalls c hc c rfl⟩ rfl (Mirrors.refl _)

theorem unionBody_writes (hs : s.Sound) (role : Role) {roots : List Value} {u : UnionDecl}
    (hu : u ∈ s.reachedUnions roots) : Writes s [⟨u.name, role⟩] (unionBody s role u) := by
  intro ls hls
  obtain ⟨hmem, hreached⟩ := hs.mem_reachedUnions_iff.1 hu
  have hresolve := hs.resolveName_eq_union_iff.2 ⟨hmem, rfl⟩
  obtain ⟨_, -, hm⟩ := Journal.bind_result_ok.1 hls
  obtain ⟨m, hm, -⟩ := Journal.bind_result_ok.1 hm
  obtain ⟨hsignature, hcalls⟩ :=
    ((mentionable_function role roots).unionMapper hs hresolve hreached).ok m hm
  have hof : Mapper.Of s m.signature (.union m) := hsignature ▸ .union hmem role hm
  have hbody : unionBody s role u = ⟨.notice (.unionMapper role.name u.name) ::
      (s.unionMapper role u).mentions, .ok ("" :: m.lines scope)⟩ := by
    change (Journal.note _).bind (fun _ => (s.unionMapper role u).bind _) = _
    rw [Journal.bind_of_ok (a := ()) rfl, Journal.bind_of_ok hm]
    simp [Journal.note, Journal.record]
  rw [← hsignature]
  exact Writes.single (m := .union m) ⟨hof, fun c hc => hcalls c hc c rfl⟩ hbody
    (s.unionMapper_accounts role u m hm) ls hls

theorem groupBody_writes (hs : s.Sound) {g : Group} (hg : g ∈ groups s o.role) :
    Writes s g.signatures (groupBody s g) := by
  have hgroup : ∀ role roots,
      Writes s (Group.mk role (s.reachedTypes roots) (s.reachedUnions roots)).signatures
        (groupBody s ⟨role, s.reachedTypes roots, s.reachedUnions roots⟩) := by
    intro role roots
    rw [Group.signatures, List.map_append, List.map_map, List.map_map, List.map_eq_flatMap,
      List.map_eq_flatMap]
    exact (Writes.concat fun t ht => recordBody_writes hs role ht).append
      (.concat fun u hu => unionBody_writes hs role hu)
  rcases mem_groups_iff.1 hg with rfl | rfl
  · exact hgroup _ _
  · exact hgroup _ _

theorem uses_helper_iff {m : Mapper} (hm : Mapped s m) (h : Helper) :
    Uses (fun w => m.lines (scope.respelled w)) h.name ↔ .helper h ∈ m.mentions := by
  refine Mapper.uses_iff rfl rfl fun j hj hname => ?_
  have hgenerated := Mapper.isGenerated_of_mem hj
  cases j with
  | helper k => rw [Helper.name_injective (List.mem_singleton.1 hname)]
  | mapper x =>
    obtain rfl := List.mem_singleton.1 hname
    obtain ⟨g, hg⟩ := hm.calls _ (Mapper.mapper_mem_mentions_iff.1 hj)
    exact (g.function_ne_helper h hg.symm).elim
  | declared f x =>
    have hmodule : h.name ≠ "types" ∧ h.name ≠ "dtos" := by cases h <;> decide
    cases f with
    | internal => exact absurd (List.mem_singleton.1 hname) hmodule.1
    | wire => exact absurd (List.mem_singleton.1 hname) hmodule.2
  | numeral i => cases hname
  | imported | module | member | notice => cases hgenerated

/-- Lines with the mappers of a service below definitions of helpers: of those that some mapper uses,
each once, and no others. -/
structure Equipped (s : Service) (o : Options) (lines : List String) (helpers : List Helper)
    (ms : List Mapper) : Prop where
  of : ∀ m ∈ ms, Mapper.Of s m.signature m
  signatures : ms.map Mapper.signature = signatures s o.role
  defined : List.Forall₂ Helper.DefinedBy helpers (linesOf "function" lines)
  written : ∀ h ∈ helpers, h.source <:+: lines
  above : ∃ above, lines = above ++ (ms.flatMap fun m => "" :: m.lines scope) ∧
    linesOf "export" above = [] ∧ linesOf "function" above = linesOf "function" lines
  once : helpers.Nodup
  used : ∀ h, h ∈ helpers ↔ ∃ m ∈ ms, Uses (fun w => m.lines (scope.respelled w)) h.name
  called : ∀ h ∈ helpers, ∃ m ∈ ms, Holds (m.lines scope) (h.name ++ "(")

theorem exists_equipped (hs : s.Sound) {lines : List String} (h : (body s o).result = .ok lines) :
    ∃ helpers ms, Equipped s o lines helpers ms := by
  obtain ⟨ls, hls, hlines⟩ := Journal.bind_result_ok.1 h
  obtain rfl := Except.ok.inj hlines
  obtain ⟨ms, rfl, hsignatures, hms, hmirrors⟩ :=
    Writes.concat (fun g hg => groupBody_writes hs hg) ls hls
  have hmappers : linesOf "function" (ms.flatMap fun m => "" :: m.lines scope) = [] := by
    rw [linesOf_flatMap]
    exact List.flatMap_eq_nil_iff.2 fun m _ => m.linesOf_function scope
  have hmem : ∀ h, h ∈ Helper.all.filter (fun h =>
      (Journal.concat (groupBody s) (groups s o.role)).mentions.contains (.helper h)) ↔
      ∃ m ∈ ms, .helper h ∈ m.mentions := by
    intro h
    have hall : h ∈ Helper.all := by cases h <;> decide
    rw [List.mem_filter, List.contains_iff_mem, ← List.mem_flatMap]
    -- what was noted while a condition was built is also in the lines, so both directions hold
    exact ⟨fun hm => hmirrors.helper h hm.2, fun hm => ⟨hall, hmirrors.subset hm⟩⟩
  have hnodup : (Helper.all.filter fun h =>
      (Journal.concat (groupBody s) (groups s o.role)).mentions.contains (.helper h)).Nodup := by
    have hall : Helper.all.Nodup := by decide
    exact hall.filter _
  unfold helperLines
  generalize Helper.all.filter (fun h =>
    (Journal.concat (groupBody s) (groups s o.role)).mentions.contains (.helper h)) = helpers at hmem hnodup ⊢
  obtain ⟨hdefined, hexports⟩ := linesOf_helpers helpers
  have hfunctions : linesOf "function" ((helpers.flatMap fun h => "" :: h.source) ++
      ms.flatMap fun m => "" :: m.lines scope) =
      linesOf "function" (helpers.flatMap fun h => "" :: h.source) := by
    rw [linesOf_append, hmappers, List.append_nil]
  have hwritten : ∀ h ∈ helpers, h.source <:+: helpers.flatMap fun h => "" :: h.source := by
    intro h hh
    have hpart : "" :: h.source <:+: helpers.flatMap fun h => "" :: h.source :=
      List.infix_of_mem_flatten (List.mem_map_of_mem hh)
    exact (List.suffix_cons "" h.source).isInfix.trans hpart
  refine ⟨helpers, ms, fun m hm => (hms m hm).of, hsignatures, hfunctions ▸ hdefined,
    fun h hh => (hwritten h hh).trans (List.prefix_append _ _).isInfix,
    ⟨_, rfl, hexports, hfunctions.symm⟩, hnodup, fun h => ?_, fun h hh => ?_⟩
  · rw [hmem]
    exact exists_congr fun m => and_congr_right fun hm => (uses_helper_iff (hms m hm) h).symm
  · obtain ⟨m, hm, hmention⟩ := (hmem h).1 hh
    obtain ⟨t, ht, hcall⟩ := Mapper.shows_call scope hmention rfl
    obtain rfl := List.mem_singleton.1 ht
    exact ⟨m, hm, hcall⟩

end Artifact.Mappers

namespace ArtifactKind

variable {s : Service} {o : Options} {k : ArtifactKind}

def body (k : ArtifactKind) (s : Service) (o : Options) (scope : Scope) : Body :=
  match k with
  | .types => Artifact.Types.body s o scope
  | .dtos => Artifact.Dtos.body s scope
  | .mappers => Artifact.Mappers.body s o scope
  | .readme => .record (Artifact.Readme.lines s o) []
  | .handlers => Artifact.Handlers.body s o scope
  | .handlerTypes => Artifact.HandlerTypes.body s scope
  | .errors => Artifact.Errors.body o scope
  | .index => .record (Artifact.Index.lines o) []

def packageNames : ArtifactKind → List (String × String × Bool)
  | .handlers => Artifact.Handlers.packageNames
  | .handlerTypes => Artifact.HandlerTypes.packageNames
  | .errors => Artifact.Errors.packageNames
  | .types | .dtos | .mappers | .readme | .index => []

theorem packageNames_unique {p q n : String} {t u : Bool} (hp : (p, n, t) ∈ k.packageNames)
    (hq : (q, n, u) ∈ k.packageNames) : p = q ∧ t = u := by
  have hnodup : (k.packageNames.map (·.2.1)).Nodup := by cases k <;> decide
  have hsame := List.inj_on_of_nodup_map hnodup hp hq rfl
  exact ⟨congrArg (·.1) hsame, congrArg (·.2.2) hsame⟩

theorem plain_modules (k : ArtifactKind) {s : Service} {o : Options} {n : String}
    (h : ((k.frame s o).modules.lookup n).isSome = true) : Plain n := by
  obtain ⟨e, he, hn⟩ := List.lookup_isSome_iff.1 h
  obtain rfl := eq_of_beq hn
  have hplain : ∀ n ∈ (k.frame s o).modules.map Prod.fst, Plain n := by
    cases k <;> simp only [frame, Artifact.Types.frame, Artifact.Dtos.frame, Artifact.Mappers.frame,
      Artifact.Readme.frame, Artifact.Handlers.frame, Artifact.Handlers.modules,
      Artifact.HandlerTypes.frame, Artifact.Errors.frame, Artifact.Index.frame, List.map_cons,
      List.map_nil] <;> decide +kernel
  exact hplain _ (List.mem_map_of_mem he)

theorem plain_packageNames {p n : String} {t : Bool} (h : (p, n, t) ∈ k.packageNames) : Plain n := by
  have hplain : ∀ e ∈ k.packageNames, Plain e.2.1 := by cases k <;> decide +kernel
  exact hplain _ h

theorem lookup_packageNames (s : Service) (o : Options) {p n : String} {t : Bool}
    (h : (p, n, t) ∈ k.packageNames) : (k.frame s o).modules.lookup n = none := by
  have hnone : ∀ e ∈ k.packageNames, (k.frame s o).modules.lookup e.2.1 = none := by
    cases k with
    | types | dtos | mappers | readme | index => exact nofun
    | handlers =>
      simp [packageNames, Artifact.Handlers.packageNames, frame, Artifact.Handlers.frame,
        Artifact.Handlers.modules, List.lookup]
    | handlerTypes =>
      simp [packageNames, Artifact.HandlerTypes.packageNames, frame, Artifact.HandlerTypes.frame,
        List.lookup]
    | errors =>
      simp [packageNames, Artifact.Errors.packageNames, frame, Artifact.Errors.frame, List.lookup]
  exact hnone _ h

theorem body_steady (hs : s.Sound) (k : ArtifactKind) (w : String → String) :
    Journal.Steady (k.frame s o).scope w k.packageNames (k.body s o (k.frame s o).scope)
      (k.body s o ((k.frame s o).scope.respelled w)) := by
  cases k with
  | types => exact Artifact.Types.body_steady w s o
  | dtos => exact Artifact.Dtos.body_steady w s
  | mappers => exact Artifact.Mappers.body_steady hs w o
  | readme | index => exact .plain _
  | handlers => exact Artifact.Handlers.body_steady w s o
  | handlerTypes => exact Artifact.HandlerTypes.body_steady w s
  | errors => exact Artifact.Errors.body_steady w o

theorem written_scope (k : ArtifactKind) (s : Service) (o : Options) :
    (k.frame s o).scope.written = id := by
  cases k <;> rfl

theorem render_eq (hk : k ≠ .readme) : ∃ segments,
    k.render s o = (k.frame s o).assemble segments (k.body s o (k.frame s o).scope) := by
  cases k with
  | readme => exact absurd rfl hk
  | types | dtos | mappers | handlers | handlerTypes | errors | index => exact ⟨_, rfl⟩

theorem render_ok {a : Artifact} (h : (k.render s o).result = .ok a) :
    (k.render s o).mentions =
        (k.body s o (k.frame s o).scope).mentions ++ [.numeral s.majorVersion] ∧
      ∃ lines, (k.body s o (k.frame s o).scope).result = .ok lines ∧
        (k ≠ .readme → a.contents = Layout.reindent ((k.frame s o).banner ++
          (k.frame s o).importLines (k.body s o (k.frame s o).scope).mentions ++ lines)) := by
  by_cases hk : k = .readme
  · subst hk
    exact ⟨rfl, _, rfl, fun hne => absurd rfl hne⟩
  · obtain ⟨segments, hrender⟩ := render_eq (s := s) (o := o) hk
    have hservice : (k.frame s o).service = s := by cases k <;> rfl
    rw [hrender] at h ⊢
    obtain ⟨hmentions, lines, hlines, hcontents⟩ := Frame.assemble_ok h
    rw [hmentions, hservice]
    exact ⟨rfl, lines, hlines, fun _ => hcontents⟩

theorem body_mentions_subset (k : ArtifactKind) (s : Service) (o : Options) :
    (k.body s o (k.frame s o).scope).mentions ⊆ (k.render s o).mentions := by
  by_cases hk : k = .readme
  · subst hk
    exact nofun
  · obtain ⟨segments, hrender⟩ := render_eq (s := s) (o := o) hk
    rw [hrender]
    exact Journal.mentions_subset_bind _ _

theorem imports (hs : s.Sound) (k : ArtifactKind) (o : Options) :
    (k.frame s o).Imports (k.body s o (k.frame s o).scope).mentions := by
  have hfound : ∀ n ∈ (k.frame s o).scope.moduleNames (k.body s o (k.frame s o).scope).mentions,
      ((k.frame s o).modules.lookup n).isSome = true := by
    intro n hn
    obtain ⟨m, hm, hname⟩ := Frame.mem_moduleNames.1 hn
    exact ((k.render_meets hs).mentions m (body_mentions_subset k s o hm)).imported n hname
  have hpackaged := (body_steady (o := o) hs k id).packaged
  refine ⟨hfound, fun n hn => plain_modules k (hfound n hn), fun p n t hm => ?_,
    fun p q n t u hp hq => ?_, fun p n t hp hn => ?_⟩
  · exact plain_packageNames (hpackaged p n t hm)
  · exact packageNames_unique (hpackaged _ _ _ hp) (hpackaged _ _ _ hq)
  · have hlookup := hfound n hn
    rw [lookup_packageNames s o (hpackaged _ _ _ hp)] at hlookup
    cases hlookup

end ArtifactKind

/-- What an artifact uses from outside its lines is there. Every module that was mentioned is known. The
names that the lines use were mentioned: helpers, mappers, and what the lines of imports bind, which name
each of these once. The helpers that mappers use are defined above them. -/
structure Supplied (s : Service) (o : Options) (k : ArtifactKind) (a : Artifact)
    (block lines : List String) : Prop where
  body : (k.body s o (k.frame s o).scope).result = .ok lines
  contents : k ≠ .readme → a.contents = Layout.reindent ((k.frame s o).banner ++ block ++ lines)
  opened : ∀ l ∈ block, firstWord l = "import".toList
  found : ∀ n ∈ (k.frame s o).scope.moduleNames (k.render s o).mentions,
    ((k.frame s o).modules.lookup n).isSome = true
  mentioned : ∀ n, Uses (fun w => (k.body s o ((k.frame s o).scope.respelled w)).result) n →
    (∃ h : Helper, n = h.name ∧ .helper h ∈ (k.render s o).mentions) ∨
      .mapper n ∈ (k.render s o).mentions ∨
        ∃ m ∈ (k.render s o).mentions, (k.frame s o).scope.importName? m = some n
  once : ∀ m ∈ (k.render s o).mentions, ∀ n, (k.frame s o).scope.importName? m = some n →
    (block.flatMap importedNames).count n = 1
  helpers : k = .mappers → ∃ helpers ms, Artifact.Mappers.Equipped s o lines helpers ms

/-- Every artifact of a service without defects has what it uses. -/
theorem exists_supplied {s : Service} {o : Options} {k : ArtifactKind} {a : Artifact}
    (hs : s.check.isSound = true) (ha : (k.render s o).result = .ok a) :
    ∃ block lines, Supplied s o k a block lines := by
  have hsound := Service.isSound_iff.1 hs
  obtain ⟨hmentions, lines, hlines, hcontents⟩ := ArtifactKind.render_ok ha
  have himports := ArtifactKind.imports hsound k o
  refine ⟨_, lines, hlines, hcontents, fun l => Frame.firstWord_of_mem_importLines, fun n hn => ?_,
    fun n hn => ?_, fun m hm n hn => ?_, ?_⟩
  · obtain ⟨m, hm, hname⟩ := Frame.mem_moduleNames.1 hn
    exact ((k.render_meets hsound).mentions m hm).imported n hname
  · obtain ⟨m, hm, hn⟩ := Journal.Steady.mentioned_of_uses (k.body s o) (k.written_scope s o)
      (ArtifactKind.body_steady (o := o) hsound k) hn
    have hm := k.body_mentions_subset s o hm
    cases m with
    | helper h => exact .inl ⟨h, List.mem_singleton.1 hn, hm⟩
    | mapper x =>
      rcases List.mem_cons.1 hn with rfl | hn
      · exact .inr (.inl hm)
      · exact .inr (.inr ⟨_, hm, Option.mem_toList.1 hn⟩)
    | imported p x t =>
      obtain rfl := List.mem_singleton.1 hn
      exact .inr (.inr ⟨_, hm, rfl⟩)
    | declared | module | member | numeral | notice =>
      exact .inr (.inr ⟨_, hm, Option.mem_toList.1 hn⟩)
  · rw [hmentions] at hm
    rcases List.mem_append.1 hm with hm | hm
    · exact himports.count_importedNames hm hn
    · obtain rfl := List.mem_singleton.1 hm
      cases hn
  · rintro rfl
    exact Artifact.Mappers.exists_equipped hsound hlines

namespace Library

theorem compact_mentioned {m : Mapper} (h : Mapper.Of service ⟨"author", .serverInbound⟩ m) :
    .helper .compact ∈ m.mentions := by
  generalize hname : "author" = n at h
  cases h with
  | @record t ht _ =>
    have hproperties : t.mapClause = none ∧ t.properties.isEmpty = false := by
      simp only [service, List.mem_cons, List.not_mem_nil, or_false] at ht
      rcases ht with rfl | rfl | rfl | rfl | rfl <;> simp_all
    have hbody : .helper .compact ∈ (service.recordMapper .serverInbound t).body.mentions := by
      simp [Service.recordMapper, hproperties, RecordBody.mentions]
    exact List.mem_append_right _ hbody
  | union hu _ _ =>
    rcases List.mem_pair.1 hu with rfl | rfl <;> exact absurd hname (by decide)

/-- The mappers of the library make objects without undefined members, and the errors hold issues. -/
theorem mappers_supplied : service.check.isSound = true ∧
    (∃ a block lines helpers ms, (ArtifactKind.mappers.render service {}).result = .ok a ∧
      Supplied service {} .mappers a block lines ∧
      Artifact.Mappers.Equipped service {} lines helpers ms ∧ .compact ∈ helpers) ∧
    Uses (fun w => (Artifact.Errors.body {} (Artifact.Errors.scope.respelled w)).result) "ZodIssue" ∧
    ∃ a block lines, (ArtifactKind.errors.render service {}).result = .ok a ∧
      Supplied service {} .errors a block lines ∧ (block.flatMap importedNames).count "ZodIssue" = 1 := by
  obtain ⟨a, ha⟩ := exists_mappers
  obtain ⟨block, lines, hlines⟩ := exists_supplied (k := .mappers) service_sound ha
  obtain ⟨helpers, ms, hms⟩ := hlines.helpers rfl
  have hcompact : .compact ∈ helpers := by
    have hauthor : ⟨"author", .serverInbound⟩ ∈ ms.map Mapper.signature := by
      rw [hms.signatures, Artifact.Mappers.mem_signatures_iff (Service.isSound_iff.1 service_sound)]
      exact .inl ⟨rfl, author_reached⟩
    obtain ⟨m, hm, hsignature⟩ := List.mem_map.1 hauthor
    have hof := hms.of m hm
    rw [hsignature] at hof
    exact (hms.used .compact).2 ⟨m, hm, m.uses_of_mem rfl (compact_mentioned hof)⟩
  have hissue : Uses (fun w => (Artifact.Errors.body {} (Artifact.Errors.scope.respelled w)).result)
      "ZodIssue" := by
    refine ⟨"Issue", ?_⟩
    decide +kernel
  obtain ⟨others, errorLines, herrors⟩ := exists_supplied (k := .errors) (o := {}) service_sound rfl
  refine ⟨service_sound, ⟨a, block, lines, helpers, ms, ha, hlines, hms, hcompact⟩, hissue,
    _, others, errorLines, rfl, herrors, ?_⟩
  rcases herrors.mentioned "ZodIssue" hissue with ⟨h, hname, -⟩ | hmapper | ⟨m, hm, hname⟩
  · cases h <;> simp [Helper.name] at hname
  · exact absurd hmapper (by decide)
  · exact herrors.once m hm _ hname

end Library

end DtoGen
