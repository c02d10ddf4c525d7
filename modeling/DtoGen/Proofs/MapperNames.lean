import DtoGen.Proofs.Artifacts
import DtoGen.Proofs.UnionMapper
import Mathlib

namespace DtoGen

inductive Mapper where
  | record (m : RecordMapper)
  | union (m : UnionMapper)

namespace Mapper

def signature : Mapper → Signature
  | .record m => m.signature
  | .union m => m.signature

def name (m : Mapper) : String := mapperName m.signature.name m.signature.role

def lines (scope : Scope) : Mapper → List String
  | .record m => m.lines scope
  | .union m => m.lines scope

/-- The mappers that a mapper calls, once for each time. -/
def calls : Mapper → List String
  | .record m => m.body.calls
  | .union m => m.body.calls

/-- The mapper that a service has for a declaration in a role. -/
inductive Of (s : Service) : Signature → Mapper → Prop where
  | record {t : TypeDecl} (ht : t ∈ s.types) (role : Role) :
    Of s ⟨t.name, role⟩ (.record (s.recordMapper role t))
  | union {u : UnionDecl} {m : UnionMapper} (hu : u ∈ s.unions) (role : Role)
    (hm : (s.unionMapper role u).result = .ok m) : Of s ⟨u.name, role⟩ (.union m)

end Mapper

namespace Service

variable {s : Service} {roots : List Value}

theorem Reaches.isMapped {n : String} (h : s.Reaches roots n) :
    (s.resolveName n).isMapped = true := by
  cases h with
  | root _ _ hm => exact hm
  | step _ _ hm => exact hm

end Service

namespace Artifact.Mappers

open Journal

variable {s : Service} {o : Options}

/-- Lines that are those of mappers with some signatures, in their order. What they call may be
mentioned. -/
def Listing (s : Service) (P : Mention → Prop) (gs : List Signature) (lines : List String) : Prop :=
  ∃ ms : List Mapper, lines = (ms.flatMap fun m => "" :: m.lines scope) ∧
    ms.map Mapper.signature = gs ∧
      ∀ m ∈ ms, Mapper.Of s m.signature m ∧ ∀ c ∈ m.calls, P (.mapper c)

section Listing

variable {P : Mention → Prop}

theorem Listing.single {m : Mapper} (hm : Mapper.Of s m.signature m) (hc : ∀ c ∈ m.calls, P (.mapper c)) :
    Listing s P [m.signature] ("" :: m.lines scope) := by
  refine ⟨[m], by simp, rfl, fun m' hm' => ?_⟩
  obtain rfl := List.mem_singleton.1 hm'
  exact ⟨hm, hc⟩

theorem Listing.append {gs hs : List Signature} {as bs : List String} (ha : Listing s P gs as)
    (hb : Listing s P hs bs) : Listing s P (gs ++ hs) (as ++ bs) := by
  obtain ⟨ms, rfl, rfl, hms⟩ := ha
  obtain ⟨ns, rfl, rfl, hns⟩ := hb
  refine ⟨ms ++ ns, by simp, by simp, fun m hm => ?_⟩
  rcases List.mem_append.1 hm with hm | hm
  · exact hms m hm
  · exact hns m hm

theorem Listing.flatten {α : Type} {f : α → List Signature} {as : List α} {parts : List (List String)}
    (h : List.Forall₂ (fun a => Listing s P (f a)) as parts) :
    Listing s P (as.flatMap f) parts.flatten := by
  induction h with
  | nil => exact ⟨[], rfl, rfl, by simp⟩
  | cons ha _ ih =>
    rw [List.flatMap_cons, List.flatten_cons]
    exact ha.append ih

end Listing

def Group.signatures (g : Group) : List Signature :=
  (g.types.map (·.name) ++ g.unions.map (·.name)).map (⟨·, g.role⟩)

def signatures (s : Service) (p : Perspective) : List Signature :=
  (groups s p).flatMap Group.signatures

theorem mem_groups_iff {p : Perspective} {g : Group} :
    g ∈ groups s p ↔ g = inputs s p ∨ g = outputs s p := by
  cases p with
  | server => exact List.mem_pair
  | client => exact List.mem_pair.trans or_comm

/-- A group of what some values lead to has a mapper for each of it. -/
theorem mem_group_signatures (h : s.Sound) {roots : List Value} {role : Role} {g : Signature} :
    g ∈ (Group.mk role (s.reachedTypes roots) (s.reachedUnions roots)).signatures ↔
      g.role = role ∧ s.Reaches roots g.name := by
  rw [Group.signatures, List.mem_map]
  constructor
  · rintro ⟨n, hn, rfl⟩
    refine ⟨rfl, ?_⟩
    rcases List.mem_append.1 hn with hn | hn
    · obtain ⟨t, ht, rfl⟩ := List.mem_map.1 hn
      exact (h.mem_reachedTypes_iff.1 ht).2
    · obtain ⟨u, hu, rfl⟩ := List.mem_map.1 hn
      exact (h.mem_reachedUnions_iff.1 hu).2
  · rintro ⟨rfl, hn⟩
    refine ⟨g.name, ?_, rfl⟩
    have hmapped := hn.isMapped
    cases hr : s.resolveName g.name with
    | type t =>
      obtain ⟨ht, hname⟩ := h.resolveName_eq_type_iff.1 hr
      refine List.mem_append_left _ (List.mem_map.2 ⟨t, ?_, hname⟩)
      exact h.mem_reachedTypes_iff.2 ⟨ht, hname ▸ hn⟩
    | union u =>
      obtain ⟨hu, hname⟩ := h.resolveName_eq_union_iff.1 hr
      refine List.mem_append_right _ (List.mem_map.2 ⟨u, ?_, hname⟩)
      exact h.mem_reachedUnions_iff.2 ⟨hu, hname ▸ hn⟩
    | primitive | enum | unresolved => simp [hr, Resolution.isMapped] at hmapped

theorem mem_signatures_iff (h : s.Sound) {p : Perspective} {g : Signature} :
    g ∈ signatures s p ↔ s.HasMapper p g := by
  simp only [signatures, List.mem_flatMap, mem_groups_iff, or_and_right, exists_or, exists_eq_left,
    inputs, outputs, mem_group_signatures h, Service.HasMapper]

theorem nodup_group_signatures (h : s.Sound) {roots : List Value} {role : Role} :
    (Group.mk role (s.reachedTypes roots) (s.reachedUnions roots)).signatures.Nodup :=
  h.nodup_reachedNames.map fun _ _ hmn => congrArg Signature.name hmn

/-- No mapper is listed twice; those of inputs and of outputs differ in their role. -/
theorem nodup_signatures (h : s.Sound) (p : Perspective) : (signatures s p).Nodup := by
  have hinputs : (inputs s p).signatures.Nodup := nodup_group_signatures h
  have houtputs : (outputs s p).signatures.Nodup := nodup_group_signatures h
  have hroles : ∀ g ∈ (inputs s p).signatures, g ∉ (outputs s p).signatures := by
    intro g hg hg'
    have hin := ((mem_group_signatures h).1 hg).1
    have hout := ((mem_group_signatures h).1 hg').1
    rw [hin] at hout
    cases p <;> cases hout
  have hcross : ∀ g ∈ (inputs s p).signatures, ∀ g' ∈ (outputs s p).signatures, g ≠ g' := by
    rintro g hg g' hg' rfl
    exact hroles g hg hg'
  cases p with
  | server =>
    have hall := List.nodup_append.2 ⟨hinputs, houtputs, hcross⟩
    simpa [signatures, groups] using hall
  | client =>
    have hall := List.nodup_append.2 ⟨houtputs, hinputs, fun g hg g' hg' => (hcross g' hg' g hg).symm⟩
    simpa [signatures, groups] using hall

/-- Mappers may mention each other, since all of them are there. -/
theorem mentionable (h : s.Sound) {role : Role} {roots : List Value}
    (hrole : ∀ n, s.Reaches roots n → s.HasMapper o.role ⟨n, role⟩) :
    s.Mentionable role roots (Known s o .mappers) := by
  refine h.mentionable (ArtifactKind.home_declared (by decide)) fun n hn =>
    ⟨nofun, nofun, fun c hc => ?_, nofun⟩
  obtain rfl := Mention.mapper.inj hc
  exact ⟨⟨n, role⟩, hrole n hn, rfl⟩

/-- The errors for want of the mapper of some union. -/
def Fails (s : Service) (o : Options) (e : RenderError) : Prop :=
  ∃ u ∈ s.unions, ∃ role, s.HasMapper o.role ⟨u.name, role⟩ ∧
    (s.unionMapper role u).result = .error e ∧ RenderError.NoMapper u.name e

section Group

variable (h : s.Sound) {g : Group} {roots : List Value}
  (hrole : ∀ n, s.Reaches roots n → s.HasMapper o.role ⟨n, g.role⟩)

include h hrole

theorem recordBody_meets {t : TypeDecl} (ht : t ∈ s.reachedTypes roots) :
    (recordBody s g.role t).Meets (Known s o .mappers) (Fails s o)
      (Listing s (Known s o .mappers) [⟨t.name, g.role⟩]) := by
  obtain ⟨hmem, hreached⟩ := h.mem_reachedTypes_iff.1 ht
  have hresolve := h.resolveName_eq_type_iff.2 ⟨hmem, rfl⟩
  have hmapper := (mentionable h hrole).recordMapper hresolve hreached
  have hof : Mapper.Of s ⟨t.name, g.role⟩ (.record (s.recordMapper g.role t)) := .record hmem g.role
  refine .record (fun m hm => ?_) (Listing.single (m := .record _) hof hmapper.2)
  rcases List.mem_cons.1 hm with rfl | hm
  · exact .notice _
  · exact hmapper.1 m hm

theorem unionBody_meets {u : UnionDecl} (hu : u ∈ s.reachedUnions roots) :
    (unionBody s g.role u).Meets (Known s o .mappers) (Fails s o)
      (Listing s (Known s o .mappers) [⟨u.name, g.role⟩]) := by
  obtain ⟨hmem, hreached⟩ := h.mem_reachedUnions_iff.1 hu
  have hresolve := h.resolveName_eq_union_iff.2 ⟨hmem, rfl⟩
  have hmapper := ((mentionable h hrole).unionMapper h hresolve hreached).self
  unfold unionBody
  refine Meets.bind (R := fun _ => True) (.note fun m hm => ?_) fun _ _ => ?_
  · obtain rfl := List.mem_singleton.1 hm
    exact .notice _
  · refine (hmapper.mono_error fun e he => ?_).bind fun m hm => .record (by simp) ?_
    · exact ⟨u, hmem, g.role, hrole _ hreached, he⟩
    · obtain ⟨hok, hsignature, hcalls⟩ := hm
      have hof : Mapper.Of s m.signature (.union m) := hsignature ▸ .union hmem g.role hok
      rw [← hsignature]
      exact Listing.single (m := .union m) hof hcalls

theorem groupBody_meets (ht : g.types = s.reachedTypes roots) (hu : g.unions = s.reachedUnions roots) :
    (groupBody s g).Meets (Known s o .mappers) (Fails s o)
      (Listing s (Known s o .mappers) g.signatures) := by
  have hrecords := Meets.concat fun t (hmem : t ∈ g.types) => recordBody_meets h hrole (ht ▸ hmem)
  have hunions := Meets.concat fun u (hmem : u ∈ g.unions) => unionBody_meets h hrole (hu ▸ hmem)
  refine (hrecords.append hunions).mono fun ls hls => ?_
  obtain ⟨a, b, ⟨parts, hparts, rfl⟩, ⟨others, hothers, rfl⟩, rfl⟩ := hls
  rw [Group.signatures, List.map_append, List.map_map, List.map_map, List.map_eq_flatMap,
    List.map_eq_flatMap]
  exact (Listing.flatten hparts).append (Listing.flatten hothers)

end Group

/-- The lines are a banner, imports, helpers, and some mappers. -/
def Lists (s : Service) (o : Options) (lines : List String) (ms : List Mapper) : Prop :=
  ∃ helpers : List Helper, lines = (frame s o).banner ++ (frame s o).importLines (body s o).mentions ++
    ((helpers.flatMap fun h => "" :: h.source) ++ ms.flatMap fun m => "" :: m.lines scope)

theorem body_meets (h : s.Sound) : (body s o).Meets (Known s o .mappers) (Fails s o) fun ls =>
    ∃ (helpers : List Helper) (mappers : List String),
      ls = (helpers.flatMap fun h => "" :: h.source) ++ mappers ∧
      Listing s (Known s o .mappers) (signatures s o.role) mappers := by
  have hgroups : ∀ g ∈ groups s o.role, (groupBody s g).Meets (Known s o .mappers) (Fails s o)
      (Listing s (Known s o .mappers) g.signatures) := by
    intro g hg
    rcases mem_groups_iff.1 hg with rfl | rfl
    · exact groupBody_meets h (fun n hn => .inl ⟨rfl, hn⟩) rfl rfl
    · exact groupBody_meets h (fun n hn => .inr ⟨rfl, hn⟩) rfl rfl
  refine (Meets.concat hgroups).bind fun lines hlines => .record (by simp) ?_
  obtain ⟨parts, hparts, rfl⟩ := hlines
  exact ⟨_, _, rfl, Listing.flatten hparts⟩

theorem render_meets (h : s.Sound) : (render s o).Meets (Known s o .mappers) (Fails s o) fun a =>
    ∃ lines ms, a.contents = Layout.reindent lines ∧ Lists s o lines ms ∧
      ms.map Mapper.signature = signatures s o.role ∧ ∀ m ∈ ms, Mapper.Of s m.signature m ∧
        ∀ c ∈ m.calls, Known s o .mappers (.mapper c) := by
  refine ((body_meets h).assemble .version).mono fun a ha => ?_
  obtain ⟨_, ⟨helpers, _, rfl, ms, rfl, hms⟩, hcontents⟩ := ha
  exact ⟨_, ms, hcontents, ⟨helpers, rfl⟩, hms⟩

/-- There are mappers just if every union has those in which it crosses the wire. -/
theorem exists_render_iff (h : s.Sound) : (∃ a, (render s o).result = .ok a) ↔
    ∀ u ∈ s.unions, ∀ role, s.HasMapper o.role ⟨u.name, role⟩ →
      ∃ m, (s.unionMapper role u).result = .ok m := by
  constructor
  · rintro ⟨a, ha⟩ u hu role hrole
    obtain ⟨_, ms, -, -, hsignatures, hms⟩ := (render_meets h).ok a ha
    have hlisted : ⟨u.name, role⟩ ∈ ms.map Mapper.signature := by
      rw [hsignatures, mem_signatures_iff h]
      exact hrole
    obtain ⟨m, hm, hsignature⟩ := List.mem_map.1 hlisted
    have hof := (hms m hm).1
    rw [hsignature] at hof
    -- what is listed under the name of the union is its own mapper
    generalize hname : u.name = n at hof
    cases hof with
    | record ht _ =>
      have htype := h.resolveName_eq_type_iff.2 ⟨ht, hname.symm⟩
      rw [h.resolveName_eq_union_iff.2 ⟨hu, rfl⟩] at htype
      cases htype
    | union hu' _ hok =>
      have hsame := h.resolveName_eq_union_iff.2 ⟨hu', hname.symm⟩
      rw [h.resolveName_eq_union_iff.2 ⟨hu, rfl⟩] at hsame
      obtain rfl := Resolution.union.inj hsame
      exact ⟨_, hok⟩
  · intro hu
    have hfails : ∀ e, Fails s o e → False := by
      rintro e ⟨u, hmem, role, hrole, herror, -⟩
      obtain ⟨m, hm⟩ := hu u hmem role hrole
      rw [herror] at hm
      cases hm
    obtain ⟨a, ha, -⟩ := ((render_meets h).mono_error hfails).exists_ok
    exact ⟨a, ha⟩

end Artifact.Mappers

namespace Library

def tagged (tag : String) : Property where
  name := "kind"
  value := { base := .primitive .string (some (.string tag)) }

def titled : Property where
  name := "title"
  value := { base := .primitive .string none }

def sourced : Property where
  name := "source"
  value := { base := .named "book" }

def work : UnionDecl where
  name := "work"
  body := .discriminated "kind" [{ name := "book" }, { name := "author" }]

/-- None of the members has a mark, so all records in them, also those inside the nested union, share
one conversion. -/
def item : UnionDecl where
  name := "item"
  body := .simple [{ base := .named "work" }, { base := .named "clip" }, { base := .named "note" }]

/-- Items can be looked for. Books and authors refer to each other. -/
def service : Service where
  title := "library"
  interfaces :=
    [{ name := "catalog"
       methods :=
        [{ name := "find", parameters := [{ name := "query", value := { base := .named "item" } }]
           returns := some { base := .named "page" } }]
       http :=
        [{ pattern := "/find"
           methods :=
            [{ name := "find", verb := "post"
               parameters := [{ name := "query", location := .body }] }] }] }]
  types :=
    [{ name := "page"
       mapClause := some
        { key := { base := .primitive .string none }, value := { base := .named "item" }
          requiredKeys := ["first"] }
       rules := [.atLeast (-1), .atMost 9, .atLeast 12, .atMost (-3)] },
     { name := "book"
       properties :=
        [tagged "book", titled, { name := "genre", value := { base := .named "genre" } },
         { name := "author", value := { base := .named "author" } }] },
     { name := "author"
       properties :=
        [tagged "author", { name := "books", value := { base := .named "book", isArray := true } }] },
     { name := "clip", properties := [titled, sourced] },
     { name := "note", properties := [titled, sourced] }]
  enums := [{ name := "genre", members := [{ content := "essay" }] }]
  unions := [work, item]

theorem service_sound : service.check.isSound = true := by decide +kernel

theorem work_mapped (role : Role) (h : role = .serverInbound ∨ role = .serverOutbound) :
    (service.unionMapper role work).result.isOk = true := by
  rcases h with rfl | rfl <;> cbv

theorem item_mapped (role : Role) (h : role = .serverInbound ∨ role = .serverOutbound) :
    (service.unionMapper role item).result.isOk = true := by
  rcases h with rfl | rfl <;> cbv

theorem exists_mappers : ∃ a, (Artifact.Mappers.render service {}).result = .ok a := by
  refine (Artifact.Mappers.exists_render_iff (Service.isSound_iff.1 service_sound)).2 ?_
  intro u hu role hrole
  have hroles : role = .serverInbound ∨ role = .serverOutbound := hrole.imp And.left And.left
  rcases List.mem_pair.1 hu with rfl | rfl
  · exact Journal.exists_result (work_mapped role hroles)
  · exact Journal.exists_result (item_mapped role hroles)

theorem author_reached : service.Reaches service.inputs "author" := by
  have hitem : service.Reaches service.inputs "item" := .root List.mem_cons_self rfl rfl
  have hwork : service.Reaches service.inputs "work" :=
    .step hitem (.member (u := item) (v := { base := .named "work" }) rfl List.mem_cons_self rfl) rfl
  refine .step hwork (.member (u := work) (v := { base := .named "author" }) rfl ?_ rfl) rfl
  exact List.mem_cons_of_mem _ List.mem_cons_self

end Library

end DtoGen
