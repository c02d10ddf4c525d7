import DtoGen.Proofs.Rendering
import DtoGen.Proofs.Words

namespace DtoGen

namespace Naming

theorem mapperName_eq_iff {a b : String} {r r' : Role} (h : r.direction = r'.direction) :
    mapperName a r = mapperName b r' ↔ spoken a = spoken b := by
  have hname : mapperName b r' = mapperName b r := by rw [mapperName, mapperName, h]
  rw [hname, ← pascal_eq_iff]
  simp [mapperName, dtoName, ← String.toList_inj]

def ToldApart (names : List String) : Prop := ∀ a ∈ names, ∀ b ∈ names, spoken a = spoken b → a = b

/-- A type is never spelled like a guard: the first letter of a type is no small one. -/
theorem pascal_ne_camel_is (a b : String) : pascal a ≠ camel ("is_" ++ b) := by
  have hcamel : ∃ cs, camelChars ("is_" ++ b).toList = 'i' :: cs := by
    have hlist : ("is_" ++ b).toList = ['i', 's'] ++ '_' :: b.toList := String.toList_append
    have his : wordList ['i', 's'] = [['i', 's']] := by decide
    rw [hlist, camelChars, wordList_append_cons (by decide), his]
    exact ⟨_, rfl⟩
  obtain ⟨cs, hcs⟩ := hcamel
  rw [pascal, camel, ne_eq, String.ofList_inj, hcs, pascalChars_eq]
  intro h
  have hi := toUpper_of_mem_head (spoken a) 'i' (by simp [h])
  exact absurd hi (by decide)

end Naming

namespace Artifact.Types

open Journal

variable {s : Service} {o : Options}

inductive Declaration : String → List String → Prop where
  | interface (comment : List String) (x : String) (members : List String) : Declaration x
    ("" :: comment ++ ("export interface " ++ x ++ " \x7b") :: members ++ ["\x7d"])
  | object (x : String) (members : List String) : Declaration x
    ("" :: ("export type " ++ x ++ " = \x7b") :: members ++ ["\x7d;"])
  | type (comment : List String) (x definition : String) : Declaration x
    ("" :: comment ++ ["export type " ++ x ++ " = " ++ definition ++ ";"])
  | function (x parameter result check : String) : Declaration x
    ["", "export function " ++ x ++ "(obj: " ++ parameter ++ "): obj is " ++ result ++ " \x7b",
     "return " ++ check ++ ";", "\x7d"]

/-- Lines that are declarations under some names, in this order, and nothing else. -/
def Declaring (names lines : List String) : Prop :=
  ∃ blocks, List.Forall₂ Declaration names blocks ∧ lines = blocks.flatten

theorem Declaring.single {x : String} {lines : List String} (h : Declaration x lines) :
    Declaring [x] lines :=
  ⟨[lines], .cons h .nil, by simp⟩

theorem Declaring.append {xs ys as bs : List String} (ha : Declaring xs as) (hb : Declaring ys bs) :
    Declaring (xs ++ ys) (as ++ bs) := by
  obtain ⟨blocks, hblocks, rfl⟩ := ha
  obtain ⟨others, hothers, rfl⟩ := hb
  exact ⟨blocks ++ others, List.rel_append hblocks hothers, List.flatten_append.symm⟩

theorem Declaring.flatten {α : Type} {f : α → List String} {as : List α} {parts : List (List String)}
    (h : List.Forall₂ (fun a => Declaring (f a)) as parts) : Declaring (as.flatMap f) parts.flatten := by
  induction h with
  | nil => exact ⟨[], .nil, rfl⟩
  | cons ha _ ih =>
    rw [List.flatMap_cons, List.flatten_cons]
    exact ha.append ih

/-- The name of the type for the parameters of a method, if it has some. -/
def paramsNames (m : Method) : List String :=
  if m.parameters.isEmpty then [] else [m.name ++ "_params"]

def typeNames (s : Service) (o : Options) : List String :=
  (sortByName Interface.name s.interfaces).map (fun i => i.name ++ "_" ++ o.nomenclature) ++
    (sortByName Method.name s.methods).flatMap paramsNames ++
    (sortByName EnumDecl.name s.enums).map (·.name) ++ s.sortedTypes.map (·.name) ++
    s.sortedUnions.map (·.name)

def guardNames (s : Service) : List String := (guards s).map fun g => "is_" ++ Naming.pascal g.member

/-- What is declared, as it is spelled: types, and guards, which are functions. -/
def declaredNames (s : Service) (o : Options) : List String :=
  (typeNames s o).map Naming.typeName ++ (guardNames s).map Naming.camel

def DeclaresTypes (body : Body) (names : List String) : Prop :=
  body.Meets (fun _ => True) (fun _ => True) (Declaring (names.map Naming.typeName))

theorem DeclaresTypes.append {x y : Body} {xs ys : List String} (hx : DeclaresTypes x xs)
    (hy : DeclaresTypes y ys) : DeclaresTypes (x ++ y) (xs ++ ys) := by
  refine (Meets.append hx hy).mono fun ls hls => ?_
  obtain ⟨a, b, ha, hb, rfl⟩ := hls
  rw [List.map_append]
  exact ha.append hb

theorem DeclaresTypes.concat {α : Type} {f : α → Body} {names : α → List String} (as : List α)
    (h : ∀ a, DeclaresTypes (f a) (names a)) :
    DeclaresTypes (Journal.concat f as) (as.flatMap names) := by
  refine (Meets.concat fun a _ => h a).mono fun ls hls => ?_
  obtain ⟨parts, hparts, rfl⟩ := hls
  rw [List.map_flatMap]
  exact Declaring.flatten hparts

theorem DeclaresTypes.each {α : Type} {f : α → Body} {nameOf : α → String} (as : List α)
    (h : ∀ a, DeclaresTypes (f a) [nameOf a]) : DeclaresTypes (Journal.concat f as) (as.map nameOf) := by
  rw [List.map_eq_flatMap]
  exact .concat as h

theorem interfaceBody_declares (i : Interface) :
    DeclaresTypes (interfaceBody s o i) [i.name ++ "_" ++ o.nomenclature] :=
  .record (fun _ _ => trivial) (.single (.interface _ _ _))

theorem paramsBody_declares (m : Method) : DeclaresTypes (paramsBody s m) (paramsNames m) := by
  unfold paramsBody paramsNames
  split_ifs
  · exact .record (fun _ _ => trivial) ⟨[], .nil, rfl⟩
  · exact .record (fun _ _ => trivial) (.single (.object _ _))

theorem enumBody_declares (e : EnumDecl) : DeclaresTypes (enumBody e) [e.name] :=
  .record (fun _ _ => trivial) (.single (.type _ _ _))

theorem recordBody_declares (t : TypeDecl) : DeclaresTypes (recordBody s t) [t.name] :=
  Meets.bind (.ofExcept (R := fun _ => True) (fun _ _ => trivial) fun _ _ => trivial)
    fun _ _ => .record (fun _ _ => trivial) (.single (.type _ _ _))

theorem unionBody_declares (u : UnionDecl) : DeclaresTypes (unionBody s u) [u.name] :=
  .record (fun _ _ => trivial) (.single (.type _ _ _))

theorem guardBody_declares : (guardBody s).Meets (fun _ => True) (fun _ => True)
    (Declaring ((guardNames s).map Naming.camel)) := by
  refine .record (fun _ _ => trivial) ?_
  rw [guardNames, List.map_map, List.map_eq_flatMap, List.flatMap]
  refine Declaring.flatten ?_
  rw [List.forall₂_map_right_iff]
  exact List.forall₂_same.2 fun g _ => .single (.function _ _ _ _)

/-- Below the banner and the imports stand the declarations, and nothing else. -/
theorem body_declares : (body s o).Meets (fun _ => True) (fun _ => True)
    (Declaring (declaredNames s o)) := by
  have hinterfaces := DeclaresTypes.each (sortByName Interface.name s.interfaces)
    (interfaceBody_declares (s := s) (o := o))
  have hparams := DeclaresTypes.concat (sortByName Method.name s.methods)
    (paramsBody_declares (s := s))
  have henums := DeclaresTypes.each (sortByName EnumDecl.name s.enums) enumBody_declares
  have hrecords := DeclaresTypes.each s.sortedTypes (recordBody_declares (s := s))
  have hunions := DeclaresTypes.each s.sortedUnions (unionBody_declares (s := s))
  have htypes := (((hinterfaces.append hparams).append henums).append hrecords).append hunions
  refine (Meets.append htypes guardBody_declares).mono fun ls hls => ?_
  obtain ⟨a, b, ha, hb, rfl⟩ := hls
  exact ha.append hb

/-- A list of spellings has no duplicates if the words of all names differ. -/
theorem nodup_map_iff (spell : String → String) (names : List String)
    (h : ∀ a b, spell a = spell b ↔ Naming.spoken a = Naming.spoken b) :
    (names.map spell).Nodup ↔ (names.map Naming.spoken).Nodup := by
  simp only [List.Nodup, List.pairwise_map, ne_eq, h]

theorem nodup_declaredNames_iff (s : Service) (o : Options) :
    (declaredNames s o).Nodup ↔
      ((typeNames s o).map Naming.spoken).Nodup ∧ ((guardNames s).map Naming.spoken).Nodup := by
  have hdisjoint : ∀ a ∈ (typeNames s o).map Naming.typeName,
      ∀ b ∈ (guardNames s).map Naming.camel, a ≠ b := by
    intro a ha b hb
    obtain ⟨n, -, rfl⟩ := List.mem_map.1 ha
    obtain ⟨m, hm, rfl⟩ := List.mem_map.1 hb
    obtain ⟨g, -, rfl⟩ := List.mem_map.1 hm
    exact Naming.pascal_ne_camel_is n _
  have htypes := nodup_map_iff Naming.typeName (typeNames s o) fun _ _ =>
    Naming.pascal_eq_iff
  have hguards := nodup_map_iff Naming.camel (guardNames s) fun _ _ => Naming.camel_eq_iff
  rw [declaredNames, List.nodup_append, htypes, hguards]
  exact ⟨fun h => ⟨h.1, h.2.1⟩, fun h => ⟨h.1, h.2, hdisjoint⟩⟩

/-- The order in which declarations stand does not matter for their names. -/
theorem typeNames_perm (s : Service) (o : Options) : (typeNames s o).Perm
    (s.interfaces.map (fun i => i.name ++ "_" ++ o.nomenclature) ++ s.methods.flatMap paramsNames ++
      s.enums.map (·.name) ++ s.types.map (·.name) ++ s.unions.map (·.name)) :=
  (((((sortByName_perm _ _).map _).append ((sortByName_perm _ _).flatMap_right _)).append
    ((sortByName_perm _ _).map _)).append ((sortByName_perm _ _).map _)).append
    ((sortByName_perm _ _).map _)

/-- The artifact declares these names, each as often as it is listed, and no others. -/
def Holds (s : Service) (o : Options) (a : Artifact) (names : List String) : Prop :=
  ∃ lines, Declaring names lines ∧ a.contents = Layout.reindent
    ((frame s o).banner ++ (frame s o).importLines (body s o).mentions ++ lines)

end Artifact.Types

namespace Service

def names (s : Service) : List String := (Check.declarations s).map Prod.fst

/-- Names without duplicates may still be spelled alike. Those of types, enums and unions are spelled
differently just if their words differ; so are the mappers in one direction; and no two declarations
of the types have one name just if all the words that they are spelled from differ, those of interfaces,
parameters and guards included. -/
theorem spellings_differ_iff (s : Service) (hs : s.check.isSound = true) (o : Options) :
    ((∀ a ∈ s.names, ∀ b ∈ s.names, Naming.typeName a = Naming.typeName b → a = b) ↔
      Naming.ToldApart s.names) ∧
    (∀ r r', r.direction = r'.direction →
      ((∀ a ∈ s.declaredNames, ∀ b ∈ s.declaredNames, mapperName a r = mapperName b r' → a = b) ↔
        Naming.ToldApart s.declaredNames)) ∧
    ∃ a, (Artifact.Types.render s o).result = .ok a ∧
      Artifact.Types.Holds s o a (Artifact.Types.declaredNames s o) ∧
      ((Artifact.Types.declaredNames s o).Nodup ↔
        ((Artifact.Types.typeNames s o).map Naming.spoken).Nodup ∧
          ((Artifact.Types.guardNames s).map Naming.spoken).Nodup) := by
  refine ⟨?_, fun r r' hr => ?_, ?_⟩
  · simp only [Naming.typeName, Naming.pascal_eq_iff, Naming.ToldApart]
  · simp only [Naming.mapperName_eq_iff hr, Naming.ToldApart]
  · obtain ⟨a, ha⟩ := (isSound_iff.1 hs).exists_render o (k := .types) (by decide)
    refine ⟨a, ha, ?_, Artifact.Types.nodup_declaredNames_iff s o⟩
    obtain ⟨lines, hlines, hcontents⟩ := ((Artifact.Types.body_declares (s := s) (o := o)).assemble
      trivial).ok a ha
    exact ⟨lines, hlines, hcontents⟩

end Service
/-- A service that lists parts, of which there are two kinds. -/
def parts (other : String) : Service where
  title := "parts"
  interfaces := [{ name := "catalog", methods := [{ name := "list" }] }]
  types := [{ name := "widget_part" }, { name := other }]

namespace Service

theorem parts_differ : (parts "gadget_part").check.isSound = true ∧
    (∀ a ∈ (parts "gadget_part").names, ∀ b ∈ (parts "gadget_part").names,
      Naming.typeName a = Naming.typeName b → a = b) ∧
    ∃ a, (Artifact.Types.render (parts "gadget_part") {}).result = .ok a ∧
      (Artifact.Types.declaredNames (parts "gadget_part") {}).Nodup := by
  have hs : (parts "gadget_part").check.isSound = true := by decide +kernel
  obtain ⟨hnames, -, a, ha, -, hnodup⟩ := spellings_differ_iff (parts "gadget_part") hs {}
  have htold : Naming.ToldApart (parts "gadget_part").names := by
    unfold Naming.ToldApart
    decide +kernel
  have htypes : ((Artifact.Types.typeNames (parts "gadget_part") {}).map Naming.spoken).Nodup := by
    rw [((Artifact.Types.typeNames_perm _ _).map _).nodup_iff]
    decide +kernel
  have hguards : Artifact.Types.guardNames (parts "gadget_part") = [] := by
    simp [Artifact.Types.guardNames, Artifact.Types.guards, sortedUnions, sortByName, parts]
  refine ⟨hs, hnames.2 htold, a, ha, hnodup.2 ⟨htypes, ?_⟩⟩
  simp [hguards]

theorem parts_clash : (parts "WidgetPart").check.defects = [] ∧
    Naming.typeName "widget_part" = Naming.typeName "WidgetPart" ∧
    (∀ r, mapperName "widget_part" r = mapperName "WidgetPart" r) ∧
    ¬ (Artifact.Types.declaredNames (parts "WidgetPart") {}).Nodup := by
  have hspoken : Naming.spoken "widget_part" = Naming.spoken "WidgetPart" := by decide +kernel
  refine ⟨by decide +kernel, Naming.pascal_eq_iff.2 hspoken,
    fun r => (Naming.mapperName_eq_iff rfl).2 hspoken, fun h => ?_⟩
  have hnodup := ((Artifact.Types.nodup_declaredNames_iff (parts "WidgetPart") {}).1 h).1
  rw [((Artifact.Types.typeNames_perm _ _).map _).nodup_iff] at hnodup
  revert hnodup
  decide +kernel

end Service

end DtoGen
