import DtoGen.Proofs.Imports
import DtoGen.Proofs.Remarks
import DtoGen.Proofs.Rendering

namespace DtoGen

open Journal

def Remarked (comments : List (List Char)) (lines : List String) : Prop :=
  Annotated (unlines (lines.map String.toList)) comments

namespace Remarked

theorem code (lines : List String) : Remarked [] lines := Annotated.code _

theorem append {cs ds : List (List Char)} {as bs : List String} (ha : Remarked cs as)
    (hb : Remarked ds bs) : Remarked (cs ++ ds) (as ++ bs) := by
  have hunlines : unlines ((as ++ bs).map String.toList) =
      unlines (as.map String.toList) ++ unlines (bs.map String.toList) := by simp [unlines]
  rw [Remarked, hunlines]
  exact Annotated.append ha hb

theorem cons {cs : List (List Char)} {as : List String} (line : String) (ha : Remarked cs as) :
    Remarked cs (line :: as) :=
  (code [line]).append ha

theorem snoc {cs : List (List Char)} {as : List String} (ha : Remarked cs as) (bs : List String) :
    Remarked cs (as ++ bs) := by
  simpa using ha.append (code bs)

theorem flatten {α : Type} {f : α → List (List Char)} {as : List α} {parts : List (List String)}
    (h : List.Forall₂ (fun a => Remarked (f a)) as parts) : Remarked (as.flatMap f) parts.flatten := by
  induction h with
  | nil => exact code []
  | cons ha _ ih =>
    rw [List.flatMap_cons, List.flatten_cons]
    exact ha.append ih

theorem flatMap {α : Type} {f : α → List (List Char)} {g : α → List String} {as : List α}
    (h : ∀ a, Remarked (f a) (g a)) : Remarked (as.flatMap f) (as.flatMap g) := by
  rw [List.flatMap_def (f := g)]
  refine flatten ?_
  rw [List.forall₂_map_right_iff]
  exact List.forall₂_same.2 fun a _ => h a

theorem doc (description : Option String) (deprecated : Bool) :
    Remarked (Comment.inside description deprecated) (Comment.doc description deprecated) :=
  Comment.annotated_doc description deprecated

theorem single (inside : String) : Remarked ['*' :: inside.toList] ["/**" ++ inside ++ "*/"] := by
  simpa [Remarked, unlines] using Annotated.comment [] ('*' :: inside.toList) ['\n']

/-- The comments of a file are those of its lines, but for blanks. -/
theorem reindent {cs : List (List Char)} {c : Char} {line : String} {lines : List String}
    (h : Remarked cs (line :: lines)) (hhead : line.toList.head? = some c) (hc : Text.isBlank c = false) :
    ∃ rs rest, (Layout.reindent (line :: lines)).toList = Remark.file rs rest ∧
      List.Forall₂ Layout.Respaced cs (rs.map Remark.inside) := by
  obtain ⟨cs', hline⟩ := List.head?_eq_some_iff.1 hhead
  have hmem : c ∈ Layout.joinLines ((line :: lines).map String.toList) := by
    cases lines with
    | nil => simp [Layout.joinLines_singleton, hline]
    | cons next lines => simp [Layout.joinLines_cons_cons, hline]
  have hshown : ¬ Layout.Blank (Layout.joinLines ((line :: lines).map String.toList)) := by
    intro hblank
    rw [hblank c hmem] at hc
    cases hc
  have hrelaid := Layout.relaid_reindent hshown
  have hunlines : Layout.Relaid (unlines ((line :: lines).map String.toList))
      (Layout.reindent (line :: lines)).toList := by
    rw [unlines_eq_joinLines (by simp)]
    exact hrelaid.append_blank_left (by simp [Layout.Blank, Text.isBlank])
  have hfirst : unlines ((line :: lines).map String.toList) =
      c :: (cs' ++ '\n' :: unlines (lines.map String.toList)) := by simp [unlines, hline]
  exact Annotated.relaid h hunlines ⟨c, _, hfirst, hc⟩

end Remarked

def Comments (body : Body) (comments : List (List Char)) : Prop :=
  body.Meets (fun _ => True) (fun _ => True) (Remarked comments)

namespace Comments

theorem record {lines : List String} {ms : List Mention} {cs : List (List Char)}
    (h : Remarked cs lines) : Comments (.record lines ms) cs :=
  Meets.record (fun _ _ => trivial) h

theorem append {x y : Body} {cs ds : List (List Char)} (hx : Comments x cs) (hy : Comments y ds) :
    Comments (x ++ y) (cs ++ ds) := by
  refine (Meets.append hx hy).mono fun ls hls => ?_
  obtain ⟨a, b, ha, hb, rfl⟩ := hls
  exact ha.append hb

theorem concat {α : Type} {f : α → Body} {cs : α → List (List Char)} (as : List α)
    (h : ∀ a, Comments (f a) (cs a)) : Comments (Journal.concat f as) (as.flatMap cs) := by
  refine (Meets.concat fun a _ => h a).mono fun ls hls => ?_
  obtain ⟨parts, hparts, rfl⟩ := hls
  exact Remarked.flatten hparts

theorem code (body : Body) : Comments body [] :=
  ⟨fun _ _ => trivial, fun lines _ => Remarked.code lines, fun _ _ => trivial⟩

end Comments

namespace Frame

def bannerInside (f : Frame) : List Char :=
  '*' :: (unlines [[], " * This code was generated by wiremap. Changes to this file may cause".toList,
    " * incorrect behavior and will be lost if the code is regenerated.".toList, " *".toList,
    (" * Service: " ++ f.service.title ++ " v" ++ toString f.service.majorVersion).toList] ++ [' '])

theorem banner_remarked (f : Frame) : Remarked [f.bannerInside] f.banner := by
  simpa [Remarked, unlines, banner, bannerInside] using Annotated.comment [] f.bannerInside ['\n', '\n']

theorem ne_slash_of_mem_toString (n : Int) : ∀ c ∈ (toString n).toList, c ≠ '/' := by
  have hnat : ∀ m : Nat, ∀ c ∈ m.repr.toList, c ≠ '/' := by
    rintro m c hc rfl
    rw [Nat.toList_repr] at hc
    exact absurd (Nat.isDigit_of_mem_toDigits (by decide) (by decide) hc) (by decide)
  rw [Int.toString_eq_repr, Int.repr_eq_if]
  split_ifs
  · exact hnat _
  · intro c hc
    rw [String.toList_append] at hc
    rcases List.mem_append.1 hc with hc | hc
    · obtain rfl : c = '-' := by simpa using hc
      decide
    · exact hnat _ c hc

/-- A banner ends where it is meant to unless the title ends it. -/
theorem sealed_bannerInside (f : Frame) : Sealed f.bannerInside ↔ Sealed f.service.title.toList := by
  have hline : (" * Service: " ++ f.service.title ++ " v" ++ toString f.service.majorVersion).toList =
      " * Service:".toList ++ ' ' :: (f.service.title.toList ++ ' ' ::
        ('v' :: (toString f.service.majorVersion).toList)) := by
    simp
  have hversion : Sealed ('v' :: (toString f.service.majorVersion).toList) :=
    sealed_of_forall_ne (List.forall_mem_cons.2 ⟨by decide, ne_slash_of_mem_toString _⟩)
  have hparts : f.bannerInside = ['*'] ++ '\n' :: (unlines [
      " * This code was generated by wiremap. Changes to this file may cause".toList,
      " * incorrect behavior and will be lost if the code is regenerated.".toList, " *".toList,
      (" * Service: " ++ f.service.title ++ " v" ++ toString f.service.majorVersion).toList] ++
        ' ' :: []) := rfl
  rw [hparts, sealed_append_cons (by decide) (by decide), sealed_append_cons (by decide) (by decide),
    sealed_unlines]
  simp only [List.forall_mem_cons, hline]
  rw [sealed_append_cons (by decide) (by decide), sealed_append_cons (by decide) (by decide)]
  constructor
  · intro h
    exact h.2.1.2.2.2.1.2.1
  · intro h
    have hservice := And.intro (show Sealed " * Service:".toList by decide) (And.intro h hversion)
    exact ⟨by decide, ⟨by decide +kernel, by decide +kernel, by decide, hservice, by simp⟩, by decide⟩

end Frame

/-- The comments on the members of a record. On the wire there are none. -/
def memberComments (f : Facet) (t : TypeDecl) : List (List Char) :=
  match f with
  | .internal => t.properties.flatMap fun p => Comment.inside p.description p.deprecated
  | .wire => []

theorem toList_intercalate_snoc (ls : List String) (l : String) :
    ("\n".intercalate (ls ++ [l])).toList = unlines (ls.map String.toList) ++ l.toList := by
  induction ls with
  | nil => simp [unlines]
  | cons a ls ih =>
    obtain ⟨b, bs, hbs⟩ := List.exists_cons_of_ne_nil (l := ls ++ [l]) (by simp)
    rw [List.cons_append, hbs, String.intercalate_cons_cons, ← hbs, String.toList_append,
      String.toList_append, ih]
    simp [unlines]

theorem ObjectType.annotated (scope : Scope) (o : ObjectType) {cs : List (List Char)}
    (h : Remarked cs (o.members.flatMap (·.lines scope))) :
    Annotated ("\n".intercalate (o.lines scope)).toList cs := by
  rw [ObjectType.lines, toList_intercalate_snoc]
  simpa using Annotated.append ((h.cons "\x7b").snoc _) (.code "\x7d".toList)

namespace Service

variable {s : Service} {f : Facet} {t : TypeDecl}

theorem documentedType_remarked (scope : Scope) (p : Property) :
    Remarked (match f with
      | .internal => Comment.inside p.description p.deprecated
      | .wire => []) ((s.documentedType f p).lines scope) := by
  cases f with
  | internal => exact (Remarked.doc _ _).snoc _
  | wire => exact .code _

theorem objectType?_annotated {o : ObjectType} (ho : s.objectType? f t = some o) (scope : Scope) :
    Annotated ("\n".intercalate (o.lines scope)).toList (memberComments f t) := by
  unfold objectType? at ho
  split_ifs at ho
  obtain rfl := Option.some.inj ho
  refine ObjectType.annotated scope _ ?_
  rw [List.flatMap_map]
  cases f with
  | internal => exact .flatMap fun p => s.documentedType_remarked scope p
  | wire => exact .code _

theorem memberComments_eq_nil (h : t.properties = []) : memberComments f t = [] := by
  cases f <;> simp [memberComments, h]

theorem shaped_annotated (scope : Scope) :
    Annotated (RecordType.text scope (.shaped (s.objectType? f t) (s.openType? f t))).toList
      (memberComments f t) := by
  cases hobject : s.objectType? f t with
  | none =>
    have hnone : t.properties = [] := by
      unfold objectType? at hobject
      split_ifs at hobject with hcount
      simpa [TypeDecl.definedCount] using (Nat.add_eq_zero_iff.1 hcount).1
    rw [memberComments_eq_nil hnone]
    exact .code _
  | some o =>
    have ho := objectType?_annotated hobject scope
    cases s.openType? f t with
    | none => simpa [RecordType.text] using ho
    | some rest => simpa [RecordType.text] using ho.append (.code (" & " ++ rest.text scope).toList)

theorem recordType_annotated {r : RecordType} (hr : s.recordType f t = .ok r) (scope : Scope) :
    Annotated (r.text scope).toList (memberComments f t) := by
  unfold recordType at hr
  split_ifs at hr with hbare
  · obtain rfl := Except.ok.inj hr
    rw [memberComments_eq_nil (by simpa using (Bool.and_eq_true_iff.1 hbare).1)]
    exact .code _
  · split at hr
    · split_ifs at hr
      obtain rfl := Except.ok.inj hr
      exact shaped_annotated scope
    · obtain rfl := Except.ok.inj hr
      exact shaped_annotated scope

end Service

namespace Artifact

variable {s : Service} {o : Options}

namespace Types

def interfaceComments (o : Options) (i : Interface) : List (List Char) :=
  Comment.inside (some (interfaceDescription o i)) i.deprecated ++
    (sortByName Method.name i.methods).flatMap fun m => Comment.inside m.description m.deprecated

/-- The comments on the parameters of a method, the required ones first. -/
def paramsComments (m : Method) : List (List Char) :=
  (m.parameters.filter (·.value.isRequired) ++ m.parameters.filter (·.value.isOptional)).flatMap
    fun p => Comment.inside p.description p.deprecated

def comments (s : Service) (o : Options) : List (List Char) :=
  (sortByName Interface.name s.interfaces).flatMap (interfaceComments o) ++
    (sortByName Method.name s.methods).flatMap paramsComments ++
    (sortByName EnumDecl.name s.enums).flatMap (fun e => Comment.inside e.description e.deprecated) ++
    s.sortedTypes.flatMap
      (fun t => Comment.inside t.description t.deprecated ++ memberComments .internal t) ++
    s.sortedUnions.flatMap fun u => Comment.inside u.description u.deprecated

theorem interfaceBody_comments (i : Interface) : Comments (interfaceBody s o i) (interfaceComments o i) := by
  have hmethods : Remarked
      ((sortByName Method.name i.methods).flatMap fun m => Comment.inside m.description m.deprecated)
      ((sortByName Method.name i.methods).flatMap (methodLines s · scope)) :=
    .flatMap fun m => (Remarked.doc _ _).snoc _
  have hdoc := (Remarked.doc (some (interfaceDescription o i)) i.deprecated).cons ""
  exact .record ((hdoc.append (hmethods.cons _)).snoc _)

theorem paramsBody_comments (m : Method) : Comments (paramsBody s m) (paramsComments m) := by
  unfold paramsBody
  split_ifs with hm
  · have hnone : m.parameters = [] := by simpa using hm
    exact .record (by simpa [paramsComments, hnone] using Remarked.code [])
  · have hmembers : Remarked (paramsComments m) ((m.parameters.filter (·.value.isRequired) ++
        m.parameters.filter (·.value.isOptional)).flatMap fun p =>
          Comment.doc p.description p.deprecated ++ [(s.parameterType .internal p).text scope]) :=
      .flatMap fun p => (Remarked.doc _ _).snoc _
    exact .record (((hmembers.cons _).cons _).snoc _)

/-- The comments on a declaration stand above it and in its type. -/
theorem declaration_remarked (description : Option String) (deprecated : Bool) (name : String)
    {type : String} {cs : List (List Char)} (h : Annotated type.toList cs) :
    Remarked (Comment.inside description deprecated ++ cs) (declaration description deprecated name type) := by
  have hline : Remarked cs ["export type " ++ Naming.typeName name ++ " = " ++ type ++ ";"] := by
    have hcode := (Annotated.code ("export type " ++ Naming.typeName name ++ " = ").toList).append
      (h.append (.code ";\n".toList))
    simpa [Remarked, unlines] using hcode
  exact ((Remarked.doc description deprecated).cons "").append hline

theorem body_comments : Comments (body s o) (comments s o) := by
  have hinterfaces := Comments.concat (sortByName Interface.name s.interfaces)
    (interfaceBody_comments (s := s) (o := o))
  have hparams := Comments.concat (sortByName Method.name s.methods) (paramsBody_comments (s := s))
  have henum : ∀ e, Comments (enumBody e) (Comment.inside e.description e.deprecated) := by
    intro e
    exact .record (by simpa using declaration_remarked e.description e.deprecated e.name (.code _))
  have hrecord : ∀ t, Comments (recordBody s t)
      (Comment.inside t.description t.deprecated ++ memberComments .internal t) := by
    intro t
    have htype : (ofExcept (s.recordType .internal t)).Meets (fun _ => True) (fun _ => True)
        fun r => s.recordType .internal t = .ok r := .ofExcept (fun _ h => h) fun _ _ => trivial
    exact htype.bind fun r hr =>
      .record (fun _ _ => trivial) (declaration_remarked _ _ _ (Service.recordType_annotated hr _))
  have hunion : ∀ u, Comments (unionBody s u) (Comment.inside u.description u.deprecated) := by
    intro u
    exact .record (by simpa using declaration_remarked u.description u.deprecated u.name (.code _))
  have hdeclared := (((hinterfaces.append hparams).append
    (Comments.concat (sortByName EnumDecl.name s.enums) henum)).append
    (Comments.concat s.sortedTypes hrecord)).append (Comments.concat s.sortedUnions hunion)
  have hall := hdeclared.append (.code (guardBody s))
  rw [List.append_nil] at hall
  exact hall

theorem sealed_comments : ∀ c ∈ comments s o, Sealed c := by
  have hdoc := Comment.sealed_inside
  simp only [comments, interfaceComments, paramsComments, memberComments, List.forall_mem_append,
    List.forall_mem_flatMap]
  refine ⟨⟨⟨⟨fun i _ => ?interface, fun m _ => ?parameters⟩, fun e _ => hdoc _ _⟩, fun t _ => ?record⟩,
    fun u _ => hdoc _ _⟩
  case interface => exact ⟨hdoc _ _, fun m _ => hdoc _ _⟩
  case parameters => exact ⟨fun p _ => hdoc _ _, fun p _ => hdoc _ _⟩
  case record => exact ⟨hdoc _ _, fun p _ => hdoc _ _⟩

end Types

namespace Dtos

/-- The text of the comment on the declaration for an internal type with some spelling. -/
def summaryText (n : String) : String :=
  " The over-the-wire representation of the \x7b@link " ++ ("types." ++ n) ++ "|" ++ n ++ "\x7d type. "

theorem summaryLine_eq (n : String) :
    "/** The over-the-wire representation of the \x7b@link " ++ ("types." ++ n) ++ "|" ++ n ++
      "\x7d type. */" = "/**" ++ summaryText n ++ "*/" := by
  unfold summaryText
  simp [← String.toList_inj]

theorem sealed_summaryText (n : String) : Sealed ('*' :: (summaryText n).toList) ↔ Sealed n.toList := by
  have hparts : '*' :: (summaryText n).toList =
      "* The over-the-wire representation of the \x7b@link types".toList ++ '.' ::
        (n.toList ++ '|' :: (n.toList ++ '\x7d' :: " type. ".toList)) := by
    unfold summaryText
    simp
  rw [hparts, sealed_append_cons (by decide) (by decide), sealed_append_cons (by decide) (by decide),
    sealed_append_cons (by decide) (by decide)]
  constructor
  · intro h
    exact h.2.1
  · intro h
    exact ⟨by decide +kernel, h, h, by decide⟩

def summaryInside (name : String) : List Char := '*' :: (summaryText (Naming.typeName name)).toList

def comments (s : Service) : List (List Char) :=
  s.sortedTypes.map (summaryInside ·.name) ++ s.sortedUnions.map (summaryInside ·.name)

theorem summary_comments (name : String) : Comments (summary name scope) [summaryInside name] := by
  have hcomment := (Remarked.single (summaryText (Naming.typeName name))).cons ""
  rw [← summaryLine_eq] at hcomment
  exact .record hcomment

theorem body_comments : Comments (body s) (comments s) := by
  have hrecord : ∀ t, Comments (recordBody s t) [summaryInside t.name] := by
    intro t
    have hcode : Comments (do
        let r ← .ofExcept (s.recordType .wire t)
        .record (declaration t.name (r.text scope)) r.mentions) [] := .code _
    exact (summary_comments t.name).append hcode
  have hunion : ∀ u, Comments (unionBody s u) [summaryInside u.name] :=
    fun u => (summary_comments u.name).append (.code _)
  have hall := (Comments.concat s.sortedTypes hrecord).append (Comments.concat s.sortedUnions hunion)
  rwa [← List.map_eq_flatMap, ← List.map_eq_flatMap] at hall

end Dtos

namespace Handlers

def headInside (b : Binding) : List Char :=
  '*' :: (" " ++ Text.upper b.http.verb ++ " " ++ Route.express b.pattern ++
    (if b.method.deprecated then " @deprecated" else "") ++ " ").toList

theorem headLines_comments (b : Binding) : Comments (headLines o b) [headInside b] := by
  have hline : Remarked [headInside b] ["/** " ++ Text.upper b.http.verb ++ " " ++
      Route.express b.pattern ++ (if b.method.deprecated then " @deprecated" else "") ++ " */"] := by
    simpa [Remarked, headInside, unlines] using Remarked.single (" " ++ Text.upper b.http.verb ++ " " ++
      Route.express b.pattern ++ (if b.method.deprecated then " @deprecated" else "") ++ " ")
  have hany : ∀ {α : Type} (x : Journal RenderError α), x.Meets (fun _ => True) (fun _ => True)
      fun _ => True := fun _ => ⟨fun _ _ => trivial, fun _ _ => trivial, fun _ _ => trivial⟩
  unfold headLines
  -- what is imported only has its place in the lines of the last step
  refine (hany _).bind fun request _ => ?_
  refine (hany _).bind fun response _ => ?_
  refine (hany _).bind fun service _ => ?_
  refine (hany _).bind fun handler _ => ?_
  exact .record (fun _ _ => trivial) ((hline.cons "").snoc _)

theorem body_comments : Comments (body s o) (s.bindings.map headInside) := by
  rw [List.map_eq_flatMap]
  refine .concat s.bindings fun b => ?_
  have hhead := headLines_comments (o := o) b
  exact ((((hhead.append (.code _)).append (.code _)).append (.code _)).append (.code _)).append (.code _)

theorem sealed_headInside (b : Binding) : Sealed (headInside b) ↔
    Sealed (Text.upper b.http.verb).toList ∧ Sealed (Route.express b.pattern).toList := by
  have hmark : ∃ mark, headInside b = ['*'] ++ ' ' :: ((Text.upper b.http.verb).toList ++ ' ' ::
      ((Route.express b.pattern).toList ++ ' ' :: mark)) ∧ Sealed mark := by
    by_cases hdeprecated : b.method.deprecated = true
    · exact ⟨"@deprecated ".toList, by simp [headInside, hdeprecated], by decide⟩
    · exact ⟨[], by simp [headInside, hdeprecated], by decide⟩
  obtain ⟨mark, hparts, hmark⟩ := hmark
  rw [hparts, sealed_append_cons (by decide) (by decide), sealed_append_cons (by decide) (by decide),
    sealed_append_cons (by decide) (by decide)]
  constructor
  · rintro ⟨-, hverb, hroute, -⟩
    exact ⟨hverb, hroute⟩
  · rintro ⟨hverb, hroute⟩
    exact ⟨by decide, hverb, hroute, hmark⟩

end Handlers

namespace HandlerTypes

/-- The comment on the type of a handler, if there is one. -/
def deprecatedInside (b : Binding) : List (List Char) :=
  if b.method.deprecated then ['*' :: " @deprecated ".toList] else []

theorem body_comments : Comments (body s) (s.bindings.flatMap deprecatedInside) := by
  refine .concat s.bindings fun b => .record ?_
  have hmark : Remarked (deprecatedInside b)
      (if b.method.deprecated then ["/** @deprecated */"] else []) := by
    unfold deprecatedInside
    split_ifs
    · exact .single " @deprecated "
    · exact .code []
  exact (hmark.cons "").snoc _

theorem sealed_deprecatedInside (b : Binding) : ∀ c ∈ deprecatedInside b, Sealed c := by
  unfold deprecatedInside
  split_ifs
  · rw [List.forall_mem_singleton]
    decide
  · exact nofun

end HandlerTypes

end Artifact

namespace ArtifactKind

variable {s : Service} {o : Options} {k : ArtifactKind}

def bodyComments (k : ArtifactKind) (s : Service) (o : Options) : List (List Char) :=
  match k with
  | .types => Artifact.Types.comments s o
  | .dtos => Artifact.Dtos.comments s
  | .handlers => s.bindings.map Artifact.Handlers.headInside
  | .handlerTypes => s.bindings.flatMap Artifact.HandlerTypes.deprecatedInside
  | .mappers | .readme | .errors | .index => []

/-- The comments of an artifact in their order; the first one is the banner. -/
def comments (k : ArtifactKind) (s : Service) (o : Options) : List (List Char) :=
  (k.frame s o).bannerInside :: k.bodyComments s o

/-- What goes into comments without escapes holds no end of a comment: the title, in the
representations the names of records and unions, and in the handlers verbs and routes. -/
def Unbroken (k : ArtifactKind) (s : Service) : Prop :=
  Sealed s.title.toList ∧
    (k = .dtos → ∀ n ∈ s.types.map TypeDecl.name ++ s.unions.map UnionDecl.name,
      Sealed (Naming.typeName n).toList) ∧
    (k = .handlers → ∀ b ∈ s.bindings,
      Sealed (Text.upper b.http.verb).toList ∧ Sealed (Route.express b.pattern).toList)

theorem body_comments (k : ArtifactKind) (s : Service) (o : Options) :
    Comments (k.body s o (k.frame s o).scope) (k.bodyComments s o) := by
  cases k with
  | types => exact Artifact.Types.body_comments
  | dtos => exact Artifact.Dtos.body_comments
  | handlers => exact Artifact.Handlers.body_comments
  | handlerTypes => exact Artifact.HandlerTypes.body_comments
  | mappers | readme | errors | index => exact .code _

/-- Descriptions are escaped, so nothing else can end a comment. -/
theorem sealed_comments_iff : (∀ c ∈ k.comments s o, Sealed c) ↔ k.Unbroken s := by
  have hbanner : Sealed (k.frame s o).bannerInside ↔ Sealed s.title.toList := by
    have hservice : (k.frame s o).service = s := by cases k <;> rfl
    rw [Frame.sealed_bannerInside, hservice]
  have hbody : (∀ c ∈ k.bodyComments s o, Sealed c) ↔
      (k = .dtos → ∀ n ∈ s.types.map TypeDecl.name ++ s.unions.map UnionDecl.name,
        Sealed (Naming.typeName n).toList) ∧
      (k = .handlers → ∀ b ∈ s.bindings,
        Sealed (Text.upper b.http.verb).toList ∧ Sealed (Route.express b.pattern).toList) := by
    cases k with
    | types => simpa [bodyComments] using Artifact.Types.sealed_comments
    | dtos =>
      simp only [bodyComments, Artifact.Dtos.comments, List.forall_mem_append, List.forall_mem_map,
        Artifact.Dtos.summaryInside, Artifact.Dtos.sealed_summaryText, Service.sortedTypes, Service.sortedUnions]
      simp [(sortByName_perm _ _).mem_iff]
    | handlers => simp [bodyComments, Artifact.Handlers.sealed_headInside]
    | handlerTypes =>
      simp only [bodyComments, List.forall_mem_flatMap]
      simpa using fun b _ => Artifact.HandlerTypes.sealed_deprecatedInside b
    | mappers | readme | errors | index => simp [bodyComments]
  rw [comments, List.forall_mem_cons, hbanner, hbody, Unbroken]

/-- The comments of a rendered artifact, but for blanks. -/
theorem exists_remarks {a : Artifact} (hk : k ≠ .readme) (ha : (k.render s o).result = .ok a) :
    ∃ rs rest, a.contents.toList = Remark.file rs rest ∧
      List.Forall₂ Layout.Respaced (k.comments s o) (rs.map Remark.inside) := by
  obtain ⟨-, lines, hlines, hcontents⟩ := render_ok ha
  have hremarked : Remarked (k.comments s o) ((k.frame s o).banner ++
      (k.frame s o).importLines (k.body s o (k.frame s o).scope).mentions ++ lines) := by
    have hbanner := (k.frame s o).banner_remarked.snoc
      ((k.frame s o).importLines (k.body s o (k.frame s o).scope).mentions)
    exact hbanner.append ((k.body_comments s o).ok lines hlines)
  rw [hcontents hk]
  exact Remarked.reindent hremarked (c := '/') rfl rfl

/-- Comments end where they are meant to just if what goes into them as it is does not end them. -/
theorem ended_iff_unbroken {rs : List Remark} {rest : List Char}
    (h : List.Forall₂ Layout.Respaced (k.comments s o) (rs.map Remark.inside)) :
    Remark.Ended rs rest ↔ k.Unbroken s := by
  rw [Remark.ended_iff, ← sealed_comments_iff (o := o), ← List.forall_mem_map]
  constructor
  · intro hsealed c hc
    obtain ⟨d, hd, hcd⟩ := exists_related_of_mem_left h hc
    exact (sealed_respaced hcd).2 (hsealed d hd)
  · intro hsealed d hd
    obtain ⟨c, hc, hcd⟩ := exists_related_of_mem_right h hd
    exact (sealed_respaced hcd).1 (hsealed c hc)

end ArtifactKind

namespace Service

/-- All generated code holds the comments of its artifact, the same but for blanks. Descriptions cannot end
them; so they end where they are meant to just if the title does not end the banner, nor do names in the
representations or verbs and routes in the handlers. -/
theorem comments_ended_iff {s : Service} {o : Options} {files : List Artifact}
    (h : (s.generate o).result = .ok files) {k : ArtifactKind} (hk : k ∈ ArtifactKind.all o.role)
    (hguide : k ≠ .readme) :
    ∃ a ∈ files, (k.render s o).result = .ok a ∧
      ∃ rs rest, a.contents.toList = Remark.file rs rest ∧
        List.Forall₂ Layout.Respaced (k.comments s o) (rs.map Remark.inside) ∧
        (Remark.Ended rs rest ↔ k.Unbroken s) := by
  obtain ⟨-, hfiles⟩ := rendered_of_generate h
  obtain ⟨a, ha, hrender⟩ := exists_related_of_mem_left hfiles hk
  obtain ⟨rs, rest, hcontents, hcomments⟩ := ArtifactKind.exists_remarks hguide hrender
  exact ⟨a, ha, hrender, rs, rest, hcontents, hcomments, ArtifactKind.ended_iff_unbroken hcomments⟩

end Service

namespace Archive

def files (route : String) : Interface where
  name := "files"
  methods := [{ name := "read" }]
  http := [{ pattern := route, methods := [{ name := "read", verb := "get" }] }]

def binding (route : String) : Binding :=
  ⟨files route, { name := "read" }, route, { name := "read", verb := "get" }⟩

def service (route : String) : Service where
  title := "archive"
  interfaces := [files route]

theorem bindings_eq (route : String) : (service route).bindings = [binding route] := by
  simp [Service.bindings, sortByName, service, files, binding]

theorem integers_eq (route : String) : (service route).integers = [1, 200] := by
  rw [Service.integers, bindings_eq]
  rfl

theorem exists_files (route : String) : ∃ files, ((service route).generate {}).result = .ok files := by
  have hs : (service route).check.isSound = true := rfl
  have hmappers := (Artifact.Mappers.exists_render_iff (o := {}) (Service.isSound_iff.1 hs)).2 nofun
  refine Service.exists_generate hs hmappers ?_
  rw [integers_eq]
  decide

theorem comments_ended : ∃ files, ((service "/files/\x7bid\x7d").generate {}).result = .ok files ∧
    ∃ a ∈ files, ∃ rs rest, a.contents.toList = Remark.file rs rest ∧ Remark.Ended rs rest := by
  obtain ⟨files, hfiles⟩ := exists_files "/files/\x7bid\x7d"
  obtain ⟨a, ha, -, rs, rest, hcontents, -, hended⟩ :=
    Service.comments_ended_iff hfiles (k := .handlers) (by decide) (by decide)
  refine ⟨files, hfiles, a, ha, rs, rest, hcontents, hended.2 ⟨by decide +kernel, nofun, fun _ => ?_⟩⟩
  have hbindings := bindings_eq "/files/\x7bid\x7d"
  rw [hbindings, List.forall_mem_singleton]
  decide +kernel

/-- The route ends the comment on its handler. -/
theorem comment_broken : ∃ files, ((service "/files/*/meta").generate {}).result = .ok files ∧
    ∃ a ∈ files, (ArtifactKind.handlers.render (service "/files/*/meta") {}).result = .ok a ∧
      ∃ rs rest, a.contents.toList = Remark.file rs rest ∧
        List.Forall₂ Layout.Respaced (ArtifactKind.handlers.comments (service "/files/*/meta") {})
          (rs.map Remark.inside) ∧
        (∃ r ∈ rs, ['*', '/'] <:+: r.inside) ∧ ¬ Remark.Ended rs rest := by
  obtain ⟨files, hfiles⟩ := exists_files "/files/*/meta"
  obtain ⟨a, ha, hrender⟩ := exists_related_of_mem_left (Service.rendered_of_generate hfiles).2
    (show .handlers ∈ ArtifactKind.all .server by decide)
  obtain ⟨rs, rest, hcontents, hcomments⟩ := ArtifactKind.exists_remarks (by decide) hrender
  have hbroken : ¬ Remark.Ended rs rest := by
    rw [ArtifactKind.ended_iff_unbroken hcomments]
    rintro ⟨-, -, hhandlers⟩
    have hroute := (hhandlers rfl (binding "/files/*/meta") (by simp [bindings_eq])).2
    revert hroute
    decide +kernel
  have hinside : ∃ r ∈ rs, ['*', '/'] <:+: r.inside := by
    by_contra hnone
    refine hbroken ((Remark.ended_iff rs rest).2 fun r hr hend => hnone ⟨r, hr, hend⟩)
  exact ⟨files, hfiles, a, ha, hrender, rs, rest, hcontents, hcomments, hinside, hbroken⟩

end Archive

end DtoGen
