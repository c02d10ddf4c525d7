import DtoGen.Proofs.Ordering
import DtoGen.Proofs.Rendering

namespace DtoGen

namespace Service

theorem generate_result {s : Service} {o : Options} (hs : s.check.isSound = true) :
    (s.generate o).result = (Journal.traverse (s.announced o) (ArtifactKind.all o.role)).result := by
  have hnone : s.check.defects = [] := by simpa [CheckReport.isSound] using hs
  have hw : s.check.isWritable = true := by simp [CheckReport.isWritable, hnone]
  unfold generate
  simp only [hw, hs, if_true]
  rfl

/-- Two services of which generation sees the same: lookup by name, sorted declarations, and which names
there are. -/
structure SameView (s s' : Service) : Prop where
  title : s'.title = s.title
  majorVersion : s'.majorVersion = s.majorVersion
  interfaces : s'.interfaces = s.interfaces
  type? : s'.type? = s.type?
  enum? : s'.enum? = s.enum?
  union? : s'.union? = s.union?
  sortedTypes : s'.sortedTypes = s.sortedTypes
  sortedEnums : sortByName EnumDecl.name s'.enums = sortByName EnumDecl.name s.enums
  sortedUnions : s'.sortedUnions = s.sortedUnions
  declaredNames : s'.declaredNames.Perm s.declaredNames
  reserved : ∀ n, n ∈ Locals.reserved s' ↔ n ∈ Locals.reserved s

namespace SameView

variable {s s' : Service} (h : SameView s s')

include h

theorem resolveName : s'.resolveName = s.resolveName := by
  funext n
  simp only [Service.resolveName, h.type?, h.enum?, h.union?]

theorem resolve : s'.resolve = s.resolve := by
  funext v
  simp only [Service.resolve, h.resolveName]

theorem valueType : s'.valueType = s.valueType := by
  funext f v
  simp only [Service.valueType, elementType, h.resolveName]

theorem unionTypes : s'.unionTypes = s.unionTypes := by
  funext f u
  simp only [Service.unionTypes, h.valueType]

theorem recordType : s'.recordType = s.recordType := by
  -- as functions, since the members are a `map`
  have hmember : s'.documentedType = s.documentedType := by
    funext f p
    simp only [documentedType, propertyType, h.valueType]
  funext f t
  simp only [Service.recordType, objectType?, openType?, hmember, h.valueType, h.resolve]

theorem conversion : s'.conversion = s.conversion := by
  have hchange : s'.change = s.change := by
    funext role v
    simp only [change, h.resolveName]
  funext role v
  rw [Service.conversion, Service.conversion, hchange]

theorem expression : s'.expression = s.expression := by
  funext role v x cast
  simp only [Service.expression, h.conversion]

theorem propertyField : s'.propertyField = s.propertyField := by
  funext role p x
  simp only [Service.propertyField, h.expression]

theorem table : Locals.table s' = Locals.table s := by
  funext names
  exact Locals.assign_congr h.reserved names []

theorem recordMapper : s'.recordMapper = s.recordMapper := by
  funext role t
  simp only [Service.recordMapper, openBody, fold?, h.resolve, h.expression, h.propertyField, h.table]

theorem memberKinds : s'.memberKinds = s.memberKinds := by
  funext members
  simp only [Service.memberKinds, h.resolveName, h.resolve]

theorem collectRecords : s'.collectRecords = s.collectRecords := by
  have hnested : s'.nestedMembers = s.nestedMembers := by
    funext n
    simp only [nestedMembers, h.type?, h.union?]
  funext names
  rw [Service.collectRecords, Service.collectRecords, closure_eq_of_perm h.declaredNames, hnested,
    h.type?]

theorem firstMark : s'.firstMark = s.firstMark := by
  funext others n
  simp only [Service.firstMark, Discrimination.marks, Discrimination.records, h.type?, h.collectRecords]

theorem markMembers (role : Role) (x : Subject) (each : Bool) (before names : List String) :
    s'.markMembers role x each before names = s.markMembers role x each before names := by
  induction names generalizing before with
  | nil => rfl
  | cons n ns ih =>
    simp only [Service.markMembers, Discrimination.notices, h.type?, h.firstMark, ih]

theorem mergeFields (role : Role) (conflict : RenderError) (fields : List (String × Field))
    (ps : List Property) :
    s'.mergeFields role conflict fields ps = s.mergeFields role conflict fields ps := by
  induction ps generalizing fields with
  | nil => rfl
  | cons p ps ih => simp only [Service.mergeFields, h.propertyField, ih]

theorem recordBranches (union : String) (role : Role) (x : Subject) (each : Bool)
    (names : List String) : s'.recordBranches union role x each names =
      s.recordBranches union role x each names := by
  have hmerge : ∀ ns, s'.mergeMembers union role each ns = s.mergeMembers union role each ns := by
    intro ns
    simp only [mergeMembers, h.collectRecords, h.mergeFields]
  unfold Service.recordBranches
  simp only [h.markMembers, hmerge]

theorem unionMapper : s'.unionMapper = s.unionMapper := by
  have hcases : ∀ union role d ms, s'.switchCases union role d ms = s.switchCases union role d ms := by
    intro union role d ms
    simp only [switchCases, discriminatorValue?, h.type?]
  funext role u
  simp only [Service.unionMapper, simpleBody, formBranches, memberBranches, h.memberKinds,
    h.recordBranches, hcases]

theorem methods : s'.methods = s.methods := by
  rw [Service.methods, Service.methods, h.interfaces]

theorem bindings : s'.bindings = s.bindings := by
  simp only [Service.bindings, h.interfaces]

theorem reached : s'.reached = s.reached := by
  have hsuccessors : s'.successors = s.successors := by
    funext n
    simp only [successors, h.resolveName]
  funext roots
  rw [Service.reached, Service.reached, closure_eq_of_perm h.declaredNames, hsuccessors]

theorem groups : Artifact.Mappers.groups s' = Artifact.Mappers.groups s := by
  funext p
  simp only [Artifact.Mappers.groups, Artifact.Mappers.inputs, Artifact.Mappers.outputs, reachedTypes,
    reachedUnions, Service.inputs, Service.outputs, h.methods, h.reached, h.resolveName]

/-- The banner and the path only name the service and its version. -/
theorem assemble (f : Frame) (segments : List String) (body : Body) :
    ({ f with service := s' } : Frame).assemble segments body =
      ({ f with service := s } : Frame).assemble segments body := by
  simp only [Frame.assemble, Frame.banner, Frame.path, Frame.importLines, h.title, h.majorVersion]

theorem types (o : Options) : Artifact.Types.render s' o = Artifact.Types.render s o := by
  have hinterface : @Artifact.Types.interfaceBody s' o = @Artifact.Types.interfaceBody s o := by
    have hlines : @Artifact.Types.methodLines s' = @Artifact.Types.methodLines s := by
      funext m scope
      simp only [Artifact.Types.methodLines, Artifact.Types.returnType, h.valueType]
    have hmentions : Artifact.Types.methodMentions s' = Artifact.Types.methodMentions s := by
      funext m
      simp only [Artifact.Types.methodMentions, h.valueType]
    funext i scope
    simp only [Artifact.Types.interfaceBody, hlines, hmentions]
  have hparams : @Artifact.Types.paramsBody s' = @Artifact.Types.paramsBody s := by
    funext m scope
    simp only [Artifact.Types.paramsBody, parameterType, h.valueType]
  have hrecord : @Artifact.Types.recordBody s' = @Artifact.Types.recordBody s := by
    funext t scope
    simp only [Artifact.Types.recordBody, h.recordType]
  have hunion : @Artifact.Types.unionBody s' = @Artifact.Types.unionBody s := by
    funext u scope
    simp only [Artifact.Types.unionBody, h.unionTypes]
  have hguards : Artifact.Types.guards s' = Artifact.Types.guards s := by
    have hguard : Artifact.Types.guard? s' = Artifact.Types.guard? s := by
      funext us n
      simp only [Artifact.Types.guard?, h.type?]
    simp only [Artifact.Types.guards, hguard, h.sortedUnions]
  have hbody : Artifact.Types.body s' o = Artifact.Types.body s o := by
    simp only [Artifact.Types.body, Artifact.Types.guardBody, hinterface, hparams, hrecord, hunion,
      hguards, h.interfaces, h.methods, h.sortedTypes, h.sortedEnums, h.sortedUnions]
  unfold Artifact.Types.render
  rw [hbody]
  exact h.assemble (Artifact.Types.frame s o) _ _

theorem dtos (o : Options) : Artifact.Dtos.render s' o = Artifact.Dtos.render s o := by
  have hrecord : @Artifact.Dtos.recordBody s' = @Artifact.Dtos.recordBody s := by
    funext t scope
    simp only [Artifact.Dtos.recordBody, h.recordType]
  have hunion : @Artifact.Dtos.unionBody s' = @Artifact.Dtos.unionBody s := by
    funext u scope
    simp only [Artifact.Dtos.unionBody, h.unionTypes]
  have hbody : Artifact.Dtos.body s' = Artifact.Dtos.body s := by
    simp only [Artifact.Dtos.body, hrecord, hunion, h.sortedTypes, h.sortedUnions]
  unfold Artifact.Dtos.render
  rw [hbody]
  exact h.assemble (Artifact.Dtos.frame s o) _ _

theorem mappers (o : Options) : Artifact.Mappers.render s' o = Artifact.Mappers.render s o := by
  have hgroup : @Artifact.Mappers.groupBody s' = @Artifact.Mappers.groupBody s := by
    have hrecord : @Artifact.Mappers.recordBody s' = @Artifact.Mappers.recordBody s := by
      funext role t scope
      simp only [Artifact.Mappers.recordBody, h.recordMapper]
    have hunion : @Artifact.Mappers.unionBody s' = @Artifact.Mappers.unionBody s := by
      funext role u scope
      simp only [Artifact.Mappers.unionBody, h.unionMapper]
    funext g scope
    rw [Artifact.Mappers.groupBody, Artifact.Mappers.groupBody, hrecord, hunion]
  have hbody : Artifact.Mappers.body s' o = Artifact.Mappers.body s o := by
    rw [Artifact.Mappers.body, Artifact.Mappers.body, hgroup, h.groups]
  unfold Artifact.Mappers.render
  rw [hbody]
  exact h.assemble (Artifact.Mappers.frame s o) _ _

theorem handlerTypes (o : Options) :
    Artifact.HandlerTypes.render s' o = Artifact.HandlerTypes.render s o := by
  have hhandler : @Artifact.HandlerTypes.handlerBody s' = @Artifact.HandlerTypes.handlerBody s := by
    funext b scope
    simp only [Artifact.HandlerTypes.handlerBody, Artifact.HandlerTypes.bodyTypes, h.valueType]
  have hbody : Artifact.HandlerTypes.body s' = Artifact.HandlerTypes.body s := by
    rw [Artifact.HandlerTypes.body, Artifact.HandlerTypes.body, hhandler, h.bindings]
  unfold Artifact.HandlerTypes.render
  rw [hbody]
  exact h.assemble (Artifact.HandlerTypes.frame s o) _ _

theorem handlers (o : Options) : Artifact.Handlers.render s' o = Artifact.Handlers.render s o := by
  have hconverted : @Artifact.Handlers.converted s' = @Artifact.Handlers.converted s := by
    funext role v x scope
    rw [Artifact.Handlers.converted, Artifact.Handlers.converted, h.expression]
  have hfields : @Artifact.Handlers.fields s' = @Artifact.Handlers.fields s := by
    have hsource : @Artifact.Handlers.parameterSource s' = @Artifact.Handlers.parameterSource s := by
      funext p k scope
      simp only [Artifact.Handlers.parameterSource, hconverted]
    funext b scope
    simp only [Artifact.Handlers.fields, hsource]
  have hhandler : @Artifact.Handlers.handlerBody s' o = @Artifact.Handlers.handlerBody s o := by
    funext b scope
    simp only [Artifact.Handlers.handlerBody, Artifact.Handlers.parameterLines,
      Artifact.Handlers.responseLines, hconverted, hfields]
  have hbody : Artifact.Handlers.body s' o = Artifact.Handlers.body s o := by
    rw [Artifact.Handlers.body, Artifact.Handlers.body, hhandler, h.bindings]
  unfold Artifact.Handlers.render
  rw [hbody]
  exact h.assemble (Artifact.Handlers.frame s o) _ _

theorem readme (o : Options) : Artifact.Readme.render s' o = Artifact.Readme.render s o := by
  have hlines : Artifact.Readme.lines s' o = Artifact.Readme.lines s o := by
    rw [Artifact.Readme.lines, Artifact.Readme.lines, h.title, h.majorVersion]
  have hpath : (Artifact.Readme.frame s' o).path = (Artifact.Readme.frame s o).path := by
    funext segments
    change (if o.includeVersion then ("v" ++ toString s'.majorVersion) :: segments else segments) = _
    rw [h.majorVersion]
    rfl
  rw [Artifact.Readme.render, Artifact.Readme.render, hlines, hpath, h.majorVersion]

theorem render (k : ArtifactKind) (o : Options) : k.render s' o = k.render s o := by
  cases k with
  | types => exact h.types o
  | dtos => exact h.dtos o
  | mappers => exact h.mappers o
  | handlers => exact h.handlers o
  | handlerTypes => exact h.handlerTypes o
  | errors => exact h.assemble (Artifact.Errors.frame s o) _ _
  | index =>
    change Artifact.Index.render s' o = Artifact.Index.render s o
    unfold Artifact.Index.render
    exact h.assemble (Artifact.Index.frame s o) _ _
  | readme => exact h.readme o

theorem generate (hs : s.check.isSound = true) (hs' : s'.check.isSound = true) (o : Options) :
    (s'.generate o).result = (s.generate o).result := by
  have hannounced : s'.announced o = s.announced o := by
    funext k
    simp only [announced, ArtifactKind.emit, h.render]
  rw [generate_result hs, generate_result hs', hannounced]

end SameView

section Reordered

variable {s : Service} {ts : List TypeDecl} {es : List EnumDecl} {us : List UnionDecl}

namespace Sound

variable (h : s.Sound) (ht : ts.Perm s.types) (he : es.Perm s.enums) (hu : us.Perm s.unions)

include h ht he hu

theorem resolveName_reordered :
    resolveName { s with types := ts, enums := es, unions := us } = s.resolveName := by
  obtain ⟨hnames, hunions, -⟩ := List.nodup_append.1 h.nodup
  obtain ⟨htypes, henums, -⟩ := List.nodup_append.1 hnames
  funext n
  simp only [resolveName, type?, enum?, union?, ← lastNamed_eq_of_perm ht.symm htypes,
    ← lastNamed_eq_of_perm he.symm henums, ← lastNamed_eq_of_perm hu.symm hunions]

theorem reordered : Sound { s with types := ts, enums := es, unions := us } where
  names := by
    rw [declarations_names]
    have hperm := ((ht.map TypeDecl.name).append (he.map EnumDecl.name)).append (hu.map UnionDecl.name)
    exact hperm.nodup_iff.2 h.nodup
  limits t hmem := h.limits t (ht.mem_iff.1 hmem)
  keys t hmem := h.keys t (ht.mem_iff.1 hmem)
  members u hmem := by
    rw [← h.members u (hu.mem_iff.1 hmem)]
    simp only [Check.memberDefects, h.resolveName_reordered ht he hu]

theorem sameView : SameView s { s with types := ts, enums := es, unions := us } := by
  obtain ⟨hnames, hunions, -⟩ := List.nodup_append.1 h.nodup
  obtain ⟨htypes, henums, -⟩ := List.nodup_append.1 hnames
  have hdeclared := (ht.map TypeDecl.name).append (hu.map UnionDecl.name)
  refine
    { title := rfl
      majorVersion := rfl
      interfaces := rfl
      type? := funext fun n => (lastNamed_eq_of_perm ht.symm htypes n).symm
      enum? := funext fun n => (lastNamed_eq_of_perm he.symm henums n).symm
      union? := funext fun n => (lastNamed_eq_of_perm hu.symm hunions n).symm
      sortedTypes := (sortByName_eq_of_perm ht.symm htypes).symm
      sortedEnums := (sortByName_eq_of_perm he.symm henums).symm
      sortedUnions := (sortByName_eq_of_perm hu.symm hunions).symm
      declaredNames := ?_
      reserved := fun n => ?_ }
  · -- with unique names nothing is dropped from either list
    rw [h.declaredNames_eq, (h.reordered ht he hu).declaredNames_eq]
    exact hdeclared
  · simp only [Locals.reserved, List.mem_append, List.mem_flatMap, List.mem_map, ht.mem_iff,
      hu.mem_iff]

end Sound

/-- The order of declarations makes no difference. -/
theorem generate_reordered (hs : s.check.isSound = true) (ht : ts.Perm s.types) (he : es.Perm s.enums)
    (hu : us.Perm s.unions) (o : Options) :
    (generate { s with types := ts, enums := es, unions := us } o).result = (s.generate o).result := by
  have hsound := isSound_iff.1 hs
  exact (hsound.sameView ht he hu).generate hs (isSound_iff.2 (hsound.reordered ht he hu)) o

end Reordered

end Service

namespace Library

def reversed : Service :=
  { service with
    types := service.types.reverse, enums := service.enums.reverse, unions := service.unions.reverse }

theorem reversed_generated : service.check.isSound = true ∧ reversed ≠ service ∧
    (reversed.generate {}).result = (service.generate {}).result := by
  refine ⟨service_sound, by decide, ?_⟩
  exact Service.generate_reordered service_sound (List.reverse_perm _) (List.reverse_perm _)
    (List.reverse_perm _) {}

end Library

end DtoGen
