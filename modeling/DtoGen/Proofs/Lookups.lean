import DtoGen.Proofs.Imports
import DtoGen.Proofs.RecordBranches

namespace DtoGen

open Journal

namespace Journal

theorem traverse_congr {ε α β : Type} {f g : α → Journal ε β} {as : List α} (h : ∀ a ∈ as, f a = g a) :
    traverse f as = traverse g as := by
  induction as with
  | nil => rfl
  | cons a as ih =>
    obtain ⟨ha, hrest⟩ := List.forall_mem_cons.1 h
    rw [traverse, traverse, ha, ih hrest]

theorem concat_congr {ε α : Type} {f g : α → Journal ε (List String)} {as : List α}
    (h : ∀ a ∈ as, f a = g a) : concat f as = concat g as := by
  rw [concat, concat, traverse_congr h]

theorem bind_congr {ε α β : Type} {x : Journal ε α} {f g : α → Journal ε β}
    (h : ∀ a, x.result = .ok a → f a = g a) : x.bind f = x.bind g := by
  cases hx : x.result with
  | ok a => rw [bind_of_ok hx, bind_of_ok hx, h a hx]
  | error e => rw [bind_of_error hx, bind_of_error hx]

end Journal

/-- A closure does not depend on what lies outside a set of names that holds the work and is kept by
steps. -/
theorem closure_congr {next next' : String → List String} {P : String → Prop}
    {pool pool' work : List String} (hpool : pool.Nodup) (hpool' : pool'.Nodup)
    (hmem : ∀ n, P n → (n ∈ pool ↔ n ∈ pool')) (hnext : ∀ n, P n → next n = next' n)
    (hkept : ∀ n, P n → ∀ m ∈ next n, P m) (hwork : ∀ n ∈ work, P n) :
    closure next pool work = closure next' pool' work := by
  induction pool, work using closure.induct next generalizing pool' with
  | case1 pool => rw [closure, closure]
  | case2 pool m rest hm ih =>
    obtain ⟨hPm, hrest⟩ := List.forall_mem_cons.1 hwork
    have herase : ∀ n, P n → (n ∈ pool.erase m ↔ n ∈ pool'.erase m) := by
      intro n hn
      rw [hpool.mem_erase_iff, hpool'.mem_erase_iff, hmem n hn]
    have hsteps : ∀ n ∈ next m ++ rest, P n := List.forall_mem_append.2 ⟨hkept m hPm, hrest⟩
    rw [closure, closure, if_pos hm, if_pos ((hmem m hPm).1 hm),
      ih (hpool.erase m) (hpool'.erase m) herase hsteps, hnext m hPm]
  | case3 pool m rest hm ih =>
    obtain ⟨hPm, hrest⟩ := List.forall_mem_cons.1 hwork
    rw [closure, closure, if_neg hm, if_neg (mt (hmem m hPm).2 hm), ih hpool hpool' hmem hrest]

theorem forall_mem_closure {next : String → List String} {P : String → Prop} {work : List String}
    (hkept : ∀ n, P n → ∀ m ∈ next n, P m) (hwork : ∀ n ∈ work, P n) (pool : List String) :
    ∀ n ∈ closure next pool work, P n := by
  intro n hn
  have hreached := mem_closure_iff.1 hn
  clear hn
  induction hreached with
  | start hw _ => exact hwork _ hw
  | step _ hn _ ih => exact hkept _ ih _ hn

theorem Value.name?_eq_some_iff {v : Value} {n : String} : v.name? = some n ↔ v.base = .named n := by
  cases hb : v.base <;> simp [Value.name?, hb]

namespace Service

def values (s : Service) : List Value := (Check.places s).map Prod.snd

def Refers (s : Service) (n : String) : Prop := ∃ v ∈ s.values, v.name? = some n

/-- A value refers, if to anything, to what values of the service refer to. -/
def Covers (s : Service) (v : Value) : Prop := ∀ n, v.name? = some n → s.Refers n

section Values

variable {s : Service}

theorem covers_of_mem {v : Value} (hv : v ∈ s.values) : s.Covers v := fun _ hn => ⟨v, hv, hn⟩

theorem mem_values_iff {v : Value} : v ∈ s.values ↔ (∃ t ∈ s.types, v ∈ t.values) ∨
    (∃ u ∈ s.unions, v ∈ u.members) ∨
      ∃ m ∈ s.methods, v ∈ m.parameters.map (·.value) ∨ m.returns = some v := by
  have htype : ∀ t, (Check.typePlaces t).map Prod.snd = t.values := by
    intro t
    rw [Check.typePlaces, TypeDecl.values]
    cases t.mapClause <;> simp
  have hunion : ∀ u, (Check.unionPlaces u).map Prod.snd = u.members := by
    intro u
    simp [Check.unionPlaces]
  have hmethod : ∀ m, (Check.methodPlaces m).map Prod.snd =
      m.parameters.map (·.value) ++ m.returns.toList := by
    intro m
    cases hm : m.returns <;> simp [Check.methodPlaces, hm]
  simp only [values, Check.places, List.map_append, List.map_flatMap, htype, hunion, hmethod,
    List.mem_append, List.mem_flatMap, Option.mem_toList, or_assoc]

theorem covers_value {t : TypeDecl} (ht : t ∈ s.types) {v : Value} (hv : v ∈ t.values) : s.Covers v :=
  covers_of_mem (mem_values_iff.2 (.inl ⟨t, ht, hv⟩))

theorem covers_property {t : TypeDecl} (ht : t ∈ s.types) {p : Property} (hp : p ∈ t.properties) :
    s.Covers p.value :=
  covers_value ht (List.mem_append_left _ (List.mem_map_of_mem hp))

theorem covers_key {t : TypeDecl} (ht : t ∈ s.types) {c : MapClause} (hc : t.mapClause = some c) :
    s.Covers c.key :=
  covers_value ht (by simp [TypeDecl.values, hc])

theorem covers_mapValue {t : TypeDecl} (ht : t ∈ s.types) {c : MapClause} (hc : t.mapClause = some c) :
    s.Covers c.value :=
  covers_value ht (by simp [TypeDecl.values, hc])

theorem covers_member {u : UnionDecl} (hu : u ∈ s.unions) {v : Value} (hv : v ∈ u.members) :
    s.Covers v :=
  covers_of_mem (mem_values_iff.2 (.inr (.inl ⟨u, hu, hv⟩)))

theorem refers_reference {u : UnionDecl} (hu : u ∈ s.unions) {d : String} {rs : List Reference}
    (hb : u.body = .discriminated d rs) {r : Reference} (hr : r ∈ rs) : s.Refers r.name := by
  refine covers_member hu (v := r.toValue) ?_ r.name rfl
  simpa [UnionDecl.members, hb] using List.mem_map_of_mem hr

theorem covers_parameter {m : Method} (hm : m ∈ s.methods) {p : Parameter} (hp : p ∈ m.parameters) :
    s.Covers p.value :=
  covers_of_mem (mem_values_iff.2 (.inr (.inr ⟨m, hm, .inl (List.mem_map_of_mem hp)⟩)))

theorem covers_returns {m : Method} (hm : m ∈ s.methods) {v : Value} (hv : m.returns = some v) :
    s.Covers v :=
  covers_of_mem (mem_values_iff.2 (.inr (.inr ⟨m, hm, .inr hv⟩)))

theorem refers_of_mem_filterMap {vs : List Value} (hvs : ∀ v ∈ vs, s.Covers v) :
    ∀ n ∈ vs.filterMap Value.name?, s.Refers n := by
  intro n hn
  obtain ⟨v, hv, hname⟩ := List.mem_filterMap.1 hn
  exact hvs v hv n hname

theorem union?_spec {n : String} {u : UnionDecl} (h : s.union? n = some u) : u ∈ s.unions ∧ u.name = n :=
  ⟨by simpa using List.mem_of_find?_eq_some h, by simpa using List.find?_some h⟩

theorem resolveName_eq_union {n : String} {u : UnionDecl} (h : s.resolveName n = .union u) :
    s.union? n = some u := by
  unfold resolveName at h
  cases ht : s.type? n with
  | some t => simp [ht] at h
  | none =>
    cases he : s.enum? n with
    | some e => simp [ht, he] at h
    | none =>
      cases hu : s.union? n with
      | some w => simpa [ht, he, hu] using h
      | none => simp [ht, he, hu] at h

theorem refers_of_mem_nestedMembers (n : String) : ∀ m ∈ s.nestedMembers n, s.Refers m := by
  intro m hm
  unfold nestedMembers at hm
  split at hm
  · rename_i u _ hu
    exact refers_of_mem_filterMap (fun v hv => covers_member (union?_spec hu).1 hv) m hm
  · cases hm

theorem refers_of_mem_collectRecords {names : List String} (hnames : ∀ n ∈ names, s.Refers n)
    {t : TypeDecl} (ht : t ∈ s.collectRecords names) : t ∈ s.types ∧ s.Refers t.name := by
  obtain ⟨n, hn, ht⟩ := List.mem_filterMap.1 ht
  obtain ⟨hmem, rfl⟩ := type?_spec ht
  exact ⟨hmem, forall_mem_closure (fun n _ => refers_of_mem_nestedMembers n) hnames _ _ hn⟩

theorem refers_of_mem_successors (n : String) : ∀ m ∈ s.successors n, s.Refers m := by
  intro m hm
  unfold successors at hm
  split at hm
  · rename_i t ht
    have hmem := (type?_spec (resolveName_eq_type.1 ht)).1
    exact refers_of_mem_filterMap (fun v hv => covers_value hmem hv) m hm
  · rename_i u hu
    have hmem := (union?_spec (resolveName_eq_union hu)).1
    exact refers_of_mem_filterMap (fun v hv => covers_member hmem hv) m hm
  · cases hm

theorem refers_of_mem_reached {roots : List Value} (hroots : ∀ v ∈ roots, s.Covers v) :
    ∀ n ∈ s.reached roots, s.Refers n :=
  forall_mem_closure (fun n _ => refers_of_mem_successors n) (refers_of_mem_filterMap hroots) _

theorem mem_types_of_mem_reachedTypes {roots : List Value} {t : TypeDecl} (ht : t ∈ s.reachedTypes roots) :
    t ∈ s.types := by
  obtain ⟨n, -, hn⟩ := List.mem_filterMap.1 (mem_sortByName.1 ht)
  split at hn
  · rename_i t' ht'
    obtain rfl := Option.some.inj hn
    exact (type?_spec (resolveName_eq_type.1 ht')).1
  · cases hn

theorem mem_unions_of_mem_reachedUnions {roots : List Value} {u : UnionDecl}
    (hu : u ∈ s.reachedUnions roots) : u ∈ s.unions := by
  obtain ⟨n, -, hn⟩ := List.mem_filterMap.1 (mem_sortByName.1 hu)
  split at hn
  · rename_i u' hu'
    obtain rfl := Option.some.inj hn
    exact (union?_spec (resolveName_eq_union hu')).1
  · cases hn

theorem covers_inputs : ∀ v ∈ s.inputs, s.Covers v := by
  intro v hv
  obtain ⟨m, hm, hv⟩ := List.mem_flatMap.1 hv
  obtain ⟨p, hp, rfl⟩ := List.mem_map.1 hv
  exact covers_parameter hm hp

theorem covers_outputs : ∀ v ∈ s.outputs, s.Covers v := by
  intro v hv
  obtain ⟨m, hm, hv⟩ := List.mem_filterMap.1 hv
  exact covers_returns hm hv

/-- The pool of a closure holds the names of types and unions. -/
theorem mem_declaredNames_iff {n : String} :
    n ∈ s.declaredNames ↔ (s.type? n).isSome = true ∨ (s.union? n).isSome = true := by
  have hlast : ∀ {α : Type} (nameOf : α → String) (as : List α),
      (lastNamed nameOf n as).isSome = true ↔ n ∈ as.map nameOf := by
    intro α nameOf as
    simp [lastNamed, List.find?_isSome]
  rw [declaredNames, List.mem_eraseDups, List.mem_append, ← hlast, ← hlast]
  rfl

end Values

/-- An index answers like a service under the names that values of the service refer to. -/
structure Answers (x s : Service) : Prop where
  type? : ∀ n, s.Refers n → x.type? n = s.type? n
  enum? : ∀ n, s.Refers n → x.enum? n = s.enum? n
  union? : ∀ n, s.Refers n → x.union? n = s.union? n

namespace Answers

variable {x s : Service} (h : x.Answers s) {o : Options}

include h

theorem resolveName {n : String} (hn : s.Refers n) : x.resolveName n = s.resolveName n := by
  simp only [Service.resolveName, h.type? n hn, h.enum? n hn, h.union? n hn]

theorem resolve {v : Value} (hv : s.Covers v) : x.resolve v = s.resolve v := by
  cases hb : v.base with
  | primitive k c => simp [Service.resolve, hb]
  | named n => simp [Service.resolve, hb, h.resolveName (hv n (Value.name?_eq_some_iff.2 hb))]

theorem elementType (f : Facet) {v : Value} (hv : s.Covers v) :
    x.elementType f v = s.elementType f v := by
  cases hb : v.base with
  | primitive k c => cases c <;> simp [Service.elementType, hb]
  | named n => simp [Service.elementType, hb, h.resolveName (hv n (Value.name?_eq_some_iff.2 hb))]

theorem valueType (f : Facet) {v : Value} (hv : s.Covers v) : x.valueType f v = s.valueType f v := by
  rw [Service.valueType, Service.valueType, h.elementType f hv]

theorem unionTypes (f : Facet) {u : UnionDecl} (hu : u ∈ s.unions) :
    x.unionTypes f u = s.unionTypes f u :=
  List.map_congr_left fun _ hv => h.valueType f (covers_member hu hv)

theorem documentedType (f : Facet) {p : Property} (hp : s.Covers p.value) :
    x.documentedType f p = s.documentedType f p := by
  cases f <;> simp only [Service.documentedType, propertyType, h.valueType _ hp]

theorem recordType (f : Facet) {t : TypeDecl} (ht : t ∈ s.types) :
    x.recordType f t = s.recordType f t := by
  have hordered : ∀ p ∈ orderedProperties f t, s.Covers p.value := by
    intro p hp
    refine covers_property ht ?_
    cases f with
    | internal => exact hp
    | wire => exact mem_sortByName.1 hp
  have hobject : x.objectType? f t = s.objectType? f t := by
    have hmembers : (orderedProperties f t).map (x.documentedType f) =
        (orderedProperties f t).map (s.documentedType f) :=
      List.map_congr_left fun p hp => h.documentedType f (hordered p hp)
    have hrequired : (t.mapClause.map fun m => x.valueType f m.value.asRequired) =
        t.mapClause.map fun m => s.valueType f m.value.asRequired := by
      cases hc : t.mapClause with
      | none => rfl
      | some c => exact congrArg some (h.valueType f (covers_mapValue ht hc))
    rw [objectType?, objectType?, hmembers, hrequired]
  have hopen : x.openType? f t = s.openType? f t := by
    have hvalues : ((orderedProperties f t).map fun p => x.valueType f p.value) =
        (orderedProperties f t).map fun p => s.valueType f p.value :=
      List.map_congr_left fun p hp => h.valueType f (hordered p hp)
    unfold openType?
    cases hc : t.mapClause with
    | none => rfl
    | some c =>
      have hkey : x.valueType f c.key.asRequired = s.valueType f c.key.asRequired :=
        h.valueType f (covers_key ht hc)
      simp only [hvalues, hkey, h.valueType f (covers_mapValue ht hc), h.resolve (covers_key ht hc)]
  rw [Service.recordType, Service.recordType, hobject, hopen]

theorem conversion (role : Role) {v : Value} (hv : s.Covers v) :
    x.conversion role v = s.conversion role v := by
  have hchange : x.change role v = s.change role v := by
    cases hb : v.base with
    | primitive k c => simp [Service.change, hb]
    | named n => simp [Service.change, hb, h.resolveName (hv n (Value.name?_eq_some_iff.2 hb))]
  rw [Service.conversion, Service.conversion, hchange]

theorem expression (role : Role) {v : Value} (hv : s.Covers v) (y : Operand)
    (cast : Option ElementType) : x.expression role v y cast = s.expression role v y cast := by
  rw [Service.expression, Service.expression, h.conversion role hv]

theorem propertyField (role : Role) {p : Property} (hp : s.Covers p.value) (y : String) :
    x.propertyField role p y = s.propertyField role p y := by
  rw [Service.propertyField, Service.propertyField, h.expression role hp]

theorem fold? (role : Role) {t : TypeDecl} (ht : t ∈ s.types) {c : MapClause}
    (hc : t.mapClause = some c) : x.fold? role t c = s.fold? role t c := by
  have hv := covers_mapValue ht hc
  simp only [Service.fold?, h.resolve hv, h.expression role hv]

theorem memberKinds {members : List Value} (hm : ∀ v ∈ members, s.Covers v) :
    x.memberKinds members = s.memberKinds members := by
  have hname : ∀ v ∈ members, ∀ n, v.base = .named n → x.resolveName n = s.resolveName n := by
    intro v hv n hb
    exact h.resolveName (hm v hv n (Value.name?_eq_some_iff.2 hb))
  have hprimitives : (x.memberKinds members).primitives = (s.memberKinds members).primitives := by
    refine List.filterMap_congr fun v hv => ?_
    cases hb : v.base with
    | primitive k c => rfl
    | named n => simp only [hname v hv n hb]
  have hrecords : (x.memberKinds members).records = (s.memberKinds members).records := by
    refine List.filterMap_congr fun v hv => ?_
    cases hb : v.base with
    | primitive k c => rfl
    | named n => simp only [hname v hv n hb]
  have hunknown : (x.memberKinds members).hasUnknown = (s.memberKinds members).hasUnknown := by
    refine Bool.eq_iff_iff.2 ?_
    simp only [Service.memberKinds, List.any_eq_true]
    refine exists_congr fun v => and_congr_right fun hv => ?_
    rw [h.resolve (hm v hv)]
  simp only [Service.memberKinds, MemberKinds.mk.injEq, true_and]
  exact ⟨hprimitives, hrecords, hunknown⟩

theorem mem_declaredNames {n : String} (hn : s.Refers n) : n ∈ x.declaredNames ↔ n ∈ s.declaredNames := by
  rw [mem_declaredNames_iff, mem_declaredNames_iff, h.type? n hn, h.union? n hn]

theorem collectRecords {names : List String} (hnames : ∀ n ∈ names, s.Refers n) :
    x.collectRecords names = s.collectRecords names := by
  have hnested : ∀ n, s.Refers n → x.nestedMembers n = s.nestedMembers n := by
    intro n hn
    rw [nestedMembers, nestedMembers, h.type? n hn, h.union? n hn]
  have hclosure : closure x.nestedMembers x.declaredNames names =
      closure s.nestedMembers s.declaredNames names := by
    -- the index may declare more names, but none to which a step leads
    refine (closure_congr (nodup_eraseDups _) (nodup_eraseDups _) (fun n hn => ?_)
      (fun n hn => (hnested n hn).symm) (fun n _ => refers_of_mem_nestedMembers n) hnames).symm
    exact (h.mem_declaredNames hn).symm
  have hclosed := forall_mem_closure (fun n _ => refers_of_mem_nestedMembers n) hnames s.declaredNames
  rw [Service.collectRecords, Service.collectRecords, hclosure]
  exact List.filterMap_congr fun n hn => h.type? n (hclosed n hn)

theorem firstMark {others : List String} (hothers : ∀ n ∈ others, s.Refers n) {n : String}
    (hn : s.Refers n) : x.firstMark others n = s.firstMark others n := by
  have hrecords : Discrimination.records x ((s.collectRecords others).map (·.name)) =
      Discrimination.records s ((s.collectRecords others).map (·.name)) := by
    refine List.filterMap_congr fun m hm => ?_
    obtain ⟨t, ht, rfl⟩ := List.mem_map.1 hm
    exact h.type? _ (refers_of_mem_collectRecords hothers ht).2
  rw [Service.firstMark, Service.firstMark, h.collectRecords hothers, Discrimination.marks,
    Discrimination.marks, h.type? n hn]
  simp only [hrecords]

theorem markMembers (role : Role) (y : Subject) (each : Bool) {before names : List String}
    (hbefore : ∀ n ∈ before, s.Refers n) (hnames : ∀ n ∈ names, s.Refers n) :
    x.markMembers role y each before names = s.markMembers role y each before names := by
  induction names generalizing before with
  | nil => rfl
  | cons n ns ih =>
    obtain ⟨hn, hns⟩ := List.forall_mem_cons.1 hnames
    have hothers : ∀ m ∈ before ++ ns, s.Refers m := List.forall_mem_append.2 ⟨hbefore, hns⟩
    have hdone : ∀ m ∈ before ++ [n], s.Refers m :=
      List.forall_mem_append.2 ⟨hbefore, List.forall_mem_singleton.2 hn⟩
    simp only [Service.markMembers, Discrimination.notices, h.type? n hn, h.firstMark hothers hn,
      ih hdone hns]

theorem mergeFields (role : Role) (conflict : RenderError) (fields : List (String × Field))
    {ps : List Property} (hps : ∀ p ∈ ps, s.Covers p.value) :
    x.mergeFields role conflict fields ps = s.mergeFields role conflict fields ps := by
  induction ps generalizing fields with
  | nil => rfl
  | cons p ps ih =>
    obtain ⟨hp, hrest⟩ := List.forall_mem_cons.1 hps
    have hfield : x.propertyField role { p with value := p.value.asOptional } Action.mergedObject =
        s.propertyField role { p with value := p.value.asOptional } Action.mergedObject :=
      h.propertyField role (p := { p with value := p.value.asOptional }) hp _
    simp only [Service.mergeFields, hfield, ih _ hrest]

theorem mergeMembers (union : String) (role : Role) (each : Bool) {names : List String}
    (hnames : ∀ n ∈ names, s.Refers n) :
    x.mergeMembers union role each names = s.mergeMembers union role each names := by
  have hproperties : ∀ p ∈ (s.collectRecords names).flatMap (·.properties), s.Covers p.value := by
    intro p hp
    obtain ⟨t, ht, hp⟩ := List.mem_flatMap.1 hp
    exact covers_property (refers_of_mem_collectRecords hnames ht).1 hp
  simp only [Service.mergeMembers, h.collectRecords hnames, h.mergeFields _ _ _ hproperties]

theorem recordBranches (union : String) (role : Role) (y : Subject) (each : Bool) {names : List String}
    (hnames : ∀ n ∈ names, s.Refers n) :
    x.recordBranches union role y each names = s.recordBranches union role y each names := by
  match names, hnames with
  | [], _ => rfl
  | [n], _ => rfl
  | m :: n :: ns, hnames =>
    have hbefore : ∀ k ∈ ([] : List String), s.Refers k := by simp
    simp only [Service.recordBranches, h.markMembers role y each hbefore hnames]
    refine Journal.bind_congr fun r hr => ?_
    rw [markMembers_result] at hr
    -- the names without a mark are some of the names, so they are referred to as well
    have hunmarked : ∀ k ∈ r.unmarked, s.Refers k := by
      obtain rfl := Except.ok.inj hr
      exact fun k hk => hnames k (mem_of_mem_unmarkedFrom hk)
    split
    · rfl
    · rfl
    · rw [h.mergeMembers union role each hunmarked]

theorem memberBranches (union : String) (role : Role) (each : Bool) {members : List Value}
    (hm : ∀ v ∈ members, s.Covers v) :
    x.memberBranches union role each members = s.memberBranches union role each members := by
  have hrecords : ∀ n ∈ (s.memberKinds members).records, s.Refers n := by
    intro n hn
    obtain ⟨v, hv, hrecord⟩ := List.mem_filterMap.1 hn
    refine hm v hv n (Value.name?_eq_some_iff.2 ?_)
    cases hb : v.base with
    | primitive k c => simp [hb] at hrecord
    | named m =>
      simp only [hb, Option.ite_none_right_eq_some] at hrecord
      rw [Option.some.inj hrecord.2]
  simp only [Service.memberBranches, h.memberKinds hm, h.recordBranches _ _ _ _ hrecords]

theorem unionMapper (role : Role) {u : UnionDecl} (hu : u ∈ s.unions) :
    x.unionMapper role u = s.unionMapper role u := by
  unfold Service.unionMapper
  cases hb : u.body with
  | simple ms =>
    have hmembers : ∀ v ∈ ms, s.Covers v := fun v hv => covers_member hu (by simpa [UnionDecl.members, hb])
    have hform : ∀ each p, x.formBranches u.name role each (ms.filter p) =
        s.formBranches u.name role each (ms.filter p) := by
      intro each p
      have hpart : ∀ v ∈ ms.filter p, s.Covers v := fun v hv => hmembers v (List.mem_of_mem_filter hv)
      simp only [formBranches, h.memberBranches u.name role each hpart]
    simp only [simpleBody, hform]
  | discriminated d ms =>
    have hcases : x.switchCases u.name role d ms = s.switchCases u.name role d ms := by
      refine Journal.traverse_congr fun r hr => ?_
      rw [discriminatorValue?, discriminatorValue?, h.type? r.name (refers_reference hu hb hr)]
    simp only [hcases]

theorem reached {roots : List Value} (hroots : ∀ v ∈ roots, s.Covers v) :
    x.reached roots = s.reached roots := by
  have hsuccessors : ∀ n, s.Refers n → x.successors n = s.successors n := by
    intro n hn
    rw [successors, successors, h.resolveName hn]
  refine (closure_congr (nodup_eraseDups _) (nodup_eraseDups _) (fun n hn => ?_)
    (fun n hn => (hsuccessors n hn).symm) (fun n _ => refers_of_mem_successors n)
    (refers_of_mem_filterMap hroots)).symm
  exact (h.mem_declaredNames hn).symm

theorem reachedTypes {roots : List Value} (hroots : ∀ v ∈ roots, s.Covers v) :
    x.reachedTypes roots = s.reachedTypes roots := by
  rw [Service.reachedTypes, Service.reachedTypes, h.reached hroots]
  congr 1
  refine List.filterMap_congr fun n hn => ?_
  rw [h.resolveName (refers_of_mem_reached hroots n hn)]

theorem reachedUnions {roots : List Value} (hroots : ∀ v ∈ roots, s.Covers v) :
    x.reachedUnions roots = s.reachedUnions roots := by
  rw [Service.reachedUnions, Service.reachedUnions, h.reached hroots]
  congr 1
  refine List.filterMap_congr fun n hn => ?_
  rw [h.resolveName (refers_of_mem_reached hroots n hn)]

end Answers

end Service

end DtoGen
