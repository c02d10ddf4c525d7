import DtoGen.Proofs.Merging
import DtoGen.Proofs.Variables

namespace DtoGen

namespace RecordBody

/-- Each variable can be declared, and none is declared twice. -/
structure Declarable (a : Alphabet) (b : RecordBody) : Prop where
  declared : ∀ c ∈ b.captures, a.IsVariable c.variableName
  once : (b.captures.map (·.variableName)).Nodup

end RecordBody

theorem isSome_of_mapM {α β : Type} {f : α → Option β} {as : List α} {bs : List β}
    (h : as.mapM f = some bs) : ∀ a ∈ as, (f a).isSome = true := by
  intro a ha
  obtain ⟨b, -, hb⟩ := exists_related_of_mem_left (mapM_eq_some_iff.1 h) ha
  exact Option.isSome_iff_exists.2 ⟨b, hb⟩

namespace Members

theorem mem_keys {x : Members} {k : String} (h : (x.read k).isUndefined = false) : k ∈ x.keys := by
  rw [keys, List.mem_eraseDups]
  cases hk : x.lookup k with
  | none => simp [read, hk, Datum.isUndefined] at h
  | some d => exact List.mem_map_of_mem (f := Prod.fst) (Assoc.mem_of_lookup hk)

theorem read_put (key : String) (d : Datum) (x : Members) (k : String) :
    read (Assoc.put key d x) k = if k = key then d else x.read k := by
  rw [read, Assoc.lookup_put]
  split_ifs <;> rfl

end Members

namespace Fold

variable {env : Runtime} {parameter : String} {x : Members} {f : Fold}

theorem step_of_identity (hoperand : f.converted.operand = .raw (parameter ++ "[key]"))
    (hconvert : ∀ d, f.converted.convert env d = some d) (acc : Members) (key : String) :
    f.step env parameter x acc key =
      some (if (x.read key).isUndefined then acc else Assoc.put key (x.read key) acc) := by
  have hvalue : f.converted.operand.valueIn [(parameter ++ "[key]", x.read key)] =
      some (x.read key) := by
    rw [hoperand, Operand.valueIn, Assoc.lookup_cons, if_pos rfl]
  rw [step, Expression.runIn, hvalue, Option.bind_some, hconvert, Option.map_some]

/-- After the pass its keys have the members of the parameter, and what is undefined there is skipped. -/
theorem run_of_identity (hoperand : f.converted.operand = .raw (parameter ++ "[key]"))
    (hconvert : ∀ d, f.converted.convert env d = some d) (keys : List String) (acc : Members) :
    ∃ y, f.run env parameter x keys acc = some y ∧
      ∀ k, y.read k = if k ∈ keys ∧ (x.read k).isUndefined = false then x.read k else acc.read k := by
  induction keys generalizing acc with
  | nil => exact ⟨acc, rfl, by simp⟩
  | cons key keys ih =>
    obtain ⟨y, hy, hread⟩ := ih (if (x.read key).isUndefined then acc
      else Assoc.put key (x.read key) acc)
    refine ⟨y, ?_, fun k => ?_⟩
    · rw [run, List.foldlM_cons, step_of_identity hoperand hconvert]
      exact hy
    · rw [hread]
      by_cases hk : k = key
      · subst hk
        cases (x.read k).isUndefined <;> simp [Members.read_put]
      · cases (x.read key).isUndefined <;> simp [hk, Members.read_put]

end Fold

def Facet.denoted (f : Facet) (n : String) : String :=
  (Naming.denoted? (f.memberName n)).getD (f.memberName n)

def Facet.Legible (f : Facet) (n : String) : Prop := (Naming.denoted? (f.memberName n)).isSome = true

instance (f : Facet) (n : String) : Decidable (f.Legible n) := by
  unfold Facet.Legible
  infer_instance

namespace Facet

variable {f : Facet} {n : String}

theorem Legible.denoted?_eq (h : f.Legible n) :
    Naming.denoted? (f.memberName n) = some (f.denoted n) := by
  obtain ⟨k, hk⟩ := Option.isSome_iff_exists.1 h
  rw [denoted, hk, Option.getD_some]

theorem legible_of_faithful (h : Naming.Faithful n) : f.Legible n := by
  rw [Legible, Naming.denoted?_of_faithful (f.faithful_memberName h)]
  rfl

theorem denoted_of_faithful (h : Naming.Faithful n) : f.denoted n = f.memberName n := by
  rw [denoted, Naming.denoted?_of_faithful (f.faithful_memberName h), Option.getD_some]

end Facet

namespace Names

variable {spell : String → String} {key : String} {ns ms : List String}

theorem last?_append : last? spell key (ns ++ ms) = (last? spell key ms).or (last? spell key ns) := by
  rw [last?, List.reverse_append, List.find?_append, last?, last?]

end Names

namespace TypeDecl

variable {s : Service} {t : TypeDecl} {m : MapClause}

/-- The named members with the values that they are converted as. -/
def namedValues (t : TypeDecl) (m : MapClause) : List (String × Value) :=
  t.properties.map (fun p => (p.name, p.value)) ++ m.requiredKeys.map fun k => (k, m.value.asRequired)

theorem map_fst_namedValues (hc : t.mapClause = some m) : (t.namedValues m).map Prod.fst = t.named := by
  simp [namedValues, named, requiredKeys, hc, Function.comp_def]

theorem keeps_namedValues (hp : ∀ p ∈ t.properties, s.keeps p.value = true)
    (hm : s.keeps m.value = true) : ∀ e ∈ t.namedValues m, s.keeps e.2 = true := by
  rw [namedValues, List.forall_mem_append, List.forall_mem_map, List.forall_mem_map]
  exact ⟨hp, fun _ _ => hm⟩

/-- What stands under a key in the end: a further member that came with it, or else what was written last
under it. -/
def outcome (role : Role) (t : TypeDecl) (x : Members) (k : String) : Datum :=
  if k ∉ t.named.map role.source.denoted ∧ (x.read k).isUndefined = false then x.read k
  else ((Names.last? role.target.denoted k t.named).map fun n =>
    x.read (role.source.denoted n)).getD .undefined

end TypeDecl

namespace Service

variable {s : Service} {role : Role} {t : TypeDecl} {m : MapClause} {f : Fold} {env : Runtime}
  {x y : Members}

def capturesOf (s : Service) (role : Role) (t : TypeDecl) : List Capture :=
  t.named.map fun n => ⟨role.source.memberName n, Locals.variableOf (Locals.table s t.named) n⟩

def fieldOf (s : Service) (role : Role) (t : TypeDecl) (e : String × Value) : Field :=
  ⟨role.target.memberName e.1,
    s.expression role e.2 (.raw (Locals.variableOf (Locals.table s t.named) e.1)) none⟩

/-- With no named members it makes no difference that they are taken out first. -/
theorem run_recordMapper (hc : t.mapClause = some m) (hf : s.fold? role t m = some f) :
    (s.recordMapper role t).body.run env role.parameter x =
      (RecordBody.destructured (s.capturesOf role t) ((t.namedValues m).map (s.fieldOf role t))
        (some f)).run env role.parameter x := by
  have hkeys : t.requiredKeys = m.requiredKeys := by rw [TypeDecl.requiredKeys, hc]
  simp only [recordMapper, hc, openBody, TypeDecl.definedCount, hkeys, hf]
  split_ifs with hzero
  · have hnone : t.properties = [] ∧ m.requiredKeys = [] := by
      simpa [List.length_eq_zero_iff] using hzero
    simp [RecordBody.run, capturesOf, TypeDecl.namedValues, TypeDecl.named, hkeys, hnone.1, hnone.2]
    rfl
  · simp [capturesOf, fieldOf, TypeDecl.namedValues, TypeDecl.named, hkeys, Function.comp_def]

theorem binding?_capture (n v : String) :
    (Capture.mk (role.source.memberName n) v).binding? =
      (Naming.denoted? (role.source.memberName n)).map fun k => (v, k) := by
  rw [Capture.binding?, Naming.keyName?_memberKey]

def variablesOf (s : Service) (role : Role) (t : TypeDecl) (x : Members) : Members :=
  t.named.map fun n =>
    (Locals.variableOf (Locals.table s t.named) n, x.read (role.source.denoted n))

theorem runIn_fieldOf {e : String × Value} (hkeeps : s.keeps e.2 = true) (hn : e.1 ∈ t.named) :
    (s.fieldOf role t e).runIn env (s.variablesOf role t x) =
      (Naming.denoted? (role.target.memberName e.1)).map fun k =>
        (k, x.read (role.source.denoted e.1)) := by
  have hvalue : (s.variablesOf role t x).lookup (Locals.variableOf (Locals.table s t.named) e.1) =
      some (x.read (role.source.denoted e.1)) :=
    Assoc.lookup_map_of_mem (fun m hm hv => Locals.variableOf_inj hm hn hv) hn
  have hrun : (s.fieldOf role t e).expression.runIn env (s.variablesOf role t x) =
      some (x.read (role.source.denoted e.1)) := by
    rw [Expression.runIn, fieldOf, expression, Operand.valueIn, hvalue, Option.bind_some]
    exact convert_expression hkeeps _ _ _
  rw [Field.runIn, hrun, fieldOf, Naming.keyName?_memberKey]
  cases Naming.denoted? (role.target.memberName e.1) <;> rfl

theorem bindings_capturesOf (hs : ∀ n ∈ t.named, role.source.Legible n) :
    (s.capturesOf role t).mapM Capture.binding? = some (t.named.map fun n =>
      (Locals.variableOf (Locals.table s t.named) n, role.source.denoted n)) := by
  rw [capturesOf, List.mapM_map]
  refine mapM_eq_some_map fun n hn => ?_
  rw [Function.comp_apply, binding?_capture, (hs n hn).denoted?_eq, Option.map_some]

/-- What remains to be run once the members are in their variables. -/
theorem run_of_legible (hc : t.mapClause = some m) (hf : s.fold? role t m = some f)
    (hs : ∀ n ∈ t.named, role.source.Legible n) :
    (s.recordMapper role t).body.run env role.parameter x =
      ((((t.namedValues m).map (s.fieldOf role t)).mapM
        (Field.runIn env (s.variablesOf role t x))).map Members.ofPairs).bind
          (f.run env role.parameter x
            (x.keys.filter fun k => k ∉ t.named.map role.source.denoted)) := by
  rw [run_recordMapper hc hf, RecordBody.run, bindings_capturesOf hs, Option.bind_some]
  simp only [List.map_map, Function.comp_def]
  rfl

section Open

variable (hc : t.mapClause = some m) (hf : s.fold? role t m = some f)
  (hp : ∀ p ∈ t.properties, s.keeps p.value = true) (hm : s.keeps m.value = true)

include hc hp hm in
theorem fields_run (ht : ∀ n ∈ t.named, role.target.Legible n) :
    ((t.namedValues m).map (s.fieldOf role t)).mapM (Field.runIn env (s.variablesOf role t x)) =
      some (t.named.map fun n => (role.target.denoted n, x.read (role.source.denoted n))) := by
  have hnames := TypeDecl.map_fst_namedValues hc
  rw [List.mapM_map, ← hnames, List.map_map]
  refine mapM_eq_some_map fun e he => ?_
  have hn : e.1 ∈ t.named := hnames ▸ List.mem_map_of_mem he
  rw [Function.comp_apply, runIn_fieldOf (TypeDecl.keeps_namedValues hp hm e he) hn,
    (ht e.1 hn).denoted?_eq]
  rfl

include hc hf hp hm

/-- A body whose names can all be read runs, and leaves what is described by the outcome. -/
theorem exists_run (env : Runtime) (x : Members)
    (hlegible : ∀ n ∈ t.named, role.source.Legible n ∧ role.target.Legible n) :
    ∃ y, (s.recordMapper role t).body.run env role.parameter x = some y ∧
      ∀ k, y.read k = t.outcome role x k := by
  obtain ⟨cast, hfold⟩ : ∃ cast, f.converted =
      s.expression role m.value (.raw (role.parameter ++ "[key]")) cast := by
    unfold fold? at hf
    split_ifs at hf
    exact ⟨_, (congrArg Fold.converted (Option.some.inj hf)).symm⟩
  have hconvert : ∀ d, f.converted.convert env d = some d := by
    rw [hfold]
    exact convert_expression hm _ _
  obtain ⟨y, hy, hread⟩ := Fold.run_of_identity (x := x) (by rw [hfold]; rfl) hconvert
    (x.keys.filter fun k => k ∉ t.named.map role.source.denoted)
    (.ofPairs (t.named.map fun n => (role.target.denoted n, x.read (role.source.denoted n))))
  refine ⟨y, ?_, fun k => ?_⟩
  · rw [run_of_legible hc hf fun n hn => (hlegible n hn).1,
      fields_run hc hp hm fun n hn => (hlegible n hn).2]
    exact hy
  · rw [hread, Members.read_ofPairs_map]
    refine if_congr ?_ rfl rfl
    rw [List.mem_filter, decide_eq_true_iff]
    exact and_congr_left fun hd => and_iff_right (Members.mem_keys hd)

/-- A body with a name that cannot be read does not run. -/
theorem legible_of_run (hy : (s.recordMapper role t).body.run env role.parameter x = some y) :
    ∀ n ∈ t.named, role.source.Legible n ∧ role.target.Legible n := by
  have hs : ∀ n ∈ t.named, role.source.Legible n := by
    rw [run_recordMapper hc hf, RecordBody.run] at hy
    obtain ⟨bound, hbound, -⟩ := Option.bind_eq_some_iff.1 hy
    intro n hn
    have hsome := isSome_of_mapM hbound _ (List.mem_map_of_mem hn)
    rwa [binding?_capture, Option.isSome_map] at hsome
  rw [run_of_legible hc hf hs] at hy
  obtain ⟨defined, hdefined, -⟩ := Option.bind_eq_some_iff.1 hy
  obtain ⟨pairs, hpairs, -⟩ := Option.map_eq_some_iff.1 hdefined
  refine fun n hn => ⟨hs n hn, ?_⟩
  have hnames := TypeDecl.map_fst_namedValues hc
  obtain ⟨e, he, rfl⟩ := List.mem_map.1 (hnames ▸ hn)
  have hsome := isSome_of_mapM hpairs _ (List.mem_map_of_mem he)
  rwa [runIn_fieldOf (TypeDecl.keeps_namedValues hp hm e he) hn, Option.isSome_map] at hsome

end Open

/-- On every object the mapper of a record gives an object, which has under the target spelling of a
property what stood under its source spelling, if it stood there. -/
def KeepsDeclared (a : Alphabet) (s : Service) (role : Role) (t : TypeDecl) (env : Runtime) : Prop :=
  (s.recordMapper role t).body.Declarable a ∧
    ∀ x, ∃ y, (s.recordMapper role t).body.run env role.parameter x = some y ∧
      ∀ p ∈ t.properties, x.has (role.source.memberName p.name) = true →
        y.read (role.target.memberName p.name) = x.read (role.source.memberName p.name)

end Service

namespace TypeDecl

variable {role : Role} {t : TypeDecl}

/-- If the key of a property is taken out, then what is written last under it is read from the property;
else nothing is written under it, and the property itself is a further member. -/
def Kept (role : Role) (t : TypeDecl) (p : Property) : Prop :=
  if role.target.memberName p.name ∈ t.named.map role.source.denoted then
    (Names.last? role.target.denoted (role.target.memberName p.name) t.named).map
      role.source.denoted = some (role.source.memberName p.name)
  else role.target.memberName p.name = role.source.memberName p.name

/-- What keeps the properties of a record from further members, and from each other. -/
structure Undisturbed (a : Alphabet) (role : Role) (t : TypeDecl) : Prop where
  once : t.named.Nodup
  bindable : ∀ n ∈ t.named, a.Bindable n
  legible : ∀ n ∈ t.named, role.source.Legible n ∧ role.target.Legible n
  kept : ∀ p ∈ t.properties, t.Kept role p

theorem name_mem_named {p : Property} (hp : p ∈ t.properties) : p.name ∈ t.named :=
  List.mem_append_left _ (List.mem_map_of_mem hp)

/-- Two objects are enough to find out whether a property is kept. -/
theorem kept_of_outcome {p : Property}
    (h : ∀ x : Members, x.has (role.source.memberName p.name) = true →
      t.outcome role x (role.target.memberName p.name) = x.read (role.source.memberName p.name)) :
    t.Kept role p := by
  unfold Kept
  unfold outcome at h
  generalize role.target.memberName p.name = k, role.source.memberName p.name = a at h ⊢
  split_ifs with htaken
  · -- only the property is there
    have hread := h [(a, .null)] (by simp [Members.has])
    rw [if_neg fun hnot => hnot.1 htaken] at hread
    cases hlast : Names.last? role.target.denoted k t.named with
    | none => simp [hlast, Members.read] at hread
    | some n =>
      by_contra hne
      have hother : role.source.denoted n ≠ a := fun heq => hne (congrArg some heq)
      simp [hlast, Members.read, Assoc.lookup_cons, hother] at hread
  · -- a further member has the key of the property
    by_contra hne
    have hread := h [(a, .null), (k, .bool true)] (by simp [Members.has])
    have hk : Members.read [(a, .null), (k, .bool true)] k = .bool true := by
      simp [Members.read, Assoc.lookup_cons, hne]
    rw [if_pos ⟨htaken, by rw [hk]; rfl⟩, hk] at hread
    simp [Members.read] at hread

theorem outcome_of_kept {p : Property} (hp : p ∈ t.properties)
    (hlegible : ∀ n ∈ t.named, role.source.Legible n ∧ role.target.Legible n)
    (h : t.Kept role p) (x : Members) :
    t.outcome role x (role.target.memberName p.name) = x.read (role.source.memberName p.name) := by
  unfold Kept at h
  unfold outcome
  split_ifs at h with htaken
  · obtain ⟨n, hn, hkey⟩ := Option.map_eq_some_iff.1 h
    rw [if_neg fun hnot => hnot.1 htaken, hn, Option.map_some, Option.getD_some, hkey]
  · -- a key that is read somewhere is read as it is written, so this one would be taken out
    have hnone : Names.last? role.target.denoted (role.target.memberName p.name) t.named = none := by
      refine Names.last?_eq_none_iff.2 fun n hn hkey => htaken ?_
      have hfaithful := Naming.faithful_of_denoted? (hlegible n hn).2.denoted?_eq
      rw [hkey, h] at hfaithful
      refine List.mem_map.2 ⟨p.name, name_mem_named hp, ?_⟩
      rw [h, Facet.denoted, Naming.denoted?_of_faithful hfaithful, Option.getD_some]
    rw [hnone, h]
    split_ifs with hd
    · rfl
    · have hundefined : (x.read (role.source.memberName p.name)).isUndefined = true := by
        rw [h] at htaken
        simpa [htaken] using hd
      exact (Datum.isUndefined_iff.1 hundefined).symm

section Faithful

variable (hfaithful : ∀ n ∈ t.named, Naming.Faithful n)

include hfaithful

/-- For names that are read back as they are written, the key of a property has to be taken out. -/
theorem kept_iff_last {p : Property} (hp : p ∈ t.properties) : t.Kept role p ↔
    (∃ n ∈ t.named, role.source.memberName n = role.target.memberName p.name) ∧
      ∃ n, Names.last? role.target.denoted (role.target.memberName p.name) t.named = some n ∧
        role.source.memberName n = role.source.memberName p.name := by
  have hread : ∀ n ∈ t.named, role.source.denoted n = role.source.memberName n :=
    fun n hn => Facet.denoted_of_faithful (hfaithful n hn)
  have htaken : role.target.memberName p.name ∈ t.named.map role.source.denoted ↔
      ∃ n ∈ t.named, role.source.memberName n = role.target.memberName p.name := by
    rw [List.mem_map]
    exact exists_congr fun n => and_congr_right fun hn => by rw [hread n hn]
  unfold Kept
  split_ifs with hmem
  · rw [and_iff_right (htaken.1 hmem), Option.map_eq_some_iff]
    exact exists_congr fun n => and_congr_right fun hn => by rw [hread n (Names.mem_of_last? hn).1]
  · -- the property itself would be one that is taken out under this key
    rw [← htaken]
    refine iff_of_false (fun heq => hmem (htaken.2 ?_)) fun h => hmem h.1
    exact ⟨p.name, name_mem_named hp, heq.symm⟩

/-- Required keys are written after all properties, and are others, so what is kept under the key of a
property is not theirs. -/
theorem mem_properties_of_last {n l : String} (honce : t.named.Nodup)
    (hl : l ∈ t.properties.map (·.name))
    (hlast : Names.last? role.target.denoted (role.target.memberName n) t.named = some l)
    (hn : n ∈ t.named) : n ∈ t.properties.map (·.name) := by
  refine (List.mem_append.1 hn).resolve_right fun hrequired => ?_
  obtain ⟨k, hk⟩ := Names.exists_last? role.target.denoted hrequired
  rw [Facet.denoted_of_faithful (hfaithful n hn)] at hk
  rw [named, Names.last?_append, hk, Option.some_or] at hlast
  obtain rfl := Option.some.inj hlast
  exact (List.nodup_append'.1 honce).2.2 hl (Names.mem_of_last? hk).1

/-- Such names are undisturbed just if the key of each property is taken out, and nothing else is written
under it. -/
theorem kept_iff_of_faithful (honce : t.named.Nodup) :
    (∀ p ∈ t.properties, t.Kept role p) ↔ ∀ p ∈ t.properties,
      (∃ n ∈ t.named, role.source.memberName n = role.target.memberName p.name) ∧
        ∀ n ∈ t.named, role.target.memberName n = role.target.memberName p.name → n = p.name := by
  constructor
  · intro hkept
    have hlast := fun p hp => (kept_iff_last hfaithful hp).1 (hkept p hp)
    refine fun p hp => ⟨(hlast p hp).1, fun n hn hkey => ?_⟩
    cases hdirection : role.direction with
    | internalToWire =>
      have htarget : role.target = .wire := congrArg Direction.target hdirection
      rwa [htarget] at hkey
    | wireToInternal =>
      have hsource : role.source = .wire := congrArg Direction.source hdirection
      -- names are read as they are, so the last one with the key of a property is its own
      have hown : ∀ q ∈ t.properties, Names.last? role.target.denoted
          (role.target.memberName q.name) t.named = some q.name := by
        intro q hq
        obtain ⟨l, hl, hlkey⟩ := (hlast q hq).2
        rw [hsource] at hlkey
        exact hl.trans (congrArg some hlkey)
      have hp' := hown p hp
      rw [← hkey] at hp'
      obtain ⟨q, hq, rfl⟩ := List.mem_map.1
        (mem_properties_of_last hfaithful honce (List.mem_map_of_mem hp) hp' hn)
      exact Option.some.inj ((hown q hq).symm.trans hp')
  · intro h p hp
    obtain ⟨htaken, honly⟩ := h p hp
    have hself := name_mem_named hp
    obtain ⟨l, hl⟩ := Names.exists_last? role.target.denoted hself
    rw [Facet.denoted_of_faithful (hfaithful _ hself)] at hl
    obtain ⟨hmem, hkey⟩ := Names.mem_of_last? hl
    rw [Facet.denoted_of_faithful (hfaithful l hmem)] at hkey
    exact (kept_iff_last hfaithful hp).2 ⟨htaken, l, hl, by rw [honly l hmem hkey]⟩

end Faithful

end TypeDecl

namespace Service

variable {s : Service} {role : Role} {t : TypeDecl} {m : MapClause} {env : Runtime}

theorem declarable_iff (a : Alphabet) (hc : t.mapClause.isSome = true) :
    (s.recordMapper role t).body.Declarable a ↔ t.named.Nodup ∧ ∀ n ∈ t.named, a.Bindable n := by
  constructor
  · exact fun h => ⟨(once_iff hc).1 h.once, (declared_iff a hc).1 h.declared⟩
  · exact fun h => ⟨(declared_iff a hc).2 h.2, (once_iff hc).2 h.1⟩

/-- The properties of a record with a map clause come out as they went in just if the names of the record
are undisturbed. -/
theorem declared_kept_iff (a : Alphabet) (hc : t.mapClause = some m)
    (hfold : (s.fold? role t m).isSome = true) (hp : ∀ p ∈ t.properties, s.keeps p.value = true)
    (hm : s.keeps m.value = true) :
    s.KeepsDeclared a role t env ↔ t.Undisturbed a role := by
  obtain ⟨f, hf⟩ := Option.isSome_iff_exists.1 hfold
  have hopen : t.mapClause.isSome = true := by rw [hc]; rfl
  rw [KeepsDeclared, declarable_iff a hopen]
  constructor
  · rintro ⟨⟨honce, hbindable⟩, hkeeps⟩
    obtain ⟨y, hy, -⟩ := hkeeps []
    have hlegible := legible_of_run hc hf hp hm hy
    refine ⟨honce, hbindable, hlegible, fun p hpt => TypeDecl.kept_of_outcome fun x hx => ?_⟩
    obtain ⟨y, hy, hread⟩ := exists_run hc hf hp hm env x hlegible
    obtain ⟨z, hz, hkept⟩ := hkeeps x
    obtain rfl : y = z := Option.some.inj (hy.symm.trans hz)
    rw [← hread, hkept p hpt hx]
  · rintro ⟨honce, hbindable, hlegible, hkept⟩
    refine ⟨⟨honce, hbindable⟩, fun x => ?_⟩
    obtain ⟨y, hy, hread⟩ := exists_run hc hf hp hm env x hlegible
    refine ⟨y, hy, fun p hpt _ => ?_⟩
    rw [hread, TypeDecl.outcome_of_kept hpt hlegible (hkept p hpt)]

end Service

def plainText : Value where
  base := .primitive .string none

/-- A record of some texts and further ones, of which some are required. -/
def bag (names keys : List String) : TypeDecl where
  name := "bag"
  properties := names.map fun n => { name := n, value := plainText }
  mapClause := some { key := plainText, value := plainText, requiredKeys := keys }

def bags (names keys : List String) : Service where
  title := "bags"
  types := [bag names keys]

namespace Service

/-- A required key keeps further members away from the key of the property. -/
theorem bag_keeps : ((bags ["a_b_c"] ["aBC"]).fold? .serverInbound (bag ["a_b_c"] ["aBC"])
      { key := plainText, value := plainText, requiredKeys := ["aBC"] }).isSome = true ∧
    (∀ p ∈ (bag ["a_b_c"] ["aBC"]).properties, (bags ["a_b_c"] ["aBC"]).keeps p.value = true) ∧
    (bags ["a_b_c"] ["aBC"]).keeps plainText = true ∧
    ∀ env, (bags ["a_b_c"] ["aBC"]).KeepsDeclared .ascii .serverInbound (bag ["a_b_c"] ["aBC"]) env := by
  have hfaithful : ∀ n ∈ (bag ["a_b_c"] ["aBC"]).named, Naming.Faithful n := by decide
  have hfold : ((bags ["a_b_c"] ["aBC"]).fold? .serverInbound (bag ["a_b_c"] ["aBC"])
      { key := plainText, value := plainText, requiredKeys := ["aBC"] }).isSome = true := by decide
  refine ⟨hfold, by decide, by decide, fun env => ?_⟩
  refine (declared_kept_iff .ascii rfl hfold (by decide) (by decide)).2
    ⟨by decide, by decide, ?_, ?_⟩
  · exact fun n hn => ⟨Facet.legible_of_faithful (hfaithful n hn),
      Facet.legible_of_faithful (hfaithful n hn)⟩
  · exact (TypeDecl.kept_iff_of_faithful hfaithful (by decide)).2 (by decide)

/-- A further member replaces the property that has its key in the end. -/
theorem bag_overwrites : (bags ["page_size"] []).check.defects = [] ∧
    bag ["page_size"] [] ∈ (bags ["page_size"] []).types ∧
    ((bags ["page_size"] []).fold? .serverInbound (bag ["page_size"] [])
      { key := plainText, value := plainText }).isSome = true ∧
    (∀ p ∈ (bag ["page_size"] []).properties, (bags ["page_size"] []).keeps p.value = true) ∧
    (bags ["page_size"] []).keeps plainText = true ∧
    ((bags ["page_size"] []).recordMapper .serverInbound (bag ["page_size"] [])).body.Declarable .ascii ∧
    ∃ p ∈ (bag ["page_size"] []).properties,
      Facet.memberName .wire p.name = "page_size" ∧ Facet.memberName .internal p.name = "pageSize" ∧
      ∀ env, ∃ y,
        ((bags ["page_size"] []).recordMapper .serverInbound (bag ["page_size"] [])).body.run env "dto"
            [("page_size", .string "a"), ("pageSize", .string "b")] = some y ∧
        y.read "pageSize" = .string "b" := by
  have hlegible : ∀ n ∈ ["page_size"], Facet.Legible .wire n ∧ Facet.Legible .internal n := by decide
  have hkeeps : ∀ p ∈ (bag ["page_size"] []).properties,
      (bags ["page_size"] []).keeps p.value = true := by decide
  have hfold : ((bags ["page_size"] []).fold? .serverInbound (bag ["page_size"] [])
      { key := plainText, value := plainText }).isSome = true := by decide
  have hdeclarable : ((bags ["page_size"] []).recordMapper .serverInbound
      (bag ["page_size"] [])).body.Declarable .ascii :=
    (declarable_iff .ascii rfl).2 ⟨by decide, by decide⟩
  refine ⟨by decide +kernel, by simp [bags], hfold, hkeeps, by decide, hdeclarable, _,
    List.mem_cons_self, by decide, by decide, fun env => ?_⟩
  obtain ⟨f, hf⟩ := Option.isSome_iff_exists.1 hfold
  obtain ⟨y, hy, hread⟩ := exists_run rfl hf hkeeps (by decide) env
    [("page_size", .string "a"), ("pageSize", .string "b")] hlegible
  refine ⟨y, hy, ?_⟩
  rw [hread, TypeDecl.outcome, if_pos ⟨by decide, rfl⟩]
  rfl

end Service

end DtoGen
