import DtoGen.Mapping.Conversion
import Mathlib.Tactic.Common

namespace DtoGen

namespace Conversion

theorem length_lt_apply {c : Conversion} (h : c.isIdentity = false) (scope : Scope)
    (operand : String) (cast : Option String) :
    operand.length < (c.apply scope operand cast).length := by
  have hclose : 0 < ")".length := by decide
  unfold apply
  cases hc : c.change with
  | identity => simp [isIdentity, hc] at h
  | parseDate =>
    have hmap : 0 < ".map((item) => new Date(item))".length := by decide
    cases c.each <;> simp [String.length_append] <;> omega
  | formatDate dateOnly =>
    have htext : 0 < ".toISOString()".length := by decide
    cases c.each <;> simp [String.length_append] <;> omega
  | mapper m => cases c.each <;> cases cast <;> simp [String.length_append] <;> omega

end Conversion

theorem Expression.text_eq_operand_iff {e : Expression} (scope : Scope)
    (h : e.conversion.isIdentity = true → e.guards = []) :
    e.text scope = e.operand.text ↔ e.conversion.isIdentity = true := by
  have hbar : 0 < " ? ".length := by decide
  constructor
  · intro htext
    by_contra hidentity
    have hlonger := Conversion.length_lt_apply (by simpa using hidentity) scope e.operand.text
      (e.castText scope)
    have hlength := congrArg String.length htext
    unfold text at hlength
    by_cases hguards : e.guards.isEmpty = true
    · simp only [hguards, if_true] at hlength
      omega
    · simp only [hguards, Bool.false_eq_true, if_false, String.length_append] at hlength
      omega
  · intro hidentity
    have hchange : e.conversion.change = .identity := by
      simpa [Conversion.isIdentity] using hidentity
    simp [text, h hidentity, Conversion.apply, hchange]

namespace Service

/-- Whether mappers leave a value as it is: all but dates, records and unions. -/
def keeps (s : Service) (v : Value) : Bool :=
  match v.base with
  | .primitive k _ => !k.isDate
  | .named n => !(s.resolveName n).isMapped

theorem isIdentity_conversion (s : Service) (role : Role) (v : Value) :
    (s.conversion role v).isIdentity = s.keeps v := by
  unfold conversion change keeps Conversion.isIdentity
  cases v.base with
  | primitive k l => cases hk : k.isDate <;> cases hd : role.direction <;> simp [dateChange]
  | named n => cases hn : (s.resolveName n).isMapped <;> simp

/-- The expression for a value is its operand just if mappers leave the value as it is. -/
theorem expression_text_eq_iff (s : Service) (role : Role) (v : Value) (scope : Scope)
    (operand : Operand) :
    (s.expression role v operand none).text scope = operand.text ↔ s.keeps v = true := by
  rw [← s.isIdentity_conversion role v]
  refine Expression.text_eq_operand_iff scope fun hidentity => ?_
  have hkeeps : (s.conversion role v).isIdentity = true := hidentity
  simp [Expression.guards, expression, hkeeps]

end Service

namespace ValueType

/-- Types of one form are written alike just if their elements are. -/
theorem text_eq_text_iff {t u : ValueType} (scope : Scope) (harray : t.isArray = u.isArray)
    (hnull : t.isNullable = u.isNullable) :
    t.text scope = u.text scope ↔ t.element.text scope = u.element.text scope := by
  unfold text parts
  rw [harray, hnull]
  cases u.isNullable <;> simp

end ValueType

theorem Primitive.typeText_eq_iff (k : Primitive) :
    k.typeText .internal = k.typeText .wire ↔ k.isDate = false := by
  cases k <;> decide

/-- A record or union has a name of its own on the wire. -/
theorem Facet.spell_ne (n : String) : Facet.internal.spell n ≠ Facet.wire.spell n := by
  intro h
  have hlength := congrArg String.length h
  have hmark : "Dto".length = 3 := by decide
  simp only [Facet.spell, Naming.typeName, Naming.dtoName, String.length_append] at hlength
  omega

def Value.isFixedDate (v : Value) : Bool := v.isDate && v.constant?.isSome

namespace Service

/-- Elements are written alike in both facets if mappers leave the value as it is, and a constant in
any case. -/
theorem elementType_text_eq_iff (s : Service) (v : Value) :
    (s.elementType .internal v).text {} = (s.elementType .wire v).text {} ↔
      s.keeps v = true ∨ v.isFixedDate = true := by
  unfold elementType keeps Value.isFixedDate Value.isDate Value.constant?
  cases v.base with
  | primitive k constant =>
    cases constant with
    | some l => cases k.isDate <;> simp
    | none => simpa [ElementType.text] using k.typeText_eq_iff
  | named n =>
    cases hn : s.resolveName n with
    | type t | union u =>
      simpa [hn, ElementType.text, Scope.declared, Scope.moduleOf, Scope.qualify, Resolution.isMapped]
        using Facet.spell_ne n
    | enum e | unresolved | primitive => simp [hn, Resolution.isMapped]

theorem valueType_text_eq_iff (s : Service) (v : Value) :
    (s.valueType .internal v).text {} = (s.valueType .wire v).text {} ↔
      s.keeps v = true ∨ v.isFixedDate = true := by
  rw [← s.elementType_text_eq_iff v]
  exact ValueType.text_eq_text_iff {} rfl rfl

theorem isFixedDate_of_keeps {s : Service} {v : Value} (h : s.keeps v = true) :
    v.isFixedDate = false := by
  unfold keeps at h
  unfold Value.isFixedDate Value.isDate
  cases hb : v.base <;> simp_all

/-- A value has one type in both facets just if its expression is its operand, unless it is a date that
is narrowed to a constant; and then this fails. -/
theorem unchanged_iff_same_type_iff (s : Service) (v : Value) (role : Role) (scope : Scope)
    (operand : String) :
    ((s.expression role v (.raw operand) none).text scope = operand ↔
        (s.valueType .internal v).text {} = (s.valueType .wire v).text {}) ↔
      v.isFixedDate = false := by
  have hexpression := s.expression_text_eq_iff role v scope (.raw operand)
  rw [Operand.text] at hexpression
  rw [hexpression, s.valueType_text_eq_iff v]
  constructor
  · intro hagree
    by_contra hdate
    have hfixed : v.isFixedDate = true := by simpa using hdate
    exact hdate (isFixedDate_of_keeps (hagree.2 (.inr hfixed)))
  · intro hdate
    simp [hdate]

def leapDay : Value where
  base := .primitive .date (some (.string "2024-02-29"))

/-- It is converted to a date, but not typed as one. -/
theorem leapDay_mistyped :
    (({ title := "calendar" } : Service).expression .serverInbound leapDay (.raw "dto.day") none).text {} =
        "new Date(dto.day)" ∧
      (({ title := "calendar" } : Service).valueType .internal leapDay).text {} = "'2024-02-29'" ∧
      (({ title := "calendar" } : Service).valueType .wire leapDay).text {} = "'2024-02-29'" := by
  decide +kernel

end Service

end DtoGen
