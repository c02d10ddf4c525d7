import DtoGen.Literal
import Mathlib.Algebra.Order.Field.Rat
import Mathlib.Tactic.Ring

namespace DtoGen

/-- A number by its value; zeros of both signs are one number. -/
inductive Number where
  | nan
  | infinity (negative : Bool)
  | exact (value : ℚ)
deriving DecidableEq

/-- A value at run time. A date is known by its text. -/
inductive Datum where
  | undefined
  | null
  | bool (b : Bool)
  | number (x : Number)
  | string (s : String)
  | date (text : String)
  | array (items : List Datum)
  | object (members : List (String × Datum))

namespace Binary64

def rational (negative : Bool) (mantissa : Nat) (exponent : Int) : ℚ :=
  (signed negative (magnitude mantissa exponent).1 : ℚ) / ((magnitude mantissa exponent).2 : ℚ)

def toNumber : Binary64 → Number
  | .nan => .nan
  | .infinity s => .infinity s
  | .finite s m e => .exact (rational s m e)

theorem magnitude_den_pos (m : Nat) (e : Int) : 0 < (magnitude m e).2 := by
  unfold magnitude
  split
  · exact Nat.pow_pos (by decide)
  · exact Nat.one_pos

theorem signed_mul (s : Bool) (a b : Nat) : signed s (a * b) = signed s a * b := by
  cases s <;> simp [signed]

theorem rational_eq_iff {s t : Bool} {m n : Nat} {e f : Int} :
    rational s m e = rational t n f ↔
      signed s ((magnitude m e).1 * (magnitude n f).2) =
        signed t ((magnitude n f).1 * (magnitude m e).2) := by
  have hb : ((magnitude m e).2 : ℚ) ≠ 0 := by exact_mod_cast (magnitude_den_pos m e).ne'
  have hd : ((magnitude n f).2 : ℚ) ≠ 0 := by exact_mod_cast (magnitude_den_pos n f).ne'
  rw [rational, rational, div_eq_div_iff hb hd, signed_mul, signed_mul]
  exact_mod_cast Iff.rfl

theorem sameValue_finite {s t : Bool} {m n : Nat} {e f : Int} :
    sameValue (.finite s m e) (.finite t n f) = true ↔ rational s m e = rational t n f := by
  rw [rational_eq_iff]
  simp [sameValue]

theorem signed_eq_mul_iff {s : Bool} {a b : Nat} {n : Int} (hb : 0 < b) :
    signed s a = n * b ↔ a % b = 0 ∧ signed s (a / b) = n := by
  have hb' : (b : Int) ≠ 0 := by exact_mod_cast hb.ne'
  constructor
  · intro h
    have hdvd : b ∣ a := by
      have hint : (b : Int) ∣ signed s a := ⟨n, by rw [h, mul_comm]⟩
      cases s <;> simpa [signed, Int.natCast_dvd_natCast] using hint
    obtain ⟨k, rfl⟩ := hdvd
    refine ⟨Nat.mul_mod_right b k, ?_⟩
    rw [Nat.mul_div_cancel_left k hb]
    rw [mul_comm, signed_mul] at h
    exact mul_right_cancel₀ hb' h
  · rintro ⟨hm, rfl⟩
    rw [← signed_mul, Nat.div_mul_cancel (Nat.dvd_of_mod_eq_zero hm)]

/-- A number is read as an integer just if that is its value. -/
theorem toInt?_finite {s : Bool} {m : Nat} {e n : Int} :
    toInt? (.finite s m e) = some n ↔ rational s m e = n := by
  have hb := magnitude_den_pos m e
  have hb' : ((magnitude m e).2 : ℚ) ≠ 0 := by exact_mod_cast hb.ne'
  rw [rational, div_eq_iff hb']
  have hcast : ((signed s (magnitude m e).1 : ℚ) = (n : ℚ) * ((magnitude m e).2 : ℚ)) ↔
      signed s (magnitude m e).1 = n * ((magnitude m e).2 : Int) := by exact_mod_cast Iff.rfl
  rw [hcast, signed_eq_mul_iff hb]
  simp [toInt?]

end Binary64

namespace Number

def strictEq : Number → Number → Bool
  | .nan, _ => false
  | x, y => x = y

end Number

namespace Datum

/-- Strict equality where at most one side is an object: those are equal only to themselves. -/
def strictEq : Datum → Datum → Bool
  | .undefined, .undefined => true
  | .null, .null => true
  | .bool a, .bool b => a = b
  | .number x, .number y => x.strictEq y
  | .string a, .string b => a = b
  | _, _ => false

end Datum

namespace Literal

def datum : Literal → Datum
  | .null => .null
  | .bool b => .bool b
  | .int n => .number (.exact n)
  | .float x => .number x.toNumber
  | .string s => .string s

def isNan : Literal → Bool
  | .float x => x.isNan
  | _ => false

theorem toNumber_strictEq (x y : Binary64) :
    x.toNumber.strictEq y.toNumber = x.sameValue y := by
  cases x <;> cases y
  case finite.finite s m e t n f =>
    rw [Bool.eq_iff_iff, Binary64.sameValue_finite]
    simp [Binary64.toNumber, Number.strictEq]
  all_goals simp [Binary64.toNumber, Number.strictEq, Binary64.sameValue]

theorem exact_strictEq_toNumber (n : Int) (x : Binary64) :
    (Number.exact n).strictEq x.toNumber = decide (x.toInt? = some n) := by
  cases x with
  | finite s m e =>
    rw [Bool.eq_iff_iff, decide_eq_true_iff, Binary64.toInt?_finite]
    simp [Binary64.toNumber, Number.strictEq, eq_comm]
  | _ => simp [Binary64.toNumber, Number.strictEq, Binary64.toInt?]

theorem toNumber_strictEq_exact (n : Int) (x : Binary64) :
    x.toNumber.strictEq (.exact n) = decide (x.toInt? = some n) := by
  cases x with
  | finite s m e =>
    rw [Bool.eq_iff_iff, decide_eq_true_iff, Binary64.toInt?_finite]
    simp [Binary64.toNumber, Number.strictEq]
  | _ => simp [Binary64.toNumber, Number.strictEq, Binary64.toInt?]

theorem strictEq_datum (a b : Literal) : a.datum.strictEq b.datum = a.strictEq b := by
  cases a <;> cases b
  case float.float x y => exact toNumber_strictEq x y
  case int.float n x => exact exact_strictEq_toNumber n x
  case float.int x n => exact toNumber_strictEq_exact n x
  all_goals simp [datum, strictEq, Datum.strictEq, Number.strictEq]

theorem strictEq_comm (a b : Literal) : a.strictEq b = b.strictEq a := by
  have hx : ∀ x y : Number, x.strictEq y = y.strictEq x := by
    intro x y
    cases x <;> cases y <;> simp [Number.strictEq, eq_comm]
  rw [← strictEq_datum, ← strictEq_datum]
  cases a <;> cases b <;> simp [datum, Datum.strictEq, hx, eq_comm]

theorem datum_strictEq_self (c : Literal) : c.datum.strictEq c.datum = !c.isNan := by
  cases c with
  | float x => cases x <;> simp [datum, Datum.strictEq, Number.strictEq, Binary64.toNumber, isNan, Binary64.isNan]
  | _ => simp [datum, Datum.strictEq, Number.strictEq, isNan]

end Literal

end DtoGen
