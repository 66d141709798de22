import Mathlib.Tactic.Linarith
import Mathlib.Tactic.Ring
import Mathlib.Algebra.Order.Ring.Int
import Mathlib.Algebra.Order.Ring.Rat

namespace FlutterQuickjs.Engine

/-- The finite values of binary64. -/
def Representable (x : Dyadic) : Prop :=
  ∃ m e : Int, m.natAbs < 2^53 ∧ -1074 ≤ e ∧ e ≤ 971 ∧ x = Dyadic.ofIntWithPrec m (-e)

/-- Binary64: the finite values are exact dyadic numbers, zero has a sign. -/
inductive Double
  | nan
  | infinity (negative : Bool)
  | negZero
  | finite (x : {x : Dyadic // Representable x})
deriving DecidableEq

/-- `n` rounded to 53 significant bits, ties to even. -/
def roundNat (n : Nat) : Nat :=
  let s := n.log2 - 52
  let q := n / 2^s
  let r := n % 2^s
  (if 2^s < 2 * r ∨ (2 * r = 2^s ∧ q % 2 = 1) then q + 1 else q) * 2^s

def roundInt (n : Int) : Int := n.sign * roundNat n.natAbs

theorem ofInt_mul_two_pow (m : Int) (s : Nat) :
    Dyadic.ofInt (m * 2^s) = Dyadic.ofIntWithPrec m (-(s : Int)) := by
  rw [← Dyadic.toRat_inj, Dyadic.toRat_ofIntWithPrec_eq_mul_two_pow, Dyadic.ofInt,
    Dyadic.toRat_ofIntWithPrec_eq_mul_two_pow]
  simp

theorem representable_of_natAbs_lt {n : Int} (small : n.natAbs < 2^53) :
    Representable (Dyadic.ofInt n) :=
  ⟨n, 0, small, by decide, by decide, rfl⟩

theorem roundNat_of_lt {n : Nat} (small : n < 2^53) : roundNat n = n := by
  have shift : n.log2 - 52 = 0 := by
    rcases Nat.eq_zero_or_pos n with rfl | pos
    · rfl
    · have : n.log2 < 53 := (Nat.log2_lt pos.ne').mpr small
      omega
  simp only [roundNat, shift, pow_zero, Nat.div_one, Nat.mod_one, mul_zero, mul_one]
  rw [if_neg (by omega)]

theorem roundInt_of_natAbs_lt {n : Int} (small : n.natAbs < 2^53) : roundInt n = n := by
  rw [roundInt, roundNat_of_lt small]
  exact Int.sign_mul_natAbs n

private theorem roundNat_eq {n : Nat} (bound : n ≤ 2^63) :
    ∃ m s : Nat, m < 2^53 ∧ s ≤ 12 ∧ roundNat n = m * 2^s := by
  by_cases small : n < 2^53
  · exact ⟨n, 0, small, by decide, by rw [roundNat_of_lt small]; simp⟩
  · have pos : n ≠ 0 := by omega
    have low : 53 ≤ n.log2 := (Nat.le_log2 pos).mpr (by omega)
    have high : n.log2 < 64 := (Nat.log2_lt pos).mpr (by omega)
    have quotient : n / 2^(n.log2 - 52) < 2^53 := by
      rw [Nat.div_lt_iff_lt_mul (by positivity), ← pow_add]
      have : 53 + (n.log2 - 52) = n.log2 + 1 := by omega
      rw [this]
      exact Nat.lt_log2_self
    unfold roundNat
    dsimp only
    split
    · rcases Nat.lt_or_ge (n / 2^(n.log2 - 52) + 1) (2^53) with fits | full
      · exact ⟨_, _, fits, by omega, rfl⟩
      · have exactly : n / 2^(n.log2 - 52) + 1 = 2^53 := by omega
        refine ⟨2^52, n.log2 - 52 + 1, by decide, by omega, ?_⟩
        rw [exactly]
        ring
    · exact ⟨_, _, quotient, by omega, rfl⟩

theorem representable_roundInt {n : Int} (bound : n.natAbs ≤ 2^63) :
    Representable (Dyadic.ofInt (roundInt n)) := by
  obtain ⟨m, s, small, shift, rounded⟩ := roundNat_eq bound
  refine ⟨n.sign * m, s, ?_, by omega, by omega, ?_⟩
  · rcases Int.sign_trichotomy n with h | h | h <;> rw [h] <;> simp <;> omega
  · rw [← ofInt_mul_two_pow, roundInt, rounded]
    push_cast
    rw [mul_assoc]

theorem natAbs_toInt_le (n : Int64) : n.toInt.natAbs ≤ 2^63 := by
  have low := n.le_toInt
  have high := n.toInt_lt
  omega

/-- The C conversion of an `int64_t` to `double`. -/
def Double.ofInt64 (n : Int64) : Double :=
  .finite ⟨Dyadic.ofInt (roundInt n.toInt), representable_roundInt (natAbs_toInt_le n)⟩

def Double.ofUInt32 (n : UInt32) : Double :=
  .finite ⟨Dyadic.ofInt n.toNat, representable_of_natAbs_lt (by have := n.toNat_lt; omega)⟩

/-- The mathematical value, the two zeros alike. -/
def Double.value : Double → Option Dyadic
  | .negZero => some 0
  | .finite x => some x.val
  | _ => none

/-- Truncation towards zero. -/
def truncate : Dyadic → Int
  | .zero => 0
  | .ofOdd n k _ => if k ≤ 0 then n * 2^(-k).toNat else n.tdiv (2^k.toNat)

/-- The integer a double is, if it is one; negative zero is none. -/
def Double.toInt? : Double → Option Int
  | .finite x => if Dyadic.ofInt (truncate x.val) = x.val then some (truncate x.val) else none
  | _ => none

/-- `JS_ToInt32` of a double: truncation modulo 2^32. -/
def Double.toInt32 : Double → Int32
  | .finite x => Int32.ofInt (truncate x.val)
  | _ => 0

/-- `JS_ToInt64` of a double: truncation modulo 2^64. -/
def Double.toInt64 : Double → Int64
  | .finite x => Int64.ofInt (truncate x.val)
  | _ => 0

theorem truncate_ofInt (n : Int) : truncate (Dyadic.ofInt n) = n := by
  unfold Dyadic.ofInt Dyadic.ofIntWithPrec
  split
  · rename_i zero
    exact zero.symm
  · have divides := Int.two_pow_trailingZeros_dvd (i := n) ‹_›
    simp only [truncate]
    rw [if_pos (by omega)]
    rw [show (-(0 - (n.trailingZeros : Int))).toNat = n.trailingZeros by omega,
      Int.shiftRight_eq_div_pow]
    exact Int.ediv_mul_cancel (by exact_mod_cast divides)

theorem ofInt_injective {m n : Int} (h : Dyadic.ofInt m = Dyadic.ofInt n) : m = n := by
  rw [← truncate_ofInt m, h, truncate_ofInt]

end FlutterQuickjs.Engine
