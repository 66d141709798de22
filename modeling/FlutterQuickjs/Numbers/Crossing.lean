import FlutterQuickjs.Binding.Plain
import FlutterQuickjs.Conversion.Resend

namespace FlutterQuickjs.Numbers

open Engine Binding ValueConverter Conversion
open Effect

/-- Rounding leaves 53 significant bits alone. -/
theorem roundNat_mul_two_pow {a k : Nat} (small : a < 2^53) : roundNat (a * 2^k) = a * 2^k := by
  have shift : (a * 2^k).log2 - 52 ≤ k := by
    rcases Nat.eq_zero_or_pos a with rfl | pos
    · simp
    · have nonzero : a * 2^k ≠ 0 := by positivity
      have bound : a * 2^k < 2^(53+k) := by
        rw [pow_add]
        exact Nat.mul_lt_mul_of_pos_right small (by positivity)
      have := (Nat.log2_lt nonzero).mpr bound
      omega
  have divides : 2^((a * 2^k).log2 - 52) ∣ a * 2^k :=
    (pow_dvd_pow 2 shift).trans (dvd_mul_left _ a)
  have positive : 0 < 2^((a * 2^k).log2 - 52) := by positivity
  simp only [roundNat, Nat.mod_eq_zero_of_dvd divides]
  rw [if_neg (by omega), Nat.div_mul_cancel divides]

theorem roundInt_of_representable {n : Int} (exactly : Representable (Dyadic.ofInt n)) :
    roundInt n = n := by
  obtain ⟨m, e, small, -, -, same⟩ := exactly
  rw [← Dyadic.toRat_inj, Dyadic.toRat_ofIntWithPrec_eq_mul_two_pow, Dyadic.ofInt,
    Dyadic.toRat_ofIntWithPrec_eq_mul_two_pow] at same
  simp only [neg_zero, zpow_zero, mul_one, neg_neg] at same
  rcases Int.le_total 0 e with whole | fraction
  · obtain ⟨k, rfl⟩ := Int.eq_ofNat_of_zero_le whole
    have product : n = m * 2^k := by exact_mod_cast same
    rw [roundInt, product, Int.natAbs_mul, Int.natAbs_pow]
    change _ * ((roundNat (m.natAbs * 2^k) : Nat) : Int) = _
    rw [roundNat_mul_two_pow small]
    have size := Int.sign_mul_natAbs (m * 2^k)
    rw [Int.natAbs_mul, Int.natAbs_pow] at size
    exact size
  · obtain ⟨k, same'⟩ := Int.eq_ofNat_of_zero_le (Int.neg_nonneg_of_nonpos fraction)
    have product : n * 2^k = m := by
      have scaled : (n : ℚ) * 2^k = m := by
        have nonzero : (2 : ℚ)^k ≠ 0 := by positivity
        rw [same, show e = -(k : Int) by omega, zpow_neg, zpow_natCast, mul_assoc,
          inv_mul_cancel₀ nonzero, mul_one]
      exact_mod_cast scaled
    apply roundInt_of_natAbs_lt
    have size : n.natAbs * 2^k = m.natAbs := by
      rw [← product, Int.natAbs_mul, Int.natAbs_pow]
      rfl
    have : n.natAbs ≤ n.natAbs * 2^k := Nat.le_mul_of_pos_right _ (by positivity)
    omega

/-- Exactly the integers that are doubles are not rounded. -/
theorem roundInt_eq_iff {i : Int64} :
    roundInt i.toInt = i.toInt ↔ Representable (Dyadic.ofInt i.toInt) := by
  constructor
  · intro same
    rw [← same]
    exact representable_roundInt (natAbs_toInt_le i)
  · exact roundInt_of_representable

section

variable [PackageFfi] {rely : World → World → Prop} {total : Prop} {w : World} {ctx : Ctx}
  {val : Ptr} {n : Nat} {Q : Except DartError DartVal → World → Prop}

/-- The Dart number made of a JS number; its type follows the tag. -/
def numberToDart : JSValue → DartVal
  | .int n => .int n.toInt64
  | .float64 x => .double x
  | _ => .null

theorem plain_numberToDart {v : JSValue} {x : Double} (holds : w.value val = v)
    (isNumber : jsNumber v = some x) :
    wp env (.plain rely total)
      (toDartValueFromJs (fun jval => toDartValue (n+1) jval none) ctx val) Q w ↔
      Q (.ok (numberToDart v)) w := by
  subst holds
  have leaf : ∀ o, w.value val ≠ .object o := by
    intro o same
    rw [same] at isNumber
    cases isNumber
  rw [toDartValueFromJs, wp_bind, plain_toDartJSValue leaf, andThen_ok]
  simp only [toDartValue, wp_bind, plain_jsValueGetTag, andThen_ok]
  cases same : w.value val with
  | int i =>
    simp only [JSValue.tag, reduceIte, wp_bind, jsToInt64, plain_load, andThen_ok, same]
    rw [plain_answer (.toInt64 ctx (.int i)) rfl]
    exact Iff.rfl
  | float64 y =>
    simp only [JSValue.tag, JSTag.INT, JSTag.BOOL, JSTag.NULL, JSTag.UNDEFINED, JSTag.EXCEPTION,
      JSTag.FLOAT64, Int.reduceEq, or_self, reduceIte, wp_bind, jsToFloat64, plain_load,
      andThen_ok, same]
    rw [plain_answer (.toFloat64 ctx (.float64 y)) rfl]
    exact Iff.rfl
  | _ =>
    rw [same] at isNumber
    cases isNumber

/-- A Dart int goes to JS and comes back as a Dart number equal to it. -/
def IntCrosses (i : Int64) : Prop :=
  ∀ (rely : World → World → Prop) (fuel : Nat) (ctx : Ctx) (w : World),
    wp env (.plain rely True) (do
      let p ← toQuickJSValue (fuel+1) ctx (.int i)
      toDartValueFromJs (fun jval => toDartValue (fuel+1) jval none) ctx p)
      (fun out _ => ∃ d, out = .ok d ∧ number d = some (Dyadic.ofInt i.toInt)) w

/-- A JS number goes to Dart and comes back as a JS number of the same value and sign. -/
def NumberReturns (v : JSValue) : Prop :=
  ∀ (rely : World → World → Prop) (fuel : Nat) (ctx : Ctx) (w : World) (val : Ptr),
    w.value val = v → wp env (.plain rely True) (do
      let d ← toDartValueFromJs (fun jval => toDartValue (fuel+1) jval none) ctx val
      toQuickJSValue (fuel+1) ctx d)
      (fun out w' => ∃ p, out = .ok p ∧ jsNumber (w'.value p) = jsNumber v) w

omit [PackageFfi] in
theorem value_new (w : World) (v : JSValue) :
    World.value { w with boxes := w.boxes ++ [v] } (.box w.boxes.length) = v := by
  simp [World.value]

theorem intCrosses_iff_rounds (i : Int64) : IntCrosses i ↔ roundInt i.toInt = i.toInt := by
  have crosses : ∀ rely fuel ctx w, wp env (.plain rely True) (do
      let p ← toQuickJSValue (fuel+1) ctx (.int i)
      toDartValueFromJs (fun jval => toDartValue (fuel+1) jval none) ctx p)
      (fun out _ => ∃ d, out = .ok d ∧ number d = some (Dyadic.ofInt i.toInt)) w ↔
        number (numberToDart (.newInt64 i)) = some (Dyadic.ofInt i.toInt) := by
    intro rely fuel ctx w
    have isNumber : ∃ x, jsNumber (.newInt64 i) = some x := by
      unfold JSValue.newInt64
      split <;> exact ⟨_, rfl⟩
    obtain ⟨x, isNumber⟩ := isNumber
    rw [toQuickJSValue, jsNewInt64, wp_bind, plain_new, andThen_ok,
      plain_numberToDart (value_new w _) isNumber]
    simp
  have image : number (numberToDart (.newInt64 i)) = some (Dyadic.ofInt i.toInt) ↔
      roundInt i.toInt = i.toInt := by
    unfold JSValue.newInt64
    split
    · rename_i fits
      have small : i.toInt.natAbs < 2^53 := by
        rw [← fits, Int32.toInt_toInt64]
        have low := i.toInt32.le_toInt
        have high := i.toInt32.toInt_lt
        omega
      simp only [numberToDart, number, fits]
      exact ⟨fun _ => roundInt_of_natAbs_lt small, fun _ => trivial⟩
    · simp only [numberToDart, number, Double.ofInt64, Double.value, Option.some_inj]
      exact ⟨ofInt_injective, congrArg Dyadic.ofInt⟩
  rw [← image]
  constructor
  · intro all
    exact (crosses Eq 0 0 World.initial).mp (all Eq 0 0 World.initial)
  · intro same rely fuel ctx w
    exact (crosses rely fuel ctx w).mpr same

theorem numberReturns {v : JSValue} {x : Double} (isNumber : jsNumber v = some x) :
    NumberReturns v := by
  intro rely fuel ctx w val holds
  rw [wp_bind, plain_numberToDart holds isNumber, andThen_ok]
  cases v with
  | int i =>
    simp only [numberToDart, toQuickJSValue, jsNewInt64, plain_new]
    refine ⟨_, rfl, ?_⟩
    rw [value_new, JSValue.newInt64, Int32.toInt32_toInt64, if_pos rfl]
  | float64 y =>
    simp only [numberToDart, toQuickJSValue, jsNewFloat64, plain_new]
    refine ⟨_, rfl, ?_⟩
    rw [value_new]
    exact jsNumber_newFloat64 y
  | _ => cases isNumber

/-- JS numbers survive the way through Dart, the sign of zero included; a Dart int survives the
way through JS if and only if a double holds it exactly. -/
theorem numbers_cross :
    (∀ i, IntCrosses i ↔ Representable (Dyadic.ofInt i.toInt)) ∧
      ∀ v x, jsNumber v = some x → NumberReturns v := by
  constructor
  · intro i
    rw [intCrosses_iff_rounds, roundInt_eq_iff]
  · intro v x isNumber
    exact numberReturns isNumber

omit [PackageFfi] in
theorem numbers_cross_negZero :
    letI := PackageFfi.utf8
    IntCrosses 9007199254740992 ∧ NumberReturns (.float64 .negZero) := by
  let _ := PackageFfi.utf8
  refine ⟨(numbers_cross.1 _).mpr ?_, numbers_cross.2 _ .negZero rfl⟩
  exact ⟨1, 53, by decide, by decide, by decide, by decide⟩

omit [PackageFfi] in
/-- The first integer that is not a double comes back as its neighbour. -/
theorem not_intCrosses_odd :
    letI := PackageFfi.utf8
    ¬IntCrosses 9007199254740993 := by
  let _ := PackageFfi.utf8
  rw [intCrosses_iff_rounds]
  decide

end

end FlutterQuickjs.Numbers
