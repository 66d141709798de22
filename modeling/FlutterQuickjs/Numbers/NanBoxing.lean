import FlutterQuickjs.Binding.Convert

namespace FlutterQuickjs.Numbers.NanBoxing

open Engine Binding ValueConverter
open Effect (Program)

/-- A `JSValue` of the build that packs doubles and tagged values into one word. -/
abbrev Word := BitVec 64

def JS_TAG_FIRST : Int := -11

/-- `JS_VALUE_GET_TAG`: the upper half as an `int`. -/
def JS_VALUE_GET_TAG (v : Word) : Int := (v.extractLsb' 32 32).toInt

def JS_MKVAL (tag : Int) (val : BitVec 32) : Word :=
  BitVec.ofInt 64 tag <<< 32 ||| val.setWidth 64

def JS_MKPTR (tag : Int) (ptr : BitVec 32) : Word :=
  BitVec.ofInt 64 tag <<< 32 ||| ptr.setWidth 64

def JS_FLOAT64_TAG_ADDEND : Int := 0x7ff80000 - JS_TAG_FIRST + 1

def JS_NAN : Word := 0x7ff8000000000000#64 - BitVec.ofInt 64 JS_FLOAT64_TAG_ADDEND <<< 32

/-- `__JS_NewFloat64`, from the bits of the double. -/
def newFloat64 (u : BitVec 64) : Word :=
  if 0x7ff0000000000000#64 < u &&& 0x7fffffffffffffff#64 then JS_NAN
  else u - BitVec.ofInt 64 JS_FLOAT64_TAG_ADDEND <<< 32

def JS_TAG_IS_FLOAT64 (tag : Int) : Bool :=
  JSTag.FLOAT64 - JS_TAG_FIRST ≤ (BitVec.ofInt 32 (tag - JS_TAG_FIRST)).toNat

def JS_VALUE_GET_NORM_TAG (v : Word) : Int :=
  if JS_TAG_IS_FLOAT64 (JS_VALUE_GET_TAG v) then JSTag.FLOAT64 else JS_VALUE_GET_TAG v

def jsValueGetTag (val : Word) : Int :=
  let tag := JS_VALUE_GET_TAG val
  if JSTag.FLOAT64 < tag ∨ tag < JS_TAG_FIRST then JSTag.FLOAT64 else tag

def jsTagIsFloat64 (tag : Int) : Bool := JS_TAG_IS_FLOAT64 tag

/-- The values the engine builds, with the tag each is built with. -/
inductive Built : Word → Int → Prop
  | value {tag : Int} (low : JS_TAG_FIRST ≤ tag) (high : tag < JSTag.FLOAT64) (val : BitVec 32) :
      Built (JS_MKVAL tag val) tag
  | pointer {tag : Int} (low : JS_TAG_FIRST ≤ tag) (high : tag < JSTag.FLOAT64)
      (ptr : BitVec 32) : Built (JS_MKPTR tag ptr) tag
  | double (u : BitVec 64) : Built (newFloat64 u) JSTag.FLOAT64

/-- The branches of `toDartValue`. -/
inductive Branch
  | int
  | bool
  | nothing
  | exception
  | float64
  | string
  | object
  | unsupported
deriving DecidableEq

def branch (tag : Int) : Branch :=
  if tag = JSTag.INT then .int
  else if tag = JSTag.BOOL then .bool
  else if tag = JSTag.NULL ∨ tag = JSTag.UNDEFINED then .nothing
  else if tag = JSTag.EXCEPTION then .exception
  else if tag = JSTag.FLOAT64 then .float64
  else if tag = JSTag.STRING then .string
  else if tag = JSTag.OBJECT then .object
  else .unsupported

/-- The conversion looks at nothing but the tag to choose its branch. -/
theorem toDartValue_branch [PackageFfi] (n : Nat) (jsval : JSRef) (cache : Option Nat) :
    toDartValue (n+1) jsval cache = (do
      let tag ← Binding.jsValueGetTag jsval.val
      match branch tag with
      | .int => return .int (← jsToInt64 jsval.ctx jsval.val)
      | .bool => return .bool ((← jsToBool jsval.val) ≠ 0)
      | .nothing => return .null
      | .exception => do
        let exception ← jsGetException jsval.ctx
        let retValue ← toDartException jsval.ctx exception
        jsFreeValue exception
        return .exception retValue
      | .float64 => return .double (← jsToFloat64 jsval.ctx jsval.val)
      | .string => return .string (← dartString (← jsToCString jsval.ctx jsval.val))
      | .object => do
        let valptr ← jsValueGetPtr jsval.val
        let cache ← match cache with
          | some c => pure c
          | none => perform (.newCache valptr)
        objectValue (fun jval => toDartValue n jval (some cache)) jsval.ctx jsval.val valptr cache
      | .unsupported => do
        perform .warn
        return .null) := by
  rw [toDartValue]
  congr 1
  funext tag
  unfold branch
  split_ifs <;> rfl

theorem tag_mkVal {tag : Int} (low : JS_TAG_FIRST ≤ tag) (high : tag < JSTag.FLOAT64)
    (val : BitVec 32) : JS_VALUE_GET_TAG (JS_MKVAL tag val) = tag := by
  have lower : BitVec.ofInt 32 tag = (BitVec.ofInt 64 tag).setWidth 32 := by
    apply BitVec.eq_of_toNat_eq
    simp only [BitVec.toNat_ofInt, BitVec.toNat_setWidth]
    omega
  have upper : (JS_MKVAL tag val).extractLsb' 32 32 = BitVec.ofInt 32 tag := by
    rw [lower]
    ext i inside
    have outside : ¬32 + i < 32 := by omega
    have word : 32 + i < 64 := by omega
    have narrow : i < 64 := by omega
    simp [JS_MKVAL, outside, word, BitVec.getLsbD_eq_getElem narrow]
  simp only [JS_TAG_FIRST, JSTag.FLOAT64] at low high
  rw [JS_VALUE_GET_TAG, upper, BitVec.toInt_ofInt]
  apply Int.bmod_eq_of_le <;> omega

/-- Taking the addend away moves every double out of the range of the tags. -/
theorem tag_newFloat64 (u : BitVec 64) :
    JSTag.FLOAT64 < JS_VALUE_GET_TAG (newFloat64 u) ∨
      JS_VALUE_GET_TAG (newFloat64 u) < JS_TAG_FIRST := by
  have bound := u.isLt
  have addend : (BitVec.ofInt 64 JS_FLOAT64_TAG_ADDEND <<< 32).toNat = 0x7ff8000c00000000 := by
    decide
  simp only [JSTag.FLOAT64, JS_TAG_FIRST, JS_VALUE_GET_TAG, BitVec.toInt_eq_toNat_cond,
    BitVec.extractLsb'_toNat, Nat.shiftRight_eq_div_pow]
  unfold newFloat64
  split
  · right
    decide
  · rename_i number
    rw [BitVec.not_lt, BitVec.le_def, BitVec.toNat_and] at number
    have magnitude : u.toNat &&& 0x7fffffffffffffff = u.toNat % 2^63 :=
      Nat.and_two_pow_sub_one_eq_mod u.toNat 63
    simp only [BitVec.toNat_ofNat, Nat.reducePow, Nat.reduceMod] at number
    rw [magnitude] at number
    rw [BitVec.toNat_sub, addend]
    split <;> omega

/-- The signed comparisons of the binding make the same test as the engine's subtraction. -/
theorem jsTagIsFloat64_iff {tag : Int} (low : -2^31 ≤ tag) (high : tag < 2^31) :
    jsTagIsFloat64 tag = true ↔ JSTag.FLOAT64 ≤ tag ∨ tag < JS_TAG_FIRST := by
  simp only [jsTagIsFloat64, JS_TAG_IS_FLOAT64, JSTag.FLOAT64, JS_TAG_FIRST, BitVec.toNat_ofInt,
    decide_eq_true_eq]
  omega

theorem tag_range (v : Word) : -2^31 ≤ JS_VALUE_GET_TAG v ∧ JS_VALUE_GET_TAG v < 2^31 :=
  ⟨BitVec.le_toInt _, BitVec.toInt_lt⟩

theorem jsValueGetTag_normTag (v : Word) : jsValueGetTag v = JS_VALUE_GET_NORM_TAG v := by
  have range := tag_range v
  have test := jsTagIsFloat64_iff range.1 range.2
  rw [jsTagIsFloat64] at test
  simp only [jsValueGetTag, JS_VALUE_GET_NORM_TAG, test]
  split_ifs <;> omega

theorem jsValueGetTag_built {v : Word} {tag : Int} (built : Built v tag) :
    jsValueGetTag v = tag := by
  cases built with
  | value low high val =>
    simp only [jsValueGetTag, tag_mkVal low high val]
    rw [if_neg (by omega)]
  | pointer low high ptr =>
    have same := tag_mkVal low high ptr
    rw [JS_MKVAL] at same
    simp only [jsValueGetTag, JS_MKPTR, same]
    rw [if_neg (by omega)]
  | double u =>
    simp only [jsValueGetTag]
    rw [if_pos (tag_newFloat64 u)]

theorem branch_eq_float64 (tag : Int) : branch tag = .float64 ↔ tag = JSTag.FLOAT64 := by
  constructor
  · intro chosen
    unfold branch at chosen
    split_ifs at chosen with h₁ h₂ h₃ h₄ h₅
    exact h₅
  · intro same
    rw [same]
    rfl

/-- On the NaN-boxing build a value carries the tag it was built with, doubles and tagged
values never meet, and `toDartValue` reads a double exactly where the engine stored one. -/
theorem jsValueGetTag_faithful :
    (∀ v : Word, jsValueGetTag v = JS_VALUE_GET_NORM_TAG v) ∧
      ∀ v tag, Built v tag →
        jsValueGetTag v = tag ∧
        (jsValueGetTag v = JSTag.FLOAT64 ↔ ∃ u, v = newFloat64 u) ∧
        (jsTagIsFloat64 (jsValueGetTag v) = true ↔ ∃ u, v = newFloat64 u) ∧
        (branch (jsValueGetTag v) = .float64 ↔ ∃ u, v = newFloat64 u) := by
  refine ⟨jsValueGetTag_normTag, fun v tag built => ?_⟩
  have same := jsValueGetTag_built built
  have double : jsValueGetTag v = JSTag.FLOAT64 ↔ ∃ u, v = newFloat64 u := by
    constructor
    · intro float
      cases built with
      | value low high val => omega
      | pointer low high ptr => omega
      | double u => exact ⟨u, rfl⟩
    · rintro ⟨u, rfl⟩
      exact jsValueGetTag_built (.double u)
  have range : JS_TAG_FIRST ≤ tag ∧ tag ≤ JSTag.FLOAT64 := by
    cases built with
    | value low high val => exact ⟨low, high.le⟩
    | pointer low high ptr => exact ⟨low, high.le⟩
    | double u => decide
  have test : jsTagIsFloat64 tag = true ↔ tag = JSTag.FLOAT64 := by
    simp only [JS_TAG_FIRST, JSTag.FLOAT64] at range
    rw [jsTagIsFloat64_iff (by omega) (by omega)]
    simp only [JS_TAG_FIRST, JSTag.FLOAT64]
    omega
  refine ⟨same, double, ?_, ?_⟩
  · rw [← double, same]
    exact test
  · rw [← double]
    exact branch_eq_float64 _

theorem jsValueGetTag_infinity :
    jsValueGetTag (newFloat64 0x7ff0000000000000#64) = JSTag.FLOAT64 :=
  (jsValueGetTag_faithful.2 _ _ (.double 0x7ff0000000000000#64)).1

end FlutterQuickjs.Numbers.NanBoxing
