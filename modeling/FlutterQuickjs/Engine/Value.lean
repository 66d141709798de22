import FlutterQuickjs.Engine.Text
import FlutterQuickjs.Engine.Number

namespace FlutterQuickjs.Engine

/-- How an object answers property operations. Exotic objects (proxies, namespaces, typed
arrays) answer with code of their own. -/
inductive ObjKind
  | ordinary
  | array
  | function
  | exotic (callable : Bool)
deriving DecidableEq

/-- An object: where it lives, and a serial number that tells it apart from objects
that lived there before. -/
structure ObjRef where
  address : Nat
  serial : Nat
  kind : ObjKind
deriving DecidableEq

structure Symbol where
  id : Nat
  isPrivate : Bool
deriving DecidableEq

inductive JSValue
  | int (n : Int32)
  | bool (b : Bool)
  | null
  | undefined
  | exception
  | float64 (d : Double)
  | string (s : Units)
  | symbol (s : Symbol)
  | bigInt (n : Int)
  | object (o : ObjRef)
deriving DecidableEq

namespace JSTag

def BIG_INT : Int := -10
def SYMBOL : Int := -8
def STRING : Int := -7
def OBJECT : Int := -1
def INT : Int := 0
def BOOL : Int := 1
def NULL : Int := 2
def UNDEFINED : Int := 3
def EXCEPTION : Int := 6
def FLOAT64 : Int := 7

end JSTag

namespace JSProp

def CONFIGURABLE : Nat := 1
def WRITABLE : Nat := 2
def ENUMERABLE : Nat := 4
def C_W_E : Nat := CONFIGURABLE ||| WRITABLE ||| ENUMERABLE

end JSProp

namespace JSValue

def tag : JSValue → Int
  | int _ => JSTag.INT
  | bool _ => JSTag.BOOL
  | null => JSTag.NULL
  | undefined => JSTag.UNDEFINED
  | exception => JSTag.EXCEPTION
  | float64 _ => JSTag.FLOAT64
  | string _ => JSTag.STRING
  | symbol _ => JSTag.SYMBOL
  | bigInt _ => JSTag.BIG_INT
  | object _ => JSTag.OBJECT

/-- `JS_NewInt64`. -/
def newInt64 (n : Int64) : JSValue :=
  if n.toInt32.toInt64 = n then .int n.toInt32 else .float64 (Double.ofInt64 n)

/-- `JS_NewFloat64`: a double that is an `int32_t` bit for bit becomes one. -/
def newFloat64 (d : Double) : JSValue :=
  match d.toInt? with
  | some n => if (Int32.ofInt n).toInt = n then .int (Int32.ofInt n) else .float64 d
  | none => .float64 d

/-- `JS_NewUint32`. -/
def newUint32 (n : UInt32) : JSValue :=
  if n.toNat ≤ 0x7fffffff then .int (Int32.ofNat n.toNat) else .float64 (Double.ofUInt32 n)

/-- `JS_IsFunction`. -/
def isFunction : JSValue → Bool
  | object o => match o.kind with
    | .function => true
    | .exotic callable => callable
    | _ => false
  | _ => false

/-- `JS_ToBool`; no user code runs. -/
def toBool : JSValue → Int32
  | int n => if n ≠ 0 then 1 else 0
  | bool b => if b then 1 else 0
  | null => 0
  | undefined => 0
  | exception => -1
  | float64 d => if d = .nan ∨ d.value = some 0 then 0 else 1
  | string s => if s ≠ [] then 1 else 0
  | symbol _ => 1
  | bigInt n => if n ≠ 0 then 1 else 0
  | object _ => 1

/-- `JS_ToInt32` where it neither fails nor runs user code. -/
def toInt32? : JSValue → Option Int32
  | int n => some n
  | bool b => some (if b then 1 else 0)
  | null => some 0
  | undefined => some 0
  | float64 d => some d.toInt32
  | _ => none

@[simp] theorem toInt32?_int (n : Int32) : (int n).toInt32? = some n := rfl

@[simp] theorem toInt32?_float64 (d : Double) : (float64 d).toInt32? = some d.toInt32 := rfl

/-- `JS_ToInt64` where it neither fails nor runs user code. -/
def toInt64? : JSValue → Option Int64
  | int n => some n.toInt64
  | bool b => some (if b then 1 else 0)
  | null => some 0
  | undefined => some 0
  | float64 d => some d.toInt64
  | _ => none

/-- `JS_ToFloat64` where it neither fails nor runs user code. -/
def toFloat64? : JSValue → Option Double
  | int n => some (Double.ofInt64 n.toInt64)
  | bool b => some (Double.ofInt64 (if b then 1 else 0))
  | null => some (Double.ofInt64 0)
  | undefined => some .nan
  | float64 d => some d
  | _ => none

end JSValue

/-- A property key; an array index is its decimal string. -/
inductive PropKey
  | string (s : Units)
  | symbol (s : Symbol)
deriving DecidableEq

namespace PropKey

/-- `JS_AtomToValue`. -/
def toValue : PropKey → JSValue
  | string s => .string s
  | symbol s => .symbol s

def indexUnits (n : Nat) : Units := (Nat.toDigits 10 n).map fun c => UInt16.ofNat c.toNat

def index (n : Nat) : PropKey := .string (indexUnits n)

def digitsValue (s : Units) : Nat := Nat.ofDigitChars 10 (s.map fun c => Char.ofNat c.toNat) 0

/-- The array index a key is, if it is one. -/
def asIndex : PropKey → Option Nat
  | string s =>
    if indexUnits (digitsValue s) = s ∧ digitsValue s < 2^32 - 1 then some (digitsValue s) else none
  | symbol _ => none

def isSymbol : PropKey → Bool
  | symbol _ => true
  | string _ => false

private theorem digitsValue_indexUnits (n : Nat) : digitsValue (indexUnits n) = n := by
  unfold digitsValue indexUnits
  rw [List.map_map]
  have same : ∀ c ∈ Nat.toDigits 10 n,
      ((fun u : UInt16 => Char.ofNat u.toNat) ∘ fun c => UInt16.ofNat c.toNat) c = c := by
    intro c digit
    have range := Nat.isDigit_of_mem_toDigits (by decide) (by decide) digit
    have small : c.toNat < 2^16 := by
      simp only [Char.isDigit, Bool.and_eq_true, decide_eq_true_eq] at range
      have := range.2
      rw [UInt32.le_iff_toNat_le] at this
      simp at this
      have toNat : c.toNat = c.val.toNat := rfl
      omega
    rw [Function.comp_apply, UInt16.toNat_ofNat', Nat.mod_eq_of_lt small]
    exact Char.ofNat_toNat c
  rw [List.map_congr_left same, List.map_id']
  exact Nat.ofDigitChars_ten_toDigits

theorem indexUnits_injective {m n : Nat} (h : indexUnits m = indexUnits n) : m = n := by
  rw [← digitsValue_indexUnits m, h, digitsValue_indexUnits]

@[simp] theorem index_inj {m n : Nat} : index m = index n ↔ m = n := by
  constructor
  · intro h
    exact indexUnits_injective (PropKey.string.inj h)
  · exact congrArg index

theorem digitsValue_of_index {n : Nat} {s : Units} (same : index n = .string s) :
    digitsValue s = n := by
  rw [← PropKey.string.inj same, digitsValue_indexUnits]

end PropKey

end FlutterQuickjs.Engine
