import FlutterQuickjs.Binding.Effects

namespace FlutterQuickjs.Binding

open Engine
open Effect (Program)

def jsGetGlobalObject (ctx : Ctx) : Action Ptr := do
  let v ← perform (.getGlobalObject ctx)
  perform (.new v)

def jsEval (ctx : Ctx) (input filename : CString) : Action Ptr := do
  let v ← perform (.eval ctx input filename)
  perform (.new v)

def jsValueGetTag (val : Ptr) : Action Int := do
  let v ← perform (.load val)
  return v.tag

/-- The object a pointer value points to; other values give the null address. -/
def jsValueGetPtr (val : Ptr) : Action ObjRef := do
  match ← perform (.load val) with
  | .object o => return o
  | _ => return ⟨0,0,.ordinary⟩

def jsUndefined : Action Ptr := perform (.new .undefined)

def jsNewBool (val : Bool) : Action Ptr := perform (.new (.bool val))

def jsNewInt64 (val : Int64) : Action Ptr := perform (.new (.newInt64 val))

def jsNewFloat64 (val : Double) : Action Ptr := perform (.new (.newFloat64 val))

def jsNewString (str : CString) : Action Ptr := do
  let v ← perform (.newString str)
  perform (.new v)

def jsNewArray (ctx : Ctx) : Action Ptr := do
  let v ← perform (.newArray ctx)
  perform (.new v)

def jsNewObject (ctx : Ctx) : Action Ptr := do
  let v ← perform (.newObject ctx)
  perform (.new v)

def jsFreeValue (val : Ptr) : Action Unit := do
  let v ← perform (.load val)
  perform (.freeValue v)
  perform (.delete val)

def jsDupValue (val : Ptr) : Action Ptr := do
  let v ← perform (.load val)
  perform (.dupValue v)
  perform (.new v)

def jsToBool (val : Ptr) : Action Int32 := do
  let v ← perform (.load val)
  return v.toBool

def jsToInt32 (ctx : Ctx) (val : Ptr) : Action Int32 := do
  let v ← perform (.load val)
  perform (.toInt32 ctx v)

def jsToInt64 (ctx : Ctx) (val : Ptr) : Action Int64 := do
  let v ← perform (.load val)
  perform (.toInt64 ctx v)

def jsToFloat64 (ctx : Ctx) (val : Ptr) : Action Double := do
  let v ← perform (.load val)
  perform (.toFloat64 ctx v)

def jsToCString (ctx : Ctx) (val : Ptr) : Action (Option CString) := do
  let v ← perform (.load val)
  perform (.toCString ctx v)

def jsIsObject (val : Ptr) : Action Bool := do
  let v ← perform (.load val)
  return v.tag == JSTag.OBJECT

def jsIsFunction (val : Ptr) : Action Bool := do
  let v ← perform (.load val)
  return v.isFunction

def jsIsArray (ctx : Ctx) (val : Ptr) : Action Int32 := do
  let v ← perform (.load val)
  perform (.isArray ctx v)

def jsGetProperty (ctx : Ctx) (thisObj : Ptr) (prop : PropKey) : Action Ptr := do
  let o ← perform (.load thisObj)
  let v ← perform (.getProperty ctx o prop)
  perform (.new v)

/-- `JS_NewAtom`. -/
def newAtom (name : CString) : Action PropKey :=
  if literal name then return .string (fromUtf8 name) else perform (.findAtom name)

def jsGetPropertyStr (ctx : Ctx) (thisObj : Ptr) (prop : CString) : Action Ptr := do
  let atom ← newAtom prop
  jsGetProperty ctx thisObj atom

/-- The index crosses as 32 bits. -/
def jsGetPropertyUint32 (ctx : Ctx) (thisObj : Ptr) (idx : Nat) : Action Ptr :=
  jsGetProperty ctx thisObj (.index (UInt32.ofNat idx).toNat)

def jsSetPropertyStr (ctx : Ctx) (thisObj : Ptr) (prop : CString) (val : Ptr) : Action Int32 := do
  let o ← perform (.load thisObj)
  let x ← perform (.load val)
  let atom ← newAtom prop
  perform (.setProperty ctx o atom x)

def jsDefinePropertyValueUint32 (ctx : Ctx) (thisObj : Ptr) (idx : Nat) (val : Ptr)
    (flags : Nat) : Action Int32 := do
  let o ← perform (.load thisObj)
  let x ← perform (.load val)
  perform (.defineIndex ctx o (UInt32.ofNat idx) x flags)

def jsFreeAtom (v : PropKey) : Action Unit := perform (.freeAtom v)

def jsAtomToValue (val : PropKey) : Action Ptr := do
  let v ← perform (.atomToValue val)
  perform (.new v)

/-- Called with every flag set. -/
def jsGetOwnPropertyNames (ctx : Ctx) (ptab plen : Nat) (obj : Ptr) : Action Int32 := do
  let o ← perform (.load obj)
  match ← perform (.getOwnPropertyNames ctx o) with
  | some keys =>
    let table ← perform (.newTable keys)
    perform (.storeCell ptab table)
    perform (.storeCell plen keys.length)
    return 0
  | none =>
    perform (.storeCell ptab 0)
    perform (.storeCell plen 0)
    return -1

def jsPropertyEnumGetAtom (ptab : Nat) (i : Nat) : Action PropKey := perform (.atomAt ptab i)

def getValueAtIndex (list : Nat) (i : Nat) : Ptr := .slot list i

def setValueAtIndex (list : Nat) (i : Nat) (val : Ptr) : Action Unit := do
  let v ← perform (.load val)
  perform (.store list i v)

def jsCall (ctx : Ctx) (funcObj thisObj : Ptr) (argc argv : Nat) : Action Ptr := do
  let f ← perform (.load funcObj)
  let this ← perform (.load thisObj)
  let v ← perform (.call ctx f this argc argv)
  perform (.new v)

def jsGetException (ctx : Ctx) : Action Ptr := do
  let v ← perform (.getException ctx)
  perform (.new v)

def registerGlobalDartCallback : Action Unit := perform .registerCallback

def createFunctionFromDart (ctx : Ctx) (callbackId : Nat) : Action Ptr := do
  let cfunc ← perform (.newCFunctionData ctx (Int32.ofNat callbackId))
  perform (.new cfunc)

/-- `dart_callback`: the value goes to the engine, its box and the one of `this` stay behind. -/
def dartCallback (callback : Ctx → Ptr → Nat → Nat → Int32 → Action Ptr) (ctx : Ctx)
    (thisVal : JSValue) (argc argv : Nat) (callbackId : Int32) : Action JSValue := do
  if ← perform .callbackRegistered then
    let thisValPtr ← perform (.new thisVal)
    let result ← callback ctx thisValPtr argc argv callbackId
    let ret ← perform (.load result)
    perform (.giveBack ret)
    return ret
  else
    perform .warn
    return .undefined

def registerEvalToGlobal (ctx : Ctx) (funcName : CString) : Action Unit := do
  let globalObject ← perform (.getGlobalObject ctx)
  let old ← perform (.getProperty ctx globalObject (← newAtom funcName))
  if old = .undefined then
    let evalScriptFunc ← perform (.newCFunction ctx funcName)
    let _ ← perform (.setProperty ctx globalObject (← newAtom funcName) evalScriptFunc)
  perform (.freeValue globalObject)

section

variable {ctx : Ctx} {p x : Ptr} {name : CString} {s : Units}

theorem newAtom_of_literal (isLiteral : literal name = true) :
    newAtom name = return .string (fromUtf8 name) :=
  if_pos isLiteral

theorem jsGetPropertyStr_of_literal (isLiteral : literal name = true) :
    jsGetPropertyStr ctx p name = jsGetProperty ctx p (.string (fromUtf8 name)) := by
  rw [jsGetPropertyStr, newAtom_of_literal isLiteral]
  rfl

variable [PackageFfi]

/-- The names that the bridge writes out itself are taken for themselves. -/
theorem jsGetPropertyStr_toNativeUtf8 (clean : Clean s) (isLiteral : literal (toUtf8 s) = true) :
    jsGetPropertyStr ctx p (toNativeUtf8 s) = jsGetProperty ctx p (.string s) := by
  rw [toNativeUtf8_eq_toUtf8, sent_of_clean clean, jsGetPropertyStr_of_literal isLiteral,
    fromUtf8_toUtf8 clean.1]

theorem jsGetPropertyStr_length : jsGetPropertyStr ctx p (toNativeUtf8 (units "length")) =
    jsGetProperty ctx p (.string lengthName) :=
  jsGetPropertyStr_toNativeUtf8 (by decide) (by decide)

theorem jsGetPropertyStr_stack : jsGetPropertyStr ctx p (toNativeUtf8 (units "stack")) =
    jsGetProperty ctx p (.string (units "stack")) :=
  jsGetPropertyStr_toNativeUtf8 (by decide) (by decide)

end

end FlutterQuickjs.Binding
