import FlutterQuickjs.Binding.Ffi

namespace FlutterQuickjs.Binding

open Engine
open Effect (Program)

variable [PackageFfi]

/-- The Dart classes over a native value. -/
inductive JSClass
  | value
  | object
  | array
  | function
deriving DecidableEq

/-- A Dart object of class `JSValue` or one of its subclasses. -/
structure JSRef where
  cls : JSClass
  ctx : Ctx
  val : Ptr
deriving DecidableEq

namespace JSRef

def release (jsval : JSRef) : Action Unit := jsFreeValue jsval.val

/-- The constructors; that of `JSFunction` also registers the pointer it was given. -/
def make (cls : JSClass) (ctx : Ctx) (val : Ptr) (dup : Bool) : Action JSRef := do
  let val' ← if dup then jsDupValue val else pure val
  if cls = .function then
    let jfuncList ← perform (.jsFunctions ctx)
    perform (.setJSFunctions ctx (some (jfuncList.getD [] ++ [val])))
  return ⟨cls,ctx,val'⟩

end JSRef

/-- `toDartString` on the pointer that `jsToCString` returned. -/
def dartString : Option CString → Action Units
  | none => throw .unsupportedError
  | some bytes =>
    match toDartString bytes with
    | some s => return s
    | none => throw .formatException

namespace HostFunction

def runtimeType : OnCall → Units
  | .wrapper _ _ => units "(dynamic) => dynamic"
  | .function f => f.runtimeType

def comma : UInt16 := 44
def openParenthesis : UInt16 := 40
def closeParenthesis : UInt16 := 41

/-- Dart's `indexOf`, which is -1 where nothing is found. -/
def indexOf (s : Units) (c : UInt16) : Int := if c ∈ s then s.idxOf c else -1

/-- The constructor, which reads the number of parameters off the runtime type. -/
def new (onCall : OnCall) : HostFunction :=
  let runtimeTypeStr := runtimeType onCall
  if indexOf runtimeTypeStr openParenthesis = indexOf runtimeTypeStr closeParenthesis - 1 then
    ⟨onCall,0⟩
  else
    ⟨onCall, (runtimeTypeStr.filter (· = comma)).length + 1⟩

end HostFunction

namespace ValueConverter

def toDartJSValue (ctx : Ctx) (val : Ptr) (dup : Bool) : Action JSRef := do
  if ← jsIsFunction val then
    JSRef.make .function ctx val dup
  else if (← jsIsArray ctx val) ≠ 0 then
    JSRef.make .array ctx val dup
  else if ← jsIsObject val then
    JSRef.make .object ctx val dup
  else
    JSRef.make .value ctx val dup

def toDartException (ctx : Ctx) (exception : Ptr) : Action Units := do
  let err ← dartString (← jsToCString ctx exception)
  if (← jsValueGetTag exception) = JSTag.OBJECT then
    let stack ← jsGetPropertyStr ctx exception (toNativeUtf8 (units "stack"))
    let err ←
      if (← jsToBool stack) ≠ 0 then do
        let trace ← dartString (← jsToCString ctx stack)
        pure (err ++ units "\n" ++ trace)
      else pure err
    jsFreeValue stack
    return err
  else
    return err

/-- The rounds of the array loop, from index `i` on. -/
def arrayLoop (convert : JSRef → Action DartVal) (ctx : Ctx) (val : Ptr) (list : Nat) :
    (rounds i : Nat) → Action Unit
  | 0, _ => return ()
  | rounds + 1, i => do
    let jval ← toDartJSValue ctx (← jsGetPropertyUint32 ctx val i) false
    let element ← convert jval
    perform (.listAdd list element)
    match ← perform (.listGet list i) with
    | none => throw .rangeError
    | some (.hostFunction _) => arrayLoop convert ctx val list rounds (i+1)
    | some _ =>
      jval.release
      arrayLoop convert ctx val list rounds (i+1)

/-- A key of a `Map<String, dynamic>` without null safety. -/
def mapKey : DartVal → Action MapKey
  | .string s => return .string s
  | .null => return .null
  | _ => throw .typeError

def toDartValueFromJs (convert : JSRef → Action DartVal) (ctx : Ctx) (val : Ptr) :
    Action DartVal := do
  convert (← toDartJSValue ctx val false)

def freeUnlessFunction (val : Ptr) : Action Unit := do
  if ← jsIsFunction val then return () else jsFreeValue val

/-- The rounds of the map loop, from property `i` on. -/
def mapLoop (convert : JSRef → Action DartVal) (ctx : Ctx) (val : Ptr) (map table : Nat) :
    (rounds i : Nat) → Action Unit
  | 0, _ => return ()
  | rounds + 1, i => do
    let jsAtom ← jsPropertyEnumGetAtom table i
    let jsAtomValue ← jsAtomToValue jsAtom
    let jsProp ← jsGetProperty ctx val jsAtom
    let key ← toDartValueFromJs convert ctx jsAtomValue
    let value ← toDartValueFromJs convert ctx jsProp
    perform (.mapPut map (← mapKey key) value)
    jsFreeValue jsAtomValue
    freeUnlessFunction jsProp
    jsFreeAtom jsAtom
    mapLoop convert ctx val map table rounds (i+1)

/-- The object branch, once the cache is there. -/
def objectValue (convert : JSRef → Action DartVal) (ctx : Ctx) (val : Ptr) (valptr : ObjRef)
    (cache : Nat) : Action DartVal := do
  match ← perform (.cacheFind cache valptr) with
  | some cached => return cached
  | none =>
    if ← jsIsFunction val then
      let retValue := HostFunction.new (.wrapper ctx val)
      perform (.handOut retValue)
      return .hostFunction retValue
    else if (← jsIsArray ctx val) ≠ 0 then
      let length ← jsToInt32 ctx
        (← jsGetPropertyStr ctx val (toNativeUtf8 (units "length")))
      let list ← perform .newList
      perform (.cachePut cache valptr (.list list))
      arrayLoop convert ctx val list length.toInt.toNat 0
      perform (.listDone list)
      return .list list
    else
      let map ← perform .newMap
      let ptab ← perform .callocCell
      let plen ← perform .callocCell
      perform (.cachePut cache valptr (.map map))
      if (← jsGetOwnPropertyNames ctx ptab plen val) = 0 then
        let length ← perform (.loadCell plen)
        let table ← perform (.loadCell ptab)
        mapLoop convert ctx val map table length 0
      perform (.callocFreeCell ptab)
      perform (.callocFreeCell plen)
      return .map map

/-- The recursion goes as deep as the Dart stack, which the first argument bounds. -/
def toDartValue : Nat → JSRef → Option Nat → Action DartVal
  | 0, _, _ => throw .stackOverflowError
  | n + 1, jsval, cache => do
    let ctx := jsval.ctx
    let val := jsval.val
    let tag ← jsValueGetTag val
    if tag = JSTag.INT then
      return .int (← jsToInt64 ctx val)
    else if tag = JSTag.BOOL then
      return .bool ((← jsToBool val) ≠ 0)
    else if tag = JSTag.NULL ∨ tag = JSTag.UNDEFINED then
      return .null
    else if tag = JSTag.EXCEPTION then
      let exception ← jsGetException ctx
      let retValue ← toDartException ctx exception
      jsFreeValue exception
      return .exception retValue
    else if tag = JSTag.FLOAT64 then
      return .double (← jsToFloat64 ctx val)
    else if tag = JSTag.STRING then
      return .string (← dartString (← jsToCString ctx val))
    else if tag = JSTag.OBJECT then
      let valptr ← jsValueGetPtr val
      let cache ← match cache with
        | some c => pure c
        | none => perform (.newCache valptr)
      objectValue (fun jval => toDartValue n jval (some cache)) ctx val valptr cache
    else
      perform .warn
      return .null

/-- The rounds of the list branch; `val.length` is read again before each. -/
def elementLoop (convert : DartVal → Action Ptr) (ctx : Ctx) (jsVal : Ptr) (list : Nat) :
    (rounds i : Nat) → Action Unit
  | 0, _ => throw .stackOverflowError
  | rounds + 1, i => do
    if i < (← perform (.listLength list)) then
      match ← perform (.listGet list i) with
      | none => throw .rangeError
      | some v =>
        let element ← convert v
        let _ ← jsDefinePropertyValueUint32 ctx jsVal i element JSProp.C_W_E
        elementLoop convert ctx jsVal list rounds (i+1)
    else return ()

/-- `Map.forEach`, which checks before each round that the map still has the same keys. -/
def entryLoop (convert : DartVal → Action Ptr) (ctx : Ctx) (jsVal : Ptr) (map : Nat)
    (keys : List MapKey) : (rounds : Nat) → Action Unit
  | 0 => do
    if (← perform (.mapEntries map)).map Prod.fst ≠ keys then
      throw .concurrentModificationError
  | rounds + 1 => do
    let entries ← perform (.mapEntries map)
    if entries.map Prod.fst ≠ keys then
      throw .concurrentModificationError
    else
      match entries[keys.length - (rounds + 1)]? with
      | none => return ()
      | some (key,value) =>
        let prop ← convert value
        let _ ← jsSetPropertyStr ctx jsVal (toNativeUtf8 key.toString) prop
        entryLoop convert ctx jsVal map keys rounds

end ValueConverter

namespace HostFunctionProxy

/-- The constructor; the result is the callback id. -/
def new (ctx : Ctx) (func : DartFunction) : Action Nat := do
  if !(← perform .initialized) then
    registerGlobalDartCallback
    perform .setInitialized
  let funcList ← perform (.hostFunctions ctx)
  let funcList := funcList.getD [] ++ [HostFunction.new (.function func)]
  perform (.setHostFunctions ctx (some funcList))
  return funcList.length - 1

end HostFunctionProxy

namespace ValueConverter

/-- The first argument bounds the depth of the stack and the rounds over a list. -/
def toQuickJSValue : Nat → Ctx → DartVal → Action Ptr
  | 0, _, _ => throw .stackOverflowError
  | n + 1, ctx, val =>
    match val with
    | .null => jsUndefined
    | .bool b => jsNewBool b
    | .int i => jsNewInt64 i
    | .double d => jsNewFloat64 d
    | .string s => jsNewString (toNativeUtf8 s)
    | .map m => do
      let jsVal ← jsNewObject ctx
      let keys := (← perform (.mapEntries m)).map Prod.fst
      entryLoop (toQuickJSValue n ctx) ctx jsVal m keys keys.length
      return jsVal
    | .list l => do
      let jsVal ← jsNewArray ctx
      elementLoop (toQuickJSValue n ctx) ctx jsVal l n 0
      return jsVal
    | .function f => do
      let id ← HostFunctionProxy.new ctx f
      let jsVal ← createFunctionFromDart ctx id
      perform (.origin jsVal f)
      return jsVal
    | _ => do
      perform .warn
      jsUndefined

end ValueConverter

namespace JSFunction

open ValueConverter

def argumentLoop (convert : DartVal → Action Ptr) (argv : Nat) :
    (i : Nat) → List DartVal → Action Unit
  | _, [] => return ()
  | i, argument :: rest => do
    let v ← convert argument
    setValueAtIndex argv i v
    argumentLoop convert argv (i+1) rest

def callFunction (fuel : Nat) (ctx : Ctx) (jsfunc : Ptr) (arguments : List DartVal) :
    Action JSRef := do
  let argc := arguments.length
  let argv ← perform (.calloc argc)
  argumentLoop (toQuickJSValue fuel ctx) argv 0 arguments
  let global ← jsGetGlobalObject ctx
  let retVal ← jsCall ctx jsfunc global argc argv
  jsFreeValue global
  perform (.callocFree argv)
  toDartJSValue ctx retVal false

def clearCacheLoop (ctx : Ctx) : (rounds i : Nat) → Action Unit
  | 0, _ => return ()
  | rounds + 1, i => do
    match ← perform (.jsFunctions ctx) with
    | none => throw .noSuchMethodError
    | some ptrs =>
      match ptrs[i]? with
      | none => throw .rangeError
      | some p =>
        jsFreeValue p
        clearCacheLoop ctx rounds (i+1)

def clearCache (ctx : Ctx) : Action Unit := do
  let length := ((← perform (.jsFunctions ctx)).map List.length).getD 0
  clearCacheLoop ctx length 0
  if (← perform (.jsFunctions ctx)).isSome then
    perform (.setJSFunctions ctx (some []))
  perform (.setJSFunctions ctx none)

end JSFunction

/-- The closure that `toDartValue` makes for a function. -/
def wrapperCall (fuel : Nat) (ctx : Ctx) (val : Ptr) (arguments : List DartVal) :
    Action DartVal := do
  let resJval ← JSFunction.callFunction fuel ctx val arguments
  let res ← ValueConverter.toDartValue fuel resJval none
  resJval.release
  match res with
  | .exception message => throw (.exception message)
  | res => return res

/-- `Function.apply(_onCall, params)`; the closure takes its arguments as one list. -/
def HostFunction.apply (fuel : Nat) (h : HostFunction) (params : List DartVal) :
    Action DartVal :=
  match h.onCall with
  | .function f => do
    match ← perform (.apply f params) with
    | .ok v => return v
    | .error e => throw e
  | .wrapper ctx val =>
    match params with
    | [.list l] => do wrapperCall fuel ctx val (← perform (.listElements l))
    | [.null] => throw .noSuchMethodError
    | [_] => throw .typeError
    | _ => throw .noSuchMethodError

/-- `noSuchMethod` for `call`: `_onCall` gets the positional arguments as one list. -/
def HostFunction.noSuchMethod (fuel : Nat) (h : HostFunction) (arguments : List DartVal) :
    Action DartVal :=
  match h.onCall with
  | .function f => do
    let l ← perform .newList
    arguments.forM fun argument => perform (.listAdd l argument)
    perform (.listDone l)
    match ← perform (.apply f [.list l]) with
    | .ok v => return v
    | .error e => throw e
  | .wrapper ctx val => wrapperCall fuel ctx val arguments

namespace HostFunctionProxy

open ValueConverter

/-- The parameters from index `i` on; those JS did not pass are null. -/
def parameterLoop (fuel : Nat) (ctx : Ctx) (argc argv : Nat) :
    (rounds i : Nat) → Action (List DartVal)
  | 0, _ => return []
  | rounds + 1, i => do
    let param ←
      if i < argc then
        toDartValueFromJs (fun jval => toDartValue fuel jval none) ctx (getValueAtIndex argv i)
      else pure .null
    let params ← parameterLoop fuel ctx argc argv rounds (i+1)
    return param :: params

/-- The `try` block of `functionCallback`. -/
def dispatch (fuel : Nat) (ctx : Ctx) (argc argv : Nat) (callbackId : Int32) : Action Ptr := do
  match ← perform (.hostFunctions ctx) with
  | none => throw .noSuchMethodError
  | some funcList =>
    if callbackId.toInt < 0 then throw .rangeError
    else
      match funcList[callbackId.toInt.toNat]? with
      | none => throw .rangeError
      | some hostFunction =>
        let params ← parameterLoop fuel ctx argc argv hostFunction.argNum 0
        let ret ← hostFunction.apply fuel params
        toQuickJSValue fuel ctx ret

def functionCallback (fuel : Nat) (ctx : Ctx) (_thisVal : Ptr) (argc argv : Nat)
    (callbackId : Int32) : Action Ptr := do
  let jsVal ← jsUndefined
  try
    dispatch fuel ctx argc argv callbackId
  catch e =>
    match ← perform (.print e) with
    | .ok _ => pure jsVal
    | .error e => throw e

def clearCache (ctx : Ctx) : Action Unit := do
  if (← perform (.hostFunctions ctx)).isSome then
    perform (.setHostFunctions ctx (some []))
  perform (.setHostFunctions ctx none)

end HostFunctionProxy

end FlutterQuickjs.Binding
