import FlutterQuickjs.Binding.Convert

namespace FlutterQuickjs.Binding

open Engine ValueConverter

variable [PackageFfi]

namespace JSObject

/-- An integer is read as an index of 32 bits, a string by its text; other names are reported. -/
def getProperty (self : JSRef) : (propName : DartVal) → Action (Option JSRef)
  | .int propName => do
    let prop ← jsGetPropertyUint32 self.ctx self.val propName.toUInt64.toNat
    let jsval ← toDartJSValue self.ctx prop false
    return some jsval
  | .string propName => do
    let prop ← jsGetPropertyStr self.ctx self.val (toNativeUtf8 propName)
    let jsval ← toDartJSValue self.ctx prop false
    return some jsval
  | _ => do
    perform .warn
    return none

/-- `self[name₁][name₂]…`. The class `JSValue` and `null` have no such operator. -/
def lookup (self : JSRef) : List DartVal → Action JSRef
  | [] => return self
  | propName :: names =>
    if self.cls = .value then throw .noSuchMethodError
    else do
      match ← getProperty self propName with
      | some prop => lookup prop names
      | none => throw .noSuchMethodError

end JSObject

/-- `toDartValue` of the class `JSValue`; `_value` is what an earlier call kept. -/
def JSRef.toDartValue (fuel : Nat) (self : JSRef) (_value : DartVal) : Action DartVal :=
  if _value = .null then ValueConverter.toDartValue fuel self none else return _value

end FlutterQuickjs.Binding
