import FlutterQuickjs.Binding.Reading

namespace FlutterQuickjs.Binding

open Engine ValueConverter
open Effect

/-- What the decoder does: it reads, fills maps and caches, and gives references back. -/
def Decoding : Op → Prop
  | .freeValue _ => True
  | .delete _ => True
  | .mapPut _ _ _ => True
  | .cachePut _ _ _ => True
  | op => Reading op

theorem decoding_of_releasing {op : Op} (releasing : Releasing op) : Decoding op := by
  cases op with
  | freeValue v => trivial
  | delete p => trivial
  | mapPut m k v => trivial
  | cachePut c o v => trivial
  | cacheFind c o => exact releasing.elim
  | newList => exact releasing.elim
  | listAdd l v => exact releasing.elim
  | listGet l i => exact releasing.elim
  | listDone l => exact releasing.elim
  | _ => exact releasing

theorem decoding_of_looking {op : Op} (looking : Looking op) : Decoding op :=
  decoding_of_releasing looking.releasing

section

variable {ctx : Ctx} {val : Ptr}

theorem decoding_toDartJSValue : (toDartJSValue ctx val false).Within Decoding :=
  .mono within_toDartJSValue fun _ => decoding_of_looking

theorem decoding_jsFreeValue : (jsFreeValue val).Within Decoding :=
  .mono within_jsFreeValue fun _ => decoding_of_releasing

theorem decoding_toDartValueFromJs {convert : JSRef → Action DartVal}
    (each : ∀ jval, (convert jval).Within Decoding) :
    (toDartValueFromJs convert ctx val).Within Decoding :=
  .bind decoding_toDartJSValue each

theorem decoding_mapKey (v : DartVal) : (mapKey v).Within Decoding := by
  cases v with
  | string s => exact .pure _
  | null => exact .pure _
  | _ => exact .throw _

theorem decoding_arrayLoop {convert : JSRef → Action DartVal}
    (each : ∀ jval, (convert jval).Within Decoding) (list rounds i : Nat) :
    (arrayLoop convert ctx val list rounds i).Within Decoding := by
  induction rounds generalizing i with
  | zero => exact .pure _
  | succ rounds ih =>
    refine .bind (.mono within_jsGetProperty fun _ => decoding_of_looking) fun p => ?_
    refine .bind decoding_toDartJSValue fun jval => .bind (each jval) fun element => ?_
    refine .bind (.call trivial) fun _ => .bind (.call trivial) fun found => ?_
    cases found with
    | none => exact .throw _
    | some v =>
      cases v with
      | hostFunction f => exact ih (i+1)
      | _ => exact .bind decoding_jsFreeValue fun _ => ih (i+1)

theorem decoding_mapLoop {convert : JSRef → Action DartVal}
    (each : ∀ jval, (convert jval).Within Decoding) (map table rounds i : Nat) :
    (mapLoop convert ctx val map table rounds i).Within Decoding := by
  induction rounds generalizing i with
  | zero => exact .pure _
  | succ rounds ih =>
    refine .bind (.call trivial) fun atom => ?_
    refine .bind (.mono within_jsAtomToValue fun _ => decoding_of_looking) fun atomValue => ?_
    refine .bind (.mono within_jsGetProperty fun _ => decoding_of_looking) fun prop => ?_
    refine .bind (decoding_toDartValueFromJs each) fun key => ?_
    refine .bind (decoding_toDartValueFromJs each) fun value => ?_
    refine .bind (decoding_mapKey key) fun k => .bind (.call trivial) fun _ => ?_
    refine .bind decoding_jsFreeValue fun _ => ?_
    refine .bind (.mono within_freeUnlessFunction fun _ => decoding_of_releasing) fun _ => ?_
    exact .bind (.call trivial) fun _ => ih (i+1)

variable [PackageFfi]

theorem decoding_objectValue {convert : JSRef → Action DartVal}
    (each : ∀ jval, (convert jval).Within Decoding) (valptr : ObjRef) (cache : Nat) :
    (objectValue convert ctx val valptr cache).Within Decoding := by
  refine .bind (.call trivial) fun found => ?_
  cases found with
  | some cached => exact .pure _
  | none =>
    refine .bind (.mono within_jsIsFunction fun _ => decoding_of_looking) fun function => ?_
    refine .ite (.bind (.call trivial) fun _ => .pure _) ?_
    refine .bind (.mono within_jsIsArray fun _ => decoding_of_looking) fun array => .ite ?_ ?_
    · rw [jsGetPropertyStr_length]
      refine .bind (.mono within_jsGetProperty fun _ => decoding_of_looking) fun p => ?_
      refine .bind (.mono within_jsToInt32 fun _ => decoding_of_looking) fun length => ?_
      refine .bind (.call trivial) fun list => .bind (.call trivial) fun _ => ?_
      refine .bind (decoding_arrayLoop each list _ 0) fun _ => ?_
      exact .bind (.call trivial) fun _ => .pure _
    · refine .bind (.call trivial) fun map => .bind (.call trivial) fun ptab => ?_
      refine .bind (.call trivial) fun plen => .bind (.call trivial) fun _ => ?_
      refine .bind (.mono within_jsGetOwnPropertyNames fun _ => decoding_of_looking) fun code => ?_
      have last : Program.Within Decoding (do
          perform (.callocFreeCell ptab)
          perform (.callocFreeCell plen)
          return .map map : Action DartVal) :=
        .bind (.call trivial) fun _ => .bind (.call trivial) fun _ => .pure _
      refine .ite ?_ last
      refine .bind (.call trivial) fun length => .bind (.call trivial) fun table => ?_
      exact .bind (decoding_mapLoop each map table length 0) fun _ => last

theorem decoding_toDartValue (n : Nat) (jval : JSRef) (cache : Option Nat) :
    (toDartValue n jval cache).Within Decoding := by
  induction n generalizing jval cache with
  | zero => exact .throw _
  | succ n ih =>
    refine .bind (.mono within_jsValueGetTag fun _ => decoding_of_looking) fun tag => ?_
    refine .ite (.bind (.mono within_jsToInt64 fun _ => decoding_of_looking) fun _ => .pure _) ?_
    refine .ite (.bind (.mono within_jsToBool fun _ => decoding_of_looking) fun _ => .pure _) ?_
    refine .ite (.pure _) (.ite ?_ ?_)
    · refine .bind (.mono within_jsGetException fun _ => decoding_of_looking) fun exception => ?_
      refine .bind (.mono within_toDartException fun _ => decoding_of_releasing) fun message => ?_
      exact .bind decoding_jsFreeValue fun _ => .pure _
    refine .ite (.bind (.mono within_jsToFloat64 fun _ => decoding_of_looking) fun _ => .pure _) ?_
    refine .ite ?_ (.ite ?_ (.bind (.call trivial) fun _ => .pure _))
    · refine .bind (.mono within_jsToCString fun _ => decoding_of_looking) fun bytes => ?_
      exact .bind (.mono (within_dartString bytes) fun _ => decoding_of_looking) fun _ => .pure _
    · refine .bind (.mono within_jsValueGetPtr fun _ => decoding_of_looking) fun valptr => ?_
      cases cache with
      | some c => exact .bind (.pure c) fun c => decoding_objectValue (fun jval => ih jval _) valptr c
      | none =>
        exact .bind (.call trivial) fun c => decoding_objectValue (fun jval => ih jval _) valptr c

end

/-- Operations that neither enter a script or function nor call a Dart function. -/
def Inner : Op → Prop
  | .eval _ _ _ => False
  | .call _ _ _ _ _ => False
  | .apply _ _ => False
  | _ => True

/-- What the encoder does: it makes and fills JS objects, and registers functions. -/
def Sending : Op → Prop
  | .new _ => True
  | .load _ => True
  | .newObject _ => True
  | .newArray _ => True
  | .newString _ => True
  | .findAtom _ => True
  | .setProperty _ _ _ _ => True
  | .defineIndex _ _ _ _ _ => True
  | .newCFunctionData _ _ => True
  | .registerCallback => True
  | .listGet _ _ => True
  | .listLength _ => True
  | .mapEntries _ => True
  | .hostFunctions _ => True
  | .setHostFunctions _ _ => True
  | .initialized => True
  | .setInitialized => True
  | .origin _ _ => True
  | .warn => True
  | _ => False

theorem inner_of_sending {op : Op} (sending : Sending op) : Inner op := by
  cases op with
  | eval ctx input filename => exact sending.elim
  | call ctx f this argc argv => exact sending.elim
  | apply f params => exact sending.elim
  | _ => trivial

theorem inner_of_decoding {op : Op} (decoding : Decoding op) : Inner op := by
  cases op with
  | eval ctx input filename => exact decoding.elim
  | call ctx f this argc argv => exact decoding.elim
  | apply f params => exact decoding.elim
  | _ => trivial

variable {ctx : Ctx} {val : Ptr}

theorem inner_toDartJSValue : (toDartJSValue ctx val false).Within Inner :=
  .mono decoding_toDartJSValue fun _ => inner_of_decoding

theorem inner_jsFreeValue : (jsFreeValue val).Within Inner :=
  .mono decoding_jsFreeValue fun _ => inner_of_decoding

theorem inner_toDartValueFromJs {convert : JSRef → Action DartVal}
    (each : ∀ jval, (convert jval).Within Inner) :
    (toDartValueFromJs convert ctx val).Within Inner :=
  .bind inner_toDartJSValue each

theorem sending_elementLoop {convert : DartVal → Action Ptr} (each : ∀ v, (convert v).Within Sending)
    (list rounds i : Nat) : (elementLoop convert ctx val list rounds i).Within Sending := by
  induction rounds generalizing i with
  | zero => exact .throw _
  | succ rounds ih =>
    refine .bind (.call trivial) fun length => .ite ?_ (.pure _)
    refine .bind (.call trivial) fun found => ?_
    cases found with
    | none => exact .throw _
    | some v =>
      refine .bind (each v) fun element => .bind ?_ fun _ => ih (i+1)
      exact .bind (.call trivial) fun _ => .bind (.call trivial) fun _ => .call trivial

theorem sending_new (f : DartFunction) : (HostFunctionProxy.new ctx f).Within Sending := by
  have rest : Program.Within Sending (do
      let funcList ← perform (.hostFunctions ctx)
      let funcList := funcList.getD [] ++ [HostFunction.new (.function f)]
      perform (.setHostFunctions ctx (some funcList))
      return funcList.length - 1 : Action Nat) :=
    .bind (.call trivial) fun _ => .bind (.call trivial) fun _ => .pure _
  refine .bind (.call trivial) fun initialized => .ite ?_ rest
  exact .bind (.call trivial) fun _ => .bind (.call trivial) fun _ => rest

theorem sending_newAtom (name : CString) : (newAtom name).Within Sending :=
  .ite (.pure _) (.call trivial)

theorem sending_jsSetPropertyStr (name : CString) (p x : Ptr) :
    (jsSetPropertyStr ctx p name x).Within Sending :=
  .bind (.call trivial) fun _ => .bind (.call trivial) fun _ =>
    .bind (sending_newAtom name) fun _ => .call trivial

variable [PackageFfi]

theorem sending_entryLoop {convert : DartVal → Action Ptr} (each : ∀ v, (convert v).Within Sending)
    (map : Nat) (keys : List MapKey) (rounds : Nat) :
    (entryLoop convert ctx val map keys rounds).Within Sending := by
  induction rounds with
  | zero => exact .bind (.call trivial) fun entries => .ite (.throw _) (.pure _)
  | succ rounds ih =>
    refine .bind (.call trivial) fun entries => .ite (.throw _) ?_
    split
    · exact .pure _
    · exact .bind (each _) fun prop => .bind (sending_jsSetPropertyStr _ _ prop) fun _ => ih

theorem sending_toQuickJSValue (n : Nat) (v : DartVal) : (toQuickJSValue n ctx v).Within Sending := by
  induction n generalizing v with
  | zero => exact .throw _
  | succ n ih =>
    cases v with
    | null => exact .call trivial
    | bool b => exact .call trivial
    | int i => exact .call trivial
    | double d => exact .call trivial
    | string s => exact .bind (.call trivial) fun _ => .call trivial
    | map m =>
      refine .bind (.bind (.call trivial) fun _ => .call trivial) fun jsVal => ?_
      exact .bind (.call trivial) fun _ => .bind (sending_entryLoop ih m _ _) fun _ => .pure _
    | list l =>
      refine .bind (.bind (.call trivial) fun _ => .call trivial) fun jsVal => ?_
      exact .bind (sending_elementLoop ih l n 0) fun _ => .pure _
    | function f =>
      refine .bind (sending_new f) fun id => ?_
      refine .bind (.bind (.call trivial) fun _ => .call trivial) fun jsVal => ?_
      exact .bind (.call trivial) fun _ => .pure _
    | _ => exact .bind (.call trivial) fun _ => .call trivial

theorem inner_toDartValue (n : Nat) (jval : JSRef) (cache : Option Nat) :
    (toDartValue n jval cache).Within Inner :=
  .mono (decoding_toDartValue n jval cache) fun _ => inner_of_decoding

theorem inner_toQuickJSValue (n : Nat) (v : DartVal) : (toQuickJSValue n ctx v).Within Inner :=
  .mono (sending_toQuickJSValue n v) fun _ => inner_of_sending

theorem inner_argumentLoop (fuel argv i : Nat) (arguments : List DartVal) :
    (JSFunction.argumentLoop (toQuickJSValue fuel ctx) argv i arguments).Within Inner := by
  induction arguments generalizing i with
  | nil => exact .pure _
  | cons argument rest ih =>
    refine .bind (inner_toQuickJSValue fuel argument) fun v => ?_
    exact .bind (.bind (.call trivial) fun _ => .call trivial) fun _ => ih (i+1)

theorem inner_parameterLoop (fuel argc argv rounds i : Nat) :
    (HostFunctionProxy.parameterLoop fuel ctx argc argv rounds i).Within Inner := by
  induction rounds generalizing i with
  | zero => exact .pure _
  | succ rounds ih =>
    have rest : ∀ param : DartVal, Program.Within Inner (do
        let params ← HostFunctionProxy.parameterLoop fuel ctx argc argv rounds (i+1)
        return param :: params : Action (List DartVal)) := fun param =>
      .bind (ih (i+1)) fun _ => .pure _
    refine .ite ?_ (.bind (.pure _) rest)
    exact .bind (inner_toDartValueFromJs fun jval => inner_toDartValue fuel jval none) rest

end FlutterQuickjs.Binding
