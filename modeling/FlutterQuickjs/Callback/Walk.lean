import FlutterQuickjs.Binding.Entering
import FlutterQuickjs.Callback.Propagation
import FlutterQuickjs.Framework.Interleave

namespace FlutterQuickjs.Callback

open Engine Binding ValueConverter HostFunctionProxy
open Effect

/-- A function of JS over a Dart function is called: the engine lends the arguments. -/
def called [PackageFfi] (fuel : Nat) (cf : CFunction) (this : JSValue) (args : List JSValue) :
    Action JSValue := do
  let argv ← perform (.lendArguments args)
  dartCallback (functionCallback fuel) cf.ctx this args.length argv cf.callbackId

theorem onCall_new (onCall : OnCall) : (HostFunction.new onCall).onCall = onCall := by
  simp only [HostFunction.new]
  split <;> rfl

/-- Operations other than those that open or close a context, register a function, or make or fill
an argument vector of the binding's own. -/
def Usual : Op → Prop
  | .newContext => False
  | .freeRuntime _ => False
  | .newCFunctionData _ _ => False
  | .origin _ _ => False
  | .setHostFunctions _ _ => False
  | .setJSFunctions _ _ => False
  | .registerCallback => False
  | .setInitialized => False
  | .calloc _ => False
  | .store _ _ _ => False
  | _ => True

/-- The Dart function `f` was put at the end of the list of its context, and has a function object
in a new box. -/
structure Enrolls (w : World) (ctx : Ctx) (f : DartFunction) (w' : World) : Prop where
  object : ∃ o : ObjRef, o.serial = w.serial ∧ w' = { w with
    boxes := w.boxes ++ [.object o]
    heap := w'.heap
    held := w'.held
    serial := w.serial + 1
    cfunctions := w.cfunctions ++ [⟨o,ctx,Int32.ofNat ((w.hostFunctionCache ctx).getD []).length⟩]
    origins := w.origins ++ [(o,f)]
    hostFunctionCache := Function.update w.hostFunctionCache ctx
      (some ((w.hostFunctionCache ctx).getD [] ++ [HostFunction.new (.function f)]))
    callbackRegistered := w'.callbackRegistered
    initialized := true }
  registered : (w.initialized = true → w.callbackRegistered = true) → w'.callbackRegistered = true

/-- What the steps of the binding's programs keep: `R`, along which `J` stays true, in the contexts
that programs may use and with argument vectors of their own. Foreign code finds `I`. -/
structure Walk (I J : World → Prop) (R : World → World → Prop) (may : Ctx → Prop)
    (Own : Nat → Prop) : Prop extends Keeping J R where
  implies : ∀ {w}, J w → I w
  usual : ∀ {op : Op} {w : World} {r : Reply op} {w' : World}, Usual op → J w →
    env.answers (env.calling I R) op w r w' → R w w'
  registers : ∀ {ctx w f w'}, may ctx → J w → Enrolls w ctx f w' → R w w'
  remembers : ∀ {ctx w} val, may ctx → J w → R w { w with
    jsFunctionCache := Function.update w.jsFunctionCache ctx
      (some ((w.jsFunctionCache ctx).getD [] ++ [val])) }
  callocs : ∀ {w} vector, J w → R w { w with arrays := w.arrays ++ [vector] }
  owns : ∀ {w}, J w → Own w.arrays.length
  stores : ∀ {w argv} i v, Own argv → J w →
    R w { w with arrays := w.arrays.modify argv (·.set i v) }
  hosts : ∀ {ctx w funcs}, may ctx → J w → w.hostFunctionCache ctx = some funcs →
    ∀ host ∈ funcs, ∀ c p, host.onCall = .wrapper c p → may c

section

variable {I J : World → Prop} {R : World → World → Prop}

/-- An operation whose answer follows from the world hands no control to foreign code. -/
theorem calling_answer (op : Op) {Q : Except DartError (Reply op) → World → Prop} {w : World}
    {r : Reply op} {w' : World} (known : answer op w = some (r,w')) :
    wp env (env.calling I R) (perform op) Q w ↔ Q (.ok r) w' := by
  have own : env.foreign op w → I w := fun runs => absurd runs (own_of_answer known)
  rw [wp_perform, known, continues_some]
  exact ⟨fun verified => verified.2.2 trivial, fun holds => ⟨own, fun _ => trivial, fun _ => holds⟩⟩

/-- The function `f` was put at the end of the list of its context. -/
structure Listed (w : World) (ctx : Ctx) (f : DartFunction) (w' : World) : Prop where
  rest : w' = { w with
    hostFunctionCache := Function.update w.hostFunctionCache ctx
      (some ((w.hostFunctionCache ctx).getD [] ++ [HostFunction.new (.function f)]))
    callbackRegistered := w'.callbackRegistered
    initialized := true }
  registered : (w.initialized = true → w.callbackRegistered = true) → w'.callbackRegistered = true

/-- A function object was made for the function `f` at `id`. -/
def Created (w : World) (ctx : Ctx) (id : Nat) (f : DartFunction) (w' : World) : Prop :=
  ∃ o : ObjRef, o.serial = w.serial ∧ w' = { w with
    boxes := w.boxes ++ [.object o]
    heap := w'.heap
    held := w'.held
    serial := w.serial + 1
    cfunctions := w.cfunctions ++ [⟨o,ctx,Int32.ofNat id⟩]
    origins := w.origins ++ [(o,f)] }

variable {ctx : Ctx} {f : DartFunction} {w w₁ w₂ : World}

theorem Created.registers
    (created : Created w₁ ctx ((w.hostFunctionCache ctx).getD []).length f w₂)
    (listed : Listed w ctx f w₁) : Enrolls w ctx f w₂ := by
  obtain ⟨o, young, same⟩ := created
  have first := listed.rest
  have kept : w₂.callbackRegistered = w₁.callbackRegistered := by rw [same]
  refine ⟨⟨o, ?_, ?_⟩, fun started => kept.trans (listed.registered started)⟩
  · rw [young, first]
  · rw [same, first]

theorem answer_origin {p : Ptr} {o : ObjRef} (holds : w.value p = .object o) :
    answer (.origin p f) w = some ((), { w with origins := w.origins ++ [(o,f)] }) := by
  simp only [answer, holds]

theorem wp_created {id : Nat} {Q : Except DartError Ptr → World → Prop}
    (rest : ∀ p w', Created w ctx id f w' → Q (.ok p) w') :
    wp env (env.calling I R) (do
      let jsVal ← createFunctionFromDart ctx id
      perform (.origin jsVal f)
      return jsVal) Q w := by
  have own : ¬foreign (.newCFunctionData ctx (Int32.ofNat id)) w := fun runs => runs
  have unknown : answer (.newCFunctionData ctx (Int32.ofNat id)) w = none := rfl
  rw [wp_bind, createFunctionFromDart, wp_bind, wp_choice own unknown]
  refine ⟨fun runs => absurd runs own, False.elim, fun r w₁ _ chosen => ?_⟩
  obtain ⟨address, -, rfl, rfl⟩ := chosen
  rw [andThen_ok, calling_answer (.new _) rfl, andThen_ok, wp_bind]
  refine (calling_answer _ (answer_origin (o := ⟨address,w.serial,.function⟩) ?_)).mpr ?_
  · simp [World.value]
  · exact rest _ _ ⟨⟨address,w.serial,.function⟩, rfl, rfl⟩

theorem wp_new {Q : Except DartError Nat → World → Prop}
    (rest : ∀ w', Listed w ctx f w' → Q (.ok ((w.hostFunctionCache ctx).getD []).length) w') :
    wp env (env.calling I R) (HostFunctionProxy.new ctx f) Q w := by
  rw [HostFunctionProxy.new, wp_bind, calling_answer .initialized rfl, andThen_ok]
  cases init : w.initialized with
  | true =>
    simp only [Bool.not_true, Bool.false_eq_true, if_false]
    rw [wp_bind, calling_answer (.hostFunctions ctx) rfl, andThen_ok, wp_bind,
      calling_answer (.setHostFunctions ctx _) rfl, andThen_ok, wp_pure, List.length_append]
    refine rest _ ⟨?_, fun started => started init⟩
    rw [← init]
  | false =>
    simp only [Bool.not_false, if_true]
    rw [wp_bind, registerGlobalDartCallback, calling_answer .registerCallback rfl, andThen_ok,
      wp_bind, calling_answer .setInitialized rfl, andThen_ok, wp_bind,
      calling_answer (.hostFunctions ctx) rfl, andThen_ok, wp_bind,
      calling_answer (.setHostFunctions ctx _) rfl, andThen_ok, wp_pure, List.length_append]
    exact rest _ ⟨rfl, fun _ => rfl⟩

end

/-- Where `J` holds, all that the program does is along `R`. -/
abbrev Along (I J : World → Prop) (R : World → World → Prop) {α : Type} (p : Action α) : Prop :=
  Guarantees env (env.calling I R) J R p

section

variable {ctx : Ctx} {val : Ptr}

theorem usual_newAtom (name : CString) : (newAtom name).Within Usual := .ite (.pure _) (.call trivial)

theorem usual_jsFreeValue : (jsFreeValue val).Within Usual :=
  .bind (.call trivial) fun _ => .bind (.call trivial) fun _ => .call trivial

theorem usual_toDartException [PackageFfi] : (toDartException ctx val).Within Usual := by
  have text : ∀ bytes, (dartString bytes).Within Usual := by
    intro bytes
    unfold dartString
    split
    · exact .throw _
    · split
      · exact .pure _
      · exact .throw _
  have reads : ∀ p, (jsToCString ctx p).Within Usual := fun p =>
    .bind (.call trivial) fun _ => .call trivial
  have tests : ∀ p, (jsToBool p).Within Usual := fun p => .bind (.call trivial) fun _ => .pure _
  refine .bind (reads val) fun bytes => .bind (text bytes) fun err => ?_
  refine .bind (.bind (.call trivial) fun _ => .pure _) fun tag => .ite ?_ (.pure _)
  refine .bind ?_ fun stack => .bind (tests stack) fun truthy => ?_
  · exact .bind (usual_newAtom _) fun _ =>
      .bind (.call trivial) fun _ => .bind (.call trivial) fun _ => .call trivial
  have rest : ∀ err : Units, Program.Within Usual (do
      jsFreeValue stack
      return err : Action Units) := fun err => .bind usual_jsFreeValue fun _ => .pure err
  refine .ite ?_ (.bind (.pure _) rest)
  exact .bind (reads stack) fun bytes => .bind (text bytes) fun trace => .bind (.pure _) rest

theorem yields_toDartJSValue : (toDartJSValue ctx val false).Yields fun jval => jval.ctx = ctx := by
  have makes : ∀ cls, (JSRef.make cls ctx val false).Yields fun jval => jval.ctx = ctx := by
    intro cls
    refine .bind _ fun val' => .ite ?_ rfl
    exact .bind _ fun _ => .bind _ fun _ => rfl
  refine .bind _ fun function => .ite (makes _) (.bind _ fun array => .ite (makes _) ?_)
  exact .bind _ fun object => .ite (makes _) (makes _)

theorem yields_callFunction [PackageFfi] (fuel : Nat) (arguments : List DartVal) :
    (JSFunction.callFunction fuel ctx val arguments).Yields fun jsval => jsval.ctx = ctx := by
  refine .bind _ fun argv => .bind _ fun _ => .bind _ fun global => .bind _ fun retVal => ?_
  exact .bind _ fun _ => .bind _ fun _ => yields_toDartJSValue

end

namespace Walk

section

variable {I J : World → Prop} {R : World → World → Prop} {may : Ctx → Prop} {Own : Nat → Prop}
  (walk : Walk I J R may Own) {ctx : Ctx} {val : Ptr}

include walk

theorem pure {α : Type} (a : α) : Along I J R (Pure.pure a : Action α) := .pure walk.toKeeping a

theorem throw {α : Type} (e : DartError) : Along I J R (MonadExcept.throw e : Action α) :=
  .throw walk.toKeeping e

theorem bind {α β : Type} {p : Action α} {f : α → Action β} (first : Along I J R p)
    (rest : ∀ a, Along I J R (f a)) : Along I J R (p >>= f) :=
  .bind walk.toKeeping first rest

theorem call {op : Op} (usual : Usual op) : Along I J R (perform op) :=
  .call (fun _ holds _ => walk.implies holds) id fun _ _ _ holds answered =>
    walk.usual usual holds answered

theorem within {α : Type} {p : Action α} (within : p.Within Usual) : Along I J R p :=
  .of_within walk.toKeeping (fun _ usual => walk.call usual) within

theorem make (allowed : may ctx) (cls : JSClass) : Along I J R (JSRef.make cls ctx val false) := by
  by_cases function : cls = .function
  · intro w holds
    simp only [JSRef.make, function, Bool.false_eq_true, if_false, if_true]
    rw [wp_bind, wp_pure, andThen_ok, wp_bind, calling_answer (.jsFunctions ctx) rfl, andThen_ok,
      wp_bind, calling_answer (.setJSFunctions ctx _) rfl]
    exact walk.remembers val allowed holds
  · simp only [JSRef.make, function, Bool.false_eq_true, if_false]
    exact walk.bind (walk.pure _) fun _ => walk.pure _

theorem toDartJSValue (allowed : may ctx) :
    Along I J R (ValueConverter.toDartJSValue ctx val false) := by
  refine walk.bind (walk.within (.bind (.call trivial) fun _ => .pure _)) fun function => ?_
  refine .ite (walk.make allowed _) (walk.bind (walk.within ?_) fun array => ?_)
  · exact .bind (.call trivial) fun _ => .call trivial
  refine .ite (walk.make allowed _) (walk.bind (walk.within ?_) fun object => ?_)
  · exact .bind (.call trivial) fun _ => .pure _
  exact .ite (walk.make allowed _) (walk.make allowed _)

theorem toDartValueFromJs (allowed : may ctx) {convert : JSRef → Action DartVal}
    (each : ∀ jval : JSRef, jval.ctx = ctx → Along I J R (convert jval)) :
    Along I J R (ValueConverter.toDartValueFromJs convert ctx val) :=
  .bindWhere walk.toKeeping (walk.toDartJSValue allowed) yields_toDartJSValue each

theorem jsGetProperty (k : PropKey) : Along I J R (Binding.jsGetProperty ctx val k) :=
  walk.within (.bind (.call trivial) fun _ => .bind (.call trivial) fun _ => .call trivial)

theorem release (val : Ptr) : Along I J R (jsFreeValue val) := walk.within usual_jsFreeValue

theorem arrayLoop (allowed : may ctx) {convert : JSRef → Action DartVal}
    (each : ∀ jval : JSRef, jval.ctx = ctx → Along I J R (convert jval)) (list rounds i : Nat) :
    Along I J R (ValueConverter.arrayLoop convert ctx val list rounds i) := by
  induction rounds generalizing i with
  | zero => exact walk.pure _
  | succ rounds ih =>
    refine walk.bind (walk.jsGetProperty _) fun p => ?_
    refine .bindWhere walk.toKeeping (walk.toDartJSValue allowed) yields_toDartJSValue
      fun jval same => ?_
    refine walk.bind (each jval same) fun element => walk.bind (walk.call trivial) fun _ => ?_
    refine walk.bind (walk.call trivial) fun found => ?_
    cases found with
    | none => exact walk.throw _
    | some v =>
      cases v with
      | hostFunction f => exact ih (i+1)
      | _ => exact walk.bind (walk.release _) fun _ => ih (i+1)

theorem mapLoop (allowed : may ctx) {convert : JSRef → Action DartVal}
    (each : ∀ jval : JSRef, jval.ctx = ctx → Along I J R (convert jval))
    (map table rounds i : Nat) :
    Along I J R (ValueConverter.mapLoop convert ctx val map table rounds i) := by
  induction rounds generalizing i with
  | zero => exact walk.pure _
  | succ rounds ih =>
    refine walk.bind (walk.call trivial) fun atom => walk.bind (walk.within ?_) fun atomValue => ?_
    · exact .bind (.call trivial) fun _ => .call trivial
    refine walk.bind (walk.jsGetProperty _) fun prop => ?_
    refine walk.bind (walk.toDartValueFromJs allowed each) fun key => ?_
    refine walk.bind (walk.toDartValueFromJs allowed each) fun value => ?_
    have keys : Along I J R (mapKey key) := by
      cases key with
      | string s => exact walk.pure _
      | null => exact walk.pure _
      | _ => exact walk.throw _
    refine walk.bind keys fun k => walk.bind (walk.call trivial) fun _ => ?_
    refine walk.bind (walk.release _) fun _ => walk.bind (walk.within ?_) fun _ => ?_
    · exact .bind (.bind (.call trivial) fun _ => .pure _) fun _ => .ite (.pure _) usual_jsFreeValue
    exact walk.bind (walk.call trivial) fun _ => ih (i+1)

variable [PackageFfi]

theorem objectValue (allowed : may ctx) {convert : JSRef → Action DartVal}
    (each : ∀ jval : JSRef, jval.ctx = ctx → Along I J R (convert jval)) (valptr : ObjRef)
    (cache : Nat) : Along I J R (ValueConverter.objectValue convert ctx val valptr cache) := by
  refine walk.bind (walk.call trivial) fun found => ?_
  cases found with
  | some cached => exact walk.pure _
  | none =>
    refine walk.bind (walk.within (.bind (.call trivial) fun _ => .pure _)) fun function => ?_
    refine .ite (walk.bind (walk.call trivial) fun _ => walk.pure _) ?_
    refine walk.bind (walk.within (.bind (.call trivial) fun _ => .call trivial)) fun array => ?_
    refine .ite ?_ ?_
    · rw [jsGetPropertyStr_length]
      refine walk.bind (walk.jsGetProperty _) fun p => walk.bind (walk.within ?_) fun length => ?_
      · exact .bind (.call trivial) fun _ => .call trivial
      refine walk.bind (walk.call trivial) fun list => walk.bind (walk.call trivial) fun _ => ?_
      refine walk.bind (walk.arrayLoop allowed each list _ 0) fun _ => ?_
      exact walk.bind (walk.call trivial) fun _ => walk.pure _
    · refine walk.bind (walk.call trivial) fun map => walk.bind (walk.call trivial) fun ptab => ?_
      refine walk.bind (walk.call trivial) fun plen => walk.bind (walk.call trivial) fun _ => ?_
      refine walk.bind (walk.within ?_) fun code => ?_
      · refine .bind (.call trivial) fun _ => .bind (.call trivial) fun keys => ?_
        cases keys with
        | none => exact .bind (.call trivial) fun _ => .bind (.call trivial) fun _ => .pure _
        | some keys =>
          exact .bind (.call trivial) fun _ => .bind (.call trivial) fun _ =>
            .bind (.call trivial) fun _ => .pure _
      have last : Along I J R (do
          perform (.callocFreeCell ptab)
          perform (.callocFreeCell plen)
          return .map map : Action DartVal) :=
        walk.bind (walk.call trivial) fun _ => walk.bind (walk.call trivial) fun _ => walk.pure _
      refine .ite ?_ last
      refine walk.bind (walk.call trivial) fun length => walk.bind (walk.call trivial) fun table => ?_
      exact walk.bind (walk.mapLoop allowed each map table length 0) fun _ => last

theorem toDartValue (n : Nat) (jval : JSRef) (cache : Option Nat) (allowed : may jval.ctx) :
    Along I J R (ValueConverter.toDartValue n jval cache) := by
  induction n generalizing jval cache with
  | zero => exact walk.throw _
  | succ n ih =>
    refine walk.bind (walk.within (.bind (.call trivial) fun _ => .pure _)) fun tag => ?_
    refine .ite (walk.bind (walk.within (.bind (.call trivial) fun _ => .call trivial))
      fun _ => walk.pure _) ?_
    refine .ite (walk.bind (walk.within (.bind (.call trivial) fun _ => .pure _))
      fun _ => walk.pure _) ?_
    refine .ite (walk.pure _) (.ite ?_ ?_)
    · refine walk.bind (walk.within (.bind (.call trivial) fun _ => .call trivial)) fun exception => ?_
      refine walk.bind (walk.within usual_toDartException) fun message => ?_
      exact walk.bind (walk.release _) fun _ => walk.pure _
    refine .ite (walk.bind (walk.within (.bind (.call trivial) fun _ => .call trivial))
      fun _ => walk.pure _) ?_
    refine .ite ?_ (.ite ?_ (walk.bind (walk.call trivial) fun _ => walk.pure _))
    · refine walk.bind (walk.within (.bind (.call trivial) fun _ => .call trivial)) fun bytes => ?_
      refine walk.bind (walk.within ?_) fun _ => walk.pure _
      unfold dartString
      split
      · exact .throw _
      · split
        · exact .pure _
        · exact .throw _
    · refine walk.bind (walk.within ?_) fun valptr => ?_
      · refine .bind (.call trivial) fun v => ?_
        cases v with
        | object o => exact .pure _
        | _ => exact .pure _
      have inside : ∀ c, Along I J R (ValueConverter.objectValue
          (fun jval' => ValueConverter.toDartValue n jval' (some c)) jval.ctx jval.val valptr c) :=
        fun c => walk.objectValue allowed (fun jval' same => ih jval' _ (by rw [same]; exact allowed))
          valptr c
      cases cache with
      | some c => exact walk.bind (walk.pure c) inside
      | none => exact walk.bind (walk.call trivial) inside

omit [PackageFfi] in
/-- A Dart function is registered as one step: nothing else runs meanwhile. -/
theorem registration (allowed : may ctx) (f : DartFunction) : Along I J R (do
    let id ← HostFunctionProxy.new ctx f
    let jsVal ← createFunctionFromDart ctx id
    perform (.origin jsVal f)
    return jsVal : Action Ptr) := by
  intro w holds
  rw [wp_bind]
  apply wp_new
  intro w₁ listed
  rw [andThen_ok]
  apply wp_created
  intro p w₂ created
  exact walk.registers allowed holds (created.registers listed)

omit [PackageFfi] in
theorem elementLoop {convert : DartVal → Action Ptr} (each : ∀ v, Along I J R (convert v))
    (list rounds i : Nat) : Along I J R (ValueConverter.elementLoop convert ctx val list rounds i) := by
  induction rounds generalizing i with
  | zero => exact walk.throw _
  | succ rounds ih =>
    refine walk.bind (walk.call trivial) fun length => .ite ?_ (walk.pure _)
    refine walk.bind (walk.call trivial) fun found => ?_
    cases found with
    | none => exact walk.throw _
    | some v =>
      refine walk.bind (each v) fun element => walk.bind (walk.within ?_) fun _ => ih (i+1)
      exact .bind (.call trivial) fun _ => .bind (.call trivial) fun _ => .call trivial

theorem entryLoop {convert : DartVal → Action Ptr} (each : ∀ v, Along I J R (convert v))
    (map : Nat) (keys : List MapKey) (rounds : Nat) :
    Along I J R (ValueConverter.entryLoop convert ctx val map keys rounds) := by
  induction rounds with
  | zero => exact walk.bind (walk.call trivial) fun entries => .ite (walk.throw _) (walk.pure _)
  | succ rounds ih =>
    refine walk.bind (walk.call trivial) fun entries => .ite (walk.throw _) ?_
    split
    · exact walk.pure _
    · refine walk.bind (each _) fun prop => walk.bind (walk.within ?_) fun _ => ih
      exact .bind (.call trivial) fun _ => .bind (.call trivial) fun _ =>
        .bind (usual_newAtom _) fun _ => .call trivial

theorem toQuickJSValue (allowed : may ctx) (n : Nat) (v : DartVal) :
    Along I J R (ValueConverter.toQuickJSValue n ctx v) := by
  induction n generalizing v with
  | zero => exact walk.throw _
  | succ n ih =>
    cases v with
    | null => exact walk.call trivial
    | bool b => exact walk.call trivial
    | int i => exact walk.call trivial
    | double d => exact walk.call trivial
    | string s => exact walk.within (.bind (.call trivial) fun _ => .call trivial)
    | map m =>
      refine walk.bind (walk.within (.bind (.call trivial) fun _ => .call trivial)) fun jsVal => ?_
      refine walk.bind (walk.call trivial) fun entries => ?_
      exact walk.bind (walk.entryLoop ih m _ _) fun _ => walk.pure _
    | list l =>
      refine walk.bind (walk.within (.bind (.call trivial) fun _ => .call trivial)) fun jsVal => ?_
      exact walk.bind (walk.elementLoop ih l n 0) fun _ => walk.pure _
    | function f => exact walk.registration allowed f
    | _ => exact walk.bind (walk.call trivial) fun _ => walk.call trivial

theorem argumentLoop (allowed : may ctx) (fuel : Nat) {argv : Nat} (own : Own argv) (i : Nat)
    (arguments : List DartVal) : Along I J R
      (JSFunction.argumentLoop (ValueConverter.toQuickJSValue fuel ctx) argv i arguments) := by
  induction arguments generalizing i with
  | nil => exact walk.pure _
  | cons argument rest ih =>
    refine walk.bind (walk.toQuickJSValue allowed fuel argument) fun v => ?_
    refine walk.bind (walk.bind (walk.call trivial) fun x => ?_) fun _ => ih (i+1)
    intro w holds
    rw [calling_answer (.store argv i x) rfl]
    exact walk.stores i x own holds

theorem callFunction (allowed : may ctx) (fuel : Nat) (arguments : List DartVal) :
    Along I J R (JSFunction.callFunction fuel ctx val arguments) := by
  have rest : ∀ argv, Own argv → Along I J R (do
      JSFunction.argumentLoop (ValueConverter.toQuickJSValue fuel ctx) argv 0 arguments
      let global ← jsGetGlobalObject ctx
      let retVal ← jsCall ctx val global arguments.length argv
      jsFreeValue global
      perform (.callocFree argv)
      ValueConverter.toDartJSValue ctx retVal false : Action JSRef) := by
    intro argv own
    refine walk.bind (walk.argumentLoop allowed fuel own 0 arguments) fun _ => ?_
    refine walk.bind (walk.within (.bind (.call trivial) fun _ => .call trivial)) fun global => ?_
    refine walk.bind (walk.within ?_) fun retVal => ?_
    · exact .bind (.call trivial) fun _ => .bind (.call trivial) fun _ =>
        .bind (.call trivial) fun _ => .call trivial
    · refine walk.bind (walk.release _) fun _ => walk.bind (walk.call trivial) fun _ => ?_
      exact walk.toDartJSValue allowed
  intro w holds
  rw [JSFunction.callFunction, wp_bind, calling_answer (.calloc arguments.length) rfl, andThen_ok]
  have first := walk.callocs (List.replicate arguments.length .undefined) holds
  exact wp_mono (rest _ (walk.owns holds) _ (walk.kept first holds)) fun _ _ after =>
    walk.trans first after

theorem wrapperCall (allowed : may ctx) (fuel : Nat) (arguments : List DartVal) :
    Along I J R (Binding.wrapperCall fuel ctx val arguments) := by
  refine .bindWhere walk.toKeeping (walk.callFunction allowed fuel arguments)
    (yields_callFunction fuel arguments) fun jsval same => ?_
  refine walk.bind (walk.toDartValue fuel jsval none (by rw [same]; exact allowed)) fun res => ?_
  refine walk.bind (walk.release _) fun _ => ?_
  cases res with
  | exception m => exact walk.throw _
  | _ => exact walk.pure _

theorem fromJs (allowed : may ctx) (fuel : Nat) : Along I J R
    (ValueConverter.toDartValueFromJs (fun jval => ValueConverter.toDartValue fuel jval none) ctx val) :=
  walk.toDartValueFromJs allowed fun jval same =>
    walk.toDartValue fuel jval none (by rw [same]; exact allowed)

theorem parameterLoop (allowed : may ctx) (fuel argc argv rounds i : Nat) :
    Along I J R (HostFunctionProxy.parameterLoop fuel ctx argc argv rounds i) := by
  induction rounds generalizing i with
  | zero => exact walk.pure _
  | succ rounds ih =>
    have rest : ∀ param : DartVal, Along I J R (do
        let params ← HostFunctionProxy.parameterLoop fuel ctx argc argv rounds (i+1)
        return param :: params) := fun param => walk.bind (ih (i+1)) fun _ => walk.pure _
    exact .ite (walk.bind (walk.fromJs allowed fuel) rest) (walk.bind (walk.pure _) rest)

theorem evaluates (fuel : Nat) (self : Instance) (allowed : may self.ctx) (script : Units)
    (source : Option Units) : Along I J R (self.eval fuel script source) := by
  refine walk.bind (walk.within (.bind (.call trivial) fun _ => .call trivial)) fun ret => ?_
  refine walk.bind (walk.fromJs allowed fuel) fun d => ?_
  cases d with
  | hostFunction f => exact walk.pure _
  | exception m => exact walk.bind (walk.release _) fun _ => walk.throw _
  | _ => exact walk.bind (walk.release _) fun _ => walk.pure _

theorem creationLoop (self : Instance) (source : CString) (i : Nat) (pStr : Units)
    (segments : List Units) : Along I J R (self.creationLoop source i pStr segments) := by
  induction segments generalizing i pStr with
  | nil => exact walk.pure _
  | cons segment rest ih =>
    refine walk.bind (walk.within (.bind (.call trivial) fun _ => .call trivial)) fun ret => ?_
    exact walk.bind (walk.release _) fun _ => ih _ _

theorem setValue (fuel : Nat) (self : Instance) (allowed : may self.ctx) (key : Units)
    (value : DartVal) : Along I J R (self.setValue fuel key value) := by
  cases found : KeyPath.lastIndexOfDot (KeyPath.replaceArrows key) with
  | none =>
    simp only [Instance.setValue, found]
    exact walk.throw _
  | some lastIdx =>
    simp only [Instance.setValue, found]
    refine walk.bind (walk.evaluates fuel self allowed _ _) fun parent => ?_
    have rest : Along I J R (do
        let parentPtr ← jsEval self.ctx
          (toNativeUtf8 (KeyPath.optionalChain ((KeyPath.replaceArrows key).take lastIdx)))
          (toNativeUtf8 (units "FlutterQuickjs.setValue"))
        let valuePtr ← ValueConverter.toQuickJSValue fuel self.ctx value
        let _ ← jsSetPropertyStr self.ctx parentPtr
          (toNativeUtf8 ((KeyPath.replaceArrows key).drop (lastIdx + 1))) valuePtr
        jsFreeValue parentPtr) := by
      refine walk.bind (walk.within (.bind (.call trivial) fun _ => .call trivial)) fun p => ?_
      refine walk.bind (walk.toQuickJSValue allowed fuel value) fun x => ?_
      refine walk.bind (walk.within ?_) fun _ => walk.release _
      exact .bind (.call trivial) fun _ => .bind (.call trivial) fun _ =>
        .bind (usual_newAtom _) fun _ => .call trivial
    refine .ite ?_ rest
    exact walk.bind (walk.creationLoop self _ 0 [] _) fun _ => rest

theorem apply (fuel : Nat) (host : HostFunction) (params : List DartVal)
    (allowed : ∀ c p, host.onCall = .wrapper c p → may c) :
    Along I J R (host.apply fuel params) := by
  cases called : host.onCall with
  | function f =>
    simp only [HostFunction.apply, called]
    refine walk.bind (walk.call trivial) fun r => ?_
    cases r with
    | error e => exact walk.throw _
    | ok v => exact walk.pure _
  | wrapper c p =>
    simp only [HostFunction.apply, called]
    have inside := allowed c p called
    split
    · exact walk.bind (walk.call trivial) fun _ => walk.wrapperCall inside fuel _
    · exact walk.throw _
    · exact walk.throw _
    · exact walk.throw _

theorem dispatch (allowed : may ctx) (fuel argc argv : Nat) (callbackId : Int32) :
    Along I J R (HostFunctionProxy.dispatch fuel ctx argc argv callbackId) := by
  intro w holds
  rw [HostFunctionProxy.dispatch, wp_bind, calling_answer (.hostFunctions ctx) rfl, andThen_ok]
  cases listed : w.hostFunctionCache ctx with
  | none => exact walk.refl w
  | some funcs =>
    by_cases negative : callbackId.toInt < 0
    · simp only [negative, if_true]
      exact walk.refl w
    · simp only [negative, if_false]
      cases found : funcs[callbackId.toInt.toNat]? with
      | none => exact walk.refl w
      | some host =>
        have own := walk.hosts allowed holds listed host (List.mem_of_getElem? found)
        have rest : Along I J R (do
            let params ← HostFunctionProxy.parameterLoop fuel ctx argc argv host.argNum 0
            let ret ← host.apply fuel params
            ValueConverter.toQuickJSValue fuel ctx ret) :=
          walk.bind (walk.parameterLoop allowed fuel argc argv _ 0) fun params =>
            walk.bind (walk.apply fuel host params own) fun ret =>
              walk.toQuickJSValue allowed fuel ret
        exact rest w holds

theorem functionCallback (allowed : may ctx) (fuel : Nat) (this : Ptr) (argc argv : Nat)
    (callbackId : Int32) :
    Along I J R (HostFunctionProxy.functionCallback fuel ctx this argc argv callbackId) := by
  rw [functionCallback_eq]
  refine walk.bind (walk.call trivial) fun jsVal => ?_
  refine .handle walk.toKeeping (walk.dispatch allowed fuel argc argv callbackId) fun e => ?_
  refine walk.bind (walk.call trivial) fun printed => ?_
  cases printed with
  | ok u => exact walk.pure _
  | error e => exact walk.throw e

theorem called (fuel : Nat) (cf : CFunction) (allowed : may cf.ctx) (this : JSValue)
    (args : List JSValue) : Along I J R (Callback.called fuel cf this args) := by
  refine walk.bind (walk.call trivial) fun argv => walk.bind (walk.call trivial) fun registered => ?_
  refine .ite ?_ (walk.bind (walk.call trivial) fun _ => walk.pure _)
  refine walk.bind (walk.call trivial) fun thisPtr => ?_
  refine walk.bind (walk.functionCallback allowed fuel thisPtr _ argv _) fun result => ?_
  exact walk.bind (walk.call trivial) fun _ => walk.bind (walk.call trivial) fun _ => walk.pure _

theorem registerEvalToGlobal (self : Instance) (funcName : Option Units) :
    Along I J R (self.registerEvalToGlobal funcName) := by
  have named : ∀ name : CString, Along I J R (Binding.registerEvalToGlobal self.ctx name) := by
    intro name
    refine walk.within (.bind (.call trivial) fun global => .bind (usual_newAtom name) fun atom =>
      .bind (.call trivial) fun old => ?_)
    have last : (perform (.freeValue global)).Within Usual := .call trivial
    refine .ite (.bind (.call trivial) fun _ => ?_) last
    exact .bind (usual_newAtom name) fun _ => .bind (.call trivial) fun _ => last
  cases funcName with
  | none => exact walk.call trivial
  | some name =>
    cases name with
    | nil => exact walk.call trivial
    | cons c rest => exact named _

theorem entry (fuel : Nat) (entry : Entry) (allowed : may entry.ctx) :
    Along I J R (entry.program fuel) := by
  cases entry with
  | eval self script source => exact walk.evaluates fuel self allowed script source
  | wrapper ctx val arguments => exact walk.wrapperCall allowed fuel arguments

end

end Walk

end FlutterQuickjs.Callback
