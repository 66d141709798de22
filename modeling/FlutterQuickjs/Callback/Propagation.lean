import FlutterQuickjs.Binding.Entering
import FlutterQuickjs.Binding.Instance
import FlutterQuickjs.Binding.Plain
import FlutterQuickjs.Binding.Scripted
import FlutterQuickjs.Release.Terms

namespace FlutterQuickjs.Callback

open Engine Binding ValueConverter HostFunctionProxy
open Effect

/-- What JS code that was entered from Dart ended with. -/
def entered : Event Op Reply → Option JSValue
  | ⟨.eval _ _ _,r⟩ => some r
  | ⟨.call _ _ _ _ _,r⟩ => some r
  | _ => none

/-- What a Dart function that was called from JS ended with. -/
def applied : Event Op Reply → Option (Except DartError DartVal)
  | ⟨.apply _ _,r⟩ => some r
  | _ => none

/-- One level of nested calls: JS code that Dart entered, with its completion and what Dart got, or
a Dart function that JS called, with its outcome and the completion of the call for JS. -/
inductive Level
  | js (completion : JSValue) (out : Except DartError DartVal)
  | dart (out : Except DartError DartVal) (completion : JSValue)

/-- The level ends with an error on both of its sides. -/
def Level.Abrupt : Level → Prop
  | js completion out => completion = .exception ∧ ∃ e, out = .error e
  | dart out completion => (∃ e, out = .error e) ∧ completion = .exception

section

variable [PackageFfi]

/-- A script or wrapper call whose JS code ends with `completion` gives Dart `out`. -/
def Enters (rely : World → World → Prop) (completion : JSValue) (out : Except DartError DartVal) :
    Prop :=
  ∃ (entry : Entry) (fuel : Nat) (w : World) (h : List (Event Op Reply)) (w' : World),
    Exec (env.answers (.plain rely False)) (entry.program fuel) w h out w' ∧
    completion ∈ h.filterMap entered

/-- A call of a registered function, whose Dart code ends with `out`, gives JS `completion`. -/
def Serves (rely : World → World → Prop) (out : Except DartError DartVal) (completion : JSValue) :
    Prop :=
  ∃ (fuel : Nat) (ctx : Ctx) (this : JSValue) (argc argv : Nat) (callbackId : Int32) (w : World)
    (h : List (Event Op Reply)) (w' : World),
    Exec (env.answers (.plain rely False))
      (dartCallback (functionCallback fuel) ctx this argc argv callbackId) w h (.ok completion) w' ∧
    out ∈ h.filterMap applied

/-- Nested calls, outermost first, with an error thrown at the innermost level. No user code
catches it: JS code that gets an exception from a call ends with one, and a Dart function that
gets an error from a call throws it. Who gets a value may go on in any way. -/
inductive Nested (rely : World → World → Prop) : List Level → Prop
  | jsThrows {out : Except DartError DartVal} (enters : Enters rely .exception out) :
      Nested rely [.js .exception out]
  | dartThrows {e : DartError} {completion : JSValue} (serves : Serves rely (.error e) completion) :
      Nested rely [.dart (.error e) completion]
  | js {completion : JSValue} {out out' : Except DartError DartVal} {completion' : JSValue}
      {levels : List Level} (inner : Nested rely (.dart out' completion' :: levels))
      (enters : Enters rely completion out)
      (uncaught : completion' = .exception → completion = .exception) :
      Nested rely (.js completion out :: .dart out' completion' :: levels)
  | dart {out : Except DartError DartVal} {completion completion' : JSValue}
      {out' : Except DartError DartVal} {levels : List Level}
      (inner : Nested rely (.js completion' out' :: levels)) (serves : Serves rely out completion)
      (uncaught : ∀ e, out' = .error e → out = .error e) :
      Nested rely (.dart out completion :: .js completion' out' :: levels)

/-- Errors come out of every nest of calls that was entered from Dart, through all its levels. -/
def Propagates (rely : World → World → Prop) : Prop :=
  ∀ completion out levels, Nested rely (.js completion out :: levels) →
    ∀ level ∈ Level.js completion out :: levels, level.Abrupt

end

section

variable {rely : World → World → Prop} {S : Setting Op Reply World} {w w' : World}
  {h : List (Event Op Reply)} {ctx : Ctx} {p : Ptr}

theorem boxes_kept (keeps : ∀ w₁ w₂, rely w₁ w₂ → Keeps w₁.boxes w₂.boxes) {α : Type} {q : Action α}
    {out : Except DartError α} (run : Exec (env.answers (.plain rely False)) q w h out w') :
    Keeps w.boxes w'.boxes := by
  induction run with
  | done a w => exact .refl _
  | fail e w => exact .refl _
  | ask answered rest ih =>
    obtain ⟨-, ⟨-, own⟩ | ⟨-, w₂, between, returned⟩⟩ := answered
    · exact (frame_direct own).boxes.trans ih
    · exact (keeps _ w₂ between).trans ((frame_back returned).boxes.trans ih)

theorem entered_inner {α : Type} {q : Action α} {out : Except DartError α}
    (inside : q.Within Inner) (run : Exec (env.answers S) q w h out w') :
    h.filterMap entered = [] := by
  rw [List.filterMap_eq_nil_iff]
  intro e member
  have inner := Exec.within inside run e member
  obtain ⟨op, r⟩ := e
  cases op with
  | eval ctx input filename => exact inner.elim
  | call ctx f this argc argv => exact inner.elim
  | _ => simp [entered]

/-- Operations that call no Dart function. -/
def Unapplied : Op → Prop
  | .apply _ _ => False
  | _ => True

theorem unapplied_of_inner {op : Op} (inner : Inner op) : Unapplied op := by
  cases op with
  | apply f params => exact inner.elim
  | _ => trivial

theorem applied_unapplied {α : Type} {q : Action α} {out : Except DartError α}
    (inside : q.Within Unapplied) (run : Exec (env.answers S) q w h out w') :
    h.filterMap applied = [] := by
  rw [List.filterMap_eq_nil_iff]
  intro e member
  have unapplied := Exec.within inside run e member
  obtain ⟨op, r⟩ := e
  cases op with
  | apply f params => exact unapplied.elim
  | _ => simp [applied]

theorem applied_inner {α : Type} {q : Action α} {out : Except DartError α}
    (inside : q.Within Inner) (run : Exec (env.answers S) q w h out w') :
    h.filterMap applied = [] :=
  applied_unapplied (.mono inside fun _ => unapplied_of_inner) run

theorem within_new (v : JSValue) : (perform (.new v)).Within Inner := .call trivial

/-- A new box holds the value it was made for. -/
theorem new_holds {v : JSValue}
    (run : Exec (env.answers S) (perform (.new v)) w h (.ok p) w') : w'.value p = v := by
  obtain ⟨answered, -⟩ := Exec.call_iff.mp run
  obtain ⟨rfl, rfl⟩ := Release.answers_known rfl answered
  simp [World.value]

end

section

variable [PackageFfi] {rely : World → World → Prop} {w w' : World} {h : List (Event Op Reply)}
  {out : Except DartError DartVal} {ctx : Ctx} {p : Ptr}

omit [PackageFfi] in
/-- Whatever a part of a program returns, the rest ends with an error. -/
theorem fails_bind {α β : Type} {q : Action α} {f : α → Action β}
    (rest : ∀ a w, wp env (.plain rely False) (f a) (fun out _ => ∃ e, out = .error e) w) :
    wp env (.plain rely False) (q >>= f) (fun out _ => ∃ e, out = .error e) w := by
  rw [wp_bind]
  refine wp_trivial (fun _ _ => trivial) id fun out w' => ?_
  cases out with
  | error e => exact ⟨e, rfl⟩
  | ok a => exact rest a w'

/-- The exception marker converts to an exception, if to anything. -/
theorem toDartValue_marker {cls : JSClass} {fuel : Nat} {rest : DartVal → Action DartVal}
    (holds : w.value p = .exception)
    (rethrows : ∀ m w, wp env (.plain rely False) (rest (.exception m))
      (fun out _ => ∃ e, out = .error e) w) :
    wp env (.plain rely False) (toDartValue fuel ⟨cls,ctx,p⟩ none >>= rest)
      (fun out _ => ∃ e, out = .error e) w := by
  cases fuel with
  | zero => exact ⟨_, rfl⟩
  | succ n =>
    rw [wp_bind]
    simp only [toDartValue, wp_bind, plain_jsValueGetTag, andThen_ok, holds, JSValue.tag,
      JSTag.OBJECT, JSTag.INT, JSTag.BOOL, JSTag.NULL, JSTag.UNDEFINED, JSTag.EXCEPTION,
      JSTag.FLOAT64, JSTag.STRING, Int.reduceNeg, Int.reduceEq, or_self, reduceIte]
    refine wp_trivial (fun _ _ => trivial) id fun found w₁ => ?_
    cases found with
    | error e => exact ⟨e, rfl⟩
    | ok exception =>
      rw [andThen_ok, wp_bind]
      refine wp_trivial (fun _ _ => trivial) id fun described w₂ => ?_
      cases described with
      | error e => exact ⟨e, rfl⟩
      | ok message =>
        rw [andThen_ok, wp_bind]
        refine wp_trivial (fun _ _ => trivial) id fun freed w₃ => ?_
        cases freed with
        | error e => exact ⟨e, rfl⟩
        | ok _ => exact rethrows message w₃

omit [PackageFfi] in
theorem marker_leaf (holds : w.value p = .exception) (o : ObjRef) : w.value p ≠ .object o := by
  rw [holds]
  simp

/-- A script that ends with an exception makes `eval` throw. -/
theorem eval_fails {fuel : Nat} {self : Instance} {script : Units} {source : Option Units}
    (run : Exec (env.answers (.plain rely False)) (self.eval fuel script source) w h out w')
    (threw : .exception ∈ h.filterMap entered) : ∃ e, out = .error e := by
  obtain ⟨e, -, rfl⟩ | ⟨ret, w₁, h₁, h₂, evaluated, rest, rfl⟩ := Exec.bind_iff.mp run
  · exact ⟨e, rfl⟩
  · obtain ⟨v, w₂, h₃, h₄, asked, made, rfl⟩ := Exec.bind_ok evaluated
    obtain ⟨-, rfl⟩ := Exec.call_iff.mp asked
    have holds := new_holds made
    have quiet : h₂.filterMap entered = [] := by
      refine entered_inner ?_ rest
      refine .bind (inner_toDartValueFromJs fun jval => inner_toDartValue fuel jval none) fun d => ?_
      cases d with
      | hostFunction f => exact .pure _
      | exception m => exact .bind inner_jsFreeValue fun _ => .throw _
      | _ => exact .bind inner_jsFreeValue fun _ => .pure _
    rw [List.filterMap_append, List.filterMap_append, entered_inner (within_new v) made,
      quiet] at threw
    have marker : v = .exception := by simpa [entered, eq_comm] using threw
    rw [marker] at holds
    refine wp_sound (Q := fun out _ => ∃ e, out = .error e) ?_ rest
    rw [toDartValueFromJs, wp_bind, wp_bind, plain_toDartJSValue (marker_leaf holds), andThen_ok,
      ← wp_bind]
    exact toDartValue_marker holds fun m w => fails_bind fun _ _ => ⟨_, rfl⟩

omit [PackageFfi] in
/-- Giving the global object back changes no box, and the marker is wrapped as a plain value. -/
theorem wrapped_marker {global : Ptr} {argv : Nat} {jsval : JSRef} (holds : w.value p = .exception)
    (run : Exec (env.answers (.plain rely False)) (do
      jsFreeValue global
      perform (.callocFree argv)
      toDartJSValue ctx p false) w h (.ok jsval) w') : w'.value jsval.val = .exception := by
  have kept : ∀ v, ({ w.debit v with released := w.released ++ [global] } : World).value p = .exception :=
    fun _ => holds
  obtain ⟨_, w₁, h₁, h₂, freed, rest, -⟩ := Exec.bind_ok run
  obtain ⟨h₃, debited, -⟩ := Release.run_answered (.load global) rfl freed
  obtain ⟨h₄, deleted, -⟩ := Release.run_answered (.freeValue _) rfl debited
  obtain ⟨answered, -⟩ := Exec.call_iff.mp deleted
  obtain ⟨-, rfl⟩ := Release.answers_known rfl answered
  obtain ⟨h₅, wraps, -⟩ := Release.run_answered (.callocFree argv) rfl rest
  have same : wp env (.plain rely False) (toDartJSValue ctx p false)
      (fun out w' => ∀ jsval, out = .ok jsval → w'.value jsval.val = .exception)
      { w.debit (w.value global) with released := w.released ++ [global] } := by
    rw [plain_toDartJSValue (marker_leaf (kept _))]
    intro jsval same
    cases same
    exact kept _
  exact wp_sound same wraps jsval rfl

/-- Calling a function that ends with an exception gives the box of the marker. -/
theorem callFunction_marker {fuel : Nat} {arguments : List DartVal} {jsval : JSRef}
    (run : Exec (env.answers (.plain rely False)) (JSFunction.callFunction fuel ctx p arguments) w h
      (.ok jsval) w') (threw : .exception ∈ h.filterMap entered) :
    w'.value jsval.val = .exception := by
  obtain ⟨argv, w₁, h₁, t₁, asked, run₁, rfl⟩ := Exec.bind_ok run
  obtain ⟨_, w₂, h₂, t₂, converted, run₂, rfl⟩ := Exec.bind_ok run₁
  obtain ⟨global, w₃, h₃, t₃, found, run₃, rfl⟩ := Exec.bind_ok run₂
  obtain ⟨retVal, w₄, h₄, t₄, called, run₄, rfl⟩ := Exec.bind_ok run₃
  obtain ⟨f, w₅, h₅, t₅, loaded, run₅, rfl⟩ := Exec.bind_ok called
  obtain ⟨this, w₆, h₆, t₆, loaded', run₆, rfl⟩ := Exec.bind_ok run₅
  obtain ⟨v, w₇, h₇, t₇, answered, made, rfl⟩ := Exec.bind_ok run₆
  obtain ⟨-, rfl⟩ := Exec.call_iff.mp answered
  have last : Program.Within Inner (do
      jsFreeValue global
      perform (.callocFree argv)
      toDartJSValue ctx retVal false) :=
    .bind inner_jsFreeValue fun _ => .bind (.call trivial) fun _ => inner_toDartJSValue
  have globals : (jsGetGlobalObject ctx).Within Inner :=
    .bind (.call trivial) fun _ => .call trivial
  have allocates : (perform (.calloc arguments.length)).Within Inner := .call trivial
  have loads : ∀ q, (perform (.load q)).Within Inner := fun q => .call trivial
  simp only [List.filterMap_append, entered_inner allocates asked, entered_inner globals found,
    entered_inner (inner_argumentLoop fuel argv 0 arguments) converted,
    entered_inner (loads _) loaded, entered_inner (loads _) loaded',
    entered_inner (within_new v) made, entered_inner last run₄] at threw
  have marker : v = .exception := by simpa [entered, eq_comm] using threw
  have holds := new_holds made
  rw [marker] at holds
  exact wrapped_marker holds run₄

/-- A function that ends with an exception makes its wrapper throw. -/
theorem wrapperCall_fails {fuel : Nat} {arguments : List DartVal}
    (run : Exec (env.answers (.plain rely False)) (wrapperCall fuel ctx p arguments) w h out w')
    (threw : .exception ∈ h.filterMap entered) : ∃ e, out = .error e := by
  obtain ⟨e, -, rfl⟩ | ⟨jsval, w₁, h₁, h₂, called, rest, rfl⟩ := Exec.bind_iff.mp run
  · exact ⟨e, rfl⟩
  · have quiet : h₂.filterMap entered = [] := by
      refine entered_inner ?_ rest
      refine .bind (inner_toDartValue fuel jsval none) fun d => .bind inner_jsFreeValue fun _ => ?_
      cases d with
      | exception m => exact .throw _
      | _ => exact .pure _
    rw [List.filterMap_append, quiet, List.append_nil] at threw
    have holds := callFunction_marker called threw
    refine wp_sound (Q := fun out _ => ∃ e, out = .error e) ?_ rest
    exact toDartValue_marker holds fun m w => fails_bind fun _ _ => ⟨_, rfl⟩

theorem enters_fails (enters : Enters rely .exception out) : ∃ e, out = .error e := by
  obtain ⟨entry, fuel, w, h, w', run, threw⟩ := enters
  cases entry with
  | eval self script source => exact eval_fails run threw
  | wrapper ctx val arguments => exact wrapperCall_fails run threw

theorem unapplied_wrapperCall (fuel : Nat) (arguments : List DartVal) :
    (wrapperCall fuel ctx p arguments).Within Unapplied := by
  have call : (JSFunction.callFunction fuel ctx p arguments).Within Unapplied := by
    refine .bind (.call trivial) fun argv => ?_
    refine .bind (.mono (inner_argumentLoop fuel argv 0 arguments) fun _ => unapplied_of_inner) fun _ => ?_
    refine .bind (.bind (.call trivial) fun _ => .call trivial) fun global => ?_
    refine .bind ?_ fun retVal => ?_
    · exact .bind (.call trivial) fun _ => .bind (.call trivial) fun _ =>
        .bind (.call trivial) fun _ => .call trivial
    · refine .bind (.mono inner_jsFreeValue fun _ => unapplied_of_inner) fun _ => ?_
      exact .bind (.call trivial) fun _ => .mono inner_toDartJSValue fun _ => unapplied_of_inner
  refine .bind call fun jsval => ?_
  refine .bind (.mono (inner_toDartValue fuel jsval none) fun _ => unapplied_of_inner) fun res => ?_
  refine .bind (.mono inner_jsFreeValue fun _ => unapplied_of_inner) fun _ => ?_
  cases res with
  | exception m => exact .throw _
  | _ => exact .pure _

theorem apply_throws {fuel : Nat} {host : HostFunction} {params : List DartVal} {d : DartVal}
    {e : DartError} (run : Exec (env.answers (.plain rely False)) (host.apply fuel params) w h
      (.ok d) w') : .error e ∉ h.filterMap applied := by
  intro threw
  cases called : host.onCall with
  | function f =>
    simp only [HostFunction.apply, called] at run
    obtain ⟨r, w₁, h₁, h₂, asked, rest, rfl⟩ := Exec.bind_ok run
    obtain ⟨-, rfl⟩ := Exec.call_iff.mp asked
    cases r with
    | error e' => cases rest
    | ok v =>
      obtain ⟨rfl, -⟩ := Exec.done_iff.mp rest
      simp [applied] at threw
  | wrapper ctx' val' =>
    have inside : (host.apply fuel params).Within Unapplied := by
      simp only [HostFunction.apply, called]
      split
      · exact .bind (.call trivial) fun _ => unapplied_wrapperCall fuel _
      · exact .throw _
      · exact .throw _
      · exact .throw _
    rw [applied_unapplied inside run] at threw
    simp at threw

/-- Where a Dart function throws, the callback does not end well before its handler. -/
theorem dispatch_throws {fuel : Nat} {argc argv : Nat} {callbackId : Int32} {q : Ptr} {e : DartError}
    (run : Exec (env.answers (.plain rely False)) (dispatch fuel ctx argc argv callbackId) w h
      (.ok q) w') : .error e ∉ h.filterMap applied := by
  have looks : (perform (.hostFunctions ctx)).Within Inner := .call trivial
  intro threw
  obtain ⟨functions, w₁, h₁, t₁, asked, run₁, rfl⟩ := Exec.bind_ok run
  rw [List.filterMap_append, applied_inner looks asked, List.nil_append] at threw
  cases functions with
  | none => cases run₁
  | some funcList =>
    by_cases negative : callbackId.toInt < 0
    · simp only [negative, if_true] at run₁
      cases run₁
    · simp only [negative, if_false] at run₁
      cases found : funcList[callbackId.toInt.toNat]? with
      | none =>
        simp only [found] at run₁
        cases run₁
      | some hostFunction =>
        simp only [found] at run₁
        obtain ⟨params, w₂, h₂, t₂, converted, run₂, rfl⟩ := Exec.bind_ok run₁
        obtain ⟨ret, w₃, h₃, t₃, called, run₃, rfl⟩ := Exec.bind_ok run₂
        rw [List.filterMap_append, List.filterMap_append,
          applied_inner (inner_parameterLoop fuel argc argv _ 0) converted,
          applied_inner (inner_toQuickJSValue fuel ret) run₃, List.nil_append,
          List.append_nil] at threw
        exact apply_throws called threw

theorem functionCallback_eq (fuel : Nat) (ctx : Ctx) (this : Ptr) (argc argv : Nat)
    (callbackId : Int32) : functionCallback fuel ctx this argc argv callbackId =
      jsUndefined >>= fun jsVal => (dispatch fuel ctx argc argv callbackId).handle fun e =>
        perform (Op.print e) >>= fun printed =>
          printed.casesOn (fun e => throw e) (fun _ => pure jsVal) := by
  unfold functionCallback
  congr 1
  funext jsVal
  induction dispatch fuel ctx argc argv callbackId with
  | done a => rfl
  | fail e =>
    refine congrArg (Program.ask (Op.print e)) (funext fun printed => ?_)
    cases printed <;> rfl
  | ask op k ih => exact congrArg (Program.ask op) (funext ih)

/-- The box of the handler's result was made before anything else, and holds undefined. -/
theorem functionCallback_throws (keeps : ∀ w₁ w₂, rely w₁ w₂ → Keeps w₁.boxes w₂.boxes)
    {fuel argc argv : Nat} {this q : Ptr} {callbackId : Int32} {e : DartError}
    (run : Exec (env.answers (.plain rely False)) (functionCallback fuel ctx this argc argv callbackId)
      w h (.ok q) w') (threw : .error e ∈ h.filterMap applied) : w'.value q = .undefined := by
  rw [functionCallback_eq] at run
  obtain ⟨jsVal, w₁, h₁, t₁, made, run₁, rfl⟩ := Exec.bind_ok run
  rw [List.filterMap_append, applied_inner (within_new .undefined) made, List.nil_append] at threw
  obtain ⟨answered, -⟩ := Exec.call_iff.mp made
  obtain ⟨rfl, rfl⟩ := Release.answers_known rfl answered
  obtain ⟨a, served, same⟩ | ⟨e', w₂, h₂, t₂, failed, handled, rfl⟩ := Exec.handle_iff.mp run₁
  · exact absurd threw (dispatch_throws served)
  · have kept := (boxes_kept keeps failed).trans (boxes_kept keeps handled)
    obtain ⟨printed, w₃, h₃, t₃, -, rest, -⟩ := Exec.bind_ok handled
    cases printed with
    | error e => cases rest
    | ok _ =>
    obtain ⟨-, same, -⟩ := Exec.done_iff.mp rest
    cases same
    have inside : (w.boxes ++ [JSValue.undefined])[w.boxes.length]? = some .undefined := by simp
    have still := kept.getElem? inside
    simp [World.value, still]

/-- Whatever a Dart function throws, JS gets undefined. -/
theorem serves_undefined (keeps : ∀ w₁ w₂, rely w₁ w₂ → Keeps w₁.boxes w₂.boxes) {e : DartError}
    {completion : JSValue} (serves : Serves rely (.error e) completion) : completion = .undefined := by
  obtain ⟨fuel, ctx, this, argc, argv, callbackId, w, h, w', run, threw⟩ := serves
  obtain ⟨registered, w₁, h₁, t₁, asked, run₁, rfl⟩ := Exec.bind_ok run
  cases registered with
  | false =>
    obtain ⟨_, w₂, h₂, t₂, -, run₂, -⟩ := Exec.bind_ok run₁
    obtain ⟨-, same, -⟩ := Exec.done_iff.mp run₂
    cases same
    simp
  | true =>
    obtain ⟨thisPtr, w₂, h₂, t₂, wrapped, run₂, rfl⟩ := Exec.bind_ok run₁
    obtain ⟨result, w₃, h₃, t₃, served, run₃, rfl⟩ := Exec.bind_ok run₂
    obtain ⟨ret, w₄, h₄, t₄, loaded, run₄, rfl⟩ := Exec.bind_ok run₃
    obtain ⟨_, w₅, h₅, t₅, gave, run₅, rfl⟩ := Exec.bind_ok run₄
    have registers : (perform .callbackRegistered).Within Inner := .call trivial
    have loads : (perform (.load result)).Within Inner := .call trivial
    have gives : (perform (.giveBack ret)).Within Inner := .call trivial
    obtain ⟨rfl, same, -⟩ := Exec.done_iff.mp run₅
    cases same
    simp only [List.filterMap_append, applied_inner registers asked,
      applied_inner (within_new this) wrapped, applied_inner loads loaded, applied_inner gives gave,
      List.nil_append, List.append_nil] at threw
    have undefined := functionCallback_throws keeps served threw
    obtain ⟨answered, -⟩ := Exec.call_iff.mp loaded
    obtain ⟨rfl, -⟩ := Release.answers_known rfl answered
    exact undefined

/-- An error comes out through every level exactly if the JS code that Dart entered throws it itself. -/
theorem propagates_iff (keeps : ∀ w₁ w₂, rely w₁ w₂ → Keeps w₁.boxes w₂.boxes)
    {completion : JSValue} {levels : List Level} (nested : Nested rely (.js completion out :: levels)) :
    (∀ level ∈ Level.js completion out :: levels, level.Abrupt) ↔ levels = [] := by
  constructor
  · intro abrupt
    cases nested with
    | jsThrows enters => rfl
    | js inner enters uncaught =>
      have next := abrupt _ (List.mem_cons_of_mem _ (List.mem_cons_self ..))
      obtain ⟨⟨e, rfl⟩, same⟩ := next
      have served : ∃ e completion', Serves rely (.error e) completion' ∧ completion' = .exception := by
        cases inner with
        | dartThrows serves => exact ⟨_, _, serves, same⟩
        | dart inner serves uncaught => exact ⟨_, _, serves, same⟩
      obtain ⟨e, completion', serves, marker⟩ := served
      rw [serves_undefined keeps serves] at marker
      cases marker
  · intro only
    cases nested with
    | jsThrows enters =>
      intro level member
      rw [List.mem_singleton.mp member]
      exact ⟨rfl, enters_fails enters⟩
    | js inner enters uncaught => cases only

end

/-- A Dart function without parameters. -/
def thrower : DartFunction := ⟨0, units "() => void"⟩

/-- After `thrower` was sent to the first context. -/
def listening : World :=
  { World.initial with
    contexts := [0]
    callbackRegistered := true
    initialized := true
    hostFunctionCache := Function.update (fun _ => none) 0 (some [HostFunction.new (.function thrower)]) }

/-- A script that calls `thrower`, which throws, and ends with undefined. -/
def callsThrower : (op : Op) → World → Option (Reply op × World)
  | .eval _ _ _, w => some (.undefined, w.credit .undefined)
  | .apply _ _, w => some (.error (.user 0), w)
  | .print _, w => some (.ok (), w)
  | _, _ => none

theorem callsThrower_answers (op : Op) (w : World) (r : Reply op) (w' : World)
    (answered : scripted callsThrower op w = some (r,w')) :
    env.answers (.plain (fun w₁ w₂ => Keeps w₁.boxes w₂.boxes) False) op w r w' := by
  refine scripted_answers (fun _ => .refl _) (fun op w r w' replied => ?_) op w r w' answered
  cases op with
  | eval ctx input filename =>
    cases replied
    exact .inr ⟨trivial, .inr ⟨by simp, rfl⟩⟩
  | apply f params =>
    cases replied
    exact .inr ⟨trivial, rfl⟩
  | print e =>
    cases replied
    cases e with
    | user id => exact .inr ⟨trivial, rfl⟩
    | _ => exact .inl ⟨⟨rfl, rfl⟩, id⟩
  | _ => cases replied

theorem enters_undefined :
    letI := PackageFfi.utf8
    Enters (fun w₁ w₂ => Keeps w₁.boxes w₂.boxes) .undefined (.ok .null) := by
  let _ := PackageFfi.utf8
  obtain ⟨h, out, w', run, checked⟩ := Exec.of_check callsThrower_answers
    (p := (Entry.eval ⟨0,.box 0⟩ [] none).program 1) (w := listening)
    (fun h out => h.filterMap entered = [.undefined] ∧ out = .ok .null) (by decide)
  obtain ⟨ended, rfl⟩ := of_decide_eq_true checked
  exact ⟨_, _, _, h, w', run, by simp [ended]⟩

theorem serves_thrower :
    letI := PackageFfi.utf8
    Serves (fun w₁ w₂ => Keeps w₁.boxes w₂.boxes) (.error (.user 0)) .undefined := by
  let _ := PackageFfi.utf8
  obtain ⟨h, out, w', run, checked⟩ := Exec.of_check callsThrower_answers
    (p := dartCallback (functionCallback 1) 0 .undefined 0 0 0) (w := listening)
    (fun h out => h.filterMap applied = [.error (.user 0)] ∧ out = .ok .undefined) (by decide)
  obtain ⟨threw, rfl⟩ := of_decide_eq_true checked
  exact ⟨_, _, _, _, _, _, _, h, w', run, by simp [threw]⟩

/-- A script over a Dart function that throws. -/
theorem nested_thrower :
    letI := PackageFfi.utf8
    Nested (fun w₁ w₂ => Keeps w₁.boxes w₂.boxes)
      [.js .undefined (.ok .null), .dart (.error (.user 0)) .undefined] := by
  let _ := PackageFfi.utf8
  exact .js (.dartThrows serves_thrower) enters_undefined (by simp)

theorem propagates_thrower :
    letI := PackageFfi.utf8
    (∀ level ∈ [Level.js .undefined (.ok .null), .dart (.error (.user 0)) .undefined], level.Abrupt) ↔
      [Level.dart (.error (.user 0)) .undefined] = [] := by
  let _ := PackageFfi.utf8
  exact propagates_iff (fun _ _ keeps => keeps) nested_thrower

theorem not_propagates :
    letI := PackageFfi.utf8
    ¬Propagates (fun w₁ w₂ => Keeps w₁.boxes w₂.boxes) := by
  let _ := PackageFfi.utf8
  intro propagates
  have abrupt := propagates _ _ _ nested_thrower _ (List.mem_cons_self ..)
  exact absurd abrupt.1 (by simp)

end FlutterQuickjs.Callback
