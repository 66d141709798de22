import FlutterQuickjs.Binding.Scripted
import FlutterQuickjs.Release.Calls

namespace FlutterQuickjs.Release

open Engine Binding ValueConverter JSFunction
open Effect

/-- Foreign code leaves the references on objects as they are. -/
abbrev OnObjects : JSValue → Prop := fun v => ∃ o, v = .object o

/-- A call whose result is released at once. -/
def callAndRelease [PackageFfi] (fuel : Nat) (ctx : Ctx) (jsfunc : Ptr)
    (arguments : List DartVal) : Action Unit := do
  let result ← callFunction fuel ctx jsfunc arguments
  result.release

/-- However a call goes that returns, it leaves the binding with no more references on objects
than before. -/
def Consumes [PackageFfi] (arguments : List DartVal) : Prop :=
  ∀ rely, (∀ w₁ w₂, rely w₁ w₂ → Moves OnObjects 0 w₁ w₂) → ∀ fuel ctx jsfunc w h w',
    Exec (env.answers (.plain rely False)) (callAndRelease fuel ctx jsfunc arguments) w h (.ok ()) w' →
    ∀ o, w'.held (.object o) ≤ w.held (.object o)

theorem OnObjects.ledger : Ledger (Moves OnObjects) :=
  Moves.ledger fun _ object => by
    obtain ⟨o, rfl⟩ := object
    exact trivial

theorem OnObjects.terms {rely : World → World → Prop}
    (foreign : ∀ w w', rely w w' → Moves OnObjects 0 w w') :
    Terms (.plain rely False) (Moves OnObjects) :=
  ⟨fun _ _ => trivial, id, foreign⟩

variable [PackageFfi] {S : Setting Op Reply World} {w : World} {g : Seen} {ctx : Ctx} {n : Nat}

/-- Wrapping a value changes no counts. -/
theorem seen_toDartJSValue (terms : Terms S (Moves OnObjects))
    {Q : Except DartError JSRef → World × Seen → Prop}
    (rest : ∀ cls w', Moves OnObjects 0 w w' → Q (.ok ⟨cls,ctx,.box n⟩) (w',g)) :
    wp seen (S.watch Seen) (toDartJSValue ctx (.box n) false) Q (w,g) := by
  have ledger := OnObjects.ledger
  have made : ∀ cls w', Moves OnObjects 0 w w' →
      wp seen (S.watch Seen) (JSRef.make cls ctx (.box n) false) Q (w',g) := by
    intro cls w₁ before
    by_cases function : cls = .function
    · simp only [JSRef.make, function, if_true, Bool.false_eq_true, if_false, wp_bind, wp_pure,
        andThen_ok]
      apply seen_still terms ledger id (fun _ => rfl)
      intro ptrs w₂ after₂
      rw [andThen_ok, wp_bind]
      apply seen_answer terms (.setJSFunctions ctx _) rfl rfl
      rw [andThen_ok]
      apply rest
      have registered : Moves OnObjects 0 w₂ { w₂ with
          jsFunctionCache := Function.update w₂.jsFunctionCache ctx
            (some (ptrs.getD [] ++ [.box n])) } := ⟨.refl _, by simp⟩
      exact ledger.still (ledger.still before after₂) registered
    · simp only [JSRef.make, function, Bool.false_eq_true, if_false, wp_bind, wp_pure, andThen_ok]
      exact rest cls w₁ before
  rw [toDartJSValue, wp_bind, jsIsFunction, wp_bind]
  apply seen_load terms
  rw [andThen_ok, wp_pure, andThen_ok, wp_ite]
  constructor
  · intro function
    exact made .function w (ledger.refl w)
  · intro other
    rw [wp_bind, jsIsArray, wp_bind]
    apply seen_load terms
    rw [andThen_ok]
    apply seen_still terms ledger id (fun _ => rfl)
    intro array w₁ after₁
    rw [andThen_ok, wp_ite]
    constructor
    · intro isArray
      exact made .array w₁ after₁
    · intro noArray
      rw [wp_bind, jsIsObject, wp_bind]
      apply seen_load terms
      rw [andThen_ok, wp_pure, andThen_ok, wp_ite]
      constructor
      · intro object
        exact made .object w₁ after₁
      · intro primitive
        exact made .value w₁ after₁

theorem seen_callAndRelease (terms : Terms S (Moves OnObjects)) {fuel : Nat} {jsfunc : Ptr}
    {arguments : List DartVal} : wp seen (S.watch Seen) (callAndRelease fuel ctx jsfunc arguments)
      (fun out s => out = .ok () → ∃ vs, StandFor vs arguments ∧
        Moves OnObjects (counts vs) w s.1) (w,.start) := by
  have ledger := OnObjects.ledger
  rw [callAndRelease, wp_bind]
  apply seen_callFunction terms ledger
  · intro e w' vs
    simp
  · intro vs r m w₁ stand moved holds
    apply seen_toDartJSValue terms
    intro cls w₂ after₂
    have holds₂ : w₂.boxes[m]? = some r := (ledger.boxes after₂).getElem? holds
    rw [andThen_ok, JSRef.release]
    apply seen_jsFreeValue terms ledger
    intro w₃ freed _ _
    rw [value_box holds₂] at freed
    refine ⟨vs, stand, ?_⟩
    simpa using ledger.trans (ledger.still moved after₂) freed

omit [PackageFfi] in
theorem no_objects_iff {vs : List JSValue} {arguments : List DartVal}
    (stand : StandFor vs arguments) :
    (∀ o, JSValue.object o ∉ vs) ↔ ∀ d ∈ arguments, ¬MakesObject d := by
  induction stand with
  | nil => simp
  | @cons v d vs rest kind _ ih =>
    simp only [List.mem_cons, not_or, forall_and, ih, forall_eq_or_imp, ← kind, not_exists]
    apply and_congr_left'
    constructor
    · intro other o same
      exact other o same.symm
    · intro other o same
      exact other o same.symm

/-- After the call, exactly the references on the arguments' values are left. -/
theorem references_left {rely : World → World → Prop}
    (foreign : ∀ w₁ w₂, rely w₁ w₂ → Moves OnObjects 0 w₁ w₂) {fuel : Nat} {jsfunc : Ptr}
    {arguments : List DartVal} {w w' : World} {h : List (Event Op Reply)}
    (run : Exec (env.answers (.plain rely False)) (callAndRelease fuel ctx jsfunc arguments) w h
      (.ok ()) w') :
    ∃ vs, StandFor vs arguments ∧
      ∀ o, w'.held (.object o) = w.held (.object o) + vs.count (.object o) := by
  obtain ⟨vs, stand, moved⟩ :=
    wp_watch_sound (seen_callAndRelease (OnObjects.terms foreign)) run rfl
  exact ⟨vs, stand, fun o => moved.held _ ⟨o, rfl⟩⟩

/-- A call that has returned and whose result is released has given everything back exactly if no
argument was sent as an object. -/
theorem callFunction_consumes_iff {rely : World → World → Prop}
    (foreign : ∀ w₁ w₂, rely w₁ w₂ → Moves OnObjects 0 w₁ w₂) {fuel : Nat} {jsfunc : Ptr}
    {arguments : List DartVal} {w w' : World} {h : List (Event Op Reply)}
    (run : Exec (env.answers (.plain rely False)) (callAndRelease fuel ctx jsfunc arguments) w h
      (.ok ()) w') :
    (∀ o, w'.held (.object o) ≤ w.held (.object o)) ↔ ∀ d ∈ arguments, ¬MakesObject d := by
  obtain ⟨vs, stand, left⟩ := references_left foreign run
  rw [← no_objects_iff stand]
  constructor
  · intro fewer o member
    have positive : 0 < vs.count (.object o) := List.count_pos_iff.mpr member
    have := fewer o
    have := left o
    omega
  · intro absent o
    have zero : vs.count (.object o) = 0 := List.count_eq_zero.mpr (absent o)
    have := left o
    omega

def resultRef : ObjRef := ⟨2,1,.ordinary⟩

/-- A world with a function in its first box, an object and an empty Dart list. -/
def callingWorld : World :=
  { World.initial with
    boxes := [.object ⟨1,0,.function⟩]
    heap := (World.initial.heap.put ⟨1,0,.function⟩ (.bare none)).put resultRef (.bare none)
    lists := [[]]
    serial := 2 }

/-- Every call returns the value `v`. -/
def returns (v : JSValue) : (op : Op) → World → Option (Reply op × World)
  | .call _ _ _ _ _, w => some (v, w.credit v)
  | _, _ => none

omit [PackageFfi] in
theorem returns_answers {v : JSValue} (value : v ≠ .exception) (op : Op) (w : World) (r : Reply op) (w' : World)
    (answered : scripted (returns v) op w = some (r,w')) :
    env.answers (.plain Eq False) op w r w' := by
  refine scripted_answers (fun _ => rfl) (fun op w r w' replied => .inr ?_) op w r w' answered
  cases op with
  | call ctx f this argc argv =>
    cases replied
    exact ⟨trivial, .inr ⟨value, rfl⟩⟩
  | _ => cases replied

theorem called {v : JSValue} (value : v ≠ .exception) (arguments : List DartVal)
    (ends : ((callAndRelease 2 0 (.box 0) arguments).eval (scripted (returns v))
      callingWorld).map (fun a => a.1.isOk) = some true) :
    ∃ h w', Exec (env.answers (.plain Eq False)) (callAndRelease 2 0 (.box 0) arguments)
      callingWorld h (.ok ()) w' := by
  obtain ⟨⟨out, w'⟩, ended, isOk⟩ := Option.map_eq_some_iff.mp ends
  obtain ⟨h, run⟩ := Exec.of_eval (returns_answers value) ended
  cases out with
  | ok u => exact ⟨h, w', run⟩
  | error e => cases isOk

omit [PackageFfi] in
theorem moves_of_eq (w₁ w₂ : World) (same : w₁ = w₂) : Moves OnObjects 0 w₁ w₂ :=
  same ▸ OnObjects.ledger.refl w₁

omit [PackageFfi] in
/-- Two numbers, a string and a boolean are gone after a call that gives an object. -/
theorem callFunction_consumes_several :
    letI := PackageFfi.utf8
    ∃ h w', Exec (env.answers (.plain Eq False))
      (callAndRelease 2 0 (.box 0) [.int 1, .int 2, .string (units "a"), .bool true])
      callingWorld h (.ok ()) w' ∧
      ((∀ o, w'.held (.object o) ≤ callingWorld.held (.object o)) ↔
        ∀ d ∈ [DartVal.int 1, .int 2, .string (units "a"), .bool true], ¬MakesObject d) := by
  let _ := PackageFfi.utf8
  obtain ⟨h, w', run⟩ := called (v := .object resultRef) (by simp)
    [.int 1, .int 2, .string (units "a"), .bool true] (by decide)
  exact ⟨h, w', run, callFunction_consumes_iff moves_of_eq run⟩

omit [PackageFfi] in
/-- An empty list is not. -/
theorem not_consumes_list :
    letI := PackageFfi.utf8
    ¬Consumes [.list 0] := by
  let _ := PackageFfi.utf8
  intro consumes
  obtain ⟨h, w', run⟩ := called (v := .undefined) (by simp) [.list 0] (by decide)
  obtain ⟨vs, stand, left⟩ := references_left moves_of_eq run
  have none : ∀ o, JSValue.object o ∉ vs := by
    intro o member
    have positive : 0 < vs.count (.object o) := List.count_pos_iff.mpr member
    have := consumes Eq moves_of_eq 2 0 (.box 0) callingWorld h w' run o
    have := left o
    omega
  exact (no_objects_iff stand).mp none _ (List.mem_singleton_self _) trivial

end FlutterQuickjs.Release
