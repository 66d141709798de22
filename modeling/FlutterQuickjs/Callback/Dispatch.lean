import FlutterQuickjs.Binding.Lists
import FlutterQuickjs.Callback.Walk

namespace FlutterQuickjs.Callback

open Engine Binding ValueConverter HostFunctionProxy
open Effect

/-- The Dart function that the dispatcher called, with its parameters. -/
def dispatched : Event Op Reply → Option (DartFunction × List DartVal)
  | ⟨.apply f params,_⟩ => some (f,params)
  | _ => none

/-- The conversion of an argument `v`, which ends with `out`. -/
def Argument [PackageFfi] (S : Setting Op Reply World) (fuel : Nat) (ctx : Ctx) (p : Ptr)
    (v : JSValue) (part : List (Event Op Reply)) (out : Except DartError DartVal) : Prop :=
  ∃ w w', w.value p = v ∧
    Exec (env.answers S) (toDartValueFromJs (fun jval => toDartValue fuel jval none) ctx p) w part out w'

/-- The parameters for `n` places from index `i` on, and the conversions that gave them: those of
the arguments in order, and null for what was not passed. -/
structure Supplied [PackageFfi] (S : Setting Op Reply World) (fuel : Nat) (ctx : Ctx) (argv : Nat)
    (args : List JSValue) (i n : Nat) (parts : List (List (Event Op Reply))) (params : List DartVal) :
    Prop where
  length : params.length = n
  count : parts.length = min n (args.length - i)
  converted : ∀ j v, j < n → args[i + j]? = some v → ∃ part d, parts[j]? = some part ∧
    params[j]? = some d ∧ Argument S fuel ctx (.slot argv (i + j)) v part (.ok d)
  missing : ∀ j, j < n → args.length ≤ i + j → params[j]? = some .null

/-- One of the arguments for `n` places from index `i` on fails to convert. -/
def Rejected [PackageFfi] (S : Setting Op Reply World) (fuel : Nat) (ctx : Ctx) (argv : Nat)
    (args : List JSValue) (i n : Nat) (h : List (Event Op Reply)) : Prop :=
  ∃ j v part e, j < n ∧ args[i + j]? = some v ∧ part <:+ h ∧
    Argument S fuel ctx (.slot argv (i + j)) v part (.error e)

section

variable {rely : World → World → Prop} {w w' : World} {h : List (Event Op Reply)} {fuel : Nat}
  {ctx : Ctx} {argv : Nat} {args : List JSValue}

theorem dispatched_inner {S : Setting Op Reply World} {α : Type} {q : Action α}
    {out : Except DartError α} (inside : q.Within Inner) (run : Exec (env.answers S) q w h out w') :
    h.filterMap dispatched = [] := by
  rw [List.filterMap_eq_nil_iff]
  intro e member
  have inner := Exec.within inside run e member
  obtain ⟨op, r⟩ := e
  cases op with
  | apply f params => exact inner.elim
  | _ => simp [dispatched]

theorem not_vectors_of_decoding {op : Op} (decoding : Decoding op) : ¬Vectors op := by
  cases op with
  | calloc n => exact decoding.elim
  | store a i v => exact decoding.elim
  | lendArguments args => exact decoding.elim
  | _ => exact id

/-- The decoder leaves argument vectors alone. -/
theorem arrays_kept (lends : ∀ w w', rely w w' → Keeps w.arrays w'.arrays) {α : Type} {q : Action α}
    {out : Except DartError α} (inside : q.Within Decoding)
    (run : Exec (env.answers (.plain rely False)) q w h out w') : Keeps w.arrays w'.arrays := by
  induction run with
  | done a w => exact .refl _
  | fail e w => exact .refl _
  | @ask op k w w₁ w₂ r h out answered rest ih =>
    have later := ih (inside.2 r)
    have still := not_vectors_of_decoding inside.1
    obtain ⟨-, ⟨-, own⟩ | ⟨-, w₃, between, returned⟩⟩ := answered
    · rw [← (steady_direct own).arrays still]
      exact later
    · rw [(steady_back returned).arrays still] at later
      exact (lends _ w₃ between).trans later

variable [PackageFfi]

theorem decoding_fromJs (p : Ptr) :
    (toDartValueFromJs (fun jval => toDartValue fuel jval none) ctx p).Within Decoding :=
  decoding_toDartValueFromJs fun jval => decoding_toDartValue fuel jval none

theorem parameterLoop_run (lends : ∀ w w', rely w w' → Keeps w.arrays w'.arrays)
    {rounds i : Nat} {out : Except DartError (List DartVal)} (lent : w.arrays[argv]? = some args)
    (run : Exec (env.answers (.plain rely False)) (parameterLoop fuel ctx args.length argv rounds i)
      w h out w') :
    (∃ parts params, out = .ok params ∧ h = parts.flatten ∧
      Supplied (.plain rely False) fuel ctx argv args i rounds parts params) ∨
    (∃ e, out = .error e) ∧ Rejected (.plain rely False) fuel ctx argv args i rounds h := by
  induction rounds generalizing i w h out with
  | zero =>
    obtain ⟨rfl, rfl, -⟩ := Exec.done_iff.mp run
    exact .inl ⟨[], [], rfl, rfl, by simp, by simp, by simp, by simp⟩
  | succ rounds ih =>
    have shift : ∀ j, i + 1 + j = i + (j + 1) := fun j => by omega
    by_cases passed : i < args.length
    · have known : args[i]? = some args[i] := List.getElem?_eq_getElem passed
      have holds : w.value (.slot argv i) = args[i] := by
        simp [World.value, List.getD_eq_getElem?_getD, lent, known]
      simp only [parameterLoop, passed, if_true] at run
      obtain ⟨e, failed, rfl⟩ | ⟨d, w₁, h₁, t₁, converted, run₁, rfl⟩ := Exec.bind_iff.mp run
      · exact .inr ⟨⟨e, rfl⟩, 0, args[i], h, e, by omega, known, List.suffix_refl _, w, w', holds,
          failed⟩
      · have lent₁ := (arrays_kept lends (decoding_fromJs _) converted).getElem? lent
        obtain ⟨e, failed, rfl⟩ | ⟨params, w₂, h₂, t₂, more, last, rfl⟩ := Exec.bind_iff.mp run₁
        · obtain ⟨parts, params, bad, -⟩ | ⟨-, j, v, part, e', bound, found, suffix, argument⟩ :=
            ih lent₁ failed
          · cases bad
          · rw [shift] at found argument
            exact .inr ⟨⟨e, rfl⟩, j + 1, v, part, e', by omega, found,
              suffix.trans (List.suffix_append _ _), argument⟩
        · obtain ⟨rfl, rfl, rfl⟩ := Exec.done_iff.mp last
          obtain ⟨parts, params', same, rfl, passes⟩ | ⟨⟨e, bad⟩, -⟩ := ih lent₁ more
          · cases same
            refine .inl ⟨h₁ :: parts, d :: params, rfl, by simp, ?_, ?_, fun j v bound found => ?_,
              fun j bound beyond => ?_⟩
            · simp [passes.length]
            · simp only [List.length_cons, passes.count]
              omega
            · cases j with
              | zero =>
                have same : args[i] = v := Option.some.inj (known.symm.trans found)
                exact ⟨h₁, d, rfl, rfl, w, w₁, holds.trans same, converted⟩
              | succ j =>
                rw [← shift] at found ⊢
                exact passes.converted j v (by omega) found
            · cases j with
              | zero => omega
              | succ j => exact passes.missing j (by omega) (by omega)
          · cases bad
    · simp only [parameterLoop, passed, if_false] at run
      have run₁ : Exec (env.answers (.plain rely False)) (do
          let params ← parameterLoop fuel ctx args.length argv rounds (i+1)
          return DartVal.null :: params) w h out w' := run
      obtain ⟨e, failed, rfl⟩ | ⟨params, w₂, h₂, t₂, more, last, rfl⟩ := Exec.bind_iff.mp run₁
      · obtain ⟨parts, params, bad, -⟩ | ⟨-, j, v, part, e', bound, found, -⟩ := ih lent failed
        · cases bad
        · have inside := (List.getElem?_eq_some_iff.mp found).1
          omega
      · obtain ⟨rfl, rfl, rfl⟩ := Exec.done_iff.mp last
        obtain ⟨parts, params', same, rfl, passes⟩ | ⟨⟨e, bad⟩, -⟩ := ih lent more
        · cases same
          have none_ : parts = [] := by
            rw [← List.length_eq_zero_iff, passes.count]
            omega
          refine .inl ⟨parts, .null :: params, rfl, by simp, ?_, ?_, fun j v bound found => ?_,
            fun j bound beyond => ?_⟩
          · simp [passes.length]
          · rw [passes.count]
            omega
          · have inside := (List.getElem?_eq_some_iff.mp found).1
            omega
          · cases j with
            | zero => rfl
            | succ j => exact passes.missing j (by omega) (by omega)
        · cases bad

/-- After the parameters the dispatcher calls the function once, with them. -/
theorem apply_run {f : DartFunction} {params : List DartVal} {out : Except DartError Ptr}
    (run : Exec (env.answers (.plain rely False)) (do
      let ret ← (HostFunction.new (.function f)).apply fuel params
      toQuickJSValue fuel ctx ret) w h out w') : h.filterMap dispatched = [(f,params)] := by
  simp only [HostFunction.apply, onCall_new] at run
  have one : ∀ (r : Except DartError DartVal) (t : List (Event Op Reply)),
      t.filterMap dispatched = [] →
      ((⟨.apply f params,r⟩ : Event Op Reply) :: t).filterMap dispatched = [(f,params)] := by
    intro r t none_
    simp [dispatched, none_]
  obtain ⟨e, failed, rfl⟩ | ⟨d, w₁, h₁, h₂, applied, sent, rfl⟩ := Exec.bind_iff.mp run
  · obtain ⟨r, w₂, t, -, rest, rfl⟩ := Exec.ask_iff.mp failed
    cases r with
    | ok v => cases rest
    | error e' =>
      obtain ⟨rfl, -⟩ := Exec.fail_iff.mp rest
      exact one _ _ rfl
  · obtain ⟨r, w₂, t, -, rest, rfl⟩ := Exec.ask_iff.mp applied
    cases r with
    | ok v =>
      obtain ⟨rfl, -⟩ := Exec.done_iff.mp rest
      exact one _ _ (dispatched_inner (inner_toQuickJSValue fuel d) sent)
    | error e => cases rest

/-- How the dispatcher serves a call: one call of `f` with the parameters, or none where an argument
does not convert. -/
def ServesWith (S : Setting Op Reply World) (fuel : Nat) (ctx : Ctx) (argv : Nat)
    (args : List JSValue) (f : DartFunction) (h : List (Event Op Reply)) : Prop :=
  (∃ before parts after params, h = before ++ (parts.flatten ++ after) ∧
    Supplied S fuel ctx argv args 0 (HostFunction.new (.function f)).argNum parts params ∧
    h.filterMap dispatched = [(f,params)]) ∨
  (∃ t, t <:+: h ∧ Rejected S fuel ctx argv args 0 (HostFunction.new (.function f)).argNum t) ∧
    h.filterMap dispatched = []

omit [PackageFfi] in
theorem dispatched_append {a b : List (Event Op Reply)} (none_ : a.filterMap dispatched = []) :
    (a ++ b).filterMap dispatched = b.filterMap dispatched := by
  rw [List.filterMap_append, none_, List.nil_append]

/-- Events before and after that call no function change nothing. -/
theorem ServesWith.surround {S : Setting Op Reply World} {f : DartFunction}
    (serves : ServesWith S fuel ctx argv args f h) {a b : List (Event Op Reply)}
    (before : a.filterMap dispatched = []) (after : b.filterMap dispatched = []) :
    ServesWith S fuel ctx argv args f (a ++ (h ++ b)) := by
  have same : (a ++ (h ++ b)).filterMap dispatched = h.filterMap dispatched := by
    rw [dispatched_append before, List.filterMap_append, after, List.append_nil]
  obtain ⟨c, parts, d, params, split, passed, once⟩ | ⟨⟨t, inside, rejected⟩, never⟩ := serves
  · refine .inl ⟨a ++ c, parts, d ++ b, params, ?_, passed, same.trans once⟩
    rw [split]
    simp only [List.append_assoc]
  · refine .inr ⟨⟨t, inside.trans ?_, rejected⟩, same.trans never⟩
    exact ⟨a, b, by rw [List.append_assoc]⟩

theorem dispatch_run (lends : ∀ w w', rely w w' → Keeps w.arrays w'.arrays) {callbackId : Int32}
    {funcs : List HostFunction} {f : DartFunction} {out : Except DartError Ptr}
    (lent : w.arrays[argv]? = some args) (listed : w.hostFunctionCache ctx = some funcs)
    (nonneg : ¬callbackId.toInt < 0)
    (found : funcs[callbackId.toInt.toNat]? = some (HostFunction.new (.function f)))
    (run : Exec (env.answers (.plain rely False)) (dispatch fuel ctx args.length argv callbackId)
      w h out w') : ServesWith (.plain rely False) fuel ctx argv args f h := by
  have known : answer (.hostFunctions ctx) w = some (some funcs, w) := by
    simp only [answer, listed]
  have looks : (perform (.hostFunctions ctx)).Within Inner := .call trivial
  obtain ⟨e, failed, -⟩ | ⟨r, w₁, h₁, t₁, asked, run₁, rfl⟩ := Exec.bind_iff.mp run
  · obtain ⟨r, w₁, t, -, rest, -⟩ := Exec.ask_iff.mp failed
    cases rest
  · have quiet := dispatched_inner looks asked
    obtain ⟨answered, -⟩ := Exec.call_iff.mp asked
    obtain ⟨rfl, rfl⟩ := Release.answers_known known answered
    simp only [nonneg, if_false, found] at run₁
    have serves : ServesWith (.plain rely False) fuel ctx argv args f t₁ := by
      obtain ⟨e, failed, -⟩ | ⟨params, w₂, h₂, t₂, converted, run₂, rfl⟩ := Exec.bind_iff.mp run₁
      · obtain ⟨parts, params, bad, -⟩ | ⟨-, rejected⟩ := parameterLoop_run lends lent failed
        · cases bad
        · have none_ := dispatched_inner (inner_parameterLoop fuel args.length argv _ 0) failed
          exact .inr ⟨⟨t₁, List.infix_refl _, rejected⟩, none_⟩
      · obtain ⟨parts, params', same, flat, passed⟩ | ⟨⟨e, bad⟩, -⟩ :=
          parameterLoop_run lends lent converted
        · cases same
          have none_ := dispatched_inner (inner_parameterLoop fuel args.length argv _ 0) converted
          have once := apply_run run₂
          refine .inl ⟨[], parts, t₂, params, by rw [flat, List.nil_append], passed, ?_⟩
          rw [dispatched_append none_, once]
        · cases bad
    have both := serves.surround (b := []) quiet rfl
    rwa [List.append_nil] at both

theorem functionCallback_run (lends : ∀ w w', rely w w' → Keeps w.arrays w'.arrays) {this : Ptr}
    {callbackId : Int32} {funcs : List HostFunction} {f : DartFunction} {out : Except DartError Ptr}
    (lent : w.arrays[argv]? = some args) (listed : w.hostFunctionCache ctx = some funcs)
    (nonneg : ¬callbackId.toInt < 0)
    (found : funcs[callbackId.toInt.toNat]? = some (HostFunction.new (.function f)))
    (run : Exec (env.answers (.plain rely False))
      (functionCallback fuel ctx this args.length argv callbackId) w h out w') :
    ServesWith (.plain rely False) fuel ctx argv args f h := by
  rw [functionCallback_eq] at run
  have wraps := within_new .undefined
  obtain ⟨e, failed, -⟩ | ⟨jsVal, w₁, h₁, t₁, made, run₁, rfl⟩ := Exec.bind_iff.mp run
  · obtain ⟨r, w₁, t, -, rest, -⟩ := Exec.ask_iff.mp failed
    cases rest
  · have quiet := dispatched_inner wraps made
    obtain ⟨answered, -⟩ := Exec.call_iff.mp made
    obtain ⟨-, same⟩ := Release.answers_known rfl answered
    have lent₁ : w₁.arrays[argv]? = some args := by
      rw [same]
      exact lent
    have listed₁ : w₁.hostFunctionCache ctx = some funcs := by
      rw [same]
      exact listed
    obtain ⟨a, served, -⟩ | ⟨e, w₂, h₂, t₂, failed, handled, rfl⟩ := Exec.handle_iff.mp run₁
    · have serves := dispatch_run lends lent₁ listed₁ nonneg found served
      have both := serves.surround (b := []) quiet rfl
      rwa [List.append_nil] at both
    · have serves := dispatch_run lends lent₁ listed₁ nonneg found failed
      refine serves.surround quiet (dispatched_inner (.bind (.call trivial : Program.Within Inner (perform (.print e))) fun printed => ?_) handled)
      cases printed with
      | ok _ => exact .pure _
      | error e => exact .throw _

theorem called_run (lends : ∀ w w', rely w w' → Keeps w.arrays w'.arrays) {cf : CFunction}
    {this : JSValue} {funcs : List HostFunction} {f : DartFunction} {out : Except DartError JSValue}
    (registered : w.callbackRegistered = true) (listed : w.hostFunctionCache cf.ctx = some funcs)
    (nonneg : ¬cf.callbackId.toInt < 0)
    (found : funcs[cf.callbackId.toInt.toNat]? = some (HostFunction.new (.function f)))
    (run : Exec (env.answers (.plain rely False)) (called fuel cf this args) w h out w') :
    ServesWith (.plain rely False) fuel cf.ctx w.arrays.length args f h := by
  have lending : (perform (.lendArguments args)).Within Inner := .call trivial
  have asking : (perform .callbackRegistered).Within Inner := .call trivial
  obtain ⟨e, failed, -⟩ | ⟨argv, w₁, h₁, t₁, asked, run₁, rfl⟩ := Exec.bind_iff.mp run
  · obtain ⟨r, w₁, t, -, rest, -⟩ := Exec.ask_iff.mp failed
    cases rest
  have quiet := dispatched_inner lending asked
  obtain ⟨answered, -⟩ := Exec.call_iff.mp asked
  obtain ⟨place, same₁⟩ := Release.answers_known rfl answered
  have first : argv = w.arrays.length := place
  obtain ⟨e, failed, -⟩ | ⟨b, w₂, h₂, t₂, asked, run₂, rfl⟩ := Exec.bind_iff.mp run₁
  · obtain ⟨r, w₁, t, -, rest, -⟩ := Exec.ask_iff.mp failed
    cases rest
  have quiet₂ := dispatched_inner asking asked
  obtain ⟨answered, -⟩ := Exec.call_iff.mp asked
  obtain ⟨second, same₂⟩ := Release.answers_known rfl answered
  have yes : b = true := by
    rw [second, same₁]
    exact registered
  simp only [yes, if_true] at run₂
  obtain ⟨e, failed, -⟩ | ⟨thisPtr, w₃, h₃, t₃, wrapped, run₃, rfl⟩ := Exec.bind_iff.mp run₂
  · obtain ⟨r, w₁, t, -, rest, -⟩ := Exec.ask_iff.mp failed
    cases rest
  have quiet₃ := dispatched_inner (within_new this) wrapped
  obtain ⟨answered, -⟩ := Exec.call_iff.mp wrapped
  obtain ⟨-, same₃⟩ := Release.answers_known rfl answered
  have before : (h₁ ++ (h₂ ++ h₃)).filterMap dispatched = [] := by
    rw [dispatched_append quiet, dispatched_append quiet₂, quiet₃]
  have lent : w₃.arrays[argv]? = some args := by
    rw [same₃, same₂, same₁, first]
    simp
  have listed₃ : w₃.hostFunctionCache cf.ctx = some funcs := by
    rw [same₃, same₂, same₁]
    exact listed
  rw [← first]
  obtain ⟨e, failed, -⟩ | ⟨result, w₄, h₄, t₄, served, run₄, rfl⟩ := Exec.bind_iff.mp run₃
  · have serves := functionCallback_run lends lent listed₃ nonneg found failed
    have all := serves.surround (b := []) before rfl
    simpa only [List.append_assoc, List.append_nil] using all
  · have serves := functionCallback_run lends lent listed₃ nonneg found served
    have ends : (do
        let ret ← perform (.load result)
        perform (.giveBack ret)
        return ret : Action JSValue).Within Inner :=
      .bind (.call trivial) fun _ => .bind (.call trivial) fun _ => .pure _
    have all := serves.surround before (dispatched_inner ends run₄)
    simpa only [List.append_assoc] using all

end

end FlutterQuickjs.Callback
