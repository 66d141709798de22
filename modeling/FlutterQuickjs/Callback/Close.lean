import FlutterQuickjs.Callback.Registry

namespace FlutterQuickjs.Callback

open Engine Binding
open Effect

/-- The pointers were released in this order, one reference each. -/
structure Freed (ptrs : List Ptr) (w w' : World) : Prop where
  rest : w' = { w with held := w'.held, released := w.released ++ ptrs }
  held : ∀ v, w'.held v = w.held v - (ptrs.map w.value).count v

/-- What `close` does: both lists of the context are gone, and all that they held is released,
then the global object and the context. -/
structure Closed (i : Instance) (w w' : World) : Prop where
  released : w'.released =
    w.released ++ ((w.jsFunctionCache i.ctx).getD [] ++ [i.globalPtr])
  held : ∀ v, w'.held v = w.held v -
    (((w.jsFunctionCache i.ctx).getD [] ++ [i.globalPtr]).map w.value).count v
  rest : w' = { w with
    held := w'.held
    released := w'.released
    jsFunctionCache := Function.update w.jsFunctionCache i.ctx none
    hostFunctionCache := Function.update w.hostFunctionCache i.ctx none
    contexts := w.contexts.erase i.ctx
    cfunctions := w.cfunctions.filter (·.ctx ≠ i.ctx) }

namespace Freed

variable {w w' w'' : World} {ptrs more : List Ptr}

theorem nil (w : World) : Freed [] w w := by
  refine ⟨?_, fun v => ?_⟩ <;> simp

theorem value (freed : Freed ptrs w w') (p : Ptr) : w'.value p = w.value p := by
  rw [freed.rest]
  cases p <;> rfl

theorem append (first : Freed ptrs w w') (second : Freed more w' w'') :
    Freed (ptrs ++ more) w w'' := by
  have same : more.map w'.value = more.map w.value := List.map_congr_left fun p _ => first.value p
  refine ⟨?_, fun v => ?_⟩
  · rw [second.rest, first.rest]
    simp
  · rw [second.held, first.held, same, List.map_append, List.count_append]
    push_cast
    omega

theorem single (w : World) (p : Ptr) :
    Freed [p] w { w.debit (w.value p) with released := w.released ++ [p] } := by
  refine ⟨rfl, fun v => ?_⟩
  by_cases same : v = w.value p
  · simp [World.debit, same]
  · have other : w.value p ≠ v := fun equal => same equal.symm
    simp [World.debit, same, other]

end Freed

section

variable {S : Setting Op Reply World} (free : ∀ op w, ¬foreign op w → S.guard op w)
  (all : ∀ op w r, S.allowed op w r) {w : World}

include free all

theorem wp_known (op : Op) {Q : Except DartError (Reply op) → World → Prop} {r : Reply op}
    {w' : World} (known : answer op w = some (r,w')) (holds : Q (.ok r) w') :
    wp env S (perform op) Q w := by
  rw [wp_perform, known, continues_some]
  exact ⟨free op w (own_of_answer known), fun _ => all op w r, fun _ => holds⟩

theorem wp_freed (p : Ptr) {Q : Except DartError Unit → World → Prop}
    (rest : ∀ w', Freed [p] w w' → Q (.ok ()) w') : wp env S (jsFreeValue p) Q w := by
  rw [jsFreeValue, wp_bind]
  refine wp_known free all (.load p) rfl ?_
  rw [andThen_ok, wp_bind]
  refine wp_known free all (.freeValue _) rfl ?_
  exact wp_known free all (.delete p) rfl (rest _ (.single w p))

theorem wp_clearCacheLoop (ctx : Ctx) {ptrs : List Ptr} {rounds i : Nat}
    (registered : w.jsFunctionCache ctx = some ptrs) (enough : i + rounds = ptrs.length)
    {Q : Except DartError Unit → World → Prop} (rest : ∀ w', Freed (ptrs.drop i) w w' → Q (.ok ()) w') :
    wp env S (JSFunction.clearCacheLoop ctx rounds i) Q w := by
  induction rounds generalizing w i with
  | zero =>
    have past : ptrs.drop i = [] := List.drop_eq_nil_of_le (by omega)
    rw [past] at rest
    exact rest w (.nil w)
  | succ rounds ih =>
    have bound : i < ptrs.length := by omega
    have known : answer (.jsFunctions ctx) w = some (some ptrs, w) := by
      simp only [answer, registered]
    rw [JSFunction.clearCacheLoop, wp_bind]
    refine wp_known free all (.jsFunctions ctx) known ?_
    simp only [andThen_ok, List.getElem?_eq_getElem bound]
    rw [wp_bind]
    refine wp_freed free all _ fun w₁ first => ?_
    have still : w₁.jsFunctionCache ctx = some ptrs := by
      rw [first.rest]
      exact registered
    refine ih still (by omega) fun w₂ later => rest w₂ ?_
    rw [List.drop_eq_getElem_cons bound]
    exact first.append later

/-- The function objects that JS gave to Dart are released; their list goes. -/
theorem wp_clearCache (ctx : Ctx) {Q : Except DartError Unit → World → Prop}
    (rest : ∀ w₁, Freed ((w.jsFunctionCache ctx).getD []) w w₁ →
      Q (.ok ()) { w₁ with jsFunctionCache := Function.update w.jsFunctionCache ctx none }) :
    wp env S (JSFunction.clearCache ctx) Q w := by
  rw [JSFunction.clearCache, wp_bind]
  refine wp_known free all (.jsFunctions ctx) rfl ?_
  rw [andThen_ok, wp_bind]
  cases registered : w.jsFunctionCache ctx with
  | none =>
    rw [registered] at rest
    have last : Q (.ok ()) { w with jsFunctionCache := Function.update w.jsFunctionCache ctx none } :=
      rest w (.nil w)
    simp only [Option.map_none, Option.getD_none, JSFunction.clearCacheLoop, wp_pure, andThen_ok]
    rw [wp_bind]
    refine wp_known free all (.jsFunctions ctx) rfl ?_
    simp only [andThen_ok, registered, Option.isSome_none, Bool.false_eq_true, if_false]
    exact wp_known free all (.setJSFunctions ctx none) rfl last
  | some ptrs =>
    rw [registered] at rest
    simp only [Option.map_some, Option.getD_some]
    refine wp_clearCacheLoop free all ctx registered (Nat.zero_add _) fun w₁ freed => ?_
    have still : w₁.jsFunctionCache = w.jsFunctionCache := by rw [freed.rest]
    have some_ : (w₁.jsFunctionCache ctx).isSome = true := by rw [still, registered]; rfl
    rw [andThen_ok, wp_bind]
    refine wp_known free all (.jsFunctions ctx) rfl ?_
    simp only [andThen_ok, some_, if_true]
    rw [wp_bind]
    refine wp_known free all (.setJSFunctions ctx (some [])) rfl ?_
    rw [andThen_ok]
    refine wp_known free all (.setJSFunctions ctx none) rfl ?_
    rw [Function.update_idem, still]
    exact rest w₁ freed

theorem wp_close (self : Instance) :
    wp env S self.close (fun out w' => out = .ok () ∧ Closed self w w') w := by
  rw [Instance.close, wp_bind]
  refine wp_clearCache free all self.ctx fun w₁ first => ?_
  rw [andThen_ok, HostFunctionProxy.clearCache, wp_bind, wp_bind]
  refine wp_known free all (.hostFunctions self.ctx) rfl ?_
  have last : ∀ w₂ : World, w₂ = { w₁ with
      jsFunctionCache := Function.update w.jsFunctionCache self.ctx none
      hostFunctionCache := Function.update w.hostFunctionCache self.ctx none } →
      wp env S (do
        jsFreeValue self.globalPtr
        perform (.freeRuntime self.ctx)) (fun out w' => out = .ok () ∧ Closed self w w') w₂ := by
    intro w₂ same
    rw [wp_bind]
    refine wp_freed free all _ fun w₃ second => ?_
    refine wp_known free all (.freeRuntime self.ctx) rfl ⟨rfl, ?_⟩
    have both : w₃.released = w.released ++ ((w.jsFunctionCache self.ctx).getD [] ++ [self.globalPtr]) := by
      rw [second.rest, same, first.rest, List.append_assoc]
    have value : ∀ p, w₂.value p = w.value p := by
      intro p
      rw [same, first.rest]
      cases p <;> rfl
    refine ⟨both, fun v => ?_, ?_⟩
    · have held : w₂.held v = w₁.held v := by rw [same]
      have count : ([self.globalPtr].map w₂.value) = [w.value self.globalPtr] := by
        rw [List.map_singleton, value]
      have total := second.held v
      rw [count, held, first.held v] at total
      rw [List.map_append, List.count_append, List.map_singleton]
      push_cast
      omega
    · rw [second.rest, same, first.rest]
  have functions : w₁.hostFunctionCache = w.hostFunctionCache := by rw [first.rest]
  cases listed : (w₁.hostFunctionCache self.ctx).isSome with
  | true =>
    simp only [andThen_ok, listed, if_true]
    rw [wp_bind]
    refine wp_known free all (.setHostFunctions self.ctx (some [])) rfl ?_
    rw [andThen_ok]
    refine wp_known free all (.setHostFunctions self.ctx none) rfl ?_
    rw [andThen_ok, Function.update_idem]
    exact last _ (by rw [functions])
  | false =>
    simp only [andThen_ok, listed, Bool.false_eq_true, if_false]
    refine wp_known free all (.setHostFunctions self.ctx none) rfl ?_
    rw [andThen_ok]
    exact last _ (by rw [functions])

end

end FlutterQuickjs.Callback
