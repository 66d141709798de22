import FlutterQuickjs.Callback.Close
import FlutterQuickjs.Callback.Dispatch

namespace FlutterQuickjs.Callback

open Engine Binding ValueConverter HostFunctionProxy
open Effect

section

variable [PackageFfi]

omit [PackageFfi] in
/-- A new context starts without functions: no list was left behind at its address. -/
theorem newContext_extends {w w' : World} {r : Ctx} (linked : Linked w)
    (opened : choice .newContext w r w') :
    Advances w w' ∧ r ∈ w'.contexts ∧ w'.hostFunctionCache r = none ∧ w'.jsFunctionCache r = none := by
  obtain ⟨unused, realm, heap, n, -, later, rfl⟩ := opened
  refine ⟨⟨fun ctx => List.mem_cons_of_mem r, fun _ _ => List.prefix_rfl, fun _ _ => List.prefix_rfl,
    List.prefix_rfl, List.prefix_rfl, fun linked => { linked with
      closed := ?_, forgotten := ?_, opened := ?_, young := ?_, old := ?_ }⟩,
    List.mem_cons_self .., linked.closed r unused, linked.forgotten r unused⟩
  · exact fun ctx outside => linked.closed ctx fun inside => outside (List.mem_cons_of_mem r inside)
  · exact fun ctx outside => linked.forgotten ctx fun inside => outside (List.mem_cons_of_mem r inside)
  · exact fun cf member => List.mem_cons_of_mem r (linked.opened cf member)
  · exact fun cf member => Nat.lt_of_lt_of_le (linked.young cf member) later
  · exact fun e member => Nat.lt_of_lt_of_le (linked.old e member) later

omit [PackageFfi] in
/-- Closing a context takes its functions and their list together. -/
theorem Closed.linked {self : Instance} {w w' : World} (closed : Closed self w w')
    (linked : Linked w) : Linked w' := by
  rw [closed.rest]
  have mem : ∀ cf ∈ w.cfunctions.filter (·.ctx ≠ self.ctx), cf ∈ w.cfunctions ∧ cf.ctx ≠ self.ctx := by
    intro cf member
    simpa using member
  refine { linked with
    slots := ?_, dart := ?_, closed := ?_, forgotten := ?_, opened := ?_, young := ?_ }
  · intro cf member f made
    obtain ⟨there, other⟩ := mem cf member
    obtain ⟨funcs, i, found, id, slot⟩ := linked.slots cf there f made
    exact ⟨funcs, i, by simp [other, found], id, slot⟩
  · intro ctx funcs found
    by_cases same : ctx = self.ctx
    · simp [same] at found
    · exact linked.dart ctx funcs (by simpa [same] using found)
  · intro ctx outside
    by_cases same : ctx = self.ctx
    · simp [same]
    · have before := linked.closed ctx fun inside => outside ((List.mem_erase_of_ne same).mpr inside)
      simpa [same] using before
  · intro ctx outside
    by_cases same : ctx = self.ctx
    · simp [same]
    · have before := linked.forgotten ctx fun inside =>
        outside ((List.mem_erase_of_ne same).mpr inside)
      simpa [same] using before
  · intro cf member
    obtain ⟨there, other⟩ := mem cf member
    exact (List.mem_erase_of_ne other).mpr (linked.opened cf there)
  · intro cf member
    exact linked.young cf (mem cf member).1

omit [PackageFfi] in
theorem linked_close {self : Instance} {w : World} (linked : Linked w) :
    wp env (env.calling Linked Advances) self.close (fun _ w' => Linked w') w := by
  refine wp_mono (wp_close (fun op w outside runs => absurd runs outside) (fun _ _ _ => trivial) self)
    fun out w' after => ?_
  exact after.2.linked linked

/-- What the Dart program and JS code may start at any time: a new instance, an operation of an
open one, or a call of one of the function objects. -/
inductive MayStart : World → Task Op Reply DartError → Prop
  | create (w : World) : MayStart w ⟨Unit,Instance.new⟩
  | enter {w : World} (fuel : Nat) (entry : Entry) (inside : entry.ctx ∈ w.contexts) :
      MayStart w ⟨DartVal,entry.program fuel⟩
  | global {w : World} (fuel : Nat) (self : Instance) (inside : self.ctx ∈ w.contexts) :
      MayStart w ⟨DartVal,self.global fuel⟩
  | setValue {w : World} (fuel : Nat) (self : Instance) (key : Units) (value : DartVal)
      (inside : self.ctx ∈ w.contexts) : MayStart w ⟨Unit,self.setValue fuel key value⟩
  | registerEval {w : World} (self : Instance) (funcName : Option Units)
      (inside : self.ctx ∈ w.contexts) : MayStart w ⟨Unit,self.registerEvalToGlobal funcName⟩
  | callback {w : World} (fuel : Nat) (cf : CFunction) (this : JSValue) (args : List JSValue)
      (made : cf ∈ w.cfunctions) : MayStart w ⟨JSValue,called fuel cf this args⟩

/-- What the Dart program may start outside of callbacks only. -/
inductive Closes : World → Task Op Reply DartError → Prop
  | close {w : World} (self : Instance) (inside : self.ctx ∈ w.contexts) : Closes w ⟨Unit,self.close⟩

/-- All instances together with the Dart program and the JS code that use them. -/
def binding : System Op Reply DartError World := ⟨env, Evolves, MayStart, Closes⟩

/-- What every step of the binding's programs keeps, the programs keep. -/
theorem starts_along {I : World → Prop} {R : World → World → Prop} {Own : Nat → Prop}
    (walks : ∀ ctx, Walk I (fun w => ctx ∈ w.contexts ∧ I w) R (· = ctx) Own)
    (linked : ∀ w, I w → Linked w)
    (opens : ∀ {w r w'}, I w → choice .newContext w r w' → R w w' ∧ r ∈ w'.contexts ∧ I w')
    {w : World} {t : Task Op Reply DartError} (starts : MayStart w t) (holds : I w) :
    wp env (env.calling I R) t.program (fun _ w' => R w w') w := by
  cases starts with
  | create =>
    have own : ¬foreign .newContext w := id
    simp only [Instance.new]
    rw [wp_bind, wp_choice own rfl]
    refine ⟨fun runs => absurd runs own, False.elim, fun ctx w₁ _ chosen => ?_⟩
    obtain ⟨first, inside, still⟩ := opens holds chosen
    have rest : Along I (fun w => ctx ∈ w.contexts ∧ I w) R (do
        let global ← jsGetGlobalObject ctx
        perform (.newInstance ⟨ctx,global⟩)) :=
      (walks ctx).within (.bind (.bind (.call trivial) fun _ => .call trivial) fun _ => .call trivial)
    exact wp_mono (rest w₁ ⟨inside, still⟩) fun _ _ after => (walks ctx).trans first after
  | enter fuel entry inside => exact (walks entry.ctx).entry fuel entry rfl _ ⟨inside, holds⟩
  | global fuel self inside => exact (walks self.ctx).fromJs rfl fuel _ ⟨inside, holds⟩
  | setValue fuel self key value inside =>
    exact (walks self.ctx).setValue fuel self rfl key value _ ⟨inside, holds⟩
  | registerEval self funcName inside =>
    exact (walks self.ctx).registerEvalToGlobal self funcName _ ⟨inside, holds⟩
  | callback fuel cf this args made =>
    have inside := (linked w holds).opened cf made
    exact (walks cf.ctx).called fuel cf rfl this args _ ⟨inside, holds⟩

theorem agrees : binding.Agrees Linked Advances where
  refl := .refl
  trans := .trans
  kept moves := moves.linked
  evolves := .of_evolves
  nested starts linked := by
    refine starts_along registry (fun _ => id) (fun linked opened => ?_) starts linked
    obtain ⟨extends_, inside, -⟩ := newContext_extends linked opened
    exact ⟨extends_, inside, extends_.linked linked⟩
  outermost starts linked := by
    cases starts with
    | close self inside => exact linked_close linked

omit [PackageFfi] in
theorem linked_initial : Linked World.initial := by
  refine ⟨?_, ?_, ?_, ?_, ?_, ?_, ?_, ?_, ?_⟩ <;> simp [World.initial]

theorem linked_of_reaches {c : Config Op Reply DartError World}
    (reaches : binding.Reaches .initial c) (idle : c.running = none) : Linked c.world :=
  System.invariant_of_reaches agrees linked_initial reaches idle

end

end FlutterQuickjs.Callback
