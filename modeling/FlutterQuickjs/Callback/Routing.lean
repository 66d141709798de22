import FlutterQuickjs.Binding.Lists
import FlutterQuickjs.Callback.Interleaving

namespace FlutterQuickjs.Callback

open Engine Binding ValueConverter HostFunctionProxy
open Effect

/-- The boxes and the argument vectors that were there are there, with what they held. -/
structure Stable (w w' : World) : Prop where
  boxes : Keeps w.boxes w'.boxes
  arrays : Keeps w.arrays w'.arrays

namespace Stable

variable {w₀ w w' w'' : World}

theorem refl (w : World) : Stable w w := ⟨.refl _, .refl _⟩

theorem trans (first : Stable w w') (second : Stable w' w'') : Stable w w'' :=
  ⟨first.boxes.trans second.boxes, first.arrays.trans second.arrays⟩

theorem direct {op : Op} {r : Reply op} (usual : Usual op) (answered : direct op w r w') :
    Stable w w' := by
  have boxes := (frame_direct answered).boxes
  by_cases vectors : Vectors op
  · cases op with
    | calloc n => exact usual.elim
    | store argv i v => exact usual.elim
    | lendArguments args =>
      obtain ⟨-, rfl⟩ := answered
      exact ⟨boxes, .append _ _⟩
    | _ => exact vectors.elim
  · refine ⟨boxes, ?_⟩
    rw [(steady_direct answered).arrays vectors]
    exact .refl _

theorem back {op : Op} {r : Reply op} (usual : Usual op) (returned : back op w r w') :
    Stable w w' := by
  refine ⟨(frame_back returned).boxes, ?_⟩
  have vectors : ¬Vectors op := by
    cases op with
    | lendArguments args => exact returned.elim
    | calloc n => exact usual.elim
    | store argv i v => exact usual.elim
    | _ => exact id
  rw [(steady_back returned).arrays vectors]
  exact .refl _

theorem opened {r : Ctx} (opened : choice .newContext w r w') : Stable w w' := by
  obtain ⟨-, realm, heap, n, -, -, rfl⟩ := opened
  exact ⟨.refl _, .refl _⟩

end Stable

/-- What has become of `w₀` meanwhile. -/
structure Since (w₀ w : World) : Prop where
  linked : Linked w
  extends_ : Advances w₀ w
  stable : Stable w₀ w

/-- What programs do that start after `w₀`: they leave alone what was there. -/
structure Spares (w₀ w w' : World) : Prop where
  extends_ : Advances w w'
  stable : Stable w₀ w → Stable w₀ w'

theorem Spares.of_stable {w₀ w w' : World} (extends_ : Advances w w') (stable : Stable w w') :
    Spares w₀ w w' := ⟨extends_, fun before => before.trans stable⟩

/-- Argument vectors that are filled after `w₀` were made after `w₀`. -/
theorem spares (w₀ : World) (ctx : Ctx) : Walk (Since w₀) (fun w => ctx ∈ w.contexts ∧ Since w₀ w)
    (Spares w₀) (· = ctx) (w₀.arrays.length ≤ ·) where
  refl w := .of_stable (.refl w) (.refl w)
  trans first second := ⟨first.extends_.trans second.extends_, fun before => second.stable (first.stable before)⟩
  kept moves holds := ⟨moves.extends_.contexts ctx holds.1, moves.extends_.linked holds.2.linked,
    holds.2.extends_.trans moves.extends_, moves.stable holds.2.stable⟩
  implies holds := holds.2
  usual usual _ answered := by
    obtain ⟨-, ⟨-, own⟩ | ⟨-, w₁, between, returned⟩⟩ := answered
    · exact .of_stable (.of_aside (aside_direct usual own)) (.direct usual own)
    · refine ⟨between.extends_.trans (.of_aside (aside_back returned)), fun before => ?_⟩
      exact (between.stable before).trans (.back usual returned)
  registers allowed holds registers := by
    have extends_ := registers.extends_ (allowed ▸ holds.1)
    obtain ⟨o, -, same⟩ := registers.object
    refine .of_stable extends_ ⟨?_, ?_⟩
    · rw [same]
      exact .append _ _
    · rw [same]
      exact .refl _
  remembers val allowed holds := .of_stable (.remembers (allowed ▸ holds.1) val) ⟨.refl _, .refl _⟩
  callocs vector _ := .of_stable (.of_aside { Aside.refl _ with }) ⟨.refl _, .append _ _⟩
  owns holds := holds.2.stable.arrays.1
  stores i v own _ := ⟨.of_aside { Aside.refl _ with }, fun before =>
    ⟨before.boxes, before.arrays.modify own _⟩⟩
  hosts allowed holds listed := (registry ctx).hosts allowed ⟨holds.1, holds.2.linked⟩ listed

section

variable [PackageFfi] {c : Config Op Reply DartError World}

theorem agrees_since (w₀ : World) : binding.inner.Agrees (Since w₀) (Spares w₀) where
  refl := (spares w₀ 0).refl
  trans := (spares w₀ 0).trans
  kept moves holds := ⟨moves.extends_.linked holds.linked, holds.extends_.trans moves.extends_,
    moves.stable holds.stable⟩
  evolves evolves := by
    refine .of_stable (.of_evolves evolves) ⟨?_, ?_⟩ <;>
    · rw [evolves.rest]
      exact .refl _
  nested starts holds := by
    refine starts_along (spares w₀) (fun _ since => since.linked) (fun since opened => ?_) starts holds
    obtain ⟨extends_, inside, -⟩ := newContext_extends since.linked opened
    exact ⟨.of_stable extends_ (.opened opened), inside, extends_.linked since.linked,
      since.extends_.trans extends_, since.stable.trans (.opened opened)⟩
  outermost starts := starts.elim

/-- What the world becomes while a program waits for foreign code, which may start others. -/
def Meanwhile : World → World → Prop := binding.Meantime .initial

theorem Meanwhile.stable {w w' : World} (meanwhile : Meanwhile w w') : Stable w w' := by
  obtain ⟨waiting, waits, reaches, meantime⟩ := meanwhile
  have linked := linked_of_reaches reaches rfl
  have start : Since w w := ⟨linked, .refl _, .refl _⟩
  exact (System.invariant_over waits (agrees_since w) start meantime rfl).stable

/-- Foreign code does nothing, or what may happen meanwhile. -/
abbrev interrupted : Setting Op Reply World := .plain (Relation.ReflGen Meanwhile) False

theorem answers_interrupted {rely : World → World → Prop} {op : Op} {w w' : World} {r : Reply op}
    (allowed : ∀ {w w'}, rely w w' → Relation.ReflGen Meanwhile w w')
    (answered : env.answers (.plain rely False) op w r w') : env.answers interrupted op w r w' := by
  obtain ⟨-, own | ⟨foreign, w₁, between, returned⟩⟩ := answered
  · exact ⟨trivial, .inl own⟩
  · exact ⟨trivial, .inr ⟨foreign, w₁, allowed between, returned⟩⟩

theorem arrays_interrupted (w w' : World) (between : Relation.ReflGen Meanwhile w w') :
    Keeps w.arrays w'.arrays := by
  cases between with
  | refl => exact .refl _
  | single meanwhile => exact meanwhile.stable.arrays

/-- The entries of a context are gone from both registries, those of the others are as before. -/
structure Removes (ctx : Ctx) (w w' : World) : Prop where
  functions : w'.hostFunctionCache ctx = none
  jsFunctions : w'.jsFunctionCache ctx = none
  others : ∀ other, other ≠ ctx → w'.hostFunctionCache other = w.hostFunctionCache other ∧
    w'.jsFunctionCache other = w.jsFunctionCache other

omit [PackageFfi] in
theorem Closed.removes {self : Instance} {w w' : World} (closed : Closed self w w') :
    Removes self.ctx w w' := by
  rw [closed.rest]
  refine ⟨by simp, by simp, fun other apart => ⟨?_, ?_⟩⟩
  · exact Function.update_of_ne apart ..
  · exact Function.update_of_ne apart ..

/-- Every JS call of the function object of a Dart function is served by that function alone, what
happens from the call on until it has ended is such a run, and `close` removes what its own
instance has in the registries. -/
structure Routes (c : Config Op Reply DartError World) : Prop where
  calls : ∀ cf ∈ c.world.cfunctions, ∀ f, (cf.object,f) ∈ c.world.origins →
    ∀ fuel this args h out w',
      Exec (env.answers interrupted) (called fuel cf this args) c.world h out w' →
      ServesWith interrupted fuel cf.ctx c.world.arrays.length args f h
  runs : ∀ cf ∈ c.world.cfunctions, ∀ fuel this args w',
    binding.Over c.waiting ⟨c.waiting,some ⟨JSValue,called fuel cf this args⟩,c.world⟩
      ⟨c.waiting,none,w'⟩ →
    ∃ h out w₁, Exec (env.answers interrupted) (called fuel cf this args) c.world h out w₁ ∧
      binding.Over c.waiting ⟨c.waiting,none,w₁⟩ ⟨c.waiting,none,w'⟩
  closes : ∀ (self : Instance) h out w',
    Exec (env.answers interrupted) self.close c.world h out w' → Removes self.ctx c.world w'

omit [PackageFfi] in
/-- The function object of `f` has a place in the list of its context, and `f` is there. -/
theorem registered_of_linked {w : World} (linked : Linked w) {cf : CFunction} {f : DartFunction}
    (made : cf ∈ w.cfunctions) (origin : (cf.object,f) ∈ w.origins)
    (few : ∀ funcs, w.hostFunctionCache cf.ctx = some funcs → funcs.length ≤ 2^31) :
    ∃ funcs, w.callbackRegistered = true ∧ w.hostFunctionCache cf.ctx = some funcs ∧
      ¬cf.callbackId.toInt < 0 ∧
      funcs[cf.callbackId.toInt.toNat]? = some (HostFunction.new (.function f)) := by
  obtain ⟨funcs, i, listed, id, slot⟩ := linked.slots cf made f origin
  have bound := (List.getElem?_eq_some_iff.mp slot).1
  have small := few funcs listed
  have place : cf.callbackId.toInt = i := by
    rw [id]
    exact Int32.toInt_ofNat_of_lt (by omega)
  refine ⟨funcs, linked.running _ origin, listed, by omega, ?_⟩
  rw [place, Int.toNat_natCast]
  exact slot

/-- However instances are created, used, interrupted and closed: wherever foreign code runs, a JS
call of the function object made for a Dart function leads to that function and to no other. -/
theorem routes_of_reaches (reaches : binding.Reaches .initial c) (idle : c.running = none)
    (few : ∀ ctx funcs, c.world.hostFunctionCache ctx = some funcs → funcs.length ≤ 2^31) :
    Routes c := by
  have linked := linked_of_reaches reaches idle
  constructor
  · intro cf made f origin fuel this args h out w' run
    obtain ⟨funcs, registered, listed, nonneg, found⟩ :=
      registered_of_linked linked made origin (few cf.ctx)
    exact called_run arrays_interrupted registered listed nonneg found run
  · intro cf made fuel this args w' elapsed
    obtain ⟨waiting, running, w⟩ := c
    cases idle
    have started : binding.Reaches .initial ⟨waiting,some ⟨JSValue,called fuel cf this args⟩,w⟩ :=
      reaches.tail (.start (MayStart.callback fuel cf this args made))
    obtain ⟨h, out, w₁, run, later⟩ := (System.ran_of_over elapsed rfl rfl started).1 _ _ rfl
    exact ⟨h, out, w₁, run.mono fun _ _ _ _ => answers_interrupted .single, later⟩
  · intro self h out w' run
    have verified := wp_close (S := interrupted) (w := c.world) (fun _ _ _ => trivial)
      (fun _ _ _ => trivial) self
    exact (wp_sound verified run).2.removes

end

/-- A new context without objects of its own. -/
def openAt (w : World) (ctx : Ctx) : World :=
  { w with
    realm := Function.update w.realm ctx (w.realm ctx)
    pending := Function.update w.pending ctx none
    contexts := ctx :: w.contexts }

theorem openAt_opens {w : World} {ctx : Ctx} (unused : ctx ∉ w.contexts) :
    direct .newContext w ctx (openAt w ctx) :=
  ⟨unused, _, _, _, fun _ _ found => found, le_rfl, rfl⟩

/-- Contexts and function objects at free addresses; scripts give one JS function, all functions
return undefined or null at once. -/
def idles : (op : Op) → World → Option (Reply op × World)
  | .newContext, w =>
    if 0 ∉ w.contexts then some (0, openAt w 0)
    else if 1 ∉ w.contexts then some (1, openAt w 1)
    else none
  | .newCFunctionData ctx id, w =>
    if w.heap.Taken (w.serial + 1) then none
    else some (.object ⟨w.serial + 1,w.serial,.function⟩,
      { (w.allocate (w.serial + 1) .function (w.realm ctx).functionProto).credit
          (.object ⟨w.serial + 1,w.serial,.function⟩) with
        cfunctions := w.cfunctions ++ [⟨⟨w.serial + 1,w.serial,.function⟩,ctx,id⟩] })
  | .eval _ _ _, w => some (.object ⟨0,0,.function⟩, w.credit (.object ⟨0,0,.function⟩))
  | .call _ _ _ _ _, w => some (.undefined, w.credit .undefined)
  | .apply _ _, w => some (.ok .null, w)
  | _, _ => none

theorem idles_answers (op : Op) (w : World) (r : Reply op) (w' : World)
    (answered : scripted idles op w = some (r,w')) : env.answers (.plain Eq False) op w r w' := by
  refine scripted_answers (fun _ => rfl) (fun op w r w' replied => ?_) op w r w' answered
  cases op with
  | newContext =>
    simp only [idles] at replied
    split at replied
    · rename_i unused
      cases replied
      exact .inl ⟨openAt_opens unused, id⟩
    · split at replied
      · rename_i unused
        cases replied
        exact .inl ⟨openAt_opens unused, id⟩
      · cases replied
  | newCFunctionData ctx n =>
    simp only [idles] at replied
    split at replied
    · cases replied
    · rename_i free
      cases replied
      exact .inl ⟨⟨_, free, rfl, rfl⟩, id⟩
  | eval ctx input filename =>
    cases replied
    exact .inr ⟨trivial, .inr ⟨by simp, rfl⟩⟩
  | call ctx f this argc argv =>
    cases replied
    exact .inr ⟨trivial, .inr ⟨by simp, rfl⟩⟩
  | apply f params =>
    cases replied
    exact .inr ⟨trivial, rfl⟩
  | _ => cases replied

/-- The world after a program that meets no other foreign code. -/
def leaves {α : Type} (p : Action α) (w : World) : World :=
  match p.eval (scripted idles) w with
  | some a => a.2
  | none => w

theorem exec_leaves {α : Type} {p : Action α} {w : World}
    (ends : (p.eval (scripted idles) w).isSome = true) :
    ∃ h out, Exec (env.answers (.plain Eq False)) p w h out (leaves p w) := by
  obtain ⟨⟨out, w'⟩, same⟩ := Option.isSome_iff_exists.mp ends
  obtain ⟨h, run⟩ := Exec.of_eval idles_answers same
  have after : leaves p w = w' := by simp only [leaves, same]
  rw [after]
  exact ⟨h, out, run⟩

section

variable [PackageFfi] {w₀ w : World} {waiting : List (Suspended Op Reply DartError)} {fuel : Nat}

theorem reaches_leaves (reaches : binding.Reaches w₀ ⟨waiting,none,w⟩) {α : Type} {p : Action α}
    (starts : MayStart w ⟨α,p⟩) (ends : (p.eval (scripted idles) w).isSome = true) :
    binding.Reaches w₀ ⟨waiting,none,leaves p w⟩ := by
  obtain ⟨h, out, run⟩ := exec_leaves ends
  exact reaches.run rfl starts run

theorem reaches_wrapper (reaches : binding.Reaches w₀ ⟨waiting,none,w⟩) {ctx : Ctx} {val : Ptr}
    {arguments : List DartVal} (inside : ctx ∈ w.contexts)
    (ends : ((wrapperCall fuel ctx val arguments).eval (scripted idles) w).isSome = true) :
    binding.Reaches w₀ ⟨waiting,none,leaves (wrapperCall fuel ctx val arguments) w⟩ :=
  reaches_leaves reaches (.enter fuel (.wrapper ctx val arguments) inside) ends

theorem reaches_close (reaches : binding.Reaches w₀ ⟨[],none,w⟩) {self : Instance}
    (inside : self.ctx ∈ w.contexts) (ends : (self.close.eval (scripted idles) w).isSome = true) :
    binding.Reaches w₀ ⟨[],none,leaves self.close w⟩ := by
  obtain ⟨h, out, run⟩ := exec_leaves ends
  have starts : binding.outermost w ⟨Unit,self.close⟩ := Closes.close self inside
  exact (reaches.tail (.startOutermost starts)).trans (System.Over.of_exec run []).steps

/-- The calls of Dart functions. -/
def applies : Op → Bool
  | .apply _ _ => true
  | _ => false

/-- The world in which a program calls a Dart function first. -/
def applying {α : Type} (p : Action α) (w : World) : World :=
  (p.upTo (scripted idles) applies w).getD w

theorem reaches_applying (reaches : binding.Reaches w₀ ⟨waiting,none,w⟩) {α : Type} {p : Action α}
    (starts : MayStart w ⟨α,p⟩) (comes : (p.upTo (scripted idles) applies w).isSome = true) :
    ∃ f, binding.Reaches w₀ ⟨f :: waiting,none,applying p w⟩ := by
  obtain ⟨w', same⟩ := Option.isSome_iff_exists.mp comes
  have after : applying p w = w' := by simp only [applying, same, Option.getD_some]
  rw [after]
  refine System.Reaches.upTo idles_answers (fun op w there => ?_) (reaches.tail (.start starts)) same
  cases op with
  | apply f params => trivial
  | _ => cases there

end

/-- A Dart function of two parameters. -/
def pair : DartFunction := ⟨1, units "(dynamic, dynamic) => void"⟩

/-- An instance gets the function of the script that keeps its argument, and calls it with `f`. -/
def passes [PackageFfi] (self : Instance) (val : Ptr) (f : DartFunction) (w : World) : World :=
  leaves (wrapperCall 2 self.ctx val [.function f])
    (leaves (self.eval 2 (units "f => void (globalThis.f = f)") none) w)

/-- Two instances; `thrower` is passed to the first, which is closed then. -/
def closedOne [PackageFfi] : World :=
  leaves (Instance.close ⟨0,.box 0⟩)
    (passes ⟨0,.box 0⟩ (.box 2) thrower (leaves Instance.new (leaves Instance.new .initial)))

/-- A new instance at the same address, and `pair` is passed to it. -/
def reopened [PackageFfi] : World := passes ⟨0,.box 6⟩ (.box 7) pair (leaves Instance.new closedOne)

/-- The function object of `pair`. -/
def pairObject : CFunction := ⟨⟨2,1,.function⟩,0,0⟩

/-- While `pair` runs, it passes `thrower` to the same instance. -/
def nested [PackageFfi] : World :=
  leaves (wrapperCall 2 0 (.box 7) [.function thrower])
    (applying (called 1 pairObject .undefined [.bool true]) reopened)

theorem reaches_passes [PackageFfi] {w₀ w : World} {waiting : List (Suspended Op Reply DartError)}
    (self : Instance) (val : Ptr) (f : DartFunction) (reaches : binding.Reaches w₀ ⟨waiting,none,w⟩)
    (inside : self.ctx ∈ w.contexts)
    (gives : ((self.eval 2 (units "f => void (globalThis.f = f)") none).eval (scripted idles)
      w).isSome = true)
    (still : self.ctx ∈ (leaves (self.eval 2 (units "f => void (globalThis.f = f)") none) w).contexts)
    (ends : ((wrapperCall 2 self.ctx val [.function f]).eval (scripted idles)
      (leaves (self.eval 2 (units "f => void (globalThis.f = f)") none) w)).isSome = true) :
    binding.Reaches w₀ ⟨waiting,none,passes self val f w⟩ := by
  have first := reaches_leaves reaches (.enter 2 (.eval self _ none) inside) gives
  exact reaches_wrapper first still ends

theorem reaches_two :
    letI := PackageFfi.utf8
    binding.Reaches .initial ⟨[],none,leaves Instance.new (leaves Instance.new .initial)⟩ := by
  let _ := PackageFfi.utf8
  have first : binding.Reaches .initial ⟨[],none,leaves Instance.new .initial⟩ :=
    reaches_leaves .refl (.create _) (by decide +kernel)
  exact reaches_leaves first (.create _) (by decide +kernel)

theorem reaches_closedOne :
    letI := PackageFfi.utf8
    binding.Reaches .initial ⟨[],none,closedOne⟩ := by
  let _ := PackageFfi.utf8
  have passed := reaches_passes ⟨0,.box 0⟩ (.box 2) thrower reaches_two (by decide +kernel)
    (by decide +kernel) (by decide +kernel) (by decide +kernel)
  exact reaches_close passed (by decide +kernel) (by decide +kernel)

theorem reaches_reopened :
    letI := PackageFfi.utf8
    binding.Reaches .initial ⟨[],none,reopened⟩ := by
  let _ := PackageFfi.utf8
  have first := reaches_leaves reaches_closedOne (.create _) (by decide +kernel)
  exact reaches_passes ⟨0,.box 6⟩ (.box 7) pair first (by decide +kernel) (by decide +kernel) (by decide +kernel)
    (by decide +kernel)

/-- A script runs first of all. -/
theorem waits_eval [PackageFfi] {w₀ w : World} {waiting : List (Suspended Op Reply DartError)}
    (reaches : binding.Reaches w₀ ⟨waiting,none,w⟩) (fuel : Nat) (self : Instance) (script : Units)
    (source : Option Units) (inside : self.ctx ∈ w.contexts) :
    ∃ f, binding.Reaches w₀ ⟨f :: waiting,none,w⟩ := by
  have first : ∃ input filename k,
      (Entry.eval self script source).program fuel = .ask (.eval self.ctx input filename) k :=
    ⟨_, _, _, rfl⟩
  obtain ⟨input, filename, k, same⟩ := first
  have starts := MayStart.enter fuel (.eval self script source) inside
  rw [same] at starts
  exact ⟨_, reaches.waits rfl starts trivial⟩

/-- A script calls `pair`, which passes a function meanwhile: both wait. -/
theorem reaches_nested :
    letI := PackageFfi.utf8
    ∃ waiting, waiting.length = 2 ∧ binding.Reaches .initial ⟨waiting,none,nested⟩ := by
  let _ := PackageFfi.utf8
  obtain ⟨script, runs⟩ := waits_eval reaches_reopened 2 ⟨0,.box 6⟩ (units "f(true)") none
    (by decide +kernel)
  obtain ⟨callback, waits⟩ := reaches_applying runs
    (.callback 1 pairObject .undefined [.bool true] (by decide +kernel)) (by decide +kernel)
  exact ⟨[callback,script], rfl, reaches_wrapper waits (by decide +kernel) (by decide +kernel)⟩

theorem few_of_linked {w : World} (linked : Linked w) {ctxs : List Ctx} (these : w.contexts = ctxs)
    (small : ∀ ctx ∈ ctxs, ((w.hostFunctionCache ctx).getD []).length ≤ 2^31) (ctx : Ctx)
    (funcs : List HostFunction) (listed : w.hostFunctionCache ctx = some funcs) :
    funcs.length ≤ 2^31 := by
  have inside : ctx ∈ w.contexts := by
    by_contra outside
    rw [linked.closed ctx outside] at listed
    cases listed
  rw [these] at inside
  have bound := small ctx inside
  rwa [listed] at bound

theorem few_nested :
    letI := PackageFfi.utf8
    ∀ ctx funcs, nested.hostFunctionCache ctx = some funcs → funcs.length ≤ 2^31 := by
  let _ := PackageFfi.utf8
  obtain ⟨waiting, -, reaches⟩ := reaches_nested
  have both : nested.contexts = [0,1] := by decide +kernel
  exact few_of_linked (linked_of_reaches reaches rfl) both (by decide +kernel)

theorem run_nested :
    letI := PackageFfi.utf8
    ∃ h out w', Exec (env.answers interrupted) (called 1 pairObject .undefined [.bool true]) nested
      h out w' ∧ h.filterMap dispatched = [(pair,[.bool true,.null])] := by
  let _ := PackageFfi.utf8
  obtain ⟨h, out, w', run, checked⟩ := Exec.of_check idles_answers
    (p := called 1 pairObject .undefined [.bool true]) (w := nested)
    (fun h _ => h.filterMap dispatched = [(pair,[.bool true,.null])]) (by decide +kernel)
  exact ⟨h, out, w', run.mono fun _ _ _ _ => answers_interrupted (· ▸ .refl), of_decide_eq_true checked⟩

/-- The address of a closed instance is used again and `pair` registers a function while it runs:
JS calls of it still lead to it. -/
theorem routes_nested :
    letI := PackageFfi.utf8
    ∃ waiting, waiting.length = 2 ∧ Routes ⟨waiting,none,nested⟩ ∧
      ∃ h out w', Exec (env.answers interrupted) (called 1 pairObject .undefined [.bool true]) nested
        h out w' ∧ h.filterMap dispatched = [(pair,[.bool true,.null])] := by
  let _ := PackageFfi.utf8
  obtain ⟨waiting, two, reaches⟩ := reaches_nested
  exact ⟨waiting, two, routes_of_reaches reaches rfl few_nested, run_nested⟩

end FlutterQuickjs.Callback
