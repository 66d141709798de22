import FlutterQuickjs.Callback.Walk

namespace FlutterQuickjs.Callback

open Engine Binding ValueConverter HostFunctionProxy
open Effect

/-- Nothing is registered meanwhile, and no context opened or closed. -/
structure Aside (w w' : World) : Prop where
  contexts : w'.contexts = w.contexts
  cfunctions : w'.cfunctions = w.cfunctions
  origins : w'.origins = w.origins
  functions : w'.hostFunctionCache = w.hostFunctionCache
  jsFunctions : w'.jsFunctionCache = w.jsFunctionCache
  registered : w'.callbackRegistered = w.callbackRegistered
  initialized : w'.initialized = w.initialized
  serial : w.serial ≤ w'.serial

section

variable {op : Op} {w w' : World} {r : Reply op}

theorem Aside.refl (w : World) : Aside w w := ⟨rfl, rfl, rfl, rfl, rfl, rfl, rfl, le_rfl⟩

theorem aside_direct (usual : Usual op) (answered : direct op w r w') : Aside w w' := by
  cases op with
  | newContext => exact usual.elim
  | freeRuntime ctx => exact usual.elim
  | newCFunctionData ctx n => exact usual.elim
  | origin p f => exact usual.elim
  | setHostFunctions ctx funcs => exact usual.elim
  | setJSFunctions ctx ptrs => exact usual.elim
  | registerCallback => exact usual.elim
  | setInitialized => exact usual.elim
  | calloc n => exact usual.elim
  | store argv i v => exact usual.elim
  | isArray ctx v =>
    obtain ⟨-, rfl⟩ | ⟨-, e, rfl⟩ := direct_isArray answered <;> exact { Aside.refl _ with }
  | toInt32 ctx v =>
    rw [direct_toInt32 answered]
    exact .refl _
  | toInt64 ctx v =>
    rw [direct_toInt64 answered]
    exact .refl _
  | toFloat64 ctx v =>
    rw [direct_toFloat64 answered]
    exact .refl _
  | toCString ctx v =>
    obtain ⟨s, -, -, rfl⟩ | ⟨-, ⟨-, rfl⟩ | ⟨-, e, rfl⟩⟩ := direct_toCString answered <;>
      exact { Aside.refl _ with }
  | getProperty ctx v k =>
    rw [(direct_getProperty answered).2]
    exact { Aside.refl _ with }
  | getOwnPropertyNames ctx v =>
    obtain ⟨keys, -, -, rfl⟩ := direct_getOwnPropertyNames answered
    exact { Aside.refl _ with }
  | setProperty ctx v k x =>
    obtain ⟨heap, -, rfl⟩ | ⟨-, e, rfl⟩ := direct_setProperty answered <;> exact { Aside.refl _ with }
  | defineIndex ctx v i x flags =>
    obtain ⟨heap, rfl⟩ | ⟨-, e, rfl⟩ := direct_defineIndex answered <;> exact { Aside.refl _ with }
  | newObject ctx =>
    obtain ⟨address, -, -, rfl⟩ := answered
    exact { Aside.refl w with serial := Nat.le_succ _ }
  | newArray ctx =>
    obtain ⟨address, -, -, rfl⟩ := answered
    exact { Aside.refl w with serial := Nat.le_succ _ }
  | newCFunction ctx name =>
    obtain ⟨address, -, -, rfl⟩ := answered
    exact { Aside.refl w with serial := Nat.le_succ _ }
  | print e =>
    rw [direct_print answered]
    exact .refl _
  | eval ctx input filename => exact answered.elim
  | call ctx f this argc argv => exact answered.elim
  | apply f params => exact answered.elim
  | _ =>
    obtain ⟨-, rfl⟩ := answered
    exact { Aside.refl _ with }

theorem aside_back (returned : back op w r w') : Aside w w' := by
  cases op with
  | eval ctx input filename =>
    obtain ⟨-, e, rfl⟩ | ⟨-, rfl⟩ := returned <;> exact { Aside.refl _ with }
  | call ctx f this argc argv =>
    obtain ⟨-, e, rfl⟩ | ⟨-, rfl⟩ := returned <;> exact { Aside.refl _ with }
  | getProperty ctx v k =>
    obtain ⟨-, e, rfl⟩ | ⟨-, rfl⟩ := returned <;> exact { Aside.refl _ with }
  | toInt32 ctx v => obtain rfl | ⟨-, e, rfl⟩ := returned <;> exact { Aside.refl _ with }
  | toInt64 ctx v => obtain rfl | ⟨-, e, rfl⟩ := returned <;> exact { Aside.refl _ with }
  | toFloat64 ctx v => obtain rfl | ⟨-, e, rfl⟩ := returned <;> exact { Aside.refl _ with }
  | toCString ctx v =>
    obtain ⟨s, -, rfl⟩ | ⟨-, e, rfl⟩ := returned <;> exact { Aside.refl _ with }
  | getOwnPropertyNames ctx v =>
    obtain ⟨keys, -, rfl⟩ | ⟨-, e, rfl⟩ := returned <;> exact { Aside.refl _ with }
  | setProperty ctx v k x =>
    obtain ⟨-, rfl⟩ | ⟨-, e, rfl⟩ := returned <;> exact { Aside.refl _ with }
  | defineIndex ctx v i x flags =>
    obtain ⟨-, rfl⟩ | ⟨-, e, rfl⟩ := returned <;> exact { Aside.refl _ with }
  | apply f params =>
    cases returned
    exact .refl _
  | print e =>
    cases returned
    exact .refl _
  | _ => exact returned.elim

end

/-- Every function object made for a Dart function leads to that function, through the list of
its own context. -/
structure Linked (w : World) : Prop where
  slots : ∀ cf ∈ w.cfunctions, ∀ f, (cf.object,f) ∈ w.origins → ∃ funcs i,
    w.hostFunctionCache cf.ctx = some funcs ∧ cf.callbackId = Int32.ofNat i ∧
      funcs[i]? = some (HostFunction.new (.function f))
  dart : ∀ ctx funcs, w.hostFunctionCache ctx = some funcs →
    ∀ host ∈ funcs, ∃ f, host = HostFunction.new (.function f)
  closed : ∀ ctx, ctx ∉ w.contexts → w.hostFunctionCache ctx = none
  forgotten : ∀ ctx, ctx ∉ w.contexts → w.jsFunctionCache ctx = none
  opened : ∀ cf ∈ w.cfunctions, cf.ctx ∈ w.contexts
  young : ∀ cf ∈ w.cfunctions, cf.object.serial < w.serial
  old : ∀ e ∈ w.origins, e.1.serial < w.serial
  started : w.initialized = true → w.callbackRegistered = true
  running : ∀ e ∈ w.origins, w.callbackRegistered = true

/-- What operations other than `close` do: contexts stay open, both lists of a context grow at
their ends, function objects stay, and stay linked. -/
structure Advances (w w' : World) : Prop where
  contexts : ∀ ctx ∈ w.contexts, ctx ∈ w'.contexts
  functions : ∀ ctx ∈ w.contexts,
    (w.hostFunctionCache ctx).getD [] <+: (w'.hostFunctionCache ctx).getD []
  jsFunctions : ∀ ctx ∈ w.contexts,
    (w.jsFunctionCache ctx).getD [] <+: (w'.jsFunctionCache ctx).getD []
  cfunctions : w.cfunctions <+: w'.cfunctions
  origins : w.origins <+: w'.origins
  linked : Linked w → Linked w'

namespace Advances

variable {w w' w'' : World}

theorem refl (w : World) : Advances w w :=
  ⟨fun _ => id, fun _ _ => List.prefix_rfl, fun _ _ => List.prefix_rfl, List.prefix_rfl,
    List.prefix_rfl, id⟩

theorem trans (first : Advances w w') (second : Advances w' w'') : Advances w w'' where
  contexts ctx inside := second.contexts ctx (first.contexts ctx inside)
  functions ctx inside :=
    (first.functions ctx inside).trans (second.functions ctx (first.contexts ctx inside))
  jsFunctions ctx inside :=
    (first.jsFunctions ctx inside).trans (second.jsFunctions ctx (first.contexts ctx inside))
  cfunctions := first.cfunctions.trans second.cfunctions
  origins := first.origins.trans second.origins
  linked linked := second.linked (first.linked linked)

theorem of_aside (aside : Aside w w') : Advances w w' := by
  refine ⟨?_, ?_, ?_, ?_, ?_, fun linked => ⟨?_, ?_, ?_, ?_, ?_, ?_, ?_, ?_, ?_⟩⟩
  · rw [aside.contexts]
    exact fun _ => id
  · rw [aside.functions]
    exact fun _ _ => List.prefix_rfl
  · rw [aside.jsFunctions]
    exact fun _ _ => List.prefix_rfl
  · simp only [aside.cfunctions, List.prefix_rfl]
  · simp only [aside.origins, List.prefix_rfl]
  · rw [aside.cfunctions, aside.origins, aside.functions]
    exact linked.slots
  · rw [aside.functions]
    exact linked.dart
  · rw [aside.contexts, aside.functions]
    exact linked.closed
  · rw [aside.contexts, aside.jsFunctions]
    exact linked.forgotten
  · rw [aside.cfunctions, aside.contexts]
    exact linked.opened
  · rw [aside.cfunctions]
    exact fun cf inside => Nat.lt_of_lt_of_le (linked.young cf inside) aside.serial
  · rw [aside.origins]
    exact fun e inside => Nat.lt_of_lt_of_le (linked.old e inside) aside.serial
  · rw [aside.initialized, aside.registered]
    exact linked.started
  · rw [aside.origins, aside.registered]
    exact linked.running

theorem of_evolves (evolves : Evolves w w') : Advances w w' := by
  refine of_aside ?_
  rw [evolves.rest]
  exact { Aside.refl w with serial := evolves.serial }

/-- A function of JS that Dart gets is put at the end of the list of its context. -/
theorem remembers {ctx : Ctx} (inside : ctx ∈ w.contexts) (val : Ptr) : Advances w { w with
    jsFunctionCache := Function.update w.jsFunctionCache ctx
      (some ((w.jsFunctionCache ctx).getD [] ++ [val])) } := by
  refine { refl w with jsFunctions := fun c _ => ?_, linked := fun linked => ?_ }
  · by_cases same : c = ctx
    · simp [same]
    · simp [same]
  · refine { linked with forgotten := fun c outside => ?_ }
    have other : c ≠ ctx := fun same => outside (same ▸ inside)
    simpa [other] using linked.forgotten c outside

end Advances

namespace Enrolls

variable {w w' : World} {ctx : Ctx} {f : DartFunction}

theorem contexts (registers : Enrolls w ctx f w') : w'.contexts = w.contexts := by
  obtain ⟨o, -, same⟩ := registers.object
  rw [same]

theorem functions (registers : Enrolls w ctx f w') :
    w'.hostFunctionCache = Function.update w.hostFunctionCache ctx
      (some ((w.hostFunctionCache ctx).getD [] ++ [HostFunction.new (.function f)])) := by
  obtain ⟨o, -, same⟩ := registers.object
  rw [same]

theorem objects (registers : Enrolls w ctx f w') : ∃ o : ObjRef, o.serial = w.serial ∧
    w'.origins = w.origins ++ [(o,f)] ∧ w'.cfunctions =
      w.cfunctions ++ [⟨o,ctx,Int32.ofNat ((w.hostFunctionCache ctx).getD []).length⟩] := by
  obtain ⟨o, young, same⟩ := registers.object
  refine ⟨o, young, ?_, ?_⟩ <;> rw [same]

theorem serial (registers : Enrolls w ctx f w') : w'.serial = w.serial + 1 := by
  obtain ⟨o, -, same⟩ := registers.object
  rw [same]

theorem jsFunctions (registers : Enrolls w ctx f w') : w'.jsFunctionCache = w.jsFunctionCache := by
  obtain ⟨o, -, same⟩ := registers.object
  rw [same]

theorem slots (registers : Enrolls w ctx f w') (linked : Linked w) (cf : CFunction)
    (member : cf ∈ w'.cfunctions) (g : DartFunction) (made : (cf.object,g) ∈ w'.origins) :
    ∃ funcs i, w'.hostFunctionCache cf.ctx = some funcs ∧ cf.callbackId = Int32.ofNat i ∧
      funcs[i]? = some (HostFunction.new (.function g)) := by
  obtain ⟨o, young, origins, cfunctions⟩ := registers.objects
  rw [cfunctions, List.mem_append, List.mem_singleton] at member
  rw [origins, List.mem_append, List.mem_singleton] at made
  rw [registers.functions]
  rcases member with there | isNew
  · have older := linked.young cf there
    rcases made with known | fresh
    · obtain ⟨funcs, i, found, id, slot⟩ := linked.slots cf there g known
      by_cases same : cf.ctx = ctx
      · have bound := (List.getElem?_eq_some_iff.mp slot).1
        rw [← same, Function.update_self, found]
        refine ⟨_, i, rfl, id, ?_⟩
        rw [Option.getD_some, List.getElem?_append_left bound, slot]
      · rw [Function.update_of_ne same]
        exact ⟨funcs, i, found, id, slot⟩
    · have same : cf.object = o := congrArg Prod.fst fresh
      rw [same] at older
      omega
  · rcases made with known | fresh
    · have older := linked.old _ known
      rw [isNew] at older
      simp only at older
      omega
    · have same : g = f := congrArg Prod.snd fresh
      rw [isNew, same, Function.update_self]
      exact ⟨_, _, rfl, rfl, by simp⟩

theorem dart (registers : Enrolls w ctx f w') (linked : Linked w) (c : Ctx)
    (funcs : List HostFunction) (found : w'.hostFunctionCache c = some funcs) :
    ∀ host ∈ funcs, ∃ g, host = HostFunction.new (.function g) := by
  rw [registers.functions] at found
  by_cases same : c = ctx
  · rw [same, Function.update_self, Option.some.injEq] at found
    intro host member
    rw [← found, List.mem_append, List.mem_singleton] at member
    rcases member with there | isNew
    · cases listed : w.hostFunctionCache ctx with
      | none => simp [listed] at there
      | some funcs =>
        rw [listed] at there
        exact linked.dart ctx funcs listed host there
    · exact ⟨f, isNew⟩
  · rw [Function.update_of_ne same] at found
    exact linked.dart c funcs found

theorem linked (registers : Enrolls w ctx f w') (inside : ctx ∈ w.contexts) (linked : Linked w) :
    Linked w' := by
  obtain ⟨o, young, origins, cfunctions⟩ := registers.objects
  have serial := registers.serial
  refine ⟨registers.slots linked, registers.dart linked, fun c outside => ?_,
    fun c outside => ?_, fun cf member => ?_, fun cf member => ?_, fun e member => ?_,
    fun _ => registers.registered linked.started, fun _ _ => registers.registered linked.started⟩
  · rw [registers.contexts] at outside
    have other : c ≠ ctx := fun same => outside (same ▸ inside)
    rw [registers.functions, Function.update_of_ne other, linked.closed c outside]
  · rw [registers.contexts] at outside
    rw [registers.jsFunctions, linked.forgotten c outside]
  · rw [cfunctions, List.mem_append, List.mem_singleton] at member
    rw [registers.contexts]
    rcases member with there | isNew
    · exact linked.opened cf there
    · rw [isNew]
      exact inside
  · rw [cfunctions, List.mem_append, List.mem_singleton] at member
    rcases member with there | isNew
    · have older := linked.young cf there
      omega
    · rw [isNew]
      simp only
      omega
  · rw [origins, List.mem_append, List.mem_singleton] at member
    rcases member with there | isNew
    · have older := linked.old e there
      omega
    · rw [isNew]
      simp only
      omega

theorem extends_ (registers : Enrolls w ctx f w') (inside : ctx ∈ w.contexts) : Advances w w' := by
  obtain ⟨o, -, origins, cfunctions⟩ := registers.objects
  refine ⟨?_, fun c _ => ?_, ?_, ?_, ?_, registers.linked inside⟩
  · rw [registers.contexts]
    exact fun _ => id
  · rw [registers.functions]
    by_cases same : c = ctx
    · simp [same]
    · simp [same]
  · rw [registers.jsFunctions]
    exact fun _ _ => List.prefix_rfl
  · rw [cfunctions]
    exact List.prefix_append _ _
  · rw [origins]
    exact List.prefix_append _ _

end Enrolls

/-- Programs that start with `ctx` open do nothing but extend the world. -/
theorem registry (ctx : Ctx) : Walk Linked (fun w => ctx ∈ w.contexts ∧ Linked w) Advances (· = ctx)
    fun _ => True where
  refl := .refl
  trans := .trans
  kept moves holds := ⟨moves.contexts ctx holds.1, moves.linked holds.2⟩
  implies holds := holds.2
  usual usual _ answered := by
    obtain ⟨-, ⟨-, own⟩ | ⟨-, w₁, between, returned⟩⟩ := answered
    · exact .of_aside (aside_direct usual own)
    · exact Advances.trans between (.of_aside (aside_back returned))
  registers allowed holds registers := registers.extends_ (allowed ▸ holds.1)
  remembers val allowed holds := .remembers (allowed ▸ holds.1) val
  callocs vector _ := .of_aside { Aside.refl _ with }
  owns _ := trivial
  stores i v _ _ := .of_aside { Aside.refl _ with }
  hosts _ holds listed host member c p wrapper := by
    obtain ⟨f, isNew⟩ := holds.2.dart _ _ listed host member
    rw [isNew, onCall_new] at wrapper
    cases wrapper

end FlutterQuickjs.Callback
