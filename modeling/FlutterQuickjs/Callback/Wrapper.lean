import FlutterQuickjs.Conversion.Shallow
import FlutterQuickjs.Conversion.ToJs
import FlutterQuickjs.Release.Terms
import FlutterQuickjs.Binding.Scripted

namespace FlutterQuickjs.Callback

open Engine Binding Conversion ValueConverter
open Effect

def isCall : Op → Bool
  | .call _ _ _ _ _ => true
  | _ => false

/-- The slots of the vector hold the images of the arguments. -/
def Passed (w : World) (arguments : List DartVal) (argv : Nat) (w' : World) : Prop :=
  ∀ i d, arguments[i]? = some d → ∃ interned root n lo hi,
    Encoded interned w root w'.heap n d (w'.value (.slot argv i)) lo hi

/-- A call is one of `f` with the images of the arguments, and the global object for `this`. -/
def CallsWith (ctx : Ctx) (f : JSValue) (arguments : List DartVal) (w : World) (op : Op)
    (w' : World) : Prop :=
  match op with
  | .call ctx' f' this argc argv => ctx' = ctx ∧ f' = f ∧ this = .object (w.realm ctx).global ∧
      argc = arguments.length ∧ Passed w arguments argv w'
  | _ => True

/-- The invocation calls `f` once, with the images of the arguments. -/
structure CallsOnce (ctx : Ctx) (f : JSValue) (arguments : List DartVal) (w : World)
    (invocation : Action DartVal) : Prop where
  rightly : wp env ⟨Eq, CallsWith ctx f arguments w, fun _ _ _ => True, False⟩ invocation
    (fun _ _ => True) w
  once : ∀ h out w', Exec (env.answers (.plain Eq False)) invocation w h out w' →
    (h.filter fun e => isCall e.1).length = 1

section

variable [PackageFfi]

/-- Where no foreign code interferes and the stack is deep enough, both ways to invoke the wrapper
of the function in `val` call that function once on the images of the arguments, and give the same
results and errors. -/
def SameEffect (ctx : Ctx) (val : Ptr) (arguments : List DartVal) (w : World) : Prop :=
  ∃ n, ∀ fuel, n ≤ fuel →
    CallsOnce ctx (w.value val) arguments w
      ((HostFunction.new (.wrapper ctx val)).noSuchMethod fuel arguments) ∧
    CallsOnce ctx (w.value val) arguments w
      ((HostFunction.new (.wrapper ctx val)).apply fuel arguments) ∧
    ∀ out,
      (∃ h w', Exec (env.answers (.plain Eq False))
        ((HostFunction.new (.wrapper ctx val)).noSuchMethod fuel arguments) w h out w') ↔
      ∃ h w', Exec (env.answers (.plain Eq False))
        ((HostFunction.new (.wrapper ctx val)).apply fuel arguments) w h out w'

variable {fuel : Nat} {ctx : Ctx} {val : Ptr} {w : World} {arguments : List DartVal}

omit [PackageFfi] in
/-- No value is the image of a list and of the one element of that list. -/
theorem not_encoded_twice {interned interned' : CString → Bool} {w₀ : World} {root root' : ObjRef}
    {h : Heap} {n n' l lo hi lo' hi' : Nat} {d : DartVal} {v : JSValue} (lists : w₀.lists = w.lists)
    (single : w.lists.getD l [] = [d]) (whole : Encoded interned w root h n (.list l) v lo hi)
    (part : Encoded interned' w₀ root' h n' d v lo' hi') : False := by
  induction n' generalizing n l d v lo hi lo' hi' with
  | zero => exact part
  | succ n' ih =>
    cases n with
    | zero => exact whole
    | succ n =>
      obtain ⟨o, obj, rfl, array, found, -, -, filled⟩ := whole
      rw [single] at filled
      cases d with
      | list l' =>
        obtain ⟨o', obj', same, -, found', -, -, filled'⟩ := part
        cases same
        cases Option.some.inj (found.symm.trans found')
        have one : (w.lists.getD l' []).length = 1 := by
          have first := filled.length
          have second := filled'.length
          rw [lists] at second
          simp only [List.length_singleton] at first
          omega
        obtain ⟨d', single'⟩ := List.length_eq_one_iff.mp one
        rw [lists, single'] at filled'
        have inside : 0 < obj.length.toNat := by
          have first := filled.length
          simp only [List.length_singleton] at first
          omega
        obtain ⟨p, at0⟩ := Option.isSome_iff_exists.mp (filled.dense 0 inside)
        obtain ⟨a, b, each, -⟩ := filled.holding
        obtain ⟨a', b', each', -⟩ := filled'.holding
        obtain ⟨d₁, x, ⟨j, before, -, source⟩, rfl, related, -, -⟩ := each _ p at0
        obtain ⟨d₂, x', ⟨j', before', -, source'⟩, same, related', -, -⟩ := each' _ _ at0
        cases same
        obtain rfl : j = 0 := by simpa using before
        obtain rfl : j' = 0 := by simpa using before'
        cases source
        cases source'
        exact ih single' related related'
      | map m =>
        obtain ⟨o', obj', same, ordinary, -⟩ := part
        cases same
        rw [array] at ordinary
        cases ordinary
      | function f =>
        obtain ⟨o', same, function, -⟩ := part
        cases same
        rw [array] at function
        cases function
      | int i =>
        have same : JSValue.object o = .newInt64 i := part.1
        unfold JSValue.newInt64 at same
        split at same <;> cases same
      | double x =>
        have same : JSValue.object o = .newFloat64 x := part.1
        unfold JSValue.newFloat64 at same
        split at same
        · split at same <;> cases same
        · cases same
      | _ => cases part.1

/-- Where the closure cannot take the arguments, `apply` fails before it calls anything. -/
theorem not_sameEffect_of_throw {e : DartError}
    (throws : ∀ fuel, (HostFunction.new (.wrapper ctx val)).apply fuel arguments = .fail e) :
    ¬SameEffect ctx val arguments w := by
  rintro ⟨n, same⟩
  have once := (same n le_rfl).2.1.once
  rw [throws] at once
  have none := once [] (.error e) w (.fail e w)
  cases none

omit [PackageFfi] in
/-- Some run finds no 8-bit atom by other names. -/
theorem exists_run_exactly {α : Type} (p : Action α) (w : World) : ∃ h out w',
    Exec (env.answers (building (findsExactly noneInterned) Eq False)) p w h out w' := by
  have total : wp env (.plain Eq True) p (fun _ _ => True) w := wp_total (fun _ => rfl) p w
  obtain ⟨h, out, w', run⟩ :=
    wp_runs (building_of_plain (possible_findsExactly noneInterned) total) trivial
  exact ⟨h, out, w', run⟩

omit [PackageFfi] in
theorem plain_of_exactly {α : Type} {p : Action α} {h : List (Event Op Reply)}
    {out : Except DartError α} {w w' : World}
    (run : Exec (env.answers (building (findsExactly noneInterned) Eq False)) p w h out w') :
    Exec (env.answers (.plain Eq False)) p w h out w' :=
  run.mono fun _ _ _ _ answered => ⟨trivial, answered.2⟩

omit [PackageFfi] in
/-- A run of the encoder calls nothing. -/
theorem no_call {α : Type} {p : Action α} {A : Answers Op Reply World} {h : List (Event Op Reply)}
    {out : Except DartError α} {w w' : World} (inner : p.Within Inner) (run : Exec A p w h out w') :
    h.filter (fun e => isCall e.1) = [] := by
  refine List.filter_eq_nil_iff.mpr fun e member call => ?_
  have quiet := run.within inner e member
  obtain ⟨op, r⟩ := e
  cases op with
  | call ctx f this argc argv => exact quiet
  | _ => cases call

/-- What the loop over one argument leaves in the vector. -/
theorem argumentLoop_single {n argv : Nat} {d : DartVal} {h : List (Event Op Reply)} {w' : World}
    (room : ∃ vs, w.arrays[argv]? = some vs ∧ 0 < vs.length)
    (run : Exec (env.answers (building (findsExactly noneInterned) Eq False))
      (JSFunction.argumentLoop (toQuickJSValue n ctx) argv 0 [d]) w h (.ok ()) w') :
    ∃ root lo hi, Encoded noneInterned w root w'.heap n d (w'.value (.slot argv 0)) lo hi := by
  obtain ⟨p, w₁, h₁, hs₁, converted, run₁, -⟩ := Exec.bind_ok run
  have calm : False ∨ ∀ w w' : World, w = w' → w' = w := .inr fun _ _ => Eq.symm
  have unused : False → Prototypes w (w.realm ctx).objectProto [] := False.elim
  have encodes := toQuickJSValue_encodes calm unused n d w (.refl w)
    (predictable_exactly noneInterned w d) False.elim
  obtain ⟨builds, v, holds, made⟩ := wp_sound encodes converted
  obtain ⟨u, w₂, h₂, hs₂, set, run₂, -⟩ := Exec.bind_ok run₁
  obtain ⟨-, -, rfl⟩ := Exec.done_iff.mp run₂
  obtain ⟨h₃, stored, -⟩ := Release.run_answered (.load p) rfl set
  obtain ⟨answered, -⟩ := Exec.call_iff.mp stored
  obtain ⟨-, rfl⟩ := Release.answers_known rfl answered
  refine ⟨(w.realm ctx).objectProto, w.serial, w₁.serial, ?_⟩
  obtain ⟨vs, found, inside⟩ := room
  have slot : ({ w₁ with arrays := w₁.arrays.modify argv (·.set 0 (w₁.value p)) } : World).value
      (.slot argv 0) = v := by
    rw [holds.value]
    simp [World.value, List.getD_eq_getElem?_getD, builds.arrays, found, inside]
  rw [← slot] at made
  exact made

/-- `apply` on a list never calls the function on the image of that list. -/
theorem not_callsOnce_list {l : Nat} : ¬CallsOnce ctx (w.value val) [.list l] w
    ((HostFunction.new (.wrapper ctx val)).apply fuel [.list l]) := by
  intro calls
  have listed := plain_known (.listElements l) w _ _ rfl
  have taken := plain_known (.calloc (w.lists.getD l []).length) w _ _ rfl
  have verified : wp env ⟨Eq, CallsWith ctx (w.value val) [.list l] w, fun _ _ _ => True, False⟩
      (wrapperCall fuel ctx val (w.lists.getD l [])) (fun _ _ => True) w :=
    calls.rightly.2.2 _ w listed
  rw [wrapperCall, wp_bind, JSFunction.callFunction, wp_bind] at verified
  have loops := verified.2.2 _ _ taken
  rw [wp_done, andThen_ok, wp_bind] at loops
  obtain ⟨h, out, w₂, run⟩ := exists_run_exactly
    (JSFunction.argumentLoop (toQuickJSValue fuel ctx) w.arrays.length 0 (w.lists.getD l []))
    { w with arrays := w.arrays ++ [List.replicate (w.lists.getD l []).length .undefined] }
  cases out with
  | error e =>
    have loop : Exec (env.answers (.plain Eq False))
        (JSFunction.callFunction fuel ctx val (w.lists.getD l [])) w
        (⟨.calloc (w.lists.getD l []).length, w.arrays.length⟩ :: h) (.error e) w₂ := by
      refine .ask taken ?_
      change Exec _ (Program.bind (JSFunction.argumentLoop _ _ _ _) _) _ _ _ _
      exact Exec.bind_iff.mpr (.inl ⟨e, plain_of_exactly run, rfl⟩)
    have called : Exec (env.answers (.plain Eq False)) (wrapperCall fuel ctx val (w.lists.getD l []))
        w _ (.error e) w₂ := Exec.bind_iff.mpr (.inl ⟨e, loop, rfl⟩)
    have failed : Exec (env.answers (.plain Eq False))
        ((HostFunction.new (.wrapper ctx val)).apply fuel [.list l]) w _ (.error e) w₂ :=
      .ask listed called
    have once := calls.once _ _ _ failed
    change (h.filter fun e => isCall e.1).length = 1 at once
    rw [no_call (inner_argumentLoop fuel _ 0 _) run] at once
    cases once
  | ok u =>
    have calling := wp_sound loops (plain_of_exactly run)
    have global := calling.2.2 _ _ (plain_known (.getGlobalObject ctx) w₂ _ _ rfl)
    have boxed := global.2.2 _ _ (plain_known (.new _) _ _ _ rfl)
    have loaded := boxed.2.2 _ _ (plain_known (.load val) _ _ _ rfl)
    have this := loaded.2.2 _ _ (plain_known (.load _) _ _ _ rfl)
    obtain ⟨-, -, -, count, passed⟩ := this.1
    obtain ⟨d, single⟩ := List.length_eq_one_iff.mp count
    obtain ⟨interned, root, n, lo, hi, image⟩ := passed 0 (.list l) rfl
    have whole : Encoded interned w root w₂.heap n (.list l)
      (w₂.value (.slot w.arrays.length 0)) lo hi := image
    rw [single] at run
    obtain ⟨root', lo', hi', part⟩ := argumentLoop_single ⟨[.undefined], by simp, by simp⟩ run
    refine not_encoded_twice ?_ single whole part
    rfl

/-- `apply` on the wrapper of a JS function never does what a call does: it spreads the list. -/
theorem not_sameEffect : ¬SameEffect ctx val arguments w := by
  match arguments with
  | [] => exact not_sameEffect_of_throw fun _ => rfl
  | [.list l] =>
    rintro ⟨n, same⟩
    exact not_callsOnce_list (same n le_rfl).2.1
  | [.null] => exact not_sameEffect_of_throw fun _ => rfl
  | [.bool b] => exact not_sameEffect_of_throw fun _ => rfl
  | [.int n] => exact not_sameEffect_of_throw fun _ => rfl
  | [.double d] => exact not_sameEffect_of_throw fun _ => rfl
  | [.string s] => exact not_sameEffect_of_throw fun _ => rfl
  | [.map m] => exact not_sameEffect_of_throw fun _ => rfl
  | [.hostFunction f] => exact not_sameEffect_of_throw fun _ => rfl
  | [.function f] => exact not_sameEffect_of_throw fun _ => rfl
  | [.exception m] => exact not_sameEffect_of_throw fun _ => rfl
  | [.other id] => exact not_sameEffect_of_throw fun _ => rfl
  | a :: b :: rest =>
    exact not_sameEffect_of_throw (e := .noSuchMethodError) fun _ => by cases a <;> rfl

omit [PackageFfi] in
/-- Two numbers go through a call; `apply` throws over them. -/
theorem not_sameEffect_numbers :
    letI := PackageFfi.utf8
    ¬SameEffect 0 (.box 0) [.int 2, .int 3] World.initial := by
  let _ := PackageFfi.utf8
  exact not_sameEffect_of_throw (e := .noSuchMethodError) fun _ => rfl

end

end FlutterQuickjs.Callback
