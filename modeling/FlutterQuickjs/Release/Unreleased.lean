import FlutterQuickjs.Binding.Reading
import FlutterQuickjs.Release.Terms

namespace FlutterQuickjs.Release

open Engine Binding ValueConverter
open Effect

variable {α β : Type} {S : Setting Op Reply World} {o : ObjRef} {w w' w₀ : World} {ctx : Ctx}
  {e : JSValue → Int} {val : Ptr}

theorem Owes.follows (o : ObjRef) : Follows (Owes o 0) := (Owes.ledger o).follows

theorem Owes.least (owes : Owes o e w w') (more : 0 ≤ e) : Owes o 0 w w' where
  boxes := owes.boxes
  held := by
    have := owes.held
    have := more (.object o)
    simp only [Pi.zero_apply] at *
    omega

theorem single_nonneg (v : JSValue) : 0 ≤ (Pi.single v 1 : JSValue → Int) := by simp

/-- Reading takes no reference away. -/
theorem owes_kept (terms : Terms S (Owes o)) : Kept S (Owes o 0) where
  follows := Owes.follows o
  reads op reading := by
    have ledger := Owes.ledger o
    apply Preserves.call (terms.free op) terms.partially
    intro w r w' answered
    cases op with
    | getException ctx => exact (Terms.getException ledger answered).2.least (single_nonneg r)
    | getProperty ctx v k =>
      obtain ⟨-, after⟩ | after := terms.getProperty ledger answered
      · exact after
      · exact after.least (single_nonneg r)
    | getOwnPropertyNames ctx v =>
      obtain ⟨-, ⟨-, own⟩ | ⟨-, w₁, between, returned⟩⟩ := answered
      · obtain ⟨keys, -, -, rfl⟩ := direct_getOwnPropertyNames own
        exact { ledger.refl w with }
      · apply ledger.still (terms.rely w w₁ between)
        obtain ⟨keys, -, rfl⟩ | ⟨-, e, rfl⟩ := returned <;> exact { ledger.refl w₁ with }
    | atomToValue k =>
      rw [(answers_known rfl answered).2]
      exact (ledger.credit w k.toValue).least (single_nonneg _)
    | freeAtom k =>
      rw [(answers_known rfl answered).2]
      exact { ledger.refl w with }
    | setJSFunctions ctx ptrs =>
      rw [(answers_known rfl answered).2]
      exact { ledger.refl w with }
    | _ => exact terms.still ledger _ (by first | exact id | exact fun _ => reading) answered

/-- The box `n` holds `v`, and a reference on it was gained on the way. -/
structure Spare (o : ObjRef) (n : Nat) (v : JSValue) (w w' : World) : Prop where
  holds : w'.boxes[n]? = some v
  owes : Owes o (Pi.single v 1) w w'

/-- An action that gains a reference for the box it returns. -/
def Gains (S : Setting Op Reply World) (o : ObjRef) (p : Action Ptr) : Prop :=
  ∀ w, wp env S p (fun out w' => Owes o 0 w w' ∧
    ∀ p, out = .ok p → ∃ n v, p = .box n ∧ Spare o n v w w') w

/-- Wrapping a pointer keeps the pointer. -/
theorem toDartJSValue_val (terms : Terms S (Owes o)) (w : World) :
    wp env S (toDartJSValue ctx val false) (fun out _ => ∀ jval, out = .ok jval → jval.val = val)
      w := by
  have made : ∀ cls w, wp env S (JSRef.make cls ctx val false)
      (fun out _ => ∀ jval, out = .ok jval → jval.val = val) w := by
    intro cls w
    by_cases function : cls = .function
    · simp only [JSRef.make, function, if_true, Bool.false_eq_true, if_false, wp_bind, wp_pure,
        andThen_ok]
      apply terms.perform
      intro ptrs w₁ _
      rw [andThen_ok, wp_bind]
      apply terms.perform
      intro u w₂ _ jval same
      cases same
      rfl
    · simp only [JSRef.make, function, Bool.false_eq_true, if_false, wp_bind, wp_pure, andThen_ok]
      intro jval same
      cases same
      rfl
  rw [toDartJSValue, wp_bind, jsIsFunction, wp_bind]
  apply terms.perform
  intro v w₁ _
  rw [andThen_ok, wp_pure, andThen_ok, wp_ite]
  refine ⟨fun _ => made _ _, fun _ => ?_⟩
  rw [wp_bind, jsIsArray, wp_bind]
  apply terms.perform
  intro v w₂ _
  rw [andThen_ok]
  apply terms.perform
  intro array w₃ _
  rw [andThen_ok, wp_ite]
  refine ⟨fun _ => made _ _, fun _ => ?_⟩
  rw [wp_bind, jsIsObject, wp_bind]
  apply terms.perform
  intro v w₄ _
  rw [andThen_ok, wp_pure, andThen_ok, wp_ite]
  exact ⟨fun _ => made _ _, fun _ => made _ _⟩

theorem gains_new (terms : Terms S (Owes o)) {v : JSValue} (before : Owes o (Pi.single v 1) w₀ w) :
    wp (α := Ptr) env S (perform (.new v)) (fun out w' => Owes o 0 w₀ w' ∧
      ∀ p, out = .ok p → ∃ n, p = .box n ∧ Spare o n v w₀ w') w := by
  apply terms.perform
  intro r w' answered
  obtain ⟨rfl, rfl⟩ := answers_known rfl answered
  have boxed : Owes o 0 w { w with boxes := w.boxes ++ [v] } :=
    (Owes.ledger o).same (.append _ _) rfl rfl rfl
  have after := (Owes.ledger o).still before boxed
  refine ⟨after.least (single_nonneg v), fun p same => ?_⟩
  cases same
  exact ⟨_, rfl, by simp, after⟩

theorem jsGetProperty_gains (terms : Terms S (Owes o)) {k : PropKey} :
    Gains S o (jsGetProperty ctx val k) := by
  intro w
  have ledger := Owes.ledger o
  rw [jsGetProperty, wp_bind]
  apply terms.perform
  intro v w₁ loaded
  obtain ⟨-, same⟩ := answers_known rfl loaded
  rw [andThen_ok, wp_bind, same]
  apply terms.perform
  intro r w₂ answered
  have gained : Owes o (Pi.single r 1) w w₂ := by
    obtain ⟨rfl, after⟩ | after := terms.getProperty ledger answered
    · simpa using ledger.uncounted (v := .exception) id after 1
    · exact after
  rw [andThen_ok]
  refine wp_mono (gains_new terms gained) fun out w' after => ⟨after.1, fun p same => ?_⟩
  obtain ⟨n, box, spare⟩ := after.2 p same
  exact ⟨n, r, box, spare⟩

theorem jsGetException_gains (terms : Terms S (Owes o)) : Gains S o (jsGetException ctx) := by
  intro w
  rw [jsGetException, wp_bind]
  apply terms.perform
  intro r w₁ answered
  rw [andThen_ok]
  refine wp_mono (gains_new terms (Terms.getException (Owes.ledger o) answered).2)
    fun out w' after => ⟨after.1, fun p same => ?_⟩
  obtain ⟨n, box, spare⟩ := after.2 p same
  exact ⟨n, r, box, spare⟩

theorem jsAtomToValue_gains (terms : Terms S (Owes o)) {k : PropKey} (w : World) :
    wp env S (jsAtomToValue k) (fun out w' => Owes o 0 w w' ∧
      ∀ p, out = .ok p → ∃ n, p = .box n ∧ Spare o n k.toValue w w') w := by
  rw [jsAtomToValue, wp_bind]
  apply terms.perform
  intro r w₁ answered
  obtain ⟨rfl, rfl⟩ := answers_known rfl answered
  rw [andThen_ok]
  exact gains_new terms ((Owes.ledger o).credit w k.toValue)

theorem jsFreeValue_owes (terms : Terms S (Owes o)) {n : Nat} {v : JSValue}
    {Q : Except DartError Unit → World → Prop} (holds : w.boxes[n]? = some v)
    (rest : ∀ w', Owes o (-Pi.single v 1) w w' → Q (.ok ()) w') :
    wp env S (jsFreeValue (.box n)) Q w := by
  have ledger := Owes.ledger o
  have value : w.value (.box n) = v := by
    simp [World.value, List.getD_eq_getElem?_getD, holds]
  rw [jsFreeValue, wp_bind]
  apply terms.perform
  intro u w₁ loaded
  obtain ⟨rfl, same⟩ := answers_known rfl loaded
  rw [andThen_ok, wp_bind, same, value]
  apply terms.perform
  intro u w₂ freed
  have after := Terms.freeValue ledger freed
  rw [andThen_ok]
  apply terms.perform
  intro u w₃ deleted
  exact rest w₃ (ledger.still after (terms.still ledger (.delete (.box n)) id deleted))

theorem owes_then {p : Action α} {f : α → Action β}
    (first : wp env S p (fun _ w' => Owes o 0 w₀ w') w)
    (rest : ∀ a, Preserves env S (Owes o 0) (f a)) :
    wp env S (p >>= f) (fun _ w' => Owes o 0 w₀ w') w := by
  rw [wp_bind]
  refine wp_mono first fun out w' after => ?_
  cases out with
  | error e => exact after
  | ok a => exact wp_mono (rest a w') fun _ _ later => (Owes.ledger o).still after later

/-- A box that is freed at the end, if the end is reached. -/
theorem owes_bracket {acquire : Action Ptr} {f : Ptr → Action α}
    (gains : Gains S o acquire)
    (rest : ∀ n v w, Spare o n v w₀ w → wp env S (f (.box n)) (fun _ w' => Owes o 0 w₀ w') w) :
    wp env S (acquire >>= f) (fun _ w' => Owes o 0 w₀ w') w₀ := by
  rw [wp_bind]
  refine wp_mono (gains w₀) fun out w' after => ?_
  cases out with
  | error e => exact after.1
  | ok p =>
    obtain ⟨n, v, rfl, spare⟩ := after.2 p rfl
    exact rest n v w' spare

namespace Spare

variable {n : Nat} {v : JSValue}

theorem least (spare : Spare o n v w w') : Owes o 0 w w' := spare.owes.least (single_nonneg v)

theorem still {w'' : World} (spare : Spare o n v w w') (after : Owes o 0 w' w'') :
    Spare o n v w w'' :=
  ⟨after.boxes.getElem? spare.holds, (Owes.ledger o).still spare.owes after⟩

/-- A part of a program while there is a spare reference. -/
theorem stepAt (spare : Spare o n v w₀ w) {p : Action α} {f : α → Action β}
    (first : wp env S p (fun _ w' => Owes o 0 w w') w)
    (rest : ∀ a w', Spare o n v w₀ w' → wp env S (f a) (fun _ w' => Owes o 0 w₀ w') w') :
    wp env S (p >>= f) (fun _ w' => Owes o 0 w₀ w') w := by
  rw [wp_bind]
  refine wp_mono first fun out w' after => ?_
  cases out with
  | error e => exact (spare.still after).least
  | ok a => exact rest a w' (spare.still after)

theorem step (spare : Spare o n v w₀ w) {p : Action α} {f : α → Action β}
    (first : Preserves env S (Owes o 0) p)
    (rest : ∀ a w', Spare o n v w₀ w' → wp env S (f a) (fun _ w' => Owes o 0 w₀ w') w') :
    wp env S (p >>= f) (fun _ w' => Owes o 0 w₀ w') w :=
  spare.stepAt (first w) rest

theorem rest (spare : Spare o n v w₀ w) {p : Action α} (after : Preserves env S (Owes o 0) p) :
    wp env S p (fun _ w' => Owes o 0 w₀ w') w :=
  wp_mono (after w) fun _ _ after => (spare.still after).least

/-- The box is wrapped in a Dart object. -/
theorem wrap (spare : Spare o n v w₀ w) (terms : Terms S (Owes o)) {f : JSRef → Action α}
    (rest : ∀ jval w', jval.val = .box n → Spare o n v w₀ w' →
      wp env S (f jval) (fun _ w' => Owes o 0 w₀ w') w') :
    wp env S (toDartJSValue ctx (.box n) false >>= f) (fun _ w' => Owes o 0 w₀ w') w := by
  rw [wp_bind]
  refine wp_mono (wp_and ((owes_kept terms).toDartJSValue w) (toDartJSValue_val terms w))
    fun out w' after => ?_
  cases out with
  | error e => exact (spare.still after.1).least
  | ok jval => exact rest jval w' (after.2 jval rfl) (spare.still after.1)

/-- The spare reference is given back. -/
theorem free (spare : Spare o n v w₀ w) (terms : Terms S (Owes o)) :
    wp env S (jsFreeValue (.box n)) (fun _ w' => Owes o 0 w₀ w') w := by
  apply jsFreeValue_owes terms spare.holds
  intro w₁ freed
  simpa using (Owes.ledger o).trans spare.owes freed

theorem freeUnlessFunction (spare : Spare o n v w₀ w) (terms : Terms S (Owes o)) :
    wp env S (freeUnlessFunction (.box n)) (fun _ w' => Owes o 0 w₀ w') w := by
  apply spare.step (owes_kept terms).jsIsFunction
  intro function w₁ spare
  rw [wp_ite]
  exact ⟨fun _ => spare.least, fun _ => spare.free terms⟩

end Spare

variable [PackageFfi]

theorem toDartException_owes (terms : Terms S (Owes o)) :
    Preserves env S (Owes o 0) (toDartException ctx val) := by
  have kept := owes_kept terms
  apply Preserves.bind kept.follows kept.jsToCString
  intro bytes
  apply Preserves.bind kept.follows (kept.dartString bytes)
  intro err
  apply Preserves.bind kept.follows kept.jsValueGetTag
  intro tag
  apply Preserves.ite _ (.pure kept.follows _)
  intro w
  rw [jsGetPropertyStr_stack]
  apply owes_bracket (jsGetProperty_gains terms)
  intro n v w₁ spare
  apply spare.step kept.jsToBool
  intro truthy w₂ spare
  have rest : ∀ (err : Units) (w₃ : World), Spare o n v w w₃ → wp env S (do
      jsFreeValue (.box n)
      return err) (fun _ w' => Owes o 0 w w') w₃ := fun err w₃ spare =>
    owes_then (spare.free terms) fun _ => .pure kept.follows _
  rw [wp_ite]
  constructor
  · intro yes
    apply spare.step kept.jsToCString
    intro bytes w₃ spare
    apply spare.step (kept.dartString bytes)
    intro trace w₄ spare
    rw [wp_bind, wp_pure]
    exact rest _ w₄ spare
  · intro no
    rw [wp_bind, wp_pure]
    exact rest _ w₂ spare

omit [PackageFfi] in
theorem arrayLoop_owes (terms : Terms S (Owes o)) {convert : JSRef → Action DartVal} {list : Nat}
    (converts : ∀ jval, Preserves env S (Owes o 0) (convert jval)) (rounds : Nat) :
    ∀ i, Preserves env S (Owes o 0) (arrayLoop convert ctx val list rounds i) := by
  have kept := owes_kept terms
  induction rounds with
  | zero =>
    intro i
    exact .pure kept.follows _
  | succ rounds ih =>
    intro i w
    rw [arrayLoop, jsGetPropertyUint32]
    apply owes_bracket (jsGetProperty_gains terms)
    intro n v w₁ spare
    apply spare.wrap terms
    intro jval w₂ same spare
    apply spare.step (converts jval)
    intro element w₃ spare
    refine spare.step (kept.reads _ trivial) fun u w₄ spare => ?_
    refine spare.step (kept.reads _ trivial) fun found w₅ spare => ?_
    have releases : wp env S (do
        jval.release
        arrayLoop convert ctx val list rounds (i+1)) (fun _ w' => Owes o 0 w w') w₅ := by
      rw [JSRef.release, same]
      exact owes_then (spare.free terms) fun _ => ih (i+1)
    cases found with
    | none => exact spare.least
    | some d =>
      cases d with
      | hostFunction f => exact spare.rest (ih (i+1))
      | _ => exact releases

omit [PackageFfi] in
theorem mapKey_owes (d : DartVal) : Preserves env S (Owes o 0) (mapKey d) := by
  cases d with
  | string s => exact .pure (Owes.follows o) _
  | null => exact .pure (Owes.follows o) _
  | _ => exact .throw (Owes.follows o) _

omit [PackageFfi] in
/-- The box of a key holds no object. -/
theorem jsFreeKey_owes (terms : Terms S (Owes o)) {n : Nat} {k : PropKey} (w : World)
    (holds : w.boxes[n]? = some k.toValue) :
    wp env S (jsFreeValue (.box n)) (fun _ w' => Owes o 0 w w') w := by
  apply jsFreeValue_owes terms holds
  intro w' freed
  refine ⟨freed.boxes, ?_⟩
  have := freed.held
  have primitive : JSValue.object o ≠ k.toValue := by cases k <;> simp [PropKey.toValue]
  simpa [primitive] using this

omit [PackageFfi] in
theorem mapLoop_owes (terms : Terms S (Owes o)) {convert : JSRef → Action DartVal} {map table : Nat}
    (converts : ∀ jval, Preserves env S (Owes o 0) (convert jval)) (rounds : Nat) :
    ∀ i, Preserves env S (Owes o 0) (mapLoop convert ctx val map table rounds i) := by
  have kept := owes_kept terms
  have ledger := Owes.ledger o
  induction rounds with
  | zero =>
    intro i
    exact .pure kept.follows _
  | succ rounds ih =>
    intro i w
    rw [mapLoop]
    apply (kept.reads (.atomAt table i) trivial).step (fun _ _ after => after)
    intro k w₁ after₁
    rw [wp_bind]
    refine wp_mono (jsAtomToValue_gains terms w₁) fun out w₂ gained => ?_
    cases out with
    | error e => exact ledger.still after₁ gained.1
    | ok p =>
      obtain ⟨m, rfl, key⟩ := gained.2 p rfl
      rw [andThen_ok]
      refine wp_mono (Q := fun _ w' => Owes o 0 w₂ w') ?_ fun _ _ after =>
        ledger.still (ledger.still after₁ key.least) after
      apply owes_bracket (jsGetProperty_gains terms)
      intro n v w₃ spare
      have puts : ∀ key d, Preserves env S (Owes o 0) (perform (.mapPut map key d)) := by
        intro key d
        apply Preserves.call (terms.free _) terms.partially
        intro w r w' answered
        exact terms.still ledger (.mapPut map key d) id answered
      have convertsFromJs : ∀ p, Preserves env S (Owes o 0) (toDartValueFromJs convert ctx p) :=
        fun p => .bind kept.follows kept.toDartJSValue converts
      apply spare.step (convertsFromJs _)
      intro keyValue w₄ spare
      apply spare.step (convertsFromJs _)
      intro value w₅ spare
      apply spare.step (mapKey_owes keyValue)
      intro mapped w₆ spare
      apply spare.step (puts mapped value)
      intro u w₇ spare
      apply spare.stepAt (jsFreeKey_owes terms w₇ (spare.owes.boxes.getElem? key.holds))
      intro u w₈ spare
      apply owes_then (spare.freeUnlessFunction terms)
      intro u
      exact .bind kept.follows (kept.reads _ trivial) fun _ => ih (i+1)

theorem objectValue_owes (terms : Terms S (Owes o)) {convert : JSRef → Action DartVal}
    (converts : ∀ jval, Preserves env S (Owes o 0) (convert jval)) {valptr : ObjRef} {cache : Nat} :
    Preserves env S (Owes o 0) (objectValue convert ctx val valptr cache) := by
  have kept := owes_kept terms
  have puts : ∀ d, Preserves env S (Owes o 0) (perform (.cachePut cache valptr d)) := by
    intro d
    apply Preserves.call (terms.free _) terms.partially
    intro w r w' answered
    exact terms.still (Owes.ledger o) (.cachePut cache valptr d) id answered
  refine .bind kept.follows (kept.reads _ trivial) fun found => ?_
  cases found with
  | some cached => exact .pure kept.follows _
  | none =>
    apply Preserves.bind kept.follows kept.jsIsFunction
    intro function
    apply Preserves.ite
    · exact .bind kept.follows (kept.reads _ trivial) fun _ => .pure kept.follows _
    apply Preserves.bind kept.follows kept.jsIsArray
    intro array
    apply Preserves.ite
    · rw [jsGetPropertyStr_length]
      apply Preserves.bind kept.follows kept.jsGetProperty
      intro p
      apply Preserves.bind kept.follows kept.jsToInt32
      intro length
      refine .bind kept.follows (kept.reads _ trivial) fun list => ?_
      apply Preserves.bind kept.follows (puts _)
      intro u
      apply Preserves.bind kept.follows (arrayLoop_owes terms converts _ _)
      intro u
      exact .bind kept.follows (kept.reads _ trivial) fun _ => .pure kept.follows _
    · refine .bind kept.follows (kept.reads _ trivial) fun map => ?_
      refine .bind kept.follows (kept.reads _ trivial) fun ptab => ?_
      refine .bind kept.follows (kept.reads _ trivial) fun plen => ?_
      apply Preserves.bind kept.follows (puts _)
      intro u
      apply Preserves.bind kept.follows kept.jsGetOwnPropertyNames
      intro status
      have rest : ∀ u : Unit, Preserves env S (Owes o 0) (do
          perform (.callocFreeCell ptab)
          perform (.callocFreeCell plen)
          return DartVal.map map) := fun _ =>
        .bind kept.follows (kept.reads _ trivial) fun _ =>
          .bind kept.follows (kept.reads _ trivial) fun _ => .pure kept.follows _
      apply Preserves.ite
      · refine .bind kept.follows (kept.reads _ trivial) fun length => ?_
        refine .bind kept.follows (kept.reads _ trivial) fun table => ?_
        exact .bind kept.follows (mapLoop_owes terms converts _ _) rest
      · exact rest ()

/-- A conversion gives no reference back that it did not take. -/
theorem toDartValue_owes (terms : Terms S (Owes o)) (n : Nat) :
    ∀ jval cache, Preserves env S (Owes o 0) (toDartValue n jval cache) := by
  have kept := owes_kept terms
  induction n with
  | zero =>
    intro jval cache
    exact .throw kept.follows _
  | succ n ih =>
    intro jval cache
    unfold toDartValue
    apply Preserves.bind kept.follows kept.jsValueGetTag
    intro tag
    apply Preserves.ite
    · exact .bind kept.follows kept.jsToInt64 fun _ => .pure kept.follows _
    apply Preserves.ite
    · exact .bind kept.follows kept.jsToBool fun _ => .pure kept.follows _
    apply Preserves.ite
    · exact .pure kept.follows _
    apply Preserves.ite
    · intro w
      apply owes_bracket (jsGetException_gains terms)
      intro n v w₁ spare
      apply spare.step (toDartException_owes terms)
      intro text w₂ spare
      exact owes_then (spare.free terms) fun _ => .pure kept.follows _
    apply Preserves.ite
    · exact .bind kept.follows kept.jsToFloat64 fun _ => .pure kept.follows _
    apply Preserves.ite
    · exact .bind kept.follows kept.jsToCString fun bytes =>
        .bind kept.follows (kept.dartString bytes) fun _ => .pure kept.follows _
    apply Preserves.ite
    · apply Preserves.bind kept.follows kept.jsValueGetPtr
      intro valptr
      cases cache with
      | some c => exact objectValue_owes terms fun jval => ih jval _
      | none =>
        exact .bind kept.follows (kept.reads _ trivial) fun c => objectValue_owes terms fun jval => ih jval _
    · exact .bind kept.follows (kept.reads _ trivial) fun _ => .pure kept.follows _

end FlutterQuickjs.Release
