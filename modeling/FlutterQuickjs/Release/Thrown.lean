import FlutterQuickjs.Binding.Instance
import FlutterQuickjs.Release.Calls

namespace FlutterQuickjs.Release

open Engine Binding ValueConverter
open Effect

variable [PackageFfi] {α : Type} {R : (JSValue → Int) → World → World → Prop}
  {S : Setting Op Reply World} {w w' : World} {g : Seen} {ctx : Ctx} {n m : Nat}

theorem seen_jsGetException (terms : Terms S R) (ledger : Ledger R)
    {Q : Except DartError Ptr → World × Seen → Prop}
    (rest : ∀ x k w', x = (w.pending ctx).getD .null → R (Pi.single x 1) w w' →
      w'.pending ctx = none → w'.boxes[k]? = some x → Q (.ok (.box k)) (w', { g with thrown := g.thrown <|> some x })) :
    wp seen (S.watch Seen) (jsGetException ctx) Q (w,g) := by
  rw [jsGetException, wp_bind]
  apply seen_perform terms
  intro x w₁ answered
  obtain ⟨rfl, rfl⟩ := answers_known rfl answered
  rw [andThen_ok]
  apply seen_new terms
  refine rest _ _ _ rfl ?_ (by simp) (by simp)
  exact ledger.still (ledger.credit w _) (ledger.same (.append _ _) rfl rfl rfl)

/-- The exception branch of `toDartValue`. -/
theorem toDartValue_exception (terms : Terms S R) (ledger : Ledger R) {cls : JSClass}
    {cache : Option Nat} {x : JSValue} (holds : w.boxes[m]? = some .exception)
    (pending : (w.pending ctx).getD .null = x) (first : g.thrown = none) (fine : ¬g.rough) :
    wp seen (S.watch Seen) (toDartValue (n+1) ⟨cls,ctx,.box m⟩ cache)
      (Ends S R ctx none (Pi.single x 1) x (fun d => ∃ text, d = .exception text)
        { g with thrown := some x } w) (w,g) := by
  rw [toDartValue, wp_bind]
  apply seen_jsValueGetTag terms
  rw [andThen_ok, value_box holds]
  simp only [JSValue.tag, JSTag.OBJECT, JSTag.INT, JSTag.BOOL, JSTag.NULL, JSTag.UNDEFINED,
    JSTag.EXCEPTION, JSTag.FLOAT64, JSTag.STRING, Int.reduceEq, or_self, reduceIte, wp_bind]
  apply seen_jsGetException terms ledger
  intro x' k w₁ same gained cleared holds₁
  rw [pending] at same
  subst same
  rw [andThen_ok, wp_bind, first]
  refine wp_mono (toDartException_ends terms ledger holds₁ fine) fun out s ends => ?_
  obtain ⟨w₂, g₂⟩ := s
  obtain ⟨saw, printed, well, badly⟩ := ends
  by_cases rough : g₂.rough
  · obtain ⟨⟨err, rfl, counted⟩, e, more, primitive, after⟩ := badly rough
    rw [andThen_error]
    refine ⟨saw, printed, fun fine => absurd rough fine, fun _ => ⟨⟨err, rfl, counted⟩, _, ?_,
      fun none => ?_, ledger.trans gained after⟩⟩
    · simpa using more
    · simp [primitive none]
  · obtain ⟨⟨text, rfl, -⟩, after, pending₂⟩ := well rough
    have holds₂ : w₂.boxes[k]? = some x' := (ledger.boxes after).getElem? holds₁
    rw [andThen_ok, wp_bind]
    apply seen_jsFreeValue terms ledger
    intro w₃ freed pending₃
    rw [value_box holds₂] at freed
    rw [andThen_ok, wp_pure]
    refine ⟨saw, printed, fun _ => ⟨⟨_, rfl, text, rfl⟩, ?_, fun careful => ?_⟩,
      fun went => absurd went rough⟩
    · simpa using ledger.trans (ledger.still gained after) freed
    · rw [pending₃, pending₂ careful, cleared]

/-- Wrapping the exception marker in a Dart object. -/
theorem seen_toDartJSValue_exception (terms : Terms S R) {p : Ptr}
    {Q : Except DartError JSRef → World × Seen → Prop} (holds : w.value p = .exception)
    (rest : Q (.ok ⟨.value,ctx,p⟩) (w,g)) :
    wp seen (S.watch Seen) (toDartJSValue ctx p false) Q (w,g) := by
  have noArray : answer (.isArray ctx .exception) w = some (0,w) := rfl
  rw [toDartJSValue, wp_bind, jsIsFunction, wp_bind]
  apply seen_load terms
  rw [holds, andThen_ok, wp_pure, andThen_ok]
  simp only [JSValue.isFunction, Bool.false_eq_true, if_false, wp_bind]
  rw [jsIsArray, wp_bind]
  apply seen_load terms
  rw [holds, andThen_ok]
  apply seen_answer terms _ noArray rfl
  simp only [andThen_ok, ne_eq, not_true_eq_false, if_false, wp_bind]
  rw [jsIsObject, wp_bind]
  apply seen_load terms
  rw [holds, andThen_ok, wp_pure, andThen_ok]
  have primitive : (JSValue.exception.tag == JSTag.OBJECT) = false := rfl
  simpa only [primitive, Bool.false_eq_true, JSRef.make, if_false, wp_bind, wp_pure, andThen_ok,
    reduceCtorEq] using rest

/-- How evaluating a script, or calling a function, ends when it throws `x`: with a Dart exception
and only the references on arguments left where the description of `x` went well, otherwise with an
error and at least one reference on `x` more. -/
structure Caught (S : Setting Op Reply World) (R : (JSValue → Int) → World → World → Prop)
    (ctx : Ctx) (vs : List JSValue) (x : JSValue) (w : World) (out : Except DartError DartVal)
    (s : World × Seen) : Prop where
  passed : s.2.passed = vs
  thrown : s.2.thrown = some x
  printed : x ∈ s.2.printed
  well : ¬s.2.rough → (∃ text, out = .error (.exception text)) ∧ R (counts vs) w s.1 ∧
    (Careful S → s.1.pending ctx = none)
  badly : s.2.rough → (∃ e, out = .error e ∧ (IsException e → Counted x)) ∧
    ∃ e, counts vs + Pi.single x 1 ≤ e ∧
      ((∀ o, x ≠ .object o) → e = counts vs + Pi.single x 1) ∧ R e w s.1

theorem Seen.reply_see {r : JSValue} (g : Seen) (e : Event Op Reply) (first : g.reply = some r) :
    (g.see e).reply = some r := by
  obtain ⟨op, reply⟩ := e
  cases op <;> simp [Seen.see, first]

/-- Once the reply is known to be a value, nothing else matters. -/
theorem seen_value (terms : Terms S R) (p : Action α) {r : JSValue} (value : r ≠ .exception)
    (first : g.reply = some r) {Q : Except DartError α → World × Seen → Prop} :
    wp seen (S.watch Seen) p
      (fun out s => s.2.reply = some .exception → Q out s) (w,g) := by
  refine wp_mono (wp_watch_invariant (fun g e => Seen.reply_see g e) terms.free terms.partially p
    first) fun out s known thrown => ?_
  rw [known] at thrown
  exact absurd (Option.some.inj thrown) value

/-- The exception marker is converted, its box freed, and a Dart exception thrown. -/
theorem seen_caught (terms : Terms S R) (ledger : Ledger R) {w₀ : World} {cls : JSClass}
    {vs : List JSValue} {rest : DartVal → Action DartVal} (holds : w.boxes[m]? = some .exception)
    (before : R (counts vs) w₀ w)
    (rethrows : ∀ text, rest (.exception text) = do
      jsFreeValue (.box m)
      throw (.exception text)) :
    wp seen (S.watch Seen) (toDartValue (n+1) ⟨cls,ctx,.box m⟩ none >>= rest)
      (fun out s => ∃ x, Caught S R ctx vs x w₀ out s) (w, ⟨some .exception,none,vs,[],False⟩) := by
  rw [wp_bind]
  refine wp_mono (toDartValue_exception terms ledger holds rfl rfl id)
    fun out s ends => ?_
  obtain ⟨w₁, g₁⟩ := s
  obtain ⟨saw, printed, well, badly⟩ := ends
  have thrown : g₁.thrown = some _ := congrArg Seen.thrown saw
  have passed : g₁.passed = vs := congrArg Seen.passed saw
  by_cases rough : g₁.rough
  · obtain ⟨⟨err, rfl, counted⟩, e, more, primitive, moved⟩ := badly rough
    rw [andThen_error]
    refine ⟨_, passed, thrown, printed, fun fine => absurd rough fine,
      fun _ => ⟨⟨err, rfl, counted⟩, _, add_le_add_right more _, fun none => ?_,
        ledger.trans before moved⟩⟩
    rw [primitive none]
  · obtain ⟨⟨d, rfl, text, rfl⟩, moved, pending⟩ := well rough
    have still : w₁.boxes[m]? = some .exception := (ledger.boxes moved).getElem? holds
    rw [andThen_ok, rethrows, wp_bind]
    apply seen_jsFreeValue terms ledger
    intro w₂ freed pending₂
    rw [value_box still] at freed
    rw [andThen_ok, wp_throw]
    refine ⟨_, passed, thrown, printed, fun _ => ⟨⟨text, rfl⟩, ?_, fun careful => ?_⟩,
      fun went => absurd went rough⟩
    · simpa using ledger.trans (ledger.still before moved)
        (ledger.uncounted (v := .exception) id freed 1)
    · rw [pending₂, pending careful]

/-- What `eval` does with the result of the conversion. -/
abbrev deliver (ret : Ptr) (result : DartVal) : Action DartVal :=
  match result with
  | .hostFunction f => return .hostFunction f
  | .exception message => do
    jsFreeValue ret
    throw (.exception message)
  | result => do
    jsFreeValue ret
    return result

/-- `eval` up to the point where the completion value of the script is wrapped. -/
theorem seen_eval (terms : Terms S R) (ledger : Ledger R) {fuel : Nat} {self : Instance}
    {script : Units} {source : Option Units} {Q : Except DartError DartVal → World × Seen → Prop}
    (rest : ∀ r m w', R (Pi.single r 1) w w' → w'.boxes[m]? = some r →
      wp seen (S.watch Seen) (do
        let jval ← toDartJSValue self.ctx (.box m) false
        let result ← toDartValue fuel jval none
        deliver (.box m) result) Q (w', ⟨some r,none,[],[],False⟩)) :
    wp seen (S.watch Seen) (self.eval fuel script source) Q (w,.start) := by
  rw [Instance.eval, wp_bind, jsEval, wp_bind]
  apply seen_perform terms
  intro r w₁ answered
  have gained : R (Pi.single r 1) w w₁ := by
    obtain ⟨rfl, after⟩ | ⟨-, after⟩ := terms.eval ledger answered
    · simpa using ledger.uncounted (v := .exception) id after 1
    · exact after
  rw [andThen_ok]
  apply seen_new terms
  rw [andThen_ok, toDartValueFromJs, wp_assoc]
  exact rest r _ _ (ledger.still gained (ledger.same (.append _ _) rfl rfl rfl)) (by simp)

theorem eval_caught (terms : Terms S R) (ledger : Ledger R) {self : Instance} {script : Units}
    {source : Option Units} :
    wp seen (S.watch Seen) (self.eval (n+1) script source)
      (fun out s => s.2.reply = some .exception → ∃ x, Caught S R self.ctx [] x w out s)
      (w,.start) := by
  apply seen_eval terms ledger
  intro r m w₁ gained holds
  by_cases threw : r = .exception
  · subst threw
    have before : R (counts []) w w₁ := ledger.ignore (e := 0) id (by simpa using gained)
    rw [wp_bind]
    apply seen_toDartJSValue_exception terms (value_box holds)
    rw [andThen_ok]
    exact wp_mono (seen_caught terms ledger holds before fun text => rfl) fun out s caught _ => caught
  · exact seen_value terms _ threw rfl

theorem wrapperCall_caught (terms : Terms S R) (ledger : Ledger R) {val : Ptr}
    {arguments : List DartVal} :
    wp seen (S.watch Seen) (wrapperCall (n+1) ctx val arguments)
      (fun out s => s.2.reply = some .exception → ∃ vs x, Caught S R ctx vs x w out s)
      (w,.start) := by
  rw [wrapperCall, wp_bind]
  apply seen_callFunction terms ledger
  · intro e w' vs
    simp
  · intro vs r m w₁ _ moved holds
    rw [← wp_bind]
    by_cases threw : r = .exception
    · subst threw
      rw [wp_bind]
      apply seen_toDartJSValue_exception terms (value_box holds)
      have before : R (counts vs) w w₁ := ledger.ignore id moved
      rw [andThen_ok]
      exact wp_mono (seen_caught terms ledger holds before fun text => rfl)
        fun out s caught _ => ⟨vs, caught⟩
    · exact seen_value terms _ threw rfl

end FlutterQuickjs.Release
