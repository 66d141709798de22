import FlutterQuickjs.Framework.Watch
import FlutterQuickjs.Release.Terms

namespace FlutterQuickjs.Release

open Engine Binding ValueConverter
open Effect

/-- What an observer of a run has seen: what the script or the called function gave, what was
thrown, what went into argument vectors, what was printed, and whether describing the error went
wrong. -/
structure Seen where
  reply : Option JSValue
  thrown : Option JSValue
  passed : List JSValue
  printed : List JSValue
  rough : Prop

/-- Dart can read what `JS_ToCString` returned. -/
def Readable [PackageFfi] : Option CString → Prop
  | none => False
  | some bytes => (toDartString bytes).isSome

namespace Seen

def start : Seen := ⟨none, none, [], [], False⟩

def see [PackageFfi] (g : Seen) : Event Op Reply → Seen
  | ⟨.eval _ _ _, r⟩ => { g with reply := g.reply <|> some r }
  | ⟨.call _ _ _ _ _, r⟩ => { g with reply := g.reply <|> some r }
  | ⟨.getException _, x⟩ => { g with thrown := g.thrown <|> some x }
  | ⟨.store _ _ v, _⟩ => { g with passed := g.passed ++ [v] }
  | ⟨.toCString _ v, r⟩ =>
    { g with printed := g.printed ++ [v], rough := g.rough ∨ ¬Readable r }
  | ⟨.getProperty _ _ _, r⟩ => { g with rough := g.rough ∨ r = .exception }
  | _ => g

/-- What an observer has seen after a run. -/
def after [PackageFfi] (h : List (Event Op Reply)) : Seen := h.foldl see start

end Seen

/-- Whether the Dart class of an error implements `Exception`. -/
def IsException : DartError → Prop
  | .exception _ => True
  | .formatException => True
  | _ => False

section

variable [PackageFfi] {α : Type} {R : (JSValue → Int) → World → World → Prop}
  {S : Setting Op Reply World} {w w' : World} {g : Seen} {ctx : Ctx} {p : Ptr}
  {x : JSValue}

/-- The environment of the binding with an observer. -/
abbrev seen : Env Op Reply (World × Seen) := env.watch Seen.see

theorem seen_perform (terms : Terms S R) {op : Op}
    {Q : Except DartError (Reply op) → World × Seen → Prop}
    (each : ∀ r w', env.answers S op w r w' → Q (.ok r) (w', g.see ⟨op,r⟩)) :
    wp seen (S.watch Seen) (perform op) Q (w,g) := by
  refine ⟨terms.free op w, fun total => absurd total terms.partially, fun r s answered => ?_⟩
  obtain ⟨answered, saw⟩ := watch_answers.mp answered
  have same : s = (s.1, g.see ⟨op,r⟩) := Prod.ext rfl saw
  rw [same]
  exact each r s.1 answered

/-- An operation with one answer, which the observer does not notice. -/
theorem seen_answer (terms : Terms S R) (op : Op)
    {Q : Except DartError (Reply op) → World × Seen → Prop} {r : Reply op}
    (known : answer op w = some (r,w')) (unnoticed : g.see ⟨op,r⟩ = g) (rest : Q (.ok r) (w',g)) :
    wp seen (S.watch Seen) (perform op) Q (w,g) := by
  apply seen_perform terms
  intro r' w'' answered
  obtain ⟨rfl, rfl⟩ := answers_known known answered
  rw [unnoticed]
  exact rest

theorem seen_load (terms : Terms S R) {Q : Except DartError JSValue → World × Seen → Prop}
    (rest : Q (.ok (w.value p)) (w,g)) :
    wp (α := JSValue) seen (S.watch Seen) (perform (.load p)) Q (w,g) :=
  seen_answer terms _ rfl rfl rest

/-- A new box, and what it holds. -/
theorem seen_new (terms : Terms S R) {v : JSValue}
    {Q : Except DartError Ptr → World × Seen → Prop}
    (rest : Q (.ok (.box w.boxes.length)) ({ w with boxes := w.boxes ++ [v] }, g)) :
    wp (α := Ptr) seen (S.watch Seen) (perform (.new v)) Q (w,g) :=
  seen_answer terms _ rfl rfl rest

theorem seen_jsValueGetTag (terms : Terms S R) {Q : Except DartError Int → World × Seen → Prop}
    (rest : Q (.ok (w.value p).tag) (w,g)) :
    wp seen (S.watch Seen) (jsValueGetTag p) Q (w,g) := by
  rw [jsValueGetTag, wp_bind]
  exact seen_load terms rest

theorem seen_jsToBool (terms : Terms S R) {Q : Except DartError Int32 → World × Seen → Prop}
    (rest : Q (.ok (w.value p).toBool) (w,g)) :
    wp seen (S.watch Seen) (jsToBool p) Q (w,g) := by
  rw [jsToBool, wp_bind]
  exact seen_load terms rest

theorem seen_jsToCString (terms : Terms S R) (ledger : Ledger R)
    {Q : Except DartError (Option CString) → World × Seen → Prop}
    (rest : ∀ r w', R 0 w w' → env.answers S (.toCString ctx (w.value p)) w r w' →
      Q (.ok r) (w', { g with
        printed := g.printed ++ [w.value p]
        rough := g.rough ∨ ¬Readable r })) :
    wp seen (S.watch Seen) (jsToCString ctx p) Q (w,g) := by
  rw [jsToCString, wp_bind]
  apply seen_load terms
  rw [andThen_ok]
  apply seen_perform terms
  intro r w' answered
  exact rest r w' (terms.still ledger (.toCString ctx (w.value p)) id answered) answered

/-- Freeing a box that holds `v`. -/
theorem seen_jsFreeValue (terms : Terms S R) (ledger : Ledger R)
    {Q : Except DartError Unit → World × Seen → Prop}
    (rest : ∀ w', R (-Pi.single (w.value p) 1) w w' → w'.pending = w.pending →
      Q (.ok ()) (w',g)) :
    wp seen (S.watch Seen) (jsFreeValue p) Q (w,g) := by
  rw [jsFreeValue, wp_bind]
  apply seen_load terms
  rw [andThen_ok, wp_bind]
  apply seen_answer terms _ rfl rfl
  rw [andThen_ok]
  apply seen_answer terms _ rfl rfl
  exact rest _ (ledger.still (ledger.debit w (w.value p)) (ledger.of_eq rfl rfl rfl rfl)) rfl

/-- `toDartString` fails on what it cannot read. -/
theorem seen_dartString {r : Option CString} {Q : Except DartError Units → World × Seen → Prop}
    {s : World × Seen} (reads : ∀ text, Readable r → Q (.ok text) s)
    (fails : ∀ e, ¬Readable r → (IsException e → r.isSome) → Q (.error e) s) :
    wp seen (S.watch Seen) (dartString r) Q s := by
  cases r with
  | none => exact fails _ id False.elim
  | some bytes =>
    simp only [dartString]
    cases read : toDartString bytes with
    | none => exact fails _ (by simp [Readable, read]) fun _ => rfl
    | some text => exact reads text (by simp [Readable, read])

theorem isSome_of_readable {r : Option CString} (readable : Readable r) : r.isSome := by
  cases r with
  | none => exact readable.elim
  | some bytes => rfl

theorem readable_of_clean {s : Units} (clean : Clean s) : Readable (some (cString s)) := by
  simp [Readable, toDartString_cString clean]

/-- Only what the engine counts has no printed form, or one that Dart cannot read. -/
theorem counted_of_unreadable {r : Option CString}
    (answered : env.answers S (.toCString ctx x) w r w') (unreadable : ¬Readable r)
    (some : r.isSome) : Counted x := by
  obtain ⟨-, ⟨-, own⟩ | ⟨runs, -⟩⟩ := answered
  · obtain ⟨s, rfl, ⟨rfl⟩ | clean, -⟩ | ⟨rfl, -⟩ := direct_toCString own
    · exact trivial
    · exact absurd (readable_of_clean clean) unreadable
    · cases some
  · cases x with
    | object o => exact trivial
    | _ => exact runs.elim

/-- Foreign code leaves no exception behind. -/
def Careful (S : Setting Op Reply World) : Prop :=
  ∀ w w', S.rely w w' → w'.pending = w.pending

omit [PackageFfi] in
theorem pending_toCString (careful : Careful S) {r : Option CString}
    (answered : env.answers S (.toCString ctx x) w r w') (some : r.isSome) :
    w'.pending = w.pending := by
  obtain ⟨-, ⟨-, own⟩ | ⟨-, w₁, between, returned⟩⟩ := answered
  · obtain ⟨s, -, -, rfl⟩ | ⟨rfl, -⟩ := direct_toCString own
    · rfl
    · cases some
  · obtain ⟨s, -, rfl⟩ | ⟨rfl, -⟩ := returned
    · exact careful w w₁ between
    · cases some

omit [PackageFfi] in
theorem pending_getProperty (careful : Careful S) {k : PropKey} {r : JSValue}
    (answered : env.answers S (.getProperty ctx x k) w r w') (value : r ≠ .exception) :
    w'.pending = w.pending := by
  obtain ⟨-, ⟨-, own⟩ | ⟨-, w₁, between, returned⟩⟩ := answered
  · rw [(direct_getProperty own).2]
    rfl
  · obtain ⟨thrown, -⟩ | ⟨-, rfl⟩ := returned
    · exact absurd thrown value
    · exact careful w w₁ between

omit [PackageFfi] in
theorem value_box {n : Nat} (found : w.boxes[n]? = some x) : w.value (.box n) = x := by
  simp [World.value, List.getD_eq_getElem?_getD, found]

theorem seen_jsGetProperty (terms : Terms S R) (ledger : Ledger R) {k : PropKey}
    {Q : Except DartError Ptr → World × Seen → Prop}
    (rest : ∀ r n w', r = .exception ∧ R 0 w w' ∨ R (Pi.single r 1) w w' →
      (Careful S → r ≠ .exception → w'.pending = w.pending) → w'.boxes[n]? = some r →
      Q (.ok (.box n)) (w', { g with rough := g.rough ∨ r = .exception })) :
    wp seen (S.watch Seen) (jsGetProperty ctx p k) Q (w,g) := by
  rw [jsGetProperty, wp_bind]
  apply seen_load terms
  rw [andThen_ok, wp_bind]
  apply seen_perform terms
  intro r w₁ answered
  have gained := terms.getProperty ledger answered
  rw [andThen_ok]
  apply seen_new terms
  have boxed : R 0 w₁ { w₁ with boxes := w₁.boxes ++ [r] } := ledger.same (.append _ _) rfl rfl rfl
  apply rest
  · rcases gained with ⟨thrown, after⟩ | after
    · exact .inl ⟨thrown, ledger.still after boxed⟩
    · exact .inr (ledger.still after boxed)
  · intro careful value
    have kept := pending_getProperty careful answered value
    exact kept
  · simp

/-- How a part of a program ends that describes the error `x`: with a result, nothing moved and
`left` pending where all went well, with an error and at least `low` references more where it did
not. -/
structure Ends (S : Setting Op Reply World) (R : (JSValue → Int) → World → World → Prop)
    (ctx : Ctx) (left : Option JSValue) (low : JSValue → Int) (x : JSValue) (kind : α → Prop)
    (g : Seen) (w : World) (out : Except DartError α) (s : World × Seen) : Prop where
  saw : s.2 = { g with printed := s.2.printed, rough := s.2.rough }
  printed : x ∈ s.2.printed
  well : ¬s.2.rough → (∃ a, out = .ok a ∧ kind a) ∧ R 0 w s.1 ∧
    (Careful S → s.1.pending ctx = left)
  badly : s.2.rough → (∃ e, out = .error e ∧ (IsException e → Counted x)) ∧
    ∃ e, low ≤ e ∧ ((∀ o, x ≠ .object o) → e = low) ∧ R e w s.1

section

variable {left : Option JSValue} {low : JSValue → Int} {kind : α → Prop} {seen : List JSValue}
  {rough : Prop}

omit [PackageFfi] in
theorem Ends.smooth {a : α} (print : x ∈ seen) (fine : ¬rough) (good : kind a) (after : R 0 w w')
    (pending : Careful S → w'.pending ctx = left) : Ends S R ctx left low x kind g w (.ok a)
      (w', { g with printed := seen, rough := rough }) where
  saw := rfl
  printed := print
  well _ := ⟨⟨a, rfl, good⟩, after, pending⟩
  badly went := absurd went fine

omit [PackageFfi] in
theorem Ends.fails {e : JSValue → Int} {err : DartError} (print : x ∈ seen) (went : rough)
    (counted : IsException err → Counted x) (more : low ≤ e)
    (primitive : (∀ o, x ≠ .object o) → e = low) (after : R e w w') :
    Ends S R ctx left low x kind g w (.error err)
      (w', { g with printed := seen, rough := rough }) where
  saw := rfl
  printed := print
  well fine := absurd went fine
  badly _ := ⟨⟨err, rfl, counted⟩, e, more, primitive, after⟩

end

/-- `toDartException`, which runs code of the script again. -/
theorem toDartException_ends (terms : Terms S R) (ledger : Ledger R) {n : Nat}
    (holds : w.boxes[n]? = some x) (fine : ¬g.rough) :
    wp seen (S.watch Seen) (toDartException ctx (.box n))
      (Ends S R ctx (w.pending ctx) 0 x (fun _ => True) g w) (w,g) := by
  rw [toDartException, wp_bind]
  apply seen_jsToCString terms ledger
  intro r w₁ after₁ answered₁
  rw [value_box holds] at answered₁ ⊢
  have holds₁ : w₁.boxes[n]? = some x := (ledger.boxes after₁).getElem? holds
  rw [andThen_ok, wp_bind]
  apply seen_dartString
  · intro err readable
    have fine₁ : ¬(g.rough ∨ ¬Readable r) := by simp [fine, readable]
    have pending₁ : Careful S → w₁.pending = w.pending := fun careful =>
      pending_toCString careful answered₁ (isSome_of_readable readable)
    rw [andThen_ok, wp_bind]
    apply seen_jsValueGetTag terms
    rw [andThen_ok, value_box holds₁, wp_ite]
    constructor
    · intro object
      obtain ⟨o, rfl⟩ : ∃ o, x = .object o := by
        cases x with
        | object o => exact ⟨o, rfl⟩
        | _ => cases object
      rw [jsGetPropertyStr_stack, wp_bind]
      apply seen_jsGetProperty terms ledger
      intro stack m w₂ gained pending₂ holds₂
      rw [andThen_ok, wp_bind]
      apply seen_jsToBool terms
      rw [andThen_ok, value_box holds₂, wp_ite]
      have freed : ∀ w₃ (printed : List JSValue) (rough : Prop) (text : Units), .object o ∈ printed →
          R 0 w₂ w₃ → ¬rough → stack ≠ .exception → (Careful S → w₃.pending = w₂.pending) →
          wp seen (S.watch Seen) (do
            jsFreeValue (.box m)
            return text) (Ends S R ctx (w.pending ctx) 0 (.object o) (fun _ => True) g w)
            (w₃, { g with printed := printed, rough := rough }) := by
        intro w₃ printed rough text print after₃ fine₃ value pending₃
        have gained : R (Pi.single stack 1) w₁ w₂ := gained.resolve_left fun bad => value bad.1
        have holds₃ : w₃.boxes[m]? = some stack := (ledger.boxes after₃).getElem? holds₂
        rw [wp_bind]
        apply seen_jsFreeValue terms ledger
        intro w₄ after₄ pending₄
        rw [value_box holds₃] at after₄
        rw [andThen_ok, wp_pure]
        apply Ends.smooth print fine₃ trivial
        · have both := ledger.trans (ledger.trans after₁ gained) (ledger.trans after₃ after₄)
          simpa using both
        · intro careful
          rw [pending₄, pending₃ careful, pending₂ careful value, pending₁ careful]
      constructor
      · intro truthy
        rw [wp_bind]
        apply seen_jsToCString terms ledger
        intro r' w₃ after₃ answered₃
        rw [value_box holds₂] at answered₃ ⊢
        rw [andThen_ok, wp_bind]
        apply seen_dartString
        · intro trace readable'
          have value : stack ≠ .exception := by
            intro marker
            rw [marker] at answered₃
            rw [(answers_known rfl answered₃).1] at readable'
            exact readable'
          have fine₃ : ¬(((g.rough ∨ ¬Readable r) ∨ stack = .exception) ∨ ¬Readable r') := by
            simp [fine, readable, value, readable']
          have pending₃ : Careful S → w₃.pending = w₂.pending := fun careful =>
            pending_toCString careful answered₃ (isSome_of_readable readable')
          rw [andThen_ok, wp_bind, wp_pure, andThen_ok]
          exact freed w₃ _ _ _ (by simp) after₃ fine₃ value pending₃
        · intro e unreadable isException
          rw [andThen_error]
          rcases gained with ⟨thrown, gained⟩ | gained
          · have moved := ledger.trans after₁ (ledger.trans gained after₃)
            exact .fails (by simp) (.inr unreadable) (fun _ => trivial) (by simp) (by simp) moved
          · have moved := ledger.trans after₁ (ledger.trans gained after₃)
            exact .fails (by simp) (.inr unreadable) (fun _ => trivial) (by simp) (by simp) moved
      · intro falsy
        rw [wp_bind, wp_pure, andThen_ok]
        have value : stack ≠ .exception := by
          intro marker
          rw [marker] at falsy
          exact falsy (by decide)
        have fine₂ : ¬((g.rough ∨ ¬Readable r) ∨ stack = .exception) := by
          simp [fine, readable, value]
        exact freed w₂ _ _ _ (by simp) (ledger.refl _) fine₂ value fun _ => rfl
    · intro primitive
      apply Ends.smooth (by simp) fine₁ trivial after₁
      intro careful
      rw [pending₁ careful]
  · intro e unreadable isException
    rw [andThen_error]
    exact .fails (by simp) (.inr unreadable)
      (fun exception => counted_of_unreadable answered₁ unreadable (isException exception)) le_rfl
      (fun _ => rfl) after₁

end

end FlutterQuickjs.Release
