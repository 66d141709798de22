import FlutterQuickjs.Binding.Scripted
import FlutterQuickjs.Release.Thrown
import FlutterQuickjs.Release.Unreleased

namespace FlutterQuickjs.Release

open Engine Binding ValueConverter
open Effect

/-- The script gave an object that is no function, or it threw an object whose description went
wrong. -/
def Stuck (g : Seen) : Prop :=
  (∃ o, g.reply = some (.object o) ∧ (JSValue.object o).isFunction = false) ∨
    g.reply = some .exception ∧ (∃ o, g.thrown = some (.object o)) ∧ g.rough

/-- However `eval` fails on a script, it has released what it acquired. -/
def FailsCleanly [PackageFfi] (script : Units) : Prop :=
  ∀ rely (self : Instance), (∀ w₁ w₂, rely w₁ w₂ → Registers self.ctx 0 w₁ w₂) →
    ∀ fuel source w h e w',
      Exec (env.answers (.plain rely False)) (self.eval fuel script source) w h (.error e) w' →
      Registers self.ctx 0 w w'

section

variable {ctx : Ctx} {e e' : JSValue → Int} {w w' w'' : World} {o : ObjRef} {v : JSValue}

theorem Registers.congr (same : ∀ o, e (.object o) = e' (.object o))
    (registers : Registers ctx e w w') : Registers ctx e' w w' := by
  obtain ⟨ptrs, grown, functions, held⟩ := registers.registered
  refine ⟨registers.boxes, registers.atoms, ptrs, grown, functions, fun o => ?_⟩
  rw [← same o]
  exact held o

theorem Registers.unique (registers : Registers ctx e w w') (registers' : Registers ctx e' w w')
    (o : ObjRef) : e (.object o) = e' (.object o) := by
  obtain ⟨ptrs, grown, -, held⟩ := registers.registered
  obtain ⟨ptrs', grown', -, held'⟩ := registers'.registered
  have same : ptrs = ptrs' := List.append_cancel_left (grown.symm.trans grown')
  subst same
  have := held o
  have := held' o
  omega

theorem Registers.owes (registers : Registers ctx 0 w w') (o : ObjRef) : Owes o 0 w w' := by
  obtain ⟨ptrs, -, -, held⟩ := registers.registered
  refine ⟨registers.boxes, ?_⟩
  have := held o
  simp only [Pi.zero_apply] at *
  omega

/-- No registered box holds an object that is no function. -/
theorem Registers.held_container (registers : Registers ctx e w w')
    (container : (JSValue.object o).isFunction = false) :
    w'.held (.object o) = w.held (.object o) + e (.object o) := by
  obtain ⟨ptrs, -, functions, held⟩ := registers.registered
  have none : ptrs.countP (boxed w' o) = 0 := by
    rw [List.countP_eq_zero]
    intro p member isBoxed
    cases p with
    | slot a i => cases isBoxed
    | box n =>
      obtain ⟨v, found, function⟩ := functions n member
      have same : w'.boxes[n]? = some (.object o) := by simpa [boxed] using isBoxed
      rw [found] at same
      cases same
      rw [container] at function
      cases function
  have := held o
  omega

theorem Registers.register {n : Nat} (holds : w.boxes[n]? = some v) (function : v.isFunction = true) :
    Registers ctx (-Pi.single v 1) w { w with
      jsFunctionCache := Function.update w.jsFunctionCache ctx
        (some ((w.jsFunctionCache ctx).getD [] ++ [.box n])) } where
  boxes := .refl _
  atoms := rfl
  registered := by
    refine ⟨[.box n], by simp, fun m member => ?_, fun o => ?_⟩
    · rw [List.mem_singleton, Ptr.box.injEq] at member
      exact ⟨v, member ▸ holds, function⟩
    · by_cases same : v = .object o
      · simp [boxed, holds, same]
      · have other : JSValue.object o ≠ v := fun same' => same same'.symm
        simp [boxed, holds, same, other]

end

/-- What is left to release once a value has been wrapped. -/
def left (r : JSValue) : JSValue → Int := if r.isFunction then 0 else Pi.single r 1

variable [PackageFfi] {S : Setting Op Reply World} {w w' w₀ : World} {g : Seen} {ctx : Ctx}
  {m n fuel : Nat} {r : JSValue}

/-- Wrapping a function registers its box. -/
theorem seen_wrap (terms : Terms S (Registers ctx)) {Q : Except DartError JSRef → World × Seen → Prop}
    (holds : w.boxes[m]? = some r) (before : Registers ctx (Pi.single r 1) w₀ w)
    (rest : ∀ cls w', Registers ctx (left r) w₀ w' → w'.boxes[m]? = some r →
      Q (.ok ⟨cls,ctx,.box m⟩) (w',g)) :
    wp seen (S.watch Seen) (toDartJSValue ctx (.box m) false) Q (w,g) := by
  have ledger := Registers.ledger ctx
  rw [toDartJSValue, wp_bind, jsIsFunction, wp_bind]
  apply seen_load terms
  rw [andThen_ok, wp_pure, andThen_ok, value_box holds, wp_ite]
  constructor
  · intro function
    simp only [JSRef.make, if_true, Bool.false_eq_true, if_false, wp_bind, wp_pure, andThen_ok]
    apply seen_answer terms (.jsFunctions ctx) rfl rfl
    rw [andThen_ok, wp_bind]
    apply seen_answer terms (.setJSFunctions ctx _) rfl rfl
    rw [andThen_ok, wp_pure]
    refine rest _ _ ?_ holds
    rw [left, if_pos function]
    simpa using ledger.trans before (Registers.register holds function)
  · intro other
    have before : Registers ctx (left r) w₀ w := by
      rw [left, if_neg other]
      exact before
    have made : ∀ cls, cls ≠ .function → ∀ w', Registers ctx 0 w w' →
        wp seen (S.watch Seen) (JSRef.make cls ctx (.box m) false) Q (w',g) := by
      intro cls named w₁ after
      simp only [JSRef.make, named, Bool.false_eq_true, if_false, wp_bind, wp_pure, andThen_ok]
      exact rest cls w₁ (ledger.still before after) (after.boxes.getElem? holds)
    rw [wp_bind, jsIsArray, wp_bind]
    apply seen_load terms
    rw [andThen_ok]
    apply seen_still terms ledger id (fun _ => rfl)
    intro array w₁ after
    rw [andThen_ok, wp_ite]
    refine ⟨fun _ => made .array (by simp) w₁ after, fun _ => ?_⟩
    rw [wp_bind, jsIsObject, wp_bind]
    apply seen_load terms
    rw [andThen_ok, wp_pure, andThen_ok, wp_ite]
    exact ⟨fun _ => made .object (by simp) w₁ after, fun _ => made .value (by simp) w₁ after⟩

omit [PackageFfi] in
theorem left_settles (registers : Registers ctx (left r) w w') :
    Registers ctx 0 w w' ↔ ∀ o, r = .object o → r.isFunction = true := by
  constructor
  · intro settled o same
    by_contra other
    have even := registers.unique settled o
    rw [left, if_neg other, same] at even
    simp at even
  · intro functions
    refine registers.congr fun o => ?_
    by_cases function : r.isFunction = true
    · simp [left, function]
    · have other : JSValue.object o ≠ r := fun same => function (functions o same.symm)
      simp [left, function, other]

/-- The conversion gives no exception. -/
abbrev Unexceptional (out : Except DartError DartVal) : Prop := ∀ text, out ≠ .ok (.exception text)

theorem objectValue_result (terms : Terms S (Registers ctx)) {convert : JSRef → Action DartVal}
    {val : Ptr} {o : ObjRef} {c : Nat} (fresh : (w.caches.getD c .empty).find o.address = none) :
    wp env S (objectValue convert ctx val o c) (fun out _ => Unexceptional out) w := by
  have fails : ∀ (e : DartError) (w' : World), Unexceptional (.error e) := by simp [Unexceptional]
  rw [objectValue, wp_bind]
  apply terms.perform
  intro found w₁ answered
  obtain ⟨rfl, rfl⟩ := answers_known rfl answered
  rw [andThen_ok, fresh]
  refine wp_skip terms.free terms.partially fails fun function w₂ => ?_
  rw [wp_ite]
  refine ⟨fun _ => wp_skip terms.free terms.partially fails fun u w₃ => by simp [Unexceptional],
    fun _ => ?_⟩
  refine wp_skip terms.free terms.partially fails fun array w₃ => ?_
  rw [wp_ite]
  constructor
  · intro isArray
    iterate 6 refine wp_skip terms.free terms.partially fails fun _ _ => ?_
    simp [Unexceptional]
  · intro noArray
    iterate 5 refine wp_skip terms.free terms.partially fails fun _ _ => ?_
    have rest : ∀ (map ptab plen : Nat) (w' : World), wp env S (do
        perform (.callocFreeCell ptab)
        perform (.callocFreeCell plen)
        return DartVal.map map) (fun out _ => Unexceptional out) w' := by
      intro map ptab plen w'
      iterate 2 refine wp_skip terms.free terms.partially fails fun _ _ => ?_
      simp [Unexceptional]
    rw [wp_ite]
    refine ⟨fun _ => ?_, fun _ => rest _ _ _ _⟩
    iterate 3 refine wp_skip terms.free terms.partially fails fun _ _ => ?_
    exact rest _ _ _ _

theorem toDartValue_object (terms : Terms S (Registers ctx)) {cls : JSClass} {val : Ptr} {o : ObjRef}
    {Q : Except DartError DartVal → World → Prop} (holds : w.value val = .object o)
    (rest : ∀ c w', (w'.caches.getD c .empty).find o.address = none →
      w'.value val = .object o → wp env S (objectValue (fun jval => toDartValue n jval (some c)) ctx val o c)
        Q w') :
    wp env S (toDartValue (n+1) ⟨cls,ctx,val⟩ none) Q w := by
  rw [toDartValue, wp_bind, jsValueGetTag, wp_bind]
  apply terms.load
  rw [andThen_ok, wp_pure, andThen_ok]
  simp only [holds, JSValue.tag, JSTag.OBJECT, JSTag.INT, JSTag.BOOL, JSTag.NULL, JSTag.UNDEFINED,
    JSTag.EXCEPTION, JSTag.FLOAT64, JSTag.STRING, Int.reduceNeg, Int.reduceEq, or_self, reduceIte,
    wp_bind, jsValueGetPtr]
  apply terms.load
  simp only [andThen_ok, holds, wp_pure]
  rw [wp_bind]
  apply terms.perform
  intro c w₃ made
  obtain ⟨rfl, rfl⟩ := answers_known rfl made
  rw [andThen_ok]
  refine rest _ _ (by simp) ?_
  cases val <;> exact holds

/-- A function is handed out. -/
theorem toDartValue_function (terms : Terms S (Registers ctx)) {cls : JSClass} {val : Ptr}
    {o : ObjRef} (holds : w.value val = .object o)
    (function : (JSValue.object o).isFunction = true) :
    wp env S (toDartValue (n+1) ⟨cls,ctx,val⟩ none)
      (fun out _ => ∃ f, out = .ok (.hostFunction f)) w := by
  apply toDartValue_object terms holds
  intro c w₁ fresh holds₁
  rw [objectValue, wp_bind]
  apply terms.perform
  intro found w₂ answered
  obtain ⟨rfl, rfl⟩ := answers_known rfl answered
  rw [andThen_ok, fresh]
  simp only [wp_bind, jsIsFunction]
  apply terms.load
  rw [andThen_ok, wp_pure, andThen_ok, holds₁, wp_ite]
  refine ⟨fun _ => ?_, fun other => absurd function other⟩
  rw [wp_bind]
  apply terms.perform
  intro u w₄ handed
  exact ⟨_, rfl⟩

/-- A primitive is converted without moving anything. -/
theorem toDartValue_primitive (terms : Terms S (Registers ctx)) {cls : JSClass} {val : Ptr}
    {cache : Option Nat} (holds : w.value val = r) (primitive : ∀ o, r ≠ .object o)
    (value : r ≠ .exception) :
    wp env S (toDartValue (n+1) ⟨cls,ctx,val⟩ cache)
      (fun out w' => Unexceptional out ∧ ∀ e, out = .error e → Registers ctx 0 w w') w := by
  have ledger := Registers.ledger ctx
  rw [toDartValue, wp_bind, jsValueGetTag, wp_bind]
  apply terms.load
  rw [andThen_ok, wp_pure, andThen_ok, holds]
  have done : ∀ (d : DartVal) (w' : World), (∀ text, d ≠ .exception text) →
      wp env S (pure d) (fun out w' => Unexceptional out ∧
        ∀ e, out = .error e → Registers ctx 0 w w') w' := by
    intro d w' plain
    exact ⟨fun text same => plain text (Except.ok.inj same), fun e same => by cases same⟩
  have warned : wp env S (do
      perform .warn
      return DartVal.null) (fun out w' => Unexceptional out ∧
        ∀ e, out = .error e → Registers ctx 0 w w') w := by
    rw [wp_bind]
    apply terms.perform
    intro u w₂ _
    exact done .null w₂ (by simp)
  cases r with
  | object o => exact absurd rfl (primitive o)
  | exception => exact absurd rfl value
  | int i =>
    simp only [JSValue.tag, JSTag.INT, reduceIte, wp_bind, jsToInt64]
    apply terms.load
    rw [andThen_ok]
    apply terms.perform
    intro i w₂ _
    exact done (.int i) w₂ (by simp)
  | bool b =>
    simp only [JSValue.tag, JSTag.INT, JSTag.BOOL, Int.reduceEq, reduceIte, wp_bind, jsToBool]
    apply terms.load
    exact done (.bool _) w (by simp)
  | null => exact done .null w (by simp)
  | undefined => exact done .null w (by simp)
  | float64 d =>
    simp only [JSValue.tag, JSTag.INT, JSTag.BOOL, JSTag.NULL, JSTag.UNDEFINED, JSTag.EXCEPTION,
      JSTag.FLOAT64, Int.reduceEq, or_self, reduceIte, wp_bind, jsToFloat64]
    apply terms.load
    rw [andThen_ok]
    apply terms.perform
    intro d w₂ _
    exact done (.double d) w₂ (by simp)
  | string s =>
    simp only [JSValue.tag, JSTag.INT, JSTag.BOOL, JSTag.NULL, JSTag.UNDEFINED, JSTag.EXCEPTION,
      JSTag.FLOAT64, JSTag.STRING, Int.reduceNeg, Int.reduceEq, or_self, reduceIte, wp_bind,
      jsToCString]
    apply terms.load
    rw [andThen_ok]
    apply terms.perform
    intro bytes w₂ printed
    have after : Registers ctx 0 w w₂ := terms.still ledger (.toCString ctx (w.value val)) id printed
    have failed : ∀ err : DartError, Unexceptional (.error err) ∧
        ∀ e, (Except.error err : Except DartError DartVal) = .error e → Registers ctx 0 w w₂ :=
      fun err => ⟨by simp [Unexceptional], fun _ _ => after⟩
    rw [andThen_ok, wp_bind]
    cases bytes with
    | none => exact failed .unsupportedError
    | some bytes =>
      simp only [dartString]
      cases toDartString bytes with
      | none => exact failed .formatException
      | some text => exact done (.string text) w₂ (by simp)
  | symbol s => exact warned
  | bigInt n => exact warned

/-- Where the conversion gives no exception, `eval` fails only if the conversion does. -/
theorem seen_deliver (terms : Terms S (Registers ctx)) {p : Action DartVal} {P : World × Seen → Prop}
    {ret : Ptr} (converts : wp seen (S.watch Seen) p
      (fun out s => Unexceptional out ∧ ∀ e, out = .error e → P s) (w,g)) :
    wp seen (S.watch Seen) (p >>= deliver ret)
      (fun out s => ∀ e, out = .error e → P s) (w,g) := by
  have ledger := Registers.ledger ctx
  have released : ∀ (d : DartVal) (w' : World) (g' : Seen), wp seen (S.watch Seen) (do
      jsFreeValue ret
      return d) (fun out s => ∀ e, out = .error e → P s) (w',g') := by
    intro d w' g'
    rw [wp_bind]
    apply seen_jsFreeValue terms ledger
    intro w'' _ _ e same
    cases same
  rw [wp_bind]
  refine wp_mono converts fun out s after => ?_
  obtain ⟨w', g'⟩ := s
  cases out with
  | error e => exact after.2
  | ok d =>
    cases d with
    | exception text => exact absurd rfl (after.1 text)
    | hostFunction f =>
      intro e same
      cases same
    | _ => exact released _ w' g'

/-- Every failing run of `eval` on a value that is no exception. -/
theorem seen_fails (terms : Terms S (Registers ctx)) {cls : JSClass} (holds : w.boxes[m]? = some r)
    (value : r ≠ .exception) (before : Registers ctx (left r) w₀ w) (saw : g.reply = some r) :
    wp seen (S.watch Seen) (toDartValue fuel ⟨cls,ctx,.box m⟩ none >>= deliver (.box m))
      (fun out s => ∀ e, out = .error e → (Registers ctx 0 w₀ s.1 ↔ ¬Stuck s.2)) (w,g) := by
  have ledger := Registers.ledger ctx
  have known := wp_watch_invariant (E := env) (fun g e => Seen.reply_see g e) terms.free
    terms.partially (toDartValue fuel ⟨cls,ctx,.box m⟩ none) (w := w) saw
  have stuck_iff : ∀ g' : Seen, g'.reply = some r →
      (Stuck g' ↔ ∃ o, r = .object o ∧ r.isFunction = false) := by
    intro g' saw
    rw [Stuck, saw]
    constructor
    · rintro (⟨o, same, container⟩ | ⟨threw, -⟩)
      · cases same
        exact ⟨o, rfl, container⟩
      · exact absurd (Option.some.inj threw) value
    · rintro ⟨o, rfl, container⟩
      exact .inl ⟨o, rfl, container⟩
  by_cases container : ∃ o, r = .object o ∧ r.isFunction = false
  · obtain ⟨o, rfl, container⟩ := container
    have gained : Owes o (Pi.single (.object o) 1) w₀ w := by
      refine ⟨before.boxes, ?_⟩
      have held := before.held_container container
      rw [left, container, if_neg (by simp)] at held
      omega
    have owes : wp env S (toDartValue fuel ⟨cls,ctx,.box m⟩ none)
        (fun _ w' => Owes o 0 w w') w :=
      toDartValue_owes ⟨terms.free, terms.partially, fun w₁ w₂ between =>
        (terms.rely w₁ w₂ between).owes o⟩ fuel _ _ w
    have plain : wp env S (toDartValue fuel ⟨cls,ctx,.box m⟩ none)
        (fun out _ => Unexceptional out) w := by
      cases fuel with
      | zero => simp [toDartValue, Unexceptional]
      | succ n =>
        apply toDartValue_object terms (value_box holds)
        intro c w' fresh _
        exact objectValue_result terms fresh
    apply seen_deliver terms
    refine wp_mono (wp_and (wp_watch (wp_and owes plain) g) known) fun out s after => ?_
    obtain ⟨⟨owes, plain⟩, saw'⟩ := after
    refine ⟨plain, fun e failed => ?_⟩
    have more : Owes o (Pi.single (.object o) 1) w₀ s.1 := (Owes.ledger o).still gained owes
    have stuck : Stuck s.2 := (stuck_iff s.2 saw').mpr ⟨o, rfl, container⟩
    refine ⟨fun settled => ?_, fun free => absurd stuck free⟩
    have held := settled.held_container container
    have least := more.held
    simp only [Pi.zero_apply, Pi.single_eq_same] at held least
    omega
  · have free : ∀ g' : Seen, g'.reply = some r → ¬Stuck g' := fun g' saw stuck =>
      container ((stuck_iff g' saw).mp stuck)
    have settled : Registers ctx 0 w₀ w := by
      refine (left_settles before).mpr fun o same => ?_
      by_contra other
      exact container ⟨o, same, by simpa using other⟩
    have converts : wp env S (toDartValue fuel ⟨cls,ctx,.box m⟩ none)
        (fun out w' => Unexceptional out ∧ ∀ e, out = .error e → Registers ctx 0 w w') w := by
      cases fuel with
      | zero => exact ⟨by simp [Unexceptional], fun _ _ => ledger.refl w⟩
      | succ n =>
        by_cases primitive : ∀ o, r ≠ .object o
        · exact toDartValue_primitive terms (value_box holds) primitive value
        · push Not at primitive
          obtain ⟨o, rfl⟩ := primitive
          have function : (JSValue.object o).isFunction = true := by
            by_contra other
            exact container ⟨o, rfl, by simpa using other⟩
          refine wp_mono (toDartValue_function terms (value_box holds) function) fun out w' gave => ?_
          obtain ⟨f, rfl⟩ := gave
          exact ⟨by simp [Unexceptional], by simp⟩
    apply seen_deliver terms
    refine wp_mono (wp_and (wp_watch converts g) known) fun out s after => ?_
    obtain ⟨⟨plain, fails⟩, saw'⟩ := after
    exact ⟨plain, fun e failed => ⟨fun _ => free s.2 saw', fun _ => ledger.still settled (fails e failed)⟩⟩

omit [PackageFfi] in
/-- A thrown error leaves something to release exactly if it is an object whose description went
wrong. -/
theorem registers_of_caught {x : JSValue} {out : Except DartError DartVal} {s : World × Seen}
    (caught : Caught S (Registers ctx) ctx [] x w out s) (threw : s.2.reply = some .exception) :
    Registers ctx 0 w s.1 ↔ ¬Stuck s.2 := by
  have stuck_iff : Stuck s.2 ↔ (∃ o, x = .object o) ∧ s.2.rough := by
    rw [Stuck, threw, caught.thrown]
    simp
  rw [stuck_iff]
  by_cases rough : s.2.rough
  · obtain ⟨-, e, more, primitive, moved⟩ := caught.badly rough
    constructor
    · rintro settled ⟨⟨o, rfl⟩, -⟩
      have even := moved.unique settled o
      have least := more (.object o)
      simp only [counts, List.count_nil, Pi.add_apply, Pi.single_eq_same, Pi.zero_apply] at even least
      omega
    · intro free
      have none : ∀ o, x ≠ .object o := fun o same => free ⟨⟨o, same⟩, rough⟩
      refine moved.congr fun o => ?_
      have other : JSValue.object o ≠ x := fun same => none o same.symm
      rw [primitive none]
      simp [counts, other]
  · obtain ⟨-, moved, -⟩ := caught.well rough
    have settled : Registers ctx 0 w s.1 := moved
    exact ⟨fun _ stuck => rough stuck.2, fun _ => settled⟩

theorem seen_eval_fails {self : Instance} (terms : Terms S (Registers self.ctx)) {script : Units}
    {source : Option Units} :
    wp seen (S.watch Seen) (self.eval fuel script source)
      (fun out s => ∀ e, out = .error e → (Registers self.ctx 0 w s.1 ↔ ¬Stuck s.2)) (w,.start) := by
  have ledger := Registers.ledger self.ctx
  apply seen_eval terms ledger
  intro r m w₁ gained holds
  rw [wp_bind]
  apply seen_wrap terms holds gained
  intro cls w₂ before holds₂
  rw [andThen_ok]
  by_cases threw : r = .exception
  · subst threw
    have settled : Registers self.ctx 0 w w₂ := ledger.ignore (e := 0) id (by simpa [left, JSValue.isFunction] using before)
    cases fuel with
    | zero =>
      intro e same
      exact ⟨fun _ stuck => by simp [Stuck] at stuck, fun _ => settled⟩
    | succ n =>
      have known := wp_watch_invariant (E := env) (fun g e => Seen.reply_see g e) terms.free
        terms.partially (toDartValue (n+1) ⟨cls,self.ctx,.box m⟩ none >>= deliver (.box m)) (w := w₂)
        (g := ⟨some .exception,none,[],[],False⟩) rfl
      refine wp_mono (wp_and (seen_caught terms ledger holds₂ settled fun text => rfl) known)
        fun out s after => ?_
      obtain ⟨⟨x, caught⟩, saw⟩ := after
      exact fun e _ => registers_of_caught caught saw
  · exact seen_fails terms holds₂ threw before rfl

omit [PackageFfi] in
theorem Registers.terms {rely : World → World → Prop}
    (foreign : ∀ w₁ w₂, rely w₁ w₂ → Registers ctx 0 w₁ w₂) :
    Terms (.plain rely False) (Registers ctx) :=
  ⟨fun _ _ => trivial, id, foreign⟩

/-- A failing `eval` has released everything exactly if the script neither gave an object that is
no function nor threw an object whose description went wrong. -/
theorem eval_fails_cleanly_iff {rely : World → World → Prop} {self : Instance}
    (foreign : ∀ w₁ w₂, rely w₁ w₂ → Registers self.ctx 0 w₁ w₂) {script : Units}
    {source : Option Units} {w w' : World} {h : List (Event Op Reply)} {e : DartError}
    (run : Exec (env.answers (.plain rely False)) (self.eval fuel script source) w h (.error e) w') :
    Registers self.ctx 0 w w' ↔ ¬Stuck (Seen.after h) :=
  wp_watch_sound (seen_eval_fails (Registers.terms foreign)) run e rfl

def brokenRef : ObjRef := ⟨1,0,.array⟩

/-- An array with an unpaired surrogate for its only element. -/
def brokenWorld : World :=
  { World.initial with
    heap := World.initial.heap.put brokenRef
      ⟨OrderedMap.empty.insert (.index 0) (.data (.string [0xd800]) true true true),none,true,1,true,some 1⟩
    serial := 1 }

/-- A script whose completion value is `v`. -/
def gives (v : JSValue) : (op : Op) → World → Option (Reply op × World)
  | .eval _ _ _, w => some (v, w.credit v)
  | _, _ => none

omit [PackageFfi] in
theorem gives_answers {v : JSValue} (value : v ≠ .exception) (op : Op) (w : World) (r : Reply op)
    (w' : World) (answered : scripted (gives v) op w = some (r,w')) :
    env.answers (.plain Eq False) op w r w' := by
  refine scripted_answers (fun _ => rfl) (fun op w r w' replied => .inr ?_) op w r w' answered
  cases op with
  | eval ctx input filename =>
    cases replied
    exact ⟨trivial, .inr ⟨value, rfl⟩⟩
  | _ => cases replied

omit [PackageFfi] in
theorem registers_of_eq (w₁ w₂ : World) (same : w₁ = w₂) : Registers 0 0 w₁ w₂ :=
  same ▸ (Registers.ledger 0).refl w₁

omit [PackageFfi] in
/-- A script whose value is a string that does not decode. -/
theorem fails_cleanly_string :
    letI := PackageFfi.utf8
    ∃ h w', Exec (env.answers (.plain Eq False))
      (Instance.eval 1 ⟨0,.box 0⟩ (units "'\\ud800'") none) World.initial h (.error .formatException) w' ∧
      (Registers 0 0 World.initial w' ↔ ¬Stuck (Seen.after h)) := by
  let _ := PackageFfi.utf8
  obtain ⟨h, out, w', run, checked⟩ := Exec.of_check
    (gives_answers (v := .string [0xd800]) (by simp)) (p := Instance.eval 1 ⟨0,.box 0⟩ (units "'\\ud800'") none)
    (w := World.initial) (fun _ out => out = .error .formatException) (by decide)
  cases of_decide_eq_true checked
  exact ⟨h, w', run, eval_fails_cleanly_iff registers_of_eq run⟩

omit [PackageFfi] in
/-- An array with a string that does not decode is not released. -/
theorem not_failsCleanly_array :
    letI := PackageFfi.utf8
    ¬FailsCleanly (units "['\\ud800']") := by
  let _ := PackageFfi.utf8
  intro cleanly
  obtain ⟨h, out, w', run, checked⟩ := Exec.of_check
    (gives_answers (v := .object brokenRef) (by simp)) (p := Instance.eval 2 ⟨0,.box 0⟩ (units "['\\ud800']") none)
    (w := brokenWorld) (fun h out => (Seen.after h).reply = some (.object brokenRef) ∧
      out = .error .formatException) (by decide)
  obtain ⟨gave, rfl⟩ := of_decide_eq_true checked
  have settled := cleanly Eq ⟨0,.box 0⟩ registers_of_eq 2 none brokenWorld h .formatException w' run
  have free : ¬Stuck (Seen.after h) :=
    (wp_watch_sound (seen_eval_fails (Registers.terms registers_of_eq)) run _ rfl).mp settled
  exact free (.inl ⟨brokenRef, gave, rfl⟩)

end FlutterQuickjs.Release
