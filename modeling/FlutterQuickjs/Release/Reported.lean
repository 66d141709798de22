import FlutterQuickjs.Binding.Scripted
import FlutterQuickjs.Release.Thrown

namespace FlutterQuickjs.Release

open Engine Binding ValueConverter
open Effect

/-- What foreign code leaves alone: the references of the binding, and what is pending. -/
structure Undisturbed (w w' : World) : Prop where
  moves : Moves Counted 0 w w'
  pending : w'.pending = w.pending
  cstrings : w'.cstrings = w.cstrings

def Ascii (s : Units) : Prop := ∀ c ∈ s, c.toNat < 128

/-- An error `x` was reported: as a Dart exception, with none pending, and with no reference on
`x` that was not there before. `JS_ToCString` of an ASCII string lends the string's own bytes, so
that its C string is one. -/
structure Reported (ctx : Ctx) (x : JSValue) (w : World) (out : Except DartError DartVal)
    (w' : World) : Prop where
  exception : ∃ e, out = .error e ∧ IsException e
  pending : w'.pending ctx = none
  references : Counted x → w'.held x ≤ w.held x
  text : ∀ s, x = .string s → Ascii s → w'.cstrings s ≤ w.cstrings s

variable [PackageFfi]

/-- Whoever throws `x` into a script or a wrapped function, it is reported. -/
def Reports (x : JSValue) : Prop :=
  ∀ rely, (∀ w₁ w₂, rely w₁ w₂ → Undisturbed w₁ w₂) → ∀ (entry : Entry) n w h out w',
    Exec (env.answers (.plain rely False)) (entry.program (n+1)) w h out w' →
    (Seen.after h).reply = some .exception → (Seen.after h).thrown = some x →
    Reported entry.ctx x w out w'

/-- An ASCII string that was printed is lent for good. -/
theorem lent_of_printed {S : Setting Op Reply World} {R : (JSValue → Int) → World → World → Prop}
    (terms : Terms S R) (undisturbed : ∀ w₁ w₂, S.rely w₁ w₂ → Undisturbed w₁ w₂) {α : Type}
    (p : Action α) (s : Units) (w : World) :
    wp seen (S.watch Seen) p (fun _ s' =>
      w.cstrings s + s'.2.printed.count (.string s) ≤ s'.1.cstrings s) (w,.start) := by
  apply wp_invariant (I := fun s' : World × Seen =>
    w.cstrings s + s'.2.printed.count (.string s) ≤ s'.1.cstrings s) ?_ (fun op s => terms.free op s.1)
    terms.partially p (by simp [Seen.start])
  intro op ⟨w₁, g₁⟩ r ⟨w₂, g₂⟩ before answered
  obtain ⟨answered, saw⟩ := watch_answers.mp answered
  have more : w₁.cstrings s ≤ w₂.cstrings s := by
    obtain ⟨-, ⟨-, own⟩ | ⟨-, w', between, returned⟩⟩ := answered
    · exact (frame_direct own).lent s
    · rw [← (undisturbed w₁ w' between).cstrings]
      exact (frame_back returned).lent s
  simp only at before saw ⊢
  cases op with
  | toCString ctx v =>
    by_cases same : v = .string s
    · subst same
      have lent : w₂ = w₁.lendCString s := (answers_known rfl answered).2
      rw [saw, lent]
      simp only [Seen.see, List.count_append, List.count_singleton_self, World.lendCString,
        Function.update_self]
      omega
    · rw [saw]
      simp only [Seen.see, List.count_append, List.count_singleton, beq_iff_eq, same, if_false,
        add_zero]
      omega
  | _ =>
    rw [saw]
    exact before.trans more

omit [PackageFfi] in
theorem Undisturbed.terms {rely : World → World → Prop}
    (undisturbed : ∀ w₁ w₂, rely w₁ w₂ → Undisturbed w₁ w₂) :
    Terms (.plain rely False) (Moves Counted) :=
  ⟨fun _ _ => trivial, id, fun w w' between => (undisturbed w w' between).moves⟩

theorem entry_caught {S : Setting Op Reply World} {R : (JSValue → Int) → World → World → Prop}
    (terms : Terms S R) (ledger : Ledger R) (entry : Entry) {n : Nat} {w : World} :
    wp seen (S.watch Seen) (entry.program (n+1)) (fun out s =>
      s.2.reply = some .exception → ∃ vs x, Caught S R entry.ctx vs x w out s) (w,.start) := by
  cases entry with
  | eval self script source =>
    exact wp_mono (eval_caught terms ledger) fun out s caught threw => ⟨[], caught threw⟩
  | wrapper ctx val arguments => exact wrapperCall_caught terms ledger

omit [PackageFfi] in
/-- An error is reported exactly if its description went well, it is no ASCII string, and it was
not sent along as an argument. -/
theorem reported_of_caught {rely : World → World → Prop}
    (undisturbed : ∀ w₁ w₂, rely w₁ w₂ → Undisturbed w₁ w₂) {ctx : Ctx} {x : JSValue} {w w' : World}
    {out : Except DartError DartVal} {g : Seen} {vs : List JSValue}
    (caught : Caught (.plain rely False) (Moves Counted) ctx vs x w out (w',g))
    (lent : ∀ s, w.cstrings s + g.printed.count (.string s) ≤ w'.cstrings s) :
    Reported ctx x w out w' ↔
      ¬g.rough ∧ (∀ s, x = .string s → ¬Ascii s) ∧ (Counted x → x ∉ g.passed) := by
  have passed : g.passed = vs := caught.passed
  rw [passed]
  constructor
  · intro reported
    have fine : ¬g.rough := by
      intro rough
      obtain ⟨⟨e, rfl, counted⟩, extra, more, -, moved⟩ := caught.badly rough
      obtain ⟨e', same, exception⟩ := reported.exception
      cases same
      have references := reported.references (counted exception)
      have exact : w'.held x = w.held x + extra x := moved.held x (counted exception)
      have least := more x
      have := counts_nonneg vs x
      simp only [Pi.add_apply, Pi.single_eq_same, Pi.zero_apply] at least this
      omega
    refine ⟨fine, fun s same ascii => ?_, fun counted member => ?_⟩
    · have text := reported.text s same ascii
      have printed : 0 < g.printed.count (.string s) :=
        List.count_pos_iff.mpr (same ▸ caught.printed)
      have := lent s
      omega
    · have references := reported.references counted
      have exact := (caught.well fine).2.1.held x counted
      have passed : 0 < vs.count x := List.count_pos_iff.mpr member
      simp only [counts] at exact
      omega
  · rintro ⟨fine, noAscii, notPassed⟩
    obtain ⟨⟨text, rfl⟩, moved, pending⟩ := caught.well fine
    refine ⟨⟨_, rfl, trivial⟩, pending fun w₁ w₂ between => (undisturbed w₁ w₂ between).pending,
      fun counted => ?_, fun s same ascii => absurd ascii (noAscii s same)⟩
    have exact := moved.held x counted
    have none : vs.count x = 0 := List.count_eq_zero.mpr (notPassed counted)
    simp only [counts] at exact
    omega

theorem reported_iff {rely : World → World → Prop}
    (undisturbed : ∀ w₁ w₂, rely w₁ w₂ → Undisturbed w₁ w₂) {entry : Entry} {n : Nat} {x : JSValue}
    {w w' : World} {h : List (Event Op Reply)} {out : Except DartError DartVal}
    (run : Exec (env.answers (.plain rely False)) (entry.program (n+1)) w h out w')
    (threw : (Seen.after h).reply = some .exception) (thrown : (Seen.after h).thrown = some x) :
    Reported entry.ctx x w out w' ↔ ¬(Seen.after h).rough ∧
      (∀ s, x = .string s → ¬Ascii s) ∧ (Counted x → x ∉ (Seen.after h).passed) := by
  have terms := Undisturbed.terms undisturbed
  obtain ⟨vs, x', caught⟩ :=
    wp_watch_sound (entry_caught terms (Moves.ledger fun _ => id) entry) run threw
  have same : x' = x := Option.some.inj (caught.thrown.symm.trans thrown)
  subst same
  exact reported_of_caught undisturbed caught fun s =>
    wp_watch_sound (lent_of_printed terms undisturbed _ s w) run

/-- A script that throws `x`, for which `JS_ToCString` fails if it is a symbol. -/
def throws (x : JSValue) : (op : Op) → World → Option (Reply op × World)
  | .eval ctx _ _, w => some (.exception, w.throwing ctx x)
  | .toCString ctx (.symbol _), w => some (none, w.throwing ctx .null)
  | _, _ => none

omit [PackageFfi] in
theorem throws_answers (x : JSValue) (op : Op) (w : World) (r : Reply op) (w' : World)
    (answered : scripted (throws x) op w = some (r,w')) :
    env.answers (.plain Eq False) op w r w' := by
  refine scripted_answers (fun _ => rfl) (fun op w r w' replied => ?_) op w r w' answered
  cases op with
  | eval ctx input filename =>
    cases replied
    exact .inr ⟨trivial, .inl ⟨rfl, x, rfl⟩⟩
  | toCString ctx v =>
    cases v with
    | symbol s =>
      cases replied
      exact .inl ⟨⟨rfl, .null, rfl⟩, id⟩
    | _ => cases replied
  | _ => cases replied

omit [PackageFfi] in
theorem undisturbed_of_eq (w₁ w₂ : World) (same : w₁ = w₂) : Undisturbed w₁ w₂ :=
  same ▸ ⟨(Moves.ledger fun _ => id).refl w₁, rfl, rfl⟩

/-- The script `s` in the first engine. -/
abbrev scriptEntry (s : Units) : Entry := .eval ⟨0,.box 0⟩ s none

omit [PackageFfi] in
theorem reported_accent :
    letI := PackageFfi.utf8
    ∃ h out w', Exec (env.answers (.plain Eq False)) ((scriptEntry (units "throw 'é'")).program 1)
        World.initial h out w' ∧
      (Reported 0 (.string [233]) World.initial out w' ↔ ¬(Seen.after h).rough ∧
        (∀ s, JSValue.string [233] = .string s → ¬Ascii s) ∧
        (Counted (.string [233]) → JSValue.string [233] ∉ (Seen.after h).passed)) := by
  let _ := PackageFfi.utf8
  obtain ⟨h, out, w', run, checked⟩ := Exec.of_check (throws_answers (.string [233]))
    (p := (scriptEntry (units "throw 'é'")).program 1) (w := World.initial) (fun h _ =>
      (Seen.after h).reply = some .exception ∧ (Seen.after h).thrown = some (.string [233]))
    (by decide)
  obtain ⟨threw, thrown⟩ := of_decide_eq_true checked
  exact ⟨h, out, w', run, reported_iff undisturbed_of_eq run threw thrown⟩

omit [PackageFfi] in
/-- A thrown symbol becomes an error that is no exception. -/
theorem not_reports_symbol :
    letI := PackageFfi.utf8
    ¬Reports (.symbol ⟨0,false⟩) := by
  let _ := PackageFfi.utf8
  intro reports
  obtain ⟨h, out, w', run, checked⟩ := Exec.of_check (throws_answers (.symbol ⟨0,false⟩))
    (p := (scriptEntry (units "throw Symbol()")).program 1) (w := World.initial) (fun h out =>
      (Seen.after h).reply = some .exception ∧
      (Seen.after h).thrown = some (.symbol ⟨0,false⟩) ∧ out = .error .unsupportedError)
    (by decide)
  obtain ⟨threw, thrown, failed⟩ := of_decide_eq_true checked
  obtain ⟨e, same, exception⟩ :=
    (reports Eq undisturbed_of_eq (scriptEntry (units "throw Symbol()")) 0 World.initial h out w' run threw thrown).exception
  rw [failed] at same
  cases same
  exact exception

end FlutterQuickjs.Release
