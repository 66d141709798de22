import FlutterQuickjs.Framework.Weakest

namespace Effect

variable {Op : Type} {Reply : Op → Type} {ε α β W G : Type} {E : Env Op Reply W}
  {S : Setting Op Reply W} {step : G → Event Op Reply → G}

/-- The environment together with an observer, who sees every answered operation and remembers
what `step` makes of it. -/
def Env.watch (E : Env Op Reply W) (step : G → Event Op Reply → G) : Env Op Reply (W × G) where
  foreign op s := E.foreign op s.1
  direct op s r s' := E.direct op s.1 r s'.1 ∧ s'.2 = step s.2 ⟨op,r⟩
  back op s r s' := E.back op s.1 r s'.1 ∧ s'.2 = step s.2 ⟨op,r⟩

/-- Foreign code does not touch what the observer remembers. -/
def Setting.watch (S : Setting Op Reply W) (G : Type) : Setting Op Reply (W × G) where
  rely s s' := S.rely s.1 s'.1 ∧ s'.2 = s.2
  guard op s := S.guard op s.1
  allowed op s r := S.allowed op s.1 r
  total := S.total

theorem watch_answers {op : Op} {r : Reply op} {s s' : W × G} :
    (E.watch step).answers (S.watch G) op s r s' ↔
      E.answers S op s.1 r s'.1 ∧ s'.2 = step s.2 ⟨op,r⟩ := by
  constructor
  · intro ⟨allowed, answered⟩
    rcases answered with ⟨own, direct, saw⟩ | ⟨foreign, s₁, ⟨rely, same⟩, back, saw⟩
    · exact ⟨⟨allowed, .inl ⟨own, direct⟩⟩, saw⟩
    · rw [same] at saw
      exact ⟨⟨allowed, .inr ⟨foreign, s₁.1, rely, back⟩⟩, saw⟩
  · intro ⟨⟨allowed, answered⟩, saw⟩
    rcases answered with ⟨own, direct⟩ | ⟨foreign, w₁, rely, back⟩
    · exact ⟨allowed, .inl ⟨own, direct, saw⟩⟩
    · exact ⟨allowed, .inr ⟨foreign, (w₁,s.2), ⟨rely, rfl⟩, back, saw⟩⟩

/-- A run as the observer sees it. -/
theorem Exec.watch {p : Program Op Reply ε α} {w w' : W} {h : List (Event Op Reply)}
    {out : Except ε α} (run : Exec (E.answers S) p w h out w') (g : G) :
    Exec ((E.watch step).answers (S.watch G)) p (w,g) h out (w', h.foldl step g) := by
  induction run generalizing g with
  | done a w => exact .done a (w,g)
  | fail e w => exact .fail e (w,g)
  | @ask op k w w' w'' r h out answer rest ih =>
    have seen : (E.watch step).answers (S.watch G) op (w,g) r (w', step g ⟨op,r⟩) :=
      watch_answers.mpr ⟨answer, rfl⟩
    exact .ask seen (ih _)

/-- What is proved with an observer holds of every run and its history. -/
theorem wp_watch_sound {p : Program Op Reply ε α} {Q : Except ε α → W × G → Prop} {w w' : W}
    {g : G} {h : List (Event Op Reply)} {out : Except ε α}
    (verified : wp (E.watch step) (S.watch G) p Q (w,g))
    (run : Exec (E.answers S) p w h out w') : Q out (w', h.foldl step g) :=
  wp_sound verified (run.watch g)

/-- What the observer never forgets. -/
theorem wp_watch_invariant {I : G → Prop} (keeps : ∀ g e, I g → I (step g e))
    (free : ∀ op w, S.guard op w) (partially : ¬S.total) (p : Program Op Reply ε α) {w : W} {g : G}
    (holds : I g) : wp (E.watch step) (S.watch G) p (fun _ s => I s.2) (w,g) := by
  have sees : ∀ op (s : W × G) r s', I s.2 → (E.watch step).answers (S.watch G) op s r s' →
      I s'.2 := by
    intro op s r s' before answered
    rw [(watch_answers.mp answered).2]
    exact keeps s.2 ⟨op,r⟩ before
  exact wp_invariant sees (fun op s => free op s.1) partially p holds

/-- An observer changes nothing. -/
theorem wp_watch {p : Program Op Reply ε α} {Q : Except ε α → W → Prop} {w : W}
    (verified : wp E S p Q w) (g : G) :
    wp (E.watch step) (S.watch G) p (fun out s => Q out s.1) (w,g) := by
  induction p generalizing w g with
  | done a => exact verified
  | fail e => exact verified
  | ask op k ih =>
    refine ⟨verified.1, fun total => ?_, fun r s' answered => ?_⟩
    · obtain ⟨r, w', answered⟩ := verified.2.1 total
      exact ⟨r, (w', step g ⟨op,r⟩), watch_answers.mpr ⟨answered, rfl⟩⟩
    · exact ih r (verified.2.2 r s'.1 (watch_answers.mp answered).1) s'.2

end Effect
