import FlutterQuickjs.Framework.Weakest

namespace Effect

variable {Op : Type} {Reply : Op → Type} {ε α β W : Type} {E : Env Op Reply W}
  {S : Setting Op Reply W} {R R' : W → W → Prop}

/-- Wherever the program starts and however it ends, the worlds before and after are related. -/
def Preserves (E : Env Op Reply W) (S : Setting Op Reply W) (R : W → W → Prop)
    (p : Program Op Reply ε α) : Prop :=
  ∀ w, wp E S p (fun _ w' => R w w') w

/-- A relation between worlds that sequences of steps can be followed through. -/
structure Follows (R : W → W → Prop) : Prop where
  refl : ∀ w, R w w
  trans : ∀ {w w' w''}, R w w' → R w' w'' → R w w''

namespace Preserves

theorem pure (follows : Follows R) (a : α) :
    Preserves E S R (Pure.pure a : Program Op Reply ε α) := by
  intro w
  exact follows.refl w

theorem throw (follows : Follows R) (e : ε) :
    Preserves E S R (MonadExcept.throw e : Program Op Reply ε α) := by
  intro w
  exact follows.refl w

theorem call {op : Op} (free : ∀ w, S.guard op w) (partially : ¬S.total)
    (step : ∀ w r w', E.answers S op w r w' → R w w') :
    Preserves E S R (.call op : Program Op Reply ε (Reply op)) := by
  intro w
  exact ⟨free w, fun total => absurd total partially, step w⟩

theorem mono {p : Program Op Reply ε α} (h : Preserves E S R p)
    (weaker : ∀ w w', R w w' → R' w w') : Preserves E S R' p := by
  intro w
  exact wp_mono (h w) fun _ => weaker w

theorem bind (follows : Follows R) {p : Program Op Reply ε α} {f : α → Program Op Reply ε β}
    (first : Preserves E S R p) (rest : ∀ a, Preserves E S R (f a)) :
    Preserves E S R (p >>= f) := by
  intro w
  rw [wp_bind]
  refine wp_mono (first w) fun out w' before => ?_
  cases out with
  | error e => exact before
  | ok a => exact wp_mono (rest a w') fun _ _ after => follows.trans before after

theorem ite {c : Prop} [Decidable c] {p q : Program Op Reply ε α} (yes : Preserves E S R p)
    (no : Preserves E S R q) : Preserves E S R (if c then p else q) := by
  by_cases hc : c
  · simpa [hc] using yes
  · simpa [hc] using no

/-- What each operation keeps, a program of such operations keeps. -/
theorem of_within (follows : Follows R) {may : Op → Prop}
    (each : ∀ op, may op → Preserves E S R (.call op : Program Op Reply ε (Reply op)))
    {p : Program Op Reply ε α} (within : p.Within may) : Preserves E S R p := by
  induction p with
  | done a => exact .pure follows a
  | fail e => exact .throw follows e
  | ask op k ih => exact .bind follows (each op within.1) fun r => ih r (within.2 r)

/-- A part of a program, then what is left to show in the worlds it may lead to. -/
theorem step {p : Program Op Reply ε α} {f : α → Program Op Reply ε β}
    {Q : Except ε β → W → Prop} {w : W} (first : Preserves E S R p)
    (fails : ∀ e w', R w w' → Q (.error e) w') (rest : ∀ a w', R w w' → wp E S (f a) Q w') :
    wp E S (p >>= f) Q w := by
  rw [wp_bind]
  refine wp_mono (first w) fun out w' after => ?_
  cases out with
  | error e => exact fails e w' after
  | ok a => exact rest a w' after

theorem guarded {I : W → Prop} {p : Program Op Reply ε α}
    (h : Preserves E S (fun w w' => I w → I w' ∧ R w w') p) {w : W} (holds : I w) :
    wp E S p (fun _ w' => I w' ∧ R w w') w :=
  wp_mono (h w) fun _ _ after => after holds

end Preserves

/-- Where the relation is kept under a condition that it also keeps. -/
theorem Follows.guarded {I : W → Prop} (follows : Follows R) :
    Follows fun w w' => I w → I w' ∧ R w w' where
  refl w := fun holds => ⟨holds, follows.refl w⟩
  trans first second := fun holds =>
    ⟨(second (first holds).1).1, follows.trans (first holds).2 (second (first holds).1).2⟩

end Effect
