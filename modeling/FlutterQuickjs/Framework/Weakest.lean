import FlutterQuickjs.Framework.Program

namespace Effect

/-- An environment that answers some operations itself and hands control to
foreign code on others; foreign code leaves the world as it likes and then answers. -/
structure Env (Op : Type) (Reply : Op → Type) (W : Type) where
  foreign : Op → W → Prop
  direct : Answers Op Reply W
  back : Answers Op Reply W

/-- The terms on which a program is verified: what foreign code may do to the world,
what must hold before each operation, which answers are considered, and whether every
operation has to be answerable. -/
structure Setting (Op : Type) (Reply : Op → Type) (W : Type) where
  rely : W → W → Prop
  guard : Op → W → Prop
  allowed : (op : Op) → W → Reply op → Prop
  total : Prop

/-- No obligations and no restriction on answers. -/
def Setting.plain {Op : Type} {Reply : Op → Type} {W : Type}
    (rely : W → W → Prop) (total : Prop) : Setting Op Reply W :=
  ⟨rely, fun _ _ => True, fun _ _ _ => True, total⟩

section

variable {Op : Type} {Reply : Op → Type} {ε α β W : Type}

@[simp] theorem Setting.plain_guard {rely : W → W → Prop} {total : Prop} (op : Op) (w : W) :
    (Setting.plain rely total : Setting Op Reply W).guard op w ↔ True := Iff.rfl

@[simp] theorem Setting.plain_allowed {rely : W → W → Prop} {total : Prop}
    (op : Op) (w : W) (r : Reply op) :
    (Setting.plain rely total).allowed op w r ↔ True := Iff.rfl

@[simp] theorem Setting.plain_rely {rely : W → W → Prop} {total : Prop} :
    (Setting.plain rely total : Setting Op Reply W).rely = rely := rfl

def Env.answers (E : Env Op Reply W) (S : Setting Op Reply W) : Answers Op Reply W :=
  fun op w r w' => S.allowed op w r ∧
    (¬E.foreign op w ∧ E.direct op w r w' ∨
      E.foreign op w ∧ ∃ w₁, S.rely w w₁ ∧ E.back op w₁ r w')

/-- Weakest precondition: every operation finds its guard true, and every run that ends
meets the postcondition. -/
def wp (E : Env Op Reply W) (S : Setting Op Reply W) :
    Program Op Reply ε α → (Except ε α → W → Prop) → W → Prop
  | .done a, Q, w => Q (.ok a) w
  | .fail e, Q, w => Q (.error e) w
  | .ask op k, Q, w => S.guard op w ∧ (S.total → ∃ r w', E.answers S op w r w') ∧
      ∀ r w', E.answers S op w r w' → wp E S (k r) Q w'

/-- The postcondition of a sequence's first part. -/
def andThen (E : Env Op Reply W) (S : Setting Op Reply W) (f : α → Program Op Reply ε β)
    (Q : Except ε β → W → Prop) : Except ε α → W → Prop
  | .ok a, w => wp E S (f a) Q w
  | .error e, w => Q (.error e) w

/-- The postcondition of a guarded block. -/
def orElse (E : Env Op Reply W) (S : Setting Op Reply W) (h : ε → Program Op Reply ε α)
    (Q : Except ε α → W → Prop) : Except ε α → W → Prop
  | .ok a, w => Q (.ok a) w
  | .error e, w => wp E S (h e) Q w

variable {E : Env Op Reply W} {S : Setting Op Reply W}

@[simp] theorem andThen_ok (f : α → Program Op Reply ε β) (Q : Except ε β → W → Prop) (a : α)
    (w : W) : andThen E S f Q (.ok a) w = wp E S (f a) Q w := rfl

@[simp] theorem andThen_error (f : α → Program Op Reply ε β) (Q : Except ε β → W → Prop) (e : ε)
    (w : W) : andThen E S f Q (.error e) w = Q (.error e) w := rfl

@[simp] theorem orElse_ok (h : ε → Program Op Reply ε α) (Q : Except ε α → W → Prop) (a : α)
    (w : W) : orElse E S h Q (.ok a) w = Q (.ok a) w := rfl

@[simp] theorem orElse_error (h : ε → Program Op Reply ε α) (Q : Except ε α → W → Prop) (e : ε)
    (w : W) : orElse E S h Q (.error e) w = wp E S (h e) Q w := rfl

@[simp] theorem wp_pure (a : α) (Q : Except ε α → W → Prop) (w : W) :
    wp E S (pure a) Q w ↔ Q (.ok a) w := Iff.rfl

@[simp] theorem wp_done (a : α) (Q : Except ε α → W → Prop) (w : W) :
    wp E S (.done a) Q w ↔ Q (.ok a) w := Iff.rfl

@[simp] theorem wp_throw (e : ε) (Q : Except ε α → W → Prop) (w : W) :
    wp E S (throw e) Q w ↔ Q (.error e) w := Iff.rfl

@[simp] theorem wp_fail (e : ε) (Q : Except ε α → W → Prop) (w : W) :
    wp E S (.fail e) Q w ↔ Q (.error e) w := Iff.rfl

theorem wp_ask {op : Op} {k : Reply op → Program Op Reply ε α} {Q : Except ε α → W → Prop}
    {w : W} : wp E S (.ask op k) Q w ↔ S.guard op w ∧
      (S.total → ∃ r w', E.answers S op w r w') ∧
      ∀ r w', E.answers S op w r w' → wp E S (k r) Q w' := Iff.rfl

theorem wp_mono {p : Program Op Reply ε α} {Q Q' : Except ε α → W → Prop} {w : W}
    (h : wp E S p Q w) (hQ : ∀ out w', Q out w' → Q' out w') : wp E S p Q' w := by
  induction p generalizing w with
  | done a => exact hQ _ _ h
  | fail e => exact hQ _ _ h
  | ask op k ih => exact ⟨h.1, h.2.1, fun r w' answer => ih r (h.2.2 r w' answer)⟩

@[simp] theorem wp_bind {p : Program Op Reply ε α} {f : α → Program Op Reply ε β}
    {Q : Except ε β → W → Prop} {w : W} :
    wp E S (p >>= f) Q w ↔ wp E S p (andThen E S f Q) w := by
  rw [Program.bind_eq]
  induction p generalizing w with
  | done a => exact Iff.rfl
  | fail e => exact Iff.rfl
  | ask op k ih => simp only [Program.bind, wp_ask, ih]

theorem wp_assoc {γ : Type} {p : Program Op Reply ε α} {f : α → Program Op Reply ε β}
    {g : β → Program Op Reply ε γ} {Q : Except ε γ → W → Prop} {w : W} :
    wp E S (p >>= f >>= g) Q w ↔ wp E S (p >>= fun a => f a >>= g) Q w := by
  have same : andThen E S f (andThen E S g Q) = andThen E S (fun a => f a >>= g) Q := by
    funext out w'
    cases out with
    | error e => rfl
    | ok a => exact propext wp_bind.symm
  rw [wp_bind, wp_bind, wp_bind, same]

@[simp] theorem wp_tryCatch {p : Program Op Reply ε α} {h : ε → Program Op Reply ε α}
    {Q : Except ε α → W → Prop} {w : W} :
    wp E S (tryCatch p h) Q w ↔ wp E S p (orElse E S h Q) w := by
  rw [Program.tryCatch_eq]
  induction p generalizing w with
  | done a => exact Iff.rfl
  | fail e => exact Iff.rfl
  | ask op k ih => simp only [Program.handle, wp_ask, ih]

@[simp] theorem wp_ite {c : Prop} [Decidable c] {p q : Program Op Reply ε α}
    {Q : Except ε α → W → Prop} {w : W} :
    wp E S (if c then p else q) Q w ↔ (c → wp E S p Q w) ∧ (¬c → wp E S q Q w) := by
  by_cases hc : c <;> simp [hc]

/-- An operation the environment answers itself. -/
theorem wp_direct {op : Op} {Q : Except ε (Reply op) → W → Prop} {w : W}
    (own : ¬E.foreign op w) :
    wp E S (.call op) Q w ↔ S.guard op w ∧
      (S.total → ∃ r w', S.allowed op w r ∧ E.direct op w r w') ∧
      ∀ r w', S.allowed op w r → E.direct op w r w' → Q (.ok r) w' := by
  simp only [Program.call, wp_ask, Env.answers, own, not_false_eq_true, true_and, false_and,
    or_false, wp_done, and_imp]

/-- An operation with a single answer. -/
theorem wp_determined {op : Op} {Q : Except ε (Reply op) → W → Prop} {w : W} {r : Reply op}
    {w' : W} (own : ¬E.foreign op w)
    (single : ∀ r₁ w₁, E.direct op w r₁ w₁ ↔ r₁ = r ∧ w₁ = w') :
    wp E S (.call op) Q w ↔ S.guard op w ∧ (S.total → S.allowed op w r) ∧
      (S.allowed op w r → Q (.ok r) w') := by
  rw [wp_direct own]
  simp only [single]
  constructor
  · rintro ⟨guard, some, every⟩
    refine ⟨guard, fun total => ?_, fun allowed => every r w' allowed ⟨rfl, rfl⟩⟩
    obtain ⟨r₁, w₁, allowed, rfl, -⟩ := some total
    exact allowed
  · rintro ⟨guard, some, every⟩
    refine ⟨guard, fun total => ⟨r, w', some total, rfl, rfl⟩, ?_⟩
    rintro r₁ w₁ allowed ⟨rfl, rfl⟩
    exact every allowed

/-- An operation that hands control to foreign code. -/
theorem wp_foreign {op : Op} {Q : Except ε (Reply op) → W → Prop} {w : W}
    (foreign : E.foreign op w) :
    wp E S (.call op) Q w ↔ S.guard op w ∧
      (S.total → ∃ r w', S.allowed op w r ∧ ∃ w₁, S.rely w w₁ ∧ E.back op w₁ r w') ∧
      ∀ r w₁ w', S.allowed op w r → S.rely w w₁ → E.back op w₁ r w' → Q (.ok r) w' := by
  simp only [Program.call, wp_ask, Env.answers, foreign, not_true_eq_false, true_and, false_and,
    false_or, wp_done, and_imp, forall_exists_index]
  refine and_congr_right fun _ => and_congr_right fun _ => ?_
  constructor
  · intro h r w₁ w' allowed rely back
    exact h r w' allowed w₁ rely back
  · intro h r w' allowed w₁ rely back
    exact h r w₁ w' allowed rely back

/-- What was proved holds where fewer answers are considered, if one is left wherever one has to
be at hand. -/
theorem wp_fewer {S' : Setting Op Reply W} {p : Program Op Reply ε α}
    {Q : Except ε α → W → Prop} {w : W} (h : wp E S p Q w)
    (rely : ∀ w w', S'.rely w w' → S.rely w w') (guard : ∀ op w, S.guard op w → S'.guard op w)
    (allowed : ∀ op w r, S'.allowed op w r → S.allowed op w r)
    (left : S'.total → S.total ∧ ∀ op w, (∃ r w', E.answers S op w r w') →
      ∃ r w', E.answers S' op w r w') : wp E S' p Q w := by
  have fewer : ∀ op w r w', E.answers S' op w r w' → E.answers S op w r w' := by
    rintro op w r w' ⟨ok, answer⟩
    refine ⟨allowed op w r ok, answer.imp_right ?_⟩
    rintro ⟨foreign, w₁, between, back⟩
    exact ⟨foreign, w₁, rely _ _ between, back⟩
  induction p generalizing w with
  | done a => exact h
  | fail e => exact h
  | ask op k ih =>
    refine ⟨guard _ _ h.1, fun total => ?_, fun r w' answer => ih r (h.2.2 r w' (fewer _ _ _ _ answer))⟩
    obtain ⟨total', answerable⟩ := left total
    exact answerable op w (h.2.1 total')

/-- Weaker obligations leave everything else as it is. -/
theorem wp_guard_mono {rely : W → W → Prop} {guard guard' : Op → W → Prop}
    {allowed : (op : Op) → W → Reply op → Prop} {total : Prop} {p : Program Op Reply ε α}
    {Q : Except ε α → W → Prop} {w : W} (h : wp E ⟨rely, guard, allowed, total⟩ p Q w)
    (weaker : ∀ op w, guard op w → guard' op w) : wp E ⟨rely, guard', allowed, total⟩ p Q w := by
  induction p generalizing w with
  | done a => exact h
  | fail e => exact h
  | ask op k ih => exact ⟨weaker _ _ h.1, h.2.1, fun r w' answer => ih r (h.2.2 r w' answer)⟩

theorem wp_and {p : Program Op Reply ε α} {Q Q' : Except ε α → W → Prop} {w : W}
    (h : wp E S p Q w) (h' : wp E S p Q' w) :
    wp E S p (fun out w' => Q out w' ∧ Q' out w') w := by
  induction p generalizing w with
  | done a => exact ⟨h, h'⟩
  | fail e => exact ⟨h, h'⟩
  | ask op k ih =>
    exact ⟨h.1, h.2.1, fun r w' answer => ih r (h.2.2 r w' answer) (h'.2.2 r w' answer)⟩

/-- What every answer keeps holds in the end. -/
theorem wp_invariant {I : W → Prop} (step : ∀ op w r w', I w → E.answers S op w r w' → I w')
    (free : ∀ op w, S.guard op w) (partially : ¬S.total) (p : Program Op Reply ε α) {w : W}
    (holds : I w) : wp E S p (fun _ w' => I w') w := by
  induction p generalizing w with
  | done a => exact holds
  | fail e => exact holds
  | ask op k ih =>
    exact ⟨free op w, fun total => absurd total partially,
      fun r w' answer => ih r (step op w r w' holds answer)⟩

/-- With no obligations there is nothing to show but the postcondition. -/
theorem wp_trivial {p : Program Op Reply ε α} {Q : Except ε α → W → Prop} {w : W}
    (free : ∀ op w, S.guard op w) (partially : ¬S.total) (every : ∀ out w', Q out w') :
    wp E S p Q w :=
  wp_mono (wp_invariant (fun _ _ _ _ _ _ => trivial) free partially p trivial) fun out w' _ =>
    every out w'

/-- A part of a program about which nothing has to be known. -/
theorem wp_skip {p : Program Op Reply ε α} {f : α → Program Op Reply ε β}
    {Q : Except ε β → W → Prop} {w : W} (free : ∀ op w, S.guard op w) (partially : ¬S.total)
    (fails : ∀ e w', Q (.error e) w') (rest : ∀ a w', wp E S (f a) Q w') : wp E S (p >>= f) Q w := by
  rw [wp_bind]
  apply wp_trivial free partially
  intro out w'
  cases out with
  | error e => exact fails e w'
  | ok a => exact rest a w'

/-- Every complete run of a verified program meets the postcondition. -/
theorem wp_sound {p : Program Op Reply ε α} {Q : Except ε α → W → Prop} {w w' : W}
    {h : List (Event Op Reply)} {out : Except ε α} (verified : wp E S p Q w)
    (run : Exec (E.answers S) p w h out w') : Q out w' := by
  induction run with
  | done a w => exact verified
  | fail e w => exact verified
  | ask answer rest ih => exact ih (verified.2.2 _ _ answer)

/-- A program verified with answers always at hand has a complete run. -/
theorem wp_runs {p : Program Op Reply ε α} {Q : Except ε α → W → Prop} {w : W}
    (verified : wp E S p Q w) (total : S.total) :
    ∃ h out w', Exec (E.answers S) p w h out w' := by
  induction p generalizing w with
  | done a => exact ⟨_, _, _, .done a w⟩
  | fail e => exact ⟨_, _, _, .fail e w⟩
  | ask op k ih =>
    obtain ⟨r, w₁, answer⟩ := verified.2.1 total
    obtain ⟨h, out, w', run⟩ := ih r (verified.2.2 r w₁ answer)
    exact ⟨_, out, w', .ask answer run⟩

end

end Effect
