import FlutterQuickjs.Framework.Preserve
import Mathlib.Algebra.Group.Defs

namespace Effect

/-- A relation between worlds that also says how much something grows on the way. -/
structure Graded {M W : Type} [AddMonoid M] (R : M → W → W → Prop) : Prop where
  refl : ∀ w, R 0 w w
  trans : ∀ {m n w w' w''}, R m w w' → R n w' w'' → R (m + n) w w''

namespace Graded

variable {Op : Type} {Reply : Op → Type} {ε α β W M : Type} [AddMonoid M]
  {R : M → W → W → Prop} {E : Env Op Reply W} {S : Setting Op Reply W}

theorem follows (graded : Graded R) : Follows (R 0) where
  refl := graded.refl
  trans first second := by simpa using graded.trans first second

theorem still (graded : Graded R) {m : M} {w w' w'' : W} (first : R m w w')
    (second : R 0 w' w'') : R m w w'' := by
  simpa using graded.trans first second

end Graded

end Effect
