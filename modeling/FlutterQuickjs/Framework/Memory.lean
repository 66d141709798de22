import Mathlib.Data.List.Basic

namespace Effect

variable {α : Type}

/-- Memory that grows: every old cell is still there with its old contents. -/
def Keeps (xs ys : List α) : Prop :=
  xs.length ≤ ys.length ∧ ∀ n < xs.length, ys[n]? = xs[n]?

namespace Keeps

variable {xs ys zs : List α}

theorem refl (xs : List α) : Keeps xs xs := ⟨Nat.le_refl _, fun _ _ => rfl⟩

theorem trans (first : Keeps xs ys) (second : Keeps ys zs) : Keeps xs zs := by
  refine ⟨Nat.le_trans first.1 second.1, fun n old => ?_⟩
  rw [second.2 n (Nat.lt_of_lt_of_le old first.1), first.2 n old]

theorem append (xs more : List α) : Keeps xs (xs ++ more) :=
  ⟨by simp, fun n old => by rw [List.getElem?_append_left old]⟩

theorem getElem? (keeps : Keeps xs ys) {n : Nat} {x : α} (found : xs[n]? = some x) :
    ys[n]? = some x := by
  rw [keeps.2 n (List.getElem?_eq_some_iff.mp found).1, found]

theorem getD (keeps : Keeps xs ys) {n : Nat} (old : n < xs.length) (d : α) :
    ys.getD n d = xs.getD n d := by
  rw [List.getD_eq_getElem?_getD, List.getD_eq_getElem?_getD, keeps.2 n old]

/-- Changing a cell that was not there leaves the old ones alone. -/
theorem modify (keeps : Keeps xs ys) {n : Nat} (new : xs.length ≤ n) (f : α → α) :
    Keeps xs (ys.modify n f) := by
  refine ⟨by simpa using keeps.1, fun k old => ?_⟩
  have other : n ≠ k := by omega
  simp [other, keeps.2 k old]

end Keeps

theorem getD_modify_self {xs : List α} {n : Nat} (inside : n < xs.length) (f : α → α) (d : α) :
    (xs.modify n f).getD n d = f (xs.getD n d) := by
  simp [List.getD_eq_getElem?_getD, List.getElem?_eq_getElem inside]

theorem getD_modify_ne {xs : List α} {n k : Nat} (other : k ≠ n) (f : α → α) (d : α) :
    (xs.modify n f).getD k d = xs.getD k d := by
  simp [List.getD_eq_getElem?_getD, Ne.symm other]

/-- A new cell with the default contents shows nowhere. -/
theorem getD_append_singleton (xs : List α) (n : Nat) (d : α) :
    (xs ++ [d]).getD n d = xs.getD n d := by
  by_cases inside : n < xs.length
  · simp [List.getD_eq_getElem?_getD, List.getElem?_append_left inside]
  · have outside : xs.length ≤ n := by omega
    have one : ([d] : List α)[n - xs.length]?.getD d = d := by cases n - xs.length <;> simp
    rw [List.getD_eq_getElem?_getD, List.getD_eq_getElem?_getD,
      List.getElem?_append_right outside, List.getElem?_eq_none outside]
    exact one

theorem getD_append_self (xs : List α) (x d : α) : (xs ++ [x]).getD xs.length d = x := by
  simp [List.getD_eq_getElem?_getD]

end Effect
