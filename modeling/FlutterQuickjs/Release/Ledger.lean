import FlutterQuickjs.Binding.Answers
import FlutterQuickjs.Framework.Graded
import FlutterQuickjs.Framework.Memory
import Mathlib.Algebra.Order.Group.Int
import Mathlib.Algebra.Group.Pi.Basic
import Mathlib.Algebra.Order.Pi
import Mathlib.Data.List.Count

namespace FlutterQuickjs.Release

open Engine Binding
open Effect

/-- Values that the engine counts references for. -/
def Counted : JSValue → Prop
  | .string _ => True
  | .symbol _ => True
  | .bigInt _ => True
  | .object _ => True
  | _ => False

theorem not_counted_newInt64 (n : Int64) : ¬Counted (.newInt64 n) := by
  unfold JSValue.newInt64
  split <;> exact id

theorem not_counted_newFloat64 (d : Double) : ¬Counted (.newFloat64 d) := by
  unfold JSValue.newFloat64
  split
  · split <;> exact id
  · exact id

/-- A way of keeping account of the references that the binding owes the engine: boxes stay, and
what the counts show is what has been moved. -/
structure Ledger (R : (JSValue → Int) → World → World → Prop) : Prop extends Graded R where
  boxes : ∀ {e w w'}, R e w w' → Keeps w.boxes w'.boxes
  shift : ∀ {e w w'}, Keeps w.boxes w'.boxes →
    (∀ v, Counted v → w'.held v = w.held v + e v) → w'.atoms = w.atoms →
    w'.jsFunctionCache = w.jsFunctionCache → R e w w'

/-- The counts of the values that matter move by exactly this much. -/
structure Moves (cares : JSValue → Prop) (e : JSValue → Int) (w w' : World) : Prop where
  boxes : Keeps w.boxes w'.boxes
  held : ∀ v, cares v → w'.held v = w.held v + e v

/-- The references on the object `o` grow by this much at least. -/
structure Owes (o : ObjRef) (e : JSValue → Int) (w w' : World) : Prop where
  boxes : Keeps w.boxes w'.boxes
  held : w.held (.object o) + e (.object o) ≤ w'.held (.object o)

/-- A box with a reference on `o`. -/
def boxed (w : World) (o : ObjRef) : Ptr → Bool
  | .box n => w.boxes[n]? = some (.object o)
  | .slot _ _ => false

/-- The references on objects move by this much, not counting the boxes of functions that are
newly registered for `close`. -/
structure Registers (ctx : Ctx) (e : JSValue → Int) (w w' : World) : Prop where
  boxes : Keeps w.boxes w'.boxes
  atoms : w'.atoms = w.atoms
  registered : ∃ ptrs : List Ptr,
    (w'.jsFunctionCache ctx).getD [] = (w.jsFunctionCache ctx).getD [] ++ ptrs ∧
    (∀ n, .box n ∈ ptrs → ∃ v, w'.boxes[n]? = some v ∧ v.isFunction = true) ∧
    ∀ o, w'.held (.object o) = w.held (.object o) + ptrs.countP (boxed w' o) + e (.object o)

variable {cares : JSValue → Prop} {o : ObjRef} {ctx : Ctx} {w w' w'' : World}
  {e : JSValue → Int}

theorem Moves.ledger (real : ∀ v, cares v → Counted v) : Ledger (Moves cares) where
  refl w := ⟨.refl _, by simp⟩
  trans first second := {
    boxes := first.boxes.trans second.boxes
    held := fun v matters => by
      have := first.held v matters
      have := second.held v matters
      simp only [Pi.add_apply]
      omega }
  boxes := Moves.boxes
  shift boxes held _ _ := {
    boxes := boxes
    held := fun v matters => held v (real v matters) }

theorem Owes.ledger (o : ObjRef) : Ledger (Owes o) where
  refl w := ⟨.refl _, by simp⟩
  trans first second := {
    boxes := first.boxes.trans second.boxes
    held := by
      have := first.held
      have := second.held
      simp only [Pi.add_apply]
      omega }
  boxes := Owes.boxes
  shift boxes held _ _ := {
    boxes := boxes
    held := (held (.object o) trivial).ge }

theorem boxed_keeps (keeps : Keeps w.boxes w'.boxes) {p : Ptr}
    (valid : ∀ n, p = .box n → ∃ v, w.boxes[n]? = some v) : boxed w' o p = boxed w o p := by
  cases p with
  | slot a i => rfl
  | box n =>
    obtain ⟨v, found⟩ := valid n rfl
    simp [boxed, found, keeps.getElem? found]

theorem Registers.ledger (ctx : Ctx) : Ledger (Registers ctx) where
  refl w := ⟨.refl _, rfl, [], by simp, by simp, by simp⟩
  trans {m n w w' w''} first second := by
    obtain ⟨ptrs, grown, functions, held⟩ := first.registered
    obtain ⟨ptrs', grown', functions', held'⟩ := second.registered
    refine ⟨first.boxes.trans second.boxes, second.atoms.trans first.atoms, ptrs ++ ptrs', ?_, ?_, ?_⟩
    · rw [grown', grown, List.append_assoc]
    · intro n member
      rcases List.mem_append.mp member with old | new
      · obtain ⟨v, found, function⟩ := functions n old
        exact ⟨v, second.boxes.getElem? found, function⟩
      · exact functions' n new
    · intro o
      have same : ptrs.countP (boxed w'' o) = ptrs.countP (boxed w' o) := by
        apply List.countP_congr
        intro p member
        rw [boxed_keeps second.boxes]
        intro n box
        obtain ⟨v, found, -⟩ := functions n (box ▸ member)
        exact ⟨v, found⟩
      have := held o
      have := held' o
      rw [List.countP_append, same]
      simp only [Pi.add_apply]
      omega
  boxes := Registers.boxes
  shift boxes held atoms cache := ⟨boxes, atoms, [], by simp [cache], by simp, fun o => by
    simp [held (.object o) trivial]⟩

end FlutterQuickjs.Release
