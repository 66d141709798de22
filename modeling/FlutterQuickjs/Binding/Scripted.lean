import FlutterQuickjs.Binding.Answers

namespace FlutterQuickjs.Binding

open Engine
open Effect

/-- A free address for every new object. -/
def fresh : (op : Op) → World → Option (Reply op × World)
  | .newObject ctx, w =>
    if w.heap.Taken (w.serial + 1) then none
    else some (.object ⟨w.serial + 1,w.serial,.ordinary⟩,
      (w.allocate (w.serial + 1) .ordinary (w.realm ctx).objectProto).credit
        (.object ⟨w.serial + 1,w.serial,.ordinary⟩))
  | .newArray ctx, w =>
    if w.heap.Taken (w.serial + 1) then none
    else some (.object ⟨w.serial + 1,w.serial,.array⟩,
      (w.allocate (w.serial + 1) .array (w.realm ctx).arrayProto).credit
        (.object ⟨w.serial + 1,w.serial,.array⟩))
  | .newCFunction ctx _, w =>
    if w.heap.Taken (w.serial + 1) then none
    else some (.object ⟨w.serial + 1,w.serial,.function⟩,
      (w.allocate (w.serial + 1) .function (w.realm ctx).functionProto).credit
        (.object ⟨w.serial + 1,w.serial,.function⟩))
  | _, _ => none

/-- The engine with a script in place of its foreign code. -/
def scripted (script : (op : Op) → World → Option (Reply op × World)) (op : Op) (w : World) :
    Option (Reply op × World) :=
  ((answer op w).or (fresh op w)).or (script op w)

theorem fresh_answers {op : Op} {w w' : World} {r : Reply op}
    (found : fresh op w = some (r,w')) : direct op w r w' := by
  cases op with
  | newObject ctx =>
    simp only [fresh] at found
    split at found
    · cases found
    · rename_i free
      cases found
      exact ⟨_, free, rfl, rfl⟩
  | newArray ctx =>
    simp only [fresh] at found
    split at found
    · cases found
    · rename_i free
      cases found
      exact ⟨_, free, rfl, rfl⟩
  | newCFunction ctx name =>
    simp only [fresh] at found
    split at found
    · cases found
    · rename_i free
      cases found
      exact ⟨_, free, rfl, rfl⟩
  | _ => cases found

theorem plain_known (op : Op) (w : World) (r : Reply op) (w' : World)
    (known : answer op w = some (r,w')) : env.answers (.plain Eq False) op w r w' := by
  refine ⟨trivial, .inl ⟨own_of_answer known, ?_⟩⟩
  change direct op w r w'
  rw [direct, known]
  exact ⟨rfl, rfl⟩

theorem Evolves.of_eq {w w' : World} (same : w = w') : Evolves w w' := by
  subst same
  exact ⟨rfl, le_rfl, fun _ _ live => live, fun _ live => .inl live, fun _ _ => rfl,
    ⟨le_rfl, le_rfl⟩⟩

/-- Whatever a script answers that foreign code may answer too is a run of the binding. -/
theorem scripted_answers {script : (op : Op) → World → Option (Reply op × World)}
    {rely : World → World → Prop} (refl : ∀ w, rely w w)
    (allowed : ∀ op w r w', script op w = some (r,w') → direct op w r w' ∧ ¬foreign op w ∨
      foreign op w ∧ back op w r w') (op : Op) (w : World) (r : Reply op) (w' : World)
    (answered : scripted script op w = some (r,w')) :
    env.answers (.plain rely False) op w r w' := by
  refine ⟨trivial, ?_⟩
  rcases Option.or_eq_some_iff.mp answered with known | ⟨-, answered⟩
  · rcases Option.or_eq_some_iff.mp known with known | ⟨unknown, made⟩
    · refine .inl ⟨own_of_answer known, ?_⟩
      change direct op w r w'
      rw [direct, known]
      exact ⟨rfl, rfl⟩
    · refine .inl ⟨?_, fresh_answers made⟩
      cases op <;> first | exact id | cases made
  · rcases allowed op w r w' answered with ⟨own, native⟩ | ⟨runs, returned⟩
    · exact .inl ⟨native, own⟩
    · exact .inr ⟨runs, w, refl w, returned⟩

end FlutterQuickjs.Binding
