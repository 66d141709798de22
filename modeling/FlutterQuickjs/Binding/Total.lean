import FlutterQuickjs.Binding.Effects

namespace FlutterQuickjs.Binding

open Engine
open Effect

section

variable {rely : World → World → Prop} {total : Prop}

theorem back_total {op : Op} {w : World} (runs : foreign op w) : ∃ r w', back op w r w' := by
  have positive : (0 : Int32) ≤ 1 := by decide
  cases op with
  | eval ctx input filename => exact ⟨.undefined, _, .inr ⟨nofun, rfl⟩⟩
  | call ctx f this argc argv => exact ⟨.undefined, _, .inr ⟨nofun, rfl⟩⟩
  | toInt32 ctx v => exact ⟨(0 : Int32), w, .inl rfl⟩
  | toInt64 ctx v => exact ⟨(0 : Int64), w, .inl rfl⟩
  | toFloat64 ctx v => exact ⟨.nan, w, .inl rfl⟩
  | toCString ctx v => exact ⟨_, _, .inl ⟨[], rfl, rfl⟩⟩
  | getProperty ctx v k => exact ⟨.undefined, _, .inr ⟨nofun, rfl⟩⟩
  | getOwnPropertyNames ctx v => exact ⟨_, _, .inl ⟨[], rfl, rfl⟩⟩
  | setProperty ctx v k x => exact ⟨(1 : Int32), _, .inl ⟨positive, rfl⟩⟩
  | defineIndex ctx v i x flags => exact ⟨(1 : Int32), _, .inl ⟨positive, rfl⟩⟩
  | apply f params => exact ⟨.ok .null, w, rfl⟩
  | print e => exact ⟨.ok (), w, rfl⟩
  | _ => exact False.elim runs

theorem choice_total {op : Op} {w : World} (own : ¬foreign op w) (unknown : answer op w = none) :
    ∃ r w', choice op w r w' := by
  cases op with
  | newContext =>
    obtain ⟨ctx, free⟩ := Infinite.exists_notMem_finset w.contexts.toFinset
    exact ⟨ctx, _, fun inside => free (List.mem_toFinset.mpr inside), w.realm ctx, w.heap, w.serial,
      fun _ _ found => found, le_rfl, rfl⟩
  | isArray ctx v => exact ⟨(0 : Int32), w, .inl ⟨.inl rfl, rfl⟩⟩
  | toCString ctx v =>
    cases v with
    | symbol s => exact ⟨none, _, rfl, .null, rfl⟩
    | _ => exact ⟨_, _, [], by decide, rfl, rfl⟩
  | newObject ctx =>
    obtain ⟨address, free⟩ := w.heap.exists_free
    exact ⟨_, _, address, free, rfl, rfl⟩
  | newArray ctx =>
    obtain ⟨address, free⟩ := w.heap.exists_free
    exact ⟨_, _, address, free, rfl, rfl⟩
  | setProperty ctx v k x => exact ⟨_, _, rfl, .null, rfl⟩
  | defineIndex ctx v i x flags => exact ⟨_, _, rfl, .null, rfl⟩
  | newCFunctionData ctx id =>
    obtain ⟨address, free⟩ := w.heap.exists_free
    exact ⟨_, _, address, free, rfl, rfl⟩
  | newCFunction ctx name =>
    obtain ⟨address, free⟩ := w.heap.exists_free
    exact ⟨_, _, address, free, rfl, rfl⟩
  | toInt32 ctx v =>
    simp only [answer] at unknown
    split at unknown
    · cases unknown
    · rename_i open_
      split at unknown
      · cases unknown
      · rename_i other
        exact absurd ⟨other, open_⟩ own
  | toInt64 ctx v =>
    simp only [answer] at unknown
    split at unknown
    · cases unknown
    · rename_i open_
      split at unknown
      · cases unknown
      · rename_i other
        exact absurd ⟨other, open_⟩ own
  | toFloat64 ctx v =>
    simp only [answer] at unknown
    split at unknown
    · cases unknown
    · rename_i open_
      split at unknown
      · cases unknown
      · rename_i other
        exact absurd ⟨other, open_⟩ own
  | getProperty ctx v k =>
    simp only [answer] at unknown
    split at unknown
    · cases unknown
    · rename_i code
      exact absurd code own
  | getOwnPropertyNames ctx v =>
    simp only [answer] at unknown
    split at unknown
    · cases unknown
    · rename_i code
      exact absurd code own
  | origin p f =>
    simp only [answer] at unknown
    split at unknown <;> cases unknown
  | eval ctx input filename => exact absurd trivial own
  | call ctx f this argc argv => exact absurd trivial own
  | apply f params => exact absurd trivial own
  | findAtom name => exact ⟨_, w, .inl rfl, rfl⟩
  | print e => cases e <;> first | exact absurd trivial own | cases unknown
  | _ => exact (Option.some_ne_none _ unknown).elim

/-- The environment is never at a loss for an answer. -/
theorem answers_total (refl : ∀ w, rely w w) (op : Op) (w : World) :
    ∃ r w', env.answers (.plain rely total) op w r w' := by
  by_cases runs : foreign op w
  · obtain ⟨r, w', returned⟩ := back_total runs
    exact ⟨r, w', trivial, .inr ⟨runs, w, refl w, returned⟩⟩
  · cases known : answer op w with
    | some a =>
      refine ⟨a.1, a.2, trivial, .inl ⟨runs, ?_⟩⟩
      change direct op w a.1 a.2
      rw [direct, known]
      exact ⟨rfl, rfl⟩
    | none =>
      obtain ⟨r, w', chosen⟩ := choice_total runs known
      refine ⟨r, w', trivial, .inl ⟨runs, ?_⟩⟩
      change direct op w r w'
      rw [direct, known]
      exact chosen

/-- No program comes to a point where it waits for an answer in vain. -/
theorem wp_total {α : Type} (refl : ∀ w, rely w w) (p : Action α) (w : World) :
    wp env (.plain rely True) p (fun _ _ => True) w := by
  induction p generalizing w with
  | done a => trivial
  | fail e => trivial
  | ask op k ih => exact ⟨trivial, fun _ => answers_total refl op w, fun r w' _ => ih r w'⟩

end

end FlutterQuickjs.Binding
