import FlutterQuickjs.Binding.Effects

namespace FlutterQuickjs.Binding

open Engine
open Effect

section

variable {op : Op} {ctx : Ctx} {v x : JSValue} {k : PropKey} {w w' : World}

theorem direct_known {r r₀ : Reply op} {w₀ : World} (h : direct op w r w')
    (known : answer op w = some (r₀,w₀)) : r = r₀ ∧ w' = w₀ := by
  rw [direct, known] at h
  exact h

theorem direct_choice {r : Reply op} (h : direct op w r w') (unknown : answer op w = none) :
    choice op w r w' := by
  rw [direct, unknown] at h
  exact h

theorem direct_isArray {r : Int32} (h : direct (.isArray ctx v) w r w') :
    (r ≠ -1 ∧ w' = w) ∨ r = -1 ∧ ∃ e, w' = w.throwing ctx e := by
  cases known : answer (.isArray ctx v) w with
  | none =>
    obtain ⟨rfl | rfl, same⟩ | thrown := direct_choice h known
    · have different : (0 : Int32) ≠ -1 := by decide
      exact .inl ⟨different, same⟩
    · have different : (1 : Int32) ≠ -1 := by decide
      exact .inl ⟨different, same⟩
    · exact .inr thrown
  | some a =>
    have same := direct_known h known
    left
    cases v with
    | object o =>
      cases kind : o.kind <;> simp [answer, kind] at known <;> simp [same, ← known]
    | _ => simp [answer] at known; simp [same, ← known]

/-- An operation whose answers leave the world alone. -/
theorem direct_same {r : Reply op} (h : direct op w r w') (unopen : ∀ r w', ¬choice op w r w')
    (same : ∀ a, answer op w = some a → a.2 = w) : w' = w := by
  cases known : answer op w with
  | none => exact absurd (direct_choice h known) (unopen r w')
  | some a => exact (direct_known h known).2.trans (same a known)

theorem direct_toInt32 {r : Int32} (h : direct (.toInt32 ctx v) w r w') : w' = w := by
  apply direct_same h (fun _ _ => id)
  intro a known
  simp only [answer] at known
  split at known <;> grind

theorem direct_toInt64 {r : Int64} (h : direct (.toInt64 ctx v) w r w') : w' = w := by
  apply direct_same h (fun _ _ => id)
  intro a known
  simp only [answer] at known
  split at known <;> grind

theorem direct_toFloat64 {r : Double} (h : direct (.toFloat64 ctx v) w r w') : w' = w := by
  apply direct_same h (fun _ _ => id)
  intro a known
  simp only [answer] at known
  split at known <;> grind

theorem direct_toCString {r : Option CString} (h : direct (.toCString ctx v) w r w') :
    (∃ s, r = some (cString s) ∧ (v = .string s ∨ Clean s) ∧ w' = w.lendCString s) ∨
      r = none ∧ (v = .exception ∧ w' = w ∨
        (∃ s, v = .symbol s) ∧ ∃ e, w' = w.throwing ctx e) := by
  cases v with
  | string s => exact .inl ⟨s, h.1, .inl rfl, h.2⟩
  | exception => exact .inr ⟨h.1, .inl ⟨rfl, h.2⟩⟩
  | symbol s => exact .inr ⟨h.1, .inr ⟨⟨s, rfl⟩, h.2⟩⟩
  | _ =>
    obtain ⟨s, clean, rfl, same⟩ := h
    exact .inl ⟨s, rfl, .inr clean, same⟩

theorem direct_getProperty {r : JSValue} (h : direct (.getProperty ctx v k) w r w') :
    w.reads v k = .value r ∧ w' = w.credit r := by
  cases read : w.reads v k with
  | value x =>
    simp only [direct, answer, read] at h
    obtain ⟨rfl, rfl⟩ := h
    exact ⟨rfl, rfl⟩
  | code =>
    simp only [direct, answer, read] at h
    exact h.elim

theorem direct_getOwnPropertyNames {r : Option (List PropKey)}
    (h : direct (.getOwnPropertyNames ctx v) w r w') :
    ∃ keys, w.ownKeys v = some keys ∧ r = some keys ∧ w' = w.holdAtoms keys := by
  cases own : w.ownKeys v with
  | some keys =>
    simp only [direct, answer, own] at h
    exact ⟨keys, rfl, h⟩
  | none =>
    simp only [direct, answer, own] at h
    exact h.elim

theorem direct_setProperty {r : Int32} (h : direct (.setProperty ctx v k x) w r w') :
    (∃ heap, w.writes v k x = .stored heap ∧ w' = { w.debit x with heap := heap }) ∨
      r = -1 ∧ ∃ e, w' = (w.debit x).throwing ctx e := by
  cases written : w.writes v k x with
  | stored heap =>
    simp only [direct, answer, written] at h
    exact .inl ⟨heap, rfl, h.2⟩
  | refused =>
    simp only [direct, answer, written] at h
    exact .inr h
  | code =>
    simp only [direct, answer, written] at h
    exact .inr h

theorem direct_findAtom {name : CString} {r : PropKey} (h : direct (.findAtom name) w r w') :
    (r = .string (fromUtf8 name) ∨ r = .string (latin1 name)) ∧ w' = w := h

theorem direct_print {e : DartError} {r : Except DartError Unit}
    (h : direct (.print e) w r w') : w' = w := by
  cases e <;> first | exact h.2 | exact h.elim

theorem direct_defineIndex {i : UInt32} {flags : Nat} {r : Int32}
    (h : direct (.defineIndex ctx v i x flags) w r w') :
    (∃ heap, w' = { w.debit x with heap := heap }) ∨
      r = -1 ∧ ∃ e, w' = (w.debit x).throwing ctx e := by
  cases known : answer (.defineIndex ctx v i x flags) w with
  | none => exact .inr (direct_choice h known)
  | some a =>
    have same := (direct_known h known).2
    left
    cases v with
    | object o =>
      by_cases defined : o.kind = .array ∧ flags = JSProp.C_W_E
      · simp only [answer, defined, and_self, if_true, Option.some.injEq] at known
        exact ⟨_, by rw [same, ← known]⟩
      · simp [answer, defined] at known
    | _ => simp [answer] at known

theorem direct_origin {p : Ptr} {f : DartFunction} {r : Unit} (h : direct (.origin p f) w r w') :
    w' = w ∨ ∃ o, w.value p = .object o ∧ w' = { w with origins := w.origins ++ [(o,f)] } := by
  cases holds : w.value p with
  | object o =>
    simp only [direct, answer, holds] at h
    exact .inr ⟨o, rfl, h.2⟩
  | _ =>
    simp only [direct, answer, holds] at h
    exact .inl h.2

end

end FlutterQuickjs.Binding
