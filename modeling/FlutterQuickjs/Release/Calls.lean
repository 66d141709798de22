import FlutterQuickjs.Release.Arguments

namespace FlutterQuickjs.Release

open Engine Binding ValueConverter JSFunction
open Effect

/-- One reference on every value of the list. -/
def counts (vs : List JSValue) (v : JSValue) : Int := vs.count v

theorem counts_cons (v : JSValue) (vs : List JSValue) :
    counts (v :: vs) = Pi.single v 1 + counts vs := by
  funext u
  by_cases same : u = v
  · simp [counts, same, Int.add_comm]
  · have other : v ≠ u := fun same' => same same'.symm
    simp [counts, same, other]

theorem counts_nonneg (vs : List JSValue) : 0 ≤ counts vs := by
  intro v
  simp [counts]

variable [PackageFfi] {R : (JSValue → Int) → World → World → Prop} {S : Setting Op Reply World}
  {w w' : World} {g : Seen} {ctx : Ctx} {fuel : Nat} {jsfunc : Ptr}

/-- The values that stand for a list of arguments: objects for those that are sent as objects. -/
abbrev StandFor (vs : List JSValue) (arguments : List DartVal) : Prop :=
  List.Forall₂ (fun v d => (∃ o, v = .object o) ↔ MakesObject d) vs arguments

theorem seen_setValueAtIndex (terms : Terms S R) (ledger : Ledger R) {argv i n : Nat} {v : JSValue}
    {Q : Except DartError Unit → World × Seen → Prop} (holds : w.boxes[n]? = some v)
    (rest : ∀ w', R 0 w w' → Q (.ok ()) (w', { g with passed := g.passed ++ [v] })) :
    wp seen (S.watch Seen) (setValueAtIndex argv i (.box n)) Q (w,g) := by
  rw [setValueAtIndex, wp_bind]
  apply seen_load terms
  rw [value_box holds, andThen_ok]
  apply seen_perform terms
  intro r w' answered
  exact rest w' (terms.still ledger (.store argv i v) id answered)

/-- The arguments are converted and stored, and nothing is given back. -/
theorem argumentLoop_passes (terms : Terms S R) (ledger : Ledger R) {convert : DartVal → Action Ptr}
    (sends : ∀ d, Sends S R d (convert d)) {argv : Nat} (arguments : List DartVal) :
    ∀ i w g, wp seen (S.watch Seen) (argumentLoop convert argv i arguments) (fun out s =>
      ∃ vs, s.2 = { g with passed := g.passed ++ vs } ∧
        (out = .ok () → StandFor vs arguments ∧ R (counts vs) w s.1)) (w,g) := by
  induction arguments with
  | nil =>
    intro i w g
    exact ⟨[], by simp, fun _ => ⟨.nil, ledger.refl w⟩⟩
  | cons d rest ih =>
    intro i w g
    rw [argumentLoop, wp_bind]
    refine wp_mono (sends d w g) fun out s after => ?_
    obtain ⟨w₁, g₁⟩ := s
    obtain ⟨rfl, sent⟩ := after
    cases out with
    | error e => exact ⟨[], by simp, by simp⟩
    | ok p =>
      obtain ⟨n, v, rfl, holds, gained, kind⟩ := (sent p rfl).box
      rw [andThen_ok, wp_bind]
      apply seen_setValueAtIndex terms ledger holds
      intro w₂ after₂
      rw [andThen_ok]
      refine wp_mono (ih (i+1) w₂ _) fun out s after => ?_
      obtain ⟨vs, saw, finished⟩ := after
      refine ⟨v :: vs, by simp [saw], fun same => ?_⟩
      obtain ⟨stand, moved⟩ := finished same
      rw [counts_cons]
      exact ⟨.cons kind stand, ledger.trans (ledger.still gained after₂) moved⟩

theorem seen_jsGetGlobalObject (terms : Terms S R) (ledger : Ledger R)
    {Q : Except DartError Ptr → World × Seen → Prop}
    (rest : ∀ v n w', R (Pi.single v 1) w w' → w'.boxes[n]? = some v → Q (.ok (.box n)) (w',g)) :
    wp seen (S.watch Seen) (jsGetGlobalObject ctx) Q (w,g) := by
  rw [jsGetGlobalObject, wp_bind]
  apply seen_answer terms (.getGlobalObject ctx) rfl rfl
  rw [andThen_ok]
  apply seen_new terms
  apply rest (.object (w.realm ctx).global)
  · exact ledger.still (ledger.credit w _) (ledger.same (.append _ _) rfl rfl rfl)
  · simp [World.credit]

/-- What the engine returns comes with a reference, if it is a value that has any. -/
theorem seen_jsCall (terms : Terms S R) (ledger : Ledger R) {this : Ptr} {argc argv : Nat}
    {Q : Except DartError Ptr → World × Seen → Prop}
    (rest : ∀ r n w', R (Pi.single r 1) w w' → w'.boxes[n]? = some r →
      Q (.ok (.box n)) (w', { g with reply := g.reply <|> some r })) :
    wp seen (S.watch Seen) (jsCall ctx jsfunc this argc argv) Q (w,g) := by
  rw [jsCall, wp_bind]
  apply seen_load terms
  rw [andThen_ok, wp_bind]
  apply seen_load terms
  rw [andThen_ok, wp_bind]
  apply seen_perform terms
  intro r w₁ answered
  have gained : R (Pi.single r 1) w w₁ := by
    obtain ⟨rfl, after⟩ | ⟨-, after⟩ := terms.call ledger answered
    · simpa using ledger.uncounted (v := .exception) id after 1
    · exact after
  rw [andThen_ok]
  apply seen_new terms
  apply rest r
  · exact ledger.still gained (ledger.same (.append _ _) rfl rfl rfl)
  · simp

/-- A call up to the point where its result is wrapped: the arguments' references stay. -/
theorem seen_callFunction (terms : Terms S R) (ledger : Ledger R) {arguments : List DartVal}
    {Q : Except DartError JSRef → World × Seen → Prop}
    (fails : ∀ e w' vs, Q (.error e) (w', ⟨none,none,vs,[],False⟩))
    (rest : ∀ vs r n w', StandFor vs arguments → R (counts vs + Pi.single r 1) w w' →
      w'.boxes[n]? = some r → wp seen (S.watch Seen) (toDartJSValue ctx (.box n) false) Q
        (w', ⟨some r,none,vs,[],False⟩)) :
    wp seen (S.watch Seen) (callFunction fuel ctx jsfunc arguments) Q (w,.start) := by
  rw [callFunction, wp_bind]
  apply seen_still terms ledger id (fun _ => rfl)
  intro argv w₁ after₁
  rw [andThen_ok, wp_bind]
  refine wp_mono (argumentLoop_passes terms ledger (toQuickJSValue_sends terms ledger fuel)
    arguments 0 w₁ .start) fun out s after => ?_
  obtain ⟨w₂, g₂⟩ := s
  obtain ⟨vs, rfl, finished⟩ := after
  cases out with
  | error e => exact fails e w₂ vs
  | ok u =>
    obtain ⟨stand, moved⟩ := finished rfl
    rw [andThen_ok, wp_bind]
    apply seen_jsGetGlobalObject terms ledger
    intro v n w₃ gained₃ holds₃
    rw [andThen_ok, wp_bind]
    apply seen_jsCall terms ledger
    intro r m w₄ gained₄ holds₄
    have holds : w₄.boxes[n]? = some v := (ledger.boxes gained₄).getElem? holds₃
    rw [andThen_ok, wp_bind]
    apply seen_jsFreeValue terms ledger
    intro w₅ freed _
    rw [value_box holds] at freed
    rw [andThen_ok, wp_bind]
    apply seen_still terms ledger id (fun _ => rfl)
    intro u w₆ after₆
    rw [andThen_ok]
    refine rest vs r m w₆ stand ?_ ?_
    · have all := ledger.trans (ledger.trans after₁ moved) (ledger.trans (ledger.trans gained₃ gained₄)
        (ledger.still freed after₆))
      refine ledger.congr (fun u _ => ?_) all
      simp only [Pi.add_apply, Pi.zero_apply, Pi.neg_apply]
      omega
    · exact (ledger.boxes after₆).getElem? ((ledger.boxes freed).getElem? holds₄)

end FlutterQuickjs.Release
