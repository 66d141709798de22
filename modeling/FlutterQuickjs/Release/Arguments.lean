import FlutterQuickjs.Release.Describe

namespace FlutterQuickjs.Release

open Engine Binding ValueConverter JSFunction
open Effect

/-- Dart values that are sent as objects. -/
def MakesObject : DartVal → Prop
  | .list _ => True
  | .map _ => True
  | .function _ => True
  | _ => False

/-- `d` was sent as `v`, in a box with a reference of its own. -/
structure Sent (R : (JSValue → Int) → World → World → Prop) (w : World) (d : DartVal) (p : Ptr)
    (w' : World) : Prop where
  box : ∃ n v, p = .box n ∧ w'.boxes[n]? = some v ∧ R (Pi.single v 1) w w' ∧
    ((∃ o, v = .object o) ↔ MakesObject d)

variable [PackageFfi] {R : (JSValue → Int) → World → World → Prop} {S : Setting Op Reply World}
  {w₀ w w' : World} {g : Seen} {ctx : Ctx} {obj val : Ptr}

/-- A conversion that ends with a pointer and is not noticed. -/
def Sends (S : Setting Op Reply World) (R : (JSValue → Int) → World → World → Prop) (d : DartVal)
    (p : Action Ptr) : Prop :=
  ∀ w g, wp seen (S.watch Seen) p
    (fun out s => s.2 = g ∧ ∀ p, out = .ok p → Sent R w d p s.1) (w,g)

/-- An action that leaves the account as it is and is not noticed. -/
def Stills (S : Setting Op Reply World) (R : (JSValue → Int) → World → World → Prop)
    (p : Action Unit) : Prop :=
  ∀ w g, wp seen (S.watch Seen) p (fun out s => s.2 = g ∧ (out = .ok () → R 0 w s.1)) (w,g)

theorem seen_still (terms : Terms S R) (ledger : Ledger R) {op : Op} (stays : ¬Moving op)
    (unnoticed : ∀ r, g.see ⟨op,r⟩ = g) {Q : Except DartError (Reply op) → World × Seen → Prop}
    (rest : ∀ r w', R 0 w w' → Q (.ok r) (w',g)) :
    wp seen (S.watch Seen) (perform op) Q (w,g) := by
  apply seen_perform terms
  intro r w' answered
  rw [unnoticed]
  exact rest r w' (terms.still ledger op stays answered)

/-- A box for a value with a reference of its own. -/
theorem seen_boxed (terms : Terms S R) (ledger : Ledger R) {v : JSValue} {d : DartVal}
    (before : R (Pi.single v 1) w₀ w) (kind : (∃ o, v = .object o) ↔ MakesObject d) :
    wp (α := Ptr) seen (S.watch Seen) (perform (.new v))
      (fun out s => s.2 = g ∧ ∀ p, out = .ok p → Sent R w₀ d p s.1) (w,g) := by
  apply seen_new terms
  refine ⟨rfl, fun p same => ?_⟩
  cases same
  have boxed : R 0 w { w with boxes := w.boxes ++ [v] } := ledger.same (.append _ _) rfl rfl rfl
  exact ⟨⟨_, v, rfl, by simp, ledger.still before boxed, kind⟩⟩

/-- A box for a value without references. -/
theorem seen_bare (terms : Terms S R) (ledger : Ledger R) {v : JSValue} {d : DartVal}
    (bare : ¬Counted v) (kind : ¬MakesObject d) :
    wp (α := Ptr) seen (S.watch Seen) (perform (.new v))
      (fun out s => s.2 = g ∧ ∀ p, out = .ok p → Sent R w d p s.1) (w,g) := by
  apply seen_boxed terms ledger
  · simpa using ledger.uncounted bare (ledger.refl w) 1
  · constructor
    · rintro ⟨o, rfl⟩
      exact absurd trivial bare
    · intro makes
      exact absurd makes kind

theorem seen_jsDefinePropertyValueUint32 (terms : Terms S R) (ledger : Ledger R) {i flags : Nat}
    {Q : Except DartError Int32 → World × Seen → Prop}
    (rest : ∀ r w', R (-Pi.single (w.value val) 1) w w' → Q (.ok r) (w',g)) :
    wp seen (S.watch Seen) (jsDefinePropertyValueUint32 ctx obj i val flags) Q (w,g) := by
  rw [jsDefinePropertyValueUint32, wp_bind]
  apply seen_load terms
  rw [andThen_ok, wp_bind]
  apply seen_load terms
  rw [andThen_ok]
  apply seen_perform terms
  intro r w' answered
  exact rest r w' (terms.defineIndex ledger answered)

theorem seen_newAtom (terms : Terms S R) {name : CString}
    {Q : Except DartError PropKey → World × Seen → Prop} (rest : ∀ k, Q (.ok k) (w,g)) :
    wp seen (S.watch Seen) (newAtom name) Q (w,g) := by
  rw [newAtom]
  split
  · exact rest _
  · apply seen_perform terms
    intro k w' answered
    obtain ⟨-, ⟨-, own⟩ | ⟨runs, -⟩⟩ := answered
    · rw [(direct_findAtom own).2]
      exact rest k
    · exact runs.elim

theorem seen_jsSetPropertyStr (terms : Terms S R) (ledger : Ledger R) {name : CString}
    {Q : Except DartError Int32 → World × Seen → Prop}
    (rest : ∀ r w', R (-Pi.single (w.value val) 1) w w' → Q (.ok r) (w',g)) :
    wp seen (S.watch Seen) (jsSetPropertyStr ctx obj name val) Q (w,g) := by
  rw [jsSetPropertyStr, wp_bind]
  apply seen_load terms
  rw [andThen_ok, wp_bind]
  apply seen_load terms
  rw [andThen_ok, wp_bind]
  apply seen_newAtom terms
  intro k
  rw [andThen_ok]
  apply seen_perform terms
  intro r w' answered
  exact rest r w' (terms.setProperty ledger answered)

/-- The round of a loop: what the conversion made is consumed. -/
theorem seen_consume (ledger : Ledger R) {d : DartVal} {convert : Action Ptr}
    {take : Ptr → Action Int32} {rest : Action Unit} (sends : Sends S R d convert)
    (takes : ∀ p w g (Q : Except DartError Int32 → World × Seen → Prop),
      (∀ r w', R (-Pi.single (w.value p) 1) w w' → Q (.ok r) (w',g)) →
      wp seen (S.watch Seen) (take p) Q (w,g)) (stills : Stills S R rest) :
    Stills S R (do
      let element ← convert
      let _ ← take element
      rest) := by
  intro w g
  rw [wp_bind]
  refine wp_mono (sends w g) fun out s after => ?_
  obtain ⟨w₁, g₁⟩ := s
  obtain ⟨rfl, sent⟩ := after
  cases out with
  | error e => exact ⟨rfl, by simp⟩
  | ok p =>
    obtain ⟨n, v, rfl, holds, gained, -⟩ := (sent p rfl).box
    rw [andThen_ok, wp_bind]
    apply takes
    intro r w₂ taken
    rw [value_box holds] at taken
    rw [andThen_ok]
    refine wp_mono (stills w₂ g₁) fun out s after => ⟨after.1, fun same => ?_⟩
    have both : R 0 w w₂ := by simpa using ledger.trans gained taken
    exact ledger.still both (after.2 same)

theorem elementLoop_stills (terms : Terms S R) (ledger : Ledger R) {convert : DartVal → Action Ptr}
    {l : Nat} (sends : ∀ d, Sends S R d (convert d)) (rounds : Nat) :
    ∀ i, Stills S R (elementLoop convert ctx obj l rounds i) := by
  induction rounds with
  | zero =>
    intro i w g
    exact ⟨rfl, by simp⟩
  | succ rounds ih =>
    intro i w g
    rw [elementLoop, wp_bind]
    apply seen_still terms ledger id (fun _ => rfl)
    intro length w₁ after₁
    rw [andThen_ok, wp_ite]
    constructor
    · intro more
      rw [wp_bind]
      apply seen_still terms ledger id (fun _ => rfl)
      intro found w₂ after₂
      rw [andThen_ok]
      cases found with
      | none => exact ⟨rfl, by simp⟩
      | some d =>
        refine wp_mono (seen_consume ledger (sends d) (fun p w g Q rest =>
          seen_jsDefinePropertyValueUint32 terms ledger rest) (ih (i+1)) w₂ g)
          fun out s after => ⟨after.1, fun same => ?_⟩
        exact ledger.still (ledger.still after₁ after₂) (after.2 same)
    · intro finished
      exact ⟨rfl, fun _ => after₁⟩

theorem entryLoop_stills (terms : Terms S R) (ledger : Ledger R) {convert : DartVal → Action Ptr}
    {m : Nat} {keys : List MapKey} (sends : ∀ d, Sends S R d (convert d)) (rounds : Nat) :
    Stills S R (entryLoop convert ctx obj m keys rounds) := by
  induction rounds with
  | zero =>
    intro w g
    rw [entryLoop, wp_bind]
    apply seen_still terms ledger id (fun _ => rfl)
    intro entries w₁ after₁
    rw [andThen_ok, wp_ite]
    constructor
    · intro changed
      exact ⟨rfl, by simp⟩
    · intro same
      exact ⟨rfl, fun _ => after₁⟩
  | succ rounds ih =>
    intro w g
    rw [entryLoop, wp_bind]
    apply seen_still terms ledger id (fun _ => rfl)
    intro entries w₁ after₁
    rw [andThen_ok, wp_ite]
    constructor
    · intro changed
      exact ⟨rfl, by simp⟩
    · intro same
      cases entries[keys.length - (rounds + 1)]? with
      | none => exact ⟨rfl, fun _ => after₁⟩
      | some entry =>
        obtain ⟨key, d⟩ := entry
        refine wp_mono (seen_consume ledger (sends d) (fun p w g Q rest =>
          seen_jsSetPropertyStr terms ledger rest) ih w₁ g)
          fun out s after => ⟨after.1, fun same => ?_⟩
        exact ledger.still after₁ (after.2 same)

/-- A container of the engine, filled by a loop that leaves the account as it is. -/
theorem seen_filled (ledger : Ledger R) {d : DartVal} {n : Nat} {o : ObjRef}
    {fill : Action Unit} (stills : Stills S R fill) (holds : w.boxes[n]? = some (.object o))
    (gained : R (Pi.single (.object o) 1) w₀ w) (makes : MakesObject d) :
    wp seen (S.watch Seen) (do
      fill
      return Ptr.box n) (fun out s => s.2 = g ∧ ∀ p, out = .ok p → Sent R w₀ d p s.1) (w,g) := by
  rw [wp_bind]
  refine wp_mono (stills w g) fun out s after => ?_
  obtain ⟨w₁, g₁⟩ := s
  obtain ⟨rfl, still⟩ := after
  cases out with
  | error e => exact ⟨rfl, by simp⟩
  | ok u =>
    rw [andThen_ok, wp_pure]
    refine ⟨rfl, fun p same => ?_⟩
    cases same
    have after := still rfl
    exact ⟨⟨n, _, rfl, (ledger.boxes after).getElem? holds, ledger.still gained after,
      fun _ => makes, fun _ => ⟨o, rfl⟩⟩⟩

/-- Values that cannot be sent arrive as undefined. -/
theorem seen_unsent (terms : Terms S R) (ledger : Ledger R) {d : DartVal} (kind : ¬MakesObject d) :
    wp seen (S.watch Seen) (do
      perform .warn
      jsUndefined) (fun out s => s.2 = g ∧ ∀ p, out = .ok p → Sent R w d p s.1) (w,g) := by
  rw [wp_bind]
  apply seen_answer terms .warn rfl rfl
  rw [andThen_ok]
  exact seen_bare terms ledger id kind

/-- The constructor of `HostFunctionProxy`. -/
theorem seen_proxy (terms : Terms S R) (ledger : Ledger R) {f : DartFunction} (w : World)
    (g : Seen) : wp seen (S.watch Seen) (HostFunctionProxy.new ctx f)
      (fun out s => s.2 = g ∧ ∃ id, out = .ok id ∧ R 0 w s.1) (w,g) := by
  have listed : ∀ w₁, R 0 w w₁ → wp seen (S.watch Seen) (do
      let funcList ← perform (.hostFunctions ctx)
      let funcList := funcList.getD [] ++ [HostFunction.new (.function f)]
      perform (.setHostFunctions ctx (some funcList))
      return funcList.length - 1) (fun out s => s.2 = g ∧ ∃ id, out = .ok id ∧ R 0 w s.1) (w₁,g) := by
    intro w₁ before
    rw [wp_bind]
    apply seen_still terms ledger id (fun _ => rfl)
    intro funcs w₂ after₂
    rw [andThen_ok, wp_bind]
    apply seen_still terms ledger id (fun _ => rfl)
    intro u w₃ after₃
    rw [andThen_ok, wp_pure]
    exact ⟨rfl, _, rfl, ledger.still (ledger.still before after₂) after₃⟩
  rw [HostFunctionProxy.new, wp_bind]
  apply seen_still terms ledger id (fun _ => rfl)
  intro ready w₁ after₁
  rw [andThen_ok, wp_ite]
  constructor
  · intro fresh
    rw [wp_bind, registerGlobalDartCallback]
    apply seen_still terms ledger id (fun _ => rfl)
    intro u w₂ after₂
    rw [andThen_ok, wp_bind]
    apply seen_still terms ledger id (fun _ => rfl)
    intro u w₃ after₃
    rw [andThen_ok]
    exact listed w₃ (ledger.still (ledger.still after₁ after₂) after₃)
  · intro done
    exact listed w₁ after₁

theorem toQuickJSValue_sends (terms : Terms S R) (ledger : Ledger R) (n : Nat) :
    ∀ d, Sends S R d (toQuickJSValue n ctx d) := by
  induction n with
  | zero =>
    intro d w g
    exact ⟨rfl, by simp⟩
  | succ n ih =>
    intro d w g
    cases d with
    | null => exact seen_bare terms ledger id id
    | bool b => exact seen_bare terms ledger id id
    | int i =>
      exact seen_bare terms ledger (not_counted_newInt64 i) id
    | double x =>
      exact seen_bare terms ledger (not_counted_newFloat64 x) id
    | string s =>
      rw [toQuickJSValue, jsNewString, wp_bind]
      apply seen_perform terms
      intro v w₁ answered
      obtain ⟨rfl, rfl⟩ := answers_known rfl answered
      rw [andThen_ok]
      apply seen_boxed terms ledger (ledger.credit w _)
      simp [MakesObject]
    | map m =>
      rw [toQuickJSValue, wp_bind, jsNewObject, wp_bind]
      apply seen_perform terms
      intro v w₁ answered
      obtain ⟨o, rfl, gained⟩ := Terms.newObject ledger answered
      rw [andThen_ok]
      apply seen_new terms
      rw [andThen_ok, wp_bind]
      apply seen_still terms ledger id (fun _ => rfl)
      intro entries w₂ after₂
      rw [andThen_ok]
      have boxed : R 0 w₁ { w₁ with boxes := w₁.boxes ++ [.object o] } :=
        ledger.same (.append _ _) rfl rfl rfl
      refine seen_filled ledger (entryLoop_stills terms ledger ih _) ?_
        (ledger.still (ledger.still gained boxed) after₂) trivial
      exact (ledger.boxes after₂).getElem? (by simp)
    | list l =>
      rw [toQuickJSValue, wp_bind, jsNewArray, wp_bind]
      apply seen_perform terms
      intro v w₁ answered
      obtain ⟨o, rfl, gained⟩ := Terms.newArray ledger answered
      rw [andThen_ok]
      apply seen_new terms
      rw [andThen_ok]
      have boxed : R 0 w₁ { w₁ with boxes := w₁.boxes ++ [.object o] } :=
        ledger.same (.append _ _) rfl rfl rfl
      exact seen_filled ledger (elementLoop_stills terms ledger ih n 0) (by simp)
        (ledger.still gained boxed) trivial
    | function f =>
      rw [toQuickJSValue, wp_bind]
      refine wp_mono (seen_proxy terms ledger w g) fun out s after => ?_
      obtain ⟨w₁, g₁⟩ := s
      obtain ⟨rfl, callbackId, rfl, after₁⟩ := after
      rw [andThen_ok, wp_bind, createFunctionFromDart, wp_bind]
      apply seen_perform terms
      intro v w₂ answered
      obtain ⟨o, rfl, gained⟩ := Terms.newCFunctionData ledger answered
      rw [andThen_ok]
      apply seen_new terms
      rw [andThen_ok, wp_bind]
      apply seen_still terms ledger id (fun _ => rfl)
      intro u w₃ after₃
      rw [andThen_ok, wp_pure]
      refine ⟨rfl, fun p same => ?_⟩
      cases same
      have boxed : R 0 w₂ { w₂ with boxes := w₂.boxes ++ [.object o] } :=
        ledger.same (.append _ _) rfl rfl rfl
      refine ⟨⟨_, _, rfl, (ledger.boxes after₃).getElem? (by simp), ?_, fun _ => trivial, fun _ => ⟨o, rfl⟩⟩⟩
      simpa using ledger.trans after₁ (ledger.still (ledger.still gained boxed) after₃)
    | hostFunction f => exact seen_unsent terms ledger id
    | exception text => exact seen_unsent terms ledger id
    | other o => exact seen_unsent terms ledger id

end FlutterQuickjs.Release
