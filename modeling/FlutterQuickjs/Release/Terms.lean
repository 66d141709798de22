import FlutterQuickjs.Binding.Convert
import FlutterQuickjs.Binding.Frame
import FlutterQuickjs.Release.Ledger

namespace FlutterQuickjs.Release

open Engine Binding ValueConverter
open Effect

/-- Terms under which runs that end are looked at and foreign code leaves the account as it is. -/
structure Terms (S : Setting Op Reply World) (R : (JSValue → Int) → World → World → Prop) :
    Prop where
  free : ∀ op w, S.guard op w
  partially : ¬S.total
  rely : ∀ w w', S.rely w w' → R 0 w w'

section

variable {R : (JSValue → Int) → World → World → Prop} {S : Setting Op Reply World} {op : Op}
  {w w' w'' : World} {ctx : Ctx} {v x : JSValue} {k : PropKey} {e : JSValue → Int}

theorem answers_known {a : Reply op × World} (known : answer op w = some a) {r : Reply op}
    (h : env.answers S op w r w') : r = a.1 ∧ w' = a.2 := by
  obtain ⟨-, ⟨-, own⟩ | ⟨runs, -⟩⟩ := h
  · exact direct_known own known
  · exact absurd runs (own_of_answer known)

theorem run_answered (op : Op) {α : Type} {f : Reply op → Action α} {a : α} {r : Reply op} {w₀ : World}
    {h : List (Event Op Reply)} (known : answer op w = some (r,w₀))
    (run : Exec (env.answers S) (perform op >>= f) w h (.ok a) w') :
    ∃ h', Exec (env.answers S) (f r) w₀ h' (.ok a) w' ∧ h = ⟨op,r⟩ :: h' := by
  obtain ⟨r', w₁, h₁, h₂, asked, rest, rfl⟩ := Exec.bind_ok run
  obtain ⟨answered, rfl⟩ := Exec.call_iff.mp asked
  obtain ⟨rfl, rfl⟩ := answers_known known answered
  exact ⟨h₂, rest, rfl⟩

namespace Ledger

/-- Nothing that the account looks at changes. -/
theorem same (ledger : Ledger R) (boxes : Keeps w.boxes w'.boxes) (held : w'.held = w.held)
    (atoms : w'.atoms = w.atoms) (cache : w'.jsFunctionCache = w.jsFunctionCache) : R 0 w w' :=
  ledger.shift boxes (fun v _ => by simp [held]) atoms cache

theorem of_eq (ledger : Ledger R) (boxes : w'.boxes = w.boxes) (held : w'.held = w.held)
    (atoms : w'.atoms = w.atoms) (cache : w'.jsFunctionCache = w.jsFunctionCache) : R 0 w w' :=
  ledger.same (boxes ▸ .refl _) held atoms cache

theorem credit (ledger : Ledger R) (w : World) (v : JSValue) : R (Pi.single v 1) w (w.credit v) :=
  ledger.shift (.refl _) (fun u _ => by
    by_cases same : u = v
    · simp [World.credit, same]
    · simp [World.credit, same]) rfl rfl

theorem debit (ledger : Ledger R) (w : World) (v : JSValue) :
    R (-Pi.single v 1) w (w.debit v) :=
  ledger.shift (.refl _) (fun u _ => by
    by_cases same : u = v
    · simp [World.debit, same, Int.sub_eq_add_neg]
    · simp [World.debit, same]) rfl rfl

/-- What is said of values without references says nothing. -/
theorem congr (ledger : Ledger R) {e e' : JSValue → Int} (same : ∀ v, Counted v → e v = e' v)
    (moved : R e w w') : R e' w w' := by
  have rest : R (e' - e) w' w' :=
    ledger.shift (.refl _) (fun v counted => by simp [same v counted]) rfl rfl
  simpa using ledger.trans moved rest

theorem uncounted (ledger : Ledger R) {e : JSValue → Int} {v : JSValue} (bare : ¬Counted v)
    (moved : R e w w') (n : Int) : R (e + Pi.single v n) w w' := by
  refine ledger.congr (fun u counted => ?_) moved
  have other : u ≠ v := fun same => bare (same ▸ counted)
  simp [other]

theorem ignore (ledger : Ledger R) {e : JSValue → Int} {v : JSValue} {n : Int} (bare : ¬Counted v)
    (moved : R (e + Pi.single v n) w w') : R e w w' := by
  refine ledger.congr (fun u counted => ?_) moved
  have other : u ≠ v := fun same => bare (same ▸ counted)
  simp [other]

end Ledger

theorem still_of_frame (ledger : Ledger R) (stays : ¬Moving op) (frame : Frame op w w') :
    R 0 w w' :=
  ledger.same frame.boxes (frame.held stays) (frame.atoms stays) (frame.registered stays)

namespace Terms

theorem perform (terms : Terms S R) {Q : Except DartError (Reply op) → World → Prop}
    (each : ∀ r w', env.answers S op w r w' → Q (.ok r) w') :
    wp env S (Binding.perform op) Q w :=
  ⟨terms.free op w, fun total => absurd total terms.partially, each⟩

theorem load (terms : Terms S R) {p : Ptr} {Q : Except DartError JSValue → World → Prop}
    (rest : Q (.ok (w.value p)) w) : wp (α := JSValue) env S (Binding.perform (.load p)) Q w := by
  apply terms.perform
  intro r w' answered
  obtain ⟨rfl, rfl⟩ := answers_known rfl answered
  exact rest

theorem still (terms : Terms S R) (ledger : Ledger R) (op : Op) (stays : ¬Moving op)
    {r : Reply op} (answered : env.answers S op w r w') : R 0 w w' := by
  obtain ⟨-, ⟨-, own⟩ | ⟨-, w₁, between, returned⟩⟩ := answered
  · exact still_of_frame ledger stays (frame_direct own)
  · exact ledger.still (terms.rely w w₁ between)
      (still_of_frame ledger stays (frame_back returned))

/-- A value or an exception comes back. -/
theorem returns (ledger : Ledger R) {r : JSValue} (returned : Returns ctx w r w') :
    r = .exception ∧ R 0 w w' ∨ r ≠ .exception ∧ R (Pi.single r 1) w w' := by
  obtain ⟨thrown, e, rfl⟩ | ⟨value, rfl⟩ := returned
  · exact .inl ⟨thrown, ledger.of_eq rfl rfl rfl rfl⟩
  · exact .inr ⟨value, ledger.credit w r⟩

theorem after_rely (terms : Terms S R) (ledger : Ledger R) (between : S.rely w w')
    (after : R e w' w'') : R e w w'' := by
  simpa using ledger.trans (terms.rely w w' between) after

theorem eval (terms : Terms S R) (ledger : Ledger R) {input filename : CString} {r : JSValue}
    (answered : env.answers S (.eval ctx input filename) w r w') :
    r = .exception ∧ R 0 w w' ∨ r ≠ .exception ∧ R (Pi.single r 1) w w' := by
  obtain ⟨-, ⟨own, -⟩ | ⟨-, w₁, between, returned⟩⟩ := answered
  · exact absurd trivial own
  · exact (returns ledger returned).imp (.imp_right (terms.after_rely ledger between))
      (.imp_right (terms.after_rely ledger between))

theorem call (terms : Terms S R) (ledger : Ledger R) {f this : JSValue} {argc argv : Nat}
    {r : JSValue} (answered : env.answers S (.call ctx f this argc argv) w r w') :
    r = .exception ∧ R 0 w w' ∨ r ≠ .exception ∧ R (Pi.single r 1) w w' := by
  obtain ⟨-, ⟨own, -⟩ | ⟨-, w₁, between, returned⟩⟩ := answered
  · exact absurd trivial own
  · exact (returns ledger returned).imp (.imp_right (terms.after_rely ledger between))
      (.imp_right (terms.after_rely ledger between))

theorem getProperty (terms : Terms S R) (ledger : Ledger R) {r : JSValue}
    (answered : env.answers S (.getProperty ctx v k) w r w') :
    r = .exception ∧ R 0 w w' ∨ R (Pi.single r 1) w w' := by
  obtain ⟨-, ⟨-, own⟩ | ⟨-, w₁, between, returned⟩⟩ := answered
  · rw [(direct_getProperty own).2]
    exact .inr (ledger.credit w r)
  · obtain ⟨thrown, after⟩ | ⟨-, after⟩ := returns ledger returned
    · exact .inl ⟨thrown, terms.after_rely ledger between after⟩
    · exact .inr (terms.after_rely ledger between after)

theorem freeValue (ledger : Ledger R) {r : Unit}
    (answered : env.answers S (.freeValue v) w r w') : R (-Pi.single v 1) w w' := by
  rw [(answers_known rfl answered).2]
  exact ledger.debit w v

/-- Setting and defining take a reference, whether they succeed or not. -/
theorem setProperty (terms : Terms S R) (ledger : Ledger R) {r : Int32}
    (answered : env.answers S (.setProperty ctx v k x) w r w') : R (-Pi.single x 1) w w' := by
  have taken : ∀ w, R (-Pi.single x 1) w (w.debit x) := fun w => ledger.debit w x
  obtain ⟨-, ⟨-, own⟩ | ⟨-, w₁, between, returned⟩⟩ := answered
  · obtain ⟨heap, -, rfl⟩ | ⟨-, e, rfl⟩ := direct_setProperty own <;>
      exact ledger.still (taken w) (ledger.of_eq rfl rfl rfl rfl)
  · obtain ⟨-, rfl⟩ | ⟨-, e, rfl⟩ := returned
    · exact terms.after_rely ledger between (taken w₁)
    · exact terms.after_rely ledger between
        (ledger.still (taken w₁) (ledger.of_eq rfl rfl rfl rfl))

theorem defineIndex (terms : Terms S R) (ledger : Ledger R) {i : UInt32} {flags : Nat} {r : Int32}
    (answered : env.answers S (.defineIndex ctx v i x flags) w r w') :
    R (-Pi.single x 1) w w' := by
  have taken : ∀ w, R (-Pi.single x 1) w (w.debit x) := fun w => ledger.debit w x
  obtain ⟨-, ⟨-, own⟩ | ⟨-, w₁, between, returned⟩⟩ := answered
  · obtain ⟨heap, rfl⟩ | ⟨-, e, rfl⟩ := direct_defineIndex own <;>
      exact ledger.still (taken w) (ledger.of_eq rfl rfl rfl rfl)
  · obtain ⟨-, rfl⟩ | ⟨-, e, rfl⟩ := returned
    · exact terms.after_rely ledger between (taken w₁)
    · exact terms.after_rely ledger between
        (ledger.still (taken w₁) (ledger.of_eq rfl rfl rfl rfl))

/-- Where the engine makes an object, the binding owes a reference on it. -/
theorem made (ledger : Ledger R) {address : Nat} {kind : ObjKind} {proto : ObjRef} {r : JSValue} :
    R (Pi.single r 1) w ((w.allocate address kind proto).credit r) :=
  ledger.shift (.refl _) (fun u _ => by
    by_cases same : u = r
    · simp [World.credit, World.allocate, same]
    · simp [World.credit, World.allocate, same]) rfl rfl

theorem newObject (ledger : Ledger R) {r : JSValue}
    (answered : env.answers S (.newObject ctx) w r w') :
    ∃ o, r = .object o ∧ R (Pi.single (.object o) 1) w w' := by
  obtain ⟨-, ⟨-, address, -, rfl, rfl⟩ | ⟨runs, -⟩⟩ := answered
  · exact ⟨_, rfl, made ledger⟩
  · exact runs.elim

theorem newArray (ledger : Ledger R) {r : JSValue}
    (answered : env.answers S (.newArray ctx) w r w') :
    ∃ o, r = .object o ∧ R (Pi.single (.object o) 1) w w' := by
  obtain ⟨-, ⟨-, address, -, rfl, rfl⟩ | ⟨runs, -⟩⟩ := answered
  · exact ⟨_, rfl, made ledger⟩
  · exact runs.elim

theorem newCFunctionData (ledger : Ledger R) {id : Int32} {r : JSValue}
    (answered : env.answers S (.newCFunctionData ctx id) w r w') :
    ∃ o, r = .object o ∧ R (Pi.single (.object o) 1) w w' := by
  obtain ⟨-, ⟨-, address, -, rfl, rfl⟩ | ⟨runs, -⟩⟩ := answered
  · exact ⟨_, rfl, ledger.still (made ledger) (ledger.of_eq rfl rfl rfl rfl)⟩
  · exact runs.elim

theorem getException (ledger : Ledger R) {r : JSValue}
    (answered : env.answers S (.getException ctx) w r w') :
    r = (w.pending ctx).getD .null ∧ R (Pi.single r 1) w w' := by
  obtain ⟨rfl, rfl⟩ := answers_known rfl answered
  exact ⟨rfl, ledger.still (ledger.credit w _) (ledger.of_eq rfl rfl rfl rfl)⟩

end Terms

end

end FlutterQuickjs.Release
