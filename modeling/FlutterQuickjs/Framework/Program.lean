import Mathlib.Logic.Basic

namespace Effect

/-- A program that talks to its environment: every effect is an operation the
environment answers, and the program goes on with the answer. -/
inductive Program (Op : Type) (Reply : Op → Type) (ε α : Type) : Type
  | done (a : α)
  | fail (e : ε)
  | ask (op : Op) (k : Reply op → Program Op Reply ε α)

namespace Program

variable {Op : Type} {Reply : Op → Type} {ε α β γ : Type}

def bind : Program Op Reply ε α → (α → Program Op Reply ε β) → Program Op Reply ε β
  | .done a, f => f a
  | .fail e, _ => .fail e
  | .ask op k, f => .ask op fun r => (k r).bind f

/-- Exception handling: the operations done before the failure stay done. -/
def handle : Program Op Reply ε α → (ε → Program Op Reply ε α) → Program Op Reply ε α
  | .done a, _ => .done a
  | .fail e, h => h e
  | .ask op k, h => .ask op fun r => (k r).handle h

instance : Monad (Program Op Reply ε) where
  pure := .done
  bind := .bind

instance : MonadExcept ε (Program Op Reply ε) where
  throw := .fail
  tryCatch := .handle

/-- The program that performs one operation and returns its reply. -/
def call (op : Op) : Program Op Reply ε (Reply op) := .ask op .done

/-- Runs a program where every answer is known. -/
def eval {W : Type} (answer : (op : Op) → W → Option (Reply op × W)) :
    Program Op Reply ε α → W → Option (Except ε α × W)
  | .done a, w => some (.ok a, w)
  | .fail e, w => some (.error e, w)
  | .ask op k, w =>
    match answer op w with
    | some (r,w') => (k r).eval answer w'
    | none => none

/-- Every operation that the program may come to is one of these. -/
def Within (may : Op → Prop) : Program Op Reply ε α → Prop
  | .done _ => True
  | .fail _ => True
  | .ask op k => may op ∧ ∀ r, (k r).Within may

theorem bind_eq (p : Program Op Reply ε α) (f : α → Program Op Reply ε β) :
    (p >>= f) = p.bind f := rfl

theorem tryCatch_eq (p : Program Op Reply ε α) (h : ε → Program Op Reply ε α) :
    tryCatch p h = p.handle h := rfl

section

variable {may : Op → Prop}

theorem Within.pure (a : α) : (Pure.pure a : Program Op Reply ε α).Within may := trivial

theorem Within.throw (e : ε) : (MonadExcept.throw e : Program Op Reply ε α).Within may := trivial

theorem Within.call {op : Op} (one : may op) :
    (.call op : Program Op Reply ε (Reply op)).Within may := ⟨one, fun _ => trivial⟩

theorem Within.bind {p : Program Op Reply ε α} {f : α → Program Op Reply ε β}
    (first : p.Within may) (rest : ∀ a, (f a).Within may) : (p >>= f).Within may := by
  rw [bind_eq]
  induction p with
  | done a => exact rest a
  | fail e => trivial
  | ask op k ih => exact ⟨first.1, fun r => ih r (first.2 r)⟩

theorem Within.mono {may' : Op → Prop} {p : Program Op Reply ε α} (within : p.Within may)
    (more : ∀ op, may op → may' op) : p.Within may' := by
  induction p with
  | done a => trivial
  | fail e => trivial
  | ask op k ih => exact ⟨more op within.1, fun r => ih r (within.2 r)⟩

theorem Within.ite {c : Prop} [Decidable c] {p q : Program Op Reply ε α} (yes : p.Within may)
    (no : q.Within may) : (if c then p else q).Within may := by
  by_cases hc : c
  · simpa [hc] using yes
  · simpa [hc] using no

end

end Program

/-- How operations are answered: the world before, the reply, the world after. -/
abbrev Answers (Op : Type) (Reply : Op → Type) (W : Type) :=
  (op : Op) → W → Reply op → W → Prop

/-- One answered operation, as it stands in a run's history. -/
abbrev Event (Op : Type) (Reply : Op → Type) := (op : Op) × Reply op

/-- A complete run of a program: its history, its outcome and the final world. -/
inductive Exec {Op : Type} {Reply : Op → Type} {ε α W : Type} (A : Answers Op Reply W) :
    Program Op Reply ε α → W → List (Event Op Reply) → Except ε α → W → Prop
  | done (a : α) (w : W) : Exec A (.done a) w [] (.ok a) w
  | fail (e : ε) (w : W) : Exec A (.fail e) w [] (.error e) w
  | ask {op : Op} {k : Reply op → Program Op Reply ε α} {w w' w'' : W} {r : Reply op}
      {h : List (Event Op Reply)} {out : Except ε α}
      (answer : A op w r w') (rest : Exec A (k r) w' h out w'') :
      Exec A (.ask op k) w (⟨op,r⟩::h) out w''

namespace Exec

variable {Op : Type} {Reply : Op → Type} {ε α β W : Type} {A : Answers Op Reply W}

theorem done_iff {a : α} {w w' : W} {h : List (Event Op Reply)} {out : Except ε α} :
    Exec A (.done a) w h out w' ↔ h = [] ∧ out = .ok a ∧ w' = w := by
  constructor
  · intro run
    cases run
    exact ⟨rfl, rfl, rfl⟩
  · rintro ⟨rfl, rfl, rfl⟩
    exact .done a _

theorem fail_iff {e : ε} {w w' : W} {h : List (Event Op Reply)} {out : Except ε α} :
    Exec A (.fail e) w h out w' ↔ h = [] ∧ out = .error e ∧ w' = w := by
  constructor
  · intro run
    cases run
    exact ⟨rfl, rfl, rfl⟩
  · rintro ⟨rfl, rfl, rfl⟩
    exact .fail e _

theorem ask_iff {op : Op} {k : Reply op → Program Op Reply ε α} {w w' : W}
    {h : List (Event Op Reply)} {out : Except ε α} :
    Exec A (.ask op k) w h out w' ↔
      ∃ r w₁ h', A op w r w₁ ∧ Exec A (k r) w₁ h' out w' ∧ h = ⟨op,r⟩::h' := by
  constructor
  · intro run
    cases run with
    | ask answer rest => exact ⟨_, _, _, answer, rest, rfl⟩
  · rintro ⟨r, w₁, h', answer, rest, rfl⟩
    exact .ask answer rest

/-- A run of a sequence ends in its first part, or is a run of both. -/
theorem bind_iff {p : Program Op Reply ε α} {f : α → Program Op Reply ε β} {w w' : W}
    {h : List (Event Op Reply)} {out : Except ε β} :
    Exec A (p.bind f) w h out w' ↔
      (∃ e, Exec A p w h (.error e) w' ∧ out = .error e) ∨
      (∃ a w₁ h₁ h₂, Exec A p w h₁ (.ok a) w₁ ∧ Exec A (f a) w₁ h₂ out w' ∧ h = h₁ ++ h₂) := by
  induction p generalizing w h with
  | done a =>
    simp only [Program.bind, done_iff]
    constructor
    · intro run
      exact .inr ⟨a, w, [], h, ⟨rfl, rfl, rfl⟩, run, rfl⟩
    · rintro (⟨e, ⟨-, bad, -⟩, -⟩ | ⟨b, w₁, h₁, h₂, ⟨rfl, same, rfl⟩, run, rfl⟩)
      · cases bad
      · cases same
        exact run
  | fail e =>
    simp only [Program.bind, fail_iff]
    constructor
    · rintro ⟨rfl, rfl, rfl⟩
      exact .inl ⟨e, ⟨rfl, rfl, rfl⟩, rfl⟩
    · rintro (⟨e', ⟨rfl, same, rfl⟩, rfl⟩ | ⟨b, w₁, h₁, h₂, ⟨-, bad, -⟩, -⟩)
      · cases same
        exact ⟨rfl, rfl, rfl⟩
      · cases bad
  | ask op k ih =>
    simp only [Program.bind, ask_iff, ih]
    constructor
    · rintro ⟨r, w₁, h', answer, (⟨e, run, rfl⟩ | ⟨a, w₂, h₁, h₂, first, second, rfl⟩), rfl⟩
      · exact .inl ⟨e, ⟨r, w₁, h', answer, run, rfl⟩, rfl⟩
      · exact .inr ⟨a, w₂, _, h₂, ⟨r, w₁, h₁, answer, first, rfl⟩, second, rfl⟩
    · rintro (⟨e, ⟨r, w₁, h', answer, run, rfl⟩, rfl⟩ |
        ⟨a, w₂, _, h₂, ⟨r, w₁, h₁, answer, first, rfl⟩, second, rfl⟩)
      · exact ⟨r, w₁, h', answer, .inl ⟨e, run, rfl⟩, rfl⟩
      · exact ⟨r, w₁, h₁ ++ h₂, answer, .inr ⟨a, w₂, h₁, h₂, first, second, rfl⟩, rfl⟩

theorem bind_ok {p : Program Op Reply ε α} {f : α → Program Op Reply ε β} {w w' : W}
    {h : List (Event Op Reply)} {b : β} (run : Exec A (p >>= f) w h (.ok b) w') :
    ∃ a w₁ h₁ h₂, Exec A p w h₁ (.ok a) w₁ ∧ Exec A (f a) w₁ h₂ (.ok b) w' ∧ h = h₁ ++ h₂ := by
  obtain ⟨e, -, bad⟩ | both := bind_iff.mp run
  · cases bad
  · exact both

theorem bind {p : Program Op Reply ε α} {f : α → Program Op Reply ε β} {w w₁ w' : W}
    {h₁ h₂ : List (Event Op Reply)} {a : α} {out : Except ε β} (first : Exec A p w h₁ (.ok a) w₁)
    (second : Exec A (f a) w₁ h₂ out w') : Exec A (p >>= f) w (h₁ ++ h₂) out w' :=
  bind_iff.mpr (.inr ⟨a, w₁, h₁, h₂, first, second, rfl⟩)

/-- A guarded block ends well, or its handler runs where it failed. -/
theorem handle_iff {p : Program Op Reply ε α} {f : ε → Program Op Reply ε α} {w w' : W}
    {h : List (Event Op Reply)} {out : Except ε α} :
    Exec A (p.handle f) w h out w' ↔
      (∃ a, Exec A p w h (.ok a) w' ∧ out = .ok a) ∨
      (∃ e w₁ h₁ h₂, Exec A p w h₁ (.error e) w₁ ∧ Exec A (f e) w₁ h₂ out w' ∧ h = h₁ ++ h₂) := by
  induction p generalizing w h with
  | done a =>
    simp only [Program.handle, done_iff]
    constructor
    · intro ⟨empty, ended, same⟩
      exact .inl ⟨a, ⟨empty, rfl, same⟩, ended⟩
    · rintro (⟨b, ⟨rfl, same, rfl⟩, rfl⟩ | ⟨e, w₁, h₁, h₂, ⟨-, bad, -⟩, -⟩)
      · cases same
        exact ⟨rfl, rfl, rfl⟩
      · cases bad
  | fail e =>
    simp only [Program.handle, fail_iff]
    constructor
    · intro run
      exact .inr ⟨e, w, [], h, ⟨rfl, rfl, rfl⟩, run, rfl⟩
    · rintro (⟨b, ⟨-, bad, -⟩, -⟩ | ⟨e', w₁, h₁, h₂, ⟨rfl, same, rfl⟩, run, rfl⟩)
      · cases bad
      · cases same
        exact run
  | ask op k ih =>
    simp only [Program.handle, ask_iff, ih]
    constructor
    · rintro ⟨r, w₁, h', answer, (⟨a, run, rfl⟩ | ⟨e, w₂, h₁, h₂, first, second, rfl⟩), rfl⟩
      · exact .inl ⟨a, ⟨r, w₁, h', answer, run, rfl⟩, rfl⟩
      · exact .inr ⟨e, w₂, _, h₂, ⟨r, w₁, h₁, answer, first, rfl⟩, second, rfl⟩
    · rintro (⟨a, ⟨r, w₁, h', answer, run, rfl⟩, rfl⟩ |
        ⟨e, w₂, _, h₂, ⟨r, w₁, h₁, answer, first, rfl⟩, second, rfl⟩)
      · exact ⟨r, w₁, h', answer, .inl ⟨a, run, rfl⟩, rfl⟩
      · exact ⟨r, w₁, h₁ ++ h₂, answer, .inr ⟨e, w₂, h₁, h₂, first, second, rfl⟩, rfl⟩

theorem call_iff {op : Op} {r : Reply op} {w w' : W} {h : List (Event Op Reply)} :
    Exec A (.call op : Program Op Reply ε (Reply op)) w h (.ok r) w' ↔
      A op w r w' ∧ h = [⟨op,r⟩] := by
  constructor
  · intro run
    obtain ⟨r', w₁, h', answer, rest, rfl⟩ := ask_iff.mp run
    obtain ⟨rfl, same, rfl⟩ := done_iff.mp rest
    cases same
    exact ⟨answer, rfl⟩
  · intro ⟨answer, same⟩
    rw [same]
    exact .ask answer (.done r w')

theorem mono {A' : Answers Op Reply W} {p : Program Op Reply ε α} {w w' : W}
    {h : List (Event Op Reply)} {out : Except ε α} (run : Exec A p w h out w')
    (more : ∀ op w r w', A op w r w' → A' op w r w') : Exec A' p w h out w' := by
  induction run with
  | done a w => exact .done a w
  | fail e w => exact .fail e w
  | ask answer rest ih => exact .ask (more _ _ _ _ answer) ih

/-- A run performs no operation that its program does not come to. -/
theorem within {may : Op → Prop} {p : Program Op Reply ε α} {w w' : W} {h : List (Event Op Reply)}
    {out : Except ε α} (inside : p.Within may) (run : Exec A p w h out w') :
    ∀ e ∈ h, may e.1 := by
  induction run with
  | done a w => simp
  | fail e w => simp
  | @ask op k w w' w'' r h out answer rest ih =>
    intro e member
    rcases List.mem_cons.mp member with same | later
    · rw [same]
      exact inside.1
    · exact ih (inside.2 r) e later

/-- A program that can be run with known answers has a complete run. -/
theorem of_eval {answer : (op : Op) → W → Option (Reply op × W)}
    (known : ∀ op w r w', answer op w = some (r,w') → A op w r w') {p : Program Op Reply ε α}
    {w w' : W} {out : Except ε α} (ends : p.eval answer w = some (out,w')) :
    ∃ h, Exec A p w h out w' := by
  induction p generalizing w with
  | done a =>
    cases ends
    exact ⟨[], .done a _⟩
  | fail e =>
    cases ends
    exact ⟨[], .fail e _⟩
  | ask op k ih =>
    cases found : answer op w with
    | none => simp [Program.eval, found] at ends
    | some a =>
      obtain ⟨r, w₁⟩ := a
      simp only [Program.eval, found] at ends
      obtain ⟨h, run⟩ := ih r ends
      exact ⟨⟨op,r⟩ :: h, .ask (known op w r w₁ found) run⟩

end Exec

section

variable {Op : Type} {Reply : Op → Type} {ε α W : Type}

/-- Runs a program where every answer is known, and keeps the history. -/
def Program.trace (answer : (op : Op) → W → Option (Reply op × W)) :
    Program Op Reply ε α → W → Option (List (Event Op Reply) × Except ε α × W)
  | .done a, w => some ([], .ok a, w)
  | .fail e, w => some ([], .error e, w)
  | .ask op k, w =>
    match answer op w with
    | some (r,w') => ((k r).trace answer w').map fun t => (⟨op,r⟩ :: t.1, t.2)
    | none => none

theorem Exec.of_trace {A : Answers Op Reply W} {answer : (op : Op) → W → Option (Reply op × W)}
    (known : ∀ op w r w', answer op w = some (r,w') → A op w r w') {p : Program Op Reply ε α}
    {w w' : W} {h : List (Event Op Reply)} {out : Except ε α}
    (traced : p.trace answer w = some (h,out,w')) : Exec A p w h out w' := by
  induction p generalizing w h with
  | done a =>
    cases traced
    exact .done a _
  | fail e =>
    cases traced
    exact .fail e _
  | ask op k ih =>
    cases found : answer op w with
    | none => simp [Program.trace, found] at traced
    | some a =>
      obtain ⟨r, w₁⟩ := a
      simp only [Program.trace, found, Option.map_eq_some_iff] at traced
      obtain ⟨⟨h', out', w'⟩, rest, same⟩ := traced
      cases same
      exact .ask (known op w r w₁ found) (ih r rest)

/-- A run with known answers that passes a check. -/
theorem Exec.of_check {A : Answers Op Reply W} {answer : (op : Op) → W → Option (Reply op × W)}
    (known : ∀ op w r w', answer op w = some (r,w') → A op w r w') {p : Program Op Reply ε α}
    {w : W} (check : List (Event Op Reply) → Except ε α → Bool)
    (traced : (p.trace answer w).any (fun t => check t.1 t.2.1) = true) :
    ∃ h out w', Exec A p w h out w' ∧ check h out = true := by
  cases found : p.trace answer w with
  | none => simp [found] at traced
  | some t =>
    rw [found] at traced
    exact ⟨t.1, t.2.1, t.2.2, .of_trace known found, traced⟩

end

end Effect
