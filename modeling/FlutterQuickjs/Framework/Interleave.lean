import FlutterQuickjs.Framework.Preserve
import Mathlib.Logic.Relation

namespace Effect

variable {Op : Type} {Reply : Op → Type} {ε α β W : Type}

/-- A program as far as it has come, whatever it returns. -/
structure Task (Op : Type) (Reply : Op → Type) (ε : Type) where
  result : Type
  program : Program Op Reply ε result

/-- A program that handed control to foreign code. -/
structure Suspended (Op : Type) (Reply : Op → Type) (ε : Type) where
  result : Type
  op : Op
  rest : Reply op → Program Op Reply ε result

/-- One thread: the programs that wait for foreign code, innermost first, and the program that
runs, if foreign code does not. -/
structure Config (Op : Type) (Reply : Op → Type) (ε W : Type) where
  waiting : List (Suspended Op Reply ε)
  running : Option (Task Op Reply ε)
  world : W

/-- An environment whose foreign code may itself start programs: those of `nested` at any depth,
those of `outermost` only while no program waits. -/
structure System (Op : Type) (Reply : Op → Type) (ε W : Type) where
  env : Env Op Reply W
  evolves : W → W → Prop
  nested : W → Task Op Reply ε → Prop
  outermost : W → Task Op Reply ε → Prop

namespace System

/-- Foreign code moves the world, starts a program, or comes back to the one that waits last; a
program gets an answer, hands control to foreign code, or ends. -/
inductive Step (Y : System Op Reply ε W) : Config Op Reply ε W → Config Op Reply ε W → Prop
  | evolve {waiting : List (Suspended Op Reply ε)} {w w' : W} (moves : Y.evolves w w') :
      Step Y ⟨waiting,none,w⟩ ⟨waiting,none,w'⟩
  | start {waiting : List (Suspended Op Reply ε)} {t : Task Op Reply ε} {w : W} (starts : Y.nested w t) :
      Step Y ⟨waiting,none,w⟩ ⟨waiting,some t,w⟩
  | startOutermost {t : Task Op Reply ε} {w : W} (starts : Y.outermost w t) :
      Step Y ⟨[],none,w⟩ ⟨[],some t,w⟩
  | answer {waiting : List (Suspended Op Reply ε)} {α : Type} {op : Op}
      {k : Reply op → Program Op Reply ε α} {w w' : W} {r : Reply op}
      (own : ¬Y.env.foreign op w) (answered : Y.env.direct op w r w') :
      Step Y ⟨waiting,some ⟨α,.ask op k⟩,w⟩ ⟨waiting,some ⟨α,k r⟩,w'⟩
  | leave {waiting : List (Suspended Op Reply ε)} {α : Type} {op : Op}
      {k : Reply op → Program Op Reply ε α} {w : W} (runs : Y.env.foreign op w) :
      Step Y ⟨waiting,some ⟨α,.ask op k⟩,w⟩ ⟨⟨α,op,k⟩ :: waiting,none,w⟩
  | back {waiting : List (Suspended Op Reply ε)} {f : Suspended Op Reply ε} {w w' : W} {r : Reply f.op}
      (returned : Y.env.back f.op w r w') :
      Step Y ⟨f :: waiting,none,w⟩ ⟨waiting,some ⟨f.result,f.rest r⟩,w'⟩
  | done {waiting : List (Suspended Op Reply ε)} {α : Type} {a : α} {w : W} :
      Step Y ⟨waiting,some ⟨α,.done a⟩,w⟩ ⟨waiting,none,w⟩
  | fail {waiting : List (Suspended Op Reply ε)} {α : Type} {e : ε} {w : W} :
      Step Y ⟨waiting,some ⟨α,.fail e⟩,w⟩ ⟨waiting,none,w⟩

/-- What comes of a world in which nothing runs. -/
def Reaches (Y : System Op Reply ε W) (w : W) : Config Op Reply ε W → Prop :=
  Relation.ReflTransGen Y.Step ⟨[],none,w⟩

end System

/-- The world in which a program comes to an operation where it stops, if every answer before that
is known. -/
def Program.upTo (answer : (op : Op) → W → Option (Reply op × W)) (stops : Op → Bool) :
    Program Op Reply ε α → W → Option W
  | .done _, _ => none
  | .fail _, _ => none
  | .ask op k, w =>
    if stops op then some w
    else match answer op w with
      | some (r,w') => (k r).upTo answer stops w'
      | none => none

/-- Whatever the program returns is one of these. -/
def Program.Yields (P : α → Prop) : Program Op Reply ε α → Prop
  | .done a => P a
  | .fail _ => True
  | .ask _ k => ∀ r, (k r).Yields P

theorem Program.Yields.bind {P : β → Prop} (p : Program Op Reply ε α) {f : α → Program Op Reply ε β}
    (rest : ∀ a, (f a).Yields P) : (p >>= f).Yields P := by
  rw [Program.bind_eq]
  induction p with
  | done a => exact rest a
  | fail e => trivial
  | ask op k ih => exact fun r => ih r

theorem Program.Yields.ite {P : α → Prop} {c : Prop} [Decidable c] {p q : Program Op Reply ε α}
    (yes : p.Yields P) (no : q.Yields P) : (if c then p else q).Yields P := by
  by_cases hc : c
  · simpa [hc] using yes
  · simpa [hc] using no

theorem wp_yields {E : Env Op Reply W} {S : Setting Op Reply W} {P : α → Prop}
    {p : Program Op Reply ε α} {Q : Except ε α → W → Prop} {w : W} (verified : wp E S p Q w)
    (yields : p.Yields P) : wp E S p (fun out w' => Q out w' ∧ ∀ a, out = .ok a → P a) w := by
  induction p generalizing w with
  | done a =>
    refine ⟨verified, fun b same => ?_⟩
    cases same
    exact yields
  | fail e => exact ⟨verified, fun b bad => by cases bad⟩
  | ask op k ih =>
    exact ⟨verified.1, verified.2.1, fun r w' answered => ih r (verified.2.2 r w' answered) (yields r)⟩

/-- The terms of a program in a system: foreign code finds `I` and keeps to `R`. -/
def Env.calling (E : Env Op Reply W) (I : W → Prop) (R : W → W → Prop) : Setting Op Reply W :=
  ⟨R, fun op w => E.foreign op w → I w, fun _ _ _ => True, False⟩

/-- Wherever the condition holds, the program leaves a world that is related to the first. -/
def Guarantees (E : Env Op Reply W) (S : Setting Op Reply W) (J : W → Prop) (R : W → W → Prop)
    (p : Program Op Reply ε α) : Prop :=
  ∀ w, J w → wp E S p (fun _ w' => R w w') w

/-- A relation that can be followed through steps, and a condition it keeps. -/
structure Keeping (J : W → Prop) (R : W → W → Prop) : Prop extends Follows R where
  kept : ∀ {w w'}, R w w' → J w → J w'

namespace Guarantees

variable {E : Env Op Reply W} {S : Setting Op Reply W} {J : W → Prop} {R : W → W → Prop}

theorem pure (keeping : Keeping J R) (a : α) :
    Guarantees E S J R (Pure.pure a : Program Op Reply ε α) := by
  intro w _
  exact keeping.refl w

theorem throw (keeping : Keeping J R) (e : ε) :
    Guarantees E S J R (MonadExcept.throw e : Program Op Reply ε α) := by
  intro w _
  exact keeping.refl w

theorem call {op : Op} (free : ∀ w, J w → S.guard op w) (partially : ¬S.total)
    (step : ∀ w r w', J w → E.answers S op w r w' → R w w') :
    Guarantees E S J R (.call op : Program Op Reply ε (Reply op)) := by
  intro w holds
  exact ⟨free w holds, fun total => absurd total partially, fun r w' => step w r w' holds⟩

theorem bind (keeping : Keeping J R) {p : Program Op Reply ε α} {f : α → Program Op Reply ε β}
    (first : Guarantees E S J R p) (rest : ∀ a, Guarantees E S J R (f a)) :
    Guarantees E S J R (p >>= f) := by
  intro w holds
  rw [wp_bind]
  refine wp_mono (first w holds) fun out w' before => ?_
  cases out with
  | error e => exact before
  | ok a =>
    have still := keeping.kept before holds
    exact wp_mono (rest a w' still) fun _ _ after => keeping.trans before after

theorem ite {c : Prop} [Decidable c] {p q : Program Op Reply ε α} (yes : Guarantees E S J R p)
    (no : Guarantees E S J R q) : Guarantees E S J R (if c then p else q) := by
  by_cases hc : c
  · simpa [hc] using yes
  · simpa [hc] using no

theorem handle (keeping : Keeping J R) {p : Program Op Reply ε α} {f : ε → Program Op Reply ε α}
    (first : Guarantees E S J R p) (rest : ∀ e, Guarantees E S J R (f e)) :
    Guarantees E S J R (p.handle f) := by
  intro w holds
  rw [← Program.tryCatch_eq, wp_tryCatch]
  refine wp_mono (first w holds) fun out w' before => ?_
  cases out with
  | ok a => exact before
  | error e =>
    have still := keeping.kept before holds
    exact wp_mono (rest e w' still) fun _ _ after => keeping.trans before after

/-- The rest of a program may rely on what the first part returns. -/
theorem bindWhere (keeping : Keeping J R) {P : α → Prop} {p : Program Op Reply ε α}
    {f : α → Program Op Reply ε β} (first : Guarantees E S J R p) (yields : p.Yields P)
    (rest : ∀ a, P a → Guarantees E S J R (f a)) : Guarantees E S J R (p >>= f) := by
  intro w holds
  rw [wp_bind]
  refine wp_mono (wp_yields (first w holds) yields) fun out w' before => ?_
  cases out with
  | error e => exact before.1
  | ok a =>
    have still := keeping.kept before.1 holds
    exact wp_mono (rest a (before.2 a rfl) w' still) fun _ _ after => keeping.trans before.1 after

/-- What each operation guarantees, a program of such operations guarantees. -/
theorem of_within (keeping : Keeping J R) {may : Op → Prop}
    (each : ∀ op, may op → Guarantees E S J R (.call op : Program Op Reply ε (Reply op)))
    {p : Program Op Reply ε α} (within : p.Within may) : Guarantees E S J R p := by
  induction p with
  | done a => exact .pure keeping a
  | fail e => exact .throw keeping e
  | ask op k ih => exact .bind keeping (each op within.1) fun r => ih r (within.2 r)

end Guarantees

namespace System

variable {Y : System Op Reply ε W} {I : W → Prop} {R : W → W → Prop}

/-- Foreign code and all that it starts keep to `R`, which keeps `I`; what starts while nothing
waits need only keep `I`. -/
structure Agrees (Y : System Op Reply ε W) (I : W → Prop) (R : W → W → Prop) : Prop extends
    Keeping I R where
  evolves : ∀ {w w'}, Y.evolves w w' → R w w'
  nested : ∀ {w t}, Y.nested w t → I w →
    wp Y.env (Y.env.calling I R) t.program (fun _ w' => R w w') w
  outermost : ∀ {w t}, Y.outermost w t → I w →
    wp Y.env (Y.env.calling I R) t.program (fun _ w' => I w') w

/-- Foreign code may come back to every program that waits, in turn. -/
def Ready (Y : System Op Reply ε W) (I : W → Prop) (R : W → W → Prop) :
    List (Suspended Op Reply ε) → W → Prop
  | [], w => I w
  | f :: waiting, w => I w ∧ ∀ w₁ r w', R w w₁ → Y.env.back f.op w₁ r w' →
      wp Y.env (Y.env.calling I R) (f.rest r) (fun _ w' => Y.Ready I R waiting w') w'

/-- The programs of a configuration are verified from where they stand. -/
def Safe (Y : System Op Reply ε W) (I : W → Prop) (R : W → W → Prop) (c : Config Op Reply ε W) :
    Prop :=
  match c.running with
  | none => Y.Ready I R c.waiting c.world
  | some t => wp Y.env (Y.env.calling I R) t.program (fun _ w' => Y.Ready I R c.waiting w') c.world

theorem Ready.holds {waiting : List (Suspended Op Reply ε)} {w : W} (ready : Y.Ready I R waiting w) :
    I w := by
  cases waiting with
  | nil => exact ready
  | cons f waiting => exact ready.1

/-- What keeps to `R` leaves the programs that wait as ready as they were. -/
theorem Ready.moved (agrees : Y.Agrees I R) {waiting : List (Suspended Op Reply ε)} {w w' : W}
    (ready : Y.Ready I R waiting w) (moves : R w w') : Y.Ready I R waiting w' := by
  cases waiting with
  | nil => exact agrees.kept moves ready
  | cons f waiting =>
    refine ⟨agrees.kept moves ready.1, fun w₁ r w₂ later returned => ?_⟩
    exact ready.2 w₁ r w₂ (agrees.trans moves later) returned

theorem safe_step (agrees : Y.Agrees I R) {c c' : Config Op Reply ε W} (safe : Y.Safe I R c)
    (step : Y.Step c c') : Y.Safe I R c' := by
  cases step with
  | evolve moves => exact Ready.moved agrees safe (agrees.evolves moves)
  | start starts =>
    have verified := agrees.nested starts (Ready.holds safe)
    exact wp_mono verified fun _ _ moves => Ready.moved agrees safe moves
  | startOutermost starts => exact agrees.outermost starts safe
  | answer own answered => exact safe.2.2 _ _ ⟨trivial, .inl ⟨own, answered⟩⟩
  | leave runs =>
    refine ⟨safe.1 runs, fun w₁ r w' between returned => ?_⟩
    exact safe.2.2 r w' ⟨trivial, .inr ⟨runs, w₁, between, returned⟩⟩
  | back returned => exact safe.2 _ _ _ (agrees.refl _) returned
  | done => exact safe
  | fail => exact safe

/-- However programs are started, interrupted and resumed, every one of them stays verified. -/
theorem safe_of_reaches (agrees : Y.Agrees I R) {w : W} (holds : I w) {c : Config Op Reply ε W}
    (reaches : Y.Reaches w c) : Y.Safe I R c := by
  induction reaches with
  | refl => exact holds
  | tail _ step ih => exact safe_step agrees ih step

/-- Whenever foreign code runs, at any depth, it finds the invariant. -/
theorem invariant_of_reaches (agrees : Y.Agrees I R) {w : W} (holds : I w)
    {c : Config Op Reply ε W} (reaches : Y.Reaches w c) (idle : c.running = none) : I c.world := by
  have safe := safe_of_reaches agrees holds reaches
  rw [Safe, idle] at safe
  exact safe.holds

/-- The system in which something always waits. -/
def inner (Y : System Op Reply ε W) : System Op Reply ε W := { Y with outermost := fun _ _ => False }

/-- Steps on which the programs of `base` go on waiting. -/
def Over (Y : System Op Reply ε W) (base : List (Suspended Op Reply ε)) :
    Config Op Reply ε W → Config Op Reply ε W → Prop :=
  Relation.ReflTransGen fun c c' => Y.Step c c' ∧ base <:+ c'.waiting

theorem safe_over {base : List (Suspended Op Reply ε)} (waits : base ≠ []) (agrees : Y.inner.Agrees I R)
    {c c' : Config Op Reply ε W} (step : Y.Step c c') (above : base <:+ c'.waiting)
    {top : List (Suspended Op Reply ε)} (split : c.waiting = top ++ base)
    (safe : Y.inner.Safe I R ⟨top,c.running,c.world⟩) :
    ∃ top', c'.waiting = top' ++ base ∧ Y.inner.Safe I R ⟨top',c'.running,c'.world⟩ := by
  cases step with
  | evolve moves => exact ⟨top, split, safe_step agrees safe (.evolve moves)⟩
  | start starts => exact ⟨top, split, safe_step agrees safe (.start starts)⟩
  | startOutermost starts =>
    have none_ : base = [] := (List.append_eq_nil_iff.mp split.symm).2
    exact absurd none_ waits
  | answer own answered => exact ⟨top, split, safe_step agrees safe (.answer own answered)⟩
  | leave runs =>
    exact ⟨_ :: top, congrArg (List.cons _) split, safe_step agrees safe (.leave runs)⟩
  | @back waiting f w w' r returned =>
    cases top with
    | nil =>
      have shorter := above.length_le
      have same : f :: waiting = base := split
      rw [← same, List.length_cons] at shorter
      simp only at shorter
      omega
    | cons g top =>
      obtain ⟨same, rest⟩ := List.cons.inj split
      cases same
      exact ⟨top, rest, safe_step agrees safe (.back returned)⟩
  | done => exact ⟨top, split, safe_step agrees safe .done⟩
  | fail => exact ⟨top, split, safe_step agrees safe .fail⟩

/-- Whatever runs while a program waits, it finds the invariant and leaves it. -/
theorem invariant_over {base : List (Suspended Op Reply ε)} (waits : base ≠ []) (agrees : Y.inner.Agrees I R)
    {w : W} (holds : I w) {c : Config Op Reply ε W} (meantime : Y.Over base ⟨base,none,w⟩ c)
    (idle : c.running = none) : I c.world := by
  have inside : ∃ top, c.waiting = top ++ base ∧ Y.inner.Safe I R ⟨top,c.running,c.world⟩ := by
    clear idle
    induction meantime with
    | refl => exact ⟨[], rfl, holds⟩
    | tail _ step ih =>
      obtain ⟨top, split, safe⟩ := ih
      exact safe_over waits agrees step.1 step.2 split safe
  obtain ⟨top, -, safe⟩ := inside
  rw [Safe, idle] at safe
  exact safe.holds

/-- What a reachable world becomes while a program waits for foreign code. -/
def Meantime (Y : System Op Reply ε W) (w₀ w w' : W) : Prop :=
  ∃ waiting, waiting ≠ [] ∧ Y.Reaches w₀ ⟨waiting,none,w⟩ ∧ Y.Over waiting ⟨waiting,none,w⟩ ⟨waiting,none,w'⟩

/-- A program's run as part of what happens from `c` on, until only `waiting` waits again. -/
def Ran (Y : System Op Reply ε W) (w₀ : W) (waiting : List (Suspended Op Reply ε))
    (last : Config Op Reply ε W) (p : Program Op Reply ε α) (w : W) : Prop :=
  ∃ h out w₁, Exec (Y.env.answers (.plain (Y.Meantime w₀) False)) p w h out w₁ ∧
    Y.Over waiting ⟨waiting,none,w₁⟩ last

/-- The suspended program gets its answer later on, and runs to its end. -/
def Resumes (Y : System Op Reply ε W) (w₀ : W) (waiting : List (Suspended Op Reply ε))
    (last : Config Op Reply ε W) (f : Suspended Op Reply ε) (c : Config Op Reply ε W) : Prop :=
  ∃ w r w', Y.Over (f :: waiting) c ⟨f :: waiting,none,w⟩ ∧ Y.env.back f.op w r w' ∧
    Y.Ran w₀ waiting last (f.rest r) w'

theorem Resumes.head {w₀ : W} {waiting top : List (Suspended Op Reply ε)} {last : Config Op Reply ε W}
    {f : Suspended Op Reply ε} {c c' : Config Op Reply ε W} (step : Y.Step c c')
    (above : c'.waiting = top ++ f :: waiting) (resumes : Y.Resumes w₀ waiting last f c') :
    Y.Resumes w₀ waiting last f c := by
  obtain ⟨w, r, w', meantime, returned, ran⟩ := resumes
  exact ⟨w, r, w', .head ⟨step, above ▸ List.suffix_append _ _⟩ meantime, returned, ran⟩

/-- Whatever happens until a program has ended and the programs below it wait again, it holds a
run of the program in which foreign code does what may happen meanwhile. -/
theorem ran_of_over {w₀ : W} {waiting : List (Suspended Op Reply ε)} {last c : Config Op Reply ε W}
    (elapsed : Y.Over waiting c last) (ended : last.running = none) (same : last.waiting = waiting)
    (reaches : Y.Reaches w₀ c) :
    (∀ {α : Type} (p : Program Op Reply ε α) w, c = ⟨waiting,some ⟨α,p⟩,w⟩ →
      Y.Ran w₀ waiting last p w) ∧
    ∀ f top, c.waiting = top ++ f :: waiting → Y.Resumes w₀ waiting last f c := by
  induction elapsed using Relation.ReflTransGen.head_induction_on with
  | refl =>
    refine ⟨fun p w equal => ?_, fun f top equal => ?_⟩
    · rw [equal] at ended
      cases ended
    · have longer := congrArg List.length (same.symm.trans equal)
      simp only [List.length_append, List.length_cons] at longer
      omega
  | @head c c' step rest ih =>
    obtain ⟨runs, resumes⟩ := ih (reaches.tail step.1)
    constructor
    · intro α p w equal
      subst equal
      obtain ⟨step, -⟩ := step
      cases step with
      | answer own answered =>
        obtain ⟨h, out, w₁, run, later⟩ := runs _ _ rfl
        exact ⟨_, _, _, .ask ⟨trivial, .inl ⟨own, answered⟩⟩ run, later⟩
      | leave foreign =>
        obtain ⟨w₁, r, w₂, meantime, returned, h, out, w₃, run, later⟩ := resumes _ [] rfl
        have between : Y.Meantime w₀ w w₁ :=
          ⟨_, List.cons_ne_nil _ _, reaches.tail (.leave foreign), meantime⟩
        exact ⟨_, _, _, .ask ⟨trivial, .inr ⟨foreign, w₁, between, returned⟩⟩ run, later⟩
      | done => exact ⟨_, _, _, .done _ _, rest⟩
      | fail => exact ⟨_, _, _, .fail _ _, rest⟩
    · intro f top equal
      obtain ⟨step, -⟩ := step
      cases step with
      | evolve moves => exact (resumes f top equal).head (.evolve moves) equal
      | start starts => exact (resumes f top equal).head (.start starts) equal
      | startOutermost starts => cases top <;> cases equal
      | answer own answered => exact (resumes f top equal).head (.answer own answered) equal
      | @leave waiting' α op k w foreign =>
        have deeper : ⟨α,op,k⟩ :: waiting' = (⟨α,op,k⟩ :: top) ++ f :: waiting :=
          congrArg (List.cons _) equal
        exact (resumes f _ deeper).head (.leave foreign) deeper
      | @back waiting' g w w' r returned =>
        cases top with
        | nil =>
          obtain ⟨rfl, rfl⟩ := List.cons.inj equal
          exact ⟨w, r, w', .refl, returned, runs _ _ rfl⟩
        | cons g' top =>
          have shorter := (List.cons.inj equal).2
          exact (resumes f top shorter).head (.back returned) shorter
      | done => exact (resumes f top equal).head .done equal
      | fail => exact (resumes f top equal).head .fail equal

/-- A program that is not interrupted runs to its end, over the programs that wait. -/
theorem Over.of_exec {p : Program Op Reply ε α} {w w' : W} {h : List (Event Op Reply)}
    {out : Except ε α} (run : Exec (Y.env.answers (.plain Eq False)) p w h out w')
    (waiting : List (Suspended Op Reply ε)) :
    Y.Over waiting ⟨waiting,some ⟨α,p⟩,w⟩ ⟨waiting,none,w'⟩ := by
  have still : waiting <:+ waiting := List.suffix_refl _
  induction run with
  | done a w => exact .single ⟨.done, still⟩
  | fail e w => exact .single ⟨.fail, still⟩
  | @ask op k w w₁ w₂ r h out answered rest ih =>
    obtain ⟨-, ⟨own, native⟩ | ⟨runs, w₃, same, returned⟩⟩ := answered
    · exact .head ⟨.answer own native, still⟩ ih
    · cases same
      exact .head ⟨.leave runs, List.suffix_cons _ _⟩
        (.head ⟨.back (f := ⟨α,op,k⟩) returned, still⟩ ih)

theorem Over.steps {base : List (Suspended Op Reply ε)} {c c' : Config Op Reply ε W}
    (meantime : Y.Over base c c') : Relation.ReflTransGen Y.Step c c' := by
  induction meantime with
  | refl => exact .refl
  | tail _ step ih => exact ih.tail step.1

theorem Over.run {waiting : List (Suspended Op Reply ε)} {p : Program Op Reply ε α} {w w' : W}
    {h : List (Event Op Reply)} {out : Except ε α} (starts : Y.nested w ⟨α,p⟩)
    (run : Exec (Y.env.answers (.plain Eq False)) p w h out w') :
    Y.Over waiting ⟨waiting,none,w⟩ ⟨waiting,none,w'⟩ :=
  .head ⟨.start starts, List.suffix_refl _⟩ (Over.of_exec run waiting)

theorem Reaches.run {c : Config Op Reply ε W} {w₀ : W} (reaches : Y.Reaches w₀ c)
    (idle : c.running = none) {p : Program Op Reply ε α} (starts : Y.nested c.world ⟨α,p⟩) {w' : W}
    {h : List (Event Op Reply)} {out : Except ε α}
    (run : Exec (Y.env.answers (.plain Eq False)) p c.world h out w') :
    Y.Reaches w₀ ⟨c.waiting,none,w'⟩ := by
  obtain ⟨waiting, running, w⟩ := c
  cases idle
  exact reaches.trans (Over.run starts run).steps

/-- A program that begins by handing over control waits at once. -/
theorem Reaches.waits {c : Config Op Reply ε W} {w₀ : W} (reaches : Y.Reaches w₀ c)
    (idle : c.running = none) {op : Op} {k : Reply op → Program Op Reply ε α}
    (starts : Y.nested c.world ⟨α,.ask op k⟩) (runs : Y.env.foreign op c.world) :
    Y.Reaches w₀ ⟨⟨α,op,k⟩ :: c.waiting,none,c.world⟩ := by
  obtain ⟨waiting, running, w⟩ := c
  cases idle
  exact (reaches.tail (.start starts)).tail (.leave runs)

/-- A program that is not interrupted before waits once it comes to an operation of foreign code. -/
theorem Reaches.upTo {answer : (op : Op) → W → Option (Reply op × W)} {stops : Op → Bool}
    {waiting : List (Suspended Op Reply ε)} {p : Program Op Reply ε α} {w₀ w w' : W}
    (known : ∀ op w r w', answer op w = some (r,w') → Y.env.answers (.plain Eq False) op w r w')
    (runs : ∀ op w, stops op = true → Y.env.foreign op w)
    (reaches : Y.Reaches w₀ ⟨waiting,some ⟨α,p⟩,w⟩) (comes : p.upTo answer stops w = some w') :
    ∃ f, Y.Reaches w₀ ⟨f :: waiting,none,w'⟩ := by
  induction p generalizing w with
  | done a => cases comes
  | fail e => cases comes
  | ask op k ih =>
    simp only [Program.upTo] at comes
    by_cases there : stops op = true
    · rw [if_pos there, Option.some.injEq] at comes
      subst comes
      exact ⟨_, reaches.tail (.leave (runs op w there))⟩
    · rw [if_neg there] at comes
      cases found : answer op w with
      | none => simp [found] at comes
      | some a =>
        obtain ⟨r, w₁⟩ := a
        simp only [found] at comes
        obtain ⟨-, ⟨own, native⟩ | ⟨foreign, w₂, same, returned⟩⟩ := known op w r w₁ found
        · exact ih r (reaches.tail (.answer own native)) comes
        · cases same
          exact ih r ((reaches.tail (.leave foreign)).tail (.back (f := ⟨α,op,k⟩) returned)) comes

end System

end Effect
