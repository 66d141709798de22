import FlutterQuickjs.Conversion.Lengths
import FlutterQuickjs.Release.Describe

namespace FlutterQuickjs.Release

open Engine Binding ValueConverter Conversion
open Effect

/-- C strings, tables of property names and atoms are as many as before. The references on values
have moved by `e`, and an exception is pending if one was before or if some operation failed. -/
structure Balances (ctx : Ctx) (e : JSValue → Int) (failed : Prop) (w w' : World) : Prop where
  cstrings : w'.cstrings = w.cstrings
  tables : w'.tables.length = w.tables.length
  atoms : w'.atoms = w.atoms
  held : ∀ v, Counted v → w'.held v = w.held v + e v
  pending : (w'.pending ctx).isSome ↔ (w.pending ctx).isSome ∨ failed

/-- The engine's transient resources have all been given back, all but the references `kept`. -/
def Neutral (ctx : Ctx) (kept : JSValue → Int) (w w' : World) : Prop :=
  Balances ctx kept False w w'

/-- What never shrinks, as the binding gives back neither C strings nor tables. -/
structure Rises (w w' : World) : Prop where
  boxes : Keeps w.boxes w'.boxes
  lent : ∀ s, w.cstrings s ≤ w'.cstrings s
  tables : w.tables.length ≤ w'.tables.length

/-- A C string or a table was acquired for good. -/
def Loud (w w' : World) : Prop :=
  (∃ s, w.cstrings s < w'.cstrings s) ∨ w.tables.length < w'.tables.length

/-- No fewer references than `e` says. -/
def Least (e : JSValue → Int) (w w' : World) : Prop :=
  ∀ v, Counted v → w.held v + e v ≤ w'.held v

/-- More references than `e` says. -/
def Exceeds (e : JSValue → Int) (w w' : World) : Prop :=
  Least e w w' ∧ ∃ v, Counted v ∧ w.held v + e v < w'.held v

/-- A value whose conversion asks the engine for no C string. -/
def Plain (v : JSValue) : Prop := (∀ s, v ≠ .string s) ∧ v ≠ .exception

/-- A reply that leaves nothing behind: a `length` without a reference, an element that is plain,
and no names. -/
def Bare : Event Op Reply → Prop
  | ⟨.getProperty _ _ k, r⟩ =>
    (k = .string lengthName → ¬Counted r) ∧ ((∃ i, k = .index i) → Plain r)
  | ⟨.getOwnPropertyNames _ _, r⟩ => r = none
  | _ => True

/-- An operation of the engine that failed, and left an exception pending. -/
def Failed : Event Op Reply → Prop
  | ⟨.isArray _ _, r⟩ => r = -1
  | ⟨.getProperty _ _ _, r⟩ => r = .exception
  | ⟨.getOwnPropertyNames _ _, r⟩ => r = none
  | _ => False

/-- A function that is not in the cache becomes a `HostFunction`, which keeps a reference. -/
def keeps : Event Op Reply → JSValue → Int
  | ⟨.cacheFind _ o, none⟩ => if (JSValue.object o).isFunction then Pi.single (.object o) 1 else 0
  | _ => 0

/-- The references that the `HostFunction`s made in a run keep. -/
def kept (h : List (Event Op Reply)) : JSValue → Int := (h.map keeps).sum

/-- The reference of a function that is itself converted was there before. -/
def passed (v : JSValue) (h : List (Event Op Reply)) : JSValue → Int :=
  if v.isFunction then -kept h else 0

/-- The references that stay with the functions a conversion of `v` meets; a `HostFunction` keeps
its function until the runtime is closed. -/
def handed (v : JSValue) (h : List (Event Op Reply)) : JSValue → Int := kept h + passed v h

def AllBare (h : List (Event Op Reply)) : Prop := ∀ x ∈ h, Bare x

def Fails (h : List (Event Op Reply)) : Prop := ∃ x ∈ h, Failed x

/-- The account of a run that is neutral, but for `e` and what its `HostFunction`s keep, exactly
where its replies are bare and `c` holds. -/
structure Drift (ctx : Ctx) (h : List (Event Op Reply)) (e : JSValue → Int) (c : Prop)
    (w w' : World) : Prop where
  rises : Rises w w'
  bare : AllBare h → c → Balances ctx (kept h + e) (Fails h) w w'
  rough : ¬(AllBare h ∧ c) → Loud w w' ∨ Exceeds (kept h + e) w w'

/-- An event that matters to no account. -/
def Still (x : Event Op Reply) : Prop := Bare x ∧ keeps x = 0 ∧ ¬Failed x

/-- A step that the account does not see. -/
structure Unmoved (w w' : World) : Prop where
  boxes : Keeps w.boxes w'.boxes
  cstrings : w'.cstrings = w.cstrings
  tables : w'.tables = w.tables
  atoms : w'.atoms = w.atoms
  held : w'.held = w.held
  pending : w'.pending = w.pending

section

variable {ctx : Ctx} {e e' : JSValue → Int} {c c' f f' : Prop} {w w' w'' : World} {v : JSValue}
  {h h' : List (Event Op Reply)} {x : Event Op Reply}

@[simp] theorem allBare_nil : AllBare [] ↔ True := by simp [AllBare]

@[simp] theorem allBare_cons (x : Event Op Reply) (h : List (Event Op Reply)) :
    AllBare (x :: h) ↔ Bare x ∧ AllBare h := by simp [AllBare]

@[simp] theorem allBare_append (h h' : List (Event Op Reply)) :
    AllBare (h ++ h') ↔ AllBare h ∧ AllBare h' := List.forall_mem_append

@[simp] theorem fails_nil : Fails [] ↔ False := by simp [Fails]

@[simp] theorem fails_cons (x : Event Op Reply) (h : List (Event Op Reply)) :
    Fails (x :: h) ↔ Failed x ∨ Fails h := by simp [Fails]

@[simp] theorem fails_append (h h' : List (Event Op Reply)) :
    Fails (h ++ h') ↔ Fails h ∨ Fails h' := by simp [Fails, or_and_right, exists_or]

@[simp] theorem kept_nil : kept [] = 0 := rfl

@[simp] theorem kept_cons (x : Event Op Reply) (h : List (Event Op Reply)) :
    kept (x :: h) = keeps x + kept h := by simp [kept]

@[simp] theorem kept_append (h h' : List (Event Op Reply)) :
    kept (h ++ h') = kept h + kept h' := by simp [kept]

theorem Balances.trans (first : Balances ctx e f w w') (second : Balances ctx e' f' w' w'') :
    Balances ctx (e + e') (f ∨ f') w w'' where
  cstrings := second.cstrings.trans first.cstrings
  tables := second.tables.trans first.tables
  atoms := second.atoms.trans first.atoms
  held v counted := by
    rw [second.held v counted, first.held v counted, Pi.add_apply]
    ring
  pending := by rw [second.pending, first.pending, or_assoc]

theorem Balances.congr (balances : Balances ctx e f w w')
    (same : ∀ v, Counted v → e v = e' v) (fails : f ↔ f') : Balances ctx e' f' w w' where
  cstrings := balances.cstrings
  tables := balances.tables
  atoms := balances.atoms
  held v counted := by rw [balances.held v counted, same v counted]
  pending := by rw [balances.pending, fails]

theorem Balances.least (balances : Balances ctx e f w w') : Least e w w' := by
  intro v counted
  rw [balances.held v counted]

theorem Least.trans (first : Least e w w') (second : Least e' w' w'') : Least (e + e') w w'' := by
  intro v counted
  have := first v counted
  have := second v counted
  rw [Pi.add_apply]
  omega

theorem Least.exceeds (first : Least e w w') (second : Exceeds e' w' w'') :
    Exceeds (e + e') w w'' := by
  obtain ⟨least, v, counted, more⟩ := second
  refine ⟨first.trans least, v, counted, ?_⟩
  have := first v counted
  rw [Pi.add_apply]
  omega

theorem Exceeds.least (first : Exceeds e w w') (second : Least e' w' w'') :
    Exceeds (e + e') w w'' := by
  obtain ⟨least, v, counted, more⟩ := first
  refine ⟨Least.trans least second, v, counted, ?_⟩
  have := second v counted
  rw [Pi.add_apply]
  omega

theorem Rises.refl (w : World) : Rises w w := ⟨.refl _, fun _ => le_rfl, le_rfl⟩

theorem Rises.trans (first : Rises w w') (second : Rises w' w'') : Rises w w'' where
  boxes := first.boxes.trans second.boxes
  lent s := (first.lent s).trans (second.lent s)
  tables := first.tables.trans second.tables

theorem Rises.of_frame {op : Op} (frame : Frame op w w') : Rises w w' :=
  ⟨frame.boxes, frame.lent, frame.tables.1⟩

theorem Unmoved.rises (unmoved : Unmoved w w') : Rises w w' where
  boxes := unmoved.boxes
  lent s := by rw [unmoved.cstrings]
  tables := by rw [unmoved.tables]

theorem Unmoved.balances (unmoved : Unmoved w w') : Balances ctx 0 False w w' where
  cstrings := unmoved.cstrings
  tables := by rw [unmoved.tables]
  atoms := unmoved.atoms
  held v _ := by simp [unmoved.held]
  pending := by simp [unmoved.pending]

theorem Loud.before (loud : Loud w w') (rises : Rises w' w'') : Loud w w'' := by
  rcases loud with ⟨s, more⟩ | more
  · exact .inl ⟨s, lt_of_lt_of_le more (rises.lent s)⟩
  · exact .inr (lt_of_lt_of_le more rises.tables)

theorem Loud.after (rises : Rises w w') (loud : Loud w' w'') : Loud w w'' := by
  rcases loud with ⟨s, more⟩ | more
  · exact .inl ⟨s, lt_of_le_of_lt (rises.lent s) more⟩
  · exact .inr (lt_of_le_of_lt rises.tables more)

namespace Drift

theorem of_balances (rises : Rises w w') (balances : Balances ctx (kept h + e) (Fails h) w w')
    (bares : AllBare h) : Drift ctx h e True w w' where
  rises := rises
  bare _ _ := balances
  rough bad := absurd ⟨bares, trivial⟩ bad

theorem refl (w : World) : Drift ctx [] 0 True w w :=
  of_balances (.refl w) ⟨rfl, rfl, rfl, by simp, by simp⟩ (by simp)

theorem of_loud (rises : Rises w w') (loud : Loud w w') (no : ¬(AllBare h ∧ c)) :
    Drift ctx h e c w w' where
  rises := rises
  bare bares yes := absurd ⟨bares, yes⟩ no
  rough _ := .inl loud

/-- Unless a part was loud, its references are no fewer. -/
theorem atLeast (drift : Drift ctx h e c w w') : Loud w w' ∨ Least (kept h + e) w w' := by
  by_cases holds : AllBare h ∧ c
  · exact .inr (drift.bare holds.1 holds.2).least
  · exact (drift.rough holds).imp_right And.left

theorem trans (first : Drift ctx h e c w w') (second : Drift ctx h' e' c' w' w'') :
    Drift ctx (h ++ h') (e + e') (c ∧ c') w w'' := by
  have sum : kept (h ++ h') + (e + e') = (kept h + e) + (kept h' + e') := by
    rw [kept_append, add_add_add_comm]
  refine ⟨first.rises.trans second.rises, fun bares both => ?_, fun broken => ?_⟩
  · rw [allBare_append] at bares
    have balances := (first.bare bares.1 both.1).trans (second.bare bares.2 both.2)
    exact balances.congr (fun v _ => by rw [sum]) (fails_append h h').symm
  · rw [sum]
    rcases first.atLeast with loud | low
    · exact .inl (loud.before second.rises)
    rcases second.atLeast with loud | low'
    · exact .inl (.after first.rises loud)
    by_cases holds : AllBare h ∧ c
    · have broken' : ¬(AllBare h' ∧ c') := by
        intro holds'
        apply broken
        rw [allBare_append]
        exact ⟨⟨holds.1, holds'.1⟩, holds.2, holds'.2⟩
      rcases second.rough broken' with loud | more
      · exact .inl (.after first.rises loud)
      · exact .inr (low.exceeds more)
    · rcases first.rough holds with loud | more
      · exact .inl (loud.before second.rises)
      · exact .inr (more.least low')

theorem congr (drift : Drift ctx h e c w w') (same : e = e') (iff : c ↔ c') :
    Drift ctx h e' c' w w' := by
  rw [← same, ← propext iff]
  exact drift

/-- A step that moves `e` and nothing else that counts. -/
theorem step (still : Still x) (rises : Rises w w') (balances : Balances ctx e False w w')
    (rest : Drift ctx h e' c w' w'') : Drift ctx (x :: h) (e + e') c w w'' := by
  have first : Drift ctx [x] e True w w' := by
    refine of_balances rises (balances.congr (fun v _ => ?_) ?_) ?_
    · simp [still.2.1]
    · simp [still.2.2]
    · simp [still.1]
  exact (first.trans rest).congr rfl (by simp)

/-- A step that the account does not see. -/
theorem skip (still : Still x) (rest : Drift ctx h e c w' w'') (unmoved : Unmoved w w') :
    Drift ctx (x :: h) e c w w'' :=
  (step still unmoved.rises unmoved.balances rest).congr (zero_add e) Iff.rfl

theorem last (still : Still x) (unmoved : Unmoved w w') : Drift ctx [x] 0 True w w' :=
  skip still (refl w') unmoved

/-- An element that was read is converted. -/
theorem after_read {r : JSValue} (rises : Rises w w')
    (read : Balances ctx (Pi.single r 1) (r = .exception) w w') (none : kept h = 0)
    (bares : AllBare h ↔ Plain r) (fails : Fails h ↔ r = .exception)
    (rest : Drift ctx h' e (Plain r) w' w'') :
    Drift ctx (h ++ h') (Pi.single r 1 + e) True w w'' := by
  have sum : kept (h ++ h') + (Pi.single r 1 + e) = Pi.single r 1 + (kept h' + e) := by
    rw [kept_append, none, zero_add, add_left_comm]
  refine ⟨rises.trans rest.rises, fun both _ => ?_, fun broken => ?_⟩
  · rw [allBare_append, bares] at both
    have balances := read.trans (rest.bare both.2 both.1)
    exact balances.congr (fun v _ => by rw [sum]) (by rw [fails_append, fails])
  · rw [allBare_append, bares] at broken
    rw [sum]
    rcases rest.rough fun both => broken ⟨⟨both.2, both.1⟩, trivial⟩ with loud | more
    · exact .inl (.after rises loud)
    · exact .inr (read.least.exceeds more)

/-- A reference that is never given back. -/
theorem stays {r : JSValue} (rises : Rises w w')
    (moved : ∀ v, Counted v → w'.held v = w.held v + (Pi.single r 1 : JSValue → Int) v)
    (balances : ¬Counted r → Balances ctx (Pi.single r 1) (r = .exception) w w')
    (none : kept h = 0) (bares : AllBare h ↔ ¬Counted r) (fails : Fails h ↔ r = .exception) :
    Drift ctx h 0 True w w' := by
  refine ⟨rises, fun bare _ => ?_, fun broken => ?_⟩
  · refine (balances (bares.mp bare)).congr (fun v counted => ?_) fails.symm
    have other : v ≠ r := fun same => bares.mp bare (same ▸ counted)
    simp [none, other]
  · have counted : Counted r := by
      by_contra uncounted
      exact broken ⟨bares.mpr uncounted, trivial⟩
    have least : Least (kept h + 0) w w' := by
      intro v counted
      have nonneg : 0 ≤ (Pi.single r 1 : JSValue → Int) v := by
        by_cases same : v = r
        · simp [same]
        · simp [same]
      rw [none, moved v counted, Pi.add_apply, Pi.zero_apply]
      omega
    refine .inr ⟨least, r, counted, ?_⟩
    rw [none, moved r counted, Pi.add_apply, Pi.zero_apply, Pi.single_eq_same]
    omega

end Drift

/-- Exactly where the account says so, everything has been given back. -/
theorem neutral_iff_of_drift (drift : Drift ctx h e c w w') :
    Neutral ctx (kept h + e) w w' ↔
      c ∧ AllBare h ∧ (Fails h → (w.pending ctx).isSome = true) := by
  constructor
  · intro neutral
    have holds : AllBare h ∧ c := by
      by_contra broken
      rcases drift.rough broken with (⟨s, more⟩ | more) | ⟨-, v, counted, more⟩
      · rw [neutral.cstrings] at more
        exact lt_irrefl _ more
      · rw [neutral.tables] at more
        exact lt_irrefl _ more
      · rw [neutral.held v counted] at more
        exact lt_irrefl _ more
    refine ⟨holds.2, holds.1, fun fails => ?_⟩
    have after := (drift.bare holds.1 holds.2).pending.mpr (.inr fails)
    rw [neutral.pending] at after
    exact after.resolve_right id
  · intro ⟨holds, bares, was⟩
    have balances := drift.bare bares holds
    refine ⟨balances.cstrings, balances.tables, balances.atoms, balances.held, ?_⟩
    rw [balances.pending, or_false]
    exact or_iff_left_of_imp was

end

/-- Terms under which runs that end are looked at, foreign code only evolves the world, and a
property read gives the exception marker only where it threw. -/
structure Genuine (S : Setting Op Reply World) : Prop extends Evolving S where
  reads : ∀ ctx v k w, S.allowed (.getProperty ctx v k) w .exception → w.reads v k = .code

section

variable {S : Setting Op Reply World} {op : Op} {w w' : World} {h : List (Event Op Reply)}
  {ctx : Ctx} {p q : Ptr} {v : JSValue} {k : PropKey} {α : Type} {a : α}

theorem Unmoved.of_evolves (evolves : Evolves w w') : Unmoved w w' := by
  rw [evolves.rest]
  exact ⟨.refl _, rfl, rfl, rfl, rfl, rfl⟩

theorem rises_answers (genuine : Genuine S) {r : Reply op}
    (answered : env.answers S op w r w') : Rises w w' := by
  obtain ⟨-, ⟨-, own⟩ | ⟨-, w₁, between, returned⟩⟩ := answered
  · exact .of_frame (frame_direct own)
  · have evolves := genuine.evolves w w₁ between
    exact (Unmoved.of_evolves evolves).rises.trans (.of_frame (frame_back returned))

theorem rises_run {p : Action α} {out : Except DartError α} (genuine : Genuine S)
    (run : Exec (env.answers S) p w h out w') : Rises w w' := by
  induction run with
  | done a w => exact .refl w
  | fail e w => exact .refl w
  | ask answered rest ih => exact (rises_answers genuine answered).trans ih

theorem balances_credit (w : World) (v : JSValue) :
    Balances ctx (Pi.single v 1) False w (w.credit v) where
  cstrings := rfl
  tables := rfl
  atoms := rfl
  held u _ := by
    by_cases same : u = v
    · simp [World.credit, same]
    · simp [World.credit, same]
  pending := by simp [World.credit]

theorem balances_debit (w : World) (v : JSValue) :
    Balances ctx (-Pi.single v 1) False w (w.debit v) where
  cstrings := rfl
  tables := rfl
  atoms := rfl
  held u _ := by
    by_cases same : u = v
    · simp [World.debit, same, Int.sub_eq_add_neg]
    · simp [World.debit, same]
  pending := by simp [World.debit]

theorem balances_throwing (w : World) (e : JSValue) :
    Balances ctx 0 True w (w.throwing ctx e) where
  cstrings := rfl
  tables := rfl
  atoms := rfl
  held u _ := by simp [World.throwing]
  pending := by simp [World.throwing]

theorem drift_isArray {r : Int32} (answered : env.answers S (.isArray ctx v) w r w') :
    Drift ctx [⟨.isArray ctx v,r⟩] 0 True w w' := by
  obtain ⟨-, ⟨-, own⟩ | ⟨-, w₁, between, returned⟩⟩ := answered
  · have balances : Balances ctx 0 (r = -1) w w' := by
      obtain ⟨other, rfl⟩ | ⟨same, e, rfl⟩ := direct_isArray own
      · exact (Unmoved.balances ⟨.refl _, rfl, rfl, rfl, rfl, rfl⟩).congr (fun _ _ => rfl)
          (by simp [other])
      · exact (balances_throwing w e).congr (fun _ _ => rfl) (by simp [same])
    refine .of_balances (.of_frame (frame_direct own)) (balances.congr (fun _ _ => ?_) ?_) ?_
    · simp [keeps]
    · simp [Failed]
    · simp [Bare]
  · exact returned.elim

/-- What a property read gains. -/
theorem balances_getProperty (genuine : Genuine S) {r : JSValue}
    (answered : env.answers S (.getProperty ctx v k) w r w') :
    Balances ctx (Pi.single r 1) (r = .exception) w w' := by
  obtain ⟨allowed, ⟨-, own⟩ | ⟨-, w₁, between, returned⟩⟩ := answered
  · obtain ⟨read, rfl⟩ := direct_getProperty own
    have other : r ≠ .exception := by
      intro same
      rw [same] at allowed read
      rw [genuine.reads ctx v k w allowed] at read
      cases read
    exact (balances_credit w r).congr (fun _ _ => rfl) (by simp [other])
  · have before : Balances ctx 0 False w w₁ :=
      (Unmoved.of_evolves (genuine.evolves w w₁ between)).balances
    obtain ⟨rfl, e, rfl⟩ | ⟨other, rfl⟩ := returned
    · refine (before.trans (balances_throwing w₁ e)).congr (fun u counted => ?_) (by simp)
      have other : u ≠ .exception := by
        intro same
        rw [same] at counted
        exact counted
      simp [other]
    · exact (before.trans (balances_credit w₁ r)).congr (fun _ _ => by simp) (by simp [other])

theorem answers_toInt32 (genuine : Genuine S) {r : Int32}
    (answered : env.answers S (.toInt32 ctx v) w r w') :
    w'.held = w.held ∧ (¬Counted v → w' = w) := by
  obtain ⟨-, ⟨-, own⟩ | ⟨runs, w₁, between, returned⟩⟩ := answered
  · rw [direct_toInt32 own]
    exact ⟨rfl, fun _ => rfl⟩
  · have same := (Unmoved.of_evolves (genuine.evolves w w₁ between)).held
    refine ⟨?_, fun uncounted => ?_⟩
    · obtain rfl | ⟨-, e, rfl⟩ := returned
      · exact same
      · exact same
    · cases v with
      | exception => exact absurd rfl runs.1
      | string s => exact absurd trivial uncounted
      | symbol s => exact absurd trivial uncounted
      | bigInt n => exact absurd trivial uncounted
      | object o => exact absurd trivial uncounted
      | _ => exact absurd runs.2 (Option.some_ne_none _)

/-- A C string came back. -/
theorem loud_toCString (genuine : Genuine S) {bytes : CString}
    (answered : env.answers S (.toCString ctx v) w (some bytes) w') : Loud w w' := by
  have lent : ∀ (w : World) s, w.cstrings s < (w.lendCString s).cstrings s := by
    intro w s
    simp [World.lendCString]
  left
  obtain ⟨-, ⟨-, own⟩ | ⟨-, w₁, between, returned⟩⟩ := answered
  · obtain ⟨s, -, -, rfl⟩ | ⟨bad, -⟩ := direct_toCString own
    · exact ⟨s, lent w s⟩
    · cases bad
  · obtain ⟨s, -, rfl⟩ | ⟨bad, -⟩ := returned
    · refine ⟨s, ?_⟩
      have same := (Unmoved.of_evolves (genuine.evolves w w₁ between)).cstrings
      rw [← same]
      exact lent w₁ s
    · cases bad

theorem still_load (p : Ptr) (v : JSValue) : Still ⟨.load p,v⟩ := ⟨trivial, rfl, id⟩

theorem Unmoved.refl (w : World) : Unmoved w w := ⟨.refl _, rfl, rfl, rfl, rfl, rfl⟩

/-- A value is looked at. -/
theorem Drift.look {e : JSValue → Int} {c : Prop} (p : Ptr) (v : JSValue)
    (rest : Drift ctx h e c w w') : Drift ctx (⟨.load p,v⟩ :: h) e c w w' :=
  .skip (still_load p v) rest (.refl w)

theorem run_jsGetProperty (genuine : Genuine S)
    (run : Exec (env.answers S) (jsGetProperty ctx p k) w h (.ok q) w') :
    ∃ r n, q = .box n ∧ w'.boxes[n]? = some r ∧ Rises w w' ∧
      Balances ctx (Pi.single r 1) (r = .exception) w w' ∧ kept h = 0 ∧
      (AllBare h ↔ Bare ⟨.getProperty ctx (w.value p) k,r⟩) ∧ (Fails h ↔ r = .exception) := by
  have rises := rises_run genuine run
  obtain ⟨h₁, run₁, rfl⟩ := run_answered (.load p) rfl run
  obtain ⟨r, w₁, h₂, h₃, asked, boxed, rfl⟩ := Exec.bind_ok run₁
  obtain ⟨answered, rfl⟩ := Exec.call_iff.mp asked
  obtain ⟨answered', rfl⟩ := Exec.call_iff.mp boxed
  obtain ⟨rfl, rfl⟩ := answers_known rfl answered'
  have new : Balances ctx 0 False w₁ { w₁ with boxes := w₁.boxes ++ [r] } :=
    Unmoved.balances ⟨.append _ _, rfl, rfl, rfl, rfl, rfl⟩
  have gained := (balances_getProperty genuine answered).trans new
  refine ⟨r, w₁.boxes.length, rfl, by simp, rises, ?_, ?_, ?_, ?_⟩
  · exact gained.congr (fun _ _ => by simp) (by simp)
  · simp [keeps]
  · simp [Bare]
  · simp [Failed]

theorem run_jsFreeValue {u : Unit}
    (run : Exec (env.answers S) (jsFreeValue p) w h (.ok u) w') :
    Drift ctx h (-Pi.single (w.value p) 1) True w w' := by
  obtain ⟨h₁, run₁, rfl⟩ := run_answered (.load p) rfl run
  obtain ⟨h₂, run₂, rfl⟩ := run_answered (.freeValue (w.value p)) rfl run₁
  obtain ⟨answered, rfl⟩ := Exec.call_iff.mp run₂
  obtain ⟨-, rfl⟩ := answers_known rfl answered
  have balances : Balances ctx (-Pi.single (w.value p) 1) False w (w.debit (w.value p)) :=
    balances_debit w (w.value p)
  have last : Drift ctx [⟨.delete p,u⟩] 0 True (w.debit (w.value p))
      { w.debit (w.value p) with released := w.released ++ [p] } :=
    .last ⟨trivial, rfl, id⟩ ⟨.refl _, rfl, rfl, rfl, rfl, rfl⟩
  have rises : Rises w (w.debit (w.value p)) := ⟨.refl _, fun _ => le_rfl, le_rfl⟩
  have freed := Drift.step (x := ⟨.freeValue (w.value p),()⟩) ⟨trivial, rfl, id⟩ rises balances last
  exact (Drift.look p _ freed).congr (by simp) Iff.rfl

theorem run_jsIsArray {f : Int32 → Action α}
    (run : Exec (env.answers S) (jsIsArray ctx p >>= f) w h (.ok a) w') :
    ∃ r w₁ h₁ h₂, Exec (env.answers S) (jsIsArray ctx p) w h₁ (.ok r) w₁ ∧
      Drift ctx h₁ 0 True w w₁ ∧ Exec (env.answers S) (f r) w₁ h₂ (.ok a) w' ∧ h = h₁ ++ h₂ := by
  obtain ⟨r, w₁, h₁, h₂, asked, rest, rfl⟩ := Exec.bind_ok run
  refine ⟨r, w₁, h₁, h₂, asked, ?_, rest, rfl⟩
  obtain ⟨h₃, asked', rfl⟩ := run_answered (.load p) rfl asked
  obtain ⟨answered, rfl⟩ := Exec.call_iff.mp asked'
  exact .look p _ (drift_isArray answered)

/-- Wrapping a value takes nothing from the engine. -/
theorem run_toDartJSValue {j : JSRef}
    (run : Exec (env.answers S) (toDartJSValue ctx p false) w h (.ok j) w') :
    j.ctx = ctx ∧ j.val = p ∧ Drift ctx h 0 True w w' := by
  have made : ∀ cls w h, Exec (env.answers S) (JSRef.make cls ctx p false) w h (.ok j) w' →
      j.ctx = ctx ∧ j.val = p ∧ Drift ctx h 0 True w w' := by
    intro cls w h run
    rw [JSRef.make] at run
    by_cases function : cls = .function
    · simp only [function, if_true] at run
      obtain ⟨h₁, run₁, rfl⟩ := run_answered (.jsFunctions ctx) rfl run
      obtain ⟨h₂, run₂, rfl⟩ := run_answered (.setJSFunctions ctx _) rfl run₁
      obtain ⟨rfl, ended, rfl⟩ := Exec.done_iff.mp run₂
      cases ended
      refine ⟨rfl, rfl, .skip ⟨trivial, rfl, id⟩ ?_ (.refl w)⟩
      exact .last ⟨trivial, rfl, id⟩ ⟨.refl _, rfl, rfl, rfl, rfl, rfl⟩
    · simp only [function, if_false] at run
      obtain ⟨rfl, ended, rfl⟩ := Exec.done_iff.mp run
      cases ended
      exact ⟨rfl, rfl, .refl _⟩
  rw [toDartJSValue] at run
  obtain ⟨h₁, run₁, rfl⟩ := run_answered (.load p) rfl run
  by_cases function : (w.value p).isFunction
  · change Exec _ (if (w.value p).isFunction then _ else _) w h₁ _ _ at run₁
    rw [if_pos function] at run₁
    obtain ⟨ctxIs, valIs, drift⟩ := made _ _ _ run₁
    exact ⟨ctxIs, valIs, .look p _ drift⟩
  · change Exec _ (if (w.value p).isFunction then _ else _) w h₁ _ _ at run₁
    rw [if_neg function] at run₁
    obtain ⟨r, w₁, h₂, h₃, -, quiet, run₂, rfl⟩ := run_jsIsArray run₁
    have rest : j.ctx = ctx ∧ j.val = p ∧ Drift ctx h₃ 0 True w₁ w' := by
      by_cases array : r ≠ 0
      · rw [if_pos array] at run₂
        exact made _ _ _ run₂
      · rw [if_neg array] at run₂
        obtain ⟨h₄, run₃, rfl⟩ := run_answered (.load p) rfl run₂
        have last : j.ctx = ctx ∧ j.val = p ∧ Drift ctx h₄ 0 True w₁ w' := by
          change Exec _ (if (w₁.value p).tag == JSTag.OBJECT then _ else _) w₁ h₄ _ _ at run₃
          by_cases object : (w₁.value p).tag == JSTag.OBJECT
          · rw [if_pos object] at run₃
            exact made _ _ _ run₃
          · rw [if_neg object] at run₃
            exact made _ _ _ run₃
        exact ⟨last.1, last.2.1, .look p _ last.2.2⟩
    obtain ⟨ctxIs, valIs, drift⟩ := rest
    exact ⟨ctxIs, valIs, .look p _ ((quiet.trans drift).congr (by simp) (by simp))⟩

end

end FlutterQuickjs.Release
