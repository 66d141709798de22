import FlutterQuickjs.Binding.Instance
import FlutterQuickjs.Binding.Lists
import FlutterQuickjs.Binding.Reading
import FlutterQuickjs.Binding.Scripted
import FlutterQuickjs.Binding.Frame
import FlutterQuickjs.Framework.Watch
import FlutterQuickjs.Release.Terms

namespace FlutterQuickjs.Conversion

open Engine Binding ValueConverter
open Effect

/-- A cache, an object that was converted with it, and the Dart value the object has there. -/
abbrev Entered := Nat × ObjRef × DartVal

/-- What went into caches and what was found there. -/
structure Memo where
  puts : List Entered
  hits : List Entered
deriving DecidableEq

/-- The memo after one more operation. -/
def Memo.note (g : Memo) : Event Op Reply → Memo
  | ⟨.cachePut c o d,_⟩ => { g with puts := (c,o,d) :: g.puts }
  | ⟨.cacheFind c o,some d⟩ => { g with hits := (c,o,d) :: g.hits }
  | _ => g

/-- Whatever was found for an object had been put there for that object, and no two objects were
given one Dart container. -/
structure Memo.Sound (g : Memo) : Prop where
  hits : ∀ e ∈ g.hits, e ∈ g.puts
  apart : ∀ e ∈ g.puts, ∀ e' ∈ g.puts, e.2.2 = e'.2.2 → e = e'

/-- The object that is looked up, and those that are in the cache, are alive. -/
def Alive : Op → World × Memo → Prop
  | .cacheFind c o, s => s.1.heap.Live o ∧ ∀ e ∈ s.2.puts, e.1 = c → s.1.heap.Live e.2.1
  | _, _ => True

/-- Runs in which cached objects are alive whenever the cache is looked into. -/
def careful (rely : World → World → Prop) : Setting Op Reply (World × Memo) :=
  { (Setting.plain rely False : Setting Op Reply World).watch Memo with
    allowed := fun op s _ => Alive op s }

/-- What foreign code leaves alone: the caches of running conversions. It may convert values, too. -/
structure Separate (w w' : World) : Prop where
  caches : Keeps w.caches w'.caches
  lists : w.lists.length ≤ w'.lists.length
  maps : w.maps.length ≤ w'.maps.length

/-- The container is there. -/
def Made (w : World) : DartVal → Prop
  | .list l => l < w.lists.length
  | .map m => m < w.maps.length
  | _ => False

/-- During a conversion with the cache `c` the memo has everything that is in it. -/
structure Memoized (c : Nat) (s : World × Memo) : Prop where
  present : c < s.1.caches.length
  noted : ∀ a d, (s.1.caches.getD c .empty).find a = some d →
    ∃ o : ObjRef, o.address = a ∧ (c,o,d) ∈ s.2.puts
  own : ∀ e ∈ s.2.puts, e.1 = c
  made : ∀ e ∈ s.2.puts, Made s.1 e.2.2
  sound : s.2.Sound

section

variable {rely : World → World → Prop} {op : Op} {r : Reply op} {s s' : World × Memo} {c : Nat}
  {w w' : World} {g : Memo}

theorem careful_answers : (env.watch Memo.note).answers (careful rely) op s r s' ↔
    Alive op s ∧ env.answers (.plain rely False) op s.1 r s'.1 ∧ s'.2 = s.2.note ⟨op,r⟩ := by
  constructor
  · intro ⟨alive, answered⟩
    have seen : (env.watch Memo.note).answers ((Setting.plain rely False).watch Memo) op s r s' :=
      ⟨trivial, answered⟩
    exact ⟨alive, watch_answers.mp seen⟩
  · intro ⟨alive, seen⟩
    exact ⟨alive, (watch_answers.mpr seen).2⟩

/-- The memo at the end of a run is what its history makes of the one at its start. -/
theorem noted_of_run {α : Type} {p : Action α} {h : List (Event Op Reply)}
    {out : Except DartError α} (run : Exec ((env.watch Memo.note).answers (careful rely)) p s h out s') :
    s'.2 = h.foldl Memo.note s.2 := by
  induction run with
  | done a s => simp
  | fail e s => simp
  | ask answered rest ih =>
    obtain ⟨-, -, saw⟩ := careful_answers.mp answered
    rw [ih, saw, List.foldl_cons]

theorem Separate.of_evolves (evolves : Evolves w w') : Separate w w' := by
  refine ⟨?_, evolves.lengths.1, evolves.lengths.2⟩
  rw [evolves.rest]
  exact .refl _

theorem Separate.of_frame (steady : Steady op w w') (frame : Frame op w w') (lists : ¬Lists op)
    (fills : ¬Fills op) : Separate w w' := by
  refine ⟨?_, ?_, ?_⟩
  · rcases frame.caches fills with same | more
    · exact same ▸ .refl _
    · exact more ▸ .append _ _
  · rw [steady.lists lists]
  · rcases frame.maps fills with same | more
    · rw [same]
    · simp [more]

theorem Separate.trans {w'' : World} (first : Separate w w') (second : Separate w' w'') :
    Separate w w'' :=
  ⟨first.caches.trans second.caches, first.lists.trans second.lists, first.maps.trans second.maps⟩

/-- No operation but `cachePut` changes a cache that is there. -/
theorem separate_answers (separate : ∀ w w', rely w w' → Separate w w')
    (noPut : ∀ c o d, op ≠ .cachePut c o d)
    (answered : env.answers (.plain rely False) op w r w') : Separate w w' := by
  by_cases other : Lists op ∨ Fills op
  · cases op with
    | newList =>
      obtain ⟨-, rfl⟩ := Release.answers_known rfl answered
      exact ⟨.refl _, by simp, le_rfl⟩
    | listAdd l v =>
      obtain ⟨-, rfl⟩ := Release.answers_known rfl answered
      exact ⟨.refl _, by simp, le_rfl⟩
    | listDone l =>
      obtain ⟨-, rfl⟩ := Release.answers_known rfl answered
      exact ⟨.refl _, le_rfl, le_rfl⟩
    | mapPut m k v =>
      obtain ⟨-, rfl⟩ := Release.answers_known rfl answered
      exact ⟨.refl _, le_rfl, by simp⟩
    | cachePut c o d => exact absurd rfl (noPut c o d)
    | _ => exact (other.elim id id).elim
  · obtain ⟨lists, fills⟩ := not_or.mp other
    obtain ⟨-, ⟨-, own⟩ | ⟨-, w₁, between, returned⟩⟩ := answered
    · exact .of_frame (steady_direct own) (frame_direct own) lists fills
    · exact (separate w w₁ between).trans
        (.of_frame (steady_back returned) (frame_back returned) lists fills)

namespace Memoized

theorem of_separate (memoized : Memoized c (w,g)) (separate : Separate w w') :
    Memoized c (w',g) := by
  have present := memoized.present
  refine ⟨Nat.lt_of_lt_of_le present separate.caches.1, fun a d found => ?_, memoized.own,
    fun e member => ?_, memoized.sound⟩
  · rw [separate.caches.getD present] at found
    exact memoized.noted a d found
  · have made := memoized.made e member
    cases value : e.2.2 with
    | list l =>
      rw [value] at made
      exact Nat.lt_of_lt_of_le made separate.lists
    | map m =>
      rw [value] at made
      exact Nat.lt_of_lt_of_le made separate.maps
    | _ =>
      rw [value] at made
      exact made.elim

/-- A living object is found only if it is the one that was put there. -/
theorem hit (memoized : Memoized c (w,g)) {o : ObjRef} {d : DartVal}
    (alive : Alive (.cacheFind c o) (w,g))
    (found : (w.caches.getD c .empty).find o.address = some d) :
    Memoized c (w,{ g with hits := (c,o,d) :: g.hits }) := by
  obtain ⟨o', same, put⟩ := memoized.noted o.address d found
  have equal : o' = o := Heap.eq_of_address_eq (alive.2 _ put rfl) alive.1 same
  rw [equal] at put
  refine ⟨memoized.present, memoized.noted, memoized.own, memoized.made, ?_, memoized.sound.apart⟩
  intro e member
  rcases List.mem_cons.mp member with isNew | old
  · rw [isNew]
    exact put
  · exact memoized.sound.hits e old

/-- A new container is put into the cache for an object. -/
theorem put (memoized : Memoized c (w,g)) {o : ObjRef} {d : DartVal} (made : Made w d)
    (fresh : ∀ e ∈ g.puts, e.2.2 ≠ d) :
    Memoized c ({ w with caches := w.caches.modify c (·.insert o.address d) },
      { g with puts := (c,o,d) :: g.puts }) := by
  have present := memoized.present
  refine ⟨by simpa using present, fun a d' found => ?_, fun e member => ?_, fun e member => ?_, ?_, ?_⟩
  · rw [getD_modify_self present, OrderedMap.find_insert] at found
    by_cases same : a = o.address
    · rw [if_pos same] at found
      cases found
      exact ⟨o, same.symm, List.mem_cons_self ..⟩
    · rw [if_neg same] at found
      obtain ⟨o', isO, old⟩ := memoized.noted a d' found
      exact ⟨o', isO, List.mem_cons_of_mem _ old⟩
  · rcases List.mem_cons.mp member with isNew | old
    · rw [isNew]
    · exact memoized.own e old
  · have there : Made w e.2.2 := by
      rcases List.mem_cons.mp member with isNew | old
      · rw [isNew]
        exact made
      · exact memoized.made e old
    cases value : e.2.2 <;> rw [value] at there <;> exact there
  · intro e member
    exact List.mem_cons_of_mem _ (memoized.sound.hits e member)
  · intro e member e' member' same
    rcases List.mem_cons.mp member with isNew | old
    · rcases List.mem_cons.mp member' with isNew' | old'
      · rw [isNew, isNew']
      · rw [isNew] at same
        exact absurd same.symm (fresh e' old')
    · rcases List.mem_cons.mp member' with isNew' | old'
      · rw [isNew'] at same
        exact absurd same (fresh e old)
      · exact memoized.sound.apart e old e' old' same

end Memoized

/-- The program leaves the memo complete. -/
abbrev Memoizes (rely : World → World → Prop) (c : Nat) {α : Type} (p : Action α) : Prop :=
  Preserves (env.watch Memo.note) (careful rely) (fun s s' => Memoized c s → Memoized c s') p

/-- Operations on no cache that is in use. -/
def Outer : Op → Prop
  | .cachePut _ _ _ => False
  | .cacheFind _ _ => False
  | _ => True

theorem follows_memoized : Follows fun s s' : World × Memo => Memoized c s → Memoized c s' where
  refl _ := id
  trans first second := fun memoized => second (first memoized)

theorem memoizes_outer (separate : ∀ w w', rely w w' → Separate w w') {α : Type} {p : Action α}
    (within : p.Within Outer) : Memoizes rely c p := by
  refine .of_within follows_memoized (fun op outer => ?_) within
  refine .call (fun _ => trivial) id fun s r s' answered memoized => ?_
  obtain ⟨-, answered, saw⟩ := careful_answers.mp answered
  obtain ⟨w, g⟩ := s
  obtain ⟨w', g'⟩ := s'
  have same : g' = g := by
    refine saw.trans ?_
    cases op with
    | cachePut c o d => exact outer.elim
    | cacheFind c o => exact outer.elim
    | _ => rfl
  have noPut : ∀ c o d, op ≠ .cachePut c o d := by
    rintro c o d rfl
    exact outer
  rw [same]
  exact memoized.of_separate (separate_answers separate noPut answered)

theorem memoizes_cacheFind (o : ObjRef) : Memoizes rely c (perform (.cacheFind c o)) := by
  refine .call (fun _ => trivial) id fun s r s' answered memoized => ?_
  obtain ⟨alive, answered, saw⟩ := careful_answers.mp answered
  obtain ⟨w, g⟩ := s
  obtain ⟨w', g'⟩ := s'
  obtain ⟨found, rfl⟩ := Release.answers_known rfl answered
  cases r with
  | none =>
    have same : g' = g := saw
    rw [same]
    exact memoized
  | some d =>
    have more : g' = { g with hits := (c,o,d) :: g.hits } := saw
    rw [more]
    exact memoized.hit alive found.symm

/-- An operation whose answer follows from the world. -/
theorem wp_careful {op : Op} {a : Reply op × World} (known : answer op w = some a)
    {Q : Except DartError (Reply op) → World × Memo → Prop}
    (rest : Q (.ok a.1) (a.2, g.note ⟨op,a.1⟩)) :
    wp (env.watch Memo.note) (careful rely) (perform op) Q (w,g) := by
  refine ⟨trivial, False.elim, fun r s' answered => ?_⟩
  obtain ⟨-, answered, saw⟩ := careful_answers.mp answered
  obtain ⟨w', g'⟩ := s'
  obtain ⟨rfl, rfl⟩ := Release.answers_known known answered
  have same : g' = g.note ⟨op,a.1⟩ := saw
  rw [same]
  exact rest

/-- A new list goes into the cache at once. -/
theorem memoizes_newList {α : Type} {rest : Nat → Action α} (o : ObjRef)
    (each : ∀ l, Memoizes rely c (rest l)) : Memoizes rely c (do
      let list ← perform .newList
      perform (.cachePut c o (.list list))
      rest list) := by
  intro s
  obtain ⟨w, g⟩ := s
  rw [wp_bind]
  apply wp_careful rfl
  rw [andThen_ok, wp_bind]
  apply wp_careful rfl
  rw [andThen_ok]
  refine wp_mono (each _ _) fun out s after memoized => after ?_
  have made : Separate w { w with
      lists := w.lists ++ [[]], building := w.lists.length :: w.building } :=
    ⟨.refl _, by simp, le_rfl⟩
  refine (memoized.of_separate made).put (by simp [Made]) fun e member same => ?_
  have there := memoized.made e member
  rw [same] at there
  exact Nat.lt_irrefl _ there

/-- A new map goes into the cache before its object is enumerated. -/
theorem memoizes_newMap {α : Type} {rest : Nat → Nat → Nat → Action α} (o : ObjRef)
    (each : ∀ m ptab plen, Memoizes rely c (rest m ptab plen)) : Memoizes rely c (do
      let map ← perform .newMap
      let ptab ← perform .callocCell
      let plen ← perform .callocCell
      perform (.cachePut c o (.map map))
      rest map ptab plen) := by
  intro s
  obtain ⟨w, g⟩ := s
  rw [wp_bind]
  apply wp_careful rfl
  rw [andThen_ok, wp_bind]
  apply wp_careful rfl
  rw [andThen_ok, wp_bind]
  apply wp_careful rfl
  rw [andThen_ok, wp_bind]
  apply wp_careful rfl
  rw [andThen_ok]
  refine wp_mono (each _ _ _ _) fun out s after memoized => after ?_
  have made : Separate w { w with
      maps := w.maps ++ [.empty], cells := w.cells ++ [0] ++ [0] } :=
    ⟨.refl _, le_rfl, by simp⟩
  refine (memoized.of_separate made).put (by simp [Made]) fun e member same => ?_
  have there := memoized.made e member
  rw [same] at there
  exact Nat.lt_irrefl _ there

end

section

variable {rely : World → World → Prop} (separate : ∀ w w', rely w w' → Separate w w') {c : Nat}
  {ctx : Ctx} {val : Ptr} {convert : JSRef → Action DartVal}

theorem outer_of_releasing {op : Op} (releasing : Releasing op) : Outer op := by
  cases op with
  | cachePut c o d => exact releasing.elim
  | cacheFind c o => exact releasing.elim
  | _ => trivial

theorem outer_of_looking {op : Op} (looking : Looking op) : Outer op :=
  outer_of_releasing looking.releasing

theorem outer_mapKey (v : DartVal) : (mapKey v).Within Outer := by
  cases v with
  | string s => exact .pure _
  | null => exact .pure _
  | _ => exact .throw _

include separate

theorem memoizes_releasing {α : Type} {p : Action α} (within : p.Within Releasing) :
    Memoizes rely c p :=
  memoizes_outer separate (.mono within fun _ => outer_of_releasing)

theorem memoizes_looking {α : Type} {p : Action α} (within : p.Within Looking) :
    Memoizes rely c p :=
  memoizes_outer separate (.mono within fun _ => outer_of_looking)

theorem memoizes_call {op : Op} (outer : Outer op) : Memoizes rely c (perform op) :=
  memoizes_outer separate (.call outer)

theorem memoizes_toDartValueFromJs (each : ∀ jval, Memoizes rely c (convert jval)) :
    Memoizes rely c (toDartValueFromJs convert ctx val) :=
  .bind follows_memoized (memoizes_looking separate within_toDartJSValue) each

theorem memoizes_arrayLoop (each : ∀ jval, Memoizes rely c (convert jval)) (list rounds i : Nat) :
    Memoizes rely c (arrayLoop convert ctx val list rounds i) := by
  have follows := follows_memoized (c := c)
  induction rounds generalizing i with
  | zero => exact .pure follows _
  | succ rounds ih =>
    refine .bind follows (memoizes_looking separate within_jsGetProperty) fun p => ?_
    refine .bind follows (memoizes_looking separate within_toDartJSValue) fun jval => ?_
    refine .bind follows (each jval) fun element => ?_
    refine .bind follows (memoizes_call separate trivial) fun _ => ?_
    refine .bind follows (memoizes_call separate trivial) fun found => ?_
    cases found with
    | none => exact .throw follows _
    | some v =>
      cases v with
      | hostFunction f => exact ih (i+1)
      | _ => exact .bind follows (memoizes_releasing separate within_jsFreeValue) fun _ => ih (i+1)

theorem memoizes_mapLoop (each : ∀ jval, Memoizes rely c (convert jval)) (map table rounds i : Nat) :
    Memoizes rely c (mapLoop convert ctx val map table rounds i) := by
  have follows := follows_memoized (c := c)
  induction rounds generalizing i with
  | zero => exact .pure follows _
  | succ rounds ih =>
    refine .bind follows (memoizes_call separate trivial) fun atom => ?_
    refine .bind follows (memoizes_looking separate within_jsAtomToValue) fun atomValue => ?_
    refine .bind follows (memoizes_looking separate within_jsGetProperty) fun prop => ?_
    refine .bind follows (memoizes_toDartValueFromJs separate each) fun key => ?_
    refine .bind follows (memoizes_toDartValueFromJs separate each) fun value => ?_
    refine .bind follows (memoizes_outer separate (outer_mapKey key)) fun k => ?_
    refine .bind follows (memoizes_call separate trivial) fun _ => ?_
    refine .bind follows (memoizes_releasing separate within_jsFreeValue) fun _ => ?_
    refine .bind follows (memoizes_releasing separate within_freeUnlessFunction) fun _ => ?_
    exact .bind follows (memoizes_call separate trivial) fun _ => ih (i+1)

variable [PackageFfi]

theorem memoizes_objectValue (each : ∀ jval, Memoizes rely c (convert jval)) (valptr : ObjRef) :
    Memoizes rely c (objectValue convert ctx val valptr c) := by
  have follows := follows_memoized (c := c)
  refine .bind follows (memoizes_cacheFind valptr) fun found => ?_
  cases found with
  | some cached => exact .pure follows _
  | none =>
    refine .bind follows (memoizes_looking separate within_jsIsFunction) fun function => ?_
    refine .ite (.bind follows (memoizes_call separate trivial) fun _ => .pure follows _) ?_
    refine .bind follows (memoizes_looking separate within_jsIsArray) fun array => .ite ?_ ?_
    · rw [jsGetPropertyStr_length]
      refine .bind follows (memoizes_looking separate within_jsGetProperty) fun p => ?_
      refine .bind follows (memoizes_looking separate within_jsToInt32) fun length => ?_
      refine memoizes_newList valptr fun list => ?_
      refine .bind follows (memoizes_arrayLoop separate each list _ 0) fun _ => ?_
      exact .bind follows (memoizes_call separate trivial) fun _ => .pure follows _
    · refine memoizes_newMap valptr fun map ptab plen => ?_
      refine .bind follows (memoizes_looking separate within_jsGetOwnPropertyNames) fun code => ?_
      have last : Memoizes rely c (do
          perform (.callocFreeCell ptab)
          perform (.callocFreeCell plen)
          return .map map : Action DartVal) :=
        .bind follows (memoizes_call separate trivial) fun _ =>
          .bind follows (memoizes_call separate trivial) fun _ => .pure follows _
      refine .ite ?_ last
      refine .bind follows (memoizes_call separate trivial) fun length => ?_
      refine .bind follows (memoizes_call separate trivial) fun table => ?_
      exact .bind follows (memoizes_mapLoop separate each map table length 0) fun _ => last

end

section

variable {rely : World → World → Prop} {α β : Type}

/-- Started with an empty memo, the program leaves a sound one. -/
def Starts (rely : World → World → Prop) {α : Type} (p : Action α) : Prop :=
  ∀ w, wp (env.watch Memo.note) (careful rely) p (fun _ s => s.2.Sound) (w,⟨[],[]⟩)

theorem sound_empty : Memo.Sound ⟨[],[]⟩ := ⟨by simp, by simp⟩

namespace Starts

theorem bind {p : Action α} {f : α → Action β} (within : p.Within Outer)
    (rest : ∀ a, Starts rely (f a)) : Starts rely (p >>= f) := by
  intro w
  induction p generalizing w with
  | done a => exact rest a w
  | fail e => exact sound_empty
  | ask op k ih =>
    refine ⟨trivial, False.elim, fun r s answered => ?_⟩
    obtain ⟨-, -, saw⟩ := careful_answers.mp answered
    obtain ⟨w', g⟩ := s
    have same : g = ⟨[],[]⟩ := by
      refine saw.trans ?_
      have outer := within.1
      cases op with
      | cachePut c o d => exact outer.elim
      | cacheFind c o => exact outer.elim
      | _ => rfl
    rw [same]
    exact ih r (within.2 r) w'

theorem of_outer {p : Action α} (within : p.Within Outer) : Starts rely p := by
  have same : p = p >>= fun a => pure a := by
    rw [Program.bind_eq]
    induction p with
    | done a => rfl
    | fail e => rfl
    | ask op k ih => exact congrArg (Program.ask op) (funext fun r => ih r (within.2 r))
  rw [same]
  exact .bind within fun a w => sound_empty

theorem ite {c : Prop} [Decidable c] {p q : Action α} (yes : Starts rely p) (no : Starts rely q) :
    Starts rely (if c then p else q) := by
  by_cases hc : c
  · simpa [hc] using yes
  · simpa [hc] using no

/-- A new cache is empty, as the memo is. -/
theorem newCache {rest : Nat → Action α} (o : ObjRef) (each : ∀ c, Memoizes rely c (rest c)) :
    Starts rely (perform (.newCache o) >>= rest) := by
  intro w
  rw [wp_bind]
  apply wp_careful rfl
  rw [andThen_ok]
  refine wp_mono (each _ _) fun out s after => (after ?_).sound
  refine ⟨by simp, fun a d found => ?_, by simp [Memo.note], by simp [Memo.note], sound_empty⟩
  rw [getD_append_self] at found
  cases found

end Starts

variable [PackageFfi]

theorem memoizes_toDartValue (separate : ∀ w w', rely w w' → Separate w w') {c : Nat} (fuel : Nat)
    (jval : JSRef) : Memoizes rely c (toDartValue fuel jval (some c)) := by
  have follows := follows_memoized (c := c)
  induction fuel generalizing jval with
  | zero => exact .throw follows _
  | succ fuel ih =>
    refine .bind follows (memoizes_looking separate within_jsValueGetTag) fun tag => ?_
    refine .ite (.bind follows (memoizes_looking separate within_jsToInt64) fun _ => .pure follows _) ?_
    refine .ite (.bind follows (memoizes_looking separate within_jsToBool) fun _ => .pure follows _) ?_
    refine .ite (.pure follows _) (.ite ?_ ?_)
    · refine .bind follows (memoizes_looking separate within_jsGetException) fun exception => ?_
      refine .bind follows (memoizes_releasing separate within_toDartException) fun message => ?_
      exact .bind follows (memoizes_releasing separate within_jsFreeValue) fun _ => .pure follows _
    refine .ite (.bind follows (memoizes_looking separate within_jsToFloat64) fun _ => .pure follows _) ?_
    refine .ite ?_ (.ite ?_ (.bind follows (memoizes_call separate trivial) fun _ => .pure follows _))
    · refine .bind follows (memoizes_looking separate within_jsToCString) fun bytes => ?_
      exact .bind follows (memoizes_looking separate (within_dartString bytes)) fun _ => .pure follows _
    · refine .bind follows (memoizes_looking separate within_jsValueGetPtr) fun valptr => ?_
      exact memoizes_objectValue separate ih valptr

theorem starts_toDartValue (separate : ∀ w w', rely w w' → Separate w w') (fuel : Nat)
    (jval : JSRef) : Starts rely (toDartValue fuel jval none) := by
  cases fuel with
  | zero => exact .of_outer (.throw _)
  | succ fuel =>
    refine .bind (.mono within_jsValueGetTag fun _ => outer_of_looking) fun tag => ?_
    refine .ite (.bind (.mono within_jsToInt64 fun _ => outer_of_looking) fun _ => ?_) ?_
    · exact .of_outer (.pure _)
    refine .ite (.bind (.mono within_jsToBool fun _ => outer_of_looking) fun _ => ?_) ?_
    · exact .of_outer (.pure _)
    refine .ite (.of_outer (.pure _)) (.ite ?_ ?_)
    · refine .bind (.mono within_jsGetException fun _ => outer_of_looking) fun exception => ?_
      refine .bind (.mono within_toDartException fun _ => outer_of_releasing) fun message => ?_
      exact .bind (.mono within_jsFreeValue fun _ => outer_of_releasing) fun _ => .of_outer (.pure _)
    refine .ite (.bind (.mono within_jsToFloat64 fun _ => outer_of_looking) fun _ => ?_) ?_
    · exact .of_outer (.pure _)
    refine .ite ?_ (.ite ?_ (.bind (.call trivial) fun _ => .of_outer (.pure _)))
    · refine .bind (.mono within_jsToCString fun _ => outer_of_looking) fun bytes => ?_
      refine .bind (.mono (within_dartString bytes) fun _ => outer_of_looking) fun _ => ?_
      exact .of_outer (.pure _)
    · refine .bind (.mono within_jsValueGetPtr fun _ => outer_of_looking) fun valptr => ?_
      exact .newCache valptr fun c =>
        memoizes_objectValue separate (fun jval => memoizes_toDartValue separate fuel jval) valptr

/-- No run of a conversion, whatever foreign code does to JS and Dart objects meanwhile, takes one
JS object for another. -/
def CacheSound (rely : World → World → Prop) : Prop :=
  ∀ fuel ctx val w h out w', Exec (env.answers (.plain rely False))
      (toDartValueFromJs (fun jval => toDartValue fuel jval none) ctx val) w h out w' →
    (h.foldl Memo.note ⟨[],[]⟩).Sound

/-- In every run in which the objects in the cache are alive whenever it is looked into, what is
found is the Dart value of the very object, and no two objects share a container. -/
theorem sound_of_alive (separate : ∀ w w', rely w w' → Separate w w') {fuel : Nat} {ctx : Ctx}
    {val : Ptr} {w : World} {h : List (Event Op Reply)} {out : Except DartError DartVal}
    {s : World × Memo} (run : Exec ((env.watch Memo.note).answers (careful rely))
      (toDartValueFromJs (fun jval => toDartValue fuel jval none) ctx val) (w,⟨[],[]⟩) h out s) :
    (h.foldl Memo.note ⟨[],[]⟩).Sound := by
  have starts : Starts rely (toDartValueFromJs (fun jval => toDartValue fuel jval none) ctx val) :=
    .bind (.mono within_toDartJSValue fun _ => outer_of_looking) fun jval =>
      starts_toDartValue separate fuel jval
  rw [← noted_of_run run]
  exact wp_sound (starts w) run

end

/-- An object with two getters. -/
def pairRef : ObjRef := ⟨1,0,.ordinary⟩

def getterRef : ObjRef := ⟨2,1,.function⟩

def gettersHeap : Heap :=
  (World.initial.heap.put pairRef
    ⟨(OrderedMap.empty.insert (.string (units "a")) (.accessor (some getterRef) none true true)).insert
      (.string (units "b")) (.accessor (some getterRef) none true true), none, true, 0, true, some 0⟩).put getterRef
    (.bare none)

def gettersWorld : World :=
  { World.initial with
    boxes := [.object pairRef]
    heap := gettersHeap
    serial := 2 }

/-- The object that the getter makes at its first call, and the one at its second: the first was
freed by then, and the second has its address. -/
def firstRef : ObjRef := ⟨5,2,.ordinary⟩

def secondRef : ObjRef := ⟨5,3,.ordinary⟩

def firstWorld (w : World) : World :=
  { w with heap := gettersHeap.put firstRef (.bare none), serial := 3 }

def secondWorld (w : World) : World :=
  { w with heap := gettersHeap.put secondRef (.bare none), serial := 4 }

def newObjects : (op : Op) → World → Option (Reply op × World)
  | .getProperty _ v k, w =>
    if w.reads v k ≠ .code then none
    else if w.heap.objects = gettersHeap.objects ∧ w.serial = 2 then
      some (.object firstRef, (firstWorld w).credit (.object firstRef))
    else if w.heap.objects = (firstWorld w).heap.objects ∧ w.serial = 3 ∧
        w.held (.object firstRef) ≤ 0 then
      some (.object secondRef, (secondWorld w).credit (.object secondRef))
    else none
  | _, _ => none

theorem live_of_objects {h h' : Heap} (same : h.objects = h'.objects) (o : ObjRef) :
    h.Live o ↔ h'.Live o := by
  rw [Heap.Live, same, Heap.Live]

theorem live_first {o : ObjRef} : (gettersHeap.put firstRef (.bare none)).Live o ↔
    gettersHeap.Live o ∨ o = firstRef := by
  have free : ¬gettersHeap.Taken firstRef.address := by decide
  have dead : ¬gettersHeap.Live firstRef := by decide
  rw [Heap.Live, Heap.keys_put (.inr free), if_neg dead]
  simp [Heap.Live]

theorem live_second {o : ObjRef} : (gettersHeap.put secondRef (.bare none)).Live o ↔
    gettersHeap.Live o ∨ o = secondRef := by
  have free : ¬gettersHeap.Taken secondRef.address := by decide
  have dead : ¬gettersHeap.Live secondRef := by decide
  rw [Heap.Live, Heap.keys_put (.inr free), if_neg dead]
  simp [Heap.Live]

theorem evolves_first {w : World} (same : w.heap.objects = gettersHeap.objects)
    (serial : w.serial = 2) : Evolves w (firstWorld w) where
  rest := rfl
  serial := by simp [firstWorld, serial]
  kept o _ live := live_first.mpr (.inl ((live_of_objects same o).mp live))
  fresh o live := by
    rcases live_first.mp live with old | rfl
    · exact .inl ((live_of_objects same o).mpr old)
    · exact .inr (by simp [firstWorld, serial, firstRef])
  lists _ _ := rfl
  lengths := ⟨le_rfl, le_rfl⟩

theorem evolves_second {w : World} (same : w.heap.objects = (firstWorld w).heap.objects)
    (serial : w.serial = 3) (released : w.held (.object firstRef) ≤ 0) :
    Evolves w (secondWorld w) where
  rest := rfl
  serial := by simp [secondWorld, serial]
  kept o held live := by
    rcases live_first.mp ((live_of_objects same o).mp live) with old | rfl
    · exact live_second.mpr (.inl old)
    · omega
  fresh o live := by
    rcases live_second.mp live with old | rfl
    · exact .inl ((live_of_objects same o).mpr (live_first.mpr (.inl old)))
    · exact .inr (by simp [secondWorld, serial, secondRef])
  lists _ _ := rfl
  lengths := ⟨le_rfl, le_rfl⟩

theorem newObjects_answers (op : Op) (w : World) (r : Reply op) (w' : World)
    (answered : (answer op w).or (newObjects op w) = some (r,w')) :
    env.answers (.plain Evolves False) op w r w' := by
  rcases Option.or_eq_some_iff.mp answered with known | ⟨-, replied⟩
  · obtain ⟨-, own⟩ := plain_known op w r w' known
    rcases own with own | ⟨runs, -⟩
    · exact ⟨trivial, .inl own⟩
    · exact absurd runs (own_of_answer known)
  · cases op with
    | getProperty ctx v k =>
      simp only [newObjects] at replied
      split at replied
      · cases replied
      · rename_i code
        have runs : foreign (.getProperty ctx v k) w := not_not.mp code
        split at replied
        · rename_i first
          cases replied
          exact ⟨trivial, .inr ⟨runs, firstWorld w, evolves_first first.1 first.2,
            .inr ⟨by simp, rfl⟩⟩⟩
        · split at replied
          · rename_i second
            cases replied
            exact ⟨trivial, .inr ⟨runs, secondWorld w,
              evolves_second second.1 second.2.1 second.2.2, .inr ⟨by simp, rfl⟩⟩⟩
          · cases replied
    | _ => cases replied

/-- The second object is taken for the first, and becomes the same Dart map. -/
theorem not_cacheSound :
    letI := PackageFfi.utf8
    ¬CacheSound Evolves := by
  let _ := PackageFfi.utf8
  intro sound
  obtain ⟨h, out, w', run, checked⟩ := Exec.of_check newObjects_answers
    (p := toDartValueFromJs (fun jval => toDartValue 2 jval none) 0 (.box 0)) (w := gettersWorld)
    (fun h _ => (h.foldl Memo.note ⟨[],[]⟩).hits = [(0,secondRef,.map 1)] ∧
      (h.foldl Memo.note ⟨[],[]⟩).puts = [(0,firstRef,.map 1),(0,pairRef,.map 0)]) (by decide)
  obtain ⟨hits, puts⟩ := of_decide_eq_true checked
  have inside := (sound 2 0 (.box 0) gettersWorld h out w' run).hits (0,secondRef,.map 1)
    (by simp [hits])
  rw [puts] at inside
  exact absurd inside (by decide)

def isAlive : Op → World × Memo → Bool
  | .cacheFind c o, s => decide (s.1.heap.Live o) &&
      s.2.puts.all fun e => e.1 ≠ c || decide (s.1.heap.Live e.2.1)
  | _, _ => true

theorem alive_of_isAlive {op : Op} {s : World × Memo} (checked : isAlive op s = true) :
    Alive op s := by
  cases op with
  | cacheFind c o =>
    obtain ⟨live, all⟩ := Bool.and_eq_true_iff.mp checked
    refine ⟨of_decide_eq_true live, fun e member same => ?_⟩
    have either := List.all_eq_true.mp all e member
    simpa [same] using either
  | _ => trivial

/-- The engine's own answers as the memo sees them, while what is looked up is alive. -/
def watched (op : Op) (s : World × Memo) : Option (Reply op × World × Memo) :=
  if isAlive op s then (answer op s.1).map fun a => (a.1,a.2,s.2.note ⟨op,a.1⟩) else none

theorem watched_answers (op : Op) (s : World × Memo) (r : Reply op) (s' : World × Memo)
    (known : watched op s = some (r,s')) :
    (env.watch Memo.note).answers (careful Eq) op s r s' := by
  rw [careful_answers]
  unfold watched at known
  split at known
  · rename_i checked
    obtain ⟨a, found, same⟩ := Option.map_eq_some_iff.mp known
    cases same
    exact ⟨alive_of_isAlive checked, plain_known _ _ _ _ found, rfl⟩
  · cases known

def childRef : ObjRef := ⟨3,1,.ordinary⟩

/-- An object that holds another one twice. -/
def sharingWorld : World :=
  { World.initial with
    boxes := [.object pairRef]
    heap := (World.initial.heap.put pairRef
      ⟨(OrderedMap.empty.insert (.string (units "a")) (.data (.object childRef) true true true)).insert
        (.string (units "b")) (.data (.object childRef) true true true), none, true, 0, true,
        some 0⟩).put childRef (.bare none)
    serial := 2 }

/-- The shared object is found at its second visit, and becomes one map. -/
theorem sound_shared :
    letI := PackageFfi.utf8
    ∃ (h : List (Event Op Reply)) (s : World × Memo),
      Exec ((env.watch Memo.note).answers (careful Eq))
        (toDartValueFromJs (fun jval => toDartValue 2 jval none) 0 (.box 0)) (sharingWorld,⟨[],[]⟩) h
        (.ok (.map 0)) s ∧
      (h.foldl Memo.note ⟨[],[]⟩).hits = [(0,childRef,.map 1)] ∧
      (h.foldl Memo.note ⟨[],[]⟩).Sound := by
  let _ := PackageFfi.utf8
  obtain ⟨h, out, s, run, checked⟩ := Exec.of_check watched_answers
    (p := toDartValueFromJs (fun jval => toDartValue 2 jval none) 0 (.box 0))
    (w := (sharingWorld,⟨[],[]⟩)) (fun h out => out = .ok (.map 0) ∧
      (h.foldl Memo.note ⟨[],[]⟩).hits = [(0,childRef,.map 1)]) (by decide)
  obtain ⟨ended, hits⟩ := of_decide_eq_true checked
  subst ended
  exact ⟨h, s, run, hits, sound_of_alive (fun w w' same => .of_evolves (.of_eq same)) run⟩

end FlutterQuickjs.Conversion
