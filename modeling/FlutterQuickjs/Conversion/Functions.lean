import FlutterQuickjs.Binding.Lists
import FlutterQuickjs.Binding.Plain
import FlutterQuickjs.Binding.Reading
import FlutterQuickjs.Binding.Scripted
import FlutterQuickjs.Conversion.Resend
import FlutterQuickjs.Conversion.Shallow
import FlutterQuickjs.Release.Terms

namespace FlutterQuickjs.Conversion

open Engine Binding ValueConverter
open Effect

/-- Values that a conversion makes itself: no Dart functions, and only containers made since. -/
def Own (n m : Nat) : DartVal → Prop
  | .function _ => False
  | .list l => n ≤ l
  | .map k => m ≤ k
  | _ => True

/-- The containers and caches made since hold only such values. -/
structure Clear (n m q : Nat) (w : World) : Prop where
  lists : ∀ l, n ≤ l → ∀ d ∈ w.lists.getD l [], Own n m d
  maps : ∀ k, m ≤ k → ∀ key d, (w.maps.getD k .empty).find key = some d → Own n m d
  caches : ∀ c, q ≤ c → ∀ a d, (w.caches.getD c .empty).find a = some d → Own n m d
  made : n ≤ w.lists.length ∧ m ≤ w.maps.length ∧ q ≤ w.caches.length

/-- Operations that put a value into a container or a cache. -/
def Storing : Op → Prop
  | .listAdd _ _ => True
  | .mapPut _ _ _ => True
  | .cachePut _ _ _ => True
  | _ => False

theorem not_storing_of_releasing {op : Op} (releasing : Releasing op) : ¬Storing op := by
  cases op with
  | listAdd l v => exact releasing.elim
  | mapPut m k v => exact releasing.elim
  | cachePut c o v => exact releasing.elim
  | _ => exact id

section

variable {n m q : Nat} {w w' : World} {op : Op} {r : Reply op}

theorem clear_start (w : World) : Clear w.lists.length w.maps.length w.caches.length w where
  lists l beyond d inside := by
    simp [List.getD_eq_getElem?_getD, List.getElem?_eq_none_iff.mpr beyond] at inside
  maps k beyond key d found := by
    simp [List.getD_eq_getElem?_getD, List.getElem?_eq_none_iff.mpr beyond] at found
  caches c beyond a d found := by
    simp [List.getD_eq_getElem?_getD, List.getElem?_eq_none_iff.mpr beyond] at found
  made := ⟨le_rfl, le_rfl, le_rfl⟩

namespace Clear

theorem of_frame (clear : Clear n m q w) (steady : Steady op w w') (frame : Frame op w w')
    (lists : ¬Lists op) (fills : ¬Fills op) : Clear n m q w' := by
  have made := clear.made
  refine ⟨?_, ?_, ?_, ?_, ?_, ?_⟩
  · rw [steady.lists lists]
    exact clear.lists
  · rcases frame.maps fills with same | more
    · rw [same]
      exact clear.maps
    · simp only [more, getD_append_singleton]
      exact clear.maps
  · rcases frame.caches fills with same | more
    · rw [same]
      exact clear.caches
    · simp only [more, getD_append_singleton]
      exact clear.caches
  · rw [steady.lists lists]
    exact made.1
  · rcases frame.maps fills with same | more
    · rw [same]
      exact made.2.1
    · rw [more, List.length_append]
      omega
  · rcases frame.caches fills with same | more
    · rw [same]
      exact made.2.2
    · rw [more, List.length_append]
      omega

/-- With inert foreign code, no operation but those that store values changes what is held. -/
theorem answers (clear : Clear n m q w) (other : ¬Storing op)
    (answered : env.answers (.plain Eq False) op w r w') : Clear n m q w' := by
  by_cases lists : Lists op
  · cases op with
    | newList =>
      obtain ⟨-, rfl⟩ := Release.answers_known rfl answered
      refine ⟨fun l beyond d inside => ?_, clear.maps, clear.caches, ?_, clear.made.2⟩
      · rw [getD_append_singleton] at inside
        exact clear.lists l beyond d inside
      · have made := clear.made.1
        simp only [List.length_append]
        omega
    | listDone l =>
      obtain ⟨-, rfl⟩ := Release.answers_known rfl answered
      exact ⟨clear.lists, clear.maps, clear.caches, clear.made⟩
    | listAdd l v => exact absurd trivial other
    | _ => exact lists.elim
  · have fills : ¬Fills op := by
      intro fills
      cases op with
      | mapPut k key v => exact other trivial
      | cachePut c o v => exact other trivial
      | _ => exact fills
    obtain ⟨-, ⟨-, own⟩ | ⟨-, w₁, rfl, returned⟩⟩ := answered
    · exact clear.of_frame (steady_direct own) (frame_direct own) lists fills
    · exact clear.of_frame (steady_back returned) (frame_back returned) lists fills

theorem listAdd (clear : Clear n m q w) {l : Nat} {v : DartVal} (own : Own n m v) :
    Clear n m q { w with lists := w.lists.modify l (· ++ [v]) } := by
  refine ⟨fun k beyond d inside => ?_, clear.maps, clear.caches, by simpa using clear.made⟩
  by_cases bound : l < w.lists.length
  · by_cases same : k = l
    · rw [same, getD_modify_self bound, List.mem_append, List.mem_singleton] at inside
      rcases inside with before | rfl
      · exact clear.lists l (same ▸ beyond) d before
      · exact own
    · rw [getD_modify_ne same] at inside
      exact clear.lists k beyond d inside
  · have unchanged : w.lists.modify l (· ++ [v]) = w.lists :=
      List.modify_eq_self (by omega)
    rw [unchanged] at inside
    exact clear.lists k beyond d inside

theorem mapPut (clear : Clear n m q w) {k : Nat} {key : MapKey} {v : DartVal} (own : Own n m v) :
    Clear n m q { w with maps := w.maps.modify k (·.insert key v) } := by
  refine ⟨clear.lists, fun k' beyond key' d found => ?_, clear.caches, by simpa using clear.made⟩
  by_cases bound : k < w.maps.length
  · by_cases same : k' = k
    · rw [same, getD_modify_self bound, OrderedMap.find_insert] at found
      by_cases put : key' = key
      · rw [if_pos put] at found
        cases found
        exact own
      · rw [if_neg put] at found
        exact clear.maps k (same ▸ beyond) key' d found
    · rw [getD_modify_ne same] at found
      exact clear.maps k' beyond key' d found
  · have unchanged : w.maps.modify k (·.insert key v) = w.maps := List.modify_eq_self (by omega)
    rw [unchanged] at found
    exact clear.maps k' beyond key' d found

theorem cachePut (clear : Clear n m q w) {c : Nat} {a : Nat} {v : DartVal} (own : Own n m v) :
    Clear n m q { w with caches := w.caches.modify c (·.insert a v) } := by
  refine ⟨clear.lists, clear.maps, fun c' beyond a' d found => ?_, by simpa using clear.made⟩
  by_cases bound : c < w.caches.length
  · by_cases same : c' = c
    · rw [same, getD_modify_self bound, OrderedMap.find_insert] at found
      by_cases put : a' = a
      · rw [if_pos put] at found
        cases found
        exact own
      · rw [if_neg put] at found
        exact clear.caches c (same ▸ beyond) a' d found
    · rw [getD_modify_ne same] at found
      exact clear.caches c' beyond a' d found
  · have unchanged : w.caches.modify c (·.insert a v) = w.caches := List.modify_eq_self (by omega)
    rw [unchanged] at found
    exact clear.caches c' beyond a' d found

/-- Nothing but what the conversion made can be reached from what it made. -/
theorem reaches (clear : Clear n m q w) {d x : DartVal} {path : List (Step MapKey)}
    (own : Own n m d) (leads : (dartGraph w).follow d path = some x) : Own n m x := by
  refine ValueGraph.follow_closed (P := Own n m) (fun d s x own child => ?_) own leads
  cases d with
  | list l =>
    cases s with
    | key k => cases child
    | index i => exact clear.lists l own x (List.mem_of_getElem? child)
  | map k =>
    cases s with
    | index i => cases child
    | key key => exact clear.maps k own key x child
  | _ => cases child

end Clear

end

/-- With inert foreign code the program keeps the containers clear, and its result meets `P`. -/
def Gives (n m q : Nat) {α : Type} (P : α → Prop) (p : Action α) : Prop :=
  ∀ w, Clear n m q w → wp env (.plain Eq False) p
    (fun out w' => Clear n m q w' ∧ ∀ a, out = .ok a → P a) w

namespace Gives

variable {n m q : Nat} {α β : Type} {P : α → Prop} {Q : β → Prop}

theorem pure {a : α} (holds : P a) : Gives n m q P (Pure.pure a) := by
  intro w clear
  refine ⟨clear, fun b same => ?_⟩
  cases same
  exact holds

theorem throw (e : DartError) : Gives n m q P (MonadExcept.throw e) := by
  intro w clear
  refine ⟨clear, fun b same => ?_⟩
  cases same

theorem bind {p : Action α} {f : α → Action β} (first : Gives n m q P p)
    (rest : ∀ a, P a → Gives n m q Q (f a)) : Gives n m q Q (p >>= f) := by
  intro w clear
  rw [wp_bind]
  refine wp_mono (first w clear) fun out w' after => ?_
  obtain ⟨clear', result⟩ := after
  cases out with
  | error e =>
    refine ⟨clear', fun b same => ?_⟩
    cases same
  | ok a => exact rest a (result a rfl) w' clear'

theorem ite {c : Prop} [Decidable c] {p p' : Action α} (yes : Gives n m q P p)
    (no : Gives n m q P p') : Gives n m q P (if c then p else p') := by
  by_cases hc : c
  · simpa [hc] using yes
  · simpa [hc] using no

theorem of_within {p : Action α} (within : p.Within fun op => ¬Storing op) :
    Gives n m q (fun _ => True) p := by
  intro w clear
  induction p generalizing w with
  | done a => exact ⟨clear, fun _ _ => trivial⟩
  | fail e => exact ⟨clear, fun _ _ => trivial⟩
  | ask op k ih =>
    refine ⟨trivial, False.elim, fun r w' answered => ?_⟩
    exact ih r (within.2 r) w' (clear.answers within.1 answered)

theorem of_releasing {p : Action α} (within : p.Within Releasing) :
    Gives n m q (fun _ => True) p :=
  of_within (.mono within fun _ => not_storing_of_releasing)

theorem of_looking {p : Action α} (within : p.Within Looking) : Gives n m q (fun _ => True) p :=
  of_releasing (.mono within fun _ => Looking.releasing)

/-- One operation whose answer follows from the world. -/
theorem known {op : Op} {P : Reply op → Prop} (answers : ∀ w, Clear n m q w →
    ∃ a, answer op w = some a ∧ Clear n m q a.2 ∧ P a.1) : Gives n m q P (perform op) := by
  intro w clear
  obtain ⟨a, known, clear', holds⟩ := answers w clear
  rw [plain_answer op known]
  refine ⟨clear', fun b same => ?_⟩
  cases same
  exact holds

theorem call {op : Op} (other : ¬Storing op) : Gives n m q (fun _ => True) (perform op) :=
  of_within (.call other)

theorem newList : Gives n m q (fun l : Nat => n ≤ l) (perform .newList) :=
  known fun w clear => ⟨_, rfl, clear.answers id (plain_known .newList w _ _ rfl), clear.made.1⟩

theorem newMap : Gives n m q (fun k : Nat => m ≤ k) (perform .newMap) :=
  known fun w clear => ⟨_, rfl, clear.answers id (plain_known .newMap w _ _ rfl), clear.made.2.1⟩

theorem newCache (root : ObjRef) : Gives n m q (fun c : Nat => q ≤ c) (perform (.newCache root)) :=
  known fun w clear => ⟨_, rfl, clear.answers id (plain_known (.newCache root) w _ _ rfl), clear.made.2.2⟩

theorem cacheFind {c : Nat} (beyond : q ≤ c) (o : ObjRef) :
    Gives n m q (fun found : Option DartVal => ∀ d, found = some d → Own n m d)
      (perform (.cacheFind c o)) :=
  known fun _ clear => ⟨_, rfl, clear, fun d found => clear.caches c beyond o.address d found⟩

theorem cachePut {c : Nat} {o : ObjRef} {v : DartVal} (own : Own n m v) :
    Gives n m q (fun _ => True) (perform (.cachePut c o v)) :=
  known fun _ clear => ⟨_, rfl, clear.cachePut own, trivial⟩

theorem listAdd {l : Nat} {v : DartVal} (own : Own n m v) :
    Gives n m q (fun _ => True) (perform (.listAdd l v)) :=
  known fun _ clear => ⟨_, rfl, clear.listAdd own, trivial⟩

theorem mapPut {k : Nat} {key : MapKey} {v : DartVal} (own : Own n m v) :
    Gives n m q (fun _ => True) (perform (.mapPut k key v)) :=
  known fun _ clear => ⟨_, rfl, clear.mapPut own, trivial⟩

end Gives

section

variable {n m q : Nat} {ctx : Ctx} {val : Ptr} {convert : JSRef → Action DartVal}

theorem gives_mapKey (v : DartVal) : Gives n m q (fun _ => True) (mapKey v) := by
  cases v with
  | string s => exact .pure trivial
  | null => exact .pure trivial
  | _ => exact .throw _

theorem gives_toDartValueFromJs (each : ∀ jval, Gives n m q (Own n m) (convert jval)) :
    Gives n m q (Own n m) (toDartValueFromJs convert ctx val) :=
  .bind (.of_looking within_toDartJSValue) fun jval _ => each jval

theorem gives_arrayLoop (each : ∀ jval, Gives n m q (Own n m) (convert jval))
    (list rounds i : Nat) :
    Gives n m q (fun _ => True) (arrayLoop convert ctx val list rounds i) := by
  induction rounds generalizing i with
  | zero => exact .pure trivial
  | succ rounds ih =>
    refine .bind (.of_looking within_jsGetProperty) fun p _ => ?_
    refine .bind (.of_looking within_toDartJSValue) fun jval _ => ?_
    refine .bind (each jval) fun element own => .bind (.listAdd own) fun _ _ => ?_
    refine .bind (.call id) fun found _ => ?_
    cases found with
    | none => exact .throw _
    | some v =>
      cases v with
      | hostFunction f => exact ih (i+1)
      | _ => exact .bind (.of_releasing within_jsFreeValue) fun _ _ => ih (i+1)

theorem gives_mapLoop (each : ∀ jval, Gives n m q (Own n m) (convert jval))
    (map table rounds i : Nat) :
    Gives n m q (fun _ => True) (mapLoop convert ctx val map table rounds i) := by
  induction rounds generalizing i with
  | zero => exact .pure trivial
  | succ rounds ih =>
    refine .bind (.call id) fun atom _ => ?_
    refine .bind (.of_looking within_jsAtomToValue) fun atomValue _ => ?_
    refine .bind (.of_looking within_jsGetProperty) fun prop _ => ?_
    refine .bind (gives_toDartValueFromJs each) fun key _ => ?_
    refine .bind (gives_toDartValueFromJs each) fun value own => ?_
    refine .bind (gives_mapKey key) fun k _ => .bind (.mapPut own) fun _ _ => ?_
    refine .bind (.of_releasing within_jsFreeValue) fun _ _ => ?_
    refine .bind (.of_releasing within_freeUnlessFunction) fun _ _ => ?_
    exact .bind (.call id) fun _ _ => ih (i+1)

variable [PackageFfi]

theorem gives_objectValue (each : ∀ jval, Gives n m q (Own n m) (convert jval)) (valptr : ObjRef)
    {cache : Nat} (beyond : q ≤ cache) :
    Gives n m q (Own n m) (objectValue convert ctx val valptr cache) := by
  refine .bind (.cacheFind beyond valptr) fun found owns => ?_
  cases found with
  | some cached => exact .pure (owns cached rfl)
  | none =>
    refine .bind (.of_looking within_jsIsFunction) fun function _ => ?_
    refine .ite (.bind (.call id) fun _ _ => .pure trivial) ?_
    refine .bind (.of_looking within_jsIsArray) fun array _ => .ite ?_ ?_
    · rw [jsGetPropertyStr_length]
      refine .bind (.of_looking within_jsGetProperty) fun p _ => ?_
      refine .bind (.of_looking within_jsToInt32) fun length _ => ?_
      refine .bind .newList fun list own => .bind (.cachePut own) fun _ _ => ?_
      refine .bind (gives_arrayLoop each list _ 0) fun _ _ => ?_
      exact .bind (.call id) fun _ _ => .pure own
    · refine .bind .newMap fun map own => .bind (.call id) fun ptab _ => ?_
      refine .bind (.call id) fun plen _ => .bind (.cachePut own) fun _ _ => ?_
      refine .bind (.of_looking within_jsGetOwnPropertyNames) fun code _ => ?_
      have last : Gives n m q (Own n m) (do
          perform (.callocFreeCell ptab)
          perform (.callocFreeCell plen)
          return .map map : Action DartVal) :=
        .bind (.call id) fun _ _ => .bind (.call id) fun _ _ => .pure own
      refine .ite ?_ last
      refine .bind (.call id) fun length _ => .bind (.call id) fun table _ => ?_
      exact .bind (gives_mapLoop each map table length 0) fun _ _ => last

/-- The decoder makes no Dart function, and hands out no container that was there before. -/
theorem gives_toDartValue (fuel : Nat) (jval : JSRef) (cache : Option Nat)
    (beyond : ∀ c, cache = some c → q ≤ c) :
    Gives n m q (Own n m) (toDartValue fuel jval cache) := by
  induction fuel generalizing jval cache with
  | zero => exact .throw _
  | succ fuel ih =>
    have each : ∀ c, q ≤ c → ∀ jval, Gives n m q (Own n m) (toDartValue fuel jval (some c)) := by
      intro c large jval
      refine ih jval (some c) fun c' same => ?_
      cases same
      exact large
    refine .bind (.of_looking within_jsValueGetTag) fun tag _ => ?_
    refine .ite (.bind (.of_looking within_jsToInt64) fun _ _ => .pure trivial) ?_
    refine .ite (.bind (.of_looking within_jsToBool) fun _ _ => .pure trivial) ?_
    refine .ite (.pure trivial) (.ite ?_ ?_)
    · refine .bind (.of_looking within_jsGetException) fun exception _ => ?_
      refine .bind (.of_releasing within_toDartException) fun message _ => ?_
      exact .bind (.of_releasing within_jsFreeValue) fun _ _ => .pure trivial
    refine .ite (.bind (.of_looking within_jsToFloat64) fun _ _ => .pure trivial) ?_
    refine .ite ?_ (.ite ?_ (.bind (.call id) fun _ _ => .pure trivial))
    · refine .bind (.of_looking within_jsToCString) fun bytes _ => ?_
      exact .bind (.of_looking (within_dartString bytes)) fun _ _ => .pure trivial
    · refine .bind (.of_looking within_jsValueGetPtr) fun valptr _ => ?_
      cases cache with
      | some c =>
        refine .bind (P := fun c => q ≤ c) (.pure (beyond c rfl)) fun c large => ?_
        exact gives_objectValue (each c large) valptr large
      | none =>
        exact .bind (.newCache valptr) fun c large => gives_objectValue (each c large) valptr large

end

theorem isFunction_leafValue (d : DartVal) : (leafValue d).isFunction = false := by
  cases d with
  | int n =>
    simp only [leafValue, JSValue.newInt64]
    split <;> rfl
  | double x =>
    simp only [leafValue, JSValue.newFloat64]
    split
    · split <;> rfl
    · rfl
  | _ => rfl

/-- The encoder makes functions only of Dart functions. -/
theorem Encoded.function {interned : CString → Bool} {w : World} {root : ObjRef} {h : Heap} {n lo hi : Nat} {d : DartVal}
    {x : JSValue} (encoded : Encoded interned w root h n d x lo hi) (callable : x.isFunction = true) :
    ∃ f, d = .function f := by
  cases n with
  | zero => exact encoded.elim
  | succ n =>
    cases d with
    | function f => exact ⟨f, rfl⟩
    | list l =>
      obtain ⟨o, obj, rfl, array, -⟩ := encoded
      simp [JSValue.isFunction, array] at callable
    | map k =>
      obtain ⟨o, obj, rfl, ordinary, -⟩ := encoded
      simp [JSValue.isFunction, ordinary] at callable
    | _ =>
      rw [encoded.1, isFunction_leafValue] at callable
      cases callable

section

variable [PackageFfi]

/-- The value in `val` goes to Dart, and what came of it goes back: as an argument, as a value that
is set, or as the result of a callback. -/
def Crosses (rely : World → World → Prop) (ctx : Ctx) (w : World) (val p : Ptr) (w' : World) :
    Prop :=
  ∃ (fuel fuel' : Nat) (d : DartVal) (w₁ : World) (h h' : List (Event Op Reply)),
    Exec (env.answers (.plain rely False))
      (toDartValueFromJs (fun jval => toDartValue fuel jval none) ctx val) w h (.ok d) w₁ ∧
    Exec (env.answers (.plain rely False)) (toQuickJSValue fuel' ctx d) w₁ h' (.ok p) w'

/-- Wherever the value holds a function, JS gets a function back that behaves like it. -/
def FunctionsSurvive (behaves : World → JSValue → World → JSValue → Prop) (ctx : Ctx) (w : World)
    (val : Ptr) : Prop :=
  ∀ rely, (∀ w₁ w₂, rely w₁ w₂ → Evolves w₁ w₂) → ∀ p w', Crosses rely ctx w val p w' →
    ∀ path f, (jsGraph UInt32.toNat w.heap).follow (w.value val) path = some f →
      f.isFunction = true →
      ∃ x, (jsGraph UInt32.toNat w'.heap).follow (w'.value p) path = some x ∧
        x.isFunction = true ∧ behaves w f w' x

/-- With inert foreign code a value that can come back may come back without any function,
whatever it holds. -/
theorem crosses_without_functions {ctx : Ctx} {w w' : World} {val p : Ptr}
    (crosses : Crosses Eq ctx w val p w') : ∃ p' w'', Crosses Eq ctx w val p' w'' ∧
      ∀ path x, (jsGraph UInt32.toNat w''.heap).follow (w''.value p') path = some x →
        x.isFunction = false := by
  obtain ⟨fuel, fuel', d, w₁, h, h', decoded, encoded⟩ := crosses
  have gives : Gives w.lists.length w.maps.length w.caches.length
      (Own w.lists.length w.maps.length)
      (toDartValueFromJs (fun jval => toDartValue fuel jval none) ctx val) :=
    gives_toDartValueFromJs fun jval => gives_toDartValue fuel jval none (by simp)
  obtain ⟨clear, owns⟩ := wp_sound (gives w (clear_start w)) decoded
  have keeps : ∀ w w' : World, w = w' → SameContents w w' := by
    rintro w w' rfl
    exact .refl w
  -- the stack suffices, so every lookup of a name may as well find nothing
  have exactly : ReturnsIff Eq w₁ (Shallow w₁ fuel') (toQuickJSValue fuel' ctx) :=
    toQuickJSValue_returns_iff (fun _ => rfl) keeps fuel'
  have returns := exactly d w₁ (.refl w₁)
  have shallow := (wp_sound returns encoded).1.mp ⟨p, rfl⟩
  have again := building_of_plain (possible_findsExactly noneInterned) returns
  obtain ⟨h₂, out, w₂, run⟩ := wp_runs again trivial
  obtain ⟨p', rfl⟩ := (wp_sound again run).1.mpr shallow
  refine ⟨p', w₂, ⟨fuel, fuel', d, w₁, h, h₂, decoded, run.mono ?_⟩, fun path x leads => ?_⟩
  · intro op w r w' answered
    exact ⟨trivial, answered.2⟩
  have calm : False ∨ ∀ w w' : World, w = w' → w' = w := .inr fun _ _ => Eq.symm
  have unused : False → Prototypes w₁ (w₁.realm ctx).objectProto [] := False.elim
  have encodes := toQuickJSValue_encodes calm unused fuel' d w₁ (.refl w₁)
    (predictable_exactly noneInterned w₁ d) False.elim
  obtain ⟨-, v', holds', made⟩ := wp_sound encodes run
  rw [holds'.value] at leads
  obtain ⟨path', d', k, a, b, leads', made', -⟩ := made.follow_source (fun _ => le_rfl) leads
  by_contra callable
  obtain ⟨f, rfl⟩ := made'.function (by simpa using callable)
  exact clear.reaches (owns d rfl) leads'

/-- Of the values that can go to Dart and back, exactly those that hold no function keep their
functions. -/
theorem functionsSurvive_iff {behaves : World → JSValue → World → JSValue → Prop} {ctx : Ctx}
    {w : World} {val : Ptr} (crosses : ∃ p w', Crosses Eq ctx w val p w') :
    FunctionsSurvive behaves ctx w val ↔
      ∀ path f, (jsGraph UInt32.toNat w.heap).follow (w.value val) path = some f →
        f.isFunction = false := by
  constructor
  · intro survive path f leads
    obtain ⟨p, w', first⟩ := crosses
    obtain ⟨p', w'', crosses, none⟩ := crosses_without_functions first
    by_contra callable
    have function : f.isFunction = true := by simpa using callable
    obtain ⟨x, leads', back, -⟩ := survive Eq (fun _ _ => Evolves.of_eq) p' w'' crosses path f leads
      function
    rw [none _ x leads'] at back
    cases back
  · intro none rely evolves p w' crosses path f leads function
    rw [none path f leads] at function
    cases function

end

/-- A JS function, in a box. -/
def functionWorld : World :=
  { World.initial with
    boxes := [.object ⟨1,0,.function⟩]
    heap := World.initial.heap.put ⟨1,0,.function⟩ (.bare none)
    serial := 1 }

theorem function_crosses :
    letI := PackageFfi.utf8
    ∃ p w', Crosses Eq 0 functionWorld (.box 0) p w' := by
  let _ := PackageFfi.utf8
  exact ⟨.box 1, _, 1, 1, _, _, _, _, .of_trace plain_known rfl, .of_trace plain_known rfl⟩

theorem functionsSurvive_function :
    letI := PackageFfi.utf8
    FunctionsSurvive (fun _ _ _ _ => True) 0 functionWorld (.box 0) ↔
      ∀ path f, (jsGraph UInt32.toNat functionWorld.heap).follow (functionWorld.value (.box 0)) path =
        some f → f.isFunction = false := by
  let _ := PackageFfi.utf8
  exact functionsSurvive_iff function_crosses

/-- A function itself comes back as undefined. -/
theorem not_functionsSurvive :
    letI := PackageFfi.utf8
    ¬FunctionsSurvive (fun _ _ _ _ => True) 0 functionWorld (.box 0) := by
  let _ := PackageFfi.utf8
  intro survive
  obtain ⟨p, w', first⟩ := function_crosses
  obtain ⟨p', w'', crosses, none⟩ := crosses_without_functions first
  obtain ⟨x, leads, back, -⟩ := survive Eq (fun _ _ => Evolves.of_eq) p' w'' crosses []
    (.object ⟨1,0,.function⟩) rfl rfl
  rw [none _ x leads] at back
  cases back

end FlutterQuickjs.Conversion
