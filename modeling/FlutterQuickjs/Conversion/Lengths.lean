import FlutterQuickjs.Binding.Lists
import FlutterQuickjs.Binding.Plain
import FlutterQuickjs.Binding.Reading
import FlutterQuickjs.Binding.Scripted
import FlutterQuickjs.Conversion.ToDart
import FlutterQuickjs.Release.Terms

namespace FlutterQuickjs.Binding

open Engine

/-- The getter of `JSArray`. -/
def JSArray.length [PackageFfi] (ctx : Ctx) (val : Ptr) : Action Int64 := do
  jsToInt64 ctx (← jsGetPropertyStr ctx val (toNativeUtf8 (units "length")))

end FlutterQuickjs.Binding

namespace FlutterQuickjs.Conversion

open Engine Binding ValueConverter Release
open Effect

/-- Operations that change no argument vector and no Dart list but for the ones owned, and cache
no `HostFunction`. -/
def Outside (own : Nat → Prop) : Op → Prop
  | .listAdd l _ => own l
  | .listDone l => own l
  | .cachePut _ _ d => ∀ f, d ≠ .hostFunction f
  | .calloc _ => False
  | .store _ _ _ => False
  | .lendArguments _ => False
  | _ => True

/-- Memory stays as it was, and so do the lists being built, but for the ones owned; a cache gets
lists and maps only. -/
structure Apart (own : Nat → Prop) (w w' : World) : Prop where
  boxes : Keeps w.boxes w'.boxes
  arrays : w'.arrays = w.arrays
  count : w.lists.length ≤ w'.lists.length
  built : ∀ l ∈ w.building, ¬own l → l < w.lists.length →
    l ∈ w'.building ∧ w'.lists[l]? = w.lists[l]?
  cached : ∀ c a f, cacheAt w' c a = some (.hostFunction f) → cacheAt w c a = some (.hostFunction f)

namespace Apart

variable {own own' : Nat → Prop} {w w' w'' : World} {op : Op} {p : Ptr} {v : JSValue}

theorem refl (w : World) : Apart own w w :=
  ⟨.refl _, rfl, le_rfl, fun _ member _ _ => ⟨member, rfl⟩, fun _ _ _ => id⟩

theorem trans (first : Apart own w w') (second : Apart own w' w'') : Apart own w w'' where
  boxes := first.boxes.trans second.boxes
  arrays := second.arrays.trans first.arrays
  count := first.count.trans second.count
  built l member other inside := by
    obtain ⟨member', same⟩ := first.built l member other inside
    obtain ⟨member'', same'⟩ := second.built l member' other (lt_of_lt_of_le inside first.count)
    exact ⟨member'', same'.trans same⟩
  cached c a f found := first.cached c a f (second.cached c a f found)

theorem follows : Follows (Apart own) := ⟨refl, trans⟩

/-- Lists that are not there yet do not matter. -/
theorem mono (apart : Apart own w w') (less : ∀ l < w.lists.length, own l → own' l) :
    Apart own' w w' :=
  { apart with built := fun l member other inside =>
      apart.built l member (fun owned => other (less l inside owned)) inside }

/-- A new cache is empty. -/
theorem cached_of_frame (caches : w'.caches = w.caches ∨ w'.caches = w.caches ++ [.empty])
    (c a : Nat) (f : HostFunction) (found : cacheAt w' c a = some (.hostFunction f)) :
    cacheAt w c a = some (.hostFunction f) := by
  rcases caches with same | more
  · rwa [cacheAt, same] at found
  · rwa [cacheAt, more, getD_append_singleton] at found

theorem of_same (boxes : Keeps w.boxes w'.boxes) (arrays : w'.arrays = w.arrays)
    (lists : w'.lists = w.lists) (building : w'.building = w.building)
    (caches : w'.caches = w.caches ∨ w'.caches = w.caches ++ [.empty]) : Apart own w w' where
  boxes := boxes
  arrays := arrays
  count := by rw [lists]
  built l member _ _ := by
    rw [lists, building]
    exact ⟨member, rfl⟩
  cached := cached_of_frame caches

theorem of_evolves (evolves : Evolves w w') : Apart own w w' where
  boxes := by
    rw [evolves.rest]
    exact .refl _
  arrays := by rw [evolves.rest]
  count := evolves.lengths.1
  built l member _ _ := by
    refine ⟨?_, evolves.lists l member⟩
    rw [evolves.rest]
    exact member
  cached c a f found := by
    rw [evolves.rest] at found
    exact found

theorem holds (apart : Apart own w w') (holds : Holds w p v) : Holds w' p v := by
  cases p with
  | box n => exact apart.boxes.getElem? holds
  | slot a i =>
    have same : w.value (.slot a i) = v := holds
    change w'.value (.slot a i) = v
    rw [World.value, apart.arrays]
    exact same

end Apart

section

variable {own : Nat → Prop} {w w' : World} {op : Op}

theorem apart_direct {r : Reply op} (outside : Outside own op) (answered : direct op w r w') :
    Apart own w w' := by
  have frame := frame_direct answered
  have boxes := frame.boxes
  have steady := steady_direct answered
  cases op with
  | calloc n => exact outside.elim
  | store a i v => exact outside.elim
  | lendArguments args => exact outside.elim
  | newList =>
    obtain ⟨-, rfl⟩ := answered
    exact ⟨boxes, rfl, by simp, fun l member _ inside =>
      ⟨List.mem_cons_of_mem _ member, by rw [List.getElem?_append_left inside]⟩, fun _ _ _ => id⟩
  | listAdd l v =>
    obtain ⟨-, rfl⟩ := answered
    refine ⟨boxes, rfl, by simp, fun k member other _ => ⟨member, ?_⟩, fun _ _ _ => id⟩
    have ne : l ≠ k := fun same => other (same ▸ outside)
    simp [ne]
  | listDone l =>
    obtain ⟨-, rfl⟩ := answered
    refine ⟨boxes, rfl, le_rfl, fun k member other _ => ⟨?_, rfl⟩, fun _ _ _ => id⟩
    have ne : k ≠ l := fun same => other (same ▸ outside)
    simp [member, ne]
  | cachePut c o d =>
    obtain ⟨-, rfl⟩ := answered
    refine ⟨boxes, rfl, le_rfl, fun _ member _ _ => ⟨member, rfl⟩, fun c' a f found => ?_⟩
    by_cases here : c' = c
    · rw [here] at found ⊢
      rcases of_cacheAt_cache found with ⟨-, same⟩ | old
      · exact absurd same.symm (outside f)
      · exact old
    · have same : cacheAt (w.cache c o d) c' a = cacheAt w c' a := by
        rw [cacheAt, World.cache, getD_modify_ne here, cacheAt]
      exact same.symm.trans found
  | mapPut m k d =>
    obtain ⟨-, rfl⟩ := answered
    exact .of_same boxes rfl rfl rfl (.inl rfl)
  | _ =>
    exact .of_same boxes (steady.arrays id) (steady.lists id) (steady.building id)
      (frame.caches id)

theorem apart_back {r : Reply op} (returned : back op w r w') : Apart own w w' := by
  have frame := frame_back returned
  have boxes := frame.boxes
  have steady := steady_back returned
  cases op with
  | calloc n => exact returned.elim
  | store a i v => exact returned.elim
  | lendArguments args => exact returned.elim
  | newList => exact returned.elim
  | listAdd l v => exact returned.elim
  | listDone l => exact returned.elim
  | cachePut c o d => exact returned.elim
  | mapPut m k d => exact returned.elim
  | _ =>
    exact .of_same boxes (steady.arrays id) (steady.lists id) (steady.building id)
      (frame.caches id)

end

/-- Terms under which runs that end are looked at and foreign code only evolves the world. -/
structure Evolving (S : Setting Op Reply World) : Prop where
  free : ∀ op w, S.guard op w
  partially : ¬S.total
  evolves : ∀ w w', S.rely w w' → Evolves w w'

section

variable {S : Setting Op Reply World} {own : Nat → Prop} {w w' : World} {op : Op} {ctx : Ctx}
  {val : Ptr}

theorem apart_answers (evolving : Evolving S) (outside : Outside own op) {r : Reply op}
    (answered : env.answers S op w r w') : Apart own w w' := by
  obtain ⟨-, ⟨-, own⟩ | ⟨-, w₁, between, returned⟩⟩ := answered
  · exact apart_direct outside own
  · exact (Apart.of_evolves (evolving.evolves w w₁ between)).trans (apart_back returned)

theorem apart_perform (evolving : Evolving S) (outside : Outside own op) :
    Preserves env S (Apart own) (perform op) :=
  .call (evolving.free op) evolving.partially fun _ _ _ => apart_answers evolving outside

theorem Outside.of_looking (looking : Looking op) : Outside own op := by
  cases op <;> first | exact trivial | exact looking.elim

theorem apart_within (evolving : Evolving S) {α : Type} {p : Action α} (within : p.Within Looking) :
    Preserves env S (Apart own) p :=
  .of_within Apart.follows (fun _ looking => apart_perform evolving (.of_looking looking)) within

theorem Outside.of_releasing (releasing : Releasing op) : Outside own op := by
  cases op <;> first | exact trivial | exact releasing.elim

theorem apart_releasing (evolving : Evolving S) {α : Type} {p : Action α}
    (within : p.Within Releasing) : Preserves env S (Apart own) p :=
  .of_within Apart.follows (fun _ mild => apart_perform evolving (.of_releasing mild)) within

theorem apart_jsFreeValue (evolving : Evolving S) :
    Preserves env S (Apart own) (jsFreeValue val) := apart_releasing evolving within_jsFreeValue

variable [PackageFfi]

variable {convert : JSRef → Action DartVal}

omit [PackageFfi] in
theorem apart_fromJs (evolving : Evolving S)
    (apart : ∀ jval, Preserves env S (Apart own) (convert jval)) :
    Preserves env S (Apart own) (toDartValueFromJs convert ctx val) :=
  .bind Apart.follows (apart_within evolving within_toDartJSValue) apart

omit [PackageFfi] in
/-- The loop fills its own list and leaves the others alone. -/
theorem apart_arrayLoop (evolving : Evolving S) {list : Nat}
    (apart : ∀ jval, Preserves env S (Apart (· = list)) (convert jval)) (rounds i : Nat) :
    Preserves env S (Apart (· = list)) (arrayLoop convert ctx val list rounds i) := by
  induction rounds generalizing i with
  | zero => exact .pure Apart.follows ()
  | succ rounds ih =>
    apply Preserves.bind Apart.follows (apart_within evolving within_jsGetProperty)
    intro q
    apply Preserves.bind Apart.follows (apart_within evolving within_toDartJSValue)
    intro jval
    apply Preserves.bind Apart.follows (apart jval)
    intro element
    refine .bind Apart.follows (apart_perform evolving rfl) fun _ => ?_
    refine .bind Apart.follows (apart_perform evolving trivial) fun slot => ?_
    cases slot with
    | none => exact .throw Apart.follows _
    | some d =>
      have released : Preserves env S (Apart (· = list)) (do
          jval.release
          arrayLoop convert ctx val list rounds (i+1)) :=
        .bind Apart.follows (apart_jsFreeValue evolving) fun _ => ih (i+1)
      cases d with
      | hostFunction f => exact ih (i+1)
      | _ => exact released

omit [PackageFfi] in
theorem apart_mapLoop (evolving : Evolving S) {map table : Nat}
    (apart : ∀ jval, Preserves env S (Apart own) (convert jval)) (rounds i : Nat) :
    Preserves env S (Apart own) (mapLoop convert ctx val map table rounds i) := by
  induction rounds generalizing i with
  | zero => exact .pure Apart.follows ()
  | succ rounds ih =>
    refine .bind Apart.follows (apart_perform evolving trivial) fun jsAtom => ?_
    apply Preserves.bind Apart.follows (apart_within evolving within_jsAtomToValue)
    intro jsAtomValue
    apply Preserves.bind Apart.follows (apart_within evolving within_jsGetProperty)
    intro jsProp
    apply Preserves.bind Apart.follows (apart_fromJs evolving apart)
    intro key
    apply Preserves.bind Apart.follows (apart_fromJs evolving apart)
    intro value
    have rest : ∀ name, Preserves env S (Apart own) (do
        perform (.mapPut map name value)
        jsFreeValue jsAtomValue
        freeUnlessFunction jsProp
        jsFreeAtom jsAtom
        mapLoop convert ctx val map table rounds (i+1)) := by
      intro name
      refine .bind Apart.follows (apart_perform evolving trivial) fun _ => ?_
      apply Preserves.bind Apart.follows (apart_jsFreeValue evolving)
      intro _
      apply Preserves.bind Apart.follows (apart_releasing evolving within_freeUnlessFunction)
      intro _
      exact .bind Apart.follows (apart_perform evolving trivial) fun _ => ih (i+1)
    apply Preserves.bind Apart.follows _ rest
    cases key with
    | string s => exact .pure Apart.follows _
    | null => exact .pure Apart.follows _
    | _ => exact .throw Apart.follows _

omit [PackageFfi] in
/-- The array branch fills a list that was not there before. -/
theorem apart_arrayValue (evolving : Evolving S)
    (apart : ∀ own jval, Preserves env S (Apart own) (convert jval)) {valptr : ObjRef}
    {cache : Nat} (length : Int32) :
    Preserves env S (Apart own) (do
      let list ← perform .newList
      perform (.cachePut cache valptr (.list list))
      arrayLoop convert ctx val list length.toInt.toNat 0
      perform (.listDone list)
      return DartVal.list list) := by
  have rest : ∀ list, Preserves env S (Apart (· = list)) (do
      perform (.cachePut cache valptr (.list list))
      arrayLoop convert ctx val list length.toInt.toNat 0
      perform (.listDone list)
      return DartVal.list list) := by
    intro list
    refine .bind Apart.follows (apart_perform evolving (by simp [Outside])) fun _ => ?_
    apply Preserves.bind Apart.follows (apart_arrayLoop evolving (apart _) _ _)
    intro _
    exact .bind Apart.follows (apart_perform evolving rfl) fun _ => .pure Apart.follows _
  intro w
  rw [wp_bind]
  refine ⟨evolving.free _ w, fun total => absurd total evolving.partially, fun list w₁ made => ?_⟩
  have answered : env.answers S .newList w list w₁ := made
  have outside : Outside (fun _ => False) .newList := trivial
  have first : Apart (fun _ => False) w w₁ := apart_answers evolving outside answered
  have fresh : list = w.lists.length := (answers_known rfl answered).1
  rw [wp_done, andThen_ok]
  refine wp_mono (rest list w₁) fun out w' after => ?_
  have both : Apart (· = list) w w' := (first.mono fun _ _ owned => owned.elim).trans after
  refine both.mono fun l inside same => ?_
  rw [same, fresh] at inside
  exact absurd inside (lt_irrefl _)

theorem apart_objectValue (evolving : Evolving S)
    (apart : ∀ own jval, Preserves env S (Apart own) (convert jval)) {valptr : ObjRef}
    {cache : Nat} : Preserves env S (Apart own) (objectValue convert ctx val valptr cache) := by
  refine .bind Apart.follows (apart_perform evolving trivial) fun cached => ?_
  cases cached with
  | some d => exact .pure Apart.follows d
  | none =>
    apply Preserves.bind Apart.follows (apart_within evolving within_jsIsFunction)
    intro function
    apply Preserves.ite
    · exact .bind Apart.follows (apart_perform evolving trivial) fun _ => .pure Apart.follows _
    apply Preserves.bind Apart.follows (apart_within evolving within_jsIsArray)
    intro array
    apply Preserves.ite
    · rw [jsGetPropertyStr_length]
      apply Preserves.bind Apart.follows (apart_within evolving within_jsGetProperty)
      intro q
      apply Preserves.bind Apart.follows (apart_within evolving within_jsToInt32)
      intro length
      exact apart_arrayValue evolving apart length
    · refine .bind Apart.follows (apart_perform evolving trivial) fun map => ?_
      refine .bind Apart.follows (apart_perform evolving trivial) fun ptab => ?_
      refine .bind Apart.follows (apart_perform evolving trivial) fun plen => ?_
      refine .bind Apart.follows (apart_perform evolving (by simp [Outside])) fun _ => ?_
      apply Preserves.bind Apart.follows (apart_within evolving within_jsGetOwnPropertyNames)
      intro listed
      have rest : Preserves env S (Apart own) (do
          perform (.callocFreeCell ptab)
          perform (.callocFreeCell plen)
          return DartVal.map map) :=
        .bind Apart.follows (apart_perform evolving trivial) fun _ =>
          .bind Apart.follows (apart_perform evolving trivial) fun _ => .pure Apart.follows _
      apply Preserves.ite _ rest
      refine .bind Apart.follows (apart_perform evolving trivial) fun length => ?_
      refine .bind Apart.follows (apart_perform evolving trivial) fun table => ?_
      exact .bind Apart.follows (apart_mapLoop evolving (apart own) length 0) fun _ => rest

theorem apart_toDartValue (evolving : Evolving S) (fuel : Nat) (jval : JSRef)
    (cache : Option Nat) : Preserves env S (Apart own) (toDartValue fuel jval cache) := by
  induction fuel generalizing own jval cache with
  | zero => exact .throw Apart.follows _
  | succ n ih =>
    apply Preserves.bind Apart.follows (apart_within evolving within_jsValueGetTag)
    intro tag
    apply Preserves.ite
    · exact .bind Apart.follows (apart_within evolving within_jsToInt64) fun _ => .pure Apart.follows _
    apply Preserves.ite
    · exact .bind Apart.follows (apart_within evolving within_jsToBool) fun _ => .pure Apart.follows _
    apply Preserves.ite (.pure Apart.follows _)
    apply Preserves.ite
    · exact .bind Apart.follows (apart_within evolving within_jsGetException) fun _ =>
        .bind Apart.follows (apart_releasing evolving within_toDartException) fun _ =>
          .bind Apart.follows (apart_jsFreeValue evolving) fun _ => .pure Apart.follows _
    apply Preserves.ite
    · exact .bind Apart.follows (apart_within evolving within_jsToFloat64) fun _ =>
        .pure Apart.follows _
    apply Preserves.ite
    · exact .bind Apart.follows (apart_within evolving within_jsToCString) fun bytes =>
        .bind Apart.follows (apart_within evolving (within_dartString bytes)) fun _ =>
          .pure Apart.follows _
    apply Preserves.ite
    · apply Preserves.bind Apart.follows (apart_within evolving within_jsValueGetPtr)
      intro valptr
      have found : ∀ c, Preserves env S (Apart own)
          (objectValue (fun jval => toDartValue n jval (some c)) jval.ctx jval.val valptr c) :=
        fun c => apart_objectValue evolving fun own jval => ih jval (some c)
      cases cache with
      | some c => exact .bind Apart.follows (.pure Apart.follows c) found
      | none => exact .bind Apart.follows (apart_perform evolving trivial) found
    · exact .bind Apart.follows (apart_perform evolving trivial) fun _ => .pure Apart.follows _

omit [PackageFfi] in
/-- What a run makes of what a verified program preserves. -/
theorem apart_run {α : Type} {p : Action α} {h : List (Event Op Reply)} {out : Except DartError α}
    (apart : Preserves env S (Apart own) p) (run : Exec (env.answers S) p w h out w') :
    Apart own w w' :=
  wp_sound (apart w) run

/-- The conversion of the element at an index. -/
def elementAt (convert : JSRef → Action DartVal) (ctx : Ctx) (val : Ptr) (i : Nat) :
    Action DartVal := do
  let q ← jsGetProperty ctx val (.index i)
  let jval ← toDartJSValue ctx q false
  convert jval

/-- In the course of the run `h` the element at `i` of the array `o` was converted to `d`. -/
def ConvertedAt (S : Setting Op Reply World) (convert : JSRef → Action DartVal) (ctx : Ctx)
    (val : Ptr) (o : ObjRef) (h : List (Event Op Reply)) (i : Nat) (d : DartVal) : Prop :=
  ∃ w₁ h₁ w₂, h₁ <:+: h ∧ w₁.value val = .object o ∧
    Exec (env.answers S) (elementAt convert ctx val i) w₁ h₁ (.ok d) w₂

omit [PackageFfi] in
theorem ConvertedAt.within {o : ObjRef} {h h' : List (Event Op Reply)} {i : Nat} {d : DartVal}
    (part : h <:+: h') (converted : ConvertedAt S convert ctx val o h i d) :
    ConvertedAt S convert ctx val o h' i d := by
  obtain ⟨w₁, h₁, w₂, inside, rest⟩ := converted
  exact ⟨w₁, h₁, w₂, inside.trans part, rest⟩

omit [PackageFfi] in
/-- The rounds of the loop append the conversions of the elements, one after the other. -/
theorem arrayLoop_elements (evolving : Evolving S) {list : Nat} {o : ObjRef}
    (apart : ∀ own jval, Preserves env S (Apart own) (convert jval)) {rounds i : Nat}
    {h : List (Event Op Reply)} {u : Unit} {filled : List DartVal} (small : i + rounds ≤ 2^32)
    (holds : Holds w val (.object o)) (building : list ∈ w.building)
    (found : w.lists[list]? = some filled)
    (run : Exec (env.answers S) (arrayLoop convert ctx val list rounds i) w h (.ok u) w') :
    ∃ elements, w'.lists[list]? = some (filled ++ elements) ∧ elements.length = rounds ∧
      ∀ k d, elements[k]? = some d → ConvertedAt S convert ctx val o h (i + k) d := by
  induction rounds generalizing w h i filled with
  | zero =>
    obtain ⟨-, -, rfl⟩ := Exec.done_iff.mp run
    exact ⟨[], by simpa using found, rfl, by simp⟩
  | succ rounds ih =>
    rw [arrayLoop] at run
    obtain ⟨q, w₁, h₁, hs₁, read, run₁, rfl⟩ := Exec.bind_ok run
    obtain ⟨jval, w₂, h₂, hs₂, wrapped, run₂, rfl⟩ := Exec.bind_ok run₁
    obtain ⟨element, w₃, h₃, hs₃, converted, run₃, rfl⟩ := Exec.bind_ok run₂
    have index : (UInt32.ofNat i).toNat = i := UInt32.toNat_ofNat_of_lt' (by rw [UInt32.size]; omega)
    rw [jsGetPropertyUint32, index] at read
    have whole : Exec (env.answers S) (elementAt convert ctx val i) w (h₁ ++ (h₂ ++ h₃))
        (.ok element) w₃ := read.bind (wrapped.bind converted)
    have kept : Apart (fun _ => False) w w₃ := by
      apply apart_run ?_ whole
      exact .bind Apart.follows (apart_within evolving within_jsGetProperty) fun _ =>
        .bind Apart.follows (apart_within evolving within_toDartJSValue) (apart _)
    obtain ⟨building₃, same₃⟩ := kept.built list building id (List.getElem?_eq_some_iff.mp found).1
    have first : ∀ hs, ConvertedAt S convert ctx val o (h₁ ++ (h₂ ++ (h₃ ++ hs))) i element := by
      intro hs
      refine ⟨w, _, w₃, ?_, holds.value, whole⟩
      exact ⟨[], hs, by simp⟩
    obtain ⟨hs₄, run₄, rfl⟩ := run_answered (.listAdd list element) rfl run₃
    obtain ⟨hs₅, run₅, rfl⟩ := run_answered (.listGet list i) rfl run₄
    have found₄ : (w₃.lists.modify list (· ++ [element]))[list]? = some (filled ++ [element]) := by
      simp [same₃, found]
    have rest : ∀ w₆ hs₆ before, Apart (fun _ => False)
          { w₃ with lists := w₃.lists.modify list (· ++ [element]) } w₆ →
        Exec (env.answers S) (arrayLoop convert ctx val list rounds (i+1)) w₆ hs₆ (.ok u) w' →
        ∃ elements, w'.lists[list]? = some (filled ++ elements) ∧ elements.length = rounds + 1 ∧
          ∀ k d, elements[k]? = some d → ConvertedAt S convert ctx val o
            (h₁ ++ (h₂ ++ (h₃ ++ (before ++ hs₆)))) (i + k) d := by
      intro w₆ hs₆ before apart₆ run₆
      obtain ⟨building₆, same₆⟩ := apart₆.built list building₃ id
        (by simpa using (List.getElem?_eq_some_iff.mp (same₃.trans found)).1)
      have holds₄ : Holds { w₃ with lists := w₃.lists.modify list (· ++ [element]) } val (.object o) := by
        have holds₃ := kept.holds holds
        cases val with
        | box n => exact holds₃
        | slot a j => exact holds₃
      obtain ⟨elements, last, length, each⟩ := ih (by omega) (apart₆.holds holds₄) building₆
        (same₆.trans found₄) run₆
      refine ⟨element :: elements, ?_, by simp [length], fun k d at_ => ?_⟩
      · rw [last, List.append_assoc]
        rfl
      · cases k with
        | zero =>
          cases at_
          exact first _
        | succ k =>
          have there := each k d at_
          rw [Nat.add_right_comm, Nat.add_assoc] at there
          refine there.within ⟨h₁ ++ (h₂ ++ (h₃ ++ before)), [], by simp⟩
    split at run₅
    · obtain ⟨-, bad, -⟩ := Exec.fail_iff.mp run₅
      cases bad
    · exact rest _ hs₅ [_, _] (.refl _) run₅
    · obtain ⟨u₆, w₆, h₆, hs₆, freed, run₆, rfl⟩ := Exec.bind_ok run₅
      have after : Apart (fun _ => False) _ w₆ := apart_run (apart_jsFreeValue evolving) freed
      obtain ⟨elements, last, length, each⟩ := rest w₆ hs₆ ([_, _] ++ h₆) after run₆
      refine ⟨elements, last, length, fun k d at_ => ?_⟩
      have there := each k d at_
      rw [List.append_assoc] at there
      exact there

end

section

variable [PackageFfi] {rely : World → World → Prop} {total : Prop} {ctx : Ctx} {val : Ptr}
  {o : ObjRef} {obj : JSObj} {w w' : World} {fuel : Nat} {jval : JSRef}

/-- The length that the loop over an array counts to. -/
def loopLength (ctx : Ctx) (val : Ptr) : Action Int32 := do
  jsToInt32 ctx (← jsGetPropertyStr ctx val (toNativeUtf8 (units "length")))

omit [PackageFfi] in
theorem reads_length (array : o.kind = .array) (found : w.heap.find o = some obj)
    (holds : w.value val = .object o) :
    answer (.getProperty ctx (w.value val) (.string lengthName)) w =
      some (.newUint32 obj.length, w.credit (.newUint32 obj.length)) := by
  have reads : w.reads (.object o) (.string lengthName) = .value (.newUint32 obj.length) :=
    get_length array found
  simp only [answer, holds, reads]

theorem plain_getLength (array : o.kind = .array) (found : w.heap.find o = some obj)
    (holds : w.value val = .object o) {Q : Except DartError Ptr → World → Prop}
    (rest : ∀ w', w'.value (.box w.boxes.length) = .newUint32 obj.length →
      Q (.ok (.box w.boxes.length)) w') :
    wp env (.plain rely total) (jsGetPropertyStr ctx val (toNativeUtf8 (units "length"))) Q w := by
  rw [jsGetPropertyStr_length, jsGetProperty, wp_bind, plain_load, andThen_ok, wp_bind,
    plain_answer _ (reads_length array found holds), andThen_ok, plain_new]
  exact rest _ (getD_append_self _ _ _)

theorem loopLength_reads (array : o.kind = .array) (found : w.heap.find o = some obj)
    (holds : w.value val = .object o) {n : Int32}
    (reads : (JSValue.newUint32 obj.length).toInt32? = some n) :
    wp env (.plain rely total) (loopLength ctx val) (fun out _ => out = .ok n) w := by
  rw [loopLength, wp_bind]
  apply plain_getLength array found holds
  intro w' value
  have known : answer (.toInt32 ctx (.newUint32 obj.length)) w' = some (n,w') := by
    simp only [answer, reads]
  rw [andThen_ok, jsToInt32, wp_bind, plain_load, andThen_ok, value, plain_answer _ known]

theorem length_reads (array : o.kind = .array) (found : w.heap.find o = some obj)
    (holds : w.value val = .object o) {n : Int64}
    (reads : (JSValue.newUint32 obj.length).toInt64? = some n) :
    wp env (.plain rely total) (JSArray.length ctx val) (fun out _ => out = .ok n) w := by
  rw [JSArray.length, wp_bind]
  apply plain_getLength array found holds
  intro w' value
  have known : answer (.toInt64 ctx (.newUint32 obj.length)) w' = some (n,w') := by
    simp only [answer, reads]
  rw [andThen_ok, jsToInt64, wp_bind, plain_load, andThen_ok, value, plain_answer _ known]

omit [PackageFfi] in
theorem toInt_of_short {n : UInt32} (short : n.toNat < 2^31) {m : Int32}
    (reads : (JSValue.newUint32 n).toInt32? = some m) : m.toInt = n.toNat := by
  have small : n.toNat ≤ 0x7fffffff := by omega
  simp only [JSValue.newUint32, small, if_true, JSValue.toInt32?_int, Option.some.injEq] at reads
  rw [← reads, Int32.toInt_ofNat_of_lt (by omega)]

omit [PackageFfi] in
theorem toInt64?_newUint32 (n : UInt32) :
    ∃ r, (JSValue.newUint32 n).toInt64? = some r ∧ r.toInt = n.toNat := by
  have bound := n.toNat_lt
  unfold JSValue.newUint32
  split
  · refine ⟨_, rfl, ?_⟩
    rw [Int32.toInt_toInt64, Int32.toInt_ofNat_of_lt (by omega)]
  · refine ⟨_, rfl, ?_⟩
    rw [Double.ofUInt32, Double.toInt64, truncate_ofInt,
      Int64.toInt_ofInt_of_le (by omega) (by omega)]

/-- The list made for the array `o` of `n` elements holds the conversions of all of them. -/
def ListsWhole (w : World) (jval : JSRef) (o : ObjRef) (n : Nat) : Prop :=
  ∀ rely, (∀ w w', rely w w' → Evolves w w') → ∀ fuel cache h d w',
    (∀ c, cache = some c → cacheAt w c o.address = none) →
    Exec (env.answers (.plain rely False)) (toDartValue (fuel+1) jval cache) w h (.ok d) w' →
    ∃ l elements c, d = .list l ∧ w'.lists[l]? = some elements ∧ elements.length = n ∧
      ∀ i e, elements[i]? = some e → ConvertedAt (.plain rely False)
        (fun jval => toDartValue fuel jval (some c)) jval.ctx jval.val o h i e

/-- The two ways to read the length of an array give the same number. -/
def LengthsAgree (w : World) (jval : JSRef) : Prop :=
  ∀ rely h h' n n' w₁ w₂,
    Exec (env.answers (.plain rely False)) (loopLength jval.ctx jval.val) w h (.ok n) w₁ →
    Exec (env.answers (.plain rely False)) (JSArray.length jval.ctx jval.val) w h' (.ok n') w₂ →
    n.toInt = n'.toInt

/-- The list has as many elements as the loop counts to. -/
theorem objectValue_elements (evolves : ∀ w w', rely w w' → Evolves w w')
    (array : o.kind = .array) (found : w.heap.find o = some obj) (holds : Holds w val (.object o))
    {c : Nat} (fresh : cacheAt w c o.address = none) {h : List (Event Op Reply)} {d : DartVal}
    (run : Exec (env.answers (.plain rely False))
      (objectValue (fun jval => toDartValue fuel jval (some c)) ctx val o c) w h (.ok d) w') :
    ∃ l elements, d = .list l ∧ w'.lists[l]? = some elements ∧
      elements.length = readLength obj.length ∧
      ∀ i e, elements[i]? = some e → ConvertedAt (.plain rely False)
        (fun jval => toDartValue fuel jval (some c)) ctx val o h i e := by
  have evolving : Evolving (.plain rely False) := ⟨fun _ _ => trivial, id, evolves⟩
  have notFunction : (JSValue.object o).isFunction = false := by simp [JSValue.isFunction, array]
  have missing : answer (.cacheFind c o) w = some (none,w) := by
    simp only [answer]
    exact congrArg (fun x => some (x,w)) fresh
  have isArray : answer (.isArray ctx (.object o)) w = some (1,w) := by
    simp only [answer, array]
  rw [objectValue] at run
  obtain ⟨hs₁, run₁, rfl⟩ := run_answered _ missing run
  obtain ⟨hs₂, run₂, rfl⟩ := run_answered (.load val) rfl run₁
  change Exec _ (if (w.value val).isFunction then _ else _) w hs₂ _ _ at run₂
  rw [holds.value, notFunction, if_neg Bool.false_ne_true] at run₂
  obtain ⟨hs₃, run₃, rfl⟩ := run_answered (.load val) rfl run₂
  rw [holds.value] at run₃
  obtain ⟨hs₄, run₄, rfl⟩ := run_answered _ isArray run₃
  change Exec _ (if (1 : Int32) ≠ 0 then _ else _) w hs₄ _ _ at run₄
  rw [if_pos (by decide)] at run₄
  obtain ⟨q, w₅, h₅, hs₅, read, run₅, rfl⟩ := Exec.bind_ok run₄
  obtain ⟨length, w₆, h₆, hs₆, asked, run₆, rfl⟩ := Exec.bind_ok run₅
  have counted : Exec (env.answers (.plain rely False)) (loopLength ctx val) w (h₅ ++ h₆)
      (.ok length) w₆ := read.bind asked
  obtain ⟨n, reads, toNat⟩ := toInt32?_newUint32 obj.length
  have same := wp_sound (Q := fun out _ => out = .ok n)
    (loopLength_reads array found holds.value reads) counted
  cases same
  have apart₆ : Apart (fun _ => False) w w₆ := by
    apply apart_run ?_ counted
    rw [loopLength, jsGetPropertyStr_length]
    exact .bind Apart.follows (apart_within evolving within_jsGetProperty) fun _ =>
      apart_within evolving within_jsToInt32
  obtain ⟨hs₇, run₇, rfl⟩ := run_answered .newList rfl run₆
  obtain ⟨hs₈, run₈, rfl⟩ := run_answered (.cachePut c o _) rfl run₇
  obtain ⟨u, w₉, h₉, hs₉, looped, run₉, rfl⟩ := Exec.bind_ok run₈
  obtain ⟨hs₁₀, run₁₀, rfl⟩ := run_answered (.listDone _) rfl run₉
  obtain ⟨rfl, ended, rfl⟩ := Exec.done_iff.mp run₁₀
  cases ended
  have small : 0 + length.toInt.toNat ≤ 2^32 := by
    have bound := readLength_le obj.length
    have below := obj.length.toNat_lt
    omega
  have holds₈ : Holds w₆ val (.object o) := apart₆.holds holds
  have found₈ : (w₆.lists ++ [[]])[w₆.lists.length]? = some ([] : List DartVal) := by simp
  have inside : ∀ {w'' : World}, Holds w₆ val (.object o) → w''.boxes = w₆.boxes →
      w''.arrays = w₆.arrays → Holds w'' val (.object o) := by
    intro w'' holds₆ boxes arrays
    cases val with
    | box k => rwa [Holds, boxes]
    | slot a j => rwa [Holds, World.value, arrays]
  obtain ⟨elements, last, count, each⟩ := arrayLoop_elements evolving
    (fun own jval => apart_toDartValue evolving fuel jval (some c)) small
    (by exact inside holds₈ rfl rfl) (by simp) found₈ looped
  refine ⟨w₆.lists.length, elements, rfl, last, by rw [count, toNat], fun i e at_ => ?_⟩
  have there := each i e at_
  rw [Nat.zero_add] at there
  apply there.within
  have tail : h₉ <:+: h₉ ++ [⟨.listDone w₆.lists.length,()⟩] := ⟨[], _, rfl⟩
  refine List.infix_cons (List.infix_cons (List.infix_cons (List.infix_cons ?_)))
  exact (List.infix_cons (List.infix_cons tail)).trans
    ((List.suffix_append h₆ _).trans (List.suffix_append h₅ _)).isInfix

theorem toDartValue_elements (evolves : ∀ w w', rely w w' → Evolves w w')
    (array : o.kind = .array) (found : w.heap.find o = some obj)
    (holds : Holds w jval.val (.object o)) {cache : Option Nat}
    (fresh : ∀ c, cache = some c → cacheAt w c o.address = none) {h : List (Event Op Reply)}
    {d : DartVal}
    (run : Exec (env.answers (.plain rely False)) (toDartValue (fuel+1) jval cache) w h (.ok d) w') :
    ∃ l elements c, d = .list l ∧ w'.lists[l]? = some elements ∧
      elements.length = readLength obj.length ∧
      ∀ i e, elements[i]? = some e → ConvertedAt (.plain rely False)
        (fun jval => toDartValue fuel jval (some c)) jval.ctx jval.val o h i e := by
  simp only [toDartValue] at run
  obtain ⟨hs₁, run₁, rfl⟩ := run_answered (.load jval.val) rfl run
  change Exec _ (if (w.value jval.val).tag = JSTag.INT then _ else _) w hs₁ _ _ at run₁
  simp only [holds.value, JSValue.tag, JSTag.OBJECT, JSTag.INT, JSTag.BOOL, JSTag.NULL,
    JSTag.UNDEFINED, JSTag.EXCEPTION, JSTag.FLOAT64, JSTag.STRING, Int.reduceNeg, Int.reduceEq,
    or_self, reduceIte] at run₁
  obtain ⟨hs₂, run₂, rfl⟩ := run_answered (.load jval.val) rfl run₁
  rw [holds.value] at run₂
  cases cache with
  | some c =>
    obtain ⟨l, elements, same, last, count, each⟩ :=
      objectValue_elements evolves array found holds (fresh c rfl) run₂
    refine ⟨l, elements, c, same, last, count, fun i e at_ => (each i e at_).within ?_⟩
    exact List.infix_cons (List.infix_cons (List.infix_refl _))
  | none =>
    obtain ⟨hs₃, run₃, rfl⟩ := run_answered (.newCache o) rfl run₂
    have holds₃ : Holds w.newCache jval.val (.object o) := by
      cases place : jval.val with
      | box n =>
        rw [place] at holds
        exact holds
      | slot a j =>
        rw [place] at holds
        exact holds
    obtain ⟨l, elements, same, last, count, each⟩ :=
      objectValue_elements (w := w.newCache) evolves array found holds₃
        (cacheAt_newCache w o.address) run₃
    refine ⟨l, elements, _, same, last, count, fun i e at_ => (each i e at_).within ?_⟩
    exact List.infix_cons (List.infix_cons (List.infix_cons (List.infix_refl _)))

theorem not_lengthsAgree (array : o.kind = .array) (found : w.heap.find o = some obj)
    (holds : w.value jval.val = .object o) (long : 2^31 ≤ obj.length.toNat) :
    ¬LengthsAgree w jval := by
  intro agree
  obtain ⟨n, reads, toNat⟩ := toInt32?_newUint32 obj.length
  obtain ⟨n', reads', toInt'⟩ := toInt64?_newUint32 obj.length
  have counts : wp env (.plain Eq True) (loopLength jval.ctx jval.val) (fun out _ => out = .ok n) w :=
    loopLength_reads array found holds reads
  have measures : wp env (.plain Eq True) (JSArray.length jval.ctx jval.val)
      (fun out _ => out = .ok n') w := length_reads array found holds reads'
  obtain ⟨h, out, w₁, run⟩ := wp_runs counts trivial
  obtain ⟨h', out', w₂, run'⟩ := wp_runs measures trivial
  have same := wp_sound counts run
  have same' := wp_sound measures run'
  rw [same] at run
  rw [same'] at run'
  have equal := agree Eq _ _ _ _ _ _ run run'
  rw [readLength_of_ge long] at toNat
  omega

theorem not_listsWhole (fuel : Nat) (array : o.kind = .array) (found : w.heap.find o = some obj)
    (holds : Holds w jval.val (.object o)) (long : 2^31 ≤ obj.length.toNat)
    (returns : ∃ h d w', Exec (env.answers (.plain Eq False)) (toDartValue (fuel+1) jval none) w h
      (.ok d) w') : ¬ListsWhole w jval o obj.length.toNat := by
  intro whole
  obtain ⟨h, d, w', run⟩ := returns
  have evolves : ∀ w w' : World, w = w' → Evolves w w' := fun _ _ => Evolves.of_eq
  obtain ⟨l, elements, c, rfl, last, all, -⟩ := whole Eq evolves fuel none h d w' (by simp) run
  obtain ⟨l', elements', c', same, last', none, -⟩ :=
    toDartValue_elements evolves array found holds (by simp) run
  cases same
  cases Option.some.inj (last.symm.trans last')
  rw [readLength_of_ge long] at none
  omega

/-- An array of 2^31 elements or more is converted to an empty list; the getter sees them all. -/
theorem listsWhole_iff (array : o.kind = .array) (found : w.heap.find o = some obj)
    (holds : Holds w jval.val (.object o)) :
    ListsWhole w jval o obj.length.toNat ∧ LengthsAgree w jval ↔ obj.length.toNat < 2^31 := by
  constructor
  · intro both
    by_contra long
    exact not_lengthsAgree array found holds.value (by omega) both.2
  · intro short
    constructor
    · intro rely evolves fuel cache h d w' fresh run
      have elements := toDartValue_elements evolves array found holds fresh run
      rwa [readLength_of_lt short] at elements
    · intro rely h h' m m' w₁ w₂ run run'
      obtain ⟨n, reads, -⟩ := toInt32?_newUint32 obj.length
      obtain ⟨n', reads', toInt'⟩ := toInt64?_newUint32 obj.length
      have same := wp_sound (Q := fun out _ => out = .ok n)
        (loopLength_reads array found holds.value reads) run
      have same' := wp_sound (Q := fun out _ => out = .ok n')
        (length_reads array found holds.value reads') run'
      cases same
      cases same'
      rw [toInt', toInt_of_short short reads]

end

def arrayRef : ObjRef := ⟨1,0,.array⟩

/-- An array of `n` holes in a box. -/
def holesWorld (n : UInt32) : World :=
  { World.initial with
    boxes := [.object arrayRef]
    heap := World.initial.heap.put arrayRef ⟨.empty,none,true,n,true,some 0⟩ }

theorem listsWhole_three :
    letI := PackageFfi.utf8
    ListsWhole (holesWorld 3) ⟨.array,0,.box 0⟩ arrayRef 3 ∧
      LengthsAgree (holesWorld 3) ⟨.array,0,.box 0⟩ := by
  let _ := PackageFfi.utf8
  have holds : Holds (holesWorld 3) (.box 0) (.object arrayRef) := rfl
  have found : (holesWorld 3).heap.find arrayRef = some ⟨.empty,none,true,3,true,some 0⟩ := rfl
  have whole : ListsWhole (holesWorld 3) ⟨.array,0,.box 0⟩ arrayRef (3 : UInt32).toNat ∧
      LengthsAgree (holesWorld 3) ⟨.array,0,.box 0⟩ ↔ (3 : UInt32).toNat < 2^31 :=
    listsWhole_iff rfl found holds
  exact whole.mpr (by decide)

/-- The loop over an array of 2^31 holes reads a negative length, and the list stays empty. -/
theorem not_listsWhole_long :
    letI := PackageFfi.utf8
    ¬ListsWhole (holesWorld 2147483648) ⟨.array,0,.box 0⟩ arrayRef 2147483648 ∧
      ¬LengthsAgree (holesWorld 2147483648) ⟨.array,0,.box 0⟩ := by
  let _ := PackageFfi.utf8
  have found : (holesWorld 2147483648).heap.find arrayRef =
    some ⟨.empty,none,true,2147483648,true,some 0⟩ := rfl
  have holds : Holds (holesWorld 2147483648) (.box 0) (.object arrayRef) := rfl
  constructor
  · exact not_listsWhole 0 (o := arrayRef) rfl found holds (by decide)
      ⟨_, _, _, .of_trace plain_known rfl⟩
  · exact not_lengthsAgree (o := arrayRef) rfl found rfl (by decide)

end FlutterQuickjs.Conversion
