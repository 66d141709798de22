import FlutterQuickjs.Conversion.EncodeArray

namespace FlutterQuickjs.Conversion

open Engine Binding ValueConverter
open Effect

section

variable {finds : CString → PropKey → Prop} {rely : World → World → Prop} {good : Prop}
  {w w' : World} {ctx : Ctx}

theorem Builds.fetch (w : World) (v : JSValue) : Builds w (w.fetch v) :=
  { Builds.refl w with boxes := .append _ _ }

theorem Builds.of_same (stores : Stores w w' w.heap) : Builds w w' :=
  ⟨stores.lists, stores.maps, stores.realm, stores.arrays, stores.boxes ▸ .refl _,
    stores.serial ▸ le_rfl, fun _ _ => by rw [stores.heap]⟩

theorem stores_refl (w : World) : Stores w w w.heap := ⟨rfl, rfl, rfl, rfl, rfl, rfl, rfl⟩

theorem building_proxyNew {f : DartFunction} {Q : Except DartError Nat → World → Prop}
    (every : ∀ id w', Stores w w' w.heap → Q (.ok id) w') :
    wp env (building finds rely good) (HostFunctionProxy.new ctx f) Q w := by
  have listed : ∀ w', Stores w w' w.heap → wp env (building finds rely good) (do
      let funcList ← perform (.hostFunctions ctx)
      let funcList := funcList.getD [] ++ [HostFunction.new (.function f)]
      perform (.setHostFunctions ctx (some funcList))
      return funcList.length - 1) Q w' := by
    intro w' stores
    rw [wp_bind, building_answer (.hostFunctions ctx) rfl, andThen_ok, wp_bind,
      building_answer (.setHostFunctions ctx _) rfl, andThen_ok, wp_pure]
    exact every _ _ ⟨stores.heap, stores.lists, stores.maps, stores.realm, stores.arrays,
      stores.boxes, stores.serial⟩
  rw [HostFunctionProxy.new, wp_bind, building_answer .initialized rfl, andThen_ok, wp_ite]
  refine ⟨fun _ => ?_, fun _ => listed w (stores_refl w)⟩
  rw [wp_bind, registerGlobalDartCallback, building_answer .registerCallback rfl, andThen_ok,
    wp_bind, building_answer .setInitialized rfl, andThen_ok]
  exact listed _ ⟨rfl, rfl, rfl, rfl, rfl, rfl, rfl⟩

theorem building_createFunction {slot : Nat} {f : DartFunction}
    {Q : Except DartError Ptr → World → Prop}
    (every : ∀ w' o, Builds w w' → Holds w' w.lastBox (.object o) → o.kind = .function →
      (w'.heap.find o).isSome → w.serial ≤ o.serial → o.serial < w'.serial →
      Q (.ok w.lastBox) w') :
    wp env (building finds rely good) (do
      let jsVal ← createFunctionFromDart ctx slot
      perform (.origin jsVal f)
      return jsVal) Q w := by
  rw [wp_bind, createFunctionFromDart, wp_bind, wp_choice (by exact id) rfl]
  obtain ⟨address, free⟩ := w.heap.exists_free
  refine ⟨fun _ => id, fun _ => ⟨_, _, trivial, address, free, rfl, rfl⟩, ?_⟩
  rintro r w' - ⟨address, free, rfl, isWorld⟩
  have built : Builds w (w.allocate address .function (w.realm ctx).functionProto) :=
    .allocate free
  have made : Builds w w' := by
    rw [isWorld]
    exact ⟨built.lists, built.maps, built.realm, built.arrays, .refl _, built.serial, built.old⟩
  have later : w'.serial = w.serial + 1 := by
    rw [isWorld]
    rfl
  have found : (w'.heap.find ⟨address,w.serial,.function⟩).isSome := by
    rw [isWorld]
    exact Option.isSome_iff_exists.mpr ⟨_, find_allocate free⟩
  have box : w'.lastBox = w.lastBox := by
    rw [isWorld]
    rfl
  clear isWorld
  have holds := holds_lastBox w' (.object ⟨address,w.serial,.function⟩)
  rw [andThen_ok, building_new, andThen_ok, wp_bind, box] at *
  rw [building_answer (.origin w.lastBox f) (by simp only [answer, holds.value]; rfl),
    andThen_ok, wp_pure]
  have added := made.trans (.addBox w' (.object ⟨address,w.serial,.function⟩))
  exact every _ _ ⟨added.lists, added.maps, added.realm, added.arrays, added.boxes, added.serial,
    added.old⟩ holds rfl found le_rfl (by change w.serial < w'.serial; omega)

end

variable [PackageFfi] {finds : CString → PropKey → Prop} {interned : CString → Bool}
  {rely : World → World → Prop} {good : Prop} {w₀ w : World}
  {root : ObjRef} {chain : List (ObjRef × JSObj)} {n : Nat} {ctx : Ctx}

omit [PackageFfi] in
/-- A value that is put into a box needs nothing else. -/
theorem encodes_new {d : DartVal} {v : JSValue}
    (leaf : Encoded interned w₀ root w.heap (n+1) d v w.serial w.serial) :
    wp env (building finds rely good) (perform (.new v)) (Encodes interned w₀ root good (n+1) w d) w := by
  rw [building_new]
  exact ⟨.addBox w _, _, holds_lastBox w _, leaf⟩

omit [PackageFfi] in
theorem encodes_unsupported {d : DartVal}
    (leaf : Encoded interned w₀ root w.heap (n+1) d .undefined w.serial w.serial) :
    wp env (building finds rely good) (do perform .warn; jsUndefined)
      (Encodes interned w₀ root good (n+1) w d) w := by
  rw [wp_bind, building_answer .warn rfl, andThen_ok]
  exact encodes_new leaf

/-- What `toQuickJSValue` makes, by induction on the stack that is left. -/
theorem toQuickJSValue_encodes (calm : good ∨ ∀ w w', rely w w' → w' = w)
    (prototypes : good → Prototypes w₀ (w₀.realm ctx).objectProto chain) (n : Nat) :
    Encoder finds interned rely w₀ (w₀.realm ctx).objectProto chain good n
      (toQuickJSValue n ctx) := by
  induction n with
  | zero =>
    intro d w _ _ fits isGood
    exact fits isGood
  | succ n ih =>
    intro d w since predictable fits
    cases d with
    | list l =>
      rw [toQuickJSValue, wp_bind]
      refine building_jsNewArray fun address free => ?_
      have built : Builds w (w.allocate address .array (w.realm ctx).arrayProto) := .allocate free
      have listing : Listing interned w₀ w (w₀.realm ctx).objectProto n (w₀.lists.getD l []) 0
          ⟨address,w.serial,.array⟩ (.bare (some (w.realm ctx).arrayProto))
          ((w.allocate address .array (w.realm ctx).arrayProto).fetch
            (.object ⟨address,w.serial,.array⟩)) :=
        { builds := built.trans (.fetch _ _)
          found := find_allocate free
          extensible := rfl
          writable := rfl
          first := le_rfl
          last := Nat.lt_succ_self _
          holds := ⟨.empty _ _ rfl, rfl, fun j before => absurd before (Nat.not_lt_zero j)⟩ }
      have holds := holds_lastBox ((w.allocate address .array (w.realm ctx).arrayProto).credit
        (.object ⟨address,w.serial,.array⟩)) (.object ⟨address,w.serial,.array⟩)
      rw [andThen_ok, wp_bind]
      refine wp_mono (elementLoop_encodes ih predictable (fun isGood => (fits isGood).2) since rfl n 0
        (fun isGood => by rw [Nat.zero_add]; exact (fits isGood).1) (Nat.zero_le _) listing holds)
        fun out w' done => ?_
      cases out with
      | error e => exact done
      | ok _ =>
        obtain ⟨holds', obj', listing'⟩ := done
        rw [andThen_ok, wp_pure]
        exact ⟨listing'.builds, _, holds', _, obj', rfl, rfl, listing'.found, listing'.first,
          listing'.last, listing'.holds⟩
    | map m =>
      rw [toQuickJSValue, wp_bind]
      refine building_jsNewObject fun address free => ?_
      have built : Builds w (w.allocate address .ordinary (w.realm ctx).objectProto) :=
        .allocate free
      have proto : (w.realm ctx).objectProto = (w₀.realm ctx).objectProto := by rw [since.realm]
      have record : Record interned w₀ w (w₀.realm ctx).objectProto good n (w₀.maps.getD m .empty).keys
          ((w₀.maps.getD m .empty).entries.take 0) ⟨address,w.serial,.ordinary⟩
          (.bare (some (w.realm ctx).objectProto))
          ((w.allocate address .ordinary (w.realm ctx).objectProto).fetch
            (.object ⟨address,w.serial,.ordinary⟩)) :=
        { builds := built.trans (.fetch _ _)
          found := find_allocate free
          extensible := rfl
          proto := fun _ => congrArg some proto
          first := le_rfl
          last := Nat.lt_succ_self _
          holds := ⟨.empty _ _ rfl, fun _ _ _ => .inl ⟨congrArg some proto, by simp, rfl⟩⟩ }
      have holds := holds_lastBox ((w.allocate address .ordinary (w.realm ctx).objectProto).credit
        (.object ⟨address,w.serial,.ordinary⟩)) (.object ⟨address,w.serial,.ordinary⟩)
      have maps : w.maps = w₀.maps := since.maps
      rw [andThen_ok, wp_bind, building_mapEntries, andThen_ok, wp_bind]
      have same : ((((w.allocate address .ordinary (w.realm ctx).objectProto).fetch
          (.object ⟨address,w.serial,.ordinary⟩)).maps.getD m .empty).entries.map Prod.fst) =
          (w₀.maps.getD m .empty).keys := by
        change (w.maps.getD m .empty).keys = _
        rw [maps]
      rw [same]
      refine wp_mono (entryLoop_encodes ih calm prototypes predictable fits since rfl _ 0
        (by rw [OrderedMap.keys, List.length_map, Nat.zero_add]) record holds) fun out w' done => ?_
      cases out with
      | error e => exact done
      | ok _ =>
        obtain ⟨holds', obj', record'⟩ := done
        rw [andThen_ok, wp_pure]
        exact ⟨record'.builds, _, holds', _, obj', rfl, rfl, record'.found, record'.first,
          record'.last, record'.holds⟩
    | function f =>
      rw [toQuickJSValue, wp_bind]
      refine building_proxyNew fun slot w' stores => ?_
      rw [andThen_ok]
      have serial : w'.serial = w.serial := stores.serial
      refine building_createFunction fun w'' o builds holds function live first last => ?_
      exact ⟨(Builds.of_same stores).trans builds, _, holds, o, rfl, function, live, by omega, last⟩
    | string s =>
      rw [toQuickJSValue, jsNewString, wp_bind, building_answer (.newString _) rfl, andThen_ok,
        building_new, fromUtf8_toNativeUtf8]
      exact ⟨.fetch w _, _, holds_lastBox (w.credit _) _, rfl, le_rfl⟩
    | null => exact encodes_new (And.intro rfl le_rfl)
    | bool b => exact encodes_new (And.intro rfl le_rfl)
    | int i => exact encodes_new (And.intro rfl le_rfl)
    | double x => exact encodes_new (And.intro rfl le_rfl)
    | hostFunction f => exact encodes_unsupported (And.intro rfl le_rfl)
    | exception message => exact encodes_unsupported (And.intro rfl le_rfl)
    | other x => exact encodes_unsupported (And.intro rfl le_rfl)

omit [PackageFfi] in
/-- Fewer lookups are considered where their results are known. -/
theorem building_of_plain {finds : CString → PropKey → Prop} {α : Type} {p : Action α}
    {Q : Except DartError α → World → Prop} (possible : ∀ name, finds name (.string (fromUtf8 name)) ∨
      finds name (.string (latin1 name))) (verified : wp env (.plain rely True) p Q w) :
    wp env ⟨rely, fun _ _ => True, fun op _ r => Finds finds op r, True⟩ p Q w := by
  refine wp_fewer verified (fun _ _ => id) (fun _ _ => id) (fun _ _ _ _ => trivial) fun _ =>
    ⟨trivial, fun op w answerable => ?_⟩
  cases op with
  | findAtom name =>
    rcases possible name with own | other
    · exact ⟨_, w, own, .inl ⟨id, .inl rfl, rfl⟩⟩
    · exact ⟨_, w, other, .inl ⟨id, .inr rfl, rfl⟩⟩
  | _ =>
    obtain ⟨r, w', -, answer⟩ := answerable
    exact ⟨r, w', trivial, answer⟩

omit [PackageFfi] in
theorem possible_findsExactly (interned : CString → Bool) (name : CString) :
    findsExactly interned name (.string (fromUtf8 name)) ∨
      findsExactly interned name (.string (latin1 name)) := by
  unfold findsExactly atomName
  split
  · exact .inr rfl
  · exact .inl rfl

end FlutterQuickjs.Conversion
