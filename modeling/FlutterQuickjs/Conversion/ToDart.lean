import FlutterQuickjs.Conversion.DecodeValue

namespace FlutterQuickjs.Conversion

open Engine Binding ValueConverter
open Effect

section

variable {c n : Nat} {ctx : Ctx} {w₀ w w' : World} {o : ObjRef} {obj : JSObj} {d : DartVal}
  {l m : Nat} {v : JSValue}

/-- A list with the image of every element shows the whole array. -/
theorem ListFilled.complete (filled : ListFilled w₀ w c ctx o l (readLength obj.length))
    (array : o.kind = .array) (found : w.heap.find o = some obj) :
    Complete w c ctx o (.list l) := by
  have graph := jsGraph_array readLength array found
  have image : ∀ s x d, (jsGraph readLength w.heap (.object o)).child s = some x →
      (dartGraph w (.list l)).child (s.map keyRead) = some d → Image w c ctx x d := by
    intro s x d child child'
    rw [graph] at child
    cases s with
    | key k => cases child
    | index i =>
      obtain ⟨j, at_i, rfl⟩ : ∃ j, (List.range (readLength obj.length))[i]? = some j ∧
          Conversion.element w.heap o j = x := by
        simpa [View.child] using child
      obtain ⟨inside, same⟩ := List.getElem?_eq_some_iff.mp at_i
      obtain rfl : i = j := by simpa using same
      exact filled.elements i d child'
  refine ⟨fun s d child => ?_, fun _ => ?_, fun _ => image⟩
  · cases s with
    | key k => cases child
    | index i =>
      have inside := (List.getElem?_eq_some_iff.mp child).1
      rw [filled.count] at inside
      have shown : (jsGraph readLength w.heap (.object o)).child (.index i) =
          some (Conversion.element w.heap o i) := by
        rw [graph]
        simp only [View.child, List.getElem?_map]
        rw [List.getElem?_range inside, Option.map_some]
      exact ⟨.index i, _, shown, rfl, image (.index i) _ d shown child⟩
  · rw [graph]
    change ((List.range (readLength obj.length)).map (element w.heap o)).length =
      (w.lists.getD l []).length
    rw [filled.count, List.length_map, List.length_range]

/-- A map with an entry for every key shows the whole object. -/
theorem MapFilled.complete (filled : MapFilled w₀ w c ctx o obj m obj.enumerableKeys)
    (ordinary : o.kind = .ordinary) (found : w.heap.find o = some obj) :
    Complete w c ctx o (.map m) := by
  have graph := jsGraph_ordinary readLength ordinary found
  have apart : KeysApart w.heap (.object o) → (obj.enumerableKeys.map keyRead).Nodup := by
    intro apart
    rw [KeysApart, graph] at apart
    rwa [← keys_ownRecord]
  refine ⟨fun s d child => ?_, fun isApart => ?_, fun isApart s x d child child' => ?_⟩
  · cases s with
    | index i => cases child
    | key key =>
      obtain ⟨k, member, rfl, image⟩ := filled.sources key d child
      refine ⟨.key k, _, ?_, rfl, image⟩
      rw [graph]
      exact find_ownRecord.mpr ⟨member, rfl⟩
  · rw [graph]
    change (w.maps.getD m .empty).keys.Perm ((ownRecord obj).keys.map keyRead)
    rw [keys_ownRecord, filled.inserted (apart isApart)]
  · rw [graph] at child
    cases s with
    | index i => cases child
    | key k =>
      obtain ⟨inside, rfl⟩ := find_ownRecord.mp child
      obtain ⟨d', found', image⟩ := filled.values (apart isApart) k inside
      have same : (w.maps.getD m .empty).find (keyRead k) = some d := child'
      rw [found'] at same
      cases same
      exact image

theorem Extends.cache (inside : c < w.caches.length) (fresh : cacheAt w c o.address = none) :
    Extends c w (w.cache c o d) :=
  { Extends.refl c w with
    caches := by simp [World.cache]
    cached := by
      intro a d' found
      rw [cacheAt_cache inside, if_neg]
      · exact found
      · rintro rfl
        rw [fresh] at found
        cases found }

end

variable [PackageFfi] {rely : World → World → Prop} {total : Prop} {c n : Nat} {ctx : Ctx}
  {w : World} {o : ObjRef} {obj : JSObj} {val : Ptr} {convert : JSRef → Action DartVal}

omit [PackageFfi] in
/-- A live object that is a function lies at no cached address. -/
theorem sound_lookup (sound : SoundCache w c) (live : w.heap.Live o) :
    SoundLookup (.cacheFind c o) w := by
  intro function
  cases found : cacheAt w c o.address with
  | none => exact found
  | some d =>
    obtain ⟨o', live', address, kind⟩ := sound.origin _ d found
    cases Heap.eq_of_address_eq live' live address
    rcases kind with ⟨array, -⟩ | ⟨ordinary, -⟩
    · simp [JSValue.isFunction, array] at function
    · simp [JSValue.isFunction, ordinary] at function

omit [PackageFfi] in
theorem DataOnly.live (data : DataOnly readLength w.heap (.object o)) : w.heap.Live o := by
  have node := data.node
  simp only [DataNode] at node
  split at node
  · exact node
  · exact node.elim
  · obtain ⟨obj, found, -⟩ := node
    exact Heap.live_of_find found
  · obtain ⟨obj, found, -⟩ := node
    exact Heap.live_of_find found

omit [PackageFfi] in
theorem toInt32?_newUint32 (n : UInt32) :
    ∃ r, (JSValue.newUint32 n).toInt32? = some r ∧ r.toInt.toNat = readLength n := by
  unfold readLength JSValue.newUint32
  split
  · exact ⟨_, rfl, rfl⟩
  · exact ⟨_, rfl, rfl⟩

/-- The branch for arrays. -/
theorem arrayValue_decodes (conv : Converts rely total c n convert) (array : o.kind = .array)
    (data : DataOnly readLength w.heap (.object o))
    (clean : Texts Clean readLength w.heap (.object o)) (fresh : cacheAt w c o.address = none)
    (inside : c < w.caches.length) (sound : SoundCache w c) (holds : Holds w val (.object o)) :
    wp env (quiet rely total) (objectValue convert ctx val o c)
      (Decodes w c ctx (.object o) (n+1)) w := by
  obtain ⟨obj, found⟩ : ∃ obj, w.heap.find o = some obj :=
    Option.isSome_iff_exists.mp (Heap.live_iff.mp data.live)
  have reads : w.reads (w.value val) (.string lengthName) = .value (.newUint32 obj.length) := by
    rw [holds.value]
    exact get_length array found
  have notFunction : (JSValue.object o).isFunction = false := by
    simp [JSValue.isFunction, array]
  have missing : answer (.cacheFind c o) w = some (none, w) := by
    simp only [answer]
    exact congrArg (fun x => some (x,w)) fresh
  have isArray : answer (.isArray ctx (.object o)) w = some (1, w) := by
    simp only [answer, array]
  rw [objectValue, wp_bind, quiet_answer _ missing (sound_lookup sound data.live), andThen_ok]
  simp only [wp_bind, quiet_jsIsFunction, andThen_ok, holds.value, notFunction,
    Bool.false_eq_true, if_false]
  rw [quiet_jsIsArray holds.value isArray, andThen_ok, if_pos (show (1 : Int32) ≠ 0 by decide)]
  simp only [wp_bind]
  rw [jsGetPropertyStr_length, quiet_jsGetProperty reads, andThen_ok]
  obtain ⟨r, isInt, rounds⟩ := toInt32?_newUint32 obj.length
  have known : ((w.fetch (.newUint32 obj.length)).value w.lastBox).toInt32? = some r :=
    (congrArg JSValue.toInt32? (holds_lastBox (w.credit _) _).value).trans isInt
  rw [wp_bind, quiet_jsToInt32 known, andThen_ok, wp_bind, quiet_newList, andThen_ok, wp_bind,
    quiet_cachePut, andThen_ok, wp_bind, rounds]
  have listed : Extends c w (w.fetch (.newUint32 obj.length)).newList :=
    { Extends.fetch w _ with lists := .append _ _ }
  have cached := listed.trans (Extends.cache (d := .list w.lists.length) inside fresh)
  have filled : ListFilled w _ c ctx o w.lists.length 0 :=
    { toFilling := .start sound data.live cached (cacheAt_cache inside)
        (.inl ⟨array, _, le_rfl, by simp [World.cache, World.newList, World.fetch, World.addBox, World.credit], rfl⟩)
      new := le_rfl
      inside := by simp [World.cache, World.newList, World.fetch, World.addBox, World.credit]
      count := by simp [World.cache, World.newList, World.fetch, World.addBox, World.credit]
      elements := by simp [World.cache, World.newList, World.fetch, World.addBox, World.credit] }
  refine wp_mono (arrayLoop_fills conv array found data clean fresh inside _ 0 (Nat.zero_add _) filled
    (cached.holds holds)) fun out w' filled => ?_
  cases out with
  | error e => exact filled
  | ok _ =>
    rw [Nat.zero_add] at filled
    have complete := filled.complete array (filled.extend.heap ▸ found)
    have done : Grows c ctx w'
        { w' with building := w'.building.filter (· ≠ w.lists.length) } :=
      .of_same_caches filled.sound { Extends.refl c w' with } fun _ => rfl
    have image : Image w' c ctx (.object o) (.list w.lists.length) := by
      rw [Image, if_neg (by simp [array])]
      exact filled.own
    rw [andThen_ok, wp_bind, quiet_answer (.listDone _) rfl trivial, andThen_ok, wp_pure]
    exact ⟨(filled.finish complete).trans done, done.extend.image image⟩

/-- The branch for plain objects. -/
theorem recordValue_decodes (conv : Converts rely total c n convert)
    (ordinary : o.kind = .ordinary) (data : DataOnly readLength w.heap (.object o))
    (clean : Texts Clean readLength w.heap (.object o))
    (fresh : cacheAt w c o.address = none) (inside : c < w.caches.length)
    (sound : SoundCache w c) (holds : Holds w val (.object o)) :
    wp env (quiet rely total) (objectValue convert ctx val o c)
      (Decodes w c ctx (.object o) (n+1)) w := by
  obtain ⟨obj, found⟩ : ∃ obj, w.heap.find o = some obj :=
    Option.isSome_iff_exists.mp (Heap.live_iff.mp data.live)
  have notFunction : (JSValue.object o).isFunction = false := by
    simp [JSValue.isFunction, ordinary]
  have missing : answer (.cacheFind c o) w = some (none, w) := by
    simp only [answer]
    exact congrArg (fun x => some (x,w)) fresh
  have isArray : answer (.isArray ctx (.object o)) w = some (0, w) := by
    simp only [answer, ordinary]
  rw [objectValue, wp_bind, quiet_answer _ missing (sound_lookup sound data.live), andThen_ok]
  simp only [wp_bind, quiet_jsIsFunction, andThen_ok, holds.value, notFunction,
    Bool.false_eq_true, if_false]
  rw [quiet_jsIsArray holds.value isArray, andThen_ok, if_neg (show ¬(0 : Int32) ≠ 0 by decide)]
  simp only [wp_bind]
  rw [quiet_newMap, andThen_ok, wp_bind, quiet_callocCell, andThen_ok, wp_bind,
    quiet_callocCell, andThen_ok, wp_bind, quiet_cachePut, andThen_ok, wp_bind]
  have mapped : Extends c w w.newMap.callocCell.callocCell :=
    { Extends.refl c w with maps := .append _ _ }
  have cached := mapped.trans (Extends.cache (d := .map w.maps.length) inside fresh)
  have filled : MapFilled w _ c ctx o obj w.maps.length [] :=
    { toFilling := .start sound data.live cached (cacheAt_cache inside)
        (.inr ⟨ordinary, _, le_rfl, by simp [World.cache, World.newMap, World.callocCell], rfl⟩)
      new := le_rfl
      inside := by simp [World.cache, World.newMap, World.callocCell]
      sources := by simp [World.cache, World.newMap, World.callocCell]
      inserted := by simp [World.cache, World.newMap, World.callocCell]
      values := by simp }
  have holds₁ := cached.holds holds
  have cells : (w.newMap.callocCell.callocCell.cache c o (.map w.maps.length)).cells =
      w.cells ++ [0] ++ [0] := rfl
  have ptab : w.newMap.cells.length = w.cells.length := rfl
  have plen : w.newMap.callocCell.cells.length = w.cells.length + 1 := by
    simp [World.callocCell, World.newMap]
  rw [ptab, plen]
  generalize w.newMap.callocCell.callocCell.cache c o (.map w.maps.length) = w₁ at *
  have keys : w₁.ownKeys (w₁.value val) = some obj.enumerableKeys := by
    rw [holds₁.value]
    simp only [World.ownKeys, ordinary, cached.heap, found, Option.map_some]
  rw [quiet_jsGetOwnPropertyNames keys, andThen_ok, if_pos rfl, wp_bind, quiet_loadCell,
    andThen_ok, wp_bind, quiet_loadCell, andThen_ok, wp_bind]
  have length : (w₁.listKeys obj.enumerableKeys w.cells.length (w.cells.length + 1)).cells.getD
      (w.cells.length + 1) 0 = obj.enumerableKeys.length := by
    simp [World.listKeys, cells]
  have table : (w₁.listKeys obj.enumerableKeys w.cells.length (w.cells.length + 1)).cells.getD
      w.cells.length 0 = w₁.tables.length := by
    simp [World.listKeys, cells]
  have named : Grows c ctx w₁
      (w₁.listKeys obj.enumerableKeys w.cells.length (w.cells.length + 1)) :=
    .of_same_caches filled.sound { Extends.refl c w₁ with tables := .append _ _ } fun _ => rfl
  have listed : (w₁.listKeys obj.enumerableKeys w.cells.length
      (w.cells.length + 1)).tables[w₁.tables.length]? = some obj.enumerableKeys := by
    simp [World.listKeys]
  rw [length, table]
  refine wp_mono (mapLoop_fills conv ordinary found data clean fresh inside _ 0 (Nat.zero_add _)
    (filled.step named) (named.extend.holds holds₁) listed) fun out w' filled => ?_
  cases out with
  | error e => exact filled
  | ok _ =>
    rw [Nat.zero_add, List.take_length] at filled
    have complete := filled.complete ordinary (filled.extend.heap ▸ found)
    have image : Image w' c ctx (.object o) (.map w.maps.length) := by
      rw [Image, if_neg (by simp [ordinary])]
      exact filled.own
    simp only [andThen_ok, wp_bind, quiet_callocFreeCell, wp_pure]
    exact ⟨filled.finish complete, image⟩

/-- The branch for objects of every kind. -/
theorem objectValue_decodes (conv : Converts rely total c n convert)
    (data : DataOnly readLength w.heap (.object o))
    (clean : Texts Clean readLength w.heap (.object o)) (inside : c < w.caches.length)
    (sound : SoundCache w c) (holds : Holds w val (.object o)) :
    wp env (quiet rely total) (objectValue convert ctx val o c)
      (Decodes w c ctx (.object o) (n+1)) w := by
  cases entry : cacheAt w c o.address with
  | some d =>
    have hit : answer (.cacheFind c o) w = some (some d, w) := by
      simp only [answer]
      exact congrArg (fun x => some (x,w)) entry
    have lookup := sound_lookup sound data.live
    have container : o.kind ≠ .function := by
      intro function
      have missing : cacheAt w c o.address = none := lookup (by simp [JSValue.isFunction, function])
      rw [missing] at entry
      cases entry
    rw [objectValue, wp_bind, quiet_answer _ hit lookup, andThen_ok, wp_pure]
    exact ⟨.refl sound, by rw [Image, if_neg container]; exact entry⟩
  | none =>
    have node := data.node
    cases kind : o.kind with
    | array => exact arrayValue_decodes conv kind data clean entry inside sound holds
    | ordinary => exact recordValue_decodes conv kind data clean entry inside sound holds
    | exotic callable => simp [DataNode, kind] at node
    | function =>
      have missing : answer (.cacheFind c o) w = some (none, w) := by
        simp only [answer]
        exact congrArg (fun x => some (x,w)) entry
      have function : (JSValue.object o).isFunction = true := by
        simp [JSValue.isFunction, kind]
      rw [objectValue, wp_bind, quiet_answer _ missing (sound_lookup sound data.live), andThen_ok]
      simp only [wp_bind, quiet_jsIsFunction, andThen_ok, holds.value, function, if_true]
      rw [quiet_answer (.handOut _) rfl trivial, andThen_ok, wp_pure]
      refine ⟨.of_same_caches sound { Extends.refl c w with } fun _ => rfl, ?_⟩
      rw [Image, if_pos kind]
      exact ⟨function, val, rfl, holds.value⟩

omit [PackageFfi] in
/-- A leaf needs no entry in the cache and leaves the world as it was, up to a string lent. -/
theorem decodes_leaf {v : JSValue} {d : DartVal} {w' : World} (sound : SoundCache w c)
    (extend : Extends c w w') (same : w'.caches = w.caches) (leaf : Image w c ctx v d) :
    Decodes w c ctx v (n+1) (.ok d) w' :=
  ⟨.of_same_caches sound extend fun a => by simp only [cacheAt, same], extend.image leaf⟩

/-- The branches for values that are not objects. -/
theorem leafValue_decodes {v : JSValue} {jval : JSRef} (leaf : ∀ o, v ≠ .object o)
    (cache : Option Nat) (holds : Holds w jval.val v) (sound : SoundCache w c)
    (data : DataOnly readLength w.heap v) (clean : Texts Clean readLength w.heap v) :
    wp env (quiet rely total) (toDartValue (n+1) jval cache)
      (Decodes w c jval.ctx v (n+1)) w := by
  have value := holds.value
  simp only [toDartValue, wp_bind, quiet_jsValueGetTag, andThen_ok, value, JSValue.tag]
  cases v <;> simp only [JSTag.OBJECT, JSTag.INT, JSTag.BOOL, JSTag.NULL, JSTag.UNDEFINED,
    JSTag.EXCEPTION, JSTag.FLOAT64, JSTag.STRING, JSTag.SYMBOL, JSTag.BIG_INT, Int.reduceNeg,
    Int.reduceEq, or_self, or_true, true_or, reduceIte, wp_bind, wp_pure]
  case object o => exact absurd rfl (leaf o)
  case string s =>
    have arrives : toDartString (cString s) = some (dropBom s) := toDartString_cString clean.node
    rw [quiet_jsToCString value, andThen_ok, dartString, arrives, wp_bind, wp_pure, andThen_ok,
      wp_pure]
    exact decodes_leaf sound { Extends.refl c w with } rfl rfl
  case int n =>
    rw [quiet_jsToInt64 (n := n.toInt64) (by rw [value]; rfl), andThen_ok, wp_pure]
    exact decodes_leaf sound (.refl c w) rfl rfl
  case bool b =>
    rw [quiet_jsToBool, andThen_ok, wp_pure, value]
    cases b <;> exact decodes_leaf sound (.refl c w) rfl rfl
  case float64 d =>
    rw [quiet_jsToFloat64 (d := d) (by rw [value]; rfl), andThen_ok, wp_pure]
    exact decodes_leaf sound (.refl c w) rfl rfl
  case exception => exact data.node.elim
  case null => exact decodes_leaf sound (.refl c w) rfl rfl
  case undefined => exact decodes_leaf sound (.refl c w) rfl rfl
  case symbol s =>
    rw [quiet_answer .warn rfl trivial, andThen_ok, wp_pure]
    exact decodes_leaf sound (.refl c w) rfl rfl
  case bigInt n =>
    rw [quiet_answer .warn rfl trivial, andThen_ok, wp_pure]
    exact decodes_leaf sound (.refl c w) rfl rfl

/-- An object is converted with the cache at hand, or with a new one. -/
theorem toDartValue_object {jval : JSRef} {cache : Option Nat}
    {Q : Except DartError DartVal → World → Prop} (holds : w.value jval.val = .object o) :
    wp env (quiet rely total) (toDartValue (n+1) jval cache) Q w ↔
      wp env (quiet rely total) (do
        let cache ← match cache with
          | some c => pure c
          | none => perform (.newCache o)
        objectValue (fun jval => toDartValue n jval (some cache)) jval.ctx jval.val o cache) Q w := by
  simp only [toDartValue, wp_bind, quiet_jsValueGetTag, andThen_ok, holds, JSValue.tag,
    JSTag.OBJECT, JSTag.INT, JSTag.BOOL, JSTag.NULL, JSTag.UNDEFINED, JSTag.EXCEPTION,
    JSTag.FLOAT64, JSTag.STRING, Int.reduceNeg, Int.reduceEq, or_self, reduceIte]
  rw [quiet_jsValueGetPtr holds]
  exact Iff.rfl

/-- The conversion of a data-only value, by induction on the stack that is left. -/
theorem toDartValue_converts (rely : World → World → Prop) (total : Prop) (c n : Nat) :
    Converts rely total c n (fun jval => toDartValue n jval (some c)) := by
  induction n with
  | zero =>
    intro jval v w _ _ _ _ _
    exact Nat.zero_le _
  | succ n ih =>
    intro jval v w holds inside sound data clean
    cases v with
    | object o =>
      rw [toDartValue_object holds.value]
      exact objectValue_decodes ih data clean inside sound holds
    | _ => exact leafValue_decodes (by simp) _ holds sound data clean

end FlutterQuickjs.Conversion
