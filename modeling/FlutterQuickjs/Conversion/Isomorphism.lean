import FlutterQuickjs.Conversion.ToDart

namespace FlutterQuickjs.Conversion

open Engine Binding ValueConverter
open Effect

section

variable {c : Nat} {ctx : Ctx} {w w' : World} {o : ObjRef} {v : JSValue} {d : DartVal}

theorem SoundCache.of_empty (empty : ∀ a, cacheAt w c a = none) : SoundCache w c where
  origin a d found := by
    rw [empty] at found
    cases found
  injective a a' d found := by
    rw [empty] at found
    cases found

theorem dartGraph_of_leafRead (image : LeafRead w ctx v d) (w' : World) :
    dartGraph w' d = .leaf d := by
  cases v with
  | object o =>
    obtain ⟨-, p, rfl, -⟩ := image
    rfl
  | exception => exact image.elim
  | _ =>
    cases (show d = _ from image)
    rfl

/-- A value of a finished conversion and its image. -/
def Converted (w : World) (c : Nat) (ctx : Ctx) (v : JSValue) (d : DartVal) : Prop :=
  DataOnly readLength w.heap v ∧ Image w c ctx v d

/-- A converted value is a leaf on both sides, or a complete container on both sides. -/
theorem Converted.cases (grows : Grows c ctx w w') (empty : ∀ a, cacheAt w c a = none)
    (converted : Converted w' c ctx v d) :
    (jsGraph readLength w'.heap v = .leaf v ∧ LeafRead w' ctx v d) ∨
    ∃ o, v = .object o ∧ w'.heap.Live o ∧ (jsGraph readLength w'.heap v).id? = some o ∧
      cacheAt w' c o.address = some d ∧ Complete w' c ctx o d := by
  obtain ⟨data, image⟩ := converted
  cases v with
  | object o =>
    have live := data.live
    obtain ⟨obj, found⟩ := Option.isSome_iff_exists.mp (Heap.live_iff.mp live)
    simp only [Image] at image
    cases kind : o.kind with
    | function =>
      rw [if_pos kind] at image
      exact .inl ⟨by simp only [jsGraph, kind], image⟩
    | exotic callable =>
      have node := data.node
      simp [DataNode, kind] at node
    | array =>
      rw [if_neg (by simp [kind])] at image
      refine .inr ⟨o, rfl, live, ?_, image, grows.complete o d live image (empty _)⟩
      rw [jsGraph_array _ kind found, View.id?]
    | ordinary =>
      rw [if_neg (by simp [kind])] at image
      refine .inr ⟨o, rfl, live, ?_, image, grows.complete o d live image (empty _)⟩
      rw [jsGraph_ordinary _ kind found, View.id?]
  | _ => exact .inl ⟨rfl, image⟩

/-- The image of a value shows nothing but images of parts of the value. -/
theorem traced_converted (grows : Grows c ctx w w') (empty : ∀ a, cacheAt w c a = none) :
    ValueGraph.Traced (Step.map keyRead) (jsGraph readLength w'.heap) (dartGraph w')
      (Converted w' c ctx) := by
  refine ⟨?_⟩
  intro v d s' m' converted child
  rcases converted.cases grows empty with ⟨-, image⟩ | ⟨o, rfl, -, -, -, complete⟩
  · rw [dartGraph_of_leafRead image] at child
    cases child
  · obtain ⟨s, m, child', same, image⟩ := complete.sources s' m' child
    exact ⟨s, m, child', same, converted.1.child child', image⟩

/-- A converted value whose names stay apart. -/
def Translates (w : World) (c : Nat) (ctx : Ctx) (v : JSValue) (d : DartVal) : Prop :=
  Converted w c ctx v d ∧ NamesApart readLength w.heap v

theorem converted_bisimulation (grows : Grows c ctx w w') (empty : ∀ a, cacheAt w c a = none) :
    ValueGraph.Bisimulation (LeafRead w' ctx) keyRead (jsGraph readLength w'.heap)
      (dartGraph w') (Translates w' c ctx) where
  views := by
    intro v d ⟨converted, apart⟩
    rcases converted.cases grows empty with ⟨leaf, image⟩ | ⟨o, rfl, -, -, -, complete⟩
    · rw [leaf, dartGraph_of_leafRead image]
      exact image
    · exact complete.views (apart [] _ rfl)
  children := by
    intro v d s m m' ⟨converted, apart⟩ child child'
    have apart' : NamesApart readLength w'.heap m := fun path x leads =>
      apart (s :: path) x (ValueGraph.follow_cons_some.mpr ⟨m, child, leads⟩)
    refine ⟨⟨converted.1.child child, ?_⟩, apart'⟩
    rcases converted.cases grows empty with ⟨leaf, -⟩ | ⟨o, rfl, -, -, -, complete⟩
    · rw [leaf] at child
      cases child
    · exact complete.children (apart [] _ rfl) s m m' child child'

theorem id?_of_container {o : ObjRef} (sound : SoundCache w c)
    (cached : cacheAt w c o.address = some d) : (dartGraph w d).id? = some d := by
  rcases sound.old cached with ⟨l, -, rfl⟩ | ⟨m, -, rfl⟩ <;> rfl

/-- Containers meet on one side exactly where their images meet. -/
theorem converted_identities (grows : Grows c ctx w w') (empty : ∀ a, cacheAt w c a = none)
    {v₁ v₂ : JSValue} {d₁ d₂ : DartVal} (first : Converted w' c ctx v₁ d₁)
    (second : Converted w' c ctx v₂ d₂) :
    (jsGraph readLength w'.heap v₁).id? = (jsGraph readLength w'.heap v₂).id? ↔
      (dartGraph w' d₁).id? = (dartGraph w' d₂).id? := by
  rcases first.cases grows empty with ⟨leaf₁, image₁⟩ | ⟨o₁, -, live₁, id₁, cached₁, -⟩ <;>
    rcases second.cases grows empty with ⟨leaf₂, image₂⟩ | ⟨o₂, -, live₂, id₂, cached₂, -⟩
  · simp [leaf₁, leaf₂, dartGraph_of_leafRead image₁, dartGraph_of_leafRead image₂]
  · simp [leaf₁, id₂, dartGraph_of_leafRead image₁, id?_of_container grows.sound cached₂]
  · simp [leaf₂, id₁, dartGraph_of_leafRead image₂, id?_of_container grows.sound cached₁]
  · rw [id₁, id₂, id?_of_container grows.sound cached₁, id?_of_container grows.sound cached₂,
      Option.some_inj, Option.some_inj]
    constructor
    · rintro rfl
      exact Option.some_inj.mp (cached₁.symm.trans cached₂)
    · rintro rfl
      exact Heap.eq_of_address_eq live₁ live₂ (grows.sound.injective _ _ _ cached₁ cached₂)

theorem Converted.iso (grows : Grows c ctx w w') (empty : ∀ a, cacheAt w c a = none)
    (converted : Converted w' c ctx v d) (apart : NamesApart readLength w'.heap v) :
    ValueGraph.Iso (LeafRead w' ctx) keyRead (jsGraph readLength w'.heap) (dartGraph w') v d :=
  (converted_bisimulation grows empty).iso ⟨converted, apart⟩ fun first second =>
    converted_identities grows empty first.1 second.1

theorem uncached_le_size (w : World) (c : Nat) : uncached w c ≤ w.heap.size :=
  (Finset.card_filter_le _ _).trans (List.toFinset_card_le _)

end

section

variable {h : Heap} {v : JSValue}

/-- Lengths matter for arrays alone. -/
theorem jsGraph_of_not_array (len len' : UInt32 → Nat)
    (other : ∀ o obj, v = .object o → o.kind = .array → h.find o ≠ some obj) :
    jsGraph len h v = jsGraph len' h v := by
  cases v with
  | object o =>
    cases kind : o.kind with
    | array =>
      cases found : h.find o with
      | none => simp only [jsGraph, kind, found]
      | some obj => exact absurd found (other o obj rfl kind)
    | ordinary => cases found : h.find o <;> simp only [jsGraph, kind, found]
    | _ => simp only [jsGraph, kind]
  | _ => rfl

theorem array_or_not (h : Heap) (v : JSValue) :
    (∃ o obj, v = .object o ∧ o.kind = .array ∧ h.find o = some obj) ∨
      ∀ o obj, v = .object o → o.kind = .array → h.find o ≠ some obj := by
  by_cases array : ∃ o obj, v = .object o ∧ o.kind = .array ∧ h.find o = some obj
  · exact .inl array
  · exact .inr fun o obj isO kind found => array ⟨o, obj, isO, kind, found⟩

/-- Where every array is short the binding reads every length as it is. -/
theorem jsGraph_readLength (short : ArraysBelow (2^31) h v) {path : List (Step PropKey)}
    {m : JSValue} (leads : (jsGraph UInt32.toNat h).follow v path = some m) :
    jsGraph UInt32.toNat h m = jsGraph readLength h m := by
  rcases array_or_not h m with ⟨o, obj, rfl, array, found⟩ | other
  · rw [jsGraph_array _ array found, jsGraph_array _ array found,
      readLength_of_lt (short path o obj leads array found)]
  · exact jsGraph_of_not_array _ _ other

theorem follow_readLength (short : ArraysBelow (2^31) h v) (path : List (Step PropKey)) :
    (jsGraph UInt32.toNat h).follow v path = (jsGraph readLength h).follow v path :=
  ValueGraph.follow_congr (fun _ _ leads => jsGraph_readLength short leads) path

/-- What the binding reads of an array is part of it. -/
theorem readLength_child {s : Step PropKey} {m : JSValue}
    (child : (jsGraph Conversion.readLength h v).child s = some m) :
    (jsGraph UInt32.toNat h v).child s = some m := by
  rcases array_or_not h v with ⟨o, obj, rfl, array, found⟩ | other
  · rw [jsGraph_array _ array found] at child ⊢
    cases s with
    | key k => cases child
    | index i =>
      have inside := (List.getElem?_eq_some_iff.mp child).1
      rw [List.length_map, List.length_range] at inside
      change ((List.range _).map _)[i]? = some m at child ⊢
      rw [List.getElem?_map, List.getElem?_range inside] at child
      rw [List.getElem?_map, List.getElem?_range (inside.trans_le (readLength_le _))]
      exact child
  · rwa [jsGraph_of_not_array _ Conversion.readLength other]

theorem DataNode.readLength (node : DataNode UInt32.toNat h v) :
    DataNode Conversion.readLength h v := by
  cases v with
  | object o =>
    simp only [DataNode] at node ⊢
    split at node
    · exact node
    · exact node.elim
    · obtain ⟨obj, found, readable⟩ := node
      exact ⟨obj, found, fun i inside => readable i (inside.trans_le (readLength_le _))⟩
    · exact node
  | _ => exact node

theorem TextNode.readLength {ok : Units → Prop} (node : TextNode ok UInt32.toNat h v) :
    TextNode ok Conversion.readLength h v := by
  rcases array_or_not h v with ⟨o, obj, rfl, array, found⟩ | other
  · simp only [TextNode, jsGraph_array _ array found]
  · rwa [TextNode, jsGraph_of_not_array _ UInt32.toNat other]

theorem DataOnly.readLength (data : DataOnly UInt32.toNat h v) :
    DataOnly Conversion.readLength h v := fun path m leads =>
  (data path m (ValueGraph.follow_mono (fun _ _ _ => readLength_child) leads)).readLength

theorem Texts.readLength {ok : Units → Prop} (texts : Texts ok UInt32.toNat h v) :
    Texts ok Conversion.readLength h v := fun path m leads =>
  (texts path m (ValueGraph.follow_mono (fun _ _ _ => readLength_child) leads)).readLength

theorem NamesApart.readLength (apart : NamesApart UInt32.toNat h v) :
    NamesApart Conversion.readLength h v := fun path m leads =>
  apart path m (ValueGraph.follow_mono (fun _ _ _ => readLength_child) leads)

end

variable [PackageFfi]

/-- The engine's heap and contexts are as they were, pointers hold what they held, and no pointer
to a function is given up. -/
structure Untouched (w w' : World) : Prop where
  heap : w'.heap = w.heap
  serial : w'.serial = w.serial
  realm : w'.realm = w.realm
  holds : ∀ p v, Holds w p v → Holds w' p v
  kept : FunctionsKept w w'

omit [PackageFfi] in
theorem Extends.untouched {c : Nat} {w w' : World} (extend : Extends c w w') : Untouched w w' :=
  ⟨extend.heap, extend.serial, extend.realm, fun _ _ => extend.holds, extend.kept⟩

omit [PackageFfi] in
theorem Untouched.trans {w w' w'' : World} (first : Untouched w w') (second : Untouched w' w'') :
    Untouched w w'' where
  heap := second.heap.trans first.heap
  serial := second.serial.trans first.serial
  realm := second.realm.trans first.realm
  holds p v at_ := second.holds p v (first.holds p v at_)
  kept p inside := by
    rcases second.kept p inside with before | plain
    · rcases first.kept p before with old | ⟨x, holds, plain⟩
      · exact .inl old
      · exact .inr ⟨x, second.holds p x holds, plain⟩
    · exact .inr plain

/-- The result of a top-level conversion, with the cache that it began with. -/
def ReadAs (ctx : Ctx) (w : World) (v : JSValue) : Except DartError DartVal → World → Prop
  | .ok d, w' => Untouched w w' ∧ ∃ c w₁, Grows c ctx w₁ w' ∧ (∀ a, cacheAt w₁ c a = none) ∧
      Converted w' c ctx v d
  | .error _, _ => False

/-- The result of a top-level conversion: the engine is as it was, and the Dart value shows what
the JS value shows, up to `leaf` and `key`. -/
def ShowsGraph (leaf : World → Ctx → JSValue → DartVal → Prop) (key : PropKey → MapKey)
    (len : UInt32 → Nat) (ctx : Ctx) (w : World) (v : JSValue) :
    Except DartError DartVal → World → Prop
  | .ok d, w' => Untouched w w' ∧
      ValueGraph.Iso (leaf w' ctx) key (jsGraph len w.heap) (dartGraph w') v d
  | .error _, _ => False

section

omit [PackageFfi]

variable {ctx : Ctx} {w w₁ w' : World} {v : JSValue} {c fuel : Nat} {out : Except DartError DartVal}

/-- A complete conversion with a cache that was empty at its start. -/
theorem read_of_decodes (same : Untouched w w₁)
    (empty : ∀ a, cacheAt w₁ c a = none) (data : DataOnly readLength w.heap v)
    (stack : w.heap.size < fuel) (decoded : Decodes w₁ c ctx v fuel out w') :
    ReadAs ctx w v out w' := by
  cases out with
  | error e =>
    have deep := uncached_le_size w₁ c
    rw [same.heap] at deep
    exact absurd stack (Nat.not_lt.mpr (Nat.le_trans decoded deep))
  | ok d =>
    obtain ⟨grows, image⟩ := decoded
    have untouched := same.trans grows.extend.untouched
    exact ⟨untouched, c, w₁, grows, empty, untouched.heap ▸ data, image⟩

theorem ReadAs.of_untouched (moved : Untouched w w₁) (read : ReadAs ctx w₁ v out w') :
    ReadAs ctx w v out w' := by
  cases out with
  | error e => exact read
  | ok d => exact ⟨moved.trans read.1, read.2⟩

/-- Where the names stay apart the graph is there again. -/
theorem ReadAs.shows (read : ReadAs ctx w v out w') (apart : NamesApart readLength w.heap v) :
    ShowsGraph LeafRead keyRead readLength ctx w v out w' := by
  cases out with
  | error e => exact read
  | ok d =>
    obtain ⟨same, c, w₁, grows, empty, converted⟩ := read
    have iso := converted.iso grows empty (same.heap ▸ apart)
    rw [same.heap] at iso
    exact ⟨same, iso⟩

theorem keyRead_of_unmarked {s : Units} (unmarked : Unmarked s) :
    keyRead (.string s) = keyImage (.string s) :=
  congrArg MapKey.string (dropBom_of_unmarked unmarked.2)

/-- The names of an object in data-only text without byte order marks are read as they are. -/
theorem keyRead_eq_keyImage {len : UInt32 → Nat} {h : Heap} {o : ObjRef}
    {entries : OrderedMap PropKey JSValue} {k : PropKey} (node : TextNode Unmarked len h v)
    (record : jsGraph len h v = .record o entries) (member : k ∈ entries.keys) :
    keyRead k = keyImage k := by
  rw [TextNode, record] at node
  cases k with
  | string s => exact keyRead_of_unmarked (node s member)
  | symbol s => rfl

theorem NamesApart.of_unmarked {len : UInt32 → Nat} {h : Heap} (data : DataOnly len h v)
    (texts : Texts Unmarked len h v) : NamesApart len h v := by
  intro path m leads
  unfold KeysApart
  split
  · rename_i id entries record
    obtain ⟨o, obj, rfl, ordinary, found, rfl⟩ := jsGraph_eq_record record
    have node := data path _ leads
    have text := texts path _ leads
    simp only [DataNode, ordinary] at node
    simp only [TextNode, jsGraph_ordinary _ ordinary found, keys_ownRecord] at text
    obtain ⟨obj', found', each⟩ := node
    cases Option.some.inj (found.symm.trans found')
    rw [keys_ownRecord]
    refine obj.enumerableKeys_nodup.map_on fun k member k' member' same => ?_
    obtain ⟨p, own, enumerable⟩ := JSObj.mem_enumerableKeys.mp member
    obtain ⟨p', own', enumerable'⟩ := JSObj.mem_enumerableKeys.mp member'
    obtain ⟨⟨s, rfl⟩, -⟩ := each k p own enumerable
    obtain ⟨⟨s', rfl⟩, -⟩ := each k' p' own' enumerable'
    rw [keyRead_of_unmarked (text s member), keyRead_of_unmarked (text s' member')] at same
    exact congrArg PropKey.string (MapKey.string.inj same)
  · trivial

/-- Text without byte order marks is shown exactly. -/
theorem exact_of_unmarked {len : UInt32 → Nat} {h : Heap} {d : DartVal}
    (texts : Texts Unmarked len h v)
    (iso : ValueGraph.Iso (LeafRead w ctx) keyRead (jsGraph len h) (dartGraph w) v d) :
    ValueGraph.Iso (LeafImage w ctx) keyImage (jsGraph len h) (dartGraph w) v d := by
  refine iso.congr ?_ ?_
  · intro path m l d leads view image
    cases l with
    | string s =>
      have node := texts path m leads
      simp only [TextNode, view] at node
      rw [show d = .string (dropBom s) from image, dropBom_of_unmarked node.2]
      rfl
    | _ => exact image
  · intro path m id entries k leads view member
    exact keyRead_eq_keyImage (texts path m leads) view member

end

/-- The conversion of a `JSValue` that nothing is cached for. -/
theorem toDartValue_read (rely : World → World → Prop) (total : Prop) {jval : JSRef}
    {v : JSValue} {w : World} {fuel : Nat} (holds : Holds w jval.val v)
    (data : DataOnly readLength w.heap v) (clean : Texts Clean readLength w.heap v)
    (stack : w.heap.size < fuel) :
    wp env (quiet rely total) (toDartValue fuel jval none) (ReadAs jval.ctx w v) w := by
  obtain ⟨n, rfl⟩ : ∃ n, fuel = n + 1 := ⟨fuel - 1, by omega⟩
  have empty : ∀ a, cacheAt w w.caches.length a = none := cacheAt_of_length_le le_rfl
  cases v with
  | object o =>
    rw [toDartValue_object holds.value, wp_bind, quiet_newCache, andThen_ok]
    have empty' := cacheAt_newCache w
    refine wp_mono (objectValue_decodes (toDartValue_converts rely total _ n) data clean
      (by simp [World.newCache]) (.of_empty empty') holds) fun out w' decoded => ?_
    have same : Untouched w w.newCache := { (Extends.refl 0 w).untouched with }
    exact read_of_decodes same empty' data stack decoded
  | _ =>
    refine wp_mono (leafValue_decodes (by simp) none holds (.of_empty empty) data clean)
      fun out w' decoded => ?_
    exact read_of_decodes (Extends.refl 0 w).untouched empty data stack decoded

theorem quiet_read (rely : World → World → Prop) (total : Prop) (ctx : Ctx) {val : Ptr}
    {v : JSValue} {w : World} {fuel : Nat} (holds : Holds w val v)
    (data : DataOnly readLength w.heap v) (clean : Texts Clean readLength w.heap v)
    (stack : w.heap.size < fuel) :
    wp env (quiet rely total)
      (toDartValueFromJs (fun jval => toDartValue fuel jval none) ctx val) (ReadAs ctx w v) w := by
  have wrapped := Extends.wrap (c := 0) w ctx val
  rw [toDartValueFromJs, wp_bind, quiet_toDartJSValue (data.plain holds.value), andThen_ok]
  rw [← wrapped.heap] at data clean stack
  exact wp_mono (toDartValue_read rely total (holds_wrap holds) data clean stack)
    fun out w' => ReadAs.of_untouched wrapped.untouched

theorem quiet_fromJs (rely : World → World → Prop) (total : Prop) (ctx : Ctx) {val : Ptr}
    {v : JSValue} {w : World} {fuel : Nat} (holds : Holds w val v)
    (data : DataOnly readLength w.heap v) (texts : Texts Unmarked readLength w.heap v)
    (stack : w.heap.size < fuel) :
    wp env (quiet rely total)
      (toDartValueFromJs (fun jval => toDartValue fuel jval none) ctx val)
      (ShowsGraph LeafImage keyImage readLength ctx w v) w := by
  refine wp_mono (quiet_read rely total ctx holds data (texts.mono fun _ => And.left) stack)
    fun out w' read => ?_
  have shows := read.shows (.of_unmarked data texts)
  cases out with
  | error e => exact shows
  | ok d => exact ⟨shows.1, exact_of_unmarked texts shows.2⟩

omit [PackageFfi] in
/-- Where the arrays are short nothing of them is lost. -/
theorem ShowsGraph.whole {leaf : World → Ctx → JSValue → DartVal → Prop} {key : PropKey → MapKey}
    {ctx : Ctx} {w w' : World} {v : JSValue} {out : Except DartError DartVal}
    (short : ArraysBelow (2^31) w.heap v) (shows : ShowsGraph leaf key readLength ctx w v out w') :
    ShowsGraph leaf key UInt32.toNat ctx w v out w' := by
  cases out with
  | error e => exact shows
  | ok d =>
    refine ⟨shows.1, shows.2.congr_left fun path m leads => ?_⟩
    rw [← follow_readLength short] at leads
    exact (jsGraph_readLength short leads).symm

/-- The conversion of a data-only value from the world `w`, given stack for every live object:
whatever the engine answers it ends, and its result is isomorphic to the value. A string arrives
without its byte order mark, so names that differ by one alone are the same key in Dart. -/
theorem toDartValueFromJs_isomorphic (rely : World → World → Prop) (ctx : Ctx) (val : Ptr)
    (v : JSValue) (w : World) (fuel : Nat) (holds : Holds w val v)
    (data : DataOnly UInt32.toNat w.heap v) (clean : Texts Clean UInt32.toNat w.heap v)
    (apart : NamesApart UInt32.toNat w.heap v) (short : ArraysBelow (2^31) w.heap v)
    (stack : w.heap.size < fuel) :
    wp env (.plain rely True)
      (toDartValueFromJs (fun jval => toDartValue fuel jval none) ctx val)
      (ShowsGraph LeafRead keyRead UInt32.toNat ctx w v) w := by
  have read := quiet_read rely True ctx holds data.readLength clean.readLength stack
  have shown := wp_mono read fun _ _ read => (read.shows apart.readLength).whole short
  exact wp_guard_mono shown fun _ _ _ => trivial

/-- An object whose only property is the object itself. -/
def loopRef : ObjRef := ⟨1,0,.ordinary⟩

def loopObj : JSObj :=
  ⟨OrderedMap.empty.insert (.string (units "self")) (.data (.object loopRef) true true true), none,
    true, 0, true, some 0⟩

def loopWorld : World :=
  { World.initial with
    boxes := [.object loopRef]
    heap := World.initial.heap.put loopRef loopObj }

omit [PackageFfi] in
theorem loop_keys : loopObj.enumerableKeys = [.string (units "self")] := by decide

omit [PackageFfi] in
theorem loop_closed (v : JSValue) (s : Step PropKey) (m : JSValue) (start : v = .object loopRef)
    (child : (jsGraph UInt32.toNat loopWorld.heap v).child s = some m) : m = .object loopRef := by
  subst start
  cases s with
  | index i => cases child
  | key k =>
    obtain ⟨member, rfl⟩ := find_ownRecord.mp child
    rw [loop_keys, List.mem_singleton] at member
    subst member
    decide

omit [PackageFfi] in
theorem toDartValueFromJs_isomorphic_loop :
    letI := PackageFfi.utf8
    wp env (.plain Eq True)
      (toDartValueFromJs (fun jval => toDartValue 2 jval none) 0 (.box 0))
      (ShowsGraph LeafRead keyRead UInt32.toNat 0 loopWorld (.object loopRef)) loopWorld := by
  let _ := PackageFfi.utf8
  refine toDartValueFromJs_isomorphic Eq 0 (.box 0) (.object loopRef) loopWorld 2 rfl ?_ ?_ ?_ ?_
    (by decide)
  · intro path v leads
    cases ValueGraph.follow_closed loop_closed rfl leads
    refine ⟨loopObj, by decide, fun k p own _ => ?_⟩
    have member := (OrderedMap.find_eq_some.mp own)
    rw [show loopObj.properties.entries =
      [(.string (units "self"), .data (.object loopRef) true true true)] from rfl,
      List.mem_singleton] at member
    cases member
    exact ⟨⟨_, rfl⟩, _, _, _, _, rfl⟩
  · intro path v leads
    cases ValueGraph.follow_closed loop_closed rfl leads
    intro s member
    have known : PropKey.string s ∈ [PropKey.string (units "self")] := by
      rwa [keys_ownRecord, loop_keys] at member
    cases List.mem_singleton.mp known
    decide
  · intro path v leads
    cases ValueGraph.follow_closed loop_closed rfl leads
    change ((ownRecord loopObj).keys.map keyRead).Nodup
    rw [keys_ownRecord, loop_keys]
    exact List.nodup_singleton _
  · intro path o obj leads array
    cases ValueGraph.follow_closed loop_closed rfl leads
    cases array

end FlutterQuickjs.Conversion
