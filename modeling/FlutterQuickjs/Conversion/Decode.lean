import FlutterQuickjs.Conversion.Growth

namespace FlutterQuickjs.Conversion

open Engine Binding
open Effect

/-- A container under construction: it is cached, and every other container entered since
`w₀` is complete. -/
structure Filling (w₀ w : World) (c : Nat) (ctx : Ctx) (o : ObjRef) (d : DartVal) : Prop where
  extend : Extends c w₀ w
  live : w.heap.Live o
  sound : SoundCache w c
  own : cacheAt w c o.address = some d
  others : ∀ o' d', w.heap.Live o' → o' ≠ o → cacheAt w c o'.address = some d' →
    cacheAt w₀ c o'.address = none → Complete w c ctx o' d'

/-- The list for the array `o` holds the images of its first `i` elements. -/
structure ListFilled (w₀ w : World) (c : Nat) (ctx : Ctx) (o : ObjRef) (l i : Nat) : Prop
    extends Filling w₀ w c ctx o (.list l) where
  new : w₀.lists.length ≤ l
  inside : l < w.lists.length
  count : (w.lists.getD l []).length = i
  elements : ∀ j d, (w.lists.getD l [])[j]? = some d → Image w c ctx (element w.heap o j) d

/-- The map for the object `o` holds the images of the properties in `keys`, where no two of them
are read as one key. -/
structure MapFilled (w₀ w : World) (c : Nat) (ctx : Ctx) (o : ObjRef) (obj : JSObj) (m : Nat)
    (keys : List PropKey) : Prop extends Filling w₀ w c ctx o (.map m) where
  new : w₀.maps.length ≤ m
  inside : m < w.maps.length
  sources : ∀ key d, (w.maps.getD m .empty).find key = some d →
    ∃ k ∈ keys, key = keyRead k ∧ Image w c ctx (dataValue obj k) d
  inserted : (keys.map keyRead).Nodup → (w.maps.getD m .empty).keys = keys.map keyRead
  values : (keys.map keyRead).Nodup → ∀ k ∈ keys, ∃ d,
    (w.maps.getD m .empty).find (keyRead k) = some d ∧ Image w c ctx (dataValue obj k) d

section

variable {c : Nat} {ctx : Ctx} {w₀ w w' : World} {o : ObjRef} {d : DartVal} {l m i : Nat}
  {obj : JSObj} {keys : List PropKey}

theorem jsGraph_array (len : UInt32 → Nat) {h : Heap} (array : o.kind = .array)
    (found : h.find o = some obj) :
    jsGraph len h (.object o) = .list o ((List.range (len obj.length)).map (element h o)) := by
  simp only [jsGraph, array, found]

theorem jsGraph_ordinary (len : UInt32 → Nat) {h : Heap} (ordinary : o.kind = .ordinary)
    (found : h.find o = some obj) : jsGraph len h (.object o) = .record o (ownRecord obj) := by
  simp only [jsGraph, ordinary, found]

namespace Filling

theorem start (sound : SoundCache w c) (live : w.heap.Live o) (extend : Extends c w w')
    (cache : ∀ a, cacheAt w' c a = if a = o.address then some d else cacheAt w c a)
    (kind : o.kind = .array ∧ (∃ l, w.lists.length ≤ l ∧ l < w'.lists.length ∧ d = .list l) ∨
      o.kind = .ordinary ∧ ∃ m, w.maps.length ≤ m ∧ m < w'.maps.length ∧ d = .map m) :
    Filling w w' c ctx o d where
  extend := extend
  live := extend.heap ▸ live
  sound := by
    have other : ∀ a d', cacheAt w c a = some d' → d' ≠ d := by
      rintro a d' found rfl
      rcases sound.old found with ⟨l, old, rfl⟩ | ⟨m, old, rfl⟩
      · rcases kind with ⟨-, l', new, -, same⟩ | ⟨-, m', -, -, same⟩ <;> cases same
        omega
      · rcases kind with ⟨-, l', -, -, same⟩ | ⟨-, m', new, -, same⟩ <;> cases same
        omega
    refine ⟨fun a d' found => ?_, fun a a' d' found found' => ?_⟩
    · rw [cache] at found
      split at found
      · rename_i same
        cases found
        refine ⟨o, extend.heap ▸ live, same.symm, kind.imp ?_ ?_⟩
        · rintro ⟨array, l, -, inside, rfl⟩
          exact ⟨array, l, inside, rfl⟩
        · rintro ⟨ordinary, m, -, inside, rfl⟩
          exact ⟨ordinary, m, inside, rfl⟩
      · obtain ⟨o', live', address, kind'⟩ := sound.origin a d' found
        refine ⟨o', extend.heap ▸ live', address, kind'.imp ?_ ?_⟩
        · rintro ⟨array, l, old, rfl⟩
          exact ⟨array, l, old.trans_le extend.lists.1, rfl⟩
        · rintro ⟨ordinary, m, old, rfl⟩
          exact ⟨ordinary, m, old.trans_le extend.maps.1, rfl⟩
    · rw [cache] at found found'
      split at found <;> split at found'
      · rename_i same same'
        exact same.trans same'.symm
      · cases found
        exact absurd rfl (other _ _ found')
      · cases found'
        exact absurd rfl (other _ _ found)
      · exact sound.injective a a' d' found found'
  own := by rw [cache, if_pos rfl]
  others o' d' live' different found before := by
    have address : o'.address ≠ o.address := fun same =>
      different (Heap.eq_of_address_eq live' (extend.heap ▸ live) same)
    rw [cache, if_neg address, before] at found
    cases found

theorem step (filling : Filling w₀ w c ctx o d) (grows : Grows c ctx w w') :
    Filling w₀ w' c ctx o d where
  extend := filling.extend.trans grows.extend
  live := grows.extend.heap ▸ filling.live
  sound := grows.sound
  own := grows.extend.cached _ _ filling.own
  others o' d' live different found before := by
    cases between : cacheAt w c o'.address with
    | none => exact grows.complete o' d' live found between
    | some d₁ =>
      have same := grows.extend.cached _ _ between
      rw [found] at same
      cases same
      rw [grows.extend.heap] at live
      exact (filling.others o' d' live different between before).extend grows.extend
        (filling.sound.old between)

/-- A change to the container under construction alone. -/
theorem change (filling : Filling w₀ w c ctx o d) (extend : Extends c w₀ w')
    (heap : w'.heap = w.heap) (caches : w'.caches = w.caches)
    (lists : w.lists.length ≤ w'.lists.length) (maps : w.maps.length ≤ w'.maps.length)
    (value : ∀ p, w'.value p = w.value p)
    (graph : ∀ d', d' ≠ d → dartGraph w' d' = dartGraph w d') : Filling w₀ w' c ctx o d := by
  have same : ∀ a, cacheAt w' c a = cacheAt w c a := fun a => by simp only [cacheAt, caches]
  have leaf : ∀ v d, LeafRead w ctx v d → LeafRead w' ctx v d := by
    intro v d image
    cases v with
    | object o =>
      obtain ⟨function, p, rfl, holds⟩ := image
      exact ⟨function, p, rfl, (value p).trans holds⟩
    | _ => exact image
  have image : ∀ v d, Image w c ctx v d → Image w' c ctx v d := by
    intro v d image
    cases v with
    | object o =>
      simp only [Image, same] at image ⊢
      split at image
      · rename_i function
        rw [if_pos function]
        exact leaf _ _ image
      · rename_i container
        rw [if_neg container]
        exact image
    | _ =>
      simp only [Image] at image ⊢
      exact leaf _ _ image
  refine ⟨extend, heap ▸ filling.live, ⟨fun a d' found => ?_, fun a a' d' found found' => ?_⟩, ?_, ?_⟩
  · rw [same] at found
    obtain ⟨o', live', address, kind'⟩ := filling.sound.origin a d' found
    refine ⟨o', heap ▸ live', address, kind'.imp ?_ ?_⟩
    · rintro ⟨array, l, old, rfl⟩
      exact ⟨array, l, old.trans_le lists, rfl⟩
    · rintro ⟨ordinary, m, old, rfl⟩
      exact ⟨ordinary, m, old.trans_le maps, rfl⟩
  · rw [same] at found found'
    exact filling.sound.injective a a' d' found found'
  · rw [same]
    exact filling.own
  · intro o' d' live different found before
    rw [heap] at live
    rw [same] at found
    have notOwn : d' ≠ d := by
      rintro rfl
      exact different (Heap.eq_of_address_eq live filling.live
        (filling.sound.injective _ _ _ found filling.own))
    exact (filling.others o' d' live different found before).congr heap (graph d' notOwn) leaf
      image

/-- The finished container makes the whole part complete. -/
theorem finish (filling : Filling w₀ w c ctx o d) (complete : Complete w c ctx o d) :
    Grows c ctx w₀ w where
  extend := filling.extend
  sound := filling.sound
  complete o' d' live found before := by
    by_cases same : o' = o
    · subst same
      rw [filling.own] at found
      cases found
      exact complete
    · exact filling.others o' d' live same found before

end Filling

namespace ListFilled

theorem step (filled : ListFilled w₀ w c ctx o l i) (grows : Grows c ctx w w') :
    ListFilled w₀ w' c ctx o l i where
  toFilling := filled.toFilling.step grows
  new := filled.new
  inside := filled.inside.trans_le grows.extend.lists.1
  count := by
    rw [grows.extend.lists.getD filled.inside]
    exact filled.count
  elements j d at_j := by
    rw [grows.extend.lists.getD filled.inside] at at_j
    rw [grows.extend.heap]
    exact grows.extend.image (filled.elements j d at_j)

theorem push (filled : ListFilled w₀ w c ctx o l i)
    (image : Image w c ctx (element w.heap o i) d) :
    ListFilled w₀ { w with lists := w.lists.modify l (· ++ [d]) } c ctx o l (i+1) where
  toFilling := by
    refine filled.change ?_ rfl rfl (by simp) le_rfl (fun _ => rfl) fun d' other => ?_
    · exact { filled.extend with lists := filled.extend.lists.modify filled.new _ }
    · cases d' with
      | list l' =>
        have different : l' ≠ l := fun same => other (by rw [same])
        simp only [dartGraph, getD_modify_ne different]
      | _ => rfl
  new := filled.new
  inside := by simpa using filled.inside
  count := by simp only [getD_modify_self filled.inside, List.length_append, filled.count,
    List.length_singleton]
  elements j d' at_j := by
    simp only [getD_modify_self filled.inside] at at_j
    rcases Nat.lt_or_ge j i with before | after
    · rw [List.getElem?_append_left (by rw [filled.count]; exact before)] at at_j
      exact filled.elements j d' at_j
    · rw [List.getElem?_append_right (by rw [filled.count]; exact after), filled.count] at at_j
      have inside := (List.getElem?_eq_some_iff.mp at_j).1
      rw [List.length_singleton] at inside
      have last : j = i := by omega
      subst last
      rw [Nat.sub_self] at at_j
      cases at_j
      exact image

end ListFilled

namespace MapFilled

theorem step (filled : MapFilled w₀ w c ctx o obj m keys) (grows : Grows c ctx w w') :
    MapFilled w₀ w' c ctx o obj m keys where
  toFilling := filled.toFilling.step grows
  new := filled.new
  inside := filled.inside.trans_le grows.extend.maps.1
  sources key d found := by
    rw [grows.extend.maps.getD filled.inside] at found
    obtain ⟨k, member, same, image⟩ := filled.sources key d found
    exact ⟨k, member, same, grows.extend.image image⟩
  inserted apart := by
    rw [grows.extend.maps.getD filled.inside]
    exact filled.inserted apart
  values apart k member := by
    rw [grows.extend.maps.getD filled.inside]
    obtain ⟨d, found, image⟩ := filled.values apart k member
    exact ⟨d, found, grows.extend.image image⟩

theorem push (filled : MapFilled w₀ w c ctx o obj m keys) {k : PropKey}
    (image : Image w c ctx (dataValue obj k) d) :
    MapFilled w₀ { w with maps := w.maps.modify m (·.insert (keyRead k) d) } c ctx o obj m
      (keys ++ [k]) where
  toFilling := by
    refine filled.change ?_ rfl rfl le_rfl (by simp) (fun _ => rfl) fun d' other => ?_
    · exact { filled.extend with maps := filled.extend.maps.modify filled.new _ }
    · cases d' with
      | map m' =>
        have different : m' ≠ m := fun same => other (by rw [same])
        simp only [dartGraph, getD_modify_ne different]
      | _ => rfl
  new := filled.new
  inside := by simpa using filled.inside
  sources key d' found := by
    rw [getD_modify_self filled.inside, OrderedMap.find_insert] at found
    split at found
    · rename_i isKey
      cases found
      exact ⟨k, by simp, isKey, image⟩
    · obtain ⟨k', member, same, image'⟩ := filled.sources key d' found
      exact ⟨k', by simp [member], same, image'⟩
  inserted apart := by
    rw [List.map_append, List.map_singleton, List.nodup_append] at apart
    have fresh : keyRead k ∉ keys.map keyRead := fun old =>
      apart.2.2 _ old _ (List.mem_singleton_self _) rfl
    rw [getD_modify_self filled.inside, OrderedMap.keys_insert, filled.inserted apart.1,
      if_neg fresh, List.map_append, List.map_singleton]
  values apart k' member := by
    rw [List.map_append, List.map_singleton, List.nodup_append] at apart
    rw [getD_modify_self filled.inside]
    rcases List.mem_append.mp member with old | new
    · have different : keyRead k' ≠ keyRead k :=
        apart.2.2 _ (List.mem_map_of_mem old) _ (List.mem_singleton_self _)
      obtain ⟨d', found, image'⟩ := filled.values apart.1 k' old
      exact ⟨d', by rw [OrderedMap.find_insert_ne different]; exact found, image'⟩
    · rw [List.mem_singleton.mp new]
      exact ⟨d, OrderedMap.find_insert_self _ _ _, image⟩

end MapFilled

end

variable {rely : World → World → Prop} {total : Prop} {c n : Nat} {ctx : Ctx}
  {w₀ w : World} {o : ObjRef} {obj : JSObj} {v : JSValue} {p val : Ptr} {l m : Nat}
  {convert : JSRef → Action DartVal}

theorem DataOnly.plain {h : Heap} (data : DataOnly readLength h v) (holds : w.value p = v) :
    ∀ o callable, w.value p = .object o → o.kind ≠ .exotic callable := by
  intro o callable isO exotic
  rw [holds] at isO
  subst isO
  have node := data.node
  simp only [DataNode, exotic] at node

theorem quiet_jsAtomToValue {k : PropKey} {Q : Except DartError Ptr → World → Prop} :
    wp env (quiet rely total) (jsAtomToValue k) Q w ↔ Q (.ok w.lastBox) (w.fetch k.toValue) := by
  have known : answer (.atomToValue k) w = some (k.toValue, w.credit k.toValue) := rfl
  rw [jsAtomToValue, wp_bind, quiet_answer _ known trivial, andThen_ok, quiet_new]
  exact Iff.rfl

/-- A converter for data-only values with clean text, given stack for `n` uncached objects. -/
def Converts (rely : World → World → Prop) (total : Prop) (c n : Nat)
    (convert : JSRef → Action DartVal) : Prop :=
  ∀ jval v w, Holds w jval.val v → c < w.caches.length → SoundCache w c →
    DataOnly readLength w.heap v → Texts Clean readLength w.heap v →
    wp env (quiet rely total) (convert jval) (Decodes w c jval.ctx v n) w

theorem holds_wrap {q : Ptr} (holds : Holds w p v) : Holds (w.wrap ctx q) p v :=
  (Extends.wrap (c := 0) w ctx q).holds holds

theorem Converts.fromJs (conv : Converts rely total c n convert) (holds : Holds w p v)
    (inside : c < w.caches.length) (sound : SoundCache w c)
    (data : DataOnly readLength w.heap v) (clean : Texts Clean readLength w.heap v) :
    wp env (quiet rely total) (ValueConverter.toDartValueFromJs convert ctx p)
      (Decodes w c ctx v n) w := by
  have wrapped : Grows c ctx w _ := .wrap sound p
  rw [ValueConverter.toDartValueFromJs, wp_bind, quiet_toDartJSValue (data.plain holds.value),
    andThen_ok]
  refine wp_mono (conv _ v _ (wrapped.extend.holds holds) (inside.trans_le wrapped.extend.caches)
    wrapped.sound (wrapped.extend.heap ▸ data) (wrapped.extend.heap ▸ clean)) fun out w' decoded => ?_
  cases out with
  | ok d => exact ⟨wrapped.trans decoded.1, decoded.2⟩
  | error e => exact Nat.le_trans decoded wrapped.extend.uncached_le

end FlutterQuickjs.Conversion
