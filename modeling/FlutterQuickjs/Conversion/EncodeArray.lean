import FlutterQuickjs.Conversion.EncodeRecord

namespace FlutterQuickjs.Conversion

open Engine Binding ValueConverter
open Effect

section

variable {rel : DartVal → JSValue → Nat → Nat → Prop} {elements : List DartVal} {i hi hi' : Nat}
  {o : ObjRef} {obj : JSObj} {d : DartVal} {x : JSValue} {interned : CString → Bool}

/-- Element `i` is new until the indices wrap around, and never again. -/
theorem length_assignIndex (filled : ArrayHolds rel elements i o obj hi) :
    (obj.assignIndex (UInt32.ofNat i) x).length.toNat = min (i+1) (2^32 - 1) := by
  have index : (UInt32.ofNat i).toNat = i % 2^32 := UInt32.toNat_ofNat'
  have counted := filled.length
  by_cases small : i < 2^32 - 1
  · have same : i % 2^32 = i := Nat.mod_eq_of_lt (by omega)
    have fresh : ¬(obj.properties.find (.index i)).isSome := by
      intro present
      obtain ⟨p, own⟩ := Option.isSome_iff_exists.mp present
      obtain ⟨a, b, each, -⟩ := filled.holding
      obtain ⟨d, y, ⟨j, before, equal, -⟩, -⟩ := each _ p own
      have := PropKey.index_inj.mp equal
      rw [Nat.mod_eq_of_lt (by omega)] at this
      omega
    have last : obj.length ≤ UInt32.ofNat i := by
      rw [UInt32.le_iff_toNat_le, counted, index, same]
      omega
    rw [JSObj.assignIndex, index, same, if_neg (by rintro (present | edge); exacts [fresh present, by omega])]
    change (if obj.length ≤ UInt32.ofNat i then UInt32.ofNat i + 1 else obj.length).toNat = _
    rw [if_pos last, UInt32.toNat_add, index, same]
    change (i + 1) % 2^32 = _
    omega
  · have bound := Nat.mod_lt i (show 0 < 2^32 by decide)
    have present : (obj.properties.find (.index (i % 2^32))).isSome ∨ i % 2^32 = 2^32 - 1 := by
      by_cases edge : i % 2^32 = 2^32 - 1
      · exact .inr edge
      · exact .inl (filled.dense _ (by omega))
    rw [JSObj.assignIndex, index, if_pos present]
    change obj.length.toNat = _
    omega

/-- One more round of the list branch. -/
theorem ArrayHolds.assign (filled : ArrayHolds rel elements i o obj hi) (at_i : elements[i]? = some d)
    (related : rel d x hi hi') (after : o.serial < hi) (range : hi ≤ hi') :
    ArrayHolds rel elements (i+1) o (obj.assignIndex (UInt32.ofNat i) x) hi' where
  holding := by
    have index : (UInt32.ofNat i).toNat = i % 2^32 := UInt32.toNat_ofNat'
    have old : Holding rel (fun k d => ∃ j < i + 1, k = .index (j % 2^32) ∧ elements[j]? = some d)
        o obj hi := by
      refine filled.holding.mono (fun _ _ _ _ _ _ => id) ?_ le_rfl
      rintro k d ⟨j, before, same, at_j⟩
      exact ⟨j, by omega, same, at_j⟩
    exact (old.assign ⟨i, by omega, by rw [index], at_i⟩ related after le_rfl range).congr
      (JSObj.assignIndex_properties _ _ _)
  length := length_assignIndex filled
  dense j inside := by
    rw [length_assignIndex filled] at inside
    rw [JSObj.assignIndex_properties, JSObj.assign, OrderedMap.find_insert]
    split
    · rfl
    · rename_i other
      refine filled.dense j ?_
      rw [filled.length]
      by_contra outside
      refine other (congrArg PropKey.index ?_)
      rw [UInt32.toNat_ofNat_of_lt' (show i < 2^32 by omega)]
      omega

end

/-- An array under construction, since the world `w₁`. -/
structure Listing (interned : CString → Bool) (w₀ w₁ : World) (root : ObjRef) (n : Nat) (elements : List DartVal) (i : Nat)
    (o : ObjRef) (obj : JSObj) (w : World) : Prop where
  builds : Builds w₁ w
  found : w.heap.find o = some obj
  extensible : obj.extensible = true
  writable : obj.lengthWritable = true
  first : w₁.serial ≤ o.serial
  last : o.serial < w.serial
  holds : ArrayHolds (Encoded interned w₀ root w.heap n) elements i o obj w.serial

section

variable {w₀ w₁ w w' w'' : World} {root o : ObjRef} {obj : JSObj} {n i : Nat}
  {elements : List DartVal} {d : DartVal} {x : JSValue} {interned : CString → Bool}

theorem Listing.assign (listing : Listing interned w₀ w₁ root n elements i o obj w) (builds : Builds w w')
    (encoded : Encoded interned w₀ root w'.heap n d x w.serial w'.serial) (at_i : elements[i]? = some d)
    (stores : Stores w' w'' (w'.heap.put o (obj.assignIndex (UInt32.ofNat i) x))) :
    Listing interned w₀ w₁ root n elements (i+1) o (obj.assignIndex (UInt32.ofNat i) x) w'' := by
  have found : w'.heap.find o = some obj := (builds.old o listing.last).trans listing.found
  have live : w'.heap.Live o ∨ ¬w'.heap.Taken o.address := .inl (Heap.live_of_find found)
  have others : ∀ o', o' ≠ o → (w'.heap.put o (obj.assignIndex (UInt32.ofNat i) x)).find o' =
      w'.heap.find o' := fun o' other => by rw [Heap.find_put live, if_neg other]
  have frame : ∀ d y a b, o.serial < a → Encoded interned w₀ root w'.heap n d y a b →
      Encoded interned w₀ root (w'.heap.put o (obj.assignIndex (UInt32.ofNat i) x)) n d y a b := by
    intro d y a b later encoded
    refine encoded.frame fun o' low high => others o' ?_
    rintro rfl
    omega
  refine ⟨(listing.builds.trans builds).stores stores others listing.first, ?_, ?_, ?_,
    listing.first, ?_, ?_⟩
  · rw [stores.heap, Heap.find_put live, if_pos rfl]
  · rw [JSObj.assignIndex_extensible]
    exact listing.extensible
  · rw [JSObj.assignIndex_lengthWritable]
    exact listing.writable
  · rw [stores.serial]
    exact listing.last.trans_le builds.serial
  · rw [stores.heap, stores.serial]
    have before : ArrayHolds (Encoded interned w₀ root (w'.heap.put o (obj.assignIndex (UInt32.ofNat i) x)) n)
        elements i o obj w.serial := by
      refine ⟨listing.holds.holding.mono ?_ (fun _ _ => id) le_rfl, listing.holds.length,
        listing.holds.dense⟩
      intro d y a b later earlier encoded
      exact frame d y a b later
        (encoded.frame fun o' low high => builds.old o' (high.trans_le earlier))
    exact before.assign at_i (frame d x _ _ listing.last encoded) listing.last builds.serial

end

variable [PackageFfi] {finds : CString → PropKey → Prop} {interned : CString → Bool}
  {rely : World → World → Prop} {good : Prop} {w₀ w₁ w : World}
  {root o : ObjRef} {obj : JSObj} {chain : List (ObjRef × JSObj)} {n l : Nat} {ctx : Ctx}
  {jsVal : Ptr}
  {convert : DartVal → Action Ptr}

omit [PackageFfi] in
theorem elementLoop_encodes (conv : Encoder finds interned rely w₀ root chain good n convert)
    (predictable : Predictable finds interned w₀ (.list l))
    (fits : good → ∀ d ∈ w₀.lists.getD l [], Fits interned w₀ chain n d)
    (since : Builds w₀ w₁) (array : o.kind = .array) (rounds i : Nat)
    (enough : good → (w₀.lists.getD l []).length < i + rounds)
    (inside : i ≤ (w₀.lists.getD l []).length)
    (listing : Listing interned w₀ w₁ root n (w₀.lists.getD l []) i o obj w)
    (holds : Holds w jsVal (.object o)) :
    wp env (building finds rely good) (elementLoop convert ctx jsVal l rounds i)
      (fun out w' => match out with
        | .ok _ => Holds w' jsVal (.object o) ∧ ∃ obj', Listing interned w₀ w₁ root n (w₀.lists.getD l [])
            (w₀.lists.getD l []).length o obj' w'
        | .error _ => ¬good) w := by
  have lists : w.lists = w₀.lists := listing.builds.lists.trans since.lists
  induction rounds generalizing i w obj with
  | zero =>
    intro isGood
    have := enough isGood
    omega
  | succ rounds ih =>
    rw [elementLoop, wp_bind, building_listLength, andThen_ok, lists, wp_ite]
    refine ⟨fun before => ?_, fun beyond => ?_⟩
    · rw [wp_bind, building_listGet, andThen_ok, lists, List.getElem?_eq_getElem before]
      have at_i := List.getElem?_eq_getElem before
      have member : (w₀.lists.getD l [])[i] ∈ w₀.lists.getD l [] := List.getElem_mem before
      generalize (w₀.lists.getD l [])[i] = d at *
      dsimp only
      rw [wp_bind]
      refine wp_mono (conv d w (since.trans listing.builds)
        (predictable.child (show (dartGraph w₀ (.list l)).child (.index i) = some d from at_i))
        fun isGood => fits isGood d member)
        fun out w' encodes => ?_
      cases out with
      | error e => exact encodes
      | ok element =>
        obtain ⟨builds, v, holdsElement, encoded⟩ := encodes
        have holds' := builds.holds holds
        have found : w'.heap.find o = some obj := (builds.old o listing.last).trans listing.found
        rw [andThen_ok, wp_bind, jsDefinePropertyValueUint32, wp_bind, building_load, andThen_ok,
          wp_bind, building_load, andThen_ok, holds'.value, holdsElement.value,
          building_defineIndex array found listing.holds.holding.allData listing.extensible
            listing.writable, andThen_ok]
        have stores : Stores w' { w'.debit v with
            heap := w'.heap.put o (obj.assignIndex (UInt32.ofNat i) v) } _ :=
          ⟨rfl, rfl, rfl, rfl, rfl, rfl, rfl⟩
        exact ih (i+1) (fun isGood => by have := enough isGood; omega) before
          (listing.assign builds encoded at_i stores) (stores.holds holds')
          (builds.lists.trans lists)
    · obtain rfl : i = (w₀.lists.getD l []).length := by omega
      rw [wp_pure]
      exact ⟨holds, obj, listing⟩

end FlutterQuickjs.Conversion
