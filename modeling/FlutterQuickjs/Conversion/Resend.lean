import FlutterQuickjs.Conversion.RoundTrip

namespace FlutterQuickjs.Conversion

open Engine Binding ValueConverter
open Effect

/-- The number a JS value is. -/
def jsNumber : JSValue → Option Double
  | .int n => some (Double.ofInt64 n.toInt64)
  | .float64 x => some x
  | _ => none

/-- The same primitive, up to null becoming undefined. -/
def SameJS (v v' : JSValue) : Prop :=
  v = v' ∨ (v = .null ∧ v' = .undefined) ∨ ∃ x, jsNumber v = some x ∧ jsNumber v' = some x

/-- No value of the graph is a function or a symbol. -/
def NoFunctions (h : Heap) (root : JSValue) : Prop :=
  ∀ path v, (jsGraph UInt32.toNat h).follow root path = some v →
    v.isFunction = false ∧ ∀ s, v ≠ .symbol s

/-- A tree of arrays shorter than 2^31 and of objects whose keys the engine takes for themselves and
collide with nothing they inherit, with clean text, no byte order marks and no big integers. -/
structure Resendable (h : Heap) (chain : List (ObjRef × JSObj)) (root : JSValue) : Prop where
  acyclic : (jsGraph UInt32.toNat h).Acyclic root
  unshared : (jsGraph UInt32.toNat h).Unshared root
  texts : Texts Unmarked UInt32.toNat h root
  short : ArraysBelow (2^31) h root
  inheritable : ∀ path o obj k, (jsGraph UInt32.toNat h).follow root path = some (.object o) →
    o.kind = .ordinary → h.find o = some obj → k ∈ obj.enumerableKeys → Heap.Inheritable k chain
  literals : ∀ path o obj s, (jsGraph UInt32.toNat h).follow root path = some (.object o) →
    o.kind = .ordinary → h.find o = some obj → .string s ∈ obj.enumerableKeys →
    literal (toUtf8 s) = true
  noBigInt : ∀ path n, (jsGraph UInt32.toNat h).follow root path ≠ some (.bigInt n)

/-- Given enough stack both ways, the value in `val` goes to Dart and comes back in a box that
meets `Q`. -/
def GoesBack [PackageFfi] (rely : World → World → Prop) (ctx : Ctx) (w : World) (val : Ptr)
    (Q : Ptr → World → Prop) : Prop :=
  ∃ n, ∀ fuel, n ≤ fuel → wp env (.plain rely True)
    (toDartValueFromJs (fun jval => toDartValue fuel jval none) ctx val) (fun out w₁ =>
      ∃ d, out = .ok d ∧ ∃ n', ∀ fuel', n' ≤ fuel' → wp env (.plain rely True)
        (toQuickJSValue fuel' ctx d) (fun out w' => ∃ p, out = .ok p ∧ Q p w') w₁) w

section

variable {len : UInt32 → Nat} {h h' : Heap} {o : ObjRef} {obj : JSObj} {k : PropKey}
  {v v' : JSValue} {w w₁ : World} {d : DartVal} {chain : List (ObjRef × JSObj)} {ctx : Ctx}

/-- The names of the object. -/
theorem name_of_member (node : DataNode len h (.object o)) (clean : TextNode Clean len h (.object o))
    (ordinary : o.kind = .ordinary) (found : h.find o = some obj)
    (member : k ∈ obj.enumerableKeys) : ∃ s, k = .string s ∧ Clean s := by
  simp only [DataNode, ordinary] at node
  obtain ⟨obj', found', each⟩ := node
  cases Option.some.inj (found.symm.trans found')
  obtain ⟨p, own, enumerable⟩ := JSObj.mem_enumerableKeys.mp member
  obtain ⟨⟨s, rfl⟩, -⟩ := each k p own enumerable
  simp only [TextNode, jsGraph_ordinary len ordinary found, keys_ownRecord] at clean
  exact ⟨s, rfl, clean s member⟩

theorem sentKey_keyImage (node : DataNode len h (.object o)) (clean : TextNode Clean len h (.object o))
    (ordinary : o.kind = .ordinary) (found : h.find o = some obj)
    (member : k ∈ obj.enumerableKeys) : sentKey noneInterned (keyImage k) = k := by
  obtain ⟨s, rfl, text⟩ := name_of_member node clean ordinary found member
  exact sentKey_of_clean text

/-- A double that becomes an `int32_t` stays the number it is. -/
theorem jsNumber_newFloat64 (x : Double) : jsNumber (.newFloat64 x) = some x := by
  unfold JSValue.newFloat64
  cases isInt : x.toInt? with
  | none => rfl
  | some n =>
    dsimp only
    split
    · rename_i fits
      obtain ⟨y, rfl, exact⟩ := toInt?_eq_some.mp isInt
      have same : (Int32.ofInt n).toInt64.toInt = n := (Int32.toInt_toInt64 _).trans fits
      have small : n.natAbs < 2^53 := by
        have low := (Int32.ofInt n).le_toInt
        have high := (Int32.ofInt n).toInt_lt
        omega
      simp only [jsNumber, Double.ofInt64, Option.some_inj, Double.finite.injEq]
      refine Subtype.ext ?_
      change Dyadic.ofInt (roundInt _) = y.val
      rw [same, roundInt_of_natAbs_lt small, exact]
    · rfl

/-- A plain JS leaf is itself again after the way through Dart. -/
theorem sameJS_of_images (plain : v.isFunction = false) (noSymbol : ∀ s, v ≠ .symbol s)
    (noBigInt : ∀ n, v ≠ .bigInt n) (clean : ∀ s, v = .string s → Clean s)
    (image : LeafImage w ctx v d) (code : LeafCode d v') : SameJS v v' := by
  cases v with
  | int n =>
    cases (show d = .int n.toInt64 from image)
    refine .inl ?_
    rw [show v' = .newInt64 n.toInt64 from code, JSValue.newInt64, Int32.toInt32_toInt64,
      if_pos rfl]
  | bool b =>
    cases (show d = .bool b from image)
    exact .inl (show v' = .bool b from code).symm
  | null =>
    cases (show d = .null from image)
    exact .inr (.inl ⟨rfl, code⟩)
  | undefined =>
    cases (show d = .null from image)
    exact .inl (show v' = .undefined from code).symm
  | float64 x =>
    cases (show d = .double x from image)
    refine .inr (.inr ⟨x, rfl, ?_⟩)
    rw [show v' = .newFloat64 x from code]
    exact jsNumber_newFloat64 x
  | string s =>
    cases (show d = .string s from image)
    refine .inl ?_
    rw [show v' = .string (sent s) from code, sent_of_clean (clean s rfl)]
  | symbol s => exact absurd rfl (noSymbol s)
  | bigInt n => exact absurd rfl (noBigInt n)
  | exception => exact image.elim
  | object o =>
    rw [image.1] at plain
    cases plain

variable {R : JSValue → DartVal → Prop}

/-- The keys of a map that shows an object, as they will be sent. -/
theorem shown_keys {m : Nat} (node : DataNode len h v) (clean : TextNode Clean len h v)
    (same : Matches R keyImage (jsGraph len h v) (dartGraph w (.map m))) :
    ∃ o obj, v = .object o ∧ o.kind = .ordinary ∧ h.find o = some obj ∧
      ((w.maps.getD m .empty).keys.map (sentKey noneInterned)).Perm obj.enumerableKeys := by
  cases view : jsGraph len h v with
  | leaf l => rw [view] at same; exact same.elim
  | list id elements => rw [view] at same; exact same.elim
  | record id entries =>
    rw [view] at same
    obtain ⟨o, obj, rfl, ordinary, found, rfl⟩ := jsGraph_eq_record view
    have perm : (w.maps.getD m .empty).keys.Perm ((ownRecord obj).keys.map keyImage) := same
    rw [keys_ownRecord] at perm
    refine ⟨o, obj, rfl, ordinary, found, (perm.map (sentKey noneInterned)).trans (.of_eq ?_)⟩
    rw [List.map_map]
    refine (List.map_congr_left fun k member => ?_).trans (List.map_id _)
    exact sentKey_keyImage node clean ordinary found member

theorem Resendable.clean (resendable : Resendable h chain v) : Texts Clean UInt32.toNat h v :=
  resendable.texts.mono fun _ => And.left

/-- Nothing about the value that shows a resendable graph stops the encoder. -/
theorem Resendable.fine (resendable : Resendable h chain v) (data : DataOnly UInt32.toNat h v)
    (alike : ValueGraph.Alike R keyImage (jsGraph UInt32.toNat h) (dartGraph w) v d)
    {path : List (Step MapKey)} {m : DartVal} (leads : (dartGraph w).follow d path = some m) :
    FineNode noneInterned w chain m := by
  cases m with
  | map m =>
    obtain ⟨path', x, -, leads', same⟩ := alike.source leads
    obtain ⟨o, obj, rfl, ordinary, found, perm⟩ :=
      shown_keys (data path' x leads') (resendable.clean path' x leads') same
    refine ⟨perm.nodup_iff.mpr obj.enumerableKeys_nodup, fun k member => ?_⟩
    have shown := perm.mem_iff.mp (List.mem_map_of_mem member)
    exact resendable.inheritable path' o obj _ leads' ordinary found shown
  | _ => trivial

/-- Its keys are taken for themselves. -/
theorem Resendable.predictable (resendable : Resendable h chain v) (data : DataOnly UInt32.toNat h v)
    (alike : ValueGraph.Alike R keyImage (jsGraph UInt32.toNat h) (dartGraph w) v d)
    (finds : CString → PropKey → Prop) (interned : CString → Bool) :
    Predictable finds interned w d := by
  intro path m leads k member
  obtain ⟨path', x, -, leads', same⟩ := alike.source leads
  obtain ⟨o, obj, rfl, ordinary, found, perm⟩ :=
    shown_keys (data path' x leads') (resendable.clean path' x leads') same
  have shown := perm.mem_iff.mp (List.mem_map_of_mem member)
  rw [sentKey_noneInterned] at shown
  exact .inl (resendable.literals path' o obj _ leads' ordinary found shown)

theorem Resendable.listsBelow (resendable : Resendable h chain v)
    (alike : ValueGraph.Alike R keyImage (jsGraph UInt32.toNat h) (dartGraph w) v d) :
    ListsBelow (2^31) w d := by
  intro path l leads
  obtain ⟨path', x, -, leads', same⟩ := alike.source leads
  cases view : jsGraph UInt32.toNat h x with
  | leaf y => rw [view] at same; exact same.elim
  | record id entries => rw [view] at same; exact same.elim
  | list id elements =>
    rw [view] at same
    obtain ⟨o, obj, rfl, array, found, length⟩ := jsGraph_eq_list view
    have short := resendable.short path' o obj leads' array found
    rw [← length, show elements.length = (w.lists.getD l []).length from same] at short
    exact short

/-- What the encoder made of the value that shows a resendable graph is that graph again. -/
theorem Resendable.iso (resendable : Resendable h chain v) (data : DataOnly UInt32.toNat h v)
    (plain : NoFunctions h v) {root : ObjRef} (prototypes : Prototypes w root chain)
    (alike : ValueGraph.Alike (LeafImage w ctx) keyImage (jsGraph UInt32.toNat h) (dartGraph w) v d)
    {n lo hi : Nat} (encoded : Encoded noneInterned w root h' n d v' lo hi) :
    ValueGraph.Iso SameJS id (jsGraph UInt32.toNat h) (jsGraph UInt32.toNat h') v v' := by
  have lists := resendable.listsBelow alike
  have fine : Fine noneInterned w chain d := fun path m leads =>
    resendable.fine data alike (ValueGraph.follow_mono (fun _ _ _ => shown_child) leads)
  have shown := (encoded_bisimulation (h := h') prototypes).alike ⟨⟨n, lo, hi, encoded⟩, fine⟩
  have sent : ValueGraph.Alike LeafCode (sentKey noneInterned) (dartGraph w) (jsGraph readLength h') d v' := by
    refine shown.congr_left fun path m leads => shown_eq fun l isList => ?_
    subst isList
    exact lists path l (ValueGraph.follow_mono (fun _ _ _ => shown_child) leads)
  have whole : ValueGraph.Alike LeafCode (sentKey noneInterned) (dartGraph w) (jsGraph UInt32.toNat h') d v' := by
    have short := encoded.arraysBelow lists
    refine sent.congr_right fun path m leads => ?_
    rw [← follow_readLength short] at leads
    exact (jsGraph_readLength short leads).symm
  have both : ValueGraph.Alike SameJS id (jsGraph UInt32.toNat h) (jsGraph UInt32.toNat h') v v' := by
    refine (alike.trans whole).congr ?_ ?_
    · rintro path m l l' leads view ⟨x, image, code⟩
      obtain rfl := jsGraph_eq_leaf view
      obtain ⟨noFunction, noSymbol⟩ := plain path l leads
      refine sameJS_of_images noFunction noSymbol ?_ ?_ image code
      · rintro n rfl
        exact resendable.noBigInt path n leads
      · rintro s rfl
        exact resendable.clean path _ leads
    · intro path m id entries k leads view member
      obtain ⟨o, obj, rfl, ordinary, found, rfl⟩ := jsGraph_eq_record view
      rw [keys_ownRecord] at member
      exact sentKey_keyImage (data path _ leads) (resendable.clean path _ leads) ordinary found member
  exact both.iso_of_unshared resendable.unshared (encoded.unshared fun _ => le_rfl)

section

variable {root : ObjRef} {n lo hi : Nat} {interned : CString → Bool}
  (iso : ValueGraph.Iso SameJS id (jsGraph UInt32.toNat h) (jsGraph UInt32.toNat h') v v')
  (encoded : Encoded interned w root h' n d v' lo hi)

include iso encoded

/-- The encoder writes clean text, so nothing else can come back. -/
theorem clean_of_iso : Texts Clean UInt32.toNat h v := by
  intro path m leads
  obtain ⟨x, leads', same⟩ := iso.forth path m leads
  have clean := encoded.clean (fun _ => le_rfl) _ x leads'
  unfold TextNode at clean ⊢
  cases view : jsGraph UInt32.toNat h m with
  | leaf l =>
    rw [view] at same
    cases view' : jsGraph UInt32.toNat h' x with
    | leaf l' =>
      rw [view'] at same clean
      cases l with
      | string s =>
        rcases same with rfl | ⟨isNull, -⟩ | ⟨y, isNumber, -⟩
        · exact clean
        · cases isNull
        · cases isNumber
      | _ => trivial
    | list i elements => rw [view'] at same; exact same.elim
    | record i entries => rw [view'] at same; exact same.elim
  | list i elements => trivial
  | record i entries =>
    rw [view] at same
    cases view' : jsGraph UInt32.toNat h' x with
    | leaf l => rw [view'] at same; exact same.elim
    | list j elements => rw [view'] at same; exact same.elim
    | record j entries' =>
      rw [view'] at same clean
      have perm : entries'.keys.Perm (entries.keys.map id) := same
      rw [List.map_id] at perm
      exact fun s member => clean s (perm.mem_iff.mpr member)

end

end

/-- What was read of `v` was encoded as `v'`. -/
def Resent (interned : CString → Bool) (w : World) (c : Nat) (ctx : Ctx) (root : ObjRef) (h' : Heap)
    (v v' : JSValue) : Prop :=
  ∃ d, Converted w c ctx v d ∧ ∃ n lo hi, Encoded interned w root h' n d v' lo hi

/-- The key that comes back for a key. -/
def keyResent (interned : CString → Bool) (k : PropKey) : PropKey := sentKey interned (keyRead k)

/-- The step that comes back for a step. -/
def stepResent (interned : CString → Bool) (s : Step PropKey) : Step PropKey :=
  codeStep interned (s.map keyRead)

namespace Resent

variable {interned : CString → Bool} {w₀ w : World} {c : Nat} {ctx : Ctx} {root : ObjRef} {h' : Heap}
  {v v' : JSValue} {o : ObjRef} {obj : JSObj} {k : PropKey} {chain : List (ObjRef × JSObj)}

theorem traced (grows : Grows c ctx w₀ w) (empty : ∀ a, cacheAt w₀ c a = none) :
    ValueGraph.Traced (stepResent interned) (jsGraph readLength w.heap) (jsGraph UInt32.toNat h')
      (Resent interned w c ctx root h') :=
  (traced_converted grows empty).trans (traced_encoded fun _ => le_rfl)

theorem traced_whole (grows : Grows c ctx w₀ w) (empty : ∀ a, cacheAt w₀ c a = none) :
    ValueGraph.Traced (stepResent interned) (jsGraph UInt32.toNat w.heap) (jsGraph UInt32.toNat h')
      (Resent interned w c ctx root h') := by
  refine ⟨fun related child => ?_⟩
  obtain ⟨s, m, from_m, moved, related'⟩ := (traced grows empty).source related child
  exact ⟨s, m, readLength_child from_m, moved, related'⟩

/-- A string that comes back has no byte order mark to lose. -/
theorem string_unmarked {s : Units} (clean : Clean s)
    (resent : Resent interned w c ctx root h' (.string s) v')
    (same : Matches SameJS id (jsGraph UInt32.toNat w.heap (.string s)) (jsGraph UInt32.toNat h' v')) :
    s.head? ≠ some bom := by
  obtain ⟨d, ⟨-, image⟩, n, lo, hi, encoded⟩ := resent
  obtain rfl : d = .string (dropBom s) := image
  cases n with
  | zero => exact encoded.elim
  | succ n =>
    obtain rfl : v' = .string (sent (dropBom s)) := encoded.1
    rw [sent_of_clean (clean_dropBom clean)] at same
    rcases (show SameJS (.string s) (.string (dropBom s)) from same) with
      equal | ⟨isNull, -⟩ | ⟨x, isNumber, -⟩
    · exact head?_of_length_dropBom (congrArg List.length (JSValue.string.inj equal)).le
    · cases isNull
    · cases isNumber

/-- The keys that come back are those that were sent. -/
theorem keys_covered (grows : Grows c ctx w₀ w) (empty : ∀ a, cacheAt w₀ c a = none)
    (resent : Resent interned w c ctx root h' (.object o) v') (ordinary : o.kind = .ordinary)
    (found : w.heap.find o = some obj)
    (same : Matches SameJS id (jsGraph UInt32.toNat w.heap (.object o)) (jsGraph UInt32.toNat h' v')) :
    ∀ k ∈ obj.enumerableKeys, ∃ k' ∈ obj.enumerableKeys, k = keyResent interned k' := by
  have covered := (traced_whole grows empty).keys resent same (jsGraph_ordinary _ ordinary found)
    (f := keyResent interned) fun _ => rfl
  rwa [keys_ownRecord] at covered

/-- Where no other atom is found only byte order marks can be lost. -/
theorem keys_unmarked (grows : Grows c ctx w₀ w) (empty : ∀ a, cacheAt w₀ c a = none)
    (node : DataNode UInt32.toNat w.heap (.object o))
    (clean : TextNode Clean UInt32.toNat w.heap (.object o))
    (resent : Resent noneInterned w c ctx root h' (.object o) v') (ordinary : o.kind = .ordinary)
    (found : w.heap.find o = some obj)
    (same : Matches SameJS id (jsGraph UInt32.toNat w.heap (.object o)) (jsGraph UInt32.toNat h' v')) :
    ∀ k ∈ obj.enumerableKeys, ∃ s, k = .string s ∧ Unmarked s := by
  have back : ∀ k ∈ obj.enumerableKeys, (keyImage (keyResent noneInterned k)).toString =
      dropBom (keyImage k).toString := by
    intro k member
    obtain ⟨s, rfl, text⟩ := name_of_member node clean ordinary found member
    rw [keyResent, keyRead, sentKey_of_clean (clean_dropBom text)]
    rfl
  intro k member
  have sizes := size_of_covered (fun k => (keyImage k).toString.length) obj.enumerableKeys_nodup
    (keys_covered grows empty resent ordinary found same) (.inr fun k member => by
      rw [back k member]
      exact length_dropBom_le _) k member
  rw [back k member] at sizes
  obtain ⟨s, rfl, text⟩ := name_of_member node clean ordinary found member
  exact ⟨s, rfl, text, head?_of_length_dropBom sizes.symm.le⟩

/-- Where every other atom is found a key comes back if the engine takes it for itself. -/
theorem keys_literal (grows : Grows c ctx w₀ w) (empty : ∀ a, cacheAt w₀ c a = none)
    (unmarked : ∀ k ∈ obj.enumerableKeys, ∃ s, k = .string s ∧ Unmarked s)
    (resent : Resent allInterned w c ctx root h' (.object o) v') (ordinary : o.kind = .ordinary)
    (found : w.heap.find o = some obj)
    (same : Matches SameJS id (jsGraph UInt32.toNat w.heap (.object o)) (jsGraph UInt32.toNat h' v')) :
    ∀ s, .string s ∈ obj.enumerableKeys → literal (toUtf8 s) = true := by
  have back : ∀ k ∈ obj.enumerableKeys, ∃ s, k = .string s ∧ Unmarked s ∧
      keyResent allInterned k = .string (atomName allInterned (toUtf8 s)) := by
    intro k member
    obtain ⟨s, rfl, text⟩ := unmarked k member
    refine ⟨s, rfl, text, ?_⟩
    rw [keyResent, keyRead_of_unmarked text, keyImage, sentKey, MapKey.toString,
      sent_of_clean text.1]
  intro s member
  have sizes := size_of_covered (fun k => (keyImage k).toString.length) obj.enumerableKeys_nodup
    (keys_covered grows empty resent ordinary found same) (.inl fun k member => by
      obtain ⟨s, rfl, text, same⟩ := back k member
      rw [same]
      exact length_le_atomName text.1.1 _) _ member
  obtain ⟨s', isKey, text, same⟩ := back _ member
  cases PropKey.string.inj isKey
  rw [same] at sizes
  exact literal_of_length_atomName sizes.le

/-- Where the keys come back from themselves no step moves. -/
theorem still (fixed : ∀ o obj, v = .object o → o.kind = .ordinary → w.heap.find o = some obj →
      ∀ k ∈ obj.enumerableKeys, keyResent interned k = k) {s : Step PropKey} {x : JSValue}
    (child : (jsGraph UInt32.toNat w.heap v).child s = some x) : stepResent interned s = s := by
  cases view : jsGraph UInt32.toNat w.heap v with
  | leaf l =>
    rw [view] at child
    cases child
  | list id elements =>
    obtain ⟨o, obj, rfl, array, found, length⟩ := jsGraph_eq_list view
    rw [view] at child
    cases s with
    | key k => cases child
    | index i =>
      have inside := (List.getElem?_eq_some_iff.mp child).1
      have bound := obj.length.toNat_lt
      exact congrArg Step.index (Nat.mod_eq_of_lt (by omega))
  | record id entries =>
    obtain ⟨o, obj, rfl, ordinary, found, rfl⟩ := jsGraph_eq_record view
    rw [view] at child
    cases s with
    | index i => cases child
    | key k =>
      exact congrArg Step.key (fixed o obj rfl ordinary found k (find_ownRecord.mp child).1)

/-- What comes back was assigned, so it met nothing inherited in its way. -/
theorem inheritable (grows : Grows c ctx w₀ w) (empty : ∀ a, cacheAt w₀ c a = none)
    (prototypes : Prototypes w root chain)
    (resent : Resent noneInterned w c ctx root h' (.object o) v') (ordinary : o.kind = .ordinary)
    (found : w.heap.find o = some obj)
    (same : Matches SameJS id (jsGraph UInt32.toNat w.heap (.object o)) (jsGraph UInt32.toNat h' v'))
    (fixed : ∀ k ∈ obj.enumerableKeys, keyResent noneInterned k = k)
    (member : k ∈ obj.enumerableKeys) : Heap.Inheritable k chain := by
  obtain ⟨d, converted, n, lo, hi, encoded⟩ := resent
  rw [jsGraph_ordinary _ ordinary found] at same
  have read : ∀ m, d = .map m → ∀ key ∈ (w.maps.getD m .empty).keys,
      sentKey noneInterned key ∈ obj.enumerableKeys ∧ key = keyRead (sentKey noneInterned key) := by
    rintro m rfl key inside
    obtain ⟨x, child⟩ := Option.isSome_iff_exists.mp (OrderedMap.find_isSome.mpr inside)
    obtain ⟨s, y, from_y, moved, -⟩ := (traced_converted grows empty).source converted
      (show (dartGraph w (.map m)).child (.key key) = some x from child)
    rw [jsGraph_ordinary _ ordinary found] at from_y
    cases s with
    | index i => cases from_y
    | key k₀ =>
      obtain rfl : key = keyRead k₀ := Step.key.inj moved
      have inside := (find_ownRecord.mp from_y).1
      have own : sentKey noneInterned (keyRead k₀) = k₀ := fixed k₀ inside
      rw [own]
      exact ⟨inside, rfl⟩
  cases n with
  | zero => exact encoded.elim
  | succ n =>
    cases d with
    | map m =>
      obtain ⟨o', obj', rfl, ordinary', found', -, -, filled⟩ := encoded
      rw [jsGraph_ordinary _ ordinary' found'] at same
      have perm : (ownRecord obj').keys.Perm ((ownRecord obj).keys.map id) := same
      rw [List.map_id, keys_ownRecord, keys_ownRecord] at perm
      have nodup : ((w.maps.getD m .empty).keys.map (sentKey noneInterned)).Nodup := by
        refine (w.maps.getD m .empty).nodup.map_on fun key inside key' inside' same => ?_
        rw [(read m rfl key inside).2, same, ← (read m rfl key' inside').2]
      rcases filled.progress chain prototypes nodup with ⟨-, each, -⟩ | ⟨key, inside, -, absent⟩
      · obtain ⟨p, own, -⟩ := JSObj.mem_enumerableKeys.mp (perm.mem_iff.mpr member)
        obtain ⟨a, b, holds, -⟩ := filled.holding
        obtain ⟨d', x, ⟨key, inside, rfl⟩, -⟩ := holds _ _ own
        exact each key (List.mem_map_of_mem inside)
      · have shown := perm.mem_iff.mpr (read m rfl key inside).1
        rw [AllData.mem_enumerableKeys filled.holding.allData] at shown
        exact absurd shown absent
    | list l =>
      obtain ⟨o', obj', rfl, array, found', -⟩ := encoded
      rw [jsGraph_array _ array found'] at same
      exact same.elim
    | function f =>
      obtain ⟨o', rfl, function, -⟩ := encoded
      simp only [jsGraph, function] at same
      exact same.elim
    | _ =>
      rw [jsGraph_leaf (encoded.1 ▸ leafValue_ne_object _)] at same
      exact same.elim

end Resent

variable [PackageFfi] {rely : World → World → Prop} {ctx : Ctx} {w : World} {val : Ptr}
  {v : JSValue} {chain : List (ObjRef × JSObj)}

/-- One way to Dart and back, with these atoms interned. -/
theorem GoesBack.resent (holds : Holds w val v) (data : DataOnly UInt32.toNat w.heap v)
    (prototypes : Prototypes w (w.realm ctx).objectProto chain)
    (back : GoesBack Eq ctx w val fun p w' => ValueGraph.Iso SameJS id
      (jsGraph UInt32.toNat w.heap) (jsGraph UInt32.toNat w'.heap) v (w'.value p))
    (interned : CString → Bool) : ∃ c w₀ w₁ root h' v', w₁.heap = w.heap ∧
      Prototypes w₁ root chain ∧ Grows c ctx w₀ w₁ ∧ (∀ a, cacheAt w₀ c a = none) ∧
      Resent interned w₁ c ctx root h' v v' ∧
      ValueGraph.Iso SameJS id (jsGraph UInt32.toNat w₁.heap) (jsGraph UInt32.toNat h') v v' := by
  obtain ⟨n, enough⟩ := back
  have received := enough (max n (w.heap.size + 1)) (le_max_left _ _)
  obtain ⟨trace, out, w₁, run⟩ := wp_runs received trivial
  obtain ⟨d, rfl, n', enough'⟩ := wp_sound received run
  have returned := building_of_plain (possible_findsExactly interned) (enough' n' le_rfl)
  obtain ⟨trace', out, w', run'⟩ := wp_runs returned trivial
  obtain ⟨p, rfl, iso⟩ := wp_sound returned run'
  have calm : False ∨ ∀ w w' : World, w = w' → w' = w := .inr fun _ _ => Eq.symm
  have unused : False → Prototypes w₁ (w₁.realm ctx).objectProto chain := False.elim
  have encodes := toQuickJSValue_encodes calm unused n' d w₁ (.refl w₁)
    (predictable_exactly interned w₁ d) False.elim
  obtain ⟨-, v', holds', made⟩ := wp_sound encodes run'
  rw [holds'.value] at iso
  have clean := clean_of_iso iso made
  have read := quiet_read Eq True ctx holds data.readLength clean.readLength
    (show w.heap.size < max n (w.heap.size + 1) by omega)
  obtain ⟨untouched, c, w₀, grows, empty, converted⟩ := wp_sound read run
  have prototypes₁ : Prototypes w₁ (w₁.realm ctx).objectProto chain := by
    rw [untouched.realm]
    exact ⟨untouched.heap ▸ prototypes.chained, untouched.serial ▸ prototypes.older⟩
  rw [← untouched.heap] at iso
  exact ⟨c, w₀, w₁, _, w'.heap, v', untouched.heap, prototypes₁, grows, empty,
    ⟨d, converted, _, _, _, made⟩, iso⟩

section

omit [PackageFfi]

end

end FlutterQuickjs.Conversion
