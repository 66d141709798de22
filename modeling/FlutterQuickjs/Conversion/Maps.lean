import FlutterQuickjs.Conversion.RoundTrip

namespace FlutterQuickjs.Conversion

open Engine Binding ValueConverter
open Effect

/-- The property named like a key. -/
def nameKey (k : MapKey) : PropKey := .string k.toString

/-- The JS value shows the whole Dart value, with a property for each key of a map; its objects
are plain data over the prototype they were made with. -/
structure ShowsWhole (w : World) (root : ObjRef) (h : Heap) (d : DartVal) (v : JSValue) : Prop where
  alike : ValueGraph.Alike LeafCode nameKey (dartGraph w) (jsGraph UInt32.toNat h) d v
  plain : ∀ path o, (jsGraph UInt32.toNat h).follow v path = some (.object o) →
    o.kind = .ordinary → ∃ obj, h.find o = some obj ∧ obj.proto = some root ∧ obj.AllData

/-- Given enough stack the encoder runs no foreign code and makes a value that shows `d` whole. -/
def SendsWhole [PackageFfi] (rely : World → World → Prop) (ctx : Ctx) (w : World) (d : DartVal) :
    Prop :=
  ∃ n, ∀ fuel, n ≤ fuel → wp env ⟨rely, fun op w => ¬foreign op w, fun _ _ _ => True, True⟩
    (toQuickJSValue fuel ctx d) (fun out w' => ∃ p, out = .ok p ∧
      ShowsWhole w (w.realm ctx).objectProto w'.heap d (w'.value p)) w

/-- Every map of the value has string keys. -/
def StringKeys (w : World) (d : DartVal) : Prop :=
  ∀ path m, (dartGraph w).follow d path = some (.map m) →
    ∀ k ∈ (w.maps.getD m .empty).keys, ∃ s, k = .string s

/-- Every key is a clean string that the engine takes for itself, and meets no read-only property
and no setter on the prototype chain. -/
def SafeKeys (w : World) (chain : List (ObjRef × JSObj)) (d : DartVal) : Prop :=
  ∀ path m s, (dartGraph w).follow d path = some (.map m) →
    .string s ∈ (w.maps.getD m .empty).keys →
      Clean s ∧ literal (toUtf8 s) = true ∧ Heap.Inheritable (.string s) chain

section

variable {w : World} {root o : ObjRef} {h : Heap} {n lo hi : Nat} {d : DartVal} {v : JSValue}
  {chain : List (ObjRef × JSObj)} {interned : CString → Bool}

theorem SafeKeys.fine (safe : SafeKeys w chain d) (strings : StringKeys w d)
    {path : List (Step MapKey)} {m : DartVal} (leads : (dartGraph w).follow d path = some m) :
    FineNode interned w chain m := by
  cases m with
  | map m =>
    have each : ∀ k ∈ (w.maps.getD m .empty).keys, ∃ s, k = .string s ∧
        sentKey interned k = .string s ∧ Heap.Inheritable (.string s) chain := by
      intro k member
      obtain ⟨s, rfl⟩ := strings path m leads k member
      obtain ⟨clean, isLiteral, inheritable⟩ := safe path m s leads member
      exact ⟨s, rfl, sentKey_of_literal clean isLiteral, inheritable⟩
    refine ⟨?_, fun k member => ?_⟩
    · refine List.Nodup.map_on ?_ (w.maps.getD m .empty).nodup
      intro k member k' member' same
      obtain ⟨s, rfl, own, -⟩ := each k member
      obtain ⟨s', rfl, own', -⟩ := each k' member'
      rw [own, own'] at same
      rw [PropKey.string.inj same]
    · obtain ⟨s, -, own, inheritable⟩ := each k member
      rw [own]
      exact inheritable
  | _ => trivial

/-- A value that shows `d` under the names of its keys, and that the encoder made of `d`. -/
def Named (interned : CString → Bool) (w : World) (root : ObjRef) (h : Heap) (d : DartVal) (v : JSValue) : Prop :=
  ValueGraph.Alike LeafCode nameKey (dartGraph w) (jsGraph UInt32.toNat h) d v ∧
    ∃ n lo hi, Encoded interned w root h n d v lo hi

theorem Named.list {l : Nat} (named : Named interned w root h (.list l) v) :
    ∃ n o obj, v = .object o ∧ o.kind = .array ∧ h.find o = some obj ∧
      obj.length.toNat = (w.lists.getD l []).length ∧
      ∃ hi, ArrayHolds (Encoded interned w root h n) (w.lists.getD l []) (w.lists.getD l []).length o obj
        hi := by
  obtain ⟨alike, n, lo, hi, encoded⟩ := named
  cases n with
  | zero => exact encoded.elim
  | succ n =>
    obtain ⟨o, obj, rfl, array, found, -, -, filled⟩ := encoded
    have same := alike.view
    rw [jsGraph_array _ array found] at same
    have length : (w.lists.getD l []).length = ((List.range obj.length.toNat).map _).length := same
    rw [List.length_map, List.length_range] at length
    exact ⟨n, o, obj, rfl, array, found, length.symm, hi, filled⟩

/-- The atoms that tell which names the engine takes for themselves. -/
def Telling (interned : CString → Bool) : Prop :=
  interned = noneInterned ∨ interned = allInterned

/-- Names that come from one another by way of clean text are sent as they are. -/
theorem sent_as_named {keys : List MapKey} (telling : Telling interned) (nodup : keys.Nodup)
    (strings : ∀ k ∈ keys, ∃ s, k = .string s) (clean : ∀ k ∈ keys, Clean k.toString)
    (covered : ∀ k ∈ keys, ∃ k' ∈ keys, nameKey k = sentKey interned k') :
    ∀ k ∈ keys, sentKey interned k = nameKey k ∧
      (interned = allInterned → literal (toUtf8 k.toString) = true) := by
  rcases telling with rfl | rfl
  · intro k member
    refine ⟨?_, fun same => absurd (congrFun same []) (by decide)⟩
    rw [sentKey_noneInterned, sent_of_clean (clean k member), nameKey]
  · have back : ∀ k ∈ keys, ∃ k' ∈ keys,
        k = .string (atomName allInterned (toUtf8 k'.toString)) := by
      intro k member
      obtain ⟨k', member', same⟩ := covered k member
      obtain ⟨s, rfl⟩ := strings k member
      rw [sentKey, sent_of_clean (clean k' member')] at same
      exact ⟨k', member', congrArg MapKey.string (PropKey.string.inj same)⟩
    have sizes := size_of_covered (fun k => k.toString.length) nodup back
      (.inl fun k member => length_le_atomName (clean k member).1 _)
    intro k member
    have isLiteral : literal (toUtf8 k.toString) = true :=
      literal_of_length_atomName (sizes k member).le
    refine ⟨?_, fun _ => isLiteral⟩
    rw [sentKey, sent_of_clean (clean k member), atomName_of_literal isLiteral,
      fromUtf8_toUtf8 (clean k member).1, nameKey]

/-- The keys of a map that is shown under their names are clean and sent as they are. -/
theorem Named.map {m : Nat} (named : Named interned w root h (.map m) v) (telling : Telling interned)
    (strings : ∀ k ∈ (w.maps.getD m .empty).keys, ∃ s, k = .string s) :
    ∃ n o obj, v = .object o ∧ o.kind = .ordinary ∧ h.find o = some obj ∧
      obj.enumerableKeys.Perm ((w.maps.getD m .empty).keys.map nameKey) ∧
      (∀ k ∈ (w.maps.getD m .empty).keys, Clean k.toString ∧ sentKey interned k = nameKey k ∧
        (interned = allInterned → literal (toUtf8 k.toString) = true)) ∧
      ∃ hi, RecordHolds interned (Encoded interned w root h n) w root
        (w.maps.getD m .empty).keys (w.maps.getD m .empty).entries o obj hi := by
  obtain ⟨alike, n, lo, hi, encoded⟩ := named
  cases n with
  | zero => exact encoded.elim
  | succ n =>
    have clean := (encoded.clean fun _ => le_rfl : Texts Clean UInt32.toNat h v).node
    obtain ⟨o, obj, rfl, ordinary, found, -, -, filled⟩ := encoded
    have same := alike.view
    rw [jsGraph_ordinary _ ordinary found] at same
    have perm : (ownRecord obj).keys.Perm ((w.maps.getD m .empty).keys.map nameKey) := same
    rw [keys_ownRecord] at perm
    rw [TextNode, jsGraph_ordinary _ ordinary found] at clean
    have text : ∀ k ∈ (w.maps.getD m .empty).keys, Clean k.toString := by
      intro k member
      refine clean _ ?_
      rw [keys_ownRecord]
      exact perm.mem_iff.mpr (List.mem_map_of_mem member)
    have covered : ∀ k ∈ (w.maps.getD m .empty).keys, ∃ k' ∈ (w.maps.getD m .empty).keys,
        nameKey k = sentKey interned k' := by
      intro k member
      have shown := perm.mem_iff.mpr (List.mem_map_of_mem member)
      obtain ⟨p, own, -⟩ := JSObj.mem_enumerableKeys.mp shown
      obtain ⟨a, b, each, -⟩ := filled.holding
      obtain ⟨d, x, ⟨key, inside, same⟩, -⟩ := each _ p own
      exact ⟨key, List.mem_map_of_mem inside, same⟩
    have sent := sent_as_named telling (w.maps.getD m .empty).nodup strings text covered
    exact ⟨n, o, obj, rfl, ordinary, found, perm, fun k member => ⟨text k member, sent k member⟩, hi,
      filled⟩

theorem Named.child (named : Named interned w root h d v) (telling : Telling interned) (strings : StringKeys w d) {t : Step MapKey}
    {d' : DartVal} (child : (dartGraph w d).child t = some d') : ∃ v', Named interned w root h d' v' := by
  obtain ⟨v', child', alike'⟩ := named.1.child_forth child
  refine ⟨v', alike', ?_⟩
  cases d with
  | list l =>
    obtain ⟨n, o, obj, rfl, array, found, length, hi, filled⟩ := named.list
    cases t with
    | key k => cases child
    | index i =>
      have own := filled.holding.child _ found (.inl ⟨array, fun j inside =>
        (filled.element array found inside).2⟩) child'
      have bound := obj.length.toNat_lt
      obtain ⟨a, b, related⟩ := filled.related (by omega) child own
      exact ⟨n, a, b, related⟩
  | map m =>
    obtain ⟨n, o, obj, rfl, ordinary, found, -, each, hi, filled⟩ :=
      named.map telling (strings [] m rfl)
    cases t with
    | index i => cases child
    | key k =>
      have member := OrderedMap.find_eq_some.mp (show (w.maps.getD m .empty).find k = some d' from child)
      have inside : k ∈ (w.maps.getD m .empty).keys := List.mem_map_of_mem member
      have own := filled.holding.child _ found (.inr ordinary) child'
      obtain ⟨a, b, holds, -⟩ := filled.holding
      obtain ⟨d'', x, ⟨key, member', same⟩, isData, related, -⟩ := holds _ _ own
      cases isData
      have inside' : key ∈ (w.maps.getD m .empty).keys := List.mem_map_of_mem member'
      have names : nameKey k = nameKey key := same.trans (each key inside').2.1
      obtain ⟨s, rfl⟩ := strings [] m rfl k inside
      obtain ⟨s', rfl⟩ := strings [] m rfl key inside'
      cases PropKey.string.inj names
      have found' := OrderedMap.find_eq_some.mpr member
      rw [OrderedMap.find_eq_some.mpr member'] at found'
      cases Option.some.inj found'
      exact ⟨n, _, _, related⟩
  | _ => cases child

theorem Named.follow (named : Named interned w root h d v) (telling : Telling interned)
    (strings : StringKeys w d)
    {path : List (Step MapKey)} {m : DartVal} (leads : (dartGraph w).follow d path = some m) :
    ∃ x, Named interned w root h m x := by
  induction path generalizing d v with
  | nil =>
    cases leads
    exact ⟨v, named⟩
  | cons t path ih =>
    obtain ⟨c, child, rest⟩ := ValueGraph.follow_cons_some.mp leads
    obtain ⟨v', named'⟩ := named.child telling strings child
    exact ih named' (fun path' m leads' => strings (t :: path') m
      (ValueGraph.follow_cons_some.mpr ⟨c, child, leads'⟩)) rest

/-- What is shown whole has clean keys that inherit nothing in their way, and lists that do not
wrap around. -/
theorem Named.safe (named : Named interned w root h d v) (telling : Telling interned)
    (prototypes : Prototypes w root chain) (strings : StringKeys w d) {path : List (Step MapKey)}
    {m : Nat} {s : Units} (leads : (dartGraph w).follow d path = some (.map m))
    (member : .string s ∈ (w.maps.getD m .empty).keys) :
    Clean s ∧ (interned = allInterned → literal (toUtf8 s) = true) ∧
      Heap.Inheritable (.string s) chain := by
  obtain ⟨x, named'⟩ := named.follow telling strings leads
  obtain ⟨n, o, obj, -, -, -, perm, each, hi, filled⟩ := named'.map telling (strings path m leads)
  obtain ⟨clean, same, isLiteral⟩ := each _ member
  refine ⟨clean, isLiteral, ?_⟩
  have keys : (w.maps.getD m .empty).keys.map (sentKey interned) =
      (w.maps.getD m .empty).keys.map nameKey :=
    List.map_congr_left fun k inside => (each k inside).2.1
  have nodup : ((w.maps.getD m .empty).keys.map (sentKey interned)).Nodup := by
    rw [keys]
    exact perm.nodup_iff.mp obj.enumerableKeys_nodup
  rcases filled.progress chain prototypes nodup with ⟨-, inheritable, -⟩ | ⟨k, inside, -, absent⟩
  · have ok := inheritable _ member
    rwa [same] at ok
  · refine absurd ?_ absent
    rw [(each k inside).2.1, ← AllData.mem_enumerableKeys filled.holding.allData]
    exact perm.mem_iff.mpr (List.mem_map_of_mem inside)

theorem Named.listsBelow (named : Named interned w root h d v) (telling : Telling interned)
    (strings : StringKeys w d) : ListsBelow (2^32) w d := by
  intro path l leads
  obtain ⟨x, named'⟩ := named.follow telling strings leads
  obtain ⟨n, o, obj, -, -, -, length, -⟩ := named'.list
  have bound := obj.length.toNat_lt
  omega

end

variable [PackageFfi] {ctx : Ctx} {w : World} {d : DartVal} {chain : List (ObjRef × JSObj)}

/-- One way to send the value, with these atoms interned. -/
theorem SendsWhole.named (sends : SendsWhole Eq ctx w d) (interned : CString → Bool) :
    ∃ h v, Named interned w (w.realm ctx).objectProto h d v := by
  obtain ⟨n, enough⟩ := sends
  have free : wp env (.plain Eq True) (toQuickJSValue n ctx d) _ w :=
    wp_guard_mono (enough n le_rfl) fun _ _ _ => trivial
  have known := building_of_plain (possible_findsExactly interned) free
  obtain ⟨trace, out, w', run⟩ := wp_runs known trivial
  obtain ⟨p, rfl, shows⟩ := wp_sound known run
  have calm : False ∨ ∀ w w' : World, w = w' → w' = w := .inr fun _ _ => Eq.symm
  have unused : False → Prototypes w (w.realm ctx).objectProto [] := False.elim
  have encodes := toQuickJSValue_encodes calm unused n d w (.refl w)
    (predictable_exactly interned w d) False.elim
  obtain ⟨-, v, holds, made⟩ := wp_sound encodes run
  have alike := shows.alike
  rw [holds.value] at alike
  exact ⟨w'.heap, v, alike, _, _, _, made⟩

section

omit [PackageFfi]

variable {s : Units}

end

end FlutterQuickjs.Conversion
