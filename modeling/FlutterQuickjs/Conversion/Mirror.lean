import FlutterQuickjs.Conversion.Output

namespace FlutterQuickjs.Conversion

open Engine Binding
open Effect

/-- The graph of Dart values as far as it can be read back: the length of a longer list does
not fit into an `int32_t`, and its elements are lost. -/
def shownGraph (w : World) : ValueGraph DartVal MapKey DartVal DartVal
  | .list l => .list (.list l)
      (if (w.lists.getD l []).length < 2^31 then w.lists.getD l [] else [])
  | d => dartGraph w d

/-- The JS leaf that the encoder writes. -/
def LeafCode (d : DartVal) (v : JSValue) : Prop :=
  match d with
  | .function _ => ∃ o, v = .object o ∧ o.kind = .function
  | d => v = leafValue d

/-- The keys of a map become different properties, and none runs into an inherited one. -/
def FineNode (interned : CString → Bool) (w : World) (chain : List (ObjRef × JSObj)) (d : DartVal) : Prop :=
  match d with
  | .map m => ((w.maps.getD m .empty).keys.map (sentKey interned)).Nodup ∧
      ∀ k ∈ (w.maps.getD m .empty).keys, Heap.Inheritable (sentKey interned k) chain
  | _ => True

def Fine (interned : CString → Bool) (w : World) (chain : List (ObjRef × JSObj)) (d : DartVal) : Prop :=
  ∀ path m, (shownGraph w).follow d path = some m → FineNode interned w chain m

/-- The step that leads to what the encoder makes of a child. -/
def codeStep (interned : CString → Bool) : Step MapKey → Step PropKey
  | .index j => .index (j % 2^32)
  | .key k => .key (sentKey interned k)

/-- Every list of the value is shorter than `bound`. -/
def ListsBelow (bound : Nat) (w : World) (d : DartVal) : Prop :=
  ∀ path l, (dartGraph w).follow d path = some (.list l) → (w.lists.getD l []).length < bound

section

variable {w : World} {root o : ObjRef} {obj : JSObj} {chain : List (ObjRef × JSObj)} {h : Heap}
  {n lo hi : Nat}  {d : DartVal} {v : JSValue} {elements : List DartVal}
  {rel : DartVal → JSValue → Nat → Nat → Prop} {all : List MapKey}
  {entries : List (MapKey × DartVal)} {interned : CString → Bool}

theorem Fine.child (fine : Fine interned w chain d) {s : Step MapKey} {m : DartVal}
    (child : (shownGraph w d).child s = some m) : Fine interned w chain m := by
  intro path x leads
  exact fine (s :: path) x (ValueGraph.follow_cons_some.mpr ⟨m, child, leads⟩)

theorem ArrayHolds.readLength (filled : ArrayHolds rel elements elements.length o obj hi) :
    readLength obj.length = (if elements.length < 2^31 then elements else []).length := by
  have counted := filled.length
  split
  · rename_i short
    rw [readLength_of_lt (by omega), counted]
    omega
  · rename_i long
    rw [readLength_of_ge (by omega)]
    rfl

theorem ArrayHolds.related (filled : ArrayHolds rel elements elements.length o obj hi) {i : Nat}
    (short : elements.length < 2^32) (at_i : elements[i]? = some d) {x : JSValue}
    (own : obj.properties.find (.index i) = some (.data x true true true)) :
    ∃ a b, rel d x a b := by
  obtain ⟨a, b, each, -⟩ := filled.holding
  obtain ⟨d', y, ⟨j, before, same, at_j⟩, isData, related, -⟩ := each _ _ own
  cases isData
  have index := PropKey.index_inj.mp same
  rw [Nat.mod_eq_of_lt (show j < 2^32 by omega)] at index
  subst index
  cases at_i.symm.trans at_j
  exact ⟨_, _, related⟩

/-- Where every key is fine the properties are the entries. -/
theorem RecordHolds.keys (filled : RecordHolds interned rel w root (entries.map Prod.fst) entries o obj hi)
    (prototypes : Prototypes w root chain)
    (nodup : ((entries.map Prod.fst).map (sentKey interned)).Nodup)
    (inheritable : ∀ k ∈ entries.map Prod.fst, Heap.Inheritable (sentKey interned k) chain) :
    obj.properties.keys = (entries.map Prod.fst).map (sentKey interned) := by
  rcases filled.progress chain prototypes nodup with ⟨-, -, keys⟩ | ⟨k, member, blocked, -⟩
  · exact keys
  · exact absurd (inheritable k member) blocked

theorem RecordHolds.related (filled : RecordHolds interned rel w root (entries.map Prod.fst) entries o obj hi)
    (nodup : ((entries.map Prod.fst).map (sentKey interned)).Nodup) {key : MapKey} {x : JSValue}
    (member : (key,d) ∈ entries)
    (own : obj.properties.find (sentKey interned key) = some (.data x true true true)) :
    ∃ a b, rel d x a b := by
  obtain ⟨a, b, each, -⟩ := filled.holding
  obtain ⟨d', y, ⟨key', member', same⟩, isData, related, -⟩ := each _ _ own
  cases isData
  rw [List.map_map] at nodup
  have entry : (key,d) = (key',d') := List.inj_on_of_nodup_map nodup member member' same
  cases entry
  exact ⟨_, _, related⟩

variable {len : UInt32 → Nat}

theorem Encoded.matches_leaf (encoded : Encoded interned w root h n d v lo hi)
    (leaf : dartGraph w d = .leaf d) :
    Matches LeafCode (sentKey interned) (dartGraph w d) (jsGraph len h v) := by
  rw [leaf]
  cases n with
  | zero => exact encoded.elim
  | succ n =>
    cases d with
    | list l => cases leaf
    | map m => cases leaf
    | function f =>
      obtain ⟨o, rfl, function, -⟩ := encoded
      simp only [jsGraph, function]
      exact ⟨o, rfl, function⟩
    | _ =>
      rw [jsGraph_leaf (encoded.1 ▸ leafValue_ne_object _)]
      exact encoded.1

theorem Encoded.matches_map {m : Nat} (prototypes : Prototypes w root chain)
    (encoded : Encoded interned w root h n (.map m) v lo hi) (fine : FineNode interned w chain (.map m)) :
    Matches LeafCode (sentKey interned) (dartGraph w (.map m)) (jsGraph len h v) := by
  cases n with
  | zero => exact encoded.elim
  | succ n =>
    obtain ⟨o, obj, rfl, ordinary, found, -, -, filled⟩ := encoded
    rw [jsGraph_ordinary _ ordinary found]
    change List.Perm (ownRecord obj).keys _
    rw [keys_ownRecord, List.perm_ext_iff_of_nodup obj.enumerableKeys_nodup fine.1]
    intro k
    rw [AllData.mem_enumerableKeys filled.holding.allData]
    rw [filled.keys prototypes fine.1 fine.2]
    rfl

theorem Encoded.child_map {m : Nat} (encoded : Encoded interned w root h n (.map m) v lo hi)
    (fine : FineNode interned w chain (.map m)) {s : Step MapKey} {x : JSValue}
    (child : (dartGraph w (.map m)).child s = some d)
    (child' : (jsGraph len h v).child (s.map (sentKey interned)) = some x) :
    ∃ n lo hi, Encoded interned w root h n d x lo hi := by
  cases n with
  | zero => exact encoded.elim
  | succ n =>
    obtain ⟨o, obj, rfl, ordinary, found, -, -, filled⟩ := encoded
    cases s with
    | index i => cases child
    | key k =>
      have member := OrderedMap.find_eq_some.mp (show (w.maps.getD m .empty).find k = some d from child)
      have own := filled.holding.child _ found (.inr ordinary) child'
      obtain ⟨a, b, related⟩ := filled.related fine.1 member own
      exact ⟨n, a, b, related⟩

/-- What the encoder made shows what can be read back of the Dart value. -/
theorem encoded_bisimulation (prototypes : Prototypes w root chain) :
    ValueGraph.Bisimulation LeafCode (sentKey interned) (shownGraph w) (jsGraph readLength h)
      (fun d v => (∃ n lo hi, Encoded interned w root h n d v lo hi) ∧ Fine interned w chain d) where
  views := by
    rintro d v ⟨⟨n, lo, hi, encoded⟩, fine⟩
    cases d with
    | list l =>
      cases n with
      | zero => exact encoded.elim
      | succ n =>
        obtain ⟨o, obj, rfl, array, found, -, -, filled⟩ := encoded
        rw [jsGraph_array _ array found]
        change List.length _ = List.length _
        rw [List.length_map, List.length_range, filled.readLength]
    | map m => exact encoded.matches_map prototypes (fine [] _ rfl)
    | _ => exact encoded.matches_leaf rfl
  children := by
    rintro d v s m m' ⟨⟨n, lo, hi, encoded⟩, fine⟩ child child'
    refine ⟨?_, fine.child child⟩
    cases d with
    | list l =>
      cases n with
      | zero => exact encoded.elim
      | succ n =>
        obtain ⟨o, obj, rfl, array, found, -, -, filled⟩ := encoded
        cases s with
        | key k => cases child
        | index i =>
          change (if _ then _ else _)[i]? = some m at child
          split at child
          · rename_i short
            have own := filled.holding.child _ found (.inl ⟨array, fun j inside =>
              (filled.element array found (inside.trans_le (readLength_le _))).2⟩) child'
            obtain ⟨a, b, related⟩ := filled.related (by omega) child own
            exact ⟨n, a, b, related⟩
          · cases child
    | map mp => exact encoded.child_map (fine [] _ rfl) child child'
    | _ => cases child

/-- What a step finds in what was made of `d` was made of a child of `d`. -/
theorem Encoded.source (short : ∀ n, len n ≤ n.toNat)
    (encoded : Encoded interned w root h (n+1) d v lo hi) {s : Step PropKey} {x : JSValue}
    (child : (jsGraph len h v).child s = some x) :
    ∃ t d' a b, (dartGraph w d).child t = some d' ∧ Encoded interned w root h n d' x a b ∧
      s = codeStep interned t := by
  cases d with
  | list l =>
    obtain ⟨o, obj, rfl, array, found, -, -, filled⟩ := encoded
    have own := filled.holding.child len found (.inl ⟨array, fun j inside =>
      (filled.element array found (inside.trans_le (short _))).2⟩) child
    obtain ⟨a, b, each, -⟩ := filled.holding
    obtain ⟨d', x', ⟨j, -, same, at_j⟩, isData, related, -⟩ := each _ _ own
    cases isData
    refine ⟨.index j, d', _, _, at_j, related, ?_⟩
    rw [jsGraph_array len array found] at child
    cases s with
    | key k => cases child
    | index i => exact congrArg Step.index (PropKey.index_inj.mp same)
  | map m =>
    obtain ⟨o, obj, rfl, ordinary, found, -, -, filled⟩ := encoded
    have own := filled.holding.child len found (.inr ordinary) child
    obtain ⟨a, b, each, -⟩ := filled.holding
    obtain ⟨d', x', ⟨key, member, same⟩, isData, related, -⟩ := each _ _ own
    cases isData
    refine ⟨.key key, d', _, _, OrderedMap.find_eq_some.mpr member, related, ?_⟩
    rw [jsGraph_ordinary len ordinary found] at child
    cases s with
    | index i => cases child
    | key k => exact congrArg Step.key same
  | function f =>
    obtain ⟨o, rfl, function, -⟩ := encoded
    simp only [jsGraph, function] at child
    cases child
  | _ =>
    rw [jsGraph_leaf (encoded.1 ▸ leafValue_ne_object _)] at child
    cases child

theorem Encoded.follow_source (short : ∀ n, len n ≤ n.toNat)
    (encoded : Encoded interned w root h n d v lo hi) {path : List (Step PropKey)} {x : JSValue}
    (leads : (jsGraph len h).follow v path = some x) :
    ∃ path' d' n a b, (dartGraph w).follow d path' = some d' ∧
      Encoded interned w root h n d' x a b ∧ path = path'.map (codeStep interned) := by
  induction path generalizing n d v lo hi with
  | nil =>
    cases leads
    exact ⟨[], d, n, lo, hi, rfl, encoded, rfl⟩
  | cons s path ih =>
    obtain ⟨c, child, rest⟩ := ValueGraph.follow_cons_some.mp leads
    cases n with
    | zero => exact encoded.elim
    | succ n =>
      obtain ⟨t, d', a, b, child', made, same⟩ := encoded.source short child
      obtain ⟨path', d'', k, a', b', leads', made', sames⟩ := ih made rest
      refine ⟨t :: path', d'', k, a', b', ValueGraph.follow_cons_some.mpr ⟨d', child', leads'⟩,
        made', ?_⟩
      rw [List.map_cons, same, sames]

theorem Encoded.texts {ok : Units → Prop} (short : ∀ n, len n ≤ n.toNat)
    (encoded : Encoded interned w root h n d v lo hi)
    (strings : ∀ path s, (dartGraph w).follow d path = some (.string s) → ok (sent s))
    (keys : ∀ path m, (dartGraph w).follow d path = some (.map m) →
      ∀ k ∈ (w.maps.getD m .empty).keys, ok (atomName interned (toUtf8 (sent k.toString)))) :
    Texts ok len h v := by
  intro path x leads
  obtain ⟨path', d', k, a, b, leads', made, -⟩ := encoded.follow_source short leads
  exact made.textNode (fun s same => strings path' s (same ▸ leads'))
    fun m same => keys path' m (same ▸ leads')

theorem Encoded.clean (short : ∀ n, len n ≤ n.toNat)
    (encoded : Encoded interned w root h n d v lo hi) : Texts Clean len h v :=
  encoded.texts short (fun _ s _ => clean_sent s) fun _ _ _ k _ =>
    clean_atomName (clean_sent k.toString) interned

/-- What the encoder writes shows nothing but what was made of parts of the Dart value. -/
theorem traced_encoded (short : ∀ n, len n ≤ n.toNat) :
    ValueGraph.Traced (codeStep interned) (dartGraph w) (jsGraph len h)
      fun d v => ∃ n lo hi, Encoded interned w root h n d v lo hi := by
  refine ⟨?_⟩
  rintro d v s x ⟨n, lo, hi, encoded⟩ child
  cases n with
  | zero => exact encoded.elim
  | succ n =>
    obtain ⟨t, d', a, b, child', made, same⟩ := encoded.source short child
    exact ⟨t, d', child', same, n, a, b, made⟩

/-- Short lists become short arrays. -/
theorem Encoded.arraysBelow (encoded : Encoded interned w root h n d v lo hi) {bound : Nat}
    (lists : ListsBelow bound w d) : ArraysBelow bound h v := by
  intro path o obj leads array found
  obtain ⟨path', d', k, a, b, leads', made, -⟩ := encoded.follow_source (fun _ => le_rfl) leads
  cases k with
  | zero => exact made.elim
  | succ k =>
    cases d' with
    | list l =>
      obtain ⟨o', obj', same, -, found', -, -, filled⟩ := made
      cases same
      cases Option.some.inj (found.symm.trans found')
      rw [filled.length]
      exact (Nat.min_le_left _ _).trans_lt (lists path' l leads')
    | map m =>
      obtain ⟨o', obj', same, ordinary, -⟩ := made
      cases same
      rw [array] at ordinary
      cases ordinary
    | function f =>
      obtain ⟨o', same, function, -⟩ := made
      cases same
      rw [array] at function
      cases function
    | _ => exact absurd made.1.symm (leafValue_ne_object _ o)

end

end FlutterQuickjs.Conversion
