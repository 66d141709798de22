import FlutterQuickjs.Conversion.Encoded
import FlutterQuickjs.Conversion.Decode

namespace FlutterQuickjs.Conversion

open Engine Binding
open Effect

/-- The property that a step of a path reads. -/
def stepKey : Step PropKey → PropKey
  | .index i => .index i
  | .key k => k

section

variable {rel : DartVal → JSValue → Nat → Nat → Prop} {source : PropKey → DartVal → Prop}
  {len : UInt32 → Nat} {w : World} {root o : ObjRef} {obj : JSObj} {h : Heap} {n lo hi : Nat}
  {d : DartVal} {v : JSValue} {interned : CString → Bool}

theorem leafValue_ne_object (d : DartVal) (o : ObjRef) : leafValue d ≠ .object o := by
  cases d with
  | int n =>
    simp only [leafValue, JSValue.newInt64]
    split <;> simp
  | double x =>
    simp only [leafValue, JSValue.newFloat64]
    split
    · split <;> simp
    · simp
  | _ => simp [leafValue]

theorem jsGraph_leaf (leaf : ∀ o, v ≠ .object o) : jsGraph len h v = .leaf v := by
  cases v with
  | object o => exact absurd rfl (leaf o)
  | _ => rfl

theorem element_eq_of_find {i : Nat} {x : JSValue} (array : o.kind = .array)
    (found : h.find o = some obj)
    (own : obj.properties.find (.index i) = some (.data x true true true)) :
    h.get o (.index i) = .value x ∧ element h o i = x := by
  rw [← JSObj.own_index o] at own
  have read := get_own (by simp [array]) found own
  rw [element, read]
  exact ⟨rfl, rfl⟩

theorem ArrayHolds.element {elements : List DartVal} {i : Nat}
    (filled : ArrayHolds rel elements i o obj hi) (array : o.kind = .array)
    (found : h.find o = some obj) {j : Nat} (inside : j < obj.length.toNat) :
    h.get o (.index j) ≠ .code ∧
      obj.properties.find (.index j) = some (.data (element h o j) true true true) := by
  obtain ⟨p, own⟩ := Option.isSome_iff_exists.mp (filled.dense j inside)
  obtain ⟨x, rfl⟩ := filled.holding.allData _ p own
  obtain ⟨read, rfl⟩ := element_eq_of_find array found own
  exact ⟨by simp [read], own⟩

theorem AllData.mem_enumerableKeys (data : obj.AllData) (k : PropKey) :
    k ∈ obj.enumerableKeys ↔ k ∈ obj.properties.keys := by
  rw [JSObj.mem_enumerableKeys, ← OrderedMap.find_isSome, Option.isSome_iff_exists]
  constructor
  · rintro ⟨p, found, -⟩
    exact ⟨p, found⟩
  · rintro ⟨p, found⟩
    obtain ⟨x, rfl⟩ := data k p found
    exact ⟨_, found, rfl⟩

/-- What a step finds in an object made by the encoder is the value of a property. -/
theorem Holding.child (len : UInt32 → Nat) (holding : Holding rel source o obj hi) (found : h.find o = some obj)
    (shown : o.kind = .array ∧ (∀ j < len obj.length,
        obj.properties.find (.index j) = some (.data (element h o j) true true true)) ∨
      o.kind = .ordinary) {s : Step PropKey} {m : JSValue}
    (child : (jsGraph len h (.object o)).child s = some m) :
    obj.properties.find (stepKey s) = some (.data m true true true) := by
  rcases shown with ⟨array, own⟩ | ordinary
  · rw [jsGraph_array len array found] at child
    cases s with
    | key k => cases child
    | index i =>
      obtain ⟨j, at_i, rfl⟩ : ∃ j, (List.range (len obj.length))[i]? = some j ∧
          Conversion.element h o j = m := by
        simpa [View.child] using child
      obtain ⟨inside, same⟩ := List.getElem?_eq_some_iff.mp at_i
      obtain rfl : i = j := by simpa using same
      exact own i (by simpa using inside)
  · rw [jsGraph_ordinary len ordinary found] at child
    cases s with
    | index i => cases child
    | key k =>
      obtain ⟨member, rfl⟩ := find_ownRecord.mp child
      obtain ⟨p, own, -⟩ := JSObj.mem_enumerableKeys.mp member
      obtain ⟨x, rfl⟩ := holding.allData k p own
      simp [stepKey, dataValue, own]

/-- What the encoder made is a leaf, or a new container whose children it made afterwards, each
in a range of its own. -/
theorem Encoded.view (short : ∀ n, len n ≤ n.toNat) (encoded : Encoded interned w root h (n+1) d v lo hi) :
    jsGraph len h v = .leaf v ∨ ∃ o, v = .object o ∧ (jsGraph len h v).id? = some o ∧
      lo ≤ o.serial ∧ o.serial < hi ∧ ∃ a b : PropKey → Nat,
        (∀ s m, (jsGraph len h v).child s = some m → ∃ d', Encoded interned w root h n d' m (a (stepKey s))
          (b (stepKey s)) ∧ o.serial < a (stepKey s) ∧ b (stepKey s) ≤ hi) ∧
        ∀ s s' m m', (jsGraph len h v).child s = some m → (jsGraph len h v).child s' = some m' →
          s ≠ s' → b (stepKey s) ≤ a (stepKey s') ∨ b (stepKey s') ≤ a (stepKey s) := by
  cases d with
  | list l =>
    obtain ⟨o, obj, rfl, array, found, first, last, filled⟩ := encoded
    have own : ∀ j < len obj.length,
        obj.properties.find (.index j) = some (.data (element h o j) true true true) :=
      fun j inside => (filled.element array found (inside.trans_le (short _))).2
    have read := fun s m => filled.holding.child len (s := s) (m := m) found
      (.inl ⟨array, own⟩)
    obtain ⟨a, b, each, apart⟩ := filled.holding
    refine .inr ⟨o, rfl, by rw [jsGraph_array len array found]; rfl, first, last, a, b, ?_, ?_⟩
    · intro s m child
      obtain ⟨d', x, -, same, related, after, before⟩ := each _ _ (read s m child)
      cases same
      exact ⟨d', related, after, before⟩
    · intro s s' m m' child child' different
      refine apart _ _ (fun same => different ?_) (by rw [read s m child]; rfl)
        (by rw [read s' m' child']; rfl)
      rw [jsGraph_array len array found] at child child'
      cases s with
      | key k => cases child
      | index i =>
        cases s' with
        | key k => cases child'
        | index i' => rw [PropKey.index_inj.mp same]
  | map m =>
    obtain ⟨o, obj, rfl, ordinary, found, first, last, filled⟩ := encoded
    have read := fun s m => filled.holding.child len (s := s) (m := m) found
      (.inr ordinary)
    obtain ⟨a, b, each, apart⟩ := filled.holding
    refine .inr ⟨o, rfl, by rw [jsGraph_ordinary len ordinary found]; rfl, first, last, a, b, ?_, ?_⟩
    · intro s m child
      obtain ⟨d', x, -, same, related, after, before⟩ := each _ _ (read s m child)
      cases same
      exact ⟨d', related, after, before⟩
    · intro s s' m m' child child' different
      refine apart _ _ (fun same => different ?_) (by rw [read s m child]; rfl)
        (by rw [read s' m' child']; rfl)
      rw [jsGraph_ordinary len ordinary found] at child child'
      cases s with
      | index i => cases child
      | key k =>
        cases s' with
        | index i => cases child'
        | key k' => exact congrArg Step.key same
  | function f =>
    obtain ⟨o, rfl, function, -⟩ := encoded
    exact .inl (by simp only [jsGraph, function])
  | _ =>
    refine .inl (jsGraph_leaf fun o => ?_)
    rw [encoded.1]
    exact leafValue_ne_object _ o

theorem Encoded.span (short : ∀ n, len n ≤ n.toNat) (encoded : Encoded interned w root h n d v lo hi)
    {path : List (Step PropKey)} {m : JSValue} {i : ObjRef}
    (leads : (jsGraph len h).follow v path = some m) (isId : (jsGraph len h m).id? = some i) :
    lo ≤ i.serial ∧ i.serial < hi := by
  induction path generalizing n d v lo hi with
  | nil =>
    cases leads
    cases n with
    | zero => exact encoded.elim
    | succ n =>
      rcases encoded.view short with leaf | ⟨o, rfl, same, first, last, -⟩
      · rw [leaf] at isId
        cases isId
      · cases same.symm.trans isId
        exact ⟨first, last⟩
  | cons s path ih =>
    obtain ⟨c, child, rest⟩ := ValueGraph.follow_cons_some.mp leads
    cases n with
    | zero => exact encoded.elim
    | succ n =>
      rcases encoded.view short with leaf | ⟨o, rfl, -, first, -, a, b, each, -⟩
      · rw [leaf] at child
        cases child
      · obtain ⟨d', made, after, before⟩ := each s c child
        have inner := ih made rest
        omega

/-- The encoder's output is a tree. -/
theorem Encoded.unshared (short : ∀ n, len n ≤ n.toNat) (encoded : Encoded interned w root h n d v lo hi) :
    (jsGraph len h).Unshared v := by
  intro p
  induction p generalizing n d v lo hi with
  | nil =>
    intro q m m' i leads leads' isId isId'
    cases q with
    | nil => rfl
    | cons s q =>
      exfalso
      cases leads
      obtain ⟨c, child, rest⟩ := ValueGraph.follow_cons_some.mp leads'
      cases n with
      | zero => exact encoded.elim
      | succ n =>
        rcases encoded.view short with leaf | ⟨o, rfl, same, -, -, a, b, each, -⟩
        · rw [leaf] at child
          cases child
        · obtain ⟨d', made, after, -⟩ := each s c child
          cases same.symm.trans isId
          have inner := made.span short rest isId'
          omega
  | cons s p ih =>
    intro q m m' i leads leads' isId isId'
    obtain ⟨c, child, rest⟩ := ValueGraph.follow_cons_some.mp leads
    cases n with
    | zero => exact encoded.elim
    | succ n =>
      rcases encoded.view short with leaf | ⟨o, rfl, same, -, -, a, b, each, apart⟩
      · rw [leaf] at child
        cases child
      · obtain ⟨d', made, after, -⟩ := each s c child
        have inner := made.span short rest isId
        cases q with
        | nil =>
          cases leads'
          cases same.symm.trans isId'
          omega
        | cons s' q =>
          obtain ⟨c', child', rest'⟩ := ValueGraph.follow_cons_some.mp leads'
          obtain ⟨d'', made', -, -⟩ := each s' c' child'
          have inner' := made'.span short rest' isId'
          by_cases different : s = s'
          · subst different
            cases child.symm.trans child'
            rw [ih made q m m' i rest rest' isId isId']
          · have := apart s s' c c' child child' different
            omega

theorem Encoded.acyclic (short : ∀ n, len n ≤ n.toNat) (encoded : Encoded interned w root h n d v lo hi) :
    (jsGraph len h).Acyclic v := by
  induction n generalizing d v lo hi with
  | zero => exact encoded.elim
  | succ n ih =>
    refine Acc.intro _ fun m child => ?_
    obtain ⟨s, child⟩ := child
    rcases encoded.view short with leaf | ⟨o, rfl, -, -, -, a, b, each, -⟩
    · rw [leaf] at child
      cases child
    · obtain ⟨d', made, -⟩ := each s m child
      exact ih made

theorem leafValue_cases (isLeaf : v = leafValue d) : (∃ s, v = .string (sent s)) ∨
    v ≠ .exception ∧ v ≠ .null ∧ (∀ s, v ≠ .string s) ∧ (∀ s, v ≠ .symbol s) ∧
      ∀ n, v ≠ .bigInt n := by
  subst isLeaf
  cases d with
  | string s => exact .inl ⟨s, rfl⟩
  | int n =>
    simp only [leafValue, JSValue.newInt64]
    split <;> simp
  | double x =>
    simp only [leafValue, JSValue.newFloat64]
    split
    · split <;> simp
    · simp
  | _ => simp [leafValue]

theorem dataNode_leaf (leaf : ∀ o, v ≠ .object o) (fine : v ≠ .exception) : DataNode len h v := by
  cases v with
  | object o => exact absurd rfl (leaf o)
  | exception => exact absurd rfl fine
  | _ => trivial

theorem Encoded.dataNode (short : ∀ n, len n ≤ n.toNat) (encoded : Encoded interned w root h n d v lo hi) :
    DataNode len h v := by
  cases n with
  | zero => exact encoded.elim
  | succ n =>
    cases d with
    | list l =>
      obtain ⟨o, obj, rfl, array, found, -, -, filled⟩ := encoded
      simp only [DataNode, array]
      exact ⟨obj, found, fun i inside =>
        (filled.element array found (inside.trans_le (short _))).1⟩
    | map m =>
      obtain ⟨o, obj, rfl, ordinary, found, -, -, filled⟩ := encoded
      simp only [DataNode, ordinary]
      refine ⟨obj, found, fun k p own _ => ?_⟩
      obtain ⟨a, b, each, -⟩ := filled.holding
      obtain ⟨d, x, ⟨key, -, rfl⟩, rfl, -⟩ := each k p own
      exact ⟨⟨_, rfl⟩, x, true, true, true, rfl⟩
    | function f =>
      obtain ⟨o, rfl, function, live, -⟩ := encoded
      simp only [DataNode, function]
      exact Heap.live_iff.mpr live
    | _ =>
      refine dataNode_leaf (encoded.1 ▸ leafValue_ne_object _) ?_
      rcases leafValue_cases encoded.1 with ⟨s, rfl⟩ | other
      · simp
      · exact other.1

/-- The strings that the encoder writes are the ones it sends. -/
theorem Encoded.textNode {ok : Units → Prop} (encoded : Encoded interned w root h n d v lo hi)
    (strings : ∀ s, d = .string s → ok (sent s))
    (keys : ∀ m, d = .map m → ∀ k ∈ (w.maps.getD m .empty).keys,
      ok (atomName interned (toUtf8 (sent k.toString)))) : TextNode ok len h v := by
  cases n with
  | zero => exact encoded.elim
  | succ n =>
    cases d with
    | list l =>
      obtain ⟨o, obj, rfl, array, found, -⟩ := encoded
      simp only [TextNode, jsGraph_array len array found]
    | map m =>
      obtain ⟨o, obj, rfl, ordinary, found, -, -, filled⟩ := encoded
      simp only [TextNode, jsGraph_ordinary len ordinary found, keys_ownRecord]
      intro s member
      obtain ⟨p, own, -⟩ := JSObj.mem_enumerableKeys.mp member
      obtain ⟨a, b, each, -⟩ := filled.holding
      obtain ⟨d, x, ⟨key, inside, same⟩, -⟩ := each _ p own
      cases same
      exact keys m rfl key (List.mem_map_of_mem inside)
    | function f =>
      obtain ⟨o, rfl, function, -⟩ := encoded
      simp only [TextNode, jsGraph, function]
    | string s =>
      rw [encoded.1]
      exact strings s rfl
    | _ =>
      rw [TextNode, jsGraph_leaf (encoded.1 ▸ leafValue_ne_object _)]
      rcases leafValue_cases encoded.1 with ⟨s, rfl⟩ | other
      · have same := encoded.1
        simp only [leafValue, JSValue.newInt64, JSValue.newFloat64] at same
        repeat' split at same
        all_goals cases same
      · split
        · rename_i s string
          exact absurd (View.leaf.inj string) (other.2.2.1 s)
        · rename_i record
          cases record
        · trivial

theorem Encoded.child (short : ∀ n, len n ≤ n.toNat) (encoded : Encoded interned w root h n d v lo hi)
    {s : Step PropKey} {m : JSValue} (child : (jsGraph len h v).child s = some m) :
    ∃ n d lo hi, Encoded interned w root h n d m lo hi := by
  cases n with
  | zero => exact encoded.elim
  | succ n =>
    rcases encoded.view short with leaf | ⟨o, rfl, -, -, -, a, b, each, -⟩
    · rw [leaf] at child
      cases child
    · obtain ⟨d', made, -⟩ := each s m child
      exact ⟨n, d', _, _, made⟩

theorem Encoded.follow (short : ∀ n, len n ≤ n.toNat) (encoded : Encoded interned w root h n d v lo hi)
    {path : List (Step PropKey)} {m : JSValue} (leads : (jsGraph len h).follow v path = some m) :
    ∃ n d lo hi, Encoded interned w root h n d m lo hi := by
  refine ValueGraph.follow_closed (P := fun m => ∃ n d lo hi, Encoded interned w root h n d m lo hi) ?_
    ⟨n, d, lo, hi, encoded⟩ leads
  rintro v s m ⟨n, d, lo, hi, encoded⟩ child
  exact encoded.child short child

theorem Encoded.dataOnly (short : ∀ n, len n ≤ n.toNat) (encoded : Encoded interned w root h n d v lo hi) :
    DataOnly len h v := by
  intro path m leads
  obtain ⟨n, d, lo, hi, made⟩ := encoded.follow short leads
  exact made.dataNode short

end

end FlutterQuickjs.Conversion
