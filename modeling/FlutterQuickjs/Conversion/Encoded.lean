import FlutterQuickjs.Conversion.Graphs
import FlutterQuickjs.Engine.Assign

namespace FlutterQuickjs.Conversion

open Engine Binding
open Effect

/-- How the encoder writes a value that is no container and no function. -/
def leafValue : DartVal → JSValue
  | .bool b => .bool b
  | .int n => .newInt64 n
  | .double d => .newFloat64 d
  | .string s => .string (sent s)
  | _ => .undefined

/-- The property that a key of a map becomes, where the 8-bit atoms `interned` are found. -/
def sentKey (interned : CString → Bool) (k : MapKey) : PropKey :=
  .string (atomName interned (toUtf8 (sent k.toString)))

/-- No other name has the bytes of an 8-bit atom. -/
def noneInterned : CString → Bool := fun _ => false

/-- Every name has the bytes of an 8-bit atom. -/
def allInterned : CString → Bool := fun _ => true

theorem sentKey_noneInterned (k : MapKey) : sentKey noneInterned k = .string (sent k.toString) := by
  rw [sentKey, atomName, noneInterned, Bool.and_false, if_neg Bool.false_ne_true,
    fromUtf8_toUtf8 (clean_sent _).1]

/-- The properties of an object under construction: each holds the image of one of its sources,
and the images were made after the object and one after the other. -/
def Holding (rel : DartVal → JSValue → Nat → Nat → Prop) (source : PropKey → DartVal → Prop)
    (o : ObjRef) (obj : JSObj) (hi : Nat) : Prop :=
  ∃ a b : PropKey → Nat,
    (∀ k p, obj.properties.find k = some p → ∃ d x, source k d ∧ p = .data x true true true ∧
      rel d x (a k) (b k) ∧ o.serial < a k ∧ b k ≤ hi) ∧
    ∀ k k', k ≠ k' → (obj.properties.find k).isSome → (obj.properties.find k').isSome →
      b k ≤ a k' ∨ b k' ≤ a k

/-- The array after `i` rounds. -/
structure ArrayHolds (rel : DartVal → JSValue → Nat → Nat → Prop) (elements : List DartVal)
    (i : Nat) (o : ObjRef) (obj : JSObj) (hi : Nat) : Prop where
  holding : Holding rel (fun k d => ∃ j < i, k = .index (j % 2^32) ∧ elements[j]? = some d) o obj hi
  length : obj.length.toNat = min i (2^32 - 1)
  dense : ∀ j < obj.length.toNat, (obj.properties.find (.index j)).isSome

/-- The prototypes of new objects, all of them older. -/
structure Prototypes (w : World) (root : ObjRef) (chain : List (ObjRef × JSObj)) : Prop where
  chained : w.heap.Chain root chain
  older : ∀ e ∈ chain, e.1.serial < w.serial

/-- Every key so far became a property, or one of them never will. -/
def Progress (interned : CString → Bool) (root : ObjRef) (chain : List (ObjRef × JSObj)) (keys : List MapKey)
    (obj : JSObj) : Prop :=
  (obj.proto = some root ∧ (∀ k ∈ keys, Heap.Inheritable (sentKey interned k) chain) ∧
    obj.properties.keys = keys.map (sentKey interned)) ∨
  ∃ k ∈ keys, ¬Heap.Inheritable (sentKey interned k) chain ∧ sentKey interned k ∉ obj.properties.keys

/-- The object after the rounds for `entries`, which come from a map with the keys `all`. -/
structure RecordHolds (interned : CString → Bool) (rel : DartVal → JSValue → Nat → Nat → Prop)
    (w : World) (root : ObjRef) (all : List MapKey) (entries : List (MapKey × DartVal))
    (o : ObjRef) (obj : JSObj) (hi : Nat) : Prop where
  holding : Holding rel (fun k d => ∃ key, (key,d) ∈ entries ∧ k = sentKey interned key) o obj hi
  progress : ∀ chain, Prototypes w root chain → (all.map (sentKey interned)).Nodup →
    Progress interned root chain (entries.map Prod.fst) obj

/-- In the heap `h` the value `v` is what the encoder makes of `d`, whose containers are those of
`w`, and its objects have serial numbers from `lo` up to `hi`. -/
def Encoded (interned : CString → Bool) (w : World) (root : ObjRef) (h : Heap) :
    Nat → DartVal → JSValue → Nat → Nat → Prop
  | 0, _, _, _, _ => False
  | n + 1, d, v, lo, hi =>
    match d with
    | .list l => ∃ o obj, v = .object o ∧ o.kind = .array ∧ h.find o = some obj ∧
        lo ≤ o.serial ∧ o.serial < hi ∧
        ArrayHolds (Encoded interned w root h n) (w.lists.getD l []) (w.lists.getD l []).length o obj hi
    | .map m => ∃ o obj, v = .object o ∧ o.kind = .ordinary ∧ h.find o = some obj ∧
        lo ≤ o.serial ∧ o.serial < hi ∧
        RecordHolds interned (Encoded interned w root h n) w root (w.maps.getD m .empty).keys
          (w.maps.getD m .empty).entries o obj hi
    | .function _ => ∃ o, v = .object o ∧ o.kind = .function ∧ (h.find o).isSome ∧
        lo ≤ o.serial ∧ o.serial < hi
    | d => v = leafValue d ∧ lo ≤ hi

section

variable {rel rel' : DartVal → JSValue → Nat → Nat → Prop} {source source' : PropKey → DartVal → Prop}
  {o : ObjRef} {obj : JSObj} {hi hi' lo : Nat} {w : World} {root : ObjRef} {h h' : Heap} {n : Nat}
  {d : DartVal} {v : JSValue} {k : PropKey} {interned : CString → Bool}

theorem Holding.empty (o : ObjRef) (hi : Nat) (none : obj.properties = .empty) :
    Holding rel source o obj hi := by
  refine ⟨fun _ => 0, fun _ => 0, fun k p found => ?_, fun k k' _ present => ?_⟩
  · rw [none] at found
    cases found
  · rw [none] at present
    cases present

theorem Holding.mono (holding : Holding rel source o obj hi)
    (changes : ∀ d x a b, o.serial < a → b ≤ hi → rel d x a b → rel' d x a b)
    (sources : ∀ k d, source k d → source' k d) (later : hi ≤ hi') :
    Holding rel' source' o obj hi' := by
  obtain ⟨a, b, each, apart⟩ := holding
  refine ⟨a, b, fun k p found => ?_, apart⟩
  obtain ⟨d, x, from_d, rfl, related, after, before⟩ := each k p found
  exact ⟨d, x, sources k d from_d, rfl, changes d x _ _ after before related, after,
    before.trans later⟩

/-- One more property, whose value was made last. -/
theorem Holding.assign (holding : Holding rel source o obj hi) {x : JSValue}
    (from_d : source k d) (related : rel d x lo hi') (after : o.serial < lo) (last : hi ≤ lo)
    (range : lo ≤ hi') : Holding rel source o (obj.assign k x) hi' := by
  obtain ⟨a, b, each, apart⟩ := holding
  refine ⟨Function.update a k lo, Function.update b k hi', fun k' p found => ?_,
    fun k₁ k₂ different present₁ present₂ => ?_⟩
  · rw [JSObj.assign, OrderedMap.find_insert] at found
    by_cases same : k' = k
    · subst same
      rw [if_pos rfl] at found
      cases found
      exact ⟨d, x, from_d, rfl, by simpa using related, by simpa using after, by simp⟩
    · rw [if_neg same] at found
      obtain ⟨d', x', from_d', rfl, related', after', before⟩ := each k' p found
      refine ⟨d', x', from_d', rfl, by simpa [same] using related', by simpa [same] using after', ?_⟩
      simpa [same] using before.trans (last.trans range)
  · have old : ∀ k', k' ≠ k → ((obj.assign k x).properties.find k').isSome →
        (obj.properties.find k').isSome ∧ b k' ≤ lo := by
      intro k' other present
      rw [JSObj.assign, OrderedMap.find_insert, if_neg other] at present
      obtain ⟨p, found⟩ := Option.isSome_iff_exists.mp present
      obtain ⟨_, _, _, _, _, _, before⟩ := each k' p found
      exact ⟨present, before.trans last⟩
    by_cases same₁ : k₁ = k
    · subst same₁
      have other := Ne.symm different
      simpa [other] using Or.inr (old k₂ other present₂).2
    · by_cases same₂ : k₂ = k
      · subst same₂
        simpa [same₁] using Or.inl (old k₁ same₁ present₁).2
      · simpa [same₁, same₂] using
          apart k₁ k₂ different (old k₁ same₁ present₁).1 (old k₂ same₂ present₂).1

theorem Holding.congr {obj' : JSObj} (holding : Holding rel source o obj hi)
    (same : obj'.properties = obj.properties) : Holding rel source o obj' hi := by
  unfold Holding
  rw [same]
  exact holding

theorem Holding.allData (holding : Holding rel source o obj hi) : obj.AllData := by
  obtain ⟨a, b, each, -⟩ := holding
  intro k p found
  obtain ⟨d, x, -, same, -⟩ := each k p found
  exact ⟨x, same⟩

/-- What was encoded stays encoded while its own objects stay as they are. -/
theorem Encoded.frame (encoded : Encoded interned w root h n d v lo hi)
    (same : ∀ o, lo ≤ o.serial → o.serial < hi → h'.find o = h.find o) :
    Encoded interned w root h' n d v lo hi := by
  induction n generalizing d v lo hi with
  | zero => exact encoded
  | succ n ih =>
    have inner : ∀ (o : ObjRef), lo ≤ o.serial → ∀ d x a b, o.serial < a → b ≤ hi →
        Encoded interned w root h n d x a b → Encoded interned w root h' n d x a b := by
      intro o first d x a b after before encoded
      exact ih encoded fun o' low high => same o' (by omega) (by omega)
    cases d with
    | list l =>
      obtain ⟨o, obj, rfl, array, found, first, last, filled⟩ := encoded
      refine ⟨o, obj, rfl, array, (same o first last).trans found, first, last, ?_⟩
      exact ⟨filled.holding.mono (inner o first) (fun _ _ => id) le_rfl, filled.length, filled.dense⟩
    | map m =>
      obtain ⟨o, obj, rfl, ordinary, found, first, last, filled⟩ := encoded
      refine ⟨o, obj, rfl, ordinary, (same o first last).trans found, first, last, ?_⟩
      exact ⟨filled.holding.mono (inner o first) (fun _ _ => id) le_rfl, filled.progress⟩
    | function f =>
      obtain ⟨o, rfl, function, live, first, last⟩ := encoded
      exact ⟨o, rfl, function, by rw [same o first last]; exact live, first, last⟩
    | _ => exact encoded

end

end FlutterQuickjs.Conversion
