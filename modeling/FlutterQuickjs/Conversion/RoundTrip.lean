import FlutterQuickjs.Conversion.ToJs
import FlutterQuickjs.Conversion.Mirror
import FlutterQuickjs.Conversion.Isomorphism

namespace FlutterQuickjs.Conversion

open Engine Binding ValueConverter
open Effect

/-- The mathematical value of a finite number. -/
def number : DartVal → Option Dyadic
  | .int n => some (Dyadic.ofInt n.toInt)
  | .double x => x.value
  | _ => none

/-- Dart's `==` on leaves, which compares numbers by value. -/
def SameLeaf (d d' : DartVal) : Prop := d = d' ∨ ∃ x, number d = some x ∧ number d' = some x

/-- Deep equality of a value before and a value after. -/
def DeepEqual (w : World) (d : DartVal) (w' : World) (d' : DartVal) : Prop :=
  ValueGraph.Alike SameLeaf id (dartGraph w) (dartGraph w') d d'

def protoName : Units := units "__proto__"

/-- Null, booleans, exact integers, finite doubles, clean strings, lists, and maps whose keys
are clean strings other than `__proto__`. -/
def SendableNode (w : World) : DartVal → Prop
  | .null => True
  | .bool _ => True
  | .int n => n.toInt.natAbs ≤ 2^53
  | .double x => x.value.isSome
  | .string s => Clean s
  | .list _ => True
  | .map m => ∀ k ∈ (w.maps.getD m .empty).keys, ∃ s, k = .string s ∧ Clean s ∧ s ≠ protoName
  | _ => False

/-- An acyclic value of such parts. -/
structure Sendable (w : World) (d : DartVal) : Prop where
  acyclic : (dartGraph w).Acyclic d
  nodes : ∀ path m, (dartGraph w).follow d path = some m → SendableNode w m

/-- Short lists, no byte order mark at the head of a string, and keys that the engine takes for
themselves. -/
structure Returnable (w : World) (d : DartVal) : Prop where
  lists : ListsBelow (2^31) w d
  strings : ∀ path s, (dartGraph w).follow d path = some (.string s) → s.head? ≠ some bom
  keys : ∀ path m s, (dartGraph w).follow d path = some (.map m) →
    .string s ∈ (w.maps.getD m .empty).keys → s.head? ≠ some bom ∧ literal (toUtf8 s) = true

/-- `Object.prototype` has no prototype, and its properties are writable data except
`__proto__`. -/
structure InitialPrototype (w : World) (ctx : Ctx) (rootObj : JSObj) : Prop where
  prototypes : Prototypes w (w.realm ctx).objectProto [((w.realm ctx).objectProto,rootObj)]
  plain : ∀ callable, (w.realm ctx).objectProto.kind ≠ .exotic callable
  data : ∀ k p, rootObj.own (w.realm ctx).objectProto k = some p → k = .string protoName ∨
    ∃ v enumerable configurable, p = .data v true enumerable configurable

/-- Given enough stack both ways, `d` goes to JS and comes back as a value that meets `Q`. -/
def ComesBack [PackageFfi] (rely : World → World → Prop) (ctx : Ctx) (w : World) (d : DartVal)
    (Q : DartVal → World → Prop) : Prop :=
  ∃ n, ∀ fuel, n ≤ fuel → wp env (.plain rely True) (toQuickJSValue fuel ctx d) (fun out w₁ =>
    ∃ p, out = .ok p ∧ ∃ n', ∀ fuel', n' ≤ fuel' → wp env (.plain rely True)
      (toDartValueFromJs (fun jval => toDartValue fuel' jval none) ctx p)
      (fun out w' => ∃ d', out = .ok d' ∧ Q d' w') w₁) w

section

variable {w : World} {chain : List (ObjRef × JSObj)} {rootObj : JSObj} {d : DartVal} {v : JSValue}
  {interned : CString → Bool}

theorem eventually_all {α : Type} (P : Nat → α → Prop) (xs : List α)
    (each : ∀ x ∈ xs, ∃ n, ∀ m, n ≤ m → P m x) : ∃ n, ∀ m, n ≤ m → ∀ x ∈ xs, P m x := by
  induction xs with
  | nil => exact ⟨0, fun _ _ x member => absurd member (by simp)⟩
  | cons x xs ih =>
    obtain ⟨n, first⟩ := each x (by simp)
    obtain ⟨n', rest⟩ := ih fun y member => each y (by simp [member])
    refine ⟨max n n', fun m enough y member => ?_⟩
    rcases List.mem_cons.mp member with rfl | later
    · exact first m (by omega)
    · exact rest m (by omega) y later

/-- An acyclic value fits into enough stack. -/
theorem fits_eventually (acyclic : (dartGraph w).Acyclic d)
    (inheritable : ∀ path m, (dartGraph w).follow d path = some (.map m) →
      ∀ k ∈ (w.maps.getD m .empty).keys, Heap.Inheritable (sentKey interned k) chain) :
    ∃ n, ∀ m, n ≤ m → Fits interned w chain m d := by
  induction acyclic with
  | intro d _ ih =>
    have inner : ∀ s x, (dartGraph w d).child s = some x →
        ∃ n, ∀ m, n ≤ m → Fits interned w chain m x := by
      intro s x child
      exact ih x ⟨s, child⟩ fun path m leads =>
        inheritable (s :: path) m (ValueGraph.follow_cons_some.mpr ⟨x, child, leads⟩)
    cases d with
    | list l =>
      obtain ⟨n, enough⟩ := eventually_all (Fits interned w chain) (w.lists.getD l [])
        fun x member => by
          obtain ⟨i, inside, rfl⟩ := List.getElem_of_mem member
          exact inner (.index i) _ (List.getElem?_eq_getElem inside)
      refine ⟨max n ((w.lists.getD l []).length + 1) + 1, fun m large => ?_⟩
      obtain ⟨m, rfl⟩ : ∃ k, m = k + 1 := ⟨m - 1, by omega⟩
      exact ⟨by omega, enough m (by omega)⟩
    | map mp =>
      obtain ⟨n, enough⟩ := eventually_all (fun m (e : MapKey × DartVal) =>
        Fits interned w chain m e.2) (w.maps.getD mp .empty).entries fun e member =>
          inner (.key e.1) e.2 (OrderedMap.find_eq_some.mpr member)
      refine ⟨n + 1, fun m large => ?_⟩
      obtain ⟨m, rfl⟩ : ∃ k, m = k + 1 := ⟨m - 1, by omega⟩
      exact fun e member => ⟨inheritable [] mp rfl e.1 (List.mem_map_of_mem member),
        enough m (by omega) e member⟩
    | _ =>
      refine ⟨1, fun m large => ?_⟩
      obtain ⟨m, rfl⟩ : ∃ k, m = k + 1 := ⟨m - 1, by omega⟩
      trivial

theorem toInt?_eq_some {x : Double} {n : Int} :
    x.toInt? = some n ↔ ∃ y, x = .finite y ∧ y.val = Dyadic.ofInt n := by
  cases x with
  | finite y =>
    simp only [Double.toInt?, Option.ite_none_right_eq_some, Option.some_inj, Double.finite.injEq,
      exists_eq_left']
    constructor
    · rintro ⟨exact, rfl⟩
      exact exact.symm
    · intro exact
      rw [exact, truncate_ofInt]
      exact ⟨rfl, rfl⟩
  | _ => simp [Double.toInt?]

theorem sentKey_of_clean {s : Units} (clean : Clean s) :
    sentKey noneInterned (.string s) = .string s := by
  rw [sentKey_noneInterned, MapKey.toString, sent_of_clean clean]

/-- A name that the engine takes for itself is sent as it is. -/
theorem sentKey_of_literal {s : Units} (clean : Clean s) (isLiteral : literal (toUtf8 s) = true) :
    sentKey interned (.string s) = .string s := by
  rw [sentKey, MapKey.toString, sent_of_clean clean, atomName_of_literal isLiteral,
    fromUtf8_toUtf8 clean.1]

theorem shown_child {n m : DartVal} {s : Step MapKey}
    (child : (shownGraph w n).child s = some m) : (dartGraph w n).child s = some m := by
  cases n with
  | list l =>
    simp only [shownGraph] at child
    split at child
    · exact child
    · cases s <;> cases child
  | _ => exact child

theorem shown_eq (short : ∀ l, d = .list l → (w.lists.getD l []).length < 2^31) :
    shownGraph w d = dartGraph w d := by
  cases d with
  | list l => rw [shownGraph, if_pos (short l rfl), dartGraph]
  | _ => rfl

theorem Sendable.shown (sendable : Sendable w d) {path : List (Step MapKey)} {m : DartVal}
    (leads : (shownGraph w).follow d path = some m) : SendableNode w m :=
  sendable.nodes path m (ValueGraph.follow_mono (fun _ _ _ => shown_child) leads)

theorem InitialPrototype.inheritable {ctx : Ctx} (initial : InitialPrototype w ctx rootObj)
    {s : Units} (other : s ≠ protoName) :
    Heap.Inheritable (.string s) [((w.realm ctx).objectProto,rootObj)] := by
  refine ⟨initial.plain, ?_⟩
  cases own : rootObj.own (w.realm ctx).objectProto (.string s) with
  | none => trivial
  | some p =>
    rcases initial.data _ p own with same | ⟨x, enumerable, configurable, rfl⟩
    · exact absurd (PropKey.string.inj same) other
    · exact ⟨rfl, .inr trivial⟩

theorem ascii_protoName : ∀ c ∈ protoName, c.toNat < 0x80 := by
  have all : protoName.all (fun c => decide (c.toNat < 0x80)) = true := by decide
  intro c member
  exact of_decide_eq_true (List.all_eq_true.mp all c member)

/-- No key of a sendable value becomes `__proto__`. -/
theorem SendableNode.inheritable {ctx : Ctx} (initial : InitialPrototype w ctx rootObj) {m : Nat}
    (sendable : SendableNode w (.map m)) : ∀ k ∈ (w.maps.getD m .empty).keys,
      Heap.Inheritable (sentKey interned k) [((w.realm ctx).objectProto,rootObj)] := by
  intro k member
  obtain ⟨s, rfl, clean, other⟩ := sendable k member
  rw [sentKey, MapKey.toString, sent_of_clean clean]
  exact initial.inheritable (atomName_ne clean ascii_protoName other interned)

theorem SendableNode.fine {ctx : Ctx} (initial : InitialPrototype w ctx rootObj)
    (sendable : SendableNode w d) :
    FineNode noneInterned w [((w.realm ctx).objectProto,rootObj)] d := by
  cases d with
  | map m =>
    refine ⟨?_, sendable.inheritable initial⟩
    refine List.Nodup.map_on ?_ (w.maps.getD m .empty).nodup
    intro k member k' member' same
    obtain ⟨s, rfl, clean, -⟩ := sendable k member
    obtain ⟨s', rfl, clean', -⟩ := sendable k' member'
    rw [sentKey_of_clean clean, sentKey_of_clean clean'] at same
    rw [PropKey.string.inj same]
  | _ => trivial

theorem Sendable.fits {ctx : Ctx} (sendable : Sendable w d)
    (initial : InitialPrototype w ctx rootObj) (interned : CString → Bool) :
    ∃ n, ∀ m, n ≤ m → Fits interned w [((w.realm ctx).objectProto,rootObj)] m d :=
  fits_eventually sendable.acyclic fun path _ leads =>
    (sendable.nodes path _ leads).inheritable initial

theorem Returnable.predictable (sendable : Sendable w d) (returnable : Returnable w d)
    (finds : CString → PropKey → Prop) (interned : CString → Bool) :
    Predictable finds interned w d := by
  intro path m leads k member
  obtain ⟨s, rfl, clean, -⟩ := sendable.nodes path _ leads k member
  rw [MapKey.toString, sent_of_clean clean]
  exact .inl (returnable.keys path m s leads member).2

end

/-- What comes back as `d'` is the image of what `d` was encoded as. -/
def Returned (interned : CString → Bool) (w : World) (root : ObjRef) (w' : World) (c : Nat)
    (ctx : Ctx) (d d' : DartVal) : Prop :=
  ∃ v, (∃ n lo hi, Encoded interned w root w'.heap n d v lo hi) ∧ Converted w' c ctx v d'

/-- The key that comes back for a key. -/
def keyBack (interned : CString → Bool) (k : MapKey) : MapKey := keyRead (sentKey interned k)

/-- The step that comes back for a step. -/
def stepBack (interned : CString → Bool) (s : Step MapKey) : Step MapKey :=
  (codeStep interned s).map keyRead

namespace Returned

variable {interned : CString → Bool} {w w₂ w' : World} {root : ObjRef} {c : Nat} {ctx : Ctx}
  {d d' : DartVal}

theorem traced (grows : Grows c ctx w₂ w') (empty : ∀ a, cacheAt w₂ c a = none) :
    ValueGraph.Traced (stepBack interned) (dartGraph w) (dartGraph w')
      (Returned interned w root w' c ctx) :=
  (traced_encoded readLength_le).trans (traced_converted grows empty)

/-- A list that comes back whole can be counted by an `int32_t`. -/
theorem list_short {l : Nat} (grows : Grows c ctx w₂ w') (empty : ∀ a, cacheAt w₂ c a = none)
    (returned : Returned interned w root w' c ctx (.list l) d')
    (same : Matches SameLeaf id (dartGraph w (.list l)) (dartGraph w' d')) :
    (w.lists.getD l []).length < 2^31 := by
  obtain ⟨v, ⟨n, lo, hi, encoded⟩, converted⟩ := returned
  cases n with
  | zero => exact encoded.elim
  | succ n =>
    obtain ⟨o, obj, rfl, array, found, -, -, filled⟩ := encoded
    have graph := jsGraph_array readLength array found
    rcases converted.cases grows empty with ⟨leaf, -⟩ | ⟨o', isO, -, -, -, complete⟩
    · rw [graph] at leaf
      cases leaf
    · cases isO
      have views := complete.views (by rw [KeysApart, graph]; trivial)
      rw [graph] at views
      cases view : dartGraph w' d' with
      | leaf x => rw [view] at same; exact same.elim
      | record id entries => rw [view] at same; exact same.elim
      | list id elements =>
        rw [view] at same views
        have whole : (w.lists.getD l []).length = elements.length := same
        have part : ((List.range (readLength obj.length)).map (element w'.heap o)).length =
            elements.length := views
        rw [List.length_map, List.length_range, filled.readLength] at part
        by_contra long
        rw [if_neg long, List.length_nil] at part
        omega

/-- A string that comes back whole has no byte order mark to lose. -/
theorem string_unmarked {s : Units} (clean : Clean s)
    (returned : Returned interned w root w' c ctx (.string s) d')
    (same : Matches SameLeaf id (dartGraph w (.string s)) (dartGraph w' d')) :
    s.head? ≠ some bom := by
  obtain ⟨v, ⟨n, lo, hi, encoded⟩, -, image⟩ := returned
  cases n with
  | zero => exact encoded.elim
  | succ n =>
    obtain rfl : v = .string (sent s) := encoded.1
    rw [sent_of_clean clean] at image
    obtain rfl : d' = .string (dropBom s) := image
    have leaf : SameLeaf (.string s) (.string (dropBom s)) := same
    rcases leaf with equal | ⟨x, isNumber, -⟩
    · have lengths := congrArg List.length (DartVal.string.inj equal)
      exact head?_of_length_dropBom lengths.le
    · cases isNumber

/-- The keys that come back are those that were sent. -/
theorem keys_covered {m : Nat} (grows : Grows c ctx w₂ w') (empty : ∀ a, cacheAt w₂ c a = none)
    (returned : Returned interned w root w' c ctx (.map m) d')
    (same : Matches SameLeaf id (dartGraph w (.map m)) (dartGraph w' d')) :
    ∀ k ∈ (w.maps.getD m .empty).keys, ∃ k' ∈ (w.maps.getD m .empty).keys,
      k = keyBack interned k' :=
  (traced grows empty).keys returned same rfl fun _ => rfl

/-- A step that a key or an index does not come back from is none of a value that comes back. -/
theorem still (grows : Grows c ctx w₂ w') (empty : ∀ a, cacheAt w₂ c a = none)
    (returned : Returned interned w root w' c ctx d d')
    (same : Matches SameLeaf id (dartGraph w d) (dartGraph w' d'))
    (fixed : ∀ m, d = .map m → ∀ k ∈ (w.maps.getD m .empty).keys, keyBack interned k = k)
    {s : Step MapKey} {x : DartVal} (child : (dartGraph w d).child s = some x) :
    stepBack interned s = s := by
  cases d with
  | list l =>
    cases s with
    | key k => cases child
    | index i =>
      have short := list_short grows empty returned same
      have inside := (List.getElem?_eq_some_iff.mp child).1
      exact congrArg Step.index (Nat.mod_eq_of_lt (by omega))
  | map m =>
    cases s with
    | index i => cases child
    | key k =>
      exact congrArg Step.key (fixed m rfl k
        (OrderedMap.find_isSome.mp (Option.isSome_iff_exists.mpr ⟨x, child⟩)))
  | _ => cases child

/-- Where no other atom is found only byte order marks can be lost. -/
theorem keys_unmarked {m : Nat} (grows : Grows c ctx w₂ w') (empty : ∀ a, cacheAt w₂ c a = none)
    (sendable : SendableNode w (.map m))
    (returned : Returned noneInterned w root w' c ctx (.map m) d')
    (same : Matches SameLeaf id (dartGraph w (.map m)) (dartGraph w' d')) :
    ∀ k ∈ (w.maps.getD m .empty).keys, k.toString.head? ≠ some bom := by
  have back : ∀ k ∈ (w.maps.getD m .empty).keys,
      (keyBack noneInterned k).toString = dropBom k.toString := by
    intro k member
    obtain ⟨s, rfl, clean, -⟩ := sendable k member
    rw [keyBack, sentKey_of_clean clean]
    rfl
  intro k member
  have sizes := size_of_covered (fun k => k.toString.length) (w.maps.getD m .empty).nodup
    (keys_covered grows empty returned same) (.inr fun k member => by
      rw [back k member]
      exact length_dropBom_le _) k member
  rw [back k member] at sizes
  exact head?_of_length_dropBom sizes.symm.le

/-- Where every other atom is found a key comes back if the engine takes it for itself. -/
theorem keys_literal {m : Nat} (grows : Grows c ctx w₂ w') (empty : ∀ a, cacheAt w₂ c a = none)
    (sendable : SendableNode w (.map m))
    (unmarked : ∀ k ∈ (w.maps.getD m .empty).keys, k.toString.head? ≠ some bom)
    (returned : Returned allInterned w root w' c ctx (.map m) d')
    (same : Matches SameLeaf id (dartGraph w (.map m)) (dartGraph w' d')) :
    ∀ k ∈ (w.maps.getD m .empty).keys, literal (toUtf8 k.toString) = true := by
  have back : ∀ k ∈ (w.maps.getD m .empty).keys,
      (keyBack allInterned k).toString = atomName allInterned (toUtf8 k.toString) := by
    intro k member
    obtain ⟨s, rfl, clean, -⟩ := sendable k member
    rw [keyBack, sentKey, MapKey.toString, sent_of_clean clean]
    exact dropBom_of_unmarked (head?_atomName ⟨clean, unmarked _ member⟩ _)
  intro k member
  have sizes := size_of_covered (fun k => k.toString.length) (w.maps.getD m .empty).nodup
    (keys_covered grows empty returned same) (.inl fun k member => by
      obtain ⟨s, rfl, clean, -⟩ := sendable k member
      rw [back _ member]
      exact length_le_atomName clean.1 _) k member
  rw [back k member] at sizes
  exact literal_of_length_atomName sizes.le

theorem keyBack_of_unmarked {s : Units} (unmarked : Unmarked s) :
    keyBack noneInterned (.string s) = .string s := by
  rw [keyBack, sentKey_of_clean unmarked.1]
  exact congrArg MapKey.string (dropBom_of_unmarked unmarked.2)

theorem keyBack_of_literal {s : Units} (unmarked : Unmarked s)
    (isLiteral : literal (toUtf8 s) = true) : keyBack interned (.string s) = .string s := by
  rw [keyBack, sentKey_of_literal unmarked.1 isLiteral]
  exact congrArg MapKey.string (dropBom_of_unmarked unmarked.2)

/-- What comes back deeply equal without other atoms has short lists and no byte order marks. -/
theorem unmarked (returned : Returned noneInterned w root w' c ctx d d') (grows : Grows c ctx w₂ w')
    (empty : ∀ a, cacheAt w₂ c a = none) (sendable : Sendable w d) (equal : DeepEqual w d w' d') :
    ListsBelow (2^31) w d ∧
      (∀ path s, (dartGraph w).follow d path = some (.string s) → s.head? ≠ some bom) ∧
      ∀ path m s, (dartGraph w).follow d path = some (.map m) →
        .string s ∈ (w.maps.getD m .empty).keys → s.head? ≠ some bom := by
  have reached : ∀ path m, (dartGraph w).follow d path = some m → ∃ m',
      Returned noneInterned w root w' c ctx m m' ∧
        Matches SameLeaf id (dartGraph w m) (dartGraph w' m') :=
    fun path m leads => equal.unmoved (traced grows empty) returned
    (fun path m m' leads returned same s x => still grows empty returned same (by
      rintro i rfl k member
      obtain ⟨s, rfl, clean, -⟩ := sendable.nodes path _ leads k member
      exact keyBack_of_unmarked ⟨clean, keys_unmarked grows empty (sendable.nodes path _ leads)
        returned same _ member⟩)) leads
  refine ⟨fun path l leads => ?_, fun path s leads => ?_, fun path m s leads member => ?_⟩
  · obtain ⟨m', returned', same⟩ := reached path _ leads
    exact list_short grows empty returned' same
  · obtain ⟨m', returned', same⟩ := reached path _ leads
    exact string_unmarked (sendable.nodes path _ leads) returned' same
  · obtain ⟨m', returned', same⟩ := reached path _ leads
    exact keys_unmarked grows empty (sendable.nodes path _ leads) returned' same _ member

theorem isLiteral (returned : Returned allInterned w root w' c ctx d d') (grows : Grows c ctx w₂ w')
    (empty : ∀ a, cacheAt w₂ c a = none) (sendable : Sendable w d) (equal : DeepEqual w d w' d')
    (unmarked : ∀ path m s, (dartGraph w).follow d path = some (.map m) →
      .string s ∈ (w.maps.getD m .empty).keys → s.head? ≠ some bom) :
    ∀ path m s, (dartGraph w).follow d path = some (.map m) →
      .string s ∈ (w.maps.getD m .empty).keys → literal (toUtf8 s) = true := by
  have heads : ∀ path m, (dartGraph w).follow d path = some (.map m) →
      ∀ k ∈ (w.maps.getD m .empty).keys, k.toString.head? ≠ some bom := by
    intro path m leads k member
    obtain ⟨s, rfl, -, -⟩ := sendable.nodes path _ leads k member
    exact unmarked path m s leads member
  intro path m s leads member
  obtain ⟨m', returned', same⟩ := equal.unmoved (traced grows empty) returned
    (fun path m m' leads returned same s x => still grows empty returned same (by
      rintro i rfl k member
      have isLiteral := keys_literal grows empty (sendable.nodes path _ leads) (heads path i leads)
        returned same _ member
      obtain ⟨s, rfl, clean, -⟩ := sendable.nodes path _ leads k member
      exact keyBack_of_literal ⟨clean, unmarked path i s leads member⟩ isLiteral)) leads
  exact keys_literal grows empty (sendable.nodes path _ leads) (heads path m leads) returned' same _
    member

end Returned

variable [PackageFfi] {rely : World → World → Prop} {ctx : Ctx} {w : World} {rootObj : JSObj}
  {d : DartVal}

/-- A way to JS and back, whatever 8-bit atoms are interned. -/
theorem ComesBack.returned {Q : DartVal → World → Prop} (back : ComesBack rely ctx w d Q)
    (sendable : Sendable w d) (initial : InitialPrototype w ctx rootObj)
    (interned : CString → Bool) : ∃ d' w' c w₂, Q d' w' ∧ Grows c ctx w₂ w' ∧
      (∀ a, cacheAt w₂ c a = none) ∧
      Returned interned w (w.realm ctx).objectProto w' c ctx d d' := by
  obtain ⟨n, enough⟩ := back
  obtain ⟨m, fits⟩ := sendable.fits initial interned
  have encodes := toQuickJSValue_encodes (show True ∨ ∀ w w', rely w w' → w' = w from .inl trivial)
    (fun _ => initial.prototypes) (max n m) d w (.refl w) (predictable_exactly interned w d)
    fun _ => fits _ (le_max_right n m)
  have both := wp_and (building_of_plain (possible_findsExactly interned) (enough _ (le_max_left n m)))
    (wp_guard_mono encodes fun _ _ _ => trivial)
  obtain ⟨h, out, w₁, run⟩ := wp_runs both trivial
  obtain ⟨⟨p, rfl, n', inner⟩, -, v, holds, made⟩ := wp_sound both run
  have read := quiet_read rely True ctx holds (made.dataOnly readLength_le) (made.clean readLength_le)
    (show w₁.heap.size < max n' (w₁.heap.size + 1) by omega)
  have both' := wp_and (inner _ (le_max_left _ _)) (wp_guard_mono read fun _ _ _ => trivial)
  obtain ⟨h', out', w', run'⟩ := wp_runs both' trivial
  obtain ⟨⟨d', rfl, shows⟩, same, c, w₂, grows, empty, converted⟩ := wp_sound both' run'
  exact ⟨d', w', c, w₂, shows, grows, empty, v, ⟨_, _, _, same.heap ▸ made⟩, converted⟩

end FlutterQuickjs.Conversion
