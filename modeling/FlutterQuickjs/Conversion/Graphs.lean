import FlutterQuickjs.Binding.Convert
import FlutterQuickjs.Framework.ValueGraph

namespace FlutterQuickjs.Conversion

open Engine Binding
open Effect

/-- The value of a data property. -/
def dataValue (obj : JSObj) (k : PropKey) : JSValue :=
  match obj.properties.find k with
  | some (.data v _ _ _) => v
  | _ => .undefined

/-- The own enumerable properties of an object, in the order the engine lists them. -/
def ownRecord (obj : JSObj) : OrderedMap PropKey JSValue :=
  ⟨obj.enumerableKeys.map fun k => (k, dataValue obj k), by
    rw [List.map_map]
    simpa [Function.comp_def] using obj.enumerableKeys_nodup⟩

/-- The value that reading index `i` gives where no user code runs. -/
def element (h : Heap) (o : ObjRef) (i : Nat) : JSValue :=
  match h.get o (.index i) with
  | .value v => v
  | .code => .undefined

/-- The graph of JS values: arrays and ordinary objects are containers, everything else,
functions too, is a leaf. `len` says how many elements of an array count. -/
def jsGraph (len : UInt32 → Nat) (h : Heap) : ValueGraph ObjRef PropKey JSValue JSValue
  | .object o =>
    match o.kind, h.find o with
    | .array, some obj => .list o ((List.range (len obj.length)).map (element h o))
    | .ordinary, some obj => .record o (ownRecord obj)
    | _, _ => .leaf (.object o)
  | v => .leaf v

/-- The graph of Dart values in a world; a container is its own identity. -/
def dartGraph (w : World) : ValueGraph DartVal MapKey DartVal DartVal
  | .list l => .list (.list l) (w.lists.getD l [])
  | .map m => .record (.map m) (w.maps.getD m .empty)
  | d => .leaf d

/-- The Dart key of a property key. -/
def keyImage : PropKey → MapKey
  | .string s => .string s
  | .symbol _ => .null

/-- The Dart leaf for a JS leaf; a function becomes a `HostFunction` over a box that holds
that very function. -/
def LeafImage (w : World) (ctx : Ctx) : JSValue → DartVal → Prop
  | .int n, d => d = .int n.toInt64
  | .bool b, d => d = .bool b
  | .float64 x, d => d = .double x
  | .string s, d => d = .string s
  | .object o, d => (JSValue.object o).isFunction = true ∧
      ∃ p, d = .hostFunction (HostFunction.new (.wrapper ctx p)) ∧ w.value p = .object o
  | .exception, _ => False
  | _, d => d = .null

/-- The Dart key that a property key is read as. -/
def keyRead : PropKey → MapKey
  | .string s => .string (dropBom s)
  | .symbol _ => .null

/-- What the binding reads of a JS leaf: a string loses its byte order mark. -/
def LeafRead (w : World) (ctx : Ctx) : JSValue → DartVal → Prop
  | .string s, d => d = .string (dropBom s)
  | v, d => LeafImage w ctx v d

/-- What `jsToInt32` makes of an array's length. -/
def readLength (n : UInt32) : Nat := ((JSValue.newUint32 n).toInt32?.getD 0).toInt.toNat

/-- A value whose own enumerable properties are string-keyed data properties and whose
elements can be read without running user code. -/
def DataNode (len : UInt32 → Nat) (h : Heap) : JSValue → Prop
  | .object o =>
    match o.kind with
    | .function => h.Live o
    | .exotic _ => False
    | .array => ∃ obj, h.find o = some obj ∧ ∀ i < len obj.length, h.get o (.index i) ≠ .code
    | .ordinary => ∃ obj, h.find o = some obj ∧ ∀ k p, obj.properties.find k = some p →
        p.enumerable = true → (∃ s, k = .string s) ∧ ∃ v writable enumerable configurable,
          p = .data v writable enumerable configurable
  | .exception => False
  | _ => True

def DataOnly (len : UInt32 → Nat) (h : Heap) (root : JSValue) : Prop :=
  ∀ path v, (jsGraph len h).follow root path = some v → DataNode len h v

/-- The strings of a value, the text of a string or the keys of a record, meet `ok`. -/
def TextNode (ok : Units → Prop) (len : UInt32 → Nat) (h : Heap) (v : JSValue) : Prop :=
  match jsGraph len h v with
  | .leaf (.string s) => ok s
  | .record _ entries => ∀ s, .string s ∈ entries.keys → ok s
  | _ => True

/-- Every string of the graph, names of properties included, meets `ok`. -/
def Texts (ok : Units → Prop) (len : UInt32 → Nat) (h : Heap) (root : JSValue) : Prop :=
  ∀ path v, (jsGraph len h).follow root path = some v → TextNode ok len h v

/-- The keys of a record are read as different keys. -/
def KeysApart (h : Heap) (v : JSValue) : Prop :=
  match jsGraph readLength h v with
  | .record _ entries => (entries.keys.map keyRead).Nodup
  | _ => True

/-- No two names of an object of the graph differ by a byte order mark alone. -/
def NamesApart (len : UInt32 → Nat) (h : Heap) (root : JSValue) : Prop :=
  ∀ path v, (jsGraph len h).follow root path = some v → KeysApart h v

/-- Every array of the graph is shorter than `bound`. -/
def ArraysBelow (bound : Nat) (h : Heap) (root : JSValue) : Prop :=
  ∀ path o obj, (jsGraph UInt32.toNat h).follow root path = some (.object o) →
    o.kind = .array → h.find o = some obj → obj.length.toNat < bound

theorem keys_ownRecord (obj : JSObj) : (ownRecord obj).keys = obj.enumerableKeys := by
  simp [ownRecord, OrderedMap.keys, Function.comp_def]

theorem find_ownRecord {obj : JSObj} {k : PropKey} {v : JSValue} :
    (ownRecord obj).find k = some v ↔ k ∈ obj.enumerableKeys ∧ v = dataValue obj k := by
  rw [OrderedMap.find_eq_some]
  simp only [ownRecord, List.mem_map, Prod.mk.injEq]
  constructor
  · rintro ⟨k', inside, rfl, rfl⟩
    exact ⟨inside, rfl⟩
  · rintro ⟨inside, rfl⟩
    exact ⟨k, inside, rfl, rfl⟩

theorem readLength_of_lt {n : UInt32} (short : n.toNat < 2^31) : readLength n = n.toNat := by
  have small : n.toNat ≤ 0x7fffffff := by omega
  simp only [readLength, JSValue.newUint32, small, if_true, JSValue.toInt32?_int,
    Option.getD_some]
  rw [Int32.toInt_ofNat_of_lt (by omega)]
  exact Int.toNat_natCast _

theorem readLength_of_ge {n : UInt32} (long : 2^31 ≤ n.toNat) : readLength n = 0 := by
  have large : ¬n.toNat ≤ 0x7fffffff := by omega
  have bound := n.toNat_lt
  simp only [readLength, JSValue.newUint32, large, if_false, JSValue.toInt32?_float64,
    Option.getD_some, Double.ofUInt32, Double.toInt32, truncate_ofInt]
  rw [Int32.toInt_ofInt]
  have negative : ((n.toNat : Int)).bmod Int32.size ≤ 0 := by
    simp only [Int32.size, Int.bmod_def]
    omega
  omega

theorem readLength_le (n : UInt32) : readLength n ≤ n.toNat := by
  rcases Nat.lt_or_ge n.toNat (2^31) with short | long
  · rw [readLength_of_lt short]
  · rw [readLength_of_ge long]
    exact Nat.zero_le _

theorem DataOnly.node {len : UInt32 → Nat} {h : Heap} {root : JSValue}
    (data : DataOnly len h root) : DataNode len h root :=
  data [] root rfl

theorem DataOnly.child {len : UInt32 → Nat} {h : Heap} {v m : JSValue} {s : Step PropKey}
    (data : DataOnly len h v) (child : (jsGraph len h v).child s = some m) :
    DataOnly len h m := by
  intro path x leads
  exact data (s :: path) x (ValueGraph.follow_cons_some.mpr ⟨m, child, leads⟩)

variable {ok ok' : Units → Prop} {len : UInt32 → Nat} {h : Heap} {v m : JSValue}

theorem jsGraph_eq_leaf {l : JSValue} (leaf : jsGraph len h v = .leaf l) : l = v := by
  cases v with
  | object o =>
    cases kind : o.kind <;> cases found : h.find o <;>
      simp only [jsGraph, kind, found, View.leaf.injEq, reduceCtorEq] at leaf <;> exact leaf.symm
  | _ => exact (View.leaf.inj leaf).symm

theorem jsGraph_eq_record {id : ObjRef} {entries : OrderedMap PropKey JSValue}
    (record : jsGraph len h v = .record id entries) :
    ∃ o obj, v = .object o ∧ o.kind = .ordinary ∧ h.find o = some obj ∧ entries = ownRecord obj := by
  cases v with
  | object o =>
    cases kind : o.kind <;> cases found : h.find o <;>
      simp only [jsGraph, kind, found, View.record.injEq, reduceCtorEq] at record
    exact ⟨o, _, rfl, kind, found, record.2.symm⟩
  | _ => cases record

theorem jsGraph_eq_list {id : ObjRef} {elements : List JSValue}
    (list : jsGraph len h v = .list id elements) :
    ∃ o obj, v = .object o ∧ o.kind = .array ∧ h.find o = some obj ∧
      elements.length = len obj.length := by
  cases v with
  | object o =>
    cases kind : o.kind <;> cases found : h.find o <;>
      simp only [jsGraph, kind, found, View.list.injEq, reduceCtorEq] at list
    exact ⟨o, _, rfl, kind, found, by rw [← list.2, List.length_map, List.length_range]⟩
  | _ => cases list

theorem Texts.node (texts : Texts ok len h v) : TextNode ok len h v :=
  texts [] v rfl

theorem Texts.child {s : Step PropKey} (texts : Texts ok len h v)
    (child : (jsGraph len h v).child s = some m) : Texts ok len h m := by
  intro path x leads
  exact texts (s :: path) x (ValueGraph.follow_cons_some.mpr ⟨m, child, leads⟩)

theorem TextNode.mono (node : TextNode ok len h v) (weaker : ∀ s, ok s → ok' s) :
    TextNode ok' len h v := by
  unfold TextNode at *
  split at node
  · exact weaker _ node
  · exact fun s member => weaker s (node s member)
  · trivial

theorem Texts.mono (texts : Texts ok len h v) (weaker : ∀ s, ok s → ok' s) :
    Texts ok' len h v :=
  fun path m leads => (texts path m leads).mono weaker

/-- An own property is what a read finds. -/
theorem get_own {h : Heap} {o : ObjRef} {obj : JSObj} {k : PropKey} {p : Property}
    (plain : ∀ callable, o.kind ≠ .exotic callable) (found : h.find o = some obj)
    (own : obj.own o k = some p) : h.get o k = Heap.readOwn (h.protoValue o) p := by
  rw [Heap.get, Heap.read]
  cases kind : o.kind with
  | exotic callable => exact absurd kind (plain callable)
  | ordinary => simp only [found, own]
  | array => simp only [found, own]
  | function => simp only [found, own]

theorem get_length {h : Heap} {o : ObjRef} {obj : JSObj} (array : o.kind = .array)
    (found : h.find o = some obj) :
    h.get o (.string lengthName) = .value (.newUint32 obj.length) := by
  rw [get_own (by simp [array]) found
    (p := .data (.newUint32 obj.length) obj.lengthWritable false false) (by simp [JSObj.own, array])]
  rfl

end FlutterQuickjs.Conversion
