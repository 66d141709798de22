import FlutterQuickjs.Engine.Value
import FlutterQuickjs.Framework.OrderedMap
import Mathlib.Data.Fintype.EquivFin
import Mathlib.Data.List.Sort

namespace FlutterQuickjs.Engine

open Effect (OrderedMap)

/-- An own property. `protoAccessor` is the `__proto__` of `Object.prototype`. -/
inductive Property
  | data (value : JSValue) (writable enumerable configurable : Bool)
  | accessor (getter setter : Option ObjRef) (enumerable configurable : Bool)
  | protoAccessor
deriving DecidableEq

def Property.enumerable : Property → Bool
  | data _ _ enumerable _ => enumerable
  | accessor _ _ enumerable _ => enumerable
  | protoAccessor => false

def Property.configurable : Property → Bool
  | data _ _ _ configurable => configurable
  | accessor _ _ _ configurable => configurable
  | protoAccessor => true

/-- The last three fields are those of an array: its length, whether that can change, and the
number of elements while it is a fast one. -/
structure JSObj where
  properties : OrderedMap PropKey Property
  proto : Option ObjRef
  extensible : Bool
  length : UInt32
  lengthWritable : Bool
  fast : Option Nat
deriving DecidableEq

def lengthName : Units := units "length"

namespace JSObj

/-- A new object without properties. -/
def bare (proto : Option ObjRef) : JSObj := ⟨.empty, proto, true, 0, true, some 0⟩

/-- The own property of the object `o` whose contents these are. -/
def own (obj : JSObj) (o : ObjRef) (k : PropKey) : Option Property :=
  if o.kind = .array ∧ k = .string lengthName then
    some (.data (.newUint32 obj.length) obj.lengthWritable false false)
  else obj.properties.find k

/-- An element that a fast array keeps outside its shape. -/
def fastElement (obj : JSObj) (o : ObjRef) (k : PropKey) : Bool :=
  o.kind = .array && obj.fast.any fun count => k.asIndex.any (· < count)

/-- The object with one more plain data property. -/
def assign (obj : JSObj) (k : PropKey) (v : JSValue) : JSObj :=
  { obj with properties := obj.properties.insert k (.data v true true true) }

def enumerableOwn (obj : JSObj) : List PropKey :=
  (obj.properties.entries.filter fun e => e.2.enumerable).map Prod.fst

/-- The keys of `JS_GetOwnPropertyNames` with every flag set: enumerable ones only, array
indices ascending, then strings, then symbols, each in order of creation. -/
def enumerableKeys (obj : JSObj) : List PropKey :=
  (obj.enumerableOwn.filter fun k => k.asIndex.isSome).insertionSort
      (fun k k' => k.asIndex.getD 0 ≤ k'.asIndex.getD 0) ++
    (obj.enumerableOwn.filter fun k => !k.asIndex.isSome).filter (fun k => !k.isSymbol) ++
    (obj.enumerableOwn.filter fun k => !k.asIndex.isSome).filter (fun k => k.isSymbol)

theorem enumerableKeys_perm (obj : JSObj) : obj.enumerableKeys.Perm obj.enumerableOwn := by
  have symbols := List.filter_append_perm (fun k : PropKey => !k.isSymbol)
    (obj.enumerableOwn.filter fun k => !k.asIndex.isSome)
  have indices := List.filter_append_perm (fun k : PropKey => k.asIndex.isSome) obj.enumerableOwn
  simp only [Bool.not_not] at symbols
  refine List.Perm.trans ?_ indices
  rw [enumerableKeys, List.append_assoc]
  exact (List.perm_insertionSort _ _).append symbols

theorem enumerableKeys_nodup (obj : JSObj) : obj.enumerableKeys.Nodup := by
  rw [(enumerableKeys_perm obj).nodup_iff]
  exact obj.properties.nodup.sublist (List.filter_sublist.map _)

theorem mem_enumerableKeys {obj : JSObj} {k : PropKey} :
    k ∈ obj.enumerableKeys ↔ ∃ p, obj.properties.find k = some p ∧ p.enumerable = true := by
  rw [(enumerableKeys_perm obj).mem_iff]
  simp [enumerableOwn, OrderedMap.find_eq_some]

end JSObj

/-- The live objects of the engine; no two of them share an address. -/
structure Heap where
  objects : OrderedMap ObjRef JSObj
  addresses : (objects.keys.map ObjRef.address).Nodup

/-- What a property read gives, or that code outside this model decides it. -/
inductive Read
  | value (v : JSValue)
  | code
deriving DecidableEq

/-- What a property write does. -/
inductive Write
  | stored (h : Heap)
  | refused
  | code

namespace Heap

def find (h : Heap) (o : ObjRef) : Option JSObj := h.objects.find o

def Live (h : Heap) (o : ObjRef) : Prop := o ∈ h.objects.keys

instance (h : Heap) (o : ObjRef) : Decidable (h.Live o) :=
  inferInstanceAs (Decidable (o ∈ h.objects.keys))

theorem live_iff {h : Heap} {o : ObjRef} : h.Live o ↔ (h.find o).isSome :=
  OrderedMap.find_isSome.symm

theorem live_of_find {h : Heap} {o : ObjRef} {obj : JSObj} (found : h.find o = some obj) :
    h.Live o := by
  rw [live_iff, found]
  rfl

theorem eq_of_address_eq {h : Heap} {o o' : ObjRef} (live : h.Live o) (live' : h.Live o')
    (same : o.address = o'.address) : o = o' :=
  List.inj_on_of_nodup_map h.addresses live live' same

def Taken (h : Heap) (address : Nat) : Prop := address ∈ h.objects.keys.map ObjRef.address

instance (h : Heap) (address : Nat) : Decidable (h.Taken address) :=
  inferInstanceAs (Decidable (address ∈ h.objects.keys.map ObjRef.address))

theorem exists_free (h : Heap) : ∃ address, ¬h.Taken address := by
  obtain ⟨address, free⟩ :=
    Infinite.exists_notMem_finset (h.objects.keys.map ObjRef.address).toFinset
  exact ⟨address, fun taken => free (List.mem_toFinset.mpr taken)⟩

theorem taken_of_live {h : Heap} {o : ObjRef} (live : h.Live o) : h.Taken o.address :=
  List.mem_map.mpr ⟨o, live, rfl⟩

/-- Contents for an object that lives, or for a new one at a free address. -/
def put (h : Heap) (o : ObjRef) (obj : JSObj) : Heap :=
  if ok : h.Live o ∨ ¬h.Taken o.address then
    ⟨h.objects.insert o obj, by
      rw [OrderedMap.keys_insert]
      split
      · exact h.addresses
      · rename_i dead
        have free : ¬h.Taken o.address := ok.resolve_left dead
        rw [List.map_append, List.map_singleton]
        refine List.nodup_append.mpr ⟨h.addresses, List.nodup_singleton _, ?_⟩
        rintro a inside b new rfl
        rw [List.mem_singleton] at new
        exact free (new ▸ inside)⟩
  else h

theorem find_put {h : Heap} {o : ObjRef} {obj : JSObj} (ok : h.Live o ∨ ¬h.Taken o.address)
    (o' : ObjRef) : (h.put o obj).find o' = if o' = o then some obj else h.find o' := by
  rw [put, dif_pos ok]
  exact OrderedMap.find_insert _ _ _ _

theorem keys_put {h : Heap} {o : ObjRef} {obj : JSObj} (ok : h.Live o ∨ ¬h.Taken o.address) :
    (h.put o obj).objects.keys =
      if h.Live o then h.objects.keys else h.objects.keys ++ [o] := by
  rw [put, dif_pos ok]
  exact OrderedMap.keys_insert _ _ _

def protoValue (h : Heap) (o : ObjRef) : JSValue :=
  match (h.find o).bind JSObj.proto with
  | some p => .object p
  | none => .null

/-- Reading an own property, for a receiver with the prototype `proto`. -/
def readOwn (proto : JSValue) : Property → Read
  | .data v _ _ _ => .value v
  | .accessor none _ _ _ => .value .undefined
  | .accessor (some _) _ _ _ => .code
  | .protoAccessor => .value proto

/-- The walk of `JS_GetPropertyInternal` up the prototype chain; the number bounds it. -/
def read (h : Heap) (proto : JSValue) (k : PropKey) : Nat → ObjRef → Read
  | 0, _ => .value .undefined
  | n + 1, o =>
    match o.kind, h.find o with
    | .exotic _, _ => .code
    | _, none => .value .undefined
    | _, some obj =>
      match obj.own o k, obj.proto with
      | some p, _ => readOwn proto p
      | none, none => .value .undefined
      | none, some p => read h proto k n p

def size (h : Heap) : Nat := h.objects.keys.length

def get (h : Heap) (o : ObjRef) (k : PropKey) : Read :=
  h.read (h.protoValue o) k (h.size + 1) o

/-- A new own property of an ordinary object, as an assignment makes it. Arrays keep their
length in step with their indices; that part of the engine is left to `code`. -/
def addOwn (h : Heap) (o : ObjRef) (k : PropKey) (v : JSValue) : Write :=
  match h.find o with
  | none => .refused
  | some obj =>
    if o.kind = .array then .code
    else if obj.extensible then
      .stored (h.put o { obj with properties := obj.properties.insert k (.data v true true true) })
    else .refused

def reaches (h : Heap) (target : ObjRef) : Nat → ObjRef → Bool
  | 0, _ => false
  | n + 1, o => o = target || match (h.find o).bind JSObj.proto with
    | some p => h.reaches target n p
    | none => false

/-- `JS_SetPrototypeInternal` as the `__proto__` setter calls it: other values than objects
and null are ignored. -/
def setProto (h : Heap) (o : ObjRef) (v : JSValue) : Write :=
  match h.find o, v with
  | some obj, .object p =>
    if obj.proto = some p then .stored h
    else if !obj.extensible || h.reaches o (h.size + 1) p then .refused
    else .stored (h.put o { obj with proto := some p })
  | some obj, .null =>
    if obj.proto = none then .stored h
    else if !obj.extensible then .refused
    else .stored (h.put o { obj with proto := none })
  | _, _ => .stored h

/-- The walk of `JS_SetPropertyInternal` for the receiver `r`. A writable property of a
prototype lets it go on, an element of a fast array ends it. -/
def write (h : Heap) (r : ObjRef) (k : PropKey) (v : JSValue) : Nat → ObjRef → Write
  | 0, _ => h.addOwn r k v
  | n + 1, o =>
    match o.kind, h.find o with
    | .exotic _, _ => .code
    | _, none => h.addOwn r k v
    | _, some obj =>
      match obj.own o k, obj.proto with
      | some (.data _ writable enumerable configurable), proto =>
        if !writable then .refused
        else if o = r then
          if o.kind = .array then .code
          else .stored (h.put o { obj with
            properties := obj.properties.insert k (.data v writable enumerable configurable) })
        else if obj.fastElement o k then h.addOwn r k v
        else match proto with
          | none => h.addOwn r k v
          | some p => write h r k v n p
      | some (.accessor _ (some _) _ _), _ => .code
      | some (.accessor _ none _ _), _ => .refused
      | some .protoAccessor, _ => h.setProto r v
      | none, none => h.addOwn r k v
      | none, some p => write h r k v n p

def set (h : Heap) (o : ObjRef) (k : PropKey) (v : JSValue) : Write :=
  h.write o k v (h.size + 1) o

/-- `JS_DefinePropertyValueUint32` on an array, with all three flags set: whether it defined the
element, and what it leaves. The length grows before the element is added. -/
def defineIndex (h : Heap) (o : ObjRef) (i : UInt32) (v : JSValue) : Bool × Heap :=
  match h.find o with
  | none => (false,h)
  | some obj =>
    match obj.properties.find (.index i.toNat) with
    | some p =>
      if p.configurable then (true, h.put o (obj.assign (.index i.toNat) v)) else (false,h)
    | none =>
      if i.toNat = 2^32 - 1 then
        if obj.extensible then (true, h.put o (obj.assign (.index i.toNat) v)) else (false,h)
      else
        let grown := if obj.length ≤ i then i + 1 else obj.length
        if obj.fast = some i.toNat ∧ i.toNat < 2^31 then
          if !obj.extensible || obj.length ≤ i && !obj.lengthWritable then (false,h)
          else (true, h.put o { obj.assign (.index i.toNat) v with
            length := grown, fast := some (i.toNat + 1) })
        else if obj.length ≤ i && !obj.lengthWritable then
          (false, h.put o { obj with fast := none })
        else if obj.extensible then
          (true, h.put o { obj.assign (.index i.toNat) v with length := grown, fast := none })
        else (false, h.put o { obj with length := grown, fast := none })

end Heap

end FlutterQuickjs.Engine
