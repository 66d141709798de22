import FlutterQuickjs.Engine.Heap

namespace FlutterQuickjs.Binding

open Engine
open Effect (OrderedMap)

/-- The address of a context. -/
abbrev Ctx := Nat

/-- Pointers to a `JSValue`: a box of the ffi layer, or a slot of an argument vector. -/
inductive Ptr
  | box (n : Nat)
  | slot (argv i : Nat)
deriving DecidableEq

/-- A Dart function, with the text of its runtime type. -/
structure DartFunction where
  id : Nat
  runtimeType : Units
deriving DecidableEq

/-- The `_onCall` of a `HostFunction`: the closure that `toDartValue` makes over a `JSFunction`,
or a function of the Dart program. -/
inductive OnCall
  | wrapper (ctx : Ctx) (val : Ptr)
  | function (f : DartFunction)
deriving DecidableEq

structure HostFunction where
  onCall : OnCall
  argNum : Nat
deriving DecidableEq

/-- Dart values; lists and maps are references into the Dart heap. -/
inductive DartVal
  | null
  | bool (b : Bool)
  | int (n : Int64)
  | double (d : Double)
  | string (s : Units)
  | list (l : Nat)
  | map (m : Nat)
  | hostFunction (f : HostFunction)
  | function (f : DartFunction)
  | exception (message : Units)
  | other (id : Nat)
deriving DecidableEq

/-- Keys of Dart maps; keys that are neither null nor strings carry their printed form. -/
inductive MapKey
  | null
  | string (s : Units)
  | other (id : Nat) (text : Units)
deriving DecidableEq

def MapKey.toString : MapKey → Units
  | null => units "null"
  | string s => s
  | other _ text => text

/-- What Dart code throws. -/
inductive DartError
  | exception (message : Units)
  | formatException
  | unsupportedError
  | noSuchMethodError
  | rangeError
  | typeError
  | concurrentModificationError
  | stackOverflowError
  | user (id : Nat)
deriving DecidableEq

/-- The builtin objects of a context. -/
structure Realm where
  global : ObjRef
  objectProto : ObjRef
  arrayProto : ObjRef
  functionProto : ObjRef
deriving DecidableEq

/-- A function object made by `JS_NewCFunctionData` over `dart_callback`. -/
structure CFunction where
  object : ObjRef
  ctx : Ctx
  callbackId : Int32
deriving DecidableEq

/-- A `FlutterQuickjs` object. -/
structure Instance where
  ctx : Ctx
  globalPtr : Ptr
deriving DecidableEq

/-- Everything the binding touches. `held`, `atoms` and `cstrings` count the references it
owes the engine; `released` lists the pointers passed to `jsFreeValue`, whose boxes show what
they held last; `cfunctions` lists the function objects made in the open contexts, also those that
the engine collected; `building` lists the Dart lists that a running conversion has not handed out
yet; `made` and `origins` record the `HostFunction`s made for JS functions and the Dart function
behind each function object. -/
structure World where
  boxes : List JSValue
  released : List Ptr
  arrays : List (List JSValue)
  cells : List Nat
  tables : List (List PropKey)
  heap : Heap
  serial : Nat
  held : JSValue → Int
  atoms : PropKey → Int
  cstrings : Units → Int
  pending : Ctx → Option JSValue
  realm : Ctx → Realm
  contexts : List Ctx
  callbackRegistered : Bool
  cfunctions : List CFunction
  origins : List (ObjRef × DartFunction)
  lists : List (List DartVal)
  maps : List (OrderedMap MapKey DartVal)
  caches : List (OrderedMap Nat DartVal)
  building : List Nat
  made : List HostFunction
  jsFunctionCache : Ctx → Option (List Ptr)
  hostFunctionCache : Ctx → Option (List HostFunction)
  initialized : Bool
  instances : List Instance

namespace World

/-- Before the first `FlutterQuickjs` object. -/
def initial : World where
  boxes := []
  released := []
  arrays := []
  cells := []
  tables := []
  heap := ⟨.empty, List.nodup_nil⟩
  serial := 0
  held := fun _ => 0
  atoms := fun _ => 0
  cstrings := fun _ => 0
  pending := fun _ => none
  realm := fun _ => ⟨⟨0,0,.ordinary⟩, ⟨0,0,.ordinary⟩, ⟨0,0,.array⟩, ⟨0,0,.function⟩⟩
  contexts := []
  callbackRegistered := false
  cfunctions := []
  origins := []
  lists := []
  maps := []
  caches := []
  building := []
  made := []
  jsFunctionCache := fun _ => none
  hostFunctionCache := fun _ => none
  initialized := false
  instances := []

def value (w : World) : Ptr → JSValue
  | .box n => w.boxes.getD n .undefined
  | .slot a i => (w.arrays.getD a []).getD i .undefined

/-- The binding owes the engine one more reference on `v`. -/
def credit (w : World) (v : JSValue) : World :=
  { w with held := Function.update w.held v (w.held v + 1) }

def debit (w : World) (v : JSValue) : World :=
  { w with held := Function.update w.held v (w.held v - 1) }

/-- The engine throws `e`, which replaces an exception still pending. -/
def throwing (w : World) (ctx : Ctx) (e : JSValue) : World :=
  { w with pending := Function.update w.pending ctx (some e) }

def lendCString (w : World) (s : Units) : World :=
  { w with cstrings := Function.update w.cstrings s (w.cstrings s + 1) }

def holdAtoms (w : World) (keys : List PropKey) : World :=
  { w with atoms := fun k => w.atoms k + keys.count k }

/-- Reading a property of a value. -/
def reads (w : World) (v : JSValue) (k : PropKey) : Read :=
  match v with
  | .object o => w.heap.get o k
  | _ => .code

/-- Assigning to a property of a value; null and undefined have none. -/
def writes (w : World) (v : JSValue) (k : PropKey) (x : JSValue) : Write :=
  match v with
  | .object o => w.heap.set o k x
  | .null => .refused
  | .undefined => .refused
  | _ => .code

/-- The own enumerable keys, where the object lists them itself. -/
def ownKeys (w : World) (v : JSValue) : Option (List PropKey) :=
  match v with
  | .object o => match o.kind with
    | .exotic _ => none
    | _ => (w.heap.find o).map JSObj.enumerableKeys
  | _ => none

/-- A new object of `kind` at a free address. -/
def allocate (w : World) (address : Nat) (kind : ObjKind) (proto : ObjRef) : World :=
  { w with
    heap := w.heap.put ⟨address,w.serial,kind⟩ (.bare (some proto))
    serial := w.serial + 1 }

end World

end FlutterQuickjs.Binding
