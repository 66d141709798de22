import FlutterQuickjs.Binding.World
import FlutterQuickjs.Framework.Weakest

namespace FlutterQuickjs.Binding

open Engine
open Effect (OrderedMap Program Env)

/-- The operations of the binding: memory of the ffi layer, calls into the engine, and what
the Dart code does to shared Dart state. -/
inductive Op
  | new (v : JSValue)
  | load (p : Ptr)
  | delete (p : Ptr)
  | calloc (n : Nat)
  | store (argv i : Nat) (v : JSValue)
  | callocFree (argv : Nat)
  | callocCell
  | loadCell (c : Nat)
  | storeCell (c n : Nat)
  | callocFreeCell (c : Nat)
  | atomAt (table i : Nat)
  | newContext
  | freeRuntime (ctx : Ctx)
  | dupValue (v : JSValue)
  | freeValue (v : JSValue)
  | getGlobalObject (ctx : Ctx)
  | eval (ctx : Ctx) (input filename : CString)
  | call (ctx : Ctx) (f this : JSValue) (argc argv : Nat)
  | isArray (ctx : Ctx) (v : JSValue)
  | toInt32 (ctx : Ctx) (v : JSValue)
  | toInt64 (ctx : Ctx) (v : JSValue)
  | toFloat64 (ctx : Ctx) (v : JSValue)
  | toCString (ctx : Ctx) (v : JSValue)
  | findAtom (name : CString)
  | getException (ctx : Ctx)
  | getProperty (ctx : Ctx) (v : JSValue) (k : PropKey)
  | getOwnPropertyNames (ctx : Ctx) (v : JSValue)
  | newTable (keys : List PropKey)
  | atomToValue (k : PropKey)
  | freeAtom (k : PropKey)
  | newObject (ctx : Ctx)
  | newArray (ctx : Ctx)
  | newString (s : CString)
  | setProperty (ctx : Ctx) (v : JSValue) (k : PropKey) (x : JSValue)
  | defineIndex (ctx : Ctx) (v : JSValue) (i : UInt32) (x : JSValue) (flags : Nat)
  | newCFunctionData (ctx : Ctx) (callbackId : Int32)
  | newCFunction (ctx : Ctx) (name : CString)
  | registerCallback
  | callbackRegistered
  | lendArguments (args : List JSValue)
  | giveBack (v : JSValue)
  | newList
  | listAdd (l : Nat) (v : DartVal)
  | listGet (l i : Nat)
  | listLength (l : Nat)
  | listElements (l : Nat)
  | listDone (l : Nat)
  | newMap
  | mapPut (m : Nat) (k : MapKey) (v : DartVal)
  | mapEntries (m : Nat)
  | newCache (root : ObjRef)
  | cacheFind (c : Nat) (o : ObjRef)
  | cachePut (c : Nat) (o : ObjRef) (v : DartVal)
  | handOut (f : HostFunction)
  | jsFunctions (ctx : Ctx)
  | setJSFunctions (ctx : Ctx) (ptrs : Option (List Ptr))
  | hostFunctions (ctx : Ctx)
  | setHostFunctions (ctx : Ctx) (funcs : Option (List HostFunction))
  | initialized
  | setInitialized
  | origin (p : Ptr) (f : DartFunction)
  | apply (f : DartFunction) (params : List DartVal)
  | print (e : DartError)
  | warn
  | newInstance (i : Instance)
deriving DecidableEq

@[reducible] def Reply : Op → Type
  | .new _ => Ptr
  | .load _ => JSValue
  | .calloc _ => Nat
  | .callocCell => Nat
  | .loadCell _ => Nat
  | .atomAt _ _ => PropKey
  | .newContext => Ctx
  | .getGlobalObject _ => JSValue
  | .eval _ _ _ => JSValue
  | .call _ _ _ _ _ => JSValue
  | .isArray _ _ => Int32
  | .toInt32 _ _ => Int32
  | .toInt64 _ _ => Int64
  | .toFloat64 _ _ => Double
  | .toCString _ _ => Option CString
  | .findAtom _ => PropKey
  | .getException _ => JSValue
  | .getProperty _ _ _ => JSValue
  | .getOwnPropertyNames _ _ => Option (List PropKey)
  | .newTable _ => Nat
  | .atomToValue _ => JSValue
  | .newObject _ => JSValue
  | .newArray _ => JSValue
  | .newString _ => JSValue
  | .setProperty _ _ _ _ => Int32
  | .defineIndex _ _ _ _ _ => Int32
  | .newCFunctionData _ _ => JSValue
  | .newCFunction _ _ => JSValue
  | .callbackRegistered => Bool
  | .lendArguments _ => Nat
  | .newList => Nat
  | .listGet _ _ => Option DartVal
  | .listLength _ => Nat
  | .listElements _ => List DartVal
  | .newMap => Nat
  | .mapEntries _ => List (MapKey × DartVal)
  | .newCache _ => Nat
  | .cacheFind _ _ => Option DartVal
  | .jsFunctions _ => Option (List Ptr)
  | .hostFunctions _ => Option (List HostFunction)
  | .initialized => Bool
  | .apply _ _ => Except DartError DartVal
  | .print _ => Except DartError Unit
  | _ => Unit

/-- Programs of the binding; Dart errors are their failures. -/
abbrev Action := Program Op Reply DartError

/-- Where an operation runs code that is not the binding's: JS code, a getter, a trap, a
conversion method, a function of the Dart program, or the `toString` of an object it threw. -/
def foreign : Op → World → Prop
  | .eval _ _ _, _ => True
  | .call _ _ _ _ _, _ => True
  | .toInt32 _ v, _ => v ≠ .exception ∧ v.toInt32? = none
  | .toInt64 _ v, _ => v ≠ .exception ∧ v.toInt64? = none
  | .toFloat64 _ v, _ => v ≠ .exception ∧ v.toFloat64? = none
  | .toCString _ (.object _), _ => True
  | .getProperty _ v k, w => w.reads v k = .code
  | .getOwnPropertyNames _ v, w => w.ownKeys v = none
  | .setProperty _ v k x, w => match w.writes v k x with
    | .code => True
    | _ => False
  | .defineIndex _ (.object o) _ _ flags, _ => ¬(o.kind = .array ∧ flags = JSProp.C_W_E)
  | .apply _ _, _ => True
  | .print (.user _), _ => True
  | _, _ => False

/-- The engine returns a new reference, or the exception marker with an exception pending. -/
def Returns (ctx : Ctx) (w : World) (r : JSValue) (w' : World) : Prop :=
  (r = .exception ∧ ∃ e, w' = w.throwing ctx e) ∨ (r ≠ .exception ∧ w' = w.credit r)

/-- The answers that follow from the world, with the world after. -/
def answer : (op : Op) → World → Option (Reply op × World)
  | .new v, w => some (.box w.boxes.length, { w with boxes := w.boxes ++ [v] })
  | .load p, w => some (w.value p, w)
  | .delete p, w => some ((), { w with released := w.released ++ [p] })
  | .calloc n, w =>
    some (w.arrays.length, { w with arrays := w.arrays ++ [List.replicate n .undefined] })
  | .store a i v, w => some ((), { w with arrays := w.arrays.modify a (·.set i v) })
  | .callocFree _, w => some ((), w)
  | .callocCell, w => some (w.cells.length, { w with cells := w.cells ++ [0] })
  | .loadCell c, w => some (w.cells.getD c 0, w)
  | .storeCell c n, w => some ((), { w with cells := w.cells.set c n })
  | .callocFreeCell _, w => some ((), w)
  | .atomAt t i, w => some ((w.tables.getD t []).getD i (.string []), w)
  | .freeRuntime ctx, w => some ((), { w with
      contexts := w.contexts.erase ctx
      cfunctions := w.cfunctions.filter (·.ctx ≠ ctx) })
  | .dupValue v, w => some ((), w.credit v)
  | .freeValue v, w => some ((), w.debit v)
  | .getGlobalObject ctx, w =>
    some (.object (w.realm ctx).global, w.credit (.object (w.realm ctx).global))
  | .isArray _ v, w => match v with
    | .object o => match o.kind with
      | .array => some (1,w)
      | .exotic _ => none
      | _ => some (0,w)
    | _ => some (0,w)
  | .toInt32 _ v, w => match v.toInt32? with
    | some n => some (n,w)
    | none => if v = .exception then some (0,w) else none
  | .toInt64 _ v, w => match v.toInt64? with
    | some n => some (n,w)
    | none => if v = .exception then some (0,w) else none
  | .toFloat64 _ v, w => match v.toFloat64? with
    | some d => some (d,w)
    | none => if v = .exception then some (.nan,w) else none
  | .toCString _ v, w => match v with
    | .string s => some (some (cString s), w.lendCString s)
    | .exception => some (none, w)
    | _ => none
  | .getException ctx, w => some ((w.pending ctx).getD .null,
      { w.credit ((w.pending ctx).getD .null) with
        pending := Function.update w.pending ctx none })
  | .getProperty _ v k, w => match w.reads v k with
    | .value x => some (x, w.credit x)
    | .code => none
  | .getOwnPropertyNames _ v, w => match w.ownKeys v with
    | some keys => some (some keys, w.holdAtoms keys)
    | none => none
  | .newTable keys, w => some (w.tables.length, { w with tables := w.tables ++ [keys] })
  | .atomToValue k, w => some (k.toValue, w.credit k.toValue)
  | .freeAtom k, w => some ((), { w with atoms := Function.update w.atoms k (w.atoms k - 1) })
  | .newString s, w => some (.string (fromUtf8 s), w.credit (.string (fromUtf8 s)))
  | .setProperty _ v k x, w => match w.writes v k x with
    | .stored h => some (1, { w.debit x with heap := h })
    | _ => none
  | .defineIndex _ v i x flags, w => match v with
    | .object o =>
      if o.kind = .array ∧ flags = JSProp.C_W_E then
        some (if (w.heap.defineIndex o i x).1 then 1 else 0,
          { w.debit x with heap := (w.heap.defineIndex o i x).2 })
      else none
    | _ => none
  | .registerCallback, w => some ((), { w with callbackRegistered := true })
  | .callbackRegistered, w => some (w.callbackRegistered, w)
  | .lendArguments args, w => some (w.arrays.length, { w with arrays := w.arrays ++ [args] })
  | .giveBack v, w => some ((), w.debit v)
  | .newList, w => some (w.lists.length,
      { w with lists := w.lists ++ [[]], building := w.lists.length :: w.building })
  | .listAdd l v, w => some ((), { w with lists := w.lists.modify l (· ++ [v]) })
  | .listGet l i, w => some ((w.lists.getD l [])[i]?, w)
  | .listLength l, w => some ((w.lists.getD l []).length, w)
  | .listElements l, w => some (w.lists.getD l [], w)
  | .listDone l, w => some ((), { w with building := w.building.filter (· ≠ l) })
  | .newMap, w => some (w.maps.length, { w with maps := w.maps ++ [.empty] })
  | .mapPut m k v, w => some ((), { w with maps := w.maps.modify m (·.insert k v) })
  | .mapEntries m, w => some ((w.maps.getD m .empty).entries, w)
  | .newCache _, w => some (w.caches.length, { w with caches := w.caches ++ [.empty] })
  | .cacheFind c o, w => some ((w.caches.getD c .empty).find o.address, w)
  | .cachePut c o v, w =>
    some ((), { w with caches := w.caches.modify c (·.insert o.address v) })
  | .handOut f, w => some ((), { w with made := w.made ++ [f] })
  | .jsFunctions ctx, w => some (w.jsFunctionCache ctx, w)
  | .setJSFunctions ctx ptrs, w =>
    some ((), { w with jsFunctionCache := Function.update w.jsFunctionCache ctx ptrs })
  | .hostFunctions ctx, w => some (w.hostFunctionCache ctx, w)
  | .setHostFunctions ctx funcs, w =>
    some ((), { w with hostFunctionCache := Function.update w.hostFunctionCache ctx funcs })
  | .initialized, w => some (w.initialized, w)
  | .setInitialized, w => some ((), { w with initialized := true })
  | .origin p f, w => match w.value p with
    | .object o => some ((), { w with origins := w.origins ++ [(o,f)] })
    | _ => some ((), w)
  | .print e, w => match e with
    | .user _ => none
    | _ => some (.ok (), w)
  | .warn, w => some ((), w)
  | .newInstance i, w => some ((), { w with instances := w.instances ++ [i] })
  | _, _ => none

/-- The answers that leave something open: the address of a new object, the error object of
a failure, the printed form of a primitive, the atom found for a name. -/
def choice : (op : Op) → World → Reply op → World → Prop
  | .newContext, w, r, w' => r ∉ w.contexts ∧ ∃ realm h n,
      (∀ o obj, w.heap.find o = some obj → h.find o = some obj) ∧ w.serial ≤ n ∧
      w' = { w with
        heap := h
        serial := n
        realm := Function.update w.realm r realm
        pending := Function.update w.pending r none
        contexts := r :: w.contexts }
  | .isArray ctx _, w, r, w' => (r = 0 ∨ r = 1) ∧ w' = w ∨ r = -1 ∧ ∃ e, w' = w.throwing ctx e
  | .toCString ctx v, w, r, w' => match v with
    | .symbol _ => r = none ∧ ∃ e, w' = w.throwing ctx e
    | _ => ∃ s, Clean s ∧ r = some (cString s) ∧ w' = w.lendCString s
  | .findAtom name, w, r, w' =>
      (r = .string (fromUtf8 name) ∨ r = .string (latin1 name)) ∧ w' = w
  | .newObject ctx, w, r, w' => ∃ address, ¬w.heap.Taken address ∧
      r = .object ⟨address,w.serial,.ordinary⟩ ∧
      w' = (w.allocate address .ordinary (w.realm ctx).objectProto).credit r
  | .newArray ctx, w, r, w' => ∃ address, ¬w.heap.Taken address ∧
      r = .object ⟨address,w.serial,.array⟩ ∧
      w' = (w.allocate address .array (w.realm ctx).arrayProto).credit r
  | .setProperty ctx _ _ x, w, r, w' => r = -1 ∧ ∃ e, w' = (w.debit x).throwing ctx e
  | .defineIndex ctx _ _ x _, w, r, w' => r = -1 ∧ ∃ e, w' = (w.debit x).throwing ctx e
  | .newCFunctionData ctx id, w, r, w' => ∃ address, ¬w.heap.Taken address ∧
      r = .object ⟨address,w.serial,.function⟩ ∧
      w' = { (w.allocate address .function (w.realm ctx).functionProto).credit r with
        cfunctions := w.cfunctions ++ [⟨⟨address,w.serial,.function⟩,ctx,id⟩] }
  | .newCFunction ctx _, w, r, w' => ∃ address, ¬w.heap.Taken address ∧
      r = .object ⟨address,w.serial,.function⟩ ∧
      w' = (w.allocate address .function (w.realm ctx).functionProto).credit r
  | _, _, _, _ => False

/-- What the operations answer where no foreign code runs. -/
def direct (op : Op) (w : World) (r : Reply op) (w' : World) : Prop :=
  match answer op w with
  | some (r₀,w₀) => r = r₀ ∧ w' = w₀
  | none => choice op w r w'

/-- How control comes back from foreign code. -/
def back : (op : Op) → World → Reply op → World → Prop
  | .eval ctx _ _, w, r, w' => Returns ctx w r w'
  | .call ctx _ _ _ _, w, r, w' => Returns ctx w r w'
  | .toInt32 ctx _, w, r, w' => w' = w ∨ r = 0 ∧ ∃ e, w' = w.throwing ctx e
  | .toInt64 ctx _, w, r, w' => w' = w ∨ r = 0 ∧ ∃ e, w' = w.throwing ctx e
  | .toFloat64 ctx _, w, r, w' => w' = w ∨ r = .nan ∧ ∃ e, w' = w.throwing ctx e
  | .toCString ctx _, w, r, w' =>
      (∃ s, r = some (cString s) ∧ w' = w.lendCString s) ∨ r = none ∧ ∃ e, w' = w.throwing ctx e
  | .getProperty ctx _ _, w, r, w' => Returns ctx w r w'
  | .getOwnPropertyNames ctx _, w, r, w' =>
      (∃ keys, r = some keys ∧ w' = w.holdAtoms keys) ∨ r = none ∧ ∃ e, w' = w.throwing ctx e
  | .setProperty ctx _ _ x, w, r, w' =>
      (0 ≤ r ∧ w' = w.debit x) ∨ r = -1 ∧ ∃ e, w' = (w.debit x).throwing ctx e
  | .defineIndex ctx _ _ x _, w, r, w' =>
      (0 ≤ r ∧ w' = w.debit x) ∨ r = -1 ∧ ∃ e, w' = (w.debit x).throwing ctx e
  | .apply _ _, w, _, w' => w' = w
  | .print _, w, _, w' => w' = w
  | _, _, _, _ => False

/-- The environment of the binding. -/
def env : Env Op Reply World := ⟨foreign, direct, back⟩

def perform (op : Op) : Action (Reply op) := .call op

/-- What the engine and the Dart program do between two operations of the binding: JS objects
come and go and change, but an object the binding holds stays; Dart containers change, except
those a conversion is still building. -/
structure Evolves (w w' : World) : Prop where
  rest : w' = { w with heap := w'.heap, serial := w'.serial, lists := w'.lists, maps := w'.maps }
  serial : w.serial ≤ w'.serial
  kept : ∀ o, 0 < w.held (.object o) → w.heap.Live o → w'.heap.Live o
  fresh : ∀ o, w'.heap.Live o → w.heap.Live o ∨ w.serial ≤ o.serial ∧ o.serial < w'.serial
  lists : ∀ l ∈ w.building, w'.lists[l]? = w.lists[l]?
  lengths : w.lists.length ≤ w'.lists.length ∧ w.maps.length ≤ w'.maps.length

section

open Effect

variable {S : Setting Op Reply World} {op : Op} {Q : Except DartError (Reply op) → World → Prop}
  {w : World}

section

attribute [local simp] foreign answer

theorem own_of_answer {a : Reply op × World} (known : answer op w = some a) : ¬foreign op w := by
  cases op <;> try exact id
  all_goals
    intro runs
    simp only [foreign, answer] at runs known
    try split at known
    all_goals simp_all

end

/-- What is left to show after an operation whose answer follows from the world, or does not. -/
def continues (S : Setting Op Reply World) (op : Op)
    (Q : Except DartError (Reply op) → World → Prop) (w : World) :
    Option (Reply op × World) → Prop
  | some (r,w') => (S.total → S.allowed op w r) ∧ (S.allowed op w r → Q (.ok r) w')
  | none => (S.total → ∃ r w', env.answers S op w r w') ∧
      ∀ r w', env.answers S op w r w' → Q (.ok r) w'

@[simp] theorem continues_some (r : Reply op) (w' : World) :
    continues S op Q w (some (r,w')) ↔
      (S.total → S.allowed op w r) ∧ (S.allowed op w r → Q (.ok r) w') := Iff.rfl

theorem wp_perform :
    wp env S (perform op) Q w ↔ S.guard op w ∧ continues S op Q w (answer op w) := by
  cases known : answer op w with
  | none => exact Iff.rfl
  | some a =>
    obtain ⟨r, w'⟩ := a
    refine wp_determined (own_of_answer known) fun r₁ w₁ => ?_
    change direct op w r₁ w₁ ↔ _
    rw [direct, known]

/-- An operation with several answers. -/
theorem wp_choice (own : ¬foreign op w) (unknown : answer op w = none) :
    wp env S (perform op) Q w ↔ S.guard op w ∧
      (S.total → ∃ r w', S.allowed op w r ∧ choice op w r w') ∧
      ∀ r w', S.allowed op w r → choice op w r w' → Q (.ok r) w' := by
  have same : ∀ r w', direct op w r w' ↔ choice op w r w' := by
    intro r w'
    rw [direct, unknown]
  unfold perform
  rw [wp_direct (show ¬env.foreign op w from own)]
  simp only [env, same]

theorem wp_outside (runs : foreign op w) :
    wp env S (perform op) Q w ↔ S.guard op w ∧
      (S.total → ∃ r w', S.allowed op w r ∧ ∃ w₁, S.rely w w₁ ∧ back op w₁ r w') ∧
      ∀ r w₁ w', S.allowed op w r → S.rely w w₁ → back op w₁ r w' → Q (.ok r) w' :=
  wp_foreign (E := env) runs

end

end FlutterQuickjs.Binding
