import FlutterQuickjs.Conversion.Graphs
import FlutterQuickjs.Framework.Memory

namespace FlutterQuickjs.Conversion

open Engine Binding
open Effect

/-- A function is never looked up at the address of a cached container. -/
def SoundLookup : Op → World → Prop
  | .cacheFind c o, w => (JSValue.object o).isFunction = true →
      (w.caches.getD c .empty).find o.address = none
  | _, _ => True

/-- No operation runs foreign code, and every lookup is sound. -/
def quiet (rely : World → World → Prop) (total : Prop) : Setting Op Reply World :=
  ⟨rely, fun op w => ¬foreign op w ∧ SoundLookup op w, fun _ _ _ => True, total⟩

section

variable {rely : World → World → Prop} {total : Prop} {w : World}

theorem quiet_answer (op : Op) {Q : Except DartError (Reply op) → World → Prop} {r : Reply op}
    {w' : World} (known : answer op w = some (r,w')) (sound : SoundLookup op w) :
    wp env (quiet rely total) (perform op) Q w ↔ Q (.ok r) w' := by
  rw [wp_perform, known, continues_some]
  simp [quiet, own_of_answer known, sound]

end

end FlutterQuickjs.Conversion

namespace FlutterQuickjs.Binding.World

open Engine

/-- A new box, for a reference counted elsewhere. -/
def addBox (w : World) (v : JSValue) : World := { w with boxes := w.boxes ++ [v] }

/-- A new box with a reference of its own. -/
def fetch (w : World) (v : JSValue) : World := (w.credit v).addBox v

/-- `jsFreeValue`. -/
def free (w : World) (p : Ptr) : World :=
  { w.debit (w.value p) with released := w.released ++ [p] }

def register (w : World) (ctx : Ctx) (p : Ptr) : World :=
  { w with jsFunctionCache :=
      Function.update w.jsFunctionCache ctx (some ((w.jsFunctionCache ctx).getD [] ++ [p])) }

/-- Wrapping a pointer in a Dart object registers it when it holds a function. -/
def wrap (w : World) (ctx : Ctx) (p : Ptr) : World :=
  if (w.value p).isFunction then w.register ctx p else w

def newList (w : World) : World :=
  { w with lists := w.lists ++ [[]], building := w.lists.length :: w.building }

def newMap (w : World) : World := { w with maps := w.maps ++ [.empty] }

def callocCell (w : World) : World := { w with cells := w.cells ++ [0] }

def newCache (w : World) : World := { w with caches := w.caches ++ [.empty] }

def cache (w : World) (c : Nat) (o : ObjRef) (d : DartVal) : World :=
  { w with caches := w.caches.modify c (·.insert o.address d) }

/-- The keys of an object, in a table that the two cells describe. -/
def listKeys (w : World) (keys : List PropKey) (ptab plen : Nat) : World :=
  { w.holdAtoms keys with
    tables := w.tables ++ [keys]
    cells := (w.cells.set ptab w.tables.length).set plen keys.length }

/-- The box of a property that has just been read. -/
def lastBox (w : World) : Ptr := .box w.boxes.length

end FlutterQuickjs.Binding.World

namespace FlutterQuickjs.Conversion

open Engine Binding
open Effect

/-- The class that `toDartJSValue` picks. -/
def classOf (v : JSValue) : JSClass :=
  if v.isFunction then .function
  else match v with
    | .object o => if o.kind = .array then .array else .object
    | _ => .value

section

variable {rely : World → World → Prop} {total : Prop} {w : World} {ctx : Ctx} {p : Ptr}

@[simp] theorem quiet_load {Q : Except DartError JSValue → World → Prop} :
    wp (α := JSValue) env (quiet rely total) (perform (.load p)) Q w ↔ Q (.ok (w.value p)) w :=
  quiet_answer _ rfl trivial

@[simp] theorem quiet_new {v : JSValue} {Q : Except DartError Ptr → World → Prop} :
    wp (α := Ptr) env (quiet rely total) (perform (.new v)) Q w ↔
      Q (.ok w.lastBox) (w.addBox v) :=
  quiet_answer _ rfl trivial

@[simp] theorem quiet_newList {Q : Except DartError Nat → World → Prop} :
    wp (α := Nat) env (quiet rely total) (perform .newList) Q w ↔
      Q (.ok w.lists.length) w.newList :=
  quiet_answer _ rfl trivial

@[simp] theorem quiet_newMap {Q : Except DartError Nat → World → Prop} :
    wp (α := Nat) env (quiet rely total) (perform .newMap) Q w ↔ Q (.ok w.maps.length) w.newMap :=
  quiet_answer _ rfl trivial

@[simp] theorem quiet_callocCell {Q : Except DartError Nat → World → Prop} :
    wp (α := Nat) env (quiet rely total) (perform .callocCell) Q w ↔
      Q (.ok w.cells.length) w.callocCell :=
  quiet_answer _ rfl trivial

@[simp] theorem quiet_loadCell {cell : Nat} {Q : Except DartError Nat → World → Prop} :
    wp (α := Nat) env (quiet rely total) (perform (.loadCell cell)) Q w ↔
      Q (.ok (w.cells.getD cell 0)) w :=
  quiet_answer _ rfl trivial

@[simp] theorem quiet_callocFreeCell {cell : Nat} {Q : Except DartError Unit → World → Prop} :
    wp (α := Unit) env (quiet rely total) (perform (.callocFreeCell cell)) Q w ↔ Q (.ok ()) w :=
  quiet_answer _ rfl trivial

@[simp] theorem quiet_newCache {o : ObjRef} {Q : Except DartError Nat → World → Prop} :
    wp (α := Nat) env (quiet rely total) (perform (.newCache o)) Q w ↔
      Q (.ok w.caches.length) w.newCache :=
  quiet_answer _ rfl trivial

@[simp] theorem quiet_cachePut {c : Nat} {o : ObjRef} {d : DartVal}
    {Q : Except DartError Unit → World → Prop} :
    wp (α := Unit) env (quiet rely total) (perform (.cachePut c o d)) Q w ↔
      Q (.ok ()) (w.cache c o d) :=
  quiet_answer _ rfl trivial

@[simp] theorem quiet_jsValueGetTag {Q : Except DartError Int → World → Prop} :
    wp env (quiet rely total) (jsValueGetTag p) Q w ↔ Q (.ok (w.value p).tag) w := by
  simp [jsValueGetTag]

@[simp] theorem quiet_jsIsFunction {Q : Except DartError Bool → World → Prop} :
    wp env (quiet rely total) (jsIsFunction p) Q w ↔ Q (.ok (w.value p).isFunction) w := by
  simp [jsIsFunction]

@[simp] theorem quiet_jsIsObject {Q : Except DartError Bool → World → Prop} :
    wp env (quiet rely total) (jsIsObject p) Q w ↔
      Q (.ok ((w.value p).tag == JSTag.OBJECT)) w := by
  simp [jsIsObject]

@[simp] theorem quiet_jsToBool {Q : Except DartError Int32 → World → Prop} :
    wp env (quiet rely total) (jsToBool p) Q w ↔ Q (.ok (w.value p).toBool) w := by
  simp [jsToBool]

theorem quiet_jsValueGetPtr {o : ObjRef} {Q : Except DartError ObjRef → World → Prop}
    (holds : w.value p = .object o) :
    wp env (quiet rely total) (jsValueGetPtr p) Q w ↔ Q (.ok o) w := by
  simp [jsValueGetPtr, holds]

theorem quiet_jsIsArray {Q : Except DartError Int32 → World → Prop} {v : JSValue} {r : Int32}
    (holds : w.value p = v) (known : answer (.isArray ctx v) w = some (r,w)) :
    wp env (quiet rely total) (jsIsArray ctx p) Q w ↔ Q (.ok r) w := by
  rw [jsIsArray, wp_bind, quiet_load, andThen_ok, holds]
  exact quiet_answer _ known trivial

theorem quiet_jsToInt32 {Q : Except DartError Int32 → World → Prop} {n : Int32}
    (known : (w.value p).toInt32? = some n) :
    wp env (quiet rely total) (jsToInt32 ctx p) Q w ↔ Q (.ok n) w := by
  rw [jsToInt32, wp_bind, quiet_load, andThen_ok]
  exact quiet_answer _ (by simp only [answer, known]) trivial

theorem quiet_jsToInt64 {Q : Except DartError Int64 → World → Prop} {n : Int64}
    (known : (w.value p).toInt64? = some n) :
    wp env (quiet rely total) (jsToInt64 ctx p) Q w ↔ Q (.ok n) w := by
  rw [jsToInt64, wp_bind, quiet_load, andThen_ok]
  exact quiet_answer _ (by simp only [answer, known]) trivial

theorem quiet_jsToFloat64 {Q : Except DartError Double → World → Prop} {d : Double}
    (known : (w.value p).toFloat64? = some d) :
    wp env (quiet rely total) (jsToFloat64 ctx p) Q w ↔ Q (.ok d) w := by
  rw [jsToFloat64, wp_bind, quiet_load, andThen_ok]
  exact quiet_answer _ (by simp only [answer, known]) trivial

theorem quiet_jsToCString {Q : Except DartError (Option CString) → World → Prop} {s : Units}
    (holds : w.value p = .string s) :
    wp env (quiet rely total) (jsToCString ctx p) Q w ↔
      Q (.ok (some (cString s))) (w.lendCString s) := by
  rw [jsToCString, wp_bind, quiet_load, andThen_ok, holds]
  exact quiet_answer _ rfl trivial

theorem quiet_jsGetProperty {Q : Except DartError Ptr → World → Prop} {k : PropKey}
    {x : JSValue} (reads : w.reads (w.value p) k = .value x) :
    wp env (quiet rely total) (jsGetProperty ctx p k) Q w ↔ Q (.ok w.lastBox) (w.fetch x) := by
  have known : answer (.getProperty ctx (w.value p) k) w = some (x, w.credit x) := by
    simp only [answer, reads]
  rw [jsGetProperty, wp_bind, quiet_load, andThen_ok, wp_bind, quiet_answer _ known trivial,
    andThen_ok, quiet_new]
  exact Iff.rfl

theorem quiet_jsGetOwnPropertyNames {Q : Except DartError Int32 → World → Prop} {ptab plen : Nat}
    {keys : List PropKey} (known : w.ownKeys (w.value p) = some keys) :
    wp env (quiet rely total) (jsGetOwnPropertyNames ctx ptab plen p) Q w ↔
      Q (.ok 0) (w.listKeys keys ptab plen) := by
  have names : answer (.getOwnPropertyNames ctx (w.value p)) w =
      some (some keys, w.holdAtoms keys) := by
    simp only [answer, known]
  rw [jsGetOwnPropertyNames, wp_bind, quiet_load, andThen_ok, wp_bind, quiet_answer _ names trivial,
    andThen_ok, wp_bind, quiet_answer (.newTable keys) rfl trivial, andThen_ok, wp_bind,
    quiet_answer (.storeCell ptab _) rfl trivial, andThen_ok, wp_bind,
    quiet_answer (.storeCell plen _) rfl trivial, andThen_ok, wp_pure]
  exact Iff.rfl

@[simp] theorem quiet_jsFreeValue {Q : Except DartError Unit → World → Prop} :
    wp env (quiet rely total) (jsFreeValue p) Q w ↔ Q (.ok ()) (w.free p) := by
  have debited : answer (.freeValue (w.value p)) w = some ((), w.debit (w.value p)) := rfl
  have deleted : answer (.delete p) (w.debit (w.value p)) = some ((), w.free p) := rfl
  rw [jsFreeValue, wp_bind, quiet_load, andThen_ok, wp_bind, quiet_answer _ debited trivial,
    andThen_ok, quiet_answer _ deleted trivial]

theorem quiet_make {cls : JSClass} {Q : Except DartError JSRef → World → Prop} :
    wp env (quiet rely total) (JSRef.make cls ctx p false) Q w ↔
      Q (.ok ⟨cls,ctx,p⟩) (if cls = .function then w.register ctx p else w) := by
  have read : answer (.jsFunctions ctx) w = some (w.jsFunctionCache ctx, w) := rfl
  have written : answer (.setJSFunctions ctx (some ((w.jsFunctionCache ctx).getD [] ++ [p]))) w =
      some ((), w.register ctx p) := rfl
  rw [JSRef.make]
  by_cases function : cls = .function
  · simp only [function, if_true, Bool.false_eq_true, if_false, wp_bind, wp_pure, andThen_ok]
    rw [quiet_answer _ read trivial, andThen_ok, wp_bind, quiet_answer _ written trivial]
    exact Iff.rfl
  · simp [function]

theorem quiet_toDartJSValue {Q : Except DartError JSRef → World → Prop}
    (plain : ∀ o callable, w.value p = .object o → o.kind ≠ .exotic callable) :
    wp env (quiet rely total) (ValueConverter.toDartJSValue ctx p false) Q w ↔
      Q (.ok ⟨classOf (w.value p),ctx,p⟩) (w.wrap ctx p) := by
  simp only [ValueConverter.toDartJSValue, wp_bind, quiet_jsIsFunction, andThen_ok, wp_ite,
    World.wrap, classOf]
  by_cases function : (w.value p).isFunction = true
  · simp [function, quiet_make]
  · simp only [function, Bool.false_eq_true, false_implies, not_false_eq_true, forall_const,
      true_and, if_false]
    cases holds : w.value p with
    | object o =>
      cases kind : o.kind with
      | exotic callable => exact absurd kind (plain o callable holds)
      | array =>
        rw [quiet_jsIsArray (r := 1) holds (by simp only [answer, kind])]
        simp [quiet_make, kind]
      | ordinary =>
        rw [quiet_jsIsArray (r := 0) holds (by simp only [answer, kind])]
        simp [quiet_make, kind, holds, JSValue.tag]
      | function =>
        rw [quiet_jsIsArray (r := 0) holds (by simp only [answer, kind])]
        simp [quiet_make, kind, holds, JSValue.tag]
    | _ =>
      rw [quiet_jsIsArray (r := 0) holds rfl]
      simp [quiet_make, holds, JSValue.tag, JSTag.OBJECT, JSTag.INT, JSTag.BOOL, JSTag.NULL,
        JSTag.UNDEFINED, JSTag.EXCEPTION, JSTag.FLOAT64, JSTag.STRING, JSTag.SYMBOL, JSTag.BIG_INT]

end

end FlutterQuickjs.Conversion
