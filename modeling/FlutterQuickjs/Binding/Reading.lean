import FlutterQuickjs.Binding.Convert
import FlutterQuickjs.Framework.Preserve

namespace FlutterQuickjs.Binding

open Engine ValueConverter
open Effect

/-- Operations that look values up, and wrap what they find. -/
def Reading : Op → Prop
  | .new _ => True
  | .load _ => True
  | .atomAt _ _ => True
  | .loadCell _ => True
  | .storeCell _ _ => True
  | .callocCell => True
  | .callocFreeCell _ => True
  | .isArray _ _ => True
  | .toInt32 _ _ => True
  | .toInt64 _ _ => True
  | .toFloat64 _ _ => True
  | .toCString _ _ => True
  | .getException _ => True
  | .getProperty _ _ _ => True
  | .getOwnPropertyNames _ _ => True
  | .newTable _ => True
  | .atomToValue _ => True
  | .freeAtom _ => True
  | .newList => True
  | .listAdd _ _ => True
  | .listGet _ _ => True
  | .listDone _ => True
  | .newMap => True
  | .newCache _ => True
  | .cacheFind _ _ => True
  | .handOut _ => True
  | .jsFunctions _ => True
  | .setJSFunctions _ _ => True
  | .warn => True
  | _ => False

/-- Reading operations that look into no Dart list and no cache. -/
def Looking : Op → Prop
  | .cacheFind _ _ => False
  | .newList => False
  | .listAdd _ _ => False
  | .listGet _ _ => False
  | .listDone _ => False
  | op => Reading op

theorem Looking.reading {op : Op} (looking : Looking op) : Reading op := by
  cases op with
  | cacheFind c o => exact looking.elim
  | newList => exact looking.elim
  | listAdd l v => exact looking.elim
  | listGet l i => exact looking.elim
  | listDone l => exact looking.elim
  | _ => exact looking

section

variable {ctx : Ctx} {val : Ptr} {k : PropKey}

theorem within_jsValueGetTag : (jsValueGetTag val).Within Looking :=
  .bind (.call trivial) fun _ => .pure _

theorem within_jsValueGetPtr : (jsValueGetPtr val).Within Looking := by
  refine .bind (.call trivial) fun v => ?_
  cases v with
  | object o => exact .pure o
  | _ => exact .pure _

theorem within_jsToBool : (jsToBool val).Within Looking := .bind (.call trivial) fun _ => .pure _

theorem within_jsIsFunction : (jsIsFunction val).Within Looking :=
  .bind (.call trivial) fun _ => .pure _

theorem within_jsIsObject : (jsIsObject val).Within Looking :=
  .bind (.call trivial) fun _ => .pure _

theorem within_jsIsArray : (jsIsArray ctx val).Within Looking :=
  .bind (.call trivial) fun _ => .call trivial

theorem within_jsToInt32 : (jsToInt32 ctx val).Within Looking :=
  .bind (.call trivial) fun _ => .call trivial

theorem within_jsToInt64 : (jsToInt64 ctx val).Within Looking :=
  .bind (.call trivial) fun _ => .call trivial

theorem within_jsToFloat64 : (jsToFloat64 ctx val).Within Looking :=
  .bind (.call trivial) fun _ => .call trivial

theorem within_jsToCString : (jsToCString ctx val).Within Looking :=
  .bind (.call trivial) fun _ => .call trivial

theorem within_jsGetException : (jsGetException ctx).Within Looking :=
  .bind (.call trivial) fun _ => .call trivial

theorem within_jsAtomToValue : (jsAtomToValue k).Within Looking :=
  .bind (.call trivial) fun _ => .call trivial

theorem within_jsGetProperty : (jsGetProperty ctx val k).Within Looking :=
  .bind (.call trivial) fun _ => .bind (.call trivial) fun _ => .call trivial

theorem within_jsGetOwnPropertyNames {ptab plen : Nat} :
    (jsGetOwnPropertyNames ctx ptab plen val).Within Looking := by
  refine .bind (.call trivial) fun v => .bind (.call trivial) fun keys => ?_
  cases keys with
  | none =>
    exact .bind (.call trivial) fun _ => .bind (.call trivial) fun _ => .pure _
  | some keys =>
    exact .bind (.call trivial) fun _ => .bind (.call trivial) fun _ =>
      .bind (.call trivial) fun _ => .pure _

theorem within_make (cls : JSClass) : (JSRef.make cls ctx val false).Within Looking := by
  by_cases function : cls = .function
  · simp only [JSRef.make, function, if_true]
    exact .bind (.pure _) fun _ => .bind (.call trivial) fun _ =>
      .bind (.call trivial) fun _ => .pure _
  · simp only [JSRef.make, function, if_false]
    exact .bind (.pure _) fun _ => .pure _

theorem within_toDartJSValue : (toDartJSValue ctx val false).Within Looking :=
  .bind within_jsIsFunction fun _ => .ite (within_make _) <|
    .bind within_jsIsArray fun _ => .ite (within_make _) <|
      .bind within_jsIsObject fun _ => .ite (within_make _) (within_make _)

theorem within_dartString [PackageFfi] (bytes : Option CString) :
    (dartString bytes).Within Looking := by
  unfold dartString
  split
  · exact .throw _
  · split
    · exact .pure _
    · exact .throw _

/-- Looking, and giving references back. -/
def Releasing : Op → Prop
  | .freeValue _ => True
  | .delete _ => True
  | op => Looking op

theorem Looking.releasing {op : Op} (looking : Looking op) : Releasing op := by
  cases op with
  | freeValue v => trivial
  | delete p => trivial
  | _ => exact looking

theorem within_jsFreeValue : (jsFreeValue val).Within Releasing :=
  .bind (.call trivial) fun _ => .bind (.call trivial) fun _ => .call trivial

theorem within_freeUnlessFunction : (freeUnlessFunction val).Within Releasing :=
  .bind (.mono within_jsIsFunction fun _ => Looking.releasing) fun _ => .ite (.pure _) within_jsFreeValue

theorem within_toDartException [PackageFfi] : (toDartException ctx val).Within Releasing := by
  refine .bind (.mono within_jsToCString fun _ => Looking.releasing) fun bytes => ?_
  refine .bind (.mono (within_dartString bytes) fun _ => Looking.releasing) fun err => ?_
  refine .bind (.mono within_jsValueGetTag fun _ => Looking.releasing) fun tag => ?_
  refine .ite ?_ (.pure _)
  rw [jsGetPropertyStr_stack]
  refine .bind (.mono within_jsGetProperty fun _ => Looking.releasing) fun stack => ?_
  refine .bind (.mono within_jsToBool fun _ => Looking.releasing) fun truthy => ?_
  have rest : ∀ err : Units, Program.Within Releasing (do
      jsFreeValue stack
      return err : Action Units) := fun err => .bind within_jsFreeValue fun _ => .pure err
  refine .ite ?_ (.bind (.pure _) rest)
  refine .bind (.mono within_jsToCString fun _ => Looking.releasing) fun bytes => ?_
  refine .bind (.mono (within_dartString bytes) fun _ => Looking.releasing) fun trace => ?_
  exact .bind (.pure _) rest

end

/-- A relation between worlds that every reading operation keeps. -/
structure Kept (S : Setting Op Reply World) (R : World → World → Prop) : Prop where
  follows : Follows R
  reads : ∀ op, Reading op → Preserves env S R (perform op)

namespace Kept

variable {S : Setting Op Reply World} {R : World → World → Prop} {ctx : Ctx} {val : Ptr}

theorem of_within (kept : Kept S R) {α : Type} {p : Action α} (within : p.Within Looking) :
    Preserves env S R p :=
  .of_within kept.follows (fun op looking => kept.reads op looking.reading) within

theorem jsValueGetTag (kept : Kept S R) : Preserves env S R (jsValueGetTag val) :=
  kept.of_within within_jsValueGetTag

theorem jsValueGetPtr (kept : Kept S R) : Preserves env S R (jsValueGetPtr val) :=
  kept.of_within within_jsValueGetPtr

theorem jsToBool (kept : Kept S R) : Preserves env S R (jsToBool val) :=
  kept.of_within within_jsToBool

theorem jsIsFunction (kept : Kept S R) : Preserves env S R (jsIsFunction val) :=
  kept.of_within within_jsIsFunction

theorem jsIsArray (kept : Kept S R) : Preserves env S R (jsIsArray ctx val) :=
  kept.of_within within_jsIsArray

theorem jsToInt32 (kept : Kept S R) : Preserves env S R (jsToInt32 ctx val) :=
  kept.of_within within_jsToInt32

theorem jsToInt64 (kept : Kept S R) : Preserves env S R (jsToInt64 ctx val) :=
  kept.of_within within_jsToInt64

theorem jsToFloat64 (kept : Kept S R) : Preserves env S R (jsToFloat64 ctx val) :=
  kept.of_within within_jsToFloat64

theorem jsToCString (kept : Kept S R) : Preserves env S R (jsToCString ctx val) :=
  kept.of_within within_jsToCString

theorem jsGetException (kept : Kept S R) : Preserves env S R (jsGetException ctx) :=
  kept.of_within within_jsGetException

theorem jsAtomToValue (kept : Kept S R) {k : PropKey} : Preserves env S R (jsAtomToValue k) :=
  kept.of_within within_jsAtomToValue

theorem jsGetProperty (kept : Kept S R) {k : PropKey} : Preserves env S R (jsGetProperty ctx val k) :=
  kept.of_within within_jsGetProperty

theorem jsGetOwnPropertyNames (kept : Kept S R) {ptab plen : Nat} :
    Preserves env S R (jsGetOwnPropertyNames ctx ptab plen val) :=
  kept.of_within within_jsGetOwnPropertyNames

theorem toDartJSValue (kept : Kept S R) : Preserves env S R (toDartJSValue ctx val false) :=
  kept.of_within within_toDartJSValue

theorem dartString [PackageFfi] (kept : Kept S R) (bytes : Option CString) :
    Preserves env S R (dartString bytes) :=
  kept.of_within (within_dartString bytes)

end Kept

end FlutterQuickjs.Binding
