import FlutterQuickjs.Binding.Convert

namespace FlutterQuickjs.Binding

open Engine
open Effect

section

variable {rely : World → World → Prop} {total : Prop} {w : World} {ctx : Ctx} {p : Ptr}
  {v : JSValue}

/-- An operation whose answer follows from the world, on no terms. -/
theorem plain_answer (op : Op) {Q : Except DartError (Reply op) → World → Prop} {r : Reply op}
    {w' : World} (known : answer op w = some (r,w')) :
    wp env (.plain rely total) (perform op) Q w ↔ Q (.ok r) w' := by
  rw [wp_perform, known, continues_some]
  simp

@[simp] theorem plain_load {Q : Except DartError JSValue → World → Prop} :
    wp (α := JSValue) env (.plain rely total) (perform (.load p)) Q w ↔ Q (.ok (w.value p)) w :=
  plain_answer _ rfl

@[simp] theorem plain_new {Q : Except DartError Ptr → World → Prop} :
    wp (α := Ptr) env (.plain rely total) (perform (.new v)) Q w ↔
      Q (.ok (.box w.boxes.length)) { w with boxes := w.boxes ++ [v] } :=
  plain_answer _ rfl

@[simp] theorem plain_jsValueGetTag {Q : Except DartError Int → World → Prop} :
    wp env (.plain rely total) (jsValueGetTag p) Q w ↔ Q (.ok (w.value p).tag) w := by
  simp [jsValueGetTag]

@[simp] theorem plain_jsIsFunction {Q : Except DartError Bool → World → Prop} :
    wp env (.plain rely total) (jsIsFunction p) Q w ↔ Q (.ok (w.value p).isFunction) w := by
  simp [jsIsFunction]

@[simp] theorem plain_jsIsObject {Q : Except DartError Bool → World → Prop} :
    wp env (.plain rely total) (jsIsObject p) Q w ↔
      Q (.ok ((w.value p).tag == JSTag.OBJECT)) w := by
  simp [jsIsObject]

@[simp] theorem plain_jsToBool {Q : Except DartError Int32 → World → Prop} :
    wp env (.plain rely total) (jsToBool p) Q w ↔ Q (.ok (w.value p).toBool) w := by
  simp [jsToBool]

/-- `toDartJSValue` of a value that is no object. -/
theorem plain_toDartJSValue {Q : Except DartError JSRef → World → Prop}
    (leaf : ∀ o, w.value p ≠ .object o) :
    wp env (.plain rely total) (ValueConverter.toDartJSValue ctx p false) Q w ↔
      Q (.ok ⟨.value,ctx,p⟩) w := by
  have noFunction : (w.value p).isFunction = false := by
    cases holds : w.value p with
    | object o => exact absurd holds (leaf o)
    | _ => rfl
  have noArray : answer (.isArray ctx (w.value p)) w = some (0,w) := by
    cases holds : w.value p with
    | object o => exact absurd holds (leaf o)
    | _ => rfl
  have noObject : ((w.value p).tag == JSTag.OBJECT) = false := by
    cases holds : w.value p with
    | object o => exact absurd holds (leaf o)
    | _ => rfl
  simp only [ValueConverter.toDartJSValue, wp_bind, plain_jsIsFunction, andThen_ok, noFunction,
    Bool.false_eq_true, if_false]
  rw [jsIsArray, wp_bind, plain_load, andThen_ok, plain_answer _ noArray, andThen_ok]
  simp only [ne_eq, not_true_eq_false, if_false, wp_bind, plain_jsIsObject, andThen_ok, noObject,
    Bool.false_eq_true, JSRef.make, wp_pure, reduceCtorEq]

end

variable [PackageFfi] {rely : World → World → Prop} {total : Prop} {w : World} {n : Nat}

end FlutterQuickjs.Binding
