import FlutterQuickjs.Binding.Answers

namespace FlutterQuickjs.Binding

open Engine
open Effect

/-- Operations that make, fill or finish a Dart list. -/
def Lists : Op → Prop
  | .newList => True
  | .listAdd _ _ => True
  | .listDone _ => True
  | _ => False

/-- Operations that make or fill an argument vector. -/
def Vectors : Op → Prop
  | .calloc _ => True
  | .store _ _ _ => True
  | .lendArguments _ => True
  | _ => False

/-- Lists and argument vectors change only through the operations that are there for it. -/
structure Steady (op : Op) (w w' : World) : Prop where
  arrays : ¬Vectors op → w'.arrays = w.arrays
  lists : ¬Lists op → w'.lists = w.lists
  building : ¬Lists op → w'.building = w.building

theorem Steady.of_eq {op : Op} {w w' : World} (arrays : w'.arrays = w.arrays)
    (lists : w'.lists = w.lists) (building : w'.building = w.building) : Steady op w w' :=
  ⟨fun _ => arrays, fun _ => lists, fun _ => building⟩

theorem steady_direct {op : Op} {w w' : World} {r : Reply op} (answered : direct op w r w') :
    Steady op w w' := by
  cases op with
  | calloc n =>
    obtain ⟨-, rfl⟩ := answered
    exact ⟨fun other => absurd trivial other, fun _ => rfl, fun _ => rfl⟩
  | store a i v =>
    obtain ⟨-, rfl⟩ := answered
    exact ⟨fun other => absurd trivial other, fun _ => rfl, fun _ => rfl⟩
  | lendArguments args =>
    obtain ⟨-, rfl⟩ := answered
    exact ⟨fun other => absurd trivial other, fun _ => rfl, fun _ => rfl⟩
  | newList =>
    obtain ⟨-, rfl⟩ := answered
    exact ⟨fun _ => rfl, fun other => absurd trivial other, fun other => absurd trivial other⟩
  | listAdd l v =>
    obtain ⟨-, rfl⟩ := answered
    exact ⟨fun _ => rfl, fun other => absurd trivial other, fun other => absurd trivial other⟩
  | listDone l =>
    obtain ⟨-, rfl⟩ := answered
    exact ⟨fun _ => rfl, fun other => absurd trivial other, fun other => absurd trivial other⟩
  | isArray ctx v => obtain ⟨-, rfl⟩ | ⟨-, e, rfl⟩ := direct_isArray answered <;> exact .of_eq rfl rfl rfl
  | toInt32 ctx v =>
    rw [direct_toInt32 answered]
    exact .of_eq rfl rfl rfl
  | toInt64 ctx v =>
    rw [direct_toInt64 answered]
    exact .of_eq rfl rfl rfl
  | toFloat64 ctx v =>
    rw [direct_toFloat64 answered]
    exact .of_eq rfl rfl rfl
  | toCString ctx v =>
    obtain ⟨s, -, -, rfl⟩ | ⟨-, ⟨-, rfl⟩ | ⟨-, e, rfl⟩⟩ := direct_toCString answered <;>
      exact .of_eq rfl rfl rfl
  | getProperty ctx v k =>
    rw [(direct_getProperty answered).2]
    exact .of_eq rfl rfl rfl
  | getOwnPropertyNames ctx v =>
    obtain ⟨keys, -, -, rfl⟩ := direct_getOwnPropertyNames answered
    exact .of_eq rfl rfl rfl
  | setProperty ctx v k x =>
    obtain ⟨heap, -, rfl⟩ | ⟨-, e, rfl⟩ := direct_setProperty answered <;> exact .of_eq rfl rfl rfl
  | defineIndex ctx v i x flags =>
    obtain ⟨heap, rfl⟩ | ⟨-, e, rfl⟩ := direct_defineIndex answered <;> exact .of_eq rfl rfl rfl
  | origin p f =>
    obtain rfl | ⟨o, -, rfl⟩ := direct_origin answered <;> exact .of_eq rfl rfl rfl
  | newContext =>
    obtain ⟨-, realm, h, n, -, -, rfl⟩ := answered
    exact .of_eq rfl rfl rfl
  | newObject ctx =>
    obtain ⟨address, -, -, rfl⟩ := answered
    exact .of_eq rfl rfl rfl
  | newArray ctx =>
    obtain ⟨address, -, -, rfl⟩ := answered
    exact .of_eq rfl rfl rfl
  | newCFunctionData ctx n =>
    obtain ⟨address, -, -, rfl⟩ := answered
    exact .of_eq rfl rfl rfl
  | newCFunction ctx name =>
    obtain ⟨address, -, -, rfl⟩ := answered
    exact .of_eq rfl rfl rfl
  | eval ctx input filename => exact answered.elim
  | call ctx f this argc argv => exact answered.elim
  | apply f params => exact answered.elim
  | print e =>
    rw [direct_print answered]
    exact .of_eq rfl rfl rfl
  | _ =>
    obtain ⟨-, rfl⟩ := answered
    exact .of_eq rfl rfl rfl

theorem steady_back {op : Op} {w w' : World} {r : Reply op} (returned : back op w r w') :
    Steady op w w' := by
  cases op with
  | eval ctx input filename =>
    obtain ⟨-, e, rfl⟩ | ⟨-, rfl⟩ := returned <;> exact .of_eq rfl rfl rfl
  | call ctx f this argc argv =>
    obtain ⟨-, e, rfl⟩ | ⟨-, rfl⟩ := returned <;> exact .of_eq rfl rfl rfl
  | getProperty ctx v k =>
    obtain ⟨-, e, rfl⟩ | ⟨-, rfl⟩ := returned <;> exact .of_eq rfl rfl rfl
  | toInt32 ctx v => obtain rfl | ⟨-, e, rfl⟩ := returned <;> exact .of_eq rfl rfl rfl
  | toInt64 ctx v => obtain rfl | ⟨-, e, rfl⟩ := returned <;> exact .of_eq rfl rfl rfl
  | toFloat64 ctx v => obtain rfl | ⟨-, e, rfl⟩ := returned <;> exact .of_eq rfl rfl rfl
  | toCString ctx v =>
    obtain ⟨s, -, rfl⟩ | ⟨-, e, rfl⟩ := returned <;> exact .of_eq rfl rfl rfl
  | getOwnPropertyNames ctx v =>
    obtain ⟨keys, -, rfl⟩ | ⟨-, e, rfl⟩ := returned <;> exact .of_eq rfl rfl rfl
  | setProperty ctx v k x =>
    obtain ⟨-, rfl⟩ | ⟨-, e, rfl⟩ := returned <;> exact .of_eq rfl rfl rfl
  | defineIndex ctx v i x flags =>
    obtain ⟨-, rfl⟩ | ⟨-, e, rfl⟩ := returned <;> exact .of_eq rfl rfl rfl
  | apply f params | print e =>
    cases returned
    exact .of_eq rfl rfl rfl
  | _ => exact returned.elim

end FlutterQuickjs.Binding
