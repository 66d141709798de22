import FlutterQuickjs.Binding.Answers
import FlutterQuickjs.Framework.Memory

namespace FlutterQuickjs.Binding

open Engine
open Effect

/-- Operations that move references, or the list of registered pointers. -/
def Moving : Op → Prop
  | .dupValue _ => True
  | .freeValue _ => True
  | .getGlobalObject _ => True
  | .eval _ _ _ => True
  | .call _ _ _ _ _ => True
  | .getException _ => True
  | .getProperty _ _ _ => True
  | .getOwnPropertyNames _ _ => True
  | .atomToValue _ => True
  | .freeAtom _ => True
  | .newObject _ => True
  | .newArray _ => True
  | .newString _ => True
  | .setProperty _ _ _ _ => True
  | .defineIndex _ _ _ _ _ => True
  | .newCFunctionData _ _ => True
  | .newCFunction _ _ => True
  | .giveBack _ => True
  | .setJSFunctions _ _ => True
  | _ => False

/-- Operations that fill a map or a cache. -/
def Fills : Op → Prop
  | .mapPut _ _ _ => True
  | .cachePut _ _ _ => True
  | _ => False

/-- What an operation leaves as it is, unless it is there to change it. -/
structure Frame (op : Op) (w w' : World) : Prop where
  boxes : Keeps w.boxes w'.boxes
  tables : Keeps w.tables w'.tables
  cells : w.cells.length ≤ w'.cells.length
  caches : ¬Fills op → w'.caches = w.caches ∨ w'.caches = w.caches ++ [.empty]
  maps : ¬Fills op → w'.maps = w.maps ∨ w'.maps = w.maps ++ [.empty]
  held : ¬Moving op → w'.held = w.held
  atoms : ¬Moving op → w'.atoms = w.atoms
  registered : ¬Moving op → w'.jsFunctionCache = w.jsFunctionCache
  lent : ∀ s, w.cstrings s ≤ w'.cstrings s

namespace Frame

variable {op : Op} {w w' : World}

theorem refl (op : Op) (w : World) : Frame op w w where
  boxes := .refl _
  tables := .refl _
  cells := le_rfl
  caches _ := .inl rfl
  maps _ := .inl rfl
  held _ := rfl
  atoms _ := rfl
  registered _ := rfl
  lent _ := le_rfl

/-- An operation there to move references. -/
theorem moving (op : Op) (moves : Moving op) (w : World) (held : JSValue → Int) (atoms : PropKey → Int)
    (registered : Ctx → Option (List Ptr)) :
    Frame op w { w with held := held, atoms := atoms, jsFunctionCache := registered } :=
  { refl op w with
    held := fun stays => absurd moves stays
    atoms := fun stays => absurd moves stays
    registered := fun stays => absurd moves stays }

theorem lends (op : Op) (w : World) (s : Units) : Frame op w (w.lendCString s) :=
  { refl op w with
    lent := fun t => by
      by_cases same : t = s
      · simp [World.lendCString, same]
      · simp [World.lendCString, same] }

end Frame

theorem frame_direct {op : Op} {w w' : World} {r : Reply op} (answered : direct op w r w') :
    Frame op w w' := by
  cases op with
  | new v =>
    obtain ⟨-, rfl⟩ := answered
    exact { Frame.refl _ _ with boxes := .append _ _ }
  | newTable keys =>
    obtain ⟨-, rfl⟩ := answered
    exact { Frame.refl _ _ with tables := .append _ _ }
  | newMap =>
    obtain ⟨-, rfl⟩ := answered
    exact { Frame.refl _ _ with maps := fun _ => .inr rfl }
  | newCache o =>
    obtain ⟨-, rfl⟩ := answered
    exact { Frame.refl _ _ with caches := fun _ => .inr rfl }
  | mapPut m k d =>
    obtain ⟨-, rfl⟩ := answered
    exact { Frame.refl (.mapPut m k d) _ with maps := fun stays => absurd trivial stays }
  | cachePut c o d =>
    obtain ⟨-, rfl⟩ := answered
    exact { Frame.refl (.cachePut c o d) _ with caches := fun stays => absurd trivial stays }
  | callocCell =>
    obtain ⟨-, rfl⟩ := answered
    exact { Frame.refl _ _ with cells := by simp }
  | storeCell cell n =>
    obtain ⟨-, rfl⟩ := answered
    exact { Frame.refl _ _ with cells := by simp }
  | isArray ctx v =>
    obtain ⟨-, rfl⟩ | ⟨-, e, rfl⟩ := direct_isArray answered <;> exact { Frame.refl _ _ with }
  | toInt32 ctx v =>
    rw [direct_toInt32 answered]
    exact .refl _ _
  | toInt64 ctx v =>
    rw [direct_toInt64 answered]
    exact .refl _ _
  | toFloat64 ctx v =>
    rw [direct_toFloat64 answered]
    exact .refl _ _
  | toCString ctx v =>
    obtain ⟨s, -, -, rfl⟩ | ⟨-, ⟨-, rfl⟩ | ⟨-, e, rfl⟩⟩ := direct_toCString answered
    · exact .lends _ _ s
    · exact .refl _ _
    · exact { Frame.refl _ _ with }
  | getProperty ctx v k =>
    rw [(direct_getProperty answered).2]
    exact .moving (.getProperty ctx v k) trivial _ _ _ _
  | getOwnPropertyNames ctx v =>
    obtain ⟨keys, -, -, rfl⟩ := direct_getOwnPropertyNames answered
    exact .moving (.getOwnPropertyNames ctx v) trivial _ _ _ _
  | setProperty ctx v k x =>
    obtain ⟨heap, -, rfl⟩ | ⟨-, e, rfl⟩ := direct_setProperty answered <;>
      exact { Frame.moving (.setProperty ctx v k x) trivial _ _ _ _ with }
  | defineIndex ctx v i x flags =>
    obtain ⟨heap, rfl⟩ | ⟨-, e, rfl⟩ := direct_defineIndex answered <;>
      exact { Frame.moving (.defineIndex ctx v i x flags) trivial _ _ _ _ with }
  | origin p f =>
    obtain rfl | ⟨o, -, rfl⟩ := direct_origin answered <;> exact { Frame.refl _ _ with }
  | newContext =>
    obtain ⟨-, realm, h, n, -, -, rfl⟩ := answered
    exact { Frame.refl _ _ with }
  | newObject ctx =>
    obtain ⟨address, -, -, rfl⟩ := answered
    exact { Frame.moving (.newObject ctx) trivial _ _ _ _ with }
  | newArray ctx =>
    obtain ⟨address, -, -, rfl⟩ := answered
    exact { Frame.moving (.newArray ctx) trivial _ _ _ _ with }
  | newCFunctionData ctx n =>
    obtain ⟨address, -, -, rfl⟩ := answered
    exact { Frame.moving (.newCFunctionData ctx n) trivial _ _ _ _ with }
  | newCFunction ctx name =>
    obtain ⟨address, -, -, rfl⟩ := answered
    exact { Frame.moving (.newCFunction ctx name) trivial _ _ _ _ with }
  | dupValue | freeValue | getGlobalObject | getException | atomToValue | freeAtom | newString
  | giveBack | setJSFunctions =>
    obtain ⟨-, rfl⟩ := answered
    exact { Frame.moving _ (by trivial) _ _ _ _ with }
  | eval ctx input filename => exact answered.elim
  | call ctx f this argc argv => exact answered.elim
  | apply f params => exact answered.elim
  | print e =>
    rw [direct_print answered]
    exact .refl _ _
  | _ =>
    obtain ⟨-, rfl⟩ := answered
    exact { Frame.refl _ _ with }

theorem frame_back {op : Op} {w w' : World} {r : Reply op} (returned : back op w r w') :
    Frame op w w' := by
  cases op with
  | eval ctx input filename =>
    obtain ⟨-, e, rfl⟩ | ⟨-, rfl⟩ := returned <;>
      exact { Frame.moving (.eval ctx input filename) trivial _ _ _ _ with }
  | call ctx f this argc argv =>
    obtain ⟨-, e, rfl⟩ | ⟨-, rfl⟩ := returned <;>
      exact { Frame.moving (.call ctx f this argc argv) trivial _ _ _ _ with }
  | getProperty ctx v k =>
    obtain ⟨-, e, rfl⟩ | ⟨-, rfl⟩ := returned <;>
      exact { Frame.moving (.getProperty ctx v k) trivial _ _ _ _ with }
  | toInt32 ctx v => obtain rfl | ⟨-, e, rfl⟩ := returned <;> exact { Frame.refl _ _ with }
  | toInt64 ctx v => obtain rfl | ⟨-, e, rfl⟩ := returned <;> exact { Frame.refl _ _ with }
  | toFloat64 ctx v => obtain rfl | ⟨-, e, rfl⟩ := returned <;> exact { Frame.refl _ _ with }
  | toCString ctx v =>
    obtain ⟨s, -, rfl⟩ | ⟨-, e, rfl⟩ := returned
    · exact .lends _ _ s
    · exact { Frame.refl _ _ with }
  | getOwnPropertyNames ctx v =>
    obtain ⟨keys, -, rfl⟩ | ⟨-, e, rfl⟩ := returned <;>
      exact { Frame.moving (.getOwnPropertyNames ctx v) trivial _ _ _ _ with }
  | setProperty ctx v k x =>
    obtain ⟨-, rfl⟩ | ⟨-, e, rfl⟩ := returned <;>
      exact { Frame.moving (.setProperty ctx v k x) trivial _ _ _ _ with }
  | defineIndex ctx v i x flags =>
    obtain ⟨-, rfl⟩ | ⟨-, e, rfl⟩ := returned <;>
      exact { Frame.moving (.defineIndex ctx v i x flags) trivial _ _ _ _ with }
  | apply f params | print e =>
    cases returned
    exact .refl _ _
  | _ => exact returned.elim

end FlutterQuickjs.Binding
