import FlutterQuickjs.Binding.Convert

namespace FlutterQuickjs.Binding

open Engine
open Effect (Program)

variable [PackageFfi]

namespace KeyPath

def dot : UInt16 := 46
def hyphen : UInt16 := 45
def greater : UInt16 := 62
def question : UInt16 := 63

/-- `replaceAll(RegExp(r'->'), '.')`. -/
def replaceArrows : Units → Units
  | c :: c' :: rest =>
    if c = hyphen ∧ c' = greater then dot :: replaceArrows rest
    else c :: replaceArrows (c' :: rest)
  | [c] => [c]
  | [] => []

/-- `lastIndexOf('.')`. -/
def lastIndexOfDot (s : Units) : Option Nat :=
  if dot ∈ s then some (s.length - 1 - s.reverse.idxOf dot) else none

/-- `replaceAll(RegExp(r'\.'), '?.')`. -/
def optionalChain (s : Units) : Units :=
  s.flatMap fun c => if c = dot then [question,dot] else [c]

/-- `split('?.')`. -/
def splitChain : Units → List Units
  | c :: c' :: rest =>
    if c = question ∧ c' = dot then [] :: splitChain rest
    else match splitChain (c' :: rest) with
      | segment :: segments => (c :: segment) :: segments
      | [] => [[c]]
  | [c] => [[c]]
  | [] => [[]]

end KeyPath

namespace Instance

open ValueConverter

/-- The constructor. The runtime goes with its only context. -/
def new : Action Unit := do
  let ctx ← perform .newContext
  let global ← jsGetGlobalObject ctx
  perform (.newInstance ⟨ctx,global⟩)

def global (fuel : Nat) (self : Instance) : Action DartVal :=
  toDartValueFromJs (fun jval => toDartValue fuel jval none) self.ctx self.globalPtr

/-- `eval`; its third parameter is not used. -/
def eval (fuel : Nat) (self : Instance) (script : Units) (source : Option Units) :
    Action DartVal := do
  let input := toNativeUtf8 script
  let filename := toNativeUtf8 (source.getD (units "<anonymous>"))
  let ret ← jsEval self.ctx input filename
  let result ← toDartValueFromJs (fun jval => toDartValue fuel jval none) self.ctx ret
  match result with
  | .hostFunction f => return .hostFunction f
  | .exception message =>
    jsFreeValue ret
    throw (.exception message)
  | result =>
    jsFreeValue ret
    return result

/-- The rounds that create missing parents; `pStr` is the path so far. -/
def creationLoop (self : Instance) (source : CString) :
    (i : Nat) → (pStr : Units) → List Units → Action Unit
  | _, _, [] => return ()
  | i, pStr, segment :: rest => do
    let pStr := pStr ++ (if i = 0 then [] else [KeyPath.dot]) ++ segment
    let pStrUtf8 := toNativeUtf8 (pStr ++ units " = " ++ pStr ++ units " || {};")
    let ret ← jsEval self.ctx pStrUtf8 source
    jsFreeValue ret
    creationLoop self source (i+1) pStr rest

def setValue (fuel : Nat) (self : Instance) (key : Units) (value : DartVal) : Action Unit := do
  let sourceStr := units "FlutterQuickjs.setValue"
  let source := toNativeUtf8 sourceStr
  let key := KeyPath.replaceArrows key
  match KeyPath.lastIndexOfDot key with
  | none => throw .rangeError
  | some lastIdx =>
    let parentStr := KeyPath.optionalChain (key.take lastIdx)
    let propStr := key.drop (lastIdx + 1)
    if (← eval fuel self parentStr (some sourceStr)) = .null then
      creationLoop self source 0 [] (KeyPath.splitChain parentStr)
    let parentPtr ← jsEval self.ctx (toNativeUtf8 parentStr) source
    let valuePtr ← toQuickJSValue fuel self.ctx value
    let _ ← jsSetPropertyStr self.ctx parentPtr (toNativeUtf8 propStr) valuePtr
    jsFreeValue parentPtr

/-- Called with a name that is neither null nor empty; others only print. -/
def registerEvalToGlobal (self : Instance) (funcName : Option Units) : Action Unit :=
  match funcName with
  | some (c :: name) => Binding.registerEvalToGlobal self.ctx (toNativeUtf8 (c :: name))
  | _ => perform .warn

/-- Where an object has leaked, an assertion in `JS_FreeRuntime` aborts the process after this:
the last operation stands for the other case. -/
def close (self : Instance) : Action Unit := do
  JSFunction.clearCache self.ctx
  HostFunctionProxy.clearCache self.ctx
  jsFreeValue self.globalPtr
  perform (.freeRuntime self.ctx)

end Instance

/-- The two ways from Dart code into JS code: a script, or the closure over a function. -/
inductive Entry
  | eval (self : Instance) (script : Units) (source : Option Units)
  | wrapper (ctx : Ctx) (val : Ptr) (arguments : List DartVal)

namespace Entry

def ctx : Entry → Ctx
  | eval self _ _ => self.ctx
  | wrapper ctx _ _ => ctx

def program (fuel : Nat) : Entry → Action DartVal
  | eval self script source => self.eval fuel script source
  | wrapper ctx val arguments => wrapperCall fuel ctx val arguments

end Entry

end FlutterQuickjs.Binding
