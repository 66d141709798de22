import FlutterQuickjs.Binding.Effects

namespace FlutterQuickjs.Scripts

open Engine Binding
open Effect

/-- What `eval_script` asks of the engine. A string it is lent points at the UTF-8 form of a JS
string, with a NUL behind. -/
inductive ScriptOp
  | toCString (ctx : Ctx) (v : JSValue)
  | eval (ctx : Ctx) (input : CString) (filename : CString)
  | freeCString (ctx : Ctx) (ptr : Option Units)
deriving DecidableEq

@[reducible] def ScriptReply : ScriptOp → Type
  | .toCString _ _ => Option Units
  | .eval _ _ _ => JSValue
  | .freeCString _ _ => Unit

/-- The memory fault of reading a null string. -/
inductive Fault
  | nullString
deriving DecidableEq

abbrev Script := Program ScriptOp ScriptReply Fault

def script (op : ScriptOp) : Script (ScriptReply op) := .call op

/-- Where code that is not the engine's own runs. -/
def scriptForeign : ScriptOp → World → Prop
  | .toCString _ (.object _), _ => True
  | .eval _ _ _, _ => True
  | _, _ => False

def scriptDirect : (op : ScriptOp) → World → ScriptReply op → World → Prop
  | .toCString ctx v, w, r, w' => match v with
    | .string s => r = some s ∧ w' = w.lendCString s
    | .exception => r = none ∧ w' = w
    | .symbol _ => r = none ∧ ∃ e, w' = w.throwing ctx e
    | _ => ∃ s, Clean s ∧ r = some s ∧ w' = w.lendCString s
  | .freeCString _ ptr, w, _, w' => match ptr with
    | some s => w' = { w with cstrings := Function.update w.cstrings s (w.cstrings s - 1) }
    | none => w' = w
  | .eval _ _ _, _, _, _ => False

def scriptBack : (op : ScriptOp) → World → ScriptReply op → World → Prop
  | .toCString ctx _, w, r, w' =>
    (∃ s, r = some s ∧ w' = w.lendCString s) ∨ r = none ∧ ∃ e, w' = w.throwing ctx e
  | .eval ctx _ _, w, r, w' => Returns ctx w r w'
  | .freeCString _ _, _, _, _ => False

def scriptEnv : Env ScriptOp ScriptReply World := ⟨scriptForeign, scriptDirect, scriptBack⟩

/-- `strlen`, over the bytes of a string and the NUL behind them. -/
def strlen : Option Units → Script Nat
  | some s => return ((toUtf8 s).takeWhile (· != 0)).length
  | none => throw .nullString

/-- `JS_Eval`, which makes an atom of the file name before it parses anything. -/
def JS_Eval (ctx : Ctx) (input : Option Units) (inputLen : Nat) (filename : Option Units) :
    Script JSValue := do
  let length ← strlen filename
  match input, filename with
  | some text, some name =>
    script (.eval ctx ((toUtf8 text).take inputLen) ((toUtf8 name).take length))
  | _, _ => throw .nullString

/-- `eval_script`; the engine fills up missing arguments with undefined. -/
def evalScript (ctx : Ctx) (argv : List JSValue) : Script JSValue := do
  let text ← script (.toCString ctx (argv.getD 0 .undefined))
  let bundleUrl ← script (.toCString ctx (argv.getD 1 .undefined))
  let jval ← JS_Eval ctx text (← strlen text) bundleUrl
  script (.freeCString ctx text)
  script (.freeCString ctx bundleUrl)
  return jval

/-- The texts that the two conversions gave, failures included. -/
def texts : List (Event ScriptOp ScriptReply) → List (Option Units)
  | [] => []
  | ⟨.toCString _ _, r⟩ :: h => r :: texts h
  | _ :: h => texts h

/-- The texts that were given back. -/
def freed : List (Event ScriptOp ScriptReply) → List Units
  | [] => []
  | ⟨.freeCString _ (some s), _⟩ :: h => s :: freed h
  | _ :: h => freed h

/-- The evaluations, with what came of them. -/
def evaluations : List (Event ScriptOp ScriptReply) → List (CString × CString × JSValue)
  | [] => []
  | ⟨.eval _ input filename, r⟩ :: h => (input,filename,r) :: evaluations h
  | _ :: h => evaluations h

/-- A run that evaluates the whole text of its first argument under the whole name in its
second, or nothing where a conversion failed; every string it was lent it gives back. -/
def Faithful (h : List (Event ScriptOp ScriptReply)) (out : Except Fault JSValue) : Prop :=
  (∀ s, (texts h).count (some s) = (freed h).count s) ∧
  ((∃ text name r, texts h = [some text, some name] ∧
      evaluations h = [(toUtf8 text,toUtf8 name,r)] ∧ out = .ok r) ∨
    none ∈ texts h ∧ evaluations h = [] ∧ out = .ok .exception)

/-- Both conversions succeed, and neither text has a NUL. -/
def Legible (h : List (Event ScriptOp ScriptReply)) : Prop :=
  ∃ text name, texts h = [some text, some name] ∧ 0 ∉ text ∧ 0 ∉ name

theorem zero_mem_toUtf8 {s : Units} (inside : 0 ∈ s) : (0 : UInt8) ∈ toUtf8 s := by
  induction s using toUtf8.induct with
  | case1 => cases inside
  | case2 c =>
    have zero : c = 0 := (List.mem_singleton.mp inside).symm
    rw [zero]
    decide
  | case3 c c1 rest pair ih =>
    have high : c ≠ 0 := by
      intro zero
      simp [zero, isHigh] at pair
    have low : c1 ≠ 0 := by
      intro zero
      simp [zero, isLow] at pair
    have tail : 0 ∈ rest := by simpa [high.symm, low.symm] using inside
    rw [toUtf8, if_pos pair]
    exact List.mem_append_right _ (ih tail)
  | case4 c c1 rest pair ih =>
    rw [toUtf8, if_neg pair]
    rcases List.mem_cons.mp inside with zero | tail
    · rw [← zero]
      exact List.mem_append_left _ (by decide)
    · exact List.mem_append_right _ (ih tail)

theorem cString_eq_iff {s : Units} : cString s = toUtf8 s ↔ 0 ∉ s := by
  constructor
  · intro same inside
    have every := List.takeWhile_eq_self_iff.mp same
    have nonzero := every 0 (zero_mem_toUtf8 inside)
    simp at nonzero
  · exact cString_of_zero_not_mem

theorem take_strlen (s : Units) :
    (toUtf8 s).take ((toUtf8 s).takeWhile (· != 0)).length = cString s :=
  (List.prefix_iff_eq_take.mp (List.takeWhile_prefix _)).symm

section

variable {S : Setting ScriptOp ScriptReply World} {ctx : Ctx} {argv : List JSValue} {w w' : World}
  {h : List (Event ScriptOp ScriptReply)} {out : Except Fault JSValue}

/-- Every run converts both arguments; it faults if one of them is null, and else evaluates what
the C strings show. -/
theorem evalScript_runs (run : Exec (scriptEnv.answers S) (evalScript ctx argv) w h out w') :
    (∃ text name r, texts h = [some text, some name] ∧ freed h = [text, name] ∧
      evaluations h = [(cString text,cString name,r)] ∧ out = .ok r) ∨
    none ∈ texts h ∧ out = .error .nullString := by
  obtain ⟨text, w₁, h₁, -, run₁, rfl⟩ := Exec.ask_iff.mp run
  obtain ⟨name, w₂, h₂, -, run₂, rfl⟩ := Exec.ask_iff.mp run₁
  cases text with
  | none =>
    obtain ⟨rfl, rfl, rfl⟩ := Exec.fail_iff.mp run₂
    right
    simp [texts]
  | some text =>
    cases name with
    | none =>
      obtain ⟨rfl, rfl, rfl⟩ := Exec.fail_iff.mp run₂
      right
      simp [texts]
    | some name =>
      obtain ⟨r, w₃, h₃, -, run₃, rfl⟩ := Exec.ask_iff.mp run₂
      obtain ⟨back₁, w₄, h₄, -, run₄, rfl⟩ := Exec.ask_iff.mp run₃
      obtain ⟨back₂, w₅, h₅, -, run₅, rfl⟩ := Exec.ask_iff.mp run₄
      obtain ⟨rfl, rfl, rfl⟩ := Exec.done_iff.mp run₅
      left
      refine ⟨text, name, r, rfl, rfl, ?_, rfl⟩
      rw [← take_strlen text, ← take_strlen name]
      rfl

/-- `eval_script` works as the binding's own `eval` on the same text if and only if both
conversions succeed and neither text has a NUL. -/
theorem evalScript_faithful_iff
    (run : Exec (scriptEnv.answers S) (evalScript ctx argv) w h out w') :
    Faithful h out ↔ Legible h := by
  rcases evalScript_runs run with ⟨text, name, r, given, back, evaluated, rfl⟩ | ⟨failed, rfl⟩
  · have balanced : ∀ s, (texts h).count (some s) = (freed h).count s := by
      intro s
      simp [given, back, List.count_cons]
    constructor
    · rintro ⟨-, ⟨text', name', r', given', evaluated', -⟩ | ⟨failed, -⟩⟩
      · rw [given] at given'
        cases given'
        rw [evaluated] at evaluated'
        simp only [List.cons.injEq, Prod.mk.injEq, and_true] at evaluated'
        exact ⟨text, name, given, cString_eq_iff.mp evaluated'.1, cString_eq_iff.mp evaluated'.2.1⟩
      · simp [given] at failed
    · rintro ⟨text', name', given', whole, whole'⟩
      rw [given] at given'
      cases given'
      refine ⟨balanced, .inl ⟨text, name, r, given, ?_, rfl⟩⟩
      rw [evaluated, cString_eq_iff.mpr whole, cString_eq_iff.mpr whole']
  · constructor
    · rintro ⟨-, ⟨text, name, r, given, -, bad⟩ | ⟨-, -, bad⟩⟩
      · cases bad
      · cases bad
    · rintro ⟨text, name, given, -⟩
      simp [given] at failed

end

/-- Every run of `eval_script` over the arguments is faithful. -/
def EvaluatesFaithfully (argv : List JSValue) : Prop :=
  ∀ rely ctx w h out w',
    Exec (scriptEnv.answers (.plain rely False)) (evalScript ctx argv) w h out w' → Faithful h out

theorem evalScript_faithful_sum :
    ∃ h w', Exec (scriptEnv.answers (.plain Eq False))
      (evalScript 0 [.string (units "1+1"), .string (units "a.js")]) World.initial h (.ok (.int 2))
      w' ∧ (Faithful h (.ok (.int 2)) ↔ Legible h) := by
  have run : ∃ h w', Exec (scriptEnv.answers (.plain Eq False))
      (evalScript 0 [.string (units "1+1"), .string (units "a.js")]) World.initial h
      (.ok (.int 2)) w' := by
    refine ⟨_, _, .ask ⟨trivial, .inl ⟨id, rfl, rfl⟩⟩ (.ask ⟨trivial, .inl ⟨id, rfl, rfl⟩⟩
      (.ask ⟨trivial, .inr ⟨trivial, _, rfl, .inr ⟨?_, rfl⟩⟩⟩
        (.ask (r := ()) ⟨trivial, .inl ⟨id, rfl⟩⟩
          (.ask (r := ()) ⟨trivial, .inl ⟨id, rfl⟩⟩ (.done _ _)))))⟩
    decide
  obtain ⟨h, w', run⟩ := run
  exact ⟨h, w', run, evalScript_faithful_iff run⟩

/-- A symbol does not convert, and `eval_script` reads the null string. -/
theorem not_evaluatesFaithfully_symbol :
    ¬EvaluatesFaithfully [.symbol ⟨0,false⟩, .string (units "a.js")] := by
  intro faithfully
  have run : ∃ h w', Exec (scriptEnv.answers (.plain Eq False))
      (evalScript 0 [.symbol ⟨0,false⟩, .string (units "a.js")]) World.initial h
      (.error .nullString) w' :=
    ⟨_, _, .ask ⟨trivial, .inl ⟨id, rfl, .null, rfl⟩⟩
      (.ask ⟨trivial, .inl ⟨id, rfl, rfl⟩⟩ (.fail _ _))⟩
  obtain ⟨h, w', run⟩ := run
  rcases (faithfully Eq 0 _ h _ w' run).2 with ⟨text, name, r, given, evaluated, bad⟩ | ⟨-, -, bad⟩
  · cases bad
  · cases bad

end FlutterQuickjs.Scripts
