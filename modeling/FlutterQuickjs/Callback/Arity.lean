import FlutterQuickjs.Binding.Plain

namespace FlutterQuickjs.Callback

open Engine Binding HostFunction
open Effect

/-- A name in a printed type. -/
structure Identifier where
  text : Units
  nonempty : text ≠ []
  plain : comma ∉ text ∧ openParenthesis ∉ text ∧ closeParenthesis ∉ text

/-- Dart types. The parameters of a function type are required, optional by position, or
optional by name. -/
inductive DartType
  | named (name : Identifier) (arguments : List DartType)
  | function (required optional : List DartType) (labelled : List (DartType × Identifier))
      (result : DartType)

def separator : Units := units ", "

/-- Texts with a separator between them. -/
def joined : List Units → Units
  | [] => []
  | [text] => text
  | text :: rest => text ++ separator ++ joined rest

/-- The optional parameters, in brackets where there are any. -/
def bracketed (left : Units) (texts : List Units) (right : Units) : List Units :=
  if texts = [] then [] else [left ++ joined texts ++ right]

namespace DartType

mutual

/-- `runtimeType.toString()`. -/
def toString : DartType → Units
  | named name [] => name.text
  | named name (t :: ts) => name.text ++ units "<" ++ joined (toStrings (t :: ts)) ++ units ">"
  | function required optional labelled result =>
    units "(" ++ joined (toStrings required ++
      bracketed (units "[") (toStrings optional) (units "]") ++
      bracketed (units "\x7b") (labelledStrings labelled) (units "\x7d")) ++
      units ") => " ++ toString result

def toStrings : List DartType → List Units
  | [] => []
  | t :: ts => toString t :: toStrings ts

def labelledStrings : List (DartType × Identifier) → List Units
  | [] => []
  | (t,label) :: ts => (toString t ++ units " " ++ label.text) :: labelledStrings ts

end

mutual

/-- The type prints without a comma: no list in it has two members. -/
def Single : DartType → Prop
  | named _ arguments => arguments.length ≤ 1 ∧ Singles arguments
  | function required optional labelled result =>
    required.length + optional.length + labelled.length ≤ 1 ∧ Singles required ∧
      Singles optional ∧ LabelledSingles labelled ∧ Single result

def Singles : List DartType → Prop
  | [] => True
  | t :: ts => Single t ∧ Singles ts

def LabelledSingles : List (DartType × Identifier) → Prop
  | [] => True
  | (t,_) :: ts => Single t ∧ LabelledSingles ts

end

theorem length_toStrings (ts : List DartType) : (toStrings ts).length = ts.length := by
  induction ts with
  | nil => rfl
  | cons t ts ih => simp [toStrings, ih]

theorem length_labelledStrings (ts : List (DartType × Identifier)) :
    (labelledStrings ts).length = ts.length := by
  induction ts with
  | nil => rfl
  | cons t ts ih => simp [labelledStrings, ih]

end DartType

section

variable {texts : List Units}

/-- Between texts there is one comma each. -/
theorem count_joined (texts : List Units) :
    (joined texts).count comma = (texts.map (·.count comma)).sum + (texts.length - 1) := by
  induction texts with
  | nil => rfl
  | cons text rest ih =>
    cases rest with
    | nil => simp [joined]
    | cons next rest =>
      have between : separator.count comma = 1 := by decide
      simp only [joined, List.count_append, ih, between, List.map_cons, List.sum_cons,
        List.length_cons]
      omega

theorem count_joined_eq_zero :
    (joined texts).count comma = 0 ↔ texts.length ≤ 1 ∧ ∀ text ∈ texts, text.count comma = 0 := by
  rw [count_joined, Nat.add_eq_zero_iff, List.sum_eq_zero_iff_forall_eq_nat]
  simp only [List.mem_map, forall_exists_index, and_imp, forall_apply_eq_imp_iff₂]
  constructor
  · rintro ⟨each, few⟩
    exact ⟨by omega, each⟩
  · rintro ⟨few, each⟩
    exact ⟨each, by omega⟩

theorem length_bracketed (left : Units) (texts : List Units) (right : Units) :
    (bracketed left texts right).length = min 1 texts.length := by
  cases texts <;> simp [bracketed]

theorem count_bracketed (left : Units) (texts : List Units) (right : Units)
    (openText : left.count comma = 0)
    (closeText : right.count comma = 0) :
    (∀ text ∈ bracketed left texts right, text.count comma = 0) ↔
      texts.length ≤ 1 ∧ ∀ text ∈ texts, text.count comma = 0 := by
  cases texts with
  | nil => simp [bracketed]
  | cons text texts =>
    rw [← count_joined_eq_zero]
    simp [bracketed, List.count_append, openText, closeText]

end

namespace DartType

theorem count_name (name : Identifier) : name.text.count comma = 0 :=
  List.count_eq_zero.mpr name.plain.1

mutual

theorem count_toString_eq_zero : (t : DartType) → (t.toString.count comma = 0 ↔ t.Single)
  | named name [] => by simp [toString, Single, Singles, count_name]
  | named name (t :: ts) => by
    have open_ : (units "<").count comma = 0 := by decide
    have close : (units ">").count comma = 0 := by decide
    simp only [toString, List.count_append, count_name, open_, close, Nat.zero_add, Nat.add_zero,
      count_joined_eq_zero, length_toStrings, Single, count_toStrings (t :: ts)]
  | function required optional labelled result => by
    have left : (units "(").count comma = 0 := by decide
    have right : (units ") => ").count comma = 0 := by decide
    have positional := count_bracketed (units "[") (toStrings optional) (units "]") (by decide)
      (by decide)
    have byName := count_bracketed (units "\x7b") (labelledStrings labelled) (units "\x7d")
      (by decide) (by decide)
    simp only [toString, List.count_append, left, right, Nat.zero_add, Nat.add_zero,
      Nat.add_eq_zero_iff, count_joined_eq_zero, List.length_append, length_bracketed,
      length_toStrings, length_labelledStrings, List.forall_mem_append, positional, byName, Single,
      count_toStrings required, count_toStrings optional, count_labelledStrings labelled,
      count_toString_eq_zero result]
    constructor
    · rintro ⟨⟨few, ⟨each, fewer, each'⟩, fewest, each''⟩, last⟩
      exact ⟨by omega, each, each', each'', last⟩
    · rintro ⟨few, each, each', each'', last⟩
      exact ⟨⟨by omega, ⟨each, by omega, each'⟩, by omega, each''⟩, last⟩

theorem count_toStrings : (ts : List DartType) →
    ((∀ text ∈ toStrings ts, text.count comma = 0) ↔ Singles ts)
  | [] => by simp [toStrings, Singles]
  | t :: ts => by
    simp only [toStrings, List.forall_mem_cons, Singles, count_toString_eq_zero t,
      count_toStrings ts]

theorem count_labelledStrings : (ts : List (DartType × Identifier)) →
    ((∀ text ∈ labelledStrings ts, text.count comma = 0) ↔ LabelledSingles ts)
  | [] => by simp [labelledStrings, LabelledSingles]
  | (t,label) :: ts => by
    have blank : (units " ").count comma = 0 := by decide
    simp only [labelledStrings, List.forall_mem_cons, LabelledSingles, List.count_append, count_name,
      blank, Nat.add_zero, count_toString_eq_zero t, count_labelledStrings ts]

end

theorem toString_function (required optional : List DartType)
    (labelled : List (DartType × Identifier)) (result : DartType) :
    (function required optional labelled result).toString = openParenthesis ::
      (joined (toStrings required ++ bracketed (units "[") (toStrings optional) (units "]") ++
        bracketed (units "\x7b") (labelledStrings labelled) (units "\x7d")) ++
      (units ") => " ++ result.toString)) := by
  rw [toString, List.append_assoc, List.append_assoc]
  rfl

/-- No printed type begins with the parenthesis that closes a parameter list. -/
theorem toString_head (t : DartType) :
    ∃ c rest, t.toString = c :: rest ∧ c ≠ closeParenthesis := by
  cases t with
  | named name arguments =>
    have start : ∃ rest, toString (.named name arguments) = name.text ++ rest := by
      cases arguments with
      | nil => exact ⟨[], by rw [toString, List.append_nil]⟩
      | cons t ts => exact ⟨_, by rw [toString, List.append_assoc, List.append_assoc]⟩
    obtain ⟨rest, same⟩ := start
    obtain ⟨c, tail, text⟩ := List.exists_cons_of_ne_nil name.nonempty
    refine ⟨c, tail ++ rest, by rw [same, text, List.cons_append], ?_⟩
    rintro rfl
    exact name.plain.2.2 (by rw [text]; exact List.mem_cons_self ..)
  | function required optional labelled result =>
    exact ⟨_, _, toString_function required optional labelled result, by decide⟩

/-- `void Function(T1, ..., Tn)` and the like. -/
abbrev positional (parameters : List DartType) (result : DartType) : DartType :=
  .function parameters [] [] result

theorem toString_positional (parameters : List DartType) (result : DartType) :
    (positional parameters result).toString =
      openParenthesis :: (joined (toStrings parameters) ++ (units ") => " ++ result.toString)) := by
  rw [toString_function, toStrings, labelledStrings, bracketed, bracketed, if_pos rfl, if_pos rfl,
    List.append_nil, List.append_nil]

end DartType

open DartType

/-- Without parameters the parentheses stand together. -/
theorem argNum_none (f : DartFunction) (result : DartType)
    (isType : f.runtimeType = (positional [] result).toString) :
    (HostFunction.new (.function f)).argNum = 0 := by
  rw [toString_positional] at isType
  have text : runtimeType (.function f) =
      openParenthesis :: closeParenthesis :: (units " => " ++ result.toString) := isType
  have first : indexOf (runtimeType (.function f)) openParenthesis = 0 := by
    rw [text]
    simp [indexOf]
  have second : indexOf (runtimeType (.function f)) closeParenthesis = 1 := by
    have different : (openParenthesis == closeParenthesis) = false := by decide
    rw [text]
    simp [indexOf, List.idxOf_cons, different]
  rw [HostFunction.new]
  simp only [first, second]
  rfl

/-- With parameters every comma of the printed type counts. -/
theorem argNum_some (f : DartFunction) (t : DartType) (ts : List DartType) (result : DartType)
    (isType : f.runtimeType = (positional (t :: ts) result).toString) :
    (HostFunction.new (.function f)).argNum = f.runtimeType.count comma + 1 := by
  rw [toString_positional] at isType
  obtain ⟨c, rest, head, notClose⟩ := t.toString_head
  obtain ⟨tail, begins⟩ : ∃ tail, joined (toStrings (t :: ts)) = c :: tail := by
    cases ts with
    | nil => exact ⟨rest, by rw [toStrings, toStrings, joined, head]⟩
    | cons u us =>
      exact ⟨_, by rw [toStrings, toStrings, joined, head, List.cons_append, List.cons_append]; simp⟩
  have text : runtimeType (.function f) =
      openParenthesis :: c :: (tail ++ (units ") => " ++ result.toString)) := by
    rw [begins] at isType
    exact isType
  have first : indexOf (runtimeType (.function f)) openParenthesis = 0 := by
    rw [text]
    simp [indexOf]
  have second : 2 ≤ indexOf (runtimeType (.function f)) closeParenthesis := by
    have different : (openParenthesis == closeParenthesis) = false := by decide
    have different' : (c == closeParenthesis) = false := by simpa using notClose
    have inside : closeParenthesis ∈ runtimeType (.function f) := by
      have close : closeParenthesis ∈ units ") => " := by decide
      rw [text]
      simp [close]
    rw [indexOf, if_pos inside, text, List.idxOf_cons, List.idxOf_cons, different, different']
    simp only [cond_false]
    omega
  have apart : ¬indexOf (runtimeType (.function f)) openParenthesis =
      indexOf (runtimeType (.function f)) closeParenthesis - 1 := by omega
  have commas : (f.runtimeType.filter (· = comma)).length = f.runtimeType.count comma := by
    rw [List.count_eq_length_filter]
    rfl
  simp only [HostFunction.new, apart, if_false]
  exact congrArg (· + 1) commas

/-- The `HostFunction` of `f` has length `n`, and a call that gets as far as `f` passes it `n`
parameters. -/
def TakesParameters [PackageFfi] (f : DartFunction) (n : Nat) : Prop :=
  (HostFunction.new (.function f)).argNum = n ∧
    ∀ rely fuel ctx argc argv w, wp env (.plain rely False)
      (HostFunctionProxy.parameterLoop fuel ctx argc argv (HostFunction.new (.function f)).argNum 0)
      (fun out _ => ∀ params, out = .ok params → params.length = n) w

theorem length_parameterLoop [PackageFfi] (rely : World → World → Prop) (fuel : Nat) (ctx : Ctx)
    (argc argv rounds i : Nat) (w : World) : wp env (.plain rely False)
      (HostFunctionProxy.parameterLoop fuel ctx argc argv rounds i)
      (fun out _ => ∀ params, out = .ok params → params.length = rounds) w := by
  induction rounds generalizing i w with
  | zero =>
    intro params same
    cases same
    rfl
  | succ rounds ih =>
    have later : ∀ (param : DartVal) (w' : World), wp env (.plain rely False) (do
        let params ← HostFunctionProxy.parameterLoop fuel ctx argc argv rounds (i+1)
        return param :: params)
        (fun out _ => ∀ params, out = .ok params → params.length = rounds + 1) w' := by
      intro param w'
      rw [wp_bind]
      refine wp_mono (ih (i+1) w') fun out w'' counted => ?_
      cases out with
      | error e =>
        intro params same
        cases same
      | ok rest =>
        intro params same
        cases same
        rw [List.length_cons, counted rest rfl]
    rw [HostFunctionProxy.parameterLoop, wp_ite]
    refine ⟨fun _ => ?_, fun _ => later .null w⟩
    rw [wp_bind]
    refine wp_trivial (fun _ _ => trivial) id fun out w' => ?_
    cases out with
    | error e =>
      intro params same
      cases same
    | ok param => exact later param w'

/-- The commas of a function type count its parameters exactly where no other type has one. -/
theorem argNum_positional_iff (f : DartFunction) (parameters : List DartType) (result : DartType)
    (isType : f.runtimeType = (positional parameters result).toString) :
    (HostFunction.new (.function f)).argNum = parameters.length ↔
      parameters = [] ∨ Singles parameters ∧ Single result := by
  cases parameters with
  | nil => simp [argNum_none f result isType]
  | cons t ts =>
    rw [argNum_some f t ts result isType, isType, toString_positional]
    have paren : (openParenthesis == comma) = false := by decide
    have arrow : (units ") => ").count comma = 0 := by decide
    have each : ((toStrings (t :: ts)).map (·.count comma)).sum = 0 ↔ Singles (t :: ts) := by
      rw [List.sum_eq_zero_iff_forall_eq_nat, ← count_toStrings]
      simp
    rw [List.count_cons, paren, List.count_append, List.count_append, arrow, count_joined,
      length_toStrings, ← each, ← count_toString_eq_zero]
    simp only [List.length_cons, reduceCtorEq, false_or, Bool.false_eq_true, if_false]
    omega

/-- A function of `n` positional parameters is called with `n` parameters exactly when it has
none, or its parameter and result types print without a comma. -/
theorem takesParameters_iff [PackageFfi] (id : Nat) (parameters : List DartType)
    (result : DartType) :
    TakesParameters ⟨id, (positional parameters result).toString⟩ parameters.length ↔
      parameters = [] ∨ Singles parameters ∧ Single result := by
  rw [← argNum_positional_iff ⟨id, _⟩ parameters result rfl]
  constructor
  · exact fun takes => takes.1
  · intro same
    refine ⟨same, fun rely fuel ctx argc argv w => ?_⟩
    have counted := length_parameterLoop rely fuel ctx argc argv
      (HostFunction.new (.function ⟨id, (positional parameters result).toString⟩)).argNum 0 w
    exact wp_mono counted fun out w' each params isOk => (each params isOk).trans same

/-- `void Function(Map<String, int>)`. -/
def mapConsumer : DartType :=
  positional
    [.named ⟨units "Map", by decide, by decide⟩
      [.named ⟨units "String", by decide, by decide⟩ [], .named ⟨units "int", by decide, by decide⟩ []]]
    (.named ⟨units "void", by decide, by decide⟩ [])

theorem not_takesParameters_map :
    letI := PackageFfi.utf8
    ¬TakesParameters ⟨0, mapConsumer.toString⟩ 1 := by
  intro takes
  have counted : (HostFunction.new (.function ⟨0, mapConsumer.toString⟩)).argNum = 2 := by decide
  exact absurd (counted.symm.trans takes.1) (by decide)

end FlutterQuickjs.Callback
