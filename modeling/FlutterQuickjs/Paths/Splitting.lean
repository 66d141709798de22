import FlutterQuickjs.Binding.Instance

namespace FlutterQuickjs.Paths

open Engine Binding KeyPath
open Effect

/-- What stands between two segments of a key. -/
inductive Separator
  | dot
  | arrow
deriving DecidableEq

def Separator.text : Separator → Units
  | dot => [KeyPath.dot]
  | arrow => [hyphen, greater]

/-- Segments without the characters of a separator; identifiers have none of them. -/
def Segment (s : Units) : Prop :=
  s ≠ [] ∧ dot ∉ s ∧ hyphen ∉ s ∧ greater ∉ s ∧ question ∉ s

instance (s : Units) : Decidable (Segment s) := inferInstanceAs (Decidable (_ ∧ _))

/-- A key: its first segment, and the others with what stands before each. -/
def joinedPath : Units → List (Separator × Units) → Units
  | first, [] => first
  | first, (separator,segment) :: rest => first ++ separator.text ++ joinedPath segment rest

def dotted (segments : List Units) : Units := [dot].intercalate segments

def chained (segments : List Units) : Units := [question, dot].intercalate segments

/-- The paths that the creation loop assigns to, one for each round. -/
def rebuilt : (i : Nat) → (pStr : Units) → List Units → List Units
  | _, _, [] => []
  | i, pStr, segment :: rest =>
    (pStr ++ (if i = 0 then [] else [dot]) ++ segment) ::
      rebuilt (i+1) (pStr ++ (if i = 0 then [] else [dot]) ++ segment) rest

section

variable [PackageFfi]

/-- One round of the creation loop. -/
def createParent (self : Instance) (source : CString) (pStr : Units) : Action Unit := do
  let ret ← jsEval self.ctx (toNativeUtf8 (pStr ++ units " = " ++ pStr ++ units " || {};")) source
  jsFreeValue ret

def createParents (self : Instance) (source : CString) : List Units → Action Unit
  | [] => return ()
  | pStr :: rest => do
    createParent self source pStr
    createParents self source rest

theorem creationLoop_eq (self : Instance) (source : CString) (i : Nat) (pStr : Units)
    (segments : List Units) :
    self.creationLoop source i pStr segments =
      createParents self source (rebuilt i pStr segments) := by
  induction segments generalizing i pStr with
  | nil => rfl
  | cons segment rest ih =>
    rw [Instance.creationLoop, rebuilt, createParents]
    simp only [ih]
    rfl

/-- What `setValue` does once it has split the key. -/
def assign (fuel : Nat) (self : Instance) (value : DartVal) (parentStr propStr : Units) :
    Action Unit := do
  let sourceStr := units "FlutterQuickjs.setValue"
  let source := toNativeUtf8 sourceStr
  if (← self.eval fuel parentStr (some sourceStr)) = .null then
    createParents self source (rebuilt 0 [] (splitChain parentStr))
  let parentPtr ← jsEval self.ctx (toNativeUtf8 parentStr) source
  let valuePtr ← ValueConverter.toQuickJSValue fuel self.ctx value
  let _ ← jsSetPropertyStr self.ctx parentPtr (toNativeUtf8 propStr) valuePtr
  jsFreeValue parentPtr

theorem setValue_of_split {key : Units} {lastIdx : Nat}
    (found : lastIndexOfDot (replaceArrows key) = some lastIdx) (fuel : Nat) (self : Instance)
    (value : DartVal) :
    self.setValue fuel key value =
      assign fuel self value (optionalChain ((replaceArrows key).take lastIdx))
        ((replaceArrows key).drop (lastIdx+1)) := by
  simp only [Instance.setValue, found, creationLoop_eq]
  rfl

theorem setValue_of_single {key : Units} (none : lastIndexOfDot (replaceArrows key) = none)
    (fuel : Nat) (self : Instance) (value : DartVal) :
    self.setValue fuel key value = throw .rangeError := by
  simp only [Instance.setValue, none]

end

section

variable {s t : Units} {segments : List Units}

theorem replaceArrows_append (free : hyphen ∉ s) (t : Units) :
    replaceArrows (s ++ t) = s ++ replaceArrows t := by
  induction s with
  | nil => rfl
  | cons c s ih =>
    have head : c ≠ hyphen := by
      intro same
      exact free (by simp [same])
    have tail := ih fun inside => free (List.mem_cons_of_mem c inside)
    cases s with
    | nil =>
      cases t with
      | nil => rfl
      | cons d t => simp [replaceArrows, head]
    | cons d s =>
      simp only [List.cons_append, replaceArrows, head, false_and, if_false]
      rw [← List.cons_append, tail]
      rfl

theorem replaceArrows_separator (separator : Separator) (t : Units) :
    replaceArrows (separator.text ++ t) = dot :: replaceArrows t := by
  cases separator with
  | dot =>
    have free : hyphen ∉ [dot] := by decide
    exact replaceArrows_append free t
  | arrow => simp [Separator.text, replaceArrows]

theorem replaceArrows_joined (first : Units) (rest : List (Separator × Units))
    (named : ∀ s ∈ first :: rest.map Prod.snd, Segment s) :
    replaceArrows (joinedPath first rest) = dotted (first :: rest.map Prod.snd) := by
  induction rest generalizing first with
  | nil =>
    have free := (named first (by simp)).2.2.1
    have whole := replaceArrows_append free []
    simp only [List.append_nil, replaceArrows] at whole
    simp [joinedPath, dotted, whole]
  | cons pair rest ih =>
    obtain ⟨separator, segment⟩ := pair
    have free := (named first (by simp)).2.2.1
    have tail := ih segment fun s inside => named s (List.mem_cons_of_mem first inside)
    rw [joinedPath, List.append_assoc, replaceArrows_append free, replaceArrows_separator, tail]
    simp [dotted, List.intercalate_cons_cons]

theorem dotted_snoc (parents : segments ≠ []) (last : Units) :
    dotted (segments ++ [last]) = dotted segments ++ dot :: last := by
  induction segments with
  | nil => exact absurd rfl parents
  | cons s segments ih =>
    cases segments with
    | nil => simp [dotted, List.intercalate_cons_cons]
    | cons s' segments =>
      have tail := ih (by simp)
      simp only [dotted, List.cons_append, List.intercalate_cons_cons] at tail ⊢
      simp [tail]

theorem lastIndexOfDot_snoc (s : Units) {last : Units} (free : dot ∉ last) :
    lastIndexOfDot (s ++ dot :: last) = some s.length := by
  have inside : dot ∈ s ++ dot :: last := by simp
  have outside : dot ∉ last.reverse := by simpa using free
  rw [lastIndexOfDot, if_pos inside]
  simp [List.idxOf_append, outside]

theorem lastIndexOfDot_free (free : dot ∉ s) : lastIndexOfDot s = none := by
  rw [lastIndexOfDot, if_neg free]

theorem optionalChain_free (free : dot ∉ s) : optionalChain s = s := by
  induction s with
  | nil => rfl
  | cons c s ih =>
    have head : c ≠ dot := by
      intro same
      exact free (by simp [same])
    have tail := ih fun inside => free (List.mem_cons_of_mem c inside)
    rw [optionalChain] at tail ⊢
    simp [head, tail]

theorem optionalChain_dotted (named : ∀ s ∈ segments, Segment s) :
    optionalChain (dotted segments) = chained segments := by
  induction segments with
  | nil => rfl
  | cons s segments ih =>
    have free := optionalChain_free (named s (by simp)).2.1
    have tail := ih fun s inside => named s (List.mem_cons_of_mem _ inside)
    cases segments with
    | nil => simpa [dotted, chained] using free
    | cons s' segments =>
      simp only [dotted, chained, List.intercalate_cons_cons, optionalChain,
        List.flatMap_append] at free tail ⊢
      rw [free, tail]
      rfl

theorem splitChain_free (free : question ∉ s) : splitChain s = [s] := by
  induction s with
  | nil => rfl
  | cons c s ih =>
    have head : c ≠ question := by
      intro same
      exact free (by simp [same])
    have tail := ih fun inside => free (List.mem_cons_of_mem c inside)
    cases s with
    | nil => rfl
    | cons d s => simp [splitChain, head, tail]

theorem splitChain_append (free : question ∉ s) (t : Units) :
    splitChain (s ++ question :: dot :: t) = s :: splitChain t := by
  induction s with
  | nil => simp [splitChain]
  | cons c s ih =>
    have head : c ≠ question := by
      intro same
      exact free (by simp [same])
    have tail := ih fun inside => free (List.mem_cons_of_mem c inside)
    cases s with
    | nil =>
      simp only [List.nil_append] at tail
      simp [splitChain, head]
    | cons d s =>
      simp only [List.cons_append] at tail
      simp [splitChain, head, tail]

theorem splitChain_chained (parents : segments ≠ []) (named : ∀ s ∈ segments, Segment s) :
    splitChain (chained segments) = segments := by
  induction segments with
  | nil => exact absurd rfl parents
  | cons s segments ih =>
    have free := (named s (by simp)).2.2.2.2
    cases segments with
    | nil =>
      have whole := splitChain_free free
      simpa [chained] using whole
    | cons s' segments =>
      have tail := ih (by simp) fun s inside => named s (List.mem_cons_of_mem _ inside)
      simp only [chained, List.intercalate_cons_cons, List.cons_append, List.nil_append,
        List.append_assoc] at tail ⊢
      rw [splitChain_append free, tail]

/-- The paths of a chain: each is the one before with one segment more. -/
theorem rebuilt_snoc (i : Nat) (before : List Units) (pStr : Units)
    (so : pStr ++ (if i = 0 then [] else [dot]) = if before = [] then [] else dotted before ++ [dot])
    (segments : List Units) :
    rebuilt i pStr segments =
      (List.range segments.length).map fun k => dotted (before ++ segments.take (k+1)) := by
  induction segments generalizing i before pStr with
  | nil => rfl
  | cons segment rest ih =>
    have next : pStr ++ (if i = 0 then [] else [dot]) ++ segment = dotted (before ++ [segment]) := by
      rw [so]
      by_cases empty : before = []
      · simp [empty, dotted]
      · rw [if_neg empty, dotted_snoc empty]
        simp
    rw [rebuilt, next, ih (i+1) (before ++ [segment]) _ (by simp)]
    rw [List.length_cons, List.range_succ_eq_map]
    simp [List.append_assoc]

theorem rebuilt_prefixes (segments : List Units) :
    rebuilt 0 [] segments =
      (List.range segments.length).map fun k => dotted (segments.take (k+1)) :=
  rebuilt_snoc 0 [] [] rfl segments

end

section

variable [PackageFfi]

/-- `setValue` does not throw over the key; it goes on with the last segment as the property
and the others, in their order, as the path of the parent. -/
def Splits (key : Units) (segments : List Units) : Prop :=
  ∃ parentStr propStr,
    (∀ fuel self value, Instance.setValue fuel self key value =
      assign fuel self value parentStr propStr) ∧
    segments.getLast? = some propStr ∧
    (segments.dropLast ≠ [] →
      parentStr = chained segments.dropLast ∧
      splitChain parentStr = segments.dropLast ∧
      rebuilt 0 [] (splitChain parentStr) =
        (List.range segments.dropLast.length).map fun k => dotted (segments.dropLast.take (k+1)))

theorem splits_snoc {parents : List Units} {key last : Units} (some : parents ≠ [])
    (named : ∀ s ∈ parents ++ [last], Segment s)
    (whole : replaceArrows key = dotted (parents ++ [last])) : Splits key (parents ++ [last]) := by
  have free : dot ∉ last := (named last (by simp)).2.1
  have above : ∀ s ∈ parents, Segment s := fun s inside => named s (List.mem_append_left _ inside)
  rw [dotted_snoc some] at whole
  have found := lastIndexOfDot_snoc (dotted parents) free
  rw [← whole] at found
  have parent : optionalChain ((replaceArrows key).take (dotted parents).length) =
      chained parents := by
    rw [whole, List.take_left, optionalChain_dotted above]
  have property : (replaceArrows key).drop ((dotted parents).length + 1) = last := by
    rw [whole]
    simp
  refine ⟨chained parents, last, fun fuel self value => ?_, by simp, fun _ => ?_⟩
  · rw [setValue_of_split found, parent, property]
  · rw [List.dropLast_concat, splitChain_chained some above]
    exact ⟨rfl, rfl, rebuilt_prefixes parents⟩

theorem not_splits_of_single {key : Units} (free : dot ∉ replaceArrows key)
    (segments : List Units) : ¬Splits key segments := by
  rintro ⟨parentStr, propStr, splits, -⟩
  have throws := splits 0 ⟨0, .box 0⟩ .null
  rw [setValue_of_single (lastIndexOfDot_free free)] at throws
  cases throws

/-- A key is split as it reads if and only if it has two segments or more. -/
theorem splits_iff (first : Units) (rest : List (Separator × Units))
    (named : ∀ s ∈ first :: rest.map Prod.snd, Segment s) :
    Splits (joinedPath first rest) (first :: rest.map Prod.snd) ↔
      2 ≤ (first :: rest.map Prod.snd).length := by
  have whole := replaceArrows_joined first rest named
  constructor
  · intro splits
    cases rest with
    | nil =>
      have free : dot ∉ replaceArrows (joinedPath first []) := by
        rw [whole]
        simpa [dotted] using (named first (by simp)).2.1
      exact absurd splits (not_splits_of_single free _)
    | cons pair rest => simp
  · intro two
    have last : first :: rest.map Prod.snd =
        (first :: rest.map Prod.snd).dropLast ++ [(first :: rest.map Prod.snd).getLast (by simp)] :=
      (List.dropLast_append_getLast (by simp)).symm
    have parents : (first :: rest.map Prod.snd).dropLast ≠ [] := by
      cases rest with
      | nil => simp at two
      | cons pair rest => simp
    rw [last] at named whole ⊢
    exact splits_snoc parents named whole

omit [PackageFfi] in
theorem splits_arrow :
    letI := PackageFfi.utf8
    Splits (units "a->b.c") [units "a", units "b", units "c"] := by
  let _ := PackageFfi.utf8
  exact (splits_iff (units "a") [(.arrow, units "b"), (.dot, units "c")] (by decide)).mpr
    (by decide)

omit [PackageFfi] in
/-- A key of one segment makes `setValue` throw. -/
theorem not_splits_single :
    letI := PackageFfi.utf8
    ¬Splits (units "a") [units "a"] := by
  let _ := PackageFfi.utf8
  exact not_splits_of_single (by decide) _

end

end FlutterQuickjs.Paths
