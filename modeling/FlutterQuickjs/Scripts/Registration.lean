import FlutterQuickjs.Binding.Instance
import FlutterQuickjs.Binding.Scripted
import FlutterQuickjs.Engine.Assign
import FlutterQuickjs.Release.Ledger

namespace FlutterQuickjs.Scripts

open Engine Binding Release
open Effect

/-- Assigning to `k` makes or changes a data property of the object itself: its own one is
writable, or it is extensible and inherits nothing that would be in the way. -/
def Settable (h : Heap) (o : ObjRef) (k : PropKey) : Prop :=
  o.kind = .ordinary ∧ ∃ obj, h.find o = some obj ∧
    ((∃ v enumerable configurable,
        obj.properties.find k = some (.data v true enumerable configurable)) ∨
      obj.properties.find k = none ∧ obj.extensible = true ∧
        ∀ root, obj.proto = some root → ∃ chain, h.Chain root chain ∧ Heap.Inheritable k chain)

section

variable {h : Heap} {o r : ObjRef} {k : PropKey} {v : JSValue} {chain : List (ObjRef × JSObj)}

theorem Settable.set (settable : Settable h o k) (v : JSValue) :
    ∃ obj enumerable configurable, h.find o = some obj ∧ h.set o k v = .stored (h.put o { obj with
      properties := obj.properties.insert k (.data v true enumerable configurable) }) := by
  obtain ⟨ordinary, obj, found, ⟨x, enumerable, configurable, own⟩ | ⟨new, extensible, above⟩⟩ :=
    settable
  · rw [← JSObj.own_ordinary ordinary] at own
    exact ⟨obj, enumerable, configurable, found, by simp [Heap.set, Heap.write, ordinary, found, own]⟩
  · refine ⟨obj, true, true, found, ?_⟩
    cases proto : obj.proto with
    | none =>
      rw [← JSObj.own_ordinary ordinary] at new
      simp [Heap.set, Heap.write, ordinary, found, new, proto, Heap.addOwn, extensible]
    | some root =>
      obtain ⟨chain, chained, inheritable⟩ := above root proto
      have assigned := Heap.set_inheritable (v := v) ordinary found extensible new chained proto
        inheritable
      rw [assigned, JSObj.assign, proto]

/-- Reading what is settable runs no code. -/
theorem read_inheritable (chained : h.Chain r chain) (inheritable : Heap.Inheritable k chain)
    (proto : JSValue) (n : Nat) : ∃ v, h.read proto k n r = .value v := by
  induction chain generalizing r n with
  | nil => exact chained.elim
  | cons e rest ih =>
    obtain ⟨o, obj⟩ := e
    obtain ⟨rfl, found, above⟩ := chained
    obtain ⟨plain, inherits⟩ := inheritable
    cases n with
    | zero => exact ⟨_, rfl⟩
    | succ n =>
      cases own : obj.own r k with
      | some p =>
        rw [own] at inherits
        have walk : h.read proto k (n+1) r = Heap.readOwn proto p := by
          cases kind : r.kind with
          | exotic callable => exact absurd kind (plain callable)
          | _ => simp only [Heap.read, kind, found, own]
        cases p with
        | data v writable enumerable configurable => exact ⟨v, walk⟩
        | _ => exact inherits.elim
      | none =>
        rw [own] at inherits
        cases parent : obj.proto with
        | none =>
          have walk : h.read proto k (n+1) r = .value .undefined := by
            cases kind : r.kind with
            | exotic callable => exact absurd kind (plain callable)
            | _ => simp only [Heap.read, kind, found, own, parent]
          exact ⟨_, walk⟩
        | some p =>
          have walk : h.read proto k (n+1) r = h.read proto k n p := by
            cases kind : r.kind with
            | exotic callable => exact absurd kind (plain callable)
            | _ => simp only [Heap.read, kind, found, own, parent]
          rw [walk]
          rw [parent] at above
          exact ih above inherits n

theorem Settable.get (settable : Settable h o k) : ∃ v, h.get o k = .value v := by
  obtain ⟨ordinary, obj, found, ⟨x, enumerable, configurable, own⟩ | ⟨new, extensible, above⟩⟩ :=
    settable
  · rw [← JSObj.own_ordinary ordinary] at own
    exact ⟨x, by simp [Heap.get, Heap.read, ordinary, found, own, Heap.readOwn]⟩
  · rw [← JSObj.own_ordinary ordinary] at new
    cases proto : obj.proto with
    | none => exact ⟨.undefined, by simp [Heap.get, Heap.read, ordinary, found, new, proto]⟩
    | some root =>
      obtain ⟨chain, chained, inheritable⟩ := above root proto
      obtain ⟨v, read⟩ := read_inheritable chained inheritable (h.protoValue o) h.size
      exact ⟨v, by simp [Heap.get, Heap.read, ordinary, found, new, proto, read]⟩

/-- A new object is in nobody's way. -/
theorem find_put_fresh (free : ¬h.Taken r.address) (new : JSObj) {obj : JSObj}
    (found : h.find o = some obj) : (h.put r new).find o = some obj := by
  have other : o ≠ r := by
    rintro rfl
    exact free (Heap.taken_of_live (Heap.live_of_find found))
  rw [Heap.find_put (.inr free), if_neg other, found]

theorem chain_put_fresh {p : ObjRef} (free : ¬h.Taken r.address) (new : JSObj)
    (chained : h.Chain p chain) : (h.put r new).Chain p chain := by
  induction chain generalizing p with
  | nil => exact chained.elim
  | cons e rest ih =>
    obtain ⟨o, obj⟩ := e
    obtain ⟨rfl, found, above⟩ := chained
    refine ⟨rfl, find_put_fresh free new found, ?_⟩
    cases parent : obj.proto with
    | none =>
      rw [parent] at above
      exact above
    | some p =>
      rw [parent] at above
      exact ih above

theorem Settable.put_fresh (settable : Settable h o k) (free : ¬h.Taken r.address) (new : JSObj) :
    Settable (h.put r new) o k := by
  obtain ⟨ordinary, obj, found, own | ⟨missing, extensible, above⟩⟩ := settable
  · exact ⟨ordinary, obj, find_put_fresh free new found, .inl own⟩
  · refine ⟨ordinary, obj, find_put_fresh free new found, .inr ⟨missing, extensible, ?_⟩⟩
    intro root proto
    obtain ⟨chain, chained, inheritable⟩ := above root proto
    exact ⟨chain, chain_put_fresh free new chained, inheritable⟩

end

section

variable {S : Setting Op Reply World} {ctx : Ctx} {w w' w₁ w₂ : World} {v : JSValue}
  {h : List (Event Op Reply)} {out : Except DartError Unit}

/-- The same runtime, up to the counts of values that have no references. -/
def SameRuntime (w w' : World) : Prop :=
  w' = { w with held := w'.held } ∧ ∀ v, Counted v → w'.held v = w.held v

theorem debit_credit (w : World) (v : JSValue) : (w.credit v).debit v = w := by
  simp [World.credit, World.debit]

theorem debit_credit_other (w : World) (v x : JSValue) :
    ((w.credit v).credit x).debit v = w.credit x := by
  by_cases same : x = v
  · rw [same, debit_credit]
  · have other : v ≠ x := fun h => same h.symm
    simp only [World.credit, World.debit, World.mk.injEq, true_and, and_true]
    funext y
    by_cases first : y = v
    · simp [first, other]
    · by_cases second : y = x
      · simp [second, same]
      · simp [first, second]

theorem run_newAtom {α : Type} {name : CString} {f : PropKey → Action α} {out : Except DartError α}
    (run : Exec (env.answers S) (newAtom name >>= f) w h out w') :
    ∃ k h', Exec (env.answers S) (f k) w h' out w' ∧ h' ⊆ h ∧
      (k = .string (fromUtf8 name) ∨ (⟨.findAtom name,k⟩ : Event Op Reply) ∈ h) := by
  by_cases isLiteral : literal name = true
  · rw [newAtom_of_literal isLiteral] at run
    exact ⟨_, h, run, List.Subset.refl _, .inl rfl⟩
  · rw [newAtom, if_neg isLiteral] at run
    obtain ⟨k, w₁, h₁, ⟨-, ⟨-, own⟩ | ⟨runs, -⟩⟩, rest, rfl⟩ := Exec.ask_iff.mp run
    · rw [(direct_findAtom own).2] at rest
      exact ⟨k, h₁, rest, List.subset_cons_self .., .inr (by simp)⟩
    · exact runs.elim

/-- The runs of `registerEvalToGlobal` in which the name is taken for itself: the reading, the
assignment where it gave undefined. -/
theorem registerEvalToGlobal_runs {name : CString}
    (run : Exec (env.answers S) (Binding.registerEvalToGlobal ctx name) w h out w')
    (own : ∀ k, (⟨.findAtom name,k⟩ : Event Op Reply) ∈ h → k = .string (fromUtf8 name)) :
    ∃ old w₂, env.answers S (.getProperty ctx (.object (w.realm ctx).global)
        (.string (fromUtf8 name))) (w.credit (.object (w.realm ctx).global)) old w₂ ∧
      (⟨.getProperty ctx (.object (w.realm ctx).global) (.string (fromUtf8 name)), old⟩ :
        Event Op Reply) ∈ h ∧
      (old ≠ .undefined → w' = w₂.debit (.object (w.realm ctx).global)) ∧
      (old = .undefined → ∃ f r w₃ w₄, env.answers S (.newCFunction ctx name) w₂ f w₃ ∧
        env.answers S (.setProperty ctx (.object (w.realm ctx).global)
          (.string (fromUtf8 name)) f) w₃ r w₄ ∧
        w' = w₄.debit (.object (w.realm ctx).global)) := by
  obtain ⟨g, w₁, h₁, ⟨-, ⟨-, rfl, rfl⟩ | ⟨runs, -⟩⟩, run₁, rfl⟩ := Exec.ask_iff.mp run
  · obtain ⟨k, h₂, run₂, part₂, found⟩ := run_newAtom run₁
    obtain rfl : k = .string (fromUtf8 name) :=
      found.elim id fun event => own k (List.mem_cons_of_mem _ event)
    obtain ⟨old, w₂, h₃, read, run₃, rfl⟩ := Exec.ask_iff.mp run₂
    refine ⟨old, w₂, read, List.mem_cons_of_mem _ (part₂ (List.mem_cons_self ..)), ?_⟩
    by_cases missing : old = .undefined
    · refine ⟨fun other => absurd missing other, fun _ => ?_⟩
      simp only [Program.bind, missing, if_true] at run₃
      obtain ⟨f, w₃, h₄, made, run₄, rfl⟩ := Exec.ask_iff.mp run₃
      obtain ⟨k, h₅, run₅, part₅, found⟩ := run_newAtom run₄
      obtain rfl : k = .string (fromUtf8 name) := found.elim id fun event =>
        own k (List.mem_cons_of_mem _ (part₂ (by simp [event])))
      obtain ⟨r, w₄, h₆, written, run₆, rfl⟩ := Exec.ask_iff.mp run₅
      obtain ⟨u, w₅, h₇, ⟨-, ⟨-, -, rfl⟩ | ⟨runs, -⟩⟩, run₇, rfl⟩ := Exec.ask_iff.mp run₆
      · obtain ⟨rfl, rfl, rfl⟩ := Exec.done_iff.mp run₇
        exact ⟨f, r, w₃, w₄, made, written, rfl⟩
      · exact runs.elim
    · refine ⟨fun _ => ?_, fun same => absurd same missing⟩
      simp only [Program.bind, missing, if_false] at run₃
      obtain ⟨u, w₅, h₅, ⟨-, ⟨-, -, rfl⟩ | ⟨runs, -⟩⟩, run₅, rfl⟩ := Exec.ask_iff.mp run₃
      · obtain ⟨rfl, rfl, rfl⟩ := Exec.done_iff.mp run₅
        rfl
      · exact runs.elim
  · exact runs.elim

end

section

variable [PackageFfi]

/-- One call of `registerEvalToGlobal`. -/
structure Call where
  before : World
  name : Option Units
  history : List (Event Op Reply)
  after : World

/-- Calls one after the other. -/
inductive Calls (S : Setting Op Reply World) (self : Instance) : World → List Call → World → Prop
  | nil (w : World) : Calls S self w [] w
  | cons {w w₁ w' : World} {name : Option Units} {h : List (Event Op Reply)}
      {out : Except DartError Unit} {calls : List Call}
      (call : Exec (env.answers S) (self.registerEvalToGlobal name) w h out w₁)
      (rest : Calls S self w₁ calls w') : Calls S self w (⟨w,name,h,w₁⟩ :: calls) w'

def globalOf (self : Instance) (w : World) : ObjRef := (w.realm self.ctx).global

/-- Reading the name gives `old`; `w₁` is the world after it, with the references dropped. -/
def Reads (S : Setting Op Reply World) (self : Instance) (k : PropKey) (w : World) (old : JSValue)
    (w₁ : World) : Prop :=
  ∃ w₂, env.answers S (.getProperty self.ctx (.object (globalOf self w)) k)
      (w.credit (.object (globalOf self w))) old w₂ ∧
    w₁ = (w₂.debit old).debit (.object (globalOf self w))

/-- A new function object stands under the name; `obj` is what the global object was. -/
def installed (self : Instance) (k : PropKey) (address : Nat) (obj : JSObj)
    (enumerable configurable : Bool) (w : World) : World :=
  let made := w.allocate address .function (w.realm self.ctx).functionProto
  { made with heap := made.heap.put (globalOf self w) { obj with
      properties := obj.properties.insert k
        (.data (.object ⟨address,w.serial,.function⟩) true enumerable configurable) } }

/-- The global object has a new function object under the name, and nothing else is new. -/
def Adds (self : Instance) (k : PropKey) (w w' : World) : Prop :=
  ∃ address obj enumerable configurable, ¬w.heap.Taken address ∧
    (w.allocate address .function (w.realm self.ctx).functionProto).heap.find (globalOf self w) =
      some obj ∧
    SameRuntime (installed self k address obj enumerable configurable w) w'

/-- The call adds the one property where reading the name gave undefined, and else leaves the
runtime as reading the name leaves it. -/
def AddsOrKeeps (S : Setting Op Reply World) (self : Instance) (call : Call) : Prop :=
  match call.name with
  | some (c :: name) => ∃ old w₁, Reads S self (.string (c :: name)) call.before old w₁ ∧
      old ≠ .exception ∧
      (old = .undefined → Adds self (.string (c :: name)) w₁ call.after) ∧
      (old ≠ .undefined → SameRuntime w₁ call.after)
  | _ => call.after = call.before

/-- The name is taken for itself, what reading it gave has no references and is no exception, and
where it gave undefined the name can be assigned on the global object. -/
def Registrable (self : Instance) (call : Call) : Prop :=
  match call.name with
  | some (c :: name) => Clean (c :: name) ∧
      (∀ k, (⟨.findAtom (toNativeUtf8 (c :: name)), k⟩ : Event Op Reply) ∈ call.history →
        k = .string (c :: name)) ∧
      ∀ old, (⟨.getProperty self.ctx (.object (globalOf self call.before)) (.string (c :: name)),
          old⟩ : Event Op Reply) ∈ call.history →
        ¬Counted old ∧ old ≠ .exception ∧
        (old = .undefined → Settable call.before.heap (globalOf self call.before)
          (.string (c :: name)))
  | _ => True

variable {S : Setting Op Reply World} {self : Instance} {w w' : World} {name : Option Units}
  {h : List (Event Op Reply)} {out : Except DartError Unit}

omit [PackageFfi] in
/-- An assignment that stores does so, and its references are consumed. -/
theorem setProperty_stored {ctx : Ctx} {o : ObjRef} {k : PropKey} {x : JSValue} {heap : Heap}
    {status : Int32} {w₁ : World} (stored : w.heap.set o k x = .stored heap)
    (written : env.answers S (.setProperty ctx (.object o) k x) w status w₁) :
    w₁ = { w.debit x with heap := heap } := by
  have writes : w.writes (.object o) k x = .stored heap := stored
  obtain ⟨-, ⟨-, own⟩ | ⟨runs, -⟩⟩ := written
  · have known : answer (.setProperty ctx (.object o) k x) w =
        some (1, { w.debit x with heap := heap }) := by
      simp only [answer, writes]
    exact (direct_known own known).2
  · have code : foreign (.setProperty ctx (.object o) k x) w := runs
    simp only [foreign, writes] at code

omit [PackageFfi] in
/-- Where the name can be assigned, the function object goes there. -/
theorem adds_of_settable {k : PropKey} {bytes : CString} {r : JSValue} {status : Int32}
    {w₁ w₂ : World} (settable : Settable w.heap (globalOf self w) k)
    (made : env.answers S (.newCFunction self.ctx bytes)
      ((w.credit (.object (globalOf self w))).credit .undefined) r w₁)
    (written : env.answers S (.setProperty self.ctx (.object (globalOf self w)) k r) w₁ status w₂) :
    Adds self k w (w₂.debit (.object (globalOf self w))) := by
  obtain ⟨-, ⟨-, address, free, rfl, rfl⟩ | ⟨runs, -⟩⟩ := made
  · have fresh := settable.put_fresh (r := ⟨address,w.serial,.function⟩) free
      (.bare (some (w.realm self.ctx).functionProto))
    obtain ⟨obj, enumerable, configurable, found, stored⟩ :=
      fresh.set (.object ⟨address,w.serial,.function⟩)
    have after := setProperty_stored stored written
    refine ⟨address, obj, enumerable, configurable, free, found, ?_⟩
    rw [after]
    refine ⟨by simp only [installed, World.debit, World.credit, World.allocate, globalOf],
      fun v counted => ?_⟩
    have other : v ≠ .undefined := by
      rintro rfl
      exact counted
    have balanced := congrArg (fun x : World => x.held v)
      (debit_credit_other w (.object (globalOf self w)) .undefined)
    have consumed := congrArg World.held (debit_credit
      ((w.credit (.object (globalOf self w))).credit .undefined)
      (.object ⟨address,w.serial,.function⟩))
    have same : (w.credit .undefined).held v = w.held v := by simp [World.credit, other]
    refine Eq.trans ?_ (balanced.trans same)
    change Function.update _ _ _ _ = Function.update _ _ _ _
    exact congrArg (fun held : JSValue → Int => Function.update held (.object (globalOf self w))
      (held (.object (globalOf self w)) - 1) v) consumed
  · exact runs.elim

omit [PackageFfi] in
theorem sameRuntime_debit {old : JSValue} (uncounted : ¬Counted old) (w : World) (o : ObjRef) :
    SameRuntime ((w.debit old).debit (.object o)) (w.debit (.object o)) := by
  refine ⟨rfl, fun v counted => ?_⟩
  have others : ∀ v, Counted v → (w.debit old).held v = w.held v := by
    intro v counted
    have other : v ≠ old := by
      rintro rfl
      exact uncounted counted
    simp [World.debit, other]
  have object := others (.object o) trivial
  by_cases same : v = .object o
  · rw [same]
    change Function.update _ _ _ _ = Function.update _ _ _ _
    simp [object]
  · change Function.update _ _ _ _ = Function.update _ _ _ _
    simp [same, others v counted]

/-- One call: what it may do follows from what reading the name gave. -/
theorem addsOrKeeps_of_registrable
    (run : Exec (env.answers S) (self.registerEvalToGlobal name) w h out w')
    (meets : Registrable self ⟨w,name,h,w'⟩) : AddsOrKeeps S self ⟨w,name,h,w'⟩ := by
  cases name with
  | none =>
    obtain ⟨u, w₁, h₁, ⟨-, ⟨-, -, rfl⟩ | ⟨runs, -⟩⟩, run₁, rfl⟩ := Exec.ask_iff.mp run
    · exact (Exec.done_iff.mp run₁).2.2
    · exact runs.elim
  | some name =>
    cases name with
    | nil =>
      obtain ⟨u, w₁, h₁, ⟨-, ⟨-, -, rfl⟩ | ⟨runs, -⟩⟩, run₁, rfl⟩ := Exec.ask_iff.mp run
      · exact (Exec.done_iff.mp run₁).2.2
      · exact runs.elim
    | cons c name =>
      obtain ⟨clean, itself, meets⟩ := meets
      have text := fromUtf8_toNativeUtf8_of_clean clean
      have runs := registerEvalToGlobal_runs run (by rwa [text])
      rw [text] at runs
      obtain ⟨old, w₂, read, event, kept, added⟩ := runs
      obtain ⟨uncounted, noException, settable⟩ := meets old event
      refine ⟨old, _, ⟨w₂, read, rfl⟩, noException, fun missing => ?_, fun other => ?_⟩
      · have assignable := settable missing
        obtain ⟨f, r, w₃, w₄, made, written, rfl⟩ := added missing
        obtain ⟨v, value⟩ := assignable.get
        have own : ¬foreign (.getProperty self.ctx (.object (globalOf self w)) (.string (c :: name)))
            (w.credit (.object (globalOf self w))) := by
          intro runs
          have code : w.heap.get (globalOf self w) (.string (c :: name)) = .code := runs
          rw [value] at code
          cases code
        obtain ⟨-, ⟨-, known⟩ | ⟨runs, -⟩⟩ := read
        · obtain ⟨-, rfl⟩ := direct_getProperty known
          subst missing
          rw [debit_credit]
          have whole := adds_of_settable assignable made written
          have same := debit_credit w (.object (globalOf self w))
          change Adds self _ ((w.credit (.object (globalOf self w))).debit
            (.object (globalOf self w))) _
          rw [same]
          exact whole
        · exact absurd runs own
      · rw [kept other]
        exact sameRuntime_debit uncounted w₂ _

omit [PackageFfi] in
/-- A call that is neutral leaves the counts as they were, if code behind the name does. -/
theorem held_of_addsOrKeeps {call : Call}
    (evolves : ∀ w w', S.rely w w' → Evolves w w') (neutral : AddsOrKeeps S self call) (v : JSValue)
    (counted : Counted v) : call.after.held v = call.before.held v := by
  obtain ⟨before, name, history, after⟩ := call
  have unnamed : after = before → after.held v = before.held v := by
    rintro rfl
    rfl
  cases name with
  | none => exact unnamed neutral
  | some name =>
    cases name with
    | nil => exact unnamed neutral
    | cons c name =>
      obtain ⟨old, w₁, ⟨w₂, read, rfl⟩, noException, missing, other⟩ := neutral
      have gained : w₂.held =
          ((before.credit (.object (globalOf self before))).credit old).held := by
        obtain ⟨-, ⟨-, known⟩ | ⟨-, w₃, between, returned⟩⟩ := read
        · obtain ⟨-, rfl⟩ := direct_getProperty known
          rfl
        · rcases returned with ⟨bad, -⟩ | ⟨-, rfl⟩
          · exact absurd bad noException
          · have same : w₃.held = _ := congrArg World.held (evolves _ _ between).rest
            change Function.update _ _ _ = Function.update _ _ _
            rw [same]
      have balanced : ((w₂.debit old).debit (.object (globalOf self before))).held = before.held := by
        have first := congrArg World.held (debit_credit
          (before.credit (.object (globalOf self before))) old)
        have second := congrArg World.held
          (debit_credit before (.object (globalOf self before)))
        rw [← second]
        change Function.update (w₂.debit old).held _ ((w₂.debit old).held _ - 1) = _
        have dropped : (w₂.debit old).held = (before.credit (.object (globalOf self before))).held := by
          rw [← first]
          change Function.update w₂.held _ (w₂.held _ - 1) = _
          rw [gained]
          rfl
        rw [dropped]
        rfl
      by_cases gave : old = .undefined
      · obtain ⟨address, obj, enumerable, configurable, -, -, -, held⟩ := missing gave
        exact (held v counted).trans (congrFun balanced v)
      · exact ((other gave).2 v counted).trans (congrFun balanced v)

/-- In a sequence of calls of any names, whatever the global object has, each call that reads a
value without references adds its property or changes nothing, and after the sequence every
count is what it was before. -/
theorem registration_neutral {calls : List Call}
    (evolves : ∀ w w', S.rely w w' → Evolves w w') (sequence : Calls S self w calls w')
    (meets : ∀ call ∈ calls, Registrable self call) :
    (∀ call ∈ calls, AddsOrKeeps S self call) ∧ ∀ v, Counted v → w'.held v = w.held v := by
  induction sequence with
  | nil w => exact ⟨by simp, fun _ _ => rfl⟩
  | cons call rest ih =>
    have first := addsOrKeeps_of_registrable call (meets _ (by simp))
    obtain ⟨others, same⟩ := ih fun call inside => meets call (List.mem_cons_of_mem _ inside)
    refine ⟨fun call inside => ?_, fun v counted => ?_⟩
    · rcases List.mem_cons.mp inside with rfl | later
      · exact first
      · exact others call later
    · exact (same v counted).trans (held_of_addsOrKeeps evolves first v counted)

def globalRef : ObjRef := ⟨1,0,.ordinary⟩

def evalRef : ObjRef := ⟨2,1,.function⟩

/-- A global object with a number under `n` and a function under `f`. -/
def registeredWorld : World :=
  { World.initial with
    heap := (World.initial.heap.put globalRef
      ⟨(OrderedMap.empty.insert (.string (units "n")) (.data (.int 1) true true true)).insert
        (.string (units "f")) (.data (.object evalRef) true true true), none, true, 0, true, some 0⟩).put evalRef
      (.bare none)
    serial := 2
    realm := fun _ => ⟨globalRef,globalRef,globalRef,globalRef⟩ }

omit [PackageFfi] in
theorem fresh_known (op : Op) (w : World) (r : Reply op) (w' : World)
    (answered : scripted (fun _ _ => none) op w = some (r,w')) :
    env.answers (.plain Eq False) op w r w' :=
  scripted_answers (fun _ => rfl) (fun _ _ _ _ replied => by cases replied) op w r w' answered

omit [PackageFfi] in
/-- What a call does that reads a number under `n`. -/
theorem reads_number (w : World)
    (reads : w.heap.get (w.realm 0).global (.string (units "n")) = .value (.int 1)) :
    letI := PackageFfi.utf8
    ∃ h w', Exec (env.answers (.plain Eq False))
      (Instance.registerEvalToGlobal ⟨0,.box 0⟩ (some (units "n"))) w h (.ok ()) w' ∧
      Registrable ⟨0,.box 0⟩ ⟨w,some (units "n"),h,w'⟩ ∧ w'.heap = w.heap ∧ w'.realm = w.realm := by
  let _ := PackageFfi.utf8
  have gave : answer (.getProperty 0 (.object (w.realm 0).global) (.string (units "n")))
      (w.credit (.object (w.realm 0).global)) =
        some (.int 1, (w.credit (.object (w.realm 0).global)).credit (.int 1)) := by
    have value : (w.credit (.object (w.realm 0).global)).reads (.object (w.realm 0).global)
        (.string (units "n")) = .value (.int 1) := reads
    simp only [answer, value]
  refine ⟨_, _, .ask (plain_known (.getGlobalObject 0) w _ _ rfl) (.ask (plain_known _ _ _ _ gave)
    (.ask (plain_known (.freeValue _) _ _ _ rfl) (.done _ _))), ?_, rfl, rfl⟩
  refine ⟨by decide, fun k event => by simp at event, fun old event => ?_⟩
  have number : old = .int 1 := by
    simp at event
    exact event.2
  rw [number]
  exact ⟨id, by simp, fun missing => by cases missing⟩

omit [PackageFfi] in
/-- The eval function goes under `g`, and the number under `n` stays, twice. -/
theorem registration_neutral_thrice :
    letI := PackageFfi.utf8
    ∃ calls w', Calls (.plain Eq False) ⟨0,.box 0⟩ registeredWorld calls w' ∧
      calls.map Call.name = [some (units "g"), some (units "n"), some (units "n")] ∧
      (∀ call ∈ calls, AddsOrKeeps (.plain Eq False) ⟨0,.box 0⟩ call) ∧
      ∀ v, Counted v → w'.held v = registeredWorld.held v := by
  let _ := PackageFfi.utf8
  obtain ⟨w₁, adds, number, realm⟩ : ∃ w₁, Exec (env.answers (.plain Eq False))
      (Instance.registerEvalToGlobal ⟨0,.box 0⟩ (some (units "g"))) registeredWorld
      [⟨.getGlobalObject 0,.object globalRef⟩,
        ⟨.getProperty 0 (.object globalRef) (.string (units "g")),.undefined⟩,
        ⟨.newCFunction 0 (toNativeUtf8 (units "g")),.object ⟨3,2,.function⟩⟩,
        ⟨.setProperty 0 (.object globalRef) (.string (units "g")) (.object ⟨3,2,.function⟩),
          (1 : Int32)⟩,
        ⟨.freeValue (.object globalRef),()⟩] (.ok ()) w₁ ∧
      w₁.heap.get globalRef (.string (units "n")) = .value (.int 1) ∧ w₁.realm = registeredWorld.realm :=
    ⟨_, Exec.of_trace fresh_known rfl, by decide, rfl⟩
  have here : (w₁.realm 0).global = globalRef := congrArg (fun realm => (realm 0).global) realm
  obtain ⟨h₂, w₂, second, meets₂, heap₂, realm₂⟩ := reads_number w₁ (by rw [here]; exact number)
  have there : (w₂.realm 0).global = globalRef := by rw [realm₂, here]
  obtain ⟨h₃, w₃, third, meets₃, -, -⟩ := reads_number w₂ (by rw [there, heap₂]; exact number)
  have sequence := Calls.cons adds (.cons second (.cons third (.nil _)))
  refine ⟨_, _, sequence, rfl, registration_neutral (fun w w' => Evolves.of_eq) sequence ?_⟩
  intro call inside
  simp only [List.mem_cons, List.not_mem_nil, or_false] at inside
  rcases inside with rfl | rfl | rfl
  · refine ⟨by decide, fun k event => by simp at event, fun old event => ?_⟩
    have missing : old = .undefined := by
      simp at event
      exact event.2
    rw [missing]
    exact ⟨id, by simp, fun _ => ⟨rfl, _, rfl, .inr ⟨rfl, rfl, fun root none => by cases none⟩⟩⟩
  · exact meets₂
  · exact meets₃

/-- In every sequence each call adds its property or changes nothing, and the counts stay. -/
def AlwaysAddsOrKeeps : Prop :=
  ∀ S self w calls w', (∀ w w', S.rely w w' → Evolves w w') → Calls S self w calls w' →
    (∀ call ∈ calls, AddsOrKeeps S self call) ∧ ∀ v, Counted v → w'.held v = w.held v

omit [PackageFfi] in
/-- Where a function is registered already, the call takes a reference on it and keeps it. -/
theorem not_alwaysAddsOrKeeps_again :
    letI := PackageFfi.utf8
    ¬AlwaysAddsOrKeeps := by
  let _ := PackageFfi.utf8
  intro always
  have run : Exec (env.answers (.plain Eq False))
      (Instance.registerEvalToGlobal ⟨0,.box 0⟩ (some (units "f"))) registeredWorld
      [⟨.getGlobalObject 0,.object globalRef⟩,
        ⟨.getProperty 0 (.object globalRef) (.string (units "f")),.object evalRef⟩,
        ⟨.freeValue (.object globalRef),()⟩] (.ok ()) _ := Exec.of_trace plain_known rfl
  have same := (always _ _ _ _ _ (fun w w' => Evolves.of_eq) (Calls.cons run (.nil _))).2
    (.object evalRef) trivial
  revert same
  decide

end

end FlutterQuickjs.Scripts
