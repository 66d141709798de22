import FlutterQuickjs.Binding.Objects
import FlutterQuickjs.Conversion.Isomorphism

namespace FlutterQuickjs.Conversion

open Engine Binding ValueConverter
open Effect

/-- The name under which `getProperty` reads what a Dart container has at a step. -/
def propName : Step MapKey → DartVal
  | .index i => .int (Int64.ofNat i)
  | .key (.string s) => .string s
  | .key _ => .null

/-- Reading through `JSObject`s down to a property, and converting that alone. -/
def readAt [PackageFfi] (fuel : Nat) (ctx : Ctx) (val : Ptr) (names : List DartVal) :
    Action DartVal := do
  let jval ← toDartJSValue ctx val false
  let prop ← JSObject.lookup jval names
  prop.toDartValue fuel .null

/-- The same primitive, or wrappers of the same function of JS. -/
def Coinciding (w₁ w₂ : World) (ctx : Ctx) (d₁ d₂ : DartVal) : Prop :=
  ∃ v, LeafImage w₁ ctx v d₁ ∧ LeafImage w₂ ctx v d₂

section

variable {rely : World → World → Prop} {total : Prop} {ctx : Ctx} {w w' w'' : World} {o : ObjRef}
  {v m : JSValue} {p : Ptr} {s : Step PropKey}

theorem toNat_ofNat_of_small {i : Nat} (small : i < 2^31) :
    (UInt32.ofNat (Int64.ofNat i).toUInt64.toNat).toNat = i := by
  have word : (Int64.ofNat i).toUInt64.toNat = i := by
    change (UInt64.ofNat i).toNat = i
    exact UInt64.toNat_ofNat_of_lt' (small.trans (by decide))
  rw [word]
  exact UInt32.toNat_ofNat_of_lt' (small.trans (by decide))

theorem readLength_small (n : UInt32) : readLength n < 2^31 := by
  by_cases short : n.toNat < 2^31
  · rw [readLength_of_lt short]
    exact short
  · rw [readLength_of_ge (by omega)]
    decide

theorem Untouched.refl (w : World) : Untouched w w := (Extends.refl 0 w).untouched

theorem Untouched.fetch (w : World) (v : JSValue) : Untouched w (w.fetch v) :=
  (Extends.fetch (c := 0) w v).untouched

theorem Untouched.wrap (w : World) (ctx : Ctx) (p : Ptr) : Untouched w (w.wrap ctx p) :=
  (Extends.wrap (c := 0) w ctx p).untouched

theorem DataOnly.follow {len : UInt32 → Nat} {h : Heap} {path : List (Step PropKey)}
    (data : DataOnly len h v) (leads : (jsGraph len h).follow v path = some m) :
    DataOnly len h m := by
  intro rest x further
  refine data (path ++ rest) x ?_
  rwa [ValueGraph.follow_append, leads, Option.bind_some]

theorem Texts.follow {ok : Units → Prop} {len : UInt32 → Nat} {h : Heap}
    {path : List (Step PropKey)} (texts : Texts ok len h v)
    (leads : (jsGraph len h).follow v path = some m) : Texts ok len h m := by
  intro rest x further
  refine texts (path ++ rest) x ?_
  rwa [ValueGraph.follow_append, leads, Option.bind_some]

/-- The names of a path, which the engine takes for themselves. -/
def Literal (path : List (Step MapKey)) : Prop :=
  ∀ s, .key (.string s) ∈ path → literal (toUtf8 s) = true

/-- A value with a child is an object, and its wrapper has the operator `[]`. -/
theorem object_of_child (child : (jsGraph readLength w.heap v).child s = some m) :
    ∃ o obj, v = .object o ∧ w.heap.find o = some obj ∧
      (o.kind = .array ∨ o.kind = .ordinary) ∧ classOf v ≠ .value := by
  cases v with
  | object o =>
    cases kind : o.kind with
    | array =>
      cases found : w.heap.find o with
      | none =>
        simp only [jsGraph, kind, found] at child
        cases child
      | some obj => exact ⟨o, obj, rfl, found, .inl kind, by simp [classOf, JSValue.isFunction, kind]⟩
    | ordinary =>
      cases found : w.heap.find o with
      | none =>
        simp only [jsGraph, kind, found] at child
        cases child
      | some obj => exact ⟨o, obj, rfl, found, .inr kind, by simp [classOf, JSValue.isFunction, kind]⟩
    | _ =>
      simp only [jsGraph, kind] at child
      cases child
  | _ => cases child

variable [PackageFfi]

/-- What `getProperty` answers for a step of the graph: the value at its end, in a new box. -/
theorem quiet_getProperty {jval : JSRef} (same : jval.ctx = ctx) (holds : Holds w jval.val v)
    (data : DataOnly readLength w.heap v) (clean : Texts Unmarked readLength w.heap v)
    (child : (jsGraph readLength w.heap v).child s = some m)
    (isLiteral : Literal [s.map keyImage])
    {Q : Except DartError (Option JSRef) → World → Prop}
    (rest : Q (.ok (some ⟨classOf m,ctx,w.lastBox⟩)) ((w.fetch m).wrap ctx w.lastBox)) :
    wp env (quiet rely total) (JSObject.getProperty jval (propName (s.map keyImage))) Q w := by
  obtain ⟨o, obj, rfl, found, kind, -⟩ := object_of_child child
  have atBox : Holds (w.fetch m) w.lastBox m := holds_lastBox (w.credit _) _
  have plain : ∀ o callable, (w.fetch m).value w.lastBox = .object o →
      o.kind ≠ .exotic callable := (data.child child).plain atBox.value
  have wrapped : ∀ k, w.reads (w.value jval.val) k = .value m →
      wp env (quiet rely total) (do
        let prop ← jsGetProperty jval.ctx jval.val k
        let jsval ← toDartJSValue jval.ctx prop false
        return some jsval) Q w := by
    intro k reads
    rw [same, wp_bind, quiet_jsGetProperty reads, andThen_ok, wp_bind,
      quiet_toDartJSValue plain, andThen_ok, wp_pure, atBox.value]
    exact rest
  cases kind with
  | inl array =>
    have graph := jsGraph_array readLength array found
    rw [graph] at child
    cases s with
    | key k => cases child
    | index i =>
      have inside := (List.getElem?_eq_some_iff.mp child).1
      rw [List.length_map, List.length_range] at inside
      change ((List.range _).map _)[i]? = some m at child
      rw [List.getElem?_map, List.getElem?_range inside] at child
      cases child
      have small := readLength_small obj.length
      have node := data.node
      simp only [DataNode, array] at node
      obtain ⟨obj', found', readable⟩ := node
      cases Option.some.inj (found.symm.trans found')
      refine wrapped (.index _) ?_
      rw [holds.value, toNat_ofNat_of_small (by omega)]
      exact element_eq (readable i inside)
  | inr ordinary =>
    have graph := jsGraph_ordinary readLength ordinary found
    have names := clean.node
    rw [TextNode, graph] at names
    rw [graph] at child
    cases s with
    | index i => cases child
    | key k =>
      obtain ⟨member, rfl⟩ := find_ownRecord.mp child
      obtain ⟨⟨name, rfl⟩, readable⟩ := data.property ordinary found member
      have text := names name ((keys_ownRecord obj).symm ▸ member)
      have known : literal (toUtf8 name) = true := isLiteral name List.mem_cons_self
      have reads := wrapped (.string name) (by rw [holds.value]; exact readable)
      rw [← jsGetPropertyStr_toNativeUtf8 text.1 known] at reads
      exact reads

/-- Reading down a path of the graph leads to the value at its end. -/
theorem quiet_lookup {path : List (Step PropKey)} {jval : JSRef} (same : jval.ctx = ctx)
    (typed : jval.cls = classOf v) (holds : Holds w jval.val v)
    (data : DataOnly readLength w.heap v) (clean : Texts Unmarked readLength w.heap v)
    (leads : (jsGraph readLength w.heap).follow v path = some m)
    (isLiteral : Literal (path.map (·.map keyImage)))
    {Q : Except DartError JSRef → World → Prop}
    (rest : ∀ prop w', prop.ctx = ctx → Holds w' prop.val m → Untouched w w' → Q (.ok prop) w') :
    wp env (quiet rely total)
      (JSObject.lookup jval (path.map fun s => propName (s.map keyImage))) Q w := by
  induction path generalizing jval w v with
  | nil =>
    cases leads
    exact rest jval w same holds (.refl w)
  | cons s path ih =>
    obtain ⟨x, child, further⟩ := ValueGraph.follow_cons_some.mp leads
    obtain ⟨o, obj, -, -, -, operator⟩ := object_of_child child
    rw [List.map_cons, JSObject.lookup, if_neg (typed ▸ operator), wp_bind]
    refine quiet_getProperty same holds data clean child (fun n member => isLiteral n ?_) ?_
    · rw [List.mem_singleton.mp member]
      exact List.mem_cons_self
    rw [andThen_ok]
    have moved : Untouched w ((w.fetch x).wrap ctx w.lastBox) :=
      (Untouched.fetch w x).trans (.wrap _ _ _)
    have atBox : Holds (w.fetch x) w.lastBox x := holds_lastBox (w.credit _) _
    refine ih (v := x) rfl rfl (holds_wrap atBox) ?_ ?_ ?_
      (fun n member => isLiteral n (List.mem_cons_of_mem _ member)) fun prop w' inside at_m further => ?_
    · rw [moved.heap]
      exact data.child child
    · rw [moved.heap]
      exact clean.child child
    · rw [moved.heap]
      exact further
    · exact rest prop w' inside at_m (moved.trans further)

omit [PackageFfi] in
theorem showsGraph_of_untouched {out : Except DartError DartVal} (moved : Untouched w w')
    (shown : ShowsGraph LeafImage keyImage readLength ctx w' m out w'') :
    ShowsGraph LeafImage keyImage readLength ctx w m out w'' := by
  cases out with
  | error e => exact shown
  | ok d =>
    obtain ⟨still, iso⟩ := shown
    rw [moved.heap] at iso
    exact ⟨moved.trans still, iso⟩

/-- `toDartValue` of a fresh `JSValue`. -/
theorem quiet_toDartValue {jval : JSRef} {fuel : Nat} (same : jval.ctx = ctx)
    (holds : Holds w jval.val v) (data : DataOnly readLength w.heap v)
    (texts : Texts Unmarked readLength w.heap v) (stack : w.heap.size < fuel) :
    wp env (quiet rely total) (jval.toDartValue fuel .null)
      (ShowsGraph LeafImage keyImage readLength ctx w v) w := by
  rw [JSRef.toDartValue, if_pos rfl]
  subst same
  refine wp_mono (toDartValue_read rely total holds data (texts.mono fun _ => And.left) stack)
    fun out w' read => ?_
  have shows_ := read.shows (.of_unmarked data texts)
  cases out with
  | error e => exact shows_
  | ok d => exact ⟨shows_.1, exact_of_unmarked texts shows_.2⟩

/-- What is at the end of a path converts to what it shows. -/
theorem quiet_lookupValue {path : List (Step PropKey)} {jval : JSRef} {fuel : Nat}
    (same : jval.ctx = ctx) (typed : jval.cls = classOf v) (holds : Holds w jval.val v)
    (data : DataOnly readLength w.heap v) (clean : Texts Unmarked readLength w.heap v)
    (stack : w.heap.size < fuel) (leads : (jsGraph readLength w.heap).follow v path = some m)
    (isLiteral : Literal (path.map (·.map keyImage))) :
    wp env (quiet rely total)
      (JSObject.lookup jval (path.map fun s => propName (s.map keyImage)) >>=
        fun prop => prop.toDartValue fuel .null)
      (ShowsGraph LeafImage keyImage readLength ctx w m) w := by
  rw [wp_bind]
  refine quiet_lookup same typed holds data clean leads isLiteral fun prop w' inside at_m moved => ?_
  have dataPart : DataOnly readLength w'.heap m := by
    rw [moved.heap]
    exact data.follow leads
  have cleanPart : Texts Unmarked readLength w'.heap m := by
    rw [moved.heap]
    exact clean.follow leads
  rw [andThen_ok]
  exact wp_mono (quiet_toDartValue inside at_m dataPart cleanPart (moved.heap ▸ stack))
    fun out w'' => showsGraph_of_untouched moved

theorem quiet_readAt {path : List (Step PropKey)} {val : Ptr} {fuel : Nat}
    (holds : Holds w val v) (data : DataOnly readLength w.heap v)
    (clean : Texts Unmarked readLength w.heap v) (stack : w.heap.size < fuel)
    (leads : (jsGraph readLength w.heap).follow v path = some m)
    (isLiteral : Literal (path.map (·.map keyImage))) :
    wp env (quiet rely total) (readAt fuel ctx val (path.map fun s => propName (s.map keyImage)))
      (ShowsGraph LeafImage keyImage readLength ctx w m) w := by
  have moved := Untouched.wrap w ctx val
  rw [readAt, wp_bind, quiet_toDartJSValue (data.plain holds.value), andThen_ok]
  rw [← moved.heap] at data clean stack leads
  exact wp_mono (quiet_lookupValue rfl (by rw [holds.value]) (holds_wrap holds) data clean stack
      leads isLiteral)
    fun out w'' => showsGraph_of_untouched moved

/-- What `JSObject`s read at a path of a converted value is what the conversion has there: the
same primitives and functions, in containers that are shared in the same places. -/
theorem readAt_agrees (rely : World → World → Prop) (ctx : Ctx) (val : Ptr) (v : JSValue) (w : World)
    (fuel : Nat) (holds : Holds w val v) (data : DataOnly readLength w.heap v)
    (clean : Texts Unmarked readLength w.heap v) (stack : w.heap.size < fuel)
    {h : List (Event Op Reply)} {d d₁ : DartVal} {w₁ : World}
    (converted : Exec (env.answers (.plain rely False))
      (toDartValueFromJs (fun jval => toDartValue fuel jval none) ctx val) w h (.ok d) w₁)
    {path : List (Step MapKey)} (leads : (dartGraph w₁).follow d path = some d₁)
    (isLiteral : Literal path) :
    wp env (.plain rely True) (readAt fuel ctx val (path.map propName))
      (fun out w₂ => ∃ d₂, out = .ok d₂ ∧ Untouched w w₂ ∧
        ValueGraph.Iso (Coinciding w₁ w₂ ctx) id (dartGraph w₁) (dartGraph w₂) d₁ d₂) w := by
  have whole := quiet_fromJs rely False ctx holds data clean stack
  obtain ⟨-, iso⟩ := wp_sound (wp_guard_mono whole fun _ _ _ => trivial) converted
  obtain ⟨jsPath, m, rfl, leads', -⟩ := iso.source leads
  have part : wp env (quiet rely True)
      (readAt fuel ctx val (jsPath.map fun s => propName (s.map keyImage)))
      (ShowsGraph LeafImage keyImage readLength ctx w m) w := quiet_readAt holds data clean stack leads' isLiteral
  rw [List.map_map]
  refine wp_mono (wp_guard_mono part fun _ _ _ => trivial) fun out w₂ shown => ?_
  cases out with
  | error e => exact shown.elim
  | ok d₂ =>
    obtain ⟨still, iso'⟩ := shown
    exact ⟨d₂, rfl, still, (iso.follow leads' leads).span iso'⟩

end

theorem loop_data : DataOnly readLength loopWorld.heap (.object loopRef) := by
  refine DataOnly.readLength fun path v leads => ?_
  cases ValueGraph.follow_closed loop_closed rfl leads
  refine ⟨loopObj, by decide, fun k p own _ => ?_⟩
  have member : (k,p) ∈ [(PropKey.string (units "self"), Property.data (.object loopRef) true true true)] :=
    OrderedMap.find_eq_some.mp own
  cases List.mem_singleton.mp member
  exact ⟨⟨_, rfl⟩, _, _, _, _, rfl⟩

theorem loop_clean : Texts Unmarked readLength loopWorld.heap (.object loopRef) := by
  refine Texts.readLength fun path v leads => ?_
  cases ValueGraph.follow_closed loop_closed rfl leads
  intro s member
  have known : PropKey.string s ∈ [PropKey.string (units "self")] := by
    rwa [keys_ownRecord, loop_keys] at member
  cases List.mem_singleton.mp known
  decide

theorem loop_child : (jsGraph readLength loopWorld.heap).follow (.object loopRef)
    [.key (.string (units "self"))] = some (.object loopRef) := by
  decide +kernel

theorem readAt_agrees_loop :
    letI := PackageFfi.utf8
    ∃ h d w₁ d₁, Exec (env.answers (.plain Eq False))
        (toDartValueFromJs (fun jval => toDartValue 2 jval none) 0 (.box 0)) loopWorld h (.ok d) w₁ ∧
      (dartGraph w₁).follow d [.key (.string (units "self"))] = some d₁ ∧
      wp env (.plain Eq True) (readAt 2 0 (.box 0) [.string (units "self")])
        (fun out w₂ => ∃ d₂, out = .ok d₂ ∧ Untouched loopWorld w₂ ∧
          ValueGraph.Iso (Coinciding w₁ w₂ 0) id (dartGraph w₁) (dartGraph w₂) d₁ d₂) loopWorld := by
  let _ := PackageFfi.utf8
  have holds : Holds loopWorld (.box 0) (.object loopRef) := rfl
  have stack : loopWorld.heap.size < 2 := by decide
  have whole := wp_guard_mono (quiet_fromJs Eq True 0 holds loop_data loop_clean stack)
    (fun _ _ _ => trivial : ∀ op w, (quiet Eq True).guard op w → True)
  obtain ⟨h, out, w₁, run⟩ := wp_runs whole trivial
  have shown := wp_sound whole run
  cases out with
  | error e => exact shown.elim
  | ok d =>
    obtain ⟨d₁, leads, -⟩ := shown.2.forth _ _ loop_child
    refine ⟨h, d, w₁, d₁, run, leads, ?_⟩
    refine readAt_agrees Eq 0 (.box 0) (.object loopRef) loopWorld 2 holds loop_data loop_clean stack
      run leads ?_
    intro s member
    cases List.mem_singleton.mp member
    decide

end FlutterQuickjs.Conversion
