import FlutterQuickjs.Conversion.Decode

namespace FlutterQuickjs.Conversion

open Engine Binding ValueConverter
open Effect

variable [PackageFfi] {rely : World → World → Prop} {total : Prop} {c n : Nat} {ctx : Ctx}
  {w₀ w : World} {o : ObjRef} {obj : JSObj} {val : Ptr} {l m table : Nat}
  {convert : JSRef → Action DartVal}

omit [PackageFfi] in
theorem element_eq {h : Heap} {i : Nat} (readable : h.get o (.index i) ≠ .code) :
    h.get o (.index i) = .value (element h o i) := by
  unfold element
  cases read : h.get o (.index i) with
  | value v => rfl
  | code => exact absurd read readable

omit [PackageFfi] in
theorem jsGetPropertyUint32_eq {i : Nat} (small : i < 2^32) :
    jsGetPropertyUint32 ctx val i = jsGetProperty ctx val (.index i) := by
  rw [jsGetPropertyUint32, UInt32.toNat_ofNat_of_lt' small]

omit [PackageFfi] in
/-- What the array loop leaves: a longer list, or a reason to throw. -/
def FillsList (w₀ : World) (c : Nat) (ctx : Ctx) (o : ObjRef) (l i n : Nat) :
    Except DartError Unit → World → Prop
  | .ok _, w' => ListFilled w₀ w' c ctx o l i
  | .error _, _ => n + 1 ≤ uncached w₀ c

omit [PackageFfi] in
theorem arrayLoop_fills (conv : Converts rely total c n convert) (array : o.kind = .array)
    (found : w₀.heap.find o = some obj) (data : DataOnly readLength w₀.heap (.object o))
    (clean : Texts Clean readLength w₀.heap (.object o)) (fresh : cacheAt w₀ c o.address = none)
    (inside : c < w₀.caches.length) (rounds i : Nat)
    (all : i + rounds = readLength obj.length) (filled : ListFilled w₀ w c ctx o l i)
    (holds : Holds w val (.object o)) :
    wp env (quiet rely total) (arrayLoop convert ctx val l rounds i)
      (FillsList w₀ c ctx o l (i + rounds) n) w := by
  induction rounds generalizing i w with
  | zero => exact filled
  | succ rounds ih =>
    have heap := filled.extend.heap
    have graph := jsGraph_array readLength array found
    have child : (jsGraph readLength w₀.heap (.object o)).child (.index i) =
        some (element w₀.heap o i) := by
      rw [graph]
      simp only [View.child, List.getElem?_map]
      rw [List.getElem?_range (by omega), Option.map_some]
    have readable : w.heap.get o (.index i) = .value (element w.heap o i) := by
      have node := data.node
      simp only [DataNode, array] at node
      obtain ⟨obj', found', readable⟩ := node
      cases Option.some.inj (found.symm.trans found')
      rw [heap]
      exact element_eq (readable i (by omega))
    have small : i < 2^32 := by
      have bound := obj.length.toNat_lt
      have short : readLength obj.length ≤ obj.length.toNat := readLength_le obj.length
      omega
    have reads : w.reads (w.value val) (.index i) = .value (element w.heap o i) := by
      rw [holds.value]
      exact readable
    have fetched : Grows c ctx w _ := .fetch filled.sound (element w.heap o i)
    have atBox : Holds (w.fetch (element w.heap o i)) w.lastBox (element w.heap o i) :=
      holds_lastBox (w.credit _) _
    have wrapped := fetched.trans (.wrap fetched.sound w.lastBox)
    have dataElement : DataOnly readLength w.heap (element w.heap o i) := by
      rw [heap]
      exact data.child child
    have cleanElement : Texts Clean readLength w.heap (element w.heap o i) := by
      rw [heap]
      exact clean.child child
    have step := filled.step wrapped
    rw [arrayLoop, wp_bind, jsGetPropertyUint32_eq small, quiet_jsGetProperty reads, andThen_ok,
      wp_bind, quiet_toDartJSValue (DataOnly.plain dataElement atBox.value), andThen_ok, wp_bind]
    refine wp_mono (conv _ (element w.heap o i) _ (holds_wrap atBox)
      (inside.trans_le step.extend.caches) step.sound
      (by rw [wrapped.extend.heap]; exact dataElement)
      (by rw [wrapped.extend.heap]; exact cleanElement)) fun out w₁ decoded => ?_
    cases out with
    | error e =>
      exact Nat.lt_of_le_of_lt decoded
        (step.extend.uncached_lt (heap ▸ filled.live) fresh step.own)
    | ok d =>
      obtain ⟨grows, image⟩ := decoded
      have filled₁ := step.step grows
      have image₁ : Image w₁ c ctx (element w₁.heap o i) d := by
        rw [grows.extend.heap, wrapped.extend.heap]
        exact image
      have pushed := filled₁.push image₁
      have last : (({ w₁ with lists := w₁.lists.modify l (· ++ [d]) }).lists.getD l [])[i]? =
          some d := by
        rw [getD_modify_self filled₁.inside,
          List.getElem?_append_right (by rw [filled₁.count]), filled₁.count, Nat.sub_self]
        rfl
      have holds₁ : Holds { w₁ with lists := w₁.lists.modify l (· ++ [d]) } val (.object o) :=
        grows.extend.holds (wrapped.extend.holds holds)
      rw [andThen_ok, wp_bind, quiet_answer (.listAdd l d) rfl trivial, andThen_ok, wp_bind,
        quiet_answer (.listGet l i) rfl trivial, andThen_ok, last]
      have next : i + 1 + rounds = i + (rounds + 1) := by omega
      split
      · rename_i none
        cases none
      · rw [← next]
        exact ih (i+1) (by omega) pushed holds₁
      · rename_i other same
        cases same
        have plain : (element w.heap o i).isFunction = false := by
          cases function : (element w.heap o i).isFunction with
          | false => rfl
          | true =>
            obtain ⟨f, same⟩ := hostFunction_of_image image dataElement.node function
            exact absurd same (other _)
        have freed : Grows c ctx _ _ :=
          .free pushed.sound (grows.extend.holds (holds_wrap atBox)) plain
        rw [wp_bind, JSRef.release, quiet_jsFreeValue, andThen_ok, ← next]
        exact ih (i+1) (by omega) (pushed.step freed) (freed.extend.holds holds₁)

omit [PackageFfi] in
/-- What the map loop leaves: the map with more keys, or a reason to throw. -/
def FillsMap (w₀ : World) (c : Nat) (ctx : Ctx) (o : ObjRef) (obj : JSObj) (m : Nat)
    (keys : List PropKey) (n : Nat) : Except DartError Unit → World → Prop
  | .ok _, w' => MapFilled w₀ w' c ctx o obj m keys
  | .error _, _ => n + 1 ≤ uncached w₀ c

omit [PackageFfi] in
/-- In a data-only graph an object's enumerable keys are strings over data properties. -/
theorem DataOnly.property {h : Heap} (ordinary : o.kind = .ordinary)
    (found : h.find o = some obj) (data : DataOnly readLength h (.object o)) {k : PropKey}
    (member : k ∈ obj.enumerableKeys) :
    (∃ s, k = .string s) ∧ h.get o k = .value (dataValue obj k) := by
  have node := data.node
  simp only [DataNode, ordinary] at node
  obtain ⟨obj', found', only⟩ := node
  cases Option.some.inj (found.symm.trans found')
  obtain ⟨p, present, enumerable⟩ := JSObj.mem_enumerableKeys.mp member
  obtain ⟨string, v, writable, enumerable', configurable, rfl⟩ := only k p present enumerable
  refine ⟨string, ?_⟩
  have own : obj.own o k = some (.data v writable enumerable' configurable) := by
    simp only [JSObj.own, ordinary, reduceCtorEq, false_and, if_false, present]
  rw [get_own (by simp [ordinary]) found own]
  simp only [Heap.readOwn, dataValue, present]

omit [PackageFfi] in
theorem child_of_mem (len : UInt32 → Nat) {h : Heap} (ordinary : o.kind = .ordinary)
    (found : h.find o = some obj) {k : PropKey} (member : k ∈ obj.enumerableKeys) :
    (jsGraph len h (.object o)).child (.key k) = some (dataValue obj k) := by
  rw [jsGraph_ordinary len ordinary found]
  exact find_ownRecord.mpr ⟨member, rfl⟩

omit [PackageFfi] in
theorem mapLoop_fills (conv : Converts rely total c n convert) (ordinary : o.kind = .ordinary)
    (found : w₀.heap.find o = some obj) (data : DataOnly readLength w₀.heap (.object o))
    (clean : Texts Clean readLength w₀.heap (.object o)) (fresh : cacheAt w₀ c o.address = none)
    (inside : c < w₀.caches.length) (rounds i : Nat)
    (all : i + rounds = obj.enumerableKeys.length)
    (filled : MapFilled w₀ w c ctx o obj m (obj.enumerableKeys.take i))
    (holds : Holds w val (.object o)) (listed : w.tables[table]? = some obj.enumerableKeys) :
    wp env (quiet rely total) (mapLoop convert ctx val m table rounds i)
      (FillsMap w₀ c ctx o obj m (obj.enumerableKeys.take (i + rounds)) n) w := by
  induction rounds generalizing i w with
  | zero => exact filled
  | succ rounds ih =>
    have heap := filled.extend.heap
    have inKeys : i < obj.enumerableKeys.length := by omega
    have member : obj.enumerableKeys[i] ∈ obj.enumerableKeys := List.getElem_mem inKeys
    have prefixed := List.take_succ_eq_append_getElem inKeys
    have child := child_of_mem readLength ordinary found member
    obtain ⟨⟨s, isString⟩, readable⟩ := data.property ordinary found member
    have atom : answer (.atomAt table i) w = some (obj.enumerableKeys[i], w) := by
      simp only [answer, List.getD_eq_getElem?_getD, listed, Option.getD_some,
        List.getElem?_eq_getElem inKeys]
    generalize obj.enumerableKeys[i] = k at *
    subst isString
    -- the key and the value, each in a box of its own
    have named : Grows c ctx w _ := .fetch filled.sound (.string s)
    have reads : (w.fetch (.string s)).reads ((w.fetch (.string s)).value val) (.string s) =
        .value (dataValue obj (.string s)) := by
      rw [(named.extend.holds holds).value]
      change (w.heap.get o (.string s)) = _
      rw [heap]
      exact readable
    have fetched := named.trans (.fetch named.sound (dataValue obj (.string s)))
    have filled₁ := filled.step fetched
    have nameAt : Holds ((w.fetch (.string s)).fetch (dataValue obj (.string s))) w.lastBox
        (.string s) :=
      (Extends.fetch (c := c) _ _).holds (holds_lastBox (w.credit _) _)
    have valueAt : Holds ((w.fetch (.string s)).fetch (dataValue obj (.string s)))
        (w.fetch (.string s)).lastBox (dataValue obj (.string s)) :=
      holds_lastBox ((w.fetch _).credit _) _
    have dataName : DataOnly readLength
        ((w.fetch (.string s)).fetch (dataValue obj (.string s))).heap (.string s) := by
      intro path v leads
      cases path with
      | nil => cases leads; trivial
      | cons step path => cases leads
    have cleanName : Texts Clean readLength
        ((w.fetch (.string s)).fetch (dataValue obj (.string s))).heap (.string s) := by
      intro path v leads
      cases path with
      | nil =>
        cases leads
        have node := clean.node
        simp only [TextNode, jsGraph_ordinary readLength ordinary found, keys_ownRecord] at node
        exact node s member
      | cons step path => cases leads
    have fewer := filled₁.extend.uncached_lt (heap ▸ filled.live) fresh filled₁.own
    rw [mapLoop, wp_bind, jsPropertyEnumGetAtom, quiet_answer _ atom trivial, andThen_ok, wp_bind,
      quiet_jsAtomToValue, andThen_ok, wp_bind, PropKey.toValue, quiet_jsGetProperty reads,
      andThen_ok, wp_bind]
    refine wp_mono (conv.fromJs nameAt (inside.trans_le filled₁.extend.caches) filled₁.sound
      dataName cleanName) fun out w₁ decoded => ?_
    cases out with
    | error e => exact Nat.lt_of_le_of_lt decoded fewer
    | ok key =>
      obtain ⟨grows₁, keyIs⟩ := decoded
      cases (show key = .string (dropBom s) from keyIs)
      have filled₂ := filled₁.step grows₁
      have dataValue' : DataOnly readLength w₁.heap (dataValue obj (.string s)) := by
        rw [filled₂.extend.heap]
        exact data.child child
      have cleanValue : Texts Clean readLength w₁.heap (dataValue obj (.string s)) := by
        rw [filled₂.extend.heap]
        exact clean.child child
      rw [andThen_ok, wp_bind]
      refine wp_mono (conv.fromJs (grows₁.extend.holds valueAt)
        (inside.trans_le filled₂.extend.caches) filled₂.sound dataValue' cleanValue)
        fun out w₂ decoded => ?_
      cases out with
      | error e =>
        exact Nat.lt_of_le_of_lt decoded (grows₁.extend.uncached_le.trans_lt fewer)
      | ok value =>
        obtain ⟨grows₂, image⟩ := decoded
        have pushed := (filled₂.step grows₂).push image
        have put : answer (.mapPut m (.string (dropBom s)) value) w₂ = some ((), { w₂ with
            maps := w₂.maps.modify m (·.insert (.string (dropBom s)) value) }) := rfl
        rw [← prefixed] at pushed
        have filled₃ := pushed.step (Grows.free pushed.sound (grows₂.extend.holds (grows₁.extend.holds nameAt)) rfl)
        have grown := fetched.trans (grows₁.trans grows₂)
        have listed₃ : w₂.tables[table]? = some obj.enumerableKeys :=
          grown.extend.tables.getElem? listed
        have holds₃ : Holds w₂ val (.object o) := grown.extend.holds holds
        have next : i + 1 + rounds = i + (rounds + 1) := by omega
        -- the atom is freed last, whatever happens to the box of the value
        have last : ∀ w₄, w₄.tables = w₂.tables → Holds w₄ val (.object o) →
            MapFilled w₀ w₄ c ctx o obj m (obj.enumerableKeys.take (i+1)) →
            wp env (quiet rely total) (do
              jsFreeAtom (.string s)
              mapLoop convert ctx val m table rounds (i+1))
              (FillsMap w₀ c ctx o obj m (obj.enumerableKeys.take (i + (rounds + 1))) n) w₄ := by
          intro w₄ tables holds₄ filled₄
          have grows₄ : Grows c ctx w₄ { w₄ with
              atoms := Function.update w₄.atoms (.string s) (w₄.atoms (.string s) - 1) } :=
            .of_same_caches filled₄.sound { Extends.refl c w₄ with } fun _ => rfl
          rw [wp_bind, jsFreeAtom, quiet_answer (.freeAtom (.string s)) rfl trivial,
            andThen_ok, ← next]
          exact ih (i+1) (by omega) (filled₄.step grows₄) (grows₄.extend.holds holds₄)
            ((congrArg (·[table]?) tables).trans listed₃)
        rw [andThen_ok, wp_bind, mapKey, wp_pure, andThen_ok, wp_bind, quiet_answer _ put trivial,
          andThen_ok, wp_bind, quiet_jsFreeValue, andThen_ok, wp_bind, freeUnlessFunction, wp_bind,
          quiet_jsIsFunction, andThen_ok, wp_ite]
        refine ⟨fun _ => last _ rfl holds₃ filled₃, fun notFunction => ?_⟩
        have valueAt₃ := grows₂.extend.holds (grows₁.extend.holds valueAt)
        have plain : (dataValue obj (.string s)).isFunction = false := by
          have same : w₂.value _ = dataValue obj (.string s) := valueAt₃.value
          rw [← same]
          exact Bool.eq_false_iff.mpr notFunction
        rw [quiet_jsFreeValue]
        exact last _ rfl holds₃ (filled₃.step (Grows.free filled₃.sound valueAt₃ plain))

end FlutterQuickjs.Conversion
