import FlutterQuickjs.Binding.Scripted
import FlutterQuickjs.Engine.Assign
import FlutterQuickjs.Release.Account

namespace FlutterQuickjs.Release

open Engine Binding ValueConverter Conversion
open Effect

section

variable {S : Setting Op Reply World} {w w' : World} {h : List (Event Op Reply)} {ctx : Ctx}
  {p : Ptr} {v : JSValue} {α : Type} {a : α}

section

variable [PackageFfi] {convert : JSRef → Action DartVal} {list rounds i : Nat} {u : Unit}
  {cache : Option Nat} {d : DartVal}

/-- The cache of a running conversion holds lists and maps. -/
def Unhosted (w : World) (cache : Option Nat) : Prop :=
  ∀ c, cache = some c → ∀ a f, cacheAt w c a ≠ some (.hostFunction f)

/-- The result is a `HostFunction` that keeps the function converted, or none at all. -/
def Shows (v : JSValue) (h : List (Event Op Reply)) (d : DartVal) : Prop :=
  (∃ f, d = .hostFunction f) ∧ v.isFunction = true ∧ kept h = Pi.single v 1 ∨
    (∀ f, d ≠ .hostFunction f) ∧ passed v h = 0

/-- The account of a conversion: neutral exactly where its start is plain and its replies are
bare. -/
def Accounted (S : Setting Op Reply World) (cache : Option Nat)
    (convert : JSRef → Action DartVal) : Prop :=
  ∀ jval w h d w', Unhosted w cache → Exec (env.answers S) (convert jval) w h (.ok d) w' →
    Drift jval.ctx h (passed (w.value jval.val) h) (Plain (w.value jval.val)) w w' ∧
      Shows (w.value jval.val) h d

omit [PackageFfi] in
theorem Unhosted.apart {own : Nat → Prop} (unhosted : Unhosted w cache) (apart : Apart own w w') :
    Unhosted w' cache := by
  intro c same a f found
  exact unhosted c same a f (apart.cached c a f found)

omit [PackageFfi] in
theorem bare_index (i : UInt32) {r : JSValue} :
    Bare ⟨.getProperty ctx v (.index i.toNat),r⟩ ↔ Plain r := by
  have noLength : PropKey.index i.toNat ≠ .string lengthName := JSObj.index_ne_length _
  simp [Bare, noLength]

omit [PackageFfi] in
/-- An element is read and converted, and freed unless a `HostFunction` keeps it. -/
theorem arrayLoop_accounted (genuine : Genuine S) (accounted : Accounted S cache convert)
    (apart : ∀ own jval, Preserves env S (Apart own) (convert jval)) (unhosted : Unhosted w cache)
    (building : list ∈ w.building) {elements : List DartVal} (found : w.lists[list]? = some elements)
    (count : elements.length = i)
    (run : Exec (env.answers S) (arrayLoop convert ctx p list rounds i) w h (.ok u) w') :
    Drift ctx h 0 True w w' := by
  have evolving := genuine.toEvolving
  induction rounds generalizing w h i elements with
  | zero =>
    obtain ⟨rfl, -, rfl⟩ := Exec.done_iff.mp run
    exact .refl w'
  | succ rounds ih =>
    rw [arrayLoop] at run
    obtain ⟨q, w₁, h₁, hs₁, read, run₁, rfl⟩ := Exec.bind_ok run
    have apart₁ : Apart (fun _ => False) w w₁ := apart_run (apart_within evolving within_jsGetProperty) read
    obtain ⟨r, n, rfl, box, rises, gained, none, bare₁, fails₁⟩ := run_jsGetProperty genuine read
    obtain ⟨jval, w₂, h₂, hs₂, wrapped, run₂, rfl⟩ := Exec.bind_ok run₁
    have apart₂ : Apart (fun _ => False) w₁ w₂ :=
      apart_run (apart_within evolving within_toDartJSValue) wrapped
    obtain ⟨ctxIs, valIs, quiet⟩ := run_toDartJSValue wrapped
    obtain ⟨element, w₃, h₃, hs₃, converted, run₃, rfl⟩ := Exec.bind_ok run₂
    have apart₃ : Apart (fun _ => False) w₂ w₃ := apart_run (apart _ jval) converted
    have kept₃ := (apart₁.trans apart₂).trans apart₃
    have holds₂ : w₂.value jval.val = r := by
      rw [valIs]
      exact value_box (quiet.rises.boxes.getElem? box)
    obtain ⟨account, shows_⟩ := accounted jval w₂ h₃ element w₃
      (unhosted.apart (apart₁.trans apart₂)) converted
    rw [holds₂] at account shows_
    rw [ctxIs] at account
    have inside : list < w.lists.length := (List.getElem?_eq_some_iff.mp found).1
    obtain ⟨building₃, same₃⟩ := kept₃.built list building id inside
    obtain ⟨hs₄, run₄, rfl⟩ := run_answered (.listAdd list element) rfl run₃
    obtain ⟨hs₅, run₅, rfl⟩ := run_answered (.listGet list i) rfl run₄
    have slot : ((w₃.lists.modify list (· ++ [element])).getD list [])[i]? = some element := by
      have inside₃ : list < w₃.lists.length := inside.trans_le kept₃.count
      have same₄ : w₃.lists.getD list [] = elements := by
        rw [List.getD_eq_getElem?_getD, same₃, found]
        rfl
      rw [getD_modify_self inside₃, same₄, ← count]
      simp
    have found₄ : (w₃.lists.modify list (· ++ [element]))[list]? = some (elements ++ [element]) := by
      simp [same₃, found]
    have first := Drift.after_read rises gained none (bare₁.trans (bare_index (.ofNat i))) fails₁
      ((quiet.trans account).congr rfl (by simp))
    have shape : ∀ t, h₁ ++ (h₂ ++ (h₃ ++ t)) = (h₁ ++ (h₂ ++ h₃)) ++ t := by simp
    -- What is left of the reference read is freed, unless the element keeps it.
    have rest : ∀ w₅ t hs e, Apart (fun _ => False)
          { w₃ with lists := w₃.lists.modify list (· ++ [element]) } w₅ →
        Drift ctx t e True { w₃ with lists := w₃.lists.modify list (· ++ [element]) } w₅ →
        Pi.single r 1 + passed r h₃ + e = 0 →
        Exec (env.answers S) (arrayLoop convert ctx p list rounds (i+1)) w₅ hs (.ok u) w' →
        Drift ctx (h₁ ++ (h₂ ++ (h₃ ++ (⟨.listAdd list element,()⟩ ::
          ⟨.listGet list i,some element⟩ :: (t ++ hs))))) 0 True w w' := by
      intro w₅ t hs e apart₅ drift balanced run
      obtain ⟨building₅, same₅⟩ := apart₅.built list building₃ id
        (by simpa using inside.trans_le kept₃.count)
      have unhosted₄ : Unhosted { w₃ with lists := w₃.lists.modify list (· ++ [element]) } cache :=
        fun c same a f found => unhosted.apart kept₃ c same a f found
      have unhosted₅ : Unhosted w₅ cache := unhosted₄.apart apart₅
      have last := ih unhosted₅ building₅ (same₅.trans found₄) (by simp [count]) run
      have read := Drift.skip (x := ⟨.listGet list i,some element⟩) ⟨trivial, rfl, id⟩
        (drift.trans last) (.refl _)
      have added := Drift.skip (w := w₃) (x := ⟨.listAdd list element,()⟩) ⟨trivial, rfl, id⟩ read
        ⟨.refl _, rfl, rfl, rfl, rfl, rfl⟩
      rw [shape]
      refine (first.trans added).congr ?_ (by simp)
      rw [zero_add, add_zero, balanced]
    rw [slot] at run₅ ⊢
    obtain ⟨⟨f, rfl⟩, function, same⟩ | ⟨other, none⟩ := shows_
    · have balanced : Pi.single r 1 + passed r h₃ + 0 = 0 := by
        simp [passed, function, same]
      exact rest _ [] _ 0 (.refl _) (.refl _) balanced run₅
    · have freed : Exec (env.answers S) (do
          jval.release
          arrayLoop convert ctx p list rounds (i+1))
          { w₃ with lists := w₃.lists.modify list (· ++ [element]) } hs₅ (.ok u) w' := by
        cases element <;> first | exact run₅ | exact absurd rfl (other _)
      obtain ⟨u₆, w₆, h₆, hs₆, free, run₆, rfl⟩ := Exec.bind_ok freed
      have apart₆ : Apart (fun _ => False) _ w₆ := apart_run (apart_jsFreeValue evolving) free
      have drift₆ : Drift ctx h₆ _ True _ w₆ := run_jsFreeValue free
      have holds₄ : World.value { w₃ with lists := w₃.lists.modify list (· ++ [element]) }
          jval.val = r := by
        rw [valIs]
        exact value_box ((quiet.rises.trans account.rises).boxes.getElem? box)
      rw [holds₄] at drift₆
      have balanced : Pi.single r 1 + passed r h₃ + -Pi.single r 1 = 0 := by
        rw [none, add_zero, add_neg_cancel]
      exact rest w₆ h₆ hs₆ _ apart₆ drift₆ balanced run₆

/-- The branch for arrays: the property `length` is read and kept. -/
theorem arrayValue_accounted (genuine : Genuine S) (accounted : Accounted S cache convert)
    (apart : ∀ own jval, Preserves env S (Apart own) (convert jval)) (unhosted : Unhosted w cache)
    {o : ObjRef} {c : Nat}
    (run : Exec (env.answers S) (do
      let length ← jsToInt32 ctx (← jsGetPropertyStr ctx p (toNativeUtf8 (units "length")))
      let list ← perform .newList
      perform (.cachePut c o (.list list))
      arrayLoop convert ctx p list length.toInt.toNat 0
      perform (.listDone list)
      return .list list) w h (.ok d) w') :
    Drift ctx h 0 True w w' ∧ ∀ f, d ≠ .hostFunction f := by
  have evolving := genuine.toEvolving
  rw [jsGetPropertyStr_length] at run
  obtain ⟨q, w₁, h₁, hs₁, read, run₁, rfl⟩ := Exec.bind_ok run
  have apart₁ : Apart (fun _ => False) w w₁ :=
    apart_run (apart_within evolving within_jsGetProperty) read
  obtain ⟨r, n, rfl, box, rises, gained, none, bare₁, fails₁⟩ := run_jsGetProperty genuine read
  obtain ⟨length, w₂, h₂, hs₂, asked, run₂, rfl⟩ := Exec.bind_ok run₁
  have apart₂ : Apart (fun _ => False) w₁ w₂ :=
    apart_run (apart_within evolving within_jsToInt32) asked
  have first : Drift ctx (h₁ ++ h₂) 0 True w w₂ := by
    have rises₂ := rises_run genuine asked
    obtain ⟨h₃, asked', rfl⟩ := run_answered (.load (.box n)) rfl asked
    obtain ⟨answered, rfl⟩ := Exec.call_iff.mp asked'
    rw [value_box box] at answered
    obtain ⟨held, same⟩ := answers_toInt32 genuine answered
    have noIndex : ¬∃ i, PropKey.string lengthName = .index i := by
      intro ⟨i, same⟩
      exact JSObj.index_ne_length i same.symm
    refine .stays (r := r) (rises.trans rises₂) (fun v counted => ?_) (fun uncounted => ?_) ?_ ?_ ?_
    · rw [held, gained.held v counted]
    · rw [same uncounted]
      exact gained
    · simp [none, keeps]
    · rw [allBare_append, bare₁]
      simp [Bare, noIndex]
    · rw [fails_append, fails₁]
      simp [Failed]
  obtain ⟨hs₃, run₃, rfl⟩ := run_answered .newList rfl run₂
  obtain ⟨hs₄, run₄, rfl⟩ := run_answered (.cachePut c o _) rfl run₃
  obtain ⟨u₅, w₅, h₅, hs₅, looped, run₅, rfl⟩ := Exec.bind_ok run₄
  obtain ⟨hs₆, run₆, rfl⟩ := run_answered (.listDone _) rfl run₅
  obtain ⟨rfl, ended, rfl⟩ := Exec.done_iff.mp run₆
  cases ended
  refine ⟨?_, by simp⟩
  have made : Apart (fun _ => False) w₂
      { w₂ with lists := w₂.lists ++ [[]], building := w₂.lists.length :: w₂.building } := by
    have answered : direct .newList w₂ w₂.lists.length _ := ⟨rfl, rfl⟩
    exact apart_direct (by trivial) answered
  have put : Apart (fun _ => False)
      { w₂ with lists := w₂.lists ++ [[]], building := w₂.lists.length :: w₂.building }
      { w₂ with
        lists := w₂.lists ++ [[]]
        building := w₂.lists.length :: w₂.building
        caches := w₂.caches.modify c (·.insert o.address (.list w₂.lists.length)) } := by
    have answered : direct (.cachePut c o (.list w₂.lists.length)) { w₂ with
        lists := w₂.lists ++ [[]]
        building := w₂.lists.length :: w₂.building } () _ := ⟨rfl, rfl⟩
    exact apart_direct (by simp [Outside]) answered
  have unhosted₄ := (((unhosted.apart apart₁).apart apart₂).apart made).apart put
  have empty : (w₂.lists ++ [[]])[w₂.lists.length]? = some [] := by simp
  have drift₅ := arrayLoop_accounted genuine accounted apart unhosted₄ (by simp) empty rfl looped
  have drift₆ : Drift ctx [⟨.listDone w₂.lists.length,()⟩] 0 True w₅
      { w₅ with building := w₅.building.filter (· ≠ w₂.lists.length) } :=
    .last ⟨trivial, rfl, id⟩ ⟨.refl _, rfl, rfl, rfl, rfl, rfl⟩
  have looped' := (drift₅.trans drift₆).congr (add_zero 0) (and_self_iff (a := True))
  have stored := Drift.skip (w := w₂) (x := ⟨.cachePut c o (.list w₂.lists.length),()⟩)
    ⟨trivial, rfl, id⟩ looped' ⟨.refl _, rfl, rfl, rfl, rfl, rfl⟩
  have filled := Drift.skip (w := w₂) (x := ⟨.newList,w₂.lists.length⟩) ⟨trivial, rfl, id⟩ stored
    (.refl w₂)
  rw [← List.append_assoc]
  exact (first.trans filled).congr (by simp) (by simp)

omit [PackageFfi] in
/-- A table of property names is never given back. -/
theorem run_jsGetOwnPropertyNames (genuine : Genuine S) {ptab plen : Nat} {r : Int32}
    (run : Exec (env.answers S) (jsGetOwnPropertyNames ctx ptab plen p) w h (.ok r) w') :
    ¬AllBare h ∧ Loud w w' ∨ r = -1 ∧ Drift ctx h 0 True w w' := by
  obtain ⟨h₁, run₁, rfl⟩ := run_answered (.load p) rfl run
  obtain ⟨names, w₂, h₂, hs₂, asked, run₂, rfl⟩ := Exec.bind_ok run₁
  obtain ⟨answered, rfl⟩ := Exec.call_iff.mp asked
  have rises := rises_answers genuine answered
  cases names with
  | some keys =>
    left
    constructor
    · simp [Bare]
    · obtain ⟨hs₃, run₃, rfl⟩ := run_answered (.newTable keys) rfl run₂
      have more : Loud w₂ { w₂ with tables := w₂.tables ++ [keys] } := by
        right
        simp
      exact (more.before (rises_run genuine run₃)).after rises
  | none =>
    right
    have failed : Balances ctx 0 True w w₂ := by
      obtain ⟨-, ⟨-, own⟩ | ⟨-, w₁, between, returned⟩⟩ := answered
      · obtain ⟨keys, -, bad, -⟩ := direct_getOwnPropertyNames own
        cases bad
      · obtain ⟨keys, bad, -⟩ | ⟨-, e, rfl⟩ := returned
        · cases bad
        · have before : Balances ctx 0 False w w₁ :=
            (Unmoved.of_evolves (genuine.evolves w w₁ between)).balances
          exact (before.trans (balances_throwing w₁ e)).congr (fun _ _ => rfl) (by simp)
    obtain ⟨hs₃, run₃, rfl⟩ := run_answered (.storeCell ptab 0) rfl run₂
    obtain ⟨hs₄, run₄, rfl⟩ := run_answered (.storeCell plen 0) rfl run₃
    obtain ⟨rfl, ended, rfl⟩ := Exec.done_iff.mp run₄
    cases ended
    refine ⟨rfl, .of_balances ?_ ?_ ?_⟩
    · exact ⟨rises.boxes, rises.lent, rises.tables⟩
    · refine ⟨failed.cstrings, failed.tables, failed.atoms, fun v counted => ?_, ?_⟩
      · simpa [keeps] using failed.held v counted
      · simpa [Failed] using failed.pending
    · simp [Bare]

omit [PackageFfi] in
/-- The branch for other objects, once the map is there. -/
theorem mapNames_accounted (genuine : Genuine S) {map ptab plen : Nat}
    (run : Exec (env.answers S) (do
      if (← jsGetOwnPropertyNames ctx ptab plen p) = 0 then
        let length ← perform (.loadCell plen)
        let table ← perform (.loadCell ptab)
        mapLoop convert ctx p map table length 0
      perform (.callocFreeCell ptab)
      perform (.callocFreeCell plen)
      return .map map) w h (.ok d) w') :
    Drift ctx h 0 True w w' ∧ d = .map map := by
  have rises := rises_run genuine run
  have ends : ∀ {w h}, Exec (env.answers S) (do
      perform (.callocFreeCell ptab)
      perform (.callocFreeCell plen)
      return DartVal.map map) w h (.ok d) w' → d = .map map := by
    intro w h run
    obtain ⟨h₁, run₁, rfl⟩ := run_answered (.callocFreeCell ptab) rfl run
    obtain ⟨h₂, run₂, rfl⟩ := run_answered (.callocFreeCell plen) rfl run₁
    obtain ⟨-, ended, -⟩ := Exec.done_iff.mp run₂
    cases ended
    rfl
  obtain ⟨r, w₁, h₁, hs₁, listed, run₁, rfl⟩ := Exec.bind_ok run
  obtain ⟨noisy, loud⟩ | ⟨rfl, drift₁⟩ := run_jsGetOwnPropertyNames genuine listed
  · refine ⟨.of_loud rises (loud.before (rises_run genuine run₁)) (by simp [noisy]), ?_⟩
    by_cases listed : r = 0
    · rw [if_pos listed] at run₁
      obtain ⟨h₂, run₂, -⟩ := run_answered (.loadCell plen) rfl run₁
      obtain ⟨h₃, run₃, -⟩ := run_answered (.loadCell ptab) rfl run₂
      obtain ⟨u, w₂, h₄, hs₄, looped, run₄, -⟩ := Exec.bind_ok run₃
      exact ends run₄
    · rw [if_neg listed] at run₁
      exact ends run₁
  · obtain ⟨h₂, run₂, rfl⟩ := run_answered (.callocFreeCell ptab) rfl run₁
    obtain ⟨h₃, run₃, rfl⟩ := run_answered (.callocFreeCell plen) rfl run₂
    obtain ⟨rfl, ended, rfl⟩ := Exec.done_iff.mp run₃
    cases ended
    have freed : Drift ctx [⟨.callocFreeCell ptab,()⟩, ⟨.callocFreeCell plen,()⟩] 0 True w' w' :=
      .skip ⟨trivial, rfl, id⟩ (.last ⟨trivial, rfl, id⟩ (.refl w')) (.refl w')
    exact ⟨(drift₁.trans freed).congr (by simp) (by simp), rfl⟩

theorem objectValue_accounted (genuine : Genuine S) {o : ObjRef} {c : Nat}
    (accounted : Accounted S (some c) convert)
    (apart : ∀ own jval, Preserves env S (Apart own) (convert jval))
    (unhosted : Unhosted w (some c)) (holds : w.value p = .object o)
    (run : Exec (env.answers S) (objectValue convert ctx p o c) w h (.ok d) w') :
    Drift ctx h (passed (.object o) h) True w w' ∧ Shows (.object o) h d := by
  rw [objectValue] at run
  obtain ⟨cached, w₁, h₁, hs₁, asked, run₁, rfl⟩ := Exec.bind_ok run
  obtain ⟨answered₁, rfl⟩ := Exec.call_iff.mp asked
  obtain ⟨found, rfl⟩ := answers_known rfl answered₁
  cases cached with
  | some e =>
    obtain ⟨rfl, ended, rfl⟩ := Exec.done_iff.mp run₁
    cases ended
    have none : passed (.object o) [⟨.cacheFind c o,some d⟩] = 0 := by
      simp [passed, keeps]
    refine ⟨?_, .inr ⟨fun f same => ?_, none⟩⟩
    · rw [List.append_nil, none]
      exact .last ⟨trivial, rfl, id⟩ (.refl _)
    · rw [same] at found
      exact unhosted c rfl _ f found.symm
  | none =>
    obtain ⟨hs₂, run₂, rfl⟩ := run_answered (.load p) rfl run₁
    change Exec _ (if (w₁.value p).isFunction then _ else _) w₁ hs₂ _ _ at run₂
    rw [holds] at run₂
    by_cases function : (JSValue.object o).isFunction
    · rw [if_pos function] at run₂
      obtain ⟨hs₃, run₃, rfl⟩ := run_answered (.handOut _) rfl run₂
      obtain ⟨rfl, ended, rfl⟩ := Exec.done_iff.mp run₃
      cases ended
      have one : kept ([⟨.cacheFind c o,none⟩] ++ [⟨.load p,.object o⟩,
          ⟨.handOut (HostFunction.new (.wrapper ctx p)),()⟩]) = Pi.single (.object o) 1 := by
        simp [keeps, function]
      have moved : Unmoved w₁ { w₁ with made := w₁.made ++ [HostFunction.new (.wrapper ctx p)] } :=
        ⟨.refl _, rfl, rfl, rfl, rfl, rfl⟩
      refine ⟨.of_balances moved.rises (moved.balances.congr (fun v _ => ?_) ?_) ?_, .inl ?_⟩
      · rw [passed, if_pos function, add_neg_cancel]
      · simp [Failed]
      · simp [Bare]
      · exact ⟨⟨_, rfl⟩, function, one⟩
    · rw [if_neg function] at run₂
      have still : Still ⟨.cacheFind c o,none⟩ := by
        refine ⟨trivial, ?_, id⟩
        simp [keeps, function]
      have zero : ∀ h, passed (.object o) h = 0 := by
        simp [passed, function]
      obtain ⟨r, w₂, h₂, hs₃, asked₂, quiet, run₃, rfl⟩ := run_jsIsArray run₂
      have rest : Drift ctx hs₃ 0 True w₂ w' ∧ ∀ f, d ≠ .hostFunction f := by
        by_cases array : r ≠ 0
        · rw [if_pos array] at run₃
          have apart₂ : Apart (fun _ => False) w₁ w₂ :=
            apart_run (apart_within genuine.toEvolving within_jsIsArray) asked₂
          exact arrayValue_accounted genuine accounted apart (unhosted.apart apart₂) run₃
        · rw [if_neg array] at run₃
          obtain ⟨h₄, run₄, rfl⟩ := run_answered .newMap rfl run₃
          obtain ⟨h₅, run₅, rfl⟩ := run_answered .callocCell rfl run₄
          obtain ⟨h₆, run₆, rfl⟩ := run_answered .callocCell rfl run₅
          obtain ⟨h₇, run₇, rfl⟩ := run_answered (.cachePut c o _) rfl run₆
          obtain ⟨drift, same⟩ := mapNames_accounted genuine run₇
          refine ⟨?_, by simp [same]⟩
          have moved : ∀ (w₀ : World) cells maps caches,
              Unmoved w₀ { w₀ with cells := cells, maps := maps, caches := caches } :=
            fun _ _ _ _ => ⟨.refl _, rfl, rfl, rfl, rfl, rfl⟩
          exact .skip ⟨trivial, rfl, id⟩ (.skip ⟨trivial, rfl, id⟩ (.skip ⟨trivial, rfl, id⟩
            (.skip ⟨trivial, rfl, id⟩ drift (moved _ _ _ _)) (moved _ _ _ _)) (moved _ _ _ _))
            (moved _ _ _ _)
      rw [zero]
      refine ⟨?_, .inr ⟨rest.2, zero _⟩⟩
      have looked := Drift.look p (w₁.value p) (quiet.trans rest.1)
      exact (Drift.skip still looked (.refl _)).congr (add_zero 0) (and_self_iff (a := True))

/-- A C string is needed for the result, and is never given back. -/
theorem run_dartString (genuine : Genuine S) {f : Units → Action α}
    (run : Exec (env.answers S) (do
      let s ← dartString (← jsToCString ctx p)
      f s) w h (.ok a) w') : Loud w w' := by
  obtain ⟨bytes, w₁, h₁, hs₁, asked, run₁, rfl⟩ := Exec.bind_ok run
  obtain ⟨h₂, asked', rfl⟩ := run_answered (.load p) rfl asked
  obtain ⟨answered, rfl⟩ := Exec.call_iff.mp asked'
  cases bytes with
  | none =>
    obtain ⟨s, w₂, h₂, hs₂, bad, -⟩ := Exec.bind_ok run₁
    obtain ⟨-, bad, -⟩ := Exec.fail_iff.mp bad
    cases bad
  | some bytes => exact (loud_toCString genuine answered).before (rises_run genuine run₁)

omit [PackageFfi] in
theorem passed_cons {x : Event Op Reply} (none : keeps x = 0) :
    passed v (x :: h) = passed v h := by
  simp [passed, none]

omit [PackageFfi] in
theorem Shows.cons {x : Event Op Reply} (shown : Shows v h d) (none : keeps x = 0) :
    Shows v (x :: h) d := by
  rw [Shows, passed_cons none, kept_cons, none, zero_add]
  exact shown

omit [PackageFfi] in
/-- What is no function and becomes no `HostFunction` keeps nothing. -/
theorem shows_plain (other : ∀ f, d ≠ .hostFunction f) (data : v.isFunction = false) :
    Shows v h d := by
  refine .inr ⟨other, ?_⟩
  simp [passed, data]

theorem toDartValue_accounted (genuine : Genuine S) (fuel : Nat) (cache : Option Nat) :
    Accounted S cache fun jval => toDartValue fuel jval cache := by
  have evolving := genuine.toEvolving
  induction fuel generalizing cache with
  | zero =>
    intro jval w h d w' _ run
    obtain ⟨-, bad, -⟩ := Exec.fail_iff.mp run
    cases bad
  | succ n ih =>
    intro jval w h d w' unhosted run
    have rises := rises_run genuine run
    simp only [toDartValue] at run
    obtain ⟨h₁, run₁, rfl⟩ := run_answered (.load jval.val) rfl run
    change Exec _ (if (w.value jval.val).tag = JSTag.INT then _ else _) w h₁ _ _ at run₁
    have silent : ∀ {v}, v.isFunction = false → Plain v → (∀ f, d ≠ .hostFunction f) →
        Drift jval.ctx h₁ 0 True w w' →
        Drift jval.ctx (⟨.load jval.val,w.value jval.val⟩ :: h₁)
          (passed v (⟨.load jval.val,w.value jval.val⟩ :: h₁)) (Plain v) w w' ∧
          Shows v (⟨.load jval.val,w.value jval.val⟩ :: h₁) d := by
      intro v data plain other drift
      refine ⟨?_, shows_plain other data⟩
      exact (Drift.look _ _ drift).congr (by simp [passed, data]) (by simp [plain])
    have noisy : ∀ {v}, v.isFunction = false → ¬Plain v → (∀ f, d ≠ .hostFunction f) →
        Loud w w' →
        Drift jval.ctx (⟨.load jval.val,w.value jval.val⟩ :: h₁)
          (passed v (⟨.load jval.val,w.value jval.val⟩ :: h₁)) (Plain v) w w' ∧
          Shows v (⟨.load jval.val,w.value jval.val⟩ :: h₁) d := by
      intro v data marked other loud
      exact ⟨.of_loud rises loud fun both => marked both.2, shows_plain other data⟩
    have quiet : ∀ {h w}, Exec (env.answers S) (pure DartVal.null : Action DartVal) w h (.ok d) w' →
        (∀ f, d ≠ .hostFunction f) ∧ Drift jval.ctx h 0 True w w' := by
      intro h w run
      obtain ⟨rfl, ended, rfl⟩ := Exec.done_iff.mp run
      cases ended
      exact ⟨by simp, .refl _⟩
    have warned : Exec (env.answers S) (do
          perform .warn
          return DartVal.null) w h₁ (.ok d) w' →
        (∀ f, d ≠ .hostFunction f) ∧ Drift jval.ctx h₁ 0 True w w' := by
      intro run
      obtain ⟨h₂, run₂, rfl⟩ := run_answered .warn rfl run
      obtain ⟨other, drift⟩ := quiet run₂
      exact ⟨other, .skip ⟨trivial, rfl, id⟩ drift (.refl w)⟩
    cases holds : w.value jval.val <;>
      simp only [holds, JSValue.tag, JSTag.OBJECT, JSTag.INT, JSTag.BOOL, JSTag.NULL,
        JSTag.UNDEFINED, JSTag.EXCEPTION, JSTag.FLOAT64, JSTag.STRING, JSTag.SYMBOL, JSTag.BIG_INT,
        Int.reduceNeg, Int.reduceEq, or_self, or_true, or_false, reduceIte] at run₁ silent noisy ⊢
    case null =>
      obtain ⟨other, drift⟩ := quiet run₁
      exact silent rfl (by simp [Plain]) other drift
    case undefined =>
      obtain ⟨other, drift⟩ := quiet run₁
      exact silent rfl (by simp [Plain]) other drift
    case symbol x =>
      obtain ⟨other, drift⟩ := warned run₁
      exact silent rfl (by simp [Plain]) other drift
    case bigInt x =>
      obtain ⟨other, drift⟩ := warned run₁
      exact silent rfl (by simp [Plain]) other drift
    case int i =>
      obtain ⟨r, w₁, h₂, hs₂, asked, rest, rfl⟩ := Exec.bind_ok run₁
      obtain ⟨h₃, asked', rfl⟩ := run_answered (.load jval.val) rfl asked
      rw [holds] at asked'
      obtain ⟨answered, rfl⟩ := Exec.call_iff.mp asked'
      obtain ⟨-, rfl⟩ := answers_known rfl answered
      obtain ⟨rfl, ended, rfl⟩ := Exec.done_iff.mp rest
      cases ended
      refine silent rfl (by simp [Plain]) (by simp) ?_
      exact .look _ _ (.last ⟨trivial, rfl, id⟩ (.refl w'))
    case bool b =>
      obtain ⟨h₂, rest, rfl⟩ := run_answered (.load jval.val) rfl run₁
      obtain ⟨rfl, ended, rfl⟩ := Exec.done_iff.mp rest
      cases ended
      exact silent rfl (by simp [Plain]) (by simp) (.look _ _ (.refl w'))
    case float64 x =>
      obtain ⟨r, w₁, h₂, hs₂, asked, rest, rfl⟩ := Exec.bind_ok run₁
      obtain ⟨h₃, asked', rfl⟩ := run_answered (.load jval.val) rfl asked
      rw [holds] at asked'
      obtain ⟨answered, rfl⟩ := Exec.call_iff.mp asked'
      obtain ⟨-, rfl⟩ := answers_known rfl answered
      obtain ⟨rfl, ended, rfl⟩ := Exec.done_iff.mp rest
      cases ended
      refine silent rfl (by simp [Plain]) (by simp) ?_
      exact .look _ _ (.last ⟨trivial, rfl, id⟩ (.refl w'))
    case exception =>
      obtain ⟨q, w₁, h₂, hs₂, got, run₂, rfl⟩ := Exec.bind_ok run₁
      obtain ⟨text, w₂, h₃, hs₃, described, run₃, rfl⟩ := Exec.bind_ok run₂
      have loud := run_dartString genuine described
      obtain ⟨u, w₃, h₄, hs₄, freed, run₄, rfl⟩ := Exec.bind_ok run₃
      obtain ⟨-, ended, -⟩ := Exec.done_iff.mp run₄
      cases ended
      refine noisy rfl (by simp [Plain]) (by simp) ?_
      exact (loud.before (rises_run genuine run₃)).after (rises_run genuine got)
    case string x =>
      have loud := run_dartString genuine run₁
      obtain ⟨bytes, w₁, h₂, hs₂, asked, run₂, rfl⟩ := Exec.bind_ok run₁
      obtain ⟨text, w₂, h₃, hs₃, read, run₃, rfl⟩ := Exec.bind_ok run₂
      obtain ⟨-, ended, -⟩ := Exec.done_iff.mp run₃
      cases ended
      exact noisy rfl (by simp [Plain]) (by simp) loud
    case object o =>
      obtain ⟨h₂, run₂, rfl⟩ := run_answered (.load jval.val) rfl run₁
      rw [holds] at run₂
      cases cache with
      | some c =>
        have run₃ : Exec (env.answers S) (objectValue (fun jval => toDartValue n jval (some c))
          jval.ctx jval.val o c) w h₂ (.ok d) w' := run₂
        obtain ⟨drift, shown⟩ := objectValue_accounted genuine (ih (some c))
          (fun own jval => apart_toDartValue evolving n jval (some c)) unhosted holds run₃
        refine ⟨?_, (shown.cons rfl).cons rfl⟩
        rw [passed_cons rfl, passed_cons rfl]
        exact (Drift.look _ _ (.look _ _ drift)).congr rfl (by simp [Plain])
      | none =>
        obtain ⟨h₃, run₃, rfl⟩ := run_answered (.newCache o) rfl run₂
        have run₄ : Exec (env.answers S) (objectValue
          (fun jval => toDartValue n jval (some w.caches.length)) jval.ctx jval.val o
            w.caches.length) w.newCache h₃ (.ok d) w' := run₃
        have empty : Unhosted w.newCache (some w.caches.length) := by
          intro c same a f
          cases same
          rw [cacheAt_newCache]
          simp
        have holds' : w.newCache.value jval.val = .object o := by
          cases place : jval.val with
          | box n => rwa [place] at holds
          | slot a i => rwa [place] at holds
        obtain ⟨drift, shown⟩ := objectValue_accounted genuine (ih (some w.caches.length))
          (fun own jval => apart_toDartValue evolving n jval _) empty holds' run₄
        refine ⟨?_, ((shown.cons rfl).cons rfl).cons rfl⟩
        rw [passed_cons rfl, passed_cons rfl, passed_cons rfl]
        have made : Drift jval.ctx _ (passed (.object o) h₃) True w w' :=
          .skip (x := ⟨.newCache o,w.caches.length⟩) ⟨trivial, rfl, id⟩ drift
            ⟨.refl _, rfl, rfl, rfl, rfl, rfl⟩
        exact (Drift.look _ _ (.look _ _ made)).congr rfl (by simp [Plain])

/-- A conversion that completes gives everything back, but what its `HostFunction`s keep, exactly
where the value converted is no string and no failure, no element of an array is one, no property
`length` has a reference, no names are listed, and nothing fails where nothing had. -/
theorem toDartValue_neutral_iff (genuine : Genuine S) (fuel : Nat) (jval : JSRef) (w : World)
    (h : List (Event Op Reply)) (d : DartVal) (w' : World)
    (run : Exec (env.answers S) (toDartValue fuel jval none) w h (.ok d) w') :
    Neutral jval.ctx (handed (w.value jval.val) h) w w' ↔
      Plain (w.value jval.val) ∧ (∀ x ∈ h, Bare x) ∧
        ((∃ x ∈ h, Failed x) → (w.pending jval.ctx).isSome = true) := by
  have account := toDartValue_accounted genuine fuel none jval w h d w' (by simp [Unhosted]) run
  exact neutral_iff_of_drift account.1

end

/-- Every conversion that completes is neutral. -/
def AlwaysNeutral [PackageFfi] : Prop :=
  ∀ S, Genuine S → ∀ fuel jval w h d w',
    Exec (env.answers S) (toDartValue fuel jval none) w h (.ok d) w' →
    Neutral jval.ctx (handed (w.value jval.val) h) w w'

end

/-- Any answers but an exception marker from a read that did not throw. -/
def prudent (rely : World → World → Prop) : Setting Op Reply World where
  rely := rely
  guard _ _ := True
  allowed
    | .getProperty _ v k, w, r => r = .exception → w.reads v k = .code
    | _, _, _ => True
  total := False

theorem genuine_prudent {rely : World → World → Prop} (evolves : ∀ w w', rely w w' → Evolves w w') :
    Genuine (prudent rely) where
  free _ _ := trivial
  partially := id
  evolves := evolves
  reads _ _ _ _ allowed := allowed rfl

/-- A run in which nothing fails is a prudent one. -/
theorem prudent_run {rely : World → World → Prop} {α : Type} {p : Action α}
    {out : Except DartError α} {w w' : World} {h : List (Event Op Reply)}
    (run : Exec (env.answers (.plain rely False)) p w h out w') (calm : ∀ x ∈ h, ¬Failed x) :
    Exec (env.answers (prudent rely)) p w h out w' := by
  induction run with
  | done a w => exact .done a w
  | fail e w => exact .fail e w
  | @ask op k w w₁ w₂ r h out answered rest ih =>
    refine .ask ⟨?_, answered.2⟩ (ih fun x member => calm x (List.mem_cons_of_mem _ member))
    cases op with
    | getProperty ctx v k => exact fun same => absurd same (calm _ List.mem_cons_self)
    | _ => exact trivial

/-- A reply of a number or, from an element, of an object. -/
def tame : Event Op Reply → Bool
  | ⟨.getProperty _ _ k, r⟩ => match r with
    | .int _ => true
    | .object _ => k != .string lengthName
    | _ => false
  | ⟨.getOwnPropertyNames _ _, _⟩ => false
  | ⟨.isArray _ _, r⟩ => r != -1
  | _ => true

theorem bare_of_tame {x : Event Op Reply} (holds : tame x = true) : Bare x ∧ ¬Failed x := by
  obtain ⟨op, r⟩ := x
  cases op with
  | getProperty ctx v k =>
    change JSValue at r
    cases r <;> simp_all [tame, Bare, Failed, Plain, Counted]
  | getOwnPropertyNames ctx v => cases holds
  | isArray ctx v =>
    refine ⟨trivial, ?_⟩
    simpa [tame, Failed] using holds
  | _ => exact ⟨trivial, id⟩

/-- A world with one value in a box. -/
def boxWorld (v : JSValue) : World := { World.initial with boxes := [v] }

def mixedRef : ObjRef := ⟨1,0,.array⟩

def calleeRef : ObjRef := ⟨2,1,.function⟩

/-- A box with an array that holds a number, a function and the array itself. -/
def mixedWorld : World :=
  { World.initial with
    boxes := [.object mixedRef]
    heap := (World.initial.heap.put calleeRef (.bare none)).put mixedRef
      { (((JSObj.bare none).assign (.index 0) (.int 7)).assign (.index 1) (.object calleeRef)).assign
          (.index 2) (.object mixedRef) with
        length := 3
        fast := some 3 }
    serial := 2 }

/-- The array is converted, and nothing but the reference of its function is kept. -/
theorem toDartValue_neutral_mixed :
    letI := PackageFfi.utf8
    ∃ h d w', Exec (env.answers (prudent Eq)) (toDartValue 2 ⟨.array,0,.box 0⟩ none) mixedWorld h
      (.ok d) w' ∧ Neutral 0 (handed (.object mixedRef) h) mixedWorld w' := by
  let _ := PackageFfi.utf8
  obtain ⟨h, out, w', run, checked⟩ := Exec.of_check (p := toDartValue 2 ⟨.array,0,.box 0⟩ none)
    (w := mixedWorld) plain_known (fun h out => h.all tame && out.isOk) rfl
  rw [Bool.and_eq_true, List.all_eq_true] at checked
  have calm : ∀ x ∈ h, Bare x ∧ ¬Failed x := fun x member => bare_of_tame (checked.1 x member)
  cases out with
  | error e => cases checked.2
  | ok d =>
    have ran := prudent_run run fun x member => (calm x member).2
    have genuine : Genuine (prudent Eq) := genuine_prudent fun _ _ => Evolves.of_eq
    refine ⟨h, d, w', ran, (toDartValue_neutral_iff genuine 2 _ _ h d w' ran).mpr ?_⟩
    refine ⟨by simp [mixedWorld, World.value, Plain], fun x member => (calm x member).1, ?_⟩
    rintro ⟨x, member, failed⟩
    exact absurd failed (calm x member).2

/-- The C string of a converted string stays with the engine. -/
theorem not_alwaysNeutral_string :
    letI := PackageFfi.utf8
    ¬AlwaysNeutral := by
  let _ := PackageFfi.utf8
  intro always
  have run : Exec (env.answers (.plain Eq False)) (toDartValue 1 ⟨.value,0,.box 0⟩ none)
      (boxWorld (.string [97])) [⟨.load (.box 0),.string [97]⟩, ⟨.load (.box 0),.string [97]⟩,
        ⟨.toCString 0 (.string [97]),some [97]⟩] (.ok (.string [97])) _ :=
    Exec.of_trace plain_known rfl
  have genuine : Genuine (prudent Eq) := genuine_prudent fun _ _ => Evolves.of_eq
  have neutral := always _ genuine 1 _ _ _ _ _ (prudent_run run (by simp [Failed]))
  have same := congrFun neutral.cstrings [97]
  simp [boxWorld, World.lendCString, World.initial] at same

end FlutterQuickjs.Release
