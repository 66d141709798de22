import FlutterQuickjs.Conversion.Quiet
import Mathlib.Data.Finset.Card

namespace FlutterQuickjs.Conversion

open Engine Binding
open Effect

def cacheAt (w : World) (c a : Nat) : Option DartVal := (w.caches.getD c .empty).find a

/-- The pointer is valid and holds `v`. -/
def Holds (w : World) : Ptr → JSValue → Prop
  | .box n, v => w.boxes[n]? = some v
  | .slot a i, v => w.value (.slot a i) = v

/-- No pointer to a function is given up. -/
def FunctionsKept (w w' : World) : Prop :=
  ∀ p ∈ w'.released, p ∈ w.released ∨ ∃ v, Holds w' p v ∧ v.isFunction = false

/-- What every part of a conversion on a data-only graph leaves behind: the engine and the
argument vectors as they were, more boxes and Dart containers, and a larger cache. -/
structure Extends (c : Nat) (w w' : World) : Prop where
  heap : w'.heap = w.heap
  serial : w'.serial = w.serial
  realm : w'.realm = w.realm
  arrays : w'.arrays = w.arrays
  boxes : Keeps w.boxes w'.boxes
  tables : Keeps w.tables w'.tables
  lists : Keeps w.lists w'.lists
  maps : Keeps w.maps w'.maps
  caches : w.caches.length ≤ w'.caches.length
  cached : ∀ a d, cacheAt w c a = some d → cacheAt w' c a = some d
  kept : FunctionsKept w w'

/-- `d` stands for `v`: through the cache for a container, directly for a leaf. -/
def Image (w : World) (c : Nat) (ctx : Ctx) (v : JSValue) (d : DartVal) : Prop :=
  match v with
  | .object o =>
    if o.kind = .function then LeafRead w ctx (.object o) d else cacheAt w c o.address = some d
  | v => LeafRead w ctx v d

/-- The Dart container `d` shows nothing but what the object `o` shows, and all of it unless two
keys are read as one. -/
structure Complete (w : World) (c : Nat) (ctx : Ctx) (o : ObjRef) (d : DartVal) : Prop where
  sources : ∀ s' m', (dartGraph w d).child s' = some m' → ∃ s m,
    (jsGraph readLength w.heap (.object o)).child s = some m ∧ s' = s.map keyRead ∧
      Image w c ctx m m'
  views : KeysApart w.heap (.object o) → Matches (LeafRead w ctx) keyRead
    (jsGraph readLength w.heap (.object o)) (dartGraph w d)
  children : KeysApart w.heap (.object o) →
    ∀ s m m', (jsGraph readLength w.heap (.object o)).child s = some m →
      (dartGraph w d).child (s.map keyRead) = some m' → Image w c ctx m m'

/-- Every cached address is that of a live container, with a Dart container of its own. -/
structure SoundCache (w : World) (c : Nat) : Prop where
  origin : ∀ a d, cacheAt w c a = some d → ∃ o, w.heap.Live o ∧ o.address = a ∧
    (o.kind = .array ∧ (∃ l < w.lists.length, d = .list l) ∨
      o.kind = .ordinary ∧ ∃ m < w.maps.length, d = .map m)
  injective : ∀ a a' d, cacheAt w c a = some d → cacheAt w c a' = some d → a = a'

/-- A part of a conversion that completes every container it enters in the cache. -/
structure Grows (c : Nat) (ctx : Ctx) (w w' : World) : Prop where
  extend : Extends c w w'
  sound : SoundCache w' c
  complete : ∀ o d, w'.heap.Live o → cacheAt w' c o.address = some d →
    cacheAt w c o.address = none → Complete w' c ctx o d

/-- The live objects that are not cached, which bound the depth of the recursion. -/
def uncached (w : World) (c : Nat) : Nat :=
  (w.heap.objects.keys.toFinset.filter fun o => cacheAt w c o.address = none).card

/-- What `toDartValue` does to a data-only value with clean text; it throws only for want of
stack. -/
def Decodes (w : World) (c : Nat) (ctx : Ctx) (v : JSValue) (n : Nat) :
    Except DartError DartVal → World → Prop
  | .ok d, w' => Grows c ctx w w' ∧ Image w' c ctx v d
  | .error _, _ => n ≤ uncached w c

section

variable {c : Nat} {ctx : Ctx} {w w' w'' : World} {o : ObjRef} {p : Ptr} {v : JSValue}
  {d : DartVal}

theorem cacheAt_of_length_le (outside : w.caches.length ≤ c) (a : Nat) : cacheAt w c a = none := by
  simp [cacheAt, List.getD_eq_getElem?_getD, List.getElem?_eq_none outside]

theorem cacheAt_newCache (w : World) (a : Nat) : cacheAt w.newCache w.caches.length a = none := by
  simp [cacheAt, World.newCache]

theorem cacheAt_cache (inside : c < w.caches.length) (a : Nat) :
    cacheAt (w.cache c o d) c a = if a = o.address then some d else cacheAt w c a := by
  simp only [cacheAt, World.cache, getD_modify_self inside, OrderedMap.find_insert]

/-- An entry that is found is an old one, or the one that was made. -/
theorem of_cacheAt_cache {d' : DartVal} {a : Nat} (found : cacheAt (w.cache c o d) c a = some d') :
    a = o.address ∧ d' = d ∨ cacheAt w c a = some d' := by
  by_cases inside : c < w.caches.length
  · rw [cacheAt_cache inside] at found
    by_cases same : a = o.address
    · rw [if_pos same] at found
      exact .inl ⟨same, (Option.some.inj found).symm⟩
    · rw [if_neg same] at found
      exact .inr found
  · have outside : (w.cache c o d).caches.length ≤ c := by simpa [World.cache] using inside
    rw [cacheAt_of_length_le outside] at found
    cases found

/-- An entry at a free address takes none away. -/
theorem cacheAt_cache_of_some {d' : DartVal} {a : Nat} (free : cacheAt w c o.address = none)
    (found : cacheAt w c a = some d') : cacheAt (w.cache c o d) c a = some d' := by
  by_cases inside : c < w.caches.length
  · have other : a ≠ o.address := by
      intro same
      rw [same, free] at found
      cases found
    rw [cacheAt_cache inside, if_neg other]
    exact found
  · rw [cacheAt_of_length_le (by omega)] at found
    cases found

theorem Holds.value (holds : Holds w p v) : w.value p = v := by
  cases p with
  | box n =>
    have found : w.boxes[n]? = some v := holds
    simp [World.value, List.getD_eq_getElem?_getD, found]
  | slot a i => exact holds

theorem holds_lastBox (w : World) (v : JSValue) : Holds (w.addBox v) w.lastBox v := by
  simp [Holds, World.lastBox, World.addBox]

namespace Extends

theorem refl (c : Nat) (w : World) : Extends c w w :=
  ⟨rfl, rfl, rfl, rfl, .refl _, .refl _, .refl _, .refl _, le_rfl, fun _ _ found => found,
    fun _ => .inl⟩

theorem holds_of_keeps {p : Ptr} {v : JSValue} (boxes : Keeps w.boxes w'.boxes)
    (arrays : w'.arrays = w.arrays) (holds : Holds w p v) : Holds w' p v := by
  cases p with
  | box n => exact boxes.getElem? holds
  | slot a i =>
    have same : w'.value (.slot a i) = w.value (.slot a i) := by
      simp only [World.value, arrays]
    exact same.trans holds

theorem holds (extend : Extends c w w') (holds : Holds w p v) : Holds w' p v :=
  holds_of_keeps extend.boxes extend.arrays holds

theorem trans (first : Extends c w w') (second : Extends c w' w'') : Extends c w w'' where
  heap := second.heap.trans first.heap
  serial := second.serial.trans first.serial
  realm := second.realm.trans first.realm
  arrays := second.arrays.trans first.arrays
  boxes := first.boxes.trans second.boxes
  tables := first.tables.trans second.tables
  lists := first.lists.trans second.lists
  maps := first.maps.trans second.maps
  caches := first.caches.trans second.caches
  cached a d found := second.cached a d (first.cached a d found)
  kept p inside := by
    rcases second.kept p inside with before | plain
    · rcases first.kept p before with old | ⟨v, holds, plain⟩
      · exact .inl old
      · exact .inr ⟨v, second.holds holds, plain⟩
    · exact .inr plain

theorem addBox (w : World) (v : JSValue) : Extends c w (w.addBox v) :=
  { refl c w with
    boxes := .append _ _
    kept := fun _ => .inl }

theorem fetch (w : World) (v : JSValue) : Extends c w (w.fetch v) :=
  { refl c w with
    boxes := .append _ _
    kept := fun _ => .inl }

theorem free (holds : Holds w p v) (plain : v.isFunction = false) : Extends c w (w.free p) :=
  { refl c w with
    kept := by
      intro q inside
      rcases List.mem_append.mp inside with old | freed
      · exact .inl old
      · cases List.mem_singleton.mp freed
        exact .inr ⟨v, holds_of_keeps (.refl _) rfl holds, plain⟩ }

theorem wrap (w : World) (ctx : Ctx) (p : Ptr) : Extends c w (w.wrap ctx p) := by
  unfold World.wrap
  split
  · exact { refl c w with }
  · exact refl c w

theorem value_object (extend : Extends c w w') (holds : w.value p = .object o) :
    w'.value p = .object o := by
  cases p with
  | box n =>
    simp only [World.value, List.getD_eq_getElem?_getD] at holds ⊢
    cases found : w.boxes[n]? with
    | none => rw [found] at holds; cases holds
    | some v => rw [extend.boxes.getElem? found, ← found]; exact holds
  | slot a i =>
    simp only [World.value, extend.arrays] at holds ⊢
    exact holds

theorem leafRead (extend : Extends c w w') (image : LeafRead w ctx v d) :
    LeafRead w' ctx v d := by
  cases v with
  | object o =>
    obtain ⟨function, p, rfl, holds⟩ := image
    exact ⟨function, p, rfl, extend.value_object holds⟩
  | _ => exact image

theorem image (extend : Extends c w w') (image : Image w c ctx v d) : Image w' c ctx v d := by
  cases v with
  | object o =>
    simp only [Image] at image ⊢
    split at image
    · rename_i function
      rw [if_pos function]
      exact extend.leafRead image
    · rename_i container
      rw [if_neg container]
      exact extend.cached _ _ image
  | _ =>
    simp only [Image] at image ⊢
    exact extend.leafRead image

/-- A container that was there shows what it showed. -/
theorem dartGraph (extend : Extends c w w')
    (old : (∃ l < w.lists.length, d = .list l) ∨ ∃ m < w.maps.length, d = .map m) :
    dartGraph w' d = dartGraph w d := by
  rcases old with ⟨l, old, rfl⟩ | ⟨m, old, rfl⟩
  · simp only [Conversion.dartGraph, extend.lists.getD old]
  · simp only [Conversion.dartGraph, extend.maps.getD old]

theorem uncached_le (extend : Extends c w w') : uncached w' c ≤ uncached w c := by
  refine Finset.card_le_card fun o inside => ?_
  simp only [Finset.mem_filter, List.mem_toFinset, extend.heap] at inside ⊢
  refine ⟨inside.1, ?_⟩
  cases found : cacheAt w c o.address with
  | none => rfl
  | some d => rw [extend.cached _ _ found] at inside; exact absurd inside.2 (by simp)

theorem uncached_lt (extend : Extends c w w') (live : w.heap.Live o)
    (before : cacheAt w c o.address = none) (after : cacheAt w' c o.address = some d) :
    uncached w' c < uncached w c := by
  refine Finset.card_lt_card (Finset.ssubset_iff_subset_ne.mpr ⟨fun o inside => ?_, fun same => ?_⟩)
  · simp only [Finset.mem_filter, List.mem_toFinset, extend.heap] at inside ⊢
    refine ⟨inside.1, ?_⟩
    cases found : cacheAt w c o.address with
    | none => rfl
    | some d => rw [extend.cached _ _ found] at inside; exact absurd inside.2 (by simp)
  · have inside : o ∈ w.heap.objects.keys.toFinset.filter fun o => cacheAt w c o.address = none := by
      simp only [Finset.mem_filter, List.mem_toFinset]
      exact ⟨live, before⟩
    rw [← same, Finset.mem_filter, after] at inside
    exact absurd inside.2 (by simp)

end Extends

/-- What stands for a function of a data-only graph is a `HostFunction`. -/
theorem hostFunction_of_image {len : UInt32 → Nat} {h : Heap} (image : Image w c ctx v d)
    (node : DataNode len h v) (function : v.isFunction = true) :
    ∃ f, d = .hostFunction f := by
  cases v with
  | object o =>
    cases kind : o.kind with
    | function =>
      rw [Image, if_pos kind] at image
      obtain ⟨-, p, rfl, -⟩ := image
      exact ⟨_, rfl⟩
    | exotic callable => simp [DataNode, kind] at node
    | _ => simp [JSValue.isFunction, kind] at function
  | _ => simp [JSValue.isFunction] at function

theorem SoundCache.old (sound : SoundCache w c) {a : Nat} (found : cacheAt w c a = some d) :
    (∃ l < w.lists.length, d = .list l) ∨ ∃ m < w.maps.length, d = .map m := by
  obtain ⟨o, -, -, ⟨-, list⟩ | ⟨-, map⟩⟩ := sound.origin a d found
  · exact .inl list
  · exact .inr map

theorem Complete.congr (complete : Complete w c ctx o d) (heap : w'.heap = w.heap)
    (graph : dartGraph w' d = dartGraph w d)
    (leaf : ∀ v d, LeafRead w ctx v d → LeafRead w' ctx v d)
    (image : ∀ v d, Image w c ctx v d → Image w' c ctx v d) : Complete w' c ctx o d where
  sources s' m' child := by
    rw [graph] at child
    rw [heap]
    obtain ⟨s, m, child', same, shown⟩ := complete.sources s' m' child
    exact ⟨s, m, child', same, image m m' shown⟩
  views apart := by
    rw [heap] at apart
    rw [heap, graph]
    exact Matches.mono (complete.views apart) leaf
  children apart s m m' child child' := by
    rw [heap] at apart child
    rw [graph] at child'
    exact image m m' (complete.children apart s m m' child child')

theorem Complete.extend (complete : Complete w c ctx o d) (extend : Extends c w w')
    (old : (∃ l < w.lists.length, d = .list l) ∨ ∃ m < w.maps.length, d = .map m) :
    Complete w' c ctx o d :=
  complete.congr extend.heap (extend.dartGraph old) (fun _ _ => extend.leafRead)
    fun _ _ => extend.image

namespace Grows

theorem of_same_caches (sound : SoundCache w c) (extend : Extends c w w')
    (same : ∀ a, cacheAt w' c a = cacheAt w c a) : Grows c ctx w w' where
  extend := extend
  sound := by
    refine ⟨fun a d found => ?_, fun a a' d found found' => ?_⟩
    · rw [same] at found
      obtain ⟨o, live, address, kind⟩ := sound.origin a d found
      refine ⟨o, extend.heap ▸ live, address, kind.imp ?_ ?_⟩
      · rintro ⟨array, l, old, rfl⟩
        exact ⟨array, l, old.trans_le extend.lists.1, rfl⟩
      · rintro ⟨ordinary, m, old, rfl⟩
        exact ⟨ordinary, m, old.trans_le extend.maps.1, rfl⟩
    · rw [same] at found found'
      exact sound.injective a a' d found found'
  complete o d _ after before := by
    rw [same, before] at after
    cases after

theorem refl (sound : SoundCache w c) : Grows c ctx w w :=
  of_same_caches sound (.refl c w) fun _ => rfl

theorem trans (first : Grows c ctx w w') (second : Grows c ctx w' w'') : Grows c ctx w w'' where
  extend := first.extend.trans second.extend
  sound := second.sound
  complete o d live after before := by
    cases between : cacheAt w' c o.address with
    | none => exact second.complete o d live after between
    | some d' =>
      have same := second.extend.cached _ _ between
      rw [after] at same
      cases same
      rw [second.extend.heap] at live
      exact (first.complete o d live between before).extend second.extend
        (first.sound.old between)

theorem fetch (sound : SoundCache w c) (v : JSValue) : Grows c ctx w (w.fetch v) :=
  of_same_caches sound (.fetch w v) fun _ => rfl

theorem free (sound : SoundCache w c) (holds : Holds w p v) (plain : v.isFunction = false) :
    Grows c ctx w (w.free p) :=
  of_same_caches sound (.free holds plain) fun _ => rfl

theorem wrap (sound : SoundCache w c) (p : Ptr) : Grows c ctx w (w.wrap ctx p) :=
  of_same_caches sound (.wrap w ctx p) fun _ => by
    unfold World.wrap
    split <;> rfl

end Grows

end

end FlutterQuickjs.Conversion
