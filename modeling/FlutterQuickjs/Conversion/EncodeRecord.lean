import FlutterQuickjs.Conversion.Encode

namespace FlutterQuickjs.Conversion

open Engine Binding ValueConverter
open Effect

section

variable {w₀ w w' : World} {root r : ObjRef} {obj obj' : JSObj} {chain : List (ObjRef × JSObj)}
  {h h' : Heap} {n hi lo : Nat}
  {all : List MapKey} {entries : List (MapKey × DartVal)} {key : MapKey} {d : DartVal}
  {k : PropKey} {x v : JSValue} {interned : CString → Bool}

theorem AfterSet.assigned (after : AfterSet w r k x h) (ordinary : r.kind = .ordinary)
    (found : w.heap.find r = some obj) (data : obj.AllData) (extensible : obj.extensible = true) :
    Heap.Assigned w.heap r obj k x h := by
  rcases after with stored | ⟨rfl, -⟩
  · exact Heap.set_assigned ordinary found data extensible stored
  · exact .same

/-- An assignment leaves one object changed, and that one with at most one more property. -/
theorem assigned_find (assigned : Heap.Assigned h r obj k x h') (found : h.find r = some obj) :
    (∃ obj', h'.find r = some obj' ∧ obj'.extensible = obj.extensible ∧
      (obj'.properties = obj.properties ∨ obj' = obj.assign k x)) ∧
    ∀ o, o ≠ r → h'.find o = h.find o := by
  have live : h.Live r ∨ ¬h.Taken r.address := .inl (Heap.live_of_find found)
  cases assigned with
  | same => exact ⟨⟨obj, found, rfl, .inl rfl⟩, fun _ _ => rfl⟩
  | property =>
    refine ⟨⟨obj.assign k x, ?_, rfl, .inr rfl⟩, fun o other => ?_⟩
    · rw [Heap.find_put live, if_pos rfl]
    · rw [Heap.find_put live, if_neg other]
  | proto p =>
    refine ⟨⟨{ obj with proto := p }, ?_, rfl, .inl rfl⟩, fun o other => ?_⟩
    · rw [Heap.find_put live, if_pos rfl]
    · rw [Heap.find_put live, if_neg other]

theorem keys_of_properties (same : obj'.properties = obj.properties ∨ obj' = obj.assign k x)
    {k' : PropKey} (inside : k' ∈ obj'.properties.keys) : k' ∈ obj.properties.keys ∨ k' = k := by
  rcases same with same | rfl
  · exact .inl (same ▸ inside)
  · rw [JSObj.assign, OrderedMap.keys_insert] at inside
    split at inside
    · exact .inl inside
    · simpa using inside

theorem Progress.step (progress : Progress interned root chain (entries.map Prod.fst) obj)
    (fresh : sentKey interned key ∉ (entries.map Prod.fst).map (sentKey interned)) (ordinary : r.kind = .ordinary)
    (found : w.heap.find r = some obj) (extensible : obj.extensible = true)
    (prototypes : Prototypes w root chain) (after : AfterSet w r (sentKey interned key) x h)
    (found' : h.find r = some obj')
    (same : obj'.properties = obj.properties ∨ obj' = obj.assign (sentKey interned key) x) :
    Progress interned root chain ((entries ++ [(key,d)]).map Prod.fst) obj' := by
  have live : w.heap.Live r ∨ ¬w.heap.Taken r.address := .inl (Heap.live_of_find found)
  rcases progress with ⟨proto, inheritable, keys⟩ | ⟨k, member, blocked, absent⟩
  · have new : sentKey interned key ∉ obj.properties.keys := by rw [keys]; exact fresh
    have unset : obj.properties.find (sentKey interned key) = none := OrderedMap.find_eq_none.mpr new
    by_cases inherits : Heap.Inheritable (sentKey interned key) chain
    · have stored := Heap.set_inheritable (v := x) ordinary found extensible unset
        prototypes.chained proto inherits
      rcases after with stored' | ⟨-, never⟩
      · rw [stored] at stored'
        cases stored'
        rw [Heap.find_put live, if_pos rfl] at found'
        cases found'
        refine .inl ⟨proto, ?_, ?_⟩
        · intro k member
          simp only [List.map_append, List.map_cons, List.map_nil, List.mem_append,
            List.mem_singleton] at member
          rcases member with old | rfl
          · exact inheritable k old
          · exact inherits
        · rw [JSObj.assign, OrderedMap.keys_insert, if_neg new, keys]
          simp
      · exact absurd stored (never _)
    · refine .inr ⟨key, by simp, inherits, ?_⟩
      have kept : obj'.properties = obj.properties := by
        rcases after with stored | ⟨rfl, -⟩
        · rcases Heap.set_not_inheritable ordinary found unset prototypes.chained proto inherits
            stored with rfl | ⟨p, rfl⟩
          · cases Option.some.inj (found.symm.trans found')
            rfl
          · rw [Heap.find_put live, if_pos rfl] at found'
            cases found'
            rfl
        · cases Option.some.inj (found.symm.trans found')
          rfl
      rw [kept]
      exact new
  · refine .inr ⟨k, ?_, blocked, fun inside => ?_⟩
    · rw [List.map_append]
      exact List.mem_append_left _ member
    · rcases keys_of_properties same inside with old | isKey
      · exact absent old
      · exact fresh (isKey ▸ List.mem_map_of_mem member)

theorem Stores.holds {p : Ptr} (stores : Stores w w' h) (holds : Holds w p v) :
    Holds w' p v := by
  cases p with
  | box n =>
    have found : w.boxes[n]? = some v := holds
    exact (congrArg (·[n]?) stores.boxes).trans found
  | slot a i =>
    have same : w'.value (.slot a i) = w.value (.slot a i) := by
      simp only [World.value, stores.arrays]
    exact same.trans holds

/-- A change to a newer object. -/
theorem Builds.stores {w₁ : World} (builds : Builds w₁ w) (stores : Stores w w' h)
    (others : ∀ o, o ≠ r → h.find o = w.heap.find o) (newer : w₁.serial ≤ r.serial) :
    Builds w₁ w' where
  lists := stores.lists.trans builds.lists
  maps := stores.maps.trans builds.maps
  realm := stores.realm.trans builds.realm
  arrays := stores.arrays.trans builds.arrays
  boxes := stores.boxes ▸ builds.boxes
  serial := stores.serial ▸ builds.serial
  old o before := by
    rw [stores.heap, others o]
    · exact builds.old o before
    · rintro rfl
      omega

end

/-- An object under construction, since the world `w₁`. -/
structure Record (interned : CString → Bool) (w₀ w₁ : World) (root : ObjRef) (good : Prop)
    (n : Nat) (all : List MapKey) (entries : List (MapKey × DartVal)) (r : ObjRef) (obj : JSObj) (w : World) : Prop where
  builds : Builds w₁ w
  found : w.heap.find r = some obj
  extensible : obj.extensible = true
  proto : good → obj.proto = some root
  first : w₁.serial ≤ r.serial
  last : r.serial < w.serial
  holds : RecordHolds interned (Encoded interned w₀ root w.heap n) w₀ root all entries r obj w.serial

section

variable {w₀ w₁ w w' w'' : World} {root r : ObjRef} {obj : JSObj} {h : Heap} {good : Prop}
  {n : Nat} {interned : CString → Bool}
  {all : List MapKey} {entries : List (MapKey × DartVal)} {key : MapKey} {d : DartVal} {x : JSValue}

/-- Making a value leaves the object under construction as it is. -/
theorem Record.grow (record : Record interned w₀ w₁ root good n all entries r obj w) (builds : Builds w w') :
    Record interned w₀ w₁ root good n all entries r obj w' where
  builds := record.builds.trans builds
  found := (builds.old r record.last).trans record.found
  extensible := record.extensible
  proto := record.proto
  first := record.first
  last := record.last.trans_le builds.serial
  holds := by
    refine ⟨record.holds.holding.mono ?_ (fun _ _ => id) builds.serial, record.holds.progress⟩
    intro d x a b after before encoded
    exact encoded.frame fun o low high => builds.old o (high.trans_le before)

theorem Record.assign (record : Record interned w₀ w₁ root good n all entries r obj w) (ordinary : r.kind = .ordinary)
    (since : Builds w₀ w₁) (builds : Builds w w')
    (encoded : Encoded interned w₀ root w'.heap n d x w.serial w'.serial)
    (fresh : (all.map (sentKey interned)).Nodup → sentKey interned key ∉ (entries.map Prod.fst).map (sentKey interned))
    (plain : good → w'.heap.set r (sentKey interned key) x =
      .stored (w'.heap.put r (obj.assign (sentKey interned key) x)))
    (stores : Stores w' w'' h) (after : AfterSet w' r (sentKey interned key) x h) :
    ∃ obj', Record interned w₀ w₁ root good n all (entries ++ [(key,d)]) r obj' w'' := by
  have grown := record.grow builds
  have assigned := after.assigned ordinary grown.found grown.holds.holding.allData grown.extensible
  obtain ⟨⟨obj', found', extensible, same⟩, others⟩ := assigned_find assigned grown.found
  have frame : ∀ d x a b, r.serial < a → Encoded interned w₀ root w'.heap n d x a b →
      Encoded interned w₀ root h n d x a b := by
    intro d x a b later encoded
    refine encoded.frame fun o low high => others o ?_
    rintro rfl
    omega
  have old : Holding (Encoded interned w₀ root h n)
      (fun k d' => ∃ key', (key',d') ∈ entries ++ [(key,d)] ∧ k = sentKey interned key') r obj w'.serial := by
    refine grown.holds.holding.mono (fun d x a b later _ => frame d x a b later) ?_ le_rfl
    rintro k d' ⟨key', member, rfl⟩
    exact ⟨key', List.mem_append_left _ member, rfl⟩
  refine ⟨obj', grown.builds.stores stores others record.first, stores.heap ▸ found', ?_, ?_,
    record.first, ?_, ?_⟩
  · rw [extensible, grown.extensible]
  · intro isGood
    have stored := plain isGood
    rcases after with stored' | ⟨-, never⟩
    · rw [stored] at stored'
      cases stored'
      rw [Heap.find_put (.inl (Heap.live_of_find grown.found)), if_pos rfl] at found'
      cases found'
      exact record.proto isGood
    · exact absurd stored (never _)
  · rw [stores.serial]
    exact grown.last
  · rw [stores.heap, stores.serial]
    refine ⟨?_, fun chain prototypes nodup => ?_⟩
    · rcases same with kept | rfl
      · exact old.congr kept
      · have before : Holding (Encoded interned w₀ root h n)
            (fun k d' => ∃ key', (key',d') ∈ entries ++ [(key,d)] ∧ k = sentKey interned key') r obj
            w.serial := by
          refine record.holds.holding.mono (fun d x a b later earlier encoded => ?_) ?_ le_rfl
          · exact frame d x a b later
              (encoded.frame fun o low high => builds.old o (high.trans_le earlier))
          · rintro k d' ⟨key', member, rfl⟩
            exact ⟨key', List.mem_append_left _ member, rfl⟩
        exact before.assign ⟨key, by simp, rfl⟩ (frame d x _ _ record.last encoded) record.last le_rfl
          builds.serial
    · have prototypes' := (since.trans grown.builds).prototypes prototypes
      exact (grown.holds.progress chain prototypes nodup).step (fresh nodup) ordinary grown.found
        grown.extensible prototypes' after found' same

end

/-- A converter for the values of `w₀`, given stack for `n` levels. -/
def Encoder (finds : CString → PropKey → Prop) (interned : CString → Bool)
    (rely : World → World → Prop) (w₀ : World) (root : ObjRef) (chain : List (ObjRef × JSObj))
    (good : Prop) (n : Nat) (convert : DartVal → Action Ptr) : Prop :=
  ∀ d w, Builds w₀ w → Predictable finds interned w₀ d → (good → Fits interned w₀ chain n d) →
    wp env (building finds rely good) (convert d) (Encodes interned w₀ root good n w d) w

variable [PackageFfi] {finds : CString → PropKey → Prop} {interned : CString → Bool}
  {rely : World → World → Prop} {good : Prop} {w₀ w₁ w : World}
  {root r : ObjRef} {obj : JSObj} {chain : List (ObjRef × JSObj)} {n m : Nat} {ctx : Ctx}
  {jsVal : Ptr}  {convert : DartVal → Action Ptr}

theorem entryLoop_encodes (conv : Encoder finds interned rely w₀ root chain good n convert)
    (calm : good ∨ ∀ w w', rely w w' → w' = w)
    (prototypes : good → Prototypes w₀ root chain)
    (predictable : Predictable finds interned w₀ (.map m))
    (fits : good → ∀ e ∈ (w₀.maps.getD m .empty).entries,
      Heap.Inheritable (sentKey interned e.1) chain ∧ Fits interned w₀ chain n e.2)
    (since : Builds w₀ w₁) (ordinary : r.kind = .ordinary) (rounds i : Nat)
    (all : i + rounds = (w₀.maps.getD m .empty).entries.length)
    (record : Record interned w₀ w₁ root good n (w₀.maps.getD m .empty).keys
      ((w₀.maps.getD m .empty).entries.take i) r obj w)
    (holds : Holds w jsVal (.object r)) :
    wp env (building finds rely good)
      (entryLoop convert ctx jsVal m (w₀.maps.getD m .empty).keys rounds)
      (fun out w' => match out with
        | .ok _ => Holds w' jsVal (.object r) ∧ ∃ obj', Record interned w₀ w₁ root good n
            (w₀.maps.getD m .empty).keys (w₀.maps.getD m .empty).entries r obj' w'
        | .error _ => ¬good) w := by
  have maps : w.maps = w₀.maps := record.builds.maps.trans since.maps
  have same : (w.maps.getD m .empty).entries.map Prod.fst = (w₀.maps.getD m .empty).keys := by
    rw [maps]
    rfl
  induction rounds generalizing i w obj with
  | zero =>
    rw [entryLoop, wp_bind, building_mapEntries, andThen_ok, if_neg (by simpa using same), wp_pure]
    rw [Nat.add_zero] at all
    rw [all, List.take_length] at record
    exact ⟨holds, obj, record⟩
  | succ rounds ih =>
    have inside : i < (w₀.maps.getD m .empty).entries.length := by omega
    have position : (w₀.maps.getD m .empty).keys.length - (rounds + 1) = i := by
      rw [OrderedMap.keys, List.length_map]
      omega
    rw [entryLoop, wp_bind, building_mapEntries, andThen_ok, if_neg (by simpa using same), position,
      maps, List.getElem?_eq_getElem inside]
    have prefixed := List.take_succ_eq_append_getElem inside
    have member : (w₀.maps.getD m .empty).entries[i] ∈ (w₀.maps.getD m .empty).entries :=
      List.getElem_mem inside
    generalize (w₀.maps.getD m .empty).entries[i] = e at *
    obtain ⟨key, value⟩ := e
    have fresh : ((w₀.maps.getD m .empty).keys.map (sentKey interned)).Nodup →
        sentKey interned key ∉ (((w₀.maps.getD m .empty).entries.take i).map Prod.fst).map (sentKey interned) := by
      intro nodup
      have part := nodup.sublist (((List.take_sublist (i+1) _).map Prod.fst).map (sentKey interned))
      rw [prefixed] at part
      simp only [List.map_append, List.map_cons, List.map_nil] at part
      exact fun old => (List.nodup_append.mp part).2.2 _ old _ (List.mem_singleton_self _) rfl
    dsimp only
    rw [wp_bind]
    have child : (dartGraph w₀ (.map m)).child (.key key) = some value :=
      OrderedMap.find_eq_some.mpr member
    refine wp_mono (conv value w (since.trans record.builds) (predictable.child child)
      fun isGood => (fits isGood _ member).2)
      fun out w' encodes => ?_
    cases out with
    | error e => exact encodes
    | ok prop =>
      obtain ⟨builds, v, holdsProp, encoded⟩ := encodes
      have grown := record.grow builds
      have holds' := builds.holds holds
      have plain : good → w'.heap.set r (sentKey interned key) v =
          .stored (w'.heap.put r (obj.assign (sentKey interned key) v)) := by
        intro isGood
        cases own : obj.properties.find (sentKey interned key) with
        | some p =>
          exact Heap.set_own ordinary grown.found grown.holds.holding.allData own
        | none =>
          exact Heap.set_inheritable ordinary grown.found grown.extensible own
            ((since.trans grown.builds).prototypes (prototypes isGood)).chained (grown.proto isGood)
            (fits isGood _ member).1
      rw [andThen_ok, wp_bind, jsSetPropertyStr, wp_bind, building_load, andThen_ok, wp_bind,
        building_load, andThen_ok, holds'.value, holdsProp.value, wp_bind, toNativeUtf8_eq_toUtf8]
      refine building_newAtom (predictable [] m rfl key (List.mem_map_of_mem member)) ?_
      rw [andThen_ok]
      refine building_setProperty calm plain fun i' w'' h stores after => ?_
      obtain ⟨obj', record'⟩ := record.assign ordinary since builds encoded fresh plain stores after
      rw [← prefixed] at record'
      exact ih (i+1) (by omega) record' (stores.holds holds')
        (stores.maps.trans (builds.maps.trans maps)) (by rw [stores.maps, builds.maps]; exact same)

end FlutterQuickjs.Conversion
