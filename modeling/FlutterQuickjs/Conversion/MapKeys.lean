import FlutterQuickjs.Conversion.Enumerate

namespace FlutterQuickjs.Conversion

open Engine Binding ValueConverter
open Effect

/-- Whether an answer fits the object `o` if it is no array and these are its enumerable own
keys. -/
def fits (o : ObjRef) (keys : List PropKey) : (op : Op) → Reply op → Bool
  | .isArray _ v, r => v ≠ .object o || r = 0
  | .getOwnPropertyNames _ v, r => v ≠ .object o || r = some keys
  | _, _ => true

/-- Every run in which the engine lists these keys. -/
def listing (rely : World → World → Prop) (o : ObjRef) (keys : List PropKey) :
    Setting Op Reply World :=
  ⟨rely, fun _ _ => True, fun op _ r => fits o keys op r = true, False⟩

section

variable [PackageFfi]

/-- The map key that the conversion makes of a property key, if it makes one. -/
def KeyImage (k : PropKey) (key : MapKey) : Prop :=
  match k with
  | .string s => ∃ t, toDartString (cString s) = some t ∧ key = .string t
  | .symbol _ => key = .null

/-- The keys of the map are the images of these keys, and each of them has one. -/
structure Collected (keys : List PropKey) (found : List MapKey) : Prop where
  image : ∀ k ∈ keys, ∃ key, KeyImage k key
  exact : ∀ key, key ∈ found ↔ ∃ k ∈ keys, KeyImage k key

theorem KeyImage.unique {k : PropKey} {key key' : MapKey} (image : KeyImage k key)
    (image' : KeyImage k key') : key = key' := by
  cases k with
  | string s =>
    obtain ⟨t, read, rfl⟩ := image
    obtain ⟨t', read', rfl⟩ := image'
    rw [read] at read'
    cases read'
    rfl
  | symbol s => exact image.trans image'.symm

theorem Collected.nil : Collected [] [] := ⟨by simp, by simp⟩

theorem Collected.clean {keys : List PropKey} {found : List MapKey} (collected : Collected keys found)
    (names : ∀ key, key ∈ found ↔ ∃ s, .string s ∈ keys ∧ key = .string s) :
    ∀ k ∈ keys, ∃ s, k = .string s ∧ Clean s := by
  intro k member
  obtain ⟨key, image⟩ := collected.image k member
  have arrived := (collected.exact key).mpr ⟨k, member, image⟩
  obtain ⟨s, -, rfl⟩ := (names key).mp arrived
  cases k with
  | symbol s' => cases image
  | string s' =>
    obtain ⟨k, -, image'⟩ := (collected.exact _).mp ((names (.string s')).mpr ⟨s', member, rfl⟩)
    cases k with
    | symbol s'' => cases image'
    | string s'' =>
      obtain ⟨t, read, same⟩ := image'
      obtain ⟨t', clean, -, marked⟩ := (PackageFfi.toDartString_eq_some _ _).mp read
      cases same
      rw [marked]
      exact ⟨_, rfl, clean_dropBom clean⟩

variable {rely : World → World → Prop} {o : ObjRef} {keys : List PropKey} {c n : Nat} {ctx : Ctx}
  {val p : Ptr} {w : World}

/-- The map `m` is being filled with the properties that the table lists. -/
structure Looping (c a m table : Nat) (keys : List PropKey) (w : World) : Prop where
  inside : Private c w
  entered : cacheAt w c a = some (.map m)
  listed : w.tables[table]? = some keys

namespace Looping

variable {a m table : Nat} {w' : World}

omit [PackageFfi]

theorem stays (looping : Looping c a m table keys w)
    (stays : Private c w' ∧ Stays c Unfilled w w') :
    Looping c a m table keys w' ∧ w'.maps.getD m .empty = w.maps.getD m .empty :=
  ⟨⟨stays.1, stays.2.cached _ _ looping.entered, stays.2.tables.getElem? looping.listed⟩,
    stays.2.maps _ _ looping.entered id⟩

theorem calm (looping : Looping c a m table keys w) (calm : Calm c w w') :
    Looping c a m table keys w' ∧ w'.maps.getD m .empty = w.maps.getD m .empty :=
  looping.stays (calm.tends looping.inside)

theorem put (looping : Looping c a m table keys w) (key : MapKey) (d : DartVal) :
    Looping c a m table keys { w with maps := w.maps.modify m (·.insert key d) } ∧
      (w.maps.modify m (·.insert key d)).getD m .empty = (w.maps.getD m .empty).insert key d := by
  refine ⟨⟨fun a m' found => ?_, looping.entered, looping.listed⟩, ?_⟩
  · simpa using looping.inside a m' found
  · exact getD_modify_self (looping.inside a m looping.entered) _ _

theorem atom (looping : Looping c a m table keys w) {i : Nat} (bound : i < keys.length) :
    (w.tables.getD table []).getD i (.string []) = keys[i] := by
  simp [List.getD_eq_getElem?_getD, looping.listed, bound]

end Looping

end

end FlutterQuickjs.Conversion
