import FlutterQuickjs.Binding.Convert
import FlutterQuickjs.Binding.Frame
import FlutterQuickjs.Binding.Reading
import FlutterQuickjs.Conversion.Growth
import FlutterQuickjs.Framework.Preserve

namespace FlutterQuickjs.Conversion

open Engine Binding ValueConverter
open Effect

/-- Nothing that a conversion with the cache `c` relies on changes: its boxes and tables stay, its
cache stays as it is, and so do the Dart maps in it. -/
structure Calm (c : Nat) (w w' : World) : Prop where
  boxes : Keeps w.boxes w'.boxes
  tables : Keeps w.tables w'.tables
  cells : w.cells.length ≤ w'.cells.length
  cache : w'.caches.getD c .empty = w.caches.getD c .empty
  count : w.maps.length ≤ w'.maps.length
  maps : ∀ a m, cacheAt w c a = some (.map m) → w'.maps.getD m .empty = w.maps.getD m .empty

namespace Calm

variable {c : Nat} {w w' w'' : World}

theorem of_eq (boxes : w'.boxes = w.boxes) (tables : w'.tables = w.tables)
    (cells : w'.cells = w.cells) (caches : w'.caches = w.caches) (maps : w'.maps = w.maps) :
    Calm c w w' where
  boxes := boxes ▸ .refl _
  tables := tables ▸ .refl _
  cells := by rw [cells]
  cache := by rw [caches]
  count := by rw [maps]
  maps a m _ := by rw [maps]

theorem refl (w : World) : Calm c w w := .of_eq rfl rfl rfl rfl rfl

theorem trans (first : Calm c w w') (second : Calm c w' w'') : Calm c w w'' where
  boxes := first.boxes.trans second.boxes
  tables := first.tables.trans second.tables
  cells := first.cells.trans second.cells
  cache := second.cache.trans first.cache
  count := first.count.trans second.count
  maps a m found := by
    have still : cacheAt w' c a = some (.map m) := by rwa [cacheAt, first.cache]
    exact (second.maps a m still).trans (first.maps a m found)

theorem fetch (w : World) (v : JSValue) : Calm c w (w.fetch v) :=
  { refl w with boxes := .append _ _ }

theorem newMap (w : World) : Calm c w w.newMap :=
  { refl w with
    count := by simp [World.newMap]
    maps := fun a m _ => getD_append_singleton w.maps m .empty }

end Calm

theorem calm_of_frame {c : Nat} {op : Op} {w w' : World} (fills : ¬Fills op)
    (frame : Frame op w w') : Calm c w w' where
  boxes := frame.boxes
  tables := frame.tables
  cells := frame.cells
  cache := by
    rcases frame.caches fills with same | grown
    · rw [same]
    · rw [grown]
      exact getD_append_singleton w.caches c .empty
  count := by
    rcases frame.maps fills with same | grown
    · rw [same]
    · simp [grown]
  maps a m _ := by
    rcases frame.maps fills with same | grown
    · rw [same]
    · rw [grown]
      exact getD_append_singleton w.maps m .empty

/-- Every cached map is there. -/
def Private (c : Nat) (w : World) : Prop :=
  ∀ a m, cacheAt w c a = some (.map m) → m < w.maps.length

/-- What a conversion keeps for the one that called it: boxes and tables, and whatever the cache
`c` holds already, with the contents of the maps in it that it does not fill itself. -/
structure Stays (c : Nat) (fills : Nat → Prop) (w w' : World) : Prop where
  boxes : Keeps w.boxes w'.boxes
  tables : Keeps w.tables w'.tables
  cached : ∀ a d, cacheAt w c a = some d → cacheAt w' c a = some d
  count : w.maps.length ≤ w'.maps.length
  maps : ∀ a m, cacheAt w c a = some (.map m) → ¬fills m →
    w'.maps.getD m .empty = w.maps.getD m .empty

/-- Where the cached maps are there, they still are, and everything else stays too. -/
def Tends (c : Nat) (fills : Nat → Prop) (w w' : World) : Prop :=
  Private c w → Private c w' ∧ Stays c fills w w'

/-- Terms under which runs that end are looked at and foreign code is calm. -/
structure Lenient (S : Setting Op Reply World) (c : Nat) : Prop where
  free : ∀ op w, S.guard op w
  partially : ¬S.total
  calm : ∀ w w', S.rely w w' → Calm c w w'

section

variable {c : Nat} {fills : Nat → Prop} {w w' w'' : World} {S : Setting Op Reply World}

theorem Stays.follows : Follows (Stays c fills) where
  refl _ := ⟨.refl _, .refl _, fun _ _ => id, le_rfl, fun _ _ _ _ => rfl⟩
  trans first second := {
    boxes := first.boxes.trans second.boxes
    tables := first.tables.trans second.tables
    cached := fun a d found => second.cached a d (first.cached a d found)
    count := first.count.trans second.count
    maps := fun a m found other =>
      (second.maps a m (first.cached a _ found) other).trans (first.maps a m found other) }

theorem Stays.mono {fills' : Nat → Prop} (stays : Stays c fills w w')
    (more : ∀ m, fills m → fills' m) : Stays c fills' w w' :=
  { stays with maps := fun a m found other => stays.maps a m found fun filled => other (more m filled) }

theorem Tends.follows : Follows (Tends c fills) := Stays.follows.guarded

theorem Calm.follows : Follows (Calm c) := ⟨.refl, .trans⟩

theorem Calm.tends (calm : Calm c w w') : Tends c fills w w' := by
  have same : ∀ a, cacheAt w' c a = cacheAt w c a := fun a => by rw [cacheAt, calm.cache, cacheAt]
  intro inside
  refine ⟨fun a m found => ?_, ⟨calm.boxes, calm.tables, fun a d found => ?_, calm.count,
    fun a m found _ => calm.maps a m found⟩⟩
  · rw [same] at found
    exact (inside a m found).trans_le calm.count
  · rw [same]
    exact found

theorem Lenient.answered (lenient : Lenient S c) (op : Op)
    {Q : Except DartError (Reply op) → World → Prop} {r : Reply op}
    (known : answer op w = some (r,w')) (rest : Q (.ok r) w') : wp env S (perform op) Q w := by
  rw [wp_perform, known, continues_some]
  exact ⟨lenient.free op w, fun total => absurd total lenient.partially, fun _ => rest⟩

theorem Lenient.perform (lenient : Lenient S c) {op : Op} (fills : ¬Fills op) :
    Preserves env S (Calm c) (perform op) := by
  apply Preserves.call (lenient.free op) lenient.partially
  intro w r w' answered
  obtain ⟨-, ⟨-, own⟩ | ⟨-, w₁, between, returned⟩⟩ := answered
  · exact calm_of_frame fills (frame_direct own)
  · exact (lenient.calm w w₁ between).trans (calm_of_frame fills (frame_back returned))

theorem Lenient.kept (lenient : Lenient S c) : Kept S (Calm c) where
  follows := Calm.follows
  reads op reading := by
    apply lenient.perform
    cases op with
    | mapPut m k d => exact fun _ => reading
    | cachePut c o d => exact fun _ => reading
    | _ => exact id

end

namespace Lenient

variable {c : Nat} {S : Setting Op Reply World} {ctx : Ctx} {val : Ptr}

theorem jsFreeValue (lenient : Lenient S c) : Preserves env S (Calm c) (jsFreeValue val) :=
  .bind Calm.follows (lenient.perform id) fun _ =>
    .bind Calm.follows (lenient.perform id) fun _ => lenient.perform id

theorem freeUnlessFunction (lenient : Lenient S c) :
    Preserves env S (Calm c) (freeUnlessFunction val) :=
  .bind Calm.follows lenient.kept.jsIsFunction fun _ =>
    .ite (.pure Calm.follows _) lenient.jsFreeValue

variable [PackageFfi]

theorem toDartException (lenient : Lenient S c) :
    Preserves env S (Calm c) (toDartException ctx val) := by
  apply Preserves.bind Calm.follows lenient.kept.jsToCString
  intro bytes
  apply Preserves.bind Calm.follows (lenient.kept.dartString bytes)
  intro err
  apply Preserves.bind Calm.follows lenient.kept.jsValueGetTag
  intro tag
  apply Preserves.ite _ (.pure Calm.follows _)
  rw [jsGetPropertyStr_stack]
  apply Preserves.bind Calm.follows lenient.kept.jsGetProperty
  intro stack
  apply Preserves.bind Calm.follows lenient.kept.jsToBool
  intro truthy
  have rest : ∀ err : Units, Preserves env S (Calm c) (do
      Binding.jsFreeValue stack
      return err) := fun err =>
    .bind Calm.follows lenient.jsFreeValue fun _ => .pure Calm.follows err
  apply Preserves.ite
  · exact .bind Calm.follows lenient.kept.jsToCString fun bytes =>
      .bind Calm.follows (lenient.kept.dartString bytes) fun _ => .bind Calm.follows (.pure Calm.follows _) rest
  · exact .bind Calm.follows (.pure Calm.follows _) rest

end Lenient

end FlutterQuickjs.Conversion
