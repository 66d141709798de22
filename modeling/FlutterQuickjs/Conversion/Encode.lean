import FlutterQuickjs.Conversion.Encoded
import FlutterQuickjs.Conversion.Growth

namespace FlutterQuickjs.Conversion

open Engine Binding ValueConverter
open Effect

/-- Looking an atom up by name gives what `finds` says. -/
def Finds (finds : CString → PropKey → Prop) : (op : Op) → Reply op → Prop
  | .findAtom name, k => finds name k
  | _, _ => True

/-- The engine finds the 8-bit atoms `interned`, and only these. -/
def findsExactly (interned : CString → Bool) (name : CString) (k : PropKey) : Prop :=
  k = .string (atomName interned name)

/-- The terms for the encoder: a good value runs no foreign code and finds every answer;
for others foreign code may answer as it likes. -/
def building (finds : CString → PropKey → Prop) (rely : World → World → Prop) (good : Prop) :
    Setting Op Reply World :=
  ⟨rely, fun op w => good → ¬foreign op w, fun op _ r => Finds finds op r, good⟩

/-- What the lookup of a name gives is known. -/
def Known (finds : CString → PropKey → Prop) (interned : CString → Bool) (name : CString) : Prop :=
  literal name = true ∨ ∀ k, finds name k ↔ findsExactly interned name k

/-- So it is for every key of the value. -/
def Predictable (finds : CString → PropKey → Prop) (interned : CString → Bool) (w : World)
    (d : DartVal) : Prop :=
  ∀ path m, (dartGraph w).follow d path = some (.map m) → ∀ k ∈ (w.maps.getD m .empty).keys,
    Known finds interned (toUtf8 (sent k.toString))

theorem Predictable.child {finds : CString → PropKey → Prop} {interned : CString → Bool} {w : World}
    {d d' : DartVal} {s : Step MapKey} (predictable : Predictable finds interned w d)
    (child : (dartGraph w d).child s = some d') : Predictable finds interned w d' := by
  intro path m leads
  exact predictable (s :: path) m (ValueGraph.follow_cons_some.mpr ⟨d', child, leads⟩)

theorem predictable_exactly (interned : CString → Bool) (w : World) (d : DartVal) :
    Predictable (findsExactly interned) interned w d :=
  fun _ _ _ _ _ => .inr fun _ => Iff.rfl

/-- What the encoder leaves behind: the Dart containers and the objects there were. -/
structure Builds (w w' : World) : Prop where
  lists : w'.lists = w.lists
  maps : w'.maps = w.maps
  realm : w'.realm = w.realm
  arrays : w'.arrays = w.arrays
  boxes : Keeps w.boxes w'.boxes
  serial : w.serial ≤ w'.serial
  old : ∀ o : ObjRef, o.serial < w.serial → w'.heap.find o = w.heap.find o

/-- What `toQuickJSValue` does to `d` in `w`, where the conversion began in `w₀`. -/
def Encodes (interned : CString → Bool) (w₀ : World) (root : ObjRef) (good : Prop) (n : Nat) (w : World) (d : DartVal) :
    Except DartError Ptr → World → Prop
  | .ok p, w' => Builds w w' ∧ ∃ v, Holds w' p v ∧
      Encoded interned w₀ root w'.heap n d v w.serial w'.serial
  | .error _, _ => ¬good

/-- The value fits into the stack, and its keys do not run into inherited properties. -/
def Fits (interned : CString → Bool) (w : World) (chain : List (ObjRef × JSObj)) : Nat → DartVal → Prop
  | 0, _ => False
  | n + 1, d =>
    match d with
    | .list l => (w.lists.getD l []).length < n ∧
        ∀ d ∈ w.lists.getD l [], Fits interned w chain n d
    | .map m => ∀ e ∈ (w.maps.getD m .empty).entries,
        Heap.Inheritable (sentKey interned e.1) chain ∧ Fits interned w chain n e.2
    | _ => True

namespace Builds

variable {w w' w'' : World}

theorem refl (w : World) : Builds w w :=
  ⟨rfl, rfl, rfl, rfl, .refl _, le_rfl, fun _ _ => rfl⟩

theorem trans (first : Builds w w') (second : Builds w' w'') : Builds w w'' where
  lists := second.lists.trans first.lists
  maps := second.maps.trans first.maps
  realm := second.realm.trans first.realm
  arrays := second.arrays.trans first.arrays
  boxes := first.boxes.trans second.boxes
  serial := first.serial.trans second.serial
  old o before := (second.old o (before.trans_le first.serial)).trans (first.old o before)

theorem addBox (w : World) (v : JSValue) : Builds w (w.addBox v) :=
  { refl w with boxes := .append _ _ }

theorem holds {p : Ptr} {v : JSValue} (builds : Builds w w') (holds : Holds w p v) :
    Holds w' p v := by
  cases p with
  | box n => exact builds.boxes.getElem? holds
  | slot a i =>
    have same : w'.value (.slot a i) = w.value (.slot a i) := by
      simp only [World.value, builds.arrays]
    exact same.trans holds

theorem prototypes {root : ObjRef} {chain : List (ObjRef × JSObj)} (builds : Builds w w')
    (prototypes : Prototypes w root chain) : Prototypes w' root chain := by
  obtain ⟨chained, older⟩ := prototypes
  refine ⟨?_, fun e member => (older e member).trans_le builds.serial⟩
  induction chain generalizing root with
  | nil => exact chained
  | cons e rest ih =>
    obtain ⟨o, obj⟩ := e
    obtain ⟨same, found, above⟩ := chained
    refine ⟨same, (builds.old o (older _ (List.mem_cons_self ..))).trans found, ?_⟩
    cases proto : obj.proto with
    | none =>
      rw [proto] at above
      exact above
    | some p =>
      rw [proto] at above
      exact ih above fun e later => older e (List.mem_cons_of_mem _ later)

end Builds

section

variable {finds : CString → PropKey → Prop} {interned : CString → Bool}
  {rely : World → World → Prop} {good : Prop} {w : World} {ctx : Ctx} {p : Ptr}

theorem finds_of_answer {op : Op} {r : Reply op} {w' : World} (known : answer op w = some (r,w')) :
    Finds finds op r := by
  cases op with
  | findAtom name => cases known
  | _ => trivial

theorem building_answer (op : Op) {Q : Except DartError (Reply op) → World → Prop} {r : Reply op}
    {w' : World} (known : answer op w = some (r,w')) :
    wp env (building finds rely good) (perform op) Q w ↔ Q (.ok r) w' := by
  rw [wp_perform, known, continues_some]
  simp [building, own_of_answer known, finds_of_answer known]

@[simp] theorem building_load {Q : Except DartError JSValue → World → Prop} :
    wp (α := JSValue) env (building finds rely good) (perform (.load p)) Q w ↔ Q (.ok (w.value p)) w :=
  building_answer _ rfl

@[simp] theorem building_new {v : JSValue} {Q : Except DartError Ptr → World → Prop} :
    wp (α := Ptr) env (building finds rely good) (perform (.new v)) Q w ↔
      Q (.ok w.lastBox) (w.addBox v) :=
  building_answer _ rfl

@[simp] theorem building_mapEntries {m : Nat}
    {Q : Except DartError (List (MapKey × DartVal)) → World → Prop} :
    wp (α := List (MapKey × DartVal)) env (building finds rely good) (perform (.mapEntries m)) Q w ↔
      Q (.ok (w.maps.getD m .empty).entries) w :=
  building_answer _ rfl

@[simp] theorem building_listLength {l : Nat} {Q : Except DartError Nat → World → Prop} :
    wp (α := Nat) env (building finds rely good) (perform (.listLength l)) Q w ↔
      Q (.ok (w.lists.getD l []).length) w :=
  building_answer _ rfl

@[simp] theorem building_listGet {l i : Nat} {Q : Except DartError (Option DartVal) → World → Prop} :
    wp (α := Option DartVal) env (building finds rely good) (perform (.listGet l i)) Q w ↔
      Q (.ok (w.lists.getD l [])[i]?) w :=
  building_answer _ rfl

theorem building_newAtom {name : CString} {Q : Except DartError PropKey → World → Prop}
    (known : Known finds interned name) (next : Q (.ok (.string (atomName interned name))) w) :
    wp env (building finds rely good) (newAtom name) Q w := by
  by_cases isLiteral : literal name = true
  · rw [newAtom_of_literal isLiteral, wp_pure, ← atomName_of_literal isLiteral interned]
    exact next
  · have exactly := known.resolve_left isLiteral
    rw [newAtom, if_neg isLiteral, wp_choice (by exact id) rfl]
    refine ⟨fun _ => id, fun _ => ⟨_, w, (exactly _).mpr rfl, ?_, rfl⟩, ?_⟩
    · unfold atomName
      split
      · exact .inr rfl
      · exact .inl rfl
    · rintro k w' isFound ⟨-, rfl⟩
      rw [(exactly k).mp isFound]
      exact next

/-- A world with a new object at `address`. -/
theorem Builds.allocate {address : Nat} {kind : ObjKind} {proto : ObjRef}
    (free : ¬w.heap.Taken address) : Builds w (w.allocate address kind proto) := by
  refine ⟨rfl, rfl, rfl, rfl, .refl _, Nat.le_succ _, fun o before => ?_⟩
  change (w.heap.put _ _).find o = _
  rw [Heap.find_put (.inr free), if_neg]
  rintro rfl
  exact Nat.lt_irrefl _ before

theorem find_allocate {address : Nat} {kind : ObjKind} {proto : ObjRef}
    (free : ¬w.heap.Taken address) :
    (w.allocate address kind proto).heap.find ⟨address,w.serial,kind⟩ =
      some (.bare (some proto)) := by
  change (w.heap.put _ _).find _ = _
  rw [Heap.find_put (.inr free), if_pos rfl]

theorem building_jsNewObject {Q : Except DartError Ptr → World → Prop}
    (every : ∀ address, ¬w.heap.Taken address →
      Q (.ok w.lastBox) ((w.allocate address .ordinary (w.realm ctx).objectProto).fetch
        (.object ⟨address,w.serial,.ordinary⟩))) :
    wp env (building finds rely good) (jsNewObject ctx) Q w := by
  rw [jsNewObject, wp_bind, wp_choice (by exact id) rfl]
  obtain ⟨address, free⟩ := w.heap.exists_free
  refine ⟨fun _ => id, fun _ => ⟨_, _, trivial, address, free, rfl, rfl⟩, ?_⟩
  rintro r w' - ⟨address, free, rfl, rfl⟩
  rw [andThen_ok, building_new]
  exact every address free

theorem building_jsNewArray {Q : Except DartError Ptr → World → Prop}
    (every : ∀ address, ¬w.heap.Taken address →
      Q (.ok w.lastBox) ((w.allocate address .array (w.realm ctx).arrayProto).fetch
        (.object ⟨address,w.serial,.array⟩))) :
    wp env (building finds rely good) (jsNewArray ctx) Q w := by
  rw [jsNewArray, wp_bind, wp_choice (by exact id) rfl]
  obtain ⟨address, free⟩ := w.heap.exists_free
  refine ⟨fun _ => id, fun _ => ⟨_, _, trivial, address, free, rfl, rfl⟩, ?_⟩
  rintro r w' - ⟨address, free, rfl, rfl⟩
  rw [andThen_ok, building_new]
  exact every address free

/-- The heap changed, a reference given away, perhaps an exception thrown. -/
structure Stores (w w' : World) (h : Heap) : Prop where
  heap : w'.heap = h
  lists : w'.lists = w.lists
  maps : w'.maps = w.maps
  realm : w'.realm = w.realm
  arrays : w'.arrays = w.arrays
  boxes : w'.boxes = w.boxes
  serial : w'.serial = w.serial

/-- The heap after an assignment, which may not have happened. -/
def AfterSet (w : World) (r : ObjRef) (k : PropKey) (x : JSValue) (h : Heap) : Prop :=
  w.heap.set r k x = .stored h ∨ h = w.heap ∧ ∀ h', w.heap.set r k x ≠ .stored h'

/-- Assigning to an object under construction. -/
theorem building_setProperty {r : ObjRef} {obj : JSObj} {k : PropKey} {x : JSValue}
    {Q : Except DartError Int32 → World → Prop} (calm : good ∨ ∀ w w', rely w w' → w' = w)
    (plain : good → w.heap.set r k x = .stored (w.heap.put r (obj.assign k x)))
    (every : ∀ i w' h, Stores w w' h → AfterSet w r k x h → Q (.ok i) w') :
    wp (α := Int32) env (building finds rely good) (perform (.setProperty ctx (.object r) k x)) Q w := by
  cases written : w.heap.set r k x with
  | stored h =>
    have known : answer (.setProperty ctx (.object r) k x) w =
        some ((1 : Int32), { w.debit x with heap := h }) := by
      simp only [answer, World.writes, written]
    rw [building_answer _ known]
    exact every 1 _ h ⟨rfl, rfl, rfl, rfl, rfl, rfl, rfl⟩ (.inl written)
  | refused =>
    have bad : ¬good := fun isGood => by
      rw [plain isGood] at written
      cases written
    have untouched : AfterSet w r k x w.heap :=
      .inr ⟨rfl, fun h' stored => by rw [written] at stored; cases stored⟩
    have own : ¬foreign (.setProperty ctx (.object r) k x) w := by
      simp [foreign, World.writes, written]
    have unknown : answer (.setProperty ctx (.object r) k x) w = none := by
      simp only [answer, World.writes, written]
    rw [wp_choice own unknown]
    refine ⟨fun isGood => absurd isGood bad, fun isGood => absurd isGood bad, ?_⟩
    rintro i w' - ⟨-, e, rfl⟩
    exact every i _ w.heap ⟨rfl, rfl, rfl, rfl, rfl, rfl, rfl⟩ untouched
  | code =>
    have bad : ¬good := fun isGood => by
      rw [plain isGood] at written
      cases written
    have untouched : AfterSet w r k x w.heap :=
      .inr ⟨rfl, fun h' stored => by rw [written] at stored; cases stored⟩
    have runs : foreign (.setProperty ctx (.object r) k x) w := by
      simp [foreign, World.writes, written]
    rw [wp_outside runs]
    refine ⟨fun isGood => absurd isGood bad, fun isGood => absurd isGood bad, ?_⟩
    intro i w₁ w' _ between back
    obtain rfl := calm.resolve_left bad _ _ between
    rcases back with ⟨-, rfl⟩ | ⟨-, e, rfl⟩
    · exact every i _ _ ⟨rfl, rfl, rfl, rfl, rfl, rfl, rfl⟩ untouched
    · exact every i _ _ ⟨rfl, rfl, rfl, rfl, rfl, rfl, rfl⟩ untouched

/-- Defining an element of an array under construction. -/
theorem building_defineIndex {o : ObjRef} {obj : JSObj} {i : UInt32} {x : JSValue}
    {Q : Except DartError Int32 → World → Prop} (array : o.kind = .array)
    (found : w.heap.find o = some obj) (data : obj.AllData) (extensible : obj.extensible = true)
    (writable : obj.lengthWritable = true) :
    wp (α := Int32) env (building finds rely good)
      (perform (.defineIndex ctx (.object o) i x JSProp.C_W_E)) Q w ↔
      Q (.ok 1) { w.debit x with heap := w.heap.put o (obj.assignIndex i x) } := by
  refine building_answer (.defineIndex ctx (.object o) i x JSProp.C_W_E) ?_
  simp only [answer, array, if_true, and_self, Heap.defineIndex_eq found data extensible writable]

end

end FlutterQuickjs.Conversion
