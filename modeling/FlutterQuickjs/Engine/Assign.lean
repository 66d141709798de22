import FlutterQuickjs.Engine.Heap

namespace FlutterQuickjs.Engine

open Effect (OrderedMap)

namespace JSObj

/-- The array with one more plain element. -/
def assignIndex (obj : JSObj) (i : UInt32) (v : JSValue) : JSObj :=
  if (obj.properties.find (.index i.toNat)).isSome ∨ i.toNat = 2^32 - 1 then
    obj.assign (.index i.toNat) v
  else { obj.assign (.index i.toNat) v with
    length := if obj.length ≤ i then i + 1 else obj.length
    fast := if obj.fast = some i.toNat ∧ i.toNat < 2^31 then some (i.toNat + 1) else none }

@[simp] theorem assignIndex_properties (obj : JSObj) (i : UInt32) (v : JSValue) :
    (obj.assignIndex i v).properties = (obj.assign (.index i.toNat) v).properties := by
  unfold assignIndex
  split <;> rfl

@[simp] theorem assignIndex_extensible (obj : JSObj) (i : UInt32) (v : JSValue) :
    (obj.assignIndex i v).extensible = obj.extensible := by
  unfold assignIndex
  split <;> rfl

@[simp] theorem assignIndex_lengthWritable (obj : JSObj) (i : UInt32) (v : JSValue) :
    (obj.assignIndex i v).lengthWritable = obj.lengthWritable := by
  unfold assignIndex
  split <;> rfl

/-- Every own property is writable, enumerable and configurable data. -/
def AllData (obj : JSObj) : Prop :=
  ∀ k p, obj.properties.find k = some p → ∃ v, p = .data v true true true

theorem own_ordinary {obj : JSObj} {o : ObjRef} (ordinary : o.kind = .ordinary) (k : PropKey) :
    obj.own o k = obj.properties.find k := by
  simp [own, ordinary]

theorem index_ne_length (n : Nat) : PropKey.index n ≠ .string lengthName := by
  intro same
  have value := PropKey.digitsValue_of_index same
  subst value
  revert same
  decide

theorem own_index {obj : JSObj} (o : ObjRef) (n : Nat) :
    obj.own o (.index n) = obj.properties.find (.index n) := by
  rw [own, if_neg fun array => index_ne_length n array.2]

end JSObj

namespace Heap

variable {h h' : Heap} {r o : ObjRef} {obj : JSObj} {k : PropKey} {v : JSValue} {n : Nat}

/-- What an assignment to `k` leaves of an object made of plain data. -/
inductive Assigned (h : Heap) (r : ObjRef) (obj : JSObj) (k : PropKey) (v : JSValue) :
    Heap → Prop
  | same : Assigned h r obj k v h
  | property : Assigned h r obj k v (h.put r (obj.assign k v))
  | proto (p : Option ObjRef) : Assigned h r obj k v (h.put r { obj with proto := p })

theorem addOwn_eq (ordinary : r.kind = .ordinary) (found : h.find r = some obj)
    (extensible : obj.extensible = true) (k : PropKey) (v : JSValue) :
    h.addOwn r k v = .stored (h.put r (obj.assign k v)) := by
  simp [addOwn, found, ordinary, extensible, JSObj.assign]

theorem setProto_assigned (found : h.find r = some obj) (stored : h.setProto r v = .stored h') :
    h' = h ∨ ∃ p, h' = h.put r { obj with proto := p } := by
  unfold setProto at stored
  rw [found] at stored
  cases v with
  | object p =>
    simp only at stored
    split at stored
    · cases stored
      exact .inl rfl
    · split at stored
      · cases stored
      · cases stored
        exact .inr ⟨_, rfl⟩
  | null =>
    simp only at stored
    split at stored
    · cases stored
      exact .inl rfl
    · split at stored
      · cases stored
      · cases stored
        exact .inr ⟨_, rfl⟩
  | _ =>
    cases stored
    exact .inl rfl

theorem write_assigned (ordinary : r.kind = .ordinary) (found : h.find r = some obj)
    (data : obj.AllData) (extensible : obj.extensible = true)
    (stored : h.write r k v n o = .stored h') : Assigned h r obj k v h' := by
  have added : ∀ h', h.addOwn r k v = .stored h' → Assigned h r obj k v h' := by
    intro h' stored
    rw [addOwn_eq ordinary found extensible] at stored
    cases stored
    exact .property
  induction n generalizing o with
  | zero => exact added h' stored
  | succ n ih =>
    simp only [write] at stored
    split at stored
    · cases stored
    · exact added h' stored
    · rename_i obj' foundO _
      split at stored
      · rename_i x writable enumerable configurable _ own
        split at stored
        · cases stored
        · split at stored
          · rename_i same
            subst same
            obtain rfl : obj = obj' := Option.some.inj (found.symm.trans foundO)
            rw [if_neg (by simp [ordinary])] at stored
            rw [JSObj.own_ordinary ordinary] at own
            obtain ⟨y, flags⟩ := data k _ own
            cases flags
            cases stored
            exact .property
          · split at stored
            · exact added h' stored
            · split at stored
              · exact added h' stored
              · exact ih stored
      · cases stored
      · cases stored
      · rcases setProto_assigned found stored with rfl | ⟨p, rfl⟩
        · exact .same
        · exact .proto p
      · exact added h' stored
      · exact ih stored

theorem set_assigned (ordinary : r.kind = .ordinary) (found : h.find r = some obj)
    (data : obj.AllData) (extensible : obj.extensible = true)
    (stored : h.set r k v = .stored h') : Assigned h r obj k v h' :=
  write_assigned ordinary found data extensible stored

theorem defineIndex_eq {i : UInt32} (found : h.find o = some obj) (data : obj.AllData)
    (extensible : obj.extensible = true) (writable : obj.lengthWritable = true) :
    h.defineIndex o i v = (true, h.put o (obj.assignIndex i v)) := by
  unfold defineIndex JSObj.assignIndex
  rw [found]
  dsimp only
  cases own : obj.properties.find (.index i.toNat) with
  | some p =>
    obtain ⟨x, rfl⟩ := data _ _ own
    simp [Property.configurable]
  | none =>
    by_cases last : i.toNat = 2^32 - 1
    · simp [last, extensible]
    · simp only [last, Option.isSome_none, Bool.false_eq_true, or_self, if_false, extensible,
        writable, Bool.not_true, Bool.false_or, Bool.and_false, if_true]
      split <;> rfl

/-- An own property is assigned where it is. -/
theorem set_own (ordinary : r.kind = .ordinary) (found : h.find r = some obj)
    (data : obj.AllData) {p : Property} (own : obj.properties.find k = some p) :
    h.set r k v = .stored (h.put r (obj.assign k v)) := by
  obtain ⟨x, rfl⟩ := data k p own
  rw [← JSObj.own_ordinary ordinary] at own
  simp [set, write, ordinary, found, own, JSObj.assign]

/-- The objects from `p` up its prototype chain, which ends. -/
def Chain (h : Heap) : ObjRef → List (ObjRef × JSObj) → Prop
  | _, [] => False
  | p, (o,obj) :: rest => p = o ∧ h.find o = some obj ∧ match obj.proto with
    | none => rest = []
    | some p' => Chain h p' rest

/-- Inheriting from these objects does not keep an object from getting its own `k`. -/
def Inheritable (k : PropKey) : List (ObjRef × JSObj) → Prop
  | [] => True
  | (o,obj) :: rest => (∀ callable, o.kind ≠ .exotic callable) ∧ match obj.own o k with
    | none => Inheritable k rest
    | some (.data _ writable _ _) =>
      writable = true ∧ (obj.fastElement o k = true ∨ Inheritable k rest)
    | some _ => False

section

variable {root p q : ObjRef} {chain chain' : List (ObjRef × JSObj)}

theorem Chain.unique (chained : h.Chain p chain) (chained' : h.Chain p chain') :
    chain = chain' := by
  induction chain generalizing p chain' with
  | nil => exact chained.elim
  | cons e rest ih =>
    obtain ⟨o, obj⟩ := e
    cases chain' with
    | nil => exact chained'.elim
    | cons e' rest' =>
      obtain ⟨o', obj'⟩ := e'
      obtain ⟨rfl, found, above⟩ := chained
      obtain ⟨rfl, found', above'⟩ := chained'
      obtain rfl : obj = obj' := Option.some.inj (found.symm.trans found')
      congr 1
      cases proto : obj.proto with
      | none =>
        rw [proto] at above above'
        exact above.trans above'.symm
      | some p =>
        rw [proto] at above above'
        exact ih above above'

theorem Chain.from (chained : h.Chain p chain) (member : q ∈ chain.map Prod.fst) :
    ∃ chain', h.Chain q chain' ∧ chain'.length ≤ chain.length := by
  induction chain generalizing p with
  | nil => exact chained.elim
  | cons e rest ih =>
    obtain ⟨o, obj⟩ := e
    rcases List.mem_cons.mp member with rfl | later
    · exact ⟨_, chained.1 ▸ chained, le_rfl⟩
    · obtain ⟨-, -, above⟩ := chained
      cases proto : obj.proto with
      | none =>
        rw [proto] at above
        subst above
        cases later
      | some p =>
        rw [proto] at above
        obtain ⟨chain', chained', shorter⟩ := ih above later
        exact ⟨chain', chained', shorter.trans (Nat.le_succ _)⟩

/-- No object inherits from itself. -/
theorem Chain.notMem (chained : h.Chain p chain) (found : h.find r = some obj)
    (proto : obj.proto = some p) : r ∉ chain.map Prod.fst := by
  intro member
  obtain ⟨chain', chained', shorter⟩ := chained.from member
  have longer : h.Chain r ((r,obj) :: chain) := by
    refine ⟨rfl, found, ?_⟩
    rw [proto]
    exact chained
  rw [chained'.unique longer] at shorter
  exact Nat.lt_irrefl _ shorter

theorem Chain.nodup (chained : h.Chain p chain) : (chain.map Prod.fst).Nodup := by
  induction chain generalizing p with
  | nil => exact List.nodup_nil
  | cons e rest ih =>
    obtain ⟨o, obj⟩ := e
    obtain ⟨-, found, above⟩ := chained
    cases proto : obj.proto with
    | none =>
      rw [proto] at above
      subst above
      exact List.nodup_singleton _
    | some p =>
      rw [proto] at above
      exact List.nodup_cons.mpr ⟨Chain.notMem above found proto, ih above⟩

theorem Chain.live (chained : h.Chain p chain) (member : q ∈ chain.map Prod.fst) : h.Live q := by
  obtain ⟨chain', chained', -⟩ := chained.from member
  cases chain' with
  | nil => exact chained'.elim
  | cons e rest =>
    obtain ⟨o, obj⟩ := e
    obtain ⟨rfl, found, -⟩ := chained'
    exact live_of_find found

theorem Chain.length_le (chained : h.Chain p chain) : chain.length ≤ h.size := by
  have inside : chain.map Prod.fst ⊆ h.objects.keys := fun q member => chained.live member
  have shorter := (List.subperm_of_subset chained.nodup inside).length_le
  rwa [List.length_map] at shorter

/-- One step up the chain, past another object than the receiver. -/
private theorem write_other (plain : ∀ callable, p.kind ≠ .exotic callable)
    (found : h.find p = some obj) (other : r ≠ p) :
    h.write r k v (n+1) p = match obj.own p k, obj.proto with
      | some (.data _ writable _ _), proto =>
        if !writable then .refused
        else if obj.fastElement p k then h.addOwn r k v
        else match proto with
          | none => h.addOwn r k v
          | some q => h.write r k v n q
      | some (.accessor _ (some _) _ _), _ => .code
      | some (.accessor _ none _ _), _ => .refused
      | some .protoAccessor, _ => h.setProto r v
      | none, none => h.addOwn r k v
      | none, some q => h.write r k v n q := by
  rw [write]
  cases kind : p.kind with
  | exotic callable => exact absurd kind (plain callable)
  | _ =>
    simp only [found]
    cases obj.own p k with
    | none => cases obj.proto <;> rfl
    | some property =>
      cases property with
      | data x writable enumerable configurable =>
        cases obj.proto <;> simp [Ne.symm other]
      | accessor getter setter enumerable configurable => cases setter <;> rfl
      | protoAccessor => rfl

theorem write_inheritable (chained : h.Chain p chain) (enough : chain.length ≤ n)
    (other : r ∉ chain.map Prod.fst) (inheritable : Inheritable k chain) :
    h.write r k v n p = h.addOwn r k v := by
  induction chain generalizing p n with
  | nil => exact chained.elim
  | cons e rest ih =>
    obtain ⟨o, obj⟩ := e
    obtain ⟨rfl, found, above⟩ := chained
    obtain ⟨plain, own⟩ := inheritable
    rw [List.length_cons] at enough
    obtain ⟨m, rfl⟩ : ∃ m, n = m + 1 := ⟨n - 1, by omega⟩
    rw [List.map_cons, List.mem_cons, not_or] at other
    rw [write_other plain found other.1]
    cases isOwn : obj.own p k with
    | none =>
      rw [isOwn] at own
      cases proto : obj.proto with
      | none => rfl
      | some q =>
        rw [proto] at above
        exact ih above (by omega) other.2 own
    | some property =>
      rw [isOwn] at own
      cases property with
      | data x writable enumerable configurable =>
        obtain ⟨isWritable, ends | goesOn⟩ := own
        · simp [isWritable, ends]
        · simp only [isWritable, Bool.not_true, Bool.false_eq_true, if_false]
          split
          · rfl
          · cases proto : obj.proto with
            | none => rfl
            | some q =>
              rw [proto] at above
              exact ih above (by omega) other.2 goesOn
      | _ => exact own.elim

theorem write_not_inheritable {obj : JSObj} (chained : h.Chain p chain) (enough : chain.length ≤ n)
    (other : r ∉ chain.map Prod.fst) (found : h.find r = some obj)
    (blocked : ¬Inheritable k chain) (stored : h.write r k v n p = .stored h') :
    h' = h ∨ ∃ q, h' = h.put r { obj with proto := q } := by
  induction chain generalizing p n with
  | nil => exact chained.elim
  | cons e rest ih =>
    obtain ⟨o, obj'⟩ := e
    obtain ⟨rfl, found', above⟩ := chained
    rw [List.length_cons] at enough
    obtain ⟨m, rfl⟩ : ∃ m, n = m + 1 := ⟨n - 1, by omega⟩
    rw [List.map_cons, List.mem_cons, not_or] at other
    by_cases plain : ∀ callable, p.kind ≠ .exotic callable
    · have inner : ¬match obj'.own p k with
          | none => Inheritable k rest
          | some (.data _ writable _ _) =>
            writable = true ∧ (obj'.fastElement p k = true ∨ Inheritable k rest)
          | some _ => False := fun own => blocked ⟨plain, own⟩
      rw [write_other plain found' other.1] at stored
      cases isOwn : obj'.own p k with
      | none =>
        rw [isOwn] at inner stored
        cases proto : obj'.proto with
        | none =>
          rw [proto] at above
          subst above
          exact absurd trivial inner
        | some q =>
          rw [proto] at above stored
          exact ih above (by omega) other.2 inner stored
      | some property =>
        rw [isOwn] at inner stored
        cases property with
        | data x writable enumerable configurable =>
          simp only at inner stored
          split at stored
          · cases stored
          · rename_i isWritable
            split at stored
            · rename_i ends
              exact absurd ⟨by simpa using isWritable, .inl ends⟩ inner
            · cases proto : obj'.proto with
              | none =>
                rw [proto] at above
                subst above
                exact absurd ⟨by simpa using isWritable, .inr trivial⟩ inner
              | some q =>
                rw [proto] at above stored
                exact ih above (by omega) other.2
                  (fun goesOn => inner ⟨by simpa using isWritable, .inr goesOn⟩) stored
        | accessor getter setter enumerable configurable => cases setter <;> cases stored
        | protoAccessor => exact setProto_assigned found stored
    · obtain ⟨callable, exotic⟩ := not_forall_not.mp plain
      rw [write, exotic] at stored
      cases stored

/-- An assignment of a new property goes on to the prototypes. -/
private theorem set_new (ordinary : r.kind = .ordinary) (found : h.find r = some obj)
    (new : obj.properties.find k = none) (proto : obj.proto = some root) :
    h.set r k v = h.write r k v h.size root := by
  have own : obj.own r k = none := by rw [JSObj.own_ordinary ordinary, new]
  rw [set, write]
  simp [ordinary, found, own, proto]

theorem set_inheritable (ordinary : r.kind = .ordinary) (found : h.find r = some obj)
    (extensible : obj.extensible = true) (new : obj.properties.find k = none)
    (chained : h.Chain root chain) (proto : obj.proto = some root)
    (inheritable : Inheritable k chain) : h.set r k v = .stored (h.put r (obj.assign k v)) := by
  rw [set_new ordinary found new proto, ← addOwn_eq ordinary found extensible]
  exact write_inheritable chained chained.length_le (chained.notMem found proto) inheritable

/-- Otherwise the object does not get the property. -/
theorem set_not_inheritable (ordinary : r.kind = .ordinary) (found : h.find r = some obj)
    (new : obj.properties.find k = none) (chained : h.Chain root chain)
    (proto : obj.proto = some root) (blocked : ¬Inheritable k chain)
    (stored : h.set r k v = .stored h') : h' = h ∨ ∃ p, h' = h.put r { obj with proto := p } := by
  rw [set_new ordinary found new proto] at stored
  exact write_not_inheritable chained chained.length_le (chained.notMem found proto) found blocked
    stored

end

end Heap

end FlutterQuickjs.Engine
