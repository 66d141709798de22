import FlutterQuickjs.Framework.OrderedMap

namespace Effect

/-- What a node of a value graph shows: a leaf, or a container with its identity. -/
inductive View (ι κ ℓ ν : Type)
  | leaf (l : ℓ)
  | list (id : ι) (elements : List ν)
  | record (id : ι) (entries : OrderedMap κ ν)

abbrev ValueGraph (ι κ ℓ ν : Type) := ν → View ι κ ℓ ν

inductive Step (κ : Type)
  | index (i : Nat)
  | key (k : κ)
deriving DecidableEq

def Step.map {κ κ' : Type} (f : κ → κ') : Step κ → Step κ'
  | index i => index i
  | key k => key (f k)

variable {ι κ ℓ ν ι' κ' ℓ' ν' ι'' κ'' ℓ'' ν'' : Type}

theorem Step.map_map (f : κ → κ') (g : κ' → κ'') (s : Step κ) :
    (s.map f).map g = s.map (g ∘ f) := by
  cases s <;> rfl

@[simp] theorem Step.map_id : (Step.map id : Step κ → Step κ) = id := by
  funext s
  cases s <;> rfl

namespace View

def id? : View ι κ ℓ ν → Option ι
  | leaf _ => none
  | list id _ => some id
  | record id _ => some id

@[simp] theorem id?_leaf (l : ℓ) : (leaf l : View ι κ ℓ ν).id? = none := rfl

def child [DecidableEq κ] : View ι κ ℓ ν → Step κ → Option ν
  | list _ elements, .index i => elements[i]?
  | record _ entries, .key k => entries.find k
  | _, _ => none

end View

/-- Two views show the same: related leaves, lists of one length, records with corresponding
keys. -/
def Matches (R : ℓ → ℓ' → Prop) (key : κ → κ') : View ι κ ℓ ν → View ι' κ' ℓ' ν' → Prop
  | .leaf l, .leaf l' => R l l'
  | .list _ elements, .list _ elements' => elements.length = elements'.length
  | .record _ entries, .record _ entries' => entries'.keys.Perm (entries.keys.map key)
  | _, _ => False

section

variable {R : ℓ → ℓ' → Prop} {key : κ → κ'} {v : View ι κ ℓ ν} {v' : View ι' κ' ℓ' ν'}

theorem Matches.id?_isSome (same : Matches R key v v') : v.id?.isSome = v'.id?.isSome := by
  cases v <;> cases v' <;> first | rfl | exact same.elim

theorem Matches.id?_eq_none (same : Matches R key v v') : v.id? = none ↔ v'.id? = none := by
  rw [← Option.not_isSome_iff_eq_none, ← Option.not_isSome_iff_eq_none, same.id?_isSome]

variable [DecidableEq κ] [DecidableEq κ']

theorem Matches.child_forth (same : Matches R key v v') {s : Step κ} {m : ν}
    (child : v.child s = some m) : ∃ m', v'.child (s.map key) = some m' := by
  cases v with
  | leaf l => cases child
  | list id elements =>
    cases s with
    | key k => cases child
    | index i =>
      cases v' with
      | list id' elements' =>
        have inside : i < elements.length := (List.getElem?_eq_some_iff.mp child).1
        have inside' : i < elements'.length := by rw [← show elements.length = _ from same]; exact inside
        exact ⟨elements'[i], List.getElem?_eq_getElem inside'⟩
      | leaf l => exact same.elim
      | record id' entries => exact same.elim
  | record id entries =>
    cases s with
    | index i => cases child
    | key k =>
      cases v' with
      | record id' entries' =>
        have perm : entries'.keys.Perm (entries.keys.map key) := same
        have inside : k ∈ entries.keys := by
          rw [← OrderedMap.find_isSome, show entries.find k = some m from child]
          rfl
        have inside' : key k ∈ entries'.keys := perm.mem_iff.mpr (List.mem_map_of_mem inside)
        exact Option.isSome_iff_exists.mp (OrderedMap.find_isSome.mpr inside')
      | leaf l => exact same.elim
      | list id' elements => exact same.elim

theorem Matches.child_back (same : Matches R key v v') {s' : Step κ'} {m' : ν'}
    (child : v'.child s' = some m') : ∃ s m, s' = s.map key ∧ v.child s = some m := by
  cases v' with
  | leaf l => cases child
  | list id' elements' =>
    cases s' with
    | key k => cases child
    | index i =>
      cases v with
      | list id elements =>
        have inside' : i < elements'.length := (List.getElem?_eq_some_iff.mp child).1
        have inside : i < elements.length := by rw [show elements.length = _ from same]; exact inside'
        exact ⟨.index i, elements[i], rfl, List.getElem?_eq_getElem inside⟩
      | leaf l => exact same.elim
      | record id entries => exact same.elim
  | record id' entries' =>
    cases s' with
    | index i => cases child
    | key k' =>
      cases v with
      | record id entries =>
        have perm : entries'.keys.Perm (entries.keys.map key) := same
        have inside' : k' ∈ entries'.keys := by
          rw [← OrderedMap.find_isSome, show entries'.find k' = some m' from child]
          rfl
        obtain ⟨k, inside, rfl⟩ := List.mem_map.mp (perm.mem_iff.mp inside')
        obtain ⟨m, found⟩ := Option.isSome_iff_exists.mp (OrderedMap.find_isSome.mpr inside)
        exact ⟨.key k, m, rfl, found⟩
      | leaf l => exact same.elim
      | list id elements => exact same.elim

omit [DecidableEq κ'] in
/-- Different steps of the first view correspond to different steps of the second. -/
theorem Matches.step_inj (same : Matches R key v v') {s t : Step κ} {m n : ν}
    (child : v.child s = some m) (child' : v.child t = some n) (images : s.map key = t.map key) :
    s = t := by
  cases v with
  | leaf l => cases child
  | list id elements =>
    cases s with
    | key k => cases child
    | index i =>
      cases t with
      | key k => cases child'
      | index j =>
        cases (show (Step.index i : Step κ') = .index j from images)
        rfl
  | record id entries =>
    cases s with
    | index i => cases child
    | key k =>
      cases t with
      | index i => cases child'
      | key l =>
        cases v' with
        | record id' entries' =>
          have perm : entries'.keys.Perm (entries.keys.map key) := same
          have nodup : (entries.keys.map key).Nodup := perm.nodup_iff.mp entries'.nodup
          have inside : k ∈ entries.keys := by
            rw [← OrderedMap.find_isSome, show entries.find k = some m from child]
            rfl
          have inside' : l ∈ entries.keys := by
            rw [← OrderedMap.find_isSome, show entries.find l = some n from child']
            rfl
          rw [List.inj_on_of_nodup_map nodup inside inside' (Step.key.inj images)]
        | leaf l => exact same.elim
        | list id' elements => exact same.elim

end

theorem Matches.mono {R R' : ℓ → ℓ' → Prop} {key : κ → κ'} {v : View ι κ ℓ ν}
    {v' : View ι' κ' ℓ' ν'} (same : Matches R key v v') (weaker : ∀ l l', R l l' → R' l l') :
    Matches R' key v v' := by
  cases v <;> cases v' <;> first | exact weaker _ _ same | exact same

theorem Matches.trans {R : ℓ → ℓ' → Prop} {R' : ℓ' → ℓ'' → Prop} {key : κ → κ'} {key' : κ' → κ''}
    {v : View ι κ ℓ ν} {v' : View ι' κ' ℓ' ν'} {v'' : View ι'' κ'' ℓ'' ν''}
    (first : Matches R key v v') (second : Matches R' key' v' v'') :
    Matches (fun l l'' => ∃ l', R l l' ∧ R' l' l'') (key' ∘ key) v v'' := by
  cases v <;> cases v' <;> cases v'' <;>
    first | exact first.elim | exact second.elim | skip
  · exact ⟨_, first, second⟩
  · exact Eq.trans (b := _) first second
  · rename_i entries _ entries' _ entries''
    have perm : entries'.keys.Perm (entries.keys.map key) := first
    have perm' : entries''.keys.Perm (entries'.keys.map key') := second
    have both := perm'.trans (perm.map key')
    rwa [List.map_map] at both

namespace ValueGraph

section

variable [DecidableEq κ]

/-- The node that a path leads to. -/
def follow (G : ValueGraph ι κ ℓ ν) : ν → List (Step κ) → Option ν
  | n, [] => some n
  | n, s :: path => ((G n).child s).bind fun m => follow G m path

variable {G : ValueGraph ι κ ℓ ν}

@[simp] theorem follow_nil (n : ν) : G.follow n [] = some n := rfl

theorem follow_cons (n : ν) (s : Step κ) (path : List (Step κ)) :
    G.follow n (s :: path) = ((G n).child s).bind fun m => G.follow m path := rfl

theorem follow_append (n : ν) (p q : List (Step κ)) :
    G.follow n (p ++ q) = (G.follow n p).bind fun m => G.follow m q := by
  induction p generalizing n with
  | nil => rfl
  | cons s p ih =>
    simp only [List.cons_append, follow_cons, ih]
    cases (G n).child s <;> rfl

theorem follow_cons_some {n m : ν} {s : Step κ} {path : List (Step κ)} :
    G.follow n (s :: path) = some m ↔
      ∃ c, (G n).child s = some c ∧ G.follow c path = some m :=
  Option.bind_eq_some_iff

/-- A property of nodes that every step keeps holds along every path. -/
theorem follow_closed {P : ν → Prop} (closed : ∀ n s m, P n → (G n).child s = some m → P m)
    {n m : ν} {path : List (Step κ)} (start : P n) (leads : G.follow n path = some m) : P m := by
  induction path generalizing n with
  | nil =>
    cases leads
    exact start
  | cons s path ih =>
    obtain ⟨c, child, rest⟩ := follow_cons_some.mp leads
    exact ih (closed n s c start child) rest

/-- Two graphs that agree on what one of them reaches have the same paths. -/
theorem follow_congr {G' : ValueGraph ι κ ℓ ν} {n : ν}
    (agree : ∀ path m, G.follow n path = some m → G m = G' m) (path : List (Step κ)) :
    G.follow n path = G'.follow n path := by
  induction path generalizing n with
  | nil => rfl
  | cons s path ih =>
    rw [follow_cons, follow_cons, ← agree [] n rfl]
    cases child : (G n).child s with
    | none => rfl
    | some c => exact ih fun rest m leads => agree (s :: rest) m (follow_cons_some.mpr ⟨c, child, leads⟩)

/-- A graph whose children are all another's has its paths. -/
theorem follow_mono {G' : ValueGraph ι κ ℓ ν}
    (sub : ∀ n s m, (G n).child s = some m → (G' n).child s = some m) {n m : ν}
    {path : List (Step κ)} (leads : G.follow n path = some m) : G'.follow n path = some m := by
  induction path generalizing n with
  | nil => exact leads
  | cons s path ih =>
    obtain ⟨c, child, rest⟩ := follow_cons_some.mp leads
    exact follow_cons_some.mpr ⟨c, sub n s c child, ih rest⟩

/-- No container is reached by two paths. -/
def Unshared (G : ValueGraph ι κ ℓ ν) (n : ν) : Prop :=
  ∀ p q m m' i, G.follow n p = some m → G.follow n q = some m' →
    (G m).id? = some i → (G m').id? = some i → p = q

/-- Every path ends. -/
def Acyclic (G : ValueGraph ι κ ℓ ν) (n : ν) : Prop :=
  Acc (fun m n => ∃ s, (G n).child s = some m) n

end

variable [DecidableEq κ] [DecidableEq κ'] [DecidableEq κ'']

/-- The same paths lead through both graphs, to nodes that show the same. -/
structure Alike (R : ℓ → ℓ' → Prop) (key : κ → κ') (G : ValueGraph ι κ ℓ ν)
    (G' : ValueGraph ι' κ' ℓ' ν') (n : ν) (n' : ν') : Prop where
  forth : ∀ path m, G.follow n path = some m →
    ∃ m', G'.follow n' (path.map (Step.map key)) = some m' ∧ Matches R key (G m) (G' m')
  back : ∀ path' m', G'.follow n' path' = some m' →
    ∃ path m, path' = path.map (Step.map key) ∧ G.follow n path = some m

/-- Alike, and two paths meet in one graph exactly where they meet in the other. -/
structure Iso (R : ℓ → ℓ' → Prop) (key : κ → κ') (G : ValueGraph ι κ ℓ ν)
    (G' : ValueGraph ι' κ' ℓ' ν') (n : ν) (n' : ν') : Prop extends Alike R key G G' n n' where
  sharing : ∀ p q m₁ m₂ m₁' m₂', G.follow n p = some m₁ → G.follow n q = some m₂ →
    G'.follow n' (p.map (Step.map key)) = some m₁' →
    G'.follow n' (q.map (Step.map key)) = some m₂' →
    ((G m₁).id? = (G m₂).id? ↔ (G' m₁').id? = (G' m₂').id?)

/-- Every child of a related node of the second graph is related to a child in the first, at the
step that `step` makes of the one there. -/
structure Traced (step : Step κ → Step κ') (G : ValueGraph ι κ ℓ ν) (G' : ValueGraph ι' κ' ℓ' ν')
    (rel : ν → ν' → Prop) : Prop where
  source : ∀ {n n' s' m'}, rel n n' → (G' n').child s' = some m' →
    ∃ s m, (G n).child s = some m ∧ s' = step s ∧ rel m m'

theorem Traced.trans {G'' : ValueGraph ι'' κ'' ℓ'' ν''} {step : Step κ → Step κ'}
    {step' : Step κ' → Step κ''} {rel : ν → ν' → Prop} {rel' : ν' → ν'' → Prop}
    (first : Traced step G G' rel) (second : Traced step' G' G'' rel') :
    Traced (step' ∘ step) G G'' (fun n n'' => ∃ n', rel n n' ∧ rel' n' n'') := by
  refine ⟨?_⟩
  rintro n n'' s'' m'' ⟨n', related, related'⟩ child
  obtain ⟨s', m', child', rfl, related₁'⟩ := second.source related' child
  obtain ⟨s, m, from_m, rfl, related₁⟩ := first.source related child'
  exact ⟨s, m, from_m, rfl, m', related₁, related₁'⟩

/-- Every key of a record that is shown with its own keys comes from one of them. -/
theorem Traced.keys {G' : ValueGraph ι' κ ℓ' ν'} {step : Step κ → Step κ} {f : κ → κ}
    {rel : ν → ν' → Prop} {id₁ : ι} {entries : OrderedMap κ ν} {n' : ν'}
    (traced : Traced step G G' rel) (related : rel n n')
    (same : Matches R id (G n) (G' n')) (record : G n = .record id₁ entries)
    (keyed : ∀ k, step (.key k) = .key (f k)) : ∀ k ∈ entries.keys, ∃ k' ∈ entries.keys, k = f k' := by
  intro k member
  have shown : ((G n).child (.key k)).isSome := by
    rw [record]
    exact OrderedMap.find_isSome.mpr member
  obtain ⟨m, child⟩ := Option.isSome_iff_exists.mp shown
  obtain ⟨m', child'⟩ := same.child_forth child
  obtain ⟨s, x, from_x, moved, -⟩ := traced.source related child'
  rw [record] at from_x
  cases s with
  | index i => cases from_x
  | key k' =>
    refine ⟨k', OrderedMap.find_isSome.mp (Option.isSome_iff_exists.mpr ⟨x, from_x⟩), ?_⟩
    rw [keyed] at moved
    exact Step.key.inj moved

/-- A relation between the nodes of two graphs that every step keeps. -/
structure Bisimulation (R : ℓ → ℓ' → Prop) (key : κ → κ') (G : ValueGraph ι κ ℓ ν)
    (G' : ValueGraph ι' κ' ℓ' ν') (rel : ν → ν' → Prop) : Prop where
  views : ∀ {n n'}, rel n n' → Matches R key (G n) (G' n')
  children : ∀ {n n' s m m'}, rel n n' → (G n).child s = some m →
    (G' n').child (s.map key) = some m' → rel m m'

variable {R : ℓ → ℓ' → Prop} {key : κ → κ'} {G : ValueGraph ι κ ℓ ν}
  {G' : ValueGraph ι' κ' ℓ' ν'} {rel : ν → ν' → Prop} {n : ν} {n' : ν'}

namespace Bisimulation

theorem follow_forth (b : Bisimulation R key G G' rel) (related : rel n n')
    {path : List (Step κ)} {m : ν} (leads : G.follow n path = some m) :
    ∃ m', G'.follow n' (path.map (Step.map key)) = some m' ∧ rel m m' := by
  induction path generalizing n n' with
  | nil =>
    cases leads
    exact ⟨n', rfl, related⟩
  | cons s path ih =>
    obtain ⟨c, child, rest⟩ := follow_cons_some.mp leads
    obtain ⟨c', child'⟩ := (b.views related).child_forth child
    obtain ⟨m', leads', related'⟩ := ih (b.children related child child') rest
    exact ⟨m', follow_cons_some.mpr ⟨c', child', leads'⟩, related'⟩

theorem follow_back (b : Bisimulation R key G G' rel) (related : rel n n')
    {path' : List (Step κ')} {m' : ν'} (leads : G'.follow n' path' = some m') :
    ∃ path m, path' = path.map (Step.map key) ∧ G.follow n path = some m := by
  induction path' generalizing n n' with
  | nil => exact ⟨[], n, rfl, rfl⟩
  | cons s' path' ih =>
    obtain ⟨c', child', rest⟩ := follow_cons_some.mp leads
    obtain ⟨s, c, rfl, child⟩ := (b.views related).child_back child'
    obtain ⟨path, m, rfl, leads'⟩ := ih (b.children related child child') rest
    exact ⟨s :: path, m, rfl, follow_cons_some.mpr ⟨c, child, leads'⟩⟩

theorem alike (b : Bisimulation R key G G' rel) (related : rel n n') :
    Alike R key G G' n n' where
  forth path m leads := by
    obtain ⟨m', leads', related'⟩ := b.follow_forth related leads
    exact ⟨m', leads', b.views related'⟩
  back path' m' leads' := b.follow_back related leads'

/-- A bisimulation that matches identities both ways gives an isomorphism. -/
theorem iso (b : Bisimulation R key G G' rel) (related : rel n n')
    (identities : ∀ {m₁ m₂ m₁' m₂'}, rel m₁ m₁' → rel m₂ m₂' →
      ((G m₁).id? = (G m₂).id? ↔ (G' m₁').id? = (G' m₂').id?)) :
    Iso R key G G' n n' where
  toAlike := b.alike related
  sharing p q m₁ m₂ m₁' m₂' leads₁ leads₂ leads₁' leads₂' := by
    obtain ⟨x, atX, related₁⟩ := b.follow_forth related leads₁
    obtain ⟨y, atY, related₂⟩ := b.follow_forth related leads₂
    cases Option.some.inj (atX.symm.trans leads₁')
    cases Option.some.inj (atY.symm.trans leads₂')
    exact identities related₁ related₂

end Bisimulation

namespace Alike

theorem view (alike : Alike R key G G' n n') : Matches R key (G n) (G' n') := by
  obtain ⟨m', leads, same⟩ := alike.forth [] n rfl
  cases leads
  exact same

theorem child (alike : Alike R key G G' n n') {s : Step κ} {m : ν} {m' : ν'}
    (child : (G n).child s = some m) (child' : (G' n').child (s.map key) = some m') :
    Alike R key G G' m m' where
  forth path x leads := by
    obtain ⟨x', leads', same⟩ := alike.forth (s :: path) x (follow_cons_some.mpr ⟨m, child, leads⟩)
    obtain ⟨c', at_c, rest⟩ := follow_cons_some.mp leads'
    cases Option.some.inj (child'.symm.trans at_c)
    exact ⟨x', rest, same⟩
  back path' x' leads' := by
    obtain ⟨path, x, same, leads⟩ := alike.back (s.map key :: path') x'
      (follow_cons_some.mpr ⟨m', child', leads'⟩)
    cases path with
    | nil => cases same
    | cons t path =>
      obtain ⟨head, tail⟩ := List.cons.inj same
      obtain ⟨c, at_c, rest⟩ := follow_cons_some.mp leads
      obtain rfl : s = t := alike.view.step_inj child at_c head
      cases Option.some.inj (child.symm.trans at_c)
      exact ⟨path, x, tail, rest⟩

theorem child_forth (alike : Alike R key G G' n n') {s : Step κ} {m : ν}
    (child : (G n).child s = some m) :
    ∃ m', (G' n').child (s.map key) = some m' ∧ Alike R key G G' m m' := by
  obtain ⟨m', child'⟩ := alike.view.child_forth child
  exact ⟨m', child', alike.child child child'⟩

theorem child_back (alike : Alike R key G G' n n') {s' : Step κ'} {m' : ν'}
    (child' : (G' n').child s' = some m') :
    ∃ s m, (G n).child s = some m ∧ Alike R key G G' m m' := by
  obtain ⟨s, m, rfl, child⟩ := alike.view.child_back child'
  exact ⟨s, m, child, alike.child child child'⟩

/-- Every node of the second graph is the image of one of the first. -/
theorem source (alike : Alike R key G G' n n') {path' : List (Step κ')} {m' : ν'}
    (leads' : G'.follow n' path' = some m') : ∃ path m, path' = path.map (Step.map key) ∧
      G.follow n path = some m ∧ Matches R key (G m) (G' m') := by
  obtain ⟨path, m, rfl, leads⟩ := alike.back path' m' leads'
  obtain ⟨x', at_x', same⟩ := alike.forth path m leads
  cases Option.some.inj (leads'.symm.trans at_x')
  exact ⟨path, m, rfl, leads, same⟩

/-- Different paths have different images. -/
theorem path_inj (alike : Alike R key G G' n n') {p q : List (Step κ)} {m₁ m₂ : ν}
    (leads₁ : G.follow n p = some m₁) (leads₂ : G.follow n q = some m₂)
    (images : p.map (Step.map key) = q.map (Step.map key)) : p = q := by
  induction p generalizing n n' q with
  | nil => exact (List.map_eq_nil_iff.mp images.symm).symm
  | cons s p ih =>
    cases q with
    | nil => cases images
    | cons t q =>
      obtain ⟨head, tail⟩ := List.cons.inj images
      obtain ⟨c, child, rest₁⟩ := follow_cons_some.mp leads₁
      obtain ⟨c₂, child₂, rest₂⟩ := follow_cons_some.mp leads₂
      obtain rfl : s = t := alike.view.step_inj child child₂ head
      cases Option.some.inj (child.symm.trans child₂)
      obtain ⟨c', -, alike'⟩ := alike.child_forth child
      rw [ih alike' rest₁ rest₂ tail]

/-- Where the second graph shows nothing but images of parts of the first, and the nodes are alike,
a path that meets no step that moves leads to a node and its image. -/
theorem unmoved {G' : ValueGraph ι' κ ℓ' ν'} {n' : ν'} {step : Step κ → Step κ} {rel : ν → ν' → Prop}
    (traced : Traced step G G' rel) (alike : Alike R id G G' n n') (related : rel n n')
    (still : ∀ path m m', G.follow n path = some m → rel m m' → Matches R id (G m) (G' m') →
      ∀ s x, (G m).child s = some x → step s = s) {path : List (Step κ)} {m : ν}
    (leads : G.follow n path = some m) : ∃ m', rel m m' ∧ Matches R id (G m) (G' m') := by
  induction path generalizing n n' with
  | nil =>
    cases leads
    exact ⟨n', related, alike.view⟩
  | cons s path ih =>
    obtain ⟨c, child, rest⟩ := follow_cons_some.mp leads
    obtain ⟨c', child', alike'⟩ := alike.child_forth child
    rw [Step.map_id] at child'
    obtain ⟨t, x, from_x, moved, related'⟩ := traced.source related child'
    have unmoved := still [] n n' rfl related alike.view t x from_x
    rw [unmoved] at moved
    subst moved
    cases Option.some.inj (child.symm.trans from_x)
    exact ih alike' related' (fun path m m' leads => still (s :: path) m m'
      (follow_cons_some.mpr ⟨c, child, leads⟩)) rest

/-- Two trees that are alike are isomorphic. -/
theorem iso_of_unshared (alike : Alike R key G G' n n') (unshared : G.Unshared n)
    (unshared' : G'.Unshared n') : Iso R key G G' n n' where
  toAlike := alike
  sharing p q m₁ m₂ m₁' m₂' leads₁ leads₂ leads₁' leads₂' := by
    obtain ⟨x, at_x, same₁⟩ := alike.forth p m₁ leads₁
    cases Option.some.inj (leads₁'.symm.trans at_x)
    obtain ⟨y, at_y, same₂⟩ := alike.forth q m₂ leads₂
    cases Option.some.inj (leads₂'.symm.trans at_y)
    constructor
    · intro shared
      cases id₁ : (G m₁).id? with
      | none =>
        rw [same₁.id?_eq_none.mp id₁, same₂.id?_eq_none.mp (shared ▸ id₁)]
      | some i =>
        obtain rfl := unshared p q m₁ m₂ i leads₁ leads₂ id₁ (shared ▸ id₁)
        cases Option.some.inj (leads₁'.symm.trans leads₂')
        rfl
    · intro shared
      cases id₁ : (G' m₁').id? with
      | none =>
        rw [same₁.id?_eq_none.mpr id₁, same₂.id?_eq_none.mpr (shared ▸ id₁)]
      | some i =>
        have images := unshared' _ _ m₁' m₂' i leads₁' leads₂' id₁ (shared ▸ id₁)
        obtain rfl := alike.path_inj leads₁ leads₂ images
        cases Option.some.inj (leads₁.symm.trans leads₂)
        rfl

end Alike

omit [DecidableEq κ'] in
/-- Along paths of the first graph only its own keys matter. -/
theorem map_steps_congr {key' : κ → κ'} {m : ν} {path : List (Step κ)}
    (same : ∀ path m id entries k, G.follow n path = some m → G m = .record id entries →
      k ∈ entries.keys → key k = key' k) (leads : G.follow n path = some m) :
    path.map (Step.map key) = path.map (Step.map key') := by
  induction path generalizing n with
  | nil => rfl
  | cons s path ih =>
    obtain ⟨c, child, rest⟩ := follow_cons_some.mp leads
    have tail := ih (fun rest m id entries k leads => same (s :: rest) m id entries k
      (follow_cons_some.mpr ⟨c, child, leads⟩)) rest
    rw [List.map_cons, List.map_cons, tail]
    congr 1
    cases s with
    | index i => rfl
    | key k =>
      cases view : G n with
      | leaf l => rw [view] at child; cases child
      | list id elements => rw [view] at child; cases child
      | record id entries =>
        rw [view] at child
        have inside : k ∈ entries.keys := by
          rw [← OrderedMap.find_isSome, show entries.find k = some c from child]
          rfl
        exact congrArg Step.key (same [] n id entries k rfl view inside)

/-- Likeness depends on the leaves and keys of the first graph alone. -/
theorem Alike.congr {R' : ℓ → ℓ' → Prop} {key' : κ → κ'} (alike : Alike R key G G' n n')
    (leaves : ∀ path m l l', G.follow n path = some m → G m = .leaf l → R l l' → R' l l')
    (same : ∀ path m id entries k, G.follow n path = some m → G m = .record id entries →
      k ∈ entries.keys → key k = key' k) : Alike R' key' G G' n n' where
  forth path m leads := by
    obtain ⟨m', leads', shown⟩ := alike.forth path m leads
    refine ⟨m', map_steps_congr same leads ▸ leads', ?_⟩
    cases view : G m with
    | leaf l =>
      rw [view] at shown
      cases view' : G' m' with
      | leaf l' => rw [view'] at shown; exact leaves path m l l' leads view shown
      | list id elements => rw [view'] at shown; exact shown.elim
      | record id entries => rw [view'] at shown; exact shown.elim
    | list id elements =>
      rw [view] at shown
      cases view' : G' m' with
      | leaf l' => rw [view'] at shown; exact shown.elim
      | list id' elements' => rw [view'] at shown; exact shown
      | record id' entries => rw [view'] at shown; exact shown.elim
    | record id entries =>
      rw [view] at shown
      cases view' : G' m' with
      | leaf l' => rw [view'] at shown; exact shown.elim
      | list id' elements' => rw [view'] at shown; exact shown.elim
      | record id' entries' =>
        rw [view'] at shown
        have perm : entries'.keys.Perm (entries.keys.map key) := shown
        change entries'.keys.Perm (entries.keys.map key')
        rw [← List.map_congr_left fun k inside => same path m id entries k leads view inside]
        exact perm
  back path' m' leads' := by
    obtain ⟨path, m, rfl, leads⟩ := alike.back path' m' leads'
    exact ⟨path, m, map_steps_congr same leads, leads⟩

theorem Alike.congr_left {H : ValueGraph ι κ ℓ ν} (alike : Alike R key G G' n n')
    (agree : ∀ path m, G.follow n path = some m → G m = H m) : Alike R key H G' n n' where
  forth path m leads := by
    rw [← follow_congr agree] at leads
    rw [← agree path m leads]
    exact alike.forth path m leads
  back path' m' leads' := by
    obtain ⟨path, m, same, leads⟩ := alike.back path' m' leads'
    exact ⟨path, m, same, follow_congr agree path ▸ leads⟩

theorem Alike.congr_right {H' : ValueGraph ι' κ' ℓ' ν'} (alike : Alike R key G G' n n')
    (agree : ∀ path m', G'.follow n' path = some m' → G' m' = H' m') : Alike R key G H' n n' where
  forth path m leads := by
    obtain ⟨m', leads', same⟩ := alike.forth path m leads
    exact ⟨m', follow_congr agree _ ▸ leads', agree _ m' leads' ▸ same⟩
  back path' m' leads' := by
    rw [← follow_congr agree] at leads'
    exact alike.back path' m' leads'

theorem Iso.congr_left {H : ValueGraph ι κ ℓ ν} (iso : Iso R key G G' n n')
    (agree : ∀ path m, G.follow n path = some m → G m = H m) : Iso R key H G' n n' where
  toAlike := iso.toAlike.congr_left agree
  sharing p q m₁ m₂ m₁' m₂' leads₁ leads₂ := by
    rw [← follow_congr agree] at leads₁ leads₂
    rw [← agree p m₁ leads₁, ← agree q m₂ leads₂]
    exact iso.sharing p q m₁ m₂ m₁' m₂' leads₁ leads₂

theorem Iso.congr {R' : ℓ → ℓ' → Prop} {key' : κ → κ'} (iso : Iso R key G G' n n')
    (leaves : ∀ path m l l', G.follow n path = some m → G m = .leaf l → R l l' → R' l l')
    (same : ∀ path m id entries k, G.follow n path = some m → G m = .record id entries →
      k ∈ entries.keys → key k = key' k) : Iso R' key' G G' n n' where
  toAlike := iso.toAlike.congr leaves same
  sharing p q m₁ m₂ m₁' m₂' leads₁ leads₂ leads₁' leads₂' := by
    rw [← map_steps_congr same leads₁] at leads₁'
    rw [← map_steps_congr same leads₂] at leads₂'
    exact iso.sharing p q m₁ m₂ m₁' m₂' leads₁ leads₂ leads₁' leads₂'

theorem Alike.trans {R' : ℓ' → ℓ'' → Prop} {key' : κ' → κ''} {G'' : ValueGraph ι'' κ'' ℓ'' ν''}
    {n'' : ν''} (first : Alike R key G G' n n') (second : Alike R' key' G' G'' n' n'') :
    Alike (fun l l'' => ∃ l', R l l' ∧ R' l' l'') (key' ∘ key) G G'' n n'' where
  forth path m leads := by
    obtain ⟨m', leads', same⟩ := first.forth path m leads
    obtain ⟨m'', leads'', same'⟩ := second.forth _ m' leads'
    rw [List.map_map, show Step.map key' ∘ Step.map key = Step.map (key' ∘ key) from
      funext (Step.map_map key key')] at leads''
    exact ⟨m'', leads'', same.trans same'⟩
  back path'' m'' leads'' := by
    obtain ⟨path', m', rfl, leads'⟩ := second.back path'' m'' leads''
    obtain ⟨path, m, rfl, leads⟩ := first.back path' m' leads'
    refine ⟨path, m, ?_, leads⟩
    rw [List.map_map, show Step.map key' ∘ Step.map key = Step.map (key' ∘ key) from
      funext (Step.map_map key key')]

end ValueGraph

section

variable {ι κ ℓ ν ι₁ κ₁ ℓ₁ ν₁ ι₂ ℓ₂ ν₂ : Type}

/-- Two images of one view, under one map of the keys, show the same. -/
theorem Matches.span {R₁ : ℓ → ℓ₁ → Prop} {R₂ : ℓ → ℓ₂ → Prop} {key : κ → κ₁} {v : View ι κ ℓ ν}
    {v₁ : View ι₁ κ₁ ℓ₁ ν₁} {v₂ : View ι₂ κ₁ ℓ₂ ν₂} (first : Matches R₁ key v v₁)
    (second : Matches R₂ key v v₂) : Matches (fun l₁ l₂ => ∃ l, R₁ l l₁ ∧ R₂ l l₂) id v₁ v₂ := by
  cases v with
  | leaf l =>
    cases v₁ with
    | leaf l₁ =>
      cases v₂ with
      | leaf l₂ => exact ⟨l, first, second⟩
      | _ => exact second.elim
    | _ => exact first.elim
  | list id elements =>
    cases v₁ with
    | list id₁ elements₁ =>
      cases v₂ with
      | list id₂ elements₂ =>
        have count : elements.length = elements₁.length := first
        exact count.symm.trans second
      | _ => exact second.elim
    | _ => exact first.elim
  | record id entries =>
    cases v₁ with
    | record id₁ entries₁ =>
      cases v₂ with
      | record id₂ entries₂ =>
        have keys₁ : entries₁.keys.Perm (entries.keys.map key) := first
        have keys₂ : entries₂.keys.Perm (entries.keys.map key) := second
        change entries₂.keys.Perm (entries₁.keys.map _)
        rw [List.map_id]
        exact keys₂.trans keys₁.symm
      | _ => exact second.elim
    | _ => exact first.elim

namespace ValueGraph

variable [DecidableEq κ] [DecidableEq κ₁] {R₁ : ℓ → ℓ₁ → Prop} {R₂ : ℓ → ℓ₂ → Prop} {key : κ → κ₁}
  {G : ValueGraph ι κ ℓ ν} {G₁ : ValueGraph ι₁ κ₁ ℓ₁ ν₁} {G₂ : ValueGraph ι₂ κ₁ ℓ₂ ν₂} {n m : ν}
  {n₁ m₁ : ν₁} {n₂ : ν₂}

/-- Likeness goes down every path. -/
theorem Alike.follow (alike : Alike R₁ key G G₁ n n₁) {path : List (Step κ)}
    (leads : G.follow n path = some m) (leads₁ : G₁.follow n₁ (path.map (Step.map key)) = some m₁) :
    Alike R₁ key G G₁ m m₁ := by
  induction path generalizing n n₁ with
  | nil =>
    cases leads
    cases leads₁
    exact alike
  | cons s path ih =>
    obtain ⟨c, child, rest⟩ := follow_cons_some.mp leads
    obtain ⟨c₁, child₁, rest₁⟩ := follow_cons_some.mp leads₁
    exact ih (alike.child child child₁) rest rest₁

/-- An isomorphism of two graphs is one of their parts. -/
theorem Iso.follow (iso : Iso R₁ key G G₁ n n₁) {path : List (Step κ)}
    (leads : G.follow n path = some m) (leads₁ : G₁.follow n₁ (path.map (Step.map key)) = some m₁) :
    Iso R₁ key G G₁ m m₁ where
  toAlike := iso.toAlike.follow leads leads₁
  sharing p q x y x₁ y₁ at_x at_y at_x₁ at_y₁ := by
    refine iso.sharing (path ++ p) (path ++ q) x y x₁ y₁ ?_ ?_ ?_ ?_
    · rwa [follow_append, leads, Option.bind_some]
    · rwa [follow_append, leads, Option.bind_some]
    · rwa [List.map_append, follow_append, leads₁, Option.bind_some]
    · rwa [List.map_append, follow_append, leads₁, Option.bind_some]

theorem Alike.span (first : Alike R₁ key G G₁ n n₁) (second : Alike R₂ key G G₂ n n₂) :
    Alike (fun l₁ l₂ => ∃ l, R₁ l l₁ ∧ R₂ l l₂) id G₁ G₂ n₁ n₂ where
  forth path₁ m₁ leads₁ := by
    obtain ⟨path, m, rfl, leads, same₁⟩ := first.source leads₁
    obtain ⟨m₂, leads₂, same₂⟩ := second.forth path m leads
    rw [Step.map_id, List.map_id]
    exact ⟨m₂, leads₂, same₁.span same₂⟩
  back path₂ m₂ leads₂ := by
    obtain ⟨path, m, rfl, leads⟩ := second.back path₂ m₂ leads₂
    obtain ⟨m₁, leads₁, -⟩ := first.forth path m leads
    refine ⟨_, m₁, ?_, leads₁⟩
    rw [Step.map_id, List.map_id]

/-- Two graphs isomorphic to one are isomorphic. -/
theorem Iso.span (first : Iso R₁ key G G₁ n n₁) (second : Iso R₂ key G G₂ n n₂) :
    Iso (fun l₁ l₂ => ∃ l, R₁ l l₁ ∧ R₂ l l₂) id G₁ G₂ n₁ n₂ where
  toAlike := first.toAlike.span second.toAlike
  sharing p q x₁ y₁ x₂ y₂ at_x₁ at_y₁ at_x₂ at_y₂ := by
    rw [Step.map_id, List.map_id] at at_x₂ at_y₂
    obtain ⟨p', x, rfl, at_x, -⟩ := first.source at_x₁
    obtain ⟨q', y, rfl, at_y, -⟩ := first.source at_y₁
    have shared₁ := first.sharing p' q' x y x₁ y₁ at_x at_y at_x₁ at_y₁
    exact shared₁.symm.trans (second.sharing p' q' x y x₂ y₂ at_x at_y at_x₂ at_y₂)

end ValueGraph

end

end Effect
