import Mathlib.Algebra.Order.BigOperators.Group.List
import Mathlib.Algebra.Order.Group.Nat
import Mathlib.Algebra.GroupWithZero.Nat
import Mathlib.Data.List.Nodup

namespace Effect

/-- A finite map that remembers the order in which its keys were first inserted. -/
structure OrderedMap (κ ν : Type) where
  entries : List (κ × ν)
  nodup : (entries.map Prod.fst).Nodup
deriving DecidableEq

namespace OrderedMap

variable {κ ν : Type}

def empty : OrderedMap κ ν := ⟨[], List.nodup_nil⟩

def keys (m : OrderedMap κ ν) : List κ := m.entries.map Prod.fst

@[simp] theorem entries_empty : (empty : OrderedMap κ ν).entries = [] := rfl

@[simp] theorem keys_empty : (empty : OrderedMap κ ν).keys = [] := rfl

@[ext] theorem ext {m m' : OrderedMap κ ν} (h : m.entries = m'.entries) : m = m' := by
  cases m
  cases m'
  simpa using h

variable [DecidableEq κ]

def lookup (k : κ) : List (κ × ν) → Option ν
  | [] => none
  | (k',v) :: rest => if k' = k then some v else lookup k rest

def find (m : OrderedMap κ ν) (k : κ) : Option ν := lookup k m.entries

/-- A present key keeps its place, a new one goes to the end. -/
def put (k : κ) (v : ν) : List (κ × ν) → List (κ × ν)
  | [] => [(k,v)]
  | (k',v') :: rest => if k' = k then (k,v) :: rest else (k',v') :: put k v rest

theorem keys_put (k : κ) (v : ν) (l : List (κ × ν)) :
    (put k v l).map Prod.fst =
      if k ∈ l.map Prod.fst then l.map Prod.fst else l.map Prod.fst ++ [k] := by
  induction l with
  | nil => simp [put]
  | cons e rest ih =>
    obtain ⟨k', v'⟩ := e
    by_cases h : k' = k
    · simp [put, h]
    · have h' : k ≠ k' := fun same => h same.symm
      by_cases inside : k ∈ rest.map Prod.fst
      · simp only [put, h, if_false, List.map_cons, List.mem_cons, h', false_or, inside, if_true, ih]
      · simp only [put, h, if_false, List.map_cons, List.mem_cons, h', false_or, inside, ih,
          List.cons_append]

def insert (m : OrderedMap κ ν) (k : κ) (v : ν) : OrderedMap κ ν :=
  ⟨put k v m.entries, by
    rw [keys_put]
    split
    · exact m.nodup
    · rename_i fresh
      exact List.nodup_append.mpr ⟨m.nodup, List.nodup_singleton k, by
        rintro a inside b new rfl
        exact fresh (by simpa [List.mem_singleton.mp new] using inside)⟩⟩

@[simp] theorem find_empty (k : κ) : (empty : OrderedMap κ ν).find k = none := rfl

theorem keys_insert (m : OrderedMap κ ν) (k : κ) (v : ν) :
    (m.insert k v).keys = if k ∈ m.keys then m.keys else m.keys ++ [k] :=
  keys_put k v m.entries

theorem lookup_put (k k' : κ) (v : ν) (l : List (κ × ν)) :
    lookup k' (put k v l) = if k' = k then some v else lookup k' l := by
  induction l with
  | nil =>
    by_cases h : k' = k
    · simp [put, lookup, h]
    · simp [put, lookup, h, Ne.symm h]
  | cons e rest ih =>
    obtain ⟨k₀, v₀⟩ := e
    by_cases h₀ : k₀ = k
    · subst h₀
      by_cases h : k' = k₀
      · simp [put, lookup, h]
      · simp [put, lookup, h, Ne.symm h]
    · by_cases h : k₀ = k'
      · subst h
        simp [put, lookup, h₀]
      · simp [put, lookup, h₀, h, ih]

theorem find_insert (m : OrderedMap κ ν) (k k' : κ) (v : ν) :
    (m.insert k v).find k' = if k' = k then some v else m.find k' :=
  lookup_put k k' v m.entries

@[simp] theorem find_insert_self (m : OrderedMap κ ν) (k : κ) (v : ν) :
    (m.insert k v).find k = some v := by
  simp [find_insert]

theorem find_insert_ne {m : OrderedMap κ ν} {k k' : κ} {v : ν} (h : k' ≠ k) :
    (m.insert k v).find k' = m.find k' := by
  simp [find_insert, h]

theorem lookup_eq_none {k : κ} {l : List (κ × ν)} :
    lookup k l = none ↔ k ∉ l.map Prod.fst := by
  induction l with
  | nil => simp [lookup]
  | cons e rest ih =>
    obtain ⟨k₀, v₀⟩ := e
    by_cases h : k₀ = k
    · simp [lookup, h]
    · rw [lookup, if_neg h, ih]
      simp [Ne.symm h]

theorem find_eq_none {m : OrderedMap κ ν} {k : κ} : m.find k = none ↔ k ∉ m.keys :=
  lookup_eq_none

theorem find_isSome {m : OrderedMap κ ν} {k : κ} : (m.find k).isSome ↔ k ∈ m.keys := by
  rw [← not_iff_not, ← find_eq_none]
  simp

theorem lookup_eq_some {k : κ} {v : ν} {l : List (κ × ν)} (nodup : (l.map Prod.fst).Nodup) :
    lookup k l = some v ↔ (k,v) ∈ l := by
  induction l with
  | nil => simp [lookup]
  | cons e rest ih =>
    obtain ⟨k₀, v₀⟩ := e
    simp only [List.map_cons, List.nodup_cons] at nodup
    by_cases h : k₀ = k
    · subst h
      have absent : (k₀,v) ∉ rest := fun inside => nodup.1 (List.mem_map.mpr ⟨_, inside, rfl⟩)
      simp [lookup, absent, eq_comm]
    · have h' : k ≠ k₀ := fun same => h same.symm
      simp [lookup, h, h', ih nodup.2]

theorem find_eq_some {m : OrderedMap κ ν} {k : κ} {v : ν} :
    m.find k = some v ↔ (k,v) ∈ m.entries :=
  lookup_eq_some m.nodup

end OrderedMap

section

variable {κ : Type} {keys : List κ} {f : κ → κ}

/-- Distinct keys that all come from one another are permuted. -/
theorem perm_map_of_covered (nodup : keys.Nodup) (covered : ∀ k ∈ keys, ∃ k' ∈ keys, k = f k') :
    keys.Perm (keys.map f) := by
  have inside : keys ⊆ keys.map f := by
    intro k member
    obtain ⟨k', member', rfl⟩ := covered k member
    exact List.mem_map_of_mem member'
  exact (List.subperm_of_subset nodup inside).perm_of_length_le (by rw [List.length_map])

theorem eq_of_sum_le {g h : κ → Nat} (below : ∀ k ∈ keys, g k ≤ h k)
    (sums : (keys.map h).sum ≤ (keys.map g).sum) : ∀ k ∈ keys, g k = h k := by
  induction keys with
  | nil => intro k member; cases member
  | cons k₀ rest ih =>
    have first := below k₀ (List.mem_cons_self ..)
    have later : ∀ k ∈ rest, g k ≤ h k := fun k member => below k (List.mem_cons_of_mem _ member)
    have total : (rest.map g).sum ≤ (rest.map h).sum := List.sum_le_sum later
    rw [List.map_cons, List.map_cons, List.sum_cons, List.sum_cons] at sums
    intro k member
    rcases List.mem_cons.mp member with rfl | rest
    · omega
    · exact ih later (by omega) k rest

/-- So none can grow on the way, or shrink. -/
theorem size_of_covered (size : κ → Nat) (nodup : keys.Nodup) (covered : ∀ k ∈ keys, ∃ k' ∈ keys, k = f k')
    (way : (∀ k ∈ keys, size k ≤ size (f k)) ∨ ∀ k ∈ keys, size (f k) ≤ size k) :
    ∀ k ∈ keys, size (f k) = size k := by
  have sums := ((perm_map_of_covered nodup covered).map size).sum_eq
  rw [List.map_map] at sums
  rcases way with grows | shrinks
  · exact fun k member => (eq_of_sum_le (h := size ∘ f) grows sums.symm.le k member).symm
  · exact eq_of_sum_le (g := size ∘ f) shrinks sums.le

end

end Effect
