import Mathlib.Data.List.Nodup
import Mathlib.Data.List.Perm.Subperm
import Mathlib.Tactic.Common

/-!
# Sets and maps in the order of insertion

A member that is added again keeps its place.  What is taken from the front is what was
added first.
-/

/-!
# Sets
-/

structure OrderedSet (α : Type) where
  elements : List α
  nodup : elements.Nodup

namespace OrderedSet

variable {α : Type}

instance : Membership α (OrderedSet α) where
  mem s x := x ∈ s.elements

def empty : OrderedSet α where
  elements := []
  nodup := List.nodup_nil

def size (s : OrderedSet α) : Nat :=
  s.elements.length

/-- Drops the members in front that satisfy the predicate. -/
def dropFront (s : OrderedSet α) (p : α -> Bool) : OrderedSet α where
  elements := s.elements.dropWhile p
  nodup := s.nodup.sublist (List.dropWhile_sublist p)

/-- Drops members in front until at most {lit}`n` are left. -/
def trim (s : OrderedSet α) (n : Nat) : OrderedSet α where
  elements := s.elements.drop (s.elements.length - n)
  nodup := s.nodup.sublist (List.drop_sublist _ _)

@[simp]
theorem not_mem_empty (x : α) : x ∉ (empty : OrderedSet α) := by
  intro h
  cases h

theorem mem_of_mem_dropFront {s : OrderedSet α} {p : α -> Bool} {x : α}
    (h : x ∈ s.dropFront p) : x ∈ s :=
  (List.dropWhile_sublist p).subset h

theorem size_dropFront_le (s : OrderedSet α) (p : α -> Bool) : (s.dropFront p).size ≤ s.size :=
  (List.dropWhile_sublist p).length_le

theorem size_trim_le (s : OrderedSet α) (n : Nat) : (s.trim n).size ≤ n := by
  change (s.elements.drop _).length ≤ n
  rw [List.length_drop]
  omega

/-- What stands in front after the drop does not satisfy the predicate. -/
theorem head_dropFront {s : OrderedSet α} {p : α -> Bool} {x : α}
    (h : (s.dropFront p).elements.head? = some x) : p x = false ∧ x ∈ s := by
  change (s.elements.dropWhile p).head? = some x at h
  constructor
  · have hnot := List.head?_dropWhile_not p s.elements
    rw [h] at hnot
    simpa using hnot
  · exact (List.dropWhile_sublist p).subset (List.mem_of_mem_head? h)

variable [DecidableEq α]

instance (x : α) (s : OrderedSet α) : Decidable (x ∈ s) :=
  inferInstanceAs (Decidable (x ∈ s.elements))

def add (s : OrderedSet α) (x : α) : OrderedSet α :=
  if h : x ∈ s.elements then s
  else
    { elements := s.elements ++ [x]
      nodup := List.Nodup.append s.nodup (List.nodup_singleton x) (by simpa using h) }

def delete (s : OrderedSet α) (x : α) : OrderedSet α where
  elements := s.elements.erase x
  nodup := s.nodup.erase x

def addAll (s : OrderedSet α) (xs : List α) : OrderedSet α :=
  xs.foldl add s

@[simp]
theorem mem_add {s : OrderedSet α} {x y : α} : y ∈ s.add x ↔ y = x ∨ y ∈ s := by
  unfold add
  split
  · rename_i h
    constructor
    · exact Or.inr
    · intro hy
      rcases hy with rfl | hy
      · exact h
      · exact hy
  · change y ∈ s.elements ++ [x] ↔ _
    rw [List.mem_append, List.mem_singleton]
    exact Or.comm

@[simp]
theorem mem_delete {s : OrderedSet α} {x y : α} : y ∈ s.delete x ↔ y ≠ x ∧ y ∈ s :=
  s.nodup.mem_erase_iff

theorem size_delete_le (s : OrderedSet α) (x : α) : (s.delete x).size ≤ s.size :=
  List.erase_sublist.length_le

theorem mem_addAll {xs : List α} {s : OrderedSet α} {x : α} (h : x ∈ s.addAll xs) :
    x ∈ xs ∨ x ∈ s := by
  induction xs generalizing s with
  | nil => exact Or.inr h
  | cons y xs ih =>
      rcases ih h with hin | hin
      · exact Or.inl (List.mem_cons_of_mem y hin)
      · rcases mem_add.mp hin with heq | hold
        · exact Or.inl (heq ▸ List.mem_cons_self)
        · exact Or.inr hold

end OrderedSet

/-!
# Maps
-/

structure OrderedMap (α β : Type) where
  entries : List (α × β)
  nodup : (entries.map Prod.fst).Nodup

namespace OrderedMap

variable {α β : Type}

def keys (m : OrderedMap α β) : List α :=
  m.entries.map Prod.fst

instance : Membership α (OrderedMap α β) where
  mem m k := k ∈ m.keys

def empty : OrderedMap α β where
  entries := []
  nodup := List.nodup_nil

def size (m : OrderedMap α β) : Nat :=
  m.entries.length

theorem mem_iff {k : α} {m : OrderedMap α β} : k ∈ m ↔ k ∈ m.entries.map Prod.fst :=
  Iff.rfl

@[simp]
theorem not_mem_empty (k : α) : k ∉ (empty : OrderedMap α β) := by
  intro h
  cases h

theorem length_keys (m : OrderedMap α β) : m.keys.length = m.size :=
  List.length_map _

theorem length_le_size {m : OrderedMap α β} {ks : List α} (hnodup : ks.Nodup)
    (hmem : forall k, k ∈ ks -> k ∈ m) : ks.length ≤ m.size := by
  rw [<- length_keys]
  exact (List.subperm_of_subset hnodup hmem).length_le

theorem not_mem_of_size_zero {m : OrderedMap α β} (h : m.size = 0) (k : α) : k ∉ m := by
  have hnil : m.entries = [] := List.length_eq_zero_iff.mp h
  rw [mem_iff, hnil]
  exact List.not_mem_nil

variable [DecidableEq α]

instance (k : α) (m : OrderedMap α β) : Decidable (k ∈ m) :=
  inferInstanceAs (Decidable (k ∈ m.keys))

def get (m : OrderedMap α β) (k : α) : Option β :=
  (m.entries.find? (fun e => e.1 == k)).map Prod.snd

def put (k : α) (v : β) (e : α × β) : α × β :=
  if e.1 = k then (e.1, v) else e

theorem map_fst_put (k : α) (v : β) (entries : List (α × β)) :
    (entries.map (put k v)).map Prod.fst = entries.map Prod.fst := by
  rw [List.map_map]
  apply List.map_congr_left
  intro e _
  change (put k v e).1 = e.1
  unfold put
  split <;> rfl

def set (m : OrderedMap α β) (k : α) (v : β) : OrderedMap α β :=
  if h : k ∈ m.entries.map Prod.fst then
    { entries := m.entries.map (put k v)
      nodup := by rw [map_fst_put]; exact m.nodup }
  else
    { entries := m.entries ++ [(k, v)]
      nodup := by
        rw [List.map_append]
        exact List.Nodup.append m.nodup (List.nodup_singleton k) (by simpa using h) }

def delete (m : OrderedMap α β) (k : α) : OrderedMap α β where
  entries := m.entries.filter (fun e => e.1 != k)
  nodup := m.nodup.sublist (List.filter_sublist.map Prod.fst)

theorem get_isSome {m : OrderedMap α β} {k : α} : (m.get k).isSome = true ↔ k ∈ m := by
  rw [mem_iff, get, Option.isSome_map, List.find?_isSome, List.mem_map]
  constructor
  · intro h
    rcases h with ⟨e, he, hk⟩
    exact ⟨e, he, by simpa using hk⟩
  · intro h
    rcases h with ⟨e, he, hk⟩
    exact ⟨e, he, by simpa using hk⟩

theorem mem_of_get {m : OrderedMap α β} {k : α} {v : β} (h : m.get k = some v) : k ∈ m := by
  apply get_isSome.mp
  rw [h]
  rfl

theorem get_of_not_mem {m : OrderedMap α β} {k : α} (h : k ∉ m) : m.get k = none := by
  cases hget : m.get k with
  | none => rfl
  | some v => exact absurd (mem_of_get hget) h

@[simp]
theorem mem_set {m : OrderedMap α β} {k j : α} {v : β} : j ∈ m.set k v ↔ j = k ∨ j ∈ m := by
  unfold set
  split
  · rename_i h
    rw [mem_iff, map_fst_put]
    constructor
    · exact Or.inr
    · intro hj
      rcases hj with rfl | hj
      · exact h
      · exact hj
  · rw [mem_iff, List.map_append, List.mem_append]
    simp only [List.map_cons, List.map_nil, List.mem_singleton]
    exact Or.comm

theorem find_put_self {entries : List (α × β)} {k : α} {v : β}
    (h : k ∈ entries.map Prod.fst) :
    ((entries.map (put k v)).find? (fun e => e.1 == k)).map Prod.snd = some v := by
  induction entries with
  | nil => cases h
  | cons e rest ih =>
      by_cases he : e.1 = k
      · simp [put, he]
      · have hrest : k ∈ rest.map Prod.fst := by
          rcases List.mem_cons.mp h with hk | hk
          · exact absurd hk.symm he
          · exact hk
        simpa [put, he] using ih hrest

theorem find_put_ne {entries : List (α × β)} {k j : α} {v : β} (hne : j ≠ k) :
    ((entries.map (put k v)).find? (fun e => e.1 == j)).map Prod.snd =
      (entries.find? (fun e => e.1 == j)).map Prod.snd := by
  induction entries with
  | nil => rfl
  | cons e rest ih =>
      by_cases he : e.1 = k
      · have hj : ¬ k = j := fun heq => hne heq.symm
        simpa [put, he, hj] using ih
      · by_cases hj : e.1 = j
        · simp [put, hj, hne]
        · simpa [put, he, hj] using ih

@[simp]
theorem get_set_self (m : OrderedMap α β) (k : α) (v : β) : (m.set k v).get k = some v := by
  unfold set
  split
  · rename_i h
    exact find_put_self h
  · rename_i h
    have hnone : m.entries.find? (fun e => e.1 == k) = none := by
      apply List.find?_eq_none.mpr
      intro e he hk
      apply h
      have heq : e.1 = k := by simpa using hk
      rw [<- heq]
      exact List.mem_map_of_mem he
    simp [get, List.find?_append, hnone]

theorem get_set_ne (m : OrderedMap α β) {k j : α} (v : β) (hne : j ≠ k) :
    (m.set k v).get j = m.get j := by
  unfold set
  split
  · exact find_put_ne hne
  · have hk : ¬ k = j := fun heq => hne heq.symm
    simp [get, List.find?_append, hk]

@[simp]
theorem mem_delete {m : OrderedMap α β} {k j : α} : j ∈ m.delete k ↔ j ≠ k ∧ j ∈ m := by
  rw [mem_iff, mem_iff, List.mem_map, List.mem_map]
  constructor
  · intro h
    rcases h with ⟨e, he, rfl⟩
    rcases List.mem_filter.mp he with ⟨hmem, hne⟩
    exact ⟨by simpa using hne, e, hmem, rfl⟩
  · intro h
    rcases h with ⟨hne, e, he, rfl⟩
    exact ⟨e, List.mem_filter.mpr ⟨he, by simpa using hne⟩, rfl⟩

theorem get_delete_ne (m : OrderedMap α β) {k j : α} (hne : j ≠ k) :
    (m.delete k).get j = m.get j := by
  have hsame : (fun e : α × β => decide ((e.1 != k) = true ∧ (e.1 == j) = true)) =
      fun e => e.1 == j := by
    funext e
    by_cases hj : e.1 = j
    · simp [hj, hne]
    · simp [hj]
  unfold get delete
  rw [List.find?_filter, hsame]

theorem get_delete_some {m : OrderedMap α β} {k j : α} {v : β}
    (h : (m.delete k).get j = some v) : j ≠ k ∧ m.get j = some v := by
  have hne := (mem_delete.mp (mem_of_get h)).1
  rw [get_delete_ne m hne] at h
  exact ⟨hne, h⟩

theorem get_set_some {m : OrderedMap α β} {k j : α} {v w : β}
    (h : (m.set k w).get j = some v) : (j = k ∧ v = w) ∨ (j ≠ k ∧ m.get j = some v) := by
  by_cases heq : j = k
  · subst heq
    rw [get_set_self] at h
    exact Or.inl ⟨rfl, (Option.some.inj h).symm⟩
  · rw [get_set_ne m w heq] at h
    exact Or.inr ⟨heq, h⟩

theorem size_delete_le (m : OrderedMap α β) (k : α) : (m.delete k).size ≤ m.size :=
  List.filter_sublist.length_le

theorem size_set_of_mem {m : OrderedMap α β} {k : α} (h : k ∈ m) (v : β) :
    (m.set k v).size = m.size := by
  unfold set
  split
  · exact List.length_map _
  · rename_i hnot
    exact absurd h hnot

theorem size_set_le (m : OrderedMap α β) (k : α) (v : β) : (m.set k v).size ≤ m.size + 1 := by
  by_cases h : k ∈ m
  · rw [size_set_of_mem h]
    exact Nat.le_succ _
  · unfold set
    split
    · rename_i hmem
      exact absurd hmem h
    · change (m.entries ++ [(k, v)]).length ≤ _
      rw [List.length_append]
      exact Nat.le_refl _

end OrderedMap
