import Mathlib.Algebra.Order.Ring.Nat
import Mathlib.Data.List.Basic
import Mathlib.Data.List.DropRight
import Mathlib.Data.Nat.ModEq
import Mathlib.Logic.Function.Basic
import Mathlib.Tactic.Common

/-!
# Rings

The cells of a ring are numbered by a counter that only grows, modulo the depth of
the ring.  The cells in use are read from the head on.
-/

namespace Ring

variable {α : Type}

def cell (depth : Nat) (cells : Nat -> α) (head k : Nat) : α :=
  cells ((head + k) % depth)

def view (depth : Nat) (cells : Nat -> α) (head count : Nat) : List α :=
  (List.range count).map (cell depth cells head)

theorem place_inj {depth head i j : Nat} (hi : i < depth) (hj : j < depth)
    (h : (head + i) % depth = (head + j) % depth) : i = j := by
  have hmod : i % depth = j % depth :=
    Nat.ModEq.add_left_cancel' head h
  rwa [Nat.mod_eq_of_lt hi, Nat.mod_eq_of_lt hj] at hmod

theorem cell_update_same (depth : Nat) (cells : Nat -> α) (head k : Nat) (x : α) :
    cell depth (Function.update cells ((head + k) % depth) x) head k = x := by
  unfold cell
  rw [Function.update_self]

theorem cell_update_other {depth : Nat} (cells : Nat -> α) {head i j : Nat} (x : α)
    (hi : i < depth) (hj : j < depth) (hne : i ≠ j) :
    cell depth (Function.update cells ((head + j) % depth) x) head i =
      cell depth cells head i := by
  unfold cell
  apply Function.update_of_ne
  intro h
  exact hne (place_inj hi hj h)

theorem cell_succ (depth : Nat) (cells : Nat -> α) (head k : Nat) :
    cell depth cells (head + 1) k = cell depth cells head (k + 1) := by
  unfold cell
  rw [Nat.add_assoc, Nat.add_comm 1 k]

/-- Another cell than those in use may be filled. -/
theorem view_update_free {depth : Nat} (cells : Nat -> α) {head count : Nat} (x : α)
    (h : count < depth) :
    view depth (Function.update cells ((head + count) % depth) x) head count =
      view depth cells head count := by
  apply List.map_congr_left
  intro k hk
  have hlt : k < count := List.mem_range.mp hk
  exact cell_update_other cells x (hlt.trans h) h hlt.ne

theorem view_push {depth : Nat} (cells : Nat -> α) {head count : Nat} (x : α)
    (h : count < depth) :
    view depth (Function.update cells ((head + count) % depth) x) head (count + 1) =
      view depth cells head count ++ [x] := by
  rw [<- view_update_free cells x h]
  unfold view
  rw [List.range_succ, List.map_append, List.map_singleton, cell_update_same]

theorem view_pop (depth : Nat) (cells : Nat -> α) (head count : Nat) :
    view depth cells head (count + 1) =
      cell depth cells head 0 :: view depth cells (head + 1) count := by
  unfold view
  rw [List.range_succ_eq_map, List.map_cons, List.map_map]
  congr 1
  apply List.map_congr_left
  intro k _
  exact (cell_succ depth cells head k).symm

/-- Only the place of the head in the ring counts. -/
theorem view_congr {depth : Nat} (cells : Nat -> α) {head head' : Nat} (count : Nat)
    (h : head % depth = head' % depth) :
    view depth cells head count = view depth cells head' count := by
  apply List.map_congr_left
  intro k _
  unfold cell
  rw [Nat.add_mod head, h, <- Nat.add_mod]

/-- In a full ring the newest element takes the place of the oldest. -/
theorem view_replace {depth : Nat} (cells : Nat -> α) (head : Nat) (x : α) (h : 0 < depth) :
    view depth (Function.update cells (head % depth) x) (head + 1) depth =
      (view depth cells head depth).tail ++ [x] := by
  obtain ⟨count, rfl⟩ : exists count, depth = count + 1 := ⟨depth - 1, by omega⟩
  have hplace : head % (count + 1) = (head + 1 + count) % (count + 1) := by
    rw [Nat.add_assoc, Nat.add_comm 1 count, Nat.add_mod_right]
  rw [hplace, view_push cells x (Nat.lt_succ_self count), view_pop, List.tail_cons]

/-!
# The last elements of a list
-/

theorem rtake_all {l : List α} {n : Nat} (h : l.length ≤ n) : l.rtake n = l := by
  unfold List.rtake
  rw [Nat.sub_eq_zero_of_le h, List.drop_zero]

/-- The last elements of a longer list. -/
theorem rtake_concat_of_le {l : List α} {n : Nat} (x : α) (hn : 0 < n)
    (h : n ≤ l.length) : (l ++ [x]).rtake n = (l.rtake n).tail ++ [x] := by
  unfold List.rtake
  have hcut : (l ++ [x]).length - n = l.length - n + 1 := by
    rw [List.length_append, List.length_singleton]
    omega
  rw [hcut, List.drop_append_of_le_length (by omega), List.tail_drop]

end Ring
