import Mathlib.Logic.Function.Basic
import Mathlib.Data.List.Basic

/-!
# Logs of writes

A log lists writes to positions of a file, the newest first.  The content it
stands for is, at every position, the value of the newest write that covers the
position.
-/

namespace WriteLog

variable {β : Type _}

/-- The value at distance {lit}`i` from the start is {lit}`data i`. -/
structure Write (β : Type _) where
  start : Nat
  len : Nat
  data : Nat -> β

def Write.Covers (w : Write β) (p : Nat) : Prop :=
  w.start ≤ p ∧ p < w.start + w.len

instance (w : Write β) (p : Nat) : Decidable (w.Covers p) :=
  inferInstanceAs (Decidable (w.start ≤ p ∧ p < w.start + w.len))

def latest : List (Write β) -> Nat -> Option β
  | [], _ => none
  | w :: log, p => if w.Covers p then some (w.data (p - w.start)) else latest log p

theorem latest_cons_covers {w : Write β} {p : Nat} (log : List (Write β))
    (h : w.Covers p) : latest (w :: log) p = some (w.data (p - w.start)) := by
  rw [latest, if_pos h]

theorem latest_cons_of_not_covers {w : Write β} {p : Nat} (log : List (Write β))
    (h : ¬ w.Covers p) : latest (w :: log) p = latest log p := by
  rw [latest, if_neg h]

theorem covers_add {w : Write β} {i : Nat} (h : i < w.len) : w.Covers (w.start + i) := by
  constructor
  · exact Nat.le_add_right w.start i
  · exact Nat.add_lt_add_left h w.start

/-- A write that is entirely outside a range leaves the range as it was. -/
theorem not_covers_of_disjoint {w : Write β} {p : Nat}
    (h : p < w.start ∨ w.start + w.len ≤ p) : ¬ w.Covers p := by
  intro hcov
  rcases h with hlow | hhigh
  · exact absurd hcov.1 (Nat.not_le_of_lt hlow)
  · exact absurd hcov.2 (Nat.not_lt_of_le hhigh)

theorem latest_of_covers {log : List (Write β)} {w : Write β} {p : Nat} (hmem : w ∈ log)
    (hcovers : w.Covers p) : exists b, latest log p = some b := by
  induction log with
  | nil => cases hmem
  | cons x log ih =>
      by_cases hx : x.Covers p
      · exact ⟨_, latest_cons_covers log hx⟩
      · rw [latest_cons_of_not_covers log hx]
        rcases List.mem_cons.mp hmem with heq | hrest
        · exact absurd (heq ▸ hcovers) hx
        · exact ih hrest

end WriteLog
