import Mathlib.Data.List.Induction
import Mathlib.Data.List.Basic
import Mathlib.Tactic.Common

/-!
# Folds that keep the first value

A field that is only written while it is empty ends with the first value that is
not empty.
-/

namespace Folds

variable {α β σ τ : Type}

/-- The first text that is not empty. -/
def firstText (texts : List (List α)) : List α :=
  match texts with
  | [] => []
  | t :: rest => if t = [] then firstText rest else t

def keepFirst (f : β -> List α) (old : List α) (x : β) : List α :=
  if old = [] then f x else old

theorem keepFirst_of_ne {f : β -> List α} {old : List α} (h : old ≠ []) (xs : List β) :
    xs.foldl (keepFirst f) old = old := by
  induction xs with
  | nil => rfl
  | cons x rest ih =>
      have hstep : keepFirst f old x = old := if_neg h
      rw [List.foldl_cons, hstep]
      exact ih

theorem foldl_keepFirst (f : β -> List α) (xs : List β) :
    xs.foldl (keepFirst f) [] = firstText (xs.map f) := by
  induction xs with
  | nil => rfl
  | cons x rest ih =>
      have hstep : keepFirst f [] x = f x := if_pos rfl
      rw [List.foldl_cons, List.map_cons, hstep]
      unfold firstText
      by_cases h : f x = []
      · rw [if_pos h, h]
        exact ih
      · rw [if_neg h]
        exact keepFirst_of_ne h rest

/-- The first value, and whether it came from a source of some kind. -/
def keepFirstFrom (f : β -> List α) (p : β -> Bool) (s : List α × Bool) (x : β) :
    List α × Bool :=
  (keepFirst f s.1 x, s.2 || (p x && decide (f x ≠ [] ∧ s.1 = [])))

/-- The source of the first value. -/
def firstSource (f : β -> List α) (xs : List β) : Option β :=
  xs.find? (fun x => decide (f x ≠ []))

theorem keepFirstFrom_of_ne {f : β -> List α} {p : β -> Bool} {old : List α} (h : old ≠ [])
    (b : Bool) (xs : List β) : xs.foldl (keepFirstFrom f p) (old, b) = (old, b) := by
  induction xs with
  | nil => rfl
  | cons x rest ih =>
      have hstep : keepFirstFrom f p (old, b) x = (old, b) := by
        simp [keepFirstFrom, keepFirst, h]
      rw [List.foldl_cons, hstep]
      exact ih

theorem foldl_keepFirstFrom (f : β -> List α) (p : β -> Bool) (b : Bool) (xs : List β) :
    xs.foldl (keepFirstFrom f p) ([], b) =
      (firstText (xs.map f), b || (firstSource f xs).any p) := by
  induction xs with
  | nil => simp [firstText, firstSource]
  | cons x rest ih =>
      rw [List.foldl_cons, List.map_cons]
      unfold firstText firstSource
      rw [List.find?_cons]
      by_cases h : f x = []
      · have hstep : keepFirstFrom f p ([], b) x = ([], b) := by
          simp [keepFirstFrom, keepFirst, h]
        rw [hstep, if_pos h, ih]
        simp [h, firstSource]
      · have hstep : keepFirstFrom f p ([], b) x = (f x, b || p x) := by
          simp [keepFirstFrom, keepFirst, h]
        rw [hstep, if_neg h, keepFirstFrom_of_ne h]
        simp [h]

/-!
# Values that replace earlier ones
-/

/-- Some sources write the field even when it is not empty. -/
def override (f : β -> List α) (p : β -> Bool) (old : List α) (x : β) : List α :=
  if p x then f x else keepFirst f old x

/-- The list from the last such source on; the whole list when there is none. -/
def fromLast (p : β -> Bool) : List β -> List β
  | [] => []
  | x :: rest => if rest.any p then fromLast p rest else x :: rest

theorem foldl_keepFirst_from (f : β -> List α) (xs : List β) (old : List α) :
    xs.foldl (keepFirst f) old = firstText (old :: xs.map f) := by
  unfold firstText
  by_cases h : old = []
  · rw [if_pos h, h, foldl_keepFirst]
  · rw [if_neg h, keepFirst_of_ne h]

theorem foldl_override_none (f : β -> List α) {p : β -> Bool} {xs : List β}
    (h : xs.any p = false) (old : List α) :
    xs.foldl (override f p) old = firstText (old :: xs.map f) := by
  rw [<- foldl_keepFirst_from]
  induction xs generalizing old with
  | nil => rfl
  | cons x rest ih =>
      rw [List.any_cons, Bool.or_eq_false_iff] at h
      have hstep : override f p old x = keepFirst f old x := by
        unfold override
        rw [h.1]
        rfl
      rw [List.foldl_cons, List.foldl_cons, hstep, ih h.2]

theorem foldl_override_some (f : β -> List α) {p : β -> Bool} {xs : List β}
    (h : xs.any p = true) (old : List α) :
    xs.foldl (override f p) old = firstText ((fromLast p xs).map f) := by
  induction xs generalizing old with
  | nil => cases h
  | cons x rest ih =>
      rw [List.foldl_cons]
      unfold fromLast
      cases hrest : rest.any p with
      | true =>
          rw [if_pos rfl]
          exact ih hrest (override f p old x)
      | false =>
          rw [List.any_cons, hrest, Bool.or_false] at h
          have hstep : override f p old x = f x := if_pos h
          rw [hstep, foldl_override_none f hrest]
          rfl

theorem fromLast_none {p : β -> Bool} {xs : List β} (h : xs.any p = false) :
    fromLast p xs = xs := by
  cases xs with
  | nil => rfl
  | cons x rest =>
      rw [List.any_cons, Bool.or_eq_false_iff] at h
      unfold fromLast
      rw [h.2]
      rfl

theorem foldl_override (f : β -> List α) (p : β -> Bool) (xs : List β) :
    xs.foldl (override f p) [] = firstText ((fromLast p xs).map f) := by
  cases h : xs.any p with
  | true => exact foldl_override_some f h []
  | false =>
      rw [foldl_override_none f h, fromLast_none h]
      rfl

/-!
# Folds seen through a function
-/

/-- What is seen of the state changes only as the fold over what is seen. -/
theorem foldl_observe {step : σ -> β -> σ} {f : σ -> τ} {g : τ -> β -> τ}
    (h : forall s x, f (step s x) = g (f s) x) (xs : List β) (s : σ) :
    f (xs.foldl step s) = xs.foldl g (f s) := by
  induction xs generalizing s with
  | nil => rfl
  | cons x rest ih =>
      rw [List.foldl_cons, List.foldl_cons, ih, h]

/-- Of the values that replace each other the last one stays. -/
theorem foldl_last (p : β -> Bool) (g : β -> τ) (xs : List β) (t : τ) :
    xs.foldl (fun t x => if p x then g x else t) t = ((xs.filter p).getLast?).elim t g := by
  induction xs using List.reverseRecOn generalizing t with
  | nil => rfl
  | append_singleton rest x ih =>
      rw [List.foldl_append, List.foldl_cons, List.foldl_nil, ih, List.filter_append]
      cases hp : p x with
      | true => simp [hp]
      | false => simp [hp]

theorem getLast?_filter {p : β -> Bool} {xs : List β} {x : β} (h : xs.getLast? = some x)
    (hp : p x = true) : (xs.filter p).getLast? = some x := by
  rcases List.getLast?_eq_some_iff.mp h with ⟨rest, hrest⟩
  rw [hrest, List.filter_append, List.filter_singleton, hp]
  exact List.getLast?_concat

theorem foldl_or (f : β -> Bool) (xs : List β) (b : Bool) :
    xs.foldl (fun b x => b || f x) b = (b || xs.any f) := by
  induction xs generalizing b with
  | nil => exact (Bool.or_false b).symm
  | cons x rest ih =>
      rw [List.foldl_cons, ih, List.any_cons, Bool.or_assoc]

end Folds
