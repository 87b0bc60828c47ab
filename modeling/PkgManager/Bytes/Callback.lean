import Mathlib.Data.List.Basic
import Mathlib.Data.List.Infix
import Mathlib.Tactic.Common

/-!
# Reads through a callback

A callback is asked for a number of bytes at an offset.  It may keep a state and
may yield fewer bytes than it was asked for.  A caller that asks again for the
rest gets the bytes of the file, whatever the callback does in between.
-/

namespace Callback

/-- The bytes that a call for {lit}`count` bytes at {lit}`offset` yields. -/
abbrev ReadFn (σ : Type) := Nat -> Nat -> StateM σ (List UInt8)

def Serves {σ : Type} (rd : ReadFn σ) (file : List UInt8) : Prop :=
  forall count offset s,
    ((rd count offset).run s).1 <+: (file.drop offset).take count ∧
      (0 < count -> offset < file.length -> ((rd count offset).run s).1 ≠ [])

/-- Asking for the rest until all is there or a call yields nothing. -/
def fill {σ : Type} (rd : ReadFn σ) (count offset : Nat) : StateM σ (List UInt8) := do
  if count = 0 then pure []
  else
    let got <- rd count offset
    if _h : got = [] then pure []
    else
      let rest <- fill rd (count - got.length) (offset + got.length)
      pure (got ++ rest)
termination_by count
decreasing_by
  have := List.length_pos_iff.mpr _h
  omega

/-!
# Computations whose value does not depend on the state
-/

def Yields {σ α : Type} (x : StateM σ α) (a : α) : Prop :=
  forall s, (x.run s).1 = a

variable {σ α β : Type}

theorem yields_pure (a : α) : Yields (pure a : StateM σ α) a := by
  intro s
  rfl

theorem run_bind_fst (x : StateM σ α) (f : α -> StateM σ β) (s : σ) :
    ((x >>= f).run s).1 = ((f (x.run s).1).run (x.run s).2).1 := rfl

theorem yields_bind {x : StateM σ α} {f : α -> StateM σ β} {a : α} {b : β}
    (hx : Yields x a) (hf : Yields (f a) b) : Yields (x >>= f) b := by
  intro s
  rw [run_bind_fst, hx s]
  exact hf (x.run s).2

/-- The same computation step for step, without a state. -/
theorem yields_bind_id {x : StateM σ α} {f : α -> StateM σ β} {a : Id α} {g : α -> Id β}
    (hx : Yields x a) (hf : Yields (f a) (g a)) : Yields (x >>= f) (a >>= g : Id β) :=
  yields_bind hx hf

theorem yields_ite {c : Prop} [Decidable c] {x y : StateM σ α} {a b : α}
    (hx : c -> Yields x a) (hy : ¬ c -> Yields y b) :
    Yields (if c then x else y) (if c then a else b) := by
  by_cases h : c
  · rw [if_pos h, if_pos h]
    exact hx h
  · rw [if_neg h, if_neg h]
    exact hy h

theorem take_drop_split (file : List UInt8) (offset count n : Nat) (h : n ≤ count) :
    (file.drop offset).take n ++ (file.drop (offset + n)).take (count - n) =
      (file.drop offset).take count := by
  have hcount : count = n + (count - n) := by omega
  rw [<- List.drop_drop]
  conv_rhs => rw [hcount, List.take_add]

theorem fill_yields {rd : ReadFn σ} {file : List UInt8} (hrd : Serves rd file)
    (count offset : Nat) : Yields (fill rd count offset) ((file.drop offset).take count) := by
  induction count using Nat.strong_induction_on generalizing offset with
  | _ count ih =>
      intro s
      unfold fill
      by_cases hzero : count = 0
      · rw [if_pos hzero, hzero, List.take_zero]
        rfl
      · rw [if_neg hzero]
        have hpart := (hrd count offset s).1
        have hgot := (hrd count offset s).2 (Nat.pos_of_ne_zero hzero)
        rw [run_bind_fst]
        generalize (rd count offset).run s = r at hpart hgot
        rcases r with ⟨got, s'⟩
        dsimp only at hpart hgot ⊢
        by_cases hempty : got = []
        · rw [dif_pos hempty]
          have hend : file.length ≤ offset := by
            apply Nat.le_of_not_lt
            intro hlt
            exact hgot hlt hempty
          rw [List.drop_of_length_le hend, List.take_nil]
          rfl
        · rw [dif_neg hempty]
          have hpos := List.length_pos_iff.mpr hempty
          have hle : got.length ≤ count := by
            have := hpart.length_le
            rw [List.length_take] at this
            omega
          have htake : got = (file.drop offset).take got.length := by
            have := List.prefix_iff_eq_take.mp hpart
            rw [List.take_take, Nat.min_eq_left hle] at this
            exact this
          have hrest := ih (count - got.length) (by omega) (offset + got.length) s'
          rw [run_bind_fst, hrest]
          show got ++ (file.drop (offset + got.length)).take (count - got.length) = _
          rw [<- take_drop_split file offset count got.length hle, <- htake]

end Callback

/-!
# What a computation ensures

A property of the value that a computation yields, from any state it is started in.
-/

namespace Outcomes

class Postconditions (m : Type -> Type) [Monad m] where
  Ensures : forall {α : Type}, m α -> (α -> Prop) -> Prop
  ensures_true : forall {α : Type} (x : m α), Ensures x (fun _ => True)
  ensures_pure : forall {α : Type} {P : α -> Prop} {a : α}, P a -> Ensures (pure a) P
  ensures_bind : forall {α β : Type} {P : α -> Prop} {Q : β -> Prop} {x : m α} {f : α -> m β},
    Ensures x P -> (forall a, P a -> Ensures (f a) Q) -> Ensures (x >>= f) Q

open Postconditions

instance : Postconditions Id where
  Ensures := fun x P => P x
  ensures_true := fun _ => trivial
  ensures_pure := fun h => h
  ensures_bind := fun hx hf => hf _ hx

instance {σ : Type} : Postconditions (StateM σ) where
  Ensures := fun x P => forall s, P (x.run s).1
  ensures_true := fun _ _ => trivial
  ensures_pure := fun h _ => h
  ensures_bind := fun hx hf s => hf _ (hx s) _

variable {m : Type -> Type} [Monad m] [Postconditions m] {α β : Type}

theorem ensures_ite {c : Prop} [Decidable c] {P : α -> Prop} {x y : m α}
    (hx : c -> Ensures x P) (hy : ¬ c -> Ensures y P) : Ensures (if c then x else y) P := by
  by_cases h : c
  · rw [if_pos h]
    exact hx h
  · rw [if_neg h]
    exact hy h

/-- Nothing is asked of the first value. -/
theorem ensures_after {Q : β -> Prop} {x : m α} {f : α -> m β} (hf : forall a, Ensures (f a) Q) :
    Ensures (x >>= f) Q :=
  ensures_bind (ensures_true x) (fun a _ => hf a)

/-!
# Error codes
-/

/-- A value with the property, or an error code, which is not 0. -/
def Yields (P : α -> Prop) : Except Int α -> Prop
  | Except.error e => e ≠ 0
  | Except.ok a => P a

theorem yields_error {P : α -> Prop} {e : Int} (h : e ≠ 0) : Yields P (Except.error e) :=
  h

theorem yields_ite {c : Prop} [Decidable c] {P : α -> Prop} {x y : Except Int α}
    (hx : c -> Yields P x) (hy : ¬ c -> Yields P y) : Yields P (if c then x else y) := by
  by_cases h : c
  · rw [if_pos h]
    exact hx h
  · rw [if_neg h]
    exact hy h

theorem Yields.mono {P Q : α -> Prop} {x : Except Int α} (hx : Yields P x)
    (h : forall a, P a -> Q a) : Yields Q x := by
  cases x with
  | error e => exact hx
  | ok a => exact h a hx

end Outcomes
