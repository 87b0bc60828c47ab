import Mathlib.Data.List.Basic
import Mathlib.Order.Basic
import Mathlib.Logic.Basic
import Mathlib.Tactic.Common

/-!
# Partial transition systems and their runs

A system is a partial next-state function over labels.  A run records the pairs
of state and label it goes through, so that a property may speak about the
steps taken and not only about the states reached.
-/

namespace Transition

variable {σ : Type _} {ι : Type _}

structure System (σ : Type _) (ι : Type _) where
  next : σ -> ι -> Option σ

/-!
# Runs

A run is restricted to the steps that satisfy a condition on the state before
the step and the label; the condition that always holds gives all runs.
-/

inductive Run (S : System σ ι) (ok : σ -> ι -> Prop) (s : σ) :
    List (σ × ι) -> σ -> Prop where
  | nil : Run S ok s [] s
  | snoc {tr : List (σ × ι)} {t u : σ} {l : ι} :
      Run S ok s tr t -> ok t l -> S.next t l = some u ->
        Run S ok s (tr ++ [(t, l)]) u

theorem run_single {S : System σ ι} {ok : σ -> ι -> Prop} {s t : σ} {l : ι}
    (hok : ok s l) (hnext : S.next s l = some t) :
    Run S ok s [(s, l)] t := by
  have hnil : Run S ok s [] s := Run.nil
  exact Run.snoc hnil hok hnext

theorem run_append {S : System σ ι} {ok : σ -> ι -> Prop} {s t u : σ}
    {tr tr' : List (σ × ι)} (hst : Run S ok s tr t) (htu : Run S ok t tr' u) :
    Run S ok s (tr ++ tr') u := by
  induction htu with
  | nil => simpa using hst
  | snoc _ hok hnext ih =>
      rw [← List.append_assoc]
      exact Run.snoc ih hok hnext

/-!
# Invariants

The step lemma of an invariant gives the run lemma.
-/

theorem run_invariant {S : System σ ι} {ok : σ -> ι -> Prop} {s t : σ}
    {tr : List (σ × ι)} {inv : σ -> Prop}
    (hstep : forall {s t : σ} {l : ι},
      inv s -> ok s l -> S.next s l = some t -> inv t)
    (hrun : Run S ok s tr t) (hinit : inv s) : inv t := by
  induction hrun with
  | nil => exact hinit
  | snoc _ hok hnext ih => exact hstep ih hok hnext

/-- An invariant may speak about the trace of the run so far. -/
theorem run_history_invariant {S : System σ ι} {ok : σ -> ι -> Prop} {s t : σ}
    {tr : List (σ × ι)} {inv : List (σ × ι) -> σ -> Prop}
    (hstep : forall {tr : List (σ × ι)} {s t : σ} {l : ι},
      inv tr s -> ok s l -> S.next s l = some t -> inv (tr ++ [(s, l)]) t)
    (hrun : Run S ok s tr t) (hinit : inv [] s) : inv tr t := by
  induction hrun with
  | nil => exact hinit
  | snoc _ hok hnext ih => exact hstep ih hok hnext

/-!
# Execution

Executing a list of labels gives a run, which is how a concrete run is built.
-/

def exec (S : System σ ι) : σ -> List ι -> Option σ
  | s, [] => some s
  | s, l :: ls =>
      match S.next s l with
      | none => none
      | some t => exec S t ls

/-- Execute a list of labels as long as every step meets the condition. -/
def execWhile (S : System σ ι) (ok : σ -> ι -> Prop)
    [forall s l, Decidable (ok s l)] : σ -> List ι -> Option σ
  | s, [] => some s
  | s, l :: ls =>
      if ok s l then
        match S.next s l with
        | none => none
        | some t => execWhile S ok t ls
      else none

theorem run_of_execWhile {S : System σ ι} {ok : σ -> ι -> Prop}
    [forall s l, Decidable (ok s l)] {ls : List ι} {s t : σ}
    (h : execWhile S ok s ls = some t) :
    exists tr, tr.map Prod.snd = ls ∧ Run S ok s tr t := by
  induction ls generalizing s with
  | nil =>
      cases h
      exact ⟨[], rfl, Run.nil⟩
  | cons l ls ih =>
      rw [execWhile] at h
      split at h
      · rename_i hok
        cases hnext : S.next s l with
        | none =>
            rw [hnext] at h
            cases h
        | some u =>
            rw [hnext] at h
            rcases ih h with ⟨tr, hls, hrun⟩
            refine ⟨(s, l) :: tr, ?_, ?_⟩
            · simp [hls]
            · exact run_append (run_single hok hnext) hrun
      · cases h

/-- The pairs of state and label that an execution goes through, and where it ends. -/
def traceWhile (S : System σ ι) (ok : σ -> ι -> Prop)
    [forall s l, Decidable (ok s l)] : σ -> List ι -> Option (List (σ × ι) × σ)
  | s, [] => some ([], s)
  | s, l :: ls =>
      if ok s l then
        match S.next s l with
        | none => none
        | some t => (traceWhile S ok t ls).map (fun r => ((s, l) :: r.1, r.2))
      else none

theorem run_of_traceWhile {S : System σ ι} {ok : σ -> ι -> Prop}
    [forall s l, Decidable (ok s l)] {ls : List ι} {s t : σ} {tr : List (σ × ι)}
    (h : traceWhile S ok s ls = some (tr, t)) : Run S ok s tr t := by
  induction ls generalizing s tr with
  | nil =>
      cases h
      exact Run.nil
  | cons l ls ih =>
      rw [traceWhile] at h
      split at h
      · rename_i hok
        cases hnext : S.next s l with
        | none =>
            rw [hnext] at h
            cases h
        | some u =>
            rw [hnext] at h
            rcases Option.map_eq_some_iff.mp h with ⟨r, hr, heq⟩
            cases heq
            exact run_append (run_single hok hnext) (ih hr)
      · cases h

theorem run_of_exec {S : System σ ι} {ls : List ι} {s t : σ}
    (h : exec S s ls = some t) :
    exists tr, tr.map Prod.snd = ls ∧ Run S (fun _ _ => True) s tr t := by
  induction ls generalizing s with
  | nil =>
      cases h
      exact ⟨[], rfl, Run.nil⟩
  | cons l ls ih =>
      rw [exec] at h
      cases hnext : S.next s l with
      | none =>
          rw [hnext] at h
          cases h
      | some u =>
          rw [hnext] at h
          rcases ih h with ⟨tr, hls, hrun⟩
          refine ⟨(s, l) :: tr, ?_, ?_⟩
          · simp [hls]
          · exact run_append (run_single trivial hnext) hrun

end Transition

/-!
# Runs that come to an end

A rank that falls with every step ends a run.  Some steps keep the rank: while
they last, something is pending, and what is pending does not stay so forever.
-/

namespace Progress

variable {σ ρ : Type}

/-- The rank falls again and again. -/
theorem ends_of_falls (trace : Nat -> σ) (rank : σ -> Nat) (Done : σ -> Prop)
    (h : forall t, Done (trace t) ∨ exists t', rank (trace t') < rank (trace t)) :
    exists t, Done (trace t) := by
  have key : forall n t, rank (trace t) = n -> exists t, Done (trace t) := by
    intro n
    induction n using Nat.strongRecOn with
    | ind n ih =>
        intro t ht
        rcases h t with hdone | ⟨t', hlt⟩
        · exact ⟨t, hdone⟩
        · exact ih _ (ht ▸ hlt) t' rfl
  exact key _ 0 rfl

/-- A step without progress keeps what is pending. -/
theorem ends_of_fair (trace : Nat -> σ) (rank : σ -> Nat) (Done : σ -> Prop)
    (Pending : σ -> ρ -> Prop)
    (hstep : forall t, ¬ Done (trace t) -> rank (trace (t + 1)) < rank (trace t) ∨
      (rank (trace (t + 1)) = rank (trace t) ∧ (exists r, Pending (trace t) r) ∧
        forall r, Pending (trace t) r -> Pending (trace (t + 1)) r))
    (hfair : forall t r, Pending (trace t) r -> exists t', t ≤ t' ∧ ¬ Pending (trace t') r) :
    exists t, Done (trace t) := by
  by_contra hnever
  have hrun : forall t, ¬ Done (trace t) := fun t hdone => hnever ⟨t, hdone⟩
  apply hnever
  apply ends_of_falls trace rank Done
  intro t
  right
  by_contra hno
  have hge : forall t', rank (trace t) ≤ rank (trace t') := fun t' =>
    Nat.le_of_not_lt (fun hlt => hno ⟨t', hlt⟩)
  rcases hstep t (hrun t) with hfall | ⟨_, ⟨r, hr⟩, _⟩
  · exact absurd hfall (Nat.not_lt_of_le (hge (t + 1)))
  · rcases hfair t r hr with ⟨t', hle, hgone⟩
    -- The rank cannot fall any more, so what is pending at `t` stays pending.
    have hkept : forall k,
        rank (trace (t + k)) = rank (trace t) ∧ Pending (trace (t + k)) r := by
      intro k
      induction k with
      | zero => exact ⟨rfl, hr⟩
      | succ k ih =>
          rcases ih with ⟨hrank, hpend⟩
          rcases hstep (t + k) (hrun (t + k)) with hfall | ⟨hsame, _, hkeep⟩
          · rw [hrank] at hfall
            exact absurd hfall (Nat.not_lt_of_le (hge (t + k + 1)))
          · exact ⟨hsame.trans hrank, hkeep r hpend⟩
    have hpend := (hkept (t' - t)).2
    rw [Nat.add_sub_cancel' hle] at hpend
    exact hgone hpend

end Progress
