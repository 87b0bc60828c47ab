import Mathlib.Data.List.Basic
import Mathlib.Tactic.ByContra
import PkgManager.Transition.System

/-!
# Programs run by a pool of threads

A program is given by the atomic sections of its threads: what one thread does
to the shared state between two points at which other threads may run.  A pool
holds the shared state and the point every thread has reached; a thread is
named by its position, so that a finished thread keeps its name.
-/

namespace Transition

variable {σ : Type _} {π : Type _} {ν : Type _} {α : Type _}

structure Pool (σ : Type _) (π : Type _) where
  shared : σ
  threads : List π

/-- What one atomic section leaves: the shared state, the point the thread goes
on from, and the thread it has created. -/
structure Section (σ : Type _) (π : Type _) where
  shared : σ
  point : π
  created : Option π := none

/-- The entry points are given by calls from outside; a section may read the
answer that the environment gives to it. -/
structure Program (σ : Type _) (π : Type _) (ν : Type _) (α : Type _) where
  entry : ν -> π
  step : Pool σ π -> Nat -> π -> α -> Option (Section σ π)

inductive Move (ν : Type _) (α : Type _) where
  | call (c : ν)
  | run (t : Nat) (a : α)
deriving DecidableEq

def Pool.after (p : Pool σ π) (t : Nat) (o : Section σ π) : Pool σ π where
  shared := o.shared
  threads := p.threads.set t o.point ++ o.created.toList

def Pool.enter (p : Pool σ π) (point : π) : Pool σ π where
  shared := p.shared
  threads := p.threads ++ [point]

def Program.system (P : Program σ π ν α) : System (Pool σ π) (Move ν α) where
  next
    | p, Move.call c => some (p.enter (P.entry c))
    | p, Move.run t a =>
        match p.threads[t]? with
        | none => none
        | some point => (P.step p t point a).map (p.after t)

/-- The section that a thread is about to run. -/
def Program.sectionAt (P : Program σ π ν α) (p : Pool σ π) (t : Nat) (a : α) :
    Option (Section σ π) :=
  match p.threads[t]? with
  | none => none
  | some point => P.step p t point a

theorem sectionAt_eq {P : Program σ π ν α} {p : Pool σ π} {t : Nat} {a : α} {point : π}
    (hpoint : p.threads[t]? = some point) : P.sectionAt p t a = P.step p t point a := by
  rw [Program.sectionAt, hpoint]

/-!
# What one step can do
-/

theorem next_call (P : Program σ π ν α) (p : Pool σ π) (c : ν) :
    P.system.next p (Move.call c) = some (p.enter (P.entry c)) :=
  rfl

theorem next_run {P : Program σ π ν α} {p q : Pool σ π} {t : Nat} {a : α}
    (h : P.system.next p (Move.run t a) = some q) :
    exists point o, p.threads[t]? = some point ∧ P.step p t point a = some o ∧
      q = p.after t o := by
  change (match p.threads[t]? with
    | none => none
    | some point => (P.step p t point a).map (p.after t)) = some q at h
  cases hpoint : p.threads[t]? with
  | none =>
      rw [hpoint] at h
      cases h
  | some point =>
      rw [hpoint] at h
      rcases Option.map_eq_some_iff.mp h with ⟨o, hstep, hq⟩
      exact ⟨point, o, rfl, hstep, hq.symm⟩

theorem next_run_eq {P : Program σ π ν α} {p : Pool σ π} {t : Nat} {a : α} {point : π}
    {o : Section σ π} (hpoint : p.threads[t]? = some point)
    (hstep : P.step p t point a = some o) :
    P.system.next p (Move.run t a) = some (p.after t o) := by
  change (match p.threads[t]? with
    | none => none
    | some point => (P.step p t point a).map (p.after t)) = some (p.after t o)
  rw [hpoint]
  simp [hstep]

/-!
# Threads of the next pool
-/

theorem mem_enter {p : Pool σ π} {point x : π} (h : x ∈ (p.enter point).threads) :
    x ∈ p.threads ∨ x = point := by
  rcases List.mem_append.mp h with hold | hnew
  · exact Or.inl hold
  · exact Or.inr (List.mem_singleton.mp hnew)

theorem mem_after {p : Pool σ π} {t : Nat} {o : Section σ π} {x : π}
    (h : x ∈ (p.after t o).threads) :
    x ∈ p.threads ∨ x = o.point ∨ x ∈ o.created := by
  rcases List.mem_append.mp h with hold | hnew
  · rcases List.mem_or_eq_of_mem_set hold with hmem | heq
    · exact Or.inl hmem
    · exact Or.inr (Or.inl heq)
  · exact Or.inr (Or.inr (Option.mem_toList.mp hnew))

theorem lt_length_of_getElem? {p : Pool σ π} {t : Nat} {point : π}
    (h : p.threads[t]? = some point) : t < p.threads.length :=
  (List.getElem?_eq_some_iff.mp h).1

theorem getElem?_enter_of_some {p : Pool σ π} {point x : π} {u : Nat}
    (h : p.threads[u]? = some x) : (p.enter point).threads[u]? = some x := by
  have hlt : u < p.threads.length := lt_length_of_getElem? h
  change (p.threads ++ [point])[u]? = some x
  rw [List.getElem?_append_left hlt]
  exact h

theorem getElem?_after_self {p : Pool σ π} {t : Nat} {o : Section σ π} {point : π}
    (h : p.threads[t]? = some point) : (p.after t o).threads[t]? = some o.point := by
  have hlt : t < p.threads.length := lt_length_of_getElem? h
  change (p.threads.set t o.point ++ o.created.toList)[t]? = some o.point
  rw [List.getElem?_append_left (by rw [List.length_set]; exact hlt)]
  rw [List.getElem?_set_self hlt]

theorem getElem?_after_of_ne {p : Pool σ π} {t u : Nat} {o : Section σ π} {x : π}
    (hne : u ≠ t) (h : p.threads[u]? = some x) :
    (p.after t o).threads[u]? = some x := by
  have hlt : u < p.threads.length := lt_length_of_getElem? h
  change (p.threads.set t o.point ++ o.created.toList)[u]? = some x
  rw [List.getElem?_append_left (by rw [List.length_set]; exact hlt)]
  rw [List.getElem?_set_ne (Ne.symm hne)]
  exact h

/-- A thread of the pool after an entry was there before, or is the new one. -/
theorem getElem?_enter {p : Pool σ π} {point x : π} {u : Nat}
    (h : (p.enter point).threads[u]? = some x) :
    p.threads[u]? = some x ∨ (u = p.threads.length ∧ x = point) := by
  change (p.threads ++ [point])[u]? = some x at h
  by_cases hlt : u < p.threads.length
  · rw [List.getElem?_append_left hlt] at h
    exact Or.inl h
  · rw [List.getElem?_append_right (Nat.le_of_not_lt hlt)] at h
    rcases List.getElem?_eq_some_iff.mp h with ⟨hlen, hx⟩
    have hu : u = p.threads.length := by
      simp only [List.length_singleton] at hlen
      omega
    refine Or.inr ⟨hu, ?_⟩
    simpa using hx.symm

/-- A thread of the pool after a step is the one that ran, the one it created,
or one that did not move. -/
theorem getElem?_after {p : Pool σ π} {t u : Nat} {o : Section σ π} {x point : π}
    (hpoint : p.threads[t]? = some point)
    (h : (p.after t o).threads[u]? = some x) :
    (u = t ∧ x = o.point) ∨ (u ≠ t ∧ p.threads[u]? = some x) ∨
      (u = p.threads.length ∧ o.created = some x) := by
  have ht : t < p.threads.length := lt_length_of_getElem? hpoint
  by_cases hut : u = t
  · subst hut
    rw [getElem?_after_self hpoint] at h
    cases h
    exact Or.inl ⟨rfl, rfl⟩
  · change (p.threads.set t o.point ++ o.created.toList)[u]? = some x at h
    by_cases hlt : u < p.threads.length
    · rw [List.getElem?_append_left (by rw [List.length_set]; exact hlt)] at h
      rw [List.getElem?_set_ne (Ne.symm hut)] at h
      exact Or.inr (Or.inl ⟨hut, h⟩)
    · rw [List.getElem?_append_right (by rw [List.length_set]; omega)] at h
      rw [List.length_set] at h
      cases hc : o.created with
      | none =>
          rw [hc] at h
          simp at h
      | some y =>
          rw [hc] at h
          rcases List.getElem?_eq_some_iff.mp h with ⟨hlen, hx⟩
          have hu : u = p.threads.length := by
            simp only [Option.toList_some, List.length_singleton] at hlen
            omega
          refine Or.inr (Or.inr ⟨hu, ?_⟩)
          have hyx : y = x := by simpa using hx
          rw [hyx]

/-!
# Counting threads

The number of threads at which a condition holds changes only by the thread
that runs and the thread it creates.
-/

def countThreads (f : π -> Bool) (p : Pool σ π) : Nat :=
  p.threads.countP f

theorem countThreads_enter (f : π -> Bool) (p : Pool σ π) (point : π) :
    countThreads f (p.enter point) = countThreads f p + (if f point then 1 else 0) := by
  change List.countP f (p.threads ++ [point]) = List.countP f p.threads + _
  rw [List.countP_append, List.countP_singleton]

theorem countThreads_after {f : π -> Bool} {p : Pool σ π} {t : Nat} {point : π}
    (hpoint : p.threads[t]? = some point) (o : Section σ π) :
    countThreads f (p.after t o) + (if f point then 1 else 0) =
      countThreads f p + (if f o.point then 1 else 0) + o.created.toList.countP f := by
  rcases List.getElem?_eq_some_iff.mp hpoint with ⟨hlt, hget⟩
  change List.countP f (p.threads.set t o.point ++ o.created.toList) + _ =
    List.countP f p.threads + _ + _
  rw [List.countP_append, List.countP_set hlt, hget]
  have hpos : (if f point then 1 else 0) ≤ List.countP f p.threads := by
    split
    · rename_i hf
      exact List.countP_pos_iff.mpr ⟨point, List.mem_of_getElem? hpoint, hf⟩
    · exact Nat.zero_le _
  omega

/-!
# What a list of places holds

A change of one place changes what all of them hold by what that place gains and loses.
-/

theorem count_flatMap_set {β γ : Type _} [BEq γ] (f : β -> List γ) (c : γ) {places : List β}
    {i : Nat} {x : β} (h : places[i]? = some x) (y : β) :
    ((places.set i y).flatMap f).count c + (f x).count c =
      (places.flatMap f).count c + (f y).count c := by
  induction places generalizing i with
  | nil => cases h
  | cons z rest ih =>
      cases i with
      | zero =>
          obtain rfl : z = x := Option.some.inj h
          rw [List.set_cons_zero, List.flatMap_cons, List.flatMap_cons, List.count_append,
            List.count_append]
          omega
      | succ i =>
          have hrest := ih (i := i) h
          rw [List.set_cons_succ, List.flatMap_cons, List.flatMap_cons, List.count_append,
            List.count_append]
          omega

/-!
# Invariants of a pool

A condition on the shared state and one on every thread are kept by a run when
each section keeps both and no section breaks the condition of another thread.
-/

structure PoolInv (good : σ -> Prop) (goodAt : σ -> π -> Prop) (p : Pool σ π) : Prop where
  shared : good p.shared
  threads : forall point, point ∈ p.threads -> goodAt p.shared point

theorem poolInv_next {P : Program σ π ν α} {good : σ -> Prop} {goodAt : σ -> π -> Prop}
    {p q : Pool σ π} {l : Move ν α}
    (hentry : forall c, l = Move.call c -> goodAt p.shared (P.entry c))
    (hown : forall t point a o, l = Move.run t a -> p.threads[t]? = some point ->
      P.step p t point a = some o ->
        good o.shared ∧ goodAt o.shared o.point ∧
          forall x, x ∈ o.created -> goodAt o.shared x)
    (hother : forall t point a o x, l = Move.run t a -> p.threads[t]? = some point ->
      P.step p t point a = some o -> x ∈ p.threads -> goodAt p.shared x ->
        goodAt o.shared x)
    (hinv : PoolInv good goodAt p) (hnext : P.system.next p l = some q) :
    PoolInv good goodAt q := by
  cases l with
  | call c =>
      rw [next_call] at hnext
      cases hnext
      constructor
      · exact hinv.shared
      · intro x hx
        rcases mem_enter hx with hold | hnew
        · exact hinv.threads x hold
        · rw [hnew]
          exact hentry c rfl
  | run t a =>
      rcases next_run hnext with ⟨point, o, hpoint, hstep, hq⟩
      rw [hq]
      have hgood := hown t point a o rfl hpoint hstep
      constructor
      · exact hgood.1
      · intro x hx
        rcases mem_after hx with hold | hsame | hnew
        · exact hother t point a o x rfl hpoint hstep hold (hinv.threads x hold)
        · rw [hsame]
          exact hgood.2.1
        · exact hgood.2.2 x hnew

end Transition
