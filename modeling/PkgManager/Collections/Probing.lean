import Mathlib.Data.Finset.Card
import Mathlib.Data.Finset.Image
import Mathlib.Logic.Function.Basic
import Mathlib.Order.Nat

/-!
# Tables that are searched place by place

Every key has a place where its search starts.  A search goes from there to the next places,
around the end, until it meets the key or a place that holds nothing.  Nothing is ever removed.
-/

namespace Probing

variable {E K : Type}

section
variable (keyOf : E -> Option K) (n : Nat) (start : K -> Nat)

/-- The place that a search looks at after so many others. -/
def place (k : K) (i : Nat) : Nat :=
  (start k + i) % n

/-- A search for the key goes on behind this place. -/
def Passed (t : Nat -> E) (k : K) (i : Nat) : Prop :=
  exists k', keyOf (t (place n start k i)) = some k' ∧ k' ≠ k

/-- Every entry is met by the search for its key. -/
structure Chained (t : Nat -> E) : Prop where
  met : forall {idx k}, idx < n -> keyOf (t idx) = some k ->
    exists i, i < n ∧ place n start k i = idx ∧ forall j, j < i -> Passed keyOf n start t k j

/-- A place where a search ends: it comes behind places that are passed, and holds the key or
nothing. -/
structure Ends (t : Nat -> E) (k : K) (idx : Nat) : Prop where
  bound : idx < n
  way : exists i, i < n ∧ place n start k i = idx ∧ forall j, j < i -> Passed keyOf n start t k j
  found : keyOf (t idx) = none ∨ keyOf (t idx) = some k

variable [DecidableEq K]

/-- The first of the places from {lit}`idx` on that holds the key or nothing. -/
def probe (t : Nat -> E) (k : K) : Nat -> Nat -> Option Nat
  | 0, _ => none
  | tries + 1, idx =>
      match keyOf (t idx) with
      | none => some idx
      | some k' => if k' = k then some idx else probe t k tries ((idx + 1) % n)

def search (t : Nat -> E) (k : K) : Option Nat :=
  probe keyOf n t k n (place n start k 0)

/-- The entry of a key. -/
def lookup (t : Nat -> E) (k : K) : Option E :=
  (search keyOf n start t k).bind (fun idx => if keyOf (t idx) = some k then some (t idx) else none)

end

variable {keyOf : E -> Option K} {n : Nat} {start : K -> Nat} {t : Nat -> E} {k : K}

/-!
# Places
-/

theorem place_lt (hn : 0 < n) (k : K) (i : Nat) : place n start k i < n :=
  Nat.mod_lt _ hn

theorem place_succ (k : K) (i : Nat) :
    (place n start k i + 1) % n = place n start k (i + 1) := by
  unfold place
  rw [Nat.mod_add_mod, Nat.add_assoc]

/-- A search that never stops comes to every place. -/
theorem exists_place (start : K -> Nat) (k : K) {idx : Nat} (hidx : idx < n) :
    exists i, i < n ∧ place n start k i = idx := by
  have hn : 0 < n := Nat.zero_lt_of_lt hidx
  have hs : start k % n < n := Nat.mod_lt _ hn
  refine ⟨(idx + (n - start k % n)) % n, Nat.mod_lt _ hn, ?_⟩
  have hsum : start k % n + (idx + (n - start k % n)) = idx + n := by
    rw [Nat.add_left_comm, Nat.add_sub_of_le (Nat.le_of_lt hs)]
  unfold place
  rw [Nat.add_mod_mod, <- Nat.mod_add_mod, hsum, Nat.add_mod_right, Nat.mod_eq_of_lt hidx]

theorem not_passed_iff {i : Nat} :
    ¬Passed keyOf n start t k i ↔
      keyOf (t (place n start k i)) = none ∨ keyOf (t (place n start k i)) = some k := by
  unfold Passed
  cases keyOf (t (place n start k i)) with
  | none => simp
  | some k' => simp

/-- The search for a key that is held ends at its entry. -/
theorem Chained.ends (h : Chained keyOf n start t) {idx : Nat} (hidx : idx < n)
    (hkey : keyOf (t idx) = some k) : Ends keyOf n start t k idx :=
  ⟨hidx, h.met hidx hkey, Or.inr hkey⟩

/-- The search for a key that is not held ends at a place that holds nothing, if there is one. -/
theorem ends_of_absent (start : K -> Nat)
    (hno : forall idx, idx < n -> keyOf (t idx) ≠ some k)
    (hroom : exists idx, idx < n ∧ keyOf (t idx) = none) :
    exists idx, Ends keyOf n start t k idx ∧ keyOf (t idx) = none := by
  rcases hroom with ⟨idx, hidx, hnone⟩
  have hn : 0 < n := Nat.zero_lt_of_lt hidx
  rcases exists_place start k hidx with ⟨i, hi, hplace⟩
  have hsome : exists i, i < n ∧ keyOf (t (place n start k i)) = none :=
    ⟨i, hi, by rw [hplace]; exact hnone⟩
  classical
  rcases Nat.find_spec hsome with ⟨hlt, hfree⟩
  refine ⟨place n start k (Nat.find hsome),
    ⟨place_lt hn _ _, ⟨_, hlt, rfl, ?_⟩, Or.inl hfree⟩, hfree⟩
  intro j hj
  have hmin := Nat.find_min hsome hj
  cases hkey : keyOf (t (place n start k j)) with
  | none => exact absurd ⟨hj.trans hlt, hkey⟩ hmin
  | some k' =>
      refine ⟨k', hkey, ?_⟩
      intro heq
      rw [heq] at hkey
      exact hno _ (place_lt hn _ _) hkey

/-!
# Writing

The entry of a key is written at the place where the search for the key ends.
-/

variable {idx : Nat} {e : E}

theorem Passed.update (hkey : keyOf e = some k) {k' : K} (hne : k' ≠ k) {i : Nat}
    (hpassed : Passed keyOf n start t k' i) :
    Passed keyOf n start (Function.update t idx e) k' i := by
  unfold Passed
  by_cases hat : place n start k' i = idx
  · rw [hat, Function.update_self]
    exact ⟨k, hkey, hne.symm⟩
  · rw [Function.update_of_ne hat]
    exact hpassed

/-- The way to the place of the entry does not go through it. -/
theorem Ends.passed_update_self (h : Ends keyOf n start t k idx) {i : Nat}
    (hpassed : Passed keyOf n start t k i) :
    Passed keyOf n start (Function.update t idx e) k i := by
  rcases hpassed with ⟨k', hkey', hne⟩
  have hat : place n start k i ≠ idx := by
    intro hat
    rw [hat] at hkey'
    rcases h.found with hnone | hsome
    · rw [hnone] at hkey'
      cases hkey'
    · rw [hsome] at hkey'
      exact hne (Option.some.inj hkey').symm
  refine ⟨k', ?_, hne⟩
  rw [Function.update_of_ne hat]
  exact hkey'

theorem Chained.update (h : Chained keyOf n start t) (hends : Ends keyOf n start t k idx)
    (hkey : keyOf e = some k) : Chained keyOf n start (Function.update t idx e) := by
  constructor
  intro idx' k' hidx' hkey'
  by_cases hat : idx' = idx
  · rw [hat, Function.update_self, hkey] at hkey'
    cases hkey'
    rcases hends.way with ⟨i, hi, hplace, hpassed⟩
    exact ⟨i, hi, hplace.trans hat.symm, fun j hj => hends.passed_update_self (hpassed j hj)⟩
  · rw [Function.update_of_ne hat] at hkey'
    rcases h.met hidx' hkey' with ⟨i, hi, hplace, hpassed⟩
    refine ⟨i, hi, hplace, fun j hj => ?_⟩
    by_cases hk : k' = k
    · subst hk
      exact hends.passed_update_self (hpassed j hj)
    · exact (hpassed j hj).update hkey hk

/-!
# Searches
-/

variable [DecidableEq K]

/-- The first place that is not passed ends a search. -/
theorem probe_first {i j tries : Nat}
    (hpassed : forall m, i ≤ m -> m < j -> Passed keyOf n start t k m) (hij : i ≤ j)
    (hin : j < i + tries) (hstop : ¬Passed keyOf n start t k j) :
    probe keyOf n t k tries (place n start k i) = some (place n start k j) := by
  induction tries generalizing i with
  | zero => exact absurd (Nat.lt_of_le_of_lt hij hin) (Nat.lt_irrefl i)
  | succ tries ih =>
      rw [probe]
      rcases Nat.eq_or_lt_of_le hij with heq | hlt
      · subst heq
        cases hkey : keyOf (t (place n start k i)) with
        | none => rfl
        | some k' =>
            have hk : k' = k := by
              by_contra hne
              exact hstop ⟨k', hkey, hne⟩
            dsimp only
            rw [if_pos hk]
      · rcases hpassed i (Nat.le_refl i) hlt with ⟨k', hkey, hne⟩
        have hrest := ih (fun m hm => hpassed m (Nat.le_of_succ_le hm)) hlt
          (Nat.succ_add_eq_add_succ i tries ▸ hin)
        rw [hkey]
        dsimp only
        rw [if_neg hne, place_succ, hrest]

/-- A place that is reached and not passed is where the search ends. -/
theorem search_of_way {i : Nat} (hi : i < n)
    (hpassed : forall j, j < i -> Passed keyOf n start t k j)
    (hstop : ¬Passed keyOf n start t k i) :
    search keyOf n start t k = some (place n start k i) := by
  apply probe_first (fun m _ hm => hpassed m hm) (Nat.zero_le i) _ hstop
  rw [Nat.zero_add]
  exact hi

theorem Ends.search_eq {idx : Nat} (h : Ends keyOf n start t k idx) :
    search keyOf n start t k = some idx := by
  rcases h.way with ⟨i, hi, hplace, hpassed⟩
  have hstop : ¬Passed keyOf n start t k i := by
    rw [not_passed_iff, hplace]
    exact h.found
  rw [search_of_way hi hpassed hstop, hplace]

/-!
# Entries
-/

theorem lookup_of_held (h : Chained keyOf n start t) {idx : Nat} (hidx : idx < n)
    (hkey : keyOf (t idx) = some k) : lookup keyOf n start t k = some (t idx) := by
  unfold lookup
  rw [(h.ends hidx hkey).search_eq, Option.bind_some, if_pos hkey]

theorem lookup_of_absent (hno : forall idx, idx < n -> keyOf (t idx) ≠ some k)
    (hroom : exists idx, idx < n ∧ keyOf (t idx) = none) :
    lookup keyOf n start t k = none := by
  rcases ends_of_absent start hno hroom with ⟨idx, hends, hfree⟩
  unfold lookup
  rw [hends.search_eq, Option.bind_some, if_neg]
  rw [hfree]
  exact Option.some_ne_none k ∘ Eq.symm

/-- A key is held at one place only. -/
theorem Chained.unique (h : Chained keyOf n start t) {idx idx' : Nat} (hidx : idx < n)
    (hidx' : idx' < n) (hkey : keyOf (t idx) = some k) (hkey' : keyOf (t idx') = some k) :
    idx = idx' := by
  have heq := (h.ends hidx hkey).search_eq
  rw [(h.ends hidx' hkey').search_eq] at heq
  exact (Option.some.inj heq).symm

/-- A table of fewer keys than places has room. -/
theorem Chained.room (h : Chained keyOf n start t) {keys : Finset K} (hfew : keys.card < n)
    (hkeys : forall idx, idx < n -> forall k, keyOf (t idx) = some k -> k ∈ keys) :
    exists idx, idx < n ∧ keyOf (t idx) = none := by
  by_contra hfull
  have hall : forall idx, idx < n -> exists k, keyOf (t idx) = some k := by
    intro idx hidx
    cases hkey : keyOf (t idx) with
    | none => exact absurd ⟨idx, hidx, hkey⟩ hfull
    | some k => exact ⟨k, rfl⟩
  have hmaps : Set.MapsTo (fun idx => keyOf (t idx)) (Finset.range n : Set Nat)
      (keys.image some : Set (Option K)) := by
    intro idx hidx
    have hlt := Finset.mem_range.mp hidx
    rcases hall idx hlt with ⟨k, hkey⟩
    dsimp only
    rw [hkey]
    exact Finset.mem_coe.mpr (Finset.mem_image_of_mem some (hkeys idx hlt k hkey))
  have hinj : Set.InjOn (fun idx => keyOf (t idx)) (Finset.range n : Set Nat) := by
    intro a ha b hb hab
    have hlta := Finset.mem_range.mp ha
    rcases hall a hlta with ⟨k, hkey⟩
    dsimp only at hab
    exact h.unique hlta (Finset.mem_range.mp hb) hkey (hab ▸ hkey)
  have hcard := Finset.card_le_card_of_injOn _ hmaps hinj
  rw [Finset.card_range] at hcard
  exact absurd (hcard.trans Finset.card_image_le) (Nat.not_le_of_lt hfew)

/-- The entry that is written is found. -/
theorem Chained.lookup_update_self (h : Chained keyOf n start t)
    (hends : Ends keyOf n start t k idx) (hkey : keyOf e = some k) :
    lookup keyOf n start (Function.update t idx e) k = some e := by
  have hself : Function.update t idx e idx = e := Function.update_self idx e t
  rw [lookup_of_held (h.update hends hkey) hends.bound (by rw [hself]; exact hkey), hself]

/-- The entries of other keys stay as they are. -/
theorem Chained.lookup_update_of_ne (h : Chained keyOf n start t)
    (hends : Ends keyOf n start t k idx) (hkey : keyOf e = some k) {k' : K} (hne : k' ≠ k)
    (hroom : exists idx', idx' < n ∧ keyOf (Function.update t idx e idx') = none) :
    lookup keyOf n start (Function.update t idx e) k' = lookup keyOf n start t k' := by
  have hsame : forall idx', keyOf (t idx') = some k' -> Function.update t idx e idx' = t idx' := by
    intro idx' hkey'
    apply Function.update_of_ne
    intro hat
    rw [hat] at hkey'
    rcases hends.found with hnone | hsome
    · rw [hnone] at hkey'
      cases hkey'
    · rw [hsome] at hkey'
      exact hne (Option.some.inj hkey').symm
  by_cases hheld : exists idx', idx' < n ∧ keyOf (t idx') = some k'
  · rcases hheld with ⟨idx', hidx', hkey'⟩
    rw [lookup_of_held h hidx' hkey',
      lookup_of_held (h.update hends hkey) hidx' (by rw [hsame idx' hkey']; exact hkey'),
      hsame idx' hkey']
  · have hno : forall idx', idx' < n -> keyOf (t idx') ≠ some k' :=
      fun idx' hidx' hkey' => hheld ⟨idx', hidx', hkey'⟩
    have hno' : forall idx', idx' < n -> keyOf (Function.update t idx e idx') ≠ some k' := by
      intro idx' hidx' hkey'
      by_cases hat : idx' = idx
      · rw [hat, Function.update_self, hkey] at hkey'
        exact hne (Option.some.inj hkey').symm
      · rw [Function.update_of_ne hat] at hkey'
        exact hno idx' hidx' hkey'
    have hroom' : exists idx', idx' < n ∧ keyOf (t idx') = none := by
      rcases hroom with ⟨idx', hidx', hnone⟩
      refine ⟨idx', hidx', ?_⟩
      by_cases hat : idx' = idx
      · rw [hat, Function.update_self, hkey] at hnone
        cases hnone
      · rw [Function.update_of_ne hat] at hnone
        exact hnone
    rw [lookup_of_absent hno' hroom, lookup_of_absent hno hroom']

end Probing
