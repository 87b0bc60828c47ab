import Mathlib.Data.List.Forall2
import Mathlib.Tactic.Common

/-!
# Lists put together from pieces

Each member of a list gives a piece of another list, and the pieces stand in the same order.
-/

namespace Pieces

variable {α β γ : Type}

inductive Joined (R : α -> List β -> Prop) : List α -> List β -> Prop
  | nil : Joined R [] []
  | cons {a : α} {rest : List α} {piece tail : List β} (hone : R a piece)
      (hrest : Joined R rest tail) : Joined R (a :: rest) (piece ++ tail)

variable {R S : α -> List β -> Prop} {xs : List α} {out : List β}

theorem Joined.mono (hj : Joined R xs out)
    (h : forall a piece, a ∈ xs -> R a piece -> S a piece) : Joined S xs out := by
  induction hj with
  | nil => exact Joined.nil
  | cons hone _ ih =>
      have hfirst := h _ _ List.mem_cons_self hone
      exact Joined.cons hfirst (ih (fun a piece ha => h a piece (List.mem_cons_of_mem _ ha)))

/-- A list with one piece for each member can be put together in one way. -/
theorem Joined.unique (hj : Joined R xs out) {other : List β} (hother : Joined R xs other)
    (h : forall a p q, R a p -> R a q -> p = q) : out = other := by
  induction hj generalizing other with
  | nil =>
      cases hother
      rfl
  | cons hone _ ih =>
      cases hother with
      | cons hsame hrest => rw [h _ _ _ hone hsame, ih hrest]

theorem joined_map (f : γ -> α) {zs : List γ} :
    Joined R (zs.map f) out ↔ Joined (fun c piece => R (f c) piece) zs out := by
  constructor
  · intro hj
    generalize hxs : zs.map f = xs at hj
    induction hj generalizing zs with
    | nil =>
        rw [List.map_eq_nil_iff.mp hxs]
        exact Joined.nil
    | cons hone _ ih =>
        rcases List.map_eq_cons_iff.mp hxs with ⟨z, rest, rfl, rfl, hrest⟩
        exact Joined.cons hone (ih hrest)
  · intro hj
    induction hj with
    | nil => exact Joined.nil
    | cons hone _ ih => exact Joined.cons hone ih

theorem joined_zipIdx (k : Nat) :
    Joined R xs out ↔ Joined (fun p piece => R p.1 piece) (xs.zipIdx k) out := by
  conv_lhs => rw [<- List.zipIdx_map_fst k xs]
  exact joined_map Prod.fst

theorem exists_of_forall₂ {T : α -> β -> Prop} {as : List α} {bs : List β}
    (h : List.Forall₂ T as bs) {a : α} (ha : a ∈ as) : exists b, T a b := by
  rcases List.getElem_of_mem ha with ⟨i, hi, rfl⟩
  exact ⟨_, h.get hi (h.length_eq ▸ hi)⟩

end Pieces
