import Mathlib.Data.List.Perm.Basic
import Mathlib.Data.List.Perm.Subperm
import Mathlib.Tactic.Common

/-!
# A list that is kept in regions

A region of a list is the part with some property.  Replacing a region drops what
was in it and puts other rows in its place; the order of the rows does not matter.
-/

namespace Regions

variable {α : Type}

def replaceOwn (own : α -> Bool) (new old : List α) : List α :=
  old.filter (fun x => !own x) ++ new

/-- A region that is already as it should be. -/
theorem replaceOwn_settled {own : α -> Bool} {new old : List α}
    (h : (old.filter own).Perm new) : old.Perm (replaceOwn own new old) := by
  have hsplit := List.filter_append_perm own old
  exact hsplit.symm.trans (List.perm_append_comm.trans (h.append_left _))

theorem own_replaceOwn {own : α -> Bool} {new : List α} (old : List α)
    (h : forall x, x ∈ new -> own x = true) : (replaceOwn own new old).filter own = new := by
  unfold replaceOwn
  have hnone : (old.filter (fun x => !own x)).filter own = [] := by
    apply List.filter_eq_nil_iff.mpr
    intro x hx hown
    have hnot := (List.mem_filter.mp hx).2
    rw [hown] at hnot
    cases hnot
  rw [List.filter_append, hnone, List.nil_append, List.filter_eq_self.mpr h]

/-- Another region stays as it should be when the two agree on what they share. -/
theorem other_replaceOwn {own own' : α -> Bool} {new new' old : List α}
    (hsettled : (old.filter own').Perm new')
    (hshared : (new.filter own').Perm (new'.filter own)) :
    ((replaceOwn own new old).filter own').Perm new' := by
  unfold replaceOwn
  rw [List.filter_append, List.filter_comm]
  have hkept : ((old.filter own').filter (fun x => !own x)).Perm
      (new'.filter (fun x => !own x)) := hsettled.filter _
  have hsplit := List.filter_append_perm own new'
  exact (hkept.append hshared).trans (List.perm_append_comm.trans hsplit)

/-- As many rows as there should be, and each of those that should be there. -/
theorem perm_of_subset_of_length {old new : List α} (hnodup : new.Nodup)
    (hsub : forall x, x ∈ new -> x ∈ old) (hlen : old.length ≤ new.length) : old.Perm new :=
  ((List.subperm_of_subset hnodup hsub).perm_of_length_le hlen).symm

end Regions
