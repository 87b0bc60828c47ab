import Mathlib.Data.List.Sort
import Mathlib.Order.Defs.LinearOrder
import Mathlib.Tactic.Common

/-!
# Comparison functions

A comparison answers with the sign of an integer.  Comparisons are put one behind the other: the
next one is asked only where the ones before it say that two elements are the same.
-/

namespace Comparing

variable {α : Type}

/-- The members of a set stand in one strict order. -/
structure TotalOn (cmp : α -> α -> Int) (s : α -> Prop) : Prop where
  swap : forall a b, s a -> s b -> (cmp a b < 0 ↔ 0 < cmp b a)
  trans : forall a b c, s a -> s b -> s c -> cmp a b < 0 -> cmp b c < 0 -> cmp a c < 0
  distinct : forall a b, s a -> s b -> a ≠ b -> cmp a b ≠ 0

theorem TotalOn.subset {cmp : α -> α -> Int} {s t : α -> Prop} (h : TotalOn cmp s)
    (hsub : forall a, t a -> s a) : TotalOn cmp t where
  swap a b ha hb := h.swap a b (hsub a ha) (hsub b hb)
  trans a b c ha hb hc := h.trans a b c (hsub a ha) (hsub b hb) (hsub c hc)
  distinct a b ha hb := h.distinct a b (hsub a ha) (hsub b hb)

theorem TotalOn.congr {cmp cmp' : α -> α -> Int} {s : α -> Prop} (h : TotalOn cmp s)
    (heq : forall a b, s a -> s b -> cmp' a b = cmp a b) : TotalOn cmp' s where
  swap a b ha hb := by
    rw [heq a b ha hb, heq b a hb ha]
    exact h.swap a b ha hb
  trans a b c ha hb hc hab hbc := by
    rw [heq a b ha hb] at hab
    rw [heq b c hb hc] at hbc
    rw [heq a c ha hc]
    exact h.trans a b c ha hb hc hab hbc
  distinct a b ha hb hne := by
    rw [heq a b ha hb]
    exact h.distinct a b ha hb hne

/-!
# Keys
-/

section Keys

variable {κ : Type} [LinearOrder κ]

/-- Elements are compared by a key of theirs. -/
structure ByKey (cmp : α -> α -> Int) (key : α -> κ) (s : α -> Prop) : Prop where
  less : forall a b, s a -> s b -> (cmp a b < 0 ↔ key a < key b)
  same : forall a b, s a -> s b -> (cmp a b = 0 ↔ key a = key b)

theorem ByKey.greater {cmp : α -> α -> Int} {key : α -> κ} {s : α -> Prop}
    (h : ByKey cmp key s) {a b : α} (ha : s a) (hb : s b) : 0 < cmp a b ↔ key b < key a := by
  have hless := h.less a b ha hb
  have hsame := h.same a b ha hb
  rcases lt_trichotomy (key a) (key b) with hlt | heq | hgt
  · have hcmp := hless.mpr hlt
    exact ⟨fun hpos => absurd hpos hcmp.not_gt, fun hgt => absurd hgt hlt.not_gt⟩
  · have hcmp := hsame.mpr heq
    exact ⟨fun hpos => absurd hcmp hpos.ne', fun hgt => absurd heq hgt.ne'⟩
  · refine ⟨fun _ => hgt, fun _ => ?_⟩
    rcases lt_trichotomy (cmp a b) 0 with hneg | hzero | hpos
    · exact absurd (hless.mp hneg) hgt.not_gt
    · exact absurd (hsame.mp hzero) hgt.ne'
    · exact hpos

theorem ByKey.swap {cmp : α -> α -> Int} {key : α -> κ} {s : α -> Prop}
    (h : ByKey cmp key s) {a b : α} (ha : s a) (hb : s b) : cmp a b < 0 ↔ 0 < cmp b a :=
  (h.less a b ha hb).trans (h.greater hb ha).symm

/-- A key that tells all members apart orders them. -/
theorem ByKey.totalOn {cmp : α -> α -> Int} {key : α -> κ} {s : α -> Prop}
    (h : ByKey cmp key s) (hinj : forall a b, s a -> s b -> key a = key b -> a = b) :
    TotalOn cmp s where
  swap _ _ ha hb := h.swap ha hb
  trans a b c ha hb hc hab hbc := by
    rw [h.less a b ha hb] at hab
    rw [h.less b c hb hc] at hbc
    rw [h.less a c ha hc]
    exact hab.trans hbc
  distinct a b ha hb hne hzero := hne (hinj a b ha hb ((h.same a b ha hb).mp hzero))

/-!
# One comparison behind another
-/

def thenBy (first second : α -> α -> Int) (a b : α) : Int :=
  if first a b ≠ 0 then first a b else second a b

theorem thenBy_same {first second : α -> α -> Int} {a b : α} (h : first a b = 0) :
    thenBy first second a b = second a b :=
  if_neg (fun hne => hne h)

theorem thenBy_neg {first second : α -> α -> Int} {key : α -> κ} {s : α -> Prop}
    (h : ByKey first key s) {a b : α} (ha : s a) (hb : s b) :
    thenBy first second a b < 0 ↔ key a < key b ∨ (key a = key b ∧ second a b < 0) := by
  have hless := h.less a b ha hb
  have hsame := h.same a b ha hb
  unfold thenBy
  split
  · rename_i hne
    rw [hless]
    exact ⟨Or.inl, fun hor => hor.elim id (fun hand => absurd (hsame.mpr hand.left) hne)⟩
  · rename_i hzero
    have hkey := hsame.mp (not_not.mp hzero)
    simp [hkey]

theorem thenBy_pos {first second : α -> α -> Int} {key : α -> κ} {s : α -> Prop}
    (h : ByKey first key s) {a b : α} (ha : s a) (hb : s b) :
    0 < thenBy first second a b ↔ key b < key a ∨ (key a = key b ∧ 0 < second a b) := by
  have hgreater := h.greater ha hb
  have hsame := h.same a b ha hb
  unfold thenBy
  split
  · rename_i hne
    rw [hgreater]
    exact ⟨Or.inl, fun hor => hor.elim id (fun hand => absurd (hsame.mpr hand.left) hne)⟩
  · rename_i hzero
    have hkey := hsame.mp (not_not.mp hzero)
    simp [hkey]

/-- Members are in one order exactly when those with the same key are. -/
theorem totalOn_thenBy {first second : α -> α -> Int} {key : α -> κ} {s : α -> Prop}
    (h : ByKey first key s) :
    TotalOn (thenBy first second) s ↔
      forall k, TotalOn second (fun a => s a ∧ key a = k) := by
  constructor
  · intro htotal k
    apply (htotal.subset (fun a (ha : s a ∧ key a = k) => ha.left)).congr
    intro a b ha hb
    exact (thenBy_same ((h.same a b ha.left hb.left).mpr (ha.right.trans hb.right.symm))).symm
  · intro hclass
    refine ⟨?_, ?_, ?_⟩
    · intro a b ha hb
      rw [thenBy_neg h ha hb, thenBy_pos h hb ha]
      by_cases hkey : key a = key b
      · have hswap := (hclass (key b)).swap a b ⟨ha, hkey⟩ ⟨hb, rfl⟩
        simp [hkey, hswap]
      · simp [hkey, Ne.symm hkey]
    · intro a b c ha hb hc hab hbc
      rw [thenBy_neg h ha hb] at hab
      rw [thenBy_neg h hb hc] at hbc
      rw [thenBy_neg h ha hc]
      rcases hab with hab | ⟨hab, hless⟩
      · rcases hbc with hbc | ⟨hbc, _⟩
        · exact Or.inl (hab.trans hbc)
        · exact Or.inl (hbc ▸ hab)
      · rcases hbc with hbc | ⟨hbc, hmore⟩
        · exact Or.inl (hab ▸ hbc)
        · exact Or.inr ⟨hab.trans hbc, (hclass (key c)).trans a b c ⟨ha, hab.trans hbc⟩
            ⟨hb, hbc⟩ ⟨hc, rfl⟩ hless hmore⟩
    · intro a b ha hb hne
      by_cases hkey : key a = key b
      · rw [thenBy_same ((h.same a b ha hb).mpr hkey)]
        exact (hclass (key b)).distinct a b ⟨ha, hkey⟩ ⟨hb, rfl⟩ hne
      · unfold thenBy
        rw [if_pos (fun hzero => hkey ((h.same a b ha hb).mp hzero))]
        exact fun hzero => hkey ((h.same a b ha hb).mp hzero)

end Keys

/-!
# Sorting
-/

theorem TotalOn.antisymm {cmp : α -> α -> Int} {s : α -> Prop} (h : TotalOn cmp s) {a b : α}
    (ha : s a) (hb : s b) (hab : cmp a b ≤ 0) (hba : cmp b a ≤ 0) : a = b := by
  by_contra hne
  have hdistinct := h.distinct a b ha hb hne
  have hswap := h.swap a b ha hb
  omega

theorem TotalOn.total {cmp : α -> α -> Int} {s : α -> Prop} (h : TotalOn cmp s) {a b : α}
    (ha : s a) (hb : s b) : cmp a b ≤ 0 ∨ cmp b a ≤ 0 := by
  have hswap := h.swap a b ha hb
  have hback := h.swap b a hb ha
  omega

theorem TotalOn.le_trans {cmp : α -> α -> Int} {s : α -> Prop} (h : TotalOn cmp s) {a b c : α}
    (ha : s a) (hb : s b) (hc : s c) (hab : cmp a b ≤ 0) (hbc : cmp b c ≤ 0) : cmp a c ≤ 0 := by
  by_cases hsame : a = b
  · rw [hsame]
    exact hbc
  · by_cases hsame' : b = c
    · rw [<- hsame']
      exact hab
    · have hless := h.distinct a b ha hb hsame
      have hmore := h.distinct b c hb hc hsame'
      have htrans := h.trans a b c ha hb hc (by omega) (by omega)
      omega

theorem pairwise_mergeSort {cmp : α -> α -> Int} {xs : List α}
    (h : TotalOn cmp (fun a => a ∈ xs)) :
    (xs.mergeSort (fun a b => decide (cmp a b ≤ 0))).Pairwise (fun a b => cmp a b ≤ 0) := by
  -- The order is one of the members only, so the members are sorted as elements of a subtype.
  let le (a b : { a // a ∈ xs }) : Bool := decide (cmp a.val b.val ≤ 0)
  have hsorted : (xs.attach.mergeSort le).Pairwise (fun a b => le a b = true) := by
    apply List.pairwise_mergeSort
    · intro a b c hab hbc
      simp only [le, decide_eq_true_eq] at hab hbc ⊢
      exact h.le_trans a.property b.property c.property hab hbc
    · intro a b
      simp only [le, Bool.or_eq_true, decide_eq_true_eq]
      exact h.total a.property b.property
  have hmap : (xs.attach.mergeSort le).map Subtype.val =
      xs.mergeSort (fun a b => decide (cmp a b ≤ 0)) := by
    rw [List.map_mergeSort (s := fun a b => decide (cmp a b ≤ 0)) (fun _ _ _ _ => rfl),
      List.attach_map_subtype_val]
  rw [<- hmap, List.pairwise_map]
  exact hsorted.imp (fun hle => of_decide_eq_true hle)

/-- What is sorted does not depend on the order of the elements. -/
theorem mergeSort_perm_eq {cmp : α -> α -> Int} {xs ys : List α}
    (h : TotalOn cmp (fun a => a ∈ xs)) (hperm : ys.Perm xs) :
    ys.mergeSort (fun a b => decide (cmp a b ≤ 0)) =
      xs.mergeSort (fun a b => decide (cmp a b ≤ 0)) := by
  have hys : TotalOn cmp (fun a => a ∈ ys) := h.subset (fun _ ha => hperm.mem_iff.mp ha)
  apply List.Perm.eq_of_pairwise _ (pairwise_mergeSort hys) (pairwise_mergeSort h)
  · exact (List.mergeSort_perm ys _).trans (hperm.trans (List.mergeSort_perm xs _).symm)
  · intro a b ha hb hab hba
    exact h.antisymm (hperm.mem_iff.mp (List.mem_mergeSort.mp ha)) (List.mem_mergeSort.mp hb)
      hab hba

end Comparing
