import Mathlib.Data.List.Induction
import Mathlib.Data.List.Sort
import Mathlib.Order.Basic
import Mathlib.Tactic.Common

/-!
# Pages of a sorted listing

A page is the start of what stands behind a cursor, in the order of the keys.  It is
built by inserting into a list that is cut to the size of a page.  Going from the
last row of a page to the next page shows every row exactly when the cursor that a
row becomes stands where the row stood.
-/

namespace Paging

variable {α κ : Type} [LinearOrder κ] (key : α -> κ)

/-- No two rows have the same key. -/
def Ascending (rows : List α) : Prop :=
  rows.Pairwise (fun a b => key a < key b)

def insertBounded (size : Nat) (page : List α) (x : α) : List α :=
  (page.orderedInsert (fun a b => key a ≤ key b) x).take size

theorem take_orderedInsert (r : α -> α -> Prop) [DecidableRel r] (size : Nat) (rows : List α)
    (x : α) :
    ((rows.take size).orderedInsert r x).take size = (rows.orderedInsert r x).take size := by
  induction rows generalizing size with
  | nil => rw [List.take_nil]
  | cons b rest ih =>
      cases size with
      | zero => rfl
      | succ size =>
          rw [List.take_succ_cons]
          by_cases h : r x b
          · rw [List.orderedInsert_cons_of_le r _ h, List.orderedInsert_cons_of_le r _ h,
              List.take_succ_cons, List.take_succ_cons]
            cases size with
            | zero => rfl
            | succ size =>
                rw [List.take_succ_cons, List.take_succ_cons, List.take_take,
                  Nat.min_eq_left (Nat.le_succ size)]
          · rw [List.orderedInsert_of_not_le r _ h, List.orderedInsert_of_not_le r _ h,
              List.take_succ_cons, List.take_succ_cons, ih]

theorem foldl_insertBounded (size : Nat) (xs : List α) :
    xs.foldl (insertBounded key size) [] =
      ((xs.reverse).insertionSort (fun a b => key a ≤ key b)).take size := by
  induction xs using List.reverseRecOn with
  | nil => rw [List.foldl_nil, List.reverse_nil, List.insertionSort_nil, List.take_nil]
  | append_singleton rest x ih =>
      rw [List.foldl_append, List.foldl_cons, List.foldl_nil, ih, List.reverse_append,
        List.reverse_singleton, List.singleton_append, List.insertionSort_cons]
      exact take_orderedInsert _ size _ x

variable {key}

/-- A sorted listing is known by its rows. -/
theorem ascending_unique {rows rows' : List α} (h : Ascending key rows)
    (h' : Ascending key rows') (hperm : rows.Perm rows') : rows = rows' :=
  List.Perm.eq_of_pairwise (fun _ _ _ _ hlt hgt => absurd hlt hgt.not_gt) h h' hperm

theorem ascending_of_sorted {rows : List α} (h : rows.Pairwise (fun a b => key a ≤ key b))
    (hnodup : (rows.map key).Nodup) : Ascending key rows := by
  rw [List.Nodup, List.pairwise_map] at hnodup
  exact (h.and hnodup).imp (fun hboth => lt_of_le_of_ne hboth.1 hboth.2)

theorem nodup_keys {rows : List α} (h : Ascending key rows) : (rows.map key).Nodup := by
  rw [List.Nodup, List.pairwise_map]
  exact h.imp ne_of_lt

/-- The rows in whatever order give the first rows of the listing. -/
theorem foldl_insertBounded_eq {rows xs : List α} (h : Ascending key rows) (hperm : xs.Perm rows)
    (size : Nat) : xs.foldl (insertBounded key size) [] = rows.take size := by
  rw [foldl_insertBounded]
  have hsort := List.perm_insertionSort (fun a b => key a ≤ key b) xs.reverse
  have hall : (xs.reverse.insertionSort (fun a b => key a ≤ key b)).Perm rows :=
    hsort.trans ((List.reverse_perm xs).trans hperm)
  have hnodup : ((xs.reverse.insertionSort (fun a b => key a ≤ key b)).map key).Nodup :=
    ((hall.map key).nodup_iff).mpr (nodup_keys h)
  have hsorted := List.pairwise_insertionSort (fun a b => key a ≤ key b) xs.reverse
  rw [ascending_unique (ascending_of_sorted hsorted hnodup) h hall]

/-!
# Behind a cursor
-/

variable (key) in
/-- Without a cursor everything is left. -/
def behind (c : Option κ) (x : α) : Bool :=
  c.all (fun c => decide (c < key x))

theorem filter_behind_suffix {rows : List α} (h : Ascending key rows) (c : Option κ) :
    rows.filter (behind key c) <:+ rows := by
  induction rows with
  | nil => exact List.suffix_refl _
  | cons x rest ih =>
      rcases List.pairwise_cons.mp h with ⟨hfirst, hrest⟩
      cases hx : behind key c x with
      | true =>
          have hall : rest.filter (behind key c) = rest := by
            apply List.filter_eq_self.mpr
            intro y hy
            cases c with
            | none => rfl
            | some c => exact decide_eq_true ((of_decide_eq_true hx).trans (hfirst y hy))
          have heq : (x :: rest).filter (behind key c) = x :: rest := by
            rw [List.filter_cons_of_pos hx, hall]
          exact ⟨[], heq⟩
      | false =>
          rw [List.filter_cons_of_neg (by rw [hx]; exact Bool.false_ne_true)]
          exact (ih hrest).trans (List.suffix_cons x rest)

/-- Behind a row stands the rest of the listing. -/
theorem filter_behind_row {rows : List α} (h : Ascending key rows) {n : Nat} {e : α}
    (he : rows[n]? = some e) :
    rows.filter (fun x => decide (key e < key x)) = rows.drop (n + 1) := by
  induction rows generalizing n with
  | nil => cases he
  | cons x rest ih =>
      rcases List.pairwise_cons.mp h with ⟨hfirst, hrest⟩
      cases n with
      | zero =>
          cases he
          rw [List.filter_cons_of_neg (by simp), List.drop_succ_cons, List.drop_zero]
          exact List.filter_eq_self.mpr (fun y hy => decide_eq_true (hfirst y hy))
      | succ n =>
          rw [List.getElem?_cons_succ] at he
          have hlt := hfirst e (List.mem_of_getElem? he)
          rw [List.filter_cons_of_neg (by simpa using hlt.le), List.drop_succ_cons]
          exact ih hrest he

/-- Two ends of a listing that start alike are the same. -/
theorem suffix_unique {rows a b : List α} {x : α} (h : Ascending key rows) (ha : a <:+ rows)
    (hb : b <:+ rows) (hxa : a.head? = some x) (hxb : b.head? = some x) : a = b := by
  have hlen : forall t t' : List α, t <:+ rows -> t' <:+ t -> t.head? = some x ->
      t'.head? = some x -> t = t' := by
    intro t t' ht ht' hx hx'
    rcases ht' with ⟨front, rfl⟩
    cases front with
    | nil => rfl
    | cons y front =>
        cases hx
        have hmem : x ∈ front ++ t' :=
          List.mem_append_right _ (List.mem_of_mem_head? hx')
        have hasc : Ascending key (x :: (front ++ t')) := h.sublist ht.sublist
        exact absurd ((List.pairwise_cons.mp hasc).1 x hmem) (lt_irrefl _)
  rcases List.suffix_or_suffix_of_suffix ha hb with hab | hba
  · exact (hlen b a hb hab hxb hxa).symm
  · exact hlen a b ha hba hxa hxb

/-!
# Going through the pages
-/

section Browse

variable (key) (rows : List α) (size : Nat) (arrive : α -> Option (Option κ))

/-- The pages from a cursor on.  A row becomes the cursor that arrives for it. -/
inductive Browse : Option κ -> List (List α) -> Prop where
  | last {c : Option κ} (h : (rows.filter (behind key c)).length ≤ size) :
      Browse c [rows.filter (behind key c)]
  | next {c c' : Option κ} {e : α} {pages : List (List α)}
      (h : size < (rows.filter (behind key c)).length)
      (he : ((rows.filter (behind key c)).take size).getLast? = some e)
      (harrive : arrive e = some c') (hrest : Browse c' pages) :
      Browse c ((rows.filter (behind key c)).take size :: pages)

/-- What the last row of each page of some rows leaves is the next page on. -/
def LeavesRest (left : List α) : Prop :=
  forall k e, (k + 1) * size < left.length -> left[(k + 1) * size - 1]? = some e ->
    exists c, arrive e = some c ∧ rows.filter (behind key c) = left.drop ((k + 1) * size)

variable {key rows size arrive}

/-- Pages that show the rest of the rows start at the rest. -/
theorem Browse.starts (hrows : Ascending key rows) (hsize : 0 < size) {c : Option κ}
    {pages : List (List α)} (h : Browse key rows size arrive c pages)
    (hleft : pages.flatten <:+ rows) : rows.filter (behind key c) = pages.flatten := by
  cases h with
  | last _ => simp
  | next hlong he harrive hrest =>
      have hne : rows.filter (behind key c) ≠ [] := List.ne_nil_of_length_pos (by omega)
      rcases List.exists_cons_of_ne_nil hne with ⟨x, rest, hx⟩
      have hsuffix := filter_behind_suffix hrows c
      apply suffix_unique hrows hsuffix hleft (x := x)
      · rw [hx, List.head?_cons]
      · rcases Nat.exists_eq_succ_of_ne_zero hsize.ne' with ⟨n, hn⟩
        rw [hx, hn, List.take_succ_cons, List.flatten_cons, List.cons_append, List.head?_cons]

theorem getLast?_take {left : List α} (hsize : 0 < size) (hlong : size < left.length) :
    (left.take size).getLast? = left[size - 1]? := by
  rw [List.getLast?_eq_getElem?, List.length_take, Nat.min_eq_left hlong.le,
    List.getElem?_take_of_lt (Nat.sub_lt hsize Nat.one_pos)]

theorem border_succ (hsize : 0 < size) (k : Nat) :
    (k + 1 + 1) * size - 1 = size + ((k + 1) * size - 1) := by
  rw [Nat.succ_mul, Nat.add_comm]
  exact Nat.add_sub_assoc (Nat.mul_pos (Nat.succ_pos k) hsize) size

theorem Browse.leavesRest (hrows : Ascending key rows) (hsize : 0 < size) {c : Option κ}
    {pages : List (List α)} (h : Browse key rows size arrive c pages)
    (hleft : pages.flatten <:+ rows) : LeavesRest key rows size arrive pages.flatten := by
  induction h with
  | last hshort =>
      intro k e hk
      rw [List.flatten_singleton] at hk
      have hmul := Nat.le_mul_of_pos_left size (Nat.succ_pos k)
      exact absurd (hmul.trans_lt hk) (Nat.not_lt_of_le hshort)
  | @next c c' e pages hlong he harrive hrest ih =>
      have hstart := (Browse.next hlong he harrive hrest).starts hrows hsize hleft
      rw [<- hstart]
      rw [<- hstart] at hleft
      generalize rows.filter (behind key c) = left at *
      have htail : pages.flatten = left.drop size := by
        rw [List.flatten_cons] at hstart
        nth_rewrite 1 [<- List.take_append_drop size left] at hstart
        exact (List.append_cancel_left hstart).symm
      have hsuffix : pages.flatten <:+ rows := by
        rw [htail]
        exact (List.drop_suffix _ _).trans hleft
      have hnext := hrest.starts hrows hsize hsuffix
      rw [htail] at hnext
      intro k e' hk he'
      cases k with
      | zero =>
          rw [Nat.zero_add, Nat.one_mul] at he' ⊢
          rw [getLast?_take hsize hlong, he'] at he
          cases he
          exact ⟨c', harrive, hnext⟩
      | succ k =>
          have hrestOf := ih hsuffix k e'
          rw [htail, List.length_drop, List.getElem?_drop, List.drop_drop] at hrestOf
          have hsucc : (k + 1 + 1) * size = size + (k + 1) * size := by
            rw [Nat.succ_mul, Nat.add_comm]
          rw [border_succ hsize] at he'
          rw [hsucc] at hk ⊢
          exact hrestOf (Nat.lt_sub_of_add_lt (by rwa [Nat.add_comm])) he'

theorem leavesRest_browse (hsize : 0 < size) {left : List α} {c : Option κ}
    (hc : rows.filter (behind key c) = left) (h : LeavesRest key rows size arrive left) :
    exists pages, Browse key rows size arrive c pages ∧ pages.flatten = left := by
  generalize hn : left.length = n
  induction n using Nat.strongRecOn generalizing left c with
  | ind n ih =>
      subst hn
      rcases Nat.lt_or_ge size left.length with hlong | hshort
      · have hin : size - 1 < left.length := (Nat.sub_le _ _).trans_lt hlong
        rcases h 0 left[size - 1] (by rwa [Nat.zero_add, Nat.one_mul])
          (by rw [Nat.zero_add, Nat.one_mul]; exact List.getElem?_eq_getElem hin) with
          ⟨c', harrive, hrest⟩
        rw [Nat.zero_add, Nat.one_mul] at hrest
        have hdrop : LeavesRest key rows size arrive (left.drop size) := by
          intro k e hk he
          rw [List.length_drop] at hk
          have hsucc : (k + 1 + 1) * size = size + (k + 1) * size := by
            rw [Nat.succ_mul, Nat.add_comm]
          rw [List.getElem?_drop, <- border_succ hsize] at he
          rcases h (k + 1) e (by omega) he with ⟨c'', harrive', hrest'⟩
          rw [hsucc] at hrest'
          rw [List.drop_drop]
          exact ⟨c'', harrive', hrest'⟩
        rcases ih (left.drop size).length (by rw [List.length_drop]; omega) hrest hdrop rfl with
          ⟨pages, hpages, hflat⟩
        have hlast : ((rows.filter (behind key c)).take size).getLast? = some left[size - 1] := by
          rw [hc, getLast?_take hsize hlong, List.getElem?_eq_getElem hin]
        refine ⟨_, Browse.next (by rw [hc]; exact hlong) hlast harrive hpages, ?_⟩
        rw [List.flatten_cons, hflat, hc, List.take_append_drop]
      · refine ⟨_, Browse.last (by rw [hc]; exact hshort), ?_⟩
        rw [List.flatten_singleton, hc]

/-- A cursor stands where the row stood. -/
def Keeps (key : α -> κ) (rows : List α) (c : Option κ) (e : α) : Prop :=
  forall x, x ∈ rows -> behind key c x = decide (key e < key x)

theorem filter_eq_drop_iff (hrows : Ascending key rows) {n : Nat} {e : α}
    (he : rows[n]? = some e) (c : Option κ) :
    rows.filter (behind key c) = rows.drop (n + 1) ↔ Keeps key rows c e := by
  rw [<- filter_behind_row hrows he]
  constructor
  · intro h x hx
    have hmem : x ∈ rows.filter (behind key c) ↔
        x ∈ rows.filter (fun x => decide (key e < key x)) := by rw [h]
    rw [List.mem_filter, List.mem_filter] at hmem
    apply Bool.eq_iff_iff.mpr
    constructor
    · intro hb
      exact (hmem.mp ⟨hx, hb⟩).2
    · intro hb
      exact (hmem.mpr ⟨hx, hb⟩).2
  · intro h
    exact List.filter_congr h

/-- Browsing shows every row once and in order exactly when it starts in front of all rows
and the cursor for the last row of each page keeps its place. -/
theorem browse_covers_iff (hrows : Ascending key rows) (hsize : 0 < size) (c : Option κ) :
    (exists pages, Browse key rows size arrive c pages ∧ pages.flatten = rows) ↔
      (forall x, x ∈ rows -> behind key c x = true) ∧
        forall k e, (k + 1) * size < rows.length -> rows[(k + 1) * size - 1]? = some e ->
          exists c', arrive e = some c' ∧ Keeps key rows c' e := by
  have hborder : forall k, (k + 1) * size - 1 + 1 = (k + 1) * size := fun k =>
    Nat.sub_add_cancel (Nat.mul_pos (Nat.succ_pos k) hsize)
  constructor
  · intro h
    rcases h with ⟨pages, hpages, hflat⟩
    have hsuffix : pages.flatten <:+ rows := hflat ▸ List.suffix_refl _
    constructor
    · apply List.filter_eq_self.mp
      exact (hpages.starts hrows hsize hsuffix).trans hflat
    · intro k e hk he
      have hrest := hpages.leavesRest hrows hsize hsuffix
      rw [hflat] at hrest
      rcases hrest k e hk he with ⟨c', harrive, hdrop⟩
      refine ⟨c', harrive, (filter_eq_drop_iff hrows he c').mp ?_⟩
      rw [hborder]
      exact hdrop
  · intro h
    rcases h with ⟨hstart, hborders⟩
    apply leavesRest_browse hsize (List.filter_eq_self.mpr hstart)
    intro k e hk he
    rcases hborders k e hk he with ⟨c', harrive, hkeeps⟩
    refine ⟨c', harrive, ?_⟩
    have hdrop := (filter_eq_drop_iff hrows he c').mpr hkeeps
    rw [hborder] at hdrop
    exact hdrop

end Browse

end Paging
