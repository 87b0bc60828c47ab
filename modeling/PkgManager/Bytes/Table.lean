import Mathlib.Data.List.Lookmap
import Mathlib.Tactic.Common

/-!
# Tables that are updated in place

A row that is looked up by a key is changed where it stands; a key that no row has
gets a row at the end.
-/

namespace Table

variable {α : Type}

/-- Changes the first row that is asked for. -/
def replaceFirst (p : α -> Bool) (g : α -> α) (rows : List α) : List α :=
  rows.lookmap (fun r => if p r then some (g r) else none)

def upsert (p : α -> Bool) (g : α -> α) (new : α) (rows : List α) : List α :=
  if rows.any p then replaceFirst p g rows else rows ++ [new]

theorem replaceFirst_hit {p : α -> Bool} (g : α -> α) {r : α} (h : p r = true)
    (rows : List α) : replaceFirst p g (r :: rows) = g r :: rows :=
  List.lookmap_cons_some _ _ (if_pos h)

theorem replaceFirst_miss {p : α -> Bool} (g : α -> α) {r : α} (h : p r = false)
    (rows : List α) : replaceFirst p g (r :: rows) = r :: replaceFirst p g rows :=
  List.lookmap_cons_none _ _ (if_neg (by rw [h]; exact Bool.false_ne_true))

theorem replaceFirst_same {p : α -> Bool} {g : α -> α} {rows : List α}
    (h : forall r, r ∈ rows -> p r = true -> g r = r) : replaceFirst p g rows = rows := by
  induction rows with
  | nil => rfl
  | cons r rest ih =>
      cases hp : p r with
      | true => rw [replaceFirst_hit g hp, h r List.mem_cons_self hp]
      | false =>
          rw [replaceFirst_miss g hp, ih (fun x hx => h x (List.mem_cons_of_mem r hx))]

/-- The other rows stay. -/
theorem mem_replaceFirst_of_not {p : α -> Bool} {g : α -> α} {x : α} {rows : List α}
    (hx : p x = false) (hmem : x ∈ rows) : x ∈ replaceFirst p g rows := by
  induction rows with
  | nil => cases hmem
  | cons r rest ih =>
      cases hp : p r with
      | true =>
          rw [replaceFirst_hit g hp]
          rcases List.mem_cons.mp hmem with hhead | htail
          · rw [hhead, hp] at hx
            cases hx
          · exact List.mem_cons_of_mem _ htail
      | false =>
          rw [replaceFirst_miss g hp]
          rcases List.mem_cons.mp hmem with hhead | htail
          · rw [hhead]
            exact List.mem_cons_self
          · exact List.mem_cons_of_mem _ (ih htail)

theorem mem_replaceFirst {p : α -> Bool} {g : α -> α} {x : α} {rows : List α}
    (hmem : x ∈ replaceFirst p g rows) :
    x ∈ rows ∨ exists r, r ∈ rows ∧ p r = true ∧ x = g r := by
  induction rows with
  | nil => cases hmem
  | cons r rest ih =>
      cases hp : p r with
      | true =>
          rw [replaceFirst_hit g hp] at hmem
          rcases List.mem_cons.mp hmem with hhead | htail
          · exact Or.inr ⟨r, List.mem_cons_self, hp, hhead⟩
          · exact Or.inl (List.mem_cons_of_mem _ htail)
      | false =>
          rw [replaceFirst_miss g hp] at hmem
          rcases List.mem_cons.mp hmem with hhead | htail
          · exact Or.inl (by rw [hhead]; exact List.mem_cons_self)
          · rcases ih htail with hrest | ⟨r', hr', hp', hx⟩
            · exact Or.inl (List.mem_cons_of_mem _ hrest)
            · exact Or.inr ⟨r', List.mem_cons_of_mem _ hr', hp', hx⟩

/-!
# Looking up a row afterwards
-/

theorem find?_replaceFirst_self {p : α -> Bool} {g : α -> α} (hg : forall r, p (g r) = p r)
    (rows : List α) : (replaceFirst p g rows).find? p = (rows.find? p).map g := by
  induction rows with
  | nil => rfl
  | cons r rest ih =>
      cases hp : p r with
      | true =>
          rw [replaceFirst_hit g hp, List.find?_cons_of_pos ((hg r).trans hp),
            List.find?_cons_of_pos hp]
          rfl
      | false =>
          have hneg : ¬ p r = true := by
            rw [hp]
            exact Bool.false_ne_true
          rw [replaceFirst_miss g hp, List.find?_cons_of_neg hneg, List.find?_cons_of_neg hneg, ih]

/-- The row that another key finds is the same, or it is the changed row. -/
theorem find?_replaceFirst_cases {p q : α -> Bool} {g : α -> α} (hg : forall r, q (g r) = q r)
    (rows : List α) :
    (replaceFirst p g rows).find? q = rows.find? q ∨
      (replaceFirst p g rows).find? q = (rows.find? q).map g := by
  induction rows with
  | nil => exact Or.inl rfl
  | cons r rest ih =>
      cases hp : p r with
      | true =>
          rw [replaceFirst_hit g hp]
          cases hq : q r with
          | true =>
              right
              rw [List.find?_cons_of_pos ((hg r).trans hq), List.find?_cons_of_pos hq]
              rfl
          | false =>
              left
              rw [List.find?_cons_of_neg (by rw [hg r, hq]; exact Bool.false_ne_true),
                List.find?_cons_of_neg (by rw [hq]; exact Bool.false_ne_true)]
      | false =>
          rw [replaceFirst_miss g hp]
          cases hq : q r with
          | true =>
              left
              rw [List.find?_cons_of_pos hq, List.find?_cons_of_pos hq]
          | false =>
              have hneg : ¬ q r = true := by
                rw [hq]
                exact Bool.false_ne_true
              rw [List.find?_cons_of_neg hneg, List.find?_cons_of_neg hneg]
              exact ih

/-- No row has both keys. -/
theorem find?_replaceFirst_apart {p q : α -> Bool} {g : α -> α} (hg : forall r, q (g r) = q r)
    {rows : List α} (h : forall r, r ∈ rows -> ¬ (p r = true ∧ q r = true)) :
    (replaceFirst p g rows).find? q = rows.find? q := by
  induction rows with
  | nil => rfl
  | cons r rest ih =>
      cases hp : p r with
      | true =>
          have hneg : ¬ q r = true := fun hq => h r List.mem_cons_self ⟨hp, hq⟩
          rw [replaceFirst_hit g hp, List.find?_cons_of_neg (by rw [hg r]; exact hneg),
            List.find?_cons_of_neg hneg]
      | false =>
          rw [replaceFirst_miss g hp, List.find?_cons, List.find?_cons,
            ih (fun x hx => h x (List.mem_cons_of_mem r hx))]

theorem upsert_hit {p : α -> Bool} (g : α -> α) (new : α) {r : α} (h : p r = true)
    (rows : List α) : upsert p g new (r :: rows) = g r :: rows := by
  unfold upsert
  rw [List.any_cons, h, Bool.true_or, if_pos rfl]
  exact replaceFirst_hit g h rows

theorem upsert_miss {p : α -> Bool} (g : α -> α) (new : α) {r : α} (h : p r = false)
    (rows : List α) : upsert p g new (r :: rows) = r :: upsert p g new rows := by
  unfold upsert
  rw [List.any_cons, h, Bool.false_or, replaceFirst_miss g h]
  split
  · rfl
  · rfl

theorem mem_upsert_of_not {p : α -> Bool} {g : α -> α} {new x : α} {rows : List α}
    (hx : p x = false) (hmem : x ∈ rows) : x ∈ upsert p g new rows := by
  unfold upsert
  split
  · exact mem_replaceFirst_of_not hx hmem
  · exact List.mem_append_left _ hmem

/-- A row of the table afterwards is an old one, the changed one or the new one. -/
theorem mem_upsert {p : α -> Bool} {g : α -> α} {new x : α} {rows : List α}
    (hmem : x ∈ upsert p g new rows) :
    x ∈ rows ∨ (exists r, r ∈ rows ∧ p r = true ∧ x = g r) ∨ x = new := by
  unfold upsert at hmem
  split at hmem
  · rcases mem_replaceFirst hmem with hold | hchanged
    · exact Or.inl hold
    · exact Or.inr (Or.inl hchanged)
  · rcases List.mem_append.mp hmem with hold | hnew
    · exact Or.inl hold
    · exact Or.inr (Or.inr (List.mem_singleton.mp hnew))

end Table
