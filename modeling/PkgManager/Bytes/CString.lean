import Mathlib.Data.List.Basic
import Mathlib.Data.List.Infix
import Mathlib.Data.List.TakeWhile
import Mathlib.Tactic.Common
import Mathlib.Data.List.DropRight

/-!
# Texts in arrays of bytes

A text in an array ends before its first zero byte.
-/

namespace CString

def cString (bytes : List UInt8) : List UInt8 :=
  bytes.takeWhile (fun b => b != 0)

def ZeroFree (text : List UInt8) : Prop :=
  forall b, b ∈ text -> b ≠ 0

instance (text : List UInt8) : Decidable (ZeroFree text) :=
  inferInstanceAs (Decidable (forall b, b ∈ text -> b ≠ 0))

theorem zeroFree_of_all {text : List UInt8} (h : text.all (fun b => b != 0) = true) :
    ZeroFree text :=
  fun b hb => bne_iff_ne.mp (List.all_eq_true.mp h b hb)

theorem zeroFree_append {a b : List UInt8} (ha : ZeroFree a) (hb : ZeroFree b) :
    ZeroFree (a ++ b) := by
  intro x hx
  rcases List.mem_append.mp hx with hfront | hback
  · exact ha x hfront
  · exact hb x hback

theorem zeroFree_cString (bytes : List UInt8) : ZeroFree (cString bytes) := by
  intro b hb
  have h := List.mem_takeWhile_imp hb
  simpa using h

theorem cString_of_zeroFree {text : List UInt8} (h : ZeroFree text) : cString text = text := by
  unfold cString
  rw [List.takeWhile_eq_self_iff]
  intro b hb
  simpa using h b hb

theorem cString_starts (bytes : List UInt8) : cString bytes <+: bytes :=
  List.takeWhile_prefix _

end CString

/-!
# Searches in a buffer of bytes

A pointer into a buffer is the list of the bytes from there to the end of the
memory in view, so a later pointer is a suffix.  A text ends at its first zero
byte.
-/

namespace CString

def ascii (text : String) : List UInt8 :=
  text.toList.map (fun c => UInt8.ofNat c.toNat)

/-- The searched text is not empty and has no zero byte. -/
def strstr (needle : List UInt8) : List UInt8 -> Option (List UInt8)
  | [] => none
  | b :: rest =>
      if needle.isPrefixOf (b :: rest) then some (b :: rest)
      else if b == 0 then none
      else strstr needle rest

def strchr (c : UInt8) : List UInt8 -> Option (List UInt8)
  | [] => none
  | b :: rest =>
      if b == c then some (b :: rest)
      else if b == 0 then none
      else strchr c rest

theorem strstr_suffix {needle p found : List UInt8} (h : strstr needle p = some found) :
    found <:+ p := by
  induction p with
  | nil => cases h
  | cons b rest ih =>
      unfold strstr at h
      split at h
      · cases h
        exact List.suffix_refl _
      · split at h
        · cases h
        · exact (ih h).trans (List.suffix_cons b rest)

theorem strchr_suffix {c : UInt8} {p found : List UInt8} (h : strchr c p = some found) :
    found <:+ p := by
  induction p with
  | nil => cases h
  | cons b rest ih =>
      unfold strchr at h
      split at h
      · cases h
        exact List.suffix_refl _
      · split at h
        · cases h
        · exact (ih h).trans (List.suffix_cons b rest)

theorem strstr_starts {needle p found : List UInt8} (h : strstr needle p = some found) :
    needle <+: found := by
  induction p with
  | nil => cases h
  | cons b rest ih =>
      unfold strstr at h
      split at h
      · rename_i hpart
        cases h
        exact List.isPrefixOf_iff_prefix.mp hpart
      · split at h
        · cases h
        · exact ih h

theorem strstr_shorter {needle p found : List UInt8} (hneedle : needle ≠ [])
    (h : strstr needle p = some found) : (found.drop needle.length).length < p.length := by
  have hpos := List.length_pos_iff.mpr hneedle
  have hlong := (strstr_starts h).length_le
  have hle := (strstr_suffix h).length_le
  rw [List.length_drop]
  omega

/-!
# Texts with other bytes behind them
-/

theorem isPrefixOf_append {needle p : List UInt8} (behind : List UInt8)
    (hlong : needle.length ≤ p.length) :
    needle.isPrefixOf (p ++ behind) = needle.isPrefixOf p := by
  apply Bool.eq_iff_iff.mpr
  rw [List.isPrefixOf_iff_prefix, List.isPrefixOf_iff_prefix]
  constructor
  · intro h
    exact List.prefix_of_prefix_length_le h (List.prefix_append p behind) hlong
  · intro h
    exact h.trans (List.prefix_append p behind)

/-- What is found in a text is found in front of any other bytes. -/
theorem strstr_append {needle p found : List UInt8} (h : strstr needle p = some found)
    (behind : List UInt8) : strstr needle (p ++ behind) = some (found ++ behind) := by
  induction p with
  | nil => cases h
  | cons b rest ih =>
      have hlong : needle.length ≤ (b :: rest).length :=
        (strstr_starts h).length_le.trans (strstr_suffix h).length_le
      have hpart := isPrefixOf_append behind hlong
      rw [List.cons_append] at hpart ⊢
      unfold strstr at h ⊢
      rw [hpart]
      split at h
      · rename_i hhere
        cases h
        rw [if_pos hhere]
        rfl
      · rename_i hhere
        split at h
        · cases h
        · rename_i hzero
          rw [if_neg hhere, if_neg hzero]
          exact ih h

/-- A match that the text does not hold ends in the bytes behind it. -/
theorem strstr_append_cases {needle p behind found : List UInt8}
    (h : strstr needle (p ++ behind) = some found) :
    (exists here, found = here ++ behind ∧ strstr needle p = some here) ∨
      (found.drop needle.length).length ≤ behind.length := by
  induction p with
  | nil =>
      right
      have hle := (strstr_suffix h).length_le
      rw [List.length_drop]
      exact (Nat.sub_le _ _).trans hle
  | cons b rest ih =>
      rw [List.cons_append] at h
      unfold strstr at h
      split at h
      · rename_i hpart
        cases h
        rcases Nat.lt_or_ge (b :: rest).length needle.length with hlong | hlong
        · right
          rw [List.length_drop, List.length_cons, List.length_append]
          rw [List.length_cons] at hlong
          omega
        · left
          rw [<- List.cons_append, isPrefixOf_append behind hlong] at hpart
          exists b :: rest
          constructor
          · rfl
          · unfold strstr
            rw [if_pos hpart]
      · rename_i hpart
        split at h
        · cases h
        · rename_i hzero
          rcases ih h with ⟨here, hfound, hstr⟩ | hbehind
          · left
            exists here
            constructor
            · exact hfound
            · unfold strstr
              have hnot : ¬ needle.isPrefixOf (b :: rest) = true := by
                intro hhere
                apply hpart
                exact List.isPrefixOf_iff_prefix.mpr
                  ((List.isPrefixOf_iff_prefix.mp hhere).trans
                    (List.prefix_append (b :: rest) behind))
              rw [if_neg hnot, if_neg hzero]
              exact hstr
          · right
            exact hbehind

theorem strchr_append {c : UInt8} {p found : List UInt8} (h : strchr c p = some found)
    (behind : List UInt8) : strchr c (p ++ behind) = some (found ++ behind) := by
  induction p with
  | nil => cases h
  | cons b rest ih =>
      rw [List.cons_append]
      unfold strchr at h ⊢
      split at h
      · rename_i hhere
        cases h
        rw [if_pos hhere]
        rfl
      · rename_i hhere
        split at h
        · cases h
        · rename_i hzero
          rw [if_neg hhere, if_neg hzero]
          exact ih h

theorem strchr_append_cases {c : UInt8} {p behind found : List UInt8}
    (h : strchr c (p ++ behind) = some found) :
    (exists here, found = here ++ behind ∧ strchr c p = some here) ∨
      found.length ≤ behind.length := by
  induction p with
  | nil =>
      right
      exact (strchr_suffix h).length_le
  | cons b rest ih =>
      rw [List.cons_append] at h
      unfold strchr at h
      split at h
      · rename_i hhere
        cases h
        left
        exists b :: rest
        constructor
        · rfl
        · unfold strchr
          rw [if_pos hhere]
      · rename_i hhere
        split at h
        · cases h
        · rename_i hzero
          rcases ih h with ⟨here, hfound, hstr⟩ | hbehind
          · left
            exists here
            constructor
            · exact hfound
            · unfold strchr
              rw [if_neg hhere, if_neg hzero]
              exact hstr
          · right
            exact hbehind

/-!
# Separators
-/

theorem takeWhile_separator (c : UInt8) (a b : List UInt8) :
    (a ++ c :: b).takeWhile (fun x => x != c) = a.takeWhile (fun x => x != c) := by
  induction a with
  | nil => rw [List.nil_append, List.takeWhile_cons_of_neg (by simp), List.takeWhile_nil]
  | cons x rest ih =>
      rw [List.cons_append, List.takeWhile_cons, List.takeWhile_cons, ih]

theorem dropWhile_separator {c : UInt8} {a : List UInt8} (h : c ∉ a) (b : List UInt8) :
    (a ++ c :: b).dropWhile (fun x => x != c) = c :: b := by
  induction a with
  | nil => rw [List.nil_append, List.dropWhile_cons_of_neg (by simp)]
  | cons x rest ih =>
      have hx : (x != c) = true := bne_iff_ne.mpr (fun heq => h (heq ▸ List.mem_cons_self))
      rw [List.cons_append, List.dropWhile_cons, if_pos hx]
      exact ih (fun hmem => h (List.mem_cons_of_mem x hmem))

theorem takeWhile_ne_self_iff {c : UInt8} {a : List UInt8} :
    a.takeWhile (fun x => x != c) = a ↔ c ∉ a := by
  rw [List.takeWhile_eq_self_iff]
  constructor
  · intro h hmem
    exact absurd (h c hmem) (by simp)
  · intro h x hx
    exact bne_iff_ne.mpr (fun heq => h (heq ▸ hx))

theorem rtakeWhile_separator {c : UInt8} {b : List UInt8} (h : c ∉ b) (a : List UInt8) :
    (a ++ c :: b).rtakeWhile (fun x => x != c) = b := by
  have hback : c ∉ b.reverse := fun hmem => h (List.mem_reverse.mp hmem)
  rw [List.rtakeWhile, List.reverse_append, List.reverse_cons, List.append_assoc,
    List.singleton_append, takeWhile_separator, takeWhile_ne_self_iff.mpr hback,
    List.reverse_reverse]

theorem strchr_separator {c : UInt8} {a : List UInt8} (hzero : ZeroFree a) (h : c ∉ a)
    (b : List UInt8) : strchr c (a ++ c :: b) = some (c :: b) := by
  induction a with
  | nil =>
      rw [List.nil_append, strchr, if_pos (beq_self_eq_true c)]
  | cons x rest ih =>
      have hx : (x == c) = false := beq_false_of_ne (fun heq => h (heq ▸ List.mem_cons_self))
      have hnul : (x == 0) = false := beq_false_of_ne (hzero x List.mem_cons_self)
      rw [List.cons_append, strchr, hx, hnul, if_neg Bool.false_ne_true,
        if_neg Bool.false_ne_true]
      exact ih (fun y hy => hzero y (List.mem_cons_of_mem x hy))
        (fun hmem => h (List.mem_cons_of_mem x hmem))

theorem strchr_absent {c : UInt8} {a : List UInt8} (h : c ∉ a) : strchr c a = none := by
  induction a with
  | nil => rfl
  | cons x rest ih =>
      have hx : (x == c) = false := beq_false_of_ne (fun heq => h (heq ▸ List.mem_cons_self))
      rw [strchr, hx, if_neg Bool.false_ne_true, ih (fun hmem => h (List.mem_cons_of_mem x hmem))]
      exact ite_self _

/-!
# The first place
-/

/-- A text that stands somewhere is found there or further in front. -/
theorem strstr_finds {needle : List UInt8} (hneedle : needle ≠ []) {a : List UInt8}
    (ha : ZeroFree a) (rest : List UInt8) :
    exists found, strstr needle (a ++ (needle ++ rest)) = some found ∧ needle ++ rest <:+ found := by
  induction a with
  | nil =>
      cases needle with
      | nil => exact absurd rfl hneedle
      | cons b bs =>
          have hpart : (b :: bs).isPrefixOf (b :: (bs ++ rest)) = true :=
            List.isPrefixOf_iff_prefix.mpr (List.prefix_append (b :: bs) rest)
          refine ⟨_, ?_, List.suffix_refl _⟩
          rw [List.nil_append, List.cons_append, strstr, if_pos hpart]
  | cons x a ih =>
      have hx : (x == 0) = false := beq_false_of_ne (ha x List.mem_cons_self)
      rcases ih (fun b hb => ha b (List.mem_cons_of_mem x hb)) with ⟨found, hfound, hsuffix⟩
      rw [List.cons_append, strstr, hx, if_neg Bool.false_ne_true, hfound]
      split
      · exact ⟨_, rfl, (List.suffix_append a _).trans (List.suffix_cons x _)⟩
      · exact ⟨found, rfl, hsuffix⟩

theorem strchr_finds {c : UInt8} {a : List UInt8} (ha : ZeroFree a) (rest : List UInt8) :
    exists found, strchr c (a ++ c :: rest) = some found ∧ c :: rest <:+ found := by
  induction a with
  | nil =>
      refine ⟨_, ?_, List.suffix_refl _⟩
      rw [List.nil_append, strchr, if_pos (beq_self_eq_true c)]
  | cons x a ih =>
      have hx : (x == 0) = false := beq_false_of_ne (ha x List.mem_cons_self)
      rcases ih (fun b hb => ha b (List.mem_cons_of_mem x hb)) with ⟨found, hfound, hsuffix⟩
      rw [List.cons_append, strchr, hx, if_neg Bool.false_ne_true, hfound]
      split
      · exact ⟨_, rfl, (List.suffix_append a _).trans (List.suffix_cons x _)⟩
      · exact ⟨found, rfl, hsuffix⟩

/-- In front of the first byte of a kind stand others. -/
theorem strchr_split {c : UInt8} {p found : List UInt8} (h : strchr c p = some found) :
    exists a rest, p = a ++ c :: rest ∧ found = c :: rest ∧ c ∉ a := by
  induction p with
  | nil => cases h
  | cons x p ih =>
      rw [strchr] at h
      split at h
      · rename_i hhere
        cases h
        rw [beq_iff_eq] at hhere
        exact ⟨[], p, by rw [hhere]; rfl, by rw [hhere], List.not_mem_nil⟩
      · rename_i hhere
        split at h
        · cases h
        · rcases ih h with ⟨a, rest, hp, hfound, hnot⟩
          refine ⟨x :: a, rest, by rw [hp]; rfl, hfound, ?_⟩
          intro hmem
          rcases List.mem_cons.mp hmem with heq | hmem
          · exact hhere (beq_iff_eq.mpr heq.symm)
          · exact hnot hmem

end CString
