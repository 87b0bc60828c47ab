import Mathlib.Data.List.Basic
import Mathlib.Tactic.Common

/-!
# Lines of a text

Every line of a text ends in a carriage return and a line feed, and neither of the two stands
anywhere else.
-/

namespace Lines

/-- The bytes of a line. -/
def Unbroken (line : List UInt8) : Prop :=
  forall b, b ∈ line -> b ≠ 13 ∧ b ≠ 10

instance (line : List UInt8) : Decidable (Unbroken line) :=
  inferInstanceAs (Decidable (forall b, b ∈ line -> b ≠ 13 ∧ b ≠ 10))

def written (lines : List (List UInt8)) : List UInt8 :=
  lines.flatMap (fun line => line ++ [13, 10])

/-- The lines of a text, when it has nothing else. -/
def lines : List UInt8 -> Option (List (List UInt8))
  | [] => some []
  | [_] => none
  | b :: c :: rest =>
      if b = 13 ∧ c = 10 then (lines rest).map (fun more => [] :: more)
      else if b = 13 ∨ b = 10 then none
      else
        match lines (c :: rest) with
        | some (line :: more) => some ((b :: line) :: more)
        | _ => none

theorem unbroken_of_all {line : List UInt8}
    (h : line.all (fun b => b != 13 && b != 10) = true) : Unbroken line := by
  intro b hb
  simpa using List.all_eq_true.mp h b hb

theorem unbroken_append {a b : List UInt8} (ha : Unbroken a) (hb : Unbroken b) :
    Unbroken (a ++ b) := by
  intro c hc
  rcases List.mem_append.mp hc with hfront | hback
  · exact ha c hfront
  · exact hb c hback

theorem unbroken_of_append {a b : List UInt8} (h : Unbroken (a ++ b)) :
    Unbroken a ∧ Unbroken b :=
  ⟨fun c hc => h c (List.mem_append_left b hc), fun c hc => h c (List.mem_append_right a hc)⟩

theorem lines_cons {line : List UInt8} (hline : Unbroken line) (rest : List UInt8) :
    lines (line ++ 13 :: 10 :: rest) = (lines rest).map (fun more => line :: more) := by
  induction line with
  | nil =>
      rw [List.nil_append, lines, if_pos ⟨rfl, rfl⟩]
  | cons b line ih =>
      have hb := hline b List.mem_cons_self
      have hmore := ih (fun c hc => hline c (List.mem_cons_of_mem b hc))
      rw [List.cons_append]
      rcases hback : line ++ 13 :: 10 :: rest with _ | ⟨c, back⟩
      · exact absurd hback (List.append_ne_nil_of_right_ne_nil _ (List.cons_ne_nil _ _))
      · rw [lines, if_neg (fun h => hb.1 h.1), if_neg (fun h => h.elim hb.1 hb.2), <- hback, hmore]
        cases lines rest with
        | none => rfl
        | some more => rfl

/-- What is written as lines is read as these lines. -/
theorem lines_written {all : List (List UInt8)} (h : forall line, line ∈ all -> Unbroken line) :
    lines (written all) = some all := by
  induction all with
  | nil => rfl
  | cons line rest ih =>
      have hcons : written (line :: rest) = line ++ 13 :: 10 :: written rest :=
        List.append_assoc line [13, 10] (written rest)
      rw [hcons, lines_cons (h line List.mem_cons_self),
        ih (fun l hl => h l (List.mem_cons_of_mem line hl))]
      rfl

/-- Only what is written as lines is read as lines. -/
theorem written_of_lines {text : List UInt8} {all : List (List UInt8)} (h : lines text = some all) :
    text = written all ∧ forall line, line ∈ all -> Unbroken line := by
  induction text using lines.induct generalizing all with
  | case1 =>
      cases h
      exact ⟨rfl, fun l hl => by cases hl⟩
  | case2 b => cases h
  | case3 b c rest hend ih =>
      rw [lines, if_pos hend] at h
      rcases Option.map_eq_some_iff.mp h with ⟨more, hmore, rfl⟩
      rcases ih hmore with ⟨htext, hlines⟩
      constructor
      · rw [hend.1, hend.2, htext]
        rfl
      · intro line hline
        rcases List.mem_cons.mp hline with rfl | hline
        · exact fun b hb => by cases hb
        · exact hlines line hline
  | case4 b c rest hend hbare =>
      rw [lines, if_neg hend, if_pos hbare] at h
      cases h
  | case5 b c rest hend hbare line more hmore ih =>
      rw [lines, if_neg hend, if_neg hbare, hmore] at h
      cases h
      rcases ih hmore with ⟨htext, hlines⟩
      rw [not_or] at hbare
      constructor
      · rw [htext]
        rfl
      · intro l hl
        rcases List.mem_cons.mp hl with rfl | hl
        · intro d hd
          rcases List.mem_cons.mp hd with rfl | hd
          · exact hbare
          · exact hlines line List.mem_cons_self d hd
        · exact hlines l (List.mem_cons_of_mem line hl)
  | case6 b c rest hend hbare hnone ih =>
      rw [lines, if_neg hend, if_neg hbare] at h
      split at h
      · rename_i line more hmore
        exact absurd hmore (hnone line more)
      · cases h

end Lines
