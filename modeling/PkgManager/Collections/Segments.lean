import Mathlib.Data.List.Basic
import Mathlib.Tactic.Common

/-!
# Paths with dot segments

A path is cut at its separators.  One segment stands for where the path is, and one for a step
up; both are taken out of a path before it is used.
-/

namespace Segments

/-!
# Segments of a path
-/

section
variable {alpha : Type} [DecidableEq alpha] (sep : alpha)

def segments : List alpha -> List (List alpha)
  | [] => [[]]
  | a :: rest =>
      if a = sep then [] :: segments rest else (segments rest).modifyHead (fun s => a :: s)

/-- The path with a separator in front of each segment. -/
def joined (segs : List (List alpha)) : List alpha :=
  segs.flatMap (fun s => sep :: s)

theorem segments_ne_nil (path : List alpha) : segments sep path ≠ [] := by
  induction path with
  | nil => exact List.cons_ne_nil _ _
  | cons a rest ih =>
      unfold segments
      split
      · exact List.cons_ne_nil _ _
      · rcases List.exists_cons_of_ne_nil ih with ⟨s, more, heq⟩
        rw [heq]
        exact List.cons_ne_nil _ _

/-- A path is cut at each of its separators. -/
theorem segments_append (front behind : List alpha) :
    segments sep (front ++ sep :: behind) = segments sep front ++ segments sep behind := by
  induction front with
  | nil =>
      have hsep : segments sep (sep :: behind) = [] :: segments sep behind := if_pos rfl
      rw [List.nil_append, hsep]
      rfl
  | cons a rest ih =>
      rw [List.cons_append, segments, segments, ih]
      split
      · rfl
      · rcases List.exists_cons_of_ne_nil (segments_ne_nil sep rest) with ⟨s, more, heq⟩
        rw [heq]
        rfl

theorem segments_single {path : List alpha} (h : sep ∉ path) : segments sep path = [path] := by
  induction path with
  | nil => rfl
  | cons a rest ih =>
      rw [List.mem_cons, not_or] at h
      rw [segments, if_neg (Ne.symm h.1), ih h.2]
      rfl

/-- The segments hold what the path holds. -/
theorem joined_segments (path : List alpha) : joined sep (segments sep path) = sep :: path := by
  induction path with
  | nil => rfl
  | cons a rest ih =>
      rw [segments]
      split
      · rename_i heq
        rw [heq, <- ih]
        rfl
      · rcases List.exists_cons_of_ne_nil (segments_ne_nil sep rest) with ⟨s, more, hsegs⟩
        rw [hsegs] at ih ⊢
        exact congrArg (fun l => sep :: a :: l) (List.cons.inj ih).2

omit [DecidableEq alpha] in
theorem joined_append (a b : List (List alpha)) :
    joined sep (a ++ b) = joined sep a ++ joined sep b :=
  List.flatMap_append

end

/-!
# Dot segments
-/

section
variable {sigma : Type} [DecidableEq sigma] (here up blank : sigma)

/-- The segments after one that others follow. -/
def enter (stack : List sigma) (s : sigma) : List sigma :=
  if s = here then stack else if s = up then stack.dropLast else stack ++ [s]

/-- The segments that are left of a path behind others. -/
def withoutDots : List sigma -> List sigma -> List sigma
  | stack, [] => stack
  | stack, [s] =>
      if s = here ∨ s = up then enter here up stack s ++ [blank] else stack ++ [s]
  | stack, s :: t :: rest => withoutDots (enter here up stack s) (t :: rest)

/-- The path never steps up more often than it has stepped down before. -/
def staysBelow : Nat -> List sigma -> Bool
  | _, [] => true
  | depth, s :: rest =>
      if s = here then staysBelow depth rest
      else if s = up then
        match depth with
        | 0 => false
        | depth + 1 => staysBelow depth rest
      else staysBelow (depth + 1) rest

theorem withoutDots_append (stack : List sigma) (front : List sigma) {behind : List sigma}
    (hbehind : behind ≠ []) :
    withoutDots here up blank stack (front ++ behind) =
      withoutDots here up blank (front.foldl (enter here up) stack) behind := by
  induction front generalizing stack with
  | nil => rfl
  | cons s rest ih =>
      rcases List.exists_cons_of_ne_nil (List.append_ne_nil_of_right_ne_nil rest hbehind) with
        ⟨t, more, heq⟩
      rw [List.cons_append, heq, withoutDots, <- heq, ih]
      rfl

theorem enter_below (stack : List sigma) {behind : List sigma} {s : sigma} {rest : List sigma}
    (h : staysBelow here up behind.length (s :: rest) = true) :
    exists more, enter here up (stack ++ behind) s = stack ++ more ∧
      staysBelow here up more.length rest = true := by
  unfold staysBelow at h
  unfold enter
  split at h
  · rename_i hhere
    rw [if_pos hhere]
    exact ⟨behind, rfl, h⟩
  · rename_i hhere
    rw [if_neg hhere]
    split at h
    · rename_i hup
      rw [if_pos hup]
      split at h
      · cases h
      · rename_i depth hdepth
        have hne : behind ≠ [] := by
          rintro rfl
          cases hdepth
        refine ⟨behind.dropLast, List.dropLast_append_of_ne_nil hne, ?_⟩
        rw [List.length_dropLast, hdepth]
        exact h
    · rename_i hup
      rw [if_neg hup]
      refine ⟨behind ++ [s], List.append_assoc _ _ _, ?_⟩
      rw [List.length_append]
      exact h

/-- A path that stays below keeps the segments that it starts from. -/
theorem withoutDots_below (stack : List sigma) {behind segs : List sigma} (hne : segs ≠ [])
    (h : staysBelow here up behind.length segs = true) :
    exists more, more ≠ [] ∧
      withoutDots here up blank (stack ++ behind) segs = stack ++ more := by
  induction segs generalizing behind with
  | nil => exact absurd rfl hne
  | cons s rest ih =>
      rcases enter_below here up stack h with ⟨more, hmore, hrest⟩
      cases rest with
      | nil =>
          unfold withoutDots
          split
          · rw [hmore]
            exact ⟨more ++ [blank], List.append_ne_nil_of_right_ne_nil _ (List.cons_ne_nil _ _),
              List.append_assoc _ _ _⟩
          · exact ⟨behind ++ [s], List.append_ne_nil_of_right_ne_nil _ (List.cons_ne_nil _ _),
              List.append_assoc _ _ _⟩
      | cons t rest =>
          rw [withoutDots, hmore]
          exact ih (List.cons_ne_nil _ _) hrest

end

/-!
# Paths below others
-/

section
variable {alpha : Type} [DecidableEq alpha] (sep : alpha) (here up : List alpha)

/-- The path without its dot segments. -/
def removeDots (path : List alpha) : List alpha :=
  joined sep (withoutDots here up [] [] ((segments sep path).drop 1))

/-- The path behind a directory never leaves it. -/
structure StaysIn (dir path : List alpha) : Prop where
  inside : exists behind, path = dir ++ behind ∧ staysBelow here up 0 (segments sep behind) = true

theorem removeDots_dir (front behind : List alpha) :
    removeDots sep here up (front ++ sep :: behind) =
      joined sep (withoutDots here up []
        (((segments sep front).drop 1).foldl (enter here up) []) (segments sep behind)) := by
  unfold removeDots
  have hdrop : (segments sep (front ++ sep :: behind)).drop 1 =
      (segments sep front).drop 1 ++ segments sep behind := by
    rw [segments_append, List.drop_append_of_le_length]
    exact List.length_pos_iff.mpr (segments_ne_nil sep front)
  rw [hdrop, withoutDots_append here up [] [] _ (segments_ne_nil sep behind)]

/-- Without the dot segments, it starts with the directory. -/
theorem StaysIn.starts_removeDots {front path : List alpha} (hhere : here ≠ []) (hup : up ≠ [])
    (h : StaysIn sep here up (front ++ [sep]) path) :
    removeDots sep here up (front ++ [sep]) <+: removeDots sep here up path := by
  rcases h.inside with ⟨behind, rfl, hstays⟩
  generalize hstack : ((segments sep front).drop 1).foldl (enter here up) [] = stack
  have hdir : removeDots sep here up (front ++ [sep]) = joined sep stack ++ [sep] := by
    have hblank : ¬([] = here ∨ [] = up) := fun hor => hor.elim (fun h => hhere h.symm)
      (fun h => hup h.symm)
    rw [removeDots_dir, hstack, segments, withoutDots, if_neg hblank, joined_append]
    rfl
  have hbelow : staysBelow here up ([] : List (List alpha)).length (segments sep behind) = true :=
    hstays
  rcases withoutDots_below here up [] stack (segments_ne_nil sep behind) hbelow with ⟨more, hne, hmore⟩
  rcases List.exists_cons_of_ne_nil hne with ⟨s, rest, rfl⟩
  have hpath : removeDots sep here up (front ++ [sep] ++ behind) =
      joined sep stack ++ [sep] ++ (s ++ joined sep rest) := by
    rw [List.append_nil] at hmore
    rw [List.append_assoc, List.singleton_append, removeDots_dir, hstack, hmore, joined_append]
    unfold joined
    rw [List.flatMap_cons]
    simp
  rw [hdir, hpath]
  exact List.prefix_append _ _

end

end Segments
