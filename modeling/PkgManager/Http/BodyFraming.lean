import PkgManager.Http.Body

/-!
# Whole bodies

The lines of a body in chunks tell where it ends.  The reader also takes lines that tell nothing:
what has no digits, or is cut, counts as it is read.
-/

namespace PkgManager
namespace Http

open CString
open PkgManager.Parser

/-!
# Lines
-/

/-- The end of a line. -/
def IsLineEnd (ending : Text) : Prop :=
  ending = [10] ∨ ending = [13, 10]

/-- A line that tells the size of a chunk, and its end. -/
structure SizeLine (line : Text) (size : Nat) (digits ext ending : Text) : Prop where
  whole : line = digits ++ ext ++ ending
  nonempty : digits ≠ []
  few : digits.length ≤ 127
  hex : forall b, b ∈ digits -> (hexval b).isSome = true
  apart : forall b, ext.head? = some b -> b = 59 ∨ b = 32 ∨ b = 9
  one : 10 ∉ ext ∧ 13 ∉ ext
  ends : IsLineEnd ending
  value : size = unicodeValue digits
  small : size < 2 ^ 64

def IsSizeLine (line : Text) (size : Nat) : Prop :=
  exists digits ext ending, SizeLine line size digits ext ending

/-- A body in chunks at the front of a stream: chunks with their sizes, and a size of zero. -/
inductive ChunkedBody : (stream body : Text) -> Prop where
  | last {line rest : Text} : IsSizeLine line 0 -> ChunkedBody (line ++ rest) []
  | chunk {line data behind rest body : Text} {size : Nat} : IsSizeLine line size -> size ≠ 0 ->
      data.length = size -> IsLineEnd behind -> ChunkedBody rest body ->
        ChunkedBody (line ++ (data ++ (behind ++ rest))) (data ++ body)

/-- A digit is none of the bytes that a line is searched for. -/
theorem hexval_ne {b c : UInt8} (hb : (hexval b).isSome = true) (hc : hexval c = none) : b ≠ c := by
  intro heq
  rw [heq, hc] at hb
  cases hb

theorem connReadLine_whole (max : Nat) (line : Text) {before : Text} (hone : 10 ∉ before)
    (rest : Text) :
    connReadLine max line (before ++ 10 :: rest) =
      some (((before.filter (fun b => b != 13)).take (max - 1)) ++
        0 :: line.drop (((before.filter (fun b => b != 13)).take (max - 1)).length + 1), rest) := by
  have hall : forall b, b ∈ before -> (b != 10) = true :=
    fun b hb => bne_iff_ne.mpr (fun heq => hone (heq ▸ hb))
  have htake : (before ++ 10 :: rest).takeWhile (fun b => b != 10) = before := by
    rw [List.takeWhile_append_of_pos hall, List.takeWhile_cons_of_neg (by decide), List.append_nil]
  have hdrop : (before ++ 10 :: rest).dropWhile (fun b => b != 10) = 10 :: rest := by
    rw [List.dropWhile_append_of_pos hall, List.dropWhile_cons_of_neg (by decide)]
  unfold connReadLine
  rw [if_neg (List.append_ne_nil_of_right_ne_nil before (List.cons_ne_nil _ _)), htake, hdrop]

/-- A line takes at least one byte of the stream. -/
theorem connReadLine_shorter {max : Nat} {line line' stream rest : Text}
    (h : connReadLine max line stream = some (line', rest)) : rest.length < stream.length := by
  unfold connReadLine at h
  split at h
  · cases h
  rename_i hne
  dsimp only at h
  split at h
  · cases h
    exact List.length_pos_iff.mpr hne
  · rename_i b rest' hdrop
    cases h
    have hle := (List.dropWhile_suffix (l := stream) (fun b => b != 10)).length_le
    rw [hdrop, List.length_cons] at hle
    exact hle

/-!
# Sizes
-/

theorem hexDigits_eq {digits tail : Text} (hne : digits ≠ [])
    (hhex : forall b, b ∈ digits -> (hexval b).isSome = true)
    (htail : forall b, tail.head? = some b -> hexval b = none ∧ b ≠ 120 ∧ b ≠ 88) :
    hexDigits (digits ++ tail) = digits := by
  have htake : (digits ++ tail).takeWhile (fun b => (hexval b).isSome) = digits := by
    rw [List.takeWhile_append_of_pos hhex]
    cases tail with
    | nil => exact List.append_nil digits
    | cons b rest =>
        rw [List.takeWhile_cons_of_neg, List.append_nil]
        rw [(htail b rfl).1]
        exact Bool.false_ne_true
  have hsecond : forall first x more, digits ++ tail = first :: x :: more -> x ≠ 120 ∧ x ≠ 88 := by
    intro first x more heq
    rcases digits with _ | ⟨d, _ | ⟨e, rest⟩⟩
    · exact absurd rfl hne
    · have hx : tail.head? = some x := by
        rw [List.cons_append, List.nil_append] at heq
        rw [(List.cons.inj heq).2]
        rfl
      exact (htail x hx).2
    · have hx : e = x := (List.cons.inj (List.cons.inj heq).2).1
      have he := hhex e (List.mem_cons_of_mem _ List.mem_cons_self)
      rw [<- hx]
      exact ⟨hexval_ne he (by decide), hexval_ne he (by decide)⟩
  unfold hexDigits
  split
  · rename_i x d rest heq
    rcases hsecond 48 x (d :: rest) heq with ⟨hx, hX⟩
    rw [if_neg (fun h => h.1.elim hx hX)]
    exact htake
  · exact htake

/-- Digits that nothing of a number follows are read as their value. -/
theorem strtoullHex_eq {digits tail : Text} (hne : digits ≠ [])
    (hhex : forall b, b ∈ digits -> (hexval b).isSome = true)
    (htail : forall b, tail.head? = some b -> hexval b = none ∧ b ≠ 120 ∧ b ≠ 88)
    (hsmall : unicodeValue digits < 2 ^ 64) :
    strtoullHex (digits ++ tail) = unicodeValue digits := by
  have hvalue : signedValue false (unicodeValue (hexDigits (digits ++ tail))) =
      unicodeValue digits := by
    unfold signedValue
    rw [hexDigits_eq hne hhex htail, if_neg (Nat.not_le_of_lt hsmall), if_neg Bool.false_ne_true]
  rcases digits with _ | ⟨d, rest⟩
  · exact absurd rfl hne
  have hd := hhex d List.mem_cons_self
  have hspace : isSpace d = false := by
    by_contra hspace
    rw [Bool.not_eq_false] at hspace
    unfold isSpace at hspace
    unfold hexval at hd
    rw [Bool.or_eq_true, beq_iff_eq, decide_eq_true_eq] at hspace
    rcases hspace with heq | hrange
    · rw [heq] at hd
      cases hd
    · split_ifs at hd with hdigit hlower hupper
      · omega
      · omega
      · omega
      · cases hd
  have hdrop : (d :: rest ++ tail).dropWhile isSpace = d :: rest ++ tail := by
    rw [List.cons_append, List.dropWhile_cons_of_neg]
    rw [hspace]
    exact Bool.false_ne_true
  unfold strtoullHex
  rw [hdrop]
  split
  · rename_i more heq
    exact absurd (List.cons.inj heq).1 (hexval_ne hd (by decide))
  · rename_i more heq
    exact absurd (List.cons.inj heq).1 (hexval_ne hd (by decide))
  · exact hvalue

section
variable {line : Text} {size : Nat} {digits ext ending : Text}

/-- The line without its last byte, and what is kept of it. -/
theorem SizeLine.before (h : SizeLine line size digits ext ending) :
    exists before, line = before ++ [10] ∧ 10 ∉ before ∧
      before.filter (fun b => b != 13) = digits ++ ext := by
  have hten : hexval 10 = none := by decide
  have hreturn : hexval 13 = none := by decide
  have hkept : (digits ++ ext).filter (fun b => b != 13) = digits ++ ext := by
    rw [List.filter_eq_self]
    intro b hb
    rcases List.mem_append.mp hb with hdigit | hext
    · exact bne_iff_ne.mpr (hexval_ne (h.hex b hdigit) hreturn)
    · exact bne_iff_ne.mpr (fun heq => h.one.2 (heq ▸ hext))
  have hnot : 10 ∉ digits ++ ext := by
    intro hb
    rcases List.mem_append.mp hb with hdigit | hext
    · exact hexval_ne (h.hex 10 hdigit) hten rfl
    · exact h.one.1 hext
  rcases h.ends with hend | hend
  · exact ⟨digits ++ ext, by rw [h.whole, hend], hnot, hkept⟩
  · refine ⟨digits ++ ext ++ [13], ?_, ?_, ?_⟩
    · rw [h.whole, hend, List.append_assoc (digits ++ ext)]
      rfl
    · intro hb
      rcases List.mem_append.mp hb with hfront | hback
      · exact hnot hfront
      · exact absurd (List.mem_singleton.mp hback) (by decide)
    · rw [List.filter_append, hkept, List.filter_cons_of_neg (by decide), List.filter_nil,
        List.append_nil]

/-- What follows the digits in the array is no part of a number. -/
theorem SizeLine.behind (h : SizeLine line size digits ext ending) (n : Nat) (more : Text) :
    forall b, (cString (ext.take n ++ 0 :: more)).head? = some b ->
      hexval b = none ∧ b ≠ 120 ∧ b ≠ 88 := by
  intro b hb
  have hhead : ext.head? = some b := by
    cases ext with
    | nil =>
        rw [List.take_nil] at hb
        cases hb
    | cons c rest =>
        cases n with
        | zero => cases hb
        | succ n =>
            rw [List.take_succ_cons, List.cons_append] at hb
            unfold cString at hb
            by_cases hnul : c = 0
            · rw [List.takeWhile_cons_of_neg (by rw [hnul]; decide)] at hb
              cases hb
            · have hkeep : (c :: (rest.take n ++ 0 :: more)).takeWhile (fun b => b != 0) =
                  c :: (rest.take n ++ 0 :: more).takeWhile (fun b => b != 0) :=
                List.takeWhile_cons_of_pos (bne_iff_ne.mpr hnul)
              rw [hkeep] at hb
              exact hb
  rcases h.apart b hhead with heq | heq | heq
  · rw [heq]
    decide
  · rw [heq]
    decide
  · rw [heq]
    decide

/-- The reader takes the size of a size line from it, and stops behind it. -/
theorem SizeLine.read (h : SizeLine line size digits ext ending) (array rest : Text) :
    exists array', connReadLine 128 array (line ++ rest) = some (array', rest) ∧
      strtoullHex (cString array') = size := by
  have hnul : hexval 0 = none := by decide
  have hcut : forall tail : Text, cString (digits ++ tail) = digits ++ cString tail := by
    intro tail
    unfold cString
    rw [List.takeWhile_append_of_pos]
    exact fun b hb => bne_iff_ne.mpr (hexval_ne (h.hex b hb) hnul)
  rcases h.before with ⟨before, heq, hone, hkept⟩
  have hline : line ++ rest = before ++ 10 :: rest := by
    rw [heq, List.append_assoc]
    rfl
  rw [hline]
  refine ⟨_, connReadLine_whole 128 array hone rest, ?_⟩
  rw [hkept, List.take_append, List.take_of_length_le h.few, List.append_assoc, hcut, h.value]
  apply strtoullHex_eq h.nonempty h.hex (h.behind _ _)
  rw [<- h.value]
  exact h.small

end

/-!
# The way through a body
-/

/-- A place where the reader expects the size of a chunk, or the line end behind one. -/
inductive Visit where
  | size (stream : Text)
  | behind (stream : Text)

/-- What is expected is there. -/
def Visit.Proper : Visit -> Prop
  | size stream => exists line rest size, stream = line ++ rest ∧ IsSizeLine line size
  | behind stream => exists line rest, stream = line ++ rest ∧ IsLineEnd line

/-- The size as the reader takes it from its array. -/
def sizeRead (array : Text) : Nat :=
  strtoullHex (cString array)

section
variable (max : Nat)

/-- The reader comes to a line that it takes for a size of zero.  It copied so many bytes before. -/
inductive ReadsToLast : (len : Nat) -> (array stream : Text) -> List Visit -> Prop where
  | last {len : Nat} {array stream array' rest : Text} :
      connReadLine 128 array stream = some (array', rest) -> sizeRead array' = 0 ->
        ReadsToLast len array stream [Visit.size stream]
  | chunk {len : Nat} {array stream array' rest array'' rest' : Text} {visits : List Visit} :
      connReadLine 128 array stream = some (array', rest) -> sizeRead array' ≠ 0 ->
        (len + sizeRead array') % 2 ^ 64 ≤ max -> sizeRead array' ≤ rest.length ->
        connReadLine 128 array' (rest.drop (sizeRead array')) = some (array'', rest') ->
        ReadsToLast (len + sizeRead array') array'' rest' visits ->
          ReadsToLast len array stream
            (Visit.size stream :: Visit.behind (rest.drop (sizeRead array')) :: visits)

/-- The reader comes to a size whose sum with the bytes before wraps, and so many of its bytes
arrive. -/
inductive Overruns : (len : Nat) -> (array stream : Text) -> Prop where
  | here {len : Nat} {array stream array' rest : Text} :
      connReadLine 128 array stream = some (array', rest) -> 2 ^ 64 ≤ len + sizeRead array' ->
        (len + sizeRead array') % 2 ^ 64 ≤ max -> max < len + arrived (sizeRead array') rest ->
          Overruns len array stream
  | later {len : Nat} {array stream array' rest array'' rest' : Text} :
      connReadLine 128 array stream = some (array', rest) -> sizeRead array' ≠ 0 ->
        (len + sizeRead array') % 2 ^ 64 ≤ max -> sizeRead array' ≤ rest.length ->
        connReadLine 128 array' (rest.drop (sizeRead array')) = some (array'', rest') ->
        Overruns (len + sizeRead array') array'' rest' -> Overruns len array stream

end

/-!
# Lines that are what they should be
-/

theorem readLine_lineEnd {line : Text} (h : IsLineEnd line) (array rest : Text) :
    exists array', connReadLine 128 array (line ++ rest) = some (array', rest) := by
  rcases h with h | h
  · rw [h]
    exact ⟨_, connReadLine_whole 128 array List.not_mem_nil rest⟩
  · rw [h]
    exact ⟨_, connReadLine_whole 128 array (by decide : (10 : UInt8) ∉ [(13 : UInt8)]) rest⟩

/-- What is read where a size line is. -/
theorem Visit.Proper.size_read {stream array array' rest : Text}
    (h : (Visit.size stream).Proper)
    (hread : connReadLine 128 array stream = some (array', rest)) :
    exists line, stream = line ++ rest ∧ IsSizeLine line (sizeRead array') := by
  rcases h with ⟨line, rest', size, hstream, digits, ext, ending, hline⟩
  rcases hline.read array rest' with ⟨array'', hread', hsize⟩
  rw [hstream, hread'] at hread
  cases hread
  refine ⟨line, hstream, ?_⟩
  unfold sizeRead
  rw [hsize]
  exact ⟨digits, ext, ending, hline⟩

theorem Visit.Proper.behind_read {stream array array' rest : Text}
    (h : (Visit.behind stream).Proper)
    (hread : connReadLine 128 array stream = some (array', rest)) :
    exists line, stream = line ++ rest ∧ IsLineEnd line := by
  rcases h with ⟨line, rest', hstream, hline⟩
  rcases readLine_lineEnd hline array rest' with ⟨array'', hread'⟩
  rw [hstream, hread'] at hread
  cases hread
  exact ⟨line, hstream, hline⟩

/-- A reader that comes to the end of a whole body found only what it expected. -/
theorem ChunkedBody.proper {stream body : Text} (h : ChunkedBody stream body) {max len : Nat}
    {array : Text} {visits : List Visit} (hends : ReadsToLast max len array stream visits) :
    forall v, v ∈ visits -> v.Proper := by
  induction h generalizing len array visits with
  | last hline =>
      rename_i line rest
      rcases hline with ⟨digits, ext, ending, hsize⟩
      rcases hsize.read array rest with ⟨array', hread, hzero⟩
      cases hends with
      | last _ _ =>
          intro v hv
          rw [List.mem_singleton.mp hv]
          exact ⟨line, rest, 0, rfl, digits, ext, ending, hsize⟩
      | chunk hread' hne _ _ _ _ =>
          rw [hread] at hread'
          cases hread'
          exact absurd hzero hne
  | chunk hline hne hdata hbehind _ ih =>
      rename_i line data behind rest body size hbody
      rcases hline with ⟨digits, ext, ending, hsize⟩
      rcases hsize.read array (data ++ (behind ++ rest)) with ⟨array', hread, hvalue⟩
      cases hends with
      | last hread' hzero =>
          rw [hread] at hread'
          cases hread'
          exact absurd (hvalue.symm.trans hzero) hne
      | chunk hread' _ _ _ hback hrest =>
          rw [hread] at hread'
          cases hread'
          have hdrop : (data ++ (behind ++ rest)).drop (sizeRead array') = behind ++ rest := by
            have hlen : sizeRead array' = data.length := hvalue.trans hdata.symm
            rw [hlen, List.drop_left]
          rw [hdrop] at hback ⊢
          rcases readLine_lineEnd hbehind array' rest with ⟨array'', hback'⟩
          rw [hback'] at hback
          cases hback
          intro v hv
          rcases List.mem_cons.mp hv with hfirst | hv
          · rw [hfirst]
            exact ⟨line, _, size, rfl, digits, ext, ending, hsize⟩
          rcases List.mem_cons.mp hv with hsecond | hv
          · rw [hsecond]
            exact ⟨behind, rest, rfl, hbehind⟩
          · exact ih hrest v hv

end Http
end PkgManager
