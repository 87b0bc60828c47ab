import PkgManager.Live.Finish

/-!
# The segments of a message

A message that the bounds check lets through and that does not wrap around
consists of whole segments, and of a rest when it ends inside one.  Both
writers store them in turn, up to one for which there is no slot.
-/

namespace PkgManager
namespace Live

open WriteLog

/-- The arguments are 64-bit numbers. -/
structure Fits64 (m : Message) : Prop where
  offset : m.offset < 2 ^ 64
  len : m.len < 2 ^ 64

/-- The message gets as far as the loop. -/
structure Writable (lv : LiveState) (m : Message) : Prop where
  active : lv.active = true
  aborted : lv.aborted = false
  len_pos : 0 < m.len
  accepts : acceptsMessage lv m = true

/-- The message ends neither where a segment ends nor where the file ends. -/
def EndsInside (total : Nat) (m : Message) : Prop :=
  m.offset + m.len ≠ total ∧ (m.offset + m.len) % segSize ≠ 0

/-- The message starts where a segment starts, and it lies in the file. -/
structure Aligned (total : Nat) (m : Message) : Prop where
  total_lt : total < 2 ^ 64
  len_pos : 0 < m.len
  start : m.offset = segSize * firstSeg m
  ends : m.offset + m.len ≤ total

theorem aligned_of_writable {lv : LiveState} (htotal : lv.total < 2 ^ 64) {m : Message}
    (h : Writable lv m) (hwrap : m.offset + m.len < 2 ^ 64) : Aligned lv.total m := by
  have haccept := h.accepts
  unfold acceptsMessage at haccept
  rw [u64_of_lt hwrap] at haccept
  simp only [Bool.not_eq_true', Bool.or_eq_false_iff, decide_eq_false_iff_not, Nat.not_lt,
    bne_eq_false_iff_eq] at haccept
  refine ⟨htotal, h.len_pos, ?_, haccept.1⟩
  have hdiv := Nat.div_add_mod m.offset segSize
  rw [haccept.2, Nat.add_zero] at hdiv
  exact hdiv.symm

section Aligned

variable {total : Nat} {m : Message}

theorem lastSeg_aligned (h : Aligned total m) :
    lastSeg m = (m.offset + m.len - 1) / segSize := by
  have htotal := h.total_lt
  have hends := h.ends
  have hpos := h.len_pos
  have hsum : m.offset + m.len < 2 ^ 64 := by omega
  have hback : u64 (m.offset + m.len + (2 ^ 64 - 1)) = m.offset + m.len - 1 := by
    unfold u64
    omega
  unfold lastSeg
  rw [u64_of_lt hsum, hback]

theorem first_le_lastSeg (h : Aligned total m) : firstSeg m ≤ lastSeg m := by
  have hpos := h.len_pos
  rw [lastSeg_aligned h]
  exact Nat.div_le_div_right (by omega)

/-- The segments of the message start before it ends. -/
theorem mul_lt_ends (h : Aligned total m) {s : Nat} (hs : s ≤ lastSeg m) :
    segSize * s < m.offset + m.len := by
  have hpos := h.len_pos
  have hmul := Nat.mul_le_mul_left segSize hs
  rw [lastSeg_aligned h] at hmul
  have hdiv := Nat.mul_div_le (m.offset + m.len - 1) segSize
  omega

theorem ends_le_succ_last (h : Aligned total m) :
    m.offset + m.len ≤ segSize * (lastSeg m + 1) := by
  have hlt := lt_succ_div_mul (m.offset + m.len - 1)
  rw [lastSeg_aligned h]
  omega

theorem offset_le_mul (h : Aligned total m) {s : Nat} (hs : firstSeg m ≤ s) :
    m.offset ≤ segSize * s := by
  rw [h.start]
  exact Nat.mul_le_mul_left segSize hs

end Aligned

section Segments

variable {lv : LiveState} {m : Message} {s : Nat}

theorem seg_small (h : Aligned lv.total m) (hs : s ≤ lastSeg m) : segSize * s < 2 ^ 64 := by
  have hlt := mul_lt_ends h hs
  have hends := h.ends
  have htotal := h.total_lt
  omega

theorem not_apart (h : Aligned lv.total m) (hlow : firstSeg m ≤ s) (hs : s ≤ lastSeg m) :
    ¬ Apart lv m s := by
  have hlt := mul_lt_ends h hs
  have hoff := offset_le_mul h hlow
  have hends := h.ends
  have hpos := h.len_pos
  have htotal := h.total_lt
  have hseg : 0 < segSize := by decide
  unfold Apart
  rw [u64_of_lt (by omega), segLenLocked_eq (seg_small h hs)]
  omega

/-- A segment before the last one is whole. -/
theorem covers_before_last (h : Aligned lv.total m) (hlow : firstSeg m ≤ s)
    (hs : s < lastSeg m) : Covers lv m s := by
  have hlt := mul_lt_ends h hs
  have hends := h.ends
  have htotal := h.total_lt
  rw [Nat.mul_succ] at hlt
  refine ⟨offset_le_mul h hlow, ?_⟩
  rw [u64_of_lt (by omega), segLenLocked_eq (seg_small h (Nat.le_of_lt hs))]
  omega

theorem covers_last_iff (h : Aligned lv.total m) :
    Covers lv m (lastSeg m) ↔ ¬ EndsInside lv.total m := by
  have hlow := offset_le_mul h (first_le_lastSeg h)
  have hlt := mul_lt_ends h (Nat.le_refl (lastSeg m))
  have hsucc := ends_le_succ_last h
  have hends := h.ends
  have htotal := h.total_lt
  unfold Covers EndsInside
  rw [u64_of_lt (by omega), segLenLocked_eq (seg_small h (Nat.le_refl _))]
  rw [Nat.mul_succ] at hsucc
  unfold segSize at *
  omega

end Segments

/-!
# Stores in turn
-/

/-- The segment is stored: it is whole, and there is a slot for it. -/
structure IsStored (lv : LiveState) (m : Message) (s : Nat) : Prop where
  overlaps : ¬ Apart lv m s
  whole : Covers lv m s
  slot : 0 ≤ (allocSlotLocked lv s).2

/-- The next {lit}`k` segments from {lit}`s` on are stored. -/
inductive StoredRun (m : Message) : Nat -> Nat -> LiveState -> LiveState -> Prop where
  | none (s : Nat) (lv : LiveState) : StoredRun m s 0 lv lv
  | next {s k : Nat} {lv lv' : LiveState} (h : IsStored lv m s)
      (hrest : StoredRun m (s + 1) k (storeSegLocked lv s m).1 lv') :
      StoredRun m s (k + 1) lv lv'

/-- The write that a store adds to the log. -/
def segWrite (lv : LiveState) (m : Message) (s : Nat) : Write UInt8 where
  start := segSize * s
  len := segLenLocked lv s
  data := fun i => m.data (segSize * s - m.offset + i)

theorem storeSegLocked_stored {lv : LiveState} (hb : Booked lv) {m : Message} {s : Nat}
    (hs : segSize * s < 2 ^ 64) (h : IsStored lv m s) :
    0 ≤ (storeSegLocked lv s m).2 ∧
      (storeSegLocked lv s m).1.stored = segWrite lv m s :: lv.stored := by
  have hcase := storeSegLocked_spec (total_lt hb.consistent) hs m
  have hslot := h.slot
  generalize storeSegLocked lv s m = r at hcase ⊢
  cases hcase with
  | apart hapart => exact absurd hapart h.overlaps
  | part _ hpart => exact absurd h.whole hpart
  | busy _ _ hbusy => omega
  | stored =>
      have hnsegs := lt_nsegs_of_not_apart hb.consistent hs h.overlaps
      have hlog := allocated_log (allocSlotLocked_cases hb.consistent hnsegs)
      refine ⟨hslot, ?_⟩
      change { start := u64 (segSize * s), len := segLenLocked lv s,
               data := fun i => m.data (segSize * s - m.offset + i) } ::
        (allocSlotLocked lv s).1.stored = segWrite lv m s :: lv.stored
      rw [u64_of_lt hs, hlog.2]
      rfl

/-- What a store that is not made leaves: the whole state, and the reason. -/
theorem storeSegLocked_refused {lv : LiveState} (hb : Booked lv) {m : Message} {s : Nat}
    (hs : segSize * s < 2 ^ 64) (hoverlap : ¬ Apart lv m s) (h : ¬ IsStored lv m s) :
    (storeSegLocked lv s m = (lv, -2) ∧ Covers lv m s) ∨
      (storeSegLocked lv s m = (lv, -1) ∧ ¬ Covers lv m s) := by
  have hcase := storeSegLocked_spec (total_lt hb.consistent) hs m
  generalize storeSegLocked lv s m = r at hcase
  cases hcase with
  | apart hapart => exact absurd hapart hoverlap
  | part _ hpart => exact Or.inr ⟨rfl, hpart⟩
  | busy hnot hall hbusy =>
      refine Or.inl ⟨?_, hall⟩
      have hnsegs := lt_nsegs_of_not_apart hb.consistent hs hoverlap
      have halloc := allocSlotLocked_cases hb.consistent hnsegs
      generalize allocSlotLocked lv s = a at halloc hbusy
      cases halloc with
      | resident hres => exact absurd hbusy (by dsimp only; omega)
      | free slot => exact absurd hbusy (by dsimp only; omega)
      | evict s' _ _ hcand =>
          have hslot := hcand.slot
          exact absurd hbusy (by dsimp only; omega)
      | busy => rfl
  | stored hnot hall hslot => exact absurd ⟨hnot, hall, hslot⟩ h

theorem storeSegLocked_goes_on {lv : LiveState} (hb : Booked lv) {m : Message} {s : Nat}
    (hs : segSize * s < 2 ^ 64) :
    Booked (storeSegLocked lv s m).1 ∧ (storeSegLocked lv s m).1.total = lv.total ∧
      (storeSegLocked lv s m).1.aborted = lv.aborted := by
  refine ⟨storeSegLocked_booked hb hs rfl, ?_, ?_⟩
  · rcases writerMoved_storeSegLocked lv s m with ⟨_, _, _, _, _, _, _, _, _, _, heq⟩
    rw [heq]
  · rcases writerMoved_storeSegLocked lv s m with ⟨_, _, _, _, _, _, _, _, _, _, heq⟩
    rw [heq]

theorem storedRun_goes_on {m : Message} {s k : Nat} {lv lv' : LiveState}
    (h : StoredRun m s k lv lv') (hb : Booked lv) (hal : Aligned lv.total m)
    (hlast : s + k ≤ lastSeg m + 1) :
    Booked lv' ∧ lv'.total = lv.total ∧ lv'.aborted = lv.aborted := by
  induction h with
  | none s lv => exact ⟨hb, rfl, rfl⟩
  | @next s k lv lv' hstore hrest ih =>
      have hs : segSize * s < 2 ^ 64 := seg_small hal (by omega)
      rcases storeSegLocked_goes_on hb hs (m := m) with ⟨hmid, htotal, habort⟩
      have hfinal := ih hmid (by rw [htotal]; exact hal) (by omega)
      exact ⟨hfinal.1, hfinal.2.1.trans htotal, hfinal.2.2.trans habort⟩

/-- What the log gets: the part of the message in each of the segments, the newest first. -/
theorem storedRun_log {m : Message} {s k : Nat} {lv lv' : LiveState}
    (h : StoredRun m s k lv lv') (hb : Booked lv) (hal : Aligned lv.total m)
    (hlast : s + k ≤ lastSeg m + 1) :
    lv'.stored = ((List.range' s k).map (segWrite lv m)).reverse ++ lv.stored := by
  induction h with
  | none s lv => rfl
  | @next s k lv lv' hstore hrest ih =>
      have hs : segSize * s < 2 ^ 64 := seg_small hal (by omega)
      rcases storeSegLocked_goes_on hb hs (m := m) with ⟨hmid, htotal, _⟩
      have hfinal := ih hmid (by rw [htotal]; exact hal) (by omega)
      have hsame : segWrite (storeSegLocked lv s m).1 m = segWrite lv m := by
        funext s'
        unfold segWrite
        rw [segLenLocked_congr htotal]
      rw [hfinal, hsame, (storeSegLocked_stored hb hs hstore).2, List.range'_succ,
        List.map_cons, List.reverse_cons, List.append_assoc, List.singleton_append]

/-!
# The loops
-/

/-- How a loop over the segments from {lit}`s` on ends, after {lit}`k` of them: all are
stored, there is no slot for the next one, or the next one is the last one and not whole. -/
inductive LoopEnd (m : Message) (total n k : Nat) : Int -> Prop where
  | all (hk : k = n) (h : ¬ EndsInside total m) : LoopEnd m total n k 0
  | busy (hk : k < n) : LoopEnd m total n k (-2)
  | cut (hk : k + 1 = n) (h : EndsInside total m) : LoopEnd m total n k (-1)

/-- The next segment is stored, or the loop ends at it. -/
theorem segment_cases {m : Message} {n s : Nat} {lv : LiveState} (hb : Booked lv)
    (hal : Aligned lv.total m) (hlow : firstSeg m ≤ s) (hn : s + (n + 1) = lastSeg m + 1) :
    (IsStored lv m s ∧ (n = 0 -> ¬ EndsInside lv.total m)) ∨
      (storeSegLocked lv s m = (lv, -2) ∧ (n = 0 -> ¬ EndsInside lv.total m)) ∨
      (storeSegLocked lv s m = (lv, -1) ∧ n = 0 ∧ EndsInside lv.total m) := by
  have hlast : s ≤ lastSeg m := by omega
  have hoverlap := not_apart hal hlow hlast
  have hend : n = 0 -> (Covers lv m s ↔ ¬ EndsInside lv.total m) := by
    intro hzero
    have heq : s = lastSeg m := by omega
    rw [heq]
    exact covers_last_iff hal
  have hwhole : n ≠ 0 -> Covers lv m s := fun hmore =>
    covers_before_last hal hlow (by omega)
  by_cases hstore : IsStored lv m s
  · exact Or.inl ⟨hstore, fun hzero => (hend hzero).mp hstore.whole⟩
  · rcases storeSegLocked_refused hb (seg_small hal hlast) hoverlap hstore with
      ⟨hbusy, hcovers⟩ | ⟨hpart, hnot⟩
    · exact Or.inr (Or.inl ⟨hbusy, fun hzero => (hend hzero).mp hcovers⟩)
    · by_cases hzero : n = 0
      · refine Or.inr (Or.inr ⟨hpart, hzero, ?_⟩)
        by_contra hwell
        exact hnot ((hend hzero).mpr hwell)
      · exact absurd (hwhole hzero) hnot

theorem loopEnd_succ {m : Message} {total n k : Nat} {r : Int} (h : LoopEnd m total n k r) :
    LoopEnd m total (n + 1) (k + 1) r := by
  cases h with
  | all hk h => exact LoopEnd.all (by omega) h
  | busy hk => exact LoopEnd.busy (by omega)
  | cut hk h => exact LoopEnd.cut (by omega) h

theorem tryWriteLoop_stored {m : Message} {n s : Nat} {lv : LiveState}
    (h : 0 ≤ (storeSegLocked lv s m).2) :
    tryWriteLoop m (n + 1) s lv = tryWriteLoop m n (s + 1) (storeSegLocked lv s m).1 := by
  rw [tryWriteLoop]
  split
  · rfl
  · rw [if_neg (by omega), if_neg (by omega)]

theorem tryWriteLoop_end {m : Message} {n s : Nat} {lv : LiveState} (hb : Booked lv)
    (hal : Aligned lv.total m) (hlow : firstSeg m ≤ s) (hn : s + (n + 1) = lastSeg m + 1) :
    exists k, StoredRun m s k lv (tryWriteLoop m (n + 1) s lv).1 ∧
      LoopEnd m lv.total (n + 1) k (tryWriteLoop m (n + 1) s lv).2 := by
  induction n generalizing s lv with
  | zero =>
      rcases segment_cases hb hal hlow hn with ⟨hstore, hwell⟩ | ⟨hbusy, _⟩ | ⟨hpart, _, hcut⟩
      · have hs := storeSegLocked_stored hb (seg_small hal (by omega)) hstore
        rw [tryWriteLoop_stored hs.1]
        exact ⟨1, StoredRun.next hstore (StoredRun.none _ _), LoopEnd.all rfl (hwell rfl)⟩
      · rw [tryWriteLoop, hbusy]
        exact ⟨0, StoredRun.none _ _, LoopEnd.busy (Nat.zero_lt_succ _)⟩
      · rw [tryWriteLoop, hpart]
        exact ⟨0, StoredRun.none _ _, LoopEnd.cut rfl hcut⟩
  | succ n ih =>
      rcases segment_cases hb hal hlow hn with ⟨hstore, _⟩ | ⟨hbusy, _⟩ | ⟨_, hzero, _⟩
      · have hseg := seg_small hal (s := s) (by omega)
        have hs := storeSegLocked_stored hb hseg hstore
        rcases storeSegLocked_goes_on hb hseg (m := m) with ⟨hmid, htotal, _⟩
        rw [tryWriteLoop_stored hs.1]
        have hrest := ih hmid (by rw [htotal]; exact hal) (Nat.le_succ_of_le hlow) (by omega)
        rcases hrest with ⟨k, hrun, hend⟩
        rw [htotal] at hend
        exact ⟨k + 1, StoredRun.next hstore hrun, loopEnd_succ hend⟩
      · rw [tryWriteLoop, hbusy]
        exact ⟨0, StoredRun.none _ _, LoopEnd.busy (Nat.zero_lt_succ _)⟩
      · omega

/-- The same for the blocking writer, which waits where the other one is busy. -/
inductive SectionEnd (m : Message) (total n s k : Nat) : WriteEnd -> Prop where
  | all (hk : k = n) (h : ¬ EndsInside total m) : SectionEnd m total n s k (WriteEnd.returned 0)
  | blocked (left : Nat) (hk : k + left = n) (hleft : 0 < left) :
      SectionEnd m total n s k (WriteEnd.blocked left (s + k))
  | cut (hk : k + 1 = n) (h : EndsInside total m) :
      SectionEnd m total n s k (WriteEnd.returned (-1))

theorem sectionEnd_succ {m : Message} {total n s k : Nat} {e : WriteEnd}
    (h : SectionEnd m total n (s + 1) k e) : SectionEnd m total (n + 1) s (k + 1) e := by
  cases h with
  | all hk h => exact SectionEnd.all (by omega) h
  | blocked left hk hleft =>
      have heq : s + 1 + k = s + (k + 1) := by omega
      rw [heq]
      exact SectionEnd.blocked left (by omega) hleft
  | cut hk h => exact SectionEnd.cut (by omega) h

theorem writeLoop_stored {m : Message} {n s : Nat} {lv : LiveState} (habort : lv.aborted = false)
    (h : 0 ≤ (storeSegLocked lv s m).2) :
    writeLoop m (n + 1) s lv = writeLoop m n (s + 1) (storeSegLocked lv s m).1 := by
  rw [writeLoop, if_neg (by rw [habort]; exact Bool.false_ne_true)]
  dsimp only
  split
  · rfl
  · rw [if_neg (by omega)]

theorem writeLoop_end {m : Message} {n s : Nat} {lv : LiveState} (hb : Booked lv)
    (habort : lv.aborted = false) (hal : Aligned lv.total m) (hlow : firstSeg m ≤ s)
    (hn : s + (n + 1) = lastSeg m + 1) :
    exists k, StoredRun m s k lv (writeLoop m (n + 1) s lv).1 ∧
      SectionEnd m lv.total (n + 1) s k (writeLoop m (n + 1) s lv).2 := by
  have hgoes : ¬ lv.aborted = true := by
    rw [habort]
    exact Bool.false_ne_true
  induction n generalizing s lv with
  | zero =>
      rcases segment_cases hb hal hlow hn with ⟨hstore, hwell⟩ | ⟨hbusy, _⟩ | ⟨hpart, _, hcut⟩
      · have hs := storeSegLocked_stored hb (seg_small hal (by omega)) hstore
        rw [writeLoop_stored habort hs.1]
        exact ⟨1, StoredRun.next hstore (StoredRun.none _ _), SectionEnd.all rfl (hwell rfl)⟩
      · rw [writeLoop, if_neg hgoes, hbusy]
        exact ⟨0, StoredRun.none _ _, SectionEnd.blocked 1 rfl (Nat.zero_lt_succ _)⟩
      · rw [writeLoop, if_neg hgoes, hpart]
        exact ⟨0, StoredRun.none _ _, SectionEnd.cut rfl hcut⟩
  | succ n ih =>
      rcases segment_cases hb hal hlow hn with ⟨hstore, _⟩ | ⟨hbusy, _⟩ | ⟨_, hzero, _⟩
      · have hseg := seg_small hal (s := s) (by omega)
        have hs := storeSegLocked_stored hb hseg hstore
        rcases storeSegLocked_goes_on hb hseg (m := m) with ⟨hmid, htotal, hsame⟩
        rw [writeLoop_stored habort hs.1]
        have hrest := ih hmid (hsame.trans habort) (by rw [htotal]; exact hal)
          (Nat.le_succ_of_le hlow) (by omega) (by rw [hsame]; exact hgoes)
        rcases hrest with ⟨k, hrun, hend⟩
        rw [htotal] at hend
        exact ⟨k + 1, StoredRun.next hstore hrun, sectionEnd_succ hend⟩
      · rw [writeLoop, if_neg hgoes, hbusy]
        exact ⟨0, StoredRun.none _ _, SectionEnd.blocked (n + 2) (by omega) (by omega)⟩
      · omega

end Live
end PkgManager
