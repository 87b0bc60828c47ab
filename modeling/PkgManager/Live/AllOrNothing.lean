import PkgManager.Live.StoredRuns

/-!
# Writes that store all or nothing

A write that returns 0 has stored its message, and one that returns -1 has
stored nothing, unless the end of the message wraps around, or the write ends
behind its first segment.
-/

namespace PkgManager
namespace Live

open Transition
open WriteLog

/-!
# What is asked
-/

/-- The byte of the message was stored in its segment. -/
def StoresByte (lv lv' : LiveState) (m : Message) (i : Nat) : Prop :=
  exists ws w, lv'.stored = ws ++ lv.stored ∧ w ∈ ws ∧
    w.start = segSize * ((m.offset + i) / segSize) ∧ w.Covers (m.offset + i) ∧
    w.data (m.offset + i - w.start) = m.data i

/-- Nothing was stored. -/
structure Untouched (lv lv' : LiveState) : Prop where
  present : lv'.present = lv.present
  ackedEver : lv'.ackedEver = lv.ackedEver
  slotOf : lv'.slotOf = lv.slotOf
  slots : lv'.slots = lv.slots
  stored : lv'.stored = lv.stored

theorem untouched_refl (lv : LiveState) : Untouched lv lv := by
  constructor <;> rfl

def TryAllOrNothing (lv : LiveState) (m : Message) : Prop :=
  ((wsLiveTryWrite lv m).2 = 0 -> 0 < m.len -> m.offset + m.len ≤ lv.total ∧
    forall i, i < m.len -> StoresByte lv (wsLiveTryWrite lv m).1 m i) ∧
  ((wsLiveTryWrite lv m).2 = -1 -> Untouched lv (wsLiveTryWrite lv m).1)

/-- What a blocked writer goes through until it returns: the sections after its waits, the
segment it waits for when it gives up, and what it returns.  In between the other threads
do what they like with the session. -/
inductive Waits (m : Message) (total : Nat) :
    WriteEnd -> List (LiveState × LiveState) -> Option Nat -> Int -> Prop where
  | returned (r : Int) : Waits m total (WriteEnd.returned r) [] none r
  | expired (left seg : Nat) : Waits m total (WriteEnd.blocked left seg) [] (some seg) (-1)
  | aborted {lv : LiveState} (left seg : Nat) {r : Int} (habort : lv.aborted = true)
      (h : (writeLoop m left seg lv).2 = WriteEnd.returned r) :
      Waits m total (WriteEnd.blocked left seg) [(lv, (writeLoop m left seg lv).1)] (some seg) r
  | woken {lv : LiveState} (left seg : Nat) {rest : List (LiveState × LiveState)}
      {gaveUp : Option Nat} {r : Int} (habort : lv.aborted = false) (hb : Booked lv)
      (htotal : lv.total = total) (h : Waits m total (writeLoop m left seg lv).2 rest gaveUp r) :
      Waits m total (WriteEnd.blocked left seg) ((lv, (writeLoop m left seg lv).1) :: rest)
        gaveUp r

/-- A call of the blocking writer, with its sections. -/
def WriteCall (lv : LiveState) (m : Message) (sections : List (LiveState × LiveState))
    (gaveUp : Option Nat) (r : Int) : Prop :=
  exists rest, sections = (lv, (wsLiveWrite lv m).1) :: rest ∧
    Waits m lv.total (wsLiveWrite lv m).2 rest gaveUp r

def WriteAllOrNothing (lv : LiveState) (m : Message)
    (sections : List (LiveState × LiveState)) (r : Int) : Prop :=
  (r = 0 -> 0 < m.len -> m.offset + m.len ≤ lv.total ∧
    forall i, i < m.len -> exists part, part ∈ sections ∧ StoresByte part.1 part.2 m i) ∧
  (r = -1 -> forall part, part ∈ sections -> Untouched part.1 part.2)

/-!
# The conditions
-/

/-- There is room for all the segments before the last one. -/
def RoomBeforeLast (lv : LiveState) (m : Message) : Prop :=
  exists lv', StoredRun m (firstSeg m) (lastSeg m - firstSeg m) lv lv'

def TryHolds (lv : LiveState) (m : Message) : Prop :=
  Writable lv m -> m.offset + m.len < 2 ^ 64 ∧
    (EndsInside lv.total m -> firstSeg m < lastSeg m -> ¬ RoomBeforeLast lv m)

def WriteHolds (lv : LiveState) (m : Message) (gaveUp : Option Nat) : Prop :=
  Writable lv m -> m.offset + m.len < 2 ^ 64 ∧
    (forall seg, gaveUp = some seg -> seg = firstSeg m) ∧
    (EndsInside lv.total m -> firstSeg m < lastSeg m -> gaveUp ≠ none)

/-!
# A message that wraps around
-/

theorem tryWriteLoop_apart {m : Message} {n s : Nat} {lv : LiveState}
    (h : forall s', s ≤ s' -> s' < s + n -> storeSegLocked lv s' m = (lv, 1)) :
    tryWriteLoop m n s lv = (lv, 0) := by
  induction n generalizing s with
  | zero => rfl
  | succ n ih =>
      rw [tryWriteLoop, h s (Nat.le_refl s) (by omega), if_pos rfl]
      exact ih (fun s' hlow hhigh => h s' (by omega) (by omega))

theorem writeLoop_apart {m : Message} {n s : Nat} {lv : LiveState} (habort : lv.aborted = false)
    (h : forall s', s ≤ s' -> s' < s + n -> storeSegLocked lv s' m = (lv, 1)) :
    writeLoop m n s lv = (lv, WriteEnd.returned 0) := by
  induction n generalizing s with
  | zero => rfl
  | succ n ih =>
      rw [writeLoop, if_neg (by rw [habort]; exact Bool.false_ne_true), h s (Nat.le_refl s)
        (by omega)]
      dsimp only
      rw [if_pos rfl]
      exact ih (fun s' hlow hhigh => h s' (by omega) (by omega))

/-- The sum is back at the front of the file: the message meets none of its segments. -/
theorem wrapped_apart {lv : LiveState} (htotal : lv.total < 2 ^ 64) {m : Message}
    (hm : Fits64 m) (hstart : m.offset = segSize * firstSeg m)
    (hwrap : 2 ^ 64 ≤ m.offset + m.len) {s : Nat} (hlow : firstSeg m ≤ s)
    (hhigh : s < firstSeg m + (lastSeg m + 1 - firstSeg m)) :
    storeSegLocked lv s m = (lv, 1) := by
  have hlast : s ≤ lastSeg m := by omega
  have hseg : segSize * s < 2 ^ 64 :=
    Nat.lt_of_le_of_lt (Nat.mul_le_mul_left segSize hlast) (lastSeg_mul_lt m)
  have hsum : u64 (m.offset + m.len) = m.offset + m.len - 2 ^ 64 := by
    have hoff := hm.offset
    have hlen := hm.len
    unfold u64
    omega
  have hzero : m.offset + m.len = 2 ^ 64 := by
    by_contra hne
    have hoff := hm.offset
    have hlen := hm.len
    have hback : u64 (m.offset + m.len - 2 ^ 64 + (2 ^ 64 - 1)) =
        m.offset + m.len - 2 ^ 64 - 1 := by
      unfold u64
      omega
    have hlastSeg : lastSeg m = (m.offset + m.len - 2 ^ 64 - 1) / segSize := by
      unfold lastSeg
      rw [hsum, hback]
    have hbefore : (m.offset + m.len - 2 ^ 64 - 1) / segSize < firstSeg m := by
      rw [Nat.div_lt_iff_lt_mul (by decide), Nat.mul_comm, ← hstart]
      omega
    omega
  have hapart : Apart lv m s := by
    unfold Apart
    rw [hsum, hzero, Nat.sub_self, Nat.zero_min]
    exact Nat.zero_le _
  have hcase := storeSegLocked_spec htotal hseg m
  generalize storeSegLocked lv s m = r at hcase
  cases hcase with
  | apart => rfl
  | part h => exact absurd hapart h
  | busy h => exact absurd hapart h
  | stored h => exact absurd hapart h

theorem start_of_writable {lv : LiveState} {m : Message} (h : Writable lv m) :
    m.offset = segSize * firstSeg m := by
  have haccept := h.accepts
  unfold acceptsMessage at haccept
  simp only [Bool.not_eq_true', Bool.or_eq_false_iff, bne_eq_false_iff_eq] at haccept
  have hdiv := Nat.div_add_mod m.offset segSize
  rw [haccept.2, Nat.add_zero] at hdiv
  exact hdiv.symm

theorem wsLiveTryWrite_writable {lv : LiveState} {m : Message} (h : Writable lv m) :
    wsLiveTryWrite lv m = tryWriteLoop m (lastSeg m + 1 - firstSeg m) (firstSeg m) lv := by
  have hpos := h.len_pos
  unfold wsLiveTryWrite
  rw [if_neg (by simp [h.active, h.aborted]), if_neg (by omega), if_neg (by simp [h.accepts])]

theorem wsLiveWrite_writable {lv : LiveState} {m : Message} (h : Writable lv m) :
    wsLiveWrite lv m = writeLoop m (lastSeg m + 1 - firstSeg m) (firstSeg m) lv := by
  have hpos := h.len_pos
  unfold wsLiveWrite
  rw [if_neg (by simp [h.active, h.aborted]), if_neg (by omega), if_neg (by simp [h.accepts])]

theorem wsLiveTryWrite_refused {lv : LiveState} {m : Message} (h : ¬ Writable lv m) :
    wsLiveTryWrite lv m = (lv, -1) ∨ (m.len = 0 ∧ wsLiveTryWrite lv m = (lv, 0)) := by
  unfold wsLiveTryWrite
  split
  · exact Or.inl rfl
  · rename_i hup
    split
    · rename_i hzero
      exact Or.inr ⟨hzero, rfl⟩
    · rename_i hlen
      split
      · exact Or.inl rfl
      · rename_i haccept
        simp only [Bool.or_eq_true, Bool.not_eq_true', not_or, Bool.not_eq_false,
          Bool.not_eq_true] at hup haccept
        exact absurd ⟨hup.1, hup.2, Nat.pos_of_ne_zero hlen, haccept⟩ h

theorem wsLiveWrite_refused {lv : LiveState} {m : Message} (h : ¬ Writable lv m) :
    wsLiveWrite lv m = (lv, WriteEnd.returned (-1)) ∨
      (m.len = 0 ∧ wsLiveWrite lv m = (lv, WriteEnd.returned 0)) := by
  unfold wsLiveWrite
  split
  · exact Or.inl rfl
  · rename_i hup
    split
    · rename_i hzero
      exact Or.inr ⟨hzero, rfl⟩
    · rename_i hlen
      split
      · exact Or.inl rfl
      · rename_i haccept
        simp only [Bool.or_eq_true, Bool.not_eq_true', not_or, Bool.not_eq_false,
          Bool.not_eq_true] at hup haccept
        exact absurd ⟨hup.1, hup.2, Nat.pos_of_ne_zero hlen, haccept⟩ h

/-!
# What a stored run does to the bytes
-/

theorem storesByte_of_storedRun {m : Message} {s k : Nat} {lv lv' : LiveState}
    (h : StoredRun m s k lv lv') (hb : Booked lv) (hal : Aligned lv.total m)
    (hfirst : firstSeg m ≤ s) (hlast : s + k ≤ lastSeg m + 1) {i : Nat} (hi : i < m.len)
    (hlow : s ≤ (m.offset + i) / segSize) (hhigh : (m.offset + i) / segSize < s + k) :
    StoresByte lv lv' m i := by
  have hlog := storedRun_log h hb hal hlast
  have hoff := offset_le_mul hal (Nat.le_trans hfirst hlow)
  have hends := hal.ends
  have hmul := div_mul_segSize_le (m.offset + i)
  have hsucc := lt_succ_div_mul (m.offset + i)
  have hsmall : segSize * ((m.offset + i) / segSize) < 2 ^ 64 := seg_small hal (by omega)
  rw [Nat.mul_succ] at hsucc
  refine ⟨_, segWrite lv m ((m.offset + i) / segSize), hlog, ?_, rfl, ⟨hmul, ?_⟩, ?_⟩
  · rw [List.mem_reverse]
    exact List.mem_map_of_mem (List.mem_range'_1.mpr ⟨hlow, hhigh⟩)
  · change m.offset + i < segSize * ((m.offset + i) / segSize) +
      segLenLocked lv ((m.offset + i) / segSize)
    rw [segLenLocked_eq hsmall]
    omega
  · change m.data (segSize * ((m.offset + i) / segSize) - m.offset +
      (m.offset + i - segSize * ((m.offset + i) / segSize))) = m.data i
    congr 1
    omega

/-- Every byte of the message is in one of its segments. -/
theorem byte_segment {total : Nat} {m : Message} (hal : Aligned total m) {i : Nat}
    (hi : i < m.len) : firstSeg m ≤ (m.offset + i) / segSize ∧
      (m.offset + i) / segSize < lastSeg m + 1 := by
  constructor
  · exact Nat.div_le_div_right (Nat.le_add_right m.offset i)
  · rw [lastSeg_aligned hal]
    exact Nat.lt_succ_of_le (Nat.div_le_div_right (by omega))

theorem not_untouched_of_storedRun {m : Message} {s k : Nat} {lv lv' : LiveState}
    (h : StoredRun m s k lv lv') (hb : Booked lv) (hal : Aligned lv.total m)
    (hlast : s + k ≤ lastSeg m + 1) (hk : 0 < k) : ¬ Untouched lv lv' := by
  intro hsame
  have hlog := storedRun_log h hb hal hlast
  have hlength := congrArg List.length (hlog.symm.trans hsame.stored)
  rw [List.length_append, List.length_reverse, List.length_map, List.length_range'] at hlength
  omega

theorem storedRun_zero {m : Message} {s : Nat} {lv lv' : LiveState}
    (h : StoredRun m s 0 lv lv') : lv' = lv := by
  cases h
  rfl

/-!
# The writer that does not wait
-/

theorem tryWriteLoop_of_storedRun {m : Message} {s k n : Nat} {lv lv' : LiveState}
    (h : StoredRun m s k lv lv') (hb : Booked lv) (hal : Aligned lv.total m)
    (hlast : s + k ≤ lastSeg m + 1) :
    tryWriteLoop m (k + n) s lv = tryWriteLoop m n (s + k) lv' := by
  induction h with
  | none s lv => rw [Nat.zero_add, Nat.add_zero]
  | @next s k lv lv' hstore hrest ih =>
      have hseg := seg_small hal (s := s) (by omega)
      rcases storeSegLocked_goes_on hb hseg (m := m) with ⟨hmid, htotal, _⟩
      have hcount : k + 1 + n = k + n + 1 := by omega
      have hplace : s + 1 + k = s + (k + 1) := by omega
      rw [hcount, tryWriteLoop_stored (storeSegLocked_stored hb hseg hstore).1,
        ih hmid (by rw [htotal]; exact hal) (by omega), hplace]

/-- The last segment is offered after the others, and it is not whole. -/
theorem tryWrite_cut {lv : LiveState} (hb : Booked lv) {m : Message} (h : Writable lv m)
    (hal : Aligned lv.total m) (hcut : EndsInside lv.total m) (hroom : RoomBeforeLast lv m) :
    exists lv', StoredRun m (firstSeg m) (lastSeg m - firstSeg m) lv lv' ∧
      wsLiveTryWrite lv m = (lv', -1) := by
  rcases hroom with ⟨lv', hrun⟩
  have hle := first_le_lastSeg hal
  have hcount : lastSeg m + 1 - firstSeg m = lastSeg m - firstSeg m + 1 := by omega
  have hplace : firstSeg m + (lastSeg m - firstSeg m) = lastSeg m := by omega
  have hon := storedRun_goes_on hrun hb hal (by omega)
  have hal' : Aligned lv'.total m := by
    rw [hon.2.1]
    exact hal
  have hpart : storeSegLocked lv' (lastSeg m) m = (lv', -1) := by
    rcases segment_cases hon.1 hal' hle (by omega : lastSeg m + (0 + 1) = lastSeg m + 1) with
      ⟨_, hwell⟩ | ⟨_, hwell⟩ | ⟨hpart, _⟩
    · rw [hon.2.1] at hwell
      exact absurd hcut (hwell rfl)
    · rw [hon.2.1] at hwell
      exact absurd hcut (hwell rfl)
    · exact hpart
  refine ⟨lv', hrun, ?_⟩
  rw [wsLiveTryWrite_writable h, hcount, tryWriteLoop_of_storedRun hrun hb hal (by omega), hplace,
    tryWriteLoop, hpart]
  rfl

theorem tryWrite_end {lv : LiveState} (hb : Booked lv) {m : Message} (h : Writable lv m)
    (hal : Aligned lv.total m) :
    exists k, StoredRun m (firstSeg m) k lv (wsLiveTryWrite lv m).1 ∧
      LoopEnd m lv.total (lastSeg m - firstSeg m + 1) k (wsLiveTryWrite lv m).2 := by
  have hle := first_le_lastSeg hal
  have hcount : lastSeg m + 1 - firstSeg m = lastSeg m - firstSeg m + 1 := by omega
  rw [wsLiveTryWrite_writable h, hcount]
  exact tryWriteLoop_end hb hal (Nat.le_refl _) (by omega)

theorem tryHolds_sound {lv : LiveState} (hb : SessionBooked lv) {m : Message}
    (h : TryHolds lv m) : TryAllOrNothing lv m := by
  by_cases hw : Writable lv m
  · have hbooked := (hb hw.active).1
    rcases h hw with ⟨hwrap, hcut⟩
    have hal := aligned_of_writable (total_lt hbooked.consistent) hw hwrap
    have hle := first_le_lastSeg hal
    rcases tryWrite_end hbooked hw hal with ⟨k, hrun, hend⟩
    constructor
    · intro hzero _
      refine ⟨hal.ends, ?_⟩
      intro i hi
      have hseg := byte_segment hal hi
      have hk : k = lastSeg m - firstSeg m + 1 := by
        rw [hzero] at hend
        cases hend with
        | all hk => exact hk
      exact storesByte_of_storedRun hrun hbooked hal (Nat.le_refl _) (by omega) hi hseg.1
        (by omega)
    · intro hminus
      rw [hminus] at hend
      cases hend with
      | cut hk hinside =>
          by_cases hmore : firstSeg m < lastSeg m
          · have hk : k = lastSeg m - firstSeg m := by omega
            rw [hk] at hrun
            exact absurd ⟨_, hrun⟩ (hcut hinside hmore)
          · have hk : k = 0 := by omega
            rw [hk] at hrun
            rw [storedRun_zero hrun]
            exact untouched_refl lv
  · rcases wsLiveTryWrite_refused hw with hminus | ⟨hlen, hzero⟩
    · refine ⟨?_, ?_⟩
      · intro hzero
        rw [hminus] at hzero
        cases hzero
      · intro _
        rw [hminus]
        exact untouched_refl lv
    · refine ⟨?_, ?_⟩
      · intro _ hpos
        omega
      · intro _
        rw [hzero]
        exact untouched_refl lv

theorem tryHolds_complete {lv : LiveState} (hb : SessionBooked lv) {m : Message}
    (hm : Fits64 m) (h : TryAllOrNothing lv m) : TryHolds lv m := by
  intro hw
  have hbooked := (hb hw.active).1
  have htotal := total_lt hbooked.consistent
  have hwrap : m.offset + m.len < 2 ^ 64 := by
    by_contra hnot
    have hzero : wsLiveTryWrite lv m = (lv, 0) := by
      rw [wsLiveTryWrite_writable hw]
      exact tryWriteLoop_apart (fun s hlow hhigh =>
        wrapped_apart htotal hm (start_of_writable hw) (Nat.le_of_not_lt hnot) hlow hhigh)
    have hends := (h.1 (by rw [hzero]) hw.len_pos).1
    omega
  refine ⟨hwrap, ?_⟩
  intro hinside hmore hroom
  have hal := aligned_of_writable htotal hw hwrap
  rcases tryWrite_cut hbooked hw hal hinside hroom with ⟨lv', hrun, hres⟩
  have hsame := h.2 (by rw [hres])
  rw [hres] at hsame
  exact not_untouched_of_storedRun hrun hbooked hal (by omega) (by omega) hsame

/-!
# The writer that waits
-/

/-- The sections of a call, from one segment to another: each of them stores some segments. -/
inductive Progress (m : Message) (total : Nat) :
    Nat -> List (LiveState × LiveState) -> Nat -> Prop where
  | done (s : Nat) : Progress m total s [] s
  | idle {s t : Nat} {lv : LiveState} {rest : List (LiveState × LiveState)}
      (h : Progress m total s rest t) : Progress m total s ((lv, lv) :: rest) t
  | stored {s k t : Nat} {lv lv' : LiveState} {rest : List (LiveState × LiveState)}
      (hrun : StoredRun m s k lv lv') (hb : Booked lv) (htotal : lv.total = total)
      (h : Progress m total (s + k) rest t) : Progress m total s ((lv, lv') :: rest) t

/-- How a call ends, at the segment {lit}`t`. -/
inductive CallEnd (m : Message) (total t : Nat) : Option Nat -> Int -> Prop where
  | all (ht : t = lastSeg m + 1) (h : ¬ EndsInside total m) : CallEnd m total t none 0
  | cut (ht : t = lastSeg m) (h : EndsInside total m) : CallEnd m total t none (-1)
  | gaveUp (ht : t ≤ lastSeg m) : CallEnd m total t (some t) (-1)

theorem progress_le {m : Message} {total s t : Nat} {sections : List (LiveState × LiveState)}
    (h : Progress m total s sections t) : s ≤ t := by
  induction h with
  | done s => exact Nat.le_refl s
  | idle _ ih => exact ih
  | stored _ _ _ _ ih => omega

theorem progress_bytes {m : Message} {total s t : Nat}
    {sections : List (LiveState × LiveState)} (h : Progress m total s sections t)
    (hal : Aligned total m) (hfirst : firstSeg m ≤ s) (hlast : t ≤ lastSeg m + 1) {i : Nat}
    (hi : i < m.len) (hlow : s ≤ (m.offset + i) / segSize)
    (hhigh : (m.offset + i) / segSize < t) :
    exists part, part ∈ sections ∧ StoresByte part.1 part.2 m i := by
  induction h with
  | done s => omega
  | idle _ ih =>
      rcases ih hfirst hlast hlow hhigh with ⟨part, hmem, hbyte⟩
      exact ⟨part, List.mem_cons_of_mem _ hmem, hbyte⟩
  | @stored s k t lv lv' rest hrun hb htotal hrest ih =>
      have hle := progress_le hrest
      by_cases hhere : (m.offset + i) / segSize < s + k
      · refine ⟨(lv, lv'), List.mem_cons_self, ?_⟩
        exact storesByte_of_storedRun hrun hb (by rw [htotal]; exact hal) hfirst (by omega) hi
          hlow hhere
      · rcases ih (by omega) hlast (Nat.le_of_not_lt hhere) hhigh with ⟨part, hmem, hbyte⟩
        exact ⟨part, List.mem_cons_of_mem _ hmem, hbyte⟩

/-- A call that has not got past its first segment has stored nothing, and the other way round. -/
theorem progress_untouched_iff {m : Message} {total s t : Nat}
    {sections : List (LiveState × LiveState)} (h : Progress m total s sections t)
    (hal : Aligned total m) (hlast : t ≤ lastSeg m + 1) :
    (forall part, part ∈ sections -> Untouched part.1 part.2) ↔ t = s := by
  induction h with
  | done s =>
      constructor
      · intro _
        rfl
      · intro _ part hmem
        cases hmem
  | @idle s t lv rest _ ih =>
      rw [List.forall_mem_cons, ih hlast]
      exact ⟨fun hboth => hboth.2, fun heq => ⟨untouched_refl lv, heq⟩⟩
  | @stored s k t lv lv' rest hrun hb htotal hrest ih =>
      have hle := progress_le hrest
      rw [List.forall_mem_cons, ih hlast]
      constructor
      · rintro ⟨hsame, heq⟩
        by_contra hne
        exact not_untouched_of_storedRun hrun hb (by rw [htotal]; exact hal) (by omega)
          (by omega) hsame
      · intro heq
        have hk : k = 0 := by omega
        subst hk
        rw [storedRun_zero hrun]
        exact ⟨untouched_refl lv, by omega⟩

theorem writeLoop_aborted {m : Message} {left seg : Nat} {lv : LiveState}
    (habort : lv.aborted = true) (hleft : 0 < left) :
    writeLoop m left seg lv = (lv, WriteEnd.returned (-1)) := by
  cases left with
  | zero => omega
  | succ n => rw [writeLoop, if_pos habort]

/-- A section's end and what follows it. -/
theorem callEnd_of_section {m : Message} {total n s k : Nat} {e : WriteEnd}
    {rest : List (LiveState × LiveState)} {gaveUp : Option Nat} {r : Int}
    (hend : SectionEnd m total n s k e) (hn : s + n = lastSeg m + 1)
    (hwaits : Waits m total e rest gaveUp r)
    (hnext : forall left, e = WriteEnd.blocked left (s + k) -> 0 < left ->
      s + k + left = lastSeg m + 1 ->
        exists t, Progress m total (s + k) rest t ∧ CallEnd m total t gaveUp r) :
    exists t, Progress m total (s + k) rest t ∧ CallEnd m total t gaveUp r := by
  cases hend with
  | all hk h =>
      cases hwaits
      exact ⟨s + k, Progress.done _, CallEnd.all (by omega) h⟩
  | blocked left hk hleft => exact hnext left rfl hleft (by omega)
  | cut hk h =>
      cases hwaits
      exact ⟨s + k, Progress.done _, CallEnd.cut (by omega) h⟩

theorem waits_end {m : Message} {total : Nat} (hal : Aligned total m) {e : WriteEnd}
    {rest : List (LiveState × LiveState)} {gaveUp : Option Nat} {r : Int}
    (h : Waits m total e rest gaveUp r) : forall left s, e = WriteEnd.blocked left s ->
      0 < left -> s + left = lastSeg m + 1 -> firstSeg m ≤ s ->
        exists t, Progress m total s rest t ∧ CallEnd m total t gaveUp r := by
  induction h with
  | returned r =>
      intro left s heq
      cases heq
  | expired left seg =>
      intro left s heq hleft hplace _
      cases heq
      exact ⟨seg, Progress.done seg, CallEnd.gaveUp (by omega)⟩
  | @aborted lv left seg r habort hres =>
      intro left s heq hleft hplace _
      cases heq
      have hloop : writeLoop m left seg lv = (lv, WriteEnd.returned (-1)) :=
        writeLoop_aborted habort hleft
      rw [hloop] at hres ⊢
      cases hres
      exact ⟨seg, Progress.idle (Progress.done seg), CallEnd.gaveUp (by omega)⟩
  | @woken lv left seg rest gaveUp r habort hb htotal hwaits ih =>
      intro left s heq hleft hplace hfirst
      cases heq
      have hal' : Aligned lv.total m := by
        rw [htotal]
        exact hal
      cases left with
      | zero => omega
      | succ n =>
          rcases writeLoop_end hb habort hal' hfirst (by omega) with ⟨k, hrun, hend⟩
          rw [htotal] at hend
          rcases callEnd_of_section hend (by omega) hwaits (fun left heq hpos hnext =>
            ih left (seg + k) heq hpos hnext (by omega)) with ⟨t, hprogress, hcall⟩
          exact ⟨t, Progress.stored hrun hb htotal hprogress, hcall⟩

theorem writeCall_end {lv : LiveState} (hb : Booked lv) {m : Message} (h : Writable lv m)
    (hal : Aligned lv.total m) {sections : List (LiveState × LiveState)} {gaveUp : Option Nat}
    {r : Int} (hcall : WriteCall lv m sections gaveUp r) :
    exists t, Progress m lv.total (firstSeg m) sections t ∧ CallEnd m lv.total t gaveUp r := by
  rcases hcall with ⟨rest, hsections, hwaits⟩
  have hle := first_le_lastSeg hal
  have hcount : lastSeg m + 1 - firstSeg m = lastSeg m - firstSeg m + 1 := by omega
  rw [wsLiveWrite_writable h, hcount] at hsections hwaits
  rcases writeLoop_end hb h.aborted hal (Nat.le_refl _)
    (by omega : firstSeg m + (lastSeg m - firstSeg m + 1) = lastSeg m + 1) with ⟨k, hrun, hend⟩
  rcases callEnd_of_section hend (by omega) hwaits (fun left heq hpos hnext =>
    waits_end hal hwaits left (firstSeg m + k) heq hpos hnext (by omega)) with
    ⟨t, hprogress, hfinal⟩
  rw [hsections]
  exact ⟨t, Progress.stored hrun hb rfl hprogress, hfinal⟩

theorem waits_returned {m : Message} {total : Nat} {r r' : Int}
    {rest : List (LiveState × LiveState)} {gaveUp : Option Nat}
    (h : Waits m total (WriteEnd.returned r) rest gaveUp r') :
    rest = [] ∧ gaveUp = none ∧ r' = r := by
  cases h
  exact ⟨rfl, rfl, rfl⟩

/-- A message that does not get as far as the loop changes nothing. -/
theorem writeCall_refused {lv : LiveState} {m : Message} (h : ¬ Writable lv m)
    {sections : List (LiveState × LiveState)} {gaveUp : Option Nat} {r : Int}
    (hcall : WriteCall lv m sections gaveUp r) : WriteAllOrNothing lv m sections r := by
  rcases hcall with ⟨rest, hsections, hwaits⟩
  rcases wsLiveWrite_refused h with hminus | ⟨hlen, hzero⟩
  · rw [hminus] at hsections hwaits
    rcases waits_returned hwaits with ⟨rfl, _, rfl⟩
    refine ⟨?_, ?_⟩
    · intro hr
      cases hr
    · intro _ part hmem
      rw [hsections] at hmem
      rw [List.mem_singleton.mp hmem]
      exact untouched_refl lv
  · rw [hzero] at hwaits
    rcases waits_returned hwaits with ⟨_, _, rfl⟩
    refine ⟨?_, ?_⟩
    · intro _ hpos
      omega
    · intro hr
      cases hr

theorem writeHolds_iff {lv : LiveState} (hb : SessionBooked lv) {m : Message} (hm : Fits64 m)
    {sections : List (LiveState × LiveState)} {gaveUp : Option Nat} {r : Int}
    (hcall : WriteCall lv m sections gaveUp r) :
    WriteAllOrNothing lv m sections r ↔ WriteHolds lv m gaveUp := by
  by_cases hw : Writable lv m
  · have hbooked := (hb hw.active).1
    have htotal := total_lt hbooked.consistent
    by_cases hwrap : m.offset + m.len < 2 ^ 64
    · have hal := aligned_of_writable htotal hw hwrap
      have hle := first_le_lastSeg hal
      rcases writeCall_end hbooked hw hal hcall with ⟨t, hprogress, hend⟩
      cases hend with
      | all ht hwell =>
          constructor
          · intro _ _
            refine ⟨hwrap, ?_, fun hinside => absurd hinside hwell⟩
            intro seg hseg
            cases hseg
          · intro _
            refine ⟨?_, ?_⟩
            · intro _ _
              refine ⟨hal.ends, ?_⟩
              intro i hi
              have hseg := byte_segment hal hi
              exact progress_bytes hprogress hal (Nat.le_refl _) (by omega) hi hseg.1 (by omega)
            · intro hr
              cases hr
      | cut ht hinside =>
          have hiff := progress_untouched_iff hprogress hal (by omega)
          constructor
          · intro hall _
            have heq := hiff.mp (hall.2 rfl)
            refine ⟨hwrap, ?_, fun _ hmore => absurd heq (by omega)⟩
            intro seg hseg
            cases hseg
          · intro hholds
            have hone : ¬ firstSeg m < lastSeg m := fun hmore =>
              (hholds hw).2.2 hinside hmore rfl
            refine ⟨?_, fun _ => hiff.mpr (by omega)⟩
            intro hr
            cases hr
      | gaveUp ht =>
          have hiff := progress_untouched_iff hprogress hal (by omega)
          constructor
          · intro hall _
            have heq := hiff.mp (hall.2 rfl)
            refine ⟨hwrap, ?_, fun _ _ hnone => ?_⟩
            · intro seg hseg
              cases hseg
              exact heq
            · cases hnone
          · intro hholds
            refine ⟨?_, fun _ => hiff.mpr ((hholds hw).2.1 t rfl)⟩
            intro hr
            cases hr
    · have hzero : wsLiveWrite lv m = (lv, WriteEnd.returned 0) := by
        rw [wsLiveWrite_writable hw]
        exact writeLoop_apart hw.aborted (fun s hlow hhigh =>
          wrapped_apart htotal hm (start_of_writable hw) (Nat.le_of_not_lt hwrap) hlow hhigh)
      constructor
      · intro hall
        rcases hcall with ⟨rest, _, hwaits⟩
        rw [hzero] at hwaits
        have hends := (hall.1 (waits_returned hwaits).2.2 hw.len_pos).1
        omega
      · intro hholds
        exact absurd (hholds hw).1 hwrap
  · constructor
    · intro _ hwritable
      exact absurd hwritable hw
    · intro _
      exact writeCall_refused hw hcall

end Live
end PkgManager
