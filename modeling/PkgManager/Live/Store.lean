import PkgManager.Live.Cache

/-!
# Writers keep the cache consistent

A stored segment is a whole segment of the message: it starts where the segment
starts, and the log records the bytes that were copied into the slot.
-/

namespace PkgManager
namespace Live

open WriteLog

/-- The session goes on with a consistent cache. -/
structure Kept (lv lv' : LiveState) : Prop where
  consistent : Consistent lv'
  active : lv'.active = lv.active
  freePending : lv'.freePending = lv.freePending
  total : lv'.total = lv.total

theorem kept_refl {lv : LiveState} (hc : Consistent lv) : Kept lv lv :=
  ⟨hc, rfl, rfl, rfl⟩

theorem kept_trans {lv lv' lv'' : LiveState} (h : Kept lv lv') (h' : Kept lv' lv'') :
    Kept lv lv'' :=
  ⟨h'.consistent, h'.active.trans h.active, h'.freePending.trans h.freePending,
    h'.total.trans h.total⟩

theorem kept_of_same {lv lv' : LiveState} (hc : Consistent lv) (h : SameCache lv lv') :
    Kept lv lv' :=
  ⟨consistent_of_same h hc, h.active, h.freePending, h.total⟩

/-- The positions of another segment are outside the write of this one. -/
theorem not_covers_other_segment {s seg len i : Nat} {data : Nat -> UInt8}
    (hne : s ≠ seg) (hi : i < segSize) (hlen : len ≤ segSize) :
    ¬ Write.Covers { start := segSize * seg, len := len, data := data }
      (segSize * s + i) := by
  apply not_covers_of_disjoint
  dsimp only
  unfold segSize at *
  omega

theorem fillSlot_kept {lv mid : LiveState} (hc : Consistent lv) {seg slot : Nat}
    (hseg : seg < lv.nsegs) (halloc : Allocated lv mid seg slot)
    {sLen from_ : Nat} (hlen : sLen = segLenLocked lv seg) (resident : Bool) (m : Message) :
    Kept lv (fillSlot mid seg slot sLen from_ resident m) := by
  have hstart : u64 (segSize * seg) = segSize * seg :=
    u64_of_lt (mul_segSize_lt_u64 hc hseg)
  have hsLen : sLen ≤ segSize := by
    rw [hlen, segLenLocked_resident hc hseg]
    exact Nat.min_le_left _ _
  refine ⟨?_, halloc.active, halloc.freePending, halloc.total⟩
  constructor
  · change mid.total ≤ maxTotal
    rw [halloc.total]
    exact hc.total_le
  · change mid.nsegs = (mid.total + segSize - 1) / segSize
    rw [halloc.nsegs, halloc.total]
    exact hc.nsegs_eq
  · intro s hs
    change 0 ≤ mid.slotOf s at hs
    change s < mid.nsegs ∧ (mid.slotOf s).toNat < mid.nslots ∧
      mid.slotSeg (mid.slotOf s).toNat = s
    rw [halloc.nsegs, halloc.nslots]
    by_cases heq : s = seg
    · rw [heq, halloc.slotOf_seg, Int.toNat_natCast]
      exact ⟨hseg, halloc.slot_lt, halloc.slotSeg_slot⟩
    · rcases halloc.others s heq hs with ⟨hold, _, hback⟩
      rw [hback, hold]
      rw [hold] at hs
      exact hc.owner s hs
  · intro s
    change Function.update mid.present seg true s = true ↔ 0 ≤ mid.slotOf s
    by_cases heq : s = seg
    · rw [heq, Function.update_self, halloc.slotOf_seg]
      simp
    · rw [Function.update_of_ne heq]
      exact halloc.present_others s heq
  · intro s i hs hi
    change Function.update mid.present seg true s = true at hs
    have htotal : (fillSlot mid seg slot sLen from_ resident m).total = lv.total :=
      halloc.total
    rw [segLenLocked_congr htotal] at hi
    change latest
        ({ start := u64 (segSize * seg), len := sLen, data := fun i => m.data (from_ + i) } ::
          mid.stored) (segSize * s + i) =
      some (Function.update mid.slots slot
        (fun i => if i < sLen then m.data (from_ + i) else mid.slots slot i)
        (mid.slotOf s).toNat i)
    rw [hstart, halloc.stored]
    by_cases heq : s = seg
    · subst heq
      rw [← hlen] at hi
      rw [halloc.slotOf_seg, Int.toNat_natCast, Function.update_self, if_pos hi]
      have hcov : Write.Covers
          { start := segSize * s, len := sLen, data := fun i => m.data (from_ + i) }
          (segSize * s + i) := covers_add hi
      rw [latest_cons_covers lv.stored hcov]
      simp
    · rw [Function.update_of_ne heq] at hs
      have hnonneg := (halloc.present_others s heq).mp hs
      rcases halloc.others s heq hnonneg with ⟨hold, hother, _⟩
      rw [hold] at hnonneg hother
      have hs' : lv.present s = true := (hc.present_iff s).mpr hnonneg
      have hslot : (lv.slotOf s).toNat ≠ slot := by omega
      have hiseg : i < segSize := by
        have hb := (hc.owner s hnonneg).1
        rw [segLenLocked_resident hc hb] at hi
        exact Nat.lt_of_lt_of_le hi (Nat.min_le_left _ _)
      rw [hold, Function.update_of_ne hslot, halloc.slots]
      rw [latest_cons_of_not_covers lv.stored (not_covers_other_segment heq hiseg hsLen)]
      exact hc.content s i hs' hi

/-- Storing a segment changes nothing, or stores the whole segment. -/
theorem storeSegLocked_cases {lv : LiveState} (hc : Consistent lv) {seg : Nat}
    (hseg : segSize * seg < 2 ^ 64) (m : Message) :
    (exists r : Int, (r = 1 ∨ r = -1 ∨ r = -2) ∧ storeSegLocked lv seg m = (lv, r)) ∨
      exists (mid : LiveState) (slot : Nat), seg < lv.nsegs ∧ m.offset ≤ segSize * seg ∧
        Allocated lv mid seg slot ∧
        storeSegLocked lv seg m =
          (fillSlot mid seg slot (segLenLocked lv seg) (segSize * seg - m.offset)
            (lv.present seg) m, (slot : Int)) := by
  have hlen : segLenLocked lv seg = min segSize (lv.total - segSize * seg) :=
    segLenLocked_eq hseg
  unfold storeSegLocked
  rw [u64_of_lt hseg]
  dsimp only
  generalize hstart : (if m.offset > segSize * seg then m.offset else segSize * seg) = wStart
  have hlow : segSize * seg ≤ wStart ∧ m.offset ≤ wStart := by
    split at hstart <;> omega
  have hstop : (if u64 (m.offset + m.len) < u64 (segSize * seg + segLenLocked lv seg)
      then u64 (m.offset + m.len) else u64 (segSize * seg + segLenLocked lv seg)) ≤
      u64 (segSize * seg + segLenLocked lv seg) := by
    split <;> omega
  generalize (if u64 (m.offset + m.len) < u64 (segSize * seg + segLenLocked lv seg)
      then u64 (m.offset + m.len) else u64 (segSize * seg + segLenLocked lv seg)) = wEnd
    at hstop ⊢
  by_cases hempty : wEnd ≤ wStart
  · rw [if_pos hempty]
    exact Or.inl ⟨1, Or.inl rfl, rfl⟩
  · rw [if_neg hempty]
    by_cases hwhole : wEnd - wStart = segLenLocked lv seg
    · rw [if_neg (by simpa using hwhole)]
      have hend : u64 (segSize * seg + segLenLocked lv seg) ≤
          segSize * seg + segLenLocked lv seg := Nat.mod_le _ _
      have hsame : wStart = segSize * seg := by omega
      have hin : segSize * seg < lv.total := by omega
      have hnsegs := lt_nsegs hc hin
      rw [hsame]
      rcases allocSlotLocked_spec hc hnsegs with ⟨r, hbusy, halloc⟩ | ⟨mid, slot, halloc, hspec⟩
      · rw [halloc]
        dsimp only
        rw [if_pos hbusy]
        exact Or.inl ⟨-2, Or.inr (Or.inr rfl), rfl⟩
      · rw [halloc]
        dsimp only
        rw [if_neg (by omega), Int.toNat_natCast]
        exact Or.inr ⟨mid, slot, hnsegs, by omega, hspec, rfl⟩
    · rw [if_pos (by simpa using hwhole)]
      exact Or.inl ⟨-1, Or.inr (Or.inl rfl), rfl⟩

theorem storeSegLocked_kept {lv lv' : LiveState} (hc : Consistent lv) {seg : Nat}
    (hseg : segSize * seg < 2 ^ 64) {m : Message} {r : Int}
    (h : storeSegLocked lv seg m = (lv', r)) : Kept lv lv' := by
  rcases storeSegLocked_cases hc hseg m with ⟨r', _, hsame⟩ | ⟨mid, slot, hnsegs, _, halloc, hfill⟩
  · rw [hsame] at h
    cases h
    exact kept_refl hc
  · rw [hfill] at h
    cases h
    exact fillSlot_kept hc hnsegs halloc rfl (lv.present seg) m

/-!
# Loops over the segments of a message

Both writers count up to the last segment of the message, whose number stays in
the range of the 64-bit file positions.
-/

theorem lastSeg_mul_lt (m : Message) : segSize * lastSeg m < 2 ^ 64 := by
  have hlt := u64_lt (u64 (m.offset + m.len) + (2 ^ 64 - 1))
  have hdiv := Nat.mul_div_le (u64 (u64 (m.offset + m.len) + (2 ^ 64 - 1))) segSize
  unfold lastSeg
  omega

theorem mul_segSize_lt_of_le_last {m : Message} {n s : Nat} (h : s + (n + 1) ≤ lastSeg m + 1) :
    segSize * s < 2 ^ 64 := by
  have hle : segSize * s ≤ segSize * lastSeg m := Nat.mul_le_mul_left segSize (by omega)
  exact Nat.lt_of_le_of_lt hle (lastSeg_mul_lt m)

/-- What a store keeps, for every segment of the message, both loops keep. -/
theorem tryWriteLoop_invariant {inv : LiveState -> Prop} {m : Message}
    (hstore : forall s lv lv' r, segSize * s < 2 ^ 64 -> inv lv ->
      storeSegLocked lv s m = (lv', r) -> inv lv')
    {n s : Nat} (hlast : s + n ≤ lastSeg m + 1) {lv lv' : LiveState} (hinv : inv lv) {r : Int}
    (h : tryWriteLoop m n s lv = (lv', r)) : inv lv' := by
  induction n generalizing s lv with
  | zero =>
      cases h
      exact hinv
  | succ n ih =>
      have hseg := mul_segSize_lt_of_le_last hlast
      have hrest : s + 1 + n ≤ lastSeg m + 1 := by omega
      rw [tryWriteLoop] at h
      cases hres : storeSegLocked lv s m with
      | mk mid r' =>
          have hmid := hstore s lv mid r' hseg hinv hres
          rw [hres] at h
          dsimp only at h
          split at h
          · exact ih hrest hmid h
          · split at h
            · cases h
              exact hmid
            · split at h
              · cases h
                exact hmid
              · exact ih hrest hmid h

theorem writeLoop_invariant {inv : LiveState -> Prop} {m : Message}
    (hstore : forall s lv lv' r, segSize * s < 2 ^ 64 -> inv lv ->
      storeSegLocked lv s m = (lv', r) -> inv lv')
    {n s : Nat} (hlast : s + n ≤ lastSeg m + 1) {lv lv' : LiveState} (hinv : inv lv)
    {e : WriteEnd} (h : writeLoop m n s lv = (lv', e)) :
    inv lv' ∧ forall left seg, e = WriteEnd.blocked left seg -> seg + left ≤ lastSeg m + 1 := by
  have hreturn : forall {mid : LiveState} (r : Int), inv mid -> inv mid ∧
      forall left seg, WriteEnd.returned r = WriteEnd.blocked left seg ->
        seg + left ≤ lastSeg m + 1 := by
    intro mid r hmid
    constructor
    · exact hmid
    · intro left seg hblocked
      cases hblocked
  induction n generalizing s lv with
  | zero =>
      cases h
      exact hreturn 0 hinv
  | succ n ih =>
      have hseg := mul_segSize_lt_of_le_last hlast
      have hrest : s + 1 + n ≤ lastSeg m + 1 := by omega
      rw [writeLoop] at h
      split at h
      · cases h
        exact hreturn (-1) hinv
      · cases hres : storeSegLocked lv s m with
        | mk mid r' =>
            have hmid := hstore s lv mid r' hseg hinv hres
            rw [hres] at h
            dsimp only at h
            split at h
            · exact ih hrest hmid h
            · split at h
              · cases h
                exact hreturn (-1) hmid
              · split at h
                · exact ih hrest hmid h
                · cases h
                  constructor
                  · exact hmid
                  · intro left seg hblocked
                    cases hblocked
                    omega

theorem first_le_last (m : Message) :
    lastSeg m + 1 - firstSeg m = 0 ∨
      firstSeg m + (lastSeg m + 1 - firstSeg m) ≤ lastSeg m + 1 := by
  omega

theorem wsLiveTryWrite_invariant {inv : LiveState -> Prop} {m : Message}
    (hstore : forall s lv lv' r, segSize * s < 2 ^ 64 -> inv lv ->
      storeSegLocked lv s m = (lv', r) -> inv lv')
    {lv lv' : LiveState} (hinv : inv lv) {r : Int}
    (h : wsLiveTryWrite lv m = (lv', r)) : inv lv' := by
  unfold wsLiveTryWrite at h
  split at h
  · cases h
    exact hinv
  · split at h
    · cases h
      exact hinv
    · split at h
      · cases h
        exact hinv
      · rcases first_le_last m with hzero | hle
        · rw [hzero] at h
          cases h
          exact hinv
        · exact tryWriteLoop_invariant hstore hle hinv h

theorem wsLiveWrite_invariant {inv : LiveState -> Prop} {m : Message}
    (hstore : forall s lv lv' r, segSize * s < 2 ^ 64 -> inv lv ->
      storeSegLocked lv s m = (lv', r) -> inv lv')
    {lv lv' : LiveState} (hinv : inv lv) {e : WriteEnd}
    (h : wsLiveWrite lv m = (lv', e)) :
    inv lv' ∧ forall left seg, e = WriteEnd.blocked left seg -> seg + left ≤ lastSeg m + 1 := by
  have hstop : forall r : Int, inv lv ∧ forall left seg,
      WriteEnd.returned r = WriteEnd.blocked left seg -> seg + left ≤ lastSeg m + 1 := by
    intro r
    constructor
    · exact hinv
    · intro left seg hblocked
      cases hblocked
  unfold wsLiveWrite at h
  split at h
  · cases h
    exact hstop (-1)
  · split at h
    · cases h
      exact hstop 0
    · split at h
      · cases h
        exact hstop (-1)
      · rcases first_le_last m with hzero | hle
        · rw [hzero] at h
          cases h
          exact hstop 0
        · exact writeLoop_invariant hstore hle hinv h

/-- The invariant that the loops of a consistent session keep. -/
theorem kept_store {lv₀ : LiveState} {m : Message} (s : Nat) (lv lv' : LiveState) (r : Int)
    (hseg : segSize * s < 2 ^ 64) (hkept : Kept lv₀ lv)
    (h : storeSegLocked lv s m = (lv', r)) : Kept lv₀ lv' :=
  kept_trans hkept (storeSegLocked_kept hkept.consistent hseg h)

theorem writeLoop_kept {m : Message} {n s : Nat} (hlast : s + n ≤ lastSeg m + 1)
    {lv lv' : LiveState} (hc : Consistent lv) {e : WriteEnd}
    (h : writeLoop m n s lv = (lv', e)) :
    Kept lv lv' ∧
      forall left seg, e = WriteEnd.blocked left seg -> seg + left ≤ lastSeg m + 1 :=
  writeLoop_invariant kept_store hlast (kept_refl hc) h

theorem wsLiveTryWrite_kept {lv lv' : LiveState} (hc : Consistent lv) {m : Message} {r : Int}
    (h : wsLiveTryWrite lv m = (lv', r)) : Kept lv lv' :=
  wsLiveTryWrite_invariant kept_store (kept_refl hc) h

theorem wsLiveWrite_kept {lv lv' : LiveState} (hc : Consistent lv) {m : Message} {e : WriteEnd}
    (h : wsLiveWrite lv m = (lv', e)) :
    Kept lv lv' ∧
      forall left seg, e = WriteEnd.blocked left seg -> seg + left ≤ lastSeg m + 1 :=
  wsLiveWrite_invariant kept_store (kept_refl hc) h

end Live
end PkgManager
