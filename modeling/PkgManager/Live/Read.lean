import PkgManager.Live.Store

/-!
# A reader copies what the slots hold

The scan of a reader ends at the first missing segment.  When it finds none, the
copy goes through the range segment by segment, and every piece comes from the
slot that the segment owns.  What is known of the bytes in the slots is
therefore known of the bytes that the reader gets.
-/

namespace PkgManager
namespace Live

open WriteLog

theorem div_mul_segSize_le (p : Nat) : segSize * (p / segSize) ≤ p :=
  Nat.mul_div_le p segSize

theorem lt_succ_div_mul (p : Nat) : p < segSize * (p / segSize + 1) := by
  unfold segSize
  omega

theorem div_segSize_eq {s p : Nat} (hlow : segSize * s ≤ p) (hhigh : p < segSize * (s + 1)) :
    p / segSize = s := by
  unfold segSize at *
  omega

/-- Every byte that a resident segment has in its slot holds at its position. -/
structure Backed (holds : Nat -> UInt8 -> Prop) (lv : LiveState) : Prop where
  total_lt : lv.total < 2 ^ 64
  slotOf : forall s, s < lv.nsegs -> lv.present s = true -> 0 ≤ lv.slotOf s
  content : forall s i, s < lv.nsegs -> lv.present s = true -> i < segLenLocked lv s ->
    holds (segSize * s + i) (lv.slots (lv.slotOf s).toNat i)

theorem backed_of_consistent {lv : LiveState} (hc : Consistent lv) :
    Backed (fun p b => latest lv.stored p = some b) lv := by
  constructor
  · have htotal := hc.total_le
    unfold maxTotal at htotal
    omega
  · intro s _ hs
    exact (hc.present_iff s).mp hs
  · intro s i _ hs hi
    exact hc.content s i hs hi

theorem backed_of_same {holds : Nat -> UInt8 -> Prop} {lv lv' : LiveState}
    (h : SameCache lv lv') (hb : Backed holds lv) : Backed holds lv' := by
  constructor
  · rw [h.total]
    exact hb.total_lt
  · intro s hs hp
    rw [h.nsegs] at hs
    rw [h.present] at hp
    rw [h.slotOf]
    exact hb.slotOf s hs hp
  · intro s i hs hp hi
    rw [h.nsegs] at hs
    rw [h.present] at hp
    rw [segLenLocked_congr h.total] at hi
    rw [h.slots, h.slotOf]
    exact hb.content s i hs hp hi

/-!
# The scan
-/

/-- Every position of the range lies in a resident segment. -/
def RangePresent (lv : LiveState) (start stop : Nat) : Prop :=
  forall p, start ≤ p -> p < stop ->
    p / segSize < lv.nsegs ∧ lv.present (p / segSize) = true

theorem scanMiss_present {lv : LiveState} {stop n o : Nat} (hfuel : stop ≤ o + n)
    (hmiss : stop ≤ scanMiss lv stop n o) : RangePresent lv o stop := by
  induction n generalizing o with
  | zero =>
      intro p hlow hhigh
      omega
  | succ n ih =>
      rw [scanMiss] at hmiss
      by_cases hlt : o < stop
      · rw [if_pos hlt] at hmiss
        dsimp only at hmiss
        by_cases hgone : (decide (o / segSize >= lv.nsegs) || !lv.present (o / segSize)) = true
        · rw [if_pos hgone] at hmiss
          omega
        · rw [if_neg hgone] at hmiss
          have hpres : o / segSize < lv.nsegs ∧ lv.present (o / segSize) = true := by
            rw [Bool.or_eq_true, not_or] at hgone
            simpa using hgone
          generalize hend : (if u64 (segSize * (o / segSize + 1)) > lv.total then lv.total
              else u64 (segSize * (o / segSize + 1))) = sEnd at hmiss
          have hsEnd : sEnd ≤ segSize * (o / segSize + 1) := by
            have hmod : u64 (segSize * (o / segSize + 1)) ≤ segSize * (o / segSize + 1) :=
              Nat.mod_le _ _
            split at hend <;> omega
          have hpiece : RangePresent lv o sEnd := by
            intro p hlow hhigh
            have hseg : p / segSize = o / segSize :=
              div_segSize_eq (Nat.le_trans (div_mul_segSize_le o) hlow)
                (Nat.lt_of_lt_of_le hhigh hsEnd)
            rw [hseg]
            exact hpres
          generalize hnext : (if sEnd > o then sEnd else o + 1) = o' at hmiss
          have hstep : o < o' ∧ (o' = sEnd ∨ o' = o + 1) := by
            split at hnext <;> omega
          intro p hlow hhigh
          by_cases hp : p < o'
          · rcases hstep.2 with heq | heq
            · exact hpiece p hlow (by omega)
            · have hpo : p = o := by omega
              rw [hpo]
              exact hpres
          · by_cases hstop : o' ≥ stop
            · omega
            · rw [if_neg hstop] at hmiss
              exact ih (by omega) hmiss p (by omega) hhigh
      · intro p hlow hhigh
        omega

/-!
# What a reader leaves alone

A reader moves the stamps, the counters and the waiters, nothing else.
-/

structure Peeked (lv lv' : LiveState) : Prop where
  cache : SameCache lv lv'
  session : SameSession lv lv'

theorem peeked_refl (lv : LiveState) : Peeked lv lv :=
  ⟨sameCache_refl lv, sameSession_refl lv⟩

theorem peeked_trans {lv lv' lv'' : LiveState} (h : Peeked lv lv') (h' : Peeked lv' lv'') :
    Peeked lv lv'' :=
  ⟨sameCache_trans h.cache h'.cache, sameSession_trans h.session h'.session⟩

theorem peeked_copyPiece (lv : LiveState) (rc : ReadCall) (slot so m : Nat) :
    Peeked lv (copyPiece lv rc slot so m).1 := by
  constructor <;> constructor <;> rfl

theorem peeked_copyLoop {n : Nat} {lv lv' : LiveState} {rc rc' : ReadCall}
    (hloop : copyLoop n lv rc = (lv', rc')) : Peeked lv lv' := by
  induction n generalizing lv rc with
  | zero =>
      cases hloop
      exact peeked_refl _
  | succ n ih =>
      rw [copyLoop] at hloop
      split at hloop
      · split at hloop
        · cases hloop
          exact peeked_refl _
        · split at hloop
          · cases hloop
            exact peeked_refl _
          · exact peeked_trans (peeked_copyPiece _ _ _ _ _) (ih hloop)
      · cases hloop
        exact peeked_refl _

theorem peeked_readPresent {lv lv' : LiveState} {rc : ReadCall} {e : ReadEnd}
    (hres : readPresent lv rc = (lv', e)) : Peeked lv lv' := by
  unfold readPresent at hres
  cases hcopied : copyLoop (rc.count - rc.got) lv rc with
  | mk mid rc' =>
      rw [hcopied] at hres
      have hmid := peeked_copyLoop hcopied
      dsimp only at hres
      split at hres
      · cases hres
        split
        · refine peeked_trans hmid ?_
          constructor <;> constructor <;> rfl
        · exact hmid
      · cases hres
        exact hmid

theorem peeked_emitSeek {lv lv' : LiveState} {now seg : Nat} {sent : Bool}
    (h : emitSeekLocked lv now seg = (lv', sent)) : Peeked lv lv' := by
  unfold emitSeekLocked at h
  split at h
  · cases h
    constructor <;> constructor <;> rfl
  · cases h
    exact peeked_refl lv

theorem readMissing_cases {lv lv' : LiveState} {rc : ReadCall} {now needSeg : Nat}
    {e : ReadEnd} (hres : readMissing lv rc now needSeg = (lv', e)) :
    Peeked lv lv' ∧ (e = ReadEnd.seeking rc needSeg ∨ e = ReadEnd.waiting rc needSeg) := by
  unfold readMissing at hres
  dsimp only at hres
  generalize hpeak : (if needSeg > lv.peakSeg ∧ needSeg < lv.nsegs then
    { lv with peakSeg := needSeg } else lv) = peaked at hres
  have hpeaked : Peeked lv peaked := by
    rw [← hpeak]
    split
    · constructor <;> constructor <;> rfl
    · exact peeked_refl lv
  generalize hwait : (if needSeg < peaked.nsegs then
      { peaked with
        waiters := Function.update peaked.waiters needSeg (peaked.waiters needSeg + 1) }
      else peaked) = waited at hres
  have hwaited : Peeked lv waited := by
    refine peeked_trans hpeaked ?_
    rw [← hwait]
    split
    · constructor <;> constructor <;> rfl
    · exact peeked_refl peaked
  split at hres
  · cases hseek : emitSeekLocked waited now needSeg with
    | mk mid sent =>
        rw [hseek] at hres
        dsimp only at hres
        have hsame := peeked_trans hwaited (peeked_emitSeek hseek)
        split at hres
        · cases hres
          exact ⟨hsame, Or.inl rfl⟩
        · cases hres
          exact ⟨hsame, Or.inr rfl⟩
  · cases hres
    exact ⟨hwaited, Or.inr rfl⟩

theorem peeked_readLoop {lv lv' : LiveState} {rc : ReadCall} {now : Nat} {e : ReadEnd}
    (hres : readLoop lv rc now = (lv', e)) : Peeked lv lv' := by
  unfold readLoop at hres
  split at hres
  · cases hres
    exact peeked_refl lv
  · dsimp only at hres
    split at hres
    · exact peeked_readPresent hres
    · exact (readMissing_cases hres).1

theorem peeked_dropWaiter (lv : LiveState) (needSeg : Nat) :
    Peeked lv (dropWaiter lv needSeg) := by
  unfold dropWaiter
  split
  · constructor <;> constructor <;> rfl
  · exact peeked_refl lv

theorem peeked_readAfterSeek {lv lv' : LiveState} {rc : ReadCall} {needSeg now : Nat}
    {e : ReadEnd} (hres : readAfterSeek lv rc needSeg now = (lv', e)) : Peeked lv lv' := by
  have hdrop := peeked_dropWaiter lv needSeg
  unfold readAfterSeek at hres
  split at hres
  · cases hres
    exact hdrop
  · split at hres
    · exact peeked_trans hdrop (peeked_readLoop hres)
    · cases hres
      exact peeked_refl lv

theorem peeked_readAfterWait {lv lv' : LiveState} {rc : ReadCall} {needSeg now : Nat}
    {expired : Bool} {e : ReadEnd}
    (hres : readAfterWait lv rc needSeg now expired = (lv', e)) : Peeked lv lv' := by
  have hdrop := peeked_dropWaiter lv needSeg
  unfold readAfterWait at hres
  dsimp only at hres
  split at hres
  · cases hres
    exact hdrop
  · exact peeked_trans hdrop (peeked_readLoop hres)

theorem peeked_wsLiveRead {lv lv' : LiveState} {off count now : Nat} {buf : Nat -> UInt8}
    {e : ReadEnd} (hres : wsLiveRead lv off count now buf = (lv', e)) : Peeked lv lv' := by
  unfold wsLiveRead at hres
  split at hres
  · cases hres
    exact peeked_refl lv
  · split at hres
    · cases hres
      exact peeked_refl lv
    · split at hres
      · cases hres
        exact peeked_refl lv
      · exact peeked_readLoop hres

/-!
# The copy
-/

/-- What holds while a reader copies the range of length {lit}`count` at
{lit}`base`: every byte it has copied holds at its position. -/
structure Copying (holds : Nat -> UInt8 -> Prop) (lv : LiveState) (base : Nat)
    (rc : ReadCall) : Prop where
  off_eq : rc.off = base + rc.got
  got_le : rc.got ≤ rc.count
  in_file : base + rc.count ≤ lv.total
  present : RangePresent lv base (base + rc.count)
  copied : forall i, i < rc.got -> holds (base + i) (rc.dst i)

theorem copying_copyPiece {holds : Nat -> UInt8 -> Prop} {lv : LiveState}
    (hb : Backed holds lv) {base : Nat} {rc : ReadCall}
    (h : Copying holds lv base rc) {slot m : Nat} (hmore : rc.got + m ≤ rc.count)
    (hslot : slot = (lv.slotOf (rc.off / segSize)).toNat)
    (hpiece : copyStart rc + m ≤ segLenLocked lv (rc.off / segSize)) :
    Copying holds (copyPiece lv rc slot (copyStart rc) m).1 base
      (copyPiece lv rc slot (copyStart rc) m).2 := by
  constructor
  · change rc.off + m = base + (rc.got + m)
    rw [h.off_eq]
    omega
  · exact hmore
  · exact h.in_file
  · exact h.present
  · intro i hi
    change i < rc.got + m at hi
    change holds (base + i)
      (if rc.got ≤ i ∧ i < rc.got + m then
        lv.slots slot (copyStart rc + (i - rc.got)) else rc.dst i)
    by_cases hold : i < rc.got
    · rw [if_neg (by omega)]
      exact h.copied i hold
    · rw [if_pos (by omega), hslot]
      have hbelow := div_mul_segSize_le rc.off
      have hoff := h.off_eq
      have hpres := h.present rc.off (by omega) (by omega)
      have hcontent := hb.content (rc.off / segSize) (copyStart rc + (i - rc.got)) hpres.1
        hpres.2 (by omega)
      have hplace : segSize * (rc.off / segSize) + (copyStart rc + (i - rc.got)) = base + i := by
        unfold copyStart
        omega
      rw [hplace] at hcontent
      exact hcontent

/-- A piece of the copy is not empty, and stays in the range and in the segment. -/
theorem copySize_spec {lv : LiveState} {rc : ReadCall} (hmore : rc.got < rc.count)
    (hlen : copyStart rc < segLenLocked lv (rc.off / segSize)) :
    0 < copySize lv rc ∧ rc.got + copySize lv rc ≤ rc.count ∧
      copyStart rc + copySize lv rc ≤ segLenLocked lv (rc.off / segSize) := by
  have hstart : copyStart rc < segSize := by
    have habove := lt_succ_div_mul rc.off
    unfold copyStart
    unfold segSize at *
    omega
  unfold copySize
  generalize segLenLocked lv (rc.off / segSize) = segLeft at *
  dsimp only
  split <;> split at * <;> omega

theorem copyLoop_spec {holds : Nat -> UInt8 -> Prop} {n : Nat} {lv lv' : LiveState}
    (hb : Backed holds lv) {base : Nat} {rc rc' : ReadCall} (h : Copying holds lv base rc)
    (hfuel : rc.count ≤ rc.got + n) (hloop : copyLoop n lv rc = (lv', rc')) :
    Copying holds lv' base rc' ∧ rc'.got = rc.count ∧ rc'.count = rc.count := by
  induction n generalizing lv rc with
  | zero =>
      have hgot : rc.got = rc.count := by
        have hle := h.got_le
        omega
      rcases Prod.mk.inj hloop with ⟨hlv, hrc⟩
      rw [← hlv, ← hrc]
      exact ⟨h, hgot, rfl⟩
  | succ n ih =>
      rw [copyLoop] at hloop
      by_cases hmore : rc.got < rc.count
      · rw [if_pos hmore] at hloop
        have hoff := h.off_eq
        have hfile := h.in_file
        have htotal := hb.total_lt
        have hbelow := div_mul_segSize_le rc.off
        have habove := lt_succ_div_mul rc.off
        rw [Nat.mul_succ] at habove
        have hpres := h.present rc.off (by omega) (by omega)
        have hslot : copySlot lv rc = lv.slotOf (rc.off / segSize) := if_pos hpres.1
        have hresident := hb.slotOf (rc.off / segSize) hpres.1 hpres.2
        have hlen : copyStart rc < segLenLocked lv (rc.off / segSize) := by
          rw [segLenLocked_eq (by omega)]
          unfold copyStart
          omega
        rcases copySize_spec hmore hlen with ⟨hsome, hrange, hpiece⟩
        rw [if_neg (by omega), if_neg (by omega)] at hloop
        generalize copySize lv rc = m at hsome hrange hpiece hloop
        have hsame := peeked_copyPiece lv rc (copySlot lv rc).toNat (copyStart rc) m
        have hleft : rc.count ≤ rc.got + m + n := by omega
        have hnext := ih (backed_of_same hsame.cache hb)
          (copying_copyPiece hb h hrange (congrArg Int.toNat hslot) hpiece) hleft hloop
        exact hnext
      · rw [if_neg hmore] at hloop
        have hgot : rc.got = rc.count := by
          have hle := h.got_le
          omega
        rcases Prod.mk.inj hloop with ⟨hlv, hrc⟩
        rw [← hlv, ← hrc]
        exact ⟨h, hgot, rfl⟩

/-!
# One section of a reader

A reader that holds no data yet leaves the lock with no data, or returns the
whole range.
-/

/-- A reader that waits: its range lies in the file and nothing is copied. -/
structure Pending (lv : LiveState) (rc : ReadCall) : Prop where
  got : rc.got = 0
  in_file : rc.off + rc.count ≤ lv.total

/-- How a section of a reader may end. -/
def ReadEndOk (holds : Nat -> UInt8 -> Prop) (rc : ReadCall) : ReadEnd -> Prop
  | ReadEnd.returned n dst =>
      n < 0 ∨ (n = rc.count ∧ forall i, i < rc.count -> holds (rc.off + i) (dst i))
  | ReadEnd.rescan _ => False
  | ReadEnd.seeking rc' _ => rc' = rc
  | ReadEnd.waiting rc' _ => rc' = rc

theorem readEndOk_failed (holds : Nat -> UInt8 -> Prop) (rc : ReadCall) (dst : Nat -> UInt8) :
    ReadEndOk holds rc (ReadEnd.returned (-1) dst) := by
  have hneg : (-1 : Int) < 0 := by decide
  exact Or.inl hneg

theorem readPresent_spec {holds : Nat -> UInt8 -> Prop} {lv lv' : LiveState}
    (hb : Backed holds lv) {rc : ReadCall} (h : Pending lv rc)
    (hpresent : RangePresent lv rc.off (rc.off + rc.count)) {e : ReadEnd}
    (hres : readPresent lv rc = (lv', e)) : ReadEndOk holds rc e := by
  have hgot := h.got
  have hstart : Copying holds lv rc.off rc := by
    constructor
    · rw [hgot, Nat.add_zero]
    · rw [hgot]
      exact Nat.zero_le _
    · exact h.in_file
    · exact hpresent
    · intro i hi
      rw [hgot] at hi
      omega
  unfold readPresent at hres
  cases hcopied : copyLoop (rc.count - rc.got) lv rc with
  | mk mid rc' =>
      rw [hcopied] at hres
      dsimp only at hres
      rcases copyLoop_spec hb hstart (by omega) hcopied with ⟨hdone, hall, hcount⟩
      rw [if_pos (by omega)] at hres
      cases hres
      right
      constructor
      · rw [hall]
      · intro i hi
        exact hdone.copied i (by omega)

theorem readLoop_spec {holds : Nat -> UInt8 -> Prop} {lv lv' : LiveState}
    (hb : Backed holds lv) {rc : ReadCall} (h : Pending lv rc) {now : Nat} {e : ReadEnd}
    (hres : readLoop lv rc now = (lv', e)) : ReadEndOk holds rc e := by
  have hgot := h.got
  have hfile := h.in_file
  have htotal := hb.total_lt
  unfold readLoop at hres
  split at hres
  · cases hres
    exact readEndOk_failed holds rc _
  · have hstop : u64 (rc.off + (rc.count - rc.got)) = rc.off + rc.count := by
      rw [hgot, Nat.sub_zero]
      exact u64_of_lt (by omega)
    rw [hstop] at hres
    dsimp only at hres
    split at hres
    · rename_i hmiss
      exact readPresent_spec hb h (scanMiss_present (by omega) hmiss) hres
    · rcases (readMissing_cases hres).2 with hseek | hwait
      · rw [hseek]
        rfl
      · rw [hwait]
        rfl

theorem pending_of_same {lv lv' : LiveState} (h : SameCache lv lv') {rc : ReadCall}
    (hp : Pending lv rc) : Pending lv' rc := by
  refine ⟨hp.got, ?_⟩
  rw [h.total]
  exact hp.in_file

/-- A section that goes through {lit}`dropWaiter` first. -/
theorem readLoop_dropWaiter_spec {holds : Nat -> UInt8 -> Prop} {lv lv' : LiveState}
    (hb : Backed holds lv) {rc : ReadCall} (h : Pending lv rc) {needSeg now : Nat}
    {e : ReadEnd} (hres : readLoop (dropWaiter lv needSeg) rc now = (lv', e)) :
    ReadEndOk holds rc e := by
  have hdrop := (peeked_dropWaiter lv needSeg).cache
  exact readLoop_spec (backed_of_same hdrop hb) (pending_of_same hdrop h) hres

theorem readAfterSeek_spec {holds : Nat -> UInt8 -> Prop} {lv lv' : LiveState}
    (hb : Backed holds lv) {rc : ReadCall} (h : Pending lv rc) {needSeg now : Nat}
    {e : ReadEnd} (hres : readAfterSeek lv rc needSeg now = (lv', e)) :
    ReadEndOk holds rc e := by
  unfold readAfterSeek at hres
  split at hres
  · cases hres
    exact readEndOk_failed holds rc _
  · split at hres
    · exact readLoop_dropWaiter_spec hb h hres
    · cases hres
      rfl

theorem readAfterWait_spec {holds : Nat -> UInt8 -> Prop} {lv lv' : LiveState}
    (hb : Backed holds lv) {rc : ReadCall} (h : Pending lv rc) {needSeg now : Nat}
    {expired : Bool} {e : ReadEnd}
    (hres : readAfterWait lv rc needSeg now expired = (lv', e)) : ReadEndOk holds rc e := by
  unfold readAfterWait at hres
  dsimp only at hres
  split at hres
  · cases hres
    exact readEndOk_failed holds rc _
  · exact readLoop_dropWaiter_spec hb h hres

end Live
end PkgManager
