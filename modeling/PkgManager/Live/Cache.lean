import PkgManager.Live.Session
import Mathlib.Tactic.Common

/-!
# The cache invariant

A resident segment owns its slot: the slot names the segment back, and the slot
holds, byte by byte, what the log of stored segments has at the segment's
positions.  The invariant needs segment numbers that fit a C {lit}`int`; the
sizes that the callers of {lit}`ws_live_create` accept are far below the bound.
-/

namespace PkgManager
namespace Live

open WriteLog

/-- The largest total for which every segment number fits an {lit}`int`. -/
def maxTotal : Nat := 2 ^ 51

structure Consistent (lv : LiveState) : Prop where
  total_le : lv.total ≤ maxTotal
  nsegs_eq : lv.nsegs = (lv.total + segSize - 1) / segSize
  owner : forall s, 0 ≤ lv.slotOf s ->
    s < lv.nsegs ∧ (lv.slotOf s).toNat < lv.nslots ∧ lv.slotSeg (lv.slotOf s).toNat = s
  present_iff : forall s, lv.present s = true ↔ 0 ≤ lv.slotOf s
  content : forall s i, lv.present s = true -> i < segLenLocked lv s ->
    latest lv.stored (segSize * s + i) = some (lv.slots (lv.slotOf s).toNat i)

/-- The fields that the invariant speaks about are the same. -/
structure SameCache (lv lv' : LiveState) : Prop where
  active : lv'.active = lv.active
  freePending : lv'.freePending = lv.freePending
  total : lv'.total = lv.total
  nsegs : lv'.nsegs = lv.nsegs
  nslots : lv'.nslots = lv.nslots
  slotOf : lv'.slotOf = lv.slotOf
  slotSeg : lv'.slotSeg = lv.slotSeg
  present : lv'.present = lv.present
  slots : lv'.slots = lv.slots
  stored : lv'.stored = lv.stored

theorem sameCache_refl (lv : LiveState) : SameCache lv lv := by
  constructor <;> rfl

theorem sameCache_trans {lv lv' lv'' : LiveState}
    (h : SameCache lv lv') (h' : SameCache lv' lv'') : SameCache lv lv'' where
  active := h'.active.trans h.active
  freePending := h'.freePending.trans h.freePending
  total := h'.total.trans h.total
  nsegs := h'.nsegs.trans h.nsegs
  nslots := h'.nslots.trans h.nslots
  slotOf := h'.slotOf.trans h.slotOf
  slotSeg := h'.slotSeg.trans h.slotSeg
  present := h'.present.trans h.present
  slots := h'.slots.trans h.slots
  stored := h'.stored.trans h.stored

/-- It is the same session, and as many streams are attached to it. -/
structure SameSession (lv lv' : LiveState) : Prop where
  active : lv'.active = lv.active
  aborted : lv'.aborted = lv.aborted
  refs : lv'.refs = lv.refs
  freePending : lv'.freePending = lv.freePending
  sessionId : lv'.sessionId = lv.sessionId
  filename : lv'.filename = lv.filename
  total : lv'.total = lv.total

theorem sameSession_refl (lv : LiveState) : SameSession lv lv := by
  constructor <;> rfl

theorem sameSession_trans {lv lv' lv'' : LiveState}
    (h : SameSession lv lv') (h' : SameSession lv' lv'') : SameSession lv lv'' where
  active := h'.active.trans h.active
  aborted := h'.aborted.trans h.aborted
  refs := h'.refs.trans h.refs
  freePending := h'.freePending.trans h.freePending
  sessionId := h'.sessionId.trans h.sessionId
  filename := h'.filename.trans h.filename
  total := h'.total.trans h.total

theorem segLenLocked_congr {lv lv' : LiveState} (h : lv'.total = lv.total) (s : Nat) :
    segLenLocked lv' s = segLenLocked lv s := by
  unfold segLenLocked
  rw [h]

theorem consistent_of_same {lv lv' : LiveState} (h : SameCache lv lv')
    (hc : Consistent lv) : Consistent lv' := by
  constructor
  · rw [h.total]
    exact hc.total_le
  · rw [h.nsegs, h.total]
    exact hc.nsegs_eq
  · intro s hs
    rw [h.slotOf] at hs ⊢
    rw [h.nsegs, h.nslots, h.slotSeg]
    exact hc.owner s hs
  · intro s
    rw [h.present, h.slotOf]
    exact hc.present_iff s
  · intro s i hs hi
    rw [h.present] at hs
    rw [segLenLocked_congr h.total] at hi
    rw [h.stored, h.slots, h.slotOf]
    exact hc.content s i hs hi

/-!
# Segment arithmetic
-/

theorem nsegs_le {lv : LiveState} (hc : Consistent lv) : lv.nsegs ≤ 2 ^ 31 := by
  have htotal := hc.total_le
  rw [hc.nsegs_eq]
  unfold maxTotal at htotal
  unfold segSize
  omega

theorem segLenLocked_eq {lv : LiveState} {s : Nat} (h : segSize * s < 2 ^ 64) :
    segLenLocked lv s = min segSize (lv.total - segSize * s) := by
  unfold segLenLocked
  rw [u64_of_lt h]
  dsimp only
  split
  · omega
  · split <;> omega

theorem mul_segSize_lt {lv : LiveState} (hc : Consistent lv) {s : Nat} (h : s < lv.nsegs) :
    segSize * s < lv.total := by
  rw [hc.nsegs_eq] at h
  unfold segSize at h ⊢
  omega

theorem mul_segSize_lt_u64 {lv : LiveState} (hc : Consistent lv) {s : Nat}
    (h : s < lv.nsegs) : segSize * s < 2 ^ 64 := by
  have hlt := mul_segSize_lt hc h
  have htotal := hc.total_le
  unfold maxTotal at htotal
  omega

theorem lt_nsegs {lv : LiveState} (hc : Consistent lv) {s : Nat}
    (h : segSize * s < lv.total) : s < lv.nsegs := by
  rw [hc.nsegs_eq]
  unfold segSize at h ⊢
  omega

theorem segLenLocked_resident {lv : LiveState} (hc : Consistent lv) {s : Nat}
    (h : s < lv.nsegs) : segLenLocked lv s = min segSize (lv.total - segSize * s) :=
  segLenLocked_eq (mul_segSize_lt_u64 hc h)

/-!
# The victim of an eviction
-/

/-- A victim, when there is one, is a resident segment other than the header. -/
def VictimOk (lv : LiveState) (v : Victim) : Prop :=
  v.oldestSeg < 0 ∨
    exists s, 1 ≤ s ∧ s < lv.nsegs ∧ v.oldestSeg = cInt s ∧ lv.present s = true ∧
      0 ≤ lv.slotOf s ∧ lv.waiters s = 0

theorem considerVictim_ok {lv : LiveState} {seg s : Nat} {iw far : Bool} {v : Victim}
    (hlow : 1 ≤ s) (hs : s < lv.nsegs) (hv : VictimOk lv v) :
    VictimOk lv (considerVictim lv seg iw far v s) := by
  unfold considerVictim
  split
  · exact hv
  · rename_i hres
    split
    · exact hv
    · rename_i hwait
      split
      · exact hv
      · dsimp only
        split
        · have hparts : lv.present s = true ∧ 0 ≤ lv.slotOf s := by simpa using hres
          have hnowait : lv.waiters s = 0 := by omega
          refine Or.inr ⟨s, hlow, hs, ?_, hparts.1, hparts.2, hnowait⟩
          dsimp only
        · exact hv

theorem findVictim_ok (lv : LiveState) (seg : Nat) : VictimOk lv (findVictim lv seg) := by
  have hfold : forall (iw far : Bool) (segs : List Nat) (v : Victim),
      (forall s, s ∈ segs -> 1 ≤ s ∧ s < lv.nsegs) -> VictimOk lv v ->
        VictimOk lv (segs.foldl (considerVictim lv seg iw far) v) := by
    intro iw far segs
    induction segs with
    | nil =>
        intro v _ hv
        exact hv
    | cons s segs ih =>
        intro v hmem hv
        have hs := hmem s List.mem_cons_self
        exact ih _ (fun s' hs' => hmem s' (List.mem_cons_of_mem s hs'))
          (considerVictim_ok hs.1 hs.2 hv)
  unfold findVictim
  apply hfold
  · intro s hs
    rw [List.mem_range'_1] at hs
    omega
  · have hlow : (-1 : Int) < 0 := by decide
    exact Or.inl hlow

/-!
# Allocation
-/

theorem freeSlot_some {lv : LiveState} {slot : Nat} (h : freeSlot lv = some slot) :
    slot < lv.nslots ∧ lv.slotSeg slot < 0 := by
  unfold freeSlot at h
  have hmem := List.mem_of_find?_eq_some h
  have hneg := List.find?_some h
  exact ⟨List.mem_range.mp hmem, by simpa using hneg⟩

/-- What a successful allocation leaves: the segment owns the slot, and the
other resident segments keep theirs. -/
structure Allocated (lv lv' : LiveState) (seg slot : Nat) : Prop where
  active : lv'.active = lv.active
  freePending : lv'.freePending = lv.freePending
  total : lv'.total = lv.total
  nsegs : lv'.nsegs = lv.nsegs
  nslots : lv'.nslots = lv.nslots
  slots : lv'.slots = lv.slots
  stored : lv'.stored = lv.stored
  slot_lt : slot < lv.nslots
  slotOf_seg : lv'.slotOf seg = slot
  slotSeg_slot : lv'.slotSeg slot = seg
  others : forall s, s ≠ seg -> 0 ≤ lv'.slotOf s ->
    lv'.slotOf s = lv.slotOf s ∧ lv'.slotOf s ≠ slot ∧
      lv'.slotSeg (lv'.slotOf s).toNat = lv.slotSeg (lv.slotOf s).toNat
  present_others : forall s, s ≠ seg -> (lv'.present s = true ↔ 0 ≤ lv'.slotOf s)

theorem allocated_resident {lv : LiveState} (hc : Consistent lv) {seg : Nat}
    (hres : 0 ≤ lv.slotOf seg) : Allocated lv lv seg (lv.slotOf seg).toNat := by
  have howner := hc.owner seg hres
  refine ⟨rfl, rfl, rfl, rfl, rfl, rfl, rfl, howner.2.1, ?_, howner.2.2, ?_, ?_⟩
  · omega
  · intro s hne hs
    refine ⟨rfl, ?_, rfl⟩
    intro heq
    have hsame : (lv.slotOf s).toNat = (lv.slotOf seg).toNat := by omega
    have hs' := (hc.owner s hs).2.2
    rw [hsame, howner.2.2] at hs'
    omega
  · intro s _
    exact hc.present_iff s

/-- A slot that no resident segment names is assigned. -/
theorem allocated_assignSlot {lv : LiveState} (mid : LiveState) (hc : Consistent lv)
    {seg slot : Nat}
    (hseg : seg < lv.nsegs) (hslot : slot < lv.nslots)
    (hactive : mid.active = lv.active) (hfree : mid.freePending = lv.freePending)
    (htotal : mid.total = lv.total)
    (hnsegs : mid.nsegs = lv.nsegs)
    (hnslots : mid.nslots = lv.nslots) (hslots : mid.slots = lv.slots)
    (hstored : mid.stored = lv.stored) (hslotSeg : mid.slotSeg = lv.slotSeg)
    (hkeep : forall s, 0 ≤ mid.slotOf s -> mid.slotOf s = lv.slotOf s ∧ mid.slotOf s ≠ slot)
    (hpresent : forall s, mid.present s = true ↔ 0 ≤ mid.slotOf s) :
    Allocated lv (assignSlot mid seg slot) seg slot := by
  have hlt : seg < 2 ^ 31 := Nat.lt_of_lt_of_le hseg (nsegs_le hc)
  unfold assignSlot
  rw [if_pos (by rw [hnsegs]; exact hseg)]
  refine ⟨hactive, hfree, htotal, hnsegs, hnslots, hslots, hstored, hslot, ?_, ?_, ?_, ?_⟩
  · exact Function.update_self seg _ _
  · change Function.update mid.slotSeg slot (cInt seg) slot = seg
    rw [Function.update_self, cInt_of_lt hlt]
  · intro s hne hs
    change 0 ≤ Function.update mid.slotOf seg (slot : Int) s at hs
    change Function.update mid.slotOf seg (slot : Int) s = lv.slotOf s ∧
      Function.update mid.slotOf seg (slot : Int) s ≠ slot ∧
      Function.update mid.slotSeg slot (cInt seg)
        (Function.update mid.slotOf seg (slot : Int) s).toNat = _
    rw [Function.update_of_ne hne] at hs ⊢
    have hk := hkeep s hs
    refine ⟨hk.1, hk.2, ?_⟩
    have hother : (mid.slotOf s).toNat ≠ slot := by
      intro heq
      exact hk.2 (by omega)
    rw [Function.update_of_ne hother, hslotSeg, hk.1]
  · intro s hne
    change mid.present s = true ↔ 0 ≤ Function.update mid.slotOf seg (slot : Int) s
    rw [Function.update_of_ne hne]
    exact hpresent s

theorem allocSlotLocked_spec {lv : LiveState} (hc : Consistent lv) {seg : Nat}
    (hseg : seg < lv.nsegs) :
    (exists r : Int, r < 0 ∧ allocSlotLocked lv seg = (lv, r)) ∨
      exists (mid : LiveState) (slot : Nat), allocSlotLocked lv seg = (mid, (slot : Int)) ∧
        Allocated lv mid seg slot := by
  unfold allocSlotLocked
  by_cases hres : seg < lv.nsegs ∧ lv.slotOf seg >= 0
  · rw [if_pos hres]
    refine Or.inr ⟨lv, (lv.slotOf seg).toNat, ?_, allocated_resident hc hres.2⟩
    rw [Int.toNat_of_nonneg hres.2]
  · rw [if_neg hres]
    cases hfree : freeSlot lv with
    | some slot =>
        have hslot := freeSlot_some hfree
        refine Or.inr ⟨assignSlot lv seg slot, slot, rfl, ?_⟩
        apply allocated_assignSlot lv hc hseg hslot.1 rfl rfl rfl rfl rfl rfl rfl rfl
        · intro s hs
          refine ⟨rfl, ?_⟩
          intro heq
          -- a free slot is named by no segment, for a named slot names back
          have howner := (hc.owner s hs).2.2
          rw [heq, Int.toNat_natCast] at howner
          omega
        · exact hc.present_iff
    | none =>
        dsimp only
        split
        · have hlow : (-1 : Int) < 0 := by decide
          exact Or.inl ⟨-1, hlow, rfl⟩
        · rename_i hnonneg
          rcases findVictim_ok lv seg with hneg | hvictim
          · exact absurd hneg hnonneg
          · rcases hvictim with ⟨s, _, hs, hold, hpres, hslotOf, _⟩
            have hcast : (findVictim lv seg).oldestSeg = s := by
              rw [hold]
              exact cInt_of_lt (Nat.lt_of_lt_of_le hs (nsegs_le hc))
            rw [hcast, Int.toNat_natCast]
            have howner := hc.owner s hslotOf
            refine Or.inr ⟨assignSlot (evictSlot lv s (lv.slotOf s).toNat) seg
              (lv.slotOf s).toNat, (lv.slotOf s).toNat, ?_, ?_⟩
            · rw [Int.toNat_of_nonneg hslotOf]
            · refine allocated_assignSlot (evictSlot lv s (lv.slotOf s).toNat) hc
                hseg howner.2.1 rfl rfl rfl rfl rfl rfl rfl rfl ?_ ?_
              · intro s' hs'
                change 0 ≤ Function.update lv.slotOf s (-1) s' at hs'
                change Function.update lv.slotOf s (-1) s' = lv.slotOf s' ∧
                  Function.update lv.slotOf s (-1) s' ≠ _
                by_cases heq : s' = s
                · rw [heq, Function.update_self] at hs'
                  omega
                · rw [Function.update_of_ne heq] at hs' ⊢
                  refine ⟨rfl, ?_⟩
                  intro hsame
                  have hback := (hc.owner s' hs').2.2
                  rw [hsame, Int.toNat_natCast, howner.2.2] at hback
                  omega
              · intro s'
                change Function.update lv.present s false s' = true ↔
                  0 ≤ Function.update lv.slotOf s (-1) s'
                by_cases heq : s' = s
                · rw [heq, Function.update_self, Function.update_self]
                  decide
                · rw [Function.update_of_ne heq, Function.update_of_ne heq]
                  exact hc.present_iff s'

end Live
end PkgManager
