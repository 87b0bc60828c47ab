import Mathlib.Data.Finset.Card
import PkgManager.Live.Moves

/-!
# The books of the slots

A slot in use names a resident segment that names it back, and what is resident was accepted.
An allocation therefore fails only when every resident segment is shielded or not evictable.
-/

namespace PkgManager
namespace Live

open WriteLog

/-!
# What an allocation can do
-/

/-- A segment that the search for a victim may take. -/
structure Candidate (lv : LiveState) (seg s : Nat) : Prop where
  low : 1 ≤ s
  high : s < lv.nsegs
  present : lv.present s = true
  slot : 0 ≤ lv.slotOf s
  unshielded : lv.waiters s = 0
  evictable : evictable lv seg (decide (seg < lv.nsegs) && decide (lv.waiters seg > 0))
    (decide (seg ≥ lv.peakSeg)) s = true

/-- What the search knows after some segments: it took none of them because none is a
candidate, or it took one that is. -/
def Searched (lv : LiveState) (seg : Nat) (segs : List Nat) (v : Victim) : Prop :=
  (v.first = true ∧ v.oldestSeg < 0 ∧ forall s, s ∈ segs -> ¬ Candidate lv seg s) ∨
    (v.first = false ∧ exists s, Candidate lv seg s ∧ v.oldestSeg = cInt s)

theorem considerVictim_searched {lv : LiveState} {seg s : Nat} {segs : List Nat} {v : Victim}
    (hlow : 1 ≤ s) (hhigh : s < lv.nsegs) (hv : Searched lv seg segs v) :
    Searched lv seg (segs ++ [s]) (considerVictim lv seg
      (decide (seg < lv.nsegs) && decide (lv.waiters seg > 0)) (decide (seg ≥ lv.peakSeg)) v s) := by
  have hskip : ¬ Candidate lv seg s -> Searched lv seg (segs ++ [s]) v := by
    intro hnot
    rcases hv with ⟨hfirst, hneg, hnone⟩ | htaken
    · refine Or.inl ⟨hfirst, hneg, ?_⟩
      intro s' hs'
      rcases List.mem_append.mp hs' with hold | hnew
      · exact hnone s' hold
      · rw [List.mem_singleton.mp hnew]
        exact hnot
    · exact Or.inr htaken
  unfold considerVictim
  split
  · rename_i hgone
    apply hskip
    intro hcand
    rw [hcand.present, Bool.not_true, Bool.false_or, decide_eq_true_eq] at hgone
    exact absurd hcand.slot (by omega)
  · rename_i hres
    have hparts : lv.present s = true ∧ 0 ≤ lv.slotOf s := by simpa using hres
    split
    · rename_i hwait
      apply hskip
      intro hcand
      rw [hcand.unshielded] at hwait
      exact absurd hwait (Nat.lt_irrefl 0)
    · rename_i hwait
      split
      · rename_i hkeep
        apply hskip
        intro hcand
        rw [hcand.evictable] at hkeep
        cases hkeep
      · rename_i hevict
        have hcand : Candidate lv seg s :=
          ⟨hlow, hhigh, hparts.1, hparts.2, by omega, by simpa using hevict⟩
        dsimp only
        split
        · refine Or.inr ⟨rfl, s, hcand, ?_⟩
          dsimp only
        · rename_i hold
          rcases hv with ⟨hfirst, _⟩ | htaken
          · rw [hfirst, Bool.true_or] at hold
            exact absurd rfl hold
          · exact Or.inr htaken

/-- The search takes a candidate, or there is none. -/
theorem findVictim_searched (lv : LiveState) (seg : Nat) :
    Searched lv seg (List.range' 1 (lv.nsegs - 1)) (findVictim lv seg) := by
  have hfold : forall (todo done : List Nat) (v : Victim),
      (forall s, s ∈ todo -> 1 ≤ s ∧ s < lv.nsegs) -> Searched lv seg done v ->
        Searched lv seg (done ++ todo) (todo.foldl (considerVictim lv seg
          (decide (seg < lv.nsegs) && decide (lv.waiters seg > 0))
          (decide (seg ≥ lv.peakSeg))) v) := by
    intro todo
    induction todo with
    | nil =>
        intro done v _ hv
        rw [List.append_nil]
        exact hv
    | cons s todo ih =>
        intro done v hmem hv
        have hs := hmem s List.mem_cons_self
        have hnext := ih (done ++ [s]) _ (fun s' hs' => hmem s' (List.mem_cons_of_mem s hs'))
          (considerVictim_searched hs.1 hs.2 hv)
        rwa [List.append_assoc, List.singleton_append] at hnext
  have hstart : Searched lv seg [] { oldest := 0, oldestSeg := -1, first := true } :=
    Or.inl ⟨rfl, by decide, fun _ hs => (List.not_mem_nil hs).elim⟩
  have hall := hfold (List.range' 1 (lv.nsegs - 1)) [] _ (by
    intro s hs
    rw [List.mem_range'_1] at hs
    omega) hstart
  exact hall

/-- The four ways through the allocation. -/
inductive AllocCase (lv : LiveState) (seg : Nat) : LiveState × Int -> Prop where
  | resident (h : 0 ≤ lv.slotOf seg) : AllocCase lv seg (lv, lv.slotOf seg)
  | free (slot : Nat) (h : lv.slotOf seg < 0) (hfree : freeSlot lv = some slot) :
      AllocCase lv seg (assignSlot lv seg slot, slot)
  | evict (s : Nat) (h : lv.slotOf seg < 0) (hfull : freeSlot lv = none)
      (hcand : Candidate lv seg s) :
      AllocCase lv seg (assignSlot (evictSlot lv s (lv.slotOf s).toNat) seg (lv.slotOf s).toNat,
        lv.slotOf s)
  | busy (h : lv.slotOf seg < 0) (hfull : freeSlot lv = none)
      (hnone : forall s, ¬ Candidate lv seg s) : AllocCase lv seg (lv, -1)

theorem allocSlotLocked_cases {lv : LiveState} (hc : Consistent lv) {seg : Nat}
    (hseg : seg < lv.nsegs) : AllocCase lv seg (allocSlotLocked lv seg) := by
  unfold allocSlotLocked
  by_cases hres : 0 ≤ lv.slotOf seg
  · rw [if_pos ⟨hseg, hres⟩]
    exact AllocCase.resident hres
  · rw [if_neg (fun h => hres h.2)]
    have hneg : lv.slotOf seg < 0 := by omega
    cases hfree : freeSlot lv with
    | some slot => exact AllocCase.free slot hneg hfree
    | none =>
        dsimp only
        rcases findVictim_searched lv seg with ⟨_, hold, hnone⟩ | ⟨_, s, hcand, hold⟩
        · rw [if_pos hold]
          refine AllocCase.busy hneg hfree ?_
          intro s hcand
          refine hnone s ?_ hcand
          have hlow := hcand.low
          have hhigh := hcand.high
          rw [List.mem_range'_1]
          omega
        · have hcast : (findVictim lv seg).oldestSeg = s := by
            rw [hold]
            exact cInt_of_lt (Nat.lt_of_lt_of_le hcand.high (nsegs_le hc))
          rw [hcast, if_neg (by omega), Int.toNat_natCast]
          exact AllocCase.evict s hneg hfree hcand

/-!
# The books
-/

structure Booked (lv : LiveState) : Prop where
  consistent : Consistent lv
  nslots_le : 4 ≤ lv.nslots
  used : forall i, i < lv.nslots -> 0 ≤ lv.slotSeg i -> lv.slotOf (lv.slotSeg i).toNat = i
  acked : forall s, lv.present s = true -> lv.ackedEver s = true

/-- The part of the books that an allocation keeps. -/
structure Books (lv : LiveState) : Prop where
  used : forall i, i < lv.nslots -> 0 ≤ lv.slotSeg i -> lv.slotOf (lv.slotSeg i).toNat = i
  acked : forall s, lv.present s = true -> lv.ackedEver s = true

/-- A slot that no resident segment names is given to a segment that has none. -/
theorem books_assignSlot {lv : LiveState} {seg slot : Nat} (hseg : seg < lv.nsegs)
    (hbig : seg < 2 ^ 31) (hnew : lv.slotOf seg < 0) (hacked : forall s, lv.present s = true ->
      lv.ackedEver s = true)
    (hused : forall i, i < lv.nslots -> i ≠ slot -> 0 ≤ lv.slotSeg i ->
      lv.slotOf (lv.slotSeg i).toNat = i) : Books (assignSlot lv seg slot) := by
  unfold assignSlot
  rw [if_pos hseg]
  constructor
  · intro i hi hnamed
    change 0 ≤ Function.update lv.slotSeg slot (cInt seg) i at hnamed
    change Function.update lv.slotOf seg (slot : Int)
      (Function.update lv.slotSeg slot (cInt seg) i).toNat = i
    by_cases heq : i = slot
    · rw [heq, Function.update_self, cInt_of_lt hbig, Int.toNat_natCast, Function.update_self]
    · rw [Function.update_of_ne heq] at hnamed ⊢
      have hback := hused i hi heq hnamed
      have hne : (lv.slotSeg i).toNat ≠ seg := by
        intro hsame
        rw [hsame] at hback
        omega
      rw [Function.update_of_ne hne]
      exact hback
  · exact hacked

theorem allocSlotLocked_books {lv : LiveState} (hb : Booked lv) {seg : Nat}
    (hseg : seg < lv.nsegs) : Books (allocSlotLocked lv seg).1 := by
  have hbig : seg < 2 ^ 31 := Nat.lt_of_lt_of_le hseg (nsegs_le hb.consistent)
  have hcase := allocSlotLocked_cases hb.consistent hseg
  generalize allocSlotLocked lv seg = r at hcase ⊢
  cases hcase with
  | resident h => exact ⟨hb.used, hb.acked⟩
  | free slot h hfree =>
      exact books_assignSlot hseg hbig h hb.acked (fun i hi _ => hb.used i hi)
  | evict s h hfull hcand =>
      have hslot := hcand.slot
      have hne : seg ≠ s := by
        intro heq
        rw [heq] at h
        omega
      refine books_assignSlot hseg hbig ?_ ?_ ?_
      · change Function.update lv.slotOf s (-1) seg < 0
        rw [Function.update_of_ne hne]
        exact h
      · intro s' hs'
        change Function.update lv.present s false s' = true at hs'
        by_cases heq : s' = s
        · rw [heq, Function.update_self] at hs'
          cases hs'
        · rw [Function.update_of_ne heq] at hs'
          exact hb.acked s' hs'
      · intro i hi hother hnamed
        have hback := hb.used i hi hnamed
        change Function.update lv.slotOf s (-1) (lv.slotSeg i).toNat = i
        have hdiff : (lv.slotSeg i).toNat ≠ s := by
          intro hsame
          rw [hsame] at hback
          omega
        rw [Function.update_of_ne hdiff]
        exact hback
  | busy h hfull hnone => exact ⟨hb.used, hb.acked⟩

theorem allocated_nslots {lv : LiveState} {seg : Nat} {r : LiveState × Int}
    (h : AllocCase lv seg r) : r.1.nslots = lv.nslots := by
  cases h with
  | resident => rfl
  | free slot =>
      unfold assignSlot
      split <;> rfl
  | evict s =>
      unfold assignSlot
      split <;> rfl
  | busy => rfl

theorem fillSlot_booked {lv mid : LiveState} {seg slot sLen from_ : Nat} {resident : Bool}
    {m : Message} (hb : Booked lv) (hmid : Books mid) (hnslots : mid.nslots = lv.nslots)
    (hc : Consistent (fillSlot mid seg slot sLen from_ resident m)) :
    Booked (fillSlot mid seg slot sLen from_ resident m) where
  consistent := hc
  nslots_le := by
    change 4 ≤ mid.nslots
    rw [hnslots]
    exact hb.nslots_le
  used := hmid.used
  acked := by
    intro s hs
    change Function.update mid.present seg true s = true at hs
    change Function.update mid.ackedEver seg true s = true
    by_cases heq : s = seg
    · rw [heq, Function.update_self]
    · rw [Function.update_of_ne heq] at hs ⊢
      exact hmid.acked s hs

/-!
# What a store can do
-/

/-- The bytes of a segment are all in the message. -/
def Covers (lv : LiveState) (m : Message) (seg : Nat) : Prop :=
  m.offset ≤ segSize * seg ∧ segSize * seg + segLenLocked lv seg ≤ u64 (m.offset + m.len)

/-- The message and the segment have no byte in common. -/
def Apart (lv : LiveState) (m : Message) (seg : Nat) : Prop :=
  min (u64 (m.offset + m.len)) (segSize * seg + segLenLocked lv seg) ≤ max m.offset (segSize * seg)

inductive StoreCase (lv : LiveState) (seg : Nat) (m : Message) : LiveState × Int -> Prop where
  | apart (h : Apart lv m seg) : StoreCase lv seg m (lv, 1)
  | part (h : ¬ Apart lv m seg) (hpart : ¬ Covers lv m seg) : StoreCase lv seg m (lv, -1)
  | busy (h : ¬ Apart lv m seg) (hall : Covers lv m seg) (hbusy : (allocSlotLocked lv seg).2 < 0) :
      StoreCase lv seg m ((allocSlotLocked lv seg).1, -2)
  | stored (h : ¬ Apart lv m seg) (hall : Covers lv m seg)
      (hslot : 0 ≤ (allocSlotLocked lv seg).2) :
      StoreCase lv seg m
        (fillSlot (allocSlotLocked lv seg).1 seg (allocSlotLocked lv seg).2.toNat
          (segLenLocked lv seg) (segSize * seg - m.offset) (lv.present seg) m,
        (allocSlotLocked lv seg).2)

theorem segLenLocked_end {lv : LiveState} (htotal : lv.total < 2 ^ 64) {seg : Nat}
    (hseg : segSize * seg < 2 ^ 64) : segSize * seg + segLenLocked lv seg < 2 ^ 64 := by
  rw [segLenLocked_eq hseg]
  omega

theorem storeSegLocked_spec {lv : LiveState} (htotal : lv.total < 2 ^ 64) {seg : Nat}
    (hseg : segSize * seg < 2 ^ 64) (m : Message) :
    StoreCase lv seg m (storeSegLocked lv seg m) := by
  have hend := segLenLocked_end htotal hseg
  have hstart : (if m.offset > segSize * seg then m.offset else segSize * seg) =
      max m.offset (segSize * seg) := by
    split <;> omega
  have hstop : (if u64 (m.offset + m.len) < segSize * seg + segLenLocked lv seg
      then u64 (m.offset + m.len) else segSize * seg + segLenLocked lv seg) =
      min (u64 (m.offset + m.len)) (segSize * seg + segLenLocked lv seg) := by
    split <;> omega
  unfold storeSegLocked
  rw [u64_of_lt hseg]
  dsimp only
  rw [u64_of_lt hend, hstart, hstop]
  by_cases hapart : min (u64 (m.offset + m.len)) (segSize * seg + segLenLocked lv seg) ≤
      max m.offset (segSize * seg)
  · rw [if_pos hapart]
    exact StoreCase.apart hapart
  · rw [if_neg hapart]
    have hbetween : max m.offset (segSize * seg) <
        min (u64 (m.offset + m.len)) (segSize * seg + segLenLocked lv seg) :=
      Nat.lt_of_not_le hapart
    by_cases hall : Covers lv m seg
    · have hlow := hall.1
      have hhigh := hall.2
      have hwhole : min (u64 (m.offset + m.len)) (segSize * seg + segLenLocked lv seg) -
          max m.offset (segSize * seg) = segLenLocked lv seg := by omega
      have hmax : max m.offset (segSize * seg) = segSize * seg := by omega
      rw [if_neg (by simp [hwhole]), hmax]
      split
      · rename_i hbusy
        exact StoreCase.busy hapart hall hbusy
      · rename_i hslot
        exact StoreCase.stored hapart hall (by omega)
    · have hpart : min (u64 (m.offset + m.len)) (segSize * seg + segLenLocked lv seg) -
          max m.offset (segSize * seg) ≠ segLenLocked lv seg := by
        intro hwhole
        apply hall
        constructor <;> omega
      rw [if_pos (by simpa using hpart)]
      exact StoreCase.part hapart hall

theorem lt_nsegs_of_not_apart {lv : LiveState} (hc : Consistent lv) {m : Message} {seg : Nat}
    (hseg : segSize * seg < 2 ^ 64) (h : ¬ Apart lv m seg) : seg < lv.nsegs := by
  apply lt_nsegs hc
  unfold Apart at h
  rw [segLenLocked_eq hseg] at h
  omega

theorem total_lt {lv : LiveState} (hc : Consistent lv) : lv.total < 2 ^ 64 := by
  have htotal := hc.total_le
  unfold maxTotal at htotal
  omega

theorem storeSegLocked_booked {lv lv' : LiveState} (hb : Booked lv) {seg : Nat}
    (hseg : segSize * seg < 2 ^ 64) {m : Message} {r : Int}
    (h : storeSegLocked lv seg m = (lv', r)) : Booked lv' := by
  have hkept := (storeSegLocked_kept hb.consistent hseg h).consistent
  have hcase := storeSegLocked_spec (total_lt hb.consistent) hseg m
  rw [h] at hcase
  cases hcase with
  | apart => exact hb
  | part => exact hb
  | busy hnot hall hbusy =>
      have hnsegs := lt_nsegs_of_not_apart hb.consistent hseg hnot
      have halloc := allocSlotLocked_cases hb.consistent hnsegs
      generalize allocSlotLocked lv seg = a at halloc hbusy
      cases halloc with
      | resident hres => exact absurd hbusy (by dsimp only; omega)
      | free slot => exact absurd hbusy (by dsimp only; omega)
      | evict s _ _ hcand =>
          have hslot := hcand.slot
          exact absurd hbusy (by dsimp only; omega)
      | busy => exact hb
  | stored hnot hall hslot =>
      have hnsegs := lt_nsegs_of_not_apart hb.consistent hseg hnot
      exact fillSlot_booked hb (allocSlotLocked_books hb hnsegs)
        (allocated_nslots (allocSlotLocked_cases hb.consistent hnsegs)) hkept

/-!
# Every move keeps the books
-/

theorem booked_of_stores {lv lv' : LiveState} (h : Stores lv lv') (hb : Booked lv) :
    Booked lv' := by
  induction h with
  | refl => exact hb
  | tail _ hstep ih =>
      rcases hstep with ⟨m, s, r, hseg, hres⟩
      exact storeSegLocked_booked ih hseg hres

/-- A creation changes nothing, or the session starts with nothing in it. -/
structure Started (lv : LiveState) : Prop where
  active : lv.active = true
  nslots_le : 4 ≤ lv.nslots
  slotSeg : forall i, lv.slotSeg i = -1
  present : forall s, lv.present s = false
  ackedEver : forall s, lv.ackedEver s = false
  runHi : lv.runHi = 0
  stored : lv.stored = []

theorem slotCount_le (lv : LiveState) (env : CreateEnv) (nsegs : Nat) (ringMb : Int) :
    4 ≤ slotCount lv env nsegs ringMb := by
  have hcut : forall bounded : Nat, 4 ≤ if bounded < 4 then 4 else bounded := by
    intro bounded
    split <;> omega
  exact hcut _

theorem wsLiveCreate_started (lv : LiveState) (env : CreateEnv) (filename : String)
    (totalSize : Nat) (ringMb : Int) :
    (wsLiveCreate lv env filename totalSize ringMb).1 = lv ∨
      Started (wsLiveCreate lv env filename totalSize ringMb).1 := by
  unfold wsLiveCreate
  dsimp only
  split
  · exact Or.inl rfl
  · split
    · exact Or.inl rfl
    · split
      · split <;> exact Or.inl rfl
      · split
        · exact Or.inl rfl
        · split
          · exact Or.inl rfl
          · exact Or.inr ⟨rfl, slotCount_le _ _ _ _, fun _ => rfl, fun _ => rfl, fun _ => rfl,
              rfl, rfl⟩

/-- The books of a session that is active. -/
def SessionBooked (lv : LiveState) : Prop :=
  lv.active = true -> Booked lv ∧ lv.freePending = false

theorem sessionBooked_create {lv : LiveState} (h : SessionBooked lv) (env : CreateEnv)
    (filename : String) {totalSize : Nat} (ringMb : Int) (htotal : totalSize ≤ maxTotal) :
    SessionBooked (wsLiveCreate lv env filename totalSize ringMb).1 := by
  intro hnow
  cases hactive : lv.active with
  | true =>
      rw [wsLiveCreate_active hactive]
      exact h hactive
  | false =>
      have hfresh := wsLiveCreate_inactive hactive htotal hnow
      rcases wsLiveCreate_started lv env filename totalSize ringMb with hsame | hstart
      · rw [hsame, hactive] at hnow
        cases hnow
      · refine ⟨⟨hfresh.1, hstart.nslots_le, ?_, ?_⟩, hfresh.2⟩
        · intro i _ hi
          rw [hstart.slotSeg i] at hi
          exact absurd hi (by decide)
        · intro s hs
          rw [hstart.present s] at hs
          cases hs

theorem booked_of_same {lv lv' : LiveState} (h : SameCache lv lv')
    (hacked : lv'.ackedEver = lv.ackedEver) (hb : Booked lv) : Booked lv' where
  consistent := consistent_of_same h hb.consistent
  nslots_le := h.nslots ▸ hb.nslots_le
  used := by
    rw [h.nslots, h.slotSeg, h.slotOf]
    exact hb.used
  acked := by
    rw [h.present, hacked]
    exact hb.acked

/-- A move that leaves the cache and the acknowledgements alone. -/
theorem sessionBooked_of_same {lv lv' : LiveState} (h : SessionBooked lv)
    (hsame : lv.active = true -> SameCache lv lv' ∧ lv'.ackedEver = lv.ackedEver)
    (hactive : lv'.active = true -> lv.active = true) : SessionBooked lv' := by
  intro hnow
  have hbefore := hactive hnow
  have hcache := hsame hbefore
  exact ⟨booked_of_same hcache.1 hcache.2 (h hbefore).1,
    hcache.1.freePending.trans (h hbefore).2⟩

theorem wsLiveFinish_acked (lv : LiveState) : (wsLiveFinish lv).1.ackedEver = lv.ackedEver := by
  unfold wsLiveFinish
  split <;> rfl

theorem wsLiveAttach_acked (lv : LiveState) : (wsLiveAttach lv).1.ackedEver = lv.ackedEver := by
  unfold wsLiveAttach
  split <;> rfl

theorem wsLiveAbort_acked (lv : LiveState) : (wsLiveAbort lv).ackedEver = lv.ackedEver := by
  unfold wsLiveAbort
  split <;> rfl

theorem wsLiveDetach_active {lv : LiveState} (hnow : (wsLiveDetach lv).active = true) :
    lv.active = true := by
  cases hidle : lv.active with
  | true => rfl
  | false =>
      rw [wsLiveDetach_inactive hidle] at hnow
      cases hnow

theorem wsLiveDetach_acked {lv : LiveState} (hfree : lv.freePending = false) :
    (wsLiveDetach lv).ackedEver = lv.ackedEver := by
  unfold wsLiveDetach
  dsimp only
  split
  · rw [if_neg (by simp [hfree])]
  · rw [if_neg (by simp [hfree])]

theorem wsLiveDestroy_inactive (lv : LiveState) : (wsLiveDestroy lv).active = false := by
  unfold wsLiveDestroy
  split
  · rename_i hidle
    simpa using hidle
  · dsimp only
    split <;> rfl

/-- The only move that begins a session is a creation. -/
theorem started_of_moved {lv lv' : LiveState} (hmove : SessionMove lv lv')
    (hidle : lv.active = false) (hnow : lv'.active = true) : Started lv' := by
  have hgone : lv'.active = false -> Started lv' := by
    intro hoff
    rw [hoff] at hnow
    cases hnow
  cases hmove with
  | read hread =>
      rcases hread with ⟨_, _, _, _, _, _, _, _, rfl⟩
      exact hgone hidle
  | write hstores =>
      rcases writerMoved_of_stores hstores with ⟨_, _, _, _, _, _, _, _, _, _, rfl⟩
      exact hgone hidle
  | create env filename totalSize ringMb =>
      rcases wsLiveCreate_started lv env filename totalSize ringMb with hsame | hstart
      · rw [hsame] at hgone ⊢
        exact hgone hidle
      · exact hstart
  | finish => exact hgone ((sameCache_finish lv).active.trans hidle)
  | attach => exact hgone ((sameCache_attach lv).active.trans hidle)
  | detach => exact hgone (wsLiveDetach_inactive hidle)
  | abort => exact hgone ((sameCache_abort lv).active.trans hidle)
  | destroy => exact hgone (wsLiveDestroy_inactive lv)

theorem sessionBooked_move (lv lv' : LiveState) (h : SessionBooked lv)
    (hmove : SessionMove lv lv') : SessionBooked lv' := by
  cases hmove with
  | read hread =>
      rcases hread with ⟨_, _, _, _, _, _, _, _, rfl⟩
      apply sessionBooked_of_same h
      · intro _
        refine ⟨?_, rfl⟩
        constructor <;> rfl
      · exact id
  | write hstores =>
      intro hnow
      rcases writerMoved_of_stores hstores with ⟨_, _, _, _, _, _, _, _, _, _, hlv⟩
      have hbefore : lv.active = true := by
        rw [hlv] at hnow
        exact hnow
      refine ⟨booked_of_stores hstores (h hbefore).1, ?_⟩
      rw [hlv]
      exact (h hbefore).2
  | create env filename totalSize ringMb htotal =>
      exact sessionBooked_create h env filename ringMb htotal
  | finish =>
      exact sessionBooked_of_same h (fun _ => ⟨sameCache_finish lv, wsLiveFinish_acked lv⟩)
        (fun hnow => (sameCache_finish lv).active ▸ hnow)
  | attach =>
      exact sessionBooked_of_same h (fun _ => ⟨sameCache_attach lv, wsLiveAttach_acked lv⟩)
        (fun hnow => (sameCache_attach lv).active ▸ hnow)
  | detach =>
      apply sessionBooked_of_same h
      · intro hbefore
        have hfree := (h hbefore).2
        exact ⟨sameCache_detach hfree, wsLiveDetach_acked hfree⟩
      · exact wsLiveDetach_active
  | abort =>
      exact sessionBooked_of_same h (fun _ => ⟨sameCache_abort lv, wsLiveAbort_acked lv⟩)
        (fun hnow => (sameCache_abort lv).active ▸ hnow)
  | destroy =>
      intro hnow
      rw [wsLiveDestroy_inactive] at hnow
      cases hnow

end Live
end PkgManager
