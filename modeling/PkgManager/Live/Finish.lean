import PkgManager.Live.Waited

/-!
# The finish gate and the resume point

A segment is acknowledged from the moment it is stored, whatever happens to its
slot afterwards.  Both the gate and the resume point read the acknowledgements only.
-/

namespace PkgManager
namespace Live

open Transition

/-!
# The resume point
-/

/-- The loop that counts up from {lit}`s` as long as the segments are acknowledged. -/
def countWhile (p : Nat -> Bool) : Nat -> Nat -> Nat
  | 0, s => s
  | n + 1, s => if p s then countWhile p n (s + 1) else s

def resumeSegs (lv : LiveState) : Nat :=
  if lv.active then countWhile lv.ackedEver lv.nsegs 0 else 0

def wsLiveGetResumeOffset (lv : LiveState) : Nat :=
  let bytes := u64 (resumeSegs lv * segSize)
  if bytes > lv.total then lv.total else bytes

theorem countWhile_bounds (p : Nat -> Bool) (n s : Nat) :
    s ≤ countWhile p n s ∧ countWhile p n s ≤ s + n := by
  induction n generalizing s with
  | zero => exact ⟨Nat.le_refl s, Nat.le_refl s⟩
  | succ n ih =>
      rw [countWhile]
      have hnext := ih (s + 1)
      split <;> omega

theorem countWhile_holds {p : Nat -> Bool} {n s i : Nat} (hlow : s ≤ i)
    (hhigh : i < countWhile p n s) : p i = true := by
  induction n generalizing s with
  | zero => exact absurd hhigh (by rw [countWhile]; omega)
  | succ n ih =>
      rw [countWhile] at hhigh
      split at hhigh
      · rename_i hs
        by_cases heq : i = s
        · rw [heq]
          exact hs
        · exact ih (by omega) hhigh
      · omega

theorem countWhile_stops {p : Nat -> Bool} {n s : Nat} (h : countWhile p n s < s + n) :
    p (countWhile p n s) = false := by
  induction n generalizing s with
  | zero => exact absurd h (by rw [countWhile]; omega)
  | succ n ih =>
      rw [countWhile] at h ⊢
      split
      · rename_i hs
        rw [if_pos hs] at h
        exact ih (by omega)
      · rename_i hs
        simpa using hs

theorem countWhile_mono {p p' : Nat -> Bool} (h : forall i, p i = true -> p' i = true)
    (n s : Nat) : countWhile p n s ≤ countWhile p' n s := by
  induction n generalizing s with
  | zero => exact Nat.le_refl s
  | succ n ih =>
      rw [countWhile, countWhile]
      split
      · rename_i hs
        rw [if_pos (h s hs)]
        exact ih (s + 1)
      · split
        · exact Nat.le_of_succ_le (countWhile_bounds p' n (s + 1)).1
        · exact Nat.le_refl s

/-!
# Acknowledgements
-/

/-- A write of the whole segment is in the log of this session. -/
def Accepted (lv : LiveState) (s : Nat) : Prop :=
  exists w, w ∈ lv.stored ∧ w.start = segSize * s ∧ w.len = segLenLocked lv s

def Acknowledged (lv : LiveState) : Prop :=
  forall s, lv.ackedEver s = true ↔ Accepted lv s

theorem assignSlot_log (lv : LiveState) (seg slot : Nat) :
    (assignSlot lv seg slot).ackedEver = lv.ackedEver ∧
      (assignSlot lv seg slot).stored = lv.stored := by
  unfold assignSlot
  split <;> exact ⟨rfl, rfl⟩

theorem allocated_log {lv : LiveState} {seg : Nat} {r : LiveState × Int}
    (h : AllocCase lv seg r) : r.1.ackedEver = lv.ackedEver ∧ r.1.stored = lv.stored := by
  cases h with
  | resident => exact ⟨rfl, rfl⟩
  | free slot => exact assignSlot_log lv seg slot
  | evict s => exact assignSlot_log (evictSlot lv s (lv.slotOf s).toNat) seg _
  | busy => exact ⟨rfl, rfl⟩

/-- A store acknowledges nothing and logs nothing, or does both for its segment. -/
theorem storeSegLocked_acks {lv lv' : LiveState} (hc : Consistent lv) {seg : Nat}
    (hseg : segSize * seg < 2 ^ 64) {m : Message} {r : Int}
    (h : storeSegLocked lv seg m = (lv', r)) :
    (lv'.ackedEver = lv.ackedEver ∧ lv'.stored = lv.stored) ∨
      (lv'.ackedEver = Function.update lv.ackedEver seg true ∧
        exists w, w.start = segSize * seg ∧ w.len = segLenLocked lv seg ∧
          lv'.stored = w :: lv.stored) := by
  have hcase := storeSegLocked_spec (total_lt hc) hseg m
  rw [h] at hcase
  cases hcase with
  | apart => exact Or.inl ⟨rfl, rfl⟩
  | part => exact Or.inl ⟨rfl, rfl⟩
  | busy hnot =>
      have hnsegs := lt_nsegs_of_not_apart hc hseg hnot
      exact Or.inl (allocated_log (allocSlotLocked_cases hc hnsegs))
  | stored hnot =>
      have hlog := allocated_log (allocSlotLocked_cases hc (lt_nsegs_of_not_apart hc hseg hnot))
      have hfound : exists w, w.start = segSize * seg ∧ w.len = segLenLocked lv seg ∧
          (fillSlot (allocSlotLocked lv seg).1 seg (allocSlotLocked lv seg).2.toNat
            (segLenLocked lv seg) (segSize * seg - m.offset) (lv.present seg) m).stored =
            w :: (allocSlotLocked lv seg).1.stored :=
        ⟨{ start := u64 (segSize * seg)
           len := segLenLocked lv seg
           data := fun i => m.data (segSize * seg - m.offset + i) }, u64_of_lt hseg, rfl, rfl⟩
      rw [hlog.2] at hfound
      refine Or.inr ⟨?_, hfound⟩
      change Function.update (allocSlotLocked lv seg).1.ackedEver seg true = _
      rw [hlog.1]

theorem segSize_mul_inj {s s' : Nat} (h : segSize * s = segSize * s') : s = s' :=
  Nat.eq_of_mul_eq_mul_left (by decide) h

theorem storeSegLocked_acknowledged {lv lv' : LiveState} (hc : Consistent lv)
    (hacks : Acknowledged lv) {seg : Nat} (hseg : segSize * seg < 2 ^ 64) {m : Message} {r : Int}
    (h : storeSegLocked lv seg m = (lv', r)) : Acknowledged lv' := by
  intro s
  have hlen : segLenLocked lv' s = segLenLocked lv s :=
    segLenLocked_congr (storeSegLocked_kept hc hseg h).total s
  unfold Accepted
  rw [hlen]
  rcases storeSegLocked_acks hc hseg h with ⟨hsame, hlog⟩ | ⟨hnew, w, hstart, hwhole, hlog⟩
  · rw [hsame, hlog]
    exact hacks s
  · rw [hnew, hlog]
    by_cases heq : s = seg
    · rw [heq, Function.update_self]
      exact ⟨fun _ => ⟨w, List.mem_cons_self, hstart, hwhole⟩, fun _ => rfl⟩
    · rw [Function.update_of_ne heq, hacks s]
      constructor
      · rintro ⟨w', hmem, hw'⟩
        exact ⟨w', List.mem_cons_of_mem w hmem, hw'⟩
      · rintro ⟨w', hmem, hw'⟩
        rcases List.mem_cons.mp hmem with hfirst | hold
        · rw [hfirst, hstart] at hw'
          exact absurd (segSize_mul_inj hw'.1).symm heq
        · exact ⟨w', hold, hw'⟩

/-- Whatever was acknowledged stays so. -/
def StillAcked (lv lv' : LiveState) : Prop :=
  forall s, lv.ackedEver s = true -> lv'.ackedEver s = true

theorem stores_acks {lv lv' : LiveState} (h : Stores lv lv') (hc : Consistent lv)
    (hacks : Acknowledged lv) : Consistent lv' ∧ Acknowledged lv' ∧ StillAcked lv lv' := by
  induction h with
  | refl => exact ⟨hc, hacks, fun _ hs => hs⟩
  | tail _ hstep ih =>
      rcases hstep with ⟨m, seg, r, hseg, hres⟩
      rcases ih with ⟨hmid, hmidAcks, hstill⟩
      refine ⟨(storeSegLocked_kept hmid hseg hres).consistent,
        storeSegLocked_acknowledged hmid hmidAcks hseg hres, ?_⟩
      intro s hs
      have hs := hstill s hs
      rcases storeSegLocked_acks hmid hseg hres with ⟨hsame, _⟩ | ⟨hnew, _⟩
      · rw [hsame]
        exact hs
      · rw [hnew]
        by_cases heq : s = seg
        · rw [heq, Function.update_self]
        · rw [Function.update_of_ne heq]
          exact hs

/-!
# Every move
-/

def SessionAcks (lv : LiveState) : Prop :=
  lv.active = true -> Booked lv ∧ lv.freePending = false ∧ Acknowledged lv

/-- What a move does to the acknowledgements of a session that goes on. -/
structure AcksGoOn (lv lv' : LiveState) : Prop where
  acknowledged : Acknowledged lv'
  still : StillAcked lv lv'
  total : lv'.total = lv.total
  nsegs : lv'.nsegs = lv.nsegs

theorem acksGoOn_of_same {lv lv' : LiveState} (hacks : Acknowledged lv) (h : SameCache lv lv')
    (hsame : lv'.ackedEver = lv.ackedEver) : AcksGoOn lv lv' where
  acknowledged := by
    intro s
    unfold Accepted
    rw [hsame, h.stored, segLenLocked_congr h.total]
    exact hacks s
  still := by
    intro s hs
    rw [hsame]
    exact hs
  total := h.total
  nsegs := h.nsegs

theorem acksGoOn_move {lv lv' : LiveState} (h : SessionAcks lv) (hactive : lv.active = true)
    (hnow : lv'.active = true) (hmove : SessionMove lv lv') : AcksGoOn lv lv' := by
  rcases h hactive with ⟨hb, hfree, hacks⟩
  cases hmove with
  | read hread =>
      rcases hread with ⟨_, _, _, _, _, _, _, _, rfl⟩
      apply acksGoOn_of_same hacks
      · constructor <;> rfl
      · rfl
  | write hstores =>
      have hafter := stores_acks hstores hb.consistent hacks
      rcases writerMoved_of_stores hstores with ⟨_, _, _, _, _, _, _, _, _, _, hlv⟩
      refine ⟨hafter.2.1, hafter.2.2, ?_, ?_⟩ <;> rw [hlv]
  | create env filename totalSize ringMb =>
      rw [wsLiveCreate_active hactive]
      exact acksGoOn_of_same hacks (sameCache_refl lv) rfl
  | finish => exact acksGoOn_of_same hacks (sameCache_finish lv) (wsLiveFinish_acked lv)
  | attach => exact acksGoOn_of_same hacks (sameCache_attach lv) (wsLiveAttach_acked lv)
  | detach => exact acksGoOn_of_same hacks (sameCache_detach hfree) (wsLiveDetach_acked hfree)
  | abort => exact acksGoOn_of_same hacks (sameCache_abort lv) (wsLiveAbort_acked lv)
  | destroy =>
      rw [wsLiveDestroy_inactive] at hnow
      cases hnow

theorem acknowledged_of_started {lv : LiveState} (h : Started lv) : Acknowledged lv := by
  intro s
  unfold Accepted
  rw [h.ackedEver s, h.stored]
  constructor
  · intro hs
    cases hs
  · rintro ⟨w, hmem, _⟩
    cases hmem

theorem sessionAcks_move (lv lv' : LiveState) (h : SessionAcks lv)
    (hmove : SessionMove lv lv') : SessionAcks lv' := by
  intro hnow
  have hbooked := sessionBooked_move lv lv' (fun hactive => ⟨(h hactive).1, (h hactive).2.1⟩)
    hmove hnow
  refine ⟨hbooked.1, hbooked.2, ?_⟩
  cases hactive : lv.active with
  | true => exact (acksGoOn_move h hactive hnow hmove).acknowledged
  | false => exact acknowledged_of_started (started_of_moved hmove hactive hnow)

theorem sessionAcks_of_idle {p : Pool LiveWorld LivePoint} (hidle : Idle p) :
    SessionAcks p.shared.lv := by
  intro hactive
  rw [hidle.1] at hactive
  cases hactive

/-!
# The gate
-/

theorem countP_range_eq {p : Nat -> Bool} {n : Nat} :
    (List.range n).countP p = n ↔ forall s, s < n -> p s = true := by
  have hall := List.countP_eq_length (p := p) (l := List.range n)
  rw [List.length_range] at hall
  rw [hall]
  constructor
  · intro h s hs
    exact h s (List.mem_range.mpr hs)
  · intro h s hs
    exact h s (List.mem_range.mp hs)

theorem wsLiveFinish_iff {lv : LiveState} (h : SessionAcks lv) :
    (wsLiveFinish lv).2 = 0 ↔ lv.active = true ∧ lv.aborted = false ∧
      forall s, s < lv.nsegs -> Accepted lv s := by
  unfold wsLiveFinish
  cases hactive : lv.active with
  | false => simp
  | true =>
      have hacks := (h hactive).2.2
      have hcount : (List.range lv.nsegs).countP lv.ackedEver = lv.nsegs ↔
          forall s, s < lv.nsegs -> Accepted lv s := by
        rw [countP_range_eq]
        constructor
        · intro hall s hs
          exact (hacks s).mp (hall s hs)
        · intro hall s hs
          exact (hacks s).mpr (hall s hs)
      rw [← hcount]
      cases habort : lv.aborted with
      | true => simp
      | false =>
          by_cases heq : (List.range lv.nsegs).countP lv.ackedEver = lv.nsegs
          · simp [heq]
          · simp [heq]

/-!
# The resume point in bytes
-/

/-- The first {lit}`k` segments are accepted, and no longer prefix is. -/
structure LongestPrefix (lv : LiveState) (k : Nat) : Prop where
  le : k ≤ lv.nsegs
  accepted : forall s, s < k -> Accepted lv s
  ends : k < lv.nsegs -> ¬ Accepted lv k

def prefixBytes (lv : LiveState) (k : Nat) : Nat :=
  ((List.range k).map (segLenLocked lv)).sum

theorem prefixBytes_eq {lv : LiveState} (hc : Consistent lv) {k : Nat} (hk : k ≤ lv.nsegs) :
    prefixBytes lv k = min (segSize * k) lv.total := by
  induction k with
  | zero =>
      rw [Nat.mul_zero, Nat.zero_min]
      rfl
  | succ k ih =>
      have hprev := ih (Nat.le_of_succ_le hk)
      have hlt := mul_segSize_lt hc hk
      unfold prefixBytes at hprev ⊢
      rw [List.range_succ, List.map_append, List.sum_append, hprev, List.map_singleton,
        List.sum_singleton, segLenLocked_resident hc hk, Nat.mul_succ]
      omega

theorem resumeSegs_longest {lv : LiveState} (hactive : lv.active = true)
    (hacks : Acknowledged lv) : LongestPrefix lv (resumeSegs lv) := by
  have hbounds := countWhile_bounds lv.ackedEver lv.nsegs 0
  unfold resumeSegs
  rw [if_pos hactive]
  constructor
  · omega
  · intro s hs
    exact (hacks s).mp (countWhile_holds (Nat.zero_le s) hs)
  · intro hk haccepted
    have hstop := countWhile_stops (p := lv.ackedEver) (n := lv.nsegs) (s := 0) (by omega)
    rw [(hacks _).mpr haccepted] at hstop
    cases hstop

theorem resumeOffset_eq {lv : LiveState} (hc : Consistent lv)
    (hk : resumeSegs lv ≤ lv.nsegs) :
    wsLiveGetResumeOffset lv = min (segSize * resumeSegs lv) lv.total := by
  have hsmall : resumeSegs lv * segSize < 2 ^ 64 := by
    have hle := Nat.mul_le_mul_right segSize (Nat.le_trans hk (nsegs_le hc))
    have hbig : 2 ^ 31 * segSize < 2 ^ 64 := by decide
    omega
  unfold wsLiveGetResumeOffset
  dsimp only
  rw [u64_of_lt hsmall, Nat.mul_comm]
  split <;> omega

theorem resumeOffset_longest {lv : LiveState} (h : SessionAcks lv) (hactive : lv.active = true) :
    LongestPrefix lv (resumeSegs lv) ∧
      wsLiveGetResumeOffset lv = prefixBytes lv (resumeSegs lv) := by
  rcases h hactive with ⟨hb, _, hacks⟩
  have hlongest := resumeSegs_longest hactive hacks
  refine ⟨hlongest, ?_⟩
  rw [resumeOffset_eq hb.consistent hlongest.le, prefixBytes_eq hb.consistent hlongest.le]

theorem resumeOffset_le (lv : LiveState) : wsLiveGetResumeOffset lv ≤ lv.total := by
  unfold wsLiveGetResumeOffset
  dsimp only
  split <;> omega

/-!
# Runs
-/

/-- A step after which the session is still there. -/
def SessionGoesOn (p : Pool LiveWorld LivePoint) (l : Move LiveCall LiveAnswer) : Prop :=
  BoundedCalls p l ∧
    forall q, liveProgram.system.next p l = some q -> q.shared.lv.active = true

theorem resumeOffset_move {lv lv' : LiveState} (h : SessionAcks lv)
    (hactive : lv.active = true) (hnow : lv'.active = true) (hmove : SessionMove lv lv') :
    wsLiveGetResumeOffset lv ≤ wsLiveGetResumeOffset lv' := by
  have hnext := sessionAcks_move lv lv' h hmove
  have hon := acksGoOn_move h hactive hnow hmove
  have hle : resumeSegs lv ≤ resumeSegs lv' := by
    unfold resumeSegs
    rw [if_pos hactive, if_pos hnow, hon.nsegs]
    exact countWhile_mono hon.still lv.nsegs 0
  have hmul := Nat.mul_le_mul_left segSize hle
  rw [resumeOffset_eq (h hactive).1.consistent (resumeOffset_longest h hactive).1.le,
    resumeOffset_eq (hnext hnow).1.consistent (resumeOffset_longest hnext hnow).1.le, hon.total]
  omega

theorem resumeOffset_run {p q : Pool LiveWorld LivePoint}
    {tr : List (Pool LiveWorld LivePoint × Move LiveCall LiveAnswer)}
    (hpool : PoolInv (fun w => SessionAcks w.lv) (fun _ x => BoundedPoint x) p)
    (hactive : p.shared.lv.active = true)
    (hrun : Run liveProgram.system SessionGoesOn p tr q) :
    q.shared.lv.active = true ∧
      wsLiveGetResumeOffset p.shared.lv ≤ wsLiveGetResumeOffset q.shared.lv := by
  induction hrun with
  | nil => exact ⟨hactive, Nat.le_refl _⟩
  | snoc hbefore hok hnext ih =>
      have hmid := session_run sessionAcks_move (fun _ _ h => h.1) hbefore hpool.shared
        hpool.threads
      have hnow := hok.2 _ hnext
      refine ⟨hnow, Nat.le_trans ih.2 ?_⟩
      exact resumeOffset_move hmid.shared ih.1 hnow (sessionMove_next hmid.threads hnext)

/-- The gate, the resume point and its growth, in every state that a run reaches. -/
theorem wsLiveFinish_resume {p q : Pool LiveWorld LivePoint}
    {tr : List (Pool LiveWorld LivePoint × Move LiveCall LiveAnswer)} (hidle : Idle p)
    (hrun : Run liveProgram.system BoundedCalls p tr q) :
    ((wsLiveFinish q.shared.lv).2 = 0 ↔
      q.shared.lv.active = true ∧ q.shared.lv.aborted = false ∧
        forall s, s < q.shared.lv.nsegs -> Accepted q.shared.lv s) ∧
    (q.shared.lv.active = true -> exists k, LongestPrefix q.shared.lv k ∧
      wsLiveGetResumeOffset q.shared.lv = prefixBytes q.shared.lv k) ∧
    wsLiveGetResumeOffset q.shared.lv ≤ q.shared.lv.total ∧
    forall tr' q', q.shared.lv.active = true ->
      Run liveProgram.system SessionGoesOn q tr' q' ->
        wsLiveGetResumeOffset q.shared.lv ≤ wsLiveGetResumeOffset q'.shared.lv := by
  have hpool := session_run sessionAcks_move (fun _ _ h => h) hrun (sessionAcks_of_idle hidle)
    (by
      intro x hx
      rw [hidle.2] at hx
      cases hx)
  refine ⟨wsLiveFinish_iff hpool.shared, ?_, resumeOffset_le _, ?_⟩
  · intro hactive
    exact ⟨_, resumeOffset_longest hpool.shared hactive⟩
  · intro tr' q' hactive hrun'
    exact (resumeOffset_run hpool hactive hrun').2

/-- Six segments arrive, some of them out of order, in four slots; the last one is short. -/
theorem wsLiveFinish_resume_example :
    exists tr q, Run liveProgram.system BoundedCalls emptyPool tr q ∧
      wsLiveGetResumeOffset q.shared.lv = segSize * 2 ∧
      (exists k, LongestPrefix q.shared.lv k ∧
        wsLiveGetResumeOffset q.shared.lv = prefixBytes q.shared.lv k) ∧
      ((wsLiveFinish q.shared.lv).2 = 0 ↔
        q.shared.lv.active = true ∧ q.shared.lv.aborted = false ∧
          forall s, s < q.shared.lv.nsegs -> Accepted q.shared.lv s) := by
  have hexec : (execWhile liveProgram.system BoundedCalls emptyPool
      (oneByOne 0 [createSegs (segSize * 5 + 7), LiveCall.tryWrite (fillMessage 0 2 65),
        LiveCall.read 0 (segSize * 2) (fun _ => 0), LiveCall.tryWrite (fillMessage 3 2 66),
        LiveCall.tryWrite { offset := segSize * 5, len := 7, data := fun _ => 67 }])).map
      (fun q => (q.shared.lv.active, wsLiveGetResumeOffset q.shared.lv)) =
      some (true, segSize * 2) := by
    decide
  rcases Option.map_eq_some_iff.mp hexec with ⟨q, hq, hobs⟩
  rcases run_of_execWhile hq with ⟨tr, _, hrun⟩
  rcases Prod.mk.inj hobs with ⟨hactive, hresume⟩
  have hall := wsLiveFinish_resume ⟨rfl, rfl⟩ hrun
  exact ⟨tr, q, hrun, hresume, hall.2.1 hactive, hall.1⟩

end Live
end PkgManager
