import PkgManager.Live.Waited

/-!
# What a reader has passed

What is below the mark may be evicted in sequential mode, so a stretch that the
mark jumps over is lost before it was read.
-/

namespace PkgManager
namespace Live

open Transition

/-!
# What a run has delivered
-/

/-- The range that a step gives to its reader: where it starts and how long it is. -/
def readDone (p : Pool LiveWorld LivePoint) : Move LiveCall LiveAnswer -> Option (Nat × Nat)
  | Move.call _ => none
  | Move.run t a =>
      match liveProgram.sectionAt p t a with
      | none => none
      | some o =>
          match o.point with
          | LivePoint.readReturned off _ n _ => if 0 < n then some (off, n.toNat) else none
          | _ => none

/-- The ranges delivered since the session began, the newest first. -/
def sessionReads (tr : List (Pool LiveWorld LivePoint × Move LiveCall LiveAnswer)) :
    List (Nat × Nat) :=
  tr.foldl (fun reads x =>
    if x.1.shared.lv.active then (readDone x.1 x.2).toList ++ reads else []) []

def Delivered (tr : List (Pool LiveWorld LivePoint × Move LiveCall LiveAnswer)) (p : Nat) :
    Prop :=
  exists r, r ∈ sessionReads tr ∧ r.1 ≤ p ∧ p < r.1 + r.2

theorem sessionReads_snoc {tr : List (Pool LiveWorld LivePoint × Move LiveCall LiveAnswer)}
    {p : Pool LiveWorld LivePoint} (hactive : p.shared.lv.active = true)
    (l : Move LiveCall LiveAnswer) :
    sessionReads (tr ++ [(p, l)]) = (readDone p l).toList ++ sessionReads tr := by
  unfold sessionReads
  rw [List.foldl_append, List.foldl_cons, List.foldl_nil, if_pos hactive]

theorem delivered_snoc {tr : List (Pool LiveWorld LivePoint × Move LiveCall LiveAnswer)}
    {p : Pool LiveWorld LivePoint} (hactive : p.shared.lv.active = true)
    (l : Move LiveCall LiveAnswer) {pos : Nat} (h : Delivered tr pos) :
    Delivered (tr ++ [(p, l)]) pos := by
  rcases h with ⟨r, hmem, hpos⟩
  refine ⟨r, ?_, hpos⟩
  rw [sessionReads_snoc hactive]
  exact List.mem_append_right _ hmem

theorem delivered_done {tr : List (Pool LiveWorld LivePoint × Move LiveCall LiveAnswer)}
    {p : Pool LiveWorld LivePoint} (hactive : p.shared.lv.active = true)
    {l : Move LiveCall LiveAnswer} {off n pos : Nat} (hdone : readDone p l = some (off, n))
    (hlow : off ≤ pos) (hhigh : pos < off + n) : Delivered (tr ++ [(p, l)]) pos := by
  refine ⟨(off, n), ?_, hlow, hhigh⟩
  rw [sessionReads_snoc hactive, hdone]
  exact List.mem_append_left _ (List.mem_singleton.mpr rfl)

/-!
# What is below the mark
-/

/-- A read that starts above the mark and is about to move it finds everything in between
delivered. -/
def InOrder (tr : List (Pool LiveWorld LivePoint × Move LiveCall LiveAnswer))
    (p : Pool LiveWorld LivePoint) (l : Move LiveCall LiveAnswer) : Prop :=
  forall off n, readDone p l = some (off, n) -> off ≤ u64 (p.shared.lv.runHi + segSize) ->
    forall pos, p.shared.lv.runHi ≤ pos -> pos < off -> Delivered tr pos

/-- Every read of a run passes the mark in order. -/
def PassesInOrder (tr : List (Pool LiveWorld LivePoint × Move LiveCall LiveAnswer)) : Prop :=
  forall before p l after, tr = before ++ (p, l) :: after -> InOrder before p l

/-- The reader has passed everything below the mark. -/
def Passed (tr : List (Pool LiveWorld LivePoint × Move LiveCall LiveAnswer))
    (p : Pool LiveWorld LivePoint) : Prop :=
  p.shared.lv.active = true -> forall pos, pos < p.shared.lv.runHi -> Delivered tr pos

theorem passesInOrder_snoc
    {tr : List (Pool LiveWorld LivePoint × Move LiveCall LiveAnswer)}
    {p : Pool LiveWorld LivePoint} {l : Move LiveCall LiveAnswer}
    (h : PassesInOrder (tr ++ [(p, l)])) : PassesInOrder tr ∧ InOrder tr p l := by
  constructor
  · intro before p' l' after heq
    apply h before p' l' (after ++ [(p, l)])
    rw [heq, List.append_assoc, List.cons_append]
  · exact h tr p l [] rfl

/-- A step of an active session moves the mark by a completed read, or not at all. -/
theorem runHi_next {p q : Pool LiveWorld LivePoint} {l : Move LiveCall LiveAnswer}
    (hactive : p.shared.lv.active = true)
    (hpoints : forall x, x ∈ p.threads -> BoundedPoint x ∧ ReadingPoint x)
    (hnext : liveProgram.system.next p l = some q) :
    q.shared.lv.runHi = p.shared.lv.runHi ∨
      exists off n, readDone p l = some (off, n) ∧ off ≤ u64 (p.shared.lv.runHi + segSize) ∧
        q.shared.lv.runHi = off + n := by
  cases l with
  | call c =>
      rw [next_call] at hnext
      cases hnext
      exact Or.inl rfl
  | run t a =>
      rcases next_run hnext with ⟨x, o, hx, hstep, hq⟩
      have hpoint := hpoints x (List.mem_of_getElem? hx)
      rw [hq]
      rcases (markStep_section hpoint.1 hpoint.2 hstep).mark hactive with
        hsame | ⟨off, count, n, dst, hdone, hpos, hstart, hmark⟩
      · exact Or.inl hsame
      · refine Or.inr ⟨off, n, ?_, hstart, hmark⟩
        have hsection : liveProgram.sectionAt p t a = some o := by
          rw [sectionAt_eq hx, hstep]
        unfold readDone
        dsimp only
        rw [hsection]
        dsimp only
        rw [hdone]
        dsimp only
        rw [if_pos (Int.natCast_pos.mpr hpos), Int.toNat_natCast]

theorem passed_next {tr : List (Pool LiveWorld LivePoint × Move LiveCall LiveAnswer)}
    {p q : Pool LiveWorld LivePoint} {l : Move LiveCall LiveAnswer} (hpassed : Passed tr p)
    (horder : InOrder tr p l)
    (hpoints : forall x, x ∈ p.threads -> BoundedPoint x ∧ ReadingPoint x)
    (hnext : liveProgram.system.next p l = some q) : Passed (tr ++ [(p, l)]) q := by
  intro hnow pos hpos
  cases hactive : p.shared.lv.active with
  | false =>
      have hmove := sessionMove_next (fun x hx => (hpoints x hx).1) hnext
      rw [(started_of_moved hmove hactive hnow).runHi] at hpos
      exact absurd hpos (Nat.not_lt_zero pos)
  | true =>
      have hold : pos < p.shared.lv.runHi -> Delivered (tr ++ [(p, l)]) pos := fun hbelow =>
        delivered_snoc hactive l (hpassed hactive pos hbelow)
      rcases runHi_next hactive hpoints hnext with hsame | ⟨off, n, hdone, hstart, hmark⟩
      · rw [hsame] at hpos
        exact hold hpos
      · rw [hmark] at hpos
        by_cases hbelow : pos < p.shared.lv.runHi
        · exact hold hbelow
        · by_cases hgap : pos < off
          · exact delivered_snoc hactive l
              (horder off n hdone hstart pos (Nat.le_of_not_lt hbelow) hgap)
          · exact delivered_done hactive hdone (Nat.le_of_not_lt hgap) hpos

def ReadingPool : Pool LiveWorld LivePoint -> Prop :=
  PoolInv (fun _ => True) (fun _ x => BoundedPoint x ∧ ReadingPoint x)

theorem readingPool_next {p q : Pool LiveWorld LivePoint} {l : Move LiveCall LiveAnswer}
    (hpool : ReadingPool p) (hok : BoundedCalls p l)
    (hnext : liveProgram.system.next p l = some q) : ReadingPool q := by
  refine poolInv_next ?_ ?_ ?_ hpool hnext
  · intro c hl
    rw [hl] at hok
    exact ⟨hok, trivial⟩
  · intro t x a o _ hx hstep
    have hpoint := hpool.threads x (List.mem_of_getElem? hx)
    have hmark := markStep_section hpoint.1 hpoint.2 hstep
    refine ⟨trivial, ⟨(moveStep_section hpoint.1 hstep).point, hmark.point⟩, ?_⟩
    intro y hy
    rw [hmark.created] at hy
    cases hy
  · intro t x a o y _ _ _ _ hy
    exact hy

/-- What a run keeps, as long as its reads pass the mark in order. -/
def PassedPool (tr : List (Pool LiveWorld LivePoint × Move LiveCall LiveAnswer))
    (p : Pool LiveWorld LivePoint) : Prop :=
  ReadingPool p ∧ (PassesInOrder tr -> Passed tr p)

theorem passedPool_of_idle {p : Pool LiveWorld LivePoint} (hidle : Idle p) : PassedPool [] p := by
  refine ⟨⟨trivial, ?_⟩, ?_⟩
  · intro x hx
    rw [hidle.2] at hx
    cases hx
  · intro _ hactive
    rw [hidle.1] at hactive
    cases hactive

theorem passed_run {p q : Pool LiveWorld LivePoint}
    {tr : List (Pool LiveWorld LivePoint × Move LiveCall LiveAnswer)} (hidle : Idle p)
    (hrun : Run liveProgram.system BoundedCalls p tr q) (horder : PassesInOrder tr) :
    Passed tr q := by
  have hall : PassedPool tr q := by
    refine run_history_invariant ?_ hrun (passedPool_of_idle hidle)
    intro tr p q l hinv hok hnext
    refine ⟨readingPool_next hinv.1 hok hnext, ?_⟩
    intro horder
    have hsplit := passesInOrder_snoc horder
    exact passed_next (hinv.2 hsplit.1) hsplit.2 hinv.1.threads hnext
  exact hall.2 horder

/-!
# What a write evicts
-/

/-- The store of a segment that takes the slot of another. -/
theorem evicted_candidate {lv lv' : LiveState} (hc : Consistent lv) {seg s : Nat}
    (hseg : segSize * seg < 2 ^ 64) {m : Message} {r : Int}
    (h : storeSegLocked lv seg m = (lv', r)) (hbefore : lv.present s = true)
    (hafter : lv'.present s = false) : Candidate lv seg s := by
  have hsame : lv'.present s = lv.present s -> Candidate lv seg s := by
    intro heq
    rw [heq, hbefore] at hafter
    cases hafter
  have hcase := storeSegLocked_spec (total_lt hc) hseg m
  rw [h] at hcase
  cases hcase with
  | apart => exact hsame rfl
  | part => exact hsame rfl
  | busy hnot hall hbusy =>
      have halloc := allocSlotLocked_cases hc (lt_nsegs_of_not_apart hc hseg hnot)
      generalize allocSlotLocked lv seg = a at halloc hbusy hsame
      cases halloc with
      | resident hres => exact hsame rfl
      | free slot => exact absurd hbusy (by dsimp only; omega)
      | evict s' _ _ hcand =>
          have hslot := hcand.slot
          exact absurd hbusy (by dsimp only; omega)
      | busy => exact hsame rfl
  | stored hnot =>
      have halloc := allocSlotLocked_cases hc (lt_nsegs_of_not_apart hc hseg hnot)
      have hpresent : (allocSlotLocked lv seg).1.present s = true -> Candidate lv seg s := by
        intro hthere
        change Function.update (allocSlotLocked lv seg).1.present seg true s = false at hafter
        by_cases heq : s = seg
        · rw [heq, Function.update_self] at hafter
          cases hafter
        · rw [Function.update_of_ne heq, hthere] at hafter
          cases hafter
      generalize allocSlotLocked lv seg = a at halloc hpresent
      have hassign : forall mid slot, (assignSlot mid seg slot).present = mid.present := by
        intro mid slot
        unfold assignSlot
        split <;> rfl
      cases halloc with
      | resident => exact hpresent hbefore
      | free slot =>
          apply hpresent
          rw [hassign]
          exact hbefore
      | evict s' _ _ hcand =>
          by_cases heq : s = s'
          · rw [heq]
            exact hcand
          · apply hpresent
            rw [hassign]
            change Function.update lv.present s' false s = true
            rw [Function.update_of_ne heq]
            exact hbefore
      | busy => exact hpresent hbefore

/-- In sequential mode, with no reader behind the incoming segment, what is evicted lies
below the mark. -/
theorem evicted_below_mark {lv : LiveState} (hc : Consistent lv) {seg s : Nat}
    (hpeak : lv.peakSeg = 0) (hwait : lv.waiters seg = 0) (hcand : Candidate lv seg s) :
    segSize * (s + 1) ≤ lv.runHi := by
  have hevict := hcand.evictable
  have hsmall : segSize * (s + 1) < 2 ^ 64 := by
    have hlt := mul_segSize_lt hc hcand.high
    have htotal := hc.total_le
    unfold maxTotal at htotal
    rw [Nat.mul_succ]
    unfold segSize at hlt ⊢
    omega
  unfold evictable at hevict
  rw [hwait, hpeak, u64_of_lt hsmall] at hevict
  split at hevict
  · assumption
  · simp at hevict

/-- Every store that a write comes to evicts only what was delivered to a reader. -/
def EvictsDelivered (tr : List (Pool LiveWorld LivePoint × Move LiveCall LiveAnswer))
    (p : Pool LiveWorld LivePoint) : Prop :=
  p.shared.lv.active = true -> forall mid seg m s, Stores p.shared.lv mid ->
    segSize * seg < 2 ^ 64 -> mid.peakSeg = 0 -> mid.waiters seg = 0 -> mid.present s = true ->
      (storeSegLocked mid seg m).1.present s = false ->
        forall i, i < segLenLocked mid s -> Delivered tr (segSize * s + i)

/-- In every run whose reads pass the mark in order, no write of sequential mode discards
unread data. -/
theorem evictsDelivered_of_inOrder {p q : Pool LiveWorld LivePoint}
    {tr : List (Pool LiveWorld LivePoint × Move LiveCall LiveAnswer)} (hidle : Idle p)
    (hrun : Run liveProgram.system BoundedCalls p tr q) (horder : PassesInOrder tr) :
    EvictsDelivered tr q := by
  intro hactive mid seg m s hstores hseg hpeak hwait hbefore hafter i hi
  have hb := booked_of_stores hstores (sessionBooked_run hidle hrun hactive).1
  have hcand := evicted_candidate hb.consistent hseg rfl hbefore hafter
  have hbelow := evicted_below_mark hb.consistent hpeak hwait hcand
  have hlen : segLenLocked mid s ≤ segSize := by
    rw [segLenLocked_resident hb.consistent hcand.high]
    exact Nat.min_le_left _ _
  apply passed_run hidle hrun horder hactive
  rw [Nat.mul_succ, stores_runHi hstores] at hbelow
  omega

/-- A read that completes starts at the mark or below it. -/
def startsBelow (x : Pool LiveWorld LivePoint × Move LiveCall LiveAnswer) : Bool :=
  match readDone x.1 x.2 with
  | none => true
  | some r => decide (r.1 ≤ x.1.shared.lv.runHi)

theorem passesInOrder_of_startsBelow
    {tr : List (Pool LiveWorld LivePoint × Move LiveCall LiveAnswer)}
    (h : tr.all startsBelow = true) : PassesInOrder tr := by
  intro before p l after heq off n hdone _ pos hlow hhigh
  have hmem : (p, l) ∈ tr := by
    rw [heq]
    exact List.mem_append_right _ List.mem_cons_self
  have hstart := List.all_eq_true.mp h (p, l) hmem
  unfold startsBelow at hstart
  dsimp only at hstart
  rw [hdone] at hstart
  have hstart : off ≤ p.shared.lv.runHi := of_decide_eq_true hstart
  omega

theorem evictsDelivered_of_inOrder_example :
    exists tr q, Run liveProgram.system BoundedCalls emptyPool tr q ∧
      (storeSegLocked q.shared.lv 4 (fillMessage 4 1 66)).1.present 1 = false ∧
      forall i, i < segLenLocked q.shared.lv 1 -> Delivered tr (segSize * 1 + i) := by
  have hexec : (traceWhile liveProgram.system BoundedCalls emptyPool
      (oneByOne 0 [createSegs (segSize * 8), LiveCall.tryWrite (fillMessage 0 4 65),
        LiveCall.read 0 (segSize * 2) (fun _ => 0)])).map (fun r =>
      (r.1.all startsBelow, decide (r.2.shared.lv.active = true ∧ r.2.shared.lv.peakSeg = 0 ∧
        r.2.shared.lv.waiters 4 = 0 ∧ r.2.shared.lv.present 1 = true ∧
        (storeSegLocked r.2.shared.lv 4 (fillMessage 4 1 66)).1.present 1 = false))) =
      some (true, true) := by
    decide
  rcases Option.map_eq_some_iff.mp hexec with ⟨r, hr, hobs⟩
  simp only [Prod.mk.injEq, decide_eq_true_eq] at hobs
  rcases hobs with ⟨hbelow, hactive, hpeak, hwait, hbefore, hafter⟩
  have hrun := run_of_traceWhile hr
  exact ⟨r.1, r.2, hrun, hafter,
    evictsDelivered_of_inOrder ⟨rfl, rfl⟩ hrun (passesInOrder_of_startsBelow hbelow) hactive
      r.2.shared.lv 4 (fillMessage 4 1 66) 1 Relation.ReflTransGen.refl (by decide) hpeak hwait
      hbefore hafter⟩

/-- A reader that starts one segment above the mark moves it over a segment nobody has read,
and the next write takes its slot. -/
theorem not_evictsDelivered :
    ¬ forall tr q, Run liveProgram.system BoundedCalls emptyPool tr q -> EvictsDelivered tr q := by
  intro hall
  have hexec : (traceWhile liveProgram.system BoundedCalls emptyPool
      (oneByOne 0 [createSegs (segSize * 8), LiveCall.tryWrite (fillMessage 0 4 65),
        LiveCall.read 0 (segSize * 2) (fun _ => 0),
        LiveCall.read (segSize * 3) 1 (fun _ => 0)])).map (fun r =>
      (sessionReads r.1, decide (r.2.shared.lv.active = true ∧ r.2.shared.lv.peakSeg = 0 ∧
        r.2.shared.lv.waiters 4 = 0 ∧ r.2.shared.lv.present 2 = true ∧
        0 < segLenLocked r.2.shared.lv 2 ∧
        (storeSegLocked r.2.shared.lv 4 (fillMessage 4 1 66)).1.present 2 = false))) =
      some ([(segSize * 3, 1), (0, segSize * 2)], true) := by
    decide +kernel
  rcases Option.map_eq_some_iff.mp hexec with ⟨r, hr, hobs⟩
  simp only [Prod.mk.injEq, decide_eq_true_eq] at hobs
  rcases hobs with ⟨hreads, hactive, hpeak, hwait, hbefore, hlen, hafter⟩
  have hdelivered := hall r.1 r.2 (run_of_traceWhile hr) hactive r.2.shared.lv 4
    (fillMessage 4 1 66) 2 Relation.ReflTransGen.refl (by decide) hpeak hwait hbefore hafter 0
    hlen
  rcases hdelivered with ⟨range, hmem, hlow, hhigh⟩
  rw [hreads] at hmem
  rcases List.mem_cons.mp hmem with hfirst | hrest
  · rw [hfirst] at hlow
    exact absurd hlow (by decide)
  · rw [List.mem_singleton.mp hrest] at hhigh
    exact absurd hhigh (by decide)

end Live
end PkgManager
