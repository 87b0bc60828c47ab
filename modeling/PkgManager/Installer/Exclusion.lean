import PkgManager.Installer.Effects

/-!
# One install at a time

A worker is at work from its commit to the end of its cleanup.  The thread of a
worker at work is the recorded one, or another start waits for it.  So two
workers are never at work when a start commits only after both have finished.
-/

namespace PkgManager
namespace Installer

open Transition
open StreamServer (Console)

/-!
# What is asked
-/

/-- The worker is between its commit and the end of its cleanup. -/
def InstallPoint.working : InstallPoint -> Bool
  | InstallPoint.workerEnter => true
  | InstallPoint.worker WorkerAt.exited _ => false
  | InstallPoint.worker _ _ => true
  | _ => false

/-- No two workers are at work, and none is when the flag of a cancel is reset. -/
def OneInstall (console : Console)
    (ok : Pool InstallWorld InstallPoint -> Move InstallCall InstallAnswer -> Prop)
    (p : Pool InstallWorld InstallPoint) : Prop :=
  forall tr q, Run (installProgram console).system ok p tr q ->
    countThreads InstallPoint.working q ≤ 1 ∧
      forall l q', ok q l -> (installProgram console).system.next q l = some q' ->
        q.shared.cancelStream = true -> q'.shared.cancelStream = false ->
          forall y, y ∈ q.threads -> y.working = false

/-!
# The condition on the commits
-/

/-- The worker that a thread waits for. -/
def InstallPoint.joining : InstallPoint -> Option Nat
  | InstallPoint.starting _ k => k.joining
  | _ => none

def atWork (p : Pool InstallWorld InstallPoint) (u : Nat) : Bool :=
  p.threads[u]?.any InstallPoint.working

/-- The thread is about to commit an install. -/
def commitsNow (p : Pool InstallWorld InstallPoint) (t : Nat) : Bool :=
  match p.threads[t]? with
  | some (InstallPoint.starting c (StartAt.commit _ _)) => (c.refusal p.shared).isNone
  | _ => false

def recordedFinished (p : Pool InstallWorld InstallPoint) : Bool :=
  !p.shared.streamThreadCreated || !atWork p p.shared.streamThread

def joinedFinished (p : Pool InstallWorld InstallPoint) : Bool :=
  p.threads.all (fun y => y.joining.all (fun old => !atWork p old))

/-- An install is committed only when the worker that is recorded then, and those
that other starts wait for, have finished. -/
def CommitsAfterCleanup (p : Pool InstallWorld InstallPoint) :
    Move InstallCall InstallAnswer -> Prop
  | Move.call _ => True
  | Move.run t _ => commitsNow p t = true -> recordedFinished p = true ∧ joinedFinished p = true

instance (p : Pool InstallWorld InstallPoint) (l : Move InstallCall InstallAnswer) :
    Decidable (CommitsAfterCleanup p l) :=
  match l with
  | Move.call _ => isTrue trivial
  | Move.run t _ =>
      inferInstanceAs (Decidable (commitsNow p t = true ->
        recordedFinished p = true ∧ joinedFinished p = true))

/-!
# What the sections do to the recorded thread
-/

/-- The recorded thread stays, and the flag of a cancel is not reset. -/
structure SameThread (w w' : InstallWorld) : Prop where
  thread : w'.streamThread = w.streamThread
  created : w'.streamThreadCreated = w.streamThreadCreated
  cancel : w.cancelStream = true -> w'.cancelStream = true

theorem sameThread_rfl (w : InstallWorld) : SameThread w w :=
  ⟨rfl, rfl, fun h => h⟩

theorem sameThread_trans {w w' w'' : InstallWorld} (h : SameThread w w')
    (h' : SameThread w' w'') : SameThread w w'' :=
  ⟨h'.thread.trans h.thread, h'.created.trans h.created, fun hc => h'.cancel (h.cancel hc)⟩

theorem sameThread_startFrame {w w' : InstallWorld} (h : StartFrame w w') : SameThread w w' := by
  rcases h.same with ⟨title, hw⟩
  rw [hw]
  exact ⟨rfl, rfl, fun hc => hc⟩

theorem sameThread_queueFrame {w w' : InstallWorld} (h : QueueFrame w w') : SameThread w w' := by
  rcases h with ⟨queue, tickets, waiting, hw⟩
  rw [hw]
  exact ⟨rfl, rfl, fun hc => hc⟩

theorem sameThread_cancel (w : InstallWorld) : SameThread w (cancel w).1 := by
  unfold cancel
  split
  · exact sameThread_rfl w
  · split
    · exact sameThread_rfl w
    · exact ⟨rfl, rfl, fun _ => rfl⟩

theorem sameThread_detach (w : InstallWorld) : SameThread w (detach w).1 := by
  unfold detach
  split
  · exact sameThread_rfl w
  · split
    · exact sameThread_rfl w
    · exact ⟨rfl, rfl, fun hc => hc⟩

theorem sameThread_waitStep (w : InstallWorld) (part : Nat) (a : InstallAnswer) (k : WaitAt) :
    SameThread w (waitStep w part a k).shared := by
  cases k with
  | check ticks => exact sameThread_rfl w
  | scan ticks => exact sameThread_rfl w
  | _ => exact ⟨rfl, rfl, fun hc => hc⟩

theorem sameThread_markFailedBase (w : InstallWorld) : SameThread w (markFailedBase w) := by
  unfold markFailedBase
  dsimp only
  split
  · exact ⟨rfl, rfl, fun hc => hc⟩
  · exact sameThread_rfl w

/-!
# What the sections do to the threads
-/

/-- The point of a thread that is not at work and waits for no worker. -/
structure Apart (x : InstallPoint) : Prop where
  working : x.working = false
  joining : x.joining = none

/-- A section leaves the recorded thread to itself, or takes it over for a start,
or commits an install. -/
inductive ThreadEffect (p : Pool InstallWorld InstallPoint) (t : Nat) (x : InstallPoint)
    (o : Section InstallWorld InstallPoint) : Prop where
  | stays (hcreated : o.created = none) (hshared : SameThread p.shared o.shared)
      (hworking : o.point.working = true -> x.working = true)
      (hjoined : forall old, x.joining = some old ->
        p.threads[old]?.any InstallPoint.isReturned = true)
  | takes (hcreated : o.created = none) (hx : Apart x) (hworking : o.point.working = false)
      (hjoining : o.point.joining = some p.shared.streamThread ∨ p.shared.streamThread = t)
      (hcancel : o.shared.cancelStream = p.shared.cancelStream)
  | commits (hnow : commitsNow p t = true) (hpoint : Apart o.point)
      (hcreated : o.created = none ∨ (o.created = some InstallPoint.workerEnter ∧
        o.shared.streamThreadCreated = true ∧ o.shared.streamThread = p.threads.length))

section Sections

variable {console : Console} {p : Pool InstallWorld InstallPoint} {t : Nat} {a : InstallAnswer}
  {x : InstallPoint} {o : Section InstallWorld InstallPoint}

theorem apart_ite {c : Prop} [Decidable c] {y z : InstallPoint} (hy : Apart y) (hz : Apart z) :
    Apart (if c then y else z) := by
  split
  · exact hy
  · exact hz

theorem apart_afterQueue (next : AfterQueue) : Apart next.point := by
  cases next with
  | workerExits => exact ⟨rfl, rfl⟩
  | answers => exact ⟨rfl, rfl⟩

theorem apart_finish (c : StartCall) (w : InstallWorld) (code : Int) :
    (c.finish w code).created = none ∧ Apart (c.finish w code).point := by
  unfold StartCall.finish
  split
  · exact ⟨rfl, apart_ite ⟨rfl, rfl⟩ ⟨rfl, rfl⟩⟩
  · exact ⟨rfl, rfl, rfl⟩
  · rename_i e next _
    split
    · exact ⟨rfl, rfl, rfl⟩
    · exact ⟨rfl, apart_ite (apart_afterQueue next) ⟨rfl, rfl⟩⟩
  · exact ⟨rfl, apart_ite ⟨rfl, rfl⟩ ⟨rfl, rfl⟩⟩

theorem not_joining (hx : x.joining = none) (old : Nat) (h : x.joining = some old) :
    p.threads[old]?.any InstallPoint.isReturned = true := by
  rw [hx] at h
  cases h

/-- A section of a thread that waits for nothing and goes on apart. -/
theorem threadEffect_apart {w : InstallWorld} {y : InstallPoint} (hx : x.joining = none)
    (hshared : SameThread p.shared w) (hy : Apart y) :
    ThreadEffect p t x { shared := w, point := y } := by
  refine ThreadEffect.stays rfl hshared (fun h => ?_) (not_joining hx)
  rw [hy.working] at h
  cases h

theorem commitsNow_eq {c : StartCall} {d : PkgDetail} {total : Nat}
    (hpoint : p.threads[t]? = some (InstallPoint.starting c (StartAt.commit d total)))
    (hrefusal : c.refusal p.shared = none) : commitsNow p t = true := by
  unfold commitsNow
  rw [hpoint]
  dsimp only
  rw [hrefusal]
  rfl

theorem threadEffect_start {c : StartCall} {k : StartAt}
    (hpoint : p.threads[t]? = some (InstallPoint.starting c k))
    (heffect : StartEffect console p t c a k o) :
    ThreadEffect p t (InstallPoint.starting c k) o := by
  cases heffect with
  | ends hk frame hcode =>
      rename_i w code
      rcases apart_finish c w code with ⟨hcreated, hapart⟩
      have hsame := sameThread_trans (sameThread_startFrame frame)
        (sameThread_queueFrame (queueFrame_finish c w code))
      refine ThreadEffect.stays hcreated hsame (fun h => ?_) (not_joining hk)
      rw [hapart.working] at h
      cases h
  | goesOn hk frame hk' =>
      exact threadEffect_apart hk (sameThread_startFrame frame) ⟨rfl, hk'⟩
  | joined hreturned =>
      refine ThreadEffect.stays rfl (sameThread_rfl _) (fun h => by cases h) (fun old h => ?_)
      cases h
      exact hreturned
  | takes hcreated hk' =>
      apply ThreadEffect.takes rfl ⟨rfl, rfl⟩ rfl ?_ rfl
      rcases hk' with hjoin | ⟨hself, _⟩
      · rw [hjoin]
        exact Or.inl rfl
      · exact Or.inr hself
  | starts hrefusal hstarts =>
      rename_i d total
      have hframe := queueFrame_finish c
        (commitStarted (c.commits console p.shared a d total) p.threads.length) 0
      rcases hframe with ⟨queue, tickets, waiting, hw⟩
      refine ThreadEffect.commits (commitsNow_eq hpoint hrefusal) (apart_finish c _ 0).2
        (Or.inr ⟨rfl, ?_, ?_⟩)
      · dsimp only
        rw [hw]
        rfl
      · dsimp only
        rw [hw]
        rfl
  | startFails hrefusal =>
      rename_i d total
      rcases apart_finish c (commitFailed (c.commits console p.shared a d total)) (-12) with
        ⟨hcreated, hapart⟩
      exact ThreadEffect.commits (commitsNow_eq hpoint hrefusal) hapart (Or.inl hcreated)

theorem threadEffect_worker {k : WorkerAt} {l : Worker} :
    ThreadEffect p t (InstallPoint.worker k l) (workerSection console p.shared l a k) := by
  unfold workerSection
  split
  · rename_i r hstep
    have hworks : (InstallPoint.worker k l).working = true := by
      cases k with
      | exited => cases hstep
      | _ => rfl
    exact ThreadEffect.stays rfl ⟨rfl, rfl, fun h => h⟩ (fun _ => hworks) (not_joining rfl)
  · apply threadEffect_apart rfl (sameThread_rfl _)
    exact apart_ite ⟨rfl, rfl⟩ ⟨rfl, rfl⟩

theorem threadEffect_step (hpoint : p.threads[t]? = some x)
    (hstep : installStep console p t a x = some o) : ThreadEffect p t x o := by
  cases x with
  | starting c k => exact threadEffect_start hpoint (startEffect_step hstep)
  | enqueue path update =>
      cases hstep
      exact threadEffect_apart rfl
        (sameThread_queueFrame (queueFrame_enqueue p.shared path update))
        (apart_ite ⟨rfl, rfl⟩ ⟨rfl, rfl⟩)
  | nextQueued next =>
      cases hstep
      have hsame := sameThread_queueFrame (queueFrame_popQueued p.shared)
      unfold nextQueuedStep
      split
      · rename_i w' e hpop
        rw [hpop] at hsame
        exact threadEffect_apart rfl hsame ⟨rfl, rfl⟩
      · rename_i w' hpop
        rw [hpop] at hsame
        exact threadEffect_apart rfl hsame (apart_afterQueue next)
  | putBack e next =>
      cases hstep
      exact threadEffect_apart rfl (sameThread_queueFrame (queueFrame_putBack p.shared e))
        (apart_afterQueue next)
  | remove path =>
      cases hstep
      exact threadEffect_apart rfl (sameThread_queueFrame (queueFrame_remove p.shared path))
        ⟨rfl, rfl⟩
  | cancel =>
      cases hstep
      exact threadEffect_apart rfl (sameThread_cancel p.shared)
        (apart_ite ⟨rfl, rfl⟩ ⟨rfl, rfl⟩)
  | cancelTearDown stage =>
      cases hstep
      cases stage with
      | abort => exact threadEffect_apart rfl (sameThread_rfl _) ⟨rfl, rfl⟩
      | stop => exact threadEffect_apart rfl (sameThread_rfl _) ⟨rfl, rfl⟩
      | destroy => exact threadEffect_apart rfl (sameThread_rfl _) ⟨rfl, rfl⟩
  | detach =>
      cases hstep
      exact threadEffect_apart rfl (sameThread_detach p.shared) ⟨rfl, rfl⟩
  | notifyBytes n =>
      cases hstep
      exact threadEffect_apart rfl ⟨rfl, rfl, fun h => h⟩ ⟨rfl, rfl⟩
  | partChanged part =>
      cases hstep
      exact threadEffect_apart rfl ⟨rfl, rfl, fun h => h⟩ ⟨rfl, rfl⟩
  | waiting part k =>
      cases hstep
      have hsame := sameThread_waitStep p.shared part a k
      cases k with
      | check ticks =>
          exact threadEffect_apart rfl hsame (apart_ite ⟨rfl, rfl⟩ ⟨rfl, rfl⟩)
      | _ => exact threadEffect_apart rfl hsame ⟨rfl, rfl⟩
  | workerEnter =>
      cases hstep
      unfold workerEnterStep
      split
      · exact ThreadEffect.stays rfl (sameThread_rfl _) (fun _ => rfl) (not_joining rfl)
      · exact ThreadEffect.stays rfl (sameThread_rfl _) (fun _ => rfl) (not_joining rfl)
  | worker k l =>
      cases hstep
      exact threadEffect_worker
  | handoffFailed code =>
      cases hstep
      exact threadEffect_apart rfl ⟨rfl, rfl, fun h => h⟩ ⟨rfl, rfl⟩
  | workerEnd =>
      cases hstep
      exact threadEffect_apart rfl (sameThread_markFailedBase p.shared) ⟨rfl, rfl⟩
  | returned r => cases hstep

theorem created_step (hpoint : p.threads[t]? = some x)
    (hstep : installStep console p t a x = some o) {y : InstallPoint} (hy : y ∈ o.created) :
    y = InstallPoint.workerEnter := by
  have hcreated : o.created = none ∨ o.created = some InstallPoint.workerEnter := by
    cases threadEffect_step hpoint hstep with
    | stays hcreated => exact Or.inl hcreated
    | takes hcreated => exact Or.inl hcreated
    | commits hnow hapart hcreated =>
        rcases hcreated with hnone | ⟨hsome, _⟩
        · exact Or.inl hnone
        · exact Or.inr hsome
  rcases hcreated with hnone | hsome
  · rw [hnone] at hy
    cases hy
  · rw [hsome] at hy
    exact (Option.some.inj hy).symm

end Sections

/-!
# The invariant of the runs
-/

/-- A worker at work is recorded, or a start waits for it. -/
def Accounted (p : Pool InstallWorld InstallPoint) (u : Nat) : Prop :=
  (p.shared.streamThreadCreated = true ∧ p.shared.streamThread = u) ∨
    exists z, z ∈ p.threads ∧ z.joining = some u

structure ExclusionInv (p : Pool InstallWorld InstallPoint) : Prop where
  count : countThreads InstallPoint.working p ≤ 1
  accounted : forall u, atWork p u = true -> Accounted p u

theorem exclusionInv_idle (localPrefixes : List String) :
    ExclusionInv (idleInstaller localPrefixes) :=
  ⟨Nat.zero_le 1, fun u h => by cases h⟩

theorem atWork_iff {p : Pool InstallWorld InstallPoint} {u : Nat} :
    atWork p u = true ↔ exists y, p.threads[u]? = some y ∧ y.working = true := by
  unfold atWork
  cases p.threads[u]? with
  | none => simp
  | some y => simp

/-- Nothing is at work when the recorded worker and those waited for are not. -/
theorem none_atWork {p : Pool InstallWorld InstallPoint} (hinv : ExclusionInv p)
    (hrecorded : recordedFinished p = true) (hjoined : joinedFinished p = true) (u : Nat) :
    atWork p u = false := by
  cases hwork : atWork p u with
  | false => rfl
  | true =>
      rcases hinv.accounted u hwork with ⟨hcreated, hthread⟩ | ⟨z, hz, hjoin⟩
      · rw [recordedFinished, hcreated, hthread, hwork] at hrecorded
        cases hrecorded
      · have hfinished := List.all_eq_true.mp hjoined z hz
        rw [hjoin, Option.all_some, hwork] at hfinished
        cases hfinished

theorem working_false {p : Pool InstallWorld InstallPoint}
    (h : forall u, atWork p u = false) {y : InstallPoint} (hy : y ∈ p.threads) :
    y.working = false := by
  rcases List.mem_iff_getElem?.mp hy with ⟨u, hu⟩
  cases hwork : y.working with
  | false => rfl
  | true =>
      have hat := atWork_iff.mpr ⟨y, hu, hwork⟩
      rw [h u] at hat
      cases hat

theorem entry_apart (c : InstallCall) : Apart c.entry := by
  cases c with
  | startBatch path update => exact apart_ite ⟨rfl, rfl⟩ ⟨rfl, rfl⟩
  | _ => exact ⟨rfl, rfl⟩

theorem exclusionInv_call {p : Pool InstallWorld InstallPoint} (hinv : ExclusionInv p)
    (c : InstallCall) : ExclusionInv (p.enter c.entry) := by
  have hapart := entry_apart c
  constructor
  · rw [countThreads_enter, hapart.working]
    exact hinv.count
  · intro u hu
    rcases atWork_iff.mp hu with ⟨y, hy, hwork⟩
    rcases getElem?_enter hy with hold | ⟨_, hnew⟩
    · rcases hinv.accounted u (atWork_iff.mpr ⟨y, hold, hwork⟩) with hrec | ⟨z, hz, hjoin⟩
      · exact Or.inl hrec
      · exact Or.inr ⟨z, List.mem_append_left _ hz, hjoin⟩
    · rw [hnew, hapart.working] at hwork
      cases hwork

section Step

variable {p : Pool InstallWorld InstallPoint} {t : Nat} {a : InstallAnswer} {x : InstallPoint}
  {o : Section InstallWorld InstallPoint}

/-- A start that still waits, in the pool after a section of another thread. -/
theorem joining_after (hpoint : p.threads[t]? = some x) {u : Nat} {z : InstallPoint}
    (hz : z ∈ p.threads) (hjoin : z.joining = some u) (hx : x.joining ≠ some u) :
    z ∈ (p.after t o).threads := by
  rcases List.mem_iff_getElem?.mp hz with ⟨v, hv⟩
  have hne : v ≠ t := by
    intro heq
    rw [heq, hpoint] at hv
    rw [Option.some.inj hv] at hx
    exact hx hjoin
  exact List.mem_of_getElem? (getElem?_after_of_ne hne hv)

theorem not_joined {u : Nat} {y : InstallPoint} (hy : p.threads[u]? = some y)
    (hwork : y.working = true)
    (hjoined : forall old, x.joining = some old ->
      p.threads[old]?.any InstallPoint.isReturned = true) : x.joining ≠ some u := by
  intro hjoin
  have hreturned := hjoined u hjoin
  rw [hy] at hreturned
  cases y with
  | returned r => cases hwork
  | _ => cases hreturned

theorem one_working (y : InstallPoint) (hy : y.working = false) :
    (if y.working then 1 else 0) = 0 := by
  rw [hy]
  rfl

theorem exclusionInv_stays (hinv : ExclusionInv p) (hpoint : p.threads[t]? = some x)
    (hcreated : o.created = none) (hshared : SameThread p.shared o.shared)
    (hworking : o.point.working = true -> x.working = true)
    (hjoined : forall old, x.joining = some old ->
      p.threads[old]?.any InstallPoint.isReturned = true) : ExclusionInv (p.after t o) := by
  constructor
  · have hcount := countThreads_after (f := InstallPoint.working) hpoint o
    rw [hcreated, Option.toList_none, List.countP_nil] at hcount
    have hle : (if o.point.working then 1 else 0) ≤ (if x.working then 1 else 0) := by
      cases hpt : o.point.working with
      | false => exact Nat.zero_le _
      | true => rw [hworking hpt]
    have hone := hinv.count
    omega
  · intro u hu
    rcases atWork_iff.mp hu with ⟨y, hy, hwork⟩
    have hbefore : exists y', p.threads[u]? = some y' ∧ y'.working = true := by
      rcases getElem?_after hpoint hy with ⟨hut, hyo⟩ | ⟨_, hold⟩ | ⟨_, hnew⟩
      · rw [hyo] at hwork
        rw [hut]
        exact ⟨x, hpoint, hworking hwork⟩
      · exact ⟨y, hold, hwork⟩
      · rw [hcreated] at hnew
        cases hnew
    rcases hbefore with ⟨y', hy', hwork'⟩
    rcases hinv.accounted u (atWork_iff.mpr ⟨y', hy', hwork'⟩) with ⟨hflag, hthread⟩ | ⟨z, hz, hjoin⟩
    · left
      change o.shared.streamThreadCreated = true ∧ o.shared.streamThread = u
      rw [hshared.created, hshared.thread]
      exact ⟨hflag, hthread⟩
    · exact Or.inr ⟨z, joining_after hpoint hz hjoin (not_joined hy' hwork' hjoined), hjoin⟩

theorem exclusionInv_takes (hinv : ExclusionInv p) (hpoint : p.threads[t]? = some x)
    (hcreated : o.created = none) (hx : Apart x) (hworking : o.point.working = false)
    (hjoining : o.point.joining = some p.shared.streamThread ∨ p.shared.streamThread = t) :
    ExclusionInv (p.after t o) := by
  constructor
  · have hcount := countThreads_after (f := InstallPoint.working) hpoint o
    rw [hcreated, Option.toList_none, List.countP_nil, one_working _ hx.working,
      one_working _ hworking] at hcount
    have hone := hinv.count
    omega
  · intro u hu
    rcases atWork_iff.mp hu with ⟨y, hy, hwork⟩
    rcases getElem?_after hpoint hy with ⟨_, hyo⟩ | ⟨hne, hold⟩ | ⟨_, hnew⟩
    · rw [hyo, hworking] at hwork
      cases hwork
    · right
      rcases hinv.accounted u (atWork_iff.mpr ⟨y, hold, hwork⟩) with ⟨_, hthread⟩ | ⟨z, hz, hjoin⟩
      · rcases hjoining with hjoin | hself
        · rw [hthread] at hjoin
          exact ⟨o.point, List.mem_of_getElem? (getElem?_after_self hpoint), hjoin⟩
        · exact absurd (hthread.symm.trans hself) hne
      · refine ⟨z, joining_after hpoint hz hjoin ?_, hjoin⟩
        rw [hx.joining]
        exact Option.some_ne_none u |>.symm
    · rw [hcreated] at hnew
      cases hnew

theorem exclusionInv_commits (hpoint : p.threads[t]? = some x)
    (hnone : forall u, atWork p u = false) (hapart : Apart o.point)
    (hcreated : o.created = none ∨ (o.created = some InstallPoint.workerEnter ∧
      o.shared.streamThreadCreated = true ∧ o.shared.streamThread = p.threads.length)) :
    ExclusionInv (p.after t o) := by
  have hx := working_false hnone (List.mem_of_getElem? hpoint)
  have hzero : countThreads InstallPoint.working p = 0 := by
    apply List.countP_eq_zero.mpr
    intro y hy
    rw [working_false hnone hy]
    exact Bool.false_ne_true
  constructor
  · have hcount := countThreads_after (f := InstallPoint.working) hpoint o
    rw [one_working _ hx, one_working _ hapart.working, hzero] at hcount
    rcases hcreated with hc | ⟨hc, _⟩
    · rw [hc, Option.toList_none, List.countP_nil] at hcount
      omega
    · rw [hc] at hcount
      change countThreads InstallPoint.working (p.after t o) + 0 = 0 + 0 + 1 at hcount
      omega
  · intro u hu
    rcases atWork_iff.mp hu with ⟨y, hy, hwork⟩
    rcases getElem?_after hpoint hy with ⟨_, hyo⟩ | ⟨_, hold⟩ | ⟨hlen, hnew⟩
    · rw [hyo, hapart.working] at hwork
      cases hwork
    · have hat := atWork_iff.mpr ⟨y, hold, hwork⟩
      rw [hnone u] at hat
      cases hat
    · rcases hcreated with hc | ⟨_, hflag, hthread⟩
      · rw [hc] at hnew
        cases hnew
      · rw [hlen]
        exact Or.inl ⟨hflag, hthread⟩

end Step

theorem exclusionInv_next {console : Console} {p q : Pool InstallWorld InstallPoint}
    {l : Move InstallCall InstallAnswer} (hinv : ExclusionInv p) (hok : CommitsAfterCleanup p l)
    (hnext : (installProgram console).system.next p l = some q) : ExclusionInv q := by
  cases l with
  | call c =>
      rw [next_call] at hnext
      cases hnext
      exact exclusionInv_call hinv c
  | run t a =>
      rcases next_run hnext with ⟨x, o, hpoint, hstep, hq⟩
      rw [hq]
      cases threadEffect_step hpoint hstep with
      | stays hcreated hshared hworking hjoined =>
          exact exclusionInv_stays hinv hpoint hcreated hshared hworking hjoined
      | takes hcreated hx hworking hjoining hcancel =>
          exact exclusionInv_takes hinv hpoint hcreated hx hworking hjoining
      | commits hnow hapart hcreated =>
          have hnone := none_atWork hinv (hok hnow).1 (hok hnow).2
          exact exclusionInv_commits hpoint hnone hapart hcreated

/-!
# One install
-/

theorem one_install (console : Console) (localPrefixes : List String) :
    OneInstall console CommitsAfterCleanup (idleInstaller localPrefixes) := by
  intro tr q hrun
  have hinv : ExclusionInv q :=
    run_invariant (fun hinv hok hnext => exclusionInv_next hinv hok hnext) hrun
      (exclusionInv_idle localPrefixes)
  refine ⟨hinv.count, ?_⟩
  intro l q' hok hnext hbefore hafter y hy
  cases l with
  | call c =>
      rw [next_call] at hnext
      cases hnext
      change q.shared.cancelStream = false at hafter
      rw [hbefore] at hafter
      cases hafter
  | run t a =>
      rcases next_run hnext with ⟨x, o, hpoint, hstep, hq⟩
      rw [hq] at hafter
      change o.shared.cancelStream = false at hafter
      cases threadEffect_step hpoint hstep with
      | stays hcreated hshared hworking hjoined =>
          rw [hshared.cancel hbefore] at hafter
          cases hafter
      | takes hcreated hx hworking hjoining hcancel =>
          rw [hcancel, hbefore] at hafter
          cases hafter
      | commits hnow hapart hcreated =>
          exact working_false (none_atWork hinv (hok hnow).1 (hok hnow).2) hy

/-!
# Concrete runs
-/

def noAnswer : InstallAnswer := {}

def runs (t n : Nat) : List (Move InstallCall InstallAnswer) :=
  List.replicate n (Move.run t noAnswer)

/-- The thread {lit}`t` commits an install. -/
def commitsInstall (t : Nat) (path : String) : List (Move InstallCall InstallAnswer) :=
  Move.call (InstallCall.start path) :: runs t 5

/-- The workers at work, and the package that is shown. -/
structure WorkSight where
  working : Nat
  pkgPath : String
  cancelStream : Bool
deriving DecidableEq

def observeWork (q : Pool InstallWorld InstallPoint) : WorkSight where
  working := countThreads InstallPoint.working q
  pkgPath := q.shared.status.pkgPath
  cancelStream := q.shared.cancelStream

theorem observedWork_run {console : Console}
    {ok : Pool InstallWorld InstallPoint -> Move InstallCall InstallAnswer -> Prop}
    [forall p l, Decidable (ok p l)] {ls : List (Move InstallCall InstallAnswer)} {s : WorkSight}
    (h : (execWhile (installProgram console).system ok (idleInstaller []) ls).map observeWork =
      some s) :
    exists tr q, Run (installProgram console).system ok (idleInstaller []) tr q ∧
      observeWork q = s := by
  rcases Option.map_eq_some_iff.mp h with ⟨q, hexec, hobs⟩
  rcases run_of_execWhile hexec with ⟨tr, _, hrun⟩
  exact ⟨tr, q, hrun, hobs⟩

/-- The stream of the first package does not start, and the second start waits for
the worker to end. -/
def twoInstalls : List (Move InstallCall InstallAnswer) :=
  commitsInstall 0 "/data/a.pkg" ++ runs 1 2 ++
    [Move.run 1 { streamStarts := false }] ++ runs 1 4 ++
      Move.call (InstallCall.start "/data/b.pkg") :: runs 2 6

theorem one_install_second :
    exists tr q, Run (installProgram Console.ps5).system CommitsAfterCleanup (idleInstaller [])
        tr q ∧
      q.shared.status.pkgPath = "/data/b.pkg" ∧ countThreads InstallPoint.working q = 1 ∧
        countThreads InstallPoint.working q ≤ 1 := by
  have hobs : (execWhile (installProgram Console.ps5).system CommitsAfterCleanup
      (idleInstaller []) twoInstalls).map observeWork =
        some { working := 1, pkgPath := "/data/b.pkg", cancelStream := false } := by
    decide
  rcases observedWork_run hobs with ⟨tr, q, hrun, hsight⟩
  exact ⟨tr, q, hrun, congrArg WorkSight.pkgPath hsight, congrArg WorkSight.working hsight,
    (one_install Console.ps5 [] tr q hrun).1⟩

/-- An install is canceled; one start waits for its worker, and another one
commits. -/
def secondStarter : List (Move InstallCall InstallAnswer) :=
  commitsInstall 0 "/data/a.pkg" ++ Move.call InstallCall.cancel :: runs 2 1 ++
    Move.call (InstallCall.start "/data/b.pkg") :: runs 3 2 ++
      commitsInstall 4 "/data/c.pkg"

theorem second_starter_commits :
    ¬ OneInstall Console.ps5 (fun _ _ => True) (idleInstaller []) := by
  intro hone
  have hobs : (execWhile (installProgram Console.ps5).system (fun _ _ => True)
      (idleInstaller []) secondStarter).map observeWork =
        some { working := 2, pkgPath := "/data/c.pkg", cancelStream := false } := by
    decide
  rcases observedWork_run hobs with ⟨tr, q, hrun, hsight⟩
  have htwo : countThreads InstallPoint.working q = 2 := congrArg WorkSight.working hsight
  have hle := (hone tr q hrun).1
  rw [htwo] at hle
  exact absurd hle (by decide)

end Installer
end PkgManager
