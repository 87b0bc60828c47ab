import PkgManager.Installer.Handoff

/-!
# A canceled install stays canceled

A cancel writes the outcome at once, while the worker, the part waiter and the
server of the stream still run.  Many of their sections write the outcome after
a look at the flag of the cancel that they took in an earlier section.
-/

namespace PkgManager
namespace Installer

open Transition
open StreamServer (Console)

/-!
# What is asked
-/

structure IsCanceled (s : InstallerStatus) : Prop where
  isInstalling : s.isInstalling = false
  failed : s.failed = true
  completed : s.completed = false
  statusStr : s.statusStr = "canceled"

/-- The section commits an install. -/
def commits (p : Pool InstallWorld InstallPoint) : Move InstallCall InstallAnswer -> Bool
  | Move.call _ => false
  | Move.run t _ => commitsNow p t

/-- Once a cancel has succeeded, the status shows a canceled install until another
install is committed. -/
def StaysCanceled (console : Console)
    (ok : Pool InstallWorld InstallPoint -> Move InstallCall InstallAnswer -> Prop)
    (p : Pool InstallWorld InstallPoint) : Prop :=
  forall tr q t a q' tr' u, Run (installProgram console).system ok p tr q ->
    q.threads[t]? = some InstallPoint.cancel -> (cancel q.shared).2 = 0 ->
      (installProgram console).system.next q (Move.run t a) = some q' ->
        Run (installProgram console).system (fun s l => ok s l ∧ commits s l = false) q' tr' u ->
          IsCanceled u.shared.status

/-!
# The condition on the sections
-/

/-- The sections that write the outcome without a look at the flag of a cancel. -/
def LocalAt.writesOutcome : LocalAt -> Bool
  | LocalAt.enter => true
  | LocalAt.showDownloading => true
  | LocalAt.showInstalling => true
  | LocalAt.finish ok => ok
  | _ => false

def WorkerAt.writesOutcome (w : InstallWorld) : WorkerAt -> Bool
  | WorkerAt.failEarly _ => true
  | WorkerAt.fallback => true
  | WorkerAt.failStart => true
  | WorkerAt.pollFallback => true
  | WorkerAt.systemError _ => true
  | WorkerAt.showFinishing _ => true
  | WorkerAt.fsShow => true
  | WorkerAt.showFinishingAgain => true
  | WorkerAt.complete => !w.detachDirectStorage
  | WorkerAt.timedOut => true
  | WorkerAt.localInstall k => k.writesOutcome
  | _ => false

def WaitAt.writesOutcome : WaitAt -> Bool
  | WaitAt.show => true
  | WaitAt.found => true
  | WaitAt.timedOut => true
  | _ => false

def InstallPoint.writesOutcome (w : InstallWorld) : InstallPoint -> Bool
  | InstallPoint.worker k _ => k.writesOutcome w
  | InstallPoint.waiting _ k => k.writesOutcome
  | InstallPoint.handoffFailed _ => true
  | _ => false

/-- None of these sections runs while the flag of a cancel is set. -/
def CancelChecked (p : Pool InstallWorld InstallPoint) : Move InstallCall InstallAnswer -> Prop
  | Move.call _ => True
  | Move.run t _ =>
      p.shared.cancelStream = true ->
        p.threads[t]?.any (InstallPoint.writesOutcome p.shared) = false

instance (p : Pool InstallWorld InstallPoint) (l : Move InstallCall InstallAnswer) :
    Decidable (CancelChecked p l) :=
  match l with
  | Move.call _ => isTrue trivial
  | Move.run t _ =>
      inferInstanceAs (Decidable (p.shared.cancelStream = true ->
        p.threads[t]?.any (InstallPoint.writesOutcome p.shared) = false))

/-!
# What the sections do to the outcome
-/

/-- The part of the status that a cancel writes. -/
structure SameOutcome (s s' : InstallerStatus) : Prop where
  isInstalling : s'.isInstalling = s.isInstalling
  failed : s'.failed = s.failed
  completed : s'.completed = s.completed
  statusStr : s'.statusStr = s.statusStr

theorem sameOutcome_rfl (s : InstallerStatus) : SameOutcome s s :=
  ⟨rfl, rfl, rfl, rfl⟩

theorem isCanceled_same {s s' : InstallerStatus} (h : SameOutcome s s') (hs : IsCanceled s) :
    IsCanceled s' :=
  ⟨h.isInstalling.trans hs.isInstalling, h.failed.trans hs.failed,
    h.completed.trans hs.completed, h.statusStr.trans hs.statusStr⟩

/-- What holds from a cancel up to the next commit. -/
structure CanceledWorld (w : InstallWorld) : Prop where
  flag : w.cancelStream = true
  status : IsCanceled w.status

section Worker

variable {console : Console} {w : InstallWorld} {l : Worker} {a : InstallAnswer}

theorem stopRequested_canceled (hw : CanceledWorld w) : stopRequested w = true := by
  rw [stopRequested, hw.flag]
  rfl

theorem not_hasPending_canceled (hw : CanceledWorld w) : hasPending w = false := by
  unfold hasPending
  rw [hw.flag, Bool.not_true, Bool.and_false, Bool.false_and, Bool.false_and]

theorem outcome_launch (hw : CanceledWorld w) : (launchStep w l).status = w.status := by
  unfold launchStep
  rw [if_pos (stopRequested_canceled hw)]

theorem outcome_lost (hw : CanceledWorld w) (code : Int) : (lostStep w l code).status = w.status := by
  unfold lostStep
  dsimp only
  rw [if_pos (stopRequested_canceled hw)]

theorem outcome_adoptContent : SameOutcome w.status (adoptContentStep w l).status := by
  unfold adoptContentStep
  split
  · exact sameOutcome_rfl _
  · exact ⟨rfl, rfl, rfl, rfl⟩

theorem outcome_capture : (captureStep w l).status = w.status := by
  unfold captureStep
  split
  · rfl
  · rfl

theorem outcome_captureLocal (hw : CanceledWorld w) (ok : Bool) :
    (captureLocalStep w l ok).status = w.status := by
  unfold captureLocalStep
  rw [not_hasPending_canceled hw, Bool.and_false]
  rfl

theorem outcome_complete (hdetach : w.detachDirectStorage = true) :
    (completeStep w l).status = w.status := by
  unfold completeStep
  dsimp only
  rw [if_pos hdetach]

/-- A failed download that was canceled. -/
theorem canceled_localFinish (hw : CanceledWorld w) :
    IsCanceled (localFinishStatus w l false) := by
  unfold localFinishStatus
  dsimp only
  rw [if_neg Bool.false_ne_true, if_pos hw.flag]
  exact ⟨rfl, rfl, rfl, hw.status.statusStr⟩

theorem canceled_local (hw : CanceledWorld w) {k : LocalAt} (hk : k.writesOutcome = false) :
    IsCanceled (localStep w l a k).status := by
  cases hquiet : k.quiet with
  | true =>
      rw [(quiet_local hquiet).status]
      exact hw.status
  | false =>
      have hsame : forall {s : InstallerStatus}, SameOutcome w.status s -> IsCanceled s :=
        fun h => isCanceled_same h hw.status
      cases k with
      | progress =>
          change IsCanceled (if a.now = l.beginTime then w.status else _)
          split
          · exact hw.status
          · exact hsame ⟨rfl, rfl, rfl, rfl⟩
      | downloaded | resetProgress | pollProgress => exact hsame ⟨rfl, rfl, rfl, rfl⟩
      | finish ok =>
          cases ok with
          | false => exact canceled_localFinish hw
          | true => cases hk
      | enter | showDownloading | showInstalling => cases hk
      | _ => cases hquiet

theorem canceled_worker (hw : CanceledWorld w) {k : WorkerAt} {o : WorkerOut}
    (hk : k.writesOutcome w = false) (hstep : workerStep console w l a k = some o) :
    IsCanceled o.status := by
  cases hquiet : k.quiet with
  | true =>
      rw [(quiet_step hquiet hstep).status]
      exact hw.status
  | false =>
      have hsame : SameOutcome w.status o.status -> IsCanceled o.status :=
        fun h => isCanceled_same h hw.status
      have heq : o.status = w.status -> IsCanceled o.status := by
        intro h
        rw [h]
        exact hw.status
      cases k with
      | snapshot | cancelExit =>
          cases hstep
          exact heq rfl
      | launch =>
          cases hstep
          exact heq (outcome_launch hw)
      | size | setTotal | takeProgress =>
          cases hstep
          exact hsame ⟨rfl, rfl, rfl, rfl⟩
      | adoptContent =>
          cases hstep
          exact hsame outcome_adoptContent
      | lost code =>
          cases hstep
          exact heq (outcome_lost hw code)
      | complete =>
          cases hstep
          exact heq (outcome_complete (by simpa [WorkerAt.writesOutcome] using hk))
      | capture =>
          cases hstep
          exact heq outcome_capture
      | localInstall j =>
          cases hstep
          exact canceled_local hw hk
      | captureLocal ok =>
          cases hstep
          exact heq (outcome_captureLocal hw ok)
      | failEarly | fallback | failStart | pollFallback | systemError | showFinishing | fsShow
      | showFinishingAgain | timedOut => cases hk
      | exited => cases hstep
      | _ => cases hquiet

end Worker

theorem status_finish (c : StartCall) (w : InstallWorld) (code : Int) :
    (c.finish w code).shared.status = w.status := by
  rcases queueFrame_finish c w code with ⟨queue, tickets, waiting, hw⟩
  rw [hw]

theorem status_startFrame {w w' : InstallWorld} (h : StartFrame w w') : w'.status = w.status := by
  rcases h.same with ⟨title, hw⟩
  rw [hw]

theorem status_queueFrame {w w' : InstallWorld} (h : QueueFrame w w') : w'.status = w.status := by
  rcases h with ⟨queue, tickets, waiting, hw⟩
  rw [hw]

theorem status_markFailedBase (w : InstallWorld) : (markFailedBase w).status = w.status := by
  unfold markFailedBase
  dsimp only
  split
  · rfl
  · rfl

section Sections

variable {console : Console} {p : Pool InstallWorld InstallPoint} {t : Nat} {a : InstallAnswer}
  {x : InstallPoint} {o : Section InstallWorld InstallPoint}

/-- A start that does not commit leaves the status. -/
theorem status_start {c : StartCall} {k : StartAt}
    (hpoint : p.threads[t]? = some (InstallPoint.starting c k)) (hnot : commitsNow p t = false)
    (heffect : StartEffect console p t c a k o) : o.shared.status = p.shared.status := by
  cases heffect with
  | ends hk frame hcode => exact (status_finish c _ _).trans (status_startFrame frame)
  | goesOn hk frame hk' => exact status_startFrame frame
  | joined hreturned => rfl
  | takes hcreated hk' => rfl
  | starts hrefusal hstarts =>
      rw [commitsNow_eq hpoint hrefusal] at hnot
      cases hnot
  | startFails hrefusal =>
      rw [commitsNow_eq hpoint hrefusal] at hnot
      cases hnot

theorem status_nextQueued (w : InstallWorld) (next : AfterQueue) :
    (nextQueuedStep w next).shared.status = w.status := by
  have hsame := status_queueFrame (queueFrame_popQueued w)
  unfold nextQueuedStep
  split
  · rename_i w' e hpop
    rw [hpop] at hsame
    exact hsame
  · rename_i w' hpop
    rw [hpop] at hsame
    exact hsame

theorem canceled_waitStep {w : InstallWorld} (hw : CanceledWorld w) (part : Nat) {k : WaitAt}
    (hk : k.writesOutcome = false) : IsCanceled (waitStep w part a k).shared.status := by
  cases k with
  | check ticks => exact hw.status
  | scan ticks => exact hw.status
  | _ => cases hk

/-- A cancel or a detach finds nothing installing. -/
theorem canceled_cancel {w : InstallWorld} (hw : CanceledWorld w) : (cancel w).1 = w := by
  unfold cancel
  rw [hw.status.isInstalling]
  rfl

theorem canceled_detach {w : InstallWorld} (hw : CanceledWorld w) : (detach w).1 = w := by
  unfold detach
  rw [hw.status.isInstalling]
  rfl

theorem canceled_notify {w : InstallWorld} (hw : CanceledWorld w) (n : Nat) :
    notifyStatus w.status n = w.status := by
  unfold notifyStatus
  rw [hw.status.isInstalling]
  rfl

theorem canceled_part {w : InstallWorld} (hw : CanceledWorld w) (part : Nat) :
    partStatus w.status part = w.status := by
  unfold partStatus
  rw [hw.status.isInstalling]
  rfl

theorem canceledStatus_step (hw : CanceledWorld p.shared) (hpoint : p.threads[t]? = some x)
    (hnot : commitsNow p t = false) (hx : x.writesOutcome p.shared = false)
    (hstep : installStep console p t a x = some o) : IsCanceled o.shared.status := by
  have hsame : o.shared.status = p.shared.status -> IsCanceled o.shared.status := by
    intro h
    rw [h]
    exact hw.status
  cases x with
  | starting c k => exact hsame (status_start hpoint hnot (startEffect_step hstep))
  | enqueue path update =>
      cases hstep
      exact hsame (status_queueFrame (queueFrame_enqueue p.shared path update))
  | nextQueued next =>
      cases hstep
      exact hsame (status_nextQueued p.shared next)
  | putBack e next =>
      cases hstep
      exact hsame (status_queueFrame (queueFrame_putBack p.shared e))
  | remove path =>
      cases hstep
      exact hsame (status_queueFrame (queueFrame_remove p.shared path))
  | cancel =>
      rw [← Option.some.inj hstep] at hsame ⊢
      exact hsame (congrArg InstallWorld.status (canceled_cancel hw))
  | cancelTearDown stage =>
      cases hstep
      cases stage with
      | _ => exact hw.status
  | detach =>
      rw [← Option.some.inj hstep] at hsame ⊢
      exact hsame (congrArg InstallWorld.status (canceled_detach hw))
  | notifyBytes n =>
      cases hstep
      exact hsame (canceled_notify hw n)
  | partChanged part =>
      cases hstep
      exact hsame (canceled_part hw part)
  | waiting part k =>
      cases hstep
      exact canceled_waitStep hw part hx
  | workerEnter =>
      cases hstep
      apply hsame
      unfold workerEnterStep
      split
      · rfl
      · rfl
  | worker k l =>
      cases hstep
      unfold workerSection
      split
      · rename_i r hworker
        exact canceled_worker hw hx hworker
      · exact hw.status
  | handoffFailed code => cases hx
  | workerEnd =>
      cases hstep
      exact hsame (status_markFailedBase p.shared)
  | returned r => cases hstep

theorem canceled_step (hw : CanceledWorld p.shared) (hpoint : p.threads[t]? = some x)
    (hnot : commitsNow p t = false) (hx : x.writesOutcome p.shared = false)
    (hstep : installStep console p t a x = some o) : CanceledWorld o.shared := by
  refine ⟨?_, canceledStatus_step hw hpoint hnot hx hstep⟩
  cases threadEffect_step hpoint hstep with
  | stays hcreated hshared hworking hjoined => exact hshared.cancel hw.flag
  | takes hcreated happart hworking hjoining hcancel => exact hcancel.trans hw.flag
  | commits hnow hapart hcreated =>
      rw [hnot] at hnow
      cases hnow

end Sections

theorem canceled_next {console : Console} {p q : Pool InstallWorld InstallPoint}
    {l : Move InstallCall InstallAnswer} (hw : CanceledWorld p.shared)
    (hok : CancelChecked p l ∧ commits p l = false)
    (hnext : (installProgram console).system.next p l = some q) : CanceledWorld q.shared := by
  cases l with
  | call c =>
      rw [next_call] at hnext
      cases hnext
      exact hw
  | run t a =>
      rcases next_run hnext with ⟨x, o, hpoint, hstep, hq⟩
      rw [hq]
      have hx := hok.1 hw.flag
      rw [hpoint] at hx
      exact canceled_step hw hpoint hok.2 hx hstep

/-!
# An install that runs is not completed
-/

def NotBoth (s : InstallerStatus) : Prop :=
  s.isInstalling = true -> s.completed = false

theorem notBoth_keeps {s s' : InstallerStatus} (hs : NotBoth s)
    (hinstalling : s'.isInstalling = s.isInstalling) (hcompleted : s'.completed = s.completed) :
    NotBoth s' := by
  intro h
  rw [hcompleted]
  exact hs (hinstalling.symm.trans h)

theorem notBoth_ended {s : InstallerStatus} (h : s.isInstalling = false) : NotBoth s := by
  intro hinstalling
  rw [h] at hinstalling
  cases hinstalling

theorem notBoth_ite {c : Prop} [Decidable c] {s s' : InstallerStatus} (h : NotBoth s)
    (h' : NotBoth s') : NotBoth (if c then s else s') := by
  split
  · exact h
  · exact h'

section Worker

variable {console : Console} {w : InstallWorld} {l : Worker} {a : InstallAnswer}

theorem notBoth_completed : NotBoth (completedStatus w) :=
  notBoth_ite (fun _ => rfl) (notBoth_ended rfl)

theorem notBoth_localFinish (ok : Bool) : NotBoth (localFinishStatus w l ok) := by
  apply notBoth_ended
  unfold localFinishStatus
  split
  · rfl
  · dsimp only
    split
    · rfl
    · rfl

theorem notBoth_local (hw : NotBoth w.status) (k : LocalAt) :
    NotBoth (localStep w l a k).status := by
  cases hquiet : k.quiet with
  | true =>
      rw [(quiet_local hquiet).status]
      exact hw
  | false =>
      cases k with
      | enter => exact fun _ => rfl
      | showDownloading | downloaded | showInstalling | resetProgress | pollProgress =>
          exact notBoth_keeps hw rfl rfl
      | progress => exact notBoth_ite hw (notBoth_keeps hw rfl rfl)
      | finish ok => exact notBoth_localFinish ok
      | _ => cases hquiet

theorem notBoth_launch (hw : NotBoth w.status) : NotBoth (launchStep w l).status := by
  unfold launchStep
  split
  · exact hw
  · split
    · exact notBoth_keeps hw rfl rfl
    · exact notBoth_keeps hw rfl rfl

theorem notBoth_captureLocal (hw : NotBoth w.status) (ok : Bool) :
    NotBoth (captureLocalStep w l ok).status := by
  unfold captureLocalStep
  split
  · exact fun _ => rfl
  · exact hw

theorem notBoth_worker (hw : NotBoth w.status) {k : WorkerAt} {o : WorkerOut}
    (hstep : workerStep console w l a k = some o) : NotBoth o.status := by
  cases hquiet : k.quiet with
  | true =>
      rw [(quiet_step hquiet hstep).status]
      exact hw
  | false =>
      cases k with
      | snapshot | cancelExit =>
          cases hstep
          exact hw
      | failEarly | failStart | systemError | timedOut =>
          cases hstep
          exact notBoth_ended rfl
      | launch =>
          cases hstep
          exact notBoth_launch hw
      | size | fallback | pollFallback | setTotal | takeProgress | showFinishing | fsShow
      | showFinishingAgain =>
          cases hstep
          exact notBoth_keeps hw rfl rfl
      | adoptContent =>
          cases hstep
          have hsame := outcome_adoptContent (w := w) (l := l)
          exact notBoth_keeps hw hsame.isInstalling hsame.completed
      | lost code =>
          cases hstep
          exact notBoth_ite hw (notBoth_ended rfl)
      | complete =>
          cases hstep
          exact notBoth_ite hw notBoth_completed
      | capture =>
          cases hstep
          rw [outcome_capture]
          exact hw
      | localInstall j =>
          cases hstep
          exact notBoth_local hw j
      | captureLocal ok =>
          cases hstep
          exact notBoth_captureLocal hw ok
      | exited => cases hstep
      | _ => cases hquiet

end Worker

theorem notBoth_cancel {w : InstallWorld} (hw : NotBoth w.status) : NotBoth (cancel w).1.status := by
  unfold cancel
  split
  · exact hw
  · split
    · exact hw
    · exact notBoth_ended rfl

theorem notBoth_detach {w : InstallWorld} (hw : NotBoth w.status) : NotBoth (detach w).1.status := by
  unfold detach
  split
  · exact hw
  · split
    · exact hw
    · exact notBoth_ended rfl

theorem notBoth_commits (c : StartCall) (console : Console) (w : InstallWorld) (a : InstallAnswer)
    (d : PkgDetail) (total : Nat) : NotBoth (c.commits console w a d total).status := by
  unfold StartCall.commits
  split
  · exact fun _ => rfl
  · exact fun _ => rfl

section Sections

variable {console : Console} {p : Pool InstallWorld InstallPoint} {t : Nat} {a : InstallAnswer}
  {x : InstallPoint} {o : Section InstallWorld InstallPoint}

theorem notBoth_start (hw : NotBoth p.shared.status) {c : StartCall} {k : StartAt}
    (heffect : StartEffect console p t c a k o) : NotBoth o.shared.status := by
  cases heffect with
  | ends hk frame hcode =>
      rw [status_finish, status_startFrame frame]
      exact hw
  | goesOn hk frame hk' =>
      dsimp only
      rw [status_startFrame frame]
      exact hw
  | joined hreturned => exact hw
  | takes hcreated hk' => exact hw
  | starts hrefusal hstarts =>
      rename_i d total
      dsimp only
      rw [status_finish]
      exact notBoth_commits c console p.shared a d total
  | startFails hrefusal =>
      rw [status_finish]
      exact notBoth_ended rfl

theorem notBoth_waitStep {w : InstallWorld} (hw : NotBoth w.status) (part : Nat) (k : WaitAt) :
    NotBoth (waitStep w part a k).shared.status := by
  cases k with
  | check ticks => exact hw
  | scan ticks => exact hw
  | timedOut => exact notBoth_ended rfl
  | _ => exact notBoth_keeps hw rfl rfl

theorem notBoth_step (hw : NotBoth p.shared.status)
    (hstep : installStep console p t a x = some o) : NotBoth o.shared.status := by
  have hsame : o.shared.status = p.shared.status -> NotBoth o.shared.status := by
    intro h
    rw [h]
    exact hw
  cases x with
  | starting c k => exact notBoth_start hw (startEffect_step hstep)
  | enqueue path update =>
      cases hstep
      exact hsame (status_queueFrame (queueFrame_enqueue p.shared path update))
  | nextQueued next =>
      cases hstep
      exact hsame (status_nextQueued p.shared next)
  | putBack e next =>
      cases hstep
      exact hsame (status_queueFrame (queueFrame_putBack p.shared e))
  | remove path =>
      cases hstep
      exact hsame (status_queueFrame (queueFrame_remove p.shared path))
  | cancel =>
      rw [← Option.some.inj hstep]
      exact notBoth_cancel hw
  | cancelTearDown stage =>
      cases hstep
      cases stage with
      | _ => exact hw
  | detach =>
      rw [← Option.some.inj hstep]
      exact notBoth_detach hw
  | notifyBytes n =>
      cases hstep
      exact notBoth_ite (notBoth_keeps hw rfl rfl) hw
  | partChanged part =>
      cases hstep
      exact notBoth_ite (notBoth_keeps hw rfl rfl) hw
  | waiting part k =>
      cases hstep
      exact notBoth_waitStep hw part k
  | workerEnter =>
      cases hstep
      apply hsame
      unfold workerEnterStep
      split
      · rfl
      · rfl
  | worker k l =>
      cases hstep
      unfold workerSection
      split
      · rename_i r hworker
        exact notBoth_worker hw hworker
      · exact hw
  | handoffFailed code =>
      cases hstep
      exact notBoth_ended rfl
  | workerEnd =>
      cases hstep
      exact hsame (status_markFailedBase p.shared)
  | returned r => cases hstep

end Sections

theorem notBoth_next {console : Console} {p q : Pool InstallWorld InstallPoint}
    {l : Move InstallCall InstallAnswer} (hw : NotBoth p.shared.status)
    (hnext : (installProgram console).system.next p l = some q) : NotBoth q.shared.status := by
  cases l with
  | call c =>
      rw [next_call] at hnext
      cases hnext
      exact hw
  | run t a =>
      rcases next_run hnext with ⟨x, o, hpoint, hstep, hq⟩
      rw [hq]
      exact notBoth_step hw hstep

/-!
# A canceled install
-/

/-- What a cancel that succeeds leaves. -/
theorem canceledWorld_cancel {w : InstallWorld} (hw : NotBoth w.status)
    (hcode : (cancel w).2 = 0) : CanceledWorld (cancel w).1 := by
  unfold cancel at hcode ⊢
  split at hcode
  · cases hcode
  · rename_i hinstalling
    split at hcode
    · cases hcode
    · rename_i hdirect
      rw [if_neg hinstalling, if_neg hdirect]
      refine ⟨rfl, rfl, rfl, ?_, rfl⟩
      apply hw
      simpa using hinstalling

/-- The point of the canceling thread, the result of the cancel, and the outcome
that the status shows after the given steps. -/
structure CancelSight where
  point : Option InstallPoint
  code : Int
  shown : Option (Bool × Bool × Bool × String)
deriving DecidableEq

def shownOutcome (q : Pool InstallWorld InstallPoint) : Bool × Bool × Bool × String :=
  (q.shared.status.isInstalling, q.shared.status.failed, q.shared.status.completed,
    q.shared.status.statusStr)

def observeCancel (console : Console)
    (ok : Pool InstallWorld InstallPoint -> Move InstallCall InstallAnswer -> Prop)
    [forall p l, Decidable (ok p l)] (t : Nat) (ls : List (Move InstallCall InstallAnswer))
    (q : Pool InstallWorld InstallPoint) : CancelSight where
  point := q.threads[t]?
  code := (cancel q.shared).2
  shown := ((installProgram console).system.next q (Move.run t noAnswer)).bind
    (fun q' => (execWhile (installProgram console).system (fun s l => ok s l ∧ commits s l = false)
      q' ls).map shownOutcome)

theorem observedCancel_run {console : Console}
    {ok : Pool InstallWorld InstallPoint -> Move InstallCall InstallAnswer -> Prop}
    [forall p l, Decidable (ok p l)] {t : Nat} {ls ls' : List (Move InstallCall InstallAnswer)}
    {r : Bool × Bool × Bool × String}
    (h : (execWhile (installProgram console).system ok (idleInstaller []) ls).map
      (observeCancel console ok t ls') =
        some { point := some InstallPoint.cancel, code := 0, shown := some r }) :
    exists tr q q' tr' u, Run (installProgram console).system ok (idleInstaller []) tr q ∧
      q.threads[t]? = some InstallPoint.cancel ∧ (cancel q.shared).2 = 0 ∧
        (installProgram console).system.next q (Move.run t noAnswer) = some q' ∧
          Run (installProgram console).system (fun s l => ok s l ∧ commits s l = false) q' tr' u ∧
            shownOutcome u = r := by
  rcases Option.map_eq_some_iff.mp h with ⟨q, hexec, hobs⟩
  rcases run_of_execWhile hexec with ⟨tr, _, hrun⟩
  rcases Option.bind_eq_some_iff.mp (congrArg CancelSight.shown hobs) with ⟨q', hnext, hmap⟩
  rcases Option.map_eq_some_iff.mp hmap with ⟨u, hexec', hshown⟩
  rcases run_of_execWhile hexec' with ⟨tr', _, hrun'⟩
  exact ⟨tr, q, q', tr', u, hrun, congrArg CancelSight.point hobs, congrArg CancelSight.code hobs,
    hnext, hrun', hshown⟩

/-- A cancel is called while the worker has just been created. -/
def earlyCancel : List (Move InstallCall InstallAnswer) :=
  commitsInstall 0 "/data/a.pkg" ++ [Move.call InstallCall.cancel]

/-- The worker has found all bytes delivered and is about to show it. -/
def lateCancel : List (Move InstallCall InstallAnswer) :=
  Move.call (InstallCall.start "/data/a.pkg") :: runs 0 2 ++
    [Move.run 0 { parsed := some tenByteDetail }] ++ runs 0 2 ++ runs 1 7 ++
      Move.call (InstallCall.notifyBytes 10) :: runs 2 1 ++ runs 1 6 ++
        [Move.run 1
          { poll := Poll.progress
              { status := "installing", errorCode := 0, downloadedSize := 0, totalSize := 10 } }] ++
          runs 1 1 ++ [Move.call InstallCall.cancel]

end Installer
end PkgManager
