import PkgManager.Installer.Threads

/-!
# What a section can change

A start only clears the pending path and the mark of a failed base before it
takes over the thread or commits; the other sections change one part of the
state each.
-/

namespace PkgManager
namespace Installer

open Transition
open StreamServer (Console)

/-!
# Sections of a start
-/

/-- The pending path may be cleared while nothing is installing. -/
structure StartFrame (w w' : InstallWorld) : Prop where
  same : exists title, w' =
    { w with failedBaseTitle := title, pendingPkgPath := w'.pendingPkgPath }
  pending : w'.pendingPkgPath = w.pendingPkgPath ∨
    (w'.pendingPkgPath = "" ∧ w.status.isInstalling = false)

theorem startFrame_rfl (w : InstallWorld) : StartFrame w w :=
  ⟨⟨w.failedBaseTitle, rfl⟩, Or.inl rfl⟩

theorem startFrame_startCheck (w : InstallWorld) (handoff : Bool) :
    StartFrame w (startCheck w handoff).1 := by
  unfold startCheck
  split
  · exact startFrame_rfl w
  · dsimp only
    split
    · exact startFrame_rfl w
    · rename_i hidle
      exact ⟨⟨w.failedBaseTitle, rfl⟩, Or.inr ⟨rfl, Bool.eq_false_iff.mpr hidle⟩⟩

theorem startFrame_checkFailedBase (w : InstallWorld) (d : PkgDetail) :
    StartFrame w (checkFailedBase w d).1 := by
  unfold checkFailedBase
  dsimp only
  split
  · exact ⟨⟨"", rfl⟩, Or.inl rfl⟩
  · exact startFrame_rfl w

/-- A section of a start ends it, goes on with it, has waited for a worker, takes
over the recorded thread, or commits the install. -/
inductive StartEffect (console : Console) (p : Pool InstallWorld InstallPoint) (t : Nat)
    (c : StartCall) (a : InstallAnswer) : StartAt -> Section InstallWorld InstallPoint -> Prop where
  | ends {k : StartAt} {w : InstallWorld} {code : Int} (hk : k.joining = none)
      (frame : StartFrame p.shared w) (hcode : code ≠ 0) :
      StartEffect console p t c a k (c.finish w code)
  | goesOn {k k' : StartAt} {w : InstallWorld} (hk : k.joining = none)
      (frame : StartFrame p.shared w) (hk' : k'.joining = none) :
      StartEffect console p t c a k { shared := w, point := InstallPoint.starting c k' }
  | joined {old : Nat} (hreturned : p.threads[old]?.any InstallPoint.isReturned = true) :
      StartEffect console p t c a (StartAt.join old)
        { shared := p.shared, point := InstallPoint.starting c StartAt.checks }
  | takes {k' : StartAt} (hcreated : p.shared.streamThreadCreated = true)
      (hk' : k' = StartAt.join p.shared.streamThread ∨
        (p.shared.streamThread = t ∧ k' = StartAt.checks)) :
      StartEffect console p t c a StartAt.takeThread
        { shared := { p.shared with streamThreadCreated := false }
          point := InstallPoint.starting c k' }
  | starts {d : PkgDetail} {total : Nat} (hrefusal : c.refusal p.shared = none)
      (hstarts : a.threadStarts = true) :
      StartEffect console p t c a (StartAt.commit d total)
        { c.finish (commitStarted (c.commits console p.shared a d total) p.threads.length) 0 with
          created := some InstallPoint.workerEnter }
  | startFails {d : PkgDetail} {total : Nat} (hrefusal : c.refusal p.shared = none) :
      StartEffect console p t c a (StartAt.commit d total)
        (c.finish (commitFailed (c.commits console p.shared a d total)) (-12))

section Starts

variable {console : Console} {p : Pool InstallWorld InstallPoint} {t : Nat} {c : StartCall}
  {a : InstallAnswer}

theorem startCheck_code {w w' : InstallWorld} {handoff : Bool} {code : Int}
    (h : startCheck w handoff = (w', some code)) : code ≠ 0 := by
  unfold startCheck at h
  split at h
  · cases h
    decide
  · dsimp only at h
    have hcode := (Prod.mk.inj h).2
    split at hcode
    · cases hcode
      decide
    · cases hcode

theorem startEffect_enter : StartEffect console p t c a StartAt.enter (enterStep p.shared c a) := by
  have hsame := startFrame_rfl p.shared
  unfold enterStep
  split
  · split
    · exact StartEffect.ends rfl hsame (by decide)
    · split
      · exact StartEffect.ends rfl hsame (by decide)
      · exact StartEffect.goesOn rfl hsame rfl
  · split
    · exact StartEffect.ends rfl hsame (by decide)
    · have hframe := startFrame_startCheck p.shared c.isHandoff
      split
      · rename_i w' code hcheck
        rw [hcheck] at hframe
        exact StartEffect.ends rfl hframe (startCheck_code hcheck)
      · rename_i w' hcheck
        rw [hcheck] at hframe
        exact StartEffect.goesOn rfl hframe rfl

theorem startEffect_takeThread :
    StartEffect console p t c a StartAt.takeThread (takeThreadStep p.shared t c) := by
  unfold takeThreadStep takeThread
  by_cases hcreated : p.shared.streamThreadCreated = true
  · rw [if_pos hcreated]
    apply StartEffect.takes hcreated
    split
    · rename_i hself
      exact Or.inr ⟨hself.1, rfl⟩
    · exact Or.inl rfl
  · rw [if_neg hcreated]
    exact StartEffect.goesOn rfl (startFrame_rfl p.shared) rfl

theorem missingCode_ne (path : String) : missingCode path a ≠ 0 := by
  unfold missingCode
  split
  · decide
  · decide

theorem startEffect_checks :
    StartEffect console p t c a StartAt.checks
      (if c.isLive then liveChecks p.shared c a else packageChecks p.shared c a) := by
  have hsame := startFrame_rfl p.shared
  split
  · unfold liveChecks
    dsimp only
    split
    · exact StartEffect.ends rfl hsame (by decide)
    · split
      · exact StartEffect.ends rfl hsame (by decide)
      · split
        · exact StartEffect.ends rfl hsame (by decide)
        · split
          · exact StartEffect.ends rfl hsame (by decide)
          · split
            · exact StartEffect.ends rfl hsame (by decide)
            · exact StartEffect.goesOn rfl hsame rfl
  · unfold packageChecks
    split
    · exact StartEffect.ends rfl hsame (missingCode_ne c.path)
    · split
      · exact StartEffect.ends rfl hsame (missingCode_ne c.update)
      · split
        · exact StartEffect.ends rfl hsame (by decide)
        · split
          · exact StartEffect.ends rfl hsame (by decide)
          · exact StartEffect.goesOn rfl hsame rfl

theorem startEffect_failedBase (d : PkgDetail) :
    StartEffect console p t c a (StartAt.failedBase d) (failedBaseStep p.shared c a d) := by
  have hframe := startFrame_checkFailedBase p.shared d
  unfold failedBaseStep
  dsimp only
  split
  · exact StartEffect.ends rfl hframe (by decide)
  · split
    · exact StartEffect.ends rfl hframe (by decide)
    · split
      · exact StartEffect.ends rfl hframe (by decide)
      · split
        · exact StartEffect.ends rfl hframe (by decide)
        · exact StartEffect.goesOn rfl hframe rfl

theorem refusal_code {w : InstallWorld} {code : Int} (h : c.refusal w = some code) :
    code ≠ 0 := by
  unfold StartCall.refusal at h
  split at h
  · cases h
    decide
  · split at h
    · cases h
      decide
    · cases h

theorem startEffect_commit (d : PkgDetail) (total : Nat) :
    StartEffect console p t c a (StartAt.commit d total)
      (commitStep console p.shared p.threads.length c a d total) := by
  unfold commitStep
  split
  · rename_i code hrefusal
    exact StartEffect.ends rfl (startFrame_rfl p.shared) (refusal_code hrefusal)
  · rename_i hrefusal
    split
    · rename_i hstarts
      exact StartEffect.starts hrefusal hstarts
    · exact StartEffect.startFails hrefusal

theorem startEffect_step {k : StartAt} {o : Section InstallWorld InstallPoint}
    (hstep : startStep console p t c a k = some o) : StartEffect console p t c a k o := by
  cases k with
  | enter =>
      cases hstep
      exact startEffect_enter
  | takeThread =>
      cases hstep
      exact startEffect_takeThread
  | join old =>
      rw [startStep] at hstep
      split at hstep
      · rename_i hreturned
        cases hstep
        exact StartEffect.joined hreturned
      · cases hstep
  | checks =>
      cases hstep
      exact startEffect_checks
  | failedBase d =>
      cases hstep
      exact startEffect_failedBase d
  | commit d total =>
      cases hstep
      exact startEffect_commit d total

end Starts

/-!
# Sections of the queue
-/

/-- Only the queue and what is known of its entries change. -/
def QueueFrame (w w' : InstallWorld) : Prop :=
  exists queue tickets waiting,
    w' = { w with queue := queue, tickets := tickets, waiting := waiting }

theorem queueFrame_rfl (w : InstallWorld) : QueueFrame w w :=
  ⟨w.queue, w.tickets, w.waiting, rfl⟩

theorem queueFrame_enqueue (w : InstallWorld) (path update : String) :
    QueueFrame w (enqueue w path update).1 := by
  unfold enqueue
  split
  · exact ⟨_, _, _, rfl⟩
  · split
    · exact queueFrame_rfl w
    · split
      · exact queueFrame_rfl w
      · exact ⟨_, _, _, rfl⟩

theorem queueFrame_remove (w : InstallWorld) (path : String) :
    QueueFrame w (installerQueueRemove w path).1 := by
  unfold installerQueueRemove
  split
  · exact ⟨_, _, _, rfl⟩
  · exact queueFrame_rfl w

theorem queueFrame_popQueued (w : InstallWorld) : QueueFrame w (popQueued w).1 := by
  unfold popQueued
  split
  · exact queueFrame_rfl w
  · split
    · exact queueFrame_rfl w
    · exact ⟨_, _, _, rfl⟩

theorem queueFrame_putBack (w : InstallWorld) (e : QueueEntry) : QueueFrame w (putBack w e) := by
  unfold putBack
  split
  · exact ⟨_, _, _, rfl⟩
  · exact queueFrame_rfl w

theorem queueFrame_finish (c : StartCall) (w : InstallWorld) (code : Int) :
    QueueFrame w (c.finish w code).shared := by
  unfold StartCall.finish
  split
  · exact queueFrame_rfl w
  · exact queueFrame_rfl w
  · split
    · exact queueFrame_rfl w
    · exact ⟨_, _, _, rfl⟩
  · exact queueFrame_rfl w

/-!
# Sections of the worker that write nothing
-/

/-- The section leaves the state, and the update that the worker carries. -/
structure Quiet (w : InstallWorld) (l : Worker) (o : WorkerOut) : Prop where
  status : o.status = w.status
  clears : o.clears = false
  next : o.l.next = l.next
  nextSerial : o.l.nextSerial = l.nextSerial

section Worker

variable {console : Console} {w : InstallWorld} {l : Worker} {a : InstallAnswer}

theorem quiet_go {l' : Worker} (k : WorkerAt) (hnext : l'.next = l.next)
    (hserial : l'.nextSerial = l.nextSerial) : Quiet w l (WorkerOut.go w l' k) :=
  ⟨rfl, rfl, hnext, hserial⟩

theorem quiet_ite {c : Prop} [Decidable c] {o o' : WorkerOut} (h : Quiet w l o)
    (h' : Quiet w l o') : Quiet w l (if c then o else o') := by
  split
  · exact h
  · exact h'

/-- What is seen does not change what is carried. -/
theorem sees_carries (titleId : String) :
    (l.sees titleId a).next = l.next ∧ (l.sees titleId a).nextSerial = l.nextSerial := by
  unfold Worker.sees
  split
  · exact ⟨rfl, rfl⟩
  · exact ⟨rfl, rfl⟩

theorem seesDlc_carries (titleId contentId : String) :
    (l.seesDlc titleId contentId a).next = l.next ∧
      (l.seesDlc titleId contentId a).nextSerial = l.nextSerial := by
  unfold Worker.seesDlc
  split
  · exact ⟨rfl, rfl⟩
  · exact ⟨rfl, rfl⟩

theorem asks_carries : (l.asks a).next = l.next ∧ (l.asks a).nextSerial = l.nextSerial := by
  have hsees := sees_carries (l := l) (a := a) l.view.titleId
  have hdlc := seesDlc_carries (l := l.sees l.view.titleId a) (a := a) l.view.titleId
    l.view.contentId
  exact ⟨hdlc.1.trans hsees.1, hdlc.2.trans hsees.2⟩

theorem quiet_readHeader : Quiet w l (readHeaderStep w l a) := by
  unfold readHeaderStep
  split
  · exact quiet_go _ rfl rfl
  · exact quiet_ite (quiet_go _ rfl rfl) (quiet_go _ rfl rfl)

theorem quiet_openStream : Quiet w l (openStreamStep w l a) :=
  quiet_ite (quiet_go _ rfl rfl) (quiet_go _ rfl rfl)

theorem quiet_inspect : Quiet w l (inspectStep w l a) :=
  quiet_ite (quiet_go _ (sees_carries _).1 (sees_carries _).2) (quiet_go _ rfl rfl)

theorem quiet_inspectDlc : Quiet w l (inspectDlcStep w l a) :=
  quiet_ite (quiet_go _ (seesDlc_carries _ _).1 (seesDlc_carries _ _).2) (quiet_go _ rfl rfl)

theorem quiet_attempt (n : Nat) : Quiet w l (attemptStep w l n) :=
  quiet_ite (quiet_go _ rfl rfl) (quiet_go _ rfl rfl)

theorem quiet_retryWait (n : Nat) : Quiet w l (retryWaitStep w l n) :=
  quiet_ite (quiet_go _ rfl rfl) (quiet_ite (quiet_go _ rfl rfl) (quiet_go _ rfl rfl))

theorem quiet_restart (n : Nat) : Quiet w l (restartStep w l a n) :=
  quiet_ite (quiet_go _ rfl rfl) (quiet_go _ rfl rfl)

theorem quiet_submit (n : Nat) : Quiet w l (submitStep console w l a n) :=
  quiet_ite (quiet_go _ rfl rfl) (quiet_go _ rfl rfl)

theorem quiet_fallbackSubmit (k : WorkerAt) : Quiet w l (fallbackSubmitStep w l a k) :=
  quiet_go _ rfl rfl

theorem quiet_detachCheck (k : WorkerAt) : Quiet w l (detachCheckStep w l k) :=
  quiet_go _ rfl rfl

theorem quiet_fallbackCheck : Quiet w l (fallbackCheckStep w l) :=
  quiet_ite (quiet_go _ rfl rfl) (quiet_go _ rfl rfl)

theorem quiet_inspectAgain : Quiet w l (inspectAgainStep w l a) := by
  unfold inspectAgainStep
  dsimp only
  refine quiet_ite (quiet_ite (quiet_go _ ?_ ?_) (quiet_go _ ?_ ?_)) (quiet_go _ rfl rfl)
  · exact (seesDlc_carries _ _).1.trans (sees_carries _).1
  · exact (seesDlc_carries _ _).2.trans (sees_carries _).2
  · exact (sees_carries _).1
  · exact (sees_carries _).2

theorem quiet_loopHead : Quiet w l (loopHeadStep w l) :=
  quiet_ite (quiet_go _ rfl rfl) (quiet_go _ rfl rfl)

theorem quiet_poll : Quiet w l (pollStep w l a) := by
  unfold pollStep
  split
  · exact quiet_go _ rfl rfl
  · exact quiet_go _ rfl rfl
  · exact quiet_go _ rfl rfl
  · exact quiet_ite (quiet_ite (quiet_go _ rfl rfl) (quiet_go _ rfl rfl)) (quiet_go _ rfl rfl)

theorem quiet_delivered (shown next : WorkerAt) : Quiet w l (deliveredStep w l a shown next) :=
  quiet_ite (quiet_go _ rfl rfl) (quiet_go _ rfl rfl)

theorem quiet_sysDone (p : Progress) : Quiet w l (sysDoneStep w l p) :=
  quiet_ite (quiet_go _ rfl rfl) (quiet_go _ rfl rfl)

theorem quiet_asks (k : WorkerAt) : Quiet w l (WorkerOut.go w (l.asks a) k) :=
  quiet_go k asks_carries.1 asks_carries.2

theorem quiet_fsVerify : Quiet w l (fsVerifyStep w l a) :=
  quiet_ite (quiet_asks _) (quiet_ite (quiet_asks _) (quiet_asks _))

theorem quiet_verify : Quiet w l (verifyStep w l a) := by
  unfold verifyStep
  split
  · exact quiet_go _ rfl rfl
  · exact quiet_ite (quiet_asks _) (quiet_go _ rfl rfl)

theorem quiet_tearDown (stage : TearStage) : Quiet w l (tearDownStep w l stage) := by
  cases stage with
  | abort => exact quiet_go _ rfl rfl
  | stop => exact quiet_go _ rfl rfl
  | destroy => exact quiet_go _ rfl rfl

theorem quiet_localPoll : Quiet w l (localPollStep w l a) := by
  unfold localPollStep
  refine quiet_ite (quiet_go _ rfl rfl) ?_
  split
  · exact quiet_ite (quiet_go _ rfl rfl) (quiet_ite (quiet_go _ rfl rfl) (quiet_go _ rfl rfl))
  · exact quiet_go _ rfl rfl

theorem quiet_localCheck : Quiet w l (localCheckStep w l a) :=
  quiet_ite (quiet_asks _) (quiet_ite (quiet_go _ asks_carries.1 asks_carries.2) (quiet_asks _))

theorem quiet_localSetup : Quiet w l (localStep w l a LocalAt.setup) :=
  quiet_ite (quiet_go _ rfl rfl) (quiet_go _ rfl rfl)

theorem quiet_localDownload : Quiet w l (localStep w l a LocalAt.download) :=
  quiet_ite (quiet_ite (quiet_go _ rfl rfl) (quiet_go _ rfl rfl)) (quiet_go _ rfl rfl)

theorem quiet_localSubmit : Quiet w l (localStep w l a LocalAt.submit) :=
  quiet_ite (quiet_go _ rfl rfl) (quiet_go _ rfl rfl)

end Worker

def LocalAt.quiet : LocalAt -> Bool
  | LocalAt.setup => true
  | LocalAt.download => true
  | LocalAt.submit => true
  | LocalAt.poll => true
  | LocalAt.check => true
  | _ => false

/-- The points whose sections write nothing under the lock, after the first. -/
def WorkerAt.quiet : WorkerAt -> Bool
  | WorkerAt.snapshot => false
  | WorkerAt.failEarly _ => false
  | WorkerAt.launch => false
  | WorkerAt.size => false
  | WorkerAt.cancelExit => false
  | WorkerAt.fallback => false
  | WorkerAt.failStart => false
  | WorkerAt.adoptContent => false
  | WorkerAt.lost _ => false
  | WorkerAt.pollFallback => false
  | WorkerAt.systemError _ => false
  | WorkerAt.setTotal _ => false
  | WorkerAt.takeProgress _ => false
  | WorkerAt.showFinishing _ => false
  | WorkerAt.fsShow => false
  | WorkerAt.showFinishingAgain => false
  | WorkerAt.complete => false
  | WorkerAt.timedOut => false
  | WorkerAt.capture => false
  | WorkerAt.localInstall k => k.quiet
  | WorkerAt.captureLocal _ => false
  | _ => true

theorem quiet_local {w : InstallWorld} {l : Worker} {a : InstallAnswer} {k : LocalAt}
    (hk : k.quiet = true) : Quiet w l (localStep w l a k) := by
  cases k with
  | setup => exact quiet_localSetup
  | download => exact quiet_localDownload
  | submit => exact quiet_localSubmit
  | poll => exact quiet_localPoll
  | check => exact quiet_localCheck
  | _ => cases hk

theorem quiet_step {console : Console} {w : InstallWorld} {l : Worker} {a : InstallAnswer}
    {k : WorkerAt} {o : WorkerOut} (hk : k.quiet = true)
    (hstep : workerStep console w l a k = some o) : Quiet w l o := by
  have hsome : forall {r : WorkerOut}, Quiet w l r -> some r = some o -> Quiet w l o := by
    intro r hr heq
    rw [← Option.some.inj heq]
    exact hr
  cases k with
  | readHeader => exact hsome quiet_readHeader hstep
  | openStream => exact hsome quiet_openStream hstep
  | inspect => exact hsome quiet_inspect hstep
  | inspectDlc => exact hsome quiet_inspectDlc hstep
  | attempt n => exact hsome (quiet_attempt n) hstep
  | retryWait n => exact hsome (quiet_retryWait n) hstep
  | restart n => exact hsome (quiet_restart n) hstep
  | submit n => exact hsome (quiet_submit n) hstep
  | detachCheck => exact hsome (quiet_detachCheck _) hstep
  | cancelCheck => exact hsome (quiet_go _ rfl rfl) hstep
  | fallbackCheck => exact hsome quiet_fallbackCheck hstep
  | fallbackSubmit => exact hsome (quiet_fallbackSubmit _) hstep
  | fallbackDetach => exact hsome (quiet_detachCheck _) hstep
  | inspectAgain => exact hsome quiet_inspectAgain hstep
  | loopHead => exact hsome quiet_loopHead hstep
  | poll => exact hsome quiet_poll hstep
  | pollFallbackSubmit => exact hsome (quiet_fallbackSubmit _) hstep
  | delivered p => exact hsome (quiet_delivered _ _) hstep
  | sysDone p => exact hsome (quiet_sysDone p) hstep
  | fsVerify => exact hsome quiet_fsVerify hstep
  | deliveredAgain => exact hsome (quiet_delivered _ _) hstep
  | verify => exact hsome quiet_verify hstep
  | finalCheck => exact hsome (quiet_go _ rfl rfl) hstep
  | loopEnd => exact hsome (quiet_go _ rfl rfl) hstep
  | tearDown stage => exact hsome (quiet_tearDown stage) hstep
  | localInstall j => exact hsome (quiet_local hk) hstep
  | exited => cases hstep
  | _ => cases hk

end Installer
end PkgManager
