import PkgManager.Installer.Exclusion

/-!
# The update of a stopped install

The finishing worker takes the pending update out before it gives up the stream,
and commits it later.  A cancel or a detach in between only sets a flag, which
the commit of the update must find.
-/

namespace PkgManager
namespace Installer

open Transition
open StreamServer (Console)

/-!
# What is asked
-/

/-- The thread is about to commit the update of the install with this number. -/
def commitsUpdate (p : Pool InstallWorld InstallPoint) (t : Nat) : Option Nat :=
  match p.threads[t]? with
  | some (InstallPoint.starting c (StartAt.commit _ _)) =>
      match c.kind with
      | StartKind.handoff n => if (c.refusal p.shared).isNone then some n else none
      | _ => none
  | _ => none

/-- No update is committed of an install that was canceled or detached. -/
def UpdateStopped (console : Console)
    (ok : Pool InstallWorld InstallPoint -> Move InstallCall InstallAnswer -> Prop)
    (p : Pool InstallWorld InstallPoint) : Prop :=
  forall tr q t a n, Run (installProgram console).system ok p tr q -> ok q (Move.run t a) ->
    commitsUpdate q t = some n -> n ∉ q.shared.stopped

/-!
# The condition on the commits
-/

/-- The install whose update the thread has taken out. -/
def InstallPoint.carries : InstallPoint -> Option Nat
  | InstallPoint.worker _ l => if l.next = "" then none else some l.nextSerial
  | InstallPoint.starting c _ =>
      match c.kind with
      | StartKind.handoff n => some n
      | _ => none
  | _ => none

def stopFlag (w : InstallWorld) : Bool :=
  w.cancelStream || w.detachDirectStorage

/-- No thread but this one carries an update. -/
def carriesAlone (p : Pool InstallWorld InstallPoint) (t : Nat) : Bool :=
  (p.threads.eraseIdx t).all (fun y => y.carries.isNone)

/-- An update is not committed while the flag of a cancel is set, and nothing is
committed while a flag is set that another worker still has to find. -/
def FlagsFound (p : Pool InstallWorld InstallPoint) : Move InstallCall InstallAnswer -> Prop
  | Move.call _ => True
  | Move.run t _ =>
      ((commitsUpdate p t).isSome = true -> p.shared.cancelStream = false) ∧
        (commitsNow p t = true -> stopFlag p.shared = true -> carriesAlone p t = true)

instance (p : Pool InstallWorld InstallPoint) (l : Move InstallCall InstallAnswer) :
    Decidable (FlagsFound p l) :=
  match l with
  | Move.call _ => isTrue trivial
  | Move.run t _ =>
      inferInstanceAs (Decidable
        (((commitsUpdate p t).isSome = true -> p.shared.cancelStream = false) ∧
          (commitsNow p t = true -> stopFlag p.shared = true -> carriesAlone p t = true)))

/-!
# What the worker carries
-/

/-- The worker carries what it carried, or takes out the pending update, or
carries nothing yet. -/
def CarriesOn (w : InstallWorld) (l : Worker) (o : WorkerOut) : Prop :=
  (o.l.next = l.next ∧ o.l.nextSerial = l.nextSerial) ∨ o.l.next = "" ∨
    (hasPending w = true ∧ o.l.next = w.pendingPkgPath ∧ o.l.nextSerial = w.pendingSerial)

section Worker

variable {console : Console} {w : InstallWorld} {l : Worker} {a : InstallAnswer}

theorem carriesOn_keeps {o : WorkerOut} (h : o.l = l) : CarriesOn w l o := by
  rw [CarriesOn, h]
  exact Or.inl ⟨rfl, rfl⟩

theorem carriesOn_launch : CarriesOn w l (launchStep w l) := by
  apply carriesOn_keeps
  unfold launchStep
  split
  · rfl
  · split
    · rfl
    · rfl

theorem carriesOn_adoptContent : CarriesOn w l (adoptContentStep w l) := by
  apply carriesOn_keeps
  unfold adoptContentStep
  split
  · rfl
  · rfl

theorem carriesOn_capture : CarriesOn w l (captureStep w l) := by
  unfold captureStep
  split
  · rename_i hpending
    exact Or.inr (Or.inr ⟨(Bool.and_eq_true_iff.mp hpending).1, rfl, rfl⟩)
  · exact carriesOn_keeps rfl

theorem carriesOn_captureLocal (ok : Bool) : CarriesOn w l (captureLocalStep w l ok) := by
  unfold captureLocalStep
  split
  · rename_i hpending
    exact Or.inr (Or.inr ⟨(Bool.and_eq_true_iff.mp hpending).2, rfl, rfl⟩)
  · exact carriesOn_keeps rfl

theorem carriesOn_local {k : LocalAt} (hk : k.quiet = false) :
    CarriesOn w l (localStep w l a k) := by
  cases k with
  | enter => exact Or.inr (Or.inl rfl)
  | showDownloading => exact carriesOn_keeps rfl
  | progress => exact Or.inl ⟨rfl, rfl⟩
  | downloaded => exact carriesOn_keeps rfl
  | showInstalling => exact carriesOn_keeps rfl
  | resetProgress => exact carriesOn_keeps rfl
  | pollProgress done total => exact carriesOn_keeps rfl
  | finish ok => exact carriesOn_keeps rfl
  | _ => cases hk

theorem carriesOn_step {k : WorkerAt} {o : WorkerOut}
    (hstep : workerStep console w l a k = some o) : CarriesOn w l o := by
  cases hquiet : k.quiet with
  | true =>
      have hq := quiet_step hquiet hstep
      exact Or.inl ⟨hq.next, hq.nextSerial⟩
  | false =>
      cases k with
      | snapshot =>
          cases hstep
          exact Or.inr (Or.inl rfl)
      | launch =>
          cases hstep
          exact carriesOn_launch
      | fallback =>
          cases hstep
          exact Or.inl ⟨rfl, rfl⟩
      | adoptContent =>
          cases hstep
          exact carriesOn_adoptContent
      | pollFallback =>
          cases hstep
          exact Or.inl ⟨rfl, rfl⟩
      | setTotal n =>
          cases hstep
          exact Or.inl ⟨rfl, rfl⟩
      | takeProgress p =>
          cases hstep
          exact Or.inl ⟨rfl, rfl⟩
      | capture =>
          cases hstep
          exact carriesOn_capture
      | localInstall j =>
          cases hstep
          exact carriesOn_local hquiet
      | captureLocal ok =>
          cases hstep
          exact carriesOn_captureLocal ok
      | exited => cases hstep
      | failEarly | size | cancelExit | failStart | lost | systemError | showFinishing | fsShow
      | showFinishingAgain | complete | timedOut =>
          cases hstep
          exact carriesOn_keeps rfl
      | _ => cases hquiet

end Worker

/-!
# What a section does to the numbers of the installs
-/

/-- The stopped installs stay, a flag is not reset, and the pending update stays or
is dropped. -/
structure SameStopped (w w' : InstallWorld) : Prop where
  stopped : w'.stopped = w.stopped
  serial : w'.serial = w.serial
  flag : stopFlag w = true -> stopFlag w' = true
  pending : w'.pendingPkgPath = w.pendingPkgPath ∨ w'.pendingPkgPath = ""
  pendingSerial : w'.pendingSerial = w.pendingSerial

theorem sameStopped_rfl (w : InstallWorld) : SameStopped w w :=
  ⟨rfl, rfl, fun h => h, Or.inl rfl, rfl⟩

theorem sameStopped_startFrame {w w' : InstallWorld} (h : StartFrame w w') : SameStopped w w' := by
  rcases h.same with ⟨title, hw⟩
  have hpending : w'.pendingPkgPath = w.pendingPkgPath ∨ w'.pendingPkgPath = "" := by
    rcases h.pending with hsame | ⟨hclear, _⟩
    · exact Or.inl hsame
    · exact Or.inr hclear
  rw [hw] at hpending ⊢
  exact ⟨rfl, rfl, fun hf => hf, hpending, rfl⟩

theorem sameStopped_queueFrame {w w' : InstallWorld} (h : QueueFrame w w') : SameStopped w w' := by
  rcases h with ⟨queue, tickets, waiting, hw⟩
  rw [hw]
  exact ⟨rfl, rfl, fun hf => hf, Or.inl rfl, rfl⟩

theorem sameStopped_trans {w w' w'' : InstallWorld} (h : SameStopped w w')
    (h' : SameStopped w' w'') : SameStopped w w'' := by
  refine ⟨h'.stopped.trans h.stopped, h'.serial.trans h.serial, fun hf => h'.flag (h.flag hf), ?_,
    h'.pendingSerial.trans h.pendingSerial⟩
  rcases h'.pending with hsame | hclear
  · rw [hsame]
    exact h.pending
  · exact Or.inr hclear

theorem sameStopped_setStatus (w : InstallWorld) (s : InstallerStatus) :
    SameStopped w (w.setStatus s) :=
  ⟨rfl, rfl, fun h => h, Or.inl rfl, rfl⟩

theorem sameStopped_waitStep (w : InstallWorld) (part : Nat) (a : InstallAnswer) (k : WaitAt) :
    SameStopped w (waitStep w part a k).shared := by
  cases k with
  | check ticks => exact sameStopped_rfl w
  | scan ticks => exact sameStopped_rfl w
  | _ => exact sameStopped_setStatus w _

theorem sameStopped_markFailedBase (w : InstallWorld) : SameStopped w (markFailedBase w) := by
  unfold markFailedBase
  dsimp only
  split
  · exact ⟨rfl, rfl, fun h => h, Or.inl rfl, rfl⟩
  · exact sameStopped_rfl w

/-- The running install is stopped. -/
structure Stops (w w' : InstallWorld) : Prop where
  stopped : w'.stopped = w.serial :: w.stopped
  serial : w'.serial = w.serial
  flag : stopFlag w' = true
  pending : w'.pendingPkgPath = ""

theorem stops_cancel (w : InstallWorld) : SameStopped w (cancel w).1 ∨ Stops w (cancel w).1 := by
  unfold cancel
  split
  · exact Or.inl (sameStopped_rfl w)
  · split
    · exact Or.inl (sameStopped_rfl w)
    · exact Or.inr ⟨rfl, rfl, rfl, rfl⟩

theorem stops_detach (w : InstallWorld) : SameStopped w (detach w).1 ∨ Stops w (detach w).1 := by
  unfold detach
  split
  · exact Or.inl (sameStopped_rfl w)
  · split
    · exact Or.inl (sameStopped_rfl w)
    · exact Or.inr ⟨rfl, rfl, Bool.or_true _, rfl⟩

/-- An install is committed under the next number, with its own update or with the
one that is pending. -/
structure Numbered (w w' : InstallWorld) : Prop where
  stopped : w'.stopped = w.stopped
  serial : w'.serial = w.serial + 1
  pending : w'.pendingSerial = w.serial + 1 ∨
    (w'.pendingPkgPath = w.pendingPkgPath ∧ w'.pendingSerial = w.pendingSerial)

theorem numbered_commits (c : StartCall) (console : Console) (w : InstallWorld)
    (a : InstallAnswer) (d : PkgDetail) (total : Nat) :
    Numbered w (c.commits console w a d total) := by
  unfold StartCall.commits
  split
  · exact ⟨rfl, rfl, Or.inr ⟨rfl, rfl⟩⟩
  · exact ⟨rfl, rfl, Or.inl rfl⟩

theorem numbered_finish {w w' : InstallWorld} (h : Numbered w w') (c : StartCall) (code : Int) :
    Numbered w (c.finish w' code).shared := by
  rcases queueFrame_finish c w' code with ⟨queue, tickets, waiting, hw⟩
  rw [hw]
  exact ⟨h.stopped, h.serial, h.pending⟩

/-!
# What a section does to what is carried
-/

inductive HandoffEffect (p : Pool InstallWorld InstallPoint) (t : Nat) (x : InstallPoint)
    (o : Section InstallWorld InstallPoint) : Prop where
  | keeps (hshared : SameStopped p.shared o.shared)
      (hcarries : forall n, o.point.carries = some n -> x.carries = some n ∨
        (p.shared.pendingPkgPath ≠ "" ∧ n = p.shared.pendingSerial))
  | stops (hshared : Stops p.shared o.shared)
  | commits (hnow : commitsNow p t = true) (hshared : Numbered p.shared o.shared)
      (hcarries : o.point.carries = none)

section Sections

variable {console : Console} {p : Pool InstallWorld InstallPoint} {t : Nat} {a : InstallAnswer}
  {x : InstallPoint} {o : Section InstallWorld InstallPoint}

theorem carries_afterQueue (next : AfterQueue) : next.point.carries = none := by
  cases next with
  | workerExits => rfl
  | answers => rfl

theorem carries_ite {c : Prop} [Decidable c] {y z : InstallPoint} (hy : y.carries = none)
    (hz : z.carries = none) : (if c then y else z).carries = none := by
  split
  · exact hy
  · exact hz

theorem carries_finish (c : StartCall) (w : InstallWorld) (code : Int) :
    (c.finish w code).point.carries = none := by
  unfold StartCall.finish
  split
  · exact carries_ite rfl rfl
  · rfl
  · rename_i e next _
    split
    · rfl
    · exact carries_ite (carries_afterQueue next) rfl
  · exact carries_ite rfl rfl

/-- A section of a thread that goes on carrying nothing. -/
theorem handoffEffect_empty {w : InstallWorld} {y : InstallPoint}
    (hshared : SameStopped p.shared w) (hy : y.carries = none) :
    HandoffEffect p t x { shared := w, point := y } := by
  refine HandoffEffect.keeps hshared (fun n h => ?_)
  rw [hy] at h
  cases h

theorem handoffEffect_start {c : StartCall} {k : StartAt}
    (hpoint : p.threads[t]? = some (InstallPoint.starting c k))
    (heffect : StartEffect console p t c a k o) :
    HandoffEffect p t (InstallPoint.starting c k) o := by
  cases heffect with
  | ends hk frame hcode =>
      refine HandoffEffect.keeps (sameStopped_trans (sameStopped_startFrame frame)
        (sameStopped_queueFrame (queueFrame_finish c _ _))) (fun n h => ?_)
      rw [carries_finish] at h
      cases h
  | goesOn hk frame hk' =>
      exact HandoffEffect.keeps (sameStopped_startFrame frame) (fun n h => Or.inl h)
  | joined hreturned =>
      exact HandoffEffect.keeps (sameStopped_rfl _) (fun n h => Or.inl h)
  | takes hcreated hk' =>
      exact HandoffEffect.keeps ⟨rfl, rfl, fun h => h, Or.inl rfl, rfl⟩ (fun n h => Or.inl h)
  | starts hrefusal hstarts =>
      rename_i d total
      have hcommits := numbered_commits c console p.shared a d total
      have hstarted : Numbered p.shared
          (commitStarted (c.commits console p.shared a d total) p.threads.length) :=
        ⟨hcommits.stopped, hcommits.serial, hcommits.pending⟩
      exact HandoffEffect.commits (commitsNow_eq hpoint hrefusal) (numbered_finish hstarted c 0)
        (carries_finish c _ 0)
  | startFails hrefusal =>
      rename_i d total
      have hcommits := numbered_commits c console p.shared a d total
      have hfailed : Numbered p.shared (commitFailed (c.commits console p.shared a d total)) :=
        ⟨hcommits.stopped, hcommits.serial, hcommits.pending⟩
      exact HandoffEffect.commits (commitsNow_eq hpoint hrefusal) (numbered_finish hfailed c _)
        (carries_finish c _ _)

theorem carries_worker {k : WorkerAt} {l : Worker} {n : Nat}
    (h : (InstallPoint.worker k l).carries = some n) : l.next ≠ "" ∧ l.nextSerial = n := by
  unfold InstallPoint.carries at h
  dsimp only at h
  split at h
  · cases h
  · rename_i hnext
    exact ⟨hnext, Option.some.inj h⟩

theorem carries_worker_eq {k : WorkerAt} {l : Worker} (hnext : l.next ≠ "") :
    (InstallPoint.worker k l).carries = some l.nextSerial := by
  unfold InstallPoint.carries
  dsimp only
  rw [if_neg hnext]

theorem pending_of_hasPending {w : InstallWorld} (h : hasPending w = true) :
    w.pendingPkgPath ≠ "" := by
  intro hempty
  rw [hasPending, hempty] at h
  cases h

theorem handoffEffect_worker {k : WorkerAt} {l : Worker} :
    HandoffEffect p t (InstallPoint.worker k l) (workerSection console p.shared l a k) := by
  unfold workerSection
  split
  · rename_i r hstep
    refine HandoffEffect.keeps ⟨rfl, rfl, fun h => h, ?_, rfl⟩ ?_
    · dsimp only
      split
      · exact Or.inr rfl
      · exact Or.inl rfl
    · intro n hn
      rcases carries_worker hn with ⟨hnext, hserial⟩
      rcases carriesOn_step hstep with ⟨hsame, hnum⟩ | hempty | ⟨hpending, _, hnum⟩
      · left
        rw [← hserial, hnum]
        exact carries_worker_eq (by rwa [← hsame])
      · exact absurd hempty hnext
      · right
        exact ⟨pending_of_hasPending hpending, hserial.symm.trans hnum⟩
  · refine HandoffEffect.keeps (sameStopped_rfl _) (fun n h => Or.inl ?_)
    change l.afterBody.carries = some n at h
    unfold Worker.afterBody at h
    split at h
    · cases h
    · rename_i hnext
      rw [← h]
      exact carries_worker_eq hnext

theorem handoffEffect_step (hpoint : p.threads[t]? = some x)
    (hstep : installStep console p t a x = some o) : HandoffEffect p t x o := by
  cases x with
  | starting c k => exact handoffEffect_start hpoint (startEffect_step hstep)
  | enqueue path update =>
      cases hstep
      exact handoffEffect_empty (sameStopped_queueFrame (queueFrame_enqueue p.shared path update))
        (carries_ite rfl rfl)
  | nextQueued next =>
      cases hstep
      have hsame := sameStopped_queueFrame (queueFrame_popQueued p.shared)
      unfold nextQueuedStep
      split
      · rename_i w' e hpop
        rw [hpop] at hsame
        exact handoffEffect_empty hsame rfl
      · rename_i w' hpop
        rw [hpop] at hsame
        exact handoffEffect_empty hsame (carries_afterQueue next)
  | putBack e next =>
      cases hstep
      exact handoffEffect_empty (sameStopped_queueFrame (queueFrame_putBack p.shared e))
        (carries_afterQueue next)
  | remove path =>
      cases hstep
      exact handoffEffect_empty (sameStopped_queueFrame (queueFrame_remove p.shared path)) rfl
  | cancel =>
      cases hstep
      rcases stops_cancel p.shared with hsame | hstops
      · exact handoffEffect_empty hsame (carries_ite rfl rfl)
      · exact HandoffEffect.stops hstops
  | cancelTearDown stage =>
      cases hstep
      cases stage with
      | abort => exact handoffEffect_empty (sameStopped_rfl _) rfl
      | stop => exact handoffEffect_empty (sameStopped_rfl _) rfl
      | destroy => exact handoffEffect_empty (sameStopped_rfl _) rfl
  | detach =>
      cases hstep
      rcases stops_detach p.shared with hsame | hstops
      · exact handoffEffect_empty hsame rfl
      · exact HandoffEffect.stops hstops
  | notifyBytes n =>
      cases hstep
      exact handoffEffect_empty (sameStopped_setStatus _ _) rfl
  | partChanged part =>
      cases hstep
      exact handoffEffect_empty (sameStopped_setStatus _ _) rfl
  | waiting part k =>
      cases hstep
      have hsame := sameStopped_waitStep p.shared part a k
      cases k with
      | check ticks => exact handoffEffect_empty hsame (carries_ite rfl rfl)
      | _ => exact handoffEffect_empty hsame rfl
  | workerEnter =>
      cases hstep
      unfold workerEnterStep
      split
      · exact handoffEffect_empty (sameStopped_rfl _) rfl
      · exact handoffEffect_empty (sameStopped_rfl _) rfl
  | worker k l =>
      cases hstep
      exact handoffEffect_worker
  | handoffFailed code =>
      cases hstep
      exact handoffEffect_empty (sameStopped_setStatus _ _) rfl
  | workerEnd =>
      cases hstep
      exact handoffEffect_empty (sameStopped_markFailedBase p.shared) rfl
  | returned r => cases hstep

end Sections

/-!
# The invariant of the runs
-/

/-- A stopped install has no pending update, and while the update of a stopped
install is carried, a flag is set. -/
structure HandoffInv (p : Pool InstallWorld InstallPoint) : Prop where
  stopped : forall n, n ∈ p.shared.stopped -> n ≤ p.shared.serial
  pending : p.shared.pendingPkgPath ≠ "" -> p.shared.pendingSerial ∉ p.shared.stopped
  carried : forall y, y ∈ p.threads -> forall n, y.carries = some n ->
    n ∈ p.shared.stopped -> stopFlag p.shared = true

theorem handoffInv_idle (localPrefixes : List String) : HandoffInv (idleInstaller localPrefixes) :=
  ⟨(fun _ h => by cases h), (fun h => absurd rfl h), (fun _ h => by cases h)⟩

theorem entry_carries (c : InstallCall) : c.entry.carries = none := by
  cases c with
  | startBatch path update => exact carries_ite rfl rfl
  | _ => rfl

theorem handoffInv_call {p : Pool InstallWorld InstallPoint} (hinv : HandoffInv p)
    (c : InstallCall) : HandoffInv (p.enter c.entry) := by
  refine ⟨hinv.stopped, hinv.pending, fun y hy n hn => ?_⟩
  rcases mem_enter hy with hold | hnew
  · exact hinv.carried y hold n hn
  · rw [hnew, entry_carries] at hn
    cases hn

section Step

variable {p : Pool InstallWorld InstallPoint} {t : Nat} {a : InstallAnswer} {x : InstallPoint}
  {o : Section InstallWorld InstallPoint}

theorem handoffInv_keeps (hinv : HandoffInv p) (hpoint : p.threads[t]? = some x)
    (hcreated : forall y, y ∈ o.created -> y.carries = none)
    (hshared : SameStopped p.shared o.shared)
    (hcarries : forall n, o.point.carries = some n -> x.carries = some n ∨
      (p.shared.pendingPkgPath ≠ "" ∧ n = p.shared.pendingSerial)) : HandoffInv (p.after t o) := by
  have hnotPending : p.shared.pendingPkgPath ≠ "" -> p.shared.pendingSerial ∉ o.shared.stopped := by
    rw [hshared.stopped]
    exact hinv.pending
  refine ⟨?_, ?_, ?_⟩
  · intro n hn
    change n ∈ o.shared.stopped at hn
    change n ≤ o.shared.serial
    rw [hshared.stopped] at hn
    rw [hshared.serial]
    exact hinv.stopped n hn
  · intro hne
    change o.shared.pendingPkgPath ≠ "" at hne
    change o.shared.pendingSerial ∉ o.shared.stopped
    rw [hshared.pendingSerial]
    rcases hshared.pending with hsame | hclear
    · rw [hsame] at hne
      exact hnotPending hne
    · exact absurd hclear hne
  · intro y hy n hn hstop
    change n ∈ o.shared.stopped at hstop
    have hbefore : forall z, z ∈ p.threads -> z.carries = some n -> stopFlag o.shared = true := by
      intro z hz hcz
      rw [hshared.stopped] at hstop
      exact hshared.flag (hinv.carried z hz n hcz hstop)
    rcases mem_after hy with hold | hsame | hnew
    · exact hbefore y hold hn
    · rw [hsame] at hn
      rcases hcarries n hn with hx | ⟨hne, hpending⟩
      · exact hbefore x (List.mem_of_getElem? hpoint) hx
      · rw [hpending] at hstop
        exact absurd hstop (hnotPending hne)
    · rw [hcreated y hnew] at hn
      cases hn

theorem handoffInv_stops (hinv : HandoffInv p) (hshared : Stops p.shared o.shared) :
    HandoffInv (p.after t o) := by
  refine ⟨?_, fun hne => absurd hshared.pending hne, fun _ _ _ _ _ => hshared.flag⟩
  intro n hn
  change n ∈ o.shared.stopped at hn
  change n ≤ o.shared.serial
  rw [hshared.stopped] at hn
  rw [hshared.serial]
  rcases List.mem_cons.mp hn with hnow | hold
  · exact Nat.le_of_eq hnow
  · exact hinv.stopped n hold

theorem not_carries_alone (halone : carriesAlone p t = true) {u : Nat} {y : InstallPoint}
    (hne : u ≠ t) (hy : p.threads[u]? = some y) : y.carries = none := by
  have hmem : y ∈ p.threads.eraseIdx t := List.mem_eraseIdx_iff_getElem?.mpr ⟨u, hne, hy⟩
  exact Option.isNone_iff_eq_none.mp (List.all_eq_true.mp halone y hmem)

theorem handoffInv_commits (hinv : HandoffInv p) (hpoint : p.threads[t]? = some x)
    (hcreated : forall y, y ∈ o.created -> y.carries = none)
    (halone : stopFlag p.shared = true -> carriesAlone p t = true)
    (hshared : Numbered p.shared o.shared) (hcarries : o.point.carries = none) :
    HandoffInv (p.after t o) := by
  refine ⟨?_, ?_, ?_⟩
  · intro n hn
    change n ∈ o.shared.stopped at hn
    change n ≤ o.shared.serial
    rw [hshared.stopped] at hn
    rw [hshared.serial]
    exact Nat.le_succ_of_le (hinv.stopped n hn)
  · intro hne
    change o.shared.pendingPkgPath ≠ "" at hne
    change o.shared.pendingSerial ∉ o.shared.stopped
    rw [hshared.stopped]
    rcases hshared.pending with hnew | ⟨hsame, hnum⟩
    · rw [hnew]
      intro hmem
      exact Nat.not_succ_le_self _ (hinv.stopped _ hmem)
    · rw [hsame] at hne
      rw [hnum]
      exact hinv.pending hne
  · intro y hy n hn hstop
    change n ∈ o.shared.stopped at hstop
    rw [hshared.stopped] at hstop
    rcases List.mem_iff_getElem?.mp hy with ⟨u, hu⟩
    rcases getElem?_after hpoint hu with ⟨_, hsame⟩ | ⟨hne, hold⟩ | ⟨_, hnew⟩
    · rw [hsame, hcarries] at hn
      cases hn
    · have hflag := hinv.carried y (List.mem_of_getElem? hold) n hn hstop
      rw [not_carries_alone (halone hflag) hne hold] at hn
      cases hn
    · rw [hcreated y hnew] at hn
      cases hn

end Step

theorem handoffInv_next {console : Console} {p q : Pool InstallWorld InstallPoint}
    {l : Move InstallCall InstallAnswer} (hinv : HandoffInv p) (hok : FlagsFound p l)
    (hnext : (installProgram console).system.next p l = some q) : HandoffInv q := by
  cases l with
  | call c =>
      rw [next_call] at hnext
      cases hnext
      exact handoffInv_call hinv c
  | run t a =>
      rcases next_run hnext with ⟨x, o, hpoint, hstep, hq⟩
      rw [hq]
      have hcreated : forall y, y ∈ o.created -> y.carries = none := by
        intro y hy
        rw [created_step hpoint hstep hy]
        rfl
      cases handoffEffect_step hpoint hstep with
      | keeps hshared hcarries => exact handoffInv_keeps hinv hpoint hcreated hshared hcarries
      | stops hshared => exact handoffInv_stops hinv hshared
      | commits hnow hshared hcarries =>
          exact handoffInv_commits hinv hpoint hcreated (hok.2 hnow) hshared hcarries

/-!
# The update of a stopped install
-/

/-- The commit of an update has found that its install is not detached. -/
theorem commitsUpdate_some {p : Pool InstallWorld InstallPoint} {t n : Nat}
    (h : commitsUpdate p t = some n) :
    p.shared.detachDirectStorage = false ∧
      exists y, y ∈ p.threads ∧ y.carries = some n := by
  unfold commitsUpdate at h
  split at h
  · rename_i c d total hpoint
    split at h
    · rename_i m hkind
      split at h
      · rename_i hrefusal
        cases h
        constructor
        · have hnone := Option.isNone_iff_eq_none.mp hrefusal
          unfold StartCall.refusal StartCall.isHandoff at hnone
          rw [hkind] at hnone
          dsimp only at hnone
          rw [Bool.true_and] at hnone
          split at hnone
          · cases hnone
          · rename_i hdetach
            exact Bool.eq_false_iff.mpr hdetach
        · refine ⟨_, List.mem_of_getElem? hpoint, ?_⟩
          unfold InstallPoint.carries
          dsimp only
          rw [hkind]
      · cases h
    · cases h
  · cases h

/-- A package of ten bytes. -/
def tenByteDetail : PkgDetail :=
  fallbackDetail 10

/-- The base of a batch install is committed, streamed and completed, and its
update is taken out. -/
def takesUpdateOut : List (Move InstallCall InstallAnswer) :=
  Move.call (InstallCall.startBatch "/data/a.pkg" "/data/u.pkg") :: runs 0 2 ++
    [Move.run 0 { parsed := some tenByteDetail }] ++ runs 0 2 ++ runs 1 7 ++
      Move.call (InstallCall.notifyBytes 10) :: runs 2 1 ++
        runs 1 6 ++
          [Move.run 1
            { poll := Poll.progress
                { status := "playable", errorCode := 0, downloadedSize := 0, totalSize := 10 } }] ++
            runs 1 6

/-- The worker gives up the stream and starts the update. -/
def startsUpdate : List (Move InstallCall InstallAnswer) :=
  runs 1 8

structure HandoffSight where
  commits : Option Nat
  stopped : List Nat
  cancelStream : Bool
  detach : Bool
deriving DecidableEq

def observeHandoff (t : Nat) (q : Pool InstallWorld InstallPoint) : HandoffSight where
  commits := commitsUpdate q t
  stopped := q.shared.stopped
  cancelStream := q.shared.cancelStream
  detach := q.shared.detachDirectStorage

theorem observedHandoff_run {console : Console}
    {ok : Pool InstallWorld InstallPoint -> Move InstallCall InstallAnswer -> Prop}
    [forall p l, Decidable (ok p l)] {t : Nat} {ls : List (Move InstallCall InstallAnswer)}
    {s : HandoffSight}
    (h : (execWhile (installProgram console).system ok (idleInstaller []) ls).map
      (observeHandoff t) = some s) :
    exists tr q, Run (installProgram console).system ok (idleInstaller []) tr q ∧
      observeHandoff t q = s := by
  rcases Option.map_eq_some_iff.mp h with ⟨q, hexec, hobs⟩
  rcases run_of_execWhile hexec with ⟨tr, _, hrun⟩
  exact ⟨tr, q, hrun, hobs⟩

/-- The install is canceled while the worker gives up the stream. -/
def canceledHandoff : List (Move InstallCall InstallAnswer) :=
  takesUpdateOut ++ Move.call InstallCall.cancel :: runs 3 1 ++ startsUpdate

end Installer
end PkgManager
