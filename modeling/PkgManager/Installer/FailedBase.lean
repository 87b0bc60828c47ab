import PkgManager.Installer.Exclusion

/-!
# Add-ons of a base that has failed

The updates and the DLC of a title are skipped while its base is known to have failed.  One
variable holds the title, which a worker writes at its end and the check of a later start reads.
-/

namespace PkgManager
namespace Installer

open Transition
open StreamServer (Console)

/-!
# What is asked
-/

/-- The base of a title did not install: its install has failed or was canceled. -/
def baseFailed (s : InstallerStatus) : Bool :=
  !s.isInstalling && s.failed && caseEq s.pkgKind "base" && s.titleId != ""

/-- The start comes from the queue, or from a worker that carries the update of a batch. -/
def StartCall.fromQueue (c : StartCall) : Bool :=
  match c.kind with
  | StartKind.queued _ _ => true
  | StartKind.handoff _ => true
  | _ => false

/-- The start of an update or a DLC of the title has passed its checks. -/
def InstallPoint.addOnOf (title : String) : InstallPoint -> Bool
  | InstallPoint.starting c (StartAt.commit d _) =>
      c.fromQueue && !caseEq d.pkgTypeStr "base" && d.titleId == title
  | _ => false

/-- The section starts an update or a DLC of the title. -/
def startsAddOn (title : String) (p : Pool InstallWorld InstallPoint) (t : Nat) : Bool :=
  commitsNow p t && p.threads[t]?.any (InstallPoint.addOnOf title)

/-- A base of the title is started again, or the title is found installed. -/
def lifts (title : String) (p : Pool InstallWorld InstallPoint) :
    Move InstallCall InstallAnswer -> Bool
  | Move.call _ => false
  | Move.run t a =>
      match p.threads[t]? with
      | some (InstallPoint.starting _ (StartAt.failedBase d)) =>
          d.titleId == title && (caseEq d.pkgTypeStr "base" || a.installed.isSome)
      | _ => false

/-- Once the worker of a base has ended without an install, no add-on of the title is started until
a base of the title is started again or the title is found installed. -/
def StaysSkipped (console : Console)
    (clear : String -> Pool InstallWorld InstallPoint -> Prop)
    (ok : String -> Pool InstallWorld InstallPoint -> Move InstallCall InstallAnswer -> Prop)
    (p : Pool InstallWorld InstallPoint) : Prop :=
  forall tr q t a q' tr' u t', Run (installProgram console).system (fun _ _ => True) p tr q ->
    q.threads[t]? = some InstallPoint.workerEnd -> baseFailed q.shared.status = true ->
      clear q.shared.status.titleId q ->
        (installProgram console).system.next q (Move.run t a) = some q' ->
          Run (installProgram console).system
            (fun s l => ok q.shared.status.titleId s l ∧
              lifts q.shared.status.titleId s l = false) q' tr' u ->
            startsAddOn q.shared.status.titleId u t' = false

/-!
# The condition on the steps
-/

/-- No start of an add-on of the title stands between its checks and its commit. -/
def NonePassed (title : String) (p : Pool InstallWorld InstallPoint) : Prop :=
  p.threads.any (InstallPoint.addOnOf title) = false

/-- The base of no other title ends without an install. -/
def NoOtherFails (title : String) (p : Pool InstallWorld InstallPoint) :
    Move InstallCall InstallAnswer -> Prop
  | Move.call _ => True
  | Move.run t _ => p.threads[t]? = some InstallPoint.workerEnd ->
      baseFailed p.shared.status = true -> p.shared.status.titleId = title

instance (title : String) (p : Pool InstallWorld InstallPoint)
    (l : Move InstallCall InstallAnswer) : Decidable (NoOtherFails title p l) :=
  match l with
  | Move.call _ => isTrue trivial
  | Move.run t _ =>
      inferInstanceAs (Decidable (p.threads[t]? = some InstallPoint.workerEnd ->
        baseFailed p.shared.status = true -> p.shared.status.titleId = title))

/-!
# What the sections do to the mark
-/

/-- The title stays marked, and the thread does not come past the checks of an add-on. -/
structure Skips (title : String) (o : Section InstallWorld InstallPoint) : Prop where
  mark : o.shared.failedBaseTitle = title
  point : o.point.addOnOf title = false

section Sections

variable {console : Console} {title : String} {p : Pool InstallWorld InstallPoint} {t : Nat}
  {a : InstallAnswer} {c : StartCall}

theorem skips_ite {b : Prop} [Decidable b] {o o' : Section InstallWorld InstallPoint}
    (h : Skips title o) (h' : Skips title o') : Skips title (if b then o else o') := by
  split
  · exact h
  · exact h'

theorem addOnOf_afterQueue (next : AfterQueue) : next.point.addOnOf title = false := by
  cases next with
  | _ => rfl

theorem failedBaseTitle_queueFrame {w w' : InstallWorld} (h : QueueFrame w w') :
    w'.failedBaseTitle = w.failedBaseTitle := by
  rcases h with ⟨_, _, _, hw⟩
  rw [hw]

theorem skips_finish {w : InstallWorld} (hw : w.failedBaseTitle = title) (code : Int) :
    Skips title (c.finish w code) := by
  refine ⟨(failedBaseTitle_queueFrame (queueFrame_finish c w code)).trans hw, ?_⟩
  unfold StartCall.finish
  split
  · dsimp only
    split
    · rfl
    · rfl
  · rfl
  · split
    · rfl
    · dsimp only
      split
      · exact addOnOf_afterQueue _
      · rfl
  · dsimp only
    split
    · rfl
    · rfl

theorem skips_enter (hw : p.shared.failedBaseTitle = title) :
    Skips title (enterStep p.shared c a) := by
  have hcheck : (startCheck p.shared c.isHandoff).1.failedBaseTitle = title := by
    unfold startCheck
    split
    · exact hw
    · dsimp only
      split
      · exact hw
      · exact hw
  unfold enterStep
  split
  · exact skips_ite (skips_finish hw _) (skips_ite (skips_finish hw _) ⟨hw, rfl⟩)
  · split
    · exact skips_finish hw _
    · split
      · rename_i w' code hstart
        rw [hstart] at hcheck
        exact skips_finish hcheck code
      · rename_i w' hstart
        rw [hstart] at hcheck
        exact ⟨hcheck, rfl⟩

theorem skips_takeThread (hw : p.shared.failedBaseTitle = title) :
    Skips title (takeThreadStep p.shared t c) := by
  unfold takeThreadStep takeThread
  by_cases hcreated : p.shared.streamThreadCreated = true
  · rw [if_pos hcreated]
    refine ⟨hw, ?_⟩
    dsimp only
    split
    · rfl
    · rfl
  · rw [if_neg hcreated]
    exact ⟨hw, rfl⟩

theorem skips_liveChecks (hlive : c.isLive = true) (hw : p.shared.failedBaseTitle = title) :
    Skips title (liveChecks p.shared c a) := by
  have hkind : c.fromQueue = false := by
    unfold StartCall.isLive at hlive
    unfold StartCall.fromQueue
    split at hlive
    · rename_i hkind
      rw [hkind]
    · cases hlive
  have hends := fun code => skips_finish (c := c) hw code
  unfold liveChecks
  refine skips_ite (hends _) (skips_ite (hends _) (skips_ite (hends _) (skips_ite (hends _)
    (skips_ite (hends _) ⟨hw, ?_⟩))))
  unfold InstallPoint.addOnOf
  dsimp only
  rw [hkind, Bool.false_and, Bool.false_and]

theorem skips_packageChecks (hw : p.shared.failedBaseTitle = title) :
    Skips title (packageChecks p.shared c a) := by
  have hends := fun code => skips_finish (c := c) hw code
  unfold packageChecks
  exact skips_ite (hends _) (skips_ite (hends _) (skips_ite (hends _) (skips_ite (hends _)
    ⟨hw, rfl⟩)))

/-- The check of a marked title lets a base pass, or what is installed; here neither is. -/
theorem skips_failedBase (htitle : title ≠ "") (hw : p.shared.failedBaseTitle = title)
    (d : PkgDetail)
    (hlift : (d.titleId == title && (caseEq d.pkgTypeStr "base" || a.installed.isSome)) = false) :
    Skips title (failedBaseStep p.shared c a d) := by
  have hends := fun code => skips_finish (c := c) hw code
  unfold failedBaseStep checkFailedBase
  dsimp only
  rw [hw]
  by_cases heq : d.titleId = title
  · rw [heq, beq_self_eq_true, Bool.true_and, Bool.or_eq_false_iff,
      Option.isSome_eq_false_iff] at hlift
    rw [heq, hlift.left, beq_self_eq_true, bne_iff_ne.mpr htitle, Bool.and_false,
      if_neg Bool.false_ne_true, if_pos ⟨rfl, rfl, Option.isNone_iff_eq_none.mp hlift.right⟩]
    exact hends _
  · have hother : (title == d.titleId) = false := beq_false_of_ne (Ne.symm heq)
    have hpoint : forall total, (InstallPoint.starting c (StartAt.commit d total)).addOnOf title =
        false := by
      intro total
      unfold InstallPoint.addOnOf
      dsimp only
      rw [beq_false_of_ne heq, Bool.and_false]
    rw [hother, Bool.and_false, Bool.false_and, if_neg Bool.false_ne_true,
      if_neg (fun h => Bool.false_ne_true h.left)]
    exact skips_ite (hends _) (skips_ite (hends _) (skips_ite (hends _) ⟨hw, hpoint _⟩))

theorem failedBaseTitle_commits (c : StartCall) (console : Console) (w : InstallWorld)
    (a : InstallAnswer) (d : PkgDetail) (total : Nat) :
    (c.commits console w a d total).failedBaseTitle = w.failedBaseTitle := by
  unfold StartCall.commits
  split
  · rfl
  · rfl

theorem skips_commit (hw : p.shared.failedBaseTitle = title) (threads : Nat) (d : PkgDetail)
    (total : Nat) : Skips title (commitStep console p.shared threads c a d total) := by
  have hcommits := (failedBaseTitle_commits c console p.shared a d total).trans hw
  unfold commitStep
  split
  · exact skips_finish hw _
  · split
    · have hstarted : (commitStarted (c.commits console p.shared a d total) threads).failedBaseTitle
          = title := hcommits
      have hfinish := skips_finish (c := c) hstarted 0
      exact ⟨hfinish.mark, hfinish.point⟩
    · have hfailed : (commitFailed (c.commits console p.shared a d total)).failedBaseTitle =
          title := hcommits
      exact skips_finish hfailed _

theorem skips_worker (hw : p.shared.failedBaseTitle = title) (k : WorkerAt) (l : Worker) :
    Skips title (workerSection console p.shared l a k) := by
  unfold workerSection
  split
  · exact ⟨hw, rfl⟩
  · refine ⟨hw, ?_⟩
    unfold Worker.afterBody
    dsimp only
    split
    · rfl
    · rfl

theorem skips_waiting (hw : p.shared.failedBaseTitle = title) (part : Nat) (k : WaitAt) :
    Skips title (waitStep p.shared part a k) := by
  cases k with
  | check ticks =>
      refine ⟨hw, ?_⟩
      unfold waitStep
      dsimp only
      split
      · rfl
      · rfl
  | _ => exact ⟨hw, rfl⟩

theorem skips_nextQueued (hw : p.shared.failedBaseTitle = title) (next : AfterQueue) :
    Skips title (nextQueuedStep p.shared next) := by
  have hpop := (failedBaseTitle_queueFrame (queueFrame_popQueued p.shared)).trans hw
  unfold nextQueuedStep
  split
  · rename_i w' e hentry
    rw [hentry] at hpop
    exact ⟨hpop, rfl⟩
  · rename_i w' hentry
    rw [hentry] at hpop
    exact ⟨hpop, addOnOf_afterQueue next⟩

theorem skips_enqueue (hw : p.shared.failedBaseTitle = title) (path update : String) :
    Skips title (enqueueStep p.shared path update) := by
  refine ⟨(failedBaseTitle_queueFrame (queueFrame_enqueue p.shared path update)).trans hw, ?_⟩
  unfold enqueueStep
  dsimp only
  split
  · rfl
  · rfl

theorem failedBaseTitle_cancel (w : InstallWorld) :
    (cancel w).1.failedBaseTitle = w.failedBaseTitle := by
  unfold cancel
  split
  · rfl
  · split
    · rfl
    · rfl

theorem skips_cancel (hw : p.shared.failedBaseTitle = title) :
    Skips title (cancelStep p.shared) := by
  refine ⟨(failedBaseTitle_cancel p.shared).trans hw, ?_⟩
  change (if (cancel p.shared).2 = 0 then InstallPoint.cancelTearDown TearStage.abort
    else InstallPoint.returned (cancel p.shared).2).addOnOf title = false
  split
  · rfl
  · rfl

theorem failedBaseTitle_detach (w : InstallWorld) :
    (detach w).1.failedBaseTitle = w.failedBaseTitle := by
  unfold detach
  split
  · rfl
  · split
    · rfl
    · rfl

theorem skips_workerEnd (hw : p.shared.failedBaseTitle = title)
    (hsame : baseFailed p.shared.status = true -> p.shared.status.titleId = title) :
    Skips title
      { shared := markFailedBase p.shared
        point := InstallPoint.nextQueued AfterQueue.workerExits } := by
  refine ⟨?_, rfl⟩
  unfold markFailedBase
  dsimp only
  split
  · rename_i hfailed
    exact hsame hfailed
  · exact hw

theorem skips_start (htitle : title ≠ "") (hw : p.shared.failedBaseTitle = title) {k : StartAt}
    {o : Section InstallWorld InstallPoint} (hpoint : p.threads[t]? = some (.starting c k))
    (hlift : lifts title p (Move.run t a) = false)
    (hstep : startStep console p t c a k = some o) : Skips title o := by
  cases k with
  | enter =>
      cases hstep
      exact skips_enter hw
  | takeThread =>
      cases hstep
      exact skips_takeThread hw
  | join old =>
      change (if _ then some _ else none) = some o at hstep
      split at hstep
      · cases hstep
        exact ⟨hw, rfl⟩
      · cases hstep
  | checks =>
      cases hstep
      split
      · rename_i hlive
        exact skips_liveChecks hlive hw
      · exact skips_packageChecks hw
  | failedBase d =>
      cases hstep
      unfold lifts at hlift
      dsimp only at hlift
      rw [hpoint] at hlift
      exact skips_failedBase htitle hw d hlift
  | commit d total =>
      cases hstep
      exact skips_commit hw _ d total

/-- While the title is marked, a section that does not lift the mark keeps it. -/
theorem skips_step (htitle : title ≠ "") (hw : p.shared.failedBaseTitle = title)
    {x : InstallPoint} {o : Section InstallWorld InstallPoint} (hpoint : p.threads[t]? = some x)
    (hok : NoOtherFails title p (Move.run t a)) (hlift : lifts title p (Move.run t a) = false)
    (hstep : installStep console p t a x = some o) : Skips title o := by
  cases x with
  | starting c k => exact skips_start htitle hw hpoint hlift hstep
  | enqueue path update =>
      cases hstep
      exact skips_enqueue hw path update
  | nextQueued next =>
      cases hstep
      exact skips_nextQueued hw next
  | putBack e next =>
      cases hstep
      exact ⟨(failedBaseTitle_queueFrame (queueFrame_putBack p.shared e)).trans hw,
        addOnOf_afterQueue next⟩
  | remove path =>
      cases hstep
      exact ⟨(failedBaseTitle_queueFrame (queueFrame_remove p.shared path)).trans hw, rfl⟩
  | cancel =>
      cases hstep
      exact skips_cancel hw
  | cancelTearDown stage =>
      cases hstep
      cases stage with
      | _ => exact ⟨hw, rfl⟩
  | detach =>
      cases hstep
      exact ⟨(failedBaseTitle_detach p.shared).trans hw, rfl⟩
  | notifyBytes n =>
      cases hstep
      exact ⟨hw, rfl⟩
  | partChanged part =>
      cases hstep
      exact ⟨hw, rfl⟩
  | waiting part k =>
      cases hstep
      exact skips_waiting hw part k
  | workerEnter =>
      cases hstep
      exact skips_ite ⟨hw, rfl⟩ ⟨hw, rfl⟩
  | worker k l =>
      cases hstep
      exact skips_worker hw k l
  | handoffFailed code =>
      cases hstep
      exact ⟨hw, rfl⟩
  | workerEnd =>
      cases hstep
      exact skips_workerEnd hw (hok hpoint)
  | returned r => cases hstep

end Sections

/-!
# The mark holds
-/

/-- The title is marked, and no add-on of it is past its checks. -/
structure Marked (title : String) (p : Pool InstallWorld InstallPoint) : Prop where
  mark : p.shared.failedBaseTitle = title
  point : forall x, x ∈ p.threads -> x.addOnOf title = false

theorem addOnOf_entry (title : String) (c : InstallCall) : c.entry.addOnOf title = false := by
  cases c with
  | startBatch path update =>
      unfold InstallCall.entry
      dsimp only
      split
      · rfl
      · rfl
  | _ => rfl

theorem marked_after {console : Console} {title : String} {p : Pool InstallWorld InstallPoint}
    {t : Nat} {a : InstallAnswer} {x : InstallPoint} {o : Section InstallWorld InstallPoint}
    (hpoints : forall y, y ∈ p.threads -> y.addOnOf title = false)
    (hpoint : p.threads[t]? = some x) (hstep : installStep console p t a x = some o)
    (hskips : Skips title o) : Marked title (p.after t o) := by
  refine ⟨hskips.mark, fun y hy => ?_⟩
  rcases mem_after hy with hold | hsame | hnew
  · exact hpoints y hold
  · rw [hsame]
    exact hskips.point
  · rw [created_step hpoint hstep hnew]
    rfl

theorem marked_next {console : Console} {title : String} (htitle : title ≠ "")
    {p q : Pool InstallWorld InstallPoint} {l : Move InstallCall InstallAnswer}
    (hmarked : Marked title p) (hok : NoOtherFails title p l ∧ lifts title p l = false)
    (hnext : (installProgram console).system.next p l = some q) : Marked title q := by
  cases l with
  | call c =>
      rw [next_call] at hnext
      cases hnext
      refine ⟨hmarked.mark, fun x hx => ?_⟩
      rcases mem_enter hx with hold | hnew
      · exact hmarked.point x hold
      · rw [hnew]
        exact addOnOf_entry title c
  | run t a =>
      rcases next_run hnext with ⟨x, o, hpoint, hstep, hq⟩
      rw [hq]
      exact marked_after hmarked.point hpoint hstep
        (skips_step htitle hmarked.mark hpoint hok.left hok.right hstep)

/-- The worker of a base that did not install marks its title. -/
theorem marked_workerEnd {console : Console} {q q' : Pool InstallWorld InstallPoint} {t : Nat}
    {a : InstallAnswer} (hpoint : q.threads[t]? = some InstallPoint.workerEnd)
    (hfailed : baseFailed q.shared.status = true) (hclear : NonePassed q.shared.status.titleId q)
    (hnext : (installProgram console).system.next q (Move.run t a) = some q') :
    Marked q.shared.status.titleId q' := by
  rcases next_run hnext with ⟨x, o, hx, hstep, hq⟩
  rw [hpoint] at hx
  cases hx
  rw [hq]
  have hpoints : forall y, y ∈ q.threads -> y.addOnOf q.shared.status.titleId = false :=
    fun y hy => by
      have hnone := List.any_eq_false.mp hclear y hy
      exact Bool.eq_false_iff.mpr hnone
  have hskips : Skips q.shared.status.titleId o := by
    cases hstep
    refine ⟨?_, rfl⟩
    change (markFailedBase q.shared).failedBaseTitle = _
    unfold markFailedBase
    dsimp only
    split
    · rfl
    · rename_i hnot
      exact absurd hfailed hnot
  have hsection : installStep console q t a InstallPoint.workerEnd = some o := hstep
  exact marked_after hpoints hpoint hsection hskips

structure SkipSight where
  point : Option InstallPoint
  failed : Bool
  title : String
  passed : Bool
  starts : Option Bool
deriving DecidableEq

/-- The thread {lit}`t` makes its next step, the list follows, and then the thread {lit}`t'` may
start an add-on of the title that is shown now. -/
def observeSkip (console : Console)
    (ok : String -> Pool InstallWorld InstallPoint -> Move InstallCall InstallAnswer -> Prop)
    [forall title p l, Decidable (ok title p l)] (t t' : Nat)
    (ls : List (Move InstallCall InstallAnswer)) (q : Pool InstallWorld InstallPoint) :
    SkipSight where
  point := q.threads[t]?
  failed := baseFailed q.shared.status
  title := q.shared.status.titleId
  passed := q.threads.any (InstallPoint.addOnOf q.shared.status.titleId)
  starts := ((installProgram console).system.next q (Move.run t noAnswer)).bind
    (fun q' => (execWhile (installProgram console).system
      (fun s l => ok q.shared.status.titleId s l ∧ lifts q.shared.status.titleId s l = false)
        q' ls).map (fun u => startsAddOn q.shared.status.titleId u t'))

theorem observedSkip_run {console : Console}
    {ok : String -> Pool InstallWorld InstallPoint -> Move InstallCall InstallAnswer -> Prop}
    [forall title p l, Decidable (ok title p l)] {t t' : Nat}
    {ls ls' : List (Move InstallCall InstallAnswer)} {title : String} {r : Bool}
    (h : (execWhile (installProgram console).system (fun _ _ => True) (idleInstaller []) ls).map
      (observeSkip console ok t t' ls') =
        some { point := some InstallPoint.workerEnd, failed := true, title := title
               passed := false, starts := some r }) :
    exists tr q q' tr' u,
      Run (installProgram console).system (fun _ _ => True) (idleInstaller []) tr q ∧
        q.threads[t]? = some InstallPoint.workerEnd ∧ baseFailed q.shared.status = true ∧
          q.shared.status.titleId = title ∧ NonePassed q.shared.status.titleId q ∧
            (installProgram console).system.next q (Move.run t noAnswer) = some q' ∧
              Run (installProgram console).system
                (fun s l => ok q.shared.status.titleId s l ∧
                  lifts q.shared.status.titleId s l = false) q' tr' u ∧
                startsAddOn q.shared.status.titleId u t' = r := by
  rcases Option.map_eq_some_iff.mp h with ⟨q, hexec, hobs⟩
  rcases run_of_execWhile hexec with ⟨tr, _, hrun⟩
  rcases Option.bind_eq_some_iff.mp (congrArg SkipSight.starts hobs) with ⟨q', hnext, hmap⟩
  rcases Option.map_eq_some_iff.mp hmap with ⟨u, hexec', hstarts⟩
  rcases run_of_execWhile hexec' with ⟨tr', _, hrun'⟩
  exact ⟨tr, q, q', tr', u, hrun, congrArg SkipSight.point hobs, congrArg SkipSight.failed hobs,
    congrArg SkipSight.title hobs, congrArg SkipSight.passed hobs, hnext, hrun', hstarts⟩

def packageOf (title kind : String) : PkgDetail :=
  { fallbackDetail 10 with titleId := title, pkgTypeStr := kind }

/-- A start of the thread {lit}`t` that reads the package, from the checks to the commit. -/
def reads (t : Nat) (d : PkgDetail) : List (Move InstallCall InstallAnswer) :=
  Move.run t { parsed := some d } :: runs t 2

/-- The worker {lit}`t` cannot start the stream, and comes to its end. -/
def failsToStream (t : Nat) : List (Move InstallCall InstallAnswer) :=
  runs t 2 ++ [Move.run t { streamStarts := false }] ++ runs t 2

def firstBaseFails : List (Move InstallCall InstallAnswer) :=
  Move.call (InstallCall.start "/data/a.pkg") :: runs 0 2 ++
    reads 0 (packageOf "CUSA00001" "base") ++ failsToStream 1

/-- While a package of another title installs, the update of the first one is queued.  The package
fails too, and the worker takes the update from the queue. -/
def updateQueued (kind : String) : List (Move InstallCall InstallAnswer) :=
  runs 1 1 ++ Move.call (InstallCall.start "/data/b.pkg") :: runs 2 3 ++
    reads 2 (packageOf "CUSA00002" kind) ++
      Move.call (InstallCall.start "/data/a-update.pkg") :: runs 4 2 ++ failsToStream 3 ++
        runs 3 4 ++ [Move.run 3 { parsed := some (packageOf "CUSA00001" "update") }] ++ runs 3 1

end Installer
end PkgManager
