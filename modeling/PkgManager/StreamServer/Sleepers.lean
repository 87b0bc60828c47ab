import PkgManager.StreamServer.Teardown

/-!
# Stops that sleep on the condition variable

A release wakes one sleeper, when it drops the last reference and a stop is
marked.  The stop that wakes up first takes the mark away.
-/

namespace PkgManager
namespace StreamServer

open Transition

/-- No stop sleeps once the last reference is gone. -/
def NoStopperAsleep (p : Pool StreamWorld StreamPoint) : Prop :=
  p.shared.ss.vsRefs = 0 -> p.shared.waiters = []

/-- The next section of the stop sleeps if there are references. -/
def StreamPoint.awaits : StreamPoint -> Bool
  | StreamPoint.stopSecond _ _ => true
  | StreamPoint.stopWaiting _ _ => true
  | _ => false

/-- A stop goes to sleep only while it is marked and no other stop sleeps, and no session is
started over a stop that sleeps. -/
def SleepsAlone (p : Pool StreamWorld StreamPoint) : Move StreamCall StreamAnswer -> Prop
  | Move.call _ => True
  | Move.run t _ =>
      (p.threads[t]?.any StreamPoint.awaits = true -> 0 < p.shared.ss.vsRefs ->
        p.shared.ss.stopping = true ∧ p.shared.waiters = []) ∧
      (p.threads[t]?.any StreamPoint.commits = true -> p.shared.waiters = [])

instance (p : Pool StreamWorld StreamPoint) (l : Move StreamCall StreamAnswer) :
    Decidable (SleepsAlone p l) :=
  match l with
  | Move.call _ => isTrue trivial
  | Move.run t _ =>
      inferInstanceAs (Decidable ((p.threads[t]?.any StreamPoint.awaits = true ->
        0 < p.shared.ss.vsRefs -> p.shared.ss.stopping = true ∧ p.shared.waiters = []) ∧
        (p.threads[t]?.any StreamPoint.commits = true -> p.shared.waiters = [])))

/-!
# One sleeper at most
-/

/-- A sleeper is alone, it is marked, and there is a reference to wait for. -/
structure SleepInv (w : StreamWorld) : Prop where
  alone : w.waiters.length ≤ 1
  marked : w.waiters ≠ [] -> w.ss.stopping = true ∧ 0 < w.ss.vsRefs

theorem sleepInv_awake {w : StreamWorld} (h : w.waiters = []) : SleepInv w := by
  constructor
  · rw [h]
    exact Nat.zero_le 1
  · intro hne
    exact absurd h hne

/-- A section that leaves the sleepers, the mark and the count alone. -/
theorem sleepInv_same {w w' : StreamWorld} (h : SleepInv w) (hwaiters : w'.waiters = w.waiters)
    (hmark : w.ss.stopping = true -> w'.ss.stopping = true)
    (hrefs : w.ss.vsRefs ≤ w'.ss.vsRefs) : SleepInv w' := by
  constructor
  · rw [hwaiters]
    exact h.alone
  · intro hne
    rw [hwaiters] at hne
    have hmarked := h.marked hne
    exact ⟨hmark hmarked.1, Nat.lt_of_lt_of_le hmarked.2 hrefs⟩

theorem sleepInv_acquire {w : StreamWorld} (h : SleepInv w) : SleepInv (acquire w).1 := by
  have hwaiters : (acquire w).1.waiters = w.waiters := rfl
  rcases streamVsAcquire_cases w.ss with hnone | ⟨vs, _, hsome⟩
  · apply sleepInv_same h hwaiters
    · intro hmark
      rw [acquire, hnone]
      exact hmark
    · rw [acquire, hnone]
  · apply sleepInv_same h hwaiters
    · intro hmark
      rw [acquire, hsome]
      exact hmark
    · rw [acquire, hsome]
      exact Nat.le_succ _

/-- The last release wakes the one that sleeps. -/
theorem sleepInv_release {w : StreamWorld} (h : SleepInv w) (a : StreamAnswer) :
    SleepInv (release w a) := by
  cases hwaiters : w.waiters with
  | nil =>
      apply sleepInv_awake
      rw [release, hwaiters]
      split
      · rfl
      · rfl
  | cons t ts =>
      have hmarked := h.marked (by rw [hwaiters]; exact List.cons_ne_nil t ts)
      have hlength := h.alone
      rw [hwaiters, List.length_cons] at hlength
      have hnone : ts = [] := List.eq_nil_of_length_eq_zero (by omega)
      by_cases hlast : w.ss.vsRefs = 1
      · apply sleepInv_awake
        have hsignal : (streamVsRelease w.ss).2 = true := by
          unfold streamVsRelease
          simp [hmarked.1, hlast]
        rw [release, hsignal, if_pos rfl, hwaiters, hnone, List.length_singleton, Nat.mod_one]
        rfl
      · have hsignal : (streamVsRelease w.ss).2 = false := by
          unfold streamVsRelease
          simp [hmarked.1, hmarked.2]
          omega
        constructor
        · rw [release, hsignal]
          exact h.alone
        · intro _
          rw [release, streamVsRelease_session]
          have hmore := hmarked.2
          exact ⟨hmarked.1, by dsimp only; omega⟩

/-- What a section of a handler does to the session. -/
theorem connStep_world {console : Console} {w w' : StreamWorld} {c c' : Conn} {a : StreamAnswer}
    {k k' : ConnAt} (hstep : connStep console w c a k = some (w', c', k')) :
    w' = w ∨ w' = (acquire w).1 ∨ w' = release w a := by
  cases k with
  | opening =>
      rw [connStep] at hstep
      split at hstep
      · rename_i hacquire
        cases hstep
        exact Or.inr (Or.inl (congrArg Prod.fst hacquire).symm)
      · rename_i hacquire
        cases hstep
        exact Or.inr (Or.inl (congrArg Prod.fst hacquire).symm)
  | openSmb vs openedIn =>
      cases hstep
      exact Or.inr (Or.inr rfl)
  | loop =>
      rw [connStep] at hstep
      split at hstep
      · cases hstep
        exact Or.inl rfl
      · cases hstep
        exact Or.inl rfl
  | recv => exact Or.inl (Prod.mk.inj (Option.some.inj hstep)).1.symm
  | nameCheck req => exact Or.inl (Prod.mk.inj (Option.some.inj hstep)).1.symm
  | sizeCheck req check => exact Or.inl (Prod.mk.inj (Option.some.inj hstep)).1.symm
  | bodyAcquire b =>
      rw [connStep] at hstep
      split at hstep
      · rename_i hacquire
        cases hstep
        exact Or.inr (Or.inl (congrArg Prod.fst hacquire).symm)
      · rename_i hacquire
        have hw := (Prod.mk.inj (Option.some.inj hstep)).1
        rw [← hw]
        exact Or.inr (Or.inl (congrArg Prod.fst hacquire).symm)
  | body vs b =>
      rw [connStep] at hstep
      split at hstep
      · cases hstep
        exact Or.inl rfl
      · cases hstep
        exact Or.inl rfl
  | bodyRead vs b =>
      rcases Option.map_eq_some_iff.mp hstep with ⟨k₁, _, heq⟩
      exact Or.inl (Prod.mk.inj heq).1.symm
  | bodyRelease vs b => exact Or.inr (Or.inr (Prod.mk.inj (Option.some.inj hstep)).1.symm)
  | closed => cases hstep

/-- A stop without references tears down, and nobody sleeps; else it is the only sleeper. -/
theorem sleepInv_stopSecond {w : StreamWorld} (h : SleepInv w)
    (hsleep : 0 < w.ss.vsRefs -> w.ss.stopping = true ∧ w.waiters = []) (t calledIn : Nat)
    (next : AfterStop) : SleepInv (stopSecondStep w t calledIn next).shared := by
  unfold stopSecondStep
  split
  · rename_i hrefs
    have hmarked := hsleep hrefs
    constructor
    · dsimp only
      rw [hmarked.2]
      exact Nat.le_refl 1
    · intro _
      exact ⟨hmarked.1, hrefs⟩
  · rename_i hrefs
    apply sleepInv_awake
    by_contra hne
    exact hrefs (h.marked hne).2

theorem sleepInv_step {console : Console} {w : StreamWorld} {t : Nat} {a : StreamAnswer}
    {x : StreamPoint} {o : Section StreamWorld StreamPoint} (h : SleepInv w)
    (hsleep : x.awaits = true -> 0 < w.ss.vsRefs -> w.ss.stopping = true ∧ w.waiters = [])
    (hcommit : x.commits = true -> w.waiters = [])
    (hstep : streamStep console w t a x = some o) : SleepInv o.shared := by
  cases x with
  | conn c k =>
      rcases Option.map_eq_some_iff.mp hstep with ⟨⟨w', c', k'⟩, hconn, ho⟩
      rw [← ho]
      rcases connStep_world hconn with hsame | hacquire | hrelease
      · rw [hsame]
        exact h
      · rw [hacquire]
        exact sleepInv_acquire h
      · rw [hrelease]
        exact sleepInv_release h a
  | startEnter pkgPath sessionName =>
      rw [streamStep] at hstep
      split at hstep
      · cases hstep
        exact h
      · split at hstep
        · cases hstep
          exact h
        · cases hstep
          exact h
  | startOpen pkgPath sessionName =>
      cases hstep
      unfold startOpenStep
      split
      · exact h
      · exact sleepInv_same h rfl (fun hmark => hmark) (Nat.le_refl _)
  | startCommit vs sessionName =>
      cases hstep
      have hawake := hcommit rfl
      apply sleepInv_awake
      unfold startCommitStep nameSession
      split <;> exact hawake
  | setName sessionName =>
      cases hstep
      exact sleepInv_same h rfl (fun hmark => hmark) (Nat.le_refl _)
  | setIcon iconSize iconName =>
      cases hstep
      have hwaiters : ({ w with ss := setIcon w.ss iconSize iconName } : StreamWorld).waiters =
        w.waiters := rfl
      apply sleepInv_same h hwaiters
      · intro hmark
        dsimp only
        unfold setIcon
        split <;> exact hmark
      · dsimp only
        unfold setIcon
        split <;> exact Nat.le_refl _
  | stopEnter =>
      cases hstep
      exact h
  | stopFirst calledIn next =>
      cases hstep
      have hwaiters : ({ w with ss := stopRunning w.ss } : StreamWorld).waiters = w.waiters := rfl
      apply sleepInv_same h hwaiters
      · intro hmark
        dsimp only
        unfold stopRunning
        split
        · rfl
        · exact hmark
      · dsimp only
        unfold stopRunning
        split <;> exact Nat.le_refl _
  | stopSecond calledIn next =>
      cases hstep
      exact sleepInv_stopSecond h (hsleep rfl) t calledIn next
  | stopWaiting calledIn next =>
      rw [streamStep] at hstep
      split at hstep
      · cases hstep
      · cases hstep
        exact sleepInv_stopSecond h (hsleep rfl) t calledIn next
  | returned r => cases hstep

/-!
# Runs
-/

theorem sleepInv_next {console : Console} {p q : Pool StreamWorld StreamPoint}
    {l : Move StreamCall StreamAnswer} (h : SleepInv p.shared) (hok : SleepsAlone p l)
    (hnext : (streamProgram console).system.next p l = some q) : SleepInv q.shared := by
  cases l with
  | call c =>
      rw [next_call] at hnext
      cases hnext
      exact h
  | run t a =>
      rcases next_run hnext with ⟨x, o, hx, hstep, hq⟩
      rw [hq]
      have hboth := hok
      unfold SleepsAlone at hboth
      dsimp only at hboth
      rw [hx] at hboth
      exact sleepInv_step h hboth.1 hboth.2 hstep

def SleepPool (p : Pool StreamWorld StreamPoint) : Prop :=
  SleepInv p.shared

/-- In every run in which a stop sleeps alone, none is left asleep. -/
theorem noStopperAsleep_of_alone {console : Console} {q : Pool StreamWorld StreamPoint}
    {tr : List (Pool StreamWorld StreamPoint × Move StreamCall StreamAnswer)}
    (hrun : Run (streamProgram console).system SleepsAlone noThreads tr q) :
    NoStopperAsleep q := by
  have hstart : SleepPool noThreads := sleepInv_awake rfl
  have hinv : SleepPool q :=
    run_invariant (fun hinv hok hnext => sleepInv_next hinv hok hnext) hrun hstart
  intro hzero
  by_contra hne
  have hpos := (hinv.marked hne).2
  omega

/-- A handler holds the stream, and a stop waits for it. -/
def oneStopSleeps : List (Move StreamCall StreamAnswer) :=
  startsSession 0 (some "a.pkg") ++ Move.call StreamCall.connect :: runs 1 1 ++ stopBegins 2 ++
    runs 2 1

theorem noStopperAsleep_example :
    exists tr q, Run (streamProgram Console.ps5).system SleepsAlone noThreads tr q ∧
      q.shared.ss.vsRefs = 0 ∧ q.shared.waiters = [] := by
  have hexec : (execWhile (streamProgram Console.ps5).system SleepsAlone noThreads
      (oneStopSleeps ++ runs 1 1)).map (fun q => q.shared.ss.vsRefs) = some 0 := by
    decide
  rcases Option.map_eq_some_iff.mp hexec with ⟨q, hq, hrefs⟩
  rcases run_of_execWhile hq with ⟨tr, _, hrun⟩
  exact ⟨tr, q, hrun, hrefs, noStopperAsleep_of_alone hrun hrefs⟩

/-- Two stops wait for the handler, and its release wakes one of them. -/
theorem stopper_left_asleep :
    ¬ forall tr q, Run (streamProgram Console.ps5).system (fun _ _ => True) noThreads tr q ->
      NoStopperAsleep q := by
  intro hall
  have hexec : (execWhile (streamProgram Console.ps5).system (fun _ _ => True) noThreads
      (oneStopSleeps ++ stopBegins 3 ++ runs 3 1 ++ runs 1 1)).map
        (fun q => (q.shared.ss.vsRefs, q.shared.waiters)) = some (0, [3]) := by
    decide
  rcases Option.map_eq_some_iff.mp hexec with ⟨q, hq, hobs⟩
  rcases run_of_execWhile hq with ⟨tr, _, hrun⟩
  rcases Prod.mk.inj hobs with ⟨hrefs, hwaiters⟩
  have hnone := hall tr q hrun hrefs
  rw [hwaiters] at hnone
  cases hnone

end StreamServer
end PkgManager
