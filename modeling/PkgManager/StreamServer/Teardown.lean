import PkgManager.StreamServer.Threads

/-!
# What a stop tears down

A stop closes the stream it finds in its second section.  It finds the stream of
its own session when no session is started while a stop is pending, and the
count of references is the number of handlers when no session is started over
them.
-/

namespace PkgManager
namespace StreamServer

open Transition

/-!
# What is asked
-/

/-- The stream, the pinned name and the size are left as they are. -/
structure SameStream (ss ss' : StreamSession) : Prop where
  vs : ss'.vs = ss.vs
  sessionName : ss'.sessionName = ss.sessionName
  totalSize : ss'.totalSize = ss.totalSize

/-- A section of a stop leaves a session alone that was started after the stop
was called, and closes no stream that a handler holds. -/
def StopsOwnSession (console : Console)
    (ok : Pool StreamWorld StreamPoint -> Move StreamCall StreamAnswer -> Prop)
    (p : Pool StreamWorld StreamPoint) : Prop :=
  forall tr q t a x o calledIn, Run (streamProgram console).system ok p tr q ->
    q.threads[t]? = some x -> x.stopCalled = some calledIn ->
      streamStep console q.shared t a x = some o ->
        (calledIn < q.shared.sessions.length -> SameStream q.shared.ss o.shared.ss) ∧
          forall vs, q.shared.ss.vs = some vs -> o.shared.ss.vs ≠ some vs ->
            forall y, y ∈ q.threads -> y.held ≠ some vs

/-!
# The condition on the starts
-/

def StreamPoint.commits : StreamPoint -> Bool
  | StreamPoint.startCommit _ _ => true
  | _ => false

/-- A start takes over the session only while no handler holds a reference, and
when it starts a session, only while no stop is pending. -/
def QuietStarts (p : Pool StreamWorld StreamPoint) : Move StreamCall StreamAnswer -> Prop
  | Move.call _ => True
  | Move.run t a =>
      p.threads[t]?.any StreamPoint.commits = true ->
        (forall y, y ∈ p.threads -> y.held = none) ∧
          (a.threadStarts = true -> forall y, y ∈ p.threads -> y.stopCalled = none)

instance (p : Pool StreamWorld StreamPoint) (l : Move StreamCall StreamAnswer) :
    Decidable (QuietStarts p l) :=
  match l with
  | Move.call _ => isTrue trivial
  | Move.run t a =>
      inferInstanceAs (Decidable (p.threads[t]?.any StreamPoint.commits = true ->
        (forall y, y ∈ p.threads -> y.held = none) ∧
          (a.threadStarts = true -> forall y, y ∈ p.threads -> y.stopCalled = none)))

/-!
# What the sections of a handler do
-/

def one (held : Option VirtualStream) : Nat :=
  if held.isSome then 1 else 0

/-- A handler changes the count of references with what it holds, and it holds
what it held before or the stream of the session. -/
structure HandlerEffect (w : StreamWorld) (k : ConnAt) (w' : StreamWorld) (k' : ConnAt) :
    Prop where
  session : w'.ss = { w.ss with vsRefs := w'.ss.vsRefs }
  sessions : w'.sessions = w.sessions
  pins : w'.pins = w.pins
  refs : (k.held.isSome = true -> 0 < w.ss.vsRefs) ->
    w'.ss.vsRefs + one k.held = w.ss.vsRefs + one k'.held
  held : forall vs, k'.held = some vs -> w.ss.vs = some vs ∨ k.held = some vs

section Handler

variable {console : Console} {w w' : StreamWorld} {c c' : Conn} {a : StreamAnswer}

theorem handlerEffect_still {k k' : ConnAt} (hheld : k'.held = k.held) :
    HandlerEffect w k w k' :=
  ⟨rfl, rfl, rfl, fun _ => by rw [hheld], fun vs h => Or.inr (by rw [← hheld, h])⟩

theorem handlerEffect_acquire {k k' : ConnAt} {vs : VirtualStream} (hk : k.held = none)
    (hk' : k'.held = some vs) (h : acquire w = (w', some vs)) :
    HandlerEffect w k w' k' := by
  rcases streamVsAcquire_cases w.ss with hnone | ⟨vs', hvs, hsome⟩
  · rw [acquire, hnone] at h
    cases h
  · rw [acquire, hsome] at h
    rcases Prod.mk.inj h with ⟨hw, heq⟩
    rw [← hw]
    refine ⟨rfl, rfl, rfl, fun _ => ?_, ?_⟩
    · rw [hk, hk']
      rfl
    · intro v hv
      rw [hk'] at hv
      rw [hvs, ← hv]
      exact Or.inl heq

theorem acquire_none (h : acquire w = (w', none)) : w' = w := by
  rcases streamVsAcquire_cases w.ss with hnone | ⟨vs', hvs, hsome⟩
  · rw [acquire, hnone] at h
    exact (Prod.mk.inj h).1.symm
  · rw [acquire, hsome] at h
    cases (Prod.mk.inj h).2

theorem handlerEffect_release {k k' : ConnAt} (hk : k.held.isSome = true)
    (hk' : k'.held = none) : HandlerEffect w k (release w a) k' := by
  refine ⟨?_, rfl, rfl, ?_, ?_⟩
  · rw [release, streamVsRelease_session]
  · intro hpos
    rw [release, streamVsRelease_session, one, if_pos hk, hk']
    have hrefs := hpos hk
    change w.ss.vsRefs - 1 + 1 = w.ss.vsRefs + 0
    omega
  · intro vs hvs
    rw [hk'] at hvs
    cases hvs

theorem held_replied (c : Conn) (reply : Reply) (goesOn : Bool) :
    (c.replied reply goesOn).2.held = none := by
  cases goesOn with
  | true => rfl
  | false => rfl

theorem held_recvStep : (recvStep c a).2.held = none := by
  rw [recvStep]
  split
  · rfl
  · dsimp only
    split
    · exact held_replied _ _ _
    · split
      · exact held_replied _ _ _
      · rfl

theorem held_nameStep {req : List Char} : (nameStep w c a req).2.held = none := by
  rw [nameStep]
  split
  · exact held_replied _ _ _
  · split
    · rfl
    · exact held_replied _ _ _

theorem held_sizeStep {req : List Char} {check : NameCheck} :
    (sizeStep w c a req check).2.held = none := by
  rw [sizeStep]
  split
  · exact held_replied _ _ _
  · split
    · exact held_replied _ _ _
    · split
      · exact held_replied _ _ _
      · rfl

theorem held_bodyReadStep {vs : VirtualStream} {b : Body} {k : ConnAt}
    (h : bodyReadStep console w c a vs b = some k) : k.held = some vs := by
  rw [bodyReadStep] at h
  split at h
  · cases h
  · split at h
    · cases h
      rfl
    · dsimp only at h
      split at h
      · cases h
        rfl
      · cases h
        rfl

theorem handlerEffect_step {k k' : ConnAt}
    (hstep : connStep console w c a k = some (w', c', k')) : HandlerEffect w k w' k' := by
  cases k with
  | opening =>
      rw [connStep] at hstep
      split at hstep
      · rename_i hacquire
        cases hstep
        exact handlerEffect_acquire rfl rfl hacquire
      · rename_i hacquire
        cases hstep
        rw [acquire_none hacquire]
        exact handlerEffect_still rfl
  | openSmb vs openedIn =>
      cases hstep
      exact handlerEffect_release rfl rfl
  | loop =>
      rw [connStep] at hstep
      split at hstep
      · cases hstep
        exact handlerEffect_still rfl
      · cases hstep
        exact handlerEffect_still rfl
  | recv =>
      rcases Prod.mk.inj (Option.some.inj hstep) with ⟨hw, hrest⟩
      rw [← hw]
      have hheld : k'.held = none := by
        rw [← (Prod.mk.inj hrest).2]
        exact held_recvStep
      exact handlerEffect_still hheld
  | nameCheck req =>
      rcases Prod.mk.inj (Option.some.inj hstep) with ⟨hw, hrest⟩
      rw [← hw]
      have hheld : k'.held = none := by
        rw [← (Prod.mk.inj hrest).2]
        exact held_nameStep
      exact handlerEffect_still hheld
  | sizeCheck req check =>
      rcases Prod.mk.inj (Option.some.inj hstep) with ⟨hw, hrest⟩
      rw [← hw]
      have hheld : k'.held = none := by
        rw [← (Prod.mk.inj hrest).2]
        exact held_sizeStep
      exact handlerEffect_still hheld
  | bodyAcquire b =>
      rw [connStep] at hstep
      split at hstep
      · rename_i hacquire
        cases hstep
        exact handlerEffect_acquire rfl rfl hacquire
      · rename_i hacquire
        rcases Prod.mk.inj (Option.some.inj hstep) with ⟨hw, hrest⟩
        rw [← hw, acquire_none hacquire, ← (Prod.mk.inj hrest).2]
        exact handlerEffect_still rfl
  | body vs b =>
      rw [connStep] at hstep
      split at hstep
      · cases hstep
        exact handlerEffect_still rfl
      · cases hstep
        exact handlerEffect_still rfl
  | bodyRead vs b =>
      rcases Option.map_eq_some_iff.mp hstep with ⟨k₁, hread, heq⟩
      cases heq
      exact handlerEffect_still (held_bodyReadStep hread)
  | bodyRelease vs b =>
      rcases Prod.mk.inj (Option.some.inj hstep) with ⟨hw, hrest⟩
      rw [← hw]
      apply handlerEffect_release rfl
      have hheld := held_replied c b.reply (decide (b.off > b.reply.head.last) && b.keep)
      rw [hrest] at hheld
      exact hheld
  | closed => cases hstep

end Handler

/-!
# What a section of any thread does

The stream and the count of references are changed together, or the session is
taken over by a start, or torn down without references.
-/

def Counted (w : StreamWorld) (x : StreamPoint) (o : Section StreamWorld StreamPoint) : Prop :=
  o.shared.ss.vs = w.ss.vs ∧
    ((x.held.isSome = true -> 0 < w.ss.vsRefs) ->
      o.shared.ss.vsRefs + one x.held = w.ss.vsRefs + one o.point.held)

structure StopEffect (w : StreamWorld) (a : StreamAnswer) (x : StreamPoint)
    (o : Section StreamWorld StreamPoint) : Prop where
  created : o.created = none
  held : forall vs, o.point.held = some vs -> w.ss.vs = some vs ∨ x.held = some vs
  called : forall n, o.point.stopCalled = some n -> x.stopCalled = some n ∨ n = w.sessions.length
  stream : Counted w x o ∨ (x.commits = true ∧ o.shared.ss.vsRefs = 0 ∧ o.point.held = none) ∨
    (w.ss.vsRefs = 0 ∧ o.shared.ss.vsRefs = 0 ∧ x.held = none ∧ o.point.held = none)
  sessions : o.shared.sessions = w.sessions ∨
    (x.commits = true ∧ a.threadStarts = true ∧ o.point.stopCalled = none)

section Sections

variable {console : Console} {w : StreamWorld} {t : Nat} {a : StreamAnswer} {x : StreamPoint}
  {o : Section StreamWorld StreamPoint}

/-- A section that leaves the stream alone, of a thread that holds nothing. -/
theorem stopEffect_apart {w' : StreamWorld} {y : StreamPoint} (hvs : w'.ss.vs = w.ss.vs)
    (hrefs : w'.ss.vsRefs = w.ss.vsRefs) (hsessions : w'.sessions = w.sessions)
    (hx : x.held = none) (hy : y.held = none)
    (hcalled : forall n, y.stopCalled = some n ->
      x.stopCalled = some n ∨ n = w.sessions.length) :
    StopEffect w a x { shared := w', point := y } := by
  refine ⟨rfl, ?_, hcalled, Or.inl ⟨hvs, fun _ => ?_⟩, Or.inl hsessions⟩
  · intro vs h
    rw [hy] at h
    cases h
  · rw [hrefs, hx, hy]

theorem held_afterStop (next : AfterStop) :
    next.point.held = none ∧ next.point.stopCalled = none := by
  cases next with
  | returns => exact ⟨rfl, rfl⟩
  | starts pkgPath sessionName => exact ⟨rfl, rfl⟩

theorem stopEffect_second {calledIn : Nat} {next : AfterStop} (hx : x.held = none)
    (hcalled : x.stopCalled = some calledIn) :
    StopEffect w a x (stopSecondStep w t calledIn next) := by
  unfold stopSecondStep
  split
  · exact stopEffect_apart rfl rfl rfl hx rfl (fun n h => Or.inl (by rw [hcalled, ← h]; rfl))
  · rename_i hrefs
    have hzero : w.ss.vsRefs = 0 := Nat.eq_zero_of_not_pos hrefs
    rcases held_afterStop next with ⟨hheld, hnot⟩
    refine ⟨rfl, ?_, ?_, Or.inr (Or.inr ⟨hzero, hzero, hx, hheld⟩), Or.inl rfl⟩
    · intro vs h
      rw [hheld] at h
      cases h
    · intro n h
      rw [hnot] at h
      cases h

theorem stopEffect_commit {vs : VirtualStream} {sessionName : Option String} :
    StopEffect w a (StreamPoint.startCommit vs sessionName)
      (startCommitStep w a vs sessionName) := by
  unfold startCommitStep
  split
  · rename_i hstarts
    exact ⟨rfl, (fun _ h => by cases h), (fun _ h => by cases h), Or.inr (Or.inl ⟨rfl, rfl, rfl⟩),
      Or.inr ⟨rfl, hstarts, rfl⟩⟩
  · exact ⟨rfl, (fun _ h => by cases h), (fun _ h => by cases h), Or.inr (Or.inl ⟨rfl, rfl, rfl⟩),
      Or.inl rfl⟩

theorem stopEffect_step (hstep : streamStep console w t a x = some o) : StopEffect w a x o := by
  cases x with
  | conn c k =>
      rcases Option.map_eq_some_iff.mp hstep with ⟨⟨w', c', k'⟩, hconn, ho⟩
      rw [← ho]
      have heffect := handlerEffect_step hconn
      refine ⟨rfl, heffect.held, (fun _ h => by cases h), Or.inl ⟨?_, heffect.refs⟩,
        Or.inl heffect.sessions⟩
      rw [heffect.session]
  | startEnter pkgPath sessionName =>
      rw [streamStep] at hstep
      split at hstep
      · cases hstep
        exact stopEffect_apart rfl rfl rfl rfl rfl (fun _ h => by cases h)
      · split at hstep
        · cases hstep
          exact stopEffect_apart rfl rfl rfl rfl rfl (fun n h => Or.inr (Option.some.inj h).symm)
        · cases hstep
          exact stopEffect_apart rfl rfl rfl rfl rfl (fun _ h => by cases h)
  | startOpen pkgPath sessionName =>
      cases hstep
      unfold startOpenStep
      split
      · exact stopEffect_apart rfl rfl rfl rfl rfl (fun _ h => by cases h)
      · split
        · exact stopEffect_apart rfl rfl rfl rfl rfl (fun _ h => by cases h)
        · exact stopEffect_apart rfl rfl rfl rfl rfl (fun _ h => by cases h)
  | startCommit vs sessionName =>
      cases hstep
      exact stopEffect_commit
  | setName sessionName =>
      cases hstep
      exact stopEffect_apart rfl rfl rfl rfl rfl (fun _ h => by cases h)
  | setIcon iconSize iconName =>
      cases hstep
      refine stopEffect_apart ?_ ?_ rfl rfl rfl (fun _ h => by cases h)
      · dsimp only
        unfold setIcon
        split <;> rfl
      · dsimp only
        unfold setIcon
        split <;> rfl
  | stopEnter =>
      cases hstep
      exact stopEffect_apart rfl rfl rfl rfl rfl (fun n h => Or.inr (Option.some.inj h).symm)
  | stopFirst calledIn next =>
      cases hstep
      refine stopEffect_apart ?_ ?_ rfl rfl rfl (fun n h => Or.inl h)
      · dsimp only
        unfold stopRunning
        split <;> rfl
      · dsimp only
        unfold stopRunning
        split <;> rfl
  | stopSecond calledIn next =>
      cases hstep
      exact stopEffect_second rfl rfl
  | stopWaiting calledIn next =>
      rw [streamStep] at hstep
      split at hstep
      · cases hstep
      · cases hstep
        exact stopEffect_second rfl rfl
  | returned r => cases hstep

end Sections

/-!
# The invariant of the runs
-/

def StreamPoint.holds (x : StreamPoint) : Bool :=
  x.held.isSome

/-- The count is the number of handlers that hold a reference, they hold the
stream of the session, and no session was started since a pending stop was
called. -/
structure StopInv (p : Pool StreamWorld StreamPoint) : Prop where
  refs : p.shared.ss.vsRefs = countThreads StreamPoint.holds p
  held : forall y, y ∈ p.threads -> forall vs, y.held = some vs -> p.shared.ss.vs = some vs
  called : forall y, y ∈ p.threads -> forall n, y.stopCalled = some n ->
    n = p.shared.sessions.length

theorem stopInv_noThreads : StopInv noThreads :=
  ⟨rfl, (fun _ h => by cases h), (fun _ h => by cases h)⟩

theorem held_none_of_count {p : Pool StreamWorld StreamPoint}
    (hcount : countThreads StreamPoint.holds p = 0) {y : StreamPoint} (hy : y ∈ p.threads) :
    y.held = none := by
  have hnot := List.countP_eq_zero.mp hcount y hy
  cases hheld : y.held with
  | none => rfl
  | some vs =>
      rw [StreamPoint.holds, hheld] at hnot
      exact absurd rfl hnot

theorem countThreads_of_none {p : Pool StreamWorld StreamPoint}
    (h : forall y, y ∈ p.threads -> y.held = none) : countThreads StreamPoint.holds p = 0 := by
  apply List.countP_eq_zero.mpr
  intro y hy
  rw [StreamPoint.holds, h y hy]
  exact Bool.false_ne_true

theorem entry_idle (c : StreamCall) :
    c.entry.held = none ∧ c.entry.stopCalled = none := by
  cases c with
  | connect => exact ⟨rfl, rfl⟩
  | start pkgPath sessionName => exact ⟨rfl, rfl⟩
  | setName sessionName => exact ⟨rfl, rfl⟩
  | setIcon iconSize iconName => exact ⟨rfl, rfl⟩
  | stop => exact ⟨rfl, rfl⟩

theorem stopInv_call {p : Pool StreamWorld StreamPoint} (hinv : StopInv p) (c : StreamCall) :
    StopInv (p.enter c.entry) := by
  rcases entry_idle c with ⟨hheld, hcalled⟩
  refine ⟨?_, ?_, ?_⟩
  · rw [countThreads_enter, StreamPoint.holds, hheld]
    exact hinv.refs
  · intro y hy vs hvs
    rcases mem_enter hy with hold | hnew
    · exact hinv.held y hold vs hvs
    · rw [hnew, hheld] at hvs
      cases hvs
  · intro y hy n hn
    rcases mem_enter hy with hold | hnew
    · exact hinv.called y hold n hn
    · rw [hnew, hcalled] at hn
      cases hn

section Step

variable {p : Pool StreamWorld StreamPoint} {t : Nat} {a : StreamAnswer} {x : StreamPoint}
  {o : Section StreamWorld StreamPoint}

theorem refs_pos (hinv : StopInv p) (hx : x ∈ p.threads) (hheld : x.held.isSome = true) :
    0 < p.shared.ss.vsRefs := by
  rw [hinv.refs]
  exact List.countP_pos_iff.mpr ⟨x, hx, hheld⟩

/-- Either no thread holds a reference before and after, or the stream stays. -/
theorem held_step (hinv : StopInv p) (hok : QuietStarts p (Move.run t a))
    (hpoint : p.threads[t]? = some x) (heffect : StopEffect p.shared a x o) :
    Counted p.shared x o ∨ (o.shared.ss.vsRefs = 0 ∧ o.point.held = none ∧
      forall y, y ∈ p.threads -> y.held = none) := by
  rcases heffect.stream with hcounted | ⟨hcommits, hrefs, hheld⟩ | ⟨hzero, hrefs, _, hheld⟩
  · exact Or.inl hcounted
  · rw [QuietStarts, hpoint] at hok
    exact Or.inr ⟨hrefs, hheld, (hok hcommits).1⟩
  · refine Or.inr ⟨hrefs, hheld, fun y hy => ?_⟩
    rw [hinv.refs] at hzero
    exact held_none_of_count hzero hy

theorem stopInv_run (hinv : StopInv p) (hok : QuietStarts p (Move.run t a))
    (hpoint : p.threads[t]? = some x) (heffect : StopEffect p.shared a x o) :
    StopInv (p.after t o) := by
  have hmem := List.mem_of_getElem? hpoint
  have hstream := held_step hinv hok hpoint heffect
  have hthreads : forall y, y ∈ (p.after t o).threads -> y ∈ p.threads ∨ y = o.point := by
    intro y hy
    rcases mem_after hy with hold | hsame | hnew
    · exact Or.inl hold
    · exact Or.inr hsame
    · rw [heffect.created] at hnew
      cases hnew
  refine ⟨?_, ?_, ?_⟩
  · rcases hstream with ⟨_, hcounted⟩ | ⟨hrefs, hheld, hnone⟩
    · have hcount := countThreads_after (f := StreamPoint.holds) hpoint o
      rw [heffect.created] at hcount
      have hrefs := hcounted (refs_pos hinv hmem)
      have hsame := hinv.refs
      have hone : forall y : StreamPoint, (if y.holds then 1 else 0) = one y.held := fun _ => rfl
      rw [hone, hone, Option.toList_none, List.countP_nil] at hcount
      change o.shared.ss.vsRefs = countThreads StreamPoint.holds (p.after t o)
      omega
    · rw [countThreads_of_none]
      · exact hrefs
      · intro y hy
        rcases hthreads y hy with hold | hsame
        · exact hnone y hold
        · rw [hsame]
          exact hheld
  · intro y hy vs hvs
    rcases hstream with ⟨hsame, _⟩ | ⟨_, hheld, hnone⟩
    · change o.shared.ss.vs = some vs
      rw [hsame]
      rcases hthreads y hy with hold | hpt
      · exact hinv.held y hold vs hvs
      · rw [hpt] at hvs
        rcases heffect.held vs hvs with hnow | hbefore
        · exact hnow
        · exact hinv.held x hmem vs hbefore
    · rcases hthreads y hy with hold | hpt
      · rw [hnone y hold] at hvs
        cases hvs
      · rw [hpt, hheld] at hvs
        cases hvs
  · intro y hy n hn
    rcases heffect.sessions with hsame | ⟨hcommits, hstarts, hnot⟩
    · change n = o.shared.sessions.length
      rw [hsame]
      rcases hthreads y hy with hold | hpt
      · exact hinv.called y hold n hn
      · rw [hpt] at hn
        rcases heffect.called n hn with hbefore | hnow
        · exact hinv.called x hmem n hbefore
        · exact hnow
    · rw [QuietStarts, hpoint] at hok
      rcases hthreads y hy with hold | hpt
      · rw [(hok hcommits).2 hstarts y hold] at hn
        cases hn
      · rw [hpt, hnot] at hn
        cases hn

end Step

theorem stopInv_next {console : Console} {p q : Pool StreamWorld StreamPoint}
    {l : Move StreamCall StreamAnswer} (hinv : StopInv p) (hok : QuietStarts p l)
    (hnext : (streamProgram console).system.next p l = some q) : StopInv q := by
  cases l with
  | call c =>
      rw [next_call] at hnext
      cases hnext
      exact stopInv_call hinv c
  | run t a =>
      rcases next_run hnext with ⟨x, o, hpoint, hstep, hq⟩
      rw [hq]
      exact stopInv_run hinv hok hpoint (stopEffect_step hstep)

/-!
# A stop under the invariant
-/

theorem stops_own_session (console : Console) :
    StopsOwnSession console QuietStarts noThreads := by
  intro tr q t a x o calledIn hrun hpoint hcalled hstep
  have hinv : StopInv q :=
    run_invariant (fun hinv hok hnext => stopInv_next hinv hok hnext) hrun stopInv_noThreads
  constructor
  · intro hlater
    have hnow := hinv.called x (List.mem_of_getElem? hpoint) calledIn hcalled
    exact absurd hnow (Nat.ne_of_lt hlater)
  · intro vs hvs hclosed y hy hheld
    rcases (stopEffect_step hstep).stream with ⟨hsame, _⟩ | ⟨hcommits, _⟩ | ⟨hzero, _⟩
    · rw [hsame] at hclosed
      exact hclosed hvs
    · cases x with
      | startCommit vs sessionName => cases hcalled
      | _ => cases hcommits
    · rw [hinv.refs] at hzero
      rw [held_none_of_count hzero hy] at hheld
      cases hheld

/-!
# Concrete runs
-/

def noAnswer : StreamAnswer := {}

def runs (t n : Nat) : List (Move StreamCall StreamAnswer) :=
  List.replicate n (Move.run t noAnswer)

/-- The thread {lit}`t` starts a session for a package of ten bytes. -/
def startsSession (t : Nat) (name : Option String) : List (Move StreamCall StreamAnswer) :=
  [Move.call (StreamCall.start "/data/a.pkg" name), Move.run t noAnswer,
    Move.run t { stream := some (10, none) }, Move.run t noAnswer]

/-- The sections of a stop before the stream is torn down. -/
def stopBegins (t : Nat) : List (Move StreamCall StreamAnswer) :=
  Move.call StreamCall.stop :: runs t 2

/-- The point of the thread {lit}`t`, the session around its next section, and
how many sessions had been started. -/
structure StopSight where
  point : StreamPoint
  before : StreamSession
  after : StreamSession
  sessions : Nat
deriving DecidableEq

def observeStop (console : Console) (t : Nat) (q : Pool StreamWorld StreamPoint) :
    Option StopSight :=
  match q.threads[t]? with
  | none => none
  | some x =>
      (streamStep console q.shared t noAnswer x).map
        (fun o =>
          { point := x, before := q.shared.ss, after := o.shared.ss
            sessions := q.shared.sessions.length })

theorem observeStop_some {console : Console} {t : Nat} {q : Pool StreamWorld StreamPoint}
    {s : StopSight} (h : observeStop console t q = some s) :
    q.threads[t]? = some s.point ∧ q.shared.ss = s.before ∧
      q.shared.sessions.length = s.sessions ∧
      exists o, streamStep console q.shared t noAnswer s.point = some o ∧
        o.shared.ss = s.after := by
  rw [observeStop] at h
  split at h
  · cases h
  · rename_i x hpoint
    rcases Option.map_eq_some_iff.mp h with ⟨o, hstep, hs⟩
    rw [← hs]
    exact ⟨hpoint, rfl, rfl, o, hstep, rfl⟩

theorem observedStop_run {console : Console}
    {ok : Pool StreamWorld StreamPoint -> Move StreamCall StreamAnswer -> Prop}
    [forall p l, Decidable (ok p l)] {t : Nat} {ls : List (Move StreamCall StreamAnswer)}
    {s : StopSight}
    (h : (execWhile (streamProgram console).system ok noThreads ls).bind
      (observeStop console t) = some s) :
    exists tr q o, Run (streamProgram console).system ok noThreads tr q ∧
      q.threads[t]? = some s.point ∧ q.shared.ss = s.before ∧
        q.shared.sessions.length = s.sessions ∧
          streamStep console q.shared t noAnswer s.point = some o ∧ o.shared.ss = s.after := by
  rcases Option.bind_eq_some_iff.mp h with ⟨q, hexec, hobs⟩
  rcases run_of_execWhile hexec with ⟨tr, _, hrun⟩
  rcases observeStop_some hobs with ⟨hpoint, hbefore, hsessions, o, hstep, hafter⟩
  exact ⟨tr, q, o, hrun, hpoint, hbefore, hsessions, hstep, hafter⟩

/-- The session of {lit}`startsSession`, from the stream of the given number. -/
def tenBytes (id : Nat) : VirtualStream where
  id := id
  totalPkgSize := 10
  smbUrl := none

def tenByteSession (id : Nat) (name : String) : StreamSession :=
  commitSession noSession (tenBytes id) (some name)

/-- A handler opens and releases the stream, and the session is stopped. -/
def quietStop : List (Move StreamCall StreamAnswer) :=
  startsSession 0 (some "a.pkg") ++ Move.call StreamCall.connect :: runs 1 2 ++ stopBegins 2

theorem stops_own_session_quiet :
    exists tr q o, Run (streamProgram Console.ps5).system QuietStarts noThreads tr q ∧
      q.threads[2]? = some (StreamPoint.stopSecond 1 AfterStop.returns) ∧
        streamStep Console.ps5 q.shared 2 noAnswer
          (StreamPoint.stopSecond 1 AfterStop.returns) = some o ∧
        q.shared.ss.vs = some (tenBytes 0) ∧ o.shared.ss.vs = none ∧
          forall y, y ∈ q.threads -> y.held ≠ some (tenBytes 0) := by
  have hobs : (execWhile (streamProgram Console.ps5).system QuietStarts noThreads
      quietStop).bind (observeStop Console.ps5 2) = some
        { point := StreamPoint.stopSecond 1 AfterStop.returns
          before := stopRunning (tenByteSession 0 "a.pkg"), after := noSession
          sessions := 1 } := by
    decide
  rcases observedStop_run hobs with ⟨tr, q, o, hrun, hpoint, hbefore, _, hstep, hafter⟩
  have hvs : q.shared.ss.vs = some (tenBytes 0) := by
    rw [hbefore]
    rfl
  have hnone : o.shared.ss.vs = none := by
    rw [hafter]
    rfl
  have hown := stops_own_session Console.ps5 tr q 2 noAnswer _ o 1 hrun hpoint rfl hstep
  refine ⟨tr, q, o, hrun, hpoint, hstep, hvs, hnone, hown.2 (tenBytes 0) hvs ?_⟩
  rw [hnone]
  exact (fun h => by cases h)

/-- The worker's stop and a cancel are both called, one of them finishes, and a
new session is started before the other one goes on. -/
def lateStop : List (Move StreamCall StreamAnswer) :=
  startsSession 0 (some "a.pkg") ++ stopBegins 1 ++ stopBegins 2 ++ runs 2 1 ++
    startsSession 3 (some "b.pkg")

theorem late_stop_closes :
    ¬ StopsOwnSession Console.ps5 (fun _ _ => True) noThreads := by
  intro hown
  have hobs : (execWhile (streamProgram Console.ps5).system (fun _ _ => True) noThreads
      lateStop).bind (observeStop Console.ps5 1) = some
        { point := StreamPoint.stopSecond 1 AfterStop.returns
          before := tenByteSession 1 "b.pkg"
          after := tearDown (tenByteSession 1 "b.pkg"), sessions := 2 } := by
    decide
  rcases observedStop_run hobs with ⟨tr, q, o, hrun, hpoint, hbefore, hsessions, hstep, hafter⟩
  have hlater : 1 < q.shared.sessions.length := by
    rw [hsessions]
    exact Nat.lt_succ_self 1
  have hsame := ((hown tr q 1 noAnswer _ o 1 hrun hpoint rfl hstep).1 hlater).vs
  rw [hafter, hbefore] at hsame
  cases hsame

end StreamServer
end PkgManager
