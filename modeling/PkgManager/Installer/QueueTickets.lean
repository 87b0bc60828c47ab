import PkgManager.Installer.Exclusion

/-!
# Where the queued packages are

A queued package is in the queue, or the thread that took it out holds it until
its start has a result.  Every section moves the entries between these places,
adds one with a fresh ticket, or lets one go.
-/

namespace PkgManager
namespace Installer

open Transition
open StreamServer (Console)

/-!
# The places of an entry
-/

/-- The entry that a start was made for. -/
def StartCall.hand (c : StartCall) : List QueueEntry :=
  match c.kind with
  | StartKind.queued e _ => [e]
  | _ => []

/-- The entry that a thread has taken out of the queue. -/
def InstallPoint.hand : InstallPoint -> List QueueEntry
  | InstallPoint.starting c _ => c.hand
  | InstallPoint.putBack e _ => [e]
  | _ => []

def places (p : Pool InstallWorld InstallPoint) : List QueueEntry :=
  p.shared.queue ++ p.threads.flatMap InstallPoint.hand

/-- The thread is about to put an entry back. -/
def putsBack (p : Pool InstallWorld InstallPoint) (t : Nat) : Bool :=
  match p.threads[t]? with
  | some (InstallPoint.putBack _ _) => true
  | _ => false

/-- No entry is put back into a queue that has filled up in the meantime. -/
def PutBackFindsRoom (p : Pool InstallWorld InstallPoint) :
    Move InstallCall InstallAnswer -> Prop
  | Move.call _ => True
  | Move.run t _ => putsBack p t = true -> p.shared.queue.length < queueMax

instance (p : Pool InstallWorld InstallPoint) (l : Move InstallCall InstallAnswer) :
    Decidable (PutBackFindsRoom p l) :=
  match l with
  | Move.call _ => isTrue trivial
  | Move.run t _ =>
      inferInstanceAs (Decidable (putsBack p t = true -> p.shared.queue.length < queueMax))

/-!
# What the sections do to the entries
-/

/-- The queue and what is known of its entries stay. -/
structure SameQueue (w w' : InstallWorld) : Prop where
  queue : w'.queue = w.queue
  tickets : w'.tickets = w.tickets
  waiting : w'.waiting = w.waiting

theorem sameQueue_rfl (w : InstallWorld) : SameQueue w w :=
  ⟨rfl, rfl, rfl⟩

theorem sameQueue_trans {w w' w'' : InstallWorld} (h : SameQueue w w') (h' : SameQueue w' w'') :
    SameQueue w w'' :=
  ⟨h'.queue.trans h.queue, h'.tickets.trans h.tickets, h'.waiting.trans h.waiting⟩

theorem sameQueue_startFrame {w w' : InstallWorld} (h : StartFrame w w') : SameQueue w w' := by
  rcases h.same with ⟨title, hw⟩
  rw [hw]
  exact ⟨rfl, rfl, rfl⟩

theorem sameQueue_cancel (w : InstallWorld) : SameQueue w (cancel w).1 := by
  unfold cancel
  split
  · exact sameQueue_rfl w
  · split <;> exact ⟨rfl, rfl, rfl⟩

theorem sameQueue_detach (w : InstallWorld) : SameQueue w (detach w).1 := by
  unfold detach
  split
  · exact sameQueue_rfl w
  · split <;> exact ⟨rfl, rfl, rfl⟩

theorem sameQueue_markFailedBase (w : InstallWorld) : SameQueue w (markFailedBase w) := by
  unfold markFailedBase
  dsimp only
  split <;> exact ⟨rfl, rfl, rfl⟩

theorem sameQueue_waitStep (w : InstallWorld) (part : Nat) (a : InstallAnswer) (k : WaitAt) :
    SameQueue w (waitStep w part a k).shared := by
  cases k <;> exact ⟨rfl, rfl, rfl⟩

theorem sameQueue_commits (c : StartCall) (console : Console) (w : InstallWorld)
    (a : InstallAnswer) (d : PkgDetail) (total : Nat) :
    SameQueue w (c.commits console w a d total) := by
  unfold StartCall.commits
  split <;> exact ⟨rfl, rfl, rfl⟩

/-- The entries are moved, one is added, a request joins one, one is let go with
the requests that wait in it, or one finds no room. -/
inductive QueueEffect (w : InstallWorld) (x : InstallPoint) (w' : InstallWorld)
    (y : InstallPoint) : Prop where
  | moves (hperm : (y.hand ++ w'.queue).Perm (x.hand ++ w.queue))
      (hlength : w'.queue.length ≤ max w.queue.length queueMax)
      (htickets : w'.tickets = w.tickets) (hwaiting : w'.waiting = w.waiting)
  | adds {e : QueueEntry} (hx : x.hand = []) (hy : y.hand = [])
      (hroom : w.queue.length < queueMax) (hticket : e.ticket = w.tickets)
      (hqueue : w'.queue = w.queue ++ [e]) (htickets : w'.tickets = w.tickets + 1)
      (hwaiting : w'.waiting = e :: w.waiting)
  | joins {e r : QueueEntry} (hx : x.hand = []) (hy : y.hand = []) (he : e ∈ w.queue)
      (hticket : e.ticket = r.ticket) (hpath : e.path = r.path) (hqueue : w'.queue = w.queue)
      (htickets : w'.tickets = w.tickets) (hwaiting : w'.waiting = r :: w.waiting)
  | leaves {e : QueueEntry} (hperm : (x.hand ++ w.queue).Perm (e :: (y.hand ++ w'.queue)))
      (hlength : w'.queue.length ≤ w.queue.length) (htickets : w'.tickets = w.tickets)
      (hwaiting : w'.waiting = w.waiting.filter (fun r => r.ticket != e.ticket))
  | drops {e : QueueEntry} {next : AfterQueue} (hx : x = InstallPoint.putBack e next)
      (hy : y.hand = []) (hfull : queueMax ≤ w.queue.length) (hsame : SameQueue w w')

section Sections

variable {console : Console} {p : Pool InstallWorld InstallPoint} {t : Nat} {a : InstallAnswer}
  {x y : InstallPoint} {w w' : InstallWorld} {o : Section InstallWorld InstallPoint}

theorem queueEffect_same (hsame : SameQueue w w') (hhand : y.hand = x.hand) :
    QueueEffect w x w' y := by
  refine QueueEffect.moves ?_ ?_ hsame.tickets hsame.waiting
  · rw [hhand, hsame.queue]
  · rw [hsame.queue]
    exact Nat.le_max_left _ _

theorem hand_afterQueue (next : AfterQueue) : next.point.hand = [] := by
  cases next <;> rfl

theorem hand_ite {c : Prop} [Decidable c] (hx : x.hand = []) (hy : y.hand = []) :
    (if c then x else y).hand = [] := by
  split
  · exact hx
  · exact hy

/-- The result of a start ends the custody of its entry, unless another install
was running. -/
theorem queueEffect_finish {c : StartCall} {k : StartAt} (hsame : SameQueue w w') (code : Int) :
    QueueEffect w (InstallPoint.starting c k) (c.finish w' code).shared
      (c.finish w' code).point := by
  have hstart : (InstallPoint.starting c k).hand = c.hand := rfl
  unfold StartCall.finish
  unfold StartCall.hand at hstart
  split
  · rename_i hkind
    rw [hkind] at hstart
    exact queueEffect_same hsame ((hand_ite rfl rfl).trans hstart.symm)
  · rename_i hkind
    rw [hkind] at hstart
    exact queueEffect_same hsame hstart.symm
  · rename_i e next hkind
    rw [hkind] at hstart
    split
    · exact queueEffect_same hsame hstart.symm
    · have hend : (if code = 0 then next.point else InstallPoint.nextQueued next).hand = [] :=
        hand_ite (hand_afterQueue next) rfl
      refine QueueEffect.leaves (e := e) ?_ ?_ hsame.tickets ?_
      · rw [hstart, hend]
        change ([e] ++ w.queue).Perm (e :: ([] ++ w'.queue))
        rw [hsame.queue]
        rfl
      · exact Nat.le_of_eq (congrArg List.length hsame.queue)
      · change w'.waiting.filter _ = _
        rw [hsame.waiting]
  · rename_i hkind
    rw [hkind] at hstart
    exact queueEffect_same hsame ((hand_ite rfl rfl).trans hstart.symm)

theorem queueEffect_start {c : StartCall} {k : StartAt}
    (heffect : StartEffect console p t c a k o) :
    QueueEffect p.shared (InstallPoint.starting c k) o.shared o.point := by
  cases heffect with
  | ends hk frame hcode => exact queueEffect_finish (sameQueue_startFrame frame) _
  | goesOn hk frame hk' => exact queueEffect_same (sameQueue_startFrame frame) rfl
  | joined hreturned => exact queueEffect_same (sameQueue_rfl _) rfl
  | takes hcreated hk' => exact queueEffect_same ⟨rfl, rfl, rfl⟩ rfl
  | starts hrefusal hstarts =>
      rename_i d total
      have hcommit : SameQueue p.shared
          (commitStarted (c.commits console p.shared a d total) p.threads.length) :=
        sameQueue_trans (sameQueue_commits c console p.shared a d total) ⟨rfl, rfl, rfl⟩
      exact queueEffect_finish hcommit 0
  | startFails hrefusal =>
      rename_i d total
      have hcommit : SameQueue p.shared (commitFailed (c.commits console p.shared a d total)) :=
        sameQueue_trans (sameQueue_commits c console p.shared a d total) ⟨rfl, rfl, rfl⟩
      exact queueEffect_finish hcommit (-12)

theorem queueFind_some {queue : List QueueEntry} {path : String} {e : QueueEntry}
    (h : queueFind queue path = some e) : e ∈ queue ∧ e.path = path :=
  ⟨List.mem_of_find?_eq_some h, by simpa using List.find?_some h⟩

theorem queueEffect_enqueue (path update : String) :
    QueueEffect p.shared (InstallPoint.enqueue path update)
      (enqueueStep p.shared path update).shared (enqueueStep p.shared path update).point := by
  unfold enqueueStep enqueue
  cases hfind : queueFind p.shared.queue path with
  | some e =>
      rcases queueFind_some hfind with ⟨he, hpath⟩
      exact QueueEffect.joins (r := { path := path, updatePath := update, ticket := e.ticket })
        rfl rfl he rfl hpath rfl rfl rfl
  | none =>
      dsimp only
      split
      · exact queueEffect_same (sameQueue_rfl _) rfl
      · split
        · exact queueEffect_same (sameQueue_rfl _) rfl
        · rename_i hroom
          exact QueueEffect.adds rfl (hand_ite rfl rfl) (Nat.lt_of_not_le hroom) rfl rfl rfl rfl

theorem queueEffect_nextQueued (next : AfterQueue) :
    QueueEffect p.shared (InstallPoint.nextQueued next) (nextQueuedStep p.shared next).shared
      (nextQueuedStep p.shared next).point := by
  unfold nextQueuedStep popQueued
  cases hqueue : p.shared.queue with
  | nil => exact queueEffect_same (sameQueue_rfl _) (hand_afterQueue next)
  | cons e rest =>
      dsimp only
      split
      · rename_i hpop
        split at hpop
        · cases hpop
        · cases hpop
          refine QueueEffect.moves ?_ ?_ rfl rfl
          · rw [hqueue]
            rfl
          · rw [hqueue, List.length_cons]
            exact Nat.le_trans (Nat.le_succ _) (Nat.le_max_left _ _)
      · rename_i hpop
        split at hpop
        · cases hpop
          exact queueEffect_same (sameQueue_rfl _) (hand_afterQueue next)
        · cases hpop

theorem queueEffect_putBack (e : QueueEntry) (next : AfterQueue) :
    QueueEffect p.shared (InstallPoint.putBack e next) (putBack p.shared e) next.point := by
  unfold putBack
  split
  · rename_i hroom
    refine QueueEffect.moves ?_ ?_ rfl rfl
    · rw [hand_afterQueue]
      rfl
    · exact Nat.le_trans hroom (Nat.le_max_right _ _)
  · rename_i hfull
    exact QueueEffect.drops rfl (hand_afterQueue next) (Nat.le_of_not_lt hfull) (sameQueue_rfl _)

theorem queueEffect_remove (path : String) (r : Int) :
    QueueEffect p.shared (InstallPoint.remove path) (installerQueueRemove p.shared path).1
      (InstallPoint.returned r) := by
  unfold installerQueueRemove
  cases hfind : queueFind p.shared.queue path with
  | none => exact queueEffect_same (sameQueue_rfl _) rfl
  | some e =>
      have hperm : p.shared.queue.Perm (e :: queueRemove p.shared.queue path) := by
        rcases List.find?_eq_some_iff_append.mp hfind with ⟨hpath, before, after, hsplit, hbefore⟩
        unfold queueRemove
        rw [hsplit, List.eraseP_append_right _ (fun b hb => by simpa using hbefore b hb),
          List.eraseP_cons_of_pos (p := fun e : QueueEntry => e.path == path) hpath]
        exact List.perm_middle
      refine QueueEffect.leaves (e := e) hperm ?_ rfl rfl
      exact List.length_eraseP_le

/-- Every section has one of the effects. -/
theorem queueEffect_step (hstep : installStep console p t a x = some o) :
    QueueEffect p.shared x o.shared o.point := by
  cases x with
  | starting c k => exact queueEffect_start (startEffect_step hstep)
  | enqueue path update =>
      cases hstep
      exact queueEffect_enqueue path update
  | nextQueued next =>
      cases hstep
      exact queueEffect_nextQueued next
  | putBack e next =>
      cases hstep
      exact queueEffect_putBack e next
  | remove path =>
      cases hstep
      exact queueEffect_remove path _
  | cancel =>
      cases hstep
      exact queueEffect_same (sameQueue_cancel _) (hand_ite rfl rfl)
  | cancelTearDown stage =>
      cases hstep
      cases stage <;> exact queueEffect_same (sameQueue_rfl _) rfl
  | detach =>
      cases hstep
      exact queueEffect_same (sameQueue_detach _) rfl
  | notifyBytes n =>
      cases hstep
      exact queueEffect_same ⟨rfl, rfl, rfl⟩ rfl
  | partChanged part =>
      cases hstep
      exact queueEffect_same ⟨rfl, rfl, rfl⟩ rfl
  | waiting part k =>
      cases hstep
      refine queueEffect_same (sameQueue_waitStep _ part a k) ?_
      cases k with
      | check ticks => exact hand_ite rfl rfl
      | _ => rfl
  | workerEnter =>
      cases hstep
      unfold workerEnterStep
      split <;> exact queueEffect_same (sameQueue_rfl _) rfl
  | worker k l =>
      cases hstep
      unfold workerSection
      split
      · exact queueEffect_same ⟨rfl, rfl, rfl⟩ rfl
      · exact queueEffect_same (sameQueue_rfl _) (hand_ite rfl rfl)
  | handoffFailed code =>
      cases hstep
      exact queueEffect_same ⟨rfl, rfl, rfl⟩ rfl
  | workerEnd =>
      cases hstep
      exact queueEffect_same (sameQueue_markFailedBase _) rfl
  | returned r => cases hstep

end Sections

/-!
# What a step does to the places
-/

/-- The step keeps the entries, adds one, lets one go, or finds no room for one. -/
inductive PlaceEffect (p q : Pool InstallWorld InstallPoint)
    (l : Move InstallCall InstallAnswer) : Prop where
  | keeps (hperm : (places q).Perm (places p)) (htickets : q.shared.tickets = p.shared.tickets)
      (hwaiting : forall r, r ∈ q.shared.waiting -> r ∈ p.shared.waiting ∨
        exists e, e ∈ places p ∧ e.ticket = r.ticket ∧ e.path = r.path)
  | adds {e : QueueEntry} (hperm : (places q).Perm (e :: places p))
      (hticket : e.ticket = p.shared.tickets)
      (htickets : q.shared.tickets = p.shared.tickets + 1)
      (hwaiting : q.shared.waiting = e :: p.shared.waiting)
  | leaves {e : QueueEntry} (hperm : (places p).Perm (e :: places q))
      (htickets : q.shared.tickets = p.shared.tickets)
      (hwaiting : q.shared.waiting = p.shared.waiting.filter (fun r => r.ticket != e.ticket))
  | drops {e : QueueEntry} (hperm : (places p).Perm (e :: places q))
      (htickets : q.shared.tickets = p.shared.tickets) (hfull : ¬ PutBackFindsRoom p l)

section Steps

variable {console : Console} {p q : Pool InstallWorld InstallPoint} {t : Nat}
  {a : InstallAnswer} {x : InstallPoint} {o : Section InstallWorld InstallPoint}

/-- The step exchanges what the queue and the hand of its thread hold. -/
theorem places_after (hpoint : p.threads[t]? = some x)
    (hcreated : forall y, y ∈ o.created -> y = InstallPoint.workerEnter) :
    (places (p.after t o) ++ (x.hand ++ p.shared.queue)).Perm
      (places p ++ (o.point.hand ++ o.shared.queue)) := by
  have hnew : o.created.toList.flatMap InstallPoint.hand = [] := by
    cases hc : o.created with
    | none => rfl
    | some y =>
        rw [hcreated y hc]
        rfl
  rw [List.perm_iff_count]
  intro e
  have hset := count_flatMap_set InstallPoint.hand e hpoint o.point
  unfold places Pool.after
  rw [List.flatMap_append, hnew, List.append_nil]
  simp only [List.count_append]
  omega

theorem placeEffect_run (hpoint : p.threads[t]? = some x)
    (hstep : installStep console p t a x = some o) :
    PlaceEffect p (p.after t o) (Move.run t a) := by
  have hplaces := places_after hpoint (fun y hy => created_step hpoint hstep hy)
  cases queueEffect_step hstep with
  | moves hperm hlength htickets hwaiting =>
      refine PlaceEffect.keeps ?_ htickets (fun r hr => Or.inl (hwaiting ▸ hr))
      exact (List.perm_append_right_iff _).mp (hplaces.trans (hperm.append_left _))
  | adds hx hy hroom hticket hqueue htickets hwaiting =>
      refine PlaceEffect.adds ?_ hticket htickets hwaiting
      rw [hx, hy, hqueue] at hplaces
      rw [List.perm_iff_count] at hplaces ⊢
      intro e
      have hcount := hplaces e
      simp only [List.count_append, List.count_nil, List.count_cons] at hcount ⊢
      omega
  | joins hx hy he hticket hpath hqueue htickets hwaiting =>
      refine PlaceEffect.keeps ?_ htickets ?_
      · rw [hx, hy, hqueue] at hplaces
        exact (List.perm_append_right_iff _).mp hplaces
      · intro r hr
        change r ∈ o.shared.waiting at hr
        rw [hwaiting] at hr
        rcases List.mem_cons.mp hr with hnew | hold
        · rw [hnew]
          exact Or.inr ⟨_, List.mem_append_left _ he, hticket, hpath⟩
        · exact Or.inl hold
  | leaves hperm hlength htickets hwaiting =>
      refine PlaceEffect.leaves ?_ htickets hwaiting
      rw [List.perm_iff_count] at hplaces hperm ⊢
      intro e
      have hcount := hplaces e
      have hleft := hperm e
      simp only [List.count_append, List.count_cons] at hcount hleft ⊢
      omega
  | drops hx hy hfull hsame =>
      rename_i e next
      refine PlaceEffect.drops (e := e) ?_ hsame.tickets ?_
      · rw [hx, hy, hsame.queue] at hplaces
        rw [List.perm_iff_count] at hplaces ⊢
        intro e
        have hcount := hplaces e
        simp only [InstallPoint.hand, List.count_append, List.count_cons, List.count_nil]
          at hcount ⊢
        omega
      · intro hroom
        have hback : putsBack p t = true := by
          rw [putsBack, hpoint, hx]
        exact absurd (hroom hback) (Nat.not_lt_of_le hfull)

theorem places_enter (c : InstallCall) : places (p.enter c.entry) = places p := by
  have hentry : c.entry.hand = [] := by
    cases c with
    | startBatch path update => exact hand_ite rfl rfl
    | _ => rfl
  unfold places Pool.enter
  rw [List.flatMap_append, List.flatMap_singleton, hentry, List.append_nil]

theorem queue_length_next {l : Move InstallCall InstallAnswer}
    (hlength : p.shared.queue.length ≤ queueMax)
    (hnext : (installProgram console).system.next p l = some q) :
    q.shared.queue.length ≤ queueMax := by
  cases l with
  | call c =>
      rw [next_call] at hnext
      cases hnext
      exact hlength
  | run t a =>
      rcases next_run hnext with ⟨x, o, hpoint, hstep, hq⟩
      rw [hq]
      change o.shared.queue.length ≤ queueMax
      cases queueEffect_step hstep with
      | moves hperm hle =>
          rw [Nat.max_eq_right hlength] at hle
          exact hle
      | adds hx hy hroom hticket hqueue =>
          rw [hqueue, List.length_append]
          exact hroom
      | joins hx hy he hticket hpath hqueue =>
          rw [hqueue]
          exact hlength
      | leaves hperm hle => exact Nat.le_trans hle hlength
      | drops hx hy hfull hsame =>
          rw [hsame.queue]
          exact hlength

theorem placeEffect_next {l : Move InstallCall InstallAnswer}
    (hnext : (installProgram console).system.next p l = some q) : PlaceEffect p q l := by
  cases l with
  | call c =>
      rw [next_call] at hnext
      cases hnext
      exact PlaceEffect.keeps (List.Perm.of_eq (places_enter c)) rfl (fun r hr => Or.inl hr)
  | run t a =>
      rcases next_run hnext with ⟨x, o, hpoint, hstep, hq⟩
      rw [hq]
      exact placeEffect_run hpoint hstep

end Steps

/-!
# Every run
-/

/-- The queue keeps its size, and no ticket is in two places. -/
structure TicketInv (p : Pool InstallWorld InstallPoint) : Prop where
  room : p.shared.queue.length ≤ queueMax
  apart : ((places p).map QueueEntry.ticket).Nodup
  given : forall e, e ∈ places p -> e.ticket < p.shared.tickets

theorem ticketInv_idle (localPrefixes : List String) : TicketInv (idleInstaller localPrefixes) :=
  ⟨Nat.zero_le _, List.nodup_nil, fun _ he => absurd he List.not_mem_nil⟩

theorem ticketInv_next {console : Console} {p q : Pool InstallWorld InstallPoint}
    {l : Move InstallCall InstallAnswer} (hinv : TicketInv p)
    (hnext : (installProgram console).system.next p l = some q) : TicketInv q := by
  have hroom := queue_length_next hinv.room hnext
  -- An entry that leaves takes its ticket along.
  have hrest : forall e, (places p).Perm (e :: places q) ->
      q.shared.tickets = p.shared.tickets -> TicketInv q := by
    intro e hperm htickets
    refine ⟨hroom, ?_, fun e' he' => ?_⟩
    · have hall := (hperm.map QueueEntry.ticket).nodup hinv.apart
      rw [List.map_cons] at hall
      exact hall.of_cons
    · rw [htickets]
      exact hinv.given e' (hperm.mem_iff.mpr (List.mem_cons_of_mem e he'))
  cases placeEffect_next hnext with
  | keeps hperm htickets hwaiting =>
      refine ⟨hroom, (hperm.map QueueEntry.ticket).nodup_iff.mpr hinv.apart, fun e he => ?_⟩
      rw [htickets]
      exact hinv.given e (hperm.mem_iff.mp he)
  | adds hperm hticket htickets hwaiting =>
      rename_i e
      refine ⟨hroom, ?_, fun e' he' => ?_⟩
      · rw [(hperm.map QueueEntry.ticket).nodup_iff, List.map_cons, List.nodup_cons]
        refine ⟨fun hin => ?_, hinv.apart⟩
        rcases List.mem_map.mp hin with ⟨e', he', hsame⟩
        have hlt := hinv.given e' he'
        rw [hsame, hticket] at hlt
        exact absurd hlt (Nat.lt_irrefl _)
      · rw [htickets]
        rcases List.mem_cons.mp (hperm.mem_iff.mp he') with hnew | hold
        · rw [hnew, hticket]
          exact Nat.lt_succ_self _
        · exact Nat.lt_succ_of_lt (hinv.given e' hold)
  | leaves hperm htickets hwaiting => exact hrest _ hperm htickets
  | drops hperm htickets hfull => exact hrest _ hperm htickets

theorem queued_once (console : Console) (localPrefixes : List String)
    {tr : List (Pool InstallWorld InstallPoint × Move InstallCall InstallAnswer)}
    {q : Pool InstallWorld InstallPoint}
    (hrun : Run (installProgram console).system (fun _ _ => True) (idleInstaller localPrefixes)
      tr q) :
    q.shared.queue.length ≤ queueMax ∧ ((places q).map QueueEntry.ticket).Nodup := by
  have hinv : TicketInv q :=
    run_invariant (fun hinv _ hnext => ticketInv_next hinv hnext) hrun
      (ticketInv_idle localPrefixes)
  exact ⟨hinv.room, hinv.apart⟩

/-- Every request that waits has an entry for its package. -/
def RequestsHeld (p : Pool InstallWorld InstallPoint) : Prop :=
  forall r, r ∈ p.shared.waiting ->
    exists e, e ∈ places p ∧ e.ticket = r.ticket ∧ e.path = r.path

theorem requestsHeld_next {console : Console} {p q : Pool InstallWorld InstallPoint}
    {l : Move InstallCall InstallAnswer} (hheld : RequestsHeld p) (hok : PutBackFindsRoom p l)
    (hnext : (installProgram console).system.next p l = some q) : RequestsHeld q := by
  intro r hr
  cases placeEffect_next hnext with
  | keeps hperm htickets hwaiting =>
      have hfound : exists e, e ∈ places p ∧ e.ticket = r.ticket ∧ e.path = r.path := by
        rcases hwaiting r hr with hold | hjoined
        · exact hheld r hold
        · exact hjoined
      rcases hfound with ⟨e, he, hsame⟩
      exact ⟨e, hperm.mem_iff.mpr he, hsame⟩
  | adds hperm hticket htickets hwaiting =>
      rw [hwaiting] at hr
      rcases List.mem_cons.mp hr with hnew | hold
      · exact ⟨r, hperm.mem_iff.mpr (hnew ▸ List.mem_cons_self), rfl, rfl⟩
      · rcases hheld r hold with ⟨e, he, hsame⟩
        exact ⟨e, hperm.mem_iff.mpr (List.mem_cons_of_mem _ he), hsame⟩
  | leaves hperm htickets hwaiting =>
      rename_i gone
      rw [hwaiting, List.mem_filter] at hr
      rcases hheld r hr.1 with ⟨e, he, hticket, hpath⟩
      refine ⟨e, ?_, hticket, hpath⟩
      rcases List.mem_cons.mp (hperm.mem_iff.mp he) with hgone | hstays
      · rw [← hticket, hgone] at hr
        simp at hr
      · exact hstays
  | drops hperm htickets hfull => exact absurd hok hfull

theorem queued_requests_held (console : Console) (localPrefixes : List String)
    {tr : List (Pool InstallWorld InstallPoint × Move InstallCall InstallAnswer)}
    {q : Pool InstallWorld InstallPoint}
    (hrun : Run (installProgram console).system PutBackFindsRoom (idleInstaller localPrefixes)
      tr q) :
    RequestsHeld q :=
  run_invariant (fun hheld hok hnext => requestsHeld_next hheld hok hnext) hrun
    (fun _ hr => absurd hr List.not_mem_nil)

/-!
# A concrete run
-/

/-- The second package waits, until the worker of the first one has ended and takes
it out of the queue. -/
def takesQueued : List (Move InstallCall InstallAnswer) :=
  commitsInstall 0 "/data/a.pkg" ++
    Move.call (InstallCall.start "/data/b.pkg") :: runs 2 2 ++
      runs 1 2 ++ [Move.run 1 { streamStarts := false }] ++ runs 1 4

/-- The requests that wait, the queue, and the places. -/
structure QueueSight where
  waiting : List QueueEntry
  queue : Nat
  places : Nat
deriving DecidableEq

def observeQueue (q : Pool InstallWorld InstallPoint) : QueueSight where
  waiting := q.shared.waiting
  queue := q.shared.queue.length
  places := (places q).length

def waitingRequest : QueueEntry where
  path := "/data/b.pkg"
  updatePath := ""
  ticket := 0

theorem observedQueue (ok : Pool InstallWorld InstallPoint ->
      Move InstallCall InstallAnswer -> Prop) [forall p l, Decidable (ok p l)]
    (h : (execWhile (installProgram Console.ps5).system ok (idleInstaller []) takesQueued).map
      observeQueue = some { waiting := [waitingRequest], queue := 0, places := 1 }) :
    exists tr q, Run (installProgram Console.ps5).system ok (idleInstaller []) tr q ∧
      observeQueue q = { waiting := [waitingRequest], queue := 0, places := 1 } := by
  rcases Option.map_eq_some_iff.mp h with ⟨q, hexec, hobs⟩
  rcases run_of_execWhile hexec with ⟨tr, _, hrun⟩
  exact ⟨tr, q, hrun, hobs⟩

theorem queued_once_taken :
    exists tr q, Run (installProgram Console.ps5).system (fun _ _ => True) (idleInstaller [])
        tr q ∧
      (places q).length = 1 ∧ q.shared.queue.length ≤ queueMax ∧
        ((places q).map QueueEntry.ticket).Nodup := by
  rcases observedQueue (fun _ _ => True) (by decide) with ⟨tr, q, hrun, hsight⟩
  exact ⟨tr, q, hrun, congrArg QueueSight.places hsight, queued_once Console.ps5 [] hrun⟩

theorem queued_request_held_taken :
    exists tr q, Run (installProgram Console.ps5).system PutBackFindsRoom (idleInstaller [])
        tr q ∧
      q.shared.queue.length = 0 ∧
        exists e, e ∈ places q ∧ e.ticket = 0 ∧ e.path = "/data/b.pkg" := by
  rcases observedQueue PutBackFindsRoom (by decide) with ⟨tr, q, hrun, hsight⟩
  have hwaits : waitingRequest ∈ q.shared.waiting := by
    rw [show q.shared.waiting = [waitingRequest] from congrArg QueueSight.waiting hsight]
    exact List.mem_singleton.mpr rfl
  exact ⟨tr, q, hrun, congrArg QueueSight.queue hsight,
    queued_requests_held Console.ps5 [] hrun waitingRequest hwaits⟩

end Installer
end PkgManager
