import Mathlib.Data.List.Count
import Mathlib.Data.List.Perm.Basic
import Mathlib.Data.List.Range
import PkgManager.Http.Connections

/-!
# The accounts of the connections

Every program gives up what it holds.  So however the threads take turns, a connection stands at
one place until it is closed, and the counter tells how many there are.
-/

namespace PkgManager
namespace Connections

open CString
open Http
open PkgManager.Parser
open Transition

/-!
# Programs that give up what they hold
-/

/-- The program, started with these connections in its locals and with what it has under a lock,
ends with nothing. -/
def Owns : Prog -> List Nat -> Option (Nat × Stream) -> Prop
  | .stop, held, slot => held = [] ∧ slot = none
  | .ask k, held, slot => forall a, Owns (k a) held slot
  | .acquire k, held, slot =>
      Owns (k none) held slot ∧ forall id, Owns (k (some id)) (id :: held) slot
  | .release id k, held, slot => id ∈ held ∧ Owns k (held.erase id) slot
  | .close c k, held, slot => c.id ∈ held ∧ Owns k (held.erase c.id) slot
  | .look _ k, held, slot => forall v, Owns (k v) held slot
  | .setUrl _ _ _ k, held, slot => Owns k held slot
  | .setResilient _ _ k, held, slot => Owns k held slot
  | .take _ k, held, slot =>
      Owns (k none) held slot ∧ forall c, Owns (k (some c)) (c.id :: held) slot
  | .give _ c k, held, slot =>
      c.id ∈ held ∧ Owns (k true) (held.erase c.id) slot ∧ Owns (k false) held slot
  | .lockStream s k, held, slot => slot = none ∧ forall st, Owns (k st) held (some (s, st))
  | .setStream st k, held, slot => exists s old, slot = some (s, old) ∧
      (forall c, st.conn = some c -> c.id ∈ old.ids ++ held) ∧
        Owns k ((old.ids ++ held).diff st.ids) (some (s, st))
  | .unlockStream k, held, slot => slot.isSome = true ∧ Owns k held none
  | .create _ k, held, slot => forall s, Owns (k s) held slot
  | .dissolve _ k, held, slot =>
      forall idle st, Owns (k idle st) (idle.map Conn.id ++ st.ids ++ held) slot

section Programs

variable {slot : Option (Nat × Stream)} {b : Build}

theorem erase_own (id : Nat) : [id].erase id = [] :=
  List.erase_cons_head id []

theorem owns_close {c : Conn} {k : Prog} (hk : Owns k [] slot) :
    Owns (.close c k) [c.id] slot := by
  refine ⟨List.mem_singleton.mpr rfl, ?_⟩
  rw [erase_own]
  exact hk

theorem owns_closeIf {k : Prog} (hk : Owns k [] slot) (c : Option Conn) :
    Owns (closeIf c k) (ids c) slot := by
  cases c with
  | none => exact hk
  | some c => exact owns_close hk

theorem owns_closeEach {k : Prog} {held : List Nat} (hk : Owns k held slot) (cs : List Conn) :
    Owns (closeEach cs k) (cs.map Conn.id ++ held) slot := by
  induction cs with
  | nil => exact hk
  | cons c rest ih =>
      refine ⟨List.mem_cons_self, ?_⟩
      rw [List.map_cons, List.cons_append, List.erase_cons_head]
      exact ih

theorem owns_connOpen {u : HttpUrl} {k : Option Conn -> Prog}
    (hk : forall c, Owns (k c) (ids c) slot) : Owns (connOpen b u k) [] slot := by
  unfold connOpen
  split
  · exact hk none
  · refine ⟨hk none, fun id a => ?_⟩
    dsimp only
    split
    · refine ⟨List.mem_singleton.mpr rfl, ?_⟩
      rw [erase_own]
      exact hk none
    · split
      · exact owns_close (hk none)
      · exact hk (some _)

theorem owns_sessionGive {k : Prog} (hk : Owns k [] slot) (s : Nat) (c : Option Conn) :
    Owns (sessionGive s c k) (ids c) slot := by
  cases c with
  | none => exact hk
  | some c =>
      unfold sessionGive
      dsimp only
      split
      · refine ⟨List.mem_singleton.mpr rfl, ?_, owns_close hk⟩
        change Owns k ([c.id].erase c.id) slot
        rw [erase_own]
        exact hk
      · exact owns_close hk

theorem owns_dropUnusable {u : HttpUrl} {k : Option Conn -> Prog}
    (hk : forall c, Owns (k c) (ids c) slot) (c : Option Conn) :
    Owns (dropUnusable c u k) (ids c) slot := by
  cases c with
  | none => exact hk none
  | some c =>
      unfold dropUnusable
      dsimp only
      split
      · exact hk (some c)
      · exact owns_close (hk none)

theorem owns_connFor {u : HttpUrl} {k : Option Conn -> Prog}
    (hk : forall c, Owns (k c) (ids c) slot) (c : Option Conn) :
    Owns (connFor b c u k) (ids c) slot := by
  cases c with
  | none => exact owns_connOpen hk
  | some c => exact hk (some c)

theorem dead_id (c : Conn) (q : Prop) [Decidable q] : (if q then c.dead else c).id = c.id := by
  split
  · rfl
  · rfl

theorem owns_httpReadBody {c : Conn} {r : Resp} {isHead wantsOut : Bool}
    {k : Int -> Conn -> Nat -> Prog}
    (hk : forall rc c' len, c'.id = c.id -> Owns (k rc c' len) [c.id] slot) :
    Owns (httpReadBody c r isHead wantsOut k) [c.id] slot := by
  unfold httpReadBody
  split
  · exact hk 0 c 0 rfl
  · intro a
    dsimp only
    split
    · exact hk _ _ _ (dead_id c _)
    · exact hk _ _ _ rfl
    · split
      · exact hk _ _ _ (dead_id c _)
      · exact hk _ _ _ rfl
    · split
      · exact hk _ _ _ (dead_id c _)
      · exact hk _ _ _ (dead_id c _)

theorem owns_readPart {c : Conn} {r : Resp} {o : FetchOpts} {k : Int -> Conn -> Resp -> Prog}
    (hk : forall rc c' r', c'.id = c.id -> Owns (k rc c' r') [c.id] slot) :
    Owns (readPart c r o k) [c.id] slot := by
  unfold readPart
  split
  · dsimp only
    split
    · exact hk _ _ _ rfl
    · split
      · exact hk _ _ _ rfl
      · split
        · exact owns_httpReadBody (fun rc c' len hid => hk rc c' _ hid)
        · intro a
          exact hk _ _ _ (dead_id c _)
  · exact owns_httpReadBody (fun rc c' len hid => hk rc c' r hid)

/-- Whatever the network does, the variable holds the only connection when the request is over. -/
theorem owns_fetchOn {u : HttpUrl} {o : FetchOpts} {k : Int -> Option Conn -> Resp -> Prog}
    (hk : forall st pc r, Owns (k st pc r) (ids pc) slot) (attempts : Nat) (pc : Option Conn) :
    Owns (fetchOn b u o attempts pc k) (ids pc) slot := by
  induction attempts generalizing pc with
  | zero => exact hk (-1) pc {}
  | succ attempts ih =>
      unfold fetchOn
      apply owns_dropUnusable
      intro kept
      apply owns_connFor
      intro c
      cases c with
      | none => exact hk (-1) none {}
      | some c =>
          intro a
          dsimp only
          split
          · apply owns_close
            split
            · exact ih none
            · exact hk (-1) none {}
          · apply owns_readPart
            intro rc c' r' hid
            have hkept := (dead_id c' (r'.connClose = true)).trans hid
            generalize (if r'.connClose = true then c'.dead else c') = c'' at hkept
            rw [<- hkept]
            split
            · exact owns_close (hk (-1) none r')
            · split
              · exact hk r'.status (some _) r'
              · exact owns_close (hk r'.status none r')

theorem owns_httpFetch {o : FetchOpts} {k : Fetched -> Prog}
    (hk : forall got, Owns (k got) (ids got.pc) slot) (left : Nat) (cur : Text)
    (pc : Option Conn) : Owns (httpFetch b o left cur pc k) (ids pc) slot := by
  induction left generalizing cur pc with
  | zero => exact hk _
  | succ left ih =>
      unfold httpFetch
      split
      · exact hk _
      · apply owns_fetchOn
        intro st pc' r
        split
        · exact hk _
        · split
          · split
            · exact hk _
            · exact ih _ pc'
          · exact hk _

theorem owns_rangeProbe {url : Text} {k : Int -> Fetched -> Prog}
    (hk : forall rp got, Owns (k rp got) (ids got.pc) slot) (pc : Option Conn) :
    Owns (rangeProbe b url pc k) (ids pc) slot := by
  unfold rangeProbe fetchUrl
  apply owns_httpFetch
  intro got
  exact hk _ got

theorem owns_stop : Owns .stop [] none :=
  ⟨rfl, rfl⟩

theorem owns_stat (url : Text) : Owns (httpSourceStat b url) [] none := by
  intro a
  dsimp only
  split
  · exact owns_stop
  · refine owns_httpFetch (fun got => ?_) hops _ none
    split
    · exact owns_closeIf owns_stop got.pc
    · split
      · exact owns_rangeProbe (fun _ got' => owns_closeIf owns_stop got'.pc) got.pc
      · exact owns_closeIf owns_stop got.pc

theorem owns_pread (url : Text) (count offset : Nat) :
    Owns (httpSourcePread b url count offset) [] none := by
  unfold httpSourcePread
  split
  · exact owns_stop
  · exact owns_httpFetch (fun got => owns_closeIf owns_stop got.pc) hops _ none

theorem owns_scanRun {k : Option Conn -> Prog} (hk : forall pc, Owns (k pc) (ids pc) slot)
    (listings : Nat) (pc : Option Conn) : Owns (scanRun b listings pc k) (ids pc) slot := by
  induction listings generalizing pc with
  | zero => exact hk pc
  | succ listings ih =>
      intro a
      dsimp only
      split
      · exact hk pc
      · exact owns_httpFetch (fun got => ih got.pc) hops _ pc

theorem owns_test (u : HttpUrl) (listings : Nat) : Owns (httpSourceTest b u listings) [] none := by
  unfold httpSourceTest
  dsimp only
  split
  · exact owns_stop
  · split
    on_goal 1 => refine owns_connOpen (fun probe => owns_closeIf ?_ probe)
    -- With and without the first probe the listing goes the same way.
    all_goals
      refine owns_scanRun (fun pc => ?_) listings none
      apply owns_closeIf
      intro a
      dsimp only
      split
      · exact owns_stop
      · exact owns_rangeProbe (fun _ got => owns_closeIf owns_stop got.pc) none

theorem owns_sessionOpen (url : Text) : Owns (httpFileSessionOpen b url) [] none := by
  unfold httpFileSessionOpen
  refine owns_rangeProbe (fun rp got => ?_) none
  intro a
  dsimp only
  split
  · split
    · exact fun s => owns_sessionGive owns_stop s got.pc
    · exact owns_closeIf owns_stop got.pc
  · exact owns_closeIf owns_stop got.pc

theorem owns_sessionRefresh {k : Int -> Prog} (hk : forall rr, Owns (k rr) [] slot)
    (s seen : Nat) : Owns (sessionRefresh b s seen k) [] slot := by
  intro v
  dsimp only
  split
  · exact hk 0
  · refine owns_rangeProbe (fun rp got => ?_) none
    split
    · split
      · exact owns_sessionGive (hk 0) s got.pc
      · exact owns_closeIf (hk _) got.pc
    · exact owns_closeIf (hk _) got.pc

theorem owns_take {k : Option Conn -> Prog} (hk : forall c, Owns (k c) (ids c) slot) (s : Nat) :
    Owns (.take s k) [] slot :=
  ⟨hk none, fun c => hk (some c)⟩

theorem owns_readDirect (s count offset turns refreshes : Nat) :
    Owns (sessionReadDirect b s count offset turns refreshes) [] none := by
  induction turns generalizing refreshes with
  | zero => exact owns_stop
  | succ turns ih =>
      have hagain : forall v : View, forall n : Nat, Owns (Prog.ask (fun a =>
          if ¬v.resilient ∨ a.canceling ∨ a.expired then .stop
          else sessionReadDirect b s count offset turns n)) [] none := by
        intro v n a
        dsimp only
        split
        · exact owns_stop
        · exact ih n
      intro v
      dsimp only
      split
      · exact owns_stop
      · apply owns_take
        intro c
        apply owns_fetchOn
        intro st c' r
        apply owns_sessionGive
        split
        · exact owns_stop
        · split
          · split
            · exact owns_stop
            · apply owns_sessionRefresh
              intro rr
              split
              · exact ih (refreshes + 1)
              · split
                · exact owns_stop
                · exact hagain v (refreshes + 1)
          · split
            · exact hagain v refreshes
            · exact owns_stop

theorem owns_streamDrop {k : Prog} {s : Nat} (hk : Owns k [] (some (s, noStream))) (st : Stream) :
    Owns (streamDrop st k) [] (some (s, st)) := by
  refine ⟨s, st, rfl, (fun c hc => by cases hc), ?_⟩
  change Owns (closeIf st.conn k) ((ids st.conn ++ []).diff []) (some (s, noStream))
  rw [List.append_nil, List.diff_nil]
  exact owns_closeIf hk st.conn

theorem owns_unlock {k : Prog} {x : Nat × Stream} (hk : Owns k [] none) :
    Owns (.unlockStream k) [] (some x) :=
  ⟨rfl, hk⟩

theorem owns_streamOpen {u : HttpUrl} {s : Nat} {k : Option Stream -> Prog} {offset : Nat}
    (hopened : forall st, Owns (k (some st)) [] (some (s, st)))
    (hk : Owns (k none) [] (some (s, noStream))) (attempts : Nat) (c : Option Conn) :
    Owns (streamOpen b u offset attempts c k) (ids c) (some (s, noStream)) := by
  induction attempts generalizing c with
  | zero => exact owns_closeIf hk c
  | succ attempts ih =>
      unfold streamOpen
      apply owns_dropUnusable
      intro kept
      apply owns_connFor
      intro c
      cases c with
      | none => exact hk
      | some c =>
          intro a
          dsimp only
          split
          · apply owns_close
            split
            · exact ih none
            · exact hk
          · rename_i r _
            split
            · exact owns_close hk
            · have hkept := dead_id c (r.connClose = true)
              generalize (if r.connClose = true then c.dead else c) = c' at hkept
              refine ⟨s, noStream, rfl, ?_, ?_⟩
              · intro c'' hc''
                cases hc''
                exact List.mem_singleton.mpr hkept
              · change Owns _ ([c.id].diff [c'.id]) _
                rw [hkept, List.diff_cons, erase_own, List.diff_nil]
                exact hopened _

theorem owns_deliver {s : Nat} (count offset turns : Nat) (st : Stream) :
    Owns (deliver b s count offset turns st) [] (some (s, st)) := by
  intro a
  dsimp only
  split
  · exact owns_streamDrop (owns_unlock (owns_readDirect s count offset turns 0)) st
  · split
    · refine ⟨s, st, rfl, (fun c hc => by cases hc), ?_⟩
      change Owns (sessionGive s st.conn _) ((ids st.conn ++ []).diff []) _
      rw [List.append_nil, List.diff_nil]
      exact owns_sessionGive (owns_unlock owns_stop) s st.conn
    · refine ⟨s, st, rfl, ?_, ?_⟩
      · intro c hc
        change c.id ∈ ids st.conn ++ []
        rw [show st.conn = some c from hc]
        exact List.mem_singleton.mpr rfl
      · change Owns _ ((ids st.conn ++ []).diff (ids st.conn)) _
        have hnone : (ids st.conn ++ []).diff (ids st.conn) = [] := by
          rw [List.append_nil]
          cases st.conn with
          | none => rfl
          | some c =>
              change [c.id].diff [c.id] = []
              rw [List.diff_cons, erase_own, List.diff_nil]
        rw [hnone]
        exact owns_unlock owns_stop

theorem owns_readStreaming (s count offset turns : Nat) :
    Owns (sessionReadStreaming b s count offset turns) [] none := by
  intro v
  dsimp only
  split
  · exact owns_stop
  · refine ⟨rfl, fun st => ?_⟩
    dsimp only
    split
    · exact owns_deliver _ offset turns st
    · apply owns_streamDrop
      intro v'
      apply owns_take
      intro c
      apply owns_streamOpen
      · exact fun st' => owns_deliver _ offset turns st'
      · exact owns_unlock (owns_readDirect s _ offset turns 0)

theorem owns_sessionClose (s : Nat) : Owns (httpFileSessionClose s) [] none := by
  intro idle st
  have hstream : Owns (closeIf st.conn .stop) (ids st.conn) none := owns_closeIf owns_stop st.conn
  have heach := owns_closeEach hstream idle
  rw [List.append_nil]
  exact heach

/-- Whatever is called gives up the connections that it gets. -/
theorem owns_call (b : Build) (c : Call) : Owns (c.prog b) [] none := by
  cases c with
  | stat url => exact owns_stat url
  | pread url count offset => exact owns_pread url count offset
  | scan listings => exact owns_scanRun (fun pc => owns_closeIf owns_stop pc) listings none
  | test u listings => exact owns_test u listings
  | sessionOpen url => exact owns_sessionOpen url
  | setResilient s resilient => exact owns_stop
  | read s count offset turns =>
      intro v
      dsimp only
      split
      · exact owns_readStreaming s count offset turns
      · exact owns_readDirect s count offset turns 0
  | sessionClose s => exact owns_sessionClose s

end Programs

/-!
# Where the connections stand
-/

def slotIds : Option (Nat × Stream) -> List Nat
  | none => []
  | some (_, st) => st.ids

/-- The connections in the locals of a thread, and in the stream that it has under a lock. -/
def Thread.holds (x : Thread) : List Nat :=
  x.held ++ slotIds x.slot

def streamIds : Option Stream -> List Nat
  | none => []
  | some st => st.ids

/-- The connections in the pool and in the stream of a session. -/
def Session.holds (s : Session) : List Nat :=
  s.idle.map Conn.id ++ streamIds s.stream

def sessionHolds : Option Session -> List Nat
  | none => []
  | some s => s.holds

def holders (p : Pool Net Thread) : List Nat :=
  p.threads.flatMap Thread.holds ++ p.shared.sessions.flatMap sessionHolds

/-- How often a connection stands in the globals. -/
def Net.countOf (w : Net) (c : Nat) : Nat :=
  (w.sessions.flatMap sessionHolds).count c + w.closed.count c + w.released.count c

/-- What a step does to the accounts. -/
structure Moves (b : Build) (w w' : Net) (x x' : Thread) : Prop where
  owners : forall c, x'.holds.count c + w'.countOf c + (List.range w.next).count c =
    x.holds.count c + w.countOf c + (List.range w'.next).count c
  live : w'.live + w'.closed.length + w'.released.length + w.next =
    w.live + w.closed.length + w.released.length + w'.next
  cap : w.live ≤ b.maxLive -> w'.live ≤ b.maxLive
  owns : Owns x'.prog x'.held x'.slot

section Step

variable {b : Build} {w : Net} {x : Thread}

theorem moves_go {k : Prog} (hk : Owns k x.held x.slot) : Moves b w w x (x.go k) :=
  ⟨fun _ => rfl, rfl, id, hk⟩

theorem count_erase_own {id : Nat} {held : List Nat} (h : id ∈ held) (c : Nat) :
    (held.erase id).count c + [id].count c = held.count c := by
  have hperm := (List.perm_cons_erase h).count_eq c
  rw [<- List.singleton_append, List.count_append] at hperm
  omega

theorem count_holds (x : Thread) (c : Nat) :
    x.holds.count c = x.held.count c + (slotIds x.slot).count c :=
  List.count_append

theorem session_eq {s : Nat} {session : Session} (h : w.session s = some session) :
    w.sessions[s]? = some (some session) := by
  unfold Net.session at h
  cases hs : w.sessions[s]? with
  | none =>
      rw [hs] at h
      cases h
  | some place =>
      rw [hs] at h
      exact congrArg some h

/-- A change of a session changes the globals by what the session gains and loses. -/
theorem countOf_setSession {s : Nat} {session : Session} (h : w.session s = some session)
    (new : Option Session) (c : Nat) :
    (w.setSession s new).countOf c + session.holds.count c =
      w.countOf c + (sessionHolds new).count c := by
  have hset := count_flatMap_set sessionHolds c (session_eq h) new
  change _ + session.holds.count c = _ at hset
  change ((w.sessions.set s new).flatMap sessionHolds).count c + w.closed.count c +
    w.released.count c + _ = _
  unfold Net.countOf
  omega

/-- A step that changes a session and the thread. -/
theorem moves_session {s : Nat} {session : Session} (h : w.session s = some session)
    {new : Option Session} {x' : Thread}
    (hcount : forall c, x'.holds.count c + (sessionHolds new).count c =
      x.holds.count c + session.holds.count c)
    (howns : Owns x'.prog x'.held x'.slot) : Moves b w (w.setSession s new) x x' where
  owners c := by
    have hset := countOf_setSession h new c
    have hmoved := hcount c
    change _ + _ + (List.range w.next).count c = _ + _ + (List.range w.next).count c
    omega
  live := rfl
  cap := id
  owns := howns

theorem count_holds_idle (s : Session) (c : Nat) :
    s.holds.count c = (s.idle.map Conn.id).count c + (streamIds s.stream).count c :=
  List.count_append

theorem count_dropLast {cs : List Conn} {c : Conn} (h : cs.getLast? = some c) (n : Nat) :
    (cs.map Conn.id).count n = (cs.dropLast.map Conn.id).count n + [c.id].count n := by
  have hcs : cs.dropLast ++ [c] = cs := List.dropLast_append_getLast? c h
  conv_lhs => rw [<- hcs]
  rw [List.map_append, List.count_append]
  rfl

/-- A step that ends a connection. -/
theorem moves_ends {w' : Net} {id : Nat} {k : Prog} (hid : id ∈ x.held)
    (howns : Owns k (x.held.erase id) x.slot) (hpos : 0 < w.live) (hlive : w'.live = w.live - 1)
    (hsessions : w'.sessions = w.sessions) (hnext : w'.next = w.next)
    (hended : (w'.closed ++ w'.released).Perm (id :: (w.closed ++ w.released))) :
    Moves b w w' x { x with prog := k, held := x.held.erase id } where
  owners c := by
    have herase := count_erase_own hid c
    have hcount := hended.count_eq c
    rw [<- List.singleton_append, List.count_append, List.count_append, List.count_append] at hcount
    rw [count_holds, count_holds, Net.countOf, Net.countOf, hsessions, hnext]
    dsimp only
    omega
  live := by
    have hlen := hended.length_eq
    rw [List.length_cons, List.length_append, List.length_append] at hlen
    rw [hlive, hnext]
    omega
  cap hcap := by
    rw [hlive]
    exact (Nat.sub_le _ 1).trans hcap
  owns := howns

theorem moves_acquire {k : Prog} (hlt : w.live < b.maxLive)
    (hk : Owns k (w.next :: x.held) x.slot) :
    Moves b w { w with live := w.live + 1, next := w.next + 1 } x
      { x with prog := k, held := w.next :: x.held } where
  owners c := by
    rw [count_holds, count_holds]
    change (w.next :: x.held).count c + _ + w.countOf c + _ =
      _ + _ + w.countOf c + (List.range (w.next + 1)).count c
    rw [List.range_succ, List.count_append, <- List.singleton_append, List.count_append]
    dsimp only
    omega
  live := by
    change w.live + 1 + w.closed.length + w.released.length + w.next =
      w.live + w.closed.length + w.released.length + (w.next + 1)
    omega
  cap _ := hlt
  owns := hk

theorem perm_closed (closed released : List Nat) (id : Nat) :
    (closed ++ [id] ++ released).Perm (id :: (closed ++ released)) := by
  rw [List.append_assoc, List.singleton_append]
  exact List.perm_middle

theorem perm_released (closed released : List Nat) (id : Nat) :
    (closed ++ (released ++ [id])).Perm (id :: (closed ++ released)) := by
  rw [<- List.append_assoc]
  exact List.perm_append_singleton id _

/-- What a variable takes over is taken from the rest. -/
theorem count_diff_ids {c : Option Conn} {held : List Nat}
    (h : forall conn, c = some conn -> conn.id ∈ held) (n : Nat) :
    (held.diff (ids c)).count n + (ids c).count n = held.count n := by
  cases c with
  | none => exact congrArg (fun l : List Nat => l.count n) (List.diff_nil held)
  | some conn =>
      change (held.diff [conn.id]).count n + [conn.id].count n = _
      rw [List.diff_cons, List.diff_nil]
      exact count_erase_own (h conn rfl) n

theorem stepAt_moves {p : Pool Net Thread} {t : Nat} {a : Answer} {w' : Net} {x' : Thread}
    (howns : Owns x.prog x.held x.slot) (hpos : x.held ≠ [] -> 0 < p.shared.live)
    (hstep : stepAt b p t x a = some (w', x')) : Moves b p.shared w' x x' := by
  rcases x with ⟨prog, session, held, slot⟩
  have hheld : forall {id}, id ∈ held -> 0 < p.shared.live :=
    fun hid => hpos (List.ne_nil_of_mem hid)
  unfold stepAt at hstep
  cases prog with
  | stop => cases hstep
  | ask k =>
      cases hstep
      exact moves_go (howns a)
  | acquire k =>
      dsimp only at hstep
      split at hstep
      · rename_i hlt
        cases hstep
        exact moves_acquire hlt (howns.right _)
      · split at hstep
        · cases hstep
          exact moves_go howns.left
        · cases hstep
  | release id k =>
      cases hstep
      exact moves_ends howns.left howns.right (hheld howns.left) rfl rfl rfl
        (perm_released _ _ id)
  | close conn k =>
      cases hstep
      exact moves_ends howns.left howns.right (hheld howns.left) rfl rfl rfl
        (perm_closed _ _ conn.id)
  | look s k =>
      rcases Option.map_eq_some_iff.mp hstep with ⟨session', _, hr⟩
      cases hr
      exact moves_go (howns _)
  | setUrl s finalUrl u k =>
      rcases Option.map_eq_some_iff.mp hstep with ⟨session', hs, hr⟩
      cases hr
      exact moves_session hs (fun c => rfl) howns
  | setResilient s resilient k =>
      rcases Option.map_eq_some_iff.mp hstep with ⟨session', hs, hr⟩
      cases hr
      exact moves_session hs (fun c => rfl) howns
  | take s k =>
      rcases Option.map_eq_some_iff.mp hstep with ⟨session', hs, hr⟩
      split at hr
      · cases hr
        exact moves_go howns.left
      · rename_i conn hlast
        cases hr
        refine moves_session hs (fun c => ?_) (howns.right conn)
        have hdrop := count_dropLast hlast c
        rw [count_holds, count_holds, sessionHolds, count_holds_idle, count_holds_idle,
          <- List.singleton_append, List.count_append]
        dsimp only
        omega
  | give s conn k =>
      rcases Option.map_eq_some_iff.mp hstep with ⟨session', hs, hr⟩
      split at hr
      · cases hr
        refine moves_session hs (fun c => ?_) howns.right.left
        have herase := count_erase_own howns.left c
        rw [count_holds, count_holds, sessionHolds, count_holds_idle, count_holds_idle]
        dsimp only at herase ⊢
        rw [List.map_append, List.count_append]
        change _ + ((session'.idle.map Conn.id).count c + [conn.id].count c + _) = _
        omega
      · cases hr
        exact moves_go howns.right.right
  | lockStream s k =>
      dsimp only at hstep
      split at hstep
      · cases hstep
      · rename_i session' hs
        split at hstep
        · rename_i st hstream
          cases hstep
          refine moves_session hs (fun c => ?_) (howns.right st)
          rw [count_holds, count_holds, sessionHolds, count_holds_idle, count_holds_idle, hstream]
          change _ + st.ids.count c + (_ + 0) = _ + 0 + (_ + st.ids.count c)
          dsimp only
          omega
        · cases hstep
  | setStream st k =>
      rcases Option.map_eq_some_iff.mp hstep with ⟨slot', hslot, hr⟩
      cases hr
      rcases howns with ⟨s, old, hold, hmem, hk⟩
      cases hold
      cases hslot
      refine ⟨fun c => ?_, rfl, id, hk⟩
      have hdiff := count_diff_ids hmem c
      rw [List.count_append] at hdiff
      rw [count_holds, count_holds]
      dsimp only at hdiff
      change ((old.ids ++ held).diff (ids st.conn)).count c + (ids st.conn).count c + _ + _ =
        held.count c + old.ids.count c + _ + _
      omega
  | unlockStream k =>
      dsimp only at hstep
      split at hstep
      · cases hstep
      · rename_i s st
        split at hstep
        · cases hstep
        · rename_i session' hs
          split at hstep
          · cases hstep
          · rename_i hstream
            cases hstep
            refine moves_session hs (fun c => ?_) howns.right
            rw [count_holds, count_holds, sessionHolds, count_holds_idle, count_holds_idle,
              hstream]
            change _ + 0 + (_ + st.ids.count c) = _ + st.ids.count c + (_ + 0)
            dsimp only
            omega
  | create view k =>
      cases hstep
      refine ⟨fun c => ?_, rfl, id, howns _⟩
      change _ + (((p.shared.sessions ++ [some _]).flatMap sessionHolds).count c + _ + _) + _ = _
      rw [List.flatMap_append, List.count_append]
      rfl
  | dissolve s k =>
      dsimp only at hstep
      split at hstep
      · split at hstep
        · cases hstep
        · rename_i session' hs
          rcases Option.map_eq_some_iff.mp hstep with ⟨st, hstream, hr⟩
          cases hr
          refine moves_session hs (fun c => ?_) (howns _ st)
          rw [count_holds, count_holds, count_holds_idle, hstream, List.count_append,
            List.count_append]
          change _ + st.ids.count c + _ + _ + 0 = _ + _ + (_ + st.ids.count c)
          dsimp only
          omega
      · cases hstep

end Step

/-!
# The accounts of a run
-/

/-- The accounts are kept, and every program will give up what its thread holds. -/
structure Accounted (b : Build) (p : Pool Net Thread) : Prop where
  owners : forall c, (holders p).count c + p.shared.closed.count c + p.shared.released.count c =
    (List.range p.shared.next).count c
  live : p.shared.live + p.shared.closed.length + p.shared.released.length = p.shared.next
  cap : p.shared.live ≤ b.maxLive
  owns : forall x, x ∈ p.threads -> Owns x.prog x.held x.slot

theorem Accounted.perm {b : Build} {p : Pool Net Thread} (h : Accounted b p) :
    (holders p ++ (p.shared.closed ++ p.shared.released)).Perm (List.range p.shared.next) := by
  rw [List.perm_iff_count]
  intro c
  rw [List.count_append, List.count_append]
  have hcount := h.owners c
  omega

theorem Accounted.length {b : Build} {p : Pool Net Thread} (h : Accounted b p) :
    p.shared.live = (holders p).length := by
  have hlen := h.perm.length_eq
  rw [List.length_append, List.length_append, List.length_range] at hlen
  have hlive := h.live
  omega

theorem Accounted.pos {b : Build} {p : Pool Net Thread} (h : Accounted b p) {x : Thread}
    (hx : x ∈ p.threads) (hheld : x.held ≠ []) : 0 < p.shared.live := by
  rcases List.exists_mem_of_ne_nil x.held hheld with ⟨id, hid⟩
  rw [h.length]
  apply List.length_pos_of_mem
  apply List.mem_append_left
  exact List.mem_flatMap.mpr ⟨x, hx, List.mem_append_left _ hid⟩

theorem accounted_idle (b : Build) : Accounted b idleNet where
  owners _ := rfl
  live := rfl
  cap := Nat.zero_le b.maxLive
  owns _ hx := by cases hx

theorem accounted_call {b : Build} {p : Pool Net Thread} (h : Accounted b p) (c : Call) :
    Accounted b (p.enter ((httpProgram b).entry c)) where
  owners n := by
    have hholders : holders (p.enter ((httpProgram b).entry c)) = holders p := by
      change (p.threads ++ [(httpProgram b).entry c]).flatMap Thread.holds ++ _ = _
      rw [List.flatMap_append]
      change p.threads.flatMap Thread.holds ++ [] ++ _ = _
      rw [List.append_nil]
      rfl
    rw [hholders]
    exact h.owners n
  live := h.live
  cap := h.cap
  owns x hx := by
    rcases mem_enter hx with hold | rfl
    · exact h.owns x hold
    · exact owns_call b c

theorem accounted_run {b : Build} {p : Pool Net Thread} (h : Accounted b p) {t : Nat} {x : Thread}
    (hpoint : p.threads[t]? = some x) {o : Section Net Thread} (hcreated : o.created = none)
    (hmoves : Moves b p.shared o.shared x o.point) : Accounted b (p.after t o) where
  owners c := by
    have hset := count_flatMap_set Thread.holds c hpoint o.point
    have hbefore := h.owners c
    have hmoved := hmoves.owners c
    unfold Net.countOf at hmoved
    rw [holders, List.count_append] at hbefore
    change ((p.threads.set t o.point ++ o.created.toList).flatMap Thread.holds ++
      o.shared.sessions.flatMap sessionHolds).count c + o.shared.closed.count c +
        o.shared.released.count c = (List.range o.shared.next).count c
    rw [hcreated, Option.toList_none, List.append_nil, List.count_append]
    omega
  live := by
    have hbefore := h.live
    have hmoved := hmoves.live
    change o.shared.live + o.shared.closed.length + o.shared.released.length = o.shared.next
    omega
  cap := hmoves.cap h.cap
  owns y hy := by
    rcases mem_after hy with hold | rfl | hnew
    · exact h.owns y hold
    · exact hmoves.owns
    · rw [hcreated] at hnew
      cases hnew

theorem accounted_next {b : Build} {p q : Pool Net Thread} {l : Move Call Answer}
    (h : Accounted b p) (hnext : (httpProgram b).system.next p l = some q) : Accounted b q := by
  cases l with
  | call c =>
      rw [next_call] at hnext
      cases hnext
      exact accounted_call h c
  | run t a =>
      rcases next_run hnext with ⟨x, o, hpoint, hstep, rfl⟩
      rcases Option.map_eq_some_iff.mp hstep with ⟨r, hr, rfl⟩
      have hx := List.mem_of_getElem? hpoint
      exact accounted_run h hpoint rfl (stepAt_moves (h.owns x hx) (h.pos hx) hr)

/-- Each connection stands at one place, or has ended once. -/
structure OneOwner (b : Build) (p : Pool Net Thread) : Prop where
  owners : (holders p ++ (p.shared.closed ++ p.shared.released)).Perm (List.range p.shared.next)
  live : p.shared.live = (holders p).length
  cap : p.shared.live ≤ b.maxLive
  idle : (forall x, x ∈ p.threads -> x.prog = .stop) ->
    (forall s, s ∈ p.shared.sessions -> s = none) -> p.shared.live = 0

/-- However the threads take turns and whatever the servers do. -/
theorem connections_accounted {b : Build} {tr : List (Pool Net Thread × Move Call Answer)}
    {p : Pool Net Thread}
    (h : Run (httpProgram b).system (fun _ _ => True) idleNet tr p) : OneOwner b p := by
  have haccounted : Accounted b p :=
    run_invariant (fun h _ hnext => accounted_next h hnext) h (accounted_idle b)
  refine ⟨haccounted.perm, haccounted.length, haccounted.cap, fun hstopped hclosed => ?_⟩
  have hthreads : p.threads.flatMap Thread.holds = [] := by
    rw [List.flatMap_eq_nil_iff]
    intro x hx
    have howns := haccounted.owns x hx
    rw [hstopped x hx] at howns
    rw [Thread.holds, howns.left, howns.right]
    rfl
  have hsessions : p.shared.sessions.flatMap sessionHolds = [] := by
    rw [List.flatMap_eq_nil_iff]
    intro s hs
    rw [hclosed s hs]
    rfl
  rw [haccounted.length, holders, hthreads, hsessions]
  rfl

/-- A PS4, and a read of a package whose server closes the connection. -/
def ps4Build : Build where
  maxLive := 4
  poolMax := 2
  haveTls := true

def lostRead : List (Move Call Answer) :=
  Move.call (.pread (ascii "http://nas/a.pkg") 64 0) :: List.replicate 4 (Move.run 0 {})

theorem lost_read_accounted : exists tr p,
    Run (httpProgram ps4Build).system (fun _ _ => True) idleNet tr p ∧ p.shared.closed = [0] ∧
      OneOwner ps4Build p := by
  have hread : (execWhile (httpProgram ps4Build).system (fun _ _ => True) idleNet lostRead).map
      (fun p => p.shared.closed) = some [0] := by
    rfl
  rcases Option.map_eq_some_iff.mp hread with ⟨p, hexec, hclosed⟩
  rcases run_of_execWhile hexec with ⟨tr, _, hrun⟩
  exact ⟨tr, p, hrun, hclosed, connections_accounted hrun⟩

end Connections
end PkgManager
