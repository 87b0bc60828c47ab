import PkgManager.Live.Integrity
import PkgManager.Upload.Sections

/-!
# Runs with connections and owners

The uplink has sent the pair of the owned session, and so has every connection
that is about to act on it.
-/

namespace PkgManager
namespace Upload

open Live
open Transition

/-- What a section of any thread does. -/
structure UploadEffect (w : UploadWorld) (t : Nat) (x : UploadPoint)
    (o : Section UploadWorld UploadPoint) : Prop where
  good : GoodUpload o.shared
  point : GoodUploadPoint o.shared o.point
  created : o.created = none
  starts : Steady w o.shared ∨
    (startsSession w o.shared = true ∧ o.shared.ids = o.shared.lv.sessionId :: w.ids ∧
      exists owner, o.shared.ownedBy = some (owner, o.shared.lv.sessionId))
  uplink : forall u, o.shared.uplink = some u -> w.uplink = some u ∨
    (u = t ∧ exists c k, o.point = UploadPoint.conn c k ∧ Cleared o.shared c)
  sent : forall c k, x = UploadPoint.conn c k -> exists c' k',
    o.point = UploadPoint.conn c' k' ∧ forall pair, pair ∈ c.presented -> pair ∈ c'.presented
  untouched : forall c k, x = UploadPoint.conn c k -> k.inGap = false ->
    Untouched w.lv o.shared.lv

theorem uploadEffect_owner {w w' : UploadWorld} {t : Nat} {x : UploadPoint} {r : Int}
    (hx : forall c k, x ≠ UploadPoint.conn c k) (h : OwnerEffect w w') :
    UploadEffect w t x { shared := w', point := UploadPoint.returned r } :=
  ⟨h.good, trivial, rfl, h.starts, fun u hu => Or.inl (h.uplink u hu),
    fun c k heq => absurd heq (hx c k), fun c k heq => absurd heq (hx c k)⟩

theorem upload_section {p : Pool UploadWorld UploadPoint} {t : Nat} {x : UploadPoint}
    {a : UploadAnswer} {o : Section UploadWorld UploadPoint} (hgood : GoodUpload p.shared)
    (hx : GoodUploadPoint p.shared x)
    (huplink : forall c k, x = UploadPoint.conn c k -> p.shared.uplink = some t ->
      Cleared p.shared c)
    (hstep : uploadProgram.step p t x a = some o) : UploadEffect p.shared t x o := by
  change uploadStep p t x a = some o at hstep
  cases x with
  | conn c k =>
      rcases Option.map_eq_some_iff.mp hstep with ⟨⟨w', c', k'⟩, hconn, ho⟩
      rw [← ho]
      have heffect := connEffect_step hgood hx (huplink c k rfl) hconn
      refine ⟨heffect.good, heffect.conn, rfl, Or.inl heffect.steady, ?_, ?_, ?_⟩
      · intro u hu
        rcases heffect.uplink u hu with hold | ⟨hself, hcleared⟩
        · exact Or.inl hold
        · exact Or.inr ⟨hself, c', k', rfl, hcleared⟩
      · intro c₀ k₀ heq
        cases heq
        exact ⟨c', k', rfl, heffect.sent⟩
      · intro c₀ k₀ heq hgap
        cases heq
        exact heffect.untouched hgap
  | initOwned filename totalSize owner resumeSid =>
      cases hstep
      exact uploadEffect_owner nofun
        (ownerEffect_initOwned hgood filename totalSize owner resumeSid)
  | cancelOwned owner sid =>
      cases hstep
      exact uploadEffect_owner nofun (ownerEffect_cancelOwned hgood owner sid a.installing)
  | returned r => cases hstep

/-!
# A new owned session
-/

/-- The new id is none that a connection is authorized for. -/
theorem goodConn_of_start {w w' : UploadWorld} {c : Conn} {k : ConnAt} {owner : String}
    (hids : w'.ids = w'.lv.sessionId :: w.ids)
    (howner : w'.ownedBy = some (owner, w'.lv.sessionId)) (hfresh : w'.lv.sessionId ∉ w.ids)
    (hgap : k.inGap = false) (hc : GoodConn w c k) : GoodConn w' c k where
  known := by
    intro hauth
    rw [hids]
    exact List.mem_cons_of_mem _ (hc.known hauth)
  allowed := by
    intro hauth pair howned heq
    have hpair := howned.2
    rw [howner] at hpair
    cases hpair
    have hknown := hc.known hauth
    rw [heq] at hknown
    exact absurd hknown hfresh
  cleared := by
    intro hin
    rw [hgap] at hin
    cases hin
  expects := by
    cases k with
    | initMatches args => exact hc.expects
    | initSameFile args sid => cases hgap
    | initCreate args => cases hgap
    | initUplink sid => cases hgap
    | _ => trivial

/-!
# The invariant of the runs
-/

structure UploadInv (p : Pool UploadWorld UploadPoint) : Prop where
  pool : PoolInv GoodUpload GoodUploadPoint p
  uplink : forall t, p.shared.uplink = some t -> exists c k,
    p.threads[t]? = some (UploadPoint.conn c k) ∧ Cleared p.shared c

theorem uploadInv_section {p : Pool UploadWorld UploadPoint} (hinv : UploadInv p) {t : Nat}
    {x : UploadPoint} {a : UploadAnswer} {o : Section UploadWorld UploadPoint}
    (hpoint : p.threads[t]? = some x) (hstep : uploadProgram.step p t x a = some o) :
    UploadEffect p.shared t x o := by
  refine upload_section hinv.pool.shared
    (hinv.pool.threads x (List.mem_of_getElem? hpoint)) ?_ hstep
  intro c k hx hown
  rcases hinv.uplink t hown with ⟨c', k', hpoint', hcleared⟩
  rw [hpoint, hx] at hpoint'
  cases hpoint'
  exact hcleared

/-- Who starts an owned session, starts it under a fresh id, without an uplink
and without connections in a gap. -/
theorem quiet_start {p : Pool UploadWorld UploadPoint} {t : Nat} {x : UploadPoint}
    {a : UploadAnswer} {o : Section UploadWorld UploadPoint} {owner : String}
    (hok : CarefulUploads p (Move.run t a)) (hpoint : p.threads[t]? = some x)
    (hstep : uploadProgram.step p t x a = some o)
    (hstarts : startsSession p.shared o.shared = true)
    (howner : o.shared.ownedBy = some (owner, o.shared.lv.sessionId)) :
    o.shared.lv.sessionId ∉ p.shared.ids ∧ p.shared.uplink = none ∧
      forall y, y ∈ p.threads -> y.inGap = false := by
  rcases hok with ⟨hfresh, hquiet⟩
  rw [FreshIds, sectionAt_eq hpoint, hstep] at hfresh
  rw [QuietStarts, sectionAt_eq hpoint, hstep] at hquiet
  refine ⟨hfresh hstarts, hquiet hstarts ?_⟩
  rw [howner]
  exact Option.some_ne_none _

theorem uploadInv_next {p q : Pool UploadWorld UploadPoint} {l : Move UploadCall UploadAnswer}
    (hinv : UploadInv p) (hok : CarefulUploads p l)
    (hnext : uploadProgram.system.next p l = some q) : UploadInv q := by
  constructor
  · refine poolInv_next ?_ ?_ ?_ hinv.pool hnext
    · intro c _
      cases c with
      | connect =>
          have hno : forall {P : Prop}, false = true -> P := fun h => by cases h
          exact ⟨hno, hno, hno, trivial⟩
      | _ => trivial
    · intro t point a o _ hpoint hstep
      have h := uploadInv_section hinv hpoint hstep
      refine ⟨h.good, h.point, ?_⟩
      intro x hx
      rw [h.created] at hx
      cases hx
    · intro t point a o x hl hpoint hstep hmem hx
      rw [hl] at hok
      cases x with
      | conn c k =>
          rcases (uploadInv_section hinv hpoint hstep).starts with
            hsteady | ⟨hstarts, hids, owner, howner⟩
          · exact goodConn_of_steady hsteady hx
          · rcases quiet_start hok hpoint hstep hstarts howner with ⟨hfresh, _, hgap⟩
            exact goodConn_of_start hids howner hfresh (hgap _ hmem) hx
      | _ => trivial
  · cases l with
    | call c =>
        rw [next_call] at hnext
        cases hnext
        intro t hown
        rcases hinv.uplink t hown with ⟨c', k', hpoint, hcleared⟩
        exact ⟨c', k', getElem?_enter_of_some hpoint, hcleared⟩
    | run t a =>
        rcases next_run hnext with ⟨x, o, hpoint, hstep, hq⟩
        rw [hq]
        have h := uploadInv_section hinv hpoint hstep
        intro u hown
        rcases h.uplink u hown with hold | ⟨hself, c', k', hpoint', hcleared⟩
        · rcases hinv.uplink u hold with ⟨c, k, hconn, hcleared⟩
          have hsteady : Steady p.shared o.shared := by
            rcases h.starts with hsteady | ⟨hstarts, _, owner, howner⟩
            · exact hsteady
            · have hquiet := quiet_start hok hpoint hstep hstarts howner
              rw [hquiet.2.1] at hold
              cases hold
          by_cases hut : u = t
          · rw [hut] at hconn ⊢
            rw [hpoint] at hconn
            rcases h.sent c k (Option.some.inj hconn) with ⟨c', k', hpoint', hsent⟩
            refine ⟨c', k', ?_, ?_⟩
            · rw [getElem?_after_self hpoint, hpoint']
            · intro pair howned
              exact hsent pair (cleared_of_steady hsteady hcleared pair howned)
          · exact ⟨c, k, getElem?_after_of_ne hut hconn, cleared_of_steady hsteady hcleared⟩
        · refine ⟨c', k', ?_, hcleared⟩
          rw [hself, getElem?_after_self hpoint, hpoint']

theorem uploadInv_of_noUploads {p : Pool UploadWorld UploadPoint} (h : NoUploads p) :
    UploadInv p := by
  rcases h with ⟨hidle, howner, huplink, hunowned, hthreads⟩
  refine ⟨⟨⟨?_, ?_, ?_, ?_, ?_⟩, ?_⟩, ?_⟩
  · intro pair howned
    rw [hunowned] at howned
    cases howned
  · intro pair howned
    rw [hunowned] at howned
    cases howned
  · intro hactive
    rw [hidle] at hactive
    cases hactive
  · intro hsome
    exact absurd howner hsome
  · intro _
    exact hunowned
  · intro x hx
    rw [hthreads] at hx
    cases hx
  · intro t hown
    rw [huplink] at hown
    cases hown

theorem uploadInv_run {p q : Pool UploadWorld UploadPoint}
    {tr : List (Pool UploadWorld UploadPoint × Move UploadCall UploadAnswer)}
    (hstart : NoUploads p) (hrun : Run uploadProgram.system CarefulUploads p tr q) :
    UploadInv q :=
  run_invariant (fun hinv hok hnext => uploadInv_next hinv hok hnext) hrun
    (uploadInv_of_noUploads hstart)

theorem ownership_kept {p : Pool UploadWorld UploadPoint} (hstart : NoUploads p) :
    OwnershipKept CarefulUploads p := by
  intro tr q pair hrun howned
  have hinv := uploadInv_run hstart hrun
  constructor
  · intro t hown
    rcases hinv.uplink t hown with ⟨c, k, hpoint, hcleared⟩
    exact ⟨c, k, hpoint, hcleared pair howned⟩
  · intro t a q' c k hpoint hnot hnext
    rcases next_run hnext with ⟨x, o, hx, hstep, hq'⟩
    rw [hpoint] at hx
    cases hx
    have hc : GoodConn q.shared c k := hinv.pool.threads _ (List.mem_of_getElem? hpoint)
    have hgap : k.inGap = false := by
      cases hgap : k.inGap with
      | false => rfl
      | true => exact absurd (hc.cleared hgap pair howned) hnot
    rw [hq']
    exact (uploadInv_section hinv hpoint hstep).untouched c k rfl hgap

/-!
# Concrete runs
-/

def noUploads : Pool UploadWorld UploadPoint where
  shared :=
    { lv := emptyLive, owner := "", ownerSid := "", ownerFilename := "", ownerTotal := 0
      uplink := none, ownedBy := none, ids := [] }
  threads := []

def ownerToken : String := "0123456789abcdef0123456789abcdef"

def initText : String :=
  "\x7b\"op\":\"init\",\"filename\":\"game.pkg\",\"total\":2097152\x7d"

def ownedInitText : String :=
  "\x7b\"op\":\"init\",\"filename\":\"game.pkg\",\"total\":2097152," ++
    "\"owner\":\"0123456789abcdef0123456789abcdef\",\"session_id\":\"s1\"\x7d"

def noAnswer : UploadAnswer := {}

/-- The thread {lit}`t` gets the message and runs {lit}`n` sections after that. -/
def sendMessage (t n : Nat) (message : Incoming) : List (Move UploadCall UploadAnswer) :=
  Move.run t { incoming := message } :: List.replicate n (Move.run t {})

def sendText (t n : Nat) (text : String) : List (Move UploadCall UploadAnswer) :=
  sendMessage t n (Incoming.text text.toList)

/-- The owner's request, made by the thread {lit}`t`. -/
def startOwned (t : Nat) : List (Move UploadCall UploadAnswer) :=
  [Move.call (UploadCall.initOwned "game.pkg" 2097152 ownerToken ""),
    Move.run t { env := { sessionId := "s1" } }]

/-- The pair of the active session, the uplink, and for a connection the pairs
it has sent and the number of stored segments around its next section. -/
structure ConnSight where
  active : Bool
  ownedBy : Option (String × String)
  uplink : Option Nat
  sent : List (String × String)
  before : Nat
  after : Nat
deriving DecidableEq

def observeConn (t : Nat) (q : Pool UploadWorld UploadPoint) : Option ConnSight :=
  match q.threads[t]?, uploadProgram.system.next q (Move.run t {}) with
  | some (UploadPoint.conn c _), some q' =>
      some
        { active := q.shared.lv.active, ownedBy := q.shared.ownedBy, uplink := q.shared.uplink
          sent := c.presented, before := q.shared.lv.stored.length
          after := q'.shared.lv.stored.length }
  | _, _ => none

/-- What a sight says about the state it was taken in. -/
structure Seen (t : Nat) (q : Pool UploadWorld UploadPoint) (s : ConnSight) (c : Conn)
    (k : ConnAt) (q' : Pool UploadWorld UploadPoint) : Prop where
  point : q.threads[t]? = some (UploadPoint.conn c k)
  next : uploadProgram.system.next q (Move.run t {}) = some q'
  active : q.shared.lv.active = s.active
  ownedBy : q.shared.ownedBy = s.ownedBy
  uplink : q.shared.uplink = s.uplink
  sent : c.presented = s.sent
  before : q.shared.lv.stored.length = s.before
  after : q'.shared.lv.stored.length = s.after

theorem observeConn_some {t : Nat} {q : Pool UploadWorld UploadPoint} {s : ConnSight}
    (h : observeConn t q = some s) : exists c k q', Seen t q s c k q' := by
  unfold observeConn at h
  split at h
  · rename_i c k q' hpoint hnext
    cases h
    exact ⟨c, k, q', hpoint, hnext, rfl, rfl, rfl, rfl, rfl, rfl⟩
  · cases h

theorem observedConn_run {ok : Pool UploadWorld UploadPoint -> Move UploadCall UploadAnswer -> Prop}
    [forall p l, Decidable (ok p l)] {t : Nat} {ls : List (Move UploadCall UploadAnswer)}
    {s : ConnSight}
    (h : (execWhile uploadProgram.system ok noUploads ls).bind (observeConn t) = some s) :
    exists tr q c k q', Run uploadProgram.system ok noUploads tr q ∧ Seen t q s c k q' := by
  rcases Option.bind_eq_some_iff.mp h with ⟨q, hexec, hobs⟩
  rcases run_of_execWhile hexec with ⟨tr, _, hrun⟩
  rcases observeConn_some hobs with ⟨c, k, q', hseen⟩
  exact ⟨tr, q, c, k, q', hrun, hseen⟩

/-- The owner's browser connects after the session has started. -/
def ownerConnects : List (Move UploadCall UploadAnswer) :=
  startOwned 0 ++ Move.call UploadCall.connect :: sendText 1 3 ownedInitText

theorem ownership_kept_owner :
    exists tr q, Run uploadProgram.system CarefulUploads noUploads tr q ∧
      Owned q.shared (ownerToken, "s1") ∧
      (exists c k, q.threads[1]? = some (UploadPoint.conn c k) ∧
        (ownerToken, "s1") ∈ c.presented) ∧
      forall t a q' c k, q.threads[t]? = some (UploadPoint.conn c k) ->
        (ownerToken, "s1") ∉ c.presented ->
          uploadProgram.system.next q (Move.run t a) = some q' ->
            Untouched q.shared.lv q'.shared.lv := by
  have hobs : (execWhile uploadProgram.system CarefulUploads noUploads ownerConnects).bind
      (observeConn 1) = some
        { active := true, ownedBy := some (ownerToken, "s1"), uplink := some 1
          sent := [(ownerToken, "s1")], before := 0, after := 0 } := by
    decide +kernel
  rcases observedConn_run hobs with ⟨tr, q, c, k, q', hrun, hseen⟩
  have hstart : NoUploads noUploads := ⟨rfl, rfl, rfl, rfl, rfl⟩
  have howned : Owned q.shared (ownerToken, "s1") := ⟨hseen.active, hseen.ownedBy⟩
  have hkept := ownership_kept hstart tr q (ownerToken, "s1") hrun howned
  exact ⟨tr, q, hrun, howned, hkept.1 1 hseen.uplink, hkept.2⟩

/-- The owner's session starts after a connection has found no owner, and
before it starts a session itself; the connection then stores a segment. -/
def strangerResumes : List (Move UploadCall UploadAnswer) :=
  Move.call UploadCall.connect :: sendText 0 0 initText ++ startOwned 1 ++
    List.replicate 2 (Move.run 0 noAnswer) ++
    sendText 0 0 "\x7b\"op\":\"seg\",\"seg\":0\x7d" ++
    sendMessage 0 2 (Incoming.binary 1048576 (fun _ => 66))

theorem stranger_stores : ¬ OwnershipKept FreshIds noUploads := by
  intro hkept
  have hobs : (execWhile uploadProgram.system FreshIds noUploads strangerResumes).bind
      (observeConn 0) = some
        { active := true, ownedBy := some (ownerToken, "s1"), uplink := some 0, sent := []
          before := 0, after := 1 } := by
    decide
  rcases observedConn_run hobs with ⟨tr, q, c, k, q', hrun, hseen⟩
  have hnot : (ownerToken, "s1") ∉ c.presented := by
    rw [hseen.sent]
    exact List.not_mem_nil
  have huntouched := (hkept tr q (ownerToken, "s1") hrun ⟨hseen.active, hseen.ownedBy⟩).2
    0 {} q' c k hseen.point hnot hseen.next
  have hafter := hseen.after
  rw [huntouched.stored, hseen.before] at hafter
  cases hafter

end Upload
end PkgManager
