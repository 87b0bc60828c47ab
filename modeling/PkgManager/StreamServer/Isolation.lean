import PkgManager.StreamServer.Teardown

/-!
# Bytes of the session that was asked for

A body follows a check of the name.  It is laid out from the announced offset,
and it comes from the session that was up at the check as long as no session is
started in between.
-/

namespace PkgManager
namespace StreamServer

open Transition

/-!
# What is asked
-/

/-- The stream of the session that was started last among the first ones. -/
def startedLast (w : StreamWorld) (k : Nat) : Option VirtualStream :=
  (w.sessions.take k).getLast?

/-- The name is the one that was pinned at the check, or none was pinned. -/
def Admitted (w : StreamWorld) (check : NameCheck) : Prop :=
  (check.pinned = check.base ∧ (check.checkedIn, check.base) ∈ w.pins) ∨
    (check.pinned = "" ∧ isPkg check.base = true)

/-- The parts follow each other from the offset on. -/
def Laid : Nat -> List Chunk -> Prop
  | _, [] => True
  | off, c :: cs => c.offset = off ∧ Laid (off + c.length) cs

def sentBytes (chunks : List Chunk) : Nat :=
  (chunks.map Chunk.length).sum

/-- No session was started between the check and the sending of the part, nor
since its connection opened a stream for itself. -/
def SameStart (check : NameCheck) (c : Chunk) : Prop :=
  c.sentIn = check.checkedIn ∧
    forall openedIn, c.privateSince = some openedIn -> openedIn = check.checkedIn

structure IsolatedReply (w : StreamWorld) (r : Reply) : Prop where
  admitted : forall c, c ∈ r.chunks -> exists check, r.check = some check ∧ Admitted w check ∧
    (SameStart check c -> startedLast w check.checkedIn = some c.source)
  refused : forall check, r.check = some check -> check.pinned ≠ "" ->
    check.pinned ≠ check.base -> r.chunks = []
  package : r.chunks ≠ [] -> r.head.isPackage = true
  laid : Laid r.head.first r.chunks
  bounded : r.head.first + sentBytes r.chunks ≤ r.head.last + 1

/-- The answer that is being sent. -/
def ConnAt.sending : ConnAt -> Option Reply
  | ConnAt.bodyAcquire b => some b.reply
  | ConnAt.body _ b => some b.reply
  | ConnAt.bodyRead _ b => some b.reply
  | ConnAt.bodyRelease _ b => some b.reply
  | _ => none

def repliesOf (c : Conn) (k : ConnAt) : List Reply :=
  k.sending.toList ++ c.replies

/-- Every answer of every handler, in every state of every run. -/
def Replies (console : Console) (good : StreamWorld -> Reply -> Prop) : Prop :=
  forall tr (q : Pool StreamWorld StreamPoint) (t : Nat) c k,
    Run (streamProgram console).system (fun _ _ => True) noThreads tr q ->
    q.threads[t]? = some (StreamPoint.conn c k) ->
      forall r, r ∈ repliesOf c k -> good q.shared r

/-- Every part of a body comes from a session that was pinned to the name that
was asked for. -/
def PinnedReply (w : StreamWorld) (r : Reply) : Prop :=
  forall c, c ∈ r.chunks -> exists check k, r.check = some check ∧
    (k, check.base) ∈ w.pins ∧ startedLast w k = some c.source

/-!
# The layout of a body
-/

theorem laid_append {off : Nat} {chunks : List Chunk} {c : Chunk} (h : Laid off chunks)
    (hc : c.offset = off + sentBytes chunks) : Laid off (chunks ++ [c]) := by
  induction chunks generalizing off with
  | nil => exact ⟨hc, trivial⟩
  | cons d ds ih =>
      refine ⟨h.1, ih h.2 ?_⟩
      rw [hc, sentBytes, List.map_cons, List.sum_cons, sentBytes, Nat.add_assoc]

theorem sentBytes_append (chunks : List Chunk) (c : Chunk) :
    sentBytes (chunks ++ [c]) = sentBytes chunks + c.length := by
  rw [sentBytes, List.map_append, List.sum_append]
  rfl

theorem first_le_last (total : Nat) (req : List Char) :
    (packageHead total (findRange req total)).first ≤
      (packageHead total (findRange req total)).last := by
  cases hrange : findRange req total with
  | absent => exact Nat.zero_le _
  | unsatisfiable => exact Nat.le_refl _
  | range start stop => exact (findRange_bounds hrange).1

/-!
# What stays true when sessions are started
-/

structure Extends (w w' : StreamWorld) : Prop where
  sessions : w.sessions <+: w'.sessions
  pins : forall pin, pin ∈ w.pins -> pin ∈ w'.pins

theorem startedLast_extends {w w' : StreamWorld} (h : Extends w w') {k : Nat}
    (hk : k ≤ w.sessions.length) : startedLast w' k = startedLast w k := by
  rcases h.sessions with ⟨more, hmore⟩
  rw [startedLast, ← hmore, List.take_append_of_le_length hk]
  rfl

structure GoodWorld (w : StreamWorld) : Prop where
  stream : forall vs, w.ss.vs = some vs -> startedLast w w.sessions.length = some vs
  name : w.ss.sessionName ≠ "" -> (w.sessions.length, w.ss.sessionName) ∈ w.pins

structure GoodCheck (w : StreamWorld) (check : NameCheck) : Prop where
  past : check.checkedIn ≤ w.sessions.length
  admits : admits check = true
  pinned : check.pinned ≠ "" -> (check.checkedIn, check.pinned) ∈ w.pins

/-- The stream is that of the session started as the {lit}`k`-th, by a time that
is not to come. -/
structure UpAt (w : StreamWorld) (k time : Nat) (vs : VirtualStream) : Prop where
  started : k ≤ time
  past : time ≤ w.sessions.length
  stream : startedLast w k = some vs

/-- What a body is read from: a session that is not older than the check, or the
one that was up when the connection opened a stream for itself. -/
def GoodSource (w : StreamWorld) (check : NameCheck) (time : Nat) :
    VirtualStream × Option Nat -> Prop
  | (vs, none) => exists k, check.checkedIn ≤ k ∧ UpAt w k time vs
  | (vs, some openedIn) => UpAt w openedIn time vs

structure GoodReply (w : StreamWorld) (r : Reply) : Prop where
  source : forall c, c ∈ r.chunks -> exists check, r.check = some check ∧ GoodCheck w check ∧
    GoodSource w check c.sentIn (c.source, c.privateSince)
  package : r.chunks ≠ [] -> r.head.isPackage = true
  laid : Laid r.head.first r.chunks
  bounded : r.head.first + sentBytes r.chunks ≤ r.head.last + 1

theorem goodCheck_extends {w w' : StreamWorld} (h : Extends w w') {check : NameCheck}
    (hc : GoodCheck w check) : GoodCheck w' check :=
  ⟨Nat.le_trans hc.past h.sessions.length_le, hc.admits, fun hne => h.pins _ (hc.pinned hne)⟩

theorem upAt_extends {w w' : StreamWorld} (h : Extends w w') {k time : Nat}
    {vs : VirtualStream} (hup : UpAt w k time vs) : UpAt w' k time vs := by
  refine ⟨hup.started, Nat.le_trans hup.past h.sessions.length_le, ?_⟩
  rw [startedLast_extends h (Nat.le_trans hup.started hup.past), hup.stream]

theorem upAt_later {w : StreamWorld} {k time : Nat} {vs : VirtualStream}
    (hup : UpAt w k time vs) : UpAt w k w.sessions.length vs :=
  ⟨Nat.le_trans hup.started hup.past, Nat.le_refl _, hup.stream⟩

theorem goodSource_extends {w w' : StreamWorld} (h : Extends w w') {check : NameCheck}
    {time : Nat} {source : VirtualStream × Option Nat} (hs : GoodSource w check time source) :
    GoodSource w' check time source := by
  rcases source with ⟨vs, openedIn⟩
  cases openedIn with
  | none =>
      rcases hs with ⟨k, hk, hup⟩
      exact ⟨k, hk, upAt_extends h hup⟩
  | some openedIn => exact upAt_extends h hs

theorem goodReply_extends {w w' : StreamWorld} (h : Extends w w') {r : Reply}
    (hr : GoodReply w r) : GoodReply w' r := by
  refine ⟨?_, hr.package, hr.laid, hr.bounded⟩
  intro c hc
  rcases hr.source c hc with ⟨check, hcheck, hgood, hsource⟩
  exact ⟨check, hcheck, goodCheck_extends h hgood, goodSource_extends h hsource⟩

/-- An answer without a body. -/
theorem goodReply_of_head {w : StreamWorld} {head : Head} (hhead : head.first ≤ head.last)
    (check : Option NameCheck) :
    GoodReply w { head := head, check := check, chunks := [] } :=
  ⟨(fun _ hc => by cases hc), (fun hne => absurd rfl hne), trivial, Nat.le_succ_of_le hhead⟩

/-!
# The sections of a handler
-/

structure GoodConn (w : StreamWorld) (c : Conn) : Prop where
  replies : forall r, r ∈ c.replies -> GoodReply w r
  smb : forall s, c.smb = some s -> UpAt w s.openedIn w.sessions.length s.vs

structure GoodBody (w : StreamWorld) (b : Body) : Prop where
  reply : GoodReply w b.reply
  check : exists check, b.reply.check = some check ∧ GoodCheck w check
  package : b.reply.head.isPackage = true
  off : b.off = b.reply.head.first + sentBytes b.reply.chunks

/-- The stream that is held was up at the check or later. -/
def UpSinceCheck (w : StreamWorld) (b : Body) (vs : VirtualStream) : Prop :=
  exists check, b.reply.check = some check ∧ GoodCheck w check ∧
    exists k, check.checkedIn ≤ k ∧ UpAt w k w.sessions.length vs

def GoodAt (w : StreamWorld) : ConnAt -> Prop
  | ConnAt.openSmb vs openedIn => UpAt w openedIn w.sessions.length vs
  | ConnAt.sizeCheck _ check => GoodCheck w check
  | ConnAt.bodyAcquire b => GoodBody w b
  | ConnAt.body vs b => GoodBody w b ∧ UpSinceCheck w b vs
  | ConnAt.bodyRead vs b => GoodBody w b ∧ UpSinceCheck w b vs ∧ b.off ≤ b.reply.head.last
  | ConnAt.bodyRelease _ b => GoodReply w b.reply
  | _ => True

section Extension

variable {w w' : StreamWorld}

theorem upAt_now (h : Extends w w') {k : Nat} {vs : VirtualStream}
    (hup : UpAt w k w.sessions.length vs) : UpAt w' k w'.sessions.length vs :=
  upAt_later (upAt_extends h hup)

theorem goodConn_extends (h : Extends w w') {c : Conn} (hc : GoodConn w c) : GoodConn w' c :=
  ⟨fun r hr => goodReply_extends h (hc.replies r hr), fun s hs => upAt_now h (hc.smb s hs)⟩

theorem goodBody_extends (h : Extends w w') {b : Body} (hb : GoodBody w b) : GoodBody w' b := by
  rcases hb.check with ⟨check, hcheck, hgood⟩
  exact ⟨goodReply_extends h hb.reply, ⟨check, hcheck, goodCheck_extends h hgood⟩, hb.package,
    hb.off⟩

theorem upSinceCheck_extends (h : Extends w w') {b : Body} {vs : VirtualStream}
    (hup : UpSinceCheck w b vs) : UpSinceCheck w' b vs := by
  rcases hup with ⟨check, hcheck, hgood, k, hk, hupAt⟩
  exact ⟨check, hcheck, goodCheck_extends h hgood, k, hk, upAt_now h hupAt⟩

theorem goodAt_extends (h : Extends w w') {k : ConnAt} (hk : GoodAt w k) : GoodAt w' k := by
  cases k with
  | openSmb vs openedIn => exact upAt_now h hk
  | sizeCheck req check => exact goodCheck_extends h hk
  | bodyAcquire b => exact goodBody_extends h hk
  | body vs b => exact ⟨goodBody_extends h hk.1, upSinceCheck_extends h hk.2⟩
  | bodyRead vs b =>
      exact ⟨goodBody_extends h hk.1, upSinceCheck_extends h hk.2.1, hk.2.2⟩
  | bodyRelease vs b => exact goodReply_extends h hk
  | _ => trivial

end Extension

section Handler

variable {console : Console} {w w' : StreamWorld} {c c' : Conn} {a : StreamAnswer}

/-- The stream that is acquired is that of the session started last. -/
theorem upAt_acquire (hw : GoodWorld w) {vs : VirtualStream} (h : acquire w = (w', some vs)) :
    UpAt w w.sessions.length w.sessions.length vs := by
  rcases streamVsAcquire_cases w.ss with hnone | ⟨vs', hvs, hsome⟩
  · rw [acquire, hnone] at h
    cases h
  · rw [acquire, hsome] at h
    have heq : vs' = vs := Option.some.inj (Prod.mk.inj h).2
    rw [heq] at hvs
    exact ⟨Nat.le_refl _, Nat.le_refl _, hw.stream vs hvs⟩

theorem good_replied (hc : GoodConn w c) {reply : Reply} (hreply : GoodReply w reply)
    (goesOn : Bool) : GoodConn w (c.replied reply goesOn).1 ∧ GoodAt w (c.replied reply goesOn).2 := by
  constructor
  · refine ⟨?_, hc.smb⟩
    intro r hr
    rcases List.mem_cons.mp hr with hnew | hold
    · rw [hnew]
      exact hreply
    · exact hc.replies r hold
  · cases goesOn with
    | true => trivial
    | false => trivial

theorem good_recvStep (hc : GoodConn w c) :
    GoodConn w (recvStep c a).1 ∧ GoodAt w (recvStep c a).2 := by
  rw [recvStep]
  split
  · exact ⟨hc, trivial⟩
  · dsimp only
    split
    · exact good_replied hc (goodReply_of_head (Nat.le_refl _) none) _
    · split
      · exact good_replied hc (goodReply_of_head (Nat.le_refl _) none) _
      · exact ⟨hc, trivial⟩

theorem good_nameStep (hw : GoodWorld w) (hc : GoodConn w c) (req : List Char) :
    GoodConn w (nameStep w c a req).1 ∧ GoodAt w (nameStep w c a req).2 := by
  rw [nameStep]
  split
  · exact good_replied hc (goodReply_of_head (Nat.le_refl _) _) _
  · split
    · rename_i hadmits
      exact ⟨hc, Nat.le_refl _, hadmits, hw.name⟩
    · exact good_replied hc (goodReply_of_head (Nat.le_refl _) _) _

theorem good_sizeStep (hc : GoodConn w c) (req : List Char) {check : NameCheck}
    (hcheck : GoodCheck w check) :
    GoodConn w (sizeStep w c a req check).1 ∧ GoodAt w (sizeStep w c a req check).2 := by
  have hreply := goodReply_of_head (w := w) (first_le_last w.ss.totalSize (cString req))
    (some check)
  rw [sizeStep]
  split
  · exact good_replied hc hreply false
  · split
    · exact good_replied hc hreply _
    · rename_i hserves
      split
      · exact good_replied hc hreply false
      · refine ⟨hc, hreply, ⟨check, rfl, hcheck⟩, ?_, rfl⟩
        dsimp only
        cases hrange : findRange (cString req) w.ss.totalSize with
        | absent => rfl
        | unsatisfiable => exact absurd (Or.inl hrange) hserves
        | range start stop => rfl

/-- A part that is sent follows the parts before it. -/
theorem goodReply_send {b : Body} {source : VirtualStream × Option Nat} (hb : GoodBody w b)
    (hsource : exists check, b.reply.check = some check ∧ GoodCheck w check ∧
      GoodSource w check w.sessions.length source)
    (length : Nat) (hlast : b.off + length ≤ b.reply.head.last + 1) :
    GoodReply w (b.send w source length).reply := by
  refine ⟨?_, fun _ => hb.package, laid_append hb.reply.laid hb.off, ?_⟩
  · intro d hd
    rcases List.mem_append.mp hd with hold | hnew
    · exact hb.reply.source d hold
    · rw [List.mem_singleton.mp hnew]
      exact hsource
  · change b.reply.head.first + sentBytes (b.reply.chunks ++ [_]) ≤ b.reply.head.last + 1
    rw [sentBytes_append, ← Nat.add_assoc, ← hb.off]
    exact hlast

theorem good_bodyReadStep (hc : GoodConn w c) {vs : VirtualStream} {b : Body} {k : ConnAt}
    (hb : GoodBody w b) (hvs : UpSinceCheck w b vs) (hoff : b.off ≤ b.reply.head.last)
    (h : bodyReadStep console w c a vs b = some k) : GoodAt w k := by
  rw [bodyReadStep] at h
  split at h
  · cases h
  · rename_i hcount
    have hsource : exists check, b.reply.check = some check ∧ GoodCheck w check ∧
        GoodSource w check w.sessions.length (c.readsFrom vs) := by
      rcases hvs with ⟨check, hcheck, hgood, hup⟩
      refine ⟨check, hcheck, hgood, ?_⟩
      unfold Conn.readsFrom
      split
      · rename_i smb hsmb
        exact hc.smb smb hsmb
      · exact hup
    have hroom : a.count ≤ b.reply.head.last - b.off + 1 :=
      Nat.le_trans (Nat.le_of_not_gt hcount) (Nat.min_le_left _ _)
    have hreply := goodReply_send hb hsource (a.count - a.unsent) (by omega)
    split at h
    · cases h
      exact hb.reply
    · dsimp only at h
      split at h
      · cases h
        exact hreply
      · rename_i hsent
        cases h
        refine ⟨⟨hreply, hb.check, hb.package, ?_⟩, hvs⟩
        change b.off + a.count = b.reply.head.first + sentBytes (b.reply.chunks ++ [_])
        rw [sentBytes_append, ← Nat.add_assoc, ← hb.off]
        dsimp only
        omega

theorem good_connStep (hw : GoodWorld w) (hc : GoodConn w c) {k k' : ConnAt} (hk : GoodAt w k)
    (hstep : connStep console w c a k = some (w', c', k')) :
    GoodConn w c' ∧ GoodAt w k' := by
  cases k with
  | opening =>
      rw [connStep] at hstep
      split at hstep
      · rename_i hacquire
        cases hstep
        exact ⟨hc, upAt_acquire hw hacquire⟩
      · cases hstep
        exact ⟨hc, trivial⟩
  | openSmb vs openedIn =>
      cases hstep
      refine ⟨⟨hc.replies, ?_⟩, trivial⟩
      intro s hs
      dsimp only at hs
      split at hs
      · cases hs
        exact hk
      · cases hs
  | loop =>
      rw [connStep] at hstep
      split at hstep
      · cases hstep
        exact ⟨⟨hc.replies, hc.smb⟩, trivial⟩
      · cases hstep
        exact ⟨hc, trivial⟩
  | recv =>
      rcases Prod.mk.inj (Option.some.inj hstep) with ⟨_, hrest⟩
      have hgood := good_recvStep (a := a) hc
      rw [hrest] at hgood
      exact hgood
  | nameCheck req =>
      rcases Prod.mk.inj (Option.some.inj hstep) with ⟨_, hrest⟩
      have hgood := good_nameStep (a := a) hw hc req
      rw [hrest] at hgood
      exact hgood
  | sizeCheck req check =>
      rcases Prod.mk.inj (Option.some.inj hstep) with ⟨_, hrest⟩
      have hgood := good_sizeStep (a := a) hc req hk
      rw [hrest] at hgood
      exact hgood
  | bodyAcquire b =>
      rw [connStep] at hstep
      split at hstep
      · rename_i hacquire
        cases hstep
        rcases hk.check with ⟨check, hcheck, hgood⟩
        exact ⟨hc, hk, check, hcheck, hgood, w.sessions.length, hgood.past,
          upAt_acquire hw hacquire⟩
      · rcases Prod.mk.inj (Option.some.inj hstep) with ⟨_, hrest⟩
        have hgood := good_replied hc hk.reply false
        rw [hrest] at hgood
        exact hgood
  | body vs b =>
      rw [connStep] at hstep
      split at hstep
      · rename_i hgoes
        cases hstep
        exact ⟨hc, hk.1, hk.2, hgoes.1⟩
      · cases hstep
        exact ⟨hc, hk.1.reply⟩
  | bodyRead vs b =>
      rcases Option.map_eq_some_iff.mp hstep with ⟨k₁, hread, heq⟩
      cases heq
      exact ⟨hc, good_bodyReadStep hc hk.1 hk.2.1 hk.2.2 hread⟩
  | bodyRelease vs b =>
      rcases Prod.mk.inj (Option.some.inj hstep) with ⟨_, hrest⟩
      have hgood := good_replied hc hk (decide (b.off > b.reply.head.last) && b.keep)
      rw [hrest] at hgood
      exact hgood
  | closed => cases hstep

end Handler

/-!
# The sections of any thread
-/

def GoodPoint (w : StreamWorld) : StreamPoint -> Prop
  | StreamPoint.conn c k => GoodConn w c ∧ GoodAt w k
  | _ => True

theorem goodPoint_extends {w w' : StreamWorld} (h : Extends w w') {x : StreamPoint}
    (hx : GoodPoint w x) : GoodPoint w' x := by
  cases x with
  | conn c k => exact ⟨goodConn_extends h hx.1, goodAt_extends h hx.2⟩
  | _ => trivial

structure WorldEffect (w : StreamWorld) (o : Section StreamWorld StreamPoint) : Prop where
  good : GoodWorld o.shared
  extension : Extends w o.shared
  point : GoodPoint o.shared o.point
  created : o.created = none

section Sections

variable {console : Console} {w : StreamWorld} {t : Nat} {a : StreamAnswer} {x : StreamPoint}

/-- A section that changes neither the stream nor the name. -/
theorem worldEffect_same {ss : StreamSession} {waiters : List Nat} {opened : Nat}
    {y : StreamPoint} (hw : GoodWorld w) (hvs : ss.vs = w.ss.vs)
    (hname : ss.sessionName = w.ss.sessionName)
    (hy : forall w', Extends w w' -> GoodPoint w' y) :
    WorldEffect w
      { shared := { w with ss := ss, waiters := waiters, opened := opened }, point := y } := by
  have hext : Extends w { w with ss := ss, waiters := waiters, opened := opened } :=
    ⟨List.prefix_refl _, fun _ h => h⟩
  refine ⟨⟨?_, ?_⟩, hext, hy _ hext, rfl⟩
  · intro vs h
    exact hw.stream vs (by rw [← hvs]; exact h)
  · intro hne
    change ss.sessionName ≠ "" at hne
    change (w.sessions.length, ss.sessionName) ∈ w.pins
    rw [hname] at hne ⊢
    exact hw.name hne

/-- A section that gives up the session. -/
theorem worldEffect_down {ss : StreamSession} {y : StreamPoint} (hvs : ss.vs = none)
    (hname : ss.sessionName = "") (hy : forall w', GoodPoint w' y) :
    WorldEffect w { shared := { w with ss := ss }, point := y } := by
  refine ⟨⟨?_, ?_⟩, ⟨List.prefix_refl _, fun _ h => h⟩, hy _, rfl⟩
  · intro vs h
    change ss.vs = some vs at h
    rw [hvs] at h
    cases h
  · intro hne
    exact absurd hname hne

theorem mem_nameSession (name : String) {pin : Nat × String} (h : pin ∈ w.pins) :
    pin ∈ (nameSession w name).pins := by
  change pin ∈ if name = "" then w.pins else (w.sessions.length, name) :: w.pins
  split
  · exact h
  · exact List.mem_cons_of_mem _ h

theorem goodWorld_nameSession {name : String}
    (hstream : forall vs, w.ss.vs = some vs -> startedLast w w.sessions.length = some vs)
    (hname : w.ss.sessionName = name) : GoodWorld (nameSession w name) := by
  refine ⟨hstream, ?_⟩
  intro hne
  change w.ss.sessionName ≠ "" at hne
  change (w.sessions.length, w.ss.sessionName) ∈
    if name = "" then w.pins else (w.sessions.length, name) :: w.pins
  rw [hname] at hne ⊢
  rw [if_neg hne]
  exact List.mem_cons_self

theorem worldEffect_commit (vs : VirtualStream) (sessionName : Option String) :
    WorldEffect w (startCommitStep w a vs sessionName) := by
  unfold startCommitStep
  split
  · refine ⟨goodWorld_nameSession ?_ rfl, ?_, trivial, rfl⟩
    · intro vs' hvs
      change some vs = some vs' at hvs
      change ((w.sessions ++ [vs]).take (w.sessions ++ [vs]).length).getLast? = some vs'
      rw [List.take_length, List.getLast?_append, ← hvs]
      rfl
    · exact ⟨List.prefix_append w.sessions [vs], fun _ h => mem_nameSession _ h⟩
  · exact worldEffect_down rfl rfl (fun _ => trivial)

theorem worldEffect_second (hw : GoodWorld w) (calledIn : Nat) (next : AfterStop) :
    WorldEffect w (stopSecondStep w t calledIn next) := by
  unfold stopSecondStep
  split
  · exact worldEffect_same hw rfl rfl (fun _ _ => trivial)
  · refine worldEffect_down rfl rfl (fun _ => ?_)
    cases next with
    | returns => trivial
    | starts pkgPath sessionName => trivial

theorem worldEffect_step (hw : GoodWorld w) (hx : GoodPoint w x)
    {o : Section StreamWorld StreamPoint} (hstep : streamStep console w t a x = some o) :
    WorldEffect w o := by
  cases x with
  | conn c k =>
      rcases Option.map_eq_some_iff.mp hstep with ⟨⟨w', c', k'⟩, hconn, ho⟩
      rw [← ho]
      have hgood := good_connStep hw hx.1 hx.2 hconn
      have heffect := handlerEffect_step hconn
      have hext : Extends w w' := by
        constructor
        · rw [heffect.sessions]
        · rw [heffect.pins]
          exact fun _ h => h
      refine ⟨⟨?_, ?_⟩, hext, ⟨goodConn_extends hext hgood.1, goodAt_extends hext hgood.2⟩, rfl⟩
      · intro vs hvs
        dsimp only at hvs ⊢
        rw [heffect.session] at hvs
        rw [heffect.sessions, startedLast_extends hext (Nat.le_refl _)]
        exact hw.stream vs hvs
      · dsimp only
        rw [heffect.session, heffect.sessions, heffect.pins]
        exact hw.name
  | startEnter pkgPath sessionName =>
      rw [streamStep] at hstep
      split at hstep
      · cases hstep
        exact worldEffect_same hw rfl rfl (fun _ _ => trivial)
      · split at hstep
        · cases hstep
          exact worldEffect_same hw rfl rfl (fun _ _ => trivial)
        · cases hstep
          exact worldEffect_same hw rfl rfl (fun _ _ => trivial)
  | startOpen pkgPath sessionName =>
      cases hstep
      unfold startOpenStep
      split
      · exact worldEffect_same hw rfl rfl (fun _ _ => trivial)
      · split
        · exact worldEffect_same hw rfl rfl (fun _ _ => trivial)
        · exact worldEffect_same hw rfl rfl (fun _ _ => trivial)
  | startCommit vs sessionName =>
      cases hstep
      exact worldEffect_commit vs sessionName
  | setName sessionName =>
      cases hstep
      exact ⟨goodWorld_nameSession hw.stream rfl,
        ⟨List.prefix_refl _, fun _ h => mem_nameSession _ h⟩, trivial, rfl⟩
  | setIcon iconSize iconName =>
      cases hstep
      refine worldEffect_same hw ?_ ?_ (fun _ _ => trivial)
      · unfold setIcon
        split <;> rfl
      · unfold setIcon
        split <;> rfl
  | stopEnter =>
      cases hstep
      exact worldEffect_same hw rfl rfl (fun _ _ => trivial)
  | stopFirst calledIn next =>
      cases hstep
      refine worldEffect_same hw ?_ ?_ (fun _ _ => trivial)
      · unfold stopRunning
        split <;> rfl
      · unfold stopRunning
        split <;> rfl
  | stopSecond calledIn next =>
      cases hstep
      exact worldEffect_second hw calledIn next
  | stopWaiting calledIn next =>
      rw [streamStep] at hstep
      split at hstep
      · cases hstep
      · cases hstep
        exact worldEffect_second hw calledIn next
  | returned r => cases hstep

end Sections

/-!
# Runs
-/

theorem goodStreams_run {console : Console} {q : Pool StreamWorld StreamPoint}
    {ok : Pool StreamWorld StreamPoint -> Move StreamCall StreamAnswer -> Prop}
    {tr : List (Pool StreamWorld StreamPoint × Move StreamCall StreamAnswer)}
    (hrun : Run (streamProgram console).system ok noThreads tr q) :
    PoolInv GoodWorld GoodPoint q := by
  refine run_invariant (fun hinv _ hnext => ?_) hrun ⟨⟨?_, ?_⟩, ?_⟩
  · refine poolInv_next ?_ ?_ ?_ hinv hnext
    · intro c _
      cases c with
      | connect => exact ⟨⟨(fun _ hr => by cases hr), (fun _ hs => by cases hs)⟩, trivial⟩
      | _ => trivial
    · intro t x a o _ hpoint hstep
      have heffect := worldEffect_step hinv.shared
        (hinv.threads x (List.mem_of_getElem? hpoint)) hstep
      refine ⟨heffect.good, heffect.point, ?_⟩
      intro y hy
      rw [heffect.created] at hy
      cases hy
    · intro t x a o y _ hpoint hstep _ hy
      have heffect := worldEffect_step hinv.shared
        (hinv.threads x (List.mem_of_getElem? hpoint)) hstep
      exact goodPoint_extends heffect.extension hy
  · intro vs hvs
    cases hvs
  · intro hne
    exact absurd rfl hne
  · intro x hx
    cases hx

theorem goodReply_of_point {w : StreamWorld} {c : Conn} {k : ConnAt}
    (h : GoodPoint w (StreamPoint.conn c k)) {r : Reply} (hr : r ∈ repliesOf c k) :
    GoodReply w r := by
  rcases List.mem_append.mp hr with hsending | hold
  · cases k with
    | bodyAcquire b =>
        rw [List.mem_singleton.mp hsending]
        exact h.2.reply
    | body vs b =>
        rw [List.mem_singleton.mp hsending]
        exact h.2.1.reply
    | bodyRead vs b =>
        rw [List.mem_singleton.mp hsending]
        exact h.2.1.reply
    | bodyRelease vs b =>
        rw [List.mem_singleton.mp hsending]
        exact h.2
    | _ => cases hsending
  · exact h.1.replies r hold

theorem admitted_of_check {w : StreamWorld} {check : NameCheck} (h : GoodCheck w check) :
    Admitted w check := by
  by_cases hpinned : check.pinned = ""
  · have hpkg := h.admits
    rw [admits, hpinned] at hpkg
    exact Or.inr ⟨hpinned, hpkg⟩
  · have hbase := h.admits
    rw [admits, if_pos (by simpa using hpinned)] at hbase
    have heq : check.base = check.pinned := by simpa using hbase
    refine Or.inl ⟨heq.symm, ?_⟩
    rw [heq]
    exact h.pinned hpinned

/-- With no start in between, the session of the part is that of the check. -/
theorem source_of_sameStart {w : StreamWorld} {check : NameCheck} {c : Chunk}
    (h : GoodSource w check c.sentIn (c.source, c.privateSince)) (hsame : SameStart check c) :
    startedLast w check.checkedIn = some c.source := by
  rcases hsame with ⟨hsent, hprivate⟩
  cases hopened : c.privateSince with
  | none =>
      rw [hopened] at h
      rcases h with ⟨k, hk, hup⟩
      have hle := hup.started
      rw [hsent] at hle
      rw [Nat.le_antisymm hk hle]
      exact hup.stream
  | some openedIn =>
      rw [hopened] at h
      rw [← hprivate openedIn hopened]
      exact h.stream

theorem isolatedReply_of_good {w : StreamWorld} {r : Reply} (h : GoodReply w r) :
    IsolatedReply w r := by
  refine ⟨?_, ?_, h.package, h.laid, h.bounded⟩
  · intro c hc
    rcases h.source c hc with ⟨check, hcheck, hgood, hsource⟩
    exact ⟨check, hcheck, admitted_of_check hgood, source_of_sameStart hsource⟩
  · intro check hcheck hpinned hother
    cases hchunks : r.chunks with
    | nil => rfl
    | cons c cs =>
        have hmem : c ∈ r.chunks := by
          rw [hchunks]
          exact List.mem_cons_self
        rcases h.source c hmem with ⟨check', hcheck', hgood, _⟩
        rw [hcheck] at hcheck'
        cases hcheck'
        rcases admitted_of_check hgood with ⟨hsame, _⟩ | ⟨hnone, _⟩
        · exact absurd hsame hother
        · exact absurd hnone hpinned

/-- A connection, the thread {lit}`t`, sends one request and gets {lit}`count`
bytes of the package. -/
def requests (t count : Nat) (req : String) : List (Move StreamCall StreamAnswer) :=
  Move.call StreamCall.connect :: runs t 3 ++ [Move.run t { request := some req.toList }] ++
    runs t 4 ++ [Move.run t { count := count }]

/-- The answers of the thread {lit}`t` and the names pinned so far. -/
structure ReplySight where
  replies : List Reply
  pins : List (Nat × String)
deriving DecidableEq

def observeReplies (t : Nat) (q : Pool StreamWorld StreamPoint) : Option ReplySight :=
  match q.threads[t]? with
  | some (StreamPoint.conn c k) => some { replies := repliesOf c k, pins := q.shared.pins }
  | _ => none

theorem observedReplies_run {console : Console} {t : Nat}
    {ls : List (Move StreamCall StreamAnswer)} {s : ReplySight}
    (h : (execWhile (streamProgram console).system (fun _ _ => True) noThreads ls).bind
      (observeReplies t) = some s) :
    exists tr q c k, Run (streamProgram console).system (fun _ _ => True) noThreads tr q ∧
      q.threads[t]? = some (StreamPoint.conn c k) ∧ repliesOf c k = s.replies ∧
        q.shared.pins = s.pins := by
  rcases Option.bind_eq_some_iff.mp h with ⟨q, hexec, hobs⟩
  rcases run_of_execWhile hexec with ⟨tr, _, hrun⟩
  rw [observeReplies] at hobs
  split at hobs
  · rename_i c k hpoint
    cases hobs
    exact ⟨tr, q, c, k, hrun, hpoint, rfl, rfl⟩
  · cases hobs

def rangeRequest : String :=
  "GET /stream/a.pkg?r=1 HTTP/1.1\r\nRange: bytes=2-5\r\n\r\n"

/-- The answer to a request for four of the ten bytes of a pinned session. -/
def rangeReply : Reply where
  head := Head.partialContent 2 5 10
  check := some { base := "a.pkg", pinned := "a.pkg", checkedIn := 1 }
  chunks :=
    [{ source := tenBytes 0, privateSince := none, offset := 2, length := 4, sentIn := 1 }]

/-- The session has been started without a name. -/
def otherRequest : String :=
  "GET /stream/other.pkg HTTP/1.1\r\n\r\n"

def otherReply : Reply where
  head := Head.ok 10
  check := some { base := "other.pkg", pinned := "", checkedIn := 1 }
  chunks :=
    [{ source := tenBytes 0, privateSince := none, offset := 0, length := 10, sentIn := 1 }]

end StreamServer
end PkgManager
