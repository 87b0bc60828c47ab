import PkgManager.Http.Url
import PkgManager.Transition.ThreadPool

/-!
# Connections and their holders

A connection is held by a local variable, by the pool of a session or by the stream of a session.
A thread is a program over the steps that move connections between these; what the network and the
clock do is answered from outside.
-/

namespace PkgManager
namespace Connections

open CString
open Http
open PkgManager.Parser

/-!
# Data
-/

/-- {lit}`http_conn_t`; the number is history and tells connections apart. -/
structure Conn where
  id : Nat
  ep : HttpUrl
  alive : Bool

def Conn.dead (c : Conn) : Conn :=
  { c with alive := false }

/-- The numbers of the connections in a variable. -/
def ids (c : Option Conn) : List Nat :=
  c.toList.map Conn.id

/-- {lit}`http_resp_t` -/
structure Resp where
  status : Int := 0
  contentLength : Int := -1
  chunked : Bool := false
  connClose : Bool := false
  hasRange : Bool := false
  rangeStart : Nat := 0
  rangeTotal : Nat := 0
  location : Text := []
  bodyRead : Nat := 0

/-- {lit}`fetch_opts_t` -/
structure FetchOpts where
  isHead : Bool := false
  rangeStart : Nat := 0
  rangeLen : Nat := 0
  rangeBuf : Bool := false
  body : Bool := false

/-- The end of a body that is read as a whole. -/
inductive BodyEnd where
  | whole
  | tooBig
  | lost
  | noMemory
deriving DecidableEq

/-- The answers from outside.  There is no response when the request cannot be sent or no valid
response is read. -/
structure Answer where
  timedOut : Bool := false
  allocated : Bool := true
  connects : Bool := true
  handshakes : Bool := true
  response : Option Resp := none
  bodyEnd : BodyEnd := BodyEnd.whole
  count : Nat := 0
  exact : Bool := true
  canceling : Bool := false
  expired : Bool := false
  expected : Nat := 0
  next : Option Text := none

/-- What the lock of the stream guards: {lit}`st_conn`, {lit}`st_pos` and {lit}`st_end`. -/
structure Stream where
  conn : Option Conn
  pos : Nat
  stop : Nat

def noStream : Stream where
  conn := none
  pos := 0
  stop := 0

/-- What a session is read for. -/
structure View where
  origin : Text
  u : HttpUrl
  redirected : Bool
  generation : Nat
  resilient : Bool
  size : Nat

/-- {lit}`http_file_session_t`.  While a thread has the lock of the stream, the thread has what the
lock guards. -/
structure Session where
  view : View
  idle : List Conn
  stream : Option Stream

/-!
# Programs
-/

/-- What a thread does next. -/
inductive Prog where
  | stop
  | ask (k : Answer -> Prog)
  | acquire (k : Option Nat -> Prog)
  | release (id : Nat) (k : Prog)
  | close (c : Conn) (k : Prog)
  | look (s : Nat) (k : View -> Prog)
  | setUrl (s : Nat) (finalUrl : Text) (u : HttpUrl) (k : Prog)
  | setResilient (s : Nat) (resilient : Bool) (k : Prog)
  | take (s : Nat) (k : Option Conn -> Prog)
  | give (s : Nat) (c : Conn) (k : Bool -> Prog)
  | lockStream (s : Nat) (k : Stream -> Prog)
  | setStream (st : Stream) (k : Prog)
  | unlockStream (k : Prog)
  | create (view : View) (k : Nat -> Prog)
  | dissolve (s : Nat) (k : List Conn -> Stream -> Prog)

/-- The globals; a session that was freed leaves its name.  History: the connections by number,
those that {lit}`conn_close` was called for, and the slots given back without a connection. -/
structure Net where
  live : Nat
  sessions : List (Option Session)
  next : Nat
  closed : List Nat
  released : List Nat

/-- A thread with the connections in its locals, and what it has under the lock of a session. -/
structure Thread where
  prog : Prog
  session : Option Nat
  held : List Nat
  slot : Option (Nat × Stream)

/-- {lit}`PKGMGR_CONSOLE_PS4` and {lit}`PKGMGR_HAVE_TLS` -/
structure Build where
  maxLive : Nat
  poolMax : Nat
  haveTls : Bool

/-!
# Steps
-/

def Net.session (w : Net) (s : Nat) : Option Session :=
  (w.sessions[s]?).join

def Net.setSession (w : Net) (s : Nat) (session : Option Session) : Net :=
  { w with sessions := w.sessions.set s session }

/-- No other thread is on its way in the session. -/
def alone (p : Transition.Pool Net Thread) (t s : Nat) : Bool :=
  (p.threads.eraseIdx t).all (fun x =>
    match x.prog with
    | Prog.stop => true
    | _ => x.session != some s)

def Thread.go (x : Thread) (prog : Prog) : Thread :=
  { x with prog := prog }

/-- The numbers of the connections that are guarded. -/
def Stream.ids (st : Stream) : List Nat :=
  Connections.ids st.conn

def stepAt (b : Build) (p : Transition.Pool Net Thread) (t : Nat) (x : Thread) (a : Answer) :
    Option (Net × Thread) :=
  let w := p.shared
  match x.prog with
  | .stop => none
  | .ask k => some (w, x.go (k a))
  -- `conn_slot_acquire` waits for a slot until its time is over.
  | .acquire k =>
      if w.live < b.maxLive then
        some ({ w with live := w.live + 1, next := w.next + 1 },
          { x with prog := k (some w.next), held := w.next :: x.held })
      else if a.timedOut then some (w, x.go (k none))
      else none
  | .release id k =>
      some ({ w with live := w.live - 1, released := w.released ++ [id] },
        { x with prog := k, held := x.held.erase id })
  | .close c k =>
      some ({ w with live := w.live - 1, closed := w.closed ++ [c.id] },
        { x with prog := k, held := x.held.erase c.id })
  | .look s k => (w.session s).map (fun session => (w, x.go (k session.view)))
  | .setUrl s finalUrl u k =>
      (w.session s).map (fun session =>
        (w.setSession s (some { session with
          view := { session.view with
            u := u
            redirected := finalUrl != session.view.origin
            generation := session.view.generation + 1 } }), x.go k))
  | .setResilient s resilient k =>
      (w.session s).map (fun session =>
        (w.setSession s (some { session with
          view := { session.view with resilient := resilient } }), x.go k))
  | .take s k =>
      (w.session s).map (fun session =>
        match session.idle.getLast? with
        | none => (w, x.go (k none))
        | some c =>
            (w.setSession s (some { session with idle := session.idle.dropLast }),
              { x with prog := k (some c), held := c.id :: x.held }))
  | .give s c k =>
      (w.session s).map (fun session =>
        if session.idle.length < b.poolMax then
          (w.setSession s (some { session with idle := session.idle ++ [c] }),
            { x with prog := k true, held := x.held.erase c.id })
        else (w, x.go (k false)))
  | .lockStream s k =>
      match w.session s with
      | none => none
      | some session =>
          match session.stream, x.slot with
          | some st, none =>
              some (w.setSession s (some { session with stream := none }),
                { x with prog := k st, slot := some (s, st) })
          | _, _ => none
  | .setStream st k =>
      x.slot.map (fun slot =>
        (w, { x with prog := k, slot := some (slot.1, st)
                     held := (slot.2.ids ++ x.held).diff st.ids }))
  | .unlockStream k =>
      match x.slot with
      | none => none
      | some (s, st) =>
          match w.session s with
          | none => none
          | some session =>
              match session.stream with
              | some _ => none
              | none =>
                  some (w.setSession s (some { session with stream := some st }),
                    { x with prog := k, slot := none })
  | .create view k =>
      some ({ w with sessions := w.sessions ++
          [some { view := view, idle := [], stream := some noStream }] },
        { x with prog := k w.sessions.length, session := some w.sessions.length })
  | .dissolve s k =>
      if alone p t s then
        match w.session s with
        | none => none
        | some session =>
            session.stream.map (fun st =>
              (w.setSession s none,
                { x with prog := k session.idle st
                         held := session.idle.map Conn.id ++ st.ids ++ x.held }))
      else none

/-!
# Opening and closing
-/

/-- {lit}`conn_open` -/
def connOpen (b : Build) (u : HttpUrl) (k : Option Conn -> Prog) : Prog :=
  if u.https ∧ ¬b.haveTls then k none
  else
    .acquire (fun slot =>
      match slot with
      | none => k none
      | some id =>
          .ask (fun a =>
            let c : Conn := { id := id, ep := { u with path := [] }, alive := true }
            if ¬(a.allocated ∧ a.connects) then .release id (k none)
            else if u.https ∧ ¬a.handshakes then .close c (k none)
            else k (some c)))

def closeIf (c : Option Conn) (k : Prog) : Prog :=
  match c with
  | none => k
  | some c => .close c k

def closeEach (cs : List Conn) (k : Prog) : Prog :=
  cs.foldr Prog.close k

/-- {lit}`session_give` -/
def sessionGive (s : Nat) (c : Option Conn) (k : Prog) : Prog :=
  match c with
  | none => k
  | some c =>
      if c.alive then .give s c (fun kept => if kept then k else .close c k) else .close c k

/-!
# Requests
-/

/-- {lit}`http_read_body`: its result, the connection and the number of bytes. -/
def httpReadBody (c : Conn) (r : Resp) (isHead wantsOut : Bool) (k : Int -> Conn -> Nat -> Prog) :
    Prog :=
  if isHead ∨ r.status = 204 ∨ r.status = 304 then k 0 c 0
  else
    .ask (fun a =>
      let untilClose := !r.chunked && decide (r.contentLength < 0)
      let whole := if untilClose ∨ r.connClose then c.dead else c
      match a.bodyEnd with
      | .whole => k 0 whole a.count
      | .tooBig => k (if wantsOut then -2 else 0) c.dead 0
      | .lost => if untilClose then k 0 whole a.count else k (-1) c.dead 0
      | .noMemory =>
          if wantsOut then k (-1) (if untilClose then c.dead else c) 0 else k 0 whole a.count)

/-- The part of {lit}`fetch_on` that reads the body. -/
def readPart (c : Conn) (r : Resp) (o : FetchOpts) (k : Int -> Conn -> Resp -> Prog) : Prog :=
  if o.rangeBuf ∧ ¬o.isHead ∧ (r.status = 206 ∨ r.status = 200) then
    let avail := if 0 ≤ r.contentLength then r.contentLength.toNat else o.rangeLen
    if r.status = 206 ∧ r.hasRange ∧ r.rangeStart ≠ o.rangeStart then k (-1) c.dead r
    else if r.status = 200 ∧ o.rangeStart ≠ 0 then k 0 c.dead r
    else if r.chunked then
      httpReadBody c r false true (fun rc c len =>
        k rc c (if rc = 0 then { r with bodyRead := min len o.rangeLen } else r))
    else
      .ask (fun a =>
        let want := min avail o.rangeLen
        k (if a.exact then 0 else -1) (if r.status = 200 ∨ want ≠ avail then c.dead else c)
          (if a.exact then { r with bodyRead := want } else r))
  else
    httpReadBody c r o.isHead (o.body && !o.isHead && decide (200 ≤ r.status ∧ r.status < 300))
      (fun rc c _ => k rc c r)

/-- A connection to another endpoint, or one that is dead, is closed. -/
def dropUnusable (c : Option Conn) (u : HttpUrl) (k : Option Conn -> Prog) : Prog :=
  match c with
  | none => k none
  | some c => if c.alive ∧ sameEndpoint c.ep u then k (some c) else .close c (k none)

def connFor (b : Build) (c : Option Conn) (u : HttpUrl) (k : Option Conn -> Prog) : Prog :=
  match c with
  | some c => k (some c)
  | none => connOpen b u k

/-- {lit}`fetch_on` with the attempts that are left: the status, the variable and the response. -/
def fetchOn (b : Build) (u : HttpUrl) (o : FetchOpts) :
    Nat -> Option Conn -> (Int -> Option Conn -> Resp -> Prog) -> Prog
  | 0, pc, k => k (-1) pc {}
  | attempts + 1, pc, k =>
      dropUnusable pc u (fun kept =>
        connFor b kept u (fun pc =>
          match pc with
          | none => k (-1) none {}
          | some c =>
              .ask (fun a =>
                match a.response with
                | none =>
                    .close c (if kept.isSome then fetchOn b u o attempts none k else k (-1) none {})
                | some r =>
                    readPart c r o (fun rc c r =>
                      let c := if r.connClose then c.dead else c
                      if rc < 0 then .close c (k (-1) none r)
                      else if c.alive then k r.status (some c) r
                      else .close c (k r.status none r)))))

/-- What {lit}`http_fetch` yields; there is no last address when it fails. -/
structure Fetched where
  st : Int
  pc : Option Conn
  r : Resp
  finalUrl : Text

def isRedirect (status : Int) : Bool :=
  [301, 302, 303, 307, 308].contains status

/-- {lit}`http_fetch` with the hops that are left -/
def httpFetch (b : Build) (o : FetchOpts) : Nat -> Text -> Option Conn -> (Fetched -> Prog) -> Prog
  | 0, _, pc, k => k { st := -1, pc := pc, r := {}, finalUrl := [] }
  | hops + 1, cur, pc, k =>
      match httpUrlParse cur with
      | none => k { st := -1, pc := pc, r := {}, finalUrl := [] }
      | some u =>
          fetchOn b u o 2 pc (fun st pc r =>
            if st < 0 then k { st := st, pc := pc, r := r, finalUrl := [] }
            else if isRedirect st ∧ r.location ≠ [] then
              match urlResolve cur r.location httpUrlMax with
              | none => k { st := -1, pc := pc, r := r, finalUrl := [] }
              | some next => httpFetch b o hops (copied httpUrlMax next) pc k
            else k { st := st, pc := pc, r := r, finalUrl := cur })

/-- {lit}`HTTP_MAX_REDIRECTS` and the first request -/
def hops : Nat := 6

def fetchUrl (b : Build) (o : FetchOpts) (url : Text) (pc : Option Conn) (k : Fetched -> Prog) :
    Prog :=
  httpFetch b o hops (copied httpUrlMax url) pc k

/-- {lit}`range_probe_st`: whether ranges work. -/
def rangeProbe (b : Build) (url : Text) (pc : Option Conn) (k : Int -> Fetched -> Prog) : Prog :=
  fetchUrl b { rangeLen := 1, rangeBuf := true } url pc (fun got =>
    k (if got.st = 206 ∧ 0 < got.r.rangeTotal then 1 else if got.st = 200 then 0 else -1) got)

/-!
# One-shot operations
-/

/-- {lit}`http_source_stat` -/
def httpSourceStat (b : Build) (url : Text) : Prog :=
  .ask (fun a =>
    if a.expected ≠ 0 then .stop
    else
      fetchUrl b { isHead := true } url none (fun got =>
        if got.st = 200 ∧ 0 ≤ got.r.contentLength then closeIf got.pc .stop
        else if 0 < got.st then rangeProbe b url got.pc (fun _ got => closeIf got.pc .stop)
        else closeIf got.pc .stop))

/-- {lit}`http_source_pread` -/
def httpSourcePread (b : Build) (url : Text) (count offset : Nat) : Prog :=
  if count = 0 then .stop
  else
    fetchUrl b { rangeStart := offset, rangeLen := count, rangeBuf := true } url none (fun got =>
      closeIf got.pc .stop)

/-- {lit}`scan_run` fetches listings on one connection, as long as there is a next one. -/
def scanRun (b : Build) : Nat -> Option Conn -> (Option Conn -> Prog) -> Prog
  | 0, pc, k => k pc
  | listings + 1, pc, k =>
      .ask (fun a =>
        match a.next with
        | none => k pc
        | some url => fetchUrl b { body := true } url pc (fun got => scanRun b listings got.pc k))

/-- {lit}`scan_with` -/
def scanWith (b : Build) (listings : Nat) : Prog :=
  scanRun b listings none (fun pc => closeIf pc .stop)

/-- {lit}`http_source_test`, from the certificate on -/
def httpSourceTest (b : Build) (u : HttpUrl) (listings : Nat) : Prog :=
  let scan := scanRun b listings none (fun pc =>
    closeIf pc (.ask (fun a =>
      match a.next with
      | none => .stop
      | some url => rangeProbe b url none (fun _ got => closeIf got.pc .stop))))
  if u.https ∧ ¬b.haveTls then .stop
  else if u.https then connOpen b u (fun probe => closeIf probe scan)
  else scan

/-!
# Sessions
-/

/-- {lit}`http_file_session_open` -/
def httpFileSessionOpen (b : Build) (url : Text) : Prog :=
  rangeProbe b url none (fun rp got =>
    .ask (fun a =>
      match httpUrlParse got.finalUrl with
      | some u =>
          if rp = 1 ∧ (a.expected = 0 ∨ got.r.rangeTotal = a.expected) then
            let origin := copied httpUrlMax url
            .create
              { origin := origin
                u := u
                redirected := got.finalUrl != origin
                generation := 1
                resilient := false
                size := got.r.rangeTotal }
              (fun s => sessionGive s got.pc .stop)
          else closeIf got.pc .stop
      | none => closeIf got.pc .stop))

def isTemporary (status : Int) : Bool :=
  decide (status < 0) || decide (500 ≤ status) || status == 408 || status == 429

/-- {lit}`session_refresh`; more than one thread may refresh here. -/
def sessionRefresh (b : Build) (s seen : Nat) (k : Int -> Prog) : Prog :=
  .look s (fun v =>
    if v.generation ≠ seen then k 0
    else
      rangeProbe b v.origin none (fun rp got =>
        match httpUrlParse got.finalUrl with
        | some u =>
            if rp = 1 ∧ got.r.rangeTotal = v.size then
              .setUrl s got.finalUrl u (sessionGive s got.pc (k 0))
            else closeIf got.pc (k (if rp = 1 ∨ ¬isTemporary got.st then -1 else -2))
        | none => closeIf got.pc (k (if rp = 1 ∨ ¬isTemporary got.st then -1 else -2))))

/-- A link that is signed for some time is asked for again. -/
def isExpiredLink (redirected : Bool) (status : Int) : Bool :=
  decide (300 ≤ status ∧ status < 400) ||
    (redirected && [400, 401, 403, 404, 410].contains status)

/-- {lit}`session_read_direct` with a limit on the turns of its loop -/
def sessionReadDirect (b : Build) (s count offset : Nat) : Nat -> Nat -> Prog
  | 0, _ => .stop
  | turns + 1, refreshes =>
      .look s (fun v =>
        let want := min count (v.size - offset)
        let again := Prog.ask (fun a =>
          if ¬v.resilient ∨ a.canceling ∨ a.expired then .stop
          else sessionReadDirect b s count offset turns refreshes)
        if want = 0 then .stop
        else
          .take s (fun c =>
            fetchOn b v.u { rangeStart := offset, rangeLen := want, rangeBuf := true } 2 c
              (fun st c r =>
                sessionGive s c
                  (if st = 206 ∧ 0 < r.bodyRead then .stop
                  else if isExpiredLink v.redirected st then
                    if 3 ≤ refreshes then .stop
                    else
                      sessionRefresh b s v.generation (fun rr =>
                        if rr = 0 then sessionReadDirect b s count offset turns (refreshes + 1)
                        else if rr = -1 then .stop
                        else .ask (fun a =>
                          if ¬v.resilient ∨ a.canceling ∨ a.expired then .stop
                          else sessionReadDirect b s count offset turns (refreshes + 1)))
                  else if isTemporary st then again
                  else .stop))))

/-- {lit}`stream_drop` -/
def streamDrop (st : Stream) (k : Prog) : Prog :=
  .setStream noStream (closeIf st.conn k)

/-- {lit}`HTTP_STREAM_WINDOW` -/
def streamWindow : Nat := 8 * 1024 * 1024

/-- {lit}`stream_open` with the attempts that are left -/
def streamOpen (b : Build) (u : HttpUrl) (offset : Nat) :
    Nat -> Option Conn -> (Option Stream -> Prog) -> Prog
  | 0, c, k => closeIf c (k none)
  | attempts + 1, c, k =>
      dropUnusable c u (fun kept =>
        connFor b kept u (fun c =>
          match c with
          | none => k none
          | some c =>
              .ask (fun a =>
                match a.response with
                | none =>
                    .close c (if kept.isSome then streamOpen b u offset attempts none k else k none)
                | some r =>
                    if r.status ≠ 206 ∨ r.chunked ∨ r.contentLength ≤ 0 ∨
                        (r.hasRange ∧ r.rangeStart ≠ offset) then .close c (k none)
                    else
                      let st : Stream :=
                        { conn := some (if r.connClose then c.dead else c)
                          pos := offset
                          stop := offset + r.contentLength.toNat }
                      .setStream st (k (some st)))))

/-- The end of {lit}`session_read_streaming`. -/
def deliver (b : Build) (s count offset turns : Nat) (st : Stream) : Prog :=
  let take := min (st.stop - st.pos) count
  .ask (fun a =>
    if ¬a.exact then
      streamDrop st (.unlockStream (sessionReadDirect b s count offset turns 0))
    else if st.stop ≤ st.pos + take then
      .setStream { st with conn := none, pos := st.pos + take }
        (sessionGive s st.conn (.unlockStream .stop))
    else .setStream { st with pos := st.pos + take } (.unlockStream .stop))

/-- {lit}`session_read_streaming` -/
def sessionReadStreaming (b : Build) (s count offset turns : Nat) : Prog :=
  .look s (fun v =>
    let want := min count (v.size - offset)
    if want = 0 then .stop
    else
      .lockStream s (fun st =>
        if st.conn.isSome ∧ offset = st.pos ∧ st.pos < st.stop then
          deliver b s want offset turns st
        else
          streamDrop st
            (.look s (fun v =>
              .take s (fun c =>
                streamOpen b v.u offset 2 c (fun opened =>
                  match opened with
                  | some st => deliver b s want offset turns st
                  | none => .unlockStream (sessionReadDirect b s want offset turns 0)))))))

/-- {lit}`http_file_session_read` -/
def httpFileSessionRead (b : Build) (s count offset turns : Nat) : Prog :=
  .look s (fun v =>
    if v.resilient then sessionReadStreaming b s count offset turns
    else sessionReadDirect b s count offset turns 0)

/-- {lit}`http_file_session_close` -/
def httpFileSessionClose (s : Nat) : Prog :=
  .dissolve s (fun idle st => closeEach idle (closeIf st.conn .stop))

/-!
# The system
-/

inductive Call where
  | stat (url : Text)
  | pread (url : Text) (count offset : Nat)
  | scan (listings : Nat)
  | test (u : HttpUrl) (listings : Nat)
  | sessionOpen (url : Text)
  | setResilient (s : Nat) (resilient : Bool)
  | read (s count offset turns : Nat)
  | sessionClose (s : Nat)

def Call.prog (b : Build) : Call -> Prog
  | .stat url => httpSourceStat b url
  | .pread url count offset => httpSourcePread b url count offset
  | .scan listings => scanWith b listings
  | .test u listings => httpSourceTest b u listings
  | .sessionOpen url => httpFileSessionOpen b url
  | .setResilient s resilient => .setResilient s resilient .stop
  | .read s count offset turns => httpFileSessionRead b s count offset turns
  | .sessionClose s => httpFileSessionClose s

/-- The session that a call is made for. -/
def Call.session : Call -> Option Nat
  | .setResilient s _ => some s
  | .read s _ _ _ => some s
  | .sessionClose s => some s
  | _ => none

def httpProgram (b : Build) : Transition.Program Net Thread Call Answer where
  entry c := { prog := c.prog b, session := c.session, held := [], slot := none }
  step p t x a := (stepAt b p t x a).map (fun r => { shared := r.1, point := r.2 })

def idleNet : Transition.Pool Net Thread where
  shared := { live := 0, sessions := [], next := 0, closed := [], released := [] }
  threads := []

end Connections
end PkgManager
