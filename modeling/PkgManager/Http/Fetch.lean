import PkgManager.Http.Url

/-!
# Requests on kept connections

A connection is kept after a response and used again for the same endpoint.  The network
decides what comes of each attempt; what is sent is decided here.
-/

namespace PkgManager
namespace Http

open CString
open PkgManager.Parser

/-- {lit}`http_source_config_t` -/
structure SourceConfig extends Scanner.HttpSourceConfig where
  username : Text
  password : Text
  tlsMode : Text
  tlsPin : Text

/-!
# Requests
-/

def cfgSameHost (cfg : Option SourceConfig) (u : HttpUrl) : Bool :=
  match cfg with
  | none => false
  | some cfg => (httpUrlParse cfg.url).any (fun cu => sameEndpoint cu u)

def cfgAppliesTo (cfg : Option SourceConfig) (u : HttpUrl) : Bool :=
  cfg.any (fun c => c.username != []) && cfgSameHost cfg u

def b64Digit (n : Nat) : UInt8 :=
  (ascii "ABCDEFGHIJKLMNOPQRSTUVWXYZabcdefghijklmnopqrstuvwxyz0123456789+/").getD (n % 64) 0

def b64Encode : Text -> Text
  | [] => []
  | [a] => [b64Digit (a.toNat / 4), b64Digit (a.toNat * 16), 61, 61]
  | [a, b] =>
      [b64Digit (a.toNat / 4), b64Digit (a.toNat * 16 + b.toNat / 16), b64Digit (b.toNat * 4), 61]
  | a :: b :: c :: rest =>
      [b64Digit (a.toNat / 4), b64Digit (a.toNat * 16 + b.toNat / 16),
        b64Digit (b.toNat * 4 + c.toNat / 64), b64Digit c.toNat] ++ b64Encode rest

/-- The header with the name and the password, or nothing. -/
def authHeader (cfg : Option SourceConfig) (u : HttpUrl) : Text :=
  match cfg with
  | none => []
  | some c =>
      if cfgAppliesTo cfg u then
        copied 400 (ascii "Authorization: Basic " ++
          b64Encode (copied 200 (c.username ++ ascii ":" ++ c.password)) ++ ascii "\r\n")
      else []

structure Request where
  u : HttpUrl
  method : Text
  range : Option (Nat × Nat)

def rangeHeader : Option (Nat × Nat) -> Text
  | none => []
  | some (rs, re) =>
      ascii "Range: bytes=" ++ intText rs ++ ascii "-" ++ intText re ++ ascii "\r\n"

/-- The bytes of a request. -/
def requestText (version : Text) (req : Request) (auth : Text) : Text :=
  req.method ++ ascii " " ++ req.u.path ++ ascii " HTTP/1.1\r\n" ++
    ascii "Host: " ++ copied 300 (hostAndPort req.u) ++ ascii "\r\n" ++
    ascii "User-Agent: pkg-manager-x/" ++ version ++ ascii "\r\n" ++
    ascii "Accept: */*\r\n" ++
    ascii "Accept-Encoding: identity\r\n" ++
    ascii "Connection: keep-alive\r\n" ++
    rangeHeader req.range ++ auth ++ ascii "\r\n"

/-!
# Connections
-/

def tlsVerify : Text := ascii "verify"

/-- How the certificate of an endpoint is checked. -/
def handshakeMode (cfg : Option SourceConfig) (force : Option Text) (ep : HttpUrl) : Text :=
  let mode :=
    match force, cfg with
    | some mode, _ => mode
    | none, some c => if cfgSameHost cfg ep then c.tlsMode else tlsVerify
    | none, none => tlsVerify
  if mode = [] then tlsVerify else mode

/-- {lit}`http_conn_t`, with the mode of its handshake. -/
structure Conn where
  ep : HttpUrl
  alive : Bool
  mode : Option Text

inductive Event where
  | handshake (ep : HttpUrl) (mode : Text)
  /-- A request on the connection to an endpoint, with the header for the credentials in it. -/
  | sent (ep : HttpUrl) (auth text : Text)

structure Response where
  status : Nat
  location : Text

/-- What the network makes of an attempt. -/
structure Answer where
  connects : Bool
  handshakes : Bool
  /-- There is no valid response when the request or the response is lost. -/
  response : Option Response
  bodyRead : Bool
  staysAlive : Bool

/-- What the network answers, attempt by attempt, and two constants of the build. -/
structure Net where
  answer : Nat -> Answer
  version : Text
  poolMax : Nat

structure Client where
  attempts : Nat
  log : List Event

def Client.note (c : Client) (e : Event) : Client where
  attempts := c.attempts
  log := c.log ++ [e]

def Client.next (c : Client) : Client where
  attempts := c.attempts + 1
  log := c.log

variable (net : Net) (cfg : Option SourceConfig)

def connOpen (force : Option Text) (u : HttpUrl) (c : Client) : Option Conn × Client :=
  let a := net.answer c.attempts
  let ep := { u with path := [] }
  if a.connects = false then (none, c)
  else if u.https then
    let mode := handshakeMode cfg force ep
    (if a.handshakes then some { ep := ep, alive := true, mode := some mode } else none,
      c.note (.handshake ep mode))
  else (some { ep := ep, alive := true, mode := none }, c)

/-- {lit}`http_send_request`; a request that does not fit is not sent. -/
def httpSendRequest (k : Conn) (req : Request) (c : Client) : Bool × Client :=
  let auth := authHeader cfg req.u
  let text := requestText net.version req auth
  if 2048 ≤ text.length then (false, c) else (true, c.note (.sent k.ep auth text))

/-- The kept connection when it can be used, else a new one. -/
def connFor (u : HttpUrl) (pc : Option Conn) (c : Client) : Option Conn × Client :=
  match pc.filter (fun k => k.alive && sameEndpoint k.ep u) with
  | some k => (some k, c)
  | none => connOpen net cfg none u c

structure Fetched where
  conn : Option Conn
  response : Option Response
  client : Client

/-- {lit}`fetch_on` with the attempts that are left: the second one is for a connection that
was kept and turned out to be stale. -/
def fetchOn (req : Request) : Nat -> Option Conn -> Client -> Fetched
  | 0, _, c => { conn := none, response := none, client := c }
  | attempts + 1, pc, c =>
      let reused := (pc.filter (fun k => k.alive && sameEndpoint k.ep req.u)).isSome
      match connFor net cfg req.u pc c with
      | (none, c) => { conn := none, response := none, client := c.next }
      | (some k, c) =>
          let a := net.answer c.attempts
          let sent := httpSendRequest net cfg k req c
          match (if sent.1 then a.response else none) with
          | none =>
              if reused then fetchOn req attempts none sent.2.next
              else { conn := none, response := none, client := sent.2.next }
          | some r =>
              if a.bodyRead = false then { conn := none, response := none, client := sent.2.next }
              else
                { conn := if a.staysAlive then some k else none
                  response := some r
                  client := sent.2.next }

def isRedirect (status : Nat) : Bool :=
  [301, 302, 303, 307, 308].contains status

/-- {lit}`http_fetch` with the hops that are left -/
def httpFetch (method : Text) (range : Option (Nat × Nat)) :
    Nat -> Text -> Option Conn -> Client -> Fetched
  | 0, _, pc, c => { conn := pc, response := none, client := c }
  | hops + 1, cur, pc, c =>
      match httpUrlParse cur with
      | none => { conn := pc, response := none, client := c }
      | some u =>
          let got := fetchOn net cfg { u := u, method := method, range := range } 2 pc c
          match got.response with
          | none => got
          | some r =>
              if isRedirect r.status && r.location != [] then
                match urlResolve cur r.location httpUrlMax with
                | none => { got with response := none }
                | some next => httpFetch method range hops next got.conn got.client
              else got

/-- {lit}`stream_open` with the attempts that are left.  The connection is kept with the body
unread on it. -/
def streamOpen (req : Request) : Nat -> Option Conn -> Client -> Fetched
  | 0, _, c => { conn := none, response := none, client := c }
  | attempts + 1, pc, c =>
      let reused := (pc.filter (fun k => k.alive && sameEndpoint k.ep req.u)).isSome
      match connFor net cfg req.u pc c with
      | (none, c) => { conn := none, response := none, client := c.next }
      | (some k, c) =>
          let a := net.answer c.attempts
          let sent := httpSendRequest net cfg k req c
          match (if sent.1 then a.response else none) with
          | none =>
              if reused then streamOpen req attempts none sent.2.next
              else { conn := none, response := none, client := sent.2.next }
          | some r =>
              if r.status = 206 ∧ a.bodyRead then
                { conn := some { k with alive := a.staysAlive }
                  response := some r
                  client := sent.2.next }
              else { conn := none, response := none, client := sent.2.next }

/-- The connection of {lit}`http_source_test` that only reads the certificate. -/
def certificateProbe (c : Client) : Client :=
  match cfg.bind (fun s => httpUrlParse s.url) with
  | none => c
  | some u => if u.https then (connOpen net cfg (some (ascii "none")) u c).2.next else c

end Http
end PkgManager
