import PkgManager.WebSocket.Upgrade

/-!
# Requests to the stream server

What {lit}`serve_one_request` reads out of the header block of a request, and
the answers it gives.  The block is a buffer that a zero byte may cut short.
-/

namespace PkgManager
namespace StreamServer

open WebSocket (strstr strchr crlf crlf2 scanToken hasHeader)

/-- {lit}`PKGMGR_CONSOLE_PS4` or not. -/
inductive Console where
  | ps4
  | ps5
deriving DecidableEq

/-- {lit}`STREAM_SEND_CHUNK` -/
def Console.sendChunk : Console -> Nat
  | Console.ps4 => 64 * 1024
  | Console.ps5 => 2048 * 1024

/-- {lit}`STREAM_MAX_REQ_PER_CONN` -/
def maxReqPerConn : Nat := 100

/-- The text up to the first zero byte. -/
def cString (req : List Char) : List Char :=
  req.takeWhile (fun c => c != '\x00')

def isBlank (c : Char) : Bool :=
  c == ' ' || c == '\t'

/-!
# The request line and the headers that decide about the connection
-/

/-- The copy of the request line into a buffer of 512 bytes. -/
def requestLine (req : List Char) : List Char :=
  cString ((req.takeWhile (fun c => c != '\r' && c != '\n')).take 511)

structure Request where
  method : List Char
  path : List Char
  version : List Char
deriving DecidableEq

/-- {lit}`sscanf(line, "%15s %511s %15s", method, path, version)` -/
def scanRequest (line : List Char) : Request :=
  let method := scanToken 15 line
  let path := scanToken 511 method.2
  { method := method.1, path := path.1, version := (scanToken 15 path.2).1 }

def Request.isHead (r : Request) : Bool := r.method == "HEAD".toList

def Request.isGet (r : Request) : Bool := r.method == "GET".toList

/-- The path without its query. -/
def Request.route (r : Request) : List Char :=
  r.path.takeWhile (fun c => c != '?')

def Request.base (r : Request) : String :=
  baseName (String.ofList r.route)

/-- {lit}`strcasestr(text, needle) != NULL`, for a needle in lower case -/
def mentions (needle : String) (text : List Char) : Bool :=
  (strstr needle.toList (lowerCase text)).isSome

def keepWanted (req : List Char) (r : Request) : Bool :=
  let connection := hasHeader (cString req) "Connection" 96
  let wantsClose := connection.any (mentions "close")
  let wantsKeep := connection.any (mentions "keep-alive")
  !wantsClose && (wantsKeep || r.version == "HTTP/1.1".toList)

/-- The name ends in {lit}`.pkg` and has more than these four characters. -/
def isPkg (base : String) : Bool :=
  let blen := base.toList.length
  decide (blen > 4) && lowerCase (base.toList.drop (blen - 4)) == ".pkg".toList

/-!
# The range

A place in the text is the rest of the text from there, so that a place before
another one has the longer rest.
-/

inductive RangeOutcome where
  | absent
  | unsatisfiable
  | range (start stop : Nat)
deriving DecidableEq

/-- The first line behind a line end that starts with {lit}`Range:`, blanks in
front of it aside. -/
def rangeLine : Nat -> List Char -> Option (List Char)
  | 0, _ => none
  | fuel + 1, scan =>
      match strchr '\n' scan with
      | none => none
      | some eol =>
          let next := (eol.drop 1).dropWhile isBlank
          if hasPrefixCase "range:".toList next then some next else rangeLine fuel next

def firstOf : Option (List Char) -> Option (List Char) -> Option (List Char)
  | none, r => r
  | some rl, none => some rl
  | some rl, some r => if r.length > rl.length then some r else some rl

/-- The text from the header on; without a line end in front of it, three
spellings are looked for anywhere. -/
def rangeHeader (req : List Char) : Option (List Char) :=
  match rangeLine (req.length + 1) req with
  | some rl => some rl
  | none =>
      firstOf (firstOf (strstr "Range:".toList req) (strstr "range:".toList req))
        (strstr "RANGE:".toList req)

def lastOf (total : Nat) : Nat :=
  if total > 0 then total - 1 else 0

/-- The place lies behind the end of the line, when the line has an end. -/
def pastEnd (le : Option (List Char)) (place : List Char) : Bool :=
  le.any (fun eol => decide (place.length < eol.length))

/-- The last bytes of the package, as many as the text says. -/
def suffixRange (total : Nat) (count : List Char) : RangeOutcome :=
  let suffix := min (strtoul count).1 total
  if total = 0 ∨ suffix = 0 then RangeOutcome.unsatisfiable
  else RangeOutcome.range (total - suffix) (total - 1)

/-- The last offset, from the text behind the dash. -/
def rangeStop (le : Option (List Char)) (total : Nat) (behind : List Char) : Nat :=
  let onLine := le.all (fun eol => decide (behind.length > eol.length))
  if !behind.isEmpty && onLine && behind.head?.any Char.isDigit then (strtoul behind).1
  else lastOf total

def clampRange (start stop total : Nat) : RangeOutcome :=
  if total = 0 ∨ start > stop ∨ start ≥ total then RangeOutcome.unsatisfiable
  else RangeOutcome.range start (if stop ≥ total then total - 1 else stop)

/-- The range from the text behind {lit}`bytes=` and from the dash in it. -/
def parseRange (le : Option (List Char)) (total : Nat) (b dash : List Char) : RangeOutcome :=
  if dash.length = b.length then suffixRange total (dash.drop 1)
  else clampRange (strtoul b).1 (rangeStop le total (dash.drop 1)) total

/-- {lit}`find_range` -/
def findRange (req : List Char) (total : Nat) : RangeOutcome :=
  match rangeHeader req with
  | none => RangeOutcome.absent
  | some rl =>
      match strstr "bytes=".toList rl with
      | none => RangeOutcome.absent
      | some b =>
          if pastEnd (strstr crlf rl) b then RangeOutcome.absent
          else
            match strchr '-' (b.drop 6) with
            | none => RangeOutcome.absent
            | some dash =>
                if pastEnd (strstr crlf rl) dash then RangeOutcome.absent
                else parseRange (strstr crlf rl) total (b.drop 6) dash

theorem suffixRange_bounds {total start stop : Nat} {count : List Char}
    (h : suffixRange total count = RangeOutcome.range start stop) :
    start ≤ stop ∧ stop < total := by
  rw [suffixRange] at h
  split at h
  · cases h
  · rename_i hsome
    cases h
    omega

theorem clampRange_bounds {s e total start stop : Nat}
    (h : clampRange s e total = RangeOutcome.range start stop) :
    start ≤ stop ∧ stop < total := by
  rw [clampRange] at h
  split at h
  · cases h
  · rename_i hsome
    rcases RangeOutcome.range.inj h with ⟨hstart, hstop⟩
    rw [← hstart, ← hstop]
    split
    · omega
    · omega

/-- A range that is served lies in the package. -/
theorem findRange_bounds {req : List Char} {total start stop : Nat}
    (h : findRange req total = RangeOutcome.range start stop) :
    start ≤ stop ∧ stop < total := by
  rw [findRange] at h
  split at h
  · cases h
  · split at h
    · cases h
    · split at h
      · cases h
      · split at h
        · cases h
        · split at h
          · cases h
          · rw [parseRange] at h
            split at h
            · exact suffixRange_bounds h
            · exact clampRange_bounds h

example : findRange "GET /a.pkg HTTP/1.1\r\nrange: bytes=5-\r\n\r\n".toList 10 =
    RangeOutcome.range 5 9 := by
  decide

/-!
# The answers
-/

/-- The head of an answer: its status, and the numbers in its headers. -/
inductive Head where
  | methodNotAllowed
  | notFound
  | icon (size : Nat)
  | rangeNotSatisfiable (total : Nat)
  | partialContent (start stop total : Nat)
  | ok (total : Nat)
deriving DecidableEq

def Head.status : Head -> Nat
  | Head.methodNotAllowed => 405
  | Head.notFound => 404
  | Head.icon _ => 200
  | Head.rangeNotSatisfiable _ => 416
  | Head.partialContent _ _ _ => 206
  | Head.ok _ => 200

/-- The head of an answer that carries the package. -/
def Head.isPackage : Head -> Bool
  | Head.partialContent _ _ _ => true
  | Head.ok _ => true
  | _ => false

/-- The first offset and the last one that the body is for. -/
def Head.first : Head -> Nat
  | Head.partialContent start _ _ => start
  | _ => 0

def Head.last : Head -> Nat
  | Head.partialContent _ stop _ => stop
  | Head.ok total => lastOf total
  | _ => 0

/-- The head of the answer to a range; none when the answer has no body. -/
def packageHead (total : Nat) : RangeOutcome -> Head
  | RangeOutcome.absent => Head.ok total
  | RangeOutcome.unsatisfiable => Head.rangeNotSatisfiable total
  | RangeOutcome.range start stop => Head.partialContent start stop total

end StreamServer
end PkgManager

/-!
# The session of the stream server

What {lit}`stream_server.c` keeps under one lock, and the lock-held sections of
its functions.  The sockets and the listener thread are left to the environment.
-/

namespace PkgManager
namespace StreamServer

/-- An open {lit}`virtual_stream_t`; the number tells apart two streams that
were opened for the same package. -/
structure VirtualStream where
  id : Nat
  totalPkgSize : Nat
  smbUrl : Option String
deriving DecidableEq

/-- {lit}`g_ss`.  The icon's bytes are not kept, only their number. -/
structure StreamSession where
  running : Bool
  threadCreated : Bool
  vs : Option VirtualStream
  vsRefs : Nat
  stopping : Bool
  totalSize : Nat
  sessionName : String
  iconName : String
  iconSize : Nat
deriving DecidableEq

def noSession : StreamSession where
  running := false
  threadCreated := false
  vs := none
  vsRefs := 0
  stopping := false
  totalSize := 0
  sessionName := ""
  iconName := ""
  iconSize := 0

/-- The name that a session is pinned to: the part behind the last slash, cut to
the buffer. -/
def pinnedName (sessionName : Option String) : String :=
  match sessionName with
  | none => ""
  | some name => cTruncate 128 (baseName name)

/-!
# References to the stream
-/

/-- {lit}`stream_vs_acquire` -/
def streamVsAcquire (ss : StreamSession) : StreamSession × Option VirtualStream :=
  match ss.running, ss.vs with
  | true, some vs => ({ ss with vsRefs := ss.vsRefs + 1 }, some vs)
  | _, _ => (ss, none)

/-- {lit}`stream_vs_release`; the flag says whether {lit}`vs_cond` is
signalled. -/
def streamVsRelease (ss : StreamSession) : StreamSession × Bool :=
  let refs := if ss.vsRefs > 0 then ss.vsRefs - 1 else ss.vsRefs
  ({ ss with vsRefs := refs }, ss.stopping && refs == 0)

theorem streamVsAcquire_cases (ss : StreamSession) :
    streamVsAcquire ss = (ss, none) ∨
      exists vs, ss.vs = some vs ∧
        streamVsAcquire ss = ({ ss with vsRefs := ss.vsRefs + 1 }, some vs) := by
  unfold streamVsAcquire
  split
  · rename_i vs _ hvs
    exact Or.inr ⟨vs, hvs, rfl⟩
  · exact Or.inl rfl

theorem streamVsRelease_session (ss : StreamSession) :
    (streamVsRelease ss).1 = { ss with vsRefs := ss.vsRefs - 1 } := by
  unfold streamVsRelease
  dsimp only
  split
  · rfl
  · rename_i hzero
    have hsame : ss.vsRefs - 1 = ss.vsRefs := by omega
    rw [hsame]

/-!
# Names
-/

/-- {lit}`stream_server_set_session_name` -/
def setSessionName (ss : StreamSession) (sessionName : Option String) : StreamSession :=
  { ss with sessionName := pinnedName sessionName }

/-- {lit}`stream_server_set_icon`, with the number of bytes that have been
copied. -/
def setIcon (ss : StreamSession) (iconSize : Nat) (iconName : String) : StreamSession :=
  if iconSize > 0 ∧ iconName ≠ "" then
    { ss with iconSize := iconSize, iconName := cTruncate 128 (baseName iconName) }
  else { ss with iconSize := 0, iconName := "" }

/-!
# Start and stop
-/

/-- The last section of {lit}`stream_server_session_start_ex`, when the listener
thread can be created. -/
def commitSession (ss : StreamSession) (vs : VirtualStream) (sessionName : Option String) :
    StreamSession :=
  { ss with
    vs := some vs, vsRefs := 0, stopping := false, totalSize := vs.totalPkgSize
    running := true, iconSize := 0, iconName := "", sessionName := pinnedName sessionName
    threadCreated := true }

/-- The same section when it cannot: the flag of an earlier listener stays. -/
def commitFailed (ss : StreamSession) : StreamSession :=
  { ss with
    vs := none, vsRefs := 0, stopping := false, totalSize := 0
    running := false, iconSize := 0, iconName := "", sessionName := "" }

/-- The first section of {lit}`stream_server_session_stop_internal`. -/
def stopRunning (ss : StreamSession) : StreamSession :=
  if ss.running || ss.threadCreated then
    { ss with running := false, stopping := true, threadCreated := false }
  else ss

/-- The end of the second section, which is reached without references. -/
def tearDown (ss : StreamSession) : StreamSession :=
  { ss with
    vs := none, iconSize := 0, iconName := "", stopping := false, totalSize := 0
    sessionName := "" }

end StreamServer
end PkgManager
