import PkgManager.StreamServer.Threads

/-!
# What an answer puts on the wire

{lit}`serve_one_request` over everything it may meet: what it reads of the
session under the lock, how sends fail, and what each read of the body returns.
A connection that is kept goes on behind the last byte, so the length that the
headers announce has to be the length of the body.
-/

namespace PkgManager
namespace StreamServer

open WebSocket (crlf)

/-!
# Header blocks
-/

def decimal (n : Nat) : List Char :=
  Nat.toDigits 10 n

def fieldLine (f : String × List Char) : List Char :=
  f.1.toList ++ ':' :: ' ' :: f.2

/-- A block of header lines: each ends in {lit}`\r\n`, and a blank one ends the
block. -/
def blockText (lines : List (List Char)) : List Char :=
  lines.flatMap (fun line => line ++ crlf) ++ crlf

/-- The value when the line is a field of that name. -/
def fieldValue (name : String) (line : List Char) : Option (List Char) :=
  if (fieldLine (name, [])).isPrefixOf line then some (line.drop (name.toList.length + 2))
  else none

def fieldValues (name : String) (lines : List (List Char)) : List (List Char) :=
  lines.filterMap (fieldValue name)

structure HeaderBlock where
  status : Nat
  reason : String
  fields : List (String × List Char)

def statusLine (status : Nat) (reason : String) : List Char :=
  "HTTP/1.1 ".toList ++ (decimal status ++ ' ' :: reason.toList)

def HeaderBlock.lines (b : HeaderBlock) : List (List Char) :=
  statusLine b.status b.reason :: b.fields.map fieldLine

def HeaderBlock.text (b : HeaderBlock) : List Char :=
  blockText b.lines

/-- The values of the fields of that name. -/
def HeaderBlock.values (b : HeaderBlock) (name : String) : List (List Char) :=
  (b.fields.filter (fun f => f.1 == name)).map Prod.snd

def wire (text : List Char) : List UInt8 :=
  text.map (fun c => UInt8.ofNat c.toNat)

/-- A date as {lit}`strftime` writes it. -/
structure Date where
  weekday : Fin 7
  day : Fin 32
  month : Fin 12
  year : Fin (2 ^ 32)
  hour : Fin 24
  minute : Fin 60
  second : Fin 61

def weekdays : List String := ["Sun", "Mon", "Tue", "Wed", "Thu", "Fri", "Sat"]

def months : List String :=
  ["Jan", "Feb", "Mar", "Apr", "May", "Jun", "Jul", "Aug", "Sep", "Oct", "Nov", "Dec"]

/-- {lit}`%02d` -/
def twoDigits (n : Nat) : List Char :=
  if n < 10 then '0' :: decimal n else decimal n

/-- {lit}`%a, %d %b %Y %H:%M:%S GMT` -/
def Date.text (d : Date) : List Char :=
  [(weekdays.getD d.weekday "").toList, [',', ' '], twoDigits d.day, [' '],
    (months.getD d.month "").toList, [' '], decimal d.year, [' '], twoDigits d.hour, [':'],
    twoDigits d.minute, [':'], twoDigits d.second, " GMT".toList].flatten

def dateText (date : Option Date) : List Char :=
  match date with
  | none => []
  | some d => d.text

def connTok (keep : Bool) : List Char :=
  if keep then "keep-alive".toList else "close".toList

def rangeText (start stop total : Nat) : List Char :=
  "bytes ".toList ++ (decimal start ++ '-' :: (decimal stop ++ '/' :: decimal total))

/-- The header block of an answer. -/
def Head.block (keep : Bool) (date : Option Date) : Head -> HeaderBlock
  | Head.methodNotAllowed =>
      { status := 405
        reason := "Method Not Allowed"
        fields := [("Allow", "GET, HEAD".toList), ("Content-Length", ['0']),
          ("Connection", connTok keep)] }
  | Head.notFound =>
      { status := 404
        reason := "Not Found"
        fields := [("Content-Length", ['0']), ("Connection", connTok keep)] }
  | Head.icon size =>
      { status := 200
        reason := "OK"
        fields := [("Content-Type", "image/png".toList), ("Content-Length", decimal size),
          ("Connection", connTok keep)] }
  | Head.rangeNotSatisfiable total =>
      { status := 416
        reason := "Range Not Satisfiable"
        fields := [("Content-Range", "bytes */".toList ++ decimal total),
          ("Accept-Ranges", "bytes".toList), ("Content-Length", ['0']),
          ("Connection", connTok keep)] }
  | Head.partialContent start stop total =>
      { status := 206
        reason := "Partial Content"
        fields := [("Date", dateText date),
          ("Last-Modified", "Wed, 01 Jan 2025 00:00:00 GMT".toList),
          ("Content-Type", "application/octet-stream".toList),
          ("Accept-Ranges", "bytes".toList),
          ("Content-Length", decimal (if total = 0 then 0 else stop - start + 1)),
          ("Content-Range", rangeText start stop total),
          ("Content-Disposition", "attachment; filename=\"package.pkg\"".toList),
          ("Access-Control-Allow-Origin", ['*']), ("Connection", connTok keep)] }
  | Head.ok total =>
      { status := 200
        reason := "OK"
        fields := [("Date", dateText date),
          ("Last-Modified", "Wed, 01 Jan 2025 00:00:00 GMT".toList),
          ("Content-Type", "application/octet-stream".toList),
          ("Accept-Ranges", "bytes".toList),
          ("Content-Length", decimal total),
          ("Content-Disposition", "attachment; filename=\"package.pkg\"".toList),
          ("Access-Control-Allow-Origin", ['*']), ("Connection", connTok keep)] }

/-!
# One request
-/

/-- One turn of the copy loop: whether the server still runs, how many bytes the
read returns, none when it fails, and after how many bytes the send fails. -/
structure CopyTurn where
  running : Bool := true
  count : Nat := 0
  sendFails : Option Nat := none

/-- Everything a request meets; an icon's size and a package's are of type
{lit}`size_t` and {lit}`uint64_t`. -/
structure Serving where
  pinned : String
  iconName : String := ""
  icon : List UInt8 := []
  iconCopied : Bool := true
  total : UInt64
  date : Option Date := none
  headFails : Option Nat := none
  bodyFails : Option Nat := none
  allocated : Bool := true
  acquired : Bool := true
  package : Nat -> UInt8
  turns : Nat -> CopyTurn
  iconFits : icon.length < 2 ^ 64 := by decide

/-- What was sent, and whether the connection is kept. -/
structure Response where
  bytes : List UInt8
  keep : Bool
deriving DecidableEq

/-- {lit}`send_all`, which fails before the last byte or not at all. -/
def sendAll (bytes : List UInt8) (fails : Option Nat) : List UInt8 × Bool :=
  match fails with
  | none => (bytes, true)
  | some k => (bytes.take (min k (bytes.length - 1)), false)

/-- The bytes of the package from an offset on. -/
def packageBytes (package : Nat -> UInt8) (off count : Nat) : List UInt8 :=
  (List.range' off count).map package

/-- The copy loop: the bytes sent, and the offset it stops at. -/
def copyLoop (console : Console) (s : Serving) (stop : Nat) :
    Nat -> Nat -> Nat -> List UInt8 × Nat
  | 0, _, off => ([], off)
  | fuel + 1, turn, off =>
      let t := s.turns turn
      if off ≤ stop ∧ t.running then
        let want := min (stop - off + 1) console.sendChunk
        let n := min t.count want
        if n = 0 then ([], off)
        else
          let sent := sendAll (packageBytes s.package off n) t.sendFails
          if sent.2 then
            let rest := copyLoop console s stop fuel (turn + 1) (off + n)
            (sent.1 ++ rest.1, rest.2)
          else (sent.1, off)
      else ([], off)

/-- The answers without a body, built in a buffer of 256 bytes. -/
def shortAnswer (s : Serving) (keep : Bool) (head : Head) : Response :=
  let sent := sendAll (wire ((head.block keep s.date).text.take 255)) s.headFails
  { bytes := sent.1, keep := sent.2 && keep }

def iconAnswer (s : Serving) (keep isGet : Bool) : Response :=
  let head := (Head.icon s.icon.length).block keep s.date
  let sent := sendAll (wire (head.text.take 255)) s.headFails
  if sent.2 && isGet then
    let body := sendAll s.icon s.bodyFails
    { bytes := sent.1 ++ body.1, keep := body.2 && keep }
  else { bytes := sent.1, keep := sent.2 && keep }

/-- The package, or a range of it. -/
def packageAnswer (console : Console) (s : Serving) (keep isHead : Bool) (head : Head) :
    Response :=
  let text := (head.block keep s.date).text
  let sent := sendAll (wire text) s.headFails
  if text.length ≥ 1024 then { bytes := [], keep := false }
  else if !sent.2 then { bytes := sent.1, keep := false }
  else if isHead then { bytes := sent.1, keep := keep }
  else if !s.allocated || !s.acquired then { bytes := sent.1, keep := false }
  else
    let fuel := head.last + 1 - head.first
    let body := copyLoop console s head.last fuel 0 head.first
    { bytes := sent.1 ++ body.1, keep := decide (body.2 > head.last) && keep }

def Serving.servesIcon (s : Serving) (base : String) : Bool :=
  s.iconName != "" && base == s.iconName && decide (s.icon.length > 0) && s.iconCopied

def Serving.admits (s : Serving) (base : String) : Bool :=
  StreamServer.admits { base := base, pinned := s.pinned, checkedIn := 0 }

/-- The eight answers to a request that has been taken apart. -/
def answerRequest (console : Console) (s : Serving) (r : Request) (keep : Bool)
    (outcome : RangeOutcome) : Response :=
  if !r.isGet && !r.isHead then shortAnswer s keep Head.methodNotAllowed
  else if !"/stream/".toList.isPrefixOf r.route then shortAnswer s keep Head.notFound
  else if s.servesIcon r.base then iconAnswer s keep r.isGet
  else if !s.admits r.base then shortAnswer s keep Head.notFound
  else
    match outcome with
    | RangeOutcome.unsatisfiable =>
        shortAnswer s keep (Head.rangeNotSatisfiable s.total.toNat)
    | RangeOutcome.range start stop =>
        packageAnswer console s keep r.isHead (Head.partialContent start stop s.total.toNat)
    | RangeOutcome.absent =>
        packageAnswer console s keep r.isHead (Head.ok s.total.toNat)

/-- {lit}`serve_one_request` -/
def serveOneRequest (console : Console) (s : Serving) (req : List Char) : Response :=
  let r := scanRequest (requestLine req)
  answerRequest console s r (keepWanted req r) (findRange (cString req) s.total.toNat)

end StreamServer
end PkgManager
