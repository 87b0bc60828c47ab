import PkgManager.Bytes.Endian
import PkgManager.CValues

/-!
# WebSocket frames

The frame encoders and the decoder of {lit}`ws_upload.c`.  A buffer is the list
of its valid bytes; the decoder unmasks a complete frame in place.
-/

namespace PkgManager
namespace WebSocket

open Endian

/-!
# Encoding
-/

/-- {lit}`need`, with the size of the mask. -/
def frameNeed (plen masklen : Nat) : Nat :=
  u64 (2 + plen + (if plen >= 126 then (if plen > 65535 then 8 else 2) else 0) + masklen)

/-- The bytes {lit}`plen >> (i * 8)` for {lit}`i` from {lit}`n - 1` down to 0. -/
def shiftedBytes : Nat -> Nat -> List UInt8
  | 0, _ => []
  | i + 1, plen => UInt8.ofNat (plen >>> (8 * i)) :: shiftedBytes i plen

def lengthBytes (maskBit : UInt8) (plen : Nat) : List UInt8 :=
  if plen < 126 then [maskBit ||| UInt8.ofNat plen]
  else if plen <= 65535 then
    [maskBit ||| 126, UInt8.ofNat (plen >>> 8), UInt8.ofNat plen]
  else (maskBit ||| 127) :: shiftedBytes 8 plen

def frameHeader (maskBit opcode : UInt8) (plen : Nat) : List UInt8 :=
  (0x80 ||| (opcode &&& 0x0F)) :: lengthBytes maskBit plen

/-- {lit}`bytes[i] ^= mask[i % 4]` for every byte. -/
def xorMask (mask bytes : List UInt8) : List UInt8 :=
  bytes.mapIdx (fun i b => b ^^^ mask.getD (i % 4) 0)

/-- The value returned and the bytes written to {lit}`out`. -/
def wsDirectFrameEncodeServer (opcode : UInt8) (payload : List UInt8) (outMax : Nat) :
    Int × List UInt8 :=
  if frameNeed payload.length 0 > outMax then (-1, [])
  else
    let out := frameHeader 0 opcode payload.length ++ payload
    (cInt out.length, out)

/-- The mask is what {lit}`rand()` gives. -/
def wsDirectFrameEncodeClient (mask : Fin 4 -> UInt8) (opcode : UInt8)
    (payload : List UInt8) (outMax : Nat) : Int × List UInt8 :=
  if frameNeed payload.length 4 > outMax then (-1, [])
  else
    let out := frameHeader 0x80 opcode payload.length ++ List.ofFn mask ++
      xorMask (List.ofFn mask) payload
    (cInt out.length, out)

/-!
# Decoding
-/

inductive LengthField where
  | needMore
  | invalid
  | known (hdr plen : Nat)
deriving DecidableEq

/-- The size of the header without the mask, and the payload length. -/
def lengthField (b1 : UInt8) (rest : List UInt8) : LengthField :=
  let plen := (b1 &&& 0x7F).toNat
  if plen = 126 then
    match rest with
    | b2 :: b3 :: _ => LengthField.known 4 ((b2.toNat <<< 8) ||| b3.toNat)
    | _ => LengthField.needMore
  else if plen = 127 then
    if rest.length < 8 then LengthField.needMore
    else if rest.getD 0 0 &&& 0x80 ≠ 0 then LengthField.invalid
    else
      LengthField.known 10
        ((rest.take 8).foldl (fun plen b => u64 (plen <<< 8) ||| b.toNat) 0)
  else LengthField.known 2 plen

/-- The value returned, the buffer afterwards and what the pointer arguments
receive, which the caller has set to zero before. -/
structure Decoded where
  used : Int
  buf : List UInt8
  opcode : UInt8 := 0
  fin : Bool := false
  payOff : Nat := 0
  payLen : Nat := 0
deriving DecidableEq

def unmaskAt (buf : List UInt8) (hdr plen : Nat) : List UInt8 :=
  buf.take (hdr + 4) ++
    (xorMask ((buf.drop hdr).take 4) ((buf.drop (hdr + 4)).take plen) ++
      buf.drop (hdr + 4 + plen))

def wsDirectFrameDecode (buf : List UInt8) : Decoded :=
  match buf with
  | b0 :: b1 :: rest =>
      let opcode := b0 &&& 0x0F
      let fin := decide (b0 &&& 0x80 ≠ 0)
      let masked := decide (b1 &&& 0x80 ≠ 0)
      if b0 &&& 0x70 ≠ 0 then { used := -1, buf := buf }
      else if opcode > 0x0A ∨ (opcode > 0x02 ∧ opcode < 0x08) then { used := -1, buf := buf }
      else
        match lengthField b1 rest with
        | LengthField.needMore => { used := 0, buf := buf }
        | LengthField.invalid => { used := -1, buf := buf }
        | LengthField.known hdr plen =>
            let masklen := if masked then 4 else 0
            if opcode >= 0x08 ∧ (fin = false ∨ plen > 125) then { used := -1, buf := buf }
            else if plen > 2 ^ 64 - 1 - hdr - masklen then { used := -1, buf := buf }
            else if buf.length < hdr + masklen + plen then { used := 0, buf := buf }
            else
              { used := cInt (hdr + masklen + plen)
                buf := if masked then unmaskAt buf hdr plen else buf
                opcode := opcode
                fin := fin
                payOff := hdr + masklen
                payLen := plen }
  | _ => { used := 0, buf := buf }

end WebSocket
end PkgManager

/-!
# Control messages

The JSON extractors of {lit}`ws_upload.c` and what {lit}`handle_text_msg` reads
out of a text message.  A message is a C string: it ends at its first zero byte.
-/

namespace PkgManager
namespace WebSocket

def cText (bytes : List UInt8) : List Char :=
  (bytes.takeWhile (fun b => b != 0)).map (fun b => Char.ofNat b.toNat)

/-- The rest of the text from the first place where the needle starts. -/
def strstr (needle : List Char) : List Char -> Option (List Char)
  | [] => if needle.isEmpty then some [] else none
  | c :: cs => if needle.isPrefixOf (c :: cs) then some (c :: cs) else strstr needle cs

def strchr (c : Char) (text : List Char) : Option (List Char) :=
  match text.dropWhile (fun d => d != c) with
  | [] => none
  | rest => some rest

/-- The copy of a quoted text into at most the given number of characters; a
backslash stands for the character after it. -/
def copyQuoted : Nat -> List Char -> List Char
  | 0, _ => []
  | _ + 1, [] => []
  | n + 1, '\\' :: c :: cs => c :: copyQuoted n cs
  | n + 1, c :: cs => if c == '"' then [] else c :: copyQuoted n cs

def quotedKey (key : String) : List Char :=
  '"' :: (key.toList ++ ['"'])

/-- The text after the colon that follows the key. -/
def wsjValue (json : List Char) (key : String) : Option (List Char) :=
  match strstr (quotedKey key) json with
  | none => none
  | some p => strchr ':' (p.drop (quotedKey key).length)

def wsjString (json : List Char) (key : String) (max : Nat) : Option String :=
  match wsjValue json key with
  | none => none
  | some p =>
      match strchr '"' p with
      | none => none
      | some q => some (String.ofList (copyQuoted (max - 1) (q.drop 1)))

def wsjU64 (json : List Char) (key : String) : Option Nat :=
  match wsjValue json key with
  | none => none
  | some p =>
      let digits := (p.drop 1).dropWhile (fun c => c == ' ' || c == '\t')
      let digits := if digits.head? == some '"' then digits.drop 1 else digits
      some (strtoul digits).1

/-- {lit}`WS_DIRECT_FILENAME_MAX` -/
def filenameMax : Nat := 256

/-- {lit}`WS_DIRECT_SESSION_ID_MAX` -/
def sessionIdMax : Nat := 64

/-- The fields of an init message; the owner and the session id are looked for
only when the upload is owned. -/
structure InitArgs where
  filename : String
  total : Nat
  owner : Option String
  sessionId : Option String
deriving DecidableEq

inductive Control where
  | missingOp
  | init (args : Option InitArgs)
  | senderStats
  | ping
  | status
  | finish
  | cancel
  | seg (pending : Int)
  | unknown
deriving DecidableEq

def initArgs (msg : List Char) : Option InitArgs :=
  match wsjString msg "filename" filenameMax, wsjU64 msg "total" with
  | some filename, some total =>
      if total = 0 then none
      else
        some
          { filename := filename
            total := total
            owner := wsjString msg "owner" 65
            sessionId := wsjString msg "session_id" sessionIdMax }
  | _, _ => none

/-- The segment that the next binary message is for, -1 when it is too large. -/
def segArg (msg : List Char) : Int :=
  let seg :=
    match strstr "\"seg\":".toList msg with
    | none => 0
    | some sp => (strtoul (sp.drop 6)).1
  if seg <= 0x7fffffff then seg else -1

/-- The message by its {lit}`op`. -/
def controlOf (msg : List Char) : Control :=
  match wsjString msg "op" 32 with
  | none => Control.missingOp
  | some op =>
      if op = "init" then Control.init (initArgs msg)
      else if op = "sender_stats" then Control.senderStats
      else if op = "ping" then Control.ping
      else if op = "status" then Control.status
      else if op = "finish" then Control.finish
      else if op = "cancel" then Control.cancel
      else if op = "seg" then Control.seg (segArg msg)
      else Control.unknown

end WebSocket
end PkgManager
