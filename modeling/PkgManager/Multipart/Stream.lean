import PkgManager.Multipart.Header
import PkgManager.Transition.System

/-!
# The virtual stream over part files

{lit}`virtual_stream_open` for local paths, and the loop of
{lit}`virtual_stream_read`.  An open descriptor is the file it was opened on, so
it outlives a change of the drive.
-/

namespace PkgManager
namespace Multipart

open Transition

structure PartInfo where
  path : String
  startPkgOffset : Nat
  partDataSize : Nat
  dataOffset : Nat
  fd : Option PartFile

structure VirtualStream where
  isMultipart : Bool
  currentPart : Nat
  totalParts : Nat
  totalPkgSize : Nat
  pkgFilename : String
  titleId : String
  titleName : String
  packageUuid : List UInt8
  parts : Nat -> PartInfo

def emptyPart : PartInfo where
  path := ""
  startPkgOffset := 0
  partDataSize := 0
  dataOffset := 0
  fd := none

def VirtualStream.setPart (st : VirtualStream) (i : Nat) (info : PartInfo) : VirtualStream :=
  { st with parts := Function.update st.parts i info }

/-- Where the slice of the part begins in its file; the sum is 32 bits wide. -/
def sliceOffset (hdr : MultipartHeader) : Nat :=
  if hdr.dataOffset = 0 then
    if hdr.partIndex = 1 ∧ hdr.iconSize > 0 ∧ hdr.iconOffset = multipartHeaderSize then
      (multipartHeaderSize + hdr.iconSize) % 2 ^ 32
    else multipartHeaderSize
  else hdr.dataOffset

/-!
# Opening
-/

section Open

variable (drives : Nat -> Drive) (env : FinderEnv)

/-- The directory part of a path, when it has a slash. -/
def dirName (path : String) : Option String :=
  if path.toList.contains '/' then
    some (String.ofList ((path.toList.reverse.dropWhile (fun c => c != '/')).drop 1).reverse)
  else none

/-- A file next to the first one: its name, its UUID and its index are checked. -/
def findAdjacent (q : PartQuery) (initialPath : String) (pr : Probe) : Option String × Probe :=
  match dirName (cTruncate 512 initialPath) with
  | none => (none, pr)
  | some dir =>
      match (drives pr.now).dir dir with
      | none => (none, pr.tick)
      | some names =>
          scanEntries
            (fun name cand pr =>
              if !multipartIsPartFilename name q.partIndex then (none, pr)
              else
                match multipartReadHeader (drives pr.now) cand with
                | none => (none, pr.tick)
                | some hdr =>
                    if hdr.packageUuid = q.packageUuid ∧ hdr.partIndex = q.partIndex then
                      (some (cTruncate 512 cand), pr.tick)
                    else (none, pr.tick))
            dir names pr.tick

def tmpDir : String :=
  if env.tmpDir != "" then env.tmpDir else "/data/pkgmgr/tmp"

/-- The name of a part that was staged in {lit}`PKG_TMP_DIR`. -/
def stagedPath (part : Nat) : String :=
  cTruncate 512 (tmpDir env ++ "/part_" ++ Nat.repr part ++ ".pkg.part")

/-- Only the existence of the staged file is checked. -/
def findStaged (part : Nat) (pr : Probe) : Option String × Probe :=
  if ((drives pr.now).file (stagedPath env part)).isSome ||
      ((drives pr.now).dir (stagedPath env part)).isSome then
    (some (stagedPath env part), pr.tick)
  else (none, pr.tick)

/-- The routes to a part, in the order of the source. -/
def locatePart (q : PartQuery) (initialPart : Nat) (initialPath : String) (now : Nat) :
    Option String × Probe :=
  if q.partIndex = initialPart then
    (some (cTruncate 512 initialPath), { now := now, detected := 0 })
  else
    match pkgScannerFindPartEx drives env q now with
    | (some path, pr) => (some path, pr)
    | (none, pr) =>
        match findAdjacent drives q initialPath pr with
        | (some path, pr) => (some path, pr)
        | (none, pr) => findStaged drives env q.partIndex pr

/-- A part that is not there yet is left to the read. -/
def deferPart (hdr : MultipartHeader) (p : Nat) (st : VirtualStream) : VirtualStream :=
  let start :=
    if p > 1 then u64 ((st.parts (p - 2)).startPkgOffset + (st.parts (p - 2)).partDataSize)
    else (st.parts (p - 1)).startPkgOffset
  st.setPart (p - 1)
    { path := ""
      startPkgOffset := start
      partDataSize :=
        if p = st.totalParts then u64 (st.totalPkgSize + 2 ^ 64 - start) else hdr.partDataSize
      dataOffset := multipartHeaderSize
      fd := none }

def recordPart (path : String) (phdr : MultipartHeader) (p : Nat) (st : VirtualStream) :
    VirtualStream :=
  st.setPart (p - 1)
    { path := path
      startPkgOffset :=
        if p = 1 then 0
        else if phdr.partOffset > 0 then phdr.partOffset
        else u64 ((st.parts (p - 2)).startPkgOffset + (st.parts (p - 2)).partDataSize)
      partDataSize := phdr.partDataSize
      dataOffset := sliceOffset phdr
      fd := none }

def resolveParts (hdr : MultipartHeader) (initialPath : String) :
    Nat -> Nat -> VirtualStream -> Nat -> Except Int (VirtualStream × Nat)
  | 0, _, st, now => Except.ok (st, now)
  | n + 1, p, st, now =>
      let q : PartQuery :=
        { packageUuid := hdr.packageUuid, pkgFilename := cTruncate 256 hdr.pkgFilename,
          partIndex := p }
      match locatePart drives env q hdr.partIndex initialPath now with
      | (none, pr) => resolveParts hdr initialPath n (p + 1) (deferPart hdr p st) pr.now
      | (some path, pr) =>
          match multipartReadHeader (drives pr.now) path with
          | none => Except.error (-4)
          | some phdr =>
              resolveParts hdr initialPath n (p + 1) (recordPart path phdr p st) (pr.now + 1)

def singleStream (path : String) (size : Nat) : VirtualStream where
  isMultipart := false
  currentPart := 1
  totalParts := 1
  totalPkgSize := size
  pkgFilename := cTruncate 256 (baseName path)
  titleId := ""
  titleName := ""
  packageUuid := []
  parts := Function.update (fun _ => emptyPart) 0
    { path := cTruncate 512 path, startPkgOffset := 0, partDataSize := size, dataOffset := 0,
      fd := none }

def multipartStream (hdr : MultipartHeader) : VirtualStream where
  isMultipart := true
  currentPart := 1
  totalParts := hdr.totalParts
  totalPkgSize := hdr.totalPkgSize
  pkgFilename := cTruncate 256 hdr.pkgFilename
  titleId := cTruncate 32 hdr.titleId
  titleName := cTruncate 256 hdr.titleName
  packageUuid := hdr.packageUuid
  parts := fun _ => emptyPart

/-- The local route; live, SMB and HTTP sources are never multi-part. -/
def virtualStreamOpen (initialPath : String) (now : Nat) : Except Int (VirtualStream × Nat) :=
  match (drives now).file (localPath initialPath) with
  | none => Except.error (-1)
  | some f =>
      match multipartReadHeader (drives (now + 1)) (localPath initialPath) with
      | none => Except.ok (singleStream (localPath initialPath) f.size, now + 2)
      | some hdr =>
          if hdr.totalParts = 0 ∨ hdr.totalParts > maxMultipartParts then Except.error (-2)
          else
            resolveParts drives env hdr initialPath hdr.totalParts 1 (multipartStream hdr)
              (now + 2)

/-!
# Reading
-/

/-- The polls of {lit}`installer_wait_for_part`: the drives are searched again
and again until the part is there, or the wait ends. -/
def waitForPart (q : PartQuery) : Nat -> Nat -> Option String × Nat
  | 0, now => (none, now)
  | polls + 1, now =>
      match pkgScannerFindPartEx drives env q now with
      | (some path, pr) => (some path, pr.now)
      | (none, pr) => waitForPart q polls pr.now

/-- What a read that returns data has read: a piece of the file in a slot. -/
structure Delivery where
  slot : Nat
  source : PartFile
  fileOffset : Nat
  length : Nat

/-- A stream in use: the read in progress, and what the last one returned. -/
structure StreamRun where
  stream : VirtualStream
  now : Nat
  reading : Option (Nat × Nat)
  returned : Option Delivery

/-- Which polls the waiter makes, and whether the system reads the piece. -/
structure TurnAnswer where
  polls : Nat := 0
  preadOk : Bool := true

inductive StreamLabel where
  | read (pkgOffset count : Nat)
  | turn (a : TurnAnswer)

def findSlot (st : VirtualStream) (pkgOffset : Nat) : Option Nat :=
  (List.range st.totalParts).find? (fun i =>
    decide (pkgOffset >= (st.parts i).startPkgOffset) &&
      decide (pkgOffset < u64 ((st.parts i).startPkgOffset + (st.parts i).partDataSize)))

/-- The read ends without data. -/
def failRead (r : StreamRun) (st : VirtualStream) (now : Nat) : StreamRun :=
  { r with stream := st, now := now, reading := none, returned := none }

/-- Opening a slot whose path is known and whose descriptor is closed. -/
def openSlot (st : VirtualStream) (i now : Nat) : VirtualStream × Nat :=
  if (st.parts i).path != "" && (st.parts i).fd.isNone then
    (st.setPart i { st.parts i with fd := (drives now).file (st.parts i).path }, now + 1)
  else (st, now)

def closeOthers (st : VirtualStream) (i : Nat) : VirtualStream :=
  { st with parts := fun k => if k = i then st.parts k else { st.parts k with fd := none } }

/-- After the disc waiter has returned: only the header's validity is checked. -/
def adoptPart (r : StreamRun) (st : VirtualStream) (i : Nat) (path : String) (now : Nat) :
    StreamRun :=
  let st := closeOthers st i
  match multipartReadHeader (drives now) path with
  | none => failRead r st (now + 1)
  | some hdr =>
      let fd := (drives (now + 1)).file path
      let st := st.setPart i
        { path := path
          startPkgOffset :=
            if hdr.partOffset > 0 then hdr.partOffset else (st.parts i).startPkgOffset
          partDataSize := hdr.partDataSize
          dataOffset := sliceOffset hdr
          fd := fd }
      if fd.isNone then failRead r st (now + 2)
      else { r with stream := st, now := now + 2 }

/-- The transfer from an open slot. -/
def transfer (r : StreamRun) (st : VirtualStream) (i now pkgOffset toRead : Nat) (f : PartFile)
    (a : TurnAnswer) : StreamRun :=
  if pkgOffset < (st.parts i).startPkgOffset then failRead r st now
  else
    let offsetInPart := pkgOffset - (st.parts i).startPkgOffset
    if offsetInPart >= (st.parts i).partDataSize then failRead r st now
    else
      let remaining := (st.parts i).partDataSize - offsetInPart
      let chunk := if toRead < remaining then toRead else remaining
      let fileOffset := u64 ((st.parts i).dataOffset + offsetInPart)
      if chunk = 0 then failRead r st now
      else if !a.preadOk || decide (fileOffset + chunk > f.size) then failRead r st now
      else
        { stream := st, now := now, reading := none,
          returned := some { slot := i, source := f, fileOffset := fileOffset, length := chunk } }

/-- One turn of the loop of {lit}`virtual_stream_read`. -/
def readTurn (r : StreamRun) (pkgOffset count : Nat) (a : TurnAnswer) : StreamRun :=
  let st := r.stream
  let toRead :=
    if u64 (pkgOffset + count) > st.totalPkgSize then st.totalPkgSize - pkgOffset else count
  match findSlot st pkgOffset with
  | none => failRead r st r.now
  | some i =>
      let opened := openSlot drives { st with currentPart := i + 1 } i r.now
      match (opened.1.parts i).fd with
      | some f => transfer r opened.1 i opened.2 pkgOffset toRead f a
      | none =>
          let q : PartQuery :=
            { packageUuid := st.packageUuid, pkgFilename := st.pkgFilename, partIndex := i + 1 }
          match waitForPart drives env q a.polls opened.2 with
          | (none, now) => failRead r opened.1 now
          | (some path, now) => adoptPart drives r opened.1 i path now

def streamSystem : System StreamRun StreamLabel where
  next
    | r, StreamLabel.read pkgOffset count =>
        if r.reading.isSome then none
        else if count = 0 ∨ pkgOffset >= r.stream.totalPkgSize then
          some (failRead r r.stream r.now)
        else some { r with reading := some (pkgOffset, count), returned := none }
    | r, StreamLabel.turn a =>
        match r.reading with
        | none => none
        | some (pkgOffset, count) => some (readTurn drives env r pkgOffset count a)

end Open

end Multipart
end PkgManager
