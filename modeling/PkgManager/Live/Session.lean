import PkgManager.Bytes.WriteLog
import PkgManager.CValues

/-!
# The live session

The locked operations of {lit}`ws_stream.c` on the one session {lit}`g_lv`.
An array is a function of its index.
-/

namespace PkgManager
namespace Live

open WriteLog

/-- {lit}`WS_LIVE_SEG_SIZE` -/
def segSize : Nat := 1048576

structure LiveState where
  active : Bool
  uploadComplete : Bool
  aborted : Bool
  refs : Nat
  freePending : Bool
  sessionId : String
  filename : String
  total : Nat
  nsegs : Nat
  present : Nat -> Bool
  slotOf : Nat -> Int
  slots : Nat -> Nat -> UInt8
  nslots : Nat
  lastUse : Nat -> Nat
  slotRead : Nat -> Bool
  slotSeg : Nat -> Int
  waiters : Nat -> Nat
  ackedEver : Nat -> Bool
  seekSent : Nat -> Nat
  presentCount : Nat
  served : Nat
  runHi : Nat
  peakSeg : Nat
  tick : Nat
  seekFn : Bool
  slotsCfg : Nat
  /-- History only, no function reads it: the segments stored in this session,
  the newest first. -/
  stored : List (Write UInt8)

/-- The arguments of a write. -/
structure Message where
  offset : Nat
  len : Nat
  data : Nat -> UInt8

/-!
# Slots
-/

def segLenLocked (lv : LiveState) (seg : Nat) : Nat :=
  let start := u64 (segSize * seg)
  if start >= lv.total then 0
  else
    let left := lv.total - start
    if left < segSize then left else segSize

def freeSlot (lv : LiveState) : Option Nat :=
  (List.range lv.nslots).find? (fun i => decide (lv.slotSeg i < 0))

/-- The three eviction rules, in the order of the source. -/
def evictable (lv : LiveState) (seg : Nat) (incomingWaited far : Bool) (s : Nat) : Bool :=
  if lv.runHi >= u64 (segSize * (s + 1)) then true
  else if incomingWaited && lv.ackedEver s then true
  else decide (lv.peakSeg > 0) && lv.ackedEver s && (far || s != seg)

/-- The locals of the search for the least recently used segment. -/
structure Victim where
  oldest : Nat
  oldestSeg : Int
  first : Bool

def considerVictim (lv : LiveState) (seg : Nat) (incomingWaited far : Bool)
    (v : Victim) (s : Nat) : Victim :=
  if !lv.present s || decide (lv.slotOf s < 0) then v
  else if lv.waiters s > 0 then v
  else if !evictable lv seg incomingWaited far s then v
  else
    let stamp := lv.lastUse (lv.slotOf s).toNat
    if v.first || decide (stamp < v.oldest) then
      { oldest := stamp, oldestSeg := cInt s, first := false }
    else v

def findVictim (lv : LiveState) (seg : Nat) : Victim :=
  let incomingWaited := decide (seg < lv.nsegs) && decide (lv.waiters seg > 0)
  let far := decide (seg >= lv.peakSeg)
  (List.range' 1 (lv.nsegs - 1)).foldl (considerVictim lv seg incomingWaited far)
    { oldest := 0, oldestSeg := -1, first := true }

def evictSlot (lv : LiveState) (oldestSeg slot : Nat) : LiveState :=
  { lv with
    slotRead := Function.update lv.slotRead slot false
    present := Function.update lv.present oldestSeg false
    slotOf := Function.update lv.slotOf oldestSeg (-1) }

def assignSlot (lv : LiveState) (seg slot : Nat) : LiveState :=
  if seg < lv.nsegs then
    { lv with
      slotOf := Function.update lv.slotOf seg slot
      slotSeg := Function.update lv.slotSeg slot (cInt seg) }
  else lv

def allocSlotLocked (lv : LiveState) (seg : Nat) : LiveState × Int :=
  if seg < lv.nsegs ∧ lv.slotOf seg >= 0 then (lv, lv.slotOf seg)
  else
    match freeSlot lv with
    | some slot => (assignSlot lv seg slot, slot)
    | none =>
        let oldestSeg := (findVictim lv seg).oldestSeg
        if oldestSeg < 0 then (lv, -1)
        else
          let slot := lv.slotOf oldestSeg.toNat
          (assignSlot (evictSlot lv oldestSeg.toNat slot.toNat) seg slot.toNat, slot)

/-!
# Storing a segment
-/

/-- The copy into the slot and the bookkeeping after it. -/
def fillSlot (lv : LiveState) (seg slot sLen from_ : Nat) (resident : Bool)
    (m : Message) : LiveState :=
  { lv with
    slotRead := if resident then lv.slotRead else Function.update lv.slotRead slot false
    slots := Function.update lv.slots slot
      (fun i => if i < sLen then m.data (from_ + i) else lv.slots slot i)
    present := Function.update lv.present seg true
    presentCount := if lv.present seg then lv.presentCount else lv.presentCount + 1
    ackedEver := Function.update lv.ackedEver seg true
    tick := lv.tick + 1
    lastUse := Function.update lv.lastUse slot (lv.tick + 1)
    stored := { start := u64 (segSize * seg), len := sLen,
                data := fun i => m.data (from_ + i) } :: lv.stored }

/-- The slot index on success, 1 also when the segment does not overlap the
message, -1 on a protocol error, -2 when no slot is evictable. -/
def storeSegLocked (lv : LiveState) (seg : Nat) (m : Message) : LiveState × Int :=
  let sStart := u64 (segSize * seg)
  let sLen := segLenLocked lv seg
  let lastEnd := u64 (m.offset + m.len)
  let wStart := if m.offset > sStart then m.offset else sStart
  let wEnd := if lastEnd < u64 (sStart + sLen) then lastEnd else u64 (sStart + sLen)
  if wEnd <= wStart then (lv, 1)
  else if wEnd - wStart != sLen then (lv, -1)
  else
    let resident := lv.present seg
    let alloc := allocSlotLocked lv seg
    if alloc.2 < 0 then (alloc.1, -2)
    else (fillSlot alloc.1 seg alloc.2.toNat sLen (wStart - m.offset) resident m, alloc.2)

/-!
# Writers
-/

def acceptsMessage (lv : LiveState) (m : Message) : Bool :=
  !(decide (u64 (m.offset + m.len) > lv.total) || m.offset % segSize != 0)

def firstSeg (m : Message) : Nat := m.offset / segSize

def lastSeg (m : Message) : Nat :=
  u64 (u64 (m.offset + m.len) + (2 ^ 64 - 1)) / segSize

def tryWriteLoop (m : Message) : Nat -> Nat -> LiveState -> LiveState × Int
  | 0, _, lv => (lv, 0)
  | n + 1, s, lv =>
      let r := storeSegLocked lv s m
      if r.2 = 1 then tryWriteLoop m n (s + 1) r.1
      else if r.2 = -1 then (r.1, -1)
      else if r.2 = -2 then (r.1, -2)
      else tryWriteLoop m n (s + 1) r.1

def wsLiveTryWrite (lv : LiveState) (m : Message) : LiveState × Int :=
  if !lv.active || lv.aborted then (lv, -1)
  else if m.len = 0 then (lv, 0)
  else if !acceptsMessage lv m then (lv, -1)
  else tryWriteLoop m (lastSeg m + 1 - firstSeg m) (firstSeg m) lv

/-- Where a section of the blocking writer ends: it returns, or it waits for a
slot with some segments left to store. -/
inductive WriteEnd where
  | returned (r : Int)
  | blocked (left seg : Nat)
deriving DecidableEq

def writeLoop (m : Message) : Nat -> Nat -> LiveState -> LiveState × WriteEnd
  | 0, _, lv => (lv, WriteEnd.returned 0)
  | n + 1, s, lv =>
      if lv.aborted then (lv, WriteEnd.returned (-1))
      else
        let r := storeSegLocked lv s m
        if r.2 = 1 then writeLoop m n (s + 1) r.1
        else if r.2 = -1 then (r.1, WriteEnd.returned (-1))
        else if r.2 >= 0 then writeLoop m n (s + 1) r.1
        else (r.1, WriteEnd.blocked (n + 1) s)

def wsLiveWrite (lv : LiveState) (m : Message) : LiveState × WriteEnd :=
  if !lv.active || lv.aborted then (lv, WriteEnd.returned (-1))
  else if m.len = 0 then (lv, WriteEnd.returned 0)
  else if !acceptsMessage lv m then (lv, WriteEnd.returned (-1))
  else writeLoop m (lastSeg m + 1 - firstSeg m) (firstSeg m) lv

/-!
# The session itself
-/

/-- What the environment decides when a session is created. -/
structure CreateEnv where
  slotsEnv : Option Int := none
  allocOk : Bool := true
  memory : Nat -> Nat -> UInt8 := fun _ _ => 0
  sessionId : String := ""

def defaultSlots (lv : LiveState) (env : CreateEnv) : Nat :=
  match env.slotsEnv with
  | some v => if v >= 4 ∧ v <= 4096 then v.toNat else lv.slotsCfg
  | none => lv.slotsCfg

def slotCount (lv : LiveState) (env : CreateEnv) (nsegs : Nat) (ringMb : Int) : Nat :=
  let asked : Nat :=
    if ringMb > 0 then (if ringMb < 4 then 4 else if ringMb > 4096 then 4096 else ringMb.toNat)
    else defaultSlots lv env
  let bounded := if asked > u64 (nsegs + 4) then u64 (nsegs + 4) else asked
  if bounded < 4 then 4 else bounded

def wsLiveCreate (lv : LiveState) (env : CreateEnv) (filename : String)
    (totalSize : Nat) (ringMb : Int) : LiveState × Int :=
  let base := baseName filename
  if filename = "" ∨ totalSize = 0 then (lv, -1)
  else if base = "" ∨ base = "." ∨ base = ".." then (lv, -1)
  else if lv.active then
    if !lv.aborted && lv.filename == base && lv.total == totalSize then (lv, 0) else (lv, -2)
  else if lv.refs > 0 then (lv, -2)
  else if !env.allocOk then (lv, -1)
  else
    let nsegs := u64 (totalSize + segSize - 1) / segSize
    ({ lv with
        sessionId := cTruncate 64 env.sessionId
        filename := cTruncate 256 base
        total := totalSize
        nsegs := nsegs
        present := fun _ => false
        slotOf := fun _ => -1
        slots := env.memory
        nslots := slotCount lv env nsegs ringMb
        lastUse := fun _ => 0
        slotSeg := fun _ => -1
        slotRead := fun _ => false
        waiters := fun _ => 0
        ackedEver := fun _ => false
        seekSent := fun _ => 0
        presentCount := 0
        served := 0
        runHi := 0
        peakSeg := 0
        uploadComplete := false
        aborted := false
        refs := 0
        freePending := false
        active := true
        stored := [] }, 0)

def wsLiveFinish (lv : LiveState) : LiveState × Int :=
  if !lv.active || lv.aborted ||
      (List.range lv.nsegs).countP lv.ackedEver != lv.nsegs then (lv, -1)
  else ({ lv with uploadComplete := true }, 0)

def wsLiveAbort (lv : LiveState) : LiveState :=
  if lv.active && !lv.aborted then { lv with aborted := true } else lv

def freeLocked (lv : LiveState) : LiveState :=
  { lv with
    present := fun _ => false
    slotOf := fun _ => -1
    slots := fun _ _ => 0
    lastUse := fun _ => 0
    slotSeg := fun _ => -1
    slotRead := fun _ => false
    waiters := fun _ => 0
    ackedEver := fun _ => false
    seekSent := fun _ => 0
    freePending := false }

def wsLiveDestroy (lv : LiveState) : LiveState :=
  if !lv.active then lv
  else
    let down := { lv with active := false, aborted := true }
    let freed := if lv.refs = 0 then freeLocked down else { down with freePending := true }
    { freed with
      uploadComplete := false
      sessionId := ""
      filename := ""
      total := 0
      nsegs := 0
      presentCount := 0
      served := 0 }

def wsLiveAttach (lv : LiveState) : LiveState × Int :=
  if !lv.active then (lv, -1) else ({ lv with refs := lv.refs + 1 }, 0)

def wsLiveDetach (lv : LiveState) : LiveState :=
  let lv := if lv.refs > 0 then { lv with refs := lv.refs - 1 } else lv
  if lv.refs = 0 ∧ lv.freePending then freeLocked lv else lv

def wsLiveSessionActive (lv : LiveState) : Bool := lv.active

def wsLiveCheckId (lv : LiveState) (sessionId : String) : Bool :=
  sessionId != "" && lv.active && lv.sessionId == sessionId

def wsLiveGetTotal (lv : LiveState) : Nat :=
  if lv.active then lv.total else 0

/-!
# Readers
-/

/-- The locals of {lit}`ws_live_read`. -/
structure ReadCall where
  off : Nat
  count : Nat
  got : Nat
  dst : Nat -> UInt8
  readStart : Nat
  servedEnd : Nat

def scanMiss (lv : LiveState) (stop : Nat) : Nat -> Nat -> Nat
  | 0, _ => stop
  | n + 1, o =>
      if o < stop then
        let s := o / segSize
        if s >= lv.nsegs || !lv.present s then o
        else
          let sEnd := u64 (segSize * (s + 1))
          let sEnd := if sEnd > lv.total then lv.total else sEnd
          let o := if sEnd > o then sEnd else o + 1
          if o >= stop then stop else scanMiss lv stop n o
      else stop

/-- One segment's share of the copy to the reader. -/
def copyPiece (lv : LiveState) (rc : ReadCall) (slot so m : Nat) : LiveState × ReadCall :=
  ({ lv with
      lastUse := Function.update lv.lastUse slot (lv.tick + 1)
      tick := lv.tick + 1
      slotRead := Function.update lv.slotRead slot true
      served := lv.served + m },
    { rc with
      dst := fun i => if rc.got ≤ i ∧ i < rc.got + m then lv.slots slot (so + (i - rc.got))
        else rc.dst i
      off := rc.off + m
      got := rc.got + m })

/-- The slot of the segment at the read position. -/
def copySlot (lv : LiveState) (rc : ReadCall) : Int :=
  if rc.off / segSize < lv.nsegs then lv.slotOf (rc.off / segSize) else -1

/-- The read position inside its segment. -/
def copyStart (rc : ReadCall) : Nat := rc.off - segSize * (rc.off / segSize)

/-- How much of the segment is copied. -/
def copySize (lv : LiveState) (rc : ReadCall) : Nat :=
  let so := copyStart rc
  let m := segSize - so
  let m := if m > rc.count - rc.got then rc.count - rc.got else m
  let segLeft := segLenLocked lv (rc.off / segSize)
  if so + m > segLeft then segLeft - so else m

def copyLoop : Nat -> LiveState -> ReadCall -> LiveState × ReadCall
  | 0, lv, rc => (lv, rc)
  | n + 1, lv, rc =>
      if rc.got < rc.count then
        if copySlot lv rc < 0 then (lv, rc)
        else if copySize lv rc = 0 then (lv, rc)
        else
          let piece := copyPiece lv rc (copySlot lv rc).toNat (copyStart rc) (copySize lv rc)
          copyLoop n piece.1 piece.2
      else (lv, rc)

/-- Where a section of the reader ends. -/
inductive ReadEnd where
  | returned (n : Int) (dst : Nat -> UInt8)
  | rescan (rc : ReadCall)
  | seeking (rc : ReadCall) (needSeg : Nat)
  | waiting (rc : ReadCall) (needSeg : Nat)

/-- Whether a seek is emitted, and the stamps after it. -/
def emitSeekLocked (lv : LiveState) (now seg : Nat) : LiveState × Bool :=
  if seg < lv.nsegs ∧ u64 (now + 2 ^ 64 - lv.seekSent seg) > 2000 then
    ({ lv with seekSent := Function.update lv.seekSent seg now }, lv.seekFn)
  else (lv, false)

/-- The copy of a range that is fully present. -/
def readPresent (lv : LiveState) (rc : ReadCall) : LiveState × ReadEnd :=
  let copied := copyLoop (rc.count - rc.got) lv rc
  let lv := copied.1
  let rc := copied.2
  if rc.got >= rc.count then
    let lv :=
      if rc.readStart <= u64 (lv.runHi + segSize) ∧ rc.servedEnd > lv.runHi then
        { lv with runHi := rc.servedEnd }
      else lv
    (lv, ReadEnd.returned rc.got rc.dst)
  else (lv, ReadEnd.rescan rc)

/-- Registering for a missing segment. -/
def readMissing (lv : LiveState) (rc : ReadCall) (now needSeg : Nat) : LiveState × ReadEnd :=
  let lv := if needSeg > lv.peakSeg ∧ needSeg < lv.nsegs then { lv with peakSeg := needSeg } else lv
  let lv :=
    if needSeg < lv.nsegs then
      { lv with waiters := Function.update lv.waiters needSeg (lv.waiters needSeg + 1) }
    else lv
  if needSeg > 0 then
    let seek := emitSeekLocked lv now needSeg
    if seek.2 then (seek.1, ReadEnd.seeking rc needSeg) else (seek.1, ReadEnd.waiting rc needSeg)
  else (lv, ReadEnd.waiting rc needSeg)

/-- The body of the reader's loop up to the point where it leaves the lock. -/
def readLoop (lv : LiveState) (rc : ReadCall) (now : Nat) : LiveState × ReadEnd :=
  if lv.aborted then (lv, ReadEnd.returned (-1) rc.dst)
  else
    let stop := u64 (rc.off + (rc.count - rc.got))
    let miss := scanMiss lv stop (stop - rc.off) rc.off
    if miss >= stop then readPresent lv rc
    else readMissing lv rc now (miss / segSize)

def wsLiveRead (lv : LiveState) (off count now : Nat) (buf : Nat -> UInt8) :
    LiveState × ReadEnd :=
  if count = 0 then (lv, ReadEnd.returned 0 buf)
  else if !lv.active then (lv, ReadEnd.returned (-1) buf)
  else if off >= lv.total then (lv, ReadEnd.returned 0 buf)
  else
    let count := if count > lv.total - off then lv.total - off else count
    readLoop lv
      { off := off, count := count, got := 0, dst := buf,
        readStart := off, servedEnd := off + count } now

def dropWaiter (lv : LiveState) (needSeg : Nat) : LiveState :=
  if needSeg < lv.nsegs ∧ lv.waiters needSeg > 0 then
    { lv with waiters := Function.update lv.waiters needSeg (lv.waiters needSeg - 1) }
  else lv

/-- After the seek was emitted without the lock. -/
def readAfterSeek (lv : LiveState) (rc : ReadCall) (needSeg now : Nat) : LiveState × ReadEnd :=
  if !lv.active || lv.aborted then (dropWaiter lv needSeg, ReadEnd.returned (-1) rc.dst)
  else if needSeg < lv.nsegs ∧ lv.present needSeg then readLoop (dropWaiter lv needSeg) rc now
  else (lv, ReadEnd.waiting rc needSeg)

/-- After a tick of the timed wait. -/
def readAfterWait (lv : LiveState) (rc : ReadCall) (needSeg now : Nat) (expired : Bool) :
    LiveState × ReadEnd :=
  let lv := dropWaiter lv needSeg
  if expired then (lv, ReadEnd.returned (-1) rc.dst) else readLoop lv rc now

/-!
# The header
-/

def wsLiveGetHeader (lv : LiveState) (len : Nat) : List UInt8 :=
  if lv.active && decide (lv.nsegs > 0) && lv.present 0 then
    let full := segLenLocked lv 0
    (List.range (if len < full then len else full)).map (lv.slots (lv.slotOf 0).toNat)
  else []

end Live
end PkgManager
