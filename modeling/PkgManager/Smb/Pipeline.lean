import Mathlib.Data.List.Nodup
import PkgManager.Bytes.Ring
import PkgManager.CValues

/-!
# Reads through a pipeline

A read of a file on a share keeps up to eight requests on the way.  Every request
has a slot of the ring and its own part of the caller's buffer.  The connection answers the
requests in any order; the slots are consumed from the oldest on.  Positions in
the buffer are counted from its start, and the place that is requested next is
counted from the offset of the read.
-/

namespace PkgManager
namespace Smb

def smbPipelineDepth : Nat := 8

def smbPipelineChunk : Nat := 512 * 1024

/-- A call on an open session.  The number of bytes of the file is an unsigned 64-bit
value. -/
structure ReadCall where
  file : List UInt8
  fits : file.length < 2 ^ 64
  count : Nat
  offset : Nat
  maxReadSize : Nat
  dialect : Nat
  connected : Bool

structure Slot where
  done : Bool
  result : Int
  buf : Nat
  size : Nat
deriving DecidableEq

def freeSlot : Slot where
  done := false
  result := 0
  buf := 0
  size := 0

/-- A request that the connection has to answer. -/
structure ReadRequest where
  slot : Nat
  buf : Nat
  size : Nat
  offset : Nat
deriving DecidableEq

inductive Phase where
  /-- The condition of the outer loop is next. -/
  | outer
  | issuing
  | waiting
  | consuming
  | returned
deriving DecidableEq

/-- The variables of a read and what the connection holds.  The counters of the ring are
an {lit}`int` each; a request has at least one byte, so they stay in range for reads of
less than 2^31 bytes. -/
structure Pipe where
  phase : Phase
  totalRead : Nat
  stopIssuing : Bool
  discardInflight : Bool
  readError : Int
  slots : Nat -> Slot
  inFlight : Nat
  head : Nat
  tail : Nat
  issued : Nat
  dst : Nat -> UInt8
  wire : List ReadRequest

namespace ReadCall

def pipelineChunk (c : ReadCall) : Nat :=
  if 0 < c.maxReadSize ∧ c.maxReadSize < smbPipelineChunk then c.maxReadSize
  else smbPipelineChunk

/-- What is wanted of the file, when its size is known. -/
def targetCount (c : ReadCall) : Nat :=
  if 0 < c.file.length then min c.count (c.file.length - c.offset) else c.count

end ReadCall

def startRead (c : ReadCall) (dst : Nat -> UInt8) : Pipe where
  phase := if c.count = 0 ∨ c.connected = false then .returned else .outer
  totalRead := 0
  stopIssuing := false
  discardInflight := false
  readError := if c.count = 0 ∨ c.connected = true then 0 else -1
  slots := fun _ => freeSlot
  inFlight := 0
  head := 0
  tail := 0
  issued := 0
  dst := dst
  wire := []

/-- The value that a read returns. -/
def Pipe.result (s : Pipe) : Int :=
  if 0 < s.totalRead then s.totalRead else s.readError

/-!
# Issuing
-/

def Pipe.oldest (s : Pipe) : Slot :=
  Ring.cell smbPipelineDepth s.slots s.head 0

def wantsMore (c : ReadCall) (s : Pipe) : Bool :=
  (!s.stopIssuing && decide (s.totalRead < c.targetCount)) || decide (0 < s.inFlight)

def mayIssue (c : ReadCall) (s : Pipe) : Bool :=
  !s.stopIssuing && decide (s.inFlight < smbPipelineDepth) && decide (s.issued < c.targetCount)

/-- The outer loop is left when nothing is on the way. -/
def leaveIssuing (s : Pipe) : Pipe :=
  { s with phase := if s.inFlight = 0 then .returned else .waiting }

/-- Newer dialects are bounded by the credits. -/
def limitedByCredits (c : ReadCall) : Bool :=
  decide (0x0202 < c.dialect)

def requestSize (c : ReadCall) (s : Pipe) (available : Int) : Nat :=
  let toReq := min (c.targetCount - s.issued) c.pipelineChunk
  if limitedByCredits c then min toReq (available.toNat * 65536) else toReq

def fillSlot (s : Pipe) (toReq : Nat) : Pipe :=
  { s with
    slots := Function.update s.slots (s.tail % smbPipelineDepth)
      { done := false, result := 0, buf := s.issued, size := toReq } }

def refuseRequest (s : Pipe) (toReq : Nat) (rc : Int) : Pipe :=
  { fillSlot s toReq with readError := rc, stopIssuing := true }

def sendRequest (c : ReadCall) (s : Pipe) (toReq : Nat) : Pipe :=
  { fillSlot s toReq with
    wire := s.wire ++
      [{ slot := s.tail % smbPipelineDepth, buf := s.issued, size := toReq,
         offset := u64 (c.offset + s.issued) }]
    issued := s.issued + toReq
    inFlight := s.inFlight + 1
    tail := s.tail + 1 }

/-- One pass of the issuing loop, with the credits that are free and the value that
{lit}`smb2_pread_async` returns. -/
def issueOne (c : ReadCall) (s : Pipe) (available rc : Int) : Pipe :=
  if limitedByCredits c = true ∧ available ≤ 0 then leaveIssuing s
  else if requestSize c s available = 0 then leaveIssuing s
  else if rc < 0 then leaveIssuing (refuseRequest s (requestSize c s available) rc)
  else sendRequest c s (requestSize c s available)

/-!
# Answers
-/

/-- What arrives for a request. -/
inductive Arrival where
  /-- Bytes come into the part of a request that is not answered yet. -/
  | partly (r : ReadRequest) (bytes : List UInt8)
  /-- The answer brings the bytes of the file from the offset of the request on. -/
  | data (r : ReadRequest) (n : Nat)
  | error (r : ReadRequest) (status : Int)

def writeBytes (dst : Nat -> UInt8) (start : Nat) (bytes : List UInt8) : Nat -> UInt8 :=
  fun i => if start ≤ i then (bytes[i - start]?).getD (dst i) else dst i

/-- {lit}`smb_pipeline_cb` -/
def smbPipelineCb (s : Pipe) (r : ReadRequest) (status : Int) : Pipe :=
  { s with
    slots := Function.update s.slots r.slot
      { s.slots r.slot with done := true, result := status }
    wire := s.wire.erase r }

def arrive (c : ReadCall) (s : Pipe) : Arrival -> Option Pipe
  | .partly r bytes =>
      if r ∈ s.wire ∧ bytes.length ≤ r.size then
        some { s with dst := writeBytes s.dst r.buf bytes }
      else none
  | .data r n =>
      if r ∈ s.wire ∧ n ≤ r.size ∧ n ≤ c.file.length - r.offset then
        some (smbPipelineCb
          { s with dst := writeBytes s.dst r.buf ((c.file.drop r.offset).take n) } r n)
      else none
  | .error r status =>
      if r ∈ s.wire ∧ status < 0 then some (smbPipelineCb s r status) else none

/-- The transport is destroyed and nothing is on the way any more. -/
def abortTransport (s : Pipe) : Pipe :=
  { s with
    phase := .returned
    readError := -1
    stopIssuing := true
    inFlight := 0
    wire := [] }

/-!
# Consuming
-/

def stopReading (s : Pipe) : Pipe :=
  { s with stopIssuing := true, discardInflight := true }

def popSlot (s : Pipe) : Pipe :=
  { s with inFlight := s.inFlight - 1, head := s.head + 1 }

def countBytes (s : Pipe) (n : Nat) : Pipe :=
  { s with totalRead := s.totalRead + n }

def consumeOne (s : Pipe) : Pipe :=
  let slot := s.oldest
  let s := popSlot s
  if s.discardInflight then s
  else if slot.result < 0 then stopReading { s with readError := slot.result }
  else if slot.result = 0 then stopReading s
  else if slot.result.toNat < slot.size then
    stopReading (countBytes s slot.result.toNat)
  else countBytes s slot.result.toNat

def mayConsume (s : Pipe) : Bool :=
  decide (0 < s.inFlight) && s.oldest.done

/-!
# Steps
-/

/-- Most steps only look at the variables.  An issuing step is given the free credits and the
answer of the library; a pass of the event loop is given what arrives and whether the
transport holds. -/
inductive PipeEvent where
  | advance
  | issue (available rc : Int)
  | service (arrivals : List Arrival) (holds : Bool)

def Pipe.step (c : ReadCall) (s : Pipe) : PipeEvent -> Option Pipe
  | .advance =>
      match s.phase with
      | .outer => some { s with phase := if wantsMore c s then .issuing else .returned }
      | .issuing => if mayIssue c s then none else some (leaveIssuing s)
      | .waiting => if s.oldest.done then some { s with phase := .consuming } else none
      | .consuming =>
          some (if mayConsume s then consumeOne s else { s with phase := .outer })
      | .returned => none
  | .issue available rc =>
      if s.phase = .issuing ∧ mayIssue c s = true then some (issueOne c s available rc) else none
  | .service arrivals holds =>
      if s.phase = .waiting ∧ s.oldest.done = false then
        (arrivals.foldlM (arrive c) s).map (fun s => if holds then s else abortTransport s)
      else none

end Smb
end PkgManager

/-!
# What a pipelined read has in its buffer

The parts of the slots follow each other in the buffer, from the bytes that are
counted up to the place that is requested next.  A slot that is answered holds the
bytes of the file, and no later answer writes into its part.
-/

namespace PkgManager
namespace Smb

/-!
# Parts of the buffer
-/

/-- The parts follow each other from one place to another. -/
def Chained : Nat -> List (Nat × Nat) -> Nat -> Prop
  | p, [], q => p = q
  | p, e :: rest, q => e.1 = p ∧ Chained (p + e.2) rest q

theorem chained_append {p q size : Nat} {es : List (Nat × Nat)} (h : Chained p es q) :
    Chained p (es ++ [(q, size)]) (q + size) := by
  induction es generalizing p with
  | nil =>
      cases h
      exact ⟨rfl, rfl⟩
  | cons e rest ih =>
      rcases h with ⟨hstart, hrest⟩
      exact ⟨hstart, ih hrest⟩

theorem chained_le {p q : Nat} {es : List (Nat × Nat)} (h : Chained p es q) : p ≤ q := by
  induction es generalizing p with
  | nil => exact h.le
  | cons e rest ih => exact (Nat.le_add_right p e.2).trans (ih h.2)

theorem chained_mem {p q : Nat} {es : List (Nat × Nat)} {e : Nat × Nat} (h : Chained p es q)
    (he : e ∈ es) : p ≤ e.1 ∧ e.1 + e.2 ≤ q := by
  induction es generalizing p with
  | nil => cases he
  | cons first rest ih =>
      rcases h with ⟨hstart, hrest⟩
      rcases List.mem_cons.mp he with heq | hin
      · rw [heq, hstart]
        exact ⟨le_rfl, chained_le hrest⟩
      · rcases ih hrest hin with ⟨hlow, hhigh⟩
        exact ⟨(Nat.le_add_right p first.2).trans hlow, hhigh⟩

theorem chained_apart {p q : Nat} {es : List (Nat × Nat)} (h : Chained p es q) :
    es.Pairwise (fun a b => a.1 + a.2 ≤ b.1) := by
  induction es generalizing p with
  | nil => exact List.Pairwise.nil
  | cons first rest ih =>
      rcases h with ⟨hstart, hrest⟩
      apply List.Pairwise.cons
      · intro e he
        rw [hstart]
        exact (chained_mem hrest he).1
      · exact ih hrest

/-- The bytes of the file are in the buffer from a place on. -/
def Holds (c : ReadCall) (dst : Nat -> UInt8) (start n : Nat) : Prop :=
  forall i, i < n -> c.file[c.offset + (start + i)]? = some (dst (start + i))

theorem holds_append {c : ReadCall} {dst : Nat -> UInt8} {n m : Nat} (h : Holds c dst 0 n)
    (h' : Holds c dst n m) : Holds c dst 0 (n + m) := by
  intro i hi
  rcases Nat.lt_or_ge i n with hlt | hge
  · exact h i hlt
  · have hlast := h' (i - n) (by omega)
    rw [Nat.add_sub_cancel' hge] at hlast
    rw [Nat.zero_add]
    exact hlast

theorem writeBytes_outside (dst : Nat -> UInt8) {start i : Nat} {bytes : List UInt8}
    (h : i < start ∨ start + bytes.length ≤ i) : writeBytes dst start bytes i = dst i := by
  unfold writeBytes
  rcases h with hlow | hhigh
  · rw [if_neg (Nat.not_le_of_lt hlow)]
  · rw [if_pos ((Nat.le_add_right _ _).trans hhigh), List.getElem?_eq_none (by omega)]
    rfl

theorem writeBytes_inside (dst : Nat -> UInt8) (start : Nat) {i : Nat} {bytes : List UInt8}
    (h : i < bytes.length) : bytes[i]? = some (writeBytes dst start bytes (start + i)) := by
  unfold writeBytes
  rw [if_pos (Nat.le_add_right _ _), Nat.add_sub_cancel_left, List.getElem?_eq_getElem h]
  rfl

/-- What is written elsewhere leaves the bytes. -/
theorem holds_writeBytes {c : ReadCall} {dst : Nat -> UInt8} {start n b : Nat}
    {bytes : List UInt8} (h : Holds c dst start n)
    (hapart : start + n ≤ b ∨ b + bytes.length ≤ start) :
    Holds c (writeBytes dst b bytes) start n := by
  intro i hi
  rw [writeBytes_outside dst (by omega)]
  exact h i hi

/-!
# The invariant
-/

def Slot.extent (x : Slot) : Nat × Nat :=
  (x.buf, x.size)

namespace Pipe

/-- The slot of the request that was issued {lit}`k` after the oldest. -/
def flight (s : Pipe) (k : Nat) : Slot :=
  Ring.cell smbPipelineDepth s.slots s.head k

def place (s : Pipe) (k : Nat) : Nat :=
  (s.head + k) % smbPipelineDepth

def extents (s : Pipe) : List (Nat × Nat) :=
  (Ring.view smbPipelineDepth s.slots s.head s.inFlight).map Slot.extent

end Pipe

/-- The answer of a slot: an error, or bytes of the file at the place of the slot. -/
def Answered (c : ReadCall) (dst : Nat -> UInt8) (x : Slot) : Prop :=
  x.result < 0 ∨ exists n : Nat, x.result = n ∧ n ≤ x.size ∧ Holds c dst x.buf n

/-- The request of a slot. -/
structure AskedBy (c : ReadCall) (s : Pipe) (r : ReadRequest) (k : Nat) : Prop where
  flying : k < s.inFlight
  slot : r.slot = s.place k
  open_ : (s.flight k).done = false
  buf : r.buf = (s.flight k).buf
  size : r.size = (s.flight k).size
  offset : r.offset = u64 (c.offset + r.buf)

/-- What has been counted. -/
structure Counted (c : ReadCall) (s : Pipe) : Prop where
  bounded : s.totalRead ≤ c.targetCount
  holds : Holds c s.dst 0 s.totalRead

structure Piped (c : ReadCall) (s : Pipe) : Prop where
  tail : s.tail = s.head + s.inFlight
  depth : s.inFlight ≤ smbPipelineDepth
  issued : s.issued ≤ c.targetCount
  sent : s.tail ≤ s.issued
  front : exists p, s.totalRead ≤ p ∧ (s.discardInflight = false -> p = s.totalRead) ∧
    Chained p s.extents s.issued
  holds : Holds c s.dst 0 s.totalRead
  answered : forall k, k < s.inFlight -> (s.flight k).done = true -> Answered c s.dst (s.flight k)
  asked : forall r, r ∈ s.wire -> exists k, AskedBy c s r k
  awaited : forall k, k < s.inFlight -> (s.flight k).done = false ->
    exists r, r ∈ s.wire ∧ r.slot = s.place k
  distinct : (s.wire.map ReadRequest.slot).Nodup

section Parts

variable {c : ReadCall} {s : Pipe}

theorem Piped.counted (h : Piped c s) : Counted c s := by
  rcases h.front with ⟨p, hle, _, hchain⟩
  constructor
  · exact hle.trans ((chained_le hchain).trans h.issued)
  · exact h.holds

theorem extents_eq (s : Pipe) :
    s.extents = (List.range s.inFlight).map (fun k => (s.flight k).extent) := by
  unfold Pipe.extents Ring.view
  rw [List.map_map]
  rfl

theorem extent_mem (s : Pipe) {k : Nat} (hk : k < s.inFlight) :
    (s.flight k).extent ∈ s.extents := by
  rw [extents_eq]
  exact List.mem_map_of_mem (List.mem_range.mpr hk)

/-- Nothing on the way touches what is counted. -/
theorem Piped.behind (h : Piped c s) {k : Nat} (hk : k < s.inFlight) :
    s.totalRead ≤ (s.flight k).buf ∧ (s.flight k).buf + (s.flight k).size ≤ s.issued := by
  rcases h.front with ⟨p, hle, _, hchain⟩
  rcases chained_mem hchain (extent_mem s hk) with ⟨hlow, hhigh⟩
  exact ⟨hle.trans hlow, hhigh⟩

theorem Piped.apart_of_lt (h : Piped c s) {i j : Nat} (hij : i < j) (hj : j < s.inFlight) :
    (s.flight i).buf + (s.flight i).size ≤ (s.flight j).buf := by
  rcases h.front with ⟨p, _, _, hchain⟩
  have hpairs := chained_apart hchain
  rw [extents_eq, List.pairwise_map] at hpairs
  have hget := List.pairwise_iff_getElem.mp hpairs i j
    (by rw [List.length_range]; exact hij.trans hj) (by rwa [List.length_range]) hij
  rw [List.getElem_range, List.getElem_range] at hget
  exact hget

theorem Piped.apart (h : Piped c s) {i j : Nat} (hi : i < s.inFlight) (hj : j < s.inFlight)
    (hne : i ≠ j) :
    (s.flight i).buf + (s.flight i).size ≤ (s.flight j).buf ∨
      (s.flight j).buf + (s.flight j).size ≤ (s.flight i).buf := by
  rcases Nat.lt_or_gt_of_ne hne with hlt | hgt
  · exact Or.inl (h.apart_of_lt hlt hj)
  · exact Or.inr (h.apart_of_lt hgt hi)

/-- The requests are told apart by their slots. -/
theorem Piped.request_unique (h : Piped c s) {r r' : ReadRequest} (hr : r ∈ s.wire)
    (hr' : r' ∈ s.wire) (heq : r.slot = r'.slot) : r = r' :=
  List.inj_on_of_nodup_map h.distinct hr hr' heq

end Parts

/-- The phase, the error and the wish to issue do not matter. -/
theorem piped_same {c : ReadCall} {s : Pipe} (h : Piped c s) (phase : Phase) (stop : Bool)
    (err : Int) :
    Piped c { s with phase := phase, stopIssuing := stop, readError := err } :=
  ⟨h.tail, h.depth, h.issued, h.sent, h.front, h.holds, h.answered, fun r hr =>
    (h.asked r hr).imp (fun _ ha => ⟨ha.flying, ha.slot, ha.open_, ha.buf, ha.size, ha.offset⟩),
    h.awaited, h.distinct⟩

end Smb
end PkgManager
