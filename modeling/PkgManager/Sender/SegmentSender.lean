import PkgManager.Collections.Ordered

/-!
# The segment sender

The segments of a file are read and sent by one pump, which is suspended while it awaits
a file read.  Requests, answers of the server and timers arrive in the meantime.
-/

namespace PkgManager
namespace Sender

/-- The options of {lit}`createSegmentSender` that its bookkeeping reads. -/
structure SenderOptions where
  totalSegments : Nat
  startSegment : Nat := 0
  demandWindow : Nat := 0
  maxInFlight : Int := 1

def SenderOptions.limit (options : SenderOptions) : Int :=
  min 2 (max 1 options.maxInFlight)

/-- The promise of a call of {lit}`readSegment`; {lit}`call` tells two calls apart. -/
structure FileRead where
  segment : Nat
  call : Nat
  deriving DecidableEq

/-- {lit}`isSent` is that {lit}`sentAt` is set. -/
structure Flight where
  read : FileRead
  isSent : Bool

/-- {lit}`timer` is that the timer is still to run out. -/
structure Retry where
  read : FileRead
  timer : Bool

/-- {lit}`awaiting` is the segment and the read at which the pump is suspended, if it is
pumping, and {lit}`calls` counts the reads that were begun. -/
structure SegmentSender where
  acknowledged : OrderedSet Nat
  demands : OrderedSet Nat
  ahead : OrderedSet Nat
  flights : OrderedMap Nat Flight
  retries : OrderedMap Nat Retry
  baseline : Nat
  prepared : Option FileRead
  calls : Nat
  awaiting : Option (Nat × FileRead)
  stopped : Bool

def createSegmentSender (options : SenderOptions) (acknowledged : OrderedSet Nat) :
    SegmentSender where
  acknowledged := acknowledged
  demands :=
    if 0 < options.demandWindow ∧ 0 < options.totalSegments then OrderedSet.empty.add 0
    else OrderedSet.empty
  ahead := OrderedSet.empty
  flights := OrderedMap.empty
  retries := OrderedMap.empty
  baseline := options.startSegment
  prepared := none
  calls := 0
  awaiting := none
  stopped := false

/-!
# The next segment
-/

namespace SegmentSender

def inactive (sender : SegmentSender) (shouldStop : Bool) : Bool :=
  sender.stopped || shouldStop

def backsOff (sender : SegmentSender) (segment : Nat) : Bool :=
  match sender.retries.get segment with
  | some retry => retry.timer
  | none => false

/-- A segment that neither the read-ahead nor the baseline sends. -/
def handled (sender : SegmentSender) (segment : Nat) : Bool :=
  decide (segment ∈ sender.acknowledged) || decide (segment ∈ sender.flights)

/-- The {lit}`while` loop over {lit}`baseline`, with the segments that are left. -/
def skipHandled (handled : Nat -> Bool) : Nat -> Nat -> Nat
  | 0, baseline => baseline
  | left + 1, baseline =>
      if handled baseline then skipHandled handled left (baseline + 1) else baseline

/-- {lit}`nextSegment`; no segment stands for {lit}`-1`. -/
def nextSegment (options : SenderOptions) (sender : SegmentSender) :
    Option Nat × SegmentSender :=
  match sender.demands.elements.find?
      (fun segment => !decide (segment ∈ sender.flights) && !sender.backsOff segment) with
  | some segment => (some segment, sender)
  | none =>
      -- A rejected speculative upload must not allow the baseline to race on.
      if 0 < sender.retries.size then (none, sender)
      else if 0 < options.demandWindow then
        let ahead := sender.ahead.dropFront sender.handled
        (ahead.elements.head?, { sender with ahead := ahead })
      else
        let baseline := skipHandled sender.handled (options.totalSegments - sender.baseline)
          sender.baseline
        (if baseline < options.totalSegments then some baseline else none,
          { sender with baseline := baseline })

/-- {lit}`prepare` -/
def prepare (sender : SegmentSender) (segment : Nat) : FileRead × SegmentSender :=
  match sender.prepared.filter (fun read => read.segment == segment) with
  | some read => (read, sender)
  | none =>
      let read := { segment := segment, call := sender.calls }
      (read, { sender with prepared := some read, calls := sender.calls + 1 })

def stop (sender : SegmentSender) : SegmentSender :=
  { sender with
    stopped := true
    retries := OrderedMap.empty
    flights := OrderedMap.empty
    prepared := none
    demands := OrderedSet.empty
    ahead := OrderedSet.empty }

/-!
# The pump
-/

/-- The read of the segment, from the retries if it is there. -/
def takeRead (sender : SegmentSender) (segment : Nat) : FileRead × SegmentSender :=
  match sender.retries.get segment with
  | some retry => (retry.read, sender)
  | none => sender.prepare segment

def choose (sender : SegmentSender) (segment : Nat) : SegmentSender :=
  { sender with
    demands := sender.demands.delete segment
    ahead := sender.ahead.delete segment
    baseline := if segment = sender.baseline then sender.baseline + 1 else sender.baseline }

def awaitRead (sender : SegmentSender) (segment : Nat) (read : FileRead) : SegmentSender :=
  { sender with
    retries := sender.retries.delete segment
    prepared := if sender.prepared = some read then none else sender.prepared
    flights := sender.flights.set segment { read := read, isSent := false }
    awaiting := some (segment, read) }

/-- The body of the loop up to the {lit}`await`. -/
def beginFlight (sender : SegmentSender) (segment : Nat) : SegmentSender :=
  let (read, sender) := (sender.choose segment).takeRead segment
  sender.awaitRead segment read

/-- The head of the loop; the pump either awaits a read or leaves {lit}`pumping`. -/
def pumpLoop (options : SenderOptions) (shouldStop : Bool) (sender : SegmentSender) :
    SegmentSender :=
  if sender.inactive shouldStop || !decide ((sender.flights.size : Int) < options.limit) then
    { sender with awaiting := none }
  else
    match sender.nextSegment options with
    | (none, sender) => { sender with awaiting := none }
    | (some segment, sender) => sender.beginFlight segment

/-- What {lit}`shouldStop` answers on entry, at the start of the pump and in its loop. -/
structure Answers where
  entry : Bool := false
  pump : Bool := false
  loop : Bool := false

def pump (options : SenderOptions) (answers : Answers) (sender : SegmentSender) :
    SegmentSender :=
  if sender.inactive answers.pump || sender.awaiting.isSome then sender
  else sender.pumpLoop options answers.loop

/-- How the awaited read ends, and the {lit}`sendSegment` after it. -/
inductive ReadEnd where
  | sent
  | readFails
  | sendFails
  deriving DecidableEq

def markSent (sender : SegmentSender) (segment : Nat) : SegmentSender :=
  match sender.flights.get segment with
  | some flight =>
      { sender with flights := sender.flights.set segment { flight with isSent := true } }
  | none => sender

/-- The next file read is prepared even when both wire slots are occupied. -/
def prepareNext (options : SenderOptions) (sender : SegmentSender) : SegmentSender :=
  match sender.nextSegment options with
  | (none, sender) => sender
  | (some next, sender) => (sender.prepare next).2

/-- The pump behind the {lit}`await`, with what is handed to {lit}`sendSegment`. -/
def resume (options : SenderOptions) (answers : Answers) (ending : ReadEnd) (segment : Nat)
    (read : FileRead) (sender : SegmentSender) : SegmentSender × Option (Nat × FileRead) :=
  let running := { sender with awaiting := none }
  if running.inactive answers.entry then (running, none)
  else
    match ending with
    | .readFails => (running.stop, none)
    | .sendFails => (running.stop, some (segment, read))
    | .sent =>
        (((running.markSent segment).prepareNext options).pumpLoop options answers.loop,
          some (segment, read))

/-!
# What the caller calls
-/

def hasPending (options : SenderOptions) (sender : SegmentSender) : Bool × SegmentSender :=
  if 0 < sender.flights.size ∨ 0 < sender.retries.size then (true, sender)
  else
    let (segment, sender) := sender.nextSegment options
    (segment.isSome, sender)

/-- The segments behind the requested one, within the window. -/
def windowBehind (options : SenderOptions) (segment : Nat) : List Nat :=
  List.range' (segment + 1)
    (min options.totalSegments (segment + options.demandWindow) - (segment + 1))

def demand (options : SenderOptions) (sender : SegmentSender) (segment : Nat) :
    SegmentSender :=
  let ahead := (sender.ahead.addAll ((windowBehind options segment).filter
    (fun s => !sender.handled s))).trim (options.demandWindow * 2)
  { sender with
    ahead := ahead
    demands := if segment ∈ sender.flights then sender.demands else sender.demands.add segment }

/-- The segment that a request is for; what is not an integer is not one. -/
def requested (options : SenderOptions) (segment : Option Int) : Option Nat :=
  match segment with
  | none => none
  | some segment =>
      if segment < 0 ∨ (options.totalSegments : Int) ≤ segment then none
      else some segment.toNat

def accepted (options : SenderOptions) (answers : Answers) (segment : Option Int)
    (sender : SegmentSender) : Option Nat :=
  if sender.inactive answers.entry then none
  else requested options segment

def request (options : SenderOptions) (answers : Answers) (segment : Option Int)
    (sender : SegmentSender) : SegmentSender :=
  match sender.accepted options answers segment with
  | none => sender
  | some segment => (sender.demand options segment).pump options answers

/-- The flight that an answer of the server is for. -/
def answered (answers : Answers) (segment : Nat) (sender : SegmentSender) : Option Flight :=
  if sender.inactive answers.entry then none
  else (sender.flights.get segment).filter Flight.isSent

def acknowledge (sender : SegmentSender) (segment : Nat) : SegmentSender :=
  { sender with
    acknowledged := sender.acknowledged.add segment
    demands := sender.demands.delete segment
    flights := sender.flights.delete segment }

def ack (options : SenderOptions) (answers : Answers) (segment : Nat)
    (sender : SegmentSender) : SegmentSender :=
  match sender.answered answers segment with
  | none => sender
  | some _ => (sender.acknowledge segment).pump options answers

def retryLater (sender : SegmentSender) (segment : Nat) (read : FileRead) : SegmentSender :=
  { sender with
    flights := sender.flights.delete segment
    demands := sender.demands.add segment
    retries := sender.retries.set segment { read := read, timer := true } }

def busy (options : SenderOptions) (answers : Answers) (segment : Nat)
    (sender : SegmentSender) : SegmentSender :=
  match sender.answered answers segment with
  | none => sender
  | some flight => (sender.retryLater segment flight.read).pump options answers

/-- The callback of the timer of a retry, if it is running. -/
def retryTimer (options : SenderOptions) (answers : Answers) (segment : Nat)
    (sender : SegmentSender) : Option SegmentSender :=
  match sender.retries.get segment with
  | none => none
  | some retry =>
      if retry.timer then
        some (({ sender with
          retries := sender.retries.set segment { retry with timer := false } } :
            SegmentSender).pump options answers)
      else none

end SegmentSender

end Sender
end PkgManager
