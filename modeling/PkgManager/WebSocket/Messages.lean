import PkgManager.WebSocket.Frame
import Mathlib.Tactic.ByContra

/-!
# Messages

The frame loop of {lit}`ws_conn_worker` between decoding a frame and applying a
message, next to the reassembly that RFC 6455, section 5.4, defines.
-/

namespace PkgManager
namespace WebSocket

/-- {lit}`WS_TEXT_MAX` -/
def textMax : Nat := 16384

/-- {lit}`WS_BIN_MSG_MAX` -/
def binMsgMax : Nat := 8388608

structure Frame where
  opcode : UInt8
  fin : Bool
  payload : List UInt8
deriving DecidableEq

/-- What is handed on: a text message to {lit}`handle_text_msg`, a binary
message to the segment it is for. -/
inductive Message where
  | text (bytes : List UInt8)
  | binary (seg : Int) (bytes : List UInt8)
deriving DecidableEq

/-- The reassembly locals.  The two buffers are the lists of the bytes below
{lit}`frag_tlen` and {lit}`frag_bin_total`. -/
structure Reassembly where
  fragText : List UInt8
  fragTextOn : Bool
  fragOp : UInt8
  binMsg : List UInt8
  pendingSeg : Int
deriving DecidableEq

def emptyReassembly : Reassembly where
  fragText := []
  fragTextOn := false
  fragOp := 0
  binMsg := []
  pendingSeg := -1

/-- {lit}`pending_seg` after a text message: a seg message of a connection that
may upload sets it. -/
def segAfterText (allowed : Bool) (pendingSeg : Int) (bytes : List UInt8) : Int :=
  match controlOf (cText bytes) with
  | Control.seg seg => if allowed then seg else pendingSeg
  | _ => pendingSeg

def textFrame (st : Reassembly) (allowed : Bool) (f : Frame) :
    Option (Reassembly × Option Message) :=
  let isStart := f.opcode == 1
  if isStart && st.fragTextOn then none
  else if !isStart && !st.fragTextOn then none
  else
    let st :=
      if isStart then { st with fragText := [], fragOp := 1, fragTextOn := true } else st
    if st.fragText.length + f.payload.length > textMax then none
    else
      let bytes := st.fragText ++ f.payload
      if f.fin then
        some ({ st with
                  pendingSeg := segAfterText allowed st.pendingSeg bytes
                  fragTextOn := false
                  fragText := [] }, some (Message.text bytes))
      else some ({ st with fragText := bytes }, none)

def binaryFrame (st : Reassembly) (f : Frame) : Option (Reassembly × Option Message) :=
  let isStart := f.opcode == 2
  if !isStart && !st.fragTextOn then none
  else
    let st := if isStart then { st with fragOp := 2, fragTextOn := true, binMsg := [] } else st
    if isStart && decide (st.pendingSeg < 0) then none
    else if st.binMsg.length + f.payload.length > binMsgMax then none
    else
      let bytes := st.binMsg ++ f.payload
      if f.fin then
        some ({ st with pendingSeg := -1, fragTextOn := false, binMsg := [] },
          some (Message.binary st.pendingSeg bytes))
      else some ({ st with binMsg := bytes }, none)

/-- One decoded frame; {lit}`none` is {lit}`goto conn_done`. -/
def frameStep (st : Reassembly) (allowed : Bool) (f : Frame) :
    Option (Reassembly × Option Message) :=
  if f.opcode = 0x8 then none
  else if f.opcode = 0x9 then some (st, none)
  else if f.opcode = 0xA then some (st, none)
  else if f.opcode = 0x1 ∨ (f.opcode = 0x0 ∧ st.fragOp = 0x1) then textFrame st allowed f
  else if f.opcode = 0x2 ∨ (f.opcode = 0x0 ∧ st.fragOp = 0x2) then binaryFrame st f
  else none

/-!
# The reassembly of the RFC

At most one message is unfinished; control frames may come in between.  The
limits are those of this endpoint: the two sizes, and a binary message needs a
segment named for it.
-/

inductive Unfinished where
  | text (bytes : List UInt8)
  | binary (bytes : List UInt8)
deriving DecidableEq

structure RfcState where
  unfinished : Option Unfinished
  named : Int
deriving DecidableEq

def rfcStart : RfcState where
  unfinished := none
  named := -1

def Unfinished.bytes : Unfinished -> List UInt8
  | Unfinished.text bytes => bytes
  | Unfinished.binary bytes => bytes

def Unfinished.add (payload : List UInt8) : Unfinished -> Unfinished
  | Unfinished.text bytes => Unfinished.text (bytes ++ payload)
  | Unfinished.binary bytes => Unfinished.binary (bytes ++ payload)

def Unfinished.limit : Unfinished -> Nat
  | Unfinished.text _ => textMax
  | Unfinished.binary _ => binMsgMax

/-- The message a data frame belongs to, with the bytes that came before the
frame: a first frame only when nothing is unfinished, a continuation only when
something is. -/
def rfcMessage (r : RfcState) (opcode : UInt8) : Option Unfinished :=
  if opcode = 0x1 then
    match r.unfinished with
    | none => some (Unfinished.text [])
    | some _ => none
  else if opcode = 0x2 then
    match r.unfinished with
    | none => if 0 ≤ r.named then some (Unfinished.binary []) else none
    | some _ => none
  else if opcode = 0x0 then r.unfinished
  else none

def rfcComplete (r : RfcState) (allowed : Bool) : Unfinished -> RfcState × Option Message
  | Unfinished.text bytes =>
      ({ unfinished := none, named := segAfterText allowed r.named bytes },
        some (Message.text bytes))
  | Unfinished.binary bytes =>
      ({ unfinished := none, named := -1 }, some (Message.binary r.named bytes))

def rfcStep (r : RfcState) (allowed : Bool) (f : Frame) : Option (RfcState × Option Message) :=
  if f.opcode = 0x9 ∨ f.opcode = 0xA then some (r, none)
  else
    match rfcMessage r f.opcode with
    | none => none
    | some u =>
        if u.bytes.length + f.payload.length > u.limit then none
        else if f.fin then some (rfcComplete r allowed (u.add f.payload))
        else some ({ r with unfinished := some (u.add f.payload) }, none)

/-!
# Sequences of frames

What the connection does at each frame, up to the frame at which it closes.
-/

inductive Reaction where
  | goesOn (dispatched : Option Message)
  | closes
deriving DecidableEq

def reactions {σ : Type} (step : σ -> Bool -> Frame -> Option (σ × Option Message)) :
    σ -> List (Bool × Frame) -> List Reaction
  | _, [] => []
  | s, (allowed, f) :: rest =>
      match step s allowed f with
      | none => [Reaction.closes]
      | some (s', m) => Reaction.goesOn m :: reactions step s' rest

/-- The state after all the frames, while the connection is open. -/
def stateAfter {σ : Type} (step : σ -> Bool -> Frame -> Option (σ × Option Message)) :
    σ -> List (Bool × Frame) -> Option σ
  | s, [] => some s
  | s, (allowed, f) :: rest =>
      match step s allowed f with
      | none => none
      | some (s', _) => stateAfter step s' rest

/-- A first binary frame within the limit, for a named segment, while a message
is unfinished. -/
def Interleaves (r : RfcState) (f : Frame) : Prop :=
  f.opcode = 0x2 ∧ r.unfinished.isSome = true ∧ 0 ≤ r.named ∧ f.payload.length ≤ binMsgMax

/-!
# The simulation
-/

/-- What the code's locals say about the unfinished message. -/
def Holds (st : Reassembly) : Option Unfinished -> Prop
  | none => st.fragTextOn = false
  | some (Unfinished.text bytes) => st.fragTextOn = true ∧ st.fragOp = 1 ∧ st.fragText = bytes
  | some (Unfinished.binary bytes) => st.fragTextOn = true ∧ st.fragOp = 2 ∧ st.binMsg = bytes

structure Simulates (st : Reassembly) (r : RfcState) : Prop where
  pendingSeg : st.pendingSeg = r.named
  holds : Holds st r.unfinished

/-- Both close, or both go on alike. -/
def Matches : Option (Reassembly × Option Message) -> Option (RfcState × Option Message) -> Prop
  | none, none => True
  | some (st, m), some (r, m') => m = m' ∧ Simulates st r
  | _, _ => False

/-- Taking the payload into the text that is open. -/
theorem matches_text {st : Reassembly} {r : RfcState} {allowed : Bool} {f : Frame}
    {bytes : List UInt8} (hseg : st.pendingSeg = r.named) (hop : st.fragOp = 1)
    (hon : st.fragTextOn = true) (hbytes : st.fragText = bytes) :
    Matches
      (if st.fragText.length + f.payload.length > textMax then none
      else if f.fin then
        some ({ st with
                  pendingSeg := segAfterText allowed st.pendingSeg (st.fragText ++ f.payload)
                  fragTextOn := false
                  fragText := [] }, some (Message.text (st.fragText ++ f.payload)))
      else some ({ st with fragText := st.fragText ++ f.payload }, none))
      (if (Unfinished.text bytes).bytes.length + f.payload.length > (Unfinished.text bytes).limit
        then none
      else if f.fin then some (rfcComplete r allowed ((Unfinished.text bytes).add f.payload))
      else some ({ r with unfinished := some ((Unfinished.text bytes).add f.payload) }, none)) := by
  rw [hbytes]
  show Matches _ (if bytes.length + f.payload.length > textMax then none else _)
  by_cases hlimit : bytes.length + f.payload.length > textMax
  · rw [if_pos hlimit, if_pos hlimit]
    trivial
  · rw [if_neg hlimit, if_neg hlimit]
    cases f.fin with
    | true =>
        refine ⟨rfl, ⟨?_, rfl⟩⟩
        show segAfterText allowed st.pendingSeg _ = segAfterText allowed r.named _
        rw [hseg]
    | false => exact ⟨rfl, ⟨hseg, hon, hop, rfl⟩⟩

/-- Taking the payload into the binary message that is open. -/
theorem matches_binary {st : Reassembly} {r : RfcState} {allowed : Bool} {f : Frame}
    {bytes : List UInt8} (hseg : st.pendingSeg = r.named) (hop : st.fragOp = 2)
    (hon : st.fragTextOn = true) (hbytes : st.binMsg = bytes) :
    Matches
      (if st.binMsg.length + f.payload.length > binMsgMax then none
      else if f.fin then
        some ({ st with pendingSeg := -1, fragTextOn := false, binMsg := [] },
          some (Message.binary st.pendingSeg (st.binMsg ++ f.payload)))
      else some ({ st with binMsg := st.binMsg ++ f.payload }, none))
      (if (Unfinished.binary bytes).bytes.length + f.payload.length >
          (Unfinished.binary bytes).limit then none
      else if f.fin then some (rfcComplete r allowed ((Unfinished.binary bytes).add f.payload))
      else some ({ r with unfinished := some ((Unfinished.binary bytes).add f.payload) }, none)) := by
  rw [hbytes, hseg]
  show Matches _ (if bytes.length + f.payload.length > binMsgMax then none else _)
  by_cases hlimit : bytes.length + f.payload.length > binMsgMax
  · rw [if_pos hlimit, if_pos hlimit]
    trivial
  · rw [if_neg hlimit, if_neg hlimit]
    cases f.fin with
    | true => exact ⟨rfl, ⟨rfl, rfl⟩⟩
    | false => exact ⟨rfl, ⟨rfl, hon, hop, rfl⟩⟩

/-- A first text frame. -/
theorem matches_textStart {st : Reassembly} {r : RfcState} (h : Simulates st r) (allowed : Bool)
    {f : Frame} (hop : f.opcode = 0x1) :
    Matches (textFrame st allowed f) (rfcStep r allowed f) := by
  have hstart : (f.opcode == 1) = true := by
    rw [hop]
    rfl
  have hdata : ¬ (f.opcode = 0x9 ∨ f.opcode = 0xA) := by
    rw [hop]
    decide
  have hholds := h.holds
  unfold textFrame
  dsimp only
  rw [hstart]
  unfold rfcStep rfcMessage
  rw [if_neg hdata, if_pos hop]
  cases hun : r.unfinished with
  | none =>
      rw [hun] at hholds
      rw [show st.fragTextOn = false from hholds]
      simp only [Bool.not_true, Bool.and_false, Bool.false_and, Bool.false_eq_true, if_false,
        if_true]
      exact @matches_text { st with fragText := [], fragOp := 1, fragTextOn := true } r allowed f []
        h.pendingSeg rfl rfl rfl
  | some u =>
      rw [hun] at hholds
      have hon : st.fragTextOn = true := by
        cases u with
        | text bytes => exact hholds.1
        | binary bytes => exact hholds.1
      rw [hon]
      trivial

/-- A first binary frame, unless it interleaves. -/
theorem matches_binaryStart {st : Reassembly} {r : RfcState} (h : Simulates st r)
    (allowed : Bool) {f : Frame} (hop : f.opcode = 0x2) (hnot : ¬ Interleaves r f) :
    Matches (binaryFrame st f) (rfcStep r allowed f) := by
  have hstart : (f.opcode == 2) = true := by
    rw [hop]
    rfl
  have hdata : ¬ (f.opcode = 0x9 ∨ f.opcode = 0xA) := by
    rw [hop]
    decide
  have hnotText : ¬ f.opcode = 0x1 := by
    rw [hop]
    decide
  unfold binaryFrame
  dsimp only
  rw [hstart]
  unfold rfcStep rfcMessage
  rw [if_neg hdata, if_neg hnotText, if_pos hop]
  by_cases hneg : st.pendingSeg < 0
  · have hnamed : ¬ 0 ≤ r.named := by
      rw [← h.pendingSeg]
      omega
    simp only [Bool.not_true, Bool.false_and, Bool.false_eq_true, if_false, if_true,
      decide_eq_true hneg, Bool.and_self]
    cases r.unfinished with
    | none =>
        simp only [if_neg hnamed]
        trivial
    | some u => trivial
  · have hnamed : 0 ≤ r.named := by
      rw [← h.pendingSeg]
      omega
    simp only [Bool.not_true, Bool.false_and, Bool.false_eq_true, if_false, if_true,
      decide_eq_false hneg, Bool.and_false]
    cases hun : r.unfinished with
    | none =>
        simp only [if_pos hnamed]
        exact @matches_binary { st with fragOp := 2, fragTextOn := true, binMsg := [] } r allowed f
          [] h.pendingSeg rfl rfl rfl
    | some u =>
        have hbig : ([] : List UInt8).length + f.payload.length > binMsgMax := by
          by_contra hsmall
          apply hnot
          refine ⟨hop, ?_, hnamed, ?_⟩
          · rw [hun]
            rfl
          · rw [List.length_nil] at hsmall
            omega
        rw [if_pos hbig]
        trivial

/-- A continuation. -/
theorem matches_continuation {st : Reassembly} {r : RfcState} (h : Simulates st r)
    (allowed : Bool) {f : Frame} (hop : f.opcode = 0x0) :
    Matches (frameStep st allowed f) (rfcStep r allowed f) := by
  have htext : (f.opcode == 1) = false := by
    rw [hop]
    rfl
  have hbinary : (f.opcode == 2) = false := by
    rw [hop]
    rfl
  have hdata : ¬ (f.opcode = 0x9 ∨ f.opcode = 0xA) := by
    rw [hop]
    decide
  have hcode : frameStep st allowed f =
      if st.fragOp = 0x1 then textFrame st allowed f
      else if st.fragOp = 0x2 then binaryFrame st f
      else none := by
    unfold frameStep
    simp [hop]
  have hmessage : rfcMessage r f.opcode = r.unfinished := by
    unfold rfcMessage
    simp [hop]
  have hholds := h.holds
  rw [hcode]
  unfold rfcStep
  rw [if_neg hdata, hmessage]
  cases hun : r.unfinished with
  | none =>
      rw [hun] at hholds
      have hoff : st.fragTextOn = false := hholds
      unfold textFrame binaryFrame
      dsimp only
      rw [htext, hbinary, hoff]
      split
      · trivial
      · split
        · trivial
        · trivial
  | some u =>
      rw [hun] at hholds
      cases u with
      | text bytes =>
          rcases hholds with ⟨hon, hfrag, hbytes⟩
          rw [if_pos hfrag]
          unfold textFrame
          dsimp only
          rw [htext, hon]
          exact matches_text h.pendingSeg hfrag hon hbytes
      | binary bytes =>
          rcases hholds with ⟨hon, hfrag, hbytes⟩
          rw [if_neg (by rw [hfrag]; decide), if_pos hfrag]
          unfold binaryFrame
          dsimp only
          rw [hbinary, hon]
          exact matches_binary h.pendingSeg hfrag hon hbytes

theorem matches_step {st : Reassembly} {r : RfcState} (h : Simulates st r) (allowed : Bool)
    {f : Frame} (hnot : ¬ Interleaves r f) :
    Matches (frameStep st allowed f) (rfcStep r allowed f) := by
  by_cases hcont : f.opcode = 0x0
  · exact matches_continuation h allowed hcont
  by_cases htext : f.opcode = 0x1
  · have hstep : frameStep st allowed f = textFrame st allowed f := by
      unfold frameStep
      rw [htext]
      rfl
    rw [hstep]
    exact matches_textStart h allowed htext
  by_cases hbinary : f.opcode = 0x2
  · have hstep : frameStep st allowed f = binaryFrame st f := by
      unfold frameStep
      rw [hbinary]
      rfl
    rw [hstep]
    exact matches_binaryStart h allowed hbinary hnot
  by_cases hpingPong : f.opcode = 0x9 ∨ f.opcode = 0xA
  · have hcode : frameStep st allowed f = some (st, none) := by
      unfold frameStep
      rcases hpingPong with hping | hpong
      · rw [hping]
        rfl
      · rw [hpong]
        rfl
    rw [hcode]
    unfold rfcStep
    rw [if_pos hpingPong]
    exact ⟨rfl, h⟩
  -- a close frame or an opcode that does not exist
  have hcode : frameStep st allowed f = none := by
    unfold frameStep
    simp only [not_or] at hpingPong
    simp [hcont, htext, hbinary, hpingPong.1, hpingPong.2]
  have hmessage : rfcMessage r f.opcode = none := by
    unfold rfcMessage
    rw [if_neg htext, if_neg hbinary, if_neg hcont]
  rw [hcode]
  unfold rfcStep
  rw [if_neg hpingPong, hmessage]
  trivial

/-- At a frame that interleaves the code goes on and the RFC closes. -/
theorem differs_step {st : Reassembly} {r : RfcState} (h : Simulates st r) (allowed : Bool)
    {f : Frame} (hinter : Interleaves r f) :
    rfcStep r allowed f = none ∧ exists out, frameStep st allowed f = some out := by
  rcases hinter with ⟨hop, hsome, hnamed, hsize⟩
  rcases Option.isSome_iff_exists.mp hsome with ⟨u, hu⟩
  constructor
  · have hmessage : rfcMessage r f.opcode = none := by
      unfold rfcMessage
      rw [hop, hu]
      rfl
    unfold rfcStep
    rw [if_neg (by rw [hop]; decide), hmessage]
  · have hstart : (f.opcode == 2) = true := by
      rw [hop]
      rfl
    have hpos : ¬ st.pendingSeg < 0 := by
      rw [h.pendingSeg]
      omega
    have hstep : frameStep st allowed f = binaryFrame st f := by
      unfold frameStep
      rw [hop]
      rfl
    have hfits : ¬ ([] : List UInt8).length + f.payload.length > binMsgMax := by
      rw [List.length_nil]
      omega
    rw [hstep]
    unfold binaryFrame
    dsimp only
    rw [hstart]
    simp only [Bool.not_true, Bool.false_and, Bool.false_eq_true, if_false, if_true,
      decide_eq_false hpos, Bool.and_false]
    rw [if_neg hfits]
    cases f.fin with
    | true => exact ⟨_, rfl⟩
    | false => exact ⟨_, rfl⟩

/-!
# The frame loop against the RFC
-/

/-- No frame of the sequence interleaves before the connection closes. -/
def NoneInterleaves (frames : List (Bool × Frame)) : Prop :=
  forall before allowed f after r, frames = before ++ (allowed, f) :: after ->
    stateAfter rfcStep rfcStart before = some r -> ¬ Interleaves r f

theorem simulates_start : Simulates emptyReassembly rfcStart where
  pendingSeg := rfl
  holds := rfl

theorem reactions_eq_of_simulates {st : Reassembly} {r : RfcState} (h : Simulates st r)
    {frames : List (Bool × Frame)}
    (hnone : forall before allowed f after r', frames = before ++ (allowed, f) :: after ->
      stateAfter rfcStep r before = some r' -> ¬ Interleaves r' f) :
    reactions frameStep st frames = reactions rfcStep r frames := by
  induction frames generalizing st r with
  | nil => rfl
  | cons head rest ih =>
      rcases head with ⟨allowed, f⟩
      have hmatch := matches_step h allowed (hnone [] allowed f rest r rfl rfl)
      unfold reactions
      cases hcode : frameStep st allowed f with
      | none =>
          cases hrfc : rfcStep r allowed f with
          | none => rfl
          | some out =>
              rw [hcode, hrfc] at hmatch
              exact absurd hmatch id
      | some out =>
          cases hrfc : rfcStep r allowed f with
          | none =>
              rw [hcode, hrfc] at hmatch
              exact absurd hmatch id
          | some out' =>
              rw [hcode, hrfc] at hmatch
              rcases out with ⟨st', m⟩
              rcases out' with ⟨r', m'⟩
              have hrest := ih hmatch.2 (by
                intro before allowed' f' after r'' hsplit hstate
                apply hnone ((allowed, f) :: before) allowed' f' after r''
                · rw [hsplit]
                  rfl
                · unfold stateAfter
                  rw [hrfc]
                  exact hstate)
              show Reaction.goesOn m :: reactions frameStep st' rest =
                Reaction.goesOn m' :: reactions rfcStep r' rest
              rw [hmatch.1, hrest]

/-- Where the sequences of reactions agree, no frame interleaves. -/
theorem not_interleaves_of_reactions_eq {before : List (Bool × Frame)} {st : Reassembly}
    {r : RfcState} (h : Simulates st r) {allowed : Bool} {f : Frame}
    {after : List (Bool × Frame)} {r' : RfcState}
    (hstate : stateAfter rfcStep r before = some r')
    (heq : reactions frameStep st (before ++ (allowed, f) :: after) =
      reactions rfcStep r (before ++ (allowed, f) :: after)) : ¬ Interleaves r' f := by
  induction before generalizing st r with
  | nil =>
      intro hinter
      cases hstate
      rcases differs_step h allowed hinter with ⟨hrfc, out, hcode⟩
      rw [List.nil_append] at heq
      unfold reactions at heq
      rw [hrfc, hcode] at heq
      cases heq
  | cons head rest ih =>
      rcases head with ⟨allowed', f'⟩
      unfold stateAfter at hstate
      rw [List.cons_append] at heq
      unfold reactions at heq
      cases hrfc : rfcStep r allowed' f' with
      | none =>
          rw [hrfc] at hstate
          cases hstate
      | some out =>
          rw [hrfc] at hstate heq
          cases hcode : frameStep st allowed' f' with
          | none =>
              rw [hcode] at heq
              cases heq
          | some out' =>
              have hnot : ¬ Interleaves r f' := by
                intro hinter
                rw [(differs_step h allowed' hinter).1] at hrfc
                cases hrfc
              have hmatch := matches_step h allowed' hnot
              rw [hcode, hrfc] at hmatch
              rw [hcode] at heq
              rcases out with ⟨r1, m⟩
              rcases out' with ⟨st1, m1⟩
              have htail := (List.cons.inj heq).2
              exact ih hmatch.2 hstate htail

theorem frameLoop_reassembles_iff (frames : List (Bool × Frame)) :
    reactions frameStep emptyReassembly frames = reactions rfcStep rfcStart frames ↔
      NoneInterleaves frames := by
  constructor
  · intro heq before allowed f after r hsplit hstate
    rw [hsplit] at heq
    exact not_interleaves_of_reactions_eq simulates_start hstate heq
  · intro hnone
    exact reactions_eq_of_simulates simulates_start hnone

/-- A seg message, the first frame of a text message, then a whole binary
message: it is applied to segment 0 although the text message is unfinished. -/
theorem frameLoop_dispatches_interleaved :
    let seg : List UInt8 :=
      "\x7b\"op\":\"seg\",\"seg\":0\x7d".toList.map (fun c => UInt8.ofNat c.toNat)
    let frames := [(true, Frame.mk 1 true seg), (true, Frame.mk 1 false [97]),
      (true, Frame.mk 2 true [1, 2])]
    reactions frameStep emptyReassembly frames =
        [Reaction.goesOn (some (Message.text seg)), Reaction.goesOn none,
          Reaction.goesOn (some (Message.binary 0 [1, 2]))] ∧
      reactions rfcStep rfcStart frames =
        [Reaction.goesOn (some (Message.text seg)), Reaction.goesOn none, Reaction.closes] := by
  decide

end WebSocket
end PkgManager
