import PkgManager.Bytes.Buffered
import PkgManager.WebSocket.Messages
import PkgManager.WebSocket.Codec
import PkgManager.WebSocket.Upgrade

/-!
# The upload connection

The receiving side of {lit}`ws_conn_worker`: the bytes of the HTTP upgrade, then
the frame loop on the buffer that the upgrade has left.
-/

namespace PkgManager
namespace WebSocket

open Buffered

/-- {lit}`rcap` -/
def rbufCap : Nat := binMsgMax + 1024

/-- The decoder as the loop uses it: the frame and the buffer moved down. -/
def decodeFrame (buf : List UInt8) : Verdict UInt8 Frame :=
  let d := wsDirectFrameDecode buf
  if d.used = 0 then Verdict.wait
  else if d.used < 0 then Verdict.bad
  else
    Verdict.item (d.buf.drop d.used.toNat)
      { opcode := d.opcode, fin := d.fin, payload := (d.buf.drop d.payOff).take d.payLen }

/-!
# More bytes do not change a decoded frame
-/

theorem lengthField_append {b1 : UInt8} {rest : List UInt8} (more : List UInt8)
    (h : lengthField b1 rest ≠ LengthField.needMore) :
    lengthField b1 (rest ++ more) = lengthField b1 rest := by
  unfold lengthField at h ⊢
  dsimp only at h ⊢
  by_cases hmedium : (b1 &&& 0x7F).toNat = 126
  · rw [if_pos hmedium] at h ⊢
    rw [if_pos hmedium]
    match rest with
    | [] => exact absurd rfl h
    | [b2] => exact absurd rfl h
    | b2 :: b3 :: tail => rfl
  · rw [if_neg hmedium] at h ⊢
    rw [if_neg hmedium]
    by_cases hlong : (b1 &&& 0x7F).toNat = 127
    · rw [if_pos hlong] at h ⊢
      rw [if_pos hlong]
      by_cases hshort : rest.length < 8
      · rw [if_pos hshort] at h
        exact absurd rfl h
      · have hfirst : (rest ++ more).getD 0 0 = rest.getD 0 0 := by
          match rest with
          | [] => exact absurd (Nat.zero_lt_succ 7) hshort
          | b2 :: tail => rfl
        have htake : (rest ++ more).take 8 = rest.take 8 :=
          List.take_append_of_le_length (by omega)
        have hlen : ¬ (rest ++ more).length < 8 := by
          rw [List.length_append]
          omega
        rw [if_neg hshort, if_neg hlen, hfirst, htake]
    · rw [if_neg hlong, if_neg hlong]

theorem unmaskAt_append {buf : List UInt8} {hdr plen : Nat} (h : hdr + 4 + plen ≤ buf.length)
    (more : List UInt8) : unmaskAt (buf ++ more) hdr plen = unmaskAt buf hdr plen ++ more := by
  have hmask : ((buf ++ more).drop hdr).take 4 = (buf.drop hdr).take 4 := by
    rw [List.drop_append_of_le_length (by omega),
      List.take_append_of_le_length (by rw [List.length_drop]; omega)]
  have hpay : ((buf ++ more).drop (hdr + 4)).take plen = (buf.drop (hdr + 4)).take plen := by
    rw [List.drop_append_of_le_length (by omega),
      List.take_append_of_le_length (by rw [List.length_drop]; omega)]
  unfold unmaskAt
  rw [hmask, hpay, List.take_append_of_le_length (by omega),
    List.drop_append_of_le_length (by omega), List.append_assoc, List.append_assoc]

theorem length_unmaskAt {buf : List UInt8} {hdr plen : Nat} (h : hdr + 4 + plen ≤ buf.length) :
    (unmaskAt buf hdr plen).length = buf.length := by
  unfold unmaskAt
  rw [List.length_append, List.length_append, length_xorMask, List.length_take,
    List.length_take, List.length_drop, List.length_drop]
  omega

/-- What the decoder can do with a buffer. -/
inductive DecodeCase (buf : List UInt8) : Decoded -> Prop where
  | waits : DecodeCase buf { used := 0, buf := buf }
  | fails (h : forall more, wsDirectFrameDecode (buf ++ more) = { used := -1, buf := buf ++ more }) :
      DecodeCase buf { used := -1, buf := buf }
  | frame {d : Decoded} (n : Nat) (hused : d.used = cInt n) (hpos : 2 ≤ n) (hle : n ≤ buf.length)
      (hlength : d.buf.length = buf.length) (hpay : d.payOff + d.payLen = n)
      (h : forall more, wsDirectFrameDecode (buf ++ more) = { d with buf := d.buf ++ more }) :
      DecodeCase buf d

theorem lengthField_hdr {b1 : UInt8} {rest : List UInt8} {hdr plen : Nat}
    (h : lengthField b1 rest = LengthField.known hdr plen) : 2 ≤ hdr := by
  unfold lengthField at h
  dsimp only at h
  split at h
  · split at h
    · cases h
      decide
    · cases h
  · split at h
    · split at h
      · cases h
      · split at h
        · cases h
        · cases h
          decide
    · cases h
      decide

theorem decode_case (buf : List UInt8) : DecodeCase buf (wsDirectFrameDecode buf) := by
  match buf with
  | [] => exact DecodeCase.waits
  | [b0] => exact DecodeCase.waits
  | b0 :: b1 :: rest =>
      have happ : forall more, b0 :: b1 :: rest ++ more = b0 :: b1 :: (rest ++ more) :=
        fun more => rfl
      unfold wsDirectFrameDecode
      dsimp only
      by_cases hrsv : b0 &&& 0x70 ≠ 0
      · rw [if_pos hrsv]
        apply DecodeCase.fails
        intro more
        rw [happ]
        unfold wsDirectFrameDecode
        dsimp only
        rw [if_pos hrsv]
      rw [if_neg hrsv]
      by_cases hop : b0 &&& 0x0F > 0x0A ∨ (b0 &&& 0x0F > 0x02 ∧ b0 &&& 0x0F < 0x08)
      · rw [if_pos hop]
        apply DecodeCase.fails
        intro more
        rw [happ]
        unfold wsDirectFrameDecode
        dsimp only
        rw [if_neg hrsv, if_pos hop]
      rw [if_neg hop]
      cases hfield : lengthField b1 rest with
      | needMore => exact DecodeCase.waits
      | invalid =>
          apply DecodeCase.fails
          intro more
          have hmore := lengthField_append more (by rw [hfield]; exact LengthField.noConfusion)
          rw [happ]
          unfold wsDirectFrameDecode
          dsimp only
          rw [if_neg hrsv, if_neg hop, hmore, hfield]
      | known hdr plen =>
          have hhdr := lengthField_hdr hfield
          have hmore : forall more, lengthField b1 (rest ++ more) = LengthField.known hdr plen := by
            intro more
            rw [lengthField_append more (by rw [hfield]; exact LengthField.noConfusion), hfield]
          dsimp only
          by_cases hctl : b0 &&& 0x0F >= 0x08 ∧ (decide (b0 &&& 0x80 ≠ 0) = false ∨ plen > 125)
          · rw [if_pos hctl]
            apply DecodeCase.fails
            intro more
            rw [happ]
            unfold wsDirectFrameDecode
            dsimp only
            rw [if_neg hrsv, if_neg hop, hmore]
            dsimp only
            rw [if_pos hctl]
          rw [if_neg hctl]
          generalize hmasked : decide (b1 &&& 0x80 ≠ 0) = masked
          by_cases hbig : plen > 2 ^ 64 - 1 - hdr - (if masked then 4 else 0)
          · rw [if_pos hbig]
            apply DecodeCase.fails
            intro more
            rw [happ]
            unfold wsDirectFrameDecode
            dsimp only
            rw [if_neg hrsv, if_neg hop, hmore]
            dsimp only
            rw [if_neg hctl, hmasked, if_pos hbig]
          rw [if_neg hbig]
          by_cases hshort : (b0 :: b1 :: rest).length < hdr + (if masked then 4 else 0) + plen
          · rw [if_pos hshort]
            exact DecodeCase.waits
          rw [if_neg hshort]
          have hfull : hdr + (if masked then 4 else 0) + plen ≤ (b0 :: b1 :: rest).length :=
            Nat.le_of_not_lt hshort
          refine DecodeCase.frame (hdr + (if masked then 4 else 0) + plen) ?_ (by omega) hfull
            ?_ ?_ ?_
          · dsimp only
          · cases masked with
            | false => rfl
            | true => exact length_unmaskAt hfull
          · dsimp only
          · intro more
            have hlong : ¬ (b0 :: b1 :: (rest ++ more)).length <
                hdr + (if masked then 4 else 0) + plen := by
              rw [← happ, List.length_append]
              omega
            rw [happ]
            conv => lhs; unfold wsDirectFrameDecode
            dsimp only
            rw [if_neg hrsv, if_neg hop, hmore]
            dsimp only
            rw [if_neg hctl, hmasked, if_neg hbig, if_neg hlong]
            cases masked with
            | false => rfl
            | true =>
                have hunmask := unmaskAt_append hfull more
                rw [happ] at hunmask
                simp only [if_true]
                rw [hunmask]

theorem stable_decodeFrame : Stable decodeFrame rbufCap where
  cap_pos := by decide
  empty := rfl
  bad_append := by
    intro buf more hlen h
    have hcase := decode_case buf
    unfold decodeFrame at h ⊢
    dsimp only at h ⊢
    generalize wsDirectFrameDecode buf = d at h hcase
    cases hcase with
    | waits => cases h
    | fails hmore =>
        rw [hmore]
        rfl
    | frame n hused hpos hle hlength hpay hmore =>
        rw [List.length_append] at hlen
        have hcap : rbufCap < 2 ^ 31 := by decide
        rw [hused, cInt_of_lt (by omega), if_neg (by omega), if_neg (by omega)] at h
        cases h
  item_append := by
    intro buf more rest x hlen h
    have hcase := decode_case buf
    unfold decodeFrame at h ⊢
    dsimp only at h ⊢
    generalize wsDirectFrameDecode buf = d at h hcase
    cases hcase with
    | waits => cases h
    | fails hmore => cases h
    | frame n hused hpos hle hlength hpay hmore =>
        rw [List.length_append] at hlen
        have hcap : rbufCap < 2 ^ 31 := by decide
        rw [hmore]
        dsimp only
        rw [hused, cInt_of_lt (by omega), if_neg (by omega), if_neg (by omega)] at h ⊢
        cases h
        have hdrop : (d.buf ++ more).drop ((n : Int).toNat) =
            d.buf.drop ((n : Int).toNat) ++ more :=
          List.drop_append_of_le_length (by omega)
        have hpayload : ((d.buf ++ more).drop d.payOff).take d.payLen =
            (d.buf.drop d.payOff).take d.payLen := by
          rw [List.drop_append_of_le_length (by omega),
            List.take_append_of_le_length (by rw [List.length_drop]; omega)]
        rw [hdrop, hpayload]
  item_shorter := by
    intro buf rest x hlen h
    have hcase := decode_case buf
    unfold decodeFrame at h
    dsimp only at h
    generalize wsDirectFrameDecode buf = d at h hcase
    cases hcase with
    | waits => cases h
    | fails hmore => cases h
    | frame n hused hpos hle hlength hpay hmore =>
        have hcap : rbufCap < 2 ^ 31 := by decide
        rw [hused, cInt_of_lt (by omega), if_neg (by omega), if_neg (by omega)] at h
        cases h
        rw [List.length_drop]
        omega

/-!
# The worker
-/

/-- {lit}`sizeof(hs) - 1` -/
def hsCap : Nat := 8191

/-- Receive until the headers are complete: the buffer, what is still to come,
and how many pieces have been received. -/
def readUpgrade (sizes : Nat -> Nat) :
    Nat -> Nat -> List UInt8 -> List UInt8 -> List UInt8 × List UInt8 × Nat
  | 0, k, hs, incoming => (hs, incoming, k)
  | fuel + 1, k, hs, incoming =>
      if hs.length >= hsCap || incoming.isEmpty then (hs, incoming, k)
      else
        let n := pieceSize (sizes k) (hsCap - hs.length)
        let hs' := hs ++ incoming.take n
        if (strstr crlf2 (cText hs')).isSome then (hs', incoming.drop n, k + 1)
        else readUpgrade sizes fuel (k + 1) hs' (incoming.drop n)

/-- What the rest of the program answers while a frame is handled: whether the
connection may upload, and whether memory and the replies are to be had. -/
structure FrameEnv where
  allowed : Bool
  replies : Bool

def handleFrame (env : Nat -> FrameEnv) (s : Nat × Reassembly) (f : Frame) :
    Option (Nat × Reassembly) :=
  if !(env s.1).replies then none
  else
    match frameStep s.2 (env s.1).allowed f with
    | none => none
    | some (st, _) => some (s.1 + 1, st)

/-- A connection that is not upgraded is answered with 400. -/
inductive ConnRun where
  | rejected
  | upgraded (frames : List Frame) (e : Ending)
deriving DecidableEq

/-- The run of the worker on the bytes that the client sends, cut into pieces. -/
def wsConnWorker (env : Nat -> FrameEnv) (sizes : Nat -> Nat) (stream : List UInt8) : ConnRun :=
  let received := readUpgrade sizes (stream.length + 1) 0 [] stream
  let hs := received.1
  let incoming := received.2.1
  match headerEnd (cText hs) with
  | none => ConnRun.rejected
  | some hend =>
      if !acceptsUpgrade (cText hs) then ConnRun.rejected
      else
        let run := readAll decodeFrame (handleFrame env) rbufCap sizes (incoming.length + 1)
          received.2.2 (hs.drop hend) incoming (0, emptyReassembly)
        ConnRun.upgraded run.1 run.2

/-!
# The upgrade does not depend on the cut
-/

theorem readUpgrade_spec (sizes : Nat -> Nat) {fuel k : Nat} {hs incoming : List UInt8}
    (hlen : hs.length ≤ hsCap) (hfuel : incoming.length < fuel) :
    exists hs' incoming' k', readUpgrade sizes fuel k hs incoming = (hs', incoming', k') ∧
      hs' ++ incoming' = hs ++ incoming ∧ hs'.length ≤ hsCap ∧
      ((strstr crlf2 (cText hs')).isSome = true ∨ hs' = (hs ++ incoming).take hsCap) := by
  induction fuel generalizing k hs incoming with
  | zero => exact absurd hfuel (Nat.not_lt_zero _)
  | succ fuel ih =>
      rw [readUpgrade]
      by_cases hstop : (hs.length >= hsCap || incoming.isEmpty) = true
      · rw [if_pos hstop]
        refine ⟨hs, incoming, k, rfl, rfl, hlen, Or.inr ?_⟩
        rcases Bool.or_eq_true_iff.mp hstop with hfull | hempty
        · have hge : hsCap ≤ hs.length := of_decide_eq_true hfull
          rw [List.take_append_of_le_length hge, List.take_of_length_le hlen]
        · rw [List.isEmpty_iff.mp hempty, List.append_nil, List.take_of_length_le hlen]
      · rw [if_neg hstop]
        dsimp only
        have hgoes : hs.length < hsCap ∧ incoming ≠ [] := by
          constructor
          · by_contra hge
            exact hstop (Bool.or_eq_true_iff.mpr (Or.inl (decide_eq_true (Nat.le_of_not_lt hge))))
          · intro hnil
            exact hstop (Bool.or_eq_true_iff.mpr (Or.inr (List.isEmpty_iff.mpr hnil)))
        have hpos : 0 < pieceSize (sizes k) (hsCap - hs.length) := by
          unfold pieceSize
          omega
        have hfits : pieceSize (sizes k) (hsCap - hs.length) ≤ hsCap - hs.length := by
          unfold pieceSize
          omega
        generalize pieceSize (sizes k) (hsCap - hs.length) = size at hpos hfits
        have hsplit : hs ++ incoming.take size ++ incoming.drop size = hs ++ incoming := by
          rw [List.append_assoc, List.take_append_drop]
        have hsmall : (hs ++ incoming.take size).length ≤ hsCap := by
          rw [List.length_append, List.length_take]
          omega
        by_cases hfound : (strstr crlf2 (cText (hs ++ incoming.take size))).isSome = true
        · rw [if_pos hfound]
          exact ⟨_, _, _, rfl, hsplit, hsmall, Or.inl hfound⟩
        · rw [if_neg hfound, ← hsplit]
          apply ih hsmall
          have hlength : 0 < incoming.length := List.length_pos_iff.mpr hgoes.2
          rw [List.length_drop]
          omega

theorem cText_append (a b : List UInt8) : exists more, cText (a ++ b) = cText a ++ more := by
  unfold cText
  rw [List.takeWhile_append]
  split
  · rename_i hall
    have hsame := (List.takeWhile_prefix (l := a) (fun b => b != 0)).eq_of_length hall
    rw [hsame, List.map_append]
    exact ⟨_, rfl⟩
  · exact ⟨[], (List.append_nil _).symm⟩

theorem length_cText_le (bytes : List UInt8) : (cText bytes).length ≤ bytes.length := by
  unfold cText
  rw [List.length_map]
  exact (List.takeWhile_prefix _).length_le

/-- The headers are where they are in every longer text, and they end in a blank
line. -/
theorem headerEnd_some {text : List Char} {hend : Nat} (h : headerEnd text = some hend) :
    hend ≤ text.length ∧ crlf2 <:+ text.take hend ∧
      forall more, headerEnd (text ++ more) = some hend := by
  unfold headerEnd at h
  rcases Option.map_eq_some_iff.mp h with ⟨rest, hfound, hpos⟩
  rcases strstr_spec (by decide) hfound with ⟨⟨front, hfront⟩, ⟨tail, htail⟩⟩
  have hlen : text.length = front.length + rest.length := by
    rw [← hfront, List.length_append]
  have hrest : rest.length = 4 + tail.length := by
    rw [← htail, List.length_append]
    rfl
  have hend_eq : hend = front.length + 4 := by omega
  refine ⟨by omega, ?_, ?_⟩
  · rw [hend_eq, ← hfront, ← htail, ← List.append_assoc,
      List.take_left' (by rw [List.length_append]; rfl)]
    exact List.suffix_append front crlf2
  · intro more
    unfold headerEnd
    rw [strstr_append (by decide) hfound more, Option.map_some]
    congr 1
    rw [List.length_append, List.length_append]
    omega

/-- The upgrade depends on the beginning of the stream only. -/
theorem upgrade_stable {hs incoming stream : List UInt8} (hstream : hs ++ incoming = stream)
    (hlen : hs.length ≤ hsCap) {hend : Nat} (hfound : headerEnd (cText hs) = some hend) :
    headerEnd (cText (stream.take hsCap)) = some hend ∧
      acceptsUpgrade (cText hs) = acceptsUpgrade ((cText (stream.take hsCap)).take hend) ∧
      hs.drop hend ++ incoming = stream.drop hend := by
  rcases headerEnd_some hfound with ⟨hle, hblank, hmore⟩
  have htake : stream.take hsCap = hs ++ incoming.take (hsCap - hs.length) := by
    rw [← hstream, List.take_append, List.take_of_length_le hlen]
  rcases cText_append hs (incoming.take (hsCap - hs.length)) with ⟨more, htext⟩
  rw [htake, htext]
  refine ⟨hmore more, ?_, ?_⟩
  · rw [List.take_append_of_le_length hle]
    conv => lhs; rw [← List.take_append_drop hend (cText hs)]
    exact acceptsUpgrade_append hblank _
  · have hbytes : hend ≤ hs.length := Nat.le_trans hle (length_cText_le hs)
    rw [← hstream, List.drop_append_of_le_length hbytes]

/-- However the bytes of the client are cut, the worker handles the same frames
and ends in the same way. -/
theorem wsConnWorker_cut (env : Nat -> FrameEnv) (sizes sizes' : Nat -> Nat)
    (stream : List UInt8) :
    wsConnWorker env sizes stream = wsConnWorker env sizes' stream := by
  have hstart : ([] : List UInt8).length ≤ hsCap := Nat.zero_le hsCap
  rcases readUpgrade_spec sizes (k := 0) hstart (Nat.lt_succ_self stream.length) with
    ⟨hs, incoming, k, hread, hsplit, hlen, hwhy⟩
  rcases readUpgrade_spec sizes' (k := 0) hstart (Nat.lt_succ_self stream.length) with
    ⟨hs', incoming', k', hread', hsplit', hlen', hwhy'⟩
  rw [List.nil_append] at hsplit hsplit' hwhy hwhy'
  have hnone : forall {bytes : List UInt8},
      ((strstr crlf2 (cText bytes)).isSome = true ∨ bytes = stream.take hsCap) ->
      headerEnd (cText bytes) = none -> headerEnd (cText (stream.take hsCap)) = none := by
    intro bytes hwhy hend
    rcases hwhy with hfound | heq
    · unfold headerEnd at hend
      rw [Option.map_eq_none_iff] at hend
      rw [hend] at hfound
      cases hfound
    · rw [← heq]
      exact hend
  unfold wsConnWorker
  dsimp only
  rw [hread, hread']
  dsimp only
  cases hend : headerEnd (cText hs) with
  | none =>
      cases hend' : headerEnd (cText hs') with
      | none => rfl
      | some e' =>
          have hsome := (upgrade_stable hsplit' hlen' hend').1
          rw [hnone hwhy hend] at hsome
          cases hsome
  | some e =>
      rcases upgrade_stable hsplit hlen hend with ⟨hsome, haccept, hrest⟩
      cases hend' : headerEnd (cText hs') with
      | none =>
          rw [hnone hwhy' hend'] at hsome
          cases hsome
      | some e' =>
          rcases upgrade_stable hsplit' hlen' hend' with ⟨hsome', haccept', hrest'⟩
          rw [hsome] at hsome'
          cases hsome'
          have hsize : forall {bytes : List UInt8}, bytes.length ≤ hsCap ->
              (bytes.drop e).length ≤ rbufCap := by
            intro bytes hbytes
            have hcap : hsCap ≤ rbufCap := by decide
            rw [List.length_drop]
            omega
          dsimp only
          rw [haccept, haccept', readAll_cut (handleFrame env) stable_decodeFrame sizes sizes' k k'
            (0, emptyReassembly) (hsize hlen) (hsize hlen') (hrest.trans hrest'.symm)]

end WebSocket
end PkgManager
