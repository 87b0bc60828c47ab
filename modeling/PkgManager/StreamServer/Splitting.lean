import PkgManager.Bytes.Buffered
import PkgManager.Bytes.CString
import PkgManager.StreamServer.Request

/-!
# Requests in a stream of bytes

{lit}`serve_connection` cuts what it receives into header blocks.
What it has received behind a block is carried over to the next turn.
-/

namespace PkgManager
namespace StreamServer

open Buffered (pieceSize)
open CString

/-- {lit}`STREAM_REQ_MAX` -/
def streamReqMax : Nat := 16 * 1024

/-- The blank line behind a header block. -/
def blankLine : List UInt8 := [13, 10, 13, 10]

/-- The place of a blank line in the buffer: the length of the header block. -/
def blockEnd (req : List UInt8) : Option Nat :=
  (strstr blankLine req).map (fun hend => req.length - hend.length + 4)

/-- The receive loop, on a buffer and the bytes that are still to come in pieces. -/
def recvLoop (sizes : Nat -> Nat) :
    Nat -> Nat -> List UInt8 -> List UInt8 -> List UInt8 × List UInt8 × Nat
  | 0, k, req, incoming => (req, incoming, k)
  | fuel + 1, k, req, incoming =>
      if req.length ≥ streamReqMax then (req, incoming, k)
      else if incoming.isEmpty then (req, incoming, k + 1)
      else
        let n := pieceSize (sizes k) (streamReqMax - req.length)
        let more := req ++ incoming.take n
        if (strstr blankLine more).isSome then (more, incoming.drop n, k + 1)
        else recvLoop sizes fuel (k + 1) more (incoming.drop n)

/-- Nothing is received while the carried bytes hold a whole block. -/
def nextRequest (sizes : Nat -> Nat) (k : Nat) (carry incoming : List UInt8) :
    List UInt8 × List UInt8 × Nat :=
  if carry.isEmpty || (strstr blankLine carry).isNone then
    recvLoop sizes (incoming.length + 1) k carry incoming
  else (carry, incoming, k)

section
variable (keeps : Nat -> List UInt8 -> Bool) (running : Nat -> Bool)

/-- The blocks that are handed to {lit}`serve_one_request`, which says with its verdict whether
the connection is kept. -/
def handed (sizes : Nat -> Nat) :
    Nat -> Nat -> Nat -> List UInt8 -> List UInt8 -> List (List UInt8)
  | 0, _, _, _, _ => []
  | turns + 1, reqNo, k, carry, incoming =>
      if !running reqNo then []
      else
        let next := nextRequest sizes k carry incoming
        let req := next.1
        if req.isEmpty then []
        else
          match blockEnd req with
          | none => [req]
          | some hdrLen =>
              let left := req.drop hdrLen
              let carry := if left.length > streamReqMax then [] else left
              let block := req.take hdrLen
              if keeps reqNo block then
                block :: handed sizes turns (reqNo + 1) next.2.2 carry next.2.1
              else [block]

/-- {lit}`serve_connection`, from the first byte on. -/
def serveStream (sizes : Nat -> Nat) (stream : List UInt8) : List (List UInt8) :=
  handed keeps running sizes maxReqPerConn 0 0 [] stream

/-!
# The stream as a whole
-/

/-- The blocks of a stream that is there as a whole. -/
def wholeBlocks : Nat -> Nat -> List UInt8 -> List (List UInt8)
  | 0, _, _ => []
  | turns + 1, reqNo, stream =>
      if !running reqNo then []
      else if stream.isEmpty then []
      else
        match blockEnd (stream.take streamReqMax) with
        | none => [stream.take streamReqMax]
        | some hdrLen =>
            let block := stream.take hdrLen
            if keeps reqNo block then block :: wholeBlocks turns (reqNo + 1) (stream.drop hdrLen)
            else [block]

/-- The requests that are answered, out of those that are sent. -/
def answeredBlocks : Nat -> Nat -> List (List UInt8) -> List (List UInt8)
  | 0, _, _ => []
  | _ + 1, _, [] => []
  | turns + 1, reqNo, block :: rest =>
      if !running reqNo then []
      else if keeps reqNo block then block :: answeredBlocks turns (reqNo + 1) rest
      else [block]

end

/-- A block that ends in its first blank line and fits the buffer. -/
structure IsHeaderBlock (block : List UInt8) : Prop where
  ends : strstr blankLine block = some blankLine
  fits : block.length ≤ streamReqMax

instance (block : List UInt8) : Decidable (IsHeaderBlock block) :=
  decidable_of_iff (strstr blankLine block = some blankLine ∧ block.length ≤ streamReqMax)
    ⟨fun h => ⟨h.1, h.2⟩, fun h => ⟨h.ends, h.fits⟩⟩

/-!
# One block
-/

theorem blockEnd_some {req : List UInt8} {hdrLen : Nat} (h : blockEnd req = some hdrLen) :
    0 < hdrLen ∧ hdrLen ≤ req.length ∧
      forall more, blockEnd (req ++ more) = some hdrLen := by
  rcases Option.map_eq_some_iff.mp h with ⟨hend, hfound, hlen⟩
  have hlong : 4 ≤ hend.length := (strstr_starts hfound).length_le
  have hle := (strstr_suffix hfound).length_le
  refine ⟨by omega, by omega, ?_⟩
  intro more
  unfold blockEnd
  rw [strstr_append hfound more, Option.map_some, List.length_append, List.length_append]
  congr 1
  omega

theorem blockEnd_isSome (req : List UInt8) :
    (blockEnd req).isSome = (strstr blankLine req).isSome :=
  Option.isSome_map

/-- The buffer is the beginning of the stream, up to a piece that holds the blank line, or as far
as the buffer goes. -/
structure Received (stream req incoming : List UInt8) : Prop where
  whole : req ++ incoming = stream
  fits : req.length ≤ streamReqMax
  enough : (blockEnd req).isSome = true ∨ req = stream.take streamReqMax

theorem recvLoop_received (sizes : Nat -> Nat) {fuel k : Nat} {req incoming : List UInt8}
    (hfits : req.length ≤ streamReqMax) (hfuel : incoming.length < fuel) :
    Received (req ++ incoming) (recvLoop sizes fuel k req incoming).1
      (recvLoop sizes fuel k req incoming).2.1 := by
  induction fuel generalizing k req incoming with
  | zero => exact absurd hfuel (Nat.not_lt_zero _)
  | succ fuel ih =>
      rw [recvLoop]
      by_cases hfull : req.length ≥ streamReqMax
      · rw [if_pos hfull]
        have htake : (req ++ incoming).take streamReqMax = req := by
          rw [List.take_append_of_le_length hfull, List.take_of_length_le hfits]
        exact ⟨rfl, hfits, Or.inr htake.symm⟩
      rw [if_neg hfull]
      by_cases hempty : incoming.isEmpty = true
      · rw [if_pos hempty, List.isEmpty_iff.mp hempty, List.append_nil]
        exact ⟨List.append_nil _, hfits, Or.inr (List.take_of_length_le hfits).symm⟩
      rw [if_neg hempty]
      dsimp only
      have hpos : 0 < pieceSize (sizes k) (streamReqMax - req.length) := by
        unfold pieceSize
        omega
      have hsize : pieceSize (sizes k) (streamReqMax - req.length) ≤ streamReqMax - req.length := by
        unfold pieceSize
        omega
      generalize pieceSize (sizes k) (streamReqMax - req.length) = n at hpos hsize
      have hsplit : req ++ incoming.take n ++ incoming.drop n = req ++ incoming := by
        rw [List.append_assoc, List.take_append_drop]
      have hsmall : (req ++ incoming.take n).length ≤ streamReqMax := by
        rw [List.length_append, List.length_take]
        omega
      by_cases hfound : (strstr blankLine (req ++ incoming.take n)).isSome = true
      · rw [if_pos hfound]
        exact ⟨hsplit, hsmall, Or.inl ((blockEnd_isSome _).trans hfound)⟩
      · rw [if_neg hfound, <- hsplit]
        apply ih hsmall
        have hsome : 0 < incoming.length := by
          rw [List.isEmpty_iff] at hempty
          exact List.length_pos_iff.mpr hempty
        rw [List.length_drop]
        omega

theorem nextRequest_received (sizes : Nat -> Nat) (k : Nat) {carry incoming : List UInt8}
    (hfits : carry.length ≤ streamReqMax) :
    Received (carry ++ incoming) (nextRequest sizes k carry incoming).1
      (nextRequest sizes k carry incoming).2.1 := by
  unfold nextRequest
  split
  · exact recvLoop_received sizes hfits (Nat.lt_succ_self _)
  · rename_i hskip
    rw [Bool.not_eq_true, Bool.or_eq_false_iff, Option.isNone_eq_false_iff] at hskip
    exact ⟨rfl, hfits, Or.inl ((blockEnd_isSome _).trans hskip.2)⟩

/-- What is found in the buffer is what is found in the stream. -/
theorem Received.blockEnd_eq {stream req incoming : List UInt8} (h : Received stream req incoming) :
    blockEnd req = blockEnd (stream.take streamReqMax) := by
  rcases h.enough with hfound | hall
  · rcases Option.isSome_iff_exists.mp hfound with ⟨hdrLen, hend⟩
    have htake : stream.take streamReqMax = req ++ incoming.take (streamReqMax - req.length) := by
      rw [<- h.whole, List.take_append, List.take_of_length_le h.fits]
    rw [htake, hend, (blockEnd_some hend).2.2]
  · rw [<- hall]

theorem Received.empty_iff {stream req incoming : List UInt8} (h : Received stream req incoming) :
    req.isEmpty = stream.isEmpty := by
  rw [Bool.eq_iff_iff, List.isEmpty_iff, List.isEmpty_iff]
  constructor
  · intro hreq
    have hall : req = stream.take streamReqMax := by
      rcases h.enough with hfound | hall
      · rw [hreq] at hfound
        cases hfound
      · exact hall
    rw [hreq] at hall
    rcases List.take_eq_nil_iff.mp hall.symm with hzero | hnil
    · cases hzero
    · exact hnil
  · intro hstream
    have hwhole := h.whole
    rw [hstream] at hwhole
    exact (List.append_eq_nil_iff.mp hwhole).1

/-!
# All blocks
-/

section
variable (keeps : Nat -> List UInt8 -> Bool) (running : Nat -> Bool)

/-- The blocks are those of the stream, however it is cut. -/
theorem handed_eq_whole (sizes : Nat -> Nat) {turns reqNo k : Nat} {carry incoming : List UInt8}
    (hfits : carry.length ≤ streamReqMax) :
    handed keeps running sizes turns reqNo k carry incoming =
      wholeBlocks keeps running turns reqNo (carry ++ incoming) := by
  induction turns generalizing reqNo k carry incoming with
  | zero => rfl
  | succ turns ih =>
      have hreceived : Received (carry ++ incoming) (nextRequest sizes k carry incoming).1
          (nextRequest sizes k carry incoming).2.1 := nextRequest_received sizes k hfits
      rw [handed, wholeBlocks]
      dsimp only
      generalize nextRequest sizes k carry incoming = next at hreceived
      generalize carry ++ incoming = stream at hreceived
      rcases next with ⟨req, rest, k'⟩
      dsimp only at hreceived ⊢
      rw [hreceived.empty_iff, <- hreceived.blockEnd_eq]
      split
      · rfl
      split
      · rfl
      cases hend : blockEnd req with
      | none =>
          have hall : req = stream.take streamReqMax := by
            rcases hreceived.enough with hfound | hall
            · rw [hend] at hfound
              cases hfound
            · exact hall
          rw [<- hall]
      | some hdrLen =>
          rcases blockEnd_some hend with ⟨_, hle, _⟩
          have hleft : (req.drop hdrLen).length ≤ streamReqMax := by
            rw [List.length_drop]
            exact (Nat.sub_le _ _).trans hreceived.fits
          have hblock : stream.take hdrLen = req.take hdrLen := by
            rw [<- hreceived.whole, List.take_append_of_le_length hle]
          have hrest : stream.drop hdrLen = req.drop hdrLen ++ rest := by
            rw [<- hreceived.whole, List.drop_append_of_le_length hle]
          dsimp only
          rw [hblock, hrest, if_neg (Nat.not_lt_of_le hleft), ih hleft]

theorem wholeBlocks_requests {turns reqNo : Nat} {blocks : List (List UInt8)}
    (hblocks : forall block, block ∈ blocks -> IsHeaderBlock block) :
    wholeBlocks keeps running turns reqNo blocks.flatten =
      answeredBlocks keeps running turns reqNo blocks := by
  induction turns generalizing reqNo blocks with
  | zero => rfl
  | succ turns ih =>
      cases blocks with
      | nil =>
          rw [wholeBlocks, answeredBlocks, List.flatten_nil, List.isEmpty_nil, if_pos rfl, ite_self]
      | cons block rest =>
          have hone := hblocks block List.mem_cons_self
          have hrest : wholeBlocks keeps running turns (reqNo + 1) rest.flatten =
              answeredBlocks keeps running turns (reqNo + 1) rest :=
            ih (fun b hb => hblocks b (List.mem_cons_of_mem block hb))
          have hend : blockEnd block = some block.length := by
            have hlong := (strstr_suffix hone.ends).length_le
            unfold blockEnd
            rw [hone.ends, Option.map_some]
            congr 1
            exact Nat.sub_add_cancel hlong
          have hpos := (blockEnd_some hend).1
          have htake : (block ++ rest.flatten).take streamReqMax =
              block ++ rest.flatten.take (streamReqMax - block.length) := by
            rw [List.take_append, List.take_of_length_le hone.fits]
          have hsome : (block ++ rest.flatten).isEmpty = false := by
            rw [List.isEmpty_eq_false_iff, ne_eq, List.append_eq_nil_iff]
            intro hnil
            rw [hnil.1] at hpos
            exact absurd hpos (Nat.lt_irrefl 0)
          rw [wholeBlocks, answeredBlocks, List.flatten_cons, hsome, htake,
            (blockEnd_some hend).2.2, if_neg Bool.false_ne_true]
          dsimp only
          rw [List.take_left, List.drop_left, hrest]

theorem answeredBlocks_prefix (turns reqNo : Nat) (blocks : List (List UInt8)) :
    answeredBlocks keeps running turns reqNo blocks <+: blocks := by
  induction turns generalizing reqNo blocks with
  | zero => exact List.nil_prefix
  | succ turns ih =>
      cases blocks with
      | nil => exact List.nil_prefix
      | cons block rest =>
          rw [answeredBlocks]
          split
          · exact List.nil_prefix
          split
          · rcases ih (reqNo + 1) rest with ⟨more, hmore⟩
            exact ⟨more, by rw [List.cons_append, hmore]⟩
          · exact ⟨rest, rfl⟩

/-- Any two cuts of a stream give the same blocks; of a stream of requests, these are the requests
that are answered, each of them whole and in the order of the stream. -/
theorem serveStream_cut (sizes sizes' : Nat -> Nat) :
    (forall stream, serveStream keeps running sizes stream =
        serveStream keeps running sizes' stream) ∧
      forall blocks : List (List UInt8), (forall block, block ∈ blocks -> IsHeaderBlock block) ->
        serveStream keeps running sizes blocks.flatten =
            answeredBlocks keeps running maxReqPerConn 0 blocks ∧
          serveStream keeps running sizes blocks.flatten <+: blocks := by
  have hwhole : forall (cut : Nat -> Nat) (stream : List UInt8),
      serveStream keeps running cut stream =
        wholeBlocks keeps running maxReqPerConn 0 stream :=
    fun cut stream => handed_eq_whole keeps running cut (Nat.zero_le _)
  constructor
  · intro stream
    rw [hwhole, hwhole]
  · intro blocks hblocks
    rw [hwhole, wholeBlocks_requests keeps running hblocks]
    exact ⟨rfl, answeredBlocks_prefix keeps running _ _ _⟩

end

def twoRequests : List (List UInt8) :=
  [ascii "GET /stream/a.pkg HTTP/1.1\r\n\r\n", ascii "HEAD /stream/a.pkg HTTP/1.1\r\n\r\n"]

/-- Byte by byte, and all at once. -/
theorem serveStream_cut_two :
    serveStream (fun _ _ => true) (fun _ => true) (fun _ => 1) twoRequests.flatten = twoRequests ∧
      serveStream (fun _ _ => true) (fun _ => true) (fun _ => 1) twoRequests.flatten =
        serveStream (fun _ _ => true) (fun _ => true) (fun _ => 100) twoRequests.flatten := by
  have hblocks : forall block, block ∈ twoRequests -> IsHeaderBlock block := by decide
  have hcut := serveStream_cut (fun _ _ => true) (fun _ => true) (fun _ => 1) (fun _ => 100)
  exact ⟨(hcut.2 twoRequests hblocks).1, hcut.1 _⟩

end StreamServer
end PkgManager
