import PkgManager.Http.Json

/-!
# The body of a response

A body is sent in chunks, with its length ahead of it, or up to the close of the connection.  The
connection hands over the bytes of a stream, until it is closed or fails.
-/

namespace PkgManager
namespace Http

open CString
open PkgManager.Parser

/-!
# The connection
-/

/-- How the bytes of a connection end. -/
inductive StreamEnd where
  | closed
  | failed
deriving DecidableEq

/-- {lit}`conn_read_line`: the array after it and the stream behind the line.  A line that the end
of the stream cuts is not terminated in the array. -/
def connReadLine (max : Nat) (line stream : Text) : Option (Text × Text) :=
  if stream = [] then none
  else
    let kept := ((stream.takeWhile (fun b => b != 10)).filter (fun b => b != 13)).take (max - 1)
    match stream.dropWhile (fun b => b != 10) with
    | [] => some (kept ++ line.drop kept.length, [])
    | _ :: rest => some (kept ++ 0 :: line.drop (kept.length + 1), rest)

/-- The digits of a number in base sixteen, behind a prefix that may be there. -/
def hexDigits (text : Text) : Text :=
  match text with
  | 48 :: x :: d :: rest =>
      if (x = 120 ∨ x = 88) ∧ (hexval d).isSome then
        (d :: rest).takeWhile (fun b => (hexval b).isSome)
      else text.takeWhile (fun b => (hexval b).isSome)
  | _ => text.takeWhile (fun b => (hexval b).isSome)

/-- The value of a signed number: one that is too large is the largest, a negative one wraps. -/
def signedValue (negative : Bool) (value : Nat) : Nat :=
  if 2 ^ 64 ≤ value then 2 ^ 64 - 1
  else if negative then (2 ^ 64 - value) % 2 ^ 64
  else value

/-- {lit}`strtoull` in base sixteen. -/
def strtoullHex (text : Text) : Nat :=
  match text.dropWhile isSpace with
  | 45 :: rest => signedValue true (unicodeValue (hexDigits rest))
  | 43 :: rest => signedValue false (unicodeValue (hexDigits rest))
  | rest => signedValue false (unicodeValue (hexDigits rest))

/-!
# Reading
-/

/-- What a call gives back, and the body bytes that were copied into the buffer. -/
structure BodyRead where
  code : Int
  copied : Text
deriving DecidableEq

/-- {lit}`sizeof(tmp)` -/
def pieceMax : Nat := 16384

section
variable (alloc : Nat -> Bool)

/-- {lit}`BODY_APPEND`: the buffer grows when there is memory for so many bytes. -/
def bodyAppend (copied piece : Text) : Option Text :=
  if alloc (copied.length + piece.length + 1) then some (copied ++ piece) else none

/-- The loop that reads so many bytes in pieces: whether all of them came, the bytes copied and
the stream behind them. -/
def readPieces : (turns left : Nat) -> (copied stream : Text) -> Bool × Text × Text
  | 0, left, copied, stream => (left == 0, copied, stream)
  | turns + 1, left, copied, stream =>
      if left = 0 then (true, copied, stream)
      else if stream.length < min left pieceMax then (false, copied, [])
      else
        match bodyAppend alloc copied (stream.take (min left pieceMax)) with
        | none => (false, copied, stream.drop (min left pieceMax))
        | some copied =>
            readPieces turns (left - min left pieceMax) copied (stream.drop (min left pieceMax))

variable (max : Nat)

/-- The loop over the chunks.  Each turn takes at least one byte of the stream. -/
def chunkLoop : (turns : Nat) -> (copied line stream : Text) -> BodyRead
  | 0, copied, _, _ => { code := -1, copied := copied }
  | turns + 1, copied, line, stream =>
      match connReadLine 128 line stream with
      | none => { code := -1, copied := copied }
      | some (line, stream) =>
          let chunk := strtoullHex (cString line)
          -- the lines up to the next empty one are skipped
          if chunk = 0 then { code := 0, copied := copied }
          else if max < (copied.length + chunk) % 2 ^ 64 then { code := -2, copied := copied }
          else
            match readPieces alloc (stream.length + 1) chunk copied stream with
            | (false, copied, _) => { code := -1, copied := copied }
            | (true, copied, stream) =>
                match connReadLine 128 line stream with
                | none => { code := -1, copied := copied }
                | some (line, stream) => chunkLoop turns copied line stream

/-- The body of a given length. -/
def lengthBody (length : Nat) (stream : Text) : BodyRead :=
  if max < length then { code := -2, copied := [] }
  else
    match readPieces alloc (stream.length + 1) length [] stream with
    | (true, copied, _) => { code := 0, copied := copied }
    | (false, copied, _) => { code := -1, copied := copied }

/-- The loop up to the end of the stream, in pieces of any size. -/
def closeLoop (sizes : Nat -> Nat) : (turns k : Nat) -> (copied stream : Text) -> BodyRead
  | 0, _, copied, _ => { code := 0, copied := copied }
  | turns + 1, k, copied, stream =>
      if stream = [] then { code := 0, copied := copied }
      else
        let piece := stream.take (sizes k + 1)
        if max < copied.length + piece.length then { code := -2, copied := copied }
        else
          match bodyAppend alloc copied piece with
          | none => { code := -1, copied := copied }
          | some copied => closeLoop sizes turns (k + 1) copied (stream.drop (sizes k + 1))

end

/-- How a body is framed. -/
inductive Framing where
  | none
  | chunked
  | length (length : Nat)
  | close
deriving DecidableEq

/-- The fields of a response that frame its body. -/
structure BodyFields where
  status : Nat
  chunked : Bool
  contentLength : Int

def framing (r : BodyFields) (isHead : Bool) : Framing :=
  if isHead = true ∨ r.status = 204 ∨ r.status = 304 then .none
  else if r.chunked then .chunked
  else if 0 ≤ r.contentLength then .length r.contentLength.toNat
  else .close

/-- {lit}`http_read_body` with an output.  The array of the lines holds {lit}`junk` at first. -/
def httpReadBody (alloc : Nat -> Bool) (sizes : Nat -> Nat) (junk : Text) (r : BodyFields)
    (isHead : Bool) (max : Nat) (stream : Text) : BodyRead :=
  match framing r isHead with
  | .none => { code := 0, copied := [] }
  | .chunked => chunkLoop alloc max (stream.length + 1) [] junk stream
  | .length length => lengthBody alloc max length stream
  | .close => closeLoop alloc max sizes (stream.length + 1) 0 [] stream

/-!
# Pieces
-/

/-- The bytes that are copied of so many, when no memory is short: all, or whole pieces only. -/
def arrived (left : Nat) (stream : Text) : Nat :=
  if left ≤ stream.length then left else pieceMax * (stream.length / pieceMax)

theorem arrived_of_le {left : Nat} {stream : Text} (h : left ≤ stream.length) :
    arrived left stream = left := by
  unfold arrived
  rw [if_pos h]

theorem arrived_short {left : Nat} {stream : Text} (h : stream.length < min left pieceMax) :
    arrived left stream = 0 := by
  have hleft := h.trans_le (Nat.min_le_left _ _)
  have hpiece := h.trans_le (Nat.min_le_right _ _)
  unfold arrived
  rw [if_neg (Nat.not_le_of_lt hleft), Nat.div_eq_of_lt hpiece, Nat.mul_zero]

theorem arrived_step {left : Nat} {stream : Text} (h : min left pieceMax ≤ stream.length) :
    arrived left stream =
      min left pieceMax + arrived (left - min left pieceMax) (stream.drop (min left pieceMax)) := by
  unfold arrived
  rw [List.length_drop]
  by_cases hall : left ≤ stream.length
  · rw [if_pos hall, if_pos (Nat.sub_le_sub_right hall _), Nat.add_sub_of_le (Nat.min_le_left _ _)]
  · have hlong : pieceMax ≤ left := by
      by_contra hshort
      rw [Nat.min_eq_left (Nat.le_of_not_le hshort)] at h
      exact hall h
    rw [Nat.min_eq_right hlong] at h ⊢
    have hrest : ¬left - pieceMax ≤ stream.length - pieceMax :=
      fun hle => hall ((Nat.sub_le_sub_iff_right h).mp hle)
    have hpos : 0 < pieceMax := by decide
    rw [if_neg hall, if_neg hrest, Nat.div_eq_sub_div hpos h, Nat.mul_add, Nat.mul_one,
      Nat.add_comm]

/-- What the loop over the pieces does: it copies from the front, and says that all came only when
they did. -/
structure PiecesRead (alloc : Nat -> Bool) (left : Nat) (copied stream : Text)
    (result : Bool × Text × Text) (k : Nat) : Prop where
  copied : result.2.1 = copied ++ stream.take k
  bound : k ≤ arrived left stream
  whole : result.1 = true -> left ≤ stream.length ∧ k = left ∧ result.2.2 = stream.drop left
  exact : (forall n, alloc n = true) -> k = arrived left stream ∧
    (left ≤ stream.length -> result.1 = true)

theorem readPieces_read (alloc : Nat -> Bool) {turns : Nat} (left : Nat) (copied stream : Text)
    (hturns : stream.length < turns) :
    exists k, PiecesRead alloc left copied stream (readPieces alloc turns left copied stream) k := by
  induction turns generalizing left copied stream with
  | zero => cases hturns
  | succ turns ih =>
      rw [readPieces]
      split
      · rename_i hzero
        rw [hzero]
        refine ⟨0, ?_, Nat.zero_le _, fun _ => ⟨Nat.zero_le _, rfl, rfl⟩, fun _ => ⟨?_, fun _ => rfl⟩⟩
        · exact (List.append_nil copied).symm
        · rw [arrived_of_le (Nat.zero_le _)]
      rename_i hleft
      split
      · rename_i hshort
        refine ⟨0, (List.append_nil copied).symm, Nat.zero_le _,
          fun h => absurd h Bool.false_ne_true, fun _ => ⟨(arrived_short hshort).symm, ?_⟩⟩
        intro hall
        exact absurd (hshort.trans_le (Nat.min_le_left _ _)) (Nat.not_lt_of_le hall)
      rename_i hroom
      have hstep := arrived_step (Nat.le_of_not_lt hroom)
      unfold bodyAppend
      split
      · rename_i hnone
        refine ⟨0, (List.append_nil copied).symm, Nat.zero_le _,
          fun h => absurd h Bool.false_ne_true, fun halloc => ?_⟩
        rw [if_pos (halloc _)] at hnone
        cases hnone
      · rename_i copied' hsome
        have hcopied : copied' = copied ++ stream.take (min left pieceMax) := by
          split at hsome
          · exact (Option.some.inj hsome).symm
          · cases hsome
        have hpos : 0 < min left pieceMax := Nat.lt_min.mpr ⟨Nat.pos_of_ne_zero hleft, by decide⟩
        have hle := Nat.le_of_not_lt hroom
        have hfewer : (stream.drop (min left pieceMax)).length < turns := by
          rw [List.length_drop]
          exact Nat.sub_lt_of_pos_le hpos hle |>.trans_le (Nat.le_of_lt_succ hturns)
        rcases ih (left - min left pieceMax) copied' (stream.drop (min left pieceMax)) hfewer with
          ⟨k, hread⟩
        have hminle : min left pieceMax ≤ left := Nat.min_le_left _ _
        refine ⟨min left pieceMax + k, ?_, ?_, fun hok => ?_, fun halloc => ?_⟩
        · rw [hread.copied, hcopied, List.append_assoc, List.take_add]
        · rw [hstep]
          exact Nat.add_le_add_left hread.bound _
        · rcases hread.whole hok with ⟨hlen, hk, hrest⟩
          rw [List.length_drop] at hlen
          refine ⟨(Nat.sub_le_sub_iff_right hle).mp hlen, ?_, ?_⟩
          · rw [hk, Nat.add_sub_of_le hminle]
          · rw [hrest, List.drop_drop, Nat.add_sub_of_le hminle]
        · rcases hread.exact halloc with ⟨hk, hok⟩
          refine ⟨by rw [hk, hstep], fun hall => hok ?_⟩
          rw [List.length_drop]
          exact Nat.sub_le_sub_right hall _

end Http
end PkgManager
