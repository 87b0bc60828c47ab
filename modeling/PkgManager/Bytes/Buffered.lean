import Mathlib.Data.List.Basic
import Mathlib.Tactic.Common

/-!
# Reading items through a bounded buffer

A loop decodes the items at the front of a buffer and refills the buffer from a
stream that arrives in pieces.  When a longer buffer never changes what has been
decoded, the items and the way the loop ends depend on the stream alone, and not
on how it was cut.
-/

namespace Buffered

variable {α : Type _} {β : Type _} {σ : Type _}

/-- What the decoder says about a buffer; an item comes with the rest of the
buffer. -/
inductive Verdict (α : Type _) (β : Type _) where
  | wait
  | bad
  | item (rest : List α) (x : β)

/-- How the loop ends: at a buffer that cannot be decoded, at one that is full
without an item, at the end of the stream, or by the handler. -/
inductive Ending where
  | bad
  | full
  | closed
  | stopped
deriving DecidableEq

/-- How draining a buffer ends: the whole loop ends, or more input is needed. -/
inductive Drained (α : Type _) (σ : Type _) where
  | ended (e : Ending)
  | starved (buf : List α) (s : σ)

/-- What makes a decoder independent of the cuts, for buffers within a size. -/
structure Stable (decode : List α -> Verdict α β) (cap : Nat) : Prop where
  cap_pos : 0 < cap
  empty : decode [] = Verdict.wait
  bad_append : forall buf more, (buf ++ more).length ≤ cap -> decode buf = Verdict.bad ->
    decode (buf ++ more) = Verdict.bad
  item_append : forall buf more rest x, (buf ++ more).length ≤ cap ->
    decode buf = Verdict.item rest x -> decode (buf ++ more) = Verdict.item (rest ++ more) x
  item_shorter : forall buf rest x, buf.length ≤ cap -> decode buf = Verdict.item rest x ->
    rest.length < buf.length

section Loop

variable (decode : List α -> Verdict α β) (handle : σ -> β -> Option σ) (cap : Nat)

/-- Handle the items that are complete in the buffer. -/
def drain : Nat -> List α -> σ -> List β × Drained α σ
  | 0, buf, s => ([], Drained.starved buf s)
  | fuel + 1, buf, s =>
      match decode buf with
      | Verdict.wait =>
          if buf.length >= cap then ([], Drained.ended Ending.full)
          else ([], Drained.starved buf s)
      | Verdict.bad => ([], Drained.ended Ending.bad)
      | Verdict.item rest x =>
          match handle s x with
          | none => ([x], Drained.ended Ending.stopped)
          | some s' =>
              let r := drain fuel rest s'
              (x :: r.1, r.2)

/-- The size of one piece: at least one element, at most what is free in the
buffer. -/
def pieceSize (size free : Nat) : Nat :=
  min (max 1 size) free

/-- Drain and refill until the loop ends; {lit}`sizes` is the cut. -/
def readAll (sizes : Nat -> Nat) : Nat -> Nat -> List α -> List α -> σ -> List β × Ending
  | 0, _, _, _, _ => ([], Ending.closed)
  | fuel + 1, k, buf, incoming, s =>
      match drain decode handle cap (buf.length + 1) buf s with
      | (xs, Drained.ended e) => (xs, e)
      | (xs, Drained.starved buf' s') =>
          if incoming.isEmpty then (xs, Ending.closed)
          else
            let n := pieceSize (sizes k) (cap - buf'.length)
            let r := readAll sizes fuel (k + 1) (buf' ++ incoming.take n) (incoming.drop n) s'
            (xs ++ r.1, r.2)

/-- The loop on a stream that is there as a whole. -/
def whole : Nat -> List α -> σ -> List β × Ending
  | 0, _, _ => ([], Ending.closed)
  | fuel + 1, stream, s =>
      match decode (stream.take cap) with
      | Verdict.wait => ([], if stream.length >= cap then Ending.full else Ending.closed)
      | Verdict.bad => ([], Ending.bad)
      | Verdict.item rest x =>
          match handle s x with
          | none => ([x], Ending.stopped)
          | some s' =>
              let r := whole fuel (rest ++ stream.drop cap) s'
              (x :: r.1, r.2)

end Loop

variable {decode : List α -> Verdict α β} {handle : σ -> β -> Option σ} {cap : Nat}

/-!
# One item
-/

theorem whole_wait {stream : List α} (h : decode (stream.take cap) = Verdict.wait) (fuel : Nat)
    (s : σ) : whole decode handle cap (fuel + 1) stream s =
      ([], if stream.length >= cap then Ending.full else Ending.closed) := by
  rw [whole, h]

theorem whole_bad {stream : List α} (h : decode (stream.take cap) = Verdict.bad) (fuel : Nat)
    (s : σ) : whole decode handle cap (fuel + 1) stream s = ([], Ending.bad) := by
  rw [whole, h]

theorem whole_stopped {stream rest : List α} {x : β} {s : σ}
    (h : decode (stream.take cap) = Verdict.item rest x) (hx : handle s x = none) (fuel : Nat) :
    whole decode handle cap (fuel + 1) stream s = ([x], Ending.stopped) := by
  rw [whole, h]
  dsimp only
  rw [hx]

theorem whole_item {stream rest : List α} {x : β} {s s' : σ}
    (h : decode (stream.take cap) = Verdict.item rest x) (hx : handle s x = some s') (fuel : Nat) :
    whole decode handle cap (fuel + 1) stream s =
      (x :: (whole decode handle cap fuel (rest ++ stream.drop cap) s').1,
        (whole decode handle cap fuel (rest ++ stream.drop cap) s').2) := by
  rw [whole, h]
  dsimp only
  rw [hx]

theorem rest_shorter (hstable : Stable decode cap) {stream rest : List α} {x : β}
    (h : decode (stream.take cap) = Verdict.item rest x) :
    (rest ++ stream.drop cap).length < stream.length := by
  have hle : (stream.take cap).length ≤ cap := by
    rw [List.length_take]
    exact Nat.min_le_left _ _
  have hlt := hstable.item_shorter _ _ _ hle h
  rw [List.length_take] at hlt
  rw [List.length_append, List.length_drop]
  omega

/-- Fuel beyond the length of the stream makes no difference. -/
theorem whole_fuel (hstable : Stable decode cap) {n m : Nat} {stream : List α} {s : σ}
    (hn : stream.length < n) (hm : stream.length < m) :
    whole decode handle cap n stream s = whole decode handle cap m stream s := by
  induction n generalizing m stream s with
  | zero => exact absurd hn (Nat.not_lt_zero _)
  | succ n ih =>
      cases m with
      | zero => exact absurd hm (Nat.not_lt_zero _)
      | succ m =>
          cases hdec : decode (stream.take cap) with
          | wait => rw [whole_wait hdec, whole_wait hdec]
          | bad => rw [whole_bad hdec, whole_bad hdec]
          | item rest x =>
              cases hx : handle s x with
              | none => rw [whole_stopped hdec hx, whole_stopped hdec hx]
              | some s' =>
                  have hlt := rest_shorter hstable hdec
                  rw [whole_item hdec hx, whole_item hdec hx,
                    ih (by omega) (by omega : (rest ++ stream.drop cap).length < m)]

/-!
# A full buffer is a view of the stream
-/

/-- What is decoded from a part of the stream is decoded from the stream. -/
theorem decode_take (hstable : Stable decode cap) {buf : List α} (hbuf : buf.length ≤ cap)
    (incoming : List α) :
    (forall rest x, decode buf = Verdict.item rest x ->
      decode ((buf ++ incoming).take cap) =
        Verdict.item (rest ++ incoming.take (cap - buf.length)) x) ∧
    (decode buf = Verdict.bad -> decode ((buf ++ incoming).take cap) = Verdict.bad) := by
  have htake : (buf ++ incoming).take cap = buf ++ incoming.take (cap - buf.length) := by
    rw [List.take_append, List.take_of_length_le hbuf]
  have hlen : (buf ++ incoming.take (cap - buf.length)).length ≤ cap := by
    rw [List.length_append, List.length_take]
    omega
  rw [htake]
  constructor
  · intro rest x h
    exact hstable.item_append _ _ _ _ hlen h
  · intro h
    exact hstable.bad_append _ _ hlen h

theorem rest_append {buf : List α} (hbuf : buf.length ≤ cap) (rest incoming : List α) :
    rest ++ incoming.take (cap - buf.length) ++ (buf ++ incoming).drop cap = rest ++ incoming := by
  rw [List.drop_append, List.drop_eq_nil_of_le hbuf, List.nil_append, List.append_assoc,
    List.take_append_drop]

variable (handle) in
/-- Draining the buffer is a part of the loop on the whole stream. -/
theorem drain_whole (hstable : Stable decode cap) {fuel : Nat} {buf : List α} (s : σ)
    (hfuel : buf.length < fuel) (hbuf : buf.length ≤ cap) (incoming : List α) {n : Nat}
    (hn : (buf ++ incoming).length < n) :
    (forall xs e, drain decode handle cap fuel buf s = (xs, Drained.ended e) ->
      whole decode handle cap n (buf ++ incoming) s = (xs, e)) ∧
    (forall xs buf' s', drain decode handle cap fuel buf s = (xs, Drained.starved buf' s') ->
      buf'.length < cap ∧ decode buf' = Verdict.wait ∧ buf'.length ≤ buf.length ∧
        forall m, (buf' ++ incoming).length < m ->
          whole decode handle cap n (buf ++ incoming) s =
            (xs ++ (whole decode handle cap m (buf' ++ incoming) s').1,
              (whole decode handle cap m (buf' ++ incoming) s').2)) := by
  induction fuel generalizing buf s n with
  | zero => exact absurd hfuel (Nat.not_lt_zero _)
  | succ fuel ih =>
      cases n with
      | zero => exact absurd hn (Nat.not_lt_zero _)
      | succ n =>
          have hview := decode_take hstable hbuf incoming
          rw [drain]
          cases hdec : decode buf with
          | wait =>
              dsimp only
              by_cases hfull : buf.length >= cap
              · rw [if_pos hfull]
                constructor
                · intro xs e h
                  cases h
                  have hexact : (buf ++ incoming).take cap = buf := by
                    rw [List.take_append_of_le_length hfull, List.take_of_length_le hbuf]
                  rw [whole_wait (by rw [hexact]; exact hdec), if_pos]
                  rw [List.length_append]
                  omega
                · intro xs buf' s' h
                  cases h
              · rw [if_neg hfull]
                constructor
                · intro xs e h
                  cases h
                · intro xs buf' s' h
                  cases h
                  refine ⟨by omega, hdec, Nat.le_refl _, ?_⟩
                  intro m hm
                  rw [whole_fuel hstable hn hm]
                  rfl
          | bad =>
              dsimp only
              constructor
              · intro xs e h
                cases h
                exact whole_bad (hview.2 hdec) n s
              · intro xs buf' s' h
                cases h
          | item rest x =>
              have hshort := hstable.item_shorter _ _ _ hbuf hdec
              have hitem := hview.1 rest x hdec
              dsimp only
              cases hx : handle s x with
              | none =>
                  constructor
                  · intro xs e h
                    cases h
                    exact whole_stopped hitem hx n
                  · intro xs buf' s' h
                    cases h
              | some s1 =>
                  have hsize : (rest ++ incoming).length < n := by
                    rw [List.length_append] at hn ⊢
                    omega
                  have hless : rest.length < fuel := by omega
                  have hrec := ih s1 hless (by omega) hsize
                  have hstep := whole_item hitem hx n
                  rw [rest_append hbuf] at hstep
                  cases hdrain : drain decode handle cap fuel rest s1 with
                  | mk ys d =>
                      rw [hdrain] at hrec
                      dsimp only
                      rw [hdrain]
                      constructor
                      · intro xs e h
                        cases h
                        rw [hstep, hrec.1 ys e rfl]
                      · intro xs buf' s' h
                        cases h
                        rcases hrec.2 ys buf' s' rfl with ⟨hlt, hwait, hle, hrest⟩
                        refine ⟨hlt, hwait, by omega, ?_⟩
                        intro m hm
                        rw [hstep, hrest m hm]
                        rfl

/-!
# The cut does not matter
-/

theorem readAll_eq_whole (hstable : Stable decode cap) (sizes : Nat -> Nat) {fuel k : Nat}
    {buf incoming : List α} {s : σ} (hbuf : buf.length ≤ cap)
    (hfuel : incoming.length < fuel) {n : Nat} (hn : (buf ++ incoming).length < n) :
    readAll decode handle cap sizes fuel k buf incoming s =
      whole decode handle cap n (buf ++ incoming) s := by
  induction fuel generalizing k buf incoming s n with
  | zero => exact absurd hfuel (Nat.not_lt_zero _)
  | succ fuel ih =>
      rw [readAll]
      cases hdrain : drain decode handle cap (buf.length + 1) buf s with
      | mk xs d =>
          have hdrained := drain_whole handle hstable s (Nat.lt_succ_self buf.length) hbuf incoming
            hn
          rw [hdrain] at hdrained
          cases d with
          | ended e => exact (hdrained.1 xs e rfl).symm
          | starved buf' s' =>
              rcases hdrained.2 xs buf' s' rfl with ⟨hlt, hwait, _, hrest⟩
              dsimp only
              cases incoming with
              | nil =>
                  have hview : decode (buf'.take cap) = Verdict.wait := by
                    rw [List.take_of_length_le (Nat.le_of_lt hlt)]
                    exact hwait
                  have hlast : (buf' ++ []).length < buf'.length + 1 := by simp
                  rw [hrest _ hlast, List.append_nil, whole_wait hview,
                    if_neg (Nat.not_le_of_lt hlt), List.append_nil, List.isEmpty_nil, if_pos rfl]
              | cons a rest =>
                  rw [if_neg (by simp)]
                  have hpos : 0 < pieceSize (sizes k) (cap - buf'.length) := by
                    unfold pieceSize
                    omega
                  have hfits : pieceSize (sizes k) (cap - buf'.length) ≤ cap - buf'.length := by
                    unfold pieceSize
                    omega
                  generalize pieceSize (sizes k) (cap - buf'.length) = size at hpos hfits
                  have hsplit : buf' ++ (a :: rest).take size ++ (a :: rest).drop size =
                      buf' ++ a :: rest := by
                    rw [List.append_assoc, List.take_append_drop]
                  have hless : ((a :: rest).drop size).length < fuel := by
                    rw [List.length_cons] at hfuel
                    rw [List.length_drop, List.length_cons]
                    omega
                  have hsmall : (buf' ++ (a :: rest).take size).length ≤ cap := by
                    rw [List.length_append, List.length_take]
                    omega
                  have hrec := ih (k := k + 1) (s := s') hsmall hless (Nat.lt_succ_self _)
                  rw [hsplit] at hrec
                  rw [hrec, hrest _ (Nat.lt_succ_self _)]

variable (handle) in
/-- Two cuts of one stream give the same items and the same ending. -/
theorem readAll_cut (hstable : Stable decode cap) (sizes sizes' : Nat -> Nat) (k k' : Nat)
    {buf buf' incoming incoming' : List α} (s : σ) (hbuf : buf.length ≤ cap)
    (hbuf' : buf'.length ≤ cap) (hstream : buf ++ incoming = buf' ++ incoming') :
    readAll decode handle cap sizes (incoming.length + 1) k buf incoming s =
      readAll decode handle cap sizes' (incoming'.length + 1) k' buf' incoming' s := by
  rw [readAll_eq_whole hstable sizes hbuf (Nat.lt_succ_self _) (Nat.lt_succ_self _),
    readAll_eq_whole hstable sizes' hbuf' (Nat.lt_succ_self _) (Nat.lt_succ_self _), hstream]

end Buffered
