import PkgManager.Http.BodyFraming

/-!
# What a read of a body guarantees
-/

namespace PkgManager
namespace Http

open CString
open PkgManager.Parser

/-!
# One turn of the loop over the chunks
-/

section
variable (alloc : Nat -> Bool) (max : Nat)

/-- What a turn does. -/
inductive ChunkStep (turns : Nat) (copied array stream : Text) : BodyRead -> Prop where
  | noLine : connReadLine 128 array stream = none ->
      ChunkStep turns copied array stream { code := -1, copied := copied }
  | last {array' rest : Text} : connReadLine 128 array stream = some (array', rest) ->
      sizeRead array' = 0 -> ChunkStep turns copied array stream { code := 0, copied := copied }
  | tooBig {array' rest : Text} : connReadLine 128 array stream = some (array', rest) ->
      sizeRead array' ≠ 0 -> max < (copied.length + sizeRead array') % 2 ^ 64 ->
        ChunkStep turns copied array stream { code := -2, copied := copied }
  | cut {array' rest : Text} {k : Nat} : connReadLine 128 array stream = some (array', rest) ->
      sizeRead array' ≠ 0 -> (copied.length + sizeRead array') % 2 ^ 64 ≤ max ->
      k ≤ arrived (sizeRead array') rest ->
      ((forall n, alloc n = true) ->
        k = arrived (sizeRead array') rest ∧ rest.length < sizeRead array') ->
        ChunkStep turns copied array stream { code := -1, copied := copied ++ rest.take k }
  | noBehind {array' rest : Text} : connReadLine 128 array stream = some (array', rest) ->
      sizeRead array' ≠ 0 -> (copied.length + sizeRead array') % 2 ^ 64 ≤ max ->
      sizeRead array' ≤ rest.length ->
      connReadLine 128 array' (rest.drop (sizeRead array')) = none ->
        ChunkStep turns copied array stream
          { code := -1, copied := copied ++ rest.take (sizeRead array') }
  | next {array' rest array'' rest' : Text} :
      connReadLine 128 array stream = some (array', rest) ->
      sizeRead array' ≠ 0 -> (copied.length + sizeRead array') % 2 ^ 64 ≤ max ->
      sizeRead array' ≤ rest.length ->
      connReadLine 128 array' (rest.drop (sizeRead array')) = some (array'', rest') ->
        ChunkStep turns copied array stream
          (chunkLoop alloc max turns (copied ++ rest.take (sizeRead array')) array'' rest')

theorem chunkLoop_step (turns : Nat) (copied array stream : Text) :
    ChunkStep alloc max turns copied array stream
      (chunkLoop alloc max (turns + 1) copied array stream) := by
  rw [chunkLoop]
  cases hread : connReadLine 128 array stream with
  | none => exact ChunkStep.noLine hread
  | some pair =>
      rcases pair with ⟨array', rest⟩
      dsimp only
      rw [<- sizeRead]
      split
      · rename_i hzero
        exact ChunkStep.last hread hzero
      rename_i hne
      split
      · rename_i hbig
        exact ChunkStep.tooBig hread hne hbig
      rename_i hfits
      have hle := Nat.le_of_not_lt hfits
      rcases readPieces_read alloc (sizeRead array') copied rest (Nat.lt_succ_self _) with
        ⟨k, hpieces⟩
      rcases hresult : readPieces alloc (rest.length + 1) (sizeRead array') copied rest with
        ⟨ok, copied', rest'⟩
      rw [hresult] at hpieces
      cases ok with
      | false =>
          have hcopied := hpieces.copied
          dsimp only at hcopied ⊢
          rw [hcopied]
          refine ChunkStep.cut hread hne hle hpieces.bound (fun halloc => ?_)
          rcases hpieces.exact halloc with ⟨hk, hok⟩
          refine ⟨hk, ?_⟩
          by_contra hlen
          exact Bool.false_ne_true (hok (Nat.le_of_not_lt hlen))
      | true =>
          rcases hpieces.whole rfl with ⟨hlen, hk, hrest⟩
          have hcopied := hpieces.copied
          dsimp only at hcopied hrest ⊢
          rw [hcopied, hrest, hk]
          cases hback : connReadLine 128 array' (rest.drop (sizeRead array')) with
          | none => exact ChunkStep.noBehind hread hne hle hlen hback
          | some pair =>
              rcases pair with ⟨array'', rest''⟩
              exact ChunkStep.next hread hne hle hlen hback

end

section
variable {alloc : Nat -> Bool} {max : Nat}

theorem length_taken {copied rest : Text} {size : Nat} (h : size ≤ rest.length) :
    (copied ++ rest.take size).length = copied.length + size := by
  rw [List.length_append, List.length_take_of_le h]

theorem two_lines_shorter {array stream array' rest array'' rest' : Text} {size turns : Nat}
    (hread : connReadLine 128 array stream = some (array', rest))
    (hback : connReadLine 128 array' (rest.drop size) = some (array'', rest'))
    (hturns : stream.length < turns + 1) : rest'.length < turns := by
  have hfirst := connReadLine_shorter hread
  have hsecond := connReadLine_shorter hback
  rw [List.length_drop] at hsecond
  omega

/-- A read that succeeds comes to a line it takes for a size of zero; when it found what it
expected on the way, it copied the whole body. -/
theorem chunkLoop_success {turns : Nat} {copied array stream : Text}
    (hturns : stream.length < turns)
    (hcode : (chunkLoop alloc max turns copied array stream).code = 0) :
    exists visits, ReadsToLast max copied.length array stream visits ∧
      ((forall v, v ∈ visits -> v.Proper) -> exists body, ChunkedBody stream body ∧
        (chunkLoop alloc max turns copied array stream).copied = copied ++ body) := by
  induction turns generalizing copied array stream with
  | zero => cases hturns
  | succ turns ih =>
      have hstep := chunkLoop_step alloc max turns copied array stream
      generalize chunkLoop alloc max (turns + 1) copied array stream = result at hstep hcode
      cases hstep with
      | noLine _ => cases hcode
      | tooBig _ _ _ => cases hcode
      | cut _ _ _ _ _ => cases hcode
      | noBehind _ _ _ _ _ => cases hcode
      | last hread hzero =>
          refine ⟨_, ReadsToLast.last hread hzero, fun hproper => ?_⟩
          rcases (hproper _ List.mem_cons_self).size_read hread with ⟨line, hstream, hline⟩
          rw [hzero] at hline
          refine ⟨[], ?_, (List.append_nil copied).symm⟩
          rw [hstream]
          exact ChunkedBody.last hline
      | next hread hne hle hlen hback =>
          rename_i array' rest array'' rest'
          rcases ih (two_lines_shorter hread hback hturns) hcode with ⟨visits, hends, hbody⟩
          rw [length_taken hlen] at hends
          refine ⟨_, ReadsToLast.chunk hread hne hle hlen hback hends, fun hproper => ?_⟩
          have hsize := hproper _ List.mem_cons_self
          have hbehind := hproper _ (List.mem_cons_of_mem _ List.mem_cons_self)
          rcases hbody (fun v hv => hproper v (List.mem_cons_of_mem _ (List.mem_cons_of_mem _ hv)))
            with ⟨body, hchunked, hcopied⟩
          rcases hsize.size_read hread with ⟨line, hstream, hline⟩
          rcases hbehind.behind_read hback with ⟨ending, hdrop, hending⟩
          refine ⟨rest.take (sizeRead array') ++ body, ?_, ?_⟩
          · have hsplit : rest = rest.take (sizeRead array') ++ (ending ++ rest') := by
              rw [<- hdrop, List.take_append_drop]
            rw [hstream]
            nth_rewrite 1 [hsplit]
            exact ChunkedBody.chunk hline hne (List.length_take_of_le hlen) hending hchunked
          · rw [hcopied, List.append_assoc]

/-- A read that comes to such a line succeeds, when no memory is short. -/
theorem chunkLoop_of_ends (halloc : forall n, alloc n = true) {turns : Nat}
    {copied array stream : Text} (hturns : stream.length < turns) {visits : List Visit}
    (hends : ReadsToLast max copied.length array stream visits) :
    (chunkLoop alloc max turns copied array stream).code = 0 := by
  induction turns generalizing copied array stream visits with
  | zero => cases hturns
  | succ turns ih =>
      have hstep := chunkLoop_step alloc max turns copied array stream
      generalize chunkLoop alloc max (turns + 1) copied array stream = result at hstep
      cases hends with
      | last hread hzero =>
          cases hstep with
          | noLine hread' => exact absurd (hread.symm.trans hread') (Option.some_ne_none _)
          | last _ _ => rfl
          | tooBig hread' hne _ => rw [hread] at hread'; cases hread'; exact absurd hzero hne
          | cut hread' hne _ _ _ => rw [hread] at hread'; cases hread'; exact absurd hzero hne
          | noBehind hread' hne _ _ _ => rw [hread] at hread'; cases hread'; exact absurd hzero hne
          | next hread' hne _ _ _ => rw [hread] at hread'; cases hread'; exact absurd hzero hne
      | chunk hread hne hle hlen hback hrest =>
          cases hstep with
          | noLine hread' => exact absurd (hread.symm.trans hread') (Option.some_ne_none _)
          | last _ _ => rfl
          | tooBig hread' _ hbig =>
              rw [hread] at hread'
              cases hread'
              exact absurd hbig (Nat.not_lt_of_le hle)
          | cut hread' _ _ _ hexact =>
              rw [hread] at hread'
              cases hread'
              exact absurd hlen (Nat.not_le_of_lt (hexact halloc).2)
          | noBehind hread' _ _ _ hback' =>
              rw [hread] at hread'
              cases hread'
              rw [hback] at hback'
              cases hback'
          | next hread' _ _ hlen' hback' =>
              rw [hread] at hread'
              cases hread'
              rw [hback] at hback'
              cases hback'
              rw [<- length_taken hlen] at hrest
              exact ih (two_lines_shorter hread hback hturns) hrest

/-- A sum that is small although it wraps is the only way past the bound. -/
theorem wraps_of_past {len size k : Nat} (hle : (len + size) % 2 ^ 64 ≤ max) (hk : k ≤ size)
    (hpast : max < len + k) : 2 ^ 64 ≤ len + size := by
  by_contra hsmall
  rw [Nat.mod_eq_of_lt (Nat.lt_of_not_le hsmall)] at hle
  omega

theorem arrived_le (left : Nat) (stream : Text) : arrived left stream ≤ left := by
  unfold arrived
  split
  · exact Nat.le_refl left
  · rename_i hshort
    exact (Nat.mul_div_le _ _).trans (Nat.le_of_lt (Nat.lt_of_not_le hshort))

theorem arrived_le_length (left : Nat) (stream : Text) : arrived left stream ≤ stream.length := by
  unfold arrived
  split
  · assumption
  · exact Nat.mul_div_le _ _

theorem chunkLoop_bounded {turns : Nat} {copied array stream : Text}
    (hlen : copied.length ≤ max) (hno : ¬Overruns max copied.length array stream) :
    (chunkLoop alloc max turns copied array stream).copied.length ≤ max := by
  induction turns generalizing copied array stream with
  | zero => exact hlen
  | succ turns ih =>
      have hstep := chunkLoop_step alloc max turns copied array stream
      generalize chunkLoop alloc max (turns + 1) copied array stream = result at hstep
      have hfits : forall {array' rest : Text} {k : Nat},
          connReadLine 128 array stream = some (array', rest) ->
          (copied.length + sizeRead array') % 2 ^ 64 ≤ max -> k ≤ arrived (sizeRead array') rest ->
            copied.length + k ≤ max := by
        intro array' rest k hread hle hk
        by_contra hpast
        have hpast := Nat.lt_of_not_le hpast
        exact hno (Overruns.here hread (wraps_of_past hle (hk.trans (arrived_le _ _)) hpast) hle
          (hpast.trans_le (Nat.add_le_add_left hk _)))
      cases hstep with
      | noLine _ => exact hlen
      | last _ _ => exact hlen
      | tooBig _ _ _ => exact hlen
      | cut hread hne hle hk hexact =>
          rename_i array' rest k
          have htake : (rest.take k).length ≤ k := List.length_take_le _ _
          dsimp only
          rw [List.length_append]
          exact (Nat.add_le_add_left htake _).trans (hfits hread hle hk)
      | noBehind hread _ hle hall _ =>
          dsimp only
          rw [length_taken hall]
          exact hfits hread hle (arrived_of_le hall).ge
      | next hread hne hle hall hback =>
          apply ih
          · rw [length_taken hall]
            exact hfits hread hle (arrived_of_le hall).ge
          · rw [length_taken hall]
            exact fun hover => hno (Overruns.later hread hne hle hall hback hover)

theorem chunkLoop_copied_grows {turns : Nat} {copied array stream : Text} :
    copied.length ≤ (chunkLoop alloc max turns copied array stream).copied.length := by
  induction turns generalizing copied array stream with
  | zero => exact Nat.le_refl _
  | succ turns ih =>
      have hstep := chunkLoop_step alloc max turns copied array stream
      generalize chunkLoop alloc max (turns + 1) copied array stream = result at hstep
      have hmore : forall more : Text, copied.length ≤ (copied ++ more).length := by
        intro more
        rw [List.length_append]
        exact Nat.le_add_right _ _
      cases hstep with
      | noLine _ => exact Nat.le_refl _
      | last _ _ => exact Nat.le_refl _
      | tooBig _ _ _ => exact Nat.le_refl _
      | cut _ _ _ _ _ => exact hmore _
      | noBehind _ _ _ _ _ => exact hmore _
      | next _ _ _ _ _ => exact (hmore _).trans ih

theorem chunkLoop_overrun (halloc : forall n, alloc n = true) {turns : Nat}
    {copied array stream : Text} (hturns : stream.length < turns)
    (hover : Overruns max copied.length array stream) :
    max < (chunkLoop alloc max turns copied array stream).copied.length := by
  induction turns generalizing copied array stream with
  | zero => cases hturns
  | succ turns ih =>
      have hstep := chunkLoop_step alloc max turns copied array stream
      generalize chunkLoop alloc max (turns + 1) copied array stream = result at hstep
      cases hover with
      | here hread hwraps hle hpast =>
          cases hstep with
          | noLine hread' => exact absurd (hread.symm.trans hread') (Option.some_ne_none _)
          | last hread' hzero =>
              rw [hread] at hread'
              cases hread'
              rw [hzero, arrived_of_le (Nat.zero_le _)] at hpast
              exact hpast
          | tooBig hread' hne hbig =>
              rw [hread] at hread'
              cases hread'
              exact absurd hbig (Nat.not_lt_of_le hle)
          | cut hread' hne hle' hk hexact =>
              rw [hread] at hread'
              cases hread'
              dsimp only
              rw [(hexact halloc).1, length_taken (arrived_le_length _ _)]
              exact hpast
          | noBehind hread' hne hle' hall hback =>
              rw [hread] at hread'
              cases hread'
              rw [arrived_of_le hall] at hpast
              dsimp only
              rw [length_taken hall]
              exact hpast
          | next hread' hne hle' hall hback =>
              rw [hread] at hread'
              cases hread'
              rw [arrived_of_le hall, <- length_taken hall] at hpast
              exact hpast.trans_le chunkLoop_copied_grows
      | later hread hne hle hall hback hrest =>
          cases hstep with
          | noLine hread' => exact absurd (hread.symm.trans hread') (Option.some_ne_none _)
          | last hread' hzero => rw [hread] at hread'; cases hread'; exact absurd hzero hne
          | tooBig hread' hne' hbig =>
              rw [hread] at hread'
              cases hread'
              exact absurd hbig (Nat.not_lt_of_le hle)
          | cut hread' hne' hle' hk hexact =>
              rw [hread] at hread'
              cases hread'
              exact absurd hall (Nat.not_le_of_lt (hexact halloc).2)
          | noBehind hread' hne' hle' hall' hback' =>
              rw [hread] at hread'
              cases hread'
              rw [hback] at hback'
              cases hback'
          | next hread' hne' hle' hall' hback' =>
              rw [hread] at hread'
              cases hread'
              rw [hback] at hback'
              cases hback'
              rw [<- length_taken hall] at hrest
              exact ih (two_lines_shorter hread hback hturns) hrest

end

/-!
# The other framings
-/

section
variable {alloc : Nat -> Bool} {max : Nat}

theorem lengthBody_read (alloc : Nat -> Bool) (max length : Nat) (stream : Text) :
    ((lengthBody alloc max length stream).code = 0 -> length ≤ stream.length ∧
        (lengthBody alloc max length stream).copied = stream.take length) ∧
      (lengthBody alloc max length stream).copied.length ≤ max := by
  unfold lengthBody
  split
  · exact ⟨fun h => (by cases h), Nat.zero_le _⟩
  rename_i hfits
  have hle := Nat.le_of_not_lt hfits
  rcases readPieces_read alloc length [] stream (Nat.lt_succ_self _) with ⟨k, hpieces⟩
  rcases hresult : readPieces alloc (stream.length + 1) length [] stream with ⟨ok, copied, rest⟩
  rw [hresult] at hpieces
  have hcopied : copied = stream.take k := hpieces.copied
  have hk := hpieces.bound.trans (arrived_le length stream)
  have hbound : copied.length ≤ max := by
    rw [hcopied]
    exact ((List.length_take_le _ _).trans hk).trans hle
  cases ok with
  | false => exact ⟨fun h => (by cases h), hbound⟩
  | true =>
      rcases hpieces.whole rfl with ⟨hlen, heq, _⟩
      refine ⟨fun _ => ⟨hlen, ?_⟩, hbound⟩
      rw [<- heq]
      exact hcopied

/-- The loop up to the close copies the whole stream, when there is room for it. -/
theorem closeLoop_read (alloc : Nat -> Bool) (sizes : Nat -> Nat) {turns : Nat} (k : Nat)
    {copied stream : Text} (hturns : stream.length < turns) (hlen : copied.length ≤ max) :
    ((closeLoop alloc max sizes turns k copied stream).code = 0 ->
        (closeLoop alloc max sizes turns k copied stream).copied = copied ++ stream) ∧
      (closeLoop alloc max sizes turns k copied stream).copied.length ≤ max ∧
      ((forall n, alloc n = true) -> copied.length + stream.length ≤ max ->
        (closeLoop alloc max sizes turns k copied stream).code = 0) := by
  induction turns generalizing k copied stream with
  | zero => cases hturns
  | succ turns ih =>
      rw [closeLoop]
      split
      · rename_i hnil
        rw [hnil]
        exact ⟨fun _ => (List.append_nil copied).symm, hlen, fun _ _ => rfl⟩
      rename_i hne
      have hpiece : (stream.take (sizes k + 1)).length ≤ stream.length := List.length_take_le' _ _
      dsimp only
      split
      · rename_i hbig
        refine ⟨fun h => (by cases h), hlen, fun _ hall => ?_⟩
        exact absurd (hbig.trans_le (Nat.add_le_add_left hpiece _)) (Nat.not_lt_of_le hall)
      rename_i hfits
      have hle := Nat.le_of_not_lt hfits
      unfold bodyAppend
      split
      · rename_i hnone
        refine ⟨fun h => (by cases h), hlen, fun halloc _ => ?_⟩
        rw [if_pos (halloc _)] at hnone
        cases hnone
      · rename_i copied' hsome
        have hcopied : copied' = copied ++ stream.take (sizes k + 1) := by
          split at hsome
          · exact (Option.some.inj hsome).symm
          · cases hsome
        have hshorter : (stream.drop (sizes k + 1)).length < turns := by
          have hpos := List.length_pos_iff.mpr hne
          rw [List.length_drop]
          omega
        have hlen' : copied'.length ≤ max := by
          rw [hcopied, List.length_append]
          exact hle
        rcases ih (k + 1) hshorter hlen' with ⟨hcode, hbound, hall⟩
        refine ⟨fun h => ?_, hbound, fun halloc htotal => hall halloc ?_⟩
        · rw [hcode h, hcopied, List.append_assoc, List.take_append_drop]
        · have hsplit := congrArg List.length (List.take_append_drop (sizes k + 1) stream)
          rw [List.length_append] at hsplit
          rw [hcopied, List.length_append, Nat.add_assoc, hsplit]
          exact htotal

theorem closeLoop_past (sizes : Nat -> Nat) {turns k : Nat} {copied stream : Text}
    (hturns : stream.length < turns) (hlen : copied.length ≤ max)
    (hpast : max < copied.length + stream.length) :
    (closeLoop alloc max sizes turns k copied stream).code ≠ 0 := by
  intro hcode
  rcases closeLoop_read alloc sizes k hturns hlen with ⟨hwhole, hbound, _⟩
  rw [hwhole hcode, List.length_append] at hbound
  exact absurd hpast (Nat.not_lt_of_le hbound)

end

/-!
# Whole and bounded
-/

/-- The body, as the server framed it, is on the stream. -/
def WholeBody (framing : Framing) (stream : Text) (ending : StreamEnd) (body : Text) : Prop :=
  match framing with
  | .none => body = []
  | .chunked => ChunkedBody stream body
  | .length length => length ≤ stream.length ∧ body = stream.take length
  | .close => ending = StreamEnd.closed ∧ body = stream

/-- Success means that the whole body was read, and no more than the bound is ever copied. -/
structure TrustedBody (framing : Framing) (max : Nat) (stream : Text) (ending : StreamEnd)
    (result : BodyRead) : Prop where
  whole : result.code = 0 -> WholeBody framing stream ending result.copied
  bounded : result.copied.length ≤ max

/-- In chunks, the reader takes no line for a size of zero unless this line and all before it are
what they should be, and comes to no size that wraps the sum of the sizes.  A stream that fails
before the close holds more than the bound. -/
def WellFramed (framing : Framing) (max : Nat) (junk stream : Text) (ending : StreamEnd) : Prop :=
  match framing with
  | .none => True
  | .chunked =>
      (forall visits, ReadsToLast max 0 junk stream visits -> forall v, v ∈ visits -> v.Proper) ∧
        ¬Overruns max 0 junk stream
  | .length _ => True
  | .close => ending = StreamEnd.failed -> max < stream.length

section
variable (sizes : Nat -> Nat) (junk : Text) (r : BodyFields) (isHead : Bool) (max : Nat)
  (stream : Text) (ending : StreamEnd)

theorem httpReadBody_trusted (alloc : Nat -> Bool)
    (h : WellFramed (framing r isHead) max junk stream ending) :
    TrustedBody (framing r isHead) max stream ending
      (httpReadBody alloc sizes junk r isHead max stream) := by
  unfold httpReadBody
  cases hframing : framing r isHead with
  | none => exact ⟨fun _ => rfl, Nat.zero_le _⟩
  | length length =>
      rcases lengthBody_read alloc max length stream with ⟨hwhole, hbound⟩
      exact ⟨hwhole, hbound⟩
  | close =>
      rw [hframing] at h
      have hzero : ([] : Text).length ≤ max := Nat.zero_le _
      have hread := closeLoop_read alloc sizes 0 (Nat.lt_succ_self stream.length) hzero
      refine ⟨fun hcode => ⟨?_, hread.1 hcode⟩, hread.2.1⟩
      cases ending with
      | closed => rfl
      | failed =>
          have hpast : max < ([] : Text).length + stream.length := by
            rw [List.length_nil, Nat.zero_add]
            exact h rfl
          exact absurd hcode (closeLoop_past sizes (Nat.lt_succ_self _) hzero hpast)
  | chunked =>
      rw [hframing] at h
      refine ⟨fun hcode => ?_, chunkLoop_bounded (Nat.zero_le _) h.2⟩
      rcases chunkLoop_success (Nat.lt_succ_self _) hcode with ⟨visits, hends, hbody⟩
      rcases hbody (h.1 visits hends) with ⟨body, hchunked, hcopied⟩
      dsimp only
      rw [hcopied]
      exact hchunked

/-- A read can be trusted when the body is well framed, and, where no memory is short, only
then. -/
theorem httpReadBody_trusted_iff :
    (WellFramed (framing r isHead) max junk stream ending -> forall alloc : Nat -> Bool,
        TrustedBody (framing r isHead) max stream ending
          (httpReadBody alloc sizes junk r isHead max stream)) ∧
      (TrustedBody (framing r isHead) max stream ending
          (httpReadBody (fun _ => true) sizes junk r isHead max stream) ->
        WellFramed (framing r isHead) max junk stream ending) := by
  refine ⟨fun h alloc => httpReadBody_trusted sizes junk r isHead max stream ending alloc h, ?_⟩
  unfold httpReadBody
  cases framing r isHead with
  | none => exact fun _ => trivial
  | length length => exact fun _ => trivial
  | close =>
      rintro htrusted hfailed
      by_contra hfits
      have hall : ([] : Text).length + stream.length ≤ max := by
        rw [List.length_nil, Nat.zero_add]
        exact Nat.le_of_not_lt hfits
      have hzero : ([] : Text).length ≤ max := Nat.zero_le _
      have hread := closeLoop_read (fun _ => true) sizes 0 (Nat.lt_succ_self stream.length) hzero
      have hclosed := (htrusted.whole (hread.2.2 (fun _ => rfl) hall)).1
      rw [hfailed] at hclosed
      cases hclosed
  | chunked =>
      intro htrusted
      constructor
      · intro visits hends v hv
        have hcode : (chunkLoop (fun _ => true) max (stream.length + 1) [] junk stream).code = 0 :=
          chunkLoop_of_ends (fun _ => rfl) (Nat.lt_succ_self _) hends
        exact ChunkedBody.proper (htrusted.whole hcode) hends v hv
      · intro hover
        have hpast : max < (chunkLoop (fun _ => true) max (stream.length + 1) [] junk
            stream).copied.length :=
          chunkLoop_overrun (fun _ => rfl) (Nat.lt_succ_self _) hover
        exact absurd hpast (Nat.not_lt_of_le htrusted.bounded)

end

def closeFields : BodyFields where
  status := 200
  chunked := false
  contentLength := -1

def chunkFields : BodyFields where
  status := 200
  chunked := true
  contentLength := -1

/-- A page up to the close of its connection. -/
theorem page_trusted :
    TrustedBody Framing.close 100 (ascii "<html>") StreamEnd.closed
      (httpReadBody (fun _ => true) (fun _ => 0) [] closeFields false 100 (ascii "<html>")) :=
  (httpReadBody_trusted_iff (fun _ => 0) [] closeFields false 100 (ascii "<html>")
    StreamEnd.closed).1 (fun h => by cases h) _

theorem not_chunkedBody_of_cut {body : Text} :
    ¬ChunkedBody (ascii "4\r\nabcd\r\n0") body := by
  intro h
  have hends : ReadsToLast 100 0 [] (ascii "4\r\nabcd\r\n0")
      [Visit.size (ascii "4\r\nabcd\r\n0"), Visit.behind (ascii "\r\n0"),
        Visit.size (ascii "0")] :=
    ReadsToLast.chunk (by decide : connReadLine 128 [] (ascii "4\r\nabcd\r\n0") =
        some ([52, 0], ascii "abcd\r\n0")) (by decide) (by decide)
      (by decide)
      (by decide : connReadLine 128 [52, 0] (ascii "\r\n0") = some ([0, 0], ascii "0"))
      (ReadsToLast.last (by decide : connReadLine 128 [0, 0] (ascii "0") =
        some ([48, 0], [])) (by decide))
  have hlast := h.proper hends (Visit.size (ascii "0"))
    (List.mem_cons_of_mem _ (List.mem_cons_of_mem _ List.mem_cons_self))
  rcases hlast with ⟨line, rest, size, heq, digits, ext, ending, hline⟩
  -- the one byte that is left holds no line end
  have hlength := congrArg List.length heq
  have hone : (ascii "0").length = 1 := by decide
  have hdigits := List.length_pos_iff.mpr hline.nonempty
  have hends : 0 < ending.length := by
    rcases hline.ends with hend | hend <;> rw [hend] <;> decide
  rw [hline.whole, hone, List.length_append, List.length_append, List.length_append] at hlength
  omega

/-- A size whose sum with the bytes before it wraps, and the bytes that follow it. -/
def wrappingStream : Text :=
  ascii "1\r\nA\r\nFFFFFFFFFFFFFFFF\r\n" ++ List.replicate 16384 65

/-- A page whose connection fails, a list that is cut behind the first digit of a size, and a size
that wraps. -/
theorem httpReadBody_not_trusted :
    ¬TrustedBody Framing.close 100 (ascii "<html>") StreamEnd.failed
        (httpReadBody (fun _ => true) (fun _ => 0) [] closeFields false 100 (ascii "<html>")) ∧
      ¬TrustedBody Framing.chunked 100 (ascii "4\r\nabcd\r\n0") StreamEnd.failed
        (httpReadBody (fun _ => true) (fun _ => 0) [] chunkFields false 100
          (ascii "4\r\nabcd\r\n0")) ∧
      ¬TrustedBody Framing.chunked 100 wrappingStream StreamEnd.failed
        (httpReadBody (fun _ => true) (fun _ => 0) [] chunkFields false 100 wrappingStream) := by
  refine ⟨fun h => ?_, fun h => ?_, fun h => ?_⟩
  · have hclosed := (h.whole (by decide)).1
    cases hclosed
  · exact not_chunkedBody_of_cut (h.whole (by decide))
  · exact absurd h.bounded (by decide +kernel)

end Http
end PkgManager
