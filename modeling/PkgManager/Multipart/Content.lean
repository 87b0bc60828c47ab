import PkgManager.Multipart.Shelf

/-!
# The bytes of a multi-part stream

Only an exact slot is ever open, so a read that returns data returns the bytes
of the package, whatever the guesses of the other slots are.
-/

namespace PkgManager
namespace Multipart

open Transition

/-!
# Slots in use
-/

/-- Every slot is exact, or still guessed. -/
structure SlotsOk (drives : Nat -> Drive) (D : Division) (deferred : Nat -> Bool)
    (first now : Nat) (st : VirtualStream) : Prop where
  stream : StreamOf D first st
  slot : forall i, i < D.parts -> SlotExact drives D now i (st.parts i) ∨
    SlotDeferred D deferred first i (st.parts i)

section Reading

variable {drives : Nat -> Drive} {env : FinderEnv} {cb : StreamCallbacks} {D : Division}
variable {deferred : Nat -> Bool} {first : Nat}

theorem slotsOk_of_opened {now : Nat} {st : VirtualStream}
    (h : OpenedTo drives D deferred first now D.parts st) :
    SlotsOk drives D deferred first now st := by
  refine ⟨h.stream, ?_⟩
  intro i hi
  have hslot := h.done i hi
  unfold SlotOpened at hslot
  split at hslot
  · exact Or.inr hslot
  · exact Or.inl hslot

theorem slotsOk_later {now now' : Nat} {st : VirtualStream} (hle : now ≤ now')
    (h : SlotsOk drives D deferred first now st) : SlotsOk drives D deferred first now' st := by
  refine ⟨h.stream, ?_⟩
  intro i hi
  rcases h.slot i hi with hexact | hdeferred
  · exact Or.inl (slotExact_later hle hexact)
  · exact Or.inr hdeferred

theorem slotExact_fd {now i : Nat} {s : PartInfo} {fd : Option PartFile}
    (h : SlotExact drives D now i s) (hfd : forall f, fd = some f -> f = D.file i) :
    SlotExact drives D now i { s with fd := fd } :=
  { h with fd_eq := hfd }

theorem slotDeferred_closed {i : Nat} {s : PartInfo} (h : SlotDeferred D deferred first i s) :
    SlotDeferred D deferred first i { s with fd := none } :=
  { h with fd_eq := rfl }

theorem slotsOk_setPart {now now' i : Nat} {st : VirtualStream} {s : PartInfo}
    (h : SlotsOk drives D deferred first now st) (hle : now ≤ now')
    (hs : i < D.parts -> SlotExact drives D now' i s ∨ SlotDeferred D deferred first i s) :
    SlotsOk drives D deferred first now' (st.setPart i s) := by
  refine ⟨⟨h.stream.parts_eq, h.stream.total_eq, h.stream.uuid_eq, h.stream.name_eq⟩, ?_⟩
  intro j hj
  show SlotExact drives D now' j (Function.update st.parts i s j) ∨
    SlotDeferred D deferred first j (Function.update st.parts i s j)
  by_cases hji : j = i
  · rw [hji, Function.update_self]
    exact hs (hji ▸ hj)
  · rw [Function.update_of_ne hji]
    exact (slotsOk_later hle h).slot j hj

theorem slotsOk_closeOthers {now i : Nat} {st : VirtualStream}
    (h : SlotsOk drives D deferred first now st) :
    SlotsOk drives D deferred first now (closeOthers st i) := by
  refine ⟨⟨h.stream.parts_eq, h.stream.total_eq, h.stream.uuid_eq, h.stream.name_eq⟩, ?_⟩
  intro j hj
  show SlotExact drives D now j (if j = i then st.parts j else { st.parts j with fd := none }) ∨
    SlotDeferred D deferred first j
      (if j = i then st.parts j else { st.parts j with fd := none })
  split
  · exact h.slot j hj
  · rcases h.slot j hj with hexact | hdeferred
    · exact Or.inl (slotExact_fd hexact (by intro f hf; cases hf))
    · exact Or.inr (slotDeferred_closed hdeferred)

/-!
# Finding the slot
-/

theorem findSlot_spec {st : VirtualStream} {x i : Nat} (h : findSlot st x = some i) :
    i < st.totalParts ∧ (st.parts i).startPkgOffset ≤ x ∧
      x < u64 ((st.parts i).startPkgOffset + (st.parts i).partDataSize) := by
  have hrange := List.mem_range.mp (List.mem_of_find?_eq_some h)
  have hfound := List.find?_some h
  rw [Bool.and_eq_true] at hfound
  exact ⟨hrange, of_decide_eq_true hfound.1, of_decide_eq_true hfound.2⟩

/-- The end of an exact slot; no sum wraps. -/
theorem slotExact_end {now i : Nat} {s : PartInfo} (hi : i < D.parts)
    (h : SlotExact drives D now i s) :
    u64 (s.startPkgOffset + s.partDataSize) = D.start (i + 1) := by
  rw [h.start_eq, h.size_eq, ← start_succ D hi]
  exact u64_of_lt (Nat.lt_of_le_of_lt (start_le_total D (i + 1)) (total_lt D))

/-- What is left of the request within the package. -/
def requested (D : Division) (x count : Nat) : Nat :=
  if u64 (x + count) > D.total then D.total - x else count

theorem requested_le {x count : Nat} : requested D x count ≤ count := by
  unfold requested
  split
  · rename_i h
    have hle : u64 (x + count) ≤ x + count := Nat.mod_le _ _
    omega
  · exact Nat.le_refl count

theorem requested_pos {x count : Nat} (hx : x < D.total) (hcount : 0 < count) :
    0 < requested D x count := by
  unfold requested
  split
  · exact Nat.sub_pos_of_lt hx
  · exact hcount

/-- The piece that a read takes from an exact slot. -/
def pieceOf (D : Division) (i x count : Nat) : Delivery where
  slot := i
  source := D.file i
  fileOffset := sliceOffset (D.header i) + (x - D.start i)
  length := min (requested D x count) (D.start (i + 1) - x)

theorem transfer_exact {r : StreamRun} {st : VirtualStream} {now i x count : Nat} {a : TurnAnswer}
    (hi : i < D.parts) (h : SlotExact drives D now i (st.parts i)) (hcount : 0 < count)
    (hstart : D.start i ≤ x) (hend : x < D.start (i + 1)) :
    transfer r st i now x (requested D x count) (D.file i) a =
      if a.preadOk then
        { stream := st, now := now, reading := none, returned := some (pieceOf D i x count) }
      else failRead r st now := by
  have hpart := D.isPart i hi
  have hsucc := start_succ D hi
  have hx : x < D.total := Nat.lt_of_lt_of_le hend (start_le_total D (i + 1))
  have hsize : D.size i - (x - D.start i) = D.start (i + 1) - x := by omega
  have hpos := requested_pos hx hcount
  have hpiece : (if requested D x count < D.start (i + 1) - x then requested D x count
      else D.start (i + 1) - x) = min (requested D x count) (D.start (i + 1) - x) := by
    rw [Nat.min_def]
    split
    · rename_i hlt
      rw [if_pos (Nat.le_of_lt hlt)]
    · rename_i hge
      split
      · omega
      · rfl
  have hfits : sliceOffset (D.header i) + D.size i ≤ (D.file i).size := hpart.fits
  have hsmall := hpart.small
  have hoffset : u64 (sliceOffset (D.header i) + (x - D.start i)) =
      sliceOffset (D.header i) + (x - D.start i) := u64_of_lt (by omega)
  have hroom : ¬ sliceOffset (D.header i) + (x - D.start i) +
      min (requested D x count) (D.start (i + 1) - x) > (D.file i).size := by
    have hle := Nat.min_le_right (requested D x count) (D.start (i + 1) - x)
    omega
  have hsome : min (requested D x count) (D.start (i + 1) - x) ≠ 0 := by omega
  unfold transfer
  rw [h.start_eq, h.size_eq, h.data_eq, if_neg (Nat.not_lt_of_le hstart)]
  dsimp only
  rw [if_neg (show ¬ x - D.start i >= D.size i by omega), hsize, hpiece, hoffset, if_neg hsome,
    decide_eq_false hroom, Bool.or_false]
  cases a.preadOk with
  | true => rfl
  | false => rfl

/-- The bytes of the piece are those of the package. -/
theorem pieceOf_package {i x count : Nat} (hi : i < D.parts) (hstart : D.start i ≤ x)
    (hend : x < D.start (i + 1)) {j : Nat} (hj : j < (pieceOf D i x count).length) :
    D.package[x + j]? =
      some ((pieceOf D i x count).source.byte ((pieceOf D i x count).fileOffset + j)) := by
  have hle : (pieceOf D i x count).length ≤ D.start (i + 1) - x := Nat.min_le_right _ _
  have hsucc := start_succ D hi
  have hin : x - D.start i + j < D.size i := by omega
  have hplace : x + j = D.start i + (x - D.start i + j) := by omega
  have hbyte : (pieceOf D i x count).fileOffset + j =
      sliceOffset (D.header i) + (x - D.start i + j) := Nat.add_assoc _ _ _
  rw [hplace, hbyte]
  exact (flatten_slice hi hin).trans ((D.isPart i hi).stored _ hin)

/-!
# Turns
-/

variable (drives) in
theorem openSlot_cases (st : VirtualStream) (i now : Nat) :
    exists fd now', openSlot drives st i now =
        (st.setPart i { st.parts i with fd := fd }, now') ∧ now ≤ now' ∧
      (fd = (st.parts i).fd ∨ ((st.parts i).path ≠ "" ∧ (st.parts i).fd = none ∧
        fd = (drives now).file (st.parts i).path)) := by
  unfold openSlot
  split
  · rename_i hclosed
    rw [Bool.and_eq_true] at hclosed
    exact ⟨_, now + 1, rfl, Nat.le_succ now,
      Or.inr ⟨bne_iff_ne.mp hclosed.1, Option.isNone_iff_eq_none.mp hclosed.2, rfl⟩⟩
  · refine ⟨(st.parts i).fd, now, ?_, Nat.le_refl now, Or.inl rfl⟩
    have hsame : st.setPart i { st.parts i with fd := (st.parts i).fd } = st := by
      show { st with parts := Function.update st.parts i (st.parts i) } = st
      rw [Function.update_eq_self]
    rw [hsame]

/-- An exact slot stays exact when it is opened, and a guessed slot is not opened. -/
theorem openSlot_slots {st : VirtualStream} {i now : Nat} (hi : i < D.parts)
    (h : SlotsOk drives D deferred first now st) :
    exists st' now', openSlot drives st i now = (st', now') ∧ now ≤ now' ∧
      SlotsOk drives D deferred first now' st' ∧ (forall j, j ≠ i -> st'.parts j = st.parts j) ∧
      ((st'.parts i).fd = none -> (st.parts i).fd = none) ∧
      ((SlotExact drives D now i (st.parts i) ∧ SlotExact drives D now' i (st'.parts i)) ∨
        (SlotDeferred D deferred first i (st'.parts i) ∧ (st'.parts i).fd = none)) := by
  rcases openSlot_cases drives st i now with ⟨fd, now', hopen, hle, hfd⟩
  have hstate : (SlotExact drives D now i (st.parts i) ∧
        SlotExact drives D now' i { st.parts i with fd := fd }) ∨
      (SlotDeferred D deferred first i { st.parts i with fd := fd } ∧ fd = none) := by
    rcases h.slot i hi with hexact | hdeferred
    · refine Or.inl ⟨hexact, slotExact_later hle (slotExact_fd hexact ?_)⟩
      intro f hf
      rcases hfd with hsame | ⟨_, _, hfile⟩
      · exact hexact.fd_eq f (hsame ▸ hf)
      · exact hexact.path_of now f (Nat.le_refl now) (Or.inl (hfile ▸ hf))
    · rcases hfd with hsame | ⟨hpath, _, _⟩
      · have hnone : fd = none := hsame.trans hdeferred.fd_eq
        rw [hnone]
        exact Or.inr ⟨slotDeferred_closed hdeferred, rfl⟩
      · exact absurd hdeferred.path_eq hpath
  have hself : (st.setPart i { st.parts i with fd := fd }).parts i =
      { st.parts i with fd := fd } := Function.update_self _ _ _
  refine ⟨_, now', hopen, hle, ?_, fun j hj => Function.update_of_ne hj _ _, ?_, ?_⟩
  · apply slotsOk_setPart h hle
    intro _
    rcases hstate with ⟨_, hexact⟩ | ⟨hdeferred, _⟩
    · exact Or.inl hexact
    · exact Or.inr hdeferred
  · rw [hself]
    intro hnone
    rcases hfd with hsame | ⟨_, hclosed, _⟩
    · exact hsame.symm.trans hnone
    · exact hclosed
  · rw [hself]
    exact hstate

/-- The part that the waiter found is recorded exactly. -/
theorem adoptPart_cases {r : StreamRun} {st : VirtualStream} {i now : Nat} {path : String}
    (hi : i < D.parts) (hpath : PathOf drives D now i path)
    (hzero : i = 0 -> (st.parts i).startPkgOffset = 0) :
    (exists st' now', adoptPart drives r st i path now = failRead r st' now' ∧ now ≤ now' ∧
      (st' = closeOthers st i ∨
        exists s, st' = (closeOthers st i).setPart i s ∧ SlotExact drives D now' i s) ∧
      (multipartReadHeader (drives now) path = none ∨ (drives (now + 1)).file path = none)) ∨
    (exists s, adoptPart drives r st i path now =
        { r with stream := (closeOthers st i).setPart i s, now := now + 2 } ∧
      SlotExact drives D (now + 2) i s ∧ s.fd = some (D.file i)) := by
  unfold adoptPart
  dsimp only
  cases hhdr : multipartReadHeader (drives now) path with
  | none => exact Or.inl ⟨_, now + 1, rfl, Nat.le_succ now, Or.inl rfl, Or.inl rfl⟩
  | some hdr =>
      have hown : hdr = D.header i := header_of_path hi hpath (Nat.le_refl now) hhdr
      have hstart : i = 0 -> ((closeOthers st i).parts i).startPkgOffset = 0 := by
        intro h0
        show (if i = i then st.parts i else { st.parts i with fd := none }).startPkgOffset = 0
        rw [if_pos rfl]
        exact hzero h0
      have hexact : SlotExact drives D (now + 2) i
          { path := path
            startPkgOffset :=
              if (D.header i).partOffset > 0 then (D.header i).partOffset
              else ((closeOthers st i).parts i).startPkgOffset
            partDataSize := (D.header i).partDataSize
            dataOffset := sliceOffset (D.header i)
            fd := (drives (now + 1)).file path } := by
        refine slotExact_of_header _ _ hi (pathOf_later (Nat.le_add_right now 2) hpath) hstart ?_
        intro f hf
        exact hpath (now + 1) f (Nat.le_succ now) (Or.inl hf)
      rw [hown]
      dsimp only
      cases hfd : (drives (now + 1)).file path with
      | none =>
          rw [hfd] at hexact
          exact Or.inl ⟨_, now + 2, rfl, Nat.le_add_right now 2, Or.inr ⟨_, rfl, hexact⟩, Or.inr rfl⟩
      | some f =>
          rw [hfd] at hexact
          refine Or.inr ⟨_, rfl, hexact, ?_⟩
          exact congrArg some (hexact.fd_eq f rfl)

theorem slotZero_start {now i : Nat} {st : VirtualStream} (hi : i < D.parts)
    (h : SlotsOk drives D deferred first now st) (hzero : i = 0) :
    (st.parts i).startPkgOffset = 0 := by
  rw [hzero] at hi ⊢
  rcases h.slot 0 hi with hexact | hdeferred
  · exact hexact.start_eq
  · exact hdeferred.start_eq

variable (cb) in
/-- A turn that finds a slot: an open slot is exact and delivers its piece, for a
closed one the waiter is asked. -/
theorem readTurnWith_some {r : StreamRun} {x count i : Nat} (a : TurnAnswer) (hcount : 0 < count)
    (h : SlotsOk drives D deferred first r.now r.stream)
    (hslot : findSlot r.stream x = some i) :
    exists st now, r.now ≤ now ∧ SlotsOk drives D deferred first now st ∧
      (forall j, j ≠ i -> st.parts j = r.stream.parts j) ∧
      ((D.start i ≤ x ∧ x < D.start (i + 1) ∧ SlotExact drives D now i (st.parts i) ∧
          readTurnWith drives cb r x count a =
            if a.preadOk then
              { stream := st, now := now, reading := none, returned := some (pieceOf D i x count) }
            else failRead r st now) ∨
        ((r.stream.parts i).fd = none ∧ readTurnWith drives cb r x count a =
          match cb.waitDiscFn (D.query first i) now with
          | (none, now) => failRead r st now
          | (some path, now) => adoptPart drives r st i path now)) := by
  rcases findSlot_spec hslot with ⟨hi, hlow, hhigh⟩
  rw [h.stream.parts_eq] at hi
  have hmoved : SlotsOk drives D deferred first r.now { r.stream with currentPart := i + 1 } :=
    ⟨⟨h.stream.parts_eq, h.stream.total_eq, h.stream.uuid_eq, h.stream.name_eq⟩, h.slot⟩
  rcases openSlot_slots hi hmoved with ⟨st, now, hopen, hle, hst, hothers, hclosed, hstate⟩
  refine ⟨st, now, hle, hst, hothers, ?_⟩
  unfold readTurnWith
  dsimp only
  rw [hslot]
  dsimp only
  rw [hopen]
  dsimp only
  cases hfd : (st.parts i).fd with
  | some f =>
      rcases hstate with ⟨hbefore, hexact⟩ | ⟨_, hnone⟩
      · have hend := slotExact_end hi hbefore
        rw [hend] at hhigh
        rw [hbefore.start_eq] at hlow
        rw [hexact.fd_eq f hfd, h.stream.total_eq]
        exact Or.inl ⟨hlow, hhigh, hexact, transfer_exact hi hexact hcount hlow hhigh⟩
      · rw [hfd] at hnone
        cases hnone
  | none =>
      rw [h.stream.uuid_eq, h.stream.name_eq]
      exact Or.inr ⟨hclosed hfd, rfl⟩

/-- What a turn may do: fail, deliver the piece of the slice that holds the
place, or go on. -/
theorem readTurnWith_ok {initialPath : String} {start : Nat} {r : StreamRun} {x count : Nat}
    (a : TurnAnswer) (hright : RightParts drives env cb D initialPath first start)
    (hcount : 0 < count) (h : SlotsOk drives D deferred first r.now r.stream) :
    exists r', readTurnWith drives cb r x count a = r' ∧
      SlotsOk drives D deferred first r'.now r'.stream ∧
      ((r'.reading = none ∧ r'.returned = none) ∨
        (exists i, i < D.parts ∧ D.start i ≤ x ∧ x < D.start (i + 1) ∧ r'.reading = none ∧
          r'.returned = some (pieceOf D i x count)) ∨
        (r'.reading = r.reading ∧ r'.returned = r.returned)) := by
  refine ⟨_, rfl, ?_⟩
  cases hslot : findSlot r.stream x with
  | none =>
      unfold readTurnWith
      dsimp only
      rw [hslot]
      exact ⟨h, Or.inl ⟨rfl, rfl⟩⟩
  | some i =>
      have hi : i < D.parts := h.stream.parts_eq ▸ (findSlot_spec hslot).1
      rcases readTurnWith_some cb a hcount h hslot with
        ⟨st, now, hle, hst, _, ⟨hlow, hhigh, _, hturn⟩ | ⟨_, hturn⟩⟩
      · rw [hturn]
        split
        · exact ⟨hst, Or.inr (Or.inl ⟨i, hi, hlow, hhigh, rfl, rfl⟩)⟩
        · exact ⟨hst, Or.inl ⟨rfl, rfl⟩⟩
      · rw [hturn]
        have hlater := cb.wait_later (D.query first i) now
        cases hwait : cb.waitDiscFn (D.query first i) now with
        | mk found now' =>
            rw [hwait] at hlater
            cases found with
            | none => exact ⟨slotsOk_later hlater hst, Or.inl ⟨rfl, rfl⟩⟩
            | some path =>
                dsimp only
                have hpath := hright.supplied i now path now' hi hwait
                have hclosed := slotsOk_closeOthers (i := i) (slotsOk_later hlater hst)
                rcases adoptPart_cases (r := r) hi hpath (slotZero_start hi hst) with
                  ⟨st', now'', hadopt, hle', hst', _⟩ | ⟨s, hadopt, hexact, _⟩
                · rw [hadopt]
                  refine ⟨?_, Or.inl ⟨rfl, rfl⟩⟩
                  rcases hst' with hsame | ⟨s, hset, hexact⟩
                  · rw [hsame]
                    exact slotsOk_later hle' hclosed
                  · rw [hset]
                    exact slotsOk_setPart hclosed hle' (fun _ => Or.inl hexact)
                · rw [hadopt]
                  refine ⟨?_, Or.inr (Or.inr ⟨rfl, rfl⟩)⟩
                  exact slotsOk_setPart hclosed (Nat.le_add_right now' 2)
                    (fun _ => Or.inl hexact)

/-!
# Runs
-/

/-- A stream in use: the slots are right, a read that is going on asks for
something, and it has not returned. -/
structure ReadingOk (drives : Nat -> Drive) (D : Division) (deferred : Nat -> Bool) (first : Nat)
    (r : StreamRun) : Prop where
  slots : SlotsOk drives D deferred first r.now r.stream
  count_pos : forall x count, r.reading = some (x, count) -> 0 < count
  pending : forall x count, r.reading = some (x, count) -> r.returned = none

theorem streamSystemWith_ok {initialPath : String} {start : Nat} {r r' : StreamRun}
    {l : StreamLabel} (hright : RightParts drives env cb D initialPath first start)
    (h : ReadingOk drives D deferred first r)
    (hnext : (streamSystemWith drives cb).next r l = some r') :
    ReadingOk drives D deferred first r' := by
  cases l with
  | read x count =>
      simp only [streamSystemWith] at hnext
      split at hnext
      · cases hnext
      · split at hnext
        · cases hnext
          exact ⟨h.slots, (by intro x count hx; cases hx), (by intro x count hx; cases hx)⟩
        · rename_i hsome
          cases hnext
          refine ⟨h.slots, ?_, ?_⟩
          · intro x count hx
            cases hx
            exact Nat.pos_of_ne_zero (fun hzero => hsome (Or.inl hzero))
          · intro x count hx
            rfl
  | turn a =>
      cases hreading : r.reading with
      | none =>
          simp only [streamSystemWith, hreading] at hnext
          cases hnext
      | some range =>
          rcases range with ⟨x, count⟩
          simp only [streamSystemWith, hreading] at hnext
          cases hnext
          rcases readTurnWith_ok a hright (h.count_pos x count hreading) h.slots with
            ⟨r', hturn, hslots, hresult⟩
          rw [hturn]
          have hdone : r'.reading = none -> ReadingOk drives D deferred first r' := by
            intro hnone
            refine ⟨hslots, ?_, ?_⟩
            · intro x count hx
              rw [hnone] at hx
              cases hx
            · intro x count hx
              rw [hnone] at hx
              cases hx
          rcases hresult with ⟨hnone, _⟩ | ⟨_, _, _, _, hnone, _⟩ | ⟨hsame, hreturned⟩
          · exact hdone hnone
          · exact hdone hnone
          · refine ⟨hslots, ?_, ?_⟩
            · intro x count hx
              exact h.count_pos x count (hsame ▸ hx)
            · intro x count hx
              rw [hreturned]
              exact h.pending x count (hsame ▸ hx)

end Reading

/-- What a finished read has put into the buffer. -/
def ReadsPackage (D : Division) (x count : Nat) (d : Delivery) : Prop :=
  d.length ≤ count ∧
    forall j, j < d.length -> D.package[x + j]? = some (d.source.byte (d.fileOffset + j))

/-- However the stream is read, a read that returns data returns the bytes of the
package at the offset that was asked for. -/
def ReadsSlices (drives : Nat -> Drive) (env : FinderEnv) (cb : StreamCallbacks) (D : Division)
    (initialPath : String) (start : Nat) : Prop :=
  forall st opened tr r r' x count a d,
    virtualStreamOpenWith drives env cb initialPath start = Except.ok (st, opened) ->
      st.isMultipart = true ->
      Run (streamSystemWith drives cb) (fun _ _ => True)
        { stream := st, now := opened, reading := none, returned := none } tr r ->
      r.reading = some (x, count) ->
      (streamSystemWith drives cb).next r (StreamLabel.turn a) = some r' ->
      r'.returned = some d -> ReadsPackage D x count d

/-- Three slices of different sizes. -/
def threeSlices : Division :=
  divide [[1, 2], [3], [4, 5, 6]] (by decide) (by decide) (by decide)

end Multipart
end PkgManager
