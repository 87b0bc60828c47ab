import PkgManager.Multipart.Content
import PkgManager.Multipart.Slots

/-!
# Reading a package from its beginning

Every read starts where the one before it ended.  The reads go through when the
guessed place of every deferred slot holds the start of its slice, and only
then.
-/

namespace PkgManager
namespace Multipart

open Transition

/-!
# Whole reads
-/

section Reads

variable (drives : Nat -> Drive) (cb : StreamCallbacks)

/-- The loop of {lit}`virtual_stream_read`, up to a number of turns. -/
def readLoop : Nat -> StreamRun -> Option StreamRun
  | 0, _ => none
  | fuel + 1, r =>
      match r.reading with
      | none => some r
      | some (x, count) => readLoop fuel (readTurnWith drives cb r x count {})

/-- A read: the run when it has returned. -/
def virtualStreamReadWith (fuel : Nat) (r : StreamRun) (x count : Nat) : Option StreamRun :=
  if count = 0 ∨ x >= r.stream.totalPkgSize then some (failRead r r.stream r.now)
  else readLoop drives cb fuel { r with reading := some (x, count), returned := none }

/-- The stream and the place after a number of reads.  There is none when a read
before the end of the package returned 0 or -1, or did not return after one turn
for each slot and two more. -/
def sequentialReads (r : StreamRun) (counts : Nat -> Nat) : Nat -> Option (StreamRun × Nat)
  | 0 => some (r, 0)
  | k + 1 =>
      match sequentialReads r counts k with
      | none => none
      | some (r, x) =>
          if x >= r.stream.totalPkgSize then some (r, x)
          else
            match virtualStreamReadWith drives cb (r.stream.totalParts + 2) r x (counts k) with
            | none => none
            | some r' =>
                match r'.returned with
                | none => none
                | some d => some (r', x + d.length)

/-- The waiter has every part: its header can be read, and it can be opened. -/
def AlwaysSupplies (D : Division) (first : Nat) : Prop :=
  forall i now, i < D.parts -> exists path now',
    cb.waitDiscFn (D.query first i) now = (some path, now') ∧
      (multipartReadHeader (drives now') path).isSome = true ∧
      ((drives (now' + 1)).file path).isSome = true

/-- Whatever the sizes of the reads are, none of them fails before the end. -/
def ReadsToTheEnd (st : VirtualStream) (opened : Nat) : Prop :=
  forall counts : Nat -> Nat, (forall k, 0 < counts k) -> forall k,
    (sequentialReads drives cb { stream := st, now := opened, reading := none, returned := none }
      counts k).isSome = true

end Reads

/-!
# Slots on the way
-/

section Reading

variable {drives : Nat -> Drive} {env : FinderEnv} {cb : StreamCallbacks} {D : Division}
variable {deferred : Nat -> Bool} {initialPath : String} {start : Nat}

def InSlot (s : PartInfo) (x : Nat) : Prop :=
  s.startPkgOffset ≤ x ∧ x < u64 (s.startPkgOffset + s.partDataSize)

theorem findSlot_first {st : VirtualStream} {x i : Nat} (hi : i < st.totalParts)
    (hin : InSlot (st.parts i) x) (hbefore : forall j, j < i -> ¬ InSlot (st.parts j) x) :
    findSlot st x = some i := by
  unfold findSlot
  rw [List.find?_range_eq_some]
  refine ⟨?_, List.mem_range.mpr hi, ?_⟩
  · rw [Bool.and_eq_true]
    exact ⟨decide_eq_true hin.1, decide_eq_true hin.2⟩
  · intro j hj
    rw [Bool.not_eq_true', Bool.and_eq_false_iff]
    by_cases hlow : (st.parts j).startPkgOffset ≤ x
    · refine Or.inr (decide_eq_false ?_)
      intro hhigh
      exact hbefore j hj ⟨hlow, hhigh⟩
    · exact Or.inl (decide_eq_false hlow)

theorem inSlot_exact {now i x : Nat} {s : PartInfo} (hi : i < D.parts)
    (h : SlotExact drives D now i s) :
    InSlot s x <-> D.start i ≤ x ∧ x < D.start (i + 1) := by
  unfold InSlot
  rw [slotExact_end hi h, h.start_eq]

/-- The guessed range holds the start of the slice exactly when the guess
reaches. -/
theorem inSlot_deferred {i : Nat} {s : PartInfo} (hi : i < D.parts)
    (h : SlotDeferred D deferred 0 i s) : InSlot s (D.start i) <-> Reaches D deferred i := by
  have hlt : D.start i < D.total := by
    have hsucc := start_succ D hi
    have hpos := size_pos D hi
    have hle := start_le_total D (i + 1)
    omega
  have htotal := total_lt D
  unfold InSlot Reaches
  rw [h.start_eq, h.size_eq]
  by_cases hlast : i + 1 = D.parts
  · rw [if_pos hlast]
    constructor
    · intro hin
      exact ⟨hin.1, Or.inl hlast⟩
    · intro hreach
      refine ⟨hreach.1, ?_⟩
      have hle : guess D deferred 0 i ≤ D.start i := hreach.1
      have hend : u64 (guess D deferred 0 i + u64 (D.total + 2 ^ 64 - guess D deferred 0 i)) =
          D.total := by
        unfold u64
        omega
      rw [hend]
      exact hlt
  · rw [if_neg hlast]
    constructor
    · intro hin
      exact ⟨hin.1, Or.inr hin.2⟩
    · intro hreach
      exact ⟨hreach.1, hreach.2.resolve_left hlast⟩

/-- Before a read at {lit}`x`: the slots whose slice starts below are exact, the
others are as they were opened. -/
structure AtPlace (drives : Nat -> Drive) (D : Division) (deferred : Nat -> Bool) (now : Nat)
    (st : VirtualStream) (x : Nat) : Prop where
  slots : SlotsOk drives D deferred 0 now st
  behind : forall i, i < D.parts -> D.start i < x -> SlotExact drives D now i (st.parts i)
  ahead : forall i, i < D.parts -> x ≤ D.start i ->
    SlotOpened drives D deferred 0 now i (st.parts i)

/-- The slots on both sides of the one that is read. -/
structure Around (drives : Nat -> Drive) (D : Division) (deferred : Nat -> Bool) (now : Nat)
    (st : VirtualStream) (q : Nat) : Prop where
  slots : SlotsOk drives D deferred 0 now st
  before : forall i, i < q -> SlotExact drives D now i (st.parts i)
  after : forall i, q < i -> i < D.parts -> SlotOpened drives D deferred 0 now i (st.parts i)

theorem around_of_atPlace {now x q : Nat} {st : VirtualStream}
    (h : AtPlace drives D deferred now st x) (hq : q < D.parts) (hlow : D.start q ≤ x)
    (hhigh : x < D.start (q + 1)) : Around drives D deferred now st q := by
  refine ⟨h.slots, ?_, ?_⟩
  · intro i hi
    have hlt := Nat.lt_trans hi hq
    have hstart : D.start i < D.start (i + 1) := by
      rw [start_succ D hlt]
      exact Nat.lt_add_of_pos_right (size_pos D hlt)
    have hle : D.start (i + 1) ≤ D.start q := start_mono D hi (Nat.le_of_lt hq)
    exact h.behind i hlt (by omega)
  · intro i hi hlt
    have hle : D.start (q + 1) ≤ D.start i := start_mono D hi (Nat.le_of_lt hlt)
    exact h.ahead i hlt (by omega)

theorem atPlace_of_around {now q x : Nat} {st : VirtualStream}
    (h : Around drives D deferred now st q) (hq : q < D.parts)
    (hexact : SlotExact drives D now q (st.parts q)) (hlow : D.start q < x)
    (hhigh : x ≤ D.start (q + 1)) : AtPlace drives D deferred now st x := by
  refine ⟨h.slots, ?_, ?_⟩
  · intro i hi hbelow
    rcases Nat.lt_trichotomy i q with hlt | heq | hgt
    · exact h.before i hlt
    · rw [heq]
      exact hexact
    · have hle : D.start (q + 1) ≤ D.start i := start_mono D hgt (Nat.le_of_lt hi)
      omega
  · intro i hi habove
    apply h.after i _ hi
    by_contra hle
    have hmono : D.start i ≤ D.start q := start_mono D (Nat.le_of_not_lt hle) (Nat.le_of_lt hq)
    omega

theorem slotOpened_closed {now i : Nat} {s : PartInfo}
    (h : SlotOpened drives D deferred 0 now i s) :
    SlotOpened drives D deferred 0 now i { s with fd := none } := by
  unfold SlotOpened at h ⊢
  split
  · rename_i hdeferred
    rw [if_pos hdeferred] at h
    exact slotDeferred_closed h
  · rename_i hdeferred
    rw [if_neg hdeferred] at h
    exact slotExact_fd h (by intro f hf; cases hf)

/-- A slot that holds the place of the read is exact: the slices before it end
earlier. -/
theorem findSlot_atPlace {st : VirtualStream} {now x q : Nat}
    (hparts : st.totalParts = D.parts) (hq : q < D.parts) (hlow : D.start q ≤ x)
    (hin : InSlot (st.parts q) x)
    (hbefore : forall i, i < q -> SlotExact drives D now i (st.parts i)) :
    findSlot st x = some q := by
  apply findSlot_first (hparts ▸ hq) hin
  intro i hi hother
  have hrange := (inSlot_exact (Nat.lt_trans hi hq) (hbefore i hi)).mp hother
  have hle : D.start (i + 1) ≤ D.start q := start_mono D hi (Nat.le_of_lt hq)
  omega

/-- The slots around stay as they are when the slot in the middle changes. -/
theorem around_of_same {now now' q : Nat} {st st' : VirtualStream}
    (h : Around drives D deferred now st q) (hle : now ≤ now')
    (hslots : SlotsOk drives D deferred 0 now' st')
    (hothers : forall i, i ≠ q -> st'.parts i = st.parts i) :
    Around drives D deferred now' st' q := by
  refine ⟨hslots, ?_, ?_⟩
  · intro i hi
    rw [hothers i (Nat.ne_of_lt hi)]
    exact slotExact_later hle (h.before i hi)
  · intro i hi hlt
    rw [hothers i (Nat.ne_of_gt hi)]
    exact slotOpened_later hle (h.after i hi hlt)

theorem around_adopted {now now' q : Nat} {st : VirtualStream} {s : PartInfo}
    (h : Around drives D deferred now st q) (hle : now ≤ now')
    (hexact : SlotExact drives D now' q s) :
    Around drives D deferred now' ((closeOthers st q).setPart q s) q := by
  have hslots : SlotsOk drives D deferred 0 now' ((closeOthers st q).setPart q s) :=
    slotsOk_setPart (slotsOk_closeOthers (slotsOk_later hle h.slots)) (Nat.le_refl now')
      (fun _ => Or.inl hexact)
  have hothers : forall i, i ≠ q ->
      ((closeOthers st q).setPart q s).parts i = { st.parts i with fd := none } := by
    intro i hi
    show Function.update (closeOthers st q).parts q s i = _
    rw [Function.update_of_ne hi]
    exact if_neg hi
  refine ⟨hslots, ?_, ?_⟩
  · intro i hi
    rw [hothers i (Nat.ne_of_lt hi)]
    exact slotExact_later hle (slotExact_fd (h.before i hi) (by intro f hf; cases hf))
  · intro i hi hlt
    rw [hothers i (Nat.ne_of_gt hi)]
    exact slotOpened_later hle (slotOpened_closed (h.after i hi hlt))

/-!
# One read
-/

/-- A turn at a place that the slot holds delivers the piece, or records the part
and leaves it open. -/
theorem turn_inSlot (hright : RightParts drives env cb D initialPath 0 start)
    (hsupply : AlwaysSupplies drives cb D 0) {r : StreamRun} {x count q : Nat}
    (hcount : 0 < count) (hq : q < D.parts) (hlow : D.start q ≤ x)
    (h : Around drives D deferred r.now r.stream q) (hin : InSlot (r.stream.parts q) x) :
    exists r', readTurnWith drives cb r x count {} = r' ∧
      Around drives D deferred r'.now r'.stream q ∧
      SlotExact drives D r'.now q (r'.stream.parts q) ∧
      ((r'.reading = none ∧ r'.returned = some (pieceOf D q x count)) ∨
        (r'.reading = r.reading ∧ (r.stream.parts q).fd = none ∧
          (r'.stream.parts q).fd ≠ none)) := by
  have hslot := findSlot_atPlace h.slots.stream.parts_eq hq hlow hin h.before
  rcases readTurnWith_some cb {} hcount h.slots hslot with
    ⟨st, now, hle, hst, hothers, ⟨_, _, hexact, hturn⟩ | ⟨hclosed, hturn⟩⟩
  · have haround := around_of_same h hle hst hothers
    exact ⟨_, hturn, haround, hexact, Or.inl ⟨rfl, rfl⟩⟩
  · have haround := around_of_same h hle hst hothers
    rcases hsupply q now hq with ⟨path, now', hwait, hhdr, hfile⟩
    have hlater := cb.wait_later (D.query 0 q) now
    rw [hwait] at hturn hlater
    rcases adoptPart_cases (r := r) hq (hright.supplied q now path now' hq hwait)
        (slotZero_start hq hst) with ⟨_, _, _, _, _, hmissing⟩ | ⟨s, hadopt, hexact, hfd⟩
    · rcases hmissing with hnone | hnone
      · rw [hnone] at hhdr
        cases hhdr
      · rw [hnone] at hfile
        cases hfile
    · refine ⟨_, hturn.trans hadopt, ?_, ?_, Or.inr ⟨rfl, hclosed, ?_⟩⟩
      · exact around_adopted haround (Nat.le_trans hlater (Nat.le_add_right now' 2)) hexact
      · show SlotExact drives D (now' + 2) q (Function.update (closeOthers st q).parts q s q)
        rw [Function.update_self]
        exact hexact
      · show (Function.update (closeOthers st q).parts q s q).fd ≠ none
        rw [Function.update_self, hfd]
        exact Option.some_ne_none _

/-- A read at a place that its slot holds returns a piece of the slice. -/
theorem read_inSlot (hright : RightParts drives env cb D initialPath 0 start)
    (hsupply : AlwaysSupplies drives cb D 0) {r : StreamRun} {x count q : Nat}
    (hcount : 0 < count) (hq : q < D.parts) (hlow : D.start q ≤ x) (hhigh : x < D.start (q + 1))
    (h : AtPlace drives D deferred r.now r.stream x) (hin : InSlot (r.stream.parts q) x) :
    exists r', virtualStreamReadWith drives cb (r.stream.totalParts + 2) r x count = some r' ∧
      r'.returned = some (pieceOf D q x count) ∧
      AtPlace drives D deferred r'.now r'.stream (x + (pieceOf D q x count).length) := by
  have hx : x < D.total := Nat.lt_of_lt_of_le hhigh (start_le_total D (q + 1))
  have hpiece : 0 < (pieceOf D q x count).length ∧
      x + (pieceOf D q x count).length ≤ D.start (q + 1) := by
    have hpos := requested_pos hx hcount
    have hlen : (pieceOf D q x count).length = min (requested D x count) (D.start (q + 1) - x) := rfl
    omega
  have hfuel : exists fuel, r.stream.totalParts + 2 = fuel + 3 := by
    refine ⟨D.parts - 1, ?_⟩
    rw [h.slots.stream.parts_eq]
    omega
  rcases hfuel with ⟨fuel, hfuel⟩
  unfold virtualStreamReadWith
  rw [h.slots.stream.total_eq, if_neg (by omega), hfuel, readLoop]
  dsimp only
  have haround := around_of_atPlace h hq hlow hhigh
  rcases turn_inSlot (r := { r with reading := some (x, count), returned := none }) hright hsupply
      hcount hq hlow haround hin with ⟨r1, hturn, haround1, hexact1, hresult⟩
  rw [hturn, readLoop]
  rcases hresult with ⟨hdone, hreturned⟩ | ⟨hgoing, _, hopen⟩
  · rw [hdone]
    exact ⟨r1, rfl, hreturned,
      atPlace_of_around haround1 hq hexact1 (by omega) hpiece.2⟩
  · have hin1 : InSlot (r1.stream.parts q) x := (inSlot_exact hq hexact1).mpr ⟨hlow, hhigh⟩
    rcases turn_inSlot hright hsupply hcount hq hlow haround1 hin1 with
      ⟨r2, hturn2, haround2, hexact2, hresult2⟩
    rw [hgoing]
    dsimp only
    rw [hturn2, readLoop]
    rcases hresult2 with ⟨hdone, hreturned⟩ | ⟨_, hclosed, _⟩
    · rw [hdone]
      exact ⟨r2, rfl, hreturned,
        atPlace_of_around haround2 hq hexact2 (by omega) hpiece.2⟩
    · exact absurd hclosed hopen

/-- While the slot of the place is guessed elsewhere, a turn delivers nothing: what
it finds instead is another part. -/
theorem turn_notReaching (hright : RightParts drives env cb D initialPath 0 start)
    {r : StreamRun} {count q : Nat} (hcount : 0 < count) (hq : q < D.parts)
    (h : SlotsOk drives D deferred 0 r.now r.stream)
    (hguess : SlotDeferred D deferred 0 q (r.stream.parts q)) (hnot : ¬ Reaches D deferred q) :
    exists r', readTurnWith drives cb r (D.start q) count {} = r' ∧
      SlotsOk drives D deferred 0 r'.now r'.stream ∧
      ((r'.reading = none ∧ r'.returned = none) ∨
        (r'.reading = r.reading ∧ r'.returned = r.returned ∧
          SlotDeferred D deferred 0 q (r'.stream.parts q))) := by
  rcases readTurnWith_ok (x := D.start q) {} hright hcount h with ⟨r', hturn, hslots, _⟩
  refine ⟨r', hturn, hslots, ?_⟩
  cases hslot : findSlot r.stream (D.start q) with
  | none =>
      unfold readTurnWith at hturn
      dsimp only at hturn
      rw [hslot] at hturn
      rw [← hturn]
      exact Or.inl ⟨rfl, rfl⟩
  | some i =>
      have hi : i < D.parts := h.stream.parts_eq ▸ (findSlot_spec hslot).1
      have hne : q ≠ i := by
        intro heq
        have hin : InSlot (r.stream.parts q) (D.start q) := heq ▸ (findSlot_spec hslot).2
        exact hnot ((inSlot_deferred hq hguess).mp hin)
      rcases readTurnWith_some cb {} hcount h hslot with
        ⟨st, now, _, hst, hothers, ⟨hlow, hhigh, _, _⟩ | ⟨_, hwaits⟩⟩
      · have hsucc := start_succ D hq
        have hpos := size_pos D hq
        exact absurd (slice_unique D hq hi ⟨Nat.le_refl _, by omega⟩ ⟨hlow, hhigh⟩) hne
      · rw [hturn] at hwaits
        cases hwait : cb.waitDiscFn (D.query 0 i) now with
        | mk found now' =>
            rw [hwait] at hwaits
            cases found with
            | none =>
                rw [hwaits]
                exact Or.inl ⟨rfl, rfl⟩
            | some path =>
                rcases adoptPart_cases (r := r) hi (hright.supplied i now path now' hi hwait)
                    (slotZero_start hi hst) with ⟨_, _, hadopt, _⟩ | ⟨s, hadopt, _, _⟩
                · rw [hwaits.trans hadopt]
                  exact Or.inl ⟨rfl, rfl⟩
                · rw [hwaits.trans hadopt]
                  refine Or.inr ⟨rfl, rfl, ?_⟩
                  have hsame : ((closeOthers st i).setPart i s).parts q =
                      { r.stream.parts q with fd := none } := by
                    show Function.update (closeOthers st i).parts i s q = _
                    rw [Function.update_of_ne hne, ← hothers q hne]
                    exact if_neg hne
                  rw [hsame]
                  exact slotDeferred_closed hguess

theorem readLoop_notReaching (hright : RightParts drives env cb D initialPath 0 start)
    {fuel : Nat} {r r' : StreamRun} {count q : Nat} (hcount : 0 < count) (hq : q < D.parts)
    (h : SlotsOk drives D deferred 0 r.now r.stream)
    (hguess : SlotDeferred D deferred 0 q (r.stream.parts q)) (hnot : ¬ Reaches D deferred q)
    (hreading : r.reading = some (D.start q, count)) (hreturned : r.returned = none)
    (hloop : readLoop drives cb fuel r = some r') : r'.returned = none := by
  induction fuel generalizing r with
  | zero => cases hloop
  | succ fuel ih =>
      rw [readLoop, hreading] at hloop
      dsimp only at hloop
      rcases turn_notReaching hright hcount hq h hguess hnot with ⟨r1, hturn, hslots, hresult⟩
      rw [hturn] at hloop
      rcases hresult with ⟨hdone, hnone⟩ | ⟨hgoing, hsame, hguess1⟩
      · cases fuel with
        | zero => cases hloop
        | succ fuel =>
            rw [readLoop, hdone] at hloop
            cases hloop
            exact hnone
      · exact ih hslots hguess1 (hgoing.trans hreading) (hsame.trans hreturned) hloop

/-- A read that returns data at the start of a deferred slice was served by a
guess that reaches. -/
theorem read_reaches (hright : RightParts drives env cb D initialPath 0 start) {fuel : Nat}
    {r r' : StreamRun} {count q : Nat} (hcount : 0 < count) (hq : q < D.parts)
    (h : AtPlace drives D deferred r.now r.stream (D.start q)) (hdeferred : deferred q = true)
    (hread : virtualStreamReadWith drives cb fuel r (D.start q) count = some r')
    (hreturned : r'.returned ≠ none) : Reaches D deferred q := by
  by_contra hnot
  apply hreturned
  have hslot := h.ahead q hq (Nat.le_refl _)
  unfold SlotOpened at hslot
  rw [if_pos hdeferred] at hslot
  unfold virtualStreamReadWith at hread
  split at hread
  · cases hread
    rfl
  · exact readLoop_notReaching (r := { r with reading := some (D.start q, count), returned := none })
      hright hcount hq h.slots hslot hnot rfl rfl hread

/-!
# Every read returns

A part that was recorded for a read is exact from then on, so the next slot that
the same read finds is a later one.
-/

theorem findSlot_before {st : VirtualStream} {x i : Nat} (h : findSlot st x = some i) {j : Nat}
    (hj : j < i) : ¬ InSlot (st.parts j) x := by
  unfold findSlot at h
  rw [List.find?_range_eq_some] at h
  have hnot := h.2.2 j hj
  intro hin
  rw [decide_eq_true hin.1, decide_eq_true hin.2] at hnot
  cases hnot

theorem readLoop_finished {r : StreamRun} (fuel : Nat) (h : r.reading = none) :
    (readLoop drives cb (fuel + 1) r).isSome = true := by
  rw [readLoop, h]
  rfl

theorem readLoop_returns {first : Nat} (hright : RightParts drives env cb D initialPath first start)
    {fuel m x count : Nat} {r : StreamRun} (hcount : 0 < count)
    (h : SlotsOk drives D deferred first r.now r.stream) (hreading : r.reading = some (x, count))
    (hbelow : forall j, j < m -> ¬ InSlot (r.stream.parts j) x)
    (hfuel : D.parts - m + 2 ≤ fuel) : (readLoop drives cb fuel r).isSome = true := by
  induction fuel generalizing r m with
  | zero => omega
  | succ fuel ih =>
      have hone : exists f, fuel = f + 1 := ⟨fuel - 1, by omega⟩
      rw [readLoop, hreading]
      dsimp only
      rcases readTurnWith_ok (x := x) {} hright hcount h with ⟨r1, hturn, hslots, _⟩
      cases hslot : findSlot r.stream x with
      | none =>
          rcases hone with ⟨f, hf⟩
          rw [hf]
          apply readLoop_finished
          unfold readTurnWith
          dsimp only
          rw [hslot]
          rfl
      | some i =>
          have hspec := findSlot_spec hslot
          have hi : i < D.parts := h.stream.parts_eq ▸ hspec.1
          have hmi : m ≤ i := by
            by_contra hlt
            exact hbelow i (Nat.lt_of_not_le hlt) hspec.2
          rcases readTurnWith_some cb {} hcount h hslot with
            ⟨st, now, _, hst, hothers, ⟨_, _, _, hdelivers⟩ | ⟨_, hwaits⟩⟩
          · rcases hone with ⟨f, hf⟩
            rw [hf]
            apply readLoop_finished
            rw [hdelivers]
            rfl
          · cases hwait : cb.waitDiscFn (D.query first i) now with
            | mk found now' =>
                rw [hwait] at hwaits
                cases found with
                | none =>
                    rcases hone with ⟨f, hf⟩
                    rw [hwaits, hf]
                    exact readLoop_finished f rfl
                | some path =>
                    rcases adoptPart_cases (r := r) hi (hright.supplied i now path now' hi hwait)
                        (slotZero_start hi hst) with ⟨_, _, hadopt, _⟩ | ⟨s, hadopt, hexact, hfd⟩
                    · rcases hone with ⟨f, hf⟩
                      rw [hwaits.trans hadopt, hf]
                      exact readLoop_finished f rfl
                    · have hr1 : r1 = { r with
                          stream := (closeOthers st i).setPart i s, now := now' + 2 } :=
                        hturn.symm.trans (hwaits.trans hadopt)
                      have hself : r1.stream.parts i = s := by
                        rw [hr1]
                        exact Function.update_self _ _ _
                      have hreading1 : r1.reading = some (x, count) := by
                        rw [hr1]
                        exact hreading
                      have hbelow1 : forall j, j < i -> ¬ InSlot (r1.stream.parts j) x := by
                        intro j hj hin
                        have hsame : r1.stream.parts j = { r.stream.parts j with fd := none } := by
                          rw [hr1, ← hothers j (Nat.ne_of_lt hj)]
                          show Function.update (closeOthers st i).parts i s j = _
                          rw [Function.update_of_ne (Nat.ne_of_lt hj)]
                          exact if_neg (Nat.ne_of_lt hj)
                        rw [hsame] at hin
                        exact findSlot_before hslot hj hin
                      rw [hturn]
                      by_cases hin : InSlot s x
                      · have hslot1 : findSlot r1.stream x = some i :=
                          findSlot_first (hslots.stream.parts_eq ▸ hi) (hself ▸ hin) hbelow1
                        have hfuel2 : exists f, fuel = f + 2 := ⟨fuel - 2, by omega⟩
                        rcases hfuel2 with ⟨f, hf⟩
                        rw [hf, readLoop, hreading1]
                        dsimp only
                        rcases readTurnWith_some cb {} hcount hslots hslot1 with
                          ⟨_, _, _, _, _, ⟨_, _, _, hdelivers⟩ | ⟨hclosed, _⟩⟩
                        · apply readLoop_finished
                          rw [hdelivers]
                          rfl
                        · rw [hself, hfd] at hclosed
                          cases hclosed
                      · have hbelow2 : forall j, j < i + 1 -> ¬ InSlot (r1.stream.parts j) x := by
                          intro j hj
                          cases Nat.lt_or_eq_of_le (Nat.le_of_lt_succ hj) with
                          | inl hlt => exact hbelow1 j hlt
                          | inr heq =>
                              rw [heq, hself]
                              exact hin
                        exact ih hslots hreading1 hbelow2 (by omega)

theorem virtualStreamRead_returns {first : Nat}
    (hright : RightParts drives env cb D initialPath first start) {x count : Nat} {r : StreamRun}
    (h : SlotsOk drives D deferred first r.now r.stream) :
    (virtualStreamReadWith drives cb (r.stream.totalParts + 2) r x count).isSome = true := by
  unfold virtualStreamReadWith
  split
  · rfl
  · rename_i hsome
    rw [h.stream.parts_eq]
    exact readLoop_returns (m := 0)
      (r := { r with reading := some (x, count), returned := none }) hright
      (Nat.pos_of_ne_zero (fun hzero => hsome (Or.inl hzero))) h rfl
      (fun j hj => absurd hj (Nat.not_lt_zero j)) (Nat.le_refl _)

/-- However the stream was read before, a read comes back after one turn for each part and
two more, with data or without. -/
def ReadsReturn (drives : Nat -> Drive) (env : FinderEnv) (cb : StreamCallbacks)
    (initialPath : String) (start : Nat) : Prop :=
  forall st opened tr r x count,
    virtualStreamOpenWith drives env cb initialPath start = Except.ok (st, opened) ->
      st.isMultipart = true ->
      Run (streamSystemWith drives cb) (fun _ _ => True)
        { stream := st, now := opened, reading := none, returned := none } tr r ->
      (virtualStreamReadWith drives cb (r.stream.totalParts + 2) r x count).isSome = true

/-- Where the next read starts, the slot holds the place. -/
theorem inSlot_atPlace {now x q : Nat} {st : VirtualStream} (hq : q < D.parts)
    (hlow : D.start q ≤ x) (hhigh : x < D.start (q + 1))
    (h : AtPlace drives D deferred now st x)
    (hreach : x = D.start q -> deferred q = true -> Reaches D deferred q) :
    InSlot (st.parts q) x := by
  rcases Nat.lt_or_eq_of_le hlow with hlt | heq
  · exact (inSlot_exact hq (h.behind q hq hlt)).mpr ⟨hlow, hhigh⟩
  · have hslot := h.ahead q hq (Nat.le_of_eq heq.symm)
    unfold SlotOpened at hslot
    split at hslot
    · rename_i hdeferred
      rw [← heq]
      exact (inSlot_deferred hq hslot).mpr (hreach heq.symm hdeferred)
    · exact (inSlot_exact hq hslot).mpr ⟨hlow, hhigh⟩

/-- One more read: the end is reached, or the slot of the place holds it and the
read goes through. -/
theorem sequentialReads_succ (hright : RightParts drives env cb D initialPath 0 start)
    (hsupply : AlwaysSupplies drives cb D 0) {r0 r : StreamRun} {counts : Nat -> Nat} {k x q : Nat}
    (hcount : 0 < counts k) (hk : sequentialReads drives cb r0 counts k = some (r, x))
    (h : AtPlace drives D deferred r.now r.stream x) (hq : q < D.parts) (hlow : D.start q ≤ x)
    (hhigh : x < D.start (q + 1))
    (hreach : x = D.start q -> deferred q = true -> Reaches D deferred q) :
    exists r' x', sequentialReads drives cb r0 counts (k + 1) = some (r', x') ∧ x < x' ∧
      x' ≤ D.start (q + 1) ∧ AtPlace drives D deferred r'.now r'.stream x' := by
  have hx : x < D.total := Nat.lt_of_lt_of_le hhigh (start_le_total D (q + 1))
  rcases read_inSlot hright hsupply hcount hq hlow hhigh h
      (inSlot_atPlace hq hlow hhigh h hreach) with ⟨r', hread, hreturned, hat⟩
  have hpos := requested_pos hx hcount
  have hlen : (pieceOf D q x (counts k)).length =
      min (requested D x (counts k)) (D.start (q + 1) - x) := rfl
  refine ⟨r', x + (pieceOf D q x (counts k)).length, ?_, by omega, by omega, hat⟩
  rw [sequentialReads, hk]
  dsimp only
  rw [h.slots.stream.total_eq, if_neg (Nat.not_le_of_lt hx), hread]
  dsimp only
  rw [hreturned]

theorem reaches_of_read (hright : RightParts drives env cb D initialPath 0 start)
    {r0 r : StreamRun} {counts : Nat -> Nat} {k q : Nat} (hcount : 0 < counts k)
    (hk : sequentialReads drives cb r0 counts k = some (r, D.start q))
    (hnext : (sequentialReads drives cb r0 counts (k + 1)).isSome = true)
    (h : AtPlace drives D deferred r.now r.stream (D.start q)) (hq : q < D.parts)
    (hdeferred : deferred q = true) : Reaches D deferred q := by
  have hlt : D.start q < D.total := by
    have hsucc := start_succ D hq
    have hpos := size_pos D hq
    have hle := start_le_total D (q + 1)
    omega
  rw [sequentialReads, hk] at hnext
  dsimp only at hnext
  rw [h.slots.stream.total_eq, if_neg (Nat.not_le_of_lt hlt)] at hnext
  cases hread : virtualStreamReadWith drives cb (r.stream.totalParts + 2) r (D.start q)
      (counts k) with
  | none =>
      rw [hread] at hnext
      cases hnext
  | some r' =>
      apply read_reaches hright hcount hq h hdeferred hread
      intro hnone
      rw [hread] at hnext
      dsimp only at hnext
      rw [hnone] at hnext
      cases hnext

/-- All the guesses reach: every read goes through. -/
theorem sequentialReads_ok (hright : RightParts drives env cb D initialPath 0 start)
    (hsupply : AlwaysSupplies drives cb D 0) (r0 : StreamRun) {counts : Nat -> Nat}
    (hcounts : forall k, 0 < counts k) (hinit : AtPlace drives D deferred r0.now r0.stream 0)
    (hreach : forall q, q < D.parts -> deferred q = true -> Reaches D deferred q) (k : Nat) :
    exists r x, sequentialReads drives cb r0 counts k = some (r, x) ∧
      AtPlace drives D deferred r.now r.stream x := by
  induction k with
  | zero => exact ⟨r0, 0, rfl, hinit⟩
  | succ k ih =>
      rcases ih with ⟨r, x, hk, hat⟩
      cases Nat.lt_or_ge x D.total with
      | inl hlt =>
          rcases slice_of D hlt with ⟨q, hq, hlow, hhigh⟩
          rcases sequentialReads_succ hright hsupply (hcounts k) hk hat hq hlow hhigh
              (fun _ => hreach q hq) with ⟨r', x', hnext, _, _, hat'⟩
          exact ⟨r', x', hnext, hat'⟩
      | inr hge =>
          refine ⟨r, x, ?_, hat⟩
          rw [sequentialReads, hk]
          dsimp only
          rw [hat.slots.stream.total_eq, if_pos hge]

/-- Reads that go through reach every start of a slice, with no slot ahead of
them touched. -/
theorem reaches_of_reads (hright : RightParts drives env cb D initialPath 0 start)
    (hsupply : AlwaysSupplies drives cb D 0) {r0 : StreamRun} {counts : Nat -> Nat}
    (hcounts : forall k, 0 < counts k)
    (hall : forall k, (sequentialReads drives cb r0 counts k).isSome = true) {q : Nat}
    (hq : q < D.parts) (hdeferred : deferred q = true) {n k x : Nat} {r : StreamRun}
    (hk : sequentialReads drives cb r0 counts k = some (r, x))
    (hat : AtPlace drives D deferred r.now r.stream x) (hn : D.start q = x + n) :
    Reaches D deferred q := by
  induction n using Nat.strong_induction_on generalizing k x r with
  | _ n ih =>
      cases Nat.eq_zero_or_pos n with
      | inl hzero =>
          rw [hzero, Nat.add_zero] at hn
          rw [← hn] at hk hat
          exact reaches_of_read hright (hcounts k) hk (hall (k + 1)) hat hq hdeferred
      | inr hpos =>
          have hx : x < D.total := by
            have hle := start_le_total D q
            omega
          rcases slice_of D hx with ⟨p, hp, hlow, hhigh⟩
          have hpq : D.start (p + 1) ≤ D.start q := by
            apply start_mono D _ (Nat.le_of_lt hq)
            by_contra hle
            have hmono : D.start q ≤ D.start p := start_mono D (by omega) (Nat.le_of_lt hp)
            omega
          have hreach : x = D.start p -> deferred p = true -> Reaches D deferred p := by
            intro hstart hp'
            rw [hstart] at hk hat
            exact reaches_of_read hright (hcounts k) hk (hall (k + 1)) hat hp hp'
          rcases sequentialReads_succ hright hsupply (hcounts k) hk hat hp hlow hhigh hreach with
            ⟨r', x', hnext, hmore, hend, hat'⟩
          exact ih (D.start q - x') (by omega) hnext hat' (by omega)

end Reading

/-- Reading from the beginning goes through, for all sizes of the reads, if and
only if the guessed slots hold the starts of their slices. -/
theorem virtualStreamRead_toTheEnd_iff {drives : Nat -> Drive} {env : FinderEnv}
    {cb : StreamCallbacks} {D : Division} {initialPath : String} {start : Nat}
    (hright : RightParts drives env cb D initialPath 0 start)
    (hsupply : AlwaysSupplies drives cb D 0) {st : VirtualStream} {opened : Nat}
    (hopen : virtualStreamOpenWith drives env cb initialPath start = Except.ok (st, opened))
    (hmulti : st.isMultipart = true) :
    ReadsToTheEnd drives cb st opened <->
      GuessesReach D (deferredAtOpen drives env cb D initialPath 0 start) := by
  have hopened := (virtualStreamOpenWith_opened hright hopen hmulti).2
  have hinit : AtPlace drives D (deferredAtOpen drives env cb D initialPath 0 start) opened st 0 :=
    ⟨slotsOk_of_opened hopened, fun i _ hi => absurd hi (Nat.not_lt_zero _),
      fun i hi _ => hopened.done i hi⟩
  have hzero : deferredAtOpen drives env cb D initialPath 0 start 0 = false := by
    unfold deferredAtOpen locatePartWith
    rw [if_pos (show (D.query 0 0).partIndex = 0 + 1 from rfl)]
    rfl
  rw [guessesReach_iff hzero]
  constructor
  · intro hall q hq hdeferred
    have hone : forall k, 0 < (fun _ : Nat => 1) k := fun _ => Nat.one_pos
    exact reaches_of_reads hright hsupply hone (hall _ hone) hq hdeferred (k := 0) rfl hinit
      (Nat.zero_add _).symm
  · intro hreach counts hcounts k
    rcases sequentialReads_ok hright hsupply
        { stream := st, now := opened, reading := none, returned := none } hcounts hinit hreach k with ⟨r, x, hk, _⟩
    rw [hk]
    rfl

/-!
# Two packages on a shelf
-/

theorem shelf_supplies (D : Division) (deferred : Nat -> Bool) (first : Nat) :
    AlwaysSupplies (shelf D) (shelfCallbacks deferred) D first := by
  intro i now hi
  refine ⟨shelfPath i, now, rfl, ?_, ?_⟩
  · rw [shelf_header hi]
    rfl
  · rw [shelf_file hi]
    rfl

/-- Slices of two, two and one bytes. -/
def evenSlices : Division :=
  divide [[1, 2], [3, 4], [5]] (by decide) (by decide) (by decide)

/-- The second and the third part come from the waiter, and the package is read
to the end. -/
theorem virtualStreamRead_toTheEnd_evenSlices :
    exists st opened,
      virtualStreamOpenWith (shelf evenSlices) {} (shelfCallbacks (fun _ => true)) (shelfPath 0) 0 =
        Except.ok (st, opened) ∧
      ReadsToTheEnd (shelf evenSlices) (shelfCallbacks (fun _ => true)) st opened := by
  have hmulti : (virtualStreamOpenWith (shelf evenSlices) {} (shelfCallbacks (fun _ => true))
      (shelfPath 0) 0).toOption.map (fun opened => opened.1.isMultipart) = some true := by
    decide
  cases hopen : virtualStreamOpenWith (shelf evenSlices) {} (shelfCallbacks (fun _ => true))
      (shelfPath 0) 0 with
  | error e =>
      rw [hopen] at hmulti
      cases hmulti
  | ok opened =>
      rw [hopen] at hmulti
      rcases opened with ⟨st, opened⟩
      refine ⟨st, opened, rfl, ?_⟩
      rw [virtualStreamRead_toTheEnd_iff (shelf_rightParts _ (by decide) 0)
        (shelf_supplies _ _ 0) hopen (Option.some.inj hmulti)]
      have hsizes : forall i, i < 2 -> evenSlices.size i = evenSlices.size 0 := by decide
      exact guessesReach_of_equal (fun i hi => hsizes i (Nat.lt_of_succ_lt_succ hi)) _

/-- Slices of two, one and one bytes: the guess for the third part is behind the
start of its slice. -/
def shortSlice : Division :=
  divide [[1, 2], [3], [4]] (by decide) (by decide) (by decide)

/-- The second and the third part are deferred, the waiter has them, and the read
of the first byte of the third slice fails. -/
theorem virtualStreamRead_shortSlice_fails :
    exists st opened,
      virtualStreamOpenWith (shelf shortSlice) {} (shelfCallbacks (fun _ => true)) (shelfPath 0) 0 =
        Except.ok (st, opened) ∧
      RightParts (shelf shortSlice) {} (shelfCallbacks (fun _ => true)) shortSlice (shelfPath 0) 0
        0 ∧
      AlwaysSupplies (shelf shortSlice) (shelfCallbacks (fun _ => true)) shortSlice 0 ∧
      ¬ ReadsToTheEnd (shelf shortSlice) (shelfCallbacks (fun _ => true)) st opened := by
  have hfails : (virtualStreamOpenWith (shelf shortSlice) {} (shelfCallbacks (fun _ => true))
      (shelfPath 0) 0).toOption.map (fun opened =>
        (sequentialReads (shelf shortSlice) (shelfCallbacks (fun _ => true))
          { stream := opened.1, now := opened.2, reading := none, returned := none }
          (fun _ => 2) 3).isSome) = some false := by
    decide
  cases hopen : virtualStreamOpenWith (shelf shortSlice) {} (shelfCallbacks (fun _ => true))
      (shelfPath 0) 0 with
  | error e =>
      rw [hopen] at hfails
      cases hfails
  | ok opened =>
      rw [hopen] at hfails
      rcases opened with ⟨st, opened⟩
      refine ⟨st, opened, rfl, shelf_rightParts _ (by decide) 0, shelf_supplies _ _ 0, ?_⟩
      intro hall
      have hthird := hall (fun _ => 2) (fun _ => Nat.two_pos) 3
      cases hthird.symm.trans (Option.some.inj hfails)

end Multipart
end PkgManager
