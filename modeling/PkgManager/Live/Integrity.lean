import PkgManager.Live.Threads

/-!
# Integrity of the live session

In every run on one session, a read returns at each position of its range the
byte of the last segment that was stored there.
-/

namespace PkgManager
namespace Live

open WriteLog
open Transition

/-!
# One section
-/

theorem wsLiveCreate_inactive {lv : LiveState} {env : CreateEnv} {filename : String}
    {totalSize : Nat} {ringMb : Int} (hidle : lv.active = false)
    (htotal : totalSize ≤ maxTotal)
    (hnow : (wsLiveCreate lv env filename totalSize ringMb).1.active = true) :
    Consistent (wsLiveCreate lv env filename totalSize ringMb).1 ∧
      (wsLiveCreate lv env filename totalSize ringMb).1.freePending = false := by
  unfold wsLiveCreate at hnow ⊢
  rw [hidle] at hnow ⊢
  dsimp only at hnow ⊢
  split at hnow
  · rw [hidle] at hnow
    cases hnow
  · split at hnow
    · rw [hidle] at hnow
      cases hnow
    · rename_i hname hbase
      rw [if_neg hname, if_neg hbase, if_neg (by decide)]
      rw [if_neg (by decide)] at hnow
      split at hnow
      · rw [hidle] at hnow
        cases hnow
      · rename_i hrefs
        rw [if_neg hrefs]
        split at hnow
        · rw [hidle] at hnow
          cases hnow
        · rename_i halloc
          rw [if_neg halloc]
          refine ⟨?_, rfl⟩
          constructor
          · exact htotal
          · change u64 (totalSize + segSize - 1) / segSize = (totalSize + segSize - 1) / segSize
            rw [u64_of_lt]
            unfold maxTotal at htotal
            unfold segSize
            omega
          · intro s hs
            change (0 : Int) ≤ -1 at hs
            omega
          · intro s
            change false = true ↔ (0 : Int) ≤ -1
            decide
          · intro s i hs
            change false = true at hs
            cases hs

theorem wsLiveCreate_active {lv : LiveState} {env : CreateEnv} {filename : String}
    {totalSize : Nat} {ringMb : Int} (hactive : lv.active = true) :
    (wsLiveCreate lv env filename totalSize ringMb).1 = lv := by
  unfold wsLiveCreate
  rw [hactive]
  dsimp only
  split
  · rfl
  · split
    · rfl
    · rw [if_pos rfl]
      split <;> rfl

theorem sameCache_finish (lv : LiveState) : SameCache lv (wsLiveFinish lv).1 := by
  unfold wsLiveFinish
  split
  · exact sameCache_refl lv
  · constructor <;> rfl

theorem sameCache_attach (lv : LiveState) : SameCache lv (wsLiveAttach lv).1 := by
  unfold wsLiveAttach
  split
  · exact sameCache_refl lv
  · constructor <;> rfl

theorem sameCache_abort (lv : LiveState) : SameCache lv (wsLiveAbort lv) := by
  unfold wsLiveAbort
  split
  · constructor <;> rfl
  · exact sameCache_refl lv

theorem sameCache_detach {lv : LiveState} (hfree : lv.freePending = false) :
    SameCache lv (wsLiveDetach lv) := by
  unfold wsLiveDetach
  generalize hdrop : (if lv.refs > 0 then { lv with refs := lv.refs - 1 } else lv) = dropped
  have hsame : SameCache lv dropped := by
    rw [← hdrop]
    split
    · constructor <;> rfl
    · exact sameCache_refl lv
  have hpending : dropped.freePending = false := hsame.freePending.trans hfree
  dsimp only
  rw [if_neg (by simp [hpending])]
  exact hsame

/-- A section that leaves the cache alone. -/
theorem goodSession_of_same {w : LiveWorld} (hw : GoodSession w) {lv : LiveState}
    (h : SameCache w.lv lv) :
    GoodSession { w with lv := lv } ∧ Continues w.lv lv := by
  constructor
  · intro hnow
    have hactive : w.lv.active = true := h.active ▸ hnow
    exact ⟨consistent_of_same h (hw hactive).1, h.freePending.trans (hw hactive).2⟩
  · intro hactive
    exact ⟨h.active.trans hactive, h.total⟩

theorem wsLiveDetach_inactive {lv : LiveState} (hidle : lv.active = false) :
    (wsLiveDetach lv).active = false := by
  unfold wsLiveDetach
  generalize hdrop : (if lv.refs > 0 then { lv with refs := lv.refs - 1 } else lv) = dropped
  have hdropped : dropped.active = false := by
    rw [← hdrop]
    split <;> exact hidle
  dsimp only
  split <;> exact hdropped

theorem goodSession_of_inactive {w : LiveWorld} {lv : LiveState}
    (hidle : w.lv.active = false) (hnow : lv.active = false) :
    GoodSession { w with lv := lv } ∧ Continues w.lv lv := by
  constructor
  · intro h
    exact absurd h (by rw [hnow]; decide)
  · intro h
    exact absurd h (by rw [hidle]; decide)

theorem goodStep_read {w : LiveWorld} (hw : GoodSession w) (off count now : Nat)
    (buf : Nat -> UInt8) :
    GoodStep w (afterRead w off count (wsLiveRead w.lv off count now buf)) := by
  have hstop : forall r : Int, r ≤ 0 ->
      GoodStep w (afterRead w off count (w.lv, ReadEnd.returned r buf)) := by
    intro r hr
    have hgood := goodSession_of_same hw (sameCache_refl w.lv)
    refine ⟨hgood.1, hgood.2, trivial, rfl, ?_⟩
    intro off' count' n' dst' hpoint
    cases hpoint
    intro hpos
    omega
  unfold wsLiveRead
  split
  · exact hstop 0 (by decide)
  · split
    · exact hstop (-1) (by decide)
    · rename_i hactive
      have hactive : w.lv.active = true := by simpa using hactive
      split
      · exact hstop 0 (by decide)
      · rename_i hoff
        generalize hcut : (if count > w.lv.total - off then w.lv.total - off else count) = cut
        have hcount : cut = min count (w.lv.total - off) := by
          split at hcut <;> omega
        have hpending : Pending w.lv
            { off := off, count := cut, got := 0, dst := buf,
              readStart := off, servedEnd := off + cut } := by
          refine ⟨rfl, ?_⟩
          dsimp only
          omega
        have hreader := ReaderOk.mk hactive hpending rfl hcount
        exact goodStep_afterRead hw hreader (fun hres => peeked_readLoop hres) (fun hres =>
          readLoop_spec (backed_of_consistent (hw hactive).1) hpending hres)

theorem goodStep_section {p : Pool LiveWorld LivePoint} {t : Nat} {x : LivePoint}
    {a : LiveAnswer} {o : Section LiveWorld LivePoint}
    (hw : GoodSession p.shared) (hx : GoodPoint p.shared x)
    (hstep : liveProgram.step p t x a = some o) : GoodStep p.shared o := by
  change liveStep p t x a = some o at hstep
  cases x with
  | enter c =>
      cases hstep
      cases c with
      | create env filename totalSize ringMb =>
          apply goodStep_returned
          cases hactive : p.shared.lv.active with
          | false =>
              constructor
              · intro hnow
                exact wsLiveCreate_inactive hactive (hx.2 env filename totalSize ringMb rfl) hnow
              · intro hnow
                rw [hactive] at hnow
                cases hnow
          | true =>
              rw [wsLiveCreate_active hactive]
              exact goodSession_of_same hw (sameCache_refl p.shared.lv)
      | write m =>
          apply goodStep_afterWrite hw
          · intro lv e hactive hres
            exact wsLiveWrite_kept (hw hactive).1 hres
          · intro hidle
            unfold wsLiveWrite
            rw [if_pos (by simp [hidle])]
      | tryWrite m =>
          apply goodStep_returned
          apply goodSession_of_kept _ hw
          · intro hactive
            exact wsLiveTryWrite_kept (hw hactive).1 rfl
          · intro hidle
            have hres : wsLiveTryWrite p.shared.lv m = (p.shared.lv, -1) := by
              unfold wsLiveTryWrite
              rw [if_pos (by simp [hidle])]
            exact congrArg Prod.fst hres
      | read off count buf => exact goodStep_read hw off count a.now buf
      | finish => exact goodStep_returned (goodSession_of_same hw (sameCache_finish _))
      | attach => exact goodStep_returned (goodSession_of_same hw (sameCache_attach _))
      | detach =>
          apply goodStep_returned
          cases hactive : p.shared.lv.active with
          | false => exact goodSession_of_inactive hactive (wsLiveDetach_inactive hactive)
          | true => exact goodSession_of_same hw (sameCache_detach (hw hactive).2)
      | abort => exact goodStep_returned (goodSession_of_same hw (sameCache_abort _))
      | destroy => exact absurd rfl hx.1
  | writeBlocked m left seg =>
      cases hstep
      split
      · exact goodStep_returned (goodSession_of_same hw (sameCache_refl p.shared.lv))
      · apply goodStep_afterWrite hw
        · intro lv e _ hres
          exact writeLoop_kept hx.2 (hw hx.1).1 hres
        · intro hidle
          rw [hx.1] at hidle
          cases hidle
  | readRescan off count rc => exact absurd hx id
  | readSeeking off count rc needSeg =>
      cases hstep
      exact goodStep_afterRead hw hx (fun hres => peeked_readAfterSeek hres) (fun hres =>
        readAfterSeek_spec (backed_of_consistent (hw hx.active).1) hx.pending hres)
  | readWaiting off count rc needSeg =>
      cases hstep
      exact goodStep_afterRead hw hx (fun hres => peeked_readAfterWait hres) (fun hres =>
        readAfterWait_spec (backed_of_consistent (hw hx.active).1) hx.pending hres)
  | readReturned off count n dst => cases hstep
  | returned c r => cases hstep

/-!
# Runs
-/

/-- The calls of a run on one session: the session is not torn down, and it is
not larger than the segment numbers allow. -/
def OneSession (_p : Pool LiveWorld LivePoint) : Move LiveCall LiveAnswer -> Prop
  | Move.call (LiveCall.create _ _ totalSize _) => totalSize ≤ maxTotal
  | Move.call LiveCall.destroy => False
  | _ => True

instance (p : Pool LiveWorld LivePoint) (l : Move LiveCall LiveAnswer) :
    Decidable (OneSession p l) := by
  unfold OneSession
  split <;> infer_instance

/-- No session and no thread yet; any values may be left from earlier ones. -/
def Idle (p : Pool LiveWorld LivePoint) : Prop :=
  p.shared.lv.active = false ∧ p.threads = []

def GoodPool : Pool LiveWorld LivePoint -> Prop :=
  PoolInv GoodSession GoodPoint

theorem goodPool_of_idle {p : Pool LiveWorld LivePoint} (h : Idle p) : GoodPool p := by
  constructor
  · intro hactive
    rw [h.1] at hactive
    cases hactive
  · intro x hx
    rw [h.2] at hx
    cases hx

theorem goodPoint_entry {p : Pool LiveWorld LivePoint} {c : LiveCall}
    (hok : OneSession p (Move.call c)) : GoodPoint p.shared (LivePoint.enter c) := by
  constructor
  · intro heq
    rw [heq] at hok
    exact hok
  · intro env filename totalSize ringMb heq
    rw [heq] at hok
    exact hok

theorem goodPool_next {p q : Pool LiveWorld LivePoint} {l : Move LiveCall LiveAnswer}
    (hinv : GoodPool p) (hok : OneSession p l) (hnext : liveProgram.system.next p l = some q) :
    GoodPool q := by
  refine poolInv_next ?_ ?_ ?_ hinv hnext
  · intro c hl
    rw [hl] at hok
    exact goodPoint_entry hok
  · intro t point a o _ hpoint hstep
    have hgood := goodStep_section hinv.shared
      (hinv.threads point (List.mem_of_getElem? hpoint)) hstep
    refine ⟨hgood.session, hgood.point, ?_⟩
    intro x hx
    rw [hgood.created] at hx
    cases hx
  · intro t point a o x _ hpoint hstep _ hx
    have hgood := goodStep_section hinv.shared
      (hinv.threads point (List.mem_of_getElem? hpoint)) hstep
    exact goodPoint_of_continues hgood.continues hx

theorem goodPool_run {p q : Pool LiveWorld LivePoint}
    {tr : List (Pool LiveWorld LivePoint × Move LiveCall LiveAnswer)}
    (hidle : Idle p) (hrun : Run liveProgram.system OneSession p tr q) : GoodPool q :=
  run_invariant (fun hinv hok hnext => goodPool_next hinv hok hnext) hrun
    (goodPool_of_idle hidle)

/-- Every read of a run that returns data returns all of its range, and the
bytes that a log of writes has there. -/
def ReadsAgree (ok : Pool LiveWorld LivePoint -> Move LiveCall LiveAnswer -> Prop)
    (log : LiveWorld -> List (Write UInt8)) (p : Pool LiveWorld LivePoint) : Prop :=
  forall tr q t a q' off count n dst,
    Run liveProgram.system ok p tr q ->
      liveProgram.system.next q (Move.run t a) = some q' ->
      q'.threads[t]? = some (LivePoint.readReturned off count n dst) -> 0 < n ->
      n = min count (q.shared.lv.total - off) ∧
        forall i : Nat, i < min count (q.shared.lv.total - off) ->
          latest (log q.shared) (off + i) = some (dst i)

theorem wsLiveRead_returns_stored {p : Pool LiveWorld LivePoint} (hidle : Idle p) :
    ReadsAgree OneSession (fun w => w.lv.stored) p := by
  intro tr q t a q' off count n dst hrun hnext hpoint hpos
  have hinv := goodPool_run hidle hrun
  rcases next_run hnext with ⟨x, o, hx, hstep, hq'⟩
  have hgood := goodStep_section hinv.shared
    (hinv.threads x (List.mem_of_getElem? hx)) hstep
  rw [hq', getElem?_after_self hx] at hpoint
  exact hgood.read off count n dst (Option.some.inj hpoint) hpos

/-!
# Concrete runs
-/

def emptyLive : LiveState where
  active := false
  uploadComplete := false
  aborted := false
  refs := 0
  freePending := false
  sessionId := ""
  filename := ""
  total := 0
  nsegs := 0
  present := fun _ => false
  slotOf := fun _ => -1
  slots := fun _ _ => 0
  nslots := 0
  lastUse := fun _ => 0
  slotRead := fun _ => false
  slotSeg := fun _ => -1
  waiters := fun _ => 0
  ackedEver := fun _ => false
  seekSent := fun _ => 0
  presentCount := 0
  served := 0
  runHi := 0
  peakSeg := 0
  tick := 0
  seekFn := true
  slotsCfg := 256
  stored := []

def emptyPool : Pool LiveWorld LivePoint where
  shared := { lv := emptyLive, accepted := [] }
  threads := []

def createSegs (totalSize : Nat) : LiveCall :=
  LiveCall.create {} "game.pkg" totalSize 4

/-- A message of whole segments filled with one byte. -/
def fillMessage (seg segs : Nat) (byte : UInt8) : Message where
  offset := segSize * seg
  len := segSize * segs
  data := fun _ => byte

/-- One call after the other, each with one section. -/
def oneByOne : Nat -> List LiveCall -> List (Move LiveCall LiveAnswer)
  | _, [] => []
  | t, c :: cs => Move.call c :: Move.run t {} :: oneByOne (t + 1) cs

/-- What a read is about to return first, beside the log's byte there. -/
def observeRead (log : LiveWorld -> List (Write UInt8)) (t : Nat)
    (q : Pool LiveWorld LivePoint) : Option (Int × Nat × UInt8 × Option UInt8) :=
  match liveProgram.system.next q (Move.run t {}) with
  | none => none
  | some q' =>
      match q'.threads[t]? with
      | some (LivePoint.readReturned off _ n dst) =>
          some (n, off, dst 0, latest (log q.shared) off)
      | _ => none

theorem observeRead_some {log : LiveWorld -> List (Write UInt8)} {t : Nat}
    {q : Pool LiveWorld LivePoint} {n : Int} {off : Nat} {byte : UInt8} {b : Option UInt8}
    (h : observeRead log t q = some (n, off, byte, b)) :
    exists q' count dst, liveProgram.system.next q (Move.run t {}) = some q' ∧
      q'.threads[t]? = some (LivePoint.readReturned off count n dst) ∧ byte = dst 0 ∧
      b = latest (log q.shared) off := by
  unfold observeRead at h
  cases hnext : liveProgram.system.next q (Move.run t {}) with
  | none =>
      rw [hnext] at h
      cases h
  | some q' =>
      rw [hnext] at h
      dsimp only at h
      split at h
      · rename_i hpoint
        cases h
        exact ⟨q', _, _, rfl, hpoint, rfl, rfl⟩
      · cases h

/-- A run that ends just before a read returns data. -/
theorem observed_run {ok : Pool LiveWorld LivePoint -> Move LiveCall LiveAnswer -> Prop}
    [forall p l, Decidable (ok p l)] {log : LiveWorld -> List (Write UInt8)} {t : Nat}
    {ls : List (Move LiveCall LiveAnswer)} {n : Int} {off : Nat} {byte : UInt8}
    {b : Option UInt8}
    (h : (execWhile liveProgram.system ok emptyPool ls).bind (observeRead log t) =
      some (n, off, byte, b)) :
    exists tr q q' count dst, Run liveProgram.system ok emptyPool tr q ∧
      liveProgram.system.next q (Move.run t {}) = some q' ∧
      q'.threads[t]? = some (LivePoint.readReturned off count n dst) ∧ byte = dst 0 ∧
      b = latest (log q.shared) off := by
  rcases Option.bind_eq_some_iff.mp h with ⟨q, hexec, hobs⟩
  rcases run_of_execWhile hexec with ⟨tr, _, hrun⟩
  rcases observeRead_some hobs with ⟨q', count, dst, hnext, hpoint, hbyte, hlog⟩
  exact ⟨tr, q, q', count, dst, hrun, hnext, hpoint, hbyte, hlog⟩

theorem not_readsAgree {ok : Pool LiveWorld LivePoint -> Move LiveCall LiveAnswer -> Prop}
    [forall p l, Decidable (ok p l)] {log : LiveWorld -> List (Write UInt8)} {t : Nat}
    {ls : List (Move LiveCall LiveAnswer)} {n : Int} {off : Nat} {byte b : UInt8}
    (h : (execWhile liveProgram.system ok emptyPool ls).bind (observeRead log t) =
      some (n, off, byte, some b))
    (hpos : 0 < n) (hne : b ≠ byte) : ¬ ReadsAgree ok log emptyPool := by
  intro hagree
  rcases observed_run h with ⟨tr, q, q', count, dst, hrun, hnext, hpoint, hbyte, hlog⟩
  rcases hagree tr q t {} q' off count n dst hrun hnext hpoint hpos with ⟨hn, hbytes⟩
  have hfirst := hbytes 0 (by omega)
  rw [Nat.add_zero, ← hlog, ← hbyte] at hfirst
  exact hne (Option.some.inj hfirst)

theorem wsLiveRead_returns_stored_example :
    exists tr q q' count n dst, Run liveProgram.system OneSession emptyPool tr q ∧
      liveProgram.system.next q (Move.run 2 {}) = some q' ∧
      q'.threads[2]? = some (LivePoint.readReturned (segSize * 2) count n dst) ∧
      n = min count (q.shared.lv.total - segSize * 2) ∧
      forall i : Nat, i < min count (q.shared.lv.total - segSize * 2) ->
        latest q.shared.lv.stored (segSize * 2 + i) = some (dst i) := by
  have hobs : (execWhile liveProgram.system OneSession emptyPool
      (oneByOne 0 [createSegs (segSize * 8), LiveCall.tryWrite (fillMessage 2 1 65)] ++
        [Move.call (LiveCall.read (segSize * 2) 3 (fun _ => 0))])).bind
      (observeRead (fun w => w.lv.stored) 2) = some (3, segSize * 2, 65, some 65) := by
    decide
  rcases observed_run hobs with ⟨tr, q, q', count, dst, hrun, hnext, hpoint, _, _⟩
  have hidle : Idle emptyPool := ⟨rfl, rfl⟩
  exact ⟨tr, q, q', count, 3, dst, hrun, hnext, hpoint,
    wsLiveRead_returns_stored hidle tr q 2 {} q' (segSize * 2) count 3 dst hrun hnext hpoint
      (by decide)⟩

/-- The calls of a run on one session, of any size. -/
def SessionCalls (_p : Pool LiveWorld LivePoint) : Move LiveCall LiveAnswer -> Prop
  | Move.call LiveCall.abort => False
  | Move.call LiveCall.destroy => False
  | _ => True

instance (p : Pool LiveWorld LivePoint) (l : Move LiveCall LiveAnswer) :
    Decidable (SessionCalls p l) := by
  unfold SessionCalls
  split <;> infer_instance

/-- A write that is answered busy has stored its first segments; and with more
segments than an {lit}`int` can number, a slot in use looks free. -/
theorem wsLiveRead_not_accepted :
    ¬ ReadsAgree SessionCalls (fun w => w.accepted) emptyPool ∧
      ¬ ReadsAgree SessionCalls (fun w => w.lv.stored) emptyPool := by
  constructor
  · have hobs : (execWhile liveProgram.system SessionCalls emptyPool
        (oneByOne 0 [createSegs (segSize * 8), LiveCall.tryWrite (fillMessage 0 1 65),
            LiveCall.tryWrite (fillMessage 1 1 65), LiveCall.tryWrite (fillMessage 2 1 65),
            LiveCall.tryWrite (fillMessage 3 1 65), LiveCall.tryWrite (fillMessage 3 2 66)] ++
          [Move.call (LiveCall.read (segSize * 3) 1 (fun _ => 0))])).bind
        (observeRead (fun w => w.accepted) 6) = some (1, segSize * 3, 66, some 65) := by
      decide
    exact not_readsAgree hobs (by decide) (by decide)
  · have hobs : (execWhile liveProgram.system SessionCalls emptyPool
        (oneByOne 0 [createSegs (2 ^ 51 + segSize),
            LiveCall.tryWrite (fillMessage (2 ^ 31) 1 65),
            LiveCall.tryWrite (fillMessage 0 1 66)] ++
          [Move.call (LiveCall.read (2 ^ 51) 1 (fun _ => 0))])).bind
        (observeRead (fun w => w.lv.stored) 3) = some (1, 2 ^ 51, 66, some 65) := by
      decide
    exact not_readsAgree hobs (by decide) (by decide)

end Live
end PkgManager
