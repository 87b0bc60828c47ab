import PkgManager.Live.Read

/-!
# Where the bytes of a session come from

Whatever the size of the file, a byte in the slot of a resident segment was
stored in this session, at the same place of some segment.  That it is the last
byte stored at its own position needs segment numbers that fit an {lit}`int`.
-/

namespace PkgManager
namespace Live

open WriteLog

/-- Some write of the log has the byte at the position's place in a segment. -/
def WrittenIn (log : List (Write UInt8)) (p : Nat) (b : UInt8) : Prop :=
  exists w q, w ∈ log ∧ w.Covers q ∧ q % segSize = p % segSize ∧ w.data (q - w.start) = b

theorem writtenIn_cons {log : List (Write UInt8)} {p : Nat} {b : UInt8} (w : Write UInt8)
    (h : WrittenIn log p b) : WrittenIn (w :: log) p b := by
  rcases h with ⟨w', q, hmem, hcov, hplace, hbyte⟩
  exact ⟨w', q, List.mem_cons_of_mem w hmem, hcov, hplace, hbyte⟩

/-- The bytes of the resident segments were stored in the session. -/
def Traced (lv : LiveState) : Prop :=
  Backed (WrittenIn lv.stored) lv

theorem traced_of_same {lv lv' : LiveState} (h : SameCache lv lv') (ht : Traced lv) :
    Traced lv' := by
  unfold Traced
  rw [h.stored]
  exact backed_of_same h ht

/-!
# The session under a store
-/

theorem sameSession_assignSlot (lv : LiveState) (seg slot : Nat) :
    SameSession lv (assignSlot lv seg slot) := by
  unfold assignSlot
  split
  · constructor <;> rfl
  · exact sameSession_refl lv

theorem sameSession_evictSlot (lv : LiveState) (oldestSeg slot : Nat) :
    SameSession lv (evictSlot lv oldestSeg slot) := by
  constructor <;> rfl

theorem sameSession_allocSlotLocked {lv lv' : LiveState} {seg : Nat} {r : Int}
    (h : allocSlotLocked lv seg = (lv', r)) : SameSession lv lv' := by
  unfold allocSlotLocked at h
  split at h
  · cases h
    exact sameSession_refl _
  · split at h
    · cases h
      exact sameSession_assignSlot lv seg _
    · dsimp only at h
      split at h
      · cases h
        exact sameSession_refl _
      · cases h
        exact sameSession_trans (sameSession_evictSlot lv _ _) (sameSession_assignSlot _ seg _)

theorem sameSession_storeSegLocked {lv lv' : LiveState} {seg : Nat} {m : Message} {r : Int}
    (h : storeSegLocked lv seg m = (lv', r)) : SameSession lv lv' := by
  unfold storeSegLocked at h
  dsimp only at h
  generalize (if m.offset > u64 (segSize * seg) then m.offset else u64 (segSize * seg)) = wStart
    at h
  generalize (if u64 (m.offset + m.len) < u64 (u64 (segSize * seg) + segLenLocked lv seg)
    then u64 (m.offset + m.len) else u64 (u64 (segSize * seg) + segLenLocked lv seg)) = wEnd at h
  cases halloc : allocSlotLocked lv seg with
  | mk mid slot =>
      have hmid := sameSession_allocSlotLocked halloc
      rw [halloc] at h
      dsimp only at h
      split at h
      · cases h
        exact sameSession_refl _
      · split at h
        · cases h
          exact sameSession_refl _
        · split at h
          · cases h
            exact hmid
          · cases h
            refine sameSession_trans hmid ?_
            constructor <;> rfl

/-!
# The session under the other calls
-/

/-- An active session is the same session as before. -/
def Carried (lv lv' : LiveState) : Prop :=
  lv'.active = true -> lv.active = true ∧ lv'.sessionId = lv.sessionId ∧ lv'.total = lv.total

theorem carried_refl (lv : LiveState) : Carried lv lv :=
  fun hactive => ⟨hactive, rfl, rfl⟩

theorem carried_of_session {lv lv' : LiveState} (h : SameSession lv lv') : Carried lv lv' := by
  intro hactive
  exact ⟨h.active ▸ hactive, h.sessionId, h.total⟩

theorem sameSession_tryWrite {lv lv' : LiveState} {m : Message} {r : Int}
    (h : wsLiveTryWrite lv m = (lv', r)) : SameSession lv lv' := by
  refine wsLiveTryWrite_invariant ?_ (sameSession_refl lv) h
  intro s mid mid' r' _ hmid hstore
  exact sameSession_trans hmid (sameSession_storeSegLocked hstore)

theorem sameSession_finish (lv : LiveState) : SameSession lv (wsLiveFinish lv).1 := by
  unfold wsLiveFinish
  split
  · exact sameSession_refl lv
  · constructor <;> rfl

theorem wsLiveAbort_cases (lv : LiveState) :
    wsLiveAbort lv = lv ∨ (lv.active = true ∧ wsLiveAbort lv = { lv with aborted := true }) := by
  unfold wsLiveAbort
  split
  · rename_i hgo
    rw [Bool.and_eq_true] at hgo
    exact Or.inr ⟨hgo.1, rfl⟩
  · exact Or.inl rfl

theorem carried_abort (lv : LiveState) : Carried lv (wsLiveAbort lv) := by
  rcases wsLiveAbort_cases lv with heq | ⟨hactive, heq⟩
  · rw [heq]
    exact carried_refl lv
  · rw [heq]
    exact fun _ => ⟨hactive, rfl, rfl⟩

theorem wsLiveDestroy_refs (lv : LiveState) : (wsLiveDestroy lv).refs = lv.refs := by
  unfold wsLiveDestroy
  split
  · rfl
  · dsimp only
    split <;> rfl

/-- After a teardown no session is active, and the waiting threads are told. -/
theorem wsLiveDestroy_down (lv : LiveState) :
    (wsLiveDestroy lv).active = false ∧ (lv.active = true -> (wsLiveDestroy lv).aborted = true) := by
  unfold wsLiveDestroy
  split
  · rename_i hidle
    have hidle : lv.active = false := by simpa using hidle
    exact ⟨hidle, fun hactive => absurd hactive (by rw [hidle]; decide)⟩
  · dsimp only
    split
    · exact ⟨rfl, fun _ => rfl⟩
    · exact ⟨rfl, fun _ => rfl⟩

theorem carried_destroy (lv : LiveState) : Carried lv (wsLiveDestroy lv) := by
  intro hactive
  rw [(wsLiveDestroy_down lv).1] at hactive
  cases hactive

/-- A call that starts no session leaves the state as it is; the one that does
finds no session and no reference. -/
theorem wsLiveCreate_cases (lv : LiveState) (env : CreateEnv) (filename : String)
    (totalSize : Nat) (ringMb : Int) :
    (wsLiveCreate lv env filename totalSize ringMb).1 = lv ∨
      (lv.active = false ∧ lv.refs = 0 ∧
        (wsLiveCreate lv env filename totalSize ringMb).1.active = true ∧
        (wsLiveCreate lv env filename totalSize ringMb).1.refs = 0) := by
  unfold wsLiveCreate
  dsimp only
  split
  · exact Or.inl rfl
  · split
    · exact Or.inl rfl
    · split
      · split <;> exact Or.inl rfl
      · rename_i hactive
        split
        · exact Or.inl rfl
        · rename_i hrefs
          split
          · exact Or.inl rfl
          · exact Or.inr ⟨by simpa using hactive, by omega, rfl, rfl⟩

/-- A call that succeeds leaves an active session. -/
theorem wsLiveCreate_ok {lv : LiveState} {env : CreateEnv} {filename : String}
    {totalSize : Nat} {ringMb : Int}
    (h : (wsLiveCreate lv env filename totalSize ringMb).2 = 0) :
    (wsLiveCreate lv env filename totalSize ringMb).1.active = true := by
  unfold wsLiveCreate at h ⊢
  dsimp only at h ⊢
  split at h
  · cases h
  · rename_i hname
    split at h
    · cases h
    · rename_i hbase
      rw [if_neg hname, if_neg hbase]
      split at h
      · rename_i hactive
        rw [if_pos hactive]
        split <;> exact hactive
      · rename_i hactive
        rw [if_neg hactive]
        split at h
        · cases h
        · rename_i hrefs
          split at h
          · cases h
          · rename_i halloc
            rw [if_neg hrefs, if_neg halloc]

/-- Without a session, a call that fails leaves none. -/
theorem wsLiveCreate_failed {lv : LiveState} {env : CreateEnv} {filename : String}
    {totalSize : Nat} {ringMb : Int} (hidle : lv.active = false)
    (h : (wsLiveCreate lv env filename totalSize ringMb).2 ≠ 0) :
    (wsLiveCreate lv env filename totalSize ringMb).1 = lv := by
  unfold wsLiveCreate at h ⊢
  dsimp only at h ⊢
  split at h
  · rename_i hname
    rw [if_pos hname]
  · rename_i hname
    rw [if_neg hname]
    split at h
    · rename_i hbase
      rw [if_pos hbase]
    · rename_i hbase
      rw [if_neg hbase, if_neg (by rw [hidle]; decide)]
      rw [if_neg (by rw [hidle]; decide)] at h
      split at h
      · rename_i hrefs
        rw [if_pos hrefs]
      · rename_i hrefs
        rw [if_neg hrefs]
        split at h
        · rename_i halloc
          rw [if_pos halloc]
        · exact absurd rfl h

/-!
# The bytes under a store
-/

/-- An allocation keeps the slots of the segments that stay resident. -/
structure Rearranged (lv mid : LiveState) : Prop where
  total : mid.total = lv.total
  nsegs : mid.nsegs = lv.nsegs
  slots : mid.slots = lv.slots
  stored : mid.stored = lv.stored
  resident : forall s, s < lv.nsegs -> mid.present s = true ->
    lv.present s = true ∧ mid.slotOf s = lv.slotOf s

theorem rearranged_refl (lv : LiveState) : Rearranged lv lv :=
  ⟨rfl, rfl, rfl, rfl, fun _ _ hp => ⟨hp, rfl⟩⟩

theorem rearranged_trans {lv mid lv' : LiveState} (h : Rearranged lv mid)
    (h' : Rearranged mid lv') : Rearranged lv lv' where
  total := h'.total.trans h.total
  nsegs := h'.nsegs.trans h.nsegs
  slots := h'.slots.trans h.slots
  stored := h'.stored.trans h.stored
  resident := by
    intro s hs hp
    have hmid := h'.resident s (by rw [h.nsegs]; exact hs) hp
    have hlv := h.resident s hs hmid.1
    exact ⟨hlv.1, hmid.2.trans hlv.2⟩

theorem backed_of_rearranged {holds : Nat -> UInt8 -> Prop} {lv mid : LiveState}
    (h : Rearranged lv mid) (hb : Backed holds lv) : Backed holds mid := by
  constructor
  · rw [h.total]
    exact hb.total_lt
  · intro s hs hp
    rw [h.nsegs] at hs
    have hold := h.resident s hs hp
    rw [hold.2]
    exact hb.slotOf s hs hold.1
  · intro s i hs hp hi
    rw [h.nsegs] at hs
    rw [segLenLocked_congr h.total] at hi
    have hold := h.resident s hs hp
    rw [h.slots, hold.2]
    exact hb.content s i hs hold.1 hi

theorem rearranged_evictSlot (lv : LiveState) (oldestSeg slot : Nat) :
    Rearranged lv (evictSlot lv oldestSeg slot) := by
  refine ⟨rfl, rfl, rfl, rfl, ?_⟩
  intro s _ hp
  change Function.update lv.present oldestSeg false s = true at hp
  change lv.present s = true ∧ Function.update lv.slotOf oldestSeg (-1) s = lv.slotOf s
  by_cases heq : s = oldestSeg
  · rw [heq, Function.update_self] at hp
    cases hp
  · rw [Function.update_of_ne heq] at hp ⊢
    exact ⟨hp, rfl⟩

/-- A slot is assigned to a segment that is not resident. -/
theorem rearranged_assignSlot {lv : LiveState} {seg slot : Nat}
    (hgone : seg < lv.nsegs -> lv.present seg = false) :
    Rearranged lv (assignSlot lv seg slot) := by
  unfold assignSlot
  split
  · rename_i hseg
    refine ⟨rfl, rfl, rfl, rfl, ?_⟩
    intro s _ hp
    change lv.present s = true at hp
    change lv.present s = true ∧ Function.update lv.slotOf seg (slot : Int) s = lv.slotOf s
    by_cases heq : s = seg
    · rw [heq, hgone hseg] at hp
      cases hp
    · rw [Function.update_of_ne heq]
      exact ⟨hp, rfl⟩
  · exact rearranged_refl lv

theorem assignSlot_slotOf {lv : LiveState} {seg : Nat} (hseg : seg < lv.nsegs) (slot : Nat) :
    (assignSlot lv seg slot).slotOf seg = slot := by
  unfold assignSlot
  rw [if_pos hseg]
  exact Function.update_self seg _ _

theorem rearranged_allocSlotLocked {holds : Nat -> UInt8 -> Prop} {lv mid : LiveState}
    (hb : Backed holds lv) {seg : Nat} {r : Int} (h : allocSlotLocked lv seg = (mid, r)) :
    Rearranged lv mid ∧ (seg < lv.nsegs -> 0 ≤ r -> mid.slotOf seg = r) := by
  unfold allocSlotLocked at h
  by_cases hres : seg < lv.nsegs ∧ lv.slotOf seg >= 0
  · rw [if_pos hres] at h
    cases h
    exact ⟨rearranged_refl _, fun _ _ => rfl⟩
  · rw [if_neg hres] at h
    have hgone : seg < lv.nsegs -> lv.present seg = false := by
      intro hseg
      cases hp : lv.present seg with
      | false => rfl
      | true => exact absurd ⟨hseg, hb.slotOf seg hseg hp⟩ hres
    cases hfree : freeSlot lv with
    | some slot =>
        rw [hfree] at h
        cases h
        exact ⟨rearranged_assignSlot hgone, fun hseg _ => assignSlot_slotOf hseg slot⟩
    | none =>
        rw [hfree] at h
        dsimp only at h
        split at h
        · cases h
          exact ⟨rearranged_refl _, fun _ hr => absurd hr (by decide)⟩
        · cases h
          have hevict := rearranged_evictSlot lv (findVictim lv seg).oldestSeg.toNat
            (lv.slotOf (findVictim lv seg).oldestSeg.toNat).toNat
          constructor
          · refine rearranged_trans hevict (rearranged_assignSlot ?_)
            intro hseg
            change Function.update lv.present _ false seg = false
            rw [Function.update_apply]
            split
            · rfl
            · exact hgone hseg
          · intro hseg hr
            generalize lv.slotOf (findVictim lv seg).oldestSeg.toNat = slot at hr ⊢
            have hseg' : seg < (evictSlot lv (findVictim lv seg).oldestSeg.toNat
              slot.toNat).nsegs := hseg
            exact (assignSlot_slotOf hseg' _).trans (Int.toNat_of_nonneg hr)

theorem u64_mul_segSize_mod (seg : Nat) : u64 (segSize * seg) % segSize = 0 := by
  unfold u64 segSize
  omega

/-- The stored bytes are in the log, whatever segment owns the slot besides. -/
theorem traced_fillSlot {mid : LiveState} (ht : Traced mid) {seg slot : Nat}
    (hown : seg < mid.nsegs -> mid.slotOf seg = slot) (from_ : Nat) (resident : Bool)
    (m : Message) :
    Traced (fillSlot mid seg slot (segLenLocked mid seg) from_ resident m) := by
  generalize hlog : (fillSlot mid seg slot (segLenLocked mid seg) from_ resident m).stored = log
  generalize hw : Write.mk (u64 (segSize * seg)) (segLenLocked mid seg)
    (fun i => m.data (from_ + i)) = w
  have hhead : log = w :: mid.stored := by
    rw [← hlog, ← hw]
    rfl
  have hnew : forall s i, i < segLenLocked mid seg ->
      WrittenIn log (segSize * s + i) (m.data (from_ + i)) := by
    intro s i hi
    rw [hhead, ← hw]
    refine ⟨_, u64 (segSize * seg) + i, List.mem_cons_self, covers_add hi, ?_, ?_⟩
    · rw [Nat.add_mod, u64_mul_segSize_mod, Nat.mul_add_mod, Nat.zero_add, Nat.mod_mod]
    · dsimp only
      rw [Nat.add_sub_cancel_left]
  have hold : forall {p b}, WrittenIn mid.stored p b -> WrittenIn log p b := by
    intro p b h
    rw [hhead]
    exact writtenIn_cons _ h
  unfold Traced
  rw [hlog]
  constructor
  · exact ht.total_lt
  · intro s hs hp
    change s < mid.nsegs at hs
    change Function.update mid.present seg true s = true at hp
    change 0 ≤ mid.slotOf s
    by_cases heq : s = seg
    · rw [heq] at hs ⊢
      rw [hown hs]
      exact Int.natCast_nonneg slot
    · rw [Function.update_of_ne heq] at hp
      exact ht.slotOf s hs hp
  · intro s i hs hp hi
    change s < mid.nsegs at hs
    change Function.update mid.present seg true s = true at hp
    change i < segLenLocked mid s at hi
    change WrittenIn log (segSize * s + i) (Function.update mid.slots slot
      (fun i => if i < segLenLocked mid seg then m.data (from_ + i) else mid.slots slot i)
      (mid.slotOf s).toNat i)
    rw [Function.update_apply]
    by_cases heq : s = seg
    · rw [heq] at hs hi ⊢
      rw [hown hs, Int.toNat_natCast, if_pos rfl, if_pos hi]
      exact hnew seg i hi
    · rw [Function.update_of_ne heq] at hp
      have hcontent := hold (ht.content s i hs hp hi)
      split
      · rename_i hslot
        rw [hslot] at hcontent
        dsimp only
        split
        · rename_i hnow
          exact hnew s i hnow
        · exact hcontent
      · exact hcontent

theorem traced_storeSegLocked {lv lv' : LiveState} (ht : Traced lv) {seg : Nat} {m : Message}
    {r : Int} (h : storeSegLocked lv seg m = (lv', r)) : Traced lv' := by
  unfold storeSegLocked at h
  dsimp only at h
  generalize (if m.offset > u64 (segSize * seg) then m.offset else u64 (segSize * seg)) = wStart
    at h
  generalize (if u64 (m.offset + m.len) < u64 (u64 (segSize * seg) + segLenLocked lv seg)
    then u64 (m.offset + m.len) else u64 (u64 (segSize * seg) + segLenLocked lv seg)) = wEnd at h
  cases halloc : allocSlotLocked lv seg with
  | mk mid slot =>
      rcases rearranged_allocSlotLocked ht halloc with ⟨hmid, hown⟩
      have hmidTraced : Traced mid := by
        unfold Traced
        rw [hmid.stored]
        exact backed_of_rearranged hmid ht
      rw [halloc] at h
      dsimp only at h
      split at h
      · cases h
        exact ht
      · split at h
        · cases h
          exact ht
        · split at h
          · cases h
            exact hmidTraced
          · rename_i hslot
            cases h
            rw [← segLenLocked_congr hmid.total]
            apply traced_fillSlot hmidTraced
            intro hseg
            rw [hmid.nsegs] at hseg
            rw [hown hseg (by omega), Int.toNat_of_nonneg (by omega)]

/-!
# Both kinds of knowledge together
-/

structure Sound (lv : LiveState) : Prop where
  traced : Traced lv
  consistent : lv.total ≤ maxTotal -> Consistent lv

/-- The byte was stored in this session; when the segments can be numbered, it
is the last one stored at the position. -/
def FromSession (lv : LiveState) (p : Nat) (b : UInt8) : Prop :=
  WrittenIn lv.stored p b ∧ (lv.total ≤ maxTotal -> latest lv.stored p = some b)

theorem backed_of_sound {lv : LiveState} (h : Sound lv) : Backed (FromSession lv) lv := by
  have ht : Backed (WrittenIn lv.stored) lv := h.traced
  constructor
  · exact ht.total_lt
  · exact ht.slotOf
  · intro s i hs hp hi
    refine ⟨ht.content s i hs hp hi, ?_⟩
    intro htotal
    exact (h.consistent htotal).content s i hp hi

theorem sound_of_same {lv lv' : LiveState} (h : SameCache lv lv') (hs : Sound lv) :
    Sound lv' := by
  constructor
  · exact traced_of_same h hs.traced
  · intro htotal
    rw [h.total] at htotal
    exact consistent_of_same h (hs.consistent htotal)

/-- The session goes on, and its bytes are its own. -/
structure SoundSession (lv lv' : LiveState) : Prop where
  session : SameSession lv lv'
  sound : lv.active = true -> Sound lv'

theorem soundSession_refl {lv : LiveState} (h : lv.active = true -> Sound lv) :
    SoundSession lv lv :=
  ⟨sameSession_refl lv, h⟩

theorem soundSession_of_peeked {lv lv' : LiveState} (h : lv.active = true -> Sound lv)
    (hpeek : Peeked lv lv') : SoundSession lv lv' :=
  ⟨hpeek.session, fun hactive => sound_of_same hpeek.cache (h hactive)⟩

theorem soundSession_store {lv₀ : LiveState} {m : Message} (s : Nat) (lv lv' : LiveState)
    (r : Int) (hseg : segSize * s < 2 ^ 64) (hs : SoundSession lv₀ lv)
    (h : storeSegLocked lv s m = (lv', r)) : SoundSession lv₀ lv' := by
  have hsame := sameSession_storeSegLocked h
  constructor
  · exact sameSession_trans hs.session hsame
  · intro hactive
    have hsound := hs.sound hactive
    constructor
    · exact traced_storeSegLocked hsound.traced h
    · intro htotal
      rw [hsame.total] at htotal
      exact (storeSegLocked_kept (hsound.consistent htotal) hseg h).consistent

end Live
end PkgManager
