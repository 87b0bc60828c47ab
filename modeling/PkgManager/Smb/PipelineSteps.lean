import PkgManager.Smb.Pipeline

/-!
# Steps of a pipelined read

Every step keeps the parts of the slots in order and the answered slots filled.
-/

namespace PkgManager
namespace Smb

section Issuing

variable {c : ReadCall} {s : Pipe}

theorem Piped.place_tail (h : Piped c s) : s.tail % smbPipelineDepth = s.place s.inFlight := by
  rw [h.tail]
  rfl

theorem fillSlot_flight (h : Piped c s) (hroom : s.inFlight < smbPipelineDepth) (toReq : Nat)
    {k : Nat} (hk : k < s.inFlight) : (fillSlot s toReq).flight k = s.flight k := by
  unfold Pipe.flight fillSlot
  rw [h.place_tail]
  exact Ring.cell_update_other s.slots _ (hk.trans hroom) hroom hk.ne

theorem fillSlot_extents (h : Piped c s) (hroom : s.inFlight < smbPipelineDepth) (toReq : Nat) :
    (fillSlot s toReq).extents = s.extents := by
  rw [extents_eq, extents_eq]
  apply List.map_congr_left
  intro k hk
  rw [fillSlot_flight h hroom toReq (List.mem_range.mp hk)]

theorem piped_fillSlot (h : Piped c s) (hroom : s.inFlight < smbPipelineDepth) (toReq : Nat) :
    Piped c (fillSlot s toReq) where
  tail := h.tail
  depth := h.depth
  issued := h.issued
  sent := h.sent
  front := by
    rw [fillSlot_extents h hroom toReq]
    exact h.front
  holds := h.holds
  answered := by
    intro k hk hdone
    rw [fillSlot_flight h hroom toReq hk] at hdone ⊢
    exact h.answered k hk hdone
  asked := by
    intro r hr
    rcases h.asked r hr with ⟨k, ha⟩
    exists k
    have hflight := fillSlot_flight h hroom toReq ha.flying
    exact ⟨ha.flying, ha.slot, hflight ▸ ha.open_, hflight ▸ ha.buf, hflight ▸ ha.size, ha.offset⟩
  awaited := by
    intro k hk hopen
    rw [fillSlot_flight h hroom toReq hk] at hopen
    exact h.awaited k hk hopen
  distinct := h.distinct

theorem sendRequest_last (h : Piped c s) (toReq : Nat) :
    (sendRequest c s toReq).flight s.inFlight =
      { done := false, result := 0, buf := s.issued, size := toReq } := by
  unfold Pipe.flight sendRequest fillSlot
  rw [h.place_tail]
  exact Ring.cell_update_same _ _ _ _ _

theorem sendRequest_extents (h : Piped c s) (hroom : s.inFlight < smbPipelineDepth)
    (toReq : Nat) : (sendRequest c s toReq).extents = s.extents ++ [(s.issued, toReq)] := by
  have hlast : Slot.extent ((sendRequest c s toReq).flight s.inFlight) = (s.issued, toReq) := by
    rw [sendRequest_last h]
    rfl
  rw [<- fillSlot_extents h hroom toReq, extents_eq, extents_eq]
  change (List.range (s.inFlight + 1)).map _ = _
  rw [List.range_succ, List.map_append, List.map_singleton, hlast]
  rfl

/-- No request on the way has the free place. -/
theorem Piped.free_place (h : Piped c s) (hroom : s.inFlight < smbPipelineDepth)
    {r : ReadRequest} (hr : r ∈ s.wire) : r.slot ≠ s.place s.inFlight := by
  intro heq
  rcases h.asked r hr with ⟨k, ha⟩
  have hk := Ring.place_inj (ha.flying.trans hroom) hroom (ha.slot.symm.trans heq)
  exact ha.flying.ne hk

theorem piped_sendRequest (h : Piped c s) (hroom : s.inFlight < smbPipelineDepth) {toReq : Nat}
    (hpos : toReq ≠ 0) (hfit : s.issued + toReq ≤ c.targetCount) :
    Piped c (sendRequest c s toReq) where
  tail := by
    change s.tail + 1 = s.head + (s.inFlight + 1)
    rw [h.tail, Nat.add_assoc]
  depth := hroom
  issued := hfit
  sent := Nat.add_le_add h.sent (Nat.one_le_iff_ne_zero.mpr hpos)
  front := by
    rcases h.front with ⟨p, hle, hnow, hchain⟩
    exists p
    rw [sendRequest_extents h hroom]
    exact ⟨hle, hnow, chained_append hchain⟩
  holds := h.holds
  answered := by
    intro k hk hdone
    rcases Nat.lt_succ_iff_lt_or_eq.mp hk with hlt | heq
    · exact (piped_fillSlot h hroom toReq).answered k hlt hdone
    · rw [heq, sendRequest_last h] at hdone
      cases hdone
  asked := by
    intro r hr
    rcases List.mem_append.mp hr with hold | hnew
    · rcases (piped_fillSlot h hroom toReq).asked r hold with ⟨k, ha⟩
      exists k
      exact ⟨ha.flying.trans (Nat.lt_succ_self _), ha.slot, ha.open_, ha.buf, ha.size, ha.offset⟩
    · rw [List.mem_singleton.mp hnew]
      exists s.inFlight
      have hlast := sendRequest_last h toReq
      exact ⟨Nat.lt_succ_self _, h.place_tail, hlast ▸ rfl, hlast ▸ rfl, hlast ▸ rfl, rfl⟩
  awaited := by
    intro k hk hopen
    rcases Nat.lt_succ_iff_lt_or_eq.mp hk with hlt | heq
    · rcases (piped_fillSlot h hroom toReq).awaited k hlt hopen with ⟨r, hr, hslot⟩
      exact ⟨r, List.mem_append_left _ hr, hslot⟩
    · rw [heq]
      exact ⟨_, List.mem_append_right _ List.mem_cons_self, h.place_tail⟩
  distinct := by
    change (List.map ReadRequest.slot (s.wire ++ [_])).Nodup
    rw [List.map_append, List.nodup_append]
    refine ⟨h.distinct, List.nodup_singleton _, ?_⟩
    intro a ha b hb
    rcases List.mem_map.mp ha with ⟨r, hr, rfl⟩
    rw [List.mem_singleton.mp hb]
    change r.slot ≠ s.tail % smbPipelineDepth
    rw [h.place_tail]
    exact h.free_place hroom hr

theorem requestSize_le (c : ReadCall) (s : Pipe) (available : Int) :
    requestSize c s available ≤ c.targetCount - s.issued := by
  unfold requestSize
  split
  · exact (Nat.min_le_left _ _).trans (Nat.min_le_left _ _)
  · exact Nat.min_le_left _ _

theorem mayIssue_room (h : mayIssue c s = true) :
    s.inFlight < smbPipelineDepth ∧ s.issued < c.targetCount := by
  simp only [mayIssue, Bool.and_eq_true, decide_eq_true_eq] at h
  exact ⟨h.1.2, h.2⟩

theorem piped_leaveIssuing (h : Piped c s) : Piped c (leaveIssuing s) :=
  piped_same h _ s.stopIssuing s.readError

theorem piped_issueOne (h : Piped c s) (hmay : mayIssue c s = true) (available rc : Int) :
    Piped c (issueOne c s available rc) := by
  rcases mayIssue_room hmay with ⟨hroom, hleft⟩
  have hfit : s.issued + requestSize c s available ≤ c.targetCount := by
    have hle := requestSize_le c s available
    omega
  unfold issueOne
  split
  · exact piped_leaveIssuing h
  · split
    · exact piped_leaveIssuing h
    · rename_i hsize
      split
      · exact piped_leaveIssuing (piped_same (piped_fillSlot h hroom _) _ true rc)
      · exact piped_sendRequest h hroom hsize hfit

end Issuing

/-!
# Answers
-/

section Answers

variable {c : ReadCall} {s : Pipe} {r : ReadRequest} {k : Nat}

/-- Bytes that come into the part of an open slot touch no answered slot. -/
theorem piped_writeBytes (h : Piped c s) (ha : AskedBy c s r k) {bytes : List UInt8}
    (hlen : bytes.length ≤ r.size) :
    Piped c { s with dst := writeBytes s.dst r.buf bytes } where
  tail := h.tail
  depth := h.depth
  issued := h.issued
  sent := h.sent
  front := h.front
  holds := by
    apply holds_writeBytes h.holds
    left
    rw [Nat.zero_add, ha.buf]
    exact (h.behind ha.flying).1
  answered := by
    intro j hj hdone
    have hne : j ≠ k := by
      intro heq
      rw [heq] at hdone
      exact Bool.false_ne_true (ha.open_.symm.trans hdone)
    rcases h.answered j hj hdone with hneg | ⟨n, hn, hle, hholds⟩
    · exact Or.inl hneg
    · right
      refine ⟨n, hn, hle, holds_writeBytes hholds ?_⟩
      rw [ha.size] at hlen
      rw [ha.buf]
      rcases h.apart hj ha.flying hne with hbefore | hbehind
      · exact Or.inl ((Nat.add_le_add_left hle _).trans hbefore)
      · exact Or.inr ((Nat.add_le_add_left hlen _).trans hbehind)
  asked := by
    intro r' hr'
    rcases h.asked r' hr' with ⟨j, hj⟩
    exact ⟨j, hj.flying, hj.slot, hj.open_, hj.buf, hj.size, hj.offset⟩
  awaited := h.awaited
  distinct := h.distinct

theorem cb_flight_other (h : Piped c s) (ha : AskedBy c s r k) (status : Int) {j : Nat}
    (hj : j < s.inFlight) (hne : j ≠ k) : (smbPipelineCb s r status).flight j = s.flight j := by
  unfold Pipe.flight smbPipelineCb
  rw [ha.slot]
  exact Ring.cell_update_other s.slots _ (hj.trans_le h.depth) (ha.flying.trans_le h.depth) hne

theorem cb_flight_same (ha : AskedBy c s r k) (status : Int) :
    (smbPipelineCb s r status).flight k =
      { s.flight k with done := true, result := status } := by
  unfold Pipe.flight smbPipelineCb
  rw [ha.slot]
  exact Ring.cell_update_same _ _ _ _ _

theorem cb_extents (h : Piped c s) (ha : AskedBy c s r k) (status : Int) :
    (smbPipelineCb s r status).extents = s.extents := by
  rw [extents_eq, extents_eq]
  apply List.map_congr_left
  intro j hj
  by_cases hne : j = k
  · rw [hne, cb_flight_same ha]
    rfl
  · rw [cb_flight_other h ha status (List.mem_range.mp hj) hne]

/-- A slot is answered when its bytes are in the buffer. -/
theorem piped_cb (h : Piped c s) (hr : r ∈ s.wire) (ha : AskedBy c s r k) {status : Int}
    (hanswer : Answered c s.dst { s.flight k with done := true, result := status }) :
    Piped c (smbPipelineCb s r status) where
  tail := h.tail
  depth := h.depth
  issued := h.issued
  sent := h.sent
  front := by
    rw [cb_extents h ha]
    exact h.front
  holds := h.holds
  answered := by
    intro j hj hdone
    by_cases hne : j = k
    · rw [hne, cb_flight_same ha]
      exact hanswer
    · rw [cb_flight_other h ha status hj hne] at hdone ⊢
      exact h.answered j hj hdone
  asked := by
    intro r' hr'
    have hne : r' ≠ r := by
      intro heq
      rw [heq] at hr'
      exact List.Nodup.not_mem_erase (List.Nodup.of_map _ h.distinct) hr'
    have hin := List.mem_of_mem_erase hr'
    rcases h.asked r' hin with ⟨j, hj⟩
    exists j
    have hjk : j ≠ k := by
      intro heq
      apply hne
      apply h.request_unique hin hr
      rw [hj.slot, ha.slot, heq]
    have hflight := cb_flight_other h ha status hj.flying hjk
    exact ⟨hj.flying, hj.slot, hflight ▸ hj.open_, hflight ▸ hj.buf, hflight ▸ hj.size, hj.offset⟩
  awaited := by
    intro j hj hopen
    have hne : j ≠ k := by
      intro heq
      rw [heq, cb_flight_same ha] at hopen
      cases hopen
    rw [cb_flight_other h ha status hj hne] at hopen
    rcases h.awaited j hj hopen with ⟨r', hr', hslot⟩
    refine ⟨r', ?_, hslot⟩
    apply (List.mem_erase_of_ne ?_).mpr hr'
    intro heq
    rw [heq] at hslot
    have hjk := Ring.place_inj (hj.trans_le h.depth) (ha.flying.trans_le h.depth)
      (hslot.symm.trans ha.slot)
    exact hne hjk
  distinct := h.distinct.sublist (List.erase_sublist.map _)

/-- An offset on the file is not cut to its width. -/
theorem AskedBy.offset_exact (h : Piped c s) (ha : AskedBy c s r k) {n : Nat} (hpos : 0 < n)
    (hsize : n ≤ r.size) (hfile : n ≤ c.file.length - r.offset) :
    r.offset = c.offset + r.buf := by
  have hend := (h.behind ha.flying).2
  have htarget := h.issued
  unfold ReadCall.targetCount at htarget
  rw [if_pos (by omega)] at htarget
  have hle := htarget.trans (Nat.min_le_right _ _)
  rw [ha.offset]
  apply u64_of_lt
  have hfits := c.fits
  rw [<- ha.buf, <- ha.size] at hend
  omega

theorem piped_data (h : Piped c s) (hr : r ∈ s.wire) (ha : AskedBy c s r k) {n : Nat}
    (hsize : n ≤ r.size) (hfile : n ≤ c.file.length - r.offset) :
    Piped c (smbPipelineCb
      { s with dst := writeBytes s.dst r.buf ((c.file.drop r.offset).take n) } r n) := by
  have hlen : ((c.file.drop r.offset).take n).length = n := by
    rw [List.length_take, List.length_drop]
    exact Nat.min_eq_left hfile
  have hwritten := piped_writeBytes h ha (hlen.le.trans hsize)
  have ha' : AskedBy c { s with dst := writeBytes s.dst r.buf ((c.file.drop r.offset).take n) }
      r k := ⟨ha.flying, ha.slot, ha.open_, ha.buf, ha.size, ha.offset⟩
  apply piped_cb hwritten hr ha'
  right
  refine ⟨n, rfl, ha.size ▸ hsize, ?_⟩
  intro i hi
  change c.file[c.offset + ((s.flight k).buf + i)]? =
    some (writeBytes s.dst r.buf ((c.file.drop r.offset).take n) ((s.flight k).buf + i))
  rw [<- ha.buf]
  have hoffset := ha.offset_exact h ((Nat.zero_le i).trans_lt hi) hsize hfile
  have hbyte : ((c.file.drop r.offset).take n)[i]? = c.file[c.offset + (r.buf + i)]? := by
    rw [List.getElem?_take_of_lt hi, List.getElem?_drop, hoffset, Nat.add_assoc]
  rw [<- hbyte]
  exact writeBytes_inside s.dst r.buf (hi.trans_eq hlen.symm)

theorem piped_error (h : Piped c s) (hr : r ∈ s.wire) (ha : AskedBy c s r k) {status : Int}
    (hneg : status < 0) : Piped c (smbPipelineCb s r status) :=
  piped_cb h hr ha (Or.inl hneg)

theorem piped_arrive {s' : Pipe} (h : Piped c s) {a : Arrival} (harr : arrive c s a = some s') :
    Piped c s' := by
  cases a with
  | partly r bytes =>
      rcases Option.ite_none_right_eq_some.mp harr with ⟨⟨hr, hlen⟩, heq⟩
      rcases h.asked r hr with ⟨k, ha⟩
      cases heq
      exact piped_writeBytes h ha hlen
  | data r n =>
      rcases Option.ite_none_right_eq_some.mp harr with ⟨⟨hr, hsize, hfile⟩, heq⟩
      rcases h.asked r hr with ⟨k, ha⟩
      cases heq
      exact piped_data h hr ha hsize hfile
  | error r status =>
      rcases Option.ite_none_right_eq_some.mp harr with ⟨⟨hr, hneg⟩, heq⟩
      rcases h.asked r hr with ⟨k, ha⟩
      cases heq
      exact piped_error h hr ha hneg

theorem piped_arrivals {s' : Pipe} (h : Piped c s) {arrivals : List Arrival}
    (harr : arrivals.foldlM (arrive c) s = some s') : Piped c s' := by
  induction arrivals generalizing s with
  | nil =>
      cases harr
      exact h
  | cons a rest ih =>
      rw [List.foldlM_cons] at harr
      rcases Option.bind_eq_some_iff.mp harr with ⟨next, hnext, hrest⟩
      exact ih (piped_arrive h hnext) hrest

end Answers

end Smb
end PkgManager
