import PkgManager.WebSocket.Frame

/-!
# The codec round trip

Decoding what an encoder has written gives the frame back and leaves what
follows it alone; decoding a strict prefix changes nothing.
-/

namespace PkgManager
namespace WebSocket

open Endian

/-!
# The length field
-/

theorem shiftedBytes_eq_bigEndian (width plen : Nat) :
    shiftedBytes width plen = bigEndian width plen := by
  induction width with
  | zero => rfl
  | succ width ih =>
      have hpow : 2 ^ (8 * width) = 256 ^ width := by
        rw [Nat.pow_mul]
      show UInt8.ofNat (plen >>> (8 * width)) :: shiftedBytes width plen = _
      rw [bigEndian_succ, ih, Nat.shiftRight_eq_div_pow, hpow]

theorem shift_or (plen : Nat) (b : UInt8) :
    (plen <<< 8) ||| b.toNat = 256 * plen + b.toNat := by
  have hb : b.toNat < 2 ^ 8 := b.toNat_lt
  rw [← Nat.shiftLeft_add_eq_or_of_lt hb, Nat.shiftLeft_eq]
  omega

/-- Reading up to eight length bytes loses no bit. -/
theorem foldl_length_eq_ofBigEndian {bytes : List UInt8} (h : bytes.length ≤ 8) :
    bytes.foldl (fun plen b => u64 (plen <<< 8) ||| b.toNat) 0 = ofBigEndian bytes := by
  induction bytes using List.reverseRecOn with
  | nil => rfl
  | append_singleton bytes b ih =>
      rw [List.length_append, List.length_singleton] at h
      have hfew : bytes.length ≤ 7 := by omega
      have hlt : ofBigEndian bytes < 256 ^ 7 :=
        Nat.lt_of_lt_of_le (ofBigEndian_lt bytes) (Nat.pow_le_pow_right (by decide) hfew)
      have hfits : ofBigEndian bytes <<< 8 < 2 ^ 64 := by
        rw [Nat.shiftLeft_eq]
        omega
      rw [List.foldl_append, ih (by omega), ofBigEndian_append_singleton]
      show u64 (ofBigEndian bytes <<< 8) ||| b.toNat = _
      rw [u64_of_lt hfits, shift_or]

/-- The two values the mask bit has in an encoded frame. -/
def IsMaskBit (maskBit : UInt8) : Prop := maskBit = 0 ∨ maskBit = 0x80

theorem maskBit_or_and {maskBit : UInt8} (h : IsMaskBit maskBit) {plen : Nat}
    (hlen : plen < 128) :
    ((maskBit ||| UInt8.ofNat plen) &&& 0x7F).toNat = plen ∧
      (maskBit ||| UInt8.ofNat plen) &&& 0x80 = maskBit := by
  have htable : forall n : Fin 128,
      (((0 ||| UInt8.ofNat n.val) &&& 0x7F).toNat = n.val ∧
        (0 ||| UInt8.ofNat n.val) &&& 0x80 = 0) ∧
      (((0x80 ||| UInt8.ofNat n.val) &&& 0x7F).toNat = n.val ∧
        (0x80 ||| UInt8.ofNat n.val) &&& 0x80 = 0x80) := by
    decide
  have hrow := htable ⟨plen, hlen⟩
  rcases h with h | h
  · rw [h]
    exact hrow.1
  · rw [h]
    exact hrow.2

theorem toNat_getD_high {bytes : List UInt8} (h : bytes.getD 0 0 &&& 0x80 ≠ 0) :
    128 ≤ (bytes.getD 0 0).toNat := by
  have htable : forall n : Fin 256, UInt8.ofNat n.val &&& 0x80 ≠ 0 -> 128 ≤ n.val := by
    decide +kernel
  have hrow := htable ⟨(bytes.getD 0 0).toNat, (bytes.getD 0 0).toNat_lt⟩
  simp only [UInt8.ofNat_toNat] at hrow
  exact hrow h

/-- The length bytes of a frame: the second byte of the frame and the extended
length after it. -/
structure LengthOk (maskBit b1 : UInt8) (ext : List UInt8) (plen : Nat) : Prop where
  mask : b1 &&& 0x80 = maskBit
  read : forall rest, lengthField b1 (ext ++ rest) = LengthField.known (2 + ext.length) plen
  early : forall k, k < ext.length -> lengthField b1 (ext.take k) = LengthField.needMore

theorem lengthOk_short {maskBit : UInt8} (h : IsMaskBit maskBit) {plen : Nat}
    (hlen : plen < 126) : LengthOk maskBit (maskBit ||| UInt8.ofNat plen) [] plen := by
  have hbits := maskBit_or_and h (by omega : plen < 128)
  constructor
  · exact hbits.2
  · intro rest
    unfold lengthField
    dsimp only
    rw [hbits.1, if_neg (by omega), if_neg (by omega)]
    rfl
  · intro k hk
    exact absurd hk (Nat.not_lt_zero k)

theorem lengthOk_medium {maskBit : UInt8} (h : IsMaskBit maskBit) {plen : Nat}
    (hlen : plen ≤ 65535) :
    LengthOk maskBit (maskBit ||| 126) [UInt8.ofNat (plen >>> 8), UInt8.ofNat plen] plen := by
  have hbits := maskBit_or_and h (by decide : 126 < 128)
  constructor
  · exact hbits.2
  · intro rest
    have hhigh : (UInt8.ofNat (plen >>> 8)).toNat = plen / 256 := by
      rw [UInt8.toNat_ofNat', Nat.shiftRight_eq_div_pow]
      omega
    have hlow : (UInt8.ofNat plen).toNat = plen % 256 := UInt8.toNat_ofNat'
    have hvalue : ((UInt8.ofNat (plen >>> 8)).toNat <<< 8) ||| (UInt8.ofNat plen).toNat = plen := by
      rw [shift_or, hhigh, hlow]
      omega
    unfold lengthField
    dsimp only
    rw [show ((maskBit ||| 126) &&& 0x7F).toNat = 126 from hbits.1, if_pos rfl]
    show LengthField.known 4 _ = LengthField.known 4 plen
    rw [hvalue]
  · intro k hk
    have hcases : k = 0 ∨ k = 1 := by
      simp only [List.length_cons, List.length_nil] at hk
      omega
    unfold lengthField
    dsimp only
    rw [show ((maskBit ||| 126) &&& 0x7F).toNat = 126 from hbits.1, if_pos rfl]
    rcases hcases with hk0 | hk1
    · rw [hk0]
      rfl
    · rw [hk1]
      rfl

theorem lengthOk_long {maskBit : UInt8} (h : IsMaskBit maskBit) {plen : Nat}
    (hlen : plen < 2 ^ 63) :
    LengthOk maskBit (maskBit ||| 127) (shiftedBytes 8 plen) plen := by
  have hbits := maskBit_or_and h (by decide : 127 < 128)
  have hlength : (shiftedBytes 8 plen).length = 8 := rfl
  constructor
  · exact hbits.2
  · intro rest
    have htake : (shiftedBytes 8 plen ++ rest).take 8 = shiftedBytes 8 plen := by
      rw [← hlength]
      exact List.take_left
    have hvalue : (shiftedBytes 8 plen).foldl
        (fun plen b => u64 (plen <<< 8) ||| b.toNat) 0 = plen := by
      rw [foldl_length_eq_ofBigEndian (Nat.le_of_eq hlength), shiftedBytes_eq_bigEndian,
        ofBigEndian_bigEndian (by omega)]
    have hhead : (shiftedBytes 8 plen ++ rest).getD 0 0 = UInt8.ofNat (plen >>> 56) := rfl
    have hsmall : ¬ (shiftedBytes 8 plen ++ rest).getD 0 0 &&& 0x80 ≠ 0 := by
      intro hhigh
      have hbig := toNat_getD_high hhigh
      rw [hhead, UInt8.toNat_ofNat', Nat.shiftRight_eq_div_pow] at hbig
      omega
    unfold lengthField
    dsimp only
    rw [show ((maskBit ||| 127) &&& 0x7F).toNat = 127 from hbits.1, if_neg (by decide),
      if_pos rfl, if_neg (by rw [List.length_append, hlength]; omega), if_neg hsmall, htake,
      hvalue]
    rfl
  · intro k hk
    rw [hlength] at hk
    unfold lengthField
    dsimp only
    rw [show ((maskBit ||| 127) &&& 0x7F).toNat = 127 from hbits.1, if_neg (by decide),
      if_pos rfl, if_pos (by rw [List.length_take, hlength]; omega)]

theorem lengthBytes_ok {maskBit : UInt8} (h : IsMaskBit maskBit) {plen : Nat}
    (hlen : plen < 2 ^ 63) :
    exists b1 ext, lengthBytes maskBit plen = b1 :: ext ∧ ext.length ≤ 8 ∧
      LengthOk maskBit b1 ext plen := by
  by_cases hshort : plen < 126
  · refine ⟨_, _, ?_, ?_, lengthOk_short h hshort⟩
    · unfold lengthBytes
      rw [if_pos hshort]
    · decide
  · by_cases hmedium : plen ≤ 65535
    · refine ⟨_, _, ?_, ?_, lengthOk_medium h hmedium⟩
      · unfold lengthBytes
        rw [if_neg hshort, if_pos hmedium]
      · show 2 ≤ 8
        decide
    · refine ⟨_, _, ?_, ?_, lengthOk_long h hlen⟩
      · unfold lengthBytes
        rw [if_neg hshort, if_neg hmedium]
      · exact Nat.le_refl 8

/-!
# The frame

A frame is its two first bytes, the extended length, the mask if there is one
and the payload as it travels.
-/

def frameOpcodes : List UInt8 := [0, 1, 2, 8, 9, 10]

theorem firstByte_ok {opcode : UInt8} (h : opcode ∈ frameOpcodes) :
    (0x80 ||| (opcode &&& 0x0F)) &&& 0x70 = 0 ∧
      (0x80 ||| (opcode &&& 0x0F)) &&& 0x0F = opcode ∧
      (0x80 ||| (opcode &&& 0x0F)) &&& 0x80 ≠ 0 ∧
      ¬ (opcode > 0x0A ∨ (opcode > 0x02 ∧ opcode < 0x08)) := by
  simp only [frameOpcodes, List.mem_cons, List.not_mem_nil, or_false] at h
  rcases h with h | h | h | h | h | h <;> rw [h] <;> decide

/-- What the decoder does once it has the first byte of an encoded frame and the
length field is read. -/
theorem decode_known {opcode b1 : UInt8} (hop : opcode ∈ frameOpcodes) {masked : Bool}
    (hmasked : decide (b1 &&& 0x80 ≠ 0) = masked) {rest : List UInt8} {hdr plen : Nat}
    (hfield : lengthField b1 rest = LengthField.known hdr plen)
    (hhdr : hdr ≤ 10) (hplen : plen < 2 ^ 63) (hctl : opcode >= 0x08 -> plen ≤ 125) :
    wsDirectFrameDecode ((0x80 ||| (opcode &&& 0x0F)) :: b1 :: rest) =
      if ((0x80 ||| (opcode &&& 0x0F)) :: b1 :: rest).length <
          hdr + (if masked then 4 else 0) + plen then
        { used := 0, buf := (0x80 ||| (opcode &&& 0x0F)) :: b1 :: rest }
      else
        { used := cInt (hdr + (if masked then 4 else 0) + plen : Nat)
          buf :=
            if masked then unmaskAt ((0x80 ||| (opcode &&& 0x0F)) :: b1 :: rest) hdr plen
            else (0x80 ||| (opcode &&& 0x0F)) :: b1 :: rest
          opcode := opcode
          fin := true
          payOff := hdr + (if masked then 4 else 0)
          payLen := plen } := by
  rcases firstByte_ok hop with ⟨hrsv, hopcode, hfin, hvalid⟩
  have hctl' : ¬ (opcode >= 0x08 ∧ (true = false ∨ plen > 125)) := by
    rintro ⟨hge, hbad | hbig⟩
    · cases hbad
    · exact absurd (hctl hge) (by omega)
  have hfits : ¬ plen > 2 ^ 64 - 1 - hdr - (if masked then 4 else 0) := by
    cases masked with
    | false =>
        show ¬ plen > 2 ^ 64 - 1 - hdr - 0
        omega
    | true =>
        show ¬ plen > 2 ^ 64 - 1 - hdr - 4
        omega
  unfold wsDirectFrameDecode
  dsimp only
  rw [hopcode, hfield, if_neg (by rw [hrsv]; decide), if_neg hvalid]
  dsimp only
  rw [decide_eq_true hfin, hmasked, if_neg hctl', if_neg hfits]

/-- While the length field is incomplete the decoder waits. -/
theorem decode_needMore {opcode b1 : UInt8} (hop : opcode ∈ frameOpcodes)
    {rest : List UInt8} (hfield : lengthField b1 rest = LengthField.needMore) :
    wsDirectFrameDecode ((0x80 ||| (opcode &&& 0x0F)) :: b1 :: rest) =
      { used := 0, buf := (0x80 ||| (opcode &&& 0x0F)) :: b1 :: rest } := by
  rcases firstByte_ok hop with ⟨hrsv, hopcode, _, hvalid⟩
  unfold wsDirectFrameDecode
  dsimp only
  rw [hopcode, hfield, if_neg (by rw [hrsv]; decide), if_neg hvalid]

theorem xorMask_xorMask (mask bytes : List UInt8) :
    xorMask mask (xorMask mask bytes) = bytes := by
  unfold xorMask
  apply List.ext_getElem
  · rw [List.length_mapIdx, List.length_mapIdx]
  · intro i hi hi'
    rw [List.getElem_mapIdx, List.getElem_mapIdx, UInt8.xor_assoc, UInt8.xor_self,
      UInt8.xor_zero]

@[simp] theorem length_xorMask (mask bytes : List UInt8) :
    (xorMask mask bytes).length = bytes.length :=
  List.length_mapIdx

/-- Unmasking a frame whose header has the given size. -/
theorem unmaskAt_frame (hdr mask payload rest : List UInt8) (hmask : mask.length = 4) :
    unmaskAt (hdr ++ (mask ++ (xorMask mask payload ++ rest))) hdr.length payload.length =
      hdr ++ (mask ++ (payload ++ rest)) := by
  have hsplit : hdr.length + 4 = (hdr ++ mask).length := by
    rw [List.length_append, hmask]
  unfold unmaskAt
  rw [List.drop_left, List.take_left' hmask, hsplit, ← List.append_assoc hdr mask,
    List.take_left, List.drop_left, List.take_left' (length_xorMask mask payload),
    xorMask_xorMask, List.drop_append, List.drop_eq_nil_of_le (by omega)]
  rw [show (hdr ++ mask).length + payload.length - (hdr ++ mask).length =
    (xorMask mask payload).length by rw [length_xorMask]; omega, List.drop_left]
  rw [List.nil_append, List.append_assoc]

/-- The bytes of a frame: a masked one is the client's. -/
def encodedFrame (mask : Option (Fin 4 -> UInt8)) (opcode : UInt8) (payload : List UInt8) :
    List UInt8 :=
  match mask with
  | none => frameHeader 0 opcode payload.length ++ payload
  | some m =>
      frameHeader 0x80 opcode payload.length ++ List.ofFn m ++ xorMask (List.ofFn m) payload

/-- What follows the length field of the frame. -/
def frameBody (mask : Option (Fin 4 -> UInt8)) (payload : List UInt8) : List UInt8 :=
  match mask with
  | none => payload
  | some m => List.ofFn m ++ xorMask (List.ofFn m) payload

theorem length_frameBody (mask : Option (Fin 4 -> UInt8)) (payload : List UInt8) :
    (frameBody mask payload).length = (if mask.isSome then 4 else 0) + payload.length := by
  cases mask with
  | none => exact (Nat.zero_add _).symm
  | some m =>
      show (List.ofFn m ++ xorMask (List.ofFn m) payload).length = 4 + payload.length
      rw [List.length_append, length_xorMask, List.length_ofFn]

theorem encodedFrame_eq (mask : Option (Fin 4 -> UInt8)) (opcode : UInt8)
    {payload : List UInt8} (hlen : payload.length < 2 ^ 63) :
    exists b1 ext, ext.length ≤ 8 ∧ decide (b1 &&& 0x80 ≠ 0) = mask.isSome ∧
      LengthOk (if mask.isSome then 0x80 else 0) b1 ext payload.length ∧
      encodedFrame mask opcode payload =
        (0x80 ||| (opcode &&& 0x0F)) :: b1 :: (ext ++ frameBody mask payload) := by
  have hbit : IsMaskBit (if mask.isSome then 0x80 else 0) := by
    cases mask with
    | none => exact Or.inl rfl
    | some m => exact Or.inr rfl
  rcases lengthBytes_ok hbit hlen with ⟨b1, ext, hbytes, hext, hok⟩
  refine ⟨b1, ext, hext, ?_, hok, ?_⟩
  · rw [hok.mask]
    cases mask <;> rfl
  · cases mask with
    | none =>
        show frameHeader 0 opcode payload.length ++ payload = _
        unfold frameHeader
        rw [show lengthBytes 0 payload.length = b1 :: ext from hbytes]
        rfl
    | some m =>
        show frameHeader 0x80 opcode payload.length ++ List.ofFn m ++ _ = _
        unfold frameHeader
        rw [show lengthBytes 0x80 payload.length = b1 :: ext from hbytes, List.append_assoc]
        rfl

theorem maskSize_le (masked : Bool) : (if masked then 4 else 0) ≤ 4 := by
  cases masked with
  | false => exact Nat.zero_le 4
  | true => exact Nat.le_refl 4

theorem length_encodedFrame_le (mask : Option (Fin 4 -> UInt8)) (opcode : UInt8)
    {payload : List UInt8} (hlen : payload.length < 2 ^ 63) :
    (encodedFrame mask opcode payload).length ≤ payload.length + 14 := by
  rcases encodedFrame_eq mask opcode hlen with ⟨b1, ext, hext, _, _, hframe⟩
  have hbody := length_frameBody mask payload
  have hbound := maskSize_le mask.isSome
  rw [hframe, List.length_cons, List.length_cons, List.length_append, hbody]
  omega

/-- Decoding a complete frame. -/
theorem decode_encodedFrame {opcode : UInt8} (hop : opcode ∈ frameOpcodes)
    {payload : List UInt8} (hlen : payload.length < 2 ^ 31 - 14)
    (hctl : opcode >= 0x08 -> payload.length ≤ 125) (mask : Option (Fin 4 -> UInt8))
    (rest : List UInt8) :
    exists hdr, wsDirectFrameDecode (encodedFrame mask opcode payload ++ rest) =
      { used := ((encodedFrame mask opcode payload).length : Int)
        buf := hdr ++ (payload ++ rest)
        opcode := opcode
        fin := true
        payOff := hdr.length
        payLen := payload.length } ∧
      hdr.length + payload.length = (encodedFrame mask opcode payload).length := by
  rcases encodedFrame_eq mask opcode (by omega : payload.length < 2 ^ 63) with
    ⟨b1, ext, hext, hmasked, hok, hframe⟩
  have hbody := length_frameBody mask payload
  have hsize : (encodedFrame mask opcode payload).length =
      2 + ext.length + (if mask.isSome then 4 else 0) + payload.length := by
    rw [hframe, List.length_cons, List.length_cons, List.length_append, hbody]
    omega
  have hbound := maskSize_le mask.isSome
  have hread := hok.read (frameBody mask payload ++ rest)
  rw [← List.append_assoc] at hread
  have hdecode := decode_known hop hmasked hread (by omega) (by omega) hctl
  rw [if_neg (by
    rw [List.length_cons, List.length_cons, List.length_append, List.length_append, hbody]
    omega), ← hsize, cInt_of_lt (by omega)] at hdecode
  rw [hsize, hframe, List.cons_append, List.cons_append, hdecode, hsize]
  cases mask with
  | none =>
      refine ⟨(0x80 ||| (opcode &&& 0x0F)) :: b1 :: ext, ?_, ?_⟩
      · simp only [frameBody, Option.isSome_none, Bool.false_eq_true, if_false,
          List.cons_append, List.append_assoc, List.length_cons, Nat.add_zero]
        rw [show 2 + ext.length = ext.length + 1 + 1 by omega]
      · simp only [List.length_cons, Option.isSome_none, Bool.false_eq_true, if_false]
        omega
  | some m =>
      refine ⟨(0x80 ||| (opcode &&& 0x0F)) :: b1 :: (ext ++ List.ofFn m), ?_, ?_⟩
      · have hunmask := unmaskAt_frame ((0x80 ||| (opcode &&& 0x0F)) :: b1 :: ext)
          (List.ofFn m) payload rest List.length_ofFn
        have hhdr : ((0x80 ||| (opcode &&& 0x0F)) :: b1 :: ext).length = 2 + ext.length := by
          rw [List.length_cons, List.length_cons]
          omega
        rw [hhdr] at hunmask
        simp only [List.cons_append] at hunmask
        simp only [frameBody, Option.isSome_some, if_true, List.append_assoc, List.cons_append,
          List.length_cons, List.length_append, List.length_ofFn]
        rw [hunmask]
        simp only [Nat.add_comm, Nat.add_left_comm]
      · simp only [List.length_cons, List.length_append, List.length_ofFn, Option.isSome_some,
          if_true]
        omega

/-- Decoding a strict prefix of a frame. -/
theorem decode_encodedFrame_prefix {opcode : UInt8} (hop : opcode ∈ frameOpcodes)
    {payload : List UInt8} (hlen : payload.length < 2 ^ 31 - 14)
    (hctl : opcode >= 0x08 -> payload.length ≤ 125) (mask : Option (Fin 4 -> UInt8))
    {k : Nat} (hk : k < (encodedFrame mask opcode payload).length) :
    wsDirectFrameDecode ((encodedFrame mask opcode payload).take k) =
      { used := 0, buf := (encodedFrame mask opcode payload).take k } := by
  rcases encodedFrame_eq mask opcode (by omega : payload.length < 2 ^ 63) with
    ⟨b1, ext, hext, hmasked, hok, hframe⟩
  have hbody := length_frameBody mask payload
  rw [hframe] at hk ⊢
  rw [List.length_cons, List.length_cons, List.length_append, hbody] at hk
  match k with
  | 0 => rfl
  | 1 => rfl
  | k + 2 =>
      rw [List.take_succ_cons, List.take_succ_cons]
      by_cases hearly : k < ext.length
      · rw [List.take_append_of_le_length (Nat.le_of_lt hearly)]
        exact decode_needMore hop (hok.early k hearly)
      · rw [List.take_append, List.take_of_length_le (Nat.le_of_not_lt hearly)]
        rw [decode_known hop hmasked (hok.read _) (by omega) (by omega) hctl, if_pos]
        rw [List.length_cons, List.length_cons, List.length_append, List.length_take, hbody]
        omega

/-!
# The round trip
-/

theorem encodeServer_eq {opcode : UInt8} {payload : List UInt8} {outMax : Nat} {n : Int}
    {frame : List UInt8} (h : wsDirectFrameEncodeServer opcode payload outMax = (n, frame))
    (hn : n ≠ -1) : frame = encodedFrame none opcode payload ∧ n = cInt frame.length := by
  unfold wsDirectFrameEncodeServer at h
  split at h
  · exact absurd (Prod.mk.inj h).1.symm hn
  · rcases Prod.mk.inj h with ⟨hret, hout⟩
    rw [hout] at hret
    exact ⟨hout.symm, hret.symm⟩

theorem encodeClient_eq {mask : Fin 4 -> UInt8} {opcode : UInt8} {payload : List UInt8}
    {outMax : Nat} {n : Int} {frame : List UInt8}
    (h : wsDirectFrameEncodeClient mask opcode payload outMax = (n, frame)) (hn : n ≠ -1) :
    frame = encodedFrame (some mask) opcode payload ∧ n = cInt frame.length := by
  unfold wsDirectFrameEncodeClient at h
  split at h
  · exact absurd (Prod.mk.inj h).1.symm hn
  · rcases Prod.mk.inj h with ⟨hret, hout⟩
    rw [hout] at hret
    exact ⟨hout.symm, hret.symm⟩

/-- With room for the whole frame the encoders do write it. -/
theorem encode_writes {opcode : UInt8} {payload : List UInt8}
    (hlen : payload.length < 2 ^ 31 - 14) {outMax : Nat} (hroom : payload.length + 14 ≤ outMax) :
    wsDirectFrameEncodeServer opcode payload outMax =
        (((encodedFrame none opcode payload).length : Int), encodedFrame none opcode payload) ∧
      forall mask, wsDirectFrameEncodeClient mask opcode payload outMax =
        (((encodedFrame (some mask) opcode payload).length : Int),
          encodedFrame (some mask) opcode payload) := by
  have hext : (if payload.length >= 126 then (if payload.length > 65535 then 8 else 2) else 0) ≤
      8 := by
    split
    · split
      · exact Nat.le_refl 8
      · exact Nat.le_add_right 2 6
    · exact Nat.zero_le 8
  have hneed : forall masklen, masklen ≤ 4 -> ¬ frameNeed payload.length masklen > outMax := by
    intro masklen hmask
    unfold frameNeed
    rw [u64_of_lt (by omega)]
    omega
  have hret : forall mask, cInt (encodedFrame mask opcode payload).length =
      (encodedFrame mask opcode payload).length := by
    intro mask
    have hsize := length_encodedFrame_le mask opcode (by omega : payload.length < 2 ^ 63)
    exact cInt_of_lt (by omega)
  constructor
  · rw [← hret none]
    unfold wsDirectFrameEncodeServer
    rw [if_neg (hneed 0 (Nat.zero_le 4))]
    rfl
  · intro mask
    rw [← hret (some mask)]
    unfold wsDirectFrameEncodeClient
    rw [if_neg (hneed 4 (Nat.le_refl 4))]
    rfl

/-- What either encoder has written. -/
def EncodedAs (opcode : UInt8) (payload : List UInt8) (n : Int) (frame : List UInt8) : Prop :=
  n ≠ -1 ∧ exists outMax,
    wsDirectFrameEncodeServer opcode payload outMax = (n, frame) ∨
      exists mask, wsDirectFrameEncodeClient mask opcode payload outMax = (n, frame)

theorem wsDirectFrameDecode_encode {opcode : UInt8} (hop : opcode ∈ frameOpcodes)
    {payload : List UInt8} (hlen : payload.length < 2 ^ 31 - 14)
    (hctl : opcode >= 0x08 -> payload.length ≤ 125) {n : Int} {frame : List UInt8}
    (henc : EncodedAs opcode payload n frame) :
    (forall rest d, wsDirectFrameDecode (frame ++ rest) = d ->
      d.used = n ∧ n = frame.length ∧ d.opcode = opcode ∧ d.fin = true ∧
        (d.buf.drop d.payOff).take d.payLen = payload ∧
        d.buf.length = (frame ++ rest).length ∧ d.buf.drop frame.length = rest) ∧
    (forall k, k < frame.length ->
      wsDirectFrameDecode (frame.take k) = { used := 0, buf := frame.take k }) := by
  rcases henc with ⟨hn, outMax, henc⟩
  have hframe : exists mask, frame = encodedFrame mask opcode payload ∧ n = cInt frame.length := by
    rcases henc with hserver | ⟨mask, hclient⟩
    · exact ⟨none, encodeServer_eq hserver hn⟩
    · exact ⟨some mask, encodeClient_eq hclient hn⟩
  rcases hframe with ⟨mask, hframe, hlength⟩
  constructor
  · intro rest d hd
    rcases decode_encodedFrame hop hlen hctl mask rest with ⟨hdr, hdecode, hsize⟩
    rw [← hframe] at hdecode hsize
    have hbound := length_encodedFrame_le mask opcode (by omega : payload.length < 2 ^ 63)
    rw [← hframe] at hbound
    rw [cInt_of_lt (by omega)] at hlength
    rw [← hd, hdecode, hlength]
    refine ⟨rfl, rfl, rfl, rfl, ?_, ?_, ?_⟩
    · rw [List.drop_left, List.take_left]
    · rw [List.length_append, List.length_append, List.length_append, ← hsize, Nat.add_assoc]
    · rw [← hsize, ← List.append_assoc, ← List.length_append, List.drop_left]
  · intro k hk
    rw [hframe] at hk ⊢
    exact decode_encodedFrame_prefix hop hlen hctl mask hk

/-- The client sends "hi" and the first byte of its next frame. -/
theorem wsDirectFrameDecode_encode_hi :
    (wsDirectFrameDecode ([0x81, 0x82, 1, 2, 3, 4, 105, 107] ++ [0x81])).used = 8 := by
  have henc : EncodedAs 1 [104, 105] 8 [0x81, 0x82, 1, 2, 3, 4, 105, 107] := by
    refine ⟨by decide, 16, Or.inr ⟨fun i => UInt8.ofNat (i.val + 1), ?_⟩⟩
    exact (encode_writes (by decide) (by decide)).2 _
  have hround := wsDirectFrameDecode_encode (by decide) (by decide) (by decide) henc
  exact (hround.1 [0x81] _ rfl).1

end WebSocket
end PkgManager
