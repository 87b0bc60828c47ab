import PkgManager.Bytes.Cmac

/-!
# Signatures of messages

{lit}`cmac_accel.h` computes the code of a message with one key schedule.  The last block is kept
back by the loop, and the length decides on its padding and its subkey.
-/

namespace PkgManager
namespace Smb

open Cmac (Bytes16 ofBlock toBytes16)

/-!
# The computation
-/

/-- {lit}`cmac_cipher` with {lit}`cmac_cipher_encrypt`, which may fail. -/
structure CmacCipher where
  encrypt : Bytes16 -> Option Bytes16

/-- {lit}`cmac_double`; a byte takes the first bit of the next one, which is not doubled yet. -/
def cmacDouble (key : Bytes16) : Bytes16 :=
  fun i =>
    if h : i.val < 15 then (key i <<< 1) ||| (key ⟨i.val + 1, by omega⟩ >>> 7)
    else (key 15 <<< 1) ^^^ (if key 0 >>> 7 ≠ 0 then 0x87 else 0)

/-- {lit}`while (len > 16)` -/
def cmacLoop (cipher : CmacCipher) (state : Bytes16) (msg : List UInt8) :
    Option (Bytes16 × List UInt8) :=
  if 16 < msg.length then
    match cipher.encrypt (fun i => state i ^^^ msg.getD i 0) with
    | none => none
    | some state => cmacLoop cipher state (msg.drop 16)
  else some (state, msg)
termination_by msg.length
decreasing_by
  rw [List.length_drop]
  omega

/-- The last block: {lit}`state[i] ^= msg[i]`, and the mark behind a part. -/
def cmacLast (state : Bytes16) (msg : List UInt8) : Bytes16 :=
  fun i =>
    if i.val < msg.length then state i ^^^ msg.getD i 0
    else if i.val = msg.length then state i ^^^ 0x80
    else state i

/-- {lit}`cmac_accel_compute`: the value returned and the array for the code. -/
def cmacAccelCompute (cmacCipherInit : Bytes16 -> Option CmacCipher) (key : Bytes16)
    (msg : List UInt8) (mac : Bytes16) : Int × Bytes16 :=
  match cmacCipherInit key with
  | none => (-1, mac)
  | some cipher =>
      match cipher.encrypt (fun _ => 0) with
      | none => (-1, mac)
      | some subkey =>
          let k1 := cmacDouble subkey
          let subkey := if msg.length = 0 ∨ msg.length % 16 ≠ 0 then cmacDouble k1 else k1
          match cmacLoop cipher (fun _ => 0) msg with
          | none => (-1, mac)
          | some (state, rest) =>
              match cipher.encrypt (fun i => cmacLast state rest i ^^^ subkey i) with
              | none => (-1, mac)
              | some state => (0, state)

/-- A cipher for blocks of 128 bits under every key. -/
def blockCipher (aes : Bytes16 -> Cmac.Block -> Cmac.Block) (key : Bytes16) : Option CmacCipher :=
  some { encrypt := fun block => some (toBytes16 (aes key (ofBlock block))) }

/-!
# Subkeys
-/

theorem testBit_doubled (a : UInt8) {k : Nat} (h : k < 8) :
    (a <<< 1).toNat.testBit k = (decide (1 ≤ k) && a.toNat.testBit (k - 1)) := by
  have hshift : (a <<< 1).toNat = (a.toNat <<< 1) % 2 ^ 8 := UInt8.toNat_shiftLeft a 1
  rw [hshift, Nat.testBit_mod_two_pow, Nat.testBit_shiftLeft, decide_eq_true h, Bool.true_and]

/-- The first bit of a byte. -/
theorem testBit_first (b : UInt8) (k : Nat) :
    (b >>> 7).toNat.testBit k = (decide (k = 0) && b.toNat.testBit 7) := by
  have hshift : (b >>> 7).toNat = b.toNat >>> 7 := UInt8.toNat_shiftRight b 7
  rw [hshift, Nat.testBit_shiftRight]
  cases k with
  | zero => rfl
  | succ k =>
      have hlt : b.toNat < 2 ^ (7 + (k + 1)) :=
        lt_of_lt_of_le b.toNat_lt (Nat.pow_le_pow_right (by decide) (by omega))
      rw [Nat.testBit_lt_two_pow hlt]
      rfl

theorem carry_iff (b : UInt8) : b >>> 7 ≠ 0 ↔ b.toNat.testBit 7 = true := by
  have hbit := testBit_first b 0
  rw [decide_eq_true rfl, Bool.true_and] at hbit
  have hshift : (b >>> 7).toNat = b.toNat / 128 :=
    (UInt8.toNat_shiftRight b 7).trans (Nat.shiftRight_eq_div_pow b.toNat 7)
  have hlt := b.toNat_lt
  have hzero : b >>> 7 = 0 ↔ (b >>> 7).toNat = 0 := UInt8.toNat_inj.symm
  rw [<- hbit, Nat.testBit_zero, decide_eq_true_eq, ne_eq, hzero]
  omega

theorem ofBlock_cmacDouble (key : Bytes16) :
    ofBlock (cmacDouble key) = Cmac.double (ofBlock key) := by
  apply BitVec.eq_of_getLsbD_eq
  intro j hj
  have hfirst : (ofBlock key).getLsbD 127 = (key 0).toNat.testBit 7 :=
    Cmac.getLsbD_ofBlock key (by decide)
  rw [Cmac.getLsbD_double _ hj, Cmac.getLsbD_ofBlock _ hj, hfirst]
  rcases Nat.lt_or_ge j 8 with hlow | hhigh
  · -- the last byte
    have hplace : (⟨15 - j / 8, by omega⟩ : Fin 16) = 15 := by
      apply Fin.ext
      change 15 - j / 8 = 15
      omega
    have hrem : j % 8 = j := Nat.mod_eq_of_lt hlow
    have hprev : (ofBlock key).getLsbD (j - 1) = (key 15).toNat.testBit (j - 1) := by
      rw [Cmac.getLsbD_ofBlock _ (by omega)]
      have hbyte : (⟨15 - (j - 1) / 8, by omega⟩ : Fin 16) = 15 := by
        apply Fin.ext
        change 15 - (j - 1) / 8 = 15
        omega
      rw [hbyte, Nat.mod_eq_of_lt (by omega)]
    have hmark : (if key 0 >>> 7 ≠ 0 then 0x87 else 0 : UInt8).toNat.testBit j =
        ((key 0).toNat.testBit 7 && Nat.testBit 0x87 j) := by
      split
      · rename_i hcarry
        rw [(carry_iff _).mp hcarry, Bool.true_and]
        rfl
      · rename_i hcarry
        rw [Bool.eq_false_iff.mpr (fun h => hcarry ((carry_iff _).mpr h)), Bool.false_and]
        exact Nat.zero_testBit j
    have hbyte : cmacDouble key 15 =
        (key 15 <<< 1) ^^^ (if key 0 >>> 7 ≠ 0 then 0x87 else 0) := dif_neg (by decide)
    rw [hplace, hrem, hbyte, UInt8.toNat_xor, Nat.testBit_xor, testBit_doubled _ hlow, hprev,
      hmark]
  · -- a byte and the first bit of the next one
    have hmark : Nat.testBit 0x87 j = false :=
      Nat.testBit_lt_two_pow (lt_of_lt_of_le (by decide : 0x87 < 2 ^ 8)
        (Nat.pow_le_pow_right (by decide) hhigh))
    have hone : decide (1 ≤ j) = true := decide_eq_true (by omega)
    have hbyte : cmacDouble key ⟨15 - j / 8, by omega⟩ =
        (key ⟨15 - j / 8, by omega⟩ <<< 1) ||| (key ⟨15 - j / 8 + 1, by omega⟩ >>> 7) :=
      dif_pos (by change 15 - j / 8 < 15; omega)
    rw [hbyte, UInt8.toNat_or, Nat.testBit_or, testBit_doubled _ (Nat.mod_lt j (by decide)),
      testBit_first, hmark, Bool.and_false, Bool.xor_false, hone, Bool.true_and,
      Cmac.getLsbD_ofBlock _ (by omega)]
    rcases Nat.eq_zero_or_pos (j % 8) with hzero | hpos
    · have hplace : (⟨15 - (j - 1) / 8, by omega⟩ : Fin 16) = ⟨15 - j / 8 + 1, by omega⟩ := by
        apply Fin.ext
        change 15 - (j - 1) / 8 = 15 - j / 8 + 1
        omega
      have hrem : (j - 1) % 8 = 7 := by omega
      rw [hplace, hrem, hzero]
      rfl
    · have hplace : (⟨15 - (j - 1) / 8, by omega⟩ : Fin 16) = ⟨15 - j / 8, by omega⟩ := by
        apply Fin.ext
        change 15 - (j - 1) / 8 = 15 - j / 8
        omega
      have hrem : (j - 1) % 8 = j % 8 - 1 := by omega
      rw [hplace, hrem, decide_eq_true (Nat.succ_le_of_lt hpos), decide_eq_false (by omega),
        Bool.true_and, Bool.false_and, Bool.or_false]

/-!
# The chain of blocks
-/

variable (aes : Bytes16 -> Cmac.Block -> Cmac.Block)

def aesCipher (key : Bytes16) : CmacCipher where
  encrypt := fun block => some (toBytes16 (aes key (ofBlock block)))

theorem part_first {msg : List UInt8} (h : 16 ≤ msg.length) :
    ofBlock (fun i => msg.getD i 0) = Cmac.ofBytes (Cmac.part msg 0) := by
  have hlen : (msg.take 16).length = 16 := by
    rw [List.length_take]
    omega
  have hsame : (fun i : Fin 16 => msg.getD i 0) = fun i : Fin 16 => (msg.take 16).getD i 0 := by
    funext i
    rw [List.getD_eq_getElem?_getD, List.getD_eq_getElem?_getD, List.getElem?_take_of_lt i.isLt]
  rw [hsame, Cmac.ofBlock_list hlen]
  rfl

/-- The loop leaves the last block and the chain over those in front. -/
theorem cmacLoop_chain (key state : Bytes16) (msg : List UInt8) : exists state' : Bytes16,
    cmacLoop (aesCipher aes key) state msg =
      some (state', Cmac.part msg (Cmac.blockCount msg.length - 1)) ∧
        ofBlock state' = Cmac.chain (aes key) (ofBlock state) msg
          (Cmac.blockCount msg.length - 1) := by
  induction hn : msg.length using Nat.strongRecOn generalizing state msg with
  | _ n ih =>
      rw [cmacLoop.eq_def]
      rcases Nat.lt_or_ge 16 msg.length with hlong | hshort
      · rw [if_pos hlong]
        have hdrop : (msg.drop 16).length = n - 16 := by rw [List.length_drop, hn]
        have hnext := ih (n - 16) (by omega)
          (toBytes16 (aes key (ofBlock (fun i => state i ^^^ msg.getD i 0)))) (msg.drop 16) hdrop
        rcases hnext with ⟨state', hloop, hchain⟩
        refine ⟨state', ?_, ?_⟩
        · rw [<- hn, Cmac.blockCount_long hlong, <- Cmac.part_drop, hn]
          exact hloop
        · rw [hchain, Cmac.ofBlock_toBytes16, Cmac.ofBlock_xor, part_first hlong.le, <- hn,
            Cmac.blockCount_long hlong, Cmac.chain_succ]
      · have hcount := Cmac.blockCount_short hshort
        rw [if_neg (Nat.not_lt.mpr hshort), <- hn, hcount]
        refine ⟨state, ?_, rfl⟩
        rw [Cmac.part, Nat.mul_zero, List.drop_zero, List.take_of_length_le hshort]

/-- The last block is complete or padded. -/
theorem ofBlock_cmacLast (state : Bytes16) (rest : List UInt8) (h : rest.length ≤ 16) :
    ofBlock (cmacLast state rest) = ofBlock state ^^^
      Cmac.ofBytes (if rest.length = 16 then rest else Cmac.padded rest) := by
  have hlen : (if rest.length = 16 then rest else Cmac.padded rest).length = 16 := by
    split
    · assumption
    · exact Cmac.length_padded (by omega)
  rw [<- Cmac.ofBlock_list hlen, <- Cmac.ofBlock_xor]
  congr 1
  funext i
  have hi := i.isLt
  unfold cmacLast
  split
  · rename_i hlt
    congr 1
    split
    · rfl
    · rw [Cmac.padded, List.getD_append _ _ _ _ hlt]
  · rename_i hge
    have hpart : ¬rest.length = 16 := by omega
    rw [if_neg hpart, Cmac.padded, List.getD_append_right _ _ _ _ (by omega)]
    split
    · rename_i heq
      rw [heq, Nat.sub_self]
      rfl
    · rename_i hne
      have hzero : ((0x80 : UInt8) :: List.replicate (15 - rest.length) 0).getD
          (i.val - rest.length) 0 = 0 := by
        obtain ⟨k, hk⟩ : exists k, i.val - rest.length = k + 1 :=
          ⟨i.val - rest.length - 1, by omega⟩
        rw [hk, List.getD_cons_succ, List.getD_replicate]
        omega
      rw [hzero]
      exact (UInt8.xor_zero).symm

/-- The code of every message is the one of the standard. -/
theorem cmacAccelCompute_mac (key : Bytes16) (msg : List UInt8) (mac : Bytes16) :
    cmacAccelCompute (blockCipher aes) key msg mac =
      (0, toBytes16 (Cmac.mac (aes key) msg)) := by
  have hzero : ofBlock (fun _ => 0) = 0 := rfl
  have hk1 : ofBlock (cmacDouble (toBytes16 (aes key (ofBlock (fun _ => 0))))) =
      Cmac.subkey1 (aes key) := by
    rw [ofBlock_cmacDouble, Cmac.ofBlock_toBytes16, hzero]
    rfl
  rcases cmacLoop_chain aes key (fun _ => 0) msg with ⟨state, hloop, hchain⟩
  rw [hzero] at hchain
  have hlen : (Cmac.part msg (Cmac.blockCount msg.length - 1)).length =
      min 16 (msg.length - 16 * (Cmac.blockCount msg.length - 1)) := by
    rw [Cmac.part, List.length_take, List.length_drop]
  have hcount : Cmac.blockCount msg.length - 1 = (msg.length + 15) / 16 - 1 := by
    unfold Cmac.blockCount
    omega
  have hlast := ofBlock_cmacLast state (Cmac.part msg (Cmac.blockCount msg.length - 1))
    (by omega)
  change (match cmacLoop (aesCipher aes key) (fun _ => 0) msg with
    | none => (-1, mac)
    | some (state, rest) => (0, toBytes16 (aes key (ofBlock (fun i => cmacLast state rest i ^^^
        (if msg.length = 0 ∨ msg.length % 16 ≠ 0 then
          cmacDouble (cmacDouble (toBytes16 (aes key (ofBlock (fun _ => 0)))))
        else cmacDouble (toBytes16 (aes key (ofBlock (fun _ => 0))))) i))))) = _
  rw [hloop]
  dsimp only
  rw [Cmac.ofBlock_xor, hlast, hchain, Cmac.mac, Cmac.lastBlock]
  by_cases hcomplete : msg.length ≠ 0 ∧ msg.length % 16 = 0
  · have hpadding : ¬(msg.length = 0 ∨ msg.length % 16 ≠ 0) := by omega
    rw [if_pos hcomplete, if_neg hpadding, hk1, if_pos (by omega)]
    rw [BitVec.xor_comm (Cmac.chain _ _ _ _), BitVec.xor_assoc, BitVec.xor_assoc,
      BitVec.xor_comm (Cmac.chain _ _ _ _)]
  · have hpadding : msg.length = 0 ∨ msg.length % 16 ≠ 0 := by omega
    rw [if_neg hcomplete, if_pos hpadding, ofBlock_cmacDouble, hk1, if_neg (by omega)]
    rw [BitVec.xor_comm (Cmac.chain _ _ _ _), BitVec.xor_assoc, BitVec.xor_assoc,
      BitVec.xor_comm (Cmac.chain _ _ _ _)]
    rfl

end Smb
end PkgManager
