import Mathlib.Algebra.Order.Ring.Nat
import Mathlib.Data.List.GetD
import Mathlib.Data.List.Induction
import Mathlib.Data.List.OfFn
import Mathlib.Tactic.Common

/-!
# AES-CMAC

The message authentication code of RFC 4493 over any function on blocks of 128 bits.  A block is
read from its bytes with the most significant one first, so that its bits can be told from those
of the bytes.
-/

namespace Cmac

abbrev Block := BitVec 128

/-!
# The code
-/

def valueOf (bytes : List UInt8) : Nat :=
  bytes.foldl (fun v b => 256 * v + b.toNat) 0

def ofBytes (bytes : List UInt8) : Block :=
  BitVec.ofNat 128 (valueOf bytes)

/-- Doubling in the field with {lit}`x^128 = x^7 + x^2 + x + 1`. -/
def double (x : Block) : Block :=
  if x.msb then x <<< 1 ^^^ 0x87#128 else x <<< 1

section
variable (e : Block -> Block)

def subkey1 : Block :=
  double (e 0)

def subkey2 : Block :=
  double (subkey1 e)

/-- The block with a number, which may be shorter at the end of the message. -/
def part (msg : List UInt8) (i : Nat) : List UInt8 :=
  (msg.drop (16 * i)).take 16

/-- A one bit and zero bits behind a part. -/
def padded (bytes : List UInt8) : List UInt8 :=
  bytes ++ 0x80 :: List.replicate (15 - bytes.length) 0

/-- The empty message has one block as well. -/
def blockCount (len : Nat) : Nat :=
  max 1 ((len + 15) / 16)

def lastBlock (msg : List UInt8) : Block :=
  if msg.length ≠ 0 ∧ msg.length % 16 = 0 then
    ofBytes (part msg (blockCount msg.length - 1)) ^^^ subkey1 e
  else ofBytes (padded (part msg (blockCount msg.length - 1))) ^^^ subkey2 e

/-- The blocks in front of the last one, from a state on. -/
def chain (x : Block) (msg : List UInt8) (count : Nat) : Block :=
  (List.range count).foldl (fun x i => e (x ^^^ ofBytes (part msg i))) x

def mac (msg : List UInt8) : Block :=
  e (lastBlock e msg ^^^ chain e 0 msg (blockCount msg.length - 1))

end

/-!
# Bits
-/

theorem valueOf_concat (bytes : List UInt8) (b : UInt8) :
    valueOf (bytes ++ [b]) = 2 ^ 8 * valueOf bytes + b.toNat := by
  rw [valueOf, List.foldl_append]
  rfl

/-- The bits of a number are those of its bytes from the last one on. -/
theorem testBit_valueOf (bytes : List UInt8) (j : Nat) :
    (valueOf bytes).testBit j = (bytes.reverse.getD (j / 8) 0).toNat.testBit (j % 8) := by
  induction bytes using List.reverseRecOn generalizing j with
  | nil =>
      change Nat.testBit 0 j = Nat.testBit 0 (j % 8)
      rw [Nat.zero_testBit, Nat.zero_testBit]
  | append_singleton front b ih =>
      rw [valueOf_concat, Nat.testBit_two_pow_mul_add _ b.toNat_lt, List.reverse_append,
        List.reverse_singleton, List.singleton_append]
      rcases Nat.lt_or_ge j 8 with hlow | hhigh
      · rw [if_pos hlow, Nat.div_eq_of_lt hlow, Nat.mod_eq_of_lt hlow]
        rfl
      · have hquot : j / 8 = (j - 8) / 8 + 1 := by omega
        have hrem : j % 8 = (j - 8) % 8 := by omega
        rw [if_neg (Nat.not_lt.mpr hhigh), ih, hquot, hrem, List.getD_cons_succ]

/-- Sixteen bytes. -/
abbrev Bytes16 := Fin 16 -> UInt8

def ofBlock (b : Bytes16) : Block :=
  ofBytes (List.ofFn b)

theorem getLsbD_ofBlock (b : Bytes16) {j : Nat} (h : j < 128) :
    (ofBlock b).getLsbD j = (b ⟨15 - j / 8, by omega⟩).toNat.testBit (j % 8) := by
  have hindex : (List.ofFn b).reverse.getD (j / 8) 0 = b ⟨15 - j / 8, by omega⟩ := by
    rw [List.getD_eq_getElem?_getD, List.getElem?_reverse (by rw [List.length_ofFn]; omega),
      List.length_ofFn, List.getElem?_ofFn, dif_pos (by omega)]
    rfl
  rw [ofBlock, ofBytes, BitVec.getLsbD_ofNat, testBit_valueOf, hindex, decide_eq_true h,
    Bool.true_and]

/-- The bytes of a block. -/
def toBytes16 (x : Block) : Bytes16 :=
  fun i => UInt8.ofBitVec (x.extractLsb' (8 * (15 - i)) 8)

theorem ofBlock_toBytes16 (x : Block) : ofBlock (toBytes16 x) = x := by
  apply BitVec.eq_of_getLsbD_eq
  intro j hj
  rw [getLsbD_ofBlock _ hj]
  change ((x.extractLsb' (8 * (15 - (15 - j / 8))) 8)).getLsbD (j % 8) = x.getLsbD j
  have hplace : 8 * (15 - (15 - j / 8)) + j % 8 = j := by omega
  rw [BitVec.getLsbD_extractLsb', hplace, decide_eq_true (Nat.mod_lt j (by decide)),
    Bool.true_and]

theorem ofBlock_xor (a b : Bytes16) : ofBlock (fun i => a i ^^^ b i) = ofBlock a ^^^ ofBlock b := by
  apply BitVec.eq_of_getLsbD_eq
  intro j hj
  rw [BitVec.getLsbD_xor, getLsbD_ofBlock _ hj, getLsbD_ofBlock _ hj, getLsbD_ofBlock _ hj,
    UInt8.toNat_xor, Nat.testBit_xor]

theorem ofBlock_list {bytes : List UInt8} (h : bytes.length = 16) :
    ofBlock (fun i => bytes.getD i 0) = ofBytes bytes := by
  have hlist : List.ofFn (fun i : Fin 16 => bytes.getD i 0) = bytes := by
    apply List.ext_getElem (by rw [List.length_ofFn, h])
    intro i hi hb
    rw [List.getElem_ofFn, List.getD_eq_getElem _ _ hb]
  rw [ofBlock, hlist]

/-!
# Shifts
-/

/-- The bits of a doubled block. -/
theorem getLsbD_double (x : Block) {j : Nat} (h : j < 128) :
    (double x).getLsbD j =
      ((decide (1 ≤ j) && x.getLsbD (j - 1)) ^^ (x.getLsbD 127 && Nat.testBit 0x87 j)) := by
  have hmsb : x.msb = x.getLsbD 127 := rfl
  have hshift : (x <<< 1).getLsbD j = (decide (1 ≤ j) && x.getLsbD (j - 1)) := by
    rw [BitVec.getLsbD_shiftLeft, decide_eq_true h, Bool.true_and]
    congr 1
    rcases Nat.lt_or_ge j 1 with hlt | hge
    · rw [decide_eq_true hlt, decide_eq_false (Nat.not_le.mpr hlt)]
      rfl
    · rw [decide_eq_false (Nat.not_lt.mpr hge), decide_eq_true hge]
      rfl
  unfold double
  rw [hmsb]
  cases x.getLsbD 127 with
  | false => rw [if_neg Bool.false_ne_true, hshift, Bool.false_and, Bool.xor_false]
  | true =>
      rw [if_pos rfl, BitVec.getLsbD_xor, hshift, BitVec.getLsbD_ofNat, decide_eq_true h,
        Bool.true_and]

/-!
# The chain
-/

theorem part_drop (msg : List UInt8) (i : Nat) : part (msg.drop 16) i = part msg (i + 1) := by
  rw [part, part, List.drop_drop, Nat.mul_succ, Nat.add_comm]

/-- The first block goes into the state of the others. -/
theorem chain_succ (e : Block -> Block) (x : Block) (msg : List UInt8) (count : Nat) :
    chain e x msg (count + 1) = chain e (e (x ^^^ ofBytes (part msg 0))) (msg.drop 16) count := by
  rw [chain, chain, List.range_succ_eq_map, List.foldl_cons, List.foldl_map]
  simp only [part_drop]

theorem blockCount_long {len : Nat} (h : 16 < len) :
    blockCount len - 1 = blockCount (len - 16) - 1 + 1 := by
  unfold blockCount
  omega

theorem blockCount_short {len : Nat} (h : len ≤ 16) : blockCount len - 1 = 0 := by
  unfold blockCount
  omega

theorem length_padded {bytes : List UInt8} (h : bytes.length < 16) :
    (padded bytes).length = 16 := by
  rw [padded, List.length_append, List.length_cons, List.length_replicate]
  omega

end Cmac
