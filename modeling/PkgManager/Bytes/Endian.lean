import Mathlib.Algebra.Order.Ring.Int
import Mathlib.Data.List.Basic
import Mathlib.Data.List.Induction
import Mathlib.Tactic.Common

/-!
# Numbers as bytes

A number written to a fixed width, the least or the most significant byte first.
Writing cuts a number that does not fit; reading what was written gives the
number back when it does.
-/

namespace Endian

def littleEndian : Nat -> Nat -> List UInt8
  | 0, _ => []
  | width + 1, value => UInt8.ofNat value :: littleEndian width (value / 256)

def ofLittleEndian : List UInt8 -> Nat
  | [] => 0
  | b :: rest => b.toNat + 256 * ofLittleEndian rest

def bigEndian (width value : Nat) : List UInt8 :=
  (littleEndian width value).reverse

def ofBigEndian (bytes : List UInt8) : Nat :=
  bytes.foldl (fun value b => 256 * value + b.toNat) 0

@[simp] theorem length_littleEndian (width value : Nat) :
    (littleEndian width value).length = width := by
  induction width generalizing value with
  | zero => rfl
  | succ width ih =>
      show (littleEndian width (value / 256)).length + 1 = width + 1
      rw [ih]

theorem ofLittleEndian_littleEndian {width value : Nat} (h : value < 256 ^ width) :
    ofLittleEndian (littleEndian width value) = value := by
  induction width generalizing value with
  | zero =>
      rw [Nat.pow_zero] at h
      have hzero : value = 0 := by omega
      rw [hzero]
      rfl
  | succ width ih =>
      have hrest : value / 256 < 256 ^ width := by
        rw [Nat.pow_succ] at h
        exact Nat.div_lt_of_lt_mul (by omega)
      show (UInt8.ofNat value).toNat + 256 * ofLittleEndian (littleEndian width (value / 256)) =
        value
      rw [ih hrest, UInt8.toNat_ofNat']
      omega

/-- The most significant byte is the last one written. -/
theorem littleEndian_succ (width value : Nat) :
    littleEndian (width + 1) value =
      littleEndian width value ++ [UInt8.ofNat (value / 256 ^ width)] := by
  induction width generalizing value with
  | zero =>
      rw [Nat.pow_zero, Nat.div_one]
      rfl
  | succ width ih =>
      show UInt8.ofNat value :: littleEndian (width + 1) (value / 256) = _
      rw [ih, Nat.div_div_eq_div_mul, Nat.pow_succ']
      rfl

theorem bigEndian_succ (width value : Nat) :
    bigEndian (width + 1) value = UInt8.ofNat (value / 256 ^ width) :: bigEndian width value := by
  unfold bigEndian
  rw [littleEndian_succ, List.reverse_append]
  rfl

theorem ofBigEndian_append_singleton (bytes : List UInt8) (b : UInt8) :
    ofBigEndian (bytes ++ [b]) = 256 * ofBigEndian bytes + b.toNat := by
  unfold ofBigEndian
  rw [List.foldl_append]
  rfl

theorem ofBigEndian_reverse (bytes : List UInt8) :
    ofBigEndian bytes.reverse = ofLittleEndian bytes := by
  induction bytes with
  | nil => rfl
  | cons b rest ih =>
      rw [List.reverse_cons, ofBigEndian_append_singleton, ih]
      show 256 * ofLittleEndian rest + b.toNat = b.toNat + 256 * ofLittleEndian rest
      omega

theorem ofBigEndian_bigEndian {width value : Nat} (h : value < 256 ^ width) :
    ofBigEndian (bigEndian width value) = value := by
  unfold bigEndian
  rw [ofBigEndian_reverse, ofLittleEndian_littleEndian h]

theorem ofLittleEndian_lt (bytes : List UInt8) : ofLittleEndian bytes < 256 ^ bytes.length := by
  induction bytes with
  | nil => decide
  | cons b rest ih =>
      have hb : b.toNat < 256 := b.toNat_lt
      rw [ofLittleEndian, List.length_cons, Nat.pow_succ]
      omega

theorem ofBigEndian_lt (bytes : List UInt8) : ofBigEndian bytes < 256 ^ bytes.length := by
  induction bytes using List.reverseRecOn with
  | nil => decide
  | append_singleton bytes b ih =>
      have hb : b.toNat < 256 := b.toNat_lt
      rw [ofBigEndian_append_singleton, List.length_append, List.length_singleton, Nat.pow_succ]
      omega

end Endian

/-!
# Records of fixed widths

A record is packed by writing its fields one after the other.  A text is cut or
filled with zero bytes to its width; a number that does not fit its width cannot
be packed.  Splitting the bytes at the widths gives the fields back.
-/

namespace Struct

open Endian

inductive Field where
  | text (width : Nat) (bytes : List UInt8)
  | number (width value : Nat)

def padded (width : Nat) (bytes : List UInt8) : List UInt8 :=
  bytes.take width ++ List.replicate (width - bytes.length) 0

def Field.width : Field -> Nat
  | text width _ => width
  | number width _ => width

def Field.encode : Field -> Option (List UInt8)
  | text width bytes => some (padded width bytes)
  | number width value => if value < 256 ^ width then some (littleEndian width value) else none

def pack : List Field -> Option (List UInt8)
  | [] => some []
  | f :: fs =>
      match f.encode with
      | none => none
      | some bytes => (pack fs).map (fun rest => bytes ++ rest)

def split : List Nat -> List UInt8 -> List (List UInt8)
  | [], _ => []
  | width :: widths, bytes => bytes.take width :: split widths (bytes.drop width)

@[simp] theorem length_padded (width : Nat) (bytes : List UInt8) :
    (padded width bytes).length = width := by
  unfold padded
  rw [List.length_append, List.length_take, List.length_replicate]
  omega

/-- A text of the width is written as it is. -/
theorem padded_of_length {width : Nat} {bytes : List UInt8} (h : bytes.length = width) :
    padded width bytes = bytes := by
  unfold padded
  rw [h, Nat.sub_self, ← h, List.take_length, List.replicate_zero, List.append_nil]

theorem length_encode {f : Field} {bytes : List UInt8} (h : f.encode = some bytes) :
    bytes.length = f.width := by
  cases f with
  | text width text =>
      cases h
      exact length_padded width text
  | number width value =>
      rw [Field.encode] at h
      split at h
      · cases h
        exact length_littleEndian width value
      · cases h

theorem pack_cons {f : Field} {fs : List Field} {bytes : List UInt8}
    (h : pack (f :: fs) = some bytes) :
    exists head tail, f.encode = some head ∧ pack fs = some tail ∧ bytes = head ++ tail := by
  rw [pack] at h
  cases hf : f.encode with
  | none =>
      rw [hf] at h
      cases h
  | some head =>
      rw [hf] at h
      rcases Option.map_eq_some_iff.mp h with ⟨tail, htail, hbytes⟩
      exact ⟨head, tail, rfl, htail, hbytes.symm⟩

theorem length_pack {fs : List Field} {bytes : List UInt8} (h : pack fs = some bytes) :
    bytes.length = (fs.map Field.width).sum := by
  induction fs generalizing bytes with
  | nil =>
      cases h
      rfl
  | cons f fs ih =>
      rcases pack_cons h with ⟨head, tail, hhead, htail, hbytes⟩
      rw [hbytes, List.length_append, length_encode hhead, ih htail, List.map_cons, List.sum_cons]

/-- Splitting at the widths undoes packing, whatever comes behind the record. -/
theorem split_pack {fs : List Field} {bytes : List UInt8} (h : pack fs = some bytes)
    (rest : List UInt8) :
    fs.map Field.encode = (split (fs.map Field.width) (bytes ++ rest)).map some := by
  induction fs generalizing bytes with
  | nil => rfl
  | cons f fs ih =>
      rcases pack_cons h with ⟨head, tail, hhead, htail, hbytes⟩
      have hwidth := length_encode hhead
      have htake : (head ++ (tail ++ rest)).take f.width = head := List.take_left' hwidth
      have hdrop : (head ++ (tail ++ rest)).drop f.width = tail ++ rest := List.drop_left' hwidth
      rw [hbytes, List.append_assoc, List.map_cons, List.map_cons, split, htake, hdrop,
        List.map_cons, ← ih htail, hhead]

/-- The field at a place of the record. -/
theorem encode_split {fs : List Field} {bytes : List UInt8} (h : pack fs = some bytes)
    (rest : List UInt8) {k : Nat} {f : Field} (hf : fs[k]? = some f) :
    f.encode = some ((split (fs.map Field.width) (bytes ++ rest)).getD k []) := by
  have hget := congrArg (fun l : List (Option (List UInt8)) => l[k]?) (split_pack h rest)
  rw [List.getElem?_map, List.getElem?_map, hf, Option.map_some] at hget
  rcases Option.map_eq_some_iff.mp hget.symm with ⟨part, hpart, heq⟩
  rw [← heq, List.getD_eq_getElem?_getD, hpart]
  rfl

theorem text_split {fs : List Field} {bytes : List UInt8} (h : pack fs = some bytes)
    (rest : List UInt8) {k width : Nat} {text : List UInt8}
    (hf : fs[k]? = some (Field.text width text)) :
    (split (fs.map Field.width) (bytes ++ rest)).getD k [] = padded width text := by
  have hencode := encode_split h rest hf
  exact (Option.some.inj hencode).symm

theorem number_split {fs : List Field} {bytes : List UInt8} (h : pack fs = some bytes)
    (rest : List UInt8) {k width value : Nat} (hf : fs[k]? = some (Field.number width value)) :
    ofLittleEndian ((split (fs.map Field.width) (bytes ++ rest)).getD k []) = value ∧
      value < 256 ^ width := by
  have hencode := encode_split h rest hf
  rw [Field.encode] at hencode
  split at hencode
  · rename_i hfits
    rw [← Option.some.inj hencode]
    exact ⟨ofLittleEndian_littleEndian hfits, hfits⟩
  · cases hencode

/-- A record is packed when each field is. -/
theorem pack_isSome {fs : List Field} (h : forall f, f ∈ fs -> f.encode.isSome = true) :
    (pack fs).isSome = true := by
  induction fs with
  | nil => rfl
  | cons f fs ih =>
      have hf := h f List.mem_cons_self
      have hrest := ih (fun g hg => h g (List.mem_cons_of_mem f hg))
      rw [pack]
      cases hencode : f.encode with
      | none =>
          rw [hencode] at hf
          cases hf
      | some bytes =>
          dsimp only
          rw [Option.isSome_map]
          exact hrest

theorem number_isSome {width value : Nat} (h : value < 256 ^ width) :
    (Field.number width value).encode.isSome = true := by
  rw [Field.encode, if_pos h]
  rfl

end Struct

/-!
# Numerals

A number is written with a fixed count of digits in a base, the least digit first, and read
with the greatest digit first.
-/

namespace Numeral

def digits (base : Nat) : Nat -> Nat -> List Nat
  | 0, _ => []
  | width + 1, value => value % base :: digits base width (value / base)

def value (base : Nat) (greatestFirst : List Nat) : Nat :=
  greatestFirst.foldl (fun value digit => value * base + digit) 0

@[simp] theorem length_digits (base width n : Nat) : (digits base width n).length = width := by
  induction width generalizing n with
  | zero => rfl
  | succ width ih =>
      show (digits base width (n / base)).length + 1 = width + 1
      rw [ih]

theorem lt_of_mem_digits {base width n digit : Nat} (hbase : 0 < base)
    (h : digit ∈ digits base width n) : digit < base := by
  induction width generalizing n with
  | zero => cases h
  | succ width ih =>
      rcases List.mem_cons.mp h with rfl | hrest
      · exact Nat.mod_lt n hbase
      · exact ih hrest

theorem value_digits {base width n : Nat} (h : n < base ^ width) :
    value base (digits base width n).reverse = n := by
  unfold value
  rw [List.foldl_reverse]
  induction width generalizing n with
  | zero =>
      rw [Nat.pow_zero] at h
      have hzero : n = 0 := by omega
      rw [hzero]
      rfl
  | succ width ih =>
      have hrest : n / base < base ^ width := by
        rw [Nat.pow_succ] at h
        exact Nat.div_lt_of_lt_mul (by rwa [Nat.mul_comm])
      show (digits base width (n / base)).foldr (fun digit value => value * base + digit) 0 * base +
        n % base = n
      rw [ih hrest]
      exact Nat.div_add_mod' n base

end Numeral
