import Mathlib.Algebra.Order.Ring.Nat
import Mathlib.Data.List.Basic
import Mathlib.Tactic.Common

/-!
# SHA-1 and base 64

The digest of FIPS 180-4 over messages of whole bytes, and the encoding of RFC 4648.  A message
may also be taken in byte by byte: a block is hashed as soon as it is complete.
-/

namespace Sha1

abbrev Word := UInt32

/-!
# Functions and constants
-/

/-- {lit}`ROTL` -/
def rotl (n : Word) (x : Word) : Word :=
  (x <<< n) ||| (x >>> (32 - n))

def ch (x y z : Word) : Word :=
  (x &&& y) ^^^ (~~~x &&& z)

def parity (x y z : Word) : Word :=
  x ^^^ y ^^^ z

def maj (x y z : Word) : Word :=
  (x &&& y) ^^^ (x &&& z) ^^^ (y &&& z)

def f (t : Nat) : Word -> Word -> Word -> Word :=
  if t < 20 then ch else if t < 40 then parity else if t < 60 then maj else parity

def k (t : Nat) : Word :=
  if t < 20 then 0x5A827999
  else if t < 40 then 0x6ED9EBA1
  else if t < 60 then 0x8F1BBCDC
  else 0xCA62C1D6

/-- Five words. -/
structure Hash where
  a : Word
  b : Word
  c : Word
  d : Word
  e : Word
deriving DecidableEq

def start : Hash where
  a := 0x67452301
  b := 0xEFCDAB89
  c := 0x98BADCFE
  d := 0x10325476
  e := 0xC3D2E1F0

/-!
# Blocks
-/

/-- Four bytes, the most significant first. -/
def wordAt (block : List UInt8) (i : Nat) : Word :=
  ((block.getD (4 * i) 0).toUInt32 <<< 24) ||| ((block.getD (4 * i + 1) 0).toUInt32 <<< 16) |||
    ((block.getD (4 * i + 2) 0).toUInt32 <<< 8) ||| (block.getD (4 * i + 3) 0).toUInt32

/-- The schedule of a block. -/
def schedule (block : List UInt8) (t : Nat) : Word :=
  if t < 16 then wordAt block t
  else
    rotl 1 (schedule block (t - 3) ^^^ schedule block (t - 8) ^^^ schedule block (t - 14) ^^^
      schedule block (t - 16))
termination_by t

def round (w : Nat -> Word) (s : Hash) (t : Nat) : Hash where
  a := rotl 5 s.a + f t s.b s.c s.d + s.e + k t + w t
  b := s.a
  c := rotl 30 s.b
  d := s.c
  e := s.d

def compress (h : Hash) (block : List UInt8) : Hash :=
  let s := (List.range 80).foldl (round (schedule block)) h
  { a := h.a + s.a, b := h.b + s.b, c := h.c + s.c, d := h.d + s.d, e := h.e + s.e }

/-!
# Messages
-/

/-- The smallest number of zero bytes that leaves room for the length in the last block. -/
def zeroCount (len : Nat) : Nat :=
  (119 - len % 64) % 64

/-- A number in eight bytes, the most significant first. -/
def lengthBytes (n : Nat) : List UInt8 :=
  (List.range 8).map (fun i => UInt8.ofNat (n >>> (56 - 8 * i)))

def padded (msg : List UInt8) : List UInt8 :=
  msg ++ (0x80 :: List.replicate (zeroCount msg.length) 0) ++ lengthBytes (8 * msg.length)

/-- The blocks of a text one after the other. -/
def hashBlocks (h : Hash) : Nat -> List UInt8 -> Hash
  | 0, _ => h
  | n + 1, text => hashBlocks (compress h (text.take 64)) n (text.drop 64)

def wordBytes (w : Word) : List UInt8 :=
  [(w >>> 24).toUInt8, (w >>> 16).toUInt8, (w >>> 8).toUInt8, w.toUInt8]

def digest (msg : List UInt8) : List UInt8 :=
  let h := hashBlocks start ((padded msg).length / 64) (padded msg)
  wordBytes h.a ++ wordBytes h.b ++ wordBytes h.c ++ wordBytes h.d ++ wordBytes h.e

theorem zeroCount_fills (len : Nat) : (len + 1 + zeroCount len + 8) % 64 = 0 := by
  unfold zeroCount
  omega

theorem length_padded (msg : List UInt8) :
    (padded msg).length = msg.length + 1 + zeroCount msg.length + 8 := by
  simp [padded, lengthBytes]
  omega

/-!
# Byte by byte
-/

/-- The hash of the complete blocks and the bytes behind them. -/
structure Absorbed where
  hash : Hash
  rest : List UInt8

def Absorbed.add (s : Absorbed) (b : UInt8) : Absorbed :=
  if s.rest.length = 63 then { hash := compress s.hash (s.rest ++ [b]), rest := [] }
  else { s with rest := s.rest ++ [b] }

def absorb (s : Absorbed) (text : List UInt8) : Absorbed :=
  text.foldl Absorbed.add s

theorem absorb_append (s : Absorbed) (a b : List UInt8) :
    absorb s (a ++ b) = absorb (absorb s a) b :=
  List.foldl_append

/-- Bytes that do not complete the block. -/
theorem absorb_short {s : Absorbed} {text : List UInt8} (h : s.rest.length + text.length < 64) :
    absorb s text = { s with rest := s.rest ++ text } := by
  induction text generalizing s with
  | nil =>
      rw [List.append_nil]
      rfl
  | cons b text ih =>
      rw [List.length_cons] at h
      have hadd : s.add b = { s with rest := s.rest ++ [b] } := if_neg (by omega)
      rw [absorb, List.foldl_cons, hadd]
      have hnext := @ih { s with rest := s.rest ++ [b] } (by
        rw [List.length_append, List.length_singleton]
        omega)
      rw [absorb] at hnext
      rw [hnext, List.append_assoc, List.singleton_append]

/-- Bytes that complete the block. -/
theorem absorb_full {s : Absorbed} {text : List UInt8} (hne : text ≠ [])
    (h : s.rest.length + text.length = 64) :
    absorb s text = { hash := compress s.hash (s.rest ++ text), rest := [] } := by
  rcases List.eq_nil_or_concat text with hnil | ⟨front, b, htext⟩
  · exact absurd hnil hne
  · rw [List.concat_eq_append] at htext
    subst htext
    rw [List.length_append, List.length_singleton] at h
    have hfront := @absorb_short s front (by omega)
    rw [absorb_append, hfront]
    change Absorbed.add { s with rest := s.rest ++ front } b = _
    have hfull : (s.rest ++ front).length = 63 := by
      rw [List.length_append]
      omega
    unfold Absorbed.add
    rw [if_pos hfull, List.append_assoc]

theorem length_absorb {s : Absorbed} (h : s.rest.length < 64) (text : List UInt8) :
    (absorb s text).rest.length = (s.rest.length + text.length) % 64 := by
  induction text generalizing s with
  | nil => exact (Nat.mod_eq_of_lt h).symm
  | cons b text ih =>
      have hadd : (s.add b).rest.length = (s.rest.length + 1) % 64 := by
        unfold Absorbed.add
        split
        · rename_i hfull
          rw [hfull]
          rfl
        · rw [List.length_append, List.length_singleton, Nat.mod_eq_of_lt (by omega)]
      have hnext := @ih (s.add b) (by rw [hadd]; exact Nat.mod_lt _ (by decide))
      change (absorb (s.add b) text).rest.length = _
      rw [hnext, hadd, List.length_cons]
      omega

/-- Whole blocks are hashed one after the other. -/
theorem absorb_blocks (h : Hash) {n : Nat} {text : List UInt8} (hlen : text.length = 64 * n) :
    absorb { hash := h, rest := [] } text = { hash := hashBlocks h n text, rest := [] } := by
  induction n generalizing h text with
  | zero =>
      rw [List.eq_nil_of_length_eq_zero hlen]
      rfl
  | succ n ih =>
      have htake : (text.take 64).length = 64 := by
        rw [List.length_take]
        omega
      have hne : text.take 64 ≠ [] := by
        intro hnil
        rw [hnil] at htake
        cases htake
      have hfirst := @absorb_full { hash := h, rest := [] } (text.take 64) hne (by
        rw [htake]
        rfl)
      conv_lhs => rw [<- List.take_append_drop 64 text]
      rw [absorb_append, hfirst, List.nil_append, ih _ (by rw [List.length_drop]; omega)]
      rfl

/-- The digest is what is left when the padded message has been taken in. -/
theorem absorb_padded (msg : List UInt8) :
    absorb { hash := start, rest := [] } (padded msg) =
      { hash := hashBlocks start ((padded msg).length / 64) (padded msg), rest := [] } := by
  have hfills := zeroCount_fills msg.length
  have hlen := length_padded msg
  exact absorb_blocks start (by omega)

end Sha1

namespace Base64

/-!
# Base 64
-/

/-- {lit}`A`-{lit}`Z`, {lit}`a`-{lit}`z`, {lit}`0`-{lit}`9`, {lit}`+` and {lit}`/` -/
def letter (n : Nat) : UInt8 :=
  if n < 26 then UInt8.ofNat (65 + n)
  else if n < 52 then UInt8.ofNat (97 + (n - 26))
  else if n < 62 then UInt8.ofNat (48 + (n - 52))
  else if n = 62 then 43
  else 47

/-- Groups of 24 bits are written as four letters; at the end, zero bits fill the last letter and
{lit}`=` the group. -/
def encode : List UInt8 -> List UInt8
  | [] => []
  | [a] =>
      let n := a.toNat * 2 ^ 4
      [letter (n / 2 ^ 6), letter (n % 2 ^ 6), 61, 61]
  | [a, b] =>
      let n := (a.toNat * 2 ^ 8 + b.toNat) * 2 ^ 2
      [letter (n / 2 ^ 12), letter (n / 2 ^ 6 % 2 ^ 6), letter (n % 2 ^ 6), 61]
  | a :: b :: c :: rest =>
      let n := (a.toNat * 2 ^ 8 + b.toNat) * 2 ^ 8 + c.toNat
      letter (n / 2 ^ 18) :: letter (n / 2 ^ 12 % 2 ^ 6) :: letter (n / 2 ^ 6 % 2 ^ 6) ::
        letter (n % 2 ^ 6) :: encode rest

end Base64
