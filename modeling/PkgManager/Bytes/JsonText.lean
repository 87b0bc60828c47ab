import Mathlib.Data.List.Basic
import Mathlib.Data.List.Infix
import Mathlib.Tactic.Common

/-!
# Strings of JSON texts

A string is a list of characters, each of which is written as itself, behind a backslash, or by
its number.  Texts are lists of bytes; a byte above ASCII stands for itself.
-/

namespace JsonText

def isHexDigit (b : UInt8) : Bool :=
  decide (48 ≤ b.toNat ∧ b.toNat ≤ 57) || decide (65 ≤ b.toNat ∧ b.toNat ≤ 70) ||
    decide (97 ≤ b.toNat ∧ b.toNat ≤ 102)

def hexValue (b : UInt8) : Nat :=
  if b.toNat ≤ 57 then b.toNat - 48 else if b.toNat ≤ 70 then b.toNat - 55 else b.toNat - 87

/-- The letters that may stand behind a backslash, besides the one of a number. -/
def shortEscapes : List UInt8 :=
  [34, 92, 47, 98, 102, 110, 114, 116]

/-- How one character is written inside the quotation marks. -/
inductive Piece where
  | plain (b : UInt8) (printed : 32 ≤ b.toNat) (mark : b ≠ 34 ∧ b ≠ 92)
  | short (e : UInt8) (known : e ∈ shortEscapes)
  | unicode (digits : List UInt8) (four : digits.length = 4) (hex : digits.all isHexDigit = true)

namespace Piece

def text : Piece -> List UInt8
  | plain b _ _ => [b]
  | short e _ => [92, e]
  | unicode digits _ _ => 92 :: 117 :: digits

/-- What is left without the backslash. -/
def bare : Piece -> List UInt8
  | plain b _ _ => [b]
  | short e _ => [e]
  | unicode digits _ _ => 117 :: digits

/-- Characters that are written by a number. -/
def isNumbered : Piece -> Bool
  | plain _ _ _ => false
  | short _ _ => false
  | unicode _ _ _ => true

/-- A letter behind a backslash that stands for itself. -/
def Literal : Piece -> Prop
  | plain _ _ _ => True
  | short e _ => e = 34 ∨ e = 92 ∨ e = 47
  | unicode _ _ _ => False

end Piece

/-- A byte that may be written as itself. -/
def isPrinted (b : UInt8) : Bool :=
  decide (32 ≤ b.toNat) && b != 34 && b != 92

theorem isPrinted_parts {b : UInt8} (h : isPrinted b = true) :
    32 ≤ b.toNat ∧ b ≠ 34 ∧ b ≠ 92 := by
  simp only [isPrinted, Bool.and_eq_true, decide_eq_true_eq, bne_iff_ne] at h
  exact ⟨h.left.left, h.left.right, h.right⟩

/-- A text that needs no backslash. -/
def letters (text : List UInt8) (h : text.all isPrinted = true) : List Piece :=
  text.attach.map (fun b =>
    have hb := isPrinted_parts (List.all_eq_true.mp h b.val b.property)
    .plain b.val hb.left hb.right)

/-- The characters between the quotation marks. -/
def inside (pieces : List Piece) : List UInt8 :=
  pieces.flatMap Piece.text

def stringText (pieces : List Piece) : List UInt8 :=
  34 :: (inside pieces ++ [34])

/-!
# Meaning
-/

def shortMeaning (e : UInt8) : UInt8 :=
  if e = 98 then 8
  else if e = 102 then 12
  else if e = 110 then 10
  else if e = 114 then 13
  else if e = 116 then 9
  else e

def codeUnit (digits : List UInt8) : Nat :=
  digits.foldl (fun v d => 16 * v + hexValue d) 0

def isHighSurrogate (n : Nat) : Bool :=
  decide (0xD800 ≤ n ∧ n < 0xDC00)

def isLowSurrogate (n : Nat) : Bool :=
  decide (0xDC00 ≤ n ∧ n < 0xE000)

/-- The bytes of a character; half a pair is replaced. -/
def characterBytes (n : Nat) : List UInt8 :=
  String.utf8EncodeChar
    (Char.ofNat (if isHighSurrogate n || isLowSurrogate n then 0xFFFD else n))

/-- The character of two halves. -/
def pairBytes (high low : Nat) : List UInt8 :=
  String.utf8EncodeChar (Char.ofNat (0x10000 + (high - 0xD800) * 0x400 + (low - 0xDC00)))

/-- What a string stands for.  The first half of a pair is kept until the next character. -/
def decodedFrom : Option Nat -> List Piece -> List UInt8
  | none, [] => []
  | some high, [] => characterBytes high
  | pending, .plain b _ _ :: rest =>
      (pending.elim [] characterBytes) ++ b :: decodedFrom none rest
  | pending, .short e _ :: rest =>
      (pending.elim [] characterBytes) ++ shortMeaning e :: decodedFrom none rest
  | none, .unicode digits _ _ :: rest =>
      if isHighSurrogate (codeUnit digits) then decodedFrom (some (codeUnit digits)) rest
      else characterBytes (codeUnit digits) ++ decodedFrom none rest
  | some high, .unicode digits _ _ :: rest =>
      if isLowSurrogate (codeUnit digits) then
        pairBytes high (codeUnit digits) ++ decodedFrom none rest
      else if isHighSurrogate (codeUnit digits) then
        characterBytes high ++ decodedFrom (some (codeUnit digits)) rest
      else characterBytes high ++ (characterBytes (codeUnit digits) ++ decodedFrom none rest)

def decoded (pieces : List Piece) : List UInt8 :=
  decodedFrom none pieces

/-- The characters of a string without the backslashes. -/
def bare (pieces : List Piece) : List UInt8 :=
  pieces.flatMap Piece.bare

theorem length_utf8EncodeChar_le (c : Char) : (String.utf8EncodeChar c).length ≤ 4 := by
  unfold String.utf8EncodeChar
  dsimp only
  split_ifs <;> simp

theorem length_characterBytes (n : Nat) : (characterBytes n).length ≤ 4 :=
  length_utf8EncodeChar_le _

theorem length_pairBytes (high low : Nat) : (pairBytes high low).length ≤ 4 :=
  length_utf8EncodeChar_le _

theorem bare_cons (p : Piece) (rest : List Piece) : bare (p :: rest) = p.bare ++ bare rest :=
  List.flatMap_cons

theorem inside_cons (p : Piece) (rest : List Piece) :
    inside (p :: rest) = p.text ++ inside rest :=
  List.flatMap_cons

/-- A character that is written by its number has fewer bytes than its number. -/
theorem length_decodedFrom (pending : Option Nat) (pieces : List Piece) :
    (decodedFrom pending pieces).length + pieces.countP Piece.isNumbered ≤
      (bare pieces).length + 4 * pending.toList.length := by
  induction pieces generalizing pending with
  | nil =>
      cases pending with
      | none => exact Nat.le_refl 0
      | some high => exact length_characterBytes high
  | cons p rest ih =>
      have hnone := ih none
      simp only [Option.toList_none, List.length_nil, Nat.mul_zero, Nat.add_zero] at hnone
      have hsome : forall high : Nat, (decodedFrom (some high) rest).length +
          rest.countP Piece.isNumbered ≤ (bare rest).length + 4 := fun high => ih (some high)
      rw [List.countP_cons, bare_cons, List.length_append]
      cases p with
      | plain b _ _ =>
          cases pending with
          | none =>
              simp [decodedFrom, Piece.bare, Piece.isNumbered]
              omega
          | some high =>
              have hhigh := length_characterBytes high
              simp [decodedFrom, Piece.bare, Piece.isNumbered]
              omega
      | short e _ =>
          cases pending with
          | none =>
              simp [decodedFrom, Piece.bare, Piece.isNumbered]
              omega
          | some high =>
              have hhigh := length_characterBytes high
              simp [decodedFrom, Piece.bare, Piece.isNumbered]
              omega
      | unicode digits four _ =>
          have hunit := length_characterBytes (codeUnit digits)
          have hmore := hsome (codeUnit digits)
          cases pending with
          | none =>
              simp only [decodedFrom, Piece.bare, Piece.isNumbered, List.length_cons, four,
                Option.toList_none, List.length_nil, if_true]
              split
              · omega
              · rw [List.length_append]
                omega
          | some high =>
              have hhigh := length_characterBytes high
              have hpair := length_pairBytes high (codeUnit digits)
              simp only [decodedFrom, Piece.bare, Piece.isNumbered, List.length_cons, four,
                Option.toList_some, List.length_nil, if_true]
              split
              · rw [List.length_append]
                omega
              · split
                · rw [List.length_append]
                  omega
                · rw [List.length_append, List.length_append]
                  omega

theorem length_decoded (pieces : List Piece) :
    (decoded pieces).length + pieces.countP Piece.isNumbered ≤ (bare pieces).length :=
  length_decodedFrom none pieces

theorem shortMeaning_self {e : UInt8} (h : e ∈ shortEscapes) :
    shortMeaning e = e ↔ e = 34 ∨ e = 92 ∨ e = 47 := by
  simp only [shortEscapes, List.mem_cons, List.not_mem_nil, or_false] at h
  rcases h with rfl | rfl | rfl | rfl | rfl | rfl | rfl | rfl <;> decide

/-- Without numbers, a string is read right without its backslashes when every letter behind a
backslash stands for itself. -/
theorem decoded_of_unnumbered {pieces : List Piece} (h : forall p, p ∈ pieces ->
    p.isNumbered = false) : decoded pieces = bare pieces ↔ forall p, p ∈ pieces -> p.Literal := by
  unfold decoded
  induction pieces with
  | nil => simp [decodedFrom, bare]
  | cons p rest ih =>
      have hrest := ih (fun q hq => h q (List.mem_cons_of_mem p hq))
      have hp := h p List.mem_cons_self
      rw [bare_cons, List.forall_mem_cons, <- hrest]
      cases p with
      | plain b _ _ => simp [decodedFrom, Piece.bare, Piece.Literal]
      | short e known =>
          simp [decodedFrom, Piece.bare, Piece.Literal, shortMeaning_self known]
      | unicode digits _ _ => cases hp

/-- A string is read right without its backslashes when all that stands behind one are letters
that stand for themselves. -/
theorem decoded_eq_bare {pieces : List Piece} :
    decoded pieces = bare pieces ↔ forall p, p ∈ pieces -> p.Literal := by
  by_cases hnone : forall p, p ∈ pieces -> p.isNumbered = false
  · exact decoded_of_unnumbered hnone
  · constructor
    · intro heq
      have hlen := length_decoded pieces
      rw [heq] at hlen
      have hzero : pieces.countP Piece.isNumbered = 0 := by omega
      exfalso
      apply hnone
      intro p hp
      exact Bool.eq_false_iff.mpr (List.countP_eq_zero.mp hzero p hp)
    · intro hall
      exfalso
      apply hnone
      intro p hp
      have hliteral := hall p hp
      cases p with
      | plain b _ _ => rfl
      | short e _ => rfl
      | unicode digits _ _ => exact hliteral.elim

/-- The same with room for a number of bytes in which what is meant fits. -/
theorem take_bare_eq_decoded {pieces : List Piece} {room : Nat}
    (hroom : (decoded pieces).length ≤ room) :
    (bare pieces).take room = decoded pieces ↔
      (forall p, p ∈ pieces -> p.Literal) ∨
        ((decoded pieces).length = room ∧ decoded pieces <+: bare pieces) := by
  rw [<- decoded_eq_bare]
  constructor
  · intro h
    rcases Nat.lt_or_ge room (bare pieces).length with hlong | hshort
    · right
      constructor
      · rw [<- h, List.length_take]
        omega
      · rw [<- h]
        exact List.take_prefix room _
    · left
      rw [<- h, List.take_of_length_le hshort]
  · rintro (heq | ⟨hlen, hprefix⟩)
    · rw [<- heq, List.take_of_length_le hroom]
    · rw [<- hlen]
      exact (List.prefix_iff_eq_take.mp hprefix).symm

end JsonText
