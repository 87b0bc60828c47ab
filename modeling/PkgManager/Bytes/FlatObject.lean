import PkgManager.Bytes.CString
import PkgManager.Bytes.JsonText

/-!
# Flat objects

The members of a flat object are strings, numbers and words.  White space may stand between all
parts of the text.
-/

namespace JsonText

open CString

/-!
# Parts of a text
-/

def isBlank (b : UInt8) : Bool :=
  b == 32 || b == 9 || b == 10 || b == 13

/-- White space. -/
def Blank (text : List UInt8) : Prop :=
  text.all isBlank = true

def isDigitByte (b : UInt8) : Bool :=
  decide (48 ≤ b.toNat ∧ b.toNat ≤ 57)

/-- Digits without a zero in front. -/
def IsWhole (text : List UInt8) : Prop :=
  text = [48] ∨ exists d ds, text = d :: ds ∧ d ≠ 48 ∧ (d :: ds).all isDigitByte = true

def IsFraction (text : List UInt8) : Prop :=
  text = [] ∨ exists ds, text = 46 :: ds ∧ ds ≠ [] ∧ ds.all isDigitByte = true

def IsExponent (text : List UInt8) : Prop :=
  text = [] ∨ exists mark sign ds, text = mark :: (sign ++ ds) ∧ (mark = 101 ∨ mark = 69) ∧
    (sign = [] ∨ sign = [43] ∨ sign = [45]) ∧ ds ≠ [] ∧ ds.all isDigitByte = true

def IsNumber (text : List UInt8) : Prop :=
  exists sign whole fraction exponent, text = sign ++ (whole ++ (fraction ++ exponent)) ∧
    (sign = [] ∨ sign = [45]) ∧ IsWhole whole ∧ IsFraction fraction ∧ IsExponent exponent

def word (text : String) : List UInt8 :=
  text.toList.map (fun c => UInt8.ofNat c.toNat)

/-- The words {lit}`true`, {lit}`false` and {lit}`null`. -/
def IsWord (text : List UInt8) : Prop :=
  text = word "true" ∨ text = word "false" ∨ text = word "null"

/-- A byte that stands in numbers and words. -/
def isToken (b : UInt8) : Bool :=
  decide (32 < b.toNat ∧ b.toNat ≠ 34 ∧ b.toNat ≠ 44 ∧ b.toNat ≠ 58 ∧ b.toNat ≠ 91 ∧
    b.toNat ≠ 92 ∧ b.toNat ≠ 93 ∧ b.toNat ≠ 123 ∧ b.toNat ≠ 125)

theorem isToken_digit {b : UInt8} (h : isDigitByte b = true) : isToken b = true := by
  simp only [isDigitByte, decide_eq_true_eq] at h
  simp only [isToken, decide_eq_true_eq]
  omega

theorem isToken_digits {text : List UInt8} (h : text.all isDigitByte = true) :
    text.all isToken = true := by
  rw [List.all_eq_true] at h ⊢
  exact fun b hb => isToken_digit (h b hb)

theorem isToken_number {text : List UInt8} (h : IsNumber text) : text.all isToken = true := by
  rcases h with ⟨sign, whole, fraction, exponent, rfl, hsign, hwhole, hfraction, hexponent⟩
  have hs : sign.all isToken = true := by
    rcases hsign with rfl | rfl <;> rfl
  have hw : whole.all isToken = true := by
    rcases hwhole with rfl | ⟨d, ds, rfl, _, hdigits⟩
    · rfl
    · exact isToken_digits hdigits
  have hf : fraction.all isToken = true := by
    rcases hfraction with rfl | ⟨ds, rfl, _, hdigits⟩
    · rfl
    · rw [List.all_cons, isToken_digits hdigits]
      rfl
  have he : exponent.all isToken = true := by
    rcases hexponent with rfl | ⟨mark, sign', ds, rfl, hmark, hsign', _, hdigits⟩
    · rfl
    · rw [List.all_cons, List.all_append, isToken_digits hdigits]
      rcases hmark with rfl | rfl <;> rcases hsign' with rfl | rfl | rfl <;> rfl
  simp only [List.all_append, hs, hw, hf, he, Bool.and_self]

theorem isToken_word {text : List UInt8} (h : IsWord text) : text.all isToken = true := by
  rcases h with rfl | rfl | rfl <;> rfl

/-!
# Values and members
-/

inductive Scalar where
  | string (pieces : List Piece)
  | number (text : List UInt8) (h : IsNumber text)
  | word (text : List UInt8) (h : IsWord text)

def Scalar.text : Scalar -> List UInt8
  | string pieces => stringText pieces
  | number text _ => text
  | word text _ => text

/-- A member with the white space around its parts. -/
structure Member where
  lead : List UInt8
  name : List Piece
  before : List UInt8
  after : List UInt8
  value : Scalar
  trail : List UInt8
  blank : Blank lead ∧ Blank before ∧ Blank after ∧ Blank trail

def Member.text (m : Member) : List UInt8 :=
  m.lead ++ (stringText m.name ++ (m.before ++ 58 :: (m.after ++ (m.value.text ++ m.trail))))

structure FlatObject where
  front : List UInt8
  /-- What stands between the braces of an object without members. -/
  empty : List UInt8
  members : List Member
  back : List UInt8
  blank : Blank front ∧ Blank empty ∧ Blank back

def membersText (empty : List UInt8) : List Member -> List UInt8
  | [] => empty
  | m :: rest => m.text ++ rest.flatMap (fun m => 44 :: m.text)

def FlatObject.text (o : FlatObject) : List UInt8 :=
  o.front ++ 123 :: (membersText o.empty o.members ++ 125 :: o.back)

/-!
# Looking up a member
-/

/-- The first member with a name, and the members on both sides of it. -/
def lookup (key : List UInt8) : List Member -> Option (List Member × Member × List Member)
  | [] => none
  | m :: rest =>
      if decoded m.name = key then some ([], m, rest)
      else (lookup key rest).map (fun parts => (m :: parts.1, parts.2))

theorem lookup_split {key : List UInt8} {members before after : List Member} {m : Member}
    (h : lookup key members = some (before, m, after)) : members = before ++ m :: after := by
  induction members generalizing before with
  | nil => cases h
  | cons x rest ih =>
      unfold lookup at h
      split at h
      · cases h
        rfl
      · rcases Option.map_eq_some_iff.mp h with ⟨⟨before', m', after'⟩, hrest, heq⟩
        cases heq
        rw [ih hrest]
        rfl

/-- The text in front of the colon of a member. -/
def FlatObject.head (o : FlatObject) (before : List Member) (m : Member) : List UInt8 :=
  o.front ++ 123 :: (before.flatMap (fun m => m.text ++ [44]) ++
    (m.lead ++ (stringText m.name ++ m.before)))

/-- The text behind the value of a member. -/
def FlatObject.tail (o : FlatObject) (m : Member) (after : List Member) : List UInt8 :=
  m.trail ++ (after.flatMap (fun m => 44 :: m.text) ++ 125 :: o.back)

theorem membersText_split (empty : List UInt8) (before : List Member) (m : Member)
    (after : List Member) :
    membersText empty (before ++ m :: after) =
      before.flatMap (fun m => m.text ++ [44]) ++
        (m.text ++ after.flatMap (fun m => 44 :: m.text)) := by
  have hcommas : forall x : List Member, x.flatMap (fun m => 44 :: m.text) ++ 44 :: m.text =
      44 :: (x.flatMap (fun m => m.text ++ [44]) ++ m.text) := by
    intro x
    induction x with
    | nil => rfl
    | cons y rest ih => simp [ih]
  cases before with
  | nil => rfl
  | cons x rest =>
      rw [List.cons_append, membersText, List.flatMap_append, List.flatMap_cons, List.flatMap_cons,
        <- List.append_assoc (rest.flatMap _), hcommas]
      simp

/-- The text of an object is cut at the colon of a member. -/
theorem FlatObject.text_split {o : FlatObject} {key : List UInt8} {before after : List Member}
    {m : Member} (h : lookup key o.members = some (before, m, after)) :
    o.text = o.head before m ++ 58 :: (m.after ++ (m.value.text ++ o.tail m after)) := by
  unfold FlatObject.text FlatObject.head FlatObject.tail
  rw [lookup_split h, membersText_split]
  simp [Member.text]

/-!
# Bytes of a text
-/

theorem Blank.not_mem {text : List UInt8} (h : Blank text) {b : UInt8}
    (hb : isBlank b = false) : b ∉ text := by
  intro hmem
  rw [List.all_eq_true.mp h b hmem] at hb
  cases hb

theorem isHexDigit_pos {b : UInt8} (h : isHexDigit b = true) : b ≠ 0 := by
  rintro rfl
  cases h

theorem zeroFree_blank {text : List UInt8} (h : Blank text) : ZeroFree text :=
  fun _ hb hzero => h.not_mem (b := 0) rfl (hzero ▸ hb)

theorem zeroFree_tokens {text : List UInt8} (h : text.all isToken = true) : ZeroFree text := by
  rintro b hb rfl
  have htoken := List.all_eq_true.mp h 0 hb
  cases htoken

theorem zeroFree_inside (pieces : List Piece) : ZeroFree (inside pieces) := by
  intro b hb
  rcases List.mem_flatMap.mp hb with ⟨p, _, hmem⟩
  cases p with
  | plain c printed _ =>
      rw [List.mem_singleton.mp hmem]
      rintro rfl
      exact absurd printed (by decide)
  | short e known =>
      rcases List.mem_pair.mp hmem with rfl | rfl
      · decide
      · rintro rfl
        exact absurd known (by decide)
  | unicode digits _ hex =>
      rcases List.mem_cons.mp hmem with rfl | hmem
      · decide
      · rcases List.mem_cons.mp hmem with rfl | hmem
        · decide
        · exact isHexDigit_pos (List.all_eq_true.mp hex b hmem)

theorem zeroFree_stringText (pieces : List Piece) : ZeroFree (stringText pieces) := by
  intro b hb
  rcases List.mem_cons.mp hb with rfl | hb
  · decide
  · rcases List.mem_append.mp hb with hb | hb
    · exact zeroFree_inside pieces b hb
    · rw [List.mem_singleton.mp hb]
      decide

theorem zeroFree_cons {b : UInt8} {text : List UInt8} (hb : b ≠ 0) (h : ZeroFree text) :
    ZeroFree (b :: text) := by
  intro c hc
  rcases List.mem_cons.mp hc with rfl | hc
  · exact hb
  · exact h c hc

theorem zeroFree_scalar (value : Scalar) : ZeroFree value.text := by
  cases value with
  | string pieces => exact zeroFree_stringText pieces
  | number text h => exact zeroFree_tokens (isToken_number h)
  | word text h => exact zeroFree_tokens (isToken_word h)

theorem zeroFree_member (m : Member) : ZeroFree m.text := by
  rcases m.blank with ⟨hlead, hbefore, hafter, htrail⟩
  have hvalue := zeroFree_append (zeroFree_scalar m.value) (zeroFree_blank htrail)
  have hbehind := zeroFree_cons (b := 58) (by decide)
    (zeroFree_append (zeroFree_blank hafter) hvalue)
  exact zeroFree_append (zeroFree_blank hlead) (zeroFree_append (zeroFree_stringText m.name)
    (zeroFree_append (zeroFree_blank hbefore) hbehind))

theorem FlatObject.zeroFree (o : FlatObject) : ZeroFree o.text := by
  rcases o.blank with ⟨hfront, hempty, hback⟩
  have hmembers : ZeroFree (membersText o.empty o.members) := by
    cases o.members with
    | nil => exact zeroFree_blank hempty
    | cons m rest =>
        apply zeroFree_append (zeroFree_member m)
        intro b hb
        rcases List.mem_flatMap.mp hb with ⟨m', _, hmem⟩
        exact zeroFree_cons (by decide) (zeroFree_member m') b hmem
  exact zeroFree_append (zeroFree_blank hfront) (zeroFree_cons (by decide)
    (zeroFree_append hmembers (zeroFree_cons (by decide) (zeroFree_blank hback))))

end JsonText
