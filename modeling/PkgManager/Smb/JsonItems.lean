import PkgManager.Bytes.JsonGrammar
import PkgManager.Smb.SettingsText

/-!
# Objects without white space

What the server writes for a share, an entry or itself is an object whose members are strings,
numbers and words.
-/

namespace PkgManager
namespace Smb

open CString
open JsonText (Scalar Derives IsNumber IsWord)
open PkgManager.Parser
open PkgManager.Cache (boolText)

/-!
# Numbers and words
-/

theorem head_toDigits {n : Nat} (h : 0 < n) : (Nat.toDigits 10 n).head? ≠ some '0' := by
  induction n using Nat.strongRecOn with
  | _ n ih =>
      rcases Nat.lt_or_ge n 10 with hlt | hge
      · rw [Nat.toDigits_of_lt_base hlt, List.head?_cons]
        have hall : forall m : Fin 10, 0 < m.val -> some (Nat.digitChar m) ≠ some '0' := by decide
        exact hall ⟨n, hlt⟩ h
      · have hquot : 0 < n / 10 := Nat.div_pos hge (by decide)
        have hrest := ih (n / 10) (Nat.div_lt_self h (by decide)) hquot
        rw [Nat.toDigits_of_base_le (by decide) hge, List.head?_append]
        cases hhead : (Nat.toDigits 10 (n / 10)).head? with
        | none => exact absurd (List.head?_eq_none_iff.mp hhead) Nat.toDigits_ne_nil
        | some c =>
            rw [hhead] at hrest
            exact hrest

theorem isWhole_digits (n : Nat) : JsonText.IsWhole (digitsText n) := by
  have hdigits : (digitsText n).all JsonText.isDigitByte = true := by
    rw [List.all_eq_true]
    intro b hb
    have hdigit := digitsText_digit hb
    exact hdigit
  rcases Nat.eq_zero_or_pos n with rfl | hpos
  · exact Or.inl rfl
  · right
    have hhead := head_toDigits hpos
    cases hn : Nat.toDigits 10 n with
    | nil => exact absurd hn Nat.toDigits_ne_nil
    | cons c rest =>
        have htext : digitsText n =
            UInt8.ofNat c.toNat :: rest.map (fun c => UInt8.ofNat c.toNat) := by
          rw [digitsText, hn, List.map_cons]
        refine ⟨_, _, htext, ?_, htext ▸ hdigits⟩
        intro hzero
        apply hhead
        rw [hn, List.head?_cons]
        have hc : c.isDigit = true :=
          Nat.isDigit_of_mem_toDigits (by decide) (by decide) (hn ▸ List.mem_cons_self)
        have hrange := Char.isDigit_iff_toNat.mp hc
        have hval := congrArg UInt8.toNat hzero
        rw [UInt8.toNat_ofNat'] at hval
        change c.toNat % 256 = 48 at hval
        have hsame : c.toNat = '0'.toNat := by
          change c.toNat = 48
          change 48 ≤ c.toNat ∧ c.toNat ≤ 57 at hrange
          omega
        rw [Char.toNat_inj.mp hsame]

theorem isNumber_digits (n : Nat) {sign : Text} (hsign : sign = [] ∨ sign = [45]) :
    IsNumber (sign ++ digitsText n) :=
  ⟨sign, digitsText n, [], [], by simp, hsign, isWhole_digits n, Or.inl rfl, Or.inl rfl⟩

theorem isNumber_digitsText (n : Nat) : IsNumber (digitsText n) :=
  isNumber_digits n (Or.inl rfl)

theorem isNumber_intText (n : Int) : IsNumber (intText n) := by
  unfold intText
  split
  · exact isNumber_digits _ (Or.inr rfl)
  · exact isNumber_digits _ (Or.inl rfl)

theorem isWord_boolText (b : Bool) : IsWord (boolText b) := by
  cases b with
  | false => exact Or.inr (Or.inl rfl)
  | true => exact Or.inl rfl

/-!
# Members
-/

def scalarValue : Scalar -> JsonText.Value
  | .string pieces => .string (JsonText.decoded pieces)
  | .number text _ => .number text
  | .word text _ => .word text

def numberScalar (n : Nat) : Scalar :=
  .number (digitsText n) (isNumber_digitsText n)

def intScalar (n : Int) : Scalar :=
  .number (intText n) (isNumber_intText n)

def boolScalar (b : Bool) : Scalar :=
  .word (boolText b) (isWord_boolText b)

theorem derives_scalar (s : Scalar) : Derives s.text (.value (scalarValue s)) := by
  cases s with
  | string pieces => exact Derives.string pieces
  | number text h => exact Derives.number h
  | word text h => exact Derives.word h

theorem quoted_stringText {key : String} (h : (ascii key).all JsonText.isPrinted = true) :
    quoted key = JsonText.stringText (JsonText.letters (ascii key) h) := by
  rw [JsonText.stringText, JsonText.inside_letters]
  rfl

/-- The texts of the members. -/
def scalarTexts (members : List (String × Scalar)) : List (String × Text) :=
  members.map (fun m => (m.1, m.2.text))

/-- What the members stand for. -/
def scalarMeaning (members : List (String × Scalar)) : List (Text × JsonText.Value) :=
  members.map (fun m => (ascii m.1, scalarValue m.2))

/-- Keys that need no backslash. -/
def PrintedKeys (members : List (String × Scalar)) : Prop :=
  forall m, m ∈ members -> (ascii m.1).all JsonText.isPrinted = true

/-- Members with the text of each value and what it stands for. -/
structure Parts (parts : List (String × Text × JsonText.Value)) : Prop where
  keys : forall p, p ∈ parts -> (ascii p.1).all JsonText.isPrinted = true
  values : forall p, p ∈ parts -> Derives p.2.1 (.value p.2.2)

def partTexts (parts : List (String × Text × JsonText.Value)) : List (String × Text) :=
  parts.map (fun p => (p.1, p.2.1))

def partMeaning (parts : List (String × Text × JsonText.Value)) : List (Text × JsonText.Value) :=
  parts.map (fun p => (ascii p.1, p.2.2))

/-- The members of an object without the brace behind them. -/
theorem Parts.members {parts : List (String × Text × JsonText.Value)} (h : Parts parts) :
    exists inner, membersText tight (partTexts parts) = inner ++ [125] ∧
      Derives inner (.members (partMeaning parts)) := by
  induction parts with
  | nil => exact ⟨[], rfl, Derives.noMembers rfl⟩
  | cons p rest ih =>
      rcases p with ⟨key, text, value⟩
      have hkey : (ascii key).all JsonText.isPrinted = true :=
        h.keys (key, text, value) List.mem_cons_self
      have hone : Derives text (.value value) := h.values (key, text, value) List.mem_cons_self
      have hrest : Parts rest :=
        ⟨fun x hx => h.keys x (List.mem_cons_of_mem _ hx),
          fun x hx => h.values x (List.mem_cons_of_mem _ hx)⟩
      rcases ih hrest with ⟨inner, htext, hinner⟩
      have hmember := JsonText.decoded_letters hkey
      cases rest with
      | nil =>
          refine ⟨quoted key ++ 58 :: text, ?_, ?_⟩
          · change quoted key ++ 58 :: (text ++ [125]) = _
            simp
          · have hlast := JsonText.derives_member (JsonText.letters (ascii key) hkey) hone
            rw [hmember, <- quoted_stringText hkey] at hlast
            exact hlast
      | cons p' rest =>
          refine ⟨quoted key ++ 58 :: (text ++ 44 :: inner), ?_, ?_⟩
          · change quoted key ++ 58 :: (text ++ 44 ::
              membersText tight (partTexts (p' :: rest))) = _
            rw [htext]
            simp
          · have hmore := JsonText.derives_cons_member (JsonText.letters (ascii key) hkey) hone
              hinner
            rw [hmember, <- quoted_stringText hkey] at hmore
            exact hmore

/-- Members with a comma behind each and one more. -/
theorem membersText_concat (members : List (String × Text)) (last : String × Text) :
    membersText tight (members ++ [last]) =
      members.flatMap (fun m => quoted m.1 ++ 58 :: (m.2 ++ [44])) ++
        (quoted last.1 ++ 58 :: (last.2 ++ [125])) := by
  induction members with
  | nil => rfl
  | cons m rest ih =>
      have hcomma : comma (rest ++ [last]) = [44] := by
        cases rest <;> rfl
      rw [List.cons_append, List.flatMap_cons]
      change quoted m.1 ++ 58 :: (m.2 ++ (comma (rest ++ [last]) ++
        membersText tight (rest ++ [last]))) = _
      rw [hcomma, ih]
      simp

theorem commaMembers_length (members : List (String × Text)) :
    (members.flatMap (fun m => quoted m.1 ++ 58 :: (m.2 ++ [44]))).length =
      (members.map memberLength).sum := by
  induction members with
  | nil => rfl
  | cons m rest ih =>
      rw [List.flatMap_cons, List.length_append, ih, List.map_cons, List.sum_cons]
      simp only [quoted, memberLength, List.length_append, List.length_cons, List.length_nil]
      omega

theorem Parts.item {parts : List (String × Text × JsonText.Value)} (h : Parts parts) :
    Derives (itemText tight (partTexts parts)) (.value (.object (partMeaning parts))) := by
  rcases h.members with ⟨inner, htext, hinner⟩
  unfold itemText
  rw [htext]
  exact Derives.object hinner

def scalarPart (m : String × Scalar) : String × Text × JsonText.Value :=
  (m.1, m.2.text, scalarValue m.2)

theorem scalarTexts_parts (members : List (String × Scalar)) :
    partTexts (members.map scalarPart) = scalarTexts members := by
  rw [partTexts, List.map_map]
  rfl

theorem scalarMeaning_parts (members : List (String × Scalar)) :
    partMeaning (members.map scalarPart) = scalarMeaning members := by
  rw [partMeaning, List.map_map]
  rfl

theorem parts_scalars {members : List (String × Scalar)} (h : PrintedKeys members) :
    Parts (members.map scalarPart) where
  keys p hp := by
    rcases List.mem_map.mp hp with ⟨m, hm, rfl⟩
    exact h m hm
  values p hp := by
    rcases List.mem_map.mp hp with ⟨m, _, rfl⟩
    exact derives_scalar m.2

theorem derives_members {members : List (String × Scalar)} (h : PrintedKeys members) :
    exists inner, membersText tight (scalarTexts members) = inner ++ [125] ∧
      Derives inner (.members (scalarMeaning members)) := by
  rw [<- scalarTexts_parts, <- scalarMeaning_parts]
  exact (parts_scalars h).members

theorem derives_item {members : List (String × Scalar)} (h : PrintedKeys members) :
    Derives (itemText tight (scalarTexts members)) (.value (.object (scalarMeaning members))) := by
  rw [<- scalarTexts_parts, <- scalarMeaning_parts]
  exact (parts_scalars h).item

/-!
# Lists
-/

/-- Elements with commas between them. -/
def elementsText : List Text -> Text
  | [] => []
  | o :: rest => o ++ rest.flatMap (fun o => 44 :: o)

theorem elementsText_concat {os : List Text} (h : os ≠ []) (o : Text) :
    elementsText (os ++ [o]) = elementsText os ++ 44 :: o := by
  cases os with
  | nil => exact absurd rfl h
  | cons x rest =>
      change x ++ (rest ++ [o]).flatMap (fun o => 44 :: o) =
        x ++ rest.flatMap (fun o => 44 :: o) ++ 44 :: o
      rw [List.flatMap_append, List.flatMap_singleton, List.append_assoc]

/-- Items with the commas in front of them. -/
theorem flatten_items {α : Type} (item : α -> Text) (xs : List α) :
    (xs.mapIdx (fun i x => shareComma i ++ item x)).flatten = elementsText (xs.map item) := by
  induction xs using List.reverseRecOn with
  | nil => rfl
  | append_singleton front x ih =>
      rw [List.mapIdx_concat, List.flatten_append, List.flatten_singleton, ih, List.map_append,
        List.map_singleton]
      by_cases hnil : front = []
      · subst hnil
        change [] ++ item x = item x ++ []
        rw [List.nil_append, List.append_nil]
      · have hpos : 0 < front.length := List.length_pos_iff.mpr hnil
        have hcomma : shareComma front.length = [44] := if_pos hpos
        rw [hcomma, elementsText_concat (fun h => hnil (List.map_eq_nil_iff.mp h))]
        rfl

theorem derives_elements {parts : List (Text × JsonText.Value)}
    (h : forall p, p ∈ parts -> Derives p.1 (.value p.2)) :
    Derives (elementsText (parts.map Prod.fst)) (.elements (parts.map Prod.snd)) := by
  induction parts with
  | nil => exact Derives.noElements rfl
  | cons p rest ih =>
      have hfirst := h p List.mem_cons_self
      have hrest := ih (fun q hq => h q (List.mem_cons_of_mem p hq))
      cases rest with
      | nil =>
          change Derives (p.1 ++ []) (.elements [p.2])
          rw [List.append_nil]
          exact JsonText.derives_element hfirst
      | cons q rest =>
          have htext : elementsText ((p :: q :: rest).map Prod.fst) =
              p.1 ++ 44 :: elementsText ((q :: rest).map Prod.fst) := by
            simp [elementsText]
          rw [htext]
          exact JsonText.derives_cons_element hfirst hrest

end Smb
end PkgManager
