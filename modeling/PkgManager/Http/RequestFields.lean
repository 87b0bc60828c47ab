import PkgManager.Bytes.FlatObject
import PkgManager.Smb.Bodies

/-!
# Fields of a request

A field of a request is found as plain text: the key in quotation marks, the next colon, the next
quotation mark.  That is the field of the object only where nothing else looks like it.
-/

namespace PkgManager
namespace Http

open CString
open JsonText
open PkgManager.Parser
open PkgManager.Smb (quotedField)

/-!
# Reading
-/

/-- The key as it is searched; it is cut to the 64 bytes of the pattern. -/
def keyPattern (key : Text) : Text :=
  (quote :: (key ++ [quote])).take 63

/-- The text behind the quotation mark that the search ends at. -/
def valuePlace (json key : Text) : Option Text :=
  match strstr (keyPattern key) json with
  | none => none
  | some p =>
      match strchr 58 (p.drop (keyPattern key).length) with
      | none => none
      | some colon => (strchr quote colon).map (fun q => q.drop 1)

/-- {lit}`extract_json_string_value` -/
def extractJsonString (json key : Text) (outMax : Nat) : Option Text :=
  (valuePlace json key).map (quotedField (outMax - 1))

/-- The fields that requests are asked for have short keys. -/
theorem extractJsonStringValue_eq (json : Text) {key : String} (h : (ascii key).length ≤ 61)
    (outMax : Nat) :
    Smb.extractJsonStringValue json key outMax = extractJsonString json (ascii key) outMax := by
  have hpattern : keyPattern (ascii key) = quoted key := by
    apply List.take_of_length_le
    rw [List.length_cons, List.length_append, List.length_singleton]
    omega
  unfold Smb.extractJsonStringValue extractJsonString valuePlace
  rw [hpattern]
  cases strstr (quoted key) json with
  | none => rfl
  | some p =>
      dsimp only
      cases strchr 58 (p.drop (quoted key).length) with
      | none => rfl
      | some colon =>
          dsimp only
          rw [Option.map_map]
          rfl

theorem keyPattern_ne_nil (key : Text) : keyPattern key ≠ [] :=
  List.cons_ne_nil _ _

/-!
# Strings without their backslashes
-/

/-- Bytes that a field is read over one by one. -/
def isLetter (b : UInt8) : Bool :=
  b != 0 && b != quote && b != backslash

theorem quotedField_letters {letters : Text} (h : letters.all isLetter = true) (room : Nat)
    (rest : Text) :
    quotedField room (letters ++ rest) =
      letters.take room ++ quotedField (room - letters.length) rest := by
  induction letters generalizing room with
  | nil => simp
  | cons b bs ih =>
      rw [List.all_cons, Bool.and_eq_true] at h
      have hb : b ≠ 0 ∧ b ≠ quote ∧ b ≠ backslash := by
        have hletter := h.left
        simp only [isLetter, Bool.and_eq_true, bne_iff_ne] at hletter
        exact ⟨hletter.left.left, hletter.left.right, hletter.right⟩
      cases room with
      | zero => simp [quotedField]
      | succ room =>
          rw [List.cons_append, quotedField.eq_def]
          simp only [beq_false_of_ne hb.left, beq_false_of_ne hb.right.left,
            beq_false_of_ne hb.right.right, Bool.or_self, Bool.false_eq_true, if_false,
            List.take_succ_cons, List.cons_append, List.length_cons, Nat.add_sub_add_right]
          rw [ih h.right]

theorem quotedField_escape {e : UInt8} (h : e ≠ 0) (room : Nat) (rest : Text) :
    quotedField room (backslash :: e :: rest) = [e].take room ++ quotedField (room - 1) rest := by
  cases room with
  | zero => simp [quotedField]
  | succ room =>
      rw [quotedField.eq_def]
      simp [beq_false_of_ne h, show (backslash == (0 : UInt8)) = false by decide,
        show (backslash == quote) = false by decide]

theorem isLetter_hex {digits : Text} (h : digits.all isHexDigit = true) :
    digits.all isLetter = true := by
  rw [List.all_eq_true] at h ⊢
  intro b hb
  have hhex := h b hb
  have hne : forall c : UInt8, isHexDigit c = false -> b ≠ c := by
    rintro c hc rfl
    rw [hhex] at hc
    cases hc
  simp only [isLetter, Bool.and_eq_true, bne_iff_ne]
  exact ⟨⟨hne 0 rfl, hne quote rfl⟩, hne backslash rfl⟩

theorem take_append_take {a b : Text} (room : Nat) :
    a.take room ++ b.take (room - a.length) = (a ++ b).take room :=
  List.take_append.symm

/-- A string is read without its backslashes. -/
theorem quotedField_inside (pieces : List Piece) (room : Nat) (rest : Text) :
    quotedField room (inside pieces ++ quote :: rest) = (bare pieces).take room := by
  induction pieces generalizing room with
  | nil =>
      cases room with
      | zero => rfl
      | succ room => rfl
  | cons p more ih =>
      rw [inside_cons, bare_cons, List.append_assoc, <- take_append_take, <- ih]
      cases p with
      | plain b printed mark =>
          have hletter : [b].all isLetter = true := by
            have hzero : b ≠ 0 := by
              rintro rfl
              exact absurd printed (by decide)
            have hquote : b ≠ quote := mark.left
            have hslash : b ≠ backslash := mark.right
            simp [isLetter, hzero, hquote, hslash]
          exact quotedField_letters hletter room _
      | short e known =>
          have hzero : e ≠ 0 := by
            rintro rfl
            exact absurd known (by decide)
          exact quotedField_escape hzero room _
      | unicode digits four hex =>
          have hu : (117 : UInt8) ≠ 0 := by decide
          have hdigits := quotedField_letters (isLetter_hex hex) (room - 1)
            (inside more ++ quote :: rest)
          change quotedField room (backslash :: 117 :: (digits ++ (inside more ++ quote :: rest))) =
            (117 :: digits).take room ++ quotedField (room - (117 :: digits).length) _
          rw [quotedField_escape hu, hdigits, <- List.append_assoc]
          congr 1
          · exact take_append_take room
          · rw [List.length_cons, Nat.sub_sub, Nat.add_comm]

/-!
# The place of a value
-/

/-- The key stands somewhere with a colon and a quotation mark behind it. -/
def LooksLikeField (text key : Text) : Prop :=
  exists a b c d, text = a ++ (keyPattern key ++ (b ++ 58 :: (c ++ quote :: d)))

/-- The key stands in front of a colon, and nowhere there is another colon behind it. -/
def NamesNext (front key : Text) : Prop :=
  keyPattern key <:+: front ∧ forall a b, front = a ++ (keyPattern key ++ b) -> 58 ∉ b

theorem zeroFree_behind {a b : Text} (h : ZeroFree (a ++ b)) : ZeroFree b :=
  fun x hx => h x (List.mem_append_right a hx)

theorem zeroFree_before {a b : Text} (h : ZeroFree (a ++ b)) : ZeroFree a :=
  fun x hx => h x (List.mem_append_left b hx)

theorem valuePlace_some {text key place : Text} (h : valuePlace text key = some place) :
    exists p colon, strstr (keyPattern key) text = some p ∧
      strchr 58 (p.drop (keyPattern key).length) = some colon ∧
      strchr quote colon = some (quote :: place) := by
  unfold valuePlace at h
  split at h
  · cases h
  · rename_i p hp
    split at h
    · cases h
    · rename_i colon hcolon
      rcases Option.map_eq_some_iff.mp h with ⟨q, hq, hplace⟩
      rcases strchr_split hq with ⟨a, rest, _, rfl, _⟩
      cases hplace
      exact ⟨p, colon, hp, hcolon, hq⟩

theorem valuePlace_of {text key p colon place : Text}
    (hp : strstr (keyPattern key) text = some p)
    (hcolon : strchr 58 (p.drop (keyPattern key).length) = some colon)
    (hq : strchr quote colon = some (quote :: place)) : valuePlace text key = some place := by
  unfold valuePlace
  rw [hp]
  dsimp only
  rw [hcolon]
  dsimp only
  rw [hq]
  rfl

theorem suffix_behind {needle x r : Text} (h : needle ++ x <:+ needle ++ r) : x <:+ r := by
  have hlen := h.length_le
  rw [List.length_append, List.length_append] at hlen
  exact List.suffix_of_suffix_length_le ((List.suffix_append needle x).trans h)
    (List.suffix_append needle r) (by omega)

/-- Something is taken from a text exactly when something in it looks like the field. -/
theorem valuePlace_isSome {text key : Text} (hzero : ZeroFree text) :
    (valuePlace text key).isSome = true ↔ LooksLikeField text key := by
  constructor
  · intro h
    rcases Option.isSome_iff_exists.mp h with ⟨place, hplace⟩
    rcases valuePlace_some hplace with ⟨p, colon, hp, hcolon, hq⟩
    rcases strstr_suffix hp with ⟨a, ha⟩
    rcases strstr_starts hp with ⟨r, hr⟩
    rw [<- hr, List.drop_left] at hcolon
    rcases strchr_split hcolon with ⟨b, c, hb, hfound, _⟩
    rcases strchr_split hq with ⟨x, d, hx, _, _⟩
    rw [hfound] at hx
    cases x with
    | nil => cases hx
    | cons y x =>
        refine ⟨a, b, x, d, ?_⟩
        rw [<- ha, <- hr, hb, (List.cons.inj hx).right]
        rfl
  · rintro ⟨a, b, c, d, rfl⟩
    rcases strstr_finds (keyPattern_ne_nil key) (zeroFree_before hzero)
      (b ++ 58 :: (c ++ quote :: d)) with ⟨p, hp, hlong⟩
    rcases strstr_starts hp with ⟨r, rfl⟩
    rcases suffix_behind hlong with ⟨y, hy⟩
    have hr : ZeroFree r := by
      rcases strstr_suffix hp with ⟨front, hfront⟩
      rw [<- hfront] at hzero
      exact zeroFree_behind (zeroFree_behind hzero)
    rw [<- hy, <- List.append_assoc] at hr
    rcases strchr_finds (c := 58) (zeroFree_before hr) (c ++ quote :: d) with
      ⟨colon, hcolon, z, hz⟩
    have hdrop : (keyPattern key ++ r).drop (keyPattern key).length = (y ++ b) ++
        58 :: (c ++ quote :: d) := by
      rw [List.drop_left, <- hy, List.append_assoc]
    have hbehind : ZeroFree colon := by
      rcases strchr_suffix hcolon with ⟨front, hfront⟩
      rw [<- hfront] at hr
      exact zeroFree_behind hr
    rw [<- hz, <- List.cons_append, <- List.append_assoc] at hbehind
    rcases strchr_finds (c := quote) (zeroFree_before hbehind) d with ⟨q, hq, _⟩
    rcases strchr_split hq with ⟨_, rest, _, rfl, _⟩
    rw [Option.isSome_iff_exists]
    refine ⟨rest, valuePlace_of hp (hdrop ▸ hcolon) ?_⟩
    rw [<- hz, <- List.cons_append, <- List.append_assoc]
    exact hq

theorem extractJsonString_none {text key : Text} (hzero : ZeroFree text) (outMax : Nat) :
    extractJsonString text key outMax = none ↔ ¬LooksLikeField text key := by
  unfold extractJsonString
  rw [Option.map_eq_none_iff, <- valuePlace_isSome hzero, Bool.not_eq_true,
    Option.isSome_eq_false_iff, Option.isNone_iff_eq_none]

/-- The text of a member in front of its value: a quotation mark, white space, a colon, white
space. -/
structure Fronted (front after : Text) : Prop where
  name : exists head before, front = head ++ quote :: before ∧ quote ∉ before ∧ 58 ∉ before
  after : quote ∉ after ∧ 58 ∉ after

/-- Without a quotation mark, the text in front of a value starts at the colon at most. -/
theorem colon_split {x y front after : Text} (h : Fronted front after) (hquote : quote ∉ 58 :: x)
    (heq : y ++ 58 :: x = front ++ 58 :: after) : y = front ∧ x = after := by
  rcases h.name with ⟨head, before, hfront, _, hbefore⟩
  have hlong : (58 :: x).length ≤ (before ++ 58 :: after).length := by
    by_contra hgt
    have hsuffix : quote :: (before ++ 58 :: after) <:+ 58 :: x := by
      refine List.suffix_of_suffix_length_le ?_ (List.suffix_append y (58 :: x)) ?_
      · rw [heq, hfront]
        exact ⟨head, by simp⟩
      · rw [List.length_cons]
        omega
    exact hquote (hsuffix.subset List.mem_cons_self)
  have hsuffix : 58 :: x <:+ before ++ 58 :: after := by
    refine List.suffix_of_suffix_length_le (List.suffix_append y _) ?_ hlong
    rw [heq, hfront]
    exact ⟨head ++ [quote], by simp⟩
  rcases hsuffix with ⟨z, hz⟩
  have hsame := (List.append_cons_inj_of_notMem hbefore h.after.right).mp hz.symm
  have hx : x = after := hsame.right.right.symm
  rw [hx] at heq
  exact ⟨List.append_cancel_right heq, hx⟩

theorem Fronted.own {front after : Text} (h : Fronted front after) (place : Text)
    (hzero : ZeroFree (front ++ 58 :: (after ++ quote :: place))) :
    strchr quote (58 :: (after ++ quote :: place)) = some (quote :: place) := by
  have hfree : ZeroFree (58 :: after) := by
    have hbehind : ZeroFree ((58 :: after) ++ quote :: place) := zeroFree_behind hzero
    exact zeroFree_before hbehind
  have hnot : quote ∉ (58 :: after) := by
    intro hmem
    rcases List.mem_cons.mp hmem with heq | hmem
    · cases heq
    · exact h.after.left hmem
  exact strchr_separator hfree hnot place

/-- A value is read at its own place when the key stands in front of its colon and no other
colon is between. -/
theorem valuePlace_own {front after key place : Text} (h : Fronted front after)
    (hzero : ZeroFree (front ++ 58 :: (after ++ quote :: place))) :
    valuePlace (front ++ 58 :: (after ++ quote :: place)) key = some place ↔
      NamesNext front key := by
  have hfree := zeroFree_before hzero
  have hown := h.own place hzero
  generalize hbehind : (58 : UInt8) :: (after ++ quote :: place) = behind at *
  constructor
  · intro hplace
    rcases valuePlace_some hplace with ⟨p, colon, hp, hcolon, hq⟩
    rcases strstr_suffix hp with ⟨a, ha⟩
    rcases strstr_starts hp with ⟨r, hr⟩
    rw [<- hr, List.drop_left] at hcolon
    rcases strchr_split hcolon with ⟨b, c, hb, hfound, hnot⟩
    rcases strchr_split hq with ⟨x, d, hx, hplace', hquote⟩
    rw [hfound] at hx
    cases x with
    | nil => cases hx
    | cons y x =>
        rcases List.cons.inj hx with ⟨rfl, hc⟩
        rw [<- hplace'] at hc
        have htext : (a ++ (keyPattern key ++ b)) ++ 58 :: x ++ quote :: place =
            front ++ 58 :: after ++ quote :: place := by
          have hall : a ++ (keyPattern key ++ (b ++ 58 :: (x ++ quote :: place))) =
              front ++ behind := by
            rw [<- ha, <- hr, hb, hc]
            rfl
          rw [<- hbehind] at hall
          simpa using hall
        rcases colon_split h hquote (List.append_cancel_right htext) with ⟨hfront, hafter⟩
        have hr' : r = b ++ behind := by
          rw [hb, hc, <- hbehind, hafter]
          rfl
        refine ⟨⟨a, b, by rw [<- hfront]; simp⟩, ?_⟩
        intro a' b' hab
        have hfree' := hfree
        rw [hab] at hfree'
        rcases strstr_finds (keyPattern_ne_nil key) (zeroFree_before hfree') (b' ++ behind) with
          ⟨p', hp', hlong⟩
        have hsame : p' = p := by
          rw [hab, List.append_assoc, List.append_assoc, hp'] at hp
          exact Option.some.inj hp
        rw [hsame, <- hr] at hlong
        rcases suffix_behind hlong with ⟨z, hz⟩
        rw [hr', <- List.append_assoc] at hz
        have hb' : z ++ b' = b := List.append_cancel_right hz
        intro hmem
        exact hnot (hb' ▸ List.mem_append_right z hmem)
  · rintro ⟨⟨a, b, hab⟩, hlast⟩
    have hfree' := hfree
    rw [<- hab, List.append_assoc] at hfree'
    rcases strstr_finds (keyPattern_ne_nil key) (zeroFree_before hfree') (b ++ behind) with
      ⟨p, hp, hlong⟩
    rcases strstr_starts hp with ⟨r, rfl⟩
    rcases suffix_behind hlong with ⟨z, hz⟩
    rw [<- List.append_assoc a, <- List.append_assoc (a ++ _), hab] at hp
    rcases strstr_suffix hp with ⟨a', ha'⟩
    have hfront : front = a' ++ (keyPattern key ++ (z ++ b)) := by
      rw [<- hz, <- List.append_assoc z, <- List.append_assoc (keyPattern key),
        <- List.append_assoc a'] at ha'
      exact (List.append_cancel_right ha').symm
    have hnot := hlast a' (z ++ b) hfront
    have hr : ZeroFree (z ++ b) := by
      rw [hfront] at hfree
      exact zeroFree_behind (zeroFree_behind hfree)
    have hcolon : strchr 58 ((keyPattern key ++ r).drop (keyPattern key).length) = some behind := by
      rw [List.drop_left, <- hz, <- List.append_assoc, <- hbehind]
      exact strchr_separator hr hnot _
    exact valuePlace_of hp hcolon hown

/-!
# Fields of an object
-/

/-- A field that is a string that fits is read at its own place, as what it stands for; nothing
is read for any other. -/
def FieldMeans (o : FlatObject) (key : Text) (outMax : Nat) : Prop :=
  match lookup key o.members with
  | none => extractJsonString o.text key outMax = none
  | some (_, m, after) =>
      match m.value with
      | .string pieces =>
          (decoded pieces).length < outMax ->
            valuePlace o.text key = some (inside pieces ++ quote :: o.tail m after) ∧
              extractJsonString o.text key outMax = some (decoded pieces)
      | .number _ _ => extractJsonString o.text key outMax = none
      | .word _ _ => extractJsonString o.text key outMax = none

/-- Every letter behind a backslash stands for itself, or what is written there just fills the
buffer and starts like the letters. -/
def ReadsPlain (pieces : List Piece) (outMax : Nat) : Prop :=
  (forall p, p ∈ pieces -> p.Literal) ∨
    ((decoded pieces).length + 1 = outMax ∧ decoded pieces <+: bare pieces)

/-- The key of a string that fits is the last name in front of its colon and nothing before it
looks like it; the key of anything else does not look like a field. -/
def FieldPlain (o : FlatObject) (key : Text) (outMax : Nat) : Prop :=
  match lookup key o.members with
  | none => ¬LooksLikeField o.text key
  | some (before, m, _) =>
      match m.value with
      | .string pieces =>
          (decoded pieces).length < outMax ->
            NamesNext (o.head before m) key ∧ ReadsPlain pieces outMax
      | .number _ _ => ¬LooksLikeField o.text key
      | .word _ _ => ¬LooksLikeField o.text key

theorem fronted_head (o : FlatObject) (before : List Member) (m : Member) :
    Fronted (o.head before m) m.after where
  name := by
    refine ⟨o.front ++ 123 :: (before.flatMap (fun m => m.text ++ [44]) ++
      (m.lead ++ quote :: inside m.name)), m.before, ?_, ?_, ?_⟩
    · simp [FlatObject.head, stringText, quote]
    · exact m.blank.right.left.not_mem rfl
    · exact m.blank.right.left.not_mem rfl
  after := ⟨m.blank.right.right.left.not_mem rfl, m.blank.right.right.left.not_mem rfl⟩

theorem text_string {o : FlatObject} {key : Text} {before after : List Member} {m : Member}
    {pieces : List Piece} (h : lookup key o.members = some (before, m, after))
    (hvalue : m.value = .string pieces) :
    o.text = o.head before m ++
      58 :: (m.after ++ quote :: (inside pieces ++ quote :: o.tail m after)) := by
  rw [FlatObject.text_split h, hvalue]
  simp [Scalar.text, stringText, quote]

theorem extract_own {text key : Text} {pieces : List Piece} {rest : Text} {outMax : Nat}
    (hplace : valuePlace text key = some (inside pieces ++ quote :: rest))
    (hfits : (decoded pieces).length < outMax) :
    extractJsonString text key outMax = some (decoded pieces) ↔ ReadsPlain pieces outMax := by
  unfold extractJsonString ReadsPlain
  rw [hplace, Option.map_some, quotedField_inside, Option.some.injEq,
    take_bare_eq_decoded (by omega)]
  have hfull : (decoded pieces).length = outMax - 1 ↔ (decoded pieces).length + 1 = outMax := by
    omega
  rw [hfull]

theorem fieldMeans_iff (o : FlatObject) (key : Text) (outMax : Nat) :
    FieldMeans o key outMax ↔ FieldPlain o key outMax := by
  have hzero := o.zeroFree
  unfold FieldMeans FieldPlain
  cases hlookup : lookup key o.members with
  | none => exact extractJsonString_none hzero outMax
  | some parts =>
      rcases parts with ⟨before, m, after⟩
      dsimp only
      cases hvalue : m.value with
      | number text h => exact extractJsonString_none hzero outMax
      | word text h => exact extractJsonString_none hzero outMax
      | string pieces =>
          apply forall_congr'
          intro hfits
          have htext := text_string hlookup hvalue
          have hplace : valuePlace o.text key = some (inside pieces ++ quote :: o.tail m after) ↔
              NamesNext (o.head before m) key := by
            rw [htext] at hzero ⊢
            exact valuePlace_own (fronted_head o before m) hzero
          rw [<- hplace]
          apply and_congr_right
          intro hown
          exact extract_own hown hfits

/-- A member without white space. -/
def tightMember (name : List Piece) (value : Scalar) : Member where
  lead := []
  name := name
  before := []
  after := []
  value := value
  trail := []
  blank := ⟨rfl, rfl, rfl, rfl⟩

/-- A request for an update without its package. -/
def nullPath : FlatObject where
  front := []
  empty := []
  members :=
    [tightMember (letters (ascii "path") rfl) (.word (word "null") (Or.inr (Or.inr rfl))),
      tightMember (letters (ascii "update_path") rfl) (.string (letters (ascii "/b.pkg") rfl))]
  back := []
  blank := ⟨rfl, rfl, rfl⟩

example : nullPath.text = ascii "\x7b\"path\":null,\"update_path\":\"/b.pkg\"\x7d" := by
  rfl

/-- The name of the next member is taken for the path. -/
theorem nullPath_taken :
    extractJsonString nullPath.text (ascii "path") 512 = some (ascii "update_path") ∧
      ¬FieldMeans nullPath (ascii "path") 512 := by
  have htaken : extractJsonString nullPath.text (ascii "path") 512 =
      some (ascii "update_path") := by
    decide
  refine ⟨htaken, fun h => ?_⟩
  have hnone : extractJsonString nullPath.text (ascii "path") 512 = none := h
  rw [htaken] at hnone
  cases hnone

end Http
end PkgManager
