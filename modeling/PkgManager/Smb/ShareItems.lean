import PkgManager.Cache.Meta
import PkgManager.Secrets.Inherit
import PkgManager.Smb.Urls

/-!
# Lists of shares

An object of a list is written with the same white space around all of its members.  What is
read from such a list are its objects, and from an object its members.
-/

namespace PkgManager
namespace Smb

open CString
open PkgManager.Parser
open PkgManager.Cache
open PkgManager.Secrets (parsedShares)

/-!
# Objects
-/

def isGap (b : UInt8) : Bool :=
  b == 32 || b == 10

/-- The white space in front of a member, behind its colon and in front of the closing brace. -/
structure Layout where
  lead : Text
  gap : Text
  last : Text
  blank : (lead ++ last).all isGap = true
  spaces : gap.all (fun b => b == 32) = true
  ended : last = [] ∨ last.head? = some 10

def comma (rest : List (String × Text)) : Text :=
  if rest.isEmpty then [] else [44]

def membersText (l : Layout) : List (String × Text) -> Text
  | [] => l.last ++ [125]
  | (key, value) :: rest =>
      l.lead ++ (quoted key ++ 58 :: (l.gap ++ (value ++ (comma rest ++ membersText l rest))))

def itemText (l : Layout) (members : List (String × Text)) : Text :=
  123 :: membersText l members

def texts (members : List (String × Value)) : List (String × Text) :=
  members.map (fun m => (m.1, m.2.text))

theorem Layout.lead_gap (l : Layout) : l.lead.all isGap = true := by
  have h := l.blank
  rw [List.all_append, Bool.and_eq_true] at h
  exact h.left

theorem Layout.last_gap (l : Layout) : l.last.all isGap = true := by
  have h := l.blank
  rw [List.all_append, Bool.and_eq_true] at h
  exact h.right

theorem isGap_cases {b : UInt8} (h : isGap b = true) : b = 32 ∨ b = 10 := by
  rw [isGap, Bool.or_eq_true, beq_iff_eq, beq_iff_eq] at h
  exact h

theorem gap_plain {text : Text} (h : text.all isGap = true) :
    forall b, b ∈ text -> b ≠ 0 ∧ b ≠ quote := by
  intro b hb
  rcases isGap_cases (List.all_eq_true.mp h b hb) with rfl | rfl <;> decide

theorem spaces_gap {text : Text} (h : text.all (fun b => b == 32) = true) :
    text.all isGap = true := by
  rw [List.all_eq_true] at h ⊢
  intro b hb
  rw [isGap, h b hb]
  rfl

/-!
# Members
-/

/-- What may stand behind the value of a member. -/
def EndsValue (tail : Text) : Prop :=
  tail.head? = some 44 ∨ tail.head? = some 10 ∨ tail.head? = some 125

theorem endsValue_tail (l : Layout) (rest : List (String × Text)) :
    EndsValue (comma rest ++ membersText l rest) := by
  cases rest with
  | nil =>
      right
      change (l.last ++ [125]).head? = some 10 ∨ (l.last ++ [125]).head? = some 125
      rcases l.ended with hnil | hline
      · rw [hnil]
        exact Or.inr rfl
      · left
        rw [List.head?_append, hline]
        rfl
  | cons m ms => exact Or.inl rfl

theorem keyMark_pass_other {key other : String} (hkey : PlainKey key) (hother : PlainKey other)
    (hne : ascii other ≠ ascii key) (rest : Text) :
    strstr (keyMark key) (quoted other ++ 58 :: rest) = strstr (keyMark key) rest := by
  have hopen : ¬ keyMark key <+: quote :: (ascii other ++ quote :: 58 :: rest) := by
    rw [keyMark_eq, List.cons_prefix_cons]
    intro h
    exact hne (keys_eq_of_starts hkey.plain hother.plain h.2).symm
  have hclose : ¬ keyMark key <+: quote :: 58 :: rest := by
    apply closingQuote_miss hkey
    intro b hb
    cases hb
    decide
  have hkeyBytes : forall b, b ∈ ascii other -> b ≠ 0 ∧ b ≠ quote :=
    fun b hb => keyByte_plain (List.all_eq_true.mp hother.plain b hb)
  unfold quoted
  rw [List.cons_append, List.append_assoc, List.singleton_append, strstr_pass hopen (by decide),
    keyMark_pass hkeyBytes, strstr_pass hclose (by decide)]
  exact strstr_pass (keyMark_miss (by decide) rest) (by decide)

/-- The first member with the key is found. -/
theorem strstr_members (l : Layout) {key : String} (hkey : PlainKey key)
    {members : List (String × Value)} (hmembers : Readable members) {m : String × Value}
    (h : members.find? (fun m => ascii m.1 == ascii key) = some m) :
    exists tail, EndsValue tail ∧ strstr (keyMark key) (membersText l (texts members)) =
      some (keyMark key ++ (l.gap ++ (m.2.text ++ tail))) := by
  induction members with
  | nil => cases h
  | cons first rest ih =>
      rcases first with ⟨other, value⟩
      have hlead : strstr (keyMark key) (membersText l (texts ((other, value) :: rest))) =
          strstr (keyMark key) (quoted other ++ 58 :: (l.gap ++ (value.text ++
            (comma (texts rest) ++ membersText l (texts rest))))) :=
        keyMark_pass (gap_plain l.lead_gap) _
      rw [hlead]
      by_cases hsame : ascii other = ascii key
      · rw [List.find?_cons, beq_iff_eq.mpr hsame] at h
        cases h
        have hquoted : forall behind : Text,
            quoted other ++ 58 :: behind = keyMark key ++ behind := by
          intro behind
          unfold keyMark quoted
          rw [hsame]
          simp
        rw [hquoted]
        exact ⟨_, endsValue_tail l (texts rest), strstr_here (List.prefix_append _ _)⟩
      · rw [List.find?_cons, beq_false_of_ne hsame] at h
        rcases ih hmembers.tail h with ⟨tail, htail, hfound⟩
        refine ⟨tail, htail, ?_⟩
        have hcomma : comma (texts rest) = [44] := by
          cases rest with
          | nil => cases h
          | cons m ms => rfl
        have hends : EndsMember (comma (texts rest) ++ membersText l (texts rest)) := by
          rw [hcomma]
          exact Or.inl rfl
        rw [keyMark_pass_other hkey (hmembers.keys _ List.mem_cons_self) hsame,
          keyMark_pass (gap_plain (spaces_gap l.spaces)),
          keyMark_pass_value hkey (hmembers.values _ List.mem_cons_self) hends, hcomma,
          List.singleton_append, strstr_pass (keyMark_miss (by decide) _) (by decide)]
        exact hfound

/-- A string is cut to the room that there is. -/
theorem quotedField_body {body : Text} (hbody : Escaped body) (room : Nat) (tail : Text) :
    quotedField room (body ++ quote :: tail) = (unescaped body).take room := by
  induction hbody generalizing room with
  | nil =>
      cases room with
      | zero => rfl
      | succ room => simp [quotedField, unescaped]
  | @plain b rest hzero hquote hslash _ ih =>
      rw [unescaped_plain hslash]
      cases room with
      | zero => rfl
      | succ room =>
          rw [List.cons_append, quotedField.eq_def]
          simp [hzero, hquote, hslash, ih room]
  | @pair b rest hzero _ ih =>
      rw [unescaped_pair]
      cases room with
      | zero => rfl
      | succ room =>
          have hback : (backslash == 0 || backslash == quote) = false := by decide
          rw [List.cons_append, List.cons_append, quotedField.eq_def]
          simp [hback, hzero, ih room]

theorem fieldValue_read (l : Layout) {value : Value} (hvalue : value.Fine) {tail : Text}
    (htail : EndsValue tail) (outMax : Nat) :
    fieldValue outMax (skipBlanks (l.gap ++ (value.text ++ tail))) =
      value.read.take (outMax - 1) := by
  have hskip : skipBlanks (l.gap ++ (value.text ++ tail)) = skipBlanks (value.text ++ tail) := by
    unfold skipBlanks
    apply List.dropWhile_append_of_pos
    intro b hb
    rw [List.all_eq_true.mp l.spaces b hb]
    rfl
  rw [hskip]
  cases value with
  | string body =>
      change fieldValue outMax (quote :: (body ++ [quote] ++ tail)) = (unescaped body).take _
      rw [List.append_assoc, List.singleton_append]
      exact quotedField_body hvalue (outMax - 1) tail
  | bare text =>
      change fieldValue outMax (skipBlanks (text ++ tail)) = text.take (outMax - 1)
      cases htext : text with
      | nil => exact absurd htext hvalue.1
      | cons b rest =>
          have hall : forall c, c ∈ b :: rest -> isBareByte c = true := by
            intro c hc
            exact List.all_eq_true.mp hvalue.2 c (htext ▸ hc)
          have hb := hall b List.mem_cons_self
          have hquote : (b == quote) = false := beq_false_of_ne (isBareByte_ne hb (by decide))
          have hsame : skipBlanks (b :: rest ++ tail) = b :: rest ++ tail := by
            apply List.dropWhile_cons_of_neg
            rw [(bareByte_inside hb).2]
            exact Bool.false_ne_true
          have hstop : tail.takeWhile (fun b => !endsBareField b) = [] := by
            cases tail with
            | nil => rfl
            | cons t ts =>
                apply List.takeWhile_cons_of_neg
                rcases htail with h | h | h <;> cases h <;> decide
          have hbare : (b :: rest ++ tail).takeWhile (fun b => !endsBareField b) = b :: rest := by
            rw [List.takeWhile_append_of_pos
              (fun c hc => by rw [(bareByte_inside (hall c hc)).1]; rfl), hstop, List.append_nil]
          have hfield : bareField (outMax - 1) (b :: rest ++ tail) =
              (b :: rest).take (outMax - 1) := by
            unfold bareField
            rw [hbare]
          rw [hsame, <- hfield, List.cons_append]
          unfold fieldValue
          dsimp only
          rw [hquote, if_neg Bool.false_ne_true]

/-- A field is read as the object says, as far as there is room. -/
theorem extractJsonField_item (l : Layout) {key : String} (hkey : PlainKey key)
    {members : List (String × Value)} (hmembers : Readable members) {m : String × Value}
    (h : members.find? (fun m => ascii m.1 == ascii key) = some m) (outMax : Nat) :
    extractJsonField (itemText l (texts members)) key outMax = m.2.read.take (outMax - 1) := by
  rcases strstr_members l hkey hmembers h with ⟨tail, htail, hfound⟩
  have hsearch : strstr (keyMark key) (itemText l (texts members)) =
      some (keyMark key ++ (l.gap ++ (m.2.text ++ tail))) := by
    rw [itemText, strstr_pass (keyMark_miss (by decide) _) (by decide), hfound]
  unfold keyMark at hsearch
  unfold extractJsonField
  rw [hsearch]
  dsimp only
  rw [List.drop_left]
  exact fieldValue_read l (hmembers.values m (List.mem_of_find?_eq_some h)) htail outMax

/-- The member at a place is read, when its key is not an earlier one. -/
theorem extract_member (l : Layout) {members : List (String × Value)}
    (hmembers : Readable members) {keys : List String} (hkeys : members.map Prod.fst = keys)
    (i : Nat) (key : String) {value : Value} (hm : members[i]? = some (key, value))
    (hbefore : (keys.take i).all (fun k => ascii k != ascii key) = true) (outMax : Nat) :
    extractJsonField (itemText l (texts members)) key outMax = value.read.take (outMax - 1) := by
  have hkey := hmembers.keys _ (List.mem_of_getElem? hm)
  rw [<- hkeys] at hbefore
  exact extractJsonField_item l hkey hmembers (find_member hm hbefore) outMax

/-- What a field for a word or a number is read as. -/
theorem extract_bare (l : Layout) {members : List (String × Value)}
    (hmembers : Readable members) {keys : List String} (hkeys : members.map Prod.fst = keys)
    (i : Nat) (key : String) {text : Text} (hm : members[i]? = some (key, .bare text))
    (hbefore : (keys.take i).all (fun k => ascii k != ascii key) = true)
    (hlen : text.length ≤ 63) :
    extractJsonField (itemText l (texts members)) key 64 = text := by
  rw [extract_member l hmembers hkeys i key hm hbefore]
  exact List.take_of_length_le hlen

theorem isTrueText_boolText (b : Bool) : isTrueText (boolText b) = b := by
  cases b <;> decide

theorem portField_read {item : Text} {port : Int} (h : 0 < port) (hlt : port < 2 ^ 31)
    (hread : extractJsonField item "port" 64 = intText port) : portField item = port := by
  have hne : intText port ≠ [] := by
    rw [intText_pos h]
    exact (number_fine _).left
  unfold portField
  dsimp only
  rw [hread, atoi_intText h hlt]
  exact if_pos ⟨hne, h⟩

theorem enabledField_read {item : Text} {b : Bool}
    (hread : extractJsonField item "enabled" 64 = boolText b) : enabledField item = b := by
  unfold enabledField
  dsimp only
  rw [hread, isTrueText_boolText]
  exact if_neg (bool_fine b).left

theorem boolText_short (b : Bool) : (boolText b).length ≤ 63 := by
  cases b <;> decide

/-!
# Braces
-/

/-- The search for the end of an object goes on behind the text. -/
def Passed (text : Text) : Prop :=
  forall rest, objectText false false (text ++ rest) =
    (objectText false false rest).map (fun o => (text ++ o.1, o.2))

theorem Passed.append {a b : Text} (ha : Passed a) (hb : Passed b) : Passed (a ++ b) := by
  intro rest
  rw [List.append_assoc, ha, hb, Option.map_map]
  apply Option.map_congr
  intro o _
  rw [List.append_assoc]
  rfl

theorem passed_nil : Passed [] := by
  intro rest
  exact Option.map_id'.symm

theorem passed_byte {b : UInt8} (hzero : b ≠ 0) (hquote : b ≠ quote) (hbracket : b ≠ 93)
    (hbrace : b ≠ 125) : Passed [b] := by
  intro rest
  rw [List.singleton_append, objectText]
  simp [hzero, hquote, hbracket, hbrace]

theorem passed_bytes {text : Text}
    (h : forall b, b ∈ text -> b ≠ 0 ∧ b ≠ quote ∧ b ≠ 93 ∧ b ≠ 125) : Passed text := by
  induction text with
  | nil => exact passed_nil
  | cons b rest ih =>
      rcases h b List.mem_cons_self with ⟨hzero, hquote, hbracket, hbrace⟩
      exact (passed_byte hzero hquote hbracket hbrace).append
        (ih (fun c hc => h c (List.mem_cons_of_mem b hc)))

theorem objectText_body {body : Text} (hbody : Escaped body) (rest : Text) :
    objectText true false (body ++ quote :: rest) =
      (objectText false false rest).map (fun o => (body ++ quote :: o.1, o.2)) := by
  induction hbody with
  | nil =>
      have hend : (quote == 0) = false ∧ (quote == backslash) = false := by decide
      rw [List.nil_append, objectText]
      simp [hend]
  | plain hzero hquote hslash _ ih =>
      rw [List.cons_append, objectText]
      simp [hzero, hquote, hslash, ih]
      rfl
  | @pair b body hzero _ ih =>
      have hmark : forall x, objectText true false (backslash :: x) =
          (objectText true true x).map (fun o => (backslash :: o.1, o.2)) := fun _ => rfl
      have hletter : forall x, objectText true true (b :: x) =
          (objectText true false x).map (fun o => (b :: o.1, o.2)) := by
        intro x
        rw [objectText]
        simp [hzero]
      rw [List.cons_append, List.cons_append, hmark, hletter, ih]
      simp
      rfl

theorem passed_string {body : Text} (hbody : Escaped body) :
    Passed (quote :: (body ++ [quote])) := by
  intro rest
  have hopen : forall x, objectText false false (quote :: x) =
      (objectText true false x).map (fun o => (quote :: o.1, o.2)) := fun _ => rfl
  rw [List.cons_append, List.append_assoc, List.singleton_append, hopen, objectText_body hbody,
    Option.map_map]
  apply Option.map_congr
  intro o _
  simp

theorem isKeyByte_bare {b : UInt8} (h : isKeyByte b = true) : isBareByte b = true := by
  rw [isBareByte, h, Bool.or_true]

theorem passed_bare {text : Text} (h : text.all isBareByte = true) : Passed text := by
  apply passed_bytes
  intro b hb
  have hbare := List.all_eq_true.mp h b hb
  exact ⟨isBareByte_ne hbare (by decide), isBareByte_ne hbare (by decide),
    isBareByte_ne hbare (by decide), isBareByte_ne hbare (by decide)⟩

theorem passed_gap {text : Text} (h : text.all isGap = true) : Passed text := by
  apply passed_bytes
  intro b hb
  rcases isGap_cases (List.all_eq_true.mp h b hb) with rfl | rfl <;> decide

theorem passed_key {key : String} (h : PlainKey key) : Passed (quoted key) := by
  have hkey : (ascii key).all isBareByte = true := by
    have hplain := h.plain
    rw [List.all_eq_true] at hplain ⊢
    exact fun b hb => isKeyByte_bare (hplain b hb)
  have hescaped : Escaped (ascii key) := by
    refine (escaped_of_plain ?_).left
    intro b hb
    have hbare := List.all_eq_true.mp hkey b hb
    exact ⟨isBareByte_ne hbare (by decide), isBareByte_ne hbare (by decide),
      isBareByte_ne hbare (by decide)⟩
  exact passed_string hescaped

theorem passed_value {value : Value} (h : value.Fine) : Passed value.text := by
  cases value with
  | string body => exact passed_string h
  | bare text => exact passed_bare h.2

theorem passed_comma (rest : List (String × Text)) : Passed (comma rest) := by
  cases rest with
  | nil => exact passed_nil
  | cons m ms => exact passed_byte (by decide) (by decide) (by decide) (by decide)

/-- The end of the members is the end of the object. -/
theorem objectText_members (l : Layout) {members : List (String × Value)}
    (hmembers : Readable members) (rest : Text) :
    objectText false false (membersText l (texts members) ++ rest) =
      some (membersText l (texts members), rest) := by
  induction members with
  | nil =>
      change objectText false false (l.last ++ [125] ++ rest) = some (l.last ++ [125], rest)
      rw [List.append_assoc, passed_gap l.last_gap]
      rfl
  | cons m ms ih =>
      have hcolon : Passed [58] := passed_byte (by decide) (by decide) (by decide) (by decide)
      have hpassed : Passed (l.lead ++ (quoted m.1 ++ ([58] ++ (l.gap ++ (m.2.text ++
          comma (texts ms)))))) :=
        (passed_gap l.lead_gap).append ((passed_key (hmembers.keys m List.mem_cons_self)).append
          (hcolon.append ((passed_gap (spaces_gap l.spaces)).append
            ((passed_value (hmembers.values m List.mem_cons_self)).append (passed_comma _)))))
      have htext : membersText l (texts (m :: ms)) =
          (l.lead ++ (quoted m.1 ++ ([58] ++ (l.gap ++ (m.2.text ++ comma (texts ms)))))) ++
            membersText l (texts ms) := by
        change l.lead ++ (quoted m.1 ++ 58 :: (l.gap ++ (m.2.text ++ (comma (texts ms) ++
          membersText l (texts ms))))) = _
        simp
      rw [htext, List.append_assoc, hpassed, ih hmembers.tail]
      rfl

/-- A text that is one object from brace to brace. -/
structure OneObject (object : Text) : Prop where
  opened : object.head? = some 123
  closed : forall rest, objectText false false (object ++ rest) = some (object, rest)

theorem oneObject_item (l : Layout) {members : List (String × Value)}
    (hmembers : Readable members) : OneObject (itemText l (texts members)) where
  opened := rfl
  closed rest := by
    have hopen : Passed [123] := passed_byte (by decide) (by decide) (by decide) (by decide)
    change objectText false false ([123] ++ (membersText l (texts members) ++ rest)) = _
    rw [hopen, objectText_members l hmembers]
    rfl

theorem Escaped.zeroFree {body : Text} (h : Escaped body) : ZeroFree body := by
  induction h with
  | nil =>
      intro b hb
      cases hb
  | plain hzero _ _ _ ih =>
      intro b hb
      rcases List.mem_cons.mp hb with rfl | hb
      · exact hzero
      · exact ih b hb
  | pair hzero _ ih =>
      intro b hb
      rcases List.mem_cons.mp hb with rfl | hb
      · decide
      · rcases List.mem_cons.mp hb with rfl | hb
        · exact hzero
        · exact ih b hb

theorem zeroFree_value {value : Value} (h : value.Fine) : ZeroFree value.text := by
  cases value with
  | string body =>
      intro b hb
      rcases List.mem_cons.mp hb with rfl | hb
      · decide
      · rcases List.mem_append.mp hb with hb | hb
        · exact Escaped.zeroFree h b hb
        · rw [List.mem_singleton.mp hb]
          decide
  | bare text => exact fun b hb => isBareByte_ne (List.all_eq_true.mp h.2 b hb) (by decide)

theorem zeroFree_gap {text : Text} (h : text.all isGap = true) : ZeroFree text :=
  fun b hb => (gap_plain h b hb).left

theorem zeroFree_members (l : Layout) {members : List (String × Value)}
    (hmembers : Readable members) : ZeroFree (membersText l (texts members)) := by
  induction members with
  | nil => exact zeroFree_append (zeroFree_gap l.last_gap) (zeroFree_of_all rfl)
  | cons m ms ih =>
      have hkey : ZeroFree (quoted m.1) := by
        have hplain := (hmembers.keys m List.mem_cons_self).plain
        intro b hb
        rcases List.mem_cons.mp hb with rfl | hb
        · decide
        · rcases List.mem_append.mp hb with hb | hb
          · exact (keyByte_plain (List.all_eq_true.mp hplain b hb)).left
          · rw [List.mem_singleton.mp hb]
            decide
      have hcomma : ZeroFree (comma (texts ms)) := by
        cases ms with
        | nil => exact zeroFree_of_all rfl
        | cons m' ms => exact zeroFree_of_all rfl
      have hcolon : ZeroFree [58] := zeroFree_of_all rfl
      exact zeroFree_append (zeroFree_gap l.lead_gap) (zeroFree_append hkey
        (zeroFree_append hcolon (zeroFree_append (zeroFree_gap (spaces_gap l.spaces))
          (zeroFree_append (zeroFree_value (hmembers.values m List.mem_cons_self))
            (zeroFree_append hcomma (ih hmembers.tail))))))

theorem zeroFree_item (l : Layout) {members : List (String × Value)}
    (hmembers : Readable members) : ZeroFree (itemText l (texts members)) := by
  intro b hb
  rcases List.mem_cons.mp hb with rfl | hb
  · decide
  · exact zeroFree_members l hmembers b hb

/-!
# Lists
-/

/-- What stands between the objects of a list. -/
def Between (text : Text) : Prop :=
  forall b, b ∈ text -> b ≠ 0 ∧ b ≠ 93 ∧ b ≠ 123

theorem between_head {between object : Text} (hbetween : Between between)
    (hobject : OneObject object) (rest : Text) :
    ¬((between ++ (object ++ rest)).head? = none ∨ (between ++ (object ++ rest)).head? = some 0 ∨
      (between ++ (object ++ rest)).head? = some 93) := by
  rcases List.head?_eq_some_iff.mp hobject.opened with ⟨body, rfl⟩
  cases between with
  | nil => rintro (h | h | h) <;> cases h
  | cons b between =>
      rcases hbetween b List.mem_cons_self with ⟨hzero, hbracket, _⟩
      rintro (h | h | h)
      · cases h
      · exact hzero (Option.some.inj h)
      · exact hbracket (Option.some.inj h)

theorem strchr_object {between object : Text} (hbetween : Between between)
    (hobject : OneObject object) (rest : Text) :
    strchr 123 (between ++ (object ++ rest)) = some (object ++ rest) := by
  rcases List.head?_eq_some_iff.mp hobject.opened with ⟨body, rfl⟩
  apply strchr_separator
  · exact fun b hb => (hbetween b hb).left
  · exact fun hmem => (hbetween 123 hmem).right.right rfl

theorem listObjects_cons {between object : Text} (hbetween : Between between)
    (hobject : OneObject object) (rest : Text) :
    listObjects (between ++ (object ++ rest)) = object :: listObjects rest := by
  rw [listObjects, if_neg (between_head hbetween hobject rest)]
  split
  · rename_i hnone
    rw [strchr_object hbetween hobject] at hnone
    cases hnone
  · rename_i start hstart
    rw [strchr_object hbetween hobject] at hstart
    cases hstart
    split
    · rename_i hnone
      rw [hobject.closed] at hnone
      cases hnone
    · rename_i o ho
      rw [hobject.closed] at ho
      cases ho
      rfl

/-- The objects of a list are found one after the other. -/
theorem listObjects_items {parts : List (Text × Text)}
    (h : forall p, p ∈ parts -> Between p.1 ∧ OneObject p.2) (behind : Text) :
    listObjects (parts.flatMap (fun p => p.1 ++ p.2) ++ behind) =
      parts.map Prod.snd ++ listObjects behind := by
  induction parts with
  | nil => rfl
  | cons p ps ih =>
      rcases h p List.mem_cons_self with ⟨hbetween, hobject⟩
      rw [List.flatMap_cons, List.append_assoc, List.append_assoc,
        listObjects_cons hbetween hobject, ih (fun q hq => h q (List.mem_cons_of_mem p hq))]
      rfl

/-- Nothing is found where no object starts. -/
theorem listObjects_none {text : Text} (h : (123 : UInt8) ∉ text) : listObjects text = [] := by
  rw [listObjects]
  split
  · rfl
  · split
    · rfl
    · rename_i start hstart
      rw [strchr_absent h] at hstart
      cases hstart

/-!
# Objects that are cut
-/

theorem objectText_more {inStr esc : Bool} {p : Text} {o : Text × Text}
    (h : objectText inStr esc p = some o) (more : Text) :
    objectText inStr esc (p ++ more) = some (o.1, o.2 ++ more) := by
  induction p generalizing inStr esc o with
  | nil => cases h
  | cons b rest ih =>
      have hfurther : forall s e : Bool,
          (objectText s e rest).map (fun o => (b :: o.1, o.2)) = some o ->
            (objectText s e (rest ++ more)).map (fun o => (b :: o.1, o.2)) =
              some (o.1, o.2 ++ more) := by
        intro s e hs
        rcases Option.map_eq_some_iff.mp hs with ⟨next, hnext, rfl⟩
        rw [ih hnext]
        rfl
      rw [List.cons_append]
      simp only [objectText] at h ⊢
      split at h
      · cases h
      · rename_i hzero
        rw [if_neg hzero]
        split at h
        · rename_i hesc
          rw [if_pos hesc]
          exact hfurther _ _ h
        · rename_i hesc
          rw [if_neg hesc]
          split at h
          · rename_i hback
            rw [if_pos hback]
            exact hfurther _ _ h
          · rename_i hback
            rw [if_neg hback]
            split at h
            · rename_i hquote
              rw [if_pos hquote]
              exact hfurther _ _ h
            · rename_i hquote
              rw [if_neg hquote]
              split at h
              · rename_i hbrace
                rw [if_pos hbrace]
                cases h
                rfl
              · rename_i hbrace
                rw [if_neg hbrace]
                split at h
                · cases h
                · rename_i hbracket
                  rw [if_neg hbracket]
                  exact hfurther _ _ h

/-- The bracket behind the list stops the search, or stands in a string that does not end. -/
theorem objectText_unclosed {inStr esc : Bool} (hesc : esc = true -> inStr = true) {p : Text}
    (h : objectText inStr esc p = none) : objectText inStr esc (p ++ [93, 125]) = none := by
  induction p generalizing inStr esc with
  | nil =>
      cases inStr with
      | true => cases esc <;> rfl
      | false =>
          cases esc with
          | true => cases hesc rfl
          | false => rfl
  | cons b rest ih =>
      have hfurther : forall s e : Bool, (e = true -> s = true) ->
          (objectText s e rest).map (fun o => (b :: o.1, o.2)) = none ->
            (objectText s e (rest ++ [93, 125])).map (fun o => (b :: o.1, o.2)) = none := by
        intro s e he hs
        rw [ih he (Option.map_eq_none_iff.mp hs)]
        rfl
      have hno : false = true -> inStr = true := fun h => by cases h
      rw [List.cons_append]
      simp only [objectText] at h ⊢
      split at h
      · rename_i hzero
        rw [if_pos hzero]
      · rename_i hzero
        rw [if_neg hzero]
        split at h
        · rename_i hesc'
          rw [if_pos hesc']
          exact hfurther _ _ hno h
        · rename_i hesc'
          rw [if_neg hesc']
          split at h
          · rename_i hback
            rw [if_pos hback]
            rw [Bool.and_eq_true] at hback
            exact hfurther _ _ (fun _ => hback.right) h
          · rename_i hback
            rw [if_neg hback]
            split at h
            · rename_i hquote
              rw [if_pos hquote]
              exact hfurther _ _ (fun h => by cases h) h
            · rename_i hquote
              rw [if_neg hquote]
              split at h
              · cases h
              · rename_i hbrace
                rw [if_neg hbrace]
                split at h
                · rename_i hbracket
                  rw [if_pos hbracket]
                · rename_i hbracket
                  rw [if_neg hbracket]
                  exact hfurther _ _ hno h

/-- The front of an object is no object, also with the end of the list behind it. -/
theorem OneObject.cut {object front more : Text} (h : OneObject object)
    (hcut : object = front ++ more) (hmore : more ≠ []) :
    objectText false false (front ++ [93, 125]) = none := by
  apply objectText_unclosed (fun h => by cases h)
  cases hfront : objectText false false front with
  | none => rfl
  | some o =>
      have hwhole := objectText_more hfront more
      have hall := h.closed []
      rw [List.append_nil, hcut, hwhole] at hall
      have hnil : o.2 ++ more = [] := congrArg Prod.snd (Option.some.inj hall)
      exact absurd (List.append_eq_nil_iff.mp hnil).right hmore

theorem objectText_front {a b : Text} (hstarts : a <+: b)
    (h : objectText false false b = none) : objectText false false a = none := by
  rcases hstarts with ⟨more, rfl⟩
  cases ha : objectText false false a with
  | none => rfl
  | some o =>
      rw [objectText_more ha more] at h
      cases h

theorem listObjects_unclosed {arr start : Text} (hstart : strchr 123 arr = some start)
    (h : objectText false false start = none) : listObjects arr = [] := by
  rw [listObjects]
  split
  · rfl
  · split
    · rfl
    · rename_i start' hstart'
      rw [hstart] at hstart'
      cases hstart'
      split
      · rfl
      · rename_i o ho
        rw [h] at ho
        cases ho

/-- Nothing is read from an object that was cut, wherever the text ends. -/
theorem listObjects_cut {between object front more : Text} (hbetween : Between between)
    (hobject : OneObject object) (hcut : between ++ object = front ++ more) (hmore : more ≠ [])
    (n : Nat) : listObjects ((front ++ [93, 125]).take n) = [] := by
  have hnone : (123 : UInt8) ∉ between := fun hmem => (hbetween 123 hmem).right.right rfl
  have hend : (123 : UInt8) ∉ [93, 125] := by decide
  rcases List.append_eq_append_iff.mp hcut with ⟨q, hfront, hsplit⟩ | ⟨c, hfront, _⟩
  · rcases List.head?_eq_some_iff.mp hobject.opened with ⟨body, hbody⟩
    have hunclosed := hobject.cut hsplit hmore
    rw [hfront, List.append_assoc, List.take_append]
    rcases Nat.lt_or_ge between.length n with hlong | hshort
    · rw [List.take_of_length_le (by omega)]
      generalize hk : n - between.length = k
      have hstarts := List.take_prefix k (q ++ [93, 125])
      have hcutNone := objectText_front hstarts hunclosed
      cases hq : q with
      | nil =>
          apply listObjects_none
          intro hmem
          rcases List.mem_append.mp hmem with hmem | hmem
          · exact hnone hmem
          · exact hend (List.mem_of_mem_take hmem)
      | cons x q' =>
          have hx : x = 123 := by
            rw [hbody, hq] at hsplit
            exact (List.cons.inj hsplit).left.symm
          rw [hq, hx] at hcutNone
          obtain ⟨k', rfl⟩ : exists k', k = k' + 1 := ⟨k - 1, by omega⟩
          rw [hx]
          refine listObjects_unclosed ?_ hcutNone
          exact strchr_separator (fun b hb => (hbetween b hb).left) hnone _
    · rw [Nat.sub_eq_zero_of_le hshort, List.take_zero, List.append_nil]
      exact listObjects_none (fun hmem => hnone (List.mem_of_mem_take hmem))
  · apply listObjects_none
    intro hmem
    rcases List.mem_append.mp (List.mem_of_mem_take hmem) with hmem | hmem
    · exact hnone (hfront ▸ List.mem_append_left c hmem)
    · exact hend hmem

/-- The list behind the key is read. -/
theorem shareObjects_list {front mid : Text} (hfront : ZeroFree front) (hopen : (91 : UInt8) ∉ front)
    (hmid : ZeroFree mid) (hmidOpen : (91 : UInt8) ∉ mid) (arr : Text) :
    shareObjects (front ++ (quoted "smb_shares" ++ (mid ++ 91 :: arr))) = listObjects arr := by
  have hne : quoted "smb_shares" ≠ [] := List.cons_ne_nil _ _
  have hneedle : ZeroFree (quoted "smb_shares") ∧ (91 : UInt8) ∉ quoted "smb_shares" :=
    ⟨zeroFree_of_all rfl, by decide⟩
  rcases strstr_finds hne hfront (mid ++ 91 :: arr) with ⟨found, hfound, hlong⟩
  have hsuffix := strstr_suffix hfound
  rcases hlong with ⟨y, rfl⟩
  have hy : y <:+ front := by
    rcases hsuffix with ⟨x, hx⟩
    rw [<- List.append_assoc] at hx
    exact ⟨x, List.append_cancel_right hx⟩
  have hchr : strchr 91 (y ++ (quoted "smb_shares" ++ (mid ++ 91 :: arr))) = some (91 :: arr) := by
    rw [<- List.append_assoc (quoted _), <- List.append_assoc y]
    apply strchr_separator
    · apply zeroFree_append (fun b hb => hfront b (hy.subset hb))
      exact zeroFree_append hneedle.left hmid
    · intro hmem
      rcases List.mem_append.mp hmem with hmem | hmem
      · exact hopen (hy.subset hmem)
      · rcases List.mem_append.mp hmem with hmem | hmem
        · exact hneedle.right hmem
        · exact hmidOpen hmem
  unfold shareObjects
  rw [hfound]
  dsimp only
  rw [hchr]
  rfl

/-!
# What is stored
-/

theorem element_written (out : Parsed) (k : Nat) (share : SmbShare) (count i : Nat) :
    Parsed.element { writes := out.writes ++ [(k, share)], count := count } i =
      if k = i then some share else out.element i := by
  unfold Parsed.element
  rw [List.reverse_append, List.reverse_singleton, List.singleton_append, List.find?_cons]
  split
  · rename_i hbeq
    rw [if_pos (beq_iff_eq.mp hbeq)]
    rfl
  · rename_i hbeq
    rw [if_neg (fun heq => by rw [heq, beq_self_eq_true] at hbeq; cases hbeq)]

/-- The shares that are counted are those of a list of objects. -/
structure StoredShares (out : Parsed) (objects : List Text) : Prop where
  count : out.count = objects.length
  element : forall i, i < out.count ->
    out.element i = (objects[i]?).map (fun item => withId i (shareOfItem item))

theorem storedShares_nothing : StoredShares { writes := [], count := 0 } [] where
  count := rfl
  element _ hi := absurd hi (Nat.not_lt_zero _)

theorem storedShares_next {out : Parsed} {objects : List Text} (h : StoredShares out objects)
    (hroom : out.count < maxSmbShares) (item : Text) :
    StoredShares (storeObject out item)
      (if acceptedItem item then objects ++ [item] else objects) := by
  unfold storeObject acceptedItem
  rw [if_pos hroom]
  dsimp only
  split
  · constructor
    · rw [List.length_append, List.length_singleton, h.count]
    · intro i hi
      rw [element_written]
      split
      · rename_i heq
        rw [<- heq, h.count, List.getElem?_concat_length]
        rfl
      · rename_i hne
        have hlt : i < out.count := by
          rcases Nat.lt_succ_iff_lt_or_eq.mp hi with hlt | heq
          · exact hlt
          · exact absurd heq.symm hne
        rw [h.element i hlt, List.getElem?_append_left (h.count ▸ hlt)]
  · constructor
    · exact h.count
    · intro i hi
      rw [element_written, if_neg (Nat.ne_of_gt hi), h.element i hi]

theorem storedShares_foldl {out : Parsed} {objects : List Text} (items : List Text)
    (h : StoredShares out objects) (hroom : objects.length + items.length ≤ maxSmbShares) :
    StoredShares (items.foldl storeObject out) (objects ++ items.filter acceptedItem) := by
  induction items generalizing out objects with
  | nil =>
      rw [List.filter_nil, List.append_nil]
      exact h
  | cons item rest ih =>
      rw [List.length_cons] at hroom
      have hnext := storedShares_next h (by rw [h.count]; omega) item
      rw [List.foldl_cons, List.filter_cons]
      split
      · rename_i hitem
        rw [if_pos hitem] at hnext
        rw [List.append_cons]
        apply ih hnext
        rw [List.length_append, List.length_singleton]
        omega
      · rename_i hitem
        rw [if_neg hitem] at hnext
        exact ih hnext (by omega)

/-- Of a list that is not too long the accepted objects are taken, in order. -/
theorem parsedShares_eq {text : Text} {items : List Text} (h : shareObjects text = items)
    (hlen : items.length ≤ maxSmbShares) :
    parsedShares text =
      (items.filter acceptedItem).mapIdx (fun i item => withId i (shareOfItem item)) := by
  have hstored : StoredShares (parseSmbShares text) (items.filter acceptedItem) := by
    unfold parseSmbShares
    rw [h]
    exact storedShares_foldl items storedShares_nothing (by simpa using hlen)
  have helement : forall i, i ∈ List.range (parseSmbShares text).count ->
      (parseSmbShares text).element i = ((items.filter acceptedItem)[i]?).map
        (fun item => withId i (shareOfItem item)) :=
    fun i hi => hstored.element i (List.mem_range.mp hi)
  unfold parsedShares
  dsimp only
  rw [List.filterMap_congr helement, hstored.count]
  generalize items.filter acceptedItem = taken
  induction taken using List.reverseRecOn with
  | nil => rfl
  | append_singleton taken item ih =>
      have hfront : forall i, i ∈ List.range taken.length ->
          ((taken ++ [item])[i]?).map (fun item => withId i (shareOfItem item)) =
            (taken[i]?).map (fun item => withId i (shareOfItem item)) := by
        intro i hi
        rw [List.getElem?_append_left (List.mem_range.mp hi)]
      rw [List.length_append, List.length_singleton, List.range_succ, List.filterMap_append,
        List.filterMap_congr hfront, ih, List.mapIdx_concat]
      simp

end Smb
end PkgManager
