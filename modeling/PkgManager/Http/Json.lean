import PkgManager.Http.Url
import PkgManager.Smb.Urls

/-!
# Listings as JSON texts

The readers search the text of a document.  A bracket is matched with strings left out, a key is
the first place where its quoted text has a colon behind it, and a string is read into a buffer
of fixed size.
-/

namespace PkgManager
namespace Http

open CString
open PkgManager.Parser
open PkgManager.Smb (digitsValue)

/-!
# Brackets
-/

/-- The loop of {lit}`json_match`: what stands in front of the bracket, and what stands behind
it. -/
def matchFrom (opener closer : UInt8) :
    (depth : Int) -> (inStr esc : Bool) -> Text -> Option (Text × Text)
  | _, _, _, [] => none
  | depth, inStr, esc, b :: rest =>
      let more (depth : Int) (inStr esc : Bool) :=
        (matchFrom opener closer depth inStr esc rest).map (fun parts => (b :: parts.1, parts.2))
      if b = 0 then none
      else if esc then more depth inStr false
      else if inStr then
        if b = backslash then more depth inStr true
        else if b = quote then more depth false false
        else more depth inStr false
      else if b = quote then more depth true false
      else if b = opener then more (depth + 1) false false
      else if b = closer then
        if depth - 1 = 0 then some ([], rest) else more (depth - 1) false false
      else more depth false false

def closerOf (opener : UInt8) : UInt8 :=
  if opener = 123 then 125 else 93

/-- {lit}`json_match` of a text that starts with a bracket. -/
def jsonMatch (p : Text) : Option (Text × Text) :=
  match p with
  | [] => none
  | opener :: _ => matchFrom opener (closerOf opener) 0 false false p

/-!
# Strings
-/

/-- A byte is written when there is room for it and for {lit}`behind` more. -/
def put (outSz o behind : Nat) (bytes : Text) : Text :=
  if o + behind < outSz then bytes else []

def unicodeValue (digits : Text) : Nat :=
  digits.foldl (fun v b => v * 16 + (hexval b).getD 0) 0

def unicodeBytes (outSz o v : Nat) : Text :=
  if v < 0x80 then put outSz o 1 [UInt8.ofNat v]
  else if v < 0x800 then
    let lead := put outSz o 2 [UInt8.ofNat (0xC0 + v / 64)]
    lead ++ put outSz (o + lead.length) 1 [UInt8.ofNat (0x80 + v % 64)]
  else
    let lead := put outSz o 3 [UInt8.ofNat (0xE0 + v / 4096), UInt8.ofNat (0x80 + v / 64 % 64)]
    lead ++ put outSz (o + lead.length) 1 [UInt8.ofNat (0x80 + v % 64)]

def escapedByte (e : UInt8) : UInt8 :=
  if e = 110 then 10
  else if e = 116 then 9
  else if e = 114 then 13
  else if e = 98 then 8
  else if e = 102 then 12
  else e

/-- What one character of a string writes, and the text behind it. -/
def jsonPiece (outSz o : Nat) (b : UInt8) (rest : Text) : Text × Text :=
  if b = backslash then
    match rest with
    | [] => (put outSz o 1 [b], [])
    | e :: rest =>
        if e = 117 then (unicodeBytes outSz o (unicodeValue (rest.take 4)), rest.drop 4)
        else (put outSz o 1 [escapedByte e], rest)
  else (put outSz o 1 [b], rest)

theorem jsonPiece_shorter (outSz o : Nat) (b : UInt8) (rest : Text) :
    (jsonPiece outSz o b rest).2.length ≤ rest.length := by
  unfold jsonPiece
  split
  · split
    · exact Nat.le_refl _
    · split
      · rw [List.length_drop, List.length_cons]
        omega
      · exact Nat.le_succ _
  · exact Nat.le_refl _

/-- The loop of {lit}`json_parse_string`: the bytes that are written, and what stands behind the
closing quote when there is one. -/
def jsonStringFrom (outSz o : Nat) : Text -> Text × Option Text
  | [] => ([], none)
  | b :: rest =>
      if b = 0 then ([], none)
      else if b = quote then ([], some rest)
      else
        let piece := jsonPiece outSz o b rest
        let tail := jsonStringFrom outSz (o + piece.1.length) piece.2
        (piece.1 ++ tail.1, tail.2)
termination_by text => text.length
decreasing_by
  have hle := jsonPiece_shorter outSz o b rest
  simp only [List.length_cons]
  omega

/-- {lit}`json_parse_string` into a buffer that holds a text. -/
def jsonParseString (outSz : Nat) (out : Text) (p : Text) : Text × Option Text :=
  match p with
  | 34 :: rest =>
      let parsed := jsonStringFrom outSz 0 rest
      (cString parsed.1, parsed.2)
  | _ => (out, none)

/-!
# Fields
-/

/-- {lit}`json_value`: the text from the value of a key on. -/
def jsonValue (key : String) : Text -> Option Text
  | [] => none
  | b :: rest =>
      if (quoted key).isPrefixOf (b :: rest) then
        match ((b :: rest).drop (quoted key).length).dropWhile isSpace with
        | 58 :: q =>
            match q.dropWhile isSpace with
            | [] => none
            | value => some value
        | _ => jsonValue key rest
      else jsonValue key rest

/-- {lit}`json_get_str`: the buffer after it, and whether the field was read. -/
def jsonGetStr (obj : Text) (key : String) (outSz : Nat) (out : Text) : Text × Bool :=
  match jsonValue key obj with
  | none => (out, false)
  | some value =>
      let parsed := jsonParseString outSz out value
      (parsed.1, parsed.2.isSome)

def jsonGetU64 (obj : Text) (key : String) : Option Nat :=
  match jsonValue key obj with
  | none => none
  | some value =>
      let digits := if value.head? = some quote then value.drop 1 else value
      if digits.head?.any isDigit then
        some (min (digitsValue (digits.takeWhile isDigit)) (2 ^ 64 - 1))
      else none

/-!
# Matching over texts
-/

/-- Over these texts a bracket of another place is searched. -/
def Neutral (opener closer : UInt8) (text : Text) : Prop :=
  forall depth rest, matchFrom opener closer depth false false (text ++ rest) =
    (matchFrom opener closer depth false false rest).map
      (fun parts => (text ++ parts.1, parts.2))

section Matching

variable {opener closer : UInt8}

theorem Neutral.nil : Neutral opener closer [] := by
  intro depth rest
  simp

theorem Neutral.append {a b : Text} (ha : Neutral opener closer a) (hb : Neutral opener closer b) :
    Neutral opener closer (a ++ b) := by
  intro depth rest
  rw [List.append_assoc, ha, hb, Option.map_map]
  simp only [Function.comp_def, List.append_assoc]

/-- A byte that is no mark of the search. -/
def isPlain (opener closer b : UInt8) : Bool :=
  b != 0 && b != quote && b != opener && b != closer

theorem Neutral.plain {text : Text} (h : text.all (isPlain opener closer) = true) :
    Neutral opener closer text := by
  induction text with
  | nil => exact Neutral.nil
  | cons b rest ih =>
      rw [List.all_cons, Bool.and_eq_true] at h
      have hb : b ≠ 0 ∧ b ≠ quote ∧ b ≠ opener ∧ b ≠ closer := by
        have hplain := h.1
        simp only [isPlain, Bool.and_eq_true, bne_iff_ne] at hplain
        exact ⟨hplain.1.1.1, hplain.1.1.2, hplain.1.2, hplain.2⟩
      have hone : Neutral opener closer [b] := by
        intro depth rest
        conv_lhs => rw [List.singleton_append]; unfold matchFrom
        simp only [if_neg hb.1, if_neg hb.2.1, if_neg hb.2.2.1, if_neg hb.2.2.2,
          Bool.false_eq_true, if_false, List.singleton_append]
      exact hone.append (ih h.2)

/-- Between the marks of a string the search is inside of it. -/
def Inside (opener closer : UInt8) (text : Text) : Prop :=
  forall depth rest, matchFrom opener closer depth true false (text ++ rest) =
    (matchFrom opener closer depth true false rest).map (fun parts => (text ++ parts.1, parts.2))

theorem Inside.append {a b : Text} (ha : Inside opener closer a) (hb : Inside opener closer b) :
    Inside opener closer (a ++ b) := by
  intro depth rest
  rw [List.append_assoc, ha, hb, Option.map_map]
  simp only [Function.comp_def, List.append_assoc]

theorem Inside.byte {b : UInt8} (hzero : b ≠ 0) (hmark : ¬(b = quote ∨ b = backslash)) :
    Inside opener closer [b] := by
  intro depth rest
  conv_lhs => rw [List.singleton_append]; unfold matchFrom
  simp only [if_neg hzero, if_neg (fun h => hmark (Or.inl h)), if_neg (fun h => hmark (Or.inr h)),
    Bool.false_eq_true, if_false, if_true, List.singleton_append]

theorem Inside.escaped {e : UInt8} (hzero : e ≠ 0) : Inside opener closer [backslash, e] := by
  intro depth rest
  have hmark : backslash ≠ 0 := by decide
  conv_lhs =>
    rw [List.cons_append, List.singleton_append]
    unfold matchFrom
    simp only [if_neg hmark, Bool.false_eq_true, if_false, if_true]
    unfold matchFrom
  simp only [if_neg hzero, if_true, Option.map_map, Function.comp_def, List.cons_append,
    List.nil_append]

theorem Neutral.string {text : Text} (h : Inside opener closer text) :
    Neutral opener closer (quote :: text ++ [quote]) := by
  intro depth rest
  have hmark : quote ≠ 0 := by decide
  have hslash : quote ≠ backslash := by decide
  have hopen : matchFrom opener closer depth false false (quote :: text ++ [quote] ++ rest) =
      (matchFrom opener closer depth true false (text ++ ([quote] ++ rest))).map
        (fun parts => (quote :: parts.1, parts.2)) := by
    conv_lhs =>
      rw [List.append_assoc, List.cons_append]
      unfold matchFrom
    simp only [if_neg hmark, Bool.false_eq_true, if_false, if_true]
  have hclose : matchFrom opener closer depth true false ([quote] ++ rest) =
      (matchFrom opener closer depth false false rest).map
        (fun parts => (quote :: parts.1, parts.2)) := by
    conv_lhs =>
      rw [List.singleton_append]
      unfold matchFrom
    simp only [if_neg hmark, if_neg hslash, Bool.false_eq_true, if_false, if_true]
  rw [hopen, h, hclose, Option.map_map, Option.map_map]
  simp only [Function.comp_def, List.cons_append, List.append_assoc, List.nil_append]

end Matching

/-- The bracket of a text that holds no other of its kind. -/
theorem jsonMatch_neutral {opener : UInt8} {text : Text} (hopen : opener = 123 ∨ opener = 91)
    (h : Neutral opener (closerOf opener) text) (rest : Text) :
    jsonMatch (opener :: text ++ closerOf opener :: rest) = some (opener :: text, rest) := by
  have hne : opener ≠ 0 ∧ opener ≠ quote ∧ closerOf opener ≠ 0 ∧ closerOf opener ≠ quote ∧
      closerOf opener ≠ opener := by
    rcases hopen with rfl | rfl <;> decide
  have hstart : jsonMatch (opener :: text ++ closerOf opener :: rest) =
      (matchFrom opener (closerOf opener) 1 false false (text ++ closerOf opener :: rest)).map
        (fun parts => (opener :: parts.1, parts.2)) := by
    change matchFrom opener (closerOf opener) 0 false false
      (opener :: (text ++ closerOf opener :: rest)) = _
    conv_lhs => unfold matchFrom
    simp only [if_neg hne.1, if_neg hne.2.1, Bool.false_eq_true, if_false, if_true, zero_add]
  have hend : matchFrom opener (closerOf opener) 1 false false (closerOf opener :: rest) =
      some ([], rest) := by
    unfold matchFrom
    simp only [if_neg hne.2.2.1, if_neg hne.2.2.2.1, if_neg hne.2.2.2.2, Bool.false_eq_true,
      if_false, if_true, sub_self]
  rw [hstart, h, hend]
  simp

/-!
# Keys over texts
-/

theorem jsonValue_skip {key : String} {b : UInt8} {rest : Text}
    (h : (quoted key).isPrefixOf (b :: rest) = false) :
    jsonValue key (b :: rest) = jsonValue key rest := by
  conv_lhs => unfold jsonValue
  rw [h, if_neg Bool.false_ne_true]

/-- No key starts in a text without quotes. -/
theorem jsonValue_noQuote {key : String} {text : Text} (h : quote ∉ text) (rest : Text) :
    jsonValue key (text ++ rest) = jsonValue key rest := by
  induction text with
  | nil => rfl
  | cons b more ih =>
      have hb : b ≠ quote := fun heq => h (heq ▸ List.mem_cons_self)
      rw [List.cons_append, jsonValue_skip, ih (fun hmem => h (List.mem_cons_of_mem b hmem))]
      have hne : (quote == b) = false := beq_false_of_ne (fun heq => hb heq.symm)
      rw [quoted, List.isPrefixOf, hne, Bool.false_and]

theorem jsonValue_found {key : String} {value : Text} {first : UInt8}
    (hspace : isSpace first = false) :
    jsonValue key (quoted key ++ 58 :: 32 :: first :: value) = some (first :: value) := by
  have hmatch : (quoted key).isPrefixOf (quoted key ++ 58 :: 32 :: first :: value) = true :=
    List.isPrefixOf_iff_prefix.mpr (List.prefix_append _ _)
  have hcons : quoted key ++ 58 :: 32 :: first :: value =
      quote :: (ascii key ++ [quote] ++ 58 :: 32 :: first :: value) := rfl
  have hdrop : (quoted key ++ 58 :: 32 :: first :: value).drop (quoted key).length =
      58 :: 32 :: first :: value := List.drop_left
  rw [hcons] at hmatch hdrop ⊢
  conv_lhs => unfold jsonValue
  rw [if_pos hmatch, hdrop]
  have hcolon : isSpace 58 = false := by decide
  have hblank : isSpace 32 = true := by decide
  simp [hcolon, hblank, hspace]

/-- Each quote in such a text has a backslash in front of it. -/
def QuotesEscaped (text : Text) : Prop :=
  forall a b, text = a ++ quote :: b -> a.getLast? = some backslash

/-- Behind the text of a key there are neither quotes nor marks of a list. -/
def PlainKey (key : String) : Prop :=
  ascii key ≠ [] ∧ quote ∉ ascii key ∧ backslash ∉ ascii key ∧ (44 : UInt8) ∉ ascii key

/-- What looks like a key in a string has the comma behind the string behind it. -/
theorem quoted_in_string {key : String} (hkey : PlainKey key) {text before behind rest : Text}
    (htext : QuotesEscaped text) (hsplit : quote :: text ++ [quote] = before ++ quote :: behind)
    (hmatch : quoted key <+: quote :: (behind ++ 44 :: rest)) :
    (quote :: (behind ++ 44 :: rest)).drop (quoted key).length = 44 :: rest := by
  rcases hkey with ⟨hne, hquote, hslash, hcomma⟩
  rcases hmatch with ⟨remaining, hremaining⟩
  have hline : behind ++ 44 :: rest = ascii key ++ quote :: remaining := by
    rw [quoted, List.cons_append, List.append_assoc] at hremaining
    exact (List.cons.inj hremaining).2.symm
  rcases List.append_eq_append_iff.mp hline with ⟨middle, hkeyText, hrest⟩ | ⟨middle, hbehind, hrest⟩
  · -- The key would go on behind the string.
    cases middle with
    | nil => exact absurd (List.cons.inj hrest).1 (by decide)
    | cons c middle =>
        have hc : c = 44 := (List.cons.inj hrest).1.symm
        refine absurd ?_ hcomma
        rw [hkeyText, hc]
        exact List.mem_append_right _ List.mem_cons_self
  · cases middle with
    | nil => exact absurd (List.cons.inj hrest).1 (by decide)
    | cons c middle =>
        have hc : c = quote := (List.cons.inj hrest).1.symm
        subst hc
        have hremains : remaining = middle ++ 44 :: rest := (List.cons.inj hrest).2
        rcases List.eq_nil_or_concat middle with hlast | ⟨inner, last, hlast⟩
        · rw [<- hremaining, List.drop_left, hremains, hlast, List.nil_append]
        · -- The second quote of the key stands in the string, behind a byte of the key.
          have hsame : quote :: text ++ [quote] =
              ((before ++ quote :: ascii key) ++ quote :: inner) ++ [last] := by
            rw [hsplit, hbehind, hlast, List.concat_eq_append]
            simp
          have hopened : quote :: text = (before ++ quote :: ascii key) ++ quote :: inner :=
            (List.append_inj' hsame rfl).1
          have hescaped : (ascii key).getLast? = some backslash := by
            cases before with
            | nil => exact htext _ _ (List.cons.inj hopened).2
            | cons b before =>
                have hlastByte : (before ++ quote :: ascii key).getLast? = some backslash :=
                  htext _ _ (List.cons.inj hopened).2
                rwa [List.getLast?_append, List.getLast?_cons_of_ne_nil hne,
                  List.getLast?_eq_some_getLast hne, Option.some_or,
                  <- List.getLast?_eq_some_getLast hne] at hlastByte
          exact absurd (List.mem_of_getLast? hescaped) hslash

theorem jsonValue_string {key : String} (hkey : PlainKey key) {text : Text}
    (htext : QuotesEscaped text) (rest : Text) :
    jsonValue key (quote :: text ++ [quote] ++ 44 :: rest) = jsonValue key (44 :: rest) := by
  have hsuffix : forall behind before, quote :: text ++ [quote] = before ++ behind ->
      jsonValue key (behind ++ 44 :: rest) = jsonValue key (44 :: rest) := by
    intro behind
    induction behind with
    | nil => intro before _; rfl
    | cons b behind ih =>
        intro before hsplit
        have hnext := ih (before ++ [b]) (by rw [hsplit, List.append_assoc, List.singleton_append])
        rw [List.cons_append]
        cases hmatch : (quoted key).isPrefixOf (b :: (behind ++ 44 :: rest)) with
        | false => rw [jsonValue_skip hmatch, hnext]
        | true =>
            have hstarts := List.isPrefixOf_iff_prefix.mp hmatch
            have hb : b = quote := by
              rcases hstarts with ⟨remaining, hremaining⟩
              exact (List.cons.inj hremaining).1.symm
            subst hb
            have hdrop := quoted_in_string hkey htext hsplit hstarts
            have hcomma : (44 :: rest).dropWhile isSpace = 44 :: rest :=
              List.dropWhile_cons_of_neg (by decide)
            conv_lhs => unfold jsonValue
            rw [if_pos hmatch, hdrop, hcomma]
            exact hnext
  exact hsuffix _ [] rfl

end Http
end PkgManager
