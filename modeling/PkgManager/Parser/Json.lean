import PkgManager.Bytes.CString

/-!
# Texts of a JSON document

The parser looks for keys as plain text.  A pointer is the list of the bytes from
there on; the end of a part is the number of bytes from the end of the part to
the end of the memory in view.
-/

namespace PkgManager
namespace Parser

open CString

abbrev Text := List UInt8

def quote : UInt8 := 34

def backslash : UInt8 := 92

def isSpace (b : UInt8) : Bool :=
  b == 32 || decide (9 ≤ b.toNat ∧ b.toNat ≤ 13)

def isDigit (b : UInt8) : Bool :=
  decide (48 ≤ b.toNat ∧ b.toNat ≤ 57)

/-- {lit}`strncmp(text, start, strlen(start)) == 0` -/
def startsWith (start : String) (text : Text) : Bool :=
  (ascii start).isPrefixOf text

/-- The text in an array of {lit}`size` bytes that bytes were copied to. -/
def copied (size : Nat) (bytes : List UInt8) : Text :=
  cString (bytes.take (size - 1))

/-- {lit}`while (q < end && isspace(*q)) q++` -/
def skipSpaces (stop : Nat) : List UInt8 -> List UInt8
  | [] => []
  | b :: rest =>
      if stop ≤ rest.length ∧ isSpace b = true then skipSpaces stop rest else b :: rest

/-- {lit}`while (p < end && *p != '"') p++` -/
def skipToQuote (stop : Nat) : List UInt8 -> List UInt8
  | [] => []
  | b :: rest =>
      if stop ≤ rest.length ∧ b ≠ quote then skipToQuote stop rest else b :: rest

/-- The bytes that the copy loop for a string takes. -/
def quotedText (stop : Nat) : List UInt8 -> List UInt8
  | [] => []
  | b :: rest =>
      if stop ≤ rest.length ∧ b ≠ quote then
        if b = backslash ∧ stop < rest.length then
          match rest with
          | [] => []
          | c :: rest => c :: quotedText stop rest
        else b :: quotedText stop rest
      else []

/-- Where the copy loop for a string stops. -/
def quotedEnd (stop : Nat) : List UInt8 -> List UInt8
  | [] => []
  | b :: rest =>
      if stop ≤ rest.length ∧ b ≠ quote then
        if b = backslash ∧ stop < rest.length then
          match rest with
          | [] => []
          | _ :: rest => quotedEnd stop rest
        else quotedEnd stop rest
      else b :: rest

/-- The bytes of the string behind a colon, when it is a string. -/
def stringValue (stop : Nat) (colon : List UInt8) : Option (List UInt8) :=
  let q := skipSpaces stop (colon.drop 1)
  if stop < q.length ∧ q.head? = some quote then some (quotedText stop (q.drop 1)) else none

/-- The text {lit}`"key"`. -/
def quoted (key : String) : List UInt8 :=
  quote :: (ascii key ++ [quote])

theorem quoted_ne_nil (key : String) : quoted key ≠ [] := by
  intro h
  cases h

/-- One occurrence of the key: the value, or where the search goes on. -/
inductive KeySearch where
  | value (bytes : List UInt8)
  | next (p : List UInt8)
  | gone

def keyAt (behind : Nat) (key : String) (p : List UInt8) : KeySearch :=
  match strstr (quoted key) p with
  | none => KeySearch.gone
  | some found =>
      if found.length ≤ behind then KeySearch.gone
      else
        let rest := found.drop (quoted key).length
        match strchr 58 rest with
        | none => KeySearch.gone
        | some colon =>
            if colon.length ≤ behind then KeySearch.gone
            else
              match stringValue behind colon with
              | some bytes => KeySearch.value bytes
              | none => KeySearch.next rest

theorem keyAt_next {behind : Nat} {key : String} {p rest : List UInt8}
    (h : keyAt behind key p = KeySearch.next rest) : rest.length < p.length := by
  unfold keyAt at h
  split at h
  · cases h
  · rename_i found hfound
    split at h
    · cases h
    · dsimp only at h
      split at h
      · cases h
      · split at h
        · cases h
        · split at h
          · cases h
          · cases h
            exact strstr_shorter (quoted_ne_nil key) hfound

/-- The search loop of {lit}`json_extract_key`. -/
def searchKey (behind : Nat) (key : String) (p : List UInt8) : Option (List UInt8) :=
  if p.length ≤ behind then none
  else
    match _h : keyAt behind key p with
    | KeySearch.gone => none
    | KeySearch.value bytes => some bytes
    | KeySearch.next rest => searchKey behind key rest
termination_by p.length
decreasing_by exact keyAt_next (by assumption)

/-- {lit}`json_extract_key` with an array of {lit}`outMax` bytes.  Only the first
list is the document; the second is the memory behind it. -/
def jsonExtractKey (json behind : List UInt8) (key : String) (outMax : Nat) : Option Text :=
  (searchKey behind.length key (json ++ behind)).map (copied outMax)

def jsonHasKey (json : List UInt8) (key : String) : Bool :=
  json.tails.any (fun rest => (quoted key).isPrefixOf rest)

example : jsonExtractKey (ascii "\x7b\"a\":1,\"a\" : \"x\\\"y\"\x7d") [] "a" 8 =
    some (ascii "x\"y") := by
  decide +kernel

/-!
# The memory behind a document

The value of a key does not depend on it.
-/

theorem skipSpaces_append (p behind : List UInt8) :
    skipSpaces behind.length (p ++ behind) = skipSpaces 0 p ++ behind := by
  induction p with
  | nil =>
      rw [List.nil_append]
      cases behind with
      | nil => rfl
      | cons b rest =>
          unfold skipSpaces
          rw [if_neg (fun h => Nat.not_succ_le_self rest.length h.1)]
          rfl
  | cons b rest ih =>
      rw [List.cons_append]
      unfold skipSpaces
      simp only [List.length_append, Nat.le_add_left, Nat.zero_le, true_and, ih]
      split
      · rfl
      · rfl

theorem quotedText_append (behind : List UInt8) :
    forall p, quotedText behind.length (p ++ behind) = quotedText 0 p
  | [] => by
      rw [List.nil_append]
      cases behind with
      | nil => rfl
      | cons b rest =>
          unfold quotedText
          rw [if_neg (fun h => Nat.not_succ_le_self rest.length h.1)]
  | [b] => by
      have hrest := quotedText_append behind []
      rw [List.nil_append] at hrest
      rw [List.cons_append, List.nil_append]
      unfold quotedText
      simp [hrest]
  | b :: c :: rest => by
      have hrest := quotedText_append behind rest
      have hnext := quotedText_append behind (c :: rest)
      rw [List.cons_append] at hnext
      have hlen : (c :: (rest ++ behind)).length = (rest.length + 1) + behind.length := by
        rw [List.length_cons, List.length_append]
        omega
      have hle : behind.length ≤ (c :: (rest ++ behind)).length := by
        omega
      have hlt : behind.length < (c :: (rest ++ behind)).length := by
        omega
      have hpos : 0 < (c :: rest).length := Nat.zero_lt_succ rest.length
      rw [List.cons_append, List.cons_append]
      unfold quotedText
      simp only [hle, hlt, hrest, hnext, hpos, Nat.zero_le]

theorem stringValue_append {here : List UInt8} (hhere : here ≠ []) (behind : List UInt8) :
    stringValue behind.length (here ++ behind) = stringValue 0 here := by
  unfold stringValue
  have hdrop : (here ++ behind).drop 1 = here.drop 1 ++ behind := by
    rw [List.drop_append_of_le_length (List.length_pos_iff.mpr hhere)]
  rw [hdrop, skipSpaces_append]
  dsimp only
  cases hq : skipSpaces 0 (here.drop 1) with
  | nil => simp
  | cons b rest =>
      rw [List.cons_append]
      have hlen : behind.length < (b :: (rest ++ behind)).length ↔ 0 < (b :: rest).length := by
        rw [List.length_cons, List.length_cons, List.length_append]
        omega
      simp only [hlen, List.head?_cons, List.drop_succ_cons, List.drop_zero, quotedText_append]

def KeySearch.before (behind : List UInt8) : KeySearch -> KeySearch
  | KeySearch.value bytes => KeySearch.value bytes
  | KeySearch.next p => KeySearch.next (p ++ behind)
  | KeySearch.gone => KeySearch.gone

theorem keyAt_gone {stop : Nat} {key : String} {p found : List UInt8}
    (h : strstr (quoted key) p = some found)
    (hshort : (found.drop (quoted key).length).length ≤ stop) :
    keyAt stop key p = KeySearch.gone := by
  unfold keyAt
  rw [h]
  dsimp only
  split
  · rfl
  · split
    · rfl
    · rename_i colon hcolon
      have hle := (strchr_suffix hcolon).length_le
      rw [if_pos (hle.trans hshort)]

theorem strchr_ne_nil {c : UInt8} {p found : List UInt8} (h : strchr c p = some found) :
    found ≠ [] := by
  induction p with
  | nil => cases h
  | cons b rest ih =>
      unfold strchr at h
      split at h
      · cases h
        exact List.cons_ne_nil b rest
      · split at h
        · cases h
        · exact ih h

theorem keyAt_append (key : String) (p behind : List UInt8) :
    keyAt behind.length key (p ++ behind) = (keyAt 0 key p).before behind := by
  cases hstr : strstr (quoted key) p with
  | none =>
      have hgone : keyAt 0 key p = KeySearch.gone := by
        unfold keyAt
        rw [hstr]
      rw [hgone]
      cases hfar : strstr (quoted key) (p ++ behind) with
      | none =>
          unfold keyAt
          rw [hfar]
          rfl
      | some found =>
          rcases strstr_append_cases hfar with ⟨here, _, hhere⟩ | hshort
          · rw [hstr] at hhere
            cases hhere
          · rw [keyAt_gone hfar hshort]
            rfl
  | some here =>
      have hlong := (strstr_starts hstr).length_le
      have hpos := List.length_pos_iff.mpr (quoted_ne_nil key)
      have hdrop : (here ++ behind).drop (quoted key).length =
          here.drop (quoted key).length ++ behind :=
        List.drop_append_of_le_length hlong
      unfold keyAt
      rw [hstr, strstr_append hstr behind]
      dsimp only
      rw [if_neg (by rw [List.length_append]; omega), if_neg (by omega), hdrop]
      cases hchr : strchr 58 (here.drop (quoted key).length) with
      | none =>
          dsimp only
          split
          · rfl
          · rename_i colon hcolon
            rcases strchr_append_cases hcolon with ⟨first, _, hfirst⟩ | hshort
            · rw [hchr] at hfirst
              cases hfirst
            · rw [if_pos hshort]
              rfl
      | some colon =>
          have hcolon := strchr_ne_nil hchr
          have hcolonPos := List.length_pos_iff.mpr hcolon
          rw [strchr_append hchr behind]
          dsimp only
          rw [if_neg (by rw [List.length_append]; omega), if_neg (by omega),
            stringValue_append hcolon]
          split
          · rfl
          · rfl

theorem searchKey_append (key : String) (p behind : List UInt8) :
    searchKey behind.length key (p ++ behind) = searchKey 0 key p := by
  induction hn : p.length using Nat.strong_induction_on generalizing p with
  | _ n ih =>
      unfold searchKey
      cases p with
      | nil => simp
      | cons b rest =>
          have hlong : ¬ (b :: rest ++ behind).length ≤ behind.length := by
            rw [List.length_append, List.length_cons]
            omega
          rw [if_neg hlong, if_neg (by simp), keyAt_append]
          cases hkey : keyAt 0 key (b :: rest) with
          | gone => rfl
          | value bytes => rfl
          | next next =>
              have hshort := keyAt_next hkey
              rw [hn] at hshort
              exact ih next.length hshort next rfl

theorem jsonExtractKey_behind (json behind : List UInt8) (key : String) (outMax : Nat) :
    jsonExtractKey json behind key outMax = jsonExtractKey json [] key outMax := by
  have h := searchKey_append key json []
  rw [List.append_nil] at h
  unfold jsonExtractKey
  rw [searchKey_append, List.append_nil]
  rfl

end Parser
end PkgManager

/-!
# The object of localized titles

Both metadata formats leave one text behind: a flat JSON object from language
tags to titles.
-/

namespace PkgManager
namespace Parser

open CString

/-- {lit}`PKG_TITLE_ID_LEN` -/
def titleIdLen : Nat := 32

/-- {lit}`PKG_TITLE_NAME_LEN` -/
def titleNameLen : Nat := 256

/-- {lit}`PKG_LOCALIZED_TITLES_LEN` -/
def localizedTitlesLen : Nat := 2048

/-- {lit}`PKG_DEFAULT_LANG_LEN` -/
def defaultLangLen : Nat := 32

structure LocalizedTitle where
  lang : Text
  title : Text
deriving DecidableEq

/-- The escape loop into an array of {lit}`2 * PKG_TITLE_NAME_LEN` bytes, from
the position {lit}`eidx` on. -/
def escapeFrom : Nat -> Text -> Text
  | _, [] => []
  | eidx, b :: rest =>
      if eidx + 2 < 2 * titleNameLen then
        if b = quote ∨ b = backslash then backslash :: b :: escapeFrom (eidx + 2) rest
        else b :: escapeFrom (eidx + 1) rest
      else []

def escapedTitle (title : Text) : Text :=
  escapeFrom 0 title

/-- What one {lit}`snprintf` writes when there is room. -/
def titlePiece (first : Bool) (entry : LocalizedTitle) : Text :=
  (if first then [] else ascii ",") ++ quote :: entry.lang ++ ascii "\":\"" ++
    escapedTitle entry.title ++ [quote]

/-- The pieces up to the first one that does not fit. -/
def titlePieces (locMax : Nat) : Bool -> Text -> List LocalizedTitle -> Text
  | _, out, [] => out
  | first, out, entry :: rest =>
      let piece := titlePiece first entry
      if piece.length < locMax - out.length then titlePieces locMax false (out ++ piece) rest
      else out

/-- The closing brace is left out when the pieces fill the array. -/
def buildLocalizedTitles (locMax : Nat) (entries : List LocalizedTitle) : Text :=
  let out := titlePieces locMax true (ascii "\x7b") entries
  if out.length < locMax - 1 then out ++ ascii "\x7d" else out

end Parser
end PkgManager
