import PkgManager.Smb.Browse

/-!
# The way of a cursor

The browser gets back what the server wrote.  The server gets back what the browser wrote when
there are no control characters in it and no earlier text in the request is taken for the key.
-/

namespace PkgManager
namespace Smb

open CString
open PkgManager.Parser

/-!
# The cursor in the browser
-/

theorem escapePiece_length (c : UInt8) : (escapePiece c).length ≤ 6 := by
  unfold escapePiece unicodeEscape
  split_ifs <;> simp [ascii]

/-- A text that the buffer has room for is escaped to its end. -/
theorem escapeFrom_all {dstSz d : Nat} {src : Text} (hzero : ZeroFree src)
    (hroom : d + 6 * src.length < dstSz) : escapeFrom dstSz d src = src.flatMap escapePiece := by
  induction src generalizing d with
  | nil => rfl
  | cons c rest ih =>
      have hpiece := escapePiece_length c
      rw [List.length_cons] at hroom
      have hgo : ¬ (c = 0 ∨ dstSz ≤ d + 6) := by
        intro hstop
        rcases hstop with hnul | hfull
        · exact hzero c List.mem_cons_self hnul
        · omega
      unfold escapeFrom
      rw [if_neg hgo, ih (fun b hb => hzero b (List.mem_cons_of_mem c hb)) (by omega),
        List.flatMap_cons]

theorem hexValue_hexDigit {n : Nat} (h : n < 16) : hexValue (hexDigit n) = some n := by
  revert n
  decide

theorem unicodeEscape_parsed (c : UInt8) (rest : Text) :
    jsonParseText (unicodeEscape c ++ rest) = (jsonParseText rest).map (c :: ·) := by
  have hlow : c.toNat % 16 < 16 := Nat.mod_lt _ (by decide)
  have hhigh : c.toNat / 16 < 16 := Nat.div_lt_of_lt_mul c.toNat_lt
  have hvalue : UInt8.ofNat (16 * (c.toNat / 16) + c.toNat % 16) = c := by
    rw [Nat.div_add_mod, UInt8.ofNat_toNat]
  change jsonParseText (92 :: 117 :: 48 :: 48 :: hexDigit (c.toNat / 16) ::
    hexDigit (c.toNat % 16) :: rest) = _
  rw [jsonParseText]
  simp only [hexValue_hexDigit hlow, hexValue_hexDigit hhigh, hvalue]
  rfl

theorem jsonParseText_escaped {e c : UInt8} (hne : e ≠ 117) (he : escapedChar e = some c)
    (rest : Text) :
    jsonParseText (backslash :: e :: rest) = (jsonParseText rest).map (c :: ·) := by
  rw [jsonParseText, if_neg (by decide), if_pos rfl]
  · simp only [he]
  · intro high low rest' h
    exact absurd h hne

theorem jsonParseText_plain {c : UInt8} (hmark : ¬ (c = quote ∨ c = backslash)) (hlow : ¬ c < 32)
    (rest : Text) : jsonParseText (c :: rest) = (jsonParseText rest).map (c :: ·) := by
  conv_lhs => unfold jsonParseText
  rw [if_neg (fun h => h.elim (fun hq => hmark (Or.inl hq)) hlow),
    if_neg (fun h => hmark (Or.inr h))]

theorem jsonParseText_mark {c : UInt8} (h : c = quote ∨ c = backslash) (rest : Text) :
    jsonParseText (backslash :: c :: rest) = (jsonParseText rest).map (c :: ·) := by
  apply jsonParseText_escaped
  · rcases h with rfl | rfl <;> decide
  · unfold escapedChar
    rw [if_pos (h.elim Or.inl (fun hb => Or.inr (Or.inl hb)))]

theorem escapePiece_parsed (c : UInt8) (rest : Text) :
    jsonParseText (escapePiece c ++ rest) = (jsonParseText rest).map (c :: ·) := by
  unfold escapePiece
  split
  · rename_i h
    exact jsonParseText_mark h rest
  · rename_i hplain
    split
    · rename_i h
      subst h
      exact jsonParseText_escaped (e := 110) (by decide) rfl rest
    · split
      · rename_i h
        subst h
        exact jsonParseText_escaped (e := 114) (by decide) rfl rest
      · split
        · rename_i h
          subst h
          exact jsonParseText_escaped (e := 116) (by decide) rfl rest
        · split
          · exact unicodeEscape_parsed c rest
          · rename_i hlow
            exact jsonParseText_plain hplain hlow rest

theorem escaped_parsed (src : Text) : jsonParseText (src.flatMap escapePiece) = some src := by
  induction src with
  | nil => rw [List.flatMap_nil, jsonParseText]
  | cons c rest ih => rw [List.flatMap_cons, escapePiece_parsed, ih, Option.map_some]

theorem zeroFree_cursorText (e : SmbDirEntry) : ZeroFree (cursorText e) := by
  intro b hb
  rcases List.mem_append.mp (List.mem_of_mem_take hb) with hkind | hname
  · have hall : ZeroFree (ascii (if e.isDir then "D:" else "F:")) := by
      cases e.isDir <;> exact zeroFree_of_all rfl
    exact hall b hkind
  · exact e.zeroFree b hname

/-- The browser gets the cursor that the server wrote. -/
theorem nextCursor_eq (e : SmbDirEntry) : nextCursor e = some (cursorText e) := by
  have hlen : (cursorText e).length ≤ 259 := List.length_take_le _ _
  unfold nextCursor jsonStrEsc
  rw [escapeFrom_all (zeroFree_cursorText e) (by omega), escaped_parsed]

/-!
# The cursor in a request
-/

def Plain (text : Text) : Prop :=
  forall b, b ∈ text -> 32 ≤ b

theorem plain_of_all {text : Text} (h : text.all (fun b => decide (32 ≤ b)) = true) : Plain text :=
  fun b hb => of_decide_eq_true (List.all_eq_true.mp h b hb)

def AfterKeyFirst (form : BrowseForm) : Prop :=
  strstr (quoted "after") (bodyFront form ++ quoted "after") = some (quoted "after")

theorem stringifyPiece_plain {c : UInt8} (h : 32 ≤ c) :
    stringifyPiece c = if c = quote ∨ c = backslash then [backslash, c] else [c] := by
  have hne : forall b : UInt8, b < 32 -> c ≠ b := by
    intro b hb heq
    subst heq
    exact absurd h (UInt8.not_le.mpr hb)
  unfold stringifyPiece
  rw [if_neg (hne 8 (by decide)), if_neg (hne 9 (by decide)), if_neg (hne 10 (by decide)),
    if_neg (hne 12 (by decide)), if_neg (hne 13 (by decide)), if_neg (UInt8.not_lt.mpr h)]

theorem plain_ne_zero {c : UInt8} (h : 32 ≤ c) : (c == 0) = false := by
  apply beq_false_of_ne
  rintro rfl
  exact absurd h (by decide)

theorem quotedField_piece {c : UInt8} (h : 32 ≤ c) (room : Nat) (behind : Text) :
    quotedField (room + 1) (stringifyPiece c ++ behind) = c :: quotedField room behind := by
  rw [stringifyPiece_plain h]
  by_cases hmark : c = quote ∨ c = backslash
  · rw [if_pos hmark]
    change (if c == 0 then [backslash] else c :: quotedField room behind) = _
    rw [plain_ne_zero h, if_neg Bool.false_ne_true]
  · rw [if_neg hmark, List.singleton_append]
    conv_lhs => unfold quotedField
    rw [plain_ne_zero h, beq_false_of_ne (fun hq => hmark (Or.inl hq)),
      beq_false_of_ne (fun hb => hmark (Or.inr hb)), Bool.or_false, if_neg Bool.false_ne_true,
      if_neg Bool.false_ne_true]

theorem quotedField_stringified {text : Text} (h : Plain text) {room : Nat}
    (hroom : text.length ≤ room) (behind : Text) :
    quotedField room (text.flatMap stringifyPiece ++ quote :: behind) = text := by
  induction text generalizing room with
  | nil =>
      cases room with
      | zero => rfl
      | succ room => rfl
  | cons c rest ih =>
      have hc := h c List.mem_cons_self
      cases room with
      | zero => exact absurd hroom (by simp)
      | succ room =>
          rw [List.flatMap_cons, List.append_assoc, quotedField_piece (h c List.mem_cons_self),
            ih (fun b hb => h b (List.mem_cons_of_mem c hb)) (Nat.le_of_succ_le_succ hroom)]

theorem arrivedCursor_plain {form : BrowseForm} (hfront : AfterKeyFirst form) {after : Text}
    (hplain : Plain after) (hlen : after.length ≤ 259) : arrivedCursor form after = after := by
  have hkey : strstr (quoted "after") (browseBody form after) =
      some (quoted "after" ++ (ascii ":" ++ (jsonStringify after ++ ascii "\x7d"))) := by
    unfold browseBody
    rw [<- List.append_assoc]
    exact strstr_append hfront _
  unfold arrivedCursor bodyField extractJsonStringValue
  rw [hkey]
  dsimp only
  rw [List.drop_left]
  change quotedField 259 ((after.flatMap stringifyPiece ++ [quote]) ++ ascii "\x7d") = after
  rw [List.append_assoc]
  exact quotedField_stringified hplain hlen _

theorem cursorText_short {e : SmbDirEntry} (h : e.name.length < 256) :
    cursorText e = ascii (if e.isDir then "D:" else "F:") ++ e.name := by
  apply List.take_of_length_le
  rw [List.length_append]
  have hkind : (ascii (if e.isDir then "D:" else "F:")).length = 2 := by
    cases e.isDir <;> rfl
  omega

theorem readCursor_kind {kind : UInt8} (hkind : kind = 68 ∨ kind = 70) {name : Text}
    (hzero : ZeroFree name) (hlen : name.length < 256) :
    exists c, readCursor (kind :: 58 :: name) = some (some c) ∧ c.isDir = decide (kind = 68) ∧
      c.name = name := by
  have hname := cString_of_zeroFree hzero
  unfold readCursor
  dsimp only
  rw [if_pos ⟨hkind, rfl, by rw [hname]; exact hlen⟩]
  exact ⟨_, rfl, rfl, hname⟩

theorem readCursor_cursorText {e : SmbDirEntry} (h : e.name.length < 256) :
    exists c, readCursor (cursorText e) = some (some c) ∧ c.isDir = e.isDir ∧ c.name = e.name := by
  rw [cursorText_short h]
  cases e.isDir with
  | true => exact readCursor_kind (Or.inl rfl) e.zeroFree h
  | false => exact readCursor_kind (Or.inr rfl) e.zeroFree h

theorem plain_cursorText {e : SmbDirEntry} (h : Plain e.name) : Plain (cursorText e) := by
  intro b hb
  rcases List.mem_append.mp (List.mem_of_mem_take hb) with hkind | hname
  · have hall : Plain (ascii (if e.isDir then "D:" else "F:")) := by
      cases e.isDir <;> exact plain_of_all rfl
    exact hall b hkind
  · exact h b hname

end Smb
end PkgManager
