import PkgManager.Http.Index

/-!
# Escaped names

The writer escapes characters of a name, the reader goes over the bytes of the document.  A
character is written as itself, behind a backslash, or by its number.
-/

namespace PkgManager
namespace Http

open CString
open PkgManager.Parser

/-!
# Characters as bytes
-/

theorem utf8_append (a b : List Char) : utf8 (a ++ b) = utf8 a ++ utf8 b :=
  List.flatMap_append

theorem utf8_cons (c : Char) (rest : List Char) :
    utf8 (c :: rest) = String.utf8EncodeChar c ++ utf8 rest :=
  List.flatMap_cons

theorem utf8EncodeChar_low {c : Char} (h : c.toNat < 128) :
    String.utf8EncodeChar c = [UInt8.ofNat c.toNat] := by
  have hle : c.val.toNat ≤ 127 := Nat.le_of_lt_succ h
  unfold String.utf8EncodeChar
  dsimp only
  rw [if_pos hle]
  rfl

theorem utf8EncodeChar_high {c : Char} (h : 128 ≤ c.toNat) {b : UInt8}
    (hb : b ∈ String.utf8EncodeChar c) : 128 ≤ b.toNat := by
  have hbyte : forall n : Nat, 128 ≤ n -> n < 256 -> 128 ≤ (UInt8.ofNat n).toNat := by
    intro n hlow hhigh
    rw [UInt8.toNat_ofNat']
    omega
  have hgt : ¬ c.val.toNat ≤ 127 := Nat.not_le.mpr h
  unfold String.utf8EncodeChar at hb
  dsimp only at hb
  rw [if_neg hgt] at hb
  split_ifs at hb
  · simp only [List.mem_cons, List.not_mem_nil, or_false] at hb
    rcases hb with rfl | rfl <;> exact hbyte _ (by omega) (by omega)
  · simp only [List.mem_cons, List.not_mem_nil, or_false] at hb
    rcases hb with rfl | rfl | rfl <;> exact hbyte _ (by omega) (by omega)
  · simp only [List.mem_cons, List.not_mem_nil, or_false] at hb
    rcases hb with rfl | rfl | rfl | rfl <;> exact hbyte _ (by omega) (by omega)

/-- A byte of ASCII in a name is a character of the name. -/
theorem utf8EncodeChar_byte {c : Char} {b : UInt8} (hb : b ∈ String.utf8EncodeChar c)
    (hlow : b.toNat < 128) : c.toNat = b.toNat ∧ String.utf8EncodeChar c = [b] := by
  rcases Nat.lt_or_ge c.toNat 128 with hc | hc
  · rw [utf8EncodeChar_low hc] at hb ⊢
    have heq := List.mem_singleton.mp hb
    subst heq
    constructor
    · rw [UInt8.toNat_ofNat']
      omega
    · rfl
  · exact absurd (utf8EncodeChar_high hc hb) (Nat.not_le.mpr hlow)

theorem mem_utf8_low {text : List Char} {b : UInt8} (hb : b ∈ utf8 text) (hlow : b.toNat < 128) :
    Char.ofNat b.toNat ∈ text := by
  rcases List.mem_flatMap.mp hb with ⟨c, hc, hbyte⟩
  have hnum := (utf8EncodeChar_byte hbyte hlow).1
  rw [<- hnum, Char.ofNat_toNat]
  exact hc

theorem zeroFree_utf8 {text : List Char} (h : Char.ofNat 0 ∉ text) : ZeroFree (utf8 text) := by
  intro b hb hnul
  subst hnul
  exact h (mem_utf8_low hb (by decide))

/-!
# How a character is written
-/

/-- The bytes of an escaped character. -/
def escapedBytes (c : Char) : Text :=
  utf8 (jsonEscapeChar c)

/-- A byte that stands for itself in a string. -/
def isBare (b : UInt8) : Bool :=
  b != 0 && b != quote && b != backslash

def lowerHex (n : Nat) : UInt8 :=
  UInt8.ofNat (lowerHexChar n).toNat

inductive Escaped (c : Char) : Text -> Prop where
  | bare (h : (String.utf8EncodeChar c).all isBare = true) : Escaped c (String.utf8EncodeChar c)
  | letter (e : UInt8) (hzero : e ≠ 0) (hletter : e ≠ 117)
      (h : String.utf8EncodeChar c = [escapedByte e]) : Escaped c [backslash, e]
  | number (h : c.toNat < 32) :
      Escaped c [backslash, 117, 48, 48, lowerHex (c.toNat / 16), lowerHex (c.toNat % 16)]

theorem utf8EncodeChar_of {c : Char} {n : Nat} (hn : n < 128) (h : c.toNat = n) :
    String.utf8EncodeChar c = [UInt8.ofNat n] := by
  rw [utf8EncodeChar_low (h ▸ hn), h]

theorem toNat_ne {c d : Char} (h : c ≠ d) : c.toNat ≠ d.toNat :=
  fun heq => h (Char.toNat_inj.mp heq)

theorem escaped_bare {c : Char} (hquote : c ≠ '"') (hslash : c ≠ '\\') (hlow : ¬ c.toNat < 32) :
    (String.utf8EncodeChar c).all isBare = true := by
  rw [List.all_eq_true]
  intro b hb
  have hne : forall d : UInt8, d.toNat < 128 -> c.toNat ≠ d.toNat -> b ≠ d := by
    rintro d hd hcd rfl
    exact hcd (utf8EncodeChar_byte hb hd).1
  simp only [isBare, Bool.and_eq_true, bne_iff_ne]
  exact ⟨⟨hne 0 (by decide) (fun h => hlow (h ▸ by decide)), hne quote (by decide) (toNat_ne hquote)⟩,
    hne backslash (by decide) (toNat_ne hslash)⟩

/-- The cases are those of the table of the writer. -/
theorem escapedBytes_cases (c : Char) : Escaped c (escapedBytes c) := by
  unfold escapedBytes jsonEscapeChar
  split_ifs with h1 h2 h3 h4 h5 h6 h7 h8
  · exact .letter 34 (by decide) (by decide) (h1 ▸ rfl)
  · exact .letter 92 (by decide) (by decide) (h2 ▸ rfl)
  · exact .letter 110 (by decide) (by decide) (utf8EncodeChar_of (by decide) h3)
  · exact .letter 114 (by decide) (by decide) (utf8EncodeChar_of (by decide) h4)
  · exact .letter 116 (by decide) (by decide) (utf8EncodeChar_of (by decide) h5)
  · exact .letter 102 (by decide) (by decide) (utf8EncodeChar_of (by decide) h6)
  · exact .letter 98 (by decide) (by decide) (utf8EncodeChar_of (by decide) h7)
  · have hhex : forall n, n < 16 -> String.utf8EncodeChar (lowerHexChar n) = [lowerHex n] := by decide
    have hbytes : utf8 ['\\', 'u', '0', '0', lowerHexChar (c.toNat / 16), lowerHexChar (c.toNat % 16)] =
        [backslash, 117, 48, 48, lowerHex (c.toNat / 16), lowerHex (c.toNat % 16)] := by
      change [backslash, 117, 48, 48] ++ utf8 [lowerHexChar (c.toNat / 16),
        lowerHexChar (c.toNat % 16)] = _
      rw [utf8_cons, utf8_cons, hhex _ (by omega), hhex _ (Nat.mod_lt _ (by decide))]
      rfl
    rw [hbytes]
    exact .number h8
  · have hone : utf8 [c] = String.utf8EncodeChar c := by
      rw [utf8_cons]
      exact List.append_nil _
    rw [hone]
    exact .bare (escaped_bare h1 h2 h8)

theorem utf8_escaped (text : List Char) :
    utf8 (text.flatMap jsonEscapeChar) = text.flatMap escapedBytes := by
  induction text with
  | nil => rfl
  | cons c rest ih => rw [List.flatMap_cons, utf8_append, ih, List.flatMap_cons, escapedBytes]

/-!
# The reader over an escaped name
-/

/-- The reader takes this piece for these bytes, as far as there is room. -/
def ReadsAs (piece bytes : Text) : Prop :=
  forall outSz o rest, jsonStringFrom outSz o (piece ++ rest) =
    (bytes.take (outSz - 1 - o) ++
        (jsonStringFrom outSz (o + (bytes.take (outSz - 1 - o)).length) rest).1,
      (jsonStringFrom outSz (o + (bytes.take (outSz - 1 - o)).length) rest).2)

theorem ReadsAs.nil : ReadsAs [] [] := by
  intro outSz o rest
  simp

theorem ReadsAs.append {a b x y : Text} (ha : ReadsAs a x) (hb : ReadsAs b y) :
    ReadsAs (a ++ b) (x ++ y) := by
  intro outSz o rest
  have htake : (x ++ y).take (outSz - 1 - o) = x.take (outSz - 1 - o) ++
      y.take (outSz - 1 - (o + (x.take (outSz - 1 - o)).length)) := by
    rw [List.take_append, List.length_take]
    congr 2
    omega
  rw [List.append_assoc, ha, hb, htake, List.length_append, List.append_assoc, Nat.add_assoc]

theorem put_one (outSz o : Nat) (b : UInt8) : put outSz o 1 [b] = [b].take (outSz - 1 - o) := by
  unfold put
  split
  · have hroom : outSz - 1 - o ≠ 0 := by omega
    rcases Nat.exists_eq_succ_of_ne_zero hroom with ⟨n, hn⟩
    rw [hn, List.take_succ_cons, List.take_nil]
  · have hfull : outSz - 1 - o = 0 := by omega
    rw [hfull]
    rfl

/-- One turn of the loop, for a piece that writes one byte. -/
theorem ReadsAs.one {b d : UInt8} {more : Text} (hb : b ≠ 0 ∧ b ≠ quote)
    (h : forall outSz o rest, jsonPiece outSz o b (more ++ rest) = (put outSz o 1 [d], rest)) :
    ReadsAs (b :: more) [d] := by
  intro outSz o rest
  rw [List.cons_append, jsonStringFrom, if_neg hb.1, if_neg hb.2]
  simp only [h, put_one]

theorem Escaped.readsAs {c : Char} {piece : Text} (h : Escaped c piece) :
    ReadsAs piece (String.utf8EncodeChar c) := by
  cases h with
  | bare hbare =>
      have hall : forall text : Text, text.all isBare = true -> ReadsAs text text := by
        intro text
        induction text with
        | nil => exact fun _ => ReadsAs.nil
        | cons b rest ih =>
            intro htext
            rw [List.all_cons, Bool.and_eq_true] at htext
            have hb := htext.1
            simp only [isBare, Bool.and_eq_true, bne_iff_ne] at hb
            have hone : ReadsAs [b] [b] := by
              apply ReadsAs.one ⟨hb.1.1, hb.1.2⟩
              intro outSz o rest
              unfold jsonPiece
              rw [List.nil_append, if_neg hb.2]
            exact hone.append (ih htext.2)
      exact hall _ hbare
  | letter e hzero hletter hbytes =>
      rw [hbytes]
      apply ReadsAs.one (by decide)
      intro outSz o rest
      rw [List.singleton_append, jsonPiece, if_pos rfl, if_neg hletter]
  | number hlow =>
      rw [utf8EncodeChar_low (hlow.trans (by decide))]
      apply ReadsAs.one (by decide)
      intro outSz o rest
      have hvalue : forall n, n < 32 ->
          unicodeValue [48, 48, lowerHex (n / 16), lowerHex (n % 16)] = n := by decide
      have hsmall : c.toNat < 128 := hlow.trans (by decide)
      change jsonPiece outSz o backslash (117 :: 48 :: 48 :: lowerHex (c.toNat / 16) ::
        lowerHex (c.toNat % 16) :: rest) = _
      rw [jsonPiece, if_pos rfl, if_pos rfl]
      change (unicodeBytes outSz o (unicodeValue [48, 48, lowerHex (c.toNat / 16),
        lowerHex (c.toNat % 16)]), rest) = _
      rw [hvalue _ hlow, unicodeBytes, if_pos hsmall]

theorem readsAs_escaped (text : List Char) : ReadsAs (text.flatMap escapedBytes) (utf8 text) := by
  induction text with
  | nil => exact ReadsAs.nil
  | cons c rest ih =>
      rw [List.flatMap_cons, utf8_cons]
      exact (escapedBytes_cases c).readsAs.append ih

/-- A string of the writer is read up to its closing quote. -/
theorem jsonParseString_written {text : List Char} (h : Char.ofNat 0 ∉ text) (outSz : Nat)
    (out rest : Text) :
    jsonParseString outSz out (jsonString text ++ rest) =
      ((utf8 text).take (outSz - 1), some rest) := by
  have hclose : forall o, jsonStringFrom outSz o (quote :: rest) = ([], some rest) := by
    intro o
    rw [jsonStringFrom, if_neg (by decide), if_pos rfl]
  have hread : jsonStringFrom outSz 0 (text.flatMap escapedBytes ++ quote :: rest) =
      ((utf8 text).take (outSz - 1), some rest) := by
    rw [readsAs_escaped, hclose]
    simp
  have hzero : ZeroFree ((utf8 text).take (outSz - 1)) :=
    fun b hb => zeroFree_utf8 h b (List.mem_of_mem_take hb)
  have hstart : jsonString text ++ rest = quote :: (text.flatMap escapedBytes ++ quote :: rest) := by
    rw [jsonString, utf8_escaped]
    simp
  rw [hstart]
  change (cString (jsonStringFrom outSz 0 _).1, (jsonStringFrom outSz 0 _).2) = _
  rw [hread, cString_of_zeroFree hzero]

/-!
# The searches over an escaped name
-/

theorem number_bare {n : Nat} (h : n < 32) :
    [48, 48, lowerHex (n / 16), lowerHex (n % 16)].all isBare = true := by
  revert n
  decide

theorem Inside.bare {opener closer : UInt8} {text : Text} (h : text.all isBare = true) :
    Inside opener closer text := by
  induction text with
  | nil =>
      intro depth rest
      simp
  | cons b rest ih =>
      rw [List.all_cons, Bool.and_eq_true] at h
      have hb := h.1
      simp only [isBare, Bool.and_eq_true, bne_iff_ne] at hb
      exact (Inside.byte hb.1.1 (fun hm => hm.elim hb.1.2 hb.2)).append (ih h.2)

theorem Escaped.inside {c : Char} {piece : Text} (h : Escaped c piece) (opener closer : UInt8) :
    Inside opener closer piece := by
  cases h with
  | bare hbare => exact Inside.bare hbare
  | letter e hzero => exact Inside.escaped hzero
  | number hlow => exact (Inside.escaped (e := 117) (by decide)).append (Inside.bare (number_bare hlow))

theorem inside_escaped (text : List Char) (opener closer : UInt8) :
    Inside opener closer (text.flatMap escapedBytes) := by
  induction text with
  | nil => exact Inside.bare rfl
  | cons c rest ih =>
      rw [List.flatMap_cons]
      exact ((escapedBytes_cases c).inside opener closer).append ih

theorem neutral_string (text : List Char) (opener closer : UInt8) :
    Neutral opener closer (jsonString text) := by
  rw [jsonString, utf8_escaped]
  exact Neutral.string (inside_escaped text opener closer)

theorem QuotesEscaped.noQuote {text : Text} (h : quote ∉ text) : QuotesEscaped text := by
  rintro a b rfl
  exact absurd (List.mem_append_right a List.mem_cons_self) h

theorem quote_not_bare {text : Text} (h : text.all isBare = true) : quote ∉ text :=
  fun hmem => absurd (List.all_eq_true.mp h quote hmem) (by decide)

/-- The second text does not start with a quote of its own. -/
theorem QuotesEscaped.append {a b : Text} (ha : QuotesEscaped a) (hb : QuotesEscaped b) :
    QuotesEscaped (a ++ b) := by
  intro x y hsplit
  rcases List.append_eq_append_iff.mp hsplit with ⟨middle, hx, hmiddle⟩ | ⟨middle, hmiddle, hrest⟩
  · have hquote := hb _ _ hmiddle
    rw [hx, List.getLast?_append, hquote, Option.some_or]
  · cases middle with
    | nil =>
        have hquote := hb [] y hrest.symm
        cases hquote
    | cons c middle =>
        have hc : quote = c := (List.cons.inj hrest).1
        subst hc
        exact ha x middle hmiddle

theorem Escaped.quotesEscaped {c : Char} {piece : Text} (h : Escaped c piece) :
    QuotesEscaped piece := by
  cases h with
  | bare hbare => exact QuotesEscaped.noQuote (quote_not_bare hbare)
  | letter e hzero hletter hbytes =>
      intro a b hsplit
      cases a with
      | nil => exact absurd (List.cons.inj hsplit).1 (by decide)
      | cons x a =>
          rcases List.cons.inj hsplit with ⟨rfl, hrest⟩
          cases a with
          | nil => rfl
          | cons y a => exact absurd (List.cons.inj hrest).2 (by simp)
  | number hlow =>
      have hmark : QuotesEscaped [backslash, 117] := QuotesEscaped.noQuote (by decide)
      exact hmark.append (QuotesEscaped.noQuote (quote_not_bare (number_bare hlow)))

theorem quotesEscaped_escaped (text : List Char) : QuotesEscaped (text.flatMap escapedBytes) := by
  induction text with
  | nil => exact QuotesEscaped.noQuote List.not_mem_nil
  | cons c rest ih =>
      rw [List.flatMap_cons]
      exact (escapedBytes_cases c).quotesEscaped.append ih

end Http
end PkgManager
