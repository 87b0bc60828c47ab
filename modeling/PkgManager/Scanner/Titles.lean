import PkgManager.Cache.Document
import PkgManager.Scanner.Catalog

/-!
# Titles in several languages

The parsers leave one object of titles behind, and a title is found in it again by a search
for the mark of its language.  A mark inside of a title would be found as well, but each
quotation mark there has a backslash in front.
-/

namespace PkgManager
namespace Scanner

open CString
open PkgManager.Parser
open PkgManager.Cache (strstr_pass)

/-- The loop that copies a value up to its quotation mark. -/
def valueChars : Nat -> Text -> Text
  | 0, _ => []
  | _ + 1, [] => []
  | room + 1, b :: rest =>
      if b = quote then []
      else if b = backslash then
        match rest with
        | [] => [b]
        | c :: more => c :: valueChars room more
      else b :: valueChars room rest

/-- {lit}`extract_val_for_key` -/
def extractValForKey (json key : Text) (outMax : Nat) : Option Text :=
  let pattern := (quote :: (key ++ [quote, 58, quote])).take 63
  (strstr pattern json).map (fun p => valueChars (outMax - 1) (p.drop pattern.length))

/-- The value of a key, if it is not empty. -/
def titleFor (json key : Text) (outMax : Nat) : Option Text :=
  (extractValForKey json key outMax).filter (fun out => out != [])

/-- The value of the key that begins at a quotation mark. -/
def titleAt (json : Text) (outMax : Nat) (found : Text) : Option Text :=
  let key := found.drop 1
  (strchr quote key).bind (fun endKey =>
    let length := key.length - endKey.length
    if length < 32 then titleFor json (key.take length) outMax else none)

/-- The text up to the first dash, else up to the first underscore. -/
def primaryOf (tag : Text) : Text :=
  match strchr 45 tag with
  | some dash => tag.take (tag.length - dash.length)
  | none =>
      match strchr 95 tag with
      | some dash => tag.take (tag.length - dash.length)
      | none => tag

/-- The two steps for one language of {lit}`match_accept_language`. -/
def titleForTag (json tag : Text) (outMax : Nat) : Option Text :=
  if tag = [] ∨ 32 ≤ tag.length then none
  else
    Option.or (titleFor json tag outMax)
      (let primary := primaryOf tag
        if primary.length < 16 then
          (Option.or (strstr (quote :: (primary ++ [45])) json)
            (strstr (quote :: (primary ++ [quote, 58])) json)).bind (titleAt json outMax)
        else none)

/-- The languages that are asked for, in their order. -/
def acceptTags : Nat -> Text -> List Text
  | 0, _ => []
  | fuel + 1, accept =>
      match accept.dropWhile (fun b => b == 32 || b == 9 || b == 44) with
      | [] => []
      | p =>
          let item := p.takeWhile (fun b => b != 44 && b != 59)
          let behind := (p.drop item.length).dropWhile (fun b => b != 44)
          item.rdropWhile isSpace :: acceptTags fuel (behind.drop 1)

/-- {lit}`match_accept_language` -/
def matchAcceptLanguage (json accept : Text) (outMax : Nat) : Option Text :=
  (acceptTags accept.length accept).findSome? (fun tag => titleForTag json tag outMax)

/-- The key whose primary language is that of the default one. -/
def titleForDefault (json defaultLang : Text) (outMax : Nat) : Option Text :=
  if defaultLang = [] then none
  else
    Option.or (titleFor json defaultLang outMax)
      (let primary := primaryOf defaultLang
        if primary.length < 16 then
          (strstr (quote :: (primary ++ [45])) json).bind (titleAt json outMax)
        else none)

def englishTitle (json : Text) (outMax : Nat) : Option Text :=
  (Option.or (strstr (ascii "\"en-") json) (strstr (ascii "\"en\":") json)).bind
    (titleAt json outMax)

/-- The first value as it is written. -/
def firstTitle (json : Text) (outMax : Nat) : Option Text :=
  (strchr 58 json).bind (fun colon =>
    if (colon.drop 1).head? = some quote then
      let vs := colon.drop 2
      (strchr quote vs).bind (fun ve =>
        if vs.length - ve.length + 1 < outMax then some (vs.take (vs.length - ve.length)) else none)
    else none)

/-- {lit}`pkg_parser_resolve_localized_title`, for an object -/
def resolveLocalizedTitle (json defaultLang accept : Text) (outMax : Nat) : Option Text :=
  Option.or (matchAcceptLanguage json accept outMax)
    (Option.or (titleForDefault json defaultLang outMax)
      (Option.or (englishTitle json outMax) (firstTitle json outMax)))

/-- {lit}`pkg_parser_resolve_sfo_title`, for an object -/
def resolveSfoTitle (json accept defaultTitle : Text) (outMax : Nat) : Option Text :=
  match matchAcceptLanguage json accept titleNameLen with
  | some title => some (title.take (outMax - 1))
  | none =>
      if defaultTitle ≠ [] then some (defaultTitle.take (outMax - 1))
      else (resolveLocalizedTitle json [] [] outMax).filter (fun out => out != [])

/-- {lit}`display_title` -/
def displayTitle (pkg : PkgDetail) (acceptLanguage : Text) : Text :=
  let stored := pkg.titleName.take (titleNameLen - 1)
  if acceptLanguage ≠ [] ∧ pkg.localizedTitles.head? = some 123 then
    if pkg.platform = ascii "ps4" then
      match resolveSfoTitle pkg.localizedTitles acceptLanguage pkg.titleName titleNameLen with
      | some resolved => if resolved ≠ [] then resolved.take (titleNameLen - 1) else stored
      | none => stored
    else
      (resolveLocalizedTitle pkg.localizedTitles pkg.defaultLanguage acceptLanguage
        titleNameLen).getD []
  else stored

/-!
# Marks
-/

def isAlpha (b : UInt8) : Bool :=
  decide (65 ≤ b.toNat ∧ b.toNat ≤ 90) || decide (97 ≤ b.toNat ∧ b.toNat ≤ 122)

/-- Letters, digits, dashes and underscores. -/
def isTagByte (b : UInt8) : Bool :=
  isAlpha b || isDigit b || b == 45 || b == 95

/-- The name of a language. -/
structure IsTag (lang : Text) : Prop where
  nonempty : lang ≠ []
  plain : lang.all isTagByte = true
  short : lang.length < 32

/-- An entry with a title that fits its array. -/
structure Storable (entry : LocalizedTitle) : Prop where
  lang : IsTag entry.lang
  zeroFree : ZeroFree entry.title
  short : entry.title.length < titleNameLen

/-- What {lit}`extract_val_for_key` looks for. -/
def langMark (lang : Text) : Text :=
  quote :: (lang ++ [quote, 58, quote])

/-- What stands behind a title: a comma, the closing brace, or nothing. -/
def EndsTitle (rest : Text) : Prop :=
  forall b, rest.head? = some b -> b = 44 ∨ b = 125

/-!
# Where a mark is not
-/

theorem IsTag.byte_ne {lang : Text} (h : IsTag lang) {b c : UInt8} (hb : b ∈ lang)
    (hc : isTagByte c = false) : b ≠ c := by
  intro heq
  have hplain := List.all_eq_true.mp h.plain b hb
  rw [heq, hc] at hplain
  cases hplain

theorem IsTag.not_mem {lang : Text} (h : IsTag lang) {c : UInt8} (hc : isTagByte c = false) :
    c ∉ lang :=
  fun hmem => h.byte_ne hmem hc rfl

/-- The texts in front of the first separator are the same. -/
theorem prefix_at_separator {c : UInt8} {a b s t : Text} (ha : c ∉ a) (hb : c ∉ b)
    (h : a ++ c :: s <+: b ++ c :: t) : a = b ∧ s <+: t := by
  induction a generalizing b with
  | nil =>
      cases b with
      | nil => exact ⟨rfl, (List.cons_prefix_cons.mp h).2⟩
      | cons y b =>
          have hsame : c = y := (List.cons_prefix_cons.mp h).1
          exact absurd (hsame ▸ List.mem_cons_self) hb
  | cons x a ih =>
      cases b with
      | nil =>
          have hsame : x = c := (List.cons_prefix_cons.mp h).1
          exact absurd (hsame ▸ List.mem_cons_self) ha
      | cons y b =>
          rcases List.cons_prefix_cons.mp h with ⟨hsame, hmore⟩
          have hrest := ih (fun hmem => ha (List.mem_cons_of_mem x hmem))
            (fun hmem => hb (List.mem_cons_of_mem y hmem)) hmore
          exact ⟨by rw [hsame, hrest.1], hrest.2⟩

theorem langMark_at {lang a rest : Text} (hlang : IsTag lang) (ha : quote ∉ a)
    (h : langMark lang <+: quote :: (a ++ quote :: rest)) : lang = a ∧ [58, quote] <+: rest :=
  prefix_at_separator (hlang.not_mem (by decide)) ha (List.cons_prefix_cons.mp h).2

theorem langMark_miss {lang : Text} {b : UInt8} (hb : b ≠ quote) (rest : Text) :
    ¬ langMark lang <+: b :: rest :=
  fun h => hb (List.cons_prefix_cons.mp h).1.symm

/-- No name begins with the byte behind the quotation mark. -/
theorem langMark_miss_next {lang rest : Text} (hlang : IsTag lang)
    (hrest : forall c, rest.head? = some c -> isTagByte c = false) :
    ¬ langMark lang <+: quote :: rest := by
  intro h
  rcases List.exists_cons_of_ne_nil hlang.nonempty with ⟨x, more, rfl⟩
  have hmore := (List.cons_prefix_cons.mp h).2
  cases rest with
  | nil => exact absurd (List.prefix_nil.mp hmore) (List.cons_ne_nil _ _)
  | cons c rest =>
      have hsame : x = c := (List.cons_prefix_cons.mp hmore).1
      exact hlang.byte_ne List.mem_cons_self (hrest c rfl) hsame

theorem EndsTitle.not_tag {rest : Text} (h : EndsTitle rest) {c : UInt8}
    (hc : rest.head? = some c) : isTagByte c = false := by
  rcases h c hc with rfl | rfl <;> decide

/-- The first quotation mark in an escaped title has a backslash in front. -/
theorem escapeFrom_split (eidx : Nat) (title : Text) :
    quote ∉ escapeFrom eidx title ∨
      exists a b, escapeFrom eidx title = a ++ backslash :: quote :: b ∧ quote ∉ a := by
  induction title generalizing eidx with
  | nil => exact Or.inl List.not_mem_nil
  | cons b rest ih =>
      rw [escapeFrom]
      by_cases hroom : eidx + 2 < 2 * titleNameLen
      · rw [if_pos hroom]
        by_cases hmark : b = quote ∨ b = backslash
        · rw [if_pos hmark]
          by_cases hquote : b = quote
          · right
            exact ⟨[], _, by rw [hquote]; rfl, List.not_mem_nil⟩
          · have hback : b = backslash := hmark.resolve_left hquote
            subst hback
            rcases ih (eidx + 2) with hnone | ⟨a, c, heq, ha⟩
            · left
              simpa using ⟨by decide, hnone⟩
            · right
              refine ⟨backslash :: backslash :: a, c, by rw [heq]; rfl, ?_⟩
              simpa using ⟨by decide, ha⟩
        · rw [if_neg hmark]
          have hb : ¬ quote = b := fun heq => hmark (Or.inl heq.symm)
          rcases ih (eidx + 1) with hnone | ⟨a, c, heq, ha⟩
          · left
            simpa using ⟨hb, hnone⟩
          · right
            refine ⟨b :: a, c, by rw [heq]; rfl, ?_⟩
            simpa using ⟨hb, ha⟩
      · rw [if_neg hroom]
        exact Or.inl List.not_mem_nil

/-- No mark begins at a quotation mark in front of an escaped title or inside of one. -/
theorem langMark_miss_title {lang rest : Text} (hlang : IsTag lang) (hrest : EndsTitle rest)
    (eidx : Nat) (title : Text) :
    ¬ langMark lang <+: quote :: (escapeFrom eidx title ++ quote :: rest) := by
  intro h
  rcases escapeFrom_split eidx title with hnone | ⟨a, b, heq, ha⟩
  · have hcolon := (langMark_at hlang hnone h).2
    cases rest with
    | nil => exact absurd (List.prefix_nil.mp hcolon) (List.cons_ne_nil _ _)
    | cons c rest =>
        have hsame : 58 = c := (List.cons_prefix_cons.mp hcolon).1
        rcases hrest c rfl with hc | hc
        · exact absurd (hsame.trans hc) (by decide)
        · exact absurd (hsame.trans hc) (by decide)
  · have hform : escapeFrom eidx title ++ quote :: rest =
        (a ++ [backslash]) ++ quote :: (b ++ quote :: rest) := by
      rw [heq]
      simp
    rw [hform] at h
    have hquote : quote ∉ a ++ [backslash] := by
      simpa using ⟨ha, (by decide : ¬ quote = backslash)⟩
    have hname := (langMark_at hlang hquote h).1
    refine hlang.not_mem (c := backslash) (by decide) ?_
    rw [hname]
    exact List.mem_append_right a List.mem_cons_self

/-!
# Passing over a piece
-/

theorem strstr_passes {lang a : Text} (ha : forall b, b ∈ a -> b ≠ quote ∧ b ≠ 0) (rest : Text) :
    strstr (langMark lang) (a ++ rest) = strstr (langMark lang) rest := by
  induction a with
  | nil => rfl
  | cons b a ih =>
      have hb := ha b List.mem_cons_self
      rw [List.cons_append, strstr_pass (langMark_miss hb.1 _) hb.2]
      exact ih (fun c hc => ha c (List.mem_cons_of_mem b hc))

theorem strstr_title {lang rest : Text} (hlang : IsTag lang) (hrest : EndsTitle rest)
    (eidx : Nat) {title : Text} (hzero : ZeroFree title) :
    strstr (langMark lang) (escapeFrom eidx title ++ quote :: rest) =
      strstr (langMark lang) rest := by
  have hclose : strstr (langMark lang) (quote :: rest) = strstr (langMark lang) rest :=
    strstr_pass (langMark_miss_next hlang (fun _ hc => hrest.not_tag hc)) (by decide)
  induction title generalizing eidx with
  | nil => exact hclose
  | cons b title ih =>
      have hb : b ≠ 0 := hzero b List.mem_cons_self
      have hmore : ZeroFree title := fun c hc => hzero c (List.mem_cons_of_mem b hc)
      rw [escapeFrom]
      by_cases hroom : eidx + 2 < 2 * titleNameLen
      · rw [if_pos hroom]
        by_cases hmark : b = quote ∨ b = backslash
        · rw [if_pos hmark, List.cons_append, List.cons_append,
            strstr_pass (langMark_miss (by decide) _) (by decide)]
          by_cases hquote : b = quote
          · subst hquote
            rw [strstr_pass (langMark_miss_title hlang hrest (eidx + 2) title) hb]
            exact ih (eidx + 2) hmore
          · rw [strstr_pass (langMark_miss hquote _) hb]
            exact ih (eidx + 2) hmore
        · rw [if_neg hmark, List.cons_append,
            strstr_pass (langMark_miss (fun heq => hmark (Or.inl heq)) _) hb]
          exact ih (eidx + 1) hmore
      · rw [if_neg hroom]
        exact hclose

theorem titlePiece_append (first : Bool) (entry : LocalizedTitle) (rest : Text) :
    titlePiece first entry ++ rest = (if first then [] else [44]) ++
      quote :: (entry.lang ++ quote :: (58 :: quote ::
        (escapedTitle entry.title ++ quote :: rest))) := by
  have hmarks : ascii "\":\"" = [quote, 58, quote] := by decide
  have hcomma : ascii "," = [44] := by decide
  unfold titlePiece
  rw [hmarks, hcomma]
  cases first with
  | true => simp
  | false => simp

theorem strstr_comma {lang : Text} (first : Bool) (rest : Text) :
    strstr (langMark lang) ((if first then [] else [44]) ++ rest) =
      strstr (langMark lang) rest := by
  cases first with
  | true => rfl
  | false => exact strstr_pass (langMark_miss (by decide) rest) (by decide)

/-- The title of another language is passed over. -/
theorem strstr_piece_other {lang rest : Text} {entry : LocalizedTitle} (h : Storable entry)
    (hlang : IsTag lang) (hother : entry.lang ≠ lang) (hrest : EndsTitle rest) (first : Bool) :
    strstr (langMark lang) (titlePiece first entry ++ rest) = strstr (langMark lang) rest := by
  have hname : forall b, b ∈ entry.lang -> b ≠ quote ∧ b ≠ 0 :=
    fun b hb => ⟨h.lang.byte_ne hb (by decide), h.lang.byte_ne hb (by decide)⟩
  have hopen : ¬ langMark lang <+: quote :: (entry.lang ++ quote :: (58 :: quote ::
      (escapedTitle entry.title ++ quote :: rest))) :=
    fun hmark => hother (langMark_at hlang (h.lang.not_mem (by decide)) hmark).1.symm
  have hcolon : ¬ langMark lang <+: quote :: (58 :: quote ::
      (escapedTitle entry.title ++ quote :: rest)) := by
    refine langMark_miss_next hlang (fun c hc => ?_)
    cases hc
    decide
  have htitle : strstr (langMark lang) (quote :: (escapedTitle entry.title ++ quote :: rest)) =
      strstr (langMark lang) (escapedTitle entry.title ++ quote :: rest) :=
    strstr_pass (langMark_miss_title hlang hrest 0 entry.title) (by decide)
  rw [titlePiece_append, strstr_comma, strstr_pass hopen (by decide), strstr_passes hname,
    strstr_pass hcolon (by decide), strstr_pass (langMark_miss (by decide) _) (by decide), htitle]
  exact strstr_title hlang hrest 0 h.zeroFree

theorem strstr_piece_same {rest : Text} (entry : LocalizedTitle) (first : Bool) :
    strstr (langMark entry.lang) (titlePiece first entry ++ rest) =
      some (langMark entry.lang ++ (escapedTitle entry.title ++ quote :: rest)) := by
  have hform : quote :: (entry.lang ++ quote :: (58 :: quote ::
      (escapedTitle entry.title ++ quote :: rest))) =
      langMark entry.lang ++ (escapedTitle entry.title ++ quote :: rest) := by
    unfold langMark
    simp
  rw [titlePiece_append, strstr_comma, hform]
  have hhere := List.isPrefixOf_iff_prefix.mpr (List.prefix_append (langMark entry.lang)
    (escapedTitle entry.title ++ quote :: rest))
  exact if_pos hhere

/-!
# What is read is what was stored
-/

theorem valueChars_escaped (room : Nat) (b : UInt8) (rest : Text) :
    valueChars (room + 1) (backslash :: b :: rest) = b :: valueChars room rest :=
  rfl

theorem valueChars_plain (room : Nat) {b : UInt8} (hb : ¬ (b = quote ∨ b = backslash))
    (rest : Text) : valueChars (room + 1) (b :: rest) = b :: valueChars room rest := by
  have hb := not_or.mp hb
  conv_lhs => unfold valueChars
  exact (if_neg hb.1).trans (if_neg hb.2)

/-- Escaping is undone up to the closing quotation mark. -/
theorem valueChars_escapeFrom {eidx room : Nat} {title rest : Text}
    (hsize : eidx + 2 * title.length < 2 * titleNameLen) (hroom : title.length ≤ room) :
    valueChars room (escapeFrom eidx title ++ quote :: rest) = title := by
  induction title generalizing eidx room with
  | nil =>
      cases room with
      | zero => rfl
      | succ room => rfl
  | cons b title ih =>
      rw [List.length_cons] at hsize hroom
      cases room with
      | zero => omega
      | succ room =>
          rw [escapeFrom, if_pos (by omega)]
          by_cases hmark : b = quote ∨ b = backslash
          · rw [if_pos hmark, List.cons_append, List.cons_append, valueChars_escaped,
              ih (by omega) (Nat.le_of_succ_le_succ hroom)]
          · rw [if_neg hmark, List.cons_append, valueChars_plain room hmark,
              ih (by omega) (Nat.le_of_succ_le_succ hroom)]

theorem valueChars_stored {entry : LocalizedTitle} (h : Storable entry) (rest : Text) :
    valueChars (titleNameLen - 1) (escapedTitle entry.title ++ quote :: rest) = entry.title :=
  have hshort := h.short
  valueChars_escapeFrom (by omega) (by omega)

/-- The pieces of entries that all have room. -/
def piecesText : Bool -> List LocalizedTitle -> Text
  | _, [] => []
  | first, entry :: rest => titlePiece first entry ++ piecesText false rest

def titleOf (entries : List LocalizedTitle) (lang : Text) : Option Text :=
  (entries.find? (fun entry => entry.lang == lang)).map LocalizedTitle.title

theorem endsTitle_pieces (entries : List LocalizedTitle) {rest : Text} (h : EndsTitle rest) :
    EndsTitle (piecesText false entries ++ rest) := by
  cases entries with
  | nil => exact h
  | cons entry more =>
      intro b hb
      rw [piecesText, List.append_assoc, titlePiece_append] at hb
      cases hb
      exact Or.inl rfl

theorem find_pieces {lang rest : Text} (hlang : IsTag lang) (hrest : EndsTitle rest)
    (hnone : strstr (langMark lang) rest = none) {entries : List LocalizedTitle}
    (h : forall entry, entry ∈ entries -> Storable entry) (first : Bool) :
    (strstr (langMark lang) (piecesText first entries ++ rest)).map
        (fun p => valueChars (titleNameLen - 1) (p.drop (langMark lang).length)) =
      titleOf entries lang := by
  induction entries generalizing first with
  | nil =>
      change (strstr (langMark lang) rest).map _ = none
      rw [hnone]
      rfl
  | cons entry more ih =>
      have hentry := h entry List.mem_cons_self
      unfold titleOf
      rw [piecesText, List.append_assoc, List.find?_cons]
      by_cases hsame : entry.lang = lang
      · subst hsame
        rw [strstr_piece_same, Option.map_some, List.drop_left, valueChars_stored hentry,
          beq_self_eq_true]
        rfl
      · rw [strstr_piece_other hentry hlang hsame (endsTitle_pieces more hrest),
          beq_false_of_ne hsame]
        exact ih (fun e he => h e (List.mem_cons_of_mem entry he)) false

/-- The pieces up to one that has no room. -/
theorem titlePieces_count {locMax : Nat} {entries : List LocalizedTitle} (first : Bool)
    {out : Text} (hout : out.length < locMax) :
    exists count, titlePieces locMax first out entries =
        out ++ piecesText first (entries.take count) ∧
      (entries.length ≤ count ∨
        locMax ≤ (out ++ piecesText first (entries.take (count + 1))).length) := by
  induction entries generalizing first out with
  | nil => exact ⟨0, (List.append_nil out).symm, Or.inl (Nat.le_refl 0)⟩
  | cons entry rest ih =>
      rw [titlePieces]
      by_cases hroom : (titlePiece first entry).length < locMax - out.length
      · rcases @ih false (out ++ titlePiece first entry)
          (by rw [List.length_append]; omega) with ⟨count, htext, hmissing⟩
        rw [if_pos hroom]
        refine ⟨count + 1, ?_, ?_⟩
        · rw [htext, List.append_assoc]
          rfl
        · rw [List.append_assoc] at hmissing
          exact hmissing.imp_left Nat.succ_le_succ
      · rw [if_neg hroom]
        refine ⟨0, (List.append_nil out).symm, Or.inr ?_⟩
        rw [List.take_succ_cons, List.take_zero, piecesText, piecesText, List.append_nil,
          List.length_append]
        omega

/-- The entries that have room stand in the object. -/
structure Stored (locMax : Nat) (entries : List LocalizedTitle) (count : Nat) (close : Text) :
    Prop where
  text : buildLocalizedTitles locMax entries =
    123 :: (piecesText true (entries.take count) ++ close)
  close : close = [125] ∨ close = []
  missing : entries.length ≤ count ∨
    locMax ≤ (123 :: piecesText true (entries.take (count + 1))).length

theorem stored {locMax : Nat} (hmax : 2 < locMax) (entries : List LocalizedTitle) :
    exists count close, Stored locMax entries count close := by
  have hopen : ascii "\x7b" = [123] := by decide
  have hclose : ascii "\x7d" = [125] := by decide
  rcases @titlePieces_count locMax entries true [123] (Nat.lt_trans (by decide) hmax) with
    ⟨count, htext, hmissing⟩
  by_cases hroom : (titlePieces locMax true [123] entries).length < locMax - 1
  · refine ⟨count, [125], ?_, Or.inl rfl, hmissing⟩
    unfold buildLocalizedTitles
    rw [hopen, hclose]
    exact (if_pos hroom).trans (by rw [htext]; rfl)
  · refine ⟨count, [], ?_, Or.inr rfl, hmissing⟩
    unfold buildLocalizedTitles
    rw [hopen, List.append_nil]
    exact (if_neg hroom).trans htext

/-!
# Looking a title up
-/

variable {locMax count : Nat} {entries : List LocalizedTitle} {close : Text}

theorem strstr_close {lang : Text} (h : close = [125] ∨ close = []) :
    strstr (langMark lang) close = none := by
  rcases h with rfl | rfl
  · exact strstr_pass (langMark_miss (by decide) []) (by decide)
  · rfl

theorem Stored.extractValForKey (hstored : Stored locMax entries count close)
    (h : forall entry, entry ∈ entries -> Storable entry) {lang : Text} (hlang : IsTag lang) :
    extractValForKey (buildLocalizedTitles locMax entries) lang titleNameLen =
      titleOf (entries.take count) lang := by
  have hrest : EndsTitle close := by
    intro b hb
    rcases hstored.close with rfl | rfl
    · cases hb
      exact Or.inr rfl
    · cases hb
  have hmark : (quote :: (lang ++ [quote, 58, quote])).take 63 = langMark lang := by
    have hshort := hlang.short
    apply List.take_of_length_le
    rw [List.length_cons, List.length_append]
    change lang.length + 3 + 1 ≤ 63
    omega
  unfold Scanner.extractValForKey
  rw [hmark, hstored.text]
  dsimp only
  rw [strstr_pass (langMark_miss (by decide) _) (by decide)]
  exact find_pieces hlang hrest (strstr_close hstored.close)
    (fun entry he => h entry (List.mem_of_mem_take he)) true

theorem titleOf_found {lang title : Text} (h : titleOf entries lang = some title) :
    exists entry, entry ∈ entries ∧ entry.lang = lang ∧ entry.title = title := by
  unfold titleOf at h
  rcases Option.map_eq_some_iff.mp h with ⟨entry, hfind, htitle⟩
  have hlang := List.find?_some hfind
  exact ⟨entry, List.mem_of_find?_eq_some hfind, eq_of_beq hlang, htitle⟩

/-- The language that is asked for first is shown when it has a title. -/
theorem Stored.displayTitle (hstored : Stored locMax entries count close)
    (h : forall entry, entry ∈ entries -> Storable entry) {pkg : PkgDetail}
    (hpkg : pkg.localizedTitles = buildLocalizedTitles locMax entries) {accept tag title : Text}
    {more : List Text} (htags : acceptTags accept.length accept = tag :: more)
    (htitle : titleOf (entries.take count) tag = some title) (hne : title ≠ []) :
    displayTitle pkg accept = title := by
  rcases titleOf_found htitle with ⟨entry, hmem, hlang, hentry⟩
  have hstorable := h entry (List.mem_of_mem_take hmem)
  have htag : IsTag tag := hlang ▸ hstorable.lang
  have hshort : title.length ≤ titleNameLen - 1 := by
    have hlen := hstorable.short
    rw [hentry] at hlen
    omega
  have hfor : titleFor pkg.localizedTitles tag titleNameLen = some title := by
    unfold titleFor
    rw [hpkg, hstored.extractValForKey h htag, htitle, Option.filter_some,
      if_pos (by simpa using hne)]
  have hmatch : matchAcceptLanguage pkg.localizedTitles accept titleNameLen = some title := by
    unfold matchAcceptLanguage
    have htagLong : ¬ (tag = [] ∨ 32 ≤ tag.length) :=
      not_or.mpr ⟨htag.nonempty, Nat.not_le.mpr htag.short⟩
    have hfirst : titleForTag pkg.localizedTitles tag titleNameLen = some title := by
      unfold titleForTag
      rw [if_neg htagLong, hfor]
      rfl
    rw [htags, List.findSome?_cons, hfirst]
  have haccept : accept ≠ [] := by
    rintro rfl
    cases htags
  have hobject : pkg.localizedTitles.head? = some 123 := by
    rw [hpkg, hstored.text]
    rfl
  unfold Scanner.displayTitle
  dsimp only
  rw [if_pos ⟨haccept, hobject⟩]
  by_cases hps4 : pkg.platform = ascii "ps4"
  · rw [if_pos hps4]
    have hresolved : resolveSfoTitle pkg.localizedTitles accept pkg.titleName titleNameLen =
        some title := by
      unfold resolveSfoTitle
      rw [hmatch]
      exact congrArg some (List.take_of_length_le hshort)
    rw [hresolved]
    exact (if_pos hne).trans (List.take_of_length_le hshort)
  · rw [if_neg hps4]
    unfold resolveLocalizedTitle
    rw [hmatch]
    rfl

/-- What becomes of the titles, when the first {lit}`count` have room. -/
structure ReadBack (locMax : Nat) (entries : List LocalizedTitle) (count : Nat) : Prop where
  missing : entries.length ≤ count ∨
    locMax ≤ (123 :: piecesText true (entries.take (count + 1))).length
  /-- Each language has the title that was stored for it first. -/
  lookup : forall lang, IsTag lang ->
    extractValForKey (buildLocalizedTitles locMax entries) lang titleNameLen =
      titleOf (entries.take count) lang
  /-- The language that is asked for first is the one that is shown. -/
  display : forall (pkg : PkgDetail) (accept tag title : Text) (more : List Text),
    pkg.localizedTitles = buildLocalizedTitles locMax entries ->
    acceptTags accept.length accept = tag :: more ->
    titleOf (entries.take count) tag = some title -> title ≠ [] -> displayTitle pkg accept = title

/-- The titles that are stored are found again, as long as there was room for them. -/
theorem localizedTitles_readBack {locMax : Nat} (hmax : 2 < locMax)
    {entries : List LocalizedTitle} (h : forall entry, entry ∈ entries -> Storable entry) :
    exists count, ReadBack locMax entries count := by
  rcases stored hmax entries with ⟨count, close, hstored⟩
  refine ⟨count, hstored.missing, fun lang hlang => hstored.extractValForKey h hlang, ?_⟩
  intro pkg accept tag title more hpkg htags htitle hne
  exact hstored.displayTitle h hpkg htags htitle hne

/-- A title with marks and one that looks like an entry. -/
def markedTitles : List LocalizedTitle :=
  [{ lang := ascii "en-US", title := ascii "a \"game\"" },
    { lang := ascii "ja-JP", title := ascii "\"de-DE\":\"x" },
    { lang := ascii "de-DE", title := ascii "ein Spiel" }]

theorem localizedTitles_readBack_marked : exists count, ReadBack 2048 markedTitles count := by
  refine localizedTitles_readBack (by decide) (fun entry he => ?_)
  have hcases : entry ∈ markedTitles := he
  simp only [markedTitles, List.mem_cons, List.not_mem_nil, or_false] at hcases
  rcases hcases with rfl | rfl | rfl
  all_goals
    exact ⟨⟨by decide, by decide, by decide⟩, zeroFree_of_all (by decide), by decide⟩

end Scanner
end PkgManager
