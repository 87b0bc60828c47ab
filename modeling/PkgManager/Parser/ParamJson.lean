import PkgManager.AppInfo
import PkgManager.Parser.Json
import PkgManager.Bytes.Endian

/-!
# param.json

The document stands in a buffer with a zero byte behind it, so the list of its
bytes is all the memory in view.
-/

namespace PkgManager
namespace Parser

open CString

/-- The texts that the two metadata parsers fill in. -/
structure ParamTexts where
  titleId : Text
  titleName : Text
  category : Text
  version : Text
  localizedTitles : Text
  defaultLang : Text
deriving DecidableEq

def ParamTexts.empty : ParamTexts :=
  ⟨[], [], [], [], [], []⟩

/-- The sizes of the arrays for them; 0 when the caller gives none. -/
structure ParamSizes where
  titleId : Nat
  titleName : Nat
  category : Nat
  version : Nat
  localizedTitles : Nat
  defaultLang : Nat

/-!
# Versions
-/

/-- {lit}`sscanf(ver, "%d.%d.%d", ..) == 3` -/
def scanVersion (ver : Text) : Option (Int × Int × Int) :=
  match scanInt (ver.map (fun b => Char.ofNat b.toNat)) with
  | none => none
  | some (maj, rest) =>
      match scanDotInt rest with
      | none => none
      | some (min, rest) =>
          match scanDotInt rest with
          | none => none
          | some (patch, _) => some (maj, min, patch)

def digitsText (n : Nat) : Text :=
  (Nat.toDigits 10 n).map (fun c => UInt8.ofNat c.toNat)

/-- {lit}`%d` -/
def intText (n : Int) : Text :=
  if n < 0 then ascii "-" ++ digitsText n.natAbs else digitsText n.natAbs

/-- {lit}`%02d` -/
def intText2 (n : Int) : Text :=
  if 0 ≤ n ∧ n < 10 then ascii "0" ++ intText n else intText n

/-- The version field for the text of a param.json. -/
def jsonVersionText (verMax : Nat) (ver : Text) : Text :=
  let full :=
    match scanVersion ver with
    | some (maj, min, patch) =>
        if min = 0 ∧ patch > 0 then ascii "v" ++ intText maj ++ ascii "." ++ intText2 patch
        else if patch = 0 then ascii "v" ++ intText maj ++ ascii "." ++ intText2 min
        else ascii "v" ++ intText maj ++ ascii "." ++ intText min ++ ascii "." ++ intText patch
    | none =>
        if ver.head? ≠ some 118 ∧ ver.head? ≠ some 86 then ascii "v" ++ ver.take 29 else ver
  full.take (verMax - 1)

/-- The three keys that may hold the version. -/
def jsonVersion (json behind : List UInt8) : Option Text :=
  jsonExtractKey json behind "contentVersion" 32 <|>
    jsonExtractKey json behind "appVersion" 32 <|>
    jsonExtractKey json behind "version" 32

/-!
# The block of localized parameters
-/

/-- Where the brace stands that closes the object at {lit}`p`. -/
def closingBrace (stop : Nat) : Nat -> Bool -> List UInt8 -> Option (List UInt8)
  | _, _, [] => none
  | depth, inStr, b :: rest =>
      if rest.length < stop then none
      else if b = backslash ∧ inStr = true ∧ stop < rest.length then
        match rest with
        | [] => none
        | _ :: rest => closingBrace stop depth inStr rest
      else if b = quote then closingBrace stop depth (!inStr) rest
      else if inStr then closingBrace stop depth inStr rest
      else if b = 123 then closingBrace stop (depth + 1) inStr rest
      else if b = 125 then
        if depth = 1 then some (b :: rest) else closingBrace stop (depth - 1) inStr rest
      else closingBrace stop depth inStr rest

theorem closingBrace_suffix {stop depth : Nat} {inStr : Bool} {p close : List UInt8}
    (h : closingBrace stop depth inStr p = some close) : close <:+ p := by
  fun_induction closingBrace stop depth inStr p with
  | case1 => cases h
  | case2 => cases h
  | case3 => cases h
  | case4 depth inStr b c rest _ _ ih =>
      exact (ih h).trans ((List.suffix_cons c rest).trans (List.suffix_cons b (c :: rest)))
  | case5 depth inStr rest _ _ ih => exact (ih h).trans (List.suffix_cons quote rest)
  | case6 depth b rest _ _ _ ih => exact (ih h).trans (List.suffix_cons b rest)
  | case7 depth inStr rest _ _ _ _ ih => exact (ih h).trans (List.suffix_cons 123 rest)
  | case8 =>
      cases h
      exact List.suffix_refl _
  | case9 depth inStr rest _ _ _ _ _ _ ih => exact (ih h).trans (List.suffix_cons 125 rest)
  | case10 depth inStr b rest _ _ _ _ _ _ ih => exact (ih h).trans (List.suffix_cons b rest)

/-- {lit}`lp_start` and {lit}`lp_end` -/
def localizedBlock (json : List UInt8) : Option (List UInt8 × List UInt8) :=
  match strstr (quoted "localizedParameters") json with
  | none => none
  | some lp =>
      match strchr 58 (lp.drop 21) with
      | none => none
      | some colon =>
          match strchr 123 (colon.drop 1) with
          | none => none
          | some brace => (closingBrace 0 0 false brace).map (fun close => (brace, close))

/-!
# The title outside of the block
-/

def outsideBlock (block : Option (List UInt8 × List UInt8)) (f : List UInt8) : Bool :=
  match block with
  | none => true
  | some (start, close) => decide (start.length < f.length ∨ f.length < close.length)

/-- The value of the key at {lit}`f`, when it counts. -/
def globalTitleAt (block : Option (List UInt8 × List UInt8)) (rest f : List UInt8) :
    Option Text :=
  if outsideBlock block f then
    match strchr 58 rest with
    | none => none
    | some c => (stringValue 0 c).map (copied titleNameLen)
  else none

def globalTitleFrom (block : Option (List UInt8 × List UInt8)) (key : String)
    (curr : List UInt8) : Text :=
  match _h : strstr (quoted key) curr with
  | none => []
  | some f =>
      let rest := f.drop (quoted key).length
      match globalTitleAt block rest f with
      | some title => title
      | none => globalTitleFrom block key rest
termination_by curr.length
decreasing_by exact strstr_shorter (quoted_ne_nil key) (by assumption)

def globalTitle (block : Option (List UInt8 × List UInt8)) (json : List UInt8) : Text :=
  let title := globalTitleFrom block "titleName" json
  if title = [] then globalTitleFrom block "title" json else title

/-!
# The languages of the block
-/

/-- The value of a key up to the end of a part, when it is a string. -/
def blockValue (start close : List UInt8) (key : String) : Option (List UInt8) :=
  match strstr (quoted key) start with
  | none => none
  | some found =>
      if found.length ≤ close.length then none
      else
        match strchr 58 (found.drop (quoted key).length) with
        | none => none
        | some colon =>
            if colon.length ≤ close.length then none else stringValue close.length colon

def defaultLanguage (start close : List UInt8) : Text :=
  match blockValue start close "defaultLanguage" with
  | some bytes => copied 32 bytes
  | none => []

/-- The bytes up to the next quote. -/
def keyText (stop : Nat) (p : List UInt8) : List UInt8 :=
  p.take (p.length - (skipToQuote stop p).length)

/-- The entry that an object of the block gives. -/
def objectTitle (key : List UInt8) (start close : List UInt8) : Option LocalizedTitle :=
  match blockValue start close "titleName" with
  | none => none
  | some bytes =>
      let lang := copied 64 key
      let title := copied titleNameLen bytes
      if title ≠ [] ∧ lang ≠ [] then some { lang := lang.take 31, title := title } else none

/-- One round of the loop over the block: an entry if the round gives one, and
where the loop goes on, or {lit}`none` at a break. -/
def languageRound (stop : Nat) (p : List UInt8) :
    Option (Option LocalizedTitle × List UInt8) :=
  let start := skipToQuote stop p
  if start.length ≤ stop then none
  else
    let key := keyText stop (start.drop 1)
    let close := skipToQuote stop (start.drop 1)
    if close.length ≤ stop then none
    else
      let colon := skipSpaces stop (close.drop 1)
      if colon.length ≤ stop ∨ colon.head? ≠ some 58 then some (none, colon)
      else
        let value := skipSpaces stop (colon.drop 1)
        if value.length ≤ stop then none
        else if value.head? = some quote then
          let last := quotedEnd stop (value.drop 1)
          some (none, if stop < last.length then last.drop 1 else last)
        else if value.head? = some 123 then
          match closingBrace stop 0 false value with
          | none => none
          | some last => some (objectTitle key value last, last.drop 1)
        else some (none, value)

theorem skipSpaces_suffix (stop : Nat) (p : List UInt8) : skipSpaces stop p <:+ p := by
  induction p with
  | nil => exact List.suffix_refl _
  | cons b rest ih =>
      unfold skipSpaces
      split
      · exact ih.trans (List.suffix_cons b rest)
      · exact List.suffix_refl _

theorem skipToQuote_suffix (stop : Nat) (p : List UInt8) : skipToQuote stop p <:+ p := by
  induction p with
  | nil => exact List.suffix_refl _
  | cons b rest ih =>
      unfold skipToQuote
      split
      · exact ih.trans (List.suffix_cons b rest)
      · exact List.suffix_refl _

theorem quotedEnd_suffix (stop : Nat) (p : List UInt8) : quotedEnd stop p <:+ p := by
  fun_induction quotedEnd stop p with
  | case1 => exact List.suffix_refl _
  | case2 b _ _ => exact List.nil_suffix
  | case3 b c rest _ _ ih =>
      exact ih.trans ((List.suffix_cons c rest).trans (List.suffix_cons b (c :: rest)))
  | case4 b rest _ _ ih => exact ih.trans (List.suffix_cons b rest)
  | case5 b rest _ => exact List.suffix_refl _

theorem drop_one_shorter {p q : List UInt8} {stop : Nat} (hq : q <:+ p) (hlong : ¬ q.length ≤ stop) :
    (q.drop 1).length < p.length := by
  have hle := hq.length_le
  rw [List.length_drop]
  omega

/-- A round goes forward. -/
theorem languageRound_shorter {stop : Nat} {p next : List UInt8} {entry : Option LocalizedTitle}
    (h : languageRound stop p = some (entry, next)) : next.length < p.length := by
  unfold languageRound at h
  dsimp only at h
  split at h
  · cases h
  · rename_i hstart
    have hkey := drop_one_shorter (skipToQuote_suffix stop p) hstart
    have hclose := skipToQuote_suffix stop ((skipToQuote stop p).drop 1)
    generalize (skipToQuote stop p).drop 1 = key at h hkey hclose
    split at h
    · cases h
    · rename_i hlong
      have hcolon := (skipSpaces_suffix stop ((skipToQuote stop key).drop 1)).length_le
      have hdrop := drop_one_shorter hclose hlong
      generalize skipSpaces stop ((skipToQuote stop key).drop 1) = colon at h hcolon
      split at h
      · cases h
        omega
      · have hvalue := (skipSpaces_suffix stop (colon.drop 1)).length_le
        have hrest := (List.drop_suffix 1 colon).length_le
        generalize skipSpaces stop (colon.drop 1) = value at h hvalue
        split at h
        · cases h
        · split at h
          · cases h
            have hlast := (quotedEnd_suffix stop (value.drop 1)).length_le
            have hvalueRest := (List.drop_suffix 1 value).length_le
            split
            · have hlastRest := (List.drop_suffix 1 (quotedEnd stop (value.drop 1))).length_le
              omega
            · omega
          · split at h
            · split at h
              · cases h
              · rename_i last hlast
                cases h
                have hsuffix := (closingBrace_suffix hlast).length_le
                have hlastRest := (List.drop_suffix 1 last).length_le
                omega
            · cases h
              omega

/-- The loop over the block. -/
def languageEntries (stop count : Nat) (p : List UInt8) : List LocalizedTitle :=
  if p.length ≤ stop ∨ 64 ≤ count then []
  else
    match _h : languageRound stop p with
    | none => []
    | some (some entry, next) => entry :: languageEntries stop (count + 1) next
    | some (none, next) => languageEntries stop count next
termination_by p.length
decreasing_by
  all_goals exact languageRound_shorter (by assumption)

/-!
# The whole document
-/

/-- The title from the block, for a field that is still empty. -/
def defaultTitle (global defLang : Text) (entries : List LocalizedTitle) : Text :=
  let fromDefault :=
    if global ≠ [] then global
    else if defLang ≠ [] then
      ((entries.find? (fun entry => entry.lang == defLang)).map LocalizedTitle.title).getD []
    else []
  let fromEnglish :=
    if fromDefault = [] then
      ((entries.find? (fun entry => startsWith "en" entry.lang)).map LocalizedTitle.title).getD []
    else fromDefault
  if fromEnglish = [] then (entries.head?.map LocalizedTitle.title).getD [] else fromEnglish

/-- One text that is taken when the field is still empty. -/
def noteKey (json : List UInt8) (key : String) (bufMax outMax : Nat) (old : Text) : Text :=
  if 0 < outMax ∧ old = [] then
    match jsonExtractKey json [] key bufMax with
    | some text => text.take (outMax - 1)
    | none => old
  else old

def noteVersion (json : List UInt8) (verMax : Nat) (old : Text) : Text :=
  if 0 < verMax ∧ old = [] then
    match jsonVersion json [] with
    | some ver => if ver ≠ [] then jsonVersionText verMax ver else old
    | none => old
  else old

def pkgParserParseParamJson (sizes : ParamSizes) (json : List UInt8) (out : ParamTexts) :
    ParamTexts :=
  if json = [] then out
  else
    let titleId := noteKey json "titleId" titleIdLen sizes.titleId out.titleId
    let category := noteKey json "category" 16 sizes.category out.category
    let version := noteVersion json sizes.version out.version
    let block := localizedBlock json
    let global := globalTitle block json
    match block with
    | some (start, close) =>
        let defLang := defaultLanguage start close
        let entries := languageEntries close.length 0 (start.drop 1)
        { titleId := titleId
          titleName :=
            if 0 < sizes.titleName ∧ out.titleName = [] then
              (defaultTitle global defLang entries).take (sizes.titleName - 1)
            else out.titleName
          category := category
          version := version
          localizedTitles :=
            if 2 < sizes.localizedTitles ∧ entries ≠ [] then
              buildLocalizedTitles sizes.localizedTitles entries
            else if 0 < sizes.localizedTitles then []
            else out.localizedTitles
          defaultLang :=
            if 0 < sizes.defaultLang then defLang.take (sizes.defaultLang - 1)
            else out.defaultLang }
    | none =>
        { titleId := titleId
          titleName :=
            if 0 < sizes.titleName ∧ out.titleName = [] then global.take (sizes.titleName - 1)
            else out.titleName
          category := category
          version := version
          localizedTitles := if 0 < sizes.localizedTitles then [] else out.localizedTitles
          defaultLang := if 0 < sizes.defaultLang then [] else out.defaultLang }

end Parser
end PkgManager

/-!
# param.sfo

A table of keys and values with offsets into the document.
-/

namespace PkgManager
namespace Parser

open CString
open Endian

def bytesAt (bytes : List UInt8) (off count : Nat) : List UInt8 :=
  (bytes.drop off).take count

def le16At (bytes : List UInt8) (off : Nat) : Nat :=
  ofLittleEndian (bytesAt bytes off 2)

def le32At (bytes : List UInt8) (off : Nat) : Nat :=
  ofLittleEndian (bytesAt bytes off 4)

def le64At (bytes : List UInt8) (off : Nat) : Nat :=
  ofLittleEndian (bytesAt bytes off 8)

def be32At (bytes : List UInt8) (off : Nat) : Nat :=
  ofBigEndian (bytesAt bytes off 4)

/-- {lit}`s_sfo_lang_map` -/
def sfoLangMap : List String :=
  ["ja-JP", "en-US", "fr-FR", "es-ES", "de-DE", "it-IT", "nl-NL", "pt-PT",
    "ru-RU", "ko-KR", "zh-Hant", "zh-Hans", "fi-FI", "sv-SE", "da-DK", "no-NO",
    "pl-PL", "pt-BR", "en-GB", "tr-TR", "es-419", "ar-AE", "fr-CA", "cs-CZ",
    "hu-HU", "el-GR", "ro-RO", "th-TH", "vi-VN", "id-ID"]

structure SfoEntry where
  key : Text
  dataLen : Nat
  /-- The bytes from the start of the value on. -/
  data : List UInt8

/-- The entry at a place of the table when its offsets stay in the document. -/
def sfoEntryAt (sfo : List UInt8) (keyTableStart dataTableStart i : Nat) : Option SfoEntry :=
  let e := 20 + i * 16
  let keyOff := le16At sfo e
  let dataLen := le32At sfo (e + 4)
  let dataOff := le32At sfo (e + 12)
  let key := sfo.drop (keyTableStart + keyOff)
  if (keyTableStart + keyOff) % 2 ^ 32 ≥ sfo.length then none
  else if 0 ∉ key then none
  else if dataOff > sfo.length ∨ dataLen > sfo.length ∨
      dataTableStart + dataOff + dataLen > sfo.length then none
  else
    some { key := cString key
           dataLen := dataLen
           data := sfo.drop (dataTableStart + dataOff) }

/-- The copy of a value to an array of {lit}`size` bytes.  Zero bytes at its end
are no part of the text. -/
def SfoEntry.text (entry : SfoEntry) (size : Nat) : Text :=
  cString (entry.data.take (if entry.dataLen < size then entry.dataLen else size - 1))

/-- {lit}`atoi` of a text of digits. -/
def atoiDigits (digits : Text) : Int :=
  let value := digits.foldl (fun n b => 10 * n + (b.toNat - 48)) 0
  Int.bmod (min value (2 ^ 63 - 1) : Nat) (2 ^ 32)

/-- The language of a key {lit}`TITLE_00` to {lit}`TITLE_29`. -/
def sfoLanguage (key : Text) : Option String :=
  let suffix := key.drop 6
  if suffix ≠ [] ∧ suffix.all isDigit = true then
    let idx := atoiDigits suffix
    if 0 ≤ idx ∧ idx < 30 then sfoLangMap[idx.toNat]? else none
  else none

structure SfoScan where
  out : ParamTexts
  appVer : Text
  version : Text
  loc : List LocalizedTitle

def sfoStep (sizes : ParamSizes) (scan : SfoScan) (entry : SfoEntry) : SfoScan :=
  if entry.key = ascii "TITLE" ∧ scan.out.titleName = [] then
    { scan with out := { scan.out with titleName := entry.text sizes.titleName } }
  else if entry.key = ascii "TITLE_ID" ∧ scan.out.titleId = [] then
    { scan with out := { scan.out with titleId := entry.text sizes.titleId } }
  else if startsWith "TITLE_" entry.key = true ∧ scan.loc.length < 32 then
    match sfoLanguage entry.key with
    | some lang =>
        { scan with
          loc := scan.loc ++ [{ lang := ascii lang, title := entry.text titleNameLen }] }
    | none => scan
  else if entry.key = ascii "CATEGORY" ∧ 0 < sizes.category ∧ scan.out.category = [] then
    { scan with out := { scan.out with category := entry.text sizes.category } }
  else if entry.key = ascii "APP_VER" ∧ scan.appVer = [] then
    { scan with appVer := entry.text 32 }
  else if entry.key = ascii "VERSION" ∧ scan.version = [] then
    { scan with version := entry.text 32 }
  else scan

/-- The entries that the loop looks at. -/
def sfoEntries (sfo : List UInt8) : List SfoEntry :=
  let keyTableStart := le32At sfo 8
  let dataTableStart := le32At sfo 12
  let rows := (List.range (le32At sfo 16)).takeWhile
    (fun i => decide (20 + (i + 1) * 16 ≤ sfo.length))
  rows.filterMap (sfoEntryAt sfo keyTableStart dataTableStart)

/-- The title when the document has only titles with a language. -/
def sfoFallbackTitle (loc : List LocalizedTitle) : Text :=
  match loc.find? (fun entry => entry.lang == ascii "en-US") with
  | some entry => entry.title
  | none => (loc.head?.map LocalizedTitle.title).getD []

def sfoVersionText (verMax : Nat) (best : Text) : Text :=
  let full := if best.head? ≠ some 118 ∧ best.head? ≠ some 86 then ascii "v" ++ best else best
  full.take (verMax - 1)

def sfoFinish (sizes : ParamSizes) (scan : SfoScan) : ParamTexts :=
  let out := scan.out
  let best := if scan.appVer ≠ [] then scan.appVer else scan.version
  { out with
    titleName :=
      if out.titleName = [] ∧ scan.loc ≠ [] then
        (sfoFallbackTitle scan.loc).take (sizes.titleName - 1)
      else out.titleName
    defaultLang :=
      if scan.loc ≠ [] ∧ 0 < sizes.defaultLang ∧ out.defaultLang = [] then
        (ascii "en-US").take (sizes.defaultLang - 1)
      else out.defaultLang
    localizedTitles :=
      if scan.loc ≠ [] ∧ 2 < sizes.localizedTitles then
        buildLocalizedTitles sizes.localizedTitles scan.loc
      else out.localizedTitles
    version :=
      if best ≠ [] ∧ 0 < sizes.version ∧ out.version = [] then sfoVersionText sizes.version best
      else out.version }

def pkgParserParseParamSfo (sizes : ParamSizes) (sfo : List UInt8) (out : ParamTexts) :
    ParamTexts :=
  if sfo.length < 20 ∨ bytesAt sfo 0 4 ≠ 0 :: ascii "PSF" then out
  else if le32At sfo 8 ≥ sfo.length ∨ le32At sfo 12 ≥ sfo.length ∨ le32At sfo 16 > 1024 then out
  else
    sfoFinish sizes ((sfoEntries sfo).foldl (sfoStep sizes)
      { out := out, appVer := [], version := [], loc := [] })

end Parser
end PkgManager
