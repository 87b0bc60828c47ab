import PkgManager.Cache.Document
import PkgManager.Parser.Detail
import PkgManager.Smb.Urls

/-!
# The metadata of a cached package

Each checksum has a directory in the cache, with a {lit}`meta.json` and perhaps an icon.
-/

namespace PkgManager
namespace Cache

open CString
open PkgManager.Parser
open PkgManager.Smb

/-!
# Writing
-/

def escapeJsonByte (c : UInt8) : Text :=
  if c = quote ∨ c = backslash then [backslash, c]
  else if c = 10 then [backslash, 110]
  else if c = 13 then [backslash, 114]
  else if c = 9 then [backslash, 116]
  else if 32 ≤ c.toNat then [c]
  else []

/-- The loop from a place in the buffer on. -/
def escapeJsonFrom (dstMax : Nat) : Nat -> Text -> Text
  | _, [] => []
  | d, c :: rest =>
      if c ≠ 0 ∧ d + 2 < dstMax then
        escapeJsonByte c ++ escapeJsonFrom dstMax (d + (escapeJsonByte c).length) rest
      else []

/-- {lit}`escape_json_str` -/
def escapeJsonStr (dstMax : Nat) (src : Text) : Text :=
  escapeJsonFrom dstMax 0 src

/-- The value of {lit}`pkg_type_t`. -/
def pkgTypeCode : PkgType -> Nat
  | PkgType.unknown => 0
  | PkgType.base => 1
  | PkgType.update => 2
  | PkgType.dlc => 3

def boolText (b : Bool) : Text :=
  if b then ascii "true" else ascii "false"

/-- {lit}`PKG_CACHE_X_RULES` -/
def pkgCacheXRules : Nat := 2

/-- What {lit}`write_meta_json` prints, line by line. -/
def metaMembers (detail : PkgDetail) (blurhash : Text) : List (String × Value) :=
  [("title_id", Value.string (escapeJsonStr 128 detail.titleId)),
    ("title_name", Value.string (escapeJsonStr 512 detail.titleName)),
    ("localized_titles", Value.string (escapeJsonStr 4096 detail.localizedTitles)),
    ("default_language", Value.string (escapeJsonStr 64 detail.defaultLanguage)),
    ("content_id", Value.string (escapeJsonStr 256 detail.contentId)),
    ("app_version", Value.string (escapeJsonStr 64 detail.appVersion)),
    ("file_size", Value.bare (digitsText detail.fileSize)),
    ("total_pkg_size", Value.bare (digitsText
      (if 0 < detail.totalPkgSize then detail.totalPkgSize else detail.fileSize))),
    ("icon_offset", Value.bare (digitsText detail.iconOffset)),
    ("icon_size", Value.bare (digitsText detail.iconSize)),
    ("has_icon", Value.bare (boolText detail.hasIcon)),
    ("is_multipart", Value.bare (boolText detail.isMultipart)),
    ("part_index", Value.bare (digitsText detail.partIndex)),
    ("total_parts", Value.bare (digitsText detail.totalParts)),
    ("pkg_type", Value.bare (digitsText (pkgTypeCode detail.pkgType))),
    ("pkg_type_str", Value.string (escapeJsonStr 32 detail.pkgTypeStr)),
    ("category", Value.string (escapeJsonStr 32 detail.category)),
    ("mtime", Value.bare (digitsText detail.mtime)),
    ("blurhash", Value.string blurhash),
    ("platform", Value.string detail.platform),
    ("x_rules", Value.bare (digitsText pkgCacheXRules))]

def metaText (detail : PkgDetail) (blurhash : Text) : Text :=
  document (metaMembers detail blurhash)

/-- The contents of the regular files. -/
structure CacheDisk where
  file : Text -> Option (List UInt8)

def CacheDisk.put (disk : CacheDisk) (path : Text) (content : Option (List UInt8)) : CacheDisk where
  file := fun p => if p = path then content else disk.file p

/-- Whether each step of an update succeeds. -/
structure MetaSteps where
  mkdirs : Bool
  opens : Bool
  flushes : Bool
  renames : Bool

/-- {lit}`snprintf(dir_path, sizeof(dir_path), "%s/%s", pkg_cache_get_dir(), checksum)` -/
def entryDir (cacheDir checksum : Text) : Text :=
  (cacheDir ++ ascii "/" ++ checksum).take 1023

/-- {lit}`write_meta_json`; the temporary file is renamed or removed. -/
def writeMetaJson (steps : MetaSteps) (disk : CacheDisk) (dirPath : Text) (detail : PkgDetail)
    (blurhash : Text) : Int × CacheDisk :=
  let metaPath := (dirPath ++ ascii "/meta.json").take 2047
  let tmpPath := (dirPath ++ ascii "/meta.json.tmp").take 2047
  if !steps.opens then (-1, disk)
  else if !steps.flushes || !steps.renames then (-1, disk.put tmpPath none)
  else (0, (disk.put tmpPath none).put metaPath (some (metaText detail blurhash)))

/-- {lit}`pkg_cache_update_meta` -/
def pkgCacheUpdateMeta (steps : MetaSteps) (cacheDir : Text) (disk : CacheDisk) (checksum : Text)
    (detail : PkgDetail) : Int × CacheDisk :=
  if !steps.mkdirs then (-1, disk)
  else writeMetaJson steps disk (entryDir cacheDir checksum) detail detail.blurhash

/-!
# Reading
-/

/-- {lit}`strtoull` in base ten. -/
def strtoull (text : Text) : Nat :=
  let body := text.dropWhile isSpace
  let negative := body.head? == some 45
  let unsigned := if negative || body.head? == some 43 then body.drop 1 else body
  let value := digitsValue (unsigned.takeWhile isDigit)
  if 2 ^ 64 ≤ value then 2 ^ 64 - 1
  else if negative then (2 ^ 64 - value) % 2 ^ 64
  else value

/-- The conversion to {lit}`pkg_type_t`; other numbers are not written. -/
def pkgTypeOf (code : Int) : PkgType :=
  if code = 1 then PkgType.base
  else if code = 2 then PkgType.update
  else if code = 3 then PkgType.dlc
  else PkgType.unknown

/-- A number, or what stands in the record without one. -/
def numberField (buf : Text) (key : String) (default : Nat) : Nat :=
  let val := extractJsonField buf key 512
  if val ≠ [] then strtoull val else default

def typeField (buf : Text) : PkgType :=
  let val := extractJsonField buf "pkg_type" 512
  if val ≠ [] then pkgTypeOf (atoi val) else PkgType.unknown

/-- The record that is filled in from the text. -/
def readMeta (buf : Text) : PkgDetail where
  path := []
  filename := []
  titleId := extractJsonField buf "title_id" titleIdLen
  titleName := extractJsonField buf "title_name" titleNameLen
  localizedTitles := extractJsonField buf "localized_titles" localizedTitlesLen
  defaultLanguage := extractJsonField buf "default_language" defaultLangLen
  contentId := extractJsonField buf "content_id" 64
  appVersion := extractJsonField buf "app_version" 32
  fileSize := numberField buf "file_size" 0
  totalPkgSize := numberField buf "total_pkg_size" (numberField buf "file_size" 0)
  iconOffset := numberField buf "icon_offset" 0
  iconSize := numberField buf "icon_size" 0 % 2 ^ 32
  hasIcon := isTrueText (extractJsonField buf "has_icon" 512)
  isValid := false
  isMultipart := isTrueText (extractJsonField buf "is_multipart" 512)
  partIndex := numberField buf "part_index" 0 % 2 ^ 32
  totalParts := numberField buf "total_parts" 0 % 2 ^ 32
  pkgType := typeField buf
  pkgTypeStr := extractJsonField buf "pkg_type_str" 16
  category := extractJsonField buf "category" 16
  mtime := numberField buf "mtime" 0
  blurhash := extractJsonField buf "blurhash" 64
  platform := extractJsonField buf "platform" 8

def isPlaceholder (detail : PkgDetail) : Bool :=
  detail.titleId == [] && detail.titleName == ascii "Unknown Package"

/-- {lit}`stat(icon_path, &icon_st) == 0 && icon_st.st_size > 0` -/
def hasIconFile (disk : CacheDisk) (cacheDir checksum : Text) : Bool :=
  match disk.file ((cacheDir ++ ascii "/" ++ checksum ++ ascii "/icon.png").take 1023) with
  | none => false
  | some content => !content.isEmpty

/-- {lit}`pkg_cache_lookup`; {lit}`none` for -1. -/
def pkgCacheLookup (cacheDir : Text) (disk : CacheDisk) (checksum : Text) : Option PkgDetail :=
  match disk.file ((cacheDir ++ ascii "/" ++ checksum ++ ascii "/meta.json").take 1023) with
  | none => none
  | some buf =>
      -- If meta doesn't fit, treat as corrupt.
      if 8191 ≤ buf.length ∨ buf = [] then none
      else
        let detail := readMeta buf
        if atoi (extractJsonField buf "x_rules" 512) ≠ pkgCacheXRules then none
        else
          let detail :=
            if hasIconFile disk cacheDir checksum then { detail with hasIcon := true } else detail
          if isPlaceholder detail then none else some { detail with isValid := true }

end Cache
end PkgManager

/-!
# What is read back

The text that is written for a record is searched for each key, and every field is read
back as it was escaped.
-/

namespace PkgManager
namespace Cache

open CString
open PkgManager.Parser
open PkgManager.Smb

/-!
# Escaped texts
-/

structure FieldFits (size : Nat) (text : Text) : Prop where
  zeroFree : ZeroFree text
  short : text.length < size

/-- What the reader makes of an escaped text. -/
def readBack (src : Text) : Text :=
  unescaped (src.flatMap escapeJsonByte)

theorem escapeJsonByte_escaped {c : UInt8} (hc : c ≠ 0) : Escaped (escapeJsonByte c) := by
  have hn : (110 : UInt8) ≠ 0 := by decide
  have hr : (114 : UInt8) ≠ 0 := by decide
  have ht : (116 : UInt8) ≠ 0 := by decide
  unfold escapeJsonByte
  split
  · exact Escaped.pair hc Escaped.nil
  · rename_i hplain
    rw [not_or] at hplain
    split
    · exact Escaped.pair hn Escaped.nil
    · split
      · exact Escaped.pair hr Escaped.nil
      · split
        · exact Escaped.pair ht Escaped.nil
        · split
          · exact Escaped.plain hc hplain.1 hplain.2 Escaped.nil
          · exact Escaped.nil

theorem escapeJsonByte_length (c : UInt8) : (escapeJsonByte c).length ≤ 2 := by
  unfold escapeJsonByte
  split
  · exact Nat.le_refl _
  · split
    · exact Nat.le_refl _
    · split
      · exact Nat.le_refl _
      · split
        · exact Nat.le_refl _
        · split
          · exact Nat.le_succ _
          · exact Nat.zero_le _

theorem flatMap_escaped {src : Text} (h : ZeroFree src) :
    Escaped (src.flatMap escapeJsonByte) := by
  induction src with
  | nil => exact Escaped.nil
  | cons c rest ih =>
      rw [List.flatMap_cons]
      exact (escapeJsonByte_escaped (h c List.mem_cons_self)).append
        (ih (fun b hb => h b (List.mem_cons_of_mem c hb)))

theorem flatMap_length (src : Text) :
    (src.flatMap escapeJsonByte).length ≤ 2 * src.length := by
  induction src with
  | nil => exact Nat.le_refl _
  | cons c rest ih =>
      have hc := escapeJsonByte_length c
      rw [List.flatMap_cons, List.length_append, List.length_cons]
      omega

/-- The buffer for the escaped text is never too small. -/
theorem escapeJsonFrom_eq {src : Text} (h : ZeroFree src) {d dstMax : Nat}
    (hroom : d + 2 * src.length < dstMax) :
    escapeJsonFrom dstMax d src = src.flatMap escapeJsonByte := by
  induction src generalizing d with
  | nil => rfl
  | cons c rest ih =>
      rw [List.length_cons] at hroom
      have hc := escapeJsonByte_length c
      rw [escapeJsonFrom, if_pos ⟨h c List.mem_cons_self, by omega⟩, List.flatMap_cons,
        ih (fun b hb => h b (List.mem_cons_of_mem c hb)) (by omega)]

theorem escapeJsonStr_eq {src : Text} {size dstMax : Nat} (h : FieldFits size src)
    (hroom : 2 * size ≤ dstMax + 1) :
    escapeJsonStr dstMax src = src.flatMap escapeJsonByte := by
  have hshort := h.short
  exact escapeJsonFrom_eq h.zeroFree (by omega)

theorem readBack_cons {c : UInt8} (hc : c ≠ 0) (rest : Text) :
    readBack (c :: rest) = unescaped (escapeJsonByte c) ++ readBack rest := by
  unfold readBack
  rw [List.flatMap_cons, unescaped_append (escapeJsonByte_escaped hc)]

/-- One byte is read back as itself, unless it is a control byte. -/
theorem unescaped_byte (c : UInt8) :
    unescaped (escapeJsonByte c) = [c] ∧ 32 ≤ c.toNat ∨
      (forall b, b ∈ unescaped (escapeJsonByte c) -> 32 ≤ b.toNat) ∧ c.toNat < 32 ∧
        (unescaped (escapeJsonByte c)).length ≤ 1 := by
  unfold escapeJsonByte
  split
  · rename_i hmark
    left
    constructor
    · exact unescaped_pair c []
    · rcases hmark with rfl | rfl <;> decide
  · rename_i hplain
    rw [not_or] at hplain
    split
    · rename_i heq
      subst heq
      right
      decide +kernel
    · split
      · rename_i heq
        subst heq
        right
        decide +kernel
      · split
        · rename_i heq
          subst heq
          right
          decide +kernel
        · split
          · rename_i hprint
            left
            exact ⟨unescaped_plain hplain.2 [], hprint⟩
          · rename_i hcontrol
            right
            refine ⟨?_, by omega, Nat.zero_le _⟩
            intro b hb
            cases hb

/-- No text field holds a control byte. -/
def NoControl (text : Text) : Prop :=
  forall b, b ∈ text -> 32 ≤ b.toNat

instance (text : Text) : Decidable (NoControl text) :=
  inferInstanceAs (Decidable (forall b, b ∈ text -> 32 ≤ b.toNat))

theorem readBack_noControl {src : Text} (h : ZeroFree src) : NoControl (readBack src) := by
  induction src with
  | nil =>
      intro b hb
      cases hb
  | cons c rest ih =>
      rw [readBack_cons (h c List.mem_cons_self)]
      intro b hb
      rcases List.mem_append.mp hb with hfirst | hrest
      · rcases unescaped_byte c with ⟨hsame, hprint⟩ | ⟨hall, _⟩
        · rw [hsame, List.mem_singleton] at hfirst
          rw [hfirst]
          exact hprint
        · exact hall b hfirst
      · exact ih (fun b hb => h b (List.mem_cons_of_mem c hb)) b hrest

theorem readBack_of_noControl {src : Text} (h : ZeroFree src) (hcontrol : NoControl src) :
    readBack src = src := by
  induction src with
  | nil => rfl
  | cons c rest ih =>
      have hprint := hcontrol c List.mem_cons_self
      rw [readBack_cons (h c List.mem_cons_self),
        ih (fun b hb => h b (List.mem_cons_of_mem c hb))
          (fun b hb => hcontrol b (List.mem_cons_of_mem c hb))]
      rcases unescaped_byte c with ⟨hsame, _⟩ | ⟨_, hlow, _⟩
      · rw [hsame]
        rfl
      · omega

/-- Exactly the texts without control bytes are read back as they are. -/
theorem readBack_eq_iff {src : Text} (h : ZeroFree src) :
    readBack src = src ↔ NoControl src := by
  constructor
  · intro heq
    rw [<- heq]
    exact readBack_noControl h
  · exact readBack_of_noControl h

theorem readBack_length {src : Text} (h : ZeroFree src) : (readBack src).length ≤ src.length := by
  induction src with
  | nil => exact Nat.le_refl _
  | cons c rest ih =>
      have hrest := ih (fun b hb => h b (List.mem_cons_of_mem c hb))
      rw [readBack_cons (h c List.mem_cons_self), List.length_append, List.length_cons]
      rcases unescaped_byte c with ⟨hsame, _⟩ | ⟨_, _, hlength⟩
      · rw [hsame, List.length_singleton]
        omega
      · omega

/-!
# The record
-/

/-- A text that is printed without escapes. -/
def PrintsRaw (text : Text) : Prop :=
  forall b, b ∈ text -> b ≠ 0 ∧ b ≠ quote ∧ b ≠ backslash

/-- The arrays of the record hold texts and its numbers fit their types. -/
structure DetailFits (d : PkgDetail) : Prop where
  titleId : FieldFits titleIdLen d.titleId
  titleName : FieldFits titleNameLen d.titleName
  localizedTitles : FieldFits localizedTitlesLen d.localizedTitles
  defaultLanguage : FieldFits defaultLangLen d.defaultLanguage
  contentId : FieldFits 64 d.contentId
  appVersion : FieldFits 32 d.appVersion
  pkgTypeStr : FieldFits 16 d.pkgTypeStr
  category : FieldFits 16 d.category
  fileSize : d.fileSize < 2 ^ 64
  totalPkgSize : d.totalPkgSize < 2 ^ 64
  iconOffset : d.iconOffset < 2 ^ 64
  iconSize : d.iconSize < 2 ^ 32
  partIndex : d.partIndex < 2 ^ 32
  totalParts : d.totalParts < 2 ^ 32
  mtime : d.mtime < 2 ^ 64
  blurhash : d.blurhash.length < 64 ∧ PrintsRaw d.blurhash
  platform : d.platform.length < 8 ∧ PrintsRaw d.platform

/-- The keys of the document. -/
def metaKeys : List String :=
  ["title_id", "title_name", "localized_titles", "default_language", "content_id",
    "app_version", "file_size", "total_pkg_size", "icon_offset", "icon_size", "has_icon",
    "is_multipart", "part_index", "total_parts", "pkg_type", "pkg_type_str", "category",
    "mtime", "blurhash", "platform", "x_rules"]

theorem metaMembers_keys (d : PkgDetail) (blurhash : Text) :
    (metaMembers d blurhash).map Prod.fst = metaKeys :=
  rfl

theorem plainKey_of_mem {key : String} (h : key ∈ metaKeys) : PlainKey key := by
  have hall : metaKeys.all (fun key => (ascii key) != [] && (ascii key).all isKeyByte) = true := by
    decide
  have hkey := List.all_eq_true.mp hall key h
  rw [Bool.and_eq_true] at hkey
  exact { nonempty := bne_iff_ne.mp hkey.1, plain := hkey.2 }

theorem string_fine {src : Text} {size dstMax : Nat} (h : FieldFits size src)
    (hroom : 2 * size ≤ dstMax + 1) : (Value.string (escapeJsonStr dstMax src)).Fine := by
  change Escaped (escapeJsonStr dstMax src)
  rw [escapeJsonStr_eq h hroom]
  exact flatMap_escaped h.zeroFree

theorem number_fine (n : Nat) : (Value.bare (digitsText n)).Fine := by
  constructor
  · unfold digitsText
    rw [ne_eq, List.map_eq_nil_iff]
    exact Nat.toDigits_ne_nil
  · rw [List.all_eq_true]
    intro b hb
    unfold isBareByte
    rw [digitsText_digit hb]
    rfl

theorem bool_fine (b : Bool) : (Value.bare (boolText b)).Fine := by
  cases b with
  | false => exact ⟨by decide, by decide⟩
  | true => exact ⟨by decide, by decide⟩

theorem raw_fine {text : Text} (h : PrintsRaw text) : (Value.string text).Fine :=
  (escaped_of_plain h).1

theorem metaMembers_readable {d : PkgDetail} (h : DetailFits d) :
    Readable (metaMembers d d.blurhash) where
  keys := by
    intro m hm
    apply plainKey_of_mem
    rw [<- metaMembers_keys d d.blurhash]
    exact List.mem_map_of_mem hm
  values := by
    unfold metaMembers
    simp only [List.forall_mem_cons, List.not_mem_nil, false_implies, implies_true, and_true]
    refine ⟨string_fine h.titleId (by decide), string_fine h.titleName (by decide),
      string_fine h.localizedTitles (by decide), string_fine h.defaultLanguage (by decide),
      string_fine h.contentId (by decide), string_fine h.appVersion (by decide),
      number_fine _, number_fine _, number_fine _, number_fine _, bool_fine _, bool_fine _,
      number_fine _, number_fine _, number_fine _, string_fine h.pkgTypeStr (by decide),
      string_fine h.category (by decide), number_fine _, raw_fine h.blurhash.2,
      raw_fine h.platform.2, number_fine _⟩

theorem find_member {β : Type} {members : List (String × β)} {i : Nat} {m : String × β}
    (hm : members[i]? = some m)
    (hbefore : ((members.map Prod.fst).take i).all (fun key => ascii key != ascii m.1) = true) :
    members.find? (fun x => ascii x.1 == ascii m.1) = some m := by
  induction members generalizing i with
  | nil => cases hm
  | cons first rest ih =>
      cases i with
      | zero =>
          cases hm
          exact List.find?_cons_of_pos (beq_self_eq_true _)
      | succ i =>
          rw [List.map_cons, List.take_succ_cons, List.all_cons, Bool.and_eq_true] at hbefore
          have hfirst : (ascii first.1 == ascii m.1) = false :=
            beq_false_of_ne (bne_iff_ne.mp hbefore.1)
          rw [List.find?_cons, hfirst]
          exact ih hm hbefore.2

/-- The member at a place is read, when its key is not an earlier one. -/
theorem extract_metaText {d : PkgDetail} (h : DetailFits d) (i : Nat) {m : String × Value}
    (hm : (metaMembers d d.blurhash)[i]? = some m)
    (hbefore : (metaKeys.take i).all (fun key => ascii key != ascii m.1) = true) {outMax : Nat}
    (hfits : m.2.read.length < outMax) :
    extractJsonField (metaText d d.blurhash) m.1 outMax = m.2.read := by
  have hmem := List.mem_of_getElem? hm
  have hkey : m.1 ∈ metaKeys := by
    rw [<- metaMembers_keys d d.blurhash]
    exact List.mem_map_of_mem hmem
  exact extractJsonField_document (plainKey_of_mem hkey) (metaMembers_readable h)
    (find_member hm hbefore) hfits

end Cache
end PkgManager
