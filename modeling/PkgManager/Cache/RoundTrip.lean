import PkgManager.Cache.Meta
import PkgManager.Cache.ParsedDetails

/-!
# The round trip of the metadata
-/

namespace PkgManager
namespace Cache

open CString
open PkgManager.Parser
open PkgManager.Smb

/-!
# Single fields
-/

section Fields

variable {d : PkgDetail}

theorem string_read {src : Text} {size dstMax : Nat} (hfits : FieldFits size src)
    (hroom : 2 * size ≤ dstMax + 1) :
    (Value.string (escapeJsonStr dstMax src)).read = readBack src := by
  change unescaped (escapeJsonStr dstMax src) = readBack src
  rw [escapeJsonStr_eq hfits hroom]
  rfl

theorem extract_text (h : DetailFits d) (i : Nat) {key : String} {src : Text} {size dstMax : Nat}
    (hm : (metaMembers d d.blurhash)[i]? = some (key, Value.string (escapeJsonStr dstMax src)))
    (hbefore : (metaKeys.take i).all (fun k => ascii k != ascii key) = true)
    (hfits : FieldFits size src) (hroom : 2 * size ≤ dstMax + 1) :
    extractJsonField (metaText d d.blurhash) key size = readBack src := by
  have hread := string_read hfits hroom
  have hshort := hfits.short
  have hlength := readBack_length hfits.zeroFree
  rw [<- hread]
  apply extract_metaText h i hm hbefore
  change (Value.string (escapeJsonStr dstMax src)).read.length < size
  rw [hread]
  omega

theorem extract_raw (h : DetailFits d) (i : Nat) {key : String} {text : Text} {size : Nat}
    (hm : (metaMembers d d.blurhash)[i]? = some (key, Value.string text))
    (hbefore : (metaKeys.take i).all (fun k => ascii k != ascii key) = true)
    (hfits : text.length < size ∧ PrintsRaw text) :
    extractJsonField (metaText d d.blurhash) key size = text := by
  have hread : (Value.string text).read = text := (escaped_of_plain hfits.2).2
  conv_rhs => rw [<- hread]
  apply extract_metaText h i hm hbefore
  change (Value.string text).read.length < size
  rw [hread]
  exact hfits.1

theorem digitsText_length {n : Nat} (hn : n < 2 ^ 64) : (digitsText n).length ≤ 20 := by
  unfold digitsText
  rw [List.length_map]
  exact (Nat.length_toDigits_le_iff (by decide) (by decide)).mpr (by omega)

theorem strtoull_digitsText {n : Nat} (hn : n < 2 ^ 64) : strtoull (digitsText n) = n := by
  have hdigits : forall b, b ∈ digitsText n -> isDigit b = true := fun b hb => digitsText_digit hb
  have hspace : (digitsText n).dropWhile isSpace = digitsText n := by
    cases htext : digitsText n with
    | nil => rfl
    | cons b rest =>
        rw [htext] at hdigits
        have hb := of_decide_eq_true (hdigits b List.mem_cons_self)
        apply List.dropWhile_cons_of_neg
        unfold isSpace
        rw [Bool.or_eq_true, beq_iff_eq, decide_eq_true_eq]
        rintro (rfl | hlow)
        · exact absurd hb (by decide)
        · omega
  have hhead : forall c : UInt8, isDigit c = false -> ((digitsText n).head? == some c) = false := by
    intro c hc
    apply beq_false_of_ne
    intro hhead
    exact isDigit_ne (hdigits c (List.mem_of_mem_head? hhead)) hc rfl
  have hall : (digitsText n).takeWhile isDigit = digitsText n :=
    List.takeWhile_eq_self_iff.mpr hdigits
  unfold strtoull
  dsimp only
  rw [hspace, hhead 45 (by decide), hhead 43 (by decide), Bool.or_false,
    if_neg Bool.false_ne_true, hall, digitsValue_digitsText, if_neg (by omega),
    if_neg Bool.false_ne_true]

theorem extract_number (h : DetailFits d) (i : Nat) {key : String} {n : Nat}
    (hm : (metaMembers d d.blurhash)[i]? = some (key, Value.bare (digitsText n)))
    (hbefore : (metaKeys.take i).all (fun k => ascii k != ascii key) = true) (hn : n < 2 ^ 64) :
    extractJsonField (metaText d d.blurhash) key 512 = digitsText n := by
  have hlength := digitsText_length hn
  apply extract_metaText h i hm hbefore
  change (digitsText n).length < 512
  omega

theorem read_number (h : DetailFits d) (i : Nat) {key : String} {n : Nat}
    (hm : (metaMembers d d.blurhash)[i]? = some (key, Value.bare (digitsText n)))
    (hbefore : (metaKeys.take i).all (fun k => ascii k != ascii key) = true) (hn : n < 2 ^ 64)
    (default : Nat) : numberField (metaText d d.blurhash) key default = n := by
  unfold numberField
  dsimp only
  rw [extract_number h i hm hbefore hn, if_pos (number_fine n).1, strtoull_digitsText hn]

theorem read_bool (h : DetailFits d) (i : Nat) {key : String} {b : Bool}
    (hm : (metaMembers d d.blurhash)[i]? = some (key, Value.bare (boolText b)))
    (hbefore : (metaKeys.take i).all (fun k => ascii k != ascii key) = true) :
    isTrueText (extractJsonField (metaText d d.blurhash) key 512) = b := by
  have hlength : (boolText b).length < 512 := by
    cases b with
    | false => decide
    | true => decide
  have hread : extractJsonField (metaText d d.blurhash) key 512 = boolText b :=
    extract_metaText h i hm hbefore hlength
  rw [hread]
  cases b with
  | false => decide
  | true => decide

theorem pkgTypeOf_code (pkgType : PkgType) : pkgTypeOf (pkgTypeCode pkgType) = pkgType := by
  cases pkgType <;> rfl

theorem pkgTypeCode_lt (pkgType : PkgType) : pkgTypeCode pkgType < 4 := by
  cases pkgType <;> decide

theorem atoi_digitsText {n : Nat} (hn : n < 2 ^ 31) : atoi (digitsText n) = n := by
  rw [atoi_digits (fun b hb => digitsText_digit hb), digitsValue_digitsText]
  rw [digitsValue_digitsText]
  exact hn

end Fields

/-!
# The record
-/

/-- The record that is read back: every text as it was escaped. -/
def readBackDetail (d : PkgDetail) : PkgDetail :=
  { d with
    path := []
    filename := []
    titleId := readBack d.titleId
    titleName := readBack d.titleName
    localizedTitles := readBack d.localizedTitles
    defaultLanguage := readBack d.defaultLanguage
    contentId := readBack d.contentId
    appVersion := readBack d.appVersion
    totalPkgSize := if 0 < d.totalPkgSize then d.totalPkgSize else d.fileSize
    isValid := false
    pkgTypeStr := readBack d.pkgTypeStr
    category := readBack d.category }

theorem readMeta_metaText {d : PkgDetail} (h : DetailFits d) :
    readMeta (metaText d d.blurhash) = readBackDetail d := by
  have htype := pkgTypeCode_lt d.pkgType
  have hsize := h.fileSize
  have hicon := h.iconSize
  have hpart := h.partIndex
  have htotal := h.totalParts
  have hpkgTotal : (if 0 < d.totalPkgSize then d.totalPkgSize else d.fileSize) < 2 ^ 64 := by
    split
    · exact h.totalPkgSize
    · exact hsize
  have htypeField : typeField (metaText d d.blurhash) = d.pkgType := by
    have hextract := extract_number h 14 rfl (by decide)
      (show pkgTypeCode d.pkgType < 2 ^ 64 by omega)
    unfold typeField
    dsimp only
    rw [hextract, if_pos (number_fine _).1, atoi_digitsText (by omega), pkgTypeOf_code]
  unfold readMeta readBackDetail
  rw [extract_text h 0 rfl (by decide) h.titleId (by decide),
    extract_text h 1 rfl (by decide) h.titleName (by decide),
    extract_text h 2 rfl (by decide) h.localizedTitles (by decide),
    extract_text h 3 rfl (by decide) h.defaultLanguage (by decide),
    extract_text h 4 rfl (by decide) h.contentId (by decide),
    extract_text h 5 rfl (by decide) h.appVersion (by decide),
    read_number h 7 rfl (by decide) hpkgTotal,
    read_number h 6 rfl (by decide) hsize,
    read_number h 8 rfl (by decide) h.iconOffset,
    read_number h 9 rfl (by decide) (by omega),
    read_bool h 10 rfl (by decide), read_bool h 11 rfl (by decide),
    read_number h 12 rfl (by decide) (by omega),
    read_number h 13 rfl (by decide) (by omega), htypeField,
    extract_text h 15 rfl (by decide) h.pkgTypeStr (by decide),
    extract_text h 16 rfl (by decide) h.category (by decide),
    read_number h 17 rfl (by decide) h.mtime,
    extract_raw h 18 rfl (by decide) h.blurhash,
    extract_raw h 19 rfl (by decide) h.platform,
    Nat.mod_eq_of_lt hicon, Nat.mod_eq_of_lt hpart, Nat.mod_eq_of_lt htotal]

/-!
# The size of the text
-/

/-- A bound on the text of the value. -/
def WithinBound (m : String × Value) (bound : Nat) : Prop :=
  m.2.text.length ≤ bound

theorem memberLines_length {members : List (String × Value)} {bounds : List Nat}
    (hkeys : forall m, m ∈ members -> (ascii m.1).length ≤ 16)
    (h : List.Forall₂ WithinBound members bounds) :
    (memberLines members).length ≤ 2 + (bounds.map (fun n => n + 24)).sum := by
  have hend : forall rest : List (String × Value), (lineEnd rest).length ≤ 2 := by
    intro rest
    unfold lineEnd
    split <;> decide
  have hspaces : (ascii "  ").length = 2 := by decide
  have hcolon : (ascii ": ").length = 2 := by decide
  induction h with
  | nil => decide
  | @cons m bound rest bounds hm _ ih =>
      rcases m with ⟨key, value⟩
      have hlast := hend rest
      have hkey : (ascii key).length ≤ 16 := hkeys _ List.mem_cons_self
      have hvalue : value.text.length ≤ bound := hm
      have hrest := ih (fun x hx => hkeys x (List.mem_cons_of_mem _ hx))
      have hquoted : (quoted key).length = (ascii key).length + 2 := by
        unfold quoted
        rw [List.length_cons, List.length_append, List.length_singleton]
      rw [memberLines, List.map_cons, List.sum_cons, List.length_append, List.length_append,
        List.length_append, List.length_append, List.length_append, hspaces, hcolon, hquoted]
      omega

theorem string_length {src : Text} {size dstMax : Nat} (h : FieldFits size src)
    (hroom : 2 * size ≤ dstMax + 1) :
    (Value.string (escapeJsonStr dstMax src)).text.length ≤ 2 * size := by
  have hlength := flatMap_length src
  have hshort := h.short
  change (quote :: (escapeJsonStr dstMax src ++ [quote])).length ≤ 2 * size
  rw [List.length_cons, List.length_append, List.length_singleton, escapeJsonStr_eq h hroom]
  omega

theorem raw_length {text : Text} {size : Nat} (h : text.length < size) :
    (Value.string text).text.length ≤ size + 1 := by
  change (quote :: (text ++ [quote])).length ≤ size + 1
  rw [List.length_cons, List.length_append, List.length_singleton]
  omega

theorem boolText_length (b : Bool) : (boolText b).length ≤ 5 := by
  cases b with
  | false => decide
  | true => decide

/-- The most that the values take. -/
def metaBounds : List Nat :=
  [64, 512, 4096, 64, 128, 64, 20, 20, 20, 20, 5, 5, 20, 20, 20, 32, 32, 20, 65, 9, 20]

theorem metaMembers_bounded {d : PkgDetail} (h : DetailFits d) :
    List.Forall₂ WithinBound (metaMembers d d.blurhash) metaBounds := by
  have hpkgTotal : (if 0 < d.totalPkgSize then d.totalPkgSize else d.fileSize) < 2 ^ 64 := by
    split
    · exact h.totalPkgSize
    · exact h.fileSize
  have hicon : d.iconSize < 2 ^ 64 := Nat.lt_trans h.iconSize (by decide)
  have hpart : d.partIndex < 2 ^ 64 := Nat.lt_trans h.partIndex (by decide)
  have htotal : d.totalParts < 2 ^ 64 := Nat.lt_trans h.totalParts (by decide)
  have htype : pkgTypeCode d.pkgType < 2 ^ 64 :=
    Nat.lt_trans (pkgTypeCode_lt d.pkgType) (by decide)
  unfold metaMembers metaBounds
  refine .cons (string_length h.titleId (by decide)) ?_
  refine .cons (string_length h.titleName (by decide)) ?_
  refine .cons (string_length h.localizedTitles (by decide)) ?_
  refine .cons (string_length h.defaultLanguage (by decide)) ?_
  refine .cons (string_length h.contentId (by decide)) ?_
  refine .cons (string_length h.appVersion (by decide)) ?_
  refine .cons (digitsText_length h.fileSize) ?_
  refine .cons (digitsText_length hpkgTotal) ?_
  refine .cons (digitsText_length h.iconOffset) ?_
  refine .cons (digitsText_length hicon) ?_
  refine .cons (boolText_length d.hasIcon) ?_
  refine .cons (boolText_length d.isMultipart) ?_
  refine .cons (digitsText_length hpart) ?_
  refine .cons (digitsText_length htotal) ?_
  refine .cons (digitsText_length htype) ?_
  refine .cons (string_length h.pkgTypeStr (by decide)) ?_
  refine .cons (string_length h.category (by decide)) ?_
  refine .cons (digitsText_length h.mtime) ?_
  refine .cons (raw_length h.blurhash.1) ?_
  refine .cons (raw_length h.platform.1) ?_
  exact .cons (digitsText_length (by decide)) .nil

/-- The text fits the buffer of the reader. -/
theorem metaText_length {d : PkgDetail} (h : DetailFits d) :
    (metaText d d.blurhash).length < 8191 := by
  have hshort : metaKeys.all (fun key => decide ((ascii key).length ≤ 16)) = true := by
    decide
  have hkeys : forall m, m ∈ metaMembers d d.blurhash -> (ascii m.1).length ≤ 16 := by
    intro m hm
    apply of_decide_eq_true (List.all_eq_true.mp hshort m.1 _)
    rw [<- metaMembers_keys d d.blurhash]
    exact List.mem_map_of_mem hm
  have hlines := memberLines_length hkeys (metaMembers_bounded h)
  have hbounds : (metaBounds.map (fun n => n + 24)).sum < 8000 := by decide
  have hopen : (ascii "\x7b\n").length = 2 := by decide
  unfold metaText document
  rw [List.length_append]
  omega

/-!
# The two calls
-/

/-- The record that a lookup is to return. -/
def persisted (d : PkgDetail) (iconFile : Bool) : PkgDetail :=
  { d with
    path := []
    filename := []
    totalPkgSize := if 0 < d.totalPkgSize then d.totalPkgSize else d.fileSize
    hasIcon := d.hasIcon || iconFile
    isValid := true }

/-- Whatever was in the cache before, the lookup after an update returns the record. -/
def MetaRoundTrips (cacheDir checksum : Text) (d : PkgDetail) : Prop :=
  forall steps disk disk', pkgCacheUpdateMeta steps cacheDir disk checksum d = (0, disk') ->
    isPlaceholder d = true ∨
      pkgCacheLookup cacheDir disk' checksum =
        some (persisted d (hasIconFile disk' cacheDir checksum))

def metaPath (cacheDir checksum : Text) : Text :=
  cacheDir ++ ascii "/" ++ checksum ++ ascii "/meta.json"

structure NoControlBytes (d : PkgDetail) : Prop where
  titleId : NoControl d.titleId
  titleName : NoControl d.titleName
  localizedTitles : NoControl d.localizedTitles
  defaultLanguage : NoControl d.defaultLanguage
  contentId : NoControl d.contentId
  appVersion : NoControl d.appVersion
  pkgTypeStr : NoControl d.pkgTypeStr
  category : NoControl d.category

theorem update_disk {steps : MetaSteps} {cacheDir checksum : Text} {disk disk' : CacheDisk}
    {d : PkgDetail} (h : pkgCacheUpdateMeta steps cacheDir disk checksum d = (0, disk')) :
    disk' = (disk.put ((entryDir cacheDir checksum ++ ascii "/meta.json.tmp").take 2047) none).put
      ((entryDir cacheDir checksum ++ ascii "/meta.json").take 2047)
      (some (metaText d d.blurhash)) := by
  unfold pkgCacheUpdateMeta writeMetaJson at h
  dsimp only at h
  split at h
  · cases h
  · split at h
    · cases h
    · split at h
      · cases h
      · cases h
        rfl

/-- The path that is written. -/
theorem written_path {cacheDir checksum : Text} (hfits : (metaPath cacheDir checksum).length < 1024) :
    (entryDir cacheDir checksum ++ ascii "/meta.json").take 2047 = metaPath cacheDir checksum := by
  unfold metaPath at hfits ⊢
  have hdir : entryDir cacheDir checksum = cacheDir ++ ascii "/" ++ checksum := by
    rw [List.length_append] at hfits
    exact List.take_of_length_le (by omega)
  rw [hdir, List.take_of_length_le (by omega)]

/-- A path that does not fit is cut by the reader, and nothing is written there. -/
theorem cut_path {cacheDir checksum : Text} (hlong : 1024 ≤ (metaPath cacheDir checksum).length) :
    (metaPath cacheDir checksum).take 1023 ≠
      (entryDir cacheDir checksum ++ ascii "/meta.json").take 2047 := by
  intro heq
  have hlength := congrArg List.length heq
  have hname : (ascii "/meta.json").length = 10 := by decide
  unfold metaPath at hlong hlength
  unfold entryDir at hlength
  generalize cacheDir ++ ascii "/" ++ checksum = base at hlong hlength
  rw [List.length_append, hname] at hlong
  rw [List.length_take, List.length_take, List.length_append, List.length_append,
    List.length_take, hname] at hlength
  omega

/-- The lookup of the text that was written. -/
theorem lookup_metaText {cacheDir checksum : Text} {disk : CacheDisk} {d : PkgDetail}
    (h : DetailFits d)
    (hfile : disk.file ((metaPath cacheDir checksum).take 1023) = some (metaText d d.blurhash)) :
    pkgCacheLookup cacheDir disk checksum =
      if isPlaceholder (readBackDetail d) then none
      else some { readBackDetail d with
        hasIcon := d.hasIcon || hasIconFile disk cacheDir checksum
        isValid := true } := by
  have hlength := metaText_length h
  have hne : metaText d d.blurhash ≠ [] := by
    unfold metaText document
    intro heq
    cases heq
  have hrules : atoi (extractJsonField (metaText d d.blurhash) "x_rules" 512) = pkgCacheXRules := by
    rw [extract_number h 20 rfl (by decide) (by decide)]
    exact atoi_digitsText (by decide)
  have hbuf : ¬ (8191 ≤ (metaText d d.blurhash).length ∨ metaText d d.blurhash = []) := by
    intro hbad
    rcases hbad with hlong | hempty
    · omega
    · exact hne hempty
  unfold metaPath at hfile
  unfold pkgCacheLookup
  rw [hfile]
  dsimp only
  rw [if_neg hbuf, hrules, if_neg (by simp), readMeta_metaText h]
  cases hasIconFile disk cacheDir checksum with
  | false =>
      rw [if_neg Bool.false_ne_true, Bool.or_false]
      rfl
  | true =>
      rw [if_pos rfl, Bool.or_true]
      rfl

theorem readBackDetail_eq {d : PkgDetail} (h : DetailFits d) (hclean : NoControlBytes d) :
    readBackDetail d = { persisted d false with isValid := false } := by
  unfold readBackDetail persisted
  rw [readBack_of_noControl h.titleId.zeroFree hclean.titleId,
    readBack_of_noControl h.titleName.zeroFree hclean.titleName,
    readBack_of_noControl h.localizedTitles.zeroFree hclean.localizedTitles,
    readBack_of_noControl h.defaultLanguage.zeroFree hclean.defaultLanguage,
    readBack_of_noControl h.contentId.zeroFree hclean.contentId,
    readBack_of_noControl h.appVersion.zeroFree hclean.appVersion,
    readBack_of_noControl h.pkgTypeStr.zeroFree hclean.pkgTypeStr,
    readBack_of_noControl h.category.zeroFree hclean.category, Bool.or_false]

theorem noControlBytes_of_eq {d : PkgDetail} (h : DetailFits d) {icon iconFile : Bool}
    (heq : { readBackDetail d with hasIcon := icon, isValid := true } = persisted d iconFile) :
    NoControlBytes d where
  titleId := (readBack_eq_iff h.titleId.zeroFree).mp (congrArg PkgDetail.titleId heq)
  titleName := (readBack_eq_iff h.titleName.zeroFree).mp (congrArg PkgDetail.titleName heq)
  localizedTitles :=
    (readBack_eq_iff h.localizedTitles.zeroFree).mp (congrArg PkgDetail.localizedTitles heq)
  defaultLanguage :=
    (readBack_eq_iff h.defaultLanguage.zeroFree).mp (congrArg PkgDetail.defaultLanguage heq)
  contentId := (readBack_eq_iff h.contentId.zeroFree).mp (congrArg PkgDetail.contentId heq)
  appVersion := (readBack_eq_iff h.appVersion.zeroFree).mp (congrArg PkgDetail.appVersion heq)
  pkgTypeStr := (readBack_eq_iff h.pkgTypeStr.zeroFree).mp (congrArg PkgDetail.pkgTypeStr heq)
  category := (readBack_eq_iff h.category.zeroFree).mp (congrArg PkgDetail.category heq)

theorem metaRoundTrips_of {d : PkgDetail} (h : DetailFits d) {cacheDir checksum : Text}
    (hfits : (metaPath cacheDir checksum).length < 1024) (hclean : NoControlBytes d) :
    MetaRoundTrips cacheDir checksum d := by
  intro steps disk disk' hupdate
  cases hplaceholder : isPlaceholder d with
  | true => exact Or.inl rfl
  | false =>
      right
      have hfile : disk'.file ((metaPath cacheDir checksum).take 1023) =
          some (metaText d d.blurhash) := by
        have hwhole : (metaPath cacheDir checksum).take 1023 = metaPath cacheDir checksum :=
          List.take_of_length_le (by omega)
        rw [update_disk hupdate, written_path hfits, hwhole]
        exact if_pos rfl
      have hback := readBackDetail_eq h hclean
      have hsame : isPlaceholder (readBackDetail d) = isPlaceholder d := by
        rw [hback]
        rfl
      rw [lookup_metaText h hfile, hsame, hplaceholder, if_neg Bool.false_ne_true, hback]
      rfl

/-- Every step succeeds, on an empty cache. -/
theorem roundTrip_empty {d : PkgDetail} {cacheDir checksum : Text}
    (hplaceholder : isPlaceholder d = false) (hround : MetaRoundTrips cacheDir checksum d) :
    exists disk' : CacheDisk,
      disk'.file = (fun p =>
        if p = (entryDir cacheDir checksum ++ ascii "/meta.json").take 2047 then
          some (metaText d d.blurhash)
        else none) ∧
      pkgCacheLookup cacheDir disk' checksum =
        some (persisted d (hasIconFile disk' cacheDir checksum)) := by
  rcases hround ⟨true, true, true, true⟩ ⟨fun _ => none⟩ _ rfl with hbad | hlookup
  · rw [hplaceholder] at hbad
    cases hbad
  · refine ⟨_, ?_, hlookup⟩
    funext p
    change (if p = _ then _ else if p = _ then none else none) = _
    rw [ite_self]

/-- The metadata come back exactly when no text holds a control byte and the path is not cut. -/
theorem metaRoundTrips_iff {d : PkgDetail} (h : DetailFits d) (cacheDir checksum : Text) :
    MetaRoundTrips cacheDir checksum d ↔
      isPlaceholder d = true ∨
        ((metaPath cacheDir checksum).length < 1024 ∧ NoControlBytes d) := by
  constructor
  · intro hround
    cases hplaceholder : isPlaceholder d with
    | true => exact Or.inl rfl
    | false =>
        right
        rcases roundTrip_empty hplaceholder hround with ⟨disk', hdisk, hlookup⟩
        rcases Nat.lt_or_ge (metaPath cacheDir checksum).length 1024 with hfits | hlong
        · have hfile : disk'.file ((metaPath cacheDir checksum).take 1023) =
              some (metaText d d.blurhash) := by
            have hwhole : (metaPath cacheDir checksum).take 1023 = metaPath cacheDir checksum :=
              List.take_of_length_le (by omega)
            rw [hdisk]
            dsimp only
            rw [written_path hfits, hwhole, if_pos rfl]
          rw [lookup_metaText h hfile] at hlookup
          split at hlookup
          · cases hlookup
          · exact ⟨hfits, noControlBytes_of_eq h (Option.some.inj hlookup)⟩
        · have hnone : disk'.file ((metaPath cacheDir checksum).take 1023) = none := by
            rw [hdisk]
            exact if_neg (cut_path hlong)
          unfold metaPath at hnone
          unfold pkgCacheLookup at hlookup
          rw [hnone] at hlookup
          cases hlookup
  · intro hcond
    rcases hcond with hplaceholder | ⟨hfits, hclean⟩
    · intro _ _ _ _
      exact Or.inl hplaceholder
    · exact metaRoundTrips_of h hfits hclean

end Cache
end PkgManager

/-!
# Parsed records in the cache

A record that a parser returns is written to the cache and looked up again.
-/

namespace PkgManager
namespace Cache

open Callback
open CString
open PkgManager.Parser
open PkgManager.Smb

/-- The parser of local files, of HTTP sources and of shares.  A session of an empty remote
file yields no bytes, so nothing is returned for it. -/
inductive ParserReturns (d : PkgDetail) : Prop where
  | file (path : Text) (mtime : Nat) (file : List UInt8) (hmtime : mtime < 2 ^ 64)
      (hsize : file.length < 2 ^ 63) (hparse : pkgParserParse path mtime file = some d)
  | http (σ : Type) (rd : ReadFn σ) (s : σ) (fileSize : Nat) (path : Option Text)
      (hknown : 0 < fileSize) (hsize : fileSize < 2 ^ 63)
      (hparse : ((pkgParseReader rd fileSize path).run s).1 = some d)
  | smb (σ : Type) (rd : ReadFn σ) (s : σ) (url : Text) (fileSize mtime : Nat)
      (hknown : 0 < fileSize) (hsize : fileSize < 2 ^ 63) (hmtime : mtime < 2 ^ 64)
      (hparse : ((smbClientParsePkg rd url fileSize mtime).run s).1 = some d)

theorem parserReturns_fits {d : PkgDetail} (h : ParserReturns d) : DetailFits d := by
  cases h with
  | file path mtime file hmtime hsize hparse => exact pkgParserParse_fits hmtime hsize hparse
  | http σ rd s fileSize path hknown hsize hparse =>
      exact pkgParseReader_fits rd hknown hsize path s d hparse
  | smb σ rd s url fileSize mtime hknown hsize hmtime hparse =>
      exact smbClientParsePkg_fits rd url hknown hsize hmtime s d hparse

/-- A parsed record comes back from the cache exactly when none of its texts holds a control
byte and the reader does not cut the path. -/
theorem pkgCacheLookup_parsed_iff {d : PkgDetail} (h : ParserReturns d)
    (cacheDir checksum : Text) :
    MetaRoundTrips cacheDir checksum d ↔
      isPlaceholder d = true ∨
        ((metaPath cacheDir checksum).length < 1024 ∧ NoControlBytes d) :=
  metaRoundTrips_iff (parserReturns_fits h) cacheDir checksum

instance (d : PkgDetail) : Decidable (NoControlBytes d) :=
  decidable_of_iff
    (NoControl d.titleId ∧ NoControl d.titleName ∧ NoControl d.localizedTitles ∧
      NoControl d.defaultLanguage ∧ NoControl d.contentId ∧ NoControl d.appVersion ∧
      NoControl d.pkgTypeStr ∧ NoControl d.category)
    ⟨fun ⟨h1, h2, h3, h4, h5, h6, h7, h8⟩ => ⟨h1, h2, h3, h4, h5, h6, h7, h8⟩,
      fun h => ⟨h.titleId, h.titleName, h.localizedTitles, h.defaultLanguage, h.contentId,
        h.appVersion, h.pkgTypeStr, h.category⟩⟩

/-!
# Two titles
-/

/-- A package whose param.json holds a title. -/
def titleFile (title : Text) : List UInt8 :=
  cntFile 1 [(0x2000, 0, quoted "titleName" ++ ascii ":" ++ [quote] ++ title ++ [quote])]

theorem titleFile_parsed {title : Text} {d : PkgDetail}
    (hsize : (titleFile title).length < 2 ^ 63)
    (hparse : pkgParserParse [] 0 (titleFile title) = some d) : ParserReturns d :=
  ParserReturns.file [] 0 (titleFile title) (by decide) hsize hparse

theorem pkgCacheLookup_parsed_example :
    exists d, pkgParserParse [] 0 (titleFile (ascii "Title")) = some d ∧
      MetaRoundTrips (ascii "cache") (ascii "00ff") d := by
  have hclean : (pkgParserParse [] 0 (titleFile (ascii "Title"))).any
      (fun d => decide (NoControlBytes d)) = true := by
    decide +kernel
  rcases (Option.any_eq_true _ _).mp hclean with ⟨d, hparse, hd⟩
  exact ⟨d, hparse,
    (pkgCacheLookup_parsed_iff (titleFile_parsed (by decide +kernel) hparse) (ascii "cache")
      (ascii "00ff")).mpr (Or.inr ⟨by decide, of_decide_eq_true hd⟩)⟩

/-- A line break in the title is read back as a letter. -/
theorem line_break_lost :
    ¬ forall d, ParserReturns d -> forall cacheDir checksum, MetaRoundTrips cacheDir checksum d := by
  intro h
  have hbroken : (pkgParserParse [] 0 (titleFile (ascii "A\nB"))).any
      (fun d => !isPlaceholder d && !decide (NoControlBytes d)) = true := by
    decide +kernel
  rcases (Option.any_eq_true _ _).mp hbroken with ⟨d, hparse, hd⟩
  rcases Bool.and_eq_true_iff.mp hd with ⟨hplaceholder, hcontrol⟩
  have hparsed := titleFile_parsed (by decide +kernel) hparse
  have hround := h d hparsed [] []
  rcases (metaRoundTrips_iff (parserReturns_fits hparsed) [] []).mp hround with htrue | ⟨_, hclean⟩
  · rw [htrue] at hplaceholder
    cases hplaceholder
  · rw [decide_eq_true hclean] at hcontrol
    cases hcontrol

end Cache
end PkgManager
