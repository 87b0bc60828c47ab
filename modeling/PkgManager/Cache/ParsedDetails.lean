import PkgManager.Bytes.Callback
import PkgManager.Cache.ParsedTexts
import PkgManager.Smb.Parse

/-!
# The records that the parsers return

Each parser starts from a record that fits and keeps it so, whatever the bytes are that it
reads.
-/

namespace PkgManager
namespace Cache

open Callback
open CString
open Endian
open Outcomes
open Outcomes.Postconditions
open PkgManager.Parser
open PkgManager.Multipart
open PkgManager.Smb

/-!
# The walk
-/

/-- The size of the file is known. -/
structure WalkFits (w : Walk) : Prop where
  detail : DetailFits w.detail
  known : 0 < w.detail.fileSize

theorem DetailFits.texts {d : PkgDetail} (h : DetailFits d) : TextsFit d.texts where
  titleId := h.titleId
  titleName := h.titleName
  category := h.category
  version := h.appVersion
  localizedTitles := h.localizedTitles
  defaultLang := h.defaultLanguage

theorem DetailFits.withTexts {d : PkgDetail} (h : DetailFits d) {t : ParamTexts}
    (ht : TextsFit t) : DetailFits (d.withTexts t) :=
  { h with
    titleId := ht.titleId
    titleName := ht.titleName
    localizedTitles := ht.localizedTitles
    defaultLanguage := ht.defaultLang
    appVersion := ht.version
    category := ht.category }

theorem platform_fits {name : String} (h : name = "ps4" ∨ name = "ps5") :
    (ascii name).length < 8 ∧ PrintsRaw (ascii name) := by
  rcases h with rfl | rfl
  · exact ⟨by decide +kernel, by unfold PrintsRaw; decide +kernel⟩
  · exact ⟨by decide +kernel, by unfold PrintsRaw; decide +kernel⟩

theorem notePlatformHeader_fits (hdr : List UInt8) {d : PkgDetail} (h : DetailFits d) :
    DetailFits (notePlatformHeader hdr d) := by
  unfold notePlatformHeader
  split
  · exact { h with platform := platform_fits (Or.inr rfl) }
  · exact h

theorem notePlatformHeader_fileSize (hdr : List UInt8) (d : PkgDetail) :
    (notePlatformHeader hdr d).fileSize = d.fileSize := by
  unfold notePlatformHeader
  split
  · rfl
  · rfl

theorem notePlatformParamSfo_fits {d : PkgDetail} (h : DetailFits d) :
    DetailFits (notePlatformParamSfo d) := by
  unfold notePlatformParamSfo
  split
  · exact { h with platform := platform_fits (Or.inl rfl) }
  · exact h

theorem notePlatformParamSfo_fileSize (d : PkgDetail) :
    (notePlatformParamSfo d).fileSize = d.fileSize := by
  unfold notePlatformParamSfo
  split
  · rfl
  · rfl

theorem noteMarkers_fits (e : PkgEntry) (name : Text) {w : Walk} (h : WalkFits w) :
    WalkFits (noteMarkers e name w) where
  detail := h.detail
  known := h.known

theorem noteParamJson_fits (hasKey : List UInt8 -> Bool) (json : List UInt8) {w : Walk}
    (h : WalkFits w) : WalkFits (noteParamJson hasKey json w) where
  detail := by
    have hplatform : DetailFits (notePlatformParamJson w.detail) :=
      { h.detail with platform := platform_fits (Or.inr rfl) }
    exact hplatform.withTexts (parseParamJson_fits json hplatform.texts)
  known := h.known

theorem noteSfoTexts_fits (sfo : List UInt8) {d : PkgDetail} (hd : DetailFits d)
    (hknown : 0 < d.fileSize) (w : Walk) : WalkFits (noteSfoTexts sfo d w) where
  detail := by
    have hout : TextsFit { ParamTexts.empty with
        localizedTitles := d.localizedTitles, defaultLang := d.defaultLanguage } :=
      { textsFit_empty with
        localizedTitles := hd.localizedTitles, defaultLang := hd.defaultLanguage }
    have hs := parseParamSfo_fits sfo hout
    exact
      { hd with
        localizedTitles := hs.localizedTitles
        defaultLanguage := hs.defaultLang
        category := fits_ite (fun _ => hs.category) hd.category
        titleId := fits_ite (fun _ => hs.titleId) hd.titleId
        titleName := fits_ite (fun _ => hs.titleName) hd.titleName
        appVersion := fits_ite (fun _ => hs.version) hd.appVersion }
  known := hknown

theorem noteParamSfo_fits (sfo : List UInt8) {w : Walk} (h : WalkFits w) :
    WalkFits (noteParamSfo sfo w) := by
  apply noteSfoTexts_fits sfo (notePlatformParamSfo_fits h.detail)
  rw [notePlatformParamSfo_fileSize]
  exact h.known

theorem noteIcon_fits (cntOffset : Nat) (e : PkgEntry) (name : Text) {w : Walk}
    (h : WalkFits w) : WalkFits (noteIcon cntOffset e name w) := by
  have hsize := h.detail.fileSize
  have hknown := h.known
  unfold noteIcon
  dsimp only
  split
  · rename_i hicon
    rcases hicon with ⟨_, _, hsmall, hfits⟩
    exact
      { detail :=
          { h.detail with
            iconOffset := by
              dsimp only
              omega
            iconSize := by
              dsimp only
              omega }
        known := hknown }
  · exact h

theorem noteSmbIcon_fits {cntOffset : Nat} (hcnt : cntOffset < 2 ^ 63) {e : PkgEntry}
    (he : e.dataOff < 2 ^ 32 ∧ e.dataSz < 2 ^ 32) (name : Text) {w : Walk} (h : WalkFits w) :
    WalkFits (noteSmbIcon cntOffset e name w) := by
  unfold noteSmbIcon
  split
  · exact
      { detail :=
          { h.detail with
            iconOffset := by
              dsimp only
              omega
            iconSize := he.2 }
        known := h.known }
  · exact h

theorem typeText_fits (pkgType : PkgType) : FieldFits 16 (typeText pkgType) := by
  cases pkgType with
  | unknown => exact ⟨zeroFree_of_all rfl, by decide⟩
  | base => exact ⟨zeroFree_of_all rfl, by decide⟩
  | update => exact ⟨zeroFree_of_all rfl, by decide⟩
  | dlc => exact ⟨zeroFree_of_all rfl, by decide⟩

theorem strchr_zeroFree {c : UInt8} {text found : Text} (h : ZeroFree text)
    (hfound : strchr c text = some found) : ZeroFree found :=
  fun b hb => h b ((strchr_suffix hfound).subset hb)

theorem titleIdFromContent_fits {contentId : Text} (h : ZeroFree contentId) :
    FieldFits titleIdLen (titleIdFromContent contentId) := by
  have hempty : FieldFits titleIdLen [] := fits_nil (by decide)
  unfold titleIdFromContent
  split
  · exact hempty
  · rename_i dash hdash
    split
    · exact hempty
    · rename_i us _
      dsimp only
      split
      · rename_i hlen
        have hrest : ZeroFree (dash.drop 1) :=
          fun b hb => strchr_zeroFree h hdash b (List.mem_of_mem_drop hb)
        exact
          { zeroFree := zeroFree_take hrest _
            short := by
              rw [List.length_take]
              omega }
      · exact hempty

theorem completeTitles_fits {d : PkgDetail} (h : DetailFits d) : DetailFits (completeTitles d) := by
  have hid : FieldFits titleIdLen
      (if d.titleId = [] ∧ d.contentId ≠ [] then titleIdFromContent d.contentId else d.titleId) :=
    fits_ite (fun _ => titleIdFromContent_fits h.contentId.zeroFree) h.titleId
  have hunknown : FieldFits titleNameLen (ascii "Unknown Package") :=
    ⟨zeroFree_of_all rfl, by decide⟩
  exact
    { h with
      titleId := hid
      titleName := fits_ite
        (fun _ => fits_ite (fun _ => hid.mono (by decide)) hunknown) h.titleName }

theorem finishDetail_fits (cntTypeMagic : Nat) {w : Walk} (h : WalkFits w) :
    DetailFits (finishDetail cntTypeMagic w) := by
  have htyped : DetailFits
      { w.detail with
        pkgType := decideType cntTypeMagic w
        pkgTypeStr := typeText (decideType cntTypeMagic w) } :=
    { h.detail with pkgTypeStr := typeText_fits _ }
  exact { completeTitles_fits htyped with }

/-!
# Packages
-/

theorem contentIdText_fits {bytes : List UInt8} (h : bytes.length ≤ 48) :
    FieldFits 64 (contentIdText bytes) where
  zeroFree := by
    intro b hb
    unfold contentIdText at hb
    have hprint := List.mem_takeWhile_imp hb
    rintro rfl
    exact absurd hprint (by decide)
  short := Nat.lt_of_le_of_lt ((List.takeWhile_prefix _).length_le.trans h) (by decide)

theorem bytesAt_length (bytes : List UInt8) (off count : Nat) :
    (bytesAt bytes off count).length ≤ count :=
  List.length_take_le _ _

theorem be32At_lt (bytes : List UInt8) (off : Nat) : be32At bytes off < 2 ^ 32 := by
  have hbytes := ofBigEndian_lt (bytesAt bytes off 4)
  have hpow : 256 ^ (bytesAt bytes off 4).length ≤ 256 ^ 4 :=
    Nat.pow_le_pow_right (by decide) (bytesAt_length bytes off 4)
  unfold be32At
  omega

theorem pkgEntries_fit {table : List UInt8} {entryCount : Nat} {e : PkgEntry}
    (h : e ∈ pkgEntries table entryCount) : e.dataOff < 2 ^ 32 ∧ e.dataSz < 2 ^ 32 := by
  rcases List.mem_map.mp h with ⟨i, _, rfl⟩
  exact ⟨be32At_lt _ _, be32At_lt _ _⟩

section Reads
variable {m : Type -> Type} [Monad m] [Postconditions m]
variable (read : Nat -> Nat -> m (Option (List UInt8)))

/-- The package stands at the start of the file or below the bound. -/
def PlaceFits (below : Nat -> Bool) (found : Option Nat) : Prop :=
  forall cand, found = some cand -> cand = 0 ∨ below cand = true

theorem placeFits_none (below : Nat -> Bool) : PlaceFits below none := by
  intro cand hcand
  cases hcand

theorem placeFits_below {below : Nat -> Bool} {cand : Nat} (h : below cand = true) :
    PlaceFits below (some cand) := by
  intro _ hcand
  cases hcand
  exact Or.inr h

theorem scanFihTable_ensures (below : Nat -> Bool) (hdr : List UInt8) (offsets : List Nat) :
    Ensures (scanFihTable read below hdr offsets) (PlaceFits below) := by
  induction offsets with
  | nil => exact ensures_pure (placeFits_none below)
  | cons off rest ih =>
      unfold scanFihTable
      apply ensures_ite
      · intro hcond
        apply ensures_after
        intro isCnt
        cases isCnt with
        | true => exact ensures_pure (placeFits_below hcond.2.1)
        | false => exact ih
      · intro _
        exact ih

theorem findCnt_ensures (below : Nat -> Bool) (hdr : List UInt8) :
    Ensures (findCnt read below hdr) (PlaceFits below) := by
  have hscan := scanFihTable_ensures read below hdr (fihOffsets hdr.length)
  unfold findCnt
  apply ensures_ite
  · intro _
    apply ensures_pure
    intro cand hcand
    cases hcand
    exact Or.inl rfl
  · intro _
    apply ensures_ite
    · intro _
      apply ensures_ite
      · intro hcond
        apply ensures_after
        intro isCnt
        cases isCnt with
        | true => exact ensures_pure (placeFits_below hcond.2)
        | false => exact hscan
      · intro _
        apply ensures_bind (ensures_pure (P := fun found => found = false) rfl)
        rintro _ rfl
        exact hscan
    · intro _
      exact ensures_pure (placeFits_none below)

theorem readCntHeader_ensures (cntOffset : Nat) :
    Ensures (readCntHeader read cntOffset)
      (fun header => forall cnt, header = some cnt -> FieldFits 64 cnt.contentId) := by
  have hnone : Ensures (pure none : m (Option CntHeader))
      (fun header => forall cnt, header = some cnt -> FieldFits 64 cnt.contentId) := by
    apply ensures_pure
    intro cnt hcnt
    cases hcnt
  unfold readCntHeader
  apply ensures_after
  intro got
  cases got with
  | none => exact hnone
  | some bytes =>
      apply ensures_ite
      · intro _
        exact hnone
      · intro _
        apply ensures_ite
        · intro _
          exact hnone
        · intro _
          apply ensures_pure
          intro cnt hcnt
          cases hcnt
          exact contentIdText_fits (bytesAt_length bytes 0x40 48)

theorem noteJsonRead_fits (hasKey : List UInt8 -> Bool) {w : Walk} (h : WalkFits w)
    (got : Option (List UInt8)) : WalkFits (noteJsonRead hasKey w got) := by
  cases got with
  | none => exact h
  | some json => exact noteParamJson_fits hasKey json h

theorem noteSfoRead_fits {w : Walk} (h : WalkFits w) (got : Option (List UInt8)) :
    WalkFits (noteSfoRead w got) := by
  cases got with
  | none => exact h
  | some sfo => exact noteParamSfo_fits sfo h

theorem scanEntry_ensures (hasKey : List UInt8 -> Bool) (cntOffset : Nat) (e : PkgEntry)
    (name : Text) {w : Walk} (h : WalkFits w) :
    Ensures (scanEntry read hasKey cntOffset e name w) WalkFits := by
  unfold scanEntry
  apply ensures_after
  intro json
  apply ensures_after
  intro sfo
  apply ensures_pure
  exact noteIcon_fits cntOffset e name
    (noteSfoRead_fits (noteJsonRead_fits hasKey (noteMarkers_fits e name h) json) sfo)

theorem scanEntries_ensures (hasKey : List UInt8 -> Bool) (cntOffset : Nat)
    (strTable : Option (List UInt8)) (entries : List PkgEntry) {w : Walk} (h : WalkFits w) :
    Ensures (Parser.scanEntries read hasKey cntOffset strTable entries w) WalkFits := by
  induction entries generalizing w with
  | nil => exact ensures_pure h
  | cons e rest ih =>
      unfold Parser.scanEntries
      apply ensures_bind (scanEntry_ensures read hasKey cntOffset e (entryName strTable e) h)
      intro w' h'
      exact ih h'

theorem start_fits {d : PkgDetail} (h : DetailFits d) (hknown : 0 < d.fileSize)
    {contentId : Text} (hcontent : FieldFits 64 contentId) :
    WalkFits (Walk.start { d with contentId := contentId }) where
  detail := { h with contentId := hcontent }
  known := hknown

theorem parseTable_ensures (hasKey : List UInt8 -> Bool) (cntOffset : Nat) {cnt : CntHeader}
    (hcnt : FieldFits 64 cnt.contentId) (table : List UInt8) {d : PkgDetail} (h : DetailFits d)
    (hknown : 0 < d.fileSize) :
    Ensures (parseTable read hasKey cntOffset cnt table d) DetailFits := by
  unfold parseTable
  apply ensures_after
  intro strTable
  apply ensures_bind (scanEntries_ensures read hasKey cntOffset strTable _
    (start_fits h hknown hcnt))
  intro w hw
  exact ensures_pure (finishDetail_fits cnt.typeMagic hw)

end Reads

/-!
# Files
-/

theorem fileStart_fits (path : Text) {mtime : Nat} (hmtime : mtime < 2 ^ 64) {file : List UInt8}
    (hsize : file.length < 2 ^ 63) : DetailFits (fileStart path mtime file) where
  titleId := fits_nil (by decide)
  titleName := fits_nil (by decide)
  localizedTitles := fits_nil (by decide)
  defaultLanguage := fits_nil (by decide)
  contentId := fits_nil (by decide)
  appVersion := fits_nil (by decide)
  pkgTypeStr := fits_nil (by decide)
  category := fits_nil (by decide)
  fileSize := Nat.lt_trans hsize (by decide)
  totalPkgSize := Nat.lt_trans hsize (by decide)
  iconOffset := Nat.two_pow_pos 64
  iconSize := Nat.two_pow_pos 32
  partIndex := Nat.two_pow_pos 32
  totalParts := Nat.two_pow_pos 32
  mtime := hmtime
  blurhash := ⟨Nat.succ_pos 63, fun _ hb => absurd hb List.not_mem_nil⟩
  platform := ⟨Nat.succ_pos 7, fun _ hb => absurd hb List.not_mem_nil⟩

theorem split_getD_length {widths : List Nat} {k width : Nat} (h : widths[k]? = some width)
    (bytes : List UInt8) : ((Struct.split widths bytes).getD k []).length ≤ width := by
  induction widths generalizing bytes k with
  | nil => cases h
  | cons first rest ih =>
      cases k with
      | zero =>
          cases h
          exact List.length_take_le _ _
      | succ k => exact ih h (bytes.drop first)

theorem fieldText_fits {field : List UInt8} {size : Nat} (hsize : 0 < size)
    (h : field.length ≤ size) : FieldFits size (fieldText field) := by
  apply fits_cString
  rw [List.length_take]
  omega

theorem number_lt {field : List UInt8} {width : Nat} (h : field.length ≤ width) :
    ofLittleEndian field < 256 ^ width :=
  Nat.lt_of_lt_of_le (ofLittleEndian_lt field) (Nat.pow_le_pow_right (by decide) h)

/-- The fields of a header that go into a record. -/
structure HeaderFits (mhdr : PackedHeader) : Prop where
  titleId : FieldFits 32 (fieldText mhdr.titleId)
  titleName : FieldFits 256 (fieldText mhdr.titleName)
  contentId : FieldFits 64 (fieldText mhdr.contentId)
  appVersion : FieldFits 32 (fieldText mhdr.appVersion)
  partIndex : mhdr.partIndex < 256 ^ 4
  totalParts : mhdr.totalParts < 256 ^ 4
  totalPkgSize : mhdr.totalPkgSize < 256 ^ 8
  iconOffset : mhdr.iconOffset < 256 ^ 4
  iconSize : mhdr.iconSize < 256 ^ 4

theorem decodeHeader_fits (bytes : List UInt8) : HeaderFits (decodeHeader bytes) := by
  have hfield : forall {k width : Nat}, headerWidths[k]? = some width ->
      ((Struct.split headerWidths bytes).getD k []).length ≤ width :=
    fun h => split_getD_length h bytes
  unfold decodeHeader
  generalize Struct.split headerWidths bytes = fields at hfield
  exact
    { titleId := fieldText_fits (by decide) (hfield rfl)
      titleName := fieldText_fits (by decide) (hfield rfl)
      contentId := fieldText_fits (by decide) (hfield rfl)
      appVersion := fieldText_fits (by decide) (hfield rfl)
      partIndex := number_lt (hfield rfl)
      totalParts := number_lt (hfield rfl)
      totalPkgSize := number_lt (hfield rfl)
      iconOffset := number_lt (hfield rfl)
      iconSize := number_lt (hfield rfl) }

theorem multipartDetail_fits {mhdr : PackedHeader} (hm : HeaderFits mhdr) {d : PkgDetail}
    (h : DetailFits d) : DetailFits (multipartDetail mhdr d) := by
  have hunknown : FieldFits titleIdLen (ascii "UNKNOWN") := ⟨zeroFree_of_all rfl, by decide⟩
  have hid : FieldFits titleIdLen
      (if fieldText mhdr.titleId ≠ [] then fieldText mhdr.titleId else ascii "UNKNOWN") :=
    fits_ite (fun _ => hm.titleId) hunknown
  have hoffset := hm.iconOffset
  unfold multipartDetail
  refine
    { h with
      titleId := hid
      titleName := fits_ite (fun _ => hm.titleName) (hid.mono (by decide))
      contentId := hm.contentId
      appVersion := hm.appVersion
      pkgTypeStr := typeText_fits _
      partIndex := hm.partIndex
      totalParts := hm.totalParts
      totalPkgSize := ?_
      iconOffset := ?_
      iconSize := ?_ }
  · dsimp only
    split
    · exact hm.totalPkgSize
    · exact h.fileSize
  · dsimp only
    split
    · omega
    · exact Nat.two_pow_pos 64
  · dsimp only
    split
    · exact hm.iconSize
    · exact Nat.two_pow_pos 32

theorem parseMultipart_fits {file : List UInt8} {d d' : PkgDetail} (h : DetailFits d)
    (hparse : parseMultipart file d = some d') : DetailFits d' := by
  unfold parseMultipart freadHeader at hparse
  split at hparse
  · split at hparse
    · cases hparse
    · rename_i mhdr hread
      split at hread
      · cases hread
      · cases hread
        split at hparse
        · cases hparse
          exact multipartDetail_fits (decodeHeader_fits _) h
        · cases hparse
  · cases hparse

theorem parsePackage_fits {file : List UInt8} {d d' : PkgDetail} (h : DetailFits d)
    (hknown : 0 < d.fileSize) (hparse : parsePackage file d = some d') : DetailFits d' := by
  unfold parsePackage at hparse
  dsimp only at hparse
  split at hparse
  · cases hparse
  · rename_i cntOffset _
    split at hparse
    · cases hparse
    · rename_i cnt hcnt
      split at hparse
      · cases hparse
      · split at hparse
        · cases hparse
        · rename_i table _
          cases hparse
          have hcontent : FieldFits 64 cnt.contentId :=
            readCntHeader_ensures (m := Id) (preadExact file) cntOffset cnt hcnt
          apply parseTable_ensures (m := Id) (preadExact file) jsonHasBaseKey cntOffset hcontent
            table (notePlatformHeader_fits _ h)
          rw [notePlatformHeader_fileSize]
          exact hknown

theorem pkgParserParse_fits {path : Text} {mtime : Nat} {file : List UInt8} {d : PkgDetail}
    (hmtime : mtime < 2 ^ 64) (hsize : file.length < 2 ^ 63)
    (hparse : pkgParserParse path mtime file = some d) : DetailFits d := by
  have hstart := fileStart_fits path hmtime hsize
  unfold pkgParserParse at hparse
  dsimp only at hparse
  split at hparse
  · cases hparse
  · rename_i hlong
    split at hparse
    · rename_i d' hmulti
      cases hparse
      exact parseMultipart_fits hstart hmulti
    · apply parsePackage_fits hstart _ hparse
      rw [List.length_take] at hlong
      change 0 < file.length
      omega

/-!
# Remote files
-/

section Remote
variable {σ : Type} (rd : ReadFn σ)

theorem readerStart_fits {fileSize : Nat} (hsize : fileSize < 2 ^ 63) (path : Option Text) :
    DetailFits (readerStart fileSize path) := by
  have hempty : ([] : List UInt8).length < 2 ^ 63 := by decide
  have h := fileStart_fits [] (Nat.two_pow_pos 64) hempty
  exact
    { h with
      fileSize := Nat.lt_trans hsize (by decide)
      totalPkgSize := Nat.lt_trans hsize (by decide) }

theorem pkgParseReader_fits {fileSize : Nat} (hknown : 0 < fileSize) (hsize : fileSize < 2 ^ 63)
    (path : Option Text) :
    Ensures (pkgParseReader rd fileSize path) (fun got => forall d, got = some d -> DetailFits d) := by
  have hnone : Ensures (pure none : StateM σ (Option PkgDetail))
      (fun got => forall d, got = some d -> DetailFits d) := by
    apply ensures_pure
    intro d hd
    cases hd
  have hstart := readerStart_fits hsize path
  unfold pkgParseReader
  apply ensures_after
  intro window
  apply ensures_ite
  · intro _
    exact hnone
  · intro _
    apply ensures_ite
    · intro _
      exact hnone
    · intro _
      unfold readerParse
      apply ensures_after
      intro found
      cases found with
      | none => exact hnone
      | some cntOffset =>
          apply ensures_bind (readCntHeader_ensures _ cntOffset)
          intro header hheader
          cases header with
          | none => exact hnone
          | some cnt =>
              apply ensures_after
              intro got
              cases got with
              | none => exact hnone
              | some table =>
                  apply ensures_bind (parseTable_ensures _ readerHasKey cntOffset
                    (hheader cnt rfl) table (notePlatformHeader_fits _ hstart)
                    (by
                      rw [notePlatformHeader_fileSize]
                      exact hknown))
                  intro d hd
                  apply ensures_pure
                  intro _ heq
                  cases heq
                  exact hd

theorem smbStart_fits (url : Text) {fileSize mtime : Nat} (hsize : fileSize < 2 ^ 63)
    (hmtime : mtime < 2 ^ 64) : DetailFits (smbStart url fileSize mtime) := by
  have hempty : ([] : List UInt8).length < 2 ^ 63 := by decide
  have h := fileStart_fits url hmtime hempty
  exact
    { h with
      fileSize := Nat.lt_trans hsize (by decide)
      totalPkgSize := Nat.lt_trans hsize (by decide) }

theorem scanSmbEntry_ensures {cntOffset : Nat} (hcnt : cntOffset < 2 ^ 63) {e : PkgEntry}
    (he : e.dataOff < 2 ^ 32 ∧ e.dataSz < 2 ^ 32) (name : Text) {w : Walk} (h : WalkFits w) :
    Ensures (scanSmbEntry rd cntOffset e name w) WalkFits := by
  unfold scanSmbEntry
  apply ensures_after
  intro json
  apply ensures_after
  intro sfo
  apply ensures_pure
  exact noteSmbIcon_fits hcnt he name
    (noteSfoRead_fits (noteJsonRead_fits readerHasKey (noteMarkers_fits e name h) json) sfo)

theorem scanSmbEntries_ensures {cntOffset : Nat} (hcnt : cntOffset < 2 ^ 63)
    (strTable : Option (List UInt8)) {entries : List PkgEntry}
    (he : forall e, e ∈ entries -> e.dataOff < 2 ^ 32 ∧ e.dataSz < 2 ^ 32) {w : Walk}
    (h : WalkFits w) : Ensures (scanSmbEntries rd cntOffset strTable entries w) WalkFits := by
  induction entries generalizing w with
  | nil => exact ensures_pure h
  | cons e rest ih =>
      unfold scanSmbEntries
      have hentry := scanSmbEntry_ensures rd hcnt (he e List.mem_cons_self)
        (entryName strTable e) h
      refine ensures_bind hentry ?_
      intro w' h'
      exact ih (fun e' he' => he e' (List.mem_cons_of_mem e he')) h'

theorem parseSmbTable_ensures {cntOffset : Nat} (hcnt : cntOffset < 2 ^ 63) {cnt : CntHeader}
    (hcontent : FieldFits 64 cnt.contentId) (table : List UInt8) {d : PkgDetail}
    (h : DetailFits d) (hknown : 0 < d.fileSize) :
    Ensures (parseSmbTable rd cntOffset cnt table d) DetailFits := by
  unfold parseSmbTable
  apply ensures_after
  intro strTable
  have hentries := scanSmbEntries_ensures rd hcnt strTable
    (fun e (he : e ∈ pkgEntries table cnt.entryCount) => pkgEntries_fit he)
    (start_fits h hknown hcontent)
  refine ensures_bind hentries ?_
  intro w hw
  exact ensures_pure (finishDetail_fits cnt.typeMagic hw)

theorem smbClientParsePkg_fits (url : Text) {fileSize mtime : Nat} (hknown : 0 < fileSize)
    (hsize : fileSize < 2 ^ 63) (hmtime : mtime < 2 ^ 64) :
    Ensures (smbClientParsePkg rd url fileSize mtime)
      (fun got => forall d, got = some d -> DetailFits d) := by
  have hnone : Ensures (pure none : StateM σ (Option PkgDetail))
      (fun got => forall d, got = some d -> DetailFits d) := by
    apply ensures_pure
    intro d hd
    cases hd
  have hstart := smbStart_fits url hsize hmtime
  unfold smbClientParsePkg
  apply ensures_after
  intro hdr
  apply ensures_ite
  · intro _
    exact hnone
  · intro _
    apply ensures_ite
    · intro _
      exact hnone
    · intro _
      unfold parseSmbPackage
      apply ensures_bind (findCnt_ensures _ _ hdr)
      intro found hfound
      cases found with
      | none => exact hnone
      | some cntOffset =>
          have hcnt : cntOffset < 2 ^ 63 := by
            rcases hfound cntOffset rfl with rfl | hbelow
            · decide
            · exact Nat.lt_trans (of_decide_eq_true hbelow) hsize
          apply ensures_bind (readCntHeader_ensures _ cntOffset)
          intro header hheader
          cases header with
          | none => exact hnone
          | some cnt =>
              apply ensures_after
              intro got
              cases got with
              | none => exact hnone
              | some table =>
                  have hplatform := notePlatformHeader_fits hdr hstart
                  have htable := parseSmbTable_ensures rd hcnt (hheader cnt rfl) table hplatform
                    (by
                      rw [notePlatformHeader_fileSize]
                      exact hknown)
                  refine ensures_bind htable ?_
                  intro d hd
                  apply ensures_pure
                  intro _ heq
                  cases heq
                  exact hd

end Remote

end Cache
end PkgManager
