import PkgManager.Bytes.Folds
import PkgManager.Parser.Package

/-!
# What the metadata of a package says

The fields of the record that decide the kind of the package, read off the list
of its documents.
-/

namespace PkgManager
namespace Parser

open CString
open Folds

/-- The texts that a document gives to a parser that has none yet. -/
def Metadata.texts : Metadata -> ParamTexts
  | Metadata.json bytes => pkgParserParseParamJson detailSizes bytes ParamTexts.empty
  | Metadata.sfo bytes => pkgParserParseParamSfo detailSizes bytes ParamTexts.empty

def Metadata.category (md : Metadata) : Text :=
  md.texts.category

def Metadata.titleId (md : Metadata) : Text :=
  md.texts.titleId

def Metadata.version (md : Metadata) : Text :=
  md.texts.version

def Metadata.isSfo : Metadata -> Bool
  | Metadata.json _ => false
  | Metadata.sfo _ => true

def Metadata.hasBaseKey (hasKey : List UInt8 -> Bool) : Metadata -> Bool
  | Metadata.json bytes => hasKey bytes
  | Metadata.sfo _ => false

/-!
# A param.sfo does not look at the localized titles
-/

def ParamTexts.withTitles (t : ParamTexts) (titles lang : Text) : ParamTexts :=
  { t with localizedTitles := titles, defaultLang := lang }

def SfoScan.withTitles (scan : SfoScan) (titles lang : Text) : SfoScan :=
  { scan with out := scan.out.withTitles titles lang }

theorem sfoStep_withTitles (sizes : ParamSizes) (scan : SfoScan) (titles lang : Text)
    (entry : SfoEntry) :
    sfoStep sizes (scan.withTitles titles lang) entry =
      (sfoStep sizes scan entry).withTitles titles lang := by
  unfold sfoStep
  simp only [apply_ite (fun s => SfoScan.withTitles s titles lang)]
  apply if_congr Iff.rfl rfl
  apply if_congr Iff.rfl rfl
  apply if_congr Iff.rfl
  · cases sfoLanguage entry.key <;> rfl
  · apply if_congr Iff.rfl rfl
    apply if_congr Iff.rfl rfl
    exact if_congr Iff.rfl rfl rfl

theorem foldl_sfoStep_withTitles (sizes : ParamSizes) (titles lang : Text)
    (entries : List SfoEntry) (scan : SfoScan) :
    entries.foldl (sfoStep sizes) (scan.withTitles titles lang) =
      (entries.foldl (sfoStep sizes) scan).withTitles titles lang := by
  induction entries generalizing scan with
  | nil => rfl
  | cons entry rest ih =>
      rw [List.foldl_cons, List.foldl_cons, sfoStep_withTitles, ih]

/-- The other texts are the same whatever the titles were before. -/
theorem parseParamSfo_withTitles (sizes : ParamSizes) (sfo : List UInt8) (out : ParamTexts)
    (titles lang : Text) :
    exists titles' lang',
      pkgParserParseParamSfo sizes sfo (out.withTitles titles lang) =
        (pkgParserParseParamSfo sizes sfo out).withTitles titles' lang' := by
  unfold pkgParserParseParamSfo
  split
  · exists titles, lang
  · split
    · exists titles, lang
    · have hfold := foldl_sfoStep_withTitles sizes titles lang (sfoEntries sfo)
        { out := out, appVer := [], version := [], loc := [] }
      change (sfoEntries sfo).foldl (sfoStep sizes)
        { out := out.withTitles titles lang, appVer := [], version := [], loc := [] } = _ at hfold
      rw [hfold]
      exact ⟨_, _, rfl⟩

/-!
# One document
-/

theorem noteKey_eq (json : List UInt8) (key : String) (bufMax outMax : Nat) (old : Text) :
    noteKey json key bufMax outMax old =
      if old = [] then noteKey json key bufMax outMax [] else old := by
  unfold noteKey
  by_cases h : old = []
  · rw [if_pos h, h]
  · simp [h]

theorem noteVersion_eq (json : List UInt8) (verMax : Nat) (old : Text) :
    noteVersion json verMax old = if old = [] then noteVersion json verMax [] else old := by
  unfold noteVersion
  by_cases h : old = []
  · rw [if_pos h, h]
  · simp [h]

/-- A text that a param.json only writes to an empty field. -/
theorem parseParamJson_keepFirst {f : ParamTexts -> Text} {note : Text -> Text}
    {json : List UInt8} (hempty : f ParamTexts.empty = [])
    (hparse : forall t, f (pkgParserParseParamJson detailSizes json t) =
      if json = [] then f t else note (f t))
    (hnote : forall old, note old = if old = [] then note [] else old) (out : ParamTexts) :
    f (pkgParserParseParamJson detailSizes json out) =
      keepFirst (fun md => f md.texts) (f out) (Metadata.json json) := by
  unfold keepFirst Metadata.texts
  dsimp only
  rw [hparse, hparse, hempty, hnote]
  split
  · split
    · assumption
    · rfl
  · rfl

theorem parseParamJson_keys (json : List UInt8) (out : ParamTexts) :
    (pkgParserParseParamJson detailSizes json out).titleId =
        (if json = [] then out.titleId
          else noteKey json "titleId" titleIdLen titleIdLen out.titleId) ∧
      (pkgParserParseParamJson detailSizes json out).category =
        (if json = [] then out.category else noteKey json "category" 16 16 out.category) ∧
      (pkgParserParseParamJson detailSizes json out).version =
        (if json = [] then out.version else noteVersion json 32 out.version) := by
  unfold pkgParserParseParamJson
  split
  · exact ⟨rfl, rfl, rfl⟩
  · cases localizedBlock json with
    | none => exact ⟨rfl, rfl, rfl⟩
    | some block => exact ⟨rfl, rfl, rfl⟩

theorem parseParamJson_titleId (json : List UInt8) (out : ParamTexts) :
    (pkgParserParseParamJson detailSizes json out).titleId =
      keepFirst Metadata.titleId out.titleId (Metadata.json json) :=
  parseParamJson_keepFirst (f := ParamTexts.titleId) rfl
    (fun t => (parseParamJson_keys json t).1) (noteKey_eq json "titleId" titleIdLen titleIdLen) out

theorem parseParamJson_category (json : List UInt8) (out : ParamTexts) :
    (pkgParserParseParamJson detailSizes json out).category =
      keepFirst Metadata.category out.category (Metadata.json json) :=
  parseParamJson_keepFirst (f := ParamTexts.category) rfl
    (fun t => (parseParamJson_keys json t).2.1) (noteKey_eq json "category" 16 16) out

theorem parseParamJson_version (json : List UInt8) (out : ParamTexts) :
    (pkgParserParseParamJson detailSizes json out).version =
      keepFirst Metadata.version out.version (Metadata.json json) :=
  parseParamJson_keepFirst (f := ParamTexts.version) rfl
    (fun t => (parseParamJson_keys json t).2.2) (noteVersion_eq json 32) out

theorem keepFirst_if (f : Metadata -> Text) (old : Text) (md : Metadata) :
    (if f md ≠ [] ∧ old = [] then f md else old) = keepFirst f old md := by
  unfold keepFirst
  by_cases hold : old = []
  · by_cases hmd : f md = []
    · simp [hold, hmd]
    · simp [hold, hmd]
  · simp [hold]

/-- The texts of a param.sfo as the walk sees them. -/
theorem noteParamSfo_texts (sfo : List UInt8) (d : PkgDetail) :
    exists titles lang,
      pkgParserParseParamSfo detailSizes sfo
        { ParamTexts.empty with
          localizedTitles := d.localizedTitles, defaultLang := d.defaultLanguage } =
        (Metadata.sfo sfo).texts.withTitles titles lang :=
  parseParamSfo_withTitles detailSizes sfo ParamTexts.empty d.localizedTitles d.defaultLanguage

theorem notePlatformParamSfo_frame (d : PkgDetail) :
    notePlatformParamSfo d =
      { d with platform := if d.platform = [] then ascii "ps4" else d.platform } := by
  unfold notePlatformParamSfo
  split <;> rfl

theorem notePlatformHeader_frame (hdr : List UInt8) (d : PkgDetail) :
    notePlatformHeader hdr d =
      { d with platform := if isFih hdr then ascii "ps5" else d.platform } := by
  unfold notePlatformHeader
  split <;> rfl

/-- The category and whether a param.sfo gave it. -/
def Walk.category (w : Walk) : Text × Bool :=
  (w.detail.category, w.hasPs4SfoCategory)

theorem noteMetadata_category (hasKey : List UInt8 -> Bool) (w : Walk) (md : Metadata) :
    (noteMetadata hasKey w md).category =
      keepFirstFrom Metadata.category Metadata.isSfo w.category md := by
  cases md with
  | json bytes =>
      apply Prod.ext
      · exact parseParamJson_category bytes (notePlatformParamJson w.detail).texts
      · show w.hasPs4SfoCategory = (w.hasPs4SfoCategory || (false && _))
        rw [Bool.false_and, Bool.or_false]
  | sfo bytes =>
      rcases noteParamSfo_texts bytes (notePlatformParamSfo w.detail) with ⟨titles, lang, htexts⟩
      unfold noteMetadata Walk.category noteParamSfo noteSfoTexts
      dsimp only
      rw [htexts, notePlatformParamSfo_frame]
      apply Prod.ext
      · exact keepFirst_if Metadata.category w.detail.category (Metadata.sfo bytes)
      · rfl

theorem noteMetadata_titleId (hasKey : List UInt8 -> Bool) (w : Walk) (md : Metadata) :
    (noteMetadata hasKey w md).detail.titleId =
      keepFirst Metadata.titleId w.detail.titleId md := by
  cases md with
  | json bytes => exact parseParamJson_titleId bytes (notePlatformParamJson w.detail).texts
  | sfo bytes =>
      rcases noteParamSfo_texts bytes (notePlatformParamSfo w.detail) with ⟨titles, lang, htexts⟩
      unfold noteMetadata noteParamSfo noteSfoTexts
      dsimp only
      rw [htexts, notePlatformParamSfo_frame, <- keepFirst_if]
      exact if_congr and_comm rfl rfl

theorem noteMetadata_version (hasKey : List UInt8 -> Bool) (w : Walk) (md : Metadata) :
    (noteMetadata hasKey w md).detail.appVersion =
      keepFirst Metadata.version w.detail.appVersion md := by
  cases md with
  | json bytes => exact parseParamJson_version bytes (notePlatformParamJson w.detail).texts
  | sfo bytes =>
      rcases noteParamSfo_texts bytes (notePlatformParamSfo w.detail) with ⟨titles, lang, htexts⟩
      unfold noteMetadata noteParamSfo noteSfoTexts
      dsimp only
      rw [htexts, notePlatformParamSfo_frame, <- keepFirst_if]
      exact if_congr and_comm rfl rfl

def notePlatform (platform : Text) : Metadata -> Text
  | Metadata.json _ => ascii "ps5"
  | Metadata.sfo _ => if platform = [] then ascii "ps4" else platform

theorem noteMetadata_platform (hasKey : List UInt8 -> Bool) (w : Walk) (md : Metadata) :
    (noteMetadata hasKey w md).detail.platform = notePlatform w.detail.platform md := by
  cases md with
  | json bytes => rfl
  | sfo bytes =>
      show (notePlatformParamSfo w.detail).platform = _
      rw [notePlatformParamSfo_frame]
      rfl

/-!
# All rows
-/

/-- What the rows do to a part of the state that only the documents change. -/
theorem foldl_noteRow_observe {τ : Type} {f : Walk -> τ} {g : τ -> Metadata -> τ}
    {hasKey : List UInt8 -> Bool} {cntOffset : Nat}
    (hmarkers : forall e name w, f (noteMarkers e name w) = f w)
    (hicon : forall e name w, f (noteIcon cntOffset e name w) = f w)
    (hmetadata : forall w md, f (noteMetadata hasKey w md) = g (f w) md)
    (rows : List Row) (w : Walk) :
    f (rows.foldl (noteRow hasKey cntOffset) w) =
      (rows.flatMap Row.metadata).foldl g (f w) := by
  rw [List.foldl_flatMap]
  apply foldl_observe
  intro w row
  unfold noteRow
  rw [hicon, foldl_observe hmetadata, hmarkers]

theorem noteIcon_frame (cntOffset : Nat) (e : PkgEntry) (name : Text) (w : Walk) :
    exists off size hasIcon,
      noteIcon cntOffset e name w =
        { w with
          detail :=
            { w.detail with iconOffset := off, iconSize := size, hasIcon := hasIcon } } := by
  unfold noteIcon
  dsimp only
  split
  · exact ⟨_, _, _, rfl⟩
  · exact ⟨w.detail.iconOffset, w.detail.iconSize, w.detail.hasIcon, rfl⟩

theorem walk_category (p : Package) (hasKey : List UInt8 -> Bool) {d : PkgDetail}
    (hd : d.category = []) :
    (p.walk hasKey d).category =
      (firstText (p.metadata.map Metadata.category),
        (firstSource Metadata.category p.metadata).any Metadata.isSfo) := by
  unfold Package.walk
  rw [foldl_noteRow_observe (f := Walk.category) (fun _ _ _ => rfl) (fun e name w => by
    rcases noteIcon_frame p.cntOffset e name w with ⟨off, size, hasIcon, h⟩
    rw [h]
    rfl) (noteMetadata_category hasKey)]
  have hstart : (Walk.start { d with contentId := p.contentId }).category = ([], false) := by
    show (d.category, false) = _
    rw [hd]
  rw [hstart, foldl_keepFirstFrom, Bool.false_or]
  rfl

theorem walk_titleId (p : Package) (hasKey : List UInt8 -> Bool) {d : PkgDetail}
    (hd : d.titleId = []) :
    (p.walk hasKey d).detail.titleId = firstText (p.metadata.map Metadata.titleId) := by
  unfold Package.walk
  rw [foldl_noteRow_observe (f := fun w => w.detail.titleId) (fun _ _ _ => rfl) (fun e name w => by
    rcases noteIcon_frame p.cntOffset e name w with ⟨off, size, hasIcon, h⟩
    rw [h]) (noteMetadata_titleId hasKey)]
  show p.metadata.foldl (keepFirst Metadata.titleId) d.titleId = _
  rw [hd, foldl_keepFirst]

theorem walk_version (p : Package) (hasKey : List UInt8 -> Bool) {d : PkgDetail}
    (hd : d.appVersion = []) :
    (p.walk hasKey d).detail.appVersion = firstText (p.metadata.map Metadata.version) := by
  unfold Package.walk
  rw [foldl_noteRow_observe (f := fun w => w.detail.appVersion) (fun _ _ _ => rfl)
    (fun e name w => by
    rcases noteIcon_frame p.cntOffset e name w with ⟨off, size, hasIcon, h⟩
    rw [h]) (noteMetadata_version hasKey)]
  show p.metadata.foldl (keepFirst Metadata.version) d.appVersion = _
  rw [hd, foldl_keepFirst]

theorem walk_platform (p : Package) (hasKey : List UInt8 -> Bool) (d : PkgDetail) :
    (p.walk hasKey d).detail.platform = p.metadata.foldl notePlatform d.platform := by
  unfold Package.walk
  rw [foldl_noteRow_observe (f := fun w => w.detail.platform) (fun _ _ _ => rfl)
    (fun e name w => by
    rcases noteIcon_frame p.cntOffset e name w with ⟨off, size, hasIcon, h⟩
    rw [h]) (noteMetadata_platform hasKey)]
  rfl

theorem noteMetadata_contentId (hasKey : List UInt8 -> Bool) (w : Walk) (md : Metadata) :
    (noteMetadata hasKey w md).detail.contentId = w.detail.contentId := by
  cases md with
  | json bytes => rfl
  | sfo bytes =>
      show (notePlatformParamSfo w.detail).contentId = _
      rw [notePlatformParamSfo_frame]

theorem walk_contentId (p : Package) (hasKey : List UInt8 -> Bool) (d : PkgDetail) :
    (p.walk hasKey d).detail.contentId = p.contentId := by
  unfold Package.walk
  rw [foldl_noteRow_observe (f := fun w => w.detail.contentId) (g := fun t _ => t)
    (fun _ _ _ => rfl) (fun e name w => by
    rcases noteIcon_frame p.cntOffset e name w with ⟨off, size, hasIcon, h⟩
    rw [h]) (noteMetadata_contentId hasKey), List.foldl_fixed]
  rfl

theorem walk_hasBaseAppMetadata (p : Package) (hasKey : List UInt8 -> Bool) (d : PkgDetail) :
    (p.walk hasKey d).hasBaseAppMetadata = p.metadata.any (Metadata.hasBaseKey hasKey) := by
  unfold Package.walk
  rw [foldl_noteRow_observe (f := Walk.hasBaseAppMetadata)
    (g := fun b md => b || md.hasBaseKey hasKey) (fun _ _ _ => rfl) (fun e name w => by
    rcases noteIcon_frame p.cntOffset e name w with ⟨off, size, hasIcon, h⟩
    rw [h]) (fun w md => by
    cases md with
    | json bytes => rfl
    | sfo bytes =>
        show w.hasBaseAppMetadata = (w.hasBaseAppMetadata || false)
        rw [Bool.or_false]), foldl_or]
  rfl

def Row.isPatch (row : Row) : Bool :=
  isPlaygoPatch row.entry row.name || isDeltaPatch row.entry row.name

/-- An entry marks the package as an update. -/
def Walk.isPatch (w : Walk) : Bool :=
  w.hasPlaygoChunkPatch || w.hasDeltaPatch

theorem noteMetadata_isPatch (hasKey : List UInt8 -> Bool) (w : Walk) (md : Metadata) :
    (noteMetadata hasKey w md).isPatch = w.isPatch := by
  cases md with
  | json bytes => rfl
  | sfo bytes => rfl

theorem walk_isPatch (p : Package) (hasKey : List UInt8 -> Bool) (d : PkgDetail) :
    (p.walk hasKey d).isPatch = p.rows.any Row.isPatch := by
  unfold Package.walk
  rw [foldl_observe (f := Walk.isPatch) (g := fun b row => b || row.isPatch), foldl_or]
  · rfl
  · intro w row
    unfold noteRow
    rcases noteIcon_frame p.cntOffset row.entry row.name
      (row.metadata.foldl (noteMetadata hasKey) (noteMarkers row.entry row.name w)) with
      ⟨off, size, hasIcon, h⟩
    rw [h]
    show (row.metadata.foldl (noteMetadata hasKey) (noteMarkers row.entry row.name w)).isPatch = _
    rw [foldl_observe (f := Walk.isPatch) (g := fun b _ => b) (noteMetadata_isPatch hasKey),
      List.foldl_fixed]
    unfold Walk.isPatch noteMarkers Row.isPatch
    dsimp only
    ac_rfl

/-!
# The kind
-/

theorem decideType_eq (typeMagic : Nat) (w : Walk) :
    decideType typeMagic w =
      if w.isPatch || isDeltaType typeMagic || startsWith "gp" w.category.1 then PkgType.update
      else if isDlcCategory w.category.1 then PkgType.dlc
      else if w.category.2 && isBaseCategory w.category.1 then PkgType.base
      else if typeMagic % 0x100 == 1 && !w.hasBaseAppMetadata then PkgType.dlc
      else PkgType.base := by
  unfold decideType classify Walk.isPatch Walk.category
  dsimp only
  split_ifs <;> rfl

/-- The kind of a package by its rows and documents. -/
def Package.kind (p : Package) (hasKey : List UInt8 -> Bool) : PkgType :=
  let category := firstText (p.metadata.map Metadata.category)
  if p.rows.any Row.isPatch || isDeltaType p.typeMagic || startsWith "gp" category then
    PkgType.update
  else if isDlcCategory category then PkgType.dlc
  else if (firstSource Metadata.category p.metadata).any Metadata.isSfo &&
      isBaseCategory category then PkgType.base
  else if p.typeMagic % 0x100 == 1 && !p.metadata.any (Metadata.hasBaseKey hasKey) then
    PkgType.dlc
  else PkgType.base

theorem decideType_walk (p : Package) (hasKey : List UInt8 -> Bool) {d : PkgDetail}
    (hd : d.category = []) : decideType p.typeMagic (p.walk hasKey d) = p.kind hasKey := by
  rw [decideType_eq, walk_category p hasKey hd, walk_isPatch, walk_hasBaseAppMetadata]
  rfl

end Parser
end PkgManager
