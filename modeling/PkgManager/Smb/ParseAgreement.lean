import PkgManager.Parser.Kind
import PkgManager.Smb.Parse

/-!
# The share parser and the file parser on the same file

They walk over the same package.  They differ in the test for the keys of base
applications and in the icons they take: the file parser wants an icon of less than
ten megabytes that ends in the file, the share parser takes every one.
-/

namespace PkgManager
namespace Smb

open Callback
open CString
open Folds
open PkgManager.Parser

/-- The texts and the kind of a record. -/
structure Labels where
  pkgType : PkgType
  pkgTypeStr : Text
  titleId : Text
  titleName : Text
  contentId : Text
  category : Text
  appVersion : Text
  localizedTitles : Text
deriving DecidableEq

def labels (d : PkgDetail) : Labels where
  pkgType := d.pkgType
  pkgTypeStr := d.pkgTypeStr
  titleId := d.titleId
  titleName := d.titleName
  contentId := d.contentId
  category := d.category
  appVersion := d.appVersion
  localizedTitles := d.localizedTitles

/-- {lit}`has_icon`, {lit}`icon_offset` and {lit}`icon_size` -/
def icon (d : PkgDetail) : Bool × Nat × Nat :=
  (d.hasIcon, d.iconOffset, d.iconSize)

def compared (d : PkgDetail) : Labels × (Bool × Nat × Nat) :=
  (labels d, icon d)

/-!
# The texts and the kind
-/

def iconless (w : Walk) : Walk :=
  { w with detail := { w.detail with hasIcon := false, iconOffset := 0, iconSize := 0 } }

theorem noteMetadata_iconless (hasKey : List UInt8 -> Bool) (w : Walk) (md : Metadata) :
    iconless (noteMetadata hasKey w md) = noteMetadata hasKey (iconless w) md := by
  cases md with
  | json bytes => rfl
  | sfo bytes =>
      unfold noteMetadata noteParamSfo
      dsimp only
      rw [notePlatformParamSfo_frame, notePlatformParamSfo_frame]
      rfl

theorem noteSmbIcon_iconless (cntOffset : Nat) (e : PkgEntry) (name : Text) (w : Walk) :
    iconless (noteSmbIcon cntOffset e name w) = iconless w := by
  unfold noteSmbIcon
  split <;> rfl

theorem noteIcon_iconless (cntOffset : Nat) (e : PkgEntry) (name : Text) (w : Walk) :
    iconless (noteIcon cntOffset e name w) = iconless w := by
  rcases noteIcon_frame cntOffset e name w with ⟨off, size, hasIcon, h⟩
  rw [h]
  rfl

/-- Both walks are the same up to the icon. -/
theorem smbWalk_iconless (p : Package) (d : PkgDetail) :
    iconless (smbWalk p d) = iconless (p.walk readerHasKey d) := by
  let g : Walk -> Row -> Walk := fun w row =>
    row.metadata.foldl (noteMetadata readerHasKey) (noteMarkers row.entry row.name w)
  have hsmb : forall w row, iconless (noteSmbRow p.cntOffset w row) = g (iconless w) row := by
    intro w row
    unfold noteSmbRow
    rw [noteSmbIcon_iconless, foldl_observe (noteMetadata_iconless readerHasKey)]
    rfl
  have hfile : forall w row, iconless (noteRow readerHasKey p.cntOffset w row) =
      g (iconless w) row := by
    intro w row
    unfold noteRow
    rw [noteIcon_iconless, foldl_observe (noteMetadata_iconless readerHasKey)]
    rfl
  unfold smbWalk Package.walk
  rw [foldl_observe hsmb, foldl_observe hfile]

theorem labels_finishDetail (typeMagic : Nat) {w w' : Walk} (h : iconless w = iconless w') :
    labels (finishDetail typeMagic w) = labels (finishDetail typeMagic w') := by
  change labels (finishDetail typeMagic (iconless w)) = labels (finishDetail typeMagic (iconless w'))
  rw [h]

theorem labels_finishContents (file : List UInt8) (p : Package) {a b : PkgType} :
    labels (finishContents file p a) = labels (finishContents file p b) ↔ a = b := by
  constructor
  · intro h
    exact congrArg Labels.pkgType h
  · intro h
    rw [h]

/-- The texts of a record that was started at some place. -/
theorem labels_details {file : List UInt8} (p : Package) (hasKey : List UInt8 -> Bool)
    {d : PkgDetail} (hd : d.contents = startContents file) :
    labels (p.details hasKey (notePlatformHeader (file.take 0x200) d)) =
      labels (finishContents file p (p.kind hasKey)) := by
  have hcategory : d.category = [] := congrArg PkgDetail.category hd
  change labels (p.details hasKey (notePlatformHeader (file.take 0x200) d)).contents = _
  rw [details_contents, notePlatformHeader_contents, hd, decideType_walk]
  · rfl
  · rw [notePlatformHeader_category, hcategory]

theorem labels_smbDetails {file : List UInt8} (p : Package) {d : PkgDetail}
    (hd : d.contents = startContents file) :
    labels (smbDetails p (notePlatformHeader (file.take 0x200) d)) =
      labels (finishContents file p (p.kind readerHasKey)) := by
  rw [<- labels_details p readerHasKey hd]
  exact labels_finishDetail p.typeMagic (smbWalk_iconless p _)

/-!
# The icon
-/

def rowIcon (p : Package) (row : Row) : Bool × Nat × Nat :=
  (true, p.cntOffset + row.entry.dataOff, row.entry.dataSz)

def isIconRow (row : Row) : Bool :=
  isIcon row.entry row.name

/-- What the file parser asks of an icon. -/
def iconFits (fileSize : Nat) (p : Package) (row : Row) : Bool :=
  decide (row.entry.dataSz < 10 * 1024 * 1024 ∧
    (fileSize = 0 ∨ p.cntOffset + row.entry.dataOff + row.entry.dataSz ≤ fileSize))

/-- The last icon of the table. -/
def lastIcon (p : Package) : Option Row :=
  (p.rows.filter isIconRow).getLast?

theorem noteMetadata_icon (hasKey : List UInt8 -> Bool) (w : Walk) (md : Metadata) :
    (icon (noteMetadata hasKey w md).detail, (noteMetadata hasKey w md).detail.fileSize) =
      (icon w.detail, w.detail.fileSize) := by
  cases md with
  | json bytes => rfl
  | sfo bytes =>
      unfold noteMetadata noteParamSfo
      dsimp only
      rw [notePlatformParamSfo_frame]
      rfl

theorem metadata_icon (hasKey : List UInt8 -> Bool) (w : Walk) (row : Row) :
    let w' := row.metadata.foldl (noteMetadata hasKey) (noteMarkers row.entry row.name w)
    icon w'.detail = icon w.detail ∧ w'.detail.fileSize = w.detail.fileSize := by
  have h := foldl_observe (f := fun w => (icon w.detail, w.detail.fileSize)) (g := fun t _ => t)
    (noteMetadata_icon hasKey) row.metadata (noteMarkers row.entry row.name w)
  have hconst : forall (t : (Bool × Nat × Nat) × Nat) (mds : List Metadata),
      mds.foldl (fun t _ => t) t = t := by
    intro t mds
    induction mds with
    | nil => rfl
    | cons md rest ih => exact ih
  rw [hconst] at h
  exact Prod.ext_iff.mp h

theorem noteSmbRow_icon (p : Package) (w : Walk) (row : Row) :
    icon (noteSmbRow p.cntOffset w row).detail =
      if isIconRow row then rowIcon p row else icon w.detail := by
  unfold noteSmbRow noteSmbIcon isIconRow
  split
  · rfl
  · exact (metadata_icon readerHasKey w row).1

theorem smbWalk_icon (p : Package) (d : PkgDetail) :
    icon (smbWalk p d).detail = (lastIcon p).elim (icon d) (rowIcon p) := by
  have hrows : forall (rows : List Row) (w : Walk),
      icon (rows.foldl (noteSmbRow p.cntOffset) w).detail =
        rows.foldl (fun t row => if isIconRow row then rowIcon p row else t) (icon w.detail) := by
    intro rows
    induction rows with
    | nil => exact fun _ => rfl
    | cons row rest ih =>
        intro w
        rw [List.foldl_cons, List.foldl_cons, ih, noteSmbRow_icon]
  unfold smbWalk
  rw [hrows, foldl_last]
  rfl

theorem noteRow_icon (p : Package) (hasKey : List UInt8 -> Bool) (w : Walk) (row : Row) :
    icon (noteRow hasKey p.cntOffset w row).detail =
        (if isIconRow row && iconFits w.detail.fileSize p row then rowIcon p row
          else icon w.detail) ∧
      (noteRow hasKey p.cntOffset w row).detail.fileSize = w.detail.fileSize := by
  rcases metadata_icon hasKey w row with ⟨hicon, hsize⟩
  have hcond : ((row.entry.type = 0x1200 ∨ row.name = ascii "icon0.png") ∧ 0 < row.entry.dataSz ∧
      row.entry.dataSz < 10 * 1024 * 1024 ∧ (w.detail.fileSize = 0 ∨
        p.cntOffset + row.entry.dataOff + row.entry.dataSz ≤ w.detail.fileSize)) ↔
      (isIconRow row && iconFits w.detail.fileSize p row) = true := by
    unfold isIconRow isIcon iconFits
    simp [and_assoc]
  unfold noteRow noteIcon
  dsimp only
  rw [hsize]
  by_cases h : (isIconRow row && iconFits w.detail.fileSize p row) = true
  · rw [if_pos (hcond.mpr h), if_pos h]
    exact ⟨rfl, rfl⟩
  · rw [if_neg (fun hc => h (hcond.mp hc)), if_neg h]
    exact ⟨hicon, hsize⟩

theorem walk_icon (p : Package) (hasKey : List UInt8 -> Bool) (d : PkgDetail) :
    icon (p.walk hasKey d).detail =
      ((p.rows.filter (fun row => isIconRow row && iconFits d.fileSize p row)).getLast?).elim
        (icon d) (rowIcon p) := by
  have hrows : forall (rows : List Row) (w : Walk),
      icon (rows.foldl (noteRow hasKey p.cntOffset) w).detail =
        rows.foldl (fun t row =>
          if isIconRow row && iconFits w.detail.fileSize p row then rowIcon p row else t)
          (icon w.detail) := by
    intro rows
    induction rows with
    | nil => exact fun _ => rfl
    | cons row rest ih =>
        intro w
        rcases noteRow_icon p hasKey w row with ⟨hicon, hsize⟩
        rw [List.foldl_cons, List.foldl_cons, ih, hicon, hsize]
  unfold Package.walk
  rw [hrows, foldl_last]
  rfl

/-- The icons agree exactly when the last one fits. -/
theorem icon_eq_iff (p : Package) (fileSize : Nat) :
    (lastIcon p).elim (false, 0, 0) (rowIcon p) =
        ((p.rows.filter (fun row => isIconRow row && iconFits fileSize p row)).getLast?).elim
          (false, 0, 0) (rowIcon p) ↔
      forall row, lastIcon p = some row -> iconFits fileSize p row = true := by
  have hfilter : p.rows.filter (fun row => isIconRow row && iconFits fileSize p row) =
      (p.rows.filter isIconRow).filter (iconFits fileSize p) := by
    rw [List.filter_filter]
    congr 1
    funext row
    exact Bool.and_comm _ _
  rw [hfilter]
  unfold lastIcon
  cases hlast : (p.rows.filter isIconRow).getLast? with
  | none =>
      rw [List.getLast?_eq_none_iff.mp hlast]
      simp
  | some row =>
      constructor
      · intro h other hother
        cases hother
        cases hkept : ((p.rows.filter isIconRow).filter (iconFits fileSize p)).getLast? with
        | none =>
            rw [hkept] at h
            exact absurd (congrArg Prod.fst h) (by simp [rowIcon])
        | some kept =>
            rw [hkept] at h
            have hfits := (List.mem_filter.mp (List.mem_of_getLast? hkept)).2
            unfold iconFits at hfits ⊢
            simp only [Option.elim_some, rowIcon, Prod.mk.injEq, true_and] at h
            rw [<- h.2, <- h.1] at hfits
            exact hfits
      · intro h
        rw [getLast?_filter hlast (h row rfl)]

/-!
# Agreement
-/

/-- Over every session that yields the bytes of the file, whatever its state, both parsers
fail, or both succeed with the same texts, kind and icon. -/
def SmbAgrees (file : List UInt8) : Prop :=
  forall (σ : Type) (rd : ReadFn σ) (s : σ) (url path : Text) (mtime localMtime : Nat),
    FullReads rd file ->
      ((smbClientParsePkg rd url file.length mtime).run s).1.map compared =
        (pkgParserParse path localMtime file).map compared

theorem smb_compared {σ : Type} {rd : ReadFn σ} {file : List UInt8} (hrd : FullReads rd file)
    (hsingle : startsMultipart file = false) (s : σ) (url : Text) (mtime : Nat) :
    ((smbClientParsePkg rd url file.length mtime).run s).1.map compared =
      (openPackage file).map (fun p => (labels (finishContents file p (p.kind readerHasKey)),
        (lastIcon p).elim (false, 0, 0) (rowIcon p))) := by
  have hmulti : startsMultipart (file.take 0x200) = false := by
    rw [startsMultipart_take (by decide), hsingle]
  rw [smbClientParsePkg_yields hrd url mtime s, hmulti, if_neg Bool.false_ne_true, Option.map_map]
  congr 1
  funext p
  apply Prod.ext
  · exact labels_smbDetails p rfl
  · change icon (smbWalk p _).detail = _
    rw [smbWalk_icon, notePlatformHeader_frame]
    rfl

theorem file_compared {file : List UInt8} (hsingle : startsMultipart file = false) (path : Text)
    (mtime : Nat) :
    (pkgParserParse path mtime file).map compared =
      (openPackage file).map (fun p => (labels (finishContents file p (p.kind jsonHasBaseKey)),
        ((p.rows.filter (fun row => isIconRow row && iconFits file.length p row)).getLast?).elim
          (false, 0, 0) (rowIcon p))) := by
  rw [pkgParserParse_single hsingle]
  unfold parseWith
  rw [Option.map_map]
  congr 1
  funext p
  apply Prod.ext
  · exact labels_details p jsonHasBaseKey rfl
  · change icon (p.walk jsonHasBaseKey _).detail = _
    rw [walk_icon, notePlatformHeader_frame]
    rfl

/-- A session that yields all bytes at once. -/
theorem wholeReads_full (file : List UInt8) : FullReads (wholeReads file) file := by
  intro count offset s
  rfl

/-- The two parsers agree on a file unless the kind of its package hangs on a key behind
a zero byte, or its last icon is too long or does not end in the file. -/
theorem smb_agrees_iff {file : List UInt8} (hsingle : startsMultipart file = false) :
    SmbAgrees file ↔
      forall p, openPackage file = some p ->
        ¬ (KindLeft p ∧ KeyBehindZero p) ∧
          forall row, lastIcon p = some row -> iconFits file.length p row = true := by
  constructor
  · intro h p hopen
    have hagree := h Unit (wholeReads file) () [] [] 0 0 (wholeReads_full file)
    rw [smb_compared (wholeReads_full file) hsingle, file_compared hsingle, hopen] at hagree
    rcases Prod.ext_iff.mp (Option.some.inj hagree) with ⟨hlabels, hicon⟩
    constructor
    · exact (kind_eq_iff p).mp ((labels_finishContents file p).mp hlabels)
    · exact (icon_eq_iff p file.length).mp hicon
  · intro h σ rd s url path mtime localMtime hrd
    rw [smb_compared hrd hsingle, file_compared hsingle]
    cases hopen : openPackage file with
    | none => rfl
    | some p =>
        rcases h p hopen with ⟨hkind, hicon⟩
        have hlabels := (labels_finishContents file p).mpr ((kind_eq_iff p).mpr hkind)
        exact congrArg some (Prod.ext hlabels ((icon_eq_iff p file.length).mpr hicon))

/-!
# Two files
-/

/-- A package with one icon of three bytes at its end. -/
def iconFile : List UInt8 :=
  cntFile 0 [(0x1200, 0, [1, 2, 3])]

theorem smb_agrees_whole_icon : SmbAgrees iconFile :=
  (smb_agrees_iff (by decide)).mpr (fun p hopen => by
    have hfits : (openPackage iconFile).all (fun p => decide (p.typeMagic % 0x100 ≠ 1) &&
        (lastIcon p).all (iconFits iconFile.length p)) = true := by
      decide +kernel
    rw [hopen] at hfits
    rcases Bool.and_eq_true_iff.mp hfits with ⟨htype, hicon⟩
    constructor
    · intro hkind
      exact of_decide_eq_true htype hkind.1.1
    · intro row hrow
      rw [hrow] at hicon
      exact hicon)

/-- The last byte of the icon is missing. -/
theorem cut_icon_kept : ¬ forall file, startsMultipart file = false -> SmbAgrees file := by
  intro h
  have hagree := h iconFile.dropLast (by decide) Unit (wholeReads iconFile.dropLast) ()
    [] [] 0 0 (wholeReads_full _)
  have hfile : (pkgParserParse [] 0 iconFile.dropLast).map PkgDetail.hasIcon = some false := by
    decide +kernel
  have hsmb : ((smbClientParsePkg (wholeReads iconFile.dropLast) [] iconFile.dropLast.length
      0).run ()).1.map PkgDetail.hasIcon = some true := by
    decide +kernel
  have hicon := congrArg (Option.map (fun t => t.2.1)) hagree
  rw [Option.map_map, Option.map_map] at hicon
  change ((smbClientParsePkg (wholeReads iconFile.dropLast) [] iconFile.dropLast.length
    0).run ()).1.map PkgDetail.hasIcon =
      (pkgParserParse [] 0 iconFile.dropLast).map PkgDetail.hasIcon at hicon
  rw [hfile, hsmb] at hicon
  cases hicon

end Smb
end PkgManager
