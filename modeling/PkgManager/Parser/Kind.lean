import PkgManager.Parser.Evidence
import PkgManager.Parser.ReaderAgreement

/-!
# The local and the remote parser on the same file

They walk over the same package and differ only in the test for the keys of base
applications: the local one compares all bytes of a param.json, the remote one
stops at its first zero byte.
-/

namespace PkgManager
namespace Parser

open Callback
open CString
open Folds

/-- The record without the place and the time of the file. -/
def PkgDetail.contents (d : PkgDetail) : PkgDetail :=
  { d with path := [], filename := [], mtime := 0 }

/-- The state of the walk without the place of the file and without the keys. -/
def Walk.contents (w : Walk) : Walk :=
  { w with detail := w.detail.contents, hasBaseAppMetadata := false }

def noKeys : List UInt8 -> Bool :=
  fun _ => false

theorem notePlatformParamSfo_contents (d : PkgDetail) :
    (notePlatformParamSfo d).contents = notePlatformParamSfo d.contents := by
  unfold notePlatformParamSfo
  rw [apply_ite PkgDetail.contents]
  exact if_congr Iff.rfl rfl rfl

theorem noteMetadata_contents (hasKey : List UInt8 -> Bool) (w : Walk) (md : Metadata) :
    (noteMetadata hasKey w md).contents = noteMetadata noKeys w.contents md := by
  cases md with
  | json bytes => rfl
  | sfo bytes =>
      unfold noteMetadata noteParamSfo
      dsimp only
      have hdetail : w.contents.detail = w.detail.contents := rfl
      rw [hdetail, <- notePlatformParamSfo_contents]
      rfl

theorem noteIcon_contents (cntOffset : Nat) (e : PkgEntry) (name : Text) (w : Walk) :
    (noteIcon cntOffset e name w).contents = noteIcon cntOffset e name w.contents := by
  unfold noteIcon
  dsimp only
  rw [apply_ite Walk.contents]
  exact if_congr Iff.rfl rfl rfl

theorem noteRow_contents (hasKey : List UInt8 -> Bool) (cntOffset : Nat) (w : Walk) (row : Row) :
    (noteRow hasKey cntOffset w row).contents = noteRow noKeys cntOffset w.contents row := by
  unfold noteRow
  rw [noteIcon_contents, foldl_observe (noteMetadata_contents hasKey)]
  rfl

theorem walk_contents (p : Package) (hasKey : List UInt8 -> Bool) (d : PkgDetail) :
    (p.walk hasKey d).contents = p.walk noKeys d.contents := by
  unfold Package.walk
  rw [foldl_observe (noteRow_contents hasKey p.cntOffset)]
  rfl

/-- The record at the return for a kind. -/
def finishAs (pkgType : PkgType) (d : PkgDetail) : PkgDetail :=
  { completeTitles { d with pkgType := pkgType, pkgTypeStr := typeText pkgType } with
    isValid := true }

theorem details_contents (p : Package) (hasKey : List UInt8 -> Bool) (d : PkgDetail) :
    (p.details hasKey d).contents =
      finishAs (decideType p.typeMagic (p.walk hasKey d)) (p.walk noKeys d.contents).detail := by
  rw [<- walk_contents p hasKey d]
  rfl

/-!
# The kind
-/

/-- Only the CNT type and the keys of a param.json are left to decide. -/
def KindLeft (p : Package) : Prop :=
  let category := firstText (p.metadata.map Metadata.category)
  p.typeMagic % 0x100 = 1 ∧ isDeltaType p.typeMagic = false ∧ p.rows.any Row.isPatch = false ∧
    startsWith "gp" category = false ∧ isDlcCategory category = false ∧
    ((firstSource Metadata.category p.metadata).any Metadata.isSfo &&
      isBaseCategory category) = false

/-- Some param.json has one of the keys, but none has one before its first zero
byte. -/
def KeyBehindZero (p : Package) : Prop :=
  p.metadata.any (Metadata.hasBaseKey jsonHasBaseKey) = true ∧
    p.metadata.any (Metadata.hasBaseKey readerHasKey) = false

theorem jsonHasKey_of_strstr {json : List UInt8} {key : String}
    (h : (strstr (quoted key) json).isSome = true) : jsonHasKey json key = true := by
  rcases Option.isSome_iff_exists.mp h with ⟨found, hfound⟩
  apply List.any_eq_true.mpr
  exists found
  constructor
  · exact (List.mem_tails found json).mpr (strstr_suffix hfound)
  · exact List.isPrefixOf_iff_prefix.mpr (strstr_starts hfound)

theorem readerHasKey_imp {json : List UInt8} (h : readerHasKey json = true) :
    jsonHasBaseKey json = true := by
  unfold readerHasKey at h
  unfold jsonHasBaseKey
  rw [Bool.or_eq_true, Bool.or_eq_true] at h ⊢
  rcases h with (h | h) | h
  · exact Or.inl (Or.inl (jsonHasKey_of_strstr h))
  · exact Or.inl (Or.inr (jsonHasKey_of_strstr h))
  · exact Or.inr (jsonHasKey_of_strstr h)

theorem any_readerHasKey_imp {ms : List Metadata}
    (h : ms.any (Metadata.hasBaseKey readerHasKey) = true) :
    ms.any (Metadata.hasBaseKey jsonHasBaseKey) = true := by
  rcases List.any_eq_true.mp h with ⟨md, hmem, hkey⟩
  apply List.any_eq_true.mpr
  exists md
  constructor
  · exact hmem
  · cases md with
    | json bytes => exact readerHasKey_imp hkey
    | sfo bytes => cases hkey

theorem kind_eq_iff (p : Package) :
    p.kind readerHasKey = p.kind jsonHasBaseKey ↔ ¬ (KindLeft p ∧ KeyBehindZero p) := by
  have himp : p.metadata.any (Metadata.hasBaseKey readerHasKey) = true ->
      p.metadata.any (Metadata.hasBaseKey jsonHasBaseKey) = true := any_readerHasKey_imp
  unfold Package.kind KindLeft KeyBehindZero
  generalize p.metadata.any (Metadata.hasBaseKey readerHasKey) = remote at himp
  generalize p.metadata.any (Metadata.hasBaseKey jsonHasBaseKey) = near at himp
  generalize (firstSource Metadata.category p.metadata).any Metadata.isSfo = fromSfo
  generalize firstText (p.metadata.map Metadata.category) = category
  dsimp only
  split_ifs with hpatch hdlc hbase hremote hnear hnear
  all_goals grind

/-!
# The records
-/

theorem finishAs_inj {a b : PkgType} {d : PkgDetail} : finishAs a d = finishAs b d ↔ a = b := by
  constructor
  · intro h
    exact congrArg PkgDetail.pkgType h
  · intro h
    rw [h]

theorem notePlatformHeader_contents (hdr : List UInt8) (d : PkgDetail) :
    (notePlatformHeader hdr d).contents = notePlatformHeader hdr d.contents := by
  unfold notePlatformHeader
  rw [apply_ite PkgDetail.contents]
  exact if_congr Iff.rfl rfl rfl

theorem notePlatformHeader_category (hdr : List UInt8) (d : PkgDetail) :
    (notePlatformHeader hdr d).category = d.category := by
  unfold notePlatformHeader
  split <;> rfl

theorem startsMultipart_take {file : List UInt8} {n : Nat} (h : 8 ≤ n) :
    startsMultipart (file.take n) = startsMultipart file := by
  unfold startsMultipart
  apply Bool.eq_iff_iff.mpr
  rw [List.isPrefixOf_iff_prefix, List.isPrefixOf_iff_prefix]
  constructor
  · intro hpart
    exact hpart.trans (List.take_prefix n file)
  · intro hpart
    exact List.prefix_take_iff.mpr ⟨hpart, h⟩

/-!
# Agreement
-/

/-- Over every callback that serves the file, whatever its state, both parsers
fail, or both yield records with the same contents. -/
def ReadersAgree (file : List UInt8) : Prop :=
  forall (σ : Type) (rd : ReadFn σ) (s : σ) (readerPath : Option Text) (path : Text) (mtime : Nat),
    Serves rd file ->
      ((pkgParseReader rd file.length readerPath).run s).1.map PkgDetail.contents =
        (pkgParserParse path mtime file).map PkgDetail.contents

/-- The record before the first read, without its place. -/
def startContents (file : List UInt8) : PkgDetail :=
  { PkgDetail.zero with fileSize := file.length, totalPkgSize := file.length }

theorem parseWith_contents {hasKey : List UInt8 -> Bool} {file : List UInt8} {d : PkgDetail}
    (hd : d.contents = startContents file) :
    (parseWith hasKey file d).map PkgDetail.contents =
      (openPackage file).map (fun p => finishAs (p.kind hasKey)
        (p.walk noKeys (notePlatformHeader (file.take 0x200) (startContents file))).detail) := by
  unfold parseWith
  rw [Option.map_map]
  congr 1
  funext p
  have hcategory : d.category = [] := by
    have h := congrArg PkgDetail.category hd
    exact h
  show (p.details hasKey (notePlatformHeader (file.take 0x200) d)).contents = _
  rw [details_contents, notePlatformHeader_contents, hd, decideType_walk]
  rw [notePlatformHeader_category, hcategory]

/-- The record of a package as both parsers build it, for a kind. -/
def finishContents (file : List UInt8) (p : Package) (pkgType : PkgType) : PkgDetail :=
  finishAs pkgType
    (p.walk noKeys (notePlatformHeader (file.take 0x200) (startContents file))).detail

theorem pkgParserParse_contents {file : List UInt8} (hsingle : startsMultipart file = false)
    (path : Text) (mtime : Nat) :
    (pkgParserParse path mtime file).map PkgDetail.contents =
      (openPackage file).map (fun p => finishContents file p (p.kind jsonHasBaseKey)) := by
  rw [pkgParserParse_single hsingle]
  exact parseWith_contents rfl

theorem pkgParseReader_contents {σ : Type} {rd : ReadFn σ} {file : List UInt8}
    (hrd : Serves rd file) (hsingle : startsMultipart file = false) (s : σ) (path : Option Text) :
    ((pkgParseReader rd file.length path).run s).1.map PkgDetail.contents =
      (openPackage file).map (fun p => finishContents file p (p.kind readerHasKey)) := by
  have hmulti : startsMultipart (file.take 0x200) = false := by
    rw [startsMultipart_take (by decide), hsingle]
  rw [pkgParseReader_yields hrd path s]
  split
  · rename_i hshort
    rcases hshort with hshort | hshort
    · rw [List.length_take] at hshort
      rw [openPackage_short (by omega)]
      rfl
    · rw [hmulti] at hshort
      cases hshort
  · exact parseWith_contents rfl

/-- A callback that yields all bytes at once. -/
def wholeReads (file : List UInt8) : ReadFn Unit :=
  fun count offset => pure ((file.drop offset).take count)

theorem wholeReads_serves (file : List UInt8) : Serves (wholeReads file) file := by
  intro count offset s
  constructor
  · exact List.prefix_rfl
  · intro hcount hoffset hnil
    have hlen := congrArg List.length hnil
    change ((file.drop offset).take count).length = 0 at hlen
    rw [List.length_take, List.length_drop] at hlen
    omega

/-- The two parsers agree on a file unless the kind of its package hangs on a key
behind a zero byte. -/
theorem readers_agree_iff {file : List UInt8} (hsingle : startsMultipart file = false) :
    ReadersAgree file ↔
      forall p, openPackage file = some p -> ¬ (KindLeft p ∧ KeyBehindZero p) := by
  constructor
  · intro h p hopen
    have hagree := h Unit (wholeReads file) () none [] 0 (wholeReads_serves file)
    rw [pkgParseReader_contents (wholeReads_serves file) hsingle,
      pkgParserParse_contents hsingle, hopen] at hagree
    exact (kind_eq_iff p).mp (finishAs_inj.mp (Option.some.inj hagree))
  · intro h σ rd s readerPath path mtime hrd
    rw [pkgParseReader_contents hrd hsingle, pkgParserParse_contents hsingle]
    cases hopen : openPackage file with
    | none => rfl
    | some p =>
        have hkind := (kind_eq_iff p).mpr (h p hopen)
        show some (finishContents file p _) = some (finishContents file p _)
        rw [hkind]

/-!
# Two files
-/

def keyFile (json : List UInt8) : List UInt8 :=
  cntFile 1 [(0x2000, 0, json)]

theorem readers_agree_plain_key : ReadersAgree (keyFile (quoted "contentBadgeType")) :=
  (readers_agree_iff (by decide)).mpr (fun p hopen hkind => by
    have hkey : (openPackage (keyFile (quoted "contentBadgeType"))).all
        (fun p => p.metadata.any (Metadata.hasBaseKey readerHasKey)) = true := by
      decide +kernel
    rw [hopen] at hkey
    have hnone := hkind.2.2
    rw [show p.metadata.any (Metadata.hasBaseKey readerHasKey) = true from hkey] at hnone
    cases hnone)

/-- A zero byte in front of the key hides it from the remote parser. -/
theorem zero_hides_key : ¬ forall file, startsMultipart file = false -> ReadersAgree file := by
  intro h
  let file := keyFile (0 :: quoted "contentBadgeType")
  have hagree := h file (by decide) Unit (wholeReads file) () none [] 0
    (wholeReads_serves file)
  have hlocal : (pkgParserParse [] 0 file).map PkgDetail.pkgType = some PkgType.base := by
    decide +kernel
  have hremote : ((pkgParseReader (wholeReads file) file.length none).run ()).1.map
      PkgDetail.pkgType = some PkgType.dlc := by
    decide +kernel
  have hkind := congrArg (Option.map PkgDetail.pkgType) hagree
  rw [Option.map_map, Option.map_map] at hkind
  change ((pkgParseReader (wholeReads file) file.length none).run ()).1.map
    PkgDetail.pkgType = (pkgParserParse [] 0 file).map PkgDetail.pkgType at hkind
  rw [hlocal, hremote] at hkind
  cases hkind

end Parser
end PkgManager
