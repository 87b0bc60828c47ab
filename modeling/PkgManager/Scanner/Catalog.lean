import Mathlib.Data.List.Lex
import PkgManager.AppInfo
import PkgManager.Bytes.Table
import PkgManager.Parser.Detail

/-!
# The catalog of the package scanner

The scanner keeps the packages it found, the drives it looked at and a record of
every file it listed.  Which drive a package belongs to is read off its path.
-/

namespace PkgManager
namespace Scanner

open CString
open PkgManager.Parser

def maxPackages : Nat := 4096

def maxDrives : Nat := 16

/-- {lit}`scanned_file_entry_t` -/
structure ScannedFile where
  path : Text
  fileSize : Nat
  mtime : Nat
deriving DecidableEq

/-- {lit}`pkg_drive_t` -/
structure PkgDrive where
  id : Text
  label : Text
  path : Text
  type : Text
  mounted : Bool
  pkgCount : Nat
  clickable : Bool
deriving DecidableEq

structure Catalog where
  packages : List PkgDetail
  drives : List PkgDrive
  scannedFiles : List ScannedFile
deriving DecidableEq

/-- The catalog fits in its arrays. -/
structure Catalog.Fits (c : Catalog) : Prop where
  packages : c.packages.length ≤ maxPackages
  drives : c.drives.length ≤ maxDrives

def slash : UInt8 := 47

def pkgMatchesDrivePath (pkgPath drivePath : Text) : Bool :=
  match drivePath.getLast? with
  | none => false
  | some last =>
      drivePath.isPrefixOf pkgPath &&
        (last == slash || (pkgPath.drop drivePath.length).head?.all (fun b => b == slash))

theorem pkgMatchesDrivePath_prefix {pkgPath drivePath : Text}
    (h : pkgMatchesDrivePath pkgPath drivePath = true) : drivePath <+: pkgPath := by
  unfold pkgMatchesDrivePath at h
  split at h
  · cases h
  · rw [Bool.and_eq_true] at h
    exact List.isPrefixOf_iff_prefix.mp h.1

/-- {lit}`remove_scanned_files_for_drive_locked` -/
def removeScannedFilesForDrive (drivePath : Text) (files : List ScannedFile) :
    List ScannedFile :=
  files.filter (fun e => !pkgMatchesDrivePath e.path drivePath)

/-- {lit}`add_scanned_file_locked` -/
def addScannedFile (path : Text) (fileSize mtime : Nat) (files : List ScannedFile) :
    List ScannedFile :=
  if path = [] then files
  else
    Table.upsert (fun e => e.path == path)
      (fun e => { e with fileSize := fileSize, mtime := mtime })
      { path := copied 512 path, fileSize := fileSize, mtime := mtime } files

/-- {lit}`add_drive_entry` -/
def addDriveEntry (id label path type : Text) (mounted : Bool) (pkgCount : Nat)
    (drives : List PkgDrive) : List PkgDrive :=
  if maxDrives ≤ drives.length then drives
  else
    drives ++
      [{ id := copied 32 id
         label := copied 64 label
         path := copied 256 path
         type := copied 16 type
         mounted := mounted
         pkgCount := pkgCount
         clickable := decide (0 < pkgCount) || type == ascii "smb" }]

/-- Records of other files are left alone. -/
theorem mem_addScannedFile_of_ne {e : ScannedFile} {path : Text} {fileSize mtime : Nat}
    {files : List ScannedFile} (hne : e.path ≠ path) (hmem : e ∈ files) :
    e ∈ addScannedFile path fileSize mtime files := by
  unfold addScannedFile
  split
  · exact hmem
  · exact Table.mem_upsert_of_not (beq_false_of_ne hne) hmem

theorem addScannedFile_nil {fileSize mtime : Nat} {files : List ScannedFile} :
    addScannedFile [] fileSize mtime files = files :=
  if_pos rfl

/-!
# The order of the catalog
-/

/-- {lit}`strcmp` -/
def strcmp : Text -> Text -> Int
  | [], [] => 0
  | [], b :: _ => -(b.toNat : Int)
  | a :: _, [] => (a.toNat : Int)
  | a :: as, b :: bs => if a = b then strcmp as bs else (a.toNat : Int) - b.toNat

def lowerText (text : Text) : Text :=
  text.map (fun b => if 65 ≤ b.toNat ∧ b.toNat ≤ 90 then b + 32 else b)

def strcasecmp (a b : Text) : Int :=
  strcmp (lowerText a) (lowerText b)

/-- The bytes of a text as characters. -/
def charText (text : Text) : String :=
  String.ofList (text.map (fun b => Char.ofNat b.toNat))

def typeRank : PkgType -> Int
  | .unknown => 0
  | .base => 1
  | .update => 2
  | .dlc => 3

/-- {lit}`compare_pkg_by_title_name` -/
def comparePkgByTitleName (a b : PkgDetail) : Int :=
  let na := if a.titleName = [] then ascii "Unknown Package" else a.titleName
  let nb := if b.titleName = [] then ascii "Unknown Package" else b.titleName
  let cmp := strcasecmp na nb
  let vcmp :=
    if a.appVersion ≠ [] ∧ b.appVersion ≠ [] then
      compareVersions (charText a.appVersion) (charText b.appVersion)
    else 0
  if cmp ≠ 0 then cmp
  else if a.pkgType ≠ b.pkgType then typeRank a.pkgType - typeRank b.pkgType
  else if vcmp ≠ 0 then vcmp
  else strcmp a.path b.path

def sortPackages (packages : List PkgDetail) : List PkgDetail :=
  packages.mergeSort (fun a b => decide (comparePkgByTitleName a b ≤ 0))

theorem mem_sortPackages {p : PkgDetail} {packages : List PkgDetail} :
    p ∈ sortPackages packages ↔ p ∈ packages :=
  List.mem_mergeSort

end Scanner
end PkgManager

/-!
# Comparing texts

The comparisons of the C library order texts by their bytes.
-/

namespace PkgManager
namespace Scanner

open CString
open PkgManager.Parser

theorem strcmp_self (a : Text) : strcmp a a = 0 := by
  induction a with
  | nil => rfl
  | cons x rest ih => rw [strcmp, if_pos rfl, ih]

def byteValues (text : Text) : List Nat :=
  text.map UInt8.toNat

theorem byteValues_inj {a b : Text} (h : byteValues a = byteValues b) : a = b :=
  List.map_injective_iff.mpr (fun _ _ => UInt8.toNat_inj.mp) h

theorem zeroFree_cons {x : UInt8} {a : Text} (h : ZeroFree (x :: a)) : 0 < x.toNat ∧ ZeroFree a := by
  constructor
  · have hne := h x List.mem_cons_self
    rcases Nat.eq_zero_or_pos x.toNat with hzero | hpos
    · exact absurd (UInt8.toNat_inj.mp hzero) hne
    · exact hpos
  · intro b hb
    exact h b (List.mem_cons_of_mem x hb)

/-- The comparison of two texts is that of their bytes. -/
theorem strcmp_order {a b : Text} (ha : ZeroFree a) (hb : ZeroFree b) :
    (strcmp a b < 0 ↔ byteValues a < byteValues b) ∧ (strcmp a b = 0 ↔ a = b) := by
  induction a generalizing b with
  | nil =>
      cases b with
      | nil => simp [strcmp]
      | cons y b =>
          have hy := (zeroFree_cons hb).1
          have hneg : strcmp [] (y :: b) < 0 := by
            simp only [strcmp]
            omega
          constructor
          · exact ⟨fun _ => List.nil_lt_cons _ _, fun _ => hneg⟩
          · exact ⟨fun h => absurd h hneg.ne, fun h => by cases h⟩
  | cons x a ih =>
      have hx := (zeroFree_cons ha).1
      cases b with
      | nil =>
          have hpos : 0 < strcmp (x :: a) [] := by
            simp only [strcmp]
            omega
          constructor
          · exact ⟨fun h => absurd h hpos.not_gt, fun h => absurd h (List.not_lt_nil _)⟩
          · exact ⟨fun h => absurd h hpos.ne', fun h => by cases h⟩
      | cons y b =>
          have hrest := ih (zeroFree_cons ha).2 (zeroFree_cons hb).2
          by_cases hxy : x = y
          · subst hxy
            simpa [strcmp, byteValues, List.cons_lt_cons_iff] using hrest
          · have hne : x.toNat ≠ y.toNat := fun h => hxy (UInt8.toNat_inj.mp h)
            have hcmp : strcmp (x :: a) (y :: b) = (x.toNat : Int) - y.toNat := by
              simp only [strcmp, if_neg hxy]
            rw [hcmp]
            constructor
            · rw [byteValues, List.map_cons, byteValues, List.map_cons, List.cons_lt_cons_iff]
              omega
            · constructor
              · intro h
                omega
              · intro h
                exact absurd (List.cons.inj h).1 hxy

theorem zeroFree_lowerText {text : Text} (h : ZeroFree text) : ZeroFree (lowerText text) := by
  intro b hb
  rcases List.mem_map.mp hb with ⟨c, hc, rfl⟩
  have hne := h c hc
  split
  · rename_i hupper
    intro hzero
    have hval := congrArg UInt8.toNat hzero
    rw [UInt8.toNat_add] at hval
    change (c.toNat + 32) % 256 = 0 at hval
    omega
  · exact hne

/-- Two texts are the same without regard to case when their lower case is. -/
theorem strcasecmp_zero {a b : Text} (ha : ZeroFree a) (hb : ZeroFree b) :
    strcasecmp a b = 0 ↔ lowerText a = lowerText b :=
  (strcmp_order (zeroFree_lowerText ha) (zeroFree_lowerText hb)).2

end Scanner
end PkgManager
