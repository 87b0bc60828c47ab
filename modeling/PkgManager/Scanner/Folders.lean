import PkgManager.Scanner.Quick
import PkgManager.Scanner.Silence

/-!
# Folders of a drive

The quick scan and the full scan go through a directory tree in the same order.
The root of a drive is not searched further down, except for the folder
{lit}`pkg` and the folders of a console.
-/

namespace PkgManager
namespace Scanner

open CString
open PkgManager.Parser

inductive Node where
  | file (name : Text) (fileSize mtime : Nat)
  | folder (name : Text) (entries : List Node)

def isAlnum (b : UInt8) : Bool :=
  isDigit b || decide (65 ≤ b.toNat ∧ b.toNat ≤ 90) || decide (97 ≤ b.toNat ∧ b.toNat ≤ 122)

/-- {lit}`component_platform` is not empty. -/
def isPlatformFolder (name : Text) : Bool :=
  decide (3 ≤ name.length) && lowerText (name.take 2) == ascii "ps" &&
    (name[2]? == some 52 || name[2]? == some 53) && !(name[3]?.any isAlnum)

/-- {lit}`is_scan_subdir` -/
def isScanSubdir (name : Text) : Bool :=
  name.head? != some 46 && (lowerText name == ascii "pkg" || isPlatformFolder name)

/-- From the last dot of a name on. -/
def dotSuffix (name : Text) : Text :=
  if name.contains 46 then 46 :: (name.reverse.takeWhile (fun b => b != 46)).reverse else []

/-- {lit}`is_package_file` -/
def isPackageFile (name : Text) : Bool :=
  if name.head? == some 46 then false
  else
    match Multipart.multipartPartNumber (charText name) with
    | some n => n == 1
    | none =>
        lowerText (dotSuffix name) == ascii ".pkg" || lowerText (dotSuffix name) == ascii ".001"

def joinPath (dir name : Text) : Text :=
  dir ++ slash :: name

/-- The entry is not hidden, and its path fits in the buffer. -/
def visible (dir name : Text) : Bool :=
  name.head? != some 46 && decide ((joinPath dir name).length < 1024)

/-!
# Walking through a tree

The two scans differ in how long a path they keep.
-/

mutual

def walkNode (pathMax : Nat) (recursive : Bool) (depth : Nat) (dir : Text) :
    Node -> List QuickFile
  | .file name fileSize mtime =>
      if visible dir name && isPackageFile name then
        [{ path := copied pathMax (joinPath dir name)
           filename := copied 256 name
           fileSize := fileSize
           mtime := mtime }]
      else []
  | .folder name entries =>
      if visible dir name && recursive && decide (depth < 5) then
        walkNodes pathMax recursive (depth + 1) (joinPath dir name) entries
      else []

def walkNodes (pathMax : Nat) (recursive : Bool) (depth : Nat) (dir : Text) :
    List Node -> List QuickFile
  | [] => []
  | n :: rest =>
      walkNode pathMax recursive depth dir n ++ walkNodes pathMax recursive depth dir rest

end

/-- {lit}`collect_local_files_quick` -/
def collectLocalFilesQuick (dir : Text) (recursive : Bool) (entries : List Node) :
    List QuickFile :=
  walkNodes 512 recursive 0 dir entries

/-- {lit}`scan_dir_root` -/
def scanDirRoot (dir : Text) (entries : List Node) : List QuickFile :=
  walkNodes 1024 false 0 dir entries

/-- {lit}`scan_dir_recursive` -/
def scanDirRecursive (dir : Text) (entries : List Node) : List QuickFile :=
  walkNodes 1024 true 0 dir entries

/-- {lit}`for_each_scan_subdir` -/
def forEachScanSubdir (root : Text) (visit : Text -> List Node -> List QuickFile)
    (entries : List Node) : List QuickFile :=
  entries.flatMap (fun n =>
    match n with
    | .file _ _ _ => []
    | .folder name inner =>
        if isScanSubdir name && decide ((joinPath root name).length < 1024) then
          visit (joinPath root name) inner
        else [])

/-- The files of a drive in a quick scan. -/
def quickDriveFiles (config : Config) (path : Text) (entries : List Node) : List QuickFile :=
  if config.scanDir = path then collectLocalFilesQuick path true entries
  else
    collectLocalFilesQuick path false entries ++
      forEachScanSubdir path (fun sub inner => collectLocalFilesQuick sub true inner) entries

/-- The files of a drive in a full scan. -/
def fullDriveFiles (config : Config) (path : Text) (entries : List Node) : List QuickFile :=
  if config.scanDir ≠ [] then scanDirRecursive path entries
  else scanDirRoot path entries ++ forEachScanSubdir path scanDirRecursive entries

/-!
# Both scans find the same files
-/

def shortPath (f : QuickFile) : QuickFile :=
  { f with path := copied 512 f.path }

theorem cString_take_take (a b : Nat) (hab : a ≤ b) (text : Text) :
    cString ((cString (text.take b)).take a) = cString (text.take a) := by
  induction text generalizing a b with
  | nil =>
      rw [List.take_nil, List.take_nil]
      show cString (List.take a []) = _
      rw [List.take_nil]
  | cons x rest ih =>
      cases a with
      | zero => rfl
      | succ a =>
          cases b with
          | zero => exact absurd hab (Nat.not_succ_le_zero a)
          | succ b =>
              unfold cString at *
              rw [List.take_succ_cons, List.take_succ_cons, List.takeWhile_cons,
                List.takeWhile_cons]
              split
              · rw [List.take_succ_cons, List.takeWhile_cons]
                rename_i hx
                rw [if_pos hx, ih a b (Nat.le_of_succ_le_succ hab)]
              · rfl

theorem copied_copied (text : Text) : copied 512 (copied 1024 text) = copied 512 text :=
  cString_take_take 511 1023 (by decide) text

mutual

theorem walkNode_short (recursive : Bool) (depth : Nat) (dir : Text) (n : Node) :
    walkNode 512 recursive depth dir n = (walkNode 1024 recursive depth dir n).map shortPath := by
  cases n with
  | file name fileSize mtime =>
      rw [walkNode, walkNode]
      split
      · rw [List.map_singleton]
        unfold shortPath
        rw [copied_copied]
      · rfl
  | folder name entries =>
      rw [walkNode, walkNode]
      split
      · exact walkNodes_short recursive (depth + 1) (joinPath dir name) entries
      · rfl

theorem walkNodes_short (recursive : Bool) (depth : Nat) (dir : Text) (entries : List Node) :
    walkNodes 512 recursive depth dir entries =
      (walkNodes 1024 recursive depth dir entries).map shortPath := by
  cases entries with
  | nil => rw [walkNodes, walkNodes]; rfl
  | cons n rest =>
      rw [walkNodes, walkNodes, List.map_append, walkNode_short recursive depth dir n,
        walkNodes_short recursive depth dir rest]

end

theorem forEachScanSubdir_short (root : Text) (entries : List Node) :
    forEachScanSubdir root (fun sub inner => collectLocalFilesQuick sub true inner) entries =
      (forEachScanSubdir root scanDirRecursive entries).map shortPath := by
  unfold forEachScanSubdir
  rw [List.map_flatMap]
  congr 1
  funext n
  cases n with
  | file name fileSize mtime => rfl
  | folder name inner =>
      dsimp only
      split
      · exact walkNodes_short true 0 _ inner
      · rfl

/-- On a drive of the console the two scans list the same files, up to the length of
the paths. -/
theorem quickDriveFiles_short {config : Config} (hconsole : config.scanDir = []) {path : Text}
    (hpath : path ≠ []) (entries : List Node) :
    quickDriveFiles config path entries = (fullDriveFiles config path entries).map shortPath := by
  unfold quickDriveFiles fullDriveFiles
  rw [if_neg (by rw [hconsole]; exact hpath.symm), if_neg (not_not.mpr hconsole),
    List.map_append, forEachScanSubdir_short]
  exact congrArg (· ++ _) (walkNodes_short false 0 path entries)

/-- So they do in the folder that stands for the USB drive. -/
theorem quickDriveFiles_scanDir {config : Config} (hdir : config.scanDir ≠ [])
    (entries : List Node) :
    quickDriveFiles config config.scanDir entries =
      (fullDriveFiles config config.scanDir entries).map shortPath := by
  unfold quickDriveFiles fullDriveFiles
  rw [if_pos rfl, if_pos hdir]
  exact walkNodes_short true 0 config.scanDir entries

theorem fullDriveFiles_nil (config : Config) (path : Text) : fullDriveFiles config path [] = [] := by
  unfold fullDriveFiles scanDirRecursive scanDirRoot forEachScanSubdir
  rw [walkNodes, walkNodes]
  split
  · rfl
  · rfl

theorem quickDriveFiles_eq {config : Config} {path : Text} (hpath : path ≠ [])
    (hdrive : config.scanDir = [] ∨ config.scanDir = path) {entries : List Node}
    (hshort : forall f, f ∈ fullDriveFiles config path entries -> copied 512 f.path = f.path) :
    quickDriveFiles config path entries = fullDriveFiles config path entries := by
  have hsame : quickDriveFiles config path entries =
      (fullDriveFiles config path entries).map shortPath := by
    by_cases hconsole : config.scanDir = []
    · exact quickDriveFiles_short hconsole hpath entries
    · have hdir := hdrive.resolve_left hconsole
      rw [← hdir]
      exact quickDriveFiles_scanDir hconsole entries
  rw [hsame]
  apply (List.map_congr_left _).trans (List.map_id _)
  intro f hf
  unfold shortPath
  rw [hshort f hf]
  rfl

end Scanner
end PkgManager

/-!
# The full scan

A full scan forgets the catalog and parses every file.  What lies on the sources is
the same for both scans, but not every file is listed by both.
-/

namespace PkgManager
namespace Scanner

open CString
open PkgManager.Parser

/-- What lies on the sources: the folders of the drives, and what a share or a web
server reports for the source at some place of the configuration.  A web source is
not scanned twice within a minute by quick scans. -/
structure Contents where
  mounted : Text -> Bool
  entries : Text -> List Node
  answers : Nat -> Bool
  reported : Nat -> List QuickFile
  scannedLately : Nat -> Bool

/-- {lit}`quick_smb_pkg_cb` for all reported files -/
def quickReported (reported : List QuickFile) : Option (List QuickFile) :=
  let accepted := reported.filter (fun f => isPackageFile f.filename)
  if accepted.all (fun f => decide (f.path.length < 512)) then some accepted else none

/-- The files that a quick scan lists. -/
def quickFiles (config : Config) (contents : Contents) (i : Nat) (s : Source) :
    List QuickFile :=
  match s.kind with
  | .drive _ => quickDriveFiles config s.name.path (contents.entries s.name.path)
  | .share _ => (quickReported (contents.reported i)).getD []
  | .web _ => (quickReported (contents.reported i)).getD []

def Contents.world (config : Config) (contents : Contents) : World where
  mounted := contents.mounted
  answers := fun i =>
    contents.answers i && !contents.scannedLately i && (quickReported (contents.reported i)).isSome
  files := fun i => ((sources config)[i]?.map (quickFiles config contents i)).getD []

/-- The turns of the sources whose files are scanned. -/
def turnsOf (config : Config) (contents : Contents) : List Turn :=
  ((sources config).zipIdx.filter (fun s => (browsedShare s.1).isNone)).map
    (fun s => { name := s.1.name, listing := look (contents.world config) s.2 s.1 })

/-!
# Full scan
-/

/-- {lit}`process_pkg_file` -/
def processPkgFile (parse : ParseEntry) (c : Catalog) (f : QuickFile) : Catalog :=
  { c with
    scannedFiles := addScannedFile f.path f.fileSize f.mtime c.scannedFiles
    packages :=
      if maxPackages ≤ c.packages.length then c.packages
      else c.packages ++ (parse f).toList }

/-- The files of a source that a full scan parses.  The folder that stands for the USB
drive is not asked whether it is mounted. -/
def fullFiles (config : Config) (contents : Contents) (i : Nat) (s : Source) : List QuickFile :=
  match s.kind with
  | .drive onlyMounted =>
      if contents.mounted s.name.path || (config.scanDir != [] && !onlyMounted) then
        fullDriveFiles config s.name.path (contents.entries s.name.path)
      else []
  | .share share =>
      if share.browseOnly || !contents.answers i then []
      else (quickReported (contents.reported i)).getD []
  | .web _ => contents.reported i

/-- The entry of a source in the list of drives, when it gets one. -/
def fullDrive (config : Config) (contents : Contents) (i : Nat) (s : Source) (count : Nat)
    (drives : List PkgDrive) : List PkgDrive :=
  let add := addDriveEntry s.name.id s.name.label s.name.path s.name.type
  match s.kind with
  | .drive onlyMounted =>
      if contents.mounted s.name.path || (config.scanDir != [] && !onlyMounted) then
        add true count drives
      else drives
  | .share share =>
      if share.browseOnly then add true 0 drives
      else if contents.answers i && (quickReported (contents.reported i)).isSome then
        add true count drives
      else add false 0 drives
  | .web _ => if contents.answers i then add true count drives else add false 0 drives

def fullSource (parse : ParseEntry) (config : Config) (contents : Contents) (c : Catalog)
    (s : Source × Nat) : Catalog :=
  let after := (fullFiles config contents s.2 s.1).foldl (processPkgFile parse) c
  { after with
    drives := fullDrive config contents s.2 s.1 (after.packages.length - c.packages.length)
      after.drives }

def emptyCatalog : Catalog where
  packages := []
  drives := []
  scannedFiles := []

/-- {lit}`scan_full_owned` -/
def scanFullOwned (parse : ParseEntry) (config : Config) (contents : Contents) : Catalog :=
  sortCatalog ((sources config).zipIdx.foldl (fullSource parse config contents) emptyCatalog)

/-- All files that a full scan parses. -/
def allFullFiles (config : Config) (contents : Contents) : List QuickFile :=
  (sources config).zipIdx.flatMap (fun s => fullFiles config contents s.2 s.1)

section

variable {parse : ParseEntry} {config : Config} {contents : Contents}

theorem processPkgFile_packages {c : Catalog} {f : QuickFile}
    (hroom : c.packages.length < maxPackages) :
    (processPkgFile parse c f).packages = c.packages ++ (parse f).toList :=
  if_neg (Nat.not_le_of_lt hroom)

theorem foldl_processPkgFile_packages (files : List QuickFile) (c : Catalog)
    (hroom : c.packages.length + files.length ≤ maxPackages) :
    (files.foldl (processPkgFile parse) c).packages = c.packages ++ files.filterMap parse := by
  induction files generalizing c with
  | nil => exact (List.append_nil _).symm
  | cons f rest ih =>
      rw [List.length_cons] at hroom
      have hone : (processPkgFile parse c f).packages = c.packages ++ (parse f).toList := by
        apply processPkgFile_packages
        exact Nat.lt_of_lt_of_le (Nat.lt_add_of_pos_right (Nat.succ_pos _)) hroom
      have hlength : (parse f).toList.length ≤ 1 := by
        cases parse f with
        | none => exact Nat.zero_le 1
        | some p => exact Nat.le_refl 1
      have hnext : (processPkgFile parse c f).packages.length + rest.length ≤ maxPackages := by
        rw [hone, List.length_append]
        exact (by omega : c.packages.length + (parse f).toList.length + rest.length ≤
          c.packages.length + (rest.length + 1)).trans hroom
      rw [List.foldl_cons, ih _ hnext, hone, List.append_assoc]
      cases hparse : parse f with
      | none => rw [List.filterMap_cons_none hparse]; rfl
      | some p => rw [List.filterMap_cons_some hparse]; rfl

theorem foldl_fullSource_packages (parse : ParseEntry) (rest : List (Source × Nat)) (c : Catalog)
    (hroom : c.packages.length +
      (rest.flatMap (fun s => fullFiles config contents s.2 s.1)).length ≤ maxPackages) :
    (rest.foldl (fullSource parse config contents) c).packages =
      c.packages ++ (rest.flatMap (fun s => fullFiles config contents s.2 s.1)).filterMap parse := by
  induction rest generalizing c with
  | nil => exact (List.append_nil _).symm
  | cons s rest ih =>
      rw [List.flatMap_cons, List.length_append, ← Nat.add_assoc] at hroom
      have hone : (fullSource parse config contents c s).packages =
          c.packages ++ (fullFiles config contents s.2 s.1).filterMap parse :=
        foldl_processPkgFile_packages _ c (Nat.le_of_add_right_le hroom)
      rw [List.foldl_cons, ih, hone, List.flatMap_cons, List.filterMap_append, List.append_assoc]
      have hlength := List.length_filterMap_le parse (fullFiles config contents s.2 s.1)
      rw [hone, List.length_append]
      exact (Nat.add_le_add_right (Nat.add_le_add_left hlength _) _).trans hroom

/-- The packages of a full scan are those of all files, when there is room. -/
theorem mem_scanFullOwned (hroom : (allFullFiles config contents).length ≤ maxPackages)
    (p : PkgDetail) : p ∈ (scanFullOwned parse config contents).packages ↔
      exists f, f ∈ allFullFiles config contents ∧ parse f = some p := by
  have hrun := foldl_fullSource_packages parse (sources config).zipIdx emptyCatalog (by
      show 0 + (allFullFiles config contents).length ≤ maxPackages
      rw [Nat.zero_add]
      exact hroom)
  unfold scanFullOwned sortCatalog
  dsimp only
  rw [mem_sortPackages, hrun]
  exact List.mem_filterMap

end

end Scanner
end PkgManager
