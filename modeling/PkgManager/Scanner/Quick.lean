import PkgManager.Multipart.Header
import PkgManager.Scanner.Catalog

/-!
# The quick scan of one source

A quick scan compares the files of a source with the catalog.  Only one scan runs
at a time, so the catalog is the same before and after new files are parsed.
-/

namespace PkgManager
namespace Scanner

open CString
open PkgManager.Parser

/-- {lit}`quick_file_entry_t` -/
structure QuickFile where
  path : Text
  filename : Text
  fileSize : Nat
  mtime : Nat
deriving DecidableEq

/-- What a listing of a source came to. -/
inductive Listing where
  | skipped
  | unmounted
  | listed (files : List QuickFile)
deriving DecidableEq

/-- The names that a drive goes by. -/
structure DriveName where
  id : Text
  label : Text
  path : Text
  type : Text
deriving DecidableEq

structure Scan where
  catalog : Catalog
  changed : Nat
deriving DecidableEq

/-- The distance of two times, read as signed values. -/
def timeGap (a b : Nat) : Nat :=
  (Int.bmod a (2 ^ 64) - Int.bmod b (2 ^ 64)).natAbs

def ownPackages (drivePath : Text) (c : Catalog) : List PkgDetail :=
  c.packages.filter (fun p => pkgMatchesDrivePath p.path drivePath)

def ownScannedFiles (drivePath : Text) (c : Catalog) : List ScannedFile :=
  c.scannedFiles.filter (fun e => pkgMatchesDrivePath e.path drivePath)

def isDrive (drive : DriveName) (d : PkgDrive) : Bool :=
  d.path == drive.path || d.id == drive.id

/-!
# Is anything different?
-/

/-- The file of a package is still listed as the package has it. -/
def packageListed (files : List QuickFile) (p : PkgDetail) : Bool :=
  p.mtime != 0 &&
    files.any (fun f => f.path == p.path && f.fileSize == p.fileSize &&
      (decide (timeGap f.mtime p.mtime ≤ 2) || f.mtime == 0))

def fileRecorded (drivePath : Text) (c : Catalog) (f : QuickFile) : Bool :=
  (ownScannedFiles drivePath c).any (fun e => f.path == e.path && f.fileSize == e.fileSize &&
    (decide (timeGap f.mtime e.mtime ≤ 2) || f.mtime == 0 || e.mtime == 0))

/-- A part of a package that is not its first. -/
def isLaterPart (path : Text) : Bool :=
  (Multipart.multipartPartNumber (charText path)).any (fun n => decide (1 < n))

def fileKnown (drivePath : Text) (c : Catalog) (f : QuickFile) : Bool :=
  fileRecorded drivePath c f &&
    ((ownPackages drivePath c).any (fun p => f.path == p.path) || isLaterPart f.path)

def driveWasMounted (drive : DriveName) (c : Catalog) : Bool :=
  (c.drives.find? (isDrive drive)).any PkgDrive.mounted

def identical (drive : DriveName) (c : Catalog) (files : List QuickFile) : Bool :=
  let own := ownPackages drive.path c
  if files.length ≠ (ownScannedFiles drive.path c).length then false
  else if files = [] then driveWasMounted drive c && own.isEmpty
  else
    decide (0 < own.length ∧ own.length ≤ files.length) && own.all (packageListed files) &&
      files.all (fileKnown drive.path c)

def setMounted (found : Nat) (d : PkgDrive) : PkgDrive :=
  { d with mounted := true, pkgCount := found, clickable := decide (0 < found) }

def setUnmounted (d : PkgDrive) : PkgDrive :=
  { d with mounted := false, pkgCount := 0, clickable := false }

/-- The drive as it is after a scan, with a new entry when it had none. -/
def mountDrive (drive : DriveName) (found new : Nat) (drives : List PkgDrive) : List PkgDrive :=
  if drives.any (isDrive drive) then
    Table.replaceFirst (isDrive drive) (setMounted found) drives
  else addDriveEntry drive.id drive.label drive.path drive.type true new drives

/-!
# Packages that are kept, and files that are parsed
-/

/-- The package may be kept for the file. -/
def cached (drivePath : Text) (f : QuickFile) (p : PkgDetail) : Bool :=
  pkgMatchesDrivePath p.path drivePath && f.path == p.path && f.fileSize == p.fileSize &&
    (f.mtime == 0 || p.mtime == 0 || decide (timeGap f.mtime p.mtime ≤ 2))

def fillMtime (mtime : Nat) (p : PkgDetail) : PkgDetail :=
  if p.mtime = 0 ∧ mtime ≠ 0 then { p with mtime := mtime } else p

/-- The state of the loop over the listed files. -/
structure Matching where
  packages : List PkgDetail
  updated : List PkgDetail
  needsParsing : List QuickFile

def matchFile (drivePath : Text) (m : Matching) (f : QuickFile) : Matching :=
  match m.packages.find? (cached drivePath f) with
  | some p =>
      { m with
        packages := Table.replaceFirst (cached drivePath f) (fillMtime f.mtime) m.packages
        updated := m.updated ++ [fillMtime f.mtime p] }
  | none => { m with needsParsing := m.needsParsing ++ [f] }

def matchFiles (drivePath : Text) (packages : List PkgDetail) (files : List QuickFile) :
    Matching :=
  files.foldl (matchFile drivePath) { packages := packages, updated := [], needsParsing := [] }

/-- {lit}`is_provisional_package` -/
def isProvisionalPackage (p : PkgDetail) : Bool :=
  p.titleId == ascii "UNKNOWN" && p.titleName == ascii "Unknown Package"

def hasPath (files : List QuickFile) (path : Text) : Bool :=
  files.any (fun f => f.path == path)

def recordFiles (files : List QuickFile) (scannedFiles : List ScannedFile) : List ScannedFile :=
  files.foldl (fun acc f => addScannedFile f.path f.fileSize f.mtime acc) scannedFiles

/-- {lit}`parse_pkg_entry` gives the details when it returns 0. -/
abbrev ParseEntry := QuickFile -> Option PkgDetail

def commitFiles (parse : ParseEntry) (drive : DriveName) (files : List QuickFile)
    (c : Catalog) : Catalog :=
  let m := matchFiles drive.path c.packages files
  let parsed := m.needsParsing.filterMap parse
  let updated := m.updated ++ parsed
  let provisional := parsed.any isProvisionalPackage
  let kept := m.packages.filter (fun p =>
    !pkgMatchesDrivePath p.path drive.path ||
      (provisional && !hasPath files p.path && !updated.any (fun q => q.path == p.path)))
  let packages := kept ++ updated.take (maxPackages - kept.length)
  { packages := packages
    scannedFiles :=
      recordFiles files
        (if provisional then c.scannedFiles
        else removeScannedFilesForDrive drive.path c.scannedFiles)
    drives :=
      mountDrive drive
        (packages.filter (fun p => pkgMatchesDrivePath p.path drive.path)).length
        updated.length c.drives }

def scanListed (parse : ParseEntry) (drive : DriveName) (files : List QuickFile)
    (c : Catalog) : Scan :=
  if identical drive c files then
    let count := (ownPackages drive.path c).length
    { catalog := { c with drives := mountDrive drive count count c.drives }, changed := 0 }
  else { catalog := commitFiles parse drive files c, changed := 1 }

def scanUnmounted (drive : DriveName) (c : Catalog) : Scan where
  catalog :=
    { packages := c.packages.filter (fun p => !pkgMatchesDrivePath p.path drive.path)
      scannedFiles := removeScannedFilesForDrive drive.path c.scannedFiles
      drives := Table.replaceFirst (isDrive drive) setUnmounted c.drives }
  changed :=
    if (ownPackages drive.path c).isEmpty && !driveWasMounted drive c then 0 else 1

/-- {lit}`scan_quick_single_source` -/
def scanQuickSingleSource (parse : ParseEntry) (drive : DriveName) (listing : Listing)
    (c : Catalog) : Scan :=
  match listing with
  | .skipped => { catalog := c, changed := 0 }
  | .unmounted => scanUnmounted drive c
  | .listed files => scanListed parse drive files c

end Scanner
end PkgManager

/-!
# The sources of a configuration

A source is a USB drive, the disc, an enabled share or an enabled web source.
The path of a share's drive is the root of the share, whatever folder of it is
configured.
-/

namespace PkgManager
namespace Scanner

open CString
open PkgManager.Parser

/-- {lit}`smb_share_config_t`, without what only the connection uses -/
structure SmbShareConfig where
  enabled : Bool
  browseOnly : Bool
  id : Text
  label : Text
  server : Text
  port : Int
  share : Text
  path : Text
deriving DecidableEq

/-- {lit}`http_source_config_t`, without what only the connection uses -/
structure HttpSourceConfig where
  enabled : Bool
  id : Text
  label : Text
  url : Text
deriving DecidableEq

/-- The environment and the settings; a text that is not set is empty. -/
structure Config where
  scanDir : Text
  discDir : Text
  usbPrefix : Text
  smbShares : List SmbShareConfig
  httpSources : List HttpSourceConfig
deriving DecidableEq

inductive SourceKind where
  /-- A local directory; some are passed over while they are not mounted. -/
  | drive (onlyMounted : Bool)
  | share (config : SmbShareConfig)
  | web (config : HttpSourceConfig)
deriving DecidableEq

structure Source where
  name : DriveName
  kind : SourceKind
deriving DecidableEq

def usbSource (usbPrefix : Text) (i : Nat) : Source where
  name :=
    { id := copied 32 (ascii "usb" ++ intText i)
      label := copied 64 (ascii "USB Drive " ++ intText i)
      path := copied 64 (usbPrefix ++ intText i)
      type := ascii "usb" }
  kind := .drive false

def discSource (path : Text) (onlyMounted : Bool) : Source where
  name := { id := ascii "disc", label := ascii "Blu-ray Disc", path := path, type := ascii "disc" }
  kind := .drive onlyMounted

def orElse (text other : Text) : Text :=
  if text = [] then other else text

def driveSources (config : Config) : List Source :=
  if config.scanDir ≠ [] then
    { name :=
        { id := ascii "usb0", label := ascii "USB Drive 0", path := config.scanDir,
          type := ascii "usb" }
      kind := .drive false } ::
      (if config.discDir = [] then [] else [discSource config.discDir true])
  else
    (List.range 8).map (usbSource (orElse config.usbPrefix (ascii "/mnt/usb"))) ++
      [discSource (orElse config.discDir (ascii "/mnt/disc")) false]

def shareRoot (share : SmbShareConfig) : Text :=
  if share.port ≠ 0 ∧ share.port ≠ 445 then
    copied 512 (ascii "smb://" ++ share.server ++ ascii ":" ++ intText share.port ++ ascii "/" ++
      share.share)
  else copied 512 (ascii "smb://" ++ share.server ++ ascii "/" ++ share.share)

def shareSource (share : SmbShareConfig) (i : Nat) : Source where
  name :=
    { id := if share.id = [] then copied 32 (ascii "smb" ++ intText i) else copied 32 share.id
      label :=
        if share.label = [] then copied 64 (ascii "SMB: " ++ share.share.take 58)
        else copied 64 share.label
      path := shareRoot share
      type := ascii "smb" }
  kind := .share share

def shareSources (shares : List SmbShareConfig) : List Source :=
  (shares.zipIdx.filter (fun s => s.1.enabled && s.1.server != [] && s.1.share != [])).map
    (fun s => shareSource s.1 s.2)

def webSource (web : HttpSourceConfig) : Source where
  name := { id := web.id, label := web.label, path := web.url, type := ascii "http" }
  kind := .web web

def webSources (webs : List HttpSourceConfig) : List Source :=
  (webs.filter HttpSourceConfig.enabled).map webSource

/-- All sources in the order in which a quick scan goes through them. -/
def sources (config : Config) : List Source :=
  driveSources config ++ shareSources config.smbShares ++ webSources config.httpSources

/-!
# What is on the sources

The listing of a directory, a share or a web server is not part of the scanner.
Sources are told apart by their place in the configuration.
-/

structure World where
  /-- {lit}`is_drive_mounted` -/
  mounted : Text -> Bool
  /-- The server or the share answered, and a web source was not listed a minute ago. -/
  answers : Nat -> Bool
  /-- The package files that a complete listing of the source names. -/
  files : Nat -> List QuickFile

def look (world : World) (i : Nat) (s : Source) : Listing :=
  match s.kind with
  | .drive onlyMounted =>
      if world.mounted s.name.path then .listed (world.files i)
      else if onlyMounted then .skipped
      else .unmounted
  | .share _ => if world.answers i then .listed (world.files i) else .skipped
  | .web _ => if world.answers i then .listed (world.files i) else .skipped

/-!
# Scans
-/

/-- The folder of a share that is only browsed. -/
def sourcePath (share : SmbShareConfig) : Text :=
  copied 1024 (shareRoot share ++ (if share.path = [] then [] else ascii "/") ++ share.path)

def openForBrowsing (d : PkgDrive) : PkgDrive :=
  { d with mounted := true, clickable := true, pkgCount := 0 }

/-- A share that is only browsed has no packages in the catalog. -/
def scanBrowseOnly (name : DriveName) (share : SmbShareConfig) (c : Catalog) : Scan :=
  let hit := fun (p : PkgDetail) => pkgMatchesDrivePath p.path (sourcePath share)
  let entries := c.drives.filter (fun d => d.id == name.id)
  { catalog :=
      { packages := c.packages.filter (fun p => !hit p)
        scannedFiles := removeScannedFilesForDrive (sourcePath share) c.scannedFiles
        drives :=
          if entries = [] then
            addDriveEntry name.id name.label name.path name.type true 0 c.drives
          else c.drives.map (fun d => if d.id == name.id then openForBrowsing d else d) }
    changed :=
      (c.packages.filter hit).length +
        (if entries = [] then 1
        else (entries.filter (fun d => !d.clickable || !d.mounted || d.pkgCount != 0)).length) }

/-- The share when it is only browsed. -/
def browsedShare (s : Source) : Option SmbShareConfig :=
  match s.kind with
  | .share config => if config.browseOnly then some config else none
  | .drive _ => none
  | .web _ => none

def scanSource (parse : ParseEntry) (world : World) (i : Nat) (s : Source) (c : Catalog) :
    Scan :=
  match browsedShare s with
  | some config => scanBrowseOnly s.name config c
  | none => scanQuickSingleSource parse s.name (look world i s) c

/-- An empty request is for all sources. -/
def selects (request : Text) (s : Source) : Bool :=
  request == [] || request == ascii "__all__" || request == s.name.id || request == s.name.path ||
    (match s.kind with
    | .drive _ => false
    | .share _ => pkgMatchesDrivePath request s.name.path
    | .web _ => pkgMatchesDrivePath request s.name.path)

def scanNext (parse : ParseEntry) (world : World) (scan : Scan) (s : Source × Nat) : Scan :=
  let next := scanSource parse world s.2 s.1 scan.catalog
  { catalog := next.catalog, changed := scan.changed + next.changed }

def scanSelected (parse : ParseEntry) (config : Config) (world : World) (request : Text)
    (c : Catalog) : Scan :=
  ((sources config).zipIdx.filter (fun s => selects request s.1)).foldl (scanNext parse world)
    { catalog := c, changed := 0 }

def sortCatalog (c : Catalog) : Catalog :=
  { c with packages := sortPackages c.packages }

/-- {lit}`pkg_scanner_scan_quick` -/
def pkgScannerScanQuick (parse : ParseEntry) (config : Config) (world : World)
    (request : Text) (c : Catalog) : Scan :=
  let scan := scanSelected parse config world request c
  { scan with catalog := if 0 < scan.changed then sortCatalog scan.catalog else scan.catalog }

end Scanner
end PkgManager
