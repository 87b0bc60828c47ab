import PkgManager.Scanner.Quick

/-!
# What a scan does to the other sources

A scan of one source takes every package and every record below the path of its
drive for its own.  It also overwrites the record of a file that it lists itself.
-/

namespace PkgManager
namespace Scanner

open CString
open PkgManager.Parser

/-- The records of a file are the same afterwards. -/
structure Kept (c after : Catalog) (path : Text) : Prop where
  packages : forall p, p ∈ c.packages -> p.path = path -> p ∈ after.packages
  scannedFiles : forall e, e ∈ c.scannedFiles -> e.path = path -> e ∈ after.scannedFiles

/-- The files of a source that exist and that it brings into the catalog. -/
def contributed (world : World) (j : Nat) (o : Source) : List QuickFile :=
  match o.kind with
  | .drive _ => if world.mounted o.name.path then world.files j else []
  | .share config => if config.browseOnly then [] else world.files j
  | .web _ => world.files j

def LeavesOthers (config : Config) (world : World) (i : Nat) : Prop :=
  forall s, (sources config)[i]? = some s ->
    forall j o, j ≠ i -> (sources config)[j]? = some o ->
      forall f, f ∈ contributed world j o ->
        forall parse c, c.Fits -> Kept c (scanSource parse world i s c).catalog f.path

def listingReaches (drivePath : Text) (listing : Listing) (path : Text) : Bool :=
  match listing with
  | .skipped => false
  | .unmounted => pkgMatchesDrivePath path drivePath
  | .listed files => pkgMatchesDrivePath path drivePath || (path != [] && hasPath files path)

/-- The scan of the source touches the records of a file. -/
def reaches (world : World) (i : Nat) (s : Source) (path : Text) : Bool :=
  match browsedShare s with
  | some config => pkgMatchesDrivePath path (sourcePath config)
  | none => listingReaches s.name.path (look world i s) path

def OutOfReach (config : Config) (world : World) (i : Nat) : Prop :=
  forall s, (sources config)[i]? = some s ->
    forall j o, j ≠ i -> (sources config)[j]? = some o ->
      forall f, f ∈ contributed world j o -> reaches world i s f.path = false

theorem Kept.refl (c : Catalog) (path : Text) : Kept c c path where
  packages := fun _ hp _ => hp
  scannedFiles := fun _ he _ => he

theorem Kept.trans {a b c : Catalog} {path : Text} (hab : Kept a b path) (hbc : Kept b c path) :
    Kept a c path where
  packages := fun p hp hpath => hbc.packages p (hab.packages p hp hpath) hpath
  scannedFiles := fun e he hpath => hbc.scannedFiles e (hab.scannedFiles e he hpath) hpath

/-!
# Records that a scan does not reach
-/

theorem cached_foreign {drivePath : Text} {f : QuickFile} {p : PkgDetail}
    (h : pkgMatchesDrivePath p.path drivePath = false) : cached drivePath f p = false := by
  unfold cached
  rw [h]
  rfl

theorem matchFile_foreign {drivePath : Text} {m : Matching} {f : QuickFile} {p : PkgDetail}
    (h : pkgMatchesDrivePath p.path drivePath = false) (hp : p ∈ m.packages) :
    p ∈ (matchFile drivePath m f).packages := by
  unfold matchFile
  split
  · exact Table.mem_replaceFirst_of_not (cached_foreign h) hp
  · exact hp

theorem foldl_matchFile_foreign {drivePath : Text} {p : PkgDetail}
    (h : pkgMatchesDrivePath p.path drivePath = false) (files : List QuickFile) (m : Matching)
    (hp : p ∈ m.packages) : p ∈ (files.foldl (matchFile drivePath) m).packages := by
  induction files generalizing m with
  | nil => exact hp
  | cons f rest ih => exact ih _ (matchFile_foreign h hp)

theorem mem_recordFiles {e : ScannedFile} {files : List QuickFile}
    (hpath : hasPath files e.path = false) (scannedFiles : List ScannedFile)
    (he : e ∈ scannedFiles) : e ∈ recordFiles files scannedFiles := by
  induction files generalizing scannedFiles with
  | nil => exact he
  | cons f rest ih =>
      have hboth : (f.path == e.path) = false ∧ hasPath rest e.path = false :=
        Bool.or_eq_false_iff.mp hpath
      exact ih hboth.2 _ (mem_addScannedFile_of_ne (ne_of_beq_false hboth.1).symm he)

theorem recordFiles_nil_path {e : ScannedFile} (hpath : e.path = []) (files : List QuickFile)
    (scannedFiles : List ScannedFile) (he : e ∈ scannedFiles) :
    e ∈ recordFiles files scannedFiles := by
  induction files generalizing scannedFiles with
  | nil => exact he
  | cons f rest ih =>
      apply ih
      by_cases hf : f.path = []
      · change e ∈ addScannedFile f.path f.fileSize f.mtime scannedFiles
        rw [hf, addScannedFile_nil]
        exact he
      · exact mem_addScannedFile_of_ne (by rw [hpath]; exact Ne.symm hf) he

theorem mem_recordFiles_of_unreached {e : ScannedFile} {files : List QuickFile}
    (hpath : (e.path != [] && hasPath files e.path) = false) (scannedFiles : List ScannedFile)
    (he : e ∈ scannedFiles) : e ∈ recordFiles files scannedFiles := by
  rcases Bool.and_eq_false_iff.mp hpath with hempty | hother
  · exact recordFiles_nil_path (bne_eq_false_iff_eq.mp hempty) files scannedFiles he
  · exact mem_recordFiles hother scannedFiles he

theorem mem_removeScannedFiles {e : ScannedFile} {drivePath : Text} {files : List ScannedFile}
    (h : pkgMatchesDrivePath e.path drivePath = false) (he : e ∈ files) :
    e ∈ removeScannedFilesForDrive drivePath files :=
  List.mem_filter.mpr ⟨he, by rw [h]; rfl⟩

theorem commitFiles_kept {parse : ParseEntry} {drive : DriveName} {files : List QuickFile}
    {c : Catalog} {path : Text} (hdrive : pkgMatchesDrivePath path drive.path = false)
    (hlisted : (path != [] && hasPath files path) = false) :
    Kept c (commitFiles parse drive files c) path where
  packages := by
    intro p hp hpath
    rw [← hpath] at hdrive
    apply List.mem_append_left
    apply List.mem_filter.mpr
    constructor
    · exact foldl_matchFile_foreign hdrive files _ hp
    · rw [hdrive]
      rfl
  scannedFiles := by
    intro e he hpath
    rw [← hpath] at hdrive hlisted
    apply mem_recordFiles_of_unreached hlisted
    split
    · exact he
    · exact mem_removeScannedFiles hdrive he

theorem scanQuickSingleSource_kept {parse : ParseEntry} {drive : DriveName} {listing : Listing}
    {c : Catalog} {path : Text} (h : listingReaches drive.path listing path = false) :
    Kept c (scanQuickSingleSource parse drive listing c).catalog path := by
  cases listing with
  | skipped => exact Kept.refl c path
  | unmounted =>
      constructor
      · intro p hp hpath
        rw [← hpath] at h
        change pkgMatchesDrivePath p.path drive.path = false at h
        exact List.mem_filter.mpr ⟨hp, by rw [h]; rfl⟩
      · intro e he hpath
        rw [← hpath] at h
        exact mem_removeScannedFiles h he
  | listed files =>
      have hboth := Bool.or_eq_false_iff.mp h
      show Kept c (scanListed parse drive files c).catalog path
      unfold scanListed
      split
      · exact ⟨fun _ hp _ => hp, fun _ he _ => he⟩
      · exact commitFiles_kept hboth.1 hboth.2

theorem scanBrowseOnly_kept {name : DriveName} {share : SmbShareConfig} {c : Catalog}
    {path : Text} (h : pkgMatchesDrivePath path (sourcePath share) = false) :
    Kept c (scanBrowseOnly name share c).catalog path where
  packages := by
    intro p hp hpath
    rw [← hpath] at h
    apply List.mem_filter.mpr
    constructor
    · exact hp
    · change (!pkgMatchesDrivePath p.path (sourcePath share)) = true
      rw [h]
      rfl
  scannedFiles := by
    intro e he hpath
    rw [← hpath] at h
    exact mem_removeScannedFiles h he

theorem scanSource_kept {parse : ParseEntry} {world : World} {i : Nat} {s : Source}
    {c : Catalog} {path : Text} (h : reaches world i s path = false) :
    Kept c (scanSource parse world i s c).catalog path := by
  unfold scanSource
  unfold reaches at h
  cases hbrowsed : browsedShare s with
  | some config =>
      rw [hbrowsed] at h
      exact scanBrowseOnly_kept h
  | none =>
      rw [hbrowsed] at h
      exact scanQuickSingleSource_kept h

/-- Scans of any sources in any order keep what none of them reaches. -/
theorem scans_kept {parse : ParseEntry} {world : World} {path : Text}
    (run : List (Source × Nat)) (h : forall s, s ∈ run -> reaches world s.2 s.1 path = false)
    (scan : Scan) : Kept scan.catalog (run.foldl (scanNext parse world) scan).catalog path := by
  induction run generalizing scan with
  | nil => exact Kept.refl _ path
  | cons s rest ih =>
      have hstep : Kept scan.catalog (scanNext parse world scan s).catalog path :=
        scanSource_kept (h s List.mem_cons_self)
      exact hstep.trans (ih (fun x hx => h x (List.mem_cons_of_mem s hx)) _)

theorem pkgScannerScanQuick_kept {parse : ParseEntry} {config : Config} {world : World}
    {request path : Text}
    (h : forall i s, (sources config)[i]? = some s -> selects request s = true ->
      reaches world i s path = false)
    (c : Catalog) : Kept c (pkgScannerScanQuick parse config world request c).catalog path := by
  have hrun : Kept c (scanSelected parse config world request c).catalog path := by
    apply scans_kept _ _ { catalog := c, changed := 0 }
    intro s hs
    obtain ⟨hmem, hselected⟩ := List.mem_filter.mp hs
    exact h s.2 s.1 (List.mem_zipIdx_iff_getElem?.mp hmem) hselected
  change Kept c (if 0 < (scanSelected parse config world request c).changed then
    sortCatalog (scanSelected parse config world request c).catalog
    else (scanSelected parse config world request c).catalog) path
  split
  · exact ⟨fun p hp hpath => mem_sortPackages.mpr (hrun.packages p hp hpath), hrun.scannedFiles⟩
  · exact hrun

/-!
# Records that are lost

A package whose file has changed since, and nothing else, is a catalog.
-/

def onlyPackage (p : PkgDetail) : Catalog where
  packages := [p]
  drives := []
  scannedFiles := []

def onlyRecord (e : ScannedFile) : Catalog where
  packages := []
  drives := []
  scannedFiles := [e]

theorem onlyPackage_fits (p : PkgDetail) : (onlyPackage p).Fits where
  packages := show 1 ≤ 4096 by decide
  drives := Nat.zero_le _

theorem onlyRecord_fits (e : ScannedFile) : (onlyRecord e).Fits where
  packages := Nat.zero_le _
  drives := Nat.zero_le _

def largestFile (files : List QuickFile) : Nat :=
  (files.map QuickFile.fileSize).foldr max 0

theorem le_largestFile {f : QuickFile} {files : List QuickFile} (h : f ∈ files) :
    f.fileSize ≤ largestFile files := by
  induction files with
  | nil => cases h
  | cons g rest ih =>
      change f.fileSize ≤ max g.fileSize (largestFile rest)
      rcases List.mem_cons.mp h with hhead | htail
      · rw [hhead]
        exact Nat.le_max_left _ _
      · exact (ih htail).trans (Nat.le_max_right _ _)

/-- A package of the path as no listing of these files has it. -/
def stalePackage (path : Text) (files : List QuickFile) : PkgDetail :=
  { PkgDetail.zero with path := path, fileSize := largestFile files + 1 }

def staleRecord (path : Text) (files : List QuickFile) : ScannedFile where
  path := path
  fileSize := largestFile files + 1
  mtime := 0

/-- A file that is read as a package without any names. -/
def plainPackage (f : QuickFile) : PkgDetail :=
  { PkgDetail.zero with
    path := f.path
    filename := f.filename
    fileSize := f.fileSize
    totalPkgSize := f.fileSize
    mtime := f.mtime
    isValid := true }

def plainEntry : ParseEntry :=
  fun f => some (plainPackage f)

theorem plainPackage_not_provisional (f : QuickFile) :
    isProvisionalPackage (plainPackage f) = false :=
  rfl

theorem matchFiles_none {drivePath : Text} {packages : List PkgDetail} {files : List QuickFile}
    (h : forall f, f ∈ files -> forall p, p ∈ packages -> cached drivePath f p = false) :
    matchFiles drivePath packages files =
      { packages := packages, updated := [], needsParsing := files } := by
  have hrun : forall (rest before : List QuickFile), (forall f, f ∈ rest -> f ∈ files) ->
      rest.foldl (matchFile drivePath)
        { packages := packages, updated := [], needsParsing := before } =
        { packages := packages, updated := [], needsParsing := before ++ rest } := by
    intro rest
    induction rest with
    | nil =>
        intro before _
        rw [List.append_nil]
        rfl
    | cons f rest ih =>
        intro before hsub
        have hnone : packages.find? (cached drivePath f) = none := by
          apply List.find?_eq_none.mpr
          intro p hp
          rw [h f (hsub f List.mem_cons_self) p hp]
          exact Bool.false_ne_true
        have hstep : matchFile drivePath
            { packages := packages, updated := [], needsParsing := before } f =
            { packages := packages, updated := [], needsParsing := before ++ [f] } := by
          unfold matchFile
          dsimp only
          rw [hnone]
        rw [List.foldl_cons, hstep, ih (before ++ [f]) (fun g hg => hsub g (List.mem_cons_of_mem f hg)),
          List.append_assoc]
        rfl
  exact hrun files [] (fun _ hf => hf)

theorem cached_stale {drivePath path : Text} {f : QuickFile} {files : List QuickFile}
    (h : f ∈ files) : cached drivePath f (stalePackage path files) = false := by
  have hsize : (f.fileSize == (stalePackage path files).fileSize) = false :=
    beq_false_of_ne (Nat.ne_of_lt (Nat.lt_succ_of_le (le_largestFile h)))
  unfold cached
  rw [hsize, Bool.and_false, Bool.false_and]

theorem filterMap_plainEntry (files : List QuickFile) :
    (files.filterMap plainEntry).any isProvisionalPackage = false := by
  apply List.any_eq_false.mpr
  intro p hp
  obtain ⟨f, _, hf⟩ := List.mem_filterMap.mp hp
  rw [← Option.some.inj hf, plainPackage_not_provisional]
  exact Bool.false_ne_true

theorem stale_not_plain (path : Text) (files : List QuickFile) :
    stalePackage path files ∉ files.filterMap plainEntry := by
  intro hmem
  obtain ⟨f, hf, hplain⟩ := List.mem_filterMap.mp hmem
  have hsize : f.fileSize = largestFile files + 1 :=
    congrArg PkgDetail.fileSize (Option.some.inj hplain)
  have hle := le_largestFile hf
  rw [hsize] at hle
  exact Nat.not_succ_le_self _ hle

theorem identical_only {drive : DriveName} {p : PkgDetail} {files : List QuickFile}
    (h : pkgMatchesDrivePath p.path drive.path = true) :
    identical drive (onlyPackage p) files = false := by
  have hown : ownPackages drive.path (onlyPackage p) = [p] := List.filter_cons_of_pos h
  unfold identical
  rw [hown]
  cases files with
  | nil =>
      show (driveWasMounted drive (onlyPackage p) && false) = false
      exact Bool.and_false _
  | cons f rest => rfl

theorem scanListed_loses_package {drive : DriveName} {path : Text} {files : List QuickFile}
    (h : pkgMatchesDrivePath path drive.path = true) :
    stalePackage path files ∉
      (scanListed plainEntry drive files (onlyPackage (stalePackage path files))).catalog.packages := by
  have hmatch : matchFiles drive.path [stalePackage path files] files =
      { packages := [stalePackage path files], updated := [], needsParsing := files } := by
    apply matchFiles_none
    intro f hf p hp
    rw [List.mem_singleton.mp hp]
    exact cached_stale hf
  unfold scanListed
  rw [identical_only (show pkgMatchesDrivePath (stalePackage path files).path drive.path = true from h)]
  unfold commitFiles
  dsimp only [onlyPackage]
  rw [hmatch]
  dsimp only
  rw [filterMap_plainEntry]
  intro hmem
  rcases List.mem_append.mp hmem with hkept | hnew
  · have hkeep := (List.mem_filter.mp hkept).2
    change (!pkgMatchesDrivePath path drive.path || false) = true at hkeep
    rw [h] at hkeep
    cases hkeep
  · exact stale_not_plain path files (List.mem_of_mem_take hnew)

/-!
# Records that are overwritten
-/

def SizesUpTo (n : Nat) (files : List ScannedFile) : Prop :=
  forall e, e ∈ files -> e.fileSize ≤ n

theorem addScannedFile_hit {e : ScannedFile} {path : Text} (hpath : e.path = path)
    (hne : path ≠ []) (fileSize mtime : Nat) (rest : List ScannedFile) :
    addScannedFile path fileSize mtime (e :: rest) =
      { e with fileSize := fileSize, mtime := mtime } :: rest := by
  unfold addScannedFile
  rw [if_neg hne]
  exact Table.upsert_hit (p := fun e => e.path == path) _ _ (beq_iff_eq.mpr hpath) rest

theorem addScannedFile_miss {e : ScannedFile} {path : Text} (hpath : e.path ≠ path)
    (fileSize mtime : Nat) (rest : List ScannedFile) :
    addScannedFile path fileSize mtime (e :: rest) =
      e :: addScannedFile path fileSize mtime rest := by
  unfold addScannedFile
  by_cases hne : path = []
  · rw [if_pos hne, if_pos hne]
  · rw [if_neg hne, if_neg hne]
    exact Table.upsert_miss (p := fun e => e.path == path) _ _ (beq_false_of_ne hpath) rest

theorem addScannedFile_sizes {n : Nat} {path : Text} {fileSize mtime : Nat}
    {files : List ScannedFile} (hsize : fileSize ≤ n) (h : SizesUpTo n files) :
    SizesUpTo n (addScannedFile path fileSize mtime files) := by
  intro e he
  unfold addScannedFile at he
  split at he
  · exact h e he
  · rcases Table.mem_upsert he with hold | ⟨r, _, _, hr⟩ | hnew
    · exact h e hold
    · rw [hr]
      exact hsize
    · rw [hnew]
      exact hsize

theorem recordFiles_sizes {n : Nat} {files : List QuickFile}
    (hsizes : forall f, f ∈ files -> f.fileSize ≤ n) (rows : List ScannedFile)
    (h : SizesUpTo n rows) : SizesUpTo n (recordFiles files rows) := by
  induction files generalizing rows with
  | nil => exact h
  | cons f rest ih =>
      apply ih (fun g hg => hsizes g (List.mem_cons_of_mem f hg))
      exact addScannedFile_sizes (hsizes f List.mem_cons_self) h

theorem recordFiles_overwrites {n : Nat} {path : Text} (hne : path ≠ []) {files : List QuickFile}
    (hsizes : forall f, f ∈ files -> f.fileSize ≤ n) (hlisted : hasPath files path = true)
    {e : ScannedFile} (hpath : e.path = path) (rows : List ScannedFile) (h : SizesUpTo n rows) :
    SizesUpTo n (recordFiles files (e :: rows)) := by
  induction files generalizing rows with
  | nil => cases hlisted
  | cons f rest ih =>
      have hrest : forall g, g ∈ rest -> g.fileSize ≤ n :=
        fun g hg => hsizes g (List.mem_cons_of_mem f hg)
      have hsize := hsizes f List.mem_cons_self
      change SizesUpTo n (recordFiles rest (addScannedFile f.path f.fileSize f.mtime (e :: rows)))
      by_cases hf : f.path = path
      · rw [addScannedFile_hit (hpath.trans hf.symm) (by rw [hf]; exact hne)]
        apply recordFiles_sizes hrest
        intro x hx
        rcases List.mem_cons.mp hx with hhead | htail
        · rw [hhead]
          exact hsize
        · exact h x htail
      · rw [addScannedFile_miss (by rw [hpath]; exact Ne.symm hf)]
        apply ih hrest
        · have hboth : (f.path == path || hasPath rest path) = true := hlisted
          rw [beq_false_of_ne hf] at hboth
          exact hboth
        · exact addScannedFile_sizes hsize h

theorem scanListed_overwrites {parse : ParseEntry} {drive : DriveName} {path : Text}
    {files : List QuickFile} (hdrive : pkgMatchesDrivePath path drive.path = false)
    (hne : path ≠ []) (hlisted : hasPath files path = true) :
    staleRecord path files ∉
      (scanListed parse drive files (onlyRecord (staleRecord path files))).catalog.scannedFiles := by
  have hforeign : pkgMatchesDrivePath (staleRecord path files).path drive.path = false := hdrive
  have hown : ownScannedFiles drive.path (onlyRecord (staleRecord path files)) = [] :=
    List.filter_cons_of_neg (by rw [hforeign]; exact Bool.false_ne_true)
  have hdifferent : identical drive (onlyRecord (staleRecord path files)) files = false := by
    unfold identical
    rw [hown]
    cases files with
    | nil => cases hlisted
    | cons f rest => rfl
  have hremove : removeScannedFilesForDrive drive.path [staleRecord path files] =
      [staleRecord path files] :=
    List.filter_cons_of_pos (by rw [hforeign]; rfl)
  unfold scanListed
  rw [hdifferent]
  change staleRecord path files ∉ recordFiles files (if _ then [staleRecord path files]
    else removeScannedFilesForDrive drive.path [staleRecord path files])
  rw [hremove, ite_self]
  intro hmem
  have hsizes := recordFiles_overwrites hne (fun f hf => le_largestFile hf) hlisted
    (show (staleRecord path files).path = path from rfl) [] (fun e he => by cases he)
  exact Nat.not_succ_le_self _ (hsizes _ hmem)

/-!
# When the others are left alone
-/

theorem stale_dropped {drivePath path : Text} (h : pkgMatchesDrivePath path drivePath = true)
    (files : List QuickFile) {after : Catalog}
    (hafter : after.packages =
      [stalePackage path files].filter (fun p => !pkgMatchesDrivePath p.path drivePath)) :
    ¬ Kept (onlyPackage (stalePackage path files)) after path := by
  intro hkept
  have hmem := hkept.packages (stalePackage path files) (List.mem_singleton.mpr rfl) rfl
  rw [hafter] at hmem
  have hkeep := (List.mem_filter.mp hmem).2
  change (!pkgMatchesDrivePath path drivePath) = true at hkeep
  rw [h] at hkeep
  cases hkeep

theorem scanListed_loses {drive : DriveName} {path : Text} {files : List QuickFile}
    (h : listingReaches drive.path (.listed files) path = true) :
    exists c, c.Fits ∧ ¬ Kept c (scanListed plainEntry drive files c).catalog path := by
  cases hdrive : pkgMatchesDrivePath path drive.path with
  | true =>
      refine ⟨onlyPackage (stalePackage path files), onlyPackage_fits _, ?_⟩
      intro hkept
      exact scanListed_loses_package hdrive (hkept.packages _ (List.mem_singleton.mpr rfl) rfl)
  | false =>
      have hboth : (pkgMatchesDrivePath path drive.path ||
          (path != [] && hasPath files path)) = true := h
      rw [hdrive, Bool.false_or, Bool.and_eq_true] at hboth
      refine ⟨onlyRecord (staleRecord path files), onlyRecord_fits _, ?_⟩
      intro hkept
      exact scanListed_overwrites hdrive (bne_iff_ne.mp hboth.1) hboth.2
        (hkept.scannedFiles _ (List.mem_singleton.mpr rfl) rfl)

theorem scanQuickSingleSource_loses {drive : DriveName} {listing : Listing} {path : Text}
    (h : listingReaches drive.path listing path = true) :
    exists c, c.Fits ∧
      ¬ Kept c (scanQuickSingleSource plainEntry drive listing c).catalog path := by
  cases listing with
  | skipped => cases h
  | unmounted =>
      exact ⟨onlyPackage (stalePackage path []), onlyPackage_fits _, stale_dropped h [] rfl⟩
  | listed files => exact scanListed_loses h

theorem scanSource_loses {world : World} {i : Nat} {s : Source} {path : Text}
    (h : reaches world i s path = true) :
    exists parse c, c.Fits ∧ ¬ Kept c (scanSource parse world i s c).catalog path := by
  exists plainEntry
  unfold reaches at h
  unfold scanSource
  cases hbrowsed : browsedShare s with
  | some config =>
      rw [hbrowsed] at h
      exact ⟨onlyPackage (stalePackage path []), onlyPackage_fits _, stale_dropped h [] rfl⟩
  | none =>
      rw [hbrowsed] at h
      exact scanQuickSingleSource_loses h

/-- A scan leaves the other sources alone if and only if it reaches none of
their files. -/
theorem leavesOthers_iff (config : Config) (world : World) (i : Nat) :
    LeavesOthers config world i ↔ OutOfReach config world i := by
  constructor
  · intro h s hs j o hne ho f hf
    cases hreach : reaches world i s f.path with
    | false => rfl
    | true =>
        obtain ⟨parse, c, hfits, hlost⟩ := scanSource_loses hreach
        exact absurd (h s hs j o hne ho f hf parse c hfits) hlost
  · intro h s hs j o hne ho f hf parse c _
    exact scanSource_kept (h s hs j o hne ho f hf)

/-!
# Two folders of one share
-/

def folderShare (id path : Text) : SmbShareConfig where
  enabled := true
  browseOnly := false
  id := id
  label := []
  server := ascii "nas"
  port := 445
  share := ascii "pkgs"
  path := path

def twoFolders : Config where
  scanDir := []
  discDir := []
  usbPrefix := []
  smbShares := [folderShare (ascii "smb0") (ascii "games"), folderShare (ascii "smb1") (ascii "dlc")]
  httpSources := []

def gameFile : QuickFile where
  path := ascii "smb://nas/pkgs/games/game.pkg"
  filename := ascii "game.pkg"
  fileSize := 4096
  mtime := 1000

def dlcFile : QuickFile where
  path := ascii "smb://nas/pkgs/dlc/dlc.pkg"
  filename := ascii "dlc.pkg"
  fileSize := 8192
  mtime := 2000

def twoFoldersWorld : World where
  mounted := fun _ => false
  answers := fun _ => true
  files := fun i => if i = 9 then [gameFile] else [dlcFile]

/-- The catalog after both folders were scanned. -/
def bothFolders : Catalog where
  packages := [plainPackage dlcFile, plainPackage gameFile]
  drives := []
  scannedFiles :=
    [{ path := gameFile.path, fileSize := 4096, mtime := 1000 },
      { path := dlcFile.path, fileSize := 8192, mtime := 2000 }]

/-- The scan of one folder purges the package of the other. -/
theorem other_folder_purged : ¬ LeavesOthers twoFolders twoFoldersWorld 9 := by
  intro h
  have hkept := h (shareSource (folderShare (ascii "smb0") (ascii "games")) 0) (by decide)
    10 (shareSource (folderShare (ascii "smb1") (ascii "dlc")) 1) (by decide) (by decide)
    dlcFile (by decide) plainEntry bothFolders ⟨by decide, by decide⟩
  have hmem := hkept.packages (plainPackage dlcFile) (by decide) rfl
  revert hmem
  decide

/-!
# One drive is scanned
-/

def usbConfig : Config where
  scanDir := []
  discDir := []
  usbPrefix := []
  smbShares := []
  httpSources := []

/-- The drives are there and empty. -/
def emptyDrives : World where
  mounted _ := true
  answers _ := true
  files _ := []

def secondDrive : Catalog :=
  onlyPackage { PkgDetail.zero with path := ascii "/mnt/usb1/game.pkg" }

theorem pkgScannerScanQuick_kept_secondDrive :
    Kept secondDrive
      (pkgScannerScanQuick (fun _ => none) usbConfig emptyDrives (ascii "usb0")
        secondDrive).catalog (ascii "/mnt/usb1/game.pkg") := by
  refine pkgScannerScanQuick_kept (fun i s hs hselected => ?_) secondDrive
  have hall : (sources usbConfig).zipIdx.all (fun s => !selects (ascii "usb0") s.1 ||
      !reaches emptyDrives s.2 s.1 (ascii "/mnt/usb1/game.pkg")) = true := by
    decide +kernel
  have hone := List.all_eq_true.mp hall (s, i) (List.mem_zipIdx_iff_getElem?.mpr hs)
  simpa [hselected] using hone

end Scanner
end PkgManager
