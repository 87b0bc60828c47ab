import PkgManager.CValues

/-!
# Part files

The header of a part file, the names that part files may have, and the drives
they are found on.  A drive is what the file system holds at one moment; discs
are swapped and files are replaced between two accesses.
-/

namespace PkgManager
namespace Multipart

/-- {lit}`MAX_MULTIPART_PARTS` -/
def maxMultipartParts : Nat := 256

/-- {lit}`MULTIPART_HEADER_SIZE` -/
def multipartHeaderSize : Nat := 4096

/-- The fields of {lit}`multipart_header_t` that the stream reads.  A text field
is the C string that starts there. -/
structure MultipartHeader where
  magic : String
  headerVersion : Nat
  partIndex : Nat
  totalParts : Nat
  compressionType : Nat
  chunkSize : Nat
  partDataSize : Nat
  totalPkgSize : Nat
  pkgFilename : String
  titleId : String
  titleName : String
  packageUuid : List UInt8
  iconOffset : Nat
  iconSize : Nat
  partOffset : Nat
  dataOffset : Nat

/-- A file: its first 4096 bytes read as a header, when it has that many, and
its bytes. -/
structure PartFile where
  header : Option MultipartHeader
  size : Nat
  byte : Nat -> UInt8

structure Drive where
  file : String -> Option PartFile
  dir : String -> Option (List String)
  mounted : String -> Bool

def multipartIsValidHeader (hdr : MultipartHeader) : Bool :=
  if hdr.magic != "PS5MPKG1" then false
  else if hdr.headerVersion != 1 then false
  else if hdr.totalParts == 0 || hdr.partIndex == 0 || decide (hdr.partIndex > hdr.totalParts) then
    false
  else if hdr.compressionType != 0 && hdr.compressionType != 1 then false
  else if hdr.chunkSize > 67108864 then false
  else true

/-- The last place after {lit}`.part` that is followed by a digit.  Two
occurrences cannot overlap, so the search may go on at the next character. -/
def lastPartSuffix : List Char -> Option (List Char) -> Option (List Char)
  | [], best => best
  | c :: cs, best =>
      let rest := cs.drop 4
      if hasPrefixCase ".part".toList (c :: cs) && (rest.head?.any Char.isDigit) then
        lastPartSuffix cs (some rest)
      else lastPartSuffix cs best

def multipartPartNumber (filename : String) : Option Nat :=
  let name := (baseName filename).toList
  let staged := strtoul (name.drop 5)
  if name.isEmpty || name.head? == some '.' then none
  else if hasPrefixCase "part_".toList name && decide (0 < staged.1) &&
      decide (staged.1 ≤ maxMultipartParts) &&
      lowerCase staged.2 == ".pkg.part".toList then some staged.1
  else
    match lastPartSuffix name none with
    | none => none
    | some rest =>
        let number := strtoul rest
        if number.1 = 0 ∨ number.1 > maxMultipartParts then none
        else if !number.2.isEmpty && lowerCase number.2 != ".pkg".toList then none
        else some number.1

/-- A target of 0 stands for any part. -/
def multipartIsPartFilename (filename : String) (targetPart : Nat) : Bool :=
  match multipartPartNumber filename with
  | none => false
  | some n => targetPart == 0 || targetPart == n

def pkgParserIsHttpPath (path : String) : Bool :=
  hasPrefix "http://" path || hasPrefix "https://" path

/-- A path without its {lit}`file://` prefix. -/
def localPath (path : String) : String :=
  if hasPrefix "file://" path then String.ofList (path.toList.drop 7) else path

/-- The header when {lit}`multipart_read_header` returns 0. -/
def multipartReadHeader (drive : Drive) (path : String) : Option MultipartHeader :=
  if hasPrefix "smb://" path || pkgParserIsHttpPath path then none
  else
    match drive.file (localPath path) with
    | none => none
    | some f =>
        match f.header with
        | none => none
        | some hdr => if multipartIsValidHeader hdr then some hdr else none

/-- The file's valid header names this package and this part. -/
def Carries (f : PartFile) (uuid : List UInt8) (part : Nat) : Prop :=
  exists hdr, f.header = some hdr ∧ multipartIsValidHeader hdr = true ∧
    hdr.packageUuid = uuid ∧ hdr.partIndex = part

theorem multipartReadHeader_file {drive : Drive} {path : String} {hdr : MultipartHeader}
    (h : multipartReadHeader drive path = some hdr) :
    exists f, drive.file (localPath path) = some f ∧ f.header = some hdr ∧
      multipartIsValidHeader hdr = true := by
  unfold multipartReadHeader at h
  split at h
  · cases h
  · cases hfile : drive.file (localPath path) with
    | none =>
        rw [hfile] at h
        cases h
    | some f =>
        rw [hfile] at h
        dsimp only at h
        cases hhdr : f.header with
        | none =>
            rw [hhdr] at h
            cases h
        | some hdr' =>
            rw [hhdr] at h
            dsimp only at h
            split at h
            · cases h
              exact ⟨f, rfl, hhdr, by assumption⟩
            · cases h

end Multipart
end PkgManager

/-!
# Finding a part

The search of {lit}`pkg_scanner.c` through the drive locations.  Every call to
the file system sees the drives of its own moment, so the search carries a clock.
-/

namespace PkgManager
namespace Multipart

/-- The search state: the number of file system calls made so far, and the part
that a mismatching file of the package announced. -/
structure Probe where
  now : Nat
  detected : Nat

def Probe.tick (pr : Probe) : Probe :=
  { pr with now := pr.now + 1 }

structure PartQuery where
  packageUuid : List UInt8
  pkgFilename : String
  partIndex : Nat

structure FinderEnv where
  scanDir : String := ""
  discDir : String := ""
  tmpDir : String := ""

/-- The UUID matches, or, failing that, the file name of the package does. -/
def matchesPackage (q : PartQuery) (hdr : MultipartHeader) : Bool :=
  hdr.packageUuid == q.packageUuid ||
    (q.pkgFilename != "" && caseEq hdr.pkgFilename q.pkgFilename)

section Search

variable (drives : Nat -> Drive)

def checkPartFile (q : PartQuery) (fullPath : String) (pr : Probe) : Option String × Probe :=
  if !multipartIsPartFilename fullPath 0 then (none, pr)
  else
    match multipartReadHeader (drives pr.now) fullPath with
    | none => (none, pr.tick)
    | some hdr =>
        if !matchesPackage q hdr then (none, pr.tick)
        else if hdr.partIndex = q.partIndex then (some (cTruncate 512 fullPath), pr.tick)
        else if pr.detected = 0 then (none, { pr.tick with detected := hdr.partIndex })
        else (none, pr.tick)

/-- One pass over the entries of a directory, up to the first one that is found. -/
def scanEntries (visit : String -> String -> Probe -> Option String × Probe) (dirPath : String) :
    List String -> Probe -> Option String × Probe
  | [], pr => (none, pr)
  | name :: names, pr =>
      if name.toList.head? == some '.' then scanEntries visit dirPath names pr
      else
        match visit name (cTruncate 1024 (dirPath ++ "/" ++ name)) pr with
        | (some path, pr) => (some path, pr)
        | (none, pr) => scanEntries visit dirPath names pr

def scanFindPartRecursive (q : PartQuery) : Nat -> String -> Probe -> Option String × Probe
  | 0, _, pr => (none, pr)
  | depth + 1, dirPath, pr =>
      match (drives pr.now).dir dirPath with
      | none => (none, pr.tick)
      | some names =>
          scanEntries
            (fun _ fullPath pr =>
              if ((drives pr.now).dir fullPath).isSome then
                scanFindPartRecursive q depth fullPath pr.tick
              else if ((drives pr.now).file fullPath).isSome then
                checkPartFile drives q fullPath pr.tick
              else (none, pr.tick))
            dirPath names pr.tick

/-- The folders of a location that are searched: {lit}`pkg`, and the folders of
a platform such as {lit}`PS4` or {lit}`ps5_pkgs`. -/
def isScanSubdir (name : String) : Bool :=
  let chars := name.toList
  if chars.isEmpty || chars.head? == some '.' then false
  else if caseEq name "pkg" then true
  else
    hasPrefixCase "ps".toList chars && (chars[2]? == some '4' || chars[2]? == some '5') &&
      !(chars[3]?.any Char.isAlphanum)

def scanFindPartInLocation (q : PartQuery) (baseDir : String) (pr : Probe) :
    Option String × Probe :=
  match (drives pr.now).dir baseDir with
  | none => (none, pr.tick)
  | some names =>
      scanEntries
        (fun name fullPath pr =>
          if ((drives pr.now).file fullPath).isSome then
            checkPartFile drives q fullPath pr.tick
          else if ((drives pr.now).dir fullPath).isSome && isScanSubdir name then
            scanFindPartRecursive drives q 6 fullPath pr.tick
          else (none, pr.tick))
        baseDir names pr.tick

/-- The locations in search order, each with whether it must be mounted. -/
def findLocations (env : FinderEnv) : List (String × Bool) :=
  (if env.scanDir != "" then
    (env.scanDir, false) :: (if env.discDir != "" then [(env.discDir, false)] else [])
    else []) ++
  [("/mnt/disc", false), ("/mnt/usb0", true), ("/mnt/usb1", true), ("/mnt/usb2", true),
    ("/mnt/usb3", true), ("/mnt/usb4", true), ("/mnt/usb5", true), ("/mnt/usb6", true),
    ("/mnt/usb7", true)]

def findInLocations (q : PartQuery) : List (String × Bool) -> Probe -> Option String × Probe
  | [], pr => (none, pr)
  | (base, mustMount) :: rest, pr =>
      if mustMount && !(drives pr.now).mounted base then findInLocations q rest pr.tick
      else
        match scanFindPartInLocation drives q base pr with
        | (some path, pr) => (some path, pr)
        | (none, pr) => findInLocations q rest pr

def pkgScannerFindPartEx (env : FinderEnv) (q : PartQuery) (now : Nat) : Option String × Probe :=
  findInLocations drives q (findLocations env) { now := now, detected := 0 }

/-!
# What a search may find

A path that is found is the copy of the path of a file that, at one moment of
the search, carried the part and matched the package.
-/

def FoundBetween (q : PartQuery) (start stop : Nat) (out : String) : Prop :=
  exists t path hdr, start ≤ t ∧ t ≤ stop ∧ out = cTruncate 512 path ∧
    multipartReadHeader (drives t) path = some hdr ∧ matchesPackage q hdr = true ∧
    hdr.partIndex = q.partIndex

/-- The clock does not go back, and what is found was seen on the way. -/
def SearchOk (q : PartQuery) (pr : Probe) (r : Option String × Probe) : Prop :=
  pr.now ≤ r.2.now ∧
    forall out, r.1 = some out -> FoundBetween drives q pr.now r.2.now out

variable {drives}

theorem searchOk_none {q : PartQuery} {pr pr' : Probe} (h : pr.now ≤ pr'.now) :
    SearchOk drives q pr (none, pr') := by
  refine ⟨h, ?_⟩
  intro out hout
  cases hout

theorem searchOk_later {q : PartQuery} {pr mid : Probe} {r : Option String × Probe}
    (h : pr.now ≤ mid.now) (hr : SearchOk drives q mid r) : SearchOk drives q pr r := by
  refine ⟨Nat.le_trans h hr.1, ?_⟩
  intro out hout
  rcases hr.2 out hout with ⟨t, path, hdr, hstart, hstop, hrest⟩
  exact ⟨t, path, hdr, Nat.le_trans h hstart, hstop, hrest⟩

theorem tick_le (pr : Probe) : pr.now ≤ pr.tick.now :=
  Nat.le_succ pr.now

theorem checkPartFile_ok (q : PartQuery) (path : String) (pr : Probe) :
    SearchOk drives q pr (checkPartFile drives q path pr) := by
  unfold checkPartFile
  split
  · exact searchOk_none (Nat.le_refl pr.now)
  · cases hhdr : multipartReadHeader (drives pr.now) path with
    | none => exact searchOk_none (tick_le pr)
    | some hdr =>
        dsimp only
        split
        · exact searchOk_none (tick_le pr)
        · rename_i hmatch
          have hmatch : matchesPackage q hdr = true := by simpa using hmatch
          split
          · rename_i hpart
            refine ⟨tick_le pr, ?_⟩
            intro out hout
            cases hout
            exact ⟨pr.now, path, hdr, Nat.le_refl pr.now, tick_le pr, rfl, hhdr, hmatch, hpart⟩
          · split
            · exact searchOk_none (tick_le pr)
            · exact searchOk_none (tick_le pr)

theorem scanEntries_ok {q : PartQuery}
    {visit : String -> String -> Probe -> Option String × Probe} {dirPath : String}
    (hvisit : forall name path pr, SearchOk drives q pr (visit name path pr))
    (names : List String) (pr : Probe) :
    SearchOk drives q pr (scanEntries visit dirPath names pr) := by
  induction names generalizing pr with
  | nil => exact searchOk_none (Nat.le_refl pr.now)
  | cons name names ih =>
      rw [scanEntries]
      split
      · exact ih pr
      · have hone := hvisit name (cTruncate 1024 (dirPath ++ "/" ++ name)) pr
        cases hr : visit name (cTruncate 1024 (dirPath ++ "/" ++ name)) pr with
        | mk found mid =>
            rw [hr] at hone
            cases found with
            | none => exact searchOk_later hone.1 (ih mid)
            | some path => exact hone

theorem scanFindPartRecursive_ok (q : PartQuery) (depth : Nat) (dirPath : String) (pr : Probe) :
    SearchOk drives q pr (scanFindPartRecursive drives q depth dirPath pr) := by
  induction depth generalizing dirPath pr with
  | zero => exact searchOk_none (Nat.le_refl pr.now)
  | succ depth ih =>
      rw [scanFindPartRecursive]
      split
      · exact searchOk_none (tick_le pr)
      · apply searchOk_later (tick_le pr)
        apply scanEntries_ok
        intro name path pr
        split
        · exact searchOk_later (tick_le pr) (ih path pr.tick)
        · split
          · exact searchOk_later (tick_le pr) (checkPartFile_ok q path pr.tick)
          · exact searchOk_none (tick_le pr)

theorem scanFindPartInLocation_ok (q : PartQuery) (baseDir : String) (pr : Probe) :
    SearchOk drives q pr (scanFindPartInLocation drives q baseDir pr) := by
  unfold scanFindPartInLocation
  split
  · exact searchOk_none (tick_le pr)
  · apply searchOk_later (tick_le pr)
    apply scanEntries_ok
    intro name path pr
    split
    · exact searchOk_later (tick_le pr) (checkPartFile_ok q path pr.tick)
    · split
      · exact searchOk_later (tick_le pr) (scanFindPartRecursive_ok q 6 path pr.tick)
      · exact searchOk_none (tick_le pr)

theorem findInLocations_ok (q : PartQuery) (locations : List (String × Bool)) (pr : Probe) :
    SearchOk drives q pr (findInLocations drives q locations pr) := by
  induction locations generalizing pr with
  | nil => exact searchOk_none (Nat.le_refl pr.now)
  | cons location rest ih =>
      rcases location with ⟨base, mustMount⟩
      rw [findInLocations]
      split
      · exact searchOk_later (tick_le pr) (ih pr.tick)
      · have hone : SearchOk drives q pr (scanFindPartInLocation drives q base pr) :=
          scanFindPartInLocation_ok q base pr
        cases hr : scanFindPartInLocation drives q base pr with
        | mk found mid =>
            rw [hr] at hone
            cases found with
            | none => exact searchOk_later hone.1 (ih mid)
            | some path => exact hone

variable (drives) in
theorem pkgScannerFindPartEx_ok (env : FinderEnv) (q : PartQuery) (now : Nat) :
    SearchOk drives q { now := now, detected := 0 } (pkgScannerFindPartEx drives env q now) :=
  findInLocations_ok q (findLocations env) { now := now, detected := 0 }

end Search

end Multipart
end PkgManager
