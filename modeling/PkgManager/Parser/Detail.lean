import PkgManager.Parser.ParamJson

/-!
# The details of a package

The record that every parser fills in, and the decisions that are taken once all
entries of the package were seen.
-/

namespace PkgManager
namespace Parser

open CString
open Endian

inductive PkgType where
  | unknown
  | base
  | update
  | dlc
deriving DecidableEq

/-- {lit}`pkg_detail_t` -/
structure PkgDetail where
  path : Text
  filename : Text
  titleId : Text
  titleName : Text
  localizedTitles : Text
  defaultLanguage : Text
  contentId : Text
  appVersion : Text
  fileSize : Nat
  totalPkgSize : Nat
  iconOffset : Nat
  iconSize : Nat
  hasIcon : Bool
  isValid : Bool
  isMultipart : Bool
  partIndex : Nat
  totalParts : Nat
  pkgType : PkgType
  pkgTypeStr : Text
  category : Text
  mtime : Nat
  blurhash : Text
  platform : Text
deriving DecidableEq

/-- The record after {lit}`memset`. -/
def PkgDetail.zero : PkgDetail where
  path := []
  filename := []
  titleId := []
  titleName := []
  localizedTitles := []
  defaultLanguage := []
  contentId := []
  appVersion := []
  fileSize := 0
  totalPkgSize := 0
  iconOffset := 0
  iconSize := 0
  hasIcon := false
  isValid := false
  isMultipart := false
  partIndex := 0
  totalParts := 0
  pkgType := PkgType.unknown
  pkgTypeStr := []
  category := []
  mtime := 0
  blurhash := []
  platform := []

/-- The sizes of the arrays in the record. -/
def detailSizes : ParamSizes where
  titleId := titleIdLen
  titleName := titleNameLen
  category := 16
  version := 32
  localizedTitles := localizedTitlesLen
  defaultLang := defaultLangLen

/-- The name behind the last slash of a path. -/
def pathName (path : Text) : Text :=
  (path.reverse.takeWhile (fun b => b != 47)).reverse

/-!
# Platform
-/

def isFih (hdr : List UInt8) : Bool :=
  hdr.take 4 == 0x7f :: ascii "FIH"

def isCnt (hdr : List UInt8) : Bool :=
  hdr.take 4 == 0x7f :: ascii "CNT"

def notePlatformHeader (hdr : List UInt8) (d : PkgDetail) : PkgDetail :=
  if isFih hdr then { d with platform := ascii "ps5" } else d

def notePlatformParamJson (d : PkgDetail) : PkgDetail :=
  { d with platform := ascii "ps5" }

def notePlatformParamSfo (d : PkgDetail) : PkgDetail :=
  if d.platform = [] then { d with platform := ascii "ps4" } else d

/-!
# Entries
-/

/-- One record of 32 bytes of the entry table. -/
structure PkgEntry where
  type : Nat
  fnOff : Nat
  dataOff : Nat
  dataSz : Nat
deriving DecidableEq

def pkgEntryAt (table : List UInt8) (i : Nat) : PkgEntry where
  type := be32At table (i * 32)
  fnOff := be32At table (i * 32 + 4)
  dataOff := be32At table (i * 32 + 16)
  dataSz := be32At table (i * 32 + 20)

def pkgEntries (table : List UInt8) (entryCount : Nat) : List PkgEntry :=
  (List.range entryCount).map (pkgEntryAt table)

/-- {lit}`str_table_off` and {lit}`str_table_sz`; zeros when there is no entry. -/
def strTableRange (entries : List PkgEntry) : Nat × Nat :=
  match entries.find? (fun e => e.type == 0x0200) with
  | some e => (e.dataOff, e.dataSz)
  | none => (0, 0)

def entryName (strTable : Option (List UInt8)) (e : PkgEntry) : Text :=
  match strTable with
  | some table => if e.fnOff < table.length then cString (table.drop e.fnOff) else []
  | none => []

def isPlaygoPatch (e : PkgEntry) (name : Text) : Bool :=
  e.type == 0x1008 || name == ascii "app/playgo-chunk.dat"

def isDeltaPatch (e : PkgEntry) (name : Text) : Bool :=
  e.type == 0x0407 || e.type == 0x0408 || name == ascii "target-deltainfo.dat" ||
    name == ascii "origin-deltainfo.dat"

def isSmall (e : PkgEntry) : Bool :=
  decide (0 < e.dataSz) && decide (e.dataSz < 262144)

def isParamJson (e : PkgEntry) (name : Text) : Bool :=
  (e.type == 0x2000 || name == ascii "param.json") && isSmall e

def isParamSfo (e : PkgEntry) (name : Text) : Bool :=
  (e.type == 0x1000 || name == ascii "param.sfo") && isSmall e

theorem isSmall_pos {e : PkgEntry} (h : isSmall e = true) : 0 < e.dataSz := by
  unfold isSmall at h
  rw [Bool.and_eq_true] at h
  exact of_decide_eq_true h.1

theorem isParamJson_pos {e : PkgEntry} {name : Text} (h : isParamJson e name = true) :
    0 < e.dataSz := by
  unfold isParamJson at h
  rw [Bool.and_eq_true] at h
  exact isSmall_pos h.2

theorem isParamSfo_pos {e : PkgEntry} {name : Text} (h : isParamSfo e name = true) :
    0 < e.dataSz := by
  unfold isParamSfo at h
  rw [Bool.and_eq_true] at h
  exact isSmall_pos h.2

/-- The locals of the loop over the entries, with the record it fills in. -/
structure Walk where
  detail : PkgDetail
  hasPlaygoChunkPatch : Bool
  hasDeltaPatch : Bool
  hasBaseAppMetadata : Bool
  hasPs4SfoCategory : Bool
deriving DecidableEq

def Walk.start (d : PkgDetail) : Walk :=
  ⟨d, false, false, false, false⟩

def noteMarkers (e : PkgEntry) (name : Text) (w : Walk) : Walk :=
  { w with
    hasPlaygoChunkPatch := w.hasPlaygoChunkPatch || isPlaygoPatch e name
    hasDeltaPatch := w.hasDeltaPatch || isDeltaPatch e name }

def PkgDetail.texts (d : PkgDetail) : ParamTexts where
  titleId := d.titleId
  titleName := d.titleName
  category := d.category
  version := d.appVersion
  localizedTitles := d.localizedTitles
  defaultLang := d.defaultLanguage

def PkgDetail.withTexts (d : PkgDetail) (t : ParamTexts) : PkgDetail :=
  { d with
    titleId := t.titleId
    titleName := t.titleName
    category := t.category
    appVersion := t.version
    localizedTitles := t.localizedTitles
    defaultLanguage := t.defaultLang }

/-- What a readable param.json does.  {lit}`hasKey` is the test for the keys that
only base applications have. -/
def noteParamJson (hasKey : List UInt8 -> Bool) (json : List UInt8) (w : Walk) : Walk :=
  let d := notePlatformParamJson w.detail
  { w with
    detail := d.withTexts (pkgParserParseParamJson detailSizes json d.texts)
    hasBaseAppMetadata := w.hasBaseAppMetadata || hasKey json }

/-- The texts of a param.sfo go into a record.  The parser writes the localized
titles in place and the other texts to arrays of its own. -/
def noteSfoTexts (sfo : List UInt8) (d : PkgDetail) (w : Walk) : Walk :=
  let s := pkgParserParseParamSfo detailSizes sfo
    { ParamTexts.empty with
      localizedTitles := d.localizedTitles, defaultLang := d.defaultLanguage }
  { w with
    detail :=
      { d with
        localizedTitles := s.localizedTitles
        defaultLanguage := s.defaultLang
        category := if s.category ≠ [] ∧ d.category = [] then s.category else d.category
        titleId := if d.titleId = [] ∧ s.titleId ≠ [] then s.titleId else d.titleId
        titleName := if d.titleName = [] ∧ s.titleName ≠ [] then s.titleName else d.titleName
        appVersion := if d.appVersion = [] ∧ s.version ≠ [] then s.version else d.appVersion }
    hasPs4SfoCategory := w.hasPs4SfoCategory || decide (s.category ≠ [] ∧ d.category = []) }

/-- What a readable param.sfo does. -/
def noteParamSfo (sfo : List UInt8) (w : Walk) : Walk :=
  noteSfoTexts sfo (notePlatformParamSfo w.detail) w

def noteIcon (cntOffset : Nat) (e : PkgEntry) (name : Text) (w : Walk) : Walk :=
  let fits := w.detail.fileSize = 0 ∨ cntOffset + e.dataOff + e.dataSz ≤ w.detail.fileSize
  if (e.type = 0x1200 ∨ name = ascii "icon0.png") ∧ 0 < e.dataSz ∧
      e.dataSz < 10 * 1024 * 1024 ∧ fits then
    { w with
      detail :=
        { w.detail with
          iconOffset := cntOffset + e.dataOff
          iconSize := e.dataSz
          hasIcon := true } }
  else w

/-!
# Decisions
-/

/-- The 48 bytes at 0x40 up to the first one that is not printable. -/
def contentIdText (bytes : List UInt8) : Text :=
  bytes.takeWhile (fun b => decide (32 ≤ b.toNat ∧ b.toNat ≤ 126))

def isDeltaType (cntTypeMagic : Nat) : Bool :=
  cntTypeMagic % 0x100 == 0x1e || cntTypeMagic / 0x1000000 == 0x41

def isBaseCategory (category : Text) : Bool :=
  startsWith "gd" category || startsWith "bd" category || startsWith "gc" category ||
    startsWith "wt" category

def isDlcCategory (category : Text) : Bool :=
  startsWith "ac" category || startsWith "al" category || category == ascii "addcont"

/-- The chain of tests; no branch may apply. -/
def classify (cntTypeMagic : Nat) (w : Walk) : PkgType :=
  let category := w.detail.category
  if w.hasPlaygoChunkPatch || w.hasDeltaPatch || isDeltaType cntTypeMagic ||
      startsWith "gp" category then PkgType.update
  else if isDlcCategory category then PkgType.dlc
  else if w.hasPs4SfoCategory && isBaseCategory category then PkgType.base
  else if cntTypeMagic % 0x100 == 1 && !w.hasBaseAppMetadata then PkgType.dlc
  else if isBaseCategory category then PkgType.base
  else PkgType.unknown

def decideType (cntTypeMagic : Nat) (w : Walk) : PkgType :=
  match classify cntTypeMagic w with
  | PkgType.unknown => PkgType.base
  | pkgType => pkgType

def typeText : PkgType -> Text
  | PkgType.unknown => ascii "unknown"
  | PkgType.base => ascii "base"
  | PkgType.update => ascii "update"
  | PkgType.dlc => ascii "dlc"

/-- The part of the content ID between the first dash and the next underscore. -/
def titleIdFromContent (contentId : Text) : Text :=
  match strchr 45 contentId with
  | none => []
  | some dash =>
      match strchr 95 (dash.drop 1) with
      | none => []
      | some us =>
          let len := (dash.drop 1).length - us.length
          if len < titleIdLen then (dash.drop 1).take len else []

def completeTitles (d : PkgDetail) : PkgDetail :=
  let titleId :=
    if d.titleId = [] ∧ d.contentId ≠ [] then titleIdFromContent d.contentId else d.titleId
  let titleName :=
    if d.titleName = [] then if titleId ≠ [] then titleId else ascii "Unknown Package"
    else d.titleName
  { d with titleId := titleId, titleName := titleName }

/-- From the end of the loop to the return. -/
def finishDetail (cntTypeMagic : Nat) (w : Walk) : PkgDetail :=
  let pkgType := decideType cntTypeMagic w
  { completeTitles { w.detail with pkgType := pkgType, pkgTypeStr := typeText pkgType } with
    isValid := true }

end Parser
end PkgManager

/-!
# Walking over a package

The steps that the parsers share.  A read is given the offset and the number of
bytes, and yields all of them or nothing; the local parser reads a file, the
remote one calls a callback that may keep a state.
-/

namespace PkgManager
namespace Parser

open CString
open Endian

section
variable {m : Type -> Type} [Monad m]
variable (read : Nat -> Nat -> m (Option (List UInt8)))

/-- The read of four bytes and their comparison. -/
def isCntAt (cand : Nat) : m Bool := do
  match <- read cand 4 with
  | some magic => pure (isCnt magic)
  | none => pure false

/-- The scan of the table in a FIH header.  {lit}`below` is the test against the
size of the file. -/
def scanFihTable (below : Nat -> Bool) (hdr : List UInt8) : List Nat -> m (Option Nat)
  | [] => pure none
  | off :: rest => do
      let cand := le64At hdr off
      if 0x10000 ≤ cand ∧ below cand = true ∧ cand % 0x1000 = 0 then
        if <- isCntAt read cand then pure (some cand) else scanFihTable below hdr rest
      else scanFihTable below hdr rest

/-- {lit}`for (off = 0x10; off + 8 <= hdr_read; off += 8)` -/
def fihOffsets (hdrRead : Nat) : List Nat :=
  (List.range ((hdrRead - 0x10) / 8)).map (fun i => 0x10 + 8 * i)

/-- {lit}`cnt_offset` when {lit}`cnt_found` is set. -/
def findCnt (below : Nat -> Bool) (hdr : List UInt8) : m (Option Nat) := do
  if isCnt hdr then pure (some 0)
  else if isFih hdr then
    let cand := le64At hdr 0x58
    let found <- if 0 < cand ∧ below cand = true then isCntAt read cand else pure false
    if found then pure (some cand) else scanFihTable read below hdr (fihOffsets hdr.length)
  else pure none

/-- What the parsers take from the CNT header. -/
structure CntHeader where
  typeMagic : Nat
  contentId : Text
  entryCount : Nat
  tableOffset : Nat

def parseCntHeader (bytes : List UInt8) : CntHeader where
  typeMagic := be32At bytes 0x04
  contentId := contentIdText (bytesAt bytes 0x40 48)
  entryCount := be32At bytes 0x10
  tableOffset := be32At bytes 0x18

/-- The header at an offset when it passes the tests before the table is read. -/
def readCntHeader (cntOffset : Nat) : m (Option CntHeader) := do
  match <- read cntOffset 0x80 with
  | none => pure none
  | some bytes =>
      let cnt := parseCntHeader bytes
      if !isCnt bytes then pure none
      else if cnt.entryCount = 0 ∨ cnt.entryCount > 2048 ∨ cnt.tableOffset > 0x200000 then
        pure none
      else pure (some cnt)

def readStrTable (cntOffset : Nat) (entries : List PkgEntry) : m (Option (List UInt8)) :=
  let range := strTableRange entries
  if 0 < range.2 ∧ range.2 < 65536 then read (cntOffset + range.1) range.2 else pure none

/-- The read in a branch that is entered under a condition. -/
def readWhen (c : Bool) (off count : Nat) : m (Option (List UInt8)) :=
  if c then read off count else pure none

def noteJsonRead (hasKey : List UInt8 -> Bool) (w : Walk) : Option (List UInt8) -> Walk
  | some json => noteParamJson hasKey json w
  | none => w

def noteSfoRead (w : Walk) : Option (List UInt8) -> Walk
  | some sfo => noteParamSfo sfo w
  | none => w

/-- One round of the loop over the entries. -/
def scanEntry (hasKey : List UInt8 -> Bool) (cntOffset : Nat) (e : PkgEntry) (name : Text)
    (w : Walk) : m Walk := do
  let w := noteMarkers e name w
  let json <- readWhen read (isParamJson e name) (cntOffset + e.dataOff) e.dataSz
  let w := noteJsonRead hasKey w json
  let sfo <- readWhen read (isParamSfo e name) (cntOffset + e.dataOff) e.dataSz
  let w := noteSfoRead w sfo
  pure (noteIcon cntOffset e name w)

def scanEntries (hasKey : List UInt8 -> Bool) (cntOffset : Nat) (strTable : Option (List UInt8)) :
    List PkgEntry -> Walk -> m Walk
  | [], w => pure w
  | e :: rest, w => do
      let w <- scanEntry read hasKey cntOffset e (entryName strTable e) w
      scanEntries hasKey cntOffset strTable rest w

/-- From the entry table to the return. -/
def parseTable (hasKey : List UInt8 -> Bool) (cntOffset : Nat) (cnt : CntHeader)
    (table : List UInt8) (d : PkgDetail) : m PkgDetail := do
  let entries := pkgEntries table cnt.entryCount
  let strTable <- readStrTable read cntOffset entries
  let w <- scanEntries read hasKey cntOffset strTable entries
    (Walk.start { d with contentId := cnt.contentId })
  pure (finishDetail cnt.typeMagic w)

end

end Parser
end PkgManager
