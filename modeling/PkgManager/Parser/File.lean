import PkgManager.Multipart.Layout
import PkgManager.Parser.Detail
import PkgManager.Bytes.Callback

/-!
# The parser for local files

A file is the list of its bytes; its size and all offsets in it are below 2^63,
so sums of them do not wrap.
-/

namespace PkgManager
namespace Parser

open CString
open Multipart

/-- {lit}`pread` that must yield all bytes. -/
def preadExact (file : List UInt8) (off count : Nat) : Id (Option (List UInt8)) :=
  if off + count ≤ file.length then some (bytesAt file off count) else none

def multipartMagic : List UInt8 :=
  ascii "PS5MPKG1"

def startsMultipart (file : List UInt8) : Bool :=
  multipartMagic.isPrefixOf file

/-- The text in a header field after its last byte was set to zero. -/
def fieldText (field : List UInt8) : Text :=
  cString (field.take (field.length - 1))

def multipartType (field : Text) : PkgType :=
  if field = ascii "update" then PkgType.update
  else if field = ascii "dlc" then PkgType.dlc
  else PkgType.base

/-- The details that a valid header of a part gives. -/
def multipartDetail (mhdr : PackedHeader) (d : PkgDetail) : PkgDetail :=
  let pkgType := multipartType (fieldText mhdr.pkgType)
  let titleId :=
    if fieldText mhdr.titleId ≠ [] then fieldText mhdr.titleId else ascii "UNKNOWN"
  let icon := 0 < mhdr.iconOffset ∧ 0 < mhdr.iconSize ∧ mhdr.iconSize < 10 * 1024 * 1024
  { d with
    isMultipart := true
    partIndex := mhdr.partIndex
    totalParts := mhdr.totalParts
    pkgType := pkgType
    pkgTypeStr := typeText pkgType
    titleId := titleId
    titleName := if fieldText mhdr.titleName ≠ [] then fieldText mhdr.titleName else titleId
    appVersion := fieldText mhdr.appVersion
    contentId := fieldText mhdr.contentId
    totalPkgSize := if 0 < mhdr.totalPkgSize then mhdr.totalPkgSize else d.fileSize
    iconOffset := if icon then mhdr.iconOffset else 0
    iconSize := if icon then mhdr.iconSize else 0
    hasIcon := decide icon
    isValid := true }

def parseMultipart (file : List UInt8) (d : PkgDetail) : Option PkgDetail :=
  if startsMultipart file then
    match freadHeader file with
    | none => none
    | some mhdr => if multipartIsValidHeader mhdr.view then some (multipartDetail mhdr d) else none
  else none

/-- The test for the keys that only base applications have. -/
def jsonHasBaseKey (json : List UInt8) : Bool :=
  jsonHasKey json "applicationDrmType" || jsonHasKey json "applicationCategoryType" ||
    jsonHasKey json "contentBadgeType"

/-- The part for a single package. -/
def parsePackage (file : List UInt8) (d : PkgDetail) : Option PkgDetail :=
  let hdr := file.take 0x200
  match findCnt (preadExact file) (fun cand => decide (cand < file.length)) hdr with
  | none => none
  | some cntOffset =>
      match readCntHeader (preadExact file) cntOffset with
      | none => none
      | some cnt =>
          let tableSize := cnt.entryCount * 32
          if 0 < file.length ∧ cntOffset + cnt.tableOffset + tableSize > file.length then none
          else
            match preadExact file (cntOffset + cnt.tableOffset) tableSize with
            | none => none
            | some table =>
                some (parseTable (preadExact file) jsonHasBaseKey cntOffset cnt table (notePlatformHeader hdr d))

/-- The record before the first read. -/
def fileStart (path : Text) (mtime : Nat) (file : List UInt8) : PkgDetail :=
  { PkgDetail.zero with
    path := path.take 511
    filename := (pathName path).take 255
    fileSize := file.length
    totalPkgSize := file.length
    mtime := mtime }

/-- {lit}`pkg_parser_parse` of a local path that can be opened. -/
def pkgParserParse (path : Text) (mtime : Nat) (file : List UInt8) : Option PkgDetail :=
  let d := fileStart path mtime file
  if (file.take 0x200).length < 0x80 then none
  else
    match parseMultipart file d with
    | some d => some d
    | none => parsePackage file d

end Parser
end PkgManager

/-!
# The parser over a read callback

It reads a window from the start of the file once, and asks the callback for
everything that the window does not hold.
-/

namespace PkgManager
namespace Parser

open Callback
open CString

/-- {lit}`PKG_PARSE_READER_PREFIX` -/
def readerWindow : Nat := 256 * 1024

section
variable {σ : Type} (rd : ReadFn σ)

/-- {lit}`reader_get` returns 0 and the bytes. -/
def readerGet (fileSize : Nat) (window : List UInt8) (offset count : Nat) :
    StateM σ (Option (List UInt8)) := do
  if count = 0 then pure (some [])
  else if 0 < fileSize ∧ (offset > fileSize ∨ count > fileSize - offset) then pure none
  else if offset < window.length ∧ count ≤ window.length - offset then
    pure (some (bytesAt window offset count))
  else
    let got <- fill rd count offset
    pure (if got.length = count then some got else none)

/-- The test for the keys of base applications, with {lit}`strstr`. -/
def readerHasKey (json : List UInt8) : Bool :=
  (strstr (quoted "applicationDrmType") json).isSome ||
    (strstr (quoted "applicationCategoryType") json).isSome ||
    (strstr (quoted "contentBadgeType") json).isSome

/-- The record before the first read. -/
def readerStart (fileSize : Nat) (path : Option Text) : PkgDetail :=
  let name := path.getD []
  { PkgDetail.zero with
    path := name.take 511
    filename := (if pathName name ≠ [] then pathName name else name).take 255
    fileSize := fileSize
    totalPkgSize := fileSize }

/-- From the search for the CNT header on. -/
def readerParse (fileSize : Nat) (window hdr : List UInt8) (d : PkgDetail) :
    StateM σ (Option PkgDetail) := do
  match <- findCnt (readerGet rd fileSize window)
      (fun cand => decide (fileSize = 0 ∨ cand < fileSize)) hdr with
  | none => pure none
  | some cntOffset =>
      match <- readCntHeader (readerGet rd fileSize window) cntOffset with
      | none => pure none
      | some cnt =>
          match <- readerGet rd fileSize window (cntOffset + cnt.tableOffset)
              (cnt.entryCount * 32) with
          | none => pure none
          | some table =>
              let d <- parseTable (readerGet rd fileSize window) readerHasKey cntOffset cnt table
                (notePlatformHeader hdr d)
              pure (some d)

/-- {lit}`pkg_parse_reader`; {lit}`none` for every return value but 0. -/
def pkgParseReader (fileSize : Nat) (path : Option Text) : StateM σ (Option PkgDetail) := do
  let want := if 0 < fileSize ∧ fileSize < readerWindow then fileSize else readerWindow
  let window <- fill rd want 0
  let hdr := window.take 0x200
  if window.length < 0x80 then pure none
  else if startsMultipart hdr then pure none
  else readerParse rd fileSize window hdr (readerStart fileSize path)

end

end Parser
end PkgManager

/-!
# The parser over a buffer in memory

The buffer is the list of its bytes; {lit}`tail` is the memory behind it, which
the searches and copies of the parser may run into.
-/

namespace PkgManager
namespace Parser

open CString
open Multipart

/-- {lit}`mem_slice` -/
def memSlice (data : List UInt8) (off sz : Nat) : Id (Option (List UInt8)) :=
  if sz = 0 ∨ off > data.length then none
  else if sz > data.length ∨ off > data.length - sz then none
  else some (bytesAt data off sz)

/-- The name as copied to an array of 128 bytes: up to and with the zero byte, or
one byte more than the rest of the table when it holds none.  A copy that fills
the array is longer than every name that it is compared with. -/
def memEntryName (strTable : Option (List UInt8)) (behind : List UInt8) (e : PkgEntry) : Text :=
  match strTable with
  | some table =>
      if e.fnOff < table.length then
        let rest := table.drop e.fnOff
        let nl := (cString rest).length
        if nl < 128 then cString ((rest ++ behind).take (nl + 1)) else []
      else []
  | none => []

/-- What a param.json does: the texts that it has replace those of earlier
entries, all but the category. -/
def memNoteJson (json behind : List UInt8) (w : Walk) : Walk :=
  let d := notePlatformParamJson w.detail
  { w with
    detail :=
      { d with
        titleId :=
          match jsonExtractKey json behind "titleId" titleIdLen with
          | some tid => tid.take (titleIdLen - 1)
          | none => d.titleId
        titleName :=
          match jsonExtractKey json behind "titleName" titleNameLen with
          | some tname => tname.take (titleNameLen - 1)
          | none => d.titleName
        category :=
          match jsonExtractKey json behind "category" 16 with
          | some cat => if d.category = [] then cat.take 15 else d.category
          | none => d.category
        appVersion :=
          match jsonVersion json behind with
          | some ver => if ver ≠ [] then jsonVersionText 32 ver else d.appVersion
          | none => d.appVersion }
    hasBaseAppMetadata := w.hasBaseAppMetadata || jsonHasBaseKey json }

/-- What a param.sfo does: it fills in what is still empty, the localized titles
too. -/
def memNoteSfo (sfo : List UInt8) (w : Walk) : Walk :=
  let d := notePlatformParamSfo w.detail
  let s := pkgParserParseParamSfo detailSizes sfo ParamTexts.empty
  { w with
    detail :=
      { d with
        category := if s.category ≠ [] ∧ d.category = [] then s.category else d.category
        titleId := if d.titleId = [] ∧ s.titleId ≠ [] then s.titleId else d.titleId
        titleName := if d.titleName = [] ∧ s.titleName ≠ [] then s.titleName else d.titleName
        appVersion := if d.appVersion = [] ∧ s.version ≠ [] then s.version else d.appVersion
        localizedTitles :=
          if d.localizedTitles = [] ∧ s.localizedTitles ≠ [] then s.localizedTitles
          else d.localizedTitles
        defaultLanguage :=
          if d.defaultLanguage = [] ∧ s.defaultLang ≠ [] then s.defaultLang
          else d.defaultLanguage }
    hasPs4SfoCategory := w.hasPs4SfoCategory || decide (s.category ≠ [] ∧ d.category = []) }

/-- One round of the loop over the entries. -/
def memScanEntry (data tail : List UInt8) (cntOffset : Nat) (e : PkgEntry) (name : Text)
    (w : Walk) : Walk :=
  let w := noteMarkers e name w
  let behind := (data ++ tail).drop (cntOffset + e.dataOff + e.dataSz)
  let w :=
    if isParamJson e name then
      match memSlice data (cntOffset + e.dataOff) e.dataSz with
      | some json => memNoteJson json behind w
      | none => w
    else w
  if isParamSfo e name then
    match memSlice data (cntOffset + e.dataOff) e.dataSz with
    | some sfo => memNoteSfo sfo w
    | none => w
  else w

/-- The string table and where its memory ends. -/
def memStrTable (data : List UInt8) (cntOffset : Nat) (entries : List PkgEntry) :
    Option (List UInt8) × Nat :=
  let range := strTableRange entries
  (if 0 < range.2 ∧ range.2 < 65536 then memSlice data (cntOffset + range.1) range.2 else none,
    cntOffset + range.1 + range.2)

/-- From the entry table to the return. -/
def memParseTable (data tail : List UInt8) (cntOffset : Nat) (cnt : CntHeader)
    (table : List UInt8) (d : PkgDetail) : PkgDetail :=
  let entries := pkgEntries table cnt.entryCount
  let strTable := memStrTable data cntOffset entries
  let w := entries.foldl
    (fun w e =>
      memScanEntry data tail cntOffset e
        (memEntryName strTable.1 ((data ++ tail).drop strTable.2) e) w)
    (Walk.start { d with contentId := cnt.contentId })
  { finishDetail cnt.typeMagic w with hasIcon := false }

/-- The part for a single package.  A failure carries the stage code. -/
def memParsePackage (data tail : List UInt8) (totalSize : Nat) (d : PkgDetail) :
    Except (Option Nat) PkgDetail :=
  let hdr := data.take 0x200
  let below := fun cand => decide (totalSize = 0 ∨ cand < totalSize)
  match findCnt (memSlice data) below hdr with
  | none => Except.error (some 2)
  | some cntOffset =>
      match memSlice data cntOffset 0x80 with
      | none => Except.error (some 3)
      | some bytes =>
          let cnt := parseCntHeader bytes
          if !isCnt bytes then Except.error (some 3)
          else
            match memSlice data (cntOffset + 0x40) 48 with
            | none => Except.error (some 4)
            | some cid =>
                if cnt.entryCount = 0 ∨ cnt.entryCount > 2048 ∨ cnt.tableOffset > 0x200000 then
                  Except.error (some 5)
                else
                  match memSlice data (cntOffset + cnt.tableOffset) (cnt.entryCount * 32) with
                  | none => Except.error (some 6)
                  | some table =>
                      Except.ok (memParseTable data tail cntOffset
                        { cnt with contentId := contentIdText cid } table
                        (notePlatformHeader hdr d))

/-- The details that a valid header of a part gives, without an icon. -/
def memMultipartDetail (mhdr : PackedHeader) (d : PkgDetail) : PkgDetail :=
  { multipartDetail mhdr d with
    totalPkgSize := if 0 < mhdr.totalPkgSize then mhdr.totalPkgSize else d.totalPkgSize
    iconOffset := 0
    iconSize := 0
    hasIcon := false }

/-- The path and the file name for a name; {lit}`live:` marks a live session. -/
def memNames (filename : Text) : Text × Text :=
  let base :=
    match strchr 47 filename with
    | some slash => slash.drop 1
    | none => filename
  if startsWith "live:" base then (base.take 511, base.take 200 ++ ascii ".pkg")
  else (filename.take 511, base.take 255)

/-- The record before the first read. -/
def memStart (totalSize : Nat) (filename : Text) : PkgDetail :=
  { PkgDetail.zero with
    path := (memNames filename).1
    filename := (memNames filename).2
    fileSize := totalSize
    totalPkgSize := totalSize }

/-- {lit}`pkg_parser_parse_mem`; {lit}`none` in an error leaves the stage alone. -/
def pkgParserParseMem (data tail : List UInt8) (totalSize : Nat) (filename : Text) :
    Except (Option Nat) PkgDetail :=
  let d := memStart totalSize filename
  if data.length < 0x80 then Except.error (some 1)
  else if startsMultipart data then
    match freadHeader data with
    | none => Except.error none
    | some mhdr =>
        if multipartIsValidHeader mhdr.view then Except.ok (memMultipartDetail mhdr d)
        else Except.error none
  else memParsePackage data tail totalSize d

end Parser
end PkgManager
