import PkgManager.Parser.File

/-!
# What a package holds

The entries of a package with their names, and the metadata documents that can be
read, in the order of the table.  The walk over the entries is a fold over them.
-/

namespace PkgManager
namespace Parser

open CString
open Endian

inductive Metadata where
  | json (bytes : List UInt8)
  | sfo (bytes : List UInt8)
deriving DecidableEq

structure Row where
  entry : PkgEntry
  name : Text
  metadata : List Metadata
deriving DecidableEq

structure Package where
  cntOffset : Nat
  typeMagic : Nat
  contentId : Text
  rows : List Row

def Package.metadata (p : Package) : List Metadata :=
  p.rows.flatMap Row.metadata

/-- The documents in the data of an entry. -/
def readMetadata (file : List UInt8) (cntOffset : Nat) (e : PkgEntry) (name : Text) :
    List Metadata :=
  match preadExact file (cntOffset + e.dataOff) e.dataSz with
  | none => []
  | some bytes =>
      (if isParamJson e name then [Metadata.json bytes] else []) ++
        (if isParamSfo e name then [Metadata.sfo bytes] else [])

def readRow (file : List UInt8) (cntOffset : Nat) (strTable : Option (List UInt8))
    (e : PkgEntry) : Row where
  entry := e
  name := entryName strTable e
  metadata := readMetadata file cntOffset e (entryName strTable e)

/-- The entry table of a file, when all of it can be read. -/
def openPackage (file : List UInt8) : Option Package :=
  let hdr := file.take 0x200
  match findCnt (preadExact file) (fun cand => decide (cand < file.length)) hdr with
  | none => none
  | some cntOffset =>
      match readCntHeader (preadExact file) cntOffset with
      | none => none
      | some cnt =>
          match preadExact file (cntOffset + cnt.tableOffset) (cnt.entryCount * 32) with
          | none => none
          | some table =>
              let entries := pkgEntries table cnt.entryCount
              let strTable := readStrTable (preadExact file) cntOffset entries
              some { cntOffset := cntOffset
                     typeMagic := cnt.typeMagic
                     contentId := cnt.contentId
                     rows := entries.map (readRow file cntOffset strTable) }

/-!
# The walk as a fold
-/

def noteMetadata (hasKey : List UInt8 -> Bool) (w : Walk) : Metadata -> Walk
  | Metadata.json bytes => noteParamJson hasKey bytes w
  | Metadata.sfo bytes => noteParamSfo bytes w

def noteRow (hasKey : List UInt8 -> Bool) (cntOffset : Nat) (w : Walk) (row : Row) : Walk :=
  noteIcon cntOffset row.entry row.name
    (row.metadata.foldl (noteMetadata hasKey) (noteMarkers row.entry row.name w))

theorem scanEntry_pread (file : List UInt8) (hasKey : List UInt8 -> Bool) (cntOffset : Nat)
    (strTable : Option (List UInt8)) (e : PkgEntry) (w : Walk) :
    scanEntry (preadExact file) hasKey cntOffset e (entryName strTable e) w =
      noteRow hasKey cntOffset w (readRow file cntOffset strTable e) := by
  unfold scanEntry readWhen noteRow readRow readMetadata
  generalize entryName strTable e = name
  cases preadExact file (cntOffset + e.dataOff) e.dataSz with
  | none => cases isParamJson e name <;> cases isParamSfo e name <;> rfl
  | some bytes => cases isParamJson e name <;> cases isParamSfo e name <;> rfl

theorem scanEntries_pread (file : List UInt8) (hasKey : List UInt8 -> Bool) (cntOffset : Nat)
    (strTable : Option (List UInt8)) (entries : List PkgEntry) (w : Walk) :
    scanEntries (preadExact file) hasKey cntOffset strTable entries w =
      (entries.map (readRow file cntOffset strTable)).foldl (noteRow hasKey cntOffset) w := by
  induction entries generalizing w with
  | nil => rfl
  | cons e rest ih =>
      rw [List.map_cons, List.foldl_cons, <- scanEntry_pread, <- ih]
      rfl

def Package.walk (p : Package) (hasKey : List UInt8 -> Bool) (d : PkgDetail) : Walk :=
  p.rows.foldl (noteRow hasKey p.cntOffset) (Walk.start { d with contentId := p.contentId })

def Package.details (p : Package) (hasKey : List UInt8 -> Bool) (d : PkgDetail) : PkgDetail :=
  finishDetail p.typeMagic (p.walk hasKey d)

/-- The parser with a test for the keys of base applications, over the opened
package. -/
def parseWith (hasKey : List UInt8 -> Bool) (file : List UInt8) (d : PkgDetail) :
    Option PkgDetail :=
  (openPackage file).map (fun p => p.details hasKey (notePlatformHeader (file.take 0x200) d))

theorem preadExact_none {file : List UInt8} {off count : Nat} (h : file.length < off + count) :
    preadExact file off count = none := by
  unfold preadExact
  rw [if_neg (by omega)]

/-- The same with the reads in the order of the parser. -/
def readPackage (hasKey : List UInt8 -> Bool) (file : List UInt8) (d : PkgDetail) :
    Option PkgDetail :=
  let hdr := file.take 0x200
  match findCnt (preadExact file) (fun cand => decide (cand < file.length)) hdr with
  | none => none
  | some cntOffset =>
      match readCntHeader (preadExact file) cntOffset with
      | none => none
      | some cnt =>
          match preadExact file (cntOffset + cnt.tableOffset) (cnt.entryCount * 32) with
          | none => none
          | some table =>
              some (parseTable (preadExact file) hasKey cntOffset cnt table
                (notePlatformHeader hdr d))

theorem readPackage_eq (hasKey : List UInt8 -> Bool) (file : List UInt8) (d : PkgDetail) :
    readPackage hasKey file d = parseWith hasKey file d := by
  unfold readPackage parseWith openPackage
  dsimp only
  cases hcnt : findCnt (preadExact file) (fun cand => decide (cand < file.length))
      (file.take 0x200) with
  | none => rfl
  | some cntOffset =>
      dsimp only
      cases hhdr : readCntHeader (preadExact file) cntOffset with
      | none => rfl
      | some cnt =>
          dsimp only
          cases htable : preadExact file (cntOffset + cnt.tableOffset) (cnt.entryCount * 32) with
          | none => rfl
          | some table =>
              show some _ = some _
              congr 1
              unfold Package.details Package.walk
              dsimp only
              rw [<- scanEntries_pread]
              rfl

theorem parsePackage_eq (file : List UInt8) (d : PkgDetail) :
    parsePackage file d = parseWith jsonHasBaseKey file d := by
  rw [<- readPackage_eq]
  unfold parsePackage readPackage
  dsimp only
  cases hcnt : findCnt (preadExact file) (fun cand => decide (cand < file.length))
      (file.take 0x200) with
  | none => rfl
  | some cntOffset =>
      dsimp only
      cases hhdr : readCntHeader (preadExact file) cntOffset with
      | none => rfl
      | some cnt =>
          dsimp only
          split
          · rename_i hlong
            rw [preadExact_none hlong.2]
          · rfl

theorem openPackage_short {file : List UInt8} (h : file.length < 0x80) :
    openPackage file = none := by
  unfold openPackage
  dsimp only
  split
  · rfl
  · rename_i cntOffset _
    have hhdr : readCntHeader (preadExact file) cntOffset = none := by
      unfold readCntHeader
      rw [preadExact_none (by omega)]
      rfl
    rw [hhdr]

/-- A file that is no part of a container is parsed as a package. -/
theorem pkgParserParse_single {file : List UInt8} (hsingle : startsMultipart file = false)
    (path : Text) (mtime : Nat) :
    pkgParserParse path mtime file = parseWith jsonHasBaseKey file (fileStart path mtime file) := by
  unfold pkgParserParse
  dsimp only
  split
  · rename_i hshort
    rw [List.length_take] at hshort
    unfold parseWith
    rw [openPackage_short (by omega)]
    rfl
  · have hmulti : parseMultipart file (fileStart path mtime file) = none := by
      unfold parseMultipart
      rw [hsingle]
      rfl
    rw [hmulti, parsePackage_eq]

/-!
# Writing a package

The type, the offset of the name and the data of each entry, with the data behind
the table.
-/

def cntRows : Nat -> List (Nat × Nat × List UInt8) -> List UInt8
  | _, [] => []
  | off, (type, fnOff, data) :: rest =>
      bigEndian 4 type ++ bigEndian 4 fnOff ++ List.replicate 8 0 ++ bigEndian 4 off ++
        bigEndian 4 data.length ++ List.replicate 8 0 ++ cntRows (off + data.length) rest

def cntFile (typeMagic : Nat) (entries : List (Nat × Nat × List UInt8)) : List UInt8 :=
  (0x7f :: ascii "CNT") ++ bigEndian 4 typeMagic ++ List.replicate 8 0 ++
    bigEndian 4 entries.length ++ List.replicate 4 0 ++ bigEndian 4 0x80 ++
    List.replicate 100 0 ++ cntRows (0x80 + 32 * entries.length) entries ++
    (entries.map (fun e => e.2.2)).flatten

end Parser
end PkgManager
