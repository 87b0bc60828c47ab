import PkgManager.Parser.ReaderAgreement

/-!
# The parser for files on a share

It walks over the same tables as the parser for local files, with reads of a
session.  A session is a callback that is asked once for each part.
-/

namespace PkgManager
namespace Smb

open Callback
open CString
open PkgManager.Parser

/-- Every read yields the bytes up to the end of the file. -/
def FullReads {σ : Type} (rd : ReadFn σ) (file : List UInt8) : Prop :=
  forall count offset, Yields (rd count offset) ((file.drop offset).take count)

/-- An icon needs data, of any size and anywhere. -/
def isIcon (e : PkgEntry) (name : Text) : Bool :=
  (e.type == 0x1200 || name == ascii "icon0.png") && decide (0 < e.dataSz)

def noteSmbIcon (cntOffset : Nat) (e : PkgEntry) (name : Text) (w : Walk) : Walk :=
  if isIcon e name then
    { w with
      detail :=
        { w.detail with
          hasIcon := true
          iconOffset := cntOffset + e.dataOff
          iconSize := e.dataSz } }
  else w

section
variable {σ : Type} (rd : ReadFn σ)

/-- A read that must yield all bytes. -/
def sessionRead (offset count : Nat) : StateM σ (Option (List UInt8)) := do
  let got <- rd count offset
  pure (if got.length = count then some got else none)

def scanSmbEntry (cntOffset : Nat) (e : PkgEntry) (name : Text) (w : Walk) : StateM σ Walk := do
  let w := noteMarkers e name w
  let json <- readWhen (sessionRead rd) (isParamJson e name) (cntOffset + e.dataOff) e.dataSz
  let w := noteJsonRead readerHasKey w json
  let sfo <- readWhen (sessionRead rd) (isParamSfo e name) (cntOffset + e.dataOff) e.dataSz
  let w := noteSfoRead w sfo
  pure (noteSmbIcon cntOffset e name w)

def scanSmbEntries (cntOffset : Nat) (strTable : Option (List UInt8)) :
    List PkgEntry -> Walk -> StateM σ Walk
  | [], w => pure w
  | e :: rest, w => do
      let w <- scanSmbEntry rd cntOffset e (entryName strTable e) w
      scanSmbEntries cntOffset strTable rest w

def parseSmbTable (cntOffset : Nat) (cnt : CntHeader) (table : List UInt8) (d : PkgDetail) :
    StateM σ PkgDetail := do
  let entries := pkgEntries table cnt.entryCount
  let strTable <- readStrTable (sessionRead rd) cntOffset entries
  let w <- scanSmbEntries rd cntOffset strTable entries
    (Walk.start { d with contentId := cnt.contentId })
  pure (finishDetail cnt.typeMagic w)

/-- From the search for the CNT header on. -/
def parseSmbPackage (fileSize : Nat) (hdr : List UInt8) (d : PkgDetail) :
    StateM σ (Option PkgDetail) := do
  match <- findCnt (sessionRead rd) (fun cand => decide (cand < fileSize)) hdr with
  | none => pure none
  | some cntOffset =>
      match <- readCntHeader (sessionRead rd) cntOffset with
      | none => pure none
      | some cnt =>
          match <- sessionRead rd (cntOffset + cnt.tableOffset) (cnt.entryCount * 32) with
          | none => pure none
          | some table =>
              let d <- parseSmbTable rd cntOffset cnt table (notePlatformHeader hdr d)
              pure (some d)

/-- The record when the session is open. -/
def smbStart (url : Text) (fileSize mtime : Nat) : PkgDetail :=
  { PkgDetail.zero with
    path := url.take 511
    filename := (if pathName url ≠ [] then pathName url else url).take 255
    fileSize := fileSize
    totalPkgSize := fileSize
    mtime := mtime }

/-- {lit}`smb_client_parse_pkg` over an open session. -/
def smbClientParsePkg (url : Text) (fileSize mtime : Nat) : StateM σ (Option PkgDetail) := do
  let hdr <- rd 0x200 0
  if hdr.length < 0x80 then pure none
  else if startsMultipart hdr then pure none
  else parseSmbPackage rd fileSize hdr (smbStart url fileSize mtime)

end

/-!
# The walk as a fold
-/

def noteSmbRow (cntOffset : Nat) (w : Walk) (row : Row) : Walk :=
  noteSmbIcon cntOffset row.entry row.name
    (row.metadata.foldl (noteMetadata readerHasKey) (noteMarkers row.entry row.name w))

def smbWalk (p : Package) (d : PkgDetail) : Walk :=
  p.rows.foldl (noteSmbRow p.cntOffset) (Walk.start { d with contentId := p.contentId })

def smbDetails (p : Package) (d : PkgDetail) : PkgDetail :=
  finishDetail p.typeMagic (smbWalk p d)

section Reads
variable {σ : Type} {rd : ReadFn σ} {file : List UInt8} (hrd : FullReads rd file)
include hrd

theorem sessionRead_reads : ReadsFile (sessionRead rd) file := by
  intro off count hcount
  unfold sessionRead
  apply yields_bind (hrd count off)
  have hlen : ((file.drop off).take count).length = count ↔ off + count ≤ file.length := by
    rw [List.length_take, List.length_drop]
    omega
  unfold preadExact
  by_cases hfit : off + count ≤ file.length
  · rw [if_pos (hlen.mpr hfit), if_pos hfit]
    exact yields_pure _
  · rw [if_neg (fun h => hfit (hlen.mp h)), if_neg hfit]
    exact yields_pure _

theorem scanSmbEntry_yields (cntOffset : Nat) (strTable : Option (List UInt8)) (e : PkgEntry)
    (w : Walk) :
    Yields (scanSmbEntry rd cntOffset e (entryName strTable e) w)
      (noteSmbRow cntOffset w (readRow file cntOffset strTable e)) := by
  unfold scanSmbEntry
  apply yields_bind (readWhen_yields (sessionRead_reads hrd) isParamJson_pos)
  apply yields_bind (readWhen_yields (sessionRead_reads hrd) isParamSfo_pos)
  have hrow : noteSfoRead
      (noteJsonRead readerHasKey (noteMarkers e (entryName strTable e) w)
        (readWhen (preadExact file) (isParamJson e (entryName strTable e))
          (cntOffset + e.dataOff) e.dataSz))
      (readWhen (preadExact file) (isParamSfo e (entryName strTable e))
        (cntOffset + e.dataOff) e.dataSz) =
      (readRow file cntOffset strTable e).metadata.foldl (noteMetadata readerHasKey)
        (noteMarkers e (entryName strTable e) w) := by
    unfold readWhen readRow readMetadata
    generalize entryName strTable e = name
    cases preadExact file (cntOffset + e.dataOff) e.dataSz with
    | none => cases isParamJson e name <;> cases isParamSfo e name <;> rfl
    | some bytes => cases isParamJson e name <;> cases isParamSfo e name <;> rfl
  change Yields _ (noteSmbIcon cntOffset e (entryName strTable e)
    ((readRow file cntOffset strTable e).metadata.foldl (noteMetadata readerHasKey)
      (noteMarkers e (entryName strTable e) w)))
  rw [<- hrow]
  exact yields_pure _

theorem scanSmbEntries_yields (cntOffset : Nat) (strTable : Option (List UInt8))
    (entries : List PkgEntry) (w : Walk) :
    Yields (scanSmbEntries rd cntOffset strTable entries w)
      ((entries.map (readRow file cntOffset strTable)).foldl (noteSmbRow cntOffset) w) := by
  induction entries generalizing w with
  | nil => exact yields_pure w
  | cons e rest ih =>
      unfold scanSmbEntries
      apply yields_bind (scanSmbEntry_yields hrd cntOffset strTable e w)
      exact ih _

theorem parseSmbTable_yields (cntOffset : Nat) (cnt : CntHeader) (table : List UInt8)
    (d : PkgDetail) :
    let entries := pkgEntries table cnt.entryCount
    let strTable := readStrTable (preadExact file) cntOffset entries
    Yields (parseSmbTable rd cntOffset cnt table d)
      (finishDetail cnt.typeMagic ((entries.map (readRow file cntOffset strTable)).foldl
        (noteSmbRow cntOffset) (Walk.start { d with contentId := cnt.contentId }))) := by
  intro entries strTable
  unfold parseSmbTable
  apply yields_bind (readStrTable_yields (sessionRead_reads hrd) cntOffset entries)
  apply yields_bind (scanSmbEntries_yields hrd cntOffset strTable entries _)
  exact yields_pure _

/-- The parser reads the package that the file holds. -/
theorem parseSmbPackage_yields (d : PkgDetail) :
    Yields (parseSmbPackage rd file.length (file.take 0x200) d)
      ((openPackage file).map (fun p => smbDetails p (notePlatformHeader (file.take 0x200) d))) := by
  have hread := sessionRead_reads hrd
  unfold parseSmbPackage openPackage
  dsimp only
  apply yields_bind (findCnt_yields hread _ _)
  cases hcnt : findCnt (preadExact file) (fun cand => decide (cand < file.length))
      (file.take 0x200) with
  | none => exact yields_pure none
  | some cntOffset =>
      apply yields_bind (readCntHeader_yields hread cntOffset)
      dsimp only
      cases hhdr : readCntHeader (preadExact file) cntOffset with
      | none => exact yields_pure none
      | some cnt =>
          have hcount := readCntHeader_count hhdr
          apply yields_bind (hread (cntOffset + cnt.tableOffset) (cnt.entryCount * 32) (by omega))
          dsimp only
          cases htable : preadExact file (cntOffset + cnt.tableOffset) (cnt.entryCount * 32) with
          | none => exact yields_pure none
          | some table =>
              apply yields_bind (parseSmbTable_yields hrd cntOffset cnt table
                (notePlatformHeader (file.take 0x200) d))
              exact yields_pure _

theorem smbClientParsePkg_yields (url : Text) (mtime : Nat) :
    Yields (smbClientParsePkg rd url file.length mtime)
      (if startsMultipart (file.take 0x200) then none
        else (openPackage file).map (fun p =>
          smbDetails p (notePlatformHeader (file.take 0x200) (smbStart url file.length mtime)))) := by
  unfold smbClientParsePkg
  apply yields_bind (hrd 0x200 0)
  rw [List.drop_zero]
  by_cases hlen : (file.take 0x200).length < 0x80
  · rw [if_pos hlen, openPackage_short (by rw [List.length_take] at hlen; omega), Option.map_none,
      ite_self]
    exact yields_pure none
  · rw [if_neg hlen]
    apply yields_ite
    · intro _
      exact yields_pure none
    · intro _
      exact parseSmbPackage_yields hrd _

end Reads

end Smb
end PkgManager
