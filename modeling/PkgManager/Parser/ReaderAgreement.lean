import PkgManager.Parser.Package
import PkgManager.Parser.File

/-!
# The remote parser reads what the local one reads

Over a callback that serves a file, every read of the remote parser yields what
the local parser gets from the file, so both walk over the same package.
-/

namespace PkgManager
namespace Parser

open Callback
open CString

section Reads
variable {σ : Type} {read : Nat -> Nat -> StateM σ (Option (List UInt8))}
variable {file : List UInt8}

/-- Every read of at least one byte is a read of the file. -/
def ReadsFile (read : Nat -> Nat -> StateM σ (Option (List UInt8))) (file : List UInt8) : Prop :=
  forall off count, 0 < count -> Yields (read off count) (preadExact file off count)

variable (hread : ReadsFile read file)
include hread

theorem isCntAt_yields (cand : Nat) :
    Yields (isCntAt read cand) (isCntAt (preadExact file) cand) := by
  unfold isCntAt
  apply yields_bind_id (hread cand 4 (by decide))
  cases preadExact file cand 4 with
  | none => exact yields_pure false
  | some magic => exact yields_pure (isCnt magic)

theorem scanFihTable_yields (below : Nat -> Bool) (hdr : List UInt8) (offsets : List Nat) :
    Yields (scanFihTable read below hdr offsets)
      (scanFihTable (preadExact file) below hdr offsets) := by
  induction offsets with
  | nil => exact yields_pure none
  | cons off rest ih =>
      unfold scanFihTable
      apply yields_ite
      · intro _
        apply yields_bind_id (isCntAt_yields hread (le64At hdr off))
        cases isCntAt (preadExact file) (le64At hdr off) with
        | true => exact yields_pure (some (le64At hdr off))
        | false => exact ih
      · intro _
        exact ih

theorem findCnt_yields (below : Nat -> Bool) (hdr : List UInt8) :
    Yields (findCnt read below hdr) (findCnt (preadExact file) below hdr) := by
  have hscan := scanFihTable_yields hread below hdr (fihOffsets hdr.length)
  have hfound : forall found : Bool,
      Yields (if found then pure (some (le64At hdr 0x58))
          else scanFihTable read below hdr (fihOffsets hdr.length))
        (if found then some (le64At hdr 0x58)
          else scanFihTable (preadExact file) below hdr (fihOffsets hdr.length)) := by
    intro found
    cases found with
    | true => exact yields_pure (some (le64At hdr 0x58))
    | false => exact hscan
  unfold findCnt
  apply yields_ite
  · intro _
    exact yields_pure (some 0)
  · intro _
    apply yields_ite
    · intro _
      apply yields_ite
      · intro _
        apply yields_bind_id (isCntAt_yields hread (le64At hdr 0x58))
        exact hfound (isCntAt (preadExact file) (le64At hdr 0x58))
      · intro _
        exact hfound false
    · intro _
      exact yields_pure none

theorem readCntHeader_yields (cntOffset : Nat) :
    Yields (readCntHeader read cntOffset) (readCntHeader (preadExact file) cntOffset) := by
  unfold readCntHeader
  apply yields_bind_id (hread cntOffset 0x80 (by decide))
  cases preadExact file cntOffset 0x80 with
  | none => exact yields_pure none
  | some bytes =>
      apply yields_ite
      · intro _
        exact yields_pure none
      · intro _
        apply yields_ite
        · intro _
          exact yields_pure none
        · intro _
          exact yields_pure (some (parseCntHeader bytes))

theorem readStrTable_yields (cntOffset : Nat) (entries : List PkgEntry) :
    Yields (readStrTable read cntOffset entries)
      (readStrTable (preadExact file) cntOffset entries) := by
  apply yields_ite
  · intro h
    exact hread (cntOffset + (strTableRange entries).1) (strTableRange entries).2 h.1
  · intro _
    exact yields_pure none

theorem readWhen_yields {c : Bool} {off count : Nat} (h : c = true -> 0 < count) :
    Yields (readWhen read c off count) (readWhen (preadExact file) c off count) := by
  apply yields_ite
  · intro hc
    exact hread off count (h hc)
  · intro _
    exact yields_pure none

theorem scanEntry_yields (hasKey : List UInt8 -> Bool) (cntOffset : Nat) (e : PkgEntry)
    (name : Text) (w : Walk) :
    Yields (scanEntry read hasKey cntOffset e name w)
      (scanEntry (preadExact file) hasKey cntOffset e name w) := by
  unfold scanEntry
  apply yields_bind_id (readWhen_yields hread isParamJson_pos)
  apply yields_bind_id (readWhen_yields hread isParamSfo_pos)
  exact yields_pure _

theorem scanEntries_yields (hasKey : List UInt8 -> Bool) (cntOffset : Nat)
    (strTable : Option (List UInt8)) (entries : List PkgEntry) (w : Walk) :
    Yields (scanEntries read hasKey cntOffset strTable entries w)
      (scanEntries (preadExact file) hasKey cntOffset strTable entries w) := by
  induction entries generalizing w with
  | nil => exact yields_pure w
  | cons e rest ih =>
      unfold scanEntries
      apply yields_bind_id (scanEntry_yields hread hasKey cntOffset e (entryName strTable e) w)
      exact ih _

theorem parseTable_yields (hasKey : List UInt8 -> Bool) (cntOffset : Nat) (cnt : CntHeader)
    (table : List UInt8) (d : PkgDetail) :
    Yields (parseTable read hasKey cntOffset cnt table d)
      (parseTable (preadExact file) hasKey cntOffset cnt table d) := by
  unfold parseTable
  apply yields_bind_id (readStrTable_yields hread cntOffset (pkgEntries table cnt.entryCount))
  apply yields_bind_id (scanEntries_yields hread hasKey cntOffset _ _ _)
  exact yields_pure _

end Reads

/-!
# The reads of the remote parser
-/

theorem bytesAt_take {file : List UInt8} {n off count : Nat}
    (h : off + count ≤ (file.take n).length) :
    bytesAt (file.take n) off count = bytesAt file off count := by
  unfold bytesAt
  rw [List.drop_take, List.take_take]
  rw [List.length_take] at h
  congr 1
  omega

theorem readCntHeader_count {file : List UInt8} {cntOffset : Nat} {cnt : CntHeader}
    (h : readCntHeader (preadExact file) cntOffset = some cnt) : 0 < cnt.entryCount := by
  unfold readCntHeader at h
  cases hread : preadExact file cntOffset 0x80 with
  | none =>
      rw [hread] at h
      cases h
  | some bytes =>
      rw [hread] at h
      change (if _ then none else if _ then none else some _) = some cnt at h
      split at h
      · cases h
      · split at h
        · cases h
        · rename_i hcount
          cases h
          omega

section Window
variable {σ : Type} {rd : ReadFn σ} {file : List UInt8} (hrd : Serves rd file)
include hrd

theorem readerGet_reads (hfile : 0 < file.length) (n : Nat) :
    ReadsFile (readerGet rd file.length (file.take n)) file := by
  intro off count hcount
  unfold readerGet
  rw [if_neg (Nat.ne_of_gt hcount)]
  by_cases hfit : off + count ≤ file.length
  · have hin : ¬ (0 < file.length ∧ (off > file.length ∨ count > file.length - off)) := by
      omega
    rw [if_neg hin]
    unfold preadExact
    rw [if_pos hfit]
    by_cases hwindow : off < (file.take n).length ∧ count ≤ (file.take n).length - off
    · rw [if_pos hwindow, bytesAt_take (by omega)]
      exact yields_pure _
    · rw [if_neg hwindow]
      apply yields_bind (fill_yields hrd count off)
      have hlen : ((file.drop off).take count).length = count := by
        rw [List.length_take, List.length_drop]
        omega
      rw [if_pos hlen]
      exact yields_pure _
  · have hout : 0 < file.length ∧ (off > file.length ∨ count > file.length - off) := by
      omega
    rw [if_pos hout]
    unfold preadExact
    rw [if_neg hfit]
    exact yields_pure _

theorem readerParse_yields (hfile : 0 < file.length) (n : Nat) (d : PkgDetail) :
    Yields (readerParse rd file.length (file.take n) (file.take 0x200) d)
      (parseWith readerHasKey file d) := by
  have hread := readerGet_reads hrd hfile n
  have hbelow : (fun cand => decide (file.length = 0 ∨ cand < file.length)) =
      fun cand => decide (cand < file.length) := by
    funext cand
    apply decide_eq_decide.mpr
    omega
  rw [<- readPackage_eq]
  unfold readerParse readPackage
  rw [hbelow]
  dsimp only
  apply yields_bind (findCnt_yields hread _ _)
  cases hcnt : findCnt (preadExact file) (fun cand => decide (cand < file.length))
      (file.take 0x200) with
  | none => exact yields_pure none
  | some cntOffset =>
      apply yields_bind (readCntHeader_yields hread cntOffset)
      dsimp only
      cases hhdr : readCntHeader (preadExact file) cntOffset with
      | none => exact yields_pure none
      | some cnt =>
          have hcount := readCntHeader_count hhdr
          apply yields_bind (hread (cntOffset + cnt.tableOffset) (cnt.entryCount * 32) (by omega))
          dsimp only
          cases htable : preadExact file (cntOffset + cnt.tableOffset) (cnt.entryCount * 32) with
          | none => exact yields_pure none
          | some table =>
              apply yields_bind (parseTable_yields hread readerHasKey cntOffset cnt table
                (notePlatformHeader (file.take 0x200) d))
              exact yields_pure _

theorem pkgParseReader_yields (path : Option Text) :
    Yields (pkgParseReader rd file.length path)
      (if (file.take 0x200).length < 0x80 ∨ startsMultipart (file.take 0x200) = true then none
        else parseWith readerHasKey file (readerStart file.length path)) := by
  unfold pkgParseReader
  dsimp only
  generalize hwant : (if 0 < file.length ∧ file.length < readerWindow then file.length
    else readerWindow) = want
  have hdrop : (file.drop 0).take want = file.take want := rfl
  apply yields_bind (fill_yields hrd want 0)
  rw [hdrop]
  have hhdr : (file.take want).take 0x200 = file.take 0x200 := by
    rw [List.take_take]
    unfold readerWindow at hwant
    rcases Nat.le_total 0x200 want with hle | hle
    · rw [Nat.min_eq_left hle]
    · have hall : file.length ≤ want := by
        split at hwant
        · omega
        · omega
      rw [Nat.min_eq_right hle, List.take_of_length_le hall,
        List.take_of_length_le (hall.trans hle)]
  have hshort : (file.take want).length < 0x80 ↔ (file.take 0x200).length < 0x80 := by
    rw [<- hhdr, List.length_take (i := 0x200)]
    omega
  rw [hhdr]
  by_cases hlen : (file.take 0x200).length < 0x80
  · rw [if_pos (hshort.mpr hlen), if_pos (Or.inl hlen)]
    exact yields_pure none
  · rw [if_neg (fun h => hlen (hshort.mp h))]
    cases hmulti : startsMultipart (file.take 0x200) with
    | true =>
        rw [if_pos rfl, if_pos (Or.inr rfl)]
        exact yields_pure none
    | false =>
        have hfile : 0 < file.length := by
          rw [List.length_take] at hlen
          omega
        rw [if_neg (by simp), if_neg (by simpa using hlen)]
        exact readerParse_yields hrd hfile want (readerStart file.length path)

end Window

end Parser
end PkgManager
