import Mathlib.Data.List.GetD
import Mathlib.Data.Nat.Find
import PkgManager.Multipart.Stream
import PkgManager.Multipart.Identity

/-!
# The stream with any callbacks

{lit}`multipart.c` does not search the drives itself.  It calls the functions
that were registered with {lit}`virtual_stream_set_part_finder` and
{lit}`virtual_stream_set_disc_waiter`.  Here they are any two functions; what is
not registered finds nothing.  The clock is that of the drives, and a callback
may take any time.
-/

namespace PkgManager
namespace Multipart

open Transition

/-- {lit}`g_stream_find_part_fn` and {lit}`g_stream_wait_disc_fn`: the path when
the call returns 0, and the time of the return. -/
structure StreamCallbacks where
  findPartFn : PartQuery -> Nat -> Option String × Nat
  waitDiscFn : PartQuery -> Nat -> Option String × Nat
  find_later : forall q now, now ≤ (findPartFn q now).2
  wait_later : forall q now, now ≤ (waitDiscFn q now).2

section Open

variable (drives : Nat -> Drive) (env : FinderEnv) (cb : StreamCallbacks)

def locatePartWith (q : PartQuery) (initialPart : Nat) (initialPath : String) (now : Nat) :
    Option String × Nat :=
  if q.partIndex = initialPart then (some (cTruncate 512 initialPath), now)
  else
    match cb.findPartFn q now with
    | (some path, now) => (some path, now)
    | (none, now) =>
        match findAdjacent drives q initialPath { now := now, detected := 0 } with
        | (some path, pr) => (some path, pr.now)
        | (none, pr) =>
            let staged := findStaged drives env q.partIndex pr
            (staged.1, staged.2.now)

/-- What open asks the routes for. -/
def streamQuery (hdr : MultipartHeader) (part : Nat) : PartQuery where
  packageUuid := hdr.packageUuid
  pkgFilename := cTruncate 256 hdr.pkgFilename
  partIndex := part

def resolvePartsWith (hdr : MultipartHeader) (initialPath : String) :
    Nat -> Nat -> VirtualStream -> Nat -> Except Int (VirtualStream × Nat)
  | 0, _, st, now => Except.ok (st, now)
  | n + 1, p, st, now =>
      match locatePartWith drives env cb (streamQuery hdr p) hdr.partIndex initialPath now with
      | (none, now) => resolvePartsWith hdr initialPath n (p + 1) (deferPart hdr p st) now
      | (some path, now) =>
          match multipartReadHeader (drives now) path with
          | none => Except.error (-4)
          | some phdr =>
              resolvePartsWith hdr initialPath n (p + 1) (recordPart path phdr p st) (now + 1)

def virtualStreamOpenWith (initialPath : String) (now : Nat) :
    Except Int (VirtualStream × Nat) :=
  match (drives now).file (localPath initialPath) with
  | none => Except.error (-1)
  | some f =>
      match multipartReadHeader (drives (now + 1)) (localPath initialPath) with
      | none => Except.ok (singleStream (localPath initialPath) f.size, now + 2)
      | some hdr =>
          if hdr.totalParts = 0 ∨ hdr.totalParts > maxMultipartParts then Except.error (-2)
          else
            resolvePartsWith drives env cb hdr initialPath hdr.totalParts 1 (multipartStream hdr)
              (now + 2)

/-- One turn of the loop of {lit}`virtual_stream_read`. -/
def readTurnWith (r : StreamRun) (pkgOffset count : Nat) (a : TurnAnswer) : StreamRun :=
  let st := r.stream
  let toRead :=
    if u64 (pkgOffset + count) > st.totalPkgSize then st.totalPkgSize - pkgOffset else count
  match findSlot st pkgOffset with
  | none => failRead r st r.now
  | some i =>
      let opened := openSlot drives { st with currentPart := i + 1 } i r.now
      match (opened.1.parts i).fd with
      | some f => transfer r opened.1 i opened.2 pkgOffset toRead f a
      | none =>
          let q : PartQuery :=
            { packageUuid := st.packageUuid, pkgFilename := st.pkgFilename, partIndex := i + 1 }
          match cb.waitDiscFn q opened.2 with
          | (none, now) => failRead r opened.1 now
          | (some path, now) => adoptPart drives r opened.1 i path now

def streamSystemWith : System StreamRun StreamLabel where
  next
    | r, StreamLabel.read pkgOffset count =>
        if r.reading.isSome then none
        else if count = 0 ∨ pkgOffset >= r.stream.totalPkgSize then
          some (failRead r r.stream r.now)
        else some { r with reading := some (pkgOffset, count), returned := none }
    | r, StreamLabel.turn a =>
        match r.reading with
        | none => none
        | some (pkgOffset, count) => some (readTurnWith drives cb r pkgOffset count a)

end Open

/-!
# The callbacks of the installer

{lit}`installer_init` registers {lit}`pkg_scanner_find_part` and
{lit}`installer_wait_for_part`.  With them the stream is the one that searches
the drives.
-/

section Installed

variable (drives : Nat -> Drive) (env : FinderEnv)

theorem waitForPart_later (q : PartQuery) (polls now : Nat) :
    now ≤ (waitForPart drives env q polls now).2 := by
  induction polls generalizing now with
  | zero => exact Nat.le_refl now
  | succ polls ih =>
      have hone := (pkgScannerFindPartEx_ok drives env q now).1
      rw [waitForPart]
      cases hfind : pkgScannerFindPartEx drives env q now with
      | mk found pr =>
          rw [hfind] at hone
          cases found with
          | some path => exact hone
          | none => exact Nat.le_trans hone (ih pr.now)

def installedCallbacks (polls : Nat) : StreamCallbacks where
  findPartFn q now :=
    ((pkgScannerFindPartEx drives env q now).1, (pkgScannerFindPartEx drives env q now).2.now)
  waitDiscFn q now := waitForPart drives env q polls now
  find_later q now := (pkgScannerFindPartEx_ok drives env q now).1
  wait_later q now := waitForPart_later drives env q polls now

/-- Two results of a search that differ in the announced part only. -/
def SameFound (a b : Option String × Probe) : Prop :=
  a.1 = b.1 ∧ a.2.now = b.2.now

variable {drives} in
theorem scanEntries_sameFound {visit : String -> String -> Probe -> Option String × Probe}
    {dirPath : String}
    (hvisit : forall name path {pr pr' : Probe}, pr.now = pr'.now ->
      SameFound (visit name path pr) (visit name path pr'))
    (names : List String) {pr pr' : Probe} (hnow : pr.now = pr'.now) :
    SameFound (scanEntries visit dirPath names pr) (scanEntries visit dirPath names pr') := by
  induction names generalizing pr pr' with
  | nil => exact ⟨rfl, hnow⟩
  | cons name names ih =>
      rw [scanEntries, scanEntries]
      split
      · exact ih hnow
      · have hone := hvisit name (cTruncate 1024 (dirPath ++ "/" ++ name)) hnow
        cases hr : visit name (cTruncate 1024 (dirPath ++ "/" ++ name)) pr with
        | mk found mid =>
            cases hr' : visit name (cTruncate 1024 (dirPath ++ "/" ++ name)) pr' with
            | mk found' mid' =>
                rw [hr, hr'] at hone
                rcases hone with ⟨hfound, hmid⟩
                cases hfound
                cases found with
                | some path => exact ⟨rfl, hmid⟩
                | none => exact ih hmid

theorem findAdjacent_sameFound (q : PartQuery) (initialPath : String) {pr pr' : Probe}
    (hnow : pr.now = pr'.now) :
    SameFound (findAdjacent drives q initialPath pr) (findAdjacent drives q initialPath pr') := by
  have htick : pr.tick.now = pr'.tick.now := congrArg (· + 1) hnow
  unfold findAdjacent
  rw [hnow]
  split
  · exact ⟨rfl, hnow⟩
  · split
    · exact ⟨rfl, htick⟩
    · apply scanEntries_sameFound _ _ htick
      intro name cand pr pr' hnow
      have htick : pr.tick.now = pr'.tick.now := congrArg (· + 1) hnow
      rw [hnow]
      split
      · exact ⟨rfl, hnow⟩
      · split
        · exact ⟨rfl, htick⟩
        · split
          · exact ⟨rfl, htick⟩
          · exact ⟨rfl, htick⟩

theorem locatePart_installed (q : PartQuery) (initialPart : Nat) (initialPath : String)
    (polls now : Nat) :
    locatePartWith drives env (installedCallbacks drives env polls) q initialPart initialPath now =
      ((locatePart drives env q initialPart initialPath now).1,
        (locatePart drives env q initialPart initialPath now).2.now) := by
  unfold locatePartWith locatePart
  split
  · rfl
  · show (match ((pkgScannerFindPartEx drives env q now).1,
        (pkgScannerFindPartEx drives env q now).2.now) with
      | (some path, now) => (some path, now)
      | (none, now) => _) = _
    cases pkgScannerFindPartEx drives env q now with
    | mk found pr =>
        cases found with
        | some path => rfl
        | none =>
            have hsame := findAdjacent_sameFound drives q initialPath
              (show ({ now := pr.now, detected := 0 } : Probe).now = pr.now from rfl)
            dsimp only
            cases hfirst : findAdjacent drives q initialPath { now := pr.now, detected := 0 } with
            | mk found mid =>
                cases hsecond : findAdjacent drives q initialPath pr with
                | mk found' mid' =>
                    rw [hfirst, hsecond] at hsame
                    rcases hsame with ⟨hfound, hmid⟩
                    cases hfound
                    cases found with
                    | some path => exact congrArg (Prod.mk (some path)) hmid
                    | none =>
                        dsimp only at hmid
                        dsimp only [findStaged]
                        rw [hmid]
                        split
                        · exact congrArg (Prod.mk _) (congrArg (· + 1) hmid)
                        · exact congrArg (Prod.mk _) (congrArg (· + 1) hmid)

theorem resolveParts_installed (hdr : MultipartHeader) (initialPath : String) (polls : Nat)
    (n p : Nat) (st : VirtualStream) (now : Nat) :
    resolveParts drives env hdr initialPath n p st now =
      resolvePartsWith drives env (installedCallbacks drives env polls) hdr initialPath n p st
        now := by
  induction n generalizing p st now with
  | zero => rfl
  | succ n ih =>
      rw [resolveParts, resolvePartsWith, locatePart_installed]
      change _ = (match (
        (locatePart drives env (streamQuery hdr p) hdr.partIndex initialPath now).1,
        (locatePart drives env (streamQuery hdr p) hdr.partIndex initialPath now).2.now) with
        | (none, now) => _
        | (some path, now) => _)
      dsimp only [streamQuery]
      cases locatePart drives env
          { packageUuid := hdr.packageUuid, pkgFilename := cTruncate 256 hdr.pkgFilename,
            partIndex := p } hdr.partIndex initialPath now with
      | mk found pr =>
          cases found with
          | none => exact ih (p + 1) (deferPart hdr p st) pr.now
          | some path =>
              dsimp only
              cases multipartReadHeader (drives pr.now) path with
              | none => rfl
              | some phdr => exact ih (p + 1) (recordPart path phdr p st) (pr.now + 1)

theorem virtualStreamOpen_installed (initialPath : String) (polls now : Nat) :
    virtualStreamOpen drives env initialPath now =
      virtualStreamOpenWith drives env (installedCallbacks drives env polls) initialPath now := by
  unfold virtualStreamOpen virtualStreamOpenWith
  cases (drives now).file (localPath initialPath) with
  | none => rfl
  | some f =>
      dsimp only
      cases multipartReadHeader (drives (now + 1)) (localPath initialPath) with
      | none => rfl
      | some hdr =>
          dsimp only
          rw [resolveParts_installed drives env hdr initialPath polls]

theorem readTurn_installed (r : StreamRun) (pkgOffset count : Nat) (a : TurnAnswer) :
    readTurn drives env r pkgOffset count a =
      readTurnWith drives (installedCallbacks drives env a.polls) r pkgOffset count a := by
  rfl

end Installed

end Multipart
end PkgManager

/-!
# A package and its part files

A package that was divided into consecutive slices, one in each part file.  The
headers say what the division is.
-/

namespace PkgManager
namespace Multipart

open Transition

/-- Slice {lit}`i` begins where the slices before it end. -/
def sliceStart (slices : List (List UInt8)) (i : Nat) : Nat :=
  (slices.take i).flatten.length

def sliceSize (slices : List (List UInt8)) (i : Nat) : Nat :=
  (slices.getD i []).length

/-- The file of a part: its header is exact, and the slice is stored where the
header says that the data begins. -/
structure IsPart (slices : List (List UInt8)) (uuid : List UInt8) (i : Nat)
    (hdr : MultipartHeader) (f : PartFile) : Prop where
  header_eq : f.header = some hdr
  valid : multipartIsValidHeader hdr = true
  uuid_eq : hdr.packageUuid = uuid
  index_eq : hdr.partIndex = i + 1
  parts_eq : hdr.totalParts = slices.length
  offset_eq : hdr.partOffset = sliceStart slices i
  size_eq : hdr.partDataSize = sliceSize slices i
  total_eq : hdr.totalPkgSize = slices.flatten.length
  stored : forall j, j < sliceSize slices i ->
    (slices.getD i [])[j]? = some (f.byte (sliceOffset hdr + j))
  fits : sliceOffset hdr + sliceSize slices i ≤ f.size
  small : f.size < 2 ^ 63

/-- Slots and slices are counted from 0, parts from 1. -/
structure Division where
  slices : List (List UInt8)
  uuid : List UInt8
  header : Nat -> MultipartHeader
  file : Nat -> PartFile
  slices_nonempty : forall s, s ∈ slices -> s ≠ []
  parts_le : slices.length ≤ maxMultipartParts
  total_lt : slices.flatten.length < 2 ^ 64
  isPart : forall i, i < slices.length -> IsPart slices uuid i (header i) (file i)

namespace Division

def package (D : Division) : List UInt8 :=
  D.slices.flatten

def parts (D : Division) : Nat :=
  D.slices.length

def total (D : Division) : Nat :=
  D.package.length

def start (D : Division) (i : Nat) : Nat :=
  sliceStart D.slices i

def size (D : Division) (i : Nat) : Nat :=
  sliceSize D.slices i

end Division

/-!
# The slices cover the package
-/

theorem sliceStart_succ {slices : List (List UInt8)} {i : Nat} (h : i < slices.length) :
    sliceStart slices (i + 1) = sliceStart slices i + sliceSize slices i := by
  unfold sliceStart sliceSize
  rw [List.take_add_one, List.flatten_append, List.length_append, List.getElem?_eq_getElem h,
    List.getD_eq_getElem _ _ h]
  simp

theorem sliceStart_le_total (slices : List (List UInt8)) (i : Nat) :
    sliceStart slices i ≤ slices.flatten.length := by
  unfold sliceStart
  conv => rhs; rw [← List.take_append_drop i slices, List.flatten_append, List.length_append]
  exact Nat.le_add_right _ _

theorem sliceStart_length (slices : List (List UInt8)) :
    sliceStart slices slices.length = slices.flatten.length := by
  unfold sliceStart
  rw [List.take_length]

/-- A byte of a slice is the byte of the package that is as far behind the start
of the slice. -/
theorem flatten_slice {slices : List (List UInt8)} {i : Nat} (h : i < slices.length) {j : Nat}
    (hj : j < sliceSize slices i) :
    slices.flatten[sliceStart slices i + j]? = (slices.getD i [])[j]? := by
  have hslice : slices.getD i [] = slices[i] := List.getD_eq_getElem _ _ h
  have hsplit : slices.flatten =
      (slices.take i).flatten ++ (slices[i] ++ (slices.drop (i + 1)).flatten) := by
    conv => lhs; rw [← List.take_append_drop i slices, List.drop_eq_getElem_cons h]
    rw [List.flatten_append, List.flatten_cons]
  unfold sliceSize at hj
  unfold sliceStart
  rw [hslice] at hj ⊢
  rw [hsplit, List.getElem?_append_right (Nat.le_add_right _ _), Nat.add_sub_cancel_left,
    List.getElem?_append_left hj]

section Facts

variable (D : Division)

theorem start_succ {i : Nat} (h : i < D.parts) : D.start (i + 1) = D.start i + D.size i :=
  sliceStart_succ h

theorem start_le_total (i : Nat) : D.start i ≤ D.total :=
  sliceStart_le_total D.slices i

theorem start_parts : D.start D.parts = D.total :=
  sliceStart_length D.slices

theorem start_zero : D.start 0 = 0 :=
  rfl

theorem total_lt : D.total < 2 ^ 64 :=
  D.total_lt

theorem size_pos {i : Nat} (h : i < D.parts) : 0 < D.size i := by
  apply List.length_pos_of_ne_nil
  have hslice : D.slices.getD i [] = D.slices[i] := List.getD_eq_getElem _ _ h
  rw [hslice]
  exact D.slices_nonempty _ (List.getElem_mem h)

theorem start_mono {i j : Nat} (hij : i ≤ j) (hj : j ≤ D.parts) : D.start i ≤ D.start j := by
  induction j, hij using Nat.le_induction with
  | base => exact Nat.le_refl _
  | succ j _ ih =>
      rw [start_succ D hj]
      exact Nat.le_trans (ih (Nat.le_of_lt hj)) (Nat.le_add_right _ _)

theorem start_pos {i : Nat} (h0 : 0 < i) (h : i ≤ D.parts) : 0 < D.start i := by
  have hfirst : D.start 1 ≤ D.start i := start_mono D h0 h
  have hone : D.start 1 = D.start 0 + D.size 0 := start_succ D (Nat.lt_of_lt_of_le h0 h)
  have hsize := size_pos D (Nat.lt_of_lt_of_le h0 h)
  omega

/-- Every place of the package is in one of the slices. -/
theorem slice_of {x : Nat} (hx : x < D.total) :
    exists i, i < D.parts ∧ D.start i ≤ x ∧ x < D.start (i + 1) := by
  have hex : exists m, x < D.start m := ⟨D.parts, by rw [start_parts]; exact hx⟩
  cases hm : Nat.find hex with
  | zero =>
      have hspec := Nat.find_spec hex
      rw [hm, start_zero] at hspec
      cases hspec
  | succ i =>
      have hspec := Nat.find_spec hex
      rw [hm] at hspec
      have hbefore : D.start i ≤ x :=
        Nat.le_of_not_lt (Nat.find_min hex (by rw [hm]; exact Nat.lt_succ_self i))
      refine ⟨i, ?_, hbefore, hspec⟩
      by_contra hge
      have htotal : D.start i = D.total := by
        have hle := Nat.find_min' hex (show x < D.start D.parts by rw [start_parts]; exact hx)
        omega
      omega

/-- A place is in one slice only. -/
theorem slice_unique {x i j : Nat} (hi : i < D.parts) (hj : j < D.parts)
    (hxi : D.start i ≤ x ∧ x < D.start (i + 1)) (hxj : D.start j ≤ x ∧ x < D.start (j + 1)) :
    i = j := by
  rcases Nat.lt_trichotomy i j with hlt | heq | hgt
  · have hle : D.start (i + 1) ≤ D.start j := start_mono D hlt (Nat.le_of_lt hj)
    omega
  · exact heq
  · have hle : D.start (j + 1) ≤ D.start i := start_mono D hgt (Nat.le_of_lt hi)
    omega

end Facts

end Multipart
end PkgManager
