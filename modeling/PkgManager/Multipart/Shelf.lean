import PkgManager.Multipart.Slots

/-!
# A shelf of part files

Every package can be divided at any places: the part files exist.  A shelf is a
drive that holds all of them, with callbacks that find the parts, except for
those that are only handed out by the waiter.
-/

namespace PkgManager
namespace Multipart

/-!
# Part files for any slices
-/

def packedHeader (slices : List (List UInt8)) (i : Nat) : MultipartHeader where
  magic := "PS5MPKG1"
  headerVersion := 1
  partIndex := i + 1
  totalParts := slices.length
  compressionType := 0
  chunkSize := 2097152
  partDataSize := sliceSize slices i
  totalPkgSize := slices.flatten.length
  pkgFilename := "game.pkg"
  titleId := "PPSA00001"
  titleName := "Game"
  packageUuid := List.replicate 16 1
  iconOffset := 0
  iconSize := 0
  partOffset := sliceStart slices i
  dataOffset := multipartHeaderSize

def packedFile (slices : List (List UInt8)) (i : Nat) : PartFile where
  header := some (packedHeader slices i)
  size := multipartHeaderSize + sliceSize slices i
  byte := fun k => (slices.getD i []).getD (k - multipartHeaderSize) 0

theorem packedHeader_valid {slices : List (List UInt8)} {i : Nat} (h : i < slices.length) :
    multipartIsValidHeader (packedHeader slices i) = true := by
  have hmagic : ((packedHeader slices i).magic != "PS5MPKG1") = false := bne_self_eq_false _
  have hversion : ((packedHeader slices i).headerVersion != 1) = false := rfl
  have hparts : ((packedHeader slices i).totalParts == 0 || (packedHeader slices i).partIndex == 0 ||
      decide ((packedHeader slices i).partIndex > (packedHeader slices i).totalParts)) = false := by
    rw [Bool.or_eq_false_iff, Bool.or_eq_false_iff]
    exact ⟨⟨beq_false_of_ne (Nat.ne_of_gt (Nat.zero_lt_of_lt h)), rfl⟩,
      decide_eq_false (Nat.not_lt_of_le h)⟩
  have hcompression : ((packedHeader slices i).compressionType != 0 &&
      (packedHeader slices i).compressionType != 1) = false := rfl
  have hchunk : ¬ (packedHeader slices i).chunkSize > 67108864 := by
    show ¬ 2097152 > 67108864
    decide
  unfold multipartIsValidHeader
  rw [hmagic, hversion, hparts, hcompression, if_neg hchunk]
  rfl

theorem packed_isPart {slices : List (List UInt8)} (hsmall : slices.flatten.length < 2 ^ 62)
    {i : Nat} (h : i < slices.length) :
    IsPart slices (List.replicate 16 1) i (packedHeader slices i) (packedFile slices i) := by
  have hend : sliceStart slices i + sliceSize slices i ≤ slices.flatten.length := by
    rw [← sliceStart_succ h]
    exact sliceStart_le_total slices (i + 1)
  refine ⟨rfl, packedHeader_valid h, rfl, rfl, rfl, rfl, rfl, rfl, ?_, Nat.le_refl _, ?_⟩
  · intro j hj
    have hplace : sliceOffset (packedHeader slices i) + j - multipartHeaderSize = j :=
      Nat.add_sub_cancel_left _ _
    show (slices.getD i [])[j]? = some ((slices.getD i []).getD
      (sliceOffset (packedHeader slices i) + j - multipartHeaderSize) 0)
    rw [hplace, List.getD_eq_getElem _ _ hj]
    exact List.getElem?_eq_getElem hj
  · show multipartHeaderSize + sliceSize slices i < 2 ^ 63
    have hheader : multipartHeaderSize = 4096 := rfl
    omega

/-- Part files for slices that are given. -/
def divide (slices : List (List UInt8)) (hne : forall s, s ∈ slices -> s ≠ [])
    (hparts : slices.length ≤ maxMultipartParts) (hsmall : slices.flatten.length < 2 ^ 62) :
    Division where
  slices := slices
  uuid := List.replicate 16 1
  header := packedHeader slices
  file := packedFile slices
  slices_nonempty := hne
  parts_le := hparts
  total_lt := Nat.lt_of_lt_of_le hsmall (by decide)
  isPart i hi := packed_isPart hsmall hi

/-!
# The shelf
-/

section Shelf

variable (D : Division)

/-- The name of a part on the shelf: as many characters as there are parts
before it, behind a {lit}`p`. -/
def shelfPath (i : Nat) : String :=
  String.ofList ('p' :: List.replicate i 'x')

def shelf (_t : Nat) : Drive where
  file path :=
    match path.toList with
    | 'p' :: rest => if rest.length < D.parts then some (D.file rest.length) else none
    | _ => none
  dir _ := none
  mounted _ := false

/-- The finder does not know the parts of the deferred slots, the waiter has
them all. -/
def shelfCallbacks (deferred : Nat -> Bool) : StreamCallbacks where
  findPartFn q now :=
    (if deferred (q.partIndex - 1) then none else some (shelfPath (q.partIndex - 1)), now)
  waitDiscFn q now := (some (shelfPath (q.partIndex - 1)), now)
  find_later _ now := Nat.le_refl now
  wait_later _ now := Nat.le_refl now

variable {D}

theorem shelfPath_toList (i : Nat) : (shelfPath i).toList = 'p' :: List.replicate i 'x' :=
  String.toList_ofList

theorem shelf_file {i : Nat} (hi : i < D.parts) (t : Nat) :
    (shelf D t).file (shelfPath i) = some (D.file i) := by
  unfold shelf
  dsimp only
  rw [shelfPath_toList]
  show (if (List.replicate i 'x').length < D.parts then
    some (D.file (List.replicate i 'x').length) else none) = _
  rw [List.length_replicate, if_pos hi]

theorem localPath_shelfPath (i : Nat) : localPath (shelfPath i) = shelfPath i := by
  unfold localPath hasPrefix
  rw [shelfPath_toList, if_neg (by simp [List.isPrefixOf])]

theorem cTruncate_shelfPath {i : Nat} (hi : i < 256) : cTruncate 512 (shelfPath i) = shelfPath i := by
  apply cTruncate_of_lt
  rw [shelfPath_toList, List.length_cons, List.length_replicate]
  omega

theorem pathOf_shelfPath {i : Nat} (hi : i < D.parts) (now : Nat) :
    PathOf (shelf D) D now i (shelfPath i) := by
  intro t f _ hfile
  rw [localPath_shelfPath, shelf_file hi t] at hfile
  rcases hfile with h | h
  · exact (Option.some.inj h).symm
  · exact (Option.some.inj h).symm

theorem shelf_header {i : Nat} (hi : i < D.parts) (t : Nat) :
    multipartReadHeader (shelf D t) (shelfPath i) = some (D.header i) := by
  have hpart := D.isPart i hi
  have hscheme : (hasPrefix "smb://" (shelfPath i) || pkgParserIsHttpPath (shelfPath i)) = false := by
    unfold pkgParserIsHttpPath hasPrefix
    rw [shelfPath_toList]
    simp [List.isPrefixOf]
  unfold multipartReadHeader
  rw [hscheme, localPath_shelfPath, shelf_file hi t]
  dsimp only
  rw [hpart.header_eq]
  dsimp only
  rw [hpart.valid]
  rfl

theorem findAdjacent_shelf (q : PartQuery) (initialPath : String) (pr : Probe) :
    (findAdjacent (shelf D) q initialPath pr).1 = none := by
  unfold findAdjacent
  split
  · rfl
  · rfl

theorem stagedPath_slash (part : Nat) :
    exists rest, (stagedPath {} part).toList = '/' :: rest := by
  refine ⟨(stagedPath {} part).toList.tail, ?_⟩
  unfold stagedPath cTruncate tmpDir
  rw [if_neg (by decide), String.toList_ofList]
  simp [String.toList_append]

theorem findStaged_shelf (part : Nat) (pr : Probe) :
    (findStaged (shelf D) {} part pr).1 = none := by
  rcases stagedPath_slash part with ⟨rest, hpath⟩
  have hfile : (shelf D pr.now).file (stagedPath {} part) = none := by
    unfold shelf
    dsimp only
    rw [hpath]
    rfl
  unfold findStaged
  rw [hfile]
  rfl

theorem shelf_rightParts (deferred : Nat -> Bool) {first : Nat} (hfirst : first < D.parts)
    (start : Nat) :
    RightParts (shelf D) {} (shelfCallbacks deferred) D (shelfPath first) first start := by
  refine ⟨hfirst, ?_, ?_, ?_, ?_, ?_, ?_⟩
  · rw [localPath_shelfPath]
    exact pathOf_shelfPath hfirst start
  · rw [cTruncate_shelfPath (Nat.lt_of_lt_of_le hfirst D.parts_le)]
    exact pathOf_shelfPath hfirst start
  · intro i now path now' hi hfind
    rcases Prod.mk.inj hfind with ⟨hpath, _⟩
    split at hpath
    · cases hpath
    · cases hpath
      exact pathOf_shelfPath hi now'
  · intro i pr path pr' hi hadj
    have hnone := findAdjacent_shelf (D := D) (D.query first i) (shelfPath first) pr
    rw [hadj] at hnone
    cases hnone
  · intro i pr path pr' hi hstaged
    have hnone := findStaged_shelf (D := D) (i + 1) pr
    rw [hstaged] at hnone
    cases hnone
  · intro i now path now' hi hwait
    rcases Prod.mk.inj hwait with ⟨hpath, _⟩
    cases hpath
    exact pathOf_shelfPath hi now'

end Shelf

end Multipart
end PkgManager
