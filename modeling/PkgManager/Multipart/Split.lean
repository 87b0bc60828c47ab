import PkgManager.Multipart.Layout

/-!
# Splitting a package

{lit}`split_pkg` of {lit}`pkg_split.py`: the package is copied into part files
one after the other, and when all of them are there their headers are written.
-/

namespace PkgManager
namespace Multipart

/-- What the splitter has found out about the package.  An icon is only taken
when it is smaller than 1 MiB. -/
structure PkgMetadata where
  titleId : String
  titleName : String
  contentId : String
  appVersion : String
  pkgType : String
  iconData : List UInt8
  icon_lt : iconData.length < 1048576

/-- An entry of {lit}`parts_info`, with the file as it is before its header is
written. -/
structure SplitPart where
  index : Nat
  name : String
  content : List UInt8
  partDataSize : Nat
  partOffset : Nat
  dataOffset : Nat
  iconOffset : Nat
  iconSize : Nat

/-- {lit}`io_buffer_size` -/
def ioBufferSize : Nat := 2097152

/-- The loop that copies the payload of a part, and what is left of the input. -/
def copyPayload : Nat -> List UInt8 -> Nat -> List UInt8 × List UInt8
  | 0, inF, _ => ([], inF)
  | fuel + 1, inF, left =>
      let chunk := inF.take (min ioBufferSize left)
      if left = 0 then ([], inF)
      else if chunk = [] then ([], inF)
      else
        let more := copyPayload fuel (inF.drop chunk.length) (left - chunk.length)
        (chunk ++ more.1, more.2)

section Split

variable (info : PkgMetadata) (filename : String)

def partIcon (currentPart : Nat) : List UInt8 :=
  if info.iconData.length > 0 ∧ currentPart = 1 then info.iconData else []

/-- The payload of a part. -/
def partPayload (partSize currentPart : Nat) (inF : List UInt8) : List UInt8 × List UInt8 :=
  copyPayload (inF.length + 1) inF
    (max 1 (partSize - (multipartHeaderSize + (partIcon info currentPart).length)))

def splitPart (partSize bytesRead currentPart : Nat) (inF : List UInt8) : SplitPart where
  index := currentPart
  name := filename ++ ".part" ++ Nat.repr currentPart
  content :=
    List.replicate multipartHeaderSize 0 ++ partIcon info currentPart ++
      (partPayload info partSize currentPart inF).1
  partDataSize := (partPayload info partSize currentPart inF).1.length
  partOffset := bytesRead
  dataOffset := multipartHeaderSize + (partIcon info currentPart).length
  iconOffset :=
    if info.iconData.length > 0 ∧ currentPart = 1 then multipartHeaderSize else 0
  iconSize := (partIcon info currentPart).length

/-- The loop over the parts.  Every turn but the first of an empty package takes
at least one byte. -/
def splitParts (partSize total : Nat) : Nat -> List UInt8 -> Nat -> Nat -> List SplitPart
  | 0, _, _, _ => []
  | fuel + 1, inF, bytesRead, currentPart =>
      if ¬ (bytesRead < total ∨ currentPart = 1) then []
      else
        let payload := partPayload info partSize currentPart inF
        splitPart info filename partSize bytesRead currentPart inF ::
          (if bytesRead + payload.1.length >= total then []
          else
            splitParts partSize total fuel payload.2 (bytesRead + payload.1.length)
              (currentPart + 1))

variable (pkgUuid : List UInt8)

def headerArgs (totalParts total totalArchive : Nat) (p : SplitPart) : HeaderArgs where
  partIndex := p.index
  totalParts := totalParts
  chunkSize := ioBufferSize
  numChunks := 0
  partDataSize := p.partDataSize
  totalPkgSize := total
  totalArchiveSize := totalArchive
  pkgFilename := filename
  titleId := info.titleId
  titleName := info.titleName
  contentId := info.contentId
  pkgUuid := pkgUuid
  iconOffset := p.iconOffset
  iconSize := p.iconSize
  appVersion := info.appVersion
  pkgType := info.pkgType
  partOffset := p.partOffset
  dataOffset := p.dataOffset

/-- The header is written over the beginning of the file. -/
def writeHeader (totalParts total totalArchive : Nat) (p : SplitPart) : Option (List UInt8) :=
  (packHeader (headerArgs info filename pkgUuid totalParts total totalArchive p)).map
    (fun hdr => hdr ++ p.content.drop hdr.length)

def writeHeaders (totalParts total totalArchive : Nat) :
    List SplitPart -> Option (List (String × List UInt8))
  | [] => some []
  | p :: rest =>
      match writeHeader info filename pkgUuid totalParts total totalArchive p with
      | none => none
      | some file =>
          (writeHeaders totalParts total totalArchive rest).map (fun files => (p.name, file) :: files)

/-- The part files.  There are none when a header cannot be packed. -/
def splitPkg (pkg : List UInt8) (partSize : Nat) : Option (List (String × List UInt8)) :=
  let parts := splitParts info filename partSize pkg.length (pkg.length + 1) pkg 0 1
  writeHeaders info filename pkgUuid parts.length pkg.length
    ((parts.map (fun p => p.content.length)).sum) parts

end Split

/-!
# What the parts are
-/

theorem copyPayload_eq {fuel left : Nat} {inF : List UInt8} (h : inF.length < fuel) :
    copyPayload fuel inF left = (inF.take left, inF.drop left) := by
  induction fuel generalizing inF left with
  | zero => exact absurd h (Nat.not_lt_zero _)
  | succ fuel ih =>
      have hbuffer : 0 < ioBufferSize := by decide
      rw [copyPayload]
      split
      · rename_i hleft
        rw [hleft]
        rfl
      · split
        · rename_i hleft hempty
          have hin : inF = [] := by
            rcases List.take_eq_nil_iff.mp hempty with hzero | hnil
            · omega
            · exact hnil
          rw [hin, List.take_nil, List.drop_nil]
        · rename_i hleft hsome
          have hlen : (inF.take (min ioBufferSize left)).length =
              min (min ioBufferSize left) inF.length := List.length_take
          have hpos : 0 < inF.length := by
            apply List.length_pos_of_ne_nil
            intro hnil
            rw [hnil, List.take_nil] at hsome
            exact hsome rfl
          have hdrop : (inF.drop (inF.take (min ioBufferSize left)).length).length < fuel := by
            rw [List.length_drop]
            omega
          dsimp only
          rw [ih hdrop, hlen]
          have htake : inF.take (min ioBufferSize left) =
              inF.take (min (min ioBufferSize left) inF.length) :=
            List.take_eq_take_iff.mpr (by omega)
          have hsplit : min (min ioBufferSize left) inF.length +
              (left - min (min ioBufferSize left) inF.length) = left := by omega
          rw [htake, ← List.take_add, List.drop_drop, hsplit]

/-- The parts of a package from a place on: their numbers, their places, and the
payload behind the data offset of each file. -/
inductive IsSplit : Nat -> Nat -> List SplitPart -> List UInt8 -> Prop where
  | nil {k offset : Nat} : IsSplit k offset [] []
  | cons {k offset : Nat} {p : SplitPart} {rest : List SplitPart} {front slice data : List UInt8} :
      p.index = k -> p.partOffset = offset -> p.partDataSize = slice.length ->
        p.content = front ++ slice -> p.dataOffset = front.length ->
        multipartHeaderSize ≤ front.length ->
        IsSplit (k + 1) (offset + slice.length) rest data ->
        IsSplit k offset (p :: rest) (slice ++ data)

section Parts

variable {info : PkgMetadata} {filename : String}

theorem splitParts_isSplit {partSize total fuel bytesRead currentPart : Nat} {inF : List UInt8}
    (hfuel : inF.length < fuel) (htotal : bytesRead + inF.length = total)
    (hgo : bytesRead < total ∨ currentPart = 1) :
    IsSplit currentPart bytesRead
      (splitParts info filename partSize total fuel inF bytesRead currentPart) inF := by
  induction fuel generalizing inF bytesRead currentPart with
  | zero => exact absurd hfuel (Nat.not_lt_zero _)
  | succ fuel ih =>
      rw [splitParts, if_neg (not_not_intro hgo)]
      dsimp only
      have hpayload : partPayload info partSize currentPart inF =
          (inF.take (max 1 (partSize - (multipartHeaderSize + (partIcon info currentPart).length))),
            inF.drop (max 1
              (partSize - (multipartHeaderSize + (partIcon info currentPart).length)))) :=
        copyPayload_eq (Nat.lt_succ_self _)
      have hjoin : (partPayload info partSize currentPart inF).1 ++
          (partPayload info partSize currentPart inF).2 = inF := by
        rw [hpayload]
        exact List.take_append_drop _ _
      have hlen : (partPayload info partSize currentPart inF).1.length +
          (partPayload info partSize currentPart inF).2.length = inF.length := by
        conv => rhs; rw [← hjoin, List.length_append]
      have hprogress : 0 < inF.length -> 0 < (partPayload info partSize currentPart inF).1.length := by
        intro hpos
        rw [hpayload, List.length_take]
        omega
      have hfront : (List.replicate multipartHeaderSize (0 : UInt8) ++
          partIcon info currentPart).length =
          multipartHeaderSize + (partIcon info currentPart).length := by
        rw [List.length_append, List.length_replicate]
      conv => rhs; rw [← hjoin]
      refine IsSplit.cons (p := splitPart info filename partSize bytesRead currentPart inF)
        rfl rfl rfl rfl hfront.symm ?_ ?_
      · rw [hfront]
        exact Nat.le_add_right _ _
      · split
        · have hnil : (partPayload info partSize currentPart inF).2 = [] :=
            List.eq_nil_of_length_eq_zero (by omega)
          rw [hnil]
          exact IsSplit.nil
        · exact ih (by omega) (by omega) (Or.inl (by omega))

/-- The numbers of a part that do not depend on the package are small. -/
structure SmallPart (p : SplitPart) : Prop where
  dataOffset_le : p.dataOffset ≤ 2 ^ 21
  iconOffset_le : p.iconOffset ≤ 2 ^ 21
  iconSize_le : p.iconSize ≤ 2 ^ 21
  length_eq : p.content.length = p.dataOffset + p.partDataSize

theorem splitParts_small {partSize total fuel bytesRead currentPart : Nat} {inF : List UInt8}
    {p : SplitPart}
    (hp : p ∈ splitParts info filename partSize total fuel inF bytesRead currentPart) :
    SmallPart p := by
  induction fuel generalizing inF bytesRead currentPart with
  | zero => cases hp
  | succ fuel ih =>
      rw [splitParts] at hp
      split at hp
      · cases hp
      · rcases List.mem_cons.mp hp with hhere | hlater
        · have hicon : (partIcon info currentPart).length < 1048576 := by
            unfold partIcon
            split
            · exact info.icon_lt
            · decide
          have hheader : multipartHeaderSize = 4096 := rfl
          rw [hhere]
          refine ⟨?_, ?_, ?_, ?_⟩
          · show multipartHeaderSize + (partIcon info currentPart).length ≤ 2 ^ 21
            omega
          · show (if info.iconData.length > 0 ∧ currentPart = 1 then multipartHeaderSize else 0) ≤
              2 ^ 21
            split
            · omega
            · exact Nat.zero_le _
          · show (partIcon info currentPart).length ≤ 2 ^ 21
            omega
          · show (List.replicate multipartHeaderSize (0 : UInt8) ++ partIcon info currentPart ++
                (partPayload info partSize currentPart inF).1).length = _
            rw [List.length_append, List.length_append, List.length_replicate]
            rfl
        · split at hlater
          · cases hlater
          · exact ih hlater

/-- A part lies inside the package, and the parts are counted. -/
theorem isSplit_bounds {k offset : Nat} {parts : List SplitPart} {data : List UInt8}
    (h : IsSplit k offset parts data) {p : SplitPart} (hp : p ∈ parts) :
    p.index < k + parts.length ∧ p.partOffset + p.partDataSize ≤ offset + data.length := by
  induction h with
  | nil => cases hp
  | cons hindex hplace hsize _ _ _ _ ih =>
      rw [List.length_cons, List.length_append]
      rcases List.mem_cons.mp hp with hhere | hlater
      · rw [hhere, hindex, hplace, hsize]
        omega
      · have hrest := ih hlater
        omega

theorem isSplit_archive {k offset : Nat} {parts : List SplitPart} {data : List UInt8}
    (h : IsSplit k offset parts data) (hsmall : forall p, p ∈ parts -> SmallPart p) :
    (parts.map (fun p => p.content.length)).sum ≤ 2 ^ 21 * parts.length + data.length := by
  induction h with
  | nil => exact Nat.zero_le _
  | @cons _ _ p rest front slice data _ _ hsize _ _ _ _ ih =>
      have hp := hsmall p List.mem_cons_self
      have hrest := ih (fun p hp => hsmall p (List.mem_cons_of_mem _ hp))
      have hlength := hp.length_eq
      have hoffset := hp.dataOffset_le
      rw [List.map_cons, List.sum_cons, List.length_cons, List.length_append, hlength]
      omega

end Parts

end Multipart
end PkgManager
