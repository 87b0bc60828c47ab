import PkgManager.Bytes.Endian
import PkgManager.Multipart.Header

/-!
# The bytes of a part header

{lit}`multipart_header_t` is a packed record of 4096 bytes.  The console reads it
in place; {lit}`pkg_split.py` packs it with {lit}`struct.pack`.
-/

namespace PkgManager
namespace Multipart

open Endian
open Struct

structure PackedHeader where
  magic : List UInt8
  headerVersion : Nat
  partIndex : Nat
  totalParts : Nat
  compressionType : Nat
  chunkSize : Nat
  numChunksInPart : Nat
  partDataSize : Nat
  totalPkgSize : Nat
  totalArchiveSize : Nat
  pkgFilename : List UInt8
  titleId : List UInt8
  titleName : List UInt8
  contentId : List UInt8
  packageUuid : List UInt8
  iconOffset : Nat
  iconSize : Nat
  appVersion : List UInt8
  pkgType : List UInt8
  partOffset : Nat
  dataOffset : Nat
  reserved : List UInt8
deriving DecidableEq

def headerWidths : List Nat :=
  [8, 4, 4, 4, 4, 4, 4, 8, 8, 8, 256, 32, 256, 64, 16, 4, 4, 32, 16, 8, 4, 3348]

/-!
# Reading
-/

def decodeHeader (bytes : List UInt8) : PackedHeader :=
  let field := fun k => (split headerWidths bytes).getD k []
  let number := fun k => ofLittleEndian (field k)
  { magic := field 0
    headerVersion := number 1
    partIndex := number 2
    totalParts := number 3
    compressionType := number 4
    chunkSize := number 5
    numChunksInPart := number 6
    partDataSize := number 7
    totalPkgSize := number 8
    totalArchiveSize := number 9
    pkgFilename := field 10
    titleId := field 11
    titleName := field 12
    contentId := field 13
    packageUuid := field 14
    iconOffset := number 15
    iconSize := number 16
    appVersion := field 17
    pkgType := field 18
    partOffset := number 19
    dataOffset := number 20
    reserved := field 21 }

def bytesOf (text : String) : List UInt8 :=
  text.toList.map (fun c => UInt8.ofNat c.toNat)

/-- The C string at the start of a field. -/
def textOf (bytes : List UInt8) : String :=
  String.ofList ((bytes.takeWhile (fun b => b != 0)).map (fun b => Char.ofNat b.toNat))

/-- The header as the stream sees it. -/
def PackedHeader.view (hdr : PackedHeader) : MultipartHeader where
  magic := textOf hdr.magic
  headerVersion := hdr.headerVersion
  partIndex := hdr.partIndex
  totalParts := hdr.totalParts
  compressionType := hdr.compressionType
  chunkSize := hdr.chunkSize
  partDataSize := hdr.partDataSize
  totalPkgSize := hdr.totalPkgSize
  pkgFilename := textOf hdr.pkgFilename
  titleId := textOf hdr.titleId
  titleName := textOf hdr.titleName
  packageUuid := hdr.packageUuid
  iconOffset := hdr.iconOffset
  iconSize := hdr.iconSize
  partOffset := hdr.partOffset
  dataOffset := hdr.dataOffset

/-- {lit}`fread` of a whole header. -/
def freadHeader (bytes : List UInt8) : Option PackedHeader :=
  if bytes.length < multipartHeaderSize then none
  else some (decodeHeader (bytes.take multipartHeaderSize))

/-!
# Packing
-/

/-- The arguments of {lit}`pack_header`. -/
structure HeaderArgs where
  partIndex : Nat
  totalParts : Nat
  chunkSize : Nat
  numChunks : Nat
  partDataSize : Nat
  totalPkgSize : Nat
  totalArchiveSize : Nat
  pkgFilename : String
  titleId : String
  titleName : String
  contentId : String
  pkgUuid : List UInt8
  iconOffset : Nat
  iconSize : Nat
  appVersion : String
  pkgType : String
  partOffset : Nat
  dataOffset : Nat

def utf8 (text : String) : List UInt8 :=
  text.toUTF8.data.toList

/-- {lit}`text.encode('utf-8')[:width - 1].ljust(width, b'\x00')` -/
def clipped (width : Nat) (text : String) : List UInt8 :=
  padded width ((utf8 text).take (width - 1))

def reservedBytes : List UInt8 :=
  List.replicate 3348 0

def headerFields (a : HeaderArgs) : List Field :=
  [Field.text 8 (bytesOf "PS5MPKG1"),
    Field.number 4 1,
    Field.number 4 a.partIndex,
    Field.number 4 a.totalParts,
    Field.number 4 0,
    Field.number 4 a.chunkSize,
    Field.number 4 a.numChunks,
    Field.number 8 a.partDataSize,
    Field.number 8 a.totalPkgSize,
    Field.number 8 a.totalArchiveSize,
    Field.text 256 (clipped 256 a.pkgFilename),
    Field.text 32 (clipped 32 a.titleId),
    Field.text 256 (clipped 256 a.titleName),
    Field.text 64 (clipped 64 a.contentId),
    Field.text 16 a.pkgUuid,
    Field.number 4 a.iconOffset,
    Field.number 4 a.iconSize,
    Field.text 32 (clipped 32 a.appVersion),
    Field.text 16 (clipped 16 a.pkgType),
    Field.number 8 a.partOffset,
    Field.number 4 a.dataOffset,
    Field.text 3348 reservedBytes]

/-- There is no header when a number does not fit its field. -/
def packHeader (a : HeaderArgs) : Option (List UInt8) :=
  pack (headerFields a)

/-- The values that {lit}`pack_header` writes. -/
def HeaderArgs.written (a : HeaderArgs) : PackedHeader where
  magic := bytesOf "PS5MPKG1"
  headerVersion := 1
  partIndex := a.partIndex
  totalParts := a.totalParts
  compressionType := 0
  chunkSize := a.chunkSize
  numChunksInPart := a.numChunks
  partDataSize := a.partDataSize
  totalPkgSize := a.totalPkgSize
  totalArchiveSize := a.totalArchiveSize
  pkgFilename := clipped 256 a.pkgFilename
  titleId := clipped 32 a.titleId
  titleName := clipped 256 a.titleName
  contentId := clipped 64 a.contentId
  packageUuid := padded 16 a.pkgUuid
  iconOffset := a.iconOffset
  iconSize := a.iconSize
  appVersion := clipped 32 a.appVersion
  pkgType := clipped 16 a.pkgType
  partOffset := a.partOffset
  dataOffset := a.dataOffset
  reserved := reservedBytes

theorem headerFields_widths (a : HeaderArgs) :
    (headerFields a).map Field.width = headerWidths := by
  rfl

theorem length_packHeader {a : HeaderArgs} {bytes : List UInt8} (h : packHeader a = some bytes) :
    bytes.length = multipartHeaderSize := by
  have hlength := length_pack h
  rw [headerFields_widths] at hlength
  exact hlength

theorem padded_clipped (width : Nat) (text : String) :
    padded width (clipped width text) = clipped width text :=
  padded_of_length (length_padded width _)

/-- The console reads the values that were written. -/
theorem decodeHeader_packHeader {a : HeaderArgs} {bytes : List UInt8}
    (h : packHeader a = some bytes) : decodeHeader bytes = a.written := by
  have htext : forall {k width : Nat} {text : List UInt8},
      (headerFields a)[k]? = some (Field.text width text) ->
      (split headerWidths bytes).getD k [] = padded width text := by
    intro k width text hf
    have hsplit := text_split h [] hf
    rw [headerFields_widths, List.append_nil] at hsplit
    exact hsplit
  have hnumber : forall {k width value : Nat},
      (headerFields a)[k]? = some (Field.number width value) ->
      ofLittleEndian ((split headerWidths bytes).getD k []) = value := by
    intro k width value hf
    have hsplit := (number_split h [] hf).1
    rw [headerFields_widths, List.append_nil] at hsplit
    exact hsplit
  have hclipped : forall {k width : Nat} {text : String},
      (headerFields a)[k]? = some (Field.text width (clipped width text)) ->
      (split headerWidths bytes).getD k [] = clipped width text :=
    fun hf => (htext hf).trans (padded_clipped _ _)
  have hmagic : (split headerWidths bytes).getD 0 [] = bytesOf "PS5MPKG1" :=
    (htext (k := 0) rfl).trans (padded_of_length rfl)
  have hreserved : (split headerWidths bytes).getD 21 [] = reservedBytes :=
    (htext (k := 21) rfl).trans (padded_of_length List.length_replicate)
  have huuid : (split headerWidths bytes).getD 14 [] = padded 16 a.pkgUuid :=
    htext (k := 14) rfl
  unfold decodeHeader HeaderArgs.written
  dsimp only
  rw [hmagic, hreserved, huuid, hnumber (k := 1) rfl, hnumber (k := 2) rfl, hnumber (k := 3) rfl,
    hnumber (k := 4) rfl, hnumber (k := 5) rfl, hnumber (k := 6) rfl, hnumber (k := 7) rfl,
    hnumber (k := 8) rfl, hnumber (k := 9) rfl, hclipped (k := 10) rfl, hclipped (k := 11) rfl,
    hclipped (k := 12) rfl, hclipped (k := 13) rfl, hnumber (k := 15) rfl, hnumber (k := 16) rfl,
    hclipped (k := 17) rfl, hclipped (k := 18) rfl, hnumber (k := 19) rfl, hnumber (k := 20) rfl]

/-- What has to fit for a header to be packed. -/
structure HeaderArgs.Fits (a : HeaderArgs) : Prop where
  partIndex_lt : a.partIndex < 2 ^ 32
  totalParts_lt : a.totalParts < 2 ^ 32
  chunkSize_lt : a.chunkSize < 2 ^ 32
  numChunks_lt : a.numChunks < 2 ^ 32
  partDataSize_lt : a.partDataSize < 2 ^ 64
  totalPkgSize_lt : a.totalPkgSize < 2 ^ 64
  totalArchiveSize_lt : a.totalArchiveSize < 2 ^ 64
  iconOffset_lt : a.iconOffset < 2 ^ 32
  iconSize_lt : a.iconSize < 2 ^ 32
  partOffset_lt : a.partOffset < 2 ^ 64
  dataOffset_lt : a.dataOffset < 2 ^ 32

theorem packHeader_isSome {a : HeaderArgs} (h : a.Fits) : (packHeader a).isSome = true := by
  apply pack_isSome
  have htext : forall width bytes, (Field.text width bytes).encode.isSome = true :=
    fun _ _ => rfl
  have hfour : forall {value : Nat}, value < 2 ^ 32 ->
      (Field.number 4 value).encode.isSome = true := fun hlt => number_isSome hlt
  have height : forall {value : Nat}, value < 2 ^ 64 ->
      (Field.number 8 value).encode.isSome = true := fun hlt => number_isSome hlt
  unfold headerFields
  simp only [List.forall_mem_cons, htext, hfour h.partIndex_lt, hfour h.totalParts_lt,
    hfour h.chunkSize_lt, hfour h.numChunks_lt, height h.partDataSize_lt,
    height h.totalPkgSize_lt, height h.totalArchiveSize_lt, hfour h.iconOffset_lt,
    hfour h.iconSize_lt, height h.partOffset_lt, hfour h.dataOffset_lt,
    hfour (show 1 < 2 ^ 32 by decide), hfour (show 0 < 2 ^ 32 by decide), true_and]
  intro f hf
  cases hf

theorem written_valid {a : HeaderArgs} (hindex : 1 ≤ a.partIndex)
    (hparts : a.partIndex ≤ a.totalParts) (hchunk : a.chunkSize ≤ 67108864) :
    multipartIsValidHeader a.written.view = true := by
  have hmagic : (a.written.view.magic != "PS5MPKG1") = false := by
    show (textOf (bytesOf "PS5MPKG1") != "PS5MPKG1") = false
    decide
  have hversion : (a.written.view.headerVersion != 1) = false := rfl
  have hrange : (a.written.view.totalParts == 0 || a.written.view.partIndex == 0 ||
      decide (a.written.view.partIndex > a.written.view.totalParts)) = false := by
    rw [Bool.or_eq_false_iff, Bool.or_eq_false_iff]
    exact ⟨⟨beq_false_of_ne (Nat.ne_of_gt (Nat.lt_of_lt_of_le hindex hparts)),
      beq_false_of_ne (Nat.ne_of_gt hindex)⟩, decide_eq_false (Nat.not_lt_of_le hparts)⟩
  have hcompression : (a.written.view.compressionType != 0 &&
      a.written.view.compressionType != 1) = false := rfl
  have hsize : ¬ a.written.view.chunkSize > 67108864 := Nat.not_lt_of_le hchunk
  unfold multipartIsValidHeader
  rw [hmagic, hversion, hrange, hcompression, if_neg hsize]
  rfl

end Multipart
end PkgManager

/-!
# Putting a package together

{lit}`multipart_decompress_to_pkg` with its raw slices and its chunked parts.
The part files do not change during the call, and the output is another file.
Decompression and the checksum are those of the vendored library.
-/

namespace PkgManager
namespace Multipart

open Endian

/-- What the call depends on besides its files. -/
structure ReassembleEnv where
  file : String -> Option (List UInt8)
  outOpens : Bool
  hasMemory : Bool
  /-- {lit}`*cancel_flag` at each time it is looked at -/
  cancelled : Nat -> Bool
  /-- whether each {lit}`fwrite` writes everything -/
  writes : Nat -> Bool
  mzUncompress : Nat -> List UInt8 -> Option (List UInt8)
  mzCrc32 : List UInt8 -> Nat

/-- What the call has done to the output file. -/
inductive OutFile where
  | untouched
  | removed
  | written (bytes : List UInt8)
deriving DecidableEq

/-- What was written so far, and how often the flag was looked at. -/
structure OutState where
  bytes : List UInt8
  polls : Nat
  writes : Nat

/-- {lit}`multipart_chunk_header_t` -/
structure ChunkHeader where
  uncompressedSize : Nat
  compressedSize : Nat
  chunkCrc32 : Nat

def chunkHeaderSize : Nat := 12

def decodeChunkHeader (bytes : List UInt8) : ChunkHeader where
  uncompressedSize := ofLittleEndian (bytes.take 4)
  compressedSize := ofLittleEndian ((bytes.drop 4).take 4)
  chunkCrc32 := ofLittleEndian ((bytes.drop 8).take 4)

/-- The buffer of raw slices, and the default chunk size. -/
def rawBufCap : Nat := 2097152

section Reassemble

variable (env : ReassembleEnv)

def multipartReadPacked (path : String) : Option PackedHeader :=
  if hasPrefix "smb://" path || pkgParserIsHttpPath path then none
  else
    match env.file (localPath path) with
    | none => none
    | some bytes =>
        match freadHeader bytes with
        | none => none
        | some hdr => if multipartIsValidHeader hdr.view then some hdr else none

/-- The headers of the parts behind the first: the sum of the slices, or the
error. -/
def verifyParts (packageUuid : List UInt8) (numParts : Nat) :
    List String -> Nat -> Nat -> Except Int Nat
  | [], _, sum => Except.ok sum
  | path :: rest, i, sum =>
      match multipartReadPacked env path with
      | none => Except.error (-4)
      | some hdr =>
          if hdr.partIndex != i + 1 || hdr.totalParts != numParts then Except.error (-5)
          else if hdr.packageUuid != packageUuid then Except.error (-6)
          else verifyParts packageUuid numParts rest (i + 1) (u64 (sum + hdr.partDataSize))

/-- The loop over a raw slice; there is one byte at least in every turn. -/
def copyRaw (cap : Nat) : Nat -> List UInt8 -> Nat -> OutState -> Except Int OutState
  | 0, _, _, out => Except.ok out
  | fuel + 1, data, bytesLeft, out =>
      let chunk := data.take (min bytesLeft cap)
      if bytesLeft = 0 then Except.ok out
      else if env.cancelled out.polls then Except.error (-99)
      else if chunk = [] then Except.error (-13)
      else if !env.writes out.writes then Except.error (-14)
      else
        copyRaw cap fuel (data.drop chunk.length) (bytesLeft - chunk.length)
          { bytes := out.bytes ++ chunk, polls := out.polls + 1, writes := out.writes + 1 }

/-- The bytes of one chunk.  Nothing is done with a chunk of another compression. -/
def chunkBytes (compressionType uncompCap : Nat) (chdr : ChunkHeader) (comp : List UInt8) :
    Except Int (List UInt8) :=
  if compressionType = 0 then
    if chdr.uncompressedSize ≠ chdr.compressedSize then Except.error (-12)
    else if chdr.chunkCrc32 ≠ 0 ∧ env.mzCrc32 comp ≠ chdr.chunkCrc32 then Except.error (-16)
    else Except.ok comp
  else if compressionType = 1 then
    match env.mzUncompress uncompCap comp with
    | none => Except.error (-15)
    | some bytes =>
        if bytes.length ≠ chdr.uncompressedSize then Except.error (-15)
        else if chdr.chunkCrc32 ≠ 0 ∧ env.mzCrc32 bytes ≠ chdr.chunkCrc32 then Except.error (-16)
        else Except.ok bytes
  else Except.ok []

/-- The loop over the chunks of a part. -/
def copyChunks (compressionType uncompCap compCap : Nat) :
    Nat -> List UInt8 -> OutState -> Except Int OutState
  | 0, _, out => Except.ok out
  | chunks + 1, data, out =>
      if env.cancelled out.polls then Except.error (-99)
      else if data.length < chunkHeaderSize then Except.error (-11)
      else
        let chdr := decodeChunkHeader (data.take chunkHeaderSize)
        let comp := (data.drop chunkHeaderSize).take chdr.compressedSize
        if chdr.compressedSize > compCap ∨ chdr.uncompressedSize > uncompCap then
          Except.error (-12)
        else if comp.length ≠ chdr.compressedSize then Except.error (-13)
        else
          match chunkBytes env compressionType uncompCap chdr comp with
          | Except.error e => Except.error e
          | Except.ok bytes =>
              let rest := data.drop (chunkHeaderSize + chdr.compressedSize)
              if compressionType > 1 then
                copyChunks compressionType uncompCap compCap chunks rest
                  { out with polls := out.polls + 1 }
              else if !env.writes out.writes then
                Except.error (if compressionType = 0 then -14 else -17)
              else
                copyChunks compressionType uncompCap compCap chunks rest
                  { bytes := out.bytes ++ bytes, polls := out.polls + 1,
                    writes := out.writes + 1 }

/-- Where the payload starts.  There is none when an icon is too big. -/
def payloadOffset (hdr : PackedHeader) : Option Nat :=
  if hdr.dataOffset = 0 then
    if hdr.iconSize > 0 ∧ hdr.iconOffset = multipartHeaderSize then
      if hdr.iconSize >= 10485760 then none else some (multipartHeaderSize + hdr.iconSize)
    else some multipartHeaderSize
  else some hdr.dataOffset

def processPart (uncompCap compCap : Nat) (path : String) (out : OutState) :
    Except Int OutState :=
  if env.cancelled out.polls then Except.error (-99)
  else
    let out := { out with polls := out.polls + 1 }
    match env.file path with
    | none => Except.error (-9)
    | some bytes =>
        match freadHeader bytes with
        | none => Except.error (-10)
        | some hdr =>
            match payloadOffset hdr with
            | none => Except.error (-10)
            | some start =>
                if hdr.numChunksInPart = 0 ∧ hdr.compressionType = 0 then
                  copyRaw env uncompCap hdr.partDataSize (bytes.drop start) hdr.partDataSize out
                else
                  copyChunks env hdr.compressionType uncompCap compCap hdr.numChunksInPart
                    (bytes.drop start) out

def processParts (uncompCap compCap : Nat) : List String -> OutState -> Except Int OutState
  | [], out => Except.ok out
  | path :: rest, out =>
      match processPart env uncompCap compCap path out with
      | Except.error e => Except.error e
      | Except.ok out => processParts uncompCap compCap rest out

def headerChunkSize (hdr : PackedHeader) : Nat :=
  if hdr.chunkSize = 0 then rawBufCap else hdr.chunkSize

def needChunked (hdr : PackedHeader) : Bool :=
  hdr.numChunksInPart != 0 || hdr.compressionType != 0

def uncompBufCap (hdr : PackedHeader) : Nat :=
  if needChunked hdr then headerChunkSize hdr + 65536 else rawBufCap

def compBufCap (hdr : PackedHeader) : Nat :=
  if needChunked hdr then headerChunkSize hdr * 2 + 65536 else rawBufCap

/-- The call from the opening of the output file on. -/
def assemble (paths : List String) (hdr : PackedHeader) : Int × OutFile :=
  if !env.outOpens then (-7, OutFile.untouched)
  else if needChunked hdr && decide (headerChunkSize hdr > 8388608) then (-8, OutFile.removed)
  else if !env.hasMemory then (-8, OutFile.removed)
  else
    match processParts env (uncompBufCap hdr) (compBufCap hdr) paths
        { bytes := [], polls := 0, writes := 0 } with
    | Except.error e => (e, OutFile.removed)
    | Except.ok out =>
        if hdr.totalPkgSize > 0 ∧ u64 out.bytes.length ≠ hdr.totalPkgSize then
          (-18, OutFile.removed)
        else (0, OutFile.written out.bytes)

def multipartDecompressToPkg (paths : List String) : Int × OutFile :=
  match paths with
  | [] => (-1, OutFile.untouched)
  | first :: rest =>
      match multipartReadPacked env first with
      | none => (-2, OutFile.untouched)
      | some hdr =>
          if hdr.totalParts ≠ paths.length then (-3, OutFile.untouched)
          else
            match verifyParts env hdr.packageUuid paths.length rest 1 hdr.partDataSize with
            | Except.error e => (e, OutFile.untouched)
            | Except.ok partsSum =>
                if hdr.totalPkgSize > 0 ∧ partsSum ≠ 0 ∧ partsSum ≠ hdr.totalPkgSize then
                  (-18, OutFile.untouched)
                else assemble env paths hdr

end Reassemble

end Multipart
end PkgManager
