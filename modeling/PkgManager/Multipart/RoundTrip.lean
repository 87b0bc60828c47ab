import Mathlib.Data.List.Forall2
import PkgManager.Multipart.Layout
import PkgManager.Multipart.Split

/-!
# Splitting and putting together

The part files that the splitter writes are accepted by the console, and what it
writes from them is the package.
-/

namespace PkgManager
namespace Multipart

/-- The system does what it is asked for, and nobody cancels. -/
structure Works (env : ReassembleEnv) : Prop where
  opens : env.outOpens = true
  memory : env.hasMemory = true
  not_cancelled : forall k, env.cancelled k = false
  writes : forall k, env.writes k = true

/-- The path names the part file, and has no scheme in front. -/
structure Holds (env : ReassembleEnv) (path : String) (part : String × List UInt8) : Prop where
  file_eq : env.file path = some part.2
  not_smb : hasPrefix "smb://" path = false
  not_http : pkgParserIsHttpPath path = false
  not_file : hasPrefix "file://" path = false

section RoundTrip

variable {info : PkgMetadata} {filename : String} {pkgUuid : List UInt8}
variable {totalParts total totalArchive : Nat} {env : ReassembleEnv}

/-!
# A part file
-/

theorem writeHeader_file {p : SplitPart} {file front slice : List UInt8}
    (h : writeHeader info filename pkgUuid totalParts total totalArchive p = some file)
    (hcontent : p.content = front ++ slice) (hfront : multipartHeaderSize ≤ front.length) :
    freadHeader file =
        some (headerArgs info filename pkgUuid totalParts total totalArchive p).written ∧
      file.drop front.length = slice := by
  rcases Option.map_eq_some_iff.mp h with ⟨hdr, hpack, hfile⟩
  have hlen := length_packHeader hpack
  have hrest : p.content.drop hdr.length = front.drop hdr.length ++ slice := by
    rw [hcontent, List.drop_append_of_le_length (hlen ▸ hfront)]
  have hbytes : file = hdr ++ (front.drop hdr.length ++ slice) := by
    rw [← hfile, hrest]
  constructor
  · have hlong : ¬ file.length < multipartHeaderSize := by
      rw [hbytes, List.length_append, hlen]
      exact Nat.not_lt_of_le (Nat.le_add_right _ _)
    have htake : file.take multipartHeaderSize = hdr := by
      rw [hbytes]
      exact List.take_left' hlen
    unfold freadHeader
    rw [if_neg hlong, htake, decodeHeader_packHeader hpack]
  · have hjoin : hdr ++ (front.drop hdr.length ++ slice) = (hdr ++ front.drop hdr.length) ++ slice :=
      (List.append_assoc _ _ _).symm
    rw [hbytes, hjoin]
    apply List.drop_left'
    rw [List.length_append, List.length_drop, hlen]
    omega

theorem multipartReadPacked_part {p : SplitPart} {path : String} {part : String × List UInt8}
    (hholds : Holds env path part)
    (hread : freadHeader part.2 =
      some (headerArgs info filename pkgUuid totalParts total totalArchive p).written)
    (hindex : 1 ≤ p.index) (hparts : p.index ≤ totalParts) :
    multipartReadPacked env path =
      some (headerArgs info filename pkgUuid totalParts total totalArchive p).written := by
  have hlocal : localPath path = path := by
    unfold localPath
    rw [if_neg (by rw [hholds.not_file]; exact Bool.false_ne_true)]
  have hchunk : (headerArgs info filename pkgUuid totalParts total totalArchive p).chunkSize ≤
      67108864 := by
    show ioBufferSize ≤ 67108864
    decide
  have hvalid := written_valid
    (a := headerArgs info filename pkgUuid totalParts total totalArchive p) hindex hparts hchunk
  unfold multipartReadPacked
  rw [hholds.not_smb, hholds.not_http, hlocal, hholds.file_eq]
  dsimp only
  rw [hread]
  dsimp only
  rw [if_neg (by simp), if_pos hvalid]

/-!
# Copying
-/

theorem copyRaw_ok (hworks : Works env) {cap fuel left : Nat} (hcap : 0 < cap)
    (data : List UInt8) (out : OutState) (hfuel : left ≤ fuel) (hdata : left ≤ data.length) :
    exists out', copyRaw env cap fuel data left out = Except.ok out' ∧
      out'.bytes = out.bytes ++ data.take left := by
  induction fuel generalizing data left out with
  | zero =>
      have hzero : left = 0 := Nat.le_zero.mp hfuel
      rw [hzero]
      exact ⟨out, rfl, (List.append_nil _).symm⟩
  | succ fuel ih =>
      rw [copyRaw]
      by_cases hleft : left = 0
      · rw [if_pos hleft, hleft]
        exact ⟨out, rfl, (List.append_nil _).symm⟩
      · have hlen : (data.take (min left cap)).length = min left cap := by
          rw [List.length_take]
          omega
        have hsome : data.take (min left cap) ≠ [] := by
          intro hnil
          rw [hnil, List.length_nil] at hlen
          omega
        rw [if_neg hleft, if_neg (by rw [hworks.not_cancelled]; exact Bool.false_ne_true),
          if_neg hsome, if_neg (by rw [hworks.writes]; exact Bool.false_ne_true), hlen]
        have hrest : left - min left cap ≤ (data.drop (min left cap)).length := by
          rw [List.length_drop]
          omega
        rcases ih (data.drop (min left cap))
            ⟨out.bytes ++ data.take (min left cap), out.polls + 1, out.writes + 1⟩ (by omega) hrest with
          ⟨out', hcopy, hbytes⟩
        refine ⟨out', hcopy, ?_⟩
        have hsplit : min left cap + (left - min left cap) = left := by omega
        rw [hbytes, List.append_assoc, ← List.take_add, hsplit]

theorem processPart_ok (hworks : Works env) {p : SplitPart} {path : String}
    {part : String × List UInt8} {front slice : List UInt8} (compCap : Nat) (out : OutState)
    (hholds : Holds env path part)
    (hfile : writeHeader info filename pkgUuid totalParts total totalArchive p = some part.2)
    (hcontent : p.content = front ++ slice) (hsize : p.partDataSize = slice.length)
    (hoffset : p.dataOffset = front.length) (hfront : multipartHeaderSize ≤ front.length) :
    exists out', processPart env rawBufCap compCap path out = Except.ok out' ∧
      out'.bytes = out.bytes ++ slice := by
  rcases writeHeader_file hfile hcontent hfront with ⟨hread, hslice⟩
  have hstart : payloadOffset
      (headerArgs info filename pkgUuid totalParts total totalArchive p).written =
        some front.length := by
    have hpos : 0 < multipartHeaderSize := by decide
    unfold payloadOffset
    show (if p.dataOffset = 0 then _ else some p.dataOffset) = some front.length
    rw [hoffset, if_neg (by omega)]
  have hcap : 0 < rawBufCap := by decide
  rcases copyRaw_ok hworks hcap slice { out with polls := out.polls + 1 }
      (Nat.le_refl slice.length) (Nat.le_refl slice.length) with ⟨out', hcopy, hbytes⟩
  refine ⟨out', ?_, ?_⟩
  · unfold processPart
    rw [hworks.not_cancelled, hholds.file_eq]
    dsimp only
    rw [hread]
    dsimp only
    rw [hstart]
    dsimp only
    rw [hslice]
    have hraw : (headerArgs info filename pkgUuid totalParts total totalArchive
        p).written.numChunksInPart = 0 ∧ (headerArgs info filename pkgUuid totalParts total
        totalArchive p).written.compressionType = 0 := ⟨rfl, rfl⟩
    have hleft : (headerArgs info filename pkgUuid totalParts total totalArchive
        p).written.partDataSize = slice.length := hsize
    rw [if_neg Bool.false_ne_true, if_pos hraw, hleft]
    exact hcopy
  · rw [hbytes, List.take_length]

/-!
# All parts
-/

theorem writeHeaders_cons {p : SplitPart} {rest : List SplitPart}
    {files : List (String × List UInt8)}
    (h : writeHeaders info filename pkgUuid totalParts total totalArchive (p :: rest) = some files) :
    exists file more, files = (p.name, file) :: more ∧
      writeHeader info filename pkgUuid totalParts total totalArchive p = some file ∧
      writeHeaders info filename pkgUuid totalParts total totalArchive rest = some more := by
  rw [writeHeaders] at h
  cases hfile : writeHeader info filename pkgUuid totalParts total totalArchive p with
  | none =>
      rw [hfile] at h
      cases h
  | some file =>
      rw [hfile] at h
      rcases Option.map_eq_some_iff.mp h with ⟨more, hmore, hfiles⟩
      exact ⟨file, more, hfiles.symm, rfl, hmore⟩

theorem processParts_ok (hworks : Works env) (compCap : Nat) {k offset : Nat} {parts : List SplitPart}
    {data : List UInt8} (hsplit : IsSplit k offset parts data)
    {files : List (String × List UInt8)} {paths : List String}
    (hfiles : writeHeaders info filename pkgUuid totalParts total totalArchive parts = some files)
    (hholds : List.Forall₂ (Holds env) paths files) (out : OutState) :
    exists out', processParts env rawBufCap compCap paths out = Except.ok out' ∧
      out'.bytes = out.bytes ++ data := by
  induction hsplit generalizing files paths out with
  | nil =>
      cases hfiles
      cases hholds
      exact ⟨out, rfl, (List.append_nil _).symm⟩
  | @cons k offset p rest front slice data hindex hplace hsize hcontent hoffset hfront _ ih =>
      rcases writeHeaders_cons hfiles with ⟨file, more, hcons, hfile, hmore⟩
      rw [hcons] at hholds
      cases hholds with
      | @cons path _ paths _ hone hall =>
          rcases processPart_ok hworks compCap out hone hfile hcontent hsize hoffset
              hfront with ⟨mid, hmid, hmidBytes⟩
          rcases ih hmore hall mid with ⟨out', hout, hbytes⟩
          refine ⟨out', ?_, ?_⟩
          · rw [processParts, hmid]
            exact hout
          · rw [hbytes, hmidBytes, List.append_assoc]

theorem verifyParts_ok {k offset : Nat} {parts : List SplitPart} {data : List UInt8}
    (hsplit : IsSplit (k + 1) offset parts data) {files : List (String × List UInt8)}
    {paths : List String}
    (hfiles : writeHeaders info filename pkgUuid totalParts total totalArchive parts = some files)
    (hholds : List.Forall₂ (Holds env) paths files) (hcount : k + parts.length ≤ totalParts)
    {sum : Nat} (hsum : sum + data.length < 2 ^ 64) :
    verifyParts env (Struct.padded 16 pkgUuid) totalParts paths k sum =
      Except.ok (sum + data.length) := by
  generalize hk : k + 1 = index at hsplit
  induction hsplit generalizing k files paths sum with
  | nil =>
      cases hfiles
      cases hholds
      rfl
  | @cons _ offset p rest front slice data hindex hplace hsize hcontent hoffset hfront hrest ih =>
      rcases writeHeaders_cons hfiles with ⟨file, more, hcons, hfile, hmore⟩
      rw [hcons] at hholds
      cases hholds with
      | @cons path _ paths _ hone hall =>
          rw [List.length_cons] at hcount
          rw [List.length_append] at hsum
          have hpart : p.index = k + 1 := hindex.trans hk.symm
          have hread := (writeHeader_file hfile hcontent hfront).1
          have hheader := multipartReadPacked_part hone hread (by omega) (by omega)
          have hindexOk : ((headerArgs info filename pkgUuid totalParts total totalArchive
              p).written.partIndex != k + 1 || (headerArgs info filename pkgUuid totalParts total
              totalArchive p).written.totalParts != totalParts) = false := by
            show (p.index != k + 1 || totalParts != totalParts) = false
            rw [hpart, bne_self_eq_false, bne_self_eq_false]
            rfl
          have huuid : ((headerArgs info filename pkgUuid totalParts total totalArchive
              p).written.packageUuid != Struct.padded 16 pkgUuid) = false := bne_self_eq_false _
          have hadd : u64 (sum + (headerArgs info filename pkgUuid totalParts total totalArchive
              p).written.partDataSize) = sum + slice.length := by
            show u64 (sum + p.partDataSize) = _
            rw [hsize]
            exact u64_of_lt (by omega)
          rw [verifyParts, hheader]
          dsimp only
          rw [hindexOk, huuid, hadd, if_neg Bool.false_ne_true, if_neg Bool.false_ne_true,
            ih hmore hall (by omega) (by omega) (congrArg (· + 1) hk), List.length_append,
            Nat.add_assoc]

theorem packHeader_total {a : HeaderArgs} {bytes : List UInt8} (h : packHeader a = some bytes) :
    a.totalPkgSize < 2 ^ 64 :=
  (Struct.number_split (k := 8) h [] rfl).2

theorem length_writeHeaders {parts : List SplitPart} {files : List (String × List UInt8)}
    (h : writeHeaders info filename pkgUuid totalParts total totalArchive parts = some files) :
    files.length = parts.length := by
  induction parts generalizing files with
  | nil =>
      cases h
      rfl
  | cons p rest ih =>
      rcases writeHeaders_cons h with ⟨file, more, hcons, _, hmore⟩
      rw [hcons, List.length_cons, List.length_cons, ih hmore]

/-- With a raw first part and slices of the announced size the output is written
and kept. -/
theorem assemble_ok (hworks : Works env) {paths : List String} {hdr : PackedHeader}
    (hchunks : hdr.numChunksInPart = 0) (hraw : hdr.compressionType = 0) {out : OutState}
    (hprocess : processParts env rawBufCap rawBufCap paths ⟨[], 0, 0⟩ = Except.ok out)
    (hsize : out.bytes.length = hdr.totalPkgSize) (htotal : hdr.totalPkgSize < 2 ^ 64) :
    assemble env paths hdr = (0, OutFile.written out.bytes) := by
  have hneed : needChunked hdr = false := by
    unfold needChunked
    rw [hchunks, hraw]
    rfl
  have huncomp : uncompBufCap hdr = rawBufCap := by
    unfold uncompBufCap
    rw [hneed, if_neg Bool.false_ne_true]
  have hcomp : compBufCap hdr = rawBufCap := by
    unfold compBufCap
    rw [hneed, if_neg Bool.false_ne_true]
  unfold assemble
  rw [hworks.opens, hworks.memory, hneed, huncomp, hcomp, hprocess]
  dsimp only
  have hsame : ¬ (hdr.totalPkgSize > 0 ∧ hdr.totalPkgSize ≠ hdr.totalPkgSize) := fun h => h.2 rfl
  rw [Bool.false_and, hsize, u64_of_lt htotal, if_neg hsame]
  rfl

/-- Part files of a split give the package back. -/
theorem multipartDecompressToPkg_of_split (hworks : Works env) {parts : List SplitPart}
    {pkg : List UInt8} (hsplit : IsSplit 1 0 parts pkg) (hsome : parts ≠ [])
    {files : List (String × List UInt8)} {paths : List String}
    (hfiles : writeHeaders info filename pkgUuid parts.length pkg.length totalArchive parts =
      some files)
    (hholds : List.Forall₂ (Holds env) paths files) :
    multipartDecompressToPkg env paths = (0, OutFile.written pkg) := by
  rcases processParts_ok hworks rawBufCap hsplit hfiles hholds ⟨[], 0, 0⟩ with
    ⟨out, hprocess, hbytes⟩
  rw [List.nil_append] at hbytes
  have hpaths : paths.length = parts.length :=
    hholds.length_eq.trans (length_writeHeaders hfiles)
  cases hsplit with
  | nil => exact absurd rfl hsome
  | @cons _ _ p rest front slice data hindex hplace hsize hcontent hoffset hfront hrest =>
      rcases writeHeaders_cons hfiles with ⟨file, more, hcons, hfile, hmore⟩
      rw [hcons] at hholds
      cases hholds with
      | @cons path _ paths _ hone hall =>
          have htotal : (slice ++ data).length < 2 ^ 64 := by
            rcases Option.map_eq_some_iff.mp hfile with ⟨hdr, hpack, _⟩
            exact packHeader_total hpack
          have hread := (writeHeader_file hfile hcontent hfront).1
          have hheader := multipartReadPacked_part hone hread (by omega)
            (by rw [hindex, List.length_cons]; omega)
          generalize hwritten : (headerArgs info filename pkgUuid (p :: rest).length
            (slice ++ data).length totalArchive p).written = hdr at hheader
          have hparts : hdr.totalParts = (p :: rest).length := by
            rw [← hwritten]
            rfl
          have huuid : hdr.packageUuid = Struct.padded 16 pkgUuid := by
            rw [← hwritten]
            rfl
          have hfirst : hdr.partDataSize = slice.length := by
            rw [← hwritten]
            exact hsize
          have hpkg : hdr.totalPkgSize = (slice ++ data).length := by
            rw [← hwritten]
            rfl
          have hverify : verifyParts env hdr.packageUuid (path :: paths).length paths 1
              hdr.partDataSize = Except.ok (slice ++ data).length := by
            rw [huuid, hpaths, hfirst, List.length_append]
            exact verifyParts_ok hrest hmore hall (by rw [List.length_cons]; omega)
              (by rw [List.length_append] at htotal; exact htotal)
          unfold multipartDecompressToPkg
          dsimp only
          rw [hheader]
          dsimp only
          rw [hverify, if_neg (by rw [hparts, hpaths]; exact not_not_intro rfl)]
          dsimp only
          rw [if_neg (by rw [hpkg]; exact fun h => h.2.2 rfl), ← hbytes]
          apply assemble_ok hworks
          · rw [← hwritten]
            rfl
          · rw [← hwritten]
            rfl
          · exact hprocess
          · rw [hpkg, hbytes]
          · rw [hpkg]
            exact htotal

theorem headerArgs_fits {parts : List SplitPart} {pkg : List UInt8}
    (hsplit : IsSplit 1 0 parts pkg) (hsmall : forall p, p ∈ parts -> SmallPart p)
    (hparts : parts.length < 2 ^ 32) (hpkg : pkg.length < 2 ^ 63) {p : SplitPart}
    (hp : p ∈ parts) :
    (headerArgs info filename pkgUuid parts.length pkg.length
      ((parts.map (fun p => p.content.length)).sum) p).Fits := by
  have hbounds := isSplit_bounds hsplit hp
  have hone := hsmall p hp
  have hdata := hone.dataOffset_le
  have hicon := hone.iconOffset_le
  have hsize := hone.iconSize_le
  have harchive := isSplit_archive hsplit hsmall
  constructor
  · show p.index < 2 ^ 32
    omega
  · exact hparts
  · show ioBufferSize < 2 ^ 32
    decide
  · show 0 < 2 ^ 32
    decide
  · show p.partDataSize < 2 ^ 64
    omega
  · show pkg.length < 2 ^ 64
    omega
  · show (parts.map (fun p => p.content.length)).sum < 2 ^ 64
    omega
  · show p.iconOffset < 2 ^ 32
    omega
  · show p.iconSize < 2 ^ 32
    omega
  · show p.partOffset < 2 ^ 64
    omega
  · show p.dataOffset < 2 ^ 32
    omega

theorem writeHeaders_isSome {parts : List SplitPart}
    (h : forall p, p ∈ parts ->
      (headerArgs info filename pkgUuid totalParts total totalArchive p).Fits) :
    (writeHeaders info filename pkgUuid totalParts total totalArchive parts).isSome = true := by
  induction parts with
  | nil => rfl
  | cons p rest ih =>
      have hone := packHeader_isSome (h p List.mem_cons_self)
      have hrest := ih (fun q hq => h q (List.mem_cons_of_mem p hq))
      rw [writeHeaders]
      cases hfile : writeHeader info filename pkgUuid totalParts total totalArchive p with
      | none =>
          unfold writeHeader at hfile
          rw [Option.map_eq_none_iff.mp hfile] at hone
          cases hone
      | some file =>
          dsimp only
          rw [Option.isSome_map]
          exact hrest

end RoundTrip

/-!
# The round trip
-/

theorem splitPkg_isSplit (info : PkgMetadata) (filename : String) (pkg : List UInt8)
    (partSize : Nat) :
    IsSplit 1 0 (splitParts info filename partSize pkg.length (pkg.length + 1) pkg 0 1) pkg :=
  splitParts_isSplit (Nat.lt_succ_self _) (Nat.zero_add _) (Or.inr rfl)

/-- What the splitter writes is put together to the package.  The splitter writes
its files when their number and the sizes fit the header, and the console reads
every header that was packed as it was written. -/
theorem multipartDecompressToPkg_splitPkg (info : PkgMetadata) (filename : String)
    (pkgUuid pkg : List UInt8) (partSize : Nat) :
    (forall files env paths, splitPkg info filename pkgUuid pkg partSize = some files ->
      Works env -> List.Forall₂ (Holds env) paths files ->
        multipartDecompressToPkg env paths = (0, OutFile.written pkg)) ∧
    ((splitParts info filename partSize pkg.length (pkg.length + 1) pkg 0 1).length < 2 ^ 32 ->
      pkg.length < 2 ^ 63 -> (splitPkg info filename pkgUuid pkg partSize).isSome = true) ∧
    (forall a bytes, packHeader a = some bytes ->
      bytes.length = multipartHeaderSize ∧ decodeHeader bytes = a.written) := by
  have hsplit := splitPkg_isSplit info filename pkg partSize
  refine ⟨?_, ?_, ?_⟩
  · intro files env paths hfiles hworks hholds
    have hsome : splitParts info filename partSize pkg.length (pkg.length + 1) pkg 0 1 ≠ [] := by
      rw [splitParts, if_neg (not_not_intro (Or.inr rfl))]
      exact List.cons_ne_nil _ _
    exact multipartDecompressToPkg_of_split hworks hsplit hsome hfiles hholds
  · intro hparts hpkg
    apply writeHeaders_isSome
    intro p hp
    exact headerArgs_fits hsplit (fun p hp => splitParts_small hp) hparts hpkg hp
  · intro a bytes hpack
    exact ⟨length_packHeader hpack, decodeHeader_packHeader hpack⟩

/-- A package with an icon of one byte, cut into parts of at most 4099 bytes. -/
def iconInfo : PkgMetadata where
  titleId := "PPSA00001"
  titleName := "Game"
  contentId := ""
  appVersion := ""
  pkgType := "base"
  iconData := [9]
  icon_lt := by decide

def iconParts : List (String × List UInt8) :=
  (splitPkg iconInfo "game.pkg" (List.replicate 16 7) [1, 2, 3, 4, 5] 4099).getD []

/-- A system that has these files. -/
def filesEnv (files : List (String × List UInt8)) : ReassembleEnv where
  file path := files.lookup path
  outOpens := true
  hasMemory := true
  cancelled _ := false
  writes _ := true
  mzUncompress _ _ := none
  mzCrc32 _ := 0

theorem filesEnv_file (files : List (String × List UInt8)) (path : String) :
    (filesEnv files).file path = files.lookup path := by
  rfl

theorem iconParts_split :
    splitPkg iconInfo "game.pkg" (List.replicate 16 7) [1, 2, 3, 4, 5] 4099 = some iconParts := by
  have hsome : (splitPkg iconInfo "game.pkg" (List.replicate 16 7) [1, 2, 3, 4, 5] 4099).isSome =
      true := by decide +kernel
  rcases Option.isSome_iff_exists.mp hsome with ⟨files, hfiles⟩
  unfold iconParts
  rw [hfiles]
  rfl

theorem iconParts_names :
    exists first second,
      iconParts = [("game.pkg.part1", first), ("game.pkg.part2", second)] := by
  have hnames : iconParts.map Prod.fst = ["game.pkg.part1", "game.pkg.part2"] := by decide +kernel
  rcases List.map_eq_cons_iff.mp hnames with ⟨a, more, hparts, ha, hmore⟩
  rcases List.map_eq_cons_iff.mp hmore with ⟨b, rest, hrest, hb, hnil⟩
  rw [List.map_eq_nil_iff.mp hnil] at hrest
  exact ⟨a.2, b.2, by rw [hparts, hrest, ← ha, ← hb]⟩

/-- Two parts: the first has the icon and two bytes of the package. -/
theorem multipartDecompressToPkg_splitPkg_icon :
    multipartDecompressToPkg (filesEnv iconParts) ["game.pkg.part1", "game.pkg.part2"] =
      (0, OutFile.written [1, 2, 3, 4, 5]) := by
  rcases iconParts_names with ⟨first, second, hparts⟩
  have hworks : Works (filesEnv iconParts) := ⟨rfl, rfl, fun _ => rfl, fun _ => rfl⟩
  have hfirst : Holds (filesEnv iconParts) "game.pkg.part1" ("game.pkg.part1", first) := by
    refine ⟨?_, by decide, by decide, by decide⟩
    rw [filesEnv_file, hparts]
    exact List.lookup_cons_self
  have hsecond : Holds (filesEnv iconParts) "game.pkg.part2" ("game.pkg.part2", second) := by
    refine ⟨?_, by decide, by decide, by decide⟩
    have hother : ("game.pkg.part2" == "game.pkg.part1") = false := by decide
    rw [filesEnv_file, hparts, List.lookup_cons, hother]
    exact List.lookup_cons_self
  have hholds : List.Forall₂ (Holds (filesEnv iconParts))
      ["game.pkg.part1", "game.pkg.part2"]
      [("game.pkg.part1", first), ("game.pkg.part2", second)] :=
    List.Forall₂.cons hfirst (List.Forall₂.cons hsecond List.Forall₂.nil)
  exact (multipartDecompressToPkg_splitPkg iconInfo "game.pkg" (List.replicate 16 7)
    [1, 2, 3, 4, 5] 4099).1 _ _ _ (iconParts_split.trans (congrArg some hparts)) hworks hholds

end Multipart
end PkgManager
