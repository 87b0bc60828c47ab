import PkgManager.Bytes.Joined
import PkgManager.Bytes.Callback
import PkgManager.Multipart.RoundTrip

/-!
# What a part file holds

The slice of a part file lies in it as it is, or in chunks that are stored or deflated.
The copying loops write the slice, and they write it whenever the chunks fit the buffers.
-/

namespace PkgManager
namespace Multipart

open Outcomes
open Pieces

/-- The library inflates what fits the buffer; its lengths are those of 32 bits. -/
def Inflates (mzUncompress : Nat -> List UInt8 -> Option (List UInt8))
    (inflate : List UInt8 -> Option (List UInt8)) : Prop :=
  forall cap comp, cap < 2 ^ 32 -> comp.length < 2 ^ 32 ->
    mzUncompress cap comp = (inflate comp).filter (fun bytes => decide (bytes.length ≤ cap))

section
variable (inflate : List UInt8 -> Option (List UInt8)) (mzCrc32 : List UInt8 -> Nat)

/-- The checksum of a chunk is right, if it has one. -/
def CrcFits (chdr : ChunkHeader) (bytes : List UInt8) : Prop :=
  chdr.chunkCrc32 = 0 ∨ mzCrc32 bytes = chdr.chunkCrc32

inductive ChunkHolds (compressionType : Nat) (chdr : ChunkHeader) (comp : List UInt8) :
    List UInt8 -> Prop
  | stored (htype : compressionType = 0) (hsize : chdr.uncompressedSize = chdr.compressedSize)
      (hcrc : CrcFits mzCrc32 chdr comp) : ChunkHolds compressionType chdr comp comp
  | deflated {bytes : List UInt8} (htype : compressionType = 1) (hbytes : inflate comp = some bytes)
      (hsize : bytes.length = chdr.uncompressedSize) (hcrc : CrcFits mzCrc32 chdr bytes) :
      ChunkHolds compressionType chdr comp bytes
  | other (htype : 1 < compressionType) : ChunkHolds compressionType chdr comp []

def chunkHeaderOf (data : List UInt8) : ChunkHeader :=
  decodeChunkHeader (data.take chunkHeaderSize)

def compressedOf (data : List UInt8) : List UInt8 :=
  (data.drop chunkHeaderSize).take (chunkHeaderOf data).compressedSize

def chunkRest (data : List UInt8) : List UInt8 :=
  data.drop (chunkHeaderSize + (chunkHeaderOf data).compressedSize)

/-- The chunks at the start of some data, and what they hold. -/
inductive Chunks (fits : ChunkHeader -> Prop) (compressionType : Nat) :
    Nat -> List UInt8 -> List UInt8 -> Prop
  | done (data : List UInt8) : Chunks fits compressionType 0 data []
  | next {n : Nat} {data bytes slice : List UInt8} (hlong : chunkHeaderSize ≤ data.length)
      (hfits : fits (chunkHeaderOf data))
      (hcomp : (compressedOf data).length = (chunkHeaderOf data).compressedSize)
      (hholds : ChunkHolds inflate mzCrc32 compressionType (chunkHeaderOf data)
        (compressedOf data) bytes)
      (hrest : Chunks fits compressionType n (chunkRest data) slice) :
      Chunks fits compressionType (n + 1) data (bytes ++ slice)

def isRaw (hdr : PackedHeader) : Bool :=
  hdr.numChunksInPart == 0 && hdr.compressionType == 0

/-- The slice of a part file whose chunks are as asked for. -/
inductive Slice (fits : ChunkHeader -> Prop) (hdr : PackedHeader) (bytes : List UInt8) :
    List UInt8 -> Prop
  | raw {start : Nat} (hstart : payloadOffset hdr = some start) (hraw : isRaw hdr = true)
      (hlong : hdr.partDataSize ≤ (bytes.drop start).length) :
      Slice fits hdr bytes ((bytes.drop start).take hdr.partDataSize)
  | chunked {start : Nat} {slice : List UInt8} (hstart : payloadOffset hdr = some start)
      (hraw : isRaw hdr = false)
      (hchunks : Chunks inflate mzCrc32 fits hdr.compressionType hdr.numChunksInPart
        (bytes.drop start) slice) :
      Slice fits hdr bytes slice

/-!
# One slice
-/

variable {inflate : List UInt8 -> Option (List UInt8)} {mzCrc32 : List UInt8 -> Nat}
variable {fits fits' : ChunkHeader -> Prop}

theorem ChunkHolds.unique {compressionType : Nat} {chdr : ChunkHeader} {comp p q : List UInt8}
    (hp : ChunkHolds inflate mzCrc32 compressionType chdr comp p)
    (hq : ChunkHolds inflate mzCrc32 compressionType chdr comp q) : p = q := by
  cases hp with
  | stored htype =>
      cases hq with
      | stored => rfl
      | deflated hother => omega
      | other hother => omega
  | deflated htype hbytes =>
      cases hq with
      | stored hother => omega
      | deflated _ hsame => exact Option.some.inj (hbytes.symm.trans hsame)
      | other hother => omega
  | other htype =>
      cases hq with
      | stored hother => omega
      | deflated hother => omega
      | other => rfl

theorem Chunks.unique {compressionType n : Nat} {data p q : List UInt8}
    (hp : Chunks inflate mzCrc32 fits compressionType n data p)
    (hq : Chunks inflate mzCrc32 fits' compressionType n data q) : p = q := by
  induction hp generalizing q with
  | done =>
      cases hq
      rfl
  | next _ _ _ hholds _ ih =>
      cases hq with
      | next _ _ _ hother hrest => rw [hholds.unique hother, ih hrest]

theorem Chunks.mono {compressionType n : Nat} {data slice : List UInt8}
    (h : Chunks inflate mzCrc32 fits compressionType n data slice)
    (himp : forall chdr, fits chdr -> fits' chdr) :
    Chunks inflate mzCrc32 fits' compressionType n data slice := by
  induction h with
  | done data => exact Chunks.done data
  | next hlong hfits hcomp hholds _ ih =>
      exact Chunks.next hlong (himp _ hfits) hcomp hholds ih

theorem Slice.unique {hdr : PackedHeader} {bytes p q : List UInt8}
    (hp : Slice inflate mzCrc32 fits hdr bytes p) (hq : Slice inflate mzCrc32 fits' hdr bytes q) :
    p = q := by
  cases hp with
  | raw hstart hraw =>
      cases hq with
      | raw hother =>
          rw [Option.some.inj (hstart.symm.trans hother)]
      | chunked _ hchunked =>
          rw [hraw] at hchunked
          cases hchunked
  | chunked hstart hraw hchunks =>
      cases hq with
      | raw _ hother =>
          rw [hraw] at hother
          cases hother
      | chunked hother _ hsame =>
          cases Option.some.inj (hstart.symm.trans hother)
          exact hchunks.unique hsame

theorem Slice.mono {hdr : PackedHeader} {bytes slice : List UInt8}
    (h : Slice inflate mzCrc32 fits hdr bytes slice) (himp : forall chdr, fits chdr -> fits' chdr) :
    Slice inflate mzCrc32 fits' hdr bytes slice := by
  cases h with
  | raw hstart hraw hlong => exact Slice.raw hstart hraw hlong
  | chunked hstart hraw hchunks => exact Slice.chunked hstart hraw (hchunks.mono himp)

end

/-!
# The loops write the slice
-/

/-- The chunk fits the buffers. -/
def FitsBuffers (uncompCap compCap : Nat) (chdr : ChunkHeader) : Prop :=
  chdr.compressedSize ≤ compCap ∧ chdr.uncompressedSize ≤ uncompCap

/-- The bytes are written behind those that were there. -/
def Writes (out : OutState) (Q : List UInt8 -> Prop) (out' : OutState) : Prop :=
  exists slice, out'.bytes = out.bytes ++ slice ∧ Q slice

theorem Writes.append {out mid out' : OutState} {Q R : List UInt8 -> Prop} {bytes : List UInt8}
    (h : Writes mid Q out') (hmid : mid.bytes = out.bytes ++ bytes)
    (hQ : forall slice, Q slice -> R (bytes ++ slice)) : Writes out R out' := by
  rcases h with ⟨slice, hbytes, hslice⟩
  refine ⟨bytes ++ slice, ?_, hQ slice hslice⟩
  rw [hbytes, hmid, List.append_assoc]

section
variable {env : ReassembleEnv} {inflate : List UInt8 -> Option (List UInt8)}

theorem copyRaw_writes {cap fuel left : Nat} (hfuel : left ≤ fuel) (data : List UInt8)
    (out : OutState) :
    Yields (Writes out (fun slice => left ≤ data.length ∧ slice = data.take left))
      (copyRaw env cap fuel data left out) := by
  induction fuel generalizing data left out with
  | zero =>
      have hzero : left = 0 := Nat.le_zero.mp hfuel
      rw [hzero]
      exact ⟨[], (List.append_nil _).symm, Nat.zero_le _, rfl⟩
  | succ fuel ih =>
      rw [copyRaw]
      refine yields_ite (fun hleft => ?_) (fun hleft => ?_)
      · rw [hleft]
        exact ⟨[], (List.append_nil _).symm, Nat.zero_le _, rfl⟩
      refine yields_ite (fun _ => yields_error (by decide)) (fun _ => ?_)
      refine yields_ite (fun _ => yields_error (by decide)) (fun hsome => ?_)
      refine yields_ite (fun _ => yields_error (by decide)) (fun _ => ?_)
      have hpos : 0 < (data.take (min left cap)).length := List.length_pos_iff.mpr hsome
      have hlen : (data.take (min left cap)).length = min (min left cap) data.length :=
        List.length_take
      generalize hn : (data.take (min left cap)).length = n at hpos hlen
      have hchunk : data.take (min left cap) = data.take n := by
        rw [<- hn, List.length_take, List.take_eq_take_iff]
        omega
      rw [hchunk]
      refine (ih (by omega) (data.drop n) _).mono (fun out' hout => hout.append rfl ?_)
      rintro slice ⟨hlong, rfl⟩
      rw [List.length_drop] at hlong
      have hjoin : n + (left - n) = left := by omega
      refine ⟨by omega, ?_⟩
      rw [<- List.take_add, hjoin]

theorem crcFits_of_not {chdr : ChunkHeader} {bytes : List UInt8}
    (h : ¬ (chdr.chunkCrc32 ≠ 0 ∧ env.mzCrc32 bytes ≠ chdr.chunkCrc32)) :
    CrcFits env.mzCrc32 chdr bytes := by
  by_cases hzero : chdr.chunkCrc32 = 0
  · exact Or.inl hzero
  · right
    by_contra hne
    exact h ⟨hzero, hne⟩

theorem CrcFits.not_wrong {chdr : ChunkHeader} {bytes : List UInt8}
    (h : CrcFits env.mzCrc32 chdr bytes) :
    ¬ (chdr.chunkCrc32 ≠ 0 ∧ env.mzCrc32 bytes ≠ chdr.chunkCrc32) := by
  rintro ⟨hzero, hne⟩
  rcases h with hfits | hfits
  · exact hzero hfits
  · exact hne hfits

theorem uncompressed_some (hlib : Inflates env.mzUncompress inflate) {cap : Nat}
    (hcap : cap < 2 ^ 32) {comp bytes : List UInt8} (hcomp : comp.length < 2 ^ 32) :
    env.mzUncompress cap comp = some bytes ↔ inflate comp = some bytes ∧ bytes.length ≤ cap := by
  rw [hlib cap comp hcap hcomp, Option.filter_eq_some_iff, decide_eq_true_eq]

theorem chunkBytes_holds (hlib : Inflates env.mzUncompress inflate) {cap : Nat}
    (hcap : cap < 2 ^ 32) {comp : List UInt8} (hcomp : comp.length < 2 ^ 32)
    (compressionType : Nat) (chdr : ChunkHeader) :
    Yields (ChunkHolds inflate env.mzCrc32 compressionType chdr comp)
      (chunkBytes env compressionType cap chdr comp) := by
  unfold chunkBytes
  refine yields_ite (fun hstored => ?_) (fun hstored => ?_)
  · refine yields_ite (fun _ => yields_error (by decide)) (fun hsize => ?_)
    refine yields_ite (fun _ => yields_error (by decide)) (fun hcrc => ?_)
    exact ChunkHolds.stored hstored (not_not.mp hsize) (crcFits_of_not hcrc)
  refine yields_ite (fun hdeflated => ?_) (fun hdeflated => ?_)
  · cases hbytes : env.mzUncompress cap comp with
    | none => exact yields_error (by decide)
    | some bytes =>
        refine yields_ite (fun _ => yields_error (by decide)) (fun hsize => ?_)
        refine yields_ite (fun _ => yields_error (by decide)) (fun hcrc => ?_)
        have hinflate := ((uncompressed_some hlib hcap hcomp).mp hbytes).1
        exact ChunkHolds.deflated hdeflated hinflate (not_not.mp hsize) (crcFits_of_not hcrc)
  · exact ChunkHolds.other (by omega)

theorem chunkBytes_of_holds (hlib : Inflates env.mzUncompress inflate) {cap : Nat}
    (hcap : cap < 2 ^ 32) {comp bytes : List UInt8} (hcomp : comp.length < 2 ^ 32)
    {compressionType : Nat} {chdr : ChunkHeader} (hfits : chdr.uncompressedSize ≤ cap)
    (h : ChunkHolds inflate env.mzCrc32 compressionType chdr comp bytes) :
    chunkBytes env compressionType cap chdr comp = Except.ok bytes := by
  unfold chunkBytes
  cases h with
  | stored htype hsize hcrc =>
      rw [if_pos htype, if_neg (not_not.mpr hsize), if_neg hcrc.not_wrong]
  | deflated htype hbytes hsize hcrc =>
      have hlib' := (uncompressed_some hlib hcap hcomp).mpr ⟨hbytes, hsize ▸ hfits⟩
      rw [if_neg (by omega), if_pos htype, hlib']
      dsimp only
      rw [if_neg (not_not.mpr hsize), if_neg hcrc.not_wrong]
  | other htype => rw [if_neg (by omega), if_neg (by omega)]

theorem copyChunks_succ (compressionType uncompCap compCap n : Nat) (data : List UInt8)
    (out : OutState) :
    copyChunks env compressionType uncompCap compCap (n + 1) data out =
      if env.cancelled out.polls then Except.error (-99)
      else if data.length < chunkHeaderSize then Except.error (-11)
      else if (chunkHeaderOf data).compressedSize > compCap ∨
          (chunkHeaderOf data).uncompressedSize > uncompCap then Except.error (-12)
      else if (compressedOf data).length ≠ (chunkHeaderOf data).compressedSize then
        Except.error (-13)
      else
        match chunkBytes env compressionType uncompCap (chunkHeaderOf data) (compressedOf data) with
        | Except.error e => Except.error e
        | Except.ok bytes =>
            if compressionType > 1 then
              copyChunks env compressionType uncompCap compCap n (chunkRest data)
                { out with polls := out.polls + 1 }
            else if !env.writes out.writes then
              Except.error (if compressionType = 0 then -14 else -17)
            else
              copyChunks env compressionType uncompCap compCap n (chunkRest data)
                ⟨out.bytes ++ bytes, out.polls + 1, out.writes + 1⟩ := by
  rfl

section
variable (hlib : Inflates env.mzUncompress inflate) {uncompCap compCap : Nat}
variable (huncomp : uncompCap < 2 ^ 32) (hcompCap : compCap < 2 ^ 32)
include hlib huncomp hcompCap

theorem copyChunks_writes {compressionType : Nat} (n : Nat) (data : List UInt8) (out : OutState) :
    Yields (Writes out (Chunks inflate env.mzCrc32 (FitsBuffers uncompCap compCap)
        compressionType n data))
      (copyChunks env compressionType uncompCap compCap n data out) := by
  induction n generalizing data out with
  | zero => exact ⟨[], (List.append_nil _).symm, Chunks.done data⟩
  | succ n ih =>
      rw [copyChunks_succ]
      refine yields_ite (fun _ => yields_error (by decide)) (fun _ => ?_)
      refine yields_ite (fun _ => yields_error (by decide)) (fun hlong => ?_)
      refine yields_ite (fun _ => yields_error (by decide)) (fun hcaps => ?_)
      refine yields_ite (fun _ => yields_error (by decide)) (fun hcomp => ?_)
      have hfits : FitsBuffers uncompCap compCap (chunkHeaderOf data) := by
        rw [not_or, Nat.not_lt, Nat.not_lt] at hcaps
        exact hcaps
      have hfull : (compressedOf data).length = (chunkHeaderOf data).compressedSize :=
        not_not.mp hcomp
      have hshort : (compressedOf data).length < 2 ^ 32 :=
        hfull ▸ Nat.lt_of_le_of_lt hfits.1 hcompCap
      have hholds := chunkBytes_holds hlib huncomp hshort compressionType (chunkHeaderOf data)
      cases hbytes : chunkBytes env compressionType uncompCap (chunkHeaderOf data)
          (compressedOf data) with
      | error e =>
          rw [hbytes] at hholds
          exact hholds
      | ok bytes =>
          rw [hbytes] at hholds
          have hnext : forall slice, Chunks inflate env.mzCrc32 (FitsBuffers uncompCap compCap)
              compressionType n (chunkRest data) slice ->
              Chunks inflate env.mzCrc32 (FitsBuffers uncompCap compCap) compressionType (n + 1)
                data (bytes ++ slice) :=
            fun slice hrest => Chunks.next (Nat.not_lt.mp hlong) hfits hfull hholds hrest
          refine yields_ite (fun hother => ?_) (fun hother => ?_)
          · have hnone : bytes = [] := by
              cases hholds with
              | stored htype => omega
              | deflated htype => omega
              | other => rfl
            refine (ih (chunkRest data) _).mono (fun out' hout => hout.append ?_ hnext)
            rw [hnone, List.append_nil]
          · refine yields_ite (fun _ => yields_error ?_) (fun _ => ?_)
            · split <;> decide
            · exact (ih (chunkRest data) _).mono (fun out' hout => hout.append rfl hnext)

theorem copyChunks_of_chunks (hworks : Works env) {compressionType n : Nat}
    {data slice : List UInt8}
    (h : Chunks inflate env.mzCrc32 (FitsBuffers uncompCap compCap) compressionType n data slice)
    (out : OutState) :
    exists out', copyChunks env compressionType uncompCap compCap n data out = Except.ok out' ∧
      out'.bytes = out.bytes ++ slice := by
  induction h generalizing out with
  | done data => exact ⟨out, rfl, (List.append_nil _).symm⟩
  | @next n data bytes slice hlong hfits hcomp hholds _ ih =>
      have hshort : (compressedOf data).length < 2 ^ 32 :=
        hcomp ▸ Nat.lt_of_le_of_lt hfits.1 hcompCap
      have hbytes := chunkBytes_of_holds hlib huncomp hshort hfits.2 hholds
      have hcaps : ¬ ((chunkHeaderOf data).compressedSize > compCap ∨
          (chunkHeaderOf data).uncompressedSize > uncompCap) := by
        rw [not_or, Nat.not_lt, Nat.not_lt]
        exact hfits
      rw [copyChunks_succ, hworks.not_cancelled, if_neg Bool.false_ne_true,
        if_neg (Nat.not_lt.mpr hlong), if_neg hcaps, if_neg (not_not.mpr hcomp), hbytes]
      dsimp only
      by_cases hother : compressionType > 1
      · have hnone : bytes = [] := by
          cases hholds with
          | stored htype => omega
          | deflated htype => omega
          | other => rfl
        rw [if_pos hother, hnone]
        exact ih _
      · rw [if_neg hother, hworks.writes]
        rcases ih ⟨out.bytes ++ bytes, out.polls + 1, out.writes + 1⟩ with ⟨out', hcopy, hout⟩
        refine ⟨out', hcopy, ?_⟩
        rw [hout, List.append_assoc]

end

end

/-!
# The parts
-/

theorem isRaw_iff {hdr : PackedHeader} :
    isRaw hdr = true ↔ hdr.numChunksInPart = 0 ∧ hdr.compressionType = 0 := by
  unfold isRaw
  rw [Bool.and_eq_true, beq_iff_eq, beq_iff_eq]

section
variable (inflate : List UInt8 -> Option (List UInt8)) (env : ReassembleEnv)

/-- The slice of the part file that is stored under a name. -/
def Payload (fits : ChunkHeader -> Prop) (name : String) (slice : List UInt8) : Prop :=
  exists bytes hdr, env.file name = some bytes ∧ freadHeader bytes = some hdr ∧
    Slice inflate env.mzCrc32 fits hdr bytes slice

variable {inflate : List UInt8 -> Option (List UInt8)} {env : ReassembleEnv}

theorem Payload.unique {fits fits' : ChunkHeader -> Prop} {name : String} {p q : List UInt8}
    (hp : Payload inflate env fits name p) (hq : Payload inflate env fits' name q) : p = q := by
  rcases hp with ⟨bytes, hdr, hfile, hread, hslice⟩
  rcases hq with ⟨bytes', hdr', hfile', hread', hslice'⟩
  cases Option.some.inj (hfile.symm.trans hfile')
  cases Option.some.inj (hread.symm.trans hread')
  exact hslice.unique hslice'

theorem Payload.mono {fits fits' : ChunkHeader -> Prop} {name : String} {slice : List UInt8}
    (h : Payload inflate env fits name slice) (himp : forall chdr, fits chdr -> fits' chdr) :
    Payload inflate env fits' name slice := by
  rcases h with ⟨bytes, hdr, hfile, hread, hslice⟩
  exact ⟨bytes, hdr, hfile, hread, hslice.mono himp⟩

variable (hlib : Inflates env.mzUncompress inflate) {uncompCap compCap : Nat}
variable (huncomp : uncompCap < 2 ^ 32) (hcompCap : compCap < 2 ^ 32)
include hlib huncomp hcompCap

theorem processPart_writes (path : String) (out : OutState) :
    Yields (Writes out (Payload inflate env (FitsBuffers uncompCap compCap) path))
      (processPart env uncompCap compCap path out) := by
  unfold processPart
  refine yields_ite (fun _ => yields_error (by decide)) (fun _ => ?_)
  dsimp only
  cases hfile : env.file path with
  | none => exact (by decide : (-9 : Int) ≠ 0)
  | some bytes =>
      dsimp only
      cases hread : freadHeader bytes with
      | none => exact (by decide : (-10 : Int) ≠ 0)
      | some hdr =>
          dsimp only
          cases hstart : payloadOffset hdr with
          | none => exact (by decide : (-10 : Int) ≠ 0)
          | some start =>
              dsimp only
              refine yields_ite (fun hraw => ?_) (fun hraw => ?_)
              · refine (copyRaw_writes (Nat.le_refl _) _ _).mono (fun out' hout => ?_)
                refine hout.append (List.append_nil out.bytes).symm ?_
                rintro slice ⟨hlong, rfl⟩
                exact ⟨bytes, hdr, hfile, hread, Slice.raw hstart (isRaw_iff.mpr hraw) hlong⟩
              · refine (copyChunks_writes hlib huncomp hcompCap _ _ _).mono (fun out' hout => ?_)
                refine hout.append (List.append_nil out.bytes).symm (fun slice hslice => ?_)
                have hchunked : isRaw hdr = false := by
                  rw [Bool.eq_false_iff, ne_eq, isRaw_iff]
                  exact hraw
                exact ⟨bytes, hdr, hfile, hread, Slice.chunked hstart hchunked hslice⟩

theorem processParts_writes (paths : List String) (out : OutState) :
    Yields (Writes out (Joined (Payload inflate env (FitsBuffers uncompCap compCap)) paths))
      (processParts env uncompCap compCap paths out) := by
  induction paths generalizing out with
  | nil => exact ⟨[], (List.append_nil _).symm, Joined.nil⟩
  | cons path rest ih =>
      have hone := processPart_writes hlib huncomp hcompCap path out
      rw [processParts]
      cases hpart : processPart env uncompCap compCap path out with
      | error e =>
          rw [hpart] at hone
          exact hone
      | ok mid =>
          rw [hpart] at hone
          rcases hone with ⟨slice, hmid, hslice⟩
          exact (ih mid).mono (fun out' hout => hout.append hmid (fun tail => Joined.cons hslice))

theorem processPart_of_payload (hworks : Works env) (hcap : 0 < uncompCap) {path : String}
    {slice : List UInt8} (h : Payload inflate env (FitsBuffers uncompCap compCap) path slice)
    (out : OutState) :
    exists out', processPart env uncompCap compCap path out = Except.ok out' ∧
      out'.bytes = out.bytes ++ slice := by
  rcases h with ⟨bytes, hdr, hfile, hread, hslice⟩
  unfold processPart
  rw [hworks.not_cancelled, if_neg Bool.false_ne_true, hfile]
  dsimp only
  rw [hread]
  dsimp only
  cases hslice with
  | raw hstart hraw hlong =>
      rw [hstart]
      dsimp only
      rw [if_pos (isRaw_iff.mp hraw)]
      exact copyRaw_ok hworks hcap _ _ (Nat.le_refl _) hlong
  | chunked hstart hraw hchunks =>
      rw [hstart]
      dsimp only
      rw [if_neg (by rw [<- isRaw_iff, hraw]; exact Bool.false_ne_true)]
      exact copyChunks_of_chunks hlib huncomp hcompCap hworks hchunks _

theorem processParts_of_payloads (hworks : Works env) (hcap : 0 < uncompCap) {paths : List String}
    {slices : List UInt8}
    (h : Joined (Payload inflate env (FitsBuffers uncompCap compCap)) paths slices)
    (out : OutState) :
    exists out', processParts env uncompCap compCap paths out = Except.ok out' ∧
      out'.bytes = out.bytes ++ slices := by
  induction h generalizing out with
  | nil => exact ⟨out, rfl, (List.append_nil _).symm⟩
  | cons hone _ ih =>
      rcases processPart_of_payload hlib huncomp hcompCap hworks hcap hone out with
        ⟨mid, hmid, hmidBytes⟩
      rcases ih mid with ⟨out', hout, hbytes⟩
      refine ⟨out', ?_, ?_⟩
      · rw [processParts, hmid]
        exact hout
      · rw [hbytes, hmidBytes, List.append_assoc]

end

end Multipart
end PkgManager
