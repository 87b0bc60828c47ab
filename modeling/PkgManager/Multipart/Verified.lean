import PkgManager.Multipart.Payload

/-!
# Either the package or no file

What the call guarantees, and what the disk has to do with it: the code looks neither at the
result of {lit}`fclose`, which writes the last bytes, nor at that of {lit}`unlink`.
-/

namespace PkgManager
namespace Multipart

open Outcomes
open Pieces

/-- What may be different in another call on the same files. -/
structure Circumstances where
  outOpens : Bool
  hasMemory : Bool
  cancelled : Nat -> Bool
  writes : Nat -> Bool

def ReassembleEnv.under (env : ReassembleEnv) (c : Circumstances) : ReassembleEnv :=
  { env with
    outOpens := c.outOpens
    hasMemory := c.hasMemory
    cancelled := c.cancelled
    writes := c.writes }

structure Disk where
  /-- how many of so many bytes of the output are there after {lit}`fclose` -/
  kept : Nat -> Nat
  unlinks : Bool

def Disk.stored (disk : Disk) (bytes : List UInt8) : List UInt8 :=
  bytes.take (disk.kept bytes.length)

/-- Whether there is a file that the call has created. -/
def Disk.remains (disk : Disk) : OutFile -> Bool
  | OutFile.untouched => false
  | OutFile.removed => !disk.unlinks
  | OutFile.written _ => true

section
variable (inflate : List UInt8 -> Option (List UInt8)) (env : ReassembleEnv) (disk : Disk)

/-- The file behind the path is the part with this number of the package, and this is its slice. -/
def IsPartOf (packageUuid : List UInt8) (number : Nat) (path : String) (slice : List UInt8) : Prop :=
  exists bytes hdr, env.file (localPath path) = some bytes ∧ freadHeader bytes = some hdr ∧
    multipartIsValidHeader hdr.view = true ∧ hdr.packageUuid = packageUuid ∧
    hdr.partIndex = number ∧ Slice inflate env.mzCrc32 (fun _ => True) hdr bytes slice

/-- After a return of 0 the parts from 1 on of one package stand in the file one after the other,
and after any other return there is no file. -/
structure Sound (paths : List String) : Prop where
  package : (multipartDecompressToPkg env paths).1 = 0 -> exists out packageUuid,
    (multipartDecompressToPkg env paths).2 = OutFile.written out ∧
    Joined (fun p => IsPartOf inflate env packageUuid p.2 p.1) (paths.zipIdx 1) (disk.stored out)
  clean : (multipartDecompressToPkg env paths).1 ≠ 0 ->
    disk.remains (multipartDecompressToPkg env paths).2 = false

/-!
# The headers
-/

/-- The header of a part behind the first. -/
def Later (first : PackedHeader) (p : String × Nat) (hdr : PackedHeader) : Prop :=
  multipartReadPacked env p.1 = some hdr ∧ hdr.partIndex = p.2 ∧
    hdr.totalParts = first.totalParts ∧ hdr.packageUuid = first.packageUuid

def partsSum (sum : Nat) (headers : List PackedHeader) : Nat :=
  headers.foldl (fun sum hdr => u64 (sum + hdr.partDataSize)) sum

/-- The headers that belong together, as far as the number of the first part is not looked at. -/
structure Belong (first : String) (rest : List String) (hdr : PackedHeader)
    (headers : List PackedHeader) : Prop where
  first_hdr : multipartReadPacked env first = some hdr
  count : hdr.totalParts = (first :: rest).length
  later : List.Forall₂ (Later env hdr) (rest.zipIdx 2) headers
  sizes : hdr.totalPkgSize > 0 -> partsSum hdr.partDataSize headers ≠ 0 ->
    partsSum hdr.partDataSize headers = hdr.totalPkgSize

/-- The slices behind the names as they stand can be put together. -/
structure Complete (hdr : PackedHeader) (paths : List String) (out : List UInt8) : Prop where
  chunk_size : needChunked hdr = true -> headerChunkSize hdr ≤ 8388608
  slices : Joined (Payload inflate env (FitsBuffers (uncompBufCap hdr) (compBufCap hdr))) paths out
  total : hdr.totalPkgSize > 0 -> u64 out.length = hdr.totalPkgSize

/-- Of files that the call does not refuse, the first is part 1, and what is kept on the disk is
what the names stand for without {lit}`file://`; and an output can be removed. -/
def SoundWhen (paths : List String) : Prop :=
  forall first rest hdr headers, paths = first :: rest -> Belong env first rest hdr headers ->
    disk.unlinks = true ∧
      forall out, Complete inflate env hdr paths out -> hdr.partIndex = 1 ∧
        Joined (Payload inflate env (fun _ => True)) (paths.map localPath) (disk.stored out)

end

section
variable {inflate : List UInt8 -> Option (List UInt8)} {env : ReassembleEnv} {disk : Disk}

theorem multipartReadPacked_file {path : String} {hdr : PackedHeader}
    (h : multipartReadPacked env path = some hdr) :
    exists bytes, env.file (localPath path) = some bytes ∧ freadHeader bytes = some hdr ∧
      multipartIsValidHeader hdr.view = true := by
  unfold multipartReadPacked at h
  split at h
  · cases h
  · split at h
    · cases h
    · rename_i bytes hfile
      split at h
      · cases h
      · rename_i hdr' hread
        split at h
        · cases h
          exact ⟨bytes, hfile, hread, by assumption⟩
        · cases h

theorem verifyParts_yields (env : ReassembleEnv) (first : PackedHeader) (rest : List String) (i sum : Nat) :
    Yields (fun total => exists headers, List.Forall₂ (Later env first) (rest.zipIdx (i + 1)) headers ∧
        total = partsSum sum headers)
      (verifyParts env first.packageUuid first.totalParts rest i sum) := by
  induction rest generalizing i sum with
  | nil => exact ⟨[], List.Forall₂.nil, rfl⟩
  | cons path rest ih =>
      rw [verifyParts]
      cases hread : multipartReadPacked env path with
      | none => exact (by decide : (-4 : Int) ≠ 0)
      | some hdr =>
          refine yields_ite (fun _ => yields_error (by decide)) (fun hindex => ?_)
          refine yields_ite (fun _ => yields_error (by decide)) (fun huuid => ?_)
          rw [Bool.not_eq_true, Bool.or_eq_false_iff, bne_eq_false_iff_eq, bne_eq_false_iff_eq]
            at hindex
          rw [Bool.not_eq_true, bne_eq_false_iff_eq] at huuid
          refine (ih (i + 1) (u64 (sum + hdr.partDataSize))).mono ?_
          rintro total ⟨headers, hlater, rfl⟩
          have hone : Later env first (path, i + 1) hdr := ⟨hread, hindex.1, hindex.2, huuid⟩
          exact ⟨hdr :: headers, List.Forall₂.cons hone hlater, rfl⟩

theorem verifyParts_of_later {first : PackedHeader} {rest : List String} {i : Nat}
    {headers : List PackedHeader}
    (h : List.Forall₂ (Later env first) (rest.zipIdx (i + 1)) headers) (sum : Nat) :
    verifyParts env first.packageUuid first.totalParts rest i sum =
      Except.ok (partsSum sum headers) := by
  induction rest generalizing i headers sum with
  | nil =>
      cases h
      rfl
  | cons path rest ih =>
      rw [List.zipIdx_cons] at h
      cases h with
      | @cons _ hdr _ headers hone hrest =>
          rcases hone with ⟨hread, hindex, htotal, huuid⟩
          rw [verifyParts, hread]
          dsimp only at hindex ⊢
          rw [hindex, htotal, huuid, bne_self_eq_false, bne_self_eq_false, bne_self_eq_false,
            Bool.or_false, if_neg Bool.false_ne_true, if_neg Bool.false_ne_true]
          exact ih hrest _

/-- The call refuses the files before there is an output, or goes on with it. -/
theorem decompress_cases (env : ReassembleEnv) (paths : List String) :
    (exists e, multipartDecompressToPkg env paths = (e, OutFile.untouched) ∧ e ≠ 0) ∨
      exists first rest hdr headers, paths = first :: rest ∧ Belong env first rest hdr headers ∧
        multipartDecompressToPkg env paths = assemble env paths hdr := by
  cases paths with
  | nil => exact Or.inl ⟨-1, rfl, by decide⟩
  | cons first rest =>
      cases hfirst : multipartReadPacked env first with
      | none =>
          left
          refine ⟨-2, ?_, by decide⟩
          rw [multipartDecompressToPkg, hfirst]
      | some hdr =>
          by_cases hcount : hdr.totalParts = (first :: rest).length
          · have hlater := verifyParts_yields env hdr rest 1 hdr.partDataSize
            cases hverify : verifyParts env hdr.packageUuid (first :: rest).length rest 1
                hdr.partDataSize with
            | error e =>
                left
                rw [hcount, hverify] at hlater
                refine ⟨e, ?_, hlater⟩
                rw [multipartDecompressToPkg, hfirst]
                dsimp only
                rw [if_neg (not_not.mpr hcount), hverify]
            | ok sum =>
                rw [hcount, hverify] at hlater
                rcases hlater with ⟨headers, hheaders, hsum⟩
                by_cases hsizes : hdr.totalPkgSize > 0 ∧ sum ≠ 0 ∧ sum ≠ hdr.totalPkgSize
                · left
                  refine ⟨-18, ?_, by decide⟩
                  rw [multipartDecompressToPkg, hfirst]
                  dsimp only
                  rw [if_neg (not_not.mpr hcount), hverify]
                  dsimp only
                  rw [if_pos hsizes]
                · right
                  refine ⟨first, rest, hdr, headers, rfl, ⟨hfirst, hcount, hheaders, ?_⟩, ?_⟩
                  · intro hpos hzero
                    rw [<- hsum] at hzero ⊢
                    by_contra hne
                    exact hsizes ⟨hpos, hzero, hne⟩
                  · rw [multipartDecompressToPkg, hfirst]
                    dsimp only
                    rw [if_neg (not_not.mpr hcount), hverify]
                    dsimp only
                    rw [if_neg hsizes]
          · left
            refine ⟨-3, ?_, by decide⟩
            rw [multipartDecompressToPkg, hfirst]
            dsimp only
            rw [if_pos hcount]

theorem decompress_of_belong {first : String} {rest : List String} {hdr : PackedHeader}
    {headers : List PackedHeader} (h : Belong env first rest hdr headers) :
    multipartDecompressToPkg env (first :: rest) = assemble env (first :: rest) hdr := by
  have hverify := verifyParts_of_later h.later hdr.partDataSize
  rw [h.count] at hverify
  have hsizes : ¬ (hdr.totalPkgSize > 0 ∧ partsSum hdr.partDataSize headers ≠ 0 ∧
      partsSum hdr.partDataSize headers ≠ hdr.totalPkgSize) :=
    fun hwrong => hwrong.2.2 (h.sizes hwrong.1 hwrong.2.1)
  rw [multipartDecompressToPkg, h.first_hdr]
  dsimp only
  rw [if_neg (not_not.mpr h.count), hverify]
  dsimp only
  rw [if_neg hsizes]

/-!
# The output
-/

theorem uncompBufCap_pos (hdr : PackedHeader) : 0 < uncompBufCap hdr := by
  have hraw : 0 < rawBufCap := by decide
  unfold uncompBufCap
  split
  · exact Nat.add_pos_right _ (by decide)
  · exact hraw

theorem bufCaps_lt {hdr : PackedHeader}
    (h : needChunked hdr = true -> headerChunkSize hdr ≤ 8388608) :
    uncompBufCap hdr < 2 ^ 32 ∧ compBufCap hdr < 2 ^ 32 := by
  have hraw : rawBufCap < 2 ^ 32 := by decide
  unfold uncompBufCap compBufCap
  split
  · rename_i hneed
    have hsize := h hneed
    constructor <;> omega
  · exact ⟨hraw, hraw⟩

theorem chunk_size_iff {hdr : PackedHeader} :
    (needChunked hdr && decide (headerChunkSize hdr > 8388608)) = false ↔
      (needChunked hdr = true -> headerChunkSize hdr ≤ 8388608) := by
  cases needChunked hdr with
  | false => exact ⟨fun _ h => absurd h Bool.false_ne_true, fun _ => rfl⟩
  | true =>
      rw [Bool.true_and, decide_eq_false_iff_not, Nat.not_lt]
      exact ⟨fun h _ => h, fun h => h rfl⟩

/-- There is no output, or none any more, or all of it. -/
theorem assemble_cases (hlib : Inflates env.mzUncompress inflate) (paths : List String)
    (hdr : PackedHeader) :
    (exists e file, assemble env paths hdr = (e, file) ∧ e ≠ 0 ∧
        (file = OutFile.untouched ∨ file = OutFile.removed)) ∨
      exists out, assemble env paths hdr = (0, OutFile.written out) ∧
        Complete inflate env hdr paths out := by
  unfold assemble
  split
  · exact Or.inl ⟨_, _, rfl, by decide, Or.inl rfl⟩
  split
  · exact Or.inl ⟨_, _, rfl, by decide, Or.inr rfl⟩
  split
  · exact Or.inl ⟨_, _, rfl, by decide, Or.inr rfl⟩
  rename_i _ hchunk _
  have hsize := chunk_size_iff.mp (Bool.eq_false_iff.mpr hchunk)
  rcases bufCaps_lt hsize with ⟨huncomp, hcomp⟩
  have hwrites := processParts_writes hlib huncomp hcomp paths ⟨[], 0, 0⟩
  cases hprocess : processParts env (uncompBufCap hdr) (compBufCap hdr) paths ⟨[], 0, 0⟩ with
  | error e =>
      rw [hprocess] at hwrites
      exact Or.inl ⟨_, _, rfl, hwrites, Or.inr rfl⟩
  | ok out =>
      rw [hprocess] at hwrites
      rcases hwrites with ⟨slices, hbytes, hslices⟩
      rw [List.nil_append] at hbytes
      dsimp only
      split
      · exact Or.inl ⟨_, _, rfl, by decide, Or.inr rfl⟩
      · rename_i htotal
        right
        refine ⟨out.bytes, rfl, hsize, hbytes ▸ hslices, ?_⟩
        intro hpos
        by_contra hne
        exact htotal ⟨hpos, hne⟩

theorem assemble_of_complete (hlib : Inflates env.mzUncompress inflate) (hworks : Works env)
    {paths : List String} {hdr : PackedHeader} {out : List UInt8}
    (h : Complete inflate env hdr paths out) :
    assemble env paths hdr = (0, OutFile.written out) := by
  rcases bufCaps_lt h.chunk_size with ⟨huncomp, hcomp⟩
  rcases processParts_of_payloads hlib huncomp hcomp hworks (uncompBufCap_pos hdr) h.slices
      ⟨[], 0, 0⟩ with ⟨state, hprocess, hbytes⟩
  rw [List.nil_append] at hbytes
  have htotal : ¬ (hdr.totalPkgSize > 0 ∧ u64 state.bytes.length ≠ hdr.totalPkgSize) := by
    rw [hbytes]
    exact fun hwrong => hwrong.2 (h.total hwrong.1)
  unfold assemble
  rw [hworks.opens, chunk_size_iff.mpr h.chunk_size, hworks.memory, hprocess]
  dsimp only
  rw [if_neg htotal, hbytes]
  rfl

theorem assemble_no_memory (hopens : env.outOpens = true) (hmemory : env.hasMemory = false)
    (paths : List String) (hdr : PackedHeader) :
    assemble env paths hdr = (-8, OutFile.removed) := by
  unfold assemble
  rw [hopens, hmemory]
  split
  · contradiction
  split
  · rfl
  · rfl

end

/-!
# The package
-/

section
variable {inflate : List UInt8 -> Option (List UInt8)} {env : ReassembleEnv} {disk : Disk}

theorem Belong.first_file {first : String} {rest : List String} {hdr : PackedHeader}
    {headers : List PackedHeader} (h : Belong env first rest hdr headers) {number : Nat}
    {packageUuid slice : List UInt8}
    (hpart : IsPartOf inflate env packageUuid number first slice) : hdr.partIndex = number := by
  rcases hpart with ⟨bytes, hdr', hfile, hread, _, _, hindex, _⟩
  rcases multipartReadPacked_file h.first_hdr with ⟨bytes', hfile', hread', _⟩
  cases Option.some.inj (hfile.symm.trans hfile')
  cases Option.some.inj (hread.symm.trans hread')
  exact hindex

/-- A slice behind a name whose header was read is that of the part. -/
theorem isPartOf_payload {path : String} {hdr : PackedHeader} {slice : List UInt8}
    (hhdr : multipartReadPacked env path = some hdr)
    (hslice : Payload inflate env (fun _ => True) (localPath path) slice) :
    IsPartOf inflate env hdr.packageUuid hdr.partIndex path slice := by
  rcases multipartReadPacked_file hhdr with ⟨bytes, hfile, hread, hvalid⟩
  rcases hslice with ⟨bytes', hdr', hfile', hread', hslice'⟩
  cases Option.some.inj (hfile.symm.trans hfile')
  cases Option.some.inj (hread.symm.trans hread')
  exact ⟨bytes, hdr, hfile, hread, hvalid, rfl, rfl, hslice'⟩

theorem Belong.parts {first : String} {rest : List String} {hdr : PackedHeader}
    {headers : List PackedHeader} (h : Belong env first rest hdr headers)
    (hindex : hdr.partIndex = 1) {out : List UInt8}
    (hslices : Joined (Payload inflate env (fun _ => True)) ((first :: rest).map localPath) out) :
    Joined (fun p => IsPartOf inflate env hdr.packageUuid p.2 p.1) ((first :: rest).zipIdx 1) out := by
  rw [joined_map, joined_zipIdx 1] at hslices
  apply hslices.mono
  intro p slice hp hslice
  rw [List.zipIdx_cons, List.mem_cons] at hp
  rcases hp with rfl | hp
  · have hpart := isPartOf_payload h.first_hdr hslice
    rw [hindex] at hpart
    exact hpart
  · rcases exists_of_forall₂ h.later hp with ⟨hdr', hread, hnumber, _, huuid⟩
    have hpart := isPartOf_payload hread hslice
    rw [hnumber, huuid] at hpart
    exact hpart

theorem sound_of_soundWhen (hlib : Inflates env.mzUncompress inflate) {paths : List String}
    (h : SoundWhen inflate env disk paths) : Sound inflate env disk paths := by
  rcases decompress_cases env paths with ⟨e, hcall, hne⟩ | hgoes
  · constructor
    · rw [hcall]
      exact fun hzero => absurd hzero hne
    · rw [hcall]
      exact fun _ => rfl
  rcases hgoes with ⟨first, rest, hdr, headers, rfl, hbelong, hcall⟩
  rcases h first rest hdr headers rfl hbelong with ⟨hunlinks, hcomplete⟩
  rcases assemble_cases hlib (first :: rest) hdr with ⟨e, file, hresult, hne, hfile⟩ | hresult
  · rw [hresult] at hcall
    constructor
    · rw [hcall]
      exact fun hzero => absurd hzero hne
    · rw [hcall]
      intro _
      rcases hfile with rfl | rfl
      · rfl
      · exact congrArg Bool.not hunlinks
  · rcases hresult with ⟨out, hresult, hslices⟩
    rcases hcomplete out hslices with ⟨hindex, hstored⟩
    rw [hresult] at hcall
    constructor
    · rw [hcall]
      exact fun _ => ⟨out, hdr.packageUuid, rfl, hbelong.parts hindex hstored⟩
    · rw [hcall]
      exact fun hne => absurd rfl hne

/-- Nothing fails in the first call; there is no memory in the second. -/
def allWorks : Circumstances where
  outOpens := true
  hasMemory := true
  cancelled _ := false
  writes _ := true

def noMemory : Circumstances :=
  { allWorks with hasMemory := false }

theorem works_under (env : ReassembleEnv) : Works (env.under allWorks) where
  opens := rfl
  memory := rfl
  not_cancelled _ := rfl
  writes _ := rfl

theorem belong_under {c : Circumstances} {first : String} {rest : List String} {hdr : PackedHeader}
    {headers : List PackedHeader} :
    Belong (env.under c) first rest hdr headers ↔ Belong env first rest hdr headers := by
  constructor
  · intro h
    exact ⟨h.first_hdr, h.count, h.later, h.sizes⟩
  · intro h
    exact ⟨h.first_hdr, h.count, h.later, h.sizes⟩

theorem complete_under {c : Circumstances} {hdr : PackedHeader} {paths : List String}
    {out : List UInt8} :
    Complete inflate (env.under c) hdr paths out ↔ Complete inflate env hdr paths out := by
  constructor
  · intro h
    exact ⟨h.chunk_size, h.slices, h.total⟩
  · intro h
    exact ⟨h.chunk_size, h.slices, h.total⟩

theorem SoundWhen.under {paths : List String} (h : SoundWhen inflate env disk paths)
    (c : Circumstances) : SoundWhen inflate (env.under c) disk paths := by
  intro first rest hdr headers hcons hbelong
  rcases h first rest hdr headers hcons (belong_under.mp hbelong) with ⟨hunlinks, hcomplete⟩
  exact ⟨hunlinks, fun out hout => hcomplete out (complete_under.mp hout)⟩

theorem joined_payload_of_parts {packageUuid : List UInt8} {paths : List String} {k : Nat}
    {out : List UInt8}
    (h : Joined (fun p => IsPartOf inflate env packageUuid p.2 p.1) (paths.zipIdx k) out) :
    Joined (Payload inflate env (fun _ => True)) (paths.map localPath) out := by
  rw [joined_map, joined_zipIdx k]
  apply h.mono
  rintro p slice _ ⟨bytes, hdr, hfile, hread, _, _, _, hslice⟩
  exact ⟨bytes, hdr, hfile, hread, hslice⟩

/-- The calls on some files are sound, whatever happens, exactly if files that are not refused
start with part 1 and the disk does what it is asked for. -/
theorem multipartDecompressToPkg_sound_iff (hlib : Inflates env.mzUncompress inflate)
    (paths : List String) :
    (forall c, Sound inflate (env.under c) disk paths) ↔ SoundWhen inflate env disk paths := by
  constructor
  · intro h first rest hdr headers hpaths hbelong
    rw [hpaths] at h
    constructor
    · have hclean := (h noMemory).clean
      have hcall : multipartDecompressToPkg (env.under noMemory) (first :: rest) =
          (-8, OutFile.removed) :=
        (decompress_of_belong (belong_under.mpr hbelong)).trans
          (assemble_no_memory rfl rfl _ _)
      rw [hcall] at hclean
      have hgone : (!disk.unlinks) = false := hclean (by decide)
      rw [Bool.not_eq_false'] at hgone
      exact hgone
    · intro out hcomplete
      rw [hpaths] at hcomplete
      have hinflates : Inflates (env.under allWorks).mzUncompress inflate := hlib
      have hcall : multipartDecompressToPkg (env.under allWorks) (first :: rest) =
          (0, OutFile.written out) :=
        (decompress_of_belong (belong_under.mpr hbelong)).trans
          (assemble_of_complete hinflates (works_under env) (complete_under.mpr hcomplete))
      have hpackage := (h allWorks).package
      rw [hcall] at hpackage
      rcases hpackage rfl with ⟨written, packageUuid, hwritten, hparts⟩
      cases hwritten
      rw [hpaths]
      refine ⟨?_, joined_payload_of_parts hparts⟩
      rw [List.zipIdx_cons] at hparts
      generalize hstored : disk.stored out = stored at hparts
      cases hparts with
      | cons hfirst _ => exact hbelong.first_file hfirst
  · intro h c
    have hinflates : Inflates (env.under c).mzUncompress inflate := hlib
    exact sound_of_soundWhen hinflates (h.under c)

/-- Where no name has {lit}`file://` in front, it is enough that all of the output is kept. -/
theorem soundWhen_plain {paths : List String}
    (hplain : forall path, path ∈ paths -> localPath path = path) :
    SoundWhen inflate env disk paths ↔
      forall first rest hdr headers, paths = first :: rest -> Belong env first rest hdr headers ->
        disk.unlinks = true ∧ forall out, Complete inflate env hdr paths out ->
          hdr.partIndex = 1 ∧ out.length ≤ disk.kept out.length := by
  have hpaths : paths.map localPath = paths := by
    conv_rhs => rw [<- List.map_id paths]
    exact List.map_congr_left hplain
  unfold SoundWhen
  rw [hpaths]
  have hsame : forall hdr out, Complete inflate env hdr paths out ->
      (Joined (Payload inflate env (fun _ => True)) paths (disk.stored out) ↔
        out.length ≤ disk.kept out.length) := by
    intro hdr out hcomplete
    have hslices : Joined (Payload inflate env (fun _ => True)) paths out :=
      hcomplete.slices.mono (fun _ _ _ hslice => hslice.mono (fun _ _ => trivial))
    constructor
    · intro hstored
      have hwhole := hstored.unique hslices (fun _ _ _ => Payload.unique)
      unfold Disk.stored at hwhole
      exact (List.take_eq_self_iff out).mp hwhole
    · intro hkept
      unfold Disk.stored
      rw [List.take_of_length_le hkept]
      exact hslices
  constructor
  · intro h first rest hdr headers hcons hbelong
    rcases h first rest hdr headers hcons hbelong with ⟨hunlinks, hcomplete⟩
    refine ⟨hunlinks, fun out hout => ?_⟩
    exact ⟨(hcomplete out hout).1, (hsame hdr out hout).mp (hcomplete out hout).2⟩
  · intro h first rest hdr headers hcons hbelong
    rcases h first rest hdr headers hcons hbelong with ⟨hunlinks, hcomplete⟩
    refine ⟨hunlinks, fun out hout => ?_⟩
    exact ⟨(hcomplete out hout).1, (hsame hdr out hout).mpr (hcomplete out hout).2⟩

end

/-!
# Two calls
-/

/-- A disk that does what it is asked for. -/
def soundDisk : Disk where
  kept n := n
  unlinks := true

/-- Three bytes in a deflate stream with one stored block, and their checksum. -/
def threeBytes : List UInt8 :=
  [1, 2, 3]

def threeStream : List UInt8 :=
  [120, 1, 1, 3, 0, 252, 255, 1, 2, 3, 0, 13, 0, 7]

def threeInflate (comp : List UInt8) : Option (List UInt8) :=
  if comp = threeStream then some threeBytes else none

def threeArgs : HeaderArgs where
  partIndex := 1
  totalParts := 1
  chunkSize := 0
  numChunks := 1
  partDataSize := 0
  totalPkgSize := 3
  totalArchiveSize := 0
  pkgFilename := "game.pkg"
  titleId := ""
  titleName := ""
  contentId := ""
  pkgUuid := List.replicate 16 7
  iconOffset := 0
  iconSize := 0
  appVersion := ""
  pkgType := "base"
  partOffset := 0
  dataOffset := 0

/-- One part with one deflated chunk: the field at 20 is the compression. -/
def threeFile : List UInt8 :=
  ((packHeader threeArgs).getD []).set 20 1 ++ [3, 0, 0, 0, 14, 0, 0, 0, 29, 128, 188, 85] ++
    threeStream

def threeEnv : ReassembleEnv :=
  { filesEnv [("game.part1", threeFile)] with
    mzUncompress := fun cap comp =>
      (threeInflate comp).filter (fun bytes => decide (bytes.length ≤ cap))
    mzCrc32 := fun bytes => if bytes = threeBytes then 1438416925 else 0 }

theorem multipartDecompressToPkg_sound_deflated :
    (forall c, Sound threeInflate (threeEnv.under c) soundDisk ["game.part1"]) ∧
      multipartDecompressToPkg (threeEnv.under allWorks) ["game.part1"] =
        (0, OutFile.written [1, 2, 3]) := by
  have hlib : Inflates threeEnv.mzUncompress threeInflate := fun _ _ _ _ => rfl
  have hplain : localPath "game.part1" = "game.part1" := by decide
  have hindex : (multipartReadPacked threeEnv "game.part1").map PackedHeader.partIndex = some 1 := by
    decide +kernel
  refine ⟨(multipartDecompressToPkg_sound_iff hlib ["game.part1"]).mpr ?_, by decide +kernel⟩
  apply (soundWhen_plain ?_).mpr
  · intro first rest hdr headers hcons hbelong
    cases hcons
    rw [hbelong.first_hdr] at hindex
    exact ⟨rfl, fun out _ => ⟨Option.some.inj hindex, Nat.le_refl _⟩⟩
  · intro path hpath
    rw [List.mem_singleton.mp hpath]
    exact hplain

/-- A package of two equal slices. -/
def evenInfo : PkgMetadata :=
  { iconInfo with
    iconData := []
    icon_lt := by decide }

def evenParts : List (String × List UInt8) :=
  (splitPkg evenInfo "game.pkg" (List.replicate 16 7) [1, 2, 3, 4, 5, 6] 4099).getD []

/-- On a disk that does what it is asked for, every call is sound. -/
def DecompressSound : Prop :=
  forall inflate env paths, Inflates env.mzUncompress inflate -> Sound inflate env soundDisk paths

/-- The second part is taken twice. -/
theorem second_part_twice : ¬ DecompressSound := by
  intro h
  have hsound := h (fun _ => none) (filesEnv evenParts) ["game.pkg.part2", "game.pkg.part2"]
    (fun _ _ _ _ => rfl)
  have hzero : (multipartDecompressToPkg (filesEnv evenParts)
      ["game.pkg.part2", "game.pkg.part2"]).1 = 0 := by
    decide +kernel
  have hindex : (((filesEnv evenParts).file (localPath "game.pkg.part2")).bind freadHeader).map
      PackedHeader.partIndex = some 2 := by
    decide +kernel
  rcases hsound.package hzero with ⟨out, packageUuid, _, hparts⟩
  rw [List.zipIdx_cons] at hparts
  generalize soundDisk.stored out = stored at hparts
  cases hparts with
  | cons hfirst _ =>
      rcases hfirst with ⟨bytes, hdr, hfile, hread, _, _, hone, _⟩
      rw [hfile, Option.bind_some, hread, Option.map_some, hone] at hindex
      cases hindex

end Multipart
end PkgManager
