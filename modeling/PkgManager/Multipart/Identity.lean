import PkgManager.Multipart.Stream

/-!
# The parts a stream reads

On drives that hold no foreign file where the stream looks without checking, a
multi-part stream reads every slot from a file of its own package and index.
-/

namespace PkgManager
namespace Multipart

open Transition

section Identity

variable {drives : Nat -> Drive} {env : FinderEnv}

/-- The drives hold nothing that the unchecked routes could take for a part: no
other package uses the package's file name, a staged file is the part it is
named for, and a part file is not replaced by another file. -/
structure OwnParts (drives : Nat -> Drive) (env : FinderEnv) (initialPath : String)
    (uuid : List UInt8) (name : String) : Prop where
  name_unique : forall t path hdr, multipartReadHeader (drives t) path = some hdr ->
    name ≠ "" -> caseEq hdr.pkgFilename name = true -> hdr.packageUuid = uuid
  staged_own : forall t part hdr,
    multipartReadHeader (drives t) (stagedPath env part) = some hdr ->
      hdr.packageUuid = uuid ∧ hdr.partIndex = part
  kept : forall t t' path hdr f, t ≤ t' -> multipartReadHeader (drives t) path = some hdr ->
    hdr.packageUuid = uuid -> (drives t').file path = some f -> Carries f uuid hdr.partIndex
  short_paths : forall t path hdr, multipartReadHeader (drives t) path = some hdr ->
    path.toList.length < 512
  plain_initial : localPath (localPath initialPath) = localPath initialPath

/-- At some moment so far the path was that of the package's part. -/
def Recorded (drives : Nat -> Drive) (uuid : List UInt8) (now : Nat) (path : String)
    (part : Nat) : Prop :=
  exists t hdr, t ≤ now ∧ multipartReadHeader (drives t) path = some hdr ∧
    hdr.packageUuid = uuid ∧ hdr.partIndex = part

theorem recorded_later {uuid : List UInt8} {now now' : Nat} {path : String} {part : Nat}
    (hle : now ≤ now') (h : Recorded drives uuid now path part) :
    Recorded drives uuid now' path part := by
  rcases h with ⟨t, hdr, ht, hrest⟩
  exact ⟨t, hdr, Nat.le_trans ht hle, hrest⟩

theorem carries_of_recorded {uuid : List UInt8} {name initialPath path : String}
    (hown : OwnParts drives env initialPath uuid name) {now : Nat} {part : Nat} {f : PartFile}
    (h : Recorded drives uuid now path part) (hfile : (drives now).file path = some f) :
    Carries f uuid part := by
  rcases h with ⟨t, hdr, ht, hhdr, huuid, hpart⟩
  rw [← hpart]
  exact hown.kept t now path hdr f ht hhdr huuid hfile

/-!
# The routes
-/

/-- The queries of a stream ask for its own package. -/
structure OwnQuery (q : PartQuery) (uuid : List UInt8) (name : String) : Prop where
  uuid_eq : q.packageUuid = uuid
  name_eq : q.pkgFilename = name

theorem recorded_of_found {uuid : List UInt8} {name initialPath : String}
    (hown : OwnParts drives env initialPath uuid name) {q : PartQuery} (hq : OwnQuery q uuid name)
    {start stop : Nat} {out : String} (h : FoundBetween drives q start stop out) :
    Recorded drives uuid stop out q.partIndex := by
  rcases h with ⟨t, path, hdr, _, hstop, hout, hhdr, hmatch, hpart⟩
  rw [hout, cTruncate_of_lt (hown.short_paths t path hdr hhdr)]
  refine ⟨t, hdr, hstop, hhdr, ?_, hpart⟩
  unfold matchesPackage at hmatch
  rw [hq.uuid_eq, hq.name_eq, Bool.or_eq_true, Bool.and_eq_true] at hmatch
  rcases hmatch with huuid | ⟨hname, hcase⟩
  · exact beq_iff_eq.mp huuid
  · exact hown.name_unique t path hdr hhdr (bne_iff_ne.mp hname) hcase

variable (drives) in
theorem findAdjacent_ok (q : PartQuery) (initialPath : String) (pr : Probe) :
    SearchOk drives q pr (findAdjacent drives q initialPath pr) := by
  unfold findAdjacent
  split
  · exact searchOk_none (Nat.le_refl pr.now)
  · split
    · exact searchOk_none (tick_le pr)
    · apply searchOk_later (tick_le pr)
      apply scanEntries_ok
      intro name cand pr
      split
      · exact searchOk_none (Nat.le_refl pr.now)
      · split
        · exact searchOk_none (tick_le pr)
        · rename_i hdr hhdr
          split
          · rename_i hcheck
            refine ⟨tick_le pr, ?_⟩
            intro out hout
            cases hout
            refine ⟨pr.now, cand, hdr, Nat.le_refl pr.now, tick_le pr, rfl, hhdr, ?_, hcheck.2⟩
            unfold matchesPackage
            rw [hcheck.1]
            simp
          · exact searchOk_none (tick_le pr)

theorem multipartReadHeader_local {drive : Drive} {path : String} {hdr : MultipartHeader}
    (hplain : localPath (localPath path) = localPath path)
    (h : multipartReadHeader drive (localPath path) = some hdr) :
    multipartReadHeader drive path = some hdr := by
  by_cases hscheme : hasPrefix "file://" path = true
  · have hsmb : (hasPrefix "smb://" path || pkgParserIsHttpPath path) = false := by
      unfold pkgParserIsHttpPath
      unfold hasPrefix at *
      cases hchars : path.toList with
      | nil => rfl
      | cons c cs =>
          rw [hchars] at hscheme
          have hfirst : c = 'f' := by
            simp [List.isPrefixOf] at hscheme
            exact hscheme.1.symm
          rw [hfirst]
          simp [List.isPrefixOf]
    unfold multipartReadHeader at h ⊢
    rw [hplain] at h
    rw [hsmb]
    split at h
    · cases h
    · exact h
  · have hsame : localPath path = path := by
      unfold localPath
      rw [if_neg hscheme]
    rw [hsame] at h
    exact h

/-- What is located for a slot was a part of the package, or is a staged file. -/
theorem locatePart_own {uuid : List UInt8} {name initialPath : String}
    (hown : OwnParts drives env initialPath uuid name) {q : PartQuery} (hq : OwnQuery q uuid name)
    {initialPart now : Nat} (hinitial : Recorded drives uuid now initialPath initialPart)
    {found : Option String} {pr : Probe}
    (h : locatePart drives env q initialPart initialPath now = (found, pr)) :
    now ≤ pr.now ∧ forall path, found = some path ->
      Recorded drives uuid pr.now path q.partIndex ∨ path = stagedPath env q.partIndex := by
  unfold locatePart at h
  split at h
  · rename_i hpart
    cases h
    refine ⟨Nat.le_refl now, ?_⟩
    intro path hpath
    cases hpath
    left
    rcases hinitial with ⟨t, hdr, ht, hhdr, hrest⟩
    rw [hpart, cTruncate_of_lt (hown.short_paths t initialPath hdr hhdr)]
    exact ⟨t, hdr, ht, hhdr, hrest⟩
  · have hscan := pkgScannerFindPartEx_ok drives env q now
    split at h
    · rename_i path mid hres
      rw [hres] at hscan
      cases h
      refine ⟨hscan.1, ?_⟩
      intro path' hpath
      cases hpath
      exact Or.inl (recorded_of_found hown hq (hscan.2 path rfl))
    · rename_i mid hres
      rw [hres] at hscan
      have hadj := findAdjacent_ok drives q initialPath mid
      split at h
      · rename_i path last hres'
        rw [hres'] at hadj
        cases h
        refine ⟨Nat.le_trans hscan.1 hadj.1, ?_⟩
        intro path' hpath
        cases hpath
        exact Or.inl (recorded_of_found hown hq (hadj.2 path rfl))
      · rename_i last hres'
        rw [hres'] at hadj
        have hlate : now ≤ last.now := Nat.le_trans hscan.1 hadj.1
        unfold findStaged at h
        split at h
        · cases h
          refine ⟨Nat.le_trans hlate (tick_le last), ?_⟩
          intro path hpath
          cases hpath
          exact Or.inr rfl
        · cases h
          refine ⟨Nat.le_trans hlate (tick_le last), ?_⟩
          intro path hpath
          cases hpath

/-!
# The part table
-/

/-- Every recorded path was a part of the package when it was recorded, and
every open descriptor is one. -/
structure StreamOk (drives : Nat -> Drive) (uuid : List UInt8) (name : String) (now : Nat)
    (st : VirtualStream) : Prop where
  uuid_eq : st.packageUuid = uuid
  name_eq : st.pkgFilename = name
  path : forall i, (st.parts i).path ≠ "" -> Recorded drives uuid now (st.parts i).path (i + 1)
  fd : forall i f, (st.parts i).fd = some f -> Carries f uuid (i + 1)

theorem streamOk_later {uuid : List UInt8} {name : String} {now now' : Nat}
    {st : VirtualStream} (hle : now ≤ now') (h : StreamOk drives uuid name now st) :
    StreamOk drives uuid name now' st :=
  ⟨h.uuid_eq, h.name_eq, fun i hi => recorded_later hle (h.path i hi), h.fd⟩

theorem streamOk_setPart {uuid : List UInt8} {name : String} {now : Nat}
    {st : VirtualStream} (h : StreamOk drives uuid name now st) {i : Nat} {info : PartInfo}
    (hpath : info.path ≠ "" -> Recorded drives uuid now info.path (i + 1))
    (hfd : forall f, info.fd = some f -> Carries f uuid (i + 1)) :
    StreamOk drives uuid name now (st.setPart i info) := by
  refine ⟨h.uuid_eq, h.name_eq, ?_, ?_⟩
  · intro k hk
    change (Function.update st.parts i info k).path ≠ "" at hk
    change Recorded drives uuid now (Function.update st.parts i info k).path (k + 1)
    by_cases heq : k = i
    · rw [heq, Function.update_self] at hk ⊢
      exact hpath hk
    · rw [Function.update_of_ne heq] at hk ⊢
      exact h.path k hk
  · intro k f hk
    change (Function.update st.parts i info k).fd = some f at hk
    by_cases heq : k = i
    · rw [heq, Function.update_self] at hk
      rw [heq]
      exact hfd f hk
    · rw [Function.update_of_ne heq] at hk
      exact h.fd k f hk

theorem resolveParts_ok {uuid : List UInt8} {name initialPath : String}
    (hown : OwnParts drives env initialPath uuid name) {hdr : MultipartHeader}
    (huuid : hdr.packageUuid = uuid) (hname : cTruncate 256 hdr.pkgFilename = name)
    {n p : Nat} (hp : 0 < p) {st st' : VirtualStream} {now now' : Nat}
    (hinitial : Recorded drives uuid now initialPath hdr.partIndex)
    (hst : StreamOk drives uuid name now st)
    (h : resolveParts drives env hdr initialPath n p st now = Except.ok (st', now')) :
    StreamOk drives uuid name now' st' := by
  induction n generalizing p st now with
  | zero =>
      cases h
      exact hst
  | succ n ih =>
      rw [resolveParts] at h
      have hq : OwnQuery
          { packageUuid := hdr.packageUuid, pkgFilename := cTruncate 256 hdr.pkgFilename,
            partIndex := p } uuid name := ⟨huuid, hname⟩
      have hslot : p - 1 + 1 = p := by omega
      split at h
      · rename_i pr hres
        have hlater := (locatePart_own hown hq hinitial hres).1
        refine ih (Nat.succ_pos p) (recorded_later hlater hinitial) ?_ h
        apply streamOk_setPart (streamOk_later hlater hst)
        · intro hne
          exact absurd rfl hne
        · intro f hf
          cases hf
      · rename_i path pr hres
        have hlocated := locatePart_own hown hq hinitial hres
        have hlater : now ≤ pr.now + 1 := Nat.le_succ_of_le hlocated.1
        split at h
        · cases h
        · rename_i phdr hphdr
          have hrecorded : Recorded drives uuid (pr.now + 1) path p := by
            rcases hlocated.2 path rfl with hseen | hstaged
            · exact recorded_later (Nat.le_succ pr.now) hseen
            · rw [hstaged] at hphdr ⊢
              have hmine := hown.staged_own pr.now p phdr hphdr
              exact ⟨pr.now, phdr, Nat.le_succ pr.now, hphdr, hmine.1, hmine.2⟩
          refine ih (Nat.succ_pos p) (recorded_later hlater hinitial) ?_ h
          apply streamOk_setPart (streamOk_later hlater hst)
          · intro _
            rw [hslot]
            exact hrecorded
          · intro f hf
            cases hf

/-!
# One turn of a read
-/

theorem waitForPart_own {uuid : List UInt8} {name initialPath : String}
    (hown : OwnParts drives env initialPath uuid name) {q : PartQuery} (hq : OwnQuery q uuid name)
    {polls now now' : Nat} {found : Option String}
    (h : waitForPart drives env q polls now = (found, now')) :
    now ≤ now' ∧ forall path, found = some path ->
      Recorded drives uuid now' path q.partIndex := by
  induction polls generalizing now with
  | zero =>
      rcases Prod.mk.inj h with ⟨hfound, hnow⟩
      rw [← hfound, ← hnow]
      refine ⟨Nat.le_refl now, ?_⟩
      intro path hpath
      cases hpath
  | succ polls ih =>
      rw [waitForPart] at h
      have hscan := pkgScannerFindPartEx_ok drives env q now
      split at h
      · rename_i path pr hres
        rw [hres] at hscan
        cases h
        refine ⟨hscan.1, ?_⟩
        intro path' hpath
        cases hpath
        exact recorded_of_found hown hq (hscan.2 path rfl)
      · rename_i pr hres
        rw [hres] at hscan
        have hrest := ih h
        exact ⟨Nat.le_trans hscan.1 hrest.1, hrest.2⟩

/-- The run so far: the part table is good, and so is what was delivered. -/
structure RunOk (drives : Nat -> Drive) (uuid : List UInt8) (name : String)
    (r : StreamRun) : Prop where
  stream : StreamOk drives uuid name r.now r.stream
  returned : forall d, r.returned = some d -> Carries d.source uuid (d.slot + 1)
  pending : r.reading.isSome = true -> r.returned = none

theorem runOk_failRead {uuid : List UInt8} {name : String} {r : StreamRun}
    {st : VirtualStream} {now : Nat} (h : StreamOk drives uuid name now st) :
    RunOk drives uuid name (failRead r st now) := by
  refine ⟨h, ?_, fun _ => rfl⟩
  intro d hd
  cases hd

theorem openSlot_ok {uuid : List UInt8} {name initialPath : String}
    (hown : OwnParts drives env initialPath uuid name) {st st' : VirtualStream}
    {i now now' : Nat} (h : StreamOk drives uuid name now st)
    (hopen : openSlot drives st i now = (st', now')) :
    now ≤ now' ∧ StreamOk drives uuid name now' st' := by
  unfold openSlot at hopen
  split at hopen
  · rename_i hclosed
    cases hopen
    have hpath : (st.parts i).path ≠ "" := by
      rw [Bool.and_eq_true] at hclosed
      exact bne_iff_ne.mp hclosed.1
    refine ⟨Nat.le_succ now, ?_⟩
    apply streamOk_setPart (streamOk_later (Nat.le_succ now) h)
    · intro _
      exact recorded_later (Nat.le_succ now) (h.path i hpath)
    · intro f hf
      exact carries_of_recorded hown (h.path i hpath) hf
  · cases hopen
    exact ⟨Nat.le_refl now, h⟩

theorem streamOk_closeOthers {uuid : List UInt8} {name : String} {now i : Nat}
    {st : VirtualStream} (h : StreamOk drives uuid name now st) :
    StreamOk drives uuid name now (closeOthers st i) := by
  refine ⟨h.uuid_eq, h.name_eq, ?_, ?_⟩
  · intro k hk
    have hpath : ((closeOthers st i).parts k).path = (st.parts k).path := by
      unfold closeOthers
      dsimp only
      split <;> rfl
    rw [hpath] at hk ⊢
    exact h.path k hk
  · intro k f hf
    unfold closeOthers at hf
    dsimp only at hf
    split at hf
    · exact h.fd k f hf
    · cases hf

theorem adoptPart_ok {uuid : List UInt8} {name initialPath : String}
    (hown : OwnParts drives env initialPath uuid name) {r : StreamRun} {st : VirtualStream}
    {i now : Nat} {path : String} (h : StreamOk drives uuid name now st)
    (hpath : Recorded drives uuid now path (i + 1)) (hreturned : r.returned = none) :
    RunOk drives uuid name (adoptPart drives r st i path now) := by
  have hclosed := streamOk_closeOthers (i := i) h
  unfold adoptPart
  dsimp only
  split
  · exact runOk_failRead (streamOk_later (Nat.le_succ now) hclosed)
  · rename_i hdr hhdr
    have hlater : now ≤ now + 2 := by omega
    generalize hinfo : PartInfo.mk path
      (if hdr.partOffset > 0 then hdr.partOffset
        else ((closeOthers st i).parts i).startPkgOffset)
      hdr.partDataSize (sliceOffset hdr) ((drives (now + 1)).file path) = info
    have hset : StreamOk drives uuid name (now + 2) ((closeOthers st i).setPart i info) := by
      apply streamOk_setPart (streamOk_later hlater hclosed)
      · intro _
        rw [← hinfo]
        exact recorded_later hlater hpath
      · intro f hf
        rw [← hinfo] at hf
        exact carries_of_recorded hown (recorded_later (Nat.le_succ now) hpath) hf
    split
    · exact runOk_failRead hset
    · refine ⟨hset, ?_, fun _ => hreturned⟩
      intro d hd
      change r.returned = some d at hd
      rw [hreturned] at hd
      cases hd

theorem transfer_ok {uuid : List UInt8} {name : String} {r : StreamRun} {st : VirtualStream}
    {i now pkgOffset toRead : Nat} {f : PartFile} {a : TurnAnswer}
    (h : StreamOk drives uuid name now st) (hfd : (st.parts i).fd = some f) :
    RunOk drives uuid name (transfer r st i now pkgOffset toRead f a) := by
  unfold transfer
  dsimp only
  split
  · exact runOk_failRead h
  · split
    · exact runOk_failRead h
    · generalize (if toRead < (st.parts i).partDataSize - (pkgOffset - (st.parts i).startPkgOffset)
        then toRead
        else (st.parts i).partDataSize - (pkgOffset - (st.parts i).startPkgOffset)) = chunk
      split
      · exact runOk_failRead h
      · split
        · exact runOk_failRead h
        · constructor
          · exact h
          · intro d hd
            cases hd
            exact h.fd i f hfd
          · intro hreading
            cases hreading

theorem readTurn_ok {uuid : List UInt8} {name initialPath : String}
    (hown : OwnParts drives env initialPath uuid name) {r : StreamRun} {pkgOffset count : Nat}
    {a : TurnAnswer} (h : StreamOk drives uuid name r.now r.stream)
    (hreturned : r.returned = none) :
    RunOk drives uuid name (readTurn drives env r pkgOffset count a) := by
  unfold readTurn
  dsimp only
  split
  · exact runOk_failRead h
  · rename_i i _
    have hcurrent : StreamOk drives uuid name r.now { r.stream with currentPart := i + 1 } :=
      ⟨h.uuid_eq, h.name_eq, h.path, h.fd⟩
    cases hopen : openSlot drives { r.stream with currentPart := i + 1 } i r.now with
    | mk st now =>
        have hopened := (openSlot_ok hown hcurrent hopen).2
        dsimp only
        split
        · rename_i f hfd
          exact transfer_ok hopened hfd
        · have hq : OwnQuery
              { packageUuid := r.stream.packageUuid, pkgFilename := r.stream.pkgFilename,
                partIndex := i + 1 } uuid name := ⟨h.uuid_eq, h.name_eq⟩
          split
          · rename_i now' hwait
            have hlater := (waitForPart_own hown hq hwait).1
            exact runOk_failRead (streamOk_later hlater hopened)
          · rename_i path now' hwait
            have hfound := waitForPart_own hown hq hwait
            exact adoptPart_ok hown (streamOk_later hfound.1 hopened)
              (hfound.2 path rfl) hreturned

/-!
# Runs
-/

theorem streamSystem_ok {uuid : List UInt8} {name initialPath : String}
    (hown : OwnParts drives env initialPath uuid name) {r r' : StreamRun} {l : StreamLabel}
    (h : RunOk drives uuid name r) (hnext : (streamSystem drives env).next r l = some r') :
    RunOk drives uuid name r' := by
  cases l with
  | read pkgOffset count =>
      change (if r.reading.isSome then none
        else if count = 0 ∨ pkgOffset >= r.stream.totalPkgSize then
          some (failRead r r.stream r.now)
        else some { r with reading := some (pkgOffset, count), returned := none }) = some r'
        at hnext
      split at hnext
      · cases hnext
      · split at hnext
        · cases hnext
          exact runOk_failRead h.stream
        · cases hnext
          refine ⟨h.stream, ?_, fun _ => rfl⟩
          intro d hd
          cases hd
  | turn a =>
      cases hreading : r.reading with
      | none =>
          simp only [streamSystem, hreading] at hnext
          cases hnext
      | some range =>
          simp only [streamSystem, hreading] at hnext
          cases hnext
          apply readTurn_ok hown h.stream
          apply h.pending
          rw [hreading]
          rfl

theorem virtualStreamOpen_ok {initialPath : String} {now now' : Nat} {st : VirtualStream}
    (hopen : virtualStreamOpen drives env initialPath now = Except.ok (st, now'))
    (hmulti : st.isMultipart = true)
    (hown : forall hdr, multipartReadHeader (drives (now + 1)) (localPath initialPath) = some hdr ->
      OwnParts drives env initialPath hdr.packageUuid (cTruncate 256 hdr.pkgFilename)) :
    exists hdr, multipartReadHeader (drives (now + 1)) (localPath initialPath) = some hdr ∧
      StreamOk drives hdr.packageUuid (cTruncate 256 hdr.pkgFilename) now' st := by
  unfold virtualStreamOpen at hopen
  split at hopen
  · cases hopen
  · split at hopen
    · cases hopen
      cases hmulti
    · rename_i hdr hhdr
      split at hopen
      · cases hopen
      · have hparts := hown hdr hhdr
        refine ⟨hdr, hhdr, ?_⟩
        have hinitial : Recorded drives hdr.packageUuid (now + 2) initialPath hdr.partIndex :=
          ⟨now + 1, hdr, Nat.le_succ (now + 1),
            multipartReadHeader_local hparts.plain_initial hhdr, rfl, rfl⟩
        have hempty : StreamOk drives hdr.packageUuid (cTruncate 256 hdr.pkgFilename) (now + 2)
            (multipartStream hdr) := by
          refine ⟨rfl, rfl, ?_, ?_⟩
          · intro i hi
            exact absurd rfl hi
          · intro i f hf
            cases hf
        exact resolveParts_ok hparts rfl rfl Nat.one_pos hinitial hempty hopen

/-- Every piece of data that a read of a multi-part stream returns comes from a
file that carries the UUID of the file the stream was opened with, and the index
of the slot. -/
def ReadsOwnParts (drives : Nat -> Drive) (env : FinderEnv) (initialPath : String)
    (now : Nat) : Prop :=
  forall st now' tr r d,
    virtualStreamOpen drives env initialPath now = Except.ok (st, now') ->
      st.isMultipart = true ->
      Run (streamSystem drives env) (fun _ _ => True)
        { stream := st, now := now', reading := none, returned := none } tr r ->
      r.returned = some d ->
      exists hdr, multipartReadHeader (drives (now + 1)) (localPath initialPath) = some hdr ∧
        Carries d.source hdr.packageUuid (d.slot + 1)

theorem virtualStreamRead_own_parts {initialPath : String} {now : Nat}
    (hown : forall hdr, multipartReadHeader (drives (now + 1)) (localPath initialPath) = some hdr ->
      OwnParts drives env initialPath hdr.packageUuid (cTruncate 256 hdr.pkgFilename)) :
    ReadsOwnParts drives env initialPath now := by
  intro st now' tr r d hopen hmulti hrun hreturned
  rcases virtualStreamOpen_ok hopen hmulti hown with ⟨hdr, hhdr, hst⟩
  have hstart : RunOk drives hdr.packageUuid (cTruncate 256 hdr.pkgFilename)
      { stream := st, now := now', reading := none, returned := none } := by
    refine ⟨hst, ?_, fun _ => rfl⟩
    intro d' hd'
    cases hd'
  have hrunOk := run_invariant
    (fun hinv _ hnext => streamSystem_ok (hown hdr hhdr) hinv hnext) hrun hstart
  exact ⟨hdr, hhdr, hrunOk.returned d hreturned⟩

end Identity

/-!
# Drives on which a stream reads foreign files
-/

def partHeader (uuid : UInt8) (part : Nat) : MultipartHeader where
  magic := "PS5MPKG1"
  headerVersion := 1
  partIndex := part
  totalParts := 2
  compressionType := 0
  chunkSize := 2097152
  partDataSize := 10
  totalPkgSize := 20
  pkgFilename := "game.pkg"
  titleId := "PPSA00001"
  titleName := "Game"
  packageUuid := List.replicate 16 uuid
  iconOffset := 0
  iconSize := 0
  partOffset := (part - 1) * 10
  dataOffset := 4096

def partFile (uuid : UInt8) (part : Nat) : PartFile where
  header := some (partHeader uuid part)
  size := 4106
  byte := fun _ => uuid

/-- A drive with these files, and the listings of these directories. -/
def driveOf (files : List (String × PartFile)) (dirs : List (String × List String)) : Drive where
  file := fun path => files.lookup path
  dir := fun path => dirs.lookup path
  mounted := fun path => (dirs.lookup path).isSome

/-- The first part is on a USB drive, and another package with the same file
name is in the disc drive. -/
def foreignDisc (_t : Nat) : Drive :=
  driveOf [("/mnt/usb0/game.pkg.part1", partFile 1 1), ("/mnt/disc/game.pkg.part2", partFile 2 2)]
    [("/mnt/usb0", ["game.pkg.part1"]), ("/mnt/disc", ["game.pkg.part2"])]

/-- The second part is not there, and a part of another package was staged. -/
def foreignStaged (_t : Nat) : Drive :=
  driveOf [("/mnt/usb0/game.pkg.part1", partFile 1 1),
      ("/data/pkgmgr/tmp/part_2.pkg.part", partFile 2 2)]
    [("/mnt/usb0", ["game.pkg.part1"])]

/-- The first part is replaced by another package's after the stream is opened. -/
def replacedDisc (t : Nat) : Drive :=
  driveOf [("/mnt/disc/game.pkg.part1", if t < 16 then partFile 1 1 else partFile 2 1)]
    [("/mnt/disc", ["game.pkg.part1"])]

/-- Both parts of the package, one on a USB drive and one in the disc drive. -/
def ownDisc (_t : Nat) : Drive :=
  driveOf [("/mnt/usb0/game.pkg.part1", partFile 1 1), ("/mnt/disc/game.pkg.part2", partFile 1 2)]
    [("/mnt/usb0", ["game.pkg.part1"]), ("/mnt/disc", ["game.pkg.part2"])]

/-- The slot of a first read and the UUID that its source carries. -/
def firstRead (drives : Nat -> Drive) (initialPath : String) (pkgOffset : Nat) :
    Option (Bool × Nat × Option (List UInt8)) :=
  match virtualStreamOpen drives {} initialPath 0 with
  | Except.error _ => none
  | Except.ok (st, now) =>
      (exec (streamSystem drives {})
        { stream := st, now := now, reading := none, returned := none }
        [StreamLabel.read pkgOffset 4, StreamLabel.turn {}]).bind
        (fun r => r.returned.map (fun d =>
          (st.isMultipart, d.slot, d.source.header.map (fun hdr => hdr.packageUuid))))

theorem not_readsOwnParts {drives : Nat -> Drive} {initialPath : String} {pkgOffset slot : Nat}
    {own uuid : List UInt8}
    (hread : firstRead drives initialPath pkgOffset = some (true, slot, some uuid))
    (hinitial : (multipartReadHeader (drives 1) (localPath initialPath)).map
      (fun hdr => hdr.packageUuid) = some own)
    (hne : uuid ≠ own) : ¬ ReadsOwnParts drives {} initialPath 0 := by
  intro hreads
  unfold firstRead at hread
  split at hread
  · cases hread
  · rename_i st now hopen
    rcases Option.bind_eq_some_iff.mp hread with ⟨r, hexec, hobs⟩
    rcases Option.map_eq_some_iff.mp hobs with ⟨d, hreturned, hd⟩
    rcases run_of_exec hexec with ⟨tr, _, hrun⟩
    rcases Prod.mk.inj hd with ⟨hmulti, hrest⟩
    rcases Prod.mk.inj hrest with ⟨_, huuid⟩
    rcases hreads st now tr r d hopen hmulti hrun hreturned with ⟨hdr, hhdr, hcarries⟩
    rcases hcarries with ⟨source, hsource, _, hsame, _⟩
    rw [hsource] at huuid
    rw [hhdr] at hinitial
    have hown : hdr.packageUuid = own := Option.some.inj hinitial
    have hread' : source.packageUuid = uuid := Option.some.inj huuid
    rw [hread', hown] at hsame
    exact hne hsame

/-- The file name fallback of the search, the unchecked staged file, and a file
that was replaced between the check and the use. -/
theorem virtualStreamRead_foreign_parts :
    ¬ ReadsOwnParts foreignDisc {} "/mnt/usb0/game.pkg.part1" 0 ∧
      ¬ ReadsOwnParts foreignStaged {} "/mnt/usb0/game.pkg.part1" 0 ∧
      ¬ ReadsOwnParts replacedDisc {} "/mnt/disc/game.pkg.part1" 0 := by
  refine ⟨?_, ?_, ?_⟩
  · have hread : firstRead foreignDisc "/mnt/usb0/game.pkg.part1" 12 =
        some (true, 1, some (List.replicate 16 2)) := by decide
    have hinitial : (multipartReadHeader (foreignDisc 1) (localPath "/mnt/usb0/game.pkg.part1")).map
        (fun hdr => hdr.packageUuid) = some (List.replicate 16 1) := by decide
    exact not_readsOwnParts hread hinitial (by decide)
  · have hread : firstRead foreignStaged "/mnt/usb0/game.pkg.part1" 12 =
        some (true, 1, some (List.replicate 16 2)) := by decide
    have hinitial : (multipartReadHeader (foreignStaged 1) (localPath "/mnt/usb0/game.pkg.part1")).map
        (fun hdr => hdr.packageUuid) = some (List.replicate 16 1) := by decide
    exact not_readsOwnParts hread hinitial (by decide)
  · have hread : firstRead replacedDisc "/mnt/disc/game.pkg.part1" 2 =
        some (true, 0, some (List.replicate 16 2)) := by decide
    have hinitial : (multipartReadHeader (replacedDisc 1) (localPath "/mnt/disc/game.pkg.part1")).map
        (fun hdr => hdr.packageUuid) = some (List.replicate 16 1) := by decide
    exact not_readsOwnParts hread hinitial (by decide)

/-!
# Drives that meet the condition
-/

theorem ownDisc_file {t : Nat} {path : String} {f : PartFile}
    (h : (ownDisc t).file path = some f) :
    (path = "/mnt/usb0/game.pkg.part1" ∧ f = partFile 1 1) ∨
      (path = "/mnt/disc/game.pkg.part2" ∧ f = partFile 1 2) := by
  change List.lookup path
    [("/mnt/usb0/game.pkg.part1", partFile 1 1), ("/mnt/disc/game.pkg.part2", partFile 1 2)] =
    some f at h
  rw [List.lookup_cons] at h
  split at h
  · rename_i hpath
    cases h
    exact Or.inl ⟨beq_iff_eq.mp hpath, rfl⟩
  · rw [List.lookup_cons] at h
    split at h
    · rename_i hpath
      cases h
      exact Or.inr ⟨beq_iff_eq.mp hpath, rfl⟩
    · cases h

theorem ownDisc_header {t : Nat} {path : String} {hdr : MultipartHeader}
    (h : multipartReadHeader (ownDisc t) path = some hdr) :
    (localPath path = "/mnt/usb0/game.pkg.part1" ∧ hdr = partHeader 1 1) ∨
      (localPath path = "/mnt/disc/game.pkg.part2" ∧ hdr = partHeader 1 2) := by
  rcases multipartReadHeader_file h with ⟨f, hfile, hhdr, _⟩
  rcases ownDisc_file hfile with ⟨hpath, hf⟩ | ⟨hpath, hf⟩
  · rw [hf] at hhdr
    exact Or.inl ⟨hpath, (Option.some.inj hhdr).symm⟩
  · rw [hf] at hhdr
    exact Or.inr ⟨hpath, (Option.some.inj hhdr).symm⟩

theorem length_of_localPath {path base : String} (h : localPath path = base) :
    path.toList.length ≤ base.toList.length + 7 := by
  unfold localPath at h
  split at h
  · have hlist := congrArg String.toList h
    rw [String.toList_ofList] at hlist
    have hlen := congrArg List.length hlist
    rw [List.length_drop] at hlen
    omega
  · rw [h]
    omega

theorem stagedPath_head (part : Nat) : (stagedPath {} part).toList[1]? = some 'd' := by
  unfold stagedPath cTruncate tmpDir
  rw [if_neg (by decide), String.toList_ofList, List.getElem?_take_of_lt (by decide)]
  simp [String.toList_append]

theorem ownParts_ownDisc :
    OwnParts ownDisc {} "/mnt/usb0/game.pkg.part1" (List.replicate 16 1) "game.pkg" := by
  have hcarries1 : Carries (partFile 1 1) (List.replicate 16 1) 1 :=
    ⟨partHeader 1 1, rfl, by decide, rfl, rfl⟩
  have hcarries2 : Carries (partFile 1 2) (List.replicate 16 1) 2 :=
    ⟨partHeader 1 2, rfl, by decide, rfl, rfl⟩
  constructor
  · intro t path hdr hhdr _ _
    rcases ownDisc_header hhdr with ⟨_, heq⟩ | ⟨_, heq⟩
    · rw [heq]
      rfl
    · rw [heq]
      rfl
  · intro t part hdr hhdr
    have hplace := stagedPath_head part
    have hplain : localPath (stagedPath {} part) = stagedPath {} part := by
      unfold localPath
      rw [if_neg]
      unfold hasPrefix
      cases hchars : (stagedPath {} part).toList with
      | nil => decide
      | cons c cs =>
          rw [hchars] at hplace
          cases cs with
          | nil => cases hplace
          | cons c' cs =>
              have hc' : c' = 'd' := by simpa using hplace
              rw [hc']
              simp [List.isPrefixOf]
    rcases ownDisc_header hhdr with ⟨hpath, _⟩ | ⟨hpath, _⟩
    · rw [hplain] at hpath
      rw [hpath] at hplace
      exact absurd hplace (by decide)
    · rw [hplain] at hpath
      rw [hpath] at hplace
      exact absurd hplace (by decide)
  · intro t t' path hdr f _ hhdr _ hfile
    have hsame : forall base : String, hasPrefix "file://" base = false -> path = base ->
        localPath path = base := by
      intro base hbase hpath
      unfold localPath
      rw [hpath, if_neg (by simp [hbase])]
    rcases ownDisc_file hfile with ⟨hpath, hf⟩ | ⟨hpath, hf⟩
    · have hlocal := hsame _ (by decide) hpath
      rcases ownDisc_header hhdr with ⟨_, heq⟩ | ⟨hother, _⟩
      · rw [hf, heq]
        exact hcarries1
      · rw [hlocal] at hother
        exact absurd hother (by decide)
    · have hlocal := hsame _ (by decide) hpath
      rcases ownDisc_header hhdr with ⟨hother, _⟩ | ⟨_, heq⟩
      · rw [hlocal] at hother
        exact absurd hother (by decide)
      · rw [hf, heq]
        exact hcarries2
  · intro t path hdr hhdr
    rcases ownDisc_header hhdr with ⟨hpath, _⟩ | ⟨hpath, _⟩
    · exact Nat.lt_of_le_of_lt (length_of_localPath hpath) (by decide)
    · exact Nat.lt_of_le_of_lt (length_of_localPath hpath) (by decide)
  · decide

/-- A read of the second part, taken from the disc drive. -/
theorem virtualStreamRead_own_parts_ownDisc :
    ReadsOwnParts ownDisc {} "/mnt/usb0/game.pkg.part1" 0 ∧
      firstRead ownDisc "/mnt/usb0/game.pkg.part1" 12 =
        some (true, 1, some (List.replicate 16 1)) := by
  refine ⟨virtualStreamRead_own_parts ?_, by decide⟩
  intro hdr hhdr
  rcases ownDisc_header hhdr with ⟨_, heq⟩ | ⟨_, heq⟩
  · rw [heq]
    exact ownParts_ownDisc
  · rw [heq]
    exact ownParts_ownDisc

end Multipart
end PkgManager
