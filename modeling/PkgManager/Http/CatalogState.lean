import PkgManager.Http.Catalog

/-!
# What a scan leaves recorded

The last entry of a file decides what is recorded of it.  An entry without a size keeps the size
that is there, and the request that its report sends may decide the availability.
-/

namespace PkgManager
namespace Http

open CString
open PkgManager.Parser
open Transition

/-!
# All files of a scan
-/

/-- The addresses of listed files. -/
def addresses (files : List (CatalogEntry × Text)) : List Text :=
  files.map Prod.snd

/-- The size that is recorded of a file after these entries. -/
def sizeAfter (size : Nat) (files : List (CatalogEntry × Text)) (url : Text) : Nat :=
  files.foldl (fun size x => if x.2 = url then x.1.size.getD size else size) size

theorem mem_seen_emitPkg (head : Option (Text -> Nat × Nat -> Nat × Nat)) (s : ScanCtx)
    (url : Text) (size mtime : Nat) (haveMeta : Bool) (hash : UInt64) :
    hash ∈ (emitPkg head s url size mtime haveMeta).seen ↔ hash ∈ s.seen ∨ hash = fnv1a64 url := by
  have hadd : hash ∈ (seenAdd s url).2.seen ↔ hash ∈ s.seen ∨ hash = fnv1a64 url := by
    unfold seenAdd
    split
    · rename_i hseen
      have hmem := List.contains_iff_mem.mp hseen
      exact ⟨Or.inl, fun h => h.elim id (fun heq => heq ▸ hmem)⟩
    · rw [List.mem_append, List.mem_singleton]
  unfold emitPkg
  rcases hs : seenAdd s url with ⟨new, s'⟩
  rw [hs] at hadd
  dsimp only at hadd ⊢
  split
  · exact hadd
  split
  · exact hadd
  · exact hadd

section
variable {urls : Finset Text} (hfew : urls.card < httpStateSlots)
variable (hkeys : Set.InjOn fstateKey (urls : Set Text))
variable (wantMeta : Bool) (server : Server)
include hfew hkeys

omit hfew in
theorem key_ne {url url' : Text} (hurl : url ∈ urls) (hurl' : url' ∈ urls) (hne : url' ≠ url) :
    fstateKey url' ≠ fstateKey url :=
  fun heq => hne (hkeys hurl' hurl heq)

omit hkeys in
theorem scanFiles_sound {st : ScanCtx × FileStates} (h : Sound urls st.2)
    {files : List (CatalogEntry × Text)} (hfiles : forall url, url ∈ addresses files -> url ∈ urls) :
    Sound urls (scanFiles wantMeta server st files).2 := by
  induction files generalizing st with
  | nil => exact h
  | cons x rest ih =>
      have hx := hfiles x.2 List.mem_cons_self
      exact ih (scanAt_record hfew wantMeta server h x.1 hx).1
        (fun url hurl => hfiles url (List.mem_cons_of_mem _ hurl))

/-- The records of files that are not listed stay as they are. -/
theorem scanFiles_frame {st : ScanCtx × FileStates} (h : Sound urls st.2)
    {files : List (CatalogEntry × Text)} (hfiles : forall url, url ∈ addresses files -> url ∈ urls)
    {url : Text} (hurl : url ∈ urls) (hnot : url ∉ addresses files) :
    recordOf (scanFiles wantMeta server st files).2 url = recordOf st.2 url := by
  induction files generalizing st with
  | nil => rfl
  | cons x rest ih =>
      have hx := hfiles x.2 List.mem_cons_self
      have hne : url ≠ x.2 := fun heq => hnot (heq ▸ List.mem_cons_self)
      rw [<- scanAt_frame hfew wantMeta server h x.1 hx (key_ne hkeys hx hurl hne)]
      exact ih (scanAt_record hfew wantMeta server h x.1 hx).1
        (fun url hurl => hfiles url (List.mem_cons_of_mem _ hurl))
        (fun hmem => hnot (List.mem_cons_of_mem _ hmem))

theorem scanFiles_size {st : ScanCtx × FileStates} (h : Sound urls st.2)
    {files : List (CatalogEntry × Text)} (hfiles : forall url, url ∈ addresses files -> url ∈ urls)
    {url : Text} (hurl : url ∈ urls) :
    (recordOf (scanFiles wantMeta server st files).2 url).expectedSize =
      sizeAfter (recordOf st.2 url).expectedSize files url := by
  induction files generalizing st with
  | nil => rfl
  | cons x rest ih =>
      have hx := hfiles x.2 List.mem_cons_self
      rcases scanAt_record hfew wantMeta server h x.1 hx with ⟨hsound, hrecord⟩
      have hstep : (recordOf (scanAt wantMeta server st x.1 x.2).2 url).expectedSize =
          if x.2 = url then x.1.size.getD (recordOf st.2 url).expectedSize
          else (recordOf st.2 url).expectedSize := by
        by_cases heq : x.2 = url
        · rw [if_pos heq, <- heq, hrecord]
        · rw [if_neg heq,
            scanAt_frame hfew wantMeta server h x.1 hx (key_ne hkeys hx hurl (Ne.symm heq))]
      unfold sizeAfter
      rw [List.foldl_cons, <- hstep]
      exact ih hsound (fun url hurl => hfiles url (List.mem_cons_of_mem _ hurl))

omit hfew hkeys in
theorem scanFiles_seen (st : ScanCtx × FileStates) (files : List (CatalogEntry × Text))
    (hash : UInt64) :
    hash ∈ (scanFiles wantMeta server st files).1.seen ↔
      hash ∈ st.1.seen ∨ exists url, url ∈ addresses files ∧ hash = fnv1a64 url := by
  induction files generalizing st with
  | nil => exact ⟨Or.inl, fun h => h.elim id (fun ⟨_, hmem, _⟩ => absurd hmem List.not_mem_nil)⟩
  | cons x rest ih =>
      have hstep := ih (scanAt wantMeta server st x.1 x.2)
      rw [scanAt_fst, mem_seen_emitPkg] at hstep
      rw [scanFiles, List.foldl_cons]
      refine hstep.trans ?_
      constructor
      · rintro ((hold | hnew) | ⟨url, hurl, hhash⟩)
        · exact Or.inl hold
        · exact Or.inr ⟨x.2, List.mem_cons_self, hnew⟩
        · exact Or.inr ⟨url, List.mem_cons_of_mem _ hurl, hhash⟩
      · rintro (hold | ⟨url, hurl, hhash⟩)
        · exact Or.inl (Or.inl hold)
        · rcases List.mem_cons.mp hurl with heq | hmem
          · exact Or.inl (Or.inr (heq ▸ hhash))
          · exact Or.inr ⟨url, hmem, hhash⟩

end

/-!
# The last entry of a file
-/

/-- An entry of a file behind which the file is not listed again. -/
def LastEntry (files before : List (CatalogEntry × Text)) (entry : CatalogEntry) (url : Text) :
    Prop :=
  exists behind, files = before ++ (entry, url) :: behind ∧ url ∉ addresses behind

/-- What the catalog says of a file. -/
def CatalogEntry.record (entry : CatalogEntry) : FileRecord where
  expectedSize := entry.size.getD 0
  unavailable := entry.nowhere

/-- The record of each listed file is what its entry says, and other records are unchanged. -/
def Follows (urls : Finset Text) (files : List (CatalogEntry × Text)) (t t' : FileStates) : Prop :=
  (forall before entry url, LastEntry files before entry url ->
      recordOf t' url = entry.record) ∧
    forall url, url ∈ urls -> url ∉ addresses files -> recordOf t' url = recordOf t url

/-- The entry gives the size, or no size is recorded and the entries before it leave none. -/
def SizeKnown (t : FileStates) (before : List (CatalogEntry × Text)) (entry : CatalogEntry)
    (url : Text) : Prop :=
  entry.size = none -> sizeAfter (recordOf t url).expectedSize before url = 0

/-- When the report of the entry asks for one byte, the answer says nothing of the availability
or the same as the entry. -/
def Uncontradicted (wantMeta : Bool) (server : Server) (s : ScanCtx)
    (before : List (CatalogEntry × Text)) (entry : CatalogEntry) (url : Text) : Prop :=
  wantMeta = true -> entry.size = none -> fnv1a64 url ∉ s.seen -> url ∉ addresses before ->
    endsWithCi (urlName url) ".pkg" = true -> headTells (server.head url) = false ->
      (rangeVerdict (server.range url).status).getD entry.nowhere = entry.nowhere

def Telling (wantMeta : Bool) (server : Server) (s : ScanCtx) (t : FileStates)
    (files : List (CatalogEntry × Text)) : Prop :=
  forall before entry url, LastEntry files before entry url ->
    SizeKnown t before entry url ∧ Uncontradicted wantMeta server s before entry url

section
variable {urls : Finset Text} (hfew : urls.card < httpStateSlots)
variable (hkeys : Set.InjOn fstateKey (urls : Set Text))
variable (wantMeta : Bool) (server : Server)
include hfew hkeys

omit hfew in
theorem hash_eq_iff {url url' : Text} (hurl : url ∈ urls) (hurl' : url' ∈ urls) :
    fnv1a64 url = fnv1a64 url' ↔ url = url' := by
  constructor
  · intro heq
    apply hkeys hurl hurl'
    unfold fstateKey
    rw [heq]
  · intro heq
    rw [heq]

omit hfew in
/-- The flags of the entry stand when no answer contradicts them. -/
theorem verdictOf_eq_iff (st : ScanCtx × FileStates) {before : List (CatalogEntry × Text)}
    (hbefore : forall url, url ∈ addresses before -> url ∈ urls) (entry : CatalogEntry)
    {url : Text} (hurl : url ∈ urls) :
    verdictOf wantMeta server (scanFiles wantMeta server st before).1 entry url = entry.nowhere ↔
      Uncontradicted wantMeta server st.1 before entry url := by
  have hnew : (seenAdd (scanFiles wantMeta server st before).1 url).1 = true ↔
      fnv1a64 url ∉ st.1.seen ∧ url ∉ addresses before := by
    have hseen := scanFiles_seen wantMeta server st before (fnv1a64 url)
    have hlisted : (exists url', url' ∈ addresses before ∧ fnv1a64 url = fnv1a64 url') ↔
        url ∈ addresses before := by
      constructor
      · rintro ⟨url', hmem, heq⟩
        rw [(hash_eq_iff hkeys hurl (hbefore url' hmem)).mp heq]
        exact hmem
      · intro hmem
        exact ⟨url, hmem, rfl⟩
    rw [hlisted] at hseen
    unfold seenAdd
    rw [<- not_or, <- hseen, <- List.contains_iff_mem]
    split
    · rename_i hold
      exact ⟨fun h => absurd h Bool.false_ne_true, fun h => absurd hold h⟩
    · rename_i hold
      exact ⟨fun _ => hold, fun _ => rfl⟩
  unfold verdictOf Uncontradicted
  by_cases hasks : asksRange wantMeta server (scanFiles wantMeta server st before).1 url
      entry.size.isSome = true
  · rw [if_pos hasks]
    unfold asksRange at hasks
    simp only [Bool.and_eq_true, Bool.not_eq_true', hnew, Option.isSome_eq_false_iff,
      Option.isNone_iff_eq_none] at hasks
    rcases hasks with ⟨⟨⟨⟨hseen, hlisted⟩, hname⟩, hwant, hsize⟩, htells⟩
    exact ⟨fun h _ _ _ _ _ _ => h, fun h => h hwant hsize hseen hlisted hname htells⟩
  · rw [if_neg hasks]
    refine ⟨fun _ hwant hsize hseen hlisted hname htells => absurd ?_ hasks, fun _ => rfl⟩
    unfold asksRange
    simp only [Bool.and_eq_true, Bool.not_eq_true', hnew, Option.isSome_eq_false_iff,
      Option.isNone_iff_eq_none]
    exact ⟨⟨⟨⟨hseen, hlisted⟩, hname⟩, hwant, hsize⟩, htells⟩

omit hfew hkeys in
/-- The size that is left is what the entry gives. -/
theorem sizeLeft_eq_iff (t : FileStates) (before : List (CatalogEntry × Text))
    (entry : CatalogEntry) (url : Text) :
    entry.size.getD (sizeAfter (recordOf t url).expectedSize before url) = entry.size.getD 0 ↔
      SizeKnown t before entry url := by
  unfold SizeKnown
  cases entry.size with
  | none => exact ⟨fun h _ => h, fun h => h rfl⟩
  | some size => exact ⟨fun _ h => absurd h (Option.some_ne_none _), fun _ => rfl⟩

/-- The record of a listed file after the scan is made by its last entry. -/
theorem record_of_last {st : ScanCtx × FileStates} (h : Sound urls st.2)
    {files before : List (CatalogEntry × Text)} {entry : CatalogEntry} {url : Text}
    (hfiles : forall url, url ∈ addresses files -> url ∈ urls)
    (hlast : LastEntry files before entry url) :
    recordOf (scanFiles wantMeta server st files).2 url = entry.record ↔
      SizeKnown st.2 before entry url ∧ Uncontradicted wantMeta server st.1 before entry url := by
  rcases hlast with ⟨behind, heq, hnot⟩
  rw [heq, addresses, List.map_append, List.map_cons] at hfiles
  have hbefore : forall url, url ∈ addresses before -> url ∈ urls :=
    fun url hmem => hfiles url (List.mem_append_left _ hmem)
  have hurl : url ∈ urls := hfiles url (List.mem_append_right _ List.mem_cons_self)
  have hbehind : forall url, url ∈ addresses behind -> url ∈ urls :=
    fun url hmem => hfiles url (List.mem_append_right _ (List.mem_cons_of_mem _ hmem))
  have hsound := scanFiles_sound hfew wantMeta server h hbefore
  rcases scanAt_record hfew wantMeta server hsound entry hurl with ⟨hafter, hrecord⟩
  have hsplit : scanFiles wantMeta server st files =
      scanFiles wantMeta server
        (scanAt wantMeta server (scanFiles wantMeta server st before) entry url) behind := by
    rw [heq]
    exact List.foldl_append
  rw [hsplit, scanFiles_frame hfew hkeys wantMeta server hafter hbehind hurl hnot, hrecord,
    scanFiles_size hfew hkeys wantMeta server h hbefore hurl]
  unfold CatalogEntry.record
  rw [FileRecord.mk.injEq, sizeLeft_eq_iff,
    verdictOf_eq_iff hkeys wantMeta server st hbefore entry hurl]

/-- A scan follows its catalog exactly when its entries tell what is to be recorded. -/
theorem scanFiles_follows_iff {st : ScanCtx × FileStates} (h : Sound urls st.2)
    {files : List (CatalogEntry × Text)}
    (hfiles : forall url, url ∈ addresses files -> url ∈ urls) :
    Follows urls files st.2 (scanFiles wantMeta server st files).2 ↔
      Telling wantMeta server st.1 st.2 files := by
  constructor
  · rintro ⟨hlisted, _⟩ before entry url hlast
    exact (record_of_last hfew hkeys wantMeta server h hfiles hlast).mp
      (hlisted before entry url hlast)
  · intro htelling
    refine ⟨fun before entry url hlast => ?_, fun url hurl hnot => ?_⟩
    · exact (record_of_last hfew hkeys wantMeta server h hfiles hlast).mpr
        (htelling before entry url hlast)
    · exact scanFiles_frame hfew hkeys wantMeta server h hfiles hurl hnot

end

/-!
# Runs
-/

/-- What is done with the table: a scan of a catalog, an update of the availability, a request for
one byte (as when a file is opened for streaming) or a lookup. -/
inductive StateAction where
  | scanCatalog (base : Text) (wantMeta : Bool) (server : Server) (s : ScanCtx) (body : Text)
  | setUnavailable (url : Text) (unavailable : Bool)
  | rangeProbe (url : Text) (status : Int)
  | lookup (url : Text)

/-- The addresses that an action is about. -/
def StateAction.addresses : StateAction -> List Text
  | scanCatalog base _ _ _ body => Http.addresses (catalogListed base body)
  | setUnavailable url _ => [url]
  | rangeProbe url _ => [url]
  | lookup url => [url]

def StateAction.Within (urls : Finset Text) (a : StateAction) : Prop :=
  forall url, url ∈ a.addresses -> url ∈ urls

def fileSystem : System FileStates StateAction where
  next t
    | .scanCatalog base wantMeta server s body =>
        match scanCatalog base wantMeta server (s, t) body with
        | some st => some st.2
        | none => some t
    | .setUnavailable url unavailable => some (httpSourceSetUnavailable t url unavailable)
    | .rangeProbe url status => some (rangeProbeSt t url status)
    | .lookup _ => some t

section
variable {urls : Finset Text} (hfew : urls.card < httpStateSlots)
include hfew

theorem next_sound {t t' : FileStates} {a : StateAction} (h : Sound urls t)
    (hin : a.Within urls) (hnext : fileSystem.next t a = some t') : Sound urls t' := by
  cases a with
  | scanCatalog base wantMeta server s body =>
      unfold fileSystem at hnext
      dsimp only at hnext
      cases hscan : scanCatalog base wantMeta server (s, t) body with
      | none =>
          rw [hscan] at hnext
          cases hnext
          exact h
      | some st =>
          rw [hscan] at hnext
          cases hnext
          rw [scanCatalog_eq base wantMeta server hscan]
          exact scanFiles_sound hfew wantMeta server h hin
  | setUnavailable url unavailable =>
      cases hnext
      exact h.setUnavailable hfew (hin url List.mem_cons_self) unavailable
  | rangeProbe url status =>
      cases hnext
      exact h.rangeProbe hfew (hin url List.mem_cons_self) status
  | lookup url =>
      cases hnext
      exact h

theorem run_sound {tr : List (FileStates × StateAction)} {t : FileStates}
    (hrun : Run fileSystem (fun _ a => a.Within urls) FileStates.start tr t) : Sound urls t :=
  run_invariant (next_sound hfew) hrun (sound_start urls)

/-- After any run over few addresses without collisions, a scan that succeeds follows its catalog
exactly when the entries tell what is to be recorded. -/
theorem scanCatalog_follows_iff (hkeys : Set.InjOn fstateKey (urls : Set Text))
    {tr : List (FileStates × StateAction)} {t : FileStates}
    (hrun : Run fileSystem (fun _ a => a.Within urls) FileStates.start tr t)
    (base : Text) (wantMeta : Bool) (server : Server) (s : ScanCtx) (body : Text)
    (hin : (StateAction.scanCatalog base wantMeta server s body).Within urls)
    {st : ScanCtx × FileStates} (hscan : scanCatalog base wantMeta server (s, t) body = some st) :
    Follows urls (catalogListed base body) t st.2 ↔
      Telling wantMeta server s t (catalogListed base body) := by
  rw [scanCatalog_eq base wantMeta server hscan]
  exact scanFiles_follows_iff hfew hkeys wantMeta server (run_sound hfew hrun) hin

end

/-!
# A file that is listed without its size
-/

def gatewayBase : Text := ascii "http://h/"

def gatewayFile : Text := ascii "http://h/files/a.pkg"

def sizedCatalog : Text := ascii "\x7b\"files\":[\x7b\"path\":\"a.pkg\",\"size\":5\x7d]\x7d"

def sizelessCatalog : Text := ascii "\x7b\"files\":[\x7b\"path\":\"a.pkg\"\x7d]\x7d"

def sizedEntry : CatalogEntry where
  path := ascii "a.pkg"
  size := some 5
  mtime := 0
  localCopy := none
  r2 := none

/-- The file on the server has another size than the catalog says. -/
def replacedServer : Server where
  head := fun _ => { status := 200, contentLength := 7, lastModified := 0, rangeTotal := 0 }
  range := fun _ => { status := 206, contentLength := 1, lastModified := 0, rangeTotal := 7 }

def gatewayScan (body : Text) : StateAction :=
  .scanCatalog gatewayBase true replacedServer ScanCtx.start body

def scanned (t : FileStates) (body : Text) : ScanCtx × FileStates :=
  (scanCatalog gatewayBase true replacedServer (ScanCtx.start, t) body).getD (ScanCtx.start, t)

theorem sized_listed : catalogListed gatewayBase sizedCatalog = [(sizedEntry, gatewayFile)] := by
  decide +kernel

theorem sizeless_listed : catalogListed gatewayBase sizelessCatalog =
    [({ sizedEntry with size := none }, gatewayFile)] := by
  decide +kernel

theorem scanned_eq {t : FileStates} {body : Text} (hlist : (catalogList body).isSome = true) :
    scanCatalog gatewayBase true replacedServer (ScanCtx.start, t) body = some (scanned t body) := by
  rcases Option.isSome_iff_exists.mp hlist with ⟨list, hlist⟩
  unfold scanned scanCatalog
  rw [hlist]
  rfl

theorem lastEntry_singleton {entry entry' : CatalogEntry} {url url' : Text}
    {before : List (CatalogEntry × Text)} (h : LastEntry [(entry, url)] before entry' url') :
    before = [] ∧ entry' = entry ∧ url' = url := by
  rcases h with ⟨behind, heq, _⟩
  cases before with
  | nil =>
      cases heq
      exact ⟨rfl, rfl, rfl⟩
  | cons x rest =>
      rw [List.cons_append] at heq
      have hlong := congrArg List.length (List.cons.inj heq).2
      rw [List.length_append, List.length_cons] at hlong
      exact absurd hlong (Nat.succ_ne_zero _).symm

theorem within_gateway {body : Text} {entry : CatalogEntry}
    (hlisted : catalogListed gatewayBase body = [(entry, gatewayFile)]) :
    (gatewayScan body).Within {gatewayFile} := by
  intro url hurl
  have hmem : url ∈ addresses (catalogListed gatewayBase body) := hurl
  rw [hlisted] at hmem
  exact Finset.mem_singleton.mpr (List.mem_singleton.mp hmem)

theorem one_file_few : ({gatewayFile} : Finset Text).card < httpStateSlots := by
  rw [Finset.card_singleton]
  decide

theorem one_file_keys : Set.InjOn fstateKey (({gatewayFile} : Finset Text) : Set Text) := by
  rw [Finset.coe_singleton]
  exact Set.injOn_singleton _ _

/-- The first scan of a catalog that gives the size. -/
theorem scanCatalog_follows_sized :
    Follows {gatewayFile} (catalogListed gatewayBase sizedCatalog) FileStates.start
      (scanned FileStates.start sizedCatalog).2 := by
  refine (scanCatalog_follows_iff one_file_few one_file_keys Run.nil gatewayBase true
    replacedServer ScanCtx.start sizedCatalog (within_gateway sized_listed)
    (scanned_eq (by decide))).mpr ?_
  rw [sized_listed]
  intro before entry url hlast
  rcases lastEntry_singleton hlast with ⟨rfl, rfl, rfl⟩
  exact ⟨fun h => absurd h (Option.some_ne_none 5), fun _ h => absurd h (Option.some_ne_none 5)⟩

/-- A catalog that no longer gives the size leaves the size of the catalog before. -/
theorem scanCatalog_stale_size :
    ¬forall urls : Finset Text, urls.card < httpStateSlots ->
      Set.InjOn fstateKey (urls : Set Text) ->
      forall tr t, Run fileSystem (fun _ a => a.Within urls) FileStates.start tr t ->
      forall base wantMeta server s body,
        (StateAction.scanCatalog base wantMeta server s body).Within urls ->
      forall st, scanCatalog base wantMeta server (s, t) body = some st ->
        Follows urls (catalogListed base body) t st.2 := by
  intro h
  have hfirst : fileSystem.next FileStates.start (gatewayScan sizedCatalog) =
      some (scanned FileStates.start sizedCatalog).2 := by
    unfold fileSystem gatewayScan
    dsimp only
    rw [scanned_eq (by decide)]
  have hrun : Run fileSystem (fun _ a => a.Within {gatewayFile}) FileStates.start
      [(FileStates.start, gatewayScan sizedCatalog)] (scanned FileStates.start sizedCatalog).2 :=
    run_single (within_gateway sized_listed) hfirst
  have hfollows := h {gatewayFile} one_file_few one_file_keys _ _ hrun gatewayBase true
    replacedServer ScanCtx.start sizelessCatalog (within_gateway sizeless_listed) _
    (scanned_eq (by decide))
  rw [sizeless_listed] at hfollows
  have hrecord := hfollows.1 [] _ gatewayFile ⟨[], rfl, List.not_mem_nil⟩
  exact absurd hrecord (by decide +kernel)

end Http
end PkgManager
