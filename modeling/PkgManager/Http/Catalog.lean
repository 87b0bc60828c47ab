import PkgManager.Http.FileStates
import PkgManager.Transition.System

/-!
# The catalog of a gateway

A scan goes over the entries in their order.  Each entry that has an address is written to the
table before it is reported, and the report may ask the server for the size.
-/

namespace PkgManager
namespace Http

open CString
open PkgManager.Parser
open Transition

/-!
# Entries
-/

/-- {lit}`json_get_bool` over a field that is not known: what the object says. -/
def jsonGetFlag (obj : Text) (key : String) : Option Bool :=
  match jsonValue key obj with
  | none => none
  | some v =>
      if startsWith "true" v || v.head? == some 49 then some true
      else if startsWith "false" v || v.head? == some 48 then some false
      else none

structure CatalogEntry where
  path : Text
  size : Option Nat
  mtime : Nat
  localCopy : Option Bool
  r2 : Option Bool
deriving DecidableEq

/-- Listed but stored nowhere. -/
def CatalogEntry.nowhere (entry : CatalogEntry) : Bool :=
  entry.localCopy == some false && entry.r2 == some false

def entryOfObject (obj : Text) : CatalogEntry where
  path := (jsonGetStr obj "path" httpUrlMax []).1
  size := jsonGetU64 obj "size"
  mtime := (jsonGetU64 obj "mtime").getD 0
  localCopy := jsonGetFlag obj "local"
  r2 := jsonGetFlag obj "r2"

/-- One turn of the loop: the entry, if any, and the text behind it.  The loop ends where there
is none. -/
def catalogEntry (p : Text) : Option (Option CatalogEntry × Text) :=
  match p with
  | [] => none
  | b :: rest =>
      if b = 123 then
        (jsonMatch (p ++ [93])).map (fun parts =>
          (some (entryOfObject parts.1), parts.2.dropLast))
      else some (none, rest)

/-- The address of an entry, when it has a path and there is room for it. -/
def catalogUrl (base : Text) (entry : CatalogEntry) : Option Text :=
  let enc := pctEncodePath httpUrlMax (entry.path.dropWhile (fun b => b == 47))
  if entry.path = [] then none
  else if httpUrlMax ≤ base.length + 6 + enc.length then none
  else some (base ++ ascii "files/" ++ enc)

/-!
# Requests of a report
-/

/-- What a request finds. -/
structure Answered where
  status : Int
  contentLength : Int
  lastModified : Nat
  rangeTotal : Nat

/-- What the server answers to a {lit}`HEAD` request and to a request for one byte. -/
structure Server where
  head : Text -> Answered
  range : Text -> Answered

/-- What the answer to a request for one byte says of the availability. -/
def rangeVerdict (status : Int) : Option Bool :=
  if status = 404 ∨ status = 410 then some true
  else if status = 206 then some false
  else none

/-- {lit}`range_probe_st`, as far as the table goes. -/
def rangeProbeSt (t : FileStates) (url : Text) (status : Int) : FileStates :=
  match rangeVerdict status with
  | some unavailable => httpSourceSetUnavailable t url unavailable
  | none => t

def headTells (a : Answered) : Bool :=
  decide (a.status = 200) && decide (0 ≤ a.contentLength)

section
variable (base : Text) (wantMeta : Bool) (server : Server)

/-- The size and time that a report asks for. -/
def askedMeta (url : Text) (given : Nat × Nat) : Nat × Nat :=
  if headTells (server.head url) then
    ((server.head url).contentLength.toNat, (server.head url).lastModified)
  else if (server.range url).status = 206 ∧ (server.range url).rangeTotal > 0 then
    ((server.range url).rangeTotal, given.2)
  else given

/-- A report of a new package whose size is wanted and not given asks for one byte when the
{lit}`HEAD` request does not tell the size. -/
def asksRange (s : ScanCtx) (url : Text) (haveMeta : Bool) : Bool :=
  (seenAdd s url).1 && endsWithCi (urlName url) ".pkg" && (wantMeta && !haveMeta) &&
    !headTells (server.head url)

/-- {lit}`emit_pkg`, with what its request leaves in the table. -/
def emitFile (st : ScanCtx × FileStates) (url : Text) (size mtime : Nat) (haveMeta : Bool) :
    ScanCtx × FileStates :=
  (emitPkg (if wantMeta then some (askedMeta server) else none) st.1 url size mtime haveMeta,
    if asksRange wantMeta server st.1 url haveMeta then
      rangeProbeSt st.2 url (server.range url).status
    else st.2)

/-- An entry that has an address. -/
def scanAt (st : ScanCtx × FileStates) (entry : CatalogEntry) (url : Text) :
    ScanCtx × FileStates :=
  let t := match entry.size with
    | some size => expectedSizeSet st.2 url size
    | none => st.2
  emitFile wantMeta server (st.1, httpSourceSetUnavailable t url entry.nowhere) url
    (entry.size.getD 0) (entry.mtime % 2 ^ 32) entry.size.isSome

/-- The loop over the text between the brackets.  Each turn takes at least one byte. -/
def scanCatalogFrom : (turns : Nat) -> ScanCtx × FileStates -> Text -> ScanCtx × FileStates
  | 0, st, _ => st
  | turns + 1, st, p =>
      match catalogEntry (p.dropWhile isBetween) with
      | none => st
      | some (none, rest) => scanCatalogFrom turns st rest
      | some (some entry, rest) =>
          match catalogUrl base entry with
          | none => scanCatalogFrom turns st rest
          | some url => scanCatalogFrom turns (scanAt wantMeta server st entry url) rest

/-- The text of the list, from its bracket on. -/
def catalogList (body : Text) : Option Text :=
  match jsonValue "files" body with
  | some (91 :: rest) => (jsonMatch (91 :: rest)).map Prod.fst
  | _ => none

/-- {lit}`scan_catalog` -/
def scanCatalog (st : ScanCtx × FileStates) (body : Text) : Option (ScanCtx × FileStates) :=
  (catalogList body).map (fun list =>
    scanCatalogFrom base wantMeta server list.length st (list.drop 1))

/-!
# The files that a catalog lists
-/

def listedFrom : (turns : Nat) -> Text -> List (CatalogEntry × Text)
  | 0, _ => []
  | turns + 1, p =>
      match catalogEntry (p.dropWhile isBetween) with
      | none => []
      | some (none, rest) => listedFrom turns rest
      | some (some entry, rest) =>
          match catalogUrl base entry with
          | none => listedFrom turns rest
          | some url => (entry, url) :: listedFrom turns rest

/-- The entries that have an address, with their addresses. -/
def catalogListed (body : Text) : List (CatalogEntry × Text) :=
  match catalogList body with
  | some list => listedFrom base list.length (list.drop 1)
  | none => []

def scanFiles (st : ScanCtx × FileStates) (files : List (CatalogEntry × Text)) :
    ScanCtx × FileStates :=
  files.foldl (fun st x => scanAt wantMeta server st x.1 x.2) st

theorem scanCatalogFrom_eq (turns : Nat) (st : ScanCtx × FileStates) (p : Text) :
    scanCatalogFrom base wantMeta server turns st p =
      scanFiles wantMeta server st (listedFrom base turns p) := by
  induction turns generalizing st p with
  | zero => rfl
  | succ turns ih =>
      rw [scanCatalogFrom, listedFrom]
      rcases catalogEntry (p.dropWhile isBetween) with _ | ⟨_ | entry, rest⟩
      · rfl
      · exact ih st rest
      · dsimp only
        cases catalogUrl base entry with
        | none => exact ih st rest
        | some url => exact ih _ rest

/-- A scan that succeeds goes over the files that the catalog lists. -/
theorem scanCatalog_eq {st st' : ScanCtx × FileStates} {body : Text}
    (h : scanCatalog base wantMeta server st body = some st') :
    st' = scanFiles wantMeta server st (catalogListed base body) := by
  unfold scanCatalog at h
  unfold catalogListed
  cases hlist : catalogList body with
  | none =>
      rw [hlist] at h
      cases h
  | some list =>
      rw [hlist, Option.map_some] at h
      cases h
      exact scanCatalogFrom_eq base wantMeta server _ _ _

end

/-!
# One file
-/

section
variable {urls : Finset Text} (hfew : urls.card < httpStateSlots)
include hfew

theorem Sound.setUnavailable {t : FileStates} (h : Sound urls t) {url : Text} (hurl : url ∈ urls)
    (unavailable : Bool) : Sound urls (httpSourceSetUnavailable t url unavailable) :=
  h.fstateWrite hfew (changes_unavailable unavailable) hurl

theorem recordOf_setUnavailable {t : FileStates} (h : Sound urls t) {url : Text}
    (hurl : url ∈ urls) (unavailable : Bool) :
    recordOf (httpSourceSetUnavailable t url unavailable) url =
      { recordOf t url with unavailable := unavailable } :=
  recordOf_write_self h hfew (changes_unavailable unavailable) hurl

theorem Sound.expectedSizeSet {t : FileStates} (h : Sound urls t) {url : Text} (hurl : url ∈ urls)
    (size : Nat) : Sound urls (expectedSizeSet t url size) :=
  h.fstateWrite hfew (changes_size size) hurl

theorem recordOf_expectedSizeSet {t : FileStates} (h : Sound urls t) {url : Text}
    (hurl : url ∈ urls) (size : Nat) :
    recordOf (expectedSizeSet t url size) url = { recordOf t url with expectedSize := size } :=
  recordOf_write_self h hfew (changes_size size) hurl

theorem Sound.rangeProbe {t : FileStates} (h : Sound urls t) {url : Text} (hurl : url ∈ urls)
    (status : Int) : Sound urls (rangeProbeSt t url status) := by
  unfold rangeProbeSt
  cases rangeVerdict status with
  | none => exact h
  | some unavailable => exact h.setUnavailable hfew hurl unavailable

theorem recordOf_rangeProbe {t : FileStates} (h : Sound urls t) {url : Text} (hurl : url ∈ urls)
    (status : Int) :
    recordOf (rangeProbeSt t url status) url =
      { recordOf t url with
        unavailable := (rangeVerdict status).getD (recordOf t url).unavailable } := by
  unfold rangeProbeSt
  cases rangeVerdict status with
  | none => rfl
  | some unavailable => exact recordOf_setUnavailable hfew h hurl unavailable

/-- What the report of an entry leaves of its flags. -/
def verdictOf (wantMeta : Bool) (server : Server) (s : ScanCtx) (entry : CatalogEntry)
    (url : Text) : Bool :=
  if asksRange wantMeta server s url entry.size.isSome then
    (rangeVerdict (server.range url).status).getD entry.nowhere
  else entry.nowhere

variable (wantMeta : Bool) (server : Server)

omit hfew in
theorem scanAt_fst (st : ScanCtx × FileStates) (entry : CatalogEntry) (url : Text) :
    (scanAt wantMeta server st entry url).1 =
      emitPkg (if wantMeta then some (askedMeta server) else none) st.1 url (entry.size.getD 0)
        (entry.mtime % 2 ^ 32) entry.size.isSome :=
  rfl

/-- The record of the file after its entry, and the table is still sound. -/
theorem scanAt_record {st : ScanCtx × FileStates} (h : Sound urls st.2) (entry : CatalogEntry)
    {url : Text} (hurl : url ∈ urls) :
    Sound urls (scanAt wantMeta server st entry url).2 ∧
      recordOf (scanAt wantMeta server st entry url).2 url =
        { expectedSize := entry.size.getD (recordOf st.2 url).expectedSize
          unavailable := verdictOf wantMeta server st.1 entry url } := by
  have hsize : exists t, (match entry.size with
        | some size => expectedSizeSet st.2 url size
        | none => st.2) = t ∧ Sound urls t ∧
      (recordOf t url).expectedSize = entry.size.getD (recordOf st.2 url).expectedSize := by
    cases entry.size with
    | none => exact ⟨st.2, rfl, h, rfl⟩
    | some size =>
        refine ⟨_, rfl, h.expectedSizeSet hfew hurl size, ?_⟩
        dsimp only
        rw [recordOf_expectedSizeSet hfew h hurl]
        rfl
  rcases hsize with ⟨t, hsize, hsound, hrecord⟩
  have hflag := hsound.setUnavailable hfew hurl entry.nowhere
  have hset := recordOf_setUnavailable hfew hsound hurl entry.nowhere
  unfold scanAt emitFile verdictOf
  dsimp only
  rw [hsize, <- hrecord]
  split
  · refine ⟨hflag.rangeProbe hfew hurl _, ?_⟩
    rw [recordOf_rangeProbe hfew hflag hurl, hset]
  · exact ⟨hflag, hset⟩

/-- The records of other files stay as they are. -/
theorem scanAt_frame {st : ScanCtx × FileStates} (h : Sound urls st.2) (entry : CatalogEntry)
    {url url' : Text} (hurl : url ∈ urls) (hne : fstateKey url' ≠ fstateKey url) :
    recordOf (scanAt wantMeta server st entry url).2 url' = recordOf st.2 url' := by
  have hflag : forall {t : FileStates}, Sound urls t -> forall flag,
      recordOf (httpSourceSetUnavailable t url flag) url' = recordOf t url' :=
    fun hsound flag => recordOf_write_of_ne hsound hfew (changes_unavailable flag) hurl hne
  have hsize : exists t, (match entry.size with
        | some size => expectedSizeSet st.2 url size
        | none => st.2) = t ∧ Sound urls t ∧ recordOf t url' = recordOf st.2 url' := by
    cases entry.size with
    | none => exact ⟨st.2, rfl, h, rfl⟩
    | some size =>
        exact ⟨_, rfl, h.expectedSizeSet hfew hurl size,
          recordOf_write_of_ne h hfew (changes_size size) hurl hne⟩
  rcases hsize with ⟨t, hsize, hsound, hrecord⟩
  unfold scanAt emitFile rangeProbeSt
  dsimp only
  rw [hsize, <- hrecord, <- hflag hsound entry.nowhere]
  split
  · cases rangeVerdict (server.range url).status with
    | none => rfl
    | some flag => exact hflag (hsound.setUnavailable hfew hurl entry.nowhere) flag
  · rfl

end

end Http
end PkgManager
