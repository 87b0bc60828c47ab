import Mathlib.Data.List.Lex
import Mathlib.Data.Prod.Lex
import PkgManager.Smb.Bodies
import PkgManager.Bytes.Paging
import PkgManager.Scanner.Catalog

/-!
# Browsing a folder of a share

A page is read from a fresh listing of the folder.  The last entry of a page becomes
the cursor of the next one: the server escapes it, the page in the browser sends it
back in a request, and the server looks it up in the body of that request.
-/

namespace PkgManager
namespace Smb

open CString
open PkgManager.Parser
open PkgManager.Scanner (strcmp strcasecmp)

/-- An entry that the share lists. -/
structure Dirent where
  name : Text
  zeroFree : ZeroFree name
  isDir : Bool
  size : Nat
  mtime : Nat
deriving DecidableEq

/-- {lit}`smb_dir_entry_t` -/
structure SmbDirEntry where
  name : Text
  zeroFree : ZeroFree name
  isDir : Bool
  size : Nat
  mtime : Nat
deriving DecidableEq

def maxSmbBrowseEntries : Nat := 256

def smbDirEntryCmp (a b : SmbDirEntry) : Int :=
  if a.isDir ≠ b.isDir then (if b.isDir then 1 else 0) - (if a.isDir then 1 else 0)
  else if strcasecmp a.name b.name ≠ 0 then strcasecmp a.name b.name
  else strcmp a.name b.name

/-- Folders and package files are shown, but none whose name starts with a dot. -/
def isShown (ent : Dirent) : Bool :=
  ent.name != [] && ent.name.head? != some 46 &&
    (ent.isDir || (decide (4 < ent.name.length) &&
      strcasecmp (ent.name.drop (ent.name.length - 4)) (ascii ".pkg") == 0))

def candidate (ent : Dirent) : SmbDirEntry where
  name := copied 256 ent.name
  zeroFree := zeroFree_cString _
  isDir := ent.isDir
  size := ent.size
  mtime := ent.mtime % 2 ^ 32

/-!
# A page
-/

structure Page where
  entries : List SmbDirEntry
  hasMore : Bool
deriving DecidableEq

def insertCandidate (maxOut : Nat) (page : Page) (x : SmbDirEntry) : Page :=
  let pos := (page.entries.takeWhile (fun o => decide (smbDirEntryCmp o x < 0))).length
  let hasMore := page.hasMore || page.entries.length == maxOut
  if maxOut ≤ pos then { entries := page.entries, hasMore := hasMore }
  else
    { entries := (page.entries.take pos ++ x :: page.entries.drop pos).take maxOut
      hasMore := hasMore }

def passesCursor (cursor : Option SmbDirEntry) (x : SmbDirEntry) : Bool :=
  cursor.all (fun c => decide (0 < smbDirEntryCmp x c))

def listEntry (cursor : Option SmbDirEntry) (maxOut : Nat) (page : Page) (ent : Dirent) : Page :=
  if isShown ent && passesCursor cursor (candidate ent) then
    insertCandidate maxOut page (candidate ent)
  else page

/-- No cursor for an empty text, {lit}`none` for one that is not valid. -/
def readCursor (after : Text) : Option (Option SmbDirEntry) :=
  match after with
  | [] => some none
  | kind :: colon :: name =>
      if (kind = 68 ∨ kind = 70) ∧ colon = 58 ∧ (cString name).length < 256 then
        some (some
          { name := cString name
            zeroFree := zeroFree_cString name
            isDir := decide (kind = 68)
            size := 0
            mtime := 0 })
      else none
  | [_] => none

/-- {lit}`smb_client_list_dir_page` of a folder that can be opened. -/
def smbClientListDirPage (ents : List Dirent) (after : Text) (maxOut : Nat) : Option Page :=
  match readCursor after with
  | none => none
  | some cursor =>
      if maxOut = 0 then none
      else
        let page := ents.foldl (listEntry cursor (min maxOut maxSmbBrowseEntries))
          { entries := [], hasMore := false }
        some { page with
          entries := page.entries.mergeSort (fun a b => decide (smbDirEntryCmp a b ≤ 0)) }

/-!
# The way of a cursor
-/

def cursorText (e : SmbDirEntry) : Text :=
  (ascii (if e.isDir then "D:" else "F:") ++ e.name).take 259

def hexDigit (n : Nat) : UInt8 :=
  if n < 10 then UInt8.ofNat (48 + n) else UInt8.ofNat (87 + n)

/-- {lit}`\u%04x` for a byte -/
def unicodeEscape (c : UInt8) : Text :=
  ascii "\\u00" ++ [hexDigit (c.toNat / 16), hexDigit (c.toNat % 16)]

def escapePiece (c : UInt8) : Text :=
  if c = quote ∨ c = backslash then [backslash, c]
  else if c = 10 then ascii "\\n"
  else if c = 13 then ascii "\\r"
  else if c = 9 then ascii "\\t"
  else if c < 32 then unicodeEscape c
  else [c]

/-- The loop from a place in the buffer on. -/
def escapeFrom (dstSz : Nat) : Nat -> Text -> Text
  | _, [] => []
  | d, c :: rest =>
      if c = 0 ∨ dstSz ≤ d + 6 then []
      else escapePiece c ++ escapeFrom dstSz (d + (escapePiece c).length) rest

/-- {lit}`json_str_esc` -/
def jsonStrEsc (dstSz : Nat) (src : Text) : Text :=
  escapeFrom dstSz 0 src

def hexValue (b : UInt8) : Option Nat :=
  if 48 ≤ b.toNat ∧ b.toNat ≤ 57 then some (b.toNat - 48)
  else if 97 ≤ b.toNat ∧ b.toNat ≤ 102 then some (b.toNat - 87)
  else none

/-- The character of an escape with one letter. -/
def escapedChar (b : UInt8) : Option UInt8 :=
  if b = quote ∨ b = backslash ∨ b = 47 then some b
  else if b = 98 then some 8
  else if b = 102 then some 12
  else if b = 110 then some 10
  else if b = 114 then some 13
  else if b = 116 then some 9
  else none

/-- {lit}`JSON.parse` of the text in a string.  The server writes {lit}`\u` only for
characters below 32. -/
def jsonParseText : Text -> Option Text
  | [] => some []
  | b :: rest =>
      if b = quote ∨ b < 32 then none
      else if b = backslash then
        match rest with
        | 117 :: 48 :: 48 :: high :: low :: rest =>
            match hexValue high, hexValue low with
            | some h, some l => (jsonParseText rest).map (UInt8.ofNat (16 * h + l) :: ·)
            | _, _ => none
        | e :: rest =>
            match escapedChar e with
            | some c => (jsonParseText rest).map (c :: ·)
            | none => none
        | [] => none
      else (jsonParseText rest).map (b :: ·)

def stringifyPiece (c : UInt8) : Text :=
  if c = quote ∨ c = backslash then [backslash, c]
  else if c = 8 then ascii "\\b"
  else if c = 9 then ascii "\\t"
  else if c = 10 then ascii "\\n"
  else if c = 12 then ascii "\\f"
  else if c = 13 then ascii "\\r"
  else if c < 32 then unicodeEscape c
  else [c]

/-- {lit}`JSON.stringify` of a text -/
def jsonStringify (text : Text) : Text :=
  quote :: (text.flatMap stringifyPiece ++ [quote])

/-- What the form for a share holds. -/
structure BrowseForm where
  id : Text
  server : Text
  port : Nat
  username : Text
  password : Text
  workgroup : Text
  share : Text
  path : Text

def jsonMember (key : String) (value : Text) : Text :=
  quoted key ++ ascii ":" ++ jsonStringify value ++ ascii ","

/-- The body of a request in front of the key {lit}`after`. -/
def bodyFront (form : BrowseForm) : Text :=
  ascii "\x7b" ++ jsonMember "id" form.id ++ jsonMember "server" form.server ++
    (quoted "port" ++ ascii ":" ++ intText form.port ++ ascii ",") ++
    jsonMember "username" form.username ++ jsonMember "password" form.password ++
    jsonMember "workgroup" form.workgroup ++ jsonMember "share" form.share ++
    jsonMember "path" form.path

def browseBody (form : BrowseForm) (after : Text) : Text :=
  bodyFront form ++ (quoted "after" ++ (ascii ":" ++ (jsonStringify after ++ ascii "\x7d")))

/-- The cursor that the server reads from a request. -/
def arrivedCursor (form : BrowseForm) (after : Text) : Text :=
  bodyField (browseBody form after) "after" 260

/-- {lit}`next_cursor` as the browser gets it. -/
def nextCursor (e : SmbDirEntry) : Option Text :=
  jsonParseText (jsonStrEsc 1600 (cursorText e))

/-- The pages from a cursor on.  The {lit}`k`th request meets the folder in the {lit}`k`th
order. -/
inductive BrowseRun (orders : Nat -> List Dirent) (form : BrowseForm) (maxOut : Nat) :
    Nat -> Text -> List (List SmbDirEntry) -> Prop where
  | last {k : Nat} {after : Text} {page : Page}
      (hpage : smbClientListDirPage (orders k) (arrivedCursor form after) maxOut = some page)
      (hmore : page.hasMore = false) :
      BrowseRun orders form maxOut k after [page.entries]
  | next {k : Nat} {after cursor : Text} {page : Page} {e : SmbDirEntry}
      {pages : List (List SmbDirEntry)}
      (hpage : smbClientListDirPage (orders k) (arrivedCursor form after) maxOut = some page)
      (hmore : page.hasMore = true) (he : page.entries.getLast? = some e)
      (hcursor : nextCursor e = some cursor)
      (hrest : BrowseRun orders form maxOut (k + 1) cursor pages) :
      BrowseRun orders form maxOut k after (page.entries :: pages)

end Smb
end PkgManager

/-!
# The order of the entries

Folders come first, then the names without regard to case, then the names.  A page is the start
of what the cursor leaves of the folder in this order.
-/

namespace PkgManager
namespace Smb

open CString
open Paging
open PkgManager.Parser
open PkgManager.Scanner (strcmp strcasecmp lowerText byteValues byteValues_inj strcmp_order
  zeroFree_lowerText)

/-!
# Keys
-/

abbrev EntryKey := Nat ×ₗ (List Nat ×ₗ List Nat)

def entryKey (e : SmbDirEntry) : EntryKey :=
  toLex (if e.isDir then 0 else 1, toLex (byteValues (lowerText e.name), byteValues e.name))

theorem entryKey_lt {a b : SmbDirEntry} : smbDirEntryCmp a b < 0 ↔ entryKey a < entryKey b := by
  have hlower := strcmp_order (zeroFree_lowerText a.zeroFree) (zeroFree_lowerText b.zeroFree)
  have hname := strcmp_order a.zeroFree b.zeroFree
  have hcase : strcasecmp a.name b.name = strcmp (lowerText a.name) (lowerText b.name) := rfl
  have hbytes : byteValues (lowerText a.name) = byteValues (lowerText b.name) ↔
      lowerText a.name = lowerText b.name := ⟨byteValues_inj, congrArg _⟩
  unfold smbDirEntryCmp entryKey
  rw [Prod.Lex.toLex_lt_toLex, Prod.Lex.toLex_lt_toLex, hbytes, <- hlower.1, <- hlower.2,
    <- hname.1, hcase]
  by_cases hzero : strcmp (lowerText a.name) (lowerText b.name) = 0
  · cases a.isDir <;> cases b.isDir <;> simp [hzero]
  · cases a.isDir <;> cases b.isDir <;> simp [hzero]

theorem entryKey_eq {a b : SmbDirEntry} :
    entryKey a = entryKey b ↔ a.isDir = b.isDir ∧ a.name = b.name := by
  unfold entryKey
  constructor
  · intro h
    have hparts := Prod.ext_iff.mp (toLex_inj.mp h)
    constructor
    · have hdir := hparts.1
      cases ha : a.isDir <;> cases hb : b.isDir <;> simp_all
    · exact byteValues_inj (Prod.ext_iff.mp (toLex_inj.mp hparts.2)).2
  · intro h
    rw [h.1, h.2]

theorem smbDirEntryCmp_zero {a b : SmbDirEntry} :
    smbDirEntryCmp a b = 0 ↔ entryKey a = entryKey b := by
  have hlower := strcmp_order (zeroFree_lowerText a.zeroFree) (zeroFree_lowerText b.zeroFree)
  have hname := strcmp_order a.zeroFree b.zeroFree
  have hcase : strcasecmp a.name b.name = strcmp (lowerText a.name) (lowerText b.name) := rfl
  rw [entryKey_eq]
  unfold smbDirEntryCmp
  rw [hcase]
  by_cases hdir : a.isDir = b.isDir
  · rw [if_neg (not_not.mpr hdir)]
    split
    · rename_i hne
      constructor
      · intro h
        exact absurd h hne
      · intro h
        exact absurd (hlower.2.mpr (congrArg lowerText h.2)) hne
    · rw [hname.2]
      simp [hdir]
  · rw [if_pos hdir]
    cases ha : a.isDir <;> cases hb : b.isDir <;> simp_all

theorem entryKey_gt {a b : SmbDirEntry} : 0 < smbDirEntryCmp a b ↔ entryKey b < entryKey a := by
  constructor
  · intro h
    rcases lt_trichotomy (entryKey a) (entryKey b) with hlt | heq | hgt
    · exact absurd (entryKey_lt.mpr hlt) (by omega)
    · exact absurd (smbDirEntryCmp_zero.mpr heq) (by omega)
    · exact hgt
  · intro h
    rcases Int.lt_trichotomy (smbDirEntryCmp a b) 0 with hlt | heq | hgt
    · exact absurd (entryKey_lt.mp hlt) h.not_gt
    · exact absurd (smbDirEntryCmp_zero.mp heq) h.ne'
    · exact hgt

theorem entryKey_le {a b : SmbDirEntry} : smbDirEntryCmp a b ≤ 0 ↔ entryKey a ≤ entryKey b := by
  rw [<- Int.not_lt, entryKey_gt, not_lt]

theorem passesCursor_eq (cursor : Option SmbDirEntry) (x : SmbDirEntry) :
    passesCursor cursor x = behind entryKey (cursor.map entryKey) x := by
  cases cursor with
  | none => rfl
  | some c => exact decide_eq_decide.mpr entryKey_gt

/-!
# A page
-/

/-- A candidate goes to its place and the last entry makes room for it. -/
theorem insertCandidate_entries {maxOut : Nat} {page : Page} (h : page.entries.length ≤ maxOut)
    (x : SmbDirEntry) :
    (insertCandidate maxOut page x).entries = insertBounded entryKey maxOut page.entries x := by
  let p : SmbDirEntry -> Bool := fun o => decide (smbDirEntryCmp o x < 0)
  have hp : (fun b => decide ¬ entryKey x ≤ entryKey b) = p := by
    funext b
    exact decide_eq_decide.mpr (not_le.trans entryKey_lt.symm)
  have hsplit : page.entries.takeWhile p ++ page.entries.dropWhile p = page.entries :=
    List.takeWhile_append_dropWhile
  have htake : page.entries.take (page.entries.takeWhile p).length = page.entries.takeWhile p := by
    nth_rewrite 2 [<- hsplit]
    exact List.take_left
  have hdrop : page.entries.drop (page.entries.takeWhile p).length = page.entries.dropWhile p := by
    nth_rewrite 2 [<- hsplit]
    exact List.drop_left
  unfold insertBounded
  rw [List.orderedInsert_eq_take_drop, hp]
  unfold insertCandidate
  dsimp only
  change (if maxOut ≤ (page.entries.takeWhile p).length then _ else _ : Page).entries = _
  split
  · rename_i hfull
    -- All entries are in front of the candidate and there is no place behind them.
    have hall : page.entries.takeWhile p = page.entries :=
      (List.takeWhile_prefix p).eq_of_length_le (h.trans hfull)
    change page.entries = _
    rw [hall] at hfull ⊢
    rw [List.take_append_of_le_length hfull, List.take_of_length_le h]
  · change (page.entries.take (page.entries.takeWhile p).length ++
      x :: page.entries.drop (page.entries.takeWhile p).length).take maxOut = _
    rw [htake, hdrop]

theorem insertCandidate_hasMore (maxOut : Nat) (page : Page) (x : SmbDirEntry) :
    (insertCandidate maxOut page x).hasMore =
      (page.hasMore || page.entries.length == maxOut) := by
  unfold insertCandidate
  dsimp only
  split <;> rfl

theorem length_insertBounded (size : Nat) (page : List SmbDirEntry) (x : SmbDirEntry) :
    (insertBounded entryKey size page x).length = min size (page.length + 1) := by
  unfold insertBounded
  rw [List.length_take, List.orderedInsert_length]

def emptyPage : Page where
  entries := []
  hasMore := false

/-- More is left when there were more candidates than places. -/
theorem foldl_insertCandidate (maxOut : Nat) (xs : List SmbDirEntry) :
    let page := xs.foldl (insertCandidate maxOut) emptyPage
    page.entries = xs.foldl (insertBounded entryKey maxOut) [] ∧
      page.entries.length = min maxOut xs.length ∧
      page.hasMore = decide (maxOut < xs.length) := by
  induction xs using List.reverseRecOn with
  | nil =>
      refine ⟨rfl, ?_, rfl⟩
      exact (Nat.min_zero _).symm
  | append_singleton rest x ih =>
      rcases ih with ⟨hentries, hlength, hmore⟩
      have hle : (rest.foldl (insertCandidate maxOut) emptyPage).entries.length ≤ maxOut := by
        rw [hlength]
        exact Nat.min_le_left _ _
      dsimp only
      rw [List.foldl_append, List.foldl_cons, List.foldl_nil, List.foldl_append, List.foldl_cons,
        List.foldl_nil, insertCandidate_entries hle, insertCandidate_hasMore,
        length_insertBounded, hentries, List.length_append, List.length_singleton]
      rw [hentries] at hlength
      refine ⟨rfl, ?_, ?_⟩
      · rw [hlength]
        omega
      · rw [hmore, hlength]
        apply Bool.eq_iff_iff.mpr
        rw [Bool.or_eq_true, decide_eq_true_eq, beq_iff_eq, decide_eq_true_eq]
        omega

/-- What the folder shows, in the order of the listing. -/
def shownCandidates (ents : List Dirent) : List SmbDirEntry :=
  (ents.filter isShown).map candidate

theorem foldl_listEntry (cursor : Option SmbDirEntry) (maxOut : Nat) (ents : List Dirent)
    (page : Page) :
    ents.foldl (listEntry cursor maxOut) page =
      ((shownCandidates ents).filter (passesCursor cursor)).foldl (insertCandidate maxOut)
        page := by
  induction ents generalizing page with
  | nil => rfl
  | cons ent rest ih =>
      rw [List.foldl_cons, ih]
      unfold shownCandidates listEntry
      cases hshown : isShown ent with
      | false => simp [hshown]
      | true => cases hpass : passesCursor cursor (candidate ent) <;> simp [hshown, hpass]

/-- A page is the start of what stands behind the cursor, in whatever order the folder is
listed. -/
theorem smbClientListDirPage_eq {rows : List SmbDirEntry} (hrows : Ascending entryKey rows)
    {ents : List Dirent} (hperm : (shownCandidates ents).Perm rows) (after : Text) {maxOut : Nat}
    (hpos : 0 < maxOut) :
    let size := min maxOut maxSmbBrowseEntries
    smbClientListDirPage ents after maxOut = (readCursor after).map (fun cursor =>
      let left := rows.filter (behind entryKey (cursor.map entryKey))
      { entries := left.take size, hasMore := decide (size < left.length) }) := by
  intro size
  unfold smbClientListDirPage
  cases readCursor after with
  | none => rfl
  | some cursor =>
      have hpass : passesCursor cursor = behind entryKey (cursor.map entryKey) := by
        funext x
        exact passesCursor_eq cursor x
      have hleft : ((shownCandidates ents).filter (passesCursor cursor)).Perm
          (rows.filter (behind entryKey (cursor.map entryKey))) := by
        rw [hpass]
        exact hperm.filter _
      have hasc : Ascending entryKey (rows.filter (behind entryKey (cursor.map entryKey))) :=
        hrows.filter _
      rcases foldl_insertCandidate size ((shownCandidates ents).filter (passesCursor cursor)) with
        ⟨hentries, _, hmore⟩
      rw [foldl_insertBounded_eq hasc hleft] at hentries
      rw [hleft.length_eq] at hmore
      have hsorted : ((rows.filter (behind entryKey (cursor.map entryKey))).take size).Pairwise
          (fun a b => decide (smbDirEntryCmp a b ≤ 0) = true) := by
        apply (hasc.sublist (List.take_sublist _ _)).imp
        intro a b hlt
        exact decide_eq_true (entryKey_le.mpr hlt.le)
      dsimp only
      rw [if_neg hpos.ne', foldl_listEntry]
      change some ({ entries := List.mergeSort _ _, hasMore := _ } : Page) = some _
      congr 1
      rw [show ({ entries := [], hasMore := false } : Page) = emptyPage from rfl, hentries, hmore,
        List.mergeSort_of_pairwise hsorted]

end Smb
end PkgManager
