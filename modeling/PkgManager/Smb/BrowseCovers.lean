import PkgManager.Smb.Browse
import PkgManager.Smb.Cursors

/-!
# Browsing shows the folder

Going through the pages shows every entry once and in order exactly when all names fit
into an entry and the cursors keep their places on the way through the browser.
-/

namespace PkgManager
namespace Smb

open CString
open Paging
open PkgManager.Parser

/-!
# The pages
-/

/-- What the folder shows, with whole names. -/
def entryOf (ent : Dirent) : SmbDirEntry where
  name := ent.name
  zeroFree := ent.zeroFree
  isDir := ent.isDir
  size := ent.size
  mtime := ent.mtime % 2 ^ 32

def shownEntries (dir : List Dirent) : List SmbDirEntry :=
  (dir.filter isShown).map entryOf

def NamesFit (dir : List Dirent) : Prop :=
  forall ent, ent ∈ dir -> isShown ent = true -> ent.name.length < 256

def sortedRows (dir : List Dirent) : List SmbDirEntry :=
  (shownEntries dir).mergeSort (fun a b => decide (smbDirEntryCmp a b ≤ 0))

theorem candidate_eq {ent : Dirent} (h : ent.name.length < 256) : candidate ent = entryOf ent := by
  unfold candidate entryOf
  congr 1
  unfold copied
  rw [List.take_of_length_le (by omega), cString_of_zeroFree ent.zeroFree]

theorem shownCandidates_eq {dir : List Dirent} (h : NamesFit dir) :
    shownCandidates dir = shownEntries dir := by
  apply List.map_congr_left
  intro ent hent
  rcases List.mem_filter.mp hent with ⟨hmem, hshown⟩
  exact candidate_eq (h ent hmem hshown)

theorem sortedRows_perm (dir : List Dirent) : (sortedRows dir).Perm (shownEntries dir) :=
  List.mergeSort_perm _ _

theorem sortedRows_pairwise (dir : List Dirent) :
    (sortedRows dir).Pairwise (fun a b => smbDirEntryCmp a b ≤ 0) := by
  let le : SmbDirEntry -> SmbDirEntry -> Bool := fun a b => decide (smbDirEntryCmp a b ≤ 0)
  have htrans : forall a b c, le a b = true -> le b c = true -> le a c = true := by
    intro a b c hab hbc
    apply decide_eq_true
    exact entryKey_le.mpr ((entryKey_le.mp (of_decide_eq_true hab)).trans
      (entryKey_le.mp (of_decide_eq_true hbc)))
  have htotal : forall a b, (le a b || le b a) = true := by
    intro a b
    rw [Bool.or_eq_true]
    rcases le_total (entryKey a) (entryKey b) with hab | hba
    · exact Or.inl (decide_eq_true (entryKey_le.mpr hab))
    · exact Or.inr (decide_eq_true (entryKey_le.mpr hba))
  exact (List.pairwise_mergeSort htrans htotal (shownEntries dir)).imp of_decide_eq_true

theorem ascending_of_cmp {rows : List SmbDirEntry}
    (h : rows.Pairwise (fun a b => smbDirEntryCmp a b ≤ 0)) (hnodup : (rows.map entryKey).Nodup) :
    Ascending entryKey rows :=
  ascending_of_sorted (h.imp entryKey_le.mp) hnodup

theorem nodup_shownKeys {dir : List Dirent} (h : (dir.map Dirent.name).Nodup) :
    ((shownEntries dir).map entryKey).Nodup := by
  unfold shownEntries
  rw [List.map_map]
  have hnames : ((dir.filter isShown).map Dirent.name).Nodup :=
    h.sublist (List.filter_sublist.map _)
  rw [List.Nodup, List.pairwise_map] at hnames ⊢
  apply hnames.imp
  intro a b hne heq
  exact hne (entryKey_eq.mp heq).2

theorem ascending_sortedRows {dir : List Dirent} (h : (dir.map Dirent.name).Nodup) :
    Ascending entryKey (sortedRows dir) := by
  apply ascending_of_sorted
  · exact (sortedRows_pairwise dir).imp entryKey_le.mp
  · exact ((sortedRows_perm dir).map entryKey).nodup_iff.mpr (nodup_shownKeys h)

/-- The key that the server gets for an entry. -/
def arrivedKey (form : BrowseForm) (e : SmbDirEntry) : Option (Option EntryKey) :=
  (readCursor (arrivedCursor form (cursorText e))).map (Option.map entryKey)

section Runs

variable {rows : List SmbDirEntry} {orders : Nat -> List Dirent} {form : BrowseForm} {maxOut : Nat}
  (hrows : Ascending entryKey rows) (horders : forall k, (shownCandidates (orders k)).Perm rows)
  (hpos : 0 < maxOut)
include hrows horders hpos

theorem BrowseRun.browse {k : Nat} {after : Text} {pages : List (List SmbDirEntry)}
    (h : BrowseRun orders form maxOut k after pages) :
    exists cursor, readCursor (arrivedCursor form after) = some cursor ∧
      Browse entryKey rows (min maxOut maxSmbBrowseEntries) (arrivedKey form)
        (cursor.map entryKey) pages := by
  induction h with
  | last hpage hmore =>
      rw [smbClientListDirPage_eq hrows (horders _) _ hpos] at hpage
      dsimp only at hpage
      rcases Option.map_eq_some_iff.mp hpage with ⟨cursor, hcursor, heq⟩
      subst heq
      have hshort := Nat.le_of_not_lt (of_decide_eq_false hmore)
      refine ⟨cursor, hcursor, ?_⟩
      dsimp only
      rw [List.take_of_length_le hshort]
      exact Browse.last hshort
  | next hpage hmore he hnext hrest ih =>
      rw [smbClientListDirPage_eq hrows (horders _) _ hpos] at hpage
      dsimp only at hpage
      rcases Option.map_eq_some_iff.mp hpage with ⟨cursor, hcursor, heq⟩
      subst heq
      rw [nextCursor_eq] at hnext
      cases hnext
      rcases ih with ⟨cursor', hcursor', hbrowse⟩
      refine ⟨cursor, hcursor, ?_⟩
      apply Browse.next (of_decide_eq_true hmore) he _ hbrowse
      unfold arrivedKey
      rw [hcursor', Option.map_some]

theorem browse_run {c : Option EntryKey} {pages : List (List SmbDirEntry)}
    (h : Browse entryKey rows (min maxOut maxSmbBrowseEntries) (arrivedKey form) c pages)
    {k : Nat} {after : Text} {cursor : Option SmbDirEntry}
    (hcursor : readCursor (arrivedCursor form after) = some cursor)
    (hc : cursor.map entryKey = c) : BrowseRun orders form maxOut k after pages := by
  induction h generalizing k after cursor with
  | last hshort =>
      subst hc
      have hpage := smbClientListDirPage_eq hrows (horders k) (arrivedCursor form after) hpos
      dsimp only at hpage
      rw [hcursor, Option.map_some] at hpage
      rw [List.take_of_length_le hshort] at hpage
      exact BrowseRun.last hpage (decide_eq_false (Nat.not_lt_of_le hshort))
  | next hlong he harrive hrest ih =>
      subst hc
      have hpage := smbClientListDirPage_eq hrows (horders k) (arrivedCursor form after) hpos
      dsimp only at hpage
      rw [hcursor, Option.map_some] at hpage
      rcases Option.map_eq_some_iff.mp harrive with ⟨cursor', hcursor', hc'⟩
      exact BrowseRun.next hpage (decide_eq_true hlong) he (nextCursor_eq _) (ih hcursor' hc')

end Runs

/-!
# The names on a page
-/

theorem candidate_short (ent : Dirent) : (candidate ent).name.length < 256 := by
  have htake : (ent.name.take 255).length ≤ 255 := List.length_take_le _ _
  exact Nat.lt_succ_of_le ((cString_starts _).length_le.trans htake)

theorem mem_insertCandidate {maxOut : Nat} {page : Page} {x y : SmbDirEntry}
    (h : y ∈ (insertCandidate maxOut page x).entries) : y ∈ page.entries ∨ y = x := by
  unfold insertCandidate at h
  dsimp only at h
  split at h
  · exact Or.inl h
  · rcases List.mem_append.mp (List.mem_of_mem_take h) with hfront | hback
    · exact Or.inl (List.mem_of_mem_take hfront)
    · rcases List.mem_cons.mp hback with hnew | hbehind
      · exact Or.inr hnew
      · exact Or.inl (List.mem_of_mem_drop hbehind)

theorem listEntry_short (cursor : Option SmbDirEntry) (maxOut : Nat) (ents : List Dirent)
    {page : Page} (h : forall e, e ∈ page.entries -> e.name.length < 256) :
    forall e, e ∈ (ents.foldl (listEntry cursor maxOut) page).entries -> e.name.length < 256 := by
  induction ents generalizing page with
  | nil => exact h
  | cons ent rest ih =>
      rw [List.foldl_cons]
      apply ih
      unfold listEntry
      split
      · intro e he
        rcases mem_insertCandidate he with hold | rfl
        · exact h e hold
        · exact candidate_short ent
      · exact h

theorem page_short {ents : List Dirent} {after : Text} {maxOut : Nat} {page : Page}
    (h : smbClientListDirPage ents after maxOut = some page) {e : SmbDirEntry}
    (he : e ∈ page.entries) : e.name.length < 256 := by
  unfold smbClientListDirPage at h
  split at h
  · cases h
  · split at h
    · cases h
    · cases h
      exact listEntry_short _ _ ents (fun e he => absurd he List.not_mem_nil) e
        (List.mem_mergeSort.mp he)

theorem BrowseRun.short {orders : Nat -> List Dirent} {form : BrowseForm} {maxOut k : Nat}
    {after : Text} {pages : List (List SmbDirEntry)}
    (h : BrowseRun orders form maxOut k after pages) :
    forall e, e ∈ pages.flatten -> e.name.length < 256 := by
  induction h with
  | last hpage hmore =>
      intro e he
      rw [List.flatten_singleton] at he
      exact page_short hpage he
  | next hpage hmore he hcursor hrest ih =>
      intro e' he'
      rw [List.flatten_cons] at he'
      rcases List.mem_append.mp he' with hfirst | hlater
      · exact page_short hpage hfirst
      · exact ih e' hlater

/-- The answers decide what the browser shows. -/
theorem BrowseRun.unique {orders : Nat -> List Dirent} {form : BrowseForm} {maxOut k : Nat}
    {after : Text} {pages pages' : List (List SmbDirEntry)}
    (h : BrowseRun orders form maxOut k after pages)
    (h' : BrowseRun orders form maxOut k after pages') : pages = pages' := by
  induction h generalizing pages' with
  | last hpage hmore =>
      cases h' with
      | last hpage' hmore' =>
          cases hpage.symm.trans hpage'
          rfl
      | next hpage' hmore' he' hcursor' hrest' =>
          cases hpage.symm.trans hpage'
          exact absurd (hmore.symm.trans hmore') Bool.false_ne_true
  | next hpage hmore he hcursor hrest ih =>
      cases h' with
      | last hpage' hmore' =>
          cases hpage.symm.trans hpage'
          exact absurd (hmore'.symm.trans hmore) Bool.false_ne_true
      | next hpage' hmore' he' hcursor' hrest' =>
          cases hpage.symm.trans hpage'
          cases he.symm.trans he'
          cases hcursor.symm.trans hcursor'
          rw [ih hrest']

/-!
# The folder
-/

/-- However the folder is listed, going through the pages comes to an end and shows each
entry once and in order. -/
def CoversFolder (dir : List Dirent) (form : BrowseForm) (maxOut : Nat) : Prop :=
  forall orders : Nat -> List Dirent, (forall k, (orders k).Perm dir) ->
    exists pages, BrowseRun orders form maxOut 0 [] pages ∧
      pages.flatten.Perm (shownEntries dir) ∧
      pages.flatten.Pairwise (fun a b => smbDirEntryCmp a b ≤ 0)

/-- The cursor as it arrives leaves the entries that {lit}`left` holds for. -/
def Selects (form : BrowseForm) (rows : List SmbDirEntry) (after : Text)
    (left : SmbDirEntry -> Bool) : Prop :=
  exists cursor, readCursor (arrivedCursor form after) = some cursor ∧
    forall x, x ∈ rows -> passesCursor cursor x = left x

/-- The first request leaves everything, and a request with the last entry of a page leaves
what comes behind it. -/
def CursorsKeepPlace (dir : List Dirent) (form : BrowseForm) (maxOut : Nat) : Prop :=
  let rows := sortedRows dir
  let size := min maxOut maxSmbBrowseEntries
  Selects form rows [] (fun _ => true) ∧
    forall k e, (k + 1) * size < rows.length -> rows[(k + 1) * size - 1]? = some e ->
      Selects form rows (cursorText e) (fun x => decide (0 < smbDirEntryCmp x e))

theorem selects_all_iff {form : BrowseForm} {rows : List SmbDirEntry} {cursor : Option SmbDirEntry}
    (h : readCursor (arrivedCursor form []) = some cursor) :
    Selects form rows [] (fun _ => true) ↔
      forall x, x ∈ rows -> behind entryKey (cursor.map entryKey) x = true := by
  constructor
  · intro hselects
    rcases hselects with ⟨cursor', hcursor', hall⟩
    cases h.symm.trans hcursor'
    intro x hx
    rw [<- passesCursor_eq]
    exact hall x hx
  · intro hall
    refine ⟨cursor, h, ?_⟩
    intro x hx
    rw [passesCursor_eq]
    exact hall x hx

theorem selects_behind_iff {form : BrowseForm} {rows : List SmbDirEntry} {e : SmbDirEntry} :
    Selects form rows (cursorText e) (fun x => decide (0 < smbDirEntryCmp x e)) ↔
      exists c, arrivedKey form e = some c ∧ Keeps entryKey rows c e := by
  constructor
  · intro hselects
    rcases hselects with ⟨cursor, hcursor, hall⟩
    refine ⟨cursor.map entryKey, ?_, ?_⟩
    · unfold arrivedKey
      rw [hcursor, Option.map_some]
    · intro x hx
      rw [<- passesCursor_eq, hall x hx]
      exact decide_eq_decide.mpr entryKey_gt
  · intro harrive
    rcases harrive with ⟨c, hc, hkeeps⟩
    rcases Option.map_eq_some_iff.mp hc with ⟨cursor, hcursor, rfl⟩
    refine ⟨cursor, hcursor, ?_⟩
    intro x hx
    rw [passesCursor_eq, hkeeps x hx]
    exact decide_eq_decide.mpr entryKey_gt.symm

theorem perm_sortedRows {dir ents : List Dirent} (hfit : NamesFit dir) (h : ents.Perm dir) :
    (shownCandidates ents).Perm (sortedRows dir) := by
  have hents : (shownCandidates ents).Perm (shownCandidates dir) := (h.filter _).map _
  rw [shownCandidates_eq hfit] at hents
  exact hents.trans (sortedRows_perm dir).symm

theorem namesFit_of_covers {dir : List Dirent} {form : BrowseForm} {maxOut : Nat}
    (h : CoversFolder dir form maxOut) : NamesFit dir := by
  rcases h (fun _ => dir) (fun _ => List.Perm.refl dir) with ⟨pages, hrun, hperm, _⟩
  intro ent hent hshown
  have hmem : entryOf ent ∈ shownEntries dir :=
    List.mem_map_of_mem (List.mem_filter.mpr ⟨hent, hshown⟩)
  exact hrun.short (entryOf ent) (hperm.mem_iff.mpr hmem)

/-- Browsing shows the folder exactly when all names fit into an entry and the cursors that
arrive keep the places of their entries. -/
theorem folder_covered_iff {dir : List Dirent} (hnodup : (dir.map Dirent.name).Nodup)
    (form : BrowseForm) {maxOut : Nat} (hpos : 0 < maxOut) :
    CoversFolder dir form maxOut ↔ NamesFit dir ∧ CursorsKeepPlace dir form maxOut := by
  have hrows := ascending_sortedRows hnodup
  have hsize : 0 < min maxOut maxSmbBrowseEntries := Nat.lt_min.mpr ⟨hpos, by decide⟩
  constructor
  · intro h
    have hfit := namesFit_of_covers h
    rcases h (fun _ => dir) (fun _ => List.Perm.refl dir) with ⟨pages, hrun, hperm, hsorted⟩
    rcases hrun.browse hrows (fun _ => perm_sortedRows hfit (List.Perm.refl dir)) hpos with
      ⟨cursor, hcursor, hbrowse⟩
    have hall : pages.flatten = sortedRows dir := by
      have hkeys := ((hperm.map entryKey).nodup_iff).mpr (nodup_shownKeys hnodup)
      exact ascending_unique (ascending_of_cmp hsorted hkeys) hrows
        (hperm.trans (sortedRows_perm dir).symm)
    rcases (browse_covers_iff hrows hsize _).mp ⟨pages, hbrowse, hall⟩ with ⟨hstart, hborders⟩
    refine ⟨hfit, (selects_all_iff hcursor).mpr hstart, ?_⟩
    intro k e hk he
    exact selects_behind_iff.mpr (hborders k e hk he)
  · intro h orders horders
    rcases h with ⟨hfit, hstart, hborders⟩
    rcases hstart with ⟨cursor, hcursor, hleft⟩
    have hbehind := (selects_all_iff hcursor).mp ⟨cursor, hcursor, hleft⟩
    rcases (browse_covers_iff hrows hsize _).mpr
      ⟨hbehind, fun k e hk he => selects_behind_iff.mp (hborders k e hk he)⟩ with
      ⟨pages, hbrowse, hall⟩
    refine ⟨pages, ?_, ?_, ?_⟩
    · exact browse_run hrows (fun k => perm_sortedRows hfit (horders k)) hpos hbrowse hcursor rfl
    · rw [hall]
      exact sortedRows_perm dir
    · rw [hall]
      exact sortedRows_pairwise dir

/-!
# Plain names
-/

/-- Plain names keep their places. -/
theorem cursorsKeepPlace_plain {dir : List Dirent} {form : BrowseForm} (hfit : NamesFit dir)
    (hplain : forall ent, ent ∈ dir -> Plain ent.name) (hfront : AfterKeyFirst form)
    (maxOut : Nat) : CursorsKeepPlace dir form maxOut := by
  constructor
  · refine ⟨none, ?_, fun _ _ => rfl⟩
    rw [arrivedCursor_plain hfront (fun b hb => absurd hb List.not_mem_nil) (Nat.zero_le _)]
    rfl
  · intro k e _ he
    have hmem := (sortedRows_perm dir).mem_iff.mp (List.mem_of_getElem? he)
    rcases List.mem_map.mp hmem with ⟨ent, hent, rfl⟩
    rcases List.mem_filter.mp hent with ⟨hdir, hshown⟩
    have hshort : (entryOf ent).name.length < 256 := hfit ent hdir hshown
    rcases readCursor_cursorText hshort with ⟨c, hc, hkind, hname⟩
    have hlen : (cursorText (entryOf ent)).length ≤ 259 := List.length_take_le _ _
    refine ⟨some c, ?_, ?_⟩
    · rw [arrivedCursor_plain hfront (plain_cursorText (hplain ent hdir)) hlen]
      exact hc
    · intro x _
      change decide (0 < smbDirEntryCmp x c) = _
      apply decide_eq_decide.mpr
      rw [entryKey_gt, entryKey_gt, entryKey_eq.mpr ⟨hkind, hname⟩]

def gamesForm : BrowseForm where
  id := []
  server := ascii "nas"
  port := 445
  username := []
  password := []
  workgroup := []
  share := ascii "games"
  path := []

theorem gamesForm_after : AfterKeyFirst gamesForm := by
  unfold AfterKeyFirst
  decide

def folderNamed (name : String) (h : ZeroFree (ascii name)) : Dirent where
  name := ascii name
  zeroFree := h
  isDir := true
  size := 0
  mtime := 0

def twoFolders : List Dirent :=
  [folderNamed "ps5" (zeroFree_of_all rfl), folderNamed "PS4" (zeroFree_of_all rfl)]

theorem two_folders_covered : CoversFolder twoFolders gamesForm 1 := by
  have hnodup : (twoFolders.map Dirent.name).Nodup := by decide
  apply (folder_covered_iff hnodup gamesForm (Nat.lt_succ_self 0)).mpr
  have hshort : twoFolders.all (fun ent => decide (ent.name.length < 256)) = true := by decide
  have hfit : NamesFit twoFolders :=
    fun ent hent _ => of_decide_eq_true (List.all_eq_true.mp hshort ent hent)
  refine ⟨hfit, cursorsKeepPlace_plain hfit ?_ gamesForm_after 1⟩
  have hplain : twoFolders.all (fun ent => ent.name.all (fun b => decide (32 ≤ b))) = true := by
    decide
  exact fun ent hent => plain_of_all (List.all_eq_true.mp hplain ent hent)

/-!
# Long names
-/

/-- Eighty-five letters of three bytes and a last one. -/
def longName (last : UInt8) : Text :=
  (List.replicate 85 [0xe3, 0x81, 0x82]).flatten ++ [last]

theorem zeroFree_longName {last : UInt8} (h : last ≠ 0) : ZeroFree (longName last) := by
  intro b hb
  rcases List.mem_append.mp hb with hletters | hlast
  · rcases List.mem_flatten.mp hletters with ⟨letter, hletter, hbyte⟩
    cases List.eq_of_mem_replicate hletter
    have hzero : ZeroFree [0xe3, 0x81, 0x82] := zeroFree_of_all rfl
    exact hzero b hbyte
  · rw [List.mem_singleton.mp hlast]
    exact h

def longFolder (last : UInt8) (h : last ≠ 0) : Dirent where
  name := longName last
  zeroFree := zeroFree_longName h
  isDir := true
  size := 0
  mtime := 0

def longFolders : List Dirent := [longFolder 49 (by decide), longFolder 50 (by decide)]

/-- The one entry that both folders become. -/
def cutEntry : SmbDirEntry := candidate (longFolder 49 (by decide))

theorem run_of_one_entry {orders : Nat -> List Dirent} {form : BrowseForm} {maxOut k : Nat}
    {after : Text} {e : SmbDirEntry}
    (hfirst : smbClientListDirPage (orders k) (arrivedCursor form after) maxOut =
      some { entries := [e], hasMore := true })
    (hsecond : smbClientListDirPage (orders (k + 1)) (arrivedCursor form (cursorText e)) maxOut =
      some { entries := [], hasMore := false }) :
    BrowseRun orders form maxOut k after [[e], []] :=
  BrowseRun.next hfirst rfl rfl (nextCursor_eq e) (BrowseRun.last hsecond rfl)

theorem long_folders_run :
    BrowseRun (fun _ => longFolders) gamesForm 1 0 [] [[cutEntry], []] := by
  have hfirst : smbClientListDirPage longFolders (arrivedCursor gamesForm []) 1 =
      some { entries := [cutEntry], hasMore := true } := by
    decide +kernel
  have hsecond : smbClientListDirPage longFolders (arrivedCursor gamesForm (cursorText cutEntry))
      1 = some { entries := [], hasMore := false } := by
    decide +kernel
  exact run_of_one_entry hfirst hsecond

theorem long_folder_lost :
    (longFolders.map Dirent.name).Nodup ∧ ¬ CoversFolder longFolders gamesForm 1 := by
  constructor
  · decide +kernel
  · intro h
    rcases h (fun _ => longFolders) (fun _ => List.Perm.refl _) with ⟨pages, hrun, hperm, _⟩
    cases hrun.unique long_folders_run
    have hlen : 1 = 2 := hperm.length_eq
    exact absurd hlen (by decide)

end Smb
end PkgManager
