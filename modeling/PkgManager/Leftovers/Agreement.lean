import PkgManager.Leftovers.Scan
import PkgManager.Scanner.Catalog
import PkgManager.Smb.Cursors

/-!
# What is deleted was offered

The deletion collects the same paths as the scan, but only the scan asks where the title was
found and whether there is a patch or additional content.
-/

namespace PkgManager
namespace Leftovers

open CString
open PkgManager.Parser
open PkgManager.Scanner (strcasecmp strcasecmp_zero)
open PkgManager.Smb (jsonParseText jsonParseText_escaped jsonParseText_mark jsonParseText_plain)

/-!
# Candidates
-/

theorem zeroFree_of_valid {id : Text} (h : isValidTitleId id = true) : ZeroFree id := by
  unfold isValidTitleId at h
  rw [Bool.and_eq_true] at h
  intro b hb
  have halnum := List.all_eq_true.mp h.2 b hb
  rintro rfl
  exact absurd halnum (by decide)

theorem length_of_valid {id : Text} (h : isValidTitleId id = true) :
    9 ≤ id.length ∧ id.length ≤ 16 := by
  unfold isValidTitleId at h
  rw [Bool.and_eq_true, Bool.and_eq_true] at h
  exact of_decide_eq_true h.1.1

theorem copied_valid {id : Text} (h : isValidTitleId id = true) : copied 32 id = id := by
  unfold copied
  rw [List.take_of_length_le ((length_of_valid h).2.trans (by decide)),
    cString_of_zeroFree (zeroFree_of_valid h)]

theorem head_of_valid {id : Text} (h : isValidTitleId id = true) : id.head? ≠ some 46 := by
  intro hhead
  unfold isValidTitleId at h
  rw [Bool.and_eq_true] at h
  have halnum := List.all_eq_true.mp h.2 46 (List.mem_of_mem_head? hhead)
  exact absurd halnum (by decide)

/-- The first of its spelling among the names: no title in front of it differs only in case. -/
def FirstSpelling (names : List Text) (tid : Text) : Prop :=
  exists front back, names = front ++ tid :: back ∧
    forall name, name ∈ front -> isValidTitleId name = true -> strcasecmp name tid ≠ 0

theorem firstSpelling_concat {names : List Text} {last tid : Text} :
    FirstSpelling (names ++ [last]) tid ↔ FirstSpelling names tid ∨
      tid = last ∧ forall name, name ∈ names -> isValidTitleId name = true ->
        strcasecmp name tid ≠ 0 := by
  constructor
  · intro h
    rcases h with ⟨front, back, hsplit, hfront⟩
    cases back using List.reverseRecOn with
    | nil =>
        have hparts := List.append_inj' hsplit rfl
        refine Or.inr ⟨(List.singleton_inj.mp hparts.2).symm, ?_⟩
        rw [hparts.1]
        exact hfront
    | append_singleton back x =>
        rw [<- List.cons_append, <- List.append_assoc] at hsplit
        have hparts := List.append_inj' hsplit rfl
        exact Or.inl ⟨front, back, hparts.1, hfront⟩
  · intro h
    rcases h with hold | hnew
    · rcases hold with ⟨front, back, hsplit, hfront⟩
      refine ⟨front, back ++ [last], ?_, hfront⟩
      rw [hsplit, List.append_assoc, List.cons_append]
    · rcases hnew with ⟨rfl, hnames⟩
      exact ⟨names, [], rfl, hnames⟩

theorem noteCandidate_length (tids : List Text) (name : Text) :
    tids.length ≤ (noteCandidate tids name).length := by
  unfold noteCandidate
  split
  · exact le_rfl
  · split
    · rw [List.length_append]
      exact Nat.le_add_right _ _
    · exact le_rfl

/-- What the list of candidates is while it is not full: the first spelling of each title. -/
structure Candidates (names tids : List Text) : Prop where
  first : forall tid, tid ∈ tids ↔ isValidTitleId tid = true ∧ FirstSpelling names tid
  spelled : forall name, name ∈ names -> isValidTitleId name = true ->
    exists tid, tid ∈ tids ∧ strcasecmp tid name = 0

theorem strcasecmp_trans {a b c : Text} (ha : isValidTitleId a = true)
    (hb : isValidTitleId b = true) (hc : isValidTitleId c = true) (hab : strcasecmp a b = 0)
    (hbc : strcasecmp b c = 0) : strcasecmp a c = 0 := by
  rw [strcasecmp_zero (zeroFree_of_valid ha) (zeroFree_of_valid hb)] at hab
  rw [strcasecmp_zero (zeroFree_of_valid hb) (zeroFree_of_valid hc)] at hbc
  rw [strcasecmp_zero (zeroFree_of_valid ha) (zeroFree_of_valid hc)]
  exact hab.trans hbc

theorem firstSpelling_mem {names : List Text} {tid : Text} (h : FirstSpelling names tid) :
    tid ∈ names := by
  rcases h with ⟨front, back, rfl, _⟩
  exact List.mem_append_right _ List.mem_cons_self

theorem isTitleInList_iff {names tids : List Text} (h : Candidates names tids) {last : Text}
    (hlast : isValidTitleId last = true) :
    isTitleInList tids last = true ↔
      exists name, name ∈ names ∧ isValidTitleId name = true ∧ strcasecmp name last = 0 := by
  unfold isTitleInList
  rw [List.any_eq_true]
  constructor
  · intro hin
    rcases hin with ⟨tid, htid, hsame⟩
    rcases (h.first tid).mp htid with ⟨hvalid, hfirst⟩
    exact ⟨tid, firstSpelling_mem hfirst, hvalid, beq_iff_eq.mp hsame⟩
  · intro hname
    rcases hname with ⟨name, hmem, hvalid, hsame⟩
    rcases h.spelled name hmem hvalid with ⟨tid, htid, htidName⟩
    refine ⟨tid, htid, beq_iff_eq.mpr ?_⟩
    exact strcasecmp_trans ((h.first tid).mp htid).1 hvalid hlast htidName hsame

theorem candidates_note {names tids : List Text} (h : Candidates names tids) {last : Text}
    (hroom : (noteCandidate tids last).length < 256) :
    Candidates (names ++ [last]) (noteCandidate tids last) := by
  have hkeep : (isValidTitleId last = true -> isTitleInList tids last = true) ->
      Candidates (names ++ [last]) tids := by
    intro hseen
    constructor
    · intro tid
      rw [h.first tid, firstSpelling_concat]
      constructor
      · intro hfirst
        exact ⟨hfirst.1, Or.inl hfirst.2⟩
      · intro hfirst
        rcases hfirst with ⟨hvalid, hold | hnew⟩
        · exact ⟨hvalid, hold⟩
        · rcases hnew with ⟨rfl, hnone⟩
          rcases (isTitleInList_iff h hvalid).mp (hseen hvalid) with ⟨name, hname, hv, hsame⟩
          exact absurd hsame (hnone name hname hv)
    · intro name hname hvalid
      rcases List.mem_append.mp hname with hold | hnew
      · exact h.spelled name hold hvalid
      · rw [List.mem_singleton.mp hnew] at hvalid ⊢
        rcases List.any_eq_true.mp (hseen hvalid) with ⟨tid, htid, hsame⟩
        exact ⟨tid, htid, beq_iff_eq.mp hsame⟩
  unfold noteCandidate at hroom ⊢
  by_cases hdot : last.head? = some 46
  · rw [if_pos hdot]
    exact hkeep (fun hvalid => absurd hdot (head_of_valid hvalid))
  · rw [if_neg hdot] at hroom ⊢
    split at hroom
    · rename_i hnew
      rw [if_pos hnew]
      rw [Bool.and_eq_true, Bool.and_eq_true, Bool.not_eq_true'] at hnew
      have hvalid := hnew.1.1
      rw [copied_valid hvalid]
      have hnone : forall name, name ∈ names -> isValidTitleId name = true ->
          strcasecmp name last ≠ 0 := by
        intro name hname hv hsame
        have hin := (isTitleInList_iff h hvalid).mpr ⟨name, hname, hv, hsame⟩
        exact absurd (hin.symm.trans hnew.1.2) (by decide)
      constructor
      · intro tid
        rw [List.mem_append, List.mem_singleton, h.first tid, firstSpelling_concat]
        constructor
        · intro hcase
          rcases hcase with hold | rfl
          · exact ⟨hold.1, Or.inl hold.2⟩
          · exact ⟨hvalid, Or.inr ⟨rfl, hnone⟩⟩
        · intro hfirst
          rcases hfirst with ⟨hv, hold | hlast⟩
          · exact Or.inl ⟨hv, hold⟩
          · exact Or.inr hlast.1
      · intro name hname hv
        rcases List.mem_append.mp hname with hold | hlast
        · rcases h.spelled name hold hv with ⟨tid, htid, hsame⟩
          exact ⟨tid, List.mem_append_left _ htid, hsame⟩
        · refine ⟨last, List.mem_append_right _ List.mem_cons_self, ?_⟩
          rw [List.mem_singleton.mp hlast, strcasecmp_zero (zeroFree_of_valid hvalid)
            (zeroFree_of_valid hvalid)]
    · rename_i hold
      rw [if_neg hold]
      apply hkeep
      intro hvalid
      rw [Bool.and_eq_true, Bool.and_eq_true, Bool.not_eq_true'] at hold
      by_contra hin
      exact hold ⟨⟨hvalid, Bool.eq_false_iff.mpr hin⟩, decide_eq_true hroom⟩

theorem candidates_fold {names : List Text} (h : (names.foldl noteCandidate []).length < 256) :
    Candidates names (names.foldl noteCandidate []) := by
  induction names using List.reverseRecOn with
  | nil =>
      constructor
      · intro tid
        constructor
        · intro hmem
          exact absurd hmem List.not_mem_nil
        · intro hfirst
          exact absurd (firstSpelling_mem hfirst.2) List.not_mem_nil
      · intro name hname
        exact absurd hname List.not_mem_nil
  | append_singleton rest last ih =>
      rw [List.foldl_append, List.foldl_cons, List.foldl_nil] at h ⊢
      exact candidates_note (ih ((noteCandidate_length _ last).trans_lt h)) h

/-!
# Printed paths
-/

/-- What is read from the escape of a byte. -/
def shownByte (c : UInt8) : UInt8 :=
  if c = quote ∨ c = backslash ∨ c = 10 ∨ c = 13 ∨ c = 9 ∨ 32 ≤ c.toNat ∧ c.toNat ≤ 126 then c
  else 32

theorem escapedByte_parsed (c : UInt8) (rest : Text) :
    jsonParseText (escapedByte c ++ rest) = (jsonParseText rest).map (shownByte c :: ·) := by
  unfold escapedByte shownByte
  by_cases hquote : c = quote
  · rw [if_pos hquote, if_pos (Or.inl hquote), hquote]
    exact jsonParseText_mark (Or.inl rfl) rest
  · by_cases hback : c = backslash
    · rw [if_neg hquote, if_pos hback, if_pos (Or.inr (Or.inl hback)), hback]
      exact jsonParseText_mark (Or.inr rfl) rest
    · rw [if_neg hquote, if_neg hback]
      split
      · rename_i h
        subst h
        exact jsonParseText_escaped (e := 110) (by decide) rfl rest
      · split
        · rename_i h
          subst h
          exact jsonParseText_escaped (e := 114) (by decide) rfl rest
        · split
          · rename_i h
            subst h
            exact jsonParseText_escaped (e := 116) (by decide) rfl rest
          · rename_i hline hreturn htab
            split
            · rename_i h
              rw [if_pos (by tauto)]
              exact jsonParseText_plain (not_or.mpr ⟨hquote, hback⟩)
                (UInt8.not_lt.mpr (UInt8.le_iff_toNat_le.mpr h.1)) rest
            · rename_i h
              rw [if_neg (by tauto)]
              exact jsonParseText_plain (by decide) (by decide) rest

theorem shownByte_ne_zero (c : UInt8) : shownByte c ≠ 0 := by
  unfold shownByte
  split
  · rename_i h
    rintro rfl
    exact absurd h (by decide)
  · decide

theorem escapedByte_shownByte (c : UInt8) : escapedByte (shownByte c) = escapedByte c := by
  unfold shownByte
  split
  · rfl
  · rename_i h
    unfold escapedByte
    rw [if_neg (by decide), if_neg (by decide), if_neg (by decide), if_neg (by decide),
      if_neg (by decide), if_pos (by decide), if_neg (by tauto), if_neg (by tauto),
      if_neg (by tauto), if_neg (by tauto), if_neg (by tauto), if_neg (by tauto)]

/-- What is read from the escape of a text is escaped in the same way. -/
theorem escapeRest_shown {maxDst d : Nat} {src text : Text}
    (h : jsonParseText (escapeRest maxDst d src) = some text) :
    escapeRest maxDst d text = escapeRest maxDst d src := by
  induction src generalizing d text with
  | nil =>
      cases h
      rfl
  | cons c rest ih =>
      unfold escapeRest at h
      split at h
      · rename_i hstop
        cases h
        conv_rhs => unfold escapeRest
        rw [if_pos hstop]
        rfl
      · rename_i hgo
        rw [escapedByte_parsed] at h
        rcases Option.map_eq_some_iff.mp h with ⟨tail, htail, rfl⟩
        have hgo' : ¬ (shownByte c = 0 ∨ maxDst ≤ d + 2) := by
          intro hstop
          rcases hstop with hzero | hfull
          · exact shownByte_ne_zero c hzero
          · exact hgo (Or.inr hfull)
        conv_lhs => unfold escapeRest
        conv_rhs => unfold escapeRest
        rw [if_neg hgo, if_neg hgo', escapedByte_shownByte, ih htail]

/-- The text that is printed for a path stands for the path itself. -/
def PrintedWhole (path : Text) : Prop :=
  jsonParseText (escapeJsonStr 512 path) = some path

theorem printedWhole_of_parsed {src path : Text}
    (h : jsonParseText (escapeJsonStr 512 src) = some path) : PrintedWhole path := by
  unfold PrintedWhole
  rw [escapeJsonStr, escapeRest_shown h]
  exact h

/-!
# The two lists
-/

/-- Each path that the deletion removes is listed for the title by the scan. -/
def DeletesOnlyOffered (env : Env) (fs : FileState) (installed : Text -> Bool) (titleId : Text) :
    Prop :=
  forall path, path ∈ (leftoversDelete env fs installed titleId).removed ->
    exists entry, entry ∈ leftoversScan env fs installed ∧ entry.titleId = titleId ∧
      entry.Lists path

/-- The deletion refuses the title, or there is nothing at any of its places. -/
def NothingToRemove (env : Env) (fs : FileState) (installed : Text -> Bool) (titleId : Text) :
    Prop :=
  isValidTitleId titleId = false ∨ isBasePackageInstalledFs env fs titleId = true ∨
    installed titleId = true ∨ existingPaths env fs titleId = []

structure Offered (env : Env) (fs : FileState) (titleId : Text) : Prop where
  first : FirstSpelling (scannedNames env fs) titleId
  content : (hasPatchDir (existingPaths env fs titleId) ||
    hasAddcontDir (existingPaths env fs titleId)) = true
  whole : forall path, path ∈ existingPaths env fs titleId -> PrintedWhole path

variable {env : Env} {fs : FileState} {installed : Text -> Bool} {titleId : Text}

theorem removed_of_installable (hvalid : isValidTitleId titleId = true)
    (hbase : isBasePackageInstalledFs env fs titleId = false)
    (happ : installed titleId = false) :
    (leftoversDelete env fs installed titleId).removed = existingPaths env fs titleId := by
  unfold leftoversDelete
  rw [if_neg (by rw [hvalid]; decide), hbase, happ, Bool.or_false, if_neg Bool.false_ne_true]
  rfl

theorem mem_leftoversScan {entry : LeftoverEntry} (h : entry ∈ leftoversScan env fs installed) :
    entry.titleId ∈ candidateTids env fs ∧
      leftoverEntry env fs installed entry.titleId = some entry := by
  rcases List.mem_filterMap.mp h with ⟨tid, htid, hentry⟩
  have hsame : entry.titleId = tid := by
    unfold leftoverEntry at hentry
    split at hentry
    · cases hentry
    · split at hentry
      · cases hentry
      · dsimp only at hentry
        split at hentry
        · cases hentry
        · cases hentry
          rfl
  rw [hsame]
  exact ⟨htid, hentry⟩

theorem leftoverEntry_some {entry : LeftoverEntry}
    (h : leftoverEntry env fs installed titleId = some entry) :
    (hasPatchDir (existingPaths env fs titleId) ||
        hasAddcontDir (existingPaths env fs titleId)) = true ∧
      entry.paths = (existingPaths env fs titleId).map (escapeJsonStr 512) := by
  unfold leftoverEntry at h
  split at h
  · cases h
  · split at h
    · cases h
    · dsimp only at h
      split at h
      · cases h
      · rename_i hcontent
        cases h
        refine ⟨?_, rfl⟩
        rw [<- Bool.not_or, Bool.not_eq_true', Bool.not_eq_false] at hcontent
        exact hcontent

/-- The scan lists a title that is not installed exactly when it has the first spelling and
there is a patch or additional content. -/
theorem leftoverEntry_of_content (hbase : isBasePackageInstalledFs env fs titleId = false)
    (happ : installed titleId = false)
    (hcontent : (hasPatchDir (existingPaths env fs titleId) ||
      hasAddcontDir (existingPaths env fs titleId)) = true) :
    exists entry, leftoverEntry env fs installed titleId = some entry ∧ entry.titleId = titleId ∧
      entry.paths = (existingPaths env fs titleId).map (escapeJsonStr 512) := by
  unfold leftoverEntry
  rw [hbase, happ, if_neg Bool.false_ne_true, if_neg Bool.false_ne_true]
  dsimp only
  rw [<- Bool.not_or, hcontent, Bool.not_true, if_neg Bool.false_ne_true]
  exact ⟨_, rfl, rfl, rfl⟩

/-- The deletion removes only what the scan offers exactly when there is nothing to remove or
the scan offers the title with all its paths. -/
theorem deletion_offered_iff (hroom : (candidateTids env fs).length < 256) :
    DeletesOnlyOffered env fs installed titleId ↔
      NothingToRemove env fs installed titleId ∨ Offered env fs titleId := by
  have hcandidates : Candidates (scannedNames env fs) (candidateTids env fs) :=
    candidates_fold hroom
  constructor
  · intro h
    by_cases hnothing : NothingToRemove env fs installed titleId
    · exact Or.inl hnothing
    · refine Or.inr ?_
      unfold NothingToRemove at hnothing
      rw [not_or, not_or, not_or, Bool.not_eq_false, Bool.not_eq_true, Bool.not_eq_true] at hnothing
      rcases hnothing with ⟨hvalid, hbase, happ, hpaths⟩
      unfold DeletesOnlyOffered at h
      rw [removed_of_installable hvalid hbase happ] at h
      rcases List.exists_mem_of_ne_nil _ hpaths with ⟨some, hsome⟩
      rcases h some hsome with ⟨entry, hentry, htitle, _⟩
      rcases mem_leftoversScan hentry with ⟨hcandidate, hmade⟩
      rw [htitle] at hcandidate hmade
      constructor
      · exact ((hcandidates.first titleId).mp hcandidate).2
      · exact (leftoverEntry_some hmade).1
      · intro path hpath
        rcases h path hpath with ⟨entry', hentry', htitle', text, htext, hparsed⟩
        rcases mem_leftoversScan hentry' with ⟨_, hmade'⟩
        rw [htitle'] at hmade'
        rw [(leftoverEntry_some hmade').2] at htext
        rcases List.mem_map.mp htext with ⟨src, _, rfl⟩
        exact printedWhole_of_parsed hparsed
  · intro h path hpath
    unfold leftoversDelete at hpath
    split at hpath
    · exact absurd hpath List.not_mem_nil
    · rename_i hvalid
      split at hpath
      · exact absurd hpath List.not_mem_nil
      · rename_i hrefused
        rw [Bool.not_eq_false] at hvalid
        rw [Bool.not_eq_true, Bool.or_eq_false_iff] at hrefused
        have hmem : path ∈ existingPaths env fs titleId := hpath
        rcases h with hnothing | hoffered
        · rcases hnothing with hinvalid | hbase | happ | hempty
          · exact absurd (hvalid.symm.trans hinvalid) (by decide)
          · exact absurd (hbase.symm.trans hrefused.1) (by decide)
          · exact absurd (happ.symm.trans hrefused.2) (by decide)
          · rw [hempty] at hmem
            exact absurd hmem List.not_mem_nil
        · rcases leftoverEntry_of_content hrefused.1 hrefused.2 hoffered.content with
            ⟨entry, hmade, htitle, hlisted⟩
          refine ⟨entry, ?_, htitle, escapeJsonStr 512 path, ?_, hoffered.whole path hmem⟩
          · apply List.mem_filterMap.mpr
            exact ⟨titleId, (hcandidates.first titleId).mpr ⟨hvalid, hoffered.first⟩, hmade⟩
          · rw [hlisted]
            exact List.mem_map_of_mem hmem

/-!
# One title
-/

def plainEnv : Env where
  appmetaDir := none
  userAppmetaDir := none
  userPatchDir := none
  addcontDir := none
  userAppDir := none

/-- A file system with one directory for the title. -/
def oneDir (base : String) : FileState where
  names dir := if dir = ascii base then some [ascii "CUSA00001"] else some []
  stat path := path == ascii base ++ ascii "/CUSA00001"
  dirSize _ := 0
  sfoTitle _ := none
  jsonTitle _ := none
  sfoVersion _ := none

theorem patch_removed_as_offered :
    DeletesOnlyOffered plainEnv (oneDir "/user/patch") (fun _ => false) (ascii "CUSA00001") := by
  have hroom : (candidateTids plainEnv (oneDir "/user/patch")).length < 256 := by decide +kernel
  have hnames : scannedNames plainEnv (oneDir "/user/patch") = [ascii "CUSA00001"] := by
    decide +kernel
  have hpaths : existingPaths plainEnv (oneDir "/user/patch") (ascii "CUSA00001") =
      [ascii "/user/patch/CUSA00001"] := by
    decide +kernel
  have hwhole : PrintedWhole (ascii "/user/patch/CUSA00001") := by
    unfold PrintedWhole
    decide +kernel
  apply (deletion_offered_iff hroom).mpr
  refine Or.inr ⟨?_, ?_, ?_⟩
  · exact ⟨[], [], hnames, fun name hname => absurd hname List.not_mem_nil⟩
  · decide +kernel
  · intro path hpath
    rw [hpaths] at hpath
    rw [List.mem_singleton.mp hpath]
    exact hwhole

/-- A title without patch and additional content loses what the console keeps about it. -/
theorem appmeta_removed :
    (candidateTids plainEnv (oneDir "/user/appmeta")).length < 256 ∧
      ¬ DeletesOnlyOffered plainEnv (oneDir "/user/appmeta") (fun _ => false)
        (ascii "CUSA00001") := by
  constructor
  · decide +kernel
  · intro h
    have hremoved : ascii "/user/appmeta/CUSA00001" ∈
        (leftoversDelete plainEnv (oneDir "/user/appmeta") (fun _ => false)
          (ascii "CUSA00001")).removed := by
      decide +kernel
    have hscan : leftoversScan plainEnv (oneDir "/user/appmeta") (fun _ => false) = [] := by
      decide +kernel
    rcases h _ hremoved with ⟨entry, hentry, _⟩
    rw [hscan] at hentry
    exact absurd hentry List.not_mem_nil

end Leftovers
end PkgManager
