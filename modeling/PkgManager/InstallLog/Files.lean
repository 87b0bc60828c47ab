import PkgManager.InstallLog.Kept

/-!
# What the files keep

The file has the errors and warnings, each once, and the two files have the end of what was
written to them, also by earlier runs.
-/

namespace PkgManager
namespace InstallLog

open CString
open Transition
open PkgManager.Parser (Text)

/-!
# The lines for the file
-/

def flaggedAfter (a : LogAnswer) (lines : List Text) : LogPoint -> List Text
  | LogPoint.logs text =>
      if isLogWarningOrError (stripped text) then lines ++ (lineOf a text).toList else lines
  | _ => lines

/-- The errors and warnings logged, whether or not the log was cleared. -/
def flagged (tr : LogTrace) : List Text :=
  tr.foldl (recorded flaggedAfter) []

def writtenAfter (a : LogAnswer) (lines : List Text) : LogPoint -> List Text
  | LogPoint.appends _ line => if a.opens then lines ++ [line] else lines
  | _ => lines

/-- The lines that the threads have written to the file. -/
def written (tr : LogTrace) : List Text :=
  tr.foldl (recorded writtenAfter) []

def refusedAfter (a : LogAnswer) (lines : List Text) : LogPoint -> List Text
  | LogPoint.appends _ line => if a.opens then lines else lines ++ [line]
  | _ => lines

/-- The lines for which the file could not be opened. -/
def refused (tr : LogTrace) : List Text :=
  tr.foldl (recorded refusedAfter) []

/-- The line that a thread is about to write. -/
def LogPoint.hand : LogPoint -> List Text
  | LogPoint.appends _ line => [line]
  | _ => []

def inHand (p : Pool LogWorld LogPoint) : List Text :=
  p.threads.flatMap LogPoint.hand

/-!
# The two files
-/

/-- A file as it was written, or behind the notice that a rotation leaves. -/
def Noticed (file body : Text) : Prop :=
  file = body ∨ file = rotationNotice defaultLogFilePath ++ body

/-- The two files have the end of what was written, and all of it as long as the old file
is not longer than the limit. -/
def EndKept (all old log : Text) : Prop :=
  exists oldBody body, Noticed old oldBody ∧ Noticed log body ∧ oldBody ++ body <:+ all ∧
    (oldBody ++ body = all ∨ maxLogFileSize < old.length)

theorem Noticed.append {file body : Text} (h : Noticed file body) (more : Text) :
    Noticed (file ++ more) (body ++ more) := by
  rcases h with rfl | rfl
  · exact Or.inl rfl
  · exact Or.inr (List.append_assoc _ _ _)

theorem EndKept.append {all old log : Text} (h : EndKept all old log) (more : Text) :
    EndKept (all ++ more) old (log ++ more) := by
  rcases h with ⟨oldBody, body, hold, hlog, ⟨lost, hlost⟩, hmissing⟩
  refine ⟨oldBody, body ++ more, hold, hlog.append more, ⟨lost, ?_⟩, ?_⟩
  · rw [<- hlost]
    simp only [List.append_assoc]
  · rcases hmissing with heq | hlong
    · left
      rw [<- heq, List.append_assoc]
    · exact Or.inr hlong

/-- The file is moved away and a new one is begun. -/
theorem EndKept.rotate {all old log : Text} (h : EndKept all old log)
    (hlong : maxLogFileSize < log.length) {next more : Text} (hnext : Noticed next more) :
    EndKept (all ++ more) log next := by
  rcases h with ⟨oldBody, body, _, hlog, ⟨lost, hlost⟩, _⟩
  refine ⟨body, more, hlog, hnext, ⟨lost ++ oldBody, ?_⟩, Or.inr hlong⟩
  rw [<- hlost]
  simp only [List.append_assoc]

def contents (files : Text -> Option Text) (path : Text) : Text :=
  (files path).getD []

def logOf (files : Text -> Option Text) : Text := contents files defaultLogFilePath

def oldOf (files : Text -> Option Text) : Text := contents files (oldPathOf defaultLogFilePath)

theorem oldPath_ne : oldPathOf defaultLogFilePath ≠ defaultLogFilePath := by
  decide

theorem length_rotationNotice : (rotationNotice defaultLogFilePath).length < 100 := by
  decide

theorem contents_appendTo (files : Text -> Option Text) (path more : Text) :
    contents (appendTo files path more) path = contents files path ++ more := by
  unfold contents appendTo
  rw [Function.update_self]
  rfl

theorem contents_appendTo_of_ne (files : Text -> Option Text) {path other : Text} (more : Text)
    (hne : other ≠ path) : contents (appendTo files path more) other = contents files other := by
  unfold contents appendTo
  rw [Function.update_of_ne hne]

theorem oldOf_rotated {a : LogAnswer} (files : Text -> Option Text) (ha : a.renames = true) :
    oldOf (rotated a files defaultLogFilePath) = logOf files := by
  unfold oldOf logOf contents rotated
  rw [if_pos ha, Function.update_of_ne oldPath_ne, Function.update_self]

theorem logOf_rotated {a : LogAnswer} (files : Text -> Option Text) (ha : a.renames = true) :
    logOf (rotated a files defaultLogFilePath) = [] := by
  unfold logOf contents rotated
  rw [if_pos ha, Function.update_self]
  rfl

/-- What one section of {lit}`append_to_log_file` leaves of the two files. -/
structure Appended (a : LogAnswer) (files files' : Text -> Option Text) (line : Text) :
    Prop where
  kept : forall all, EndKept all (oldOf files) (logOf files) ->
    EndKept (all ++ (if a.opens then line ++ [10] else [])) (oldOf files') (logOf files')
  old : (oldOf files').length ≤ max (oldOf files).length (logOf files).length
  log : (logOf files').length ≤
    max (logOf files).length (maxLogFileSize + (line.length + 1))

theorem appended_appendToLogFile {a : LogAnswer} (files : Text -> Option Text) (line : Text)
    (ha : a.renames = true) :
    Appended a files (appendToLogFile a files defaultLogFilePath line) line := by
  have hpath : ¬ (defaultLogFilePath = [] ∨ defaultLogFilePath = ascii "none") := by decide
  unfold appendToLogFile
  rw [if_neg hpath]
  change Appended a files (if (logOf files).length > maxLogFileSize then _ else _) line
  by_cases hlong : (logOf files).length > maxLogFileSize
  · rw [if_pos hlong]
    by_cases hopens : a.opens = true
    · rw [if_pos hopens]
      have hold : oldOf (appendTo (Function.update (rotated a files defaultLogFilePath)
          defaultLogFilePath (some [])) defaultLogFilePath
            (rotationNotice defaultLogFilePath ++ line ++ [10])) = logOf files := by
        rw [oldOf, contents_appendTo_of_ne _ _ oldPath_ne, contents,
          Function.update_of_ne oldPath_ne]
        exact oldOf_rotated files ha
      have hlog : logOf (appendTo (Function.update (rotated a files defaultLogFilePath)
          defaultLogFilePath (some [])) defaultLogFilePath
            (rotationNotice defaultLogFilePath ++ line ++ [10])) =
          rotationNotice defaultLogFilePath ++ (line ++ [10]) := by
        rw [logOf, contents_appendTo, contents, Function.update_self, List.append_assoc]
        rfl
      refine ⟨?_, ?_, ?_⟩
      · intro all hall
        rw [if_pos hopens, hold, hlog]
        exact hall.rotate hlong (Or.inr rfl)
      · rw [hold]
        exact Nat.le_max_right _ _
      · rw [hlog, List.length_append, List.length_append, List.length_singleton]
        have hshort := length_rotationNotice
        have hsize : 100 ≤ maxLogFileSize := by decide
        omega
    · rw [if_neg hopens]
      refine ⟨?_, ?_, ?_⟩
      · intro all hall
        rw [if_neg hopens, oldOf_rotated files ha, logOf_rotated files ha]
        exact hall.rotate hlong (Or.inl rfl)
      · rw [oldOf_rotated files ha]
        exact Nat.le_max_right _ _
      · rw [logOf_rotated files ha]
        exact Nat.zero_le _
  · rw [if_neg hlong]
    by_cases hopens : a.opens = true
    · rw [if_pos hopens]
      have hold : oldOf (appendTo files defaultLogFilePath (line ++ [10])) = oldOf files :=
        contents_appendTo_of_ne _ _ oldPath_ne
      have hlog : logOf (appendTo files defaultLogFilePath (line ++ [10])) =
          logOf files ++ (line ++ [10]) := contents_appendTo _ _ _
      refine ⟨?_, ?_, ?_⟩
      · intro all hall
        rw [if_pos hopens, hold, hlog]
        exact hall.append _
      · rw [hold]
        exact Nat.le_max_left _ _
      · rw [hlog, List.length_append, List.length_append, List.length_singleton]
        omega
    · rw [if_neg hopens]
      refine ⟨?_, Nat.le_max_left _ _, Nat.le_max_left _ _⟩
      intro all hall
      rw [if_neg hopens, List.append_nil]
      exact hall

/-!
# The files in a run
-/

/-- The path stays, and no file that is moved away is left in its place. -/
def RotatesFiles (_p : Pool LogWorld LogPoint) : Move LogCall LogAnswer -> Prop
  | Move.call (LogCall.setFilePath _) => False
  | Move.call _ => True
  | Move.run _ a => a.renames = true

instance (p : Pool LogWorld LogPoint) (l : Move LogCall LogAnswer) :
    Decidable (RotatesFiles p l) :=
  match l with
  | Move.call (LogCall.setFilePath _) => isFalse id
  | Move.call (LogCall.log _) => isTrue trivial
  | Move.call LogCall.clear => isTrue trivial
  | Move.call LogCall.getText => isTrue trivial
  | Move.call LogCall.getFileText => isTrue trivial
  | Move.run _ a => inferInstanceAs (Decidable (a.renames = true))

/-- A thread that is about to write to the file has a line of the ring. -/
def Aimed : LogPoint -> Prop
  | LogPoint.appends filepath line =>
      filepath = defaultLogFilePath ∧ line.length < maxLogLineLen
  | LogPoint.setsFilePath _ => False
  | _ => True

/-- The longest that one of the files may become. -/
def fileBound (files : Text -> Option Text) : Nat :=
  max (max (oldOf files).length (logOf files).length) (maxLogFileSize + maxLogLineLen)

structure FilesKept (start : Text -> Option Text) (lines : List Text) (p : Pool LogWorld LogPoint) :
    Prop where
  path : p.shared.filePath = defaultLogFilePath
  threads : forall x, x ∈ p.threads -> Aimed x
  kept : EndKept (oldOf start ++ logOf start ++ joined lines) (oldOf p.shared.files)
    (logOf p.shared.files)
  old : (oldOf p.shared.files).length ≤ fileBound start
  log : (logOf p.shared.files).length ≤ fileBound start

theorem length_lineOf {a : LogAnswer} {text line : Text} (h : lineOf a text = some line) :
    line.length < maxLogLineLen := by
  rw [<- fits_lineOf h]
  unfold fits
  rw [List.length_take]
  have hpos : 0 < maxLogLineLen := by decide
  omega

/-- A section that neither writes to the files nor moves their path. -/
theorem FilesKept.of_same {start : Text -> Option Text} {lines : List Text}
    {p q : Pool LogWorld LogPoint} (h : FilesKept start lines p)
    (hpath : q.shared.filePath = p.shared.filePath) (hfiles : q.shared.files = p.shared.files)
    (hthreads : forall x, x ∈ q.threads -> Aimed x) : FilesKept start lines q where
  path := hpath.trans h.path
  threads := hthreads
  kept := by
    rw [hfiles]
    exact h.kept
  old := by
    rw [hfiles]
    exact h.old
  log := by
    rw [hfiles]
    exact h.log

theorem aimed_after {p : Pool LogWorld LogPoint} (h : forall x, x ∈ p.threads -> Aimed x)
    {t : Nat} {o : Section LogWorld LogPoint} (hpoint : Aimed o.point)
    (hcreated : o.created = none) :
    forall x, x ∈ (p.after t o).threads -> Aimed x := by
  intro x hx
  rcases mem_after hx with hold | rfl | hnew
  · exact h x hold
  · exact hpoint
  · rw [hcreated] at hnew
    cases hnew

theorem filesKept_run {start : Text -> Option Text} {lines : List Text}
    {p : Pool LogWorld LogPoint} {t : Nat} {a : LogAnswer} {point : LogPoint}
    {o : Section LogWorld LogPoint} (h : FilesKept start lines p)
    (hpoint : p.threads[t]? = some point) (ha : a.renames = true)
    (hstep : logStep p.shared a point = some o) :
    FilesKept start (writtenAfter a lines point) (p.after t o) := by
  have haimed := h.threads point (List.mem_of_getElem? hpoint)
  cases point with
  | logs text =>
      cases hstep
      change FilesKept start lines (p.after t (installLog p.shared a text))
      unfold installLog
      cases hline : lineOf a text with
      | none => exact h.of_same rfl rfl (aimed_after h.threads trivial rfl)
      | some line =>
          refine h.of_same rfl rfl (aimed_after h.threads ?_ rfl)
          dsimp only
          split
          · rw [h.path]
            exact ⟨by decide, length_lineOf hline⟩
          · trivial
  | appends filepath line =>
      rcases haimed with ⟨rfl, hshort⟩
      cases hstep
      have happended := appended_appendToLogFile p.shared.files line ha
      have hold := h.old
      have hlog := h.log
      have holdGrows := happended.old
      have hlogGrows := happended.log
      have hbound : maxLogFileSize + maxLogLineLen ≤ fileBound start := Nat.le_max_right _ _
      refine ⟨h.path, aimed_after h.threads trivial rfl, ?_, ?_, ?_⟩
      · have hkept := happended.kept _ h.kept
        rw [List.append_assoc] at hkept
        have hbytes : joined (writtenAfter a lines (LogPoint.appends defaultLogFilePath line)) =
            joined lines ++ (if a.opens = true then line ++ [10] else []) := by
          change joined (if a.opens = true then lines ++ [line] else lines) = _
          split
          · exact joined_snoc lines line
          · rw [List.append_nil]
        rw [hbytes]
        exact hkept
      · change (oldOf (appendToLogFile a p.shared.files defaultLogFilePath line)).length ≤ _
        omega
      · change (logOf (appendToLogFile a p.shared.files defaultLogFilePath line)).length ≤ _
        omega
  | clears =>
      cases hstep
      exact h.of_same rfl rfl (aimed_after h.threads trivial rfl)
  | setsFilePath path => exact absurd haimed id
  | readsText =>
      cases hstep
      refine h.of_same rfl rfl (aimed_after h.threads ?_ rfl)
      change Aimed (installLogGetText p.shared a)
      unfold installLogGetText
      split
      · trivial
      · split
        · trivial
        · trivial
  | readsFallback path =>
      cases hstep
      exact h.of_same rfl rfl (aimed_after h.threads trivial rfl)
  | readsPath =>
      cases hstep
      exact h.of_same rfl rfl (aimed_after h.threads trivial rfl)
  | readsFiles path =>
      cases hstep
      exact h.of_same rfl rfl (aimed_after h.threads trivial rfl)
  | returned text => cases hstep
  | ended => cases hstep

/-!
# Every error and warning
-/

theorem count_inHand_after {p : Pool LogWorld LogPoint} {t : Nat} {point : LogPoint}
    {o : Section LogWorld LogPoint} (hpoint : p.threads[t]? = some point)
    (hcreated : o.created = none) (line : Text) :
    (inHand (p.after t o)).count line + point.hand.count line =
      (inHand p).count line + o.point.hand.count line := by
  have hset := count_flatMap_set LogPoint.hand line hpoint o.point
  unfold inHand Pool.after
  rw [hcreated, Option.toList_none, List.append_nil]
  exact hset

/-- Each of them is written, has been refused by the file, or is in the hand of a thread. -/
def Accounted (tr : LogTrace) (p : Pool LogWorld LogPoint) : Prop :=
  (flagged tr).Perm (written tr ++ (refused tr ++ inHand p))

/-- A section moves the lines between these places. -/
theorem Accounted.snoc {tr : LogTrace} {p : Pool LogWorld LogPoint} {t : Nat} {a : LogAnswer}
    {point : LogPoint} {o : Section LogWorld LogPoint} (h : Accounted tr p)
    (hpoint : p.threads[t]? = some point) (hcreated : o.created = none)
    (hmoves : forall line,
      (flaggedAfter a (flagged tr) point).count line + (written tr).count line +
          (refused tr).count line + point.hand.count line =
        (flagged tr).count line + (writtenAfter a (written tr) point).count line +
          (refusedAfter a (refused tr) point).count line + o.point.hand.count line) :
    Accounted (tr ++ [(p, Move.run t a)]) (p.after t o) := by
  unfold Accounted flagged written refused at *
  rw [foldl_snoc, foldl_snoc, foldl_snoc, recorded_run _ _ hpoint, recorded_run _ _ hpoint,
    recorded_run _ _ hpoint]
  rw [List.perm_iff_count] at h ⊢
  intro line
  have hline := h line
  have hmove := hmoves line
  have hcount := count_inHand_after hpoint hcreated line
  simp only [List.count_append] at hline ⊢
  omega

/-- A section that takes no line and gives none away. -/
theorem Accounted.of_same {tr : LogTrace} {p : Pool LogWorld LogPoint} {t : Nat} {a : LogAnswer}
    {point : LogPoint} {o : Section LogWorld LogPoint} (h : Accounted tr p)
    (hpoint : p.threads[t]? = some point) (hcreated : o.created = none)
    (hflagged : flaggedAfter a (flagged tr) point = flagged tr)
    (hwritten : writtenAfter a (written tr) point = written tr)
    (hrefused : refusedAfter a (refused tr) point = refused tr)
    (hhand : o.point.hand = point.hand) :
    Accounted (tr ++ [(p, Move.run t a)]) (p.after t o) := by
  refine h.snoc hpoint hcreated ?_
  intro line
  rw [hflagged, hwritten, hrefused, hhand]

theorem accounted_run {start : Text -> Option Text} {tr : LogTrace}
    {p : Pool LogWorld LogPoint} {t : Nat} {a : LogAnswer} {point : LogPoint}
    {o : Section LogWorld LogPoint} (hkept : FilesKept start (written tr) p)
    (h : Accounted tr p) (hpoint : p.threads[t]? = some point)
    (hstep : logStep p.shared a point = some o) :
    Accounted (tr ++ [(p, Move.run t a)]) (p.after t o) := by
  cases point with
  | logs text =>
      cases hstep
      have hpath : fits 256 p.shared.filePath ≠ [] := by
        rw [hkept.path]
        decide
      have hflagged : flaggedAfter a (flagged tr) (LogPoint.logs text) =
          if isLogWarningOrError (stripped text) then flagged tr ++ (lineOf a text).toList
          else flagged tr := rfl
      unfold installLog
      cases hline : lineOf a text with
      | none =>
          refine h.of_same hpoint rfl ?_ rfl rfl rfl
          rw [hflagged, hline]
          split
          · exact List.append_nil _
          · rfl
      | some line =>
          dsimp only
          by_cases hwarns : isLogWarningOrError (stripped text) = true
          · rw [if_pos ⟨hpath, hwarns⟩]
            rw [if_pos hwarns, hline, Option.toList_some] at hflagged
            refine h.snoc hpoint rfl ?_
            intro other
            rw [hflagged, List.count_append]
            change _ + _ + _ + 0 = _ + (written tr).count other + (refused tr).count other +
              [line].count other
            omega
          · rw [if_neg (fun hboth => hwarns hboth.2)]
            refine h.of_same hpoint rfl ?_ rfl rfl rfl
            rw [hflagged, if_neg hwarns]
  | appends filepath line =>
      cases hstep
      refine h.snoc hpoint rfl ?_
      intro other
      change (flagged tr).count other + _ + _ + [line].count other =
        _ + (if a.opens = true then written tr ++ [line] else written tr).count other +
          (if a.opens = true then refused tr else refused tr ++ [line]).count other + 0
      split
      · rw [List.count_append]
        omega
      · rw [List.count_append]
        omega
  | clears =>
      cases hstep
      exact h.of_same hpoint rfl rfl rfl rfl rfl
  | setsFilePath path => exact absurd (hkept.threads _ (List.mem_of_getElem? hpoint)) id
  | readsText =>
      cases hstep
      refine h.of_same hpoint rfl rfl rfl rfl ?_
      change (installLogGetText p.shared a).hand = []
      unfold installLogGetText
      split
      · rfl
      · split
        · rfl
        · rfl
  | readsFallback path =>
      cases hstep
      exact h.of_same hpoint rfl rfl rfl rfl rfl
  | readsPath =>
      cases hstep
      exact h.of_same hpoint rfl rfl rfl rfl rfl
  | readsFiles path =>
      cases hstep
      exact h.of_same hpoint rfl rfl rfl rfl rfl
  | returned text => cases hstep
  | ended => cases hstep

/-!
# All runs
-/

theorem hand_entry (c : LogCall) : c.entry.hand = [] := by
  cases c <;> rfl

theorem aimed_entry {p : Pool LogWorld LogPoint} {c : LogCall}
    (hok : RotatesFiles p (Move.call c)) : Aimed c.entry := by
  cases c with
  | setFilePath path => exact hok
  | log text => trivial
  | clear => trivial
  | getText => trivial
  | getFileText => trivial

theorem filesKept_fresh (files : Text -> Option Text) : FilesKept files [] (freshLog files) := by
  refine ⟨rfl, fun x hx => absurd hx List.not_mem_nil, ?_, ?_, ?_⟩
  · have hall : oldOf files ++ logOf files ++ joined [] = oldOf files ++ logOf files :=
      List.append_nil _
    rw [hall]
    exact ⟨oldOf files, logOf files, Or.inl rfl, Or.inl rfl, List.suffix_refl _, Or.inl rfl⟩
  · exact (Nat.le_max_left _ _).trans (Nat.le_max_left _ _)
  · exact (Nat.le_max_right _ _).trans (Nat.le_max_left _ _)

theorem logInv_run {files : Text -> Option Text} {tr : LogTrace} {q : Pool LogWorld LogPoint}
    (hrun : Run logProgram.system RotatesFiles (freshLog files) tr q) :
    FilesKept files (written tr) q ∧ Accounted tr q := by
  have hfresh : FilesKept files (written []) (freshLog files) ∧ Accounted [] (freshLog files) :=
    ⟨filesKept_fresh files, List.Perm.refl _⟩
  refine @run_history_invariant _ _ _ _ _ _ _
    (fun tr q => FilesKept files (written tr) q ∧ Accounted tr q) ?_ hrun hfresh
  rintro tr p q l ⟨hkept, haccounted⟩ hok hnext
  cases l with
  | call c =>
      rw [next_call] at hnext
      cases hnext
      constructor
      · unfold written
        rw [foldl_snoc]
        refine hkept.of_same rfl rfl ?_
        intro x hx
        rcases mem_enter hx with hold | rfl
        · exact hkept.threads x hold
        · exact aimed_entry hok
      · unfold Accounted flagged written refused inHand at *
        rw [foldl_snoc, foldl_snoc, foldl_snoc]
        change List.Perm _ (_ ++ (_ ++ (p.threads ++ [c.entry]).flatMap LogPoint.hand))
        rw [List.flatMap_append, List.flatMap_singleton, hand_entry, List.append_nil]
        exact haccounted
  | run t a =>
      rcases next_run hnext with ⟨point, o, hpoint, hstep, rfl⟩
      refine ⟨?_, accounted_run hkept haccounted hpoint hstep⟩
      unfold written
      rw [foldl_snoc, recorded_run _ _ hpoint]
      exact filesKept_run hkept hpoint hok hstep

/-- The error is written behind what an earlier run has left. -/
def writesError : List (Move LogCall LogAnswer) :=
  logsTwice.concat (Move.run 0 {})

def earlierFiles : Text -> Option Text :=
  Function.update (fun _ => none) defaultLogFilePath (some (ascii "[earlier] failed\n"))

theorem observedFiles :
    exists tr q, Run logProgram.system RotatesFiles (freshLog earlierFiles) tr q ∧
      (flagged tr, written tr, logOf q.shared.files) =
        ([errorLine], [errorLine], ascii "[earlier] failed\n" ++ (errorLine ++ [10])) := by
  have hexec : (traceWhile logProgram.system RotatesFiles (freshLog earlierFiles)
      writesError).map (fun r => (flagged r.1, written r.1, logOf r.2.shared.files)) =
        some ([errorLine], [errorLine], ascii "[earlier] failed\n" ++ (errorLine ++ [10])) := by
    decide
  rcases Option.map_eq_some_iff.mp hexec with ⟨r, hr, hobs⟩
  exact ⟨r.1, r.2, run_of_traceWhile hr, hobs⟩

end InstallLog
end PkgManager
