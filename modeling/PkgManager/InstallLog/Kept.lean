import PkgManager.InstallLog.Threads

/-!
# What the ring keeps

However the threads that log, clear and read alternate, the ring has the last lines that
were logged since it was cleared.
-/

namespace PkgManager
namespace InstallLog

open CString
open Transition
open PkgManager.Parser (Text)

/-!
# The lines of a run
-/

abbrev LogTrace := List (Pool LogWorld LogPoint × Move LogCall LogAnswer)

/-- What the sections of a run amount to, when each adds to what was before. -/
def recorded {β : Type} (after : LogAnswer -> β -> LogPoint -> β) (x : β)
    (step : Pool LogWorld LogPoint × Move LogCall LogAnswer) : β :=
  match step.2 with
  | Move.call _ => x
  | Move.run t a =>
      match step.1.threads[t]? with
      | none => x
      | some point => after a x point

theorem recorded_run {β : Type} (after : LogAnswer -> β -> LogPoint -> β) (x : β)
    {p : Pool LogWorld LogPoint} {t : Nat} {point : LogPoint}
    (hpoint : p.threads[t]? = some point) (a : LogAnswer) :
    recorded after x (p, Move.run t a) = after a x point := by
  unfold recorded
  dsimp only
  rw [hpoint]

theorem foldl_snoc {β : Type} (after : LogAnswer -> β -> LogPoint -> β) (x : β) (tr : LogTrace)
    (step : Pool LogWorld LogPoint × Move LogCall LogAnswer) :
    (tr ++ [step]).foldl (recorded after) x =
      recorded after (tr.foldl (recorded after) x) step := by
  rw [List.foldl_append, List.foldl_cons, List.foldl_nil]

def linesAfter (a : LogAnswer) (lines : List Text) : LogPoint -> List Text
  | LogPoint.logs text => lines ++ (lineOf a text).toList
  | LogPoint.clears => []
  | _ => lines

/-- The lines logged since the ring was last cleared. -/
def history (tr : LogTrace) : List Text :=
  tr.foldl (recorded linesAfter) []

/-!
# The ring
-/

/-- The ring from its oldest line on. -/
def ringLines (w : LogWorld) : List Text :=
  Ring.view maxLogLines w.buffer (w.head + maxLogLines - w.count) w.count

structure RingHolds (w : LogWorld) (lines : List Text) : Prop where
  head : w.head < maxLogLines
  count : w.count = min lines.length maxLogLines
  lines : ringLines w = lines.rtake maxLogLines

theorem fits_fits (size : Nat) (text : Text) : fits size (fits size text) = fits size text := by
  unfold fits
  rw [List.take_take, Nat.min_self]

theorem fits_lineOf {a : LogAnswer} {text line : Text} (h : lineOf a text = some line) :
    fits maxLogLineLen line = line := by
  unfold lineOf at h
  split at h
  · cases h
  · cases h
    exact fits_fits _ _

theorem ringHolds_store {w : LogWorld} {lines : List Text} (h : RingHolds w lines) {line : Text}
    (hline : fits maxLogLineLen line = line) : RingHolds (store w line) (lines ++ [line]) := by
  have hhead := h.head
  have hcount := h.count
  have hpos : 0 < maxLogLines := by decide
  refine ⟨Nat.mod_lt _ hpos, ?_, ?_⟩
  · change (if w.count < maxLogLines then w.count + 1 else w.count) = _
    rw [List.length_append, List.length_singleton]
    split <;> omega
  · have hplace : w.head = (w.head + maxLogLines - w.count + w.count) % maxLogLines := by
      rw [Nat.sub_add_cancel (by omega), Nat.add_mod_right, Nat.mod_eq_of_lt hhead]
    unfold ringLines store
    dsimp only
    rw [hline]
    by_cases hroom : w.count < maxLogLines
    · rw [if_pos hroom]
      -- The ring starts where it has started.
      have hstart : ((w.head + 1) % maxLogLines + maxLogLines - (w.count + 1)) % maxLogLines =
          (w.head + maxLogLines - w.count) % maxLogLines := by
        have hback : (w.head + 1) % maxLogLines + maxLogLines - (w.count + 1) =
            (w.head + 1) % maxLogLines + (maxLogLines - (w.count + 1)) :=
          Nat.add_sub_assoc (by omega) _
        rw [hback, Nat.mod_add_mod]
        congr 1
        omega
      rw [Ring.view_congr _ _ hstart]
      nth_rewrite 1 [hplace]
      rw [Ring.view_push _ _ hroom]
      have hfew : lines.length < maxLogLines := by omega
      have hview := h.lines
      rw [Ring.rtake_all hfew.le] at hview
      have hmore : (lines ++ [line]).length ≤ maxLogLines := by
        rw [List.length_append, List.length_singleton]
        omega
      rw [Ring.rtake_all hmore]
      exact congrArg (fun l => l ++ [line]) hview
    · rw [if_neg hroom]
      have hfull : w.count = maxLogLines := by omega
      have hview := h.lines
      unfold ringLines at hview
      rw [hfull, Nat.add_sub_cancel] at hview
      have hstart : ((w.head + 1) % maxLogLines + maxLogLines - maxLogLines) % maxLogLines =
          (w.head + 1) % maxLogLines := by
        rw [Nat.add_sub_cancel, Nat.mod_mod]
      rw [hfull, Ring.view_congr _ _ hstart]
      nth_rewrite 1 [<- Nat.mod_eq_of_lt hhead]
      rw [Ring.view_replace _ _ _ hpos, hview, Ring.rtake_concat_of_le _ hpos (by omega)]

theorem ringHolds_clear (w : LogWorld) : RingHolds { w with head := 0, count := 0 } [] :=
  ⟨(by decide : 0 < maxLogLines), rfl, rfl⟩

/-- A section that leaves the ring alone. -/
theorem RingHolds.of_same {w w' : LogWorld} {lines : List Text} (h : RingHolds w lines)
    (hbuffer : w'.buffer = w.buffer) (hhead : w'.head = w.head) (hcount : w'.count = w.count) :
    RingHolds w' lines := by
  refine ⟨by rw [hhead]; exact h.head, by rw [hcount]; exact h.count, ?_⟩
  unfold ringLines
  rw [hbuffer, hhead, hcount]
  exact h.lines

theorem ringHolds_step {w : LogWorld} {a : LogAnswer} {point : LogPoint} {lines : List Text}
    {o : Section LogWorld LogPoint} (h : RingHolds w lines) (hstep : logStep w a point = some o) :
    RingHolds o.shared (linesAfter a lines point) := by
  cases point with
  | logs text =>
      cases hstep
      change RingHolds (installLog w a text).shared (lines ++ (lineOf a text).toList)
      unfold installLog
      cases hline : lineOf a text with
      | none =>
          rw [Option.toList_none, List.append_nil]
          exact h
      | some line => exact ringHolds_store h (fits_lineOf hline)
  | appends filepath line =>
      cases hstep
      exact h.of_same rfl rfl rfl
  | clears =>
      cases hstep
      exact ringHolds_clear w
  | setsFilePath path =>
      cases hstep
      exact h.of_same rfl rfl rfl
  | readsText =>
      cases hstep
      exact h
  | readsFallback path =>
      cases hstep
      exact h
  | readsPath =>
      cases hstep
      exact h
  | readsFiles path =>
      cases hstep
      exact h
  | returned text => cases hstep
  | ended => cases hstep

theorem ringHolds_run {files : Text -> Option Text}
    {tr : LogTrace} {q : Pool LogWorld LogPoint}
    {ok : Pool LogWorld LogPoint -> Move LogCall LogAnswer -> Prop}
    (hrun : Run logProgram.system ok (freshLog files) tr q) : RingHolds q.shared (history tr) := by
  have hfresh : RingHolds (freshLog files).shared (history []) :=
    ⟨(by decide : 0 < maxLogLines), rfl, rfl⟩
  refine @run_history_invariant _ _ _ _ _ _ _ (fun tr q => RingHolds q.shared (history tr)) ?_
    hrun hfresh
  intro tr p q l h _ hnext
  unfold history
  rw [foldl_snoc]
  cases l with
  | call c =>
      rw [next_call] at hnext
      cases hnext
      exact h
  | run t a =>
      rcases next_run hnext with ⟨point, o, hpoint, hstep, rfl⟩
      rw [recorded_run _ _ hpoint]
      exact ringHolds_step h hstep

/-- Lines, each with its line feed. -/
def joined (lines : List Text) : Text :=
  lines.flatMap (fun line => line ++ [10])

theorem joined_snoc (lines : List Text) (line : Text) :
    joined (lines ++ [line]) = joined lines ++ (line ++ [10]) := by
  unfold joined
  rw [List.flatMap_append, List.flatMap_singleton]

theorem logText_eq (w : LogWorld) : logText w = joined (ringLines w) := by
  unfold logText joined ringLines Ring.view Ring.cell
  rw [List.flatMap_map]

/-- The log that is shown has exactly the last 2048 lines logged since the log was cleared,
in the order in which they were stored. -/
theorem installLogGetText_last {files : Text -> Option Text}
    {tr : LogTrace} {q q' : Pool LogWorld LogPoint}
    (hrun : Run logProgram.system (fun _ _ => True) (freshLog files) tr q)
    {t : Nat} {a : LogAnswer} (hnext : logProgram.system.next q (Move.run t a) = some q')
    (hreads : q.threads[t]? = some LogPoint.readsText) (hallocates : a.allocates = true) :
    q'.threads[t]? = some
      (if history tr = [] then LogPoint.readsFallback (fits 256 q.shared.filePath)
      else LogPoint.returned (joined ((history tr).rtake maxLogLines))) := by
  have hholds := ringHolds_run hrun
  rcases next_run hnext with ⟨point, o, hpoint, hstep, rfl⟩
  rw [hreads] at hpoint
  cases hpoint
  cases hstep
  rw [getElem?_after_self hreads]
  congr 1
  change installLogGetText q.shared a = _
  unfold installLogGetText
  have hcount := hholds.count
  by_cases hempty : history tr = []
  · have hzero : q.shared.count = 0 := by
      rw [hcount, hempty]
      rfl
    rw [if_pos hempty, if_pos hzero]
  · have hlong := List.length_pos_iff.mpr hempty
    have hpos : 0 < maxLogLines := by decide
    rw [if_neg hempty, if_neg (by omega), if_pos hallocates, logText_eq, hholds.lines]

/-- Two threads log, and the second one is faster. -/
def logsTwice : List (Move LogCall LogAnswer) :=
  [Move.call (LogCall.log (ascii "ERROR: disk\n")), Move.call (LogCall.log (ascii "hello")),
    Move.run 1 {}, Move.run 0 {}, Move.call LogCall.getText]

def helloLine : Text := ascii "[2026-01-31 12:00:00] hello"

def errorLine : Text := ascii "[2026-01-31 12:00:00] ERROR: disk"

theorem installLogGetText_last_twice :
    exists tr q q', Run logProgram.system (fun _ _ => True) (freshLog fun _ => none) tr q ∧
      logProgram.system.next q (Move.run 2 {}) = some q' ∧
      q'.threads[2]? = some (LogPoint.returned
        (helloLine ++ [10] ++ (errorLine ++ [10]))) := by
  have hexec : (traceWhile logProgram.system (fun _ _ => True) (freshLog fun _ => none)
      logsTwice).map (fun r => (history r.1, r.2.threads[2]?)) =
        some ([helloLine, errorLine], some LogPoint.readsText) := by
    decide
  rcases Option.map_eq_some_iff.mp hexec with ⟨r, hr, hobs⟩
  rcases Prod.mk.inj hobs with ⟨hhistory, hreads⟩
  have hnext := next_run_eq (P := logProgram) (a := {}) hreads rfl
  have hread := installLogGetText_last (run_of_traceWhile hr) hnext hreads rfl
  rw [hhistory] at hread
  exact ⟨r.1, r.2, _, run_of_traceWhile hr, hnext, hread⟩

end InstallLog
end PkgManager
