import PkgManager.Multipart.Callbacks

/-!
# The slots of a stream

A slot whose part was found has the place of its slice.  A slot whose part is
not there yet has a place that was guessed from the slot before it.
-/

namespace PkgManager
namespace Multipart

open Transition

section Slots

variable (drives : Nat -> Drive) (D : Division)

/-- From this moment on, what is opened by the path is the file of the part. -/
def PathOf (now i : Nat) (path : String) : Prop :=
  forall t f, now ≤ t ->
    (drives t).file path = some f ∨ (drives t).file (localPath path) = some f -> f = D.file i

structure SlotExact (now i : Nat) (s : PartInfo) : Prop where
  path_of : PathOf drives D now i s.path
  start_eq : s.startPkgOffset = D.start i
  size_eq : s.partDataSize = D.size i
  data_eq : s.dataOffset = sliceOffset (D.header i)
  fd_eq : forall f, s.fd = some f -> f = D.file i

/-- Where open believes that a slice starts: behind the slot before it, and a
deferred slot has the size of the part that was opened first. -/
def guess (deferred : Nat -> Bool) (first : Nat) : Nat -> Nat
  | 0 => 0
  | i + 1 => if deferred i then u64 (guess deferred first i + D.size first) else D.start (i + 1)

structure SlotDeferred (deferred : Nat -> Bool) (first i : Nat) (s : PartInfo) : Prop where
  path_eq : s.path = ""
  fd_eq : s.fd = none
  start_eq : s.startPkgOffset = guess D deferred first i
  size_eq : s.partDataSize =
    if i + 1 = D.parts then u64 (D.total + 2 ^ 64 - guess D deferred first i) else D.size first

/-- The fields of the stream that do not change. -/
structure StreamOf (first : Nat) (st : VirtualStream) : Prop where
  parts_eq : st.totalParts = D.parts
  total_eq : st.totalPkgSize = D.total
  uuid_eq : st.packageUuid = (D.header first).packageUuid
  name_eq : st.pkgFilename = cTruncate 256 (D.header first).pkgFilename

/-- The state of slot {lit}`i` after open. -/
def SlotOpened (deferred : Nat -> Bool) (first now i : Nat) (s : PartInfo) : Prop :=
  if deferred i then SlotDeferred D deferred first i s else SlotExact drives D now i s

end Slots

section Facts

variable {drives : Nat -> Drive} {D : Division}

theorem pathOf_later {now now' i : Nat} {path : String} (hle : now ≤ now')
    (h : PathOf drives D now i path) : PathOf drives D now' i path :=
  fun t f ht hfile => h t f (Nat.le_trans hle ht) hfile

theorem slotExact_later {now now' i : Nat} {s : PartInfo} (hle : now ≤ now')
    (h : SlotExact drives D now i s) : SlotExact drives D now' i s :=
  { h with path_of := pathOf_later hle h.path_of }

theorem slotOpened_later {deferred : Nat -> Bool} {first now now' i : Nat} {s : PartInfo}
    (hle : now ≤ now') (h : SlotOpened drives D deferred first now i s) :
    SlotOpened drives D deferred first now' i s := by
  unfold SlotOpened at h ⊢
  split
  · rename_i hdeferred
    rw [if_pos hdeferred] at h
    exact h
  · rename_i hdeferred
    rw [if_neg hdeferred] at h
    exact slotExact_later hle h

/-- A header that is read through the path is the header of the part. -/
theorem header_of_path {now t i : Nat} {path : String} {hdr : MultipartHeader}
    (hi : i < D.parts) (hpath : PathOf drives D now i path) (ht : now ≤ t)
    (h : multipartReadHeader (drives t) path = some hdr) : hdr = D.header i := by
  rcases multipartReadHeader_file h with ⟨f, hfile, hhdr, _⟩
  have hf : f = D.file i := hpath t f ht (Or.inr hfile)
  rw [hf, (D.isPart i hi).header_eq] at hhdr
  exact (Option.some.inj hhdr).symm

/-- A slot that was filled from the header of its part is exact, whatever its
start was before. -/
theorem slotExact_of_header (start : Nat) (fd : Option PartFile) {now i : Nat} {path : String}
    (hi : i < D.parts) (hpath : PathOf drives D now i path) (hstart : i = 0 -> start = 0)
    (hfd : forall f, fd = some f -> f = D.file i) :
    SlotExact drives D now i
      { path := path
        startPkgOffset :=
          if (D.header i).partOffset > 0 then (D.header i).partOffset else start
        partDataSize := (D.header i).partDataSize
        dataOffset := sliceOffset (D.header i)
        fd := fd } := by
  have hpart := D.isPart i hi
  refine ⟨hpath, ?_, hpart.size_eq, rfl, hfd⟩
  show (if (D.header i).partOffset > 0 then (D.header i).partOffset else start) = D.start i
  rw [hpart.offset_eq]
  cases Nat.eq_zero_or_pos i with
  | inl hzero =>
      rw [hstart hzero, hzero]
      rfl
  | inr hpos => exact if_pos (start_pos D hpos (Nat.le_of_lt hi))

end Facts

/-!
# What is found is right
-/

section Open

variable (drives : Nat -> Drive) (env : FinderEnv) (cb : StreamCallbacks) (D : Division)

def Division.query (first i : Nat) : PartQuery :=
  streamQuery (D.header first) (i + 1)

/-- The routes to a part, and the disc waiter, may find nothing; when they
return a path it is that of the right part. -/
structure RightParts (initialPath : String) (first start : Nat) : Prop where
  first_lt : first < D.parts
  initial : PathOf drives D start first (localPath initialPath)
  initial_copy : PathOf drives D start first (cTruncate 512 initialPath)
  found : forall i now path now', i < D.parts ->
    cb.findPartFn (D.query first i) now = (some path, now') -> PathOf drives D now' i path
  adjacent : forall i pr path pr', i < D.parts ->
    findAdjacent drives (D.query first i) initialPath pr = (some path, pr') ->
      PathOf drives D pr'.now i path
  staged : forall i pr path pr', i < D.parts ->
    findStaged drives env (i + 1) pr = (some path, pr') -> PathOf drives D pr'.now i path
  supplied : forall i now path now', i < D.parts ->
    cb.waitDiscFn (D.query first i) now = (some path, now') -> PathOf drives D now' i path

/-- When open asks for the part of a slot. -/
def askedAt (initialPath : String) (first start : Nat) : Nat -> Nat
  | 0 => start + 2
  | i + 1 =>
      match locatePartWith drives env cb (D.query first i) (first + 1) initialPath
          (askedAt initialPath first start i) with
      | (none, now) => now
      | (some _, now) => now + 1

/-- The part of the slot is not there when open asks for it. -/
def deferredAtOpen (initialPath : String) (first start i : Nat) : Bool :=
  (locatePartWith drives env cb (D.query first i) (first + 1) initialPath
    (askedAt drives env cb D initialPath first start i)).1.isNone

end Open

section Opening

variable {drives : Nat -> Drive} {env : FinderEnv} {cb : StreamCallbacks} {D : Division}

theorem findStaged_later (part : Nat) (pr : Probe) :
    (findStaged drives env part pr).2.now = pr.now + 1 := by
  unfold findStaged
  split
  · rfl
  · rfl

theorem locatePartWith_ok {initialPath : String} {first start : Nat}
    (hright : RightParts drives env cb D initialPath first start) {i now : Nat}
    (hi : i < D.parts) (hnow : start ≤ now) {found : Option String} {now' : Nat}
    (h : locatePartWith drives env cb (D.query first i) (first + 1) initialPath now =
      (found, now')) :
    now ≤ now' ∧ forall path, found = some path -> PathOf drives D now' i path := by
  unfold locatePartWith at h
  split at h
  · rename_i hfirst
    have hfirst : i = first := Nat.succ.inj hfirst
    cases h
    refine ⟨Nat.le_refl now, ?_⟩
    intro path hpath
    cases hpath
    rw [hfirst]
    exact pathOf_later hnow hright.initial_copy
  · have hlater := cb.find_later (D.query first i) now
    cases hfind : cb.findPartFn (D.query first i) now with
    | mk found1 now1 =>
        rw [hfind] at h hlater
        cases found1 with
        | some path =>
            cases h
            refine ⟨hlater, ?_⟩
            intro path' hpath
            cases hpath
            exact hright.found i now path _ hi hfind
        | none =>
            dsimp only at h hlater
            have hlater2 :=
              (findAdjacent_ok drives (D.query first i) initialPath
                { now := now1, detected := 0 }).1
            cases hadj : findAdjacent drives (D.query first i) initialPath
                { now := now1, detected := 0 } with
            | mk found2 pr2 =>
                rw [hadj] at h hlater2
                cases found2 with
                | some path =>
                    cases h
                    refine ⟨Nat.le_trans hlater hlater2, ?_⟩
                    intro path' hpath
                    cases hpath
                    exact hright.adjacent i _ path pr2 hi hadj
                | none =>
                    dsimp only at h hlater2
                    rcases Prod.mk.inj h with ⟨hfound, htime⟩
                    have hlater3 : pr2.now ≤ now' := by
                      rw [← htime, findStaged_later]
                      exact Nat.le_succ pr2.now
                    refine ⟨Nat.le_trans (Nat.le_trans hlater hlater2) hlater3, ?_⟩
                    intro path hpath
                    have hstaged : findStaged drives env (i + 1) pr2 =
                        (some path, (findStaged drives env (i + 1) pr2).2) := by
                      rw [← hpath, ← hfound]
                      rfl
                    rw [← htime]
                    exact hright.staged i pr2 path _ hi hstaged

/-!
# Opening
-/

/-- The slots before {lit}`m` are done, the others are empty. -/
structure OpenedTo (drives : Nat -> Drive) (D : Division) (deferred : Nat -> Bool)
    (first now m : Nat) (st : VirtualStream) : Prop where
  stream : StreamOf D first st
  done : forall i, i < m -> SlotOpened drives D deferred first now i (st.parts i)
  rest : forall i, m ≤ i -> st.parts i = emptyPart

theorem openedTo_setPart {deferred : Nat -> Bool} {first now now' m : Nat} {st : VirtualStream}
    {s : PartInfo} (h : OpenedTo drives D deferred first now m st) (hle : now ≤ now')
    (hslot : SlotOpened drives D deferred first now' m s) :
    OpenedTo drives D deferred first now' (m + 1) (st.setPart m s) := by
  refine ⟨⟨h.stream.parts_eq, h.stream.total_eq, h.stream.uuid_eq, h.stream.name_eq⟩, ?_, ?_⟩
  · intro i hi
    show SlotOpened drives D deferred first now' i (Function.update st.parts m s i)
    cases Nat.lt_or_eq_of_le (Nat.le_of_lt_succ hi) with
    | inl hlt =>
        rw [Function.update_of_ne (Nat.ne_of_lt hlt)]
        exact slotOpened_later hle (h.done i hlt)
    | inr heq =>
        rw [heq, Function.update_self]
        exact hslot
  · intro i hi
    show Function.update st.parts m s i = emptyPart
    rw [Function.update_of_ne (Nat.ne_of_gt hi)]
    exact h.rest i (Nat.le_of_succ_le hi)

theorem recordPart_opened {deferred : Nat -> Bool} {first now m : Nat} {st : VirtualStream}
    {path : String} (h : OpenedTo drives D deferred first now m st) (hm : m < D.parts)
    (hpath : PathOf drives D now m path) (hdeferred : deferred m = false) :
    OpenedTo drives D deferred first (now + 1) (m + 1)
      (recordPart path (D.header m) (m + 1) st) := by
  apply openedTo_setPart h (Nat.le_succ now)
  unfold SlotOpened
  rw [if_neg (by rw [hdeferred]; exact Bool.false_ne_true)]
  cases m with
  | zero =>
      have hexact := slotExact_of_header 0 none hm
        (pathOf_later (Nat.le_succ now) hpath) (fun _ => rfl) (by intro f hf; cases hf)
      have hzero : (D.header 0).partOffset = 0 := (D.isPart 0 hm).offset_eq
      rw [hzero] at hexact
      exact hexact
  | succ m =>
      exact slotExact_of_header _ none hm (pathOf_later (Nat.le_succ now) hpath)
        (fun hzero => absurd hzero (Nat.succ_ne_zero m)) (by intro f hf; cases hf)

theorem deferPart_opened {deferred : Nat -> Bool} {first now now' m : Nat} {st : VirtualStream}
    (h : OpenedTo drives D deferred first now m st) (hle : now ≤ now') (hm : m < D.parts)
    (hfirst : first < D.parts) (hdeferred : deferred m = true) :
    OpenedTo drives D deferred first now' (m + 1) (deferPart (D.header first) (m + 1) st) := by
  have hstart : (if m + 1 > 1 then
        u64 ((st.parts (m + 1 - 2)).startPkgOffset + (st.parts (m + 1 - 2)).partDataSize)
      else (st.parts (m + 1 - 1)).startPkgOffset) = guess D deferred first m := by
    cases m with
    | zero =>
        rw [if_neg (Nat.lt_irrefl 1), h.rest 0 (Nat.le_refl 0)]
        rfl
    | succ m =>
        have hslot := h.done m (Nat.lt_succ_self m)
        unfold SlotOpened at hslot
        rw [if_pos (Nat.succ_lt_succ (Nat.succ_pos m)), guess]
        show u64 ((st.parts m).startPkgOffset + (st.parts m).partDataSize) = _
        cases hbefore : deferred m with
        | true =>
            rw [if_pos hbefore] at hslot
            rw [hslot.start_eq, hslot.size_eq, if_neg (Nat.ne_of_lt hm), if_pos rfl]
        | false =>
            rw [if_neg (by rw [hbefore]; exact Bool.false_ne_true)] at hslot
            rw [hslot.start_eq, hslot.size_eq, if_neg Bool.false_ne_true,
              ← start_succ D (Nat.lt_of_succ_lt hm)]
            exact u64_of_lt (Nat.lt_of_le_of_lt (start_le_total D (m + 1)) (total_lt D))
  apply openedTo_setPart h hle
  unfold SlotOpened
  rw [if_pos hdeferred]
  refine ⟨rfl, rfl, hstart, ?_⟩
  dsimp only
  rw [hstart, h.stream.parts_eq, h.stream.total_eq, (D.isPart first hfirst).size_eq]
  rfl

theorem resolvePartsWith_opened {initialPath : String} {first start : Nat}
    (hright : RightParts drives env cb D initialPath first start) {n m : Nat}
    (hparts : m + n = D.parts) {st st' : VirtualStream} {now' : Nat}
    (hnow : start ≤ askedAt drives env cb D initialPath first start m)
    (h : OpenedTo drives D (deferredAtOpen drives env cb D initialPath first start) first
      (askedAt drives env cb D initialPath first start m) m st)
    (hopen : resolvePartsWith drives env cb (D.header first) initialPath n (m + 1) st
      (askedAt drives env cb D initialPath first start m) = Except.ok (st', now')) :
    start ≤ now' ∧
      OpenedTo drives D (deferredAtOpen drives env cb D initialPath first start) first now'
        D.parts st' := by
  induction n generalizing m st with
  | zero =>
      cases hopen
      rw [← hparts]
      exact ⟨hnow, h⟩
  | succ n ih =>
      have hm : m < D.parts := by omega
      have hnext : m + 1 + n = D.parts := by omega
      rw [resolvePartsWith, (D.isPart first hright.first_lt).index_eq] at hopen
      change (match locatePartWith drives env cb (D.query first m) (first + 1) initialPath
          (askedAt drives env cb D initialPath first start m) with
        | (none, now) => _
        | (some path, now) => _) = _ at hopen
      cases hlocate : locatePartWith drives env cb (D.query first m) (first + 1) initialPath
          (askedAt drives env cb D initialPath first start m) with
      | mk found now =>
          rcases locatePartWith_ok hright hm hnow hlocate with ⟨hlater, hpath⟩
          rw [hlocate] at hopen
          cases found with
          | none =>
              have hasked : askedAt drives env cb D initialPath first start (m + 1) = now := by
                rw [askedAt, hlocate]
              have hdeferred :
                  deferredAtOpen drives env cb D initialPath first start m = true := by
                unfold deferredAtOpen
                rw [hlocate]
                rfl
              apply ih hnext
              · rw [hasked]
                exact Nat.le_trans hnow hlater
              · rw [hasked]
                exact deferPart_opened h hlater hm hright.first_lt hdeferred
              · rw [hasked]
                exact hopen
          | some path =>
              have hasked : askedAt drives env cb D initialPath first start (m + 1) = now + 1 := by
                rw [askedAt, hlocate]
              have hdeferred :
                  deferredAtOpen drives env cb D initialPath first start m = false := by
                unfold deferredAtOpen
                rw [hlocate]
                rfl
              dsimp only at hopen
              cases hhdr : multipartReadHeader (drives now) path with
              | none =>
                  rw [hhdr] at hopen
                  cases hopen
              | some phdr =>
                  have hphdr : phdr = D.header m :=
                    header_of_path hm (hpath path rfl) (Nat.le_refl now) hhdr
                  rw [hhdr, hphdr] at hopen
                  have hnow' : OpenedTo drives D
                      (deferredAtOpen drives env cb D initialPath first start) first now m st :=
                    ⟨h.stream, fun i hi => slotOpened_later hlater (h.done i hi), h.rest⟩
                  apply ih hnext
                  · rw [hasked]
                    exact Nat.le_succ_of_le (Nat.le_trans hnow hlater)
                  · rw [hasked]
                    exact recordPart_opened hnow' hm (hpath path rfl) hdeferred
                  · rw [hasked]
                    exact hopen

/-- Open leaves every slot exact or guessed, and which of the two is decided by
what the routes find. -/
theorem virtualStreamOpenWith_opened {initialPath : String} {first start : Nat}
    (hright : RightParts drives env cb D initialPath first start) {st : VirtualStream}
    {now' : Nat}
    (hopen : virtualStreamOpenWith drives env cb initialPath start = Except.ok (st, now'))
    (hmulti : st.isMultipart = true) :
    start ≤ now' ∧
      OpenedTo drives D (deferredAtOpen drives env cb D initialPath first start) first now'
        D.parts st := by
  unfold virtualStreamOpenWith at hopen
  cases hstat : (drives start).file (localPath initialPath) with
  | none =>
      rw [hstat] at hopen
      cases hopen
  | some f =>
      rw [hstat] at hopen
      dsimp only at hopen
      cases hhdr : multipartReadHeader (drives (start + 1)) (localPath initialPath) with
      | none =>
          rw [hhdr] at hopen
          cases hopen
          cases hmulti
      | some hdr =>
          have hpart := D.isPart first hright.first_lt
          have hhdr' : hdr = D.header first :=
            header_of_path hright.first_lt hright.initial (Nat.le_succ start) hhdr
          rw [hhdr, hhdr'] at hopen
          dsimp only at hopen
          split at hopen
          · cases hopen
          · rw [hpart.parts_eq] at hopen
            have hempty : OpenedTo drives D
                (deferredAtOpen drives env cb D initialPath first start) first (start + 2) 0
                (multipartStream (D.header first)) := by
              refine ⟨⟨hpart.parts_eq, hpart.total_eq, rfl, rfl⟩, ?_, fun i _ => rfl⟩
              intro i hi
              cases hi
            exact resolvePartsWith_opened hright (m := 0) (Nat.zero_add _)
              (Nat.le_add_right start 2) hempty hopen

end Opening

end Multipart
end PkgManager

/-!
# Where the deferred parts are guessed to be

A part that is not there at open gets a place from the slot before it and from
the size of the part that is there.  This is arithmetic on the sizes of the
slices.
-/

namespace PkgManager
namespace Multipart

/-!
# Guesses that reach
-/

section Guesses

variable (D : Division) (deferred : Nat -> Bool)

/-- A run of deferred slots begins behind a slot that was found.  As many times
the size of the first part behind that place as there are slots before it in the
run, each slot of the run holds the start of its slice; the last slot of the
package reaches to the end of the package. -/
def GuessesReach : Prop :=
  forall a k, 0 < a -> deferred (a - 1) = false ->
    (forall j, j ≤ k -> deferred (a + j) = true) -> a + k < D.parts ->
      u64 (D.start a + D.size 0 * k) ≤ D.start (a + k) ∧
        (a + k + 1 = D.parts ∨ D.start (a + k) < u64 (D.start a + D.size 0 * (k + 1)))

/-- The guessed range of the slot holds the start of its slice. -/
def Reaches (i : Nat) : Prop :=
  guess D deferred 0 i ≤ D.start i ∧
    (i + 1 = D.parts ∨ D.start i < u64 (guess D deferred 0 i + D.size 0))

variable {D : Division} {deferred : Nat -> Bool}

theorem guess_run {a : Nat} (ha : 0 < a) (hbefore : deferred (a - 1) = false)
    {k : Nat} (hrun : forall j, j < k -> deferred (a + j) = true) :
    guess D deferred 0 (a + k) = u64 (D.start a + D.size 0 * k) := by
  induction k with
  | zero =>
      have hsucc : a = a - 1 + 1 := (Nat.sub_add_cancel ha).symm
      have hlt : D.start a < 2 ^ 64 := Nat.lt_of_le_of_lt (start_le_total D a) (total_lt D)
      rw [Nat.add_zero, Nat.mul_zero, Nat.add_zero, u64_of_lt hlt]
      conv => lhs; rw [hsucc]
      rw [guess, if_neg (by rw [hbefore]; exact Bool.false_ne_true), ← hsucc]
  | succ k ih =>
      have hk := ih (fun j hj => hrun j (Nat.lt_succ_of_lt hj))
      rw [← Nat.add_assoc, guess, if_pos (hrun k (Nat.lt_succ_self k)), hk]
      unfold u64
      rw [Nat.mod_add_mod, Nat.mul_succ, ← Nat.add_assoc]

/-- Every deferred slot is in a run. -/
theorem deferred_run {i : Nat} (hzero : deferred 0 = false) (h : deferred i = true) :
    exists a k, i = a + k ∧ 0 < a ∧ deferred (a - 1) = false ∧
      forall j, j ≤ k -> deferred (a + j) = true := by
  induction i with
  | zero =>
      rw [hzero] at h
      cases h
  | succ i ih =>
      cases hbefore : deferred i with
      | false =>
          refine ⟨i + 1, 0, rfl, Nat.succ_pos i, hbefore, ?_⟩
          intro j hj
          rw [Nat.le_zero.mp hj]
          exact h
      | true =>
          rcases ih hbefore with ⟨a, k, hi, ha, hfound, hrun⟩
          refine ⟨a, k + 1, by rw [hi, Nat.add_assoc], ha, hfound, ?_⟩
          intro j hj
          cases Nat.lt_or_eq_of_le hj with
          | inl hlt => exact hrun j (Nat.le_of_lt_succ hlt)
          | inr heq =>
              rw [heq, ← Nat.add_assoc, ← hi]
              exact h

theorem guessesReach_iff (hzero : deferred 0 = false) :
    GuessesReach D deferred <->
      forall i, i < D.parts -> deferred i = true -> Reaches D deferred i := by
  have hguess : forall a k, 0 < a -> a + k < D.parts -> deferred (a - 1) = false ->
      (forall j, j ≤ k -> deferred (a + j) = true) ->
        (Reaches D deferred (a + k) <-> u64 (D.start a + D.size 0 * k) ≤ D.start (a + k) ∧
          (a + k + 1 = D.parts ∨ D.start (a + k) < u64 (D.start a + D.size 0 * (k + 1)))) := by
    intro a k ha hk hbefore hrun
    have hhere := guess_run (D := D) ha hbefore (fun j hj => hrun j (Nat.le_of_lt hj))
    have hnext : u64 (guess D deferred 0 (a + k) + D.size 0) =
        u64 (D.start a + D.size 0 * (k + 1)) := by
      rw [hhere]
      unfold u64
      rw [Nat.mod_add_mod, Nat.mul_succ, ← Nat.add_assoc]
    unfold Reaches
    rw [hnext, hhere]
  constructor
  · intro h i hi hdeferred
    rcases deferred_run hzero hdeferred with ⟨a, k, hik, ha, hbefore, hrun⟩
    rw [hik] at hi ⊢
    exact (hguess a k ha hi hbefore hrun).mpr (h a k ha hbefore hrun hi)
  · intro h a k ha hbefore hrun hk
    exact (hguess a k ha hk hbefore hrun).mp (h (a + k) hk (hrun k (Nat.le_refl k)))

end Guesses

/-!
# Slices of one size
-/

/-- When all slices but the last have the size of the first, every guess reaches,
whichever parts are deferred. -/
theorem guessesReach_of_equal {D : Division}
    (hequal : forall i, i + 1 < D.parts -> D.size i = D.size 0) (deferred : Nat -> Bool) :
    GuessesReach D deferred := by
  intro a k _ _ _ hk
  have hstart : forall j, a + j < D.parts -> D.start (a + j) = D.start a + D.size 0 * j := by
    intro j hj
    induction j with
    | zero => rfl
    | succ j ih =>
        have hlt : a + j < D.parts := by omega
        rw [← Nat.add_assoc, start_succ D hlt, ih hlt, hequal (a + j) hj, Nat.mul_succ,
          Nat.add_assoc]
  have htotal := total_lt D
  have hhere : u64 (D.start a + D.size 0 * k) = D.start (a + k) := by
    rw [← hstart k hk]
    exact u64_of_lt (Nat.lt_of_le_of_lt (start_le_total D _) htotal)
  refine ⟨Nat.le_of_eq hhere, ?_⟩
  by_cases hlast : a + k + 1 = D.parts
  · exact Or.inl hlast
  · have hnext : a + (k + 1) < D.parts := by omega
    have hend : u64 (D.start a + D.size 0 * (k + 1)) = D.start (a + k + 1) := by
      rw [← hstart (k + 1) hnext]
      exact u64_of_lt (Nat.lt_of_le_of_lt (start_le_total D _) htotal)
    rw [hend, start_succ D hk]
    exact Or.inr (Nat.lt_add_of_pos_right (size_pos D hk))

end Multipart
end PkgManager
