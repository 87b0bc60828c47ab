import PkgManager.Live.StreamIdentity

/-!
# Runs with streams

As many references are held as streams are open, and an open stream finds its
own session or none.
-/

namespace PkgManager
namespace Live

open WriteLog
open Transition

/-!
# The invariant
-/

/-- The session, when there is one, is that of the stream. -/
def Bound (lv : LiveState) (id : String) (total : Nat) : Prop :=
  lv.active = true -> lv.sessionId = id ∧ lv.total = total

structure GoodStreams (w : StreamWorld) : Prop where
  live : GoodLive w.live.lv
  refs : w.live.lv.refs = w.streams.countP LiveStream.isLive
  bound : forall s, s ∈ w.streams -> s.isLive = true -> Bound w.live.lv s.id s.totalPkgSize

def GoodStreamPoint (w : StreamWorld) : StreamPoint -> Prop
  | StreamPoint.session x => TypedPoint x
  | StreamPoint.openGetTotal id => w.live.lv.active = true -> w.live.lv.sessionId = id
  | StreamPoint.openAttach id ltotal => Bound w.live.lv id ltotal
  | StreamPoint.reading h off x => h < w.streams.length ∧ ReaderPoint off x ∧
      forall s, w.streams[h]? = some s -> s.isLive = true -> w.live.lv.active = true ->
        ReaderAt w.live.lv off x
  | _ => True

/-- How the world moves while no session starts: the session is carried, and no
stream is opened in the place of another. -/
structure StreamsCarried (w w' : StreamWorld) : Prop where
  carried : Carried w.live.lv w'.live.lv
  length : w.streams.length ≤ w'.streams.length
  same : forall h s, h < w.streams.length -> w'.streams[h]? = some s -> s.isLive = true ->
    w.streams[h]? = some s

theorem bound_of_carried {lv lv' : LiveState} {id : String} {total : Nat}
    (h : Carried lv lv') (hb : Bound lv id total) : Bound lv' id total := by
  intro hactive
  rcases h hactive with ⟨hold, hid, htotal⟩
  rw [hid, htotal]
  exact hb hold

theorem goodStreamPoint_of_carried {w w' : StreamWorld} (h : StreamsCarried w w')
    {x : StreamPoint} (hx : GoodStreamPoint w x) : GoodStreamPoint w' x := by
  cases x with
  | session x => exact hx
  | openGetTotal id =>
      intro hactive
      rcases h.carried hactive with ⟨hold, hid, _⟩
      rw [hid]
      exact hx hold
  | openAttach id ltotal => exact bound_of_carried h.carried hx
  | reading k off x =>
      refine ⟨Nat.lt_of_lt_of_le hx.1 h.length, hx.2.1, ?_⟩
      intro s hs hopen hactive
      rcases h.carried hactive with ⟨hold, _, htotal⟩
      exact readerAt_of_total htotal (hx.2.2 s (h.same k s hx.1 hs hopen) hopen hold)
  | _ => trivial

/-- A new session finds no opening in its gap and no open stream. -/
theorem goodStreamPoint_of_started {w w' : StreamWorld} (hgood : GoodStreams w)
    (hfree : w.live.lv.refs = 0) (hstreams : w'.streams = w.streams) {x : StreamPoint}
    (hgap : x.opening = false) (hx : GoodStreamPoint w x) : GoodStreamPoint w' x := by
  cases x with
  | session x => exact hx
  | openGetTotal id => cases hgap
  | openAttach id ltotal => cases hgap
  | reading k off x =>
      rw [GoodStreamPoint, hstreams]
      refine ⟨hx.1, hx.2.1, ?_⟩
      intro s hs hopen
      rw [hgood.refs, List.countP_eq_zero] at hfree
      exact absurd hopen (hfree s (List.mem_of_getElem? hs))
  | _ => trivial

/-!
# One section
-/

/-- What a section of any thread does. -/
structure StreamEffect (w : StreamWorld) (x : StreamPoint)
    (o : Section StreamWorld StreamPoint) : Prop where
  good : GoodStreams o.shared
  point : GoodStreamPoint o.shared o.point
  created : o.created = none
  others : StreamsCarried w o.shared ∨
    (w.live.lv.refs = 0 ∧ o.shared.streams = w.streams ∧ startsSession w.live.lv x = true)

theorem streamsCarried_live {w : StreamWorld} {live : LiveWorld}
    (h : Carried w.live.lv live.lv) : StreamsCarried w { w with live := live } :=
  ⟨h, Nat.le_refl _, fun _ _ _ hs _ => hs⟩

theorem goodStreams_of_advances {w : StreamWorld} {live : LiveWorld} (hgood : GoodStreams w)
    (h : Advances w.live.lv live.lv) : GoodStreams { w with live := live } where
  live := h.good
  refs := h.refs.trans hgood.refs
  bound := fun s hs hopen => bound_of_carried h.carried (hgood.bound s hs hopen)

/-- A section that only moves the thread. -/
theorem streamEffect_stay {w : StreamWorld} {x y : StreamPoint} (hgood : GoodStreams w)
    (hy : GoodStreamPoint w y) : StreamEffect w x { shared := w, point := y } :=
  ⟨hgood, hy, rfl, Or.inl (streamsCarried_live (carried_refl w.live.lv))⟩

theorem streamEffect_session {w : StreamWorld} {x : LivePoint} {a : LiveAnswer}
    {o : Section LiveWorld LivePoint} (hgood : GoodStreams w) (hx : TypedPoint x)
    (hstep : sessionSection w x a = some o) :
    StreamEffect w (StreamPoint.session x)
      { shared := { w with live := o.shared }, point := StreamPoint.session o.point } := by
  have heffect := sessionSection_effect hgood.live hx hstep
  rcases heffect.state with hadv | hstart
  · exact ⟨goodStreams_of_advances hgood hadv, heffect.point, rfl,
      Or.inl (streamsCarried_live hadv.carried)⟩
  · have hclosed := hstart.free
    rw [hgood.refs, List.countP_eq_zero] at hclosed
    refine ⟨⟨hstart.good, ?_, ?_⟩, heffect.point, rfl, Or.inr ⟨hstart.free, rfl, hstart.starts⟩⟩
    · change o.shared.lv.refs = w.streams.countP LiveStream.isLive
      rw [hstart.refs, ← hgood.refs, hstart.free]
    · intro s hs hopen
      exact absurd hopen (hclosed s hs)

theorem streamEffect_getTotal {w : StreamWorld} {id : String} (hgood : GoodStreams w)
    (hx : w.live.lv.active = true -> w.live.lv.sessionId = id) :
    StreamEffect w (StreamPoint.openGetTotal id)
      { shared := w
        point := if wsLiveGetTotal w.live.lv = 0 then StreamPoint.openFailed
          else StreamPoint.openAttach id (wsLiveGetTotal w.live.lv) } := by
  apply streamEffect_stay hgood
  split
  · trivial
  · intro hactive
    refine ⟨hx hactive, ?_⟩
    unfold wsLiveGetTotal
    rw [if_pos hactive]

theorem wsLiveAttach_ok {lv : LiveState} (h : (wsLiveAttach lv).2 = 0) :
    lv.active = true ∧ (wsLiveAttach lv).1 = { lv with refs := lv.refs + 1 } := by
  unfold wsLiveAttach at h ⊢
  split at h
  · cases h
  · rename_i hactive
    have hactive : lv.active = true := by simpa using hactive
    rw [if_neg (by simp [hactive])]
    exact ⟨hactive, rfl⟩

theorem streamEffect_attach {w : StreamWorld} {id : String} {ltotal : Nat}
    (hgood : GoodStreams w) (hx : Bound w.live.lv id ltotal)
    (hok : (wsLiveAttach w.live.lv).2 = 0) :
    StreamEffect w (StreamPoint.openAttach id ltotal)
      { shared :=
          { live := { w.live with lv := (wsLiveAttach w.live.lv).1 }
            streams := w.streams ++ [openedStream id ltotal] }
        point := StreamPoint.opened w.streams.length } := by
  rcases wsLiveAttach_ok hok with ⟨hactive, hlv⟩
  have hsame := sameCache_attach w.live.lv
  rw [hlv] at hsame ⊢
  have hcarried : Carried w.live.lv { w.live.lv with refs := w.live.lv.refs + 1 } :=
    fun hnow => ⟨hnow, rfl, rfl⟩
  refine ⟨⟨⟨?_, ?_, ?_⟩, ?_, ?_⟩, trivial, rfl, Or.inl ⟨hcarried, ?_, ?_⟩⟩
  · intro _
    exact sound_of_same hsame (hgood.live.sound hactive)
  · exact hgood.live.kept
  · intro hidle
    change w.live.lv.active = false at hidle
    rw [hactive] at hidle
    cases hidle
  · change w.live.lv.refs + 1 = (w.streams ++ [openedStream id ltotal]).countP LiveStream.isLive
    rw [List.countP_append, hgood.refs]
    rfl
  · intro s hs hopen
    rcases List.mem_append.mp hs with hold | hnew
    · exact bound_of_carried hcarried (hgood.bound s hold hopen)
    · rw [List.mem_singleton.mp hnew]
      exact hx
  · rw [List.length_append]
    exact Nat.le_add_right _ _
  · intro h s hlt hs _
    rw [List.getElem?_append_left hlt] at hs
    exact hs

theorem streamEffect_readEnter {w : StreamWorld} {h off count : Nat} {buf : Nat -> UInt8}
    {s : LiveStream} (hgood : GoodStreams w) (hs : w.streams[h]? = some s) :
    StreamEffect w (StreamPoint.readEnter h off count buf)
      { shared := w
        point :=
          match readRequest s off count with
          | none => StreamPoint.readDone h off 0 buf
          | some toRead =>
              StreamPoint.reading h off (LivePoint.enter (LiveCall.read off toRead buf)) } := by
  apply streamEffect_stay hgood
  cases readRequest s off count with
  | none => trivial
  | some toRead =>
      have hlt := (List.getElem?_eq_some_iff.mp hs).1
      exact ⟨hlt, rfl, fun _ _ _ _ => rfl⟩

theorem refs_pos {w : StreamWorld} (hgood : GoodStreams w) {h : Nat} {s : LiveStream}
    (hs : w.streams[h]? = some s) (hopen : s.isLive = true) : 0 < w.live.lv.refs := by
  rw [hgood.refs]
  exact List.countP_pos_iff.mpr ⟨s, List.mem_of_getElem? hs, hopen⟩

/-- A section of a read is one of the session layer. -/
theorem typedPoint_of_reader {off : Nat} {x : LivePoint} (h : ReaderPoint off x) :
    TypedPoint x := by
  cases x with
  | enter c =>
      cases c with
      | read off' count buf => exact ⟨nofun, nofun, nofun⟩
      | _ => exact absurd h id
  | writeBlocked m left seg => exact absurd h id
  | _ => trivial

theorem reader_notStarting {off : Nat} {x : LivePoint} (h : ReaderPoint off x)
    (lv : LiveState) : startsSession lv (StreamPoint.session x) = false := by
  cases x with
  | enter c =>
      cases c with
      | read off' count buf => rfl
      | _ => exact absurd h id
  | _ => rfl

theorem afterSession_good {w : StreamWorld} {h off : Nat} {x : LivePoint}
    (hx : ReadReturned x ∨ GoodStreamPoint w (StreamPoint.reading h off x)) :
    GoodStreamPoint w (afterSession h off x) := by
  rcases hx with ⟨off', count, n, dst, heq⟩ | hreading
  · rw [heq]
    trivial
  · cases x with
    | readReturned off' count n dst => trivial
    | _ => exact hreading

theorem streamEffect_reading {w : StreamWorld} {h off : Nat} {x : LivePoint} {a : LiveAnswer}
    {o : Section LiveWorld LivePoint} (hgood : GoodStreams w)
    (hx : GoodStreamPoint w (StreamPoint.reading h off x))
    (hstep : sessionSection w x a = some o) :
    StreamEffect w (StreamPoint.reading h off x)
      { shared := { w with live := o.shared }, point := afterSession h off o.point } := by
  rcases hx with ⟨hlt, hreader, hat⟩
  have heffect := sessionSection_effect hgood.live (typedPoint_of_reader hreader) hstep
  have hadv : Advances w.live.lv o.shared.lv := by
    rcases heffect.state with hadv | hstart
    · exact hadv
    · have hno := reader_notStarting hreader w.live.lv
      rw [hstart.starts] at hno
      cases hno
  refine ⟨goodStreams_of_advances hgood hadv, ?_, rfl, Or.inl (streamsCarried_live hadv.carried)⟩
  apply afterSession_good
  by_cases hdone : ReadReturned o.point
  · exact Or.inl hdone
  · refine Or.inr ⟨hlt, (readSection_point hreader hstep).resolve_left hdone, ?_⟩
    intro s hs hopen hactive
    have hread := readSection_effect hgood.live (refs_pos hgood hs hopen) hreader
      (hat s hs hopen) hstep
    exact (hread.waits (hadv.carried hactive).1).resolve_left hdone

/-!
# The close
-/

theorem countP_close {streams : List LiveStream} {h : Nat} {s : LiveStream}
    (hs : streams[h]? = some s) (hopen : s.isLive = true) :
    (streams.set h { s with isLive := false }).countP LiveStream.isLive + 1 =
      streams.countP LiveStream.isLive := by
  rcases List.getElem?_eq_some_iff.mp hs with ⟨hlt, hget⟩
  have hpos : 0 < streams.countP LiveStream.isLive :=
    List.countP_pos_iff.mpr ⟨s, List.mem_of_getElem? hs, hopen⟩
  rw [List.countP_set hlt, hget, if_pos hopen]
  rw [if_neg (by simp)]
  omega

/-- A reference that is dropped is one that was held. -/
theorem wsLiveDetach_held {lv : LiveState} (hgood : GoodLive lv) (hheld : 0 < lv.refs) :
    (wsLiveDetach lv).refs + 1 = lv.refs ∧ Carried lv (wsLiveDetach lv) ∧
      GoodLive (wsLiveDetach lv) := by
  have hdrop : { lv with refs := lv.refs - 1 }.refs + 1 = lv.refs := by
    dsimp only
    omega
  unfold wsLiveDetach
  rw [if_pos hheld]
  dsimp only
  split
  · rename_i hfree
    have hidle : lv.active = false := by
      cases hactive : lv.active with
      | false => rfl
      | true =>
          rw [hgood.kept hactive] at hfree
          cases hfree.2
    refine ⟨hdrop, ?_, ?_, ?_, ?_⟩
    · intro hactive
      change lv.active = true at hactive
      rw [hidle] at hactive
      cases hactive
    · intro hactive
      change lv.active = true at hactive
      rw [hidle] at hactive
      cases hactive
    · intro _
      rfl
    · intro _ hrefs
      change 0 < lv.refs - 1 at hrefs
      omega
  · refine ⟨hdrop, fun hactive => ⟨hactive, rfl, rfl⟩, ?_, hgood.kept, ?_⟩
    · intro hactive
      refine sound_of_same ?_ (hgood.sound hactive)
      constructor <;> rfl
    · intro hidle _
      exact hgood.down hidle hheld

theorem streamEffect_close {w : StreamWorld} {h : Nat} {s : LiveStream} (hgood : GoodStreams w)
    (hs : w.streams[h]? = some s) :
    StreamEffect w (StreamPoint.closeEnter h)
      { shared := closeLive w h s, point := StreamPoint.closed } := by
  unfold closeLive
  cases hopen : s.isLive with
  | false => exact streamEffect_stay hgood trivial
  | true =>
      rw [if_pos rfl]
      rcases wsLiveDetach_held hgood.live (refs_pos hgood hs hopen) with ⟨hrefs, hcarried, hlive⟩
      have hlen : h < w.streams.length := (List.getElem?_eq_some_iff.mp hs).1
      have hold : forall (k : Nat) (s' : LiveStream), (w.streams.set h { s with isLive := false })[k]? = some s' ->
          s'.isLive = true -> w.streams[k]? = some s' := by
        intro k s' hk hs'
        by_cases heq : h = k
        · rw [← heq, List.getElem?_set_self hlen] at hk
          cases hk
          cases hs'
        · rw [List.getElem?_set_ne heq] at hk
          exact hk
      refine ⟨⟨hlive, ?_, ?_⟩, trivial, rfl, Or.inl ⟨hcarried, ?_, ?_⟩⟩
      · have hcount := countP_close hs hopen
        rw [← hgood.refs] at hcount
        change (wsLiveDetach w.live.lv).refs =
          (w.streams.set h { s with isLive := false }).countP LiveStream.isLive
        omega
      · intro s' hs' hopen'
        rcases List.getElem?_of_mem hs' with ⟨k, hk⟩
        have hmem := List.mem_of_getElem? (hold k s' hk hopen')
        exact bound_of_carried hcarried (hgood.bound s' hmem hopen')
      · rw [List.length_set]
      · intro k s' _ hk hs'
        exact hold k s' hk hs'

/-!
# Every section
-/

theorem stream_section {p : Pool StreamWorld StreamPoint} {t : Nat} {x : StreamPoint}
    {a : LiveAnswer} {o : Section StreamWorld StreamPoint} (hgood : GoodStreams p.shared)
    (hx : GoodStreamPoint p.shared x) (hstep : streamProgram.step p t x a = some o) :
    StreamEffect p.shared x o := by
  change streamStep p t x a = some o at hstep
  cases x with
  | session x =>
      rcases Option.map_eq_some_iff.mp hstep with ⟨o', ho', heq⟩
      rw [← heq]
      exact streamEffect_session hgood hx ho'
  | openCheckId id =>
      cases hstep
      apply streamEffect_stay hgood
      split
      · rename_i hcheck
        intro _
        unfold wsLiveCheckId at hcheck
        simp only [Bool.and_eq_true, beq_iff_eq] at hcheck
        exact hcheck.2
      · trivial
  | openGetTotal id =>
      cases hstep
      exact streamEffect_getTotal hgood hx
  | openAttach id ltotal =>
      rw [streamStep] at hstep
      split at hstep
      · rename_i hok
        cases hstep
        exact streamEffect_attach hgood hx hok
      · cases hstep
        exact streamEffect_stay hgood trivial
  | readEnter h off count buf =>
      rw [streamStep] at hstep
      split at hstep
      · cases hstep
      · rename_i s hs
        split at hstep
        · cases hstep
          exact streamEffect_readEnter hgood hs
        · cases hstep
  | reading h off x =>
      rcases Option.map_eq_some_iff.mp hstep with ⟨o', ho', heq⟩
      rw [← heq]
      exact streamEffect_reading hgood hx ho'
  | closeEnter h =>
      rw [streamStep] at hstep
      split at hstep
      · cases hstep
      · rename_i s hs
        cases hstep
        exact streamEffect_close hgood hs
  | opened h => cases hstep
  | openFailed => cases hstep
  | readDone h off n dst => cases hstep
  | closed => cases hstep

/-!
# What the threads are told
-/

theorem opened_section {p : Pool StreamWorld StreamPoint} {t : Nat} {x : StreamPoint}
    {a : LiveAnswer} {o : Section StreamWorld StreamPoint}
    (hx : GoodStreamPoint p.shared x) (hstep : streamProgram.step p t x a = some o)
    {h : Nat} {s : LiveStream} (hpoint : o.point = StreamPoint.opened h)
    (hs : o.shared.streams[h]? = some s) : IsSession p.shared.live.lv s := by
  change streamStep p t x a = some o at hstep
  cases x with
  | session x =>
      rcases Option.map_eq_some_iff.mp hstep with ⟨o', _, heq⟩
      rw [← heq] at hpoint
      cases hpoint
  | openCheckId id =>
      cases hstep
      split at hpoint <;> cases hpoint
  | openGetTotal id =>
      cases hstep
      split at hpoint <;> cases hpoint
  | openAttach id ltotal =>
      rw [streamStep] at hstep
      split at hstep
      · rename_i hok
        cases hstep
        cases hpoint
        rw [List.getElem?_concat_length] at hs
        cases hs
        have hactive := (wsLiveAttach_ok hok).1
        exact ⟨hactive, hx hactive⟩
      · cases hstep
        cases hpoint
  | readEnter h' off count buf =>
      rw [streamStep] at hstep
      split at hstep
      · cases hstep
      · split at hstep
        · cases hstep
          dsimp only at hpoint
          split at hpoint <;> cases hpoint
        · cases hstep
  | reading h' off x =>
      rcases Option.map_eq_some_iff.mp hstep with ⟨o', _, heq⟩
      rw [← heq] at hpoint
      dsimp only at hpoint
      unfold afterSession at hpoint
      split at hpoint <;> cases hpoint
  | closeEnter h' =>
      rw [streamStep] at hstep
      split at hstep
      · cases hstep
      · cases hstep
        cases hpoint
  | opened h' => cases hstep
  | openFailed => cases hstep
  | readDone h' off n dst => cases hstep
  | closed => cases hstep

/-- Only a section of the session layer ends a read with data. -/
theorem readDone_section {p : Pool StreamWorld StreamPoint} {t : Nat} {x : StreamPoint}
    {a : LiveAnswer} {o : Section StreamWorld StreamPoint}
    (hstep : streamProgram.step p t x a = some o) {h off : Nat} {n : Int}
    {dst : Nat -> UInt8} (hpoint : o.point = StreamPoint.readDone h off n dst) (hn : 0 < n) :
    exists x' o' off' count, x = StreamPoint.reading h off x' ∧
      sessionSection p.shared x' a = some o' ∧ o.shared.streams = p.shared.streams ∧
      o'.point = LivePoint.readReturned off' count n dst := by
  change streamStep p t x a = some o at hstep
  cases x with
  | session x =>
      rcases Option.map_eq_some_iff.mp hstep with ⟨o', _, heq⟩
      rw [← heq] at hpoint
      cases hpoint
  | openCheckId id =>
      cases hstep
      split at hpoint <;> cases hpoint
  | openGetTotal id =>
      cases hstep
      split at hpoint <;> cases hpoint
  | openAttach id ltotal =>
      rw [streamStep] at hstep
      split at hstep
      · cases hstep
        cases hpoint
      · cases hstep
        cases hpoint
  | readEnter h' off' count buf =>
      rw [streamStep] at hstep
      split at hstep
      · cases hstep
      · split at hstep
        · cases hstep
          dsimp only at hpoint
          split at hpoint
          · cases hpoint
            cases hn
          · cases hpoint
        · cases hstep
  | reading h' off' x =>
      rcases Option.map_eq_some_iff.mp hstep with ⟨o', ho', heq⟩
      rw [← heq] at hpoint ⊢
      dsimp only at hpoint
      unfold afterSession at hpoint
      split at hpoint
      · rename_i k count m dst' hret
        cases hpoint
        split at hn
        · cases hn
        · rename_i hneg
          refine ⟨x, o', k, count, rfl, ho', rfl, ?_⟩
          rw [hret, if_neg hneg]
      · cases hpoint
  | closeEnter h' =>
      rw [streamStep] at hstep
      split at hstep
      · cases hstep
      · cases hstep
        cases hpoint
  | opened h' => cases hstep
  | openFailed => cases hstep
  | readDone h' off' n' dst' => cases hstep
  | closed => cases hstep

/-!
# Runs
-/

/-- The calls are those of the callers, and no session starts inside an opening. -/
def CarefulStreams (p : Pool StreamWorld StreamPoint) (l : Move StreamCall LiveAnswer) : Prop :=
  StreamCalls p l ∧ UndisturbedOpenings p l

instance (p : Pool StreamWorld StreamPoint) (l : Move StreamCall LiveAnswer) :
    Decidable (CarefulStreams p l) :=
  inferInstanceAs (Decidable (StreamCalls p l ∧ UndisturbedOpenings p l))

def StreamsInv : Pool StreamWorld StreamPoint -> Prop :=
  PoolInv GoodStreams GoodStreamPoint

theorem streamsInv_of_noStreams {p : Pool StreamWorld StreamPoint} (h : NoStreams p) :
    StreamsInv p := by
  rcases h with ⟨hidle, hrefs, hstreams, hthreads⟩
  constructor
  · refine ⟨⟨?_, ?_, ?_⟩, ?_, ?_⟩
    · intro hactive
      rw [hidle] at hactive
      cases hactive
    · intro hactive
      rw [hidle] at hactive
      cases hactive
    · intro _ hheld
      omega
    · rw [hrefs, hstreams]
      rfl
    · intro s hs
      rw [hstreams] at hs
      cases hs
  · intro x hx
    rw [hthreads] at hx
    cases hx

theorem goodStreamPoint_entry {p : Pool StreamWorld StreamPoint} {c : StreamCall}
    (hok : StreamCalls p (Move.call c)) : GoodStreamPoint p.shared c.entry := by
  cases c with
  | session c =>
      refine ⟨?_, ?_, ?_⟩
      · intro heq
        rw [heq] at hok
        exact hok
      · intro heq
        rw [heq] at hok
        exact hok
      · intro env filename totalSize ringMb heq
        rw [heq] at hok
        exact hok
  | _ => trivial

theorem streamsInv_next {p q : Pool StreamWorld StreamPoint} {l : Move StreamCall LiveAnswer}
    (hinv : StreamsInv p) (hok : CarefulStreams p l)
    (hnext : streamProgram.system.next p l = some q) : StreamsInv q := by
  have heffect : forall {t point a o}, p.threads[t]? = some point ->
      streamProgram.step p t point a = some o -> StreamEffect p.shared point o :=
    fun hpoint hstep => stream_section hinv.shared
      (hinv.threads _ (List.mem_of_getElem? hpoint)) hstep
  refine poolInv_next ?_ ?_ ?_ hinv hnext
  · intro c hl
    rw [hl] at hok
    exact goodStreamPoint_entry hok.1
  · intro t point a o _ hpoint hstep
    have h := heffect hpoint hstep
    refine ⟨h.good, h.point, ?_⟩
    intro x hx
    rw [h.created] at hx
    cases hx
  · intro t point a o x hl hpoint hstep hmem hx
    rcases (heffect hpoint hstep).others with hcarried | ⟨hfree, hstreams, hstarts⟩
    · exact goodStreamPoint_of_carried hcarried hx
    · rw [hl] at hok
      have hgap := hok.2
      rw [UndisturbedOpenings, hpoint] at hgap
      exact goodStreamPoint_of_started hinv.shared hfree hstreams (hgap hstarts x hmem) hx

theorem streamsInv_run {p q : Pool StreamWorld StreamPoint}
    {tr : List (Pool StreamWorld StreamPoint × Move StreamCall LiveAnswer)}
    (hstart : NoStreams p) (hrun : Run streamProgram.system CarefulStreams p tr q) :
    StreamsInv q :=
  run_invariant (fun hinv hok hnext => streamsInv_next hinv hok hnext) hrun
    (streamsInv_of_noStreams hstart)

theorem virtualStream_faithful {p : Pool StreamWorld StreamPoint} (hstart : NoStreams p) :
    StreamsFaithful CarefulStreams p := by
  intro tr q t a q' hrun hnext
  have hinv := streamsInv_run hstart hrun
  rcases next_run hnext with ⟨x, o, hx, hstep, hq'⟩
  have hgood := hinv.threads x (List.mem_of_getElem? hx)
  constructor
  · intro h s hpoint hs
    rw [hq', getElem?_after_self hx] at hpoint
    rw [hq'] at hs
    exact opened_section hgood hstep (Option.some.inj hpoint) hs
  · intro h s off n dst hpoint hs hopen hn
    rw [hq', getElem?_after_self hx] at hpoint
    rcases readDone_section hstep (Option.some.inj hpoint) hn with
      ⟨x', o', off', count, hx', hread, hsame, hret⟩
    have hs : o.shared.streams[h]? = some s := by
      rw [hq'] at hs
      exact hs
    rw [hsame] at hs
    rw [hx'] at hgood
    have heffect := readSection_effect hinv.shared.live (refs_pos hinv.shared hs hopen)
      hgood.2.1 (hgood.2.2 s hs hopen) hread
    rcases heffect.bytes off' count n dst hret hn with ⟨hactive, hbytes⟩
    exact ⟨⟨hactive, hinv.shared.bound s (List.mem_of_getElem? hs) hopen hactive⟩, hbytes⟩

/-!
# Concrete runs
-/

def noStreams : Pool StreamWorld StreamPoint where
  shared := { live := emptyPool.shared, streams := [] }
  threads := []

/-- The thread {lit}`t` runs {lit}`n` sections. -/
def runSections (t n : Nat) : List (Move StreamCall LiveAnswer) :=
  List.replicate n (Move.run t {})

/-- A call makes the thread {lit}`t`, which runs {lit}`n` sections. -/
def callAndRun (t n : Nat) (c : StreamCall) : List (Move StreamCall LiveAnswer) :=
  Move.call c :: runSections t n

def createNamed (id : String) (segs : Nat) : StreamCall :=
  StreamCall.session (LiveCall.create { sessionId := id } "game.pkg" (segSize * segs) 4)

def storeSeg (byte : UInt8) : StreamCall :=
  StreamCall.session (LiveCall.tryWrite (fillMessage 0 1 byte))

/-- What a read is about to return: the number of bytes and the first of them,
the id of the stream, and whether the session is that of the stream. -/
def observeStream (t : Nat) (q : Pool StreamWorld StreamPoint) :
    Option (Int × UInt8 × String × Bool) :=
  match streamProgram.system.next q (Move.run t {}) with
  | none => none
  | some q' =>
      match q'.threads[t]? with
      | some (StreamPoint.readDone h _ n dst) =>
          match q'.shared.streams[h]? with
          | none => none
          | some s =>
              if s.isLive then
                some (n, dst 0, s.id, s.id == q.shared.live.lv.sessionId)
              else none
      | _ => none

theorem observeStream_some {t : Nat} {q : Pool StreamWorld StreamPoint} {n : Int}
    {byte : UInt8} {id : String} {b : Bool} (h : observeStream t q = some (n, byte, id, b)) :
    exists q' k s off dst, streamProgram.system.next q (Move.run t {}) = some q' ∧
      q'.threads[t]? = some (StreamPoint.readDone k off n dst) ∧
      q'.shared.streams[k]? = some s ∧ s.isLive = true ∧ dst 0 = byte ∧ s.id = id ∧
      (s.id == q.shared.live.lv.sessionId) = b := by
  unfold observeStream at h
  cases hnext : streamProgram.system.next q (Move.run t {}) with
  | none =>
      rw [hnext] at h
      cases h
  | some q' =>
      rw [hnext] at h
      dsimp only at h
      split at h
      · rename_i k off m dst hpoint
        split at h
        · cases h
        · rename_i s hs
          split at h
          · rename_i hopen
            cases h
            exact ⟨q', k, s, off, dst, rfl, hpoint, hs, hopen, rfl, rfl, rfl⟩
          · cases h
      · cases h

theorem observedStream_run {ok : Pool StreamWorld StreamPoint -> Move StreamCall LiveAnswer -> Prop}
    [forall p l, Decidable (ok p l)] {t : Nat} {ls : List (Move StreamCall LiveAnswer)}
    {n : Int} {byte : UInt8} {id : String} {b : Bool}
    (h : (execWhile streamProgram.system ok noStreams ls).bind (observeStream t) =
      some (n, byte, id, b)) :
    exists tr q q' k s off dst, Run streamProgram.system ok noStreams tr q ∧
      streamProgram.system.next q (Move.run t {}) = some q' ∧
      q'.threads[t]? = some (StreamPoint.readDone k off n dst) ∧
      q'.shared.streams[k]? = some s ∧ s.isLive = true ∧ dst 0 = byte ∧ s.id = id ∧
      (s.id == q.shared.live.lv.sessionId) = b := by
  rcases Option.bind_eq_some_iff.mp h with ⟨q, hexec, hobs⟩
  rcases run_of_execWhile hexec with ⟨tr, _, hrun⟩
  rcases observeStream_some hobs with ⟨q', k, s, off, dst, hrest⟩
  exact ⟨tr, q, q', k, s, off, dst, hrun, hrest⟩

theorem virtualStream_faithful_read :
    exists tr q q' k s off dst, Run streamProgram.system CarefulStreams noStreams tr q ∧
      streamProgram.system.next q (Move.run 3 {}) = some q' ∧
      q'.threads[3]? = some (StreamPoint.readDone k off 3 dst) ∧ s.id = "a" ∧
      IsSession q.shared.live.lv s ∧
      forall i : Nat, (i : Int) < 3 -> FromSession q.shared.live.lv (off + i) (dst i) := by
  have hobs : (execWhile streamProgram.system CarefulStreams noStreams
      (callAndRun 0 1 (createNamed "a" 2) ++ callAndRun 1 3 (StreamCall.openLive "a") ++
        callAndRun 2 1 (storeSeg 65) ++
        callAndRun 3 1 (StreamCall.readStream 0 0 3 (fun _ => 0)))).bind (observeStream 3) =
      some (3, 65, "a", true) := by
    decide
  rcases observedStream_run hobs with
    ⟨tr, q, q', k, s, off, dst, hrun, hnext, hpoint, hs, hopen, _, hid, _⟩
  have hstart : NoStreams noStreams := ⟨rfl, rfl, rfl, rfl⟩
  have hread := (virtualStream_faithful hstart tr q 3 {} q' hrun hnext).2 k s off 3 dst hpoint
    hs hopen (by decide)
  exact ⟨tr, q, q', k, s, off, dst, hrun, hnext, hpoint, hid, hread⟩

/-- The session is torn down and another one is started while an opening has
checked the id and has no reference yet. -/
def swappedSession : List (Move StreamCall LiveAnswer) :=
  callAndRun 0 1 (createNamed "a" 2) ++ callAndRun 1 1 (StreamCall.openLive "a") ++
    callAndRun 2 1 (StreamCall.session LiveCall.destroy) ++
    callAndRun 3 1 (createNamed "b" 2) ++ runSections 1 2 ++
    callAndRun 4 1 (storeSeg 66) ++
    callAndRun 5 1 (StreamCall.readStream 0 0 3 (fun _ => 0))

theorem virtualStream_otherSession : ¬ StreamsFaithful StreamCalls noStreams := by
  intro hfaithful
  have hobs : (execWhile streamProgram.system StreamCalls noStreams swappedSession).bind
      (observeStream 5) = some (3, 66, "a", false) := by
    decide
  rcases observedStream_run hobs with
    ⟨tr, q, q', k, s, off, dst, hrun, hnext, hpoint, hs, hopen, _, _, hother⟩
  have hread := (hfaithful tr q 5 {} q' hrun hnext).2 k s off 3 dst hpoint hs hopen (by decide)
  rw [hread.1.2.1, beq_self_eq_true] at hother
  cases hother

end Live
end PkgManager
