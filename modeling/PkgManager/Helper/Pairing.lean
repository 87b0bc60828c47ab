import PkgManager.Helper.Session

/-!
# Answers and requests belong together

While a status is asked only of a usable session, at most one request is on its
way: the bytes a helper has not yet taken up are a beginning of the frame of one
request, and the bytes a client has not yet received are a rest of the answer to
the request it waits for.  A session that is not usable may hold half a frame or
a late answer, and {lit}`install_service_status` does not ask whether it is.
-/

namespace PkgManager
namespace Helper

open Channel Transition

/-!
# What is asked
-/

/-- A call passes the fields of the request; a status call names the content of
the helper's own install. -/
def Request.Carries (r : Request) : NativeCall -> Prop
  | NativeCall.install uri contentName iconUrl =>
      r.op = INSTALL_IPC_INSTALL ∧ uri = r.uri.text ∧ contentName = r.name.text ∧
        iconUrl = r.iconUrl.text
  | NativeCall.status _ => r.op = INSTALL_IPC_STATUS
  | NativeCall.shortcut titleId directory =>
      r.op = INSTALL_IPC_SHORTCUT ∧ titleId = r.titleId.text ∧ directory = r.directory.text

/-- The frame is the whole of one request the client built. -/
def IsFrame (asked : List Request) (n : Nat) (r : Request) (frame : List Sent) : Prop :=
  asked[n]? = some r ∧ frame = tagged n r.bytes

def NativeRecord.Faithful (asked : List Request) (x : NativeRecord) : Prop :=
  exists n r, IsFrame asked n r x.frame ∧ r.Carries x.call

/-- What an answer answers: the request of that number, or none, as a greeting
does. -/
def Answer.IsFor (asked : List Request) (a : Answer) : Option Nat -> Prop
  | none => a.frame = []
  | some n => exists r, IsFrame asked n r a.frame

/-- The bytes received are one answer, computed on the connection of the service
for the request of the call. -/
def Returned.Paired (asked : List Request) (answers : List Answer) (x : Returned) : Prop :=
  exists m a, answers[m]? = some a ∧ x.received = tagged m a.response.bytes ∧
    x.conn = some a.conn ∧ x.result = a.response.result ∧
    (exists call : Call, x.output = call.output a.response) ∧ a.IsFor asked x.asked

structure Paired (w : IpcWorld) : Prop where
  returned : forall x, x ∈ w.returned -> x.Paired w.asked w.answers
  natives : forall x, x ∈ w.natives -> x.Faithful w.asked

/-- A status is asked only of a session that is usable, or of none. -/
def StatusWhileUsable (w : IpcWorld) : Step -> Prop
  | Step.status => w.service.usable = true ∨ w.service.fd = none
  | _ => True

instance (w : IpcWorld) (l : Step) : Decidable (StatusWhileUsable w l) :=
  match l with
  | Step.status => inferInstanceAs (Decidable (w.service.usable = true ∨ w.service.fd = none))
  | Step.start _ _ _ => isTrue trivial
  | Step.close => isTrue trivial
  | Step.clientMoves _ => isTrue trivial
  | Step.clientFails _ => isTrue trivial
  | Step.helperMoves _ _ => isTrue trivial
  | Step.helperEnds _ => isTrue trivial
  | Step.helperServes _ _ => isTrue trivial

/-!
# The invariant
-/

/-- The bytes that the helper has not taken up. -/
def Connection.unread (c : Connection) : List Sent :=
  match c.helper.point with
  | HelperPoint.receive got => got ++ c.toHelper
  | _ => c.toHelper

/-- The bytes that the client has not received. -/
def Connection.coming (c : Connection) : List Sent :=
  match c.helper.point with
  | HelperPoint.reply left _ => c.toClient ++ left
  | _ => c.toClient

def Connection.isEnded (c : Connection) : Prop :=
  c.helper.point = HelperPoint.ended

def Connection.Quiet (c : Connection) : Prop :=
  c.unread = [] ∧ c.coming = []

def Beginning (asked : List Request) (bytes : List Sent) : Prop :=
  bytes = [] ∨ exists n r, asked[n]? = some r ∧ bytes <+: tagged n r.bytes

/-- Where the bytes are of the exchange in progress on connection {lit}`k`. -/
def EngagedOn (asked : List Request) (answers : List Answer) (usable : Bool) (k : Nat)
    (c : Connection) : ClientPoint -> Prop
  | ClientPoint.idle => usable = true -> c.Quiet
  | ClientPoint.opening _ got =>
      c.unread = [] ∧ exists m a, answers[m]? = some a ∧ a.conn = k ∧ a.frame = [] ∧
        (got ++ c.coming) <+: tagged m a.response.bytes
  | ClientPoint.sending _ n left =>
      left ≠ [] ∧ c.coming = [] ∧ exists r, asked[n]? = some r ∧
        (c.isEnded ∨ c.unread ++ left = tagged n r.bytes)
  | ClientPoint.receiving _ n got =>
      exists r, asked[n]? = some r ∧
        (got = [] ∧ c.coming = [] ∧ (c.isEnded ∨ c.unread = tagged n r.bytes) ∨
          c.unread = [] ∧ exists m a, answers[m]? = some a ∧ a.conn = k ∧
            a.frame = tagged n r.bytes ∧ (got ++ c.coming) <+: tagged m a.response.bytes)

/-- The part that does not speak about the call in progress. -/
structure Orderly (w : IpcWorld) : Prop where
  began : forall (k : Nat) (c : Connection), w.conns[k]? = some c ->
    c.isEnded ∨ Beginning w.asked c.unread
  paired : Paired w

structure Sound (w : IpcWorld) : Prop where
  orderly : Orderly w
  engaged : forall (k : Nat) (c : Connection), w.service.fd = some k -> w.conns[k]? = some c ->
    EngagedOn w.asked w.answers w.service.usable k c w.point

/-!
# Records only grow
-/

section Growth

variable {asked asked' : List Request} {answers answers' : List Answer}

theorem getElem?_of_grown {α : Type} {l l' : List α} {n : Nat} {x : α} (hgrown : l <+: l')
    (h : l[n]? = some x) : l'[n]? = some x := by
  rcases hgrown with ⟨rest, hrest⟩
  rcases List.getElem?_eq_some_iff.mp h with ⟨hlt, _⟩
  rw [← hrest, List.getElem?_append_left hlt, h]

theorem isFrame_grown {n : Nat} {r : Request} {frame : List Sent} (hasked : asked <+: asked')
    (h : IsFrame asked n r frame) : IsFrame asked' n r frame :=
  ⟨getElem?_of_grown hasked h.1, h.2⟩

theorem isFor_grown {a : Answer} {n : Option Nat} (hasked : asked <+: asked')
    (h : a.IsFor asked n) : a.IsFor asked' n := by
  cases n with
  | none => exact h
  | some n =>
      rcases h with ⟨r, hframe⟩
      exact ⟨r, isFrame_grown hasked hframe⟩

theorem faithful_grown {x : NativeRecord} (hasked : asked <+: asked') (h : x.Faithful asked) :
    x.Faithful asked' := by
  rcases h with ⟨n, r, hframe, hcarries⟩
  exact ⟨n, r, isFrame_grown hasked hframe, hcarries⟩

theorem paired_grown {x : Returned} (hasked : asked <+: asked') (hanswers : answers <+: answers')
    (h : x.Paired asked answers) : x.Paired asked' answers' := by
  rcases h with ⟨m, a, hm, hreceived, hconn, hresult, houtput, hfor⟩
  exact ⟨m, a, getElem?_of_grown hanswers hm, hreceived, hconn, hresult, houtput,
    isFor_grown hasked hfor⟩

theorem beginning_grown {bytes : List Sent} (hasked : asked <+: asked')
    (h : Beginning asked bytes) : Beginning asked' bytes := by
  rcases h with hnil | ⟨n, r, hn, hbytes⟩
  · exact Or.inl hnil
  · exact Or.inr ⟨n, r, getElem?_of_grown hasked hn, hbytes⟩

theorem engagedOn_grown {usable : Bool} {k : Nat} {c : Connection} {point : ClientPoint}
    (hasked : asked <+: asked') (hanswers : answers <+: answers')
    (h : EngagedOn asked answers usable k c point) :
    EngagedOn asked' answers' usable k c point := by
  cases point with
  | idle => exact h
  | opening install got =>
      rcases h with ⟨hunread, m, a, hm, hrest⟩
      exact ⟨hunread, m, a, getElem?_of_grown hanswers hm, hrest⟩
  | sending call n left =>
      rcases h with ⟨hleft, hcoming, r, hr, hbytes⟩
      exact ⟨hleft, hcoming, r, getElem?_of_grown hasked hr, hbytes⟩
  | receiving call n got =>
      rcases h with ⟨r, hr, hwaiting | ⟨hunread, m, a, hm, hrest⟩⟩
      · exact ⟨r, getElem?_of_grown hasked hr, Or.inl hwaiting⟩
      · exact ⟨r, getElem?_of_grown hasked hr,
          Or.inr ⟨hunread, m, a, getElem?_of_grown hanswers hm, hrest⟩⟩

end Growth

theorem getElem?_set_cases {α : Type} {l : List α} {k j : Nat} {x d : α}
    (h : (l.set k x)[j]? = some d) : j = k ∧ d = x ∨ j ≠ k ∧ l[j]? = some d := by
  rw [List.getElem?_set] at h
  split at h
  · rename_i hkj
    split at h
    · exact Or.inl ⟨hkj.symm, (Option.some.inj h).symm⟩
    · cases h
  · rename_i hkj
    exact Or.inr ⟨fun heq => hkj heq.symm, h⟩

theorem getElem?_concat_cases {α : Type} {l : List α} {j : Nat} {x d : α}
    (h : (l ++ [x])[j]? = some d) : l[j]? = some d ∨ j = l.length ∧ d = x := by
  rw [List.getElem?_append] at h
  split at h
  · exact Or.inl h
  · rename_i hge
    rcases List.getElem?_eq_some_iff.mp h with ⟨hlt, heq⟩
    rw [List.length_singleton] at hlt
    have hj : j = l.length := by omega
    refine Or.inr ⟨hj, ?_⟩
    rw [← heq]
    exact List.getElem_singleton _

/-- The records of one state go on in another. -/
structure Grown (w w' : IpcWorld) : Prop where
  asked : w.asked <+: w'.asked
  answers : w.answers <+: w'.answers
  returned : w'.returned = w.returned
  natives : w'.natives = w.natives

theorem paired_of_grown {w w' : IpcWorld} (hgrown : Grown w w') (h : Paired w) : Paired w' := by
  constructor
  · intro x hx
    rw [hgrown.returned] at hx
    exact paired_grown hgrown.asked hgrown.answers (h.returned x hx)
  · intro x hx
    rw [hgrown.natives] at hx
    exact faithful_grown hgrown.asked (h.natives x hx)

/-!
# A connection that loses bytes, or nothing
-/

section Bytes

variable {c : Connection} {got left : List Sent} {ends : Bool}

theorem unread_of_receive (h : c.helper.point = HelperPoint.receive got) :
    c.unread = got ++ c.toHelper := by
  rw [Connection.unread, h]

theorem coming_of_receive (h : c.helper.point = HelperPoint.receive got) :
    c.coming = c.toClient := by
  rw [Connection.coming, h]

theorem unread_of_reply (h : c.helper.point = HelperPoint.reply left ends) :
    c.unread = c.toHelper := by
  rw [Connection.unread, h]

theorem coming_of_reply (h : c.helper.point = HelperPoint.reply left ends) :
    c.coming = c.toClient ++ left := by
  rw [Connection.coming, h]

theorem live_of_receive (h : c.helper.point = HelperPoint.receive got) : ¬ c.isEnded := by
  intro hended
  rw [Connection.isEnded, h] at hended
  cases hended

theorem live_of_reply (h : c.helper.point = HelperPoint.reply left ends) : ¬ c.isEnded := by
  intro hended
  rw [Connection.isEnded, h] at hended
  cases hended

theorem afterReply_cases (left : List Sent) (ends : Bool) :
    left ≠ [] ∧ afterReply left ends = HelperPoint.reply left ends ∨
      left = [] ∧ afterReply left ends = HelperPoint.ended ∨
      left = [] ∧ afterReply left ends = HelperPoint.receive [] := by
  cases left with
  | nil =>
      cases ends with
      | true => exact Or.inr (Or.inl ⟨rfl, rfl⟩)
      | false => exact Or.inr (Or.inr ⟨rfl, rfl⟩)
  | cons b rest => exact Or.inl ⟨List.cons_ne_nil b rest, rfl⟩

theorem unread_afterReply (h : c.helper.point = afterReply left ends) :
    c.unread = c.toHelper := by
  rcases afterReply_cases left ends with ⟨_, heq⟩ | ⟨_, heq⟩ | ⟨_, heq⟩
  · rw [Connection.unread, h, heq]
  · rw [Connection.unread, h, heq]
  · rw [Connection.unread, h, heq]
    rfl

theorem coming_afterReply (h : c.helper.point = afterReply left ends) :
    c.coming = c.toClient ++ left := by
  rcases afterReply_cases left ends with ⟨_, heq⟩ | ⟨hnil, heq⟩ | ⟨hnil, heq⟩
  · rw [Connection.coming, h, heq]
  · rw [Connection.coming, h, heq, hnil, List.append_nil]
  · rw [Connection.coming, h, heq, hnil, List.append_nil]

end Bytes

/-- The helper moved bytes or ended. -/
structure Quieter (c c' : Connection) : Prop where
  unread : c.unread = [] -> c'.unread = []
  coming : c'.coming <+: c.coming
  same : c'.isEnded ∨ ¬ c.isEnded ∧ c'.unread = c.unread

section Helper

variable {c c' : Connection}

theorem coming_nil (h : Quieter c c') (hnil : c.coming = []) : c'.coming = [] :=
  List.prefix_nil.mp (hnil ▸ h.coming)

theorem ended_or_unread {bytes : List Sent} (h : Quieter c c')
    (hbytes : c.isEnded ∨ c.unread = bytes) : c'.isEnded ∨ c'.unread = bytes := by
  rcases h.same with hended | ⟨hlive, hsame⟩
  · exact Or.inl hended
  · exact Or.inr (hsame.trans (hbytes.resolve_left hlive))

theorem ended_or_beginning {asked : List Request} (h : Quieter c c')
    (hbegan : c.isEnded ∨ Beginning asked c.unread) :
    c'.isEnded ∨ Beginning asked c'.unread := by
  rcases h.same with hended | ⟨hlive, hsame⟩
  · exact Or.inl hended
  · rw [hsame]
    exact Or.inr (hbegan.resolve_left hlive)

theorem engagedOn_quieter {asked : List Request} {answers : List Answer} {usable : Bool}
    {k : Nat} {point : ClientPoint} (hquieter : Quieter c c')
    (h : EngagedOn asked answers usable k c point) :
    EngagedOn asked answers usable k c' point := by
  cases point with
  | idle =>
      intro husable
      rcases h husable with ⟨hunread, hcoming⟩
      exact ⟨hquieter.unread hunread, coming_nil hquieter hcoming⟩
  | opening install got =>
      rcases h with ⟨hunread, m, a, hm, hconn, hframe, hpart⟩
      have hless := List.prefix_append_right_inj got |>.mpr hquieter.coming
      exact ⟨hquieter.unread hunread, m, a, hm, hconn, hframe, hless.trans hpart⟩
  | sending call n left =>
      rcases h with ⟨hleft, hcoming, r, hr, hbytes⟩
      refine ⟨hleft, coming_nil hquieter hcoming, r, hr, ?_⟩
      rcases hquieter.same with hended | ⟨hlive, hsame⟩
      · exact Or.inl hended
      · rw [hsame]
        exact Or.inr (hbytes.resolve_left hlive)
  | receiving call n got =>
      rcases h with ⟨r, hr, ⟨hgot, hcoming, hbytes⟩ | ⟨hunread, m, a, hm, hconn, hframe, hpart⟩⟩
      · exact ⟨r, hr, Or.inl ⟨hgot, coming_nil hquieter hcoming, ended_or_unread hquieter hbytes⟩⟩
      · have hless := List.prefix_append_right_inj got |>.mpr hquieter.coming
        exact ⟨r, hr, Or.inr ⟨hquieter.unread hunread, m, a, hm, hconn, hframe,
          hless.trans hpart⟩⟩

theorem quieter_of_same (hlive : ¬ c.isEnded) (hunread : c'.unread = c.unread)
    (hcoming : c'.coming = c.coming) : Quieter c c' := by
  refine ⟨fun hnil => hunread.trans hnil, ?_, Or.inr ⟨hlive, hunread⟩⟩
  rw [hcoming]

theorem quieter_ends (c : Connection) : Quieter c c.helperEnds := by
  have hended : c.helperEnds.isEnded := rfl
  have hunread : c.helperEnds.unread = c.toHelper := rfl
  have hcoming : c.helperEnds.coming = c.toClient := rfl
  cases hpoint : c.helper.point with
  | receive got =>
      refine ⟨fun hnil => ?_, ?_, Or.inl hended⟩
      · rw [unread_of_receive hpoint] at hnil
        exact (List.append_eq_nil_iff.mp hnil).2
      · rw [hcoming, coming_of_receive hpoint]
  | reply left ends =>
      refine ⟨fun hnil => ?_, ?_, Or.inl hended⟩
      · rw [hunread, ← unread_of_reply hpoint, hnil]
      · rw [hcoming, coming_of_reply hpoint]
        exact List.prefix_append _ _
  | ended =>
      refine ⟨fun hnil => ?_, ?_, Or.inl hended⟩
      · rw [Connection.unread, hpoint] at hnil
        exact hnil
      · rw [hcoming, Connection.coming, hpoint]

theorem quieter_moves {count : Nat} (h : c.helperMoves count = some c') : Quieter c c' := by
  rw [Connection.helperMoves] at h
  cases hpoint : c.helper.point with
  | receive got =>
      rw [hpoint] at h
      dsimp only at h
      split at h
      · rw [← Option.some.inj h]
        refine quieter_of_same (live_of_receive hpoint) ?_ ?_
        · rw [unread_of_receive hpoint]
          exact moved got c.toHelper count
        · rw [coming_of_receive hpoint]
          rfl
      · cases h
  | reply left ends =>
      rw [hpoint] at h
      dsimp only at h
      split at h
      · rw [← Option.some.inj h]
        refine quieter_of_same (live_of_reply hpoint) ?_ ?_
        · rw [unread_of_reply hpoint]
          exact unread_afterReply rfl
        · rw [coming_of_reply hpoint, ← moved c.toClient left count]
          exact coming_afterReply rfl
      · cases h
  | ended =>
      rw [hpoint] at h
      cases h

end Helper

/-!
# Steps of a helper
-/

section HelperSteps

variable {w w' : IpcWorld} {k : Nat} {c c' : Connection}

theorem sound_quieter (h : Sound w) (hc : w.conns[k]? = some c) (hquieter : Quieter c c') :
    Sound { w with conns := w.conns.set k c' } := by
  constructor
  · constructor
    · intro j d hd
      rcases getElem?_set_cases hd with ⟨hj, hnew⟩ | ⟨_, hold⟩
      · rw [hnew]
        exact ended_or_beginning hquieter (h.orderly.began k c hc)
      · exact h.orderly.began j d hold
    · exact ⟨h.orderly.paired.returned, h.orderly.paired.natives⟩
  · intro j d hj hd
    rcases getElem?_set_cases hd with ⟨hjk, hnew⟩ | ⟨_, hold⟩
    · rw [hnew, hjk]
      exact engagedOn_quieter hquieter (h.engaged k c (hjk ▸ hj) hc)
    · exact h.engaged j d hj hold

/-- The call a helper makes for a request passes the fields of the request. -/
theorem serve_carries {p : HelperProcess} {r : Request} {n : NativeResult} {call : NativeCall}
    (h : (installHelperServe p r n).call = some call) : r.Carries call := by
  change (serveRequest p r n).call = some call at h
  rw [serveRequest] at h
  split at h
  · rename_i hop
    cases h
    exact ⟨hop.1, rfl, rfl, rfl⟩
  · split at h
    · rename_i hop
      cases h
      exact hop.1
    · split at h
      · rename_i hop
        cases h
        exact ⟨hop.1, rfl, rfl⟩
      · split at h
        · cases h
        · cases h

/-- A frame a helper has read is the whole frame of one request. -/
theorem frame_of_beginning {asked : List Request} {got rest : List Sent}
    (h : Beginning asked (got ++ rest)) (hlength : got.length = 1964) :
    rest = [] ∧ exists n r, IsFrame asked n r got := by
  rcases h with hnil | ⟨n, r, hr, hpart⟩
  · rw [(List.append_eq_nil_iff.mp hnil).1] at hlength
    cases hlength
  · have hwhole : got.length = (tagged n r.bytes).length := by
      rw [length_tagged, Request.length_bytes, hlength]
    rcases taken_all hpart hwhole with ⟨hgot, hrest⟩
    exact ⟨hrest, n, r, hr, hgot⟩

/-- Only a client that waits for the answer is engaged with a helper that has
read a whole frame. -/
theorem engagedOn_served {asked : List Request} {answers : List Answer} {usable : Bool}
    {point : ClientPoint} {got : List Sent} {a : Answer}
    (hpoint : c.helper.point = HelperPoint.receive got) (hlength : got.length = 1964)
    (hnone : c.toHelper = []) (hconn : a.conn = k) (hframe : a.frame = got)
    (hunread : c'.unread = [])
    (hcoming : c'.coming = c.toClient ++ tagged answers.length a.response.bytes)
    (h : EngagedOn asked answers usable k c point) :
    EngagedOn asked (answers ++ [a]) usable k c' point := by
  have hgot : c.unread = got := by
    rw [unread_of_receive hpoint, hnone, List.append_nil]
  have hfull : c.unread ≠ [] := by
    intro hnil
    rw [← hgot, hnil] at hlength
    cases hlength
  cases point with
  | idle => exact fun husable => absurd (h husable).1 hfull
  | opening install taken => exact absurd h.1 hfull
  | sending call n left =>
      rcases h with ⟨hleft, _, r, _, hbytes⟩
      have heq := hbytes.resolve_left (live_of_receive hpoint)
      have hlen := congrArg List.length heq
      rw [List.length_append, hgot, hlength, length_tagged, Request.length_bytes] at hlen
      exact absurd (List.length_eq_zero_iff.mp (by omega)) hleft
  | receiving call n taken =>
      rcases h with ⟨r, hr, ⟨htaken, hnothing, hbytes⟩ | ⟨hempty, _⟩⟩
      · have heq := hbytes.resolve_left (live_of_receive hpoint)
        rw [coming_of_receive hpoint] at hnothing
        refine ⟨r, hr, Or.inr ⟨hunread, answers.length, a, List.getElem?_concat_length, hconn,
          ?_, ?_⟩⟩
        · rw [hframe, ← hgot, heq]
        · rw [htaken, hcoming, hnothing]
          exact List.prefix_refl _
      · exact absurd hempty hfull

theorem sound_serves {n : NativeResult} (h : Sound w) (hc : w.conns[k]? = some c)
    (hstep : helperServes w k c n = some w') : Sound w' := by
  rw [helperServes] at hstep
  split at hstep
  · rename_i got hpoint
    dsimp only at hstep
    split at hstep
    · cases hstep
    · rename_i hlength
      have hlength : got.length = 1964 := Decidable.of_not_not hlength
      split at hstep
      · rw [← Option.some.inj hstep]
        have hbegan := (h.orderly.began k c hc).resolve_left (live_of_receive hpoint)
        rw [unread_of_receive hpoint] at hbegan
        rcases frame_of_beginning hbegan hlength with ⟨hnone, m, r, hr, hframe⟩
        have hrequest : Request.ofBytes (content got) = r := by
          rw [hframe, content_tagged, Request.ofBytes_bytes]
        have hgrown : w.answers <+: w.answers ++ [{
            conn := k
            frame := got
            response :=
              (installHelperServe c.helper (Request.ofBytes (content got)) n).response }] :=
          List.prefix_append _ _
        constructor
        · constructor
          · intro j d hd
            rcases getElem?_set_cases hd with ⟨_, hnew⟩ | ⟨_, hold⟩
            · refine Or.inr (Or.inl ?_)
              rw [hnew, unread_of_reply rfl]
              exact hnone
            · exact h.orderly.began j d hold
          · constructor
            · intro x hx
              exact paired_grown (List.prefix_refl _) hgrown (h.orderly.paired.returned x hx)
            · intro x hx
              rcases List.mem_append.mp hx with hold | hnew
              · exact h.orderly.paired.natives x hold
              · rcases List.mem_map.mp hnew with ⟨call, hcall, heq⟩
                rw [← heq]
                have hmade := Option.mem_toList.mp hcall
                rw [hrequest] at hmade
                exact ⟨m, r, ⟨hr, hframe⟩, serve_carries hmade⟩
        · intro j d hj hd
          rcases getElem?_set_cases hd with ⟨hjk, hnew⟩ | ⟨hne, hold⟩
          · rw [hnew, hjk]
            have hengaged := h.engaged k c (hjk ▸ hj) hc
            refine engagedOn_served hpoint hlength hnone rfl rfl ?_ ?_ hengaged
            · rw [unread_of_reply rfl]
              exact hnone
            · exact coming_of_reply rfl
          · exact engagedOn_grown (List.prefix_refl _) hgrown (h.engaged j d hj hold)
      · rw [← Option.some.inj hstep]
        exact sound_quieter h hc (quieter_ends c)
  · cases hstep

end HelperSteps

/-!
# Steps of the service
-/

section ClientSteps

variable {w w' : IpcWorld} {k : Nat} {c : Connection}

/-- Nothing is on its way on the connection of the service. -/
def QuietFd (w : IpcWorld) : Prop :=
  forall (k : Nat) (c : Connection), w.service.fd = some k -> w.conns[k]? = some c -> c.Quiet

theorem sound_idle (horderly : Orderly w) (hpoint : w.point = ClientPoint.idle)
    (hquiet : w.service.usable = true -> QuietFd w) : Sound w := by
  refine ⟨horderly, ?_⟩
  intro k c hk hc
  rw [hpoint]
  exact fun husable => hquiet husable k c hk hc

theorem orderly_of_grown (h : Orderly w) (hgrown : Grown w w') (hconns : w'.conns = w.conns) :
    Orderly w' := by
  constructor
  · intro k c hc
    rw [hconns] at hc
    rcases h.began k c hc with hended | hbegan
    · exact Or.inl hended
    · exact Or.inr (beginning_grown hgrown.asked hbegan)
  · exact paired_of_grown hgrown h.paired

theorem grown_of_records (hasked : w'.asked = w.asked) (hanswers : w'.answers = w.answers)
    (hreturned : w'.returned = w.returned) (hnatives : w'.natives = w.natives) : Grown w w' := by
  refine ⟨?_, ?_, hreturned, hnatives⟩
  · rw [hasked]
  · rw [hanswers]

/-- A change of the service and the place of the call. -/
theorem orderly_control {service : Service} {point : ClientPoint} (h : Orderly w) :
    Orderly { w with service := service, point := point } :=
  orderly_of_grown h (grown_of_records rfl rfl rfl rfl) rfl

theorem sound_closed (h : Orderly w) : Sound (closed w) := by
  refine ⟨orderly_control h, ?_⟩
  intro k c hk
  cases hk

theorem sound_returns {call : Call} (h : Orderly w)
    (hquiet : w.service.usable = true -> QuietFd w) : Sound (call.returns w) := by
  cases call with
  | start => exact sound_idle (orderly_control h) rfl hquiet
  | status => exact sound_idle (orderly_control h) rfl hquiet
  | close => exact sound_closed h

theorem Request.bytes_ne_nil (r : Request) : r.bytes ≠ [] := by
  intro hnil
  have hlength := congrArg List.length hnil
  rw [Request.length_bytes] at hlength
  cases hlength

/-- An exchange starts where nothing is on its way. -/
theorem sound_exchange {call : Call} {request : Request} (h : Orderly w) (hquiet : QuietFd w) :
    Sound (exchange w call request) := by
  constructor
  · exact orderly_of_grown h ⟨List.prefix_append _ _, List.prefix_refl _, rfl, rfl⟩ rfl
  · intro k c hk hc
    rcases hquiet k c hk hc with ⟨hunread, hcoming⟩
    refine ⟨?_, hcoming, _, List.getElem?_concat_length, Or.inr ?_⟩
    · apply tagged_ne_nil
      exact Request.bytes_ne_nil _
    · rw [hunread]
      rfl

theorem sound_openService {install : Request} {cancelable canceledAtOnce : Bool}
    {launch : Option Launch} (h : Orderly w) (hidle : w.point = ClientPoint.idle) :
    Sound (openService w install cancelable canceledAtOnce launch) := by
  have hnone : forall opened : Service, opened.fd = none -> opened.usable = false ->
      Sound { w with service := opened } := by
    intro opened hfd husable
    refine sound_idle (orderly_control h) hidle ?_
    intro htrue
    rw [show ({ w with service := opened } : IpcWorld).service.usable = false from husable] at htrue
    cases htrue
  unfold openService
  dsimp only
  split
  · exact hnone _ rfl rfl
  · cases launch with
    | none => exact hnone _ rfl rfl
    | some l =>
        dsimp only
        constructor
        · constructor
          · intro j d hd
            rcases getElem?_concat_cases hd with hold | ⟨_, hnew⟩
            · exact h.began j d hold
            · rw [hnew]
              exact Or.inr (Or.inl rfl)
          · have hgrown : w.answers <+: w.answers ++
                [{ conn := w.conns.length, frame := [], response := l.ready }] :=
              List.prefix_append _ _
            exact paired_of_grown (w := w) ⟨List.prefix_refl _, hgrown, rfl, rfl⟩ h.paired
        · intro j d hj hd
          have hj : w.conns.length = j := Option.some.inj hj
          rw [← hj, List.getElem?_concat_length] at hd
          rw [← Option.some.inj hd]
          refine ⟨rfl, w.answers.length, _, List.getElem?_concat_length, hj, rfl, ?_⟩
          exact List.prefix_refl _

theorem sound_start {args : StartArgs} {canceledAtOnce : Bool} {launch : Option Launch}
    (h : Sound w) (hidle : w.point = ClientPoint.idle) :
    Sound (installServiceStart w args canceledAtOnce launch) := by
  rw [installServiceStart]
  split
  · exact h
  · cases args.request with
    | none => exact h
    | some install => exact sound_openService h.orderly hidle

theorem quietFd_of_idle (h : Sound w) (hidle : w.point = ClientPoint.idle)
    (husable : w.service.usable = true) : QuietFd w := by
  intro k c hk hc
  have hengaged := h.engaged k c hk hc
  rw [hidle] at hengaged
  exact hengaged husable

theorem sound_status (h : Sound w) (hidle : w.point = ClientPoint.idle)
    (hok : w.service.usable = true ∨ w.service.fd = none) : Sound (installServiceStatus w) := by
  refine sound_exchange h.orderly ?_
  rcases hok with husable | hnone
  · exact quietFd_of_idle h hidle husable
  · intro k c hk
    rw [hnone] at hk
    cases hk

theorem sound_close (h : Sound w) (hidle : w.point = ClientPoint.idle) :
    Sound (installServiceClose w) := by
  rw [installServiceClose]
  split
  · rename_i husable
    have hquiet := quietFd_of_idle h hidle husable.2
    exact sound_exchange (orderly_control h.orderly) (fun k c hk hc => hquiet k c hk hc)
  · exact sound_closed h.orderly

theorem sound_fails {failure : Failure} (h : Sound w) (hstep : clientFails w failure = some w') :
    Sound w' := by
  have hunusable : forall {p : Prop}, (false = true) -> p := fun hfalse => by cases hfalse
  rw [clientFails] at hstep
  dsimp only at hstep
  split at hstep
  · cases hstep
  · split at hstep
    · cases hstep
    · rw [← Option.some.inj hstep]
      exact sound_idle (orderly_control h.orderly) rfl hunusable
    · rw [← Option.some.inj hstep]
      exact sound_returns (orderly_control h.orderly) hunusable
    · rw [← Option.some.inj hstep]
      exact sound_returns (orderly_control h.orderly) hunusable

end ClientSteps

/-!
# Bytes that the service moves
-/

section Moves

variable {w w' : IpcWorld} {k : Nat} {c c' : Connection}

theorem orderly_set (h : Orderly w)
    (hbegan : c'.isEnded ∨ Beginning w.asked c'.unread) :
    Orderly { w with conns := w.conns.set k c' } := by
  constructor
  · intro j d hd
    rcases getElem?_set_cases hd with ⟨_, hnew⟩ | ⟨_, hold⟩
    · rw [hnew]
      exact hbegan
    · exact h.began j d hold
  · exact ⟨h.paired.returned, h.paired.natives⟩

/-- The bytes that are received are the next of those to come. -/
theorem coming_taken (c : Connection) (count : Nat) :
    c.toClient.take count ++ { c with toClient := c.toClient.drop count }.coming = c.coming := by
  cases hpoint : c.helper.point with
  | receive got =>
      rw [Connection.coming, Connection.coming, hpoint]
      exact List.take_append_drop count c.toClient
  | reply left ends =>
      rw [Connection.coming, Connection.coming, hpoint]
      dsimp only
      rw [← List.append_assoc, List.take_append_drop]
  | ended =>
      rw [Connection.coming, Connection.coming, hpoint]
      exact List.take_append_drop count c.toClient

/-- The bytes that are sent come behind those not taken up. -/
theorem unread_sent (c : Connection) (bytes : List Sent) :
    { c with toHelper := c.toHelper ++ bytes }.unread = c.unread ++ bytes := by
  cases hpoint : c.helper.point with
  | receive got =>
      rw [Connection.unread, Connection.unread, hpoint]
      exact (List.append_assoc got c.toHelper bytes).symm
  | reply left ends =>
      rw [Connection.unread, Connection.unread, hpoint]
  | ended =>
      rw [Connection.unread, Connection.unread, hpoint]

/-- An answer that has arrived as a whole leaves nothing to come. -/
theorem whole_answer {got : List Sent} {count m : Nat} {a : Answer}
    (hpart : (got ++ c.coming) <+: tagged m a.response.bytes)
    (hlength : (got ++ c.toClient.take count).length = 752) :
    got ++ c.toClient.take count = tagged m a.response.bytes ∧
      { c with toClient := c.toClient.drop count }.coming = [] := by
  rw [← coming_taken c count, ← List.append_assoc] at hpart
  refine taken_all hpart ?_
  rw [hlength, length_tagged, Response.length_bytes]

theorem named_fd (s : Service) (op : UInt32) (r : Response) : (s.named op r).fd = s.fd := by
  rw [Service.named]
  split
  · rfl
  · rfl

theorem receiveResponse_fd (s : Service) (op : UInt32) (r : Response) :
    (receiveResponse s op r).1.fd = s.fd := by
  rw [receiveResponse]
  split
  · exact named_fd s op r
  · exact named_fd s op r

theorem receiveResponse_refused {s : Service} {op : UInt32} {r : Response}
    (h : (receiveResponse s op r).2 = false) : (receiveResponse s op r).1.usable = false := by
  rw [receiveResponse] at h ⊢
  split
  · rfl
  · rename_i hgood
    rw [if_neg hgood] at h
    cases h

theorem orderly_recorded {call : Call} {asked : Option Nat} {m : Nat} {a : Answer}
    (h : Orderly w) (hm : w.answers[m]? = some a) (hfd : w.service.fd = some a.conn)
    (hfor : a.IsFor w.asked asked) :
    Orderly (recordReturned w call asked (tagged m a.response.bytes)) := by
  refine ⟨h.began, ?_, h.paired.natives⟩
  intro x hx
  rcases List.mem_append.mp hx with hold | hnew
  · exact h.paired.returned x hold
  · rw [List.mem_singleton.mp hnew]
    refine ⟨m, a, hm, rfl, hfd, ?_, ⟨call, ?_⟩, hfor⟩
    · dsimp only
      rw [content_tagged, Response.ofBytes_bytes]
    · dsimp only
      rw [content_tagged, Response.ofBytes_bytes]

theorem sound_ready {install : Request} {m : Nat} {a : Answer} (h : Orderly w)
    (hm : w.answers[m]? = some a) (hfd : w.service.fd = some a.conn) (hframe : a.frame = [])
    (hquiet : QuietFd w) : Sound (readyReceived w install (tagged m a.response.bytes)) := by
  have hchecked := receiveResponse_fd w.service INSTALL_IPC_READY
    (Response.ofBytes (content (tagged m a.response.bytes)))
  unfold readyReceived
  dsimp only
  split
  · rename_i hrefused
    refine sound_idle (orderly_control h) rfl ?_
    intro husable
    have hfalse := receiveResponse_refused hrefused
    rw [show _ = true from husable] at hfalse
    cases hfalse
  · split
    · refine sound_idle (orderly_recorded (orderly_control h) hm ?_ hframe) rfl ?_
      · exact hchecked.trans hfd
      · intro _ j d hj hd
        exact hquiet j d (hchecked.symm.trans hj) hd
    · refine sound_exchange (orderly_control h) ?_
      intro j d hj hd
      exact hquiet j d (hchecked.symm.trans hj) hd

theorem sound_answered {call : Call} {n m : Nat} {a : Answer} (h : Orderly w)
    (hm : w.answers[m]? = some a) (hfd : w.service.fd = some a.conn)
    (hfor : a.IsFor w.asked (some n)) (hquiet : QuietFd w) :
    Sound (answerReceived w call n (tagged m a.response.bytes)) := by
  have hchecked := receiveResponse_fd w.service call.op
    (Response.ofBytes (content (tagged m a.response.bytes)))
  unfold answerReceived
  dsimp only
  split
  · refine sound_returns (orderly_recorded (orderly_control h) hm ?_ hfor) ?_
    · exact hchecked.trans hfd
    · intro _ j d hj hd
      exact hquiet j d (hchecked.symm.trans hj) hd
  · refine sound_returns (orderly_control h) ?_
    intro _ j d hj hd
    exact hquiet j d (hchecked.symm.trans hj) hd

/-- A connection on which only bytes for the client were taken. -/
theorem orderly_taken (count : Nat) (h : Orderly w) (hc : w.conns[k]? = some c) :
    Orderly { w with conns := w.conns.set k { c with toClient := c.toClient.drop count } } :=
  orderly_set h (h.began k c hc)

theorem sound_point {point : ClientPoint} (h : Orderly { w with conns := w.conns.set k c' })
    (hfd : w.service.fd = some k)
    (hengaged : EngagedOn w.asked w.answers w.service.usable k c' point) :
    Sound { w with conns := w.conns.set k c', point := point } := by
  refine ⟨⟨h.began, h.paired.returned, h.paired.natives⟩, ?_⟩
  intro j d hj hd
  have hj : k = j := Option.some.inj (hfd.symm.trans hj)
  rw [← hj] at hd ⊢
  rcases getElem?_set_cases hd with ⟨_, hnew⟩ | ⟨hne, _⟩
  · rw [hnew]
    exact hengaged
  · exact absurd rfl hne

theorem quietFd_set (hfd : w.service.fd = some k) (hquiet : c'.Quiet) :
    QuietFd { w with conns := w.conns.set k c' } := by
  intro j d hj hd
  have hj : k = j := Option.some.inj (hfd.symm.trans hj)
  rw [← hj] at hd
  rcases getElem?_set_cases hd with ⟨_, hnew⟩ | ⟨hne, _⟩
  · rw [hnew]
    exact hquiet
  · exact absurd rfl hne

theorem sound_sends {call : Call} {n count : Nat} {left : List Sent} (h : Sound w)
    (hfd : w.service.fd = some k)
    (hengaged : EngagedOn w.asked w.answers w.service.usable k c
      (ClientPoint.sending call n left)) :
    Sound { w with
      conns := w.conns.set k { c with toHelper := c.toHelper ++ left.take count }
      point :=
        if left.drop count = [] then ClientPoint.receiving call n []
        else ClientPoint.sending call n (left.drop count) } := by
  rcases hengaged with ⟨_, hcoming, r, hr, hbytes⟩
  have hsent := unread_sent c (left.take count)
  have hmoved := moved c.unread left count
  have hbytes' : c.isEnded ∨ c.unread ++ left.take count ++ left.drop count =
      tagged n r.bytes := by
    rw [hmoved]
    exact hbytes
  refine sound_point (orderly_set h.orderly ?_) hfd ?_
  · rw [hsent]
    rcases hbytes' with hended | hwhole
    · exact Or.inl hended
    · exact Or.inr (Or.inr ⟨n, r, hr, ⟨_, hwhole⟩⟩)
  · by_cases hdone : left.drop count = []
    · rw [if_pos hdone]
      refine ⟨r, hr, Or.inl ⟨rfl, hcoming, ?_⟩⟩
      rw [hdone, List.append_nil] at hbytes'
      rw [hsent]
      exact hbytes'
    · rw [if_neg hdone]
      refine ⟨hdone, hcoming, r, hr, ?_⟩
      rw [hsent]
      exact hbytes'

theorem sound_moves {count : Nat} (h : Sound w) (hstep : clientMoves w count = some w') :
    Sound w' := by
  rw [clientMoves] at hstep
  split at hstep
  · cases hstep
  · rename_i k hfd
    split at hstep
    · cases hstep
    · rename_i c hc
      have hengaged := h.engaged k c hfd hc
      have htaken := orderly_taken count h.orderly hc
      rw [clientMovesOn] at hstep
      split at hstep
      · cases hstep
      · rename_i install got hpoint
        rw [hpoint] at hengaged
        rcases hengaged with ⟨hunread, m, a, hm, hconn, hframe, hpart⟩
        split at hstep
        · dsimp only at hstep
          split at hstep
          · rename_i hlength
            rcases whole_answer hpart hlength with ⟨hgot, hrest⟩
            rw [← Option.some.inj hstep, hgot]
            rw [← hconn] at hfd ⊢
            exact sound_ready (hconn ▸ htaken) hm hfd hframe (quietFd_set hfd ⟨hunread, hrest⟩)
          · rw [← Option.some.inj hstep]
            refine sound_point htaken hfd ⟨hunread, m, a, hm, hconn, hframe, ?_⟩
            rw [List.append_assoc, coming_taken]
            exact hpart
        · cases hstep
      · rename_i call n left hpoint
        rw [hpoint] at hengaged
        split at hstep
        · rw [← Option.some.inj hstep]
          exact sound_sends h hfd hengaged
        · cases hstep
      · rename_i call n got hpoint
        rw [hpoint] at hengaged
        rcases hengaged with
          ⟨r, hr, ⟨hgot, hcoming, _⟩ | ⟨hunread, m, a, hm, hconn, hframe, hpart⟩⟩
        · split at hstep
          · rename_i hcount
            have hnone := coming_taken c count
            rw [hcoming] at hnone
            have hempty := (List.append_eq_nil_iff.mp hnone).1
            have hlength := congrArg List.length hempty
            rw [List.length_take, List.length_nil] at hlength
            omega
          · cases hstep
        · split at hstep
          · dsimp only at hstep
            split at hstep
            · rename_i hlength
              rcases whole_answer hpart hlength with ⟨hgot, hrest⟩
              rw [← Option.some.inj hstep, hgot]
              rw [← hconn] at hfd ⊢
              exact sound_answered (hconn ▸ htaken) hm hfd ⟨r, hr, hframe⟩
                (quietFd_set hfd ⟨hunread, hrest⟩)
            · rw [← Option.some.inj hstep]
              refine sound_point htaken hfd
                ⟨r, hr, Or.inr ⟨hunread, m, a, hm, hconn, hframe, ?_⟩⟩
              rw [List.append_assoc, coming_taken]
              exact hpart
          · cases hstep

end Moves

/-!
# Runs
-/

theorem sound_start_state : Sound ipcStart := by
  constructor
  · constructor
    · intro k c hc
      cases hc
    · constructor
      · intro x hx
        cases hx
      · intro x hx
        cases hx
  · intro k c hk
    cases hk

theorem called_some {w after w' : IpcWorld} (h : called w after = some w') :
    w.point = ClientPoint.idle ∧ w' = after := by
  rw [called] at h
  split at h
  · rename_i hidle
    exact ⟨hidle, (Option.some.inj h).symm⟩
  · cases h

theorem sound_step {w w' : IpcWorld} {l : Step} (h : Sound w) (hok : StatusWhileUsable w l)
    (hstep : ipcSystem.next w l = some w') : Sound w' := by
  change ipcNext w l = some w' at hstep
  cases l with
  | start args canceledAtOnce launch =>
      rcases called_some hstep with ⟨hidle, heq⟩
      rw [heq]
      exact sound_start h hidle
  | status =>
      rcases called_some hstep with ⟨hidle, heq⟩
      rw [heq]
      exact sound_status h hidle hok
  | close =>
      rcases called_some hstep with ⟨hidle, heq⟩
      rw [heq]
      exact sound_close h hidle
  | clientMoves count => exact sound_moves h hstep
  | clientFails failure => exact sound_fails h hstep
  | helperMoves k count =>
      rcases Option.bind_eq_some_iff.mp hstep with ⟨c, hc, hmap⟩
      rcases Option.map_eq_some_iff.mp hmap with ⟨c', hc', heq⟩
      rw [← heq]
      exact sound_quieter h hc (quieter_moves hc')
  | helperEnds k =>
      rcases Option.map_eq_some_iff.mp hstep with ⟨c, hc, heq⟩
      rw [← heq]
      exact sound_quieter h hc (quieter_ends c)
  | helperServes k native =>
      rcases Option.bind_eq_some_iff.mp hstep with ⟨c, hc, hserves⟩
      exact sound_serves h hc hserves

/-- In every run that asks a status only of a usable session, an answer returned
is the one computed for that request, and every call into the system carries the
fields of one request. -/
theorem answers_paired {tr : List (IpcWorld × Step)} {w : IpcWorld}
    (hrun : Run ipcSystem StatusWhileUsable ipcStart tr w) : Paired w := by
  have h := run_invariant sound_step hrun sound_start_state
  exact h.orderly.paired

/-!
# A start, and a status that comes late
-/

def startCall : List Step :=
  [Step.start { uri := some [117], name := some [110] } false (some { pid := 7 }),
    Step.helperMoves 0 752, Step.clientMoves 752, Step.clientMoves 1964,
    Step.helperMoves 0 1964, Step.helperServes 0 {}, Step.helperMoves 0 752,
    Step.clientMoves 752]

/-- The status is sent in two pieces and answered in two. -/
def statusCall : List Step :=
  [Step.status, Step.clientMoves 1000, Step.helperMoves 0 900, Step.clientMoves 964,
    Step.helperMoves 0 1064, Step.helperServes 0 {}, Step.helperMoves 0 52,
    Step.clientMoves 52, Step.helperMoves 0 700, Step.clientMoves 700]

/-- The first status times out while its answer is on the way. -/
def lateStatus : List Step :=
  [Step.status, Step.clientMoves 1964, Step.clientFails Failure.timeout,
    Step.helperMoves 0 1964, Step.helperServes 0 {}, Step.helperMoves 0 752,
    Step.status, Step.clientMoves 1964, Step.clientMoves 752]

/-- The number of the request whose frame the helper had read when it computed
the answer that the first byte received belongs to. -/
def Returned.answers (x : Returned) (answers : List Answer) : Option Nat :=
  (x.received.head?.bind (fun b => answers[b.serial]?)).bind
    (fun a => a.frame.head?.map Sent.serial)

theorem head_tagged (serial : Nat) {bytes : List UInt8} (h : bytes ≠ []) :
    (tagged serial bytes).head?.map Sent.serial = some serial := by
  cases bytes with
  | nil => exact absurd rfl h
  | cons b rest => rfl

theorem Response.bytes_ne_nil (r : Response) : r.bytes ≠ [] := by
  intro hnil
  have hlength := congrArg List.length hnil
  rw [Response.length_bytes] at hlength
  cases hlength

theorem answers_of_paired {asked : List Request} {answers : List Answer} {x : Returned} {n : Nat}
    (h : x.Paired asked answers) (hn : x.asked = some n) : x.answers answers = some n := by
  rcases h with ⟨m, a, hm, hreceived, _, _, _, hfor⟩
  rw [hn] at hfor
  rcases hfor with ⟨r, _, hframe⟩
  rcases Option.map_eq_some_iff.mp (head_tagged m a.response.bytes_ne_nil) with
    ⟨b, hb, hserial⟩
  rw [Returned.answers, hreceived, hb, Option.bind_some, hserial, hm, Option.bind_some, hframe]
  exact head_tagged n r.bytes_ne_nil

theorem answers_paired_status :
    exists tr w, Run ipcSystem StatusWhileUsable ipcStart tr w ∧ Paired w ∧
      w.returned.map Returned.asked = [some 0, some 1] ∧
      w.natives.map NativeRecord.call =
        [NativeCall.install [117] [110] [], NativeCall.status []] := by
  have hexec : (execWhile ipcSystem StatusWhileUsable ipcStart (startCall ++ statusCall)).map
      (fun w => (w.returned.map Returned.asked, w.natives.map NativeRecord.call)) =
        some ([some 0, some 1], [NativeCall.install [117] [110] [], NativeCall.status []]) := by
    decide +kernel
  rcases Option.map_eq_some_iff.mp hexec with ⟨w, hw, hpair⟩
  rcases run_of_execWhile hw with ⟨tr, _, hrun⟩
  exact ⟨tr, w, hrun, answers_paired hrun, congrArg Prod.fst hpair, congrArg Prod.snd hpair⟩

/-- The second status returns the answer to the first. -/
theorem late_answer_returned :
    ¬ forall tr w, Run ipcSystem (fun _ _ => True) ipcStart tr w -> Paired w := by
  intro hall
  have hexec : (exec ipcSystem ipcStart (startCall ++ lateStatus)).map
      (fun w => w.returned.map (fun x => (x.asked, x.answers w.answers))) =
        some [(some 0, some 0), (some 2, some 1)] := by
    decide +kernel
  rcases Option.map_eq_some_iff.mp hexec with ⟨w, hw, hpairs⟩
  rcases run_of_exec hw with ⟨tr, _, hrun⟩
  have hpaired := hall tr w hrun
  have hmem : (some 2, some 1) ∈ w.returned.map (fun x => (x.asked, x.answers w.answers)) := by
    rw [hpairs]
    decide
  rcases List.mem_map.mp hmem with ⟨x, hx, heq⟩
  rcases Prod.mk.inj heq with ⟨hasked, hanswers⟩
  have hsame := answers_of_paired (hpaired.returned x hx) hasked
  rw [hanswers] at hsame
  cases hsame

end Helper
end PkgManager
