import PkgManager.Http.Fetch

/-!
# Who gets the credentials

A client keeps connections over redirects, between requests and between threads.  Whatever
addresses it is given, the endpoints other than the configured one only see requests that have
nothing of the configuration in them, and have to show a certificate that the authorities stand
for.
-/

namespace PkgManager
namespace Http

open CString
open PkgManager.Parser
open PkgManager.Scanner (lowerText strcasecmp strcasecmp_zero)

/-!
# The same endpoint
-/

/-- Host names are equal without regard to case. -/
def SameEndpoint (a b : HttpUrl) : Prop :=
  a.https = b.https ∧ a.port = b.port ∧ lowerText a.host = lowerText b.host

theorem sameEndpoint_iff (a b : HttpUrl) : sameEndpoint a b = true ↔ SameEndpoint a b := by
  rw [sameEndpoint, Bool.and_eq_true, Bool.and_eq_true, beq_iff_eq, beq_iff_eq, beq_iff_eq,
    strcasecmp_zero a.hostZero b.hostZero, and_assoc]
  rfl

theorem SameEndpoint.symm {a b : HttpUrl} (h : SameEndpoint a b) : SameEndpoint b a :=
  ⟨h.1.symm, h.2.1.symm, h.2.2.symm⟩

theorem SameEndpoint.trans {a b c : HttpUrl} (hab : SameEndpoint a b) (hbc : SameEndpoint b c) :
    SameEndpoint a c :=
  ⟨hab.1.trans hbc.1, hab.2.1.trans hbc.2.1, hab.2.2.trans hbc.2.2⟩

/-- The endpoint of the configured address. -/
def OwnEndpoint (cfg : Option SourceConfig) (ep : HttpUrl) : Prop :=
  exists c base, cfg = some c ∧ httpUrlParse c.url = some base ∧ SameEndpoint base ep

theorem OwnEndpoint.same {cfg : Option SourceConfig} {a b : HttpUrl} (h : OwnEndpoint cfg a)
    (hab : SameEndpoint a b) : OwnEndpoint cfg b := by
  rcases h with ⟨c, base, hcfg, hbase, hsame⟩
  exact ⟨c, base, hcfg, hbase, hsame.trans hab⟩

theorem cfgSameHost_iff (cfg : Option SourceConfig) (u : HttpUrl) :
    cfgSameHost cfg u = true ↔ OwnEndpoint cfg u := by
  cases cfg with
  | none => simp [cfgSameHost, OwnEndpoint]
  | some c => simp [cfgSameHost, OwnEndpoint, Option.any_eq_true, sameEndpoint_iff]

/-- The header is empty for every other endpoint. -/
theorem authHeader_elsewhere {cfg : Option SourceConfig} {u : HttpUrl}
    (h : ¬OwnEndpoint cfg u) : authHeader cfg u = [] := by
  cases cfg with
  | none => rfl
  | some c =>
      have hhost : cfgSameHost (some c) u = false := by
        rw [Bool.eq_false_iff, ne_eq, cfgSameHost_iff]
        exact h
      simp [authHeader, cfgAppliesTo, hhost]

theorem handshakeMode_elsewhere {cfg : Option SourceConfig} {ep : HttpUrl}
    (h : ¬OwnEndpoint cfg ep) : handshakeMode cfg none ep = tlsVerify := by
  cases cfg with
  | none => rfl
  | some c =>
      have hhost : cfgSameHost (some c) ep = false := by
        rw [Bool.eq_false_iff, ne_eq, cfgSameHost_iff]
        exact h
      simp [handshakeMode, hhost]

/-!
# What the endpoints see
-/

/-- Another endpoint sees a request without credentials, and is verified. -/
def Trusted (version : Text) (cfg : Option SourceConfig) : Event -> Prop
  | .handshake ep mode => OwnEndpoint cfg ep ∨ mode = tlsVerify
  | .sent ep auth text =>
      OwnEndpoint cfg ep ∨ (auth = [] ∧ exists req, text = requestText version req [])

/-- A secure connection to another endpoint was verified when it was made. -/
def Checked (cfg : Option SourceConfig) (k : Conn) : Prop :=
  k.ep.https = true -> OwnEndpoint cfg k.ep ∨ k.mode = some tlsVerify

def LogTrusted (version : Text) (cfg : Option SourceConfig) (c : Client) : Prop :=
  forall e, e ∈ c.log -> Trusted version cfg e

variable {net : Net} {cfg : Option SourceConfig}

theorem LogTrusted.note {c : Client} {e : Event} (h : LogTrusted net.version cfg c)
    (he : Trusted net.version cfg e) : LogTrusted net.version cfg (c.note e) := by
  intro e' hmem
  rcases List.mem_append.mp hmem with hold | hnew
  · exact h e' hold
  · rwa [List.mem_singleton.mp hnew]

theorem LogTrusted.next {c : Client} (h : LogTrusted net.version cfg c) :
    LogTrusted net.version cfg c.next :=
  h

/-- A function of the client leaves a connection, if any, and a log. -/
structure Kept (net : Net) (cfg : Option SourceConfig) (k : Option Conn) (c : Client) : Prop where
  checked : forall conn, conn ∈ k -> Checked cfg conn
  log : LogTrusted net.version cfg c

theorem Kept.closed {c : Client} (h : LogTrusted net.version cfg c) : Kept net cfg none c :=
  ⟨fun _ hmem => (Option.not_mem_none _ hmem).elim, h⟩

/-- A new connection is one to the endpoint that was asked for. -/
theorem connOpen_kept {u : HttpUrl} {c : Client} (h : LogTrusted net.version cfg c) :
    Kept net cfg (connOpen net cfg none u c).1 (connOpen net cfg none u c).2 ∧
      forall k, k ∈ (connOpen net cfg none u c).1 -> SameEndpoint k.ep u := by
  have hmode : OwnEndpoint cfg { u with path := [] } ∨
      handshakeMode cfg none { u with path := [] } = tlsVerify := by
    by_cases hown : OwnEndpoint cfg { u with path := [] }
    · exact Or.inl hown
    · exact Or.inr (handshakeMode_elsewhere hown)
  unfold connOpen
  dsimp only
  split
  · exact ⟨Kept.closed h, fun _ hmem => (Option.not_mem_none _ hmem).elim⟩
  · split
    · have hlog : LogTrusted net.version cfg
          (c.note (.handshake { u with path := [] } (handshakeMode cfg none { u with path := [] }))) :=
        h.note hmode
      split
      · constructor
        · constructor
          · intro k hk
            cases hk
            intro _
            simpa using hmode
          · exact hlog
        · intro k hk
          cases hk
          exact ⟨rfl, rfl, rfl⟩
      · exact ⟨Kept.closed hlog, fun _ hmem => (Option.not_mem_none _ hmem).elim⟩
    · rename_i _ hplain
      constructor
      · constructor
        · intro k hk
          cases hk
          exact fun hhttps => absurd hhttps hplain
        · exact h
      · intro k hk
        cases hk
        exact ⟨rfl, rfl, rfl⟩

/-- A kept connection is only used for its own endpoint. -/
theorem connFor_kept {u : HttpUrl} {pc : Option Conn} {c : Client} (h : Kept net cfg pc c) :
    Kept net cfg (connFor net cfg u pc c).1 (connFor net cfg u pc c).2 ∧
      forall k, k ∈ (connFor net cfg u pc c).1 -> SameEndpoint k.ep u := by
  unfold connFor
  split
  · rename_i k hfilter
    rcases Option.filter_eq_some_iff.mp hfilter with ⟨hpc, huse⟩
    rw [Bool.and_eq_true, sameEndpoint_iff] at huse
    constructor
    · constructor
      · intro conn hmem
        exact h.checked conn (Option.mem_some.mp hmem ▸ hpc)
      · exact h.log
    · intro conn hmem
      cases hmem
      exact huse.2
  · exact connOpen_kept h.log

theorem httpSendRequest_log {k : Conn} {req : Request} {c : Client}
    (hep : SameEndpoint k.ep req.u) (h : LogTrusted net.version cfg c) :
    LogTrusted net.version cfg (httpSendRequest net cfg k req c).2 := by
  unfold httpSendRequest
  dsimp only
  split
  · exact h
  · refine h.note ?_
    by_cases hown : OwnEndpoint cfg k.ep
    · exact Or.inl hown
    · have hauth : authHeader cfg req.u = [] :=
        authHeader_elsewhere (fun howns => hown (howns.same hep.symm))
      exact Or.inr ⟨hauth, req, by rw [hauth]⟩

/-!
# Requests and redirects
-/

theorem fetchOn_kept {req : Request} {attempts : Nat} {pc : Option Conn} {c : Client}
    (h : Kept net cfg pc c) :
    Kept net cfg (fetchOn net cfg req attempts pc c).conn
      (fetchOn net cfg req attempts pc c).client := by
  induction attempts generalizing pc c with
  | zero => exact Kept.closed h.log
  | succ attempts ih =>
      have hconn := connFor_kept (u := req.u) h
      unfold fetchOn
      dsimp only
      split
      · rename_i c' heq
        rw [heq] at hconn
        exact Kept.closed hconn.1.log
      · rename_i k c' heq
        rw [heq] at hconn
        have hlog : LogTrusted net.version cfg c' := hconn.1.log
        have hsent : LogTrusted net.version cfg (httpSendRequest net cfg k req c').2.next :=
          (httpSendRequest_log (hconn.2 k rfl) hlog).next
        split
        · split
          · exact ih (Kept.closed hsent)
          · exact Kept.closed hsent
        · split
          · exact Kept.closed hsent
          · split
            · exact ⟨hconn.1.checked, hsent⟩
            · exact Kept.closed hsent

theorem streamOpen_kept {req : Request} {attempts : Nat} {pc : Option Conn} {c : Client}
    (h : Kept net cfg pc c) :
    Kept net cfg (streamOpen net cfg req attempts pc c).conn
      (streamOpen net cfg req attempts pc c).client := by
  induction attempts generalizing pc c with
  | zero => exact Kept.closed h.log
  | succ attempts ih =>
      have hconn := connFor_kept (u := req.u) h
      unfold streamOpen
      dsimp only
      split
      · rename_i c' heq
        rw [heq] at hconn
        exact Kept.closed hconn.1.log
      · rename_i k c' heq
        rw [heq] at hconn
        have hlog : LogTrusted net.version cfg c' := hconn.1.log
        have hsent : LogTrusted net.version cfg (httpSendRequest net cfg k req c').2.next :=
          (httpSendRequest_log (hconn.2 k rfl) hlog).next
        split
        · split
          · exact ih (Kept.closed hsent)
          · exact Kept.closed hsent
        · split
          · constructor
            · intro conn hmem
              cases hmem
              exact hconn.1.checked k rfl
            · exact hsent
          · exact Kept.closed hsent

/-- The induction is on the hops: each hop decides anew, with the connection of the last. -/
theorem httpFetch_kept {method : Text} {range : Option (Nat × Nat)} {hops : Nat} {cur : Text}
    {pc : Option Conn} {c : Client} (h : Kept net cfg pc c) :
    Kept net cfg (httpFetch net cfg method range hops cur pc c).conn
      (httpFetch net cfg method range hops cur pc c).client := by
  induction hops generalizing cur pc c with
  | zero => exact h
  | succ hops ih =>
      unfold httpFetch
      split
      · exact h
      · rename_i u _
        have hgot : Kept net cfg
            (fetchOn net cfg { u := u, method := method, range := range } 2 pc c).conn
            (fetchOn net cfg { u := u, method := method, range := range } 2 pc c).client :=
          fetchOn_kept h
        dsimp only
        split
        · exact hgot
        · split
          · split
            · exact hgot
            · exact ih hgot
          · exact hgot

/-- The connection that is not verified goes to the configured address, and is not kept. -/
theorem certificateProbe_log {c : Client} (h : LogTrusted net.version cfg c) :
    LogTrusted net.version cfg (certificateProbe net cfg c) := by
  unfold certificateProbe
  split
  · exact h
  · rename_i u hu
    rcases Option.bind_eq_some_iff.mp hu with ⟨s, hcfg, hparse⟩
    have hown : OwnEndpoint cfg { u with path := [] } := ⟨s, u, hcfg, hparse, rfl, rfl, rfl⟩
    split
    · unfold connOpen
      dsimp only
      split
      · exact h
      · have hevent : Trusted net.version cfg (.handshake { u with path := [] }
            (handshakeMode cfg (some (ascii "none")) { u with path := [] })) := Or.inl hown
        exact (h.note hevent).next
    · exact h

/-!
# Runs

The threads of a session share its pool.  A thread can hold a connection while others work, as
the half-read stream does.
-/

structure World where
  idle : List Conn
  held : Nat -> Option Conn
  client : Client

def World.start : World where
  idle := []
  held := fun _ => none
  client := { attempts := 0, log := [] }

def World.hold (w : World) (t : Nat) (k : Option Conn) (c : Client) : World where
  idle := w.idle
  held := Function.update w.held t k
  client := c

@[simp] theorem World.hold_self (w : World) (t : Nat) (k : Option Conn) (c : Client) :
    (w.hold t k c).held t = k := by
  simp [World.hold]

theorem World.hold_other {w : World} {s t : Nat} {k : Option Conn} {c : Client} (h : s ≠ t) :
    (w.hold t k c).held s = w.held s := by
  simp [World.hold, h]

inductive Step where
  /-- {lit}`session_take` -/
  | take (t : Nat)
  /-- {lit}`session_give` -/
  | give (t : Nat)
  /-- {lit}`conn_close` -/
  | drop (t : Nat)
  | fetch (t : Nat) (method : Text) (range : Option (Nat × Nat)) (url : Text)
  | fetchOn (t : Nat) (req : Request)
  | streamOpen (t : Nat) (req : Request)
  | certificateProbe

variable (net cfg)

def World.step (w : World) : Step -> World
  | .take t =>
      match w.idle.getLast? with
      | none => w
      | some k => { w with idle := w.idle.dropLast, held := Function.update w.held t (some k) }
  | .give t =>
      match w.held t with
      | some k =>
          { w with
            idle := if k.alive ∧ w.idle.length < net.poolMax then w.idle ++ [k] else w.idle
            held := Function.update w.held t none }
      | none => w
  | .drop t => w.hold t none w.client
  | .fetch t method range url =>
      let got := httpFetch net cfg method range 6 (copied httpUrlMax url) (w.held t) w.client
      w.hold t got.conn got.client
  | .fetchOn t req =>
      let got := Http.fetchOn net cfg req 2 (w.held t) w.client
      w.hold t got.conn got.client
  | .streamOpen t req =>
      let got := Http.streamOpen net cfg req 2 (w.held t) w.client
      w.hold t got.conn got.client
  | .certificateProbe => { w with client := Http.certificateProbe net cfg w.client }

def World.run (w : World) (steps : List Step) : World :=
  steps.foldl (World.step net cfg) w

variable {net cfg}

structure World.Safe (net : Net) (cfg : Option SourceConfig) (w : World) : Prop where
  idle : forall k, k ∈ w.idle -> Checked cfg k
  held : forall t k, k ∈ w.held t -> Checked cfg k
  log : LogTrusted net.version cfg w.client

theorem World.Safe.kept {w : World} (h : w.Safe net cfg) (t : Nat) :
    Kept net cfg (w.held t) w.client :=
  ⟨h.held t, h.log⟩

theorem World.Safe.hold {w : World} {t : Nat} {k : Option Conn} {c : Client}
    (h : w.Safe net cfg) (hk : Kept net cfg k c) : (w.hold t k c).Safe net cfg where
  idle := h.idle
  held := by
    intro s conn hmem
    by_cases hs : s = t
    · subst hs
      rw [World.hold_self] at hmem
      exact hk.checked conn hmem
    · rw [World.hold_other hs] at hmem
      exact h.held s conn hmem
  log := hk.log

theorem World.step_safe {w : World} (step : Step) (h : w.Safe net cfg) :
    (w.step net cfg step).Safe net cfg := by
  cases step with
  | take t =>
      unfold World.step
      dsimp only
      split
      · exact h
      · rename_i k hlast
        have hk : Checked cfg k := h.idle k (List.mem_of_getLast? hlast)
        have hheld := World.Safe.hold (t := t) h
          ⟨fun conn hmem => Option.mem_some.mp hmem ▸ hk, h.log⟩
        exact ⟨fun conn hmem => h.idle conn (List.dropLast_subset w.idle hmem), hheld.held, h.log⟩
  | give t =>
      unfold World.step
      dsimp only
      split
      · rename_i k hk
        have hheld := World.Safe.hold (t := t) h (Kept.closed h.log)
        constructor
        · intro conn hmem
          dsimp only at hmem
          split at hmem
          · rcases List.mem_append.mp hmem with hold | hnew
            · exact h.idle conn hold
            · rw [List.mem_singleton.mp hnew]
              exact h.held t k hk
          · exact h.idle conn hmem
        · exact hheld.held
        · exact h.log
      · exact h
  | drop t => exact h.hold (Kept.closed h.log)
  | fetch t method range url => exact h.hold (httpFetch_kept (h.kept t))
  | fetchOn t req => exact h.hold (fetchOn_kept (h.kept t))
  | streamOpen t req => exact h.hold (streamOpen_kept (h.kept t))
  | certificateProbe => exact ⟨h.idle, h.held, certificateProbe_log h.log⟩

theorem World.run_safe {w : World} (steps : List Step) (h : w.Safe net cfg) :
    (w.run net cfg steps).Safe net cfg := by
  induction steps generalizing w with
  | nil => exact h
  | cons step rest ih => exact ih (World.step_safe step h)

theorem World.start_safe : World.start.Safe net cfg where
  idle := fun _ hmem => (List.not_mem_nil hmem).elim
  held := fun _ _ hmem => (Option.not_mem_none _ hmem).elim
  log := fun _ hmem => (List.not_mem_nil hmem).elim

/-- In every run, whatever the network answers and whatever addresses are asked for. -/
theorem credentials_stay_with_host (net : Net) (cfg : Option SourceConfig) (steps : List Step) :
    (forall e, e ∈ (World.start.run net cfg steps).client.log -> Trusted net.version cfg e) ∧
      forall k,
        (k ∈ (World.start.run net cfg steps).idle ∨
          exists t, (World.start.run net cfg steps).held t = some k) ->
        Checked cfg k := by
  have hsafe : (World.start.run net cfg steps).Safe net cfg :=
    World.run_safe steps World.start_safe
  constructor
  · exact hsafe.log
  · rintro k (hidle | ⟨t, hheld⟩)
    · exact hsafe.idle k hidle
    · exact hsafe.held t k hheld

end Http
end PkgManager
