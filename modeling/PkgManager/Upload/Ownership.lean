import PkgManager.Live.Provenance
import PkgManager.Upload.Session

/-!
# Who may act on an owned session

A connection acts on a session after a check.  Between the check and the act
the session must not be replaced by one of another owner, and a connection must
not stay the uplink across sessions.
-/

namespace PkgManager
namespace Upload

open Live
open Transition
open WebSocket (InitArgs Control controlOf)

/-!
# What is asked
-/

/-- The active session was started by {lit}`ws_direct_init_owned` for this token
and has this id. -/
def Owned (w : UploadWorld) (pair : String × String) : Prop :=
  w.lv.active = true ∧ w.ownedBy = some pair

/-- Nothing was stored in the session, it was not finished and not canceled. -/
structure Untouched (lv lv' : LiveState) : Prop where
  stored : lv'.stored = lv.stored
  uploadComplete : lv'.uploadComplete = lv.uploadComplete
  active : lv'.active = lv.active
  aborted : lv'.aborted = lv.aborted

/-- The uplink of an owned session is a connection that has sent the pair, and
the sections of other connections do not touch the session. -/
def OwnershipKept (ok : Pool UploadWorld UploadPoint -> Move UploadCall UploadAnswer -> Prop)
    (p : Pool UploadWorld UploadPoint) : Prop :=
  forall tr q pair, Run uploadProgram.system ok p tr q -> Owned q.shared pair ->
    (forall t, q.shared.uplink = some t -> exists c k,
      q.threads[t]? = some (UploadPoint.conn c k) ∧ pair ∈ c.presented) ∧
    (forall t a q' c k, q.threads[t]? = some (UploadPoint.conn c k) -> pair ∉ c.presented ->
      uploadProgram.system.next q (Move.run t a) = some q' ->
        Untouched q.shared.lv q'.shared.lv)

/-!
# The condition
-/

def startsSession (w w' : UploadWorld) : Bool :=
  !w.lv.active && w'.lv.active

/-- A connection between a check and the act that it allows. -/
def ConnAt.inGap : ConnAt -> Bool
  | ConnAt.initSameFile _ _ => true
  | ConnAt.initCreate _ => true
  | ConnAt.initUplink _ => true
  | ConnAt.finishing => true
  | ConnAt.canceling _ _ => true
  | ConnAt.binaryActive _ _ _ => true
  | ConnAt.binaryStore _ _ => true
  | ConnAt.leaveCancel => true
  | ConnAt.leaveActive => true
  | _ => false

def UploadPoint.inGap : UploadPoint -> Bool
  | UploadPoint.conn _ k => k.inGap
  | _ => false

/-- The generated ids are all different. -/
def FreshIds (p : Pool UploadWorld UploadPoint) : Move UploadCall UploadAnswer -> Prop
  | Move.call _ => True
  | Move.run t a =>
      match uploadProgram.sectionAt p t a with
      | none => True
      | some o => startsSession p.shared o.shared = true -> o.shared.lv.sessionId ∉ p.shared.ids

/-- An owned session starts while no connection is the uplink and none is in a
gap. -/
def QuietStarts (p : Pool UploadWorld UploadPoint) : Move UploadCall UploadAnswer -> Prop
  | Move.call _ => True
  | Move.run t a =>
      match uploadProgram.sectionAt p t a with
      | none => True
      | some o =>
          startsSession p.shared o.shared = true -> o.shared.ownedBy ≠ none ->
            p.shared.uplink = none ∧ forall y, y ∈ p.threads -> y.inGap = false

def CarefulUploads (p : Pool UploadWorld UploadPoint) (l : Move UploadCall UploadAnswer) : Prop :=
  FreshIds p l ∧ QuietStarts p l

instance (p : Pool UploadWorld UploadPoint) (l : Move UploadCall UploadAnswer) :
    Decidable (FreshIds p l) := by
  unfold FreshIds
  split
  · infer_instance
  · split <;> infer_instance

instance (p : Pool UploadWorld UploadPoint) (l : Move UploadCall UploadAnswer) :
    Decidable (QuietStarts p l) := by
  unfold QuietStarts
  split
  · infer_instance
  · split <;> infer_instance

instance (p : Pool UploadWorld UploadPoint) (l : Move UploadCall UploadAnswer) :
    Decidable (CarefulUploads p l) :=
  inferInstanceAs (Decidable (FreshIds p l ∧ QuietStarts p l))

/-- No session yet, no owner and no thread. -/
def NoUploads (p : Pool UploadWorld UploadPoint) : Prop :=
  p.shared.lv.active = false ∧ p.shared.owner = "" ∧ p.shared.uplink = none ∧
    p.shared.ownedBy = none ∧ p.threads = []

/-!
# The invariant
-/

structure GoodUpload (w : UploadWorld) : Prop where
  owner : forall pair, w.ownedBy = some pair -> w.owner = pair.1 ∧ w.ownerSid = pair.2
  named : forall pair, w.ownedBy = some pair -> w.lv.active = true -> w.lv.sessionId = pair.2
  known : w.lv.active = true -> w.lv.sessionId ∈ w.ids
  owned : w.owner ≠ "" -> exists pair, w.ownedBy = some pair
  unowned : w.owner = "" -> w.ownedBy = none

/-- The connection has sent the pair of the session, when it is an owned one. -/
def Cleared (w : UploadWorld) (c : Conn) : Prop :=
  forall pair, Owned w pair -> pair ∈ c.presented

/-- What a connection carries from one section to the next. -/
def Expects (w : UploadWorld) (c : Conn) : ConnAt -> Prop
  | ConnAt.initMatches args => forall owner sid, args.owner = some owner ->
      args.sessionId = some sid -> (owner, sid) ∈ c.presented
  | ConnAt.initSameFile _ sid => sid ∈ w.ids
  | ConnAt.initCreate _ => w.owner = ""
  | ConnAt.initUplink sid => sid ∈ w.ids
  | _ => True

structure GoodConn (w : UploadWorld) (c : Conn) (k : ConnAt) : Prop where
  known : c.authorized = true -> c.authorizedSid ∈ w.ids
  allowed : c.authorized = true -> forall pair, Owned w pair -> c.authorizedSid = pair.2 ->
    pair ∈ c.presented
  cleared : k.inGap = true -> Cleared w c
  expects : Expects w c k

def GoodUploadPoint (w : UploadWorld) : UploadPoint -> Prop
  | UploadPoint.conn c k => GoodConn w c k
  | _ => True

/-- No owned session has started. -/
structure Steady (w w' : UploadWorld) : Prop where
  ids : forall id, id ∈ w.ids -> id ∈ w'.ids
  owner : w'.owner = w.owner
  owned : forall pair, Owned w' pair -> Owned w pair

theorem steady_refl (w : UploadWorld) : Steady w w :=
  ⟨fun _ h => h, rfl, fun _ h => h⟩

theorem cleared_of_steady {w w' : UploadWorld} {c : Conn} (h : Steady w w')
    (hc : Cleared w c) : Cleared w' c :=
  fun pair howned => hc pair (h.owned pair howned)

theorem expects_of_steady {w w' : UploadWorld} {c : Conn} {k : ConnAt} (h : Steady w w')
    (hk : Expects w c k) : Expects w' c k := by
  cases k with
  | initMatches args => exact hk
  | initSameFile args sid => exact h.ids sid hk
  | initCreate args => exact h.owner.trans hk
  | initUplink sid => exact h.ids sid hk
  | _ => trivial

theorem goodConn_of_steady {w w' : UploadWorld} {c : Conn} {k : ConnAt} (h : Steady w w')
    (hc : GoodConn w c k) : GoodConn w' c k where
  known := fun hauth => h.ids _ (hc.known hauth)
  allowed := fun hauth pair howned heq => hc.allowed hauth pair (h.owned pair howned) heq
  cleared := fun hgap => cleared_of_steady h (hc.cleared hgap)
  expects := expects_of_steady h hc.expects

/-- A connection that moves on keeps its authorization. -/
theorem goodConn_move {w : UploadWorld} {c c' : Conn} {k k' : ConnAt} (hc : GoodConn w c k)
    (hauth : c'.authorized = c.authorized) (hsid : c'.authorizedSid = c.authorizedSid)
    (hsent : forall pair, pair ∈ c.presented -> pair ∈ c'.presented)
    (hcleared : k'.inGap = true -> Cleared w c') (hexpects : Expects w c' k') :
    GoodConn w c' k' where
  known := by
    rw [hauth, hsid]
    exact hc.known
  allowed := by
    intro hnow pair howned heq
    rw [hauth] at hnow
    rw [hsid] at heq
    exact hsent pair (hc.allowed hnow pair howned heq)
  cleared := hcleared
  expects := hexpects

/-- A section that leaves the owner, the ids and the history alone. -/
theorem steady_of_carried {w : UploadWorld} {lv : LiveState} (uplink : Option Nat)
    (h : Carried w.lv lv) : Steady w { w with lv := lv, uplink := uplink } :=
  ⟨fun _ hid => hid, rfl, fun _ howned => ⟨(h howned.1).1, howned.2⟩⟩

theorem goodUpload_of_carried {w : UploadWorld} {lv : LiveState} (uplink : Option Nat)
    (hgood : GoodUpload w) (h : Carried w.lv lv) :
    GoodUpload { w with lv := lv, uplink := uplink } where
  owner := hgood.owner
  named := by
    intro pair howned hactive
    rcases h hactive with ⟨hold, hid, _⟩
    exact hid.trans (hgood.named pair howned hold)
  known := by
    intro hactive
    rcases h hactive with ⟨hold, hid, _⟩
    change lv.sessionId ∈ w.ids
    rw [hid]
    exact hgood.known hold
  owned := hgood.owned
  unowned := hgood.unowned

/-!
# Checks
-/

theorem wsLiveCheckId_true {lv : LiveState} {sid : String} (h : wsLiveCheckId lv sid = true) :
    lv.active = true ∧ lv.sessionId = sid := by
  unfold wsLiveCheckId at h
  simp only [Bool.and_eq_true, beq_iff_eq] at h
  exact ⟨h.1.2, h.2⟩

/-- A connection that is authorized for the active session has sent its pair. -/
theorem cleared_of_holds {w : UploadWorld} {c : Conn} {k : ConnAt} (hgood : GoodUpload w)
    (hc : GoodConn w c k) (h : c.holds w = true) : Cleared w c := by
  unfold Conn.holds at h
  rw [Bool.and_eq_true] at h
  have hid := wsLiveCheckId_true h.2
  intro pair howned
  apply hc.allowed h.1 pair howned
  rw [← hid.2]
  exact hgood.named pair howned.2 howned.1

/-- The pair that matches is the pair of the active session. -/
theorem cleared_of_matches {w : UploadWorld} {c : Conn} {owner sid : String}
    (hgood : GoodUpload w) (hsent : (owner, sid) ∈ c.presented)
    (h : wsDirectOwnerMatches w owner sid = true) : Cleared w c ∧ sid ∈ w.ids := by
  unfold wsDirectOwnerMatches at h
  simp only [Bool.and_eq_true, beq_iff_eq] at h
  rcases h with ⟨⟨⟨⟨_, _⟩, howner⟩, hsid⟩, hcheck⟩
  have hid := wsLiveCheckId_true hcheck
  constructor
  · intro pair howned
    have hpair := hgood.owner pair howned.2
    have heq : pair = (owner, sid) := by
      rw [howner, hsid, hpair.1, hpair.2]
    rw [heq]
    exact hsent
  · rw [← hid.2]
    exact hgood.known hid.1

/-- Without an owner no session is an owned one. -/
theorem cleared_of_unowned {w : UploadWorld} {c : Conn} (hgood : GoodUpload w)
    (h : w.owner = "") : Cleared w c := by
  intro pair howned
  have hnone := hgood.unowned h
  rw [howned.2] at hnone
  cases hnone

/-!
# One section of a connection
-/

structure ConnEffect (w : UploadWorld) (t : Nat) (c : Conn) (k : ConnAt) (w' : UploadWorld)
    (c' : Conn) (k' : ConnAt) : Prop where
  steady : Steady w w'
  good : GoodUpload w'
  conn : GoodConn w' c' k'
  uplink : forall u, w'.uplink = some u -> w.uplink = some u ∨ (u = t ∧ Cleared w' c')
  sent : forall pair, pair ∈ c.presented -> pair ∈ c'.presented
  untouched : k.inGap = false -> Untouched w.lv w'.lv

theorem untouched_refl (lv : LiveState) : Untouched lv lv :=
  ⟨rfl, rfl, rfl, rfl⟩

/-- A section that reads only. -/
theorem connEffect_read {w : UploadWorld} {t : Nat} {c c' : Conn} {k k' : ConnAt}
    (hgood : GoodUpload w) (hconn : GoodConn w c' k')
    (hsent : forall pair, pair ∈ c.presented -> pair ∈ c'.presented) :
    ConnEffect w t c k w c' k' :=
  ⟨steady_refl w, hgood, hconn, fun _ h => Or.inl h, hsent, fun _ => untouched_refl w.lv⟩

/-- A section that acts on the session, after its check. -/
theorem connEffect_act {w : UploadWorld} {t : Nat} {c c' : Conn} {k k' : ConnAt}
    {lv : LiveState} (uplink : Option Nat) (hgood : GoodUpload w) (hc : GoodConn w c k)
    (hcarried : Carried w.lv lv) (hgap : k.inGap = true)
    (huplink : forall u, uplink = some u -> w.uplink = some u)
    (hauth : c'.authorized = c.authorized) (hsid : c'.authorizedSid = c.authorizedSid)
    (hsent : c'.presented = c.presented) (hexpects : Expects w c' k') :
    ConnEffect w t c k { w with lv := lv, uplink := uplink } c' k' := by
  have hsteady := steady_of_carried uplink hcarried
  refine ⟨hsteady, goodUpload_of_carried uplink hgood hcarried, ?_, ?_, ?_, ?_⟩
  · apply goodConn_of_steady hsteady
    refine goodConn_move hc hauth hsid ?_ ?_ hexpects
    · rw [hsent]
      exact fun _ h => h
    · intro _
      unfold Cleared
      rw [hsent]
      exact hc.cleared hgap
  · intro u hu
    exact Or.inl (huplink u hu)
  · rw [hsent]
    exact fun _ h => h
  · intro hno
    rw [hgap] at hno
    cases hno

theorem mem_present {c : Conn} {args : InitArgs} {pair : String × String}
    (h : pair ∈ c.presented) : pair ∈ (c.present args).presented := by
  unfold Conn.present
  split
  · exact List.mem_cons_of_mem _ h
  · exact h

theorem present_pair {c : Conn} {args : InitArgs} {owner sid : String}
    (howner : args.owner = some owner) (hsid : args.sessionId = some sid) :
    (owner, sid) ∈ (c.present args).presented := by
  unfold Conn.present
  rw [howner, hsid]
  exact List.mem_cons_self

theorem present_authorized (c : Conn) (args : InitArgs) :
    (c.present args).authorized = c.authorized ∧
      (c.present args).authorizedSid = c.authorizedSid := by
  unfold Conn.present
  split <;> exact ⟨rfl, rfl⟩

end Upload
end PkgManager
