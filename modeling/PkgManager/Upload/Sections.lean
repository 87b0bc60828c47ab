import PkgManager.Upload.Ownership

/-!
# Connections act on their own sessions

Each section of a connection is a check, or an act that a check has allowed.
-/

namespace PkgManager
namespace Upload

open Live
open Transition
open WebSocket (InitArgs Control controlOf)

section Connection

variable {w : UploadWorld} {t : Nat} {c : Conn}

/-- A connection that stays as it is. -/
theorem goodConn_stay {k k' : ConnAt} (hc : GoodConn w c k)
    (hcleared : k'.inGap = true -> Cleared w c) (hexpects : Expects w c k') :
    GoodConn w c k' :=
  goodConn_move hc rfl rfl (fun _ h => h) hcleared hexpects

/-- A section that reads only, and leaves the locals alone. -/
theorem connEffect_check {k k' : ConnAt} (hgood : GoodUpload w) (hc : GoodConn w c k)
    (hcleared : k'.inGap = true -> Cleared w c) (hexpects : Expects w c k') :
    ConnEffect w t c k w c k' :=
  connEffect_read hgood (goodConn_stay hc hcleared hexpects) (fun _ h => h)

theorem connEffect_init (hgood : GoodUpload w) (hc : GoodConn w c ConnAt.idle)
    (args : InitArgs) :
    ConnEffect w t c ConnAt.idle w (c.present args)
      (if w.owner != "" then ConnAt.initMatches args else ConnAt.initCreate args) := by
  have hsame := present_authorized c args
  refine connEffect_read hgood ?_ (fun _ h => mem_present h)
  refine goodConn_move hc hsame.1 hsame.2 (fun _ h => mem_present h) ?_ ?_
  · split
    · intro hgap
      cases hgap
    · rename_i hnone
      intro _
      exact cleared_of_unowned hgood (by simpa using hnone)
  · split
    · intro owner sid howner hsid
      exact present_pair howner hsid
    · rename_i hnone
      exact (by simpa using hnone : w.owner = "")

theorem connEffect_holds {k' : ConnAt} (hgood : GoodUpload w) (hc : GoodConn w c ConnAt.idle)
    (hexpects : Expects w c k') :
    ConnEffect w t c ConnAt.idle w c (if c.holds w then k' else ConnAt.idle) := by
  split
  · rename_i hholds
    exact connEffect_check hgood hc (fun _ => cleared_of_holds hgood hc hholds) hexpects
  · exact connEffect_check hgood hc (fun hgap => by cases hgap) trivial

theorem connEffect_text (hgood : GoodUpload w) (hc : GoodConn w c ConnAt.idle)
    (msg : Control) :
    ConnEffect w t c ConnAt.idle w (textStep w c msg).1 (textStep w c msg).2 := by
  have hstay : ConnEffect w t c ConnAt.idle w c ConnAt.idle :=
    connEffect_check hgood hc (fun hgap => by cases hgap) trivial
  cases msg with
  | init args =>
      cases args with
      | none => exact hstay
      | some args => exact connEffect_init hgood hc args
  | finish => exact connEffect_holds hgood hc trivial
  | cancel => exact connEffect_holds hgood hc trivial
  | seg pending =>
      rw [textStep]
      split
      · refine connEffect_read hgood ?_ (fun _ h => h)
        exact goodConn_move hc rfl rfl (fun _ h => h) (fun hgap => by cases hgap) trivial
      · exact hstay
  | _ => exact hstay

theorem connEffect_idle (hgood : GoodUpload w) (hc : GoodConn w c ConnAt.idle)
    (incoming : Incoming) :
    ConnEffect w t c ConnAt.idle w (idleStep w c incoming).1 (idleStep w c incoming).2 := by
  cases incoming with
  | text msg => exact connEffect_text hgood hc (controlOf msg)
  | binary len data =>
      rw [idleStep]
      apply connEffect_check hgood hc
      · split <;> exact fun hgap => by cases hgap
      · split <;> trivial
  | closed => exact connEffect_check hgood hc (fun hgap => by cases hgap) trivial

theorem connEffect_create {env : CreateEnv} {args : InitArgs} (hgood : GoodUpload w)
    (hc : GoodConn w c (ConnAt.initCreate args)) {w' : UploadWorld} {r : Int}
    (hres : wsDirectInitSession w env args.filename args.total = (w', r)) :
    ConnEffect w t c (ConnAt.initCreate args) w' c
      (if r = 0 then ConnAt.initUplink w'.lv.sessionId else ConnAt.idle) := by
  have howner : w.owner = "" := hc.expects
  have hnone : forall {u : UploadWorld}, u.ownedBy = none -> Cleared u c := by
    intro u hu pair howned
    have hsome := howned.2
    rw [hu] at hsome
    cases hsome
  -- neither a new session nor a resumed one has an owner
  have hkeep : Steady w w' ∧ GoodUpload w' ∧ w'.ownedBy = none ∧ w'.uplink = w.uplink ∧
      (r = 0 -> w'.lv.sessionId ∈ w'.ids) := by
    have hun := hgood.unowned howner
    unfold wsDirectInitSession at hres
    split at hres
    · cases hres
      exact ⟨steady_refl w, hgood, hun, rfl, fun h => by cases h⟩
    · rcases Prod.mk.inj hres with ⟨hw, hr⟩
      rw [← hw]
      rcases wsLiveCreate_cases w.lv env args.filename args.total 0 with
        hsame | ⟨hidle, _, hnow, _⟩
      · rw [hsame]
        have hrecord : recordStart w w.lv = w := by
          unfold recordStart
          rw [if_neg (by cases w.lv.active <;> decide)]
        rw [hrecord]
        refine ⟨steady_refl w, hgood, hun, rfl, ?_⟩
        intro hzero
        rw [hzero] at hr
        have hactive := wsLiveCreate_ok hr
        rw [hsame] at hactive
        exact hgood.known hactive
      · generalize (wsLiveCreate w.lv env args.filename args.total 0).1 = lv at hnow
        unfold recordStart
        rw [if_pos (by rw [hidle, hnow]; decide)]
        refine ⟨⟨fun id hid => List.mem_cons_of_mem _ hid, rfl, ?_⟩, ⟨?_, ?_, ?_, ?_, ?_⟩, rfl, rfl,
          fun _ => List.mem_cons_self⟩
        · intro pair howned
          cases howned.2
        · intro pair howned
          cases howned
        · intro pair howned
          cases howned
        · intro _
          exact List.mem_cons_self
        · intro hsome
          exact absurd howner hsome
        · intro _
          rfl
  rcases hkeep with ⟨hsteady, hgood', hun, huplink, hknown⟩
  refine ⟨hsteady, hgood', ?_, ?_, fun _ h => h, fun hgap => by cases hgap⟩
  · refine goodConn_stay (goodConn_of_steady hsteady hc) (fun _ => hnone hun) ?_
    split
    · rename_i hzero
      exact hknown hzero
    · trivial
  · intro u hu
    rw [huplink] at hu
    exact Or.inl hu

theorem connEffect_uplink {sid : String} (hgood : GoodUpload w)
    (hc : GoodConn w c (ConnAt.initUplink sid)) {w' : UploadWorld} {c' : Conn}
    (hres : initUplink w t c sid = (w', c')) :
    ConnEffect w t c (ConnAt.initUplink sid) w' c' ConnAt.idle := by
  have hcleared : Cleared w c := hc.cleared rfl
  have hauth : GoodConn w { c with authorized := true, authorizedSid := sid } ConnAt.idle :=
    ⟨fun _ => hc.expects, fun _ pair howned _ => hcleared pair howned,
      (fun hgap => by cases hgap), trivial⟩
  unfold initUplink at hres
  split at hres
  · split at hres
    · cases hres
      exact connEffect_read hgood hauth (fun _ h => h)
    · cases hres
      exact connEffect_check hgood hc (fun hgap => by cases hgap) trivial
  · cases hres
    have hsteady := steady_of_carried (some t) (carried_refl w.lv)
    refine ⟨hsteady, goodUpload_of_carried (some t) hgood (carried_refl w.lv),
      goodConn_of_steady hsteady hauth, ?_, fun _ h => h, fun hgap => by cases hgap⟩
    intro u hu
    have htu : t = u := Option.some.inj hu
    exact Or.inr ⟨htu.symm, cleared_of_steady hsteady hcleared⟩

theorem connEffect_cancel {leaving : Bool} {stage : CancelStage} (hgood : GoodUpload w)
    (hc : GoodConn w c (ConnAt.canceling leaving stage)) :
    ConnEffect w t c (ConnAt.canceling leaving stage) (cancelStep w stage) c
      (afterCancel leaving stage) := by
  have hexpects : Expects w c (afterCancel leaving stage) := by
    cases stage with
    | uplink => trivial
    | abort => trivial
    | destroy =>
        rw [afterCancel]
        split <;> trivial
  cases stage with
  | uplink =>
      exact connEffect_act none hgood hc (carried_refl w.lv) rfl (fun u hu => by cases hu)
        rfl rfl rfl hexpects
  | abort =>
      exact connEffect_act w.uplink hgood hc (carried_abort w.lv) rfl (fun _ hu => hu)
        rfl rfl rfl hexpects
  | destroy =>
      exact connEffect_act w.uplink hgood hc (carried_destroy w.lv) rfl (fun _ hu => hu)
        rfl rfl rfl hexpects

theorem connEffect_leaving (hgood : GoodUpload w) (hc : GoodConn w c ConnAt.leaving)
    (huplink : w.uplink = some t -> Cleared w c) (hown : w.uplink = some t) :
    ConnEffect w t c ConnAt.leaving { w with uplink := none } c
      (if c.authorized && !c.finishReceived then ConnAt.leaveCancel else ConnAt.gone) := by
  have hsteady := steady_of_carried none (carried_refl w.lv)
  refine ⟨hsteady, goodUpload_of_carried none hgood (carried_refl w.lv), ?_,
    (fun u hu => by cases hu), fun _ h => h, fun _ => untouched_refl w.lv⟩
  apply goodConn_stay (goodConn_of_steady hsteady hc)
  · intro _
    exact cleared_of_steady hsteady (huplink hown)
  · split <;> trivial

/-- Every section of a connection. -/
theorem connEffect_step {a : UploadAnswer} {k : ConnAt} (hgood : GoodUpload w)
    (hc : GoodConn w c k) (huplink : w.uplink = some t -> Cleared w c) {w' : UploadWorld}
    {c' : Conn} {k' : ConnAt} (hstep : connStep w t c a k = some (w', c', k')) :
    ConnEffect w t c k w' c' k' := by
  have hidle : forall {P : Prop}, ConnAt.idle.inGap = true -> P := fun hgap => by cases hgap
  have hgone : forall {P : Prop}, ConnAt.gone.inGap = true -> P := fun hgap => by cases hgap
  cases k with
  | idle =>
      rcases Prod.mk.inj (Option.some.inj hstep) with ⟨hw, hrest⟩
      have heffect := connEffect_idle (t := t) hgood hc a.incoming
      rw [hrest] at heffect
      rw [← hw]
      exact heffect
  | initMatches args =>
      rw [connStep] at hstep
      split at hstep
      · rename_i owner sid howner hsid
        cases hstep
        split
        · rename_i hmatch
          have hpair := cleared_of_matches hgood (hc.expects owner sid howner hsid) hmatch
          exact connEffect_check hgood hc (fun _ => hpair.1) hpair.2
        · exact connEffect_check hgood hc hidle trivial
      · cases hstep
        exact connEffect_check hgood hc hidle trivial
  | initSameFile args sid =>
      cases hstep
      split
      · exact connEffect_check hgood hc (fun _ => hc.cleared rfl) hc.expects
      · exact connEffect_check hgood hc hidle trivial
  | initCreate args =>
      cases hstep
      exact connEffect_create hgood hc rfl
  | initUplink sid =>
      cases hstep
      exact connEffect_uplink hgood hc rfl
  | finishing =>
      cases hstep
      exact connEffect_act w.uplink hgood hc (carried_of_session (sameSession_finish w.lv)) rfl
        (fun _ hu => hu) rfl rfl rfl trivial
  | canceling leaving stage =>
      cases hstep
      exact connEffect_cancel hgood hc
  | binaryCheck len data total =>
      rw [connStep] at hstep
      split at hstep
      · rename_i hholds
        cases hstep
        exact connEffect_check hgood hc (fun _ => cleared_of_holds hgood hc hholds) trivial
      · cases hstep
        refine connEffect_read hgood ?_ (fun _ h => h)
        exact goodConn_move hc rfl rfl (fun _ h => h) hidle trivial
  | binaryActive len data total =>
      rw [connStep] at hstep
      split at hstep
      · cases hstep
        exact connEffect_check hgood hc (fun _ => hc.cleared rfl) trivial
      · cases hstep
        refine connEffect_read hgood ?_ (fun _ h => h)
        exact goodConn_move hc rfl rfl (fun _ h => h) hidle trivial
  | binaryStore len data =>
      have hcarried := carried_of_session
        (sameSession_tryWrite rfl : SameSession w.lv
          (wsLiveTryWrite w.lv (binaryMessage c len data)).1)
      simp only [connStep] at hstep
      split at hstep
      · cases hstep
        exact connEffect_act w.uplink hgood hc hcarried rfl (fun _ hu => hu) rfl rfl rfl trivial
      · cases hstep
        exact connEffect_act w.uplink hgood hc hcarried rfl (fun _ hu => hu) rfl rfl rfl trivial
  | leaving =>
      rw [connStep] at hstep
      split at hstep
      · rename_i hown
        cases hstep
        exact connEffect_leaving hgood hc huplink hown
      · cases hstep
        exact connEffect_check hgood hc hgone trivial
  | leaveCancel =>
      cases hstep
      apply connEffect_check hgood hc (fun _ => hc.cleared rfl)
      split <;> trivial
  | leaveActive =>
      cases hstep
      apply connEffect_check hgood hc (fun _ => hc.cleared rfl)
      split <;> trivial
  | gone => cases hstep

end Connection

/-!
# The owner's requests
-/

/-- A request starts an owned session under a new id, or it starts none. -/
structure OwnerEffect (w w' : UploadWorld) : Prop where
  good : GoodUpload w'
  uplink : forall u, w'.uplink = some u -> w.uplink = some u
  starts : Steady w w' ∨
    (startsSession w w' = true ∧ w'.ids = w'.lv.sessionId :: w.ids ∧
      exists owner, w'.ownedBy = some (owner, w'.lv.sessionId))

theorem ownerEffect_refl {w : UploadWorld} (hgood : GoodUpload w) : OwnerEffect w w :=
  ⟨hgood, fun _ h => h, Or.inl (steady_refl w)⟩

theorem ownerEffect_of_carried {w : UploadWorld} {lv : LiveState} {uplink : Option Nat}
    (hgood : GoodUpload w) (h : Carried w.lv lv)
    (huplink : forall u, uplink = some u -> w.uplink = some u) :
    OwnerEffect w { w with lv := lv, uplink := uplink } :=
  ⟨goodUpload_of_carried uplink hgood h, huplink, Or.inl (steady_of_carried uplink h)⟩

theorem carried_down (lv : LiveState) : Carried lv (wsLiveDestroy (wsLiveAbort lv)) := by
  intro hactive
  rw [(wsLiveDestroy_down (wsLiveAbort lv)).1] at hactive
  cases hactive

theorem ownerEffect_cancelOwned {w : UploadWorld} (hgood : GoodUpload w) (owner sid : String)
    (installing : Bool) :
    OwnerEffect w (wsDirectCancelOwned w owner sid installing).1 := by
  have hcarried := carried_down w.lv
  unfold wsDirectCancelOwned
  split
  · dsimp only
    split
    · exact ownerEffect_of_carried hgood hcarried (fun _ h => h)
    · exact ownerEffect_of_carried hgood hcarried (fun u hu => by cases hu)
  · exact ownerEffect_refl hgood

/-- A call that fails has started no session. -/
theorem initSession_failed {w : UploadWorld} {env : CreateEnv} {filename : String}
    {totalSize : Nat} (hidle : w.lv.active = false)
    (h : (wsDirectInitSession w env filename totalSize).2 ≠ 0) :
    (wsDirectInitSession w env filename totalSize).1 = w := by
  unfold wsDirectInitSession at h ⊢
  split at h
  · rename_i hargs
    rw [if_pos hargs]
  · rename_i hargs
    rw [if_neg hargs]
    dsimp only at h ⊢
    rw [wsLiveCreate_failed hidle h]
    unfold recordStart
    rw [if_neg (by rw [hidle]; decide)]

theorem ownerEffect_initOwned {w : UploadWorld} {env : CreateEnv} (hgood : GoodUpload w)
    (filename : String) (totalSize : Nat) (owner resumeSid : String) :
    OwnerEffect w (wsDirectInitOwned w env filename totalSize owner resumeSid).1 := by
  unfold wsDirectInitOwned
  split
  · exact ownerEffect_refl hgood
  · rename_i hargs
    split
    · exact ownerEffect_refl hgood
    · rename_i hactive
      have hidle : w.lv.active = false := by
        unfold wsLiveSessionActive at hactive
        simpa using hactive
      dsimp only
      split
      · rename_i hzero
        have howner : owner ≠ "" := by
          intro hempty
          rw [hempty] at hargs
          exact hargs (Or.inl (by decide))
        unfold wsDirectInitSession at hzero ⊢
        split at hzero
        · cases hzero
        · rename_i hnamed
          rw [if_neg hnamed]
          have hnow := wsLiveCreate_ok hzero
          dsimp only
          generalize (wsLiveCreate w.lv env filename totalSize 0).1 = lv at hnow
          unfold recordStart
          rw [if_pos (by rw [hidle, hnow]; decide)]
          refine ⟨⟨?_, ?_, ?_, ?_, ?_⟩, fun _ h => h, Or.inr ⟨?_, rfl, owner, rfl⟩⟩
          · intro pair howned
            cases howned
            exact ⟨rfl, rfl⟩
          · intro pair howned _
            cases howned
            rfl
          · intro _
            exact List.mem_cons_self
          · intro _
            exact ⟨_, rfl⟩
          · intro hempty
            exact absurd hempty howner
          · unfold startsSession
            dsimp only
            rw [hidle, hnow]
            rfl
      · rename_i hfailed
        rw [initSession_failed hidle hfailed]
        exact ownerEffect_refl hgood

end Upload
end PkgManager
