import PkgManager.Secrets.Inherit

/-!
# Passwords stay where they were given

Unless a configuration names the id of a stored one, it has the same server as the one that its
password is taken from, and so on back to the server that the password was given for.
-/

namespace PkgManager
namespace Secrets

open CString
open Custody
open PkgManager.Parser
open PkgManager.Http
open PkgManager.Smb
open PkgManager.Scanner (lowerText)
open Transition

/-!
# Web sources
-/

/-- A stored source is clean, and at home. -/
structure SourceKept (h : Held SourceConfig) : Prop where
  clean : CleanUrl h.config.url
  parsed : exists u, httpUrlParse h.config.url = some u
  home : InHome SameServer h

theorem withPassword_url (c : SourceConfig) (donor : Option SourceConfig) :
    (withPassword c donor).url = c.url := by
  cases donor with
  | none => rfl
  | some d => rfl

section
variable {mzCrc32 : Text -> Nat}

theorem own_kept {c clean : SourceConfig} (h : httpSourceSanitize mzCrc32 c = some clean) :
    SourceKept (Held.own clean) where
  clean := sanitize_clean h
  parsed := (sanitize_url h).2.2.1
  home := by
    rcases (sanitize_url h).2.2.1 with ⟨u, hu⟩
    exact inHome_own (sameServer_of_lower rfl hu)

/-- A source that has the address of a stored one has its server. -/
theorem sameServer_of_address {c d clean : SourceConfig} (hd : CleanUrl d.url)
    (haddress : equalCi c.url d.url = true) (h : httpSourceSanitize mzCrc32 c = some clean) :
    SameServer clean d := by
  have hlower := equalCi_iff.mp haddress
  have hc : CleanUrl c.url := hd.of_lower hlower.symm
  rcases (sanitize_url h).2.2.1 with ⟨u, hu⟩
  exact sameServer_of_lower ((sanitize_lower hc h).trans hlower) hu

theorem heldSourceDonor_mem {c : SourceConfig} {old : List (Held SourceConfig)}
    {d : Held SourceConfig} (h : heldSourceDonor c old = some d) :
    d ∈ old ∧ sameSource c d.config = true := by
  unfold heldSourceDonor at h
  split at h
  · cases h
  · have hfound := List.find?_some h
    rw [Bool.and_eq_true] at hfound
    exact ⟨List.mem_of_find?_eq_some h, hfound.1⟩

theorem heldSource_kept {old : List (Held SourceConfig)} (hold : forall h, h ∈ old -> SourceKept h)
    {c : SourceConfig} {new : Held SourceConfig} (h : heldSource mzCrc32 old c = some new) :
    SourceKept new := by
  rcases Option.map_eq_some_iff.mp h with ⟨clean, hclean, rfl⟩
  have hown := own_kept hclean
  refine
    { clean := by
        rw [taken_config]
        exact hown.clean
      parsed := by
        rw [taken_config]
        exact hown.parsed
      home := ?_ }
  rcases hown.parsed with ⟨u, hu⟩
  have hself : SameServer clean clean := sameServer_of_lower rfl hu
  apply inHome_taken (R := SameServer) SameServer.trans hself
  intro d hd
  rcases heldSourceDonor_mem hd with ⟨hmem, hsame⟩
  refine ⟨(hold d hmem).home, ?_⟩
  intro hid
  unfold sameSource at hsame
  rw [hid, Bool.false_or, Bool.and_eq_true] at hsame
  have haddress : equalCi (withPassword c ((heldSourceDonor c old).map Held.config)).url
      d.config.url = true := by
    rw [withPassword_url]
    exact hsame.1
  exact sameServer_of_address (hold d hmem).clean haddress hclean

theorem recleaned_kept {h new : Held SourceConfig} (hkept : SourceKept h)
    (hnew : recleaned mzCrc32 h = some new) : SourceKept new := by
  rcases Option.map_eq_some_iff.mp hnew with ⟨clean, hclean, rfl⟩
  have hown := own_kept hclean
  rcases hown.parsed with ⟨u, hu⟩
  exact
    { clean := hown.clean
      parsed := hown.parsed
      home := by
        have hsame : SameServer clean h.config :=
          sameServer_of_lower (sanitize_lower hkept.clean hclean) hu
        exact hkept.home.move (R := SameServer) SameServer.trans hsame }

theorem postedSources_kept {old new : List (Held SourceConfig)} {body : Option Text}
    (hold : forall h, h ∈ old -> SourceKept h) (h : postedSources mzCrc32 old body = some new) :
    forall h, h ∈ new -> SourceKept h := by
  unfold postedSources at h
  dsimp only at h
  split at h
  · cases h
  · split at h
    · cases h
      intro x hx
      rcases List.mem_filterMap.mp hx with ⟨first, hfirst, hagain⟩
      rcases List.mem_filterMap.mp hfirst with ⟨c, _, hc⟩
      exact recleaned_kept (heldSource_kept hold hc) hagain
    · cases h

theorem testedHeld_kept {old : List (Held SourceConfig)} {body : Option Text}
    (hold : forall h, h ∈ old -> SourceKept h) :
    forall h, h ∈ (testedHeld mzCrc32 old body).toList -> SourceKept h := by
  intro x hx
  rw [Option.mem_toList] at hx
  unfold testedHeld at hx
  split at hx
  · exact heldSource_kept hold hx
  · cases hx

end

/-!
# Shares
-/

theorem sameLogon_name {c d : SmbShare}
    (h : sameLogon c (smbClientSanitizeConfig d) = true) : SameName c d := by
  unfold sameLogon at h
  rw [Bool.and_eq_true, Bool.and_eq_true] at h
  exact sameName_of_equalCi h.1.2

/-- Both tests of the handlers ask for the server, unless the id is the same. -/
theorem sameShare_name {c d : SmbShare} (h : sameShare c (smbClientSanitizeConfig d) = true)
    (hid : byShareId c d = false) : SameName c d := by
  unfold byShareId at hid
  unfold sameShare at h
  rw [hid, Bool.false_or, Bool.and_eq_true] at h
  exact sameLogon_name h.1

theorem sameSavedShare_name {c d : SmbShare}
    (h : sameSavedShare c (smbClientSanitizeConfig d) = true) (hid : byShareId c d = false) :
    SameName c d := by
  unfold byShareId at hid
  unfold sameSavedShare at h
  rw [hid, Bool.false_or, Bool.and_eq_true] at h
  exact sameLogon_name h.1

/-- A share that is taken from a list whose shares are at home. -/
theorem taken_inHome {c filled : SmbShare} (hserver : filled.server = c.server)
    {donor : Option (Held SmbShare)}
    (h : forall d, donor = some d ->
      InHome SameName d ∧ (byShareId c d.config = false -> SameName c d.config)) :
    InHome SameName (Held.taken filled (byShareId c) donor) := by
  apply inHome_taken (R := SameName) SameName.trans (SameName.refl filled)
  intro d hd
  refine ⟨(h d hd).1, ?_⟩
  intro hid
  exact (sameName_of_server hserver).trans ((h d hd).2 hid)

theorem withSharePassword_server (c : SmbShare) (donor : Option SmbShare) :
    (withSharePassword c donor).server = c.server := by
  cases donor with
  | none => rfl
  | some d => rfl

theorem filledShare_server (c : SmbShare) (donor : Option SmbShare) :
    (filledShare c donor).server = c.server := by
  cases donor with
  | none => rfl
  | some d => rfl

theorem heldSettingsShare_kept {old : List (Held SmbShare)}
    (hold : forall h, h ∈ old -> InHome SameName h) (share : SmbShare) :
    InHome SameName (heldSettingsShare old share) := by
  apply taken_inHome (withSharePassword_server _ _)
  intro d hd
  unfold heldSettingsDonor at hd
  split at hd
  · cases hd
  · have hfound := List.find?_some hd
    rw [Bool.and_eq_true] at hfound
    exact ⟨hold d (List.mem_of_find?_eq_some hd), sameShare_name hfound.1⟩

theorem heldSavedDonor_mem {same : SmbShare -> SmbShare -> Bool} {c : SmbShare}
    {saved : List (Held SmbShare)} {d : Held SmbShare}
    (h : heldSavedDonor same c saved = some d) :
    d ∈ saved ∧ same c (smbClientSanitizeConfig d.config) = true := by
  unfold heldSavedDonor donorOf at h
  split at h
  · cases h
  · have hfound := List.find?_some h
    exact ⟨List.mem_of_find?_eq_some h, hfound⟩

theorem heldRequestDonor_name {request : Smb.Request} {c : SmbShare}
    {saved : List (Held SmbShare)} {d : Held SmbShare}
    (h : heldRequestDonor request c saved = some d) :
    d ∈ saved ∧ (byShareId c d.config = false -> SameName c d.config) := by
  cases request with
  | test =>
      rcases heldSavedDonor_mem h with ⟨hmem, hsame⟩
      exact ⟨hmem, sameShare_name hsame⟩
  | shares =>
      rcases heldSavedDonor_mem h with ⟨hmem, hsame⟩
      exact ⟨hmem, sameSavedShare_name hsame⟩
  | browse =>
      rcases heldSavedDonor_mem h with ⟨hmem, hsame⟩
      exact ⟨hmem, sameSavedShare_name hsame⟩

theorem connectedHeld_kept {request : Smb.Request} {saved : List (Held SmbShare)}
    {body : Option Text} (hold : forall h, h ∈ saved -> InHome SameName h) :
    forall h, h ∈ (connectedHeld request saved body).toList -> InHome SameName h := by
  intro x hx
  rw [Option.mem_toList] at hx
  unfold connectedHeld at hx
  dsimp only at hx
  split at hx
  · cases hx
  · cases hx
    apply taken_inHome (filledShare_server _ _)
    intro d hd
    have hdonor := (Option.filter_eq_some_iff.mp hd).1
    rcases heldRequestDonor_name hdonor with ⟨hmem, hname⟩
    exact ⟨hold d hmem, hname⟩

theorem postedShares_kept {old new : List (Held SmbShare)} {body : Option Text}
    (hold : forall h, h ∈ old -> InHome SameName h) (h : postedShares old body = some new) :
    forall h, h ∈ new -> InHome SameName h := by
  unfold postedShares at h
  dsimp only at h
  split at h
  · cases h
  · cases h
    intro x hx
    rcases List.mem_map.mp hx with ⟨share, _, rfl⟩
    exact heldSettingsShare_kept hold share

/-!
# Runs
-/

/-- Everything that is stored and everything that a password was attached to is at home. -/
structure Home (s : Served) : Prop where
  sources : forall h, h ∈ s.sources -> SourceKept h
  shares : forall h, h ∈ s.shares -> InHome SameName h
  attachedSources : forall h, h ∈ s.attachedSources -> SourceKept h
  attachedShares : forall h, h ∈ s.attachedShares -> InHome SameName h

theorem forall_mem_append {α : Type} {p : α -> Prop} {a b : List α} (ha : forall x, x ∈ a -> p x)
    (hb : forall x, x ∈ b -> p x) : forall x, x ∈ a ++ b -> p x := by
  intro x hx
  rcases List.mem_append.mp hx with hfront | hback
  · exact ha x hfront
  · exact hb x hback

theorem home_start (mzCrc32 : Text -> Nat) (loaded : Settings) :
    Home (Served.start mzCrc32 loaded) where
  sources := by
    intro h hmem
    rcases List.mem_map.mp hmem with ⟨clean, hclean, rfl⟩
    rcases List.mem_filterMap.mp hclean with ⟨c, _, hc⟩
    exact own_kept hc
  shares := by
    intro h hmem
    rcases List.mem_map.mp hmem with ⟨share, _, rfl⟩
    exact inHome_own (SameName.refl share)
  attachedSources := by
    intro h hmem
    cases hmem
  attachedShares := by
    intro h hmem
    cases hmem

theorem home_after {mzCrc32 : Text -> Nat} {s : Served} (h : Home s) (post : Post) :
    Home (s.after mzCrc32 post) := by
  cases post with
  | sources body =>
      unfold Served.after
      dsimp only
      split
      · exact h
      · rename_i new hnew
        have hkept := postedSources_kept h.sources hnew
        exact
          { h with
            sources := hkept
            attachedSources := forall_mem_append h.attachedSources hkept }
  | test body =>
      exact
        { h with
          attachedSources := forall_mem_append h.attachedSources (testedHeld_kept h.sources) }
  | settings body =>
      unfold Served.after
      dsimp only
      split
      · exact h
      · rename_i new hnew
        have hkept := postedShares_kept h.shares hnew
        exact
          { h with
            shares := hkept
            attachedShares := forall_mem_append h.attachedShares hkept }
  | smb request body =>
      exact
        { h with
          attachedShares := forall_mem_append h.attachedShares (connectedHeld_kept h.shares) }

/-- The handlers have stored the settings, one request after the other. -/
def Stored (mzCrc32 : Text -> Nat) (first : Settings) (tr : List (Served × Post)) (t : Served) :
    Prop :=
  t.settings = (tr.map Prod.snd).foldl (Settings.after mzCrc32) first

theorem run_settings {mzCrc32 : Text -> Nat} {s t : Served} {tr : List (Served × Post)}
    (hrun : Run (server mzCrc32) (fun _ _ => True) s tr t) : Stored mzCrc32 s.settings tr t := by
  apply run_history_invariant _ hrun rfl
  intro tr u v post hu _ hnext
  cases hnext
  unfold Stored at hu ⊢
  rw [after_settings, hu, List.map_append, List.foldl_append]
  rfl

/-- A document with one source. -/
def sourceDocument (id url password : String) : Option Text :=
  some (ascii "\x7b" ++ quoted "sources" ++ ascii ":[\x7b" ++ quoted "id" ++ ascii ":" ++
    quoted id ++ ascii "," ++ quoted "url" ++ ascii ":" ++ quoted url ++ ascii "," ++
    quoted "password" ++ ascii ":" ++ quoted password ++ ascii "\x7d]\x7d")

/-- A source is stored, and an address is tested without a password. -/
def twoPosts (id url : String) : List Post :=
  [.sources (sourceDocument id "http://nas/" "secret"), .test (sourceDocument id url "")]

def emptySettings : Settings where
  sources := []
  shares := []

/-- Every list of requests is a run. -/
theorem posts_run (mzCrc32 : Text -> Nat) (s : Served) (posts : List Post) :
    exists tr, Run (server mzCrc32) (fun _ _ => True) s tr
      (posts.foldl (Served.after mzCrc32) s) := by
  induction posts using List.reverseRecOn with
  | nil => exact ⟨[], Run.nil⟩
  | append_singleton posts post ih =>
      rcases ih with ⟨tr, hrun⟩
      rw [List.foldl_append]
      exact ⟨_, Run.snoc hrun trivial rfl⟩

/-- The port of a share counts here. -/
def PasswordsStay : Prop :=
  forall (mzCrc32 : Text -> Nat) (loaded : Settings) (tr : List (Served × Post)) (t : Served),
    Run (server mzCrc32) (fun _ _ => True) (Served.start mzCrc32 loaded) tr t ->
    (forall h, h ∈ t.attachedSources -> SameServer h.config h.home) ∧
      (forall h, h ∈ t.attachedShares ->
        SameName h.config h.home ∧ h.config.port = h.home.port)

end Secrets
end PkgManager
