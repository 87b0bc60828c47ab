import PkgManager.Http.Sources
import PkgManager.Secrets.Casing
import PkgManager.Smb.Sanitize
import PkgManager.Collections.Custody
import PkgManager.Secrets.WebServers
import PkgManager.Transition.System

/-!
# Blank passwords

A request may leave a password blank; the server then fills in a stored one.  Each handler has
its own test for the stored configuration that it is taken from.
-/

namespace PkgManager
namespace Secrets

open CString
open PkgManager.Parser
open PkgManager.Http
open PkgManager.Smb

/-!
# Web sources
-/

def sameSourceId (c d : SourceConfig) : Bool :=
  c.id != [] && c.id == d.id

def sameSource (c d : SourceConfig) : Bool :=
  sameSourceId c d || (equalCi c.url d.url && c.username == d.username)

/-- The stored source that a password is taken from. -/
def sourceDonor (c : SourceConfig) (old : List SourceConfig) : Option SourceConfig :=
  if c.password ≠ [] then none else old.find? (fun d => sameSource c d && d.password != [])

def withPassword (c : SourceConfig) (donor : Option SourceConfig) : SourceConfig :=
  match donor with
  | none => c
  | some d => { c with password := d.password }

/-- {lit}`inherit_password` -/
def inheritPassword (c : SourceConfig) (old : List SourceConfig) : SourceConfig :=
  withPassword c (sourceDonor c old)

section
variable (mzCrc32 : Text -> Nat)

def cleanSource (old : List SourceConfig) (c : SourceConfig) : Option SourceConfig :=
  httpSourceSanitize mzCrc32 (inheritPassword c old)

/-- {lit}`POST /api/http/sources`; nothing is stored when a source is refused.
{lit}`http_sources_set` cleans the sources once more. -/
def postSources (old : List SourceConfig) (body : Option Text) : List SourceConfig :=
  let text := cString (body.getD [])
  let list := httpSourcesParseJson text maxHttpSources
  if (strstr (quoted "sources") text).isNone then old
  else if list.all (fun c => (cleanSource mzCrc32 old c).isSome) then
    (list.filterMap (cleanSource mzCrc32 old)).filterMap (httpSourceSanitize mzCrc32)
  else old

/-- {lit}`POST /api/http/test`: the source that {lit}`http_source_test` goes on with. -/
def testedSource (old : List SourceConfig) (body : Option Text) : Option SourceConfig :=
  match httpSourcesParseJson (cString (body.getD [])) 1 with
  | c :: _ => cleanSource mzCrc32 old c
  | [] => none

end

/-!
# Shares
-/

def sameShareId (c d : SmbShare) : Bool :=
  c.id != [] && d.id != [] && c.id == d.id

def sameLogon (c d : SmbShare) : Bool :=
  d.server != [] && equalCi c.server d.server && equalCi c.username d.username

/-- The test of {lit}`/api/settings` and {lit}`/api/smb/test`. -/
def sameShare (c d : SmbShare) : Bool :=
  sameShareId c d || (sameLogon c d && equalCi c.share d.share)

/-- The test of {lit}`smb_inherit_saved_credentials`; a share may be left out. -/
def sameSavedShare (c d : SmbShare) : Bool :=
  sameShareId c d ||
    (sameLogon c d && (c.share == [] || d.share == [] || equalCi c.share d.share))

/-- The shares of a list that was parsed. -/
def parsedShares (body : Text) : List SmbShare :=
  let out := parseSmbShares body
  (List.range out.count).filterMap out.element

/-- {lit}`/api/settings` goes on to the next share while there is no password. -/
def settingsDonor (c : SmbShare) (old : List SmbShare) : Option SmbShare :=
  if c.password ≠ [] then none
  else old.find? (fun d => sameShare c (smbClientSanitizeConfig d) && d.password != [])

/-- The other handlers stop at the first share that is the same. -/
def savedDonor (same : SmbShare -> SmbShare -> Bool) (c : SmbShare) (saved : List SmbShare) :
    Option SmbShare :=
  if c.password ≠ [] ∧ c.workgroup ≠ [] then none
  else saved.find? (fun d => same c (smbClientSanitizeConfig d))

def withSharePassword (c : SmbShare) (donor : Option SmbShare) : SmbShare :=
  match donor with
  | none => c
  | some d => { c with password := d.password }

def settingsShare (old : List SmbShare) (share : SmbShare) : SmbShare :=
  let c := smbClientSanitizeConfig share
  withSharePassword c (settingsDonor c old)

def filledShare (c : SmbShare) (donor : Option SmbShare) : SmbShare :=
  match donor with
  | none => c
  | some d =>
      { c with
        password := if c.password = [] ∧ d.password ≠ [] then d.password else c.password
        workgroup := if c.workgroup = [] ∧ d.workgroup ≠ [] then d.workgroup else c.workgroup }

/-- {lit}`POST /api/settings` -/
def postShares (old : List SmbShare) (body : Option Text) : List SmbShare :=
  let text := cString (body.getD [])
  if (strstr (quoted "smb_shares") text).isNone then old
  else (parsedShares text).map (settingsShare old)

/-- The configuration that a request reads from its body. -/
def requestShare (request : Smb.Request) (body : Option Text) : SmbShare :=
  match request with
  | .test => smbClientSanitizeConfig (testCfg (body.map cString))
  | .shares | .browse => smbClientSanitizeConfig (smbCfgFromBody (cString (body.getD [])))

def requestDonor (request : Smb.Request) (c : SmbShare) (saved : List SmbShare) : Option SmbShare :=
  match request with
  | .test => savedDonor sameShare c saved
  | .shares | .browse => savedDonor sameSavedShare c saved

/-- What is refused before a connection is made. -/
def incomplete (request : Smb.Request) (c : SmbShare) : Bool :=
  match request with
  | .test => false
  | .shares => c.server == []
  | .browse => c.server == [] || c.share == []

/-- The configuration that {lit}`/api/smb/test`, {lit}`/api/smb/shares` or
{lit}`/api/smb/browse` connects with. -/
def connectedShare (request : Smb.Request) (saved : List SmbShare) (body : Option Text) :
    Option SmbShare :=
  let c := requestShare request body
  if incomplete request c then none else some (filledShare c (requestDonor request c saved))

/-!
# Requests
-/

/-- What is stored. -/
structure Settings where
  sources : List SourceConfig
  shares : List SmbShare

inductive Post where
  | sources (body : Option Text)
  | test (body : Option Text)
  | settings (body : Option Text)
  | smb (request : Smb.Request) (body : Option Text)

/-- What is stored after a request. -/
def Settings.after (mzCrc32 : Text -> Nat) (s : Settings) : Post -> Settings
  | .sources body => { s with sources := postSources mzCrc32 s.sources body }
  | .settings body => { s with shares := postShares s.shares body }
  | .test _ => s
  | .smb _ _ => s

end Secrets
end PkgManager

/-!
# Where passwords were given

Along with each stored configuration goes the one that its password was given with.  Nothing
but these is added to what the handlers do.
-/

namespace PkgManager
namespace Secrets

open CString
open Custody
open PkgManager.Parser
open PkgManager.Http
open PkgManager.Smb
open Transition

/-!
# Web sources
-/

def heldSourceDonor (c : SourceConfig) (old : List (Held SourceConfig)) :
    Option (Held SourceConfig) :=
  if c.password ≠ [] then none else donorOf (fun d => sameSource c d && d.password != []) old

theorem heldSourceDonor_config (c : SourceConfig) (old : List (Held SourceConfig)) :
    (heldSourceDonor c old).map Held.config = sourceDonor c (old.map Held.config) := by
  unfold heldSourceDonor sourceDonor
  split
  · rfl
  · exact donorOf_config _ old

section
variable (mzCrc32 : Text -> Nat)

def heldSource (old : List (Held SourceConfig)) (c : SourceConfig) : Option (Held SourceConfig) :=
  let donor := heldSourceDonor c old
  (httpSourceSanitize mzCrc32 (withPassword c (donor.map Held.config))).map
    (fun clean => Held.taken clean (sameSourceId c) donor)

def recleaned (h : Held SourceConfig) : Option (Held SourceConfig) :=
  (httpSourceSanitize mzCrc32 h.config).map h.move

/-- The sources that are stored anew; {lit}`none` when the request is refused. -/
def postedSources (old : List (Held SourceConfig)) (body : Option Text) :
    Option (List (Held SourceConfig)) :=
  let text := cString (body.getD [])
  let list := httpSourcesParseJson text maxHttpSources
  if (strstr (quoted "sources") text).isNone then none
  else if list.all (fun c => (heldSource mzCrc32 old c).isSome) then
    some ((list.filterMap (heldSource mzCrc32 old)).filterMap (recleaned mzCrc32))
  else none

def testedHeld (old : List (Held SourceConfig)) (body : Option Text) :
    Option (Held SourceConfig) :=
  match httpSourcesParseJson (cString (body.getD [])) 1 with
  | c :: _ => heldSource mzCrc32 old c
  | [] => none

end

/-!
# Shares
-/

def heldSettingsDonor (c : SmbShare) (old : List (Held SmbShare)) : Option (Held SmbShare) :=
  if c.password ≠ [] then none
  else donorOf (fun d => sameShare c (smbClientSanitizeConfig d) && d.password != []) old

def heldSavedDonor (same : SmbShare -> SmbShare -> Bool) (c : SmbShare)
    (saved : List (Held SmbShare)) : Option (Held SmbShare) :=
  if c.password ≠ [] ∧ c.workgroup ≠ [] then none
  else donorOf (fun d => same c (smbClientSanitizeConfig d)) saved

def heldRequestDonor (request : Smb.Request) (c : SmbShare) (saved : List (Held SmbShare)) :
    Option (Held SmbShare) :=
  match request with
  | .test => heldSavedDonor sameShare c saved
  | .shares | .browse => heldSavedDonor sameSavedShare c saved

/-- The donor of the password; the other fields may come from a share without one. -/
def passwordDonor (c : SmbShare) (donor : Option (Held SmbShare)) : Option (Held SmbShare) :=
  donor.filter (fun d => c.password == [] && d.config.password != [])

def byShareId (c d : SmbShare) : Bool :=
  sameShareId c (smbClientSanitizeConfig d)

def heldSettingsShare (old : List (Held SmbShare)) (share : SmbShare) : Held SmbShare :=
  let c := smbClientSanitizeConfig share
  let donor := heldSettingsDonor c old
  Held.taken (withSharePassword c (donor.map Held.config)) (byShareId c) donor

def postedShares (old : List (Held SmbShare)) (body : Option Text) :
    Option (List (Held SmbShare)) :=
  let text := cString (body.getD [])
  if (strstr (quoted "smb_shares") text).isNone then none
  else some ((parsedShares text).map (heldSettingsShare old))

def connectedHeld (request : Smb.Request) (saved : List (Held SmbShare)) (body : Option Text) :
    Option (Held SmbShare) :=
  let c := requestShare request body
  let donor := heldRequestDonor request c saved
  if incomplete request c then none
  else
    some (Held.taken (filledShare c (donor.map Held.config)) (byShareId c) (passwordDonor c donor))

/-!
# Runs
-/

structure Vault where
  sources : List (Held SourceConfig)
  shares : List (Held SmbShare)

def Vault.settings (v : Vault) : Settings where
  sources := v.sources.map Held.config
  shares := v.shares.map Held.config

/-- What is stored, and every configuration that a password was attached to. -/
structure Served extends Vault where
  attachedSources : List (Held SourceConfig)
  attachedShares : List (Held SmbShare)

def Served.after (mzCrc32 : Text -> Nat) (s : Served) : Post -> Served
  | .sources body =>
      match postedSources mzCrc32 s.sources body with
      | none => s
      | some new => { s with sources := new, attachedSources := s.attachedSources ++ new }
  | .test body =>
      { s with
        attachedSources := s.attachedSources ++ (testedHeld mzCrc32 s.sources body).toList }
  | .settings body =>
      match postedShares s.shares body with
      | none => s
      | some new => { s with shares := new, attachedShares := s.attachedShares ++ new }
  | .smb request body =>
      { s with attachedShares := s.attachedShares ++ (connectedHeld request s.shares body).toList }

def server (mzCrc32 : Text -> Nat) : System Served Post where
  next := fun s post => some (s.after mzCrc32 post)

/-- The sources that are loaded are cleaned; a loaded password is one that was given. -/
def Served.start (mzCrc32 : Text -> Nat) (loaded : Settings) : Served where
  sources := (loaded.sources.filterMap (httpSourceSanitize mzCrc32)).map Held.own
  shares := loaded.shares.map Held.own
  attachedSources := []
  attachedShares := []

/-!
# What the handlers do
-/

section
variable {mzCrc32 : Text -> Nat}

theorem heldSource_config (old : List (Held SourceConfig)) (c : SourceConfig) :
    (heldSource mzCrc32 old c).map Held.config =
      cleanSource mzCrc32 (old.map Held.config) c := by
  unfold heldSource cleanSource inheritPassword
  dsimp only
  rw [<- heldSourceDonor_config]
  cases httpSourceSanitize mzCrc32 (withPassword c ((heldSourceDonor c old).map Held.config)) with
  | none => rfl
  | some clean => rw [Option.map_some, Option.map_some, taken_config]

theorem recleaned_config (h : Held SourceConfig) :
    (recleaned mzCrc32 h).map Held.config = httpSourceSanitize mzCrc32 h.config := by
  unfold recleaned
  cases httpSourceSanitize mzCrc32 h.config with
  | none => rfl
  | some clean => rfl

theorem map_filterMap_config {α β : Type} {f : α -> Option (Held β)} {g : α -> Option β}
    (h : forall a, (f a).map Held.config = g a) (list : List α) :
    (list.filterMap f).map Held.config = list.filterMap g := by
  rw [List.map_filterMap]
  congr 1
  funext a
  exact h a

theorem postedSources_config (old : List (Held SourceConfig)) (body : Option Text) :
    ((postedSources mzCrc32 old body).getD old).map Held.config =
      postSources mzCrc32 (old.map Held.config) body := by
  have hsome : forall c, (heldSource mzCrc32 old c).isSome =
      (cleanSource mzCrc32 (old.map Held.config) c).isSome := by
    intro c
    rw [<- heldSource_config, Option.isSome_map]
  unfold postedSources postSources
  dsimp only
  simp only [hsome]
  split
  · rfl
  · split
    · rw [Option.getD_some, map_filterMap_config (fun h => recleaned_config h),
        <- map_filterMap_config (fun c => heldSource_config old c), List.filterMap_map]
      rfl
    · rfl

theorem testedHeld_config (old : List (Held SourceConfig)) (body : Option Text) :
    (testedHeld mzCrc32 old body).map Held.config =
      testedSource mzCrc32 (old.map Held.config) body := by
  unfold testedHeld testedSource
  cases httpSourcesParseJson (cString (body.getD [])) 1 with
  | nil => rfl
  | cons c rest => exact heldSource_config old c

end

theorem heldSettingsDonor_config (c : SmbShare) (old : List (Held SmbShare)) :
    (heldSettingsDonor c old).map Held.config = settingsDonor c (old.map Held.config) := by
  unfold heldSettingsDonor settingsDonor
  split
  · rfl
  · exact donorOf_config _ old

theorem heldSavedDonor_config (same : SmbShare -> SmbShare -> Bool) (c : SmbShare)
    (saved : List (Held SmbShare)) :
    (heldSavedDonor same c saved).map Held.config = savedDonor same c (saved.map Held.config) := by
  unfold heldSavedDonor savedDonor
  split
  · rfl
  · exact donorOf_config _ saved

theorem heldRequestDonor_config (request : Smb.Request) (c : SmbShare)
    (saved : List (Held SmbShare)) :
    (heldRequestDonor request c saved).map Held.config =
      requestDonor request c (saved.map Held.config) := by
  cases request with
  | test => exact heldSavedDonor_config sameShare c saved
  | shares => exact heldSavedDonor_config sameSavedShare c saved
  | browse => exact heldSavedDonor_config sameSavedShare c saved

theorem postedShares_config (old : List (Held SmbShare)) (body : Option Text) :
    ((postedShares old body).getD old).map Held.config = postShares (old.map Held.config) body := by
  unfold postedShares postShares
  dsimp only
  split
  · rfl
  · rw [Option.getD_some, List.map_map]
    apply List.map_congr_left
    intro share _
    change (Held.taken _ _ _).config = withSharePassword _ (settingsDonor _ _)
    rw [taken_config, heldSettingsDonor_config]

theorem connectedHeld_config (request : Smb.Request) (saved : List (Held SmbShare))
    (body : Option Text) :
    (connectedHeld request saved body).map Held.config =
      connectedShare request (saved.map Held.config) body := by
  unfold connectedHeld connectedShare
  dsimp only
  rw [<- heldRequestDonor_config]
  split
  · rfl
  · rw [Option.map_some, taken_config]

/-- The stored configurations are those that the handlers store. -/
theorem after_settings (mzCrc32 : Text -> Nat) (s : Served) (post : Post) :
    (s.after mzCrc32 post).settings = s.settings.after mzCrc32 post := by
  cases post with
  | sources body =>
      have hconfig : ((postedSources mzCrc32 s.sources body).getD s.sources).map Held.config = _ :=
        postedSources_config s.sources body
      unfold Served.after Settings.after Vault.settings
      dsimp only
      rw [<- hconfig]
      cases postedSources mzCrc32 s.sources body with
      | none => rfl
      | some new => rfl
  | test body => rfl
  | settings body =>
      have hconfig := postedShares_config s.shares body
      unfold Served.after Settings.after Vault.settings
      dsimp only
      rw [<- hconfig]
      cases postedShares s.shares body with
      | none => rfl
      | some new => rfl
  | smb request body => rfl

end Secrets
end PkgManager
