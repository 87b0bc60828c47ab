import PkgManager.Smb.CleanTwice
import PkgManager.Smb.SettingsText

/-!
# Settings that are sent back

The browser sends back the settings that it got, without their passwords.  A share is stored as
it was when its texts come back whole and the password that is filled in is its own.
-/

namespace PkgManager
namespace Secrets

open CString
open PkgManager.Parser
open PkgManager.Smb
open PkgManager.Cache (NoControl)

/-- A share as it is stored: it is clean, and its texts fit in their arrays. -/
structure StoredShare (sh : SmbShare) : Prop where
  clean : smbClientSanitizeConfig sh = sh
  id : ZeroFree sh.id ∧ sh.id.length ≤ 31
  label : ZeroFree sh.label ∧ sh.label.length ≤ 63
  username : ZeroFree sh.username ∧ sh.username.length ≤ 63
  workgroup : ZeroFree sh.workgroup ∧ sh.workgroup.length ≤ 63
  port : sh.port < 2 ^ 31

section Clean

variable {sh : SmbShare}

theorem StoredShare.server_eq (h : StoredShare sh) : hostOf sh.server = sh.server := by
  have hserver := congrArg (fun x : SmbShare => x.server) h.clean
  rwa [sanitized_server] at hserver

theorem StoredShare.server (h : StoredShare sh) :
    ZeroFree sh.server ∧ sh.server.length ≤ 127 ∧ Slashless sh.server := by
  have hfits := hostOf_fits sh.server
  have hslash := hostOf_slashless sh.server
  rw [h.server_eq] at hfits hslash
  exact ⟨hfits.left, hfits.right, hslash⟩

theorem StoredShare.share (h : StoredShare sh) :
    ZeroFree sh.share ∧ sh.share.length ≤ 127 := by
  have hshare := congrArg (fun x : SmbShare => x.share) h.clean
  rw [sanitized_share, cleanShare] at hshare
  rw [<- hshare]
  exact ⟨zeroFree_copied 128 _, copied_length 128 _⟩

theorem StoredShare.path (h : StoredShare sh) : ZeroFree sh.path ∧ sh.path.length ≤ 255 := by
  have hpath := congrArg (fun x : SmbShare => x.path) h.clean
  rw [sanitized_path] at hpath
  rw [<- hpath]
  exact ⟨zeroFree_copied 256 _, copied_length 256 _⟩

theorem StoredShare.port_pos (h : StoredShare sh) : 0 < sh.port := by
  have hport := congrArg (fun x : SmbShare => x.port) h.clean
  rw [sanitized_port] at hport
  rw [<- hport]
  exact cleanPort_pos _ _

end Clean

/-!
# What cleaning keeps
-/

theorem cleanServer_sub (text : Text) : (cleanServer text).Sublist text := by
  have hscheme : (withoutScheme (text.dropWhile isBlank)).Sublist (text.dropWhile isBlank) := by
    unfold withoutScheme
    split
    · exact List.drop_sublist 6 _
    · exact List.Sublist.refl _
  exact (List.rdropWhile_prefix isEdge _).sublist.trans
    (((cString_starts _).trans (List.take_prefix _ _)).sublist.trans
      ((List.dropWhile_sublist _).trans (hscheme.trans (List.dropWhile_sublist _))))

theorem hostOf_sub (text : Text) : (hostOf text).Sublist text :=
  (hostOf_starts text).sublist.trans (cleanServer_sub text)

theorem copied_sub (size : Nat) (text : Text) : (copied size text).Sublist text :=
  ((cString_starts _).trans (List.take_prefix _ _)).sublist

theorem cleanShare_sub (text : Text) : (cleanShare text).Sublist text :=
  (copied_sub 128 _).trans ((List.rdropWhile_prefix isEdge _).sublist.trans
    ((copied_sub 128 _).trans (List.dropWhile_sublist _)))

theorem trimmedField_sub (text : Text) : (trimmedField text).Sublist text :=
  (List.rdropWhile_prefix isBlank _).sublist.trans (List.dropWhile_sublist _)

theorem collapsed_shorter (room : Nat) (behindSlash : Bool) (path : Text) :
    (collapsed room behindSlash path).length ≤ path.length := by
  induction path generalizing room behindSlash with
  | nil => exact Nat.le_refl 0
  | cons b rest ih =>
      cases room with
      | zero => exact Nat.zero_le _
      | succ room =>
          unfold collapsed
          dsimp only
          generalize (if b = backslash then 47 else b) = c
          split
          · exact (ih (room + 1) behindSlash).trans (Nat.le_succ _)
          · exact Nat.succ_le_succ (ih room _)

theorem cleanPath_shorter (path : Text) : (cleanPath path).length ≤ path.length :=
  (List.rdropWhile_prefix isEdge _).length_le.trans
    ((collapsed_shorter 255 false _).trans (List.dropWhile_sublist _).length_le)

theorem cleanPath_mem {path : Text} {b : UInt8} (h : b ∈ cleanPath path) : b = 47 ∨ b ∈ path :=
  (mem_collapsed ((List.rdropWhile_prefix isEdge _).subset h)).imp id
    (fun hmem => (List.dropWhile_sublist _).subset hmem)

/-- A text that comes back after cleaning came back whole. -/
theorem returned_of_sub {dstSz room : Nat} (hroom : 6 < dstSz) {src : Text} (hzero : ZeroFree src)
    {clean : Text -> Text} (hsub : forall t, (clean t).Sublist t)
    (h : clean (readEsc dstSz room src) = src) : Returned dstSz src :=
  returned_of_cleaned hroom hzero (fun t _ hb => Or.inr ((hsub t).subset hb))
    (fun t => (hsub t).length_le) h

/-- A group that is not given is the default one, which comes back whole. -/
theorem returned_workgroup {src : Text} (hzero : ZeroFree src)
    (h : cleanWorkgroup (readEsc 128 63 src) = src) : Returned 128 src := by
  unfold cleanWorkgroup at h
  split at h
  · rw [<- h]
    refine ⟨noControl_of_all rfl, ?_⟩
    unfold FitsEscaped
    decide
  · exact returned_of_sub (by decide) hzero trimmedField_sub h

/-!
# One share
-/

/-- A share whose names are given and whose texts come back whole. -/
structure Returns (sh : SmbShare) : Prop where
  named : sh.id ≠ [] ∧ sh.server ≠ [] ∧ sh.share ≠ []
  id : Returned 64 sh.id
  label : Returned 128 sh.label
  server : Returned 256 sh.server
  share : Returned 256 sh.share
  path : Returned 512 sh.path
  username : Returned 128 sh.username
  workgroup : Returned 128 sh.workgroup

/-- The share whose password is filled in for a share with a blank one. -/
def blankDonor (shares : List SmbShare) (sh : SmbShare) : Option SmbShare :=
  shares.find? (fun d => sameShare sh d && d.password != [])

def PasswordKept (shares : List SmbShare) (sh : SmbShare) : Prop :=
  forall d, blankDonor shares sh = some d -> d.password = sh.password

def withoutPassword (sh : SmbShare) : SmbShare :=
  { sh with password := [] }

theorem Returns.returnedShare {sh : SmbShare} (h : StoredShare sh) (hreturns : Returns sh) :
    returnedShare sh = withoutPassword sh := by
  have hid := readEsc_returned (by decide) h.id.left h.id.right hreturns.id
  have hlabel := readEsc_returned (by decide) h.label.left h.label.right hreturns.label
  have hserver := readEsc_returned (by decide) h.server.left h.server.right.left hreturns.server
  have hshare := readEsc_returned (by decide) h.share.left h.share.right hreturns.share
  have hpath := readEsc_returned (by decide) h.path.left h.path.right hreturns.path
  have husername := readEsc_returned (by decide) h.username.left h.username.right
    hreturns.username
  have hworkgroup := readEsc_returned (by decide) h.workgroup.left h.workgroup.right
    hreturns.workgroup
  unfold Smb.returnedShare
  rw [hid, hlabel, hserver, hshare, hpath, husername, hworkgroup]
  rfl

theorem Returns.accepted {sh : SmbShare} (h : StoredShare sh) (hreturns : Returns sh) :
    accepted (Smb.returnedShare sh) = true := by
  rw [hreturns.returnedShare h]
  have hserver : (withoutPassword sh).server ≠ [] := hreturns.named.right.left
  have hshare : (withoutPassword sh).share ≠ [] := hreturns.named.right.right
  unfold Smb.accepted
  rw [bne_iff_ne.mpr hserver, bne_iff_ne.mpr hshare]
  rfl

theorem sanitized_withoutPassword {sh : SmbShare} (h : smbClientSanitizeConfig sh = sh) :
    smbClientSanitizeConfig (withoutPassword sh) = withoutPassword sh := by
  have hsame : smbClientSanitizeConfig (withoutPassword sh) =
      withoutPassword (smbClientSanitizeConfig sh) := by
    unfold smbClientSanitizeConfig withoutPassword
    dsimp only
  rw [hsame, h]

theorem find_congr {α : Type} {p q : α -> Bool} {l : List α} (h : forall x, x ∈ l -> p x = q x) :
    l.find? p = l.find? q := by
  induction l with
  | nil => rfl
  | cons x rest ih =>
      rw [List.find?_cons, List.find?_cons, h x List.mem_cons_self,
        ih (fun y hy => h y (List.mem_cons_of_mem x hy))]

theorem settingsDonor_blank {shares : List SmbShare}
    (h : forall d, d ∈ shares -> StoredShare d) (sh : SmbShare) :
    settingsDonor (withoutPassword sh) shares = blankDonor shares sh := by
  have hblank : ¬(withoutPassword sh).password ≠ [] := fun h => h rfl
  unfold settingsDonor blankDonor
  rw [if_neg hblank]
  apply find_congr
  intro d hd
  rw [(h d hd).clean]
  rfl

theorem blankDonor_self {shares : List SmbShare} {sh : SmbShare} (hmem : sh ∈ shares)
    (hid : sh.id ≠ []) (hpassword : sh.password ≠ []) : blankDonor shares sh ≠ none := by
  unfold blankDonor
  rw [ne_eq, List.find?_eq_none]
  intro hnone
  apply hnone sh hmem
  rw [sameShare, sameShareId, bne_iff_ne.mpr hid, bne_iff_ne.mpr hpassword, beq_self_eq_true]
  rfl

/-- The password that is filled in is the one of the share itself. -/
theorem filled_eq_iff {shares : List SmbShare} {sh : SmbShare} (hmem : sh ∈ shares)
    (hid : sh.id ≠ []) :
    withSharePassword (withoutPassword sh) (blankDonor shares sh) = sh ↔
      PasswordKept shares sh := by
  unfold PasswordKept
  cases hdonor : blankDonor shares sh with
  | none =>
      have hblank : sh.password = [] := by
        by_contra hne
        exact blankDonor_self hmem hid hne hdonor
      constructor
      · intro _ d hd
        cases hd
      · intro _
        change withoutPassword sh = sh
        rw [withoutPassword, <- hblank]
  | some d =>
      have hfilled : withSharePassword (withoutPassword sh) (some d) =
          { sh with password := d.password } := rfl
      rw [hfilled]
      constructor
      · intro heq d' hd'
        cases hd'
        have hsame := congrArg SmbShare.password heq
        exact hsame
      · intro hkept
        rw [hkept d rfl]

/-!
# What is stored for it
-/

section Stored

variable (old : List SmbShare) (i : Nat) (x : SmbShare)

theorem withId_server : (withId i x).server = x.server := by
  unfold withId
  split <;> rfl

theorem withId_share : (withId i x).share = x.share := by
  unfold withId
  split <;> rfl

theorem withId_path : (withId i x).path = x.path := by
  unfold withId
  split <;> rfl

theorem withId_username : (withId i x).username = x.username := by
  unfold withId
  split <;> rfl

theorem withId_workgroup : (withId i x).workgroup = x.workgroup := by
  unfold withId
  split <;> rfl

theorem withSharePassword_config (c : SmbShare) (donor : Option SmbShare) :
    (withSharePassword c donor).toSmbShareConfig = c.toSmbShareConfig ∧
      (withSharePassword c donor).username = c.username ∧
        (withSharePassword c donor).workgroup = c.workgroup := by
  unfold withSharePassword
  split
  · exact ⟨rfl, rfl, rfl⟩
  · exact ⟨rfl, rfl, rfl⟩

theorem sanitized_labels (cfg : SmbShare) : (smbClientSanitizeConfig cfg).id = cfg.id ∧
    (smbClientSanitizeConfig cfg).label = cfg.label := by
  unfold smbClientSanitizeConfig
  dsimp only
  exact ⟨rfl, rfl⟩

theorem settingsShare_id : (settingsShare old (withId i x)).id = (withId i x).id := by
  have hconfig := congrArg Scanner.SmbShareConfig.id (withSharePassword_config
    (smbClientSanitizeConfig (withId i x))
    (settingsDonor (smbClientSanitizeConfig (withId i x)) old)).left
  rw [<- (sanitized_labels (withId i x)).left]
  exact hconfig

theorem withId_label : (withId i x).label = x.label := by
  unfold withId
  split <;> rfl

theorem settingsShare_label : (settingsShare old (withId i x)).label = x.label := by
  have hconfig := congrArg Scanner.SmbShareConfig.label (withSharePassword_config
    (smbClientSanitizeConfig (withId i x))
    (settingsDonor (smbClientSanitizeConfig (withId i x)) old)).left
  rw [<- withId_label i x, <- (sanitized_labels (withId i x)).right]
  exact hconfig

theorem settingsShare_server : (settingsShare old (withId i x)).server = hostOf x.server := by
  have hconfig := congrArg Scanner.SmbShareConfig.server (withSharePassword_config
    (smbClientSanitizeConfig (withId i x))
    (settingsDonor (smbClientSanitizeConfig (withId i x)) old)).left
  rw [<- withId_server i x, <- sanitized_server (withId i x)]
  exact hconfig

theorem settingsShare_share : (settingsShare old (withId i x)).share =
    cleanShare (if x.share = [] then extractedShare (cleanServer x.server) else x.share) := by
  have hconfig := congrArg Scanner.SmbShareConfig.share (withSharePassword_config
    (smbClientSanitizeConfig (withId i x))
    (settingsDonor (smbClientSanitizeConfig (withId i x)) old)).left
  rw [<- withId_server i x, <- withId_share i x, <- sanitized_share (withId i x)]
  exact hconfig

theorem settingsShare_path : (settingsShare old (withId i x)).path =
    copied 256 (joinedPath (cleanPath (extractedSubpath (cleanServer x.server)))
      (cleanPath x.path)) := by
  have hconfig := congrArg Scanner.SmbShareConfig.path (withSharePassword_config
    (smbClientSanitizeConfig (withId i x))
    (settingsDonor (smbClientSanitizeConfig (withId i x)) old)).left
  rw [<- withId_server i x, <- withId_path i x, <- sanitized_path (withId i x)]
  exact hconfig

theorem settingsShare_username :
    (settingsShare old (withId i x)).username = trimmedField x.username := by
  have hconfig := (withSharePassword_config (smbClientSanitizeConfig (withId i x))
    (settingsDonor (smbClientSanitizeConfig (withId i x)) old)).right.left
  rw [<- withId_username i x, <- sanitized_username (withId i x)]
  exact hconfig

theorem settingsShare_workgroup :
    (settingsShare old (withId i x)).workgroup = cleanWorkgroup x.workgroup := by
  have hconfig := (withSharePassword_config (smbClientSanitizeConfig (withId i x))
    (settingsDonor (smbClientSanitizeConfig (withId i x)) old)).right.right
  rw [<- withId_workgroup i x, <- sanitized_workgroup (withId i x)]
  exact hconfig

end Stored

theorem readEsc_nil (dstSz room : Nat) : readEsc dstSz room [] = [] :=
  List.take_nil

/-- An id that is stored again was given and came back whole. -/
theorem returned_id {sh : SmbShare} (hzero : ZeroFree sh.id) {i : Nat} {x : SmbShare}
    (hx : x.id = readEsc 64 31 sh.id) (h : (withId i x).id = sh.id) :
    sh.id ≠ [] ∧ Returned 64 sh.id := by
  unfold withId at h
  split at h
  · rename_i hnil
    exfalso
    have hgiven : sh.id ≠ [] := by
      rw [<- h]
      exact fun heq => by cases heq
    cases hid : sh.id with
    | nil => exact hgiven hid
    | cons c rest =>
        rw [hnil, hid] at hx
        have hkept : kept 64 (c :: rest) = c :: keptFrom 64 (escapePiece c).length rest := by
          have hc : c ≠ 0 := hzero c (hid ▸ List.mem_cons_self)
          have hgo : ¬(c = 0 ∨ 64 ≤ 0 + 6) := not_or.mpr ⟨hc, by decide⟩
          rw [kept, keptFrom, if_neg hgo, Nat.zero_add]
        rw [readEsc, keptPieces, hkept, List.map_cons, JsonText.bare_cons] at hx
        cases hpiece : (escapedPiece c).bare with
        | nil =>
            cases hp : escapedPiece c <;> rw [hp] at hpiece <;> cases hpiece
        | cons b more =>
            rw [hpiece] at hx
            cases hx
  · rename_i hne
    rw [hx] at h hne
    constructor
    · rintro hnil
      rw [hnil, readEsc_nil] at hne
      exact hne rfl
    · exact returned_of_same (by decide) hzero h

theorem given_share (share : Text) : (if share = [] then [] else share) = share := by
  split
  · rename_i hnil
    rw [hnil]
  · rfl

def storedPath (path : Text) : Text :=
  copied 256 (cleanPath path)

theorem returned_path {src : Text} (hzero : ZeroFree src)
    (h : copied 256 (joinedPath (cleanPath []) (cleanPath (readEsc 512 255 src))) = src) :
    Returned 512 src := by
  have hjoined : forall path : Text, joinedPath (cleanPath []) path = path := fun _ => rfl
  rw [hjoined] at h
  have hstored : storedPath (readEsc 512 255 src) = src := h
  apply returned_of_cleaned (by decide) hzero (fun t b hb => ?_) (fun t => ?_) hstored
  · exact cleanPath_mem ((copied_sub 256 _).subset hb)
  · exact (copied_sub 256 _).length_le.trans (cleanPath_shorter t)

/-- A clean share that is taken has a server and a name. -/
theorem names_given {sh : SmbShare} (h : StoredShare sh)
    (hserver : (returnedShare sh).server = sh.server)
    (hshare : (returnedShare sh).share = sh.share) (htaken : accepted (returnedShare sh) = true) :
    sh.server ≠ [] ∧ sh.share ≠ [] := by
  have hslash : forall b, isSlash b = true -> sh.server.contains b = false := by
    intro b hb
    rw [List.contains_eq_mem, decide_eq_false_iff_not]
    intro hmem
    rw [h.server.right.right b hmem] at hb
    cases hb
  rw [accepted, hserver, hshare, hslash 47 rfl, hslash backslash rfl, Bool.or_false, Bool.or_false,
    Bool.and_eq_true, bne_iff_ne, bne_iff_ne] at htaken
  exact htaken

/-- What is stored for a share that came back whole. -/
theorem settingsShare_returned {old : List SmbShare}
    (hold : forall d, d ∈ old -> StoredShare d) {sh : SmbShare} (hmem : sh ∈ old)
    (hreturns : Returns sh) (i : Nat) :
    settingsShare old (withId i (returnedShare sh)) =
      withSharePassword (withoutPassword sh) (blankDonor old sh) := by
  have hsame : withId i (withoutPassword sh) = withoutPassword sh :=
    if_neg hreturns.named.left
  unfold settingsShare
  dsimp only
  rw [hreturns.returnedShare (hold sh hmem), hsame, sanitized_withoutPassword (hold sh hmem).clean,
    settingsDonor_blank hold]

/-- What is stored for a share that was taken is the share exactly when it came back whole with
its password. -/
theorem settingsShare_eq_iff {old : List SmbShare} (hold : forall d, d ∈ old -> StoredShare d)
    {sh : SmbShare} (hmem : sh ∈ old) (htaken : accepted (returnedShare sh) = true) (i : Nat) :
    settingsShare old (withId i (returnedShare sh)) = sh ↔
      Returns sh ∧ PasswordKept old sh := by
  have h := hold sh hmem
  constructor
  · intro heq
    have hid := settingsShare_id old i (returnedShare sh)
    have hlabel := settingsShare_label old i (returnedShare sh)
    have hserver := settingsShare_server old i (returnedShare sh)
    have hshare := settingsShare_share old i (returnedShare sh)
    have hpath := settingsShare_path old i (returnedShare sh)
    have husername := settingsShare_username old i (returnedShare sh)
    have hworkgroup := settingsShare_workgroup old i (returnedShare sh)
    rw [heq] at hid hlabel hserver hshare hpath husername hworkgroup
    rcases returned_id (x := returnedShare sh) h.id.left rfl hid.symm with ⟨hgiven, hidReturned⟩
    have hserverReturned : Returned 256 sh.server :=
      returned_of_sub (by decide) h.server.left hostOf_sub hserver.symm
    have hserverSame : (returnedShare sh).server = sh.server :=
      readEsc_returned (by decide) h.server.left h.server.right.left hserverReturned
    have hclean : Slashless (cleanServer sh.server) :=
      h.server.right.right.sub (cleanServer_sub sh.server)
    rw [hserverSame, (nothing_extracted hclean).left] at hshare
    rw [hserverSame, (nothing_extracted hclean).right] at hpath
    rw [given_share] at hshare
    have hshareReturned : Returned 256 sh.share :=
      returned_of_sub (by decide) h.share.left cleanShare_sub hshare.symm
    have hshareSame : (returnedShare sh).share = sh.share :=
      readEsc_returned (by decide) h.share.left h.share.right hshareReturned
    have hreturns : Returns sh :=
      { named := ⟨hgiven, names_given h hserverSame hshareSame htaken⟩
        id := hidReturned
        label := returned_of_same (by decide) h.label.left hlabel.symm
        server := hserverReturned
        share := hshareReturned
        path := returned_path h.path.left hpath.symm
        username := returned_of_sub (by decide) h.username.left trimmedField_sub husername.symm
        workgroup := returned_workgroup h.workgroup.left hworkgroup.symm }
    refine ⟨hreturns, ?_⟩
    rw [settingsShare_returned hold hmem hreturns, filled_eq_iff hmem hgiven] at heq
    exact heq
  · rintro ⟨hreturns, hkept⟩
    rw [settingsShare_returned hold hmem hreturns, filled_eq_iff hmem hreturns.named.left]
    exact hkept

/-!
# All shares
-/

theorem acceptedItem_members {sh : SmbShare} (h : StoredShare sh) :
    acceptedItem (itemText tight (shareMembers sh)) = accepted (returnedShare sh) := by
  rw [acceptedItem, shareOfItem_members h.port_pos h.port]

theorem postShares_body {s : AppSettings} (h : forall sh, sh ∈ s.shares -> StoredShare sh) :
    postShares s.shares (some (settingsBody s)) =
      (parsedShares (settingsBody s)).map (settingsShare s.shares) := by
  have hports : forall sh, sh ∈ s.shares -> 0 < sh.port := fun sh hsh => (h sh hsh).port_pos
  rcases settingsBody_split s with ⟨room, _, hbody⟩
  have hne : quoted "smb_shares" ≠ [] := List.cons_ne_nil _ _
  rcases strstr_finds hne (zeroFree_settingsFlags s) (ascii ":" ++
    91 :: ((sharesJson s.shares).done ++ ((sharesJson s.shares).rest ++ [93, 125]).take room)) with
    ⟨found, hfound, _⟩
  rw [<- hbody] at hfound
  have hgiven : ¬(strstr (quoted "smb_shares") (settingsBody s)).isNone = true := by
    rw [hfound]
    exact Bool.false_ne_true
  unfold postShares
  dsimp only [Option.getD_some]
  rw [cString_of_zeroFree (zeroFree_settingsBody hports), if_neg hgiven]

/-- With room for all shares, each is read again. -/
theorem post_fitting {s : AppSettings} (hlen : s.shares.length ≤ maxSmbShares)
    (h : forall sh, sh ∈ s.shares -> StoredShare sh)
    (hroom : (itemsText s.shares).length < sharesJsonSize) :
    postShares s.shares (some (settingsBody s)) =
      (s.shares.filter (fun sh => accepted (returnedShare sh))).mapIdx
        (fun i sh => settingsShare s.shares (withId i (returnedShare sh))) := by
  have hobjects := settingsBody_fitting (fun sh hsh => (h sh hsh).port_pos) hroom
  have hfilter : (s.shares.map (fun sh => itemText tight (shareMembers sh))).filter acceptedItem =
      (s.shares.filter (fun sh => accepted (returnedShare sh))).map
        (fun sh => itemText tight (shareMembers sh)) := by
    rw [List.filter_map]
    congr 1
    apply List.filter_congr
    intro sh hsh
    exact acceptedItem_members (h sh hsh)
  rw [postShares_body h, parsedShares_eq hobjects (by rwa [List.length_map]), hfilter]
  apply List.ext_getElem?
  intro i
  rw [List.getElem?_map, List.getElem?_mapIdx, List.getElem?_mapIdx, List.getElem?_map,
    Option.map_map, Option.map_map]
  cases hi : (s.shares.filter (fun sh => accepted (returnedShare sh)))[i]? with
  | none => rfl
  | some sh =>
      have hsh := h sh (List.mem_of_mem_filter (List.mem_of_getElem? hi))
      simp only [Option.map_some, Function.comp_apply]
      rw [shareOfItem_members hsh.port_pos hsh.port]

theorem post_missing {s : AppSettings} (hlen : s.shares.length ≤ maxSmbShares)
    (h : forall sh, sh ∈ s.shares -> StoredShare sh)
    (hlong : sharesJsonSize ≤ (itemsText s.shares).length) :
    (postShares s.shares (some (settingsBody s))).length < s.shares.length := by
  have hmissing := settingsBody_missing (fun sh hsh => (h sh hsh).port_pos) hlong
  have hparsed := parsedShares_eq (rfl : shareObjects (settingsBody s) = _) (by omega)
  rw [postShares_body h, List.length_map, hparsed, List.length_mapIdx]
  exact (List.length_filter_le _ _).trans_lt hmissing

/-- What is sent back is what is stored: there is room for all shares, each comes back whole, and
the passwords that are filled in are their own. -/
structure SentBack (shares : List SmbShare) : Prop where
  room : (itemsText shares).length < sharesJsonSize
  returns : forall sh, sh ∈ shares -> Returns sh
  passwords : forall sh, sh ∈ shares -> PasswordKept shares sh

theorem settings_sent_back_iff {s : AppSettings} (hlen : s.shares.length ≤ maxSmbShares)
    (h : forall sh, sh ∈ s.shares -> StoredShare sh) :
    postShares s.shares (some (settingsBody s)) = s.shares ↔ SentBack s.shares := by
  constructor
  · intro hsame
    have hroom : (itemsText s.shares).length < sharesJsonSize := by
      by_contra hlong
      have hshort := post_missing hlen h (Nat.le_of_not_lt hlong)
      rw [hsame] at hshort
      exact Nat.lt_irrefl _ hshort
    rw [post_fitting hlen h hroom] at hsame
    have hcount := congrArg List.length hsame
    rw [List.length_mapIdx] at hcount
    have hall := List.filter_eq_self.mpr (List.length_filter_eq_length_iff.mp hcount)
    have htaken := List.length_filter_eq_length_iff.mp hcount
    rw [hall] at hsame
    have hkept : forall sh, sh ∈ s.shares -> Returns sh ∧ PasswordKept s.shares sh := by
      intro sh hsh
      rcases List.getElem?_of_mem hsh with ⟨i, hi⟩
      have hat := congrArg (fun l : List SmbShare => l[i]?) hsame
      rw [List.getElem?_mapIdx, hi, Option.map_some, Option.some.injEq] at hat
      exact (settingsShare_eq_iff h hsh (htaken sh hsh) i).mp hat
    exact ⟨hroom, fun sh hsh => (hkept sh hsh).left, fun sh hsh => (hkept sh hsh).right⟩
  · rintro ⟨hroom, hreturns, hpasswords⟩
    have htaken : forall sh, sh ∈ s.shares -> accepted (returnedShare sh) = true :=
      fun sh hsh => (hreturns sh hsh).accepted (h sh hsh)
    rw [post_fitting hlen h hroom, List.filter_eq_self.mpr htaken]
    apply List.ext_getElem?
    intro i
    rw [List.getElem?_mapIdx]
    cases hi : s.shares[i]? with
    | none => rfl
    | some sh =>
        have hsh := List.mem_of_getElem? hi
        rw [Option.map_some, Option.some.injEq, settingsShare_eq_iff h hsh (htaken sh hsh) i]
        exact ⟨hreturns sh hsh, hpasswords sh hsh⟩

/-!
# Two shares
-/

theorem room_of_few {shares : List SmbShare} (hlen : shares.length ≤ 4)
    (h : forall sh, sh ∈ shares -> StoredShare sh) :
    (itemsText shares).length < sharesJsonSize := by
  have hitem : forall item, item ∈ shares.mapIdx settingsItem -> item.length ≤ 1800 := by
    intro item hitem
    rcases List.mem_mapIdx.mp hitem with ⟨i, hi, rfl⟩
    have hsh := h _ (List.getElem_mem hi)
    have hpos := hsh.port_pos
    exact settingsItem_length (by omega) hsh.port i
  have hsum := flatten_length_le hitem
  rw [List.length_mapIdx] at hsum
  change (shares.mapIdx settingsItem).flatten.length < 8192
  omega

/-- A share that needs no password. -/
def openShare : SmbShare :=
  { blankShare with
    id := ascii "a", server := ascii "nas", share := ascii "media", workgroup := ascii "HOME" }

/-- The same share on another drive, with a password. -/
def lockedShare : SmbShare :=
  { openShare with id := ascii "b", password := ascii "secret" }

def settingsOf (shares : List SmbShare) : AppSettings where
  moveInstalledToEnd := true
  fadeInstalledPackages := true
  allSourcesMode := false
  pkgInstallDebug := false
  allowPs4OnPs5 := true
  shares := shares

theorem openShare_stored : StoredShare openShare where
  clean := by decide
  id := ⟨zeroFree_of_all rfl, by decide⟩
  label := ⟨zeroFree_of_all rfl, by decide⟩
  username := ⟨zeroFree_of_all rfl, by decide⟩
  workgroup := ⟨zeroFree_of_all rfl, by decide⟩
  port := by decide

theorem lockedShare_stored : StoredShare lockedShare where
  clean := by decide
  id := ⟨zeroFree_of_all rfl, by decide⟩
  label := ⟨zeroFree_of_all rfl, by decide⟩
  username := ⟨zeroFree_of_all rfl, by decide⟩
  workgroup := ⟨zeroFree_of_all rfl, by decide⟩
  port := by decide

theorem lockedShare_alone :
    postShares [lockedShare] (some (settingsBody (settingsOf [lockedShare]))) = [lockedShare] := by
  have hstored : forall sh, sh ∈ [lockedShare] -> StoredShare sh := by
    intro sh hsh
    rw [List.mem_singleton.mp hsh]
    exact lockedShare_stored
  have hone : forall p : SmbShare -> Prop, p lockedShare -> forall sh, sh ∈ [lockedShare] -> p sh := by
    intro p hp sh hsh
    rw [List.mem_singleton.mp hsh]
    exact hp
  have hreturned : forall (dstSz : Nat) (src : Text), NoControl src ->
      (src.dropLast.flatMap escapePiece).length + 6 < dstSz -> Returned dstSz src :=
    fun dstSz src hplain hfits => ⟨hplain, hfits⟩
  apply (settings_sent_back_iff (s := settingsOf [lockedShare]) (by decide) hstored).mpr
  refine ⟨room_of_few (by decide) hstored, hone Returns ?_, hone (PasswordKept [lockedShare]) ?_⟩
  · exact
      { named := by decide
        id := hreturned _ _ (noControl_of_all rfl) (by decide)
        label := hreturned _ _ (noControl_of_all rfl) (by decide)
        server := hreturned _ _ (noControl_of_all rfl) (by decide)
        share := hreturned _ _ (noControl_of_all rfl) (by decide)
        path := hreturned _ _ (noControl_of_all rfl) (by decide)
        username := hreturned _ _ (noControl_of_all rfl) (by decide)
        workgroup := hreturned _ _ (noControl_of_all rfl) (by decide) }
  · intro d hd
    rw [List.mem_singleton.mp (List.mem_of_find?_eq_some hd)]

/-- The password of the second share is filled in for the first. -/
theorem password_spreads :
    (forall sh, sh ∈ [openShare, lockedShare] -> StoredShare sh) ∧ openShare.id ≠ lockedShare.id ∧
      postShares [openShare, lockedShare]
          (some (settingsBody (settingsOf [openShare, lockedShare]))) ≠
        [openShare, lockedShare] := by
  have hstored : forall sh, sh ∈ [openShare, lockedShare] -> StoredShare sh := by
    intro sh hsh
    rcases List.mem_pair.mp hsh with rfl | rfl
    · exact openShare_stored
    · exact lockedShare_stored
  refine ⟨hstored, by decide, ?_⟩
  have hpost := post_fitting (s := settingsOf [openShare, lockedShare]) (by decide) hstored
    (room_of_few (by decide) hstored)
  intro hsame
  have hfirst := congrArg (fun l => l.head?.map SmbShare.password) (hpost.symm.trans hsame)
  revert hfirst
  decide

end Secrets
end PkgManager
