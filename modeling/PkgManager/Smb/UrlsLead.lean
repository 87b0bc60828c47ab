import PkgManager.Scanner.Catalog
import PkgManager.Smb.Urls

/-!
# Addresses lead back to their files

An address leads back to its file when nothing in its parts is taken for a separator, the
path fits into the buffer for it and no other stored share comes first.
-/

namespace PkgManager
namespace Smb

open CString
open PkgManager.Parser
open PkgManager.Scanner (strcasecmp strcmp_self)

/-!
# The way back
-/

/-- Opening the address leads to the file: its parts and the configuration that is found are
those of the scan. -/
def LeadsBack (shares : List SmbShare) (cfg : SmbShare) (call : PkgCall) : Prop :=
  parsedUrl call.url = some
      { server := cfg.server
        port := cfg.port
        share := cfg.share
        path := fullPath call.dir call.name } ∧
    exists c, smbClientFindShareCfg shares call.url = some c ∧
      (smbClientSanitizeConfig c).server = cfg.server ∧
      (smbClientSanitizeConfig c).port = cfg.port ∧
      (smbClientSanitizeConfig c).share = cfg.share

/-- A stored share that is taken for the share of the scan. -/
def TakenFor (cfg d : SmbShare) : Prop :=
  (strcasecmp (smbClientSanitizeConfig d).server cfg.server = 0 ∧
      strcasecmp (smbClientSanitizeConfig d).share cfg.share = 0) ∨
    strcasecmp d.id cfg.server = 0

/-- No enabled share in front of the first one with this place is taken for it. -/
def FirstOfPlace (shares : List SmbShare) (cfg : SmbShare) : Prop :=
  exists front c back, shares.filter (fun c => c.enabled) = front ++ c :: back ∧
    (smbClientSanitizeConfig c).server = cfg.server ∧
    (smbClientSanitizeConfig c).port = cfg.port ∧
    (smbClientSanitizeConfig c).share = cfg.share ∧
    forall d, d ∈ front -> ¬ TakenFor cfg d

structure PlainPlace (shares : List SmbShare) (cfg : SmbShare) (call : PkgCall) : Prop where
  server : (58 : UInt8) ∉ cfg.server
  share : (47 : UInt8) ∉ cfg.share
  short : (fullPath call.dir call.name).length < 256
  relative : (fullPath call.dir call.name).head? ≠ some 47
  first : FirstOfPlace shares cfg

theorem takenFor_of_same {cfg d : SmbShare}
    (hserver : (smbClientSanitizeConfig d).server = cfg.server)
    (hshare : (smbClientSanitizeConfig d).share = cfg.share) : TakenFor cfg d := by
  rw [TakenFor, hserver, hshare]
  exact Or.inl ⟨strcmp_self _, strcmp_self _⟩

theorem matchesUrl_iff {u : SmbUrl} {cfg : SmbShare} (hserver : u.server = cfg.server)
    (hshare : u.share = cfg.share) (d : SmbShare) : matchesUrl u d = true ↔ TakenFor cfg d := by
  unfold matchesUrl TakenFor
  rw [hserver, hshare]
  simp [smbClientSanitizeConfig]

/-- The lookup takes the first stored share that is taken for the one in the address. -/
theorem findShareCfg_iff {shares : List SmbShare} {scanned cfg : SmbShare}
    (hcfg : smbClientSanitizeConfig scanned = cfg) (hmem : scanned ∈ shares)
    (henabled : scanned.enabled = true) {url : Text} {u : SmbUrl}
    (hparsed : parsedUrl url = some u) (hserver : u.server = cfg.server)
    (hshare : u.share = cfg.share) :
    (exists c, smbClientFindShareCfg shares url = some c ∧
      (smbClientSanitizeConfig c).server = cfg.server ∧
      (smbClientSanitizeConfig c).port = cfg.port ∧
      (smbClientSanitizeConfig c).share = cfg.share) ↔ FirstOfPlace shares cfg := by
  have hfilter : scanned ∈ shares.filter (fun c => c.enabled) :=
    List.mem_filter.mpr ⟨hmem, henabled⟩
  have htaken : matchesUrl u scanned = true := by
    apply (matchesUrl_iff hserver hshare scanned).mpr
    apply takenFor_of_same
    · rw [hcfg]
    · rw [hcfg]
  have hsome : ((shares.filter (fun c => c.enabled)).find? (matchesUrl u)).isSome :=
    List.find?_isSome.mpr ⟨scanned, hfilter, htaken⟩
  rcases Option.isSome_iff_exists.mp hsome with ⟨found, hfound⟩
  have hcfg : smbClientFindShareCfg shares url = some found := by
    unfold smbClientFindShareCfg
    rw [hparsed, Option.map_some, hfound, Option.getD_some]
  rcases List.find?_eq_some_iff_append.mp hfound with ⟨hmatch, front, back, hsplit, hfront⟩
  constructor
  · intro h
    rcases h with ⟨c, hc, hplace⟩
    cases hcfg.symm.trans hc
    refine ⟨front, found, back, hsplit, hplace.1, hplace.2.1, hplace.2.2, ?_⟩
    intro d hd htakenFor
    have hd' := hfront d hd
    rw [(matchesUrl_iff hserver hshare d).mpr htakenFor] at hd'
    exact absurd hd' (by decide)
  · intro h
    rcases h with ⟨front', c, back', hsplit', hs, hp, hsh, hnone⟩
    have hc : (shares.filter (fun c => c.enabled)).find? (matchesUrl u) = some c := by
      apply List.find?_eq_some_iff_append.mpr
      refine ⟨(matchesUrl_iff hserver hshare c).mpr (takenFor_of_same hs hsh), front', back',
        hsplit', ?_⟩
      intro d hd
      rw [Bool.not_eq_true', Bool.eq_false_iff]
      exact fun hm => hnone d hd ((matchesUrl_iff hserver hshare d).mp hm)
    cases hfound.symm.trans hc
    exact ⟨found, hcfg, hs, hp, hsh⟩

/-!
# The calls of a scan
-/

theorem scanEntries_calls {P : PkgCall -> Prop} {cfg : SmbShare} {skipUnreadable : Bool}
    {descend : Text -> ShareScan} {dir : Text}
    (hdescend : forall ent : ShareEntry, forall call,
      call ∈ (descend (childPath dir ent.name)).calls -> P call)
    (hfile : forall ent, P (pkgCall cfg dir ent)) (count : Nat) (ents : List ShareEntry) :
    forall call, call ∈ (scanEntries cfg skipUnreadable descend dir count ents).calls -> P call := by
  induction ents generalizing count with
  | nil => exact fun call hcall => absurd hcall List.not_mem_nil
  | cons ent rest ih =>
      have hbehind : forall calls count, (forall call, call ∈ calls -> P call) -> forall call,
          call ∈ ((scanEntries cfg skipUnreadable descend dir count rest).behind calls).calls ->
            P call := by
        intro calls count hcalls call hcall
        rcases List.mem_append.mp hcall with hfront | hback
        · exact hcalls call hfront
        · exact ih count call hback
      unfold scanEntries
      split
      · exact ih count
      · split
        · dsimp only
          split
          · split
            · exact hbehind _ _ (hdescend ent)
            · exact hdescend ent
          · exact hbehind _ _ (hdescend ent)
        · split
          · apply hbehind
            intro call hcall
            rw [List.mem_singleton.mp hcall]
            exact hfile ent
          · exact ih count
        · exact ih count

/-- Every call is for an entry of a directory that was open. -/
theorem scanSmbDir_calls {opendir : Text -> Option (List ShareEntry)} {cfg : SmbShare}
    {skipUnreadable : Bool} {levels : Nat} {subDir : Text} (hzero : ZeroFree subDir) :
    forall call, call ∈ (scanSmbDir opendir cfg skipUnreadable levels subDir).calls ->
      exists dir ent, ZeroFree dir ∧ call = pkgCall cfg dir ent := by
  induction levels generalizing subDir with
  | zero => exact fun call hcall => absurd hcall List.not_mem_nil
  | succ levels ih =>
      have hdir : ZeroFree (subDir.dropWhile (fun b => b == 47)) :=
        fun b hb => hzero b ((List.dropWhile_suffix _).mem hb)
      unfold scanSmbDir
      dsimp only
      split
      · exact fun call hcall => absurd hcall List.not_mem_nil
      · apply scanEntries_calls
        · intro ent
          exact ih (zeroFree_copied _ _)
        · intro ent
          exact ⟨_, ent, hdir, rfl⟩

theorem zeroFree_fullPath {dir name : Text} (hdir : ZeroFree dir) (hname : ZeroFree name) :
    ZeroFree (fullPath dir name) := by
  unfold fullPath
  split
  · exact zeroFree_append (zeroFree_append hdir (zeroFree_of_all rfl)) hname
  · exact hname

theorem dropWhile_slash_head (text : Text) :
    (text.dropWhile (fun b => b == 47)).head? ≠ some 47 := by
  induction text with
  | nil => exact fun h => by cases h
  | cons b rest ih =>
      rw [List.dropWhile_cons]
      split
      · exact ih
      · rename_i hb
        rw [List.head?_cons]
        intro h
        exact hb (beq_iff_eq.mpr (Option.some.inj h))

theorem dropWhile_slash_self {text : Text} (h : text.head? ≠ some 47) :
    text.dropWhile (fun b => b == 47) = text := by
  cases text with
  | nil => rfl
  | cons b rest =>
      apply List.dropWhile_cons_of_neg
      intro hb
      exact h (congrArg some (beq_iff_eq.mp hb))

theorem copied_head {size : Nat} {text : Text} {b : UInt8}
    (h : (copied size text).head? = some b) : text.head? = some b := by
  rcases (cString_starts _).trans (List.take_prefix (size - 1) text) with ⟨back, hback⟩
  rw [<- hback, List.head?_append]
  unfold copied at h
  rw [h, Option.some_or]

/-- The path in an address is whole exactly when it fits and does not start with a slash. -/
theorem path_iff {share full : Text} (hzero : ZeroFree full) (hshare : (47 : UInt8) ∉ share) :
    copied 256 (((share ++ 47 :: copied 512 full).dropWhile notPathSlash).dropWhile
        (fun b => b == 47)) = full ↔ full.length < 256 ∧ full.head? ≠ some 47 := by
  have hcut : (share ++ 47 :: copied 512 full).dropWhile notPathSlash = 47 :: copied 512 full :=
    dropWhile_separator hshare _
  have hslash : (47 :: copied 512 full).dropWhile (fun b => b == 47) =
      (copied 512 full).dropWhile (fun b => b == 47) := rfl
  rw [hcut, hslash]
  constructor
  · intro h
    constructor
    · rw [<- h]
      exact Nat.lt_succ_of_le (copied_length _ _)
    · intro hhead
      rw [<- h] at hhead
      exact dropWhile_slash_head _ (copied_head hhead)
  · intro h
    have hwhole : copied 512 full = full := copied_whole hzero (by omega)
    rw [hwhole, dropWhile_slash_self h.2]
    exact copied_whole hzero (Nat.le_of_lt_succ h.1)

theorem leadsBack_pkgCall_iff {shares : List SmbShare} {scanned cfg : SmbShare}
    (hcfg : smbClientSanitizeConfig scanned = cfg) (hclean : Clean cfg) (hmem : scanned ∈ shares)
    (henabled : scanned.enabled = true) {dir : Text} (hdir : ZeroFree dir) (ent : ShareEntry) :
    LeadsBack shares cfg (pkgCall cfg dir ent) ↔ PlainPlace shares cfg (pkgCall cfg dir ent) := by
  have hzero := zeroFree_fullPath hdir ent.zeroFree
  have hparsed : parsedUrl (pkgCall cfg dir ent).url = _ :=
    parsedUrl_eq hclean (zeroFree_copied _ _) (copied_length 512 (fullPath dir ent.name))
  constructor
  · intro h
    rcases h with ⟨hparts, hfound⟩
    have hall := Option.some.inj (hparsed.symm.trans hparts)
    rw [SmbUrl.mk.injEq] at hall
    rcases hall with ⟨hserver, _, hshare, hpath⟩
    have hslash := takeWhile_ne_self_iff.mp hshare
    have hfit := (path_iff hzero hslash).mp hpath
    exact
      { server := takeWhile_ne_self_iff.mp hserver
        share := hslash
        short := hfit.1
        relative := hfit.2
        first := (findShareCfg_iff hcfg hmem henabled hparts rfl rfl).mp hfound }
  · intro h
    have hparts : parsedUrl (pkgCall cfg dir ent).url = some
        { server := cfg.server
          port := cfg.port
          share := cfg.share
          path := fullPath dir ent.name } := by
      rw [hparsed, urlPort_hostText hclean h.server]
      congr 2
      · exact takeWhile_ne_self_iff.mpr h.server
      · exact takeWhile_ne_self_iff.mpr h.share
      · exact (path_iff hzero h.share).mpr ⟨h.short, h.relative⟩
    exact ⟨hparts, (findShareCfg_iff hcfg hmem henabled hparts rfl rfl).mpr h.first⟩

/-!
# Stored shares
-/

theorem shareOfItem_port (item : Text) : (shareOfItem item).port < 2 ^ 31 :=
  portField_lt item

theorem withId_port (count : Nat) (share : SmbShare) : (withId count share).port = share.port := by
  unfold withId
  split <;> rfl

theorem parseSmbShares_ports (buf : Text) :
    forall w, w ∈ (parseSmbShares buf).writes -> w.2.port < 2 ^ 31 := by
  unfold parseSmbShares
  have hfold : forall (items : List Text) (out : Parsed),
      (forall w, w ∈ out.writes -> w.2.port < 2 ^ 31) ->
        forall w, w ∈ (items.foldl storeObject out).writes -> w.2.port < 2 ^ 31 := by
    intro items
    induction items with
    | nil => exact fun out hout => hout
    | cons item rest ih =>
        intro out hout
        apply ih
        unfold storeObject
        dsimp only
        split
        · split
          · intro w hw
            rcases List.mem_append.mp hw with hold | hnew
            · exact hout w hold
            · rw [List.mem_singleton.mp hnew, withId_port]
              exact shareOfItem_port item
          · intro w hw
            rcases List.mem_append.mp hw with hold | hnew
            · exact hout w hold
            · rw [List.mem_singleton.mp hnew]
              exact shareOfItem_port item
        · exact hout
  exact hfold _ _ (fun w hw => absurd hw List.not_mem_nil)

theorem storedShares_port {buf : Text} {saved : Bool} {share : SmbShare}
    (h : share ∈ storedShares buf saved) : share.port < 2 ^ 31 := by
  have hparsed : forall c, c ∈ (List.range (parseSmbShares buf).count).filterMap
      (parseSmbShares buf).element -> c.port < 2 ^ 31 := by
    intro c hc
    rcases List.mem_filterMap.mp hc with ⟨i, _, hi⟩
    rcases Option.map_eq_some_iff.mp hi with ⟨w, hw, rfl⟩
    exact parseSmbShares_ports buf w (List.mem_reverse.mp (List.mem_of_find?_eq_some hw))
  unfold storedShares at h
  dsimp only at h
  split at h
  · rcases List.mem_map.mp h with ⟨c, hc, rfl⟩
    exact (sanitized_port_bounds (hparsed c hc)).2
  · exact hparsed share h

/-- The address of a file that a scan finds leads back to the file exactly when its parts are
free of separators, its path fits and no other share comes first. -/
theorem url_leads_back_iff {buf : Text} {saved : Bool} {scanned : SmbShare}
    (hstored : scanned ∈ storedShares buf saved) {connects : SmbShare -> Bool}
    {opendir : Text -> Option (List ShareEntry)} {call : PkgCall}
    (hcall : call ∈ (smbClientScanShare connects opendir scanned).calls) :
    LeadsBack (storedShares buf saved) (smbClientSanitizeConfig scanned) call ↔
      PlainPlace (storedShares buf saved) (smbClientSanitizeConfig scanned) call := by
  unfold smbClientScanShare at hcall
  dsimp only at hcall
  split at hcall
  · exact absurd hcall List.not_mem_nil
  · rename_i henabled
    split at hcall
    · rcases scanSmbDir_calls (sanitized_path_zero scanned) call hcall with ⟨dir, ent, hdir, rfl⟩
      exact leadsBack_pkgCall_iff rfl (clean_sanitized (storedShares_port hstored)) hstored
        (Bool.eq_true_of_not_eq_false henabled) hdir ent
    · exact absurd hcall List.not_mem_nil

/-!
# One share and its address
-/

def documentOf (server : String) : Text :=
  ascii "\x7b\"smb_shares\":[\x7b\"server\":\"" ++ ascii server ++
    ascii "\",\"share\":\"games\",\"path\":\"ps5\"\x7d]\x7d"

def shareAt (server : String) : SmbShare :=
  { blankShare with
    id := ascii "smb0"
    server := ascii server
    share := ascii "games"
    path := ascii "ps5" }

def gameEntry : ShareEntry where
  name := ascii "game.pkg"
  zeroFree := zeroFree_of_all rfl
  kind := .file
  size := 1024
  mtime := 0

def ps5Dir (dir : Text) : Option (List ShareEntry) :=
  if dir = ascii "ps5" then some [gameEntry] else none

def gameCall (server : String) : PkgCall :=
  pkgCall (smbClientSanitizeConfig (shareAt server)) (ascii "ps5") gameEntry

theorem nas_url_leads_back :
    LeadsBack (storedShares (documentOf "nas") false) (smbClientSanitizeConfig (shareAt "nas"))
      (gameCall "nas") := by
  have hstored : shareAt "nas" ∈ storedShares (documentOf "nas") false := by decide +kernel
  have hcall : gameCall "nas" ∈
      (smbClientScanShare (fun _ => true) ps5Dir (shareAt "nas")).calls := by
    decide
  have hone : (storedShares (documentOf "nas") false).filter (fun c => c.enabled) =
      [] ++ shareAt "nas" :: [] := by
    decide +kernel
  apply (url_leads_back_iff hstored hcall).mpr
  exact
    { server := by decide
      share := by decide
      short := by decide
      relative := by decide
      first := ⟨[], shareAt "nas", [], hone, rfl, rfl, rfl,
        fun d hd => absurd hd List.not_mem_nil⟩ }

/-- The address of a server with a bracketed address is cut at its first colon. -/
theorem bracketed_url_lost :
    shareAt "[fe80::1]" ∈ storedShares (documentOf "[fe80::1]") false ∧
      gameCall "[fe80::1]" ∈
        (smbClientScanShare (fun _ => true) ps5Dir (shareAt "[fe80::1]")).calls ∧
      ¬ LeadsBack (storedShares (documentOf "[fe80::1]") false)
        (smbClientSanitizeConfig (shareAt "[fe80::1]")) (gameCall "[fe80::1]") := by
  refine ⟨by decide +kernel, by decide +kernel, ?_⟩
  intro h
  have hserver : (parsedUrl (gameCall "[fe80::1]").url).map SmbUrl.server =
      some (ascii "[fe80") := by
    decide
  rw [h.1, Option.map_some] at hserver
  exact absurd (Option.some.inj hserver) (by decide)

end Smb
end PkgManager
