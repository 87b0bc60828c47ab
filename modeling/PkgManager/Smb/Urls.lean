import PkgManager.Smb.Sanitize

/-!
# Addresses of files on shares

The scan of a share writes an address for every package file.  An address is all that is
kept of the file: its parts and the stored share that it belongs to are found again when
the file is opened.
-/

namespace PkgManager
namespace Smb

open CString
open PkgManager.Parser
open PkgManager.Scanner (strcasecmp)

/-!
# The scan
-/

inductive EntryKind where
  | directory
  | file
  | link
deriving DecidableEq

/-- {lit}`struct smb2dirent` -/
structure ShareEntry where
  name : Text
  zeroFree : ZeroFree name
  kind : EntryKind
  size : Nat
  mtime : Nat

/-- A call of {lit}`pkg_cb`.  The directory that was open is not an argument of it. -/
structure PkgCall where
  dir : Text
  url : Text
  name : Text
  size : Nat
  mtime : Nat
deriving DecidableEq

/-- The calls that were made, and the number of files unless the scan failed. -/
structure ShareScan where
  calls : List PkgCall
  count : Option Nat
deriving DecidableEq

/-- The path of a file on its share. -/
def fullPath (dir name : Text) : Text :=
  if dir ≠ [] then dir ++ ascii "/" ++ name else name

def childPath (dir name : Text) : Text :=
  copied 512 (fullPath dir name)

def pkgUrl (cfg : SmbShare) (child : Text) : Text :=
  if 0 < cfg.port ∧ cfg.port ≠ smbDefaultPort then
    copied 1024 (ascii "smb://" ++ cfg.server ++ ascii ":" ++ intText cfg.port ++ ascii "/" ++
      cfg.share ++ ascii "/" ++ child)
  else copied 1024 (ascii "smb://" ++ cfg.server ++ ascii "/" ++ cfg.share ++ ascii "/" ++ child)

def pkgCall (cfg : SmbShare) (dir : Text) (ent : ShareEntry) : PkgCall where
  dir := dir
  url := pkgUrl cfg (childPath dir ent.name)
  name := ent.name
  size := ent.size
  mtime := ent.mtime % 2 ^ 32

def isPkgName (name : Text) : Bool :=
  decide (4 < name.length) && strcasecmp (name.drop (name.length - 4)) (ascii ".pkg") == 0

def ShareScan.behind (calls : List PkgCall) (scan : ShareScan) : ShareScan where
  calls := calls ++ scan.calls
  count := scan.count

/-- The loop over the entries of an open directory. -/
def scanEntries (cfg : SmbShare) (skipUnreadable : Bool) (descend : Text -> ShareScan)
    (dir : Text) : Nat -> List ShareEntry -> ShareScan
  | count, [] => { calls := [], count := some count }
  | count, ent :: rest =>
      if ent.name.head? = some 46 then scanEntries cfg skipUnreadable descend dir count rest
      else
        match ent.kind with
        | .directory =>
            let sub := descend (childPath dir ent.name)
            match sub.count with
            | none =>
                if skipUnreadable then
                  (scanEntries cfg skipUnreadable descend dir count rest).behind sub.calls
                else sub
            | some n =>
                (scanEntries cfg skipUnreadable descend dir (count + n) rest).behind sub.calls
        | .file =>
            if isPkgName ent.name then
              (scanEntries cfg skipUnreadable descend dir (count + 1) rest).behind
                [pkgCall cfg dir ent]
            else scanEntries cfg skipUnreadable descend dir count rest
        | .link => scanEntries cfg skipUnreadable descend dir count rest

/-- {lit}`scan_smb_dir`, with the number of levels down to depth 4. -/
def scanSmbDir (opendir : Text -> Option (List ShareEntry)) (cfg : SmbShare)
    (skipUnreadable : Bool) : Nat -> Text -> ShareScan
  | 0, _ => { calls := [], count := some 0 }
  | levels + 1, subDir =>
      let dir := subDir.dropWhile (fun b => b == 47)
      match opendir dir with
      | none => { calls := [], count := none }
      | some ents =>
          scanEntries cfg skipUnreadable (scanSmbDir opendir cfg skipUnreadable levels) dir 0 ents

/-- {lit}`smb_client_scan_share`; the server may refuse the connection. -/
def smbClientScanShare (connects : SmbShare -> Bool) (opendir : Text -> Option (List ShareEntry))
    (cfg : SmbShare) : ShareScan :=
  let clean := smbClientSanitizeConfig cfg
  if cfg.enabled = false then { calls := [], count := some 0 }
  else if connects clean then scanSmbDir opendir clean (clean.path == []) 5 clean.path
  else { calls := [], count := none }

/-!
# The way back
-/

structure SmbUrl where
  server : Text
  port : Int
  share : Text
  path : Text
deriving DecidableEq

def notPathSlash (b : UInt8) : Bool :=
  b != 47

def urlPort (hostPort : Text) : Int :=
  match strchr 58 hostPort with
  | none => smbDefaultPort
  | some colon => if 0 < atoi (colon.drop 1) then atoi (colon.drop 1) else smbDefaultPort

def smbClientParseUrl (url : Text) (serverSz shareSz pathSz : Nat) : Option SmbUrl :=
  if (ascii "smb://").isPrefixOf url then
    let p := url.drop 6
    let hostPort := copied 160 (p.takeWhile notPathSlash)
    let rest := (p.dropWhile notPathSlash).drop 1
    some
      { server := copied serverSz (hostPort.takeWhile notColon)
        port := urlPort hostPort
        share := copied shareSz (rest.takeWhile notPathSlash)
        path := copied pathSz ((rest.dropWhile notPathSlash).dropWhile (fun b => b == 47)) }
  else none

/-- The address as the two callers of the parser read it. -/
def parsedUrl (url : Text) : Option SmbUrl :=
  smbClientParseUrl url 128 128 256

def matchesUrl (u : SmbUrl) (c : SmbShare) : Bool :=
  let clean := smbClientSanitizeConfig c
  strcasecmp clean.server u.server == 0 && strcasecmp clean.share u.share == 0 ||
    strcasecmp clean.id u.server == 0

/-- The configuration for a share that is not stored. -/
def guestShare (u : SmbUrl) : SmbShare where
  enabled := true
  browseOnly := false
  id := []
  label := copied 64 (u.server.take 30 ++ ascii "/" ++ u.share.take 30)
  server := u.server
  port := u.port
  share := u.share
  path := []
  username := []
  password := []
  workgroup := ascii "WORKGROUP"
  isReadOnly := false

def smbClientFindShareCfg (shares : List SmbShare) (url : Text) : Option SmbShare :=
  (parsedUrl url).map (fun u =>
    ((shares.filter (fun c => c.enabled)).find? (matchesUrl u)).getD (guestShare u))

/-- The shares in the settings: those of a document, and clean ones once they were saved. -/
def storedShares (buf : Text) (saved : Bool) : List SmbShare :=
  let out := parseSmbShares buf
  let shares := (List.range out.count).filterMap out.element
  if saved then shares.map smbClientSanitizeConfig else shares

end Smb
end PkgManager

/-!
# The parts of an address

An address of a clean configuration is never cut.  What is read from it is the start of each
part up to the first separator.
-/

namespace PkgManager
namespace Smb

open CString
open PkgManager.Parser

/-!
# Numbers in texts
-/

theorem digitsText_digit {n : Nat} {b : UInt8} (h : b ∈ digitsText n) : isDigit b = true := by
  rcases List.mem_map.mp h with ⟨c, hc, rfl⟩
  have hdigit : 48 ≤ c.toNat ∧ c.toNat ≤ 57 :=
    Char.isDigit_iff_toNat.mp (Nat.isDigit_of_mem_toDigits (by decide) (by decide) hc)
  apply decide_eq_true
  rw [UInt8.toNat_ofNat']
  omega

theorem digitsValue_digitsText (n : Nat) : digitsValue (digitsText n) = n := by
  unfold digitsValue digitsText
  have hfold : forall (cs : List Char) (start : Nat), (forall c, c ∈ cs -> c.isDigit = true) ->
      (cs.map (fun c => UInt8.ofNat c.toNat)).foldl (fun n b => 10 * n + (b.toNat - 48)) start =
        Nat.ofDigitChars 10 cs start := by
    intro cs
    induction cs with
    | nil => intro start _; rfl
    | cons c rest ih =>
        intro start hdigits
        have hc : 48 ≤ c.toNat ∧ c.toNat ≤ 57 :=
          Char.isDigit_iff_toNat.mp (hdigits c List.mem_cons_self)
        have hbyte : (UInt8.ofNat c.toNat).toNat = c.toNat := by
          rw [UInt8.toNat_ofNat']
          omega
        rw [List.map_cons, List.foldl_cons, hbyte,
          ih _ (fun d hd => hdigits d (List.mem_cons_of_mem c hd)), Nat.ofDigitChars_cons]
        rfl
  rw [hfold _ _ (fun c hc => Nat.isDigit_of_mem_toDigits (by decide) (by decide) hc),
    Nat.ofDigitChars_ten_toDigits]

theorem isDigit_ne {b c : UInt8} (h : isDigit b = true) (hc : isDigit c = false) : b ≠ c := by
  rintro rfl
  exact absurd (h.symm.trans hc) (by decide)

theorem atoi_digits {text : Text} (h : forall b, b ∈ text -> isDigit b = true)
    (hvalue : digitsValue text < 2 ^ 31) : atoi text = digitsValue text := by
  have hspace : text.dropWhile isSpace = text := by
    cases text with
    | nil => rfl
    | cons b rest =>
        have hb := of_decide_eq_true (h b List.mem_cons_self)
        apply List.dropWhile_cons_of_neg
        unfold isSpace
        rw [Bool.or_eq_true, beq_iff_eq, decide_eq_true_eq]
        rintro (rfl | hlow)
        · exact absurd hb (by decide)
        · omega
  have hhead : forall c : UInt8, isDigit c = false -> (text.head? == some c) = false := by
    intro c hc
    apply beq_false_of_ne
    intro hhead
    exact isDigit_ne (h c (List.mem_of_mem_head? hhead)) hc rfl
  have hall : text.takeWhile isDigit = text := List.takeWhile_eq_self_iff.mpr h
  unfold atoi
  dsimp only
  rw [hspace, hhead 45 (by decide), hhead 43 (by decide), Bool.or_false,
    if_neg Bool.false_ne_true, if_neg Bool.false_ne_true, hall, min_eq_left (by omega)]
  exact Int.bmod_eq_of_le (by omega) (by omega)

theorem intText_pos {port : Int} (h : 0 < port) : intText port = digitsText port.toNat := by
  unfold intText
  rw [if_neg h.not_gt]
  congr 1
  omega

theorem atoi_intText {port : Int} (h : 0 < port) (hlt : port < 2 ^ 31) :
    atoi (intText port) = port := by
  rw [intText_pos h, atoi_digits (fun b hb => digitsText_digit hb)]
  · rw [digitsValue_digitsText]
    omega
  · rw [digitsValue_digitsText]
    omega

theorem mem_intText {port : Int} (h : 0 < port) {b : UInt8} (hb : b ∈ intText port) :
    isDigit b = true := by
  rw [intText_pos h] at hb
  exact digitsText_digit hb

theorem intText_length {port : Int} (h : 0 < port) (hlt : port < 2 ^ 31) :
    (intText port).length ≤ 10 := by
  rw [intText_pos h]
  unfold digitsText
  rw [List.length_map]
  exact (Nat.length_toDigits_le_iff (by decide) (by decide)).mpr (by omega)

/-!
# The parts of an address
-/

/-- The host with its port, as it stands in an address. -/
def hostText (cfg : SmbShare) : Text :=
  if 0 < cfg.port ∧ cfg.port ≠ smbDefaultPort then
    cfg.server ++ ascii ":" ++ intText cfg.port
  else cfg.server

/-- What every clean configuration has. -/
structure Clean (cfg : SmbShare) : Prop where
  serverShort : cfg.server.length ≤ 127
  serverZero : ZeroFree cfg.server
  serverSlash : (47 : UInt8) ∉ cfg.server
  shareShort : cfg.share.length ≤ 127
  shareZero : ZeroFree cfg.share
  portPos : 0 < cfg.port
  portLt : cfg.port < 2 ^ 31

theorem clean_sanitized {cfg : SmbShare} (h : cfg.port < 2 ^ 31) :
    Clean (smbClientSanitizeConfig cfg) where
  serverShort := by
    unfold smbClientSanitizeConfig
    dsimp only
    apply copied_length
  serverZero := by
    unfold smbClientSanitizeConfig
    dsimp only
    apply zeroFree_copied
  serverSlash := sanitized_server_slash cfg
  shareShort := by
    unfold smbClientSanitizeConfig
    dsimp only
    apply copied_length
  shareZero := by
    unfold smbClientSanitizeConfig
    dsimp only
    apply zeroFree_copied
  portPos := (sanitized_port_bounds h).1
  portLt := (sanitized_port_bounds h).2

theorem zeroFree_intText {port : Int} (h : 0 < port) : ZeroFree (intText port) :=
  fun _ hb => isDigit_ne (mem_intText h hb) (by decide)

theorem hostText_server (cfg : SmbShare) :
    (hostText cfg).takeWhile notColon = cfg.server.takeWhile notColon := by
  unfold hostText
  split
  · rw [List.append_assoc]
    exact takeWhile_separator 58 cfg.server (intText cfg.port)
  · rfl

section Parts

variable {cfg : SmbShare} (hcfg : Clean cfg)
include hcfg

theorem zeroFree_hostText : ZeroFree (hostText cfg) := by
  unfold hostText
  split
  · exact zeroFree_append (zeroFree_append hcfg.serverZero (zeroFree_of_all rfl))
      (zeroFree_intText hcfg.portPos)
  · exact hcfg.serverZero

theorem hostText_slash : (47 : UInt8) ∉ hostText cfg := by
  unfold hostText
  split
  · intro h
    rcases List.mem_append.mp h with hfront | hport
    · rcases List.mem_append.mp hfront with hserver | hcolon
      · exact hcfg.serverSlash hserver
      · exact absurd hcolon (by decide)
    · exact isDigit_ne (mem_intText hcfg.portPos hport) (by decide) rfl
  · exact hcfg.serverSlash

theorem hostText_length : (hostText cfg).length ≤ 138 := by
  have hserver := hcfg.serverShort
  have hport := intText_length hcfg.portPos hcfg.portLt
  have hcolon : (ascii ":").length = 1 := rfl
  unfold hostText
  split
  · rw [List.length_append, List.length_append]
    omega
  · omega

theorem urlPort_hostText (h : (58 : UInt8) ∉ cfg.server) : urlPort (hostText cfg) = cfg.port := by
  by_cases hport : 0 < cfg.port ∧ cfg.port ≠ smbDefaultPort
  · have hcolon : strchr 58 (cfg.server ++ ascii ":" ++ intText cfg.port) =
        some (58 :: intText cfg.port) := by
      rw [List.append_assoc]
      exact strchr_separator hcfg.serverZero h _
    unfold hostText urlPort
    rw [if_pos hport, hcolon]
    dsimp only
    rw [List.drop_succ_cons, List.drop_zero, atoi_intText hcfg.portPos hcfg.portLt,
      if_pos hcfg.portPos]
  · unfold hostText urlPort
    rw [if_neg hport, strchr_absent h]
    by_contra hne
    exact hport ⟨hcfg.portPos, fun heq => hne heq.symm⟩

/-- No part of an address is cut. -/
theorem pkgUrl_eq {child : Text} (hzero : ZeroFree child) (hlen : child.length ≤ 511) :
    pkgUrl cfg child =
      ascii "smb://" ++ (hostText cfg ++ 47 :: (cfg.share ++ 47 :: child)) := by
  have hhost := zeroFree_hostText hcfg
  have hhostLen := hostText_length hcfg
  have hshare := hcfg.shareShort
  have hwhole : ZeroFree (ascii "smb://" ++ (hostText cfg ++ 47 :: (cfg.share ++ 47 :: child))) :=
    zeroFree_append (zeroFree_of_all rfl) (zeroFree_append hhost
      (zeroFree_append (a := [47]) (zeroFree_of_all rfl) (zeroFree_append hcfg.shareZero
        (zeroFree_append (a := [47]) (zeroFree_of_all rfl) hzero))))
  have hscheme : (ascii "smb://").length = 6 := rfl
  have hlength : (ascii "smb://" ++ (hostText cfg ++ 47 :: (cfg.share ++ 47 :: child))).length ≤
      1024 - 1 := by
    simp only [List.length_append, List.length_cons]
    omega
  rw [<- copied_whole hwhole hlength]
  unfold pkgUrl hostText
  split <;> simp [ascii, List.append_assoc]

theorem parsedUrl_eq {child : Text} (hzero : ZeroFree child) (hlen : child.length ≤ 511) :
    parsedUrl (pkgUrl cfg child) = some
      { server := cfg.server.takeWhile notColon
        port := urlPort (hostText cfg)
        share := cfg.share.takeWhile notPathSlash
        path := copied 256 (((cfg.share ++ 47 :: child).dropWhile notPathSlash).dropWhile
          (fun b => b == 47)) } := by
  have hhost : copied 160 (hostText cfg) = hostText cfg :=
    copied_whole (zeroFree_hostText hcfg) ((hostText_length hcfg).trans (by decide))
  have hserver : copied 128 (cfg.server.takeWhile notColon) = cfg.server.takeWhile notColon :=
    copied_whole (fun b hb => hcfg.serverZero b ((List.takeWhile_prefix _).mem hb))
      ((List.takeWhile_prefix _).length_le.trans hcfg.serverShort)
  have hshare : copied 128 (cfg.share.takeWhile notPathSlash) = cfg.share.takeWhile notPathSlash :=
    copied_whole (fun b hb => hcfg.shareZero b ((List.takeWhile_prefix _).mem hb))
      ((List.takeWhile_prefix _).length_le.trans hcfg.shareShort)
  have hfront : (hostText cfg ++ 47 :: (cfg.share ++ 47 :: child)).takeWhile notPathSlash =
      hostText cfg :=
    (takeWhile_separator 47 _ _).trans (takeWhile_ne_self_iff.mpr (hostText_slash hcfg))
  have hrest : (hostText cfg ++ 47 :: (cfg.share ++ 47 :: child)).dropWhile notPathSlash =
      47 :: (cfg.share ++ 47 :: child) := dropWhile_separator (hostText_slash hcfg) _
  have hname : (cfg.share ++ 47 :: child).takeWhile notPathSlash =
      cfg.share.takeWhile notPathSlash := takeWhile_separator 47 _ _
  unfold parsedUrl smbClientParseUrl
  rw [pkgUrl_eq hcfg hzero hlen, if_pos (List.isPrefixOf_iff_prefix.mpr (List.prefix_append _ _))]
  have hdrop : forall tail : Text, (ascii "smb://" ++ tail).drop 6 = tail := fun tail => rfl
  rw [hdrop]
  dsimp only
  rw [hfront, hrest, hhost, hostText_server, hserver, List.drop_succ_cons, List.drop_zero, hname,
    hshare]

end Parts

end Smb
end PkgManager
