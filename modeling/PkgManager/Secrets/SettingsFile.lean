import PkgManager.Secrets.SettingsReturn

/-!
# The file of the settings

The settings are written to a file after every request and read from it when the program starts.
Whatever a request or a file says, the texts of the shares stay in their arrays.
-/

namespace PkgManager
namespace Secrets

open CString
open PkgManager.Parser
open PkgManager.Smb
open PkgManager.Cache (Value Escaped unescaped Readable PlainKey EndsMember NoControl FieldFits
  boolText keyMark escapeJsonStr readBack)

/-!
# Flags
-/

/-- {lit}`g_settings` before a file is read -/
def freshSettings : AppSettings where
  moveInstalledToEnd := true
  fadeInstalledPackages := true
  allSourcesMode := false
  pkgInstallDebug := false
  allowPs4OnPs5 := true
  shares := []

/-- The word stands right behind the key, or behind one more byte. -/
def wordBehind (key word : String) (found : Text) : Bool :=
  (ascii word).isPrefixOf (found.drop (keyMark key).length) ||
    (ascii word).isPrefixOf (found.drop ((keyMark key).length + 1))

/-- The word stands behind the key and any number of spaces. -/
def wordBehindSpaces (key word : String) (found : Text) : Bool :=
  (ascii word).isPrefixOf ((found.drop (keyMark key).length).dropWhile (fun b => b == 32))

/-!
# Reading
-/

/-- A flag that is on unless the file says {lit}`false`. -/
def loadOn (key : String) (old : Bool) (text : Text) : Bool :=
  match strstr (keyMark key) text with
  | none => old
  | some found => !wordBehind key "false" found

/-- A flag that is off unless the file says {lit}`true`. -/
def loadOff (key : String) (old : Bool) (text : Text) : Bool :=
  match strstr (keyMark key) text with
  | none => old
  | some found => wordBehind key "true" found

def loadAllowPs4 (old : Bool) (text : Text) : Bool :=
  match strstr (keyMark "allow_ps4_on_ps5") text with
  | none => old
  | some found => !wordBehindSpaces "allow_ps4_on_ps5" "false" found

/-- {lit}`load_settings_from_disk` -/
def loadSettingsFromDisk (s : AppSettings) (file : Option Text) : AppSettings :=
  let buf := (file.getD []).take 16383
  if buf = [] then s
  else
    let text := cString buf
    { moveInstalledToEnd := loadOn "move_installed_to_end" s.moveInstalledToEnd text
      fadeInstalledPackages := loadOn "fade_installed_packages" s.fadeInstalledPackages text
      allSourcesMode := loadOff "all_sources_mode" s.allSourcesMode text
      pkgInstallDebug := loadOff "pkg_install_debug" s.pkgInstallDebug text
      allowPs4OnPs5 := loadAllowPs4 s.allowPs4OnPs5 text
      shares := parsedShares text }

/-!
# Requests
-/

def postOn (key : String) (old : Bool) (text : Text) : Bool :=
  match strstr (keyMark key) text with
  | none => old
  | some found =>
      if wordBehind key "false" found then false
      else if wordBehind key "true" found then true
      else old

def postOff (key : String) (old : Bool) (text : Text) : Bool :=
  match strstr (keyMark key) text with
  | none => old
  | some found =>
      if wordBehind key "true" found then true
      else if wordBehind key "false" found then false
      else old

def postAllowPs4 (old : Bool) (text : Text) : Bool :=
  match strstr (keyMark "allow_ps4_on_ps5") text with
  | none => old
  | some found =>
      if wordBehindSpaces "allow_ps4_on_ps5" "true" found then true
      else if wordBehindSpaces "allow_ps4_on_ps5" "false" found then false
      else old

/-- {lit}`POST /api/settings` and {lit}`pkg_cache_set_settings` -/
def postSettings (s : AppSettings) (body : Option Text) : AppSettings :=
  let text := cString (body.getD [])
  { moveInstalledToEnd := postOn "move_installed_to_end" s.moveInstalledToEnd text
    fadeInstalledPackages := postOn "fade_installed_packages" s.fadeInstalledPackages text
    allSourcesMode := postOff "all_sources_mode" s.allSourcesMode text
    pkgInstallDebug := postOff "pkg_install_debug" s.pkgInstallDebug text
    allowPs4OnPs5 := postAllowPs4 s.allowPs4OnPs5 text
    shares := (postShares s.shares body).take maxSmbShares }

/-- The settings that requests lead to after the program has started. -/
inductive Reached : AppSettings -> Prop where
  | start (file : Option Text) : Reached (loadSettingsFromDisk freshSettings file)
  | post {s : AppSettings} (h : Reached s) (body : Option Text) : Reached (postSettings s body)

/-!
# Writing
-/

def flagMembers (s : AppSettings) : List (String × Bool) :=
  [("move_installed_to_end", s.moveInstalledToEnd),
    ("fade_installed_packages", s.fadeInstalledPackages),
    ("all_sources_mode", s.allSourcesMode),
    ("pkg_install_debug", s.pkgInstallDebug),
    ("allow_ps4_on_ps5", s.allowPs4OnPs5)]

/-- Every member stands on a line of its own. -/
def flagsText : List (String × Bool) -> Text
  | [] => []
  | (key, b) :: rest =>
      ascii "\n  " ++ (quoted key ++ 58 :: (32 :: (boolText b ++ 44 :: flagsText rest)))

/-- The lines of a share. -/
def lines : Layout where
  lead := ascii "\n      "
  gap := ascii " "
  last := ascii "\n    "
  blank := rfl
  spaces := rfl
  ended := Or.inr rfl

def savedValues (sh : SmbShare) : List (String × Value) :=
  [("id", .string (escapeJsonStr 128 sh.id)),
    ("label", .string (escapeJsonStr 256 sh.label)),
    ("server", .string (escapeJsonStr 256 sh.server)),
    ("port", .bare (intText sh.port)),
    ("share", .string (escapeJsonStr 256 sh.share)),
    ("path", .string (escapeJsonStr 512 sh.path)),
    ("username", .string (escapeJsonStr 256 sh.username)),
    ("password", .string (escapeJsonStr 256 sh.password)),
    ("workgroup", .string (escapeJsonStr 256 sh.workgroup)),
    ("is_read_only", .bare (boolText sh.isReadOnly)),
    ("browse_only", .bare (boolText sh.browseOnly)),
    ("enabled", .bare (boolText sh.enabled))]

def savedItem (sh : SmbShare) : Text :=
  itemText lines (texts (savedValues sh))

/-- The loop over the shares; a comma stands behind all but the last one. -/
def savedItems : List SmbShare -> Text
  | [] => []
  | sh :: rest =>
      ascii "    " ++ (savedItem sh ++ ((if rest.isEmpty then [] else ascii ",") ++
        (ascii "\n" ++ savedItems rest)))

/-- What {lit}`save_settings_to_disk` writes. -/
def savedText (s : AppSettings) : Text :=
  ascii "\x7b" ++ (flagsText (flagMembers s) ++ (ascii "\n  " ++ (quoted "smb_shares" ++
    (ascii ": " ++ 91 :: (ascii "\n" ++ (savedItems s.shares ++ ascii "  ]\n\x7d\n"))))))

/-!
# Shares in their arrays
-/

/-- A share whose texts are in their arrays. -/
structure ShareFits (sh : SmbShare) : Prop where
  given : sh.id ≠ []
  id : FieldFits 32 sh.id
  label : FieldFits 64 sh.label
  server : FieldFits 128 sh.server
  share : FieldFits 128 sh.share
  path : FieldFits 256 sh.path
  username : FieldFits 64 sh.username
  password : FieldFits 64 sh.password
  workgroup : FieldFits 64 sh.workgroup
  port_pos : 0 < sh.port
  port_lt : sh.port < 2 ^ 31

structure SettingsFit (s : AppSettings) : Prop where
  count : s.shares.length ≤ maxSmbShares
  shares : forall sh, sh ∈ s.shares -> ShareFits sh

theorem quotedField_fits (room : Nat) (text : Text) :
    ZeroFree (quotedField room text) ∧ (quotedField room text).length ≤ room := by
  have hcons : forall {b : UInt8} {field : Text} {room : Nat}, b ≠ 0 ->
      ZeroFree field ∧ field.length ≤ room ->
        ZeroFree (b :: field) ∧ (b :: field).length ≤ room + 1 := by
    intro b field room hb h
    refine ⟨?_, Nat.succ_le_succ h.right⟩
    intro c hc
    rcases List.mem_cons.mp hc with rfl | hc
    · exact hb
    · exact h.left c hc
  have hnil : forall room : Nat, ZeroFree [] ∧ ([] : Text).length ≤ room :=
    fun room => ⟨zeroFree_of_all rfl, Nat.zero_le room⟩
  have hgiven : forall {b : UInt8}, ¬(b == 0 || b == quote) = true -> b ≠ 0 := by
    intro b hend hzero
    rw [hzero] at hend
    exact hend rfl
  fun_induction quotedField room text with
  | case1 => exact hnil 0
  | case2 room => exact hnil _
  | case3 => exact hnil _
  | case4 room b hend _ => exact hcons (hgiven hend) (hnil room)
  | case5 room b hend _ c rest _ => exact hcons (hgiven hend) (hnil room)
  | case6 room b _ _ c rest hzero ih =>
      exact hcons (fun h => hzero (beq_iff_eq.mpr h)) ih
  | case7 room b rest hend _ ih => exact hcons (hgiven hend) ih

theorem bareField_fits (room : Nat) (text : Text) :
    ZeroFree (bareField room text) ∧ (bareField room text).length ≤ room := by
  constructor
  · intro b hb
    have hstop := List.mem_takeWhile_imp (List.mem_of_mem_take hb)
    intro hzero
    rw [hzero] at hstop
    exact absurd hstop (by decide)
  · exact List.length_take_le _ _

theorem extractJsonField_fits (json : Text) (key : String) {outMax : Nat} (h : 0 < outMax) :
    FieldFits outMax (extractJsonField json key outMax) := by
  have hnil : FieldFits outMax [] := ⟨zeroFree_of_all rfl, h⟩
  have hroom : forall {field : Text}, ZeroFree field ∧ field.length ≤ outMax - 1 ->
      FieldFits outMax field :=
    fun hfield => ⟨hfield.left, Nat.lt_of_le_of_lt hfield.right (Nat.sub_lt h Nat.one_pos)⟩
  unfold extractJsonField
  split
  · exact hnil
  · unfold fieldValue
    split
    · exact hnil
    · split
      · exact hroom (quotedField_fits _ _)
      · exact hroom (bareField_fits _ _)

theorem intText_fits {i : Nat} (h : i < maxSmbShares) : FieldFits 32 (ascii "smb" ++ intText i) := by
  have hlt : i < 8 := h
  have hshort := @intText_short i (by omega) (by omega)
  have hdigits : ZeroFree (intText i) := by
    have hnat : intText i = digitsText i := if_neg (Int.not_lt.mpr (Int.natCast_nonneg i))
    rw [hnat]
    intro b hb hzero
    have hdigit := digitsText_digit hb
    rw [hzero] at hdigit
    cases hdigit
  constructor
  · exact zeroFree_append (zeroFree_of_all rfl) hdigits
  · have hsmb : (ascii "smb").length = 3 := rfl
    rw [List.length_append, hsmb]
    omega

/-- A share that is read from any object. -/
theorem shareFits_read {i : Nat} (h : i < maxSmbShares) (item : Text) :
    ShareFits (withId i (shareOfItem item)) := by
  have hfits : forall (key : String) {outMax : Nat}, 0 < outMax ->
      FieldFits outMax (extractJsonField item key outMax) :=
    fun key _ hpos => extractJsonField_fits item key hpos
  have hport : 0 < portField item := by
    unfold portField
    dsimp only
    split
    · rename_i hgiven
      exact hgiven.right
    · decide
  have hlt := portField_lt item
  unfold withId
  split
  · exact
      { given := fun hnil => by cases hnil
        id := intText_fits h
        label := hfits "label" (by decide)
        server := hfits "server" (by decide)
        share := hfits "share" (by decide)
        path := hfits "path" (by decide)
        username := hfits "username" (by decide)
        password := hfits "password" (by decide)
        workgroup := hfits "workgroup" (by decide)
        port_pos := hport
        port_lt := hlt }
  · rename_i hid
    exact
      { given := hid
        id := hfits "id" (by decide)
        label := hfits "label" (by decide)
        server := hfits "server" (by decide)
        share := hfits "share" (by decide)
        path := hfits "path" (by decide)
        username := hfits "username" (by decide)
        password := hfits "password" (by decide)
        workgroup := hfits "workgroup" (by decide)
        port_pos := hport
        port_lt := hlt }

/-- The shares that are counted were all read from objects. -/
structure ReadShares (out : Parsed) : Prop where
  count : out.count ≤ maxSmbShares
  element : forall i, i < out.count -> exists item, out.element i =
    some (withId i (shareOfItem item))

theorem ReadShares.next {out : Parsed} (h : ReadShares out) (item : Text) :
    ReadShares (storeObject out item) := by
  have hold : forall (share : SmbShare) (count i : Nat), i < out.count ->
      exists item, Parsed.element { writes := out.writes ++ [(out.count, share)], count := count } i =
        some (withId i (shareOfItem item)) := by
    intro share count i hi
    rw [element_written, if_neg (Nat.ne_of_gt hi)]
    exact h.element i hi
  unfold storeObject
  dsimp only
  split
  · rename_i hroom
    split
    · constructor
      · exact hroom
      · intro i hi
        rcases Nat.lt_succ_iff_lt_or_eq.mp hi with hlt | heq
        · exact hold _ _ i hlt
        · refine ⟨item, ?_⟩
          rw [element_written, if_pos heq.symm, heq]
    · exact ⟨h.count, hold _ _⟩
  · exact h

theorem readShares_foldl {out : Parsed} (h : ReadShares out) (items : List Text) :
    ReadShares (items.foldl storeObject out) := by
  induction items generalizing out with
  | nil => exact h
  | cons item rest ih => exact ih (h.next item)

theorem parsedShares_fit (text : Text) : (parsedShares text).length ≤ maxSmbShares ∧
    forall sh, sh ∈ parsedShares text -> ShareFits sh := by
  have hread : ReadShares (parseSmbShares text) := by
    apply readShares_foldl
    exact ⟨Nat.zero_le _, fun i hi => absurd hi (Nat.not_lt_zero i)⟩
  constructor
  · apply (List.length_filterMap_le _ _).trans
    rw [List.length_range]
    exact hread.count
  · intro sh hsh
    rcases List.mem_filterMap.mp hsh with ⟨i, hi, helement⟩
    have hlt := List.mem_range.mp hi
    rcases hread.element i hlt with ⟨item, hitem⟩
    rw [hitem] at helement
    cases helement
    exact shareFits_read (hlt.trans_le hread.count) item

theorem fits_sub {size : Nat} {a b : Text} (h : FieldFits size b) (hsub : a.Sublist b) :
    FieldFits size a :=
  ⟨fun x hx => h.zeroFree x (hsub.subset hx), hsub.length_le.trans_lt h.short⟩

theorem fits_copied {size : Nat} (h : 0 < size) (text : Text) : FieldFits size (copied size text) :=
  ⟨zeroFree_copied size text,
    (copied_length size text).trans_lt (Nat.sub_lt h Nat.one_pos)⟩

theorem withSharePassword_password (c : SmbShare) (donor : Option SmbShare) :
    (withSharePassword c donor).password = c.password ∨
      exists d, donor = some d ∧ (withSharePassword c donor).password = d.password := by
  cases donor with
  | none => exact Or.inl rfl
  | some d => exact Or.inr ⟨d, rfl, rfl⟩

/-- A share of a request is stored in the same arrays. -/
theorem ShareFits.stored {old : List SmbShare} (hold : forall d, d ∈ old -> ShareFits d)
    {sh : SmbShare} (h : ShareFits sh) : ShareFits (settingsShare old sh) := by
  have hid : withId 0 sh = sh := if_neg h.given
  have hconfig := (withSharePassword_config (smbClientSanitizeConfig sh)
    (settingsDonor (smbClientSanitizeConfig sh) old)).left
  have hport : (settingsShare old sh).port = (smbClientSanitizeConfig sh).port :=
    congrArg Scanner.SmbShareConfig.port hconfig
  have hbounds := sanitized_port_bounds h.port_lt
  have hsame : (settingsShare old sh).id = sh.id := by
    have heq := settingsShare_id old 0 sh
    rwa [hid] at heq
  have hlabel := settingsShare_label old 0 sh
  have hserver := settingsShare_server old 0 sh
  have hshare := settingsShare_share old 0 sh
  have hpath := settingsShare_path old 0 sh
  have husername := settingsShare_username old 0 sh
  have hworkgroup := settingsShare_workgroup old 0 sh
  rw [hid] at hlabel hserver hshare hpath husername hworkgroup
  exact
    { given := by
        rw [hsame]
        exact h.given
      id := by
        rw [hsame]
        exact h.id
      label := by
        rw [hlabel]
        exact h.label
      server := by
        rw [hserver]
        exact ⟨(hostOf_fits _).left, Nat.lt_succ_of_le (hostOf_fits _).right⟩
      share := by
        rw [hshare]
        exact fits_copied (by decide) _
      path := by
        rw [hpath]
        exact fits_copied (by decide) _
      username := by
        rw [husername]
        exact fits_sub h.username (trimmedField_sub _)
      password := by
        rcases withSharePassword_password (smbClientSanitizeConfig sh)
          (settingsDonor (smbClientSanitizeConfig sh) old) with heq | ⟨d, hd, heq⟩
        · have hown : (settingsShare old sh).password = sh.password := heq
          rw [hown]
          exact h.password
        · have hother : (settingsShare old sh).password = d.password := heq
          rw [hother]
          unfold settingsDonor at hd
          split at hd
          · cases hd
          · exact (hold d (List.mem_of_find?_eq_some hd)).password
      workgroup := by
        rw [hworkgroup]
        unfold cleanWorkgroup
        split
        · exact ⟨zeroFree_of_all rfl, by decide⟩
        · exact fits_sub h.workgroup (trimmedField_sub _)
      port_pos := by
        rw [hport]
        exact hbounds.left
      port_lt := by
        rw [hport]
        exact hbounds.right }

theorem postShares_fit {old : List SmbShare} (hcount : old.length ≤ maxSmbShares)
    (hold : forall d, d ∈ old -> ShareFits d) (body : Option Text) :
    (postShares old body).length ≤ maxSmbShares ∧
      forall sh, sh ∈ postShares old body -> ShareFits sh := by
  unfold postShares
  dsimp only
  split
  · exact ⟨hcount, hold⟩
  · rcases parsedShares_fit (cString (body.getD [])) with ⟨hlen, hfit⟩
    constructor
    · rw [List.length_map]
      exact hlen
    · intro sh hsh
      rcases List.mem_map.mp hsh with ⟨c, hc, rfl⟩
      exact (hfit c hc).stored hold

theorem freshSettings_fit : SettingsFit freshSettings :=
  ⟨Nat.zero_le _, fun _ hsh => absurd hsh List.not_mem_nil⟩

theorem loaded_fit {s : AppSettings} (h : SettingsFit s) (file : Option Text) :
    SettingsFit (loadSettingsFromDisk s file) := by
  unfold loadSettingsFromDisk
  dsimp only
  split
  · exact h
  · exact ⟨(parsedShares_fit _).left, (parsedShares_fit _).right⟩

theorem posted_fit {s : AppSettings} (h : SettingsFit s) (body : Option Text) :
    SettingsFit (postSettings s body) where
  count := List.length_take_le _ _
  shares sh hsh := (postShares_fit h.count h.shares body).right sh (List.mem_of_mem_take hsh)

theorem Reached.fit {s : AppSettings} (h : Reached s) : SettingsFit s := by
  induction h with
  | start file => exact loaded_fit freshSettings_fit file
  | post _ body ih => exact posted_fit ih body

end Secrets
end PkgManager
