import Mathlib.Tactic.Linarith
import PkgManager.Smb.EscapedTexts
import PkgManager.Smb.ShareItems

/-!
# The settings as the browser gets them

The shares are written one behind the other into an array.  A share that does not fit is cut
where the array ends, and the next one is written over it.
-/

namespace PkgManager
namespace Smb

open CString
open PkgManager.Parser
open PkgManager.Cache (Value Escaped unescaped Readable PlainKey boolText isKeyByte bool_fine
  number_fine)

/-- {lit}`app_settings_t` -/
structure AppSettings where
  moveInstalledToEnd : Bool
  fadeInstalledPackages : Bool
  allSourcesMode : Bool
  pkgInstallDebug : Bool
  allowPs4OnPs5 : Bool
  shares : List SmbShare

def inQuotes (body : Text) : Text :=
  quote :: (body ++ [quote])

/-- No white space at all. -/
def tight : Layout where
  lead := []
  gap := []
  last := []
  blank := rfl
  spaces := rfl
  ended := Or.inl rfl

/-- The members of a share; the password is left blank. -/
def shareMembers (sh : SmbShare) : List (String × Text) :=
  [("id", inQuotes (jsonStrEsc 64 sh.id)),
    ("label", inQuotes (jsonStrEsc 128 sh.label)),
    ("server", inQuotes (jsonStrEsc 256 sh.server)),
    ("port", intText sh.port),
    ("share", inQuotes (jsonStrEsc 256 sh.share)),
    ("path", inQuotes (jsonStrEsc 512 sh.path)),
    ("username", inQuotes (jsonStrEsc 128 sh.username)),
    ("password", inQuotes []),
    ("has_password", boolText (sh.password != [])),
    ("workgroup", inQuotes (jsonStrEsc 128 sh.workgroup)),
    ("is_read_only", boolText sh.isReadOnly),
    ("browse_only", boolText sh.browseOnly),
    ("enabled", boolText sh.enabled)]

def shareComma (i : Nat) : Text :=
  if 0 < i then [44] else []

/-- What is written for a share. -/
def settingsItem (i : Nat) (sh : SmbShare) : Text :=
  shareComma i ++ itemText tight (shareMembers sh)

/-- {lit}`shares_json`: the bytes up to {lit}`spos` and those behind. -/
structure SharesJson where
  done : Text
  rest : Text

def sharesJsonSize : Nat := 8192

def appendItem (json : SharesJson) (item : Text) : SharesJson :=
  if json.done.length + item.length < sharesJsonSize then
    { done := json.done ++ item, rest := [] }
  else { json with rest := item.take (sharesJsonSize - json.done.length - 1) }

def sharesJson (shares : List SmbShare) : SharesJson :=
  (shares.mapIdx settingsItem).foldl appendItem { done := [], rest := [] }

def settingsFlags (s : AppSettings) : Text :=
  ascii "\x7b\"move_installed_to_end\":" ++ (boolText s.moveInstalledToEnd ++
    (ascii ",\"fade_installed_packages\":" ++ (boolText s.fadeInstalledPackages ++
      (ascii ",\"all_sources_mode\":" ++ (boolText s.allSourcesMode ++
        (ascii ",\"pkg_install_debug\":" ++ (boolText s.pkgInstallDebug ++
          (ascii ",\"allow_ps4_on_ps5\":" ++ (boolText s.allowPs4OnPs5 ++ ascii ",")))))))))

/-- {lit}`GET /api/settings` -/
def settingsBody (s : AppSettings) : Text :=
  let json := sharesJson s.shares
  (settingsFlags s ++ (quoted "smb_shares" ++ (ascii ":[" ++ (json.done ++ (json.rest ++
    ascii "]\x7d"))))).take (json.done.length + 1024 - 1)

/-!
# Filling the array
-/

theorem foldl_appendItem_all {items : List Text} {json : SharesJson} (hrest : json.rest = [])
    (h : json.done.length + items.flatten.length < sharesJsonSize) :
    items.foldl appendItem json = { done := json.done ++ items.flatten, rest := [] } := by
  induction items generalizing json with
  | nil =>
      rw [List.foldl_nil, List.flatten_nil, List.append_nil, <- hrest]
  | cons item rest ih =>
      rw [List.flatten_cons, List.length_append] at h
      have hitem : appendItem json item = { done := json.done ++ item, rest := [] } :=
        if_pos (by omega)
      rw [List.foldl_cons, hitem, ih rfl]
      · rw [List.flatten_cons, List.append_assoc]
      · rw [List.length_append]
        omega

/-- The bytes behind {lit}`spos` are the front of a share that did not fit. -/
structure Filled (items : List Text) (json : SharesJson) : Prop where
  done : exists taken, List.Sublist taken items ∧ json.done = taken.flatten
  room : json.done.length < sharesJsonSize
  rest : json.rest = [] ∨ exists item more, item ∈ items ∧ more ≠ [] ∧ item = json.rest ++ more

theorem Filled.next {items : List Text} {json : SharesJson} (h : Filled items json)
    (item : Text) : Filled (items ++ [item]) (appendItem json item) := by
  rcases h.done with ⟨taken, hsub, hdone⟩
  unfold appendItem
  split
  · rename_i hfits
    constructor
    · refine ⟨taken ++ [item], hsub.append (List.Sublist.refl _), ?_⟩
      rw [List.flatten_append, hdone, List.flatten_singleton]
    · rw [List.length_append]
      exact hfits
    · exact Or.inl rfl
  · rename_i hlong
    have hroom := h.room
    constructor
    · exact ⟨taken, hsub.trans (List.sublist_append_left _ _), hdone⟩
    · exact hroom
    · right
      refine ⟨item, item.drop (sharesJsonSize - json.done.length - 1),
        List.mem_append_right _ List.mem_cons_self, ?_, (List.take_append_drop _ item).symm⟩
      rw [ne_eq, List.drop_eq_nil_iff]
      omega

theorem filled_foldl {before : List Text} {json : SharesJson} (items : List Text)
    (h : Filled before json) : Filled (before ++ items) (items.foldl appendItem json) := by
  induction items generalizing before json with
  | nil =>
      rw [List.append_nil]
      exact h
  | cons item rest ih =>
      rw [List.append_cons]
      exact ih (h.next item)

theorem sharesJson_filled (shares : List SmbShare) :
    Filled (shares.mapIdx settingsItem) (sharesJson shares) := by
  have hempty : Filled [] { done := [], rest := [] } :=
    ⟨⟨[], List.Sublist.refl [], rfl⟩, by decide, Or.inl rfl⟩
  exact filled_foldl (shares.mapIdx settingsItem) hempty

/-- All that is written for the shares. -/
def itemsText (shares : List SmbShare) : Text :=
  (shares.mapIdx settingsItem).flatten

theorem sharesJson_all {shares : List SmbShare} (h : (itemsText shares).length < sharesJsonSize) :
    sharesJson shares = { done := itemsText shares, rest := [] } := by
  apply foldl_appendItem_all rfl
  rw [List.length_nil, Nat.zero_add]
  exact h

/-- When there is not enough room, a share is missing. -/
theorem Filled.missing {items : List Text} {json : SharesJson} (h : Filled items json)
    (hlong : sharesJsonSize ≤ items.flatten.length) :
    exists taken, List.Sublist taken items ∧ json.done = taken.flatten ∧
      taken.length < items.length := by
  rcases h.done with ⟨taken, hsub, hdone⟩
  refine ⟨taken, hsub, hdone, Nat.lt_of_le_of_ne hsub.length_le ?_⟩
  intro hlen
  have hroom := h.room
  rw [hdone, hsub.eq_of_length hlen] at hroom
  omega

/-!
# The members
-/

def shareValues (sh : SmbShare) : List (String × Value) :=
  [("id", .string (jsonStrEsc 64 sh.id)),
    ("label", .string (jsonStrEsc 128 sh.label)),
    ("server", .string (jsonStrEsc 256 sh.server)),
    ("port", .bare (intText sh.port)),
    ("share", .string (jsonStrEsc 256 sh.share)),
    ("path", .string (jsonStrEsc 512 sh.path)),
    ("username", .string (jsonStrEsc 128 sh.username)),
    ("password", .string []),
    ("has_password", .bare (boolText (sh.password != []))),
    ("workgroup", .string (jsonStrEsc 128 sh.workgroup)),
    ("is_read_only", .bare (boolText sh.isReadOnly)),
    ("browse_only", .bare (boolText sh.browseOnly)),
    ("enabled", .bare (boolText sh.enabled))]

def shareKeys : List String :=
  ["id", "label", "server", "port", "share", "path", "username", "password", "has_password",
    "workgroup", "is_read_only", "browse_only", "enabled"]

theorem shareValues_texts (sh : SmbShare) : texts (shareValues sh) = shareMembers sh := rfl

theorem shareValues_keys (sh : SmbShare) : (shareValues sh).map Prod.fst = shareKeys := rfl

theorem plainKey_shareKeys {key : String} (h : key ∈ shareKeys) : PlainKey key := by
  have hall : shareKeys.all (fun key => (ascii key) != [] && (ascii key).all isKeyByte) = true := by
    decide
  have hkey := List.all_eq_true.mp hall key h
  rw [Bool.and_eq_true] at hkey
  exact ⟨bne_iff_ne.mp hkey.left, hkey.right⟩

theorem escaped_jsonStrEsc (dstSz : Nat) (src : Text) : Escaped (jsonStrEsc dstSz src) := by
  rw [jsonStrEsc_eq]
  exact (escaped_pieces _).left

theorem read_jsonStrEsc (dstSz room : Nat) (src : Text) :
    (Value.string (jsonStrEsc dstSz src)).read.take room = readEsc dstSz room src := by
  change (unescaped (jsonStrEsc dstSz src)).take room = _
  rw [jsonStrEsc_eq, (escaped_pieces _).right]
  rfl

theorem port_fine {port : Int} (h : 0 < port) : (Value.bare (intText port)).Fine := by
  rw [intText_pos h]
  exact number_fine _

theorem shareValues_readable {sh : SmbShare} (h : 0 < sh.port) : Readable (shareValues sh) where
  keys m hm := by
    apply plainKey_shareKeys
    rw [<- shareValues_keys sh]
    exact List.mem_map_of_mem hm
  values := by
    have hstring : forall (dstSz : Nat) (src : Text),
        (Value.string (jsonStrEsc dstSz src)).Fine := escaped_jsonStrEsc
    unfold shareValues
    simp only [List.forall_mem_cons, List.not_mem_nil, false_implies, implies_true, and_true]
    exact ⟨hstring _ _, hstring _ _, hstring _ _, port_fine h, hstring _ _, hstring _ _,
      hstring _ _, Escaped.nil, bool_fine _, hstring _ _, bool_fine _, bool_fine _, bool_fine _⟩

/-- The share as it is read from what the browser got. -/
def returnedShare (sh : SmbShare) : SmbShare :=
  { sh with
    id := readEsc 64 31 sh.id
    label := readEsc 128 63 sh.label
    server := readEsc 256 127 sh.server
    share := readEsc 256 127 sh.share
    path := readEsc 512 255 sh.path
    username := readEsc 128 63 sh.username
    password := []
    workgroup := readEsc 128 63 sh.workgroup }

theorem shareOfItem_members {sh : SmbShare} (h : 0 < sh.port) (hlt : sh.port < 2 ^ 31) :
    shareOfItem (itemText tight (shareMembers sh)) = returnedShare sh := by
  have hread := extract_member tight (shareValues_readable h) (shareValues_keys sh)
  have hbare := extract_bare tight (shareValues_readable h) (shareValues_keys sh)
  rw [shareValues_texts] at hread hbare
  have hport : portField (itemText tight (shareMembers sh)) = sh.port :=
    portField_read h hlt (hbare 3 "port" rfl rfl ((intText_length h hlt).trans (by decide)))
  have henabled : enabledField (itemText tight (shareMembers sh)) = sh.enabled :=
    enabledField_read (hbare 12 "enabled" rfl rfl (boolText_short _))
  unfold shareOfItem
  rw [hport, henabled, hbare 10 "is_read_only" rfl rfl (boolText_short _),
    hbare 11 "browse_only" rfl rfl (boolText_short _), isTrueText_boolText,
    isTrueText_boolText, hread 0 "id" rfl rfl, hread 1 "label" rfl rfl, hread 2 "server" rfl rfl,
    hread 4 "share" rfl rfl, hread 5 "path" rfl rfl, hread 6 "username" rfl rfl,
    hread 7 "password" rfl rfl, hread 9 "workgroup" rfl rfl]
  simp only [read_jsonStrEsc]
  rfl

/-!
# Lengths
-/

theorem boolText_length (b : Bool) : (boolText b).length ≤ 5 := by
  cases b <;> decide

theorem intText_short {port : Int} (hlow : -2 ^ 31 ≤ port) (hlt : port < 2 ^ 31) :
    (intText port).length ≤ 11 := by
  have hdigits : forall n : Nat, n < 10 ^ 10 -> (digitsText n).length ≤ 10 := by
    intro n hn
    unfold digitsText
    rw [List.length_map]
    exact (Nat.length_toDigits_le_iff (by decide) (by decide)).mpr hn
  unfold intText
  split
  · have hsign : (ascii "-").length = 1 := rfl
    have habs := hdigits port.natAbs (by omega)
    rw [List.length_append, hsign]
    omega
  · exact (hdigits _ (by omega)).trans (by decide)

def memberLength (m : String × Text) : Nat :=
  (ascii m.1).length + m.2.length + 4

theorem memberLength_sum (members : List (String × Text)) :
    (members.map memberLength).sum =
      ((members.map Prod.fst).map (fun key => (ascii key).length + 4)).sum +
        (members.map (fun m => m.2.length)).sum := by
  induction members with
  | nil => rfl
  | cons m rest ih =>
      rw [List.map_cons, List.map_cons, List.map_cons, List.map_cons, List.sum_cons, List.sum_cons,
        List.sum_cons, ih, memberLength]
      omega

theorem membersText_length (members : List (String × Text)) :
    (membersText tight members).length ≤ (members.map memberLength).sum + 1 := by
  induction members with
  | nil => exact Nat.le_refl 1
  | cons m rest ih =>
      have hcomma : (comma rest).length ≤ 1 := by
        cases rest with
        | nil => exact Nat.zero_le 1
        | cons m' rest => exact Nat.le_refl 1
      have htext : (membersText tight (m :: rest)).length = (quoted m.1).length + (1 +
          (m.2.length + ((comma rest).length + (membersText tight rest).length))) := by
        change (quoted m.1 ++ 58 :: (m.2 ++ (comma rest ++ membersText tight rest))).length = _
        simp only [List.length_append, List.length_cons]
        omega
      have hkey : (quoted m.1).length = (ascii m.1).length + 2 := by
        unfold quoted
        rw [List.length_cons, List.length_append, List.length_singleton]
      rw [htext, hkey, List.map_cons, List.sum_cons, memberLength]
      omega

theorem inQuotes_length (dstSz : Nat) (h : 0 < dstSz) (src : Text) :
    (inQuotes (jsonStrEsc dstSz src)).length ≤ dstSz + 1 := by
  have hlen := jsonStrEsc_length h src
  rw [inQuotes, List.length_cons, List.length_append, List.length_singleton]
  omega

theorem flatten_length_le {items : List Text} {n : Nat}
    (h : forall item, item ∈ items -> item.length ≤ n) : items.flatten.length ≤ n * items.length := by
  induction items with
  | nil => exact Nat.zero_le _
  | cons item rest ih =>
      have hrest := ih (fun x hx => h x (List.mem_cons_of_mem item hx))
      rw [List.flatten_cons, List.length_append, List.length_cons, Nat.mul_succ, Nat.add_comm]
      exact Nat.add_le_add hrest (h item List.mem_cons_self)

theorem shareMembers_values {sh : SmbShare} (hlow : -2 ^ 31 ≤ sh.port) (hlt : sh.port < 2 ^ 31) :
    ((shareMembers sh).map (fun m => m.2.length)).sum ≤ 1512 := by
  have hid := inQuotes_length 64 (by decide) sh.id
  have hlabel := inQuotes_length 128 (by decide) sh.label
  have hserver := inQuotes_length 256 (by decide) sh.server
  have hport := intText_short hlow hlt
  have hshare := inQuotes_length 256 (by decide) sh.share
  have hpath := inQuotes_length 512 (by decide) sh.path
  have husername := inQuotes_length 128 (by decide) sh.username
  have hpassword : (inQuotes []).length ≤ 2 := Nat.le_refl 2
  have hhas := boolText_length (sh.password != [])
  have hworkgroup := inQuotes_length 128 (by decide) sh.workgroup
  have hreadOnly := boolText_length sh.isReadOnly
  have hbrowse := boolText_length sh.browseOnly
  have henabled := boolText_length sh.enabled
  simp only [shareMembers, List.map_cons, List.map_nil, List.sum_cons, List.sum_nil]
  linarith

/-- No share takes more than a quarter of the array. -/
theorem settingsItem_length {sh : SmbShare} (hlow : -2 ^ 31 ≤ sh.port) (hlt : sh.port < 2 ^ 31)
    (i : Nat) : (settingsItem i sh).length ≤ 1800 := by
  have hkeys : (shareKeys.map (fun key => (ascii key).length + 4)).sum = 145 := by decide
  have hmembers := membersText_length (shareMembers sh)
  have hvalues := shareMembers_values hlow hlt
  have hsum := memberLength_sum (shareMembers sh)
  have hfirst : (shareMembers sh).map Prod.fst = shareKeys := rfl
  rw [hfirst, hkeys] at hsum
  have hcomma : (shareComma i).length ≤ 1 := by
    unfold shareComma
    split <;> decide
  rw [settingsItem, itemText, List.length_append, List.length_cons]
  omega

/-!
# The body
-/

theorem settingsFlags_length (s : AppSettings) : (settingsFlags s).length ≤ 170 := by
  have h1 := boolText_length s.moveInstalledToEnd
  have h2 := boolText_length s.fadeInstalledPackages
  have h3 := boolText_length s.allSourcesMode
  have h4 := boolText_length s.pkgInstallDebug
  have h5 := boolText_length s.allowPs4OnPs5
  have c1 : (ascii "\x7b\"move_installed_to_end\":").length = 25 := rfl
  have c2 : (ascii ",\"fade_installed_packages\":").length = 27 := rfl
  have c3 : (ascii ",\"all_sources_mode\":").length = 20 := rfl
  have c4 : (ascii ",\"pkg_install_debug\":").length = 21 := rfl
  have c5 : (ascii ",\"allow_ps4_on_ps5\":").length = 20 := rfl
  have c6 : (ascii ",").length = 1 := rfl
  unfold settingsFlags
  simp only [List.length_append]
  omega

/-- Neither a zero byte nor a bracket. -/
def isFlagByte (b : UInt8) : Bool :=
  b != 0 && b != 91

theorem settingsFlags_bytes (s : AppSettings) : (settingsFlags s).all isFlagByte = true := by
  have hword : forall b : Bool, (boolText b).all isFlagByte = true := by
    intro b
    cases b <;> rfl
  unfold settingsFlags
  simp only [List.all_append, hword, Bool.true_and]
  rfl

theorem zeroFree_settingsFlags (s : AppSettings) : ZeroFree (settingsFlags s) := by
  intro b hb
  have hbyte := List.all_eq_true.mp (settingsFlags_bytes s) b hb
  rw [isFlagByte, Bool.and_eq_true, bne_iff_ne] at hbyte
  exact hbyte.left

theorem settingsFlags_open (s : AppSettings) : (91 : UInt8) ∉ settingsFlags s := by
  intro hmem
  have hbyte := List.all_eq_true.mp (settingsFlags_bytes s) 91 hmem
  cases hbyte

/-- The shares that fitted are there; what stands behind them may be cut. -/
theorem settingsBody_split (s : AppSettings) : exists room, 800 ≤ room ∧
    settingsBody s = settingsFlags s ++ (quoted "smb_shares" ++ (ascii ":" ++
      91 :: ((sharesJson s.shares).done ++
        ((sharesJson s.shares).rest ++ [93, 125]).take room))) := by
  have hflags := settingsFlags_length s
  generalize hjson : sharesJson s.shares = json
  have hhead : (settingsFlags s ++ (quoted "smb_shares" ++ (ascii ":[" ++ json.done))).length =
      (settingsFlags s).length + (14 + json.done.length) := by
    have hkey : (quoted "smb_shares").length = 12 := rfl
    have hopen : (ascii ":[").length = 2 := rfl
    simp only [List.length_append, hkey, hopen]
    omega
  refine ⟨1009 - (settingsFlags s).length, by omega, ?_⟩
  have htext : settingsBody s = ((settingsFlags s ++ (quoted "smb_shares" ++
      (ascii ":[" ++ json.done))) ++ (json.rest ++ [93, 125])).take
        ((settingsFlags s ++ (quoted "smb_shares" ++ (ascii ":[" ++ json.done))).length +
          (1009 - (settingsFlags s).length)) := by
    have hroom : (settingsFlags s).length + (14 + json.done.length) +
        (1009 - (settingsFlags s).length) = json.done.length + 1024 - 1 := by omega
    unfold settingsBody
    rw [hjson, hhead, hroom]
    dsimp only
    rw [List.append_assoc, List.append_assoc, List.append_assoc]
    rfl
  rw [htext, List.take_length_add_append, List.append_assoc, List.append_assoc, List.append_assoc]
  rfl

/-!
# Reading the body
-/

/-- The shares with what stands in front of them. -/
def shareParts (shares : List SmbShare) : List (Text × Text) :=
  shares.mapIdx (fun i sh => (shareComma i, itemText tight (shareMembers sh)))

theorem shareParts_items (shares : List SmbShare) :
    (shareParts shares).map (fun p => p.1 ++ p.2) = shares.mapIdx settingsItem := by
  apply List.ext_getElem?
  intro i
  rw [shareParts, List.getElem?_map, List.getElem?_mapIdx, List.getElem?_mapIdx, Option.map_map]
  rfl

theorem shareParts_objects (shares : List SmbShare) :
    (shareParts shares).map Prod.snd = shares.map (fun sh => itemText tight (shareMembers sh)) := by
  apply List.ext_getElem?
  intro i
  rw [shareParts, List.getElem?_map, List.getElem?_mapIdx, List.getElem?_map, Option.map_map]
  rfl

theorem between_shareComma (i : Nat) : Between (shareComma i) := by
  intro b hb
  unfold shareComma at hb
  split at hb
  · rw [List.mem_singleton.mp hb]
    decide
  · cases hb

theorem shareParts_fine {shares : List SmbShare} (h : forall sh, sh ∈ shares -> 0 < sh.port)
    {p : Text × Text} (hp : p ∈ shareParts shares) : Between p.1 ∧ OneObject p.2 := by
  rcases List.mem_mapIdx.mp hp with ⟨i, hi, rfl⟩
  refine ⟨between_shareComma i, ?_⟩
  rw [<- shareValues_texts]
  exact oneObject_item tight (shareValues_readable (h _ (List.getElem_mem hi)))

theorem zeroFree_shareComma (i : Nat) : ZeroFree (shareComma i) :=
  fun b hb => (between_shareComma i b hb).left

theorem zeroFree_shareItem {sh : SmbShare} (h : 0 < sh.port) (i : Nat) :
    ZeroFree (settingsItem i sh) := by
  unfold settingsItem
  rw [<- shareValues_texts]
  exact zeroFree_append (zeroFree_shareComma i) (zeroFree_item tight (shareValues_readable h))

theorem zeroFree_items {shares : List SmbShare} (h : forall sh, sh ∈ shares -> 0 < sh.port)
    {item : Text} (hitem : item ∈ shares.mapIdx settingsItem) : ZeroFree item := by
  rcases List.mem_mapIdx.mp hitem with ⟨i, hi, rfl⟩
  exact zeroFree_shareItem (h _ (List.getElem_mem hi)) i

theorem zeroFree_settingsBody {s : AppSettings} (h : forall sh, sh ∈ s.shares -> 0 < sh.port) :
    ZeroFree (settingsBody s) := by
  have hfilled := sharesJson_filled s.shares
  rcases settingsBody_split s with ⟨room, _, hbody⟩
  have hdone : ZeroFree (sharesJson s.shares).done := by
    rcases hfilled.done with ⟨taken, hsub, hdone⟩
    rw [hdone]
    intro b hb
    rcases List.mem_flatten.mp hb with ⟨item, hitem, hb⟩
    exact zeroFree_items h (hsub.subset hitem) b hb
  have hrest : ZeroFree (sharesJson s.shares).rest := by
    rcases hfilled.rest with hnil | ⟨item, more, hitem, _, hcut⟩
    · rw [hnil]
      exact zeroFree_of_all rfl
    · have hfree := zeroFree_items h hitem
      rw [hcut] at hfree
      exact fun b hb => hfree b (List.mem_append_left more hb)
  have hend : ZeroFree (((sharesJson s.shares).rest ++ [93, 125]).take room) := by
    intro b hb
    exact zeroFree_append hrest (zeroFree_of_all rfl) b (List.mem_of_mem_take hb)
  have hkey : ZeroFree (quoted "smb_shares") := zeroFree_of_all rfl
  have hcolon : ZeroFree (ascii ":") := zeroFree_of_all rfl
  have hopen : ZeroFree [91] := zeroFree_of_all rfl
  rw [hbody]
  exact zeroFree_append (zeroFree_settingsFlags s) (zeroFree_append hkey (zeroFree_append hcolon
    (zeroFree_append hopen (zeroFree_append hdone hend))))

/-- The objects in the body are those of the shares that fitted. -/
theorem settingsBody_objects {s : AppSettings} (h : forall sh, sh ∈ s.shares -> 0 < sh.port)
    {taken : List (Text × Text)} (hsub : List.Sublist taken (shareParts s.shares))
    (hdone : (sharesJson s.shares).done = taken.flatMap (fun p => p.1 ++ p.2)) :
    shareObjects (settingsBody s) = taken.map Prod.snd := by
  have hfilled := sharesJson_filled s.shares
  rcases settingsBody_split s with ⟨room, _, hbody⟩
  have hcolon : ZeroFree (ascii ":") ∧ (91 : UInt8) ∉ ascii ":" := ⟨zeroFree_of_all rfl, by decide⟩
  have hend : listObjects (((sharesJson s.shares).rest ++ [93, 125]).take room) = [] := by
    rcases hfilled.rest with hnil | ⟨item, more, hitem, hmore, hcut⟩
    · rw [hnil]
      apply listObjects_none
      intro hmem
      exact absurd (List.mem_of_mem_take hmem) (by decide)
    · rw [<- shareParts_items] at hitem
      rcases List.mem_map.mp hitem with ⟨p, hp, rfl⟩
      rcases shareParts_fine h hp with ⟨hbetween, hobject⟩
      exact listObjects_cut hbetween hobject hcut hmore room
  rw [hbody, shareObjects_list (zeroFree_settingsFlags s) (settingsFlags_open s) hcolon.left
    hcolon.right, hdone, listObjects_items (fun p hp => shareParts_fine h (hsub.subset hp)),
    hend, List.append_nil]

theorem settingsBody_fitting {s : AppSettings} (h : forall sh, sh ∈ s.shares -> 0 < sh.port)
    (hroom : (itemsText s.shares).length < sharesJsonSize) :
    shareObjects (settingsBody s) =
      s.shares.map (fun sh => itemText tight (shareMembers sh)) := by
  rw [<- shareParts_objects]
  apply settingsBody_objects h (List.Sublist.refl _)
  rw [sharesJson_all hroom, itemsText, <- shareParts_items, List.flatMap_def]

theorem settingsBody_missing {s : AppSettings} (h : forall sh, sh ∈ s.shares -> 0 < sh.port)
    (hlong : sharesJsonSize ≤ (itemsText s.shares).length) :
    (shareObjects (settingsBody s)).length < s.shares.length := by
  rcases (sharesJson_filled s.shares).missing hlong with ⟨items, hsub, hdone, hshort⟩
  rw [<- shareParts_items] at hsub
  rcases List.sublist_map_iff.mp hsub with ⟨taken, htaken, rfl⟩
  rw [<- List.flatMap_def] at hdone
  rw [settingsBody_objects h htaken hdone, List.length_map]
  rwa [List.length_map, List.length_mapIdx] at hshort

end Smb
end PkgManager
