import PkgManager.Secrets.SettingsFile

/-!
# Settings across a restart

The file is never cut by its reader, and the flags come back as they were.  A share comes back
when the reader accepts it as it is stored and none of its texts has a control byte.
-/

namespace PkgManager
namespace Secrets

open CString
open PkgManager.Parser
open PkgManager.Smb
open PkgManager.Cache (Value unescaped Readable PlainKey NoControl FieldFits boolText keyMark
  escapeJsonStr readBack)

/-!
# One share in the file
-/

/-- The share as it is read from the file. -/
def readShare (sh : SmbShare) : SmbShare :=
  { sh with
    id := readBack sh.id
    label := readBack sh.label
    server := readBack sh.server
    share := readBack sh.share
    path := readBack sh.path
    username := readBack sh.username
    password := readBack sh.password
    workgroup := readBack sh.workgroup }

def savedKeys : List String :=
  ["id", "label", "server", "port", "share", "path", "username", "password", "workgroup",
    "is_read_only", "browse_only", "enabled"]

theorem savedValues_keys (sh : SmbShare) : (savedValues sh).map Prod.fst = savedKeys := rfl

theorem plainKey_savedKeys {key : String} (h : key ∈ savedKeys) : PlainKey key := by
  apply plainKey_shareKeys
  have hall : savedKeys.all (fun k => shareKeys.contains k) = true := by decide
  exact List.contains_iff_mem.mp (List.all_eq_true.mp hall key h)

theorem savedValues_readable {sh : SmbShare} (h : ShareFits sh) : Readable (savedValues sh) where
  keys m hm := by
    apply plainKey_savedKeys
    rw [<- savedValues_keys sh]
    exact List.mem_map_of_mem hm
  values := by
    unfold savedValues
    simp only [List.forall_mem_cons, List.not_mem_nil, false_implies, implies_true, and_true]
    exact ⟨Cache.string_fine h.id (by decide), Cache.string_fine h.label (by decide),
      Cache.string_fine h.server (by decide), port_fine h.port_pos,
      Cache.string_fine h.share (by decide), Cache.string_fine h.path (by decide),
      Cache.string_fine h.username (by decide), Cache.string_fine h.password (by decide),
      Cache.string_fine h.workgroup (by decide), Cache.bool_fine _, Cache.bool_fine _,
      Cache.bool_fine _⟩

/-- Every text comes back without its control bytes. -/
theorem read_escaped {size dstMax : Nat} {src : Text} (h : FieldFits size src)
    (hroom : 2 * size ≤ dstMax + 1) :
    (Value.string (escapeJsonStr dstMax src)).read.take (size - 1) = readBack src := by
  have hread : (Value.string (escapeJsonStr dstMax src)).read = readBack src := by
    change unescaped (escapeJsonStr dstMax src) = readBack src
    rw [Cache.escapeJsonStr_eq h hroom]
    rfl
  rw [hread]
  apply List.take_of_length_le
  exact (Cache.readBack_length h.zeroFree).trans (Nat.le_sub_one_of_lt h.short)

theorem shareOfItem_saved {sh : SmbShare} (h : ShareFits sh) :
    shareOfItem (savedItem sh) = readShare sh := by
  have hread := extract_member lines (savedValues_readable h) (savedValues_keys sh)
  have hbare := extract_bare lines (savedValues_readable h) (savedValues_keys sh)
  have hport : portField (savedItem sh) = sh.port :=
    portField_read h.port_pos h.port_lt
      (hbare 3 "port" rfl rfl ((intText_length h.port_pos h.port_lt).trans (by decide)))
  have henabled : enabledField (savedItem sh) = sh.enabled :=
    enabledField_read (hbare 11 "enabled" rfl rfl (boolText_short _))
  unfold shareOfItem
  rw [hport, henabled]
  unfold savedItem
  rw [hbare 9 "is_read_only" rfl rfl (boolText_short _),
    hbare 10 "browse_only" rfl rfl (boolText_short _), isTrueText_boolText,
    isTrueText_boolText, hread 0 "id" rfl rfl, hread 1 "label" rfl rfl, hread 2 "server" rfl rfl,
    hread 4 "share" rfl rfl, hread 5 "path" rfl rfl, hread 6 "username" rfl rfl,
    hread 7 "password" rfl rfl, hread 8 "workgroup" rfl rfl, read_escaped h.id (by decide),
    read_escaped h.label (by decide), read_escaped h.server (by decide),
    read_escaped h.share (by decide), read_escaped h.path (by decide),
    read_escaped h.username (by decide), read_escaped h.password (by decide),
    read_escaped h.workgroup (by decide)]
  rfl

/-!
# All shares in the file
-/

theorem oneObject_saved {sh : SmbShare} (h : ShareFits sh) : OneObject (savedItem sh) :=
  oneObject_item lines (savedValues_readable h)

theorem between_of_all {text : Text}
    (h : text.all (fun b => b != 0 && b != 93 && b != 123) = true) : Between text := by
  intro b hb
  have hbyte := List.all_eq_true.mp h b hb
  simp only [Bool.and_eq_true, bne_iff_ne] at hbyte
  exact ⟨hbyte.left.left, hbyte.left.right, hbyte.right⟩

theorem between_append {a b : Text} (ha : Between a) (hb : Between b) : Between (a ++ b) := by
  intro x hx
  rcases List.mem_append.mp hx with hx | hx
  · exact ha x hx
  · exact hb x hx

theorem listObjects_saved {shares : List SmbShare} (h : forall sh, sh ∈ shares -> ShareFits sh)
    {lead : Text} (hlead : Between lead) :
    listObjects (lead ++ (savedItems shares ++ ascii "  ]\n\x7d\n")) = shares.map savedItem := by
  induction shares generalizing lead with
  | nil =>
      apply listObjects_none
      intro hmem
      rcases List.mem_append.mp hmem with hmem | hmem
      · exact (hlead 123 hmem).right.right rfl
      · exact absurd hmem (by decide)
  | cons sh rest ih =>
      have hblank : Between (lead ++ ascii "    ") := between_append hlead (between_of_all rfl)
      have hcomma : Between ((if rest.isEmpty then [] else ascii ",") ++ ascii "\n") := by
        apply between_append _ (between_of_all rfl)
        split <;> exact between_of_all rfl
      have htext : lead ++ (savedItems (sh :: rest) ++ ascii "  ]\n\x7d\n") =
          (lead ++ ascii "    ") ++ (savedItem sh ++
            (((if rest.isEmpty then [] else ascii ",") ++ ascii "\n") ++
              (savedItems rest ++ ascii "  ]\n\x7d\n"))) := by
        rw [savedItems]
        simp only [List.append_assoc]
      rw [htext, listObjects_cons hblank (oneObject_saved (h sh List.mem_cons_self)),
        ih (fun x hx => h x (List.mem_cons_of_mem sh hx)) hcomma, List.map_cons]

/-!
# The flags in the file
-/

/-- Neither a zero byte, a quotation mark nor a colon. -/
def isFlagKeyByte (b : UInt8) : Bool :=
  b != 0 && b != quote && b != 58

structure FlagKey (key : String) : Prop where
  nonempty : ascii key ≠ []
  plain : (ascii key).all isFlagKeyByte = true

theorem FlagKey.byte {key : String} (h : FlagKey key) {b : UInt8} (hb : b ∈ ascii key) :
    b ≠ 0 ∧ b ≠ quote ∧ b ≠ 58 := by
  have hbyte := List.all_eq_true.mp h.plain b hb
  rw [isFlagKeyByte, Bool.and_eq_true, Bool.and_eq_true, bne_iff_ne, bne_iff_ne, bne_iff_ne]
    at hbyte
  exact ⟨hbyte.left.left, hbyte.left.right, hbyte.right⟩

def flagKeys : List String :=
  ["move_installed_to_end", "fade_installed_packages", "all_sources_mode", "pkg_install_debug",
    "allow_ps4_on_ps5"]

theorem flagMembers_keys (s : AppSettings) : (flagMembers s).map Prod.fst = flagKeys := rfl

theorem flagKey_members {s : AppSettings} {m : String × Bool} (h : m ∈ flagMembers s) :
    FlagKey m.1 := by
  have hall : flagKeys.all (fun key => (ascii key) != [] && (ascii key).all isFlagKeyByte) =
      true := by decide
  have hkey := List.all_eq_true.mp hall m.1 (flagMembers_keys s ▸ List.mem_map_of_mem h)
  rw [Bool.and_eq_true] at hkey
  exact ⟨bne_iff_ne.mp hkey.left, hkey.right⟩

/-- Up to the first quotation mark the texts are the same. -/
theorem eq_of_quotes {a b ends rest : Text} (ha : quote ∉ a) (hb : quote ∉ b)
    (h : a ++ quote :: ends <+: b ++ quote :: rest) : a = b := by
  have htake : forall {text behind : Text}, quote ∉ text ->
      (text ++ quote :: behind).takeWhile (fun x => x != quote) = text := by
    intro text behind hnone
    rw [List.takeWhile_append_of_pos, List.takeWhile_cons_of_neg, List.append_nil]
    · exact fun heq => absurd rfl (bne_iff_ne.mp heq)
    · intro x hx
      exact bne_iff_ne.mpr (fun heq => hnone (heq ▸ hx))
  rcases h with ⟨more, hmore⟩
  have hsame := congrArg (List.takeWhile (fun x => x != quote)) hmore
  rw [List.append_assoc, List.cons_append, htake ha, htake hb] at hsame
  exact hsame

theorem flagMark_pass {key other : String} (hkey : FlagKey key) (hother : FlagKey other)
    (hne : ascii other ≠ ascii key) (rest : Text) :
    strstr (keyMark key) (quoted other ++ 58 :: rest) = strstr (keyMark key) rest := by
  have hopen : ¬ keyMark key <+: quote :: (ascii other ++ quote :: 58 :: rest) := by
    rw [Cache.keyMark_eq, List.cons_prefix_cons]
    intro h
    exact hne (eq_of_quotes (fun hmem => (hkey.byte hmem).right.left rfl)
      (fun hmem => (hother.byte hmem).right.left rfl) h.right).symm
  have hclose : ¬ keyMark key <+: quote :: 58 :: rest := by
    rw [Cache.keyMark_eq, List.cons_prefix_cons]
    intro h
    cases hbytes : ascii key with
    | nil => exact hkey.nonempty hbytes
    | cons k ks =>
        rw [hbytes, List.cons_append, List.cons_prefix_cons] at h
        exact (hkey.byte (hbytes ▸ List.mem_cons_self)).right.right h.right.left
  unfold quoted
  rw [List.cons_append, List.append_assoc, List.singleton_append,
    Cache.strstr_pass hopen (by decide),
    Cache.keyMark_pass (fun b hb => ⟨(hother.byte hb).left, (hother.byte hb).right.left⟩),
    Cache.strstr_pass hclose (by decide)]
  exact Cache.strstr_pass (Cache.keyMark_miss (by decide) rest) (by decide)

theorem unquoted_of_all {text : Text} (h : text.all (fun b => b != 0 && b != quote) = true) :
    forall b, b ∈ text -> b ≠ 0 ∧ b ≠ quote := by
  intro b hb
  have hbyte := List.all_eq_true.mp h b hb
  rw [Bool.and_eq_true, bne_iff_ne, bne_iff_ne] at hbyte
  exact hbyte

theorem boolText_plain (b : Bool) : forall c, c ∈ boolText b -> c ≠ 0 ∧ c ≠ quote := by
  cases b <;> exact unquoted_of_all rfl

/-- A flag is found on its line. -/
theorem strstr_flags {key : String} (hkey : FlagKey key) {flags : List (String × Bool)}
    (hflags : forall m, m ∈ flags -> FlagKey m.1) {m : String × Bool}
    (h : flags.find? (fun m => ascii m.1 == ascii key) = some m) (rest : Text) :
    exists tail, strstr (keyMark key) (flagsText flags ++ rest) =
      some (keyMark key ++ (32 :: (boolText m.2 ++ 44 :: tail))) := by
  have hblank : forall b, b ∈ ascii "\n  " -> b ≠ 0 ∧ b ≠ quote := unquoted_of_all rfl
  induction flags with
  | nil => cases h
  | cons first others ih =>
      rcases first with ⟨other, b⟩
      have htext : flagsText ((other, b) :: others) ++ rest = ascii "\n  " ++ (quoted other ++
          58 :: (32 :: (boolText b ++ 44 :: (flagsText others ++ rest)))) := by
        rw [flagsText]
        simp only [List.append_assoc, List.cons_append]
      rw [htext, Cache.keyMark_pass hblank]
      by_cases hsame : ascii other = ascii key
      · rw [List.find?_cons, beq_iff_eq.mpr hsame] at h
        cases h
        have hquoted : forall behind : Text,
            quoted other ++ 58 :: behind = keyMark key ++ behind := by
          intro behind
          unfold keyMark quoted
          rw [hsame]
          simp
        rw [hquoted]
        exact ⟨_, Cache.strstr_here (List.prefix_append _ _)⟩
      · rw [List.find?_cons, beq_false_of_ne hsame] at h
        rcases ih (fun m hm => hflags m (List.mem_cons_of_mem _ hm)) h with ⟨tail, hfound⟩
        refine ⟨tail, ?_⟩
        rw [flagMark_pass hkey (hflags _ List.mem_cons_self) hsame,
          Cache.strstr_pass (Cache.keyMark_miss (by decide) _) (by decide),
          Cache.keyMark_pass (boolText_plain b),
          Cache.strstr_pass (Cache.keyMark_miss (by decide) _) (by decide)]
        exact hfound

theorem wordBehind_flag (key word : String) (b : Bool) (tail : Text) :
    wordBehind key word (keyMark key ++ (32 :: (boolText b ++ 44 :: tail))) =
      ((ascii word).isPrefixOf (32 :: (boolText b ++ 44 :: tail)) ||
        (ascii word).isPrefixOf (boolText b ++ 44 :: tail)) := by
  have hnext : (keyMark key ++ (32 :: (boolText b ++ 44 :: tail))).drop ((keyMark key).length + 1) =
      boolText b ++ 44 :: tail := by
    rw [<- List.drop_drop, List.drop_left]
    rfl
  rw [wordBehind, hnext, List.drop_left]

/-- The flag at a place is found, when its key is not an earlier one. -/
theorem find_flag (s : AppSettings) (i : Nat) {key : String} {b : Bool}
    (hm : (flagMembers s)[i]? = some (key, b))
    (hbefore : (flagKeys.take i).all (fun k => ascii k != ascii key) = true) :
    (flagMembers s).find? (fun m => ascii m.1 == ascii key) = some (key, b) :=
  Cache.find_member hm hbefore

section Saved

variable {s : AppSettings} {key : String} {b : Bool}
  (h : (flagMembers s).find? (fun m => ascii m.1 == ascii key) = some (key, b))
  (old : Bool) (rest : Text)

include h

theorem strstr_saved : exists tail, strstr (keyMark key)
    (ascii "\x7b" ++ (flagsText (flagMembers s) ++ rest)) =
      some (keyMark key ++ (32 :: (boolText b ++ 44 :: tail))) := by
  have hmem := List.mem_of_find?_eq_some h
  have hopen : forall c, c ∈ ascii "\x7b" -> c ≠ 0 ∧ c ≠ quote := unquoted_of_all rfl
  rw [Cache.keyMark_pass hopen]
  exact strstr_flags (flagKey_members hmem) (fun _ hm => flagKey_members hm) h rest

theorem loadOn_saved :
    loadOn key old (ascii "\x7b" ++ (flagsText (flagMembers s) ++ rest)) = b := by
  rcases strstr_saved h rest with ⟨tail, hfound⟩
  unfold loadOn
  rw [hfound]
  dsimp only
  rw [wordBehind_flag]
  cases b <;> rfl

theorem loadOff_saved :
    loadOff key old (ascii "\x7b" ++ (flagsText (flagMembers s) ++ rest)) = b := by
  rcases strstr_saved h rest with ⟨tail, hfound⟩
  unfold loadOff
  rw [hfound]
  dsimp only
  rw [wordBehind_flag]
  cases b <;> rfl

end Saved

theorem loadAllowPs4_saved (s : AppSettings) (old : Bool) (rest : Text) :
    loadAllowPs4 old (ascii "\x7b" ++ (flagsText (flagMembers s) ++ rest)) = s.allowPs4OnPs5 := by
  rcases strstr_saved (find_flag s 4 rfl (by decide)) rest with
    ⟨tail, hfound⟩
  unfold loadAllowPs4
  rw [hfound]
  dsimp only
  rw [wordBehindSpaces, List.drop_left]
  cases s.allowPs4OnPs5 <;> rfl

/-!
# The file
-/

theorem flagsText_bytes (s : AppSettings) : (flagsText (flagMembers s)).all isFlagByte = true := by
  have hword : forall b : Bool, (boolText b).all isFlagByte = true := by
    intro b
    cases b <;> rfl
  unfold flagMembers
  simp only [flagsText, List.all_append, List.all_cons, hword, Bool.true_and]
  rfl

theorem flagsText_length (s : AppSettings) : (flagsText (flagMembers s)).length ≤ 160 := by
  have h1 := boolText_length s.moveInstalledToEnd
  have h2 := boolText_length s.fadeInstalledPackages
  have h3 := boolText_length s.allSourcesMode
  have h4 := boolText_length s.pkgInstallDebug
  have h5 := boolText_length s.allowPs4OnPs5
  have hline : (ascii "\n  ").length = 3 := rfl
  have c1 : (quoted "move_installed_to_end").length = 23 := rfl
  have c2 : (quoted "fade_installed_packages").length = 25 := rfl
  have c3 : (quoted "all_sources_mode").length = 18 := rfl
  have c4 : (quoted "pkg_install_debug").length = 19 := rfl
  have c5 : (quoted "allow_ps4_on_ps5").length = 18 := rfl
  unfold flagMembers
  simp only [flagsText, List.length_append, List.length_cons, List.length_nil]
  omega

theorem membersText_length_le (l : Layout) (members : List (String × Text)) :
    (membersText l members).length ≤ (members.map memberLength).sum +
      members.length * (l.lead.length + l.gap.length) + l.last.length + 1 := by
  induction members with
  | nil =>
      change (l.last ++ [125]).length ≤ _
      rw [List.length_append, List.length_singleton, List.map_nil, List.sum_nil, List.length_nil,
        Nat.zero_mul, Nat.zero_add]
  | cons m rest ih =>
      have hcomma : (comma rest).length ≤ 1 := by
        cases rest with
        | nil => exact Nat.zero_le 1
        | cons m' rest => exact Nat.le_refl 1
      have htext : (membersText l (m :: rest)).length = l.lead.length + ((quoted m.1).length +
          (1 + (l.gap.length + (m.2.length + ((comma rest).length +
            (membersText l rest).length))))) := by
        change (l.lead ++ (quoted m.1 ++ 58 :: (l.gap ++ (m.2 ++ (comma rest ++
          membersText l rest))))).length = _
        simp only [List.length_append, List.length_cons]
        omega
      have hkey : (quoted m.1).length = (ascii m.1).length + 2 := by
        unfold quoted
        rw [List.length_cons, List.length_append, List.length_singleton]
      rw [htext, hkey, List.map_cons, List.sum_cons, memberLength, List.length_cons, Nat.add_mul,
        Nat.one_mul]
      omega

theorem escaped_length {size : Nat} {src : Text} (dstMax : Nat) (h : FieldFits size src)
    (hroom : 2 * size ≤ dstMax + 1) :
    (Value.string (escapeJsonStr dstMax src)).text.length ≤ 2 * size := by
  have hlen := Cache.flatMap_length src
  have hshort := h.short
  change (quote :: (escapeJsonStr dstMax src ++ [quote])).length ≤ _
  rw [Cache.escapeJsonStr_eq h hroom, List.length_cons, List.length_append, List.length_singleton]
  omega

theorem savedValues_length {sh : SmbShare} (h : ShareFits sh) :
    ((texts (savedValues sh)).map (fun m => m.2.length)).sum ≤ 1626 := by
  have hid := escaped_length 128 h.id (by decide)
  have hlabel := escaped_length 256 h.label (by decide)
  have hserver := escaped_length 256 h.server (by decide)
  have hpos := h.port_pos
  have hport := @intText_short sh.port (by omega) h.port_lt
  have hshare := escaped_length 256 h.share (by decide)
  have hpath := escaped_length 512 h.path (by decide)
  have husername := escaped_length 256 h.username (by decide)
  have hpassword := escaped_length 256 h.password (by decide)
  have hworkgroup := escaped_length 256 h.workgroup (by decide)
  have hreadOnly := boolText_length sh.isReadOnly
  have hbrowse := boolText_length sh.browseOnly
  have henabled := boolText_length sh.enabled
  have hbare : forall text : Text, (Value.bare text).text = text := fun _ => rfl
  simp only [savedValues, texts, List.map_cons, List.map_nil, List.sum_cons, List.sum_nil, hbare]
  linarith

/-- There is room in the file for a share whose texts all double in length. -/
theorem savedItem_length {sh : SmbShare} (h : ShareFits sh) : (savedItem sh).length ≤ 1860 := by
  have hkeys : (savedKeys.map (fun key => (ascii key).length + 4)).sum = 129 := by decide
  have hmembers := membersText_length_le lines (texts (savedValues sh))
  have hvalues := savedValues_length h
  have hsum := memberLength_sum (texts (savedValues sh))
  have hfirst : (texts (savedValues sh)).map Prod.fst = savedKeys := rfl
  have hcount : (texts (savedValues sh)).length = 12 := rfl
  have hlead : lines.lead.length = 7 := rfl
  have hgap : lines.gap.length = 1 := rfl
  have hlast : lines.last.length = 5 := rfl
  rw [hfirst, hkeys] at hsum
  rw [hcount, hlead, hgap, hlast] at hmembers
  rw [savedItem, itemText, List.length_cons]
  omega

theorem savedItems_length {shares : List SmbShare} (h : forall sh, sh ∈ shares -> ShareFits sh) :
    (savedItems shares).length ≤ 1866 * shares.length := by
  induction shares with
  | nil => exact Nat.zero_le _
  | cons sh rest ih =>
      have hitem := savedItem_length (h sh List.mem_cons_self)
      have hrest := ih (fun x hx => h x (List.mem_cons_of_mem sh hx))
      have hcomma : (if rest.isEmpty then [] else ascii ",").length ≤ 1 := by
        split <;> decide
      have hblank : (ascii "    ").length = 4 := rfl
      have hline : (ascii "\n").length = 1 := rfl
      rw [savedItems, List.length_append, List.length_append, List.length_append,
        List.length_append, hblank, hline, List.length_cons]
      omega

theorem zeroFree_savedItems {shares : List SmbShare}
    (h : forall sh, sh ∈ shares -> ShareFits sh) : ZeroFree (savedItems shares) := by
  induction shares with
  | nil => exact zeroFree_of_all rfl
  | cons sh rest ih =>
      have hcomma : ZeroFree (if rest.isEmpty then [] else ascii ",") := by
        split <;> exact zeroFree_of_all rfl
      rw [savedItems]
      apply zeroFree_append (zeroFree_of_all rfl)
      apply zeroFree_append (zeroFree_item lines (savedValues_readable (h sh List.mem_cons_self)))
      apply zeroFree_append hcomma
      apply zeroFree_append (zeroFree_of_all rfl)
      exact ih (fun x hx => h x (List.mem_cons_of_mem sh hx))

/-- What stands in front of the list. -/
def savedHead (s : AppSettings) : Text :=
  ascii "\x7b" ++ (flagsText (flagMembers s) ++ ascii "\n  ")

theorem savedHead_bytes (s : AppSettings) : (savedHead s).all isFlagByte = true := by
  unfold savedHead
  rw [List.all_append, List.all_append, flagsText_bytes]
  rfl

theorem zeroFree_savedHead (s : AppSettings) : ZeroFree (savedHead s) := by
  intro b hb
  have hbyte := List.all_eq_true.mp (savedHead_bytes s) b hb
  rw [isFlagByte, Bool.and_eq_true, bne_iff_ne] at hbyte
  exact hbyte.left

theorem savedHead_open (s : AppSettings) : (91 : UInt8) ∉ savedHead s := by
  intro hmem
  have hbyte := List.all_eq_true.mp (savedHead_bytes s) 91 hmem
  cases hbyte

theorem savedText_eq (s : AppSettings) : savedText s = savedHead s ++ (quoted "smb_shares" ++
    (ascii ": " ++ 91 :: (ascii "\n" ++ (savedItems s.shares ++ ascii "  ]\n\x7d\n")))) := by
  unfold savedText savedHead
  rw [List.append_assoc, List.append_assoc]

section Fit

variable {s : AppSettings} (h : SettingsFit s)

include h

theorem zeroFree_savedText : ZeroFree (savedText s) := by
  have hkey : ZeroFree (quoted "smb_shares") := zeroFree_of_all rfl
  have hopen : ZeroFree [91] := zeroFree_of_all rfl
  have hcolon : ZeroFree (ascii ": ") := zeroFree_of_all rfl
  have hline : ZeroFree (ascii "\n") := zeroFree_of_all rfl
  have hend : ZeroFree (ascii "  ]\n\x7d\n") := zeroFree_of_all rfl
  rw [savedText_eq]
  exact zeroFree_append (zeroFree_savedHead s) (zeroFree_append hkey (zeroFree_append hcolon
    (zeroFree_append hopen (zeroFree_append hline
      (zeroFree_append (zeroFree_savedItems h.shares) hend)))))

/-- The reader never cuts the file. -/
theorem savedText_length : (savedText s).length ≤ 16383 := by
  have hflags := flagsText_length s
  have hitems := savedItems_length h.shares
  have hcount : s.shares.length ≤ 8 := h.count
  have hopen : (ascii "\x7b").length = 1 := rfl
  have hline : (ascii "\n  ").length = 3 := rfl
  have hkey : (quoted "smb_shares").length = 12 := rfl
  have hcolon : (ascii ": ").length = 2 := rfl
  have hnext : (ascii "\n").length = 1 := rfl
  have hend : (ascii "  ]\n\x7d\n").length = 6 := rfl
  unfold savedText
  simp only [List.length_append, List.length_cons, hopen, hline, hkey, hcolon, hnext, hend]
  omega

theorem savedText_objects : shareObjects (savedText s) = s.shares.map savedItem := by
  rw [savedText_eq, shareObjects_list (zeroFree_savedHead s) (savedHead_open s)
    (zeroFree_of_all rfl) (by decide)]
  exact listObjects_saved h.shares (between_of_all rfl)

theorem parsedShares_saved : parsedShares (savedText s) =
    (s.shares.filter (fun sh => accepted (readShare sh))).mapIdx
      (fun i sh => withId i (readShare sh)) := by
  have hfilter : (s.shares.map savedItem).filter acceptedItem =
      (s.shares.filter (fun sh => accepted (readShare sh))).map savedItem := by
    rw [List.filter_map]
    congr 1
    apply List.filter_congr
    intro sh hsh
    change accepted (shareOfItem (savedItem sh)) = _
    rw [shareOfItem_saved (h.shares sh hsh)]
  rw [parsedShares_eq (savedText_objects h) (by rw [List.length_map]; exact h.count), hfilter]
  apply List.ext_getElem?
  intro i
  rw [List.getElem?_mapIdx, List.getElem?_mapIdx, List.getElem?_map, Option.map_map]
  cases hi : (s.shares.filter (fun sh => accepted (readShare sh)))[i]? with
  | none => rfl
  | some sh =>
      have hsh := h.shares sh (List.mem_of_mem_filter (List.mem_of_getElem? hi))
      simp only [Option.map_some, Function.comp_apply]
      rw [shareOfItem_saved hsh]

/-- The flags come back, and of the shares those that are still accepted. -/
theorem loaded_saved (old : AppSettings) :
    loadSettingsFromDisk old (some (savedText s)) =
      { s with
        shares := (s.shares.filter (fun sh => accepted (readShare sh))).mapIdx
          (fun i sh => withId i (readShare sh)) } := by
  have hbuf : (savedText s).take 16383 = savedText s :=
    List.take_of_length_le (savedText_length h)
  have hne : savedText s ≠ [] := List.cons_ne_nil _ _
  unfold loadSettingsFromDisk
  dsimp only [Option.getD_some]
  rw [hbuf, if_neg hne, cString_of_zeroFree (zeroFree_savedText h), parsedShares_saved h]
  unfold savedText
  rw [loadOn_saved (find_flag s 0 rfl (by decide)), loadOn_saved (find_flag s 1 rfl (by decide)),
    loadOff_saved (find_flag s 2 rfl (by decide)), loadOff_saved (find_flag s 3 rfl (by decide)),
    loadAllowPs4_saved s]

end Fit

/-!
# What survives
-/

/-- A share that is accepted as it is stored and has no control bytes. -/
structure Survives (sh : SmbShare) : Prop where
  accepted : accepted sh = true
  id : NoControl sh.id
  label : NoControl sh.label
  server : NoControl sh.server
  share : NoControl sh.share
  path : NoControl sh.path
  username : NoControl sh.username
  password : NoControl sh.password
  workgroup : NoControl sh.workgroup

theorem noControl_withId (i : Nat) : NoControl (ascii "smb" ++ intText i) := by
  have hnat : intText i = digitsText i := if_neg (Int.not_lt.mpr (Int.natCast_nonneg i))
  intro b hb
  rcases List.mem_append.mp hb with hb | hb
  · exact @noControl_of_all (ascii "smb") rfl b hb
  · rw [hnat] at hb
    have hdigit := digitsText_digit hb
    rw [isDigit, decide_eq_true_eq] at hdigit
    exact le_trans (by decide) hdigit.left

/-- A share that is the same after it was read. -/
theorem survives_of_read {sh : SmbShare} (h : ShareFits sh) {i : Nat}
    (haccepted : accepted (readShare sh) = true) (hsame : withId i (readShare sh) = sh) :
    Survives sh := by
  have hserver : readBack sh.server = sh.server := by
    have heq := congrArg (fun x : SmbShare => x.server) hsame
    rwa [withId_server] at heq
  have hshare : readBack sh.share = sh.share := by
    have heq := congrArg (fun x : SmbShare => x.share) hsame
    rwa [withId_share] at heq
  have hlabel : readBack sh.label = sh.label := by
    have heq := congrArg (fun x : SmbShare => x.label) hsame
    rwa [withId_label] at heq
  have hpath : readBack sh.path = sh.path := by
    have heq := congrArg (fun x : SmbShare => x.path) hsame
    rwa [withId_path] at heq
  have husername : readBack sh.username = sh.username := by
    have heq := congrArg (fun x : SmbShare => x.username) hsame
    rwa [withId_username] at heq
  have hpassword : readBack sh.password = sh.password := by
    have heq := congrArg (fun x : SmbShare => x.password) hsame
    unfold withId at heq
    split at heq <;> exact heq
  have hworkgroup : readBack sh.workgroup = sh.workgroup := by
    have heq := congrArg (fun x : SmbShare => x.workgroup) hsame
    rwa [withId_workgroup] at heq
  have hid : NoControl sh.id := by
    have heq := congrArg (fun x : SmbShare => x.id) hsame
    unfold withId at heq
    split at heq
    · have hgiven : ascii "smb" ++ intText i = sh.id := heq
      rw [<- hgiven]
      exact noControl_withId i
    · exact (Cache.readBack_eq_iff h.id.zeroFree).mp heq
  have hkept : accepted sh = accepted (readShare sh) := by
    unfold Smb.accepted readShare
    dsimp only
    rw [hserver, hshare]
  exact
    { accepted := hkept.trans haccepted
      id := hid
      label := (Cache.readBack_eq_iff h.label.zeroFree).mp hlabel
      server := (Cache.readBack_eq_iff h.server.zeroFree).mp hserver
      share := (Cache.readBack_eq_iff h.share.zeroFree).mp hshare
      path := (Cache.readBack_eq_iff h.path.zeroFree).mp hpath
      username := (Cache.readBack_eq_iff h.username.zeroFree).mp husername
      password := (Cache.readBack_eq_iff h.password.zeroFree).mp hpassword
      workgroup := (Cache.readBack_eq_iff h.workgroup.zeroFree).mp hworkgroup }

theorem Survives.read {sh : SmbShare} (hs : Survives sh) (h : ShareFits sh) :
    readShare sh = sh := by
  unfold readShare
  rw [Cache.readBack_of_noControl h.id.zeroFree hs.id,
    Cache.readBack_of_noControl h.label.zeroFree hs.label,
    Cache.readBack_of_noControl h.server.zeroFree hs.server,
    Cache.readBack_of_noControl h.share.zeroFree hs.share,
    Cache.readBack_of_noControl h.path.zeroFree hs.path,
    Cache.readBack_of_noControl h.username.zeroFree hs.username,
    Cache.readBack_of_noControl h.password.zeroFree hs.password,
    Cache.readBack_of_noControl h.workgroup.zeroFree hs.workgroup]

theorem restored_iff {s : AppSettings} (h : SettingsFit s) (old : AppSettings) :
    loadSettingsFromDisk old (some (savedText s)) = s ↔
      forall sh, sh ∈ s.shares -> Survives sh := by
  rw [loaded_saved h]
  constructor
  · intro heq sh hsh
    have hshares := congrArg AppSettings.shares heq
    dsimp only at hshares
    have hlen := congrArg List.length hshares
    rw [List.length_mapIdx, List.length_filter_eq_length_iff] at hlen
    rw [List.filter_eq_self.mpr hlen] at hshares
    rcases List.mem_iff_getElem?.mp hsh with ⟨i, hi⟩
    have hat := congrArg (fun l : List SmbShare => l[i]?) hshares
    rw [List.getElem?_mapIdx, hi, Option.map_some, Option.some.injEq] at hat
    exact survives_of_read (h.shares sh hsh) (hlen sh hsh) hat
  · intro hall
    have hread : forall sh, sh ∈ s.shares -> readShare sh = sh :=
      fun sh hsh => (hall sh hsh).read (h.shares sh hsh)
    have hfilter : s.shares.filter (fun sh => accepted (readShare sh)) = s.shares := by
      rw [List.filter_eq_self]
      intro sh hsh
      rw [hread sh hsh]
      exact (hall sh hsh).accepted
    have hmap : s.shares.mapIdx (fun i sh => withId i (readShare sh)) = s.shares := by
      apply List.ext_getElem?
      intro i
      rw [List.getElem?_mapIdx]
      cases hi : s.shares[i]? with
      | none => rfl
      | some sh =>
          have hsh := List.mem_of_getElem? hi
          rw [Option.map_some, hread sh hsh]
          exact congrArg some (if_neg (h.shares sh hsh).given)
    rw [hfilter, hmap]

/-- The settings come back exactly when all shares survive. -/
theorem settings_restart_iff {s : AppSettings} (h : Reached s) :
    loadSettingsFromDisk freshSettings (some (savedText s)) = s ↔
      forall sh, sh ∈ s.shares -> Survives sh :=
  restored_iff h.fit freshSettings

/-!
# Two requests
-/

/-- A request for one share. -/
def oneShareBody (members : List (String × Value)) : Text :=
  ascii "\x7b" ++ (quoted "smb_shares" ++ (ascii ":" ++
    91 :: (itemText tight (texts members) ++ ascii "]\x7d")))

theorem postShares_one {members : List (String × Value)} (hmembers : Readable members)
    (haccepted : acceptedItem (itemText tight (texts members)) = true) (old : List SmbShare) :
    postShares old (some (oneShareBody members)) =
      [settingsShare old (withId 0 (shareOfItem (itemText tight (texts members))))] := by
  have hopen : ZeroFree (ascii "\x7b") := zeroFree_of_all rfl
  have hkey : ZeroFree (quoted "smb_shares") := zeroFree_of_all rfl
  have hcolon : ZeroFree (ascii ":") := zeroFree_of_all rfl
  have hbracket : ZeroFree [91] := zeroFree_of_all rfl
  have hend : ZeroFree (ascii "]\x7d") := zeroFree_of_all rfl
  have hzero : ZeroFree (oneShareBody members) :=
    zeroFree_append hopen (zeroFree_append hkey (zeroFree_append hcolon
      (zeroFree_append hbracket (zeroFree_append (zeroFree_item tight hmembers) hend))))
  have hobjects : shareObjects (oneShareBody members) = [itemText tight (texts members)] := by
    have hlist := @listObjects_cons [] _ (between_of_all rfl) (oneObject_item tight hmembers)
      (ascii "]\x7d")
    have hnone : listObjects (ascii "]\x7d") = [] := listObjects_none (by decide)
    rw [List.nil_append, hnone] at hlist
    rw [oneShareBody, shareObjects_list hopen (by decide) hcolon (by decide), hlist]
  have hfound : (strstr (quoted "smb_shares") (oneShareBody members)).isNone = false := by
    have hne : quoted "smb_shares" ≠ [] := List.cons_ne_nil _ _
    rcases strstr_finds hne hopen (ascii ":" ++
      91 :: (itemText tight (texts members) ++ ascii "]\x7d")) with ⟨found, hfound, _⟩
    rw [oneShareBody, hfound]
    rfl
  unfold postShares
  dsimp only [Option.getD_some]
  rw [cString_of_zeroFree hzero, hfound, if_neg Bool.false_ne_true,
    parsedShares_eq hobjects (show 1 ≤ maxSmbShares by decide), List.filter_singleton, haccepted]
  rfl

/-- A server and the name of a share. -/
def namedMembers : List (String × Value) :=
  [("server", .string (ascii "nas")), ("share", .string (ascii "media"))]

/-- A server that ends in a slash, without the name of a share. -/
def slashMembers : List (String × Value) :=
  [("server", .string (ascii "nas/"))]

theorem raw_of_all {text : Text}
    (h : text.all (fun b => b != 0 && b != quote && b != backslash) = true) :
    (Value.string text).Fine := by
  apply Cache.raw_fine
  intro b hb
  have hbyte := List.all_eq_true.mp h b hb
  rw [Bool.and_eq_true, Bool.and_eq_true, bne_iff_ne, bne_iff_ne, bne_iff_ne] at hbyte
  exact ⟨hbyte.left.left, hbyte.left.right, hbyte.right⟩

theorem readable_named : Readable namedMembers where
  keys m hm := by
    apply plainKey_savedKeys
    have hkeys : namedMembers.all (fun m => savedKeys.contains m.1) = true := by decide
    exact List.contains_iff_mem.mp (List.all_eq_true.mp hkeys m hm)
  values := by
    unfold namedMembers
    simp only [List.forall_mem_cons, List.not_mem_nil, false_implies, implies_true, and_true]
    exact ⟨raw_of_all rfl, raw_of_all rfl⟩

theorem readable_slash : Readable slashMembers where
  keys m hm := by
    rw [List.mem_singleton.mp hm]
    exact plainKey_savedKeys (by decide)
  values m hm := by
    rw [List.mem_singleton.mp hm]
    exact raw_of_all rfl

def startSettings : AppSettings :=
  loadSettingsFromDisk freshSettings none

theorem startSettings_shares : startSettings.shares = [] := rfl

theorem posted_shares {members : List (String × Value)} (hmembers : Readable members)
    (haccepted : acceptedItem (itemText tight (texts members)) = true) :
    (postSettings startSettings (some (oneShareBody members))).shares =
      [settingsShare [] (withId 0 (shareOfItem (itemText tight (texts members))))] := by
  unfold postSettings
  dsimp only
  rw [startSettings_shares, postShares_one hmembers haccepted]
  rfl

theorem namedItem_share : shareOfItem (itemText tight (texts namedMembers)) =
    { blankShare with server := ascii "nas", share := ascii "media" } := by
  decide

theorem slashItem_share : shareOfItem (itemText tight (texts slashMembers)) =
    { blankShare with server := ascii "nas/" } := by
  decide

/-- The name of the share comes back. -/
theorem named_restart :
    loadSettingsFromDisk freshSettings
        (some (savedText (postSettings startSettings (some (oneShareBody namedMembers))))) =
      postSettings startSettings (some (oneShareBody namedMembers)) := by
  have haccepted : acceptedItem (itemText tight (texts namedMembers)) = true := by
    rw [acceptedItem, namedItem_share]
    decide
  have hshares := posted_shares readable_named haccepted
  rw [namedItem_share] at hshares
  apply (settings_restart_iff (Reached.post (Reached.start none) _)).mpr
  intro sh hsh
  change sh ∈ (postSettings startSettings (some (oneShareBody namedMembers))).shares at hsh
  have hshare : settingsShare [] (withId 0
      { blankShare with server := ascii "nas", share := ascii "media" }) =
        { blankShare with
          id := ascii "smb0", server := ascii "nas", share := ascii "media",
          workgroup := ascii "WORKGROUP" } := by
    decide
  rw [hshares, List.mem_singleton, hshare] at hsh
  subst hsh
  exact
    { accepted := by decide
      id := noControl_of_all rfl
      label := noControl_of_all rfl
      server := noControl_of_all rfl
      share := noControl_of_all rfl
      path := noControl_of_all rfl
      username := noControl_of_all rfl
      password := noControl_of_all rfl
      workgroup := noControl_of_all rfl }

/-- A share that was taken without a name is gone after a restart. -/
theorem slash_lost :
    Reached (postSettings startSettings (some (oneShareBody slashMembers))) ∧
      loadSettingsFromDisk freshSettings
          (some (savedText (postSettings startSettings (some (oneShareBody slashMembers))))) ≠
        postSettings startSettings (some (oneShareBody slashMembers)) := by
  have hreached : Reached (postSettings startSettings (some (oneShareBody slashMembers))) :=
    Reached.post (Reached.start none) _
  have haccepted : acceptedItem (itemText tight (texts slashMembers)) = true := by
    rw [acceptedItem, slashItem_share]
    decide
  have hshares := posted_shares readable_slash haccepted
  rw [slashItem_share] at hshares
  refine ⟨hreached, ?_⟩
  intro hsame
  have hall := (restored_iff hreached.fit freshSettings).mp hsame
  rw [hshares] at hall
  have hsurvives := (hall _ List.mem_cons_self).accepted
  revert hsurvives
  decide

end Secrets
end PkgManager
