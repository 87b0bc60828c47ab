import PkgManager.Http.SourceReads
import PkgManager.Secrets.WebServers

/-!
# Sources after a restart

The sources that a new process loads are the stored ones, cut to what was written and cleaned
again.  A source comes back as it was when its texts fit and its label stays when it is trimmed.
-/

namespace PkgManager
namespace Http

open CString
open PkgManager.Parser
open PkgManager.Scanner (lowerText)
open PkgManager.Secrets

/-!
# Cleaned sources
-/

section
variable {mzCrc32 : Text -> Nat}

/-- The source that an accepted one becomes. -/
def cleanedSource (mzCrc32 : Text -> Nat) (c : SourceConfig) (u : HttpUrl) : SourceConfig :=
  { c with
    url := cleanUrl c.url
    label := sourceLabel (trimInplace c.label) u
    username := trimInplace c.username
    tlsPin := trimInplace c.tlsPin
    tlsMode := knownTlsMode c.tlsMode
    id := if c.id = [] then ascii "http_" ++ hexText8 (mzCrc32 (cleanUrl c.url)) else c.id }

theorem cleanedSource_url (c : SourceConfig) (u : HttpUrl) :
    (cleanedSource mzCrc32 c u).url = cleanUrl c.url := by
  rw [cleanedSource]

theorem httpSourceSanitize_eq_some {c c' : SourceConfig} :
    httpSourceSanitize mzCrc32 c = some c' ↔
      trimInplace c.url ≠ [] ∧ (cleanUrl c.url).length < httpSourceUrlMaxLen ∧
        exists u, httpUrlParse (cleanUrl c.url) = some u ∧ c' = cleanedSource mzCrc32 c u := by
  unfold httpSourceSanitize
  constructor
  · intro h
    split at h
    · cases h
    · rename_i hne
      dsimp only at h
      split at h
      · cases h
      · rename_i u hu
        split at h
        · cases h
        · rename_i hshort
          exact ⟨hne, Nat.lt_of_not_le hshort, u, hu, (Option.some.inj h).symm⟩
  · rintro ⟨hne, hshort, u, hu, rfl⟩
    rw [if_neg hne]
    dsimp only
    rw [hu]
    dsimp only
    rw [if_neg (Nat.not_le.mpr hshort)]
    rfl

theorem trimInplace_sublist (s : Text) : trimInplace s <:+: s :=
  (List.dropWhile_suffix _).isInfix.trans (List.rdropWhile_prefix _ _).isInfix

theorem trimInplace_idem (s : Text) : trimInplace (trimInplace s) = trimInplace s := by
  have hback : (trimInplace s).rdropWhile isSpace = trimInplace s := by
    rw [List.rdropWhile_eq_self_iff]
    intro hne
    have hsuffix : trimInplace s <:+ s.rdropWhile isSpace := List.dropWhile_suffix _
    have hother : s.rdropWhile isSpace ≠ [] := fun hnil =>
      hne (List.suffix_nil.mp (hnil ▸ hsuffix))
    rw [hsuffix.getLast hne]
    exact List.rdropWhile_last_not isSpace s hother
  have hagain : trimInplace (trimInplace s) =
      ((trimInplace s).rdropWhile isSpace).dropWhile isSpace := rfl
  rw [hagain, hback]
  exact List.dropWhile_idempotent isSpace (s.rdropWhile isSpace)

theorem zeroFree_trimInplace {s : Text} (h : ZeroFree s) : ZeroFree (trimInplace s) :=
  fun b hb => h b ((trimInplace_sublist s).subset hb)

theorem trimInplace_length (s : Text) : (trimInplace s).length ≤ s.length :=
  (trimInplace_sublist s).length_le

/-- A text that is a part of one that it is trimmed from is that one. -/
theorem keptText_of_trim {dstSz : Nat} {s : Text}
    (h : trimInplace (keptText dstSz s) = s) : keptText dstSz s = s := by
  have hlong := trimInplace_length (keptText dstSz s)
  rw [h] at hlong
  exact (keptText_starts dstSz s).eq_of_length_le hlong

/-!
# Texts of cleaned sources
-/

theorem zeroFree_lowerText {text : Text} (h : ZeroFree text) : ZeroFree (lowerText text) := by
  intro b hb
  rcases List.mem_map.mp hb with ⟨c, hc, heq⟩
  rintro rfl
  exact h c hc ((lowerByte_eq_iff (by decide) c).mp heq)

theorem zeroFree_cleanUrl {url : Text} (h : ZeroFree url) : ZeroFree (cleanUrl url) := by
  have htrim := zeroFree_trimInplace h
  have hscheme : ZeroFree (withScheme (trimInplace url)) := by
    unfold withScheme
    split
    · exact htrim
    · intro b hb
      exact zeroFree_append (zeroFree_of_all rfl) htrim b (List.mem_of_mem_take hb)
  have hlower : ZeroFree (lowerScheme (withScheme (trimInplace url))) :=
    zeroFree_append
      (zeroFree_lowerText (fun b hb => hscheme b ((List.takeWhile_prefix _).subset hb)))
      (fun b hb => hscheme b ((List.dropWhile_suffix _).subset hb))
  have hfolder : ZeroFree (folderUrl (lowerScheme (withScheme (trimInplace url)))) := by
    unfold folderUrl
    split
    · exact fun b hb => hlower b (List.mem_of_mem_take hb)
    · exact hlower
  intro b hb
  rcases mem_withSlash hb with hb | rfl
  · exact hfolder b ((List.takeWhile_prefix _).subset hb)
  · decide

theorem toDigitsCore_zero {fuel n : Nat} {digits : List Char}
    (h : forall c, c ∈ digits -> UInt8.ofNat c.toNat ≠ 0) :
    forall c, c ∈ Nat.toDigitsCore 16 fuel n digits -> UInt8.ofNat c.toNat ≠ 0 := by
  induction fuel generalizing n digits with
  | zero => exact h
  | succ fuel ih =>
      have hall : forall d, d < 16 -> UInt8.ofNat (Nat.digitChar d).toNat ≠ 0 := by decide
      have hmore : forall c, c ∈ Nat.digitChar (n % 16) :: digits -> UInt8.ofNat c.toNat ≠ 0 := by
        intro c hc
        rcases List.mem_cons.mp hc with rfl | hc
        · exact hall _ (Nat.mod_lt n (by decide))
        · exact h c hc
      unfold Nat.toDigitsCore
      dsimp only
      split
      · exact hmore
      · exact ih hmore

theorem hexText8_plain {n : Nat} (h : n < 2 ^ 32) :
    ZeroFree (hexText8 n) ∧ (hexText8 n).length ≤ 8 := by
  have hdigits : (Nat.toDigits 16 n).length ≤ 8 :=
    (Nat.length_toDigits_le_iff (by decide) (by decide)).mpr (h.trans_eq (by decide))
  have hzero : forall c, c ∈ Nat.toDigits 16 n -> UInt8.ofNat c.toNat ≠ 0 :=
    toDigitsCore_zero (fun c hc => by cases hc)
  unfold hexText8
  dsimp only
  constructor
  · apply zeroFree_append
    · intro b hb
      rw [List.eq_of_mem_replicate hb]
      decide
    · intro b hb
      rcases List.mem_map.mp hb with ⟨c, hc, rfl⟩
      exact hzero c hc
  · rw [List.length_append, List.length_replicate, List.length_map]
    omega

/-- What every source that was cleaned is like. -/
structure IsCleaned (c : SourceConfig) : Prop where
  config : IsConfig c
  parses : exists u, httpUrlParse c.url = some u
  short : c.url.length < httpSourceUrlMaxLen
  named : c.id ≠ []
  username : trimInplace c.username = c.username
  tlsPin : trimInplace c.tlsPin = c.tlsPin
  tlsMode : knownTlsMode c.tlsMode = c.tlsMode

theorem sourceLabel_plain {label : Text} {u : HttpUrl}
    (h : ZeroFree label ∧ label.length < 64) :
    ZeroFree (sourceLabel label u) ∧ (sourceLabel label u).length < 64 := by
  unfold sourceLabel
  split
  · exact ⟨zeroFree_cString _, Nat.lt_succ_of_le (Smb.copied_length 64 _)⟩
  · exact h

theorem knownTlsMode_plain (mode : Text) : ZeroFree (knownTlsMode mode) ∧
    (knownTlsMode mode).length < 16 ∧ knownTlsMode (knownTlsMode mode) = knownTlsMode mode := by
  by_cases hmode : mode = ascii "pin" ∨ mode = ascii "none"
  · have hknown : knownTlsMode mode = mode := if_pos hmode
    rw [hknown, hknown]
    rcases hmode with rfl | rfl
    · decide +kernel
    · decide +kernel
  · have hknown : knownTlsMode mode = tlsVerify := if_neg hmode
    rw [hknown]
    decide +kernel

theorem cleanedSource_id (hcrc : forall text, mzCrc32 text < 2 ^ 32) {c : SourceConfig}
    (hc : IsConfig c) (u : HttpUrl) :
    ZeroFree (cleanedSource mzCrc32 c u).id ∧ (cleanedSource mzCrc32 c u).id.length < 32 ∧
      (cleanedSource mzCrc32 c u).id ≠ [] := by
  by_cases hnamed : c.id = []
  · have hid : (cleanedSource mzCrc32 c u).id =
        ascii "http_" ++ hexText8 (mzCrc32 (cleanUrl c.url)) := if_pos hnamed
    have hhex := hexText8_plain (hcrc (cleanUrl c.url))
    have hfront : (ascii "http_").length = 5 := by decide
    rw [hid]
    refine ⟨zeroFree_append (zeroFree_of_all rfl) hhex.1, ?_, List.cons_ne_nil _ _⟩
    rw [List.length_append]
    omega
  · have hid : (cleanedSource mzCrc32 c u).id = c.id := if_neg hnamed
    rw [hid]
    exact ⟨hc.id.1, hc.id.2, hnamed⟩

theorem trimInplace_room {size : Nat} {s : Text} (h : ZeroFree s ∧ s.length < size) :
    ZeroFree (trimInplace s) ∧ (trimInplace s).length < size :=
  ⟨zeroFree_trimInplace h.1, (trimInplace_length s).trans_lt h.2⟩

theorem isConfig_cleaned (hcrc : forall text, mzCrc32 text < 2 ^ 32) {c : SourceConfig}
    (hc : IsConfig c) (u : HttpUrl) (hshort : (cleanUrl c.url).length < 512) :
    IsConfig (cleanedSource mzCrc32 c u) := by
  have hid := cleanedSource_id hcrc hc u
  have hmode := knownTlsMode_plain c.tlsMode
  constructor
  · exact ⟨hid.1, hid.2.1⟩
  · exact sourceLabel_plain (trimInplace_room hc.label)
  · rw [cleanedSource_url]
    exact ⟨zeroFree_cleanUrl hc.url.1, hshort⟩
  · exact trimInplace_room hc.username
  · exact hc.password
  · exact ⟨hmode.1, hmode.2.1⟩
  · exact trimInplace_room hc.tlsPin

theorem isCleaned_sanitized (hcrc : forall text, mzCrc32 text < 2 ^ 32) {c c' : SourceConfig}
    (hc : IsConfig c) (h : httpSourceSanitize mzCrc32 c = some c') : IsCleaned c' := by
  rcases httpSourceSanitize_eq_some.mp h with ⟨_, hshort, u, hu, rfl⟩
  have hlong : httpSourceUrlMaxLen ≤ 512 := by decide
  constructor
  · exact isConfig_cleaned hcrc hc u (hshort.trans_le hlong)
  · rw [cleanedSource_url]
    exact ⟨u, hu⟩
  · rw [cleanedSource_url]
    exact hshort
  · exact (cleanedSource_id hcrc hc u).2.2
  · exact trimInplace_idem c.username
  · exact trimInplace_idem c.tlsPin
  · exact (knownTlsMode_plain c.tlsMode).2.2

/-!
# Reading a source back
-/

/-- Cleaning what is in the file of a source makes the source again. -/
structure ReadsBack (c : SourceConfig) : Prop where
  id : Fits 80 c.id
  url : cleanUrl (keptText 1100 c.url) = c.url
  label : forall u, httpUrlParse c.url = some u ->
    sourceLabel (trimInplace (keptText 160 c.label)) u = c.label
  username : Fits 160 c.username
  password : Fits 300 c.password
  tlsPin : Fits 220 c.tlsPin

theorem sourceConfig_ext {c d : SourceConfig} (henabled : c.enabled = d.enabled)
    (hid : c.id = d.id) (hlabel : c.label = d.label) (hurl : c.url = d.url)
    (hname : c.username = d.username) (hword : c.password = d.password)
    (hmode : c.tlsMode = d.tlsMode) (hpin : c.tlsPin = d.tlsPin) : c = d := by
  rcases c with ⟨⟨_, _, _, _⟩, _, _, _, _⟩
  rcases d with ⟨⟨_, _, _, _⟩, _, _, _, _⟩
  subst henabled hid hlabel hurl hname hword hmode hpin
  rfl

theorem keptText_mode {mode : Text} (h : knownTlsMode mode = mode) : keptText 40 mode = mode := by
  unfold knownTlsMode at h
  split at h
  · rename_i hmode
    rcases hmode with rfl | rfl
    · decide
    · decide
  · rw [<- h]
    decide

theorem cleanUrl_blank {url : Text} (h : trimInplace url = []) :
    httpUrlParse (cleanUrl url) = none := by
  unfold cleanUrl
  rw [h]
  decide

theorem readsBack_of_sanitize {c : SourceConfig} (h : IsCleaned c)
    (hback : httpSourceSanitize mzCrc32 (cutSource c) = some c) : ReadsBack c := by
  rcases httpSourceSanitize_eq_some.mp hback with ⟨_, _, u, hu, hcleaned⟩
  have hurl : c.url = (cleanedSource mzCrc32 (cutSource c) u).url :=
    congrArg (fun s => s.url) hcleaned
  rw [cleanedSource_url] at hurl
  have hname : trimInplace (keptText 160 c.username) = c.username :=
    (congrArg (fun s => s.username) hcleaned).symm
  have hpin : trimInplace (keptText 220 c.tlsPin) = c.tlsPin :=
    (congrArg (fun s => s.tlsPin) hcleaned).symm
  have hword : keptText 300 c.password = c.password :=
    (congrArg (fun s => s.password) hcleaned).symm
  have hid : keptText 80 c.id = c.id := by
    have hkept : keptText 80 c.id ≠ [] :=
      keptText_ne_nil h.config.id.1 (by decide) h.named
    have heq := congrArg (fun s => s.id) hcleaned
    exact (heq.trans (if_neg hkept)).symm
  constructor
  · exact (keptText_eq_iff h.config.id.1).mp hid
  · exact hurl.symm
  · intro v hv
    have hsame : httpUrlParse c.url = some u := by
      rw [hurl]
      exact hu
    rw [hsame, Option.some.injEq] at hv
    rw [<- hv]
    exact (congrArg (fun s => s.label) hcleaned).symm
  · exact (keptText_eq_iff h.config.username.1).mp (keptText_of_trim hname)
  · exact (keptText_eq_iff h.config.password.1).mp hword
  · exact (keptText_eq_iff h.config.tlsPin.1).mp (keptText_of_trim hpin)

theorem sanitize_of_readsBack {c : SourceConfig} (h : IsCleaned c) (hback : ReadsBack c) :
    httpSourceSanitize mzCrc32 (cutSource c) = some c := by
  rcases h.parses with ⟨u, hu⟩
  have hid := (keptText_eq_iff h.config.id.1).mpr hback.id
  have hname := (keptText_eq_iff h.config.username.1).mpr hback.username
  have hword := (keptText_eq_iff h.config.password.1).mpr hback.password
  have hpin := (keptText_eq_iff h.config.tlsPin.1).mpr hback.tlsPin
  have hmode := keptText_mode h.tlsMode
  have hurl : cleanUrl (cutSource c).url = c.url := hback.url
  have hnamed : (cutSource c).id ≠ [] := fun hnil => h.named (hid.symm.trans hnil)
  have hkeptId : (cleanedSource mzCrc32 (cutSource c) u).id = (cutSource c).id := if_neg hnamed
  apply httpSourceSanitize_eq_some.mpr
  rw [hurl]
  refine ⟨?_, h.short, u, hu, ?_⟩
  · intro hblank
    have hnone := cleanUrl_blank hblank
    rw [hurl, hu] at hnone
    cases hnone
  · apply sourceConfig_ext
    · rfl
    · rw [hkeptId]
      exact hid.symm
    · exact (hback.label u hu).symm
    · rw [cleanedSource_url]
      exact hurl.symm
    · exact h.username.symm.trans (congrArg trimInplace hname.symm)
    · exact hword.symm
    · exact h.tlsMode.symm.trans (congrArg knownTlsMode hmode.symm)
    · exact h.tlsPin.symm.trans (congrArg trimInplace hpin.symm)

end

end Http
end PkgManager
