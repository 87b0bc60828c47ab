import PkgManager.Http.SourceRestart

/-!
# Which sources survive a restart

Only bytes below 32 take so much room that a text does not fit, and an address may lose the slash
at its end, which cleaning adds again.
-/

namespace PkgManager
namespace Http

open CString
open PkgManager.Parser
open PkgManager.Scanner (lowerText)
open PkgManager.Secrets

/-- Nothing is taken off the end of the address, and it needs a slash. -/
structure OpenEnd (url : Text) : Prop where
  slash : url.getLast? ≠ some 47
  blank : url.rdropWhile isSpace = url
  index : endsWithCi url "/index.json" = false

/-- The address fits, or all but the slash at its end does, which is added again. -/
def UrlSurvives (url : Text) : Prop :=
  Fits 1100 url ∨ Fits 1100 url.dropLast ∧ OpenEnd url.dropLast

/-- A label that was made from the address fits and stays when it is trimmed, or nothing of it
stays and it is made again. -/
def MadeLabelSurvives (label : Text) : Prop :=
  Fits 160 label ∧ trimInplace label = label ∨ trimInplace (keptText 160 label) = []

/-- Every text that is stored for the source has room in its array, and a label that is made for
it keeps its ends. -/
structure Survives (c : SourceConfig) : Prop where
  id : Fits 80 c.id
  url : UrlSurvives (cleanUrl c.url)
  label : trimInplace c.label ≠ [] -> Fits 160 (trimInplace c.label)
  made : trimInplace c.label = [] ->
    forall u, httpUrlParse (cleanUrl c.url) = some u -> MadeLabelSurvives (sourceLabel [] u)
  username : Fits 160 (trimInplace c.username)
  password : Fits 300 c.password
  tlsPin : Fits 220 (trimInplace c.tlsPin)

/-!
# The part that is written
-/

theorem keptFrom_idem (dstSz d : Nat) (src : Text) :
    keptFrom dstSz d (keptFrom dstSz d src) = keptFrom dstSz d src := by
  induction src generalizing d with
  | nil => rfl
  | cons c rest ih =>
      by_cases hstop : c = 0 ∨ dstSz ≤ d + 7
      · rw [keptFrom, if_pos hstop]
        rfl
      · rw [keptFrom, if_neg hstop, keptFrom, if_neg hstop, ih]

theorem keptText_idem (dstSz : Nat) (src : Text) :
    keptText dstSz (keptText dstSz src) = keptText dstSz src :=
  keptFrom_idem dstSz 0 src

theorem keptFrom_mono (dstSz d : Nat) (src more : Text) :
    keptFrom dstSz d src <+: keptFrom dstSz d (src ++ more) := by
  induction src generalizing d with
  | nil => exact List.nil_prefix
  | cons c rest ih =>
      rw [List.cons_append, keptFrom, keptFrom]
      split
      · exact List.prefix_rfl
      · exact (List.prefix_cons_inj c).mpr (ih _)

/-- A text without its last byte is what is written of it when only that byte has no room. -/
theorem keptText_concat_iff {dstSz : Nat} {front : Text} {b : UInt8}
    (hz : ZeroFree (front ++ [b])) (hover : ¬ Fits dstSz (front ++ [b])) :
    keptText dstSz (front ++ [b]) = front ↔ Fits dstSz front := by
  have hfront : ZeroFree front := fun x hx => hz x (List.mem_append_left [b] hx)
  rw [<- keptText_eq_iff hfront]
  constructor
  · intro h
    rw [<- h]
    exact keptText_idem dstSz (front ++ [b])
  · intro h
    have hmono : front <+: keptText dstSz (front ++ [b]) := by
      conv_lhs => rw [<- h]
      exact keptFrom_mono dstSz 0 front [b]
    rcases List.prefix_concat_iff.mp (keptText_starts dstSz (front ++ [b])) with hall | hpart
    · exact absurd ((keptText_eq_iff hz).mp hall) hover
    · exact hpart.eq_of_length_le hmono.length_le

theorem escaped_length (text : Text) : (text.flatMap escapePiece).length ≤ 6 * text.length := by
  induction text with
  | nil => exact Nat.le_refl _
  | cons c rest ih =>
      have hpiece := escapePiece_length c
      rw [List.flatMap_cons, List.length_append, List.length_cons]
      omega

theorem keptFrom_full {dstSz d : Nat} {src : Text} (hz : ZeroFree src)
    (h : keptFrom dstSz d src ≠ src) :
    dstSz ≤ d + ((keptFrom dstSz d src).flatMap escapePiece).length + 7 := by
  induction src generalizing d with
  | nil => exact absurd rfl h
  | cons c rest ih =>
      have hc := hz c List.mem_cons_self
      unfold keptFrom at h ⊢
      split
      · rename_i hstop
        exact (hstop.resolve_left hc).trans (Nat.le_of_eq rfl)
      · rename_i hgo
        rw [if_neg hgo] at h
        have hrest := ih (fun b hb => hz b (List.mem_cons_of_mem c hb))
          (fun heq => h (congrArg (List.cons c) heq))
        rw [List.flatMap_cons, List.length_append]
        omega

/-- An array that is not large enough is filled. -/
theorem keptText_full {dstSz : Nat} {src : Text} (hz : ZeroFree src)
    (h : keptText dstSz src ≠ src) : dstSz ≤ 6 * (keptText dstSz src).length + 7 := by
  have hfull := keptFrom_full hz h
  have hlength := escaped_length (keptText dstSz src)
  unfold keptText at hlength ⊢
  omega

/-!
# Addresses
-/

theorem lowerScheme_eq_iff {url : Text} :
    lowerScheme url = url ↔ lowerText (url.takeWhile (fun b => b != 58)) =
      url.takeWhile (fun b => b != 58) := by
  have hparts := List.takeWhile_append_dropWhile (p := fun b : UInt8 => b != 58) (l := url)
  unfold lowerScheme
  constructor
  · intro h
    conv_rhs at h => rw [<- hparts]
    exact List.append_cancel_right h
  · intro h
    rw [h]
    exact hparts

theorem lowerText_eq_iff {text : Text} :
    lowerText text = text ↔ forall b, b ∈ text -> lowerByte b = b := by
  rw [lowerText_map]
  constructor
  · intro h b hb
    exact List.map_eq_map_iff.mp (h.trans (List.map_id text).symm) b hb
  · intro h
    exact (List.map_congr_left h).trans (List.map_id text)

theorem takeWhile_part {P : UInt8 -> Bool} {part text : Text} (h : part <+: text) :
    part.takeWhile P <+: text.takeWhile P := by
  rcases h with ⟨more, rfl⟩
  rw [List.takeWhile_append]
  split
  · rw [List.takeWhile_eq_self_iff.mpr ?_]
    · exact List.prefix_append _ _
    · rename_i hall
      exact fun b hb => List.all_eq_true.mp (List.all_takeWhile) b
        ((List.takeWhile_prefix P).eq_of_length hall ▸ hb)
  · exact List.prefix_rfl

theorem lowerScheme_part {part url : Text} (hpart : part <+: url) (h : lowerScheme url = url) :
    lowerScheme part = part := by
  rw [lowerScheme_eq_iff, lowerText_eq_iff] at h ⊢
  exact fun b hb => h b ((takeWhile_part hpart).subset hb)

theorem lowerScheme_front {url : Text} {b : UInt8}
    (hb : b ∈ (lowerScheme url).takeWhile (fun b => b != 58)) : lowerByte b = b := by
  have hfront : forall c, c ∈ lowerText (url.takeWhile (fun b => b != 58)) -> (c != 58) = true := by
    intro c hc
    rcases List.mem_map.mp hc with ⟨d, hd, rfl⟩
    have hcolon := List.mem_takeWhile_imp hd
    rw [bne_iff_ne] at hcolon ⊢
    exact fun heq => hcolon ((lowerByte_eq_iff (by decide) d).mp heq)
  have hbehind : (url.dropWhile (fun b => b != 58)).takeWhile (fun b => b != 58) = [] := by
    rw [List.takeWhile_eq_nil_iff]
    exact fun hpos => List.dropWhile_get_zero_not _ _ hpos
  unfold lowerScheme at hb
  rw [List.takeWhile_append_of_pos hfront, hbehind, List.append_nil] at hb
  rcases List.mem_map.mp hb with ⟨d, _, rfl⟩
  exact lowerByte_idem d

theorem mem_takeWhile_withSlash {url : Text} {b : UInt8}
    (hb : b ∈ (withSlash url).takeWhile (fun b => b != 58)) :
    b ∈ url.takeWhile (fun b => b != 58) ∨ b = 47 := by
  unfold withSlash at hb
  split at hb
  · rw [List.takeWhile_append] at hb
    split at hb
    · rename_i hall
      have hsame := (List.takeWhile_prefix (fun b : UInt8 => b != 58)).eq_of_length hall
      rcases List.mem_append.mp hb with hold | hnew
      · rw [hsame]
        exact Or.inl hold
      · exact Or.inr (List.mem_singleton.mp ((List.takeWhile_prefix _).subset hnew))
    · exact Or.inl hb
  · exact Or.inl hb

theorem folderUrl_part (url : Text) : folderUrl url <+: url := by
  unfold folderUrl
  split
  · exact List.take_prefix _ _
  · exact List.prefix_rfl

/-- The scheme of a cleaned address is in lower case. -/
theorem lowerScheme_cleanUrl (url : Text) : lowerScheme (cleanUrl url) = cleanUrl url := by
  rw [lowerScheme_eq_iff, lowerText_eq_iff]
  intro b hb
  unfold cleanUrl at hb
  rcases mem_takeWhile_withSlash hb with hquery | rfl
  · exact lowerScheme_front
      ((takeWhile_part ((List.takeWhile_prefix _).trans (folderUrl_part _))).subset hquery)
  · decide

theorem rdropWhile_slash {text : Text} (h : text.getLast? = some 47) :
    text.rdropWhile isSpace = text := by
  rw [List.rdropWhile_eq_self_iff]
  intro hne
  rw [List.getLast?_eq_some_getLast hne, Option.some.injEq] at h
  rw [h]
  decide

/-- Trimming leaves what ends in a slash at the front of an address. -/
theorem prefix_trimmed {front url : Text} (hfront : front <+: url)
    (hlast : front.getLast? = some 47) : front <+: url.rdropWhile isSpace := by
  rcases hfront with ⟨more, rfl⟩
  induction more using List.reverseRecOn with
  | nil =>
      rw [List.append_nil, rdropWhile_slash hlast]
  | append_singleton more b ih =>
      rw [<- List.append_assoc, List.rdropWhile_concat]
      split
      · exact ih
      · exact (List.prefix_append front more).trans (List.prefix_append _ [b])

theorem startsWithCi_trimmed {s : String} {url : Text}
    (hslash : (lowerText (ascii s)).getLast? = some 47)
    (h : startsWithCi s url = true) : startsWithCi s (url.rdropWhile isSpace) = true := by
  have heq : lowerText (url.take (ascii s).length) = lowerText (ascii s) := beq_iff_eq.mp h
  have hlast : (url.take (ascii s).length).getLast? = some 47 := by
    rw [<- lowerText_getLast (by decide), heq]
    exact hslash
  have hlength : (url.take (ascii s).length).length = (ascii s).length := by
    have hlower := congrArg List.length heq
    rwa [lowerText_length, lowerText_length] at hlower
  have hfront := prefix_trimmed (List.take_prefix (ascii s).length url) hlast
  have hsame := List.prefix_iff_eq_take.mp hfront
  rw [hlength] at hsame
  apply beq_iff_eq.mpr
  rw [<- hsame]
  exact heq

/-- What cleaning still does to a part of an address that was cleaned. -/
theorem cleanUrl_part {part : Text}
    (hscheme : startsWithCi "http://" part = true ∨ startsWithCi "https://" part = true)
    (hlower : lowerScheme part = part) (hplain : forall b, b ∈ part -> b ≠ 63 ∧ b ≠ 35) :
    cleanUrl part = withSlash (folderUrl (part.rdropWhile isSpace)) := by
  have htrimmed : startsWithCi "http://" (part.rdropWhile isSpace) = true ∨
      startsWithCi "https://" (part.rdropWhile isSpace) = true :=
    hscheme.imp (startsWithCi_trimmed (by decide))
      (startsWithCi_trimmed (by decide))
  have htrim : trimInplace part = part.rdropWhile isSpace := dropWhile_scheme htrimmed
  have hwith : withScheme (part.rdropWhile isSpace) = part.rdropWhile isSpace := by
    apply if_pos
    rw [Bool.or_eq_true]
    exact htrimmed
  have hsame : lowerScheme (part.rdropWhile isSpace) = part.rdropWhile isSpace :=
    lowerScheme_part (List.rdropWhile_prefix _ _) hlower
  have hquery : withoutQuery (folderUrl (part.rdropWhile isSpace)) =
      folderUrl (part.rdropWhile isSpace) := by
    apply List.takeWhile_eq_self_iff.mpr
    intro b hb
    have hin := ((folderUrl_part _).trans (List.rdropWhile_prefix _ _)).subset hb
    simpa using hplain b hin
  unfold cleanUrl
  rw [htrim, hwith, hsame, hquery]

theorem openEnd_of_folder {url : Text} (hblank : url.rdropWhile isSpace = url)
    (hfolder : folderUrl url = url) (hslash : url.getLast? ≠ some 47) : OpenEnd url where
  slash := hslash
  blank := hblank
  index := by
    rw [Bool.eq_false_iff]
    intro hends
    have hlong : (ascii "/index.json").length ≤ url.length := by
      rw [endsWithCi, Bool.and_eq_true, decide_eq_true_eq] at hends
      exact hends.1
    have heleven : (ascii "/index.json").length = 11 := by decide
    have hcut := congrArg List.length hfolder
    rw [folderUrl, if_pos hends, List.length_take] at hcut
    omega

/-- Only the slash at the end of an address comes back when it was cut off. -/
theorem cleanUrl_cut_iff {part url : Text} (hurl : CleanUrl url) (hlower : lowerScheme url = url)
    (hpart : part <+: url) (hcut : part ≠ url) (hlong : 8 ≤ part.length) :
    cleanUrl part = url ↔ part = url.dropLast ∧ OpenEnd part := by
  have hscheme : startsWithCi "http://" part = true ∨ startsWithCi "https://" part = true := by
    have hfront := hurl.scheme
    rcases hpart with ⟨more, rfl⟩
    unfold startsWithCi at hfront ⊢
    rwa [List.take_append_of_le_length ((by decide : _ ≤ 8).trans hlong),
      List.take_append_of_le_length ((by decide : _ ≤ 8).trans hlong)] at hfront
  rcases List.getLast?_eq_some_iff.mp hurl.slash with ⟨front, rfl⟩
  have hin : part <+: front := (List.prefix_concat_iff.mp hpart).resolve_left hcut
  have hshort : (front ++ [47]).length < 512 := hurl.short.trans (by decide)
  rw [List.length_append, List.length_singleton] at hshort
  rw [cleanUrl_part hscheme (lowerScheme_part hpart hlower)
    (fun b hb => hurl.plain b (hpart.subset hb)), List.dropLast_concat]
  constructor
  · intro h
    have htrim : part.rdropWhile isSpace <+: part := List.rdropWhile_prefix _ _
    have hfolder := folderUrl_part (part.rdropWhile isSpace)
    have hshorter := ((hfolder.trans htrim).trans hin).length_le
    unfold withSlash at h
    split at h
    · rename_i hopen
      have hsame : folderUrl (part.rdropWhile isSpace) = front := List.append_cancel_right h
      have hfront : part = front := hin.eq_of_length_le (by
        rw [<- hsame]
        exact (hfolder.trans htrim).length_le)
      have hblank : part.rdropWhile isSpace = part := htrim.eq_of_length_le (by
        conv_lhs => rw [hfront, <- hsame]
        exact hfolder.length_le)
      rw [hblank] at hsame hopen
      rw [hsame] at hopen
      rw [<- hfront] at hsame hopen
      exact ⟨hfront, openEnd_of_folder hblank hsame hopen.2.1⟩
    · rw [h, List.length_append, List.length_singleton] at hshorter
      omega
  · rintro ⟨rfl, hopen⟩
    have hfolder : folderUrl part = part := if_neg (fun hends => by
      rw [hopen.index] at hends
      cases hends)
    rw [hopen.blank, hfolder]
    exact if_pos ⟨List.ne_nil_of_length_pos (by omega), hopen.slash, hshort⟩

theorem urlSurvives_iff {url : Text} (hz : ZeroFree url) (hurl : CleanUrl url)
    (hlower : lowerScheme url = url) :
    cleanUrl (keptText 1100 url) = url ↔ UrlSurvives url := by
  unfold UrlSurvives
  by_cases hfits : Fits 1100 url
  · rw [(keptText_eq_iff hz).mpr hfits, cleanUrl_clean hurl, hlower]
    exact iff_of_true rfl (Or.inl hfits)
  · have hcut : keptText 1100 url ≠ url := fun heq => hfits ((keptText_eq_iff hz).mp heq)
    have hfull := keptText_full hz hcut
    rw [cleanUrl_cut_iff hurl hlower (keptText_starts 1100 url) hcut (by omega),
      or_iff_right hfits]
    rcases List.getLast?_eq_some_iff.mp hurl.slash with ⟨front, rfl⟩
    rw [List.dropLast_concat, keptText_concat_iff hz hfits]
    constructor
    · rintro ⟨hfront, hopen⟩
      rw [(keptText_concat_iff hz hfits).mpr hfront] at hopen
      exact ⟨hfront, hopen⟩
    · rintro ⟨hfront, hopen⟩
      rw [(keptText_concat_iff hz hfits).mpr hfront]
      exact ⟨hfront, hopen⟩

/-!
# Labels
-/

theorem blank_of_trimmed {text : Text} (h : trimInplace text = []) {b : UInt8} (hb : b ∈ text) :
    isSpace b = true := by
  have hparts := List.rdropWhile_append_rtakeWhile (p := isSpace) (l := text)
  rw [<- hparts] at hb
  rcases List.mem_append.mp hb with hkept | hblank
  · exact List.dropWhile_eq_nil_iff.mp h b hkept
  · exact List.mem_rtakeWhile_imp hblank

theorem trimmed_head {text rest : Text} {b : UInt8} (h : trimInplace text = b :: rest) :
    ¬ isSpace b = true := by
  intro hb
  have hagain : (trimInplace text).dropWhile isSpace = trimInplace text :=
    List.dropWhile_idempotent isSpace (text.rdropWhile isSpace)
  rw [h, List.dropWhile_cons_of_pos hb] at hagain
  have hshort : (rest.dropWhile isSpace).length ≤ rest.length :=
    (List.dropWhile_suffix isSpace).length_le
  rw [hagain, List.length_cons] at hshort
  omega

theorem ownLabel_iff {label : Text} {u : HttpUrl} (hz : ZeroFree label)
    (htrim : trimInplace label = label) (hne : label ≠ []) :
    sourceLabel (trimInplace (keptText 160 label)) u = label ↔ Fits 160 label := by
  rw [<- keptText_eq_iff hz]
  constructor
  · intro h
    by_cases hgone : trimInplace (keptText 160 label) = []
    · have hkept : keptText 160 label ≠ [] := keptText_ne_nil hz (by decide) hne
      rcases List.exists_cons_of_ne_nil hkept with ⟨b, more, hfirst⟩
      have hblank := blank_of_trimmed hgone (hfirst ▸ List.mem_cons_self)
      rcases keptText_starts 160 label with ⟨rest, hrest⟩
      rw [hfirst, List.cons_append] at hrest
      rw [<- hrest] at htrim
      exact absurd hblank (trimmed_head htrim)
    · exact keptText_of_trim ((if_neg hgone).symm.trans h)
  · intro h
    rw [h, htrim]
    exact if_neg hne

theorem madeLabel_iff {label : Text} {u : HttpUrl} (hz : ZeroFree label)
    (hmade : sourceLabel [] u = label) :
    sourceLabel (trimInplace (keptText 160 label)) u = label ↔ MadeLabelSurvives label := by
  unfold MadeLabelSurvives
  by_cases hgone : trimInplace (keptText 160 label) = []
  · rw [hgone]
    exact iff_of_true hmade (Or.inr rfl)
  · have hkept : sourceLabel (trimInplace (keptText 160 label)) u =
        trimInplace (keptText 160 label) := if_neg hgone
    rw [hkept, or_iff_left hgone, <- keptText_eq_iff hz]
    constructor
    · intro h
      have hwhole := keptText_of_trim h
      rw [hwhole] at h
      exact ⟨hwhole, h⟩
    · rintro ⟨hwhole, htrim⟩
      rw [hwhole, htrim]

/-!
# Sources
-/

section
variable {mzCrc32 : Text -> Nat}

theorem fits_of_short {dstSz : Nat} {text : Text} (h : 6 * text.length + 1 < dstSz) :
    Fits dstSz text := by
  by_cases hnil : text = []
  · exact Or.inl hnil
  · right
    have hlast := escaped_length text.dropLast
    have hpos := List.length_pos_iff.mpr hnil
    rw [List.length_dropLast] at hlast
    omega

theorem fits_id (hcrc : forall text, mzCrc32 text < 2 ^ 32) (c : SourceConfig) (u : HttpUrl) :
    Fits 80 (cleanedSource mzCrc32 c u).id ↔ Fits 80 c.id := by
  by_cases hnamed : c.id = []
  · have hid : (cleanedSource mzCrc32 c u).id =
        ascii "http_" ++ hexText8 (mzCrc32 (cleanUrl c.url)) := if_pos hnamed
    have hhex := (hexText8_plain (hcrc (cleanUrl c.url))).2
    have hfront : (ascii "http_").length = 5 := by decide
    rw [hid]
    refine iff_of_true (fits_of_short ?_) (Or.inl hnamed)
    rw [List.length_append]
    omega
  · have hid : (cleanedSource mzCrc32 c u).id = c.id := if_neg hnamed
    rw [hid]

theorem label_survives_iff {c : SourceConfig} (hc : IsConfig c) {u : HttpUrl} :
    sourceLabel (trimInplace (keptText 160 (sourceLabel (trimInplace c.label) u))) u =
        sourceLabel (trimInplace c.label) u ↔
      (trimInplace c.label ≠ [] -> Fits 160 (trimInplace c.label)) ∧
        (trimInplace c.label = [] -> MadeLabelSurvives (sourceLabel [] u)) := by
  have hroom := trimInplace_room hc.label
  by_cases hown : trimInplace c.label = []
  · have hz := (sourceLabel_plain (u := u) hroom).1
    rw [hown] at hz ⊢
    rw [madeLabel_iff hz rfl]
    exact ⟨fun h => ⟨fun hne => absurd rfl hne, fun _ => h⟩, fun h => h.2 rfl⟩
  · have hlabel : sourceLabel (trimInplace c.label) u = trimInplace c.label := if_neg hown
    rw [hlabel, ownLabel_iff hroom.1 (trimInplace_idem c.label) hown]
    exact ⟨fun h => ⟨fun _ => h, fun hnil => absurd hnil hown⟩, fun h => h.1 hown⟩

/-- A stored source comes back from the file exactly when the source that it was made from has
texts that survive. -/
theorem readsBack_iff (hcrc : forall text, mzCrc32 text < 2 ^ 32) {c c' : SourceConfig}
    (hc : IsConfig c) (h : httpSourceSanitize mzCrc32 c = some c') :
    ReadsBack c' ↔ Survives c := by
  have hclean := sanitize_clean h
  rcases httpSourceSanitize_eq_some.mp h with ⟨_, _, u, hu, rfl⟩
  have hparsed : forall v, httpUrlParse (cleanedSource mzCrc32 c u).url = some v -> v = u := by
    intro v hv
    rw [cleanedSource_url, hu, Option.some.injEq] at hv
    exact hv.symm
  have hlabel := label_survives_iff hc (u := u)
  rw [cleanedSource_url] at hclean
  have hurl := urlSurvives_iff (zeroFree_cleanUrl hc.url.1) hclean (lowerScheme_cleanUrl c.url)
  constructor
  · intro hback
    have hbackUrl := hback.url
    have hbackLabel := hback.label u
    rw [cleanedSource_url] at hbackUrl hbackLabel
    have hlabels := hlabel.mp (hbackLabel hu)
    constructor
    · exact (fits_id hcrc c u).mp hback.id
    · exact hurl.mp hbackUrl
    · exact hlabels.1
    · intro hmade v hv
      rw [hu, Option.some.injEq] at hv
      exact hv ▸ hlabels.2 hmade
    · exact hback.username
    · exact hback.password
    · exact hback.tlsPin
  · intro hs
    constructor
    · exact (fits_id hcrc c u).mpr hs.id
    · rw [cleanedSource_url]
      exact hurl.mpr hs.url
    · intro v hv
      rw [hparsed v hv]
      exact hlabel.mpr ⟨hs.label, fun hmade => hs.made hmade u hu⟩
    · exact hs.username
    · exact hs.password
    · exact hs.tlsPin

theorem readsAgain_iff (hcrc : forall text, mzCrc32 text < 2 ^ 32) {c c' : SourceConfig}
    (hc : IsConfig c) (h : httpSourceSanitize mzCrc32 c = some c') :
    httpSourceSanitize mzCrc32 (cutSource c') = some c' ↔ Survives c := by
  have hcleaned := isCleaned_sanitized hcrc hc h
  rw [<- readsBack_iff hcrc hc h]
  exact ⟨readsBack_of_sanitize hcleaned, sanitize_of_readsBack hcleaned⟩

end

end Http
end PkgManager
