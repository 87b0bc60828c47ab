import PkgManager.Collections.Segments
import PkgManager.Http.Index
import PkgManager.Http.UrlParts

/-!
# Addresses below a folder

An address lies below a folder when it leads to the same site, and its path without the dot
segments starts with the folder's.
-/

namespace PkgManager
namespace Http

open CString
open PkgManager.Parser
open PkgManager.Scanner (lowerText)
open PkgManager.Secrets
open Segments (segments staysBelow removeDots StaysIn)

/-- The path of an address that has no query. -/
def addressPath (url : Text) : Text :=
  match urlScheme url with
  | none => []
  | some (_, p) => p.dropWhile inAuthority

/-- The scheme and the authority, whatever their case. -/
def addressSite (url : Text) : Option (Bool × Text) :=
  (urlScheme url).map (fun s => (s.1, lowerText (s.2.takeWhile inAuthority)))

def withoutDotSegments (path : Text) : Text :=
  removeDots 47 (ascii ".") (ascii "..") path

structure Under (dirUrl url : Text) : Prop where
  site : addressSite url = addressSite dirUrl
  path : withoutDotSegments (addressPath dirUrl) <+: withoutDotSegments (addressPath url)

theorem Under.refl (dirUrl : Text) : Under dirUrl dirUrl where
  site := rfl
  path := List.prefix_rfl

theorem Under.trans {a b c : Text} (hab : Under a b) (hbc : Under b c) : Under a c where
  site := hbc.site.trans hab.site
  path := hab.path.trans hbc.path

/-- The address of a folder. -/
structure DirUrl (url : Text) : Prop where
  scheme : exists s, urlScheme url = some s
  slash : (addressPath url).getLast? = some 47
  zero : ZeroFree url
  plain : forall b, b ∈ url -> b ≠ 63 ∧ b ≠ 35

/-- The path that a link without a query asks for, dot segments and all. -/
def hrefPath (dirPath href : Text) : Text :=
  if startsWithCi "http://" href || startsWithCi "https://" href then addressPath href
  else if href.take 2 = ascii "//" then (href.drop 2).dropWhile inAuthority
  else if href.head? = some 47 then href
  else dirPath ++ href

/-- The link spells the path of the folder as it is, and behind it never steps up more often than
it has stepped down. -/
def HrefStays (dirPath href : Text) : Prop :=
  StaysIn 47 (ascii ".") (ascii "..") dirPath
    ((hrefPath dirPath (href.takeWhile (fun b => b != 63))).takeWhile (fun b => b != 35))

/-!
# Parts of an address
-/

theorem address_parts {https : Bool} {front site rest : Text}
    (hfront : lowerText front = schemeFront https) (hsite : forall b, b ∈ site -> inAuthority b = true)
    (hrest : forall b, rest.head? = some b -> inAuthority b = false) :
    addressPath (front ++ (site ++ rest)) = rest ∧
      addressSite (front ++ (site ++ rest)) = some (https, lowerText site) := by
  have hscheme := urlScheme_front hfront (site ++ rest)
  have hdrop : (site ++ rest).dropWhile inAuthority = rest ∧
      (site ++ rest).takeWhile inAuthority = site := by
    rw [List.dropWhile_append_of_pos hsite, List.takeWhile_append_of_pos hsite]
    cases rest with
    | nil => exact ⟨rfl, List.append_nil site⟩
    | cons b more =>
        have hb := hrest b rfl
        rw [List.dropWhile_cons_of_neg (Bool.eq_false_iff.mp hb),
          List.takeWhile_cons_of_neg (Bool.eq_false_iff.mp hb), List.append_nil]
        exact ⟨rfl, rfl⟩
  unfold addressPath addressSite
  rw [hscheme, Option.map_some, hdrop.2]
  exact ⟨hdrop.1, rfl⟩

/-- The scheme, the authority and the path, one behind the other. -/
theorem address_split {url p : Text} {https : Bool} (h : urlScheme url = some (https, p)) :
    exists front, url = front ++ (p.takeWhile inAuthority ++ addressPath url) ∧
      lowerText front = schemeFront https := by
  rcases urlScheme_iff.mp h with ⟨front, hurl, hfront⟩
  refine ⟨front, ?_, hfront⟩
  have hpath : addressPath url = p.dropWhile inAuthority := by
    unfold addressPath
    rw [h]
  rw [hpath, List.takeWhile_append_dropWhile]
  exact hurl

theorem addressPath_head {url : Text} {b : UInt8} (h : (addressPath url).head? = some b) :
    inAuthority b = false := by
  unfold addressPath at h
  split at h
  · cases h
  · rename_i p _
    have hnot := List.head?_dropWhile_not inAuthority p
    rw [h] at hnot
    simpa using hnot

/-- Cutting a fragment off an address cuts it off the path. -/
theorem addressPath_cut {url : Text} {s : Bool × Text} (h : urlScheme url = some s) :
    addressPath (url.takeWhile (fun b => b != 35)) =
        (addressPath url).takeWhile (fun b => b != 35) ∧
      exists s', urlScheme (url.takeWhile (fun b => b != 35)) = some s' := by
  rcases s with ⟨https, p⟩
  rcases address_split h with ⟨front, hurl, hfront⟩
  have hfrontCut : forall b, b ∈ front -> (b != 35) = true := by
    intro b hb
    have hlower : lowerByte b ∈ schemeFront https := by
      rw [<- hfront]
      exact List.mem_map_of_mem hb
    rw [<- bne_lower (c := 35) (by decide), bne_iff_ne]
    intro heq
    rw [heq] at hlower
    cases https
    · exact absurd hlower (by decide)
    · exact absurd hlower (by decide)
  have hsiteCut : forall b, b ∈ p.takeWhile inAuthority -> (b != 35) = true := by
    intro b hb
    have hin := List.mem_takeWhile_imp hb
    unfold inAuthority at hin
    exact (Bool.and_eq_true_iff.mp hin).2
  have hcut : url.takeWhile (fun b => b != 35) = front ++ (p.takeWhile inAuthority ++
      (addressPath url).takeWhile (fun b => b != 35)) := by
    conv_lhs => rw [hurl]
    rw [List.takeWhile_append_of_pos hfrontCut, List.takeWhile_append_of_pos hsiteCut]
  have hhead : forall b, ((addressPath url).takeWhile (fun b => b != 35)).head? = some b ->
      inAuthority b = false := by
    intro b hb
    cases hpath : addressPath url with
    | nil =>
        rw [hpath] at hb
        cases hb
    | cons c more =>
        rw [hpath, List.takeWhile_cons] at hb
        split at hb
        · cases hb
          exact addressPath_head (congrArg List.head? hpath)
        · cases hb
  rw [hcut]
  exact ⟨(address_parts hfront (fun b hb => List.mem_takeWhile_imp hb) hhead).1, _,
    urlScheme_front hfront _⟩

/-!
# Links that are resolved
-/

/-- The path that is made for a link: blanks of the form {lit}`./` are left out. -/
def resolvedPath (dirPath href : Text) : Text :=
  if startsWithCi "http://" href || startsWithCi "https://" href then addressPath href
  else if href.take 2 = ascii "//" then (href.drop 2).dropWhile inAuthority
  else if href.head? = some 47 then href
  else dirPath ++ withoutDots href

/-- What a link is resolved to, before it is cut. -/
structure Resolved (whole path : Text) : Prop where
  scheme : exists s, urlScheme whole = some s
  path : addressPath whole = path
  zero : ZeroFree whole
  plain : forall b, b ∈ whole -> b ≠ 63

theorem mem_withoutDots {href : Text} {b : UInt8} (h : b ∈ withoutDots href) : b ∈ href := by
  induction href using withoutDots.induct with
  | case1 rest ih =>
      rw [withoutDots] at h
      exact List.mem_cons_of_mem _ (List.mem_cons_of_mem _ (ih h))
  | case2 href hne =>
      rw [withoutDots] at h
      · exact h
      · exact hne

theorem DirUrl.mem_path {dirUrl : Text} (hdir : DirUrl dirUrl) {b : UInt8}
    (hb : b ∈ addressPath dirUrl) : b ∈ dirUrl := by
  rcases hdir.scheme with ⟨⟨https, p⟩, hscheme⟩
  rcases address_split hscheme with ⟨front, hurl, _⟩
  rw [hurl]
  exact List.mem_append_right _ (List.mem_append_right _ hb)

theorem DirUrl.path_head {dirUrl : Text} (hdir : DirUrl dirUrl) {b : UInt8} {rest : Text}
    (h : addressPath dirUrl = b :: rest) : b = 47 := by
  have hstop := addressPath_head (congrArg List.head? h)
  have hplain := hdir.plain b (hdir.mem_path (h ▸ List.mem_cons_self))
  unfold inAuthority at hstop
  simpa [hplain.1, hplain.2] using hstop

theorem dirPath_parsed {dirUrl : Text} {bu : HttpUrl} (hdir : DirUrl dirUrl)
    (h : httpUrlParse dirUrl = some bu) : urlDir bu.path = addressPath dirUrl := by
  rcases (httpUrlParse_parts h).parts with ⟨p, host, portText, hscheme, _, _, _, hpath⟩
  have hp : addressPath dirUrl = p.dropWhile inAuthority := by
    unfold addressPath
    rw [hscheme]
  have hplain : forall b, b ∈ addressPath dirUrl -> b ≠ 63 ∧ b ≠ 35 :=
    fun b hb => hdir.plain b (hdir.mem_path hb)
  have hwhole : (addressPath dirUrl).takeWhile (fun b => b != 35) = addressPath dirUrl := by
    rw [List.takeWhile_eq_self_iff]
    intro b hb
    exact bne_iff_ne.mpr (hplain b hb).2
  have hsame : bu.path = addressPath dirUrl := by
    rw [<- hp, urlPath, hwhole] at hpath
    split at hpath
    · rename_i hnil
      have hslash := hdir.slash
      rw [hnil] at hslash
      cases hslash
    · rename_i rest hmark
      exact absurd rfl (hplain 63 (hmark ▸ List.mem_cons_self)).1
    · split at hpath
      · cases hpath
      · exact (Option.some.inj hpath).symm
  rw [hsame, urlDir]
  have hall : (addressPath dirUrl).takeWhile (fun b => b != 63) = addressPath dirUrl := by
    rw [List.takeWhile_eq_self_iff]
    intro b hb
    exact bne_iff_ne.mpr (hplain b hb).1
  rw [hall, List.rdropWhile_eq_self_iff]
  intro hne
  have hlast := hdir.slash
  rw [List.getLast?_eq_some_getLast hne] at hlast
  rw [Option.some.inj hlast]
  decide

theorem schemeFront_plain (https : Bool) : lowerText (schemeFront https) = schemeFront https ∧
    ZeroFree (schemeFront https) ∧ (63 : UInt8) ∉ schemeFront https ∧
      (schemeFront https).length ≤ 8 := by
  cases https
  · decide +kernel
  · decide +kernel

theorem resolved_site {https : Bool} {site path : Text}
    (hsite : forall b, b ∈ site -> inAuthority b = true) (hsiteZero : ZeroFree site)
    (hslash : forall b, path.head? = some b -> inAuthority b = false) (hzero : ZeroFree path)
    (hplain : forall b, b ∈ path -> b ≠ 63) :
    Resolved (schemeFront https ++ (site ++ path)) path where
  scheme := ⟨_, urlScheme_front (schemeFront_plain https).1 _⟩
  path := (address_parts (schemeFront_plain https).1 hsite hslash).1
  zero := zeroFree_append (schemeFront_plain https).2.1 (zeroFree_append hsiteZero hzero)
  plain := by
    intro b hb heq
    rcases List.mem_append.mp hb with hb | hb
    · exact (schemeFront_plain https).2.2.1 (heq ▸ hb)
    · rcases List.mem_append.mp hb with hb | hb
      · have hin := hsite b hb
        rw [heq] at hin
        cases hin
      · exact hplain b hb heq

/-- The origin of the folder in front of a path. -/
theorem resolved_origin {dirUrl path : Text} {bu : HttpUrl} (h : httpUrlParse dirUrl = some bu)
    (hslash : path.head? = some 47) (hzero : ZeroFree path)
    (hplain : forall b, b ∈ path -> b ≠ 63) :
    Resolved (copied 320 (urlOrigin bu) ++ path) path := by
  have hfront := schemeFront_plain bu.https
  have horigin : copied 320 (urlOrigin bu) = schemeFront bu.https ++
      cString ((hostAndPort bu).take (319 - (schemeFront bu.https).length)) := by
    have hwhole : urlOrigin bu = schemeFront bu.https ++ hostAndPort bu := rfl
    rw [hwhole, copied, List.take_append, List.take_of_length_le (hfront.2.2.2.trans (by decide)),
      cString, List.takeWhile_append_of_pos (fun b hb => bne_iff_ne.mpr (hfront.2.1 b hb))]
    rfl
  rw [horigin, List.append_assoc]
  apply resolved_site
  · intro b hb
    exact hostAndPort_inAuthority h ((List.take_prefix _ _).subset ((cString_starts _).subset hb))
  · exact zeroFree_cString _
  · intro b hb
    rw [hslash] at hb
    cases hb
    rfl
  · exact hzero
  · exact hplain

theorem resolvedText_path {dirUrl href tmp : Text} (hdir : DirUrl dirUrl) (hzero : ZeroFree href)
    (hplain : forall b, b ∈ href -> b ≠ 63) (h : resolvedText dirUrl href = some tmp) :
    exists whole, tmp = copied 2048 whole ∧
      Resolved whole (resolvedPath (addressPath dirUrl) href) := by
  unfold resolvedText at h
  unfold resolvedPath
  split at h
  · rename_i habs
    cases h
    rw [if_pos habs]
    refine ⟨href, rfl, ?_, rfl, hzero, hplain⟩
    rw [Bool.or_eq_true] at habs
    unfold urlScheme
    split
    · exact ⟨_, rfl⟩
    · rename_i hhttps
      rw [if_pos (habs.resolve_right hhttps)]
      exact ⟨_, rfl⟩
  · rename_i habs
    rw [if_neg habs]
    split at h
    · rename_i hsite
      cases h
      rw [if_pos hsite]
      have hwhole : schemeText (startsWithCi "https" dirUrl) ++ ascii ":" ++ href =
          schemeFront (startsWithCi "https" dirUrl) ++ ((href.drop 2).takeWhile inAuthority ++
            (href.drop 2).dropWhile inAuthority) := by
        rw [List.takeWhile_append_dropWhile]
        conv_lhs => rw [<- List.take_append_drop 2 href, hsite]
        rw [schemeFront, List.append_assoc, List.append_assoc]
        rfl
      have hrest : forall b, b ∈ (href.drop 2).dropWhile inAuthority -> b ∈ href :=
        fun b hb => (List.drop_suffix 2 href).subset ((List.dropWhile_suffix _).subset hb)
      refine ⟨_, rfl, ?_⟩
      rw [hwhole]
      apply resolved_site
      · exact fun b hb => List.mem_takeWhile_imp hb
      · exact fun b hb =>
          hzero b ((List.drop_suffix 2 href).subset ((List.takeWhile_prefix _).subset hb))
      · intro b hb
        have hnot := List.head?_dropWhile_not inAuthority (href.drop 2)
        rw [hb] at hnot
        simpa using hnot
      · exact fun b hb => hzero b (hrest b hb)
      · exact fun b hb => hplain b (hrest b hb)
    · rename_i hsite
      rw [if_neg hsite]
      split at h
      · cases h
      · rename_i bu hbu
        dsimp only at h
        split at h
        · rename_i hslash
          cases h
          rw [if_pos hslash]
          exact ⟨_, rfl, resolved_origin hbu hslash hzero hplain⟩
        · rename_i hslash
          cases h
          rw [if_neg hslash, dirPath_parsed hdir hbu, List.append_assoc]
          refine ⟨_, rfl, resolved_origin hbu ?_ ?_ ?_⟩
          · cases hpath : addressPath dirUrl with
            | nil =>
                have hlast := hdir.slash
                rw [hpath] at hlast
                cases hlast
            | cons b rest => exact congrArg some (hdir.path_head hpath)
          · exact zeroFree_append (fun b hb => hdir.zero b (hdir.mem_path hb))
              (fun b hb => hzero b (mem_withoutDots hb))
          · intro b hb
            rcases List.mem_append.mp hb with hb | hb
            · exact (hdir.plain b (hdir.mem_path hb)).1
            · exact hplain b (mem_withoutDots hb)

theorem takeWhile_take {p : UInt8 -> Bool} {text : Text} {n : Nat}
    (h : ((text.take n).takeWhile p).length < n) :
    (text.take n).takeWhile p = text.takeWhile p := by
  induction text generalizing n with
  | nil => simp
  | cons b rest ih =>
      cases n with
      | zero => cases h
      | succ n =>
          rw [List.take_succ_cons, List.takeWhile_cons, List.takeWhile_cons] at *
          split
          · rename_i hb
            rw [if_pos hb, List.length_cons] at h
            rw [ih (Nat.lt_of_succ_lt_succ h)]
          · rfl

/-- The address that a link is resolved to. -/
structure ResolvedUrl (abs path : Text) : Prop where
  path : addressPath abs = path.takeWhile (fun b => b != 35)
  zero : ZeroFree abs
  plain : forall b, b ∈ abs -> b ≠ 63 ∧ b ≠ 35

theorem urlResolve_path {dirUrl href abs : Text} (hdir : DirUrl dirUrl) (hzero : ZeroFree href)
    (hplain : forall b, b ∈ href -> b ≠ 63) (h : urlResolve dirUrl href httpUrlMax = some abs) :
    ResolvedUrl abs (resolvedPath (addressPath dirUrl) href) := by
  unfold urlResolve at h
  split at h
  · cases h
  · rename_i tmp htmp
    dsimp only at h
    split at h
    · cases h
    · rename_i hshort
      rcases resolvedText_path hdir hzero hplain htmp with ⟨whole, rfl, hwhole⟩
      have hcopied : copied 2048 whole = whole.take 2047 :=
        cString_of_zeroFree (fun b hb => hwhole.zero b ((List.take_prefix _ _).subset hb))
      rw [hcopied] at h hshort
      have habs : abs = whole.takeWhile (fun b => b != 35) := by
        rw [<- Option.some.inj h]
        apply takeWhile_take
        exact (Nat.lt_of_not_le hshort).trans (by decide)
      rcases hwhole.scheme with ⟨s, hscheme⟩
      have hmem : forall b, b ∈ abs -> b ∈ whole := by
        intro b hb
        rw [habs] at hb
        exact (List.takeWhile_prefix _).subset hb
      refine ⟨?_, fun b hb => hwhole.zero b (hmem b hb), fun b hb => ⟨hwhole.plain b (hmem b hb), ?_⟩⟩
      · rw [habs, (addressPath_cut hscheme).1, hwhole.path]
      · rw [habs] at hb
        have hhash := List.mem_takeWhile_imp hb
        exact bne_iff_ne.mp hhash

/-!
# Links that are taken
-/

/-- What the test on the text of an address finds out: the same site, and a path that starts like
the folder's, whatever its case. -/
theorem insideDir_parts {dirUrl abs : Text} (hdir : DirUrl dirUrl)
    (h : insideDir dirUrl abs = true) :
    addressSite abs = addressSite dirUrl ∧ (exists s, urlScheme abs = some s) ∧
      addressPath abs ≠ [] ∧ addressPath abs <:+ abs := by
  rcases hdir.scheme with ⟨⟨https, p⟩, hscheme⟩
  rcases address_split hscheme with ⟨front, hurl, hfront⟩
  have hstart := beq_iff_eq.mp (Bool.and_eq_true_iff.mp h).1
  generalize hsite : p.takeWhile inAuthority = site at hurl
  rw [hurl] at hstart
  rw [lowerText_append, lowerText_append, lowerText_map (abs.take _)] at hstart
  rcases List.map_eq_append_iff.mp hstart with ⟨front', rest, htake, hfront', hrest⟩
  rcases List.map_eq_append_iff.mp hrest with ⟨site', path', hrest', hsite', hpath'⟩
  have habs : abs = front' ++ (site' ++ (path' ++ abs.drop dirUrl.length)) := by
    conv_lhs => rw [<- List.take_append_drop dirUrl.length abs]
    rw [<- hurl] at htake
    rw [htake, hrest']
    simp only [List.append_assoc]
  have hin : forall b, b ∈ site' -> inAuthority b = true := by
    intro b hb
    have hlower : lowerByte b ∈ lowerText site := by
      rw [<- hsite']
      exact List.mem_map_of_mem hb
    rcases List.mem_map.mp hlower with ⟨c, hc, heq⟩
    rw [<- hsite] at hc
    have hcin := List.mem_takeWhile_imp hc
    rw [<- inAuthority_lower, <- heq]
    exact (inAuthority_lower c).trans hcin
  have hpathHead : exists more, path' = 47 :: more := by
    cases hdirPath : addressPath dirUrl with
    | nil =>
        have hslash := hdir.slash
        rw [hdirPath] at hslash
        cases hslash
    | cons b more =>
        rw [hdir.path_head hdirPath] at hdirPath
        rw [hdirPath] at hpath'
        cases path' with
        | nil => cases hpath'
        | cons c more' =>
            have hc := (List.cons.inj hpath').1
            exact ⟨more', congrArg (fun b => b :: more') ((lowerByte_eq_iff (by decide) c).mp hc)⟩
  rcases hpathHead with ⟨more, rfl⟩
  have hparts := address_parts (hfront'.trans hfront) hin
    (fun b hb => (Option.some.inj hb) ▸ rfl : forall b,
      (47 :: more ++ abs.drop dirUrl.length).head? = some b -> inAuthority b = false)
  have hdirSite : addressSite dirUrl = some (https, lowerText site) := by
    unfold addressSite
    rw [hscheme, Option.map_some, hsite]
  rw [<- habs] at hparts
  refine ⟨?_, ⟨_, habs ▸ urlScheme_front (hfront'.trans hfront) _⟩, ?_, ?_⟩
  · rw [hparts.2, hdirSite]
    exact congrArg (fun site => some (https, site)) hsite'
  · rw [hparts.1]
    exact List.cons_ne_nil _ _
  · rw [hparts.1]
    conv_rhs => rw [habs]
    exact (List.suffix_append _ _).trans (List.suffix_append _ _)

theorem staysBelow_withoutDots {href : Text} {depth : Nat}
    (h : staysBelow (ascii ".") (ascii "..") depth
      (segments 47 (href.takeWhile (fun b => b != 35))) = true) :
    staysBelow (ascii ".") (ascii "..") depth
      (segments 47 ((withoutDots href).takeWhile (fun b => b != 35))) = true := by
  induction href using withoutDots.induct with
  | case1 rest ih =>
      rw [withoutDots]
      apply ih
      have hcut : (46 :: 47 :: rest).takeWhile (fun b => b != 35) =
          ascii "." ++ 47 :: rest.takeWhile (fun b => b != 35) := rfl
      rw [hcut, Segments.segments_append] at h
      exact h
  | case2 href hne =>
      rw [withoutDots]
      · exact h
      · exact hne

/-- A link that stays is resolved to a path that stays. -/
theorem staysIn_resolved {dirUrl href : Text} (hdir : DirUrl dirUrl)
    (h : StaysIn 47 (ascii ".") (ascii "..") (addressPath dirUrl)
      ((hrefPath (addressPath dirUrl) href).takeWhile (fun b => b != 35))) :
    StaysIn 47 (ascii ".") (ascii "..") (addressPath dirUrl)
      ((resolvedPath (addressPath dirUrl) href).takeWhile (fun b => b != 35)) := by
  have hcut : forall rest : Text, (addressPath dirUrl ++ rest).takeWhile (fun b => b != 35) =
      addressPath dirUrl ++ rest.takeWhile (fun b => b != 35) :=
    fun rest => List.takeWhile_append_of_pos
      (fun b hb => bne_iff_ne.mpr (hdir.plain b (hdir.mem_path hb)).2)
  unfold hrefPath at h
  unfold resolvedPath
  split
  · rename_i habs
    rw [if_pos habs] at h
    exact h
  · rename_i habs
    rw [if_neg habs] at h
    split
    · rename_i hsite
      rw [if_pos hsite] at h
      exact h
    · rename_i hsite
      rw [if_neg hsite] at h
      split
      · rename_i hslash
        rw [if_pos hslash] at h
        exact h
      · rename_i hslash
        rw [if_neg hslash, hcut] at h
        rw [hcut]
        rcases h.inside with ⟨behind, hbehind, hstays⟩
        rw [List.append_cancel_left_eq] at hbehind
        rw [<- hbehind] at hstays
        exact ⟨⟨_, rfl, staysBelow_withoutDots hstays⟩⟩

theorem under_of_stays {dirUrl abs : Text} (hdir : DirUrl dirUrl)
    (hsite : addressSite abs = addressSite dirUrl)
    (h : StaysIn 47 (ascii ".") (ascii "..") (addressPath dirUrl) (addressPath abs)) :
    Under dirUrl abs where
  site := hsite
  path := by
    have hdirPath := List.dropLast_append_getLast? 47 hdir.slash
    unfold withoutDotSegments
    rw [<- hdirPath] at h ⊢
    exact h.starts_removeDots 47 _ _ (by decide) (by decide)

/-- A link that is taken, and stays, leads below the folder. -/
theorem linkUrl_under {dirUrl href abs : Text} (hdir : DirUrl dirUrl) (hzero : ZeroFree href)
    (hstays : HrefStays (addressPath dirUrl) href) (h : linkUrl dirUrl href = some abs) :
    Under dirUrl abs ∧ (abs.getLast? = some 47 -> DirUrl abs) := by
  unfold linkUrl at h
  split at h
  · cases h
  · rcases Option.filter_eq_some_iff.mp h with ⟨hresolve, hinside⟩
    have hplain : forall b, b ∈ href.takeWhile (fun b => b != 63) -> b ≠ 63 := by
      intro b hb
      have hmark := List.mem_takeWhile_imp hb
      exact bne_iff_ne.mp hmark
    have hurl := urlResolve_path hdir
      (fun b hb => hzero b ((List.takeWhile_prefix _).subset hb)) hplain hresolve
    rcases insideDir_parts hdir hinside with ⟨hsite, hscheme, hne, hsuffix⟩
    constructor
    · apply under_of_stays hdir hsite
      rw [hurl.path]
      exact staysIn_resolved hdir hstays
    · intro hlast
      refine ⟨hscheme, ?_, hurl.zero, hurl.plain⟩
      rcases hsuffix with ⟨front, habs⟩
      rw [<- habs, List.getLast?_append_of_ne_nil _ hne] at hlast
      exact hlast

end Http
end PkgManager
