import PkgManager.Http.ListingUrls

/-!
# Scans that stay in the source

Whatever a scan asks for or reports lies below the folder where it started, when no page that it
gets has a link that steps out of its folder.
-/

namespace PkgManager
namespace Http

open CString
open PkgManager.Parser
open PkgManager.Secrets
open Segments (segments staysBelow StaysIn)

/-!
# Links of a page
-/

theorem strcasestr_suffix {needle : String} {p found : Text}
    (h : strcasestr needle p = some found) : found <:+ p := by
  induction p with
  | nil => cases h
  | cons b rest ih =>
      unfold strcasestr at h
      split at h
      · cases h
        exact List.suffix_refl _
      · exact (ih h).trans (List.suffix_cons b rest)

theorem skipBlanks_suffix (p : Text) : skipBlanks p <:+ p :=
  List.dropWhile_suffix _

theorem valueQuote_suffix (p : Text) : (valueQuote p).2 <:+ p := by
  unfold valueQuote
  split
  · exact List.suffix_cons _ _
  · exact List.suffix_cons _ _
  · exact List.suffix_refl _

/-- What is taken of a value, and what is left, are parts of the text. -/
theorem hrefValue_parts {p : Text} :
    (forall href, (hrefValue p).1 = some href -> href ⊆ p) ∧ (hrefValue p).2 <:+ p := by
  unfold hrefValue
  split
  · rename_i rest hrest
    have hvalue : (valueQuote (skipBlanks rest)).2 <:+ p :=
      (valueQuote_suffix _).trans ((skipBlanks_suffix rest).trans
        ((List.suffix_cons 61 rest).trans (hrest ▸ skipBlanks_suffix p)))
    constructor
    · intro href hhref
      dsimp only at hhref
      split at hhref
      · cases hhref
      · cases hhref
        exact fun b hb => hvalue.subset ((List.takeWhile_prefix _).subset hb)
    · exact (List.dropWhile_suffix _).trans hvalue
  · constructor
    · intro href hhref
      cases hhref
    · exact skipBlanks_suffix p

theorem hrefsFrom_subset {turns : Nat} {p href : Text} (h : href ∈ hrefsFrom turns p) :
    href ⊆ p := by
  induction turns generalizing p with
  | zero => cases h
  | succ turns ih =>
      unfold hrefsFrom at h
      split at h
      · cases h
      · rename_i found hfound
        have hdrop : found.drop 4 <:+ p := (List.drop_suffix 4 found).trans (strcasestr_suffix hfound)
        rcases List.mem_append.mp h with hvalue | hrest
        · rw [Option.mem_toList] at hvalue
          exact fun b hb => hdrop.subset (hrefValue_parts.1 href hvalue hb)
        · exact fun b hb => hdrop.subset (hrefValue_parts.2.subset (ih hrest hb))

theorem zeroFree_htmlUnescapeFrom {turns : Nat} {text : Text} (h : ZeroFree text) :
    ZeroFree (htmlUnescapeFrom turns text) := by
  induction turns generalizing text with
  | zero => exact fun b hb => by cases hb
  | succ turns ih =>
      cases text with
      | nil => exact fun b hb => by cases hb
      | cons c rest =>
          have hentities : forall e, e ∈ entities -> e.2 ≠ 0 := by decide
          unfold htmlUnescapeFrom
          split
          · rename_i e he
            intro b hb
            rcases List.mem_cons.mp hb with rfl | hb
            · exact hentities e (List.mem_of_find?_eq_some he)
            · exact ih (fun b hb => h b ((List.drop_suffix _ _).subset hb)) b hb
          · intro b hb
            rcases List.mem_cons.mp hb with rfl | hb
            · exact h b List.mem_cons_self
            · exact ih (fun b hb => h b (List.mem_cons_of_mem c hb)) b hb

theorem zeroFree_hrefs {body href : Text} (h : href ∈ hrefs body) : ZeroFree href := by
  rcases List.mem_map.mp h with ⟨value, hvalue, rfl⟩
  exact zeroFree_htmlUnescapeFrom
    (fun b hb => zeroFree_cString body b (hrefsFrom_subset hvalue hb))

/-!
# Names
-/

theorem mem_pctEncodeFrom {outSz o : Nat} {text : Text} {b : UInt8}
    (h : b ∈ pctEncodeFrom outSz o text) : exists c, c ∈ text ∧ b ∈ pctPiece c := by
  induction text generalizing o with
  | nil => cases h
  | cons c rest ih =>
      unfold pctEncodeFrom at h
      split at h
      · cases h
      · rcases List.mem_append.mp h with hpiece | hrest
        · exact ⟨c, List.mem_cons_self, hpiece⟩
        · rcases ih hrest with ⟨d, hd, hb⟩
          exact ⟨d, List.mem_cons_of_mem c hd, hb⟩

theorem pctEncodePath_head {outSz : Nat} {text : Text} (h : text.head? ≠ some 46) :
    (pctEncodePath outSz text).head? ≠ some 46 := by
  cases text with
  | nil => exact fun hhead => by cases hhead
  | cons c rest =>
      unfold pctEncodePath pctEncodeFrom
      split
      · exact fun hhead => by cases hhead
      · unfold pctPiece
        split
        · exact h
        · exact fun hhead => by cases hhead

theorem unreserved_plain {b : UInt8} (h : b = 37 ∨ isUnreserved b = true) :
    b ≠ 63 ∧ b ≠ 35 ∧ b ≠ 0 := by
  rcases h with rfl | h
  · decide
  · refine ⟨?_, ?_, ?_⟩
    · rintro rfl
      cases h
    · rintro rfl
      cases h
    · rintro rfl
      cases h

/-- One segment that is no dot segment, with a slash behind it or not. -/
theorem staysBelow_name {enc : Text} (hslash : (47 : UInt8) ∉ enc) (hhead : enc.head? ≠ some 46)
    (isDir : Bool) :
    staysBelow (ascii ".") (ascii "..") 0
      (segments 47 (enc ++ (if isDir then [47] else []))) = true := by
  have hhere : enc ≠ ascii "." := fun heq => hhead (heq ▸ rfl)
  have hup : enc ≠ ascii ".." := fun heq => hhead (heq ▸ rfl)
  have hname : segments 47 (enc ++ (if isDir then [47] else [])) =
      enc :: (if isDir then [[]] else []) := by
    cases isDir with
    | true =>
        rw [if_pos rfl, if_pos rfl, Segments.segments_append, Segments.segments_single 47 hslash]
        rfl
    | false =>
        rw [if_neg Bool.false_ne_true, if_neg Bool.false_ne_true, List.append_nil,
          Segments.segments_single 47 hslash]
  rw [hname, staysBelow, if_neg hhere, if_neg hup]
  cases isDir
  · rfl
  · rfl

theorem addressPath_append {dirUrl : Text} (hdir : DirUrl dirUrl) (more : Text) :
    addressPath (dirUrl ++ more) = addressPath dirUrl ++ more ∧
      addressSite (dirUrl ++ more) = addressSite dirUrl ∧
        exists s, urlScheme (dirUrl ++ more) = some s := by
  rcases hdir.scheme with ⟨⟨https, p⟩, hscheme⟩
  rcases address_split hscheme with ⟨front, hurl, hfront⟩
  have hin : forall b, b ∈ p.takeWhile inAuthority -> inAuthority b = true :=
    fun b hb => List.mem_takeWhile_imp hb
  have hhead : forall b, (addressPath dirUrl ++ more).head? = some b -> inAuthority b = false := by
    intro b hb
    cases hpath : addressPath dirUrl with
    | nil =>
        have hslash := hdir.slash
        rw [hpath] at hslash
        cases hslash
    | cons c rest =>
        rw [hpath] at hb
        cases hb
        exact addressPath_head (congrArg List.head? hpath)
  have hwhole : dirUrl ++ more =
      front ++ (p.takeWhile inAuthority ++ (addressPath dirUrl ++ more)) := by
    conv_lhs => rw [hurl]
    simp only [List.append_assoc]
  have hparts := address_parts hfront hin hhead
  have hdirSite : addressSite dirUrl = some (https, Scanner.lowerText (p.takeWhile inAuthority)) := by
    unfold addressSite
    rw [hscheme, Option.map_some]
  rw [hwhole, hdirSite]
  exact ⟨hparts.1, hparts.2, _, urlScheme_front hfront _⟩

/-- A name never leads out of the folder. -/
theorem nameUrl_under {dirUrl abs : Text} {entry : NameEntry} (hdir : DirUrl dirUrl)
    (h : nameUrl dirUrl entry = some abs) :
    Under dirUrl abs ∧ (entry.isDir = true -> DirUrl abs) := by
  unfold nameUrl at h
  split at h
  · cases h
  · rename_i hname
    rw [not_or, not_or] at hname
    dsimp only at h
    split at h
    · cases h
    · cases h
      have hbytes : forall b, b ∈ pctEncodePath httpUrlMax entry.name ->
          b ≠ 63 ∧ b ≠ 35 ∧ b ≠ 0 := by
        intro b hb
        rcases mem_pctEncodeFrom hb with ⟨c, _, hpiece⟩
        exact unreserved_plain (pctPiece_bytes hpiece)
      have hslash : (47 : UInt8) ∉ pctEncodePath httpUrlMax entry.name := by
        intro hmem
        rcases mem_pctEncodeFrom hmem with ⟨c, hc, hpiece⟩
        exact hname.2.2 (slash_mem_pctPiece.mp hpiece ▸ hc)
      rw [List.append_assoc]
      rcases addressPath_append hdir (pctEncodePath httpUrlMax entry.name ++
        (if entry.isDir then [47] else [])) with ⟨hpath, hsite, hscheme⟩
      constructor
      · apply under_of_stays hdir hsite
        rw [hpath]
        exact ⟨⟨_, rfl, staysBelow_name hslash (pctEncodePath_head hname.2.1) entry.isDir⟩⟩
      · intro hisDir
        rw [if_pos hisDir] at hpath hscheme ⊢
        have hmem : forall b, b ∈ dirUrl ++ (pctEncodePath httpUrlMax entry.name ++ [47]) ->
            b ∈ dirUrl ∨ b ∈ pctEncodePath httpUrlMax entry.name ∨ b = 47 := by
          intro b hb
          simpa using hb
        refine ⟨hscheme, ?_, fun b hb => ?_, fun b hb => ?_⟩
        · rw [hpath, <- List.append_assoc]
          exact List.getLast?_concat
        · rcases hmem b hb with hb | hb | rfl
          · exact hdir.zero b hb
          · exact (hbytes b hb).2.2
          · decide
        · rcases hmem b hb with hb | hb | rfl
          · exact hdir.plain b hb
          · exact ⟨(hbytes b hb).1, (hbytes b hb).2.1⟩
          · decide

/-!
# Pages
-/

def isNameList (body : Text) : Prop :=
  (body.dropWhile isSpace).head? = some 91

/-- No link that is taken from the page steps out of its folder. -/
structure TamePage (dirUrl body : Text) : Prop where
  stays : ¬isNameList body -> forall href, href ∈ hrefs body ->
    (linkUrl dirUrl href).isSome = true -> HrefStays (addressPath dirUrl) href

/-- What a listing has found so far, with what was reported before the scan. -/
structure Below (base : Text) (old : List Call) (st : ScanCtx × List Text) : Prop where
  calls : forall call, call ∈ st.1.calls -> call ∈ old ∨ Under base call.url
  subdirs : forall dirUrl, dirUrl ∈ st.2 -> DirUrl dirUrl ∧ Under base dirUrl

theorem seenAdd_calls (s : ScanCtx) (url : Text) : (seenAdd s url).2.calls = s.calls := by
  unfold seenAdd
  split <;> rfl

theorem emitPkg_calls {head : Option (Text -> Nat × Nat -> Nat × Nat)} {s : ScanCtx} {url : Text}
    {size mtime : Nat} {haveMeta : Bool} {call : Call}
    (h : call ∈ (emitPkg head s url size mtime haveMeta).calls) :
    call ∈ s.calls ∨ call.url = url := by
  unfold emitPkg at h
  dsimp only at h
  split at h
  · rw [seenAdd_calls] at h
    exact Or.inl h
  · split at h
    · rw [seenAdd_calls] at h
      exact Or.inl h
    · rcases List.mem_append.mp h with hold | hnew
      · rw [seenAdd_calls] at hold
        exact Or.inl hold
      · rw [List.mem_singleton] at hnew
        rw [hnew]
        exact Or.inr rfl

section
variable {base : Text} {old : List Call} {st : ScanCtx × List Text} {deeper : Bool}
variable {head : Option (Text -> Nat × Nat -> Nat × Nat)} {parseHttpDate : Text -> Nat}

theorem Below.emit (h : Below base old st) {abs : Text} (habs : Under base abs) (size mtime : Nat)
    (haveMeta : Bool) : Below base old (emitPkg head st.1 abs size mtime haveMeta, st.2) where
  calls := by
    intro call hcall
    rcases emitPkg_calls hcall with hold | hnew
    · exact h.calls call hold
    · rw [hnew]
      exact Or.inr habs
  subdirs := h.subdirs

theorem Below.addSubdir (h : Below base old st) {abs : Text} (habs : DirUrl abs ∧ Under base abs) :
    Below base old (addSubdir deeper st abs) := by
  unfold Http.addSubdir
  split
  · exact h
  · dsimp only
    constructor
    · intro call hcall
      rw [seenAdd_calls] at hcall
      exact h.calls call hcall
    · intro dirUrl hmem
      dsimp only at hmem
      split at hmem
      · rcases List.mem_append.mp hmem with hold | hnew
        · exact h.subdirs dirUrl hold
        · rw [List.mem_singleton.mp hnew]
          exact habs
      · exact h.subdirs dirUrl hmem

variable {dirUrl body : Text} (hdir : DirUrl dirUrl) (hbase : Under base dirUrl)
include hdir hbase

theorem scanLink_below {href : Text} (h : Below base old st) (hzero : ZeroFree href)
    (htame : (linkUrl dirUrl href).isSome = true -> HrefStays (addressPath dirUrl) href) :
    Below base old (scanLink head deeper dirUrl st href) := by
  unfold scanLink
  cases hlink : linkUrl dirUrl href with
  | none => exact h
  | some abs =>
      have hstays := htame (by rw [hlink]; rfl)
      rcases linkUrl_under hdir hzero hstays hlink with ⟨hunder, hsub⟩
      dsimp only
      split
      · rename_i hlast
        exact h.addSubdir ⟨hsub hlast, hbase.trans hunder⟩
      · exact h.emit (hbase.trans hunder) 0 0 false

theorem scanName_below {entry : NameEntry} (h : Below base old st) :
    Below base old (scanName head parseHttpDate deeper dirUrl st entry) := by
  unfold scanName
  cases hname : nameUrl dirUrl entry with
  | none => exact h
  | some abs =>
      rcases nameUrl_under hdir hname with ⟨hunder, hsub⟩
      dsimp only
      split
      · rename_i hisDir
        exact h.addSubdir ⟨hsub hisDir, hbase.trans hunder⟩
      · split
        · exact h.emit (hbase.trans hunder) _ _ _
        · exact h

/-- All that a tame page leads to is below its folder. -/
theorem scanListing_below {s : ScanCtx} (hcalls : forall call, call ∈ s.calls ->
      call ∈ old ∨ Under base call.url) (htame : TamePage dirUrl body)
    (h : scanListing head parseHttpDate deeper dirUrl body s = some st) : Below base old st := by
  have hstart : Below base old (s, []) :=
    { calls := hcalls
      subdirs := fun d hd => by cases hd }
  unfold scanListing at h
  split at h
  · rcases Option.map_eq_some_iff.mp h with ⟨entries, hentries, rfl⟩
    clear h hentries
    induction entries using List.reverseRecOn with
    | nil => exact hstart
    | append_singleton entries entry ih =>
        rw [List.foldl_append]
        exact scanName_below hdir hbase ih
  · rename_i hlist
    cases h
    have hlinks := htame.stays hlist
    have hzero : forall href, href ∈ hrefs body -> ZeroFree href := fun href => zeroFree_hrefs
    generalize hrefs body = links at hlinks hzero
    induction links using List.reverseRecOn with
    | nil => exact hstart
    | append_singleton links href ih =>
        rw [List.foldl_append]
        have hlast : href ∈ links ++ [href] := List.mem_append_right _ List.mem_cons_self
        apply scanLink_below hdir hbase _ (hzero href hlast) (hlinks href hlast)
        exact ih (fun other hother => hlinks other (List.mem_append_left _ hother))
          (fun other hother => hzero other (List.mem_append_left _ hother))

end

/-!
# Whole scans
-/

section
variable {head : Option (Text -> Nat × Nat -> Nat × Nat)} {parseHttpDate : Text -> Nat}
variable {page : Nat -> Text -> Option Text}

theorem foldl_visits {levels : Nat}
    (h : forall w dirUrl,
      w.visited <+: (scanHtmlDir head parseHttpDate page levels w dirUrl).2.visited)
    (subdirs : List Text) (w : Walk) :
    w.visited <+: (subdirs.foldl
      (fun w sub => (scanHtmlDir head parseHttpDate page levels w sub).2) w).visited := by
  induction subdirs generalizing w with
  | nil => exact List.prefix_rfl
  | cons sub rest ih => exact (h w sub).trans (ih _)

/-- The folders that were asked for stay on record. -/
theorem scanHtmlDir_visits (levels : Nat) (w : Walk) (dirUrl : Text) :
    w.visited <+: (scanHtmlDir head parseHttpDate page levels w dirUrl).2.visited := by
  induction levels generalizing w dirUrl with
  | zero => exact List.prefix_rfl
  | succ levels ih =>
      unfold scanHtmlDir
      split
      · exact List.prefix_rfl
      · have hvisit : w.visited <+: (w.visit dirUrl).visited := List.prefix_append _ _
        split
        · exact hvisit
        · split
          · exact hvisit
          · rename_i s subdirs _
            exact hvisit.trans (foldl_visits ih subdirs { w.visit dirUrl with ctx := s })

/-- Every page of a run, by the number of its request, is tame. -/
structure TameRun (page : Nat -> Text -> Option Text) (visited : List Text) : Prop where
  tame : forall {n dirUrl body}, visited[n]? = some dirUrl -> page n dirUrl = some body ->
    TamePage dirUrl body

/-- What a scan has asked for and reported so far, with what was reported before it. -/
structure WalkBelow (base : Text) (old : List Call) (w : Walk) : Prop where
  calls : forall call, call ∈ w.ctx.calls -> call ∈ old ∨ Under base call.url
  visited : forall dirUrl, dirUrl ∈ w.visited -> DirUrl dirUrl ∧ Under base dirUrl

variable {base : Text} {old : List Call} {visited : List Text}

theorem WalkBelow.visit {w : Walk} (h : WalkBelow base old w) {dirUrl : Text}
    (hdir : DirUrl dirUrl ∧ Under base dirUrl) : WalkBelow base old (w.visit dirUrl) where
  calls := h.calls
  visited := by
    intro d hd
    rcases List.mem_append.mp hd with hold | hnew
    · exact h.visited d hold
    · rw [List.mem_singleton.mp hnew]
      exact hdir

theorem foldl_below {levels : Nat}
    (h : forall {w dirUrl}, WalkBelow base old w -> DirUrl dirUrl ∧ Under base dirUrl ->
      (scanHtmlDir head parseHttpDate page levels w dirUrl).2.visited <+: visited ->
        WalkBelow base old (scanHtmlDir head parseHttpDate page levels w dirUrl).2)
    {subdirs : List Text} (hsubdirs : forall d, d ∈ subdirs -> DirUrl d ∧ Under base d) {w : Walk}
    (hw : WalkBelow base old w)
    (hvisited : (subdirs.foldl
      (fun w sub => (scanHtmlDir head parseHttpDate page levels w sub).2) w).visited <+: visited) :
    WalkBelow base old (subdirs.foldl
      (fun w sub => (scanHtmlDir head parseHttpDate page levels w sub).2) w) := by
  induction subdirs generalizing w with
  | nil => exact hw
  | cons sub rest ih =>
      apply ih (fun d hd => hsubdirs d (List.mem_cons_of_mem sub hd)) _ hvisited
      apply h hw (hsubdirs sub List.mem_cons_self)
      exact (foldl_visits (scanHtmlDir_visits levels) rest _).trans hvisited

/-- One folder with all that is below it. -/
theorem scanHtmlDir_below {levels : Nat} {w : Walk} {dirUrl : Text} (htame : TameRun page visited)
    (hw : WalkBelow base old w) (hdir : DirUrl dirUrl ∧ Under base dirUrl)
    (hvisited : (scanHtmlDir head parseHttpDate page levels w dirUrl).2.visited <+: visited) :
    WalkBelow base old (scanHtmlDir head parseHttpDate page levels w dirUrl).2 := by
  induction levels generalizing w dirUrl with
  | zero => exact hw
  | succ levels ih =>
      unfold scanHtmlDir at hvisited ⊢
      split at hvisited
      · rename_i hfull
        rw [if_pos hfull]
        exact hw
      · rename_i hroom
        rw [if_neg hroom]
        split at hvisited
        · exact hw.visit hdir
        · rename_i body hpage
          split at hvisited
          · rename_i hlisting
            exact hw.visit hdir
          · rename_i s subdirs hlisting
            dsimp only at hvisited ⊢
            have hasked : visited[w.visited.length]? = some dirUrl := by
              have hbegins := (foldl_visits (scanHtmlDir_visits levels) subdirs
                { w.visit dirUrl with ctx := s }).trans hvisited
              rcases hbegins with ⟨rest, hrest⟩
              rw [<- hrest]
              simp [Walk.visit]
            have hfound := scanListing_below hdir.1 hdir.2 (hw.visit hdir).calls
              (htame.tame hasked hpage) hlisting
            apply foldl_below ih hfound.subdirs _ hvisited
            exact
              { calls := hfound.calls
                visited := (hw.visit hdir).visited }

/-- What a scan has asked for and reported is below the folder where it started, and every link
that it took is below the folder of its page. -/
structure ScanStays (page : Nat -> Text -> Option Text) (base : Text) (old : List Call) (w : Walk) :
    Prop where
  visited : forall dirUrl, dirUrl ∈ w.visited -> Under base dirUrl
  calls : forall call, call ∈ w.ctx.calls -> call ∈ old ∨ Under base call.url
  links : forall {n dirUrl body href abs}, w.visited[n]? = some dirUrl ->
    page n dirUrl = some body -> ¬isNameList body -> href ∈ hrefs body ->
      linkUrl dirUrl href = some abs -> Under dirUrl abs

theorem dirUrl_sanitized {mzCrc32 : Text -> Nat} {c cfg : SourceConfig}
    (h : httpSourceSanitize mzCrc32 c = some cfg) (hzero : ZeroFree cfg.url) : DirUrl cfg.url := by
  have hclean := sanitize_clean h
  rcases sanitize_url h with ⟨_, _, ⟨u, hu⟩, _⟩
  rcases (httpUrlParse_parts hu).parts with ⟨p, host, portText, hscheme, hsplit, hhost, _, _⟩
  refine ⟨⟨_, hscheme⟩, ?_, hzero, hclean.plain⟩
  rcases address_split hscheme with ⟨front, hurl, hfront⟩
  have hne : addressPath cfg.url ≠ [] := by
    intro hnil
    have hsite := authority_ne_nil hu hscheme
    have hlast := hclean.slash
    rw [hurl, hnil, List.append_nil, List.getLast?_append_of_ne_nil _ hsite] at hlast
    have hin := List.mem_takeWhile_imp (List.mem_of_getLast? hlast)
    cases hin
  have hlast := hclean.slash
  rw [hurl, List.getLast?_append_of_ne_nil, List.getLast?_append_of_ne_nil _ hne] at hlast
  · exact hlast
  · exact List.append_ne_nil_of_right_ne_nil _ hne

/-- A scan of a source stays in it, when each page that it gets has no link that is taken and
steps out of its folder. -/
theorem scanSourceDir_stays {mzCrc32 : Text -> Nat} {c cfg : SourceConfig}
    (hcfg : httpSourceSanitize mzCrc32 c = some cfg) (hzero : ZeroFree cfg.url) {s : ScanCtx}
    (htame : TameRun page (scanSourceDir head parseHttpDate page s cfg.url).2.visited) :
    ScanStays page cfg.url s.calls (scanSourceDir head parseHttpDate page s cfg.url).2 := by
  have hdir := dirUrl_sanitized hcfg hzero
  have hbelow : WalkBelow cfg.url s.calls (scanSourceDir head parseHttpDate page s cfg.url).2 := by
    have hstart : WalkBelow cfg.url s.calls { ctx := (seenAdd s cfg.url).2, visited := [] } :=
      { calls := by
          intro call hcall
          rw [seenAdd_calls] at hcall
          exact Or.inl hcall
        visited := fun d hd => by cases hd }
    unfold scanSourceDir at htame ⊢
    dsimp only at htame ⊢
    split at htame
    · rename_i hnew
      rw [if_pos hnew]
      exact scanHtmlDir_below htame hstart ⟨hdir, Under.refl _⟩ List.prefix_rfl
    · rename_i hseen
      rw [if_neg hseen]
      exact hstart
  exact
    { visited := fun d hd => (hbelow.visited d hd).2
      calls := hbelow.calls
      links := by
        intro n dirUrl body href abs hvisited hpage hlist hhref hlink
        have hd := (hbelow.visited dirUrl (List.mem_of_getElem? hvisited)).1
        have hstays := (htame.tame hvisited hpage).stays hlist href hhref (by rw [hlink]; rfl)
        exact (linkUrl_under hd (zeroFree_hrefs hhref) hstays hlink).1 }

/-- A listing with a folder in it, which has a package. -/
def gamesPage (n : Nat) (_ : Text) : Option Text :=
  if n = 0 then some (ascii "<a href=\"Games/\">") else some (ascii "<a href='a.pkg'>")

def nasSource : SourceConfig where
  enabled := true
  id := ascii "nas"
  label := ascii "NAS"
  url := ascii "http://nas/"
  username := []
  password := []
  tlsMode := tlsVerify
  tlsPin := []

theorem scanSourceDir_games : ScanStays gamesPage nasSource.url []
    (scanSourceDir none (fun _ => 0) gamesPage ScanCtx.start nasSource.url).2 := by
  have hcfg : httpSourceSanitize (fun _ => 0) nasSource = some nasSource := by rfl
  apply scanSourceDir_stays (s := ScanCtx.start) hcfg (by decide +kernel)
  constructor
  intro n dirUrl body hvisited hpage
  have hrecord : (scanSourceDir none (fun _ => 0) gamesPage ScanCtx.start nasSource.url).2.visited =
      [ascii "http://nas/", ascii "http://nas/Games/"] := by
    decide
  rw [hrecord] at hvisited
  constructor
  intro _ href hhref _
  match n, hvisited, hpage with
  | 0, hvisited, hpage =>
      cases hvisited
      cases hpage
      have hlinks : hrefs (ascii "<a href=\"Games/\">") = [ascii "Games/"] := by decide
      rw [hlinks] at hhref
      rw [List.mem_singleton.mp hhref]
      exact ⟨⟨ascii "Games/", by decide, by decide⟩⟩
  | 1, hvisited, hpage =>
      cases hvisited
      cases hpage
      have hlinks : hrefs (ascii "<a href='a.pkg'>") = [ascii "a.pkg"] := by decide
      rw [hlinks] at hhref
      rw [List.mem_singleton.mp hhref]
      exact ⟨⟨ascii "a.pkg", by decide, by decide⟩⟩
  | n + 2, hvisited, _ => cases hvisited

/-- A page that leads out of its folder. -/
def upwardPage (_ : Nat) (_ : Text) : Option Text :=
  some (ascii "<a href=\"x/../../secret.pkg\">")

/-- The package that is reported lies beside the folder of the source. -/
theorem upward_not_below : ¬forall call,
    call ∈ (scanSourceDir none (fun _ => 0) upwardPage ScanCtx.start
      (ascii "http://nas/a/")).2.ctx.calls -> Under (ascii "http://nas/a/") call.url := by
  intro h
  have hcalls : (scanSourceDir none (fun _ => 0) upwardPage ScanCtx.start
      (ascii "http://nas/a/")).2.ctx.calls =
        [{ url := ascii "http://nas/a/x/../../secret.pkg", name := ascii "secret.pkg", size := 0,
           mtime := 0 }] := by
    decide
  rw [hcalls] at h
  have hunder := (h _ List.mem_cons_self).path
  have hnot : ¬withoutDotSegments (addressPath (ascii "http://nas/a/")) <+:
      withoutDotSegments (addressPath (ascii "http://nas/a/x/../../secret.pkg")) := by
    decide
  exact hnot hunder

end

end Http
end PkgManager
