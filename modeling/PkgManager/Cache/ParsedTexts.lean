import PkgManager.Cache.Meta
import PkgManager.Parser.Package

/-!
# The texts that the parsers leave

Every text that a metadata document leaves in the record ends within its array.
-/

namespace PkgManager
namespace Cache

open CString
open PkgManager.Parser
open PkgManager.Smb

/-!
# Texts in arrays
-/

theorem zeroFree_take {text : Text} (h : ZeroFree text) (n : Nat) : ZeroFree (text.take n) :=
  fun b hb => h b (List.mem_of_mem_take hb)

theorem zeroFree_copied (size : Nat) (bytes : List UInt8) : ZeroFree (copied size bytes) :=
  zeroFree_cString _

theorem zeroFree_nil : ZeroFree [] := by
  intro b hb
  cases hb

theorem fits_nil {size : Nat} (h : 0 < size) : FieldFits size [] where
  zeroFree := zeroFree_nil
  short := h

theorem fits_take {text : Text} (h : ZeroFree text) {size : Nat} (hsize : 0 < size) :
    FieldFits size (text.take (size - 1)) where
  zeroFree := zeroFree_take h _
  short := by
    rw [List.length_take]
    omega

theorem fits_cString {bytes : List UInt8} {size : Nat} (h : bytes.length < size) :
    FieldFits size (cString bytes) where
  zeroFree := zeroFree_cString bytes
  short := Nat.lt_of_le_of_lt (cString_starts bytes).length_le h

theorem FieldFits.mono {size size' : Nat} {text : Text} (h : FieldFits size text)
    (hle : size ≤ size') : FieldFits size' text where
  zeroFree := h.zeroFree
  short := Nat.lt_of_lt_of_le h.short hle

theorem fits_ite {c : Prop} [Decidable c] {size : Nat} {a b : Text}
    (ha : c -> FieldFits size a) (hb : FieldFits size b) : FieldFits size (if c then a else b) := by
  split
  · rename_i hc
    exact ha hc
  · exact hb

theorem zeroFree_ite {c : Prop} [Decidable c] {a b : Text} (ha : ZeroFree a) (hb : ZeroFree b) :
    ZeroFree (if c then a else b) := by
  split
  · exact ha
  · exact hb

theorem zeroFree_digitsText (n : Nat) : ZeroFree (digitsText n) :=
  fun _ hb => isDigit_ne (digitsText_digit hb) (by decide)

theorem zeroFree_intText (n : Int) : ZeroFree (intText n) := by
  have hminus : ZeroFree (ascii "-") := zeroFree_of_all rfl
  unfold intText
  split
  · exact zeroFree_append hminus (zeroFree_digitsText _)
  · exact zeroFree_digitsText _

theorem zeroFree_intText2 (n : Int) : ZeroFree (intText2 n) := by
  have hzero : ZeroFree (ascii "0") := zeroFree_of_all rfl
  unfold intText2
  split
  · exact zeroFree_append hzero (zeroFree_intText n)
  · exact zeroFree_intText n

/-!
# Localized titles
-/

structure TitleFree (entry : LocalizedTitle) : Prop where
  lang : ZeroFree entry.lang
  title : ZeroFree entry.title

theorem zeroFree_escapeFrom {title : Text} (h : ZeroFree title) (eidx : Nat) :
    ZeroFree (escapeFrom eidx title) := by
  have hslash : backslash ≠ 0 := by decide
  induction title generalizing eidx with
  | nil => exact zeroFree_nil
  | cons b rest ih =>
      have hb := h b List.mem_cons_self
      have hrest : ZeroFree rest := fun c hc => h c (List.mem_cons_of_mem b hc)
      unfold Parser.escapeFrom
      split
      · split
        · intro c hc
          rcases List.mem_cons.mp hc with rfl | hc
          · exact hslash
          · rcases List.mem_cons.mp hc with rfl | hc
            · exact hb
            · exact ih hrest _ c hc
        · intro c hc
          rcases List.mem_cons.mp hc with rfl | hc
          · exact hb
          · exact ih hrest _ c hc
      · exact zeroFree_nil

theorem zeroFree_titlePiece {entry : LocalizedTitle} (h : TitleFree entry) (first : Bool) :
    ZeroFree (titlePiece first entry) := by
  have hcomma : ZeroFree (if first then [] else ascii ",") := by
    cases first with
    | true => exact zeroFree_nil
    | false =>
        exact (zeroFree_of_all rfl : ZeroFree (ascii ","))
  have hquote : ZeroFree [quote] := zeroFree_of_all rfl
  have hcolon : ZeroFree (ascii "\":\"") := zeroFree_of_all rfl
  unfold titlePiece
  apply zeroFree_append _ hquote
  apply zeroFree_append _ (zeroFree_escapeFrom h.title 0)
  apply zeroFree_append _ hcolon
  apply zeroFree_append hcomma
  intro b hb
  rcases List.mem_cons.mp hb with rfl | hb
  · decide
  · exact h.lang b hb

theorem titlePieces_fits {locMax : Nat} {entries : List LocalizedTitle}
    (h : forall entry, entry ∈ entries -> TitleFree entry) (first : Bool) {out : Text}
    (hout : FieldFits locMax out) : FieldFits locMax (titlePieces locMax first out entries) := by
  induction entries generalizing first out with
  | nil => exact hout
  | cons entry rest ih =>
      unfold titlePieces
      dsimp only
      split
      · rename_i hroom
        apply ih (fun e he => h e (List.mem_cons_of_mem entry he)) false
        have hshort := hout.short
        exact
          { zeroFree :=
              zeroFree_append hout.zeroFree (zeroFree_titlePiece (h entry List.mem_cons_self) first)
            short := by
              rw [List.length_append]
              omega }
      · exact hout

theorem buildLocalizedTitles_fits {locMax : Nat} (hmax : 2 < locMax)
    {entries : List LocalizedTitle} (h : forall entry, entry ∈ entries -> TitleFree entry) :
    FieldFits locMax (buildLocalizedTitles locMax entries) := by
  have hopen : FieldFits locMax (ascii "\x7b") :=
    { zeroFree := zeroFree_of_all rfl
      short := Nat.lt_trans (by decide : (ascii "\x7b").length < 2) hmax }
  have hclose : ZeroFree (ascii "\x7d") := zeroFree_of_all rfl
  have hpieces := titlePieces_fits h true hopen
  unfold buildLocalizedTitles
  dsimp only
  split
  · rename_i hroom
    exact
      { zeroFree := zeroFree_append hpieces.zeroFree hclose
        short := by
          have hone : (ascii "\x7d").length = 1 := by decide
          rw [List.length_append, hone]
          omega }
  · exact hpieces

/-!
# The texts of a document
-/

/-- The texts fit the arrays of the record. -/
structure TextsFit (t : ParamTexts) : Prop where
  titleId : FieldFits titleIdLen t.titleId
  titleName : FieldFits titleNameLen t.titleName
  category : FieldFits 16 t.category
  version : FieldFits 32 t.version
  localizedTitles : FieldFits localizedTitlesLen t.localizedTitles
  defaultLang : FieldFits defaultLangLen t.defaultLang

theorem textsFit_empty : TextsFit ParamTexts.empty where
  titleId := fits_nil (by decide)
  titleName := fits_nil (by decide)
  category := fits_nil (by decide)
  version := fits_nil (by decide)
  localizedTitles := fits_nil (by decide)
  defaultLang := fits_nil (by decide)

theorem zeroFree_jsonExtractKey {json behind : List UInt8} {key : String} {outMax : Nat}
    {text : Text} (h : jsonExtractKey json behind key outMax = some text) : ZeroFree text := by
  rcases Option.map_eq_some_iff.mp h with ⟨bytes, _, rfl⟩
  exact zeroFree_copied outMax bytes

theorem noteKey_fits (json : List UInt8) (key : String) (bufMax : Nat) {outMax : Nat} {old : Text}
    (h : FieldFits outMax old) : FieldFits outMax (noteKey json key bufMax outMax old) := by
  unfold noteKey
  split
  · rename_i hcond
    split
    · rename_i text htext
      exact fits_take (zeroFree_jsonExtractKey htext) hcond.1
    · exact h
  · exact h

theorem zeroFree_jsonVersion {json behind : List UInt8} {ver : Text}
    (h : jsonVersion json behind = some ver) : ZeroFree ver := by
  unfold jsonVersion at h
  rw [Option.orElse_eq_some] at h
  rcases h with hcontent | ⟨_, hrest⟩
  · exact zeroFree_jsonExtractKey hcontent
  · rw [Option.orElse_eq_some] at hrest
    rcases hrest with happ | ⟨_, hversion⟩
    · exact zeroFree_jsonExtractKey happ
    · exact zeroFree_jsonExtractKey hversion

theorem jsonVersionText_fits {verMax : Nat} (hmax : 0 < verMax) {ver : Text} (h : ZeroFree ver) :
    FieldFits verMax (jsonVersionText verMax ver) := by
  have hv : ZeroFree (ascii "v") := zeroFree_of_all rfl
  have hdot : ZeroFree (ascii ".") := zeroFree_of_all rfl
  unfold jsonVersionText
  apply fits_take _ hmax
  split
  · split
    · exact zeroFree_append (zeroFree_append (zeroFree_append hv (zeroFree_intText _)) hdot)
        (zeroFree_intText2 _)
    · split
      · exact zeroFree_append (zeroFree_append (zeroFree_append hv (zeroFree_intText _)) hdot)
          (zeroFree_intText2 _)
      · exact zeroFree_append (zeroFree_append (zeroFree_append (zeroFree_append
          (zeroFree_append hv (zeroFree_intText _)) hdot) (zeroFree_intText _)) hdot)
          (zeroFree_intText _)
  · split
    · exact zeroFree_append hv (zeroFree_take h 29)
    · exact h

theorem noteVersion_fits (json : List UInt8) {verMax : Nat} {old : Text}
    (h : FieldFits verMax old) : FieldFits verMax (noteVersion json verMax old) := by
  unfold noteVersion
  split
  · rename_i hcond
    split
    · rename_i ver hver
      split
      · exact jsonVersionText_fits hcond.1 (zeroFree_jsonVersion hver)
      · exact h
    · exact h
  · exact h

/-!
# param.json
-/

theorem zeroFree_globalTitleAt {block : Option (List UInt8 × List UInt8)} {rest f : List UInt8}
    {title : Text} (h : globalTitleAt block rest f = some title) : ZeroFree title := by
  unfold globalTitleAt at h
  split at h
  · split at h
    · cases h
    · rcases Option.map_eq_some_iff.mp h with ⟨bytes, _, rfl⟩
      exact zeroFree_copied titleNameLen bytes
  · cases h

theorem zeroFree_globalTitleFrom (block : Option (List UInt8 × List UInt8)) (key : String)
    (curr : List UInt8) : ZeroFree (globalTitleFrom block key curr) := by
  fun_induction globalTitleFrom block key curr with
  | case1 => exact zeroFree_nil
  | case2 _ _ _ _ _ htitle => exact zeroFree_globalTitleAt htitle
  | case3 _ _ _ _ _ ih => exact ih

theorem zeroFree_globalTitle (block : Option (List UInt8 × List UInt8)) (json : List UInt8) :
    ZeroFree (globalTitle block json) := by
  unfold globalTitle
  dsimp only
  split
  · exact zeroFree_globalTitleFrom block "title" json
  · exact zeroFree_globalTitleFrom block "titleName" json

theorem zeroFree_defaultLanguage (start close : List UInt8) :
    ZeroFree (defaultLanguage start close) := by
  unfold defaultLanguage
  split
  · exact zeroFree_copied 32 _
  · exact zeroFree_nil

theorem objectTitle_free {key start close : List UInt8} {entry : LocalizedTitle}
    (h : objectTitle key start close = some entry) : TitleFree entry := by
  unfold objectTitle at h
  split at h
  · cases h
  · rename_i bytes _
    dsimp only at h
    split at h
    · cases h
      exact
        { lang := zeroFree_take (zeroFree_copied 64 key) 31
          title := zeroFree_copied titleNameLen bytes }
    · cases h

theorem languageRound_free {stop : Nat} {p next : List UInt8} {entry : LocalizedTitle}
    (h : languageRound stop p = some (some entry, next)) : TitleFree entry := by
  unfold languageRound at h
  dsimp only at h
  split at h
  · cases h
  · split at h
    · cases h
    · split at h
      · cases h
      · split at h
        · cases h
        · split at h
          · cases h
          · split at h
            · split at h
              · cases h
              · rw [Option.some.injEq, Prod.mk.injEq] at h
                exact objectTitle_free h.1
            · cases h

theorem languageEntries_free (stop count : Nat) (p : List UInt8) :
    forall entry, entry ∈ languageEntries stop count p -> TitleFree entry := by
  fun_induction languageEntries stop count p with
  | case1 =>
      intro entry hentry
      cases hentry
  | case2 =>
      intro entry hentry
      cases hentry
  | case3 _ _ _ first _ hround ih =>
      intro entry hentry
      rcases List.mem_cons.mp hentry with rfl | hrest
      · exact languageRound_free hround
      · exact ih entry hrest
  | case4 _ _ _ _ _ ih => exact ih

theorem zeroFree_titleOf {entry : Option LocalizedTitle}
    (h : forall e, entry = some e -> TitleFree e) :
    ZeroFree ((entry.map LocalizedTitle.title).getD []) := by
  cases entry with
  | none => exact zeroFree_nil
  | some e => exact (h e rfl).title

theorem zeroFree_defaultTitle {global : Text} {entries : List LocalizedTitle}
    (hglobal : ZeroFree global) (defLang : Text) (h : forall entry, entry ∈ entries -> TitleFree entry) :
    ZeroFree (defaultTitle global defLang entries) := by
  have hfind : forall p : LocalizedTitle -> Bool,
      ZeroFree (((entries.find? p).map LocalizedTitle.title).getD []) :=
    fun p => zeroFree_titleOf (fun e he => h e (List.mem_of_find?_eq_some he))
  have hhead : ZeroFree ((entries.head?.map LocalizedTitle.title).getD []) :=
    zeroFree_titleOf (fun e he => h e (List.mem_of_mem_head? he))
  unfold defaultTitle
  dsimp only
  have hdefault := zeroFree_ite (c := global ≠ []) hglobal
    (zeroFree_ite (c := defLang ≠ []) (hfind (fun entry => entry.lang == defLang)) zeroFree_nil)
  generalize (if global ≠ [] then global else _) = fromDefault at hdefault
  have henglish := zeroFree_ite (c := fromDefault = [])
    (hfind (fun entry => startsWith "en" entry.lang)) hdefault
  exact zeroFree_ite hhead henglish

/-- A param.json keeps the texts within their arrays. -/
theorem parseParamJson_fits (json : List UInt8) {out : ParamTexts} (h : TextsFit out) :
    TextsFit (pkgParserParseParamJson detailSizes json out) := by
  unfold pkgParserParseParamJson
  split
  · exact h
  · have hglobal := zeroFree_globalTitle (localizedBlock json) json
    have hid := noteKey_fits json "titleId" titleIdLen h.titleId
    have hcategory := noteKey_fits json "category" 16 h.category
    have hversion := noteVersion_fits json h.version
    have hempty : FieldFits localizedTitlesLen [] := fits_nil (by decide)
    dsimp only
    split
    · rename_i start close _
      have hentries := languageEntries_free close.length 0 (start.drop 1)
      have htitle := zeroFree_defaultTitle hglobal (defaultLanguage start close) hentries
      refine
        { titleId := hid
          titleName := ?_
          category := hcategory
          version := hversion
          localizedTitles := ?_
          defaultLang := ?_ }
      · apply fits_ite _ h.titleName
        intro _
        exact fits_take htitle (by decide)
      · dsimp only
        split
        · rename_i hroom
          exact buildLocalizedTitles_fits hroom.1 hentries
        · split
          · exact hempty
          · exact h.localizedTitles
      · dsimp only
        split
        · exact fits_take (zeroFree_defaultLanguage start close) (by decide)
        · exact h.defaultLang
    · refine
        { titleId := hid
          titleName := ?_
          category := hcategory
          version := hversion
          localizedTitles := ?_
          defaultLang := ?_ }
      · apply fits_ite _ h.titleName
        intro _
        exact fits_take hglobal (by decide)
      · dsimp only
        split
        · exact hempty
        · exact h.localizedTitles
      · dsimp only
        split
        · exact fits_nil (by decide)
        · exact h.defaultLang

/-!
# param.sfo
-/

/-- What the loop over the entries of a param.sfo has collected. -/
structure ScanFits (scan : SfoScan) : Prop where
  out : TextsFit scan.out
  appVer : ZeroFree scan.appVer
  version : ZeroFree scan.version
  loc : forall entry, entry ∈ scan.loc -> TitleFree entry

theorem sfoText_fits (entry : SfoEntry) {size : Nat} (hsize : 0 < size) :
    FieldFits size (entry.text size) := by
  unfold SfoEntry.text
  apply fits_cString
  rw [List.length_take]
  split
  · omega
  · omega

theorem sfoLanguage_mem {key : Text} {lang : String} (h : sfoLanguage key = some lang) :
    lang ∈ sfoLangMap := by
  unfold sfoLanguage at h
  dsimp only at h
  split at h
  · split at h
    · exact List.mem_of_getElem? h
    · cases h
  · cases h

theorem sfoLang_zeroFree {lang : String} (h : lang ∈ sfoLangMap) : ZeroFree (ascii lang) := by
  have hall : sfoLangMap.all (fun lang => (ascii lang).all (fun b => b != 0)) = true := by
    decide
  exact zeroFree_of_all (List.all_eq_true.mp hall lang h)

theorem sfoStep_fits {scan : SfoScan} (h : ScanFits scan) (entry : SfoEntry) :
    ScanFits (sfoStep detailSizes scan entry) := by
  unfold sfoStep
  split
  · exact { h with out := { h.out with titleName := sfoText_fits entry (by decide) } }
  · split
    · exact { h with out := { h.out with titleId := sfoText_fits entry (by decide) } }
    · split
      · split
        · rename_i lang hlang
          refine { h with loc := ?_ }
          intro e he
          rcases List.mem_append.mp he with hold | hnew
          · exact h.loc e hold
          · rw [List.mem_singleton] at hnew
            rw [hnew]
            exact
              { lang := sfoLang_zeroFree (sfoLanguage_mem hlang)
                title := zeroFree_cString _ }
        · exact h
      · split
        · exact { h with out := { h.out with category := sfoText_fits entry (by decide) } }
        · split
          · exact { h with appVer := zeroFree_cString _ }
          · split
            · exact { h with version := zeroFree_cString _ }
            · exact h

theorem sfoFallbackTitle_zeroFree {loc : List LocalizedTitle}
    (h : forall entry, entry ∈ loc -> TitleFree entry) : ZeroFree (sfoFallbackTitle loc) := by
  unfold sfoFallbackTitle
  split
  · rename_i entry hfind
    exact (h entry (List.mem_of_find?_eq_some hfind)).title
  · exact zeroFree_titleOf (fun e he => h e (List.mem_of_mem_head? he))

theorem sfoVersionText_fits {best : Text} (h : ZeroFree best) {verMax : Nat} (hmax : 0 < verMax) :
    FieldFits verMax (sfoVersionText verMax best) := by
  have hv : ZeroFree (ascii "v") := zeroFree_of_all rfl
  unfold sfoVersionText
  apply fits_take _ hmax
  split
  · exact zeroFree_append hv h
  · exact h

theorem sfoFinish_fits {scan : SfoScan} (h : ScanFits scan) :
    TextsFit (sfoFinish detailSizes scan) where
  titleId := h.out.titleId
  titleName := by
    apply fits_ite _ h.out.titleName
    intro _
    exact fits_take (sfoFallbackTitle_zeroFree h.loc) (by decide)
  category := h.out.category
  version := by
    apply fits_ite _ h.out.version
    intro hcond
    exact sfoVersionText_fits (zeroFree_ite h.appVer h.version) hcond.2.1
  localizedTitles := by
    apply fits_ite _ h.out.localizedTitles
    intro hroom
    exact buildLocalizedTitles_fits hroom.2 h.loc
  defaultLang := by
    have hlang : ZeroFree (ascii "en-US") := zeroFree_of_all rfl
    apply fits_ite _ h.out.defaultLang
    intro _
    exact fits_take hlang (by decide)

theorem sfoSteps_fits {scan : SfoScan} (h : ScanFits scan) (entries : List SfoEntry) :
    ScanFits (entries.foldl (sfoStep detailSizes) scan) := by
  induction entries generalizing scan with
  | nil => exact h
  | cons entry rest ih => exact ih (sfoStep_fits h entry)

/-- A param.sfo keeps the texts within their arrays. -/
theorem parseParamSfo_fits (sfo : List UInt8) {out : ParamTexts} (h : TextsFit out) :
    TextsFit (pkgParserParseParamSfo detailSizes sfo out) := by
  unfold pkgParserParseParamSfo
  split
  · exact h
  · split
    · exact h
    · apply sfoFinish_fits
      apply sfoSteps_fits
      exact
        { out := h
          appVer := zeroFree_nil
          version := zeroFree_nil
          loc := fun _ he => absurd he List.not_mem_nil }

end Cache
end PkgManager
