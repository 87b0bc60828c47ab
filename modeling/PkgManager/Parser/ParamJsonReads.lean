import PkgManager.Bytes.Checked
import PkgManager.Parser.ParamJson

/-!
# The pointers of param.json

The parser once more, with every pointer that is moved by the length of a pattern or past a
mark.  The searches stop at the zero byte behind the document, the loops at the end of the
part they are in; only such a move could leave the document.  None does.
-/

namespace PkgManager
namespace Parser

open CString
open Checked

/-- {lit}`stringValue` -/
def stringValueIn (stop : Nat) (colon : List UInt8) : Option (Option (List UInt8)) := do
  let behind <- advance 1 colon
  let q := skipSpaces stop behind
  if stop < q.length ∧ q.head? = some quote then do
    let inner <- advance 1 q
    some (some (quotedText stop inner))
  else some none

/-- {lit}`keyAt` -/
def keyAtIn (behind : Nat) (key : String) (p : List UInt8) : Option KeySearch :=
  match strstr (quoted key) p with
  | none => some KeySearch.gone
  | some found =>
      if found.length ≤ behind then some KeySearch.gone
      else do
        let rest <- advance (quoted key).length found
        match strchr 58 rest with
        | none => some KeySearch.gone
        | some colon =>
            if colon.length ≤ behind then some KeySearch.gone
            else do
              match <- stringValueIn behind colon with
              | some bytes => some (KeySearch.value bytes)
              | none => some (KeySearch.next rest)

theorem stringValueIn_eq {colon : List UInt8} (h : colon ≠ []) (stop : Nat) :
    stringValueIn stop colon = some (stringValue stop colon) := by
  unfold stringValueIn stringValue
  rw [advance_of_le (List.length_pos_iff.mpr h)]
  dsimp only [Option.bind_eq_bind, Option.bind_some]
  split
  · rename_i hquote
    rw [advance_of_le (Nat.lt_of_le_of_lt (Nat.zero_le stop) hquote.left)]
    rfl
  · rfl

theorem keyAtIn_eq (behind : Nat) (key : String) (p : List UInt8) :
    keyAtIn behind key p = some (keyAt behind key p) := by
  unfold keyAtIn keyAt
  cases hfound : strstr (quoted key) p with
  | none => rfl
  | some found =>
      dsimp only
      split
      · rfl
      · rw [advance_of_le (strstr_starts hfound).length_le]
        dsimp only [Option.bind_eq_bind, Option.bind_some]
        cases hcolon : strchr 58 (found.drop (quoted key).length) with
        | none => rfl
        | some colon =>
            dsimp only
            split
            · rfl
            · rw [stringValueIn_eq (strchr_ne_nil hcolon)]
              dsimp only [Option.bind_some]
              cases stringValue behind colon <;> rfl

/-- The search loop of {lit}`json_extract_key`. -/
def searchKeyIn (behind : Nat) (key : String) (p : List UInt8) : Option (Option (List UInt8)) :=
  if p.length ≤ behind then some none
  else
    match _h : keyAtIn behind key p with
    | none => none
    | some KeySearch.gone => some none
    | some (KeySearch.value bytes) => some (some bytes)
    | some (KeySearch.next rest) => searchKeyIn behind key rest
termination_by p.length
decreasing_by exact keyAt_next (Option.some.inj ((keyAtIn_eq _ _ _).symm.trans (by assumption)))

theorem searchKeyIn_eq (behind : Nat) (key : String) (p : List UInt8) :
    searchKeyIn behind key p = some (searchKey behind key p) := by
  induction hn : p.length using Nat.strong_induction_on generalizing p with
  | _ n ih =>
      rw [searchKeyIn, searchKey]
      split
      · rfl
      · have hat := keyAtIn_eq behind key p
        split
        · rename_i hnone
          rw [hat] at hnone
          cases hnone
        · rename_i hgone
          rw [hat] at hgone
          rw [Option.some.inj hgone]
        · rename_i bytes hvalue
          rw [hat] at hvalue
          rw [Option.some.inj hvalue]
        · rename_i rest hnext
          rw [hat] at hnext
          have hkey := Option.some.inj hnext
          rw [hkey]
          exact ih rest.length (hn ▸ keyAt_next hkey) rest rfl

/-- {lit}`json_extract_key` -/
def jsonExtractKeyIn (json : List UInt8) (key : String) (outMax : Nat) : Option (Option Text) :=
  (searchKeyIn 0 key json).map (Option.map (copied outMax))

theorem jsonExtractKeyIn_eq (json : List UInt8) (key : String) (outMax : Nat) :
    jsonExtractKeyIn json key outMax = some (jsonExtractKey json [] key outMax) := by
  rw [jsonExtractKeyIn, searchKeyIn_eq, jsonExtractKey, List.append_nil]
  rfl

/-!
# The block and the title outside of it
-/

/-- {lit}`lp_start` and {lit}`lp_end` -/
def localizedBlockIn (json : List UInt8) : Option (Option (List UInt8 × List UInt8)) :=
  match strstr (quoted "localizedParameters") json with
  | none => some none
  | some lp => do
      let behind <- advance 21 lp
      match strchr 58 behind with
      | none => some none
      | some colon => do
          let rest <- advance 1 colon
          match strchr 123 rest with
          | none => some none
          | some brace => some ((closingBrace 0 0 false brace).map (fun close => (brace, close)))

theorem localizedBlockIn_eq (json : List UInt8) :
    localizedBlockIn json = some (localizedBlock json) := by
  unfold localizedBlockIn localizedBlock
  cases hlp : strstr (quoted "localizedParameters") json with
  | none => rfl
  | some lp =>
      dsimp only
      have hlong : (quoted "localizedParameters").length = 21 := by decide
      rw [advance_of_le (hlong ▸ (strstr_starts hlp).length_le)]
      dsimp only [Option.bind_eq_bind, Option.bind_some]
      cases hcolon : strchr 58 (lp.drop 21) with
      | none => rfl
      | some colon =>
          dsimp only
          rw [advance_of_le (List.length_pos_iff.mpr (strchr_ne_nil hcolon))]
          dsimp only [Option.bind_some]
          cases strchr 123 (colon.drop 1) <;> rfl

/-- {lit}`globalTitleAt` -/
def globalTitleAtIn (block : Option (List UInt8 × List UInt8)) (rest f : List UInt8) :
    Option (Option Text) :=
  if outsideBlock block f then
    match strchr 58 rest with
    | none => some none
    | some c => (stringValueIn 0 c).map (Option.map (copied titleNameLen))
  else some none

theorem globalTitleAtIn_eq (block : Option (List UInt8 × List UInt8)) (rest f : List UInt8) :
    globalTitleAtIn block rest f = some (globalTitleAt block rest f) := by
  unfold globalTitleAtIn globalTitleAt
  split
  · cases hcolon : strchr 58 rest with
    | none => rfl
    | some c =>
        dsimp only
        rw [stringValueIn_eq (strchr_ne_nil hcolon)]
        rfl
  · rfl

def globalTitleFromIn (block : Option (List UInt8 × List UInt8)) (key : String)
    (curr : List UInt8) : Option Text :=
  match _h : strstr (quoted key) curr with
  | none => some []
  | some f =>
      match _hrest : advance (quoted key).length f with
      | none => none
      | some rest =>
          match globalTitleAtIn block rest f with
          | none => none
          | some (some title) => some title
          | some none => globalTitleFromIn block key rest
termination_by curr.length
decreasing_by
  have hdrop := advance_some _hrest
  subst hdrop
  exact strstr_shorter (quoted_ne_nil key) (by assumption)

theorem globalTitleFromIn_eq (block : Option (List UInt8 × List UInt8)) (key : String)
    (curr : List UInt8) :
    globalTitleFromIn block key curr = some (globalTitleFrom block key curr) := by
  induction hn : curr.length using Nat.strong_induction_on generalizing curr with
  | _ n ih =>
      rw [globalTitleFromIn]
      split
      · rename_i hnone
        rw [globalTitleFrom, hnone]
      · rename_i f hf
        have hadvance := advance_of_le (strstr_starts hf).length_le
        rw [globalTitleFrom, hf]
        dsimp only
        split
        · rename_i hnone
          rw [hadvance] at hnone
          cases hnone
        · rename_i rest hrest
          have hdrop := advance_some hrest
          subst hdrop
          rw [globalTitleAtIn_eq]
          cases globalTitleAt block (f.drop (quoted key).length) f with
          | some title => rfl
          | none => exact ih _ (hn ▸ strstr_shorter (quoted_ne_nil key) hf) _ rfl

def globalTitleIn (block : Option (List UInt8 × List UInt8)) (json : List UInt8) :
    Option Text := do
  let title <- globalTitleFromIn block "titleName" json
  if title = [] then globalTitleFromIn block "title" json else some title

theorem globalTitleIn_eq (block : Option (List UInt8 × List UInt8)) (json : List UInt8) :
    globalTitleIn block json = some (globalTitle block json) := by
  unfold globalTitleIn globalTitle
  rw [globalTitleFromIn_eq, globalTitleFromIn_eq]
  dsimp only [Option.bind_eq_bind, Option.bind_some]
  split <;> rfl

/-!
# The languages of the block
-/

/-- The pattern has {lit}`skip` bytes. -/
def blockValueIn (start close : List UInt8) (key : String) (skip : Nat) :
    Option (Option (List UInt8)) :=
  match strstr (quoted key) start with
  | none => some none
  | some found =>
      if found.length ≤ close.length then some none
      else do
        let rest <- advance skip found
        match strchr 58 rest with
        | none => some none
        | some colon =>
            if colon.length ≤ close.length then some none else stringValueIn close.length colon

theorem blockValueIn_eq (start close : List UInt8) {key : String} {skip : Nat}
    (h : (quoted key).length = skip) :
    blockValueIn start close key skip = some (blockValue start close key) := by
  unfold blockValueIn blockValue
  cases hfound : strstr (quoted key) start with
  | none => rfl
  | some found =>
      dsimp only
      split
      · rfl
      · rw [h, advance_of_le (h ▸ (strstr_starts hfound).length_le)]
        dsimp only [Option.bind_eq_bind, Option.bind_some]
        cases hcolon : strchr 58 (found.drop skip) with
        | none => rfl
        | some colon =>
            dsimp only
            split
            · rfl
            · exact stringValueIn_eq (strchr_ne_nil hcolon) close.length

def defaultLanguageIn (start close : List UInt8) : Option Text := do
  match <- blockValueIn start close "defaultLanguage" 17 with
  | some bytes => some (copied 32 bytes)
  | none => some []

theorem defaultLanguageIn_eq (start close : List UInt8) :
    defaultLanguageIn start close = some (defaultLanguage start close) := by
  unfold defaultLanguageIn defaultLanguage
  rw [blockValueIn_eq start close (by decide)]
  dsimp only [Option.bind_eq_bind, Option.bind_some]
  cases blockValue start close "defaultLanguage" <;> rfl

/-- {lit}`objectTitle` -/
def objectTitleIn (key : List UInt8) (start close : List UInt8) :
    Option (Option LocalizedTitle) := do
  match <- blockValueIn start close "titleName" 11 with
  | none => some none
  | some bytes =>
      let lang := copied 64 key
      let title := copied titleNameLen bytes
      if title ≠ [] ∧ lang ≠ [] then some (some { lang := lang.take 31, title := title })
      else some none

theorem objectTitleIn_eq (key start close : List UInt8) :
    objectTitleIn key start close = some (objectTitle key start close) := by
  unfold objectTitleIn objectTitle
  rw [blockValueIn_eq start close (by decide)]
  dsimp only [Option.bind_eq_bind, Option.bind_some]
  cases blockValue start close "titleName" with
  | none => rfl
  | some bytes =>
      dsimp only
      split <;> rfl

/-- {lit}`languageRound` -/
def languageRoundIn (stop : Nat) (p : List UInt8) :
    Option (Option (Option LocalizedTitle × List UInt8)) :=
  let start := skipToQuote stop p
  if start.length ≤ stop then some none
  else do
    let inner <- advance 1 start
    let key := keyText stop inner
    let close := skipToQuote stop inner
    if close.length ≤ stop then some none
    else do
      let behind <- advance 1 close
      let colon := skipSpaces stop behind
      if colon.length ≤ stop ∨ colon.head? ≠ some 58 then some (some (none, colon))
      else do
        let rest <- advance 1 colon
        let value := skipSpaces stop rest
        if value.length ≤ stop then some none
        else if value.head? = some quote then do
          let text <- advance 1 value
          let last := quotedEnd stop text
          if stop < last.length then do
            let next <- advance 1 last
            some (some (none, next))
          else some (some (none, last))
        else if value.head? = some 123 then
          match closingBrace stop 0 false value with
          | none => some none
          | some last => do
              let entry <- objectTitleIn key value last
              let next <- advance 1 last
              some (some (entry, next))
        else some (some (none, value))

theorem closingBrace_ne_nil {stop depth : Nat} {inStr : Bool} {p close : List UInt8}
    (h : closingBrace stop depth inStr p = some close) : close ≠ [] := by
  fun_induction closingBrace stop depth inStr p with
  | case1 => cases h
  | case2 => cases h
  | case3 => cases h
  | case4 _ _ _ _ _ _ _ ih => exact ih h
  | case5 _ _ _ _ _ ih => exact ih h
  | case6 _ _ _ _ _ _ ih => exact ih h
  | case7 _ _ _ _ _ _ _ ih => exact ih h
  | case8 =>
      cases h
      exact List.cons_ne_nil _ _
  | case9 _ _ _ _ _ _ _ _ _ ih => exact ih h
  | case10 _ _ _ _ _ _ _ _ _ _ ih => exact ih h

theorem advance_behind {stop : Nat} {p : List UInt8} (h : ¬ p.length ≤ stop) :
    advance 1 p = some (p.drop 1) :=
  advance_of_le (Nat.lt_of_le_of_lt (Nat.zero_le stop) (Nat.lt_of_not_le h))

theorem languageRoundIn_eq (stop : Nat) (p : List UInt8) :
    languageRoundIn stop p = some (languageRound stop p) := by
  unfold languageRoundIn languageRound
  dsimp only
  split
  · rfl
  · rename_i hstart
    rw [advance_behind hstart]
    dsimp only [Option.bind_eq_bind, Option.bind_some]
    split
    · rfl
    · rename_i hclose
      rw [advance_behind hclose]
      dsimp only [Option.bind_some]
      split
      · rfl
      · rename_i hcolon
        rw [advance_behind (not_or.mp hcolon).left]
        dsimp only [Option.bind_some]
        split
        · rfl
        · rename_i hvalue
          split
          · rw [advance_behind hvalue]
            dsimp only [Option.bind_some]
            split
            · rename_i hlast
              rw [advance_behind (Nat.not_le_of_lt hlast)]
              rfl
            · rfl
          · split
            · generalize hlast : closingBrace stop 0 false _ = close
              cases close with
              | none => rfl
              | some last =>
                  dsimp only
                  rw [objectTitleIn_eq,
                    advance_of_le (List.length_pos_iff.mpr (closingBrace_ne_nil hlast))]
                  rfl
            · rfl

/-- The loop over the block. -/
def languageEntriesIn (stop count : Nat) (p : List UInt8) : Option (List LocalizedTitle) :=
  if p.length ≤ stop ∨ 64 ≤ count then some []
  else
    match _h : languageRoundIn stop p with
    | none => none
    | some none => some []
    | some (some (some entry, next)) =>
        (languageEntriesIn stop (count + 1) next).map (List.cons entry)
    | some (some (none, next)) => languageEntriesIn stop count next
termination_by p.length
decreasing_by
  all_goals
    exact languageRound_shorter
      (Option.some.inj ((languageRoundIn_eq _ _).symm.trans (by assumption)))

theorem languageEntriesIn_eq (stop count : Nat) (p : List UInt8) :
    languageEntriesIn stop count p = some (languageEntries stop count p) := by
  induction hn : p.length using Nat.strong_induction_on generalizing p count with
  | _ n ih =>
      rw [languageEntriesIn, languageEntries]
      split
      · rfl
      · have hround := languageRoundIn_eq stop p
        split
        · rename_i hnone
          rw [hround] at hnone
          cases hnone
        · rename_i hgone
          rw [hround] at hgone
          rw [Option.some.inj hgone]
        · rename_i entry next hentry
          rw [hround] at hentry
          have hsome := Option.some.inj hentry
          rw [hsome, ih next.length (hn ▸ languageRound_shorter hsome) (count + 1) next rfl]
          rfl
        · rename_i next hentry
          rw [hround] at hentry
          have hsome := Option.some.inj hentry
          rw [hsome]
          exact ih next.length (hn ▸ languageRound_shorter hsome) count next rfl

/-!
# The whole document
-/

/-- {lit}`noteKey` -/
def noteKeyIn (json : List UInt8) (key : String) (bufMax outMax : Nat) (old : Text) :
    Option Text :=
  if 0 < outMax ∧ old = [] then do
    match <- jsonExtractKeyIn json key bufMax with
    | some text => some (text.take (outMax - 1))
    | none => some old
  else some old

theorem noteKeyIn_eq (json : List UInt8) (key : String) (bufMax outMax : Nat) (old : Text) :
    noteKeyIn json key bufMax outMax old = some (noteKey json key bufMax outMax old) := by
  unfold noteKeyIn noteKey
  rw [jsonExtractKeyIn_eq]
  split
  · dsimp only [Option.bind_eq_bind, Option.bind_some]
    cases jsonExtractKey json [] key bufMax <;> rfl
  · rfl

def jsonVersionIn (json : List UInt8) : Option (Option Text) := do
  match <- jsonExtractKeyIn json "contentVersion" 32 with
  | some ver => some (some ver)
  | none =>
      match <- jsonExtractKeyIn json "appVersion" 32 with
      | some ver => some (some ver)
      | none => jsonExtractKeyIn json "version" 32

theorem jsonVersionIn_eq (json : List UInt8) :
    jsonVersionIn json = some (jsonVersion json []) := by
  unfold jsonVersionIn jsonVersion
  simp only [jsonExtractKeyIn_eq, Option.bind_eq_bind, Option.bind_some]
  cases jsonExtractKey json [] "contentVersion" 32 with
  | some ver => rfl
  | none => cases jsonExtractKey json [] "appVersion" 32 <;> rfl

/-- {lit}`noteVersion` -/
def noteVersionIn (json : List UInt8) (verMax : Nat) (old : Text) : Option Text :=
  if 0 < verMax ∧ old = [] then do
    match <- jsonVersionIn json with
    | some ver => some (if ver ≠ [] then jsonVersionText verMax ver else old)
    | none => some old
  else some old

theorem noteVersionIn_eq (json : List UInt8) (verMax : Nat) (old : Text) :
    noteVersionIn json verMax old = some (noteVersion json verMax old) := by
  unfold noteVersionIn noteVersion
  rw [jsonVersionIn_eq]
  split
  · dsimp only [Option.bind_eq_bind, Option.bind_some]
    cases jsonVersion json [] <;> rfl
  · rfl

/-- {lit}`pkg_parser_parse_param_json` -/
def pkgParserParseParamJsonIn (sizes : ParamSizes) (json : List UInt8) (out : ParamTexts) :
    Option ParamTexts :=
  if json = [] then some out
  else do
    let titleId <- noteKeyIn json "titleId" titleIdLen sizes.titleId out.titleId
    let category <- noteKeyIn json "category" 16 sizes.category out.category
    let version <- noteVersionIn json sizes.version out.version
    let block <- localizedBlockIn json
    let global <- globalTitleIn block json
    match block with
    | some (start, close) => do
        let defLang <- defaultLanguageIn start close
        let inner <- advance 1 start
        let entries <- languageEntriesIn close.length 0 inner
        some
          { titleId := titleId
            titleName :=
              if 0 < sizes.titleName ∧ out.titleName = [] then
                (defaultTitle global defLang entries).take (sizes.titleName - 1)
              else out.titleName
            category := category
            version := version
            localizedTitles :=
              if 2 < sizes.localizedTitles ∧ entries ≠ [] then
                buildLocalizedTitles sizes.localizedTitles entries
              else if 0 < sizes.localizedTitles then []
              else out.localizedTitles
            defaultLang :=
              if 0 < sizes.defaultLang then defLang.take (sizes.defaultLang - 1)
              else out.defaultLang }
    | none =>
        some
          { titleId := titleId
            titleName :=
              if 0 < sizes.titleName ∧ out.titleName = [] then global.take (sizes.titleName - 1)
              else out.titleName
            category := category
            version := version
            localizedTitles := if 0 < sizes.localizedTitles then [] else out.localizedTitles
            defaultLang := if 0 < sizes.defaultLang then [] else out.defaultLang }

theorem localizedBlock_start {json start close : List UInt8}
    (h : localizedBlock json = some (start, close)) : start ≠ [] := by
  unfold localizedBlock at h
  split at h
  · cases h
  · split at h
    · cases h
    · split at h
      · cases h
      · rename_i brace hbrace
        rcases Option.map_eq_some_iff.mp h with ⟨last, _, hpair⟩
        cases hpair
        exact strchr_ne_nil hbrace

/-- The pointers stay in the document. -/
theorem pkgParserParseParamJsonIn_eq (sizes : ParamSizes) (json : List UInt8) (out : ParamTexts) :
    pkgParserParseParamJsonIn sizes json out = some (pkgParserParseParamJson sizes json out) := by
  unfold pkgParserParseParamJsonIn pkgParserParseParamJson
  split
  · rfl
  · simp only [noteKeyIn_eq, noteVersionIn_eq, localizedBlockIn_eq, globalTitleIn_eq,
      Option.bind_eq_bind, Option.bind_some]
    cases hblock : localizedBlock json with
    | none => rfl
    | some block =>
        obtain ⟨start, close⟩ := block
        have hstart := List.length_pos_iff.mpr (localizedBlock_start hblock)
        dsimp only
        rw [defaultLanguageIn_eq, advance_of_le hstart]
        simp only [Option.bind_some, languageEntriesIn_eq]

end Parser
end PkgManager
