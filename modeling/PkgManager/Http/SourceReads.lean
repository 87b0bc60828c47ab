import PkgManager.Http.IndexReads
import PkgManager.Http.Sources

/-!
# The file read back

The reader of the file takes each object for the source that was cut to what its arrays have
room for.
-/

namespace PkgManager
namespace Http

open CString
open PkgManager.Parser

/-!
# Escaped bytes
-/

/-- The cases of an escape, with what the reader makes of them. -/
inductive EscapedAs (c : UInt8) : Text -> Prop where
  | bare (h : isBare c = true) : EscapedAs c [c]
  | letter (e : UInt8) (hzero : e ≠ 0) (hletter : e ≠ 117) (h : escapedByte e = c) :
      EscapedAs c [backslash, e]
  | number (h : c.toNat < 32) :
      EscapedAs c [backslash, 117, 48, 48, lowerHex (c.toNat / 16), lowerHex (c.toNat % 16)]

theorem escapePiece_cases {c : UInt8} (hc : c ≠ 0) : EscapedAs c (escapePiece c) := by
  unfold escapePiece
  split_ifs with h1 h2 h3 h4 h5
  · rcases h1 with rfl | rfl
    · exact .letter quote (by decide) (by decide) (by decide)
    · exact .letter backslash (by decide) (by decide) (by decide)
  · exact .letter 110 (by decide) (by decide) (h2 ▸ rfl)
  · exact .letter 114 (by decide) (by decide) (h3 ▸ rfl)
  · exact .letter 116 (by decide) (by decide) (h4 ▸ rfl)
  · exact .number h5
  · rw [not_or] at h1
    apply EscapedAs.bare
    simp only [isBare, Bool.and_eq_true, bne_iff_ne]
    exact ⟨⟨hc, h1.1⟩, h1.2⟩

theorem EscapedAs.readsAs {c : UInt8} {piece : Text} (h : EscapedAs c piece) :
    ReadsAs piece [c] := by
  cases h with
  | bare hbare =>
      simp only [isBare, Bool.and_eq_true, bne_iff_ne] at hbare
      apply ReadsAs.one ⟨hbare.1.1, hbare.1.2⟩
      intro outSz o rest
      unfold jsonPiece
      rw [List.nil_append, if_neg hbare.2]
  | letter e hzero hletter hbyte =>
      apply ReadsAs.one (by decide)
      intro outSz o rest
      rw [List.singleton_append, jsonPiece, if_pos rfl, if_neg hletter, hbyte]
  | number hlow =>
      apply ReadsAs.one (by decide)
      intro outSz o rest
      have hvalue : forall n, n < 32 ->
          unicodeValue [48, 48, lowerHex (n / 16), lowerHex (n % 16)] = n := by decide
      have hsmall : c.toNat < 128 := hlow.trans (by decide)
      change jsonPiece outSz o backslash (117 :: 48 :: 48 :: lowerHex (c.toNat / 16) ::
        lowerHex (c.toNat % 16) :: rest) = _
      rw [jsonPiece, if_pos rfl, if_pos rfl]
      change (unicodeBytes outSz o (unicodeValue [48, 48, lowerHex (c.toNat / 16),
        lowerHex (c.toNat % 16)]), rest) = _
      rw [hvalue _ hlow, unicodeBytes, if_pos hsmall, UInt8.ofNat_toNat]

theorem EscapedAs.inside {c : UInt8} {piece : Text} (h : EscapedAs c piece)
    (opener closer : UInt8) : Inside opener closer piece := by
  cases h with
  | bare hbare => exact Inside.bare (by simpa using hbare)
  | letter e hzero => exact Inside.escaped hzero
  | number hlow =>
      have hmark : Inside opener closer [backslash, 117] := Inside.escaped (by decide)
      exact hmark.append (Inside.bare (number_bare hlow))

theorem EscapedAs.quotesEscaped {c : UInt8} {piece : Text} (h : EscapedAs c piece) :
    QuotesEscaped piece := by
  cases h with
  | bare hbare => exact QuotesEscaped.noQuote (quote_not_bare (by simpa using hbare))
  | letter e hzero hletter hbytes =>
      intro a b hsplit
      cases a with
      | nil => exact absurd (List.cons.inj hsplit).1 (by decide)
      | cons x a =>
          rcases List.cons.inj hsplit with ⟨rfl, hrest⟩
          cases a with
          | nil => rfl
          | cons y a => exact absurd (List.cons.inj hrest).2 (by simp)
  | number hlow =>
      have hmark : QuotesEscaped [backslash, 117] := QuotesEscaped.noQuote (by decide)
      exact hmark.append (QuotesEscaped.noQuote (quote_not_bare (number_bare hlow)))

/-- Every escaped text has what each of its pieces has. -/
theorem escaped_induction {P : Text -> Text -> Prop} (hnil : P [] [])
    (happend : forall {a x b y}, P a x -> P b y -> P (a ++ b) (x ++ y))
    (hpiece : forall {c piece}, EscapedAs c piece -> P piece [c]) {text : Text}
    (h : ZeroFree text) : P (text.flatMap escapePiece) text := by
  induction text with
  | nil => exact hnil
  | cons c rest ih =>
      rw [List.flatMap_cons]
      exact happend (hpiece (escapePiece_cases (h c List.mem_cons_self)))
        (ih (fun b hb => h b (List.mem_cons_of_mem c hb)))

section
variable {text : Text} (h : ZeroFree text)
include h

theorem readsAs_escapePiece : ReadsAs (text.flatMap escapePiece) text :=
  escaped_induction ReadsAs.nil ReadsAs.append EscapedAs.readsAs h

theorem inside_escapePiece (opener closer : UInt8) :
    Inside opener closer (text.flatMap escapePiece) :=
  escaped_induction (P := fun a _ => Inside opener closer a) (Inside.bare rfl) Inside.append
    (fun hpiece => hpiece.inside opener closer) h

theorem quotesEscaped_escapePiece : QuotesEscaped (text.flatMap escapePiece) :=
  escaped_induction (P := fun a _ => QuotesEscaped a) (QuotesEscaped.noQuote List.not_mem_nil)
    QuotesEscaped.append EscapedAs.quotesEscaped h

/-- A field is read up to its closing quote. -/
theorem jsonParseString_escaped {outSz : Nat} (hroom : text.length < outSz) (out rest : Text) :
    jsonParseString outSz out (quote :: (text.flatMap escapePiece ++ quote :: rest)) =
      (text, some rest) := by
  have hclose : forall o, jsonStringFrom outSz o (quote :: rest) = ([], some rest) := by
    intro o
    rw [jsonStringFrom, if_neg (by decide), if_pos rfl]
  have hread : jsonStringFrom outSz 0 (text.flatMap escapePiece ++ quote :: rest) =
      (text, some rest) := by
    rw [readsAs_escapePiece h, hclose, List.take_of_length_le (by omega), List.append_nil]
  change (cString (jsonStringFrom outSz 0 _).1, (jsonStringFrom outSz 0 _).2) = _
  rw [hread, cString_of_zeroFree h]

end

/-!
# Fields
-/

/-- The search for a key passes another one. -/
def Passes (key other : String) : Prop :=
  (quoted key).isPrefixOf (quoted other) = false ∧ (quoted other).isPrefixOf (quoted key) = false ∧
    quote ∉ ascii other

instance (key other : String) : Decidable (Passes key other) :=
  inferInstanceAs (Decidable (_ ∧ _ ∧ _))

instance (key : String) : Decidable (PlainKey key) :=
  inferInstanceAs (Decidable (_ ∧ _ ∧ _ ∧ _))

theorem jsonValue_opened {key : String} (rest : Text) :
    jsonValue key (123 :: rest) = jsonValue key rest := by
  have hopen : quote ∉ [(123 : UInt8)] := by decide
  exact jsonValue_noQuote hopen rest

section
variable {key : String} (hkey : PlainKey key) (hhead : (ascii key).head?.all (· != 58))
include hkey hhead

theorem jsonValue_stringField {other : String} {value : Text} (hother : Passes key other)
    (hvalue : QuotesEscaped value) (rest : Text) :
    jsonValue key (stringField other value ++ rest) = jsonValue key rest := by
  have hshape : stringField other value ++ rest =
      quoted other ++ 58 :: 32 :: (quote :: value ++ [quote] ++ 44 :: (32 :: rest)) := by
    unfold stringField
    simp
  have hcomma : quote ∉ [(44 : UInt8), 32] := by decide
  rw [hshape, jsonValue_otherKey hhead hother.1 hother.2.1 hkey.1 hother.2.2,
    jsonValue_string hkey hvalue]
  exact jsonValue_noQuote hcomma rest

theorem jsonValue_stringFields {fields : List (String × Text)}
    (hfields : forall x, x ∈ fields -> Passes key x.1 ∧ QuotesEscaped x.2) (rest : Text) :
    jsonValue key (stringFields fields ++ rest) = jsonValue key rest := by
  induction fields with
  | nil => rfl
  | cons x more ih =>
      have hx := hfields x List.mem_cons_self
      rw [stringFields, List.flatMap_cons, List.append_assoc,
        jsonValue_stringField hkey hhead hx.1 hx.2]
      exact ih (fun y hy => hfields y (List.mem_cons_of_mem x hy))

/-- The value of a key is the one that its field has. -/
theorem jsonValue_inFields {before after : List (String × Text)} {value : Text}
    (hbefore : forall x, x ∈ before -> Passes key x.1 ∧ QuotesEscaped x.2) (rest : Text) :
    jsonValue key (123 :: (stringFields (before ++ (key, value) :: after) ++ rest)) =
      some (quote :: (value ++ quote :: (44 :: 32 :: (stringFields after ++ rest)))) := by
  have hshape : stringFields (before ++ (key, value) :: after) ++ rest =
      stringFields before ++ (quoted key ++ 58 :: 32 :: quote ::
        (value ++ quote :: (44 :: 32 :: (stringFields after ++ rest)))) := by
    unfold stringFields
    rw [List.flatMap_append, List.flatMap_cons, stringField]
    simp
  rw [hshape, jsonValue_opened, jsonValue_stringFields hkey hhead hbefore]
  exact jsonValue_found (by decide)

/-- A field that was escaped into its array is read as what was put there. -/
theorem jsonGetStr_inFields {before after : List (String × Text)} {src : Text} {dstSz outSz : Nat}
    (hbefore : forall x, x ∈ before -> Passes key x.1 ∧ QuotesEscaped x.2) (hzero : ZeroFree src)
    (hroom : src.length < outSz) (rest : Text) :
    (jsonGetStr (123 :: (stringFields (before ++ (key, jsonEscape dstSz src) :: after) ++ rest))
      key outSz []).1 = keptText dstSz src := by
  have hshort := (keptText_starts dstSz src).length_le.trans_lt hroom
  unfold jsonGetStr
  rw [jsonValue_inFields hkey hhead hbefore]
  dsimp only
  rw [jsonEscape, jsonParseString_escaped (zeroFree_keptText hzero) hshort]

end

/-!
# One source
-/

def sourceKeys : List String :=
  ["id", "label", "url", "username", "password", "tls_mode", "tls_pin"]

theorem sourceKeys_eq (c : SourceConfig) : (sourceFields c).map Prod.fst = sourceKeys :=
  rfl

section
variable {c : SourceConfig} (hc : IsConfig c)
include hc

theorem sourceFields_escaped {x : String × Text} (hx : x ∈ sourceFields c) :
    QuotesEscaped x.2 := by
  have hescape : forall {dstSz : Nat} {src : Text}, ZeroFree src ->
      QuotesEscaped (jsonEscape dstSz src) :=
    fun hzero => quotesEscaped_escapePiece (zeroFree_keptText hzero)
  simp only [sourceFields, List.mem_cons, List.not_mem_nil, or_false] at hx
  rcases hx with rfl | rfl | rfl | rfl | rfl | rfl | rfl
  · exact hescape hc.id.1
  · exact hescape hc.label.1
  · exact hescape hc.url.1
  · exact hescape hc.username.1
  · exact hescape hc.password.1
  · exact hescape hc.tlsMode.1
  · exact hescape hc.tlsPin.1

theorem sourceFields_inside {x : String × Text} (hx : x ∈ sourceFields c)
    (opener closer : UInt8) : Inside opener closer x.2 := by
  have hescape : forall {dstSz : Nat} {src : Text}, ZeroFree src ->
      Inside opener closer (jsonEscape dstSz src) :=
    fun hzero => inside_escapePiece (zeroFree_keptText hzero) opener closer
  simp only [sourceFields, List.mem_cons, List.not_mem_nil, or_false] at hx
  rcases hx with rfl | rfl | rfl | rfl | rfl | rfl | rfl
  · exact hescape hc.id.1
  · exact hescape hc.label.1
  · exact hescape hc.url.1
  · exact hescape hc.username.1
  · exact hescape hc.password.1
  · exact hescape hc.tlsMode.1
  · exact hescape hc.tlsPin.1

/-- The field of a key, when the fields in front of it have other keys. -/
theorem jsonGetStr_source {key : String} (n : Nat) {src : Text} {dstSz outSz : Nat}
    (hkey : PlainKey key) (hhead : (ascii key).head?.all (· != 58))
    (hpasses : forall k, k ∈ sourceKeys.take n -> Passes key k)
    (hfield : (sourceFields c)[n]? = some (key, jsonEscape dstSz src))
    (hsrc : ZeroFree src ∧ src.length < outSz) :
    (jsonGetStr (123 :: sourceText c) key outSz []).1 = keptText dstSz src := by
  rcases List.getElem?_eq_some_iff.mp hfield with ⟨hn, hvalue⟩
  have hfields : sourceFields c = (sourceFields c).take n ++
      (key, jsonEscape dstSz src) :: (sourceFields c).drop (n + 1) := by
    rw [<- hvalue, <- List.drop_eq_getElem_cons hn, List.take_append_drop]
  have hbefore : forall x, x ∈ (sourceFields c).take n -> Passes key x.1 ∧ QuotesEscaped x.2 := by
    intro x hx
    constructor
    · apply hpasses
      rw [<- sourceKeys_eq c, <- List.map_take]
      exact List.mem_map_of_mem hx
    · exact sourceFields_escaped hc (List.mem_of_mem_take hx)
  rw [sourceText, hfields]
  exact jsonGetStr_inFields hkey hhead hbefore hsrc.1 hsrc.2 _

theorem jsonGetBool_source : jsonGetBool (123 :: sourceText c) "enabled" true = c.enabled := by
  have hpasses : forall k, k ∈ sourceKeys -> Passes "enabled" k := by decide
  have hvalue : jsonValue "enabled" (123 :: sourceText c) =
      some (if c.enabled then ascii "true" else ascii "false") := by
    have hbehind : jsonValue "enabled" (stringFields (sourceFields c) ++ enabledText c.enabled) =
        jsonValue "enabled" (enabledText c.enabled) :=
      jsonValue_stringFields (by decide) (by decide)
        (fun x hx => ⟨hpasses x.1 (sourceKeys_eq c ▸ List.mem_map_of_mem hx),
          sourceFields_escaped hc hx⟩) _
    rw [jsonValue_opened, sourceText, hbehind]
    unfold enabledText
    cases c.enabled
    · exact jsonValue_found (by decide)
    · exact jsonValue_found (by decide)
  unfold jsonGetBool
  rw [hvalue]
  cases c.enabled
  · decide
  · decide

/-- An object is read as its source, cut to the arrays. -/
theorem sourceOfObject_text : sourceOfObject (123 :: sourceText c) = cutSource c := by
  unfold sourceOfObject cutSource
  rw [jsonGetBool_source hc,
    jsonGetStr_source hc 0 (by decide) (by decide) (by decide) rfl hc.id,
    jsonGetStr_source hc 1 (by decide) (by decide) (by decide) rfl hc.label,
    jsonGetStr_source hc 2 (by decide) (by decide) (by decide) rfl hc.url,
    jsonGetStr_source hc 3 (by decide) (by decide) (by decide) rfl hc.username,
    jsonGetStr_source hc 4 (by decide) (by decide) (by decide) rfl hc.password,
    jsonGetStr_source hc 5 (by decide) (by decide) (by decide) rfl hc.tlsMode,
    jsonGetStr_source hc 6 (by decide) (by decide) (by decide) rfl hc.tlsPin]

theorem neutral_source {opener closer : UInt8} (h : IsBrackets opener closer) :
    Neutral opener closer (sourceText c) := by
  have hplain : forall text : Text, text = [58, 32] ∨ text = [44, 32] ∨ text = ascii "true" ∨
      text = ascii "false" -> Neutral opener closer text := by
    intro text htext
    apply Neutral.plain
    rcases h with ⟨rfl, rfl⟩ | ⟨rfl, rfl⟩ <;> rcases htext with rfl | rfl | rfl | rfl <;> decide
  have hfields : forall x, x ∈ sourceFields c -> Neutral opener closer (stringField x.1 x.2) := by
    intro x hx
    have hshape : stringField x.1 x.2 =
        quoted x.1 ++ [58, 32] ++ (quote :: x.2 ++ [quote]) ++ [44, 32] := by
      unfold stringField
      simp
    have hkeys : forall k, k ∈ sourceKeys -> (ascii k).all isBare = true := by decide
    have hkey : Neutral opener closer (quoted x.1) :=
      neutral_quoted (hkeys x.1 (sourceKeys_eq c ▸ List.mem_map_of_mem hx))
    have hvalue : Neutral opener closer (quote :: x.2 ++ [quote]) :=
      Neutral.string (sourceFields_inside hc hx opener closer)
    rw [hshape]
    exact ((hkey.append (hplain _ (Or.inl rfl))).append hvalue).append
      (hplain _ (Or.inr (Or.inl rfl)))
  have hall : forall fields : List (String × Text),
      (forall x, x ∈ fields -> Neutral opener closer (stringField x.1 x.2)) ->
        Neutral opener closer (stringFields fields) := by
    intro fields
    induction fields with
    | nil => exact fun _ => Neutral.nil
    | cons x rest ih =>
        intro hx
        exact (hx x List.mem_cons_self).append (ih (fun y hy => hx y (List.mem_cons_of_mem x hy)))
  have henabled : Neutral opener closer (enabledText c.enabled) := by
    have hkey : Neutral opener closer (quoted "enabled" ++ [58, 32]) :=
      (neutral_quoted (by decide)).append (hplain _ (Or.inl rfl))
    have hshape : enabledText c.enabled = quoted "enabled" ++ [58, 32] ++
        (if c.enabled then ascii "true" else ascii "false") := by
      unfold enabledText
      simp
    rw [hshape]
    apply hkey.append
    cases c.enabled
    · exact hplain _ (Or.inr (Or.inr (Or.inr rfl)))
    · exact hplain _ (Or.inr (Or.inr (Or.inl rfl)))
  exact (hall _ hfields).append henabled

end

/-!
# All sources
-/

/-- What stands between a source and the next line. -/
def sourceGap (rest : List SourceConfig) : Text :=
  if rest.isEmpty then ascii "\n" else ascii ",\n"

theorem sourceGap_between (rest : List SourceConfig) : (sourceGap rest).all isBetween = true := by
  unfold sourceGap
  split <;> decide

theorem sourceLines_cons (c : SourceConfig) (rest : List SourceConfig) :
    sourceLines (c :: rest) =
      ascii "    " ++ 123 :: (sourceText c ++ 125 :: (sourceGap rest ++ sourceLines rest)) := by
  cases rest with
  | nil => simp [sourceLines, sourceGap]
  | cons d rest =>
      rw [sourceLines]
      · simp [sourceGap]
      · exact List.cons_ne_nil d rest

/-- The induction is on the sources; in front of each there is only white space and commas. -/
theorem sourcesFrom_lines {sources : List SourceConfig}
    (hconfig : forall c, c ∈ sources -> IsConfig c ∧ c.url ≠ []) {maxOut turns : Nat}
    {out : List SourceConfig} (hroom : out.length + sources.length ≤ maxOut)
    (hturns : sources.length ≤ turns) {blank : Text} (hblank : blank.all isBetween = true) :
    sourcesFrom maxOut turns out (blank ++ (sourceLines sources ++ ascii "  ")) =
      out ++ sources.map cutSource := by
  induction sources generalizing turns blank out with
  | nil =>
      rw [List.map_nil, List.append_nil]
      cases turns with
      | zero => rfl
      | succ turns =>
          have hend : (blank ++ (sourceLines [] ++ ascii "  ")).dropWhile isBetween = [] := by
            rw [dropWhile_between hblank]
            decide
          unfold sourcesFrom
          rw [hend]
          split <;> rfl
  | cons c rest ih =>
      cases turns with
      | zero => exact absurd hturns (by simp)
      | succ turns =>
          have hc := hconfig c List.mem_cons_self
          have hspaces : (ascii "    ").all isBetween = true := by decide
          have hobject : (blank ++ (sourceLines (c :: rest) ++ ascii "  ")).dropWhile isBetween =
              123 :: (sourceText c ++ 125 :: (sourceGap rest ++ (sourceLines rest ++ ascii "  "))) := by
            rw [dropWhile_between hblank, sourceLines_cons]
            simp only [List.append_assoc]
            rw [dropWhile_between hspaces, List.cons_append, List.dropWhile_cons_of_neg (by decide)]
            simp
          have hmatch : jsonMatch (123 :: (sourceText c ++
              125 :: (sourceGap rest ++ (sourceLines rest ++ ascii "  ")))) =
                some (123 :: sourceText c, sourceGap rest ++ (sourceLines rest ++ ascii "  ")) :=
            jsonMatch_neutral (Or.inl rfl) (neutral_source hc.1 (Or.inl ⟨rfl, rfl⟩)) _
          have hurl : (cutSource c).url ≠ [] := keptText_ne_nil hc.1.url.1 (by decide) hc.2
          rw [List.length_cons] at hroom hturns
          unfold sourcesFrom
          rw [if_neg (by omega), hobject]
          split
          · rename_i behind heq
            cases heq
            rw [hmatch]
            dsimp only
            rw [sourceOfObject_text hc.1, if_pos hurl,
              ih (fun d hd => hconfig d (List.mem_cons_of_mem c hd)) _ _ (sourceGap_between rest)]
            · simp
            · rw [List.length_append, List.length_singleton]
              omega
            · omega
          · rename_i hother
            exact absurd rfl (hother _)

theorem neutral_sourceLines {sources : List SourceConfig}
    (hconfig : forall c, c ∈ sources -> IsConfig c) : Neutral 91 93 (sourceLines sources) := by
  induction sources with
  | nil => exact Neutral.nil
  | cons c rest ih =>
      have hgap : Neutral 91 93 (sourceGap rest) := by
        apply Neutral.plain
        unfold sourceGap
        split <;> decide
      have hfront : Neutral 91 93 (ascii "    ") := Neutral.plain (by decide)
      have hopen : Neutral 91 93 [123] := Neutral.plain (by decide)
      have hclose : Neutral 91 93 [125] := Neutral.plain (by decide)
      have hobject := neutral_source (hconfig c List.mem_cons_self) (Or.inr ⟨rfl, rfl⟩)
      rw [sourceLines_cons]
      exact hfront.append (hopen.append (hobject.append (hclose.append (hgap.append
        (ih (fun d hd => hconfig d (List.mem_cons_of_mem c hd)))))))

theorem length_le_sourceLines (sources : List SourceConfig) :
    sources.length ≤ (sourceLines sources).length := by
  induction sources with
  | nil => exact Nat.le_refl 0
  | cons c rest ih =>
      rw [sourceLines_cons]
      simp only [List.length_append, List.length_cons]
      omega

/-- The document is read as its sources, each cut to its arrays. -/
theorem httpSourcesParseJson_text {sources : List SourceConfig}
    (hconfig : forall c, c ∈ sources -> IsConfig c ∧ c.url ≠ []) {maxOut : Nat}
    (hroom : sources.length ≤ maxOut) :
    httpSourcesParseJson (sourcesText sources) maxOut = sources.map cutSource := by
  have hopen : ascii "\x7b\n  \"version\": 1,\n  \"sources\": [\n" =
      (123 :: ascii "\n  ") ++ (quoted "version" ++ 58 :: 32 ::
        (ascii "1,\n  " ++ (quoted "sources" ++ 58 :: 32 :: (91 :: ascii "\n")))) := by decide
  have hclose : ascii "  ]\n\x7d\n" = ascii "  " ++ 93 :: ascii "\n\x7d\n" := by decide
  have hshape : sourcesText sources = (123 :: ascii "\n  ") ++ (quoted "version" ++ 58 :: 32 ::
      (ascii "1,\n  " ++ (quoted "sources" ++ 58 :: 32 ::
        91 :: ((ascii "\n" ++ (sourceLines sources ++ ascii "  ")) ++ 93 :: ascii "\n\x7d\n")))) := by
    rw [sourcesText, hopen, hclose]
    simp only [List.append_assoc, List.cons_append]
  have hvalue : jsonValue "sources" (sourcesText sources) =
      some (91 :: ((ascii "\n" ++ (sourceLines sources ++ ascii "  ")) ++
        93 :: ascii "\n\x7d\n")) := by
    rw [hshape, jsonValue_noQuote (by decide),
      jsonValue_otherKey (by decide) (by decide) (by decide) (by decide) (by decide),
      jsonValue_noQuote (by decide)]
    exact jsonValue_found (by decide)
  have hneutral : Neutral 91 93 (ascii "\n" ++ (sourceLines sources ++ ascii "  ")) := by
    have hfront : Neutral 91 93 (ascii "\n") := Neutral.plain (by decide)
    have hend : Neutral 91 93 (ascii "  ") := Neutral.plain (by decide)
    exact hfront.append ((neutral_sourceLines (fun c hc => (hconfig c hc).1)).append hend)
  have hmatch : jsonMatch (91 :: ((ascii "\n" ++ (sourceLines sources ++ ascii "  ")) ++
      93 :: ascii "\n\x7d\n")) =
        some (91 :: (ascii "\n" ++ (sourceLines sources ++ ascii "  ")), ascii "\n\x7d\n") :=
    jsonMatch_neutral (Or.inr rfl) hneutral _
  have hlist : sourceList (sourcesText sources) =
      some (91 :: ((ascii "\n" ++ (sourceLines sources ++ ascii "  ")) ++
        93 :: ascii "\n\x7d\n")) := by
    unfold sourceList
    rw [hvalue]
    rfl
  have hblank : (ascii "\n").all isBetween = true := by decide
  have hturns : sources.length ≤
      (91 :: (ascii "\n" ++ (sourceLines sources ++ ascii "  "))).length := by
    have hlong := length_le_sourceLines sources
    simp only [List.length_cons, List.length_append]
    omega
  unfold httpSourcesParseJson
  rw [hlist]
  dsimp only
  rw [hmatch]
  dsimp only
  rw [List.drop_succ_cons, List.drop_zero, sourcesFrom_lines hconfig _ hturns hblank,
    List.nil_append]
  rw [List.length_nil, Nat.zero_add]
  exact hroom

end Http
end PkgManager
