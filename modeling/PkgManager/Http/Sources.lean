import PkgManager.Http.Fetch
import PkgManager.Http.Index
import PkgManager.Http.Escapes

/-!
# Configured web sources

A source comes as an object of a JSON list.  It is cleaned before it is used or stored.
-/

namespace PkgManager
namespace Http

open CString
open PkgManager.Parser
open PkgManager.Scanner (lowerText)

def maxHttpSources : Nat := 8

/-- {lit}`HTTP_SOURCE_URL_MAX_LEN` -/
def httpSourceUrlMaxLen : Nat := 250

/-!
# Reading
-/

/-- {lit}`json_get_bool` over a flag. -/
def jsonGetBool (obj : Text) (key : String) (out : Bool) : Bool :=
  match jsonValue key obj with
  | none => out
  | some v =>
      if startsWith "true" v || v.head? == some 49 then true
      else if startsWith "false" v || v.head? == some 48 then false
      else out

def sourceOfObject (obj : Text) : SourceConfig where
  enabled := jsonGetBool obj "enabled" true
  id := (jsonGetStr obj "id" 32 []).1
  label := (jsonGetStr obj "label" 64 []).1
  url := (jsonGetStr obj "url" 512 []).1
  username := (jsonGetStr obj "username" 64 []).1
  password := (jsonGetStr obj "password" 128 []).1
  tlsMode := (jsonGetStr obj "tls_mode" 16 []).1
  tlsPin := (jsonGetStr obj "tls_pin" 100 []).1

/-- The loop over the text between the brackets.  Each turn takes at least one byte. -/
def sourcesFrom (maxOut : Nat) : (turns : Nat) -> List SourceConfig -> Text -> List SourceConfig
  | 0, out, _ => out
  | turns + 1, out, p =>
      if maxOut ≤ out.length then out
      else
        match p.dropWhile isBetween with
        | 123 :: rest =>
            match jsonMatch (123 :: rest) with
            | none => out
            | some parts =>
                let c := sourceOfObject parts.1
                sourcesFrom maxOut turns (if c.url ≠ [] then out ++ [c] else out) parts.2
        | _ => out

/-- The list of a document, or the document itself when it is one. -/
def sourceList (json : Text) : Option Text :=
  let own := json.dropWhile isSpace
  match jsonValue "sources" json with
  | some (91 :: rest) => some (91 :: rest)
  | _ => if own.head? = some 91 then some own else none

/-- {lit}`http_sources_parse_json` -/
def httpSourcesParseJson (json : Text) (maxOut : Nat) : List SourceConfig :=
  match sourceList json with
  | some arr =>
      match jsonMatch arr with
      | none => []
      | some parts => sourcesFrom maxOut parts.1.length [] (parts.1.drop 1)
  | none =>
      match json.dropWhile isSpace with
      | 123 :: rest =>
          match jsonMatch (123 :: rest) with
          | none => []
          | some parts =>
              let c := sourceOfObject parts.1
              if c.url ≠ [] then [c] else []
      | _ => []

/-!
# Cleaning
-/

/-- {lit}`trim_inplace` -/
def trimInplace (s : Text) : Text :=
  (s.rdropWhile isSpace).dropWhile isSpace

def withScheme (url : Text) : Text :=
  if startsWithCi "http://" url || startsWithCi "https://" url then url
  else (ascii "http://" ++ url).take 511

/-- The scheme in lower case. -/
def lowerScheme (url : Text) : Text :=
  lowerText (url.takeWhile (fun b => b != 58)) ++ url.dropWhile (fun b => b != 58)

/-- A pasted ".../index.json" means its folder. -/
def folderUrl (url : Text) : Text :=
  if endsWithCi url "/index.json" then url.take (url.length - 10) else url

/-- {lit}`strpbrk(c->url, "?#")` -/
def withoutQuery (url : Text) : Text :=
  url.takeWhile (fun b => b != 63 && b != 35)

def withSlash (url : Text) : Text :=
  if url ≠ [] ∧ url.getLast? ≠ some 47 ∧ url.length + 1 < 512 then url ++ [47] else url

def cleanUrl (url : Text) : Text :=
  withSlash (withoutQuery (folderUrl (lowerScheme (withScheme (trimInplace url)))))

/-- {lit}`%08x` -/
def hexText8 (n : Nat) : Text :=
  let digits := (Nat.toDigits 16 n).map (fun c => UInt8.ofNat c.toNat)
  List.replicate (8 - digits.length) 48 ++ digits

def sourceLabel (label : Text) (u : HttpUrl) : Text :=
  if label = [] then
    copied 64 (u.host ++ if u.path = ascii "/" then [] else u.path.take 40)
  else label

def knownTlsMode (mode : Text) : Text :=
  if mode = ascii "pin" ∨ mode = ascii "none" then mode else tlsVerify

/-- {lit}`http_source_sanitize`; {lit}`none` for -1. -/
def httpSourceSanitize (mzCrc32 : Text -> Nat) (c : SourceConfig) : Option SourceConfig :=
  if trimInplace c.url = [] then none
  else
    let url := cleanUrl c.url
    match httpUrlParse url with
    | none => none
    | some u =>
        if httpSourceUrlMaxLen ≤ url.length then none
        else
          some
            { c with
              url := url
              label := sourceLabel (trimInplace c.label) u
              username := trimInplace c.username
              tlsPin := trimInplace c.tlsPin
              tlsMode := knownTlsMode c.tlsMode
              id := if c.id = [] then ascii "http_" ++ hexText8 (mzCrc32 url) else c.id }

end Http
end PkgManager

/-!
# The file of the sources

The sources are kept in memory and in a file.  Each field is escaped into an array of its own,
which is written between quotes.
-/

namespace PkgManager
namespace Http

open CString
open PkgManager.Parser

/-!
# Writing
-/

/-- What {lit}`json_escape` writes for a byte. -/
def escapePiece (c : UInt8) : Text :=
  if c = quote ∨ c = backslash then [backslash, c]
  else if c = 10 then [backslash, 110]
  else if c = 13 then [backslash, 114]
  else if c = 9 then [backslash, 116]
  else if c.toNat < 32 then
    [backslash, 117, 48, 48, lowerHex (c.toNat / 16), lowerHex (c.toNat % 16)]
  else [c]

/-- The bytes of a text that the loop gets to, from a place in the array on. -/
def keptFrom (dstSz : Nat) : Nat -> Text -> Text
  | _, [] => []
  | d, c :: rest =>
      if c = 0 ∨ dstSz ≤ d + 7 then []
      else c :: keptFrom dstSz (d + (escapePiece c).length) rest

/-- The part of a text that an array of this size has room for. -/
def keptText (dstSz : Nat) (src : Text) : Text :=
  keptFrom dstSz 0 src

/-- {lit}`json_escape` -/
def jsonEscape (dstSz : Nat) (src : Text) : Text :=
  (keptText dstSz src).flatMap escapePiece

/-- A field with what stands in front of the next one. -/
def stringField (key : String) (value : Text) : Text :=
  quoted key ++ 58 :: 32 :: (quote :: value ++ quote :: [44, 32])

/-- The fields of a source that are texts. -/
def sourceFields (c : SourceConfig) : List (String × Text) :=
  [("id", jsonEscape 80 c.id), ("label", jsonEscape 160 c.label), ("url", jsonEscape 1100 c.url),
    ("username", jsonEscape 160 c.username), ("password", jsonEscape 300 c.password),
    ("tls_mode", jsonEscape 40 c.tlsMode), ("tls_pin", jsonEscape 220 c.tlsPin)]

def stringFields (fields : List (String × Text)) : Text :=
  fields.flatMap (fun x => stringField x.1 x.2)

def enabledText (enabled : Bool) : Text :=
  quoted "enabled" ++ 58 :: 32 :: (if enabled then ascii "true" else ascii "false")

/-- A source between its brackets. -/
def sourceText (c : SourceConfig) : Text :=
  stringFields (sourceFields c) ++ enabledText c.enabled

/-- The lines of the sources. -/
def sourceLines : List SourceConfig -> Text
  | [] => []
  | [c] => ascii "    " ++ 123 :: (sourceText c ++ 125 :: ascii "\n")
  | c :: rest => ascii "    " ++ 123 :: (sourceText c ++ 125 :: ascii ",\n") ++ sourceLines rest

/-- What {lit}`sources_save_locked` writes. -/
def sourcesText (sources : List SourceConfig) : Text :=
  ascii "\x7b\n  \"version\": 1,\n  \"sources\": [\n" ++ sourceLines sources ++ ascii "  ]\n\x7d\n"

/-!
# The store
-/

/-- {lit}`g_sources`, {lit}`g_sources_loaded` and the file. -/
structure SourceStore where
  sources : List SourceConfig
  loaded : Bool
  file : Option Text

variable (mzCrc32 : Text -> Nat)

/-- {lit}`sources_load_locked` -/
def sourcesLoadLocked (s : SourceStore) : SourceStore :=
  match s.file with
  | none => { s with sources := [], loaded := true }
  | some file =>
      let list := httpSourcesParseJson (cString (file.take 65535)) maxHttpSources
      { s with sources := list.filterMap (httpSourceSanitize mzCrc32), loaded := true }

/-- {lit}`sources_save_locked`, when the file can be written. -/
def sourcesSaveLocked (s : SourceStore) : SourceStore :=
  { s with file := some (sourcesText s.sources) }

/-- {lit}`http_sources_get`: the sources that are given out, and the store after it. -/
def httpSourcesGet (s : SourceStore) (maxOut : Nat) : List SourceConfig × SourceStore :=
  let s := if s.loaded then s else sourcesLoadLocked mzCrc32 s
  (s.sources.take maxOut, s)

/-- {lit}`http_sources_set` -/
def httpSourcesSet (s : SourceStore) (list : List SourceConfig) : SourceStore :=
  sourcesSaveLocked
    { s with
      sources := (list.take maxHttpSources).filterMap (httpSourceSanitize mzCrc32)
      loaded := true }

/-- A process that has just started. -/
def SourceStore.restarted (s : SourceStore) : SourceStore where
  sources := []
  loaded := false
  file := s.file

/-!
# Configurations
-/

/-- Every text stands in its array. -/
structure IsConfig (c : SourceConfig) : Prop where
  id : ZeroFree c.id ∧ c.id.length < 32
  label : ZeroFree c.label ∧ c.label.length < 64
  url : ZeroFree c.url ∧ c.url.length < 512
  username : ZeroFree c.username ∧ c.username.length < 64
  password : ZeroFree c.password ∧ c.password.length < 128
  tlsMode : ZeroFree c.tlsMode ∧ c.tlsMode.length < 16
  tlsPin : ZeroFree c.tlsPin ∧ c.tlsPin.length < 100

/-- What is in the file of a source. -/
def cutSource (c : SourceConfig) : SourceConfig where
  enabled := c.enabled
  id := keptText 80 c.id
  label := keptText 160 c.label
  url := keptText 1100 c.url
  username := keptText 160 c.username
  password := keptText 300 c.password
  tlsMode := keptText 40 c.tlsMode
  tlsPin := keptText 220 c.tlsPin

/-!
# The part that is written
-/

theorem keptFrom_starts (dstSz d : Nat) (src : Text) : keptFrom dstSz d src <+: src := by
  induction src generalizing d with
  | nil => exact List.prefix_rfl
  | cons c rest ih =>
      unfold keptFrom
      split
      · exact List.nil_prefix
      · exact (List.prefix_cons_inj c).mpr (ih _)

theorem keptText_starts (dstSz : Nat) (src : Text) : keptText dstSz src <+: src :=
  keptFrom_starts dstSz 0 src

theorem zeroFree_keptText {dstSz : Nat} {src : Text} (h : ZeroFree src) :
    ZeroFree (keptText dstSz src) :=
  fun b hb => h b ((keptText_starts dstSz src).subset hb)

theorem escapePiece_length (c : UInt8) : (escapePiece c).length ≤ 6 := by
  unfold escapePiece
  split_ifs <;> simp

/-- There is room for the text when there is room in front of its last byte. -/
def Fits (dstSz : Nat) (src : Text) : Prop :=
  src = [] ∨ (src.dropLast.flatMap escapePiece).length + 7 < dstSz

theorem keptFrom_eq_iff {dstSz d : Nat} {src : Text} (h : ZeroFree src) :
    keptFrom dstSz d src = src ↔
      src = [] ∨ d + (src.dropLast.flatMap escapePiece).length + 7 < dstSz := by
  induction src generalizing d with
  | nil => simp [keptFrom]
  | cons c rest ih =>
      have hrest := ih (d := d + (escapePiece c).length)
        (fun b hb => h b (List.mem_cons_of_mem c hb))
      have hc := h c List.mem_cons_self
      unfold keptFrom
      split
      · rename_i hstop
        have hfull := hstop.resolve_left hc
        constructor
        · intro heq
          cases heq
        · intro hroom
          have hroom := hroom.resolve_left (List.cons_ne_nil c rest)
          omega
      · rename_i hgo
        rw [not_or, not_le] at hgo
        rw [List.cons.injEq, hrest]
        cases rest with
        | nil =>
            have hlast : [c].dropLast.flatMap escapePiece = [] := rfl
            rw [hlast]
            simp only [true_and, true_or, List.length_nil, Nat.add_zero, true_iff]
            exact Or.inr hgo.2
        | cons b more =>
            rw [List.dropLast_cons_cons, List.flatMap_cons, List.length_append]
            simp only [true_and, List.cons_ne_nil, false_or]
            omega

theorem keptText_eq_iff {dstSz : Nat} {src : Text} (h : ZeroFree src) :
    keptText dstSz src = src ↔ Fits dstSz src := by
  unfold keptText Fits
  rw [keptFrom_eq_iff h, Nat.zero_add]

theorem keptText_ne_nil {dstSz : Nat} {src : Text} (h : ZeroFree src) (hsize : 7 < dstSz)
    (hne : src ≠ []) : keptText dstSz src ≠ [] := by
  rcases List.exists_cons_of_ne_nil hne with ⟨c, rest, rfl⟩
  have hgo : ¬(c = 0 ∨ dstSz ≤ 0 + 7) := by
    rw [not_or]
    exact ⟨h c List.mem_cons_self, by omega⟩
  unfold keptText keptFrom
  rw [if_neg hgo]
  exact List.cons_ne_nil _ _

end Http
end PkgManager
