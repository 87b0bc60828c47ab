import PkgManager.Http.Credentials
import PkgManager.Http.Sources
import PkgManager.Secrets.Casing

/-!
# The server of a web source

Addresses that only differ in case lead to the same endpoint, and cleaning an address that is
clean keeps its endpoint.
-/

namespace PkgManager
namespace Secrets

open CString
open PkgManager.Parser
open PkgManager.Http
open PkgManager.Scanner (lowerText)
open PkgManager.Smb (digitsValue)

/-!
# Addresses without regard to case
-/

theorem startsWithCi_lower (start : String) (url : Text) :
    startsWithCi start (lowerText url) = startsWithCi start url := by
  unfold startsWithCi
  rw [lowerText_take, lowerText_idem]

theorem urlScheme_lower (url : Text) :
    urlScheme (lowerText url) = (urlScheme url).map (fun s => (s.1, lowerText s.2)) := by
  unfold urlScheme
  rw [startsWithCi_lower, startsWithCi_lower, lowerText_drop, lowerText_drop]
  split
  · rfl
  · split
    · rfl
    · rfl

theorem inAuthority_lower (b : UInt8) : inAuthority (lowerByte b) = inAuthority b := by
  have hslash := (letterFree_beq (c := 47) (by decide)).lower b
  have hmark := (letterFree_beq (c := 63) (by decide)).lower b
  have hhash := (letterFree_beq (c := 35) (by decide)).lower b
  unfold inAuthority bne
  rw [hslash, hmark, hhash]

theorem bne_lower {c : UInt8} (hc : isUpper c = false ∧ isLower c = false) (b : UInt8) :
    (lowerByte b != c) = (b != c) :=
  (letterFree_beq hc).lower_not b

theorem lowerByte_eq_iff {c : UInt8} (hc : isUpper c = false ∧ isLower c = false) (b : UInt8) :
    lowerByte b = c ↔ b = c := by
  have hbyte := (letterFree_beq hc).lower b
  rw [<- beq_iff_eq, hbyte, beq_iff_eq]

/-- The text behind a byte that was skipped to. -/
theorem lowerText_behind {c : UInt8} (hc : isUpper c = false ∧ isLower c = false) (text : Text) :
    ((lowerText text).dropWhile (fun b => b != c)).drop 1 =
      lowerText ((text.dropWhile (fun b => b != c)).drop 1) := by
  rw [lowerText_dropWhile (bne_lower hc), lowerText_drop]

def lowerParts (parts : Text × Option Text) : Text × Option Text :=
  (lowerText parts.1, parts.2.map lowerText)

theorem lowerText_head {c : UInt8} (hc : isUpper c = false ∧ isLower c = false) (text : Text) :
    (lowerText text).head? = some c ↔ text.head? = some c := by
  cases text with
  | nil => rfl
  | cons b rest =>
      rw [lowerText_map, List.map_cons, List.head?_cons, List.head?_cons, Option.some.injEq,
        Option.some.injEq, lowerByte_eq_iff hc]

theorem splitHost_bracket (rest : Text) :
    splitHost (91 :: rest) =
      if rest.contains 93 then
        some (rest.takeWhile (fun b => b != 93),
          if ((rest.dropWhile (fun b => b != 93)).drop 1).head? = some 58 then
            some (((rest.dropWhile (fun b => b != 93)).drop 1).drop 1)
          else none)
      else none :=
  rfl

theorem splitHost_plain {hostPort : Text} (h : hostPort.head? ≠ some 91) :
    splitHost hostPort =
      some (hostPort.takeWhile (fun b => b != 58),
        if hostPort.contains 58 then some ((hostPort.dropWhile (fun b => b != 58)).drop 1)
        else none) := by
  unfold splitHost
  split
  · exact absurd rfl h
  · rfl

theorem splitHost_lower (hostPort : Text) :
    splitHost (lowerText hostPort) = (splitHost hostPort).map lowerParts := by
  by_cases hbracket : hostPort.head? = some 91
  · cases hostPort with
    | nil => cases hbracket
    | cons b rest =>
        cases hbracket
        change splitHost (91 :: lowerText rest) = _
        rw [splitHost_bracket, splitHost_bracket, lowerText_contains (by decide),
          lowerText_behind (by decide), lowerText_takeWhile (bne_lower (by decide)), lowerText_drop]
        by_cases hclose : rest.contains 93 = true
        · rw [if_pos hclose, if_pos hclose, Option.map_some]
          by_cases hcolon : ((rest.dropWhile (fun b => b != 93)).drop 1).head? = some 58
          · rw [if_pos ((lowerText_head (by decide) _).mpr hcolon), if_pos hcolon]
            rfl
          · rw [if_neg (fun h => hcolon ((lowerText_head (by decide) _).mp h)), if_neg hcolon]
            rfl
        · rw [if_neg hclose, if_neg hclose]
          rfl
  · have hlower : (lowerText hostPort).head? ≠ some 91 :=
      fun h => hbracket ((lowerText_head (by decide) hostPort).mp h)
    rw [splitHost_plain hlower, splitHost_plain hbracket, lowerText_contains (by decide),
      lowerText_behind (by decide), lowerText_takeWhile (bne_lower (by decide))]
    by_cases hcolon : hostPort.contains 58 = true
    · rw [if_pos hcolon, if_pos hcolon]
      rfl
    · rw [if_neg hcolon, if_neg hcolon]
      rfl

theorem urlPortNumber_lower (https : Bool) (portText : Option Text) :
    urlPortNumber https (portText.map lowerText) = urlPortNumber https portText := by
  cases portText with
  | none => rfl
  | some digits =>
      unfold urlPortNumber
      dsimp only [Option.map_some]
      rw [lowerText_all letterFree_isDigit.lower]
      by_cases hdigits : digits.all isDigit = true
      · rw [lowerText_digits hdigits]
      · rw [if_neg (fun h => hdigits h.2.1), if_neg (fun h => hdigits h.2.1)]

theorem urlPath_isSome (path : Text) :
    (urlPath path).isSome = true ↔
      (path.takeWhile (fun b => b != 35) = [] ∨
        (path.takeWhile (fun b => b != 35)).length +
          (if (path.takeWhile (fun b => b != 35)).head? = some 63 then 2 else 1) ≤ httpUrlMax) := by
  unfold urlPath
  dsimp only
  generalize path.takeWhile (fun b => b != 35) = whole
  split
  · simp
  · rename_i rest
    split
    · rename_i hlong
      simp
      omega
    · rename_i hshort
      simp at hshort ⊢
      omega
  · rename_i hempty hmark
    have hhead : whole.head? ≠ some 63 := by
      intro hhead
      cases whole with
      | nil => cases hhead
      | cons b rest =>
          cases hhead
          exact hmark rest rfl
    rw [if_neg hhead]
    split
    · rename_i hlong
      simp [show whole ≠ [] from hempty]
      omega
    · rename_i hshort
      simp
      omega

theorem urlPath_lower (path : Text) :
    (urlPath (lowerText path)).isSome = (urlPath path).isSome := by
  have hmark : forall text : Text, (lowerText text).head? = some 63 ↔ text.head? = some 63 :=
    lowerText_head (by decide)
  rw [Bool.eq_iff_iff, urlPath_isSome, urlPath_isSome, lowerText_takeWhile (bne_lower (by decide))]
  simp only [lowerText_eq_nil, lowerText_length, hmark]

/-- Scheme, port and host. -/
def endpoint (u : HttpUrl) : Bool × Nat × Text :=
  (u.https, u.port, lowerText u.host)

theorem endpoint_eq_iff (a b : HttpUrl) : endpoint a = endpoint b ↔ SameEndpoint a b := by
  unfold endpoint SameEndpoint
  rw [Prod.mk.injEq, Prod.mk.injEq]

theorem httpUrlParse_lower (url : Text) :
    (httpUrlParse (lowerText url)).map endpoint = (httpUrlParse url).map endpoint := by
  unfold httpUrlParse
  rw [urlScheme_lower]
  cases urlScheme url with
  | none => rfl
  | some scheme =>
      rcases scheme with ⟨https, p⟩
      dsimp only [Option.map_some]
      rw [lowerText_takeWhile inAuthority_lower, lowerText_rtakeWhile (bne_lower (by decide)),
        splitHost_lower, lowerText_dropWhile inAuthority_lower]
      cases splitHost ((p.takeWhile inAuthority).rtakeWhile (fun b => b != 64)) with
      | none => rfl
      | some parts =>
          rcases parts with ⟨host, portText⟩
          dsimp only [Option.map_some, lowerParts]
          simp only [lowerText_eq_nil, lowerText_length, urlPortNumber_lower]
          split
          · rfl
          · have hpath := urlPath_lower (p.dropWhile inAuthority)
            cases urlPortNumber https portText with
            | none => rfl
            | some port =>
                cases hp : urlPath (p.dropWhile inAuthority) with
                | none =>
                    rw [hp, Option.isSome_none, Option.isSome_eq_false_iff,
                      Option.isNone_iff_eq_none] at hpath
                    rw [hpath]
                | some path =>
                    rw [hp] at hpath
                    rcases Option.isSome_iff_exists.mp hpath with ⟨path', hpath'⟩
                    rw [hpath']
                    simp [endpoint, lowerText_cString]

/-- Addresses that only differ in case have the same endpoint. -/
theorem sameEndpoint_of_lower {a b : Text} (h : lowerText a = lowerText b) {u : HttpUrl}
    (hu : httpUrlParse a = some u) : exists v, httpUrlParse b = some v ∧ SameEndpoint u v := by
  have heq := httpUrlParse_lower b
  rw [<- h, httpUrlParse_lower, hu, Option.map_some] at heq
  rcases Option.map_eq_some_iff.mp heq.symm with ⟨v, hv, hsame⟩
  exact ⟨v, hv, (endpoint_eq_iff u v).mp hsame.symm⟩

/-!
# Clean addresses
-/

/-- What an address is like when it was cleaned, whatever its case. -/
structure CleanUrl (url : Text) : Prop where
  scheme : startsWithCi "http://" url = true ∨ startsWithCi "https://" url = true
  slash : url.getLast? = some 47
  plain : forall b, b ∈ url -> b ≠ 63 ∧ b ≠ 35
  short : url.length < httpSourceUrlMaxLen

theorem lowerText_getLast {c : UInt8} (hc : isUpper c = false ∧ isLower c = false) (text : Text) :
    (lowerText text).getLast? = some c ↔ text.getLast? = some c := by
  rw [<- List.head?_reverse, <- List.head?_reverse, lowerText_map, <- List.map_reverse]
  exact lowerText_head hc text.reverse

theorem CleanUrl.of_lower {a b : Text} (ha : CleanUrl a) (h : lowerText a = lowerText b) :
    CleanUrl b where
  scheme := by
    rw [<- startsWithCi_lower "http://", <- startsWithCi_lower "https://", <- h,
      startsWithCi_lower, startsWithCi_lower]
    exact ha.scheme
  slash := by
    rw [<- lowerText_getLast (by decide), <- h, lowerText_getLast (by decide)]
    exact ha.slash
  plain := by
    intro c hc
    have hlower : lowerByte c ∈ lowerText a := by
      rw [h]
      exact List.mem_map_of_mem hc
    rcases List.mem_map.mp hlower with ⟨d, hd, heq⟩
    have hplain := ha.plain d hd
    constructor
    · intro hmark
      rw [(lowerByte_eq_iff (by decide) c).mpr hmark] at heq
      exact hplain.1 ((lowerByte_eq_iff (by decide) d).mp heq)
    · intro hhash
      rw [(lowerByte_eq_iff (by decide) c).mpr hhash] at heq
      exact hplain.2 ((lowerByte_eq_iff (by decide) d).mp heq)
  short := by
    rw [<- lowerText_length, <- h, lowerText_length]
    exact ha.short

theorem lowerScheme_lower (url : Text) : lowerText (lowerScheme url) = lowerText url := by
  unfold lowerScheme
  rw [lowerText_append, lowerText_idem, <- lowerText_append, List.takeWhile_append_dropWhile]

/-- No blank stands in front of a scheme. -/
theorem dropWhile_scheme {url : Text}
    (h : startsWithCi "http://" url = true ∨ startsWithCi "https://" url = true) :
    url.dropWhile isSpace = url := by
  rw [List.dropWhile_eq_self_iff]
  intro hpos
  cases url with
  | nil => cases hpos
  | cons b rest =>
      have hletter : lowerByte b = 104 := by
        rcases h with hhttp | hhttps
        · exact (List.cons.inj (beq_iff_eq.mp hhttp)).1
        · exact (List.cons.inj (beq_iff_eq.mp hhttps)).1
      change ¬ isSpace b = true
      rw [<- letterFree_isSpace.lower, hletter]
      decide

theorem trimInplace_clean {url : Text} (h : CleanUrl url) : trimInplace url = url := by
  have hback : url.rdropWhile isSpace = url := by
    rw [List.rdropWhile_eq_self_iff]
    intro hne
    have hlast := h.slash
    rw [List.getLast?_eq_some_getLast hne, Option.some.injEq] at hlast
    rw [hlast]
    decide
  unfold trimInplace
  rw [hback, dropWhile_scheme h.scheme]

theorem folderUrl_slash {url : Text} (h : url.getLast? = some 47) : folderUrl url = url := by
  apply if_neg
  intro hends
  rw [endsWithCi, Bool.and_eq_true, beq_iff_eq] at hends
  have hlast := congrArg List.getLast? hends.2
  have hindex : (lowerText (ascii "/index.json")).getLast? = some 110 := by decide
  have hlower := (lowerText_getLast (by decide) url).mpr h
  rw [hindex, <- lowerText_drop, List.getLast?_drop, hlower] at hlast
  split at hlast
  · cases hlast
  · cases hlast

/-- Only the case of the scheme is changed. -/
theorem cleanUrl_clean {url : Text} (h : CleanUrl url) : cleanUrl url = lowerScheme url := by
  have hscheme : (startsWithCi "http://" url || startsWithCi "https://" url) = true := by
    rw [Bool.or_eq_true]
    exact h.scheme
  have hlower : CleanUrl (lowerScheme url) := h.of_lower (lowerScheme_lower url).symm
  have hplain : withoutQuery (lowerScheme url) = lowerScheme url := by
    apply List.takeWhile_eq_self_iff.mpr
    intro b hb
    simpa using hlower.plain b hb
  unfold cleanUrl
  rw [trimInplace_clean h, withScheme, if_pos hscheme, folderUrl_slash hlower.slash, hplain,
    withSlash, if_neg (fun hcond => hcond.2.1 hlower.slash)]

theorem mem_withSlash {url : Text} {b : UInt8} (h : b ∈ withSlash url) : b ∈ url ∨ b = 47 := by
  unfold withSlash at h
  split at h
  · rcases List.mem_append.mp h with hold | hnew
    · exact Or.inl hold
    · exact Or.inr (List.mem_singleton.mp hnew)
  · exact Or.inl h

theorem withSlash_last {url : Text} (hne : withSlash url ≠ [])
    (hshort : (withSlash url).length < httpSourceUrlMaxLen) :
    (withSlash url).getLast? = some 47 := by
  by_cases hcond : url ≠ [] ∧ url.getLast? ≠ some 47 ∧ url.length + 1 < 512
  · rw [withSlash, if_pos hcond]
    exact List.getLast?_concat
  · rw [withSlash, if_neg hcond] at hne hshort ⊢
    by_cases hslash : url.getLast? = some 47
    · exact hslash
    · unfold httpSourceUrlMaxLen at hshort
      exact absurd ⟨hne, hslash, by omega⟩ hcond

theorem urlScheme_starts {url : Text} {u : HttpUrl} (h : httpUrlParse url = some u) :
    startsWithCi "http://" url = true ∨ startsWithCi "https://" url = true := by
  unfold httpUrlParse urlScheme at h
  by_cases hhttps : startsWithCi "https://" url = true
  · exact Or.inr hhttps
  · by_cases hhttp : startsWithCi "http://" url = true
    · exact Or.inl hhttp
    · rw [if_neg hhttps, if_neg hhttp] at h
      cases h

/-!
# Cleaned sources
-/

variable {mzCrc32 : Text -> Nat}

/-- The address that a cleaned source has. -/
theorem sanitize_url {c c' : SourceConfig} (h : httpSourceSanitize mzCrc32 c = some c') :
    c'.url = cleanUrl c.url ∧ c'.password = c.password ∧
      (exists u, httpUrlParse c'.url = some u) ∧ c'.url.length < httpSourceUrlMaxLen := by
  unfold httpSourceSanitize at h
  split at h
  · cases h
  · dsimp only at h
    split at h
    · cases h
    · rename_i u hu
      split at h
      · cases h
      · rename_i hshort
        rw [<- Option.some.inj h]
        dsimp only
        exact ⟨rfl, rfl, ⟨u, hu⟩, Nat.lt_of_not_le hshort⟩

theorem sanitize_clean {c c' : SourceConfig} (h : httpSourceSanitize mzCrc32 c = some c') :
    CleanUrl c'.url := by
  rcases sanitize_url h with ⟨hurl, _, ⟨u, hu⟩, hshort⟩
  have hscheme := urlScheme_starts hu
  have hne : c'.url ≠ [] := by
    intro hempty
    rw [hempty] at hu
    cases hu
  rw [hurl] at hshort hne hscheme ⊢
  exact
    { scheme := hscheme
      slash := withSlash_last hne hshort
      plain := by
        intro b hb
        rcases mem_withSlash hb with hquery | rfl
        · have hplain := List.mem_takeWhile_imp hquery
          simpa using hplain
        · decide
      short := hshort }

/-- A clean source is left as it is, but for the case of its address. -/
theorem sanitize_lower {c c' : SourceConfig} (hc : CleanUrl c.url)
    (h : httpSourceSanitize mzCrc32 c = some c') : lowerText c'.url = lowerText c.url := by
  rw [(sanitize_url h).1, cleanUrl_clean hc, lowerScheme_lower]

/-!
# The same server
-/

/-- Two sources with the same scheme, port and host. -/
def SameServer (c d : SourceConfig) : Prop :=
  exists u v, httpUrlParse c.url = some u ∧ httpUrlParse d.url = some v ∧ SameEndpoint u v

theorem SameServer.trans {c d e : SourceConfig} (hcd : SameServer c d) (hde : SameServer d e) :
    SameServer c e := by
  rcases hcd with ⟨u, v, hu, hv, huv⟩
  rcases hde with ⟨v', w, hv', hw, hvw⟩
  rw [hv] at hv'
  cases hv'
  exact ⟨u, w, hu, hw, huv.trans hvw⟩

theorem sameServer_of_lower {c d : SourceConfig} (h : lowerText c.url = lowerText d.url)
    {u : HttpUrl} (hu : httpUrlParse c.url = some u) : SameServer c d := by
  rcases sameEndpoint_of_lower h hu with ⟨v, hv, hsame⟩
  exact ⟨u, v, hu, hv, hsame⟩

end Secrets
end PkgManager
