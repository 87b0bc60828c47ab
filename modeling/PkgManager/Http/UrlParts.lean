import PkgManager.Secrets.WebServers

/-!
# What an address is made of

The scheme of an address stands in front of its authority, in any case.  A host comes from the
authority, so it has none of the bytes that end one.
-/

namespace PkgManager
namespace Http

open CString
open PkgManager.Parser
open PkgManager.Scanner (lowerText)
open PkgManager.Secrets
open PkgManager.Smb (mem_intText digitsValue)

/-!
# Schemes
-/

def schemeFront (https : Bool) : Text :=
  schemeText https ++ ascii "://"

theorem startsWithCi_iff {start : String} {text : Text} :
    startsWithCi start text = true ↔
      exists front rest, text = front ++ rest ∧ lowerText front = lowerText (ascii start) := by
  unfold startsWithCi
  rw [beq_iff_eq]
  constructor
  · intro h
    exact ⟨_, _, (List.take_append_drop _ text).symm, h⟩
  · rintro ⟨front, rest, rfl, hfront⟩
    have hlength := congrArg List.length hfront
    rw [lowerText_length, lowerText_length] at hlength
    rw [<- hlength, List.take_left]
    exact hfront

theorem urlScheme_iff {url p : Text} {https : Bool} :
    urlScheme url = some (https, p) ↔
      exists front, url = front ++ p ∧ lowerText front = schemeFront https := by
  have hfronts : lowerText (ascii "https://") = schemeFront true ∧
      lowerText (ascii "http://") = schemeFront false := by decide
  have hlengths : (schemeFront true).length = 8 ∧ (schemeFront false).length = 7 := by decide
  unfold urlScheme
  constructor
  · intro h
    split at h
    · rename_i hstart
      rcases startsWithCi_iff.mp hstart with ⟨front, rest, rfl, hfront⟩
      rw [hfronts.1] at hfront
      have hlength := congrArg List.length hfront
      rw [lowerText_length, hlengths.1] at hlength
      cases h
      rw [<- hlength, List.drop_left]
      exact ⟨front, rfl, hfront⟩
    · split at h
      · rename_i hstart
        rcases startsWithCi_iff.mp hstart with ⟨front, rest, rfl, hfront⟩
        rw [hfronts.2] at hfront
        have hlength := congrArg List.length hfront
        rw [lowerText_length, hlengths.2] at hlength
        cases h
        rw [<- hlength, List.drop_left]
        exact ⟨front, rfl, hfront⟩
      · cases h
  · rintro ⟨front, rfl, hfront⟩
    have hlength := congrArg List.length hfront
    rw [lowerText_length] at hlength
    cases https with
    | true =>
        rw [hlengths.1] at hlength
        rw [if_pos (startsWithCi_iff.mpr ⟨front, p, rfl, hfront.trans hfronts.1.symm⟩),
          <- hlength, List.drop_left]
    | false =>
        rw [hlengths.2] at hlength
        have hnot : ¬startsWithCi "https://" (front ++ p) = true := by
          intro hstart
          have hfive := congrArg (List.take 5) (beq_iff_eq.mp hstart)
          rw [lowerText_take, List.take_take, List.take_append_of_le_length (by omega),
            <- lowerText_take, hfront] at hfive
          exact absurd hfive (by decide)
        rw [if_neg hnot,
          if_pos (startsWithCi_iff.mpr ⟨front, p, rfl, hfront.trans hfronts.2.symm⟩),
          <- hlength, List.drop_left]

theorem urlScheme_front {front : Text} {https : Bool} (h : lowerText front = schemeFront https)
    (p : Text) : urlScheme (front ++ p) = some (https, p) :=
  urlScheme_iff.mpr ⟨front, rfl, h⟩

/-!
# Accepted addresses
-/

/-- The bytes between the scheme and the path, without what stands in front of an at sign. -/
def hostPortText (p : Text) : Text :=
  (p.takeWhile inAuthority).rtakeWhile (fun b => b != 64)

structure ParsedFrom (u : HttpUrl) (url : Text) : Prop where
  parts : exists p host portText, urlScheme url = some (u.https, p) ∧
    splitHost (hostPortText p) = some (host, portText) ∧ u.host = cString host ∧
    urlPortNumber u.https portText = some u.port ∧ urlPath (p.dropWhile inAuthority) = some u.path

theorem httpUrlParse_parts {url : Text} {u : HttpUrl} (h : httpUrlParse url = some u) :
    ParsedFrom u url := by
  unfold httpUrlParse at h
  split at h
  · cases h
  · rename_i https p hscheme
    split at h
    · cases h
    · rename_i host portText hsplit
      split at h
      · cases h
      · split at h
        · rename_i port path hport hpath
          cases h
          exact ⟨p, host, portText, hscheme, hsplit, rfl, hport, hpath⟩
        · cases h

theorem authority_ne_nil {url p : Text} {https : Bool} {u : HttpUrl}
    (h : httpUrlParse url = some u) (hscheme : urlScheme url = some (https, p)) :
    p.takeWhile inAuthority ≠ [] := by
  intro hnil
  unfold httpUrlParse at h
  rw [hscheme] at h
  dsimp only at h
  rw [hnil] at h
  cases h

theorem host_short {url : Text} {u : HttpUrl} (h : httpUrlParse url = some u) :
    u.host.length < 256 := by
  unfold httpUrlParse at h
  split at h
  · cases h
  · split at h
    · cases h
    · rename_i host portText _
      split at h
      · cases h
      · rename_i hshort
        split at h
        · cases h
          have hle := (cString_starts host).length_le
          exact Nat.lt_of_le_of_lt hle (Nat.lt_of_not_le (fun hlong => hshort (Or.inr hlong)))
        · cases h

theorem splitHost_mem {hostPort host : Text} {portText : Option Text}
    (h : splitHost hostPort = some (host, portText)) {b : UInt8} (hb : b ∈ host) :
    b ∈ hostPort := by
  unfold splitHost at h
  split at h
  · rename_i rest
    split at h
    · cases h
      exact List.mem_cons_of_mem _ ((List.takeWhile_prefix _).subset hb)
    · cases h
  · cases h
    exact (List.takeWhile_prefix _).subset hb

theorem host_inAuthority {url : Text} {u : HttpUrl} (h : httpUrlParse url = some u) {b : UInt8}
    (hb : b ∈ u.host) : inAuthority b = true := by
  rcases (httpUrlParse_parts h).parts with ⟨p, host, portText, _, hsplit, hhost, _, _⟩
  rw [hhost] at hb
  have hmem := splitHost_mem hsplit ((cString_starts host).subset hb)
  exact List.mem_takeWhile_imp ((List.rtakeWhile_suffix _ _).subset hmem)

theorem port_bounds {url : Text} {u : HttpUrl} (h : httpUrlParse url = some u) :
    0 < u.port ∧ u.port ≤ 65535 := by
  rcases (httpUrlParse_parts h).parts with ⟨p, host, portText, _, _, _, hport, _⟩
  cases portText with
  | none =>
      have hscheme : schemePort u.https = u.port := Option.some.inj hport
      rw [<- hscheme, schemePort]
      split <;> decide
  | some digits =>
      rw [urlPortNumber] at hport
      split at hport
      · rename_i hdigits
        rw [<- Option.some.inj hport]
        exact hdigits.2.2
      · exact absurd hport (Option.some_ne_none u.port).symm

theorem inAuthority_digit {b : UInt8} (h : isDigit b = true) : inAuthority b = true := by
  unfold inAuthority
  rw [Bool.and_eq_true, Bool.and_eq_true, bne_iff_ne, bne_iff_ne, bne_iff_ne]
  refine ⟨⟨?_, ?_⟩, ?_⟩
  · rintro rfl
    cases h
  · rintro rfl
    cases h
  · rintro rfl
    cases h

/-- A host with its port is one authority. -/
theorem hostAndPort_inAuthority {url : Text} {u : HttpUrl} (h : httpUrlParse url = some u)
    {b : UInt8} (hb : b ∈ hostAndPort u) : inAuthority b = true := by
  have hhost : forall b, b ∈ u.host -> inAuthority b = true := fun b => host_inAuthority h
  have hbracketed : forall b,
      b ∈ (if u.host.contains 58 then ascii "[" ++ u.host ++ ascii "]" else u.host) ->
        inAuthority b = true := by
    intro b hb
    split at hb
    · rcases List.mem_append.mp hb with hb | hb
      · rcases List.mem_append.mp hb with hb | hb
        · rw [List.mem_singleton.mp hb]
          decide
        · exact hhost b hb
      · rw [List.mem_singleton.mp hb]
        decide
    · exact hhost b hb
  unfold hostAndPort at hb
  dsimp only at hb
  split at hb
  · rcases List.mem_append.mp hb with hb | hb
    · rcases List.mem_append.mp hb with hb | hb
      · exact hbracketed b hb
      · rw [List.mem_singleton.mp hb]
        decide
    · exact inAuthority_digit (mem_intText (by exact_mod_cast (port_bounds h).1) hb)
  · exact hbracketed b hb

end Http
end PkgManager
