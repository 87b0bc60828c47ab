import Mathlib.Data.List.DropRight
import Mathlib.Logic.Function.Iterate
import PkgManager.Scanner.Catalog
import PkgManager.Smb.Sanitize

/-!
# Texts without regard to case

A byte that is no letter is found at the same places of a text in lower case.
-/

namespace PkgManager
namespace Secrets

open CString
open PkgManager.Parser
open PkgManager.Scanner (lowerText)

/-- {lit}`strcasecmp(a, b) == 0` -/
def equalCi (a b : Text) : Bool :=
  lowerText a == lowerText b

theorem equalCi_iff {a b : Text} : equalCi a b = true ↔ lowerText a = lowerText b :=
  beq_iff_eq

def lowerByte (b : UInt8) : UInt8 :=
  if 65 ≤ b.toNat ∧ b.toNat ≤ 90 then b + 32 else b

theorem lowerText_map (text : Text) : lowerText text = text.map lowerByte :=
  rfl

/-!
# Bytes
-/

def isUpper (b : UInt8) : Bool :=
  decide (65 ≤ b.toNat ∧ b.toNat ≤ 90)

def isLower (b : UInt8) : Bool :=
  decide (97 ≤ b.toNat ∧ b.toNat ≤ 122)

theorem lowerByte_cases (b : UInt8) :
    lowerByte b = b ∨ isUpper b = true ∧ isLower (lowerByte b) = true := by
  unfold lowerByte
  split
  · rename_i hupper
    right
    constructor
    · exact decide_eq_true hupper
    · apply decide_eq_true
      rw [UInt8.toNat_add]
      change 97 ≤ (b.toNat + 32) % 256 ∧ (b.toNat + 32) % 256 ≤ 122
      omega
  · exact Or.inl rfl

/-- A test that no letter passes. -/
def LetterFree (p : UInt8 -> Bool) : Prop :=
  forall b, isUpper b = true ∨ isLower b = true -> p b = false

theorem LetterFree.lower {p : UInt8 -> Bool} (h : LetterFree p) (b : UInt8) :
    p (lowerByte b) = p b := by
  rcases lowerByte_cases b with hsame | ⟨hupper, hlower⟩
  · rw [hsame]
  · rw [h _ (Or.inr hlower), h _ (Or.inl hupper)]

theorem LetterFree.lower_not {p : UInt8 -> Bool} (h : LetterFree p) (b : UInt8) :
    (!p (lowerByte b)) = !p b :=
  congrArg not (h.lower b)

theorem letterFree_beq {c : UInt8} (h : isUpper c = false ∧ isLower c = false) :
    LetterFree (fun b => b == c) := by
  intro b hb
  apply beq_false_of_ne
  rintro rfl
  rcases hb with hupper | hlower
  · rw [h.1] at hupper
    cases hupper
  · rw [h.2] at hlower
    cases hlower

theorem LetterFree.or {p q : UInt8 -> Bool} (hp : LetterFree p) (hq : LetterFree q) :
    LetterFree (fun b => p b || q b) := by
  intro b hb
  simp [hp b hb, hq b hb]

theorem letterFree_isDigit : LetterFree isDigit := by
  intro b hb
  unfold isUpper isLower at hb
  unfold isDigit
  simp only [decide_eq_true_eq, decide_eq_false_iff_not] at hb ⊢
  omega

theorem letterFree_isSpace : LetterFree isSpace := by
  intro b hb
  unfold isUpper isLower at hb
  unfold isSpace
  simp only [decide_eq_true_eq, Bool.or_eq_false_iff, beq_eq_false_iff_ne, ne_eq,
    decide_eq_false_iff_not] at hb ⊢
  constructor
  · rintro rfl
    revert hb
    decide
  · omega

theorem lowerByte_idem (b : UInt8) : lowerByte (lowerByte b) = lowerByte b := by
  rcases lowerByte_cases b with hsame | ⟨_, hlower⟩
  · rw [hsame, hsame]
  · have hrange := of_decide_eq_true hlower
    unfold lowerByte at hrange ⊢
    exact if_neg (by omega)

/-!
# Texts
-/

section
variable {p : UInt8 -> Bool} (h : forall b, p (lowerByte b) = p b)
include h

theorem lowerText_takeWhile (text : Text) :
    (lowerText text).takeWhile p = lowerText (text.takeWhile p) := by
  have hcomp : p ∘ lowerByte = p := funext h
  rw [lowerText_map, lowerText_map, List.takeWhile_map, hcomp]

theorem lowerText_dropWhile (text : Text) :
    (lowerText text).dropWhile p = lowerText (text.dropWhile p) := by
  have hcomp : p ∘ lowerByte = p := funext h
  rw [lowerText_map, lowerText_map, List.dropWhile_map, hcomp]

theorem lowerText_rtakeWhile (text : Text) :
    (lowerText text).rtakeWhile p = lowerText (text.rtakeWhile p) := by
  have htake := lowerText_takeWhile h text.reverse
  unfold List.rtakeWhile
  rw [lowerText_map] at htake ⊢
  rw [<- List.map_reverse, htake, lowerText_map, lowerText_map, List.map_reverse]

theorem lowerText_rdropWhile (text : Text) :
    (lowerText text).rdropWhile p = lowerText (text.rdropWhile p) := by
  have hdrop := lowerText_dropWhile h text.reverse
  unfold List.rdropWhile
  rw [lowerText_map] at hdrop ⊢
  rw [<- List.map_reverse, hdrop, lowerText_map, lowerText_map, List.map_reverse]

theorem lowerText_all (text : Text) : (lowerText text).all p = text.all p := by
  have hcomp : p ∘ lowerByte = p := funext h
  rw [lowerText_map, List.all_map, hcomp]

theorem lowerText_countP (text : Text) : (lowerText text).countP p = text.countP p := by
  have hcomp : p ∘ lowerByte = p := funext h
  rw [lowerText_map, List.countP_map, hcomp]

end

@[simp] theorem lowerText_length (text : Text) : (lowerText text).length = text.length :=
  List.length_map _

@[simp] theorem lowerText_idem (text : Text) : lowerText (lowerText text) = lowerText text := by
  rw [lowerText_map, lowerText_map, List.map_map]
  exact List.map_congr_left (fun b _ => lowerByte_idem b)

theorem lowerText_append (a b : Text) : lowerText (a ++ b) = lowerText a ++ lowerText b :=
  List.map_append

theorem lowerText_take (n : Nat) (text : Text) : (lowerText text).take n = lowerText (text.take n) :=
  (List.map_take).symm

theorem lowerText_drop (n : Nat) (text : Text) : (lowerText text).drop n = lowerText (text.drop n) :=
  (List.map_drop).symm

theorem lowerText_eq_nil {text : Text} : lowerText text = [] ↔ text = [] :=
  List.map_eq_nil_iff

theorem lowerText_contains {c : UInt8} (hc : isUpper c = false ∧ isLower c = false) (text : Text) :
    (lowerText text).contains c = text.contains c := by
  have hbyte : forall b, (c == lowerByte b) = (c == b) := by
    intro b
    have hb := (letterFree_beq hc).lower b
    rw [Bool.beq_comm (a := c), Bool.beq_comm (a := c)]
    exact hb
  induction text with
  | nil => rfl
  | cons b rest ih =>
      rw [lowerText_map, List.map_cons, List.contains_cons, List.contains_cons, hbyte]
      rw [lowerText_map] at ih
      rw [ih]

theorem lowerText_cString (text : Text) : cString (lowerText text) = lowerText (cString text) :=
  lowerText_takeWhile (fun b => (letterFree_beq (by decide)).lower_not b) text

theorem lowerText_copied (size : Nat) (text : Text) :
    copied size (lowerText text) = lowerText (copied size text) := by
  unfold copied
  rw [lowerText_take, lowerText_cString]

/-- Digits have no case. -/
theorem lowerText_digits {digits : Text} (h : digits.all isDigit = true) :
    lowerText digits = digits := by
  rw [lowerText_map]
  conv_rhs => rw [<- List.map_id digits]
  apply List.map_congr_left
  intro b hb
  rcases lowerByte_cases b with hsame | ⟨hupper, _⟩
  · exact hsame
  · have hdigit := List.all_eq_true.mp h b hb
    rw [letterFree_isDigit b (Or.inl hupper)] at hdigit
    cases hdigit

end Secrets
end PkgManager

/-!
# The server of a share

Cleaning a server name does not look at the case of its letters.  Two names are the same
when cleaning leads from both to one name.
-/

namespace PkgManager
namespace Secrets

open CString
open PkgManager.Parser
open PkgManager.Scanner (lowerText)
open PkgManager.Smb

/-- The server name of a clean configuration. -/
def cleanName (server : Text) : Text :=
  copied 128 (cleanHost ((cleanServer server).takeWhile notSlash))

theorem sanitize_server (cfg : SmbShare) :
    (smbClientSanitizeConfig cfg).server = cleanName cfg.server :=
  rfl

/-!
# Cleaning and case
-/

theorem letterFree_isBlank : LetterFree isBlank :=
  (((letterFree_beq (by decide)).or (letterFree_beq (by decide))).or
    (letterFree_beq (by decide))).or (letterFree_beq (by decide))

theorem letterFree_isSlash : LetterFree isSlash :=
  (letterFree_beq (by decide)).or (letterFree_beq (by decide))

theorem letterFree_isEdge : LetterFree isEdge :=
  letterFree_isBlank.or letterFree_isSlash

theorem withoutScheme_lower (text : Text) :
    withoutScheme (lowerText text) = lowerText (withoutScheme text) := by
  unfold withoutScheme
  rw [lowerText_take, lowerText_idem, lowerText_drop]
  split
  · rfl
  · rfl

theorem cleanServer_lower (server : Text) :
    cleanServer (lowerText server) = lowerText (cleanServer server) := by
  unfold cleanServer
  rw [lowerText_dropWhile letterFree_isBlank.lower, withoutScheme_lower,
    lowerText_dropWhile letterFree_isSlash.lower, lowerText_copied,
    lowerText_rdropWhile letterFree_isEdge.lower]

theorem notColon_lower (b : UInt8) : notColon (lowerByte b) = notColon b :=
  (letterFree_beq (by decide)).lower_not b

/-- What decides whether a host has a port. -/
theorem embeddedPort_eq (host : Text) :
    embeddedPort host =
      if (decide (host.count 58 = 1) || (decide (1 < host.count 58) && host.contains 93 &&
            !(host.rtakeWhile notColon).contains 93)) = true ∧
          host.take (host.length - (host.rtakeWhile notColon).length - 1) ≠ [] ∧
          host.rtakeWhile notColon ≠ [] ∧ (host.rtakeWhile notColon).all isDigit = true then
        some (host.take (host.length - (host.rtakeWhile notColon).length - 1),
          host.rtakeWhile notColon)
      else none :=
  rfl

theorem embeddedPort_lower (host : Text) :
    embeddedPort (lowerText host) =
      (embeddedPort host).map (fun parts => (lowerText parts.1, parts.2)) := by
  have hcount : (lowerText host).count 58 = host.count 58 :=
    lowerText_countP (letterFree_beq (by decide)).lower host
  have hbracket : forall text : Text, (lowerText text).contains 93 = text.contains 93 :=
    lowerText_contains (by decide)
  rw [embeddedPort_eq, embeddedPort_eq, lowerText_rtakeWhile notColon_lower]
  simp only [hcount, hbracket, lowerText_length, lowerText_take, lowerText_eq_nil, ne_eq,
    lowerText_all letterFree_isDigit.lower]
  split
  · rename_i hport
    rw [Option.map_some, lowerText_digits hport.2.2.2]
  · rfl

theorem cleanHost_lower (host : Text) : cleanHost (lowerText host) = lowerText (cleanHost host) := by
  unfold cleanHost
  rw [embeddedPort_lower]
  cases embeddedPort host with
  | none => rfl
  | some parts => rfl

theorem cleanName_lower (server : Text) :
    cleanName (lowerText server) = lowerText (cleanName server) := by
  unfold cleanName
  rw [cleanServer_lower, lowerText_takeWhile (p := notSlash) letterFree_isSlash.lower_not,
    cleanHost_lower, lowerText_copied]

/-!
# The same server
-/

/-- Cleaning leads from both names to the same one. -/
def SameName (c d : SmbShare) : Prop :=
  exists n m, cleanName^[n] (lowerText c.server) = cleanName^[m] (lowerText d.server)

theorem SameName.refl (c : SmbShare) : SameName c c :=
  ⟨0, 0, rfl⟩

theorem SameName.trans {c d e : SmbShare} (hcd : SameName c d) (hde : SameName d e) :
    SameName c e := by
  rcases hcd with ⟨n, m, hnm⟩
  rcases hde with ⟨k, l, hkl⟩
  refine ⟨k + n, m + l, ?_⟩
  calc
    cleanName^[k + n] (lowerText c.server) = cleanName^[k] (cleanName^[m] (lowerText d.server)) := by
      rw [Function.iterate_add_apply, hnm]
    _ = cleanName^[m] (cleanName^[k] (lowerText d.server)) := by
      rw [<- Function.iterate_add_apply, <- Function.iterate_add_apply, Nat.add_comm]
    _ = cleanName^[m + l] (lowerText e.server) := by
      rw [hkl, Function.iterate_add_apply]

theorem sameName_of_server {c d : SmbShare} (h : c.server = d.server) : SameName c d := by
  refine ⟨0, 0, ?_⟩
  rw [h]

/-- The test of the handlers: a name and a stored one that was cleaned. -/
theorem sameName_of_equalCi {c d : SmbShare}
    (h : equalCi c.server (smbClientSanitizeConfig d).server = true) : SameName c d := by
  refine ⟨0, 1, ?_⟩
  rw [equalCi_iff, sanitize_server] at h
  change lowerText c.server = cleanName (lowerText d.server)
  rw [cleanName_lower]
  exact h

end Secrets
end PkgManager
