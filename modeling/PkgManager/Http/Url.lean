import Mathlib.Data.List.DropRight
import PkgManager.Scanner.Catalog
import PkgManager.Smb.Shares

/-!
# Addresses of web sources

An address is taken apart into the endpoint and the path.  A link is resolved against the
address of the page it stands on.
-/

namespace PkgManager
namespace Http

open CString
open PkgManager.Parser
open PkgManager.Scanner (lowerText strcasecmp)
open PkgManager.Smb (digitsValue)

def httpUrlMax : Nat := 1024

/-- {lit}`http_url_t` -/
structure HttpUrl where
  https : Bool
  host : Text
  hostZero : ZeroFree host
  port : Nat
  path : Text

/-- {lit}`strncasecmp(text, start, strlen(start)) == 0` -/
def startsWithCi (start : String) (text : Text) : Bool :=
  lowerText (text.take (ascii start).length) == lowerText (ascii start)

/-!
# The parts of an address
-/

/-- The scheme and what stands behind it. -/
def urlScheme (url : Text) : Option (Bool × Text) :=
  if startsWithCi "https://" url then some (true, url.drop 8)
  else if startsWithCi "http://" url then some (false, url.drop 7)
  else none

def schemePort (https : Bool) : Nat :=
  if https then 443 else 80

/-- {lit}`strcspn(p, "/?#")` goes over these. -/
def inAuthority (b : UInt8) : Bool :=
  b != 47 && b != 63 && b != 35

/-- The host, and the text of the port when there is a colon for it.  There is none without a
closing bracket. -/
def splitHost (hostPort : Text) : Option (Text × Option Text) :=
  match hostPort with
  | 91 :: rest =>
      if rest.contains 93 then
        let behind := (rest.dropWhile (fun b => b != 93)).drop 1
        some (rest.takeWhile (fun b => b != 93),
          if behind.head? = some 58 then some (behind.drop 1) else none)
      else none
  | _ =>
      some (hostPort.takeWhile (fun b => b != 58),
        if hostPort.contains 58 then some ((hostPort.dropWhile (fun b => b != 58)).drop 1)
        else none)

def urlPortNumber (https : Bool) : Option Text -> Option Nat
  | none => some (schemePort https)
  | some digits =>
      if digits ≠ [] ∧ digits.all isDigit ∧ 0 < digitsValue digits ∧ digitsValue digits ≤ 65535 then
        some (digitsValue digits)
      else none

def urlPath (path : Text) : Option Text :=
  let whole := path.takeWhile (fun b => b != 35)
  match whole with
  | [] => some (ascii "/")
  | 63 :: _ => if httpUrlMax < whole.length + 2 then none else some (47 :: whole)
  | _ => if httpUrlMax < whole.length + 1 then none else some whole

/-- {lit}`http_url_parse` -/
def httpUrlParse (url : Text) : Option HttpUrl :=
  match urlScheme url with
  | none => none
  | some (https, p) =>
      -- What stands in front of the last at sign is not used.
      match splitHost ((p.takeWhile inAuthority).rtakeWhile (fun b => b != 64)) with
      | none => none
      | some (host, portText) =>
          if host = [] ∨ 256 ≤ host.length then none
          else
            match urlPortNumber https portText, urlPath (p.dropWhile inAuthority) with
            | some port, some path =>
                some
                  { https := https
                    host := cString host
                    hostZero := zeroFree_cString host
                    port := port
                    path := path }
            | _, _ => none

def sameEndpoint (a b : HttpUrl) : Bool :=
  a.https == b.https && a.port == b.port && strcasecmp a.host b.host == 0

/-!
# Links
-/

def schemeText (https : Bool) : Text :=
  if https then ascii "https" else ascii "http"

/-- The host as it stands in an address and in a request. -/
def hostAndPort (u : HttpUrl) : Text :=
  let bracketed := if u.host.contains 58 then ascii "[" ++ u.host ++ ascii "]" else u.host
  if u.port ≠ schemePort u.https then bracketed ++ ascii ":" ++ intText u.port else bracketed

def urlOrigin (u : HttpUrl) : Text :=
  schemeText u.https ++ ascii "://" ++ hostAndPort u

/-- The path up to its last slash, without a query. -/
def urlDir (path : Text) : Text :=
  (path.takeWhile (fun b => b != 63)).rdropWhile (fun b => b != 47)

/-- {lit}`while (strncmp(h, "./", 2) == 0) h += 2` -/
def withoutDots : Text -> Text
  | 46 :: 47 :: rest => withoutDots rest
  | href => href

def resolvedText (base href : Text) : Option Text :=
  if startsWithCi "http://" href || startsWithCi "https://" href then some (copied 2048 href)
  else if href.take 2 = ascii "//" then
    some (copied 2048 (schemeText (startsWithCi "https" base) ++ ascii ":" ++ href))
  else
    match httpUrlParse base with
    | none => none
    | some bu =>
        let origin := copied 320 (urlOrigin bu)
        if href.head? = some 47 then some (copied 2048 (origin ++ href))
        else some (copied 2048 (origin ++ urlDir bu.path ++ withoutDots href))

/-- {lit}`url_resolve` -/
def urlResolve (base href : Text) (outSz : Nat) : Option Text :=
  match resolvedText base href with
  | none => none
  | some tmp =>
      let out := tmp.takeWhile (fun b => b != 35)
      if outSz ≤ out.length then none else some out

end Http
end PkgManager

/-!
# Percent-encoding

A byte that is not unreserved is written as a percent sign and two digits.  The encoder stops
before a byte for which there may be no room.
-/

namespace PkgManager
namespace Http

open CString
open PkgManager.Parser

/-- The value of a hexadecimal digit. -/
def hexval (b : UInt8) : Option Nat :=
  if 48 ≤ b.toNat ∧ b.toNat ≤ 57 then some (b.toNat - 48)
  else if 97 ≤ b.toNat ∧ b.toNat ≤ 102 then some (b.toNat - 87)
  else if 65 ≤ b.toNat ∧ b.toNat ≤ 70 then some (b.toNat - 55)
  else none

/-- A text with all its bytes decoded. -/
def pctDecoded : Text -> Text
  | [] => []
  | 37 :: high :: low :: rest =>
      match hexval high, hexval low with
      | some h, some l => UInt8.ofNat (h * 16 + l) :: pctDecoded rest
      | _, _ => 37 :: pctDecoded (high :: low :: rest)
  | b :: rest => b :: pctDecoded rest

/-- {lit}`pct_decode`: each step writes one byte, until the buffer is full. -/
def pctDecode (outSz : Nat) (text : Text) : Text :=
  (pctDecoded text).take (outSz - 1)

def isUnreserved (b : UInt8) : Bool :=
  decide (48 ≤ b.toNat ∧ b.toNat ≤ 57) || decide (65 ≤ b.toNat ∧ b.toNat ≤ 90) ||
    decide (97 ≤ b.toNat ∧ b.toNat ≤ 122) || b == 45 || b == 95 || b == 46 || b == 126 || b == 47

def upperHex (n : Nat) : UInt8 :=
  (ascii "0123456789ABCDEF").getD n 0

def pctPiece (c : UInt8) : Text :=
  if isUnreserved c then [c] else [37, upperHex (c.toNat / 16), upperHex (c.toNat % 16)]

/-- The loop from a place in the buffer on. -/
def pctEncodeFrom (outSz : Nat) : Nat -> Text -> Text
  | _, [] => []
  | o, c :: rest =>
      if c = 0 ∨ outSz ≤ o + 4 then []
      else pctPiece c ++ pctEncodeFrom outSz (o + (pctPiece c).length) rest

/-- {lit}`pct_encode_path` -/
def pctEncodePath (outSz : Nat) (text : Text) : Text :=
  pctEncodeFrom outSz 0 text

/-- A text with all its bytes encoded. -/
def pctEncoded (text : Text) : Text :=
  text.flatMap pctPiece

/-!
# Room for the encoded text
-/

theorem pctPiece_pos (c : UInt8) : 0 < (pctPiece c).length := by
  unfold pctPiece
  split <;> simp

theorem length_le_pctEncoded (text : Text) : text.length ≤ (pctEncoded text).length := by
  induction text with
  | nil => exact Nat.le_refl 0
  | cons c rest ih =>
      have hpos := pctPiece_pos c
      rw [pctEncoded, List.flatMap_cons, List.length_append, List.length_cons]
      rw [pctEncoded] at ih
      omega

/-- An encoded text is whole, or it reaches the last bytes of the buffer. -/
theorem pctEncodeFrom_whole_or_full (outSz : Nat) {o : Nat} {text : Text} (hzero : ZeroFree text) :
    pctEncodeFrom outSz o text = pctEncoded text ∨
      outSz ≤ o + (pctEncodeFrom outSz o text).length + 4 := by
  induction text generalizing o with
  | nil => exact Or.inl rfl
  | cons c rest ih =>
      unfold pctEncodeFrom
      by_cases hfull : outSz ≤ o + 4
      · rw [if_pos (Or.inr hfull)]
        exact Or.inr hfull
      · rw [if_neg (fun h => h.elim (hzero c List.mem_cons_self) hfull)]
        rcases ih (o := o + (pctPiece c).length) (fun b hb => hzero b (List.mem_cons_of_mem c hb))
          with hwhole | hlong
        · left
          rw [hwhole, pctEncoded, pctEncoded, List.flatMap_cons]
        · right
          rw [List.length_append]
          omega

/-- A text that the buffer has room for is encoded to its end. -/
theorem pctEncodeFrom_whole {outSz o : Nat} {text : Text} (hzero : ZeroFree text)
    (hroom : o + (pctEncoded text).length + 3 < outSz) :
    pctEncodeFrom outSz o text = pctEncoded text := by
  induction text generalizing o with
  | nil => rfl
  | cons c rest ih =>
      have hpos := pctPiece_pos c
      have hsplit : pctEncoded (c :: rest) = pctPiece c ++ pctEncoded rest := by
        rw [pctEncoded, pctEncoded, List.flatMap_cons]
      rw [hsplit, List.length_append] at hroom
      unfold pctEncodeFrom
      rw [if_neg (fun h => h.elim (hzero c List.mem_cons_self) (by omega)), hsplit,
        ih (fun b hb => hzero b (List.mem_cons_of_mem c hb)) (by omega)]

/-!
# There and back
-/

theorem hexval_upperHex {n : Nat} (h : n < 16) : hexval (upperHex n) = some n := by
  revert n
  decide

theorem pctDecoded_plain {b : UInt8} (h : b ≠ 37) (rest : Text) :
    pctDecoded (b :: rest) = b :: pctDecoded rest := by
  rw [pctDecoded]
  intro high low rest' hb
  exact absurd hb h

theorem pctPiece_decoded (c : UInt8) (rest : Text) :
    pctDecoded (pctPiece c ++ rest) = c :: pctDecoded rest := by
  unfold pctPiece
  split
  · rename_i h
    apply pctDecoded_plain
    rintro rfl
    exact absurd h (by decide)
  · have hlow : c.toNat % 16 < 16 := Nat.mod_lt _ (by decide)
    have hhigh : c.toNat / 16 < 16 := Nat.div_lt_of_lt_mul c.toNat_lt
    have hvalue : UInt8.ofNat (c.toNat / 16 * 16 + c.toNat % 16) = c := by
      rw [Nat.div_add_mod', UInt8.ofNat_toNat]
    change pctDecoded (37 :: upperHex (c.toNat / 16) :: upperHex (c.toNat % 16) :: rest) = _
    rw [pctDecoded]
    simp only [hexval_upperHex hlow, hexval_upperHex hhigh, hvalue]

theorem pctEncoded_decoded (text : Text) : pctDecoded (pctEncoded text) = text := by
  induction text with
  | nil => rfl
  | cons c rest ih => rw [pctEncoded, List.flatMap_cons, pctPiece_decoded, <- pctEncoded, ih]

/-!
# Bytes of an encoded text
-/

theorem pctPiece_bytes {b c : UInt8} (h : b ∈ pctPiece c) : b = 37 ∨ isUnreserved b = true := by
  unfold pctPiece at h
  split at h
  · rename_i hplain
    rw [List.mem_singleton.mp h]
    exact Or.inr hplain
  · have hlow : c.toNat % 16 < 16 := Nat.mod_lt _ (by decide)
    have hhigh : c.toNat / 16 < 16 := Nat.div_lt_of_lt_mul c.toNat_lt
    have hdigit : forall n, n < 16 -> isUnreserved (upperHex n) = true := by decide
    simp only [List.mem_cons, List.not_mem_nil, or_false] at h
    rcases h with rfl | rfl | rfl
    · exact Or.inl rfl
    · exact Or.inr (hdigit _ hhigh)
    · exact Or.inr (hdigit _ hlow)

/-- A slash stays what it is, and there are no others. -/
theorem slash_mem_pctPiece {c : UInt8} : (47 : UInt8) ∈ pctPiece c ↔ c = 47 := by
  constructor
  · intro h
    unfold pctPiece at h
    split at h
    · exact (List.mem_singleton.mp h).symm
    · have hlow : c.toNat % 16 < 16 := Nat.mod_lt _ (by decide)
      have hhigh : c.toNat / 16 < 16 := Nat.div_lt_of_lt_mul c.toNat_lt
      have hdigit : forall n, n < 16 -> upperHex n ≠ 47 := by decide
      simp only [List.mem_cons, List.not_mem_nil, or_false] at h
      rcases h with h | h | h
      · exact absurd h (by decide)
      · exact absurd h.symm (hdigit _ hhigh)
      · exact absurd h.symm (hdigit _ hlow)
  · rintro rfl
    decide

end Http
end PkgManager
