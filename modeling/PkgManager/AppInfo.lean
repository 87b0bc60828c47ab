import PkgManager.CValues

/-!
# Versions of installed applications

How {lit}`app_info.c` compares two versions.
-/

namespace PkgManager

/-- A {lit}`%d` of {lit}`sscanf`: the number and the text behind it. -/
def scanInt (text : List Char) : Option (Int × List Char) :=
  let body := text.dropWhile (fun c => c == ' ' || decide (9 ≤ c.toNat ∧ c.toNat ≤ 13))
  let unsigned :=
    if body.head? == some '-' || body.head? == some '+' then body.drop 1 else body
  let digits := unsigned.takeWhile Char.isDigit
  let value := digits.foldl (fun n c => 10 * n + (c.toNat - '0'.toNat)) 0
  let signed : Int :=
    if body.head? == some '-' then -(min value (2 ^ 63) : Nat) else (min value (2 ^ 63 - 1) : Nat)
  if digits.isEmpty then none
  else some (Int.bmod signed (2 ^ 32), unsigned.drop digits.length)

/-- The same behind a dot. -/
def scanDotInt (text : List Char) : Option (Int × List Char) :=
  if text.head? == some '.' then scanInt (text.drop 1) else none

structure VersionParts where
  major : Int
  minor : Int
  patch : Int
deriving DecidableEq

/-- {lit}`parse_version_parts` -/
def parseVersionParts (version : String) : VersionParts :=
  let v := version.toList.dropWhile
    (fun c => c == 'v' || c == 'V' || c == ' ' || decide (9 ≤ c.toNat ∧ c.toNat ≤ 13))
  match scanInt v with
  | none => { major := 0, minor := 0, patch := 0 }
  | some (a, rest) =>
      match scanDotInt rest with
      | none => { major := a, minor := 0, patch := 0 }
      | some (b, rest) =>
          match scanDotInt rest with
          | none => { major := a, minor := b, patch := 0 }
          | some (c, _) =>
              if b = 0 ∧ c > 0 then { major := a, minor := c, patch := 0 }
              else { major := a, minor := b, patch := c }

/-- {lit}`app_info_compare_versions` -/
def compareVersions (versionA versionB : String) : Int :=
  let a := parseVersionParts versionA
  let b := parseVersionParts versionB
  if a.major ≠ b.major then Int.bmod (a.major - b.major) (2 ^ 32)
  else if a.minor ≠ b.minor then Int.bmod (a.minor - b.minor) (2 ^ 32)
  else Int.bmod (a.patch - b.patch) (2 ^ 32)

example : compareVersions "v01.26" "1.5" = 21 := by
  decide

end PkgManager
