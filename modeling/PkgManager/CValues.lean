import Mathlib.Algebra.Order.Ring.Int
import Mathlib.Data.List.Basic
import Mathlib.Tactic.Common

/-!
# Values of the C program

Unsigned 64-bit sums, conversions to {lit}`int`, and the string functions of the
C library that the program uses.  A C string is a {lit}`String`; the copies into
fixed buffers cut it.
-/

namespace PkgManager

def u64 (n : Nat) : Nat := n % 2 ^ 64

/-- The conversion of an unsigned value to a 32-bit {lit}`int`. -/
def cInt (n : Nat) : Int := Int.bmod n (2 ^ 32)

theorem u64_of_lt {n : Nat} (h : n < 2 ^ 64) : u64 n = n :=
  Nat.mod_eq_of_lt h

theorem u64_lt (n : Nat) : u64 n < 2 ^ 64 :=
  Nat.mod_lt n (by decide)

theorem cInt_of_lt {n : Nat} (h : n < 2 ^ 31) : cInt n = n := by
  unfold cInt
  rw [Int.bmod_def]
  omega

/-- A copy into a buffer of {lit}`cap` bytes, the terminating zero included. -/
def cTruncate (cap : Nat) (text : String) : String :=
  String.ofList (text.toList.take (cap - 1))

theorem cTruncate_of_lt {cap : Nat} {text : String} (h : text.toList.length < cap) :
    cTruncate cap text = text := by
  unfold cTruncate
  rw [List.take_of_length_le (by omega), String.ofList_toList]

/-- The part of a path after the last slash. -/
def baseName (path : String) : String :=
  String.ofList (path.toList.reverse.takeWhile (fun c => c != '/')).reverse

/-- {lit}`strncmp(path, pre, strlen(pre)) == 0` -/
def hasPrefix (pre path : String) : Bool :=
  pre.toList.isPrefixOf path.toList

def lowerCase (chars : List Char) : List Char :=
  chars.map Char.toLower

/-- {lit}`strcasecmp(a, b) == 0` -/
def caseEq (a b : String) : Bool :=
  lowerCase a.toList == lowerCase b.toList

/-- {lit}`strncasecmp(text, pre, strlen(pre)) == 0` -/
def hasPrefixCase (pre text : List Char) : Bool :=
  (lowerCase pre).isPrefixOf (lowerCase text)

/-- {lit}`strtoul` in base ten: the value and the rest of the text, which is the
whole text when there is no digit. -/
def strtoul (text : List Char) : Nat × List Char :=
  let body := text.dropWhile (fun c => c == ' ' || decide (9 ≤ c.toNat ∧ c.toNat ≤ 13))
  let negative := body.head? == some '-'
  let unsigned :=
    if body.head? == some '-' || body.head? == some '+' then body.drop 1 else body
  let digits := unsigned.takeWhile Char.isDigit
  let value := digits.foldl (fun n c => 10 * n + (c.toNat - '0'.toNat)) 0
  if digits.isEmpty then (0, text)
  else if value ≥ 2 ^ 64 then (2 ^ 64 - 1, unsigned.drop digits.length)
  else if negative then (u64 (2 ^ 64 - value), unsigned.drop digits.length)
  else (value, unsigned.drop digits.length)

end PkgManager
