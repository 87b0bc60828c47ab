import PkgManager.Bytes.CString
import PkgManager.Bytes.Endian

/-!
# Checked memory

A pointer is the list of the bytes from there to the end of its object.  A step that would
leave the object has no result, so a run with a result has stayed inside.
-/

namespace Checked

open CString
open Endian

/-- Some bytes that are read together. -/
def block (n : Nat) (p : List UInt8) : Option (List UInt8) :=
  if n ≤ p.length then some (p.take n) else none

def readLe16 (p : List UInt8) : Option Nat :=
  (block 2 p).map ofLittleEndian

def readLe32 (p : List UInt8) : Option Nat :=
  (block 4 p).map ofLittleEndian

/-- {lit}`p + n` -/
def advance (n : Nat) (p : List UInt8) : Option (List UInt8) :=
  if n ≤ p.length then some (p.drop n) else none

/-- {lit}`memchr(p, c, n) != NULL` -/
def memchr (c : UInt8) : Nat -> List UInt8 -> Option Bool
  | 0, _ => some false
  | _ + 1, [] => none
  | n + 1, b :: rest => if b = c then some true else memchr c n rest

/-- {lit}`strcmp(text, p) == 0` -/
def strcmp : List UInt8 -> List UInt8 -> Option Bool
  | _, [] => none
  | [], b :: _ => some (b == 0)
  | c :: text, b :: rest => if b = c then strcmp text rest else some false

/-!
# Steps that stay inside
-/

theorem block_of_le {n : Nat} {p : List UInt8} (h : n ≤ p.length) : block n p = some (p.take n) :=
  if_pos h

theorem readLe16_of_le {p : List UInt8} (h : 2 ≤ p.length) :
    readLe16 p = some (ofLittleEndian (p.take 2)) := by
  rw [readLe16, block_of_le h, Option.map_some]

theorem readLe32_of_le {p : List UInt8} (h : 4 ≤ p.length) :
    readLe32 p = some (ofLittleEndian (p.take 4)) := by
  rw [readLe32, block_of_le h, Option.map_some]

theorem advance_of_le {n : Nat} {p : List UInt8} (h : n ≤ p.length) :
    advance n p = some (p.drop n) :=
  if_pos h

theorem advance_some {n : Nat} {p q : List UInt8} (h : advance n p = some q) : q = p.drop n := by
  unfold advance at h
  split at h
  · exact (Option.some.inj h).symm
  · cases h

theorem memchr_of_le {c : UInt8} {n : Nat} {p : List UInt8} (h : n ≤ p.length) :
    memchr c n p = some (decide (c ∈ p.take n)) := by
  induction n generalizing p with
  | zero => simp [memchr]
  | succ n ih =>
      cases p with
      | nil => cases h
      | cons b rest =>
          unfold memchr
          by_cases hb : b = c
          · simp [hb]
          · rw [if_neg hb, ih (Nat.le_of_succ_le_succ h)]
            simp [Ne.symm hb]

/-- A comparison stays in a text that ends. -/
theorem strcmp_ended {text p : List UInt8} (htext : ZeroFree text) (h : 0 ∈ p) :
    strcmp text p = some (decide (cString p = text)) := by
  induction text generalizing p with
  | nil =>
      cases p with
      | nil => cases h
      | cons b rest =>
          unfold strcmp
          by_cases hb : b = 0 <;> simp [cString, hb]
  | cons c text ih =>
      have hc := htext c List.mem_cons_self
      cases p with
      | nil => cases h
      | cons b rest =>
          unfold strcmp
          by_cases hb : b = c
          · have hzero : b ≠ 0 := hb ▸ hc
            have hrest : 0 ∈ rest := (List.mem_cons.mp h).resolve_left (Ne.symm hzero)
            have htake : cString (b :: rest) = b :: cString rest :=
              List.takeWhile_cons_of_pos (by simpa using hzero)
            rw [if_pos hb, ih (fun x hx => htext x (List.mem_cons_of_mem c hx)) hrest, htake]
            simp [hb]
          · rw [if_neg hb]
            by_cases hzero : b = 0 <;> simp [cString, hzero, hb]

end Checked
