import Mathlib.Data.List.Basic
import Mathlib.Data.List.Infix
import Mathlib.Tactic.Common

/-!
# Messages on a byte stream

A stream carries no borders between messages.  Every byte is tagged with the
serial number of its message; nobody reads the tags.  What was taken and what is
still to come of a message are together a beginning of it.
-/

namespace Channel

structure Sent where
  byte : UInt8
  serial : Nat
deriving DecidableEq

def tagged (serial : Nat) (bytes : List UInt8) : List Sent :=
  bytes.map (fun b => { byte := b, serial := serial })

def content (sent : List Sent) : List UInt8 :=
  sent.map Sent.byte

@[simp] theorem length_tagged (serial : Nat) (bytes : List UInt8) :
    (tagged serial bytes).length = bytes.length :=
  List.length_map _

@[simp] theorem content_tagged (serial : Nat) (bytes : List UInt8) :
    content (tagged serial bytes) = bytes := by
  unfold content tagged
  rw [List.map_map]
  exact List.map_id bytes

theorem tagged_ne_nil {serial : Nat} {bytes : List UInt8} (h : bytes ≠ []) :
    tagged serial bytes ≠ [] := by
  intro hnil
  exact h (List.map_eq_nil_iff.mp hnil)

/-- A beginning of a message as long as the message is the message. -/
theorem taken_all {taken coming message : List Sent}
    (h : (taken ++ coming) <+: message) (hlength : taken.length = message.length) :
    taken = message ∧ coming = [] := by
  have hfirst : taken <+: message := (List.prefix_append taken coming).trans h
  have htaken := hfirst.eq_of_length hlength
  have hle := h.length_le
  rw [List.length_append, hlength] at hle
  have hzero : coming.length = 0 := by omega
  exact ⟨htaken, List.length_eq_zero_iff.mp hzero⟩

/-- Bytes that move from the head of what is to come to the end of what was
taken stay in order. -/
theorem moved (taken coming : List Sent) (count : Nat) :
    (taken ++ coming.take count) ++ coming.drop count = taken ++ coming := by
  rw [List.append_assoc, List.take_append_drop]


end Channel
