import Mathlib.Data.List.Basic

/-!
# Values that are handed on

A holder keeps a value that it was given itself or that was handed on to it from another holder.
With each holder goes the one that the value was given to first, and whether it was handed on by
its handle on the way, that is, without a look at the holder.
-/

namespace Custody

structure Held (α : Type) where
  config : α
  home : α
  byId : Bool

variable {α : Type}

def Held.own (c : α) : Held α where
  config := c
  home := c
  byId := false

/-- The value is taken from another holder, if there is one. -/
def Held.taken (c : α) (byId : α -> Bool) : Option (Held α) -> Held α
  | none => Held.own c
  | some d => { config := c, home := d.home, byId := d.byId || byId d.config }

def Held.move (h : Held α) (c : α) : Held α :=
  { h with config := c }

@[simp] theorem taken_config (c : α) (byId : α -> Bool) (donor : Option (Held α)) :
    (Held.taken c byId donor).config = c := by
  cases donor with
  | none => rfl
  | some d => rfl

/-- The holder that a value is taken from. -/
def donorOf (p : α -> Bool) (held : List (Held α)) : Option (Held α) :=
  held.find? (fun h => p h.config)

theorem donorOf_config (p : α -> Bool) (held : List (Held α)) :
    (donorOf p held).map Held.config = (held.map Held.config).find? p := by
  rw [List.find?_map]
  rfl

/-!
# At home
-/

/-- The holder is related to the one that the value was given to. -/
def InHome (R : α -> α -> Prop) (h : Held α) : Prop :=
  h.byId = true ∨ R h.config h.home

section
variable {R : α -> α -> Prop}

theorem inHome_own {c : α} (h : R c c) : InHome R (Held.own c) :=
  Or.inr h

theorem InHome.move (htrans : forall {a b c : α}, R a b -> R b c -> R a c) {h : Held α}
    (hhome : InHome R h) {c : α} (hc : R c h.config) : InHome R (h.move c) := by
  rcases hhome with hid | hsame
  · exact Or.inl hid
  · exact Or.inr (htrans hc hsame)

/-- What is handed on without its handle goes to a related holder. -/
theorem inHome_taken (htrans : forall {a b c : α}, R a b -> R b c -> R a c) {c : α}
    {byId : α -> Bool} {donor : Option (Held α)} (hown : R c c)
    (hdonor : forall d, donor = some d ->
      InHome R d ∧ (byId d.config = false -> R c d.config)) :
    InHome R (Held.taken c byId donor) := by
  cases donor with
  | none => exact inHome_own hown
  | some d =>
      rcases hdonor d rfl with ⟨hhome, hsame⟩
      cases hid : byId d.config with
      | true =>
          left
          change (d.byId || byId d.config) = true
          rw [hid, Bool.or_true]
      | false =>
          rcases hhome with hmoved | hstays
          · left
            change (d.byId || byId d.config) = true
            rw [hmoved, Bool.true_or]
          · exact Or.inr (htrans (hsame hid) hstays)

end

end Custody
