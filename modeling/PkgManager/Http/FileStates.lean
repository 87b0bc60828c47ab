import PkgManager.Collections.Probing
import PkgManager.Http.Index

/-!
# The state of each file

The size that a catalog promises and the availability are kept by address, in a table that is
searched place by place.  Over few enough addresses it keeps one record for each of them.
-/

namespace PkgManager
namespace Http

open PkgManager.Parser

/-- {lit}`HTTP_STATE_SLOTS` -/
def httpStateSlots : Nat := 8192

/-- {lit}`file_state_t`: an entry whose key is zero is empty. -/
structure FileState where
  key : UInt64
  expectedSize : Nat
  unavailable : Bool
deriving DecidableEq

def FileState.empty : FileState where
  key := 0
  expectedSize := 0
  unavailable := false

/-- {lit}`g_fstate` -/
abbrev FileStates :=
  Nat -> FileState

def FileStates.start : FileStates :=
  fun _ => FileState.empty

def fstateKey (url : Text) : UInt64 :=
  if fnv1a64 url = 0 then 1 else fnv1a64 url

def fstateLoop (t : FileStates) (key : UInt64) (create : Bool) :
    Nat -> Nat -> Option Nat × FileStates
  | 0, _ => (none, t)
  | tries + 1, idx =>
      if (t idx).key = key then (some idx, t)
      else if (t idx).key = 0 then
        if create = false then (none, t)
        else (some idx, Function.update t idx { t idx with key := key })
      else fstateLoop t key create tries ((idx + 1) % httpStateSlots)

/-- {lit}`fstate_find`: the place of the entry, and the table, where one may have been made. -/
def fstateFind (t : FileStates) (url : Text) (create : Bool) : Option Nat × FileStates :=
  fstateLoop t (fstateKey url) create httpStateSlots ((fstateKey url).toNat % httpStateSlots)

/-- A change of the entry of an address, if there is one. -/
def fstateWrite (t : FileStates) (url : Text) (create : Bool) (write : FileState -> FileState) :
    FileStates :=
  match fstateFind t url create with
  | (some idx, t) => Function.update t idx (write (t idx))
  | (none, t) => t

def fstateRead {α : Type} (t : FileStates) (url : Text) (read : FileState -> α) (default : α) : α :=
  match (fstateFind t url false).1 with
  | some idx => read (t idx)
  | none => default

def httpSourceSetUnavailable (t : FileStates) (url : Text) (unavailable : Bool) : FileStates :=
  fstateWrite t url unavailable (fun e => { e with unavailable := unavailable })

def httpSourceIsUnavailable (t : FileStates) (url : Text) : Bool :=
  fstateRead t url FileState.unavailable false

def expectedSizeSet (t : FileStates) (url : Text) (size : Nat) : FileStates :=
  fstateWrite t url (decide (size ≠ 0)) (fun e => { e with expectedSize := size })

def httpSourceExpectedSize (t : FileStates) (url : Text) : Nat :=
  fstateRead t url FileState.expectedSize 0

/-!
# Records
-/

/-- What is recorded of an address. -/
structure FileRecord where
  expectedSize : Nat
  unavailable : Bool
deriving DecidableEq

def FileRecord.blank : FileRecord where
  expectedSize := 0
  unavailable := false

def FileState.record (e : FileState) : FileRecord where
  expectedSize := e.expectedSize
  unavailable := e.unavailable

/-- What the lookups say of an address. -/
def recordOf (t : FileStates) (url : Text) : FileRecord where
  expectedSize := httpSourceExpectedSize t url
  unavailable := httpSourceIsUnavailable t url

theorem fstateKey_ne_zero (url : Text) : fstateKey url ≠ 0 := by
  unfold fstateKey
  split
  · exact UInt64.zero_ne_one.symm
  · assumption

/-- The key that an entry holds. -/
def FileState.held (e : FileState) : Option UInt64 :=
  if e.key = 0 then none else some e.key

theorem held_eq_some {e : FileState} {key : UInt64} (hkey : key ≠ 0) :
    e.held = some key ↔ e.key = key := by
  unfold FileState.held
  split
  · rename_i hzero
    rw [hzero]
    exact ⟨fun h => (Option.some_ne_none _ h.symm).elim, fun h => (hkey h.symm).elim⟩
  · exact Option.some_inj

theorem held_eq_none {e : FileState} : e.held = none ↔ e.key = 0 := by
  unfold FileState.held
  split
  · rename_i hzero
    exact ⟨fun _ => hzero, fun _ => rfl⟩
  · rename_i hne
    exact ⟨fun h => (Option.some_ne_none _ h).elim, fun h => (hne h).elim⟩

/-- The tables of the library, over the entries and keys of this one. -/
abbrev Chained (t : FileStates) : Prop :=
  Probing.Chained FileState.held httpStateSlots UInt64.toNat t

abbrev Ends (t : FileStates) (key : UInt64) (idx : Nat) : Prop :=
  Probing.Ends FileState.held httpStateSlots UInt64.toNat t key idx

theorem fstateLoop_eq (t : FileStates) {key : UInt64} (hkey : key ≠ 0) (create : Bool)
    (tries idx : Nat) :
    fstateLoop t key create tries idx =
      match Probing.probe FileState.held httpStateSlots t key tries idx with
      | none => (none, t)
      | some idx =>
          if (t idx).key = key then (some idx, t)
          else if create = false then (none, t)
          else (some idx, Function.update t idx { t idx with key := key }) := by
  induction tries generalizing idx with
  | zero => rfl
  | succ tries ih =>
      rw [fstateLoop, Probing.probe]
      by_cases hheld : (t idx).key = key
      · rw [(held_eq_some hkey).mpr hheld, if_pos hheld]
        dsimp only
        rw [if_pos rfl]
        dsimp only
        rw [if_pos hheld]
      · rw [if_neg hheld]
        by_cases hfree : (t idx).key = 0
        · rw [held_eq_none.mpr hfree, if_pos hfree]
          dsimp only
          rw [if_neg hheld]
        · have hother : (t idx).held = some (t idx).key := (held_eq_some hfree).mpr rfl
          rw [hother, if_neg hfree, ih]
          dsimp only
          rw [if_neg hheld]

theorem fstateFind_of_ends {t : FileStates} {url : Text} {idx : Nat}
    (h : Ends t (fstateKey url) idx) (create : Bool) :
    fstateFind t url create =
      if (t idx).key = fstateKey url then (some idx, t)
      else if create = false then (none, t)
      else (some idx, Function.update t idx { t idx with key := fstateKey url }) := by
  have hsearch : Probing.probe FileState.held httpStateSlots t (fstateKey url) httpStateSlots
      ((fstateKey url).toNat % httpStateSlots) = some idx := h.search_eq
  unfold fstateFind
  rw [fstateLoop_eq t (fstateKey_ne_zero url), hsearch]

/-!
# Tables over few addresses
-/

/-- A table that holds keys of these addresses only, and nothing where there is no key. -/
structure Sound (urls : Finset Text) (t : FileStates) : Prop where
  chained : Chained t
  known : forall idx, idx < httpStateSlots -> forall key, (t idx).held = some key ->
    key ∈ urls.image fstateKey
  blank : forall idx, (t idx).key = 0 -> (t idx).record = FileRecord.blank

theorem sound_start (urls : Finset Text) : Sound urls FileStates.start where
  chained := by
    constructor
    intro idx key _ hheld
    rw [held_eq_none.mpr rfl] at hheld
    cases hheld
  known := by
    intro idx _ key hheld
    rw [held_eq_none.mpr rfl] at hheld
    cases hheld
  blank := fun _ _ => rfl

variable {urls : Finset Text} {t : FileStates}

theorem Sound.room (h : Sound urls t) (hfew : urls.card < httpStateSlots) :
    exists idx, idx < httpStateSlots ∧ (t idx).held = none :=
  h.chained.room (Finset.card_image_le.trans_lt hfew) h.known

/-- Every search ends. -/
theorem Sound.ends (h : Sound urls t) (hfew : urls.card < httpStateSlots) (url : Text) :
    exists idx, Ends t (fstateKey url) idx := by
  by_cases hheld : exists idx, idx < httpStateSlots ∧ (t idx).held = some (fstateKey url)
  · rcases hheld with ⟨idx, hidx, hkey⟩
    exact ⟨idx, h.chained.ends hidx hkey⟩
  · rcases Probing.ends_of_absent UInt64.toNat
      (fun idx hidx hkey => hheld ⟨idx, hidx, hkey⟩) (h.room hfew) with ⟨idx, hends, _⟩
    exact ⟨idx, hends⟩

theorem fstateRead_of_ends {α : Type} {url : Text} {idx : Nat} (h : Ends t (fstateKey url) idx)
    (read : FileState -> α) (default : α) :
    fstateRead t url read default =
      if (t idx).key = fstateKey url then read (t idx) else default := by
  unfold fstateRead
  rw [fstateFind_of_ends h]
  by_cases hheld : (t idx).key = fstateKey url
  · rw [if_pos hheld, if_pos hheld]
  · rw [if_neg hheld, if_neg hheld, if_pos rfl]

theorem Ends.free_or_held {url : Text} {idx : Nat} (h : Ends t (fstateKey url) idx) :
    (t idx).key = 0 ∨ (t idx).key = fstateKey url :=
  h.found.imp held_eq_none.mp (held_eq_some (fstateKey_ne_zero url)).mp

theorem Sound.recordOf_eq (hsound : Sound urls t) {url : Text} {idx : Nat}
    (h : Ends t (fstateKey url) idx) : recordOf t url = (t idx).record := by
  unfold recordOf httpSourceExpectedSize httpSourceIsUnavailable
  rw [fstateRead_of_ends h, fstateRead_of_ends h]
  by_cases hheld : (t idx).key = fstateKey url
  · rw [if_pos hheld, if_pos hheld]
    rfl
  · have hfree := (Ends.free_or_held h).resolve_right hheld
    rw [if_neg hheld, if_neg hheld, hsound.blank idx hfree]
    rfl

theorem Sound.recordOf_eq_lookup (hsound : Sound urls t) (hfew : urls.card < httpStateSlots)
    (url : Text) :
    recordOf t url =
      ((Probing.lookup FileState.held httpStateSlots UInt64.toNat t (fstateKey url)).map
        FileState.record).getD FileRecord.blank := by
  rcases hsound.ends hfew url with ⟨idx, hends⟩
  rw [hsound.recordOf_eq hends]
  unfold Probing.lookup
  rw [hends.search_eq, Option.bind_some]
  rcases Ends.free_or_held hends with hfree | hheld
  · have hne : (t idx).held ≠ some (fstateKey url) := by
      rw [held_eq_none.mpr hfree]
      exact (Option.some_ne_none _).symm
    rw [if_neg hne, hsound.blank idx hfree]
    rfl
  · rw [if_pos ((held_eq_some (fstateKey_ne_zero url)).mpr hheld)]
    rfl

/-!
# Changes

A change of one record leaves the others as they are.
-/

/-- A change of an entry that changes its record so, and where nothing is to be made leaves a
blank record blank. -/
structure Changes (create : Bool) (write : FileState -> FileState)
    (change : FileRecord -> FileRecord) : Prop where
  key : forall e, (write e).key = e.key
  record : forall e, (write e).record = change e.record
  blank : create = false -> change FileRecord.blank = FileRecord.blank

variable {create : Bool} {write : FileState -> FileState} {change : FileRecord -> FileRecord}

/-- Either nothing is to be done, or the entry is written where the search ends. -/
theorem fstateWrite_cases (hchanges : Changes create write change) (hsound : Sound urls t)
    {url : Text} {idx : Nat} (h : Ends t (fstateKey url) idx) :
    fstateWrite t url create write = t ∧ change (recordOf t url) = recordOf t url ∨
      exists e, fstateWrite t url create write = Function.update t idx e ∧
        e.key = fstateKey url ∧ e.record = change (recordOf t url) := by
  rw [hsound.recordOf_eq h]
  unfold fstateWrite
  rw [fstateFind_of_ends h]
  by_cases hheld : (t idx).key = fstateKey url
  · rw [if_pos hheld]
    exact Or.inr ⟨write (t idx), rfl, (hchanges.key _).trans hheld, hchanges.record _⟩
  · have hfree := (Ends.free_or_held h).resolve_right hheld
    rw [if_neg hheld]
    cases create with
    | false =>
        left
        rw [hsound.blank idx hfree]
        exact ⟨rfl, hchanges.blank rfl⟩
    | true =>
        right
        rw [if_neg Bool.true_eq_false_eq_False]
        dsimp only
        rw [Function.update_self, Function.update_idem]
        exact ⟨_, rfl, hchanges.key _, hchanges.record _⟩

theorem Sound.fstateWrite (hsound : Sound urls t) (hfew : urls.card < httpStateSlots)
    (hchanges : Changes create write change) {url : Text} (hurl : url ∈ urls) :
    Sound urls (fstateWrite t url create write) := by
  rcases hsound.ends hfew url with ⟨idx, hends⟩
  rcases fstateWrite_cases hchanges hsound hends with ⟨hsame, _⟩ | ⟨e, hwrite, hkey, _⟩
  · rw [hsame]
    exact hsound
  · rw [hwrite]
    have hheld : e.held = some (fstateKey url) :=
      (held_eq_some (fstateKey_ne_zero url)).mpr hkey
    constructor
    · exact hsound.chained.update hends hheld
    · intro idx' hidx' key hkey'
      by_cases hat : idx' = idx
      · rw [hat, Function.update_self, hheld] at hkey'
        cases hkey'
        exact Finset.mem_image_of_mem fstateKey hurl
      · rw [Function.update_of_ne hat] at hkey'
        exact hsound.known idx' hidx' key hkey'
    · intro idx' hfree
      by_cases hat : idx' = idx
      · rw [hat, Function.update_self, hkey] at hfree
        exact absurd hfree (fstateKey_ne_zero url)
      · rw [Function.update_of_ne hat] at hfree ⊢
        exact hsound.blank idx' hfree

/-- The record of the address is changed. -/
theorem recordOf_write_self (hsound : Sound urls t) (hfew : urls.card < httpStateSlots)
    (hchanges : Changes create write change) {url : Text} (hurl : url ∈ urls) :
    recordOf (fstateWrite t url create write) url = change (recordOf t url) := by
  have hafter := hsound.fstateWrite hfew hchanges hurl
  rcases hsound.ends hfew url with ⟨idx, hends⟩
  rcases fstateWrite_cases hchanges hsound hends with ⟨hsame, hrecord⟩ | ⟨e, hwrite, hkey, hrecord⟩
  · rw [hsame, hrecord]
  · rw [hafter.recordOf_eq_lookup hfew, hwrite,
      hsound.chained.lookup_update_self hends ((held_eq_some (fstateKey_ne_zero url)).mpr hkey),
      <- hrecord]
    rfl

/-- The record of another address is not. -/
theorem recordOf_write_of_ne (hsound : Sound urls t) (hfew : urls.card < httpStateSlots)
    (hchanges : Changes create write change) {url url' : Text} (hurl : url ∈ urls)
    (hne : fstateKey url' ≠ fstateKey url) :
    recordOf (fstateWrite t url create write) url' = recordOf t url' := by
  have hafter := hsound.fstateWrite hfew hchanges hurl
  rcases hsound.ends hfew url with ⟨idx, hends⟩
  rcases fstateWrite_cases hchanges hsound hends with ⟨hsame, _⟩ | ⟨e, hwrite, hkey, _⟩
  · rw [hsame]
  · rw [hafter.recordOf_eq_lookup hfew, hsound.recordOf_eq_lookup hfew]
    have hroom := hafter.room hfew
    rw [hwrite] at hroom ⊢
    rw [hsound.chained.lookup_update_of_ne hends
      ((held_eq_some (fstateKey_ne_zero url)).mpr hkey) hne hroom]

theorem changes_unavailable (unavailable : Bool) :
    Changes unavailable (fun e => { e with unavailable := unavailable })
      (fun r => { r with unavailable := unavailable }) where
  key := fun _ => rfl
  record := fun _ => rfl
  blank := by
    intro hfalse
    rw [hfalse]
    rfl

theorem changes_size (size : Nat) :
    Changes (decide (size ≠ 0)) (fun e => { e with expectedSize := size })
      (fun r => { r with expectedSize := size }) where
  key := fun _ => rfl
  record := fun _ => rfl
  blank := by
    intro hzero
    rw [of_not_not (of_decide_eq_false hzero)]
    rfl

end Http
end PkgManager
