import PkgManager.Smb.Shares

/-!
# Bodies of SMB requests

Three requests read one share from their body.  Each passes an array of one
element to the parser of a list of shares, which limits itself to eight.  The array is left
when an object follows one that was accepted.
-/

namespace PkgManager
namespace Smb

open CString
open PkgManager.Parser

/-- The element of the array after the writes. -/
def Parsed.element (out : Parsed) (i : Nat) : Option SmbShare :=
  (out.writes.reverse.find? (fun w => w.1 == i)).map Prod.snd

/-- A body that is no list of shares is made one. -/
def bodyBuffer (body : Text) : Text :=
  if (strstr (quoted "smb_shares") body).isSome then body
  else ascii "\x7b\"smb_shares\":[" ++ cString body ++ ascii "]\x7d"

def extractJsonStringValue (json : Text) (key : String) (outMax : Nat) : Option Text :=
  match strstr (quoted key) json with
  | none => none
  | some p =>
      match strchr 58 (p.drop (quoted key).length) with
      | none => none
      | some colon =>
          (strchr quote colon).map (fun q => quotedField (outMax - 1) (q.drop 1))

/-- The field of a record of zeros. -/
def bodyField (body : Text) (key : String) (outMax : Nat) : Text :=
  (extractJsonStringValue body key outMax).getD []

def bodyPort (body : Text) : Int :=
  match strstr (quoted "port") body with
  | none => smbDefaultPort
  | some pp =>
      match strchr 58 (pp.drop 6) with
      | none => smbDefaultPort
      | some colon =>
          let p := atoi ((colon.drop 1).dropWhile (fun b => b == 32 || b == 9 || b == quote))
          if 0 < p then p else smbDefaultPort

def bodyPath (body : Text) : Text :=
  if bodyField body "browse_path" 256 ≠ [] then bodyField body "browse_path" 256
  else if bodyField body "subpath" 256 ≠ [] then bodyField body "subpath" 256
  else bodyField body "path" 256

def looseShare (body : Text) : SmbShare :=
  { blankShare with
    id := bodyField body "id" 32
    label := bodyField body "label" 64
    server := bodyField body "server" 128
    port := bodyPort body
    share := bodyField body "share" 128
    path := bodyPath body
    username := bodyField body "username" 64
    password := bodyField body "password" 64
    workgroup := bodyField body "workgroup" 64 }

/-- The share that was stored first, when there is one. -/
def firstShare (body : Text) : Option SmbShare :=
  let out := parseSmbShares (bodyBuffer body)
  if 0 < out.count then out.element 0 else none

/-- {lit}`smb_cfg_from_body` -/
def smbCfgFromBody (body : Text) : SmbShare :=
  if cString body = [] then blankShare
  else (firstShare body).getD (looseShare body)

/-- The share that {lit}`/api/smb/test` goes on with; there may be no body. -/
def testCfg (body : Option Text) : SmbShare :=
  match body with
  | none => blankShare
  | some body => (firstShare body).getD blankShare

/-!
# The calls of the parser
-/

inductive Request where
  | test
  | shares
  | browse
deriving DecidableEq

/-- The buffer that the parser is called with and the length of the array. -/
def parserCall : Request -> Option Text -> Option (Text × Nat)
  | .test, none => none
  | .test, some body => some (bodyBuffer body, 1)
  | .shares, body | .browse, body =>
      if cString (body.getD []) = [] then none else some (bodyBuffer (body.getD []), 1)

/-- Every element that is written is in the array, and so are all that are counted. -/
def Inside (length : Nat) (out : Parsed) : Prop :=
  (forall w, w ∈ out.writes -> w.1 < length) ∧ out.count ≤ length

instance (length : Nat) (out : Parsed) : Decidable (Inside length out) :=
  inferInstanceAs (Decidable ((forall w, w ∈ out.writes -> w.1 < length) ∧ out.count ≤ length))

def acceptedItem (item : Text) : Bool :=
  accepted (shareOfItem item)

theorem storeObject_full {out : Parsed} (h : maxSmbShares ≤ out.count) (item : Text) :
    storeObject out item = out := by
  simp [storeObject, Nat.not_lt.mpr h]

theorem storeObject_count {out : Parsed} (h : out.count < maxSmbShares) (item : Text) :
    (storeObject out item).count = out.count + if acceptedItem item then 1 else 0 := by
  cases hitem : acceptedItem item <;> simp_all [storeObject, acceptedItem]

theorem storeObject_writes {out : Parsed} (h : out.count < maxSmbShares) (item : Text) :
    exists share, (storeObject out item).writes = out.writes ++ [(out.count, share)] := by
  cases hitem : acceptedItem item <;> simp_all [storeObject, acceptedItem]

theorem inside_of_stored {length : Nat} {out : Parsed} {item : Text}
    (h : Inside length (storeObject out item)) : Inside length out := by
  rcases Nat.lt_or_ge out.count maxSmbShares with hroom | hfull
  · rcases h with ⟨hwrites, hcount⟩
    rcases storeObject_writes hroom item with ⟨share, heq⟩
    constructor
    · intro w hw
      apply hwrites
      rw [heq]
      exact List.mem_append_left _ hw
    · rw [storeObject_count hroom] at hcount
      exact (Nat.le_add_right _ _).trans hcount
  · rw [storeObject_full hfull] at h
    exact h

theorem inside_of_foldl {length : Nat} {out : Parsed} (items : List Text)
    (h : Inside length (items.foldl storeObject out)) : Inside length out := by
  induction items generalizing out with
  | nil => exact h
  | cons item rest ih => exact inside_of_stored (ih h)

/-- An object is stored inside when the accepted ones so far leave a place. -/
theorem inside_storeObject {length : Nat} {out : Parsed} (item : Text)
    (hroom : out.count < maxSmbShares) :
    Inside length (storeObject out item) ↔ Inside length out ∧ out.count < length := by
  rcases storeObject_writes hroom item with ⟨share, heq⟩
  constructor
  · intro h
    constructor
    · exact inside_of_stored h
    · apply h.1 (out.count, share)
      rw [heq]
      exact List.mem_append_right _ List.mem_cons_self
  · intro h
    rcases h with ⟨⟨hwrites, _⟩, hlt⟩
    constructor
    · intro w hw
      rw [heq] at hw
      rcases List.mem_append.mp hw with hw | hw
      · exact hwrites w hw
      · rw [List.mem_singleton.mp hw]
        exact hlt
    · rw [storeObject_count hroom]
      split
      · exact hlt
      · exact hlt.le

/-- With less room the objects before the last must leave a place. -/
theorem inside_of_short {length : Nat} {out : Parsed} (items : List Text)
    (hshort : length < maxSmbShares) (h : Inside length out) :
    Inside length (items.foldl storeObject out) ↔
      (items = [] ∨ out.count + items.dropLast.countP acceptedItem < length) := by
  have hroom : out.count < maxSmbShares := h.2.trans_lt hshort
  induction items generalizing out with
  | nil => simp [h]
  | cons item rest ih =>
      rw [List.foldl_cons]
      constructor
      · intro hin
        right
        have hstored := inside_of_foldl rest hin
        have hlt := ((inside_storeObject item hroom).mp hstored).2
        rcases (ih hstored (hstored.2.trans_lt hshort)).mp hin with hnil | hcount
        · rw [hnil]
          exact hlt
        · rw [storeObject_count hroom] at hcount
          cases rest with
          | nil => exact hlt
          | cons next rest =>
              rw [List.dropLast_cons_cons, List.countP_cons]
              omega
      · intro hcond
        rcases hcond with hnil | hcount
        · cases hnil
        · have hlt : out.count < length := by omega
          have hstored := (inside_storeObject item hroom).mpr ⟨h, hlt⟩
          apply (ih hstored (hstored.2.trans_lt hshort)).mpr
          cases rest with
          | nil => exact Or.inl rfl
          | cons next rest =>
              right
              rw [storeObject_count hroom]
              rw [List.dropLast_cons_cons, List.countP_cons] at hcount
              omega

theorem inside_nothing (length : Nat) : Inside length { writes := [], count := 0 } := by
  constructor
  · intro w hw
    cases hw
  · exact Nat.zero_le _

/-- The parser stays inside the array of the request. -/
def StaysInside (request : Request) (body : Option Text) : Prop :=
  forall call, parserCall request body = some call -> Inside call.2 (parseSmbShares call.1)

/-- The objects that the parser is shown. -/
def shownObjects (request : Request) (body : Option Text) : List Text :=
  match parserCall request body with
  | none => []
  | some call => shareObjects call.1

theorem parserCall_length {request : Request} {body : Option Text} {call : Text × Nat}
    (h : parserCall request body = some call) : call.2 = 1 := by
  cases request with
  | test =>
      cases body with
      | none => cases h
      | some body =>
          cases h
          rfl
  | shares =>
      rcases Option.ite_none_left_eq_some.mp h with ⟨_, hcall⟩
      cases hcall
      rfl
  | browse =>
      rcases Option.ite_none_left_eq_some.mp h with ⟨_, hcall⟩
      cases hcall
      rfl

/-- The array is kept exactly when no object follows one that is accepted. -/
theorem staysInside_iff (request : Request) (body : Option Text) :
    StaysInside request body ↔
      forall item, item ∈ (shownObjects request body).dropLast -> acceptedItem item = false := by
  unfold StaysInside shownObjects
  cases hcall : parserCall request body with
  | none => simp
  | some call =>
      have hone := parserCall_length hcall
      have hshort := inside_of_short (shareObjects call.1)
        (show 1 < maxSmbShares by decide) (inside_nothing 1)
      have hcount : ((shareObjects call.1).dropLast.countP acceptedItem = 0) ↔
          forall item, item ∈ (shareObjects call.1).dropLast -> acceptedItem item = false := by
        simp [List.countP_eq_zero]
      constructor
      · intro h
        have hin := h call rfl
        rw [hone] at hin
        rcases hshort.mp hin with hnil | hlt
        · intro item hitem
          change item ∈ (shareObjects call.1).dropLast at hitem
          rw [hnil] at hitem
          cases hitem
        · apply hcount.mp
          omega
      · intro h other hother
        cases hother
        rw [hone]
        apply hshort.mpr
        right
        rw [hcount.mpr h]
        exact Nat.one_pos

/-- Two shares in the body of a test: the second is written behind the array. -/
theorem second_share_outside :
    Not (StaysInside .test (some (ascii
      "\x7b\"server\":\"a\",\"share\":\"b\"\x7d,\x7b\"server\":\"c\",\"share\":\"d\"\x7d"))) := by
  intro h
  have hin := h _ rfl
  revert hin
  decide +kernel

end Smb
end PkgManager
