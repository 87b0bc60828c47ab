import PkgManager.Scanner.Quick

/-!
# Shares in a JSON document

The objects of the list {lit}`smb_shares` are found by their braces; the fields of
an object are found by their keys, as plain text.  An object is stored at the
place that the number of accepted shares gives, before it is known whether the
object is accepted.
-/

namespace PkgManager
namespace Smb

open CString
open PkgManager.Parser
open PkgManager.Scanner (SmbShareConfig)

/-- {lit}`smb_share_config_t` -/
structure SmbShare extends SmbShareConfig where
  username : Text
  password : Text
  workgroup : Text
  isReadOnly : Bool
deriving DecidableEq

def maxSmbShares : Nat := 8

def smbDefaultPort : Int := 445

def blankShare : SmbShare where
  enabled := true
  browseOnly := false
  id := []
  label := []
  server := []
  port := smbDefaultPort
  share := []
  path := []
  username := []
  password := []
  workgroup := []
  isReadOnly := false

/-!
# Fields
-/

def digitsValue (digits : Text) : Nat :=
  digits.foldl (fun n b => 10 * n + (b.toNat - 48)) 0

/-- The value of {lit}`strtol` as an {lit}`int`. -/
def atoi (text : Text) : Int :=
  let body := text.dropWhile isSpace
  let negative := body.head? == some 45
  let unsigned := if negative || body.head? == some 43 then body.drop 1 else body
  let value : Int := digitsValue (unsigned.takeWhile isDigit)
  Int.bmod (if negative then max (-value) (-2 ^ 63) else min value (2 ^ 63 - 1)) (2 ^ 32)

/-- {lit}`while (*p == ' ' || *p == '\t') p++` -/
def skipBlanks (p : Text) : Text :=
  p.dropWhile (fun b => b == 32 || b == 9)

/-- The bytes of a string with room for {lit}`room` bytes; a backslash is dropped. -/
def quotedField : Nat -> Text -> Text
  | 0, _ => []
  | _ + 1, [] => []
  | room + 1, b :: rest =>
      if b == 0 || b == quote then []
      else if b == backslash then
        match rest with
        | [] => [b]
        | c :: rest => if c == 0 then [b] else c :: quotedField room rest
      else b :: quotedField room rest

def endsBareField (b : UInt8) : Bool :=
  b == 0 || b == 44 || b == 125 || b == 10 || b == 13 || b == 32

def bareField (room : Nat) (p : Text) : Text :=
  (p.takeWhile (fun b => !endsBareField b)).take room

def fieldValue (outMax : Nat) (p : Text) : Text :=
  match p with
  | [] => []
  | b :: rest => if b == quote then quotedField (outMax - 1) rest else bareField (outMax - 1) p

def extractJsonField (json : Text) (key : String) (outMax : Nat) : Text :=
  match strstr (quoted key ++ [58]) json with
  | none => []
  | some found => fieldValue outMax (skipBlanks (found.drop (quoted key ++ [58]).length))

def isTrueText (text : Text) : Bool :=
  text == ascii "true" || text == ascii "1"

def portField (item : Text) : Int :=
  let val := extractJsonField item "port" 64
  if val ≠ [] ∧ 0 < atoi val then atoi val else smbDefaultPort

def enabledField (item : Text) : Bool :=
  let val := extractJsonField item "enabled" 64
  if val = [] then true else isTrueText val

def shareOfItem (item : Text) : SmbShare where
  enabled := enabledField item
  browseOnly := isTrueText (extractJsonField item "browse_only" 64)
  id := extractJsonField item "id" 32
  label := extractJsonField item "label" 64
  server := extractJsonField item "server" 128
  port := portField item
  share := extractJsonField item "share" 128
  path := extractJsonField item "path" 256
  username := extractJsonField item "username" 64
  password := extractJsonField item "password" 64
  workgroup := extractJsonField item "workgroup" 64
  isReadOnly := isTrueText (extractJsonField item "is_read_only" 64)

/-- A share without a name is taken when the server has a slash. -/
def accepted (share : SmbShare) : Bool :=
  share.server != [] && (share.share != [] || share.server.contains 47 ||
    share.server.contains backslash)

def withId (count : Nat) (share : SmbShare) : SmbShare :=
  if share.id = [] then { share with id := ascii "smb" ++ intText count } else share

/-!
# Objects
-/

/-- The object from here to its closing brace, and what stands behind it.  A brace in
a string does not close the object. -/
def objectText (inStr esc : Bool) : Text -> Option (Text × Text)
  | [] => none
  | b :: rest =>
      let further (s e : Bool) := (objectText s e rest).map (fun o => (b :: o.1, o.2))
      if b == 0 then none
      else if esc then further inStr false
      else if b == backslash && inStr then further inStr true
      else if b == quote then further (!inStr) false
      else if !inStr && b == 125 then some ([b], rest)
      else if !inStr && b == 93 then none
      else further inStr false

theorem objectText_parts {inStr esc : Bool} {p : Text} {o : Text × Text}
    (h : objectText inStr esc p = some o) : o.1 ++ o.2 = p ∧ o.1 ≠ [] := by
  induction p generalizing inStr esc o with
  | nil => cases h
  | cons b rest ih =>
      have hfurther : forall s e : Bool,
          (objectText s e rest).map (fun o => (b :: o.1, o.2)) = some o ->
            o.1 ++ o.2 = b :: rest ∧ o.1 ≠ [] := by
        intro s e hs
        rcases Option.map_eq_some_iff.mp hs with ⟨next, hnext, heq⟩
        subst heq
        constructor
        · exact congrArg (b :: ·) (ih hnext).1
        · exact List.cons_ne_nil _ _
      simp only [objectText] at h
      split at h
      · cases h
      · split at h
        · exact hfurther _ _ h
        · split at h
          · exact hfurther _ _ h
          · split at h
            · exact hfurther _ _ h
            · split at h
              · cases h
                exact ⟨rfl, List.cons_ne_nil _ _⟩
              · split at h
                · cases h
                · exact hfurther _ _ h

theorem objectText_shorter {p : Text} {o : Text × Text} (h : objectText false false p = some o) :
    o.2.length < p.length := by
  rcases objectText_parts h with ⟨hparts, hne⟩
  have hpos := List.length_pos_iff.mpr hne
  rw [<- hparts, List.length_append]
  omega

/-- The objects of a list, from behind its bracket on. -/
def listObjects (arr : Text) : List Text :=
  if arr.head? = none ∨ arr.head? = some 0 ∨ arr.head? = some 93 then []
  else
    match _hstart : strchr 123 arr with
    | none => []
    | some start =>
        match _hobj : objectText false false start with
        | none => []
        | some o => o.1 :: listObjects o.2
termination_by arr.length
decreasing_by
  exact (objectText_shorter _hobj).trans_le (strchr_suffix _hstart).length_le

def shareObjects (buf : Text) : List Text :=
  match strstr (quoted "smb_shares") buf with
  | none => []
  | some key =>
      match strchr 91 key with
      | none => []
      | some arr => listObjects (arr.drop 1)

/-!
# What is stored
-/

/-- The elements that were written, in order, and the number of shares. -/
structure Parsed where
  writes : List (Nat × SmbShare)
  count : Nat
deriving DecidableEq

def storeObject (out : Parsed) (item : Text) : Parsed :=
  if out.count < maxSmbShares then
    let share := shareOfItem item
    if accepted share then
      { writes := out.writes ++ [(out.count, withId out.count share)], count := out.count + 1 }
    else { writes := out.writes ++ [(out.count, share)], count := out.count }
  else out

def parseSmbShares (buf : Text) : Parsed :=
  (shareObjects buf).foldl storeObject { writes := [], count := 0 }

end Smb
end PkgManager
