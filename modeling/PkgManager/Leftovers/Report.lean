import PkgManager.Bytes.JsonGrammar
import PkgManager.Leftovers.Agreement
import PkgManager.Leftovers.ParamFiles
import PkgManager.Smb.JsonItems

/-!
# The report of the leftovers

The scan prints its list into a buffer that grows.  Titles and paths are escaped; the version
is printed as it was read.
-/

namespace PkgManager
namespace Leftovers

open CString
open JsonText (Derives Document IsInside)
open PkgManager.Parser
open PkgManager.Smb (inQuotes tight itemText elementsText Parts partTexts)

/-!
# The buffer
-/

/-- The buffer with the text so far.  The place behind the text is in it. -/
structure Growing where
  json : Text
  bufSize : Nat
  fits : json.length < bufSize
  /-- How often memory was asked for. -/
  asked : Nat

/-- {lit}`realloc` for a text that was cut. -/
def Growing.grow (b : Growing) (text : Text) : Growing where
  json := b.json
  bufSize := max (b.bufSize * 2) (b.json.length + text.length + 2048)
  fits := Nat.lt_of_lt_of_le b.fits (le_max_of_le_left (Nat.le_mul_of_pos_right _ (by decide)))
  asked := b.asked + 1

def Growing.append (b : Growing) (text : Text) (h : text.length < b.bufSize - b.json.length) :
    Growing where
  json := b.json ++ text
  bufSize := b.bufSize
  fits := by
    rw [List.length_append]
    omega
  asked := b.asked

/-- The loop of {lit}`json_append_grow` with the tries that are left.  {lit}`heap` tells whether
a request for memory is granted. -/
def appendTries (heap : Nat -> Bool) (text : Text) : Nat -> Growing -> Option Growing
  | 0, _ => none
  | tries + 1, b =>
      if h : text.length < b.bufSize - b.json.length then some (b.append text h)
      else if heap b.asked then appendTries heap text tries (b.grow text)
      else none

def jsonAppendGrow (heap : Nat -> Bool) (b : Growing) (text : Text) : Option Growing :=
  appendTries heap text 4 b

/-!
# The scan
-/

/-- The members of an item in front of its paths. -/
def entryMembers (entry : LeftoverEntry) : List (String × Text) :=
  [("title_id", inQuotes entry.titleId),
    ("title_name", inQuotes entry.titleName),
    ("version", inQuotes entry.version),
    ("type", inQuotes entry.type),
    ("total_size", digitsText entry.totalSize)]

def separator (first : Bool) : Text :=
  if first then [] else [44]

def entryHead (first : Bool) (entry : LeftoverEntry) : Text :=
  separator first ++ 123 :: ((entryMembers entry).flatMap
    (fun m => quoted m.1 ++ 58 :: (m.2 ++ [44])) ++ (quoted "paths" ++ [58, 91]))

def appendPaths (heap : Nat -> Bool) : Bool -> List Text -> Growing -> Option Growing
  | _, [], b => some b
  | first, path :: rest, b => do
      let b <- jsonAppendGrow heap b (separator first ++ inQuotes path)
      appendPaths heap false rest b

def appendEntry (heap : Nat -> Bool) (first : Bool) (entry : LeftoverEntry) (b : Growing) :
    Option Growing := do
  let b <- jsonAppendGrow heap b (entryHead first entry)
  let b <- appendPaths heap true entry.paths b
  jsonAppendGrow heap b (ascii "]\x7d")

/-- The loop over the candidates. -/
def appendTitles (heap : Nat -> Bool) (env : Env) (fs : FileState) (installed : Text -> Bool) :
    Nat -> List Text -> Growing -> Option (Nat × Growing)
  | emitted, [], b => some (emitted, b)
  | emitted, tid :: rest, b =>
      match leftoverEntry env fs installed tid with
      | none => appendTitles heap env fs installed emitted rest b
      | some entry => do
          let b <- appendEntry heap (emitted == 0) entry b
          appendTitles heap env fs installed (emitted + 1) rest b

/-- The buffer of 64 KiB, behind the two requests for memory at the start. -/
def startBuffer : Growing where
  json := []
  bufSize := 65536
  fits := by decide
  asked := 2

/-- {lit}`leftovers_scan_json` -/
def leftoversScanJson (heap : Nat -> Bool) (env : Env) (fs : FileState)
    (installed : Text -> Bool) : Option Text :=
  if heap 0 = false then none
  else if heap 1 = false then none
  else do
    let b <- jsonAppendGrow heap startBuffer (ascii "\x7b\"leftovers\":[")
    let (emitted, b) <- appendTitles heap env fs installed 0 (candidateTids env fs) b
    let b <- jsonAppendGrow heap b (ascii "],\"count\":" ++ digitsText emitted ++ ascii "\x7d")
    some b.json

/-!
# What is printed
-/

theorem appendTries_json {heap : Nat -> Bool} {text : Text} {tries : Nat} {b b' : Growing}
    (h : appendTries heap text tries b = some b') : b'.json = b.json ++ text := by
  induction tries generalizing b with
  | zero => cases h
  | succ tries ih =>
      unfold appendTries at h
      split at h
      · cases h
        rfl
      · split at h
        · have hgrown := ih h
          exact hgrown
        · cases h

/-- The text is printed at the second try at the latest. -/
theorem jsonAppendGrow_granted {heap : Nat -> Bool} (hheap : forall n, heap n = true) (b : Growing)
    (text : Text) : exists b', jsonAppendGrow heap b text = some b' := by
  have hgrown : text.length < (b.grow text).bufSize - (b.grow text).json.length := by
    have hmax : b.json.length + text.length + 2048 ≤ (b.grow text).bufSize := le_max_right _ _
    have hjson : (b.grow text).json.length = b.json.length := rfl
    omega
  unfold jsonAppendGrow appendTries
  split
  · exact ⟨_, rfl⟩
  · rw [if_pos (hheap b.asked), appendTries, dif_pos hgrown]
    exact ⟨_, rfl⟩

def pathTexts (first : Bool) : List Text -> Text
  | [] => []
  | path :: rest => separator first ++ inQuotes path ++ pathTexts false rest

theorem pathTexts_elements (paths : List Text) :
    pathTexts true paths = elementsText (paths.map inQuotes) := by
  have hrest : forall rest : List Text,
      pathTexts false rest = (rest.map inQuotes).flatMap (fun o => 44 :: o) := by
    intro rest
    induction rest with
    | nil => rfl
    | cons path rest ih =>
        rw [pathTexts, ih, List.map_cons, List.flatMap_cons]
        rfl
  cases paths with
  | nil => rfl
  | cons path rest =>
      rw [pathTexts, hrest]
      rfl

theorem appendPaths_json {heap : Nat -> Bool} {first : Bool} {paths : List Text} {b b' : Growing}
    (h : appendPaths heap first paths b = some b') :
    b'.json = b.json ++ pathTexts first paths := by
  induction paths generalizing first b with
  | nil =>
      cases h
      exact (List.append_nil _).symm
  | cons path rest ih =>
      rcases Option.bind_eq_some_iff.mp h with ⟨middle, hone, hrest⟩
      rw [ih hrest, appendTries_json hone, pathTexts, List.append_assoc]

/-- An item without the comma in front. -/
def entryText (entry : LeftoverEntry) : Text :=
  entryHead true entry ++ (elementsText (entry.paths.map inQuotes) ++ ascii "]\x7d")

theorem entryHead_separator (first : Bool) (entry : LeftoverEntry) :
    entryHead first entry = separator first ++ entryHead true entry := by
  cases first <;> rfl

theorem appendEntry_json {heap : Nat -> Bool} {first : Bool} {entry : LeftoverEntry}
    {b b' : Growing} (h : appendEntry heap first entry b = some b') :
    b'.json = b.json ++ (separator first ++ entryText entry) := by
  rcases Option.bind_eq_some_iff.mp h with ⟨behindHead, hhead, hrest⟩
  rcases Option.bind_eq_some_iff.mp hrest with ⟨behindPaths, hpaths, hend⟩
  rw [appendTries_json hend, appendPaths_json hpaths, appendTries_json hhead, pathTexts_elements,
    entryHead_separator, entryText]
  simp only [List.append_assoc]

/-- The items, the first without a comma when it is the first of all. -/
def entryTexts (first : Bool) : List LeftoverEntry -> Text
  | [] => []
  | entry :: rest => separator first ++ entryText entry ++ entryTexts false rest

theorem entryTexts_elements (entries : List LeftoverEntry) :
    entryTexts true entries = elementsText (entries.map entryText) := by
  have hrest : forall rest : List LeftoverEntry,
      entryTexts false rest = (rest.map entryText).flatMap (fun o => 44 :: o) := by
    intro rest
    induction rest with
    | nil => rfl
    | cons entry rest ih =>
        rw [entryTexts, ih, List.map_cons, List.flatMap_cons]
        rfl
  cases entries with
  | nil => rfl
  | cons entry rest =>
      rw [entryTexts, hrest]
      rfl

theorem appendTitles_json {heap : Nat -> Bool} {env : Env} {fs : FileState}
    {installed : Text -> Bool} {emitted n : Nat} {tids : List Text} {b b' : Growing}
    (h : appendTitles heap env fs installed emitted tids b = some (n, b')) :
    n = emitted + (tids.filterMap (leftoverEntry env fs installed)).length ∧
      b'.json = b.json ++
        entryTexts (emitted == 0) (tids.filterMap (leftoverEntry env fs installed)) := by
  induction tids generalizing emitted b with
  | nil =>
      cases h
      exact ⟨rfl, (List.append_nil _).symm⟩
  | cons tid rest ih =>
      unfold appendTitles at h
      cases hentry : leftoverEntry env fs installed tid with
      | none =>
          rw [hentry] at h
          rw [List.filterMap_cons_none hentry]
          exact ih h
      | some entry =>
          rw [hentry] at h
          rcases Option.bind_eq_some_iff.mp h with ⟨middle, hone, hrest⟩
          rcases ih hrest with ⟨hn, hjson⟩
          rw [List.filterMap_cons_some hentry, List.length_cons]
          constructor
          · omega
          · rw [hjson, appendEntry_json hone, entryTexts]
            have hmore : (emitted + 1 == 0) = false := rfl
            rw [hmore, List.append_assoc]

/-- The report on a list. -/
def reportText (entries : List LeftoverEntry) : Text :=
  ascii "\x7b\"leftovers\":[" ++ (elementsText (entries.map entryText) ++
    (ascii "],\"count\":" ++ digitsText entries.length ++ ascii "\x7d"))

theorem leftoversScanJson_text {heap : Nat -> Bool} {env : Env} {fs : FileState}
    {installed : Text -> Bool} {text : Text}
    (h : leftoversScanJson heap env fs installed = some text) :
    text = reportText (leftoversScan env fs installed) := by
  unfold leftoversScanJson at h
  split at h
  · cases h
  · split at h
    · cases h
    · rcases Option.bind_eq_some_iff.mp h with ⟨opened, hopen, hrest⟩
      rcases Option.bind_eq_some_iff.mp hrest with ⟨⟨n, listed⟩, hlist, hend⟩
      rcases Option.bind_eq_some_iff.mp hend with ⟨closed, hclose, htext⟩
      rcases appendTitles_json hlist with ⟨hn, hjson⟩
      rw [Nat.zero_add] at hn
      cases htext
      rw [appendTries_json hclose, hjson, appendTries_json hopen, hn]
      change ([] ++ _ ++ entryTexts true _) ++ _ = _
      rw [entryTexts_elements, List.nil_append, List.append_assoc]
      rfl

/-!
# Texts in quotation marks
-/

theorem isInside_letters {text : Text} (h : text.all JsonText.isPrinted = true) : IsInside text :=
  ⟨JsonText.letters text h, (JsonText.inside_letters h).symm⟩

theorem isInside_append {a b : Text} (ha : IsInside a) (hb : IsInside b) : IsInside (a ++ b) := by
  rcases ha with ⟨first, rfl⟩
  rcases hb with ⟨second, rfl⟩
  exact ⟨first ++ second, by simp [JsonText.inside]⟩

theorem isInside_escapedByte (c : UInt8) : IsInside (escapedByte c) := by
  have hshort : forall e : UInt8, e ∈ JsonText.shortEscapes -> IsInside [92, e] :=
    fun e he => ⟨[.short e he], rfl⟩
  unfold escapedByte
  split
  · exact hshort 34 (by decide)
  · rename_i hquote
    split
    · exact hshort 92 (by decide)
    · rename_i hslash
      split
      · exact hshort 110 (by decide)
      · split
        · exact hshort 114 (by decide)
        · split
          · exact hshort 116 (by decide)
          · split
            · rename_i hprinted
              exact ⟨[.plain c hprinted.left ⟨hquote, hslash⟩], rfl⟩
            · exact @isInside_letters [32] rfl

/-- Whatever is escaped may stand in a string, also when it was cut. -/
theorem isInside_escapeJsonStr (maxDst : Nat) (src : Text) :
    IsInside (escapeJsonStr maxDst src) := by
  unfold escapeJsonStr
  generalize 0 = d
  induction src generalizing d with
  | nil => exact ⟨[], rfl⟩
  | cons c rest ih =>
      unfold escapeRest
      split
      · exact ⟨[], rfl⟩
      · exact isInside_append (isInside_escapedByte c) (ih _)

theorem isInside_titleId {id : Text} (h : isValidTitleId id = true) : IsInside id := by
  apply isInside_letters
  unfold isValidTitleId at h
  rw [Bool.and_eq_true] at h
  rw [List.all_eq_true]
  intro b hb
  have halnum := List.all_eq_true.mp h.2 b hb
  have hmarks : forall c : UInt8, isAlnum c = false -> b ≠ c := by
    rintro c hc rfl
    rw [halnum] at hc
    cases hc
  have hprinted : 32 ≤ b.toNat := by
    simp only [isAlnum, isDigit, Bool.or_eq_true, decide_eq_true_eq] at halnum
    omega
  simp [JsonText.isPrinted, hprinted, hmarks 34 rfl, hmarks 92 rfl]

theorem isInside_leftoverType (hasPatch hasAddcont : Bool) :
    IsInside (leftoverType hasPatch hasAddcont) := by
  apply isInside_letters
  revert hasPatch hasAddcont
  decide

theorem derives_inQuotes {text : Text} (h : IsInside text) :
    exists v, Derives (inQuotes text) (.value v) := by
  rcases h with ⟨pieces, rfl⟩
  exact ⟨_, Derives.string pieces⟩

/-- What the texts of an item need, besides that of the version. -/
structure LeftoverEntry.Printable (entry : LeftoverEntry) : Prop where
  titleId : IsInside entry.titleId
  titleName : IsInside entry.titleName
  type : IsInside entry.type
  paths : forall path, path ∈ entry.paths -> IsInside path

theorem candidateTids_valid {env : Env} {fs : FileState} {tid : Text}
    (h : tid ∈ candidateTids env fs) : isValidTitleId tid = true := by
  have hfold : forall (names tids : List Text),
      (forall t, t ∈ tids -> isValidTitleId t = true) ->
        forall t, t ∈ names.foldl noteCandidate tids -> isValidTitleId t = true := by
    intro names
    induction names with
    | nil => exact fun tids htids => htids
    | cons name rest ih =>
        intro tids htids
        rw [List.foldl_cons]
        refine ih _ (fun t ht => ?_)
        unfold noteCandidate at ht
        split at ht
        · exact htids t ht
        · split at ht
          · rename_i hnote
            rw [Bool.and_eq_true, Bool.and_eq_true] at hnote
            rcases List.mem_append.mp ht with hold | hnew
            · exact htids t hold
            · rw [List.mem_singleton.mp hnew, copied_valid hnote.1.1]
              exact hnote.1.1
          · exact htids t ht
  exact hfold _ [] (fun t ht => absurd ht List.not_mem_nil) tid h

theorem leftoversScan_printable {env : Env} {fs : FileState} {installed : Text -> Bool}
    {entry : LeftoverEntry} (h : entry ∈ leftoversScan env fs installed) : entry.Printable := by
  have hvalid := candidateTids_valid (mem_leftoversScan h).left
  rcases List.mem_filterMap.mp h with ⟨tid, _, hentry⟩
  unfold leftoverEntry at hentry
  split at hentry
  · cases hentry
  · split at hentry
    · cases hentry
    · dsimp only at hentry
      split at hentry
      · cases hentry
      · cases hentry
        refine ⟨isInside_titleId hvalid, isInside_escapeJsonStr 512 _, isInside_leftoverType _ _,
          fun path hpath => ?_⟩
        rcases List.mem_map.mp hpath with ⟨src, _, rfl⟩
        exact isInside_escapeJsonStr 512 src

/-!
# Items that stand for objects
-/

def entryParts (entry : LeftoverEntry) (titleId titleName version type : JsonText.Value)
    (paths : List JsonText.Value) : List (String × Text × JsonText.Value) :=
  [("title_id", inQuotes entry.titleId, titleId),
    ("title_name", inQuotes entry.titleName, titleName),
    ("version", inQuotes entry.version, version),
    ("type", inQuotes entry.type, type),
    ("total_size", digitsText entry.totalSize, .number (digitsText entry.totalSize)),
    ("paths", 91 :: (elementsText (entry.paths.map inQuotes) ++ [93]), .array paths)]

theorem itemText_entry (entry : LeftoverEntry) (titleId titleName version type : JsonText.Value)
    (paths : List JsonText.Value) :
    itemText tight (partTexts (entryParts entry titleId titleName version type paths)) =
      entryText entry := by
  have htexts : partTexts (entryParts entry titleId titleName version type paths) =
      entryMembers entry ++
        [("paths", 91 :: (elementsText (entry.paths.map inQuotes) ++ [93]))] := rfl
  have hend : ascii "]\x7d" = [93] ++ [125] := rfl
  rw [itemText, htexts, Smb.membersText_concat, entryText, entryHead, hend]
  simp [separator]

theorem derives_paths {paths : List Text} (h : forall path, path ∈ paths -> IsInside path) :
    exists vs, Derives (91 :: (elementsText (paths.map inQuotes) ++ [93])) (.value (.array vs)) := by
  have hparts : exists parts : List (Text × JsonText.Value), paths.map inQuotes =
      parts.map Prod.fst ∧ forall p, p ∈ parts -> Derives p.1 (.value p.2) := by
    induction paths with
    | nil => exact ⟨[], rfl, fun p hp => absurd hp List.not_mem_nil⟩
    | cons path rest ih =>
        rcases ih (fun x hx => h x (List.mem_cons_of_mem path hx)) with ⟨parts, htexts, hall⟩
        rcases derives_inQuotes (h path List.mem_cons_self) with ⟨v, hv⟩
        exact ⟨(inQuotes path, v) :: parts, congrArg (List.cons _) htexts,
          List.forall_mem_cons.mpr ⟨hv, hall⟩⟩
  rcases hparts with ⟨parts, htexts, hall⟩
  rw [htexts]
  exact ⟨_, Derives.array (Smb.derives_elements hall)⟩

theorem derives_entry {entry : LeftoverEntry} (h : entry.Printable)
    (hversion : IsInside entry.version) : exists v, Derives (entryText entry) (.value v) := by
  rcases derives_inQuotes h.titleId with ⟨titleId, htitleId⟩
  rcases derives_inQuotes h.titleName with ⟨titleName, htitleName⟩
  rcases derives_inQuotes hversion with ⟨version, hversion⟩
  rcases derives_inQuotes h.type with ⟨type, htype⟩
  rcases derives_paths h.paths with ⟨paths, hpaths⟩
  have hparts : Parts (entryParts entry titleId titleName version type paths) := by
    constructor
    · have hkeys : (["title_id", "title_name", "version", "type", "total_size", "paths"].all
          (fun key => (ascii key).all JsonText.isPrinted)) = true := by decide
      intro p hp
      exact List.all_eq_true.mp hkeys p.1 (List.mem_map_of_mem (f := Prod.fst) hp)
    · unfold entryParts
      simp only [List.forall_mem_cons, List.not_mem_nil, false_implies, implies_true, and_true]
      exact ⟨htitleId, htitleName, hversion, htype,
        Derives.number (Smb.isNumber_digitsText _), hpaths⟩
  have hitem := hparts.item
  rw [itemText_entry] at hitem
  exact ⟨_, hitem⟩

/-- A report whose count is the number of its entries. -/
def ValidReport (text : Text) : Prop :=
  exists vs, Document text (.object
    [(ascii "leftovers", .array vs), (ascii "count", .number (digitsText vs.length))])

theorem validReport_of_inside {entries : List LeftoverEntry}
    (h : forall entry, entry ∈ entries -> entry.Printable ∧ IsInside entry.version) :
    ValidReport (reportText entries) := by
  have hparts : exists parts : List (Text × JsonText.Value), entries.map entryText =
      parts.map Prod.fst ∧ forall p, p ∈ parts -> Derives p.1 (.value p.2) := by
    induction entries with
    | nil => exact ⟨[], rfl, fun p hp => absurd hp List.not_mem_nil⟩
    | cons entry rest ih =>
        rcases ih (fun x hx => h x (List.mem_cons_of_mem entry hx)) with ⟨parts, htexts, hall⟩
        have hentry := h entry List.mem_cons_self
        rcases derives_entry hentry.left hentry.right with ⟨v, hv⟩
        exact ⟨(entryText entry, v) :: parts, congrArg (List.cons _) htexts,
          List.forall_mem_cons.mpr ⟨hv, hall⟩⟩
  rcases hparts with ⟨parts, htexts, hall⟩
  have hcount : (parts.map Prod.snd).length = entries.length := by
    have hlen := congrArg List.length htexts
    rw [List.length_map, List.length_map] at hlen
    rw [List.length_map, hlen]
  have hwhole : Parts
      [("leftovers", 91 :: (elementsText (parts.map Prod.fst) ++ [93]),
          .array (parts.map Prod.snd)),
        ("count", digitsText entries.length, .number (digitsText entries.length))] := by
    constructor
    · have hkeys : (["leftovers", "count"].all
          (fun key => (ascii key).all JsonText.isPrinted)) = true := by decide
      intro p hp
      exact List.all_eq_true.mp hkeys p.1 (List.mem_map_of_mem (f := Prod.fst) hp)
    · simp only [List.forall_mem_cons, List.not_mem_nil, false_implies, implies_true, and_true]
      exact ⟨Derives.array (Smb.derives_elements hall),
        Derives.number (Smb.isNumber_digitsText _)⟩
  have hitem := hwhole.item
  have htext : itemText tight (partTexts
      [("leftovers", 91 :: (elementsText (parts.map Prod.fst) ++ [93]),
          JsonText.Value.array (parts.map Prod.snd)),
        ("count", digitsText entries.length, .number (digitsText entries.length))]) =
      reportText entries := by
    have hstart : ascii "\x7b\"leftovers\":[" = 123 :: (quoted "leftovers" ++ [58, 91]) := rfl
    have hmiddle : ascii "],\"count\":" = 93 :: 44 :: (quoted "count" ++ [58]) := rfl
    have hend : ascii "\x7d" = [125] := rfl
    change 123 :: (quoted "leftovers" ++ 58 :: ((91 :: (elementsText _ ++ [93])) ++ ([44] ++
      (quoted "count" ++ 58 :: (digitsText entries.length ++ [125]))))) = _
    rw [reportText, htexts, hstart, hmiddle, hend]
    simp
  rw [htext] at hitem
  refine ⟨parts.map Prod.snd, ?_⟩
  rw [hcount]
  exact JsonText.document_of_derives hitem

/-!
# Versions that leave their string
-/

/-- What is behind the first letter of the key that follows the version. -/
def versionTail (entry : LeftoverEntry) : Text :=
  ascii "ype\"" ++ 58 :: (inQuotes entry.type ++ 44 :: (quoted "total_size" ++ 58 ::
    (digitsText entry.totalSize ++ 44 :: (quoted "paths" ++ 58 :: 91 ::
      (elementsText (entry.paths.map inQuotes) ++ ascii "]\x7d")))))

theorem entryText_version (entry : LeftoverEntry) : entryText entry =
    123 :: (quoted "title_id" ++ 58 :: (inQuotes entry.titleId ++ 44 :: (quoted "title_name" ++
      58 :: (inQuotes entry.titleName ++ 44 :: (quoted "version" ++ 58 :: 34 ::
        (entry.version ++ 34 :: 44 :: 34 :: 116 :: versionTail entry)))))) := by
  have htype : quoted "type" = 34 :: 116 :: ascii "ype\"" := rfl
  have hversion : inQuotes entry.version = 34 :: (entry.version ++ [34]) := rfl
  unfold entryText entryHead entryMembers versionTail
  rw [List.flatMap_cons, List.flatMap_cons, List.flatMap_cons, List.flatMap_cons, htype, hversion]
  simp [separator]

theorem follow_inQuotes {text : Text} (h : IsInside text) :
    JsonText.follow .between (inQuotes text) = some .closed := by
  rcases h with ⟨pieces, rfl⟩
  exact JsonText.follow_string pieces

theorem follow_quoted {key : String} (h : (ascii key).all JsonText.isPrinted = true) :
    JsonText.follow .between (quoted key) = some .closed := by
  rw [Smb.quoted_stringText h]
  exact JsonText.follow_string _

theorem follow_member {key : String} (hkey : (ascii key).all JsonText.isPrinted = true)
    {text : Text} (h : IsInside text) (rest : Text) :
    JsonText.follow .between (quoted key ++ 58 :: (inQuotes text ++ 44 :: rest)) =
      JsonText.follow .between rest := by
  have hclosed : JsonText.Spot.Resting .closed := Or.inr rfl
  rw [JsonText.follow_then (follow_quoted hkey),
    JsonText.follow_mark hclosed (Or.inr (Or.inl rfl)), JsonText.follow_then (follow_inQuotes h),
    JsonText.follow_mark hclosed (Or.inl rfl)]

/-- Where an item can be followed, its version closes no string and leaves none open. -/
theorem version_inside {entry : LeftoverEntry} (h : entry.Printable) (hquote : 34 ∉ entry.version)
    {behind : Text} {s : JsonText.Spot}
    (hs : JsonText.follow .between (entryText entry ++ behind) = some s) :
    IsInside entry.version := by
  have htext : entryText entry ++ behind =
      123 :: (quoted "title_id" ++ 58 :: (inQuotes entry.titleId ++ 44 :: (quoted "title_name" ++
        58 :: (inQuotes entry.titleName ++ 44 :: (quoted "version" ++ 58 :: 34 ::
          (entry.version ++ 34 :: 44 :: 34 :: 116 :: (versionTail entry ++ behind))))))) := by
    rw [entryText_version]
    simp
  rw [htext] at hs
  change JsonText.follow .between (quoted "title_id" ++ 58 :: _) = some s at hs
  rw [follow_member (by decide) h.titleId, follow_member (by decide) h.titleName,
    JsonText.follow_then (follow_quoted (by decide)),
    JsonText.follow_mark (Or.inr rfl) (Or.inr (Or.inl rfl))] at hs
  exact JsonText.inside_of_follow hquote (by decide) hs

theorem versions_inside {entries : List LeftoverEntry}
    (h : forall entry, entry ∈ entries -> entry.Printable ∧ 34 ∉ entry.version) {behind : Text}
    {s : JsonText.Spot}
    (hs : JsonText.follow .between (elementsText (entries.map entryText) ++ behind) = some s) :
    forall entry, entry ∈ entries -> IsInside entry.version := by
  have hrest : forall (rest : List LeftoverEntry) (start : JsonText.Spot), start.Resting ->
      (forall entry, entry ∈ rest -> entry.Printable ∧ 34 ∉ entry.version) ->
        JsonText.follow start ((rest.map entryText).flatMap (fun o => 44 :: o) ++ behind) = some s ->
          forall entry, entry ∈ rest -> IsInside entry.version := by
    intro rest
    induction rest with
    | nil => exact fun _ _ _ _ entry hentry => absurd hentry List.not_mem_nil
    | cons first rest ih =>
        intro start hstart hall hfollow
        rw [List.map_cons, List.flatMap_cons, List.cons_append, List.cons_append,
          List.append_assoc, JsonText.follow_mark hstart (Or.inl rfl)] at hfollow
        have hfirst := hall first List.mem_cons_self
        have hinside := version_inside hfirst.left hfirst.right hfollow
        rcases derives_entry hfirst.left hinside with ⟨v, hv⟩
        rcases JsonText.follow_derives hv with ⟨next, hnext, hresting⟩
        rw [JsonText.follow_then hnext] at hfollow
        exact List.forall_mem_cons.mpr ⟨hinside, ih next hresting
          (fun entry hentry => hall entry (List.mem_cons_of_mem first hentry)) hfollow⟩
  cases entries with
  | nil => exact fun entry hentry => absurd hentry List.not_mem_nil
  | cons first rest =>
      have hcomma : JsonText.follow .between (44 :: (elementsText ((first :: rest).map entryText) ++
          behind)) = some s := hs
      refine hrest (first :: rest) .between (Or.inl rfl) h ?_
      change JsonText.follow .between (44 :: (entryText first ++ _) ++ behind) = some s
      exact hcomma

theorem inside_of_document {entries : List LeftoverEntry}
    (h : forall entry, entry ∈ entries -> entry.Printable ∧ 34 ∉ entry.version)
    (hdoc : JsonText.IsDocument (reportText entries)) :
    forall entry, entry ∈ entries -> IsInside entry.version := by
  rcases JsonText.follow_document hdoc with ⟨s, hs⟩
  have hopen : JsonText.follow .between (ascii "\x7b\"leftovers\":[") = some .between := by decide
  rw [reportText, JsonText.follow_then hopen] at hs
  exact versions_inside h hs

/-!
# The files of a disk
-/

/-- What the scan can see: names, sizes, and the bytes of each file that can be opened. -/
structure Disk where
  names : Text -> Option (List Text)
  stat : Text -> Bool
  dirSize : Text -> Nat
  file : Text -> Option (List UInt8)

theorem take_fileMax (bytes : List UInt8) : (bytes.take fileMax).length ≤ fileMax :=
  List.length_take_le fileMax bytes

/-- The three readers on what one {lit}`read` brings. -/
def sfoTitleOf (bytes : List UInt8) : Option Text :=
  (readParamSfoTitle (bytes.take fileMax) 256).get
    (readParamSfoTitle_inside (take_fileMax bytes) 256)

def sfoVersionOf (bytes : List UInt8) : Option Text :=
  (readParamSfoVersionSimple (bytes.take fileMax) 32).get
    (readParamSfoVersionSimple_inside (take_fileMax bytes) 32)

def jsonTitleOf (bytes : List UInt8) : Option Text :=
  (readParamJsonTitle (bytes.take (fileMax - 1)) 256).get
    (readParamJsonTitle_inside (bytes.take (fileMax - 1)) 256)

def Disk.state (disk : Disk) : FileState where
  names := disk.names
  stat := disk.stat
  dirSize := disk.dirSize
  sfoTitle path := (disk.file path).bind sfoTitleOf
  jsonTitle path := (disk.file path).bind jsonTitleOf
  sfoVersion path := (disk.file path).bind sfoVersionOf

/-- The readers have a result on whatever a file holds: no step of them leaves what was read. -/
def ReadsInside (bytes : List UInt8) : Prop :=
  (readParamSfoTitle (bytes.take fileMax) 256).isSome = true ∧
    (readParamSfoVersionSimple (bytes.take fileMax) 32).isSome = true ∧
      (readParamJsonTitle (bytes.take (fileMax - 1)) 256).isSome = true

theorem readsInside (bytes : List UInt8) : ReadsInside bytes :=
  ⟨readParamSfoTitle_inside (take_fileMax bytes) 256,
    readParamSfoVersionSimple_inside (take_fileMax bytes) 32,
    readParamJsonTitle_inside (bytes.take (fileMax - 1)) 256⟩

/-- The version read for each title that is listed has some property. -/
def ListedVersions (env : Env) (disk : Disk) (installed : Text -> Bool) (P : Text -> Prop) : Prop :=
  forall tid, tid ∈ candidateTids env disk.state ->
    (leftoverEntry env disk.state installed tid).isSome = true ->
      P (titleVersion env disk.state tid)

theorem entry_version {env : Env} {fs : FileState} {installed : Text -> Bool} {tid : Text}
    {entry : LeftoverEntry} (h : leftoverEntry env fs installed tid = some entry) :
    entry.version = titleVersion env fs tid := by
  unfold leftoverEntry at h
  split at h
  · cases h
  · split at h
    · cases h
    · dsimp only at h
      split at h
      · cases h
      · cases h
        rfl

theorem listedVersions_iff {env : Env} {disk : Disk} {installed : Text -> Bool}
    {P : Text -> Prop} : ListedVersions env disk installed P ↔
      forall entry, entry ∈ leftoversScan env disk.state installed -> P entry.version := by
  constructor
  · intro h entry hentry
    rcases List.mem_filterMap.mp hentry with ⟨tid, htid, hmade⟩
    rw [entry_version hmade]
    exact h tid htid (Option.isSome_iff_exists.mpr ⟨entry, hmade⟩)
  · intro h tid htid hlisted
    rcases Option.isSome_iff_exists.mp hlisted with ⟨entry, hmade⟩
    rw [<- entry_version hmade]
    exact h entry (List.mem_filterMap.mpr ⟨tid, htid, hmade⟩)

/-- With versions that may stand in a string the report is a document that counts its entries;
without quotation marks in the versions it is one only then. -/
theorem leftovers_report (heap : Nat -> Bool) (env : Env) (disk : Disk)
    (installed : Text -> Bool) :
    (forall bytes, ReadsInside bytes) ∧
      forall text, leftoversScanJson heap env disk.state installed = some text ->
        (ListedVersions env disk installed IsInside -> ValidReport text) ∧
          (ListedVersions env disk installed (fun version => quote ∉ version) ->
            ValidReport text -> ListedVersions env disk installed IsInside) := by
  refine ⟨readsInside, fun text htext => ?_⟩
  rw [leftoversScanJson_text htext]
  constructor
  · intro h
    exact validReport_of_inside (fun entry hentry =>
      ⟨leftoversScan_printable hentry, listedVersions_iff.mp h entry hentry⟩)
  · intro hquote hvalid
    rcases hvalid with ⟨vs, hdoc⟩
    refine (listedVersions_iff (P := IsInside)).mpr ?_
    exact inside_of_document (fun entry hentry =>
      ⟨leftoversScan_printable hentry, listedVersions_iff.mp hquote entry hentry⟩) ⟨_, hdoc⟩

/-!
# Memory that is granted
-/

theorem appendPaths_granted {heap : Nat -> Bool} (hheap : forall n, heap n = true) (first : Bool)
    (paths : List Text) (b : Growing) : exists b', appendPaths heap first paths b = some b' := by
  induction paths generalizing first b with
  | nil => exact ⟨b, rfl⟩
  | cons path rest ih =>
      rcases jsonAppendGrow_granted hheap b (separator first ++ inQuotes path) with ⟨middle, hone⟩
      unfold appendPaths
      rw [hone]
      exact ih false middle

theorem appendTitles_granted {heap : Nat -> Bool} (hheap : forall n, heap n = true) (env : Env)
    (fs : FileState) (installed : Text -> Bool) (emitted : Nat) (tids : List Text) (b : Growing) :
    exists result, appendTitles heap env fs installed emitted tids b = some result := by
  induction tids generalizing emitted b with
  | nil => exact ⟨_, rfl⟩
  | cons tid rest ih =>
      unfold appendTitles
      split
      · exact ih emitted b
      · rename_i entry _
        rcases jsonAppendGrow_granted hheap b (entryHead (emitted == 0) entry) with ⟨one, hone⟩
        rcases appendPaths_granted hheap true entry.paths one with ⟨two, htwo⟩
        rcases jsonAppendGrow_granted hheap two (ascii "]\x7d") with ⟨three, hthree⟩
        have hentry : appendEntry heap (emitted == 0) entry b = some three := by
          unfold appendEntry
          rw [hone]
          dsimp only [Option.bind_eq_bind, Option.bind_some]
          rw [htwo]
          exact hthree
        rw [hentry]
        exact ih (emitted + 1) three

/-- There is a report whenever there is memory. -/
theorem leftoversScanJson_granted {heap : Nat -> Bool} (hheap : forall n, heap n = true)
    (env : Env) (fs : FileState) (installed : Text -> Bool) :
    leftoversScanJson heap env fs installed =
      some (reportText (leftoversScan env fs installed)) := by
  have hsome : exists text, leftoversScanJson heap env fs installed = some text := by
    rcases jsonAppendGrow_granted hheap startBuffer (ascii "\x7b\"leftovers\":[") with ⟨one, hone⟩
    rcases appendTitles_granted hheap env fs installed 0 (candidateTids env fs) one with
      ⟨⟨n, two⟩, htwo⟩
    rcases jsonAppendGrow_granted hheap two
      (ascii "],\"count\":" ++ digitsText n ++ ascii "\x7d") with ⟨three, hthree⟩
    refine ⟨three.json, ?_⟩
    unfold leftoversScanJson
    rw [hheap 0, hheap 1, hone]
    dsimp only [Option.bind_eq_bind, Option.bind_some]
    rw [htwo]
    dsimp only [Option.bind_some]
    rw [hthree]
    rfl
  rcases hsome with ⟨text, htext⟩
  rw [htext, leftoversScanJson_text htext]

/-!
# One title with a version
-/

/-- A param.sfo whose only entry is the version. -/
def versionSfo (version : Text) : List UInt8 :=
  [0, 80, 83, 70, 1, 1, 0, 0, 36, 0, 0, 0, 44, 0, 0, 0, 1, 0, 0, 0] ++
    ([0, 0, 4, 2, UInt8.ofNat version.length, 0, 0, 0, 32, 0, 0, 0, 0, 0, 0, 0] ++
      (ascii "APP_VER" ++ 0 :: version))

/-- A title of which a patch is left and what the console keeps about it. -/
def patchDisk (version : Text) : Disk where
  names dir := if dir = ascii "/user/patch" then some [ascii "CUSA00001"] else some []
  stat path := path == ascii "/user/patch/CUSA00001"
  dirSize _ := 0
  file path :=
    if path = ascii "/system_data/priv/appmeta/CUSA00001/param.sfo" then some (versionSfo version)
    else none

/-- A version that is a quotation mark closes the string it is printed in. -/
theorem quote_closes_string : exists text,
    leftoversScanJson (fun _ => true) plainEnv (patchDisk [quote]).state (fun _ => false) =
      some text ∧ ¬ ValidReport text := by
  refine ⟨_, leftoversScanJson_granted (fun _ => rfl) _ _ _, ?_⟩
  rintro ⟨vs, hdoc⟩
  rcases JsonText.follow_document ⟨_, hdoc⟩ with ⟨s, hs⟩
  have hnone : JsonText.follow .between
      (reportText (leftoversScan plainEnv (patchDisk [quote]).state (fun _ => false))) = none := by
    decide +kernel
  rw [hnone] at hs
  cases hs

theorem plain_version_reported : ValidReport
    (reportText (leftoversScan plainEnv (patchDisk (ascii "01.00")).state (fun _ => false))) := by
  have hreport := (leftovers_report (fun _ => true) plainEnv (patchDisk (ascii "01.00"))
    (fun _ => false)).right _ (leftoversScanJson_granted (fun _ => rfl) _ _ _)
  apply hreport.left
  have hcandidates : candidateTids plainEnv (patchDisk (ascii "01.00")).state =
      [ascii "CUSA00001"] := by
    decide +kernel
  have hversion : titleVersion plainEnv (patchDisk (ascii "01.00")).state (ascii "CUSA00001") =
      ascii "01.00" := by
    decide +kernel
  intro tid htid _
  rw [hcandidates] at htid
  rw [List.mem_singleton.mp htid, hversion]
  exact isInside_letters (by decide)

end Leftovers
end PkgManager
