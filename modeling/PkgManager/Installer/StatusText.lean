import PkgManager.Cache.RoundTrip
import PkgManager.Smb.JsonItems

/-!
# The status as a document

The status is printed in one call, then the paths of the queue one by one.  Every text is
escaped into an array of its own that has room for it, and the buffer grows with the queue.
-/

namespace PkgManager
namespace Installer

open CString
open JsonText (Derives Document Piece)
open PkgManager.Parser
open PkgManager.Smb
open PkgManager.Cache (FieldFits boolText escapeJsonByte escapeJsonStr)

/-!
# The fields
-/

/-- A text with the zero byte behind it in an array. -/
structure FieldText (size : Nat) where
  bytes : Text
  fits : FieldFits size bytes

/-- A finite value of {lit}`float`. -/
structure FiniteFloat where
  negative : Bool
  num : Nat
  den : Nat
  pos : 0 < den
  bound : num < 2 ^ 128 * den

/-- What {lit}`installer_status_to_json` reads of {lit}`installer_status_t`. -/
structure StatusFields where
  isInstalling : Bool
  pkgPath : FieldText 512
  titleId : FieldText 32
  titleName : FieldText 256
  contentId : FieldText 64
  pkgKind : FieldText 16
  statusStr : FieldText 32
  downloadedBytes : UInt64
  totalBytes : UInt64
  progressPercent : FiniteFloat
  errorCode : Int32
  completed : Bool
  failed : Bool
  isMultipart : Bool
  currentPart : UInt32
  totalParts : UInt32
  waitingForDisc : Bool
  isDirectStorage : Bool
  promptMessage : FieldText 256

/-- The paths in {lit}`g_queue`. -/
structure QueuedPaths where
  paths : List (FieldText 512)
  short : paths.length ≤ 16

/-!
# Printing
-/

/-- Hundredths, rounded to even where two are equally near. -/
def FiniteFloat.hundredths (x : FiniteFloat) : Nat :=
  let quo := 100 * x.num / x.den
  let rem := 100 * x.num % x.den
  if 2 * rem < x.den ∨ (2 * rem = x.den ∧ quo % 2 = 0) then quo else quo + 1

def digitByte (n : Nat) : UInt8 :=
  UInt8.ofNat (48 + n % 10)

/-- {lit}`%.2f` -/
def fixedText (x : FiniteFloat) : Text :=
  (if x.negative then [45] else []) ++ (digitsText (x.hundredths / 100) ++
    [46, digitByte (x.hundredths / 10), digitByte x.hundredths])

/-- The members in front of the queue, each with a comma behind it. -/
def statusMembers (s : StatusFields) : List (String × Text) :=
  [("is_installing", boolText s.isInstalling),
    ("pkg_path", inQuotes (escapeJsonStr 1024 s.pkgPath.bytes)),
    ("title_id", inQuotes (escapeJsonStr 64 s.titleId.bytes)),
    ("title_name", inQuotes (escapeJsonStr 512 s.titleName.bytes)),
    ("content_id", inQuotes (escapeJsonStr 128 s.contentId.bytes)),
    ("pkg_kind", inQuotes (escapeJsonStr 64 s.pkgKind.bytes)),
    ("status", inQuotes (escapeJsonStr 64 s.statusStr.bytes)),
    ("downloaded_bytes", digitsText s.downloadedBytes.toNat),
    ("total_bytes", digitsText s.totalBytes.toNat),
    ("progress", fixedText s.progressPercent),
    ("error_code", intText s.errorCode.toInt),
    ("completed", boolText s.completed),
    ("failed", boolText s.failed),
    ("is_multipart", boolText s.isMultipart),
    ("current_part", digitsText s.currentPart.toNat),
    ("total_parts", digitsText s.totalParts.toNat),
    ("waiting_for_disc", boolText s.waitingForDisc),
    ("is_direct_storage", boolText s.isDirectStorage),
    ("prompt_message", inQuotes (escapeJsonStr 512 s.promptMessage.bytes))]

def statusHead (s : StatusFields) : Text :=
  123 :: ((statusMembers s).flatMap (fun m => quoted m.1 ++ 58 :: (m.2 ++ [44])) ++
    (quoted "queue" ++ [58, 91]))

/-- The text in the buffer and the number of bytes that were counted. -/
structure JsonBuffer where
  text : Text
  n : Nat

/-- {lit}`n += snprintf(json + n, json_size - n, ..)` -/
def JsonBuffer.print (jsonSize : Nat) (b : JsonBuffer) (text : Text) : JsonBuffer where
  text := b.text.take b.n ++ text.take (jsonSize - b.n - 1)
  n := b.n + text.length

/-- The loop over the queue from an entry on. -/
def queueLoop (jsonSize : Nat) : Nat -> List (FieldText 512) -> JsonBuffer -> JsonBuffer
  | _, [], b => b
  | i, path :: rest, b =>
      if 0 < b.n ∧ b.n < jsonSize then
        queueLoop jsonSize (i + 1) rest
          (b.print jsonSize (shareComma i ++ inQuotes (escapeJsonStr 1024 path.bytes)))
      else b

/-- {lit}`installer_status_to_json`; there may be no memory for the buffer. -/
def installerStatusToJson (allocated : Bool) (s : StatusFields) (queue : QueuedPaths) :
    Option Text :=
  let jsonSize := 4096 + queue.paths.length * 1040
  if !allocated then none
  else
    let b := queueLoop jsonSize 0 queue.paths
      (JsonBuffer.print jsonSize { text := [], n := 0 } (statusHead s))
    some (if 0 < b.n ∧ b.n < jsonSize then b.print jsonSize (ascii "]\x7d") else b).text

/-!
# Strings
-/

/-- A control byte that has a letter, or no control byte. -/
def isShown (c : UInt8) : Bool :=
  decide (32 ≤ c.toNat) || c == 10 || c == 13 || c == 9

/-- A text without its control bytes, other than the ends of lines and tabs. -/
def shown (text : Text) : Text :=
  text.filter isShown

theorem mark_known {c : UInt8} (h : c = quote ∨ c = backslash) : c ∈ JsonText.shortEscapes := by
  rcases h with rfl | rfl <;> decide

theorem not_mark {c : UInt8} (h : ¬(c = quote ∨ c = backslash)) : c ≠ 34 ∧ c ≠ 92 :=
  not_or.mp h

theorem newline_known : (110 : UInt8) ∈ JsonText.shortEscapes := by decide

theorem return_known : (114 : UInt8) ∈ JsonText.shortEscapes := by decide

theorem tab_known : (116 : UInt8) ∈ JsonText.shortEscapes := by decide

def escapedByte (c : UInt8) : List Piece :=
  if hmark : c = quote ∨ c = backslash then [.short c (mark_known hmark)]
  else if c = 10 then [.short 110 newline_known]
  else if c = 13 then [.short 114 return_known]
  else if c = 9 then [.short 116 tab_known]
  else if hprint : 32 ≤ c.toNat then [.plain c hprint (not_mark hmark)]
  else []

def escapedPieces (src : Text) : List Piece :=
  src.flatMap escapedByte

theorem inside_escapedByte (c : UInt8) : JsonText.inside (escapedByte c) = escapeJsonByte c := by
  unfold escapedByte escapeJsonByte
  split
  · rfl
  · split
    · rfl
    · split
      · rfl
      · split
        · rfl
        · split
          · rfl
          · rfl

theorem inside_escapedPieces (src : Text) :
    JsonText.inside (escapedPieces src) = src.flatMap escapeJsonByte := by
  induction src with
  | nil => rfl
  | cons c rest ih =>
      rw [escapedPieces, List.flatMap_cons, List.flatMap_cons, JsonText.inside,
        List.flatMap_append]
      change JsonText.inside (escapedByte c) ++ JsonText.inside (escapedPieces rest) = _
      rw [inside_escapedByte, ih]

/-- A byte stands for itself when it is shown, and for nothing otherwise. -/
theorem decoded_escapedByte (c : UInt8) (rest : List Piece) :
    JsonText.decoded (escapedByte c ++ rest) =
      (if isShown c then [c] else []) ++ JsonText.decoded rest := by
  unfold escapedByte
  split
  · rename_i hmark
    rcases hmark with rfl | rfl <;> rfl
  · split
    · rename_i h
      subst h
      rfl
    · split
      · rename_i h
        subst h
        rfl
      · split
        · rename_i h
          subst h
          rfl
        · rename_i hn hr ht
          split
          · rename_i hprint
            have hshown : isShown c = true := by simp [isShown, hprint]
            rw [if_pos hshown]
            rfl
          · rename_i hcontrol
            have hshown : isShown c = false := by simp [isShown, hcontrol, hn, hr, ht]
            rw [hshown]
            rfl

theorem decoded_escapedPieces (src : Text) : JsonText.decoded (escapedPieces src) = shown src := by
  induction src with
  | nil => rfl
  | cons c rest ih =>
      change JsonText.decoded (escapedByte c ++ escapedPieces rest) = _
      rw [decoded_escapedByte, ih]
      unfold shown
      rw [List.filter_cons]
      split
      · rfl
      · rfl

/-- An array of twice the size has room for the escaped text. -/
theorem FieldText.escaped {size : Nat} (t : FieldText size) {dstMax : Nat}
    (h : 2 * size ≤ dstMax + 1) :
    inQuotes (escapeJsonStr dstMax t.bytes) = JsonText.stringText (escapedPieces t.bytes) := by
  rw [Cache.escapeJsonStr_eq t.fits h, <- inside_escapedPieces]
  rfl

theorem FieldText.derives {size : Nat} (t : FieldText size) {dstMax : Nat}
    (h : 2 * size ≤ dstMax + 1) :
    Derives (inQuotes (escapeJsonStr dstMax t.bytes)) (.value (.string (shown t.bytes))) := by
  rw [t.escaped h, <- decoded_escapedPieces]
  exact Derives.string _

/-- Two quotation marks around at most two bytes for each byte. -/
theorem FieldText.length {size : Nat} (t : FieldText size) {dstMax : Nat}
    (h : 2 * size ≤ dstMax + 1) :
    (inQuotes (escapeJsonStr dstMax t.bytes)).length ≤ 2 * size := by
  have hshort := t.fits.short
  have hlen := Cache.flatMap_length t.bytes
  rw [Cache.escapeJsonStr_eq t.fits h, inQuotes, List.length_cons, List.length_append,
    List.length_singleton]
  omega

/-!
# Numbers
-/

theorem isDigitByte_digitByte (n : Nat) : JsonText.isDigitByte (digitByte n) = true := by
  have hall : forall m : Fin 10, JsonText.isDigitByte (UInt8.ofNat (48 + m)) = true := by decide
  exact hall ⟨n % 10, Nat.mod_lt n (by decide)⟩

theorem isNumber_fixedText (x : FiniteFloat) : JsonText.IsNumber (fixedText x) := by
  have hsign : (if x.negative then [45] else [] : Text) = [] ∨
      (if x.negative then [45] else [] : Text) = [45] := by
    cases x.negative with
    | false => exact Or.inl rfl
    | true => exact Or.inr rfl
  refine ⟨_, digitsText (x.hundredths / 100), _, [], by rw [List.append_nil]; rfl, hsign,
    isWhole_digits _, Or.inr ⟨_, rfl, List.cons_ne_nil _ _, ?_⟩, Or.inl rfl⟩
  simp only [List.all_cons, List.all_nil, isDigitByte_digitByte]
  rfl

theorem hundredths_le (x : FiniteFloat) : x.hundredths ≤ 100 * 2 ^ 128 := by
  have hlt : 100 * x.num / x.den < 100 * 2 ^ 128 := by
    apply Nat.div_lt_of_lt_mul
    have hbound := x.bound
    calc 100 * x.num < 100 * (2 ^ 128 * x.den) := Nat.mul_lt_mul_of_pos_left hbound (by decide)
      _ = x.den * (100 * 2 ^ 128) := by rw [Nat.mul_comm x.den, Nat.mul_assoc]
  unfold FiniteFloat.hundredths
  dsimp only
  split <;> omega

theorem fixedText_length (x : FiniteFloat) : (fixedText x).length ≤ 43 := by
  have hle := hundredths_le x
  have hdigits : (digitsText (x.hundredths / 100)).length ≤ 39 := by
    unfold digitsText
    rw [List.length_map]
    exact (Nat.length_toDigits_le_iff (by decide) (by decide)).mpr (by omega)
  have hsign : (if x.negative then [45] else [] : Text).length ≤ 1 := by
    cases x.negative <;> decide
  have hend : [46, digitByte (x.hundredths / 10), digitByte x.hundredths].length = 3 := rfl
  rw [fixedText, List.length_append, List.length_append, hend]
  omega

/-!
# The members
-/

def textPart {size : Nat} (key : String) (dstMax : Nat) (t : FieldText size) :
    String × Text × JsonText.Value :=
  (key, inQuotes (escapeJsonStr dstMax t.bytes), .string (shown t.bytes))

def numberPart (key : String) (text : Text) : String × Text × JsonText.Value :=
  (key, text, .number text)

def boolPart (key : String) (b : Bool) : String × Text × JsonText.Value :=
  (key, boolText b, .word (boolText b))

/-- The members in front of the queue and what they stand for. -/
def statusParts (s : StatusFields) : List (String × Text × JsonText.Value) :=
  [boolPart "is_installing" s.isInstalling,
    textPart "pkg_path" 1024 s.pkgPath,
    textPart "title_id" 64 s.titleId,
    textPart "title_name" 512 s.titleName,
    textPart "content_id" 128 s.contentId,
    textPart "pkg_kind" 64 s.pkgKind,
    textPart "status" 64 s.statusStr,
    numberPart "downloaded_bytes" (digitsText s.downloadedBytes.toNat),
    numberPart "total_bytes" (digitsText s.totalBytes.toNat),
    numberPart "progress" (fixedText s.progressPercent),
    numberPart "error_code" (intText s.errorCode.toInt),
    boolPart "completed" s.completed,
    boolPart "failed" s.failed,
    boolPart "is_multipart" s.isMultipart,
    numberPart "current_part" (digitsText s.currentPart.toNat),
    numberPart "total_parts" (digitsText s.totalParts.toNat),
    boolPart "waiting_for_disc" s.waitingForDisc,
    boolPart "is_direct_storage" s.isDirectStorage,
    textPart "prompt_message" 512 s.promptMessage]

def statusKeys : List String :=
  ["is_installing", "pkg_path", "title_id", "title_name", "content_id", "pkg_kind", "status",
    "downloaded_bytes", "total_bytes", "progress", "error_code", "completed", "failed",
    "is_multipart", "current_part", "total_parts", "waiting_for_disc", "is_direct_storage",
    "prompt_message"]

def pathText (path : FieldText 512) : Text :=
  inQuotes (escapeJsonStr 1024 path.bytes)

def queuePart (paths : List (FieldText 512)) : String × Text × JsonText.Value :=
  ("queue", 91 :: (elementsText (paths.map pathText) ++ [93]),
    .array (paths.map (fun path => .string (shown path.bytes))))

/-- What the status should stand for. -/
def statusMeaning (s : StatusFields) (queue : QueuedPaths) : JsonText.Value :=
  .object [(ascii "is_installing", .word (boolText s.isInstalling)),
    (ascii "pkg_path", .string (shown s.pkgPath.bytes)),
    (ascii "title_id", .string (shown s.titleId.bytes)),
    (ascii "title_name", .string (shown s.titleName.bytes)),
    (ascii "content_id", .string (shown s.contentId.bytes)),
    (ascii "pkg_kind", .string (shown s.pkgKind.bytes)),
    (ascii "status", .string (shown s.statusStr.bytes)),
    (ascii "downloaded_bytes", .number (digitsText s.downloadedBytes.toNat)),
    (ascii "total_bytes", .number (digitsText s.totalBytes.toNat)),
    (ascii "progress", .number (fixedText s.progressPercent)),
    (ascii "error_code", .number (intText s.errorCode.toInt)),
    (ascii "completed", .word (boolText s.completed)),
    (ascii "failed", .word (boolText s.failed)),
    (ascii "is_multipart", .word (boolText s.isMultipart)),
    (ascii "current_part", .number (digitsText s.currentPart.toNat)),
    (ascii "total_parts", .number (digitsText s.totalParts.toNat)),
    (ascii "waiting_for_disc", .word (boolText s.waitingForDisc)),
    (ascii "is_direct_storage", .word (boolText s.isDirectStorage)),
    (ascii "prompt_message", .string (shown s.promptMessage.bytes)),
    (ascii "queue", .array (queue.paths.map (fun path => .string (shown path.bytes))))]

theorem partMeaning_status (s : StatusFields) (queue : QueuedPaths) :
    .object (partMeaning (statusParts s ++ [queuePart queue.paths])) = statusMeaning s queue := rfl

theorem derives_queue (paths : List (FieldText 512)) :
    Derives (queuePart paths).2.1 (.value (queuePart paths).2.2) := by
  have hall : forall p : Text × JsonText.Value,
      p ∈ paths.map (fun path => (pathText path, .string (shown path.bytes))) ->
        Derives p.1 (.value p.2) := by
    intro p hp
    rcases List.mem_map.mp hp with ⟨path, _, rfl⟩
    exact path.derives (by decide)
  have helements := derives_elements hall
  rw [List.map_map, List.map_map] at helements
  exact Derives.array helements

theorem parts_status (s : StatusFields) (queue : QueuedPaths) :
    Parts (statusParts s ++ [queuePart queue.paths]) := by
  have hbool : forall (key : String) (b : Bool),
      Derives (boolPart key b).2.1 (.value (boolPart key b).2.2) :=
    fun _ b => Derives.word (isWord_boolText b)
  have hnumber : forall (key : String) (text : Text), JsonText.IsNumber text ->
      Derives (numberPart key text).2.1 (.value (numberPart key text).2.2) :=
    fun _ _ h => Derives.number h
  constructor
  · have hkeys : (statusParts s ++ [queuePart queue.paths]).map Prod.fst =
        statusKeys ++ ["queue"] := rfl
    have hprinted : (statusKeys ++ ["queue"]).all
        (fun key => (ascii key).all JsonText.isPrinted) = true := by decide
    intro p hp
    have hkey : p.1 ∈ statusKeys ++ ["queue"] := hkeys ▸ List.mem_map_of_mem hp
    exact List.all_eq_true.mp hprinted p.1 hkey
  · rw [List.forall_mem_append]
    constructor
    · unfold statusParts
      simp only [List.forall_mem_cons, List.not_mem_nil, false_implies, implies_true, and_true]
      exact ⟨hbool _ _, s.pkgPath.derives (by decide), s.titleId.derives (by decide),
        s.titleName.derives (by decide), s.contentId.derives (by decide),
        s.pkgKind.derives (by decide), s.statusStr.derives (by decide),
        hnumber _ _ (isNumber_digitsText _), hnumber _ _ (isNumber_digitsText _),
        hnumber _ _ (isNumber_fixedText _), hnumber _ _ (isNumber_intText _), hbool _ _,
        hbool _ _, hbool _ _, hnumber _ _ (isNumber_digitsText _),
        hnumber _ _ (isNumber_digitsText _), hbool _ _, hbool _ _,
        s.promptMessage.derives (by decide)⟩
    · intro p hp
      rw [List.mem_singleton.mp hp]
      exact derives_queue queue.paths

/-- The whole text, when nothing is cut. -/
theorem itemText_status (s : StatusFields) (paths : List (FieldText 512)) :
    itemText tight (partTexts (statusParts s ++ [queuePart paths])) =
      statusHead s ++ (elementsText (paths.map pathText) ++ ascii "]\x7d") := by
  have hend : ascii "]\x7d" = [93] ++ [125] := rfl
  have htexts : partTexts (statusParts s ++ [queuePart paths]) =
      statusMembers s ++ [("queue", (queuePart paths).2.1)] := by
    rw [partTexts, List.map_append]
    rfl
  rw [itemText, htexts, membersText_concat, statusHead, hend]
  simp [queuePart]

/-!
# Lengths
-/

theorem statusMembers_values (s : StatusFields) :
    ((statusMembers s).map (fun m => m.2.length)).sum ≤ 2500 := by
  have hcount : forall n : UInt32, (digitsText n.toNat).length ≤ 20 := by
    intro n
    have hlt := n.toNat_lt
    exact Cache.digitsText_length (by omega)
  have hinstalling := boolText_length s.isInstalling
  have hpath : (inQuotes (escapeJsonStr 1024 s.pkgPath.bytes)).length ≤ 2 * 512 :=
    s.pkgPath.length (by decide)
  have hid : (inQuotes (escapeJsonStr 64 s.titleId.bytes)).length ≤ 2 * 32 :=
    s.titleId.length (by decide)
  have hname : (inQuotes (escapeJsonStr 512 s.titleName.bytes)).length ≤ 2 * 256 :=
    s.titleName.length (by decide)
  have hcontent : (inQuotes (escapeJsonStr 128 s.contentId.bytes)).length ≤ 2 * 64 :=
    s.contentId.length (by decide)
  have hkind : (inQuotes (escapeJsonStr 64 s.pkgKind.bytes)).length ≤ 2 * 16 :=
    s.pkgKind.length (by decide)
  have hstatus : (inQuotes (escapeJsonStr 64 s.statusStr.bytes)).length ≤ 2 * 32 :=
    s.statusStr.length (by decide)
  have hdone := Cache.digitsText_length s.downloadedBytes.toNat_lt
  have htotal := Cache.digitsText_length s.totalBytes.toNat_lt
  have hprogress := fixedText_length s.progressPercent
  have herror := intText_short (Int32.le_toInt s.errorCode) (Int32.toInt_lt s.errorCode)
  have hcompleted := boolText_length s.completed
  have hfailed := boolText_length s.failed
  have hmultipart := boolText_length s.isMultipart
  have hcurrent := hcount s.currentPart
  have hparts := hcount s.totalParts
  have hwaiting := boolText_length s.waitingForDisc
  have hdirect := boolText_length s.isDirectStorage
  have hprompt : (inQuotes (escapeJsonStr 512 s.promptMessage.bytes)).length ≤ 2 * 256 :=
    s.promptMessage.length (by decide)
  simp only [statusMembers, List.map_cons, List.map_nil, List.sum_cons, List.sum_nil]
  linarith

theorem statusHead_length (s : StatusFields) : (statusHead s).length ≤ 3000 := by
  have hvalues := statusMembers_values s
  have hfirst : (statusMembers s).map Prod.fst = statusKeys := rfl
  have hkeys : (statusKeys.map (fun key => (ascii key).length + 4)).sum = 281 := by decide
  have hsum := memberLength_sum (statusMembers s)
  have hqueue : (quoted "queue" ++ [58, 91]).length = 9 := rfl
  rw [hfirst, hkeys] at hsum
  rw [statusHead, List.length_cons, List.length_append, hqueue, commaMembers_length]
  omega

/-!
# The buffer
-/

def queueItem (i : Nat) (path : FieldText 512) : Text :=
  shareComma i ++ pathText path

/-- What is in the buffer when all that was printed is there. -/
def printedStatus (s : StatusFields) (paths : List (FieldText 512)) : JsonBuffer where
  text := statusHead s ++ (paths.mapIdx queueItem).flatten
  n := (statusHead s ++ (paths.mapIdx queueItem).flatten).length

theorem printedStatus_concat (s : StatusFields) (front : List (FieldText 512))
    (path : FieldText 512) : (printedStatus s (front ++ [path])).text =
      (printedStatus s front).text ++ queueItem front.length path := by
  unfold printedStatus
  dsimp only
  rw [List.mapIdx_concat, List.flatten_append, List.flatten_singleton, List.append_assoc]

/-- Each path takes less than the buffer grows by. -/
theorem printedStatus_length (s : StatusFields) (paths : List (FieldText 512)) :
    (printedStatus s paths).n ≤ 3000 + 1025 * paths.length := by
  induction paths using List.reverseRecOn with
  | nil =>
      have hhead := statusHead_length s
      change (statusHead s ++ []).length ≤ 3000 + 1025 * 0
      rw [List.append_nil]
      omega
  | append_singleton front path ih =>
      have hpath : (pathText path).length ≤ 2 * 512 := path.length (by decide)
      have hcomma : (shareComma front.length).length ≤ 1 := by
        unfold shareComma
        split <;> decide
      change (printedStatus s (front ++ [path])).text.length ≤ _
      change (printedStatus s front).text.length ≤ _ at ih
      rw [printedStatus_concat, List.length_append, queueItem, List.length_append,
        List.length_append, List.length_singleton]
      omega

/-- What fits is printed whole. -/
theorem print_fitting {jsonSize : Nat} {b : JsonBuffer} (hb : b.text.length = b.n) {text : Text}
    (h : b.n + text.length < jsonSize) :
    b.print jsonSize text = { text := b.text ++ text, n := b.n + text.length } := by
  unfold JsonBuffer.print
  rw [List.take_of_length_le hb.le, List.take_of_length_le (by omega)]

theorem print_path {s : StatusFields} {front : List (FieldText 512)} {path : FieldText 512}
    {jsonSize : Nat} (h : 3000 + 1025 * (front ++ [path]).length < jsonSize) :
    (printedStatus s front).print jsonSize (queueItem front.length path) =
      printedStatus s (front ++ [path]) := by
  have htext := printedStatus_concat s front path
  have hlen := printedStatus_length s (front ++ [path])
  have hn : (printedStatus s (front ++ [path])).n =
      (printedStatus s front).n + (queueItem front.length path).length := by
    change (printedStatus s (front ++ [path])).text.length = (printedStatus s front).text.length + _
    rw [htext, List.length_append]
  rw [print_fitting rfl (by omega), <- htext, <- hn]

theorem printedStatus_pos (s : StatusFields) (paths : List (FieldText 512)) :
    0 < (printedStatus s paths).n := by
  change 0 < (statusHead s ++ _).length
  rw [List.length_append]
  exact Nat.lt_of_lt_of_le (Nat.succ_pos _) (Nat.le_add_right _ _)

theorem room_le {a b : Nat} (h : a ≤ b) : 3000 + 1025 * a ≤ 3000 + 1025 * b :=
  Nat.add_le_add_left (Nat.mul_le_mul_left 1025 h) 3000

/-- The loop prints every path behind those in front. -/
theorem queueLoop_printed {s : StatusFields} {front : List (FieldText 512)}
    (rest : List (FieldText 512)) {jsonSize : Nat}
    (h : 3000 + 1025 * (front ++ rest).length < jsonSize) :
    queueLoop jsonSize front.length rest (printedStatus s front) =
      printedStatus s (front ++ rest) := by
  induction rest generalizing front with
  | nil => rw [queueLoop, List.append_nil]
  | cons path rest ih =>
      have hlen : (front ++ path :: rest).length = (front ++ [path]).length + rest.length := by
        rw [List.append_cons, List.length_append]
      have hroom : 3000 + 1025 * (front ++ [path]).length < jsonSize :=
        lt_of_le_of_lt (room_le (hlen ▸ Nat.le_add_right _ _)) h
      have hfront : 3000 + 1025 * front.length < jsonSize :=
        lt_of_le_of_lt (room_le (by rw [List.length_append]; exact Nat.le_add_right _ _)) hroom
      have hgo : 0 < (printedStatus s front).n ∧ (printedStatus s front).n < jsonSize :=
        ⟨printedStatus_pos s front, lt_of_le_of_lt (printedStatus_length s front) hfront⟩
      have hnext := @ih (front ++ [path]) (by rwa [<- List.append_cons])
      rw [List.length_append, List.length_singleton, <- List.append_cons] at hnext
      rw [queueLoop, if_pos hgo]
      change queueLoop jsonSize (front.length + 1) rest
        ((printedStatus s front).print jsonSize (queueItem front.length path)) = _
      rw [print_path hroom, hnext]

theorem installerStatusToJson_text (s : StatusFields) (queue : QueuedPaths) :
    installerStatusToJson true s queue = some
      (statusHead s ++ (elementsText (queue.paths.map pathText) ++ ascii "]\x7d")) := by
  have hroom : 3000 + 1025 * queue.paths.length + 2 < 4096 + queue.paths.length * 1040 := by omega
  generalize hsize : 4096 + queue.paths.length * 1040 = jsonSize at hroom
  have hprinted := printedStatus_length s queue.paths
  have hend : (printedStatus s queue.paths).n + (ascii "]\x7d").length < jsonSize :=
    lt_of_le_of_lt (Nat.add_le_add_right hprinted 2) hroom
  have hloop := @queueLoop_printed s [] queue.paths jsonSize
    (lt_of_le_of_lt (Nat.le_add_right _ 2) hroom)
  have hgo : 0 < (printedStatus s queue.paths).n ∧ (printedStatus s queue.paths).n < jsonSize :=
    ⟨printedStatus_pos s queue.paths, lt_of_le_of_lt (Nat.le_add_right _ _) hend⟩
  have hhead : 0 + (statusHead s).length < jsonSize := by
    rw [Nat.zero_add]
    exact lt_of_le_of_lt (statusHead_length s) (lt_of_le_of_lt (by omega) hroom)
  have hstart : JsonBuffer.print jsonSize { text := [], n := 0 } (statusHead s) =
      printedStatus s [] := by
    rw [print_fitting rfl hhead, printedStatus, List.mapIdx_nil,
      List.flatten_nil, List.append_nil, Nat.zero_add, List.nil_append]
  rw [List.length_nil, List.nil_append] at hloop
  have htext : (printedStatus s queue.paths).text =
      statusHead s ++ elementsText (queue.paths.map pathText) := by
    rw [<- flatten_items]
    rfl
  unfold installerStatusToJson
  dsimp only
  rw [hsize, hstart, hloop, if_pos hgo, print_fitting rfl hend, htext, List.append_assoc]
  rfl

/-- The status is one document that stands for every field and for the paths in order. -/
theorem installerStatusToJson_exact (s : StatusFields) (queue : QueuedPaths) :
    exists text, installerStatusToJson true s queue = some text ∧
      Document text (statusMeaning s queue) := by
  refine ⟨_, installerStatusToJson_text s queue, ?_⟩
  rw [<- itemText_status, <- partMeaning_status]
  exact JsonText.document_of_derives (parts_status s queue).item


end Installer
end PkgManager
