import PkgManager.Parser.Evidence
import PkgManager.Parser.File

/-!
# The file and the memory parser on the same bytes

Both open the same package.  They may read the last name of the string table
differently, and a param.json replaces the title ID and the version of earlier
entries only in memory.
-/

namespace PkgManager
namespace Parser

open CString
open Folds

/-!
# Reads
-/

theorem memSlice_eq (data : List UInt8) (off : Nat) {sz : Nat} (h : 0 < sz) :
    memSlice data off sz = preadExact data off sz := by
  unfold memSlice preadExact
  by_cases hfit : off + sz ≤ data.length
  · rw [if_neg (by omega), if_neg (by omega), if_pos hfit]
  · rw [if_neg hfit]
    by_cases hoff : sz = 0 ∨ off > data.length
    · rw [if_pos hoff]
    · rw [if_neg hoff, if_pos (by omega)]

theorem isCntAt_mem (data : List UInt8) :
    isCntAt (memSlice data) = isCntAt (preadExact data) := by
  funext cand
  unfold isCntAt
  rw [memSlice_eq data cand (by decide)]

theorem scanFihTable_mem (data : List UInt8) (below : Nat -> Bool) (hdr : List UInt8)
    (offsets : List Nat) :
    scanFihTable (memSlice data) below hdr offsets =
      scanFihTable (preadExact data) below hdr offsets := by
  induction offsets with
  | nil => rfl
  | cons off rest ih =>
      unfold scanFihTable
      rw [isCntAt_mem, ih]

theorem findCnt_mem (data : List UInt8) (below : Nat -> Bool) (hdr : List UInt8) :
    findCnt (memSlice data) below hdr = findCnt (preadExact data) below hdr := by
  unfold findCnt
  rw [isCntAt_mem, scanFihTable_mem]

/-!
# The package in memory
-/

def memReadRow (file tail : List UInt8) (cntOffset : Nat) (strTable : Option (List UInt8) × Nat)
    (e : PkgEntry) : Row :=
  let name := memEntryName strTable.1 ((file ++ tail).drop strTable.2) e
  { entry := e
    name := name
    metadata := readMetadata file cntOffset e name }

/-- The package with the names as the memory parser reads them. -/
def memOpenPackage (file tail : List UInt8) : Option Package :=
  let hdr := file.take 0x200
  match findCnt (preadExact file) (fun cand => decide (cand < file.length)) hdr with
  | none => none
  | some cntOffset =>
      match readCntHeader (preadExact file) cntOffset with
      | none => none
      | some cnt =>
          match preadExact file (cntOffset + cnt.tableOffset) (cnt.entryCount * 32) with
          | none => none
          | some table =>
              let entries := pkgEntries table cnt.entryCount
              let strTable := memStrTable file cntOffset entries
              some { cntOffset := cntOffset
                     typeMagic := cnt.typeMagic
                     contentId := cnt.contentId
                     rows := entries.map (memReadRow file tail cntOffset strTable) }

def memNoteMetadata (w : Walk) : Metadata -> Walk
  | Metadata.json bytes => memNoteJson bytes [] w
  | Metadata.sfo bytes => memNoteSfo bytes w

def memNoteRow (w : Walk) (row : Row) : Walk :=
  row.metadata.foldl memNoteMetadata (noteMarkers row.entry row.name w)

theorem jsonVersion_behind (json behind : List UInt8) :
    jsonVersion json behind = jsonVersion json [] := by
  unfold jsonVersion
  rw [jsonExtractKey_behind json behind, jsonExtractKey_behind json behind,
    jsonExtractKey_behind json behind]

theorem memNoteJson_behind (json behind : List UInt8) (w : Walk) :
    memNoteJson json behind w = memNoteJson json [] w := by
  unfold memNoteJson
  rw [jsonExtractKey_behind json behind, jsonExtractKey_behind json behind,
    jsonExtractKey_behind json behind, jsonVersion_behind]

theorem memScanEntry_row (file tail : List UInt8) (cntOffset : Nat)
    (strTable : Option (List UInt8) × Nat) (e : PkgEntry) (w : Walk) :
    memScanEntry file tail cntOffset e
        (memEntryName strTable.1 ((file ++ tail).drop strTable.2) e) w =
      memNoteRow w (memReadRow file tail cntOffset strTable e) := by
  unfold memScanEntry memNoteRow memReadRow readMetadata
  generalize memEntryName strTable.1 ((file ++ tail).drop strTable.2) e = name
  dsimp only
  by_cases hpos : 0 < e.dataSz
  · rw [memSlice_eq file (cntOffset + e.dataOff) hpos]
    cases preadExact file (cntOffset + e.dataOff) e.dataSz with
    | none => cases isParamJson e name <;> cases isParamSfo e name <;> rfl
    | some bytes =>
        dsimp only
        rw [memNoteJson_behind]
        cases isParamJson e name <;> cases isParamSfo e name <;> rfl
  · have hjson : isParamJson e name = false :=
      Bool.eq_false_iff.mpr (fun h => hpos (isParamJson_pos h))
    have hsfo : isParamSfo e name = false :=
      Bool.eq_false_iff.mpr (fun h => hpos (isParamSfo_pos h))
    rw [hjson, hsfo]
    cases preadExact file (cntOffset + e.dataOff) e.dataSz with
    | none => rfl
    | some bytes => rfl

def Package.memWalk (p : Package) (d : PkgDetail) : Walk :=
  p.rows.foldl memNoteRow (Walk.start { d with contentId := p.contentId })

theorem memScanEntries_rows (file tail : List UInt8) (cntOffset : Nat)
    (strTable : Option (List UInt8) × Nat) (entries : List PkgEntry) (w : Walk) :
    entries.foldl
        (fun w e =>
          memScanEntry file tail cntOffset e
            (memEntryName strTable.1 ((file ++ tail).drop strTable.2) e) w) w =
      (entries.map (memReadRow file tail cntOffset strTable)).foldl memNoteRow w := by
  induction entries generalizing w with
  | nil => rfl
  | cons e rest ih =>
      rw [List.foldl_cons, List.map_cons, List.foldl_cons, ih, memScanEntry_row]

def Package.memDetails (p : Package) (d : PkgDetail) : PkgDetail :=
  { finishDetail p.typeMagic (p.memWalk d) with hasIcon := false }

theorem bytesAt_bytesAt {file : List UInt8} {off n skip count : Nat} (h : skip + count ≤ n) :
    bytesAt (bytesAt file off n) skip count = bytesAt file (off + skip) count := by
  unfold bytesAt
  rw [List.drop_take, List.take_take, List.drop_drop, Nat.min_eq_left (by omega)]

theorem preadExact_some {file : List UInt8} {off count : Nat} {bytes : List UInt8}
    (h : preadExact file off count = some bytes) :
    off + count ≤ file.length ∧ bytes = bytesAt file off count := by
  unfold preadExact at h
  split at h
  · rename_i hfit
    cases h
    exact ⟨hfit, rfl⟩
  · cases h

/-- The content ID is read from the header that was read before. -/
theorem memSlice_contentId {file bytes : List UInt8} {cntOffset : Nat}
    (h : preadExact file cntOffset 0x80 = some bytes) :
    memSlice file (cntOffset + 0x40) 48 = some (bytesAt bytes 0x40 48) := by
  rcases preadExact_some h with ⟨hfit, hbytes⟩
  rw [memSlice_eq file (cntOffset + 0x40) (by decide), hbytes, bytesAt_bytesAt (by decide)]
  unfold preadExact
  rw [if_pos (by omega)]

theorem readCntHeader_pread (file : List UInt8) (cntOffset : Nat) :
    readCntHeader (preadExact file) cntOffset =
      match preadExact file cntOffset 0x80 with
      | none => none
      | some bytes =>
          if !isCnt bytes then none
          else if (parseCntHeader bytes).entryCount = 0 ∨ (parseCntHeader bytes).entryCount > 2048 ∨
              (parseCntHeader bytes).tableOffset > 0x200000 then none
          else some (parseCntHeader bytes) := rfl

theorem memParsePackage_eq {file : List UInt8} (hfile : 0 < file.length) (tail : List UInt8)
    (d : PkgDetail) :
    (memParsePackage file tail file.length d).toOption =
      (memOpenPackage file tail).map
        (fun p => p.memDetails (notePlatformHeader (file.take 0x200) d)) := by
  have hbelow : (fun cand => decide (file.length = 0 ∨ cand < file.length)) =
      fun cand => decide (cand < file.length) := by
    funext cand
    apply decide_eq_decide.mpr
    omega
  unfold memParsePackage memOpenPackage
  dsimp only
  rw [hbelow, findCnt_mem]
  cases hcnt : findCnt (preadExact file) (fun cand => decide (cand < file.length))
      (file.take 0x200) with
  | none => rfl
  | some cntOffset =>
      dsimp only
      rw [memSlice_eq file cntOffset (by decide), readCntHeader_pread]
      cases hhdr : preadExact file cntOffset 0x80 with
      | none => rfl
      | some bytes =>
          dsimp only
          rw [memSlice_contentId hhdr]
          cases isCnt bytes with
          | false => rfl
          | true =>
              by_cases hbad : (parseCntHeader bytes).entryCount = 0 ∨
                  (parseCntHeader bytes).entryCount > 2048 ∨
                  (parseCntHeader bytes).tableOffset > 0x200000
              · rw [if_pos hbad]
                dsimp only
                rw [if_pos hbad]
                rfl
              · simp only [Bool.not_true, Bool.false_eq_true, if_false]
                rw [if_neg hbad, if_neg hbad, memSlice_eq file _ (by omega)]
                dsimp only
                cases htable : preadExact file
                    (cntOffset + (parseCntHeader bytes).tableOffset)
                    ((parseCntHeader bytes).entryCount * 32) with
                | none => rfl
                | some table =>
                    show some _ = some _
                    congr 1
                    unfold memParseTable Package.memDetails Package.memWalk
                    dsimp only
                    rw [memScanEntries_rows]
                    rfl

/-!
# What the documents do in memory
-/

/-- The document replaces the title ID. -/
def Metadata.setsTitleId : Metadata -> Bool
  | Metadata.json bytes => (jsonExtractKey bytes [] "titleId" titleIdLen).isSome
  | Metadata.sfo _ => false

/-- The document replaces the version. -/
def Metadata.setsVersion : Metadata -> Bool
  | Metadata.json bytes => (jsonVersion bytes []).any (fun ver => decide (ver ≠ []))
  | Metadata.sfo _ => false

theorem jsonExtractKey_nil (key : String) (outMax : Nat) : jsonExtractKey [] [] key outMax = none := by
  unfold jsonExtractKey searchKey
  rfl

theorem jsonVersion_nil : jsonVersion [] [] = none := by
  unfold jsonVersion
  rw [jsonExtractKey_nil, jsonExtractKey_nil, jsonExtractKey_nil]
  rfl

/-- The version field when the document has a version that is not empty. -/
def jsonVersionField (json : List UInt8) : Option Text :=
  match jsonVersion json [] with
  | some ver => if ver ≠ [] then some (jsonVersionText 32 ver) else none
  | none => none

/-- The text of a key of a document for a field that is empty. -/
theorem metadata_key (json : List UInt8) (key : String) (bufMax : Nat) {outMax : Nat}
    (hpos : 0 < outMax) :
    (if json = [] then [] else noteKey json key bufMax outMax []) =
      ((jsonExtractKey json [] key bufMax).map (fun text => text.take (outMax - 1))).getD [] := by
  by_cases hnil : json = []
  · rw [if_pos hnil, hnil, jsonExtractKey_nil]
    rfl
  · rw [if_neg hnil]
    unfold noteKey
    rw [if_pos ⟨hpos, rfl⟩]
    cases jsonExtractKey json [] key bufMax <;> rfl

theorem metadata_version (json : List UInt8) :
    (if json = [] then [] else noteVersion json 32 []) = (jsonVersionField json).getD [] := by
  unfold jsonVersionField
  by_cases hnil : json = []
  · rw [if_pos hnil, hnil, jsonVersion_nil]
    rfl
  · rw [if_neg hnil]
    unfold noteVersion
    rw [if_pos ⟨by decide, rfl⟩]
    cases jsonVersion json [] with
    | none => rfl
    | some ver =>
        dsimp only
        split <;> rfl

theorem setsVersion_json (json : List UInt8) :
    (Metadata.json json).setsVersion = (jsonVersionField json).isSome := by
  unfold Metadata.setsVersion jsonVersionField
  dsimp only
  cases jsonVersion json [] with
  | none => rfl
  | some ver => by_cases h : ver = [] <;> simp [h]

theorem memNoteMetadata_category (w : Walk) (md : Metadata) :
    (memNoteMetadata w md).category =
      keepFirstFrom Metadata.category Metadata.isSfo w.category md := by
  cases md with
  | json bytes =>
      apply Prod.ext
      · have hkey := ((parseParamJson_keys bytes ParamTexts.empty).2.1).trans
          (metadata_key bytes "category" 16 (by decide))
        show (match jsonExtractKey bytes [] "category" 16 with
          | some cat => if w.detail.category = [] then cat.take 15 else w.detail.category
          | none => w.detail.category) = keepFirst Metadata.category w.detail.category _
        unfold keepFirst Metadata.category Metadata.texts
        dsimp only
        rw [hkey]
        cases jsonExtractKey bytes [] "category" 16 with
        | none =>
            by_cases hold : w.detail.category = []
            · rw [if_pos hold, hold]
              rfl
            · rw [if_neg hold]
        | some cat => rfl
      · show w.hasPs4SfoCategory = (w.hasPs4SfoCategory || (false && _))
        rw [Bool.false_and, Bool.or_false]
  | sfo bytes =>
      unfold memNoteMetadata Walk.category memNoteSfo
      dsimp only
      rw [notePlatformParamSfo_frame]
      apply Prod.ext
      · exact keepFirst_if Metadata.category w.detail.category (Metadata.sfo bytes)
      · rfl

/-- A field that a param.json replaces and a param.sfo fills in. -/
theorem override_json {f : Metadata -> Text} {p : Metadata -> Bool} {json : List UInt8}
    {v : Option Text} (hp : p (Metadata.json json) = v.isSome)
    (hf : f (Metadata.json json) = v.getD []) (old : Text) :
    override f p old (Metadata.json json) = v.getD old := by
  unfold override keepFirst
  rw [hp, hf]
  cases v with
  | none =>
      by_cases hold : old = []
      · simp [hold]
      · simp [hold]
  | some text => rfl

theorem memNoteMetadata_titleId (w : Walk) (md : Metadata) :
    (memNoteMetadata w md).detail.titleId =
      override Metadata.titleId Metadata.setsTitleId w.detail.titleId md := by
  cases md with
  | json bytes =>
      have hkey := ((parseParamJson_keys bytes ParamTexts.empty).1).trans
        (metadata_key bytes "titleId" titleIdLen (by decide))
      rw [override_json (v := (jsonExtractKey bytes [] "titleId" titleIdLen).map
        (fun text => text.take (titleIdLen - 1))) (by simp [Metadata.setsTitleId]) hkey]
      unfold memNoteMetadata memNoteJson
      dsimp only
      cases jsonExtractKey bytes [] "titleId" titleIdLen <;> rfl
  | sfo bytes =>
      unfold memNoteMetadata memNoteSfo
      dsimp only
      rw [notePlatformParamSfo_frame]
      show _ = keepFirst Metadata.titleId w.detail.titleId (Metadata.sfo bytes)
      rw [<- keepFirst_if]
      exact if_congr and_comm rfl rfl

theorem memNoteMetadata_version (w : Walk) (md : Metadata) :
    (memNoteMetadata w md).detail.appVersion =
      override Metadata.version Metadata.setsVersion w.detail.appVersion md := by
  cases md with
  | json bytes =>
      have hkey := ((parseParamJson_keys bytes ParamTexts.empty).2.2).trans (metadata_version bytes)
      rw [override_json (v := jsonVersionField bytes) (setsVersion_json bytes) hkey]
      unfold memNoteMetadata memNoteJson jsonVersionField
      dsimp only
      cases jsonVersion bytes [] with
      | none => rfl
      | some ver => by_cases h : ver = [] <;> simp [h, notePlatformParamJson]
  | sfo bytes =>
      unfold memNoteMetadata memNoteSfo
      dsimp only
      rw [notePlatformParamSfo_frame]
      show _ = keepFirst Metadata.version w.detail.appVersion (Metadata.sfo bytes)
      rw [<- keepFirst_if]
      exact if_congr and_comm rfl rfl

theorem memNoteMetadata_platform (w : Walk) (md : Metadata) :
    (memNoteMetadata w md).detail.platform = notePlatform w.detail.platform md := by
  cases md with
  | json bytes => rfl
  | sfo bytes =>
      show (notePlatformParamSfo w.detail).platform = _
      rw [notePlatformParamSfo_frame]
      rfl

theorem memNoteMetadata_contentId (w : Walk) (md : Metadata) :
    (memNoteMetadata w md).detail.contentId = w.detail.contentId := by
  cases md with
  | json bytes => rfl
  | sfo bytes =>
      show (notePlatformParamSfo w.detail).contentId = _
      rw [notePlatformParamSfo_frame]

theorem memNoteMetadata_isPatch (w : Walk) (md : Metadata) :
    (memNoteMetadata w md).isPatch = w.isPatch := by
  cases md with
  | json bytes => rfl
  | sfo bytes => rfl

theorem memNoteMetadata_base (w : Walk) (md : Metadata) :
    (memNoteMetadata w md).hasBaseAppMetadata =
      (w.hasBaseAppMetadata || md.hasBaseKey jsonHasBaseKey) := by
  cases md with
  | json bytes => rfl
  | sfo bytes =>
      show w.hasBaseAppMetadata = (w.hasBaseAppMetadata || false)
      rw [Bool.or_false]

/-!
# All rows
-/

/-- What the rows do to a part of the state that only the documents change. -/
theorem foldl_memNoteRow_observe {τ : Type} {f : Walk -> τ} {g : τ -> Metadata -> τ}
    (hmarkers : forall e name w, f (noteMarkers e name w) = f w)
    (hmetadata : forall w md, f (memNoteMetadata w md) = g (f w) md)
    (rows : List Row) (w : Walk) :
    f (rows.foldl memNoteRow w) = (rows.flatMap Row.metadata).foldl g (f w) := by
  rw [List.foldl_flatMap]
  apply foldl_observe
  intro w row
  unfold memNoteRow
  rw [foldl_observe hmetadata, hmarkers]

section Rows
variable (p : Package) {d : PkgDetail}

theorem memWalk_category (hd : d.category = []) :
    (p.memWalk d).category =
      (firstText (p.metadata.map Metadata.category),
        (firstSource Metadata.category p.metadata).any Metadata.isSfo) := by
  unfold Package.memWalk
  rw [foldl_memNoteRow_observe (f := Walk.category) (fun _ _ _ => rfl) memNoteMetadata_category]
  have hstart : (Walk.start { d with contentId := p.contentId }).category = ([], false) := by
    show (d.category, false) = _
    rw [hd]
  rw [hstart, foldl_keepFirstFrom, Bool.false_or]
  rfl

theorem memWalk_titleId (hd : d.titleId = []) :
    (p.memWalk d).detail.titleId =
      firstText ((fromLast Metadata.setsTitleId p.metadata).map Metadata.titleId) := by
  unfold Package.memWalk
  rw [foldl_memNoteRow_observe (f := fun w => w.detail.titleId) (fun _ _ _ => rfl)
    memNoteMetadata_titleId]
  show p.metadata.foldl (override Metadata.titleId Metadata.setsTitleId) d.titleId = _
  rw [hd, foldl_override]

theorem memWalk_version (hd : d.appVersion = []) :
    (p.memWalk d).detail.appVersion =
      firstText ((fromLast Metadata.setsVersion p.metadata).map Metadata.version) := by
  unfold Package.memWalk
  rw [foldl_memNoteRow_observe (f := fun w => w.detail.appVersion) (fun _ _ _ => rfl)
    memNoteMetadata_version]
  show p.metadata.foldl (override Metadata.version Metadata.setsVersion) d.appVersion = _
  rw [hd, foldl_override]

theorem memWalk_platform :
    (p.memWalk d).detail.platform = p.metadata.foldl notePlatform d.platform := by
  unfold Package.memWalk
  rw [foldl_memNoteRow_observe (f := fun w => w.detail.platform) (fun _ _ _ => rfl)
    memNoteMetadata_platform]
  rfl

theorem memWalk_contentId : (p.memWalk d).detail.contentId = p.contentId := by
  unfold Package.memWalk
  rw [foldl_memNoteRow_observe (f := fun w => w.detail.contentId) (g := fun t _ => t)
    (fun _ _ _ => rfl) memNoteMetadata_contentId, List.foldl_fixed]
  rfl

theorem memWalk_hasBaseAppMetadata :
    (p.memWalk d).hasBaseAppMetadata = p.metadata.any (Metadata.hasBaseKey jsonHasBaseKey) := by
  unfold Package.memWalk
  rw [foldl_memNoteRow_observe (f := Walk.hasBaseAppMetadata)
    (g := fun b md => b || md.hasBaseKey jsonHasBaseKey) (fun _ _ _ => rfl) memNoteMetadata_base,
    foldl_or]
  rfl

theorem memWalk_isPatch : (p.memWalk d).isPatch = p.rows.any Row.isPatch := by
  unfold Package.memWalk
  rw [foldl_observe (f := Walk.isPatch) (g := fun b row => b || row.isPatch), foldl_or]
  · rfl
  · intro w row
    unfold memNoteRow
    rw [foldl_observe (f := Walk.isPatch) (g := fun b _ => b) memNoteMetadata_isPatch,
      List.foldl_fixed]
    unfold Walk.isPatch noteMarkers Row.isPatch
    dsimp only
    ac_rfl

theorem decideType_memWalk (hd : d.category = []) :
    decideType p.typeMagic (p.memWalk d) = p.kind jsonHasBaseKey := by
  rw [decideType_eq, memWalk_category p hd, memWalk_isPatch, memWalk_hasBaseAppMetadata]
  rfl

end Rows

/-!
# Names
-/

/-- What the entry is taken for. -/
def Row.taken (row : Row) : Bool × Bool × Bool :=
  (row.isPatch, isParamJson row.entry row.name, isParamSfo row.entry row.name)

/-- Both parsers take every entry for the same, whichever bytes they read as its
name. -/
def NamesAlike (file tail : List UInt8) : Prop :=
  (memOpenPackage file tail).map (fun p => p.rows.map Row.taken) =
    (openPackage file).map (fun p => p.rows.map Row.taken)

instance (file tail : List UInt8) : Decidable (NamesAlike file tail) :=
  inferInstanceAs (Decidable (_ = _))

/-- Two packages that differ at most in names that do not matter. -/
structure SameDocuments (p p' : Package) : Prop where
  typeMagic : p'.typeMagic = p.typeMagic
  contentId : p'.contentId = p.contentId
  metadata : p'.metadata = p.metadata
  isPatch : p'.rows.any Row.isPatch = p.rows.any Row.isPatch

theorem readMetadata_congr {file : List UInt8} {cntOffset : Nat} {e : PkgEntry} {name name' : Text}
    (hjson : isParamJson e name' = isParamJson e name)
    (hsfo : isParamSfo e name' = isParamSfo e name) :
    readMetadata file cntOffset e name' = readMetadata file cntOffset e name := by
  unfold readMetadata
  rw [hjson, hsfo]

theorem sameDocuments_rows {file tail : List UInt8} {cntOffset : Nat}
    {strTable : Option (List UInt8)} {memTable : Option (List UInt8) × Nat}
    {entries : List PkgEntry} {typeMagic : Nat} {contentId : Text}
    (h : (entries.map (memReadRow file tail cntOffset memTable)).map Row.taken =
      (entries.map (readRow file cntOffset strTable)).map Row.taken) :
    SameDocuments
      { cntOffset := cntOffset, typeMagic := typeMagic, contentId := contentId,
        rows := entries.map (readRow file cntOffset strTable) }
      { cntOffset := cntOffset, typeMagic := typeMagic, contentId := contentId,
        rows := entries.map (memReadRow file tail cntOffset memTable) } := by
  rw [List.map_map, List.map_map, List.map_inj_left] at h
  constructor
  · rfl
  · rfl
  · show (entries.map _).flatMap Row.metadata = (entries.map _).flatMap Row.metadata
    rw [List.flatMap_map, List.flatMap_map]
    apply List.flatMap_congr
    intro e he
    have htaken := h e he
    exact readMetadata_congr (congrArg (fun t => t.2.1) htaken) (congrArg (fun t => t.2.2) htaken)
  · show (entries.map _).any Row.isPatch = (entries.map _).any Row.isPatch
    rw [List.any_map, List.any_map]
    apply Bool.eq_iff_iff.mpr
    rw [List.any_eq_true, List.any_eq_true]
    constructor
    · rintro ⟨e, he, hpatch⟩
      exact ⟨e, he, (congrArg Prod.fst (h e he)).symm.trans hpatch⟩
    · rintro ⟨e, he, hpatch⟩
      exact ⟨e, he, (congrArg Prod.fst (h e he)).trans hpatch⟩

theorem openPackage_cases {file tail : List UInt8} (h : NamesAlike file tail) :
    (openPackage file = none ∧ memOpenPackage file tail = none) ∨
      exists p p', openPackage file = some p ∧ memOpenPackage file tail = some p' ∧
        SameDocuments p p' := by
  unfold NamesAlike at h
  unfold openPackage memOpenPackage at h ⊢
  dsimp only at h ⊢
  cases hcnt : findCnt (preadExact file) (fun cand => decide (cand < file.length))
      (file.take 0x200) with
  | none => exact Or.inl ⟨rfl, rfl⟩
  | some cntOffset =>
      rw [hcnt] at h
      dsimp only at h ⊢
      cases hhdr : readCntHeader (preadExact file) cntOffset with
      | none => exact Or.inl ⟨rfl, rfl⟩
      | some cnt =>
          rw [hhdr] at h
          dsimp only at h ⊢
          cases htable : preadExact file (cntOffset + cnt.tableOffset) (cnt.entryCount * 32) with
          | none => exact Or.inl ⟨rfl, rfl⟩
          | some table =>
              rw [htable] at h
              dsimp only at h ⊢
              right
              exact ⟨_, _, rfl, rfl, sameDocuments_rows (Option.some.inj h)⟩

/-!
# Agreement
-/

/-- The fields that the two parsers have to agree on. -/
structure Summary where
  pkgType : PkgType
  pkgTypeStr : Text
  titleId : Text
  contentId : Text
  category : Text
  appVersion : Text
  platform : Text
deriving DecidableEq

def PkgDetail.summary (d : PkgDetail) : Summary where
  pkgType := d.pkgType
  pkgTypeStr := d.pkgTypeStr
  titleId := d.titleId
  contentId := d.contentId
  category := d.category
  appVersion := d.appVersion
  platform := d.platform

/-- A title ID that was not found is taken from the content ID. -/
def completeTitleId (contentId titleId : Text) : Text :=
  if titleId = [] ∧ contentId ≠ [] then titleIdFromContent contentId else titleId

def Package.summary (p : Package) (titleId version platform : Text) : Summary where
  pkgType := p.kind jsonHasBaseKey
  pkgTypeStr := typeText (p.kind jsonHasBaseKey)
  titleId := completeTitleId p.contentId titleId
  contentId := p.contentId
  category := firstText (p.metadata.map Metadata.category)
  appVersion := version
  platform := platform

/-- Whatever the names of the file and the memory behind the buffer, both parsers
fail, or both yield records with the same summary. -/
def MemAgrees (file tail : List UInt8) : Prop :=
  forall (filename path : Text) (mtime : Nat),
    (pkgParserParseMem file tail file.length filename).toOption.map PkgDetail.summary =
      (pkgParserParse path mtime file).map PkgDetail.summary

/-- The first title ID of the documents is also the first from the last param.json
on that has one. -/
def TitleIdKept (p : Package) : Prop :=
  completeTitleId p.contentId
      (firstText ((fromLast Metadata.setsTitleId p.metadata).map Metadata.titleId)) =
    completeTitleId p.contentId (firstText (p.metadata.map Metadata.titleId))

def VersionKept (p : Package) : Prop :=
  firstText ((fromLast Metadata.setsVersion p.metadata).map Metadata.version) =
    firstText (p.metadata.map Metadata.version)

instance (p : Package) : Decidable (TitleIdKept p) :=
  inferInstanceAs (Decidable (_ = _))

instance (p : Package) : Decidable (VersionKept p) :=
  inferInstanceAs (Decidable (_ = _))

theorem finishDetail_summary (typeMagic : Nat) (w : Walk) :
    (finishDetail typeMagic w).summary =
      { pkgType := decideType typeMagic w
        pkgTypeStr := typeText (decideType typeMagic w)
        titleId := completeTitleId w.detail.contentId w.detail.titleId
        contentId := w.detail.contentId
        category := w.category.1
        appVersion := w.detail.appVersion
        platform := w.detail.platform } := rfl

section Summaries
variable (p : Package) {d : PkgDetail}
variable (hcategory : d.category = []) (htitleId : d.titleId = []) (hversion : d.appVersion = [])
include hcategory htitleId hversion

theorem details_summary :
    (p.details jsonHasBaseKey d).summary =
      p.summary (firstText (p.metadata.map Metadata.titleId))
        (firstText (p.metadata.map Metadata.version))
        (p.metadata.foldl notePlatform d.platform) := by
  unfold Package.details
  rw [finishDetail_summary, decideType_walk p jsonHasBaseKey hcategory,
    walk_category p jsonHasBaseKey hcategory, walk_titleId p jsonHasBaseKey htitleId,
    walk_version p jsonHasBaseKey hversion, walk_platform, walk_contentId]
  rfl

theorem memDetails_summary :
    (p.memDetails d).summary =
      p.summary (firstText ((fromLast Metadata.setsTitleId p.metadata).map Metadata.titleId))
        (firstText ((fromLast Metadata.setsVersion p.metadata).map Metadata.version))
        (p.metadata.foldl notePlatform d.platform) := by
  show (finishDetail p.typeMagic (p.memWalk d)).summary = _
  rw [finishDetail_summary, decideType_memWalk p hcategory, memWalk_category p hcategory,
    memWalk_titleId p htitleId, memWalk_version p hversion, memWalk_platform, memWalk_contentId]
  rfl

end Summaries

theorem SameDocuments.summary {p p' : Package} (h : SameDocuments p p')
    (titleId version platform : Text) :
    p'.summary titleId version platform = p.summary titleId version platform := by
  unfold Package.summary Package.kind
  rw [h.typeMagic, h.contentId, h.metadata, h.isPatch]

theorem summary_eq_iff (p : Package) (titleId titleId' version version' platform : Text) :
    p.summary titleId' version' platform = p.summary titleId version platform ↔
      completeTitleId p.contentId titleId' = completeTitleId p.contentId titleId ∧
        version' = version := by
  constructor
  · intro h
    exact ⟨congrArg Summary.titleId h, congrArg Summary.appVersion h⟩
  · rintro ⟨htitleId, rfl⟩
    unfold Package.summary
    rw [htitleId]

theorem memOpenPackage_short {file : List UInt8} (h : file.length < 0x80) (tail : List UInt8) :
    memOpenPackage file tail = none := by
  unfold memOpenPackage
  dsimp only
  split
  · rfl
  · rename_i cntOffset _
    have hhdr : readCntHeader (preadExact file) cntOffset = none := by
      rw [readCntHeader_pread, preadExact_none (by omega)]
    rw [hhdr]

theorem pkgParserParseMem_single {file : List UInt8} (hsingle : startsMultipart file = false)
    (tail : List UInt8) (filename : Text) :
    (pkgParserParseMem file tail file.length filename).toOption =
      (memOpenPackage file tail).map (fun p => p.memDetails
        (notePlatformHeader (file.take 0x200) (memStart file.length filename))) := by
  unfold pkgParserParseMem
  dsimp only
  split
  · rename_i hshort
    rw [memOpenPackage_short hshort]
    rfl
  · rename_i hlong
    rw [hsingle]
    exact memParsePackage_eq (by omega) tail (memStart file.length filename)

/-- Where both parsers take the entries for the same, they agree unless a param.json
replaced a title ID or a version. -/
theorem mem_agrees_iff {file tail : List UInt8} (hsingle : startsMultipart file = false)
    (hnames : NamesAlike file tail) :
    MemAgrees file tail ↔
      forall p, openPackage file = some p -> TitleIdKept p ∧ VersionKept p := by
  have hboth : MemAgrees file tail ↔ forall filename path mtime,
      (memOpenPackage file tail).map (fun p => (p.memDetails
          (notePlatformHeader (file.take 0x200) (memStart file.length filename))).summary) =
        (openPackage file).map (fun p => (p.details jsonHasBaseKey
          (notePlatformHeader (file.take 0x200) (fileStart path mtime file))).summary) := by
    unfold MemAgrees
    apply forall_congr'
    intro filename
    apply forall_congr'
    intro path
    apply forall_congr'
    intro mtime
    rw [pkgParserParseMem_single hsingle, pkgParserParse_single hsingle, Option.map_map]
    unfold parseWith
    rw [Option.map_map]
    rfl
  rw [hboth]
  rcases openPackage_cases hnames with ⟨hnone, hmemNone⟩ | ⟨p, p', hopen, hmemOpen, hsame⟩
  · rw [hnone, hmemNone]
    simp
  · rw [hopen, hmemOpen]
    have hsummary : forall filename path mtime,
        (p'.memDetails (notePlatformHeader (file.take 0x200)
            (memStart file.length filename))).summary =
          (p.details jsonHasBaseKey (notePlatformHeader (file.take 0x200)
            (fileStart path mtime file))).summary ↔ TitleIdKept p ∧ VersionKept p := by
      intro filename path mtime
      rw [notePlatformHeader_frame, notePlatformHeader_frame, memDetails_summary p' rfl rfl rfl,
        details_summary p rfl rfl rfl, hsame.summary, hsame.metadata]
      exact summary_eq_iff p _ _ _ _ _
    constructor
    · intro h q hq
      cases hq
      exact (hsummary [] [] 0).mp (Option.some.inj (h [] [] 0))
    · intro h filename path mtime
      exact congrArg some ((hsummary filename path mtime).mpr (h p rfl))

/-!
# Two files
-/

/-- A package with one param.json for each title ID. -/
def titleIdFile (titleIds : List String) : List UInt8 :=
  cntFile 0 (titleIds.map (fun titleId =>
    (0x2000, 0, quoted "titleId" ++ ascii ":" ++ quoted titleId)))

theorem mem_agrees_same_id : MemAgrees (titleIdFile ["PPSA00001", "PPSA00001"]) [] :=
  (mem_agrees_iff (by decide +kernel) (by decide +kernel)).mpr (fun p hopen => by
    have hkept : (openPackage (titleIdFile ["PPSA00001", "PPSA00001"])).all
        (fun p => decide (TitleIdKept p ∧ VersionKept p)) = true := by
      decide +kernel
    rw [hopen] at hkept
    exact of_decide_eq_true hkept)

/-- The second param.json replaces the title ID only in memory. -/
theorem second_id_replaces : ¬ forall file tail, startsMultipart file = false -> MemAgrees file tail := by
  intro h
  have hagree := h (titleIdFile ["PPSA00001", "PPSA00002"]) [] (by decide) [] [] 0
  have hfile : (pkgParserParse [] 0 (titleIdFile ["PPSA00001", "PPSA00002"])).map
      PkgDetail.titleId = some (ascii "PPSA00001") := by
    decide +kernel
  have hmem : (pkgParserParseMem (titleIdFile ["PPSA00001", "PPSA00002"]) []
      (titleIdFile ["PPSA00001", "PPSA00002"]).length []).toOption.map PkgDetail.titleId =
        some (ascii "PPSA00002") := by
    decide +kernel
  have hid := congrArg (Option.map Summary.titleId) hagree
  rw [Option.map_map, Option.map_map] at hid
  change _ = (pkgParserParse [] 0 (titleIdFile ["PPSA00001", "PPSA00002"])).map
    PkgDetail.titleId at hid
  rw [hfile] at hid
  have hne := hmem.symm.trans hid
  revert hne
  decide

/-- A name without a zero byte at the end of the string table runs on in memory. -/
example : ¬ NamesAlike (cntFile 0 [(0x0200, 0, ascii "param.json"), (0, 0, ascii "{}")]) [] := by
  decide +kernel

end Parser
end PkgManager
