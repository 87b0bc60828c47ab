import PkgManager.Leftovers.Scan
import PkgManager.Parser.ParamJsonReads

/-!
# The files of a title

Title and version stand in a param.sfo or a param.json that anyone may have written.  Both are
read into a buffer first; no step of the readers leaves what was read.
-/

namespace PkgManager
namespace Leftovers

open CString
open Checked
open Endian
open PkgManager.Parser

/-- The array that a file is read to. -/
def fileMax : Nat := 16384

/-!
# param.sfo
-/

structure SfoHead where
  keyTableStart : Nat
  dataTableStart : Nat
  entryCount : Nat

/-- What both readers of a param.sfo look at first. -/
def sfoHead (sfo : List UInt8) : Option (Option SfoHead) :=
  if sfo.length < 20 then some none
  else do
    let magic <- block 4 sfo
    if magic ≠ 0 :: ascii "PSF" then some none
    else do
      let keyTableStart <- readLe32 (sfo.drop 8)
      let dataTableStart <- readLe32 (sfo.drop 12)
      let entryCount <- readLe32 (sfo.drop 16)
      if sfo.length ≤ keyTableStart ∨ sfo.length ≤ dataTableStart ∨ 1024 < entryCount then
        some none
      else some (some ⟨keyTableStart, dataTableStart, entryCount⟩)

/-- What an entry of the table comes to. -/
inductive SfoRow where
  | beyond
  | skipped
  | entry (key : List UInt8) (dataLen : Nat) (data : List UInt8)

/-- The entry with the number {lit}`i`.  The sums of the offsets have 32 bits, the pointers do
not. -/
def sfoRow (sfo : List UInt8) (head : SfoHead) (i : Nat) : Option SfoRow :=
  if sfo.length < (20 + (i + 1) * 16) % 2 ^ 32 then some .beyond
  else do
    let e := sfo.drop (20 + i * 16)
    let keyOff <- readLe16 e
    let dataLen <- readLe32 (e.drop 4)
    let dataOff <- readLe32 (e.drop 12)
    let keyPlace := (head.keyTableStart + keyOff) % 2 ^ 32
    if sfo.length ≤ keyPlace then some .skipped
    else do
      let key <- advance (head.keyTableStart + keyOff) sfo
      let ended <- memchr 0 (sfo.length - keyPlace) key
      if ended = false then some .skipped
      else if sfo.length < dataOff ∨ sfo.length < dataLen ∨
          sfo.length < head.dataTableStart + dataOff + dataLen then some .skipped
      else do
        let data <- advance (head.dataTableStart + dataOff) sfo
        some (.entry key dataLen data)

/-- {lit}`copy_len` after the loop that takes zeros and line ends from the end. -/
def trimmedLen (data : List UInt8) : Nat -> Option Nat
  | 0 => some 0
  | n + 1 =>
      match data[n]? with
      | none => none
      | some b => if b = 0 ∨ b = 10 ∨ b = 13 then trimmedLen data n else some (n + 1)

/-- The text in an array of {lit}`max` bytes that a value was copied to. -/
def copyValue (max dataLen : Nat) (data : List UInt8) : Option Text := do
  let copyLen <- trimmedLen data (if dataLen < max then dataLen else max - 1)
  let bytes <- block copyLen data
  some (cString bytes)

/-- The loop of {lit}`read_param_sfo_title` with the rows that are left. -/
def titleRows (sfo : List UInt8) (head : SfoHead) (max : Nat) :
    Nat -> Nat -> Option (Option Text)
  | 0, _ => some none
  | rows + 1, i => do
      match <- sfoRow sfo head i with
      | .beyond => some none
      | .skipped => titleRows sfo head max rows (i + 1)
      | .entry key dataLen data => do
          let isTitle <- strcmp (ascii "TITLE") key
          if isTitle then do
            let title <- copyValue max dataLen data
            some (some title)
          else titleRows sfo head max rows (i + 1)

/-- {lit}`read_param_sfo_title` behind the file that was read. -/
def readParamSfoTitle (sfo : List UInt8) (max : Nat) : Option (Option Text) := do
  match <- sfoHead sfo with
  | none => some none
  | some head => titleRows sfo head max head.entryCount 0

/-- The loop of {lit}`read_param_sfo_version_simple`: a later APP_VER takes the place of what
was found. -/
def versionRows (sfo : List UInt8) (head : SfoHead) (max : Nat) :
    Nat -> Nat -> Text -> Option Text
  | 0, _, ver => some ver
  | rows + 1, i, ver => do
      match <- sfoRow sfo head i with
      | .beyond => some ver
      | .skipped => versionRows sfo head max rows (i + 1) ver
      | .entry key dataLen data => do
          let isAppVer <- strcmp (ascii "APP_VER") key
          let isVersion <- if isAppVer then some false else strcmp (ascii "VERSION") key
          if isAppVer || (isVersion && ver.isEmpty) then do
            let ver <- copyValue max dataLen data
            versionRows sfo head max rows (i + 1) ver
          else versionRows sfo head max rows (i + 1) ver

/-- {lit}`read_param_sfo_version_simple` -/
def readParamSfoVersionSimple (sfo : List UInt8) (max : Nat) : Option (Option Text) := do
  match <- sfoHead sfo with
  | none => some none
  | some head => do
      let ver <- versionRows sfo head max head.entryCount 0 []
      some (if ver = [] then none else some ver)

/-!
# param.json
-/

/-- The arrays of {lit}`read_param_json_title`. -/
def titleSizes (max : Nat) : ParamSizes where
  titleId := titleIdLen
  titleName := max
  category := 16
  version := 32
  localizedTitles := localizedTitlesLen
  defaultLang := defaultLangLen

/-- {lit}`read_param_json_title` -/
def readParamJsonTitle (json : List UInt8) (max : Nat) : Option (Option Text) :=
  if json = [] then some none
  else do
    let texts <- pkgParserParseParamJsonIn (titleSizes max) json ParamTexts.empty
    some (if texts.titleName = [] then none else some texts.titleName)

theorem readParamJsonTitle_inside (json : List UInt8) (max : Nat) :
    (readParamJsonTitle json max).isSome = true := by
  unfold readParamJsonTitle
  split
  · rfl
  · rw [pkgParserParseParamJsonIn_eq]
    rfl

/-!
# Steps that stay inside
-/

/-- What the first checks leave of a document that fits the array. -/
structure SfoHead.Fits (sfo : List UInt8) (head : SfoHead) : Prop where
  file : sfo.length ≤ fileMax
  keys : head.keyTableStart < sfo.length
  count : head.entryCount ≤ 1024

/-- An entry has a key that ends and all of its value. -/
inductive SfoRow.Fine : SfoRow -> Prop where
  | beyond : SfoRow.Fine .beyond
  | skipped : SfoRow.Fine .skipped
  | entry {key data : List UInt8} {dataLen : Nat} (ended : 0 ∈ key) (whole : dataLen ≤ data.length) :
      SfoRow.Fine (.entry key dataLen data)

theorem sfoHead_fits {sfo : List UInt8} (hfile : sfo.length ≤ fileMax) :
    exists head, sfoHead sfo = some head ∧ forall h, head = some h -> h.Fits sfo := by
  unfold sfoHead
  by_cases hshort : sfo.length < 20
  · rw [if_pos hshort]
    exact ⟨none, rfl, fun h hh => by cases hh⟩
  · have hread : forall n, n ≤ 16 -> 4 ≤ (sfo.drop n).length := by
      intro n hn
      rw [List.length_drop]
      omega
    rw [if_neg hshort, block_of_le (by omega)]
    dsimp only [Option.bind_eq_bind, Option.bind_some]
    split
    · exact ⟨none, rfl, fun h hh => by cases hh⟩
    · rw [readLe32_of_le (hread 8 (by decide)), readLe32_of_le (hread 12 (by decide)),
        readLe32_of_le (hread 16 (by decide))]
      dsimp only [Option.bind_some]
      split
      · exact ⟨none, rfl, fun h hh => by cases hh⟩
      · rename_i hchecks
        rw [not_or, not_or] at hchecks
        refine ⟨_, rfl, fun h hh => ?_⟩
        cases hh
        exact ⟨hfile, Nat.lt_of_not_le hchecks.left, Nat.le_of_not_lt hchecks.right.right⟩

theorem sfoRow_fine {sfo : List UInt8} {head : SfoHead} (h : head.Fits sfo) {i : Nat}
    (hi : i < 1024) : exists row, sfoRow sfo head i = some row ∧ row.Fine := by
  have hfile : sfo.length ≤ 16384 := h.file
  have hkeys := h.keys
  have hplace : (20 + (i + 1) * 16) % 2 ^ 32 = 20 + (i + 1) * 16 := Nat.mod_eq_of_lt (by omega)
  unfold sfoRow
  rw [hplace]
  by_cases hbeyond : sfo.length < 20 + (i + 1) * 16
  · rw [if_pos hbeyond]
    exact ⟨_, rfl, .beyond⟩
  · have hread : forall n, n ≤ 12 -> 4 ≤ ((sfo.drop (20 + i * 16)).drop n).length := by
      intro n hn
      rw [List.length_drop, List.length_drop]
      omega
    have hoff := readLe16_of_le (Nat.le_trans (by decide) (hread 0 (by decide)))
    rw [List.drop_zero] at hoff
    have hlt := ofLittleEndian_lt ((sfo.drop (20 + i * 16)).take 2)
    have htwo : (256 : Nat) ^ ((sfo.drop (20 + i * 16)).take 2).length ≤ 256 ^ 2 :=
      Nat.pow_le_pow_right (by decide) (List.length_take_le _ _)
    rw [if_neg hbeyond]
    dsimp only [Option.bind_eq_bind]
    rw [hoff, readLe32_of_le (hread 4 (by decide)), readLe32_of_le (hread 12 (by decide))]
    dsimp only [Option.bind_some]
    generalize ofLittleEndian ((sfo.drop (20 + i * 16)).take 2) = keyOff at hlt
    generalize ofLittleEndian (((sfo.drop (20 + i * 16)).drop 4).take 4) = dataLen
    generalize ofLittleEndian (((sfo.drop (20 + i * 16)).drop 12).take 4) = dataOff
    have hkey : (head.keyTableStart + keyOff) % 2 ^ 32 = head.keyTableStart + keyOff :=
      Nat.mod_eq_of_lt (by omega)
    rw [hkey]
    split
    · exact ⟨_, rfl, .skipped⟩
    · rename_i hin
      have hlen : sfo.length - (head.keyTableStart + keyOff) =
          (sfo.drop (head.keyTableStart + keyOff)).length := by rw [List.length_drop]
      rw [advance_of_le (Nat.le_of_not_le hin)]
      dsimp only [Option.bind_some]
      rw [memchr_of_le hlen.le, hlen, List.take_length]
      dsimp only [Option.bind_some]
      split
      · exact ⟨_, rfl, .skipped⟩
      · rename_i hended
        split
        · exact ⟨_, rfl, .skipped⟩
        · rename_i hdata
          rw [not_or, not_or] at hdata
          rw [advance_of_le (by omega)]
          refine ⟨_, rfl, .entry (by simpa using hended) ?_⟩
          rw [List.length_drop]
          omega

theorem trimmedLen_le {data : List UInt8} {n : Nat} (h : n ≤ data.length) :
    exists m, trimmedLen data n = some m ∧ m ≤ data.length := by
  induction n with
  | zero => exact ⟨0, rfl, h⟩
  | succ n ih =>
      unfold trimmedLen
      rw [List.getElem?_eq_getElem h]
      dsimp only
      split
      · exact ih (Nat.le_of_lt h)
      · exact ⟨n + 1, rfl, h⟩

theorem copyValue_inside (max : Nat) {dataLen : Nat} {data : List UInt8} (h : dataLen ≤ data.length) :
    exists text, copyValue max dataLen data = some text := by
  have hlen : (if dataLen < max then dataLen else max - 1) ≤ data.length := by
    split <;> omega
  rcases trimmedLen_le hlen with ⟨m, hm, hle⟩
  unfold copyValue
  rw [hm]
  dsimp only [Option.bind_eq_bind, Option.bind_some]
  rw [block_of_le hle]
  exact ⟨_, rfl⟩

/-- A key that ends is compared inside of it. -/
theorem strcmp_key {text : String} {key : List UInt8}
    (htext : (ascii text).all (fun b => b != 0) = true) (h : 0 ∈ key) :
    strcmp (ascii text) key = some (decide (cString key = ascii text)) :=
  strcmp_ended (zeroFree_of_all htext) h

theorem titleRows_inside {sfo : List UInt8} {head : SfoHead} (h : head.Fits sfo) (max : Nat)
    {rows i : Nat} (hrows : i + rows ≤ 1024) :
    exists title, titleRows sfo head max rows i = some title := by
  induction rows generalizing i with
  | zero => exact ⟨none, rfl⟩
  | succ rows ih =>
      rcases sfoRow_fine h (show i < 1024 by omega) with ⟨row, hrow, hfine⟩
      have hrest := ih (show i + 1 + rows ≤ 1024 by omega)
      unfold titleRows
      rw [hrow]
      dsimp only [Option.bind_eq_bind, Option.bind_some]
      cases hfine with
      | beyond => exact ⟨none, rfl⟩
      | skipped => exact hrest
      | entry hended hwhole =>
          rcases copyValue_inside max hwhole with ⟨text, htext⟩
          dsimp only
          rw [strcmp_key (by decide) hended, htext]
          dsimp only [Option.bind_some]
          split
          · exact ⟨some text, rfl⟩
          · exact hrest

theorem readParamSfoTitle_inside {sfo : List UInt8} (h : sfo.length ≤ fileMax) (max : Nat) :
    (readParamSfoTitle sfo max).isSome = true := by
  rcases sfoHead_fits h with ⟨head, hhead, hfits⟩
  unfold readParamSfoTitle
  rw [hhead]
  cases head with
  | none => rfl
  | some head =>
      have hrows : 0 + head.entryCount ≤ 1024 := (Nat.zero_add _).symm ▸ (hfits head rfl).count
      rcases titleRows_inside (hfits head rfl) max hrows with ⟨title, htitle⟩
      dsimp only [Option.bind_eq_bind, Option.bind_some]
      rw [htitle]
      rfl

theorem versionRows_inside {sfo : List UInt8} {head : SfoHead} (h : head.Fits sfo) (max : Nat)
    {rows i : Nat} (hrows : i + rows ≤ 1024) (ver : Text) :
    exists text, versionRows sfo head max rows i ver = some text := by
  induction rows generalizing i ver with
  | zero => exact ⟨ver, rfl⟩
  | succ rows ih =>
      rcases sfoRow_fine h (show i < 1024 by omega) with ⟨row, hrow, hfine⟩
      have hrest := ih (show i + 1 + rows ≤ 1024 by omega)
      unfold versionRows
      rw [hrow]
      dsimp only [Option.bind_eq_bind, Option.bind_some]
      cases hfine with
      | beyond => exact ⟨ver, rfl⟩
      | skipped => exact hrest ver
      | entry hended hwhole =>
          rcases copyValue_inside max hwhole with ⟨text, htext⟩
          dsimp only
          rw [strcmp_key (by decide) hended, strcmp_key (by decide) hended, htext]
          dsimp only [Option.bind_some]
          have hgo : forall b : Bool, exists text', (if b = true then
              versionRows sfo head max rows (i + 1) text
              else versionRows sfo head max rows (i + 1) ver) = some text' := by
            intro b
            split
            · exact hrest text
            · exact hrest ver
          split <;> exact hgo _

theorem readParamSfoVersionSimple_inside {sfo : List UInt8} (h : sfo.length ≤ fileMax)
    (max : Nat) : (readParamSfoVersionSimple sfo max).isSome = true := by
  rcases sfoHead_fits h with ⟨head, hhead, hfits⟩
  unfold readParamSfoVersionSimple
  rw [hhead]
  cases head with
  | none => rfl
  | some head =>
      have hrows : 0 + head.entryCount ≤ 1024 := (Nat.zero_add _).symm ▸ (hfits head rfl).count
      rcases versionRows_inside (hfits head rfl) max hrows [] with ⟨text, htext⟩
      dsimp only [Option.bind_eq_bind, Option.bind_some]
      rw [htext]
      rfl

end Leftovers
end PkgManager
