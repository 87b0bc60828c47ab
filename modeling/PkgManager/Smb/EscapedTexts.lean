import PkgManager.Bytes.FlatObject
import PkgManager.Cache.Meta
import PkgManager.Smb.Cursors

/-!
# Escaped texts

A text is escaped until the array has no room for a character that is written by its number.
The readers of requests drop the backslashes, so what comes back is the text only where every
byte is written as itself or behind a backslash.
-/

namespace PkgManager
namespace Smb

open CString
open JsonText (Piece)
open PkgManager.Parser
open PkgManager.Cache (Escaped unescaped NoControl escaped_of_plain unescaped_append)

/-!
# Characters
-/

theorem isHexDigit_hexDigit {n : Nat} (h : n < 16) : JsonText.isHexDigit (hexDigit n) = true := by
  have hall : forall m : Fin 16, JsonText.isHexDigit (hexDigit m) = true := by decide
  exact hall ⟨n, h⟩

theorem unicode_hex (c : UInt8) :
    [48, 48, hexDigit (c.toNat / 16), hexDigit (c.toNat % 16)].all JsonText.isHexDigit = true := by
  have hbyte := c.toNat_lt
  have hhigh := isHexDigit_hexDigit (n := c.toNat / 16) (by omega)
  have hlow := isHexDigit_hexDigit (n := c.toNat % 16) (by omega)
  simp only [List.all_cons, List.all_nil, hhigh, hlow]
  rfl

/-- The character that a byte is written as. -/
def escapedPiece (c : UInt8) : Piece :=
  if hmark : c = quote ∨ c = backslash then
    .short c (by rcases hmark with rfl | rfl <;> decide)
  else if c = 10 then .short 110 (by decide)
  else if c = 13 then .short 114 (by decide)
  else if c = 9 then .short 116 (by decide)
  else if hlow : c < 32 then
    .unicode [48, 48, hexDigit (c.toNat / 16), hexDigit (c.toNat % 16)] rfl (unicode_hex c)
  else .plain c (UInt8.not_lt.mp hlow) (not_or.mp hmark)

theorem escapedPiece_text (c : UInt8) : (escapedPiece c).text = escapePiece c := by
  unfold escapedPiece escapePiece
  split
  · rfl
  · split
    · rfl
    · split
      · rfl
      · split
        · rfl
        · split
          · rfl
          · rfl

theorem noControl_of_all {text : Text} (h : text.all (fun b => decide (32 ≤ b.toNat)) = true) :
    NoControl text :=
  fun b hb => of_decide_eq_true (List.all_eq_true.mp h b hb)

/-- A byte that is no control byte is read as itself; others are read as letters. -/
theorem escapedPiece_bare (c : UInt8) :
    ((escapedPiece c).bare = [c] ∧ 32 ≤ c.toNat) ∨
      (c.toNat < 32 ∧ NoControl (escapedPiece c).bare) := by
  unfold escapedPiece
  split
  · rename_i hmark
    left
    refine ⟨rfl, ?_⟩
    rcases hmark with rfl | rfl <;> decide
  · split
    · rename_i h
      right
      subst h
      exact ⟨by decide, noControl_of_all rfl⟩
    · split
      · rename_i h
        right
        subst h
        exact ⟨by decide, noControl_of_all rfl⟩
      · split
        · rename_i h
          right
          subst h
          exact ⟨by decide, noControl_of_all rfl⟩
        · split
          · rename_i hlow
            right
            refine ⟨hlow, ?_⟩
            intro b hb
            rcases List.mem_cons.mp hb with rfl | hb
            · decide
            · have hhex := List.all_eq_true.mp (unicode_hex c) b hb
              by_contra hlt
              have hall : forall m : Fin 32,
                  JsonText.isHexDigit (UInt8.ofNat m) = false := by decide
              have hb' := hall ⟨b.toNat, by omega⟩
              rw [UInt8.ofNat_toNat, hhex] at hb'
              cases hb'
          · rename_i hlow
            left
            exact ⟨rfl, UInt8.not_lt.mp hlow⟩

/-!
# Texts
-/

/-- The bytes that are escaped before the loop stops. -/
def keptFrom (dstSz : Nat) : Nat -> Text -> Text
  | _, [] => []
  | d, c :: rest =>
      if c = 0 ∨ dstSz ≤ d + 6 then []
      else c :: keptFrom dstSz (d + (escapePiece c).length) rest

def kept (dstSz : Nat) (src : Text) : Text :=
  keptFrom dstSz 0 src

def keptPieces (dstSz : Nat) (src : Text) : List Piece :=
  (kept dstSz src).map escapedPiece

theorem escapeFrom_kept (dstSz d : Nat) (src : Text) :
    escapeFrom dstSz d src = JsonText.inside ((keptFrom dstSz d src).map escapedPiece) := by
  induction src generalizing d with
  | nil => rfl
  | cons c rest ih =>
      unfold escapeFrom keptFrom
      split
      · rfl
      · rw [List.map_cons, JsonText.inside_cons, escapedPiece_text, ih]

theorem jsonStrEsc_eq (dstSz : Nat) (src : Text) :
    jsonStrEsc dstSz src = JsonText.inside (keptPieces dstSz src) :=
  escapeFrom_kept dstSz 0 src

theorem keptFrom_starts (dstSz d : Nat) (src : Text) : keptFrom dstSz d src <+: src := by
  induction src generalizing d with
  | nil => exact List.prefix_refl []
  | cons c rest ih =>
      unfold keptFrom
      split
      · exact List.nil_prefix
      · exact List.cons_prefix_cons.mpr ⟨rfl, ih _⟩

theorem kept_starts (dstSz : Nat) (src : Text) : kept dstSz src <+: src :=
  keptFrom_starts dstSz 0 src

/-- What is written and the zero byte behind it have room in the array. -/
theorem escapeFrom_length {dstSz d : Nat} (h : d < dstSz) (src : Text) :
    d + (escapeFrom dstSz d src).length < dstSz := by
  induction src generalizing d with
  | nil => exact h
  | cons c rest ih =>
      unfold escapeFrom
      split
      · exact h
      · rename_i hroom
        have hpiece := escapePiece_length c
        have hnext := ih (d := d + (escapePiece c).length) (by omega)
        rw [List.length_append]
        omega

theorem jsonStrEsc_length {dstSz : Nat} (h : 0 < dstSz) (src : Text) :
    (jsonStrEsc dstSz src).length < dstSz := by
  have hlen := escapeFrom_length h src
  rwa [Nat.zero_add] at hlen

/-- There is room in the array for all that stands in front of the last byte, and for a
character by its number behind it. -/
def FitsEscaped (dstSz : Nat) (src : Text) : Prop :=
  (src.dropLast.flatMap escapePiece).length + 6 < dstSz

theorem keptFrom_eq_iff (dstSz d : Nat) {src : Text} (hzero : ZeroFree src) (hne : src ≠ []) :
    keptFrom dstSz d src = src ↔ d + (src.dropLast.flatMap escapePiece).length + 6 < dstSz := by
  induction src generalizing d with
  | nil => exact absurd rfl hne
  | cons c rest ih =>
      have hc := hzero c List.mem_cons_self
      have hrest : ZeroFree rest := fun b hb => hzero b (List.mem_cons_of_mem c hb)
      unfold keptFrom
      cases hnext : rest with
      | nil =>
          rw [List.dropLast_singleton, List.flatMap_nil, List.length_nil, keptFrom]
          constructor
          · intro h
            split at h
            · cases h
            · omega
          · intro h
            rw [if_neg (not_or.mpr ⟨hc, by omega⟩)]
      | cons b more =>
          have hcons : rest ≠ [] := by
            rw [hnext]
            exact List.cons_ne_nil b more
          rw [<- hnext, List.dropLast_cons_of_ne_nil hcons, List.flatMap_cons, List.length_append]
          have hfront := ih (d + (escapePiece c).length) hrest hcons
          constructor
          · intro h
            split at h
            · cases h
            · rw [List.cons.injEq] at h
              have hlt := hfront.mp h.right
              omega
          · intro h
            have hgo : ¬(c = 0 ∨ dstSz ≤ d + 6) := not_or.mpr ⟨hc, by omega⟩
            rw [if_neg hgo, hfront.mpr (by omega)]

theorem kept_eq_iff {dstSz : Nat} (hroom : 6 < dstSz) {src : Text} (hzero : ZeroFree src) :
    kept dstSz src = src ↔ FitsEscaped dstSz src := by
  by_cases hne : src = []
  · rw [hne]
    exact ⟨fun _ => by simpa [FitsEscaped] using hroom, fun _ => rfl⟩
  · have h := keptFrom_eq_iff dstSz 0 hzero hne
    rwa [Nat.zero_add] at h

/-!
# Reading
-/

theorem escaped_pieces (pieces : List Piece) :
    Escaped (JsonText.inside pieces) ∧
      unescaped (JsonText.inside pieces) = JsonText.bare pieces := by
  induction pieces with
  | nil => exact ⟨Escaped.nil, rfl⟩
  | cons p rest ih =>
      rw [JsonText.inside_cons, JsonText.bare_cons]
      have hpiece : Escaped p.text ∧ unescaped p.text = p.bare := by
        cases p with
        | plain b printed mark =>
            apply escaped_of_plain
            intro c hc
            rw [List.mem_singleton.mp hc]
            refine ⟨?_, mark.left, mark.right⟩
            rintro rfl
            exact absurd printed (by decide)
        | short e known =>
            have he : e ≠ 0 := by
              rintro rfl
              exact absurd known (by decide)
            exact ⟨Escaped.pair he Escaped.nil, rfl⟩
        | unicode digits four hex =>
            have hdigits : Escaped digits ∧ unescaped digits = digits := by
              apply escaped_of_plain
              intro c hc
              have hhex := List.all_eq_true.mp hex c hc
              refine ⟨JsonText.isHexDigit_pos hhex, ?_, ?_⟩
              · rintro rfl
                cases hhex
              · rintro rfl
                cases hhex
            refine ⟨Escaped.pair (by decide) hdigits.left, ?_⟩
            change 117 :: unescaped digits = 117 :: digits
            rw [hdigits.right]
      exact ⟨hpiece.left.append ih.left, by rw [unescaped_append hpiece.left, hpiece.right,
        ih.right]⟩

/-- What a reader takes from an escaped text with room for a number of bytes. -/
def readEsc (dstSz room : Nat) (src : Text) : Text :=
  (JsonText.bare (keptPieces dstSz src)).take room

theorem noControl_bare (text : Text) : NoControl (JsonText.bare (text.map escapedPiece)) := by
  intro b hb
  rcases List.mem_flatMap.mp hb with ⟨p, hp, hbyte⟩
  rcases List.mem_map.mp hp with ⟨c, _, rfl⟩
  rcases escapedPiece_bare c with ⟨hsame, hprint⟩ | ⟨_, hall⟩
  · rw [hsame] at hbyte
    rw [List.mem_singleton.mp hbyte]
    exact hprint
  · exact hall b hbyte

theorem bare_noControl {text : Text} (h : NoControl text) :
    JsonText.bare (text.map escapedPiece) = text := by
  induction text with
  | nil => rfl
  | cons c rest ih =>
      have hc := h c List.mem_cons_self
      rw [List.map_cons, JsonText.bare_cons, ih (fun b hb => h b (List.mem_cons_of_mem c hb))]
      rcases escapedPiece_bare c with ⟨hsame, _⟩ | ⟨hlow, _⟩
      · rw [hsame]
        rfl
      · omega

/-- A text without control bytes that fits. -/
structure Returned (dstSz : Nat) (src : Text) : Prop where
  plain : NoControl src
  fits : FitsEscaped dstSz src

theorem readEsc_returned {dstSz room : Nat} (hroom : 6 < dstSz) {src : Text} (hzero : ZeroFree src)
    (hlen : src.length ≤ room) (h : Returned dstSz src) : readEsc dstSz room src = src := by
  unfold readEsc keptPieces
  rw [(kept_eq_iff hroom hzero).mpr h.fits, bare_noControl h.plain, List.take_of_length_le hlen]

/-- Cleaning does not bring back what was lost on the way. -/
theorem returned_of_cleaned {dstSz room : Nat} (hroom : 6 < dstSz) {src : Text}
    (hzero : ZeroFree src) {clean : Text -> Text}
    (hbytes : forall t b, b ∈ clean t -> b = 47 ∨ b ∈ t)
    (hlen : forall t, (clean t).length ≤ t.length)
    (h : clean (readEsc dstSz room src) = src) : Returned dstSz src := by
  have hplain : NoControl src := by
    intro b hb
    rw [<- h] at hb
    rcases hbytes _ b hb with rfl | hmem
    · decide
    · exact noControl_bare _ b (List.mem_of_mem_take hmem)
  refine ⟨hplain, (kept_eq_iff hroom hzero).mp ?_⟩
  have hkept : NoControl (kept dstSz src) :=
    fun b hb => hplain b ((kept_starts dstSz src).subset hb)
  have hlong := hlen (readEsc dstSz room src)
  rw [h, readEsc, keptPieces, bare_noControl hkept, List.length_take] at hlong
  exact (kept_starts dstSz src).eq_of_length_le (hlong.trans (Nat.min_le_right _ _))

theorem returned_of_same {dstSz room : Nat} (hroom : 6 < dstSz) {src : Text}
    (hzero : ZeroFree src) (h : readEsc dstSz room src = src) : Returned dstSz src := by
  have hid : id (readEsc dstSz room src) = src := h
  exact returned_of_cleaned hroom hzero (fun _ _ hb => Or.inr hb) (fun _ => Nat.le_refl _) hid

end Smb
end PkgManager
