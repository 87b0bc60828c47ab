import PkgManager.Bytes.Endian
import PkgManager.Cache.Meta

/-!
# Placeholders of icons

The server writes the first frequencies of an icon as a short text, and the browser reads
them back.  The frequencies themselves are sums of floating-point numbers: what is
modelled are the whole numbers they are rounded to.
-/

namespace PkgManager
namespace Icons

open CString
open PkgManager.Parser (Text quote backslash)

def kBase83Chars : Text :=
  ascii ("0123456789ABCDEFGHIJKLMNOPQRSTUVWXYZabcdefghijklmnopqrstuvwxyz#$%*+,-.:;=?@[]^_" ++
    "\x7b|\x7d~")

def base83Char (digit : Nat) : UInt8 := kBase83Chars.getD digit 0

def encodeBase83 (value length : Nat) : Text :=
  ((Numeral.digits 83 length value).map base83Char).reverse

/-!
# The encoder
-/

/-- What the sums are rounded to: {lit}`(int)(max_ac * 166.0f - 0.5f)`, the three results of
{lit}`linear_to_srgb`, and {lit}`qv` for each frequency behind the first and each colour. -/
structure Rounded where
  quantMax : Int
  dcR : UInt8
  dcG : UInt8
  dcB : UInt8
  qv : Nat -> Int × Int × Int

/-- {lit}`if (v < 0) v = 0; if (v > max) v = max;` -/
def clamp (max : Nat) (v : Int) : Nat :=
  if v < 0 then 0 else if v > max then max else v.toNat

def acNumbers (sums : Rounded) (k : Nat) : Nat × Nat × Nat :=
  if clamp 82 sums.quantMax > 0 then
    (clamp 18 (sums.qv k).1, clamp 18 (sums.qv k).2.1, clamp 18 (sums.qv k).2.2)
  else (9, 9, 9)

def packAc (q : Nat × Nat × Nat) : Nat := q.1 * 19 * 19 + q.2.1 * 19 + q.2.2

def packDc (sums : Rounded) : Nat :=
  sums.dcR.toNat <<< 16 + sums.dcG.toNat <<< 8 + sums.dcB.toNat

def blurhashText (xComp yComp : Nat) (sums : Rounded) : Text :=
  encodeBase83 (xComp - 1 + (yComp - 1) * 9) 1 ++
    (encodeBase83 (clamp 82 sums.quantMax) 1 ++
      (encodeBase83 (packDc sums) 4 ++
        (List.range' 1 (xComp * yComp - 1)).flatMap
          (fun k => encodeBase83 (packAc (acNumbers sums k)) 2)))

def blurhashEncodeRgb (width height : Int) (xComp yComp outMax : Nat) (sums : Rounded) :
    Option Text :=
  if width ≤ 0 ∨ height ≤ 0 ∨ xComp < 1 ∨ xComp > 9 ∨ yComp < 1 ∨ yComp > 9 then none
  else if outMax < 4 + 2 * xComp * yComp + 1 then none
  else some (blurhashText xComp yComp sums)

/-!
# The decoder
-/

def digitCharacters : Text :=
  ascii ("0123456789ABCDEFGHIJKLMNOPQRSTUVWXYZabcdefghijklmnopqrstuvwxyz#$%*+,-.:;=?@[]^_" ++
    "\x7b|\x7d~")

def decode83From (str : Text) : Nat -> Nat -> Nat -> Except String Nat
  | 0, _, value => Except.ok value
  | left + 1, i, value =>
      match (str[i]?).bind (fun b => digitCharacters.idxOf? b) with
      | none => Except.error "Invalid BlurHash character"
      | some digit => decode83From str left (i + 1) (value * 83 + digit)

def decode83 (str : Text) (start stop : Nat) : Except String Nat :=
  decode83From str (stop - start) start 0

/-- The numbers that the colours are computed from: the arguments of {lit}`sRGBToLinear`
for the first one, the digits around 0 for the others. -/
def colorAt (hash : Text) (i : Nat) : Except String (Int × Int × Int) :=
  if i = 0 then do
    let value <- decode83 hash 2 6
    Except.ok (((value >>> 16 : Nat) : Int), (((value >>> 8) &&& 255 : Nat) : Int),
      ((value &&& 255 : Nat) : Int))
  else do
    let value <- decode83 hash (4 + i * 2) (6 + i * 2)
    Except.ok (((value / (19 * 19) : Nat) : Int) - 9, ((value / 19 % 19 : Nat) : Int) - 9,
      ((value % 19 : Nat) : Int) - 9)

def colorsFrom (hash : Text) : Nat -> Nat -> Except String (List (Int × Int × Int))
  | 0, _ => Except.ok []
  | left + 1, i => do
      let color <- colorAt hash i
      let rest <- colorsFrom hash left (i + 1)
      Except.ok (color :: rest)

structure HashNumbers where
  numX : Nat
  numY : Nat
  quantisedMaximumValue : Nat
  colors : List (Int × Int × Int)
deriving DecidableEq

def decodeBlurHash (hash : Text) : Except String HashNumbers :=
  if hash.length < 6 then Except.error "BlurHash too short"
  else do
    let sizeFlag <- decode83 hash 0 1
    let numY := sizeFlag / 9 + 1
    let numX := sizeFlag % 9 + 1
    if hash.length ≠ 4 + 2 * numX * numY then Except.error "BlurHash length mismatch"
    else do
      let quantisedMaximumValue <- decode83 hash 1 2
      let colors <- colorsFrom hash (numX * numY) 0
      Except.ok
        { numX := numX, numY := numY, quantisedMaximumValue := quantisedMaximumValue,
          colors := colors }

/-!
# Digits
-/

theorem idxOf_base83Char {digit : Nat} (h : digit < 83) :
    digitCharacters.idxOf? (base83Char digit) = some digit := by
  have hall : forall d : Fin 83, digitCharacters.idxOf? (base83Char d.val) = some d.val := by
    decide +kernel
  exact hall ⟨digit, h⟩

theorem length_encodeBase83 (value length : Nat) : (encodeBase83 value length).length = length := by
  rw [encodeBase83, List.length_reverse, List.length_map, Numeral.length_digits]

/-- The loop over digits that stand in the text. -/
theorem decode83From_digits {str back : Text} {i : Nat} (digits : List Nat) (value : Nat)
    (hsmall : forall digit, digit ∈ digits -> digit < 83)
    (hstr : str.drop i = digits.map base83Char ++ back) :
    decode83From str digits.length i value =
      Except.ok (digits.foldl (fun value digit => value * 83 + digit) value) := by
  induction digits generalizing i value with
  | nil => rfl
  | cons digit rest ih =>
      have hfirst : str[i]? = some (base83Char digit) := by
        have hhead := congrArg (fun l => l[0]?) hstr
        simpa [List.getElem?_drop] using hhead
      have hrest : str.drop (i + 1) = rest.map base83Char ++ back := by
        rw [<- List.drop_drop, hstr]
        rfl
      rw [List.length_cons, decode83From, hfirst, Option.bind_some,
        idxOf_base83Char (hsmall digit List.mem_cons_self)]
      exact ih _ (fun d hd => hsmall d (List.mem_cons_of_mem digit hd)) hrest

/-- What was written with enough digits is read back. -/
theorem decode83_encodeBase83 {str back : Text} {i value length : Nat} (h : value < 83 ^ length)
    (hstr : str.drop i = encodeBase83 value length ++ back) :
    decode83 str i (i + length) = Except.ok value := by
  unfold decode83
  rw [Nat.add_sub_cancel_left]
  have hdigits := decode83From_digits (Numeral.digits 83 length value).reverse 0
    (fun digit hmem => Numeral.lt_of_mem_digits (by decide) (List.mem_reverse.mp hmem))
    (by rw [List.map_reverse]; exact hstr)
  rw [List.length_reverse, Numeral.length_digits] at hdigits
  rw [hdigits]
  exact congrArg Except.ok (Numeral.value_digits h)

/-!
# Numbers of the hash
-/

theorem clamp_le (max : Nat) (v : Int) : clamp max v ≤ max := by
  unfold clamp
  split
  · exact Nat.zero_le _
  · split
    · exact Nat.le_refl _
    · omega

structure SmallDigits (q : Nat × Nat × Nat) : Prop where
  first : q.1 ≤ 18
  second : q.2.1 ≤ 18
  third : q.2.2 ≤ 18

theorem smallDigits_acNumbers (sums : Rounded) (k : Nat) : SmallDigits (acNumbers sums k) := by
  unfold acNumbers
  split
  · exact ⟨clamp_le _ _, clamp_le _ _, clamp_le _ _⟩
  · exact ⟨by decide, by decide, by decide⟩

theorem packAc_lt {q : Nat × Nat × Nat} (h : SmallDigits q) : packAc q < 83 ^ 2 := by
  have h1 := h.first
  have h2 := h.second
  have h3 := h.third
  unfold packAc
  omega

/-- Three digits in base 19 are read back. -/
theorem unpackAc {q : Nat × Nat × Nat} (h : SmallDigits q) :
    (packAc q / (19 * 19), packAc q / 19 % 19, packAc q % 19) = q := by
  have h1 := h.first
  have h2 := h.second
  have h3 := h.third
  unfold packAc
  ext
  · dsimp only
    omega
  · dsimp only
    omega
  · dsimp only
    omega

theorem packDc_eq (sums : Rounded) :
    packDc sums = sums.dcR.toNat * 65536 + sums.dcG.toNat * 256 + sums.dcB.toNat := by
  unfold packDc
  rw [Nat.shiftLeft_eq, Nat.shiftLeft_eq]

theorem packDc_lt (sums : Rounded) : packDc sums < 83 ^ 4 := by
  have hr := sums.dcR.toNat_lt
  have hg := sums.dcG.toNat_lt
  have hb := sums.dcB.toNat_lt
  rw [packDc_eq]
  omega

theorem unpackDc (sums : Rounded) :
    (packDc sums >>> 16, (packDc sums >>> 8) &&& 255, packDc sums &&& 255) =
      (sums.dcR.toNat, sums.dcG.toNat, sums.dcB.toNat) := by
  have hr := sums.dcR.toNat_lt
  have hg := sums.dcG.toNat_lt
  have hb := sums.dcB.toNat_lt
  have hmask : forall n : Nat, n &&& 255 = n % 256 := fun n => Nat.and_two_pow_sub_one_eq_mod n 8
  rw [hmask, hmask, Nat.shiftRight_eq_div_pow, Nat.shiftRight_eq_div_pow, packDc_eq]
  ext
  · dsimp only
    omega
  · dsimp only
    omega
  · dsimp only
    omega

/-- The numbers that were written, as the decoder counts them. -/
def hashColors (count : Nat) (sums : Rounded) : List (Int × Int × Int) :=
  ((sums.dcR.toNat : Int), (sums.dcG.toNat : Int), (sums.dcB.toNat : Int)) ::
    (List.range' 1 (count - 1)).map (fun k =>
      let q := acNumbers sums k
      ((q.1 : Int) - 9, (q.2.1 : Int) - 9, (q.2.2 : Int) - 9))

/-!
# The text is read back
-/

def acText (sums : Rounded) (ks : List Nat) : Text :=
  ks.flatMap (fun k => encodeBase83 (packAc (acNumbers sums k)) 2)

theorem length_acText (sums : Rounded) (ks : List Nat) :
    (acText sums ks).length = 2 * ks.length := by
  induction ks with
  | nil => rfl
  | cons k rest ih =>
      unfold acText at ih ⊢
      rw [List.flatMap_cons, List.length_append, length_encodeBase83, ih, List.length_cons]
      omega

theorem length_blurhashText {xComp yComp : Nat} (hx : 1 ≤ xComp) (hy : 1 ≤ yComp)
    (sums : Rounded) : (blurhashText xComp yComp sums).length = 4 + 2 * xComp * yComp := by
  have hac := length_acText sums (List.range' 1 (xComp * yComp - 1))
  have hpos : 0 < xComp * yComp := Nat.mul_pos hx hy
  unfold acText at hac
  unfold blurhashText
  rw [List.length_append, List.length_append, List.length_append, length_encodeBase83,
    length_encodeBase83, length_encodeBase83, hac, List.length_range', Nat.mul_assoc]
  omega

theorem colorsFrom_acText {hash : Text} (sums : Rounded) (left : Nat) {i : Nat} (hi : 1 ≤ i)
    (hhash : hash.drop (4 + i * 2) = acText sums (List.range' i left)) :
    colorsFrom hash left i = Except.ok ((List.range' i left).map (fun k =>
      let q := acNumbers sums k
      ((q.1 : Int) - 9, (q.2.1 : Int) - 9, (q.2.2 : Int) - 9))) := by
  induction left generalizing i with
  | zero => rfl
  | succ left ih =>
      have hsmall := smallDigits_acNumbers sums i
      have hcons : acText sums (List.range' i (left + 1)) =
          encodeBase83 (packAc (acNumbers sums i)) 2 ++ acText sums (List.range' (i + 1) left) := by
        rw [acText, List.range'_succ, List.flatMap_cons]
        rfl
      rw [hcons] at hhash
      have hvalue := decode83_encodeBase83 (packAc_lt hsmall) hhash
      have hstop : 4 + i * 2 + 2 = 6 + i * 2 := by omega
      rw [hstop] at hvalue
      have hnext : hash.drop (4 + (i + 1) * 2) = acText sums (List.range' (i + 1) left) := by
        have hplace : 4 + (i + 1) * 2 = 4 + i * 2 + 2 := by omega
        rw [hplace, <- List.drop_drop, hhash, List.drop_left' (length_encodeBase83 _ 2)]
      have hunpack := unpackAc hsmall
      have hfirst := congrArg Prod.fst hunpack
      have hsecond := congrArg (fun q => q.2.1) hunpack
      have hthird := congrArg (fun q => q.2.2) hunpack
      dsimp only at hfirst hsecond hthird
      have hcolor : colorAt hash i = Except.ok
          (((acNumbers sums i).1 : Int) - 9, ((acNumbers sums i).2.1 : Int) - 9,
            ((acNumbers sums i).2.2 : Int) - 9) := by
        unfold colorAt
        rw [if_neg (by omega), hvalue]
        change Except.ok _ = _
        rw [hfirst, hsecond, hthird]
      rw [colorsFrom, hcolor, List.range'_succ, List.map_cons]
      change (colorsFrom hash left (i + 1)).bind _ = _
      rw [ih (by omega) hnext]
      rfl

theorem decodeBlurHash_blurhashText {xComp yComp : Nat} (hx : 1 ≤ xComp) (hx9 : xComp ≤ 9)
    (hy : 1 ≤ yComp) (hy9 : yComp ≤ 9) (sums : Rounded) :
    decodeBlurHash (blurhashText xComp yComp sums) = Except.ok
      { numX := xComp, numY := yComp, quantisedMaximumValue := clamp 82 sums.quantMax,
        colors := hashColors (xComp * yComp) sums } := by
  have hlength := length_blurhashText hx hy sums
  have hpos : 0 < xComp * yComp := Nat.mul_pos hx hy
  rw [Nat.mul_assoc] at hlength
  have hsize : decode83 (blurhashText xComp yComp sums) 0 1 =
      Except.ok (xComp - 1 + (yComp - 1) * 9) :=
    @decode83_encodeBase83 _ _ 0 _ 1 (by omega) rfl
  have hdrop1 : (blurhashText xComp yComp sums).drop 1 =
      encodeBase83 (clamp 82 sums.quantMax) 1 ++ (encodeBase83 (packDc sums) 4 ++
        acText sums (List.range' 1 (xComp * yComp - 1))) :=
    List.drop_left' (length_encodeBase83 _ 1)
  have hmax : decode83 (blurhashText xComp yComp sums) 1 2 =
      Except.ok (clamp 82 sums.quantMax) := by
    have hle := clamp_le 82 sums.quantMax
    exact @decode83_encodeBase83 _ _ 1 _ 1 (by omega) hdrop1
  have hdrop2 : (blurhashText xComp yComp sums).drop 2 =
      encodeBase83 (packDc sums) 4 ++ acText sums (List.range' 1 (xComp * yComp - 1)) := by
    have hplace : 2 = 1 + 1 := rfl
    rw [hplace, <- List.drop_drop, hdrop1, List.drop_left' (length_encodeBase83 _ 1)]
  have hdc : decode83 (blurhashText xComp yComp sums) 2 6 = Except.ok (packDc sums) :=
    @decode83_encodeBase83 _ _ 2 _ 4 (packDc_lt sums) hdrop2
  have hdrop6 : (blurhashText xComp yComp sums).drop (4 + 1 * 2) =
      acText sums (List.range' 1 (xComp * yComp - 1)) := by
    have hplace : 4 + 1 * 2 = 2 + 4 := rfl
    rw [hplace, <- List.drop_drop, hdrop2, List.drop_left' (length_encodeBase83 _ 4)]
  have hcolors : colorsFrom (blurhashText xComp yComp sums) (xComp * yComp) 0 =
      Except.ok (hashColors (xComp * yComp) sums) := by
    have hrest := colorsFrom_acText sums (xComp * yComp - 1) (Nat.le_refl 1) hdrop6
    obtain ⟨count, hcount⟩ : exists count, xComp * yComp = count + 1 :=
      ⟨xComp * yComp - 1, by omega⟩
    rw [hcount, Nat.add_sub_cancel] at hrest
    rw [hcount, colorsFrom]
    have hunpack := unpackDc sums
    have hred := congrArg Prod.fst hunpack
    have hgreen := congrArg (fun q => q.2.1) hunpack
    have hblue := congrArg (fun q => q.2.2) hunpack
    dsimp only at hred hgreen hblue
    have hfirst : colorAt (blurhashText xComp yComp sums) 0 = Except.ok
        ((sums.dcR.toNat : Int), (sums.dcG.toNat : Int), (sums.dcB.toNat : Int)) := by
      unfold colorAt
      rw [if_pos rfl, hdc]
      change Except.ok _ = _
      rw [hred, hgreen, hblue]
    rw [hfirst]
    change (colorsFrom (blurhashText xComp yComp sums) count 1).bind _ = _
    rw [hrest]
    rfl
  unfold decodeBlurHash
  rw [if_neg (by omega), hsize]
  change (if (blurhashText xComp yComp sums).length ≠
      4 + 2 * ((xComp - 1 + (yComp - 1) * 9) % 9 + 1) *
        ((xComp - 1 + (yComp - 1) * 9) / 9 + 1) then _ else _) = _
  have hnumX : (xComp - 1 + (yComp - 1) * 9) % 9 + 1 = xComp := by omega
  have hnumY : (xComp - 1 + (yComp - 1) * 9) / 9 + 1 = yComp := by omega
  rw [hnumX, hnumY, if_neg (by rw [Nat.mul_assoc]; exact not_not_intro hlength), hmax]
  change (colorsFrom (blurhashText xComp yComp sums) (xComp * yComp) 0).bind _ = _
  rw [hcolors]
  rfl

/-!
# Hashes in documents
-/

theorem printsRaw_base83Char {digit : Nat} (h : digit < 83) :
    base83Char digit ≠ 0 ∧ base83Char digit ≠ quote ∧
      base83Char digit ≠ backslash := by
  have hall : forall d : Fin 83, base83Char d.val ≠ 0 ∧ base83Char d.val ≠ quote ∧
      base83Char d.val ≠ backslash := by
    decide +kernel
  exact hall ⟨digit, h⟩

theorem printsRaw_encodeBase83 (value length : Nat) :
    Cache.PrintsRaw (encodeBase83 value length) := by
  intro b hb
  rcases List.mem_map.mp (List.mem_reverse.mp hb) with ⟨digit, hdigit, rfl⟩
  exact printsRaw_base83Char (Numeral.lt_of_mem_digits (by decide) hdigit)

theorem printsRaw_append {a b : Text} (ha : Cache.PrintsRaw a) (hb : Cache.PrintsRaw b) :
    Cache.PrintsRaw (a ++ b) := by
  intro c hc
  rcases List.mem_append.mp hc with hfront | hback
  · exact ha c hfront
  · exact hb c hback

theorem printsRaw_blurhashText (xComp yComp : Nat) (sums : Rounded) :
    Cache.PrintsRaw (blurhashText xComp yComp sums) := by
  refine printsRaw_append (printsRaw_encodeBase83 _ 1) (printsRaw_append
    (printsRaw_encodeBase83 _ 1) (printsRaw_append (printsRaw_encodeBase83 _ 4) ?_))
  intro b hb
  rcases List.mem_flatMap.mp hb with ⟨k, _, hk⟩
  exact printsRaw_encodeBase83 _ 2 b hk

/-- A hash fits its array, needs no escapes where it is printed, and the browser reads from
it the numbers that the server has rounded to. -/
theorem blurhash_roundTrip {width height : Int} {xComp yComp outMax : Nat} {sums : Rounded}
    {text : Text} (h : blurhashEncodeRgb width height xComp yComp outMax sums = some text) :
    text.length = 4 + 2 * xComp * yComp ∧ text.length < outMax ∧ Cache.PrintsRaw text ∧
      decodeBlurHash text = Except.ok
        { numX := xComp, numY := yComp, quantisedMaximumValue := clamp 82 sums.quantMax,
          colors := hashColors (xComp * yComp) sums } := by
  unfold blurhashEncodeRgb at h
  split at h
  · cases h
  · split at h
    · cases h
    · rename_i hrange hroom
      cases h
      have hlength := @length_blurhashText xComp yComp (by omega) (by omega) sums
      refine ⟨hlength, by omega, printsRaw_blurhashText xComp yComp sums, ?_⟩
      exact decodeBlurHash_blurhashText (by omega) (by omega) (by omega) (by omega) sums

def smallSums : Rounded where
  quantMax := 100
  dcR := 20
  dcG := 21
  dcB := 32
  qv k := (k, -1, 9)

theorem blurhash_roundTrip_small :
    exists text, blurhashEncodeRgb 2 2 2 1 64 smallSums = some text ∧
      decodeBlurHash text = Except.ok
        { numX := 2, numY := 1, quantisedMaximumValue := 82,
          colors := [(20, 21, 32), (-8, -9, 0)] } := by
  have htext : blurhashEncodeRgb 2 2 2 1 64 smallSums = some (blurhashText 2 1 smallSums) := rfl
  have hcolors : hashColors (2 * 1) smallSums = [(20, 21, 32), (-8, -9, 0)] := by decide
  have hread := (blurhash_roundTrip htext).2.2.2
  rw [hcolors] at hread
  exact ⟨_, htext, hread⟩

end Icons
end PkgManager
