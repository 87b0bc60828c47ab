import PkgManager.AppInfo

/-!
# The order of versions

Versions are compared part by part.  A version of three parts with a zero in the
middle is read as one of two parts, as a package and the system write the same
version differently.
-/

namespace PkgManager

/-!
# Versions as they are written
-/

def componentValue (digits : List Char) : Nat :=
  digits.foldl (fun n c => 10 * n + (c.toNat - '0'.toNat)) 0

structure Component (digits : List Char) : Prop where
  nonempty : digits ≠ []
  decimal : forall c, c ∈ digits -> c.isDigit = true
  fits : componentValue digits ≤ 2147483647

def dotted : List (List Char) -> List Char
  | [] => []
  | [digits] => digits
  | digits :: rest => digits ++ '.' :: dotted rest

structure IsVersion (version : String) (components : List (List Char)) : Prop where
  text : exists mark, (mark = [] ∨ mark = ['v'] ∨ mark = ['V']) ∧
    version.toList = mark ++ dotted components
  count : components.length = 1 ∨ components.length = 2 ∨ components.length = 3
  component : forall digits, digits ∈ components -> Component digits

/-- The sign of the first difference. -/
def componentSign : List Nat -> List Nat -> Int
  | x :: xs, y :: ys => if x = y then componentSign xs ys else ((x : Int) - y).sign
  | _, _ => 0

/-- A zero in the middle is left out, unless the last part is zero as well. -/
def folded : List Nat -> List Nat
  | [a, b, c] => if b = 0 ∧ 0 < c then [a, c, 0] else [a, b, c]
  | parts => parts

/-!
# Parsing
-/

theorem digit_toNat {c : Char} (h : c.isDigit = true) : 48 ≤ c.toNat ∧ c.toNat ≤ 57 :=
  Char.isDigit_iff_toNat.mp h

theorem digit_ne {c d : Char} (h : c.isDigit = true) (hd : d.isDigit = false) : c ≠ d := by
  intro heq
  rw [heq, hd] at h
  cases h

theorem dropWhile_digits {p : Char -> Bool} {digits : List Char} (h : Component digits)
    (hp : forall c, c.isDigit = true -> p c = false) (rest : List Char) :
    (digits ++ rest).dropWhile p = digits ++ rest := by
  cases digits with
  | nil => exact absurd rfl h.nonempty
  | cons c cs =>
      rw [List.cons_append, List.dropWhile_cons_of_neg]
      rw [hp c (h.decimal c List.mem_cons_self)]
      exact Bool.false_ne_true

theorem takeWhile_component {digits rest : List Char} (h : Component digits)
    (hrest : forall c, rest.head? = some c -> c.isDigit = false) :
    (digits ++ rest).takeWhile Char.isDigit = digits := by
  rw [List.takeWhile_append_of_pos h.decimal]
  cases rest with
  | nil => rw [List.takeWhile_nil, List.append_nil]
  | cons c cs =>
      rw [List.takeWhile_cons_of_neg, List.append_nil]
      rw [hrest c rfl]
      exact Bool.false_ne_true

theorem scanInt_component {digits rest : List Char} (h : Component digits)
    (hrest : forall c, rest.head? = some c -> c.isDigit = false) :
    scanInt (digits ++ rest) = some ((componentValue digits : Int), rest) := by
  have hspace : forall c : Char, c.isDigit = true ->
      (c == ' ' || decide (9 ≤ c.toNat ∧ c.toNat ≤ 13)) = false := by
    intro c hc
    have hnat := digit_toNat hc
    have hne : c ≠ ' ' := digit_ne hc rfl
    simp [hne]
    omega
  have hhead : forall c : Char, c.isDigit = false -> (digits ++ rest).head? ≠ some c := by
    intro c hc heq
    cases digits with
    | nil => exact h.nonempty rfl
    | cons d ds =>
        cases heq
        exact digit_ne (h.decimal c List.mem_cons_self) hc rfl
  have hminus := hhead '-' rfl
  have hplus := hhead '+' rfl
  have hsigned : ((digits ++ rest).head? == some '-') = false := by simpa using hminus
  have hplusnot : ((digits ++ rest).head? == some '+') = false := by simpa using hplus
  have hfits := h.fits
  unfold scanInt
  dsimp only
  rw [dropWhile_digits h hspace rest, hsigned, hplusnot, Bool.or_false]
  simp only [Bool.false_eq_true, if_false]
  rw [takeWhile_component h hrest, if_neg (by simpa using h.nonempty)]
  change some (Int.bmod (min (componentValue digits) (2 ^ 63 - 1) : Nat) (2 ^ 32), _) = _
  have hmin : min (componentValue digits) (2 ^ 63 - 1) = componentValue digits := by omega
  rw [hmin, Int.bmod_eq_of_le (by omega) (by omega), List.drop_left]

theorem scanDotInt_component {digits rest : List Char} (h : Component digits)
    (hrest : forall c, rest.head? = some c -> c.isDigit = false) :
    scanDotInt ('.' :: (digits ++ rest)) = some ((componentValue digits : Int), rest) := by
  unfold scanDotInt
  exact scanInt_component h hrest

/-- What is left of the numbers of a version. -/
def partsOf : List Nat -> VersionParts
  | [] => { major := 0, minor := 0, patch := 0 }
  | [a] => { major := a, minor := 0, patch := 0 }
  | [a, b] => { major := a, minor := b, patch := 0 }
  | a :: b :: c :: _ => { major := a, minor := b, patch := c }

theorem skip_mark {mark digits : List Char} (h : Component digits)
    (hmark : mark = [] ∨ mark = ['v'] ∨ mark = ['V']) (rest : List Char) :
    (mark ++ (digits ++ rest)).dropWhile
      (fun c => c == 'v' || c == 'V' || c == ' ' || decide (9 ≤ c.toNat ∧ c.toNat ≤ 13)) =
      digits ++ rest := by
  have hskip : forall c : Char, c.isDigit = true ->
      (c == 'v' || c == 'V' || c == ' ' || decide (9 ≤ c.toNat ∧ c.toNat ≤ 13)) = false := by
    intro c hc
    have hnat := digit_toNat hc
    have hv : c ≠ 'v' := digit_ne hc rfl
    have hV : c ≠ 'V' := digit_ne hc rfl
    have hspace : c ≠ ' ' := digit_ne hc rfl
    simp [hv, hV, hspace]
    omega
  have hplain := dropWhile_digits h hskip rest
  rcases hmark with rfl | rfl | rfl
  · exact hplain
  · rw [List.cons_append, List.nil_append, List.dropWhile_cons_of_pos rfl]
    exact hplain
  · rw [List.cons_append, List.nil_append, List.dropWhile_cons_of_pos rfl]
    exact hplain

theorem not_digit_nil (c : Char) (h : ([] : List Char).head? = some c) : c.isDigit = false := by
  cases h

theorem not_digit_dot {text : List Char} (c : Char) (h : ('.' :: text).head? = some c) :
    c.isDigit = false := by
  cases h
  rfl

/-- The text behind the mark and the spaces. -/
def unmarked (version : String) : List Char :=
  version.toList.dropWhile
    (fun c => c == 'v' || c == 'V' || c == ' ' || decide (9 ≤ c.toNat ∧ c.toNat ≤ 13))

theorem parseVersionParts_one {version : String} {a : Int} {rest : List Char}
    (hone : scanInt (unmarked version) = some (a, rest)) (hend : scanDotInt rest = none) :
    parseVersionParts version = { major := a, minor := 0, patch := 0 } := by
  unfold unmarked at hone
  simp only [parseVersionParts, hone, hend]

theorem parseVersionParts_two {version : String} {a b : Int} {rest more : List Char}
    (hone : scanInt (unmarked version) = some (a, rest))
    (htwo : scanDotInt rest = some (b, more)) (hend : scanDotInt more = none) :
    parseVersionParts version = { major := a, minor := b, patch := 0 } := by
  unfold unmarked at hone
  simp only [parseVersionParts, hone, htwo, hend]

theorem parseVersionParts_three {version : String} {a b c : Int} {rest more left : List Char}
    (hone : scanInt (unmarked version) = some (a, rest))
    (htwo : scanDotInt rest = some (b, more)) (hthree : scanDotInt more = some (c, left)) :
    parseVersionParts version =
      if b = 0 ∧ c > 0 then { major := a, minor := c, patch := 0 }
      else { major := a, minor := b, patch := c } := by
  unfold unmarked at hone
  simp only [parseVersionParts, hone, htwo, hthree]

theorem parseVersionParts_version {version : String} {components : List (List Char)}
    (h : IsVersion version components) :
    parseVersionParts version = partsOf (folded (components.map componentValue)) := by
  rcases h.text with ⟨mark, hmark, htext⟩
  have hunmarked : forall {digits rest : List Char}, Component digits ->
      version.toList = mark ++ (digits ++ rest) -> unmarked version = digits ++ rest := by
    intro digits rest hd heq
    unfold unmarked
    rw [heq, skip_mark hd hmark]
  rcases h.count with hone | htwo | hthree
  · rcases List.length_eq_one_iff.mp hone with ⟨d, rfl⟩
    have hd := h.component d (by simp)
    have hskip : unmarked version = d ++ [] := hunmarked hd (by rw [List.append_nil]; exact htext)
    have hscan := scanInt_component hd not_digit_nil
    rw [<- hskip] at hscan
    exact parseVersionParts_one hscan rfl
  · rcases List.length_eq_two.mp htwo with ⟨d, e, rfl⟩
    have hd := h.component d (by simp)
    have he := h.component e (by simp)
    have hscan : scanInt (unmarked version) = some ((componentValue d : Int), '.' :: e) := by
      rw [hunmarked hd htext, scanInt_component hd not_digit_dot]
      rfl
    have hsecond := scanDotInt_component he not_digit_nil
    rw [List.append_nil] at hsecond
    exact parseVersionParts_two hscan hsecond rfl
  · rcases List.length_eq_three.mp hthree with ⟨d, e, f, rfl⟩
    have hd := h.component d (by simp)
    have he := h.component e (by simp)
    have hf := h.component f (by simp)
    have hscan : scanInt (unmarked version) =
        some ((componentValue d : Int), '.' :: (e ++ '.' :: f)) := by
      rw [hunmarked hd htext, scanInt_component hd not_digit_dot]
      rfl
    have hthird := scanDotInt_component hf not_digit_nil
    rw [List.append_nil] at hthird
    rw [parseVersionParts_three hscan (scanDotInt_component he not_digit_dot) hthird]
    change _ = partsOf (if componentValue e = 0 ∧ 0 < componentValue f then
      [componentValue d, componentValue f, 0]
      else [componentValue d, componentValue e, componentValue f])
    by_cases hfold : componentValue e = 0 ∧ 0 < componentValue f
    · rw [if_pos hfold, if_pos (by omega)]
      rfl
    · rw [if_neg hfold, if_neg (by omega)]
      rfl

/-!
# The comparison without overflow
-/

/-- The difference of the first parts that differ. -/
def partsDiff (a b : VersionParts) : Int :=
  if a.major ≠ b.major then a.major - b.major
  else if a.minor ≠ b.minor then a.minor - b.minor
  else a.patch - b.patch

/-- The one subtraction that is made stays in the range of an {lit}`int`, either way round. -/
def Subtracts (versionA versionB : String) : Prop :=
  -2147483648 < partsDiff (parseVersionParts versionA) (parseVersionParts versionB) ∧
    partsDiff (parseVersionParts versionA) (parseVersionParts versionB) < 2147483648

theorem bmod_of_range {x : Int} (h : -2147483648 < x ∧ x < 2147483648) :
    Int.bmod x (2 ^ 32) = x :=
  Int.bmod_eq_of_le (by omega) (by omega)

theorem compareVersions_eq_partsDiff {versionA versionB : String}
    (h : Subtracts versionA versionB) :
    compareVersions versionA versionB =
      partsDiff (parseVersionParts versionA) (parseVersionParts versionB) := by
  unfold Subtracts partsDiff at h
  unfold compareVersions partsDiff
  dsimp only
  split
  · rename_i hmajor
    rw [if_pos hmajor] at h
    exact bmod_of_range h
  · rename_i hmajor
    rw [if_neg hmajor] at h
    split
    · rename_i hminor
      rw [if_pos hminor] at h
      exact bmod_of_range h
    · rename_i hminor
      rw [if_neg hminor] at h
      exact bmod_of_range h

theorem partsDiff_neg (a b : VersionParts) : partsDiff a b = -partsDiff b a := by
  unfold partsDiff
  split
  · rename_i hmajor
    rw [if_pos (Ne.symm hmajor)]
    omega
  · rename_i hmajor
    rw [if_neg (fun h => hmajor (Ne.symm h))]
    split
    · rename_i hminor
      rw [if_pos (Ne.symm hminor)]
      omega
    · rename_i hminor
      rw [if_neg (fun h => hminor (Ne.symm h))]
      omega

theorem partsDiff_nonpos_iff (a b : VersionParts) :
    partsDiff a b ≤ 0 ↔ a.major < b.major ∨ (a.major = b.major ∧
      (a.minor < b.minor ∨ (a.minor = b.minor ∧ a.patch ≤ b.patch))) := by
  unfold partsDiff
  split
  · omega
  · split <;> omega

theorem partsDiff_trans {a b c : VersionParts} (hab : partsDiff a b ≤ 0)
    (hbc : partsDiff b c ≤ 0) : partsDiff a c ≤ 0 := by
  rw [partsDiff_nonpos_iff] at *
  omega

theorem subtracts_symm {versionA versionB : String} (h : Subtracts versionA versionB) :
    Subtracts versionB versionA := by
  unfold Subtracts at *
  rw [partsDiff_neg]
  omega

/-!
# Versions with components
-/

theorem partsDiff_sign {xs ys : List Nat} (hlen : xs.length = ys.length)
    (hcount : xs.length = 1 ∨ xs.length = 2 ∨ xs.length = 3) :
    (partsDiff (partsOf xs) (partsOf ys)).sign = componentSign xs ys := by
  match xs, ys, hlen, hcount with
  | [a], [a'], _, _ =>
      unfold partsDiff
      by_cases ha : a = a'
      · simp [ha, partsOf, componentSign]
      · simp [ha, partsOf, componentSign]
  | [a, b], [a', b'], _, _ =>
      unfold partsDiff
      by_cases ha : a = a'
      · by_cases hb : b = b'
        · simp [ha, hb, partsOf, componentSign]
        · simp [ha, hb, partsOf, componentSign]
      · simp [ha, partsOf, componentSign]
  | [a, b, c], [a', b', c'], _, _ =>
      unfold partsDiff
      by_cases ha : a = a'
      · by_cases hb : b = b'
        · by_cases hc : c = c'
          · simp [ha, hb, hc, partsOf, componentSign]
          · simp [ha, hb, hc, partsOf, componentSign]
        · simp [ha, hb, partsOf, componentSign]
      · simp [ha, partsOf, componentSign]

theorem folded_length (numbers : List Nat) : (folded numbers).length = numbers.length := by
  unfold folded
  split
  · split <;> rfl
  · rfl

theorem folded_le {numbers : List Nat} {bound : Nat}
    (h : forall x, x ∈ numbers -> x ≤ bound) : forall x, x ∈ folded numbers -> x ≤ bound := by
  intro x hx
  unfold folded at hx
  split at hx
  · rename_i a b c
    split at hx
    · simp only [List.mem_cons, List.not_mem_nil, or_false] at hx
      rcases hx with rfl | rfl | rfl
      · exact h _ (by simp)
      · exact h _ (by simp)
      · exact Nat.zero_le bound
    · exact h x hx
  · exact h x hx

theorem partsOf_range {numbers : List Nat} (h : forall x, x ∈ numbers -> x ≤ 2147483647) :
    (0 ≤ (partsOf numbers).major ∧ (partsOf numbers).major ≤ 2147483647) ∧
      (0 ≤ (partsOf numbers).minor ∧ (partsOf numbers).minor ≤ 2147483647) ∧
      (0 ≤ (partsOf numbers).patch ∧ (partsOf numbers).patch ≤ 2147483647) := by
  have hfits : forall x, x ∈ numbers -> (0 : Int) ≤ x ∧ (x : Int) ≤ 2147483647 := by
    intro x hx
    have hle := h x hx
    omega
  have hzero : (0 : Int) ≤ 0 ∧ (0 : Int) ≤ 2147483647 := by decide
  match numbers, hfits with
  | [], _ => exact ⟨hzero, hzero, hzero⟩
  | [a], hf => exact ⟨hf a (by simp), hzero, hzero⟩
  | [a, b], hf => exact ⟨hf a (by simp), hf b (by simp), hzero⟩
  | a :: b :: c :: _, hf => exact ⟨hf a (by simp), hf b (by simp), hf c (by simp)⟩

theorem parts_range {version : String} {components : List (List Char)}
    (h : IsVersion version components) :
    forall x, x ∈ folded (components.map componentValue) -> x ≤ 2147483647 := by
  apply folded_le
  intro x hx
  rcases List.mem_map.mp hx with ⟨digits, hmem, rfl⟩
  exact (h.component digits hmem).fits

/-- Two versions without signs never overflow. -/
theorem subtracts_versions {versionA versionB : String} {as bs : List (List Char)}
    (ha : IsVersion versionA as) (hb : IsVersion versionB bs) : Subtracts versionA versionB := by
  have hrangeA := partsOf_range (parts_range ha)
  have hrangeB := partsOf_range (parts_range hb)
  unfold Subtracts partsDiff
  rw [parseVersionParts_version ha, parseVersionParts_version hb]
  split
  · omega
  · split <;> omega

/-!
# The order
-/

/-- Versions with as many parts are compared part by part, as they are folded. -/
def ComparesFolded : Prop :=
  forall versionA versionB as bs, IsVersion versionA as -> IsVersion versionB bs ->
    as.length = bs.length ->
      (compareVersions versionA versionB).sign =
        componentSign (folded (as.map componentValue)) (folded (bs.map componentValue))

/-- The same, as they are written. -/
def ComparesComponents : Prop :=
  forall versionA versionB as bs, IsVersion versionA as -> IsVersion versionB bs ->
    as.length = bs.length ->
      (compareVersions versionA versionB).sign =
        componentSign (as.map componentValue) (bs.map componentValue)

/-- Of the pairs that the condition admits. -/
def Antisymmetric (ok : String -> String -> Prop) : Prop :=
  forall versionA versionB, ok versionA versionB ->
    (compareVersions versionA versionB).sign = -(compareVersions versionB versionA).sign

def Transitive (ok : String -> String -> Prop) : Prop :=
  forall versionA versionB versionC, ok versionA versionB -> ok versionB versionC ->
    ok versionA versionC -> compareVersions versionA versionB ≤ 0 ->
      compareVersions versionB versionC ≤ 0 -> compareVersions versionA versionC ≤ 0

theorem comparesFolded : ComparesFolded := by
  intro versionA versionB as bs ha hb hlen
  rw [compareVersions_eq_partsDiff (subtracts_versions ha hb), parseVersionParts_version ha,
    parseVersionParts_version hb]
  apply partsDiff_sign
  · rw [folded_length, folded_length, List.length_map, List.length_map, hlen]
  · rw [folded_length, List.length_map]
    exact ha.count

theorem antisymmetric_subtracts : Antisymmetric Subtracts := by
  intro versionA versionB h
  rw [compareVersions_eq_partsDiff h, compareVersions_eq_partsDiff (subtracts_symm h),
    partsDiff_neg, Int.sign_neg]

theorem transitive_subtracts : Transitive Subtracts := by
  intro versionA versionB versionC hab hbc hac hleft hright
  rw [compareVersions_eq_partsDiff hab] at hleft
  rw [compareVersions_eq_partsDiff hbc] at hright
  rw [compareVersions_eq_partsDiff hac]
  exact partsDiff_trans hleft hright

theorem components_of_all {components : List (List Char)}
    (h : (components.all fun digits => digits != [] && digits.all Char.isDigit &&
      decide (componentValue digits ≤ 2147483647)) = true) :
    forall digits, digits ∈ components -> Component digits := by
  intro digits hmem
  have hall := List.all_eq_true.mp h digits hmem
  simp only [Bool.and_eq_true, bne_iff_ne, ne_eq, decide_eq_true_eq, List.all_eq_true] at hall
  exact ⟨hall.1.1, hall.1.2, hall.2⟩

/-- The comparison is numeric on folded versions, and an order where it does not overflow. -/
theorem compareVersions_order :
    ComparesFolded ∧ Antisymmetric Subtracts ∧ Transitive Subtracts :=
  ⟨comparesFolded, antisymmetric_subtracts, transitive_subtracts⟩

theorem compareVersions_order_example :
    (compareVersions "v01.26" "1.5").sign = componentSign (folded [1, 26]) (folded [1, 5]) ∧
      (compareVersions "v01.26" "1.5").sign = 1 := by
  have hleft : IsVersion "v01.26" [['0', '1'], ['2', '6']] :=
    ⟨⟨['v'], Or.inr (Or.inl rfl), rfl⟩, Or.inr (Or.inl rfl), components_of_all (by decide)⟩
  have hright : IsVersion "1.5" [['1'], ['5']] :=
    ⟨⟨[], Or.inl rfl, rfl⟩, Or.inr (Or.inl rfl), components_of_all (by decide)⟩
  exact ⟨compareVersions_order.1 "v01.26" "1.5" _ _ hleft hright rfl, by decide⟩

/-- A zero in the middle is not the smallest part; and a difference may overflow. -/
theorem compareVersions_not_componentwise :
    ¬ ComparesComponents ∧ ¬ Antisymmetric (fun _ _ => True) ∧ ¬ Transitive (fun _ _ => True) := by
  refine ⟨?_, ?_, ?_⟩
  · intro hall
    have hone : IsVersion "1.0.5" [['1'], ['0'], ['5']] :=
      ⟨⟨[], Or.inl rfl, rfl⟩, Or.inr (Or.inr rfl),
        components_of_all (by decide)⟩
    have htwo : IsVersion "1.2.0" [['1'], ['2'], ['0']] :=
      ⟨⟨[], Or.inl rfl, rfl⟩, Or.inr (Or.inr rfl),
        components_of_all (by decide)⟩
    have hsign := hall "1.0.5" "1.2.0" _ _ hone htwo rfl
    exact absurd hsign (by decide)
  · intro hall
    exact absurd (hall "-2147483648" "0" trivial) (by decide)
  · intro hall
    exact absurd (hall "-2000000000" "0" "2000000000" trivial trivial trivial (by decide)
      (by decide)) (by decide)

end PkgManager

/-!
# Normalized versions

The version of an installed application is stored in the form in which the system writes it.  The
text is read again as the same numbers.
-/

namespace PkgManager

/-!
# Writing
-/

/-- {lit}`%d` -/
def decimalText (n : Int) : List Char :=
  if n < 0 then '-' :: Nat.toDigits 10 n.natAbs else Nat.toDigits 10 n.natAbs

/-- {lit}`%02d` -/
def decimalText2 (n : Int) : List Char :=
  if 0 ≤ n ∧ n < 10 then '0' :: decimalText n else decimalText n

/-- The numbers of {lit}`sscanf(text, "%d.%d.%d", ..)`. -/
def scanNumbers (text : List Char) : List Int :=
  match scanInt text with
  | none => []
  | some (a, rest) =>
      match scanDotInt rest with
      | none => [a]
      | some (b, rest) =>
          match scanDotInt rest with
          | none => [a, b]
          | some (c, _) => [a, b, c]

/-- The first number is written with two digits. -/
def padsMajor (text : List Char) : Bool :=
  text.head? == some '0' ||
    (text[1]? != some '.' && text[1]?.isSome && text[2]? == some '.')

def twoNumbers (major : List Char) (minor : Int) : List Char :=
  'v' :: (major ++ '.' :: decimalText2 minor)

/-- What is written when there is room for it. -/
def normalizedText (version : String) : List Char :=
  let text := unmarked version
  if version.toList = [] then []
  else if text = [] then "v1.00".toList
  else
    match scanNumbers text with
    | [] => 'v' :: text
    | [major] => 'v' :: (decimalText major ++ ".00".toList)
    | [major, minor] =>
        if padsMajor text then twoNumbers (decimalText2 major) minor
        else twoNumbers (decimalText major) minor
    | major :: minor :: patch :: _ =>
        if minor = 0 ∧ patch > 0 then twoNumbers (decimalText major) patch
        else if patch = 0 then twoNumbers (decimalText major) minor
        else 'v' :: (decimalText major ++ '.' :: (decimalText minor ++ '.' :: decimalText patch))

/-- {lit}`app_info_normalize_version` -/
def normalizeVersion (version : String) (maxOut : Nat) : String :=
  String.ofList ((normalizedText version).take (maxOut - 1))

example : normalizeVersion "1.0.26" 32 = "v1.26" := by
  decide

/-!
# Reading what was written
-/

/-- The text of a number that an {lit}`int` holds, with any number of zeros in front. -/
structure Written (text : List Char) (n : Int) : Prop where
  range : -2147483648 ≤ n ∧ n < 2147483648
  digits : exists digits, digits ≠ [] ∧ (forall c, c ∈ digits -> c.isDigit = true) ∧
    componentValue digits = n.natAbs ∧ text = if n < 0 then '-' :: digits else digits

theorem written_decimalText {n : Int} (h : -2147483648 ≤ n ∧ n < 2147483648) :
    Written (decimalText n) n where
  range := h
  digits := by
    refine ⟨Nat.toDigits 10 n.natAbs, Nat.toDigits_ne_nil,
      fun c hc => Nat.isDigit_of_mem_toDigits (by decide) (by decide) hc, ?_, rfl⟩
    exact Nat.ofDigitChars_ten_toDigits

theorem written_decimalText2 {n : Int} (h : -2147483648 ≤ n ∧ n < 2147483648) :
    Written (decimalText2 n) n := by
  have hplain := written_decimalText h
  unfold decimalText2
  split
  · rename_i hsmall
    rcases hplain.digits with ⟨digits, _, hdecimal, hvalue, htext⟩
    rw [if_neg (by omega)] at htext
    refine ⟨h, '0' :: digits, List.cons_ne_nil _ _, ?_, ?_, ?_⟩
    · intro c hc
      rcases List.mem_cons.mp hc with rfl | hc
      · rfl
      · exact hdecimal c hc
    · rw [<- hvalue]
      rfl
    · rw [htext, if_neg (by omega)]
  · exact hplain

theorem scanInt_range {text rest : List Char} {n : Int} (h : scanInt text = some (n, rest)) :
    -2147483648 ≤ n ∧ n < 2147483648 := by
  simp only [scanInt, Option.ite_none_left_eq_some, Option.some.injEq, Prod.mk.injEq] at h
  rw [<- h.2.1]
  constructor
  · exact Int.le_bmod (by decide)
  · exact Int.bmod_lt (by decide)

theorem scanDotInt_range {text rest : List Char} {n : Int}
    (h : scanDotInt text = some (n, rest)) : -2147483648 ≤ n ∧ n < 2147483648 := by
  unfold scanDotInt at h
  split at h
  · exact scanInt_range h
  · cases h

theorem scanInt_minus {digits rest : List Char} (hne : digits ≠ [])
    (hdecimal : forall c, c ∈ digits -> c.isDigit = true)
    (hvalue : componentValue digits ≤ 2147483648)
    (hrest : forall c, rest.head? = some c -> c.isDigit = false) :
    scanInt ('-' :: (digits ++ rest)) = some (-(componentValue digits : Int), rest) := by
  have htake : (digits ++ rest).takeWhile Char.isDigit = digits := by
    rw [List.takeWhile_append_of_pos hdecimal]
    cases rest with
    | nil => simp
    | cons c cs => simp [hrest c rfl]
  have hspace : ('-' :: (digits ++ rest)).dropWhile
      (fun c => c == ' ' || decide (9 ≤ c.toNat ∧ c.toNat ≤ 13)) = '-' :: (digits ++ rest) :=
    List.dropWhile_cons_of_neg (by decide)
  unfold scanInt
  dsimp only
  rw [hspace]
  simp only [List.head?_cons, beq_self_eq_true, Bool.true_or, if_true, List.drop_succ_cons,
    List.drop_zero, htake, List.isEmpty_iff, hne, if_false, List.drop_left]
  change some (Int.bmod (-(min (componentValue digits) (2 ^ 63) : Nat)) (2 ^ 32), _) = _
  have hmin : min (componentValue digits) (2 ^ 63) = componentValue digits := by omega
  rw [hmin, Int.bmod_eq_of_le (by omega) (by omega)]

theorem scanInt_written {text rest : List Char} {n : Int} (h : Written text n)
    (hrest : forall c, rest.head? = some c -> c.isDigit = false) :
    scanInt (text ++ rest) = some (n, rest) := by
  rcases h.digits with ⟨digits, hne, hdecimal, hvalue, htext⟩
  have hrange := h.range
  by_cases hneg : n < 0
  · rw [if_pos hneg] at htext
    have hnumber : -(componentValue digits : Int) = n := by omega
    rw [htext, List.cons_append, scanInt_minus hne hdecimal (by omega) hrest, hnumber]
  · rw [if_neg hneg] at htext
    have hnumber : (componentValue digits : Int) = n := by omega
    have hdigits : Component digits := ⟨hne, hdecimal, by omega⟩
    rw [htext, scanInt_component hdigits hrest, hnumber]

theorem scanDotInt_written {text rest : List Char} {n : Int} (h : Written text n)
    (hrest : forall c, rest.head? = some c -> c.isDigit = false) :
    scanDotInt ('.' :: (text ++ rest)) = some (n, rest) := by
  unfold scanDotInt
  exact scanInt_written h hrest

/-!
# The numbers of a version
-/

/-- What {lit}`parse_version_parts` keeps of the numbers. -/
def partsOfNumbers : List Int -> VersionParts
  | [] => { major := 0, minor := 0, patch := 0 }
  | [a] => { major := a, minor := 0, patch := 0 }
  | [a, b] => { major := a, minor := b, patch := 0 }
  | a :: b :: c :: _ =>
      if b = 0 ∧ c > 0 then { major := a, minor := c, patch := 0 }
      else { major := a, minor := b, patch := c }

theorem parseVersionParts_numbers (version : String) :
    parseVersionParts version = partsOfNumbers (scanNumbers (unmarked version)) := by
  cases hone : scanInt (unmarked version) with
  | none =>
      simp only [parseVersionParts, scanNumbers, hone]
      unfold unmarked at hone
      rw [hone]
      rfl
  | some one =>
      rcases one with ⟨a, rest⟩
      cases htwo : scanDotInt rest with
      | none => simp only [parseVersionParts_one hone htwo, scanNumbers, hone, htwo, partsOfNumbers]
      | some two =>
          rcases two with ⟨b, more⟩
          cases hthree : scanDotInt more with
          | none =>
              simp only [parseVersionParts_two hone htwo hthree, scanNumbers, hone, htwo, hthree,
                partsOfNumbers]
          | some three =>
              rcases three with ⟨c, left⟩
              simp only [parseVersionParts_three hone htwo hthree, scanNumbers, hone, htwo, hthree,
                partsOfNumbers]

theorem scanNumbers_two {major minor : List Char} {a b : Int} (ha : Written major a)
    (hb : Written minor b) : scanNumbers (major ++ '.' :: minor) = [a, b] := by
  have htwo := scanDotInt_written hb not_digit_nil
  rw [List.append_nil] at htwo
  unfold scanNumbers
  rw [scanInt_written ha not_digit_dot]
  dsimp only
  rw [htwo]
  rfl

theorem scanNumbers_three {major minor patch : List Char} {a b c : Int} (ha : Written major a)
    (hb : Written minor b) (hc : Written patch c) :
    scanNumbers (major ++ '.' :: (minor ++ '.' :: patch)) = [a, b, c] := by
  have hthree := scanDotInt_written hc not_digit_nil
  rw [List.append_nil] at hthree
  unfold scanNumbers
  rw [scanInt_written ha not_digit_dot]
  dsimp only
  rw [scanDotInt_written hb not_digit_dot]
  dsimp only
  rw [hthree]

/-!
# The shapes
-/

/-- What is written for the parts of a version. -/
inductive Shaped : List Char -> VersionParts -> Prop
  | two {major : List Char} {a b : Int} :
      Written major a -> Written (decimalText2 b) b ->
      (major = decimalText a ∨ major = decimalText2 a) ->
        Shaped (twoNumbers major b) { major := a, minor := b, patch := 0 }
  | three {a b c : Int} :
      Written (decimalText a) a -> Written (decimalText b) b -> Written (decimalText c) c ->
      c ≠ 0 -> ¬(b = 0 ∧ c > 0) ->
        Shaped ('v' :: (decimalText a ++ '.' :: (decimalText b ++ '.' :: decimalText c)))
          { major := a, minor := b, patch := c }

theorem written_head {text : List Char} {n : Int} (h : Written text n) (rest : List Char) :
    exists c, exists more, text ++ rest = c :: more ∧ (c = '-' ∨ c.isDigit = true) := by
  rcases h.digits with ⟨digits, hne, hdecimal, _, htext⟩
  cases digits with
  | nil => exact absurd rfl hne
  | cons d ds =>
      rw [htext]
      split
      · exact ⟨'-', _, rfl, Or.inl rfl⟩
      · exact ⟨d, _, rfl, Or.inr (hdecimal d List.mem_cons_self)⟩

theorem unmarked_written {text : List Char} {n : Int} (h : Written text n) (rest : List Char) :
    unmarked (String.ofList ('v' :: (text ++ rest))) = text ++ rest := by
  rcases written_head h rest with ⟨c, more, heq, hc⟩
  unfold unmarked
  rw [String.toList_ofList, List.dropWhile_cons_of_pos rfl, heq]
  apply List.dropWhile_cons_of_neg
  rcases hc with rfl | hc
  · decide
  · have hnat := digit_toNat hc
    have hv : c ≠ 'v' := digit_ne hc rfl
    have hV : c ≠ 'V' := digit_ne hc rfl
    have hspace : c ≠ ' ' := digit_ne hc rfl
    simp [hv, hV, hspace]
    omega

theorem shaped_parts {text : List Char} {parts : VersionParts} (h : Shaped text parts) :
    parseVersionParts (String.ofList text) = parts := by
  rw [parseVersionParts_numbers]
  cases h with
  | two ha hb _ =>
      unfold twoNumbers
      rw [unmarked_written ha, scanNumbers_two ha hb]
      rfl
  | three ha hb hc _ hfold =>
      rw [unmarked_written ha, scanNumbers_three ha hb hc]
      exact if_neg hfold

/-- The first character behind the marks and the spaces is a digit. -/
def StartsWithDigit (version : String) : Prop :=
  exists c, (unmarked version).head? = some c ∧ c.isDigit = true

theorem scanNumbers_range {text : List Char} :
    forall n, n ∈ scanNumbers text -> -2147483648 ≤ n ∧ n < 2147483648 := by
  intro n hn
  unfold scanNumbers at hn
  split at hn
  · cases hn
  · rename_i a rest hone
    split at hn
    · rw [List.mem_singleton.mp hn]
      exact scanInt_range hone
    · rename_i b more htwo
      split at hn
      · rcases List.mem_pair.mp hn with rfl | rfl
        · exact scanInt_range hone
        · exact scanDotInt_range htwo
      · rename_i c left hthree
        simp only [List.mem_cons, List.not_mem_nil, or_false] at hn
        rcases hn with rfl | rfl | rfl
        · exact scanInt_range hone
        · exact scanDotInt_range htwo
        · exact scanDotInt_range hthree

theorem scanNumbers_ne_nil {text : List Char} {c : Char} (h : text.head? = some c)
    (hc : c.isDigit = true) : scanNumbers text ≠ [] := by
  have hsome : scanInt text ≠ none := by
    cases text with
    | nil => cases h
    | cons d ds =>
        cases h
        have hnat := digit_toNat hc
        have hspace : c ≠ ' ' := digit_ne hc rfl
        have hminus : c ≠ '-' := digit_ne hc rfl
        have hplus : c ≠ '+' := digit_ne hc rfl
        have hbody : (c :: ds).dropWhile
            (fun c => c == ' ' || decide (9 ≤ c.toNat ∧ c.toNat ≤ 13)) = c :: ds := by
          apply List.dropWhile_cons_of_neg
          simp [hspace]
          omega
        unfold scanInt
        dsimp only
        rw [hbody]
        simp [hminus, hplus, hc]
  cases hone : scanInt text with
  | none => exact absurd hone hsome
  | some one =>
      unfold scanNumbers
      rw [hone]
      dsimp only
      split
      · exact List.cons_ne_nil _ _
      · split
        · exact List.cons_ne_nil _ _
        · exact List.cons_ne_nil _ _

theorem unmarked_ne_nil {version : String} (h : StartsWithDigit version) :
    unmarked version ≠ [] := by
  rcases h with ⟨c, hhead, _⟩
  intro hnil
  rw [hnil] at hhead
  cases hhead

theorem toList_ne_nil {version : String} (h : StartsWithDigit version) : version.toList ≠ [] := by
  intro hnil
  apply unmarked_ne_nil h
  unfold unmarked
  rw [hnil]
  rfl

theorem normalizedText_digit {version : String} (h : StartsWithDigit version) :
    normalizedText version =
      match scanNumbers (unmarked version) with
      | [] => 'v' :: unmarked version
      | [major] => 'v' :: (decimalText major ++ ".00".toList)
      | [major, minor] =>
          if padsMajor (unmarked version) then twoNumbers (decimalText2 major) minor
          else twoNumbers (decimalText major) minor
      | major :: minor :: patch :: _ =>
          if minor = 0 ∧ patch > 0 then twoNumbers (decimalText major) patch
          else if patch = 0 then twoNumbers (decimalText major) minor
          else 'v' :: (decimalText major ++ '.' :: (decimalText minor ++ '.' ::
            decimalText patch)) := by
  unfold normalizedText
  dsimp only
  rw [if_neg (toList_ne_nil h), if_neg (unmarked_ne_nil h)]

theorem normalizedText_shaped {version : String} (h : StartsWithDigit version) :
    Shaped (normalizedText version) (parseVersionParts version) := by
  rcases h with ⟨c, hhead, hc⟩
  have hne := scanNumbers_ne_nil hhead hc
  have hrange : forall n, n ∈ scanNumbers (unmarked version) ->
      -2147483648 ≤ n ∧ n < 2147483648 := scanNumbers_range
  rw [normalizedText_digit ⟨c, hhead, hc⟩, parseVersionParts_numbers]
  match scanNumbers (unmarked version), hne, hrange with
  | [a], _, hrange =>
      have ha := hrange a (by simp)
      exact Shaped.two (b := 0) (written_decimalText ha) (written_decimalText2 (by decide))
        (Or.inl rfl)
  | [a, b], _, hrange =>
      have ha := hrange a (by simp)
      have hb := hrange b (by simp)
      dsimp only
      split
      · exact Shaped.two (written_decimalText2 ha) (written_decimalText2 hb) (Or.inr rfl)
      · exact Shaped.two (written_decimalText ha) (written_decimalText2 hb) (Or.inl rfl)
  | a :: b :: c :: _, _, hrange =>
      have ha := written_decimalText (hrange a (by simp))
      have hb := hrange b (by simp)
      have hc := hrange c (by simp)
      dsimp only [partsOfNumbers]
      by_cases hfold : b = 0 ∧ c > 0
      · rw [if_pos hfold, if_pos hfold]
        exact Shaped.two ha (written_decimalText2 hc) (Or.inl rfl)
      · rw [if_neg hfold, if_neg hfold]
        by_cases hpatch : c = 0
        · rw [if_pos hpatch, hpatch]
          exact Shaped.two ha (written_decimalText2 hb) (Or.inl rfl)
        · rw [if_neg hpatch]
          exact Shaped.three ha (written_decimalText hb) (written_decimalText hc) hpatch hfold

/-!
# Writing again
-/

theorem normalizedText_two {major : List Char} {a b : Int} (ha : Written major a)
    (hb : Written (decimalText2 b) b) :
    normalizedText (String.ofList (twoNumbers major b)) =
      if padsMajor (major ++ '.' :: decimalText2 b) then twoNumbers (decimalText2 a) b
      else twoNumbers (decimalText a) b := by
  unfold normalizedText
  dsimp only
  rw [String.toList_ofList]
  unfold twoNumbers
  rw [unmarked_written ha, scanNumbers_two ha hb, if_neg (List.cons_ne_nil _ _),
    if_neg (by simp)]

theorem normalizedText_three {a b c : Int} (ha : Written (decimalText a) a)
    (hb : Written (decimalText b) b) (hc : Written (decimalText c) c) (hpatch : c ≠ 0)
    (hfold : ¬(b = 0 ∧ c > 0)) :
    normalizedText (String.ofList
      ('v' :: (decimalText a ++ '.' :: (decimalText b ++ '.' :: decimalText c)))) =
      'v' :: (decimalText a ++ '.' :: (decimalText b ++ '.' :: decimalText c)) := by
  unfold normalizedText
  dsimp only
  rw [String.toList_ofList, unmarked_written ha, scanNumbers_three ha hb hc,
    if_neg (List.cons_ne_nil _ _), if_neg (by simp)]
  dsimp only
  rw [if_neg hfold, if_neg hpatch]

theorem padsMajor_small {a : Int} (h : 0 ≤ a ∧ a < 10) (rest : List Char) :
    padsMajor (decimalText2 a ++ '.' :: rest) = true ∧
      padsMajor (decimalText a ++ '.' :: rest) = (a == 0) := by
  have hdigits : a = 0 ∨ a = 1 ∨ a = 2 ∨ a = 3 ∨ a = 4 ∨ a = 5 ∨ a = 6 ∨ a = 7 ∨ a = 8 ∨
      a = 9 := by omega
  rcases hdigits with rfl | rfl | rfl | rfl | rfl | rfl | rfl | rfl | rfl | rfl <;>
    exact ⟨rfl, rfl⟩

/-- The second writing settles whether the first number has two digits. -/
theorem normalizedText_again {text : List Char} {parts : VersionParts} (h : Shaped text parts) :
    normalizedText (String.ofList (normalizedText (String.ofList text))) =
      normalizedText (String.ofList text) := by
  cases h with
  | three ha hb hc hpatch hfold =>
      rw [normalizedText_three ha hb hc hpatch hfold, normalizedText_three ha hb hc hpatch hfold]
  | two ha hb hmajor =>
      rename_i major a b
      have hplain := normalizedText_two (written_decimalText ha.range) hb
      by_cases hsmall : 0 ≤ a ∧ a < 10
      · have hpadded := normalizedText_two (written_decimalText2 ha.range) hb
        rw [(padsMajor_small hsmall _).left, if_pos rfl] at hpadded
        rcases hmajor with rfl | rfl
        · rw [hplain]
          split
          · exact hpadded
          · rename_i hone
            rw [hplain, if_neg hone]
        · rw [hpadded, hpadded]
      · have hsame : decimalText2 a = decimalText a := if_neg hsmall
        have hmajor : major = decimalText a := by
          rcases hmajor with h | h
          · exact h
          · rw [h, hsame]
        rw [hsame, ite_self] at hplain
        rw [hmajor, hplain, hplain]

/-!
# Installed versions
-/

/-- There is room for the result and the byte behind it. -/
def HoldsResult (version : String) (maxOut : Nat) : Prop :=
  (normalizedText version).length < maxOut

theorem normalizeVersion_whole {version : String} {maxOut : Nat}
    (h : HoldsResult version maxOut) :
    normalizeVersion version maxOut = String.ofList (normalizedText version) := by
  unfold HoldsResult at h
  unfold normalizeVersion
  rw [List.take_of_length_le (by omega)]

theorem normalizeVersion_parts {version : String} (h : StartsWithDigit version) {maxOut : Nat}
    (hroom : HoldsResult version maxOut) :
    parseVersionParts (normalizeVersion version maxOut) = parseVersionParts version := by
  rw [normalizeVersion_whole hroom]
  exact shaped_parts (normalizedText_shaped h)

theorem compareVersions_parts {versionA versionA' : String}
    (h : parseVersionParts versionA = parseVersionParts versionA') (versionB : String) :
    compareVersions versionA versionB = compareVersions versionA' versionB := by
  unfold compareVersions
  rw [h]

theorem compareVersions_self (version : String) : compareVersions version version = 0 := by
  simp [compareVersions]

theorem shaped_again {text : List Char} {parts : VersionParts} (h : Shaped text parts) :
    Shaped (normalizedText (String.ofList text)) parts := by
  cases h with
  | three ha hb hc hpatch hfold =>
      rw [normalizedText_three ha hb hc hpatch hfold]
      exact Shaped.three ha hb hc hpatch hfold
  | two ha hb _ =>
      rw [normalizedText_two ha hb]
      split
      · exact Shaped.two (written_decimalText2 ha.range) hb (Or.inr rfl)
      · exact Shaped.two (written_decimalText ha.range) hb (Or.inl rfl)

/-- A normalized version is compared like the version itself, and written twice it no longer
changes. -/
theorem normalizeVersion_keeps {version : String} (h : StartsWithDigit version) {maxOut : Nat}
    (hroom : HoldsResult version maxOut) :
    (forall other : String, compareVersions (normalizeVersion version maxOut) other =
      compareVersions version other) ∧
    forall again, HoldsResult (normalizeVersion version maxOut) again ->
      compareVersions (normalizeVersion (normalizeVersion version maxOut) again) version = 0 ∧
      forall last, HoldsResult (normalizeVersion (normalizeVersion version maxOut) again) last ->
        normalizeVersion (normalizeVersion (normalizeVersion version maxOut) again) last =
          normalizeVersion (normalizeVersion version maxOut) again := by
  have hshape := normalizedText_shaped h
  constructor
  · exact compareVersions_parts (normalizeVersion_parts h hroom)
  · intro again hagain
    have hsecond := normalizeVersion_whole hagain
    rw [normalizeVersion_whole hroom] at hsecond hagain
    rw [normalizeVersion_whole hroom, hsecond]
    constructor
    · rw [compareVersions_parts (shaped_parts (shaped_again hshape))]
      exact compareVersions_self version
    · intro last hlast
      rw [normalizeVersion_whole hlast, normalizedText_again hshape]

theorem normalizeVersion_keeps_folded :
    (forall other : String, compareVersions (normalizeVersion "1.0.26" 32) other =
      compareVersions "1.0.26" other) ∧
    compareVersions (normalizeVersion (normalizeVersion "1.0.26" 32) 32) "1.0.26" = 0 ∧
    normalizeVersion (normalizeVersion (normalizeVersion "1.0.26" 32) 32) 32 =
      normalizeVersion (normalizeVersion "1.0.26" 32) 32 := by
  have hroom : HoldsResult "1.0.26" 32 := by
    unfold HoldsResult
    decide
  have hkeeps := normalizeVersion_keeps ⟨'1', rfl, rfl⟩ hroom
  have hagain := hkeeps.right 32 (by unfold HoldsResult; decide)
  exact ⟨hkeeps.left, hagain.left, hagain.right 32 (by unfold HoldsResult; decide)⟩

end PkgManager
