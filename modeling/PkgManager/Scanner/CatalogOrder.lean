import PkgManager.Collections.Comparing
import PkgManager.Versions
import PkgManager.Scanner.Catalog

/-!
# The order of the catalog

Packages are sorted by title, type and version, and by path where these do not tell two of them
apart.  The version is a key only where both packages have one.
-/

namespace PkgManager
namespace Scanner

open CString
open PkgManager.Parser
open Comparing

/-!
# The keys
-/

/-- What a package is sorted by first. -/
def titleKey (p : PkgDetail) : List Nat :=
  byteValues (lowerText (if p.titleName = [] then ascii "Unknown Package" else p.titleName))

def typeKey (p : PkgDetail) : Int :=
  typeRank p.pkgType

def pathKey (p : PkgDetail) : List Nat :=
  byteValues p.path

def versionOf (p : PkgDetail) : VersionParts :=
  parseVersionParts (charText p.appVersion)

def compareTitles (a b : PkgDetail) : Int :=
  strcasecmp (if a.titleName = [] then ascii "Unknown Package" else a.titleName)
    (if b.titleName = [] then ascii "Unknown Package" else b.titleName)

def compareTypes (a b : PkgDetail) : Int :=
  typeRank a.pkgType - typeRank b.pkgType

/-- The difference of the first numbers that differ, in an {lit}`int`. -/
def compareNumbers (a b : PkgDetail) : Int :=
  Int.bmod (partsDiff (versionOf a) (versionOf b)) (2 ^ 32)

def comparePaths (a b : PkgDetail) : Int :=
  strcmp a.path b.path

/-- The last two keys. -/
def compareReleases (a b : PkgDetail) : Int :=
  if a.appVersion ≠ [] ∧ b.appVersion ≠ [] then thenBy compareNumbers comparePaths a b
  else comparePaths a b

theorem compareVersions_numbers (a b : PkgDetail) :
    compareVersions (charText a.appVersion) (charText b.appVersion) = compareNumbers a b := by
  unfold compareVersions compareNumbers partsDiff versionOf
  dsimp only
  split
  · rfl
  · split
    · rfl
    · rfl

theorem typeRank_inj {a b : PkgType} : typeRank a = typeRank b ↔ a = b := by
  constructor
  · intro h
    cases a <;> cases b <;> first | rfl | cases h
  · exact congrArg typeRank

theorem comparePkgByTitleName_keys :
    comparePkgByTitleName = thenBy compareTitles (thenBy compareTypes compareReleases) := by
  funext a b
  have hreleases : compareReleases a b =
      if (if a.appVersion ≠ [] ∧ b.appVersion ≠ [] then compareNumbers a b else 0) ≠ 0 then
        (if a.appVersion ≠ [] ∧ b.appVersion ≠ [] then compareNumbers a b else 0)
      else comparePaths a b := by
    unfold compareReleases thenBy
    by_cases hboth : a.appVersion ≠ [] ∧ b.appVersion ≠ []
    · simp only [if_pos hboth]
    · simp only [if_neg hboth, ne_eq, not_true, if_false]
  unfold comparePkgByTitleName
  dsimp only
  rw [compareVersions_numbers]
  by_cases htype : a.pkgType = b.pkgType
  · have hzero : compareTypes a b = 0 := sub_eq_zero.mpr (typeRank_inj.mpr htype)
    rw [if_neg (not_not.mpr htype), thenBy, thenBy_same hzero, hreleases]
    rfl
  · have hne : compareTypes a b ≠ 0 := fun h => htype (typeRank_inj.mp (sub_eq_zero.mp h))
    rw [if_pos htype, thenBy, thenBy, if_pos hne]
    rfl

/-!
# Packages of the catalog
-/

/-- The texts end in front of their first zero byte, and a path names one package. -/
structure Listed (s : PkgDetail -> Prop) : Prop where
  title : forall p, s p -> ZeroFree p.titleName
  path : forall p, s p -> ZeroFree p.path
  distinct : forall p q, s p -> s q -> p.path = q.path -> p = q

theorem Listed.subset {s t : PkgDetail -> Prop} (h : Listed s) (hsub : forall p, t p -> s p) :
    Listed t where
  title p hp := h.title p (hsub p hp)
  path p hp := h.path p (hsub p hp)
  distinct p q hp hq := h.distinct p q (hsub p hp) (hsub q hq)

theorem zeroFree_shownTitle {p : PkgDetail} (h : ZeroFree p.titleName) :
    ZeroFree (if p.titleName = [] then ascii "Unknown Package" else p.titleName) := by
  split
  · exact zeroFree_of_all rfl
  · exact h

theorem byKey_titles {s : PkgDetail -> Prop} (h : Listed s) : ByKey compareTitles titleKey s where
  less a b ha hb := (strcmp_order (zeroFree_lowerText (zeroFree_shownTitle (h.title a ha)))
    (zeroFree_lowerText (zeroFree_shownTitle (h.title b hb)))).left
  same a b ha hb := by
    rw [compareTitles, strcasecmp, (strcmp_order
      (zeroFree_lowerText (zeroFree_shownTitle (h.title a ha)))
      (zeroFree_lowerText (zeroFree_shownTitle (h.title b hb)))).right]
    exact ⟨congrArg byteValues, byteValues_inj⟩

theorem byKey_types (s : PkgDetail -> Prop) : ByKey compareTypes typeKey s where
  less _ _ _ _ := sub_neg
  same _ _ _ _ := sub_eq_zero

theorem byKey_paths {s : PkgDetail -> Prop} (h : Listed s) : ByKey comparePaths pathKey s where
  less a b ha hb := (strcmp_order (h.path a ha) (h.path b hb)).left
  same a b ha hb := by
    rw [comparePaths, (strcmp_order (h.path a ha) (h.path b hb)).right]
    exact ⟨congrArg byteValues, byteValues_inj⟩

theorem totalOn_paths {s : PkgDetail -> Prop} (h : Listed s) : TotalOn comparePaths s :=
  (byKey_paths h).totalOn (fun a b ha hb heq => h.distinct a b ha hb (byteValues_inj heq))

/-!
# Version numbers
-/

theorem parseVersionParts_range (version : String) :
    (-2147483648 ≤ (parseVersionParts version).major ∧
      (parseVersionParts version).major < 2147483648) ∧
    (-2147483648 ≤ (parseVersionParts version).minor ∧
      (parseVersionParts version).minor < 2147483648) ∧
    (-2147483648 ≤ (parseVersionParts version).patch ∧
      (parseVersionParts version).patch < 2147483648) := by
  have hrange : forall n, n ∈ scanNumbers (unmarked version) ->
      -2147483648 ≤ n ∧ n < 2147483648 := scanNumbers_range
  have hzero : -2147483648 ≤ (0 : Int) ∧ (0 : Int) < 2147483648 := by decide
  rw [parseVersionParts_numbers]
  match scanNumbers (unmarked version), hrange with
  | [], _ => exact ⟨hzero, hzero, hzero⟩
  | [a], hr => exact ⟨hr a (by simp), hzero, hzero⟩
  | [a, b], hr => exact ⟨hr a (by simp), hr b (by simp), hzero⟩
  | a :: b :: c :: _, hr =>
      have ha := hr a (by simp)
      have hb := hr b (by simp)
      have hc := hr c (by simp)
      dsimp only [partsOfNumbers]
      split
      · exact ⟨ha, hc, hzero⟩
      · exact ⟨ha, hb, hc⟩

theorem partsDiff_eq_zero {a b : VersionParts} : partsDiff a b = 0 ↔ a = b := by
  constructor
  · intro h
    have hab := (partsDiff_nonpos_iff a b).mp h.le
    have hba := (partsDiff_nonpos_iff b a).mp (by rw [partsDiff_neg]; omega)
    cases a
    cases b
    simp only at hab hba
    simp only [VersionParts.mk.injEq]
    omega
  · rintro rfl
    simp [partsDiff]

theorem partsDiff_range (a b : PkgDetail) :
    -4294967296 < partsDiff (versionOf a) (versionOf b) ∧
      partsDiff (versionOf a) (versionOf b) < 4294967296 := by
  have ha := parseVersionParts_range (charText a.appVersion)
  have hb := parseVersionParts_range (charText b.appVersion)
  unfold partsDiff versionOf
  split
  · omega
  · split <;> omega

theorem compareNumbers_zero {a b : PkgDetail} :
    compareNumbers a b = 0 ↔ versionOf a = versionOf b := by
  have hrange := partsDiff_range a b
  rw [<- partsDiff_eq_zero]
  unfold compareNumbers
  generalize partsDiff (versionOf a) (versionOf b) = d at *
  simp only [Int.bmod_def]
  omega

/-- The two directions of a comparison agree unless the numbers are half the range apart. -/
theorem compareNumbers_swap {a b : PkgDetail}
    (hab : partsDiff (versionOf a) (versionOf b) ≠ -2147483648)
    (hba : partsDiff (versionOf b) (versionOf a) ≠ -2147483648) :
    compareNumbers a b < 0 ↔ 0 < compareNumbers b a := by
  have hrange := partsDiff_range a b
  unfold compareNumbers
  rw [partsDiff_neg (versionOf b)] at hba ⊢
  generalize partsDiff (versionOf a) (versionOf b) = d at *
  simp only [Int.bmod_def]
  omega

theorem compareNumbers_half {a b : PkgDetail}
    (h : partsDiff (versionOf a) (versionOf b) = -2147483648) :
    compareNumbers a b < 0 ∧ compareNumbers b a < 0 := by
  unfold compareNumbers
  rw [partsDiff_neg (versionOf b), h]
  decide

/-!
# The last two keys
-/

/-- The versions of some packages stand in one order, and the packages without one stand in it
by their paths. -/
structure LinesUp (s : PkgDetail -> Prop) : Prop where
  apart : forall a b, s a -> s b -> a.appVersion ≠ [] -> b.appVersion ≠ [] ->
    partsDiff (versionOf a) (versionOf b) ≠ -2147483648
  forward : forall a b c, s a -> s b -> s c -> a.appVersion ≠ [] -> b.appVersion ≠ [] ->
    c.appVersion ≠ [] -> compareNumbers a b < 0 -> compareNumbers b c < 0 ->
      compareNumbers a c < 0
  between : forall a b c, s a -> s b -> s c -> a.appVersion ≠ [] -> b.appVersion = [] ->
    c.appVersion ≠ [] -> pathKey a < pathKey b -> pathKey b < pathKey c ->
      0 ≤ compareNumbers c a

theorem compareReleases_versions {a b : PkgDetail} (ha : a.appVersion ≠ [])
    (hb : b.appVersion ≠ []) : compareReleases a b = thenBy compareNumbers comparePaths a b :=
  if_pos ⟨ha, hb⟩

theorem compareReleases_left {a : PkgDetail} (ha : a.appVersion = []) (b : PkgDetail) :
    compareReleases a b = comparePaths a b :=
  if_neg (fun h => h.left ha)

theorem compareReleases_right (a : PkgDetail) {b : PkgDetail} (hb : b.appVersion = []) :
    compareReleases a b = comparePaths a b :=
  if_neg (fun h => h.right hb)

theorem compareReleases_less {a b : PkgDetail} (ha : a.appVersion ≠ [])
    (hb : b.appVersion ≠ []) (h : compareNumbers a b < 0) : compareReleases a b < 0 := by
  rw [compareReleases_versions ha hb, thenBy, if_pos h.ne]
  exact h

theorem compareReleases_neg {a b : PkgDetail} (ha : a.appVersion ≠ [])
    (hb : b.appVersion ≠ []) :
    compareReleases a b < 0 ↔
      compareNumbers a b < 0 ∨ (versionOf a = versionOf b ∧ comparePaths a b < 0) := by
  rw [compareReleases_versions ha hb, thenBy, <- compareNumbers_zero]
  split
  · omega
  · omega

theorem lines_up {s : PkgDetail -> Prop} (hs : Listed s) (h : TotalOn compareReleases s) :
    LinesUp s := by
  have hpaths := byKey_paths hs
  refine ⟨?_, ?_, ?_⟩
  · intro a b ha hb hva hvb hhalf
    rcases compareNumbers_half hhalf with ⟨hab, hba⟩
    have hswap := (h.swap a b ha hb).mp (compareReleases_less hva hvb hab)
    exact absurd hswap (compareReleases_less hvb hva hba).not_gt
  · intro a b c ha hb hc hva hvb hvc hab hbc
    have hac := h.trans a b c ha hb hc (compareReleases_less hva hvb hab)
      (compareReleases_less hvb hvc hbc)
    rcases (compareReleases_neg hva hvc).mp hac with hless | ⟨hsame, _⟩
    · exact hless
    · -- The same version before and behind a third one.
      have hba : compareNumbers b a < 0 := by
        unfold compareNumbers
        rw [hsame]
        exact hbc
      have hswap := (h.swap a b ha hb).mp (compareReleases_less hva hvb hab)
      exact absurd hswap (compareReleases_less hvb hva hba).not_gt
  · intro a b c ha hb hc hva hvb hvc hab hbc
    have hless := (hpaths.less a b ha hb).mpr hab
    have hmore := (hpaths.less b c hb hc).mpr hbc
    rw [<- compareReleases_right a hvb] at hless
    rw [<- compareReleases_left hvb c] at hmore
    have hac := (h.swap a c ha hc).mp (h.trans a b c ha hb hc hless hmore)
    rw [<- not_lt]
    intro hca
    exact absurd hac (compareReleases_less hvc hva hca).not_gt

theorem releases_swap {s : PkgDetail -> Prop} (hs : Listed s) (h : LinesUp s) {a b : PkgDetail}
    (ha : s a) (hb : s b) : compareReleases a b < 0 ↔ 0 < compareReleases b a := by
  have hpath := (byKey_paths hs).swap ha hb
  by_cases hboth : a.appVersion ≠ [] ∧ b.appVersion ≠ []
  · rcases hboth with ⟨hva, hvb⟩
    have hab := h.apart a b ha hb hva hvb
    have hba := h.apart b a hb ha hvb hva
    have hless := compareNumbers_swap hab hba
    have hmore := compareNumbers_swap hba hab
    rw [compareReleases_versions hva hvb, compareReleases_versions hvb hva]
    unfold thenBy
    split
    · split <;> omega
    · split <;> omega
  · have hother : ¬(b.appVersion ≠ [] ∧ a.appVersion ≠ []) := fun hand => hboth hand.symm
    rw [compareReleases, compareReleases, if_neg hboth, if_neg hother]
    exact hpath

theorem releases_distinct {s : PkgDetail -> Prop} (hs : Listed s) {a b : PkgDetail} (ha : s a)
    (hb : s b) (hne : a ≠ b) : compareReleases a b ≠ 0 := by
  have hpath := (totalOn_paths hs).distinct a b ha hb hne
  unfold compareReleases thenBy
  split
  · split
    · assumption
    · exact hpath
  · exact hpath

theorem versions_trans {s : PkgDetail -> Prop} (hs : Listed s) (h : LinesUp s)
    {a b c : PkgDetail} (ha : s a) (hb : s b) (hc : s c) (hva : a.appVersion ≠ [])
    (hvb : b.appVersion ≠ []) (hvc : c.appVersion ≠ [])
    (hab : compareNumbers a b < 0 ∨ (versionOf a = versionOf b ∧ comparePaths a b < 0))
    (hbc : compareNumbers b c < 0 ∨ (versionOf b = versionOf c ∧ comparePaths b c < 0)) :
    compareNumbers a c < 0 ∨ (versionOf a = versionOf c ∧ comparePaths a c < 0) := by
  rcases hab with hab | ⟨hab, hpath⟩
  · rcases hbc with hbc | ⟨hbc, _⟩
    · exact Or.inl (h.forward a b c ha hb hc hva hvb hvc hab hbc)
    · left
      unfold compareNumbers at hab ⊢
      rw [<- hbc]
      exact hab
  · rcases hbc with hbc | ⟨hbc, hmore⟩
    · left
      unfold compareNumbers at hbc ⊢
      rw [hab]
      exact hbc
    · exact Or.inr ⟨hab.trans hbc, (totalOn_paths hs).trans a b c ha hb hc hpath hmore⟩

theorem releases_trans {s : PkgDetail -> Prop} (hs : Listed s) (h : LinesUp s)
    {a b c : PkgDetail} (ha : s a) (hb : s b) (hc : s c) (hab : compareReleases a b < 0)
    (hbc : compareReleases b c < 0) : compareReleases a c < 0 := by
  have hpaths := totalOn_paths hs
  have hkeys := byKey_paths hs
  -- Which of two different packages comes first by its path.
  have hside : forall p q, s p -> s q -> p.appVersion ≠ [] -> q.appVersion = [] ->
      comparePaths p q < 0 ∨ comparePaths q p < 0 := by
    intro p q hp hq hvp hvq
    have hne := hpaths.distinct p q hp hq (fun heq => hvp (heq ▸ hvq))
    have hswap := hpaths.swap q p hq hp
    omega
  by_cases hva : a.appVersion = []
  · rw [compareReleases_left hva] at hab ⊢
    by_cases hvb : b.appVersion = []
    · rw [compareReleases_left hvb] at hbc
      exact hpaths.trans a b c ha hb hc hab hbc
    · by_cases hvc : c.appVersion = []
      · rw [compareReleases_right _ hvc] at hbc
        exact hpaths.trans a b c ha hb hc hab hbc
      · rcases (compareReleases_neg hvb hvc).mp hbc with hless | ⟨_, hpath⟩
        · rcases hside c a hc ha hvc hva with hca | hac
          · have hbetween := h.between c a b hc ha hb hvc hva hvb
              ((hkeys.less c a hc ha).mp hca) ((hkeys.less a b ha hb).mp hab)
            omega
          · exact hac
        · exact hpaths.trans a b c ha hb hc hab hpath
  · by_cases hvb : b.appVersion = []
    · rw [compareReleases_right _ hvb] at hab
      rw [compareReleases_left hvb] at hbc
      have hpath := hpaths.trans a b c ha hb hc hab hbc
      by_cases hvc : c.appVersion = []
      · rw [compareReleases_right _ hvc]
        exact hpath
      · have hbetween := h.between a b c ha hb hc hva hvb hvc ((hkeys.less a b ha hb).mp hab)
          ((hkeys.less b c hb hc).mp hbc)
        have hswap := compareNumbers_swap (h.apart c a hc ha hvc hva) (h.apart a c ha hc hva hvc)
        rw [compareReleases_versions hva hvc, thenBy]
        split
        · have hback := compareNumbers_swap (h.apart a c ha hc hva hvc)
            (h.apart c a hc ha hvc hva)
          omega
        · exact hpath
    · by_cases hvc : c.appVersion = []
      · rw [compareReleases_right _ hvc] at hbc ⊢
        rcases (compareReleases_neg hva hvb).mp hab with hless | ⟨_, hpath⟩
        · rcases hside a c ha hc hva hvc with hac | hca
          · exact hac
          · have hbetween := h.between b c a hb hc ha hvb hvc hva
              ((hkeys.less b c hb hc).mp hbc) ((hkeys.less c a hc ha).mp hca)
            omega
        · exact hpaths.trans a b c ha hb hc hpath hbc
      · rw [compareReleases_neg hva hvb] at hab
        rw [compareReleases_neg hvb hvc] at hbc
        rw [compareReleases_neg hva hvc]
        exact versions_trans hs h ha hb hc hva hvb hvc hab hbc

theorem totalOn_releases {s : PkgDetail -> Prop} (hs : Listed s) :
    TotalOn compareReleases s ↔ LinesUp s := by
  constructor
  · exact lines_up hs
  · intro h
    refine ⟨?_, ?_, ?_⟩
    · intro a b ha hb
      exact releases_swap hs h ha hb
    · intro a b c ha hb hc
      exact releases_trans hs h ha hb hc
    · intro a b ha hb
      exact releases_distinct hs ha hb

/-- Packages that all have a version are in order when no subtraction overflows. -/
theorem linesUp_versions {s : PkgDetail -> Prop} (hversion : forall p, s p -> p.appVersion ≠ [])
    (hsub : forall p q, s p -> s q ->
      Subtracts (charText p.appVersion) (charText q.appVersion)) : LinesUp s := by
  have hplain : forall p q, s p -> s q ->
      compareNumbers p q = partsDiff (versionOf p) (versionOf q) :=
    fun p q hp hq => bmod_of_range (hsub p q hp hq)
  refine ⟨?_, ?_, ?_⟩
  · intro a b ha hb _ _
    exact (hsub a b ha hb).left.ne'
  · intro a b c ha hb hc _ _ _ hab hbc
    rw [hplain a b ha hb] at hab
    rw [hplain b c hb hc] at hbc
    rw [hplain a c ha hc]
    have hle := partsDiff_trans hab.le hbc.le
    have hne : partsDiff (versionOf a) (versionOf c) ≠ 0 := by
      intro hzero
      rw [partsDiff_eq_zero.mp hzero, partsDiff_neg] at hab
      omega
    omega
  · intro a b c _ hb _ _ hvb
    exact absurd hvb (hversion b hb)

/-!
# The catalog
-/

/-- The packages stand in one order, in which they are listed wherever they were found first. -/
def CatalogOrdered (packages : List PkgDetail) : Prop :=
  TotalOn comparePkgByTitleName (fun p => p ∈ packages) ∧
    forall found, found.Perm packages -> sortPackages found = sortPackages packages

/-- The releases of every title line up, each type on its own. -/
def ReleasesLineUp (packages : List PkgDetail) : Prop :=
  forall title type,
    LinesUp (fun p => (p ∈ packages ∧ titleKey p = title) ∧ typeKey p = type)

theorem catalogOrdered_iff {packages : List PkgDetail}
    (h : Listed (fun p => p ∈ packages)) :
    CatalogOrdered packages ↔ ReleasesLineUp packages := by
  have htotal : TotalOn comparePkgByTitleName (fun p => p ∈ packages) ↔
      ReleasesLineUp packages := by
    rw [comparePkgByTitleName_keys, totalOn_thenBy (byKey_titles h)]
    apply forall_congr'
    intro title
    rw [totalOn_thenBy (byKey_types _)]
    apply forall_congr'
    intro type
    exact totalOn_releases (h.subset (fun _ hp => hp.left.left))
  constructor
  · intro hordered
    exact htotal.mp hordered.left
  · intro hlines
    have hall := htotal.mpr hlines
    exact ⟨hall, fun found hperm => mergeSort_perm_eq hall hperm⟩

theorem listed_of_nodup {packages : List PkgDetail}
    (htitle : forall p, p ∈ packages -> ZeroFree p.titleName)
    (hpath : forall p, p ∈ packages -> ZeroFree p.path)
    (hnodup : (packages.map PkgDetail.path).Nodup) : Listed (fun p => p ∈ packages) where
  title := htitle
  path := hpath
  distinct _ _ hp hq heq := List.inj_on_of_nodup_map hnodup hp hq heq

def updateOf (version path : Text) : PkgDetail :=
  { PkgDetail.zero with
    titleName := ascii "Game", pkgType := .update, appVersion := version, path := path }

def plainCatalog : List PkgDetail :=
  [updateOf (ascii "1.02") (ascii "/a.pkg"), updateOf (ascii "1.01") (ascii "/b.pkg")]

/-- The second package has no version. -/
def mixedCatalog : List PkgDetail :=
  [updateOf (ascii "1.02") (ascii "/a.pkg"), updateOf [] (ascii "/b.pkg"),
    updateOf (ascii "1.01") (ascii "/c.pkg")]

theorem catalogOrdered_plain : CatalogOrdered plainCatalog := by
  have hcases : forall {p : PkgDetail}, p ∈ plainCatalog ->
      p = updateOf (ascii "1.02") (ascii "/a.pkg") ∨
        p = updateOf (ascii "1.01") (ascii "/b.pkg") :=
    fun hp => List.mem_pair.mp hp
  have hlisted : Listed (fun p => p ∈ plainCatalog) := by
    apply listed_of_nodup
    · intro p hp
      rcases hcases hp with rfl | rfl <;> exact zeroFree_of_all rfl
    · intro p hp
      rcases hcases hp with rfl | rfl <;> exact zeroFree_of_all rfl
    · decide
  apply (catalogOrdered_iff hlisted).mpr
  intro title type
  apply linesUp_versions
  · intro p hp
    rcases hcases hp.left.left with rfl | rfl <;> exact List.cons_ne_nil _ _
  · intro p q hp hq
    unfold Subtracts
    rcases hcases hp.left.left with rfl | rfl <;> rcases hcases hq.left.left with rfl | rfl <;>
      decide

theorem mixedCatalog_not_ordered : Listed (fun p => p ∈ mixedCatalog) ∧
    ¬CatalogOrdered mixedCatalog := by
  constructor
  · have hcases : forall {p : PkgDetail}, p ∈ mixedCatalog ->
        p = updateOf (ascii "1.02") (ascii "/a.pkg") ∨
          p = updateOf [] (ascii "/b.pkg") ∨
          p = updateOf (ascii "1.01") (ascii "/c.pkg") := by
      intro p hp
      simpa [mixedCatalog] using hp
    apply listed_of_nodup
    · intro p hp
      rcases hcases hp with rfl | rfl | rfl <;> exact zeroFree_of_all rfl
    · intro p hp
      rcases hcases hp with rfl | rfl | rfl <;> exact zeroFree_of_all rfl
    · decide
  · intro h
    have htrans := h.left.trans (updateOf (ascii "1.02") (ascii "/a.pkg"))
      (updateOf [] (ascii "/b.pkg")) (updateOf (ascii "1.01") (ascii "/c.pkg"))
      (by simp [mixedCatalog]) (by simp [mixedCatalog]) (by simp [mixedCatalog])
      (by decide) (by decide)
    revert htrans
    decide

end Scanner
end PkgManager
