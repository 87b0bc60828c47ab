import Mathlib.Data.List.Nodup
import PkgManager.Bytes.Regions
import PkgManager.Scanner.Quick

/-!
# What a quick scan leaves

A scan of a source drops what the catalog has of the source and puts in what the
source has now.  It only gets there by keeping packages, so a package of the
catalog has to be what its file would be read as today.
-/

namespace PkgManager
namespace Scanner

open CString
open Regions
open PkgManager.Parser

def recordOf (f : QuickFile) : ScannedFile where
  path := f.path
  fileSize := f.fileSize
  mtime := f.mtime

/-- What is known of all files that were ever listed.  A file that was changed has
another size or another time, and no time is unknown then. -/
structure History (parse : ParseEntry) (seen : QuickFile -> Prop) : Prop where
  short : forall f, seen f -> copied 512 f.path = f.path
  honest : forall f p, seen f -> parse f = some p ->
    p.path = f.path ∧ p.fileSize = f.fileSize ∧ p.mtime = f.mtime
  distinct : forall f g, seen f -> seen g -> f.path = g.path -> f.fileSize = g.fileSize ->
    (timeGap f.mtime g.mtime ≤ 2 ∨ f.mtime = 0 ∨ g.mtime = 0) -> f = g

structure FromSeen (parse : ParseEntry) (seen : QuickFile -> Prop) (c : Catalog) : Prop where
  packages : forall p, p ∈ c.packages -> exists f, seen f ∧ parse f = some p
  scannedFiles : forall e, e ∈ c.scannedFiles -> exists f, seen f ∧ e = recordOf f

/-- The files of a source as they are now: each is a package, or the first part of
one, below the path of the drive. -/
structure Orderly (parse : ParseEntry) (seen : QuickFile -> Prop) (drivePath : Text)
    (files : List QuickFile) : Prop where
  seen : forall f, f ∈ files -> seen f
  own : forall f, f ∈ files -> pkgMatchesDrivePath f.path drivePath = true
  distinct : (files.map QuickFile.path).Nodup
  dated : forall f, f ∈ files -> f.mtime ≠ 0
  package : forall f, f ∈ files ->
    exists p, parse f = some p ∧ isProvisionalPackage p = false
  first : forall f, f ∈ files -> isLaterPart f.path = false

def ownsPackage (drivePath : Text) (p : PkgDetail) : Bool :=
  pkgMatchesDrivePath p.path drivePath

def ownsRecord (drivePath : Text) (e : ScannedFile) : Bool :=
  pkgMatchesDrivePath e.path drivePath

theorem timeGap_self (a : Nat) : timeGap a a = 0 := by
  unfold timeGap
  rw [Int.sub_self]
  rfl

/-!
# The matching loop
-/

section

variable {parse : ParseEntry} {seen : QuickFile -> Prop} {drivePath : Text}
  {files : List QuickFile}

theorem cached_parse (hist : History parse seen) {f : QuickFile} {p : PkgDetail}
    (hf : seen f) (hp : exists g, seen g ∧ parse g = some p)
    (h : cached drivePath f p = true) : parse f = some p := by
  obtain ⟨g, hg, hparse⟩ := hp
  obtain ⟨hpath, hsize, hmtime⟩ := hist.honest g p hg hparse
  unfold cached at h
  rw [Bool.and_eq_true, Bool.and_eq_true, Bool.and_eq_true, beq_iff_eq, beq_iff_eq,
    Bool.or_eq_true, Bool.or_eq_true, beq_iff_eq, beq_iff_eq, decide_eq_true_eq] at h
  obtain ⟨⟨⟨_, hsame⟩, hsameSize⟩, htime⟩ := h
  have hfg : f = g := by
    apply hist.distinct f g hf hg (hsame.trans hpath) (hsameSize.trans hsize)
    rw [hmtime] at htime
    rcases htime with (hzero | hzero) | hgap
    · exact Or.inr (Or.inl hzero)
    · exact Or.inr (Or.inr hzero)
    · exact Or.inl hgap
  rw [hfg]
  exact hparse

theorem fillMtime_cached (hist : History parse seen) {f : QuickFile} {p : PkgDetail}
    (hf : seen f) (hp : exists g, seen g ∧ parse g = some p)
    (h : cached drivePath f p = true) : fillMtime f.mtime p = p := by
  have hmtime := (hist.honest f p hf (cached_parse hist hf hp h)).2.2
  unfold fillMtime
  rw [if_neg]
  rintro ⟨hzero, hne⟩
  exact hne (hmtime ▸ hzero)

/-- What the loop has done for some files. -/
structure Matched (parse : ParseEntry) (packages : List PkgDetail) (files : List QuickFile)
    (m : Matching) : Prop where
  packages : m.packages = packages
  found : (m.updated ++ m.needsParsing.filterMap parse).Perm (files.filterMap parse)
  needs : forall f, f ∈ m.needsParsing -> f ∈ files

theorem matchFile_matched (drivePath : Text) (hist : History parse seen) {packages : List PkgDetail}
    (hpackages : forall p, p ∈ packages -> exists g, seen g ∧ parse g = some p)
    {f : QuickFile} (hf : seen f) {m : Matching} (h : Matched parse packages files m) :
    Matched parse packages (files ++ [f]) (matchFile drivePath m f) := by
  unfold matchFile
  cases hfind : m.packages.find? (cached drivePath f) with
  | some p =>
      have hmem : p ∈ packages := by
        rw [← h.packages]
        exact List.mem_of_find?_eq_some hfind
      have hcached := List.find?_some hfind
      have hparse := cached_parse hist hf (hpackages p hmem) hcached
      have hfill := fillMtime_cached hist hf (hpackages p hmem) hcached
      constructor
      · show Table.replaceFirst _ _ m.packages = packages
        rw [Table.replaceFirst_same]
        · exact h.packages
        · intro r hr hhit
          rw [h.packages] at hr
          exact fillMtime_cached hist hf (hpackages r hr) hhit
      · show ((m.updated ++ [fillMtime f.mtime p]) ++ m.needsParsing.filterMap parse).Perm _
        have hone : [f].filterMap parse = [p] := by
          rw [List.filterMap_cons_some hparse]
          rfl
        have hswap : (m.updated ++ [p] ++ m.needsParsing.filterMap parse).Perm
            (m.updated ++ m.needsParsing.filterMap parse ++ [p]) := by
          rw [List.append_assoc, List.append_assoc]
          exact List.perm_append_comm.append_left _
        rw [hfill, List.filterMap_append, hone]
        exact hswap.trans (h.found.append_right [p])
      · intro g hg
        exact List.mem_append_left _ (h.needs g hg)
  | none =>
      constructor
      · exact h.packages
      · show (m.updated ++ (m.needsParsing ++ [f]).filterMap parse).Perm _
        rw [List.filterMap_append, List.filterMap_append, ← List.append_assoc]
        exact h.found.append_right _
      · intro g hg
        rcases List.mem_append.mp hg with hold | hnew
        · exact List.mem_append_left _ (h.needs g hold)
        · exact List.mem_append_right _ hnew

theorem foldl_matchFile_matched (drivePath : Text) (hist : History parse seen)
    {packages : List PkgDetail}
    (hpackages : forall p, p ∈ packages -> exists g, seen g ∧ parse g = some p)
    (rest done : List QuickFile) (hrest : forall f, f ∈ rest -> seen f) {m : Matching}
    (h : Matched parse packages done m) :
    Matched parse packages (done ++ rest) (rest.foldl (matchFile drivePath) m) := by
  induction rest generalizing done m with
  | nil =>
      rw [List.append_nil]
      exact h
  | cons f rest ih =>
      have hstep := matchFile_matched drivePath hist hpackages
        (hrest f List.mem_cons_self) h
      have hrun := ih (done ++ [f]) (fun g hg => hrest g (List.mem_cons_of_mem f hg)) hstep
      rw [List.append_assoc] at hrun
      exact hrun

theorem matchFiles_matched (drivePath : Text) (hist : History parse seen) {packages : List PkgDetail}
    (hpackages : forall p, p ∈ packages -> exists g, seen g ∧ parse g = some p)
    (hfiles : forall f, f ∈ files -> seen f) :
    Matched parse packages files (matchFiles drivePath packages files) :=
  foldl_matchFile_matched drivePath hist hpackages files [] hfiles
    { packages := rfl, found := List.Perm.refl _, needs := fun _ hf => hf }

/-!
# Commit
-/

theorem copied_ne_nil {f : QuickFile} (hown : pkgMatchesDrivePath f.path drivePath = true) :
    f.path ≠ [] := by
  intro hnil
  have hprefix := pkgMatchesDrivePath_prefix hown
  rw [hnil] at hprefix
  have hdrive := List.eq_nil_of_prefix_nil hprefix
  rw [hdrive] at hown
  cases hown

theorem recordFiles_fresh (rows : List ScannedFile)
    (hpaths : forall f, f ∈ files -> f.path ≠ [] ∧ copied 512 f.path = f.path)
    (hnodup : (files.map QuickFile.path).Nodup)
    (hfresh : forall f, f ∈ files -> forall e, e ∈ rows -> e.path ≠ f.path) :
    recordFiles files rows = rows ++ files.map recordOf := by
  induction files generalizing rows with
  | nil => exact (List.append_nil rows).symm
  | cons f rest ih =>
      obtain ⟨hne, hshort⟩ := hpaths f List.mem_cons_self
      obtain ⟨hnew, hrest⟩ := List.nodup_cons.mp hnodup
      have hnone : rows.any (fun e => e.path == f.path) = false := by
        apply List.any_eq_false.mpr
        intro e he
        rw [beq_iff_eq]
        exact hfresh f List.mem_cons_self e he
      have hadd : addScannedFile f.path f.fileSize f.mtime rows = rows ++ [recordOf f] := by
        unfold addScannedFile Table.upsert
        rw [if_neg hne, hnone, hshort]
        rfl
      change recordFiles rest (addScannedFile f.path f.fileSize f.mtime rows) = _
      rw [hadd, ih _ (fun g hg => hpaths g (List.mem_cons_of_mem f hg)) hrest, List.append_assoc]
      · rfl
      · intro g hg e he
        rcases List.mem_append.mp he with hold | hlast
        · exact hfresh g (List.mem_cons_of_mem f hg) e hold
        · rw [List.mem_singleton.mp hlast]
          intro hsame
          change f.path = g.path at hsame
          rw [hsame] at hnew
          exact hnew (List.mem_map_of_mem hg)

theorem removeScannedFiles_fresh (hfiles : Orderly parse seen drivePath files)
    (rows : List ScannedFile) (f : QuickFile) (hf : f ∈ files) (e : ScannedFile)
    (he : e ∈ removeScannedFilesForDrive drivePath rows) : e.path ≠ f.path := by
  intro hsame
  have hnot := (List.mem_filter.mp he).2
  rw [hsame, hfiles.own f hf] at hnot
  cases hnot

theorem commitFiles_scanned {drive : DriveName} (hist : History parse seen)
    (hfiles : Orderly parse seen drive.path files) (c : Catalog)
    (hprovisional : ((matchFiles drive.path c.packages files).needsParsing.filterMap parse).any
      isProvisionalPackage = false) :
    (commitFiles parse drive files c).scannedFiles =
      replaceOwn (ownsRecord drive.path) (files.map recordOf) c.scannedFiles := by
  unfold commitFiles
  dsimp only
  rw [hprovisional]
  apply recordFiles_fresh
  · intro f hf
    exact ⟨copied_ne_nil (hfiles.own f hf), hist.short f (hfiles.seen f hf)⟩
  · exact hfiles.distinct
  · exact removeScannedFiles_fresh hfiles c.scannedFiles

theorem needs_not_provisional {packages : List PkgDetail} {m : Matching}
    (hfiles : Orderly parse seen drivePath files) (h : Matched parse packages files m) :
    (m.needsParsing.filterMap parse).any isProvisionalPackage = false := by
  apply List.any_eq_false.mpr
  intro p hp
  obtain ⟨f, hf, hparse⟩ := List.mem_filterMap.mp hp
  obtain ⟨q, hq, hplain⟩ := hfiles.package f (h.needs f hf)
  rw [hparse] at hq
  rw [Option.some.inj hq, hplain]
  exact Bool.false_ne_true

theorem commitFiles_packages {drive : DriveName} (hist : History parse seen)
    (hfiles : Orderly parse seen drive.path files) {c : Catalog} (hc : FromSeen parse seen c)
    (hroom : (c.packages.filter (fun p => !ownsPackage drive.path p)).length + files.length ≤
      maxPackages) :
    (commitFiles parse drive files c).packages.Perm
      (replaceOwn (ownsPackage drive.path) (files.filterMap parse) c.packages) := by
  have hmatched := matchFiles_matched drive.path hist hc.packages hfiles.seen
  have hplain := needs_not_provisional hfiles hmatched
  have hcount : (files.filterMap parse).length ≤ files.length := List.length_filterMap_le _ _
  unfold commitFiles
  dsimp only
  rw [hplain, hmatched.packages]
  have hkept : c.packages.filter (fun p => !pkgMatchesDrivePath p.path drive.path ||
      (false && !hasPath files p.path &&
        !((matchFiles drive.path c.packages files).updated ++
          (matchFiles drive.path c.packages files).needsParsing.filterMap parse).any
            (fun q => q.path == p.path))) =
      c.packages.filter (fun p => !ownsPackage drive.path p) := by
    apply List.filter_congr
    intro p _
    rw [Bool.false_and, Bool.false_and, Bool.or_false]
    rfl
  rw [hkept, List.take_of_length_le]
  · exact hmatched.found.append_left _
  · rw [hmatched.found.length_eq]
    exact Nat.le_sub_of_add_le (by rw [Nat.add_comm]; exact (Nat.add_le_add_left hcount _).trans hroom)

/-!
# A source that is as the catalog has it
-/

/-- The packages and the records below the path are those of the files. -/
structure Settled (parse : ParseEntry) (drivePath : Text) (files : List QuickFile)
    (c : Catalog) : Prop where
  packages : (c.packages.filter (ownsPackage drivePath)).Perm (files.filterMap parse)
  scannedFiles : (c.scannedFiles.filter (ownsRecord drivePath)).Perm (files.map recordOf)

theorem mem_parsed {p : PkgDetail} :
    p ∈ files.filterMap parse ↔ exists f, f ∈ files ∧ parse f = some p :=
  List.mem_filterMap

theorem parsed_paths (hist : History parse seen) (hfiles : Orderly parse seen drivePath files) :
    (files.filterMap parse).map PkgDetail.path = files.map QuickFile.path := by
  have hgood : forall f, f ∈ files -> exists p, parse f = some p ∧ p.path = f.path := by
    intro f hf
    obtain ⟨p, hp, _⟩ := hfiles.package f hf
    exact ⟨p, hp, (hist.honest f p (hfiles.seen f hf) hp).1⟩
  clear hfiles
  induction files with
  | nil => rfl
  | cons f rest ih =>
      obtain ⟨p, hp, hpath⟩ := hgood f List.mem_cons_self
      rw [List.filterMap_cons_some hp, List.map_cons, List.map_cons, hpath,
        ih (fun g hg => hgood g (List.mem_cons_of_mem f hg))]

theorem parsed_nodup (hist : History parse seen) (hfiles : Orderly parse seen drivePath files) :
    (files.filterMap parse).Nodup := by
  apply List.Nodup.of_map PkgDetail.path
  rw [parsed_paths hist hfiles]
  exact hfiles.distinct

theorem parsed_length (hist : History parse seen) (hfiles : Orderly parse seen drivePath files) :
    (files.filterMap parse).length = files.length := by
  have h := congrArg List.length (parsed_paths hist hfiles)
  rw [List.length_map, List.length_map] at h
  exact h

theorem recorded_nodup (hfiles : Orderly parse seen drivePath files) :
    (files.map recordOf).Nodup := by
  apply List.Nodup.of_map ScannedFile.path
  rw [List.map_map]
  exact hfiles.distinct

theorem parsed_own (hist : History parse seen) (hfiles : Orderly parse seen drivePath files)
    (p : PkgDetail) (hp : p ∈ files.filterMap parse) : ownsPackage drivePath p = true := by
  obtain ⟨f, hf, hparse⟩ := mem_parsed.mp hp
  unfold ownsPackage
  rw [(hist.honest f p (hfiles.seen f hf) hparse).1]
  exact hfiles.own f hf

theorem recorded_own (hfiles : Orderly parse seen drivePath files) (e : ScannedFile)
    (he : e ∈ files.map recordOf) : ownsRecord drivePath e = true := by
  obtain ⟨f, hf, hrecord⟩ := List.mem_map.mp he
  rw [← hrecord]
  exact hfiles.own f hf

/-- A package of the source that is listed is what its file is read as. -/
theorem packageListed_parse (hist : History parse seen)
    (hfiles : Orderly parse seen drivePath files) {p : PkgDetail}
    (hp : exists g, seen g ∧ parse g = some p) (h : packageListed files p = true) :
    exists f, f ∈ files ∧ parse f = some p := by
  obtain ⟨g, hg, hparse⟩ := hp
  obtain ⟨hpath, hsize, hmtime⟩ := hist.honest g p hg hparse
  unfold packageListed at h
  rw [Bool.and_eq_true] at h
  obtain ⟨f, hf, hsame⟩ := List.any_eq_true.mp h.2
  rw [Bool.and_eq_true, Bool.and_eq_true, beq_iff_eq, beq_iff_eq, Bool.or_eq_true,
    decide_eq_true_eq, beq_iff_eq] at hsame
  obtain ⟨⟨hsamePath, hsameSize⟩, htime⟩ := hsame
  have hfg : f = g := by
    apply hist.distinct f g (hfiles.seen f hf) hg (hsamePath.trans hpath) (hsameSize.trans hsize)
    rw [hmtime] at htime
    rcases htime with hgap | hzero
    · exact Or.inl hgap
    · exact Or.inr (Or.inl hzero)
  exact ⟨f, hf, by rw [hfg]; exact hparse⟩

/-- A file that is recorded is recorded as it is. -/
theorem fileRecorded_record (hist : History parse seen) {c : Catalog}
    (hc : FromSeen parse seen c) {f : QuickFile} (hf : seen f)
    (h : fileRecorded drivePath c f = true) :
    recordOf f ∈ c.scannedFiles.filter (ownsRecord drivePath) := by
  unfold fileRecorded at h
  obtain ⟨e, he, hsame⟩ := List.any_eq_true.mp h
  obtain ⟨g, hg, hrecord⟩ := hc.scannedFiles e (List.mem_filter.mp he).1
  rw [hrecord, Bool.and_eq_true, Bool.and_eq_true, beq_iff_eq, beq_iff_eq, Bool.or_eq_true,
    Bool.or_eq_true, decide_eq_true_eq, beq_iff_eq, beq_iff_eq] at hsame
  obtain ⟨⟨hpath, hsize⟩, htime⟩ := hsame
  have hfg : f = g := by
    apply hist.distinct f g hf hg hpath hsize
    rcases htime with (hgap | hzero) | hzero
    · exact Or.inl hgap
    · exact Or.inr (Or.inl hzero)
    · exact Or.inr (Or.inr hzero)
  rw [hfg, ← hrecord]
  exact he

theorem identical_parts {drive : DriveName} {c : Catalog} (h : identical drive c files = true) :
    files.length = (ownScannedFiles drive.path c).length ∧
      (ownPackages drive.path c).length ≤ files.length ∧
      (forall p, p ∈ ownPackages drive.path c -> packageListed files p = true) ∧
      (forall f, f ∈ files -> fileKnown drive.path c f = true) := by
  unfold identical at h
  dsimp only at h
  split at h
  · cases h
  · rename_i hcount
    rw [not_not] at hcount
    split at h
    · rename_i hempty
      rw [Bool.and_eq_true, List.isEmpty_iff] at h
      rw [h.2]
      exact ⟨hcount, Nat.zero_le _, fun p hp => absurd hp List.not_mem_nil,
        fun f hf => absurd (hempty ▸ hf) List.not_mem_nil⟩
    · rw [Bool.and_eq_true, Bool.and_eq_true, decide_eq_true_eq, List.all_eq_true,
        List.all_eq_true] at h
      exact ⟨hcount, h.1.1.2, h.1.2, h.2⟩

theorem identical_settled {drive : DriveName} (hist : History parse seen)
    (hfiles : Orderly parse seen drive.path files) {c : Catalog} (hc : FromSeen parse seen c)
    (h : identical drive c files = true) : Settled parse drive.path files c := by
  obtain ⟨hcount, hlength, hlisted, hknown⟩ := identical_parts h
  constructor
  · apply perm_of_subset_of_length (parsed_nodup hist hfiles)
    · intro p hp
      obtain ⟨f, hf, hparse⟩ := mem_parsed.mp hp
      have hpackage := hknown f hf
      unfold fileKnown at hpackage
      rw [hfiles.first f hf, Bool.or_false, Bool.and_eq_true] at hpackage
      obtain ⟨q, hq, hsame⟩ := List.any_eq_true.mp hpackage.2
      obtain ⟨g, hg, hgq⟩ := packageListed_parse hist hfiles
        (hc.packages q (List.mem_filter.mp hq).1) (hlisted q hq)
      have hpath : f.path = g.path := by
        rw [beq_iff_eq] at hsame
        exact hsame.trans (hist.honest g q (hfiles.seen g hg) hgq).1
      have hfg : f = g := List.inj_on_of_nodup_map hfiles.distinct hf hg hpath
      rw [← hfg, hparse] at hgq
      rw [Option.some.inj hgq]
      exact hq
    · rw [parsed_length hist hfiles]
      exact hlength
  · apply perm_of_subset_of_length (recorded_nodup hfiles)
    · intro e he
      obtain ⟨f, hf, hrecord⟩ := List.mem_map.mp he
      have hrecorded := hknown f hf
      unfold fileKnown at hrecorded
      rw [Bool.and_eq_true] at hrecorded
      rw [← hrecord]
      exact fileRecorded_record hist hc (hfiles.seen f hf) hrecorded.1
    · rw [List.length_map]
      exact Nat.le_of_eq hcount.symm

end

end Scanner
end PkgManager
