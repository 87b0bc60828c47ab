import PkgManager.Scanner.Refresh

/-!
# A pass over all sources

The sources take their turns one after the other.  What one turn has settled stays
settled in the turns of the others.
-/

namespace PkgManager
namespace Scanner

open CString
open Regions
open PkgManager.Parser

/-- A source and what was found on it. -/
structure Turn where
  name : DriveName
  listing : Listing
deriving DecidableEq

def Listing.files : Listing -> List QuickFile
  | .skipped => []
  | .unmounted => []
  | .listed files => files

def Turn.files (t : Turn) : List QuickFile :=
  t.listing.files

def Turn.mounted (t : Turn) : Prop :=
  t.listing ≠ .unmounted

def scanTurn (parse : ParseEntry) (scan : Scan) (t : Turn) : Scan :=
  let next := scanQuickSingleSource parse t.name t.listing scan.catalog
  { catalog := next.catalog, changed := scan.changed + next.changed }

def scanTurns (parse : ParseEntry) (turns : List Turn) (c : Catalog) : Scan :=
  turns.foldl (scanTurn parse) { catalog := c, changed := 0 }

/-- There is room for the packages and, for a source without files, an entry in the
list of drives. -/
structure StepFits (t : Turn) (c : Catalog) : Prop where
  packages : (c.packages.filter (fun p => !ownsPackage t.name.path p)).length + t.files.length ≤
    maxPackages
  drives : t.listing = .listed [] ->
    c.drives.any (isDrive t.name) = true ∨ c.drives.length < maxDrives

/-- Every step of a pass has room. -/
def PassFits (parse : ParseEntry) : Catalog -> List Turn -> Prop
  | _, [] => True
  | c, t :: rest =>
      StepFits t c ∧
        PassFits parse (scanQuickSingleSource parse t.name t.listing c).catalog rest

/-- The sources of a pass: all were listed, and a file below the path of a source is
one of its files. -/
structure Apart (parse : ParseEntry) (seen : QuickFile -> Prop) (turns : List Turn) : Prop where
  listed : forall t, t ∈ turns -> t.listing ≠ .skipped
  orderly : forall t, t ∈ turns -> Orderly parse seen t.name.path t.files
  below : forall s, s ∈ turns -> forall t, t ∈ turns -> forall f, f ∈ t.files ->
    pkgMatchesDrivePath f.path s.name.path = true -> f ∈ s.files

def SettledTurn (parse : ParseEntry) (c : Catalog) (t : Turn) : Prop :=
  Settled parse t.name.path t.files c

section

variable {parse : ParseEntry} {seen : QuickFile -> Prop}

/-!
# One turn
-/

/-- A scan replaces what the catalog has of the source. -/
structure Replaces (parse : ParseEntry) (t : Turn) (c after : Catalog) : Prop where
  packages : after.packages.Perm
    (replaceOwn (ownsPackage t.name.path) (t.files.filterMap parse) c.packages)
  scannedFiles : after.scannedFiles.Perm
    (replaceOwn (ownsRecord t.name.path) (t.files.map recordOf) c.scannedFiles)

theorem scanQuickSingleSource_replaces (hist : History parse seen) {t : Turn}
    (hlisted : t.listing ≠ .skipped) (hfiles : Orderly parse seen t.name.path t.files)
    {c : Catalog} (hc : FromSeen parse seen c) (hfits : StepFits t c) :
    Replaces parse t c (scanQuickSingleSource parse t.name t.listing c).catalog := by
  obtain ⟨name, listing⟩ := t
  cases listing with
  | skipped => exact absurd rfl hlisted
  | unmounted =>
      constructor
      · rw [replaceOwn, show Turn.files ⟨name, .unmounted⟩ = [] from rfl]
        rw [List.filterMap_nil, List.append_nil]
        exact List.Perm.refl _
      · rw [replaceOwn, show Turn.files ⟨name, .unmounted⟩ = [] from rfl]
        rw [List.map_nil, List.append_nil]
        exact List.Perm.refl _
  | listed files =>
      change Replaces parse _ c (scanListed parse name files c).catalog
      unfold scanListed
      split
      · rename_i hidentical
        have hsettled := identical_settled hist hfiles hc hidentical
        exact ⟨replaceOwn_settled hsettled.packages, replaceOwn_settled hsettled.scannedFiles⟩
      · have hmatched := matchFiles_matched name.path hist hc.packages hfiles.seen
        have hplain := needs_not_provisional hfiles hmatched
        constructor
        · exact commitFiles_packages hist hfiles hc hfits.packages
        · exact List.Perm.of_eq (commitFiles_scanned hist hfiles c hplain)

theorem Replaces.settles {t : Turn} (hist : History parse seen)
    (hfiles : Orderly parse seen t.name.path t.files) {c after : Catalog}
    (h : Replaces parse t c after) : SettledTurn parse after t where
  packages := by
    have hown := own_replaceOwn c.packages (parsed_own hist hfiles)
    rw [← hown]
    exact h.packages.filter _
  scannedFiles := by
    have hown := own_replaceOwn c.scannedFiles (recorded_own hfiles)
    rw [← hown]
    exact h.scannedFiles.filter _

/-- Two sources have the same packages where their paths overlap. -/
theorem shared_packages (hist : History parse seen) {turns : List Turn}
    (hapart : Apart parse seen turns) {s t : Turn} (hs : s ∈ turns) (ht : t ∈ turns) :
    ((s.files.filterMap parse).filter (ownsPackage t.name.path)).Perm
      ((t.files.filterMap parse).filter (ownsPackage s.name.path)) := by
  have hmem : forall u, u ∈ turns -> forall v, v ∈ turns -> forall p,
      p ∈ (u.files.filterMap parse).filter (ownsPackage v.name.path) ->
      p ∈ (v.files.filterMap parse).filter (ownsPackage u.name.path) := by
    intro u hu v hv p hp
    obtain ⟨hparsed, hown⟩ := List.mem_filter.mp hp
    obtain ⟨f, hf, hparse⟩ := mem_parsed.mp hparsed
    have hpath := (hist.honest f p ((hapart.orderly u hu).seen f hf) hparse).1
    unfold ownsPackage at hown
    rw [hpath] at hown
    have hfv := hapart.below v hv u hu f hf hown
    exact List.mem_filter.mpr ⟨mem_parsed.mpr ⟨f, hfv, hparse⟩,
      parsed_own hist (hapart.orderly u hu) p hparsed⟩
  apply (List.perm_ext_iff_of_nodup _ _).mpr
  · intro p
    constructor
    · exact hmem s hs t ht p
    · exact hmem t ht s hs p
  · exact (parsed_nodup hist (hapart.orderly s hs)).filter _
  · exact (parsed_nodup hist (hapart.orderly t ht)).filter _

theorem shared_records {turns : List Turn} (hapart : Apart parse seen turns) {s t : Turn}
    (hs : s ∈ turns) (ht : t ∈ turns) :
    ((s.files.map recordOf).filter (ownsRecord t.name.path)).Perm
      ((t.files.map recordOf).filter (ownsRecord s.name.path)) := by
  have hmem : forall u, u ∈ turns -> forall v, v ∈ turns -> forall e,
      e ∈ (u.files.map recordOf).filter (ownsRecord v.name.path) ->
      e ∈ (v.files.map recordOf).filter (ownsRecord u.name.path) := by
    intro u hu v hv e he
    obtain ⟨hrecorded, hown⟩ := List.mem_filter.mp he
    obtain ⟨f, hf, hrecord⟩ := List.mem_map.mp hrecorded
    rw [← hrecord] at hown
    have hfv := hapart.below v hv u hu f hf hown
    exact List.mem_filter.mpr ⟨List.mem_map.mpr ⟨f, hfv, hrecord⟩,
      recorded_own (hapart.orderly u hu) e hrecorded⟩
  apply (List.perm_ext_iff_of_nodup _ _).mpr
  · intro e
    constructor
    · exact hmem s hs t ht e
    · exact hmem t ht s hs e
  · exact (recorded_nodup (hapart.orderly s hs)).filter _
  · exact (recorded_nodup (hapart.orderly t ht)).filter _

theorem Replaces.keeps (hist : History parse seen) {turns : List Turn}
    (hapart : Apart parse seen turns) {s t : Turn} (hs : s ∈ turns) (ht : t ∈ turns)
    {c after : Catalog} (h : Replaces parse s c after) (hsettled : SettledTurn parse c t) :
    SettledTurn parse after t where
  packages := (h.packages.filter _).trans
    (other_replaceOwn hsettled.packages (shared_packages hist hapart hs ht))
  scannedFiles := (h.scannedFiles.filter _).trans
    (other_replaceOwn hsettled.scannedFiles (shared_records hapart hs ht))

theorem Replaces.fromSeen {t : Turn} (hfiles : Orderly parse seen t.name.path t.files)
    {c after : Catalog} (h : Replaces parse t c after) (hc : FromSeen parse seen c) :
    FromSeen parse seen after where
  packages := by
    intro p hp
    rcases List.mem_append.mp (h.packages.mem_iff.mp hp) with hold | hnew
    · exact hc.packages p (List.mem_filter.mp hold).1
    · obtain ⟨f, hf, hparse⟩ := mem_parsed.mp hnew
      exact ⟨f, hfiles.seen f hf, hparse⟩
  scannedFiles := by
    intro e he
    rcases List.mem_append.mp (h.scannedFiles.mem_iff.mp he) with hold | hnew
    · exact hc.scannedFiles e (List.mem_filter.mp hold).1
    · obtain ⟨f, hf, hrecord⟩ := List.mem_map.mp hnew
      exact ⟨f, hfiles.seen f hf, hrecord.symm⟩

/-!
# The whole pass
-/

theorem foldl_scanTurn_catalog (turns : List Turn) (scan scan' : Scan)
    (h : scan.catalog = scan'.catalog) :
    (turns.foldl (scanTurn parse) scan).catalog =
      (turns.foldl (scanTurn parse) scan').catalog := by
  induction turns generalizing scan scan' with
  | nil => exact h
  | cons t rest ih =>
      apply ih
      show (scanQuickSingleSource parse t.name t.listing scan.catalog).catalog =
        (scanQuickSingleSource parse t.name t.listing scan'.catalog).catalog
      rw [h]

theorem scanTurns_cons (t : Turn) (rest : List Turn) (c : Catalog) :
    (scanTurns parse (t :: rest) c).catalog =
      (scanTurns parse rest (scanQuickSingleSource parse t.name t.listing c).catalog).catalog :=
  foldl_scanTurn_catalog rest _ _ rfl

/-- What every turn brings about for its own source, and no turn destroys for
another one, holds for all sources after a pass. -/
theorem scanTurns_rule {turns : List Turn} (inv : Catalog -> Prop)
    (settled : Catalog -> Turn -> Prop)
    (hstep : forall c s, s ∈ turns -> inv c -> StepFits s c ->
      inv (scanQuickSingleSource parse s.name s.listing c).catalog ∧
        settled (scanQuickSingleSource parse s.name s.listing c).catalog s ∧
        forall t, t ∈ turns -> settled c t ->
          settled (scanQuickSingleSource parse s.name s.listing c).catalog t)
    (rest done : List Turn) (hrest : forall t, t ∈ rest -> t ∈ turns)
    (hdone : forall t, t ∈ done -> t ∈ turns) {c : Catalog} (hinv : inv c)
    (hfits : PassFits parse c rest) (hsettled : forall t, t ∈ done -> settled c t) :
    inv (scanTurns parse rest c).catalog ∧
      forall t, t ∈ done ++ rest -> settled (scanTurns parse rest c).catalog t := by
  induction rest generalizing done c with
  | nil =>
      rw [List.append_nil]
      exact ⟨hinv, hsettled⟩
  | cons s rest ih =>
      have hs := hrest s List.mem_cons_self
      obtain ⟨hnext, hself, hothers⟩ := hstep c s hs hinv hfits.1
      rw [scanTurns_cons, List.append_cons]
      apply ih (done ++ [s]) (fun t ht => hrest t (List.mem_cons_of_mem s ht)) _ hnext hfits.2
      · intro t ht
        rcases List.mem_append.mp ht with hold | hlast
        · exact hothers t (hdone t hold) (hsettled t hold)
        · rw [List.mem_singleton.mp hlast]
          exact hself
      · intro t ht
        rcases List.mem_append.mp ht with hold | hlast
        · exact hdone t hold
        · rw [List.mem_singleton.mp hlast]
          exact hs

theorem scanTurns_settles (hist : History parse seen) {turns : List Turn}
    (hapart : Apart parse seen turns) {c : Catalog} (hc : FromSeen parse seen c)
    (hfits : PassFits parse c turns) :
    FromSeen parse seen (scanTurns parse turns c).catalog ∧
      forall t, t ∈ turns -> SettledTurn parse (scanTurns parse turns c).catalog t := by
  apply scanTurns_rule (FromSeen parse seen) (SettledTurn parse) _ turns [] (fun _ ht => ht)
    (fun _ ht => absurd ht List.not_mem_nil) hc hfits (fun _ ht => absurd ht List.not_mem_nil)
  intro c s hs hc hfits
  have hstep := scanQuickSingleSource_replaces hist (hapart.listed s hs) (hapart.orderly s hs)
    hc hfits
  exact ⟨hstep.fromSeen (hapart.orderly s hs) hc, hstep.settles hist (hapart.orderly s hs),
    fun t ht hsettled => hstep.keeps hist hapart hs ht hsettled⟩

end

end Scanner
end PkgManager
