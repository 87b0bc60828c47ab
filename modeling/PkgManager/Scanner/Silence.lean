import PkgManager.Scanner.Passes

/-!
# A pass that finds nothing new

A source with files is recognised by its packages and records.  A source without
files is recognised by its entry in the list of drives.
-/

namespace PkgManager
namespace Scanner

open CString
open PkgManager.Parser

def mountedIn (drive : DriveName) (drives : List PkgDrive) : Bool :=
  (drives.find? (isDrive drive)).any PkgDrive.mounted

/-- The names in the entry that a drive gets. -/
def entryOf (drive : DriveName) : PkgDrive where
  id := copied 32 drive.id
  label := copied 64 drive.label
  path := copied 256 drive.path
  type := copied 16 drive.type
  mounted := true
  pkgCount := 0
  clickable := false

/-- The entry of a source does not contradict what was found. -/
structure DriveReady (t : Turn) (drives : List PkgDrive) : Prop where
  empty : t.listing = .listed [] -> mountedIn t.name drives = true
  unmounted : t.listing = .unmounted -> mountedIn t.name drives = false

/-- No entry goes by the name of a source that is mounted and of one that is not. -/
structure NamesApart (turns : List Turn) (drives : List PkgDrive) : Prop where
  fits : forall t, t ∈ turns -> copied 32 t.name.id = t.name.id
  old : forall s, s ∈ turns -> s.listing ≠ .unmounted -> forall u, u ∈ turns ->
    u.listing = .unmounted -> forall d, d ∈ drives ->
      ¬ (isDrive s.name d = true ∧ isDrive u.name d = true)
  new : forall s, s ∈ turns -> s.listing ≠ .unmounted -> forall u, u ∈ turns ->
    u.listing = .unmounted -> forall k, k ∈ turns -> k.listing ≠ .unmounted ->
      ¬ (isDrive s.name (entryOf k.name) = true ∧ isDrive u.name (entryOf k.name) = true)

/-!
# The list of drives after a scan
-/

theorem isDrive_congr {drive : DriveName} {d e : PkgDrive} (hid : d.id = e.id)
    (hpath : d.path = e.path) : isDrive drive d = isDrive drive e := by
  unfold isDrive
  rw [hid, hpath]

theorem isDrive_setMounted (drive : DriveName) (found : Nat) (d : PkgDrive) :
    isDrive drive (setMounted found d) = isDrive drive d :=
  isDrive_congr rfl rfl

theorem isDrive_setUnmounted (drive : DriveName) (d : PkgDrive) :
    isDrive drive (setUnmounted d) = isDrive drive d :=
  isDrive_congr rfl rfl

theorem isDrive_entryOf {drive : DriveName} (h : copied 32 drive.id = drive.id) :
    isDrive drive (entryOf drive) = true := by
  unfold isDrive entryOf
  rw [h, beq_self_eq_true, Bool.or_true]

theorem addDriveEntry_room {id label path type : Text} {mounted : Bool} {count : Nat}
    {drives : List PkgDrive} (h : drives.length < maxDrives) :
    addDriveEntry id label path type mounted count drives =
      drives ++
        [{ id := copied 32 id
           label := copied 64 label
           path := copied 256 path
           type := copied 16 type
           mounted := mounted
           pkgCount := count
           clickable := decide (0 < count) || type == ascii "smb" }] :=
  if_neg (Nat.not_le_of_lt h)

theorem addDriveEntry_full {id label path type : Text} {mounted : Bool} {count : Nat}
    {drives : List PkgDrive} (h : ¬ drives.length < maxDrives) :
    addDriveEntry id label path type mounted count drives = drives :=
  if_pos (Nat.le_of_not_lt h)

theorem mountedIn_append {drive : DriveName} {drives : List PkgDrive} (d : PkgDrive)
    (h : mountedIn drive drives = true) : mountedIn drive (drives ++ [d]) = true := by
  unfold mountedIn at h ⊢
  rw [List.find?_append]
  cases hfind : drives.find? (isDrive drive) with
  | none =>
      rw [hfind] at h
      cases h
  | some e =>
      rw [hfind] at h
      exact h

section

variable {drive other : DriveName} {drives : List PkgDrive} {found new : Nat}

theorem mountedIn_mountDrive_self (hid : copied 32 drive.id = drive.id)
    (hroom : drives.any (isDrive drive) = true ∨ drives.length < maxDrives) :
    mountedIn drive (mountDrive drive found new drives) = true := by
  unfold mountDrive
  split
  · rename_i hany
    unfold mountedIn
    rw [Table.find?_replaceFirst_self (isDrive_setMounted drive found)]
    obtain ⟨d, hd, hhit⟩ := List.any_eq_true.mp hany
    cases hfind : drives.find? (isDrive drive) with
    | none => exact absurd hhit (List.find?_eq_none.mp hfind d hd)
    | some e => rfl
  · rename_i hnone
    have hlength : drives.length < maxDrives := hroom.resolve_left hnone
    rw [addDriveEntry_room hlength]
    unfold mountedIn
    have hmiss : drives.find? (isDrive drive) = none := by
      apply List.find?_eq_none.mpr
      intro d hd hhit
      exact hnone (List.any_eq_true.mpr ⟨d, hd, hhit⟩)
    rw [List.find?_append, hmiss, Option.none_or, List.find?_cons_of_pos]
    · rfl
    · exact (isDrive_congr rfl rfl).trans (isDrive_entryOf hid)

theorem mountedIn_mountDrive (h : mountedIn other drives = true) :
    mountedIn other (mountDrive drive found new drives) = true := by
  unfold mountDrive
  split
  · unfold mountedIn at h ⊢
    rcases Table.find?_replaceFirst_cases (p := isDrive drive) (isDrive_setMounted other found)
      drives with hsame | hchanged
    · rw [hsame]
      exact h
    · rw [hchanged]
      cases hfind : drives.find? (isDrive other) with
      | none =>
          rw [hfind] at h
          cases h
      | some e => rfl
  · by_cases hlength : drives.length < maxDrives
    · rw [addDriveEntry_room hlength]
      exact mountedIn_append _ h
    · rw [addDriveEntry_full hlength]
      exact h

theorem mountedIn_mountDrive_apart (h : mountedIn other drives = false)
    (hold : forall d, d ∈ drives -> ¬ (isDrive drive d = true ∧ isDrive other d = true))
    (hnew : isDrive other (entryOf drive) = false) :
    mountedIn other (mountDrive drive found new drives) = false := by
  unfold mountDrive
  split
  · unfold mountedIn at h ⊢
    rw [Table.find?_replaceFirst_apart (isDrive_setMounted other found) hold]
    exact h
  · by_cases hlength : drives.length < maxDrives
    · rw [addDriveEntry_room hlength]
      unfold mountedIn at h ⊢
      rw [List.find?_append]
      cases hfind : drives.find? (isDrive other) with
      | none =>
          rw [Option.none_or, List.find?_cons_of_neg]
          · rfl
          · change ¬ isDrive other (entryOf drive) = true
            rw [hnew]
            exact Bool.false_ne_true
      | some e =>
          rw [hfind] at h
          exact h
    · rw [addDriveEntry_full hlength]
      exact h

def unmountDrive (drive : DriveName) (drives : List PkgDrive) : List PkgDrive :=
  Table.replaceFirst (isDrive drive) setUnmounted drives

theorem mountedIn_unmountDrive_self : mountedIn drive (unmountDrive drive drives) = false := by
  unfold mountedIn unmountDrive
  rw [Table.find?_replaceFirst_self (isDrive_setUnmounted drive)]
  cases drives.find? (isDrive drive) with
  | none => rfl
  | some e => rfl

theorem mountedIn_unmountDrive (h : mountedIn other drives = false) :
    mountedIn other (unmountDrive drive drives) = false := by
  unfold mountedIn unmountDrive at *
  rcases Table.find?_replaceFirst_cases (p := isDrive drive) (isDrive_setUnmounted other)
    drives with hsame | hchanged
  · rw [hsame]
    exact h
  · rw [hchanged]
    cases drives.find? (isDrive other) with
    | none => rfl
    | some e => rfl

theorem mountedIn_unmountDrive_apart (h : mountedIn other drives = true)
    (hold : forall d, d ∈ drives -> ¬ (isDrive drive d = true ∧ isDrive other d = true)) :
    mountedIn other (unmountDrive drive drives) = true := by
  unfold mountedIn unmountDrive at *
  rw [Table.find?_replaceFirst_apart (isDrive_setUnmounted other) hold]
  exact h

/-- Every entry afterwards has the names of an old one or of the drive. -/
theorem mountDrive_names {d : PkgDrive} (h : d ∈ mountDrive drive found new drives) :
    (exists e, e ∈ drives ∧ d.id = e.id ∧ d.path = e.path) ∨
      (d.id = (entryOf drive).id ∧ d.path = (entryOf drive).path) := by
  unfold mountDrive at h
  split at h
  · rcases Table.mem_replaceFirst h with hold | ⟨r, hr, _, hchanged⟩
    · exact Or.inl ⟨d, hold, rfl, rfl⟩
    · rw [hchanged]
      exact Or.inl ⟨r, hr, rfl, rfl⟩
  · by_cases hlength : drives.length < maxDrives
    · rw [addDriveEntry_room hlength] at h
      rcases List.mem_append.mp h with hold | hlast
      · exact Or.inl ⟨d, hold, rfl, rfl⟩
      · rw [List.mem_singleton.mp hlast]
        exact Or.inr ⟨rfl, rfl⟩
    · rw [addDriveEntry_full hlength] at h
      exact Or.inl ⟨d, h, rfl, rfl⟩

theorem unmountDrive_names {d : PkgDrive} (h : d ∈ unmountDrive drive drives) :
    exists e, e ∈ drives ∧ d.id = e.id ∧ d.path = e.path := by
  rcases Table.mem_replaceFirst h with hold | ⟨r, hr, _, hchanged⟩
  · exact ⟨d, hold, rfl, rfl⟩
  · rw [hchanged]
    exact ⟨r, hr, rfl, rfl⟩

end

/-!
# The drives after a pass
-/

section

variable {parse : ParseEntry} {seen : QuickFile -> Prop} {turns : List Turn}

theorem scanListed_drives (parse : ParseEntry) (drive : DriveName) (files : List QuickFile)
    (c : Catalog) : exists found new,
      (scanListed parse drive files c).catalog.drives = mountDrive drive found new c.drives := by
  unfold scanListed
  split
  · exact ⟨_, _, rfl⟩
  · exact ⟨_, _, rfl⟩

/-- The drives after the turn of a source that was not skipped. -/
theorem turn_drives (parse : ParseEntry) {t : Turn} (h : t.listing ≠ .skipped) (c : Catalog) :
    (t.listing ≠ .unmounted ∧ exists found new,
      (scanQuickSingleSource parse t.name t.listing c).catalog.drives =
        mountDrive t.name found new c.drives) ∨
    (t.listing = .unmounted ∧
      (scanQuickSingleSource parse t.name t.listing c).catalog.drives =
        unmountDrive t.name c.drives) := by
  cases hlisting : t.listing with
  | skipped => exact absurd hlisting h
  | unmounted => exact Or.inr ⟨rfl, rfl⟩
  | listed files =>
      left
      constructor
      · intro hno
        cases hno
      · exact scanListed_drives parse t.name files c

theorem NamesApart.turn {drives : List PkgDrive} (h : NamesApart turns drives) {t : Turn}
    (ht : t ∈ turns) (hlisted : t.listing ≠ .skipped) {c : Catalog} (hc : c.drives = drives) :
    NamesApart turns (scanQuickSingleSource parse t.name t.listing c).catalog.drives where
  fits := h.fits
  new := h.new
  old := by
    intro s hs hmounted u hu hunmounted d hd
    rcases turn_drives parse hlisted c with ⟨hthis, found, new, hdrives⟩ | ⟨_, hdrives⟩
    · rw [hdrives, hc] at hd
      rcases mountDrive_names hd with ⟨e, he, hid, hpath⟩ | ⟨hid, hpath⟩
      · rw [isDrive_congr hid hpath, isDrive_congr hid hpath]
        exact h.old s hs hmounted u hu hunmounted e he
      · rw [isDrive_congr hid hpath, isDrive_congr hid hpath]
        exact h.new s hs hmounted u hu hunmounted t ht hthis
    · rw [hdrives, hc] at hd
      obtain ⟨e, he, hid, hpath⟩ := unmountDrive_names hd
      rw [isDrive_congr hid hpath, isDrive_congr hid hpath]
      exact h.old s hs hmounted u hu hunmounted e he

theorem DriveReady.self {t : Turn} (hlisted : t.listing ≠ .skipped)
    (hid : copied 32 t.name.id = t.name.id) {c : Catalog} (hfits : StepFits t c) :
    DriveReady t (scanQuickSingleSource parse t.name t.listing c).catalog.drives := by
  rcases turn_drives parse hlisted c with ⟨hmounted, found, new, hdrives⟩ | ⟨hunmounted, hdrives⟩
  · rw [hdrives]
    exact ⟨fun hempty => mountedIn_mountDrive_self hid (hfits.drives hempty),
      fun hno => absurd hno hmounted⟩
  · rw [hdrives]
    constructor
    · intro hempty
      rw [hunmounted] at hempty
      cases hempty
    · intro _
      exact mountedIn_unmountDrive_self

theorem DriveReady.other {s t : Turn} (hs : s ∈ turns) (ht : t ∈ turns)
    (hlisted : s.listing ≠ .skipped) {c : Catalog} (hnames : NamesApart turns c.drives)
    (h : DriveReady t c.drives) :
    DriveReady t (scanQuickSingleSource parse s.name s.listing c).catalog.drives := by
  rcases turn_drives parse hlisted c with ⟨hmounted, found, new, hdrives⟩ | ⟨hunmounted, hdrives⟩
  · rw [hdrives]
    constructor
    · intro hempty
      exact mountedIn_mountDrive (h.empty hempty)
    · intro hgone
      apply mountedIn_mountDrive_apart (h.unmounted hgone)
        (hnames.old s hs hmounted t ht hgone)
      have hnew := hnames.new s hs hmounted t ht hgone s hs hmounted
      rw [isDrive_entryOf (hnames.fits s hs)] at hnew
      exact Bool.eq_false_iff.mpr (fun hhit => hnew ⟨rfl, hhit⟩)
  · rw [hdrives]
    constructor
    · intro hempty
      have hmounted : t.listing ≠ .unmounted := by
        rw [hempty]
        exact fun hno => by cases hno
      apply mountedIn_unmountDrive_apart (h.empty hempty)
      intro d hd hboth
      exact hnames.old t ht hmounted s hs hunmounted d hd hboth.symm
    · intro hgone
      exact mountedIn_unmountDrive (h.unmounted hgone)

theorem scanTurns_ready (hlisted : forall t, t ∈ turns -> t.listing ≠ .skipped) {c : Catalog}
    (hnames : NamesApart turns c.drives) (hfits : PassFits parse c turns) :
    NamesApart turns (scanTurns parse turns c).catalog.drives ∧
      forall t, t ∈ turns -> DriveReady t (scanTurns parse turns c).catalog.drives := by
  apply scanTurns_rule (fun c => NamesApart turns c.drives)
    (fun c t => DriveReady t c.drives) _ turns [] (fun _ ht => ht)
    (fun _ ht => absurd ht List.not_mem_nil) hnames hfits
    (fun _ ht => absurd ht List.not_mem_nil)
  intro c s hs hnames hfits
  exact ⟨hnames.turn hs (hlisted s hs) rfl,
    DriveReady.self (hlisted s hs) (hnames.fits s hs) hfits,
    fun t ht hready => DriveReady.other hs ht (hlisted s hs) hnames hready⟩

/-!
# The second pass
-/

theorem settled_identical (hist : History parse seen) {drive : DriveName}
    {files : List QuickFile} (hfiles : Orderly parse seen drive.path files) {c : Catalog}
    (hsettled : Settled parse drive.path files c)
    (hready : files = [] -> mountedIn drive c.drives = true) :
    identical drive c files = true := by
  have hpackages : (ownPackages drive.path c).Perm (files.filterMap parse) := hsettled.packages
  have hrecords : (ownScannedFiles drive.path c).Perm (files.map recordOf) :=
    hsettled.scannedFiles
  have hcount : (ownPackages drive.path c).length = files.length :=
    hpackages.length_eq.trans (parsed_length hist hfiles)
  have hscanned : (ownScannedFiles drive.path c).length = files.length := by
    rw [hrecords.length_eq, List.length_map]
  unfold identical
  dsimp only
  rw [if_neg (not_not.mpr hscanned.symm)]
  split
  · rename_i hempty
    rw [hempty] at hcount
    rw [Bool.and_eq_true, List.isEmpty_iff]
    exact ⟨hready hempty, List.eq_nil_of_length_eq_zero hcount⟩
  · rename_i hsome
    rw [Bool.and_eq_true, Bool.and_eq_true, decide_eq_true_eq, List.all_eq_true,
      List.all_eq_true, hcount]
    refine ⟨⟨⟨List.length_pos_iff.mpr hsome, Nat.le_refl _⟩, ?_⟩, ?_⟩
    · intro p hp
      obtain ⟨f, hf, hparse⟩ := mem_parsed.mp (hpackages.mem_iff.mp hp)
      obtain ⟨hpath, hsize, hmtime⟩ := hist.honest f p (hfiles.seen f hf) hparse
      unfold packageListed
      rw [Bool.and_eq_true, bne_iff_ne, hmtime]
      refine ⟨hfiles.dated f hf, List.any_eq_true.mpr ⟨f, hf, ?_⟩⟩
      rw [hpath, hsize, timeGap_self]
      simp
    · intro f hf
      obtain ⟨p, hparse, _⟩ := hfiles.package f hf
      have hpath := (hist.honest f p (hfiles.seen f hf) hparse).1
      unfold fileKnown
      rw [Bool.and_eq_true]
      constructor
      · apply List.any_eq_true.mpr
        refine ⟨recordOf f, hrecords.mem_iff.mpr (List.mem_map_of_mem hf), ?_⟩
        unfold recordOf
        dsimp only
        rw [timeGap_self]
        simp
      · rw [Bool.or_eq_true]
        left
        apply List.any_eq_true.mpr
        exact ⟨p, hpackages.mem_iff.mpr (mem_parsed.mpr ⟨f, hf, hparse⟩), by rw [hpath, beq_self_eq_true]⟩

/-- A scan of a settled source reports nothing and leaves packages and records. -/
theorem settled_silent (hist : History parse seen) {t : Turn} (hlisted : t.listing ≠ .skipped)
    (hfiles : Orderly parse seen t.name.path t.files) {c : Catalog}
    (hsettled : SettledTurn parse c t) (hready : DriveReady t c.drives) :
    (scanQuickSingleSource parse t.name t.listing c).changed = 0 ∧
      (scanQuickSingleSource parse t.name t.listing c).catalog.packages.Perm c.packages ∧
      (scanQuickSingleSource parse t.name t.listing c).catalog.scannedFiles.Perm
        c.scannedFiles := by
  obtain ⟨name, listing⟩ := t
  cases listing with
  | skipped => exact absurd rfl hlisted
  | unmounted =>
      have hnone : (ownPackages name.path c).isEmpty = true := by
        rw [List.isEmpty_iff]
        exact List.perm_nil.mp hsettled.packages
      have hgone : driveWasMounted name c = false := hready.unmounted rfl
      refine ⟨?_, ?_, ?_⟩
      · show (if (ownPackages name.path c).isEmpty && !driveWasMounted name c then 0 else 1) = 0
        rw [hnone, hgone]
        rfl
      · have hkeep := Regions.replaceOwn_settled hsettled.packages
        exact (hkeep.trans (List.Perm.of_eq (List.append_nil _))).symm
      · have hkeep := Regions.replaceOwn_settled hsettled.scannedFiles
        exact (hkeep.trans (List.Perm.of_eq (List.append_nil _))).symm
  | listed files =>
      have hsame : identical name c files = true := by
        apply settled_identical hist hfiles hsettled
        intro hempty
        exact hready.empty (congrArg Listing.listed hempty)
      unfold scanQuickSingleSource
      dsimp only
      unfold scanListed
      rw [if_pos hsame]
      exact ⟨rfl, List.Perm.refl _, List.Perm.refl _⟩

theorem SettledTurn.perm {t : Turn} {c after : Catalog} (h : SettledTurn parse c t)
    (hpackages : after.packages.Perm c.packages)
    (hrecords : after.scannedFiles.Perm c.scannedFiles) : SettledTurn parse after t where
  packages := (hpackages.filter _).trans h.packages
  scannedFiles := (hrecords.filter _).trans h.scannedFiles

/-- Sources that are skipped are silent as well. -/
theorem foldl_scanTurn_silent (hist : History parse seen) (hapart : Apart parse seen turns)
    (rest : List Turn) (hrest : forall t, t ∈ rest -> t.listing = .skipped ∨ t ∈ turns)
    (scan : Scan) (hnames : NamesApart turns scan.catalog.drives)
    (hsettled : forall t, t ∈ turns -> SettledTurn parse scan.catalog t)
    (hready : forall t, t ∈ turns -> DriveReady t scan.catalog.drives) :
    (rest.foldl (scanTurn parse) scan).changed = scan.changed := by
  induction rest generalizing scan with
  | nil => rfl
  | cons s rest ih =>
      have hnext : forall t, t ∈ rest -> t.listing = .skipped ∨ t ∈ turns :=
        fun t ht => hrest t (List.mem_cons_of_mem s ht)
      rw [List.foldl_cons]
      rcases hrest s List.mem_cons_self with hskipped | hs
      · have hsame : scanTurn parse scan s = scan := by
          unfold scanTurn
          rw [hskipped]
          rfl
        rw [hsame]
        exact ih hnext scan hnames hsettled hready
      · have hlisted := hapart.listed s hs
        obtain ⟨hzero, hpackages, hrecords⟩ := settled_silent hist hlisted (hapart.orderly s hs)
          (hsettled s hs) (hready s hs)
        rw [ih hnext (scanTurn parse scan s) (hnames.turn hs hlisted rfl)
          (fun t ht => (hsettled t ht).perm hpackages hrecords)
          (fun t ht => DriveReady.other hs ht hlisted hnames (hready t ht))]
        show scan.changed + (scanQuickSingleSource parse s.name s.listing scan.catalog).changed = _
        rw [hzero, Nat.add_zero]

end

end Scanner
end PkgManager
