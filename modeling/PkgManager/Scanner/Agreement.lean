import PkgManager.Scanner.Folders
import PkgManager.Scanner.Neighbours

/-!
# Quick scans and full scans agree

A pass of quick scans over all sources leaves the packages that a full scan would
find, and a second pass finds nothing new.
-/

namespace PkgManager
namespace Scanner

open CString
open PkgManager.Parser

/-- A quick scan of every source whose files are scanned. -/
def quickPass (parse : ParseEntry) (config : Config) (contents : Contents) (c : Catalog) : Scan :=
  scanTurns parse (turnsOf config contents) c

/-- Without shares that are only browsed, a request for all sources is such a pass. -/
theorem scanSelected_all {parse : ParseEntry} {config : Config} {contents : Contents}
    (h : forall s, s ∈ sources config -> browsedShare s = none) (c : Catalog) :
    scanSelected parse config (contents.world config) [] c = quickPass parse config contents c := by
  have hall : forall s, s ∈ (sources config).zipIdx -> browsedShare s.1 = none :=
    fun s hs => h s.1 (List.fst_mem_of_mem_zipIdx hs)
  unfold scanSelected quickPass scanTurns turnsOf
  have hselected : (sources config).zipIdx.filter (fun s => selects [] s.1) =
      (sources config).zipIdx.filter (fun s => (browsedShare s.1).isNone) := by
    apply List.filter_congr
    intro s hs
    rw [hall s hs]
    rfl
  rw [hselected, List.foldl_map]
  have hstep : forall (rest : List (Source × Nat)) (scan : Scan),
      (forall s, s ∈ rest -> browsedShare s.1 = none) ->
      rest.foldl (scanNext parse (contents.world config)) scan =
        rest.foldl (fun scan s => scanTurn parse scan
          { name := s.1.name, listing := look (contents.world config) s.2 s.1 }) scan := by
    intro rest
    induction rest with
    | nil =>
        intro scan _
        rfl
    | cons s rest ih =>
        intro scan hrest
        have hone : scanNext parse (contents.world config) scan s = scanTurn parse scan
            { name := s.1.name, listing := look (contents.world config) s.2 s.1 } := by
          unfold scanNext scanTurn scanSource
          rw [hrest s List.mem_cons_self]
        rw [List.foldl_cons, List.foldl_cons, hone]
        exact ih _ (fun x hx => hrest x (List.mem_cons_of_mem s hx))
  exact hstep _ _ (fun s hs => hall s (List.mem_filter.mp hs).1)

/-!
# Catalogs of earlier scans
-/

/-- The catalogs that scans of any configurations and any contents lead to, when they
have met no other files than these. -/
inductive Produced (parse : ParseEntry) (seen : QuickFile -> Prop) : Catalog -> Prop where
  | start : Produced parse seen emptyCatalog
  | full (config : Config) (contents : Contents)
      (hseen : forall f, f ∈ allFullFiles config contents -> seen f) :
      Produced parse seen (scanFullOwned parse config contents)
  | quick (world : World) (i : Nat) (s : Source) (c : Catalog) (hc : Produced parse seen c)
      (hseen : forall f, f ∈ (look world i s).files -> seen f) :
      Produced parse seen (scanSource parse world i s c).catalog
  | sorted (c : Catalog) (hc : Produced parse seen c) : Produced parse seen (sortCatalog c)

section

variable {parse : ParseEntry} {seen : QuickFile -> Prop}

theorem addScannedFile_seen (hist : History parse seen) {f : QuickFile} (hf : seen f)
    {files : List ScannedFile}
    (h : forall e, e ∈ files -> exists g, seen g ∧ e = recordOf g) (e : ScannedFile)
    (he : e ∈ addScannedFile f.path f.fileSize f.mtime files) :
    exists g, seen g ∧ e = recordOf g := by
  unfold addScannedFile at he
  split at he
  · exact h e he
  · rcases Table.mem_upsert he with hold | ⟨r, _, hpath, hchanged⟩ | hnew
    · exact h e hold
    · refine ⟨f, hf, ?_⟩
      rw [hchanged, beq_iff_eq.mp hpath]
      rfl
    · refine ⟨f, hf, ?_⟩
      rw [hnew, hist.short f hf]
      rfl

theorem recordFiles_seen (hist : History parse seen) {files : List QuickFile}
    (hfiles : forall f, f ∈ files -> seen f) (rows : List ScannedFile)
    (h : forall e, e ∈ rows -> exists g, seen g ∧ e = recordOf g) (e : ScannedFile)
    (he : e ∈ recordFiles files rows) : exists g, seen g ∧ e = recordOf g := by
  induction files generalizing rows with
  | nil => exact h e he
  | cons f rest ih =>
      exact ih (fun g hg => hfiles g (List.mem_cons_of_mem f hg)) _
        (addScannedFile_seen hist (hfiles f List.mem_cons_self) h) he

theorem processPkgFile_fromSeen (hist : History parse seen) {f : QuickFile} (hf : seen f)
    {c : Catalog} (hc : FromSeen parse seen c) : FromSeen parse seen (processPkgFile parse c f) where
  packages := by
    intro p hp
    unfold processPkgFile at hp
    dsimp only at hp
    split at hp
    · exact hc.packages p hp
    · rcases List.mem_append.mp hp with hold | hnew
      · exact hc.packages p hold
      · exact ⟨f, hf, Option.mem_toList.mp hnew⟩
  scannedFiles := addScannedFile_seen hist hf hc.scannedFiles

theorem foldl_processPkgFile_fromSeen (hist : History parse seen) {files : List QuickFile}
    (hfiles : forall f, f ∈ files -> seen f) (c : Catalog) (hc : FromSeen parse seen c) :
    FromSeen parse seen (files.foldl (processPkgFile parse) c) := by
  induction files generalizing c with
  | nil => exact hc
  | cons f rest ih =>
      exact ih (fun g hg => hfiles g (List.mem_cons_of_mem f hg)) _
        (processPkgFile_fromSeen hist (hfiles f List.mem_cons_self) hc)

theorem FromSeen.sorted {c : Catalog} (hc : FromSeen parse seen c) :
    FromSeen parse seen (sortCatalog c) where
  packages := fun p hp => hc.packages p (mem_sortPackages.mp hp)
  scannedFiles := hc.scannedFiles

theorem scanFullOwned_fromSeen (hist : History parse seen) {config : Config}
    {contents : Contents} (hseen : forall f, f ∈ allFullFiles config contents -> seen f) :
    FromSeen parse seen (scanFullOwned parse config contents) := by
  apply FromSeen.sorted
  have hrun : forall (rest : List (Source × Nat)) (c : Catalog),
      (forall f, f ∈ rest.flatMap (fun s => fullFiles config contents s.2 s.1) -> seen f) ->
      FromSeen parse seen c ->
      FromSeen parse seen (rest.foldl (fullSource parse config contents) c) := by
    intro rest
    induction rest with
    | nil =>
        intro c _ hc
        exact hc
    | cons s rest ih =>
        intro c hfiles hc
        rw [List.flatMap_cons] at hfiles
        have hone := foldl_processPkgFile_fromSeen hist
          (fun f hf => hfiles f (List.mem_append_left _ hf)) c hc
        exact ih _ (fun f hf => hfiles f (List.mem_append_right _ hf))
          ⟨hone.packages, hone.scannedFiles⟩
  exact hrun _ _ hseen ⟨fun _ hp => absurd hp List.not_mem_nil,
    fun _ he => absurd he List.not_mem_nil⟩

theorem commitFiles_fromSeen (hist : History parse seen) {drive : DriveName}
    {files : List QuickFile} (hfiles : forall f, f ∈ files -> seen f) {c : Catalog}
    (hc : FromSeen parse seen c) : FromSeen parse seen (commitFiles parse drive files c) where
  packages := by
    have hmatched := matchFiles_matched drive.path hist hc.packages hfiles
    intro p hp
    rcases List.mem_append.mp hp with hkept | hnew
    · have hold := (List.mem_filter.mp hkept).1
      rw [hmatched.packages] at hold
      exact hc.packages p hold
    · obtain ⟨f, hf, hparse⟩ := mem_parsed.mp (hmatched.found.mem_iff.mp (List.mem_of_mem_take hnew))
      exact ⟨f, hfiles f hf, hparse⟩
  scannedFiles := by
    apply recordFiles_seen hist hfiles
    split
    · exact hc.scannedFiles
    · intro e he
      exact hc.scannedFiles e (List.mem_filter.mp he).1

theorem scanSource_fromSeen (hist : History parse seen) {world : World} {i : Nat} {s : Source}
    {c : Catalog} (hseen : forall f, f ∈ (look world i s).files -> seen f)
    (hc : FromSeen parse seen c) : FromSeen parse seen (scanSource parse world i s c).catalog := by
  unfold scanSource
  cases browsedShare s with
  | some config =>
      exact ⟨fun p hp => hc.packages p (List.mem_filter.mp hp).1,
        fun e he => hc.scannedFiles e (List.mem_filter.mp he).1⟩
  | none =>
      cases hlook : look world i s with
      | skipped => exact hc
      | unmounted =>
          exact ⟨fun p hp => hc.packages p (List.mem_filter.mp hp).1,
            fun e he => hc.scannedFiles e (List.mem_filter.mp he).1⟩
      | listed files =>
          rw [hlook] at hseen
          unfold scanQuickSingleSource scanListed
          dsimp only
          split
          · exact ⟨hc.packages, hc.scannedFiles⟩
          · exact commitFiles_fromSeen hist hseen hc

theorem Produced.fromSeen (hist : History parse seen) {c : Catalog}
    (hc : Produced parse seen c) : FromSeen parse seen c := by
  induction hc with
  | start =>
      exact ⟨fun _ hp => absurd hp List.not_mem_nil, fun _ he => absurd he List.not_mem_nil⟩
  | full config contents hseen => exact scanFullOwned_fromSeen hist hseen
  | quick world i s c _ hseen ih => exact scanSource_fromSeen hist hseen ih
  | sorted c _ ih => exact ih.sorted

end

/-!
# Agreement
-/

/-- The packages below the path of every source are those of a full scan, and another
pass over the same files reports no change. -/
structure Agrees (parse : ParseEntry) (config : Config) (contents : Contents) (c : Catalog) :
    Prop where
  packages : forall t, t ∈ turnsOf config contents -> forall p,
    ownsPackage t.name.path p = true ->
      (p ∈ (quickPass parse config contents c).catalog.packages ↔
        p ∈ (scanFullOwned parse config contents).packages)
  silent : forall lately, (quickPass parse config { contents with scannedLately := lately }
    (quickPass parse config contents c).catalog).changed = 0

/-- The sources of a pass over a catalog. -/
structure Regular (parse : ParseEntry) (seen : QuickFile -> Prop) (config : Config)
    (contents : Contents) (c : Catalog) : Prop where
  apart : Apart parse seen (turnsOf config contents)
  names : NamesApart (turnsOf config contents) c.drives
  fits : PassFits parse c (turnsOf config contents)
  room : (allFullFiles config contents).length ≤ maxPackages
  alike : forall f, f ∈ allFullFiles config contents ↔
    exists t, t ∈ turnsOf config contents ∧ f ∈ t.files

theorem turnsOf_lately {config : Config} {contents : Contents} {lately : Nat -> Bool} {t : Turn}
    (hnow : forall t, t ∈ turnsOf config contents -> t.listing ≠ .skipped)
    (h : t ∈ turnsOf config { contents with scannedLately := lately }) :
    t.listing = .skipped ∨ t ∈ turnsOf config contents := by
  obtain ⟨s, hs, hturn⟩ := List.mem_map.mp h
  have hold : ({ name := s.1.name, listing := look (contents.world config) s.2 s.1 } : Turn) ∈
      turnsOf config contents := List.mem_map.mpr ⟨s, hs, rfl⟩
  have hlisted := hnow _ hold
  rw [← hturn]
  unfold look Contents.world at hold hlisted ⊢
  dsimp only at hold hlisted ⊢
  cases hkind : s.1.kind with
  | drive onlyMounted =>
      right
      rw [hkind] at hold
      exact hold
  | share share =>
      rw [hkind] at hold hlisted
      dsimp only at hold hlisted ⊢
      split
      · right
        split at hold
        · exact hold
        · rename_i hno
          exact absurd (if_neg hno) hlisted
      · left
        rfl
  | web web =>
      rw [hkind] at hold hlisted
      dsimp only at hold hlisted ⊢
      split
      · right
        split at hold
        · exact hold
        · rename_i hno
          exact absurd (if_neg hno) hlisted
      · left
        rfl

/-- For every catalog of earlier scans, when every changed file has another size or
another time. -/
theorem quick_agrees_with_full {parse : ParseEntry} {seen : QuickFile -> Prop} {config : Config}
    {contents : Contents} {c : Catalog} (hist : History parse seen)
    (hc : Produced parse seen c) (h : Regular parse seen config contents c) :
    Agrees parse config contents c := by
  obtain ⟨hseen, hsettled⟩ := scanTurns_settles hist h.apart (hc.fromSeen hist) h.fits
  obtain ⟨hnames, hready⟩ := scanTurns_ready h.apart.listed h.names h.fits
  constructor
  · intro t ht p hown
    rw [mem_scanFullOwned h.room]
    have hsettledHere := (hsettled t ht).packages
    constructor
    · intro hp
      have hparsed := hsettledHere.mem_iff.mp (List.mem_filter.mpr ⟨hp, hown⟩)
      obtain ⟨f, hf, hparse⟩ := mem_parsed.mp hparsed
      exact ⟨f, (h.alike f).mpr ⟨t, ht, hf⟩, hparse⟩
    · rintro ⟨f, hf, hparse⟩
      obtain ⟨s, hs, hfs⟩ := (h.alike f).mp hf
      have hpath := (hist.honest f p ((h.apart.orderly s hs).seen f hfs) hparse).1
      unfold ownsPackage at hown
      rw [hpath] at hown
      have hft := h.apart.below t ht s hs f hfs hown
      have hparsed := hsettledHere.mem_iff.mpr (mem_parsed.mpr ⟨f, hft, hparse⟩)
      exact (List.mem_filter.mp hparsed).1
  · intro lately
    exact foldl_scanTurn_silent hist h.apart _ (fun t ht => turnsOf_lately h.apart.listed ht)
      { catalog := (quickPass parse config contents c).catalog, changed := 0 } hnames hsettled hready

/-!
# Sources that both scans list alike

The files of drives and shares are the same for both scans.  A web source may report
names that only a full scan takes for packages.
-/

section

variable {config : Config} {contents : Contents} {i : Nat} {name : DriveName}

theorem world_files (contents : Contents) {s : Source} (hs : (sources config)[i]? = some s) :
    (contents.world config).files i = quickFiles config contents i s := by
  show ((sources config)[i]?.map (quickFiles config contents i)).getD [] = _
  rw [hs]
  rfl

theorem listed_drive {onlyMounted : Bool}
    (hs : (sources config)[i]? = some ⟨name, .drive onlyMounted⟩) (hpath : name.path ≠ [])
    (hdrive : config.scanDir = [] ∨ config.scanDir = name.path)
    (hgone : contents.mounted name.path = false -> contents.entries name.path = [])
    (hshort : forall f, f ∈ fullFiles config contents i ⟨name, .drive onlyMounted⟩ ->
      copied 512 f.path = f.path) :
    (look (contents.world config) i ⟨name, .drive onlyMounted⟩).files =
      fullFiles config contents i ⟨name, .drive onlyMounted⟩ := by
  have hfiles := world_files contents hs
  unfold fullFiles at hshort ⊢
  unfold look
  dsimp only at hshort ⊢
  rw [hfiles]
  cases hmounted : contents.mounted name.path with
  | true =>
      rw [hmounted, Bool.true_or, if_pos rfl] at hshort
      rw [Bool.true_or, if_pos rfl, if_pos (show (contents.world config).mounted name.path = true from hmounted)]
      exact quickDriveFiles_eq hpath hdrive hshort
  | false =>
      have hnot : ¬ (contents.world config).mounted name.path = true :=
        Bool.eq_false_iff.mp hmounted
      rw [if_neg hnot, hgone hmounted, fullDriveFiles_nil, ite_self]
      split
      · rfl
      · rfl

theorem listed_share {share : SmbShareConfig} (hs : (sources config)[i]? = some ⟨name, .share share⟩)
    (hnone : share.browseOnly = false)
    (hlisted : look (contents.world config) i ⟨name, .share share⟩ ≠ .skipped) :
    (look (contents.world config) i ⟨name, .share share⟩).files =
      fullFiles config contents i ⟨name, .share share⟩ := by
  have hfiles := world_files contents hs
  unfold fullFiles
  unfold look at hlisted ⊢
  dsimp only at hlisted ⊢
  rw [hfiles] at hlisted ⊢
  cases hanswers : (contents.world config).answers i with
  | false =>
      rw [hanswers] at hlisted
      exact absurd rfl hlisted
  | true =>
      have hserver : contents.answers i = true := by
        change (contents.answers i && _ && _) = true at hanswers
        rw [Bool.and_eq_true, Bool.and_eq_true] at hanswers
        exact hanswers.1.1
      rw [if_pos rfl, hnone, hserver]
      rfl

theorem listed_web {web : HttpSourceConfig} (hs : (sources config)[i]? = some ⟨name, .web web⟩)
    (hweb : quickReported (contents.reported i) = some (contents.reported i))
    (hlisted : look (contents.world config) i ⟨name, .web web⟩ ≠ .skipped) :
    (look (contents.world config) i ⟨name, .web web⟩).files =
      fullFiles config contents i ⟨name, .web web⟩ := by
  have hfiles := world_files contents hs
  unfold look at hlisted ⊢
  dsimp only at hlisted ⊢
  rw [hfiles] at hlisted ⊢
  split
  · show (quickReported (contents.reported i)).getD [] = contents.reported i
    rw [hweb]
    rfl
  · rename_i hno
    exact absurd (if_neg hno) hlisted

theorem browsed_fullFiles {s : Source} {share : SmbShareConfig}
    (h : browsedShare s = some share) : fullFiles config contents i s = [] := by
  obtain ⟨name, kind⟩ := s
  cases kind with
  | drive b => cases h
  | web w => cases h
  | share config' =>
      unfold browsedShare at h
      dsimp only at h
      split at h
      · rename_i hb
        unfold fullFiles
        dsimp only
        rw [hb, Bool.true_or, if_pos rfl]
      · cases h

end

/-- What decides whether both scans list the same files: names on web servers, and a
disc folder beside the folder that stands for the USB drive. -/
structure ListedAlike (config : Config) (contents : Contents) : Prop where
  named : forall s, s ∈ sources config -> s.name.path ≠ []
  drive : forall s, s ∈ sources config -> forall b, s.kind = .drive b ->
    config.scanDir = [] ∨ config.scanDir = s.name.path
  gone : forall path, contents.mounted path = false -> contents.entries path = []
  short : forall f, f ∈ allFullFiles config contents -> copied 512 f.path = f.path
  web : forall i s, (sources config)[i]? = some s -> forall w, s.kind = .web w ->
    quickReported (contents.reported i) = some (contents.reported i)

theorem ListedAlike.files {config : Config} {contents : Contents}
    (h : ListedAlike config contents) {s : Source × Nat} (hs : s ∈ (sources config).zipIdx)
    (hnone : browsedShare s.1 = none)
    (hlisted : look (contents.world config) s.2 s.1 ≠ .skipped) :
    (look (contents.world config) s.2 s.1).files = fullFiles config contents s.2 s.1 := by
  have hplace := List.mem_zipIdx_iff_getElem?.mp hs
  have hmem := List.fst_mem_of_mem_zipIdx hs
  obtain ⟨⟨name, kind⟩, i⟩ := s
  cases kind with
  | drive b =>
      apply listed_drive hplace (h.named _ hmem) (h.drive _ hmem b rfl) (h.gone name.path)
      intro f hf
      exact h.short f (List.mem_flatMap.mpr ⟨_, hs, hf⟩)
  | share share =>
      apply listed_share hplace _ hlisted
      unfold browsedShare at hnone
      dsimp only at hnone
      split at hnone
      · cases hnone
      · rename_i hb
        exact Bool.eq_false_iff.mpr hb
  | web web => exact listed_web hplace (h.web i _ hplace web rfl) hlisted

theorem ListedAlike.alike {config : Config} {contents : Contents}
    (h : ListedAlike config contents)
    (hlisted : forall t, t ∈ turnsOf config contents -> t.listing ≠ .skipped) (f : QuickFile) :
    f ∈ allFullFiles config contents ↔ exists t, t ∈ turnsOf config contents ∧ f ∈ t.files := by
  have hturn : forall s, s ∈ (sources config).zipIdx -> browsedShare s.1 = none ->
      ({ name := s.1.name, listing := look (contents.world config) s.2 s.1 } : Turn) ∈
        turnsOf config contents := by
    intro s hs hnone
    exact List.mem_map.mpr ⟨s, List.mem_filter.mpr ⟨hs, by rw [hnone]; rfl⟩, rfl⟩
  constructor
  · intro hf
    obtain ⟨s, hs, hfs⟩ := List.mem_flatMap.mp hf
    cases hbrowsed : browsedShare s.1 with
    | none =>
        have ht := hturn s hs hbrowsed
        refine ⟨_, ht, ?_⟩
        show f ∈ (look (contents.world config) s.2 s.1).files
        rw [h.files hs hbrowsed (hlisted _ ht)]
        exact hfs
    | some share =>
        rw [browsed_fullFiles hbrowsed] at hfs
        exact absurd hfs List.not_mem_nil
  · rintro ⟨t, ht, hf⟩
    obtain ⟨s, hs, hsame⟩ := List.mem_map.mp ht
    obtain ⟨hplace, hnone⟩ := List.mem_filter.mp hs
    have hbrowsed := Option.isNone_iff_eq_none.mp hnone
    rw [← hsame] at hf
    change f ∈ (look (contents.world config) s.2 s.1).files at hf
    rw [h.files hplace hbrowsed (hlisted _ (hturn s hplace hbrowsed))] at hf
    exact List.mem_flatMap.mpr ⟨s, hplace, hf⟩

/-!
# A folder, and two folders of one share
-/

def oneFolder : Config where
  scanDir := ascii "/pkgs"
  discDir := []
  usbPrefix := []
  smbShares := []
  httpSources := []

def oneFolderContents : Contents where
  mounted := fun path => path == ascii "/pkgs"
  entries := fun path =>
    if path == ascii "/pkgs" then [.file (ascii "game.pkg") 4096 1000] else []
  answers := fun _ => true
  reported := fun _ => []
  scannedLately := fun _ => false

def folderFile : QuickFile where
  path := ascii "/pkgs/game.pkg"
  filename := ascii "game.pkg"
  fileSize := 4096
  mtime := 1000

def folderTurn : Turn where
  name :=
    { id := ascii "usb0", label := ascii "USB Drive 0", path := ascii "/pkgs",
      type := ascii "usb" }
  listing := .listed [folderFile]

theorem turnsOf_oneFolder : turnsOf oneFolder oneFolderContents = [folderTurn] := by
  decide

theorem history_folderFile : History plainEntry (fun f => f = folderFile) where
  short := by
    rintro f rfl
    decide
  honest := by
    rintro f p rfl hparse
    rw [← Option.some.inj hparse]
    exact ⟨rfl, rfl, rfl⟩
  distinct := fun f g hf hg _ _ _ => hf.trans hg.symm

theorem orderly_folderFile :
    Orderly plainEntry (fun f => f = folderFile) folderTurn.name.path folderTurn.files where
  seen := fun f hf => List.mem_singleton.mp hf
  own := by decide
  distinct := by decide
  dated := by decide
  package := fun f _ => ⟨plainPackage f, rfl, plainPackage_not_provisional f⟩
  first := by decide

theorem listedAlike_oneFolder : ListedAlike oneFolder oneFolderContents where
  named := by decide
  drive := by
    intro s hs b _
    have hsources : sources oneFolder = [{ name := folderTurn.name, kind := .drive false }] := by
      decide
    rw [hsources, List.mem_singleton] at hs
    rw [hs]
    exact Or.inr rfl
  gone := by
    intro path hpath
    exact if_neg (Bool.eq_false_iff.mp hpath)
  short := by decide
  web := fun _ _ _ _ _ => rfl

theorem quick_agrees_oneFolder : Agrees plainEntry oneFolder oneFolderContents emptyCatalog := by
  have hone : forall t, t ∈ turnsOf oneFolder oneFolderContents -> t = folderTurn := by
    intro t ht
    rw [turnsOf_oneFolder] at ht
    exact List.mem_singleton.mp ht
  have hlisted : forall t, t ∈ turnsOf oneFolder oneFolderContents -> t.listing ≠ .skipped := by
    intro t ht
    rw [hone t ht]
    decide
  apply quick_agrees_with_full history_folderFile Produced.start
  refine ⟨⟨hlisted, ?_, ?_⟩, ⟨?_, ?_, ?_⟩, ?_, ?_, listedAlike_oneFolder.alike hlisted⟩
  · intro t ht
    rw [hone t ht]
    exact orderly_folderFile
  · intro s hs t ht f hf _
    rw [hone s hs, ← hone t ht]
    exact hf
  · intro t ht
    rw [hone t ht]
    decide
  · intro s _ _ u _ _ d hd
    exact absurd hd List.not_mem_nil
  · intro s _ _ u hu hgone
    rw [hone u hu] at hgone
    cases hgone
  · rw [turnsOf_oneFolder]
    exact ⟨⟨by decide, fun hempty => by cases hempty⟩, trivial⟩
  · decide

def twoFoldersContents : Contents where
  mounted := fun _ => false
  entries := fun _ => []
  answers := fun _ => true
  reported := fun i => if i = 9 then [gameFile] else [dlcFile]
  scannedLately := fun _ => false

theorem history_twoFolders : History plainEntry (fun f => f = gameFile ∨ f = dlcFile) where
  short := by
    rintro f (rfl | rfl)
    · decide
    · decide
  honest := by
    intro f p _ hparse
    rw [← Option.some.inj hparse]
    exact ⟨rfl, rfl, rfl⟩
  distinct := by
    have hne : gameFile.path ≠ dlcFile.path := by decide
    rintro f g (rfl | rfl) (rfl | rfl) hpath _ _
    · rfl
    · exact absurd hpath hne
    · exact absurd hpath.symm hne
    · rfl

/-- After a pass over both folders only the packages of the second one are left. -/
theorem first_folder_missing :
    History plainEntry (fun f => f = gameFile ∨ f = dlcFile) ∧
      (forall t, t ∈ turnsOf twoFolders twoFoldersContents -> t.listing ≠ .skipped) ∧
      ¬ Agrees plainEntry twoFolders twoFoldersContents emptyCatalog := by
  refine ⟨history_twoFolders, by decide, ?_⟩
  intro h
  have hfull : plainPackage gameFile ∈
      (scanFullOwned plainEntry twoFolders twoFoldersContents).packages :=
    (mem_scanFullOwned (by decide) _).mpr ⟨gameFile, by decide, rfl⟩
  have hquick := (h.packages
    { name := (shareSource (folderShare (ascii "smb0") (ascii "games")) 0).name
      listing := .listed [gameFile] } (by decide) (plainPackage gameFile)
    (by decide)).mpr hfull
  revert hquick
  decide

end Scanner
end PkgManager
