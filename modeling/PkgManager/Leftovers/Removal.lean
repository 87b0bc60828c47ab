import PkgManager.Files.Disk
import PkgManager.Leftovers.Scan
import PkgManager.Smb.Sanitize

/-!
# The removal of a directory

The entries of a directory are looked at without following links, but the directory itself is
opened through them.
-/

namespace PkgManager
namespace Leftovers

open Files
open CString
open PkgManager.Parser

/-- {lit}`snprintf(sub, sizeof(sub), "%s/%s", path, de->d_name)` -/
def subPath (path : Text) (name : Name) : Text :=
  (path ++ slash :: name).take 1023

section
variable (cwd : Location)

/-- One name of a directory: the bytes that are freed and the disk. -/
def removeEntry (recur : Disk -> Text -> Nat × Disk) (path : Text) (acc : Nat × Disk)
    (name : Name) : Nat × Disk :=
  if name = dot ∨ name = dotDot then acc
  else
    match lstat cwd acc.2 (subPath path name) with
    | none => acc
    | some (Kind.link _) => (acc.1, unlink cwd acc.2 (subPath path name))
    | some Kind.dir =>
        let removed := recur acc.2 (subPath path name)
        (acc.1 + removed.1, removed.2)
    | some (Kind.file size) => (acc.1 + size, unlink cwd acc.2 (subPath path name))

/-- {lit}`rmdir_recursive_depth`, with the number of levels that are left. -/
def rmdirRecursiveDepth : (levels : Nat) -> Disk -> Text -> Nat × Disk
  | 0, d, _ => (0, d)
  | levels + 1, d, path =>
      match opendir cwd d path with
      | none =>
          match lstat cwd d path with
          | none => (0, d)
          | some kind => (kind.size, unlink cwd d path)
      | some names =>
          let removed := names.foldl (removeEntry cwd (rmdirRecursiveDepth levels) path) (0, d)
          (removed.1, rmdir cwd removed.2 path)

/-- The depths from 0 to 20 are entered. -/
def rmdirRecursive (d : Disk) (path : Text) : Nat × Disk :=
  rmdirRecursiveDepth cwd 21 d path

def removePath (acc : Nat × Disk) (path : Text) : Nat × Disk :=
  let removed := rmdirRecursive cwd acc.2 path
  (acc.1 + removed.1, removed.2)

/-- The loop of {lit}`leftovers_delete_json`. -/
def removePaths (d : Disk) (paths : List Text) : Nat × Disk :=
  paths.foldl (removePath cwd) (0, d)

end

/-!
# Paths that fill the buffer
-/

/-- A path that fills the buffer, and ends in the entry itself or its parent. -/
structure Dead (path : Text) : Prop where
  full : path.length = 1023
  dots : endsInDots path = true

theorem subPath_of_full {path : Text} (hfull : path.length = 1023) (name : Name) :
    subPath path name = path := by
  unfold subPath
  rw [<- hfull, List.take_left]

variable {cwd : Location}

/-- Nothing is removed by way of such a path. -/
theorem dead_unchanged {path : Text} (h : Dead path) (levels : Nat) (d : Disk) :
    (rmdirRecursiveDepth cwd levels d path).2 = d := by
  induction levels generalizing d with
  | zero => rfl
  | succ levels ih =>
      have hentry : forall (acc : Nat × Disk) (name : Name),
          (removeEntry cwd (rmdirRecursiveDepth cwd levels) path acc name).2 = acc.2 := by
        intro acc name
        unfold removeEntry
        rw [subPath_of_full h.full]
        split
        · rfl
        · cases lstat cwd acc.2 path with
          | none => rfl
          | some kind =>
              cases kind with
              | link target => exact unlink_of_dots h.dots acc.2
              | dir => exact ih acc.2
              | file size => exact unlink_of_dots h.dots acc.2
      have hall : forall (names : List Name) (acc : Nat × Disk),
          (names.foldl (removeEntry cwd (rmdirRecursiveDepth cwd levels) path) acc).2 = acc.2 := by
        intro names
        induction names with
        | nil => exact fun acc => rfl
        | cons name rest ihrest =>
            intro acc
            rw [List.foldl_cons, ihrest, hentry]
      rw [rmdirRecursiveDepth]
      cases opendir cwd d path with
      | none =>
          dsimp only
          cases lstat cwd d path with
          | none => rfl
          | some kind => exact unlink_of_dots h.dots d
      | some names =>
          dsimp only
          rw [hall]
          exact rmdir_of_dots h.dots d

/-!
# Paths inside a directory
-/

/-- On the disk at the start, the path names something at or behind the top, and so does the
directory that it opens. -/
structure Inside (cwd : Location) (d : Disk) (top : Location) (path : Text) : Prop where
  short : path.length ≤ 1023
  named : forall {loc}, locate cwd d false path = some loc -> top <+: loc
  opened : forall {loc}, locate cwd d true path = some loc -> d.kindAt loc = some Kind.dir ->
    top <+: loc

/-- A change that removes entries at or behind the top only. -/
structure RemovesUnder (d d' : Disk) (top : Location) : Prop where
  below : Below d' d
  only : forall {loc}, Gone d d' loc -> top <+: loc

theorem RemovesUnder.refl (d : Disk) (top : Location) : RemovesUnder d d top :=
  ⟨Below.refl d, fun h => absurd h not_gone_self⟩

theorem RemovesUnder.trans {d d' d'' : Disk} {top : Location} (h : RemovesUnder d d' top)
    (h' : RemovesUnder d' d'' top) : RemovesUnder d d'' top :=
  ⟨h'.below.trans h.below, fun hgone => hgone.split.elim h.only h'.only⟩

section
variable {start d : Disk} {top : Location} {path : Text}

theorem RemovesUnder.of_named (hbelow : Below d start)
    (hnamed : forall {loc}, locate cwd start false path = some loc -> top <+: loc) {d' : Disk}
    (h : RemovesAt cwd d d' path) : RemovesUnder d d' top :=
  ⟨h.below, fun hgone => hnamed (locate_mono hbelow (h.only hgone))⟩

theorem opendir_some {names : List Name} (h : opendir cwd d path = some names) :
    exists loc, locate cwd d true path = some loc ∧ d.kindAt loc = some Kind.dir ∧
      names = dot :: dotDot :: d.children loc := by
  rcases Option.bind_eq_some_iff.mp h with ⟨loc, hloc, hnames⟩
  split at hnames
  · rename_i hdir
    cases hnames
    exact ⟨loc, hloc, hdir, rfl⟩
  · cases hnames

theorem lstat_some {kind : Kind} (h : lstat cwd d path = some kind) :
    exists loc, locate cwd d false path = some loc ∧ d.kindAt loc = some kind :=
  Option.bind_eq_some_iff.mp h

/-- The path of an entry names something at or behind the top, or is of no use. -/
theorem Inside.sub (h : Inside cwd start top path) (hpath : path ≠ []) {name : Name}
    (hname : Proper name) :
    (forall {loc}, locate cwd start false (subPath path name) = some loc -> top <+: loc) ∨
      Dead (subPath path name) := by
  rcases Nat.eq_or_lt_of_le h.short with hfull | hroom
  · rw [subPath_of_full hfull]
    exact Or.inl h.named
  have hsub : subPath path name = path ++ slash :: name.take (1022 - path.length) := by
    have hlen : 1023 - path.length = 1022 - path.length + 1 := by omega
    unfold subPath
    rw [List.take_append, List.take_of_length_le h.short, hlen, List.take_succ_cons]
  have hone : slash ∉ name.take (1022 - path.length) :=
    fun hmem => hname.one (List.mem_of_mem_take hmem)
  by_cases hup : name.take (1022 - path.length) = dotDot
  · right
    have hcut : 1022 - path.length < name.length := by
      by_contra hle
      rw [List.take_of_length_le (Nat.le_of_not_lt hle)] at hup
      exact hname.not_dotDot hup
    have htwo : (name.take (1022 - path.length)).length = 2 := by
      rw [hup]
      rfl
    rw [List.length_take_of_le (Nat.le_of_lt hcut)] at htwo
    constructor
    · rw [hsub, hup, List.length_append]
      change path.length + 3 = 1023
      omega
    · unfold endsInDots
      rw [hsub, finalName_concat path hone (by rw [hup]; exact List.cons_ne_nil _ _), hup]
      rfl
  · left
    intro loc hloc
    rw [hsub] at hloc
    rcases locate_concat hpath hone hloc with ⟨dir, hdir, hkind, hleads⟩
    have hinside := h.opened hdir hkind
    cases hleads with
    | stay _ => exact hinside
    | up hdots => exact absurd hdots hup
    | down _ => exact hinside.trans (List.prefix_append _ _)

section
variable {recur : Disk -> Text -> Nat × Disk}
variable (hrecur : forall {d path}, Below d start -> Inside cwd start top path ->
  RemovesUnder d (recur d path).2 top)
variable (hdead : forall {path}, Dead path -> forall d, (recur d path).2 = d)
variable (hinside : Inside cwd start top path) (hpath : path ≠ [])
include hrecur hdead hinside hpath

theorem removeEntry_under {name : Name} (hname : name = dot ∨ name = dotDot ∨ Proper name)
    {acc : Nat × Disk} (hacc : Below acc.2 start) :
    RemovesUnder acc.2 (removeEntry cwd recur path acc name).2 top := by
  unfold removeEntry
  split
  · exact RemovesUnder.refl acc.2 top
  rename_i hdots
  have hproper := (hname.resolve_left (fun h => hdots (Or.inl h))).resolve_left
    (fun h => hdots (Or.inr h))
  rcases hinside.sub hpath hproper with hnamed | hfull
  · cases hlstat : lstat cwd acc.2 (subPath path name) with
    | none => exact RemovesUnder.refl acc.2 top
    | some kind =>
        cases kind with
        | link target => exact RemovesUnder.of_named hacc hnamed (unlink_removes _ _ _)
        | file size => exact RemovesUnder.of_named hacc hnamed (unlink_removes _ _ _)
        | dir =>
            rcases lstat_some hlstat with ⟨loc, hloc, hkind⟩
            -- an entry that is no link is the directory that its path opens
            have hfollow := locate_follow
              (fun target hlink => by rw [hacc.kind hkind] at hlink; cases hlink)
              (locate_mono hacc hloc)
            apply hrecur hacc
            refine ⟨List.length_take_le _ _, hnamed, fun hfound _ => ?_⟩
            rw [hfollow] at hfound
            cases hfound
            exact hnamed (locate_mono hacc hloc)
  · cases lstat cwd acc.2 (subPath path name) with
    | none => exact RemovesUnder.refl acc.2 top
    | some kind =>
        cases kind with
        | link target =>
            dsimp only
            rw [unlink_of_dots hfull.dots]
            exact RemovesUnder.refl acc.2 top
        | file size =>
            dsimp only
            rw [unlink_of_dots hfull.dots]
            exact RemovesUnder.refl acc.2 top
        | dir =>
            dsimp only
            rw [hdead hfull]
            exact RemovesUnder.refl acc.2 top

theorem removeEntries_under {names : List Name}
    (hnames : forall name, name ∈ names -> name = dot ∨ name = dotDot ∨ Proper name)
    {acc : Nat × Disk} (hacc : Below acc.2 start) :
    RemovesUnder acc.2 (names.foldl (removeEntry cwd recur path) acc).2 top := by
  induction names generalizing acc with
  | nil => exact RemovesUnder.refl acc.2 top
  | cons name rest ih =>
      have hfirst := removeEntry_under hrecur hdead hinside hpath (hnames name List.mem_cons_self)
        hacc
      exact hfirst.trans (ih (fun n hn => hnames n (List.mem_cons_of_mem _ hn))
        (hfirst.below.trans hacc))

end

/-- What the walk removes lies at or behind the top. -/
theorem rmdirRecursiveDepth_under (levels : Nat) (hbelow : Below d start)
    (hinside : Inside cwd start top path) :
    RemovesUnder d (rmdirRecursiveDepth cwd levels d path).2 top := by
  induction levels generalizing d path with
  | zero => exact RemovesUnder.refl d top
  | succ levels ih =>
      rw [rmdirRecursiveDepth]
      cases hopen : opendir cwd d path with
      | none =>
          dsimp only
          cases lstat cwd d path with
          | none => exact RemovesUnder.refl d top
          | some kind => exact RemovesUnder.of_named hbelow hinside.named (unlink_removes cwd d path)
      | some names =>
          rcases opendir_some hopen with ⟨dir, hdir, _, hnames⟩
          have hpath : path ≠ [] := by
            intro hnil
            rw [hnil] at hdir
            cases hdir
          have hproper : forall name, name ∈ names ->
              name = dot ∨ name = dotDot ∨ Proper name := by
            intro name hmem
            rw [hnames, List.mem_cons, List.mem_cons] at hmem
            exact hmem.imp_right (fun h => h.imp_right d.proper)
          have hentries : RemovesUnder (0, d).2 (names.foldl (removeEntry cwd
              (rmdirRecursiveDepth cwd levels) path) (0, d)).2 top :=
            removeEntries_under ih (fun hfull d => dead_unchanged hfull levels d) hinside hpath
              hproper hbelow
          exact hentries.trans (RemovesUnder.of_named (hentries.below.trans hbelow) hinside.named
            (rmdir_removes _ _ _))

end

/-!
# What is removed
-/

/-- The path names a link that leads to a directory. -/
structure LeadsBehindLink (cwd : Location) (d : Disk) (path : Text) (top dir : Location) : Prop where
  link : exists target, d.kindAt top = some (Kind.link target)
  named : locate cwd d false path = some top
  opened : locate cwd d true path = some dir
  isDir : d.kindAt dir = some Kind.dir

/-- Only what the path names is removed, and what is reached from there through real
directories. -/
def Contained (cwd : Location) (d d' : Disk) (path : Text) : Prop :=
  forall loc, Gone d d' loc -> exists top, locate cwd d false path = some top ∧ Reach d top loc

section
variable {d : Disk} {path : Text}

theorem inside_of_no_link (hshort : path.length ≤ 1023)
    (hlink : forall top dir, ¬LeadsBehindLink cwd d path top dir) {top : Location}
    (htop : locate cwd d false path = some top) : Inside cwd d top path := by
  refine ⟨hshort, fun hloc => ?_, fun {loc} hloc hdir => ?_⟩
  · rw [htop] at hloc
    cases hloc
    exact List.prefix_refl top
  · have hreal : forall target, d.kindAt top ≠ some (Kind.link target) :=
      fun target htarget => hlink top loc ⟨⟨target, htarget⟩, htop, hloc, hdir⟩
    rw [locate_follow hreal htop] at hloc
    cases hloc
    exact List.prefix_refl top

theorem rmdirRecursive_unnamed (hnone : locate cwd d false path = none) :
    (rmdirRecursive cwd d path).2 = d := by
  have hopen : opendir cwd d path = none := by
    unfold opendir
    cases hloc : locate cwd d true path with
    | none => rfl
    | some loc =>
        rcases locate_exists hloc with ⟨loc', hloc'⟩
        rw [hnone] at hloc'
        cases hloc'
  have hlstat : lstat cwd d path = none := by
    unfold lstat
    rw [hnone]
    rfl
  unfold rmdirRecursive
  rw [rmdirRecursiveDepth, hopen, hlstat]

theorem rmdirRecursive_below_contained {start : Disk} (hbelow : Below d start)
    (hshort : path.length ≤ 1023)
    (hlink : forall top dir, ¬LeadsBehindLink cwd start path top dir) :
    Below (rmdirRecursive cwd d path).2 d ∧
      forall loc, Gone d (rmdirRecursive cwd d path).2 loc ->
        exists top, locate cwd start false path = some top ∧ Reach start top loc := by
  cases htop : locate cwd start false path with
  | none =>
      have hnone : locate cwd d false path = none := by
        cases hloc : locate cwd d false path with
        | none => rfl
        | some loc =>
            rw [locate_mono hbelow hloc] at htop
            cases htop
      rw [rmdirRecursive_unnamed hnone]
      exact ⟨Below.refl d, fun loc hgone => absurd hgone not_gone_self⟩
  | some top =>
      have hunder : RemovesUnder d (rmdirRecursive cwd d path).2 top :=
        rmdirRecursiveDepth_under 21 hbelow (inside_of_no_link hshort hlink htop)
      refine ⟨hunder.below, fun loc hgone => ⟨top, rfl, ?_⟩⟩
      apply reach_of_prefix (hunder.only hgone)
      rcases Option.isSome_iff_exists.mp hgone.was with ⟨kind, hkind⟩
      rw [hbelow.kind hkind]
      rfl

theorem removePath_fold {start : Disk} {paths : List Text}
    (hpaths : forall path, path ∈ paths -> path.length ≤ 1023 ∧
      forall top dir, ¬LeadsBehindLink cwd start path top dir)
    {acc : Nat × Disk} (hacc : Below acc.2 start) {loc : Location}
    (hgone : Gone acc.2 (paths.foldl (removePath cwd) acc).2 loc) :
    exists path, path ∈ paths ∧ exists top,
      locate cwd start false path = some top ∧ Reach start top loc := by
  induction paths generalizing acc with
  | nil => exact absurd hgone not_gone_self
  | cons path rest ih =>
      rcases hpaths path List.mem_cons_self with ⟨hshort, hlink⟩
      rcases rmdirRecursive_below_contained hacc hshort hlink with ⟨hbelow, honly⟩
      have hstep : (removePath cwd acc path).2 = (rmdirRecursive cwd acc.2 path).2 := rfl
      rw [<- hstep] at hbelow honly
      rw [List.foldl_cons] at hgone
      have hsplit : Gone acc.2 (removePath cwd acc path).2 loc ∨ Gone (removePath cwd acc path).2
          (rest.foldl (removePath cwd) (removePath cwd acc path)).2 loc := hgone.split
      rcases hsplit with hfirst | hlater
      · exact ⟨path, List.mem_cons_self, honly loc hfirst⟩
      · rcases ih (fun p hp => hpaths p (List.mem_cons_of_mem _ hp)) (hbelow.trans hacc) hlater with
          ⟨p, hp, hreach⟩
        exact ⟨p, List.mem_cons_of_mem _ hp, hreach⟩

/-- A deletion whose paths are no links to directories removes what they name, and what is
reached from there through real directories. -/
theorem removePaths_contained {paths : List Text}
    (hpaths : forall path, path ∈ paths -> path.length ≤ 1023 ∧
      forall top dir, ¬LeadsBehindLink cwd d path top dir) {loc : Location}
    (hgone : Gone d (removePaths cwd d paths).2 loc) :
    exists path, path ∈ paths ∧ exists top,
      locate cwd d false path = some top ∧ Reach d top loc := by
  have hacc : Below ((0 : Nat), d).2 d := Below.refl d
  exact removePath_fold hpaths hacc hgone

/-- The paths that are collected for a title are short. -/
theorem existingPaths_short {env : Env} {fs : FileState} {tid path : Text}
    (h : path ∈ existingPaths env fs tid) : path.length ≤ 511 := by
  have htitle : forall base, (titlePath base tid).length ≤ 511 :=
    fun base => Smb.copied_length 512 _
  unfold existingPaths at h
  rcases List.mem_append.mp h with hbase | happ
  · have hmem := (List.mem_filter.mp hbase).1
    simp only [List.mem_cons, List.not_mem_nil, or_false] at hmem
    rcases hmem with rfl | rfl | rfl | rfl | rfl <;> exact htitle _
  · split at happ
    · rw [List.mem_singleton.mp happ]
      exact htitle _
    · cases happ

theorem unlink_below (cwd : Location) (d : Disk) (path : Text) : Below (unlink cwd d path) d :=
  (unlink_removes cwd d path).below

theorem removeEntry_below {recur : Disk -> Text -> Nat × Disk}
    (hrecur : forall d path, Below (recur d path).2 d) (path : Text) (acc : Nat × Disk)
    (name : Name) : Below (removeEntry cwd recur path acc name).2 acc.2 := by
  unfold removeEntry
  split
  · exact Below.refl acc.2
  · cases lstat cwd acc.2 (subPath path name) with
    | none => exact Below.refl acc.2
    | some kind =>
        cases kind with
        | link target => exact unlink_below _ _ _
        | dir => exact hrecur _ _
        | file size => exact unlink_below _ _ _

theorem removeEntries_below {recur : Disk -> Text -> Nat × Disk}
    (hrecur : forall d path, Below (recur d path).2 d) (path : Text) (names : List Name)
    (acc : Nat × Disk) : Below (names.foldl (removeEntry cwd recur path) acc).2 acc.2 := by
  induction names generalizing acc with
  | nil => exact Below.refl acc.2
  | cons name rest ih => exact (ih _).trans (removeEntry_below hrecur path acc name)

theorem rmdirRecursiveDepth_below (levels : Nat) (d : Disk) (path : Text) :
    Below (rmdirRecursiveDepth cwd levels d path).2 d := by
  induction levels generalizing d path with
  | zero => exact Below.refl d
  | succ levels ih =>
      rw [rmdirRecursiveDepth]
      cases opendir cwd d path with
      | none =>
          dsimp only
          cases lstat cwd d path with
          | none => exact Below.refl d
          | some kind => exact unlink_below cwd d path
      | some names => exact (rmdir_removes _ _ _).below.trans (removeEntries_below ih path names (0, d))

/-- The entry that is listed first behind a link is removed, when it is no directory. -/
theorem first_behind_link_gone {top dir : Location} (h : LeadsBehindLink cwd d path top dir)
    {name : Name} {rest : List Name} (hfirst : d.children dir = name :: rest) {kind : Kind}
    (hkind : d.kindAt (dir ++ [name]) = some kind) (hfile : kind ≠ Kind.dir)
    (hfits : path.length + 1 + name.length ≤ 1023) :
    Gone d (rmdirRecursive cwd d path).2 (dir ++ [name]) := by
  have hlisted : name ∈ d.children dir := by
    rw [hfirst]
    exact List.mem_cons_self
  have hname : Proper name := d.proper hlisted
  have hsub : subPath path name = path ++ slash :: name := by
    unfold subPath
    apply List.take_of_length_le
    rw [List.length_append, List.length_cons]
    omega
  have hloc := locate_entry hname h.isDir hkind h.opened
  have hdots : endsInDots (path ++ slash :: name) = false := by
    unfold endsInDots
    rw [finalName_concat path hname.one hname.nonempty]
    simp [hname.not_dot, hname.not_dotDot]
  have hopen : opendir cwd d path = some (dot :: dotDot :: name :: rest) := by
    unfold opendir
    rw [h.opened, Option.bind_some, if_pos h.isDir, hfirst]
  have hlstat : lstat cwd d (path ++ slash :: name) = some kind := by
    unfold lstat
    rw [hloc, Option.bind_some, hkind]
  have hentry : forall (acc : Nat × Disk), acc.2 = d ->
      (removeEntry cwd (rmdirRecursiveDepth cwd 20) path acc name).2.kindAt (dir ++ [name]) =
        none := by
    rintro acc rfl
    unfold removeEntry
    rw [if_neg (fun h => h.elim hname.not_dot hname.not_dotDot), hsub, hlstat]
    cases kind with
    | dir => exact absurd rfl hfile
    | link target => exact unlink_gone hloc hkind hfile hdots
    | file size => exact unlink_gone hloc hkind hfile hdots
  refine ⟨by rw [hkind]; rfl, ?_⟩
  unfold rmdirRecursive
  rw [rmdirRecursiveDepth, hopen]
  apply (rmdir_removes _ _ _).below.gone
  rw [List.foldl_cons, List.foldl_cons, List.foldl_cons]
  apply (removeEntries_below (rmdirRecursiveDepth_below 20) path rest _).gone
  exact hentry _ rfl

theorem reach_of_link {top loc : Location} {target : List UInt8}
    (hlink : d.kindAt top = some (Kind.link target)) (h : Reach d top loc) : loc = top := by
  induction h with
  | top => rfl
  | entry _ hdir ih =>
      rw [ih, hlink] at hdir
      cases hdir

/-- A removal stays with what its path names and with what is reached from there, unless the path
is a link to a directory.  Behind such a link an entry is removed that is not reached. -/
theorem rmdirRecursive_contained (hshort : path.length ≤ 1023) :
    ((forall top dir, ¬LeadsBehindLink cwd d path top dir) ->
        Contained cwd d (rmdirRecursive cwd d path).2 path) ∧
      forall top dir, LeadsBehindLink cwd d path top dir ->
        forall name rest kind, d.children dir = name :: rest ->
          d.kindAt (dir ++ [name]) = some kind -> kind ≠ Kind.dir ->
          path.length + 1 + name.length ≤ 1023 -> dir ++ [name] ≠ top ->
            ¬Contained cwd d (rmdirRecursive cwd d path).2 path := by
  constructor
  · intro hlink loc hgone
    exact (rmdirRecursive_below_contained (Below.refl d) hshort hlink).2 loc hgone
  · intro top dir h name rest kind hfirst hkind hfile hfits hne hcontained
    rcases hcontained _ (first_behind_link_gone h hfirst hkind hfile hfits) with
      ⟨top', htop', hreach⟩
    rw [h.named] at htop'
    cases htop'
    rcases h.link with ⟨target, htarget⟩
    exact hne (reach_of_link htarget hreach)

end

/-- The directory of a title, and outside of it a saved game. -/
def titleEntries (titleKind : Kind) : List (Location × Kind) :=
  [([ascii "user"], Kind.dir), ([ascii "user", ascii "patch"], Kind.dir),
    ([ascii "user", ascii "patch", ascii "CUSA00001"], titleKind),
    ([ascii "data"], Kind.dir), ([ascii "data", ascii "save"], Kind.file 9)]

def titleIsDir : Disk :=
  Disk.ofEntries (titleEntries Kind.dir) (by decide +kernel)

def titleIsLink : Disk :=
  Disk.ofEntries (titleEntries (Kind.link (ascii "/data"))) (by decide +kernel)

def titleDir : Text := ascii "/user/patch/CUSA00001"

/-- The directory of the title is removed, and nothing else. -/
theorem titleDir_contained : Contained [] titleIsDir (rmdirRecursive [] titleIsDir titleDir).2
    titleDir := by
  refine (rmdirRecursive_contained (by decide +kernel)).1 (fun top dir h => ?_)
  have htop : locate [] titleIsDir false titleDir =
      some [ascii "user", ascii "patch", ascii "CUSA00001"] := by
    decide +kernel
  have hnamed := h.named
  rw [htop] at hnamed
  cases hnamed
  rcases h.link with ⟨target, hlink⟩
  have hdir : titleIsDir.kindAt [ascii "user", ascii "patch", ascii "CUSA00001"] =
      some Kind.dir := by
    decide +kernel
  rw [hdir] at hlink
  cases hlink

/-- The directory of a title is a link, and what is behind it is removed. -/
theorem titleLink_not_contained :
    ¬forall (cwd : Location) (d : Disk) (path : Text), path.length ≤ 1023 ->
      Contained cwd d (rmdirRecursive cwd d path).2 path := by
  intro h
  have hgone : Gone titleIsLink (rmdirRecursive [] titleIsLink titleDir).2
      [ascii "data", ascii "save"] :=
    ⟨by decide +kernel, by decide +kernel⟩
  rcases h [] titleIsLink titleDir (by decide +kernel) _ hgone with ⟨top, htop, hreach⟩
  have hnamed : locate [] titleIsLink false titleDir =
      some [ascii "user", ascii "patch", ascii "CUSA00001"] := by
    decide +kernel
  rw [hnamed] at htop
  cases htop
  have hlink : titleIsLink.kindAt [ascii "user", ascii "patch", ascii "CUSA00001"] =
      some (Kind.link (ascii "/data")) := by
    decide +kernel
  exact absurd (reach_of_link hlink hreach) (by decide +kernel)

/-- The console has only the directory of the title. -/
def onlyTitleDir : FileState where
  names _ := none
  stat path := path == titleDir
  dirSize _ := 0
  sfoTitle _ := none
  jsonTitle _ := none
  sfoVersion _ := none

def consoleEnv : Env where
  appmetaDir := none
  userAppmetaDir := none
  userPatchDir := none
  addcontDir := none
  userAppDir := none

theorem deleted_titleDir :
    (leftoversDelete consoleEnv onlyTitleDir (fun _ => false) (ascii "CUSA00001")).removed =
      [titleDir] := by
  decide +kernel

end Leftovers
end PkgManager
