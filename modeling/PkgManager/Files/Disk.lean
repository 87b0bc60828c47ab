import Mathlib.Data.List.Basic
import Mathlib.Data.List.Infix
import Mathlib.Tactic.Common

/-!
# Directories, files and symbolic links

A disk is a tree of entries.  An entry is named by its location, the names from the root to it,
which no link is part of.  A path is a text, and the links on its way are followed.
-/

namespace Files

abbrev Name :=
  List UInt8

abbrev Location :=
  List Name

inductive Kind where
  | dir
  | file (size : Nat)
  | link (target : List UInt8)
deriving DecidableEq

/-- {lit}`st_size` -/
def Kind.size : Kind -> Nat
  | dir => 0
  | file size => size
  | link target => target.length

def slash : UInt8 := 47

/-- The entry itself, and its parent. -/
def dot : Name := [46]

def dotDot : Name := [46, 46]

/-- A name that an entry can have. -/
structure Proper (name : Name) : Prop where
  nonempty : name ≠ []
  not_dot : name ≠ dot
  not_dotDot : name ≠ dotDot
  one : slash ∉ name

/-!
# Disks
-/

/-- The kind of the entry at a location; the root is a directory. -/
def kindIn (entries : List (Location × Kind)) (loc : Location) : Option Kind :=
  if loc = [] then some Kind.dir
  else (entries.find? (fun e => decide (e.1 = loc))).map Prod.snd

/-- The names of the entries in a directory, in their order. -/
def childrenIn (entries : List (Location × Kind)) (loc : Location) : List Name :=
  entries.filterMap (fun e => if e.1.dropLast = loc then e.1.getLast? else none)

/-- The entries have proper names and lie in directories. -/
structure Disk where
  entries : List (Location × Kind)
  proper : forall {loc name}, name ∈ childrenIn entries loc -> Proper name
  parent : forall {loc name}, (kindIn entries (loc ++ [name])).isSome = true ->
    kindIn entries loc = some Kind.dir

def Disk.kindAt (d : Disk) (loc : Location) : Option Kind :=
  kindIn d.entries loc

def Disk.children (d : Disk) (loc : Location) : List Name :=
  childrenIn d.entries loc

theorem mem_childrenIn {entries : List (Location × Kind)} {loc : Location} {name : Name} :
    name ∈ childrenIn entries loc ↔ (kindIn entries (loc ++ [name])).isSome = true := by
  unfold childrenIn kindIn
  rw [if_neg (List.append_ne_nil_of_right_ne_nil loc (List.cons_ne_nil name [])), Option.isSome_map,
    List.find?_isSome, List.mem_filterMap]
  constructor
  · rintro ⟨e, hmem, hname⟩
    split at hname
    · rename_i hloc
      refine ⟨e, hmem, decide_eq_true ?_⟩
      rw [<- hloc]
      exact (List.dropLast_append_getLast? name hname).symm
    · cases hname
  · rintro ⟨e, hmem, heq⟩
    refine ⟨e, hmem, ?_⟩
    rw [of_decide_eq_true heq, List.dropLast_concat, if_pos rfl, List.getLast?_concat]

theorem Disk.mem_children {d : Disk} {loc : Location} {name : Name} :
    name ∈ d.children loc ↔ (d.kindAt (loc ++ [name])).isSome = true :=
  mem_childrenIn

/-- Only directories have entries. -/
theorem Disk.dir_of_child {d : Disk} {loc : Location} {name : Name}
    (h : (d.kindAt (loc ++ [name])).isSome = true) : d.kindAt loc = some Kind.dir :=
  d.parent h

/-- The check that makes a list of entries a disk. -/
def wellPlaced (entries : List (Location × Kind)) : Bool :=
  entries.all (fun e =>
    e.1.getLast?.all (fun name =>
      decide (name ≠ [] ∧ name ≠ dot ∧ name ≠ dotDot ∧ slash ∉ name)) &&
    decide (kindIn entries e.1.dropLast = some Kind.dir))

def Disk.ofEntries (entries : List (Location × Kind)) (h : wellPlaced entries = true) : Disk where
  entries := entries
  proper := by
    intro loc name hname
    rcases List.mem_filterMap.mp hname with ⟨e, hmem, hlast⟩
    have hplaced := Bool.and_eq_true_iff.mp (List.all_eq_true.mp h e hmem)
    split at hlast
    · rw [hlast] at hplaced
      rcases of_decide_eq_true hplaced.1 with ⟨hnonempty, hdot, hdotDot, hone⟩
      exact ⟨hnonempty, hdot, hdotDot, hone⟩
    · cases hlast
  parent := by
    intro loc name hname
    rcases List.mem_filterMap.mp (mem_childrenIn.mpr hname) with ⟨e, hmem, hlast⟩
    have hplaced := Bool.and_eq_true_iff.mp (List.all_eq_true.mp h e hmem)
    split at hlast
    · rename_i hloc
      rw [<- hloc]
      exact of_decide_eq_true hplaced.2
    · cases hlast

/-!
# Removal
-/

theorem kindIn_filter (entries : List (Location × Kind)) (gone loc : Location) :
    kindIn (entries.filter (fun e => decide (e.1 ≠ gone))) loc =
      if loc = gone ∧ gone ≠ [] then none else kindIn entries loc := by
  unfold kindIn
  by_cases hroot : loc = []
  · rw [if_pos hroot, if_pos hroot, if_neg]
    rintro ⟨heq, hne⟩
    exact hne (heq.symm.trans hroot)
  · rw [if_neg hroot, if_neg hroot, List.find?_filter]
    by_cases hgone : loc = gone
    · rw [if_pos ⟨hgone, fun hnil => hroot (hgone.trans hnil)⟩]
      rw [Option.map_eq_none_iff, List.find?_eq_none]
      intro e _ heq
      have hboth := of_decide_eq_true heq
      exact of_decide_eq_true hboth.1 ((of_decide_eq_true hboth.2).trans hgone)
    · rw [if_neg (fun h => hgone h.1)]
      congr 2
      funext e
      by_cases he : e.1 = loc
      · simp [he, hgone]
      · simp [he]

/-- The entry is removed, unless it is a directory that holds entries. -/
def Disk.removeLeaf (d : Disk) (gone : Location) : Disk :=
  if hleaf : d.children gone = [] then
    { entries := d.entries.filter (fun e => decide (e.1 ≠ gone))
      proper := by
        intro loc name hname
        rw [mem_childrenIn, kindIn_filter] at hname
        split at hname
        · cases hname
        · exact d.proper (mem_childrenIn.mpr hname)
      parent := by
        intro loc name hname
        rw [kindIn_filter] at hname ⊢
        split at hname
        · cases hname
        · have hdir := d.parent hname
          rw [if_neg]
          · exact hdir
          · rintro ⟨heq, _⟩
            have hmem : name ∈ d.children gone := by
              rw [<- heq]
              exact mem_childrenIn.mpr hname
            rw [hleaf] at hmem
            cases hmem }
  else d

/-- Every entry of the one disk is on the other, with the same kind. -/
structure Below (d d' : Disk) : Prop where
  kind : forall {loc kind}, d.kindAt loc = some kind -> d'.kindAt loc = some kind

theorem Below.refl (d : Disk) : Below d d :=
  ⟨fun h => h⟩

theorem Below.trans {d d' d'' : Disk} (h : Below d d') (h' : Below d' d'') : Below d d'' :=
  ⟨fun hkind => h'.kind (h.kind hkind)⟩

theorem Below.gone {d d' : Disk} (h : Below d' d) {loc : Location} (hnone : d.kindAt loc = none) :
    d'.kindAt loc = none := by
  cases hkind : d'.kindAt loc with
  | none => rfl
  | some kind =>
      rw [h.kind hkind] at hnone
      cases hnone

theorem Disk.kindAt_removeLeaf (d : Disk) (gone loc : Location) :
    (d.removeLeaf gone).kindAt loc = d.kindAt loc ∨
      loc = gone ∧ (d.removeLeaf gone).kindAt loc = none := by
  unfold Disk.removeLeaf
  split
  · unfold Disk.kindAt
    dsimp only
    rw [kindIn_filter]
    split
    · rename_i h
      exact Or.inr ⟨h.1, rfl⟩
    · exact Or.inl rfl
  · exact Or.inl rfl

theorem Disk.removeLeaf_below (d : Disk) (gone : Location) : Below (d.removeLeaf gone) d := by
  constructor
  intro loc kind hkind
  rcases d.kindAt_removeLeaf gone loc with hsame | ⟨_, hnone⟩
  · rw [<- hsame]
    exact hkind
  · rw [hnone] at hkind
    cases hkind

/-- An entry that is not a directory is removed. -/
theorem Disk.kindAt_removeLeaf_self {d : Disk} {gone : Location} {kind : Kind}
    (hkind : d.kindAt gone = some kind) (hfile : kind ≠ Kind.dir) :
    (d.removeLeaf gone).kindAt gone = none := by
  have hleaf : d.children gone = [] := by
    rw [List.eq_nil_iff_forall_not_mem]
    intro name hname
    have hdir := d.dir_of_child (d.mem_children.mp hname)
    rw [hkind] at hdir
    exact hfile (Option.some.inj hdir)
  have hroot : gone ≠ [] := by
    intro hnil
    rw [hnil] at hkind
    exact hfile (Option.some.inj hkind).symm
  unfold Disk.removeLeaf
  rw [dif_pos hleaf]
  unfold Disk.kindAt
  dsimp only
  rw [kindIn_filter, if_pos ⟨rfl, hroot⟩]

/-!
# Paths

The links that a path leads through are counted; a path that leads through too many is refused.
-/

/-- The parts of a path between the slashes. -/
def components : List UInt8 -> List Name
  | [] => [[]]
  | b :: rest =>
      if b = slash then [] :: components rest
      else
        match components rest with
        | [] => [[b]]
        | part :: parts => (b :: part) :: parts

/-- Where one part of a path leads: to a location, or to the target of a link. -/
inductive Move where
  | onto (loc : Location)
  | through (target : List UInt8)

def move (d : Disk) (loc : Location) (part : Name) : Option Move :=
  if d.kindAt loc ≠ some Kind.dir then none
  else if part = [] ∨ part = dot then some (Move.onto loc)
  else if part = dotDot then some (Move.onto loc.dropLast)
  else
    match d.kindAt (loc ++ [part]) with
    | none => none
    | some (Kind.link target) => some (Move.through target)
    | some _ => some (Move.onto (loc ++ [part]))

/-- The walk along the parts of a path.  The last part is followed when it is a link only if
{lit}`follow` says so. -/
def steps (d : Disk) (follow : Bool) (jump : Location -> List Name -> Option Location) :
    Location -> List Name -> Option Location
  | loc, [] => some loc
  | loc, part :: rest =>
      match move d loc part with
      | none => none
      | some (Move.onto loc') => steps d follow jump loc' rest
      | some (Move.through target) =>
          if rest = [] ∧ follow = false then some (loc ++ [part])
          else jump (if target.head? = some slash then [] else loc) (components target ++ rest)

def walk (d : Disk) (follow : Bool) : (links : Nat) -> Location -> List Name -> Option Location
  | 0 => steps d follow (fun _ _ => none)
  | links + 1 => steps d follow (walk d follow links)

/-- How many links a path may lead through. -/
def maxLinks : Nat := 32

section
variable (cwd : Location)

/-- The location that a path leads to. -/
def locate (d : Disk) (follow : Bool) (path : List UInt8) : Option Location :=
  if path = [] then none
  else
    walk d follow maxLinks (if path.head? = some slash then [] else cwd) (components path)

/-- The last part of a path that is not empty. -/
def finalName (path : List UInt8) : Option Name :=
  ((components path).filter (fun part => !part.isEmpty)).getLast?

/-- A path that ends in the entry itself or its parent names nothing to remove. -/
def endsInDots (path : List UInt8) : Bool :=
  finalName path == some dot || finalName path == some dotDot

def lstat (d : Disk) (path : List UInt8) : Option Kind :=
  (locate cwd d false path).bind d.kindAt

/-- The names in a directory, as {lit}`opendir` and {lit}`readdir` give them. -/
def opendir (d : Disk) (path : List UInt8) : Option (List Name) :=
  (locate cwd d true path).bind (fun loc =>
    if d.kindAt loc = some Kind.dir then some (dot :: dotDot :: d.children loc) else none)

def unlink (d : Disk) (path : List UInt8) : Disk :=
  match locate cwd d false path with
  | none => d
  | some loc =>
      if endsInDots path = true ∨ d.kindAt loc = some Kind.dir then d else d.removeLeaf loc

def rmdir (d : Disk) (path : List UInt8) : Disk :=
  match locate cwd d false path with
  | none => d
  | some loc =>
      if endsInDots path = true ∨ d.kindAt loc ≠ some Kind.dir then d else d.removeLeaf loc

end

/-!
# Moves
-/

variable {d d' : Disk} {follow : Bool}

theorem move_mono (hbelow : Below d d') {loc : Location} {part : Name} {m : Move}
    (h : move d loc part = some m) : move d' loc part = some m := by
  unfold move at h ⊢
  split at h
  · cases h
  rename_i hdir
  rw [if_neg (not_not_intro (hbelow.kind (not_not.mp hdir)))]
  split at h
  · rename_i hdot
    rw [if_pos hdot]
    exact h
  rename_i hdot
  rw [if_neg hdot]
  split at h
  · rename_i hup
    rw [if_pos hup]
    exact h
  rename_i hup
  rw [if_neg hup]
  cases hkind : d.kindAt (loc ++ [part]) with
  | none =>
      rw [hkind] at h
      cases h
  | some kind =>
      rw [hkind] at h
      rw [hbelow.kind hkind]
      exact h

/-- One more part leads from a directory to itself, to its parent or to one of its entries. -/
inductive Leads (d : Disk) (loc : Location) (part : Name) : Location -> Prop where
  | stay (h : part = [] ∨ part = dot) : Leads d loc part loc
  | up (h : part = dotDot) : Leads d loc part loc.dropLast
  | down (h : (d.kindAt (loc ++ [part])).isSome = true) : Leads d loc part (loc ++ [part])

theorem move_dir {loc : Location} {part : Name} {m : Move} (h : move d loc part = some m) :
    d.kindAt loc = some Kind.dir := by
  unfold move at h
  split at h
  · cases h
  · rename_i hdir
    exact not_not.mp hdir

theorem move_onto {loc : Location} {part : Name} {found : Location}
    (h : move d loc part = some (Move.onto found)) : Leads d loc part found := by
  unfold move at h
  split at h
  · cases h
  split at h
  · rename_i hdot
    cases h
    exact Leads.stay hdot
  split at h
  · rename_i hup
    cases h
    exact Leads.up hup
  cases hkind : d.kindAt (loc ++ [part]) with
  | none =>
      rw [hkind] at h
      cases h
  | some kind =>
      rw [hkind] at h
      cases kind with
      | dir =>
          cases h
          exact Leads.down (by rw [hkind]; rfl)
      | file size =>
          cases h
          exact Leads.down (by rw [hkind]; rfl)
      | link target => cases h

theorem move_through {loc : Location} {part : Name} {target : List UInt8}
    (h : move d loc part = some (Move.through target)) :
    d.kindAt (loc ++ [part]) = some (Kind.link target) := by
  unfold move at h
  split at h
  · cases h
  split at h
  · cases h
  split at h
  · cases h
  cases hkind : d.kindAt (loc ++ [part]) with
  | none =>
      rw [hkind] at h
      cases h
  | some kind =>
      rw [hkind] at h
      cases kind with
      | dir => cases h
      | file size => cases h
      | link target =>
          cases h
          rfl

/-- The name of an entry leads to it, or to the target of the link that it is. -/
theorem move_entry {loc : Location} {name : Name} {kind : Kind} (hname : Proper name)
    (hdir : d.kindAt loc = some Kind.dir) (hkind : d.kindAt (loc ++ [name]) = some kind) :
    move d loc name = some (Move.onto (loc ++ [name])) ∨
      exists target, move d loc name = some (Move.through target) := by
  unfold move
  rw [if_neg (not_not_intro hdir), if_neg (fun h => h.elim hname.nonempty hname.not_dot),
    if_neg hname.not_dotDot, hkind]
  cases kind with
  | dir => exact Or.inl rfl
  | file size => exact Or.inl rfl
  | link target => exact Or.inr ⟨target, rfl⟩

/-!
# Walks
-/

section
variable {jump jump' : Location -> List Name -> Option Location}

/-- What a walk finds on a disk it finds on every disk that has more entries. -/
theorem steps_mono (hbelow : Below d d')
    (hjump : forall {loc parts found}, jump loc parts = some found ->
      jump' loc parts = some found)
    {loc : Location} {parts : List Name} {found : Location}
    (h : steps d follow jump loc parts = some found) :
    steps d' follow jump' loc parts = some found := by
  induction parts generalizing loc with
  | nil => exact h
  | cons part rest ih =>
      rw [steps] at h ⊢
      cases hmove : move d loc part with
      | none =>
          rw [hmove] at h
          cases h
      | some m =>
          rw [hmove] at h
          rw [move_mono hbelow hmove]
          cases m with
          | onto loc' => exact ih h
          | through target =>
              dsimp only at h ⊢
              split
              · rename_i hlast
                rw [if_pos hlast] at h
                exact h
              · rename_i hlast
                rw [if_neg hlast] at h
                exact hjump h

/-- A walk that does not end at a link is the same when the last link is followed. -/
theorem steps_follow {found : Location}
    (hfound : forall target, d.kindAt found ≠ some (Kind.link target))
    (hjump : forall {loc parts}, jump loc parts = some found -> jump' loc parts = some found)
    {loc : Location} {parts : List Name} (h : steps d false jump loc parts = some found) :
    steps d true jump' loc parts = some found := by
  induction parts generalizing loc with
  | nil => exact h
  | cons part rest ih =>
      rw [steps] at h ⊢
      cases hmove : move d loc part with
      | none =>
          rw [hmove] at h
          cases h
      | some m =>
          rw [hmove] at h
          cases m with
          | onto loc' => exact ih h
          | through target =>
              dsimp only at h ⊢
              rw [if_neg (fun hlast => Bool.false_ne_true hlast.2.symm)]
              split at h
              · cases h
                exact absurd (move_through hmove) (hfound target)
              · exact hjump h

/-- A walk along one more part starts from what the walk before it leads to, links followed. -/
theorem steps_concat {last : Name} {found : Location}
    (hjump : forall {loc parts}, jump loc (parts ++ [last]) = some found ->
      exists loc', jump' loc parts = some loc' ∧ d.kindAt loc' = some Kind.dir ∧
        Leads d loc' last found)
    {loc : Location} {parts : List Name}
    (h : steps d false jump loc (parts ++ [last]) = some found) :
    exists loc', steps d true jump' loc parts = some loc' ∧ d.kindAt loc' = some Kind.dir ∧
      Leads d loc' last found := by
  induction parts generalizing loc with
  | nil =>
      rw [List.nil_append, steps] at h
      cases hmove : move d loc last with
      | none =>
          rw [hmove] at h
          cases h
      | some m =>
          refine ⟨loc, rfl, move_dir hmove, ?_⟩
          rw [hmove] at h
          cases m with
          | onto loc' =>
              cases h
              exact move_onto hmove
          | through target =>
              dsimp only at h
              rw [if_pos ⟨rfl, rfl⟩] at h
              cases h
              exact Leads.down (by rw [move_through hmove]; rfl)
  | cons part rest ih =>
      rw [List.cons_append, steps] at h
      rw [steps]
      cases hmove : move d loc part with
      | none =>
          rw [hmove] at h
          cases h
      | some m =>
          rw [hmove] at h
          cases m with
          | onto loc' => exact ih h
          | through target =>
              dsimp only at h ⊢
              rw [if_neg (fun hlast => List.append_ne_nil_of_right_ne_nil rest
                (List.cons_ne_nil last []) hlast.1), <- List.append_assoc] at h
              rw [if_neg (fun hlast => Bool.false_ne_true hlast.2.symm)]
              exact hjump h

/-- The entry of a directory is found where the directory is. -/
theorem steps_entry {name : Name} {found : Location} (hname : Proper name)
    (hdir : d.kindAt found = some Kind.dir) {kind : Kind}
    (hkind : d.kindAt (found ++ [name]) = some kind)
    (hjump : forall {loc parts}, jump loc parts = some found ->
      jump' loc (parts ++ [name]) = some (found ++ [name]))
    {loc : Location} {parts : List Name} (h : steps d true jump loc parts = some found) :
    steps d false jump' loc (parts ++ [name]) = some (found ++ [name]) := by
  induction parts generalizing loc with
  | nil =>
      cases h
      rw [List.nil_append, steps]
      rcases move_entry hname hdir hkind with hmove | ⟨target, hmove⟩
      · rw [hmove]
        rfl
      · rw [hmove]
        dsimp only
        rw [if_pos ⟨rfl, rfl⟩]
  | cons part rest ih =>
      rw [steps] at h
      rw [List.cons_append, steps]
      cases hmove : move d loc part with
      | none =>
          rw [hmove] at h
          cases h
      | some m =>
          rw [hmove] at h
          cases m with
          | onto loc' => exact ih h
          | through target =>
              dsimp only at h ⊢
              rw [if_neg (fun hlast => Bool.false_ne_true hlast.2.symm)] at h
              rw [if_neg (fun hlast => List.append_ne_nil_of_right_ne_nil rest
                (List.cons_ne_nil name []) hlast.1), <- List.append_assoc]
              exact hjump h

theorem steps_exists
    (hjump : forall {loc parts found}, jump loc parts = some found ->
      exists loc', jump' loc parts = some loc')
    {loc : Location} {parts : List Name} {found : Location}
    (h : steps d true jump loc parts = some found) :
    exists loc', steps d false jump' loc parts = some loc' := by
  induction parts generalizing loc with
  | nil => exact ⟨loc, rfl⟩
  | cons part rest ih =>
      rw [steps] at h ⊢
      cases hmove : move d loc part with
      | none =>
          rw [hmove] at h
          cases h
      | some m =>
          rw [hmove] at h
          cases m with
          | onto loc' => exact ih h
          | through target =>
              dsimp only at h ⊢
              rw [if_neg (fun hlast => Bool.false_ne_true hlast.2.symm)] at h
              split
              · exact ⟨_, rfl⟩
              · exact hjump h

end

section
variable {links : Nat} {loc : Location} {parts : List Name} {found : Location}

theorem walk_mono (hbelow : Below d d') (h : walk d follow links loc parts = some found) :
    walk d' follow links loc parts = some found := by
  induction links generalizing loc parts found with
  | zero => exact steps_mono hbelow (fun h => h) h
  | succ links ih => exact steps_mono hbelow ih h

theorem walk_follow (hfound : forall target, d.kindAt found ≠ some (Kind.link target))
    (h : walk d false links loc parts = some found) : walk d true links loc parts = some found := by
  induction links generalizing loc parts with
  | zero => exact steps_follow hfound (fun h => h) h
  | succ links ih => exact steps_follow hfound ih h

theorem walk_concat {last : Name} (h : walk d false links loc (parts ++ [last]) = some found) :
    exists loc', walk d true links loc parts = some loc' ∧ d.kindAt loc' = some Kind.dir ∧
      Leads d loc' last found := by
  induction links generalizing loc parts with
  | zero => exact steps_concat (fun h => absurd h.symm (Option.some_ne_none _)) h
  | succ links ih => exact steps_concat ih h

theorem walk_entry {name : Name} (hname : Proper name) (hdir : d.kindAt found = some Kind.dir)
    {kind : Kind} (hkind : d.kindAt (found ++ [name]) = some kind)
    (h : walk d true links loc parts = some found) :
    walk d false links loc (parts ++ [name]) = some (found ++ [name]) := by
  induction links generalizing loc parts with
  | zero => exact steps_entry hname hdir hkind (fun h => absurd h.symm (Option.some_ne_none _)) h
  | succ links ih => exact steps_entry hname hdir hkind (fun h => ih h) h

/-- A path that leads somewhere names an entry, be it a link. -/
theorem walk_exists (h : walk d true links loc parts = some found) :
    exists loc', walk d false links loc parts = some loc' := by
  induction links generalizing loc parts found with
  | zero => exact steps_exists (fun h => absurd h.symm (Option.some_ne_none _)) h
  | succ links ih => exact steps_exists ih h

end

/-!
# Paths with one more name
-/

theorem components_ne_nil (path : List UInt8) : components path ≠ [] := by
  cases path with
  | nil => exact List.cons_ne_nil _ _
  | cons b rest =>
      rw [components]
      split
      · exact List.cons_ne_nil _ _
      · split
        · exact List.cons_ne_nil _ _
        · exact List.cons_ne_nil _ _

theorem components_of_one {name : Name} (hone : slash ∉ name) : components name = [name] := by
  induction name with
  | nil => rfl
  | cons b rest ih =>
      have hb : b ≠ slash := fun h => hone (List.mem_cons.mpr (Or.inl h.symm))
      rw [components, if_neg hb, ih (fun h => hone (List.mem_cons_of_mem b h))]

theorem components_concat (path : List UInt8) {name : Name} (hone : slash ∉ name) :
    components (path ++ slash :: name) = components path ++ [name] := by
  induction path with
  | nil =>
      have hfirst : components (slash :: name) = [] :: components name := rfl
      rw [List.nil_append, hfirst, components_of_one hone]
      rfl
  | cons b rest ih =>
      rw [List.cons_append, components, components, ih]
      split
      · rfl
      · cases hparts : components rest with
        | nil => exact absurd hparts (components_ne_nil rest)
        | cons part parts => rfl

theorem finalName_concat (path : List UInt8) {name : Name} (hone : slash ∉ name)
    (hne : name ≠ []) : finalName (path ++ slash :: name) = some name := by
  have hkeep : [name].filter (fun part => !part.isEmpty) = [name] := by
    apply List.filter_cons_of_pos
    rw [Bool.not_eq_true', List.isEmpty_eq_false_iff]
    exact hne
  unfold finalName
  rw [components_concat path hone, List.filter_append, hkeep, List.getLast?_concat]

section
variable {cwd : Location} {path : List UInt8} {found : Location}

theorem locate_mono (hbelow : Below d d') (h : locate cwd d follow path = some found) :
    locate cwd d' follow path = some found := by
  unfold locate at h ⊢
  split at h
  · cases h
  · rename_i hne
    rw [if_neg hne]
    exact walk_mono hbelow h

theorem locate_follow (hfound : forall target, d.kindAt found ≠ some (Kind.link target))
    (h : locate cwd d false path = some found) : locate cwd d true path = some found := by
  unfold locate at h ⊢
  split at h
  · cases h
  · rename_i hne
    rw [if_neg hne]
    exact walk_follow hfound h

theorem locate_exists (h : locate cwd d true path = some found) :
    exists loc, locate cwd d false path = some loc := by
  unfold locate at h ⊢
  split at h
  · cases h
  · rename_i hne
    rw [if_neg hne]
    exact walk_exists h

theorem head_concat {path : List UInt8} (hne : path ≠ []) (more : List UInt8) :
    (path ++ more).head? = path.head? := by
  cases path with
  | nil => exact absurd rfl hne
  | cons b rest => rfl

theorem locate_concat {name : Name} (hne : path ≠ []) (hone : slash ∉ name)
    (h : locate cwd d false (path ++ slash :: name) = some found) :
    exists loc, locate cwd d true path = some loc ∧ d.kindAt loc = some Kind.dir ∧
      Leads d loc name found := by
  unfold locate at h ⊢
  rw [if_neg (List.append_ne_nil_of_left_ne_nil hne _), head_concat hne,
    components_concat path hone] at h
  rw [if_neg hne]
  exact walk_concat h

theorem locate_entry {name : Name} (hname : Proper name) (hdir : d.kindAt found = some Kind.dir)
    {kind : Kind} (hkind : d.kindAt (found ++ [name]) = some kind)
    (h : locate cwd d true path = some found) :
    locate cwd d false (path ++ slash :: name) = some (found ++ [name]) := by
  unfold locate at h ⊢
  split at h
  · cases h
  · rename_i hne
    rw [if_neg (List.append_ne_nil_of_left_ne_nil hne _), head_concat hne,
      components_concat path hname.one]
    exact walk_entry hname hdir hkind h

end

/-!
# What a call removes
-/

/-- The entry at a location is on the one disk and not on the other. -/
structure Gone (d d' : Disk) (loc : Location) : Prop where
  was : (d.kindAt loc).isSome = true
  now : d'.kindAt loc = none

theorem Gone.split {d d' d'' : Disk} {loc : Location} (h : Gone d d'' loc) :
    Gone d d' loc ∨ Gone d' d'' loc := by
  cases hmid : d'.kindAt loc with
  | none => exact Or.inl ⟨h.was, hmid⟩
  | some kind => exact Or.inr ⟨by rw [hmid]; rfl, h.now⟩

theorem not_gone_self {d : Disk} {loc : Location} : ¬Gone d d loc := by
  rintro ⟨hwas, hnow⟩
  rw [hnow] at hwas
  cases hwas

theorem Disk.gone_removeLeaf {d : Disk} {gone loc : Location}
    (h : Gone d (d.removeLeaf gone) loc) : loc = gone := by
  rcases d.kindAt_removeLeaf gone loc with hsame | ⟨heq, _⟩
  · have hwas := h.was
    rw [<- hsame, h.now] at hwas
    cases hwas
  · exact heq

section
variable {cwd : Location} {path : List UInt8} {loc : Location}

theorem unlink_cases (cwd : Location) (d : Disk) (path : List UInt8) :
    unlink cwd d path = d ∨
      exists loc, locate cwd d false path = some loc ∧ unlink cwd d path = d.removeLeaf loc := by
  unfold unlink
  cases locate cwd d false path with
  | none => exact Or.inl rfl
  | some loc =>
      dsimp only
      split
      · exact Or.inl rfl
      · exact Or.inr ⟨loc, rfl, rfl⟩

theorem rmdir_cases (cwd : Location) (d : Disk) (path : List UInt8) :
    rmdir cwd d path = d ∨
      exists loc, locate cwd d false path = some loc ∧ rmdir cwd d path = d.removeLeaf loc := by
  unfold rmdir
  cases locate cwd d false path with
  | none => exact Or.inl rfl
  | some loc =>
      dsimp only
      split
      · exact Or.inl rfl
      · exact Or.inr ⟨loc, rfl, rfl⟩

theorem unlink_of_dots (h : endsInDots path = true) (d : Disk) : unlink cwd d path = d := by
  unfold unlink
  cases locate cwd d false path with
  | none => rfl
  | some loc =>
      dsimp only
      rw [if_pos (Or.inl h)]

theorem rmdir_of_dots (h : endsInDots path = true) (d : Disk) : rmdir cwd d path = d := by
  unfold rmdir
  cases locate cwd d false path with
  | none => rfl
  | some loc =>
      dsimp only
      rw [if_pos (Or.inl h)]

/-- Changes that remove no more than the entry that the path names. -/
structure RemovesAt (cwd : Location) (d d' : Disk) (path : List UInt8) : Prop where
  below : Below d' d
  only : forall {loc}, Gone d d' loc -> locate cwd d false path = some loc

theorem unlink_removes (cwd : Location) (d : Disk) (path : List UInt8) :
    RemovesAt cwd d (unlink cwd d path) path := by
  rcases unlink_cases cwd d path with hsame | ⟨loc, hloc, heq⟩
  · rw [hsame]
    exact ⟨Below.refl d, fun h => absurd h not_gone_self⟩
  · rw [heq]
    exact ⟨d.removeLeaf_below loc, fun h => by rw [Disk.gone_removeLeaf h, hloc]⟩

theorem rmdir_removes (cwd : Location) (d : Disk) (path : List UInt8) :
    RemovesAt cwd d (rmdir cwd d path) path := by
  rcases rmdir_cases cwd d path with hsame | ⟨loc, hloc, heq⟩
  · rw [hsame]
    exact ⟨Below.refl d, fun h => absurd h not_gone_self⟩
  · rw [heq]
    exact ⟨d.removeLeaf_below loc, fun h => by rw [Disk.gone_removeLeaf h, hloc]⟩

theorem unlink_gone {kind : Kind} (hloc : locate cwd d false path = some loc)
    (hkind : d.kindAt loc = some kind) (hfile : kind ≠ Kind.dir) (hdots : endsInDots path = false) :
    (unlink cwd d path).kindAt loc = none := by
  unfold unlink
  rw [hloc]
  dsimp only
  rw [if_neg, Disk.kindAt_removeLeaf_self hkind hfile]
  rintro (hends | hdir)
  · rw [hdots] at hends
    cases hends
  · rw [hkind] at hdir
    exact hfile (Option.some.inj hdir)

end

/-!
# Real directories
-/

/-- An entry, and what is reached from it through directories that are no links. -/
inductive Reach (d : Disk) (top : Location) : Location -> Prop where
  | top : Reach d top top
  | entry {loc : Location} {name : Name} : Reach d top loc -> d.kindAt loc = some Kind.dir ->
      Reach d top (loc ++ [name])

/-- Every entry whose location goes on behind another is reached from it. -/
theorem reach_of_prefix {top loc : Location} (hbegins : top <+: loc)
    (hsome : (d.kindAt loc).isSome = true) : Reach d top loc := by
  rcases hbegins with ⟨behind, rfl⟩
  induction behind using List.reverseRecOn with
  | nil =>
      rw [List.append_nil]
      exact Reach.top
  | append_singleton more name ih =>
      rw [<- List.append_assoc] at hsome ⊢
      have hdir := d.dir_of_child hsome
      exact Reach.entry (ih (by rw [hdir]; rfl)) hdir

end Files
