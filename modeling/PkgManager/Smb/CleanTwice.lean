import Mathlib.Data.List.Chain
import PkgManager.Smb.Sanitize

/-!
# Cleaning a configuration twice

What cleaning makes of a share is cleaned again on other ways to it.  The fields other than the
server and the path are the same the second time.
-/

namespace PkgManager
namespace Smb

open CString
open PkgManager.Parser
open PkgManager.Scanner (lowerText)

/-- The texts fit in their arrays. -/
structure Terminated (cfg : SmbShare) : Prop where
  server : ZeroFree cfg.server ∧ cfg.server.length ≤ 127
  share : ZeroFree cfg.share ∧ cfg.share.length ≤ 127
  path : ZeroFree cfg.path ∧ cfg.path.length ≤ 255

/-!
# Texts without slashes
-/

/-- A text without slashes of either kind. -/
def Slashless (text : Text) : Prop :=
  forall b, b ∈ text -> isSlash b = false

theorem Slashless.sub {a b : Text} (h : Slashless b) (hsub : a.Sublist b) : Slashless a :=
  fun x hx => h x (hsub.subset hx)

theorem Slashless.takeWhile {text : Text} (h : Slashless text) : text.takeWhile notSlash = text := by
  rw [List.takeWhile_eq_self_iff]
  intro b hb
  rw [notSlash, h b hb]
  rfl

theorem Slashless.dropWhile {text : Text} (h : Slashless text) : text.dropWhile isSlash = text := by
  cases text with
  | nil => rfl
  | cons b rest =>
      apply List.dropWhile_cons_of_neg
      rw [h b List.mem_cons_self]
      exact Bool.false_ne_true

theorem Slashless.rest {text : Text} (h : Slashless text) : text.dropWhile notSlash = [] := by
  rw [List.dropWhile_eq_nil_iff]
  intro b hb
  rw [notSlash, h b hb]
  rfl

theorem slashless_takeWhile (text : Text) : Slashless (text.takeWhile notSlash) := by
  intro b hb
  have hnot := List.mem_takeWhile_imp hb
  rwa [notSlash, Bool.not_eq_true'] at hnot

/-!
# The ends of a text
-/

theorem front_iff {p : UInt8 -> Bool} {text : Text} :
    text.dropWhile p = text ↔ forall x, text.head? = some x -> p x = false := by
  cases text with
  | nil => simp
  | cons b rest =>
      rw [List.dropWhile_cons]
      constructor
      · intro h x hx
        cases hx
        rw [Bool.eq_false_iff]
        intro hb
        rw [if_pos hb] at h
        have hlen := (List.dropWhile_sublist (l := rest) p).length_le
        rw [h] at hlen
        exact Nat.not_succ_le_self _ hlen
      · intro h
        rw [if_neg (Bool.eq_false_iff.mp (h b rfl))]

theorem back_iff {p : UInt8 -> Bool} {text : Text} :
    text.rdropWhile p = text ↔ forall x, text.getLast? = some x -> p x = false := by
  rw [List.rdropWhile_eq_self_iff]
  constructor
  · intro h x hx
    have hne : text ≠ [] := by
      rintro rfl
      cases hx
    rw [List.getLast?_eq_some_getLast hne] at hx
    cases hx
    exact Bool.not_eq_true _ ▸ h hne
  · intro h hne
    rw [h _ (List.getLast?_eq_some_getLast hne)]
    exact Bool.false_ne_true

/-!
# The host
-/

theorem lower_slash {b : UInt8}
    (h : (if 65 ≤ b.toNat ∧ b.toNat ≤ 90 then b + 32 else b) = 47) : b = 47 := by
  split at h
  · rename_i hupper
    have hval := congrArg UInt8.toNat h
    rw [UInt8.toNat_add] at hval
    change (b.toNat + 32) % 256 = 47 at hval
    omega
  · exact h

/-- A scheme has slashes. -/
theorem Slashless.withoutScheme {text : Text} (h : Slashless text) : withoutScheme text = text := by
  unfold Smb.withoutScheme
  apply if_neg
  intro hscheme
  have hmem : (47 : UInt8) ∈ lowerText (text.take 6) := by
    rw [hscheme]
    decide
  rcases List.mem_map.mp hmem with ⟨b, hb, hlower⟩
  have hslash := h b (List.mem_of_mem_take hb)
  rw [lower_slash hlower] at hslash
  cases hslash

theorem rdropWhile_slashless {text : Text} (h : Slashless text) :
    text.rdropWhile isEdge = text.rdropWhile isBlank := by
  induction text using List.reverseRecOn with
  | nil => rfl
  | append_singleton rest b ih =>
      have hb := h b (List.mem_append_right rest List.mem_cons_self)
      have hedge : isEdge b = isBlank b := by
        rw [isEdge, hb, Bool.or_false]
      rw [List.rdropWhile_concat, List.rdropWhile_concat, hedge,
        ih (h.sub (List.sublist_append_left rest [b]))]

/-- Cleaning a host only trims it. -/
theorem cleanServer_slashless {text : Text} (h : Slashless text) (hzero : ZeroFree text)
    (hlen : text.length ≤ 127) :
    cleanServer text = (text.dropWhile isBlank).rdropWhile isBlank := by
  have hdrop : Slashless (text.dropWhile isBlank) := h.sub (List.dropWhile_sublist _)
  have hcopied : copied 128 (text.dropWhile isBlank) = text.dropWhile isBlank := by
    apply copied_whole
    · exact fun b hb => hzero b ((List.dropWhile_sublist _).subset hb)
    · exact (List.dropWhile_sublist _).length_le.trans hlen
  unfold cleanServer
  rw [hdrop.withoutScheme, hdrop.dropWhile, hcopied, rdropWhile_slashless hdrop]

theorem cleanHost_length_lt {host : Text} {parts : Text × Text}
    (h : embeddedPort host = some parts) : (cleanHost host).length < host.length := by
  have hcopy := h
  unfold embeddedPort at hcopy
  dsimp only at hcopy
  rcases Option.ite_none_right_eq_some.mp hcopy with ⟨⟨_, hfront, hdigits, _⟩, heq⟩
  cases heq
  unfold cleanHost
  rw [h]
  dsimp only
  rw [List.length_take]
  have hpos := List.length_pos_iff.mpr hdigits
  have hsome : host.length ≠ 0 := by
    intro hzero
    apply hfront
    rw [List.length_eq_zero_iff.mp hzero]
    rfl
  omega

/-- A host with no blank at its ends and no port behind it. -/
structure SettledHost (host : Text) : Prop where
  front : forall b, host.head? = some b -> isBlank b = false
  back : forall b, host.getLast? = some b -> isBlank b = false
  port : embeddedPort host = none

theorem SettledHost.trimmed {host : Text} (h : SettledHost host) :
    (host.dropWhile isBlank).rdropWhile isBlank = host := by
  rw [front_iff.mpr h.front, back_iff.mpr h.back]

theorem cleanHost_trimmed_iff (host : Text) :
    cleanHost ((host.dropWhile isBlank).rdropWhile isBlank) = host ↔ SettledHost host := by
  constructor
  · intro h
    have hclean := (cleanHost_starts ((host.dropWhile isBlank).rdropWhile isBlank)).length_le
    have hback := (List.rdropWhile_prefix isBlank (l := host.dropWhile isBlank)).length_le
    have hfront := (List.dropWhile_sublist (l := host) isBlank).length_le
    have hlen := congrArg List.length h
    have hdrop : host.dropWhile isBlank = host :=
      (List.dropWhile_sublist isBlank).eq_of_length (by omega)
    rw [hdrop] at h hclean hback hlen
    have hrdrop : host.rdropWhile isBlank = host :=
      (List.rdropWhile_prefix isBlank (l := host)).eq_of_length (by omega)
    rw [hrdrop] at h
    refine ⟨front_iff.mp hdrop, back_iff.mp hrdrop, ?_⟩
    cases hport : embeddedPort host with
    | none => rfl
    | some parts =>
        have hlt := cleanHost_length_lt hport
        rw [h] at hlt
        exact absurd hlt (Nat.lt_irrefl _)
  · intro h
    rw [h.trimmed, cleanHost, h.port]

/-!
# The path
-/

/-- Two slashes do not follow each other. -/
def Apart (a b : UInt8) : Prop :=
  ¬(a = 47 ∧ b = 47)

/-- A path with single slashes of one kind, which starts with something else. -/
structure Straight (path : Text) : Prop where
  apart : path.IsChain Apart
  plain : backslash ∉ path
  front : path.dropWhile isEdge = path

theorem collapsed_length (room : Nat) (behindSlash : Bool) (path : Text) :
    (collapsed room behindSlash path).length ≤ room := by
  induction path generalizing room behindSlash with
  | nil => exact Nat.zero_le room
  | cons b rest ih =>
      cases room with
      | zero => exact Nat.zero_le 0
      | succ room =>
          unfold collapsed
          dsimp only
          generalize (if b = backslash then 47 else b) = c
          split
          · exact ih (room + 1) behindSlash
          · exact Nat.succ_le_succ (ih room _)

theorem collapsed_straight (room : Nat) (behindSlash : Bool) (path : Text) :
    (collapsed room behindSlash path).IsChain Apart ∧
      backslash ∉ collapsed room behindSlash path ∧
        (behindSlash = true -> (collapsed room behindSlash path).head? ≠ some 47) := by
  induction path generalizing room behindSlash with
  | nil => simp [collapsed]
  | cons b rest ih =>
      cases room with
      | zero => simp [collapsed]
      | succ room =>
          have hslash : (if b = backslash then 47 else b) ≠ backslash := by
            split
            · decide
            · assumption
          unfold collapsed
          dsimp only
          generalize (if b = backslash then 47 else b) = c at hslash
          split
          · exact ih (room + 1) behindSlash
          · rename_i hkeep
            rcases ih room (c == 47) with ⟨hchain, hplain, hhead⟩
            refine ⟨?_, ?_, ?_⟩
            · rw [List.isChain_cons]
              refine ⟨?_, hchain⟩
              intro y hy hboth
              rw [hboth.right] at hy
              exact hhead (beq_iff_eq.mpr hboth.left) hy
            · intro hmem
              rcases List.mem_cons.mp hmem with heq | hmem
              · exact hslash heq.symm
              · exact hplain hmem
            · intro hbehind heq
              exact hkeep ⟨Option.some.inj heq, hbehind⟩

/-- A path with single slashes is left as it is. -/
theorem collapsed_same {path : Text} (hchain : path.IsChain Apart) (hplain : backslash ∉ path)
    {room : Nat} (hroom : path.length ≤ room) {behindSlash : Bool}
    (hhead : behindSlash = true -> path.head? ≠ some 47) :
    collapsed room behindSlash path = path := by
  induction path generalizing room behindSlash with
  | nil => simp [collapsed]
  | cons b rest ih =>
      have hb : b ≠ backslash := fun heq => hplain (heq ▸ List.mem_cons_self)
      rcases List.isChain_cons.mp hchain with ⟨hnext, hrest⟩
      cases room with
      | zero => cases hroom
      | succ room =>
          have hkeep : ¬(b = 47 ∧ behindSlash = true) := by
            rintro ⟨rfl, hbehind⟩
            exact hhead hbehind rfl
          have hbehind : (b == 47) = true -> rest.head? ≠ some 47 := by
            intro hslash heq
            exact hnext 47 heq ⟨beq_iff_eq.mp hslash, rfl⟩
          unfold collapsed
          simp only [if_neg hb]
          rw [if_neg hkeep, ih hrest (fun hmem => hplain (List.mem_cons_of_mem b hmem))
            (Nat.le_of_succ_le_succ hroom) hbehind]

theorem head_dropWhile (path : Text) {b : UInt8} (h : (path.dropWhile isEdge).head? = some b) :
    isEdge b = false := by
  rcases List.head?_eq_some_iff.mp h with ⟨rest, hrest⟩
  have hne : path.dropWhile isEdge ≠ [] := by
    rw [hrest]
    exact List.cons_ne_nil _ _
  have hnot := List.head_dropWhile_not isEdge hne
  simp only [hrest, List.head_cons] at hnot
  exact hnot

/-- A path starts with the byte that is found first. -/
theorem collapsed_head {path : Text} (hfront : path.dropWhile isEdge = path) (room : Nat) {b : UInt8}
    (h : (collapsed room false path).head? = some b) : isEdge b = false := by
  cases path with
  | nil => simp [collapsed] at h
  | cons c rest =>
      have hc : isEdge c = false := head_dropWhile (c :: rest) (by rw [hfront]; rfl)
      cases room with
      | zero => simp [collapsed] at h
      | succ room =>
          have hslash : c ≠ backslash := by
            rintro rfl
            cases hc
          unfold collapsed at h
          simp only [if_neg hslash, Bool.false_eq_true, and_false, if_false, List.head?_cons,
            Option.some.injEq] at h
          rw [<- h]
          exact hc

theorem straight_front {a b : Text} (h : Straight b) (hfront : a <+: b) : Straight a where
  apart := h.apart.prefix hfront
  plain hmem := h.plain (hfront.subset hmem)
  front := by
    apply front_iff.mpr
    intro x hx
    rcases hfront with ⟨rest, rfl⟩
    apply head_dropWhile (a ++ rest)
    rw [h.front]
    cases a with
    | nil => cases hx
    | cons y a => exact hx

theorem cleanPath_straight (path : Text) : Straight (cleanPath path) := by
  rcases collapsed_straight 255 false (path.dropWhile isEdge) with ⟨hchain, hplain, _⟩
  have hwhole : Straight (collapsed 255 false (path.dropWhile isEdge)) := by
    refine ⟨hchain, hplain, front_iff.mpr ?_⟩
    intro b hb
    exact collapsed_head (List.dropWhile_idempotent _ _) 255 hb
  exact straight_front hwhole (List.rdropWhile_prefix isEdge _)

theorem cleanPath_back (path : Text) : (cleanPath path).rdropWhile isEdge = cleanPath path :=
  List.rdropWhile_idempotent isEdge _

theorem cleanPath_length (path : Text) : (cleanPath path).length ≤ 255 :=
  (List.rdropWhile_prefix isEdge _).length_le.trans (collapsed_length 255 false _)

/-- Only the end of a straight path is cleaned. -/
theorem cleanPath_of_straight {path : Text} (h : Straight path) (hlen : path.length ≤ 255) :
    cleanPath path = path.rdropWhile isEdge := by
  unfold cleanPath
  rw [h.front, collapsed_same h.apart h.plain hlen (fun hno => by cases hno)]

theorem mem_collapsed {room : Nat} {behindSlash : Bool} {path : Text} {x : UInt8}
    (h : x ∈ collapsed room behindSlash path) : x = 47 ∨ x ∈ path := by
  induction path generalizing room behindSlash with
  | nil => simp [collapsed] at h
  | cons b rest ih =>
      cases room with
      | zero => simp [collapsed] at h
      | succ room =>
          have hbyte : (if b = backslash then 47 else b) = 47 ∨
              (if b = backslash then 47 else b) = b := by
            split
            · exact Or.inl rfl
            · exact Or.inr rfl
          unfold collapsed at h
          dsimp only at h
          generalize (if b = backslash then 47 else b) = c at h hbyte
          split at h
          · exact (ih h).imp id (List.mem_cons_of_mem b)
          · rcases List.mem_cons.mp h with heq | hmem
            · rw [heq]
              rcases hbyte with hslash | hsame
              · exact Or.inl hslash
              · rw [hsame]
                exact Or.inr List.mem_cons_self
            · exact (ih hmem).imp id (List.mem_cons_of_mem b)

theorem zeroFree_cleanPath {path : Text} (h : ZeroFree path) : ZeroFree (cleanPath path) := by
  intro x hx
  rcases mem_collapsed ((List.rdropWhile_prefix isEdge _).subset hx) with rfl | hmem
  · decide
  · exact h x ((List.dropWhile_sublist _).subset hmem)

/-!
# Two paths joined
-/

/-- A path that is cut ends in the last byte that there is room for. -/
theorem cut_back_iff {path : Text} (h : path.rdropWhile isEdge = path) :
    (path.take 255).rdropWhile isEdge = path.take 255 ↔
      forall x, path[254]? = some x -> isEdge x = false := by
  rcases Nat.lt_or_ge 255 path.length with hlong | hshort
  · rw [back_iff, List.getLast?_take, if_neg (by decide)]
    have hsome : (path[255 - 1]?).or path.getLast? = path[254]? := by
      rw [List.getElem?_eq_getElem (by omega : 255 - 1 < path.length)]
      rfl
    rw [hsome]
  · rw [List.take_of_length_le hshort]
    constructor
    · intro hback x hx
      apply back_iff.mp hback x
      rw [List.getLast?_eq_getElem?]
      have hlen := (List.getElem?_eq_some_iff.mp hx).choose
      rw [show path.length - 1 = 254 by omega]
      exact hx
    · exact fun _ => h

theorem joined_straight {sub path : Text} (hsub : Straight sub) (hpath : Straight path)
    (hback : sub.rdropWhile isEdge = sub) (hne : sub ≠ []) :
    Straight (sub ++ 47 :: path) where
  apart := by
    rw [List.isChain_append]
    refine ⟨hsub.apart, ?_, ?_⟩
    · rw [List.isChain_cons]
      refine ⟨?_, hpath.apart⟩
      rintro y hy ⟨_, rfl⟩
      have hedge := head_dropWhile (b := 47) path (by rw [hpath.front]; exact hy)
      cases hedge
    · rintro x hx y hy ⟨rfl, _⟩
      have hedge := back_iff.mp hback 47 hx
      cases hedge
  plain hmem := by
    rcases List.mem_append.mp hmem with hmem | hmem
    · exact hsub.plain hmem
    · rcases List.mem_cons.mp hmem with heq | hmem
      · cases heq
      · exact hpath.plain hmem
  front := by
    apply front_iff.mpr
    intro b hb
    apply head_dropWhile sub
    rw [hsub.front]
    cases sub with
    | nil => exact absurd rfl hne
    | cons c rest => exact hb

/-- Where two clean paths are joined, the byte that the array ends in is no blank and no
slash. -/
def JoinsClean (sub path : Text) : Prop :=
  sub ≠ [] -> path ≠ [] -> forall x, (sub ++ 47 :: path)[254]? = some x -> isEdge x = false

theorem joinedPath_again {sub path : Text} (hsub : ZeroFree sub) (hpath : ZeroFree path) :
    copied 256 (cleanPath (copied 256 (joinedPath (cleanPath sub) (cleanPath path)))) =
        copied 256 (joinedPath (cleanPath sub) (cleanPath path)) ↔
      JoinsClean (cleanPath sub) (cleanPath path) := by
  have hone : forall t : Text, ZeroFree t -> copied 256 (cleanPath t) = cleanPath t :=
    fun t ht => copied_whole (zeroFree_cleanPath ht) (cleanPath_length t)
  have hagain : forall t : Text, ZeroFree t -> cleanPath (cleanPath t) = cleanPath t := by
    intro t ht
    rw [cleanPath_of_straight (cleanPath_straight t) (cleanPath_length t), cleanPath_back]
  unfold joinedPath
  split
  · rename_i hnil
    rw [hone path hpath, hagain path hpath, hone path hpath]
    exact ⟨fun _ hne => absurd hnil hne, fun _ => rfl⟩
  · rename_i hne
    split
    · rename_i hnil
      rw [hone sub hsub, hagain sub hsub, hone sub hsub]
      exact ⟨fun _ _ hne => absurd hnil hne, fun _ => rfl⟩
    · rename_i hne'
      have hjoin : cleanPath sub ++ ascii "/" ++ cleanPath path =
          cleanPath sub ++ 47 :: cleanPath path := by
        rw [List.append_assoc]
        rfl
      have hzero : ZeroFree (cleanPath sub ++ 47 :: cleanPath path) := by
        apply zeroFree_append (zeroFree_cleanPath hsub)
        intro x hx
        rcases List.mem_cons.mp hx with rfl | hx
        · decide
        · exact zeroFree_cleanPath hpath x hx
      have hback : (cleanPath sub ++ 47 :: cleanPath path).rdropWhile isEdge =
          cleanPath sub ++ 47 :: cleanPath path := by
        rw [back_iff]
        intro x hx
        apply back_iff.mp (cleanPath_back path) x
        rw [List.getLast?_append, List.getLast?_cons] at hx
        rw [List.getLast?_eq_some_getLast hne'] at hx ⊢
        simpa using hx
      have hstraight := joined_straight (cleanPath_straight sub) (cleanPath_straight path)
        (cleanPath_back sub) hne
      have hcut : ZeroFree ((cleanPath sub ++ 47 :: cleanPath path).take 255) :=
        fun x hx => hzero x (List.mem_of_mem_take hx)
      have hlen : ((cleanPath sub ++ 47 :: cleanPath path).take 255).length ≤ 255 :=
        List.length_take_le _ _
      have hcopied : copied 256 (cleanPath sub ++ 47 :: cleanPath path) =
          (cleanPath sub ++ 47 :: cleanPath path).take 255 := cString_of_zeroFree hcut
      rw [hjoin, hcopied, copied_whole hcut hlen, cleanPath_of_straight (straight_front hstraight (List.take_prefix _ _))
        hlen, copied_whole (fun x hx => hcut x ((List.rdropWhile_prefix isEdge _).subset hx))
        ((List.rdropWhile_prefix isEdge _).length_le.trans hlen), cut_back_iff hback]
      exact ⟨fun h _ _ => h, fun h => h hne hne'⟩

/-!
# The other fields
-/

/-- {lit}`cfg->share` -/
def cleanShare (share : Text) : Text :=
  copied 128 ((copied 128 (share.dropWhile isEdge)).rdropWhile isEdge)

theorem cleanShare_again (share : Text) : cleanShare (cleanShare share) = cleanShare share := by
  have hfits : forall t : Text, t <+: copied 128 (share.dropWhile isEdge) ->
      copied 128 t = t := by
    intro t ht
    apply copied_whole
    · exact fun b hb => zeroFree_copied 128 _ b (ht.subset hb)
    · exact ht.length_le.trans (copied_length 128 _)
  have hclean := hfits _ (List.rdropWhile_prefix isEdge _)
  have hstart : (copied 128 (share.dropWhile isEdge)).rdropWhile isEdge <+:
      share.dropWhile isEdge :=
    (List.rdropWhile_prefix isEdge _).trans ((cString_starts _).trans (List.take_prefix _ _))
  have hfront : ((copied 128 (share.dropWhile isEdge)).rdropWhile isEdge).dropWhile isEdge =
      (copied 128 (share.dropWhile isEdge)).rdropWhile isEdge := by
    apply front_iff.mpr
    intro b hb
    rcases hstart with ⟨rest, hrest⟩
    apply head_dropWhile share
    rw [<- hrest, List.head?_append, hb]
    rfl
  rw [cleanShare, cleanShare, hclean, hfront, hclean, List.rdropWhile_idempotent, hclean]

theorem trimmedField_again (text : Text) :
    trimmedField (trimmedField text) = trimmedField text := by
  have hfront : (trimmedField text).dropWhile (fun b => b == 32 || b == 9) = trimmedField text := by
    unfold trimmedField
    cases hrest : (text.dropWhile (fun b => b == 32 || b == 9)).rdropWhile isBlank with
    | nil => rfl
    | cons b rest =>
        apply List.dropWhile_cons_of_neg
        have hfront := List.rdropWhile_prefix isBlank (text.dropWhile (fun b => b == 32 || b == 9))
        rw [hrest] at hfront
        rcases hfront with ⟨more, hmore⟩
        have hne : text.dropWhile (fun b => b == 32 || b == 9) ≠ [] := by
          rw [<- hmore]
          exact List.cons_ne_nil _ _
        have hnot := List.head_dropWhile_not (fun b => b == 32 || b == 9) hne
        simp only [<- hmore, List.cons_append, List.head_cons] at hnot
        rw [hnot]
        exact Bool.false_ne_true
  unfold trimmedField at hfront ⊢
  rw [hfront, List.rdropWhile_idempotent]

theorem cleanWorkgroup_again (workgroup : Text) :
    cleanWorkgroup (cleanWorkgroup workgroup) = cleanWorkgroup workgroup := by
  have hdefault : cleanWorkgroup (ascii "WORKGROUP") = ascii "WORKGROUP" := by
    decide
  by_cases hnil : trimmedField workgroup = []
  · rw [show cleanWorkgroup workgroup = ascii "WORKGROUP" from if_pos hnil, hdefault]
  · rw [show cleanWorkgroup workgroup = trimmedField workgroup from if_neg hnil]
    unfold cleanWorkgroup
    rw [trimmedField_again, if_neg hnil]

/-!
# The configuration
-/

/-- The host that is left of a server. -/
def hostOf (server : Text) : Text :=
  cleanHost ((cleanServer server).takeWhile notSlash)

theorem hostOf_starts (server : Text) : hostOf server <+: cleanServer server :=
  (cleanHost_starts _).trans (List.takeWhile_prefix _)

theorem hostOf_slashless (server : Text) : Slashless (hostOf server) :=
  (slashless_takeWhile _).sub (cleanHost_starts _).sublist

theorem hostOf_fits (server : Text) : ZeroFree (hostOf server) ∧ (hostOf server).length ≤ 127 := by
  have hstart : hostOf server <+: copied 128 _ :=
    (hostOf_starts server).trans (List.rdropWhile_prefix isEdge _)
  constructor
  · exact fun b hb => zeroFree_copied 128 _ b (hstart.subset hb)
  · exact hstart.length_le.trans (copied_length 128 _)

theorem sanitized_server (cfg : SmbShare) :
    (smbClientSanitizeConfig cfg).server = hostOf cfg.server :=
  copied_whole (hostOf_fits cfg.server).left (hostOf_fits cfg.server).right

theorem sanitized_port (cfg : SmbShare) : (smbClientSanitizeConfig cfg).port =
    cleanPort cfg.port ((cleanServer cfg.server).takeWhile notSlash) := by
  unfold smbClientSanitizeConfig
  dsimp only

theorem sanitized_share (cfg : SmbShare) : (smbClientSanitizeConfig cfg).share =
    cleanShare (if cfg.share = [] then extractedShare (cleanServer cfg.server)
      else cfg.share) := by
  unfold smbClientSanitizeConfig cleanShare
  dsimp only

theorem sanitized_path (cfg : SmbShare) : (smbClientSanitizeConfig cfg).path =
    copied 256 (joinedPath (cleanPath (extractedSubpath (cleanServer cfg.server)))
      (cleanPath cfg.path)) := by
  unfold smbClientSanitizeConfig
  dsimp only

theorem sanitized_username (cfg : SmbShare) :
    (smbClientSanitizeConfig cfg).username = trimmedField cfg.username := by
  unfold smbClientSanitizeConfig
  dsimp only

theorem sanitized_workgroup (cfg : SmbShare) :
    (smbClientSanitizeConfig cfg).workgroup = cleanWorkgroup cfg.workgroup := by
  unfold smbClientSanitizeConfig
  dsimp only

/-- Nothing but these fields is cleaned. -/
theorem sanitized_same {cfg : SmbShare}
    (hserver : (smbClientSanitizeConfig cfg).server = cfg.server)
    (hport : (smbClientSanitizeConfig cfg).port = cfg.port)
    (hshare : (smbClientSanitizeConfig cfg).share = cfg.share)
    (hpath : (smbClientSanitizeConfig cfg).path = cfg.path)
    (husername : (smbClientSanitizeConfig cfg).username = cfg.username)
    (hworkgroup : (smbClientSanitizeConfig cfg).workgroup = cfg.workgroup) :
    smbClientSanitizeConfig cfg = cfg := by
  unfold smbClientSanitizeConfig at hserver hport hshare hpath husername hworkgroup ⊢
  dsimp only at hserver hport hshare hpath husername hworkgroup ⊢
  rw [hserver, hport, hshare, hpath, husername, hworkgroup]

theorem cleaned_server {cfg : SmbShare} :
    cleanServer (smbClientSanitizeConfig cfg).server =
      ((hostOf cfg.server).dropWhile isBlank).rdropWhile isBlank := by
  rw [sanitized_server, cleanServer_slashless (hostOf_slashless _) (hostOf_fits _).left
    (hostOf_fits _).right]

theorem cleaned_slashless (server : Text) :
    Slashless (((hostOf server).dropWhile isBlank).rdropWhile isBlank) :=
  (hostOf_slashless server).sub
    ((List.rdropWhile_prefix isBlank _).sublist.trans (List.dropWhile_sublist _))

/-- Nothing is left to split a second time. -/
theorem nothing_extracted {clean : Text} (h : Slashless clean) :
    extractedShare clean = [] ∧ extractedSubpath clean = [] := by
  unfold extractedShare extractedSubpath behindServer
  rw [h.rest]
  exact ⟨rfl, rfl⟩

section Second

variable (cfg : SmbShare)

theorem second_server :
    (smbClientSanitizeConfig (smbClientSanitizeConfig cfg)).server =
      cleanHost (((hostOf cfg.server).dropWhile isBlank).rdropWhile isBlank) := by
  rw [sanitized_server, hostOf, cleaned_server, (cleaned_slashless _).takeWhile]

theorem second_share :
    (smbClientSanitizeConfig (smbClientSanitizeConfig cfg)).share =
      (smbClientSanitizeConfig cfg).share := by
  rw [sanitized_share, cleaned_server, (nothing_extracted (cleaned_slashless _)).left]
  have hshare : (if (smbClientSanitizeConfig cfg).share = [] then []
      else (smbClientSanitizeConfig cfg).share) = (smbClientSanitizeConfig cfg).share := by
    split
    · rename_i hnil
      rw [hnil]
    · rfl
  rw [hshare, sanitized_share, cleanShare_again]

theorem second_path (h : Terminated cfg) :
    (smbClientSanitizeConfig (smbClientSanitizeConfig cfg)).path =
        (smbClientSanitizeConfig cfg).path ↔
      JoinsClean (cleanPath (extractedSubpath (cleanServer cfg.server))) (cleanPath cfg.path) := by
  have hnone : forall path : Text, joinedPath (cleanPath []) path = path := fun _ => rfl
  have hsub : ZeroFree (extractedSubpath (cleanServer cfg.server)) := zeroFree_copied 256 _
  rw [sanitized_path (smbClientSanitizeConfig cfg), cleaned_server,
    (nothing_extracted (cleaned_slashless _)).right, hnone, sanitized_path,
    joinedPath_again hsub h.path.left]

theorem cleanPort_pos (port : Int) (host : Text) : 0 < cleanPort port host := by
  have hgiven : forall given : Int, 0 < (if given ≤ 0 then smbDefaultPort else given) := by
    intro given
    split
    · decide
    · rename_i hpos
      exact Int.not_le.mp hpos
  exact hgiven _

theorem cleanPort_settled {port : Int} {host : Text} (hport : embeddedPort host = none)
    (hpos : 0 < port) : cleanPort port host = port := by
  rw [cleanPort, hport]
  dsimp only
  rw [if_neg (by omega)]

theorem second_port (h : SettledHost (hostOf cfg.server)) :
    (smbClientSanitizeConfig (smbClientSanitizeConfig cfg)).port =
      (smbClientSanitizeConfig cfg).port := by
  have hpos : 0 < (smbClientSanitizeConfig cfg).port := by
    rw [sanitized_port]
    exact cleanPort_pos _ _
  rw [sanitized_port (smbClientSanitizeConfig cfg), cleaned_server,
    (cleaned_slashless _).takeWhile, h.trimmed, cleanPort_settled h.port hpos]

end Second

/-- What the first cleaning leaves over: blanks around the host or another port of it, and an
edge where two paths were joined and cut. -/
structure CleanedOnce (cfg : SmbShare) : Prop where
  host : SettledHost (hostOf cfg.server)
  path : JoinsClean (cleanPath (extractedSubpath (cleanServer cfg.server))) (cleanPath cfg.path)

theorem sanitize_twice_iff {cfg : SmbShare} (h : Terminated cfg) :
    smbClientSanitizeConfig (smbClientSanitizeConfig cfg) = smbClientSanitizeConfig cfg ↔
      CleanedOnce cfg := by
  have hserver : (smbClientSanitizeConfig (smbClientSanitizeConfig cfg)).server =
      (smbClientSanitizeConfig cfg).server ↔ SettledHost (hostOf cfg.server) := by
    rw [second_server, sanitized_server, cleanHost_trimmed_iff]
  have hpath := second_path cfg h
  constructor
  · intro hsame
    rw [hsame] at hserver hpath
    exact ⟨hserver.mp rfl, hpath.mp rfl⟩
  · intro honce
    apply sanitized_same
    · exact hserver.mpr honce.host
    · exact second_port cfg honce.host
    · exact second_share cfg
    · exact hpath.mpr honce.path
    · rw [sanitized_username, sanitized_username, trimmedField_again]
    · rw [sanitized_workgroup, sanitized_workgroup, cleanWorkgroup_again]

/-- A share that is written as an address. -/
def addressed : SmbShare :=
  { blankShare with server := ascii "smb://nas:4450/media//films/", path := ascii "new" }

theorem sanitize_twice_addressed :
    smbClientSanitizeConfig (smbClientSanitizeConfig addressed) =
      smbClientSanitizeConfig addressed := by
  have hserver : ZeroFree addressed.server := zeroFree_of_all rfl
  have hpath : ZeroFree addressed.path := zeroFree_of_all rfl
  have hhost : hostOf addressed.server = ascii "nas" := by decide
  apply (sanitize_twice_iff ⟨⟨hserver, by decide⟩, ⟨zeroFree_of_all rfl, by decide⟩,
    ⟨hpath, by decide⟩⟩).mpr
  constructor
  · rw [hhost]
    refine ⟨?_, ?_, by decide⟩
    · intro b hb
      cases hb
      rfl
    · intro b hb
      cases hb
      rfl
  · have hsub : cleanPath (extractedSubpath (cleanServer addressed.server)) = ascii "films" := by
      decide
    have hpath : cleanPath addressed.path = ascii "new" := by decide
    rw [hsub, hpath]
    intro _ _ x hx
    cases hx

/-- The blank before the slash is found the second time. -/
def blankBehind : SmbShare :=
  { blankShare with server := ascii "nas /media" }

theorem blankBehind_cleaned_twice : Terminated blankBehind ∧
    smbClientSanitizeConfig (smbClientSanitizeConfig blankBehind) ≠
      smbClientSanitizeConfig blankBehind := by
  refine ⟨⟨⟨zeroFree_of_all rfl, by decide⟩, ⟨zeroFree_of_all rfl, by decide⟩,
    ⟨zeroFree_of_all rfl, by decide⟩⟩, ?_⟩
  intro hsame
  have hfirst : (smbClientSanitizeConfig blankBehind).server = ascii "nas " := by decide
  have hsecond : (smbClientSanitizeConfig (smbClientSanitizeConfig blankBehind)).server =
      ascii "nas" := by
    decide
  rw [hsame, hfirst] at hsecond
  revert hsecond
  decide

end Smb
end PkgManager
