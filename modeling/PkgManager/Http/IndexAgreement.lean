import Mathlib.Data.List.Chain
import PkgManager.Http.IndexReads

/-!
# The way of an index

Each listed file whose address fits is reported once, in the order of the document, when its name
still ends in {lit}`.pkg` after 255 bytes, its date fits 32 bits and no earlier address has its
hash.
-/

namespace PkgManager
namespace Http

open CString
open PkgManager.Parser
open PkgManager.Scanner (lowerText)

/-!
# Paths of listed files
-/

inductive FolderPath : List Char -> Prop where
  | root : FolderPath []
  | part {dir : List Char} (h : FolderPath dir) (n : Name) : FolderPath (dir ++ n.chars ++ ['/'])

theorem collectFrom_folder {decimal : Char -> Bool} {dir : List Char} (hdir : FolderPath dir)
    {root : Tree} {f : PkgFile} (h : f ∈ collectFrom decimal dir root) : FolderPath f.dir := by
  induction dir, root using collectFrom.induct with
  | case1 dir files folders ih =>
      rw [collectFrom] at h
      rcases List.mem_append.mp h with hfile | hbelow
      · rcases List.mem_map.mp hfile with ⟨entry, _, rfl⟩
        exact hdir
      · rcases List.mem_flatMap.mp hbelow with ⟨d, _, hmem⟩
        exact ih d (hdir.part d.val.1) hmem

theorem collect_folder {decimal : Char -> Bool} {root : Tree} {f : PkgFile}
    (h : f ∈ collect decimal root) : FolderPath f.dir :=
  collectFrom_folder FolderPath.root h

theorem FolderPath.zero {dir : List Char} (h : FolderPath dir) : Char.ofNat 0 ∉ dir := by
  induction h with
  | root => exact List.not_mem_nil
  | part _ n ih =>
      intro hmem
      rcases List.mem_append.mp hmem with hfront | hslash
      · rcases List.mem_append.mp hfront with hdir | hname
        · exact ih hdir
        · exact n.zero hname
      · exact absurd (List.mem_singleton.mp hslash) (by decide)

/-- No part of a path is empty. -/
def NotBothSlash (a b : Char) : Prop :=
  ¬(a = '/' ∧ b = '/')

theorem name_chain {front : List Char} (n : Name) (h : List.IsChain NotBothSlash front) :
    List.IsChain NotBothSlash (front ++ n.chars) := by
  rw [List.isChain_append]
  have hname : forall b, b ∈ n.chars -> b ≠ '/' := fun b hb heq => n.slash (heq ▸ hb)
  refine ⟨h, ?_, ?_⟩
  · apply List.Pairwise.isChain
    rw [List.pairwise_iff_forall_sublist]
    intro a b hab hboth
    exact hname b (hab.subset (by simp)) hboth.2
  · intro a _ b hb hboth
    exact hname b (List.mem_of_mem_head? hb) hboth.2

theorem FolderPath.chain {dir : List Char} (h : FolderPath dir) :
    List.IsChain NotBothSlash ('/' :: dir) := by
  induction h with
  | root => exact List.IsChain.singleton _
  | part _ n ih =>
      have hname := name_chain n ih
      rw [<- List.cons_append, <- List.cons_append, List.isChain_append]
      refine ⟨hname, List.IsChain.singleton _, ?_⟩
      intro a ha b _ hboth
      rw [List.getLast?_append, List.getLast?_eq_some_getLast n.nonempty, Option.some_or] at ha
      have hlast := Option.some.inj ha
      exact n.slash (hboth.1 ▸ hlast ▸ List.getLast_mem n.nonempty)

theorem FolderPath.path_chain {f : PkgFile} (h : FolderPath f.dir) :
    List.IsChain NotBothSlash ('/' :: f.path) :=
  name_chain f.name h.chain

theorem chain_split {a b : List Char} (h : List.IsChain NotBothSlash (a ++ '/' :: '/' :: b)) :
    False := by
  rw [List.isChain_append] at h
  exact (List.isChain_cons_cons.mp h.2.1).1 ⟨rfl, rfl⟩

/-- A slash in the bytes of a text is a slash of the text. -/
theorem utf8_split {text : List Char} {a b : Text} (h : utf8 text = a ++ 47 :: b) :
    exists x y, text = x ++ '/' :: y ∧ utf8 x = a ∧ utf8 y = b := by
  induction text generalizing a with
  | nil => exact absurd h.symm (by simp [utf8])
  | cons c rest ih =>
      rw [utf8_cons] at h
      rcases List.append_eq_append_iff.mp h with ⟨middle, ha, hrest⟩ | ⟨middle, hc, hrest⟩
      · rcases ih hrest with ⟨x, y, rfl, hx, hy⟩
        exact ⟨c :: x, y, rfl, by rw [utf8_cons, hx, ha], hy⟩
      · cases middle with
        | nil =>
            rcases ih (a := []) hrest.symm with ⟨x, y, rfl, hx, hy⟩
            exact ⟨c :: x, y, rfl, by rw [utf8_cons, hx, hc, List.append_nil, List.append_nil], hy⟩
        | cons d middle =>
            have hd : d = 47 := (List.cons.inj hrest).1.symm
            subst hd
            have hmem : (47 : UInt8) ∈ String.utf8EncodeChar c := by
              rw [hc]
              exact List.mem_append_right a List.mem_cons_self
            have hbyte := utf8EncodeChar_byte hmem (by decide)
            have hslash : c = '/' := Char.toNat_inj.mp hbyte.1
            rw [hbyte.2] at hc
            have hlen := congrArg List.length hc
            simp only [List.length_append, List.length_cons, List.length_nil] at hlen
            have ha : a = [] := List.eq_nil_of_length_eq_zero (by omega)
            have hm : middle = [] := List.eq_nil_of_length_eq_zero (by omega)
            subst ha hm
            exact ⟨[], rest, by rw [hslash, List.nil_append], rfl, (List.cons.inj hrest).2.symm⟩

theorem utf8_eq_nil {text : List Char} (h : utf8 text = []) : text = [] := by
  cases text with
  | nil => rfl
  | cons c rest =>
      rw [utf8_cons, List.append_eq_nil_iff] at h
      exact absurd h.1 (by simp [String.utf8EncodeChar]; split_ifs <;> simp)

/-!
# Addresses of listed files
-/

/-- The address of a source, as it is after {lit}`http_source_sanitize`. -/
structure BaseUrl where
  text : Text
  zeroFree : ZeroFree text
  folder : text.getLast? = some 47
  parsed : (httpUrlParse text).isSome = true

theorem BaseUrl.long (base : BaseUrl) : 7 ≤ base.text.length := by
  have htake : forall start : String, startsWithCi start base.text = true ->
      (ascii start).length ≤ base.text.length := by
    intro start hstart
    have hlen := congrArg List.length (beq_iff_eq.mp hstart)
    rw [lowerText, lowerText, List.length_map, List.length_map, List.length_take] at hlen
    omega
  have hparsed := base.parsed
  unfold httpUrlParse urlScheme at hparsed
  split at hparsed
  · cases hparsed
  · rename_i hscheme
    split_ifs at hscheme with hsecure hplain
    · exact (show 7 ≤ 8 by decide).trans (htake "https://" hsecure)
    · exact htake "http://" hplain

/-- The address of a file: what a browser would ask for. -/
def fileUrl (base : BaseUrl) (f : PkgFile) : Text :=
  base.text ++ pctEncoded (utf8 f.path)

def fits (base : BaseUrl) (f : PkgFile) : Bool :=
  decide ((fileUrl base f).length < httpUrlMax)

theorem path_ne_nil (f : PkgFile) : utf8 f.path ≠ [] := by
  intro h
  exact f.name.nonempty (List.append_eq_nil_iff.mp (utf8_eq_nil h)).2

theorem lowerText_slashes {text : Text} (h : lowerText text = [47, 47]) : text = [47, 47] := by
  have hslash : forall b : UInt8, (if 65 ≤ b.toNat ∧ b.toNat ≤ 90 then b + 32 else b) = 47 -> b = 47 := by
    intro b hb
    split_ifs at hb with hupper
    · have hnum := congrArg UInt8.toNat hb
      rw [UInt8.toNat_add] at hnum
      simp only [UInt8.reduceToNat] at hnum
      omega
    · exact hb
  rcases List.map_eq_cons_iff.mp h with ⟨x, rest, rfl, hx, hrest⟩
  rcases List.map_eq_cons_iff.mp hrest with ⟨y, rest, rfl, hy, hnil⟩
  rw [hslash x hx, hslash y hy, List.map_eq_nil_iff.mp hnil]

theorem FolderPath.base_slash {dir : List Char} (h : FolderPath dir) (base : BaseUrl) :
    exists front, base.text ++ pctEncoded (utf8 dir) = front ++ [47] := by
  cases h with
  | root =>
      rcases List.getLast?_eq_some_iff.mp base.folder with ⟨front, hfront⟩
      exact ⟨front, (List.append_nil _).trans hfront⟩
  | part hdir n =>
      rw [utf8_append, pctEncoded, List.flatMap_append, <- List.append_assoc]
      exact ⟨_, rfl⟩

section Paths

variable {f : PkgFile} (hdir : FolderPath f.dir)
include hdir

theorem path_zero : Char.ofNat 0 ∉ f.path := by
  intro h
  rcases List.mem_append.mp h with hfolder | hname
  · exact hdir.zero hfolder
  · exact f.name.zero hname

theorem path_bytes_zero : ZeroFree (utf8 f.path) :=
  zeroFree_utf8 (path_zero hdir)

theorem path_no_slash : (utf8 f.path).head? ≠ some 47 := by
  intro h
  rcases List.head?_eq_some_iff.mp h with ⟨rest, hrest⟩
  rcases utf8_split (a := []) hrest with ⟨x, y, hpath, hx, _⟩
  have hchain := hdir.path_chain
  rw [hpath, utf8_eq_nil hx] at hchain
  exact chain_split (a := []) hchain

/-- A path is never taken for an address. -/
theorem path_no_double {a b : Text} : utf8 f.path ≠ a ++ 47 :: 47 :: b := by
  intro h
  rcases utf8_split h with ⟨x, y, hpath, _, hy⟩
  rcases utf8_split (a := []) hy with ⟨x', y', hy', hx', _⟩
  have hchain := hdir.path_chain
  rw [hpath, hy', utf8_eq_nil hx'] at hchain
  exact chain_split (a := '/' :: x) hchain

theorem path_no_scheme {start : String} (before : Text) {n : Nat}
    (hstart : ascii start = before ++ [47, 47]) :
    startsWithCi start ((utf8 f.path).take n) = false := by
  rw [Bool.eq_false_iff]
  intro h
  have hlower := beq_iff_eq.mp h
  rw [hstart, lowerText, lowerText, List.map_append, List.map_eq_append_iff] at hlower
  rcases hlower with ⟨front, back, htake, _, hback⟩
  have hslashes : back = [47, 47] := lowerText_slashes (hback.trans (by decide))
  rw [List.take_take, hslashes] at htake
  have hpath := List.take_append_drop (min (before ++ [47, 47]).length n) (utf8 f.path)
  rw [htake, List.append_assoc] at hpath
  exact path_no_double hdir hpath.symm

/-- The text of an entry is the encoded path, or no address with it fits. -/
theorem encoded_entry (base : BaseUrl) :
    (fits base f = true ->
        pctEncodePath httpUrlMax (entryOf f).path = pctEncoded (utf8 f.path)) ∧
      (fits base f = false ->
        httpUrlMax ≤ base.text.length + (pctEncodePath httpUrlMax (entryOf f).path).length) := by
  have hbase := base.long
  have hzero := path_bytes_zero hdir
  have hcut : ZeroFree (entryOf f).path := fun b hb => hzero b (List.mem_of_mem_take hb)
  have hlong := length_le_pctEncoded (utf8 f.path)
  have hlongCut := length_le_pctEncoded (entryOf f).path
  have hcutLength : (entryOf f).path.length = min (httpUrlMax - 1) (utf8 f.path).length :=
    List.length_take
  have hurl : (fileUrl base f).length = base.text.length + (pctEncoded (utf8 f.path)).length :=
    List.length_append
  have hmax : httpUrlMax = 1024 := rfl
  have hwhole : (utf8 f.path).length ≤ httpUrlMax - 1 -> (entryOf f).path = utf8 f.path :=
    fun h => List.take_of_length_le h
  constructor
  · intro hfits
    have hlt := of_decide_eq_true hfits
    rw [hwhole (by omega)]
    exact pctEncodeFrom_whole hzero (by omega)
  · intro hfits
    have hge := of_decide_eq_false hfits
    rcases pctEncodeFrom_whole_or_full httpUrlMax (o := 0) hcut with henc | hfull
    · rw [pctEncodePath, henc]
      rcases Nat.lt_or_ge (httpUrlMax - 1) (utf8 f.path).length with hcutPath | hshort
      · omega
      · rw [hwhole hshort]
        omega
    · rw [pctEncodePath]
      omega

/-- What the scan makes of the path of a file. -/
theorem indexUrl_path (base : BaseUrl) :
    indexUrl base.text (entryOf f).path = if fits base f then some (fileUrl base f) else none := by
  have hhttp : startsWithCi "http://" (entryOf f).path = false :=
    path_no_scheme hdir (ascii "http:") (by decide)
  have hhttps : startsWithCi "https://" (entryOf f).path = false :=
    path_no_scheme hdir (ascii "https:") (by decide)
  have hslash : (entryOf f).path.dropWhile (fun b => b == 47) = (entryOf f).path := by
    have hhead := path_no_slash hdir
    cases hpath : utf8 f.path with
    | nil => simp [entryOf, hpath]
    | cons b rest =>
        rw [hpath, List.head?_cons] at hhead
        have hb : ¬ (fun b : UInt8 => b == 47) b = true :=
          fun h => hhead (congrArg some (beq_iff_eq.mp h))
        have htake : (entryOf f).path = b :: rest.take (httpUrlMax - 2) := by
          rw [entryOf, hpath]
          rfl
        rw [htake]
        exact List.dropWhile_cons_of_neg hb
  have henc := encoded_entry hdir base
  rw [indexUrl, hhttp, hhttps, Bool.or_self, if_neg Bool.false_ne_true, hslash]
  dsimp only
  cases hfits : fits base f with
  | true =>
      have hlt : (fileUrl base f).length < httpUrlMax := of_decide_eq_true hfits
      rw [fileUrl, List.length_append] at hlt
      rw [henc.1 hfits, if_neg (by omega), if_pos rfl, fileUrl]
  | false => rw [if_pos (henc.2 hfits), if_neg Bool.false_ne_true]

/-- The last part of the address is the name. -/
theorem urlName_fileUrl (base : BaseUrl) :
    urlName (fileUrl base f) = (utf8 f.name.chars).take 255 := by
  have hname : (47 : UInt8) ∉ pctEncoded (utf8 f.name.chars) := by
    intro hb
    rcases List.mem_flatMap.mp hb with ⟨c, hc, hslash⟩
    rw [slash_mem_pctPiece] at hslash
    subst hslash
    exact f.name.slash (mem_utf8_low hc (by decide))
  rcases hdir.base_slash base with ⟨front, hfront⟩
  have hshape : fileUrl base f = front ++ 47 :: pctEncoded (utf8 f.name.chars) := by
    rw [fileUrl, PkgFile.path, utf8_append, pctEncoded, List.flatMap_append, <- pctEncoded,
      <- pctEncoded, <- List.append_assoc, hfront, List.append_assoc, List.singleton_append]
  have hlast : (fileUrl base f).rtakeWhile (fun b => b != 47) = pctEncoded (utf8 f.name.chars) := by
    rw [hshape]
    exact rtakeWhile_separator hname front
  rw [urlName, hlast, pctDecode, pctEncoded_decoded]

end Paths

/-!
# What is reported
-/

def urlHash (base : BaseUrl) (f : PkgFile) : UInt64 :=
  fnv1a64 (fileUrl base f)

/-- The part of the name that the scan looks at ends in {lit}`.pkg`. -/
def hasPkgName (f : PkgFile) : Bool :=
  endsWithCi ((utf8 f.name.chars).take 255) ".pkg"

/-- The call for a file. -/
def callOf (base : BaseUrl) (f : PkgFile) : Call where
  url := fileUrl base f
  name := (utf8 f.name.chars).take 255
  size := f.stat.size
  mtime := readMtime f.stat.mtime % 2 ^ 32

/-- The files that are reported when these hashes were seen before. -/
def reportedFrom (base : BaseUrl) : List UInt64 -> List PkgFile -> List PkgFile
  | _, [] => []
  | seen, f :: rest =>
      if seen.contains (urlHash base f) then reportedFrom base seen rest
      else if hasPkgName f then f :: reportedFrom base (seen ++ [urlHash base f]) rest
      else reportedFrom base (seen ++ [urlHash base f]) rest

theorem emitPkg_file (head : Option (Text -> Nat × Nat -> Nat × Nat)) (base : BaseUrl)
    {f : PkgFile} (hdir : FolderPath f.dir) (s : ScanCtx) :
    emitPkg head s (fileUrl base f) f.stat.size (readMtime f.stat.mtime % 2 ^ 32) true =
      if s.seen.contains (urlHash base f) then s
      else
        { s with
          seen := s.seen ++ [urlHash base f]
          calls := if hasPkgName f then s.calls ++ [callOf base f] else s.calls } := by
  have hname := urlName_fileUrl hdir base
  unfold emitPkg seenAdd
  by_cases hseen : s.seen.contains (urlHash base f) = true
  · rw [if_pos hseen, <- urlHash, if_pos hseen]
    rfl
  · rw [if_neg hseen, <- urlHash, if_neg hseen]
    dsimp only
    rw [if_neg (by decide), hname, <- hasPkgName]
    cases hpkg : hasPkgName f with
    | false => rfl
    | true => cases head <;> rfl

theorem foldl_reported (head : Option (Text -> Nat × Nat -> Nat × Nat)) (base : BaseUrl)
    {files : List PkgFile} (hdirs : forall f, f ∈ files -> FolderPath f.dir) (s : ScanCtx) :
    (files.foldl (fun s f => scanEntry head base.text s (entryOf f)) s).calls =
      s.calls ++ (reportedFrom base s.seen (files.filter (fits base))).map (callOf base) := by
  induction files generalizing s with
  | nil => simp [reportedFrom]
  | cons f rest ih =>
      have hdir := hdirs f List.mem_cons_self
      have hrest := ih (fun g hg => hdirs g (List.mem_cons_of_mem f hg))
      have hpath : (entryOf f).path ≠ [] := by
        intro h
        rcases List.take_eq_nil_iff.mp h with hzero | hnil
        · exact absurd hzero (by decide)
        · exact path_ne_nil f hnil
      rw [List.foldl_cons, scanEntry, if_neg hpath, indexUrl_path hdir, List.filter_cons]
      cases hfits : fits base f with
      | false => exact hrest s
      | true =>
          rw [if_pos rfl, if_pos rfl]
          change (rest.foldl (fun s f => scanEntry head base.text s (entryOf f))
            (emitPkg head s (fileUrl base f) f.stat.size (readMtime f.stat.mtime % 2 ^ 32) true)).calls = _
          rw [emitPkg_file head base hdir, hrest, reportedFrom]
          split_ifs with hseen hpkg
          · rfl
          · simp
          · rfl

theorem reportedFrom_sublist (base : BaseUrl) (seen : List UInt64) (files : List PkgFile) :
    (reportedFrom base seen files).Sublist files := by
  induction files generalizing seen with
  | nil => exact List.Sublist.refl _
  | cons f rest ih =>
      unfold reportedFrom
      split_ifs
      · exact (ih _).cons f
      · exact (ih _).cons_cons f
      · exact (ih _).cons f

/-- All files are reported when no hash was seen before and all have the name of a package. -/
theorem reportedFrom_all_iff (base : BaseUrl) (seen : List UInt64) (files : List PkgFile) :
    reportedFrom base seen files = files ↔
      (forall f, f ∈ files -> hasPkgName f = true) ∧
        (forall f, f ∈ files -> urlHash base f ∉ seen) ∧ (files.map (urlHash base)).Nodup := by
  induction files generalizing seen with
  | nil => simp [reportedFrom]
  | cons f rest ih =>
      have hshort : forall seen, reportedFrom base seen rest ≠ f :: rest := by
        intro seen h
        have hle := (reportedFrom_sublist base seen rest).length_le
        rw [h, List.length_cons] at hle
        omega
      unfold reportedFrom
      split_ifs with hseen hpkg
      · constructor
        · exact fun h => absurd h (hshort _)
        · intro h
          exact absurd (List.contains_iff_mem.mp hseen) (h.2.1 f List.mem_cons_self)
      · rw [List.cons_inj_right, ih]
        have hnew : urlHash base f ∉ seen := fun h => hseen (List.contains_iff_mem.mpr h)
        constructor
        · rintro ⟨hpkgs, hnews, hnodup⟩
          refine ⟨List.forall_mem_cons.mpr ⟨hpkg, hpkgs⟩, List.forall_mem_cons.mpr ⟨hnew, ?_⟩, ?_⟩
          · exact fun g hg hmem => hnews g hg (List.mem_append_left _ hmem)
          · rw [List.map_cons, List.nodup_cons]
            refine ⟨?_, hnodup⟩
            intro hmem
            rcases List.mem_map.mp hmem with ⟨g, hg, heq⟩
            exact hnews g hg (List.mem_append_right _ (List.mem_singleton.mpr heq))
        · rintro ⟨hpkgs, hnews, hnodup⟩
          rw [List.map_cons, List.nodup_cons] at hnodup
          refine ⟨(List.forall_mem_cons.mp hpkgs).2, ?_, hnodup.2⟩
          intro g hg hmem
          rcases List.mem_append.mp hmem with hold | hsame
          · exact (List.forall_mem_cons.mp hnews).2 g hg hold
          · rw [<- List.mem_singleton.mp hsame] at hnodup
            exact hnodup.1 (List.mem_map_of_mem hg)
      · constructor
        · exact fun h => absurd h (hshort _)
        · intro h
          exact absurd (h.1 f List.mem_cons_self) hpkg

/-!
# The round trip
-/

/-- A call for a file: its size, its date, and an address that leads back to its path. -/
def Reports (base : BaseUrl) (f : PkgFile) (c : Call) : Prop :=
  c.size = f.stat.size ∧ (c.mtime : Int) = f.stat.mtime ∧
    exists rest, c.url = base.text ++ rest ∧ pctDecoded rest = utf8 f.path

/-- One call for each file whose address fits, in order, and no other. -/
def RoundTrip (base : BaseUrl) (files : List PkgFile) (calls : List Call) : Prop :=
  List.Forall₂ (Reports base) (files.filter (fits base)) calls

/-- What the files have to be like. -/
def Readable (base : BaseUrl) (files : List PkgFile) : Prop :=
  (forall f, f ∈ files.filter (fits base) ->
    hasPkgName f = true ∧ 0 ≤ f.stat.mtime ∧ f.stat.mtime < 2 ^ 32) ∧
    ((files.filter (fits base)).map (urlHash base)).Nodup

theorem readMtime_iff (mtime : Int) :
    ((readMtime mtime % 2 ^ 32 : Nat) : Int) = mtime ↔ 0 ≤ mtime ∧ mtime < 2 ^ 32 := by
  unfold readMtime
  split
  · constructor
    · intro h
      omega
    · intro h
      omega
  · constructor
    · intro h
      omega
    · intro h
      rw [min_eq_left (by omega)]
      omega

theorem reports_callOf_iff (base : BaseUrl) (f : PkgFile) :
    Reports base f (callOf base f) ↔ 0 ≤ f.stat.mtime ∧ f.stat.mtime < 2 ^ 32 := by
  rw [<- readMtime_iff]
  constructor
  · exact fun h => h.2.1
  · exact fun h => ⟨rfl, h, pctEncoded (utf8 f.path), rfl, pctEncoded_decoded _⟩

theorem roundTrip_reported_iff (base : BaseUrl) (files : List PkgFile) :
    RoundTrip base files ((reportedFrom base [] (files.filter (fits base))).map (callOf base)) ↔
      Readable base files := by
  have hall := reportedFrom_all_iff base [] (files.filter (fits base))
  constructor
  · intro h
    -- As many calls as files means that no file was left out.
    have hlen := h.length_eq
    rw [List.length_map] at hlen
    have hsame := (reportedFrom_sublist base [] (files.filter (fits base))).eq_of_length hlen.symm
    rw [RoundTrip, hsame, List.forall₂_map_right_iff, List.forall₂_same] at h
    rcases hall.mp hsame with ⟨hpkg, _, hnodup⟩
    exact ⟨fun f hf => ⟨hpkg f hf, (reports_callOf_iff base f).mp (h f hf)⟩, hnodup⟩
  · rintro ⟨hfiles, hnodup⟩
    have hsame := hall.mpr
      ⟨fun f hf => (hfiles f hf).1, fun _ _ hmem => List.not_mem_nil hmem, hnodup⟩
    rw [RoundTrip, hsame, List.forall₂_map_right_iff, List.forall₂_same]
    exact fun f hf => (reports_callOf_iff base f).mpr (hfiles f hf).2

theorem scanIndexJson_collect (decimal : Char -> Bool)
    (head : Option (Text -> Nat × Nat -> Nat × Nat)) (base : BaseUrl) (root : Tree) :
    exists s, scanIndexJson head base.text ScanCtx.start (indexText (collect decimal root)) = some s ∧
      s.calls =
        (reportedFrom base [] ((collect decimal root).filter (fits base))).map (callOf base) := by
  have hdirs : forall f, f ∈ collect decimal root -> FolderPath f.dir := fun _ hf => collect_folder hf
  exact ⟨_, scanIndexJson_indexText head base.text (fun f hf => path_zero (hdirs f hf)) ScanCtx.start,
    foldl_reported head base hdirs ScanCtx.start⟩

/-- The tool and the scan agree exactly on readable files. -/
theorem index_round_trip_iff (decimal : Char -> Bool)
    (head : Option (Text -> Nat × Nat -> Nat × Nat)) (base : BaseUrl) (root : Tree) :
    (exists s, scanIndexJson head base.text ScanCtx.start (indexText (collect decimal root)) = some s ∧
      RoundTrip base (collect decimal root) s.calls) ↔ Readable base (collect decimal root) := by
  rcases scanIndexJson_collect decimal head base root with ⟨s, hscan, hcalls⟩
  rw [<- roundTrip_reported_iff, hscan]
  constructor
  · rintro ⟨t, ht, hround⟩
    rw [<- Option.some.inj ht, hcalls] at hround
    exact hround
  · intro h
    exact ⟨s, rfl, hcalls ▸ h⟩

def nasBase : BaseUrl where
  text := ascii "http://nas/"
  zeroFree := zeroFree_of_all rfl
  folder := by decide
  parsed := by decide

/-- A name of 84 letters of three bytes each, and {lit}`.pkg`. -/
def longName : Name where
  chars := List.replicate 84 (Char.ofNat 0x3042) ++ ['.', 'p', 'k', 'g']
  nonempty := by decide
  slash := by decide
  zero := by decide

def longNameTree : Tree :=
  .folder [(longName, { size := 1, size_lt := by decide, mtime := 1 })] []

/-- The file is listed and its address fits, but its name is cut before the suffix is looked
for. -/
theorem long_name_lost :
    ¬ exists s, scanIndexJson none nasBase.text ScanCtx.start
        (indexText (collect Char.isDigit longNameTree)) = some s ∧
      RoundTrip nasBase (collect Char.isDigit longNameTree) s.calls := by
  rcases scanIndexJson_collect Char.isDigit none nasBase longNameTree with ⟨s, hscan, hcalls⟩
  rintro ⟨t, ht, hround⟩
  have hlisted : ((collect Char.isDigit longNameTree).filter (fits nasBase)).length = 1 := by
    decide +kernel
  have hnone : (reportedFrom nasBase [] ((collect Char.isDigit longNameTree).filter
      (fits nasBase))).length = 0 := by decide +kernel
  have hlen := hround.length_eq
  rw [<- Option.some.inj (hscan.symm.trans ht), hcalls, List.length_map, hlisted, hnone] at hlen
  cases hlen

end Http
end PkgManager
