import Mathlib.Data.List.DropRight
import PkgManager.StreamServer.Request

/-!
# What a range header asks for

The header lines of a request stand behind its line ends, up to the first empty one.  A field with
a single range asks for an interval of bytes, which the package cuts.
-/

namespace PkgManager
namespace StreamServer

open WebSocket (strstr strchr crlf)

/-!
# Fields
-/

/-- The texts behind the line ends. -/
def placesBehind : List Char -> List (List Char)
  | [] => []
  | c :: cs => if c = '\n' then cs :: placesBehind cs else placesBehind cs

/-- The line at a place, without its line end. -/
def lineText (place : List Char) : List Char :=
  let line := place.takeWhile (fun c => c != '\n')
  if line.getLast? = some '\r' then line.dropLast else line

def headerLines (req : List Char) : List (List Char) :=
  ((placesBehind req).map lineText).takeWhile (fun line => !line.isEmpty)

def isRangeLine (line : List Char) : Bool :=
  hasPrefixCase "range:".toList line

/-- The values of the fields with this name, without blanks around them. -/
def rangeFields (req : List Char) : List (List Char) :=
  ((headerLines req).filter isRangeLine).map
    (fun line => ((line.drop 6).dropWhile isBlank).rdropWhile isBlank)

/-!
# Single ranges
-/

inductive RangeSpec where
  | closed (first last : Nat)
  | fromFirst (first : Nat)
  | suffix (count : Nat)

structure IsDigits (text : List Char) : Prop where
  nonempty : text ≠ []
  digits : forall c, c ∈ text -> c.isDigit = true

def valueOf (text : List Char) : Nat :=
  text.foldl (fun n c => 10 * n + (c.toNat - '0'.toNat)) 0

/-- How a range of bytes is spelled. -/
inductive Spells : List Char -> RangeSpec -> Prop where
  | closed {a b : List Char} : IsDigits a -> IsDigits b ->
      Spells ("bytes=".toList ++ (a ++ '-' :: b)) (RangeSpec.closed (valueOf a) (valueOf b))
  | fromFirst {a : List Char} : IsDigits a ->
      Spells ("bytes=".toList ++ (a ++ ['-'])) (RangeSpec.fromFirst (valueOf a))
  | suffix {n : List Char} : IsDigits n ->
      Spells ("bytes=".toList ++ ('-' :: n)) (RangeSpec.suffix (valueOf n))

/-- The interval that is asked for, as far as there are bytes. -/
def RangeSpec.resolve (total : Nat) : RangeSpec -> RangeOutcome
  | closed first last =>
      if first ≤ last ∧ first < total then RangeOutcome.range first (min last (total - 1))
      else RangeOutcome.unsatisfiable
  | fromFirst first =>
      if first < total then RangeOutcome.range first (total - 1) else RangeOutcome.unsatisfiable
  | suffix count =>
      if count = 0 ∨ total = 0 then RangeOutcome.unsatisfiable
      else RangeOutcome.range (total - min count total) (total - 1)

def bytesUnit : List Char :=
  "bytes=".toList

/-- What is answered to the range fields of a request. -/
structure Resolves (req : List Char) (total : Nat) : Prop where
  absent : (forall value, value ∈ rangeFields req -> ¬bytesUnit <+: value) ->
    findRange req total = RangeOutcome.absent
  single : forall {value spec}, rangeFields req = [value] -> Spells value spec ->
    findRange req total = spec.resolve total

/-- The first header line that has the name behind blanks has no blanks in front of it. -/
def NoBlanksBefore (req : List Char) : Prop :=
  forall line, (headerLines req).find? (fun line => isRangeLine (line.dropWhile isBlank)) =
    some line -> isRangeLine line = true

/-- In what is taken for the header, the unit is found and a dash behind it, on the line. -/
def FindsBytes (req : List Char) : Prop :=
  exists rl b dash, rangeHeader req = some rl ∧ strstr bytesUnit rl = some b ∧
    pastEnd (strstr crlf rl) b = false ∧ strchr '-' (b.drop 6) = some dash ∧
    pastEnd (strstr crlf rl) dash = false

/-- Nothing is taken for a range where no field asks for one. -/
def NoOtherRange (req : List Char) : Prop :=
  (forall value, value ∈ rangeFields req -> ¬bytesUnit <+: value) -> ¬FindsBytes req

/-!
# What is found
-/

theorem parseRange_ne_absent (le : Option (List Char)) (total : Nat) (b dash : List Char) :
    parseRange le total b dash ≠ RangeOutcome.absent := by
  unfold parseRange suffixRange clampRange
  split
  · dsimp only
    split <;> exact RangeOutcome.noConfusion
  · split <;> exact RangeOutcome.noConfusion

theorem findRange_eq_absent {req : List Char} {total : Nat} :
    findRange req total = RangeOutcome.absent ↔ ¬FindsBytes req := by
  constructor
  · rintro habsent ⟨rl, b, dash, hrl, hb, hbline, hdash, hdashline⟩
    unfold findRange at habsent
    rw [hrl] at habsent
    dsimp only at habsent
    rw [<- bytesUnit, hb] at habsent
    dsimp only at habsent
    rw [hbline, if_neg Bool.false_ne_true, hdash] at habsent
    dsimp only at habsent
    rw [hdashline, if_neg Bool.false_ne_true] at habsent
    exact parseRange_ne_absent _ _ _ _ habsent
  · intro hnone
    unfold findRange
    cases hrl : rangeHeader req with
    | none => rfl
    | some rl =>
        dsimp only
        cases hb : strstr "bytes=".toList rl with
        | none => rfl
        | some b =>
            dsimp only
            split
            · rfl
            rename_i hbline
            cases hdash : strchr '-' (b.drop 6) with
            | none => rfl
            | some dash =>
                dsimp only
                split
                · rfl
                rename_i hdashline
                exact absurd ⟨rl, b, dash, hrl, hb, Bool.not_eq_true _ ▸ hbline, hdash,
                  Bool.not_eq_true _ ▸ hdashline⟩ hnone

/-!
# Numbers
-/

theorem isDigit_toNat {c : Char} (h : c.isDigit = true) : 48 ≤ c.toNat ∧ c.toNat ≤ 57 := by
  unfold Char.isDigit at h
  rcases Bool.and_eq_true_iff.mp h with ⟨hlow, hhigh⟩
  exact ⟨of_decide_eq_true hlow, of_decide_eq_true hhigh⟩

/-- Digits that no digit follows are read as their value, or as the largest number. -/
theorem strtoul_digits {a tail : List Char} (ha : IsDigits a)
    (htail : forall c, tail.head? = some c -> c.isDigit = false) :
    (strtoul (a ++ tail)).1 = min (valueOf a) (2 ^ 64 - 1) := by
  rcases a with _ | ⟨d, rest⟩
  · exact absurd rfl ha.nonempty
  have hd := ha.digits d List.mem_cons_self
  rcases isDigit_toNat hd with ⟨hlow, hhigh⟩
  have hne : forall c : Char, c.isDigit = false -> d ≠ c := by
    intro c hc heq
    rw [heq, hc] at hd
    cases hd
  have hblank : (d == ' ' || decide (9 ≤ d.toNat ∧ d.toNat ≤ 13)) = false := by
    rw [Bool.or_eq_false_iff, beq_eq_false_iff_ne, decide_eq_false_iff_not]
    exact ⟨hne ' ' rfl, fun hspace => by omega⟩
  have hbody : (d :: rest ++ tail).dropWhile
      (fun c => c == ' ' || decide (9 ≤ c.toNat ∧ c.toNat ≤ 13)) = d :: rest ++ tail := by
    rw [List.cons_append, List.dropWhile_cons_of_neg]
    rw [hblank]
    exact Bool.false_ne_true
  have hdigits : (d :: rest ++ tail).takeWhile Char.isDigit = d :: rest := by
    rw [List.takeWhile_append_of_pos ha.digits]
    cases tail with
    | nil => exact List.append_nil _
    | cons c more =>
        rw [List.takeWhile_cons_of_neg, List.append_nil]
        rw [htail c rfl]
        exact Bool.false_ne_true
  have hminus : ((d :: rest ++ tail).head? == some '-') = false := by
    rw [List.cons_append, List.head?_cons, beq_eq_false_iff_ne]
    exact fun heq => hne '-' rfl (Option.some.inj heq)
  have hplus : ((d :: rest ++ tail).head? == some '+') = false := by
    rw [List.cons_append, List.head?_cons, beq_eq_false_iff_ne]
    exact fun heq => hne '+' rfl (Option.some.inj heq)
  unfold strtoul
  rw [hbody]
  dsimp only
  rw [hminus, hplus, Bool.or_false, if_neg Bool.false_ne_true, hdigits, List.isEmpty_cons,
    if_neg Bool.false_ne_true, <- valueOf]
  split
  · rename_i hlarge
    rw [Nat.min_eq_right ((Nat.sub_le _ _).trans hlarge)]
  · rename_i hsmall
    rw [if_neg Bool.false_ne_true]
    exact (Nat.min_eq_left (Nat.le_sub_one_of_lt (Nat.lt_of_not_le hsmall))).symm

/-!
# Places and lines
-/

/-- What stands behind a line: nothing, or a line end. -/
def LineTail (tail : List Char) : Prop :=
  forall c, tail.head? = some c -> c = '\r' ∨ c = '\n'

theorem lineText_append (place : List Char) :
    exists tail, place = lineText place ++ tail ∧ LineTail tail := by
  have hsplit := (List.takeWhile_append_dropWhile (p := fun c => c != '\n') (l := place)).symm
  have hrest : LineTail (place.dropWhile (fun c => c != '\n')) := by
    intro c hc
    right
    have hnot := List.head?_dropWhile_not (fun c => c != '\n') place
    rw [hc] at hnot
    simpa using hnot
  unfold lineText
  dsimp only
  split
  · rename_i hlast
    refine ⟨'\r' :: place.dropWhile (fun c => c != '\n'), ?_, ?_⟩
    · have hline := List.dropLast_append_getLast? '\r' hlast
      nth_rewrite 1 [hsplit]
      rw [<- hline]
      simp
    · intro c hc
      left
      exact (Option.some.inj hc).symm
  · exact ⟨_, hsplit, hrest⟩

theorem prefix_of_append {pre l tail : List Char} (h : pre <+: l ++ tail)
    (htail : forall c, tail.head? = some c -> c ∉ pre) : pre <+: l := by
  rcases Nat.le_total pre.length l.length with hle | hle
  · exact List.prefix_of_prefix_length_le h (List.prefix_append l tail) hle
  · rcases List.prefix_of_prefix_length_le (List.prefix_append l tail) h hle with ⟨more, hmore⟩
    rcases h with ⟨behind, hbehind⟩
    rw [<- hmore, List.append_assoc, List.append_cancel_left_eq] at hbehind
    cases more with
    | nil =>
        rw [List.append_nil] at hmore
        rw [hmore]
    | cons c rest =>
        have hhead : tail.head? = some c := by
          rw [<- hbehind]
          rfl
        refine absurd ?_ (htail c hhead)
        rw [<- hmore]
        exact List.mem_append_right _ List.mem_cons_self

theorem isRangeLine_append (line : List Char) {tail : List Char} (htail : LineTail tail) :
    isRangeLine (line ++ tail) = isRangeLine line := by
  unfold isRangeLine hasPrefixCase
  rw [Bool.eq_iff_iff, List.isPrefixOf_iff_prefix, List.isPrefixOf_iff_prefix]
  unfold lowerCase
  rw [List.map_append]
  constructor
  · intro h
    apply prefix_of_append h
    intro c hc
    rw [List.head?_map, Option.map_eq_some_iff] at hc
    rcases hc with ⟨c', hc', rfl⟩
    rcases htail c' hc' with rfl | rfl <;> decide
  · exact fun h => h.trans (List.prefix_append _ _)

theorem isRangeLine_place (place : List Char) :
    isRangeLine (place.dropWhile isBlank) = isRangeLine ((lineText place).dropWhile isBlank) := by
  rcases lineText_append place with ⟨tail, hplace, htail⟩
  have hstart : tail.dropWhile isBlank = tail := by
    cases tail with
    | nil => rfl
    | cons c rest =>
        rw [List.dropWhile_cons_of_neg]
        rcases htail c rfl with rfl | rfl <;> decide
  nth_rewrite 1 [hplace]
  rw [List.dropWhile_append]
  split
  · rename_i hempty
    rw [hstart, List.isEmpty_iff.mp hempty]
    exact isRangeLine_append [] htail
  · exact isRangeLine_append _ htail

/-!
# The search for the header
-/

theorem placesBehind_blanks (place : List Char) :
    placesBehind (place.dropWhile isBlank) = placesBehind place := by
  induction place with
  | nil => rfl
  | cons c rest ih =>
      by_cases hblank : isBlank c = true
      · have hne : c ≠ '\n' := by
          rintro rfl
          cases hblank
        rw [List.dropWhile_cons_of_pos hblank, ih, placesBehind, if_neg hne]
      · rw [List.dropWhile_cons_of_neg hblank]

theorem placesBehind_eq (text : List Char) :
    placesBehind text =
      match strchr '\n' text with
      | none => []
      | some eol => eol.drop 1 :: placesBehind (eol.drop 1) := by
  induction text with
  | nil => rfl
  | cons c rest ih =>
      rw [placesBehind]
      split
      · rename_i heq
        rw [heq]
        rfl
      · rename_i hne
        have hskip : (c :: rest).dropWhile (fun d => d != '\n') =
            rest.dropWhile (fun d => d != '\n') :=
          List.dropWhile_cons_of_pos (bne_iff_ne.mpr hne)
        have hsame : strchr '\n' (c :: rest) = strchr '\n' rest := by
          unfold strchr
          rw [hskip]
        rw [hsame, ih]

theorem strchr_length {c : Char} {text found : List Char} (h : strchr c text = some found) :
    found.length ≤ text.length ∧ found ≠ [] := by
  unfold strchr at h
  split at h
  · cases h
  · rename_i hne
    cases h
    exact ⟨(List.dropWhile_suffix _).length_le, hne⟩

theorem rangeLine_eq {fuel : Nat} {scan : List Char} (h : scan.length < fuel) :
    rangeLine fuel scan =
      ((placesBehind scan).find? (fun p => isRangeLine (p.dropWhile isBlank))).map
        (List.dropWhile isBlank) := by
  induction fuel generalizing scan with
  | zero => cases h
  | succ fuel ih =>
      rw [rangeLine, placesBehind_eq scan]
      cases hfound : strchr '\n' scan with
      | none => rfl
      | some eol =>
          rcases strchr_length hfound with ⟨hle, hne⟩
          have hshorter : ((eol.drop 1).dropWhile isBlank).length < fuel := by
            have hpos := List.length_pos_iff.mpr hne
            have hdrop := (List.dropWhile_suffix (l := eol.drop 1) isBlank).length_le
            rw [List.length_drop] at hdrop
            omega
          dsimp only
          rw [List.find?_cons]
          unfold isRangeLine
          cases hasPrefixCase "range:".toList ((eol.drop 1).dropWhile isBlank) with
          | true => rfl
          | false =>
              rw [if_neg Bool.false_ne_true, ih hshorter, placesBehind_blanks]
              rfl

/-- The first header line that is looked for stands at the first such place. -/
theorem find_place {places : List (List Char)} {q : List Char -> Bool} {line : List Char}
    (h : ((places.map lineText).takeWhile (fun line => !line.isEmpty)).find? q = some line) :
    exists place, places.find? (fun p => q (lineText p)) = some place ∧ lineText place = line := by
  induction places with
  | nil => cases h
  | cons p rest ih =>
      rw [List.map_cons, List.takeWhile_cons] at h
      rw [List.find?_cons]
      split at h
      · rw [List.find?_cons] at h
        cases hq : q (lineText p) with
        | true =>
            rw [hq] at h
            exact ⟨p, rfl, Option.some.inj h⟩
        | false =>
            rw [hq] at h
            exact ih h
      · cases h

/-!
# The field
-/

/-- The characters of the name are letters of it in some case. -/
theorem name_letters {line : List Char} (h : isRangeLine line = true) :
    forall c, c ∈ line.take 6 -> c.toLower ∈ "range:".toList := by
  intro c hc
  have hbegins : "range:".toList <+: lowerCase line := List.isPrefixOf_iff_prefix.mp h
  have htake : (line.take 6).map Char.toLower = "range:".toList := by
    rw [List.map_take]
    exact (List.prefix_iff_eq_take.mp hbegins).symm
  rw [<- htake]
  exact List.mem_map_of_mem hc

/-- A line with the name has no blanks in front of it, whatever is behind it. -/
theorem isRangeLine_starts {line : List Char} (h : isRangeLine line = true) (tail : List Char) :
    (line ++ tail).dropWhile isBlank = line ++ tail := by
  cases line with
  | nil => cases h
  | cons c rest =>
      have hc := name_letters h c List.mem_cons_self
      rw [List.cons_append, List.dropWhile_cons_of_neg]
      intro hblank
      unfold isBlank at hblank
      rw [Bool.or_eq_true, beq_iff_eq, beq_iff_eq] at hblank
      rcases hblank with rfl | rfl
      · exact absurd hc (by decide)
      · exact absurd hc (by decide)

/-- A request with one such field, and nothing mistaken for it in front: the header is the field,
with a line end behind it or nothing. -/
theorem rangeHeader_of_field {req value : List Char} (hfields : rangeFields req = [value])
    (hblanks : NoBlanksBefore req) :
    exists line tail, rangeHeader req = some (line ++ tail) ∧ isRangeLine line = true ∧
      LineTail tail ∧ value = ((line.drop 6).dropWhile isBlank).rdropWhile isBlank := by
  unfold rangeFields at hfields
  rcases List.map_eq_singleton_iff.mp hfields with ⟨line, hfilter, hvalue⟩
  have hline : line ∈ (headerLines req).filter isRangeLine := by
    rw [hfilter]
    exact List.mem_singleton_self line
  rcases List.mem_filter.mp hline with ⟨hmem, hrange⟩
  have hq : isRangeLine (line.dropWhile isBlank) = true := by
    have hstarts := isRangeLine_starts hrange []
    rw [List.append_nil] at hstarts
    rw [hstarts]
    exact hrange
  -- the first header line that is found is the one with the name
  have hfirst : (headerLines req).find? (fun line => isRangeLine (line.dropWhile isBlank)) =
      some line := by
    cases hfound : (headerLines req).find? (fun line => isRangeLine (line.dropWhile isBlank)) with
    | none => exact absurd hq (List.find?_eq_none.mp hfound line hmem)
    | some other =>
        have hother : other ∈ (headerLines req).filter isRangeLine :=
          List.mem_filter.mpr ⟨List.mem_of_find?_eq_some hfound, hblanks other hfound⟩
        rw [hfilter] at hother
        rw [List.mem_singleton.mp hother]
  rcases find_place hfirst with ⟨place, hplace, htext⟩
  rcases lineText_append place with ⟨tail, hsplit, htail⟩
  rw [htext] at hsplit
  refine ⟨line, tail, ?_, hrange, htail, hvalue.symm⟩
  have hsame : (placesBehind req).find? (fun p => isRangeLine (p.dropWhile isBlank)) =
      some place := by
    rw [<- hplace]
    congr 1
    funext p
    exact isRangeLine_place p
  unfold rangeHeader
  rw [rangeLine_eq (Nat.lt_succ_self _), hsame, Option.map_some, hsplit,
    isRangeLine_starts hrange tail]

/-!
# Searches on the field
-/

theorem strstr_skip {c : Char} {needle front text : List Char} (h : c ∉ front) :
    strstr (c :: needle) (front ++ text) = strstr (c :: needle) text := by
  induction front with
  | nil => rfl
  | cons d rest ih =>
      have hne : (c :: needle).isPrefixOf (d :: (rest ++ text)) = false := by
        rw [Bool.eq_false_iff]
        intro hbegins
        have heq := (List.cons_prefix_cons.mp (List.isPrefixOf_iff_prefix.mp hbegins)).1
        exact h (List.mem_cons.mpr (Or.inl heq))
      rw [List.cons_append, strstr, hne, if_neg Bool.false_ne_true]
      exact ih (fun hmem => h (List.mem_cons_of_mem d hmem))

theorem strstr_here {needle text : List Char} (hne : needle ≠ []) :
    strstr needle (needle ++ text) = some (needle ++ text) := by
  cases hall : needle ++ text with
  | nil => exact absurd (List.append_eq_nil_iff.mp hall).1 hne
  | cons c rest =>
      rw [strstr, if_pos]
      rw [List.isPrefixOf_iff_prefix, <- hall]
      exact List.prefix_append needle text

theorem strchr_skip {c : Char} {front text : List Char} (h : c ∉ front) :
    strchr c (front ++ c :: text) = some (c :: text) := by
  have hskip : (front ++ c :: text).dropWhile (fun d => d != c) = c :: text := by
    rw [List.dropWhile_append_of_pos (fun d hd => bne_iff_ne.mpr (fun heq : d = c => h (heq ▸ hd))),
      List.dropWhile_cons_of_neg]
    rw [bne_self_eq_false]
    exact Bool.false_ne_true
  unfold strchr
  rw [hskip]

/-- The line end that is found is not in front of the tail. -/
theorem lineEnd_length {front tail eol : List Char} (hfront : '\r' ∉ front)
    (h : strstr crlf (front ++ tail) = some eol) : eol.length ≤ tail.length := by
  have hcrlf : crlf = '\r' :: ['\n'] := rfl
  rw [hcrlf, strstr_skip hfront] at h
  exact (WebSocket.strstr_spec (List.cons_ne_nil _ _) h).1.length_le

theorem pastEnd_of_longer {front tail place : List Char} (hfront : '\r' ∉ front)
    (hlong : tail.length ≤ place.length) :
    pastEnd (strstr crlf (front ++ tail)) place = false := by
  unfold pastEnd
  cases hle : strstr crlf (front ++ tail) with
  | none => rfl
  | some eol =>
      have hshort := lineEnd_length hfront hle
      exact decide_eq_false (Nat.not_lt_of_le (hshort.trans hlong))

theorem digits_not_mem {a : List Char} (ha : IsDigits a) {c : Char} (hc : c.isDigit = false) :
    c ∉ a := by
  intro hmem
  rw [ha.digits c hmem] at hc
  cases hc

theorem blank_behind (l : List Char) :
    exists blanks, l = l.rdropWhile isBlank ++ blanks ∧ forall c, c ∈ blanks -> isBlank c = true := by
  have hsplit := List.takeWhile_append_dropWhile (p := isBlank) (l := l.reverse)
  refine ⟨(l.reverse.takeWhile isBlank).reverse, ?_, fun c hc => ?_⟩
  · unfold List.rdropWhile
    rw [<- List.reverse_append, hsplit, List.reverse_reverse]
  · exact List.mem_takeWhile_imp (List.mem_reverse.mp hc)

/-- The parts of a field with the text behind it: the name, the value, and what follows, which no
digit starts. -/
structure FieldParts (field front value behind tail : List Char) : Prop where
  whole : field = front ++ (value ++ behind)
  unit : 'b' ∉ front
  line : exists inner, front ++ (value ++ behind) = inner ++ tail ∧
    ('\r' ∉ value -> '\r' ∉ inner)
  short : tail.length ≤ behind.length
  apart : forall c, behind.head? = some c -> c.isDigit = false

theorem field_parts {line tail : List Char} (hrange : isRangeLine line = true)
    (htail : LineTail tail) :
    exists front behind, FieldParts (line ++ tail) front
      (((line.drop 6).dropWhile isBlank).rdropWhile isBlank) behind tail := by
  rcases blank_behind ((line.drop 6).dropWhile isBlank) with ⟨blanks, hvalue, hblanks⟩
  have hnot : forall c, c ∈ (line.drop 6).takeWhile isBlank -> isBlank c = true :=
    fun c hc => List.mem_takeWhile_imp hc
  have hfront : forall c, isBlank c = false -> c.toLower ∉ "range:".toList ->
      c ∉ line.take 6 ++ (line.drop 6).takeWhile isBlank := by
    intro c hblank hletter hmem
    rcases List.mem_append.mp hmem with hname | hspace
    · exact hletter (name_letters hrange c hname)
    · rw [hnot c hspace] at hblank
      cases hblank
  have hline : line = line.take 6 ++ (line.drop 6).takeWhile isBlank ++
      (((line.drop 6).dropWhile isBlank).rdropWhile isBlank ++ blanks) := by
    rw [<- hvalue, List.append_assoc, List.takeWhile_append_dropWhile, List.take_append_drop]
  refine ⟨line.take 6 ++ (line.drop 6).takeWhile isBlank, blanks ++ tail, ?_, ?_, ?_, ?_, ?_⟩
  · nth_rewrite 1 [hline]
    simp only [List.append_assoc]
  · exact hfront 'b' rfl (by decide)
  · refine ⟨line, ?_, fun hcr hmem => ?_⟩
    · conv_rhs => rw [hline]
      simp only [List.append_assoc]
    · rw [hline] at hmem
      rcases List.mem_append.mp hmem with hmem | hmem
      · exact hfront '\r' rfl (by decide) hmem
      rcases List.mem_append.mp hmem with hmem | hmem
      · exact hcr hmem
      · exact absurd (hblanks '\r' hmem) (by decide)
  · rw [List.length_append]
    exact Nat.le_add_left _ _
  · intro c hc
    cases blanks with
    | nil => rcases htail c hc with rfl | rfl <;> rfl
    | cons d rest =>
        cases hc
        have hblank := hblanks c List.mem_cons_self
        unfold isBlank at hblank
        rw [Bool.or_eq_true, beq_iff_eq, beq_iff_eq] at hblank
        rcases hblank with rfl | rfl <;> rfl

section
variable {field front rest behind tail : List Char}

/-- The header that is read is the text from the unit on. -/
theorem findRange_of_parts {req : List Char} (total : Nat) (hheader : rangeHeader req = some field)
    (hparts : FieldParts field front (bytesUnit ++ rest) behind tail)
    (hcr : '\r' ∉ bytesUnit ++ rest) {before after : List Char}
    (hrest : rest ++ behind = before ++ '-' :: after) (hdash : '-' ∉ before)
    (hlong : tail.length ≤ ('-' :: after).length) :
    findRange req total =
      parseRange (strstr crlf field) total (rest ++ behind) ('-' :: after) := by
  rcases hparts.line with ⟨inner, hinner, hclean⟩
  have hfield : field = inner ++ tail := hparts.whole.trans hinner
  have hunit : strstr bytesUnit field = some (bytesUnit ++ (rest ++ behind)) := by
    have hskip : strstr bytesUnit (front ++ (bytesUnit ++ rest ++ behind)) =
        strstr bytesUnit (bytesUnit ++ rest ++ behind) :=
      strstr_skip hparts.unit
    rw [hparts.whole]
    refine hskip.trans ?_
    rw [List.append_assoc]
    exact strstr_here (List.cons_ne_nil _ _)
  have hdrop : (bytesUnit ++ (rest ++ behind)).drop 6 = rest ++ behind := rfl
  have hfound : strchr '-' (rest ++ behind) = some ('-' :: after) := by
    rw [hrest]
    exact strchr_skip hdash
  have hbline : pastEnd (strstr crlf field) (bytesUnit ++ (rest ++ behind)) = false := by
    rw [hfield]
    apply pastEnd_of_longer (hclean hcr)
    rw [List.length_append, List.length_append]
    exact hparts.short.trans ((Nat.le_add_left _ _).trans (Nat.le_add_left _ _))
  have hdashline : pastEnd (strstr crlf field) ('-' :: after) = false := by
    rw [hfield]
    exact pastEnd_of_longer (hclean hcr) hlong
  unfold findRange
  rw [hheader]
  dsimp only
  rw [<- bytesUnit, hunit]
  dsimp only
  rw [hbline, if_neg Bool.false_ne_true, hdrop, hfound]
  dsimp only
  rw [hdashline, if_neg Bool.false_ne_true]

end

/-!
# One range
-/

theorem clampRange_digits {first last total : Nat} (htotal : total < 2 ^ 64) :
    clampRange (min first (2 ^ 64 - 1)) (min last (2 ^ 64 - 1)) total =
      (RangeSpec.closed first last).resolve total := by
  rw [clampRange, RangeSpec.resolve]
  by_cases hasked : first ≤ last ∧ first < total
  · have hsome : ¬(total = 0 ∨ min first (2 ^ 64 - 1) > min last (2 ^ 64 - 1) ∨
        min first (2 ^ 64 - 1) ≥ total) := by omega
    have hfirst : min first (2 ^ 64 - 1) = first := by omega
    have hlast : (if min last (2 ^ 64 - 1) ≥ total then total - 1 else min last (2 ^ 64 - 1)) =
        min last (total - 1) := by
      split <;> omega
    rw [if_neg hsome, if_pos hasked, hlast, hfirst]
  · have hnone : total = 0 ∨ min first (2 ^ 64 - 1) > min last (2 ^ 64 - 1) ∨
        min first (2 ^ 64 - 1) ≥ total := by omega
    rw [if_pos hnone, if_neg hasked]

theorem clampRange_first {first total : Nat} (htotal : total < 2 ^ 64) :
    clampRange (min first (2 ^ 64 - 1)) (lastOf total) total =
      (RangeSpec.fromFirst first).resolve total := by
  have hlastOf : lastOf total = total - 1 := by
    unfold lastOf
    split <;> omega
  rw [clampRange, RangeSpec.resolve]
  rw [hlastOf]
  by_cases hasked : first < total
  · have hsome : ¬(total = 0 ∨ min first (2 ^ 64 - 1) > total - 1 ∨
        min first (2 ^ 64 - 1) ≥ total) := by omega
    have hfirst : min first (2 ^ 64 - 1) = first := by omega
    have hlast : ¬(total - 1 ≥ total) := by omega
    rw [if_neg hsome, if_pos hasked, if_neg hlast, hfirst]
  · have hnone : total = 0 ∨ min first (2 ^ 64 - 1) > total - 1 ∨
        min first (2 ^ 64 - 1) ≥ total := by omega
    rw [if_pos hnone, if_neg hasked]

theorem suffixRange_digits {n behind : List Char} {total : Nat} (hn : IsDigits n)
    (hapart : forall c, behind.head? = some c -> c.isDigit = false) (htotal : total < 2 ^ 64) :
    suffixRange total (n ++ behind) = (RangeSpec.suffix (valueOf n)).resolve total := by
  have hcount : min (min (valueOf n) (2 ^ 64 - 1)) total = min (valueOf n) total := by omega
  rw [suffixRange, RangeSpec.resolve]
  rw [strtoul_digits hn hapart, hcount]
  have hzero : (total = 0 ∨ min (valueOf n) total = 0) ↔ (valueOf n = 0 ∨ total = 0) := by omega
  exact if_congr hzero rfl rfl

theorem lineEnd_short {inner tail : List Char} {le : Option (List Char)}
    (hclean : '\r' ∉ inner) (hle : le = strstr crlf (inner ++ tail)) {behind : List Char}
    (hlong : tail.length < behind.length) :
    le.all (fun eol => decide (behind.length > eol.length)) = true := by
  cases h : le with
  | none => rfl
  | some eol =>
      have hshort := lineEnd_length hclean (hle.symm.trans h)
      exact decide_eq_true (Nat.lt_of_le_of_lt hshort hlong)

theorem parseRange_length {le : Option (List Char)} {total : Nat} {a after : List Char}
    (ha : IsDigits a) :
    parseRange le total (a ++ '-' :: after) ('-' :: after) =
      clampRange (strtoul (a ++ '-' :: after)).1 (rangeStop le total after) total := by
  have hpos := List.length_pos_iff.mpr ha.nonempty
  unfold parseRange
  rw [if_neg]
  · rfl
  · rw [List.length_append]
    omega

theorem strtoul_dash {a : List Char} (ha : IsDigits a) (after : List Char) :
    (strtoul (a ++ '-' :: after)).1 = min (valueOf a) (2 ^ 64 - 1) := by
  apply strtoul_digits ha
  intro c hc
  cases hc
  rfl

section
variable {req line tail value : List Char} {total : Nat}

/-- A single range is cut to the bytes that there are. -/
theorem findRange_spells {spec : RangeSpec} (hheader : rangeHeader req = some (line ++ tail))
    (hrange : isRangeLine line = true) (htail : LineTail tail)
    (hvalue : value = ((line.drop 6).dropWhile isBlank).rdropWhile isBlank)
    (hspells : Spells value spec) (htotal : total < 2 ^ 64) :
    findRange req total = spec.resolve total := by
  rcases field_parts hrange htail with ⟨front, behind, hparts⟩
  rw [<- hvalue] at hparts
  have hunit : '\r' ∉ bytesUnit := by decide
  have hdigits : forall {a : List Char}, IsDigits a -> '\r' ∉ a ∧ '-' ∉ a :=
    fun ha => ⟨digits_not_mem ha rfl, digits_not_mem ha rfl⟩
  rcases hparts.line with ⟨inner, hinner, hclean⟩
  have hfield : line ++ tail = inner ++ tail := hparts.whole.trans hinner
  cases hspells with
  | @closed a b ha hb =>
      have hcr : '\r' ∉ bytesUnit ++ (a ++ '-' :: b) := by
        simp [hunit, (hdigits ha).1, (hdigits hb).1]
      have hbehind : tail.length < (b ++ behind).length := by
        have hpos := List.length_pos_iff.mpr hb.nonempty
        have hshort := hparts.short
        rw [List.length_append]
        omega
      have hwhole : (a ++ '-' :: b) ++ behind = a ++ '-' :: (b ++ behind) :=
        List.append_assoc a ('-' :: b) behind
      rw [findRange_of_parts total hheader hparts hcr hwhole (hdigits ha).2
        (Nat.le_succ_of_le (Nat.le_of_lt hbehind)), hwhole, parseRange_length ha]
      have hstop : rangeStop (strstr crlf (line ++ tail)) total (b ++ behind) =
          min (valueOf b) (2 ^ 64 - 1) := by
        unfold rangeStop
        dsimp only
        rw [lineEnd_short (hclean hcr) (congrArg _ hfield) hbehind, strtoul_digits hb hparts.apart]
        rcases b with _ | ⟨d, rest⟩
        · exact absurd rfl hb.nonempty
        · simp [hb.digits d List.mem_cons_self]
      rw [strtoul_dash ha, hstop]
      exact clampRange_digits htotal
  | @fromFirst a ha =>
      have hcr : '\r' ∉ bytesUnit ++ (a ++ ['-']) := by
        simp [hunit, (hdigits ha).1]
      have hwhole : (a ++ ['-']) ++ behind = a ++ '-' :: behind := List.append_assoc a ['-'] behind
      rw [findRange_of_parts total hheader hparts hcr hwhole (hdigits ha).2
        (Nat.le_succ_of_le hparts.short), hwhole, parseRange_length ha]
      have hstop : rangeStop (strstr crlf (line ++ tail)) total behind = lastOf total := by
        unfold rangeStop
        dsimp only
        rw [if_neg]
        intro hread
        rcases Bool.and_eq_true_iff.mp hread with ⟨_, hdigit⟩
        cases hhead : behind.head? with
        | none =>
            rw [hhead] at hdigit
            cases hdigit
        | some c =>
            rw [hhead, Option.any_some, hparts.apart c hhead] at hdigit
            cases hdigit
      rw [strtoul_dash ha, hstop]
      exact clampRange_first htotal
  | @suffix n hn =>
      have hcr : '\r' ∉ bytesUnit ++ ('-' :: n) := by
        simp [hunit, (hdigits hn).1]
      have hlong : tail.length ≤ ('-' :: (n ++ behind)).length := by
        have hshort := hparts.short
        rw [List.length_cons, List.length_append]
        omega
      rw [findRange_of_parts total hheader hparts hcr (List.nil_append ('-' :: (n ++ behind))).symm
        List.not_mem_nil hlong]
      unfold parseRange
      rw [if_pos]
      · exact suffixRange_digits hn hparts.apart htotal
      · rfl

end

/-!
# Every request
-/

end StreamServer
end PkgManager
