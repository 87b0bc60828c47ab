import Mathlib.Data.List.Infix
import PkgManager.Bytes.FlatObject

/-!
# Documents

A value of any depth and the texts that stand for it.  A text that stands for a value closes
every bracket it opens, which tells a text that was cut off.
-/

namespace JsonText

inductive Value where
  | string (text : List UInt8)
  | number (text : List UInt8)
  | word (text : List UInt8)
  | array (elements : List Value)
  | object (members : List (List UInt8 × Value))

/-- What a part of a document stands for. -/
inductive Meaning where
  | value (v : Value)
  | elements (vs : List Value)
  | members (ms : List (List UInt8 × Value))

inductive Derives : List UInt8 -> Meaning -> Prop where
  | string (pieces : List Piece) :
      Derives (stringText pieces) (.value (.string (decoded pieces)))
  | number {text : List UInt8} (h : IsNumber text) : Derives text (.value (.number text))
  | word {text : List UInt8} (h : IsWord text) : Derives text (.value (.word text))
  | noElements {b : List UInt8} (hb : Blank b) : Derives b (.elements [])
  | lastElement {a text b : List UInt8} {v : Value} (ha : Blank a) (hb : Blank b)
      (h : Derives text (.value v)) : Derives (a ++ (text ++ b)) (.elements [v])
  | moreElements {a text b rest : List UInt8} {v w : Value} {vs : List Value} (ha : Blank a)
      (hb : Blank b) (h : Derives text (.value v)) (hrest : Derives rest (.elements (w :: vs))) :
      Derives (a ++ (text ++ (b ++ 44 :: rest))) (.elements (v :: w :: vs))
  | noMembers {b : List UInt8} (hb : Blank b) : Derives b (.members [])
  | lastMember {a b c text d : List UInt8} {name : List Piece} {v : Value} (ha : Blank a)
      (hb : Blank b) (hc : Blank c) (hd : Blank d) (h : Derives text (.value v)) :
      Derives (a ++ (stringText name ++ (b ++ 58 :: (c ++ (text ++ d)))))
        (.members [(decoded name, v)])
  | moreMembers {a b c text d rest : List UInt8} {name : List Piece} {v : Value}
      {m : List UInt8 × Value} {ms : List (List UInt8 × Value)} (ha : Blank a) (hb : Blank b)
      (hc : Blank c) (hd : Blank d) (h : Derives text (.value v))
      (hrest : Derives rest (.members (m :: ms))) :
      Derives (a ++ (stringText name ++ (b ++ 58 :: (c ++ (text ++ (d ++ 44 :: rest))))))
        (.members ((decoded name, v) :: m :: ms))
  | array {text : List UInt8} {vs : List Value} (h : Derives text (.elements vs)) :
      Derives (91 :: (text ++ [93])) (.value (.array vs))
  | object {text : List UInt8} {ms : List (List UInt8 × Value)} (h : Derives text (.members ms)) :
      Derives (123 :: (text ++ [125])) (.value (.object ms))

/-- A text that stands for a value. -/
def Document (text : List UInt8) (v : Value) : Prop :=
  exists a body b, Blank a ∧ Blank b ∧ text = a ++ (body ++ b) ∧ Derives body (.value v)

def IsDocument (text : List UInt8) : Prop :=
  exists v, Document text v

theorem document_of_derives {text : List UInt8} {v : Value} (h : Derives text (.value v)) :
    Document text v :=
  ⟨[], text, [], rfl, rfl, by rw [List.nil_append, List.append_nil], h⟩

/-!
# Brackets
-/

inductive Place where
  | outside
  | string
  | escape
deriving DecidableEq

/-- What is known of a text from its front: the place of its end, the open brackets, and a comma
that nothing follows. -/
structure Mark where
  place : Place
  depth : Nat
  comma : Bool
deriving DecidableEq

def Mark.next (m : Mark) (b : UInt8) : Option Mark :=
  match m.place with
  | .escape => some { m with place := .string }
  | .string =>
      if b = 92 then some { m with place := .escape }
      else if b = 34 then some { m with place := .outside }
      else some m
  | .outside =>
      if b = 34 then some { place := .string, depth := m.depth, comma := false }
      else if b = 123 ∨ b = 91 then some { place := .outside, depth := m.depth + 1, comma := false }
      else if b = 125 ∨ b = 93 then
        if m.comma = true ∨ m.depth = 0 then none
        else some { place := .outside, depth := m.depth - 1, comma := false }
      else if b = 44 then some { m with comma := true }
      else if isBlank b then some m
      else some { m with comma := false }

def scan (m : Mark) : List UInt8 -> Option Mark
  | [] => some m
  | b :: rest => (m.next b).bind (fun m => scan m rest)

def outside (depth : Nat) (comma : Bool) : Mark where
  place := .outside
  depth := depth
  comma := comma

theorem scan_append (m : Mark) (a b : List UInt8) :
    scan m (a ++ b) = (scan m a).bind (fun m => scan m b) := by
  induction a generalizing m with
  | nil => rfl
  | cons x rest ih =>
      rw [List.cons_append, scan, scan, Option.bind_assoc]
      congr 1
      funext m'
      exact ih m'

theorem scan_then {m m' : Mark} {a : List UInt8} (h : scan m a = some m') (b : List UInt8) :
    scan m (a ++ b) = scan m' b := by
  rw [scan_append, h, Option.bind_some]

/-!
# Texts that stand for something
-/

theorem scan_blank {text : List UInt8} (h : Blank text) (depth : Nat) (comma : Bool) :
    scan (outside depth comma) text = some (outside depth comma) := by
  induction text with
  | nil => rfl
  | cons b rest ih =>
      have hb : isBlank b = true := List.all_eq_true.mp h b List.mem_cons_self
      have hrest : Blank rest := by
        rw [Blank, List.all_cons, Bool.and_eq_true] at h
        exact h.right
      have hne : forall c : UInt8, isBlank c = false -> b ≠ c := by
        rintro c hc rfl
        rw [hb] at hc
        cases hc
      have hnext : (outside depth comma).next b = some (outside depth comma) := by
        simp [Mark.next, outside, hb, hne 34 rfl, hne 123 rfl, hne 91 rfl, hne 125 rfl,
          hne 93 rfl, hne 44 rfl]
      rw [scan, hnext, Option.bind_some, ih hrest]

theorem next_token {b : UInt8} (h : isToken b = true) (depth : Nat) (comma : Bool) :
    (outside depth comma).next b = some (outside depth false) := by
  have hne : forall c : UInt8, isToken c = false -> b ≠ c := by
    rintro c hc rfl
    rw [h] at hc
    cases hc
  have hblank : isBlank b = false := by
    rw [Bool.eq_false_iff]
    intro hb
    simp only [isBlank, Bool.or_eq_true, beq_iff_eq] at hb
    rcases hb with ((rfl | rfl) | rfl) | rfl <;> cases h
  simp [Mark.next, outside, hblank, hne 34 rfl, hne 123 rfl, hne 91 rfl, hne 125 rfl,
    hne 93 rfl, hne 44 rfl]

theorem scan_tokens {text : List UInt8} (hne : text ≠ []) (h : text.all isToken = true)
    (depth : Nat) (comma : Bool) :
    scan (outside depth comma) text = some (outside depth false) := by
  induction text generalizing comma with
  | nil => exact absurd rfl hne
  | cons b rest ih =>
      rw [List.all_cons, Bool.and_eq_true] at h
      rw [scan, next_token h.left, Option.bind_some]
      cases rest with
      | nil => rfl
      | cons c rest => exact ih (List.cons_ne_nil c rest) h.right false

theorem scan_piece (p : Piece) (depth : Nat) (comma : Bool) :
    scan { place := .string, depth := depth, comma := comma } p.text =
      some { place := .string, depth := depth, comma := comma } := by
  have hletter : forall b : UInt8, b ≠ 34 -> b ≠ 92 ->
      Mark.next { place := .string, depth := depth, comma := comma } b =
        some { place := .string, depth := depth, comma := comma } := by
    intro b hquote hslash
    simp [Mark.next, hquote, hslash]
  cases p with
  | plain b _ mark =>
      rw [Piece.text, scan, hletter b mark.left mark.right]
      rfl
  | short e _ => rfl
  | unicode digits _ hex =>
      have hall : forall text : List UInt8, text.all isHexDigit = true ->
          scan { place := .string, depth := depth, comma := comma } text =
            some { place := .string, depth := depth, comma := comma } := by
        intro text htext
        induction text with
        | nil => rfl
        | cons b rest ih =>
            rw [List.all_cons, Bool.and_eq_true] at htext
            have hne : forall c : UInt8, isHexDigit c = false -> b ≠ c := by
              rintro c hc rfl
              rw [htext.left] at hc
              cases hc
            rw [scan, hletter b (hne 34 rfl) (hne 92 rfl), Option.bind_some, ih htext.right]
      exact hall digits hex

theorem scan_string (pieces : List Piece) (depth : Nat) (comma : Bool) :
    scan (outside depth comma) (stringText pieces) = some (outside depth false) := by
  have hinside : scan { place := .string, depth := depth, comma := false } (inside pieces) =
      some { place := .string, depth := depth, comma := false } := by
    induction pieces with
    | nil => rfl
    | cons p rest ih => rw [inside_cons, scan_then (scan_piece p depth false), ih]
  change scan { place := .string, depth := depth, comma := false } (inside pieces ++ [34]) = _
  rw [scan_then hinside]
  rfl

theorem number_ne_nil {text : List UInt8} (h : IsNumber text) : text ≠ [] := by
  rcases h with ⟨sign, whole, fraction, exponent, rfl, _, hwhole, _, _⟩
  intro hnil
  have hparts := (List.append_eq_nil_iff.mp hnil).right
  have hempty := (List.append_eq_nil_iff.mp hparts).left
  rcases hwhole with rfl | ⟨d, ds, rfl, _⟩
  · cases hempty
  · cases hempty

theorem word_ne_nil {text : List UInt8} (h : IsWord text) : text ≠ [] := by
  rcases h with rfl | rfl | rfl <;> exact List.cons_ne_nil _ _

theorem scan_colon (depth : Nat) (comma : Bool) (rest : List UInt8) :
    scan (outside depth comma) (58 :: rest) = scan (outside depth false) rest := rfl

/-- The comma at the end of a part. -/
def trailing (meaning : Meaning) (comma : Bool) : Bool :=
  match meaning with
  | .value _ => false
  | .elements [] => comma
  | .elements (_ :: _) => false
  | .members [] => comma
  | .members (_ :: _) => false

/-- A part of a document closes what it opens. -/
theorem scan_derives {text : List UInt8} {meaning : Meaning} (h : Derives text meaning)
    (depth : Nat) (comma : Bool) :
    scan (outside depth comma) text = some (outside depth (trailing meaning comma)) := by
  induction h generalizing depth comma with
  | string pieces => exact scan_string pieces depth comma
  | number h => exact scan_tokens (number_ne_nil h) (isToken_number h) depth comma
  | word h => exact scan_tokens (word_ne_nil h) (isToken_word h) depth comma
  | noElements hb => exact scan_blank hb depth comma
  | noMembers hb => exact scan_blank hb depth comma
  | lastElement ha hb _ ih =>
      rw [scan_then (scan_blank ha depth comma), scan_then (ih depth comma)]
      exact scan_blank hb depth false
  | moreElements ha hb _ _ ih ihrest =>
      rw [scan_then (scan_blank ha depth comma), scan_then (ih depth comma), trailing,
        scan_then (scan_blank hb depth false)]
      exact ihrest depth true
  | @lastMember _ _ _ _ _ name _ ha hb hc hd _ ih =>
      rw [scan_then (scan_blank ha depth comma), scan_then (scan_string name depth comma),
        scan_then (scan_blank hb depth false), scan_colon, scan_then (scan_blank hc depth false),
        scan_then (ih depth false)]
      exact scan_blank hd depth false
  | @moreMembers _ _ _ _ _ _ name _ _ _ ha hb hc hd _ _ ih ihrest =>
      rw [scan_then (scan_blank ha depth comma), scan_then (scan_string name depth comma),
        scan_then (scan_blank hb depth false), scan_colon, scan_then (scan_blank hc depth false),
        scan_then (ih depth false), trailing, scan_then (scan_blank hd depth false)]
      exact ihrest depth true
  | @array text vs _ ih =>
      change scan (outside (depth + 1) false) (text ++ [93]) = some (outside depth false)
      rw [scan_then (ih (depth + 1) false)]
      have hfalse : trailing (.elements vs) false = false := by
        cases vs <;> rfl
      rw [hfalse]
      rfl
  | @object text ms _ ih =>
      change scan (outside (depth + 1) false) (text ++ [125]) = some (outside depth false)
      rw [scan_then (ih (depth + 1) false)]
      have hfalse : trailing (.members ms) false = false := by
        cases ms <;> rfl
      rw [hfalse]
      rfl

theorem scan_document {text : List UInt8} (h : IsDocument text) :
    scan (outside 0 false) text = some (outside 0 false) := by
  rcases h with ⟨v, a, body, b, ha, hb, rfl, hbody⟩
  rw [scan_then (scan_blank ha 0 false), scan_then (scan_derives hbody 0 false)]
  exact scan_blank hb 0 false

/-!
# Texts that are cut off
-/

/-- Further brackets around a text are not seen in it. -/
theorem scan_deeper {m m' : Mark} {text : List UInt8} (h : scan m text = some m') (more : Nat) :
    scan { m with depth := m.depth + more } text = some { m' with depth := m'.depth + more } := by
  induction text generalizing m with
  | nil =>
      cases h
      rfl
  | cons b rest ih =>
      rcases Option.bind_eq_some_iff.mp h with ⟨m'', hnext, hrest⟩
      have hdeeper : Mark.next { m with depth := m.depth + more } b =
          some { m'' with depth := m''.depth + more } := by
        rcases m with ⟨place, depth, comma⟩
        unfold Mark.next at hnext ⊢
        cases place with
        | escape =>
            cases hnext
            rfl
        | string =>
            dsimp only at hnext ⊢
            split_ifs at hnext ⊢ <;> cases hnext <;> rfl
        | outside =>
            dsimp only at hnext ⊢
            split at hnext
            · rename_i hquote
              cases hnext
              rw [if_pos hquote]
            · rename_i hquote
              rw [if_neg hquote]
              split at hnext
              · rename_i hopen
                cases hnext
                rw [if_pos hopen, Nat.add_right_comm]
              · rename_i hopen
                rw [if_neg hopen]
                split at hnext
                · rename_i hclose
                  rw [if_pos hclose]
                  split at hnext
                  · cases hnext
                  · rename_i hgo
                    cases hnext
                    rw [not_or] at hgo
                    have hpos : depth + more - 1 = depth - 1 + more := by omega
                    rw [if_neg (not_or.mpr ⟨hgo.left, by omega⟩), hpos]
                · rename_i hclose
                  rw [if_neg hclose]
                  split_ifs at hnext ⊢ <;> cases hnext <;> rfl
      rw [scan, hdeeper, Option.bind_some, ih hrest]

/-- A byte closes one bracket at most. -/
theorem next_depth {m m' : Mark} {b : UInt8} (h : m.next b = some m') :
    m.depth ≤ m'.depth + 1 := by
  unfold Mark.next at h
  split at h
  · cases h
    exact Nat.le_succ _
  · split_ifs at h <;> cases h <;> exact Nat.le_succ _
  · split_ifs at h <;> cases h <;> simp <;> omega

theorem scan_depth {m m' : Mark} {text : List UInt8} (h : scan m text = some m') :
    m.depth ≤ m'.depth + text.length := by
  induction text generalizing m with
  | nil =>
      cases h
      exact Nat.le_refl _
  | cons b rest ih =>
      rcases Option.bind_eq_some_iff.mp h with ⟨m'', hnext, hrest⟩
      have hone := next_depth hnext
      have hmore := ih hrest
      rw [List.length_cons]
      omega

theorem scan_front {m m' : Mark} {a b : List UInt8} (h : scan m (a ++ b) = some m') :
    exists m'', scan m a = some m'' := by
  rw [scan_append] at h
  rcases Option.bind_eq_some_iff.mp h with ⟨m'', ha, _⟩
  exact ⟨m'', ha⟩

/-- The front of an object that is cut off leaves its bracket open. -/
theorem scan_cut {members front more : List UInt8} {ms : List (List UInt8 × Value)}
    (h : Derives members (.members ms)) (hcut : members = front ++ more) (depth : Nat)
    (comma : Bool) :
    exists m, scan (outside depth comma) (123 :: front) = some m ∧ depth < m.depth := by
  have hwhole := scan_derives h 0 false
  rw [hcut] at hwhole
  rcases scan_front hwhole with ⟨m, hm⟩
  have hdeeper := scan_deeper hm (depth + 1)
  have hstart : outside (0 + (depth + 1)) false = outside (depth + 1) false := by
    rw [Nat.zero_add]
  refine ⟨{ m with depth := m.depth + (depth + 1) }, ?_, ?_⟩
  · change scan (outside (depth + 1) false) front = _
    rw [<- hstart]
    exact hdeeper
  · change depth < m.depth + (depth + 1)
    omega

/-- With more open brackets than bytes behind it, a text is no document. -/
theorem not_document_of_depth {front behind : List UInt8} {m : Mark}
    (h : scan (outside 0 false) front = some m) (hdepth : behind.length < m.depth) :
    ¬IsDocument (front ++ behind) := by
  intro hdoc
  have hscan := scan_document hdoc
  rw [scan_then h] at hscan
  have hlen := scan_depth hscan
  change m.depth ≤ 0 + behind.length at hlen
  omega

/-!
# Texts without white space
-/

theorem derives_element {text : List UInt8} {v : Value} (h : Derives text (.value v)) :
    Derives text (.elements [v]) := by
  have hlast := Derives.lastElement (a := []) (b := []) rfl rfl h
  rwa [List.nil_append, List.append_nil] at hlast

theorem derives_cons_element {text rest : List UInt8} {v w : Value} {vs : List Value}
    (h : Derives text (.value v)) (hrest : Derives rest (.elements (w :: vs))) :
    Derives (text ++ 44 :: rest) (.elements (v :: w :: vs)) :=
  Derives.moreElements (a := []) (b := []) rfl rfl h hrest

theorem derives_member (name : List Piece) {text : List UInt8} {v : Value}
    (h : Derives text (.value v)) :
    Derives (stringText name ++ 58 :: text) (.members [(decoded name, v)]) := by
  have hlast := @Derives.lastMember [] [] [] text [] name v rfl rfl rfl rfl h
  rw [List.nil_append, List.nil_append, List.nil_append, List.append_nil] at hlast
  exact hlast

theorem derives_cons_member (name : List Piece) {text rest : List UInt8} {v : Value}
    {m : List UInt8 × Value} {ms : List (List UInt8 × Value)} (h : Derives text (.value v))
    (hrest : Derives rest (.members (m :: ms))) :
    Derives (stringText name ++ 58 :: (text ++ 44 :: rest))
      (.members ((decoded name, v) :: m :: ms)) :=
  Derives.moreMembers (a := []) (b := []) (c := []) (d := []) rfl rfl rfl rfl h hrest

/-!
# Letters
-/

theorem inside_letters {text : List UInt8} (h : text.all isPrinted = true) :
    inside (letters text h) = text := by
  unfold inside letters
  rw [List.flatMap_map]
  change text.attach.flatMap (fun b => [b.val]) = text
  rw [<- List.map_eq_flatMap, List.attach_map_subtype_val]

theorem decoded_letters {text : List UInt8} (h : text.all isPrinted = true) :
    decoded (letters text h) = text := by
  have hplain : forall p, p ∈ letters text h -> p.Literal := by
    intro p hp
    rcases List.mem_map.mp hp with ⟨b, _, rfl⟩
    exact trivial
  rw [decoded_eq_bare.mpr hplain]
  unfold bare letters
  rw [List.flatMap_map]
  change text.attach.flatMap (fun b => [b.val]) = text
  rw [<- List.map_eq_flatMap, List.attach_map_subtype_val]

end JsonText

/-!
# Strings that are followed

A text is read byte by byte; only the string is known that a byte stands in.  Behind a string
comes a mark, which tells a text that closes a string in the wrong place.
-/

namespace JsonText

inductive Spot where
  | between
  | closed
  | inString
  | slash
  | digits (read : List UInt8)
deriving DecidableEq

def Spot.next : Spot -> UInt8 -> Option Spot
  | .between, b => some (if b = 34 then .inString else .between)
  | .closed, b =>
      if b = 44 ∨ b = 58 ∨ b = 93 ∨ b = 125 then some .between
      else if isBlank b then some .closed
      else none
  | .inString, b =>
      if b = 34 then some .closed
      else if b = 92 then some .slash
      else if b.toNat < 32 then none
      else some .inString
  | .slash, b =>
      if b = 117 then some (.digits [])
      else if b ∈ shortEscapes then some .inString
      else none
  | .digits read, b =>
      if isHexDigit b then some (if read.length = 3 then .inString else .digits (read ++ [b]))
      else none

def follow (s : Spot) : List UInt8 -> Option Spot
  | [] => some s
  | b :: rest => (s.next b).bind (fun s => follow s rest)

theorem follow_append (s : Spot) (a b : List UInt8) :
    follow s (a ++ b) = (follow s a).bind (fun s => follow s b) := by
  induction a generalizing s with
  | nil => rfl
  | cons x rest ih =>
      rw [List.cons_append, follow, follow, Option.bind_assoc]
      congr 1
      funext s'
      exact ih s'

theorem follow_then {s s' : Spot} {a : List UInt8} (h : follow s a = some s') (b : List UInt8) :
    follow s (a ++ b) = follow s' b := by
  rw [follow_append, h, Option.bind_some]

/-- No string is open. -/
def Spot.Resting (s : Spot) : Prop :=
  s = .between ∨ s = .closed

theorem follow_blank {s : Spot} (hs : s.Resting) {text : List UInt8} (h : Blank text) :
    follow s text = some s := by
  induction text with
  | nil => rfl
  | cons b rest ih =>
      rw [Blank, List.all_cons, Bool.and_eq_true] at h
      have hne : forall c : UInt8, isBlank c = false -> b ≠ c := by
        rintro c hc rfl
        rw [h.left] at hc
        cases hc
      have hnext : s.next b = some s := by
        rcases hs with rfl | rfl
        · simp [Spot.next, hne 34 rfl]
        · simp [Spot.next, hne 44 rfl, hne 58 rfl, hne 93 rfl, hne 125 rfl, h.left]
      rw [follow, hnext, Option.bind_some, ih h.right]

theorem follow_tokens {text : List UInt8} (h : text.all isToken = true) :
    follow .between text = some .between := by
  induction text with
  | nil => rfl
  | cons b rest ih =>
      rw [List.all_cons, Bool.and_eq_true] at h
      have hquote : b ≠ 34 := by
        rintro rfl
        cases h.left
      rw [follow, Spot.next, if_neg hquote, Option.bind_some, ih h.right]

theorem follow_hex (read : List UInt8) {text : List UInt8} (h : text.all isHexDigit = true)
    (hne : text ≠ []) (hfour : read.length + text.length = 4) :
    follow (.digits read) text = some .inString := by
  induction text generalizing read with
  | nil => exact absurd rfl hne
  | cons b rest ih =>
      rw [List.all_cons, Bool.and_eq_true] at h
      rw [List.length_cons] at hfour
      rw [follow, Spot.next, if_pos h.left, Option.bind_some]
      cases rest with
      | nil =>
          rw [if_pos (by simpa using hfour)]
          rfl
      | cons c rest =>
          rw [List.length_cons] at hfour
          rw [if_neg (by omega)]
          exact ih (read ++ [b]) h.right (List.cons_ne_nil c rest)
            (by rw [List.length_append, List.length_singleton, List.length_cons]; omega)

theorem follow_piece (p : Piece) : follow .inString p.text = some .inString := by
  cases p with
  | plain b printed mark =>
      rw [Piece.text, follow, Spot.next, if_neg mark.left, if_neg mark.right,
        if_neg (Nat.not_lt.mpr printed)]
      rfl
  | short e known =>
      have hunicode : e ≠ 117 := by
        rintro rfl
        revert known
        decide
      change ((Spot.next .slash e).bind (fun s => follow s [])) = some .inString
      rw [Spot.next, if_neg hunicode, if_pos known]
      rfl
  | unicode digits four hex =>
      change follow (.digits []) digits = some .inString
      have hne : digits ≠ [] := by
        rintro rfl
        cases four
      exact follow_hex [] hex hne (by simpa using four)

theorem follow_inside (pieces : List Piece) :
    follow .inString (inside pieces) = some .inString := by
  induction pieces with
  | nil => rfl
  | cons p rest ih => rw [inside_cons, follow_then (follow_piece p), ih]

theorem follow_string (pieces : List Piece) :
    follow .between (stringText pieces) = some .closed := by
  change follow .inString (inside pieces ++ [34]) = some .closed
  rw [follow_then (follow_inside pieces)]
  rfl

/-- A mark between two parts. -/
theorem follow_mark {s : Spot} (hs : s.Resting) {b : UInt8}
    (hb : b = 44 ∨ b = 58 ∨ b = 93 ∨ b = 125) (rest : List UInt8) :
    follow s (b :: rest) = follow .between rest := by
  rcases hs with rfl | rfl <;> rcases hb with rfl | rfl | rfl | rfl <;> rfl

/-- A part of a document leaves no string open. -/
theorem follow_derives {text : List UInt8} {meaning : Meaning} (h : Derives text meaning) :
    exists s, follow .between text = some s ∧ s.Resting := by
  have hstart : Spot.Resting .between := Or.inl rfl
  have hclosed : Spot.Resting .closed := Or.inr rfl
  induction h with
  | string pieces => exact ⟨.closed, follow_string pieces, hclosed⟩
  | number h => exact ⟨.between, follow_tokens (isToken_number h), hstart⟩
  | word h => exact ⟨.between, follow_tokens (isToken_word h), hstart⟩
  | noElements hb => exact ⟨.between, follow_blank hstart hb, hstart⟩
  | noMembers hb => exact ⟨.between, follow_blank hstart hb, hstart⟩
  | lastElement ha hb _ ih =>
      rcases ih with ⟨s, hs, hrest⟩
      refine ⟨s, ?_, hrest⟩
      rw [follow_then (follow_blank hstart ha), follow_then hs, follow_blank hrest hb]
  | moreElements ha hb _ _ ih ihrest =>
      rcases ih with ⟨s, hs, hrest⟩
      rw [follow_then (follow_blank hstart ha), follow_then hs, follow_then (follow_blank hrest hb),
        follow_mark hrest (Or.inl rfl)]
      exact ihrest
  | @lastMember _ _ _ _ _ name _ ha hb hc hd _ ih =>
      rcases ih with ⟨s, hs, hrest⟩
      refine ⟨s, ?_, hrest⟩
      rw [follow_then (follow_blank hstart ha), follow_then (follow_string name),
        follow_then (follow_blank hclosed hb), follow_mark hclosed (Or.inr (Or.inl rfl)),
        follow_then (follow_blank hstart hc), follow_then hs, follow_blank hrest hd]
  | @moreMembers _ _ _ _ _ _ name _ _ _ ha hb hc hd _ _ ih ihrest =>
      rcases ih with ⟨s, hs, hrest⟩
      rw [follow_then (follow_blank hstart ha), follow_then (follow_string name),
        follow_then (follow_blank hclosed hb), follow_mark hclosed (Or.inr (Or.inl rfl)),
        follow_then (follow_blank hstart hc), follow_then hs, follow_then (follow_blank hrest hd),
        follow_mark hrest (Or.inl rfl)]
      exact ihrest
  | @array text _ _ ih =>
      rcases ih with ⟨s, hs, hrest⟩
      refine ⟨.between, ?_, hstart⟩
      change follow .between (text ++ [93]) = _
      rw [follow_then hs, follow_mark hrest (Or.inr (Or.inr (Or.inl rfl)))]
      rfl
  | @object text _ _ ih =>
      rcases ih with ⟨s, hs, hrest⟩
      refine ⟨.between, ?_, hstart⟩
      change follow .between (text ++ [125]) = _
      rw [follow_then hs, follow_mark hrest (Or.inr (Or.inr (Or.inr rfl)))]
      rfl

theorem follow_document {text : List UInt8} (h : IsDocument text) :
    exists s, follow .between text = some s := by
  rcases h with ⟨v, a, body, b, ha, hb, rfl, hbody⟩
  rcases follow_derives hbody with ⟨s, hs, hrest⟩
  rw [follow_then (follow_blank (Or.inl rfl) ha), follow_then hs, follow_blank hrest hb]
  exact ⟨s, rfl⟩

/-!
# Texts that stay in a string
-/

/-- A text that may stand between two quotation marks. -/
def IsInside (text : List UInt8) : Prop :=
  exists pieces, text = inside pieces

/-- The bytes of the character that is being read. -/
inductive Pending : Spot -> List UInt8 -> Prop where
  | inString : Pending .inString []
  | slash : Pending .slash [92]
  | digits {read : List UInt8} (short : read.length ≤ 3) (hex : read.all isHexDigit = true) :
      Pending (.digits read) (92 :: 117 :: read)

theorem pending_next {s s' : Spot} {front : List UInt8} (hs : Pending s front) {b : UInt8}
    (hb : b ≠ 34) (h : s.next b = some s') :
    exists pieces front', Pending s' front' ∧ front ++ [b] = inside pieces ++ front' := by
  cases hs with
  | inString =>
      rw [Spot.next, if_neg hb] at h
      split at h
      · rename_i hslash
        cases h
        exact ⟨[], [92], .slash, by rw [hslash]; rfl⟩
      · rename_i hslash
        split at h
        · cases h
        · rename_i hprinted
          cases h
          exact ⟨[.plain b (Nat.le_of_not_lt hprinted) ⟨hb, hslash⟩], [], .inString, rfl⟩
  | slash =>
      rw [Spot.next] at h
      split at h
      · rename_i hunicode
        cases h
        exact ⟨[], [92, 117], .digits (Nat.zero_le 3) rfl, by rw [hunicode]; rfl⟩
      · split at h
        · rename_i hknown
          cases h
          exact ⟨[.short b hknown], [], .inString, rfl⟩
        · cases h
  | @digits read short hex =>
      rw [Spot.next] at h
      split at h
      · rename_i hhex
        have hall : (read ++ [b]).all isHexDigit = true := by
          rw [List.all_append, hex, List.all_cons, hhex]
          rfl
        have hlen : (read ++ [b]).length = read.length + 1 := List.length_append
        split at h
        · rename_i hthree
          cases h
          exact ⟨[.unicode (read ++ [b]) (by rw [hlen, hthree]) hall], [], .inString, by
            simp [inside, Piece.text]⟩
        · rename_i hthree
          cases h
          exact ⟨[], 92 :: 117 :: (read ++ [b]), .digits (by omega) hall, rfl⟩
      · cases h

/-- Without a quotation mark a text does not leave the string. -/
theorem pending_follow {s s' : Spot} {front : List UInt8} (hs : Pending s front)
    {text : List UInt8} (hquote : 34 ∉ text) (h : follow s text = some s') :
    exists pieces front', Pending s' front' ∧ front ++ text = inside pieces ++ front' := by
  induction text generalizing s front with
  | nil =>
      cases h
      exact ⟨[], front, hs, List.append_nil front⟩
  | cons b rest ih =>
      rcases Option.bind_eq_some_iff.mp h with ⟨s'', hnext, hrest⟩
      have hb : b ≠ 34 := fun hb => hquote (hb ▸ List.mem_cons_self)
      rcases pending_next hs hb hnext with ⟨first, middle, hmiddle, htext⟩
      rcases ih hmiddle (fun hmem => hquote (List.mem_cons_of_mem b hmem)) hrest with
        ⟨more, front', hfront, hmore⟩
      refine ⟨first ++ more, front', hfront, ?_⟩
      rw [List.append_cons, htext, List.append_assoc, hmore]
      simp [inside]

/-- A string is closed behind a text when a comma and the next name follow. -/
theorem inside_of_follow {text rest : List UInt8} (hquote : 34 ∉ text) {b : UInt8}
    (hb : isToken b = true) {s : Spot}
    (h : follow .inString (text ++ 34 :: 44 :: 34 :: b :: rest) = some s) : IsInside text := by
  rw [follow_append] at h
  rcases Option.bind_eq_some_iff.mp h with ⟨s', htext, hrest⟩
  rcases pending_follow .inString hquote htext with ⟨pieces, front, hfront, hsame⟩
  cases hfront with
  | inString => exact ⟨pieces, by simpa using hsame⟩
  | slash =>
      have hne : forall c : UInt8, isToken c = false -> b ≠ c := by
        rintro c hc rfl
        rw [hb] at hc
        cases hc
      have hblank : isBlank b = false := by
        rw [Bool.eq_false_iff]
        intro hb'
        simp only [isBlank, Bool.or_eq_true, beq_iff_eq] at hb'
        rcases hb' with ((rfl | rfl) | rfl) | rfl <;> cases hb
      have hnone : Spot.next .closed b = none := by
        simp [Spot.next, hblank, hne 44 rfl, hne 58 rfl, hne 93 rfl, hne 125 rfl]
      change (Spot.next .closed b).bind (fun s => follow s rest) = some s at hrest
      rw [hnone] at hrest
      cases hrest
  | digits _ _ => cases hrest

end JsonText
