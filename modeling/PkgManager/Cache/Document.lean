import PkgManager.Smb.Shares

/-!
# Documents with one member a line

A member is found by the text of its key.  The search passes over the strings of other
members, since a quote in a string stands behind a backslash.
-/

namespace PkgManager
namespace Cache

open CString
open PkgManager.Parser
open PkgManager.Smb

/-!
# Escaped strings
-/

/-- The body of a string: quotes and backslashes stand behind a backslash. -/
inductive Escaped : Text -> Prop where
  | nil : Escaped []
  | plain {b : UInt8} {rest : Text} :
      b ≠ 0 -> b ≠ quote -> b ≠ backslash -> Escaped rest -> Escaped (b :: rest)
  | pair {b : UInt8} {rest : Text} : b ≠ 0 -> Escaped rest -> Escaped (backslash :: b :: rest)

/-- The reader drops the backslashes. -/
def unescaped : Text -> Text
  | [] => []
  | b :: rest =>
      if b = backslash then
        match rest with
        | [] => []
        | c :: rest => c :: unescaped rest
      else b :: unescaped rest

theorem unescaped_plain {b : UInt8} (h : b ≠ backslash) (rest : Text) :
    unescaped (b :: rest) = b :: unescaped rest := by
  rw [unescaped.eq_def]
  exact if_neg h

theorem unescaped_pair (b : UInt8) (rest : Text) :
    unescaped (backslash :: b :: rest) = b :: unescaped rest := by
  rw [unescaped.eq_def]
  exact if_pos rfl

theorem Escaped.append {a b : Text} (ha : Escaped a) (hb : Escaped b) : Escaped (a ++ b) := by
  induction ha with
  | nil => exact hb
  | plain hzero hquote hslash _ ih => exact Escaped.plain hzero hquote hslash ih
  | pair hzero _ ih => exact Escaped.pair hzero ih

theorem unescaped_append {a : Text} (ha : Escaped a) (b : Text) :
    unescaped (a ++ b) = unescaped a ++ unescaped b := by
  induction ha with
  | nil => rfl
  | plain hzero hquote hslash _ ih =>
      rw [List.cons_append, unescaped_plain hslash, unescaped_plain hslash, ih]
      rfl
  | pair hzero _ ih =>
      rw [List.cons_append, List.cons_append, unescaped_pair, unescaped_pair, ih]
      rfl

theorem escaped_of_plain {text : Text}
    (h : forall b, b ∈ text -> b ≠ 0 ∧ b ≠ quote ∧ b ≠ backslash) :
    Escaped text ∧ unescaped text = text := by
  induction text with
  | nil => exact ⟨Escaped.nil, rfl⟩
  | cons b rest ih =>
      rcases h b List.mem_cons_self with ⟨hzero, hquote, hslash⟩
      rcases ih (fun c hc => h c (List.mem_cons_of_mem b hc)) with ⟨hrest, hsame⟩
      constructor
      · exact Escaped.plain hzero hquote hslash hrest
      · rw [unescaped_plain hslash, hsame]

theorem quotedField_escaped {body : Text} (hbody : Escaped body) (tail : Text) {room : Nat}
    (hroom : (unescaped body).length ≤ room) :
    quotedField room (body ++ quote :: tail) = unescaped body := by
  induction hbody generalizing room with
  | nil =>
      cases room with
      | zero => rfl
      | succ room => simp [quotedField, unescaped]
  | @plain b rest hzero hquote hslash _ ih =>
      rw [unescaped_plain hslash] at hroom ⊢
      cases room with
      | zero => cases hroom
      | succ room =>
          have hrest := ih (Nat.le_of_succ_le_succ hroom)
          rw [List.cons_append, quotedField.eq_def]
          simp [hzero, hquote, hslash, hrest]
  | @pair b rest hzero _ ih =>
      rw [unescaped_pair] at hroom ⊢
      cases room with
      | zero => cases hroom
      | succ room =>
          have hback : (backslash == 0 || backslash == quote) = false := by decide
          have hrest := ih (Nat.le_of_succ_le_succ hroom)
          rw [List.cons_append, List.cons_append, quotedField.eq_def]
          simp [hback, hzero, hrest]

/-!
# The search for a key
-/

def isKeyByte (b : UInt8) : Bool :=
  decide (97 ≤ b.toNat ∧ b.toNat ≤ 122) || b == 95

/-- Lower case letters and underscores. -/
structure PlainKey (key : String) : Prop where
  nonempty : ascii key ≠ []
  plain : (ascii key).all isKeyByte = true

def keyMark (key : String) : Text :=
  quoted key ++ [58]

theorem keyMark_eq (key : String) : keyMark key = quote :: (ascii key ++ [quote, 58]) := by
  unfold keyMark quoted
  rw [List.cons_append, List.append_assoc]
  rfl

theorem isKeyByte_ne {b c : UInt8} (hb : isKeyByte b = true) (hc : isKeyByte c = false) :
    b ≠ c := by
  intro heq
  rw [heq, hc] at hb
  cases hb

/-- A search for the mark passes over bytes that no mark starts at. -/
theorem strstr_pass {needle rest : Text} {b : UInt8}
    (hmiss : ¬ needle <+: b :: rest) (hzero : b ≠ 0) :
    strstr needle (b :: rest) = strstr needle rest := by
  have hno : needle.isPrefixOf (b :: rest) = false := by
    rw [Bool.eq_false_iff, ne_eq, List.isPrefixOf_iff_prefix]
    exact hmiss
  have hbyte : (b == 0) = false := beq_false_of_ne hzero
  conv_lhs => unfold strstr
  rw [hno, hbyte]
  rfl

theorem strstr_here {key : String} {text : Text} (h : keyMark key <+: text) :
    strstr (keyMark key) text = some text := by
  cases text with
  | nil =>
      rw [keyMark_eq, List.prefix_nil] at h
      cases h
  | cons b rest =>
      unfold strstr
      rw [if_pos (List.isPrefixOf_iff_prefix.mpr h)]

theorem keyMark_miss {key : String} {b : UInt8} (hb : b ≠ quote) (rest : Text) :
    ¬ keyMark key <+: b :: rest := by
  rw [keyMark_eq]
  intro h
  rw [List.cons_prefix_cons] at h
  exact hb h.1.symm

theorem keyMark_pass {key : String} {text : Text}
    (h : forall b, b ∈ text -> b ≠ 0 ∧ b ≠ quote) (rest : Text) :
    strstr (keyMark key) (text ++ rest) = strstr (keyMark key) rest := by
  induction text with
  | nil => rfl
  | cons b text ih =>
      rcases h b List.mem_cons_self with ⟨hzero, hquote⟩
      rw [List.cons_append, strstr_pass (keyMark_miss hquote _) hzero]
      exact ih (fun c hc => h c (List.mem_cons_of_mem b hc))

/-- Behind a string stands the end of its member. -/
def EndsMember (tail : Text) : Prop :=
  tail.head? = some 44 ∨ tail.head? = some 10

theorem EndsMember.head_ne {tail : Text} (h : EndsMember tail) {b : UInt8}
    (hcomma : b ≠ 44) (hline : b ≠ 10) : tail.head? ≠ some b := by
  intro hhead
  rcases h with h | h
  · rw [h] at hhead
    cases hhead
    exact hcomma rfl
  · rw [h] at hhead
    cases hhead
    exact hline rfl

/-- The end of a mark is not in a string. -/
theorem markEnd_miss {body : Text} (hbody : Escaped body) {tail : Text}
    (htail : EndsMember tail) {ks : Text} (hks : ks.all isKeyByte = true) :
    ¬ ks ++ [quote, 58] <+: body ++ quote :: tail := by
  have hquoteKey : isKeyByte quote = false := by decide
  have hslashKey : isKeyByte backslash = false := by decide
  induction hbody generalizing ks with
  | nil =>
      cases ks with
      | nil =>
          intro h
          rw [List.nil_append, List.nil_append, List.cons_prefix_cons] at h
          rcases h.2 with ⟨rest, hrest⟩
          exact htail.head_ne (by decide : (58 : UInt8) ≠ 44) (by decide) (by rw [<- hrest]; rfl)
      | cons k ks =>
          intro h
          rw [List.cons_append, List.nil_append, List.cons_prefix_cons] at h
          rw [List.all_cons, Bool.and_eq_true] at hks
          exact isKeyByte_ne hks.1 hquoteKey h.1
  | plain hzero hquote hslash _ ih =>
      cases ks with
      | nil =>
          intro h
          rw [List.nil_append, List.cons_append, List.cons_prefix_cons] at h
          exact hquote h.1.symm
      | cons k ks =>
          intro h
          rw [List.cons_append, List.cons_append, List.cons_prefix_cons] at h
          rw [List.all_cons, Bool.and_eq_true] at hks
          exact ih hks.2 h.2
  | pair hzero _ ih =>
      cases ks with
      | nil =>
          intro h
          rw [List.nil_append, List.cons_append, List.cons_prefix_cons] at h
          exact absurd h.1 (by decide)
      | cons k ks =>
          intro h
          rw [List.cons_append, List.cons_append, List.cons_prefix_cons] at h
          rw [List.all_cons, Bool.and_eq_true] at hks
          exact isKeyByte_ne hks.1 hslashKey h.1

theorem closingQuote_miss {key : String} (hkey : PlainKey key) {tail : Text}
    (htail : forall b, tail.head? = some b -> isKeyByte b = false) :
    ¬ keyMark key <+: quote :: tail := by
  rw [keyMark_eq]
  intro h
  rw [List.cons_prefix_cons] at h
  have hplain := hkey.plain
  cases hbytes : ascii key with
  | nil => exact hkey.nonempty hbytes
  | cons k ks =>
      rw [hbytes] at h hplain
      rw [List.all_cons, Bool.and_eq_true] at hplain
      rcases h.2 with ⟨rest, hrest⟩
      have hno := htail k (by rw [<- hrest]; rfl)
      rw [hplain.1] at hno
      cases hno

theorem EndsMember.noKey {tail : Text} (h : EndsMember tail) :
    forall b, tail.head? = some b -> isKeyByte b = false := by
  intro b hb
  rcases h with hcomma | hline
  · rw [hcomma] at hb
    cases hb
    decide
  · rw [hline] at hb
    cases hb
    decide

theorem keyMark_pass_body {key : String} (hkey : PlainKey key) {body : Text}
    (hbody : Escaped body) {tail : Text} (htail : EndsMember tail) :
    strstr (keyMark key) (body ++ quote :: tail) = strstr (keyMark key) tail := by
  have hquoteZero : quote ≠ 0 := by decide
  have hslashZero : backslash ≠ 0 := by decide
  induction hbody with
  | nil => exact strstr_pass (closingQuote_miss hkey htail.noKey) hquoteZero
  | plain hzero hquote hslash _ ih =>
      rw [List.cons_append, strstr_pass (keyMark_miss hquote _) hzero]
      exact ih
  | @pair b rest hzero hrest ih =>
      rw [List.cons_append, List.cons_append,
        strstr_pass (keyMark_miss (by decide) _) hslashZero, strstr_pass _ hzero]
      · exact ih
      · by_cases hb : b = quote
        · rw [hb, keyMark_eq, List.cons_prefix_cons]
          intro h
          exact markEnd_miss hrest htail hkey.plain h.2
        · exact keyMark_miss hb _

theorem keyMark_pass_string {key : String} (hkey : PlainKey key) {body : Text}
    (hbody : Escaped body) {tail : Text} (htail : EndsMember tail) :
    strstr (keyMark key) (quote :: (body ++ quote :: tail)) = strstr (keyMark key) tail := by
  rw [strstr_pass _ (by decide), keyMark_pass_body hkey hbody htail]
  rw [keyMark_eq, List.cons_prefix_cons]
  intro h
  exact markEnd_miss hbody htail hkey.plain h.2

/-!
# Other keys
-/

theorem keys_eq_of_starts {ks os rest : Text} (hks : ks.all isKeyByte = true)
    (hos : os.all isKeyByte = true) (h : ks ++ [quote, 58] <+: os ++ quote :: rest) : ks = os := by
  have hquoteKey : isKeyByte quote = false := by decide
  induction ks generalizing os with
  | nil =>
      cases os with
      | nil => rfl
      | cons o os =>
          rw [List.nil_append, List.cons_append, List.cons_prefix_cons] at h
          rw [List.all_cons, Bool.and_eq_true] at hos
          exact absurd h.1.symm (isKeyByte_ne hos.1 hquoteKey)
  | cons k ks ih =>
      rw [List.all_cons, Bool.and_eq_true] at hks
      cases os with
      | nil =>
          rw [List.cons_append, List.nil_append, List.cons_prefix_cons] at h
          exact absurd h.1 (isKeyByte_ne hks.1 hquoteKey)
      | cons o os =>
          rw [List.all_cons, Bool.and_eq_true] at hos
          rw [List.cons_append, List.cons_append, List.cons_prefix_cons] at h
          rw [h.1, ih hks.2 hos.2 h.2]

theorem keyByte_plain {b : UInt8} (h : isKeyByte b = true) : b ≠ 0 ∧ b ≠ quote :=
  ⟨isKeyByte_ne h (by decide), isKeyByte_ne h (by decide)⟩

theorem keyMark_pass_key {key other : String} (hkey : PlainKey key) (hother : PlainKey other)
    (hne : ascii other ≠ ascii key) (rest : Text) :
    strstr (keyMark key) (quoted other ++ 58 :: 32 :: rest) = strstr (keyMark key) rest := by
  have hopen : ¬ keyMark key <+: quote :: (ascii other ++ quote :: 58 :: 32 :: rest) := by
    rw [keyMark_eq, List.cons_prefix_cons]
    intro h
    exact hne (keys_eq_of_starts hkey.plain hother.plain h.2).symm
  have hclose : ¬ keyMark key <+: quote :: 58 :: 32 :: rest := by
    apply closingQuote_miss hkey
    intro b hb
    cases hb
    decide
  have hkeyBytes : forall b, b ∈ ascii other -> b ≠ 0 ∧ b ≠ quote :=
    fun b hb => keyByte_plain (List.all_eq_true.mp hother.plain b hb)
  have hblank : forall b, b ∈ [(58 : UInt8), 32] -> b ≠ 0 ∧ b ≠ quote := by decide +kernel
  unfold quoted
  rw [List.cons_append, List.append_assoc, List.singleton_append, strstr_pass hopen (by decide),
    keyMark_pass hkeyBytes, strstr_pass hclose (by decide)]
  exact keyMark_pass hblank rest

/-!
# Members
-/

/-- The text of a value: a string with its body, or a number or word as it stands. -/
inductive Value where
  | string (body : Text)
  | bare (text : Text)

def isBareByte (b : UInt8) : Bool :=
  isDigit b || isKeyByte b

def Value.text : Value -> Text
  | string body => quote :: (body ++ [quote])
  | bare text => text

/-- What a reader with enough room takes from the value. -/
def Value.read : Value -> Text
  | string body => unescaped body
  | bare text => text

def Value.Fine : Value -> Prop
  | string body => Escaped body
  | bare text => text ≠ [] ∧ text.all isBareByte = true

def lineEnd (rest : List (String × Value)) : Text :=
  if rest.isEmpty then ascii "\n" else ascii ",\n"

/-- The lines of the members, up to the closing brace. -/
def memberLines : List (String × Value) -> Text
  | [] => ascii "\x7d\n"
  | (key, value) :: rest =>
      ascii "  " ++ quoted key ++ ascii ": " ++ value.text ++ lineEnd rest ++ memberLines rest

def document (members : List (String × Value)) : Text :=
  ascii "\x7b\n" ++ memberLines members

structure Readable (members : List (String × Value)) : Prop where
  keys : forall m, m ∈ members -> PlainKey m.1
  values : forall m, m ∈ members -> m.2.Fine

theorem Readable.tail {m : String × Value} {members : List (String × Value)}
    (h : Readable (m :: members)) : Readable members where
  keys := fun x hx => h.keys x (List.mem_cons_of_mem m hx)
  values := fun x hx => h.values x (List.mem_cons_of_mem m hx)

theorem isBareByte_ne {b c : UInt8} (hb : isBareByte b = true) (hc : isBareByte c = false) :
    b ≠ c := by
  intro heq
  rw [heq, hc] at hb
  cases hb

theorem keyMark_pass_value {key : String} (hkey : PlainKey key) {value : Value}
    (hvalue : value.Fine) {tail : Text} (htail : EndsMember tail) :
    strstr (keyMark key) (value.text ++ tail) = strstr (keyMark key) tail := by
  cases value with
  | string body =>
      unfold Value.text
      rw [List.cons_append, List.append_assoc, List.singleton_append]
      exact keyMark_pass_string hkey hvalue htail
  | bare text =>
      apply keyMark_pass
      intro b hb
      have hbare := List.all_eq_true.mp hvalue.2 b hb
      exact ⟨isBareByte_ne hbare (by decide), isBareByte_ne hbare (by decide)⟩

theorem lineEnd_ends (rest : List (String × Value)) (more : Text) :
    EndsMember (lineEnd rest ++ more) := by
  cases rest with
  | nil => exact Or.inr rfl
  | cons m ms => exact Or.inl rfl

theorem lineEnd_plain (rest : List (String × Value)) :
    forall b, b ∈ lineEnd rest -> b ≠ 0 ∧ b ≠ quote := by
  cases rest with
  | nil =>
      change forall b, b ∈ ascii "\n" -> _
      decide +kernel
  | cons m ms =>
      change forall b, b ∈ ascii ",\n" -> _
      decide +kernel

/-- The search finds the first member with the key. -/
theorem strstr_memberLines {key : String} (hkey : PlainKey key)
    {members : List (String × Value)} (hmembers : Readable members) {m : String × Value}
    (h : members.find? (fun m => ascii m.1 == ascii key) = some m) :
    exists tail, EndsMember tail ∧
      strstr (keyMark key) (memberLines members) =
        some (keyMark key ++ 32 :: (m.2.text ++ tail)) := by
  have hblank : forall b, b ∈ ascii "  " -> b ≠ 0 ∧ b ≠ quote := by decide +kernel
  induction members with
  | nil => cases h
  | cons first rest ih =>
      rcases first with ⟨other, value⟩
      have htail := lineEnd_ends rest (memberLines rest)
      have hpass : strstr (keyMark key) (memberLines ((other, value) :: rest)) =
          strstr (keyMark key)
            (quoted other ++ 58 :: 32 :: (value.text ++ (lineEnd rest ++ memberLines rest))) := by
        have hline : memberLines ((other, value) :: rest) = ascii "  " ++ (quoted other ++
            (ascii ": " ++ (value.text ++ (lineEnd rest ++ memberLines rest)))) := by
          rw [memberLines, List.append_assoc, List.append_assoc, List.append_assoc,
            List.append_assoc]
        rw [hline, keyMark_pass hblank]
        rfl
      rw [hpass]
      by_cases hsame : ascii other = ascii key
      · have hfirst : (ascii other == ascii key) = true := beq_iff_eq.mpr hsame
        rw [List.find?_cons, hfirst] at h
        cases h
        have hquoted : quoted other ++ 58 :: 32 :: (value.text ++ (lineEnd rest ++ memberLines rest)) =
            keyMark key ++ 32 :: (value.text ++ (lineEnd rest ++ memberLines rest)) := by
          unfold keyMark quoted
          rw [hsame]
          simp
        rw [hquoted]
        exact ⟨_, htail, strstr_here (List.prefix_append _ _)⟩
      · have hfirst : (ascii other == ascii key) = false := beq_false_of_ne hsame
        rw [List.find?_cons, hfirst] at h
        rcases ih hmembers.tail h with ⟨tail, hends, hfound⟩
        refine ⟨tail, hends, ?_⟩
        rw [keyMark_pass_key hkey (hmembers.keys _ List.mem_cons_self) hsame,
          keyMark_pass_value hkey (hmembers.values _ List.mem_cons_self) htail,
          keyMark_pass (lineEnd_plain rest)]
        exact hfound

theorem bareByte_inside {b : UInt8} (h : isBareByte b = true) :
    endsBareField b = false ∧ (b == 32 || b == 9) = false := by
  have hzero := isBareByte_ne h (by decide : isBareByte 0 = false)
  have hcomma := isBareByte_ne h (by decide : isBareByte 44 = false)
  have hbrace := isBareByte_ne h (by decide : isBareByte 125 = false)
  have hline := isBareByte_ne h (by decide : isBareByte 10 = false)
  have hreturn := isBareByte_ne h (by decide : isBareByte 13 = false)
  have hspace := isBareByte_ne h (by decide : isBareByte 32 = false)
  have htab := isBareByte_ne h (by decide : isBareByte 9 = false)
  unfold endsBareField
  simp [hzero, hcomma, hbrace, hline, hreturn, hspace, htab]

theorem fieldValue_value {value : Value} (hvalue : value.Fine) {tail : Text}
    (htail : EndsMember tail) {outMax : Nat} (hfits : value.read.length < outMax) :
    fieldValue outMax (skipBlanks (32 :: (value.text ++ tail))) = value.read := by
  have hroom : value.read.length ≤ outMax - 1 := by omega
  cases value with
  | string body =>
      change fieldValue outMax (quote :: (body ++ [quote] ++ tail)) = unescaped body
      rw [List.append_assoc, List.singleton_append]
      exact quotedField_escaped hvalue tail hroom
  | bare text =>
      change text.length ≤ outMax - 1 at hroom
      cases htext : text with
      | nil => exact absurd htext hvalue.1
      | cons b rest =>
          have hall : forall c, c ∈ text -> isBareByte c = true :=
            fun c hc => List.all_eq_true.mp hvalue.2 c hc
          rw [htext] at hall hroom
          have hb := hall b List.mem_cons_self
          have hquote : (b == quote) = false := beq_false_of_ne (isBareByte_ne hb (by decide))
          have hskip : skipBlanks (32 :: (b :: rest ++ tail)) = b :: rest ++ tail := by
            unfold skipBlanks
            rw [List.dropWhile_cons_of_pos (by decide), List.cons_append,
              List.dropWhile_cons_of_neg (by rw [(bareByte_inside hb).2]; exact Bool.false_ne_true)]
          have hstop : tail.takeWhile (fun b => !endsBareField b) = [] := by
            cases tail with
            | nil => rfl
            | cons t ts =>
                apply List.takeWhile_cons_of_neg
                rcases htail with h | h
                · cases h
                  decide
                · cases h
                  decide
          have hbare : bareField (outMax - 1) (b :: rest ++ tail) = b :: rest := by
            unfold bareField
            rw [List.takeWhile_append_of_pos
              (fun c hc => by rw [(bareByte_inside (hall c hc)).1]; rfl), hstop, List.append_nil,
              List.take_of_length_le hroom]
          change fieldValue outMax (skipBlanks (32 :: (b :: rest ++ tail))) = b :: rest
          rw [hskip]
          conv_rhs => rw [<- hbare]
          rw [List.cons_append]
          unfold fieldValue
          dsimp only
          rw [hquote]
          rfl

/-- A reader finds what the document says for the key. -/
theorem extractJsonField_document {key : String} (hkey : PlainKey key)
    {members : List (String × Value)} (hmembers : Readable members) {m : String × Value}
    (h : members.find? (fun m => ascii m.1 == ascii key) = some m) {outMax : Nat}
    (hfits : m.2.read.length < outMax) :
    extractJsonField (document members) key outMax = m.2.read := by
  have hopen : forall b, b ∈ ascii "\x7b\n" -> b ≠ 0 ∧ b ≠ quote := by decide +kernel
  rcases strstr_memberLines hkey hmembers h with ⟨tail, htail, hfound⟩
  have hvalue := hmembers.values m (List.mem_of_find?_eq_some h)
  have hsearch : strstr (keyMark key) (document members) =
      some (keyMark key ++ 32 :: (m.2.text ++ tail)) := by
    unfold document
    rw [keyMark_pass hopen, hfound]
  unfold keyMark at hsearch
  unfold extractJsonField
  rw [hsearch]
  dsimp only
  rw [List.drop_left]
  exact fieldValue_value hvalue htail hfits

end Cache
end PkgManager
