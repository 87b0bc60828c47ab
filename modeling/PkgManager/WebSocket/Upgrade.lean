import Mathlib.Data.List.Infix
import Mathlib.Data.List.TakeWhile
import PkgManager.WebSocket.Frame

/-!
# The HTTP upgrade

What {lit}`ws_conn_worker` reads out of the bytes before the first frame.  The
buffer may already hold frames behind the headers; they are not looked at.
-/

namespace PkgManager
namespace WebSocket

def crlf : List Char := ['\r', '\n']

/-- The blank line that ends the headers. -/
def crlf2 : List Char := crlf ++ crlf

/-- The position behind the headers. -/
def headerEnd (text : List Char) : Option Nat :=
  (strstr crlf2 text).map (fun hend => text.length - hend.length + 4)

def isSpace (c : Char) : Bool :=
  c == ' ' || decide (9 ≤ c.toNat ∧ c.toNat ≤ 13)

/-- A {lit}`%s` of {lit}`sscanf` with a width, and the text behind it. -/
def scanToken (width : Nat) (text : List Char) : List Char × List Char :=
  let start := text.dropWhile isSpace
  let token := (start.takeWhile (fun c => !isSpace c)).take width
  (token, start.drop token.length)

/-- A header line, and the text from its end. -/
def splitLine (p : List Char) : List Char × List Char :=
  match strstr crlf p with
  | some eol => (p.take (p.length - eol.length), eol)
  | none =>
      match strchr '\n' p with
      | some eol => (p.take (p.length - eol.length), eol)
      | none => (p, [])

/-- The text behind a line end. -/
def nextText (eol : List Char) : List Char :=
  if crlf.isPrefixOf eol then eol.drop 2 else eol.drop 1

/-- The lines up to the first blank one. -/
def headerLines : Nat -> List Char -> List (List Char)
  | 0, _ => []
  | fuel + 1, p =>
      if p.isEmpty then []
      else
        let line := (splitLine p).1
        let eol := (splitLine p).2
        if eol.isEmpty then [line]
        else
          let next := nextText eol
          if next.isEmpty || next.head? == some '\r' || next.head? == some '\n' then [line]
          else line :: headerLines fuel next

/-- The value when the line is the header of that name, cut and trimmed. -/
def headerValue (name : String) (vmax : Nat) (line : List Char) : Option (List Char) :=
  let nlen := name.toList.length
  if line.length > nlen + 1 ∧ lowerCase (line.take nlen) = lowerCase name.toList ∧
      (line.drop nlen).head? = some ':' then
    let v := (line.drop (nlen + 1)).dropWhile (fun c => c == ' ' || c == '\t')
    let cut := v.take (vmax - 1)
    some (cut.reverse.dropWhile
      (fun c => c == ' ' || c == '\t' || c == '\r' || c == '\n')).reverse
  else none

def hasHeader (hdrs : List Char) (name : String) (vmax : Nat) : Option (List Char) :=
  (headerLines (hdrs.length + 1) hdrs).findSome? (headerValue name vmax)

/-- {lit}`ws_direct_handshake_accept_key` returns 0: the trimmed key is not
empty. -/
def acceptKeyOk (key : List Char) : Bool :=
  let start := key.dropWhile (fun c => c == ' ' || c == '\t')
  !((start.take 255).reverse.dropWhile
    (fun c => c == ' ' || c == '\t' || c == '\r' || c == '\n')).isEmpty

def acceptsUpgrade (hs : List Char) : Bool :=
  let method := scanToken 15 hs
  let path := (scanToken 511 method.2).1
  method.1 == "GET".toList && "/ws/upload".toList.isPrefixOf path &&
    (hasHeader hs "Upgrade" 64).any
      (fun up => (strstr "websocket".toList (lowerCase up)).isSome) &&
    (hasHeader hs "Sec-WebSocket-Key" 256).any acceptKeyOk

/-!
# Searching a text that goes on
-/

theorem strstr_spec {needle text rest : List Char} (hne : needle ≠ [])
    (h : strstr needle text = some rest) : rest <:+ text ∧ needle <+: rest := by
  induction text with
  | nil =>
      unfold strstr at h
      split at h
      · rename_i hempty
        exact absurd (List.isEmpty_iff.mp hempty) hne
      · cases h
  | cons c cs ih =>
      rw [strstr] at h
      split at h
      · rename_i hpre
        cases h
        exact ⟨List.suffix_refl _, List.isPrefixOf_iff_prefix.mp hpre⟩
      · rcases ih h with ⟨hends, hstarts⟩
        exact ⟨hends.trans (List.suffix_cons c cs), hstarts⟩

theorem strstr_append {needle text rest : List Char} (hne : needle ≠ [])
    (h : strstr needle text = some rest) (more : List Char) :
    strstr needle (text ++ more) = some (rest ++ more) := by
  induction text with
  | nil =>
      rcases strstr_spec hne h with ⟨hends, hstarts⟩
      have hrest : rest = [] := List.suffix_nil.mp hends
      rw [hrest] at hstarts
      exact absurd (List.prefix_nil.mp hstarts) hne
  | cons c cs ih =>
      rw [strstr] at h
      rw [List.cons_append, strstr]
      by_cases hpre : needle.isPrefixOf (c :: cs) = true
      · rw [if_pos hpre] at h
        cases h
        have hlonger : needle <+: c :: (cs ++ more) :=
          (List.isPrefixOf_iff_prefix.mp hpre).trans (List.prefix_append (c :: cs) more)
        rw [if_pos (List.isPrefixOf_iff_prefix.mpr hlonger)]
        rfl
      · rw [if_neg hpre] at h
        have hnot : ¬ needle.isPrefixOf (c :: (cs ++ more)) = true := by
          intro hlonger
          rcases strstr_spec hne h with ⟨hends, hstarts⟩
          have hlen : needle.length ≤ (c :: cs).length :=
            Nat.le_trans hstarts.length_le (Nat.le_succ_of_le hends.length_le)
          apply hpre
          rw [List.isPrefixOf_iff_prefix] at hlonger ⊢
          exact List.prefix_of_prefix_length_le hlonger (List.prefix_append (c :: cs) more) hlen
        rw [if_neg hnot]
        exact ih h

/-- A text that contains the needle: the first place is not behind that one. -/
theorem strstr_found (needle pre post : List Char) :
    exists rest, strstr needle (pre ++ (needle ++ post)) = some rest ∧
      (needle ++ post).length ≤ rest.length := by
  induction pre with
  | nil =>
      rw [List.nil_append]
      cases hall : needle ++ post with
      | nil =>
          have hempty : needle = [] := (List.append_eq_nil_iff.mp hall).1
          rw [hempty]
          exact ⟨[], rfl, Nat.le_refl _⟩
      | cons c cs =>
          refine ⟨c :: cs, ?_, Nat.le_refl _⟩
          rw [strstr, if_pos]
          rw [List.isPrefixOf_iff_prefix, ← hall]
          exact List.prefix_append needle post
  | cons c cs ih =>
      rw [List.cons_append, strstr]
      split
      · refine ⟨_, rfl, ?_⟩
        simp only [List.length_cons, List.length_append]
        omega
      · exact ih

/-!
# What is behind the headers is not looked at
-/

theorem splitLine_append {p : List Char} (h : crlf2 <:+ p) :
    exists line eol, crlf <+: eol ∧ eol <:+ p ∧ 4 ≤ eol.length ∧
      forall more, splitLine (p ++ more) = (line, eol ++ more) := by
  rcases h with ⟨pre, hp⟩
  rcases strstr_found crlf pre crlf with ⟨eol, hfound, hlen⟩
  have hfound' : strstr crlf p = some eol := by
    rw [← hp]
    exact hfound
  rcases strstr_spec (by decide) hfound' with ⟨hends, hstarts⟩
  refine ⟨p.take (p.length - eol.length), eol, hstarts, hends, hlen, ?_⟩
  intro more
  unfold splitLine
  rw [strstr_append (by decide) hfound' more]
  dsimp only
  have hsize : (p ++ more).length - (eol ++ more).length = p.length - eol.length := by
    rw [List.length_append, List.length_append]
    omega
  rw [hsize, List.take_append_of_le_length (Nat.sub_le _ _)]

/-- The rest behind a line end, while the blank line has not been reached. -/
theorem next_line {p eol : List Char} (hp : crlf2 <:+ p) (hstarts : crlf <+: eol)
    (hends : eol <:+ p) (hlen : 4 ≤ eol.length) :
    exists c next, eol.drop 2 = c :: next ∧ (c ≠ '\r' -> crlf2 <:+ c :: next) := by
  rcases hstarts with ⟨rest, heol⟩
  have hdrop : eol.drop 2 = rest := by
    rw [← heol]
    rfl
  have hrest : 2 ≤ rest.length := by
    rw [← heol] at hlen
    simp only [crlf, List.length_append, List.length_cons, List.length_nil] at hlen
    omega
  have hrestSuffix : rest <:+ p := (List.suffix_append crlf rest).trans (by rw [heol]; exact hends)
  cases rest with
  | nil =>
      rw [List.length_nil] at hrest
      omega
  | cons c next =>
      refine ⟨c, next, hdrop, ?_⟩
      intro hc
      by_cases hlong : crlf2.length ≤ (c :: next).length
      · exact List.suffix_of_suffix_length_le hp hrestSuffix hlong
      · -- two or three characters of the blank line are left
        exfalso
        have hshort : (c :: next) <:+ crlf2 :=
          List.suffix_of_suffix_length_le hrestSuffix hp (by omega)
        have heolSuffix : crlf2 <:+ eol := List.suffix_of_suffix_length_le hp hends hlen
        rcases hshort with ⟨front, hfront⟩
        have hsize := congrArg List.length hfront
        rw [List.length_append] at hsize
        have hfour : crlf2.length = 4 := rfl
        match front with
        | [] => exact hlong (by rw [← hfront, List.nil_append])
        | [_] =>
            -- the line end would overlap the blank line
            rcases heolSuffix with ⟨before, hbefore⟩
            have htotal := congrArg List.length hbefore
            rw [← heol] at hbefore htotal
            simp only [crlf, crlf2, List.length_append, List.length_cons, List.length_nil]
              at htotal hsize hfour
            have hone : before.length = 1 := by omega
            match before with
            | [b] =>
                simp only [crlf, crlf2, List.cons_append, List.nil_append, List.cons.injEq] at hbefore
                exact absurd hbefore.2.1 (by decide)
        | [_, _] =>
            simp only [crlf, crlf2, List.cons_append, List.nil_append, List.cons.injEq] at hfront
            exact hc hfront.2.2.1
        | _ :: _ :: _ :: front' =>
            simp only [List.length_cons] at hsize hrest
            omega

theorem headerLines_append {p : List Char} (hp : crlf2 <:+ p) (more : List Char) (fuel : Nat) :
    headerLines fuel (p ++ more) = headerLines fuel p := by
  induction fuel generalizing p with
  | zero => rfl
  | succ fuel ih =>
      rcases splitLine_append hp with ⟨line, eol, hstarts, hends, hlen, hsplit⟩
      rcases next_line hp hstarts hends hlen with ⟨c, next, hdrop, hgoes⟩
      have hsplit0 := hsplit []
      rw [List.append_nil, List.append_nil] at hsplit0
      have hpne : p.isEmpty = false := by
        cases p with
        | nil => exact absurd (List.suffix_nil.mp hp) (by decide)
        | cons d ds => rfl
      have hpmore : (p ++ more).isEmpty = false := by
        cases p with
        | nil => cases hpne
        | cons d ds => rfl
      have heolne : eol.isEmpty = false := by
        cases eol with
        | nil => exact absurd (List.prefix_nil.mp hstarts) (by decide)
        | cons d ds => rfl
      have heolmore : (eol ++ more).isEmpty = false := by
        cases eol with
        | nil => cases heolne
        | cons d ds => rfl
      have hpre : crlf.isPrefixOf eol = true := List.isPrefixOf_iff_prefix.mpr hstarts
      have hpremore : crlf.isPrefixOf (eol ++ more) = true :=
        List.isPrefixOf_iff_prefix.mpr (hstarts.trans (List.prefix_append eol more))
      have hdropmore : (eol ++ more).drop 2 = c :: (next ++ more) := by
        rw [List.drop_append_of_le_length (by omega), hdrop]
        rfl
      have hnext : nextText eol = c :: next := by
        unfold nextText
        rw [if_pos hpre, hdrop]
      have hnextmore : nextText (eol ++ more) = c :: (next ++ more) := by
        unfold nextText
        rw [if_pos hpremore, hdropmore]
      rw [headerLines, headerLines, hpne, hpmore, hsplit, hsplit0]
      dsimp only
      rw [heolne, heolmore, hnext, hnextmore]
      simp only [Bool.false_eq_true, if_false, List.isEmpty_cons, List.head?_cons, Bool.false_or]
      by_cases hstop : (some c == some '\r' || some c == some '\n') = true
      · rw [if_pos hstop, if_pos hstop]
      · rw [if_neg hstop, if_neg hstop]
        have hc : c ≠ '\r' := by
          intro heq
          apply hstop
          rw [heq]
          rfl
        have hrec := ih (hgoes hc)
        rw [List.cons_append] at hrec
        rw [hrec]

theorem splitLine_suffix (p : List Char) :
    (splitLine p).2 <:+ p ∧ forall c, c ∈ (splitLine p).1 -> c ∈ p := by
  unfold splitLine
  cases hcrlf : strstr crlf p with
  | some eol => exact ⟨(strstr_spec (by decide) hcrlf).1, fun c hc => List.mem_of_mem_take hc⟩
  | none =>
      dsimp only
      cases hlf : strchr '\n' p with
      | some eol =>
          refine ⟨?_, fun c hc => List.mem_of_mem_take hc⟩
          have hdrop : p.dropWhile (fun d => d != '\n') = eol := by
            unfold strchr at hlf
            split at hlf
            · cases hlf
            · cases hlf
              rfl
          rw [← hdrop]
          exact List.dropWhile_suffix _
      | none => exact ⟨List.nil_suffix, fun c hc => hc⟩

/-- The text from the next line on is a shorter part of the text. -/
theorem nextText_shorter {p : List Char} (heol : (splitLine p).2.isEmpty = false) :
    (nextText (splitLine p).2).length < p.length ∧
      forall c, c ∈ nextText (splitLine p).2 -> c ∈ p := by
  have hends := (splitLine_suffix p).1
  have hle := hends.length_le
  have hpos : 0 < (splitLine p).2.length := by
    cases h : (splitLine p).2 with
    | nil =>
        rw [h] at heol
        cases heol
    | cons d ds => exact Nat.zero_lt_succ _
  unfold nextText
  constructor
  · split
    · rw [List.length_drop]
      omega
    · rw [List.length_drop]
      omega
  · intro c hc
    apply hends.subset
    split at hc
    · exact List.mem_of_mem_drop hc
    · exact List.mem_of_mem_drop hc

theorem headerLines_fuel {n m : Nat} {p : List Char} (hn : p.length < n) (hm : p.length < m) :
    headerLines n p = headerLines m p := by
  induction n generalizing m p with
  | zero => exact absurd hn (Nat.not_lt_zero _)
  | succ n ih =>
      cases m with
      | zero => exact absurd hm (Nat.not_lt_zero _)
      | succ m =>
          rw [headerLines, headerLines]
          dsimp only
          cases heol : (splitLine p).2.isEmpty with
          | true => rfl
          | false =>
              have hshort := (nextText_shorter heol).1
              generalize nextText (splitLine p).2 = next at hshort
              rw [ih (by omega) (by omega : next.length < m)]

theorem headerLines_mem {fuel : Nat} {p line : List Char} (h : line ∈ headerLines fuel p) {c : Char}
    (hc : c ∈ line) : c ∈ p := by
  induction fuel generalizing p with
  | zero => cases h
  | succ fuel ih =>
      rw [headerLines] at h
      dsimp only at h
      split at h
      · cases h
      · split at h
        · rw [List.mem_singleton] at h
          rw [h] at hc
          exact (splitLine_suffix p).2 c hc
        · rename_i heol
          split at h
          · rw [List.mem_singleton] at h
            rw [h] at hc
            exact (splitLine_suffix p).2 c hc
          · rcases List.mem_cons.mp h with hline | hmore
            · rw [hline] at hc
              exact (splitLine_suffix p).2 c hc
            · exact (nextText_shorter (Bool.not_eq_true _ ▸ heol)).2 c (ih hmore)

theorem hasHeader_append {p : List Char} (hp : crlf2 <:+ p) (more : List Char) (name : String)
    (vmax : Nat) : hasHeader (p ++ more) name vmax = hasHeader p name vmax := by
  have hlen : p.length < (p ++ more).length + 1 := by
    rw [List.length_append]
    omega
  unfold hasHeader
  rw [headerLines_append hp, headerLines_fuel hlen (Nat.lt_succ_self _)]

/-- A header name is part of the text. -/
theorem char_of_hasHeader {p : List Char} {name : String} {vmax : Nat} {value : List Char}
    (h : hasHeader p name vmax = some value) {c : Char} (hc : c ∈ lowerCase name.toList) :
    exists d, d ∈ p ∧ d.toLower = c := by
  rcases List.exists_of_findSome?_eq_some h with ⟨line, hline, hvalue⟩
  unfold headerValue at hvalue
  dsimp only at hvalue
  split at hvalue
  · rename_i hcond
    rw [← hcond.2.1] at hc
    rcases List.mem_map.mp hc with ⟨d, hd, hlower⟩
    exact ⟨d, headerLines_mem hline (List.mem_of_mem_take hd), hlower⟩
  · cases hvalue

/-- A token is found in the text when there is one, and a line end is left. -/
theorem scanToken_append {p : List Char} (hp : ['\n'] <:+ p) {c : Char} (hc : c ∈ p)
    (hspace : isSpace c = false) (width : Nat) (more : List Char) :
    scanToken width (p ++ more) = ((scanToken width p).1, (scanToken width p).2 ++ more) ∧
      ['\n'] <:+ (scanToken width p).2 ∧
      forall d, d ∈ p -> isSpace d = false -> d ∈ (scanToken width p).1 ∨
        d ∈ (scanToken width p).2 := by
  have hne : (p.dropWhile isSpace).isEmpty = false := by
    cases hd : p.dropWhile isSpace with
    | nil =>
        have hall := List.dropWhile_eq_nil_iff.mp hd c hc
        rw [hspace] at hall
        cases hall
    | cons d ds => rfl
  have hstart : (p ++ more).dropWhile isSpace = p.dropWhile isSpace ++ more := by
    rw [List.dropWhile_append, hne]
    rfl
  have hends : ['\n'] <:+ p.dropWhile isSpace := by
    apply List.suffix_of_suffix_length_le hp (List.dropWhile_suffix _)
    cases hd : p.dropWhile isSpace with
    | nil =>
        rw [hd] at hne
        cases hne
    | cons d ds => exact Nat.succ_le_succ (Nat.zero_le _)
  generalize hstartEq : p.dropWhile isSpace = start at hstart hends
  have hlf : '\n' ∈ start := hends.subset (List.mem_singleton.mpr rfl)
  have hword : (start ++ more).takeWhile (fun d => !isSpace d) =
      start.takeWhile (fun d => !isSpace d) := by
    rw [List.takeWhile_append, if_neg]
    intro hall
    have hsame : start.takeWhile (fun d => !isSpace d) = start :=
      (List.takeWhile_prefix _).eq_of_length hall
    have hbad := List.mem_takeWhile_imp (hsame.symm ▸ hlf)
    exact absurd hbad (by decide)
  have hshort : ((start.takeWhile (fun d => !isSpace d)).take width).length < start.length := by
    have hle : (start.takeWhile (fun d => !isSpace d)).length ≤ start.length :=
      (List.takeWhile_prefix _).length_le
    have hneq : (start.takeWhile (fun d => !isSpace d)).length ≠ start.length := by
      intro hall
      have hsame : start.takeWhile (fun d => !isSpace d) = start :=
        (List.takeWhile_prefix _).eq_of_length hall
      have hbad := List.mem_takeWhile_imp (hsame.symm ▸ hlf)
      exact absurd hbad (by decide)
    rw [List.length_take]
    omega
  refine ⟨?_, ?_, ?_⟩
  · unfold scanToken
    dsimp only
    rw [hstart, hstartEq, hword, List.drop_append_of_le_length (Nat.le_of_lt hshort)]
  · unfold scanToken
    dsimp only
    rw [hstartEq]
    apply List.suffix_of_suffix_length_le hends (List.drop_suffix _ _)
    rw [List.length_drop, List.length_singleton]
    omega
  · intro d hd hdspace
    have hmem : d ∈ start := by
      rw [← List.takeWhile_append_dropWhile (p := isSpace) (l := p), hstartEq] at hd
      rcases List.mem_append.mp hd with hbefore | hafter
      · have hbad := List.mem_takeWhile_imp hbefore
        rw [hdspace] at hbad
        cases hbad
      · exact hafter
    have htake : ((start.takeWhile (fun d => !isSpace d)).take width) =
        start.take ((start.takeWhile (fun d => !isSpace d)).take width).length := by
      apply List.prefix_iff_eq_take.mp
      exact (List.take_prefix _ _).trans (List.takeWhile_prefix _)
    unfold scanToken
    dsimp only
    rw [hstartEq]
    rw [← List.take_append_drop
      ((start.takeWhile (fun d => !isSpace d)).take width).length start, ← htake] at hmem
    exact List.mem_append.mp hmem

theorem toLower_ne_of_isSpace {c : Char} (h : isSpace c = true) : c.toLower ≠ 'u' := by
  have hcode : c.toNat = 32 ∨ c.toNat = 9 ∨ c.toNat = 10 ∨ c.toNat = 11 ∨ c.toNat = 12 ∨
      c.toNat = 13 := by
    unfold isSpace at h
    rcases Bool.or_eq_true_iff.mp h with hblank | hrange
    · rw [beq_iff_eq.mp hblank]
      exact Or.inl rfl
    · have hbounds := of_decide_eq_true hrange
      omega
  have hchar : c = Char.ofNat c.toNat := (Char.ofNat_toNat c).symm
  rw [hchar]
  rcases hcode with h | h | h | h | h | h <;> rw [h] <;> decide

theorem acceptsUpgrade_append {p : List Char} (hp : crlf2 <:+ p) (more : List Char) :
    acceptsUpgrade (p ++ more) = acceptsUpgrade p := by
  have hlf : ['\n'] <:+ p := (by decide : ['\n'] <:+ crlf2).trans hp
  cases hup : hasHeader p "Upgrade" 64 with
  | none =>
      unfold acceptsUpgrade
      rw [hasHeader_append hp, hup]
      simp
  | some value =>
      rcases char_of_hasHeader hup (c := 'u') (by decide) with ⟨c, hc, hlower⟩
      have hspace : isSpace c = false := by
        cases hs : isSpace c with
        | false => rfl
        | true => exact absurd hlower (toLower_ne_of_isSpace hs)
      rcases scanToken_append hlf hc hspace 15 more with ⟨hmethod, hrest, hmem⟩
      unfold acceptsUpgrade
      rw [hasHeader_append hp, hasHeader_append hp, hmethod]
      dsimp only
      by_cases hget : (scanToken 15 p).1 = "GET".toList
      · have hleft : c ∈ (scanToken 15 p).2 := by
          rcases hmem c hc hspace with hin | hin
          · exfalso
            rw [hget] at hin
            simp at hin
            rcases hin with h | h | h <;> rw [h] at hlower <;> exact absurd hlower (by decide)
          · exact hin
        rcases scanToken_append hrest hleft hspace 511 more with ⟨hpath, _, _⟩
        rw [hpath]
      · have hfalse : ((scanToken 15 p).1 == "GET".toList) = false := by
          rw [beq_eq_false_iff_ne]
          exact hget
        rw [hfalse]
        rfl

end WebSocket
end PkgManager
