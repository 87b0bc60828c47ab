import PkgManager.StreamServer.Framing

/-!
# Answers on a kept connection

An answer after which the connection is kept is one header block and the body
that the block announces.  There is one exception: a package of no bytes
announces no body, and the copy loop reads one byte of it all the same.
-/

namespace PkgManager
namespace StreamServer

open WebSocket (crlf)

/-!
# What is asked
-/

/-- A character of a header line. -/
def CleanChar (c : Char) : Prop :=
  c.toNat < 128 ∧ c ≠ '\r' ∧ c ≠ '\n'

instance (c : Char) : Decidable (CleanChar c) :=
  inferInstanceAs (Decidable (c.toNat < 128 ∧ c ≠ '\r' ∧ c ≠ '\n'))

def Clean (text : List Char) : Prop :=
  forall c, c ∈ text -> CleanChar c

instance (text : List Char) : Decidable (Clean text) :=
  List.decidableBAll CleanChar text

def CleanLines (lines : List (List Char)) : Prop :=
  forall line, line ∈ lines -> line ≠ [] ∧ Clean line

/-- The bytes are one header block and the body that it announces. -/
structure FramedAs (isHead : Bool) (package : Nat -> UInt8) (bytes : List UInt8)
    (lines : List (List Char)) (n : Nat) (body : List UInt8) : Prop where
  whole : bytes = wire (blockText lines) ++ body
  clean : CleanLines lines
  announced : fieldValues "Content-Length" lines = [decimal n]
  length : body.length = if isHead then 0 else n
  bodiless : forall status reason, lines.head? = some (statusLine status reason) ->
    status ∈ [404, 405, 416] -> body = []
  partialContent : forall reason, lines.head? = some (statusLine 206 reason) ->
    exists start stop total,
      fieldValues "Content-Range" lines = [rangeText start stop total] ∧ start ≤ stop ∧
        (isHead = false -> body = packageBytes package start (stop + 1 - start))

def Framed (isHead : Bool) (package : Nat -> UInt8) (bytes : List UInt8) : Prop :=
  exists lines n body, FramedAs isHead package bytes lines n body

/-- A request on a connection, and what it meets. -/
structure Exchange where
  req : List Char
  running : Bool := true
  serving : Serving

def Exchange.request (x : Exchange) : Request :=
  scanRequest (requestLine x.req)

def Exchange.response (console : Console) (x : Exchange) : Response :=
  serveOneRequest console x.serving x.req

/-- The connection is kept only after an answer that is framed. -/
def Exchange.KeptFramed (console : Console) (x : Exchange) : Prop :=
  (x.response console).keep = true ->
    Framed x.request.isHead x.serving.package (x.response console).bytes

/-- A package of no bytes is asked for as a whole on a connection that is to be
kept, everything is sent, and the read of the body returns a byte. -/
def Exchange.ReadsPastEmpty (x : Exchange) : Prop :=
  x.request.isGet = true ∧ "/stream/".toList.isPrefixOf x.request.route = true ∧
    x.serving.servesIcon x.request.base = false ∧ x.serving.admits x.request.base = true ∧
    findRange (cString x.req) 0 = RangeOutcome.absent ∧ x.serving.total = 0 ∧
    keepWanted x.req x.request = true ∧ x.serving.headFails = none ∧
    x.serving.allocated = true ∧ x.serving.acquired = true ∧
    (x.serving.turns 0).running = true ∧ 0 < (x.serving.turns 0).count ∧
    (x.serving.turns 0).sendFails = none

/-- {lit}`serve_connection`: the answers to the requests, as long as the
connection is kept. -/
def serveConnection (console : Console) : Nat -> List Exchange -> List Response
  | _, [] => []
  | reqNo, x :: xs =>
      if reqNo < maxReqPerConn ∧ x.running then
        let r := x.response console
        if r.keep && (WebSocket.strstr WebSocket.crlf2 (cString x.req)).isSome then
          r :: serveConnection console (reqNo + 1) xs
        else [r]
      else []

/-!
# Clean text
-/

theorem clean_append {a b : List Char} (ha : Clean a) (hb : Clean b) : Clean (a ++ b) := by
  intro c hc
  rcases List.mem_append.mp hc with h | h
  · exact ha c h
  · exact hb c h

theorem clean_cons {c : Char} {text : List Char} (hc : Clean [c]) (h : Clean text) :
    Clean (c :: text) :=
  clean_append hc h

theorem clean_decimal (n : Nat) : Clean (decimal n) := by
  intro c hc
  have hdigit := Nat.isDigit_of_mem_toDigits (by decide) (by decide) hc
  have hrange := Char.isDigit_iff_toNat.mp hdigit
  have h0 : '0'.toNat = 48 := rfl
  have h9 : '9'.toNat = 57 := rfl
  refine ⟨by omega, ?_, ?_⟩
  · intro heq
    rw [heq] at hrange
    exact absurd hrange.1 (by decide)
  · intro heq
    rw [heq] at hrange
    exact absurd hrange.1 (by decide)

theorem clean_twoDigits (n : Nat) : Clean (twoDigits n) := by
  rw [twoDigits]
  split
  · exact clean_cons (by decide) (clean_decimal n)
  · exact clean_decimal n

theorem clean_weekday (k : Fin 7) : Clean (weekdays.getD k "").toList := by
  revert k
  decide

theorem clean_month (k : Fin 12) : Clean (months.getD k "").toList := by
  revert k
  decide

def CleanParts (parts : List (List Char)) : Prop :=
  forall part, part ∈ parts -> Clean part

theorem cleanParts_nil : CleanParts [] := by
  intro part hpart
  cases hpart

theorem cleanParts_cons {part : List Char} {parts : List (List Char)} (h : Clean part)
    (hs : CleanParts parts) : CleanParts (part :: parts) := by
  intro p hp
  rcases List.mem_cons.mp hp with heq | hrest
  · rw [heq]
    exact h
  · exact hs p hrest

theorem clean_flatten {parts : List (List Char)} (h : CleanParts parts) : Clean parts.flatten := by
  intro c hc
  rcases List.mem_flatten.mp hc with ⟨part, hpart, hmem⟩
  exact h part hpart c hmem

theorem clean_date (d : Date) : Clean d.text := by
  apply clean_flatten
  apply cleanParts_cons (clean_weekday d.weekday)
  apply cleanParts_cons (by decide)
  apply cleanParts_cons (clean_twoDigits d.day)
  apply cleanParts_cons (by decide)
  apply cleanParts_cons (clean_month d.month)
  apply cleanParts_cons (by decide)
  apply cleanParts_cons (clean_decimal d.year)
  apply cleanParts_cons (by decide)
  apply cleanParts_cons (clean_twoDigits d.hour)
  apply cleanParts_cons (by decide)
  apply cleanParts_cons (clean_twoDigits d.minute)
  apply cleanParts_cons (by decide)
  apply cleanParts_cons (clean_twoDigits d.second)
  exact cleanParts_cons (by decide) cleanParts_nil

theorem clean_dateText (date : Option Date) : Clean (dateText date) := by
  cases date with
  | none => decide
  | some d => exact clean_date d

theorem clean_connTok (keep : Bool) : Clean (connTok keep) := by
  cases keep with
  | false => decide
  | true => decide

theorem clean_rangeText (start stop total : Nat) : Clean (rangeText start stop total) := by
  apply clean_append (by decide)
  apply clean_append (clean_decimal start)
  apply clean_cons (by decide)
  apply clean_append (clean_decimal stop)
  exact clean_cons (by decide) (clean_decimal total)

theorem clean_fieldLine {f : String × List Char} (hname : Clean f.1.toList) (hvalue : Clean f.2) :
    Clean (fieldLine f) := by
  apply clean_append hname
  apply clean_cons (by decide)
  exact clean_cons (by decide) hvalue

/-!
# Lengths

The buffers for the header blocks are large enough.
-/

theorem length_decimal {n k : Nat} (hk : 0 < k) (h : n < 10 ^ k) : (decimal n).length ≤ k :=
  (Nat.length_toDigits_le_iff (by decide) hk).mpr h

theorem length_decimal64 {n : Nat} (h : n < 2 ^ 64) : (decimal n).length ≤ 20 :=
  length_decimal (by decide) (h.trans (by decide))

theorem length_twoDigits {n : Nat} (h : n < 100) : (twoDigits n).length ≤ 2 := by
  have htwo := length_decimal (k := 2) (by decide) h
  rw [twoDigits]
  split
  · rename_i hone
    have h1 := length_decimal (k := 1) (by decide) hone
    rw [List.length_cons]
    omega
  · exact htwo

theorem length_weekday (k : Fin 7) : (weekdays.getD k "").toList.length ≤ 3 := by
  revert k
  decide

theorem length_month (k : Fin 12) : (months.getD k "").toList.length ≤ 3 := by
  revert k
  decide

theorem length_flatten_cons {part : List Char} {parts : List (List Char)} {m n : Nat}
    (h : part.length ≤ m) (hs : parts.flatten.length ≤ n) :
    (part :: parts).flatten.length ≤ m + n := by
  rw [List.flatten_cons, List.length_append]
  exact Nat.add_le_add h hs

theorem length_date (d : Date) : d.text.length ≤ 35 := by
  have hyear : (decimal d.year).length ≤ 10 :=
    length_decimal (by decide) (d.year.isLt.trans (by decide))
  have htwo : forall {n m : Nat}, m ≤ 100 -> n < m -> (twoDigits n).length ≤ 2 :=
    fun hm hn => length_twoDigits (hn.trans_le hm)
  apply length_flatten_cons (m := 3) (n := 32) (length_weekday d.weekday)
  apply length_flatten_cons (m := 2) (n := 30) (by decide)
  apply length_flatten_cons (m := 2) (n := 28) (htwo (by decide) d.day.isLt)
  apply length_flatten_cons (m := 1) (n := 27) (by decide)
  apply length_flatten_cons (m := 3) (n := 24) (length_month d.month)
  apply length_flatten_cons (m := 1) (n := 23) (by decide)
  apply length_flatten_cons (m := 10) (n := 13) hyear
  apply length_flatten_cons (m := 1) (n := 12) (by decide)
  apply length_flatten_cons (m := 2) (n := 10) (htwo (by decide) d.hour.isLt)
  apply length_flatten_cons (m := 1) (n := 9) (by decide)
  apply length_flatten_cons (m := 2) (n := 7) (htwo (by decide) d.minute.isLt)
  apply length_flatten_cons (m := 1) (n := 6) (by decide)
  apply length_flatten_cons (m := 2) (n := 4) (htwo (by decide) d.second.isLt)
  decide

theorem length_dateText (date : Option Date) : (dateText date).length ≤ 35 := by
  cases date with
  | none => decide
  | some d => exact length_date d

theorem length_connTok (keep : Bool) : (connTok keep).length ≤ 10 := by
  cases keep with
  | false => decide
  | true => decide

theorem length_rangeText {start stop total : Nat} (hstart : start < 2 ^ 64) (hstop : stop < 2 ^ 64)
    (htotal : total < 2 ^ 64) : (rangeText start stop total).length ≤ 68 := by
  have h1 := length_decimal64 hstart
  have h2 := length_decimal64 hstop
  have h3 := length_decimal64 htotal
  have hbytes : "bytes ".toList.length = 6 := rfl
  unfold rangeText
  simp only [List.length_append, List.length_cons, hbytes]
  omega

/-!
# Fields
-/

/-- A field without line ends, whose line has at most that many characters. -/
def GoodField (limit : Nat) (f : String × List Char) : Prop :=
  Clean f.1.toList ∧ Clean f.2 ∧ f.1.toList.length + f.2.length + 4 ≤ limit

instance (limit : Nat) (f : String × List Char) : Decidable (GoodField limit f) :=
  inferInstanceAs
    (Decidable (Clean f.1.toList ∧ Clean f.2 ∧ f.1.toList.length + f.2.length + 4 ≤ limit))

def GoodFields (limit : Nat) (fields : List (String × List Char)) : Prop :=
  forall f, f ∈ fields -> GoodField limit f

theorem goodFields_nil (limit : Nat) : GoodFields limit [] := by
  intro f hf
  cases hf

theorem goodFields_cons {limit : Nat} {f : String × List Char}
    {fields : List (String × List Char)} (hf : GoodField limit f) (h : GoodFields limit fields) :
    GoodFields limit (f :: fields) := by
  intro g hg
  rcases List.mem_cons.mp hg with heq | hrest
  · rw [heq]
    exact hf
  · exact h g hrest

theorem cleanLines_block {b : HeaderBlock} {limit : Nat} (hreason : Clean b.reason.toList)
    (hfields : GoodFields limit b.fields) : CleanLines b.lines := by
  intro line hline
  rcases List.mem_cons.mp hline with hstatus | hfield
  · rw [hstatus]
    constructor
    · exact List.append_ne_nil_of_left_ne_nil (by decide) _
    · apply clean_append (by decide)
      apply clean_append (clean_decimal b.status)
      exact clean_cons (by decide) hreason
  · rcases List.mem_map.mp hfield with ⟨f, hf, heq⟩
    rw [← heq]
    constructor
    · simp [fieldLine]
    · exact clean_fieldLine (hfields f hf).1 (hfields f hf).2.1

theorem length_fields {limit : Nat} {fields : List (String × List Char)}
    (h : GoodFields limit fields) :
    ((fields.map fieldLine).flatMap (fun line => line ++ crlf)).length ≤ limit * fields.length := by
  induction fields with
  | nil => exact Nat.zero_le _
  | cons f fields ih =>
      have hf := (h f List.mem_cons_self).2.2
      have hrest := ih (fun g hg => h g (List.mem_cons_of_mem f hg))
      have hcrlf : crlf.length = 2 := rfl
      rw [List.map_cons, List.flatMap_cons, List.length_append, List.length_append,
        List.length_cons, Nat.mul_succ, fieldLine]
      simp only [List.length_append, List.length_cons]
      omega

theorem length_block {b : HeaderBlock} {limit : Nat} (hfields : GoodFields limit b.fields)
    (hstatus : b.status < 10 ^ 3) :
    b.text.length ≤ 17 + b.reason.toList.length + limit * b.fields.length := by
  have hcode := length_decimal (k := 3) (by decide) hstatus
  have hrest := length_fields hfields
  have hcrlf : crlf.length = 2 := rfl
  have hhttp : "HTTP/1.1 ".toList.length = 9 := rfl
  have htext : b.text = statusLine b.status b.reason ++ crlf ++
      (b.fields.map fieldLine).flatMap (fun line => line ++ crlf) ++ crlf := rfl
  have hlength := congrArg List.length htext
  unfold statusLine at hlength
  simp only [List.length_append, List.length_cons] at hlength
  omega

/-- The numbers of an answer fit their type. -/
def Head.Fits : Head -> Prop
  | Head.icon size => size < 2 ^ 64
  | Head.rangeNotSatisfiable total => total < 2 ^ 64
  | Head.partialContent start stop total => start ≤ stop ∧ stop < total ∧ total < 2 ^ 64
  | Head.ok total => total < 2 ^ 64
  | _ => True

section Fields

variable {limit : Nat} {fields : List (String × List Char)}

theorem goodField_number {name : String} {n : Nat} (hname : Clean name.toList) (hn : n < 2 ^ 64)
    (hlimit : name.toList.length + 24 ≤ limit) : GoodField limit (name, decimal n) := by
  have hlength := length_decimal64 hn
  exact ⟨hname, clean_decimal n, by dsimp only; omega⟩

theorem goodField_connection (keep : Bool) (hlimit : 24 ≤ limit) :
    GoodField limit ("Connection", connTok keep) := by
  have hlength := length_connTok keep
  have hname : "Connection".toList.length = 10 := rfl
  have hclean : Clean "Connection".toList := by decide
  exact ⟨hclean, clean_connTok keep, by dsimp only; omega⟩

theorem goodField_date (date : Option Date) : GoodField 100 ("Date", dateText date) := by
  have hlength := length_dateText date
  have hname : "Date".toList.length = 4 := rfl
  have hclean : Clean "Date".toList := by decide
  exact ⟨hclean, clean_dateText date, by dsimp only; omega⟩

end Fields

theorem goodFields_short {head : Head} (keep : Bool) (date : Option Date) (hfits : head.Fits)
    (hshort : head.isPackage = false) : GoodFields 46 (head.block keep date).fields := by
  have hconn : GoodFields 46 [("Connection", connTok keep)] :=
    goodFields_cons (goodField_connection keep (by decide)) (goodFields_nil 46)
  cases head with
  | methodNotAllowed => exact goodFields_cons (by decide) (goodFields_cons (by decide) hconn)
  | notFound => exact goodFields_cons (by decide) hconn
  | icon size =>
      apply goodFields_cons (by decide)
      exact goodFields_cons (goodField_number (by decide) hfits (by decide)) hconn
  | rangeNotSatisfiable total =>
      have hlength : (decimal total).length ≤ 20 := length_decimal64 hfits
      have hname : "Content-Range".toList.length = 13 := rfl
      have hbytes : "bytes */".toList.length = 8 := rfl
      have hclean : Clean "Content-Range".toList := by decide
      apply goodFields_cons
      · exact ⟨hclean, clean_append (by decide) (clean_decimal total),
          by dsimp only; rw [List.length_append]; omega⟩
      · exact goodFields_cons (by decide) (goodFields_cons (by decide) hconn)
  | partialContent start stop total => cases hshort
  | ok total => cases hshort

theorem goodFields_package {head : Head} (keep : Bool) (date : Option Date) (hfits : head.Fits)
    (hpackage : head.isPackage = true) : GoodFields 100 (head.block keep date).fields := by
  have hconn : GoodFields 100 [("Connection", connTok keep)] :=
    goodFields_cons (goodField_connection keep (by decide)) (goodFields_nil 100)
  cases head with
  | partialContent start stop total =>
      rcases hfits with ⟨hle, hlt, htotal⟩
      have hlength : (if total = 0 then 0 else stop - start + 1) < 2 ^ 64 := by
        split
        · decide
        · omega
      have hrange : (rangeText start stop total).length ≤ 68 :=
        length_rangeText (by omega) (by omega) htotal
      have hname : "Content-Range".toList.length = 13 := rfl
      apply goodFields_cons (goodField_date date)
      apply goodFields_cons (by decide)
      apply goodFields_cons (by decide)
      apply goodFields_cons (by decide)
      apply goodFields_cons (goodField_number (by decide) hlength (by decide))
      have hclean : Clean "Content-Range".toList := by decide
      apply goodFields_cons
      · exact ⟨hclean, clean_rangeText start stop total, by dsimp only; omega⟩
      · exact goodFields_cons (by decide) (goodFields_cons (by decide) hconn)
  | ok total =>
      apply goodFields_cons (goodField_date date)
      apply goodFields_cons (by decide)
      apply goodFields_cons (by decide)
      apply goodFields_cons (by decide)
      apply goodFields_cons (goodField_number (by decide) hfits (by decide))
      exact goodFields_cons (by decide) (goodFields_cons (by decide) hconn)
  | methodNotAllowed => cases hpackage
  | notFound => cases hpackage
  | icon size => cases hpackage
  | rangeNotSatisfiable total => cases hpackage

theorem clean_reason (head : Head) (keep : Bool) (date : Option Date) :
    Clean (head.block keep date).reason.toList := by
  cases head with
  | methodNotAllowed => exact (by decide : Clean "Method Not Allowed".toList)
  | notFound => exact (by decide : Clean "Not Found".toList)
  | icon size => exact (by decide : Clean "OK".toList)
  | rangeNotSatisfiable total => exact (by decide : Clean "Range Not Satisfiable".toList)
  | partialContent start stop total => exact (by decide : Clean "Partial Content".toList)
  | ok total => exact (by decide : Clean "OK".toList)

theorem cleanLines_head {head : Head} (keep : Bool) (date : Option Date) (hfits : head.Fits) :
    CleanLines (head.block keep date).lines := by
  cases hpackage : head.isPackage with
  | true =>
      have hgood := goodFields_package keep date hfits hpackage
      exact cleanLines_block (clean_reason head keep date) hgood
  | false =>
      have hgood := goodFields_short keep date hfits hpackage
      exact cleanLines_block (clean_reason head keep date) hgood

/-- The buffer of 256 bytes holds the block. -/
theorem length_short {head : Head} (keep : Bool) (date : Option Date) (hfits : head.Fits)
    (hshort : head.isPackage = false) : (head.block keep date).text.length ≤ 255 := by
  have hgood := goodFields_short keep date hfits hshort
  cases head with
  | methodNotAllowed =>
      exact (length_block hgood (show 405 < 10 ^ 3 by decide)).trans
        (show 17 + "Method Not Allowed".toList.length + 46 * 3 ≤ 255 by decide)
  | notFound =>
      exact (length_block hgood (show 404 < 10 ^ 3 by decide)).trans
        (show 17 + "Not Found".toList.length + 46 * 2 ≤ 255 by decide)
  | icon size =>
      exact (length_block hgood (show 200 < 10 ^ 3 by decide)).trans
        (show 17 + "OK".toList.length + 46 * 3 ≤ 255 by decide)
  | rangeNotSatisfiable total =>
      exact (length_block hgood (show 416 < 10 ^ 3 by decide)).trans
        (show 17 + "Range Not Satisfiable".toList.length + 46 * 4 ≤ 255 by decide)
  | partialContent start stop total => cases hshort
  | ok total => cases hshort

/-- The buffer of 1024 bytes holds the block. -/
theorem length_package {head : Head} (keep : Bool) (date : Option Date) (hfits : head.Fits)
    (hpackage : head.isPackage = true) : (head.block keep date).text.length < 1024 := by
  have hgood := goodFields_package keep date hfits hpackage
  cases head with
  | partialContent start stop total =>
      exact (length_block hgood (show 206 < 10 ^ 3 by decide)).trans_lt
        (show 17 + "Partial Content".toList.length + 100 * 9 < 1024 by decide)
  | ok total =>
      exact (length_block hgood (show 200 < 10 ^ 3 by decide)).trans_lt
        (show 17 + "OK".toList.length + 100 * 8 < 1024 by decide)
  | methodNotAllowed => cases hpackage
  | notFound => cases hpackage
  | icon size => cases hpackage
  | rangeNotSatisfiable total => cases hpackage

/-!
# Values of the fields
-/

theorem isPrefixOf_clean {a b rest : List Char} (h : (a ++ [':', ' ']).isPrefixOf (b ++ rest) = true)
    (ha : ':' ∉ a) (hb : ':' ∉ b) (hrest : rest.head? = some ':') : a = b := by
  induction a generalizing b with
  | nil =>
      cases b with
      | nil => rfl
      | cons c b =>
          have heq : (':' == c) = true := (Bool.and_eq_true_iff.mp h).1
          exact absurd (beq_iff_eq.mp heq ▸ List.mem_cons_self) hb
  | cons c a ih =>
      cases b with
      | nil =>
          cases rest with
          | nil => cases hrest
          | cons d rest =>
              have heq : (c == d) = true := (Bool.and_eq_true_iff.mp h).1
              have hd : d = ':' := Option.some.inj hrest
              rw [beq_iff_eq.mp heq, hd] at ha
              exact absurd List.mem_cons_self ha
      | cons d b =>
          rcases Bool.and_eq_true_iff.mp h with ⟨heq, htail⟩
          have hsame := ih htail (fun hmem => ha (List.mem_cons_of_mem c hmem))
            (fun hmem => hb (List.mem_cons_of_mem d hmem))
          rw [beq_iff_eq.mp heq, hsame]

theorem fieldValue_fieldLine {name : String} {f : String × List Char} (hname : ':' ∉ name.toList)
    (hf : ':' ∉ f.1.toList) :
    fieldValue name (fieldLine f) = if f.1 == name then some f.2 else none := by
  by_cases heq : f.1 = name
  · have hline : fieldLine f = fieldLine (name, []) ++ f.2 := by
      simp [fieldLine, heq]
    have hlength : (fieldLine (name, [])).length = name.toList.length + 2 := by
      simp [fieldLine]
    have hpart : (fieldLine (name, [])).isPrefixOf (fieldLine (name, []) ++ f.2) = true :=
      List.isPrefixOf_iff_prefix.mpr (List.prefix_append _ _)
    rw [fieldValue, hline, if_pos hpart, ← hlength, List.drop_left, heq, if_pos (beq_self_eq_true name)]
  · have hbeq : (f.1 == name) = false := beq_eq_false_iff_ne.mpr heq
    have hother : ¬ (fieldLine (name, [])).isPrefixOf (fieldLine f) = true := by
      intro h
      have hsame := isPrefixOf_clean (a := name.toList) (b := f.1.toList) h hname hf rfl
      exact heq (String.toList_inj.mp hsame).symm
    rw [fieldValue, hbeq, if_neg hother]
    rfl

theorem fieldValues_block {b : HeaderBlock} {name : String} (hname : ':' ∉ name.toList)
    (hstatus : fieldValue name (statusLine b.status b.reason) = none)
    (hfields : forall f, f ∈ b.fields -> ':' ∉ f.1.toList) :
    fieldValues name b.lines = b.values name := by
  rw [HeaderBlock.lines, fieldValues, List.filterMap_cons_none hstatus, HeaderBlock.values]
  generalize b.fields = fields at hfields
  induction fields with
  | nil => rfl
  | cons f fields ih =>
      have hf := fieldValue_fieldLine hname (hfields f List.mem_cons_self)
      have hrest := ih (fun g hg => hfields g (List.mem_cons_of_mem f hg))
      rw [List.map_cons]
      cases heq : f.1 == name with
      | true =>
          rw [heq, if_pos rfl] at hf
          rw [List.filterMap_cons_some hf, hrest]
          simp [heq]
      | false =>
          rw [heq, if_neg (by decide)] at hf
          rw [List.filterMap_cons_none hf, hrest]
          simp [heq]

theorem fieldValue_statusLine {name : String} {status : Nat} {reason : String}
    (hname : name.toList.head? ≠ some 'H') : fieldValue name (statusLine status reason) = none := by
  have hline : statusLine status reason =
      'H' :: ("TTP/1.1 ".toList ++ (decimal status ++ ' ' :: reason.toList)) := rfl
  rw [fieldValue, hline, if_neg]
  cases hchars : name.toList with
  | nil =>
      rw [fieldLine, hchars]
      exact Bool.false_ne_true
  | cons c rest =>
      rw [hchars] at hname
      have hne : (c == 'H') = false := beq_eq_false_iff_ne.mpr (fun heq => hname (by rw [heq]; rfl))
      rw [fieldLine, hchars]
      intro h
      have hboth := (Bool.and_eq_true_iff.mp h).1
      rw [hne] at hboth
      cases hboth

/-- The length that an answer announces. -/
def Head.contentLength : Head -> Nat
  | Head.icon size => size
  | Head.partialContent start stop total => if total = 0 then 0 else stop - start + 1
  | Head.ok total => total
  | _ => 0

theorem noColon_fields (head : Head) (keep : Bool) (date : Option Date) :
    forall f, f ∈ (head.block keep date).fields -> ':' ∉ f.1.toList := by
  have hnames : forall names : List String, (forall name, name ∈ names -> ':' ∉ name.toList) ->
      forall fields : List (String × List Char), fields.map Prod.fst = names ->
        forall f, f ∈ fields -> ':' ∉ f.1.toList := by
    intro names h fields hfields f hf
    exact h f.1 (hfields ▸ List.mem_map_of_mem hf)
  cases head with
  | methodNotAllowed => exact hnames ["Allow", "Content-Length", "Connection"] (by decide) _ rfl
  | notFound => exact hnames ["Content-Length", "Connection"] (by decide) _ rfl
  | icon size => exact hnames ["Content-Type", "Content-Length", "Connection"] (by decide) _ rfl
  | rangeNotSatisfiable total =>
      exact hnames ["Content-Range", "Accept-Ranges", "Content-Length", "Connection"] (by decide) _
        rfl
  | partialContent start stop total =>
      exact hnames ["Date", "Last-Modified", "Content-Type", "Accept-Ranges", "Content-Length",
        "Content-Range", "Content-Disposition", "Access-Control-Allow-Origin", "Connection"]
        (by decide) _ rfl
  | ok total =>
      exact hnames ["Date", "Last-Modified", "Content-Type", "Accept-Ranges", "Content-Length",
        "Content-Disposition", "Access-Control-Allow-Origin", "Connection"] (by decide) _ rfl

theorem contentLength_announced (head : Head) (keep : Bool) (date : Option Date) :
    fieldValues "Content-Length" (head.block keep date).lines = [decimal head.contentLength] := by
  rw [fieldValues_block (by decide) (fieldValue_statusLine (by decide))
    (noColon_fields head keep date)]
  cases head with
  | methodNotAllowed => rfl
  | notFound => rfl
  | icon size => rfl
  | rangeNotSatisfiable total => simp [HeaderBlock.values, Head.block, Head.contentLength, decimal]
  | partialContent start stop total => rfl
  | ok total => rfl

theorem contentRange_announced (start stop total : Nat) (keep : Bool) (date : Option Date) :
    fieldValues "Content-Range" ((Head.partialContent start stop total).block keep date).lines =
      [rangeText start stop total] := by
  rw [fieldValues_block (by decide) (fieldValue_statusLine (by decide)) (noColon_fields _ keep date)]
  rfl

/-!
# Bodies
-/

theorem packageBytes_add (package : Nat -> UInt8) (off m n : Nat) :
    packageBytes package off (m + n) = packageBytes package off m ++
      packageBytes package (off + m) n := by
  unfold packageBytes
  rw [← List.map_append, List.range'_append_1]

@[simp] theorem length_packageBytes (package : Nat -> UInt8) (off count : Nat) :
    (packageBytes package off count).length = count := by
  simp [packageBytes]

theorem sendAll_true {bytes : List UInt8} {fails : Option Nat}
    (h : (sendAll bytes fails).2 = true) : fails = none := by
  cases fails with
  | none => rfl
  | some k => cases h

theorem sendAll_none (bytes : List UInt8) : sendAll bytes none = (bytes, true) := rfl

section Copy

variable {console : Console} {s : Serving} {stop : Nat}

theorem sendChunk_pos (console : Console) : 0 < console.sendChunk := by
  cases console with
  | ps4 => decide
  | ps5 => decide

/-- The loop that gets past the last offset has sent every byte up to it. -/
theorem copyLoop_complete {fuel turn off : Nat} (hoff : off ≤ stop + 1)
    (h : stop < (copyLoop console s stop fuel turn off).2) :
    (copyLoop console s stop fuel turn off).1 = packageBytes s.package off (stop + 1 - off) := by
  induction fuel generalizing turn off with
  | zero =>
      change stop < off at h
      have hnone : stop + 1 - off = 0 := by omega
      rw [hnone]
      rfl
  | succ fuel ih =>
      rw [copyLoop] at h ⊢
      dsimp only at h ⊢
      split at h
      · rename_i hrun
        rw [if_pos hrun]
        split at h
        · omega
        · rename_i hn
          rw [if_neg hn]
          split at h
          · rename_i hsent
            rw [if_pos hsent, sendAll_true hsent, sendAll_none]
            have hle : min (s.turns turn).count (min (stop - off + 1) console.sendChunk) ≤
                stop - off + 1 := (Nat.min_le_right _ _).trans (Nat.min_le_left _ _)
            generalize min (s.turns turn).count (min (stop - off + 1) console.sendChunk) = n at *
            have hrest := ih (by omega) h
            have hsplit : stop + 1 - off = n + (stop + 1 - (off + n)) := by omega
            dsimp only
            rw [hrest, hsplit, packageBytes_add]
          · change stop < off at h
            omega
      · rename_i hstop
        rw [if_neg hstop]
        change stop < off at h
        have hnone : stop + 1 - off = 0 := by omega
        rw [hnone]
        rfl

end Copy

/-!
# Framed answers
-/

theorem decimal_inj {m n : Nat} (h : decimal m = decimal n) : m = n := by
  have hvalue := congrArg (fun digits => Nat.ofDigitChars 10 digits 0) h
  dsimp only [decimal] at hvalue
  rw [Nat.ofDigitChars_ten_toDigits, Nat.ofDigitChars_ten_toDigits] at hvalue
  exact hvalue

theorem blank_not_mem_decimal (n : Nat) : ' ' ∉ decimal n := by
  intro hmem
  have hdigit := Nat.isDigit_of_mem_toDigits (by decide) (by decide) hmem
  cases hdigit

/-- Two texts are cut at the first place of a sign. -/
theorem cut_at {α : Type} {a : α} {x y z w : List α} (hx : a ∉ x) (hy : a ∉ y)
    (h : x ++ a :: z = y ++ a :: w) : x = y ∧ z = w := by
  induction x generalizing y with
  | nil =>
      cases y with
      | nil => exact ⟨rfl, (List.cons.inj h).2⟩
      | cons d y =>
          have hd : a = d := (List.cons.inj h).1
          exact absurd (hd ▸ List.mem_cons_self) hy
  | cons c x ih =>
      cases y with
      | nil =>
          have hc : c = a := (List.cons.inj h).1
          exact absurd (hc ▸ List.mem_cons_self) hx
      | cons d y =>
          rcases List.cons.inj h with ⟨hhead, htail⟩
          rcases ih (fun hmem => hx (List.mem_cons_of_mem c hmem))
            (fun hmem => hy (List.mem_cons_of_mem d hmem)) htail with ⟨hxy, hzw⟩
          rw [hhead, hxy]
          exact ⟨rfl, hzw⟩

theorem statusLine_status {status status' : Nat} {reason reason' : String}
    (h : statusLine status reason = statusLine status' reason') : status = status' := by
  have hrest := List.append_cancel_left h
  exact decimal_inj
    (cut_at (blank_not_mem_decimal status) (blank_not_mem_decimal status') hrest).1

/-- A head and a body of the length that it announces. -/
theorem framed_head {head : Head} {keep isHead : Bool} {date : Option Date}
    {package : Nat -> UInt8} {body : List UInt8} (hfits : head.Fits)
    (hbody : body.length = if isHead then 0 else head.contentLength)
    (hrange : forall start stop total, head = Head.partialContent start stop total ->
      isHead = false -> body = packageBytes package start (stop + 1 - start)) :
    Framed isHead package (wire (head.block keep date).text ++ body) := by
  have hstatus : forall status reason,
      (head.block keep date).lines.head? = some (statusLine status reason) ->
        (head.block keep date).status = status := by
    intro status reason hline
    exact statusLine_status (Option.some.inj hline)
  refine ⟨(head.block keep date).lines, head.contentLength, body, ?_⟩
  constructor
  · rfl
  · exact cleanLines_head keep date hfits
  · exact contentLength_announced head keep date
  · exact hbody
  · intro status reason hline hmem
    have hsame := hstatus status reason hline
    rw [← hsame] at hmem
    have hzero : head.contentLength = 0 := by
      cases head with
      | methodNotAllowed => rfl
      | notFound => rfl
      | rangeNotSatisfiable total => rfl
      | icon size => exact absurd hmem (by decide : 200 ∉ [404, 405, 416])
      | partialContent start stop total => exact absurd hmem (by decide : 206 ∉ [404, 405, 416])
      | ok total => exact absurd hmem (by decide : 200 ∉ [404, 405, 416])
    rw [hzero, ite_self] at hbody
    exact List.length_eq_zero_iff.mp hbody
  · intro reason hline
    have hsame := hstatus 206 reason hline
    cases head with
    | partialContent start stop total =>
        exact ⟨start, stop, total, contentRange_announced start stop total keep date, hfits.1,
          hrange start stop total rfl⟩
    | methodNotAllowed => cases hsame
    | notFound => cases hsame
    | icon size => cases hsame
    | rangeNotSatisfiable total => cases hsame
    | ok total => cases hsame

/-!
# One decomposition
-/

theorem byte_inj {c d : Char} (hc : c.toNat < 128) (hd : d.toNat < 128)
    (h : UInt8.ofNat c.toNat = UInt8.ofNat d.toNat) : c = d := by
  have hnat := congrArg UInt8.toNat h
  rw [UInt8.toNat_ofNat', UInt8.toNat_ofNat', Nat.mod_eq_of_lt (by omega),
    Nat.mod_eq_of_lt (by omega)] at hnat
  exact Char.toNat_inj.mp hnat

theorem wire_inj {a b : List Char} (ha : Clean a) (hb : Clean b) (h : wire a = wire b) : a = b := by
  induction a generalizing b with
  | nil =>
      cases b with
      | nil => rfl
      | cons d b => cases h
  | cons c a ih =>
      cases b with
      | nil => cases h
      | cons d b =>
          rcases List.cons.inj h with ⟨hhead, htail⟩
          have hrest := ih (fun x hx => ha x (List.mem_cons_of_mem c hx))
            (fun x hx => hb x (List.mem_cons_of_mem d hx)) htail
          rw [byte_inj (ha c List.mem_cons_self).1 (hb d List.mem_cons_self).1 hhead, hrest]

theorem return_not_mem {line : List Char} (h : Clean line) : UInt8.ofNat 13 ∉ wire line := by
  intro hmem
  rcases List.mem_map.mp hmem with ⟨c, hc, heq⟩
  have hsame := byte_inj (d := '\r') (h c hc).1 (by decide) heq
  exact (h c hc).2.1 hsame

theorem wire_cons (line : List Char) (lines : List (List Char)) (rest : List UInt8) :
    wire (blockText (line :: lines)) ++ rest =
      wire line ++ UInt8.ofNat 13 :: UInt8.ofNat 10 :: (wire (blockText lines) ++ rest) := by
  have htext : blockText (line :: lines) = line ++ ('\r' :: '\n' :: blockText lines) := by
    simp [blockText, crlf]
  rw [htext]
  simp [wire]

theorem wire_nil (rest : List UInt8) :
    wire (blockText []) ++ rest = UInt8.ofNat 13 :: UInt8.ofNat 10 :: rest := rfl

theorem not_blank_line {line : List Char} (hne : line ≠ []) (h : Clean line)
    {a b : List UInt8} : UInt8.ofNat 13 :: a ≠ wire line ++ b := by
  intro heq
  cases line with
  | nil => exact hne rfl
  | cons c line =>
      have hc := (List.cons.inj heq).1
      have hmem : UInt8.ofNat 13 ∈ wire (c :: line) := by
        rw [hc]
        exact List.mem_cons_self
      exact return_not_mem h hmem

/-- The end of a header block is where its first blank line is. -/
theorem block_unique {lines lines' : List (List Char)} {body body' : List UInt8}
    (hlines : CleanLines lines) (hlines' : CleanLines lines')
    (h : wire (blockText lines) ++ body = wire (blockText lines') ++ body') :
    lines = lines' ∧ body = body' := by
  induction lines generalizing lines' with
  | nil =>
      cases lines' with
      | nil => exact ⟨rfl, List.append_cancel_left h⟩
      | cons line lines' =>
          rw [wire_nil, wire_cons] at h
          have hline := hlines' line List.mem_cons_self
          exact absurd h (not_blank_line hline.1 hline.2)
  | cons line lines ih =>
      have hline := hlines line List.mem_cons_self
      cases lines' with
      | nil =>
          rw [wire_nil, wire_cons] at h
          exact absurd h.symm (not_blank_line hline.1 hline.2)
      | cons line' lines' =>
          have hline' := hlines' line' List.mem_cons_self
          rw [wire_cons, wire_cons] at h
          rcases cut_at (return_not_mem hline.2) (return_not_mem hline'.2) h with ⟨hsame, hrest⟩
          have htail := (List.cons.inj hrest).2
          rcases ih (fun l hl => hlines l (List.mem_cons_of_mem line hl))
            (fun l hl => hlines' l (List.mem_cons_of_mem line' hl)) htail with ⟨hls, hbody⟩
          rw [wire_inj hline.2 hline'.2 hsame, hls]
          exact ⟨rfl, hbody⟩

/-!
# One request
-/

section Request

variable {console : Console} {s : Serving} {keep : Bool} {head : Head}

theorem shortAnswer_framed {isHead : Bool} (hfits : head.Fits) (hshort : head.isPackage = false)
    (hzero : head.contentLength = 0) (h : (shortAnswer s keep head).keep = true) :
    Framed isHead s.package (shortAnswer s keep head).bytes := by
  rw [shortAnswer] at h ⊢
  have hsent := (Bool.and_eq_true_iff.mp h).1
  rw [sendAll_true hsent, sendAll_none, List.take_of_length_le (length_short keep s.date hfits hshort)]
  dsimp only
  rw [← List.append_nil (wire _)]
  apply framed_head hfits
  · rw [hzero, ite_self]
    rfl
  · intro start stop total heq
    rw [heq] at hshort
    cases hshort

theorem iconAnswer_framed {isGet : Bool} (h : (iconAnswer s keep isGet).keep = true) :
    Framed (!isGet) s.package (iconAnswer s keep isGet).bytes := by
  have hfits : (Head.icon s.icon.length).Fits := s.iconFits
  have hrange : forall {body : List UInt8} {isHead : Bool} start stop total,
      Head.icon s.icon.length = Head.partialContent start stop total -> isHead = false ->
        body = packageBytes s.package start (stop + 1 - start) := by
    intro body isHead start stop total heq
    cases heq
  rw [iconAnswer, List.take_of_length_le (length_short keep s.date hfits rfl)] at h ⊢
  cases isGet with
  | true =>
      cases hfails : s.headFails with
      | none =>
          rw [hfails] at h
          have hbody := sendAll_true (Bool.and_eq_true_iff.mp h).1
          rw [hbody]
          exact framed_head hfits rfl hrange
      | some k =>
          rw [hfails] at h
          cases h
  | false =>
      cases hfails : s.headFails with
      | none =>
          have hframed : Framed true s.package
              (wire ((Head.icon s.icon.length).block keep s.date).text ++ []) :=
            framed_head hfits rfl hrange
          rw [List.append_nil] at hframed
          exact hframed
      | some k =>
          rw [hfails] at h
          cases h

/-- Everything that a complete answer with the package needs. -/
structure SendsPackage (console : Console) (s : Serving) (keep isHead : Bool) (head : Head) :
    Prop where
  keep : keep = true
  headFails : s.headFails = none
  body : isHead = false -> s.allocated = true ∧ s.acquired = true ∧
    head.last < (copyLoop console s head.last (head.last + 1 - head.first) 0 head.first).2

theorem packageAnswer_keep {isHead : Bool}
    (h : (packageAnswer console s keep isHead head).keep = true) :
    SendsPackage console s keep isHead head := by
  rw [packageAnswer] at h
  split at h
  · cases h
  · cases hfails : s.headFails with
    | some k =>
        rw [hfails] at h
        cases h
    | none =>
        rw [hfails] at h
        dsimp only [sendAll_none] at h
        cases isHead with
        | true => exact ⟨h, hfails, fun hfalse => by cases hfalse⟩
        | false =>
            cases hallocated : s.allocated with
            | false =>
                rw [hallocated] at h
                cases h
            | true =>
                cases hacquired : s.acquired with
                | false =>
                    rw [hallocated, hacquired] at h
                    cases h
                | true =>
                    rw [hallocated, hacquired] at h
                    rcases Bool.and_eq_true_iff.mp h with ⟨hlast, hkeep⟩
                    exact ⟨hkeep, hfails, fun _ => ⟨hallocated, hacquired, of_decide_eq_true hlast⟩⟩

theorem packageAnswer_bytes {isHead : Bool} (hfits : head.Fits) (hpackage : head.isPackage = true)
    (h : SendsPackage console s keep isHead head) :
    packageAnswer console s keep isHead head =
      { bytes := wire (head.block keep s.date).text ++
          if isHead then []
          else (copyLoop console s head.last (head.last + 1 - head.first) 0 head.first).1
        keep := true } := by
  have hlength : ¬ (head.block keep s.date).text.length ≥ 1024 :=
    Nat.not_le.mpr (length_package keep s.date hfits hpackage)
  rw [packageAnswer, h.headFails]
  dsimp only [sendAll_none]
  rw [if_neg hlength]
  cases isHead with
  | true => simp [h.keep]
  | false =>
      rcases h.body rfl with ⟨hallocated, hacquired, hlast⟩
      simp [h.keep, hallocated, hacquired, hlast]

/-- The answer announces no byte, and has a body. -/
def IsEmpty (isHead : Bool) (head : Head) : Prop :=
  head = Head.ok 0 ∧ isHead = false

theorem bodyLength {head : Head} (hfits : head.Fits) (hpackage : head.isPackage = true)
    (hnot : head ≠ Head.ok 0) :
    head.first ≤ head.last ∧ head.last + 1 - head.first = head.contentLength := by
  cases head with
  | partialContent start stop total =>
      rcases hfits with ⟨hle, hlt, _⟩
      have htotal : ¬ total = 0 := by omega
      show start ≤ stop ∧ stop + 1 - start = if total = 0 then 0 else stop - start + 1
      rw [if_neg htotal]
      omega
  | ok total =>
      have htotal : total > 0 := Nat.pos_of_ne_zero (fun heq => hnot (by rw [heq]))
      show 0 ≤ lastOf total ∧ lastOf total + 1 - 0 = total
      rw [lastOf, if_pos htotal]
      omega
  | methodNotAllowed => cases hpackage
  | notFound => cases hpackage
  | icon size => cases hpackage
  | rangeNotSatisfiable total => cases hpackage

theorem packageAnswer_framed {isHead : Bool} (hfits : head.Fits) (hpackage : head.isPackage = true)
    (hnot : ¬ IsEmpty isHead head) (h : (packageAnswer console s keep isHead head).keep = true) :
    Framed isHead s.package (packageAnswer console s keep isHead head).bytes := by
  have hsends := packageAnswer_keep h
  rw [packageAnswer_bytes hfits hpackage hsends]
  cases isHead with
  | true =>
      apply framed_head hfits rfl
      intro start stop total heq hfalse
      cases hfalse
  | false =>
      have hne : head ≠ Head.ok 0 := fun heq => hnot ⟨heq, rfl⟩
      rcases bodyLength hfits hpackage hne with ⟨hfirst, hcount⟩
      have hbody := copyLoop_complete (by omega) (hsends.body rfl).2.2
      apply framed_head hfits
      · show List.length (copyLoop console s head.last (head.last + 1 - head.first) 0 head.first).1 =
          head.contentLength
        rw [hbody, length_packageBytes, hcount]
      · intro start stop total heq _
        show (copyLoop console s head.last (head.last + 1 - head.first) 0 head.first).1 = _
        rw [hbody, heq]
        rfl

/-- The one turn of the copy loop of an empty package. -/
theorem copyLoop_empty :
    0 < (copyLoop console s 0 1 0 0).2 ↔
      (s.turns 0).running = true ∧ 0 < (s.turns 0).count ∧ (s.turns 0).sendFails = none := by
  have hchunk := sendChunk_pos console
  have hwant : min (0 - 0 + 1) console.sendChunk = 1 := by omega
  rw [copyLoop]
  dsimp only
  rw [hwant]
  cases hrunning : (s.turns 0).running with
  | false => simp
  | true =>
      cases hcount : (s.turns 0).count with
      | zero => simp
      | succ n =>
          have hone : min (n + 1) 1 = 1 := by omega
          rw [hone]
          cases hfails : (s.turns 0).sendFails with
          | none => simp [sendAll_none, copyLoop]
          | some k => simp [sendAll]

end Request

theorem isHead_of_isGet {r : Request} (h : r.isGet = true) : r.isHead = false := by
  have hmethod : r.method = "GET".toList := beq_iff_eq.mp h
  rw [Request.isHead, hmethod]
  decide

theorem isHead_eq_not {r : Request} (h : ¬ (!r.isGet && !r.isHead) = true) :
    r.isHead = !r.isGet := by
  cases hget : r.isGet with
  | true => exact isHead_of_isGet hget
  | false =>
      cases hhead : r.isHead with
      | true => rfl
      | false =>
          rw [hget, hhead] at h
          exact absurd rfl h

theorem of_not_not_true {b : Bool} (h : ¬ (!b) = true) : b = true := by
  simpa using h

/-- The answer of a request that is not a whole read of an empty package. -/
theorem keptFramed_of_not {console : Console} {x : Exchange} (hnot : ¬ x.ReadsPastEmpty) :
    x.KeptFramed console := by
  have htotal : x.serving.total.toNat < 2 ^ 64 := x.serving.total.toNat_lt
  have hresponse : x.response console = answerRequest console x.serving x.request
      (keepWanted x.req x.request) (findRange (cString x.req) x.serving.total.toNat) := rfl
  rw [Exchange.KeptFramed, hresponse]
  unfold answerRequest
  split
  · exact shortAnswer_framed trivial rfl rfl
  · rename_i hmethod
    split
    · exact shortAnswer_framed trivial rfl rfl
    · rename_i hstream
      split
      · intro h
        have hhead := isHead_eq_not hmethod
        rw [hhead]
        exact iconAnswer_framed h
      · rename_i hicon
        split
        · exact shortAnswer_framed trivial rfl rfl
        · rename_i hadmits
          split
          · exact shortAnswer_framed htotal rfl rfl
          · rename_i start stop hrange
            rcases findRange_bounds hrange with ⟨hle, hlt⟩
            refine packageAnswer_framed ⟨hle, hlt, htotal⟩ rfl ?_
            intro hempty
            cases hempty.1
          · rename_i habsent
            intro h
            refine packageAnswer_framed htotal rfl ?_ h
            intro hempty
            have hzero : x.serving.total.toNat = 0 := Head.ok.inj hempty.1
            have hsends := packageAnswer_keep h
            rw [hzero] at hsends habsent
            rcases hsends.body hempty.2 with ⟨hallocated, hacquired, hlast⟩
            rcases copyLoop_empty.mp hlast with ⟨hrunning, hcount, hfails⟩
            have hget : x.request.isGet = true := by
              have hhead := isHead_eq_not hmethod
              rw [hempty.2] at hhead
              simpa using hhead.symm
            have hroute := of_not_not_true hstream
            have hname := of_not_not_true hadmits
            refine hnot ⟨hget, hroute, Bool.eq_false_iff.mpr hicon, hname, habsent, ?_, hsends.keep,
              hsends.headFails, hallocated, hacquired, hrunning, hcount, hfails⟩
            exact UInt64.toNat_inj.mp hzero

/-- One byte follows a block that announces none. -/
theorem not_framed_empty {keep : Bool} {date : Option Date} {package : Nat -> UInt8} {b : UInt8} :
    ¬ Framed false package (wire ((Head.ok 0).block keep date).text ++ [b]) := by
  intro h
  rcases h with ⟨lines, n, body, hframed⟩
  have hfits : (Head.ok 0).Fits := Nat.two_pow_pos 64
  have hclean := cleanLines_head keep date hfits
  rcases block_unique hclean hframed.clean hframed.whole with ⟨hlines, hbody⟩
  have hannounced := hframed.announced
  rw [← hlines, contentLength_announced] at hannounced
  have hn : 0 = n := decimal_inj (List.cons.inj hannounced).1
  have hlength := hframed.length
  rw [← hbody, ← hn] at hlength
  cases hlength

theorem not_keptFramed {console : Console} {x : Exchange} (h : x.ReadsPastEmpty) :
    ¬ x.KeptFramed console := by
  rcases h with ⟨hget, hstream, hicon, hadmits, habsent, htotal, hkeep, hhead, hallocated, hacquired,
    hrunning, hcount, hfails⟩
  have hnohead := isHead_of_isGet hget
  have hzero : x.serving.total.toNat = 0 := by
    rw [htotal]
    rfl
  have hlast : 0 < (copyLoop console x.serving 0 1 0 0).2 :=
    copyLoop_empty.mpr ⟨hrunning, hcount, hfails⟩
  have hsends : SendsPackage console x.serving true false (Head.ok 0) :=
    ⟨rfl, hhead, fun _ => ⟨hallocated, hacquired, hlast⟩⟩
  have hanswer : x.response console =
      packageAnswer console x.serving true false (Head.ok 0) := by
    change answerRequest console x.serving x.request (keepWanted x.req x.request)
      (findRange (cString x.req) x.serving.total.toNat) = _
    unfold answerRequest
    rw [hget, hnohead, hstream, hicon, hadmits, hzero, habsent, hkeep]
    rfl
  have hbody : (copyLoop console x.serving 0 1 0 0).1 = packageBytes x.serving.package 0 1 :=
    copyLoop_complete (by decide) hlast
  have hfits : (Head.ok 0).Fits := Nat.two_pow_pos 64
  have hbytes := packageAnswer_bytes hfits rfl hsends
  intro hframed
  rw [Exchange.KeptFramed, hanswer, hbytes, hnohead] at hframed
  have hbad := hframed rfl
  change Framed false _ (wire _ ++ (copyLoop console x.serving 0 1 0 0).1) at hbad
  rw [hbody] at hbad
  exact not_framed_empty hbad

theorem keptFramed_iff (console : Console) (x : Exchange) :
    x.KeptFramed console ↔ ¬ x.ReadsPastEmpty :=
  ⟨fun h hbad => not_keptFramed hbad h, keptFramed_of_not⟩

/-!
# A connection
-/

/-- The requests that a connection answers are the first ones, and each answer
is the answer to its request. -/
theorem serveConnection_answers (console : Console) (reqNo : Nat) (xs : List Exchange) :
    serveConnection console reqNo xs =
      (xs.take (serveConnection console reqNo xs).length).map (Exchange.response console) := by
  induction xs generalizing reqNo with
  | nil => rfl
  | cons x xs ih =>
      rw [serveConnection]
      split
      · dsimp only
        split
        · rw [List.length_cons, List.take_succ_cons, List.map_cons, ← ih]
        · rfl
      · rfl

/-- The requests that the connection answers. -/
def answered (console : Console) (xs : List Exchange) : List Exchange :=
  xs.take (serveConnection console 0 xs).length

theorem first_answered {console : Console} {x : Exchange} {xs : List Exchange}
    (hrunning : x.running = true) : x ∈ answered console (x :: xs) := by
  have hone : exists r rs, serveConnection console 0 (x :: xs) = r :: rs := by
    rw [serveConnection, if_pos ⟨by decide, hrunning⟩]
    dsimp only
    split
    · exact ⟨_, _, rfl⟩
    · exact ⟨_, _, rfl⟩
  rcases hone with ⟨r, rs, heq⟩
  rw [answered, heq, List.length_cons, List.take_succ_cons]
  exact List.mem_cons_self

/-- Every answer on a connection after which the connection is kept is framed,
unless one of the requests reads past an empty package. -/
theorem serveConnection_framed_iff (console : Console) (xs : List Exchange) :
    (forall x, x ∈ answered console xs -> x.KeptFramed console) ↔
      forall x, x ∈ answered console xs -> ¬ x.ReadsPastEmpty := by
  constructor
  · intro h x hx
    exact (keptFramed_iff console x).mp (h x hx)
  · intro h x hx
    exact (keptFramed_iff console x).mpr (h x hx)

/-- The package was empty when the session was started, and has a byte when it is
read. -/
def emptyRead : Exchange where
  req := "GET /stream/game.pkg HTTP/1.1\r\n\r\n".toList
  serving := {
    pinned := "game.pkg"
    total := 0
    package := fun _ => 0x7f
    turns := fun _ => { count := 1 } }

theorem empty_read_kept :
    ¬ forall x, x ∈ answered Console.ps5 [emptyRead] -> x.KeptFramed Console.ps5 := by
  intro h
  have hframed := h emptyRead (first_answered rfl)
  apply not_keptFramed ?_ hframed
  have hrequest : emptyRead.request =
      ⟨"GET".toList, "/stream/game.pkg".toList, "HTTP/1.1".toList⟩ := by
    decide
  rw [Exchange.ReadsPastEmpty, hrequest]
  decide

end StreamServer
end PkgManager
