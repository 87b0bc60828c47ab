import PkgManager.Bytes.Lines
import PkgManager.Collections.Segments
import PkgManager.Http.UrlParts

/-!
# Requests as they are read

A request is a line of three words, the lines of its headers and an empty line.  What is sent for
an address is one request when the address has none of the bytes that end a word or a line.
-/

namespace PkgManager
namespace Http

open CString
open Lines
open PkgManager.Parser
open PkgManager.Secrets
open PkgManager.Smb (mem_intText)
open Segments (segments)

structure RequestHead where
  method : Text
  target : Text
  version : Text
  headers : List Text
deriving DecidableEq

/-- The request that a text is, to its last byte. -/
def readRequest (text : Text) : Option RequestHead :=
  match lines text with
  | some (first :: rest) =>
      match segments 32 first with
      | [method, target, version] =>
          if rest.getLast? = some [] ∧ forall line, line ∈ rest.dropLast -> line ≠ [] then
            some { method := method, target := target, version := version, headers := rest.dropLast }
          else none
      | _ => none
  | _ => none

/-- No blank and no control character. -/
def isTargetByte (b : UInt8) : Bool :=
  decide (33 ≤ b.toNat) && b != 127

/-- The header with the name and the password, without its line end. -/
def authLines (cfg : Option SourceConfig) (u : HttpUrl) : List Text :=
  match cfg with
  | none => []
  | some c =>
      if cfgAppliesTo cfg u then
        [ascii "Authorization: Basic " ++
          b64Encode (copied 200 (c.username ++ ascii ":" ++ c.password))]
      else []

def rangeLines : Option (Nat × Nat) -> List Text
  | none => []
  | some (rs, re) => [ascii "Range: bytes=" ++ intText rs ++ ascii "-" ++ intText re]

/-- The header lines that a request is meant to have. -/
def intendedHeaders (version : Text) (cfg : Option SourceConfig) (req : Request) : List Text :=
  [ascii "Host: " ++ hostAndPort req.u, ascii "User-Agent: pkg-manager-x/" ++ version,
    ascii "Accept: */*", ascii "Accept-Encoding: identity", ascii "Connection: keep-alive"] ++
    rangeLines req.range ++ authLines cfg req.u

/-- A text is one request with a plain target and the headers that are meant. -/
structure OneRequest (version : Text) (cfg : Option SourceConfig) (req : Request) (text : Text) :
    Prop where
  read : exists target, readRequest text =
    some { method := req.method, target := target, version := ascii "HTTP/1.1",
           headers := intendedHeaders version cfg req } ∧
      forall b, b ∈ target -> isTargetByte b = true

/-- The path and the host have none of the bytes that a request is read by. -/
structure PlainAddress (u : HttpUrl) : Prop where
  path : forall b, b ∈ u.path -> isTargetByte b = true
  host : Unbroken u.host

/-!
# What is written
-/

def requestLine (method target : Text) : Text :=
  method ++ 32 :: (target ++ 32 :: ascii "HTTP/1.1")

theorem segments_requestLine {method target : Text} (hmethod : (32 : UInt8) ∉ method)
    (htarget : (32 : UInt8) ∉ target) :
    segments 32 (requestLine method target) = [method, target, ascii "HTTP/1.1"] := by
  have hversion : (32 : UInt8) ∉ ascii "HTTP/1.1" := by decide
  unfold requestLine
  rw [Segments.segments_append, Segments.segments_append, Segments.segments_single 32 hmethod,
    Segments.segments_single 32 htarget, Segments.segments_single 32 hversion]
  rfl

theorem readRequest_written {method target : Text} {headers : List Text}
    (hmethod : (32 : UInt8) ∉ method ∧ Unbroken method)
    (htarget : (32 : UInt8) ∉ target ∧ Unbroken target)
    (hheaders : forall line, line ∈ headers -> line ≠ [] ∧ Unbroken line) :
    readRequest (written (requestLine method target :: (headers ++ [[]]))) =
      some { method := method, target := target, version := ascii "HTTP/1.1",
             headers := headers } := by
  have hversion : Unbroken (ascii "HTTP/1.1") := unbroken_of_all rfl
  have hblank : Unbroken [32] := unbroken_of_all rfl
  have hfirst : Unbroken (requestLine method target) :=
    unbroken_append hmethod.2 (unbroken_append hblank
      (unbroken_append htarget.2 (unbroken_append hblank hversion)))
  have hall : forall line, line ∈ requestLine method target :: (headers ++ [[]]) ->
      Unbroken line := by
    intro line hline
    rcases List.mem_cons.mp hline with rfl | hline
    · exact hfirst
    · rcases List.mem_append.mp hline with hline | hline
      · exact (hheaders line hline).2
      · rw [List.mem_singleton.mp hline]
        exact fun b hb => by cases hb
  unfold readRequest
  rw [lines_written hall]
  dsimp only
  rw [segments_requestLine hmethod.1 htarget.1]
  dsimp only
  rw [List.getLast?_concat, List.dropLast_concat, if_pos]
  exact ⟨rfl, fun line hline => (hheaders line hline).1⟩

/-- A text that is read is written as it is read. -/
theorem written_of_readRequest {text : Text} {r : RequestHead} (h : readRequest text = some r) :
    text = written ((r.method ++ 32 :: (r.target ++ 32 :: r.version)) :: (r.headers ++ [[]])) ∧
      forall line, line ∈ r.headers -> Unbroken line := by
  unfold readRequest at h
  split at h
  · rename_i first rest hlines
    rcases written_of_lines hlines with ⟨htext, hall⟩
    split at h
    · rename_i method target version hsegs
      split at h
      · rename_i hends
        cases h
        have hfirst := Segments.joined_segments 32 first
        rw [hsegs] at hfirst
        have hline : first = method ++ 32 :: (target ++ 32 :: version) := by
          have hjoined := (List.cons.inj hfirst).2
          rw [<- hjoined]
          simp
        have hrest : rest = rest.dropLast ++ [[]] := (List.dropLast_append_getLast? _ hends.1).symm
        constructor
        · dsimp only
          rw [<- hrest, <- hline]
          exact htext
        · exact fun line hline => hall line (List.mem_cons_of_mem _ (List.dropLast_subset _ hline))
      · cases h
    · cases h
  · cases h

/-!
# What is sent
-/

theorem b64Digit_plain (n : Nat) : b64Digit n ≠ 13 ∧ b64Digit n ≠ 10 ∧ b64Digit n ≠ 0 := by
  have hall : forall k, k < 64 ->
      (ascii "ABCDEFGHIJKLMNOPQRSTUVWXYZabcdefghijklmnopqrstuvwxyz0123456789+/").getD k 0 ≠ 13 ∧
        (ascii "ABCDEFGHIJKLMNOPQRSTUVWXYZabcdefghijklmnopqrstuvwxyz0123456789+/").getD k 0 ≠ 10 ∧
        (ascii "ABCDEFGHIJKLMNOPQRSTUVWXYZabcdefghijklmnopqrstuvwxyz0123456789+/").getD k 0 ≠ 0 := by
    decide +kernel
  exact hall (n % 64) (Nat.mod_lt n (by decide))

theorem b64Encode_plain {text : Text} {b : UInt8} (h : b ∈ b64Encode text) :
    b ≠ 13 ∧ b ≠ 10 ∧ b ≠ 0 := by
  have hpad : (61 : UInt8) ≠ 13 ∧ (61 : UInt8) ≠ 10 ∧ (61 : UInt8) ≠ 0 := by decide
  induction text using b64Encode.induct with
  | case1 => cases h
  | case2 a =>
      simp only [b64Encode, List.mem_cons, List.not_mem_nil, or_false] at h
      rcases h with rfl | rfl | rfl | rfl
      · exact b64Digit_plain _
      · exact b64Digit_plain _
      · exact hpad
      · exact hpad
  | case3 a c =>
      simp only [b64Encode, List.mem_cons, List.not_mem_nil, or_false] at h
      rcases h with rfl | rfl | rfl | rfl
      · exact b64Digit_plain _
      · exact b64Digit_plain _
      · exact b64Digit_plain _
      · exact hpad
  | case4 a c d rest ih =>
      simp only [b64Encode, List.mem_append, List.mem_cons, List.not_mem_nil, or_false] at h
      rcases h with (rfl | rfl | rfl | rfl) | h
      · exact b64Digit_plain _
      · exact b64Digit_plain _
      · exact b64Digit_plain _
      · exact b64Digit_plain _
      · exact ih h

theorem b64Encode_length (text : Text) :
    (b64Encode text).length = (text.length + 2) / 3 * 4 := by
  induction text using b64Encode.induct with
  | case1 => rfl
  | case2 a => simp [b64Encode]
  | case3 a c => simp [b64Encode]
  | case4 a c d rest ih =>
      rw [b64Encode, List.length_append, ih]
      simp only [List.length_cons, List.length_nil]
      omega

theorem authHeader_lines (cfg : Option SourceConfig) (u : HttpUrl) :
    authHeader cfg u = (authLines cfg u).flatMap (fun line => line ++ ascii "\r\n") := by
  unfold authHeader authLines
  cases cfg with
  | none => rfl
  | some c =>
      dsimp only
      split
      · have hcreds := Smb.copied_length 200 (c.username ++ ascii ":" ++ c.password)
        generalize copied 200 (c.username ++ ascii ":" ++ c.password) = creds at hcreds
        have hzero : ZeroFree (ascii "Authorization: Basic " ++ b64Encode creds ++
            ascii "\r\n") := by
          apply zeroFree_append (zeroFree_append _ (fun b hb => (b64Encode_plain hb).2.2))
          · exact zeroFree_of_all rfl
          · exact zeroFree_of_all rfl
        have hlength : (ascii "Authorization: Basic " ++ b64Encode creds ++ ascii "\r\n").length =
            23 + (b64Encode creds).length := by
          rw [List.length_append, List.length_append]
          have hfront : (ascii "Authorization: Basic ").length = 21 := by decide
          have hend : (ascii "\r\n").length = 2 := by decide
          omega
        rw [Smb.copied_whole hzero]
        · rw [List.flatMap_singleton]
        · rw [hlength, b64Encode_length]
          omega
      · rfl

theorem rangeHeader_lines (range : Option (Nat × Nat)) :
    rangeHeader range = (rangeLines range).flatMap (fun line => line ++ ascii "\r\n") := by
  rcases range with _ | ⟨rs, re⟩
  · rfl
  · exact (List.flatMap_singleton _ _).symm

/-- The host with its port has room in its array. -/
theorem copied_host {url : Text} {u : HttpUrl} (h : httpUrlParse url = some u) :
    copied 300 (hostAndPort u) = hostAndPort u := by
  have hport : (0 : Int) < u.port := by exact_mod_cast (port_bounds h).1
  have hportShort : (u.port : Int) < 2 ^ 31 := by
    have hle := (port_bounds h).2
    omega
  have hdigits := Smb.intText_length hport hportShort
  have hshort := host_short h
  have hbracketed :
      ZeroFree (if u.host.contains 58 then ascii "[" ++ u.host ++ ascii "]" else u.host) ∧
        (if u.host.contains 58 then ascii "[" ++ u.host ++ ascii "]" else u.host).length ≤
          u.host.length + 2 := by
    split
    · constructor
      · exact zeroFree_append (zeroFree_append (zeroFree_of_all rfl) u.hostZero) (zeroFree_of_all rfl)
      · rw [List.length_append, List.length_append]
        have hone : (ascii "[").length = 1 ∧ (ascii "]").length = 1 := by decide
        omega
    · exact ⟨u.hostZero, Nat.le_add_right _ _⟩
  unfold hostAndPort
  dsimp only
  split
  · apply Smb.copied_whole
    · exact zeroFree_append (zeroFree_append hbracketed.1 (zeroFree_of_all rfl))
        (Smb.zeroFree_intText hport)
    · rw [List.length_append, List.length_append]
      have hone : (ascii ":").length = 1 := by decide
      omega
  · apply Smb.copied_whole hbracketed.1
    omega

/-- The bytes of a request are its lines. -/
theorem requestText_written {version : Text} {cfg : Option SourceConfig} {req : Request} {url : Text}
    (h : httpUrlParse url = some req.u) :
    requestText version req (authHeader cfg req.u) =
      written (requestLine req.method req.u.path :: (intendedHeaders version cfg req ++ [[]])) := by
  have hend : ascii "\r\n" = [13, 10] := by decide
  have hversion : ascii " HTTP/1.1\r\n" = 32 :: (ascii "HTTP/1.1" ++ [13, 10]) := by decide
  have hblank : ascii " " = [32] := by decide
  have haccept : ascii "Accept: */*\r\n" = ascii "Accept: */*" ++ [13, 10] := by decide
  have hencoding : ascii "Accept-Encoding: identity\r\n" =
      ascii "Accept-Encoding: identity" ++ [13, 10] := by decide
  have hconnection : ascii "Connection: keep-alive\r\n" =
      ascii "Connection: keep-alive" ++ [13, 10] := by decide
  unfold requestText written intendedHeaders requestLine
  rw [copied_host h, authHeader_lines, rangeHeader_lines, hend, hversion, hblank, haccept,
    hencoding, hconnection]
  simp only [List.flatMap_cons, List.flatMap_append, List.flatMap_nil, List.append_assoc,
    List.cons_append, List.nil_append, List.append_nil]

theorem unbroken_digits {n : Nat} : Unbroken (intText n) := by
  intro b hb
  have hdigit : isDigit b = true := by
    have hnat : intText (n : Int) = digitsText n := by
      unfold intText
      rw [if_neg (Int.not_lt.mpr (Int.natCast_nonneg n))]
      rfl
    rw [hnat] at hb
    exact Smb.digitsText_digit hb
  constructor
  · rintro rfl
    cases hdigit
  · rintro rfl
    cases hdigit

theorem unbroken_host {u : HttpUrl} : Unbroken (hostAndPort u) ↔ Unbroken u.host := by
  constructor
  · intro h
    have hbracketed : Unbroken
        (if u.host.contains 58 then ascii "[" ++ u.host ++ ascii "]" else u.host) := by
      unfold hostAndPort at h
      dsimp only at h
      split at h
      · exact (unbroken_of_append (unbroken_of_append h).1).1
      · exact h
    split at hbracketed
    · exact (unbroken_of_append (unbroken_of_append hbracketed).1).2
    · exact hbracketed
  · intro h
    have hbracketed : Unbroken
        (if u.host.contains 58 then ascii "[" ++ u.host ++ ascii "]" else u.host) := by
      split
      · exact unbroken_append (unbroken_append (unbroken_of_all rfl) h) (unbroken_of_all rfl)
      · exact h
    unfold hostAndPort
    dsimp only
    split
    · exact unbroken_append (unbroken_append hbracketed (unbroken_of_all rfl)) unbroken_digits
    · exact hbracketed

theorem rangeLines_unbroken {range : Option (Nat × Nat)} {line : Text}
    (h : line ∈ rangeLines range) : line ≠ [] ∧ Unbroken line := by
  rcases range with _ | ⟨rs, re⟩
  · cases h
  · rw [List.mem_singleton.mp h]
    constructor
    · exact List.cons_ne_nil _ _
    · exact unbroken_append (unbroken_append (unbroken_append (unbroken_of_all rfl) unbroken_digits)
        (unbroken_of_all rfl)) unbroken_digits

theorem authLines_unbroken {cfg : Option SourceConfig} {u : HttpUrl} {line : Text}
    (h : line ∈ authLines cfg u) : line ≠ [] ∧ Unbroken line := by
  unfold authLines at h
  split at h
  · cases h
  · split at h
    · rw [List.mem_singleton.mp h]
      constructor
      · exact List.cons_ne_nil _ _
      · exact unbroken_append (unbroken_of_all rfl)
          (fun b hb => ⟨(b64Encode_plain hb).1, (b64Encode_plain hb).2.1⟩)
    · cases h

section
variable {version : Text} {cfg : Option SourceConfig} {req : Request}

/-- The headers that are meant are whole lines, when the host and the version are. -/
theorem intendedHeaders_unbroken (hversion : Unbroken version) (hhost : Unbroken req.u.host)
    {line : Text} (h : line ∈ intendedHeaders version cfg req) : line ≠ [] ∧ Unbroken line := by
  unfold intendedHeaders at h
  rcases List.mem_append.mp h with h | hauth
  · rcases List.mem_append.mp h with h | hrange
    · simp only [List.mem_cons, List.not_mem_nil, or_false] at h
      rcases h with rfl | rfl | rfl | rfl | rfl
      · exact ⟨List.cons_ne_nil _ _,
          unbroken_append (unbroken_of_all rfl) (unbroken_host.mpr hhost)⟩
      · exact ⟨List.cons_ne_nil _ _, unbroken_append (unbroken_of_all rfl) hversion⟩
      · exact ⟨List.cons_ne_nil _ _, unbroken_of_all rfl⟩
      · exact ⟨List.cons_ne_nil _ _, unbroken_of_all rfl⟩
      · exact ⟨List.cons_ne_nil _ _, unbroken_of_all rfl⟩
    · exact rangeLines_unbroken hrange
  · exact authLines_unbroken hauth

theorem host_of_headers (h : forall line, line ∈ intendedHeaders version cfg req -> Unbroken line) :
    Unbroken req.u.host := by
  have hfirst : ascii "Host: " ++ hostAndPort req.u ∈ intendedHeaders version cfg req :=
    List.mem_append_left _ (List.mem_append_left _ List.mem_cons_self)
  exact unbroken_host.mp (unbroken_of_append (h _ hfirst)).2

theorem written_cons_inj {a b : Text} {rest : List Text}
    (h : written (a :: rest) = written (b :: rest)) : a = b := by
  unfold written at h
  rw [List.flatMap_cons, List.flatMap_cons, List.append_cancel_right_eq,
    List.append_cancel_right_eq] at h
  exact h

theorem requestLine_inj {method a b : Text} (h : requestLine method a = requestLine method b) :
    a = b := by
  unfold requestLine at h
  rw [List.append_cancel_left_eq, List.cons.injEq, List.append_cancel_right_eq] at h
  exact h.2

theorem targetByte_plain {target : Text} (h : forall b, b ∈ target -> isTargetByte b = true) :
    (32 : UInt8) ∉ target ∧ Unbroken target := by
  constructor
  · intro hmem
    cases h 32 hmem
  · intro b hb
    constructor
    · rintro rfl
      cases h 13 hb
    · rintro rfl
      cases h 10 hb

/-- The bytes for an address are one request, exactly when the address is plain. -/
theorem oneRequest_iff {url : Text} (hurl : httpUrlParse url = some req.u)
    (hmethod : req.method = ascii "GET" ∨ req.method = ascii "HEAD") (hversion : Unbroken version) :
    OneRequest version cfg req (requestText version req (authHeader cfg req.u)) ↔
      PlainAddress req.u := by
  rw [requestText_written hurl]
  constructor
  · intro h
    rcases h.read with ⟨target, hread, hplain⟩
    rcases written_of_readRequest hread with ⟨htext, hheaders⟩
    have hpath := requestLine_inj (written_cons_inj htext)
    constructor
    · rw [hpath]
      exact hplain
    · exact host_of_headers hheaders
  · intro h
    refine ⟨⟨req.u.path, ?_, h.path⟩⟩
    apply readRequest_written
    · rcases hmethod with heq | heq
      · rw [heq]
        decide +kernel
      · rw [heq]
        decide +kernel
    · exact targetByte_plain h.path
    · exact fun line hline => intendedHeaders_unbroken hversion h.host hline

end

/-!
# Every address
-/

variable {net : Net} {cfg : Option SourceConfig}

/-- What is sent for an address is one request, exactly when the address is plain. -/
theorem httpSendRequest_one_iff {url : Text} {req : Request} (hurl : httpUrlParse url = some req.u)
    (hmethod : req.method = ascii "GET" ∨ req.method = ascii "HEAD")
    (hversion : Unbroken net.version) {k : Conn} {c : Client}
    (hsent : (httpSendRequest net cfg k req c).1 = true) :
    (exists text, (httpSendRequest net cfg k req c).2.log =
        c.log ++ [Event.sent k.ep (authHeader cfg req.u) text] ∧
          OneRequest net.version cfg req text) ↔ PlainAddress req.u := by
  have hlog : (httpSendRequest net cfg k req c).2.log = c.log ++
      [Event.sent k.ep (authHeader cfg req.u)
        (requestText net.version req (authHeader cfg req.u))] := by
    unfold httpSendRequest at hsent ⊢
    dsimp only at hsent ⊢
    split at hsent
    · cases hsent
    · rename_i hfits
      rw [if_neg hfits]
      rfl
  have hone : OneRequest net.version cfg req
      (requestText net.version req (authHeader cfg req.u)) ↔ PlainAddress req.u :=
    oneRequest_iff hurl hmethod hversion
  rw [hlog, <- hone]
  constructor
  · rintro ⟨text, heq, hone⟩
    have hevent := List.singleton_inj.mp (List.append_cancel_left heq)
    cases hevent
    exact hone
  · intro hone
    exact ⟨_, rfl, hone⟩

/-- A request for a package on a server of the home network. -/
def plainRequest : Request where
  u :=
    { https := false
      host := ascii "nas"
      hostZero := zeroFree_of_all rfl
      port := 80
      path := ascii "/a.pkg" }
  method := ascii "GET"
  range := some (0, 65535)

def quietNet : Net where
  answer := fun _ =>
    { connects := true, handshakes := true, response := none, bodyRead := false,
      staysAlive := false }
  version := ascii "0.0.0-dev"
  poolMax := 1

def plainConn : Conn where
  ep := plainRequest.u
  alive := true
  mode := none

theorem httpSendRequest_one_plain :
    exists text, (httpSendRequest quietNet none plainConn plainRequest
        { attempts := 0, log := [] }).2.log =
      [Event.sent plainRequest.u [] text] ∧ OneRequest quietNet.version none plainRequest text := by
  have hurl : httpUrlParse (ascii "http://nas/a.pkg") = some plainRequest.u := by rfl
  have hsent : (httpSendRequest quietNet none plainConn plainRequest
      { attempts := 0, log := [] }).1 = true := by
    decide +kernel
  apply (httpSendRequest_one_iff hurl (Or.inl rfl) (by decide +kernel) hsent).mpr
  constructor
  · decide +kernel
  · decide +kernel

/-- An address with a line end in it, which a list of packages spells with escapes. -/
def brokenUrl : Text :=
  ascii "http://nas/a HTTP/1.1\r\nX-Also: 1/b.pkg"

def brokenRequest : Request where
  u :=
    { https := false
      host := ascii "nas"
      hostZero := zeroFree_of_all rfl
      port := 80
      path := ascii "/a HTTP/1.1\r\nX-Also: 1/b.pkg" }
  method := ascii "HEAD"
  range := none

theorem httpSendRequest_not_one :
    (scanIndexJson none (ascii "http://nas/") ScanCtx.start
        (ascii "[\"http://nas/a HTTP/1.1\\r\\nX-Also: 1/b.pkg\"]")).map
          (fun s => s.calls.map Call.url) = some [brokenUrl] ∧
      httpUrlParse brokenUrl = some brokenRequest.u ∧
      ¬OneRequest quietNet.version none brokenRequest
        (requestText quietNet.version brokenRequest (authHeader none brokenRequest.u)) := by
  have hurl : httpUrlParse brokenUrl = some brokenRequest.u := by rfl
  refine ⟨by decide +kernel, hurl, fun hone => ?_⟩
  have hplain := (oneRequest_iff hurl (Or.inr rfl) (by decide +kernel)).mp hone
  have hblank := hplain.path 32 (by decide)
  cases hblank

end Http
end PkgManager
