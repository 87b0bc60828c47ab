import PkgManager.Bytes.Digest
import PkgManager.Parser.Json

/-!
# The answer to a handshake

The key of the client is hashed with a fixed text behind it.  The digest takes its input in
pieces of any size and keeps the bytes that do not fill a block.
-/

namespace PkgManager
namespace WebSocket

open CString
open Sha1 (Hash Absorbed absorb)
open PkgManager.Parser (Text)

/-!
# The digest
-/

/-- {lit}`rol32` -/
def rol32 (v : UInt32) (n : UInt32) : UInt32 :=
  (v <<< n) ||| (v >>> (32 - n))

/-- {lit}`w[0]` to {lit}`w[15]` -/
def firstWords (p : List UInt8) : List UInt32 :=
  (List.range 16).map (fun i =>
    ((p.getD (i * 4) 0).toUInt32 <<< 24) ||| ((p.getD (i * 4 + 1) 0).toUInt32 <<< 16) |||
      ((p.getD (i * 4 + 2) 0).toUInt32 <<< 8) ||| (p.getD (i * 4 + 3) 0).toUInt32)

/-- One more word behind those of the array that are written. -/
def nextWord (w : List UInt32) (i : Nat) : List UInt32 :=
  w ++ [rol32 (w.getD (i - 3) 0 ^^^ w.getD (i - 8) 0 ^^^ w.getD (i - 14) 0 ^^^ w.getD (i - 16) 0) 1]

/-- The array {lit}`w`. -/
def blockWords (p : List UInt8) : List UInt32 :=
  ((List.range 64).map (fun i => i + 16)).foldl nextWord (firstWords p)

/-- One round; {lit}`cc` is the third word. -/
def sha1Round (w : List UInt32) (s : Hash) (i : Nat) : Hash :=
  let fp :=
    if i < 20 then (s.b &&& s.c) ||| (~~~s.b &&& s.d)
    else if i < 40 then s.b ^^^ s.c ^^^ s.d
    else if i < 60 then (s.b &&& s.c) ||| (s.b &&& s.d) ||| (s.c &&& s.d)
    else s.b ^^^ s.c ^^^ s.d
  let k : UInt32 :=
    if i < 20 then 0x5A827999
    else if i < 40 then 0x6ED9EBA1
    else if i < 60 then 0x8F1BBCDC
    else 0xCA62C1D6
  let t := rol32 s.a 5 + fp + s.e + k + w.getD i 0
  { a := t, b := s.a, c := rol32 s.b 30, d := s.c, e := s.d }

def sha1Block (h : Hash) (p : List UInt8) : Hash :=
  let s := (List.range 80).foldl (sha1Round (blockWords p)) h
  { a := h.a + s.a, b := h.b + s.b, c := h.c + s.c, d := h.d + s.d, e := h.e + s.e }

/-- {lit}`ws_sha1_t`; of {lit}`buf` the bytes that are in use. -/
structure WsSha1 where
  h : Hash
  len : UInt64
  buf : List UInt8
  short : buf.length < 64

def sha1Init : WsSha1 where
  h := { a := 0x67452301, b := 0xEFCDAB89, c := 0x98BADCFE, d := 0x10325476, e := 0xC3D2E1F0 }
  len := 0
  buf := []
  short := by decide

/-- A block is hashed when it is full. -/
def WsSha1.fill (c : WsSha1) (bytes : List UInt8) : WsSha1 :=
  if h : (c.buf ++ bytes).length < 64 then { c with buf := c.buf ++ bytes, short := h }
  else { c with h := sha1Block c.h (c.buf ++ bytes), buf := [], short := by decide }

/-- {lit}`while (n > 0)` -/
def WsSha1.feed (c : WsSha1) (p : List UInt8) : WsSha1 :=
  if 0 < p.length then
    let take := min (64 - c.buf.length) p.length
    feed (c.fill (p.take take)) (p.drop take)
  else c
termination_by p.length
decreasing_by
  have hshort := c.short
  rw [List.length_drop]
  omega

/-- {lit}`sha1_update` -/
def sha1Update (c : WsSha1) (data : List UInt8) : WsSha1 :=
  { c with len := c.len + UInt64.ofNat data.length }.feed data

theorem feed_one (c : WsSha1) (b : UInt8) : c.feed [b] = c.fill [b] := by
  have hshort := c.short
  have htake : min (64 - c.buf.length) ([b] : List UInt8).length = 1 := by
    rw [List.length_singleton]
    omega
  have hpos : 0 < ([b] : List UInt8).length := Nat.one_pos
  rw [WsSha1.feed, if_pos hpos]
  dsimp only
  rw [htake, WsSha1.feed]
  exact if_neg (Nat.lt_irrefl 0)

theorem length_fill_one (c : WsSha1) (b : UInt8) :
    (c.fill [b]).buf.length = if c.buf.length = 63 then 0 else c.buf.length + 1 := by
  have hshort := c.short
  have hlen : (c.buf ++ [b]).length = c.buf.length + 1 := by
    rw [List.length_append, List.length_singleton]
  unfold WsSha1.fill
  split
  · rw [if_neg (by omega)]
    exact hlen
  · rw [if_pos (by omega)]
    rfl

/-- {lit}`while (c->buflen != 56)` -/
def WsSha1.padTo56 (c : WsSha1) : WsSha1 :=
  if c.buf.length ≠ 56 then padTo56 (sha1Update c [0]) else c
termination_by (120 - c.buf.length) % 64
decreasing_by
  rename_i hgo
  have hshort := c.short
  have hnext : (sha1Update c [0]).buf.length =
      if c.buf.length = 63 then 0 else c.buf.length + 1 := by
    rw [sha1Update, feed_one]
    exact length_fill_one _ 0
  rw [hnext]
  split <;> omega

/-- The four bytes of a word. -/
def outBytes (w : UInt32) : List UInt8 :=
  [(w >>> 24).toUInt8, (w >>> 16).toUInt8, (w >>> 8).toUInt8, w.toUInt8]

/-- {lit}`sha1_final` -/
def sha1Final (c : WsSha1) : List UInt8 :=
  let bitlen := c.len * 8
  let c := (sha1Update c [0x80]).padTo56
  let lb := (List.range 8).map (fun i => (bitlen >>> UInt64.ofNat (56 - i * 8)).toUInt8)
  let h := sha1Block c.h (c.buf ++ lb)
  outBytes h.a ++ outBytes h.b ++ outBytes h.c ++ outBytes h.d ++ outBytes h.e

/-!
# Blocks
-/

theorem or_eq_xor_ch (x y z : UInt32) : (x &&& y) ||| (~~~x &&& z) = Sha1.ch x y z := by
  apply UInt32.toBitVec_inj.mp
  apply BitVec.eq_of_getLsbD_eq
  intro i hi
  simp [Sha1.ch]
  cases x.toBitVec.getLsbD i <;> cases y.toBitVec.getLsbD i <;> cases z.toBitVec.getLsbD i <;> simp

theorem or_eq_xor_maj (x y z : UInt32) :
    (x &&& y) ||| (x &&& z) ||| (y &&& z) = Sha1.maj x y z := by
  apply UInt32.toBitVec_inj.mp
  apply BitVec.eq_of_getLsbD_eq
  intro i hi
  simp [Sha1.maj]
  cases x.toBitVec.getLsbD i <;> cases y.toBitVec.getLsbD i <;> cases z.toBitVec.getLsbD i <;> simp

theorem firstWords_eq (p : List UInt8) : firstWords p = (List.range 16).map (Sha1.schedule p) := by
  apply List.map_congr_left
  intro i hi
  rw [Sha1.schedule, if_pos (List.mem_range.mp hi), Sha1.wordAt, Nat.mul_comm]

theorem getD_schedule (p : List UInt8) {n i : Nat} (h : i < n) :
    ((List.range n).map (Sha1.schedule p)).getD i 0 = Sha1.schedule p i := by
  rw [List.getD_eq_getElem?_getD, List.getElem?_map, List.getElem?_range h]
  rfl

/-- The array holds the schedule as far as it is written. -/
theorem nextWord_schedule (p : List UInt8) (n : Nat) :
    nextWord ((List.range (n + 16)).map (Sha1.schedule p)) (n + 16) =
      (List.range (n + 17)).map (Sha1.schedule p) := by
  have hrange : List.range (n + 17) = List.range (n + 16) ++ [n + 16] := List.range_succ
  have hword : Sha1.schedule p (n + 16) = Sha1.rotl 1 (Sha1.schedule p (n + 16 - 3) ^^^
      Sha1.schedule p (n + 16 - 8) ^^^ Sha1.schedule p (n + 16 - 14) ^^^
        Sha1.schedule p (n + 16 - 16)) := by
    rw [Sha1.schedule, if_neg (by omega)]
  rw [nextWord, getD_schedule p (by omega), getD_schedule p (by omega),
    getD_schedule p (by omega), getD_schedule p (by omega), hrange, List.map_append,
    List.map_singleton, hword]
  rfl

theorem blockWords_eq (p : List UInt8) :
    blockWords p = (List.range 80).map (Sha1.schedule p) := by
  have hall : forall n : Nat, ((List.range n).map (fun i => i + 16)).foldl nextWord
      (firstWords p) = (List.range (n + 16)).map (Sha1.schedule p) := by
    intro n
    induction n with
    | zero => exact firstWords_eq p
    | succ n ih =>
        rw [List.range_succ, List.map_append, List.foldl_append, ih]
        exact nextWord_schedule p n
  exact hall 64

theorem sha1Round_eq (p : List UInt8) (s : Hash) {i : Nat} (h : i < 80) :
    sha1Round (blockWords p) s i = Sha1.round (Sha1.schedule p) s i := by
  rw [blockWords_eq]
  unfold sha1Round Sha1.round Sha1.f Sha1.k
  rw [getD_schedule p h]
  dsimp only
  split
  · rw [or_eq_xor_ch]
    rfl
  · split
    · rfl
    · split
      · rw [or_eq_xor_maj]
        rfl
      · rfl

theorem sha1Block_eq (h : Hash) (p : List UInt8) : sha1Block h p = Sha1.compress h p := by
  have hrounds : (List.range 80).foldl (sha1Round (blockWords p)) h =
      (List.range 80).foldl (Sha1.round (Sha1.schedule p)) h := by
    apply List.foldl_ext
    intro s i hi
    exact sha1Round_eq p s (List.mem_range.mp hi)
  unfold sha1Block Sha1.compress
  rw [hrounds]

/-!
# Pieces
-/

/-- The context as the bytes that were taken in. -/
def WsSha1.view (c : WsSha1) : Absorbed where
  hash := c.h
  rest := c.buf

theorem view_fill (c : WsSha1) {bytes : List UInt8} (hne : bytes ≠ [])
    (h : c.buf.length + bytes.length ≤ 64) : (c.fill bytes).view = absorb c.view bytes := by
  have hlen : (c.buf ++ bytes).length = c.buf.length + bytes.length := List.length_append
  unfold WsSha1.fill
  split
  · have hshort := @Sha1.absorb_short c.view bytes (by
      change c.buf.length + bytes.length < 64
      omega)
    rw [hshort]
    rfl
  · have hfull := @Sha1.absorb_full c.view bytes hne (by
      change c.buf.length + bytes.length = 64
      omega)
    rw [hfull, WsSha1.view, sha1Block_eq]
    rfl

/-- However the loop cuts the data, every byte is taken in once. -/
theorem view_feed (c : WsSha1) (p : List UInt8) : (c.feed p).view = absorb c.view p := by
  induction hn : p.length using Nat.strongRecOn generalizing c p with
  | _ n ih =>
      rw [WsSha1.feed]
      have hshort := c.short
      split
      · rename_i hpos
        dsimp only
        have htake : (p.take (min (64 - c.buf.length) p.length)).length =
            min (64 - c.buf.length) p.length := by
          rw [List.length_take]
          omega
        have hne : p.take (min (64 - c.buf.length) p.length) ≠ [] := by
          intro hnil
          rw [hnil, List.length_nil] at htake
          omega
        have hdrop : (p.drop (min (64 - c.buf.length) p.length)).length =
            n - min (64 - c.buf.length) p.length := by
          rw [List.length_drop, hn]
        rw [ih _ (by omega) _ _ hdrop, view_fill c hne (by omega), <- Sha1.absorb_append,
          List.take_append_drop]
      · rename_i hzero
        have hnil : p = [] := List.eq_nil_of_length_eq_zero (by omega)
        rw [hnil]
        rfl

theorem view_update (c : WsSha1) (data : List UInt8) :
    (sha1Update c data).view = absorb c.view data :=
  view_feed _ data

theorem fill_len (c : WsSha1) (bytes : List UInt8) : (c.fill bytes).len = c.len := by
  unfold WsSha1.fill
  split <;> rfl

theorem feed_len (c : WsSha1) (p : List UInt8) : (c.feed p).len = c.len := by
  induction hn : p.length using Nat.strongRecOn generalizing c p with
  | _ n ih =>
      rw [WsSha1.feed]
      have hshort := c.short
      split
      · rename_i hpos
        dsimp only
        rw [ih _ (by omega) _ _ List.length_drop, fill_len]
      · rfl

theorem update_len (c : WsSha1) (data : List UInt8) :
    (sha1Update c data).len = c.len + UInt64.ofNat data.length :=
  feed_len _ data

/-- The loop takes in zero bytes until there is room for the length. -/
theorem view_padTo56 (c : WsSha1) :
    c.padTo56.view =
        absorb c.view (List.replicate ((120 - c.buf.length) % 64) 0) ∧
      c.padTo56.buf.length = 56 := by
  induction hn : (120 - c.buf.length) % 64 using Nat.strongRecOn generalizing c with
  | _ n ih =>
      rw [WsSha1.padTo56]
      have hshort := c.short
      split
      · rename_i hgo
        have hnext : (sha1Update c [0]).buf.length =
            if c.buf.length = 63 then 0 else c.buf.length + 1 := by
          rw [sha1Update, feed_one]
          exact length_fill_one _ 0
        have hless : (120 - (sha1Update c [0]).buf.length) % 64 = n - 1 := by
          rw [hnext]
          split <;> omega
        have hpos : 0 < n := by omega
        rcases ih (n - 1) (by omega) (sha1Update c [0]) hless with ⟨hview, hlen⟩
        refine ⟨?_, hlen⟩
        have hzeros : List.replicate n (0 : UInt8) = [0] ++ List.replicate (n - 1) 0 := by
          rw [List.singleton_append, <- List.replicate_succ, Nat.sub_add_cancel hpos]
        rw [hview, view_update, hzeros, Sha1.absorb_append]
      · rename_i hstop
        have hzero : n = 0 := by omega
        rw [hzero]
        exact ⟨rfl, not_not.mp hstop⟩

/-- What was taken in with the number of its bytes. -/
structure Fed (c : WsSha1) (msg : List UInt8) : Prop where
  view : c.view = absorb { hash := Sha1.start, rest := [] } msg
  len : c.len = UInt64.ofNat msg.length

theorem fed_init : Fed sha1Init [] :=
  ⟨rfl, rfl⟩

theorem Fed.update {c : WsSha1} {msg : List UInt8} (h : Fed c msg) (data : List UInt8) :
    Fed (sha1Update c data) (msg ++ data) where
  view := by rw [view_update, h.view, Sha1.absorb_append]
  len := by
    rw [update_len, h.len, List.length_append, UInt64.ofNat_add]

theorem Fed.updates {c : WsSha1} {msg : List UInt8} (h : Fed c msg) (parts : List (List UInt8)) :
    Fed (parts.foldl sha1Update c) (msg ++ parts.flatten) := by
  induction parts generalizing c msg with
  | nil =>
      rw [List.flatten_nil, List.append_nil]
      exact h
  | cons data rest ih =>
      rw [List.foldl_cons, List.flatten_cons, <- List.append_assoc]
      exact ih (h.update data)

/-- The length in bits is written from its most significant byte on. -/
theorem lengthBytes_eq {len : UInt64} {n : Nat} (h : len = UInt64.ofNat n) (hlt : n < 2 ^ 61) :
    (List.range 8).map (fun i => ((len * 8) >>> UInt64.ofNat (56 - i * 8)).toUInt8) =
      Sha1.lengthBytes (8 * n) := by
  have hbits : (len * 8).toNat = 8 * n := by
    rw [UInt64.toNat_mul, h, UInt64.toNat_ofNat']
    change n % 2 ^ 64 * 8 % 2 ^ 64 = 8 * n
    omega
  apply List.map_congr_left
  intro i hi
  have hshift : (UInt64.ofNat (56 - i * 8)).toNat = 56 - i * 8 := by
    rw [UInt64.toNat_ofNat']
    omega
  rw [UInt64.toUInt8, UInt64.toNat_shiftRight, hbits, hshift, Nat.mod_eq_of_lt (by omega),
    Nat.mul_comm i 8]

theorem Fed.final {c : WsSha1} {msg : List UInt8} (h : Fed c msg) (hlt : msg.length < 2 ^ 61) :
    sha1Final c = Sha1.digest msg := by
  have hone := h.update [0x80]
  have hrest := @Sha1.length_absorb { hash := Sha1.start, rest := [] } (by decide)
    (msg ++ [0x80])
  rw [<- hone.view, List.length_nil, Nat.zero_add, List.length_append] at hrest
  change (sha1Update c [0x80]).buf.length = (msg.length + 1) % 64 at hrest
  rcases view_padTo56 (sha1Update c [0x80]) with ⟨hview, hlen⟩
  have hzeros : (120 - (sha1Update c [0x80]).buf.length) % 64 = Sha1.zeroCount msg.length := by
    rw [hrest, Sha1.zeroCount]
    omega
  rw [hzeros, hone.view, <- Sha1.absorb_append] at hview
  have hbytes := lengthBytes_eq h.len hlt
  have hfull := @Sha1.absorb_full (sha1Update c [0x80]).padTo56.view
    (Sha1.lengthBytes (8 * msg.length)) (List.cons_ne_nil _ _) (by
      change (sha1Update c [0x80]).padTo56.buf.length + 8 = 64
      rw [hlen])
  have hpadded : msg ++ [0x80] ++ List.replicate (Sha1.zeroCount msg.length) 0 ++
      Sha1.lengthBytes (8 * msg.length) = Sha1.padded msg := by
    rw [Sha1.padded]
    simp
  have hall : absorb (sha1Update c [0x80]).padTo56.view (Sha1.lengthBytes (8 * msg.length)) =
      absorb { hash := Sha1.start, rest := [] } (Sha1.padded msg) := by
    rw [hview, <- Sha1.absorb_append, hpadded]
  rw [hfull, Sha1.absorb_padded] at hall
  have hhash : Sha1.compress (sha1Update c [0x80]).padTo56.h
      ((sha1Update c [0x80]).padTo56.buf ++ Sha1.lengthBytes (8 * msg.length)) =
        Sha1.hashBlocks Sha1.start ((Sha1.padded msg).length / 64) (Sha1.padded msg) :=
    congrArg Absorbed.hash hall
  unfold sha1Final
  dsimp only
  rw [hbytes, sha1Block_eq, hhash]
  rfl

/-!
# Base 64
-/

def b64Tab : Text :=
  ascii "ABCDEFGHIJKLMNOPQRSTUVWXYZabcdefghijklmnopqrstuvwxyz0123456789+/"

/-- {lit}`tab[(v >> shift) & 63]` -/
def tabAt (v shift : UInt32) : UInt8 :=
  b64Tab.getD ((v >>> shift) &&& 63).toNat 0

/-- The loop over the groups of three bytes. -/
def b64Groups : List UInt8 -> Text
  | [] => []
  | a :: rest =>
      let v := (a.toUInt32 <<< 16) |||
        (if 1 < (a :: rest).length then (rest.getD 0 0).toUInt32 <<< 8 else 0) |||
        (if 2 < (a :: rest).length then (rest.getD 1 0).toUInt32 else 0)
      tabAt v 18 :: tabAt v 12 ::
        (if 1 < (a :: rest).length then tabAt v 6 else 61) ::
        (if 2 < (a :: rest).length then tabAt v 0 else 61) :: b64Groups (rest.drop 2)
termination_by bytes => bytes.length

/-- {lit}`b64_encode` -/
def b64Encode (bytes : List UInt8) (max : Nat) : Int × Option Text :=
  if max < (bytes.length + 2) / 3 * 4 + 1 then (-1, none) else (0, some (b64Groups bytes))

theorem b64Tab_letter {n : Nat} (h : n < 64) : b64Tab.getD n 0 = Base64.letter n := by
  have hall : (List.range 64).all (fun m => b64Tab.getD m 0 == Base64.letter m) = true := rfl
  exact beq_iff_eq.mp (List.all_eq_true.mp hall n (List.mem_range.mpr h))

/-- Six bits of a number. -/
theorem tabAt_eq (v : UInt32) {s : Nat} (h : s < 32) :
    tabAt v (UInt32.ofNat s) = Base64.letter (v.toNat / 2 ^ s % 2 ^ 6) := by
  have hs : (UInt32.ofNat s).toNat = s := by
    rw [UInt32.toNat_ofNat']
    omega
  have hbits : ((v >>> UInt32.ofNat s) &&& 63).toNat = v.toNat / 2 ^ s % 2 ^ 6 := by
    rw [UInt32.toNat_and, UInt32.toNat_shiftRight, hs, Nat.mod_eq_of_lt h,
      Nat.shiftRight_eq_div_pow]
    exact Nat.and_two_pow_sub_one_eq_mod _ 6
  have hlt : v.toNat / 2 ^ s % 2 ^ 6 < 64 := Nat.mod_lt _ (by decide)
  rw [tabAt, hbits, b64Tab_letter hlt]

theorem toNat_shifted (a : UInt8) {s : Nat} (h : s ≤ 16) :
    (a.toUInt32 <<< UInt32.ofNat s).toNat = a.toNat * 2 ^ s := by
  have hs : (UInt32.ofNat s).toNat = s := by
    rw [UInt32.toNat_ofNat']
    omega
  have hlt : a.toNat * 2 ^ s < 2 ^ 32 := by
    have hpow : 2 ^ s ≤ 2 ^ 16 := Nat.pow_le_pow_right (by decide) h
    calc a.toNat * 2 ^ s ≤ 255 * 2 ^ 16 :=
          Nat.mul_le_mul (Nat.le_of_lt_succ a.toNat_lt) hpow
      _ < 2 ^ 32 := by decide
  rw [UInt32.toNat_shiftLeft, hs, UInt8.toNat_toUInt32,
    Nat.mod_eq_of_lt (Nat.lt_of_le_of_lt h (by decide)), Nat.shiftLeft_eq, Nat.mod_eq_of_lt hlt]

/-- The three bytes of a group as one number. -/
theorem toNat_group (a b c : UInt8) :
    ((a.toUInt32 <<< 16) ||| (b.toUInt32 <<< 8) ||| c.toUInt32).toNat =
      (a.toNat * 2 ^ 8 + b.toNat) * 2 ^ 8 + c.toNat := by
  have ha : (a.toUInt32 <<< 16).toNat = a.toNat * 2 ^ 16 := toNat_shifted a (by decide)
  have hb : (b.toUInt32 <<< 8).toNat = b.toNat * 2 ^ 8 := toNat_shifted b (by decide)
  have hblt : b.toNat * 2 ^ 8 < 2 ^ 16 := by
    have hlt := b.toNat_lt
    omega
  have hhigh : a.toNat * 2 ^ 16 ||| b.toNat * 2 ^ 8 = a.toNat * 2 ^ 16 + b.toNat * 2 ^ 8 := by
    rw [Nat.mul_comm a.toNat]
    exact (Nat.two_pow_add_eq_or_of_lt hblt a.toNat).symm
  have hlow : (a.toNat * 2 ^ 8 + b.toNat) * 2 ^ 8 ||| c.toNat =
      (a.toNat * 2 ^ 8 + b.toNat) * 2 ^ 8 + c.toNat := by
    rw [Nat.mul_comm _ (2 ^ 8)]
    exact (Nat.two_pow_add_eq_or_of_lt c.toNat_lt _).symm
  have hsum : a.toNat * 2 ^ 16 + b.toNat * 2 ^ 8 = (a.toNat * 2 ^ 8 + b.toNat) * 2 ^ 8 := by
    omega
  rw [UInt32.toNat_or, UInt32.toNat_or, ha, hb, UInt8.toNat_toUInt32, hhigh, hsum, hlow]

theorem toNat_group_two (a b : UInt8) :
    ((a.toUInt32 <<< 16) ||| (b.toUInt32 <<< 8) ||| 0).toNat =
      (a.toNat * 2 ^ 8 + b.toNat) * 2 ^ 8 := by
  have hgroup := toNat_group a b 0
  rw [UInt8.toNat_zero, Nat.add_zero] at hgroup
  exact hgroup

theorem toNat_group_one (a : UInt8) :
    ((a.toUInt32 <<< 16) ||| 0 ||| 0).toNat = a.toNat * 2 ^ 8 * 2 ^ 8 := by
  have hgroup := toNat_group_two a 0
  rw [UInt8.toNat_zero, Nat.add_zero] at hgroup
  exact hgroup

/-- The four letters of a group whose number is known. -/
theorem tabAt_letters {v : UInt32} {n : Nat} (h : v.toNat = n) :
    tabAt v 18 = Base64.letter (n / 2 ^ 18 % 2 ^ 6) ∧
      tabAt v 12 = Base64.letter (n / 2 ^ 12 % 2 ^ 6) ∧
      tabAt v 6 = Base64.letter (n / 2 ^ 6 % 2 ^ 6) ∧ tabAt v 0 = Base64.letter (n % 2 ^ 6) := by
  subst h
  have hlast := tabAt_eq v (s := 0) (by decide)
  rw [Nat.pow_zero, Nat.div_one] at hlast
  exact ⟨tabAt_eq v (s := 18) (by decide), tabAt_eq v (s := 12) (by decide),
    tabAt_eq v (s := 6) (by decide), hlast⟩

theorem b64Groups_one (a : UInt8) :
    b64Groups [a] =
      [tabAt ((a.toUInt32 <<< 16) ||| 0 ||| 0) 18, tabAt ((a.toUInt32 <<< 16) ||| 0 ||| 0) 12,
        61, 61] := by
  rw [b64Groups]
  change _ :: _ :: _ :: _ :: b64Groups [] = _
  rw [b64Groups]
  rfl

theorem b64Groups_two (a b : UInt8) :
    b64Groups [a, b] =
      [tabAt ((a.toUInt32 <<< 16) ||| (b.toUInt32 <<< 8) ||| 0) 18,
        tabAt ((a.toUInt32 <<< 16) ||| (b.toUInt32 <<< 8) ||| 0) 12,
        tabAt ((a.toUInt32 <<< 16) ||| (b.toUInt32 <<< 8) ||| 0) 6, 61] := by
  rw [b64Groups]
  change _ :: _ :: _ :: _ :: b64Groups [] = _
  rw [b64Groups]
  rfl

theorem b64Groups_three (a b c : UInt8) (rest : List UInt8) :
    b64Groups (a :: b :: c :: rest) =
      tabAt ((a.toUInt32 <<< 16) ||| (b.toUInt32 <<< 8) ||| c.toUInt32) 18 ::
        tabAt ((a.toUInt32 <<< 16) ||| (b.toUInt32 <<< 8) ||| c.toUInt32) 12 ::
        tabAt ((a.toUInt32 <<< 16) ||| (b.toUInt32 <<< 8) ||| c.toUInt32) 6 ::
        tabAt ((a.toUInt32 <<< 16) ||| (b.toUInt32 <<< 8) ||| c.toUInt32) 0 ::
        b64Groups rest := by
  have htwo : 1 < (a :: b :: c :: rest).length := Nat.succ_lt_succ (Nat.zero_lt_succ _)
  have hthree : 2 < (a :: b :: c :: rest).length :=
    Nat.succ_lt_succ (Nat.succ_lt_succ (Nat.zero_lt_succ _))
  rw [b64Groups]
  rw [if_pos htwo, if_pos hthree, if_pos htwo, if_pos hthree]
  rfl

theorem b64Groups_encode (bytes : List UInt8) : b64Groups bytes = Base64.encode bytes := by
  induction bytes using Base64.encode.induct with
  | case1 => rw [b64Groups, Base64.encode]
  | case2 a =>
      have hlt := a.toNat_lt
      rcases tabAt_letters (toNat_group_one a) with ⟨h18, h12, -, -⟩
      have hfirst : a.toNat * 2 ^ 8 * 2 ^ 8 / 2 ^ 18 % 2 ^ 6 = a.toNat * 2 ^ 4 / 2 ^ 6 := by
        omega
      have hsecond : a.toNat * 2 ^ 8 * 2 ^ 8 / 2 ^ 12 % 2 ^ 6 = a.toNat * 2 ^ 4 % 2 ^ 6 := by
        omega
      rw [b64Groups_one, h18, h12, hfirst, hsecond, Base64.encode]
  | case3 a b =>
      have ha := a.toNat_lt
      have hb := b.toNat_lt
      rcases tabAt_letters (toNat_group_two a b) with ⟨h18, h12, h6, -⟩
      rw [b64Groups_two, h18, h12, h6, Base64.encode]
      generalize hn : a.toNat * 2 ^ 8 + b.toNat = n
      have hlt : n < 2 ^ 16 := by
        omega
      have hfirst : n * 2 ^ 8 / 2 ^ 18 % 2 ^ 6 = n * 2 ^ 2 / 2 ^ 12 := by
        omega
      have hsecond : n * 2 ^ 8 / 2 ^ 12 % 2 ^ 6 = n * 2 ^ 2 / 2 ^ 6 % 2 ^ 6 := by
        omega
      have hthird : n * 2 ^ 8 / 2 ^ 6 % 2 ^ 6 = n * 2 ^ 2 % 2 ^ 6 := by
        omega
      rw [hfirst, hsecond, hthird]
  | case4 a b c rest ih =>
      have ha := a.toNat_lt
      have hb := b.toNat_lt
      have hc := c.toNat_lt
      rcases tabAt_letters (toNat_group a b c) with ⟨h18, h12, h6, h0⟩
      have hfirst : ((a.toNat * 2 ^ 8 + b.toNat) * 2 ^ 8 + c.toNat) / 2 ^ 18 % 2 ^ 6 =
          ((a.toNat * 2 ^ 8 + b.toNat) * 2 ^ 8 + c.toNat) / 2 ^ 18 := by
        omega
      rw [b64Groups_three, h18, h12, h6, h0, ih, hfirst, Base64.encode]

/-!
# The key
-/

def wsGuid : Text :=
  ascii "258EAFA5-E914-47DA-95CA-C5AB0DC85B11"

def isBlankByte (b : UInt8) : Bool :=
  b == 32 || b == 9

def isEndByte (b : UInt8) : Bool :=
  b == 32 || b == 9 || b == 13 || b == 10

/-- {lit}`ws_direct_handshake_accept_key` -/
def wsDirectHandshakeAcceptKey (clientKey : Text) (max : Nat) : Int × Option Text :=
  if clientKey = [] ∨ max < 32 then (-1, none)
  else
    let copied := (clientKey.dropWhile isBlankByte).take 255
    let key := (copied.reverse.dropWhile isEndByte).reverse
    if key = [] then (-1, none)
    else b64Encode (sha1Final (sha1Update sha1Init ((key ++ wsGuid).take 319))) max

/-- The text between the white space around it. -/
structure TrimmedKey (key trimmed : Text) : Prop where
  parts : exists front behind, key = front ++ (trimmed ++ behind) ∧
    front.all isBlankByte = true ∧ behind.all isEndByte = true
  first : forall b, trimmed.head? = some b -> isBlankByte b = false
  last : forall b, trimmed.getLast? = some b -> isEndByte b = false

theorem sha1_pieces (parts : List (List UInt8)) (h : parts.flatten.length < 2 ^ 61) :
    sha1Final (parts.foldl sha1Update sha1Init) = Sha1.digest parts.flatten := by
  have hfed := fed_init.updates parts
  rw [List.nil_append] at hfed
  exact hfed.final h

theorem dropWhile_front {p : UInt8 -> Bool} {front text : Text} (hfront : front.all p = true)
    (hfirst : forall b, text.head? = some b -> p b = false) :
    (front ++ text).dropWhile p = text := by
  rw [List.dropWhile_append_of_pos (fun b hb => List.all_eq_true.mp hfront b hb)]
  cases text with
  | nil => rfl
  | cons b rest =>
      apply List.dropWhile_cons_of_neg
      rw [hfirst b rfl]
      exact Bool.false_ne_true

theorem accept_key_trimmed {key trimmed : Text} (h : TrimmedKey key trimmed)
    (hne : trimmed ≠ []) (hlen : key.length ≤ 255) {max : Nat} (hmax : 32 ≤ max) :
    wsDirectHandshakeAcceptKey key max =
      (0, some (Base64.encode (Sha1.digest (trimmed ++ wsGuid)))) := by
  rcases h.parts with ⟨front, behind, hkey, hfront, hbehind⟩
  have hlens : key.length = front.length + (trimmed.length + behind.length) := by
    rw [hkey, List.length_append, List.length_append]
  have hhead : forall b, (trimmed ++ behind).head? = some b -> isBlankByte b = false := by
    intro b hb
    rw [List.head?_append_of_ne_nil _ hne] at hb
    exact h.first b hb
  have hfrontless : key.dropWhile isBlankByte = trimmed ++ behind := by
    rw [hkey]
    exact dropWhile_front hfront hhead
  have hcopied : (key.dropWhile isBlankByte).take 255 = trimmed ++ behind := by
    rw [hfrontless]
    apply List.take_of_length_le
    rw [List.length_append]
    omega
  have hbehindless : ((trimmed ++ behind).reverse.dropWhile isEndByte).reverse = trimmed := by
    rw [List.reverse_append, dropWhile_front, List.reverse_reverse]
    · rw [List.all_reverse]
      exact hbehind
    · intro b hb
      rw [List.head?_reverse] at hb
      exact h.last b hb
  have hcombo : (trimmed ++ wsGuid).take 319 = trimmed ++ wsGuid := by
    apply List.take_of_length_le
    rw [List.length_append]
    change trimmed.length + 36 ≤ 319
    omega
  have hkeyne : key ≠ [] := by
    intro hnil
    rw [hnil, List.length_nil] at hlens
    exact hne (List.eq_nil_of_length_eq_zero (by omega))
  have hdigest : sha1Final (sha1Update sha1Init (trimmed ++ wsGuid)) =
      Sha1.digest (trimmed ++ wsGuid) :=
    (fed_init.update (trimmed ++ wsGuid)).final (by
      rw [List.nil_append, List.length_append]
      change trimmed.length + 36 < 2 ^ 61
      omega)
  unfold wsDirectHandshakeAcceptKey
  rw [if_neg (not_or.mpr ⟨hkeyne, Nat.not_lt.mpr hmax⟩)]
  dsimp only
  rw [hcopied, hbehindless, if_neg hne, hcombo, hdigest]
  unfold b64Encode
  rw [if_neg, b64Groups_encode]
  have hsize : (Sha1.digest (trimmed ++ wsGuid)).length = 20 := rfl
  rw [hsize]
  omega

/-- The hash does not depend on how the text is cut into pieces, and the answer to a key is the
encoded hash of the key and the GUID behind it. -/
theorem handshake_digest (parts : List (List UInt8)) (key trimmed : Text) (max : Nat) :
    (parts.flatten.length < 2 ^ 61 ->
      sha1Final (parts.foldl sha1Update sha1Init) = Sha1.digest parts.flatten) ∧
    (TrimmedKey key trimmed -> trimmed ≠ [] -> key.length ≤ 255 -> 32 ≤ max ->
      wsDirectHandshakeAcceptKey key max =
        (0, some (Base64.encode (Sha1.digest (trimmed ++ wsGuid))))) := by
  constructor
  · intro h
    exact sha1_pieces parts h
  · intro h hne hlen hmax
    exact accept_key_trimmed h hne hlen hmax

/-- A message in two pieces, and a key with a blank before it and a line end behind it. -/
theorem handshake_digest_sample :
    sha1Final ([[97], [98, 99]].foldl sha1Update sha1Init) = Sha1.digest [97, 98, 99] ∧
      wsDirectHandshakeAcceptKey (ascii " dGhlIHNhbXBsZSBub25jZQ==\r\n") 64 =
        (0, some (Base64.encode (Sha1.digest (ascii "dGhlIHNhbXBsZSBub25jZQ==" ++ wsGuid)))) := by
  have hboth := handshake_digest [[97], [98, 99]] (ascii " dGhlIHNhbXBsZSBub25jZQ==\r\n")
    (ascii "dGhlIHNhbXBsZSBub25jZQ==") 64
  constructor
  · exact hboth.1 (by decide)
  · apply hboth.2
    · exact
        { parts := ⟨[32], [13, 10], rfl, rfl, rfl⟩
          first := by
            intro b hb
            cases hb
            rfl
          last := by
            intro b hb
            cases hb
            rfl }
    · exact List.cons_ne_nil _ _
    · exact Nat.le_of_ble_eq_true rfl
    · decide

end WebSocket
end PkgManager
