import PkgManager.Collections.Calendar
import PkgManager.Smb.Urls

/-!
# Dates in answers

The date of a file is read field by field from a header.  The fields are not compared with the
calendar, and some of the sums are in {lit}`int`.
-/

namespace PkgManager
namespace Http

open CString
open Calendar (Date Moment firstOfMonth monthLength epoch)
open PkgManager.Parser
open PkgManager.Smb (digitsValue)

/-!
# Scanning
-/

/-- A {lit}`%d` of {lit}`sscanf`: the number that is written, and the text behind it. -/
def scanNumber (text : Text) : Option (Int × Text) :=
  let body := text.dropWhile isSpace
  let negative := body.head? == some 45
  let unsigned := if negative || body.head? == some 43 then body.drop 1 else body
  let digits := unsigned.takeWhile isDigit
  let value : Int := digitsValue digits
  if digits.isEmpty then none
  else some (if negative then -value else value, unsigned.drop digits.length)

/-- A {lit}`%s` with a width. -/
def scanWord (width : Nat) (text : Text) : Option (Text × Text) :=
  let body := text.dropWhile isSpace
  let letters := (body.take width).takeWhile (fun b => !isSpace b)
  if letters.isEmpty then none else some (letters, body.drop letters.length)

/-- A {lit}`:%d` -/
def scanColonNumber (text : Text) : Option (Int × Text) :=
  if text.head? = some 58 then scanNumber (text.drop 1) else none

/-- The fields of a date as they are written. -/
structure DateFields where
  day : Int
  mon : Text
  year : Int
  hour : Int
  minute : Int
  second : Int
deriving DecidableEq

/-- {lit}`sscanf(s, " %d %3s %d %d:%d:%d", ..) == 6` -/
def scanDate (text : Text) : Option DateFields := do
  let (day, text) ← scanNumber text
  let (mon, text) ← scanWord 3 text
  let (year, text) ← scanNumber text
  let (hour, text) ← scanNumber text
  let (minute, text) ← scanColonNumber text
  let (second, _) ← scanColonNumber text
  return { day, mon, year, hour, minute, second }

/-- The fields behind the comma. -/
def fieldsOf (s : Text) : Option DateFields :=
  match strchr 44 s with
  | some comma => scanDate (comma.drop 1)
  | none => scanDate s

/-!
# The date
-/

def int32 (x : Int) : Int :=
  Int.bmod x (2 ^ 32)

/-- What a {lit}`%d` stores. -/
def stored (x : Int) : Int :=
  int32 (if x < 0 then max x (-2 ^ 63) else min x (2 ^ 63 - 1))

def months : List Text :=
  [ascii "Jan", ascii "Feb", ascii "Mar", ascii "Apr", ascii "May", ascii "Jun", ascii "Jul",
    ascii "Aug", ascii "Sep", ascii "Oct", ascii "Nov", ascii "Dec"]

def lowered (text : Text) : Text :=
  text.map (fun b => if 65 ≤ b.toNat ∧ b.toNat ≤ 90 then b + 32 else b)

/-- The month whose name {lit}`strcasecmp` finds equal. -/
def monthNumber (mon : Text) : Option Nat :=
  (months.findIdx? (fun name => lowered mon == lowered name)).map (fun i => i + 1)

/-- {lit}`days_from_civil` -/
def daysFromCivil (y m d : Int) : Int :=
  let y := y - (if m ≤ 2 then 1 else 0)
  let era := (if 0 ≤ y then y else y - 399).tdiv 400
  let yoe := y - era * 400
  let doy := int32 ((153 * (m + (if 2 < m then -3 else 9)) + 2).tdiv 5 + d - 1)
  let doe := int32 (yoe * 365 + yoe.tdiv 4 - yoe.tdiv 100 + doy)
  era * 146097 + doe - 719468

/-- The sum of the fields as they are stored. -/
def secondsOf (f : DateFields) (m : Nat) : Int :=
  daysFromCivil (stored f.year) m (stored f.day) * 86400 + int32 (stored f.hour * 3600) +
    int32 (stored f.minute * 60) + stored f.second

/-- {lit}`parse_http_date` -/
def parseHttpDate (s : Text) : Nat :=
  match fieldsOf s with
  | none => 0
  | some f =>
      match monthNumber f.mon with
      | none => 0
      | some m =>
          if stored f.year < 1970 then 0
          else if 0 < secondsOf f m ∧ secondsOf f m < 0xFFFFFFFF then (secondsOf f m).toNat
          else 0

/-!
# What dates mean
-/

/-- The fields are a date of the calendar with a time of day, which may be a leap second. -/
structure DenotesInstant (f : DateFields) (x : Date) (t : Int) : Prop where
  day : f.day = x.day
  mon : monthNumber f.mon = some x.month
  year : f.year = x.year
  hour : 0 ≤ f.hour ∧ f.hour < 24
  minute : 0 ≤ f.minute ∧ f.minute < 60
  second : 0 ≤ f.second ∧ f.second ≤ 60
  instant : t = 86400 * ((x.number : Int) - epoch) + 3600 * f.hour + 60 * f.minute + f.second

def DateExact (s : Text) : Prop :=
  parseHttpDate s = 0 ∨ exists f x, fieldsOf s = some f ∧ DenotesInstant f x (parseHttpDate s)

/-- The fields with their month are in the calendar. -/
structure InCalendar (f : DateFields) (m : Nat) : Prop where
  day : 1 ≤ f.day ∧ f.day ≤ monthLength f.year.toNat m
  year : 0 ≤ f.year ∧ f.year < 2 ^ 31
  hour : 0 ≤ f.hour ∧ f.hour < 24
  minute : 0 ≤ f.minute ∧ f.minute < 60
  second : 0 ≤ f.second ∧ f.second ≤ 60

/-- The day that is reached from the first of a month, with days counted from the beginning of
an era of 400 years in 32 bits. -/
def movedDay (first : Nat) (day : Int) : Int :=
  146097 * (((first - 60) / 146097 : Nat) : Int) +
    int32 (((first - 60) % 146097 : Nat) + (day - 1)) + 60 - epoch

/-- Midnight of the first of the month moved by the other fields in 32 bits. -/
def movedInstant (f : DateFields) (m : Nat) : Int :=
  86400 * movedDay (firstOfMonth (stored f.year).toNat m) (stored f.day) +
    int32 (3600 * stored f.hour) + int32 (60 * stored f.minute) + stored f.second

/-- A date in the calendar, or one from which no instant of the range is reached. -/
def DateFine (s : Text) : Prop :=
  forall f m, fieldsOf s = some f -> monthNumber f.mon = some m -> 1970 ≤ stored f.year ->
    InCalendar f m ∨ ¬(0 < movedInstant f m ∧ movedInstant f m < 2 ^ 32 - 1)

/-!
# Days
-/

theorem int32_add_int32 (a b : Int) : int32 (a + int32 b) = int32 (a + b) :=
  Int.add_bmod_bmod

theorem int32_of_range {x : Int} (hlow : -2 ^ 31 ≤ x) (hlt : x < 2 ^ 31) : int32 x = x := by
  unfold int32
  rw [Int.bmod_def]
  omega

theorem stored_of_range {x : Int} (hlow : -2 ^ 31 ≤ x) (hlt : x < 2 ^ 31) : stored x = x := by
  unfold stored
  have hsame : (if x < 0 then max x (-2 ^ 63) else min x (2 ^ 63 - 1)) = x := by
    split <;> omega
  rw [hsame]
  exact int32_of_range hlow hlt

/-- A year from March on with the months behind March. -/
theorem daysFromCivil_march (year months : Nat) (d : Int) :
    146097 * ((year / 400 : Nat) : Int) + int32 (((year % 400 : Nat) : Int) * 365 +
      ((year % 400 : Nat) : Int).tdiv 4 - ((year % 400 : Nat) : Int).tdiv 100 +
        int32 ((153 * (months : Int) + 2).tdiv 5 + d - 1)) =
      146097 * ((year / 400 : Nat) : Int) +
        int32 ((365 * (year % 400) + year % 400 / 4 - year % 400 / 100 +
          (153 * months + 2) / 5 : Nat) + (d - 1)) := by
  have hfour : ((year % 400 : Nat) : Int).tdiv 4 = ((year % 400 / 4 : Nat) : Int) := rfl
  have hhundred : ((year % 400 : Nat) : Int).tdiv 100 = ((year % 400 / 100 : Nat) : Int) := rfl
  have hmonths : (153 * (months : Int) + 2).tdiv 5 = (((153 * months + 2) / 5 : Nat) : Int) := by
    have hnat : 153 * (months : Int) + 2 = ((153 * months + 2 : Nat) : Int) := by omega
    rw [hnat]
    rfl
  rw [hfour, hhundred, hmonths, int32_add_int32]
  congr 2
  omega

theorem daysFromCivil_eq {year m : Nat} (hyear : 1 ≤ year) (hpos : 1 ≤ m) (hle : m ≤ 12) (d : Int) :
    daysFromCivil year m d = movedDay (firstOfMonth year m) d := by
  have hmarch : forall y months : Nat, y % 400 < 400 -> months ≤ 11 ->
      firstOfMonth year m + 306 = Calendar.daysBeforeYear (y + 1) + (153 * months + 2) / 5 ->
        (y : Int).tdiv 400 * 146097 + int32 (((y : Int) - (y : Int).tdiv 400 * 400) * 365 +
          ((y : Int) - (y : Int).tdiv 400 * 400).tdiv 4 -
            ((y : Int) - (y : Int).tdiv 400 * 400).tdiv 100 +
              int32 ((153 * (months : Int) + 2).tdiv 5 + d - 1)) - 719468 =
          movedDay (firstOfMonth year m) d := by
    intro y months hera hmonths hfirst
    have heras := Calendar.daysBeforeYear_eras y
    have hquot : (y : Int).tdiv 400 = ((y / 400 : Nat) : Int) := rfl
    have hrem : (y : Int) - ((y / 400 : Nat) : Int) * 400 = ((y % 400 : Nat) : Int) := by omega
    have hdays : firstOfMonth year m - 60 = 146097 * (y / 400) +
        (365 * (y % 400) + y % 400 / 4 - y % 400 / 100 + (153 * months + 2) / 5) := by omega
    have hlt : 365 * (y % 400) + y % 400 / 4 - y % 400 / 100 + (153 * months + 2) / 5 <
        146097 := by omega
    rw [hquot, hrem, Int.mul_comm, daysFromCivil_march, movedDay, hdays,
      Nat.mul_add_div (by decide), Nat.div_eq_of_lt hlt, Nat.add_zero, Nat.mul_add_mod,
      Nat.mod_eq_of_lt hlt]
    unfold epoch
    omega
  unfold daysFromCivil
  dsimp only
  rcases Nat.lt_or_ge 2 m with hspring | hwinter
  · have hm : (m : Int) + -3 = ((m - 3 : Nat) : Int) := by omega
    rw [if_neg (by omega : ¬(m : Int) ≤ 2), if_pos (by omega : 2 < (m : Int)), Int.sub_zero,
      if_pos (Int.natCast_nonneg year), hm]
    exact hmarch year (m - 3) (Nat.mod_lt _ (by decide)) (by omega)
      (Calendar.firstOfMonth_spring hspring hle)
  · have hm : (m : Int) + 9 = ((m + 9 : Nat) : Int) := rfl
    have hy : (year : Int) - 1 = ((year - 1 : Nat) : Int) := by omega
    rw [if_pos (by omega : (m : Int) ≤ 2), if_neg (by omega : ¬2 < (m : Int)), hy,
      if_pos (Int.natCast_nonneg _), hm]
    apply hmarch (year - 1) (m + 9) (Nat.mod_lt _ (by decide)) (by omega)
    rw [Nat.sub_add_cancel hyear]
    exact Calendar.firstOfMonth_winter hpos hwinter

theorem monthNumber_range {mon : Text} {m : Nat} (h : monthNumber mon = some m) :
    1 ≤ m ∧ m ≤ 12 := by
  rcases Option.map_eq_some_iff.mp h with ⟨i, hi, rfl⟩
  have hlt : i < months.length := (List.findIdx?_eq_some_iff_getElem.mp hi).1
  have hlen : months.length = 12 := rfl
  omega

theorem secondsOf_eq {f : DateFields} {m : Nat} (hm : monthNumber f.mon = some m)
    (hyear : 1970 ≤ stored f.year) : secondsOf f m = movedInstant f m := by
  have hrange := monthNumber_range hm
  have hnat : stored f.year = ((stored f.year).toNat : Int) := by omega
  have hdays := @daysFromCivil_eq (stored f.year).toNat m (by omega) hrange.1 hrange.2
    (stored f.day)
  unfold secondsOf movedInstant
  rw [<- hdays, <- hnat, Int.mul_comm 86400, Int.mul_comm 3600, Int.mul_comm 60]

/-!
# Dates in the calendar
-/

/-- No sum overflows for a date of the calendar. -/
theorem movedDay_date (x : Date) (hyear : 1 ≤ x.year) :
    movedDay (firstOfMonth x.year x.month) x.day = (x.number : Int) - epoch := by
  have hday := Calendar.monthLength_le x.year x.month
  have hpos := x.day_pos
  have hle := x.day_le
  have hyears := Calendar.daysBeforeYear_mono hyear
  have hone : Calendar.daysBeforeYear 1 = 366 := rfl
  have hfirst : 60 ≤ firstOfMonth x.year x.month := by
    unfold firstOfMonth
    omega
  have hnumber : x.number = firstOfMonth x.year x.month + (x.day - 1) := rfl
  unfold movedDay
  rw [int32_of_range (by omega) (by omega), hnumber]
  omega

theorem movedInstant_date {f : DateFields} {x : Date} {m : Nat} (h : InCalendar f m)
    (hyear : 1970 ≤ stored f.year) (hx : x.year = f.year.toNat) (hm : x.month = m)
    (hday : f.day = x.day) : movedInstant f m =
      86400 * ((x.number : Int) - epoch) + 3600 * f.hour + 60 * f.minute + f.second := by
  have hd := h.day
  have hy := h.year
  have hh := h.hour
  have hn := h.minute
  have hs := h.second
  have hmonth := Calendar.monthLength_le f.year.toNat m
  have hsy : stored f.year = f.year := stored_of_range (by omega) (by omega)
  have hsd : stored f.day = f.day := stored_of_range (by omega) (by omega)
  have hsh : stored f.hour = f.hour := stored_of_range (by omega) (by omega)
  have hsn : stored f.minute = f.minute := stored_of_range (by omega) (by omega)
  have hss : stored f.second = f.second := stored_of_range (by omega) (by omega)
  unfold movedInstant
  rw [hsy, hsd, hsh, hsn, hss, int32_of_range (x := 3600 * f.hour) (by omega) (by omega),
    int32_of_range (x := 60 * f.minute) (by omega) (by omega), <- hx, <- hm, hday,
    movedDay_date x (by omega)]

/-- The date of fields in the calendar. -/
def dateOf {f : DateFields} {m : Nat} (h : InCalendar f m) (hm : monthNumber f.mon = some m) :
    Date where
  year := f.year.toNat
  month := m
  day := f.day.toNat
  month_pos := (monthNumber_range hm).1
  month_le := (monthNumber_range hm).2
  day_pos := by
    have hday := h.day
    omega
  day_le := by
    have hday := h.day
    omega

theorem denotes_dateOf {f : DateFields} {m : Nat} (h : InCalendar f m)
    (hm : monthNumber f.mon = some m) (hyear : 1970 ≤ stored f.year) :
    DenotesInstant f (dateOf h hm) (movedInstant f m) where
  day := by
    have hday := h.day
    exact (Int.toNat_of_nonneg (by omega)).symm
  mon := hm
  year := (Int.toNat_of_nonneg h.year.1).symm
  hour := h.hour
  minute := h.minute
  second := h.second
  instant := movedInstant_date h hyear rfl rfl
    (Int.toNat_of_nonneg (by have hday := h.day; omega)).symm

/-- A date whose instant is small is in the calendar of 32-bit years. -/
theorem inCalendar_of_denotes {f : DateFields} {x : Date} {t : Int}
    (h : DenotesInstant f x t) (hlt : t < 2 ^ 32) : InCalendar f x.month where
  day := by
    have hday := x.day_le
    have hpos := x.day_pos
    rw [h.day, h.year, Int.toNat_natCast]
    omega
  year := by
    have hyear := Calendar.le_daysBeforeYear x.year
    have hnumber : x.number = Calendar.daysBeforeYear x.year +
        Calendar.daysBeforeMonth x.year (x.month - 1) + (x.day - 1) := rfl
    have hinstant := h.instant
    have hhour := h.hour
    have hminute := h.minute
    have hsecond := h.second
    have hepoch : epoch = 719528 := rfl
    rw [h.year]
    omega
  hour := h.hour
  minute := h.minute
  second := h.second

theorem parseHttpDate_fields {s : Text} {f : DateFields} {m : Nat} (hf : fieldsOf s = some f)
    (hm : monthNumber f.mon = some m) (hyear : 1970 ≤ stored f.year) :
    parseHttpDate s =
      if 0 < movedInstant f m ∧ movedInstant f m < 2 ^ 32 - 1 then (movedInstant f m).toNat
      else 0 := by
  unfold parseHttpDate
  rw [hf]
  dsimp only
  rw [hm]
  dsimp only
  rw [if_neg (by omega), secondsOf_eq hm hyear]
  rfl

/-- The date is what the fields say where it is in the calendar or out of range. -/
theorem dateExact_iff (s : Text) : DateExact s ↔ DateFine s := by
  constructor
  · intro h f m hf hm hyear
    by_contra hbad
    rw [not_or, not_not] at hbad
    have hparse := parseHttpDate_fields hf hm hyear
    rw [if_pos hbad.2] at hparse
    rcases h with hzero | ⟨f', x, hf', hx⟩
    · have hrange := hbad.2
      omega
    · rw [hf, Option.some.injEq] at hf'
      subst hf'
      have hmonth := hx.mon
      rw [hm, Option.some.injEq] at hmonth
      have hrange := hbad.2
      have hcal := inCalendar_of_denotes hx (by omega)
      rw [<- hmonth] at hcal
      exact hbad.1 hcal
  · intro h
    unfold DateExact
    cases hf : fieldsOf s with
    | none =>
        left
        unfold parseHttpDate
        rw [hf]
    | some f =>
        cases hm : monthNumber f.mon with
        | none =>
            left
            unfold parseHttpDate
            rw [hf]
            dsimp only
            rw [hm]
        | some m =>
            rcases Int.lt_or_le (stored f.year) 1970 with hearly | hyear
            · left
              unfold parseHttpDate
              rw [hf]
              dsimp only
              rw [hm]
              exact if_pos hearly
            · rw [parseHttpDate_fields hf hm hyear]
              rcases h f m hf hm hyear with hcal | hout
              · split
                · rename_i hrange
                  right
                  have hx := denotes_dateOf hcal hm hyear
                  refine ⟨f, dateOf hcal hm, rfl, ?_⟩
                  rwa [Int.toNat_of_nonneg (by omega)]
                · exact Or.inl rfl
              · rw [if_neg hout]
                exact Or.inl rfl

/-!
# The text of an instant
-/

def twoDigits (n : Nat) : Text :=
  [UInt8.ofNat (48 + n / 10), UInt8.ofNat (48 + n % 10)]

def dayNames : List Text :=
  [ascii "Sun", ascii "Mon", ascii "Tue", ascii "Wed", ascii "Thu", ascii "Fri", ascii "Sat"]

/-- The form {lit}`Sun, 06 Nov 1994 08:49:37 GMT`. -/
def imfFixdate (x : Moment) : Text :=
  dayNames.getD x.date.weekday [] ++ (ascii ", " ++ (twoDigits x.date.day ++ (ascii " " ++
    (months.getD (x.date.month - 1) [] ++ (ascii " " ++ (digitsText x.date.year ++ (ascii " " ++
      (twoDigits x.hour ++ (ascii ":" ++ (twoDigits x.minute ++ (ascii ":" ++
        (twoDigits x.second ++ ascii " GMT"))))))))))))

/-- A text that no digit stands in front of. -/
def NoDigit (text : Text) : Prop :=
  forall b, text.head? = some b -> isDigit b = false

theorem scanNumber_digits {spaces digits rest : Text} (hspaces : spaces.all isSpace = true)
    (hne : digits ≠ []) (hdigits : digits.all isDigit = true) (hrest : NoDigit rest) :
    scanNumber (spaces ++ (digits ++ rest)) = some ((digitsValue digits : Int), rest) := by
  cases digits with
  | nil => exact absurd rfl hne
  | cons d ds =>
      have hd : isDigit d = true := List.all_eq_true.mp hdigits d List.mem_cons_self
      have hne : forall c : UInt8, isDigit c = false -> d ≠ c := by
        rintro c hc rfl
        rw [hd] at hc
        cases hc
      have hspace : isSpace d = false := by
        rw [isDigit, decide_eq_true_eq] at hd
        rw [isSpace, Bool.or_eq_false_iff, beq_eq_false_iff_ne, decide_eq_false_iff_not]
        exact ⟨hne 32 rfl, by omega⟩
      have hbody : (spaces ++ (d :: ds ++ rest)).dropWhile isSpace = d :: ds ++ rest := by
        rw [List.dropWhile_append_of_pos (fun b hb => List.all_eq_true.mp hspaces b hb),
          List.cons_append, List.dropWhile_cons_of_neg (by rw [hspace]; exact Bool.false_ne_true)]
      have hminus : ((d :: ds ++ rest).head? == some 45) = false :=
        beq_false_of_ne (fun h => hne 45 rfl (Option.some.inj h))
      have hplus : ((d :: ds ++ rest).head? == some 43) = false :=
        beq_false_of_ne (fun h => hne 43 rfl (Option.some.inj h))
      have htake : (d :: ds ++ rest).takeWhile isDigit = d :: ds := by
        rw [List.takeWhile_append_of_pos (fun b hb => List.all_eq_true.mp hdigits b hb)]
        cases rest with
        | nil => rw [List.takeWhile_nil, List.append_nil]
        | cons b rest =>
            rw [List.takeWhile_cons_of_neg (by
              rw [hrest b rfl]
              exact Bool.false_ne_true), List.append_nil]
      unfold scanNumber
      dsimp only
      rw [hbody, hminus, hplus, Bool.or_false, if_neg Bool.false_ne_true, htake,
        List.drop_left, List.isEmpty_cons, if_neg Bool.false_ne_true, if_neg Bool.false_ne_true]

theorem twoDigits_value {n : Nat} (h : n < 100) :
    (twoDigits n).all isDigit = true ∧ digitsValue (twoDigits n) = n := by
  have hall : forall k : Fin 100,
      (twoDigits k).all isDigit = true ∧ digitsValue (twoDigits k) = k := by decide
  exact hall ⟨n, h⟩

theorem scanNumber_twoDigits (spaces : Text) {rest : Text} {n : Nat}
    (hspaces : spaces.all isSpace = true)
    (h : n < 100) (hrest : NoDigit rest) :
    scanNumber (spaces ++ (twoDigits n ++ rest)) = some ((n : Int), rest) := by
  have hvalue := twoDigits_value h
  have hne : twoDigits n ≠ [] := List.cons_ne_nil _ _
  rw [scanNumber_digits hspaces hne hvalue.1 hrest, hvalue.2]

theorem scanNumber_year (spaces : Text) {rest : Text} (n : Nat) (hspaces : spaces.all isSpace = true)
    (hrest : NoDigit rest) :
    scanNumber (spaces ++ (digitsText n ++ rest)) = some ((n : Int), rest) := by
  have hne : digitsText n ≠ [] := by
    unfold digitsText
    rw [ne_eq, List.map_eq_nil_iff]
    exact Nat.toDigits_ne_nil
  rw [scanNumber_digits hspaces hne
    (List.all_eq_true.mpr (fun b hb => Smb.digitsText_digit hb)) hrest,
    Smb.digitsValue_digitsText]

/-- A month name behind a blank. -/
theorem scanWord_month (month : Nat) (h : month < 12) (rest : Text) :
    scanWord 3 (ascii " " ++ (months.getD month [] ++ rest)) =
        some (months.getD month [], rest) ∧
      monthNumber (months.getD month []) = some (month + 1) := by
  have hmonth : month = 0 ∨ month = 1 ∨ month = 2 ∨ month = 3 ∨ month = 4 ∨ month = 5 ∨
      month = 6 ∨ month = 7 ∨ month = 8 ∨ month = 9 ∨ month = 10 ∨ month = 11 := by omega
  rcases hmonth with rfl | rfl | rfl | rfl | rfl | rfl | rfl | rfl | rfl | rfl | rfl | rfl <;>
    exact ⟨rfl, rfl⟩

/-- The name of a day has no comma. -/
theorem strchr_dayName {day : Nat} (h : day < 7) (rest : Text) :
    strchr 44 (dayNames.getD day [] ++ 44 :: rest) = some (44 :: rest) := by
  have hday : day = 0 ∨ day = 1 ∨ day = 2 ∨ day = 3 ∨ day = 4 ∨ day = 5 ∨ day = 6 := by omega
  rcases hday with rfl | rfl | rfl | rfl | rfl | rfl | rfl <;> rfl

theorem noDigit_cons {b : UInt8} (h : isDigit b = false) (rest : Text) : NoDigit (b :: rest) := by
  intro c hc
  rwa [<- Option.some.inj hc]

theorem scanColonNumber_twoDigits {rest : Text} {n : Nat} (h : n < 100) (hrest : NoDigit rest) :
    scanColonNumber (ascii ":" ++ (twoDigits n ++ rest)) = some ((n : Int), rest) := by
  have hscan := scanNumber_twoDigits [] rfl h hrest
  have hcolon : (ascii ":" ++ (twoDigits n ++ rest)).head? = some 58 := rfl
  rw [scanColonNumber, if_pos hcolon]
  exact hscan

theorem fieldsOf_imfFixdate (x : Moment) : fieldsOf (imfFixdate x) = some
    { day := x.date.day
      mon := months.getD (x.date.month - 1) []
      year := x.date.year
      hour := x.hour
      minute := x.minute
      second := x.second } := by
  have hday := Calendar.monthLength_le x.date.year x.date.month
  have hdayle := x.date.day_le
  have hhour := x.hour_lt
  have hminute := x.minute_lt
  have hsecond := x.second_lt
  have hmonth := x.date.month_le
  have hpos := x.date.month_pos
  have hweekday : x.date.weekday < 7 := Nat.mod_lt _ (by decide)
  have hblank : forall rest : Text, NoDigit (ascii " " ++ rest) :=
    fun rest => noDigit_cons (b := 32) rfl rest
  have hcolon : forall rest : Text, NoDigit (ascii ":" ++ rest) :=
    fun rest => noDigit_cons (b := 58) rfl rest
  have hzone : NoDigit (ascii " GMT") := noDigit_cons (b := 32) rfl _
  have hcomma := strchr_dayName hweekday (ascii " " ++ (twoDigits x.date.day ++ (ascii " " ++
    (months.getD (x.date.month - 1) [] ++ (ascii " " ++ (digitsText x.date.year ++ (ascii " " ++
      (twoDigits x.hour ++ (ascii ":" ++ (twoDigits x.minute ++ (ascii ":" ++
        (twoDigits x.second ++ ascii " GMT"))))))))))))
  unfold fieldsOf
  rw [show strchr 44 (imfFixdate x) = _ from hcomma]
  dsimp only
  rw [List.drop_one, List.tail_cons]
  unfold scanDate
  simp only [Option.bind_eq_bind]
  rw [scanNumber_twoDigits (ascii " ") rfl (by omega) (hblank _), Option.bind_some]
  dsimp only
  rw [(scanWord_month (x.date.month - 1) (by omega) _).1, Option.bind_some]
  dsimp only
  rw [scanNumber_year (ascii " ") _ rfl (hblank _), Option.bind_some]
  dsimp only
  rw [scanNumber_twoDigits (ascii " ") rfl (by omega) (hcolon _), Option.bind_some]
  dsimp only
  rw [scanColonNumber_twoDigits (by omega) (hcolon _), Option.bind_some]
  dsimp only
  rw [scanColonNumber_twoDigits (by omega) hzone]
  rfl

/-- The text of an instant is read as that instant. -/
theorem parseHttpDate_imfFixdate {x : Moment} {t : Nat} (hx : x.instant = t) (hpos : 0 < t)
    (hlt : t < 2 ^ 32 - 1) : parseHttpDate (imfFixdate x) = t := by
  have hfields := fieldsOf_imfFixdate x
  have hmonth : monthNumber (months.getD (x.date.month - 1) []) = some x.date.month := by
    have hpos := x.date.month_pos
    have hle := x.date.month_le
    rw [(scanWord_month (x.date.month - 1) (by omega) []).2,
      Nat.sub_add_cancel hpos]
  have hdenotes : DenotesInstant
      { day := x.date.day
        mon := months.getD (x.date.month - 1) []
        year := x.date.year
        hour := x.hour
        minute := x.minute
        second := x.second } x.date t := by
    have hh : (x.hour : Int) < 24 := Int.ofNat_lt.mpr x.hour_lt
    have hn : (x.minute : Int) < 60 := Int.ofNat_lt.mpr x.minute_lt
    have hs : (x.second : Int) ≤ 60 := Int.ofNat_le.mpr x.second_lt.le
    exact ⟨rfl, hmonth, rfl, ⟨Int.natCast_nonneg _, hh⟩, ⟨Int.natCast_nonneg _, hn⟩,
      ⟨Int.natCast_nonneg _, hs⟩, hx.symm⟩
  have hcal := inCalendar_of_denotes hdenotes (by omega)
  have hyear : 1970 ≤ x.date.year := by
    have hhour := x.hour_lt
    have hminute := x.minute_lt
    have hsecond := x.second_lt
    have hnumber := x.date.number_lt
    unfold Moment.instant at hx
    by_contra hearly
    have hmono := Calendar.daysBeforeYear_mono (a := x.date.year + 1) (b := 1970) (by omega)
    rw [Calendar.epoch_eq] at hmono
    omega
  have hstored : stored (x.date.year : Int) = x.date.year := by
    have hlarge := hcal.year.2
    exact stored_of_range (by omega) hlarge
  have hmoved := movedInstant_date hcal (by rw [hstored]; omega) (Int.toNat_natCast _).symm rfl rfl
  rw [parseHttpDate_fields hfields hmonth (by rw [hstored]; omega), hmoved, <- hdenotes.instant,
    if_pos (by omega)]
  exact Int.toNat_natCast t

/-!
# All texts
-/

/-- Instants are read from their texts, and a text is read as the instant of its fields where
these are in the calendar or lead out of the range. -/
theorem parseHttpDate_exact (t : Nat) (s : Text) :
    (0 < t -> t < 2 ^ 32 - 1 ->
      parseHttpDate (imfFixdate (Calendar.ofInstant t)) = t ∧
        forall x : Moment, x.instant = t -> parseHttpDate (imfFixdate x) = t) ∧
      (DateExact s ↔ DateFine s) :=
  ⟨fun hpos hlt => ⟨parseHttpDate_imfFixdate (Calendar.instant_ofInstant t) hpos hlt,
    fun _ hx => parseHttpDate_imfFixdate hx hpos hlt⟩, dateExact_iff s⟩

/-- The sixth of November 1994. -/
def november : Moment where
  date :=
    { year := 1994
      month := 11
      day := 6
      month_pos := by decide
      month_le := by decide
      day_pos := by decide
      day_le := by decide }
  hour := 8
  minute := 49
  second := 37
  hour_lt := by decide
  minute_lt := by decide
  second_lt := by decide

theorem november_read : parseHttpDate (imfFixdate november) = 784111777 := by
  have hyear := Calendar.daysBeforeYear_eq 1994
  have hmonths : Calendar.daysBeforeMonth 1994 10 = 304 := rfl
  have hnumber : november.date.number = Calendar.daysBeforeYear 1994 +
      Calendar.daysBeforeMonth 1994 10 + 5 := by
    simp only [november, Date.number, firstOfMonth]
  have hinstant : november.instant = (784111777 : Nat) := by
    have hepoch : epoch = 719528 := rfl
    have hsum : november.instant =
        86400 * ((november.date.number : Int) - epoch) + 3600 * 8 + 60 * 49 + 37 := rfl
    rw [hsum]
    omega
  exact ((parseHttpDate_exact 784111777 []).1 (by decide) (by decide)).2 november hinstant

/-- An hour whose seconds wrap around in 32 bits. -/
def wrappedHour : Text :=
  ascii "Thu, 01 Jan 1970 1193047:00:00 GMT"

theorem wrappedHour_not_exact : parseHttpDate wrappedHour = 1904 ∧ ¬DateExact wrappedHour := by
  have hparse : parseHttpDate wrappedHour = 1904 := by decide
  have hfields : fieldsOf wrappedHour =
      some
        { day := 1
          mon := ascii "Jan"
          year := 1970
          hour := 1193047
          minute := 0
          second := 0 } := by decide
  refine ⟨hparse, ?_⟩
  rintro (hzero | ⟨f, x, hf, hx⟩)
  · rw [hparse] at hzero
    cases hzero
  · rw [hfields, Option.some.injEq] at hf
    have hhour := hx.hour.2
    rw [<- hf] at hhour
    exact absurd hhour (by decide)

end Http
end PkgManager
