import ShipFlow.Billing.WebhookService

/-! Reading back the texts that `toISOString` writes. -/

namespace ShipFlow.Notifications
open Billing (padStart civilDate toISOString)

/-! ## Days -/

def isLeapYear (year : Int) : Bool :=
  year % 4 == 0 && year % 100 != 0 || year % 400 == 0

/-- The days of a year before the given month, if it is no leap year. -/
def daysBefore (month : Nat) : Nat :=
  [0, 31, 59, 90, 120, 151, 181, 212, 243, 273, 304, 334].getD (month - 1) 0

/-- The number of a day, counted from 1970. -/
def dayNumber (year : Int) (month day : Nat) : Int :=
  365 * (year - 1970) + (year - 1969) / 4 - (year - 1901) / 100 + (year - 1601) / 400 +
    daysBefore month + (if 2 < month && isLeapYear year then 1 else 0) + day - 1

/-- The year of an era of 400 years that a day belongs to, years beginning in March. -/
theorem yearOfEra_bounds {n g e f year : Nat} (h : n < 146097) (hg : g = n / 1460)
    (he : e = n / 36524) (hf : f = n / 146096) (hyear : year = (n - g + e - f) / 365) :
    year < 400 ∧ 365 * year + year / 4 - year / 100 ≤ n ∧
      n ≤ 365 * year + year / 4 - year / 100 + 365 := by
  have hyear' : 365 * year + g + f ≤ n + e ∧ n + e ≤ 365 * year + g + f + 364 := by omega
  have hg' : 1460 * g ≤ n ∧ n ≤ 1460 * g + 1459 := by omega
  have hfour : year + 1 = 4 * g ∨ year = 4 * g ∨ year = 4 * g + 1 ∨ year = 4 * g + 2 ∨
      year = 4 * g + 3 := by omega
  have hcentury : (f = 0 ∧ e < 4 ∧ 36524 * e ≤ n ∧ n ≤ 36524 * e + 36523) ∨
      (n = 146096 ∧ e = 4 ∧ f = 1) := by omega
  have hhundred : year / 100 = e ∨ (n = 146096 ∧ year / 100 = 3) := by omega
  have hquarter : 4 * (year / 4) ≤ year ∧ year ≤ 4 * (year / 4) + 3 := by omega
  clear hg he hf hyear
  -- with the century known the bounds are linear
  rcases hcentury with ⟨hf, hcentury⟩ | ⟨hn, he, hf⟩
  · replace hhundred : year / 100 = e := by omega
    have hle : e ≤ year / 4 := by omega
    rw [hhundred]
    generalize year / 4 = quarter at *
    omega
  · omega

/-- The number of a day of a year that begins in March. -/
theorem dayNumber_march (era : Int) {year shifted day : Nat} (hyear : year < 400)
    (hshifted : shifted < 12) :
    dayNumber ((year : Int) + era * 400 + if 10 ≤ shifted then 1 else 0)
        (if shifted < 10 then shifted + 3 else shifted - 9) day =
      era * 146097 + 365 * year + year / 4 - year / 100 + ((153 * shifted + 2) / 5 : Nat) + day - 1 -
        719468 := by
  have hleap : isLeapYear ((year : Int) + era * 400) = true ↔
      year % 4 = 0 ∧ (year % 100 ≠ 0 ∨ year = 0) := by
    simp only [isLeapYear, Bool.or_eq_true, Bool.and_eq_true, beq_iff_eq, bne_iff_ne]
    omega
  have hmonths : ∀ m : Fin 12, daysBefore (if m.val < 10 then m.val + 3 else m.val - 9) =
      if m.val < 10 then 59 + (153 * m.val + 2) / 5 else (153 * m.val + 2) / 5 - 306 := by decide
  have hmonth := hmonths ⟨shifted, hshifted⟩
  simp only at hmonth
  rw [dayNumber, hmonth]
  by_cases h : shifted < 10
  · have hlater : (decide (2 < shifted + 3)) = true := by simp
    rw [if_pos h, if_pos h, if_neg (Nat.not_le.mpr h), hlater, Bool.true_and, Int.add_zero]
    split
    · next hyes =>
      have := hleap.mp hyes
      omega
    · next hno =>
      have := mt hleap.mpr hno
      omega
  · have hearly : (decide (2 < shifted - 9)) = false := by
      rw [decide_eq_false_iff_not]
      omega
    have hlate : 306 ≤ (153 * shifted + 2) / 5 := by omega
    rw [if_neg h, if_neg h, if_pos (Nat.not_lt.mp h), hearly, Bool.false_and]
    simp only [Bool.false_eq_true, if_false]
    omega

theorem dayNumber_civilDate (day : Int) :
    dayNumber (civilDate day).1 (civilDate day).2.1 (civilDate day).2.2 = day := by
  have hdoe : ((day + 719468) % 146097).toNat < 146097 := by omega
  have hera : day + 719468 = (day + 719468) / 146097 * 146097 + ((day + 719468) % 146097).toNat := by
    omega
  rw [civilDate]
  simp only
  generalize ((day + 719468) % 146097).toNat = n at hdoe hera
  generalize (day + 719468) / 146097 = era at hera
  obtain ⟨hyear, hlow, hhigh⟩ := yearOfEra_bounds hdoe rfl rfl rfl rfl
  generalize (n - n / 1460 + n / 36524 - n / 146096) / 365 = year at hyear hlow hhigh
  generalize hdays : n - (365 * year + year / 4 - year / 100) = days
  have hshifted : (5 * days + 2) / 153 < 12 := by omega
  generalize hs : (5 * days + 2) / 153 = shifted at hshifted
  have hmarch := @dayNumber_march era year shifted (days - (153 * shifted + 2) / 5 + 1) hyear hshifted
  have hmonth : (if (if shifted < 10 then shifted + 3 else shifted - 9) ≤ 2 then (1 : Int) else 0) =
      if 10 ≤ shifted then 1 else 0 := by
    split <;> split <;> split <;> omega
  rw [hmonth, hmarch]
  omega

/-! ## Texts -/

/-- A number of so many digits and the sign that ends it, and what follows. -/
def field (width : Nat) (stop : Char) (t : List Char) : Option (Nat × List Char) :=
  let digits := t.take width
  if digits.length = width ∧ digits.all Char.isDigit = true ∧ (t.drop width).head? = some stop then
    some (Nat.ofDigitChars 10 digits 0, t.drop (width + 1))
  else none

/-- A year of four digits, or of six with a sign; there is no year `-000000`. -/
def yearField : List Char → Option (Int × List Char)
  | '+' :: t => (field 6 '-' t).map fun read => ((read.1 : Int), read.2)
  | '-' :: t => (field 6 '-' t).bind fun read =>
    if read.1 = 0 then none else some (-(read.1 : Int), read.2)
  | t => (field 4 '-' t).map fun read => ((read.1 : Int), read.2)

/-- The point in time that a date and a time of day in UTC, down to the millisecond, spell. -/
def parseIso (t : List Char) : Option Time := do
  let (year, t) ← yearField t
  let (month, t) ← field 2 '-' t
  let (day, t) ← field 2 'T' t
  let (hour, t) ← field 2 ':' t
  let (minute, t) ← field 2 ':' t
  let (second, t) ← field 2 '.' t
  let (ms, t) ← field 3 'Z' t
  let date := dayNumber year month day
  let time := hour * 3600000 + minute * 60000 + second * 1000 + ms
  if t.isEmpty && civilDate date == (year, month, day) && minute < 60 && second < 60 &&
      (hour < 24 || time == 86400000) then
    some (date * 86400000 + time)
  else none

/-- The points in time that a `Date` can hold. -/
def IsDate (t : Int) : Prop := -8640000000000000 ≤ t ∧ t ≤ 8640000000000000

theorem padStart_spec {width n : Nat} (hwidth : 0 < width) (h : n < 10 ^ width) :
    (padStart width n).toList.length = width ∧
      (∀ c ∈ (padStart width n).toList, c.isDigit = true) ∧
      Nat.ofDigitChars 10 (padStart width n).toList 0 = n := by
  have hlength : (Nat.toDigits 10 n).length ≤ width :=
    (Nat.length_toDigits_le_iff (by decide) hwidth).mpr h
  have htext : (padStart width n).toList =
      List.replicate (width - (Nat.toDigits 10 n).length) '0' ++ Nat.toDigits 10 n := by
    rw [padStart, String.toList_append, String.toList_ofList, ← String.length_toList,
      Nat.toString_eq_repr, Nat.toList_repr]
  rw [htext]
  refine ⟨by simp; omega, fun c hc => ?_, ?_⟩
  · rcases List.mem_append.mp hc with hc | hc
    · rw [List.eq_of_mem_replicate hc]
      rfl
    · exact Nat.isDigit_of_mem_toDigits (by decide) (by decide) hc
  · rw [Nat.ofDigitChars_append, Nat.ofDigitChars_replicate_zero, Nat.mul_zero,
      Nat.ofDigitChars_ten_toDigits]

theorem field_padStart {width n : Nat} (hwidth : 0 < width) (h : n < 10 ^ width) (stop : Char)
    (rest : List Char) :
    field width stop ((padStart width n).toList ++ stop :: rest) = some (n, rest) := by
  obtain ⟨hlength, hdigits, hvalue⟩ := padStart_spec hwidth h
  have htake : ((padStart width n).toList ++ stop :: rest).take width = (padStart width n).toList :=
    List.take_left' hlength
  have hdrop : ((padStart width n).toList ++ stop :: rest).drop width = stop :: rest :=
    List.drop_left' hlength
  have hnext : ((padStart width n).toList ++ stop :: rest).drop (width + 1) = rest := by
    rw [← List.drop_drop, hdrop]
    rfl
  simp only [field, htake, hdrop, hnext, hlength, List.all_eq_true.mpr hdigits, List.head?_cons,
    hvalue, and_self, if_true]

/-- The year of a date, as `toISOString` writes it. -/
def yearText (year : Int) : String :=
  if 0 ≤ year && year ≤ 9999 then padStart 4 year.toNat
  else (if year < 0 then "-" else "+") ++ padStart 6 year.natAbs

theorem yearField_yearText {year : Int} (h : year.natAbs < 1000000) (rest : List Char) :
    yearField ((yearText year).toList ++ '-' :: rest) = some (year, rest) := by
  rw [yearText]
  split
  · next hfour =>
    simp only [Bool.and_eq_true, decide_eq_true_iff] at hfour
    have hlt : year.toNat < 10 ^ 4 := by omega
    have hfield := field_padStart (by decide) hlt '-' rest
    obtain ⟨hlength, hdigits, -⟩ := padStart_spec (by decide) hlt
    obtain ⟨c, cs, hcs⟩ := List.exists_cons_of_length_eq_add_one hlength
    have hc := hdigits c (by rw [hcs]; exact List.mem_cons_self)
    rw [hcs, List.cons_append] at hfield ⊢
    rw [yearField.eq_3, hfield, Option.map_some, Int.toNat_of_nonneg hfour.1]
    · rintro t ⟨⟩
      exact absurd hc (by decide)
    · rintro t ⟨⟩
      exact absurd hc (by decide)
  · next hsix =>
    simp only [Bool.and_eq_true, decide_eq_true_iff, not_and_or, Int.not_le] at hsix
    have hfield := field_padStart (by decide) (show year.natAbs < 10 ^ 6 from h) '-' rest
    rw [String.toList_append, List.append_assoc]
    by_cases hneg : year < 0
    · have hsign : (if year < 0 then "-" else "+").toList = ['-'] := by
        rw [if_pos hneg]
        rfl
      rw [hsign, List.singleton_append, yearField, hfield, Option.bind_some, if_neg (by omega)]
      simp only [Option.some.injEq, Prod.mk.injEq, and_true]
      omega
    · have hsign : (if year < 0 then "-" else "+").toList = ['+'] := by
        rw [if_neg hneg]
        rfl
      rw [hsign, List.singleton_append, yearField, hfield, Option.map_some]
      simp only [Option.some.injEq, Prod.mk.injEq, and_true]
      omega

theorem civilDate_bounds (day : Int) : (civilDate day).2.1 < 13 ∧ (civilDate day).2.2 < 32 ∧
    (-100000000 ≤ day → day ≤ 100000000 → (civilDate day).1.natAbs < 1000000) := by
  have hdoe : ((day + 719468) % 146097).toNat < 146097 := by omega
  rw [civilDate]
  simp only
  generalize ((day + 719468) % 146097).toNat = n at hdoe
  obtain ⟨hyear, hlow, hhigh⟩ := yearOfEra_bounds hdoe rfl rfl rfl rfl
  generalize (n - n / 1460 + n / 36524 - n / 146096) / 365 = year at hyear hlow hhigh
  generalize hdays : n - (365 * year + year / 4 - year / 100) = days
  have hshifted : (5 * days + 2) / 153 < 12 := by omega
  refine ⟨?_, ?_, fun hfrom hto => ?_⟩
  · split <;> omega
  · omega
  · split <;> split <;> omega

/-- A date and a time of day as `toISOString` writes them. -/
structure Fields where
  year : Int
  month : Nat
  day : Nat
  hour : Nat
  minute : Nat
  second : Nat
  ms : Nat

def Fields.text (f : Fields) : List Char :=
  (yearText f.year).toList ++ '-' :: ((padStart 2 f.month).toList ++ '-' ::
    ((padStart 2 f.day).toList ++ 'T' :: ((padStart 2 f.hour).toList ++ ':' ::
    ((padStart 2 f.minute).toList ++ ':' :: ((padStart 2 f.second).toList ++ '.' ::
    ((padStart 3 f.ms).toList ++ ['Z']))))))

structure Fields.Valid (f : Fields) : Prop where
  year : f.year.natAbs < 1000000
  month : f.month < 100
  day : f.day < 100
  hour : f.hour < 24
  minute : f.minute < 60
  second : f.second < 60
  ms : f.ms < 1000
  date : civilDate (dayNumber f.year f.month f.day) = (f.year, f.month, f.day)

theorem parseIso_text {f : Fields} (h : f.Valid) :
    parseIso f.text = some (dayNumber f.year f.month f.day * 86400000 +
      (f.hour * 3600000 + f.minute * 60000 + f.second * 1000 + f.ms : Nat)) := by
  have htwo (n : Nat) (h : n < 100) (stop : Char) (rest : List Char) :=
    field_padStart (show 0 < 2 by decide) h stop rest
  have hthree := field_padStart (show 0 < 3 by decide) h.ms 'Z' []
  rw [parseIso, Fields.text, yearField_yearText h.year]
  simp only [Option.bind_eq_bind, Option.bind_some, htwo f.month h.month, htwo f.day h.day,
    htwo f.hour (Nat.lt_trans h.hour (by decide)), htwo f.minute (Nat.lt_trans h.minute (by decide)),
    htwo f.second (Nat.lt_trans h.second (by decide)), hthree, h.date]
  simp [h.minute, h.second, h.hour]

theorem toISOString_fields {t : Int} (h : IsDate t) : ∃ f : Fields, f.Valid ∧
    (toISOString t).toList = f.text ∧ dayNumber f.year f.month f.day * 86400000 +
      (f.hour * 3600000 + f.minute * 60000 + f.second * 1000 + f.ms : Nat) = t := by
  obtain ⟨hmonth, hday, hyear⟩ := civilDate_bounds (t / 86400000)
  obtain ⟨hfrom, hto⟩ := h
  replace hyear := hyear (by omega) (by omega)
  have hback := dayNumber_civilDate (t / 86400000)
  have hms : (t % 86400000).toNat < 86400000 := by omega
  have hsplit : t / 86400000 * 86400000 + ((t % 86400000).toNat : Int) = t := by omega
  have hminus : "-".toList = ['-'] := rfl
  have hT : "T".toList = ['T'] := rfl
  have hcolon : ":".toList = [':'] := rfl
  have hpoint : ".".toList = ['.'] := rfl
  have hZ : "Z".toList = ['Z'] := rfl
  delta toISOString
  generalize hdate : civilDate (t / 86400000) = date at hmonth hday hyear hback
  obtain ⟨year, month, day⟩ := date
  generalize (t % 86400000).toNat = ms at hms hsplit
  simp only at hmonth hday hyear hback
  refine ⟨⟨year, month, day, ms / 3600000, ms / 60000 % 60, ms / 1000 % 60, ms % 1000⟩,
    ⟨hyear, show month < 100 by omega, show day < 100 by omega, show ms / 3600000 < 24 by omega,
      show ms / 60000 % 60 < 60 by omega, show ms / 1000 % 60 < 60 by omega,
      show ms % 1000 < 1000 by omega, by rw [hback, hdate]⟩, ?_, ?_⟩
  · simp only [String.toList_append, List.append_assoc, hminus, hT, hcolon, hpoint, hZ,
      List.cons_append, List.nil_append]
    rfl
  · have htime : ms / 3600000 * 3600000 + ms / 60000 % 60 * 60000 + ms / 1000 % 60 * 1000 +
        ms % 1000 = ms := by omega
    rw [hback, htime, hsplit]

theorem parseIso_toISOString {t : Int} (h : IsDate t) :
    parseIso (toISOString t).toList = some t := by
  obtain ⟨f, hvalid, htext, hvalue⟩ := toISOString_fields h
  rw [htext, parseIso_text hvalid, hvalue]

end ShipFlow.Notifications
