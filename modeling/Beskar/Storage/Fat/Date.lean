import Mathlib
import Beskar.Lib.Bits

/-!
# DOS Dates and Times

`Date`, `Time` and `DateTime` of `fs/fat/date.rs`, and their DOS encodings `DosDate`,
`DosTime` and `DosDateTime`. A date is one `u16`: seven bits of years since 1980, four of
month and five of day. A time is one `u16`, with five bits of hours, six of minutes and
five of two-second units, and one byte of hundredths that also holds the odd second.

The values are the source's fixed-width integers. `Date::new` and `Time::new` assert their
ranges, so `new` returns `none` (a panic) for a value out of range. The fields are private
in the source, and `new` and `decode` are the only ways to build a value. Each structure
carries what both guarantee and what `encode` needs to run without a panic: a year from
1980 on, and fewer than 1000 milliseconds. A `u8::try_from(..).unwrap()` of a value that
always fits is `toUInt8`.

## Main results
- `Date.decode_encode`, `Time.decode_encode`, `DateTime.decode_encode`: a value that `new`
  accepts is decoded back from its encoding, the milliseconds cut to whole hundredths.
- `Date.encode_decode`: every `u16` is the encoding of the date it decodes to.
- `Time.encode_decode_iff`: a DOS time is the encoding of the time it decodes to exactly
  when its hundredths byte is below 200, as every encoding's is
  (`Time.toNat_encode_dosTimeHiRes_lt`).
-/

namespace Beskar.Storage.Fat

/-- `DosDate`. -/
structure DosDate where
  dosDate : UInt16
deriving DecidableEq, Repr

/-- `DosDate::BASE`, the date 1980-01-01. -/
def DosDate.base : DosDate := ⟨33⟩

/-- `DosTime`, `#[repr(C, packed)]`: the hundredths byte first. -/
structure DosTime where
  dosTimeHiRes : UInt8
  dosTime : UInt16
deriving DecidableEq, Repr

/-- `DosTime::BASE`. -/
def DosTime.base : DosTime := ⟨0, 0⟩

/-- `DosDateTime`. -/
structure DosDateTime where
  dosDate : DosDate
  dosTime : DosTime
deriving DecidableEq, Repr

/-- `Date::MIN_YEAR`. -/
def minYear : UInt16 := 1980

/-- `Date::MAX_YEAR`. -/
def maxYear : UInt16 := 2107

/-- `Date`. -/
structure Date where
  year : UInt16
  month : UInt8
  day : UInt8
  year_ge : minYear ≤ year
deriving DecidableEq

namespace Date

/-- `Date::new`. -/
def new (year : UInt16) (month day : UInt8) : Option Date :=
  if h : minYear ≤ year ∧ year ≤ maxYear then
    if 1 ≤ month ∧ month ≤ 12 then
      if 1 ≤ day ∧ day ≤ 31 then some ⟨year, month, day, h.1⟩ else none
    else none
  else none

/-- Seven bits of years cannot carry a year past `u16::MAX`. -/
theorem le_shiftRight_nine_add (d : UInt16) : minYear ≤ (d >>> 9) + minYear := by
  have hd := d.toNat_lt
  have hshift : (d >>> 9).toNat = d.toNat / 512 := by
    rw [UInt16.toNat_shiftRight, Nat.shiftRight_eq_div_pow]
    rfl
  rw [UInt16.le_iff_toNat_le, UInt16.toNat_add, hshift]
  show 1980 ≤ (d.toNat / 512 + 1980) % 2 ^ 16
  omega

/-- `Date::decode`. -/
def decode (dosDate : DosDate) : Date :=
  let dosDate := dosDate.dosDate
  let year := (dosDate >>> 9) + minYear
  let month := ((dosDate >>> 5) &&& 0xF).toUInt8
  let day := (dosDate &&& 0x1F).toUInt8
  ⟨year, month, day, le_shiftRight_nine_add dosDate⟩

/-- `Date::encode`. -/
def encode (self : Date) : DosDate :=
  ⟨((self.year - minYear) <<< 9) ||| (self.month.toUInt16 <<< 5) ||| self.day.toUInt16⟩

end Date

/-- `Time`. -/
structure Time where
  hour : UInt8
  min : UInt8
  sec : UInt8
  ms : UInt16
  ms_lt : ms < 1000
deriving DecidableEq

namespace Time

/-- `Time::new`. -/
def new (hour min sec : UInt8) (ms : UInt16) : Option Time :=
  if hour ≤ 23 ∧ min ≤ 59 ∧ sec ≤ 59 then
    if h : ms ≤ 999 then some ⟨hour, min, sec, ms, UInt16.lt_of_le_of_lt h (by decide)⟩ else none
  else none

/-- Whole hundredths times ten are fewer than 1000 milliseconds. -/
theorem mod_hundred_mul_ten_lt (hiRes : UInt8) : (hiRes % 100).toUInt16 * 10 < 1000 := by
  have hmod : (hiRes % 100).toNat < 100 := by
    rw [UInt8.toNat_mod]
    exact Nat.mod_lt _ (by decide)
  rw [UInt16.lt_iff_toNat_lt, UInt16.toNat_mul, UInt8.toNat_toUInt16]
  show (hiRes % 100).toNat * 10 % 2 ^ 16 < 1000
  rw [Nat.mod_eq_of_lt (by omega)]
  omega

/-- `Time::decode`. -/
def decode (dosTime : DosTime) : Time :=
  let dosTimeHiRes := dosTime.dosTimeHiRes
  let dosTime := dosTime.dosTime
  let hour := (dosTime >>> 11).toUInt8
  let min := ((dosTime >>> 5) &&& 0x3F).toUInt8
  let sec := ((dosTime &&& 0x1F) * 2 + (dosTimeHiRes / 100).toUInt16).toUInt8
  let ms := (dosTimeHiRes % 100).toUInt16 * 10
  ⟨hour, min, sec, ms, mod_hundred_mul_ten_lt dosTimeHiRes⟩

/-- `Time::encode`: the odd second goes to the hundredths byte. -/
def encode (self : Time) : DosTime :=
  let dosTime :=
    (self.hour.toUInt16 <<< 11) ||| (self.min.toUInt16 <<< 5) ||| (self.sec.toUInt16 / 2)
  let dosTimeHiRes := (self.ms / 10).toUInt8 + (self.sec % 2) * 100
  ⟨dosTimeHiRes, dosTime⟩

end Time

/-- `DateTime`. -/
structure DateTime where
  date : Date
  time : Time
deriving DecidableEq

namespace DateTime

/-- `DateTime::decode`. -/
def decode (dosDateTime : DosDateTime) : DateTime :=
  ⟨Date.decode dosDateTime.dosDate, Time.decode dosDateTime.dosTime⟩

/-- `DateTime::encode`. -/
def encode (self : DateTime) : DosDateTime :=
  ⟨self.date.encode, self.time.encode⟩

end DateTime

/-! ## Valid Values

What `Date::new` and `Time::new` assert, as predicates on the values, and the encodings as
arithmetic on the fields. -/

open Beskar.Lib

theorem DosTime.ext' {a b : DosTime} (hhi : a.dosTimeHiRes = b.dosTimeHiRes)
    (htime : a.dosTime = b.dosTime) : a = b := by
  cases a; cases b
  simp only at hhi htime
  rw [hhi, htime]

namespace Date

/-- The ranges `Date::new` asserts; a year from 1980 on is in the type. -/
def Valid (d : Date) : Prop :=
  d.year ≤ maxYear ∧ 1 ≤ d.month ∧ d.month ≤ 12 ∧ 1 ≤ d.day ∧ d.day ≤ 31

instance (d : Date) : Decidable d.Valid := inferInstanceAs (Decidable (_ ∧ _))

theorem ext' {a b : Date} (hy : a.year = b.year) (hm : a.month = b.month)
    (hd : a.day = b.day) : a = b := by
  cases a; cases b
  simp only at hy hm hd
  subst hy hm hd
  rfl

/-- `Date::new` accepts exactly the valid dates. -/
theorem new_eq_some_iff {year : UInt16} {month day : UInt8} {d : Date} :
    new year month day = some d ↔ d.Valid ∧ d.year = year ∧ d.month = month ∧ d.day = day := by
  unfold new
  split_ifs with hy hm hd
  · constructor
    · rintro ⟨⟩
      exact ⟨⟨hy.2, hm.1, hm.2, hd.1, hd.2⟩, rfl, rfl, rfl⟩
    · rintro ⟨-, rfl, rfl, rfl⟩
      rfl
  all_goals
    simp only [false_iff, not_and]
    rintro ⟨hy', hm₁, hm₂, hd₁, hd₂⟩ rfl rfl rfl
  · exact hd ⟨hd₁, hd₂⟩
  · exact hm ⟨hm₁, hm₂⟩
  · exact hy ⟨d.year_ge, hy'⟩

/-- The DOS date of a date whose fields fit, as arithmetic: seven bits of years since
1980, four of month, five of day. -/
theorem toNat_encode {d : Date} (hy : d.year ≤ maxYear) (hm : d.month.toNat < 16)
    (hd : d.day.toNat < 32) :
    d.encode.dosDate.toNat = 512 * (d.year.toNat - 1980) + 32 * d.month.toNat + d.day.toNat := by
  have hge := d.year_ge
  rw [UInt16.le_iff_toNat_le] at hge hy
  have hmin : minYear.toNat = 1980 := rfl
  have hmax : maxYear.toNat = 2107 := rfl
  have hsub : (d.year - minYear).toNat = d.year.toNat - 1980 := by
    rw [UInt16.toNat_sub_of_le _ _ (UInt16.le_iff_toNat_le.2 hge), hmin]
  simp only [encode, UInt16.toNat_or, UInt16.toNat_shiftLeft, hsub, UInt8.toNat_toUInt16,
    UInt16.reduceToNat, Nat.reduceMod]
  -- no field reaches past bit 15, so the `u16` shifts lose nothing
  have h₁ : (d.year.toNat - 1980) <<< 9 < 2 ^ 16 := by rw [Nat.shiftLeft_eq]; omega
  have h₂ : d.month.toNat <<< 5 < 2 ^ 16 := by rw [Nat.shiftLeft_eq]; omega
  rw [Nat.mod_eq_of_lt h₁, Nat.mod_eq_of_lt h₂,
    shiftLeft_or_shiftLeft (m := 9) (n := 5) (by omega) (by simpa using hm),
    shiftLeft_or_eq_add (by simpa using hd)]
  omega

theorem toNat_decode_year (x : DosDate) : (decode x).year.toNat = x.dosDate.toNat / 512 + 1980 := by
  have hx := x.dosDate.toNat_lt
  simp only [decode, UInt16.toNat_add, UInt16.toNat_shiftRight, UInt16.reduceToNat,
    Nat.reduceMod, Nat.shiftRight_eq_div_pow]
  show (x.dosDate.toNat / 2 ^ 9 + 1980) % 2 ^ 16 = _
  omega

theorem toNat_decode_month (x : DosDate) : (decode x).month.toNat = x.dosDate.toNat / 32 % 16 := by
  have h15 (n : Nat) : n &&& 15 = n % 16 := Nat.and_two_pow_sub_one_eq_mod n 4
  simp only [decode, UInt16.toNat_toUInt8, UInt16.toNat_and, UInt16.toNat_shiftRight,
    UInt16.reduceToNat, Nat.reduceMod, Nat.shiftRight_eq_div_pow, h15]
  omega

theorem toNat_decode_day (x : DosDate) : (decode x).day.toNat = x.dosDate.toNat % 32 := by
  have h31 (n : Nat) : n &&& 31 = n % 32 := Nat.and_two_pow_sub_one_eq_mod n 5
  simp only [decode, UInt16.toNat_toUInt8, UInt16.toNat_and, UInt16.reduceToNat, h31]
  omega

end Date

namespace Time

/-- The ranges `Time::new` asserts; fewer than 1000 milliseconds is in the type. -/
def Valid (t : Time) : Prop := t.hour ≤ 23 ∧ t.min ≤ 59 ∧ t.sec ≤ 59

instance (t : Time) : Decidable t.Valid := inferInstanceAs (Decidable (_ ∧ _))

theorem ext' {a b : Time} (hh : a.hour = b.hour) (hm : a.min = b.min) (hs : a.sec = b.sec)
    (hms : a.ms = b.ms) : a = b := by
  cases a; cases b
  simp only at hh hm hs hms
  subst hh hm hs hms
  rfl

/-- `Time::new` accepts exactly the valid times. -/
theorem new_eq_some_iff {hour min sec : UInt8} {ms : UInt16} {t : Time} :
    new hour min sec ms = some t ↔
      t.Valid ∧ t.hour = hour ∧ t.min = min ∧ t.sec = sec ∧ t.ms = ms := by
  unfold new
  split_ifs with hv hms
  · constructor
    · rintro ⟨⟩
      exact ⟨hv, rfl, rfl, rfl, rfl⟩
    · rintro ⟨-, rfl, rfl, rfl, rfl⟩
      rfl
  all_goals
    simp only [false_iff, not_and]
    rintro hv' rfl rfl rfl rfl
  · have hlt := t.ms_lt
    simp only [UInt16.lt_iff_toNat_lt, UInt16.reduceToNat] at hlt
    exact hms (UInt16.le_iff_toNat_le.2 (by simp only [UInt16.reduceToNat]; omega))
  · exact hv hv'

/-- Milliseconds cut to whole hundredths, as arithmetic. -/
theorem toNat_div_ten_mul_ten {ms : UInt16} (h : ms.toNat < 1000) :
    (ms / 10 * 10).toNat = ms.toNat / 10 * 10 := by
  have hle : ms.toNat / 10 * 10 ≤ ms.toNat := Nat.div_mul_le_self _ _
  simp only [UInt16.toNat_mul, UInt16.toNat_div, UInt16.reduceToNat]
  exact Nat.mod_eq_of_lt (by omega)

theorem div_ten_mul_ten_lt {ms : UInt16} (h : ms < 1000) : ms / 10 * 10 < 1000 := by
  simp only [UInt16.lt_iff_toNat_lt, UInt16.reduceToNat] at h ⊢
  rw [toNat_div_ten_mul_ten h]
  omega

/-- The time with its milliseconds cut to whole hundredths, the precision of the
hundredths byte. -/
def truncMs (t : Time) : Time :=
  ⟨t.hour, t.min, t.sec, t.ms / 10 * 10, div_ten_mul_ten_lt t.ms_lt⟩

@[simp] theorem truncMs_hour (t : Time) : t.truncMs.hour = t.hour := rfl
@[simp] theorem truncMs_min (t : Time) : t.truncMs.min = t.min := rfl
@[simp] theorem truncMs_sec (t : Time) : t.truncMs.sec = t.sec := rfl
@[simp] theorem truncMs_ms (t : Time) : t.truncMs.ms = t.ms / 10 * 10 := rfl

/-- The `u16` of a DOS time whose fields fit, as arithmetic: five bits of hours, six of
minutes and five of two-second units. -/
theorem toNat_encode_dosTime {t : Time} (hh : t.hour.toNat < 32) (hm : t.min.toNat < 64)
    (hs : t.sec.toNat < 64) :
    t.encode.dosTime.toNat = 2048 * t.hour.toNat + 32 * t.min.toNat + t.sec.toNat / 2 := by
  simp only [encode, UInt16.toNat_or, UInt16.toNat_shiftLeft, UInt16.toNat_div,
    UInt8.toNat_toUInt16, UInt16.reduceToNat, Nat.reduceMod]
  have h₁ : t.hour.toNat <<< 11 < 2 ^ 16 := by rw [Nat.shiftLeft_eq]; omega
  have h₂ : t.min.toNat <<< 5 < 2 ^ 16 := by rw [Nat.shiftLeft_eq]; omega
  rw [Nat.mod_eq_of_lt h₁, Nat.mod_eq_of_lt h₂,
    shiftLeft_or_shiftLeft (m := 11) (n := 5) (by omega) (by simpa using hm),
    shiftLeft_or_eq_add (by simp; omega)]
  omega

/-- The hundredths byte: the whole hundredths, and 100 more for an odd second. -/
theorem toNat_encode_dosTimeHiRes (t : Time) :
    t.encode.dosTimeHiRes.toNat = t.ms.toNat / 10 + t.sec.toNat % 2 * 100 := by
  have hms := t.ms_lt
  simp only [UInt16.lt_iff_toNat_lt, UInt16.reduceToNat] at hms
  simp only [encode, UInt8.toNat_add, UInt8.toNat_mul, UInt8.toNat_mod, UInt16.toNat_toUInt8,
    UInt16.toNat_div, UInt16.reduceToNat, UInt8.reduceToNat]
  omega

/-- Every encoding's hundredths byte is below 200. -/
theorem toNat_encode_dosTimeHiRes_lt (t : Time) : t.encode.dosTimeHiRes.toNat < 200 := by
  have hms := t.ms_lt
  simp only [UInt16.lt_iff_toNat_lt, UInt16.reduceToNat] at hms
  rw [toNat_encode_dosTimeHiRes]
  omega

theorem toNat_decode_hour (x : DosTime) : (decode x).hour.toNat = x.dosTime.toNat / 2048 := by
  have hx := x.dosTime.toNat_lt
  simp only [decode, UInt16.toNat_toUInt8, UInt16.toNat_shiftRight, UInt16.reduceToNat,
    Nat.reduceMod, Nat.shiftRight_eq_div_pow]
  omega

theorem toNat_decode_min (x : DosTime) : (decode x).min.toNat = x.dosTime.toNat / 32 % 64 := by
  have h63 (n : Nat) : n &&& 63 = n % 64 := Nat.and_two_pow_sub_one_eq_mod n 6
  simp only [decode, UInt16.toNat_toUInt8, UInt16.toNat_and, UInt16.toNat_shiftRight,
    UInt16.reduceToNat, Nat.reduceMod, Nat.shiftRight_eq_div_pow, h63]
  omega

theorem toNat_decode_sec (x : DosTime) :
    (decode x).sec.toNat = x.dosTime.toNat % 32 * 2 + x.dosTimeHiRes.toNat / 100 := by
  have h31 (n : Nat) : n &&& 31 = n % 32 := Nat.and_two_pow_sub_one_eq_mod n 5
  have hb := x.dosTimeHiRes.toNat_lt
  simp only [decode, UInt16.toNat_toUInt8, UInt16.toNat_add, UInt16.toNat_mul, UInt16.toNat_and,
    UInt8.toNat_toUInt16, UInt8.toNat_div, UInt16.reduceToNat, UInt8.reduceToNat, h31]
  omega

theorem toNat_decode_ms (x : DosTime) :
    (decode x).ms.toNat = x.dosTimeHiRes.toNat % 100 * 10 := by
  have hb := x.dosTimeHiRes.toNat_lt
  simp only [decode, UInt16.toNat_mul, UInt8.toNat_toUInt16, UInt8.toNat_mod, UInt16.reduceToNat,
    UInt8.reduceToNat]
  omega

end Time

namespace DateTime

/-- Both parts in the ranges their `new` asserts. -/
def Valid (dt : DateTime) : Prop := dt.date.Valid ∧ dt.time.Valid

instance (dt : DateTime) : Decidable dt.Valid := inferInstanceAs (Decidable (_ ∧ _))

/-- The date and time with the milliseconds cut to whole hundredths. -/
def truncMs (dt : DateTime) : DateTime := ⟨dt.date, dt.time.truncMs⟩

end DateTime

/-! ## Round Trips -/

namespace Date

/-- A valid date is decoded back from its encoding. -/
theorem decode_encode {d : Date} (h : d.Valid) : decode d.encode = d := by
  obtain ⟨hy, -, hm, -, hd⟩ := h
  simp only [UInt8.le_iff_toNat_le, UInt8.reduceToNat] at hm hd
  have henc := toNat_encode hy (by omega) (by omega)
  have hge := d.year_ge
  rw [UInt16.le_iff_toNat_le] at hge hy
  have hmin : minYear.toNat = 1980 := rfl
  have hmax : maxYear.toNat = 2107 := rfl
  apply ext'
  · rw [← UInt16.toNat_inj, toNat_decode_year, henc]
    omega
  · rw [← UInt8.toNat_inj, toNat_decode_month, henc]
    omega
  · rw [← UInt8.toNat_inj, toNat_decode_day, henc]
    omega

/-- Every DOS date is the encoding of the date it decodes to: the three fields cover the
sixteen bits. -/
theorem encode_decode (x : DosDate) : (decode x).encode = x := by
  have hx := x.dosDate.toNat_lt
  have hyear := toNat_decode_year x
  have henc := toNat_encode (d := decode x)
    (by rw [UInt16.le_iff_toNat_le, hyear]; show _ ≤ 2107; omega)
    (by rw [toNat_decode_month]; omega) (by rw [toNat_decode_day]; omega)
  have hdate : (decode x).encode.dosDate = x.dosDate := by
    rw [← UInt16.toNat_inj, henc, hyear, toNat_decode_month, toNat_decode_day]
    omega
  exact congrArg DosDate.mk hdate

end Date

namespace Time

/-- A valid time is decoded back from its encoding, its milliseconds cut to whole
hundredths; the odd second comes back through the hundredths byte. -/
theorem decode_encode {t : Time} (h : t.Valid) : decode t.encode = t.truncMs := by
  obtain ⟨hh, hm, hs⟩ := h
  simp only [UInt8.le_iff_toNat_le, UInt8.reduceToNat] at hh hm hs
  have hms := t.ms_lt
  simp only [UInt16.lt_iff_toNat_lt, UInt16.reduceToNat] at hms
  have htime := toNat_encode_dosTime (t := t) (by omega) (by omega) (by omega)
  have hhi := toNat_encode_dosTimeHiRes t
  apply ext'
  · rw [← UInt8.toNat_inj, toNat_decode_hour, htime, truncMs_hour]
    omega
  · rw [← UInt8.toNat_inj, toNat_decode_min, htime, truncMs_min]
    omega
  · rw [← UInt8.toNat_inj, toNat_decode_sec, htime, hhi, truncMs_sec]
    omega
  · rw [← UInt16.toNat_inj, toNat_decode_ms, hhi, truncMs_ms, toNat_div_ten_mul_ten hms]
    omega

/-- A DOS time whose hundredths byte is below 200 is the encoding of the time it decodes
to. From 200 on the byte carries two seconds, which the encoding moves into the
two-second units. -/
theorem encode_decode {x : DosTime} (h : x.dosTimeHiRes.toNat < 200) :
    (decode x).encode = x := by
  have hx := x.dosTime.toNat_lt
  have hhour := toNat_decode_hour x
  have hmin := toNat_decode_min x
  have hsec := toNat_decode_sec x
  have htime := toNat_encode_dosTime (t := decode x) (by omega) (by omega) (by omega)
  have hhi := toNat_encode_dosTimeHiRes (decode x)
  have hdosTime : (decode x).encode.dosTime = x.dosTime := by
    rw [← UInt16.toNat_inj, htime, hhour, hmin, hsec]
    omega
  have hdosTimeHiRes : (decode x).encode.dosTimeHiRes = x.dosTimeHiRes := by
    rw [← UInt8.toNat_inj, hhi, toNat_decode_ms, hsec]
    omega
  exact DosTime.ext' hdosTimeHiRes hdosTime

theorem encode_decode_iff {x : DosTime} : (decode x).encode = x ↔ x.dosTimeHiRes.toNat < 200 :=
  ⟨fun h => h ▸ toNat_encode_dosTimeHiRes_lt _, encode_decode⟩

end Time

namespace DateTime

theorem decode_encode {dt : DateTime} (h : dt.Valid) : decode dt.encode = dt.truncMs := by
  show (⟨Date.decode dt.date.encode, Time.decode dt.time.encode⟩ : DateTime) = _
  rw [Date.decode_encode h.1, Time.decode_encode h.2]
  rfl

/-- Every encoding is the encoding of what it decodes to. -/
theorem encode_decode_encode (dt : DateTime) : (decode dt.encode).encode = dt.encode := by
  show (⟨(Date.decode dt.date.encode).encode, (Time.decode dt.time.encode).encode⟩ :
    DosDateTime) = _
  rw [Date.encode_decode, Time.encode_decode (Time.toNat_encode_dosTimeHiRes_lt _)]
  rfl

end DateTime

end Beskar.Storage.Fat
