import Shyraq.Kernel.Calendar
import Shyraq.Kernel.Digits

/-!
# Instants as text

`toISOString` writes an instant, `parseDate` is `new Date(text)` on the date-time format of
ECMAScript: a day alone is its UTC midnight, a day and a time without an offset are read on a host
that runs on UTC.

    |t| ≤ maxTime → parseDate (toISOString t) = some t                       (parseDate_toISOString)
-/

namespace Kernel

theorem readNumber_decimal {width n : Nat} (h : n < 10 ^ width) (rest : List Char) :
    readNumber 10 width (padStart 10 width n ++ rest) = some (n, rest) :=
  readNumber_padStart digital_ten (by decide) h rest

/-! ## Days -/

/-- `getUTCFullYear` of a day. -/
def yearOf (d : Int) : Int := monthOf d / 12

/-- The day `Date.UTC(y, m - 1, day)`, for a year of at least three digits. -/
def dayOf (y m day : Int) : Int := monthStart (12 * y + (m - 1)) + (day - 1)

/-- Four digits, or a sign and six. -/
def yearText (y : Int) : List Char :=
  if 0 ≤ y ∧ y ≤ 9999 then padStart 10 4 y.toNat
  else (if 0 ≤ y then '+' else '-') :: padStart 10 6 y.natAbs

def dayText (d : Int) : List Char :=
  yearText (yearOf d) ++ '-' :: (padStart 10 2 (utcMonth d + 1).toNat ++ '-' :: padStart 10 2 (dayOfMonth d + 1).toNat)

def readYear : List Char → Option (Int × List Char)
  | '+' :: cs => (readNumber 10 6 cs).map fun p => (p.1, p.2)
  | '-' :: cs => (readNumber 10 6 cs).bind fun p => if p.1 = 0 then none else some (-p.1, p.2)
  | cs => (readNumber 10 4 cs).map fun p => (p.1, p.2)

def readDay (cs : List Char) : Option (Int × List Char) := do
  let (y, cs) ← readYear cs
  let cs ← readChar '-' cs
  let (m, cs) ← readNumber 10 2 cs
  let cs ← readChar '-' cs
  let (day, cs) ← readNumber 10 2 cs
  if 1 ≤ m ∧ m ≤ 12 ∧ 1 ≤ day ∧ day ≤ 31 then some (dayOf y m day, cs) else none

theorem dayOf_parts (d : Int) : dayOf (yearOf d) (utcMonth d + 1) (dayOfMonth d + 1) = d := by
  have hk : 12 * yearOf d + (utcMonth d + 1 - 1) = monthOf d := by
    unfold yearOf utcMonth
    omega
  unfold dayOf dayOfMonth
  rw [hk]
  omega

theorem utcMonth_bounds (d : Int) : 0 ≤ utcMonth d ∧ utcMonth d < 12 := by
  unfold utcMonth
  omega

theorem dayOfMonth_bounds (d : Int) : 0 ≤ dayOfMonth d ∧ dayOfMonth d < 31 := by
  have hspec := monthOf_spec d
  have hlen := monthStart_succ (monthOf d)
  unfold dayOfMonth
  omega

/-- The years of the instants that a `Date` can hold have at most six digits. -/
theorem yearOf_bounds {d : Int} (hlow : -100000001 ≤ d) (hhigh : d ≤ 100000000) :
    -999999 ≤ yearOf d ∧ yearOf d ≤ 999999 := by
  have hspec := monthOf_spec d
  have hb := monthStart_bounds (monthOf d)
  have hb' := monthStart_bounds (monthOf d + 1)
  unfold yearOf
  omega

theorem readYear_digits {n : Nat} (h : n < 10 ^ 4) (rest : List Char) :
    readYear (padStart 10 4 n ++ rest) = some ((n : Int), rest) := by
  have hread := readNumber_decimal h rest
  have hplain : ∀ d < 10, digitChar d ≠ '+' ∧ digitChar d ≠ '-' := by decide
  obtain ⟨hplus, hminus⟩ := hplain (n / 10 ^ 3 % 10) (Nat.mod_lt _ (by decide))
  unfold padStart at hread ⊢
  rw [List.cons_append] at hread ⊢
  unfold readYear
  split
  · next heq => exact absurd (List.cons.inj heq).1 hplus
  · next heq => exact absurd (List.cons.inj heq).1 hminus
  · rw [hread]
    rfl

theorem readYear_plus (cs : List Char) :
    readYear ('+' :: cs) = (readNumber 10 6 cs).map fun p => ((p.1 : Int), p.2) := rfl

theorem readYear_minus (cs : List Char) :
    readYear ('-' :: cs) = (readNumber 10 6 cs).bind fun p => if p.1 = 0 then none else some (-(p.1 : Int), p.2) := rfl

theorem readYear_yearText {y : Int} (hlow : -999999 ≤ y) (hhigh : y ≤ 999999) (rest : List Char) :
    readYear (yearText y ++ rest) = some (y, rest) := by
  unfold yearText
  split
  · next h =>
    have hn : y.toNat < 10 ^ 4 := by omega
    rw [readYear_digits hn, Int.toNat_of_nonneg h.1]
  · next h =>
    have hn : y.natAbs < 10 ^ 6 := by omega
    rw [List.cons_append]
    split
    · next hy =>
      rw [readYear_plus, readNumber_decimal hn]
      show some ((y.natAbs : Int), rest) = _
      rw [Int.natAbs_of_nonneg hy]
    · next hy =>
      have h0 : y.natAbs ≠ 0 := by omega
      rw [readYear_minus, readNumber_decimal hn, Option.bind_some, if_neg h0]
      show some (-(y.natAbs : Int), rest) = _
      have : -(y.natAbs : Int) = y := by omega
      rw [this]

theorem readDay_dayText {d : Int} (hlow : -999999 ≤ yearOf d) (hhigh : yearOf d ≤ 999999) (rest : List Char) :
    readDay (dayText d ++ rest) = some (d, rest) := by
  obtain ⟨hm₀, hm₁⟩ := utcMonth_bounds d
  obtain ⟨hd₀, hd₁⟩ := dayOfMonth_bounds d
  have hm : (utcMonth d + 1).toNat < 10 ^ 2 := by omega
  have hd : (dayOfMonth d + 1).toNat < 10 ^ 2 := by omega
  have hvalid : 1 ≤ (utcMonth d + 1).toNat ∧ (utcMonth d + 1).toNat ≤ 12 ∧ 1 ≤ (dayOfMonth d + 1).toNat ∧
      (dayOfMonth d + 1).toNat ≤ 31 := by omega
  have hback : dayOf (yearOf d) (utcMonth d + 1).toNat (dayOfMonth d + 1).toNat = d := by
    rw [Int.toNat_of_nonneg (by omega), Int.toNat_of_nonneg (by omega), dayOf_parts]
  unfold readDay dayText
  simp only [List.append_assoc, List.cons_append, readYear_yearText hlow hhigh, Option.bind_eq_bind,
    Option.bind_some, readChar_cons, readNumber_decimal hm, readNumber_decimal hd]
  rw [if_pos hvalid, hback]

/-! ## Times of the day -/

/-- `HH:mm:ss` -/
def clockText (seconds : Nat) : List Char :=
  padStart 10 2 (seconds / 3600) ++ ':' :: (padStart 10 2 (seconds / 60 % 60) ++ ':' :: padStart 10 2 (seconds % 60))

/-- `HH:mm:ss.sss` -/
def timeText (ms : Nat) : List Char := clockText (ms / 1000) ++ '.' :: padStart 10 3 (ms % 1000)

/-- `:ss` and `.sss`, each only after what stands before it. -/
def readSeconds (cs : List Char) : Option (Nat × List Char) :=
  match readChar ':' cs with
  | none => some (0, cs)
  | some cs => do
      let (s, cs) ← readNumber 10 2 cs
      if s ≤ 59 then
        match readChar '.' cs with
        | none => some (s * 1000, cs)
        | some cs => (readNumber 10 3 cs).map fun p => (s * 1000 + p.1, p.2)
      else none

def readTime (cs : List Char) : Option (Nat × List Char) := do
  let (h, cs) ← readNumber 10 2 cs
  let cs ← readChar ':' cs
  let (m, cs) ← readNumber 10 2 cs
  let (ms, cs) ← readSeconds cs
  if m ≤ 59 ∧ h * 3600000 + m * 60000 + ms ≤ 86400000 then some (h * 3600000 + m * 60000 + ms, cs) else none

/-- `Z`, `±HH:mm` or nothing, in milliseconds. -/
def readOffset : List Char → Option Int
  | [] => some 0
  | ['Z'] => some 0
  | sign :: cs => do
      let (h, cs) ← readNumber 10 2 cs
      let cs ← readChar ':' cs
      let (m, cs) ← readNumber 10 2 cs
      if cs = [] ∧ h ≤ 23 ∧ m ≤ 59 then
        if sign = '+' then some (h * 3600000 + m * 60000)
        else if sign = '-' then some (-(h * 3600000 + m * 60000))
        else none
      else none

/-- The instants that a `Date` can hold. -/
def maxTime : Int := 8640000000000000

def parseDate (text : List Char) : Option Int := do
  let (d, cs) ← readDay text
  if cs = [] then some (midnight d)
  else do
    let cs ← readChar 'T' cs
    let (ms, cs) ← readTime cs
    let offset ← readOffset cs
    let t := midnight d + ms - offset
    if -maxTime ≤ t ∧ t ≤ maxTime then some t else none

/-- Milliseconds since the UTC midnight of the day. -/
def timeOfDay (t : Int) : Nat := (t % msPerDay).toNat

def toISOString (t : Int) : List Char := dayText (utcDay t) ++ 'T' :: (timeText (timeOfDay t) ++ ['Z'])

theorem timeOfDay_lt (t : Int) : timeOfDay t < 86400000 := by
  unfold timeOfDay msPerDay
  omega

theorem midnight_add_timeOfDay (t : Int) : midnight (utcDay t) + timeOfDay t = t := by
  unfold midnight utcDay timeOfDay msPerDay
  omega

theorem readTime_timeText {ms : Nat} (h : ms < 86400000) (rest : List Char) :
    readTime (timeText ms ++ rest) = some (ms, rest) := by
  have hh : ms / 1000 / 3600 < 10 ^ 2 := by omega
  have hm : ms / 1000 / 60 % 60 < 10 ^ 2 := by omega
  have hs : ms / 1000 % 60 < 10 ^ 2 := by omega
  have hf : ms % 1000 < 10 ^ 3 := by omega
  have hs' : ms / 1000 % 60 ≤ 59 := by omega
  have hm' : ms / 1000 / 60 % 60 ≤ 59 := by omega
  have hsum : ms / 1000 / 3600 * 3600000 + ms / 1000 / 60 % 60 * 60000 + (ms / 1000 % 60 * 1000 + ms % 1000) = ms := by
    omega
  unfold readTime readSeconds timeText clockText
  simp only [List.append_assoc, List.cons_append, Option.bind_eq_bind, Option.bind_some, readChar_cons,
    readNumber_decimal hh, readNumber_decimal hm, readNumber_decimal hs, readNumber_decimal hf, if_pos hs',
    Option.map_some, hsum]
  exact if_pos ⟨hm', by omega⟩

/-- What follows a day and a time is their offset. -/
theorem parseDate_text {d : Int} {ms : Nat} {zone : List Char} {offset : Int} (hlow : -999999 ≤ yearOf d)
    (hhigh : yearOf d ≤ 999999) (hms : ms < 86400000) (hzone : readOffset zone = some offset)
    (hmin : -maxTime ≤ midnight d + ms - offset) (hmax : midnight d + ms - offset ≤ maxTime) :
    parseDate (dayText d ++ 'T' :: (timeText ms ++ zone)) = some (midnight d + ms - offset) := by
  unfold parseDate
  simp only [readDay_dayText hlow hhigh, Option.bind_eq_bind, Option.bind_some, List.cons_ne_nil, if_false,
    readChar_cons, readTime_timeText hms, hzone]
  exact if_pos ⟨hmin, hmax⟩

theorem parseDate_toISOString {t : Int} (hmin : -maxTime ≤ t) (hmax : t ≤ maxTime) :
    parseDate (toISOString t) = some t := by
  have hd : -100000001 ≤ utcDay t ∧ utcDay t ≤ 100000000 := by
    unfold utcDay msPerDay
    unfold maxTime at hmin hmax
    omega
  obtain ⟨hlow, hhigh⟩ := yearOf_bounds hd.1 hd.2
  have ht : midnight (utcDay t) + timeOfDay t - 0 = t := by
    rw [Int.sub_zero, midnight_add_timeOfDay]
  have hzone : readOffset ['Z'] = some 0 := rfl
  have h := parseDate_text hlow hhigh (timeOfDay_lt t) hzone (by omega) (by omega)
  rw [ht] at h
  exact h

end Kernel
