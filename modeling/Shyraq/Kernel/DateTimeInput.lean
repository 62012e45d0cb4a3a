import Shyraq.Kernel.DateText
import Shyraq.Kernel.Digits
import Shyraq.Kernel.Zones

/-!
# Wall clocks in and out of a zone

`Intl` shows an instant in a zone; everything else is computed from what it shows: the offset, the
instant of a day and a time, the text with an offset and the way back.
-/

namespace Kernel

/-! ## Text -/

/-- `String(n)` -/
def decimal (n : Nat) : List Char :=
  if n < 10 then [digitChar n] else decimal (n / 10) ++ [digitChar (n % 10)]

def consHead (c : Char) : List (List Char) → List (List Char)
  | [] => [[c]]
  | piece :: pieces => (c :: piece) :: pieces

/-- `text.split(sep)` -/
def splitOn (sep : Char) : List Char → List (List Char)
  | [] => [[]]
  | c :: cs => if c = sep then [] :: splitOn sep cs else consHead c (splitOn sep cs)

def leadingNumber (acc : Nat) : List Char → Nat
  | c :: cs => if c.isDigit then leadingNumber (acc * 10 + (c.toNat - 48)) cs else acc
  | [] => acc

def unsigned (text : List Char) : Option Nat :=
  match text with
  | c :: _ => if c.isDigit then some (leadingNumber 0 text) else none
  | [] => none

/-- `parseInt(text, 10)`; `none` is NaN. -/
def parseInt (text : List Char) : Option Int :=
  match text.dropWhile isWhitespace with
  | '-' :: cs => (unsigned cs).map fun n => -Int.ofNat n
  | '+' :: cs => (unsigned cs).map Int.ofNat
  | cs => (unsigned cs).map Int.ofNat

/-- Year, month and day, none of them 0 or NaN. -/
def dateParts (text : List Char) : Option (Int × Int × Int) :=
  match (splitOn '-' text).map parseInt with
  | some yy :: some mm :: some dd :: _ => if yy = 0 ∨ mm = 0 ∨ dd = 0 then none else some (yy, mm, dd)
  | _ => none

/-- `^(\d{2}):(\d{2})(?::(\d{2}))?$` -/
def matchWallClock (time : List Char) : Option (Nat × Nat × Nat) := do
  let (hours, cs) ← readNumber 10 2 time
  let cs ← readChar ':' cs
  let (minutes, cs) ← readNumber 10 2 cs
  if cs = [] then some (hours, minutes, 0)
  else do
    let cs ← readChar ':' cs
    let (seconds, cs) ← readNumber 10 2 cs
    if cs = [] then some (hours, minutes, seconds) else none

/-- `(?:[zZ]|[+-]\d{2}:?\d{2})$` -/
def hasZoneSuffix (text : List Char) : Bool :=
  match text.reverse with
  | 'Z' :: _ => true
  | 'z' :: _ => true
  | d :: c :: cs =>
      match (readChar ':' cs).getD cs with
      | b :: a :: sign :: _ =>
          d.isDigit && c.isDigit && b.isDigit && a.isDigit && (sign == '+' || sign == '-')
      | _ => false
  | _ => false

/-! ## Intl and `Date.UTC` -/

/-- `year: 'numeric'` counts within the era. -/
def intlYear (y : Int) : Int := if 0 < y then y else 1 - y

/-- `Date.UTC` in seconds: the years 0 to 99 are those of the twentieth century. -/
def dateUTC (year month day seconds : Int) : Int :=
  86400 * dayOf (if 0 ≤ year ∧ year ≤ 99 then 1900 + year else year) month day + seconds

namespace Zone

variable (z : Zone)

/-- The wall clock at an instant, in whole seconds. -/
def wallOf (t : Int) : Int := z.wall (t / 1000)

/-- The calendar day that the zone shows. -/
def dayAt (t : Int) : Int := z.wallOf t / 86400

def zoneOffsetMsAt (t : Int) : Int :=
  let d := z.dayAt t
  1000 * dateUTC (intlYear (yearOf d)) (utcMonth d + 1) (dayOfMonth d + 1) (z.wallOf t % 86400) - (t - t % 1000)

def combineDateAndTimeInTimezone (date : Int) (time : List Char) : Except String Int :=
  match matchWallClock time with
  | none => .error ("time must be HH:MM or HH:MM:SS, got: " ++ String.ofList time)
  | some (hours, minutes, seconds) =>
      if hours > 23 ∨ minutes > 59 ∨ seconds > 59 then
        .error ("time must be a wall clock in 00:00:00..23:59:59, got: " ++ String.ofList time)
      else
        let d := z.dayAt date
        let wallClockAsUtcMs := 1000 * dateUTC (intlYear (yearOf d)) (utcMonth d + 1) (dayOfMonth d + 1)
          (hours * 3600 + minutes * 60 + seconds)
        let guessMs := wallClockAsUtcMs - z.zoneOffsetMsAt wallClockAsUtcMs
        .ok (wallClockAsUtcMs - z.zoneOffsetMsAt guessMs)

/-- `±HH:mm` -/
def offsetText (offsetMs : Int) : List Char :=
  (if 0 ≤ offsetMs then '+' else '-') :: (padStart 10 2 (offsetMs.natAbs / 3600000) ++
    ':' :: padStart 10 2 (offsetMs.natAbs % 3600000 / 60000))

def formatInstantWithOffset (t : Int) : List Char :=
  let offsetMs := z.zoneOffsetMsAt t
  let wallMs := t + offsetMs
  let d := utcDay wallMs
  let year := if yearOf d < 0 then '-' :: decimal (yearOf d).natAbs else decimal (yearOf d).toNat
  (year ++ '-' :: (padStart 10 2 (utcMonth d + 1).toNat ++ '-' :: padStart 10 2 (dayOfMonth d + 1).toNat)) ++
    'T' :: (timeText (timeOfDay wallMs) ++ offsetText offsetMs)

def parseDateTimeInput (input : List Char) : Except String Int :=
  let trimmed := (trim (String.ofList input)).toList
  if hasZoneSuffix trimmed then
    match parseDate trimmed with
    | none => .error ("invalid datetime: " ++ String.ofList input)
    | some t => .ok t
  else
    let pieces := splitOn 'T' trimmed
    let timePart := ((pieces[1]?).getD "00:00".toList).take 8
    match dateParts ((pieces[0]?).getD []) with
    | none => .error ("invalid datetime: " ++ String.ofList input)
    | some (yy, mm, dd) => z.combineDateAndTimeInTimezone (1000 * dateUTC yy mm dd 43200) timePart

end Zone

/-! ## What the functions compute -/

section

variable {z : Zone}

theorem dateUTC_parts {d : Int} (h : 100 ≤ yearOf d) (seconds : Int) :
    dateUTC (intlYear (yearOf d)) (utcMonth d + 1) (dayOfMonth d + 1) seconds = 86400 * d + seconds := by
  have hera : intlYear (yearOf d) = yearOf d := if_pos (by omega)
  have htwo : ¬(0 ≤ yearOf d ∧ yearOf d ≤ 99) := by omega
  unfold dateUTC
  rw [hera, if_neg htwo, dayOf_parts]

theorem le_yearOf_iff {y d : Int} : y ≤ yearOf d ↔ monthStart (12 * y) ≤ d := by
  have hspec := monthOf_spec d
  unfold yearOf
  constructor
  · intro h
    have : monthStart (12 * y) ≤ monthStart (monthOf d) := monthStart_le (by omega)
    omega
  · intro h
    by_contra hlt
    have : monthStart (monthOf d + 1) ≤ monthStart (12 * y) := monthStart_le (by omega)
    omega

theorem zoneOffsetMsAt_eq {t : Int} (h : 100 ≤ yearOf (z.dayAt t)) :
    z.zoneOffsetMsAt t = 1000 * z.offsetAt (t / 1000) := by
  unfold Zone.zoneOffsetMsAt
  dsimp only
  rw [dateUTC_parts h]
  unfold Zone.dayAt Zone.wallOf Zone.wall
  omega

/-- From the year 101 on, no wall clock within two days is of a two-digit year. -/
theorem zoneOffsetMsAt_near {wall s : Int} (hwall : 86400 * monthStart 1212 ≤ wall) (hs : wall - 50400 ≤ s) :
    z.zoneOffsetMsAt (1000 * s) = 1000 * z.offsetAt s := by
  have hb := z.bounded s
  have hyear : monthStart 1200 + 2 ≤ monthStart 1212 := by decide
  have hsec : 1000 * s / 1000 = s := by omega
  have hday : 100 ≤ yearOf (z.dayAt (1000 * s)) := by
    have hyears : (12 : Int) * 100 = 1200 := by decide
    rw [le_yearOf_iff, hyears]
    unfold Zone.dayAt Zone.wallOf Zone.wall
    rw [hsec]
    omega
  rw [zoneOffsetMsAt_eq hday, hsec]

theorem solved {wall : Int} (hwall : 86400 * monthStart 1212 ≤ wall) :
    1000 * wall - z.zoneOffsetMsAt (1000 * wall - z.zoneOffsetMsAt (1000 * wall)) = 1000 * z.solve wall := by
  have hb := z.bounded wall
  have hguess : 1000 * wall - 1000 * z.offsetAt wall = 1000 * (wall - z.offsetAt wall) := by omega
  rw [zoneOffsetMsAt_near hwall (by omega), hguess, zoneOffsetMsAt_near hwall (by omega)]
  unfold Zone.solve
  omega

/-- From the year 101 on, the instant is that of the wall clock that `solve` finds. -/
theorem combineDateAndTimeInTimezone_eq {date : Int} {time : List Char} {hours minutes seconds : Nat}
    (htime : matchWallClock time = some (hours, minutes, seconds)) (hh : hours ≤ 23) (hm : minutes ≤ 59)
    (hs : seconds ≤ 59) (hyear : 101 ≤ yearOf (z.dayAt date)) : z.combineDateAndTimeInTimezone date time =
      .ok (1000 * z.solve (86400 * z.dayAt date + (hours * 3600 + minutes * 60 + seconds))) := by
  have hvalid : ¬(hours > 23 ∨ minutes > 59 ∨ seconds > 59) := by omega
  have hyears : (12 : Int) * 101 = 1212 := by decide
  have hday : monthStart 1212 ≤ z.dayAt date := by
    rw [← hyears]
    exact le_yearOf_iff.1 hyear
  have hwall : 86400 * monthStart 1212 ≤ 86400 * z.dayAt date + (hours * 3600 + minutes * 60 + seconds) := by omega
  unfold Zone.combineDateAndTimeInTimezone
  rw [htime]
  dsimp only
  rw [if_neg hvalid, dateUTC_parts (by omega), solved hwall]

/-! ## What the texts are read as -/

theorem digit_plain : ∀ d < 10, isWhitespace (digitChar d) = false ∧ (digitChar d).isDigit = true ∧
    (digitChar d).toNat - 48 = d ∧ digitChar d ≠ '-' ∧ digitChar d ≠ 'T' ∧ digitChar d ≠ '+' ∧ digitChar d ≠ 'Z' ∧
    digitChar d ≠ 'z' := by
  decide

theorem decimal_eq {n : Nat} (h₀ : 1000 ≤ n) (h₁ : n ≤ 9999) : decimal n = padStart 10 4 n := by
  have hdigits : padStart 10 4 n = [digitChar (n / 10 ^ 3 % 10), digitChar (n / 10 ^ 2 % 10),
      digitChar (n / 10 ^ 1 % 10), digitChar (n / 10 ^ 0 % 10)] := rfl
  have d₃ : n / 10 / 10 / 10 = n / 10 ^ 3 % 10 := by omega
  have d₂ : n / 10 / 10 % 10 = n / 10 ^ 2 % 10 := by omega
  have d₁ : n / 10 % 10 = n / 10 ^ 1 % 10 := by omega
  have d₀ : n % 10 = n / 10 ^ 0 % 10 := by omega
  rw [hdigits, ← d₃, ← d₂, ← d₁, ← d₀]
  rw [decimal, if_neg (by omega), decimal, if_neg (by omega), decimal, if_neg (by omega), decimal, if_pos (by omega)]
  rfl

theorem splitOn_of_not_mem {sep : Char} {piece : List Char} (h : sep ∉ piece) : splitOn sep piece = [piece] := by
  induction piece with
  | nil => rfl
  | cons c cs ih =>
    rw [List.mem_cons, not_or] at h
    rw [splitOn, if_neg (Ne.symm h.1), ih h.2]
    rfl

theorem splitOn_append {sep : Char} {piece : List Char} (h : sep ∉ piece) (rest : List Char) :
    splitOn sep (piece ++ sep :: rest) = piece :: splitOn sep rest := by
  induction piece with
  | nil =>
    rw [List.nil_append]
    exact if_pos rfl
  | cons c cs ih =>
    rw [List.mem_cons, not_or] at h
    rw [List.cons_append]
    rw [splitOn, if_neg (Ne.symm h.1), ih h.2]
    rfl

theorem leadingNumber_padStart (width n acc : Nat) :
    leadingNumber acc (padStart 10 width n) = acc * 10 ^ width + n % 10 ^ width := by
  induction width generalizing acc with
  | zero => simp [padStart, leadingNumber, Nat.mod_one]
  | succ width ih =>
    have hd := digit_plain (n / 10 ^ width % 10) (Nat.mod_lt _ (by decide))
    have hmod : n % 10 ^ (width + 1) = n % 10 ^ width + 10 ^ width * (n / 10 ^ width % 10) := Nat.mod_pow_succ
    unfold padStart leadingNumber
    rw [if_pos hd.2.1, hd.2.2.1, ih, hmod]
    ring

theorem parseInt_padStart {width n : Nat} (h : n < 10 ^ (width + 1)) :
    parseInt (padStart 10 (width + 1) n) = some (n : Int) := by
  have hnumber := leadingNumber_padStart (width + 1) n 0
  rw [Nat.zero_mul, Nat.zero_add, Nat.mod_eq_of_lt h] at hnumber
  obtain ⟨hspace, hdigit, -, hminus, -, hplus, -⟩ :=
    digit_plain (n / 10 ^ width % 10) (Nat.mod_lt _ (by decide))
  unfold padStart at hnumber ⊢
  have hunsigned : unsigned (digitChar (n / 10 ^ width % 10) :: padStart 10 width n) = some n := by
    unfold unsigned
    dsimp only
    rw [if_pos hdigit, hnumber]
  unfold parseInt
  rw [List.dropWhile_cons_of_neg (by simp [hspace])]
  split
  · next heq => exact absurd (List.cons.inj heq).1 hminus
  · next heq => exact absurd (List.cons.inj heq).1 hplus
  · rw [hunsigned]
    rfl

theorem matchWallClock_clockText {seconds : Nat} (h : seconds < 86400) :
    matchWallClock (clockText seconds) = some (seconds / 3600, seconds / 60 % 60, seconds % 60) := by
  have hh : seconds / 3600 < 10 ^ 2 := by omega
  have hm : seconds / 60 % 60 < 10 ^ 2 := by omega
  have hs : seconds % 60 < 10 ^ 2 := by omega
  have hlast := readNumber_decimal hs []
  rw [List.append_nil] at hlast
  unfold matchWallClock clockText
  simp only [readNumber_decimal hh, readNumber_decimal hm, hlast, Option.bind_eq_bind, Option.bind_some,
    readChar_cons, List.cons_ne_nil, if_false, if_true]

theorem trim_of_plain {text : List Char} (h : ∀ c ∈ text, isWhitespace c = false) :
    (trim (String.ofList text)).toList = text := by
  have hkeep : ∀ cs : List Char, (∀ c ∈ cs, isWhitespace c = false) → cs.dropWhile isWhitespace = cs := by
    intro cs hcs
    cases cs with
    | nil => rfl
    | cons c cs => exact List.dropWhile_cons_of_neg (by simp [hcs c List.mem_cons_self])
  have hrev : ∀ c ∈ text.reverse, isWhitespace c = false := fun c hc => h c (List.mem_reverse.1 hc)
  unfold trim
  rw [String.toList_ofList, String.toList_ofList, hkeep text h, hkeep _ hrev, List.reverse_reverse]

/-- Four digits around a colon, behind some other character. -/
theorem hasZoneSuffix_of_reverse {text rest : List Char} {d c b a sign : Char} (hd : d.isDigit = true)
    (htext : text.reverse = d :: c :: ':' :: b :: a :: sign :: rest) :
    hasZoneSuffix text = (c.isDigit && b.isDigit && a.isDigit && (sign == '+' || sign == '-')) := by
  have hno : d ≠ 'Z' ∧ d ≠ 'z' := by
    constructor
    · rintro rfl
      cases hd
    · rintro rfl
      cases hd
  unfold hasZoneSuffix
  rw [htext]
  split
  · next heq => exact absurd (List.cons.inj heq).1 hno.1
  · next heq => exact absurd (List.cons.inj heq).1 hno.2
  · next heq =>
    obtain ⟨rfl, htail⟩ := List.cons.inj heq
    obtain ⟨rfl, rfl⟩ := List.cons.inj htail
    rw [readChar_cons, Option.getD_some]
    dsimp only
    rw [hd, Bool.true_and]
  · next hno => exact absurd rfl (hno _ _ _)

theorem padStart_plain {width n : Nat} : ∀ c ∈ padStart 10 width n, isWhitespace c = false ∧ c ≠ '-' ∧ c ≠ 'T' := by
  intro c hc
  obtain ⟨d, hd, rfl⟩ := mem_padStart (by decide) hc
  obtain ⟨h₁, -, -, h₂, h₃, -⟩ := digit_plain d hd
  exact ⟨h₁, h₂, h₃⟩

theorem dayText_eq {d : Int} (h₀ : 1000 ≤ yearOf d) (h₁ : yearOf d ≤ 9999) :
    dayText d = padStart 10 4 (yearOf d).toNat ++ '-' :: (padStart 10 2 (utcMonth d + 1).toNat ++
      '-' :: padStart 10 2 (dayOfMonth d + 1).toNat) := by
  have hyear : 0 ≤ yearOf d ∧ yearOf d ≤ 9999 := by omega
  unfold dayText yearText
  rw [if_pos hyear]

theorem dayText_plain {d : Int} (h₀ : 1000 ≤ yearOf d) (h₁ : yearOf d ≤ 9999) :
    ∀ c ∈ dayText d, isWhitespace c = false ∧ c ≠ 'T' := by
  intro c hc
  rw [dayText_eq h₀ h₁] at hc
  simp only [List.mem_append, List.mem_cons] at hc
  rcases hc with hc | rfl | hc | rfl | hc
  · exact ⟨(padStart_plain c hc).1, (padStart_plain c hc).2.2⟩
  · decide
  · exact ⟨(padStart_plain c hc).1, (padStart_plain c hc).2.2⟩
  · decide
  · exact ⟨(padStart_plain c hc).1, (padStart_plain c hc).2.2⟩

theorem clockText_plain {seconds : Nat} : ∀ c ∈ clockText seconds, isWhitespace c = false ∧ c ≠ 'T' := by
  intro c hc
  unfold clockText at hc
  simp only [List.mem_append, List.mem_cons] at hc
  rcases hc with hc | rfl | hc | rfl | hc
  · exact ⟨(padStart_plain c hc).1, (padStart_plain c hc).2.2⟩
  · decide
  · exact ⟨(padStart_plain c hc).1, (padStart_plain c hc).2.2⟩
  · decide
  · exact ⟨(padStart_plain c hc).1, (padStart_plain c hc).2.2⟩

theorem timeText_plain {ms : Nat} : ∀ c ∈ timeText ms, isWhitespace c = false := by
  intro c hc
  unfold timeText at hc
  simp only [List.mem_append, List.mem_cons] at hc
  rcases hc with hc | rfl | hc
  · exact (clockText_plain c hc).1
  · decide
  · exact (padStart_plain c hc).1

theorem offsetText_plain {offsetMs : Int} : ∀ c ∈ Zone.offsetText offsetMs, isWhitespace c = false := by
  intro c hc
  unfold Zone.offsetText at hc
  simp only [List.mem_append, List.mem_cons] at hc
  rcases hc with rfl | hc | rfl | hc
  · split <;> decide
  · exact (padStart_plain c hc).1
  · decide
  · exact (padStart_plain c hc).1

theorem readOffset_offsetText {offsetMs : Int} (hminutes : offsetMs % 60000 = 0) (hmin : -50400000 ≤ offsetMs)
    (hmax : offsetMs ≤ 50400000) : readOffset (Zone.offsetText offsetMs) = some offsetMs := by
  have hh : offsetMs.natAbs / 3600000 < 10 ^ 2 := by omega
  have hm : offsetMs.natAbs % 3600000 / 60000 < 10 ^ 2 := by omega
  have hlast := readNumber_decimal hm []
  rw [List.append_nil] at hlast
  have hvalid : True ∧ offsetMs.natAbs / 3600000 ≤ 23 ∧ offsetMs.natAbs % 3600000 / 60000 ≤ 59 :=
    ⟨trivial, by omega, by omega⟩
  unfold Zone.offsetText readOffset
  split
  · next heq => cases heq
  · next heq => exact absurd (List.cons.inj heq).2 (by simp)
  · next heq =>
    obtain ⟨hsign, rfl⟩ := List.cons.inj heq
    simp only [readNumber_decimal hh, hlast, readChar_cons, Option.bind_eq_bind, Option.bind_some]
    rw [if_pos hvalid, ← hsign]
    by_cases hpos : 0 ≤ offsetMs
    · rw [if_pos hpos, if_pos rfl]
      congr 1
      omega
    · rw [if_neg hpos, if_neg (by decide), if_pos rfl]
      congr 1
      omega

/-- Date, time and offset of the zone. -/
theorem formatInstantWithOffset_eq {t : Int} (h₀ : 1000 ≤ yearOf (z.dayAt t)) (h₁ : yearOf (z.dayAt t) ≤ 9999) :
    z.formatInstantWithOffset t = dayText (z.dayAt t) ++ 'T' ::
      (timeText (timeOfDay (t + 1000 * z.offsetAt (t / 1000))) ++ Zone.offsetText (1000 * z.offsetAt (t / 1000))) := by
  have hoff := zoneOffsetMsAt_eq (z := z) (t := t) (by omega)
  have hday : utcDay (t + 1000 * z.offsetAt (t / 1000)) = z.dayAt t := by
    unfold utcDay Zone.dayAt Zone.wallOf Zone.wall msPerDay
    omega
  have hsign : ¬yearOf (z.dayAt t) < 0 := by omega
  unfold Zone.formatInstantWithOffset
  dsimp only
  rw [hoff, hday, if_neg hsign, decimal_eq (by omega) (by omega), dayText_eq h₀ h₁]

/-- What is written with its offset is read back. -/
theorem parseDateTimeInput_formatInstantWithOffset {t : Int} (hminutes : z.offsetAt (t / 1000) % 60 = 0)
    (h₀ : 1000 ≤ yearOf (z.dayAt t)) (h₁ : yearOf (z.dayAt t) ≤ 9999) :
    z.parseDateTimeInput (z.formatInstantWithOffset t) = .ok t := by
  obtain ⟨hmin, hmax⟩ := z.bounded (t / 1000)
  have hday : utcDay (t + 1000 * z.offsetAt (t / 1000)) = z.dayAt t := by
    unfold utcDay Zone.dayAt Zone.wallOf Zone.wall msPerDay
    omega
  rw [formatInstantWithOffset_eq h₀ h₁]
  generalize hoff : 1000 * z.offsetAt (t / 1000) = off at hday ⊢
  have hback : midnight (z.dayAt t) + timeOfDay (t + off) - off = t := by
    rw [← hday, midnight_add_timeOfDay]
    omega
  have hrange : -maxTime ≤ t ∧ t ≤ maxTime := by
    have hlow := le_yearOf_iff.1 h₀
    have hhigh : ¬monthStart (12 * 10000) ≤ z.dayAt t := fun h => by
      have := le_yearOf_iff.2 h
      omega
    have hfirst : monthStart (12 * 1000) = -354285 := by decide
    have hlast : monthStart (12 * 10000) = 2932897 := by decide
    rw [hfirst] at hlow
    rw [hlast] at hhigh
    unfold Zone.dayAt Zone.wallOf Zone.wall at hlow hhigh
    unfold maxTime
    omega
  have hzone : readOffset (Zone.offsetText off) = some off :=
    readOffset_offsetText (by omega) (by omega) (by omega)
  have hdate := parseDate_text (d := z.dayAt t) (by omega) (by omega) (timeOfDay_lt (t + off)) hzone
    (by omega) (by omega)
  rw [hback] at hdate
  have hplain : ∀ c ∈ dayText (z.dayAt t) ++ 'T' :: (timeText (timeOfDay (t + off)) ++ Zone.offsetText off),
      isWhitespace c = false := by
    intro c hc
    simp only [List.mem_append, List.mem_cons] at hc
    rcases hc with hc | rfl | hc | hc
    · exact (dayText_plain h₀ h₁ c hc).1
    · decide
    · exact timeText_plain c hc
    · exact offsetText_plain c hc
  have hsuffix : hasZoneSuffix (dayText (z.dayAt t) ++ 'T' ::
      (timeText (timeOfDay (t + off)) ++ Zone.offsetText off)) = true := by
    have digit : ∀ n, (digitChar (n % 10)).isDigit = true := fun n => (digit_plain _ (Nat.mod_lt _ (by decide))).2.1
    have htext : dayText (z.dayAt t) ++ 'T' :: (timeText (timeOfDay (t + off)) ++ Zone.offsetText off) =
        (dayText (z.dayAt t) ++ 'T' :: timeText (timeOfDay (t + off))) ++ Zone.offsetText off := by simp
    rw [htext, hasZoneSuffix_of_reverse (digit _) (by rw [List.reverse_append]; rfl)]
    rw [digit, digit, digit]
    split <;> rfl
  unfold Zone.parseDateTimeInput
  rw [trim_of_plain hplain, if_pos hsuffix, hdate]

/-- The wall clock of an instant without its zone, `YYYY-MM-DDTHH:mm:ss`. -/
def Zone.zonelessText (z : Zone) (t : Int) : List Char :=
  dayText (z.dayAt t) ++ 'T' :: clockText (z.wallOf t % 86400).toNat

/-- A text without a zone is the wall clock on the day that the zone shows at noon UTC. -/
theorem parseDateTimeInput_zonelessText {t : Int} (h₀ : 1000 ≤ yearOf (z.dayAt t)) (h₁ : yearOf (z.dayAt t) ≤ 9999) :
    z.parseDateTimeInput (z.zonelessText t) =
      .ok (1000 * z.solve (86400 * (z.wall (86400 * z.dayAt t + 43200) / 86400) + z.wallOf t % 86400)) := by
  unfold Zone.zonelessText
  obtain ⟨seconds, hseconds⟩ : ∃ n : Nat, z.wallOf t % 86400 = n := ⟨_, (Int.toNat_of_nonneg (by omega)).symm⟩
  have hclock : seconds < 86400 := by omega
  rw [hseconds, Int.toNat_natCast]
  generalize z.dayAt t = d at h₀ h₁
  have hplain : ∀ c ∈ dayText d ++ 'T' :: clockText seconds, isWhitespace c = false := by
    intro c hc
    simp only [List.mem_append, List.mem_cons] at hc
    rcases hc with hc | rfl | hc
    · exact (dayText_plain h₀ h₁ c hc).1
    · decide
    · exact (clockText_plain c hc).1
  have hsuffix : hasZoneSuffix (dayText d ++ 'T' :: clockText seconds) = false := by
    have digit : ∀ n, (digitChar (n % 10)).isDigit = true := fun n => (digit_plain _ (Nat.mod_lt _ (by decide))).2.1
    rw [hasZoneSuffix_of_reverse (digit _) (by rw [List.reverse_append]; rfl)]
    rw [digit, digit, digit]
    rfl
  have hpieces : splitOn 'T' (dayText d ++ 'T' :: clockText seconds) = [dayText d, clockText seconds] := by
    rw [splitOn_append fun h => (dayText_plain h₀ h₁ _ h).2 rfl, splitOn_of_not_mem fun h => (clockText_plain _ h).2 rfl]
  have hnumbers : (splitOn '-' (dayText d)).map parseInt =
      [some (yearOf d), some (utcMonth d + 1), some (dayOfMonth d + 1)] := by
    have hm := utcMonth_bounds d
    have hdom := dayOfMonth_bounds d
    rw [dayText_eq h₀ h₁, splitOn_append fun h => (padStart_plain _ h).2.1 rfl,
      splitOn_append fun h => (padStart_plain _ h).2.1 rfl, splitOn_of_not_mem fun h => (padStart_plain _ h).2.1 rfl]
    rw [List.map_cons, List.map_cons, List.map_cons, List.map_nil, parseInt_padStart (by omega),
      parseInt_padStart (by omega), parseInt_padStart (by omega), Int.toNat_of_nonneg (by omega),
      Int.toNat_of_nonneg (by omega), Int.toNat_of_nonneg (by omega)]
  have htake : (clockText seconds).take 8 = clockText seconds := rfl
  have hera : intlYear (yearOf d) = yearOf d := if_pos (by omega)
  have hnoon : dateUTC (yearOf d) (utcMonth d + 1) (dayOfMonth d + 1) 43200 = 86400 * d + 43200 := by
    have := dateUTC_parts (d := d) (by omega) 43200
    rwa [hera] at this
  have hanchor : z.dayAt (1000 * (86400 * d + 43200)) = z.wall (86400 * d + 43200) / 86400 := by
    unfold Zone.dayAt Zone.wallOf
    rw [Int.mul_ediv_cancel_left _ (by decide)]
  have hyear : 101 ≤ yearOf (z.dayAt (1000 * (86400 * d + 43200))) := by
    have hlow := le_yearOf_iff.1 h₀
    have hfirst : monthStart (12 * 1000) = -354285 := by decide
    have hearly : monthStart (12 * 101) = -682638 := by decide
    have hb := z.bounded (86400 * d + 43200)
    rw [hfirst] at hlow
    rw [hanchor, le_yearOf_iff, hearly]
    unfold Zone.wall
    omega
  have hm := utcMonth_bounds d
  have hdom := dayOfMonth_bounds d
  have hvalid : ¬(yearOf d = 0 ∨ utcMonth d + 1 = 0 ∨ dayOfMonth d + 1 = 0) := by omega
  have hcombined := combineDateAndTimeInTimezone_eq (matchWallClock_clockText hclock) (by omega) (by omega) (by omega)
    hyear
  have hsum : ((seconds / 3600 : Nat) : Int) * 3600 + ((seconds / 60 % 60 : Nat) : Int) * 60 +
      ((seconds % 60 : Nat) : Int) = seconds := by omega
  rw [hsum, hanchor] at hcombined
  have hparts : dateParts (dayText d) = some (yearOf d, utcMonth d + 1, dayOfMonth d + 1) := by
    unfold dateParts
    rw [hnumbers]
    exact if_neg hvalid
  unfold Zone.parseDateTimeInput
  rw [trim_of_plain hplain]
  dsimp only
  rw [hsuffix, if_neg Bool.false_ne_true, hpieces]
  dsimp only [List.getElem?_cons_zero, List.getElem?_cons_succ, Option.getD_some]
  rw [hparts, htake]
  dsimp only
  rw [hnoon]
  exact hcombined

end

end Kernel
