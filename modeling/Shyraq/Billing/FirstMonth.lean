import Shyraq.Billing.RefundableDays
import Shyraq.Transactions.Serial

/-!
# The days of the first month

The first invoice is for the rest of the month in which a child is enrolled.  The month is the local one, the days are
the rounded distance to its last midnight, and the holidays are looked up from the UTC day on.  So the day of the
enrolment is billed until noon UTC only, and after 19:00 UTC a holiday of the day before is taken off.
-/

namespace Billing

open Kernel Transactions

/-- The last day of the local month. -/
def lastOfMonth (t : Int) : Int := endOfMonth (firstOfMonthInTimezone t)

def daysOfMonth (t : Int) : Int := lastOfMonth t - firstOfMonthInTimezone t + 1

/-- The days that a first invoice bills; without a pro-ration they are the whole month. -/
def daysBilled (enrollmentDate : Int) (i : Invoice) : Int := i.proratedForDays.getD (daysOfMonth enrollmentDate)

/-- The local days from the enrolment to the end of its month, less the holidays among them. -/
structure BillsRestOfMonth (s : Store) (enrollmentDate days : Int) : Prop where
  rest : days = lastOfMonth enrollmentDate - formatDateInTimezone enrollmentDate + 1 -
    s.nonBillableInRange (formatDateInTimezone enrollmentDate) (lastOfMonth enrollmentDate)
  nonneg : 0 ≤ days
  le_month : days ≤ daysOfMonth enrollmentDate

/-- Until noon UTC; or the local day is the next one and the UTC day no holiday; or nothing is left to bill. -/
def Store.EnrolledInTime (s : Store) (enrollmentDate : Int) : Prop :=
  2 * (enrollmentDate % msPerDay) ≤ msPerDay ∨
  (msPerDay ≤ enrollmentDate % msPerDay + almatyOffsetMs ∧ s.nonBillableOn (utcDay enrollmentDate) = false) ∨
  s.billableDaysIn (formatDateInTimezone enrollmentDate) (lastOfMonth enrollmentDate) = ∅

instance (s : Store) (t : Int) : Decidable (s.EnrolledInTime t) := inferInstanceAs (Decidable (_ ∨ _ ∨ _))

/-! ## The month of an instant -/

theorem lastOfMonth_bounds (t : Int) :
    firstOfMonthInTimezone t ≤ formatDateInTimezone t ∧ formatDateInTimezone t ≤ lastOfMonth t := by
  obtain ⟨hstart, hend⟩ := monthOf_spec (formatDateInTimezone t)
  unfold lastOfMonth firstOfMonthInTimezone
  rw [endOfMonth_monthStart]
  omega

theorem daysOfMonth_eq (t : Int) :
    daysBetweenInclusive (midnight (firstOfMonthInTimezone t)) (midnight (lastOfMonth t)) = daysOfMonth t := by
  unfold daysBetweenInclusive midnight daysOfMonth msPerDay
  omega

/-- The distance is rounded: half a day more, and the day of the enrolment is not counted. -/
theorem daysBetween_lastOfMonth (t d : Int) : daysBetweenInclusive t (midnight d) =
      if 2 * (t % msPerDay) ≤ msPerDay then d - utcDay t + 1 else d - utcDay t := by
  have hsplit := Int.mul_ediv_add_emod t msPerDay
  have hnonneg := Int.emod_nonneg t (show msPerDay ≠ 0 by decide)
  have hlt := Int.emod_lt_of_pos t (show 0 < msPerDay by decide)
  unfold daysBetweenInclusive midnight utcDay
  generalize hu : t / msPerDay = u at hsplit
  generalize hτ : t % msPerDay = τ at hsplit hnonneg hlt
  unfold msPerDay at *
  split
  · omega
  · omega

theorem formatDateInTimezone_eq (t : Int) :
    formatDateInTimezone t = if msPerDay ≤ t % msPerDay + almatyOffsetMs then utcDay t + 1 else utcDay t := by
  unfold formatDateInTimezone utcDay almatyOffsetMs msPerDay
  split
  · omega
  · omega

/-! ## What the service bills -/

section

variable {s s' : Store}

theorem daysBilled_newMonthlyInvoice (id accountId : Nat) (now t : Int) (args : InvoiceService.GenerateArgs)
    (discount : DiscountEngine.Result) (htotal : args.totalDays = daysOfMonth t) :
    daysBilled t (InvoiceService.newMonthlyInvoice id accountId now args discount) =
      max 0 (args.proratedBillableDays.getD args.totalDays - args.nonBillableHolidays) := by
  have hpos : 0 < daysOfMonth t := by
    obtain ⟨hstart, hend⟩ := lastOfMonth_bounds t
    unfold daysOfMonth
    omega
  unfold daysBilled
  show (InvoiceService.prorated args).getD _ = _
  unfold InvoiceService.prorated
  dsimp only
  split
  · rfl
  · next hfull =>
    have hfull := Decidable.not_not.1 fun hne => hfull ⟨hne, by omega⟩
    exact htotal.symm.trans hfull.symm

theorem state_of_require {A : Type} {o : Option A} {e : BillingError} {a : A} (h : (require o e).Yields s a s') : s' = s := by
  cases o with
  | none => exact h.elim
  | some b => exact h.2

theorem yields_generateAndPersistInvoice {now : Int} {args : InvoiceService.GenerateArgs} {i : Invoice}
    (h : (InvoiceService.generateAndPersistInvoice now args).Yields s i s') :
    ∃ id accountId discount, i = InvoiceService.newMonthlyInvoice id accountId now args discount := by
  unfold InvoiceService.generateAndPersistInvoice at h
  obtain ⟨account, _, -, h⟩ := Prog.yields_bind.1 h
  obtain ⟨custom, _, -, h⟩ := Prog.yields_bind.1 h
  obtain ⟨_, _, -, h⟩ := Prog.yields_bind.1 h
  obtain ⟨id, _, -, h⟩ := Prog.yields_bind.1 h
  obtain ⟨lineId, _, -, h⟩ := Prog.yields_bind.1 h
  obtain ⟨_, _, -, h⟩ := Prog.yields_bind.1 h
  obtain ⟨_, _, -, h⟩ := Prog.yields_bind.1 h
  obtain ⟨persisted, _, hcreate, h⟩ := Prog.yields_bind.1 h
  obtain ⟨_, _, -, h⟩ := Prog.yields_bind.1 h
  obtain ⟨_, _, -, rfl, -⟩ := Prog.yields_bind.1 h
  obtain ⟨_, _, -, hcreate⟩ := Prog.yields_bind.1 hcreate
  obtain ⟨_, _, -, rfl, -⟩ := Prog.yields_bind.1 hcreate
  exact ⟨id, account.id, _, rfl⟩

/-- The days are counted from the UTC instant and the holidays from its UTC day. -/
theorem daysBilled_of_yields {now : Int} {childId : Nat} {t : Int} {i : Invoice}
    (h : (InvoiceService.generateFirstInvoice now childId t).Yields s i s') :
    daysBilled t i = max 0 (daysBetweenInclusive t (midnight (lastOfMonth t)) -
      s.nonBillableInRange (utcDay t) (lastOfMonth t)) := by
  unfold InvoiceService.generateFirstInvoice at h
  obtain ⟨_, _, ⟨-, rfl⟩, h₁⟩ := Prog.yields_bind.1 h
  obtain ⟨assignment, _, hrequire₁, h₂⟩ := Prog.yields_bind.1 h₁
  obtain rfl := state_of_require hrequire₁
  obtain ⟨_, _, ⟨-, rfl⟩, h₃⟩ := Prog.yields_bind.1 h₂
  obtain ⟨plan, _, hrequire₂, h₄⟩ := Prog.yields_bind.1 h₃
  obtain rfl := state_of_require hrequire₂
  obtain ⟨_, _, ⟨rfl, rfl⟩, h₅⟩ := Prog.yields_bind.1 h₄
  obtain ⟨id, accountId, discount, rfl⟩ := yields_generateAndPersistInvoice h₅
  exact daysBilled_newMonthlyInvoice id accountId now t _ discount (daysOfMonth_eq t)

theorem nonBillableInRange_first (hs : s.HolidayDates) {a b : Int} (h : a ≤ b) :
    s.nonBillableInRange a b = s.nonBillableInRange (a + 1) b + if s.nonBillableOn a = true then 1 else 0 := by
  have hsplit := card_billableDaysIn_split (s := s) (a := a) (d := a) (b := b) (by omega) h
  have h₁ := card_billableDaysIn hs (a := a) (b := b) (by omega)
  have h₂ := card_billableDaysIn hs (a := a + 1) (b := b) (by omega)
  have hone : s.billableDaysIn a a = if s.nonBillableOn a = false then {a} else ∅ := by
    unfold Store.billableDaysIn
    rw [Finset.Icc_self, Finset.filter_singleton]
  cases hday : s.nonBillableOn a with
  | true =>
    rw [hone, if_neg (by rw [hday]; decide), Finset.card_empty] at hsplit
    rw [if_pos rfl]
    omega
  | false =>
    rw [hone, if_pos hday, Finset.card_singleton] at hsplit
    rw [if_neg Bool.false_ne_true]
    omega

/-- What is billed is the rest of the month when it is as many as the billable days of it. -/
theorem billsRestOfMonth_iff_card (hs : s.HolidayDates) (t days : Int) : BillsRestOfMonth s t days ↔
      days = ((s.billableDaysIn (formatDateInTimezone t) (lastOfMonth t)).card : Int) := by
  obtain ⟨hfirst, hlast⟩ := lastOfMonth_bounds t
  have hcard := card_billableDaysIn hs (a := formatDateInTimezone t) (b := lastOfMonth t) (by omega)
  have hholidays := nonBillableInRange_eq hs (formatDateInTimezone t) (lastOfMonth t)
  constructor
  · intro h
    rw [h.rest]
    omega
  · intro h
    refine ⟨by omega, by omega, ?_⟩
    unfold daysOfMonth
    omega

/-- **The days of a first invoice.**  They are the rest of the local month, holidays excepted, exactly when the child
is enrolled until noon UTC, or in the hours that are the next local day and the UTC day is no holiday, or when no day
is left to bill. -/
theorem billsRestOfMonth_iff {now : Int} {childId : Nat} {t : Int} {ids : List Nat} {i : Invoice}
    {tx : Tx Store Key Write} (hs : s.HolidayDates)
    (h : (InvoiceService.generateFirstInvoice now childId t).alone s ids Tx.start = some (.ok (i, tx))) :
    BillsRestOfMonth s t (daysBilled t i) ↔ s.EnrolledInTime t := by
  have hdays := daysBilled_of_yields (Prog.yields_of_alone h)
  rw [Tx.view_start, daysBetween_lastOfMonth] at hdays
  rw [billsRestOfMonth_iff_card hs, hdays]
  obtain ⟨hfirst, hlast⟩ := lastOfMonth_bounds t
  have hzone := formatDateInTimezone_eq t
  have hcard := card_billableDaysIn hs (a := formatDateInTimezone t) (b := lastOfMonth t) (by omega)
  unfold Store.EnrolledInTime
  rw [← Finset.card_eq_zero]
  by_cases hnoon : 2 * (t % msPerDay) ≤ msPerDay
  · -- the same day in both zones
    have hday : formatDateInTimezone t = utcDay t := by
      rw [hzone, if_neg]
      unfold msPerDay almatyOffsetMs at *
      omega
    rw [if_pos hnoon]
    rw [hday] at hcard ⊢
    exact iff_of_true (by omega) (.inl hnoon)
  · rw [if_neg hnoon]
    by_cases hnext : msPerDay ≤ t % msPerDay + almatyOffsetMs
    · rw [if_pos hnext] at hzone
      have hholiday := nonBillableInRange_first hs (a := utcDay t) (b := lastOfMonth t) (by omega)
      rw [hzone] at hcard ⊢
      cases hon : s.nonBillableOn (utcDay t) with
      | true =>
        rw [hon, if_pos rfl] at hholiday
        constructor
        · intro heq
          exact .inr (.inr (by omega))
        · rintro (hno | ⟨-, hno⟩ | hzero)
          · exact absurd hno hnoon
          · cases hno
          · omega
      | false =>
        rw [hon, if_neg Bool.false_ne_true] at hholiday
        exact iff_of_true (by omega) (.inr (.inl ⟨hnext, rfl⟩))
    · -- the day of the enrolment is rounded away
      rw [if_neg hnext] at hzone
      rw [hzone] at hcard ⊢
      constructor
      · intro heq
        exact .inr (.inr (by omega))
      · rintro (hno | ⟨hno, -⟩ | hzero)
        · exact absurd hno hnoon
        · exact absurd hno hnext
        · omega

end

/-! ## An afternoon -/

/-- A child with a tariff and an account; day 9 is a holiday. -/
def Store.enrolled : Store :=
  { Store.empty with
    reference :=
      { children := [⟨1, .active, 0, none⟩]
        childGuardians := []
        tariffPlans := [⟨5, .monthly, 3100000, true, 0, none, ⟨none, none, none, none, none⟩⟩]
        tariffAssignments := [⟨6, 1, 5, none, 0, none⟩]
        holidays := [⟨9, false⟩]
        admins := [90] }
    accounts := [⟨10, 1, 0⟩] }

/-- Enrolled on the first of January at 18:00, 13:00 UTC: thirty days are left and 29 are billed. -/
theorem afternoon_not_billsRestOfMonth : Store.enrolled.HolidayDates ∧ ∃ i tx,
    (InvoiceService.generateFirstInvoice 46800000 1 46800000).alone Store.enrolled [20, 21] Tx.start =
      some (.ok (i, tx)) ∧
    daysBilled 46800000 i = 29 ∧ ¬BillsRestOfMonth Store.enrolled 46800000 (daysBilled 46800000 i) := by
  obtain ⟨i, tx, hrun⟩ : ∃ i tx, (InvoiceService.generateFirstInvoice 46800000 1 46800000).alone Store.enrolled
      [20, 21] Tx.start = some (.ok (i, tx)) := Prog.alone_shows (by decide +kernel)
  have hdays : daysBilled 46800000 i = 29 := by
    rw [daysBilled_of_yields (Prog.yields_of_alone hrun)]
    decide
  refine ⟨by decide, i, tx, hrun, hdays, fun h => ?_⟩
  have hrest := h.rest
  rw [hdays] at hrest
  exact absurd hrest (by decide)

/-- Enrolled on the first of January at 14:00, 09:00 UTC. -/
theorem billsRestOfMonth_iff_morning : ∃ i tx,
    (InvoiceService.generateFirstInvoice 32400000 1 32400000).alone Store.enrolled [20, 21] Tx.start =
      some (.ok (i, tx)) ∧ BillsRestOfMonth Store.enrolled 32400000 (daysBilled 32400000 i) := by
  obtain ⟨i, tx, hrun⟩ : ∃ i tx, (InvoiceService.generateFirstInvoice 32400000 1 32400000).alone Store.enrolled
      [20, 21] Tx.start = some (.ok (i, tx)) := Prog.alone_shows (by decide +kernel)
  exact ⟨i, tx, hrun, (billsRestOfMonth_iff (by decide) hrun).2 (.inl (by decide))⟩

end Billing
