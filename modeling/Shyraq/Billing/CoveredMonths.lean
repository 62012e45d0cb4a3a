import Shyraq.Billing.Outcomes
import Shyraq.Billing.SettledMonths

/-!
# The monthly run against the settlement of prepayments

Either the run reads the prepayment as paid and passes the child over, or the settlement reads the
monthly and cancels it: the lock of the month decides which.  A window that begins in the middle
of a month can end in a month that the settlement does not lock, and there both may miss.
-/

namespace Billing

open Kernel Transactions

/-! ## Clashes -/

/-- A live monthly without a completed payment. -/
structure Unsettled (s : Store) (m : Invoice) : Prop where
  live : m.status.live = true
  broke : s.hasMoney m.id = false

/-- A paid prepayment over the month of a monthly on which nothing was paid. -/
structure Clashes (s : Store) (p m : Invoice) : Prop where
  prepayment : p ∈ s.invoices
  monthly : m ∈ s.invoices
  isPrepayment : p.invoiceType.isPrepayment = true
  paid : p.status = .paid
  overlaps : p.Overlaps m
  unsettled : Unsettled s m

/-- A monthly that is amiss already: it clashes, or is marked as paid with no payment. -/
def Stray (s : Store) (id : Nat) : Prop :=
  ∃ m, s.invoice? id = some m ∧ Unsettled s m ∧
    (m.status = .paid ∨ m.status = .partial_ ∨ ∃ p, Clashes s p m)

/-- Clashes are on old monthlies only. -/
def ClashFree (old : Nat → Prop) (s : Store) : Prop := ∀ p m, Clashes s p m → old m.id

instance (p m : Invoice) : Decidable (p.Overlaps m) :=
  decidable_of_iff (m.invoiceType = .monthly ∧ m.childId = p.childId ∧
      m.periodStart = monthStart (monthOf m.periodStart) ∧ p.covers m.periodStart)
    ⟨fun ⟨h₁, h₂, h₃, h₄⟩ => ⟨h₁, h₂, h₃, h₄⟩, fun ⟨h₁, h₂, h₃, h₄⟩ => ⟨h₁, h₂, h₃, h₄⟩⟩

instance (s : Store) (m : Invoice) : Decidable (Unsettled s m) :=
  decidable_of_iff (m.status.live = true ∧ s.hasMoney m.id = false)
    ⟨fun ⟨h₁, h₂⟩ => ⟨h₁, h₂⟩, fun ⟨h₁, h₂⟩ => ⟨h₁, h₂⟩⟩

instance (s : Store) (p m : Invoice) : Decidable (Clashes s p m) :=
  decidable_of_iff (p ∈ s.invoices ∧ m ∈ s.invoices ∧ p.invoiceType.isPrepayment = true ∧ p.status = .paid ∧
      p.Overlaps m ∧ Unsettled s m)
    ⟨fun ⟨h₁, h₂, h₃, h₄, h₅, h₆⟩ => ⟨h₁, h₂, h₃, h₄, h₅, h₆⟩,
      fun ⟨h₁, h₂, h₃, h₄, h₅, h₆⟩ => ⟨h₁, h₂, h₃, h₄, h₅, h₆⟩⟩

instance (s : Store) : DecidablePred (Stray s) := fun id =>
  decidable_of_iff (∃ m ∈ s.invoice? id, Unsettled s m ∧
      (m.status = .paid ∨ m.status = .partial_ ∨ ∃ p ∈ s.invoices, Clashes s p m))
    ⟨fun ⟨m, hm, hu, h⟩ => ⟨m, hm, hu, h.imp_right fun h => h.imp_right fun ⟨p, _, hp⟩ => ⟨p, hp⟩⟩,
      fun ⟨m, hm, hu, h⟩ => ⟨m, hm, hu, h.imp_right fun h => h.imp_right fun ⟨p, hp⟩ => ⟨p, hp.prepayment, hp⟩⟩⟩

instance (old : Nat → Prop) [DecidablePred old] : DecidablePred (ClashFree old) := fun s =>
  decidable_of_iff (∀ p ∈ s.invoices, ∀ m ∈ s.invoices, Clashes s p m → old m.id)
    ⟨fun h p m hc => h p hc.prepayment m hc.monthly hc, fun h p _ m _ hc => h p m hc⟩

/-! ## The requests -/

/-- The requests that settle, cancel or flag. -/
def Op.Settles : Op → Prop
  | deliver .. | initiate .. | manualMarkPaid .. | cancel .. | markOverdue _ => True
  | _ => False

/-- These, and the monthly run. -/
def Op.Months : Op → Prop
  | generateMonthly .. => True
  | op => op.Settles

theorem Op.Settles.movesMoney {op : Op} (h : op.Settles) : op.MovesMoney := by
  cases op <;> first
    | exact h
    | exact h.elim

/-- What the run inserts. -/
def BilledFor (periodStart : Int) (covered : List Nat) (i : Invoice) : Prop :=
  i.invoiceType = .monthly ∧ i.periodStart = periodStart ∧ i.status = .pending ∧ i.childId ∉ covered

/-- The run has passed over the children that are covered when it commits. -/
structure Billed (periodStart : Int) (t : Tx Store Key Write) (s : Store) : Prop where
  lock : Key.monthly (monthOf periodStart) ∈ t.held
  writes : ∃ covered, Tx.Extends (Creates (BilledFor periodStart covered)) .start t ∧
    ∀ i p, s.invoice? i = some p → p.invoiceType.isPrepayment = true → p.status = .paid →
      p.covers periodStart → periodStart = monthStart (monthOf periodStart) → p.childId ∈ covered

inductive MonthOutcome (old : Nat → Prop) (t : Tx Store Key Write) (s : Store) : Op → Answer → Prop
  | settled {op a} (hop : op.Settles) (h : Outcome monthLocks t s op a) (hsup : Supersedes old t s) :
      MonthOutcome old t s op a
  | billed {now periodStart a} (h : Billed periodStart t s) :
      MonthOutcome old t s (.generateMonthly now periodStart) a

variable {D : Discipline Store Key Write} {J : Store → Prop} {X : BillingError → Prop}
  {old : Nat → Prop} {t t' : Tx Store Key Write} {s s' : Store} {op : Op} {a : Answer}

/-! ### The monthly run -/

/-- The children whose prepayments cover the period, as the run reads them. -/
def CoveredBy (periodStart : Int) (covered : List Nat) (s : Store) : Prop :=
  ∀ i p, s.invoice? i = some p → p.invoiceType.isPrepayment = true → p.status = .paid →
    p.covers periodStart → periodStart = monthStart (monthOf periodStart) → p.childId ∈ covered

theorem keep_coveredBy {held : List Key} {periodStart : Int} {covered : List Nat}
    (hk : Key.monthly (monthOf periodStart) ∈ held) (hm : MonthMoves held s s')
    (h : CoveredBy periodStart covered s) : CoveredBy periodStart covered s' := by
  intro i p hp ht hpaid hcov hfirst
  obtain ⟨p₀, hp₀, hpaid₀⟩ := hm.settled _ hk i p hp ht hpaid (by rwa [← hfirst])
  obtain ⟨p', hp', hs, -⟩ := hm.invoices.row i p₀ hp₀
  obtain rfl := Option.some.inj (hp'.symm.trans hp)
  rw [hs.covers] at hcov
  rw [hs.1] at ht ⊢
  exact h i p₀ hp₀ ht hpaid₀ hcov hfirst

theorem coveredBy_read {periodStart : Int} : CoveredBy periodStart (((s.invoices.filter fun i =>
      i.invoiceType.isPrepayment && i.status == .paid && decide (i.periodStart ≤ periodStart) &&
      decide (periodStart ≤ i.periodEnd)).map Invoice.childId).dedup) s := by
  intro i p hp ht hpaid hcov _
  rw [List.mem_dedup]
  refine List.mem_map_of_mem (List.mem_filter.2 ⟨Table.mem_of_find hp, ?_⟩)
  simp [ht, hpaid, hcov.1, hcov.2]

theorem safe_generateMonthly (M : MonthSetting D J X old) (now periodStart : Int) :
    Prog.Safe D J X (fun t s _ => Billed periodStart t s)
      (InvoiceService.generateMonthly now periodStart) .start s := by
  have nothing : ∀ {t : Tx Store Key Write} {s}, t.writes = [] → Key.monthly (monthOf periodStart) ∈ t.held →
      CoveredBy periodStart (s.invoices.map Invoice.childId) s → Billed periodStart t s := by
    intro t s hw hk hc
    exact ⟨hk, _, .of_start (by rw [hw]; simp), hc⟩
  have all : ∀ s : Store, CoveredBy periodStart (s.invoices.map Invoice.childId) s :=
    fun s i p hp _ _ _ _ => List.mem_map_of_mem (Table.mem_of_find hp)
  unfold InvoiceService.generateMonthly
  refine Prog.Safe.acquire fun s₁ _ _ => Prog.Safe.query fun s₂ _ _ => ?_
  split
  · exact fun s' _ _ => nothing rfl List.mem_cons_self (all s')
  refine Prog.Safe.query fun s₃ _ _ => ?_
  split
  · exact fun s' _ _ => nothing rfl List.mem_cons_self (all s')
  refine Prog.Safe.query fun s₄ _ _ => Prog.Safe.query fun s₅ _ hj₅ => ?_
  generalize hc : @List.dedup Nat _ _ = covered
  have hread : CoveredBy periodStart covered s₅ := by
    rw [← hc]
    exact coveredBy_read
  refine Prog.Safe.keep (CoveredBy periodStart covered) [.monthly (monthOf periodStart)]
    (List.cons_subset.2 ⟨List.mem_cons_self, List.nil_subset _⟩)
    (fun _ _ hr _ _ h => keep_coveredBy List.mem_cons_self (M.months hr) h) hj₅ hread ?_
  have hbill : ∀ as stop days holidays, Prog.OnlyWrites (Creates (BilledFor periodStart covered))
      (InvoiceService.billAssignments (InvoiceService.billAssignment now periodStart stop days holidays
        covered) as) := by
    intro as stop days holidays
    refine InvoiceService.creates_billAssignments (fun a => ?_) as
    exact InvoiceService.creates_billAssignment _ _ _ _ _ _ _ fun hnot _ _ _ _ => ⟨rfl, rfl, rfl, hnot⟩
  refine (Prog.Safe.of_onlyWrites (hbill _ _ _ _) M.throws ⟨hj₅, hread⟩).mono ?_
  rintro t' s' _ hj' ⟨he, -⟩
  refine ⟨he.held List.mem_cons_self, covered, .of_start fun w hmem => ?_, hj'.2⟩
  obtain ⟨ws, hw, hws⟩ := he.writes
  rw [hw] at hmem
  exact hws w (by simpa [Tx.start] using hmem)

theorem creates_row_before {φ : Invoice → Prop} (he : Tx.Extends (Creates φ) .start t) {i : Nat}
    {m : Invoice} (h : (t.view s).invoice? i = some m) : s.invoice? i = some m ∨ φ m := by
  obtain ⟨ws, hw, hws⟩ := he.writes
  rw [view_of_writes hw, Tx.view_start] at h
  clear hw he
  induction ws generalizing s with
  | nil => exact .inl h
  | cons w ws ih =>
    rcases ih (s := s.apply w) h fun w' hw' => hws w' (List.mem_cons_of_mem _ hw') with h | h
    · have hcr := hws w List.mem_cons_self
      cases w with
      | insertInvoice j =>
        have h : Table.find (if s.admitsInvoice j then s.invoices ++ [j] else s.invoices) i = some m := h
        split at h
        · rw [Table.find_append, Option.or_eq_some_iff] at h
          rcases h with h | ⟨-, h⟩
          · exact .inl h
          · split at h
            · obtain rfl := Option.some.inj h
              exact .inr hcr
            · cases h
        · exact .inl h
      | markInvoice j f => exact hcr.elim
      | _ => exact .inl h
    · exact .inr h

/-! ### The rows -/

/-- What these requests leave of the rows: completed payments stay, an invoice is new as a pending
monthly, and one that comes to be marked as paid holds money. -/
structure Shows (s s' : Store) : Prop where
  completed : ∀ i q, s.payment? i = some q → q.status = .completed → s'.payment? i = some q
  invoices : ∀ i m', s'.invoice? i = some m' → (∃ m, s.invoice? i = some m ∧ Invoice.Step m m') ∨
    (m'.invoiceType = .monthly ∧ m'.status = .pending)
  shown : ∀ i m', s'.invoice? i = some m' → (m'.status = .paid ∨ m'.status = .partial_) →
    (∃ m, s.invoice? i = some m ∧ Invoice.Step m m' ∧ m.status = m'.status) ∨ s'.hasMoney i = true

theorem Shows.money (h : Shows s s') (hs : s.WF) {id : Nat} (hm : s.hasMoney id = true) :
    s'.hasMoney id = true :=
  hasMoney_of_rows hs.paymentIds (fun i q hq hst => ⟨q, h.completed i q hq hst, rfl, hst⟩) hm

theorem Shows.keeps_shown (h : Shows s s') (hs : s.WF) (hold : Shown old s) : Shown old s' := by
  intro i m' hi htype hst
  rcases h.shown i m' hi hst with ⟨m, hm, hstep, heq⟩ | hmoney
  · rw [hstep.1] at htype
    rw [← heq] at hst
    exact (hold i m hm htype hst).imp_left fun h' => h.money hs h'
  · exact .inl hmoney

theorem Shows.keeps_anchorage (h : Shows s s') (ha : Anchorage s) : Anchorage s' := by
  intro i p' hi htype hunpaid
  rcases h.invoices i p' hi with ⟨p, hp, hstep⟩ | ⟨hmonthly, -⟩
  · have hu : p.status.unpaid = true := by
      by_contra hnot
      rw [unpaid_of_reaches hstep.2 (by simpa using hnot)] at hunpaid
      cases hunpaid
    rw [hstep.1] at htype
    exact Anchored.of_step (ha i p hp htype hu) hstep
  · rw [hmonthly] at htype
    cases htype

theorem Shows.of_invoices (hinv : s'.invoices = s.invoices)
    (hpay : ∀ i q, s.payment? i = some q → q.status = .completed → s'.payment? i = some q) : Shows s s' where
  completed := hpay
  invoices i m' hi := by
    unfold Store.invoice? at hi ⊢
    rw [hinv] at hi
    exact .inl ⟨m', hi, .refl m'⟩
  shown i m' hi _ := by
    unfold Store.invoice? at hi ⊢
    rw [hinv] at hi
    exact .inl ⟨m', hi, .refl m', rfl⟩

theorem Shows.of_flips {l : List Invoice} {id : Nat} {flip : Option InvoiceFlip}
    (hf : Flips s.invoices l id flip) (hv : Table.Rewrites Invoice.Voided l s'.invoices) (hm : s'.hasMoney id = true)
    (hpay : ∀ i q, s.payment? i = some q → q.status = .completed → s'.payment? i = some q) : Shows s s' where
  completed := hpay
  invoices i m' hi := .inl ((hf.rewrites_voided hv).row_before hi)
  shown i m' hi hst := by
    by_cases hid : i = id
    · exact .inr (hid ▸ hm)
    left
    obtain ⟨m, hl, hvd⟩ := hv.row_before hi
    have hs : s.invoice? i = some m := by
      cases flip with
      | none =>
        rw [show l = s.invoices from hf] at hl
        exact hl
      | some f =>
        obtain ⟨r, -, hr⟩ := hf
        exact (hr.find_of_ne hid).symm.trans hl
    refine ⟨m, hs, hvd.step, ?_⟩
    rcases hvd with rfl | ⟨-, -, rfl⟩
    · rfl
    · rcases hst with hst | hst <;> cases hst

theorem Shows.of_reflagged {f : InvoiceFlip} (h : Reflagged f t s) (hf : f = .cancelled ∨ ∃ d, f = .overdue d) :
    Shows s (t.view s) where
  completed i q hq _ := by
    unfold Store.payment?
    rw [h.payments]
    exact hq
  invoices i m' hi := .inl ((h.invoices.mono fun _ _ h => h.step).row_before hi)
  shown i m' hi hst := by
    obtain ⟨m, hm, hfl⟩ := h.invoices.row_before hi
    refine .inl ⟨m, hm, hfl.step, ?_⟩
    rcases hfl with rfl | ⟨-, rfl⟩
    · rfl
    · rcases hf with rfl | ⟨d, rfl⟩ <;> rcases hst with hst | hst <;> cases hst

theorem hasMoney_of_row {i : Nat} {q : Payment} (h : s.payment? i = some q) (hst : q.status = .completed) :
    s.hasMoney q.invoiceId = true := hasMoney_iff.2 ⟨q, Table.mem_of_find h, rfl, hst⟩

theorem Payment.Recalled.completed {p p' : Payment} (h : Payment.Recalled p p') (hst : p.status = .completed) :
    p' = p := by
  rcases h with rfl | ⟨hin, -⟩
  · rfl
  · rw [hst] at hin
    cases hin

theorem completed_of_replaced {id : Nat} {p p' : Payment}
    (h : Table.Replaced s.payments s'.payments id p p') (hin : p.status.inFlight = true) (i : Nat)
    (q : Payment) (hq : s.payment? i = some q) (hst : q.status = .completed) : s'.payment? i = some q := by
  have hne : i ≠ id := by
    rintro rfl
    obtain rfl := Option.some.inj (h.before.symm.trans hq)
    rw [hst] at hin
    cases hin
  exact (h.find_of_ne hne).trans hq

theorem Outcome.shows (hop : op.Settles) (h : Outcome D t s op a) : Shows s (t.view s) := by
  have untouched : t.view s = s → Shows s (t.view s) := by
    intro he
    rw [he]
    exact .of_invoices rfl fun _ _ h _ => h
  have opening : ∀ {p}, Opening t s p → ∀ i q, s.payment? i = some q → q.status = .completed →
      (t.view s).payment? i = some q := by
    intro p hopen i q hq hst
    obtain ⟨-, q', hq', hr⟩ := hopen.row hq
    rw [hr.completed hst] at hq'
    exact hq'
  cases h with
  | delivered h =>
    cases h with
    | noted h => exact untouched (view_of_touches h.1 s)
    | completed p p' invoice paidSum flip hs hp h =>
      obtain ⟨t₁, txn, paidAt, v₁, v₂, v₃, hw, hseen, hset⟩ := h.settled
      obtain ⟨l, hf, hv⟩ := hset.invoices
      have hid : invoice.id = p'.invoiceId := hset.id.trans h.step.invoiceId.symm
      refine .of_flips hf hv ?_ (completed_of_replaced h.payments h.inFlight)
      rw [hid]
      exact hasMoney_of_row h.payments.find_self h.status
    | failed p hs h =>
      obtain ⟨t₁, hw, he⟩ := h.writes
      refine .of_invoices ?_ (completed_of_replaced h.payments h.inFlight)
      rw [invoices_of_extends he fun w h => h.table_ne (by decide), view_of_writes hw]
      rfl
    | processing hs he h => exact untouched (view_of_touches h s)
  | initiated h =>
    cases h with
    | answered h =>
      refine .of_invoices (invoices_of_extends h (fun w h => h.table_ne (by decide)) s) ?_
      intro i q hq hst
      obtain ⟨ws, he, hw⟩ := h.writes
      obtain ⟨q', hq', hr⟩ := (recalled_foldl hw s).row hq
      rw [hr.completed hst] at hq'
      rw [view_of_writes he]
      exact hq'
    | opened p h status accounts invoices => exact .of_invoices invoices (opening h)
    | settled p p₀ t₁ invoice paidSum flip h id status step hset =>
      obtain ⟨l, hf, hv⟩ := hset.invoices
      have hid : invoice.id = p.invoiceId := hset.id.trans step.invoiceId.symm
      refine .of_flips hf hv ?_ (opening h)
      rw [hid]
      exact hasMoney_of_row h.self status
  | received invoice paidSum flip p credit h =>
    obtain ⟨l, hf, hv⟩ := h.invoices
    refine .of_flips hf hv ?_ fun i q hq _ => ?_
    · rw [← h.invoiceId]
      refine hasMoney_of_row (i := p.id) ?_ h.status
      exact (h.payments.after p.id).trans (if_pos rfl)
    · refine (h.payments.after i).trans ?_
      rw [if_neg]
      · exact hq
      · rintro rfl
        cases h.payments.before.symm.trans hq
  | cancelled h => exact .of_reflagged h (.inl rfl)
  | overdue h => exact .of_reflagged h (.inr ⟨_, rfl⟩)
  | _ => exact hop.elim

theorem MonthOutcome.shows (h : MonthOutcome old t s op a) : Shows s (t.view s) := by
  cases h with
  | settled hop h => exact h.shows hop
  | @billed now periodStart a h =>
    obtain ⟨covered, he, -⟩ := h.writes
    constructor
    · intro i q hq _
      unfold Store.payment?
      rw [payments_of_extends he fun w h => h.table_ne (.inl rfl)]
      exact hq
    · intro i m' hi
      rcases creates_row_before he hi with hm | ⟨ht, -, hst, -⟩
      · exact .inl ⟨m', hm, .refl m'⟩
      · exact .inr ⟨ht, hst⟩
    · intro i m' hi hst
      rcases creates_row_before he hi with hm | ⟨-, -, hst', -⟩
      · exact .inl ⟨m', hm, .refl m', rfl⟩
      · rw [hst'] at hst
        rcases hst with hst | hst <;> cases hst

/-! ### Marks -/

theorem paid_of_view {i : Nat} {p₀ p : Invoice} (h₀ : s.invoice? i = some p₀)
    (h : (t.view s).invoice? i = some p) (hpaid : p.status = .paid) :
    p₀.status = .paid ∨ .markInvoice i .paid ∈ t.writes := by
  unfold Tx.view at h
  generalize t.writes = ws at h ⊢
  induction ws generalizing s p₀ with
  | nil =>
    obtain rfl := Option.some.inj (h₀.symm.trans h)
    exact .inl hpaid
  | cons w ws ih =>
    obtain ⟨p₁, h₁, hs₁, -⟩ := (moves_view (Tx.start.wrote w) s).invoices.row i p₀ h₀
    have h₁ : (s.apply w).invoice? i = some p₁ := h₁
    rcases ih h₁ h with hp₁ | hmem
    · -- the row before this statement
      by_cases ht : w.table = .invoices
      · cases w with
        | insertInvoice j =>
          have h₁ : Table.find (if s.admitsInvoice j then s.invoices ++ [j] else s.invoices) i = some p₁ := h₁
          have hkeep : Table.find s.invoices i = some p₀ := h₀
          split at h₁
          · rw [Table.find_append, hkeep, Option.some_or] at h₁
            obtain rfl := Option.some.inj h₁
            exact .inl hp₁
          · obtain rfl := Option.some.inj (hkeep.symm.trans h₁)
            exact .inl hp₁
        | markInvoice j f =>
          have h₁ : Table.find (Table.updateWhere s.invoices j f.accepts f.set) i = some p₁ := h₁
          rw [Table.find_updateWhere s.invoices j _ f.set fun _ => rfl, show Table.find s.invoices i = some p₀ from h₀,
            Option.map_some, Option.some.injEq] at h₁
          split at h₁
          · next hij =>
            subst h₁
            have hnext : f.next = .paid := hp₁
            obtain rfl : f = .paid := by cases f <;> first | rfl | cases hnext
            rw [hij.1]
            exact .inr List.mem_cons_self
          · rw [h₁]
            exact .inl hp₁
        | _ => cases ht
      · have he : (s.apply w).invoices = s.invoices := s.invoices_apply w ht
        unfold Store.invoice? at h₀ h₁
        rw [he, h₀] at h₁
        obtain rfl := Option.some.inj h₁
        exact .inl hp₁
    · exact .inr (List.mem_cons_of_mem _ hmem)

theorem unpaid_of_marked {i : Nat} {m₀ m : Invoice} (hmark : .markInvoice i .cancelled ∈ t.writes)
    (h₀ : s.invoice? i = some m₀) (h : (t.view s).invoice? i = some m) : m.status.unpaid = false := by
  obtain ⟨ws, ws', hw⟩ := List.append_of_mem hmark
  let t₁ : Tx Store Key Write := { t with writes := ws }
  let t₂ : Tx Store Key Write := { t with writes := ws' }
  obtain ⟨m₁, h₁, -⟩ := (moves_view t₁ s).invoices.row i m₀ h₀
  let s₁ := (t₁.view s).apply (.markInvoice i .cancelled)
  have hview : t.view s = t₂.view s₁ := by
    unfold Tx.view
    rw [hw, List.foldl_append]
    rfl
  have h₂ : ∃ m₂, s₁.invoice? i = some m₂ ∧ m₂.status.unpaid = false := by
    show ∃ m₂, Table.find (Table.updateWhere (t₁.view s).invoices i InvoiceFlip.cancelled.accepts
      InvoiceFlip.cancelled.set) i = some m₂ ∧ _
    rw [Table.find_updateWhere _ i _ InvoiceFlip.cancelled.set fun _ => rfl,
      show Table.find (t₁.view s).invoices i = some m₁ from h₁, Option.map_some]
    refine ⟨_, rfl, ?_⟩
    by_cases hu : InvoiceFlip.cancelled.accepts m₁ = true
    · rw [if_pos ⟨rfl, hu⟩]
      rfl
    · rw [if_neg fun hc => hu hc.2]
      simpa [InvoiceFlip.accepts] using hu
  obtain ⟨m₂, h₂, hu₂⟩ := h₂
  obtain ⟨m', h', hs', -⟩ := (moves_view t₂ s₁).invoices.row i m₂ h₂
  rw [hview] at h
  obtain rfl := Option.some.inj (h'.symm.trans h)
  exact unpaid_of_reaches hs'.2 hu₂

/-! ## One commit -/

/-- The surroundings of a run. -/
structure Months (old : Nat → Prop) (s : Store) : Prop where
  wf : s.WF
  shown : Shown old s
  anchorage : Anchorage s

theorem monthSetting (old : Nat → Prop) : MonthSetting monthLocks (Months old) (fun _ => True) old where
  moves h := h.toMoves
  wf h := h.wf
  throws _ := trivial
  months h := h
  shown h := h.shown
  anchorage h := h.anchorage

theorem Shows.months (h : Shows s (t.view s)) (hm : Months old s) : Months old (t.view s) where
  wf := hm.wf.view t
  shown := h.keeps_shown hm.wf hm.shown
  anchorage := h.keeps_anchorage hm.anchorage

theorem MonthOutcome.guarantee (h : MonthOutcome old t s op a) (hs : s.WF)
    (hcov : ∀ w ∈ t.writes, Covered t.held w) : monthLocks.Guarantee t s := by
  intro held hd
  refine { guarantee_locks hcov s held hd with money := fun id hm => h.shows.money hs hm, billed := ?_, settled := ?_ }
  · intro k hk i m hi htype hperiod
    cases h with
    | settled hop hout =>
      obtain ⟨m₀, hm₀, -⟩ := hout.invoices.row_before hi
      exact ⟨m₀, hm₀⟩
    | @billed now periodStart a h =>
      obtain ⟨covered, he, -⟩ := h.writes
      rcases creates_row_before he hi with hm | ⟨-, hp, -⟩
      · exact ⟨m, hm⟩
      · have hlock := h.lock
        rw [← hp, hperiod, monthOf_monthStart] at hlock
        exact absurd hk (hd hlock)
  · intro k hk i p hi htype hpaid hcov
    cases h with
    | settled hop hout hsup =>
      obtain ⟨p₀, hp₀, hstep⟩ := hout.invoices.row_before hi
      refine ⟨p₀, hp₀, (paid_of_view hp₀ hi hpaid).resolve_right fun hmark => ?_⟩
      obtain ⟨q, hq, hpre⟩ := hsup i hmark
      obtain rfl := Option.some.inj (hp₀.symm.trans hq)
      rw [hstep.1] at htype
      rw [hstep.covers] at hcov
      obtain ⟨hanch, hsuper⟩ := hpre htype
      exact absurd hk (hd (hsuper.locked k (hanch k hcov)))
    | @billed now periodStart a h =>
      obtain ⟨covered, he, -⟩ := h.writes
      rcases creates_row_before he hi with hp | ⟨hmonthly, -⟩
      · exact ⟨p, hp, hpaid⟩
      · rw [hmonthly] at htype
        cases htype

theorem paid_of_live {st : InvoiceStatus} (hl : st.live = true) (hu : st.unpaid = false) : st = .paid := by
  revert hl hu
  cases st <;> simp [InvoiceStatus.live, InvoiceStatus.unpaid]

theorem MonthOutcome.clashFree (h : MonthOutcome old t s op a) (hm : Months old s) (hfree : ClashFree old s) :
    ClashFree old (t.view s) := by
  have hwf := hm.wf.view t
  have hshows := h.shows
  have hshown := hshows.keeps_shown hm.wf hm.shown
  rintro p m ⟨hp, hmem, hpre, hpaid, hov, hlive, hbroke⟩
  have hp : (t.view s).invoice? p.id = some p := Table.find_of_mem hwf.invoiceIds hp
  have hi : (t.view s).invoice? m.id = some m := Table.find_of_mem hwf.invoiceIds hmem
  have hbroke₀ : s.hasMoney m.id = false := by
    by_contra hnot
    rw [hshows.money hm.wf (by simpa using hnot)] at hbroke
    cases hbroke
  -- both rows are old ones
  have old_rows : ∀ {p₀ m₀ : Invoice}, s.invoice? p.id = some p₀ → Invoice.Step p₀ p → p₀.status = .paid →
      s.invoice? m.id = some m₀ → Invoice.Step m₀ m → old m.id := by
    intro p₀ m₀ hp₀ hsp hpaid₀ hm₀ hsm
    have hid : m₀.id = m.id := Table.id_of_find hm₀
    have htype : p₀.invoiceType.isPrepayment = true := by
      rw [hsp.1] at hpre
      exact hpre
    have hov₀ : p₀.Overlaps m₀ := by
      refine Invoice.Overlaps.of_step ⟨hov.monthly, ?_, hov.aligned, (hsp.covers _).1 hov.covered⟩ hsm
      rw [hov.child, hsp.1]
    rw [← hid] at hbroke₀ ⊢
    exact hfree p₀ m₀ ⟨Table.mem_of_find hp₀, Table.mem_of_find hm₀, htype, hpaid₀, hov₀,
      live_of_reaches hsm.2 hlive, hbroke₀⟩
  cases h with
  | settled hop hout hsup =>
    obtain ⟨p₀, hp₀, hsp⟩ := hout.invoices.row_before hp
    obtain ⟨m₀, hm₀, hsm⟩ := hout.invoices.row_before hi
    rcases paid_of_view hp₀ hp hpaid with hpaid₀ | hmark
    · exact old_rows hp₀ hsp hpaid₀ hm₀ hsm
    obtain ⟨q, hq, hsuper⟩ := hsup p.id hmark
    obtain rfl := Option.some.inj (hp₀.symm.trans hq)
    have htype : p₀.invoiceType.isPrepayment = true := by
      rw [hsp.1] at hpre
      exact hpre
    -- the monthly has been dealt with: it is marked as paid, and holds no money
    have spent : m.status.unpaid = false → old m.id := by
      intro hunpaid
      rcases hshown m.id m hi hov.monthly (.inl (paid_of_live hlive hunpaid)) with hmoney | hold
      · rw [hmoney] at hbroke
        cases hbroke
      · exact hold
    have hov₀ : p₀.Overlaps m₀ := by
      refine Invoice.Overlaps.of_step ⟨hov.monthly, ?_, hov.aligned, (hsp.covers _).1 hov.covered⟩ hsm
      rw [hov.child, hsp.1]
    rcases (hsuper htype).2.closed m.id m₀ hm₀ hov₀ with (hmark | ⟨r, hr, hunpaid⟩ | hmoney) | hold
    · exact spent (unpaid_of_marked hmark hm₀ hi)
    · obtain rfl := Option.some.inj (hm₀.symm.trans hr)
      exact spent (unpaid_of_reaches hsm.2 hunpaid)
    · rw [hmoney] at hbroke₀
      cases hbroke₀
    · exact hold
  | @billed now periodStart a h =>
    obtain ⟨covered, he, hcovered⟩ := h.writes
    rcases creates_row_before he hp with hp₀ | ⟨hmonthly, -⟩
    · rcases creates_row_before he hi with hm₀ | ⟨-, hperiod, -, hnot⟩
      · exact old_rows hp₀ (.refl p) hpaid hm₀ (.refl m)
      · have haligned := hov.aligned
        have hcov := hov.covered
        rw [hperiod] at haligned hcov
        refine absurd ?_ hnot
        rw [hov.child]
        exact hcovered p.id p hp₀ hpre hpaid hcov haligned
    · rw [hmonthly] at hpre
      cases hpre

/-! ## Runs -/

theorem supersedes_prog (M : MonthSetting D J X old) (hj : J s) (op : Op) (hop : op.Settles) :
    Prog.Safe D J X (fun t s _ => Supersedes old t s) op.prog .start s := by
  cases op with
  | deliver entry now id v => exact (safe_deliverMonths M hj now id v entry).map fun _ _ _ _ h => h
  | initiate now input outcome => exact (safe_initiateMonths M now input outcome).map fun _ _ _ _ h => h
  | manualMarkPaid now id input => exact (safe_manualMarkPaidMonths M now id input).map fun _ _ _ _ h => h
  | cancel id reason =>
    have hq : Prog.OnlyWrites Quiet (InvoiceService.cancel id reason) :=
      onlyWrites_cancel (fun id => by simp) (fun i id => by simp) fun n _ id => by simp
    exact (safe_quiet M hj hq supersedes_start).map fun _ _ _ _ h => h
  | markOverdue now =>
    have hq : Prog.OnlyWrites Quiet (OverdueInvoiceProcessor.runForKindergarten now) :=
      onlyWrites_runForKindergarten (fun i id => by simp) fun n _ id => by simp
    exact (safe_quiet M hj hq supersedes_start).map fun _ _ _ _ h => h
  | _ => exact hop.elim

theorem creates_generateMonthly (now periodStart : Int) :
    Prog.OnlyWrites (Creates fun _ => True) (InvoiceService.generateMonthly now periodStart) := by
  unfold InvoiceService.generateMonthly
  intro s₁
  show Prog.OnlyWrites _ (if _ then _ else _)
  split
  · trivial
  · intro s₂
    show Prog.OnlyWrites _ (if _ then _ else _)
    split
    · trivial
    · exact fun _ _ => InvoiceService.creates_billAssignments (fun a =>
        InvoiceService.creates_billAssignment _ _ _ _ _ _ _ fun _ _ _ _ _ => trivial) _

theorem safe_months (hm : Months old s) (op : Op) (hop : op.Months) :
    Prog.Safe monthLocks (Months old) (fun _ => True)
      (fun t s a => MonthOutcome old t s op a ∧ ∀ w ∈ t.writes, Covered t.held w) op.prog .start s := by
  have covered : IsCovered op.prog → Prog.Safe monthLocks (Months old) (fun _ => True)
      (fun t _ _ => ∀ w ∈ t.writes, Covered t.held w) op.prog .start s := fun h =>
    Prog.Safe.of_eachWrite covered_mono (h _) (fun _ => trivial) (by simp [Tx.start])
  have settling : op.Settles → Prog.Safe monthLocks (Months old) (fun _ => True)
      (fun t s a => MonthOutcome old t s op a ∧ ∀ w ∈ t.writes, Covered t.held w) op.prog .start s := by
    intro hset
    have hmoves := hset.movesMoney
    refine (((safe_prog (monthSetting old).toSetting hm op hmoves).and
      (supersedes_prog (monthSetting old) hm op hset)).and (covered (covered_prog op hmoves))).mono ?_
    rintro t s a - ⟨⟨hout, hsup⟩, hcov⟩
    exact ⟨.settled hset hout hsup, hcov⟩
  cases op with
  | generateMonthly now periodStart =>
    have hcov : IsCovered (Op.prog (.generateMonthly now periodStart)) :=
      (IsCovered.of_plain ((creates_generateMonthly now periodStart).mono fun _ h => h.plain)).bind
        fun _ => .ret _
    have hbilled : Prog.Safe monthLocks (Months old) (fun _ => True) (fun t s _ => Billed periodStart t s)
        (Op.prog (.generateMonthly now periodStart)) .start s :=
      (safe_generateMonthly (monthSetting old) now periodStart).map fun _ _ _ _ h => h
    refine (hbilled.and (covered hcov)).mono ?_
    rintro t s a - ⟨hbilled, hcov⟩
    exact ⟨.billed hbilled, hcov⟩
  | _ => exact settling hop

/-- **The month locks work** where every prepayment that is still to be settled locks all of its
months: no run brings up a settled prepayment beside a monthly that it covers and nobody paid. -/
theorem clashFree_of_anchorage {n : Nat} {s : Store} {cs : Schedule n} {σ : System n} (hs : s.WF)
    (hanchored : Anchorage s) (hcs : System.Starts Op.Months cs) (hrun : run s cs = some σ) :
    Always (ClashFree (Stray s)) s σ.log := by
  have hm : Months (Stray s) s := by
    refine ⟨hs, fun i m hi htype hst => ?_, hanchored⟩
    by_cases hmoney : s.hasMoney i = true
    · exact .inl hmoney
    · have hid : m.id = i := Table.id_of_find hi
      have hlive : m.status.live = true := by
        rcases hst with hst | hst <;> rw [hst] <;> rfl
      refine .inr ⟨m, hi, ⟨hlive, by rw [hid]; simpa using hmoney⟩, ?_⟩
      rcases hst with hst | hst
      · exact .inl hst
      · exact .inr (.inl hst)
  have hfree : ClashFree (Stray s) s := by
    intro p m h
    exact ⟨m, Table.find_of_mem hs.invoiceIds h.monthly, h.unsettled, .inr (.inr ⟨p, h⟩)⟩
  generalize Stray s = old at hm hfree ⊢
  have h := System.exec_chain (X := fun _ => True) hm (fun op s hop hm => safe_months hm op hop)
    (fun op t s a hm h => h.1.shows.months hm) (fun op t s a hm h => h.1.guarantee hm.wf h.2) hcs hrun
  refine h.always (ClashFree old) hfree ?_
  rintro s' c hf ⟨hm', hout, -⟩
  exact hout.clashFree hm' hf

/-! ## The last month of a window -/

/-- A child with a tariff, and a prepayment of its from one day to another. -/
def onePrepayment (periodStart periodEnd : Int) : Store :=
  { Store.empty with
    reference :=
      { children := [⟨1, .active, 0, none⟩]
        childGuardians := []
        tariffPlans := [⟨5, .monthly, 1000, true, 0, none, ⟨none, none, none, none, none⟩⟩]
        tariffAssignments := [⟨6, 1, 5, none, 0, none⟩]
        holidays := []
        admins := [90] }
    accounts := [⟨10, 1, 0⟩]
    invoices := [⟨20, 1, 10, none, .prepayment .m3, periodStart, periodEnd, 3000, none, none, 3000, .pending,
      20600, none, 0⟩] }

/-- The run of March has read who is covered; the desk settles the prepayment; the run goes on. -/
def runAcrossCash : Schedule 2 :=
  .start 0 (.generateMonthly 0 20513) :: (steps 0 5 0 ++
  (request 1 (.manualMarkPaid 0 20 ⟨none, none, none⟩) 17 40 ++ (steps 0 8 30 ++ (steps 0 6 31 ++ []))))

/-- Where the settlement has to wait for the lock of March. -/
def cashAcrossRun : Schedule 2 :=
  .start 0 (.generateMonthly 0 20513) :: (steps 0 5 0 ++ (.start 1 (.manualMarkPaid 0 20 ⟨none, none, none⟩) ::
  (steps 1 8 40 ++ (steps 0 8 30 ++ (steps 0 6 31 ++ (steps 1 15 50 ++ []))))))

theorem anchorage_onePrepayment {periodStart periodEnd k : Int} (h : periodStart = monthStart k) :
    Anchorage (onePrepayment periodStart periodEnd) := by
  intro i p hp _ _
  have hmem := Table.mem_of_find hp
  simp only [onePrepayment, List.mem_singleton] at hmem
  subst hmem
  exact anchored_of_monthStart h

/-- From the first of January to the last of March the desk waits for the run, and cancels what it billed. -/
theorem clashFree_cashAcrossRun : ∃ σ : System 2, run (onePrepayment 20454 20543) cashAcrossRun = some σ ∧
    σ.log.length = 2 ∧ Always (ClashFree (Stray (onePrepayment 20454 20543))) (onePrepayment 20454 20543) σ.log := by
  obtain ⟨σ, hrun, h⟩ := run_shows run (onePrepayment 20454 20543) cashAcrossRun (fun σ => σ.log.length == 2)
    (by decide +kernel)
  refine ⟨σ, hrun, by simpa using h, clashFree_of_anchorage (by decide)
    (anchorage_onePrepayment (k := 24312) (by decide)) ?_ hrun⟩
  exact starts_cons 0 trivial (starts_steps 0 5 0 (starts_cons 1 trivial (starts_steps 1 8 40
    (starts_steps 0 8 30 (starts_steps 0 6 31 (starts_steps 1 15 50 starts_nil))))))

/-- From the fifteenth of January to the tenth of March nobody waits. -/
theorem runAcrossCash_clashes : ∃ σ : System 2, (onePrepayment 20468 20522).WF ∧
    (∀ i ∈ (onePrepayment 20468 20522).invoices, i.invoiceType ≠ .monthly) ∧
    System.Starts Op.Months runAcrossCash ∧ run (onePrepayment 20468 20522) runAcrossCash = some σ ∧
    ¬ Always (ClashFree (Stray (onePrepayment 20468 20522))) (onePrepayment 20468 20522) σ.log := by
  obtain ⟨σ, hrun, h⟩ := run_shows run (onePrepayment 20468 20522) runAcrossCash
    (fun σ : System 2 => decide (¬ Always (ClashFree (Stray (onePrepayment 20468 20522)))
      (onePrepayment 20468 20522) σ.log)) (by decide +kernel)
  refine ⟨σ, by decide, by decide, ?_, hrun, of_decide_eq_true h⟩
  exact starts_cons 0 trivial (starts_steps 0 5 0 (starts_request 1 17 40 trivial
    (starts_steps 0 8 30 (starts_steps 0 6 31 starts_nil))))

end Billing
