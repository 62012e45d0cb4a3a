import Mathlib.Data.Finset.Sort
import Shyraq.Billing.FirstMonth
import Shyraq.Billing.Reserving
import Shyraq.Transactions.Alone

/-!
# A receipt for all that is owed

`manualMarkPaid` without an amount flips the invoice first and then writes the receipt.  When nothing is owed the
receipt is over the whole amount; an invoice over nothing has none to write, as the table takes positive amounts only,
and stays unpaid for good.
-/

namespace Billing

open Kernel Transactions

/-- What the service takes as owed. -/
def Store.residual (s : Store) (i : Invoice) : Int := i.amountAfterDiscount - s.paidSum i.id

/-- The foreign keys of `invoices`. -/
def Store.Grounded (s : Store) : Prop :=
  ∀ i ∈ s.invoices, (s.account? i.paymentAccountId).isSome = true ∧ s.hasChild i.childId = true

instance (s : Store) : Decidable s.Grounded := inferInstanceAs (Decidable (∀ i ∈ s.invoices, _ ∧ _))

/-- The invoice is paid, with a new receipt over what was owed. -/
structure SettledBy (s : Store) (i : Invoice) (v : Store) : Prop where
  paid : ∃ j, v.invoice? i.id = some j ∧ j.status = .paid
  receipt : ∃ p ∈ v.payments, p ∉ s.payments ∧ p.invoiceId = i.id ∧ p.status = .completed ∧ 0 < p.amount ∧
    p.amount = s.residual i

/-- With nobody else there the request succeeds, whatever ids it draws. -/
def SettlesInFull (s : Store) (now : Int) (i : Invoice) (input : InvoiceService.ManualMarkPaidInput) : Prop :=
  ∀ ids r, (InvoiceService.manualMarkPaid now i.id input).alone s ids Tx.start = some r →
    ∃ i' tx, r = .ok (i', tx) ∧ SettledBy s i (tx.view s)

/-! ## Ids -/

def Key.row? : Key → Option Nat
  | .row id => some id
  | _ => none

theorem exists_absent (v : Store) (held : List Key) :
    ∃ i, Relational.absent v i = true ∧ Relational.rowKey Store i ∉ held := by
  obtain ⟨i, hi⟩ := Infinite.exists_notMem_finset (v.accounts.map Row.id ++ v.invoices.map Row.id ++
    v.lineItems.map Row.id ++ v.payments.map Row.id ++ v.refunds.map Row.id ++ v.customDiscounts.map Row.id ++
    v.applications.map Row.id ++ v.reference.children.map Row.id ++ v.reference.tariffPlans.map Row.id ++
    v.reference.tariffAssignments.map Row.id ++
    held.filterMap Key.row?).toFinset
  simp only [List.mem_toFinset, List.mem_append, not_or] at hi
  have none_of : ∀ {R : Type} [Row R] (l : List R), i ∉ l.map Row.id → (Table.find l i).isNone = true := by
    intro R _ l hl
    rw [Option.isNone_iff_eq_none, Table.find_eq_none]
    intro r hr he
    exact hl (he ▸ List.mem_map_of_mem hr)
  obtain ⟨⟨⟨⟨⟨⟨⟨⟨⟨⟨h₁, h₂⟩, h₃⟩, h₄⟩, h₅⟩, h₆⟩, h₇⟩, h₈⟩, h₉⟩, h₁₀⟩, hheld⟩ := hi
  refine ⟨i, ?_, ?_⟩
  · show v.absent i = true
    unfold Store.absent
    simp only [none_of _ h₁, none_of _ h₂, none_of _ h₃, none_of _ h₄, none_of _ h₅, none_of _ h₆, none_of _ h₇,
      none_of _ h₈, none_of _ h₉, none_of _ h₁₀, Bool.and_self]
  · intro hk
    exact hheld (List.mem_filterMap.2 ⟨.row i, hk, rfl⟩)

/-! ## The covered monthlies -/

/-- Monthlies cancelled and their discount slots freed. -/
def Write.Supersedes (w : Write) : Prop :=
  (∃ i, w = .markInvoice i .cancelled) ∨ (∃ i, w = .releaseUsage i) ∨ ∃ n, w = .notify n

theorem unfailing_query {R : Type} (g : Store → R) : Prog.Unfailing Write.Supersedes (Prog.query g : Sql R) :=
  fun _ => trivial

theorem unfailing_notify (n : Notification) : Prog.Unfailing Write.Supersedes (notify n) :=
  ⟨.inr (.inr ⟨n, rfl⟩), fun _ => trivial⟩

theorem unfailing_releaseIfCapped (app : CustomDiscountApplication) :
    Prog.Unfailing Write.Supersedes (releaseIfCapped app) := by
  refine Prog.Unfailing.bind (unfailing_query _) fun discount => ?_
  cases discount with
  | none => trivial
  | some d =>
    show Prog.Unfailing Write.Supersedes (if d.totalMaxUses.isNone then _ else _)
    split
    · trivial
    · exact ⟨.inr (.inl ⟨_, rfl⟩), fun _ => trivial⟩

theorem unfailing_cancelCoveredMonthly (paidSums : Nat → Int) (monthly : Invoice) :
    Prog.Unfailing Write.Supersedes (cancelCoveredMonthly paidSums monthly) := by
  unfold cancelCoveredMonthly
  split
  · trivial
  · have hmark : Prog.Unfailing Write.Supersedes (InvoiceRepository.markCancelledConditional monthly.id) := by
      refine ⟨.inl ⟨_, rfl⟩, fun matched => ?_⟩
      cases matched with
      | false => trivial
      | true => exact unfailing_query _
    refine hmark.bind fun cancelled => ?_
    cases cancelled with
    | none => exact (unfailing_query _).bind fun _ => trivial
    | some c =>
      refine Prog.Unfailing.bind ?_ fun _ => unfailing_notify _
      exact (unfailing_query _).bind fun apps => .forEach apps fun app _ => unfailing_releaseIfCapped app

theorem unfailing_cancelIfPrepayment (updated : Invoice) :
    Prog.Unfailing Write.Supersedes (InvoiceService.cancelIfPrepayment updated) := by
  unfold InvoiceService.cancelIfPrepayment
  split
  · refine Prog.Unfailing.bind (p := Prog.acquire _) trivial fun _ => ?_
    refine Prog.Unfailing.bind (.forEach _ fun _ _ => trivial) fun _ => ?_
    refine Prog.Unfailing.bind (unfailing_query _) fun overlapped => ?_
    split
    · trivial
    · exact (unfailing_query _).bind fun _ => .forEach _ fun monthly _ => unfailing_cancelCoveredMonthly _ monthly
  · trivial

/-- Only the covered monthlies are flipped, so a paid invoice stays paid; the receipts and the accounts stay. -/
theorem kept_of_supersedes {t t' : Tx Store Key Write} (he : Tx.Extends Write.Supersedes t t') (s : Store) (id : Nat) :
    (t'.view s).payments = (t.view s).payments ∧ (t'.view s).accounts = (t.view s).accounts ∧
      (t'.view s).reference = (t.view s).reference ∧
      ((t'.view s).invoice? id).any (fun j => j.status == .paid) =
        ((t.view s).invoice? id).any (fun j => j.status == .paid) := by
  refine ⟨he.view_eq Store.payments ?_ s, he.view_eq Store.accounts ?_ s, he.view_eq Store.reference ?_ s,
    he.view_eq (fun v => (v.invoice? id).any fun j => j.status == .paid) ?_ s⟩
  · rintro v w (⟨i, rfl⟩ | ⟨i, rfl⟩ | ⟨n, rfl⟩) <;> rfl
  · rintro v w (⟨i, rfl⟩ | ⟨i, rfl⟩ | ⟨n, rfl⟩) <;> rfl
  · rintro v w (⟨i, rfl⟩ | ⟨i, rfl⟩ | ⟨n, rfl⟩) <;> rfl
  · rintro v w (⟨i, rfl⟩ | ⟨i, rfl⟩ | ⟨n, rfl⟩)
    · show (Table.find (Table.updateWhere v.invoices i InvoiceFlip.cancelled.accepts InvoiceFlip.cancelled.set) id).any _ =
        (Table.find v.invoices id).any _
      rw [Table.find_updateWhere v.invoices i InvoiceFlip.cancelled.accepts InvoiceFlip.cancelled.set fun _ => rfl]
      cases Table.find v.invoices id with
      | none => rfl
      | some j =>
        show ((if id = i ∧ InvoiceFlip.cancelled.accepts j = true then InvoiceFlip.cancelled.set j else j).status == _) =
          (j.status == _)
        split
        · next hflip =>
          have hunpaid : j.status.unpaid = true := hflip.2
          show false = (j.status == .paid)
          cases hstatus : j.status <;> rw [hstatus] at hunpaid <;> first | rfl | cases hunpaid
        · rfl
    · rfl
    · rfl

/-! ## The receipt -/

section

variable {s : Store} {i : Invoice} {now : Int} {input : InvoiceService.ManualMarkPaidInput} {t : Tx Store Key Write}

/-- Right after the flip: the ledger and what the receipt refers to are as they were. -/
structure JustPaid (s : Store) (i : Invoice) (v : Store) : Prop where
  payments : v.payments = s.payments
  accounts : v.accounts = s.accounts
  reference : v.reference = s.reference
  paid : (v.invoice? i.id).any (fun j => j.status == .paid) = true

/-- How the request by itself succeeds, once something is owed. -/
def Settles (s : Store) (now : Int) (i : Invoice) (t : Tx Store Key Write) (s' : Store) : Prop :=
  s.paymentByKey (.cash i.id now) = none ∧ SettledBy s i (t.view s')

/-- What is written after the receipt. -/
def Write.After (w : Write) : Prop := (∃ a b, w = .saveAccount a b) ∨ ∃ n, w = .notify n

theorem safe_creditOwed {X : BillingError → Prop} {amount : Int} (hamount : 0 < amount)
    (ha : ((t.view s).account? i.paymentAccountId).isSome = true) :
    Prog.Safe Discipline.serial (fun _ => True) X (fun t' s' _ => s' = s ∧ Tx.Extends Write.After t t')
      (InvoiceService.creditReceipt i.paymentAccountId (some amount)) t s := by
  rintro s' rfl -
  refine safe_read ?_
  obtain ⟨account, haccount⟩ := Option.isSome_iff_exists.1 ha
  have hfound : ((t.locked (.balance i.paymentAccountId)).view s').account? i.paymentAccountId = some account := haccount
  rw [hfound]
  refine safe_guardOr_serial (fun _ => ?_) fun hno => absurd hamount (by simpa [MoneyKzt.isPositive] using hno)
  have he := ((Tx.Extends.refl (P := Write.After) t).locked (Key.balance i.paymentAccountId)).saw s'
  rintro s'' rfl -
  constructor
  · rintro - s'' rfl -
    exact ⟨rfl, he.wrote (.inl ⟨_, _, rfl⟩)⟩
  · rintro - s'' rfl -
    exact ⟨rfl, he⟩

theorem SettledBy.after {t' : Tx Store Key Write} (h : SettledBy s i (t.view s))
    (he : Tx.Extends Write.After t t') : SettledBy s i (t'.view s) := by
  have hinvoices : (t'.view s).invoices = (t.view s).invoices := by
    refine he.view_eq Store.invoices ?_ s
    rintro v w (⟨a, b, rfl⟩ | ⟨n, rfl⟩) <;> rfl
  have hpayments : (t'.view s).payments = (t.view s).payments := by
    refine he.view_eq Store.payments ?_ s
    rintro v w (⟨a, b, rfl⟩ | ⟨n, rfl⟩) <;> rfl
  obtain ⟨hpaid, hreceipt⟩ := h
  unfold Store.invoice? at hpaid
  exact ⟨by rwa [← hinvoices] at hpaid, by rwa [← hpayments] at hreceipt⟩

theorem safe_notifyAfter {X : BillingError → Prop} (n : Notification) (h : Settles s now i t s) :
    Prog.Safe Discipline.serial (fun _ => True) X (fun t' s' _ => s' = s ∧ Settles s now i t' s') (notify n) t s := by
  rintro s' rfl -
  constructor
  · rintro - s'' rfl -
    exact ⟨rfl, h.1, h.2.after ((Tx.Extends.refl t).wrote (.inr ⟨n, rfl⟩))⟩
  · intro hno
    cases hno

theorem hit_insertReceipt {v : Store} {p : Payment} (hnew : Table.find v.payments p.id = none)
    (hinvoice : v.hasInvoice p.invoiceId = true) (hchild : v.hasChild p.childId = true) (hpos : 0 < p.amount) :
    Store.hit v (.insertPayment p) = true ↔ v.paymentByKey p.idempotencyKey = none := by
  show (((Table.find v.payments p.id).isNone && v.hasInvoice p.invoiceId && decide (0 < p.amount) &&
    !v.payments.any fun q => q.idempotencyKey == p.idempotencyKey) && v.hasChild p.childId) = true ↔ _
  rw [hnew, hinvoice, hchild, decide_eq_true hpos]
  unfold Store.paymentByKey
  simp

theorem payments_insertReceipt {v : Store} {p : Payment} (h : Store.hit v (.insertPayment p) = true) :
    (v.apply (.insertPayment p)).payments = v.payments ++ [p] := by
  have hadmits : v.admitsPayment p = true := (Bool.and_eq_true _ _ ▸ h : _ ∧ _).1
  show (if v.admitsPayment p = true then v.payments ++ [p] else v.payments) = _
  rw [if_pos hadmits]

/-- The receipt is written unless its key is taken; it is the one that is new. -/
theorem safe_recordCashOwed (hv : JustPaid s i (t.view s)) (ha : (s.account? i.paymentAccountId).isSome = true)
    (hc : s.hasChild i.childId = true) (hpos : 0 < s.residual i) :
    Prog.Safe Discipline.serial (fun _ => True) (fun _ => s.paymentByKey (.cash i.id now) ≠ none)
      (fun t' s' _ => s' = s ∧ Settles s now i t' s')
      (InvoiceService.recordCash now input (InvoiceFlip.paid.set i) (s.residual i) (some (s.residual i))) t s := by
  rintro s rfl - id habsent -
  let p := InvoiceService.cashPayment id now input (InvoiceFlip.paid.set i) (s.residual i)
  have hnew : Table.find (t.view s).payments p.id = none := by
    have habsent : (t.view s).absent id = true := habsent
    unfold Store.absent at habsent
    simp only [Bool.and_eq_true, Option.isNone_iff_eq_none] at habsent
    exact habsent.1.1.1.1.1.1.2
  have hinvoice : (t.view s).hasInvoice i.id = true := by
    obtain ⟨j, hj, -⟩ := (Option.any_eq_true _ _).1 hv.paid
    exact Option.isSome_iff_exists.2 ⟨j, hj⟩
  have hchild : (t.view s).hasChild i.childId = true := by
    unfold Store.hasChild
    rw [hv.reference]
    exact hc
  have hhit := hit_insertReceipt (v := t.view s) (p := p) hnew hinvoice hchild hpos
  have hbyKey : (t.view s).paymentByKey p.idempotencyKey = s.paymentByKey (.cash i.id now) := by
    unfold Store.paymentByKey
    rw [hv.payments]
    rfl
  rw [hbyKey] at hhit
  rintro s₁ rfl -
  constructor
  · intro hh
    have hfree := hhit.1 hh
    have hpayments := payments_insertReceipt (v := t.view s₁) (p := p) hh
    let t₁ := (t.locked (Relational.rowKey Store id)).wrote (Write.insertPayment p)
    have hview : t₁.view s₁ = (t.view s₁).apply (.insertPayment p) := Tx.view_wrote _ _ _
    have hsettled : SettledBy s₁ i (t₁.view s₁) := by
      rw [hview]
      refine ⟨?_, p, ?_, ?_, rfl, rfl, hpos, rfl⟩
      · obtain ⟨j, hj, hpaid⟩ := (Option.any_eq_true _ _).1 hv.paid
        exact ⟨j, hj, by simpa using hpaid⟩
      · rw [hpayments]
        exact List.mem_append_right _ (List.mem_singleton_self p)
      · rw [← hv.payments]
        exact fun hp => Table.find_eq_none.1 hnew p hp rfl
    have hrest : Prog.Safe Discipline.serial (fun _ => True) (fun _ => s₁.paymentByKey (.cash i.id now) ≠ none)
        (fun t' s' _ => s' = s₁ ∧ Settles s₁ now i t' s')
        (Prog.bind (InvoiceService.creditReceipt i.paymentAccountId (some (s₁.residual i))) fun _ =>
          notify (.paymentCompleted p.id i.childId i.id p.amount .cash (input.paidAt.getD now))) t₁ s₁ := by
      refine Prog.Safe.bind trivial ((safe_creditOwed hpos ?_).mono ?_)
      · unfold Store.account?
        rw [hview]
        show ((Table.find (t.view s₁).accounts i.paymentAccountId)).isSome = true
        rw [hv.accounts]
        exact ha
      · rintro t₂ s₂ - - ⟨rfl, he⟩
        exact safe_notifyAfter _ ⟨hfree, hsettled.after he⟩
    exact hrest
  · intro hh hfree
    have hh : Store.hit (t.view s₁) (.insertPayment p) = false := hh
    rw [hhit.2 hfree] at hh
    cases hh

/-! ## The request -/

theorem justPaid_flip (hs : s.WF) (hi : i ∈ s.invoices) (hunpaid : i.status.unpaid = true) :
    (s.apply (.markInvoice i.id .paid)).invoice? i.id = some (InvoiceFlip.paid.set i) ∧
      JustPaid s i (s.apply (.markInvoice i.id .paid)) := by
  have hfind : (s.apply (.markInvoice i.id .paid)).invoice? i.id = some (InvoiceFlip.paid.set i) := by
    show Table.find (Table.updateWhere s.invoices i.id InvoiceFlip.paid.accepts InvoiceFlip.paid.set) i.id = _
    rw [Table.find_updateWhere s.invoices i.id InvoiceFlip.paid.accepts InvoiceFlip.paid.set fun _ => rfl]
    have hrow : Table.find s.invoices i.id = some i := Table.find_of_mem hs.invoiceIds hi
    have haccepts : InvoiceFlip.paid.accepts i = true := hunpaid
    rw [hrow]
    show some (if i.id = i.id ∧ InvoiceFlip.paid.accepts i = true then _ else i) = _
    rw [if_pos ⟨rfl, haccepts⟩]
  exact ⟨hfind, rfl, rfl, rfl, by rw [hfind]; rfl⟩

/-- Something is owed: it succeeds unless the key of the receipt is taken. -/
theorem safe_manualMarkPaidOwed (hs : s.WF) (hg : s.Grounded) (hi : i ∈ s.invoices) (hunpaid : i.status.unpaid = true)
    (hamount : input.amount = none) (hpos : 0 < s.residual i) :
    Prog.Safe Discipline.serial (fun _ => True) (fun _ => s.paymentByKey (.cash i.id now) ≠ none)
      (fun t' s' _ => s' = s ∧ Settles s now i t' s') (InvoiceService.manualMarkPaid now i.id input) Tx.start s := by
  have hrow : s.invoice? i.id = some i := Table.find_of_mem hs.invoiceIds hi
  obtain ⟨ha, hc⟩ := hg i hi
  obtain ⟨hflipped, hjust⟩ := justPaid_flip hs hi hunpaid
  refine safe_read ?_
  rw [Tx.view_start, hrow]
  show Prog.Safe Discipline.serial _ _ _ (Prog.bind (lockPrepaymentOf i) fun _ =>
    Prog.bind (InvoiceRepository.getPaidSumForInvoice i.id) fun priorPaidSum =>
      InvoiceService.receiveCash now i priorPaidSum input) _ s
  have hlock : Prog.Unfailing (fun _ => False) (lockPrepaymentOf i) := by
    unfold lockPrepaymentOf
    split <;> trivial
  refine Prog.Safe.bind trivial ((hlock.safe _ s).mono ?_)
  rintro t₁ s₁ - - ⟨rfl, he₁⟩
  have hview : t₁.view s₁ = s₁ := Tx.view_of_unwritten he₁.unwritten s₁
  refine safe_read ?_
  rw [hview]
  unfold InvoiceService.receiveCash
  rw [hamount]
  show Prog.Safe Discipline.serial _ _ _ (InvoiceService.recordFullCashPayment now i.id (s₁.residual i) input) _ s₁
  generalize ht₂ : t₁.saw s₁ = t₂
  have hview₂ : t₂.view s₁ = s₁ := by
    rw [← ht₂]
    exact hview
  rintro s₂ rfl -
  constructor
  · rintro - s₃ rfl -
    have hview₃ : (t₂.wrote (Write.markInvoice i.id .paid)).view s₃ = s₃.apply (.markInvoice i.id .paid) := by
      rw [Tx.view_wrote, hview₂]
      rfl
    generalize (t₂.wrote (Write.markInvoice i.id .paid)) = t₃ at hview₃ ⊢
    show Prog.Safe Discipline.serial _ _ _ (Prog.bind (Prog.ret ((t₃.view s₃).invoice? i.id)) _) _ _
    rw [hview₃, hflipped]
    let updated := InvoiceFlip.paid.set i
    show Prog.Safe Discipline.serial _ _ _ (Prog.bind (InvoiceService.cancelIfPrepayment updated) fun _ =>
      Prog.bind (InvoiceService.recordResidual now input updated (s₃.residual i)) fun _ =>
        Prog.bind (notify (.invoicePaid i.id i.childId i.amountAfterDiscount (input.paidAt.getD now))) fun _ =>
          Prog.ret updated) _ _
    refine Prog.Safe.bind trivial (((unfailing_cancelIfPrepayment updated).safe _ s₃).mono ?_)
    rintro t₄ s₄ - - ⟨rfl, he₄⟩
    obtain ⟨hpayments, haccounts, hreference, hpaid⟩ := kept_of_supersedes he₄ s₄ i.id
    rw [Tx.view_saw, hview₃] at hpayments haccounts hreference hpaid
    have hjust₄ : JustPaid s₄ i (t₄.view s₄) := ⟨hpayments.trans hjust.payments, haccounts.trans hjust.accounts,
      hreference.trans hjust.reference, hpaid.trans hjust.paid⟩
    unfold InvoiceService.recordResidual
    rw [if_pos hpos]
    refine Prog.Safe.bind trivial ((safe_recordCashOwed hjust₄ ha hc hpos).mono ?_)
    rintro t₅ s₅ - - ⟨rfl, h₅⟩
    refine Prog.Safe.bind trivial ((safe_notifyAfter _ h₅).mono ?_)
    rintro t₆ s₆ - - ⟨rfl, h₆⟩ s₇ rfl -
    exact ⟨rfl, h₆⟩
  · intro hmissed
    have hmissed : Store.hit (t₂.view s₂) (.markInvoice i.id .paid) = false := hmissed
    rw [hview₂] at hmissed
    have hmissed : (s₂.invoice? i.id).any InvoiceFlip.paid.accepts = false := hmissed
    rw [hrow] at hmissed
    exact absurd (show i.status.unpaid = false from hmissed) (by rw [hunpaid]; decide)

theorem owed_of_settlesInFull (h : SettlesInFull s now i input) : 0 < s.residual i := by
  obtain ⟨ids, r, hr⟩ := Prog.alone_ends (s := s) exists_absent (InvoiceService.manualMarkPaid now i.id input) Tx.start
  obtain ⟨i', tx, rfl, hsettled⟩ := h ids r hr
  obtain ⟨p, -, -, -, -, hpositive, howed⟩ := hsettled.receipt
  exact howed ▸ hpositive

/-- Something must be owed, and no other receipt of the invoice written in the same millisecond. -/
theorem settlesInFull_iff (hs : s.WF) (hg : s.Grounded) (hi : i ∈ s.invoices) (hunpaid : i.status.unpaid = true)
    (hamount : input.amount = none) :
    SettlesInFull s now i input ↔ 0 < s.residual i ∧ s.paymentByKey (.cash i.id now) = none := by
  constructor
  · intro h
    obtain ⟨ids, r, hr⟩ := Prog.alone_ends (s := s) exists_absent (InvoiceService.manualMarkPaid now i.id input) Tx.start
    obtain ⟨i', tx, rfl, -⟩ := h ids r hr
    have hpos := owed_of_settlesInFull h
    have hends := (safe_manualMarkPaidOwed hs hg hi hunpaid hamount hpos).alone trivial hr
    exact ⟨hpos, hends.2.1⟩
  · rintro ⟨hpos, hfree⟩ ids r hr
    have hends := (safe_manualMarkPaidOwed hs hg hi hunpaid hamount hpos).alone trivial hr
    cases r with
    | error e => exact absurd hfree hends
    | ok r => exact ⟨r.1, r.2, rfl, hends.2.2⟩

end

theorem settlesInFull_iff_monthly : ∃ i ∈ (Store.oneInvoice .monthly 500).invoices,
    SettlesInFull (Store.oneInvoice .monthly 500) 7 i ⟨none, none, none⟩ :=
  ⟨_, List.mem_singleton_self _, (settlesInFull_iff (by decide) (by decide) (List.mem_singleton_self _) rfl rfl).2
    (by decide)⟩

/-! ## A month without days -/

/-- The last day of the month is a holiday. -/
def Store.lastDayOff : Store :=
  { Store.enrolled with reference := { Store.enrolled.reference with holidays := [⟨30, false⟩] } }

/-- Enrolled on that day: the invoice is over nothing, and it cannot be settled. -/
theorem lastDay_not_settlesInFull : Store.lastDayOff.WF ∧ Store.lastDayOff.Grounded ∧ ∃ i tx,
    (InvoiceService.generateFirstInvoice 2606400000 1 2606400000).alone Store.lastDayOff [20, 21] Tx.start =
      some (.ok (i, tx)) ∧
    i ∈ (tx.view Store.lastDayOff).invoices ∧ i.status.unpaid = true ∧
    ¬SettlesInFull (tx.view Store.lastDayOff) 2606500000 i ⟨none, none, none⟩ := by
  refine ⟨by decide, by decide, ?_⟩
  obtain ⟨i, tx, hrun, hend⟩ := Prog.alone_shows_end
    (r := (InvoiceService.generateFirstInvoice 2606400000 1 2606400000).alone Store.lastDayOff [20, 21] Tx.start)
    (f := fun r => decide (r.1 ∈ (r.2.view Store.lastDayOff).invoices ∧ r.1.status.unpaid = true ∧
      (r.2.view Store.lastDayOff).residual r.1 = 0)) (by decide +kernel)
  obtain ⟨hi, hunpaid, hzero⟩ := of_decide_eq_true hend
  refine ⟨i, tx, hrun, hi, hunpaid, fun h => ?_⟩
  have hpos := owed_of_settlesInFull h
  rw [show (tx.view Store.lastDayOff).residual i = 0 from hzero] at hpos
  exact absurd hpos (by decide)

end Billing
