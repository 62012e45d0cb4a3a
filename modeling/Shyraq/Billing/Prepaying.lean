import Shyraq.Billing.Retrying
import Shyraq.Billing.QuoteBounds

/-!
# The create path by itself

What `prepayInvoice` comes to when nobody else is there, as a function of the store: the retry,
the quote of the store after it, and the rows that persist the quote.
-/

namespace Billing

open Kernel Transactions

variable {J : Store → Prop} {X : BillingError → Prop} {t t' : Tx Store Key Write} {s : Store} {A B : Type}

/-! ## Statements while nobody else is there -/

variable {Q : Tx Store Key Write → Store → B → Prop}

theorem safe_write {w : Write} {f : Bool → Sql B}
    (hit : (t.view s).hit w = true → Prog.Safe Discipline.serial J X Q (f true) (t.wrote w) s)
    (miss : (t.view s).hit w = false → Prog.Safe Discipline.serial J X Q (f false) t s) :
    Prog.Safe Discipline.serial J X Q (Prog.bind (Prog.update w) f) t s := by
  rintro s' rfl -
  exact ⟨hit, miss⟩

theorem safe_insert {w : Write} {e : BillingError} {f : Unit → Sql B}
    (hit : (t.view s).hit w = true → Prog.Safe Discipline.serial J X Q (f ()) (t.wrote w) s)
    (miss : (t.view s).hit w = false → X e) : Prog.Safe Discipline.serial J X Q (Prog.bind (insertOr w e) f) t s := by
  refine safe_write (fun h => ?_) fun h => ?_
  · exact hit h
  · exact miss h

theorem safe_draw {f : Nat → Sql B} (h : ∀ i, (t.view s).absent i = true → Key.row i ∉ t.held →
      Prog.Safe Discipline.serial J X Q (f i) (t.locked (.row i)) s) :
    Prog.Safe Discipline.serial J X Q (Prog.bind Prog.uuid f) t s := by
  rintro s' rfl - i ha hk
  exact h i ha hk

theorem safe_done {Q : Tx Store Key Write → Store → A → Prop} {a : A} (h : Q t s a) :
    Prog.Safe Discipline.serial J X Q (Prog.ret a) t s := by
  rintro s' rfl -
  exact h

/-! ## The retry -/

namespace InvoiceService

theorem safe_releaseIfCapped (app : CustomDiscountApplication) :
    Prog.Safe Discipline.serial J X (fun t' s' _ => s' = s ∧ t'.view s = (t.view s).releaseSlot app)
      (releaseIfCapped app) t s := by
  unfold releaseIfCapped
  refine safe_read ?_
  unfold Store.releaseSlot
  cases hd : Table.find (t.view s).customDiscounts app.customDiscountId with
  | none => exact safe_done ⟨rfl, rfl⟩
  | some d =>
    dsimp only
    split
    · exact safe_done ⟨rfl, rfl⟩
    · refine safe_write (fun _ => safe_done ⟨rfl, ?_⟩) fun h => ?_
      · rw [Tx.view_wrote, Tx.view_saw]
        rfl
      · have hhit : (t.view s).hit (.releaseUsage app.customDiscountId) = true := by
          show (Table.find (t.view s).customDiscounts app.customDiscountId).isSome = true
          rw [hd]
          rfl
        exact Bool.noConfusion (h.symm.trans hhit)

theorem safe_releaseAll (hj : J s) (apps : List CustomDiscountApplication) :
    Prog.Safe Discipline.serial J X (fun t' s' _ => s' = s ∧ t'.view s = (t.view s).releaseSlots apps)
      (Prog.forEach releaseIfCapped apps) t s := by
  induction apps generalizing t with
  | nil => exact safe_done ⟨rfl, rfl⟩
  | cons app apps ih =>
    refine Prog.Safe.bind hj ((safe_releaseIfCapped app).mono ?_)
    rintro t₁ s₁ - - ⟨rfl, hv₁⟩
    refine ih.mono ?_
    rintro t₂ s₂ - - ⟨rfl, hv₂⟩
    exact ⟨rfl, by rw [hv₂, hv₁]; rfl⟩

theorem safe_cancelStalePrepayment (hj : J s) {old : Invoice} (hfind : (t.view s).invoice? old.id = some old)
    (hu : old.status.unpaid = true) :
    Prog.Safe Discipline.serial J X (fun t' s' _ => s' = s ∧ t'.view s = (t.view s).cancelStale old)
      (cancelStalePrepayment old) t s := by
  have hhit : (t.view s).hit (.markInvoice old.id .cancelled) = true := by
    show (Table.find (t.view s).invoices old.id).any _ = true
    rw [show Table.find (t.view s).invoices old.id = some old from hfind]
    exact hu
  refine safe_write (fun _ => ?_) fun h => Bool.noConfusion (h.symm.trans hhit)
  have hv : (t.wrote (.markInvoice old.id .cancelled)).view s = (t.view s).apply (.markInvoice old.id .cancelled) :=
    Tx.view_wrote t s _
  refine safe_read ?_
  have hrow : ((t.wrote (.markInvoice old.id .cancelled)).view s).invoice? old.id =
      some (InvoiceFlip.cancelled.set old) := by
    rw [hv]
    show Table.find (Table.updateWhere (t.view s).invoices old.id _ _) old.id = _
    rw [Table.find_updateWhere _ _ _ InvoiceFlip.cancelled.set fun _ => rfl,
      show Table.find (t.view s).invoices old.id = some old from hfind]
    exact congrArg some (if_pos ⟨rfl, hu⟩)
  rw [hrow]
  refine safe_read ((safe_releaseAll hj _).mono ?_)
  rintro t₁ s₁ - - ⟨rfl, hv₁⟩
  refine ⟨rfl, hv₁.trans ?_⟩
  simp only [Tx.view_saw, hv]
  rfl

theorem safe_retry (hj : J s) (l : List Invoice) (hn : (l.map Invoice.id).Nodup)
    (hl : ∀ old ∈ l, (t.view s).invoice? old.id = some old ∧ old.status.unpaid = true) :
    Prog.Safe Discipline.serial J X (fun t' s' _ => s' = s ∧ t'.view s = l.foldl Store.cancelStale (t.view s))
      (Prog.forEach cancelStalePrepayment l) t s := by
  induction l generalizing t with
  | nil => exact safe_done ⟨rfl, rfl⟩
  | cons old l ih =>
    obtain ⟨hfind, hu⟩ := hl old List.mem_cons_self
    refine Prog.Safe.bind hj ((safe_cancelStalePrepayment hj hfind hu).mono ?_)
    rintro t₁ s₁ - - ⟨rfl, hv₁⟩
    refine (ih (List.nodup_cons.1 hn).2 fun q hq => ?_).mono ?_
    · refine ⟨?_, (hl q (List.mem_cons_of_mem _ hq)).2⟩
      have hne : q.id ≠ old.id := by
        intro he
        exact (List.nodup_cons.1 hn).1 (he ▸ List.mem_map_of_mem hq)
      rw [hv₁]
      have hone : ((t.view s₁).cancelStale old).invoices = Table.updateWhere (t.view s₁).invoices old.id
          InvoiceFlip.cancelled.accepts InvoiceFlip.cancelled.set := releaseSlots_invoices _ _
      show Table.find ((t.view s₁).cancelStale old).invoices q.id = some q
      rw [hone, Table.find_updateWhere_of_ne (f := InvoiceFlip.cancelled.set) (fun _ => rfl) hne]
      exact (hl q (List.mem_cons_of_mem _ hq)).1
    · rintro t₂ s₂ - - ⟨rfl, hv₂⟩
      exact ⟨rfl, by rw [hv₂, hv₁]; rfl⟩

/-! ## The rows of a quote -/

/-- Every discount of the quote comes to an amount that the ledger admits. -/
def Recordable (discount : DiscountEngine.Result) : Prop :=
  ∀ a ∈ discount.customApplicationsToWrite, 0 < a.amountApplied

/-- The invoice persists the quote: its window, percentage, total and shares. -/
structure Persists (childId : Nat) (months : PrepaymentMonths) (quote : PrepaymentQuote) (v : Store)
    (i : Invoice) : Prop where
  row : v.invoice? i.id = some i
  childId : i.childId = childId
  invoiceType : i.invoiceType = .prepayment months
  status : i.status = .pending
  periodStart : i.periodStart = quote.windowStart
  periodEnd : i.periodEnd = quote.windowEnd
  discountPct : i.discountPct = quote.discount.discountPct
  total : i.amountAfterDiscount = quote.total
  shares : (v.lineItems.filter fun li => li.invoiceId == i.id).map InvoiceLineItem.lineTotal = quote.shares

theorem safe_ensureForChild {childId : Nat} (hchild : (t.view s).hasChild childId = true) :
    Prog.Safe Discipline.serial J X (fun t' s' a => s' = s ∧
      ∃ as, t'.view s = { t.view s with accounts := as } ∧ (Table.find as a.id).isSome = true)
      (PaymentAccountService.ensureForChild childId) t s := by
  have found : ∀ {as : List PaymentAccount} {a : PaymentAccount},
      as.find? (fun a => a.childId == childId) = some a → (Table.find as a.id).isSome = true := by
    intro as a h
    rw [Table.find, List.find?_isSome]
    exact ⟨a, List.mem_of_find?_eq_some h, by simp [Row.id]⟩
  unfold PaymentAccountService.ensureForChild PaymentAccountRepository.findOrCreateForChild
  refine safe_read ?_
  cases ha : (t.view s).accountOfChild childId with
  | some a => exact safe_done ⟨rfl, (t.view s).accounts, rfl, found ha⟩
  | none =>
    refine safe_draw fun id habsent _ => ?_
    rw [Tx.view_saw] at habsent
    have hnone : ((t.view s).accounts.any fun b => b.childId == childId) = false := by
      rw [List.any_eq_false]
      exact fun b hb => List.find?_eq_none.1 ha b hb
    have hid : (Table.find (t.view s).accounts id).isNone = true := by
      unfold Store.absent at habsent
      simp only [Bool.and_eq_true] at habsent
      exact habsent.1.1.1.1.1.1.1.1.1
    have hadmitted : (t.view s).admitsAccount ⟨id, childId, 0⟩ = true := by
      unfold Store.admitsAccount
      rw [hid, hnone]
      rfl
    refine safe_write (fun _ => ?_) fun h => ?_
    · have hv : ((((t.saw s).locked (.row id)).wrote (.insertAccount ⟨id, childId, 0⟩)).view s) =
          { t.view s with accounts := (t.view s).accounts ++ [⟨id, childId, 0⟩] } := by
        rw [Tx.view_wrote, Tx.view_locked, Tx.view_saw]
        show Store.apply _ _ = _
        unfold Store.apply
        simp only [hadmitted, if_true]
      refine safe_read ?_
      have hafter : ((((t.saw s).locked (.row id)).wrote (.insertAccount ⟨id, childId, 0⟩)).view s).accountOfChild
          childId = some ⟨id, childId, 0⟩ := by
        rw [hv]
        unfold Store.accountOfChild at ha ⊢
        rw [List.find?_append, ha]
        simp
      rw [hafter]
      refine safe_done ⟨rfl, _, hv, ?_⟩
      rw [Table.find_append]
      simp [Row.id]
    · have hhit : (t.view s).hit (.insertAccount ⟨id, childId, 0⟩) = true := by
        show (_ && _) = true
        rw [hadmitted, hchild]
        rfl
      exact Bool.noConfusion (h.symm.trans hhit)

theorem newLineItem_lineTotal (id invoiceId : Nat) (planId : Option Nat) (share createdAt : Int) :
    (newLineItem id invoiceId planId 1 share createdAt).lineTotal = share := by
  show MoneyKzt.round (MoneyKzt.toDecimal share * 1) = share
  rw [mul_one, MoneyKzt.round_toDecimal]

/-- Line items that can be inserted for an invoice. -/
structure Insertable (invoiceId : Nat) (shares : List Int) (v : Store) (items : List InvoiceLineItem) : Prop where
  lineTotals : items.map InvoiceLineItem.lineTotal = shares
  distinct : (items.map InvoiceLineItem.id).Nodup
  absent : ∀ li ∈ items, Table.find v.lineItems li.id = none
  invoiceId : ∀ li ∈ items, li.invoiceId = invoiceId
  quantity : ∀ li ∈ items, li.quantity = 1
  unitPrice : ∀ li ∈ items, li.unitPrice = li.lineTotal

theorem safe_prepaymentLineItems (hj : J s) (now : Int) (invoiceId planId i : Nat) (shares : List Int) :
    Prog.Safe Discipline.serial J X (fun t' s' items => s' = s ∧ t'.writes = t.writes ∧
      Insertable invoiceId shares (t.view s) items ∧ ∀ li ∈ items, Key.row li.id ∉ t.held)
      (prepaymentLineItems now invoiceId planId i shares) t s := by
  induction shares generalizing t i with
  | nil => exact safe_done ⟨rfl, rfl, ⟨rfl, List.nodup_nil, by simp, by simp, by simp, by simp⟩, by simp⟩
  | cons share shares ih =>
    refine safe_draw fun id habsent hheld => ?_
    refine Prog.Safe.bind hj ((ih (i + 1)).mono ?_)
    rintro t₁ s₁ items - ⟨rfl, hw, hi, hfresh⟩
    have hv : (t.locked (Key.row id)).view s₁ = t.view s₁ := rfl
    have hnone : Table.find (t.view s₁).lineItems id = none := by
      unfold Store.absent at habsent
      simp only [Bool.and_eq_true, Option.isNone_iff_eq_none] at habsent
      exact habsent.1.1.1.1.1.1.1.2
    have hnew : id ∉ items.map InvoiceLineItem.id := by
      intro hmem
      obtain ⟨li, hli, rfl⟩ := List.mem_map.1 hmem
      exact hfresh li hli List.mem_cons_self
    refine safe_done ⟨rfl, hw, ⟨?_, ?_, ?_, ?_, ?_, ?_⟩, ?_⟩
    · rw [List.map_cons, newLineItem_lineTotal, hi.lineTotals]
    · rw [List.map_cons, List.nodup_cons]
      exact ⟨hnew, hi.distinct⟩
    · exact List.forall_mem_cons.2 ⟨hnone, hi.absent⟩
    · exact List.forall_mem_cons.2 ⟨rfl, hi.invoiceId⟩
    · exact List.forall_mem_cons.2 ⟨rfl, hi.quantity⟩
    · exact List.forall_mem_cons.2 ⟨(newLineItem_lineTotal _ _ _ _ _).symm, hi.unitPrice⟩
    · exact List.forall_mem_cons.2 ⟨hheld, fun li hli hk => hfresh li hli (List.mem_cons_of_mem _ hk)⟩

theorem safe_insertLineItems (hj : J s) {invoiceId : Nat} {shares : List Int} {items : List InvoiceLineItem}
    (hi : Insertable invoiceId shares (t.view s) items) (hshares : ∀ share ∈ shares, 0 ≤ share)
    (hinvoice : (t.view s).hasInvoice invoiceId = true) : Prog.Safe Discipline.serial J X (fun t' s' _ => s' = s ∧
      t'.view s = { t.view s with lineItems := (t.view s).lineItems ++ items })
      (Prog.forEach (fun li => insertOr (.insertLineItem li) (.internal "invoice_line_items")) items) t s := by
  induction items generalizing t shares with
  | nil => exact safe_done ⟨rfl, by rw [List.append_nil]⟩
  | cons li items ih =>
    obtain ⟨rfl⟩ := hi.lineTotals
    have hnonneg : 0 ≤ li.lineTotal := hshares _ List.mem_cons_self
    have hadmits : (t.view s).admitsLineItem li = true := by
      unfold Store.admitsLineItem
      rw [hi.absent li List.mem_cons_self, hi.invoiceId li List.mem_cons_self, hinvoice,
        hi.quantity li List.mem_cons_self, hi.unitPrice li List.mem_cons_self]
      simp [hnonneg]
    have hv : (t.wrote (.insertLineItem li)).view s =
        { t.view s with lineItems := (t.view s).lineItems ++ [li] } := by
      rw [Tx.view_wrote]
      show Store.apply _ _ = _
      unfold Store.apply
      simp only [hadmits, if_true]
    refine safe_write (fun _ => ?_) fun h => Bool.noConfusion (h.symm.trans hadmits)
    have hrest : Insertable invoiceId (items.map InvoiceLineItem.lineTotal)
        ((t.wrote (.insertLineItem li)).view s) items := by
      refine ⟨rfl, (List.nodup_cons.1 hi.distinct).2, fun q hq => ?_,
        fun q hq => hi.invoiceId q (List.mem_cons_of_mem _ hq), fun q hq => hi.quantity q (List.mem_cons_of_mem _ hq),
        fun q hq => hi.unitPrice q (List.mem_cons_of_mem _ hq)⟩
      have hne : ¬ Row.id li = q.id := by
        intro he
        have he : li.id = q.id := he
        exact (List.nodup_cons.1 hi.distinct).1 (he ▸ List.mem_map_of_mem hq)
      rw [hv]
      show Table.find ((t.view s).lineItems ++ [li]) q.id = none
      rw [Table.find_append, hi.absent q (List.mem_cons_of_mem _ hq), if_neg hne]
      rfl
    refine (ih hrest (fun share hshare => hshares share (List.mem_cons_of_mem _ hshare)) ?_).mono ?_
    · rw [hv]
      exact hinvoice
    · rintro t₁ s₁ - - ⟨rfl, hv₁⟩
      refine ⟨rfl, hv₁.trans ?_⟩
      rw [hv]
      simp only [List.append_assoc, List.singleton_append]

/-- The INSERT of an invoice that the constraints admit, with its line items. -/
theorem safe_createInvoice (hj : J s) {invoice : Invoice} {shares : List Int} {items : List InvoiceLineItem}
    (hadmits : (t.view s).hit (.insertInvoice invoice) = true)
    (hi : Insertable invoice.id shares (t.view s) items) (hshares : ∀ share ∈ shares, 0 ≤ share) :
    Prog.Safe Discipline.serial J X (fun t' s' r => s' = s ∧ r = invoice ∧
      t'.view s = { t.view s with
        invoices := (t.view s).invoices ++ [invoice], lineItems := (t.view s).lineItems ++ items })
      (InvoiceRepository.create invoice items) t s := by
  have hadmitted : (t.view s).admitsInvoice invoice = true := by
    have : ((t.view s).admitsInvoice invoice && (t.view s).hasChild invoice.childId) = true := hadmits
    rw [Bool.and_eq_true] at this
    exact this.1
  have hv : (t.wrote (.insertInvoice invoice)).view s =
      { t.view s with invoices := (t.view s).invoices ++ [invoice] } := by
    rw [Tx.view_wrote]
    show Store.apply _ _ = _
    unfold Store.apply
    simp only [hadmitted, if_true]
  unfold InvoiceRepository.create
  refine safe_insert (fun _ => ?_) fun h => Bool.noConfusion (h.symm.trans hadmits)
  have hi' : Insertable invoice.id shares ((t.wrote (.insertInvoice invoice)).view s) items := by
    rw [hv]
    exact ⟨hi.lineTotals, hi.distinct, hi.absent, hi.invoiceId, hi.quantity, hi.unitPrice⟩
  refine Prog.Safe.bind hj ((safe_insertLineItems hj hi' hshares ?_).mono ?_)
  · rw [hv]
    show (Table.find ((t.view s).invoices ++ [invoice]) invoice.id).isSome = true
    rw [Table.find_append]
    simp [Row.id]
  · rintro t₁ s₁ - - ⟨rfl, hv₁⟩
    refine safe_done ⟨rfl, rfl, hv₁.trans ?_⟩
    rw [hv]

theorem safe_insertApplications (hj : J s) (now : Int) (invoice : Invoice) (lineItemId : Nat)
    {apps : List DiscountEngine.CustomApplication} (hinvoice : (t.view s).hasInvoice invoice.id = true)
    (hknown : ∀ app ∈ apps, (Table.find (t.view s).customDiscounts app.customDiscountId).isSome = true)
    (hX : (¬ ∀ app ∈ apps, 0 < app.amountApplied) → X (.internal "custom_discount_applications")) :
    Prog.Safe Discipline.serial J X (fun t' s' _ => s' = s ∧ (∀ app ∈ apps, 0 < app.amountApplied) ∧
      ∃ as, t'.view s = { t.view s with applications := as })
      (Prog.forEach (fun app => Prog.bind Prog.uuid fun id => insertOr (.insertApplication
        { id := id
          customDiscountId := app.customDiscountId
          invoiceId := invoice.id
          invoiceLineItemId := some lineItemId
          childId := invoice.childId
          amountApplied := app.amountApplied
          appliedAt := now }) (.internal "custom_discount_applications")) apps) t s := by
  induction apps generalizing t with
  | nil => exact safe_done ⟨rfl, by simp, (t.view s).applications, rfl⟩
  | cons app apps ih =>
    refine safe_draw fun id habsent _ => ?_
    have hid : (Table.find (t.view s).applications id).isNone = true := by
      unfold Store.absent at habsent
      simp only [Bool.and_eq_true] at habsent
      exact habsent.1.1.1.2
    have hhit : ∀ row : CustomDiscountApplication, row.id = id → row.customDiscountId = app.customDiscountId →
        row.invoiceId = invoice.id → row.amountApplied = app.amountApplied →
        (t.view s).admitsApplication row = decide (0 < app.amountApplied) := by
      intro row h₁ h₂ h₃ h₄
      unfold Store.admitsApplication
      rw [h₁, h₂, h₃, h₄, hid, hknown app List.mem_cons_self, hinvoice]
      rfl
    refine safe_insert (fun h => ?_) fun h => ?_
    · have hadmits : (t.view s).admitsApplication _ = true := h
      have hpos : 0 < app.amountApplied := by
        rw [hhit _ rfl rfl rfl rfl] at hadmits
        exact of_decide_eq_true hadmits
      have hv := Tx.view_wrote (t.locked (.row id)) s (Write.insertApplication
        { id := id
          customDiscountId := app.customDiscountId
          invoiceId := invoice.id
          invoiceLineItemId := some lineItemId
          childId := invoice.childId
          amountApplied := app.amountApplied
          appliedAt := now })
      refine (ih ?_ ?_ fun hno => hX fun hall => hno fun q hq => hall q (List.mem_cons_of_mem _ hq)).mono ?_
      · rw [hv]
        exact hinvoice
      · rw [hv]
        exact fun q hq => hknown q (List.mem_cons_of_mem _ hq)
      · rintro t₁ s₁ - - ⟨rfl, hall, as, has⟩
        refine ⟨rfl, List.forall_mem_cons.2 ⟨hpos, hall⟩, as, has.trans ?_⟩
        rw [hv]
        rfl
    · have hrefused : (t.view s).admitsApplication _ = false := h
      refine hX fun hall => ?_
      rw [hhit _ rfl rfl rfl rfl] at hrefused
      exact of_decide_eq_false hrefused (hall app List.mem_cons_self)

/-- **The quote persists** unless one of its discounts comes to nothing. -/
theorem safe_persistPrepayment (hj : J s) {v : Store} {now : Int} {childId : Nat} {months : PrepaymentMonths}
    {quote : PrepaymentQuote} (hq : Admissible v quote)
    (hds : (t.view s).customDiscounts.map CustomDiscount.id = v.customDiscounts.map CustomDiscount.id)
    (hitems : ∀ li ∈ (t.view s).lineItems, (t.view s).hasInvoice li.invoiceId = true)
    (hchild : (t.view s).hasChild childId = true)
    (hX : ¬ Recordable quote.discount → X (.internal "custom_discount_applications")) :
    Prog.Safe Discipline.serial J X (fun t' s' i => s' = s ∧ Recordable quote.discount ∧
      Persists childId months quote (t'.view s) i) (persistPrepayment now childId months quote) t s := by
  unfold persistPrepayment
  refine Prog.Safe.bind hj ((safe_ensureForChild hchild).mono ?_)
  rintro t₁ s₁ account - ⟨rfl, as, hv₁, haccount⟩
  refine safe_draw fun id habsent hheld => ?_
  have hid : Table.find (t.view s₁).invoices id = none := by
    rw [hv₁] at habsent
    unfold Store.absent at habsent
    simp only [Bool.and_eq_true, Option.isNone_iff_eq_none] at habsent
    exact habsent.1.1.1.1.1.1.1.1.2
  refine Prog.Safe.bind hj ((safe_prepaymentLineItems hj now id quote.tariffPlan.id 0 quote.shares).mono ?_)
  rintro t₂ s₂ items - ⟨rfl, hw₂, hnew, -⟩
  have hv₂ : t₂.view s₂ = { t.view s₂ with accounts := as } := (view_of_writes_eq hw₂ s₂).trans hv₁
  have hnew : Insertable id quote.shares (t₂.view s₂) items := by
    rw [view_of_writes_eq hw₂ s₂]
    exact hnew
  generalize hinvoice : Invoice.mk id childId account.id _ _ _ _ _ _ _ _ _ _ _ _ = invoice
  have hinvoiceId : invoice.id = id := by rw [← hinvoice]
  have hhit : (t₂.view s₂).hit (.insertInvoice invoice) = true := by
    rw [hv₂, ← hinvoice]
    show ((_ && _ && _ && _ && _ && _) && _) = true
    simp only [Bool.and_eq_true, decide_eq_true_eq]
    refine ⟨⟨⟨⟨⟨⟨?_, haccount⟩, hq.baseTotal⟩, hq.total⟩, hq.window⟩, ?_⟩, hchild⟩
    · rw [hid]
      rfl
    · rw [Option.all_eq_true]
      intro p hp
      have := hq.discountPct p hp
      simp [this]
  rw [← hinvoiceId] at hnew
  refine Prog.Safe.bind hj ((safe_createInvoice hj hhit hnew hq.shares).mono ?_)
  rintro t₃ s₃ persisted - ⟨rfl, rfl, hv₃⟩
  have hknown : ∀ app ∈ quote.discount.customApplicationsToWrite,
      (Table.find (t₃.view s₃).customDiscounts app.customDiscountId).isSome = true := by
    intro app happ
    obtain ⟨d, hd, hdid⟩ := hq.applied app happ
    have hmem : d.id ∈ (t.view s₃).customDiscounts.map CustomDiscount.id := by
      rw [hds]
      exact List.mem_map_of_mem hd
    obtain ⟨d', hd', hid'⟩ := List.mem_map.1 hmem
    rw [hv₃, hv₂, Table.find, List.find?_isSome]
    exact ⟨d', hd', by simp [Row.id, hid', hdid]⟩
  have hhas : (t₃.view s₃).hasInvoice persisted.id = true := by
    rw [hv₃]
    show (Table.find ((t₂.view s₃).invoices ++ [persisted]) persisted.id).isSome = true
    rw [Table.find_append]
    simp [Row.id]
  have hrows := safe_insertApplications (X := X) (t := t₃) hj now persisted
    ((items.head?.map InvoiceLineItem.id).getD 0) hhas hknown hX
  refine Prog.Safe.bind hj (hrows.mono ?_)
  rintro t₄ s₄ - - ⟨rfl, hrec, apps, hv₄⟩
  have hfinal : Persists childId months quote (t₄.view s₄) persisted := by
    rw [hv₄, hv₃, hv₂, ← hinvoice]
    refine ⟨?_, rfl, rfl, rfl, rfl, rfl, rfl, rfl, ?_⟩
    · show Table.find ((t.view s₄).invoices ++ [_]) id = _
      rw [Table.find_append, hid, Option.none_or]
      exact if_pos rfl
    · show (((t.view s₄).lineItems ++ items).filter fun li => li.invoiceId == id).map _ = _
      have hold : (t.view s₄).lineItems.filter (fun li => li.invoiceId == id) = [] := by
        rw [List.filter_eq_nil_iff]
        intro li hli heq
        have hsome := hitems li hli
        unfold Store.hasInvoice at hsome
        rw [beq_iff_eq.1 heq, hid] at hsome
        cases hsome
      have hmine : items.filter (fun li => li.invoiceId == id) = items := by
        rw [List.filter_eq_self]
        intro li hli
        rw [hnew.invoiceId li hli, hinvoiceId]
        exact beq_self_eq_true id
      rw [List.filter_append, hold, hmine, List.nil_append, hnew.lineTotals]
  refine safe_write (fun _ => safe_done ⟨rfl, hrec, ?_⟩) fun _ => safe_done ⟨rfl, hrec, hfinal⟩
  rw [Tx.view_wrote]
  exact ⟨hfinal.row, hfinal.childId, hfinal.invoiceType, hfinal.status, hfinal.periodStart, hfinal.periodEnd,
    hfinal.discountPct, hfinal.total, hfinal.shares⟩

/-! ## The whole request -/

/-- The errors of the create path on a store. -/
inductive Refuses (s : Store) (now : Int) (childId : Nat) (months : PrepaymentMonths) : BillingError → Prop
  | blocked {reason : BlockedReason} : s.blocked childId = some reason →
      Refuses s now childId months (blockedError reason)
  | quote {e : BillingError} : s.blocked childId = none →
      (s.afterRetry childId).quote now childId months = .error e → Refuses s now childId months e
  | overlap {reason : BlockedReason} : s.blocked childId = none →
      (s.afterRetry childId).quote now childId months = .ok (.inl reason) →
      Refuses s now childId months (blockedError reason)
  | ledger {quote : PrepaymentQuote} : s.blocked childId = none →
      (s.afterRetry childId).quote now childId months = .ok (.inr quote) → ¬ Recordable quote.discount →
      Refuses s now childId months (.internal "custom_discount_applications")

/-- The invoice of the create path, in the store that it leaves. -/
structure Prepays (s : Store) (now : Int) (childId : Nat) (months : PrepaymentMonths) (quote : PrepaymentQuote)
    (v : Store) (i : Invoice) : Prop where
  unblocked : s.blocked childId = none
  quoted : (s.afterRetry childId).quote now childId months = .ok (.inr quote)
  recordable : Recordable quote.discount
  persists : Persists childId months quote v i

end InvoiceService

theorem ids_of_slots (h : Tx.Extends Slots t t') (s : Store) :
    (t'.view s).customDiscounts.map CustomDiscount.id = (t.view s).customDiscounts.map CustomDiscount.id := by
  refine h.view_eq (fun v => v.customDiscounts.map CustomDiscount.id) (fun v w hw => ?_) s
  have updated : ∀ (i : Nat) (p : CustomDiscount → Bool) (f : CustomDiscount → CustomDiscount),
      (∀ d, (f d).id = d.id) → (Table.updateWhere v.customDiscounts i p f).map CustomDiscount.id =
        v.customDiscounts.map CustomDiscount.id := by
    intro i p f hf
    unfold Table.updateWhere
    rw [List.map_map]
    refine List.map_congr_left fun d _ => ?_
    show CustomDiscount.id (if _ then _ else _) = _
    split
    · exact hf d
    · rfl
  rcases hw with ⟨i, rfl⟩ | ⟨i, rfl⟩
  · exact updated i _ _ fun _ => rfl
  · exact updated i _ _ fun _ => rfl

theorem retire_id (childId : Nat) (i : Invoice) : (i.retire childId).id = i.id := by
  unfold Invoice.retire
  split <;> rfl

theorem constrained_afterRetry (hs : s.Constrained) (childId : Nat) : (s.afterRetry childId).Constrained := by
  have hr := released_afterRetry s childId
  have hids : (s.afterRetry childId).invoices.map Invoice.id = s.invoices.map Invoice.id := by
    rw [afterRetry_rows hs.invoices, List.map_map]
    exact List.map_congr_left fun i _ => retire_id childId i
  refine ⟨?_, hr.unique hs.customDiscounts, ?_, ?_, ?_, ?_⟩
  · show ((s.afterRetry childId).invoices.map Invoice.id).Nodup
    rw [hids]
    exact hs.invoices
  · intro li hli
    have hli : li ∈ s.lineItems := by
      obtain ⟨is, ds, he⟩ := hr.store
      rw [he] at hli
      exact hli
    have hold := hs.lineItems li hli
    unfold Store.hasInvoice Table.find at hold ⊢
    rw [List.find?_isSome] at hold ⊢
    obtain ⟨i, hi, hid⟩ := hold
    rw [afterRetry_rows hs.invoices]
    refine ⟨i.retire childId, List.mem_map_of_mem hi, ?_⟩
    show ((i.retire childId).id == li.invoiceId) = true
    rw [retire_id]
    exact hid
  · unfold Store.hasChild
    rw [hr.reference]
    exact hs.assigned
  · rw [hr.reference]
    exact hs.planAmount
  · rw [hr.reference]
    exact hs.customAmount

namespace InvoiceService

/-- **The create path** refuses for one of its reasons, or persists the quote of the store after
the retry. -/
theorem safe_prepayInvoice (hj : J s) (hs : s.Constrained) (now : Int) (childId : Nat) (months : PrepaymentMonths) :
    Prog.Safe Discipline.serial J (Refuses s now childId months)
      (fun t s' i => ∃ quote, Prepays s now childId months quote (t.view s') i)
      (prepayInvoice now childId months) Tx.start s := by
  unfold prepayInvoice InvoiceRepository.acquireChildPrepaymentAdvisoryLock
  rintro s' rfl -
  show Prog.Safe _ _ _ _ (Prog.bind (computeOutstandingDebt childId) _) _ _
  refine Prog.Safe.bind_reads hj (reads_computeOutstandingDebt s' childId) (by simp) ?_
  rintro outstanding houtstanding t₁ he₁
  obtain rfl := Except.ok.inj houtstanding
  have hv₁ : t₁.view s' = s' := view_of_writes_eq he₁.unwritten s'
  cases hdebt : s'.outstandingDebt childId with
  | some amount =>
    show Refuses s' now childId months (blockedError (.outstandingDebt amount))
    refine Refuses.blocked ?_
    unfold Store.blocked
    rw [hdebt]
  | none =>
  refine safe_read ?_
  rw [hv₁]
  refine Prog.Safe.bind_reads hj (t := t₁.saw s') (r := .ok (s'.moneyHolding childId)) ?_ (by simp) ?_
  · rw [Tx.view_saw, hv₁]
    exact reads_findMoneyHolding s' childId
  rintro holding hholding t₂ he₂
  obtain rfl := Except.ok.inj hholding
  have hv₂ : t₂.view s' = s' := (view_of_writes_eq he₂.unwritten s').trans hv₁
  have hblocked : s'.blocked childId = (s'.moneyHolding childId).map fun h =>
      .partialPrepaymentExists h.1.id h.2 := by
    unfold Store.blocked
    rw [hdebt]
  cases hmoney : s'.moneyHolding childId with
  | some h =>
    show Refuses s' now childId months (blockedError (.partialPrepaymentExists h.1.id h.2))
    refine Refuses.blocked ?_
    rw [hblocked, hmoney]
    rfl
  | none =>
  have hfree : s'.blocked childId = none := by
    rw [hblocked, hmoney]
    rfl
  have hnodup : ((s'.stalePrepayments childId).map Invoice.id).Nodup := by
    unfold Store.stalePrepayments orderBy
    rw [((List.perm_insertionSort _ _).map Invoice.id).nodup_iff]
    exact List.Nodup.sublist (List.filter_sublist.map _) hs.invoices
  have hstale : ∀ old ∈ s'.stalePrepayments childId,
      (t₂.view s').invoice? old.id = some old ∧ old.status.unpaid = true := by
    intro old hold
    obtain ⟨hmem, -, -, hu⟩ := mem_stalePrepayments.1 hold
    rw [hv₂]
    exact ⟨Table.find_of_mem hs.invoices hmem, hu⟩
  refine Prog.Safe.bind hj ((safe_retry hj (s'.stalePrepayments childId) hnodup hstale).mono ?_)
  rintro t₃ s₃ - - ⟨rfl, hv₃⟩
  rw [hv₂] at hv₃
  have hv₃ : t₃.view s₃ = s₃.afterRetry childId := hv₃
  have hs₃ := constrained_afterRetry hs childId
  have hquote := safe_computePrepaymentQuote (X := Refuses s₃ now childId months) (t := t₃) hj
    (by rw [hv₃]; exact hs₃.customDiscounts) now childId months
    (by rw [hv₃]; exact fun e he => Refuses.quote hfree he)
  rw [hv₃] at hquote
  refine Prog.Safe.bind hj (hquote.mono ?_)
  rintro t₄ s₄ quote - ⟨rfl, he₄, hq⟩
  cases quote with
  | inl reason => exact Refuses.overlap hfree hq
  | inr quote =>
  obtain ⟨ds, hds⟩ := view_of_slots he₄ s₄
  rw [hv₃] at hds
  have hids := ids_of_slots he₄ s₄
  rw [hv₃] at hids
  obtain ⟨assignment, tariffPlan, htariff, -⟩ := Store.quote_priced hq
  have hchild : (t₄.view s₄).hasChild childId = true := by
    obtain ⟨hassigned, hc, -⟩ := Store.tariffFor_mem htariff
    have hfk := hs₃.assigned assignment hassigned
    rw [hc] at hfk
    rw [hds]
    exact hfk
  have hitems : ∀ li ∈ (t₄.view s₄).lineItems, (t₄.view s₄).hasInvoice li.invoiceId = true := by
    rw [hds]
    exact hs₃.lineItems
  refine (safe_persistPrepayment hj (Store.admissible_quote hs₃ hq) hids hitems hchild
    fun hno => Refuses.ledger hfree hq hno).mono ?_
  rintro t₅ s₅ i - ⟨rfl, hrec, hpersists⟩
  exact ⟨quote, hfree, hq, hrec, hpersists⟩

end InvoiceService

end Billing
