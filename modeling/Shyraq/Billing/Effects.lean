import Shyraq.Billing.Rules

/-!
# Effects on the tables

What a transaction makes of each table, as a relation between the committed store and the
store as the transaction sees it.
-/

namespace Billing

open Kernel Transactions

/-! ## Relations between tables -/

/-- The balance of one account has moved. -/
def BalanceMoved (l l' : List PaymentAccount) (id : Nat) (delta : Int) : Prop :=
  ∃ a, Table.Replaced l l' id a { a with balance := a.balance + delta }

/-- The balance of an account. -/
def Store.balanceOf (s : Store) (id : Nat) : Int := ((s.account? id).map PaymentAccount.balance).getD 0

variable {s : Store}

theorem balanceOf_congr {s' : Store} (h : s'.accounts = s.accounts) (a : Nat) : s'.balanceOf a = s.balanceOf a := by
  unfold Store.balanceOf Store.account?
  rw [h]

theorem BalanceMoved.balanceOf {s' : Store} {id : Nat} {delta : Int}
    (h : BalanceMoved s.accounts s'.accounts id delta) : s'.balanceOf id = s.balanceOf id + delta := by
  obtain ⟨a, hr⟩ := h
  have hb : s.account? id = some a := hr.before
  have ha : s'.account? id = some { a with balance := a.balance + delta } := hr.find_self
  simp [Store.balanceOf, hb, ha]

/-- A payment row with other flags, in the same status. -/
structure Payment.Flagged (p p' : Payment) : Prop extends Payment.Step p p' where
  same : p'.status = p.status

theorem Payment.Flagged.refl (p : Payment) : Payment.Flagged p p := ⟨.refl p, rfl⟩

theorem Payment.Flagged.trans {a b c : Payment} (h₁ : Payment.Flagged a b)
    (h₂ : Payment.Flagged b c) : Payment.Flagged a c :=
  ⟨h₁.toStep.trans h₂.toStep, h₂.same.trans h₁.same⟩

/-- An unpaid monthly that a settled prepayment covers is cancelled. -/
def Invoice.Voided (i i' : Invoice) : Prop :=
  i' = i ∨ i.invoiceType = .monthly ∧ i.status.unpaid = true ∧ i' = InvoiceFlip.cancelled.set i

theorem Invoice.Voided.refl (i : Invoice) : Invoice.Voided i i := .inl rfl

theorem Invoice.Voided.trans {a b c : Invoice} (h₁ : Invoice.Voided a b)
    (h₂ : Invoice.Voided b c) : Invoice.Voided a c := by
  rcases h₁ with rfl | ⟨ht, hu, rfl⟩
  · exact h₂
  · rcases h₂ with rfl | ⟨-, hu', -⟩
    · exact .inr ⟨ht, hu, rfl⟩
    · cases hu'

theorem Invoice.Voided.step {i i' : Invoice} (h : Invoice.Voided i i') : Invoice.Step i i' := by
  rcases h with rfl | ⟨-, hu, rfl⟩
  · exact .refl _
  · exact InvoiceFlip.step (f := .cancelled) hu

/-- At most one invoice flips. -/
def Flips (l l' : List Invoice) (id : Nat) : Option InvoiceFlip → Prop
  | none => l' = l
  | some f => ∃ i, f.accepts i = true ∧ Table.Replaced l l' id i (f.set i)

theorem Flips.rewrites {l l' : List Invoice} {id : Nat} {flip : Option InvoiceFlip}
    (h : Flips l l' id flip) : Table.Rewrites Invoice.Step l l' := by
  cases flip with
  | none =>
    rw [show l' = l from h]
    exact .refl Invoice.Step.refl l
  | some f =>
    obtain ⟨i, ha, hr⟩ := h
    exact hr.rewrites Invoice.Step.refl (InvoiceFlip.step ha)

theorem Flips.rewrites_voided {l l' l'' : List Invoice} {id : Nat} {flip : Option InvoiceFlip}
    (h : Flips l l' id flip) (hv : Table.Rewrites Invoice.Voided l' l'') :
    Table.Rewrites Invoice.Step l l'' :=
  h.rewrites.trans (fun _ _ _ h h' => h.trans h') (hv.mono fun _ _ h => h.step)

/-- The statements of a flip. -/
def flipWrites (id : Nat) : Option InvoiceFlip → List Write
  | none => []
  | some f => [.markInvoice id f]

/-! ## Writes and views -/

section Views

variable {P : Write → Prop} {t t' : Tx Store Key Write}

theorem accounts_of_extends (h : Tx.Extends P t t') (hP : ∀ w, P w → w.table ≠ .accounts)
    (s : Store) : (t'.view s).accounts = (t.view s).accounts :=
  h.view_eq Store.accounts (fun s w hw => s.accounts_apply w (hP w hw)) s

theorem invoices_of_extends (h : Tx.Extends P t t') (hP : ∀ w, P w → w.table ≠ .invoices)
    (s : Store) : (t'.view s).invoices = (t.view s).invoices :=
  h.view_eq Store.invoices (fun s w hw => s.invoices_apply w (hP w hw)) s

theorem payments_of_extends (h : Tx.Extends P t t') (hP : ∀ w, P w → w.table ≠ .payments)
    (s : Store) : (t'.view s).payments = (t.view s).payments :=
  h.view_eq Store.payments (fun s w hw => s.payments_apply w (hP w hw)) s

theorem refunds_of_extends (h : Tx.Extends P t t') (hP : ∀ w, P w → w.table ≠ .refunds)
    (s : Store) : (t'.view s).refunds = (t.view s).refunds :=
  h.view_eq Store.refunds (fun s w hw => s.refunds_apply w (hP w hw)) s

theorem view_of_writes {ws : List Write} (h : t'.writes = t.writes ++ ws) (s : Store) :
    t'.view s = ws.foldl Store.apply (t.view s) := by
  unfold Tx.view
  rw [h, List.foldl_append]
  rfl

/-- A transaction that has not written to a table sees it as it is committed. -/
theorem accounts_of_start (h : ∀ w ∈ t.writes, w.table ≠ .accounts) (s : Store) :
    (t.view s).accounts = s.accounts := accounts_of_extends (.of_start h) (fun _ hw => hw) s

theorem invoices_of_start (h : ∀ w ∈ t.writes, w.table ≠ .invoices) (s : Store) :
    (t.view s).invoices = s.invoices := invoices_of_extends (.of_start h) (fun _ hw => hw) s

theorem payments_of_start (h : ∀ w ∈ t.writes, w.table ≠ .payments) (s : Store) :
    (t.view s).payments = s.payments := payments_of_extends (.of_start h) (fun _ hw => hw) s

theorem refunds_of_start (h : ∀ w ∈ t.writes, w.table ≠ .refunds) (s : Store) :
    (t.view s).refunds = s.refunds := refunds_of_extends (.of_start h) (fun _ hw => hw) s

theorem table_of_flipWrites {id : Nat} {f : Option InvoiceFlip} {w : Write}
    (h : w ∈ flipWrites id f) : ∃ g, w = .markInvoice id g := by
  cases f with
  | none => cases h
  | some g => exact ⟨g, List.mem_singleton.1 h⟩

theorem invoices_of_flipWrites {id : Nat} {f : Option InvoiceFlip}
    (h : t'.writes = t.writes ++ flipWrites id f) (hu : (t.view s).WF)
    (hf : ∀ g, f = some g → ∃ i, (t.view s).invoice? id = some i ∧ g.accepts i = true) :
    Flips (t.view s).invoices (t'.view s).invoices id f := by
  cases f with
  | none =>
    show (t'.view s).invoices = (t.view s).invoices
    rw [view_of_writes h]
    rfl
  | some g =>
    obtain ⟨i, hi, ha⟩ := hf g rfl
    refine ⟨i, ha, ?_⟩
    rw [view_of_writes h]
    exact .updateWhere hu.invoiceIds (fun _ => rfl) hi ha

end Views

theorem flagged_foldl {l : List Payment} {ws : List Write} {v : Store} {id : Nat} {p p' : Payment}
    (hw : ∀ w ∈ ws, w.table ≠ .payments ∨ ∃ r d, w = .markRefundRequired id r d)
    (hu : v.WF) (h : Table.Replaced l v.payments id p p') :
    ∃ p'', Table.Replaced l (ws.foldl Store.apply v).payments id p p'' ∧ Payment.Flagged p' p'' := by
  induction ws generalizing v p' with
  | nil => exact ⟨p', h, .refl p'⟩
  | cons w ws ih =>
    have hrest := fun w' hw' => hw w' (List.mem_cons_of_mem w hw')
    rcases hw w List.mem_cons_self with hn | ⟨r, d, rfl⟩
    · refine ih hrest (hu.apply w) ?_
      rw [Store.payments_apply v w hn]
      exact h
    · have hr : Table.Replaced v.payments (v.apply (.markRefundRequired id r d)).payments id p'
          { p' with
            refundRequired := true, refundReason := some r.text, duplicateOfPaymentId := some d } :=
        .updateWhere hu.paymentIds (fun _ => rfl) h.find_self rfl
      obtain ⟨p'', h'', hf⟩ := ih hrest (hu.apply _) (h.trans hr)
      refine ⟨p'', h'', Payment.Flagged.trans ?_ hf⟩
      exact ⟨⟨rfl, rfl, rfl, rfl, rfl, rfl, rfl, p'.status.reaches_refl⟩, rfl⟩

theorem voided_foldl {ids : List Nat} {ws : List Write} {v : Store}
    (hw : ∀ w ∈ ws, w.table ≠ .invoices ∨ ∃ i ∈ ids, w = .markInvoice i .cancelled)
    (hids : ∀ i ∈ ids, ∀ r, v.invoice? i = some r → r.invoiceType = .monthly) :
    Table.Rewrites Invoice.Voided v.invoices (ws.foldl Store.apply v).invoices := by
  induction ws generalizing v with
  | nil => exact .refl Invoice.Voided.refl _
  | cons w ws ih =>
    have hrest := fun w' hw' => hw w' (List.mem_cons_of_mem w hw')
    rcases hw w List.mem_cons_self with hn | ⟨i, hi, rfl⟩
    · have he := Store.invoices_apply v w hn
      rw [← he]
      refine ih hrest fun j hj r hr => hids j hj r ?_
      unfold Store.invoice? at hr ⊢
      rwa [he] at hr
    · have h₁ : Table.Rewrites Invoice.Voided v.invoices
          (v.apply (.markInvoice i .cancelled)).invoices :=
        .updateWhere Invoice.Voided.refl (fun _ => rfl)
          fun r hr hp => .inr ⟨hids i hi r hr, hp, rfl⟩
      refine h₁.trans (fun _ _ _ h h' => h.trans h') (ih hrest fun j hj r hr => ?_)
      obtain ⟨r₀, hr₀, hv⟩ := h₁.row_before hr
      rw [hv.step.1]
      exact hids j hj r₀ hr₀

/-! ## A new payment -/

theorem admits_of_rewrites {s' : Store} (hp : s'.payments = s.payments)
    (hi : Table.Rewrites Invoice.Step s.invoices s'.invoices) (p : Payment) :
    s'.admitsPayment p = s.admitsPayment p := by
  have hinv : s'.hasInvoice p.invoiceId = s.hasInvoice p.invoiceId := by
    unfold Store.hasInvoice
    cases hr : Table.find s.invoices p.invoiceId with
    | none => rw [hi.absent hr]
    | some r =>
      obtain ⟨r', hr', -⟩ := hi.row hr
      rw [hr']
      rfl
  unfold Store.admitsPayment
  rw [hp, hinv]

theorem keep_admitsPayment {held : List Key} {p : Payment} {s' : Store}
    (hrow : Key.row p.id ∈ held) (hkey : Key.idempotency p.idempotencyKey ∈ held)
    (hm : Moves held s s') (h : s.admitsPayment p = true) : s'.admitsPayment p = true := by
  simp only [Store.admitsPayment, Store.hasInvoice, Bool.and_eq_true, Option.isNone_iff_eq_none,
    decide_eq_true_eq, Bool.not_eq_true', List.any_eq_false, beq_iff_eq] at h ⊢
  obtain ⟨⟨⟨hid, hinv⟩, hpos⟩, hfree⟩ := h
  refine ⟨⟨⟨hm.payments.new _ hrow hid, ?_⟩, hpos⟩, ?_⟩
  · obtain ⟨i, hi⟩ := Option.isSome_iff_exists.1 hinv
    obtain ⟨i', hi', -⟩ := hm.invoices.row _ i hi
    rw [hi']
    rfl
  · have := hm.keys _ hkey (by
      unfold Store.paymentByKey
      rw [List.find?_eq_none]
      simpa using hfree)
    unfold Store.paymentByKey at this
    rw [List.find?_eq_none] at this
    simpa using this

theorem added_of_admits {p : Payment} (h : s.admitsPayment p = true) :
    Table.Added s.payments (s.apply (.insertPayment p)).payments p := by
  show Table.Added _ (if s.admitsPayment p then _ else _) p
  rw [if_pos h]
  refine .append ?_
  simp only [Store.admitsPayment, Bool.and_eq_true, Option.isNone_iff_eq_none] at h
  exact h.1.1.1

theorem pos_of_admits {p : Payment} (h : s.admitsPayment p = true) : 0 < p.amount := by
  simp only [Store.admitsPayment, Bool.and_eq_true, decide_eq_true_eq] at h
  exact h.1.2

end Billing
