import Shyraq.Billing.Requests

/-!
# What billing transactions leave alone

`Store.WF` is what every committed store satisfies: unique ids and positive amounts.
`Moves held s s'` is what other transactions may make of the committed store while the
keys `held` are held: rows stay, their status moves along the state machines, and locked
rows do not change.  An account also stays as it is under its balance lock.
-/

namespace Billing

open Kernel Transactions

/-! ## Well-formed stores -/

structure Store.WF (s : Store) : Prop where
  accountIds : Table.Unique s.accounts
  invoiceIds : Table.Unique s.invoices
  paymentIds : Table.Unique s.payments
  refundIds : Table.Unique s.refunds
  paymentAmounts : ∀ p ∈ s.payments, 0 < p.amount
  refundAmounts : ∀ r ∈ s.refunds, 0 < r.amount

instance {R : Type} [Row R] (l : List R) : Decidable (Table.Unique l) :=
  inferInstanceAs (Decidable (List.Nodup _))

instance (s : Store) : Decidable s.WF :=
  decidable_of_iff (Table.Unique s.accounts ∧ Table.Unique s.invoices ∧ Table.Unique s.payments ∧
      Table.Unique s.refunds ∧ (∀ p ∈ s.payments, 0 < p.amount) ∧ ∀ r ∈ s.refunds, 0 < r.amount)
    ⟨fun ⟨h₁, h₂, h₃, h₄, h₅, h₆⟩ => ⟨h₁, h₂, h₃, h₄, h₅, h₆⟩,
      fun ⟨h₁, h₂, h₃, h₄, h₅, h₆⟩ => ⟨h₁, h₂, h₃, h₄, h₅, h₆⟩⟩

namespace Store.WF

theorem mem_updateWhere {R : Type} [Row R] {l : List R} {i : Nat} {p : R → Bool} {f : R → R}
    {r : R} (h : r ∈ Table.updateWhere l i p f) : r ∈ l ∨ ∃ r₀ ∈ l, r = f r₀ := by
  unfold Table.updateWhere at h
  obtain ⟨r₀, hr₀, rfl⟩ := List.mem_map.1 h
  split
  · exact .inr ⟨r₀, hr₀, rfl⟩
  · exact .inl hr₀

/-- Positive amounts stay positive under an UPDATE that leaves them alone. -/
theorem pos_updateWhere {R : Type} [Row R] {amount : R → Int} {l : List R} {i : Nat}
    {p : R → Bool} {f : R → R} (hf : ∀ r, amount (f r) = amount r) (h : ∀ r ∈ l, 0 < amount r) :
    ∀ r ∈ Table.updateWhere l i p f, 0 < amount r := by
  intro r hr
  rcases mem_updateWhere hr with hr | ⟨r₀, hr₀, rfl⟩
  · exact h r hr
  · rw [hf]
    exact h r₀ hr₀

theorem pos_append {R : Type} {amount : R → Int} {l : List R} {x : R} (hx : 0 < amount x)
    (h : ∀ r ∈ l, 0 < amount r) : ∀ r ∈ l ++ [x], 0 < amount r := by
  intro r hr
  rcases List.mem_append.1 hr with hr | hr
  · exact h r hr
  · rwa [List.mem_singleton.1 hr]

variable {s : Store}

theorem amount_set (f : PaymentPatch) (p : Payment) : (f.set p).amount = p.amount := by
  cases f <;> rfl

theorem refund_amount_set (f : RefundPatch) (r : Refund) : (f.set r).amount = r.amount := by
  cases f <;> rfl

theorem apply (h : s.WF) (w : Write) : (s.apply w).WF := by
  cases w with
  | insertAccount a =>
    refine { h with accountIds := ?_ }
    show Table.Unique (if s.admitsAccount a then s.accounts ++ [a] else s.accounts)
    split
    · next ha =>
      simp only [Store.admitsAccount, Bool.and_eq_true, Option.isNone_iff_eq_none] at ha
      exact Table.unique_append h.accountIds ha.1
    · exact h.accountIds
  | saveAccount i b =>
    exact { h with accountIds := Table.unique_updateWhere h.accountIds i _ _ fun _ => rfl }
  | insertInvoice i =>
    refine { h with invoiceIds := ?_ }
    show Table.Unique (if s.admitsInvoice i then s.invoices ++ [i] else s.invoices)
    split
    · next ha =>
      simp only [Store.admitsInvoice, Bool.and_eq_true, Option.isNone_iff_eq_none] at ha
      exact Table.unique_append h.invoiceIds ha.1.1.1.1.1
    · exact h.invoiceIds
  | markInvoice i f =>
    exact { h with invoiceIds := Table.unique_updateWhere h.invoiceIds i _ _ fun _ => rfl }
  | insertPayment p =>
    have key : Table.Unique (if s.admitsPayment p then s.payments ++ [p] else s.payments) ∧
        ∀ q ∈ (if s.admitsPayment p then s.payments ++ [p] else s.payments), 0 < q.amount := by
      split
      · next ha =>
        simp only [Store.admitsPayment, Bool.and_eq_true, Option.isNone_iff_eq_none,
          decide_eq_true_eq] at ha
        exact ⟨Table.unique_append h.paymentIds ha.1.1.1, pos_append ha.1.2 h.paymentAmounts⟩
      · exact ⟨h.paymentIds, h.paymentAmounts⟩
    exact { h with paymentIds := key.1, paymentAmounts := key.2 }
  | markPayment i f =>
    exact { h with
      paymentIds := Table.unique_updateWhere h.paymentIds i _ _ f.id_set
      paymentAmounts := pos_updateWhere (amount_set f) h.paymentAmounts }
  | touchPayment i => exact h
  | markRefundRequired i reason d =>
    exact { h with
      paymentIds := Table.unique_updateWhere h.paymentIds i _ _ fun _ => rfl
      paymentAmounts := pos_updateWhere (fun _ => rfl) h.paymentAmounts }
  | scheduleBccReconciliation i nextAt =>
    exact { h with
      paymentIds := Table.unique_updateWhere h.paymentIds i _ _ fun _ => rfl
      paymentAmounts := pos_updateWhere (fun _ => rfl) h.paymentAmounts }
  | reconcile i f =>
    exact { h with
      paymentIds := Table.unique_updateWhere h.paymentIds i _ _ f.id_set
      paymentAmounts := pos_updateWhere (fun r => by cases f <;> rfl) h.paymentAmounts }
  | insertRefund r =>
    have key : Table.Unique (if s.admitsRefund r then s.refunds ++ [r] else s.refunds) ∧
        ∀ q ∈ (if s.admitsRefund r then s.refunds ++ [r] else s.refunds), 0 < q.amount := by
      split
      · next ha =>
        simp only [Store.admitsRefund, Bool.and_eq_true, Option.isNone_iff_eq_none,
          decide_eq_true_eq] at ha
        exact ⟨Table.unique_append h.refundIds ha.1.1.1, pos_append ha.2 h.refundAmounts⟩
      · exact ⟨h.refundIds, h.refundAmounts⟩
    exact { h with refundIds := key.1, refundAmounts := key.2 }
  | markRefund i f =>
    exact { h with
      refundIds := Table.unique_updateWhere h.refundIds i _ _ f.id_set
      refundAmounts := pos_updateWhere (refund_amount_set f) h.refundAmounts }
  | insertLineItem li => exact { h with }
  | tryReserveUsage i => exact { h with }
  | releaseUsage i => exact { h with }
  | insertApplication a => exact { h with }
  | lockActiveChild i => exact h
  | notify n => exact { h with }
  | setReference r => exact { h with }

theorem view (h : s.WF) (t : Tx Store Key Write) : (t.view s).WF := by
  unfold Tx.view
  generalize t.writes = ws
  induction ws generalizing s with
  | nil => exact h
  | cons w ws ih => exact ih (h.apply w)

end Store.WF

/-! ## Interference -/

structure Moves (held : List Key) (s s' : Store) : Prop where
  accounts : Table.Evolves PaymentAccount.Step (fun i => Key.row i ∈ held) s.accounts s'.accounts
  invoices : Table.Evolves Invoice.Step (fun i => Key.row i ∈ held) s.invoices s'.invoices
  payments : Table.Evolves Payment.Step (fun i => Key.row i ∈ held) s.payments s'.payments
  refunds : Table.Evolves Refund.Step (fun i => Key.row i ∈ held) s.refunds s'.refunds
  /-- A balance does not move under its lock. -/
  balances : ∀ i a, Key.balance i ∈ held → s.account? i = some a → s'.account? i = some a
  /-- A held idempotency key stays free. -/
  keys : ∀ k, Key.idempotency k ∈ held → s.paymentByKey k = none → s'.paymentByKey k = none
  /-- A child whose account entry is held gets no account. -/
  owners : ∀ c, Key.accountOf c ∈ held → s.accountOfChild c = none → s'.accountOfChild c = none

theorem PaymentAccount.Step.refl (a : PaymentAccount) : PaymentAccount.Step a a := ⟨rfl, rfl⟩

theorem PaymentAccount.Step.trans {a b c : PaymentAccount} (h₁ : PaymentAccount.Step a b)
    (h₂ : PaymentAccount.Step b c) : PaymentAccount.Step a c :=
  ⟨h₂.1.trans h₁.1, h₂.2.trans h₁.2⟩

namespace Moves

theorem refl (held : List Key) (s : Store) : Moves held s s where
  accounts := .refl PaymentAccount.Step.refl _
  invoices := .refl Invoice.Step.refl _
  payments := .refl Payment.Step.refl _
  refunds := .refl Refund.Step.refl _
  balances _ _ _ h := h
  keys _ _ h := h
  owners _ _ h := h

theorem trans {held : List Key} {s₁ s₂ s₃ : Store} (h₁ : Moves held s₁ s₂)
    (h₂ : Moves held s₂ s₃) : Moves held s₁ s₃ where
  accounts := h₁.accounts.trans (fun _ _ _ h h' => h.trans h') h₂.accounts
  invoices := h₁.invoices.trans (fun _ _ _ h h' => h.trans h') h₂.invoices
  payments := h₁.payments.trans (fun _ _ _ h h' => h.trans h') h₂.payments
  refunds := h₁.refunds.trans (fun _ _ _ h h' => h.trans h') h₂.refunds
  balances i a hi h := h₂.balances i a hi (h₁.balances i a hi h)
  keys k hk h := h₂.keys k hk (h₁.keys k hk h)
  owners c hc h := h₂.owners c hc (h₁.owners c hc h)

theorem mono {held held' : List Key} {s s' : Store} (hs : held ⊆ held') (h : Moves held' s s') : Moves held s s' where
  accounts := h.accounts.mono fun _ hi => hs hi
  invoices := h.invoices.mono fun _ hi => hs hi
  payments := h.payments.mono fun _ hi => hs hi
  refunds := h.refunds.mono fun _ hi => hs hi
  balances i a hi := h.balances i a (hs hi)
  keys k hk := h.keys k (hs hk)
  owners c hc := h.owners c (hs hc)

end Moves

/-- The locks of billing. -/
def locks : Discipline Store Key Write where
  rely := Moves
  refl := Moves.refl
  trans := Moves.trans
  mono := Moves.mono

/-! ## Statements respect the locks of others -/

/-- The locks a statement needs: the keys it takes itself, and the balance lock around the
save of an account. -/
structure Covered (held : List Key) (w : Write) : Prop where
  keys : Store.keys w ⊆ held
  balance : ∀ i b, w = .saveAccount i b → Key.balance i ∈ held

theorem covered_mono : Prog.HeldMono Covered :=
  fun _ _ _ hs hw => ⟨fun _ hk => hs (hw.keys hk), fun i b he => hs (hw.balance i b he)⟩

section Respects

variable {held : List Key} {s : Store}

theorem Moves.of_invoices {l' : List Invoice}
    (h : Table.Evolves Invoice.Step (fun i => Key.row i ∈ held) s.invoices l') :
    Moves held s { s with invoices := l' } :=
  { Moves.refl held s with invoices := h }

theorem Moves.of_payments {l' : List Payment}
    (h : Table.Evolves Payment.Step (fun i => Key.row i ∈ held) s.payments l')
    (hk : ∀ k, Key.idempotency k ∈ held → s.paymentByKey k = none →
      (l'.find? fun p => p.idempotencyKey == k) = none) :
    Moves held s { s with payments := l' } :=
  { Moves.refl held s with payments := h, keys := fun k hh hn => hk k hh hn }

theorem Moves.of_refunds {l' : List Refund}
    (h : Table.Evolves Refund.Step (fun i => Key.row i ∈ held) s.refunds l') :
    Moves held s { s with refunds := l' } :=
  { Moves.refl held s with refunds := h }

theorem Moves.update_payments {i : Nat} {p : Payment → Bool} {f : Payment → Payment}
    (hf : ∀ q, p q = true → Payment.Step q (f q)) (hid : ∀ q, (f q).id = q.id)
    (hkey : ∀ q, (f q).idempotencyKey = q.idempotencyKey) (hfree : Key.row i ∉ held) :
    Moves held s { s with payments := Table.updateWhere s.payments i p f } := by
  refine Moves.of_payments (.updateWhere hid Payment.Step.refl ?_) ?_
  · intro r _ hp
    exact ⟨hf r hp, hfree⟩
  · intro k _ hn
    unfold Store.paymentByKey at hn
    rw [List.find?_eq_none] at hn ⊢
    intro q hq
    rcases Store.WF.mem_updateWhere hq with hq | ⟨q₀, hq₀, rfl⟩
    · exact hn q hq
    · rw [hkey]
      exact hn q₀ hq₀

theorem moves_apply {mine : List Key} (w : Write) (hw : Covered mine w)
    (hd : List.Disjoint mine held) : Moves held s (s.apply w) := by
  have free : ∀ k, k ∈ Store.keys w → k ∉ held := fun k hk => hd (hw.keys hk)
  cases w with
  | insertAccount a =>
    have hrow : Key.row a.id ∉ held := free _ (by simp [Store.keys])
    have hown : Key.accountOf a.childId ∉ held := free _ (by simp [Store.keys])
    show Moves held s { s with
      accounts := if s.admitsAccount a then s.accounts ++ [a] else s.accounts }
    split
    · refine { Moves.refl held s with
        accounts := .append PaymentAccount.Step.refl hrow, balances := ?_, owners := ?_ }
      · intro i b _ hb
        show Table.find (s.accounts ++ [a]) i = some b
        rw [Table.find_append, show Table.find s.accounts i = some b from hb, Option.some_or]
      · intro c hc hn
        show (s.accounts ++ [a]).find? _ = none
        rw [List.find?_append, show s.accounts.find? _ = none from hn, Option.none_or,
          List.find?_cons_of_neg, List.find?_nil]
        simp only [beq_iff_eq]
        rintro rfl
        exact hown hc
    · exact Moves.refl held s
  | saveAccount i b =>
    have hrow : Key.row i ∉ held := free _ (by simp [Store.keys])
    have hbal : Key.balance i ∉ held := hd (hw.balance i b rfl)
    refine { Moves.refl held s with accounts := ?_, balances := ?_, owners := ?_ }
    · exact .updateWhere (fun _ => rfl) PaymentAccount.Step.refl fun r _ _ => ⟨⟨rfl, rfl⟩, hrow⟩
    · intro j a hj ha
      show Table.find (Table.updateWhere s.accounts i _ _) j = some a
      refine (Table.find_updateWhere_of_ne (f := fun a : PaymentAccount => { a with balance := b })
        (fun _ => rfl) ?_).trans ha
      rintro rfl
      exact hbal hj
    · intro c _ hn
      unfold Store.accountOfChild at hn ⊢
      rw [List.find?_eq_none] at hn ⊢
      intro a ha
      rcases Store.WF.mem_updateWhere ha with ha | ⟨a₀, ha₀, rfl⟩
      · exact hn a ha
      · exact hn a₀ ha₀
  | insertInvoice i =>
    show Moves held s { s with
      invoices := if s.admitsInvoice i then s.invoices ++ [i] else s.invoices }
    split
    · exact .of_invoices (.append Invoice.Step.refl (free _ (by simp [Store.keys, Row.id])))
    · exact Moves.refl held s
  | markInvoice i f =>
    exact .of_invoices (.updateWhere (fun _ => rfl) Invoice.Step.refl
      fun r _ hp => ⟨InvoiceFlip.step hp, free _ (by simp [Store.keys])⟩)
  | insertPayment p =>
    have hrow : Key.row p.id ∉ held := free _ (by simp [Store.keys])
    have hkey : Key.idempotency p.idempotencyKey ∉ held := free _ (by simp [Store.keys])
    show Moves held s { s with
      payments := if s.admitsPayment p then s.payments ++ [p] else s.payments }
    split
    · refine .of_payments (.append Payment.Step.refl hrow) ?_
      intro k hk hn
      rw [List.find?_append, show s.payments.find? _ = none from hn, Option.none_or,
        List.find?_cons_of_neg, List.find?_nil]
      simp only [beq_iff_eq]
      rintro rfl
      exact hkey hk
    · exact Moves.refl held s
  | markPayment i f =>
    exact .update_payments (fun q hq => PaymentPatch.step hq) f.id_set (fun q => by cases f <;> rfl)
      (free _ (by simp [Store.keys]))
  | markRefundRequired i reason d =>
    exact .update_payments
      (fun q _ => ⟨rfl, rfl, rfl, rfl, rfl, rfl, rfl, q.status.reaches_refl⟩) (fun _ => rfl)
      (fun _ => rfl) (free _ (by simp [Store.keys]))
  | scheduleBccReconciliation i nextAt =>
    exact .update_payments
      (fun q _ => ⟨rfl, rfl, rfl, rfl, rfl, rfl, rfl, q.status.reaches_refl⟩) (fun _ => rfl)
      (fun _ => rfl) (free _ (by simp [Store.keys]))
  | reconcile i f =>
    exact .update_payments (fun q _ => f.step q) f.id_set (fun q => by cases f <;> rfl) (free _ (by simp [Store.keys]))
  | insertRefund r =>
    show Moves held s { s with
      refunds := if s.admitsRefund r then s.refunds ++ [r] else s.refunds }
    split
    · exact .of_refunds (.append Refund.Step.refl (free _ (by simp [Store.keys, Row.id])))
    · exact Moves.refl held s
  | markRefund i f =>
    exact .of_refunds (.updateWhere f.id_set Refund.Step.refl
      fun r _ hp => ⟨RefundPatch.step hp, free _ (by simp [Store.keys])⟩)
  | _ => exact { Moves.refl held s with }

/-- Whatever a transaction writes, rows stay and move along the state machines. -/
theorem moves_view (t : Tx Store Key Write) (s : Store) : Moves [] s (t.view s) := by
  unfold Tx.view
  generalize t.writes = ws
  induction ws generalizing s with
  | nil => exact Moves.refl [] s
  | cons w ws ih =>
    let mine : List Key := Store.keys w ++ match w with
      | .saveAccount i _ => [.balance i]
      | _ => []
    have hw : Covered mine w := by
      refine ⟨List.subset_append_left _ _, ?_⟩
      rintro i b rfl
      simp [mine]
    exact (moves_apply w hw (by simp)).trans (ih (s.apply w))

end Respects

theorem guarantee_locks {t : Tx Store Key Write} (h : ∀ w ∈ t.writes, Covered t.held w)
    (s : Store) : locks.Guarantee t s :=
  Discipline.guarantee_of_respects (fun w hw _ hd _ => moves_apply w (h w hw) hd) s

end Billing
