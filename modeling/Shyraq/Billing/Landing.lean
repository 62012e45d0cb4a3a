import Shyraq.Transactions.Landing
import Shyraq.Billing.Outcomes

/-!
# What a billing transaction has written lands with its commit

A row that it inserts is new when it commits, and there from then on.
-/

namespace Billing

open Kernel Transactions

/-- The constraints admit the new row; the row of the flip is there, in a status that it accepts. -/
def Store.lets (s : Store) : Write → Prop
  | .insertAccount a => s.admitsAccount a = true
  | .insertInvoice i => s.admitsInvoice i = true
  | .insertPayment p => s.admitsPayment p = true
  | .insertRefund r => s.admitsRefund r = true
  | .markInvoice i f => (Table.find s.invoices i).any f.accepts = true
  | .markPayment i f => (Table.find s.payments i).any f.accepts = true
  | .scheduleBccReconciliation i _ => (Table.find s.payments i).any Store.bccSchedulable = true
  | .reconcile i f => (Table.find s.payments i).any (Store.reconcilable f) = true
  | _ => True

theorem lets_of_hit {s : Store} {w : Write} (h : Store.hit s w = true) : s.lets w := by
  cases w with
  | insertAccount a => exact (Bool.and_eq_true_iff.1 h).1
  | insertInvoice i => exact (Bool.and_eq_true_iff.1 h).1
  | insertPayment p => exact (Bool.and_eq_true_iff.1 h).1
  | insertRefund r => exact h
  | markInvoice i f => exact h
  | markPayment i f => exact h
  | scheduleBccReconciliation i nextAt => exact h
  | reconcile i f => exact h
  | _ => trivial

section

variable {held : List Key} {s s' : Store}

theorem Moves.isSome_account (h : Moves held s s') {i : Nat} (hi : (Table.find s.accounts i).isSome = true) :
    (Table.find s'.accounts i).isSome = true := by
  obtain ⟨a, ha⟩ := Option.isSome_iff_exists.1 hi
  obtain ⟨a', ha', -⟩ := h.accounts.row i a ha
  rw [ha']
  rfl

theorem Moves.hasInvoice (h : Moves held s s') {i : Nat} (hi : s.hasInvoice i = true) : s'.hasInvoice i = true := by
  obtain ⟨r, hr⟩ := Option.isSome_iff_exists.1 hi
  obtain ⟨r', hr', -⟩ := h.invoices.row i r hr
  unfold Store.hasInvoice
  rw [hr']
  rfl

theorem accountOfChild_eq_none {c : Nat} :
    s.accountOfChild c = none ↔ (s.accounts.any fun b => b.childId == c) = false := by
  unfold Store.accountOfChild
  rw [List.find?_eq_none, List.any_eq_false]

theorem paymentByKey_eq_none {k : IdempotencyKey} :
    s.paymentByKey k = none ↔ ∀ p ∈ s.payments, p.idempotencyKey ≠ k := by
  unfold Store.paymentByKey
  rw [List.find?_eq_none]
  simp only [beq_iff_eq, ne_eq]

theorem keep_admitsAccount {a : PaymentAccount} (hrow : Key.row a.id ∈ held) (howner : Key.accountOf a.childId ∈ held)
    (hm : Moves held s s') (h : s.admitsAccount a = true) : s'.admitsAccount a = true := by
  simp only [Store.admitsAccount, Bool.and_eq_true, Option.isNone_iff_eq_none, Bool.not_eq_true'] at h ⊢
  refine ⟨hm.accounts.new _ hrow h.1, ?_⟩
  exact accountOfChild_eq_none.1 (hm.owners _ howner (accountOfChild_eq_none.2 h.2))

theorem keep_admitsInvoice {i : Invoice} (hrow : Key.row i.id ∈ held) (hm : Moves held s s')
    (h : s.admitsInvoice i = true) : s'.admitsInvoice i = true := by
  simp only [Store.admitsInvoice, Bool.and_eq_true, Option.isNone_iff_eq_none] at h ⊢
  obtain ⟨⟨⟨⟨⟨hid, hacc⟩, hdue⟩, hafter⟩, hperiod⟩, hpct⟩ := h
  exact ⟨⟨⟨⟨⟨hm.invoices.new _ hrow hid, hm.isSome_account hacc⟩, hdue⟩, hafter⟩, hperiod⟩, hpct⟩

/-! ## One statement on both sides -/

theorem updateWhere_keys {l : List Payment} {i : Nat} {p : Payment → Bool} {f : Payment → Payment}
    (hkey : ∀ q, (f q).idempotencyKey = q.idempotencyKey) :
    (Table.updateWhere l i p f).map Payment.idempotencyKey = l.map Payment.idempotencyKey := by
  unfold Table.updateWhere
  rw [List.map_map]
  refine List.map_congr_left fun q _ => ?_
  show Payment.idempotencyKey (if _ then _ else _) = _
  split
  · exact hkey q
  · rfl

theorem Moves.both_payments (h : Moves held s s') {i : Nat} (hi : Key.row i ∈ held) {p : Payment → Bool}
    {f : Payment → Payment} (hid : ∀ q, (f q).id = q.id) (hkey : ∀ q, (f q).idempotencyKey = q.idempotencyKey) :
    Moves held { s with payments := Table.updateWhere s.payments i p f }
      { s' with payments := Table.updateWhere s'.payments i p f } := by
  have hnone : ∀ (v : Store) k, ({ v with payments := Table.updateWhere v.payments i p f } : Store).paymentByKey k = none ↔
      v.paymentByKey k = none := by
    intro v k
    rw [paymentByKey_eq_none, paymentByKey_eq_none]
    show (∀ q ∈ Table.updateWhere v.payments i p f, Payment.idempotencyKey q ≠ k) ↔ _
    rw [← List.forall_mem_map (P := (· ≠ k)) (f := Payment.idempotencyKey), updateWhere_keys hkey, List.forall_mem_map]
  exact { h with
    payments := h.payments.both_updateWhere Payment.Step.refl hi hid
    keys := fun k hk hn => (hnone s' k).2 (h.keys k hk ((hnone s k).1 hn)) }

theorem both_insertAccount (h : Moves held s s') {a : PaymentAccount} (hrow : Key.row a.id ∈ held)
    (hin : s.admitsAccount a = true) (hin' : s'.admitsAccount a = true) :
    Moves held (s.apply (.insertAccount a)) (s'.apply (.insertAccount a)) := by
  have hfree : Table.find s.accounts a.id = none := by
    simp only [Store.admitsAccount, Bool.and_eq_true, Option.isNone_iff_eq_none] at hin
    exact hin.1
  have hfree' : Table.find s'.accounts a.id = none := h.accounts.new _ hrow hfree
  unfold Store.apply
  simp only [hin, hin', if_true]
  refine { h with accounts := h.accounts.both_append PaymentAccount.Step.refl hrow hfree, balances := ?_, owners := ?_ }
  · intro i b hb hi
    show Table.find (s'.accounts ++ [a]) i = some b
    have hi : Table.find (s.accounts ++ [a]) i = some b := hi
    rw [Table.find_append] at hi ⊢
    by_cases hia : Row.id a = i
    · subst hia
      rw [show Table.find s.accounts (Row.id a) = none from hfree, Option.none_or] at hi
      rw [show Table.find s'.accounts (Row.id a) = none from hfree', Option.none_or, hi]
    · rw [if_neg hia, Option.or_none] at hi ⊢
      exact h.balances i b hb hi
  · intro c hc hn
    have hn : (s.accounts ++ [a]).find? (fun b => b.childId == c) = none := hn
    show (s'.accounts ++ [a]).find? (fun b => b.childId == c) = none
    rw [List.find?_append, Option.or_eq_none_iff] at hn ⊢
    exact ⟨h.owners c hc hn.1, hn.2⟩

theorem both_saveAccount (h : Moves held s s') {i : Nat} {b : Int} (hrow : Key.row i ∈ held) :
    Moves held (s.apply (.saveAccount i b)) (s'.apply (.saveAccount i b)) := by
  let f : PaymentAccount → PaymentAccount := fun a => { a with balance := b }
  have howner : ∀ (l : List PaymentAccount) c,
      (Table.updateWhere l i (fun _ => true) f).find? (fun a => a.childId == c) = none ↔
        l.find? (fun a => a.childId == c) = none := by
    intro l c
    rw [List.find?_eq_none, List.find?_eq_none]
    unfold Table.updateWhere
    rw [List.forall_mem_map]
    refine forall_congr' fun a => imp_congr_right fun _ => ?_
    split <;> rfl
  refine { h with
    accounts := h.accounts.both_updateWhere PaymentAccount.Step.refl hrow fun _ => rfl, balances := ?_, owners := ?_ }
  · intro j a hj ha
    have ha : Table.find (Table.updateWhere s.accounts i (fun _ => true) f) j = some a := ha
    show Table.find (Table.updateWhere s'.accounts i (fun _ => true) f) j = some a
    by_cases hji : j = i
    · subst hji
      rw [Table.find_updateWhere _ _ _ f fun _ => rfl] at ha ⊢
      rwa [h.accounts.find_eq hrow]
    · rw [Table.find_updateWhere_of_ne (f := f) (fun _ => rfl) hji] at ha ⊢
      exact h.balances j a hj ha
  · intro c hc hn
    exact (howner s'.accounts c).2 (h.owners c hc ((howner s.accounts c).1 hn))

theorem both_insertPayment (h : Moves held s s') {p : Payment} (hrow : Key.row p.id ∈ held)
    (hin : s.admitsPayment p = true) (hin' : s'.admitsPayment p = true) :
    Moves held (s.apply (.insertPayment p)) (s'.apply (.insertPayment p)) := by
  have hfree : Table.find s.payments p.id = none := by
    simp only [Store.admitsPayment, Bool.and_eq_true, Option.isNone_iff_eq_none] at hin
    exact hin.1.1.1
  unfold Store.apply
  simp only [hin, hin', if_true]
  refine { h with payments := h.payments.both_append Payment.Step.refl hrow hfree, keys := ?_ }
  intro k hk hn
  have hn : (s.payments ++ [p]).find? (fun q => q.idempotencyKey == k) = none := hn
  show (s'.payments ++ [p]).find? (fun q => q.idempotencyKey == k) = none
  rw [List.find?_append, Option.or_eq_none_iff] at hn ⊢
  exact ⟨h.keys k hk hn.1, hn.2⟩

/-- What the others do while the keys of a statement are held they do to what it leaves. -/
theorem keeps_locks : locks.Keeps Store.lets where
  hit _ _ := lets_of_hit
  later := by
    intro held s s' w hk (h : Moves held s s') hw
    have row : ∀ i, Key.row i ∈ Store.keys w → Key.row i ∈ held := fun i hi => hk hi
    cases w with
    | insertAccount a =>
      have hin := keep_admitsAccount (row a.id (by simp [Store.keys])) (hk (by simp [Relational.keys, Store.keys])) h hw
      exact ⟨hin, both_insertAccount h (row a.id (by simp [Store.keys])) hw hin⟩
    | saveAccount i b => exact ⟨trivial, both_saveAccount h (row i (by simp [Store.keys]))⟩
    | insertInvoice i =>
      have hrow := row i.id (by simp [Store.keys])
      have hin := keep_admitsInvoice hrow h hw
      refine ⟨hin, ?_⟩
      have hfree : Table.find s.invoices i.id = none := by
        have hw : s.admitsInvoice i = true := hw
        simp only [Store.admitsInvoice, Bool.and_eq_true, Option.isNone_iff_eq_none] at hw
        exact hw.1.1.1.1.1
      show Moves held (s.apply (.insertInvoice i)) (s'.apply (.insertInvoice i))
      unfold Store.apply
      simp only [show s.admitsInvoice i = true from hw, hin, if_true]
      exact { h with invoices := h.invoices.both_append Invoice.Step.refl hrow hfree }
    | markInvoice i f =>
      have hrow := row i (by simp [Store.keys])
      refine ⟨?_, { h with invoices := h.invoices.both_updateWhere Invoice.Step.refl hrow fun _ => rfl }⟩
      have hw : (Table.find s.invoices i).any f.accepts = true := hw
      show (Table.find s'.invoices i).any f.accepts = true
      rwa [h.invoices.find_eq hrow]
    | insertPayment p =>
      have hrow := row p.id (by simp [Store.keys])
      have hin := keep_admitsPayment hrow (hk (by simp [Relational.keys, Store.keys])) h hw
      exact ⟨hin, both_insertPayment h hrow hw hin⟩
    | markPayment i f =>
      have hrow := row i (by simp [Store.keys])
      refine ⟨?_, h.both_payments hrow f.id_set fun q => by cases f <;> rfl⟩
      have hw : (Table.find s.payments i).any f.accepts = true := hw
      show (Table.find s'.payments i).any f.accepts = true
      rwa [h.payments.find_eq hrow]
    | markRefundRequired i reason d =>
      exact ⟨trivial, h.both_payments (row i (by simp [Store.keys])) (fun _ => rfl) fun _ => rfl⟩
    | scheduleBccReconciliation i nextAt =>
      have hrow := row i (by simp [Store.keys])
      refine ⟨?_, h.both_payments hrow (fun _ => rfl) fun _ => rfl⟩
      have hw : (Table.find s.payments i).any Store.bccSchedulable = true := hw
      show (Table.find s'.payments i).any Store.bccSchedulable = true
      rwa [h.payments.find_eq hrow]
    | reconcile i f =>
      have hrow := row i (by simp [Store.keys])
      refine ⟨?_, h.both_payments hrow f.id_set fun q => by cases f <;> rfl⟩
      have hw : (Table.find s.payments i).any (Store.reconcilable f) = true := hw
      show (Table.find s'.payments i).any (Store.reconcilable f) = true
      rwa [h.payments.find_eq hrow]
    | insertRefund r =>
      have hrow := row r.id (by simp [Store.keys])
      have hin := keep_admitsRefund hrow h hw
      refine ⟨hin, ?_⟩
      have hfree : Table.find s.refunds r.id = none := by
        have hw : s.admitsRefund r = true := hw
        simp only [Store.admitsRefund, Bool.and_eq_true, Option.isNone_iff_eq_none] at hw
        exact hw.1.1.1
      show Moves held (s.apply (.insertRefund r)) (s'.apply (.insertRefund r))
      unfold Store.apply
      simp only [show s.admitsRefund r = true from hw, hin, if_true]
      exact { h with refunds := h.refunds.both_append Refund.Step.refl hrow hfree }
    | markRefund i f =>
      exact ⟨trivial, { h with
        refunds := h.refunds.both_updateWhere Refund.Step.refl (row i (by simp [Store.keys])) f.id_set }⟩
    | _ => exact ⟨trivial, { h with }⟩

end

/-! ## New rows -/

theorem moves_foldl (ws : List Write) (s : Store) : Moves [] s (ws.foldl Store.apply s) := moves_view ⟨ws, [], []⟩ s

section

variable {t : Tx Store Key Write} {s : Store}

theorem invoice_of_lands (h : t.Lands Store.lets s) {i : Invoice} (hi : .insertInvoice i ∈ t.writes) :
    s.invoice? i.id = none ∧ ∃ i', (t.view s).invoice? i.id = some i' ∧ Invoice.Step i i' := by
  obtain ⟨ws₁, ws₂, hws, hin⟩ := h.landed.at hi
  have hin : (ws₁.foldl Store.apply s).admitsInvoice i = true := hin
  have hnone : Table.find (ws₁.foldl Store.apply s).invoices i.id = none := by
    simp only [Store.admitsInvoice, Bool.and_eq_true, Option.isNone_iff_eq_none] at hin
    exact hin.1.1.1.1.1
  constructor
  · cases hrow : s.invoice? i.id with
    | none => rfl
    | some r =>
      obtain ⟨r', hr', -⟩ := (moves_foldl ws₁ s).invoices.row _ r hrow
      rw [hnone] at hr'
      cases hr'
  · have hview : t.view s = ws₂.foldl Store.apply ((ws₁.foldl Store.apply s).apply (.insertInvoice i)) := by
      show t.writes.foldl Store.apply s = _
      rw [hws, List.foldl_append, List.foldl_cons]
    have hnew : ((ws₁.foldl Store.apply s).apply (.insertInvoice i)).invoice? i.id = some i := by
      show Table.find (if _ then _ else _) i.id = some i
      rw [if_pos hin, Table.find_append, hnone, Option.none_or]
      exact if_pos rfl
    obtain ⟨i', hi', hstep, -⟩ := (moves_foldl ws₂ _).invoices.row _ i hnew
    exact ⟨i', by rw [hview]; exact hi', hstep⟩

theorem payment_of_lands (hs : s.WF) (h : t.Lands Store.lets s) {p : Payment} (hp : .insertPayment p ∈ t.writes) :
    s.paymentByKey p.idempotencyKey = none ∧
      ∃ p', (t.view s).payment? p.id = some p' ∧ Payment.Step p p' := by
  obtain ⟨ws₁, ws₂, hws, hin⟩ := h.landed.at hp
  have hin : (ws₁.foldl Store.apply s).admitsPayment p = true := hin
  have hadd := added_of_admits hin
  constructor
  · by_contra hknown
    have hstays := keep_known (moves_foldl ws₁ s) (Option.isSome_iff_ne_none.2 hknown) hs
    have hfree : (ws₁.foldl Store.apply s).paymentByKey p.idempotencyKey = none := by
      simp only [Store.admitsPayment, Bool.and_eq_true, Bool.not_eq_true', List.any_eq_false, beq_iff_eq] at hin
      exact paymentByKey_eq_none.2 hin.2
    rw [hfree] at hstays
    cases hstays
  · have hview : t.view s = ws₂.foldl Store.apply ((ws₁.foldl Store.apply s).apply (.insertPayment p)) := by
      show t.writes.foldl Store.apply s = _
      rw [hws, List.foldl_append, List.foldl_cons]
    have hnew : ((ws₁.foldl Store.apply s).apply (.insertPayment p)).payment? p.id = some p :=
      (hadd.after p.id).trans (if_pos rfl)
    obtain ⟨p', hp', hstep, -⟩ := (moves_foldl ws₂ _).payments.row _ p hnew
    exact ⟨p', by rw [hview]; exact hp', hstep⟩

theorem unmarked_before {ws₁ ws₂ : List Write} {i : Invoice} {f : InvoiceFlip}
    (h : Landed Store.lets s (ws₁ ++ .insertInvoice i :: ws₂)) : .markInvoice i.id f ∉ ws₁ := by
  intro hm
  obtain ⟨h₁, hin, -⟩ := landed_append.1 h
  obtain ⟨vs, vs', rfl, hrow⟩ := h₁.at hm
  have hrow : (Table.find (vs.foldl Store.apply s).invoices i.id).any f.accepts = true := hrow
  obtain ⟨r, hr, -⟩ := (Option.any_eq_true _ _).1 hrow
  obtain ⟨r', hr', -⟩ := (moves_foldl (.markInvoice i.id f :: vs') _).invoices.row _ r hr
  have hin : ((vs ++ .markInvoice i.id f :: vs').foldl Store.apply s).admitsInvoice i = true := hin
  rw [List.foldl_append] at hin
  simp only [Store.admitsInvoice, Bool.and_eq_true, Option.isNone_iff_eq_none] at hin
  rw [hin.1.1.1.1.1] at hr'
  cases hr'

theorem payment_origin {ws : List Write} {q : Payment} (hq : q ∈ (ws.foldl Store.apply s).payments) :
    (∃ p, .insertPayment p ∈ ws ∧ Payment.Step p q) ∨ ∃ p ∈ s.payments, Payment.Step p q := by
  induction ws generalizing s with
  | nil => exact .inr ⟨q, hq, .refl q⟩
  | cons w ws ih =>
    rcases ih hq with ⟨p, hp, hstep⟩ | ⟨p, hp, hstep⟩
    · exact .inl ⟨p, List.mem_cons_of_mem w hp, hstep⟩
    · have updated : ∀ {i : Nat} {c : Payment → Bool} {f : Payment → Payment},
          p ∈ Table.updateWhere s.payments i c f → (∀ r, c r = true → Payment.Step r (f r)) →
          ∃ r ∈ s.payments, Payment.Step r q := by
        intro i c f hp hf
        unfold Table.updateWhere at hp
        obtain ⟨r, hr, rfl⟩ := List.mem_map.1 hp
        refine ⟨r, hr, ?_⟩
        split at hstep
        · next hc => exact (hf r (Bool.and_eq_true_iff.1 hc).2).trans hstep
        · exact hstep
      cases w with
      | insertPayment p' =>
        have hp : p ∈ (if s.admitsPayment p' then s.payments ++ [p'] else s.payments) := hp
        split at hp
        · rcases List.mem_append.1 hp with hp | hp
          · exact .inr ⟨p, hp, hstep⟩
          · exact .inl ⟨p', List.mem_cons_self, List.mem_singleton.1 hp ▸ hstep⟩
        · exact .inr ⟨p, hp, hstep⟩
      | markPayment i f => exact .inr (updated hp fun r hc => PaymentPatch.step hc)
      | markRefundRequired i reason d =>
        exact .inr (updated hp fun r _ => ⟨rfl, rfl, rfl, rfl, rfl, rfl, rfl, r.status.reaches_refl⟩)
      | scheduleBccReconciliation i nextAt =>
        exact .inr (updated hp fun r _ => ⟨rfl, rfl, rfl, rfl, rfl, rfl, rfl, r.status.reaches_refl⟩)
      | reconcile i f => exact .inr (updated hp fun r _ => f.step r)
      | _ => exact .inr ⟨p, hp, hstep⟩

end

end Billing
