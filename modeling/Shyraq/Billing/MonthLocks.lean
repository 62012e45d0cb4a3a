import Shyraq.Billing.Creations
import Shyraq.Billing.Initiation
import Shyraq.Billing.Receipts

/-!
# The locks of the months

The monthly run and the settlement of a prepayment take the same lock of a month: the run of
its month, the settlement of the months that it finds walking over the window.  Under a month's
lock nobody else bills that month and no prepayment over it becomes paid.
-/

namespace Billing

open Kernel Transactions

/-! ## Windows -/

/-- The day lies in the window, as the monthly run asks. -/
def Invoice.covers (i : Invoice) (d : Int) : Prop := i.periodStart ≤ d ∧ d ≤ i.periodEnd

instance (i : Invoice) (d : Int) : Decidable (i.covers d) := inferInstanceAs (Decidable (_ ∧ _))

/-- The months that the settlement locks. -/
def Invoice.lockedMonths (i : Invoice) : List Int :=
  (monthsOfWindow i.periodStart i.periodEnd).map monthOf

/-- Every month that begins in the window is locked. -/
def Invoice.Anchored (i : Invoice) : Prop := ∀ k, i.covers (monthStart k) → k ∈ i.lockedMonths

theorem mem_monthsFrom {fuel n : Nat} {k stop : Int} (hn : n < fuel) (hstop : monthStart (k + n) ≤ stop) :
    monthStart (k + n) ∈ monthsFrom fuel (monthStart k) stop := by
  induction fuel generalizing n k with
  | zero => omega
  | succ fuel ih =>
    have hle : monthStart k ≤ stop := by
      have := monthStart_add k n
      omega
    unfold monthsFrom
    rw [if_pos hle, addMonthsUtc_monthStart]
    cases n with
    | zero => simp
    | succ n =>
      refine List.mem_cons_of_mem _ ?_
      have hk : k + ((n + 1 : Nat) : Int) = k + 1 + n := by omega
      rw [hk] at hstop ⊢
      exact ih (by omega) hstop

theorem anchored_of_monthStart {i : Invoice} {k : Int} (h : i.periodStart = monthStart k) : i.Anchored := by
  intro j hj
  obtain ⟨hstart, hstop⟩ := hj
  rw [h] at hstart
  have hkj : k ≤ j := by
    by_contra hlt
    have := monthStart_lt (show j < k by omega)
    omega
  obtain ⟨n, rfl⟩ : ∃ n : Nat, j = k + n := ⟨(j - k).toNat, by omega⟩
  refine List.mem_map.2 ⟨monthStart (k + n), ?_, monthOf_monthStart _⟩
  unfold monthsOfWindow
  rw [h]
  have := monthStart_add k n
  exact mem_monthsFrom (by omega) hstop

theorem Anchored.of_step {i i' : Invoice} (h : i.Anchored) (hs : Invoice.Step i i') : i'.Anchored := by
  rw [hs.1]
  exact h

theorem Invoice.Step.covers {i i' : Invoice} (h : Invoice.Step i i') (d : Int) : i'.covers d ↔ i.covers d := by
  rw [h.1]
  exact Iff.rfl

/-! ## Money on an invoice -/

/-- A completed payment. -/
def Store.hasMoney (s : Store) (invoiceId : Nat) : Bool :=
  s.payments.any fun q => q.invoiceId == invoiceId && q.status == .completed

theorem hasMoney_iff {s : Store} {id : Nat} :
    s.hasMoney id = true ↔ ∃ q ∈ s.payments, q.invoiceId = id ∧ q.status = .completed := by
  simp [Store.hasMoney]

theorem hasMoney_congr {s s' : Store} (h : s'.payments = s.payments) (id : Nat) : s'.hasMoney id = s.hasMoney id := by
  unfold Store.hasMoney
  rw [h]

theorem hasMoney_of_paidSum {s : Store} {id : Nat} (h : 0 < s.paidSum id) : s.hasMoney id = true := by
  rw [hasMoney_iff]
  by_contra hnone
  have hempty : (s.payments.filter fun p => p.invoiceId == id && p.status == .completed) = [] := by
    rw [List.filter_eq_nil_iff]
    intro q hq hp
    simp only [Bool.and_eq_true, beq_iff_eq] at hp
    exact hnone ⟨q, hq, hp.1, hp.2⟩
  unfold Store.paidSum at h
  rw [hempty, Table.total_nil] at h
  omega

/-- Statements that complete no payment. -/
def Write.MakesNoMoney : Write → Prop
  | .insertPayment p => p.status ≠ .completed
  | .markPayment _ (.completed ..) => False
  | _ => True

theorem hasMoney_of_apply {s : Store} {w : Write} (hw : w.MakesNoMoney) {id : Nat}
    (h : (s.apply w).hasMoney id = true) : s.hasMoney id = true := by
  by_cases ht : w.table = .payments
  · rw [hasMoney_iff] at h ⊢
    obtain ⟨q, hq, hid, hstatus⟩ := h
    -- an UPDATE that completes nothing has found the row completed
    have updated : ∀ {i : Nat} {c : Payment → Bool} {f : Payment → Payment},
        q ∈ Table.updateWhere s.payments i c f → (∀ r, (f r).invoiceId = r.invoiceId) →
        (∀ r, (f r).status = .completed → r.status = .completed) →
        ∃ q ∈ s.payments, q.invoiceId = id ∧ q.status = .completed := by
      intro i c f hmem hinv hcomp
      rcases Store.WF.mem_updateWhere hmem with hmem | ⟨r, hr, rfl⟩
      · exact ⟨q, hmem, hid, hstatus⟩
      · exact ⟨r, hr, (hinv r).symm.trans hid, hcomp r hstatus⟩
    cases w with
    | insertPayment p =>
      have hq : q ∈ if s.admitsPayment p then s.payments ++ [p] else s.payments := hq
      split at hq
      · rcases List.mem_append.1 hq with hq | hq
        · exact ⟨q, hq, hid, hstatus⟩
        · rw [List.mem_singleton.1 hq] at hstatus
          exact absurd hstatus hw
      · exact ⟨q, hq, hid, hstatus⟩
    | markPayment i f =>
      cases f with
      | completed txn paidAt => exact hw.elim
      | processing txn => exact updated hq (fun _ => rfl) fun _ h => nomatch h
      | failed => exact updated hq (fun _ => rfl) fun _ h => nomatch h
      | refunded r => exact updated hq (fun _ => rfl) fun _ h => nomatch h
    | touchPayment i => exact ⟨q, hq, hid, hstatus⟩
    | markRefundRequired i r d => exact updated hq (fun _ => rfl) fun _ h => h
    | scheduleBccReconciliation i n => exact updated hq (fun _ => rfl) fun _ h => h
    | reconcile i f => exact updated hq (fun _ => by cases f <;> rfl) fun _ h => by cases f <;> exact h
    | _ => cases ht
  · rwa [hasMoney_congr (s.payments_apply w ht)] at h

theorem hasMoney_of_view {t : Tx Store Key Write} (hw : ∀ w ∈ t.writes, w.MakesNoMoney) {s : Store}
    {id : Nat} (h : (t.view s).hasMoney id = true) : s.hasMoney id = true := by
  unfold Tx.view at h
  generalize t.writes = ws at hw h
  induction ws generalizing s with
  | nil => exact h
  | cons w ws ih =>
    exact hasMoney_of_apply (hw w List.mem_cons_self) (ih (fun w' hw' => hw w' (List.mem_cons_of_mem _ hw')) h)

theorem hasMoney_of_rows {s s' : Store} (hs : Table.Unique s.payments)
    (h : ∀ i q, s.payment? i = some q → q.status = .completed →
      ∃ q', s'.payment? i = some q' ∧ q'.invoiceId = q.invoiceId ∧ q'.status = .completed) {id : Nat}
    (hm : s.hasMoney id = true) : s'.hasMoney id = true := by
  rw [hasMoney_iff] at hm ⊢
  obtain ⟨q, hq, hid, hstatus⟩ := hm
  obtain ⟨q', hq', hid', hstatus'⟩ := h q.id q (Table.find_of_mem hs hq) hstatus
  exact ⟨q', Table.mem_of_find hq', hid'.trans hid, hstatus'⟩

/-! ## The discipline of the months -/

structure MonthMoves (held : List Key) (s s' : Store) : Prop extends Moves held s s' where
  money : ∀ id, s.hasMoney id = true → s'.hasMoney id = true
  billed : ∀ k, Key.monthly k ∈ held → ∀ i m, s'.invoice? i = some m → m.invoiceType = .monthly →
    m.periodStart = monthStart k → ∃ m₀, s.invoice? i = some m₀
  settled : ∀ k, Key.monthly k ∈ held → ∀ i p, s'.invoice? i = some p → p.invoiceType.isPrepayment = true →
    p.status = .paid → p.covers (monthStart k) → ∃ p₀, s.invoice? i = some p₀ ∧ p₀.status = .paid

theorem MonthMoves.trans {held : List Key} {s₁ s₂ s₃ : Store} (h₁ : MonthMoves held s₁ s₂)
    (h₂ : MonthMoves held s₂ s₃) : MonthMoves held s₁ s₃ where
  toMoves := h₁.toMoves.trans h₂.toMoves
  money id h := h₂.money id (h₁.money id h)
  billed := by
    intro k hk i m hm ht hp
    obtain ⟨m₂, hm₂⟩ := h₂.billed k hk i m hm ht hp
    obtain ⟨m', hm', hstep, -⟩ := h₂.invoices.row i m₂ hm₂
    obtain rfl := Option.some.inj (hm'.symm.trans hm)
    rw [hstep.1] at ht hp
    exact h₁.billed k hk i m₂ hm₂ ht hp
  settled := by
    intro k hk i p hp ht hpaid hcov
    obtain ⟨p₂, hp₂, hpaid₂⟩ := h₂.settled k hk i p hp ht hpaid hcov
    obtain ⟨p', hp', hstep, -⟩ := h₂.invoices.row i p₂ hp₂
    obtain rfl := Option.some.inj (hp'.symm.trans hp)
    rw [hstep.covers] at hcov
    rw [hstep.1] at ht
    exact h₁.settled k hk i p₂ hp₂ ht hpaid₂ hcov

/-- The locks of billing, the locks of the months among them. -/
def monthLocks : Discipline Store Key Write where
  rely := MonthMoves
  refl held s :=
    { Moves.refl held s with
      money := fun _ h => h
      billed := fun _ _ _ m hm _ _ => ⟨m, hm⟩
      settled := fun _ _ _ p hp _ hpaid _ => ⟨p, hp, hpaid⟩ }
  trans := MonthMoves.trans
  mono hs h :=
    { Moves.mono hs h.toMoves with
      money := h.money
      billed := fun k hk => h.billed k (hs hk)
      settled := fun k hk => h.settled k (hs hk) }

end Billing
