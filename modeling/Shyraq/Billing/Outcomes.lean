import Shyraq.Billing.Coverage
import Shyraq.Billing.Initiation
import Shyraq.Billing.Receipts
import Shyraq.Billing.Refunding

/-!
# What each request does

The requests that move money or flip invoices, with what each has done when it commits.
A run of them, in any interleaving, is a chain of such commits (`chain_outcomes`).
-/

namespace Billing

open Kernel Transactions

/-- The requests that settle, cancel or refund; those that create invoices are left out. -/
def Op.MovesMoney : Op → Prop
  | deliver .. | initiate .. | manualMarkPaid .. | cancel .. | markOverdue _ => True
  | createRefund .. | approveRefund .. | rejectRefund .. | processRefund .. => True
  | proRataRefund .. | createOneOff .. | generateLatePickup .. | generateMonthly .. | generateFirstInvoice ..
  | prepayInvoice .. | elsewhere _ => False

/-- What a request has done, from the committed store `s` right before its commit. -/
inductive Outcome (D : Discipline Store Key Write) (t : Tx Store Key Write) (s : Store) :
    Op → Answer → Prop
  | delivered {entry now id v a} (h : Delivered D entry v.status id t s) :
      Outcome D t s (.deliver entry now id v) a
  | initiated {now input outcome p} (h : Initiated D t s p) :
      Outcome D t s (.initiate now input outcome) (.payment p)
  | received {now id input a} (invoice : Invoice) (paidSum : Int) (flip : Option InvoiceFlip)
      (p : Payment) (credit : Option Int) (h : CashReceipt D id input invoice paidSum flip p credit t s) :
      Outcome D t s (.manualMarkPaid now id input) a
  | cancelled {id reason a} (h : Reflagged .cancelled t s) : Outcome D t s (.cancel id reason) a
  | overdue {now a} (h : Reflagged (.overdue (formatDateInTimezone now)) t s) :
      Outcome D t s (.markOverdue now) a
  | requested {now input a} (p : Payment) (r : Refund) (h : Requested p r t s) :
      Outcome D t s (.createRefund now input) a
  | approved {id staff a} (r : Refund) (h : Decided id (.approved staff) r t s) :
      Outcome D t s (.approveRefund id staff) a
  | rejected {id reason a} (r : Refund) (h : Decided id (.rejected reason) r t s) :
      Outcome D t s (.rejectRefund id reason) a
  | processed {id ack provider a} (r : Refund) (providerRef : Option Nat) (p : Payment) (taken : Bool)
      (invoice : Invoice) (effectiveNet : Int) (flip : Option InvoiceFlip) (hid : r.id = id)
      (h : Refunded D r providerRef p taken invoice effectiveNet flip t s) :
      Outcome D t s (.processRefund id ack provider) a

variable {D : Discipline Store Key Write} {Allowed : Op → Prop}

theorem Outcome.invoices {t : Tx Store Key Write} {s : Store} {op : Op} {a : Answer} (h : Outcome D t s op a) :
    Table.Rewrites Invoice.Step s.invoices (t.view s).invoices := by
  have same : (t.view s).invoices = s.invoices →
      Table.Rewrites Invoice.Step s.invoices (t.view s).invoices := by
    intro he
    rw [he]
    exact .refl Invoice.Step.refl _
  have settled : ∀ {p invoice paidSum flip t₁}, Settled D p invoice paidSum flip t₁ t s →
      Table.Rewrites Invoice.Step s.invoices (t.view s).invoices := by
    intro p invoice paidSum flip t₁ hset
    obtain ⟨l, hf, hv⟩ := hset.invoices
    exact hf.rewrites_voided hv
  cases h with
  | delivered h =>
    cases h with
    | noted h => exact same (by rw [view_of_touches h.1]; rfl)
    | completed p p' invoice paidSum flip hs hp h =>
      obtain ⟨t₁, txn, paidAt, v₁, v₂, v₃, hw, hseen, hset⟩ := h.settled
      exact settled hset
    | failed p hs h =>
      obtain ⟨t₁, hw, he⟩ := h.writes
      refine same ?_
      rw [invoices_of_extends he fun w h => h.table_ne (by decide), view_of_writes hw]
      rfl
    | processing hs he h => exact same (by rw [view_of_touches h]; rfl)
  | initiated h =>
    cases h with
    | answered h => exact same (invoices_of_extends h (fun w h => h.table_ne (by decide)) s)
    | opened p h status accounts invoices => exact same invoices
    | settled p p₀ t₁ invoice paidSum flip h id status step hset => exact settled hset
  | received invoice paidSum flip p credit h =>
    obtain ⟨l, hf, hv⟩ := h.invoices
    exact hf.rewrites_voided hv
  | cancelled h => exact h.invoices.mono fun _ _ h => h.step
  | overdue h => exact h.invoices.mono fun _ _ h => h.step
  | requested p r h => exact same h.invoices
  | approved r h => exact same h.invoices
  | rejected r h => exact same h.invoices
  | processed r providerRef p taken invoice effectiveNet flip hid h => exact h.invoices.rewrites

theorem safe_prog {J : Store → Prop} {X : BillingError → Prop}
    {s : Store} (S : Setting D J X) (hj : J s) (op : Op) (hop : op.MovesMoney) :
    Prog.Safe D J X (fun t s a => Outcome D t s op a) op.prog .start s := by
  cases op with
  | deliver entry now id v =>
    exact (safe_deliver S now id v entry).map fun _ _ _ _ h => .delivered h
  | initiate now input outcome =>
    exact (safe_initiate S now input outcome).map fun _ _ _ _ h => .initiated h
  | manualMarkPaid now id input =>
    refine (safe_manualMarkPaid S now id input).map ?_
    rintro t s _ _ ⟨invoice, paidSum, flip, p, credit, h⟩
    exact .received invoice paidSum flip p credit h
  | cancel id reason => exact (safe_cancel S hj id reason).map fun _ _ _ _ h => .cancelled h
  | markOverdue now => exact (safe_runForKindergarten S hj now).map fun _ _ _ _ h => .overdue h
  | createRefund now input =>
    refine (safe_createRefund S now input).map ?_
    rintro t s _ _ ⟨p, r, h⟩
    exact .requested p r h
  | approveRefund id staff =>
    refine (safe_approve S id staff).map ?_
    rintro t s _ _ ⟨r, h⟩
    exact .approved r h
  | rejectRefund id reason =>
    refine (safe_reject S id reason).map ?_
    rintro t s _ _ ⟨r, h⟩
    exact .rejected r h
  | processRefund id ack provider =>
    refine (safe_process S id ack provider).map ?_
    rintro t s _ _ ⟨r, providerRef, p, taken, invoice, effectiveNet, flip, hid, h⟩
    exact .processed r providerRef p taken invoice effectiveNet flip hid h
  | _ => exact hop.elim

theorem covered_prog (op : Op) (hop : op.MovesMoney) : IsCovered op.prog := by
  cases op with
  | deliver entry now id v => exact (PaymentService.covered_deliver now id v entry).bind fun _ => .ret _
  | initiate now input outcome =>
    exact (PaymentService.covered_initiate now input outcome).bind fun _ => .ret _
  | manualMarkPaid now id input =>
    exact (InvoiceService.covered_manualMarkPaid now id input).bind fun _ => .ret _
  | cancel id reason => exact (InvoiceService.covered_cancel id reason).bind fun _ => .ret _
  | markOverdue now =>
    exact (covered_runForKindergarten now).bind fun _ => .ret _
  | createRefund now input => exact (RefundService.covered_create now input).bind fun _ => .ret _
  | approveRefund id staff => exact (RefundService.covered_approve id staff).bind fun _ => .ret _
  | rejectRefund id reason => exact (RefundService.covered_reject id reason).bind fun _ => .ret _
  | processRefund id ack provider =>
    exact (RefundService.covered_process id ack provider).bind fun _ => .ret _
  | _ => exact hop.elim

/-! ## Runs -/

/-- A commit of one of these requests. -/
structure Committed (D : Discipline Store Key Write) (Allowed : Op → Prop) (s : Store) (c : BillingCommit) :
    Prop where
  wf : s.WF
  allowed : Allowed c.op
  outcome : Outcome D c.tx s c.op c.result

/-- Any interleaving of requests whose writes are covered, under any discipline that every single commit keeps. -/
theorem chain_of_covered {J : Store → Prop}
    {R : Store → BillingCommit → Prop} {n : Nat} {s : Store} {cs : Schedule n} {σ : System n}
    (hcov : ∀ op, Allowed op → IsCovered op.prog)
    (hP : ∀ op s, Allowed op → J s → op.prog.Safe D J (fun _ => True) (fun t s a => R s ⟨op, t, a⟩) .start s)
    (hJ : ∀ s c, J s → R s c → J (c.tx.view s))
    (hG : ∀ s c, J s → R s c → (∀ w ∈ c.tx.writes, Covered c.tx.held w) → D.Guarantee c.tx s)
    (hs : J s) (hcs : System.Starts Allowed cs) (hrun : run s cs = some σ) :
    Chain (fun s c => J s ∧ R s c) s σ.log σ.db := by
  let Q : Op → Tx Store Key Write → Store → Answer → Prop := fun op t s a =>
    R s ⟨op, t, a⟩ ∧ ∀ w ∈ t.writes, Covered t.held w
  have hQ : ∀ op s, Allowed op → J s → op.prog.Safe D J (fun _ => True) (Q op) .start s := by
    intro op s hop hs
    have hwrites : Prog.Safe D J (fun _ => True) (fun t _ _ => ∀ w ∈ t.writes, Covered t.held w) op.prog .start s :=
      Prog.Safe.of_eachWrite covered_mono (hcov op hop _) (fun _ => trivial) (by simp [Tx.start])
    exact (hP op s hop hs).and hwrites
  have h := System.exec_chain hs hQ (fun op t s a hj h => hJ s ⟨op, t, a⟩ hj h.1)
    (fun op t s a hj h => hG s ⟨op, t, a⟩ hj h.1 h.2) hcs hrun
  exact h.mono fun s c hc => ⟨hc.1, hc.2.1⟩

theorem chain_of_discipline {J : Store → Prop}
    {n : Nat} {s : Store} {cs : Schedule n} {σ : System n} (S : Setting D J fun _ => True)
    (hA : ∀ op, Allowed op → op.MovesMoney) (hJ : ∀ s c, J s → Committed D Allowed s c → J (c.tx.view s))
    (hG : ∀ s c, J s → Committed D Allowed s c → (∀ w ∈ c.tx.writes, Covered c.tx.held w) → D.Guarantee c.tx s)
    (hs : J s) (hcs : System.Starts Allowed cs) (hrun : run s cs = some σ) :
    Chain (fun s c => J s ∧ Committed D Allowed s c) s σ.log σ.db := by
  refine chain_of_covered (fun op hop => covered_prog op (hA op hop)) (fun op s hop hs => ?_) hJ hG hs hcs hrun
  exact (safe_prog S hs op (hA op hop)).mono fun t s a hj h => ⟨S.wf hj, hop, h⟩

theorem setting_locks : Setting locks Store.WF (fun _ => True) where
  moves h := h
  wf h := h
  throws _ := trivial

theorem chain_outcomes {n : Nat} {s : Store} {cs : Schedule n} {σ : System n}
    (hA : ∀ op, Allowed op → op.MovesMoney) (hs : s.WF) (hcs : System.Starts Allowed cs)
    (hrun : run s cs = some σ) : Chain (Committed locks Allowed) s σ.log σ.db := by
  have h := chain_of_discipline setting_locks hA (fun s c hs _ => hs.view c.tx)
    (fun s c _ _ hcov => guarantee_locks hcov s) hs hcs hrun
  exact h.mono fun s c hc => hc.2

theorem setting_serial : Setting Discipline.serial Store.WF (fun _ => True) where
  moves {held s s'} h := by
    rw [show s' = s from h]
    exact Moves.refl held s
  wf h := h
  throws _ := trivial

theorem chain_serial {s : Store} {cs : Schedule 1} {σ : System 1}
    (hA : ∀ op, Allowed op → op.MovesMoney) (hs : s.WF) (hcs : System.Starts Allowed cs)
    (hrun : run s cs = some σ) : Chain (Committed Discipline.serial Allowed) s σ.log σ.db := by
  let Q : Op → Tx Store Key Write → Store → Answer → Prop := fun op t s a =>
    Committed Discipline.serial Allowed s ⟨op, t, a⟩
  have hP : ∀ op s, Allowed op → s.WF →
      op.prog.Safe Discipline.serial Store.WF (fun _ => True) (Q op) .start s := by
    intro op s hop hs
    refine (safe_prog setting_serial hs op (hA op hop)).mono ?_
    intro t s a hj h
    exact ⟨hj, hop, h⟩
  have h := System.exec_chain_serial hs hP (fun op t s a hj _ => hj.view t) hcs hrun
  exact h.mono fun s c hc => hc.2

end Billing
