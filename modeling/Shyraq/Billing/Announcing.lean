import Shyraq.Billing.CoveredMonths
import Shyraq.Billing.Landing
import Shyraq.Billing.Sums
import Shyraq.Transactions.Serial

/-!
# Who says that an invoice is paid

The outbox event `invoice.paid` beside the statement that marks the invoice as `paid`, request by
request.  A receipt in cash says it with the mark; a completed gateway payment says it whenever the
sum it has read covers the invoice, whether or not its own flip has matched.
-/

namespace Billing

open Kernel Transactions

/-! ## Saying and marking -/

def Write.saysPaid (id : Nat) : Write → Bool
  | .notify n => n.saysPaid id
  | _ => false

def Write.marksPaid (id : Nat) : Write → Bool
  | .markInvoice i .paid => i == id
  | _ => false

/-- Apart from a mark, nothing that makes an invoice `paid`, or takes that from it. -/
def Write.Tame : Write → Prop
  | .insertInvoice _ | .markInvoice _ .refunded => False
  | _ => True

/-- Neither says nor marks that an invoice is paid. -/
def Write.Mute : Write → Prop
  | .insertInvoice _ | .markInvoice _ .refunded | .markInvoice _ .paid | .notify (.invoicePaid ..) => False
  | _ => True

theorem Write.Mute.tame {w : Write} (h : w.Mute) : w.Tame := by
  cases w with
  | insertInvoice i => exact h
  | markInvoice i f =>
    cases f with
    | refunded => exact h
    | _ => trivial
  | _ => trivial

theorem Write.Mute.unsaid {w : Write} (h : w.Mute) (id : Nat) : w.saysPaid id = false := by
  cases w with
  | notify n =>
    cases n with
    | invoicePaid => exact h.elim
    | _ => rfl
  | _ => rfl

theorem Write.Mute.unmarked {w : Write} (h : w.Mute) (id : Nat) : w.marksPaid id = false := by
  cases w with
  | markInvoice i f =>
    cases f with
    | paid => exact h.elim
    | _ => rfl
  | _ => rfl

theorem Write.Mute.of_table {w : Write} (h : w.table ≠ .invoices ∧ w.table ≠ .outbox) : w.Mute := by
  cases w with
  | insertInvoice => exact absurd rfl h.1
  | markInvoice => exact absurd rfl h.1
  | notify => exact absurd rfl h.2
  | _ => trivial

/-- Of each invoice the statements say as often as they mark that it is paid, and `extra` times
more. -/
structure Told (extra : Nat → Nat) (ws : List Write) : Prop where
  tame : ∀ w ∈ ws, w.Tame
  count : ∀ id, ws.countP (Write.saysPaid id) = ws.countP (Write.marksPaid id) + extra id

/-- No invoice is said to be paid that is not marked. -/
def Faithful (ws : List Write) : Prop := Told (fun _ => 0) ws

variable {ws : List Write}

theorem counts_of_mute (h : ∀ w ∈ ws, w.Mute) (id : Nat) :
    ws.countP (Write.saysPaid id) = 0 ∧ ws.countP (Write.marksPaid id) = 0 := by
  constructor
  · refine List.countP_eq_zero.2 fun w hw => ?_
    rw [(h w hw).unsaid id]
    decide
  · refine List.countP_eq_zero.2 fun w hw => ?_
    rw [(h w hw).unmarked id]
    decide

theorem faithful_of_mute (h : ∀ w ∈ ws, w.Mute) : Faithful ws where
  tame w hw := (h w hw).tame
  count id := by
    rw [(counts_of_mute h id).1, (counts_of_mute h id).2]

theorem faithful_start : Faithful (Tx.start : Tx Store Key Write).writes := faithful_of_mute fun _ hw => nomatch hw

theorem Told.append {extra extra' : Nat → Nat} {ws' : List Write} (h : Told extra ws) (h' : Told extra' ws') :
    Told (fun id => extra id + extra' id) (ws ++ ws') where
  tame w hw := (List.mem_append.1 hw).elim (h.tame w) (h'.tame w)
  count id := by
    rw [List.countP_append, List.countP_append, h.count, h'.count]
    omega

/-! ## What a transaction says, on the committed store -/

/-- How often the outbox says that the invoice is paid. -/
def Store.paidEvents (s : Store) (id : Nat) : Nat := s.outbox.countP (Notification.saysPaid id)

def Store.isPaid (s : Store) (id : Nat) : Bool := (s.invoice? id).any fun i => i.status == .paid

variable {s s' : Store} {t t' : Tx Store Key Write}

theorem paidEvents_apply (s : Store) (w : Write) (id : Nat) :
    (s.apply w).paidEvents id = s.paidEvents id + if w.saysPaid id then 1 else 0 := by
  cases w with
  | notify n =>
    show (s.outbox ++ [n]).countP _ = _
    rw [List.countP_append, List.countP_singleton]
    rfl
  | _ => rfl

theorem paidEvents_view (t : Tx Store Key Write) (s : Store) (id : Nat) :
    (t.view s).paidEvents id = s.paidEvents id + t.writes.countP (Write.saysPaid id) := by
  unfold Tx.view
  generalize t.writes = ws
  induction ws generalizing s with
  | nil => rfl
  | cons w ws ih =>
    have hrest : (ws.foldl Relational.apply (s.apply w)).paidEvents id = _ := ih (s.apply w)
    rw [List.foldl_cons, List.countP_cons]
    show (ws.foldl Relational.apply (s.apply w)).paidEvents id = _
    rw [hrest, paidEvents_apply]
    omega

/-- A statement that lands: the invoice is paid after it where it was before, or is now marked. -/
theorem isPaid_apply {w : Write} (hw : w.Tame) (hlets : s.lets w) (id : Nat) :
    (s.apply w).isPaid id = (s.isPaid id || w.marksPaid id) ∧ (w.marksPaid id = true → s.isPaid id = false) := by
  cases w with
  | insertInvoice i => exact hw.elim
  | markInvoice i f =>
    obtain ⟨r, hr, ha⟩ := (Option.any_eq_true _ _).1 hlets
    have hfind : (s.apply (.markInvoice i f)).invoice? id =
        (s.invoice? id).map fun r => if id = i ∧ f.accepts r = true then f.set r else r :=
      Table.find_updateWhere s.invoices i f.accepts f.set (fun _ => rfl) id
    by_cases hid : id = i
    · subst hid
      have hrow : s.invoice? id = some r := hr
      unfold Store.isPaid
      rw [hfind, hrow, Option.map_some, if_pos ⟨rfl, ha⟩]
      cases f with
      | paid =>
        have hu : r.status.unpaid = true := ha
        have hne : (r.status == .paid) = false := by
          cases hs : r.status <;> rw [hs] at hu <;> first
            | rfl
            | cases hu
        simp [InvoiceFlip.set, InvoiceFlip.next, Write.marksPaid, hne]
      | refunded => exact hw.elim
      | partial_ =>
        have hne : (r.status == .paid) = false := by
          simp only [InvoiceFlip.accepts, Bool.or_eq_true, beq_iff_eq] at ha
          rcases ha with ha | ha <;> rw [ha] <;> rfl
        simp [InvoiceFlip.set, InvoiceFlip.next, Write.marksPaid, hne]
      | cancelled =>
        have hu : r.status.unpaid = true := ha
        have hne : (r.status == .paid) = false := by
          cases hs : r.status <;> rw [hs] at hu <;> first
            | rfl
            | cases hu
        simp [InvoiceFlip.set, InvoiceFlip.next, Write.marksPaid, hne]
      | overdue today =>
        have hne : (r.status == .paid) = false := by
          simp only [InvoiceFlip.accepts, Bool.and_eq_true, Bool.or_eq_true, beq_iff_eq] at ha
          rcases ha.1 with ha | ha <;> rw [ha] <;> rfl
        simp [InvoiceFlip.set, InvoiceFlip.next, Write.marksPaid, hne]
    · have hsame : (s.apply (.markInvoice i f)).isPaid id = s.isPaid id := by
        unfold Store.isPaid
        rw [hfind]
        cases s.invoice? id with
        | none => rfl
        | some r => simp [hid]
      have hmark : (Write.markInvoice i f).marksPaid id = false := by
        cases f <;> first
          | rfl
          | exact beq_eq_false_iff_ne.2 (Ne.symm hid)
      rw [hsame, hmark, Bool.or_false]
      exact ⟨rfl, fun h => absurd h Bool.false_ne_true⟩
  | _ => exact ⟨(Bool.or_false _).symm, fun h => absurd h Bool.false_ne_true⟩

/-- The marks that have landed: one where the invoice has become `paid`, none elsewhere. -/
theorem marks_of_landed (htame : ∀ w ∈ ws, w.Tame) (h : Landed Store.lets s ws) (id : Nat) :
    (s.isPaid id).toNat + ws.countP (Write.marksPaid id) = ((ws.foldl Store.apply s).isPaid id).toNat := by
  induction ws generalizing s with
  | nil => rfl
  | cons w ws ih =>
    obtain ⟨hafter, hbefore⟩ := isPaid_apply (htame w List.mem_cons_self) h.1 id
    have hrest := ih (s := s.apply w) (fun w' hw' => htame w' (List.mem_cons_of_mem _ hw')) h.2
    rw [List.foldl_cons, List.countP_cons, ← hrest, hafter]
    cases hm : w.marksPaid id with
    | false => simp
    | true =>
      rw [hbefore hm]
      simp
      omega

/-! ## The mute parts -/

theorem mute_of_unpaid (n : Notification) (h : n.Unpaid) : Write.Mute (.notify n) := by
  cases n with
  | invoicePaid i => exact absurd (h i) (by simp [Notification.saysPaid])
  | _ => trivial

theorem mute_detectDoublePayment (p : Payment) : Prog.OnlyWrites Write.Mute (PaymentService.detectDoublePayment p) :=
  onlyWrites_detectDoublePayment (fun _ _ => trivial) mute_of_unpaid

theorem mute_cancelCoveredMonthlies (prepayment : Invoice) :
    Prog.OnlyWrites Write.Mute (cancelCoveredMonthlies prepayment) :=
  onlyWrites_cancelCoveredMonthlies (fun _ => trivial) (fun _ => trivial) mute_of_unpaid

theorem mute_moveBalance (accountId : Nat) (amount delta : Int) (error : String) :
    Prog.OnlyWrites Write.Mute (PaymentAccountService.moveBalance accountId amount delta error) :=
  onlyWrites_moveBalance fun _ _ => trivial

theorem mute_recordCash (now : Int) (input : InvoiceService.ManualMarkPaidInput) (invoice : Invoice)
    (amount : Int) (credit : Option Int) :
    Prog.OnlyWrites Write.Mute (InvoiceService.recordCash now input invoice amount credit) :=
  onlyWrites_recordCash (fun _ => trivial) (fun _ _ => trivial) mute_of_unpaid

theorem mute_recordPartialCashPayment (now : Int) (invoice : Invoice) (amount : Int)
    (input : InvoiceService.ManualMarkPaidInput) :
    Prog.OnlyWrites Write.Mute (InvoiceService.recordPartialCashPayment now invoice amount input) :=
  (onlyWrites_flipPartial trivial).bind fun _ => (mute_recordCash _ _ _ _ _).bind fun _ => trivial

theorem mute_applyFailedPayment (id : Nat) (verified : VerifyWebhookResult) :
    Prog.OnlyWrites Write.Mute (PaymentService.applyFailedPayment id verified) :=
  onlyWrites_applyFailedPayment (fun _ => trivial) mute_of_unpaid

theorem mute_cancel (invoiceId : Nat) (reason : Option String) :
    Prog.OnlyWrites Write.Mute (InvoiceService.cancel invoiceId reason) :=
  onlyWrites_cancel trivial (fun _ => trivial) mute_of_unpaid

theorem mute_runForKindergarten (now : Int) :
    Prog.OnlyWrites Write.Mute (OverdueInvoiceProcessor.runForKindergarten now) :=
  onlyWrites_runForKindergarten (fun _ => trivial) mute_of_unpaid

/-! ## The settlements -/

section

variable {D : Discipline Store Key Write} {J : Store → Prop} {X : BillingError → Prop}

theorem safe_faithful {A : Type} {p : Sql A} (S : Setting D J X) (hj : J s) (hp : Prog.OnlyWrites Write.Mute p)
    (h : Faithful t.writes) : Prog.Safe D J X (fun t' _ _ => Faithful t'.writes) p t s := by
  refine (Prog.Safe.of_onlyWrites hp S.throws hj).mono fun t' s' _ _ he => ?_
  obtain ⟨ws, hw, hm⟩ := he.1.writes
  rw [hw]
  exact h.append (faithful_of_mute hm)

theorem mute_flipInvoice (payment : Payment) (invoice : Invoice) (paidSum : Int) :
    Prog.OnlyWrites (fun w => w.Mute ∨ w = .markInvoice invoice.id .paid)
      (PaymentService.flipInvoice payment invoice paidSum) :=
  onlyWrites_flipInvoice (.inr rfl) (.inl trivial) fun n h => .inl (mute_of_unpaid n h)

/-- The whole amount is in, and the invoice is past being unpaid: the settlement says `paid` once
more than it marks. -/
def Invoice.overTold (r : Invoice) (paidSum : Int) (id : Nat) : Nat :=
  if id = r.id ∧ r.status.unpaid = false ∧ r.amountAfterDiscount ≤ paidSum then 1 else 0

theorem told_of_flip {invoice : Invoice} {paidSum : Int} {flip : Option InvoiceFlip} {ws₀ ws₁ : List Write}
    {n : Notification} {held : List Key} (h₀ : ∀ w ∈ ws₀, w.Mute) (h₁ : ∀ w ∈ ws₁, w.Mute)
    (hn : ∀ id, n.saysPaid id = (invoice.id == id)) (hkind : FlipOf invoice paidSum flip)
    (hrow : Flipped held invoice paidSum flip s) :
    ∃ r, s.invoice? invoice.id = some r ∧ Told (r.overTold paidSum) (ws₀ ++ flipWrites invoice.id flip ++ ws₁ ++
      if invoice.amountAfterDiscount ≤ paidSum then [.notify n] else []) := by
  obtain ⟨r, hr, hstep, hk⟩ := hrow
  have hid : r.id = invoice.id := Table.id_of_find hr
  have hamount : r.amountAfterDiscount = invoice.amountAfterDiscount := by rw [hstep.1]
  have hover : ∀ id, r.overTold paidSum id =
      if invoice.id = id ∧ r.status.unpaid = false ∧ invoice.amountAfterDiscount ≤ paidSum then 1 else 0 := by
    intro id
    unfold Invoice.overTold
    simp only [hid, hamount, eq_comm (a := id)]
  refine ⟨r, hr, fun w hw => ?_, fun id => ?_⟩
  · rcases List.mem_append.1 hw with hw | hw
    · rcases List.mem_append.1 hw with hw | hw
      · rcases List.mem_append.1 hw with hw | hw
        · exact (h₀ w hw).tame
        · cases flip with
          | none => cases hw
          | some f =>
            obtain rfl := List.mem_singleton.1 hw
            cases f with
            | refunded => exact hkind.elim
            | _ => trivial
      · exact (h₁ w hw).tame
    · split at hw
      · obtain rfl := List.mem_singleton.1 hw
        trivial
      · cases hw
  · have hsaid : List.countP (Write.saysPaid id)
        (if invoice.amountAfterDiscount ≤ paidSum then [Write.notify n] else []) =
        if invoice.id = id ∧ invoice.amountAfterDiscount ≤ paidSum then 1 else 0 := by
      by_cases hle : invoice.amountAfterDiscount ≤ paidSum
      · rw [if_pos hle, List.countP_singleton]
        show (if n.saysPaid id = true then 1 else 0) = _
        rw [hn]
        simp [hle]
      · rw [if_neg hle, if_neg fun h => hle h.2]
        rfl
    have hmarks : List.countP (Write.marksPaid id)
        (if invoice.amountAfterDiscount ≤ paidSum then [Write.notify n] else []) = 0 := by
      split <;> rfl
    simp only [List.countP_append, counts_of_mute h₀ id, counts_of_mute h₁ id, hsaid, hmarks, hover]
    by_cases hi : invoice.id = id
    · cases flip with
      | none =>
        by_cases hle : invoice.amountAfterDiscount ≤ paidSum
        · simp [flipWrites, hi, hle, hk hle]
        · simp [flipWrites, hi, hle]
      | some f =>
        cases f with
        | paid =>
          have hle : invoice.amountAfterDiscount ≤ paidSum := hkind
          have hu : r.status.unpaid = true := hk.1
          simp [flipWrites, Write.saysPaid, Write.marksPaid, hi, hle, hu]
        | partial_ =>
          have hlt : ¬invoice.amountAfterDiscount ≤ paidSum := Int.not_le.2 hkind
          simp [flipWrites, Write.saysPaid, Write.marksPaid, hi, hlt]
        | cancelled => exact hkind.elim
        | refunded => exact hkind.elim
        | overdue today => exact hkind.elim
    · have hflip : (flipWrites invoice.id flip).countP (Write.saysPaid id) = 0 ∧
          (flipWrites invoice.id flip).countP (Write.marksPaid id) = 0 := by
        cases flip with
        | none => exact ⟨rfl, rfl⟩
        | some f =>
          cases f with
          | paid => simp [flipWrites, Write.saysPaid, Write.marksPaid, hi]
          | _ => exact ⟨rfl, rfl⟩
      simp [hflip, hi]

/-- The settlement of payment `p`, with the sum that it reads in the committed state `v`. -/
theorem safe_settleTold (S : Setting D J X) (hw : ∀ w ∈ t.writes, w.table = .payments) (now : Int) (p : Payment) :
    Prog.Safe D J X (fun t' s' _ => ∃ r v, s'.invoice? p.invoiceId = some r ∧ J v ∧ D.rely t.held v s' ∧
      Told (r.overTold ((t.view v).paidSum p.invoiceId)) t'.writes) (PaymentService.settle now p) t s := by
  have hinv : ∀ s, (t.view s).invoices = s.invoices :=
    invoices_of_start fun w h => by rw [hw w h]; decide
  have h₀ : ∀ w ∈ t.writes, w.Mute := fun w hmem => .of_table (by rw [hw w hmem]; decide)
  unfold PaymentService.settle
  refine Prog.Safe.query fun s₁ _ hj₁ => safe_require S.throws fun invoice hi => ?_
  have hi₁ : Table.find s₁.invoices p.invoiceId = some invoice := by
    rw [← hinv]
    exact hi
  have hid : invoice.id = p.invoiceId := Table.id_of_find hi₁
  have hthere : StillThere invoice s₁ := ⟨invoice, by rw [hid]; exact hi₁, .refl _⟩
  refine Prog.Safe.keep (StillThere invoice) [] (by simp)
    (fun _ _ hr _ _ h => keep_stillThere (S.moves hr) h) hj₁ hthere ?_
  refine Prog.Safe.query fun v _ hv => ?_
  refine Prog.Safe.keep (D.rely t.held v) t.held (List.Subset.refl _)
    (fun _ _ hr _ _ h => D.trans h hr) hv (D.refl _ _) ?_
  have S₂ := (S.and (StillThere invoice)).and (D.rely t.held v)
  have hsum : Store.paidSum (Tx.view (t.saw s₁) v) p.invoiceId = (t.view v).paidSum p.invoiceId := rfl
  rw [hsum]
  generalize hpaid : (t.view v).paidSum p.invoiceId = paidSum
  have hflips := (safe_flipInvoice (t := (t.saw s₁).saw v) S₂ ⟨hv, D.refl _ _⟩ (fun s => by
    rw [Tx.view_saw, Tx.view_saw, hinv]) p invoice paidSum hv.2).and
    (Prog.Safe.of_onlyWrites (mute_flipInvoice p invoice paidSum) S₂.throws ⟨hv, D.refl _ _⟩)
  refine Prog.Safe.bind ⟨hv, D.refl _ _⟩ (hflips.mono fun t₁ s₂ res hj₂ h => ?_)
  obtain ⟨⟨flip, -, hflip⟩, hmute, -⟩ := h
  -- the statements of the flip, and mute ones behind them
  obtain ⟨ws₁, hw₁, h₁⟩ : ∃ ws₁, t₁.writes = t.writes ++ flipWrites invoice.id flip ++ ws₁ ∧
      ∀ w ∈ ws₁, w.Mute := by
    obtain ⟨tf, hfw, hext⟩ := hflip.writes
    obtain ⟨ws, he, hn⟩ := hext.writes
    obtain ⟨ws', he', hm⟩ := hmute.writes
    refine ⟨ws, by rw [he, hfw]; rfl, fun w hmem => ?_⟩
    have heq : ws' = flipWrites invoice.id flip ++ ws := by
      rw [he, hfw, List.append_assoc] at he'
      exact (List.append_cancel_left he').symm
    rcases hm w (heq ▸ List.mem_append_right _ hmem) with h | rfl
    · exact h
    · obtain ⟨n, hn⟩ := hn _ hmem
      cases hn
  refine Prog.Safe.keep (Flipped t₁.held invoice paidSum flip) t₁.held (List.Subset.refl _)
    (fun _ _ hr _ _ h => keep_flipped (S.moves hr) h) hj₂ hflip.row ?_
  have rest : Prog.OnlyWrites Write.Mute (PaymentService.cancelIfPrepayment res invoice) := by
    unfold PaymentService.cancelIfPrepayment
    split
    · exact mute_cancelCoveredMonthlies invoice
    · trivial
  refine Prog.Safe.bind_frame rest S.throws ⟨hj₂, hflip.row⟩ fun _ t₂ s₃ he₂ _ hj₃ => ?_
  refine Prog.Safe.bind_frame (mute_moveBalance _ _ _ _) S.throws hj₃ fun _ t₃ s₄ he₃ _ hj₄ => ?_
  unfold PaymentService.announceCompleted
  refine Prog.Safe.bind_frame (mute_detectDoublePayment p) S.throws hj₄ fun _ t₄ s₅ he₄ _ hj₅ => ?_
  refine Prog.Safe.bind_frame (onlyWrites_notify (P := Write.Mute) trivial) S.throws hj₅ fun _ t₅ s₆ he₅ _ hj₆ => ?_
  obtain ⟨ws₅, hw₅, h₅⟩ := (he₂.trans (he₃.trans (he₄.trans he₅))).writes
  have hmutes : ∀ w ∈ ws₁ ++ ws₅, w.Mute := fun w hmem => (List.mem_append.1 hmem).elim (h₁ w) (h₅ w)
  have done : ∀ s' : Store, (((J s' ∧ StillThere invoice s') ∧ D.rely t.held v s') ∧
      Flipped t₁.held invoice paidSum flip s') → ∀ n : Notification, (∀ id, n.saysPaid id = (invoice.id == id)) →
      ∃ r v, s'.invoice? p.invoiceId = some r ∧ J v ∧ D.rely t.held v s' ∧
        Told (r.overTold ((t.view v).paidSum p.invoiceId)) (t₅.writes ++
          if invoice.amountAfterDiscount ≤ paidSum then [.notify n] else []) := by
    intro s' hj' n hn
    obtain ⟨r, hr, htold⟩ := told_of_flip (n := n) h₀ hmutes hn hflip.kind hj'.2
    refine ⟨r, v, hid ▸ hr, hv.1, hj'.1.2, ?_⟩
    rw [hpaid, hw₅, hw₁, List.append_assoc _ ws₁ ws₅]
    exact htold
  split
  · next hle =>
    intro s₇ hr₇ hj₇
    refine ⟨fun _ => ?_, fun hmiss => nomatch hmiss⟩
    intro s₈ _ hj₈
    have h := done s₈ hj₈ (.invoicePaid invoice.id invoice.childId invoice.amountAfterDiscount
      (p.paidAt.getD now)) fun _ => rfl
    rw [if_pos hle] at h
    exact h
  · next hle =>
    intro s₇ _ hj₇
    have h := done s₇ hj₇ (.invoicePaid invoice.id invoice.childId invoice.amountAfterDiscount
      (p.paidAt.getD now)) fun _ => rfl
    rw [if_neg hle, List.append_nil] at h
    exact h

/-- The statements are faithful but for a settlement that was complete before: payment `p` on row `r`, the
sum of the others as it was in the committed state `v`. -/
def ToldOf (D : Discipline Store Key Write) (J : Store → Prop) (view : Store → Store) (p : Payment)
    (held : List Key) (ws : List Write) (s : Store) : Prop :=
  ∃ r v, s.invoice? p.invoiceId = some r ∧ J v ∧ D.rely held v s ∧
    Told (r.overTold ((view v).paidSum p.invoiceId + p.amount)) ws

theorem paidSum_completed {id : Nat} {q : Payment} {txn : Nat} {paidAt : Int} {l l' : Store}
    (hq : q.status.inFlight = true)
    (h : Table.Replaced l.payments l'.payments id q ((PaymentPatch.completed txn paidAt).set q)) :
    l'.paidSum q.invoiceId = l.paidSum q.invoiceId + q.amount := by
  rw [paidSum_eq, paidSum_eq, (counting_paidSum q.invoiceId).sum_completed h hq rfl (PaymentPatch.step hq)]
  simp

theorem safe_applyCompletedTold (S : Setting D J X) (now : Int) (id : Nat) (verified : VerifyWebhookResult)
    (B : Base J t id) : Prog.Safe D J X (fun t' s' _ => Faithful t'.writes ∨ ∃ q, (t.view s').payment? id = some q ∧
        q.status.inFlight = true ∧
        ToldOf D (fun v => J v ∧ (t.view v).payment? id = some q) t.view q t.held t'.writes s')
      (PaymentService.applyCompletedPayment now id verified) t s := by
  have hmute : ∀ w ∈ t.writes, w.Mute := fun w hmem => .of_table (by rw [B.writes w hmem]; decide)
  unfold PaymentService.applyCompletedPayment
  refine safe_observe S fun t₁ s₁ v₁ v₂ p hw hh hs hj₁ hp => ?_
  have hfaithful : Faithful t₁.writes := by
    rw [hw]
    exact faithful_of_mute hmute
  split
  · have hnone : Prog.OnlyWrites Write.Mute (Prog.bind (PaymentRepository.updateProviderPayload id)
        fun touched => Prog.ret (touched.getD p)) := (onlyWrites_returning trivial).bind fun _ => trivial
    exact (safe_faithful S hj₁ hnone hfaithful).mono fun _ _ _ _ h => .inl h
  · refine safe_keepVisible S B hj₁ hp ?_
    have S₁ := S.and (Visible t id)
    have B₁ := (B.and (Visible t id)).of_writes hw
    refine safe_markPayment S₁ B₁ (fun s hj => ?_) ?_ ?_
    · rw [view_of_writes_eq hw]
      exact hj.2
    · intro s₂ q hj₂ hq ha
      let patch := PaymentPatch.completed verified.providerPaymentId now
      let t₂ := (t₁.wrote (.markPayment id patch)).saw s₂
      have hw₂ : t₂.writes = t.writes ++ [.markPayment id patch] := by simp [t₂, hw]
      have htable : ∀ w ∈ t₂.writes, w.table = .payments := by
        intro w h
        rw [hw₂] at h
        rcases List.mem_append.1 h with h | h
        · exact B.writes w h
        · rw [List.mem_singleton.1 h]
          rfl
      have hheld : t.held ⊆ t₂.held := fun k hk => List.mem_append_right _ (hh hk)
      refine (safe_settleTold (S₁.and _) htable now (patch.set q)).map ?_
      rintro t' s' _ ⟨-, hq'⟩ ⟨r, v, hr, hv, hrely, htold⟩
      rw [view_of_writes_eq hw] at hq'
      refine .inr ⟨q, hq', ha, r, v, hr, ⟨hv.1.1, ?_⟩, D.mono hheld hrely, ?_⟩
      · have := hv.2
        rwa [view_of_writes_eq hw] at this
      · have hqv := hv.2
        rw [view_of_writes_eq hw] at hqv
        have hmark : Table.Replaced (t.view v).payments (t₂.view v).payments id q (patch.set q) := by
          rw [view_of_writes hw₂]
          exact .updateWhere ((S.wf hv.1.1).view t).paymentIds patch.id_set hqv ha
        have hsum : (t₂.view v).paidSum q.invoiceId = (t.view v).paidSum q.invoiceId + q.amount :=
          paidSum_completed ha hmark
        rw [← hsum]
        exact htold
    · intro s₂ q hj₂ hq ha
      have hnone : Prog.OnlyWrites Write.Mute (Prog.bind (PaymentRepository.findById id)
          fun after => require after (.paymentNotFound id)) := fun _ => onlyWrites_require
      exact (safe_faithful S₁ hj₂ hnone hfaithful).mono fun _ _ _ _ h => .inl h

/-- The reports that settle a payment: every one that is not a failure, a progress note of the webhook
apart. -/
def Settling (entry : Entry) (status : ProviderStatus) : Prop :=
  status ≠ .failed ∧ (status = .processing → entry ≠ .processWebhook)

instance (entry : Entry) (status : ProviderStatus) : Decidable (Settling entry status) :=
  inferInstanceAs (Decidable (_ ∧ _))

instance (outcome : PaymentService.ProviderOutcome) : Decidable (∃ txn, outcome = .completed txn) := by
  cases outcome with
  | completed txn => exact .isTrue ⟨txn, rfl⟩
  | _ => exact .isFalse fun ⟨_, h⟩ => nomatch h

theorem safe_deliverTold (S : Setting D J X) (hj : J s) (now : Int) (id : Nat) (verified : VerifyWebhookResult)
    (entry : Entry) : Prog.Safe D J X (fun t s _ => Faithful t.writes ∨ Settling entry verified.status ∧ ∃ q,
        s.payment? id = some q ∧ q.status.inFlight = true ∧ ToldOf D J (fun v => v) q [] t.writes s)
      (deliver now id verified entry) .start s := by
  have completed : Settling entry verified.status → Prog.Safe D J X
      (fun t s _ => Faithful t.writes ∨ Settling entry verified.status ∧ ∃ q, s.payment? id = some q ∧
        q.status.inFlight = true ∧ ToldOf D J (fun v => v) q [] t.writes s)
      (PaymentService.applyCompletedPayment now id verified) .start s := by
    intro hs
    refine (safe_applyCompletedTold S now id verified (.of_start J id rfl)).mono ?_
    rintro t' s' _ _ (h | ⟨q, hq, hin, r, v, hr, hv, hrely, htold⟩)
    · exact .inl h
    · exact .inr ⟨hs, q, hq, hin, r, v, hr, hv.1, hrely, htold⟩
  have failed : Prog.Safe D J X
      (fun t s _ => Faithful t.writes ∨ Settling entry verified.status ∧ ∃ q, s.payment? id = some q ∧
        q.status.inFlight = true ∧ ToldOf D J (fun v => v) q [] t.writes s)
      (PaymentService.applyFailedPayment id verified) .start s :=
    (safe_faithful S hj (mute_applyFailedPayment id verified) faithful_start).mono fun _ _ _ _ h => .inl h
  have poller : entry ≠ .processWebhook → Prog.Safe D J X
      (fun t s _ => Faithful t.writes ∨ Settling entry verified.status ∧ ∃ q, s.payment? id = some q ∧
        q.status.inFlight = true ∧ ToldOf D J (fun v => v) q [] t.writes s)
      (PaymentService.settleFromKaspiPoller now id verified) .start s := by
    intro he
    unfold PaymentService.settleFromKaspiPoller
    split
    · exact failed
    · next hf => exact completed ⟨hf, fun _ => he⟩
  cases entry with
  | processWebhook =>
    show Prog.Safe D J X _ (PaymentService.processWebhook now id verified) _ _
    unfold PaymentService.processWebhook
    split
    · exact failed
    · next hf =>
      split
      · exact (safe_faithful S hj (onlyWrites_applyProviderObservation trivial) faithful_start).mono fun _ _ _ _ h => .inl h
      · next hp => exact completed ⟨hf, fun h => absurd h hp⟩
  | settleFromKaspiPoller => exact poller (by decide)
  | settleFromBccReconciliation => exact poller (by decide)

theorem paidSum_fresh {t₁ : Tx Store Key Write} {p : Payment} {v : Store} (hv : v.WF)
    (hrec : Tx.Extends Recall .start t₁) (hp : p.status = .initiated) (hf : Fresh t₁ p v) (id : Nat) :
    ((t₁.wrote (.insertPayment p)).view v).paidSum id = v.paidSum id := by
  have hrows : Table.Rewrites Payment.Recalled v.payments (t₁.view v).payments := by
    obtain ⟨ws, he, hw⟩ := hrec.writes
    rw [view_of_writes he]
    exact recalled_foldl hw v
  have hadd : ((t₁.wrote (.insertPayment p)).view v).sumPayments (fun q => q.invoiceId == id)
      (fun st => st == .completed) = (t₁.view v).sumPayments (fun q => q.invoiceId == id)
      (fun st => st == .completed) + Payment.share (fun q => q.invoiceId == id) (fun st => st == .completed) p :=
    hf.added.total _
  rw [paidSum_eq, paidSum_eq, hadd, (counting_paidSum id).sum_quiet hv (hv.view t₁) hrows,
    (counting_paidSum id).share_inFlight (by rw [hp]; rfl), Int.add_zero]

theorem safe_initiateTold (S : Setting D J X) (now : Int) (input : PaymentService.InitiatePaymentInput)
    (outcome : PaymentService.ProviderOutcome) :
    Prog.Safe D J X (fun t s _ => Faithful t.writes ∨ (∃ txn, outcome = .completed txn) ∧ ∃ p,
        .insertPayment p ∈ t.writes ∧ p.idempotencyKey = input.idempotencyKey ∧ p.invoiceId = input.invoiceId ∧
        p.amount = MoneyKzt.fromKzt input.amount ∧ ToldOf D J (fun v => v) p [] t.writes s)
      (PaymentService.initiate now input outcome) .start s := by
  have hrecall : ∀ {t₁ : Tx Store Key Write}, Tx.Extends Recall .start t₁ → ∀ w ∈ t₁.writes, Recall w := by
    intro t₁ he w hmem
    obtain ⟨ws, hw, hr⟩ := he.writes
    rw [hw] at hmem
    exact hr w (by simpa [Tx.start] using hmem)
  refine safe_initiating S now input outcome (fun t' s' _ he _ => ?_) ?_
  · refine .inl (faithful_of_mute fun w hmem => ?_)
    obtain ⟨i, rfl⟩ := hrecall he w hmem
    trivial
  rintro invoice t₁ s₁ p ⟨v, hv, hpayable⟩ hrec ⟨id, hnew⟩ hj₁ hthere hf
  have hst : p.status = .initiated := by
    rw [hnew]
    rfl
  have S₁ := (S.and (StillThere invoice)).and (Fresh t₁ p)
  have hj : (J s₁ ∧ StillThere invoice s₁) ∧ Fresh t₁ p s₁ := ⟨⟨hj₁, hthere⟩, hf⟩
  have B : Base (fun s => (J s ∧ StillThere invoice s) ∧ Fresh t₁ p s) (t₁.wrote (.insertPayment p)) p.id :=
    Fresh.base hrec
  have hrow : ∀ s, Fresh t₁ p s → ((t₁.wrote (.insertPayment p)).view s).payment? p.id = some p :=
    fun s h => (h.added.after p.id).trans (if_pos rfl)
  by_cases hout : ∃ txn, outcome = .completed txn
  · obtain ⟨txn, rfl⟩ := hout
    have hcompleted := (safe_applyCompletedTold S₁ now p.id ⟨txn, .completed, none⟩ B (s := s₁)).and
      (Prog.Safe.of_onlyWrites (Prog.OnlyWrites.any _) S₁.throws hj)
    refine hcompleted.mono ?_
    rintro t' s' _ hj' ⟨h | ⟨q, hq, hin, r, v, hr, hv, hrely, htold⟩, he, -⟩
    · exact .inl h
    · obtain rfl := Option.some.inj ((hrow s' hj'.2).symm.trans hq)
      refine .inr ⟨⟨txn, rfl⟩, p, ?_, ?_, ?_, ?_, r, v, hr, hv.1.1.1, D.mono (List.nil_subset _) hrely, ?_⟩
      · obtain ⟨ws, hw, -⟩ := he.writes
        rw [hw]
        exact List.mem_append_left _ (List.mem_append_right _ List.mem_cons_self)
      · rw [hnew]
        rfl
      · rw [hnew]
        exact hpayable.id
      · rw [hnew]
        rfl
      · have hsum := paidSum_fresh (S.wf hv.1.1.1) hrec hst hv.1.2 p.invoiceId
        show Told (r.overTold (v.paidSum p.invoiceId + p.amount)) t'.writes
        rw [← hsum]
        exact htold
  · have hrest : Prog.OnlyWrites Write.Mute (PaymentService.afterProviderCall now input p outcome) := by
      refine (onlyWrites_afterProviderCall fun txn h => hout ⟨txn, h⟩).mono ?_
      rintro w (rfl | ⟨txn, rfl⟩ | ⟨nextAt, rfl⟩) <;> trivial
    refine (safe_faithful S₁ hj hrest (faithful_of_mute fun w hmem => .of_table ?_)).mono fun _ _ _ _ h => .inl h
    rw [B.writes w hmem]
    decide

/-! ## Receipts in cash -/

theorem faithful_of_receipt {id childId : Nat} {amount paidAt : Int} (h : ∀ w ∈ ws, w.Mute) :
    Faithful ([.markInvoice id .paid] ++ ws ++ [.notify (.invoicePaid id childId amount paidAt)]) where
  tame w hw := by
    rcases List.mem_append.1 hw with hw | hw
    · rcases List.mem_append.1 hw with hw | hw
      · obtain rfl := List.mem_singleton.1 hw
        trivial
      · exact (h w hw).tame
    · obtain rfl := List.mem_singleton.1 hw
      trivial
  count i := by
    simp only [List.countP_append, counts_of_mute h i]
    simp [Write.saysPaid, Write.marksPaid, Notification.saysPaid]

theorem safe_recordFullTold (S : Setting D J X) (ht : t.writes = []) (now : Int) (invoiceId : Nat) (residual : Int)
    (input : InvoiceService.ManualMarkPaidInput) : Prog.Safe D J X (fun t' _ _ => Faithful t'.writes)
      (InvoiceService.recordFullCashPayment now invoiceId residual input) t s := by
  unfold InvoiceService.recordFullCashPayment
  refine safe_returning ?_ ?_
  · intro s₁ _ hj₁ hhit
    refine Prog.Safe.query fun s₂ _ hj₂ => ?_
    cases hrow : ((t.wrote (.markInvoice invoiceId .paid)).view s₂).invoice? invoiceId with
    | none => exact fun s₃ _ _ => S.throws _
    | some updated =>
      have hid : updated.id = invoiceId := Table.id_of_find hrow
      have hook : Prog.OnlyWrites Write.Mute (InvoiceService.cancelIfPrepayment updated) := by
        unfold InvoiceService.cancelIfPrepayment
        split
        · exact mute_cancelCoveredMonthlies updated
        · trivial
      have receipt : Prog.OnlyWrites Write.Mute (InvoiceService.recordResidual now input updated residual) := by
        unfold InvoiceService.recordResidual
        split <;> exact mute_recordCash _ _ _ _ _
      refine Prog.Safe.bind_frame hook S.throws hj₂ fun _ t₃ s₃ he₃ _ hj₃ => ?_
      refine Prog.Safe.bind_frame receipt S.throws hj₃ fun _ t₄ s₄ he₄ _ hj₄ => ?_
      obtain ⟨ws, hw, hmute⟩ := (he₃.trans he₄).writes
      refine fun s₅ _ _ => ⟨fun _ => fun s₆ _ _ => ?_, fun hmiss => nomatch hmiss⟩
      show Faithful (t₄.writes ++ [.notify (.invoicePaid updated.id _ _ _)])
      have hmark : t₄.writes = [.markInvoice updated.id .paid] ++ ws := by
        rw [hw, hid]
        show (t.writes ++ _) ++ ws = _
        rw [ht]
        rfl
      rw [hmark]
      exact faithful_of_receipt hmute
  · intro s₁ _ _ _ s₂ _ _
    exact S.throws _

theorem safe_manualMarkPaidTold (S : Setting D J X) (now : Int) (invoiceId : Nat)
    (input : InvoiceService.ManualMarkPaidInput) : Prog.Safe D J X (fun t' _ _ => Faithful t'.writes)
      (InvoiceService.manualMarkPaid now invoiceId input) .start s := by
  unfold InvoiceService.manualMarkPaid
  refine Prog.Safe.query fun s₁ _ hj₁ => safe_require S.throws fun invoice hi => ?_
  refine safe_lockPrepaymentOf hj₁ fun t₁ s₂ hw _ _ _ _ hj₂ => ?_
  refine Prog.Safe.query fun v _ hv => ?_
  have hempty : (t₁.saw v).writes = [] := hw
  unfold InvoiceService.receiveCash
  cases input.amount with
  | none => exact safe_recordFullTold S hempty now invoice.id _ input
  | some amount =>
    unfold InvoiceService.checkCashAmount
    simp only [Prog.bind_eq, Prog.bind_assoc]
    refine safe_guardOr S.throws fun _ => safe_guardOr S.throws fun _ => safe_guardOr S.throws fun _ => ?_
    split
    · exact safe_recordFullTold S hempty now invoice.id _ input
    · refine safe_faithful S hv (mute_recordPartialCashPayment _ _ _ _) (faithful_of_mute fun w hmem => ?_)
      rw [hempty] at hmem
      cases hmem

end

end Billing
