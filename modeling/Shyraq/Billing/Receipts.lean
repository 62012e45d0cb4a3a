import Shyraq.Billing.Settling

/-!
# What the cash desk does

A cash receipt flips its invoice, writes a completed payment and credits what was
residual when it was read.  `cancel` and the overdue run flip invoices and nothing else.
-/

namespace Billing

open Kernel Transactions

variable {D : Discipline Store Key Write} {J : Store → Prop} {X : BillingError → Prop}
  {t : Tx Store Key Write} {s : Store}

/-! ## A credit that may be left out -/

/-- An account gains this much, or nothing happens to any. -/
def Credited (l l' : List PaymentAccount) (id : Nat) : Option Int → Prop
  | some amount => 0 < amount ∧ BalanceMoved l l' id amount
  | none => l' = l

/-- The transaction after an optional credit. -/
def Entered (t t' : Tx Store Key Write) (s : Store) (accountId : Nat) : Option Int → Prop
  | some amount => 0 < amount ∧ ∃ a, LedgerEntry t t' s accountId amount a
  | none => t' = t

variable {t' : Tx Store Key Write} {f : InvoiceFlip} {credit : Option Int}

theorem keep_entered {s' : Store} {accountId : Nat} (hm : Moves t'.held s s') (h : Entered t t' s accountId credit) :
    Entered t t' s' accountId credit := by
  cases credit with
  | none => exact h
  | some amount =>
    obtain ⟨hpos, a, ha⟩ := h
    exact ⟨hpos, a, { ha with account := keep_account ha.balance hm ha.account }⟩

theorem safe_creditReceipt (S : Setting D J X) (hacc : ∀ s, (t.view s).accounts = s.accounts)
    (accountId : Nat) (credit : Option Int) : Prog.Safe D J X (fun t' s' _ => Entered t t' s' accountId credit)
      (InvoiceService.creditReceipt accountId credit) t s := by
  cases credit with
  | none => exact fun _ _ _ => rfl
  | some amount => exact safe_creditFromPayment S hacc accountId amount

theorem Entered.extends {accountId : Nat} (h : Entered t t' s accountId credit) :
    Tx.Extends (fun w => w.table = .accounts) t t' := by
  cases credit with
  | none =>
    rw [show t' = t from h]
    exact .refl t
  | some amount =>
    obtain ⟨-, a, ha⟩ := h
    refine ⟨⟨_, ha.writes, ?_⟩, ha.held, ha.seen⟩
    intro w hw
    rw [List.mem_singleton.1 hw]
    rfl

theorem Entered.credited {accountId : Nat} (h : Entered t t' s accountId credit) (hs : s.WF)
    (hacc : (t.view s).accounts = s.accounts) : Credited s.accounts (t'.view s).accounts accountId credit := by
  cases credit with
  | none =>
    rw [show t' = t from h]
    exact hacc
  | some amount =>
    obtain ⟨hpos, a, ha⟩ := h
    exact ⟨hpos, ha.balanceMoved hs hacc⟩

/-! ## The receipt -/

/-- The receipt, its credit and its event, on top of a transaction that has touched only
invoices. -/
structure Recorded (t t' : Tx Store Key Write) (s : Store) (accountId : Nat) (p : Payment)
    (credit : Option Int) : Prop where
  held : t.held ⊆ t'.held
  seen : t.seen <+: t'.seen
  positive : 0 < p.amount
  payments : Table.Added s.payments (t'.view s).payments p
  accounts : Credited s.accounts (t'.view s).accounts accountId credit
  invoices : (t'.view s).invoices = (t.view s).invoices
  refunds : (t'.view s).refunds = (t.view s).refunds

/-- What a receipt may have written before its payment row. -/
structure Before (t : Tx Store Key Write) : Prop where
  writes : ∀ w ∈ t.writes, w.table ≠ .payments ∧ w.table ≠ .accounts ∧ ∀ i, w ≠ .insertInvoice i

namespace Before

variable {t : Tx Store Key Write}

theorem accounts (h : Before t) (s : Store) : (t.view s).accounts = s.accounts :=
  accounts_of_start (fun w hw => (h.writes w hw).2.1) s

theorem payments (h : Before t) (s : Store) : (t.view s).payments = s.payments :=
  payments_of_start (fun w hw => (h.writes w hw).1) s

theorem admits (h : Before t) (s : Store) (p : Payment) : (t.view s).admitsPayment p = s.admitsPayment p := by
  refine admits_of_rewrites (h.payments s) ?_ p
  exact rewrites_invoices (fun w hw => (h.writes w hw).2.2) s

theorem of_extends {P : Write → Prop} (h : Before t) (he : Tx.Extends P t t')
    (hP : ∀ w, P w → w.table ≠ .payments ∧ w.table ≠ .accounts ∧ ∀ i, w ≠ .insertInvoice i) : Before t' where
  writes := by
    obtain ⟨ws, hw, hws⟩ := he.writes
    intro w hmem
    rw [hw] at hmem
    rcases List.mem_append.1 hmem with hmem | hmem
    · exact h.writes w hmem
    · exact hP w (hws w hmem)

end Before

theorem safe_recordCash {A : Type} {f : Unit → Sql A} (S : Setting D J X) (B : Before t)
    (hf : Prog.OnlyWrites Notice (f ())) (now : Int) (input : InvoiceService.ManualMarkPaidInput)
    (invoice : Invoice) (amount : Int) (credit : Option Int) : Prog.Safe D J X
      (fun t' s' _ => ∃ id, Recorded t t' s' invoice.paymentAccountId
        (InvoiceService.cashPayment id now input invoice amount) credit)
      (Prog.bind (InvoiceService.recordCash now input invoice amount credit) f) t s := by
  unfold InvoiceService.recordCash
  simp only [Prog.bind_eq, Prog.bind_assoc]
  refine Prog.Safe.uuid fun s₁ id _ _ _ _ => ?_
  let t₁ := t.locked (Relational.rowKey Store id)
  let p := InvoiceService.cashPayment id now input invoice amount
  let t₂ := t₁.wrote (.insertPayment p)
  refine safe_insertOr S.throws fun s₂ _ hj₂ hh => ?_
  have hin : s₂.admitsPayment p = true := by
    have hit : ((t₁.view s₂).admitsPayment p && (t₁.view s₂).hasChild p.childId) = true := hh
    rw [Bool.and_eq_true] at hit
    rw [← B.admits]
    exact hit.1
  have hrow : Key.row p.id ∈ t₂.held := List.mem_append_left _ (by simp [Relational.keys, Store.keys])
  have hkey : Key.idempotency p.idempotencyKey ∈ t₂.held :=
    List.mem_append_left _ (by simp [Relational.keys, Store.keys])
  refine Prog.Safe.keep (fun s => s.admitsPayment p = true) t₂.held (List.Subset.refl _)
    (fun _ _ hr _ _ h => keep_admitsPayment hrow hkey (S.moves hr) h) hj₂ hin ?_
  have S₂ := S.and fun s => s.admitsPayment p = true
  have hacc : ∀ s, (t₂.view s).accounts = s.accounts := by
    intro s
    rw [Tx.view_wrote]
    exact B.accounts s
  refine Prog.Safe.bind ⟨hj₂, hin⟩ ((safe_creditReceipt S₂ hacc invoice.paymentAccountId
    credit).mono fun t₃ s₃ _ hj₃ hent => ?_)
  refine Prog.Safe.keep (fun s => Entered t₂ t₃ s invoice.paymentAccountId credit) t₃.held
    (List.Subset.refl _) (fun _ _ hr _ _ h => keep_entered (S.moves hr) h) hj₃ hent ?_
  have hlast : Prog.OnlyWrites Notice (Prog.bind (notify (.paymentCompleted p.id invoice.childId
      invoice.id p.amount .cash (input.paidAt.getD now))) f) :=
    (onlyWrites_notify ⟨_, rfl⟩).bind fun _ => hf
  refine (Prog.Safe.of_onlyWrites hlast S.throws ⟨hj₃, hent⟩).mono ?_
  rintro t' s' _ ⟨⟨hj', hin'⟩, hent'⟩ ⟨hext, -⟩
  have hent₃ := hent'.extends
  refine ⟨id, ?_⟩
  exact
    { held := fun k hk => hext.held (hent₃.held (List.mem_append_right _ (List.mem_cons_of_mem _ hk)))
      seen := hent₃.seen.trans hext.seen
      positive := pos_of_admits hin'
      payments := by
        rw [payments_of_extends hext fun w h => h.table_ne (by decide),
          payments_of_extends hent₃ fun w h => by rw [h]; decide, Tx.view_wrote, ← B.payments s']
        refine added_of_admits ?_
        show (t.view s').admitsPayment p = true
        rw [B.admits]
        exact hin'
      accounts := by
        rw [accounts_of_extends hext fun w h => h.table_ne (by decide)]
        exact hent'.credited (S.wf hj') (hacc s')
      invoices := by
        rw [invoices_of_extends hext fun w h => h.table_ne (by decide),
          invoices_of_extends hent₃ fun w h => by rw [h]; decide, Tx.view_wrote]
        rfl
      refunds := by
        rw [refunds_of_extends hext fun w h => h.table_ne (by decide),
          refunds_of_extends hent₃ fun w h => by rw [h]; decide, Tx.view_wrote]
        rfl }

/-! ## Full and partial receipts -/

/-- The flip, the amount of the receipt and its credit, by what was residual when the paid sum
was read. -/
inductive ReceiptOf (invoice : Invoice) (paidSum : Int) : Option InvoiceFlip → Int → Option Int → Prop
  | full (h : paidSum < invoice.amountAfterDiscount) :
      ReceiptOf invoice paidSum (some .paid) (invoice.amountAfterDiscount - paidSum)
        (some (invoice.amountAfterDiscount - paidSum))
  /-- The whole amount was already in: a receipt over it, and no credit. -/
  | over (h : invoice.amountAfterDiscount ≤ paidSum) :
      ReceiptOf invoice paidSum (some .paid) invoice.amountAfterDiscount none
  | part (flip : Option InvoiceFlip) (amount : Int) (hf : flip = none ∨ flip = some .partial_)
      (h : paidSum + amount < invoice.amountAfterDiscount) :
      ReceiptOf invoice paidSum flip amount (some amount)

/-- What a cash receipt on `invoice` has made of the store, from `t` to `t'`. -/
structure Received (invoice : Invoice) (paidSum : Int) (flip : Option InvoiceFlip) (p : Payment)
    (credit : Option Int) (t t' : Tx Store Key Write) (s : Store) : Prop where
  held : t.held ⊆ t'.held
  seen : t.seen <+: t'.seen
  kind : ReceiptOf invoice paidSum flip p.amount credit
  row : Flipped t'.held invoice paidSum flip s
  invoiceId : p.invoiceId = invoice.id
  childId : p.childId = invoice.childId
  status : p.status = .completed
  provider : p.provider = .cash
  positive : 0 < p.amount
  payments : Table.Added s.payments (t'.view s).payments p
  accounts : Credited s.accounts (t'.view s).accounts invoice.paymentAccountId credit
  invoices : ∃ l, Flips s.invoices l invoice.id flip ∧
    Table.Rewrites Invoice.Voided l (t'.view s).invoices
  refunds : (t'.view s).refunds = s.refunds

theorem Received.of_parts {invoice updated : Invoice} {paidSum : Int} {flip : Option InvoiceFlip}
    {amount : Int} {t₁ t₂ : Tx Store Key Write}
    {ids : List Nat} {id : Nat} {now : Int} {input : InvoiceService.ManualMarkPaidInput}
    (hs : s.WF) (ht : t.writes = []) (hfw : t₁.writes = t.writes ++ flipWrites invoice.id flip)
    (hheld : t.held ⊆ t₁.held) (hseen : t.seen <+: t₁.seen) (hrow : Flipped t₁.held invoice paidSum flip s)
    (hvoid : Tx.Extends (Voiding ids) t₁ t₂) (hm : Monthlies ids s) (hup : Invoice.Step invoice updated)
    (hkind : ReceiptOf invoice paidSum flip amount credit) (hrec : Recorded t₂ t' s updated.paymentAccountId
      (InvoiceService.cashPayment id now input updated amount) credit) :
    Received invoice paidSum flip (InvoiceService.cashPayment id now input updated amount) credit t t' s := by
  have hv : t.view s = s := view_of_writes_eq (t := Tx.start) ht s
  have hacc : updated.paymentAccountId = invoice.paymentAccountId := by rw [hup.1]
  have hnew : ∀ w ∈ t₁.writes, ∀ i, w ≠ .insertInvoice i := by
    intro w hw i
    rw [hfw, ht, List.nil_append] at hw
    obtain ⟨g, rfl⟩ := table_of_flipWrites hw
    simp
  refine
    { held := fun k hk => hrec.held (hvoid.held (hheld hk))
      seen := hseen.trans (hvoid.seen.trans hrec.seen)
      kind := hkind, row := ?_
      invoiceId := ?_, childId := ?_, status := rfl, provider := rfl
      positive := hrec.positive, payments := hrec.payments
      accounts := hacc ▸ hrec.accounts, invoices := ?_, refunds := ?_ }
  · obtain ⟨i, hi, hstep, hk⟩ := hrow
    refine ⟨i, hi, hstep, ?_⟩
    cases flip with
    | none => exact hk
    | some f => exact ⟨hk.1, hrec.held (hvoid.held hk.2)⟩
  · show updated.id = invoice.id
    rw [hup.1]
  · show updated.childId = invoice.childId
    rw [hup.1]
  · refine ⟨(t₁.view s).invoices, ?_, ?_⟩
    · have hinv : (t.view s).invoices = s.invoices := by rw [hv]
      rw [← hinv]
      refine invoices_of_flipWrites hfw (hv.symm ▸ hs) fun g hg => ?_
      obtain ⟨i, hi, -, hk⟩ := hrow
      subst hg
      exact ⟨i, hv.symm ▸ hi, hk.1⟩
    · rw [hrec.invoices]
      exact voided_of_extends hvoid hnew hm
  · rw [hrec.refunds, refunds_of_extends hvoid fun w h => h.table_ne (by decide),
      view_of_writes hfw, hv]
    cases flip <;> rfl

theorem safe_cancelIfPrepaymentReceived (S : Setting D J X)
    (hinv : ∀ w ∈ t.writes, ∀ i, w ≠ .insertInvoice i) (updated : Invoice) :
    Prog.Safe D J X (fun t' s' _ => ∃ ids, Tx.Extends (Voiding ids) t t' ∧ Monthlies ids s')
      (InvoiceService.cancelIfPrepayment updated) t s := by
  unfold InvoiceService.cancelIfPrepayment
  split
  · exact safe_cancelCoveredMonthlies S hinv updated
  · exact fun s' _ _ => ⟨[], .refl t, by simp [Monthlies]⟩

/-- A full receipt was asked for what was residual, a partial one for its amount. -/
def AskedFor (asked : Int) (invoice : Invoice) (paidSum : Int) (flip : Option InvoiceFlip) (p : Payment) :
    Prop :=
  asked = if flip = some .paid then invoice.amountAfterDiscount - paidSum else p.amount

/-- The shape of a receipt's postcondition. -/
def ReceivedPost (asked : Int) (invoice : Invoice) (paidSum : Int) (t t' : Tx Store Key Write)
    (s : Store) : Prop :=
  ∃ flip p credit, Received invoice paidSum flip p credit t t' s ∧ AskedFor asked invoice paidSum flip p

theorem before_of_flip {t₁ : Tx Store Key Write} {id : Nat} {flip : Option InvoiceFlip}
    (ht : t.writes = []) (hfw : t₁.writes = t.writes ++ flipWrites id flip) : Before t₁ where
  writes := by
    intro w hw
    rw [hfw, ht, List.nil_append] at hw
    obtain ⟨g, rfl⟩ := table_of_flipWrites hw
    exact ⟨by simp [Write.table], by simp [Write.table], by simp⟩

theorem Voiding.before {ids : List Nat} (w : Write) (h : Voiding ids w) :
    w.table ≠ .payments ∧ w.table ≠ .accounts ∧ ∀ i, w ≠ .insertInvoice i := by
  refine ⟨h.table_ne (by decide), h.table_ne (by decide), ?_⟩
  rintro i rfl
  rcases h with ⟨n, h⟩ | ⟨j, h⟩ | ⟨j, -, h⟩ <;> cases h

theorem safe_recordFullCashPayment (S : Setting D J X) (ht : t.writes = []) (now : Int)
    (invoice : Invoice) (paidSum : Int) (input : InvoiceService.ManualMarkPaidInput)
    (hrow : ∀ s, J s → StillThere invoice s) : Prog.Safe D J X
      (fun t' s' _ => ReceivedPost (invoice.amountAfterDiscount - paidSum) invoice paidSum t t' s')
      (InvoiceService.recordFullCashPayment now invoice.id
        (invoice.amountAfterDiscount - paidSum) input) t s := by
  have hv : ∀ s, t.view s = s := fun s => view_of_writes_eq (t := Tx.start) ht s
  unfold InvoiceService.recordFullCashPayment
  refine safe_flip paidSum S (fun s => by rw [hv]) hrow ?_ ?_
  · intro s₁ i hj₁ hf₁ hstep ha
    let g : InvoiceFlip := .paid
    let t₁ := (t.wrote (.markInvoice invoice.id g)).saw s₁
    have hfw : t₁.writes = t.writes ++ flipWrites invoice.id (some g) := rfl
    have hheld : t.held ⊆ t₁.held := fun k hk => List.mem_append_right _ hk
    have hseen : t.seen <+: t₁.seen := List.prefix_append _ _
    have hup : Invoice.Step invoice (g.set i) := hstep.trans (InvoiceFlip.step ha)
    have B := before_of_flip ht hfw
    have S₁ := S.and (Flipped t₁.held invoice paidSum (some g))
    refine Prog.Safe.bind ⟨hj₁, hf₁⟩ ((safe_cancelIfPrepaymentReceived S₁
      (fun w hw => (B.writes w hw).2.2) (g.set i)).mono fun t₂ s₂ _ hj₂ h => ?_)
    obtain ⟨ids, hvoid, hm⟩ := h
    refine Prog.Safe.keep (Monthlies ids) [] (by simp)
      (fun _ _ hr _ _ h => keep_monthlies (S.moves hr) h) hj₂ hm ?_
    have S₂ := S₁.and (Monthlies ids)
    have B₂ := B.of_extends hvoid Voiding.before
    have hlast : Prog.OnlyWrites Notice (Prog.bind (notify (.invoicePaid (g.set i).id (g.set i).childId
        (g.set i).amountAfterDiscount (input.paidAt.getD now))) fun _ => Prog.ret (g.set i)) :=
      (onlyWrites_notify ⟨_, rfl⟩).bind fun _ => trivial
    have hamount : (g.set i).amountAfterDiscount = invoice.amountAfterDiscount := by rw [hup.1]
    show Prog.Safe D _ X _ (Prog.bind (InvoiceService.recordResidual now input (g.set i)
      (invoice.amountAfterDiscount - paidSum)) _) t₂ s₂
    unfold InvoiceService.recordResidual
    split
    · next hres =>
      refine (safe_recordCash S₂ B₂ hlast now input (g.set i) _ _).mono ?_
      rintro t' s' _ ⟨⟨hj', hf'⟩, hm'⟩ ⟨id, hrec⟩
      exact ⟨some g, _, _, .of_parts (S.wf hj') ht hfw hheld hseen hf' hvoid hm' hup
        (.full (by omega)) hrec, (if_pos rfl).symm⟩
    · next hres =>
      refine (safe_recordCash S₂ B₂ hlast now input (g.set i) _ _).mono ?_
      rintro t' s' _ ⟨⟨hj', hf'⟩, hm'⟩ ⟨id, hrec⟩
      refine ⟨some g, _, _, .of_parts (S.wf hj') ht hfw hheld hseen hf' hvoid hm' hup ?_ hrec,
        (if_pos rfl).symm⟩
      rw [hamount]
      exact .over (by omega)
  · intro s₁ i _ _ _ _ _ s₂ _ _
    exact S.throws _

theorem safe_recordPart (S : Setting D J X) (ht : t.writes = []) {t₁ : Tx Store Key Write} (now : Int)
    (invoice updated : Invoice) (paidSum amount : Int) (flip : Option InvoiceFlip)
    (input : InvoiceService.ManualMarkPaidInput) (hkind : flip = none ∨ flip = some .partial_)
    (hamount : paidSum + amount < invoice.amountAfterDiscount)
    (hfw : t₁.writes = t.writes ++ flipWrites invoice.id flip) (hheld : t.held ⊆ t₁.held)
    (hseen : t.seen <+: t₁.seen) (hup : Invoice.Step invoice updated)
    (hrow : ∀ s, J s → Flipped t₁.held invoice paidSum flip s) :
    Prog.Safe D J X (fun t' s' _ => ReceivedPost amount invoice paidSum t t' s')
      (Prog.bind (InvoiceService.recordCash now input updated amount (some amount))
        fun _ => Prog.ret updated) t₁ s := by
  have B := before_of_flip ht hfw
  have hlast : Prog.OnlyWrites Notice (Prog.ret updated : Sql Invoice) := trivial
  refine (safe_recordCash (f := fun _ => Prog.ret updated) S B hlast now input updated amount
    (some amount)).mono ?_
  rintro t' s' _ hj' ⟨id, hrec⟩
  have hvoid : Tx.Extends (Voiding []) t₁ t₁ := .refl t₁
  refine ⟨flip, _, _, .of_parts (S.wf hj') ht hfw hheld hseen (hrow s' hj') hvoid (by simp [Monthlies])
    hup (.part flip amount hkind hamount) hrec, (if_neg ?_).symm⟩
  rcases hkind with rfl | rfl <;> simp

theorem safe_recordPartialCashPayment (S : Setting D J X) (ht : t.writes = []) (now : Int)
    (invoice : Invoice) (paidSum amount : Int) (input : InvoiceService.ManualMarkPaidInput)
    (hpos : 0 < amount) (hamount : paidSum + amount < invoice.amountAfterDiscount)
    (hrow : ∀ s, J s → StillThere invoice s) :
    Prog.Safe D J X (fun t' s' _ => ReceivedPost amount invoice paidSum t t' s')
      (InvoiceService.recordPartialCashPayment now invoice amount input) t s := by
  have hv : ∀ s, t.view s = s := fun s => view_of_writes_eq (t := Tx.start) ht s
  -- without a flip, nothing is asked of the row
  have hstill : ∀ held s, J s → Flipped held invoice paidSum none s := by
    intro held s hj
    obtain ⟨i, hi, hs⟩ := hrow s hj
    refine ⟨i, hi, hs, fun hle => ?_⟩
    omega
  unfold InvoiceService.recordPartialCashPayment InvoiceService.flipPartial
  split
  · exact safe_recordPart S ht now invoice invoice paidSum amount none input (.inl rfl) hamount
      (by simp [flipWrites]) (List.Subset.refl _) List.prefix_rfl (.refl invoice) (hstill _)
  · simp only [Prog.bind_eq, Prog.bind_assoc]
    refine safe_flip paidSum S (fun s => by rw [hv]) hrow ?_ ?_
    · intro s₁ i hj₁ hf₁ hstep ha
      exact safe_recordPart (S.and _) ht now invoice _ paidSum amount (some .partial_) input
        (.inr rfl) hamount rfl (fun k hk => List.mem_append_right _ hk) (List.prefix_append _ _)
        (hstep.trans (InvoiceFlip.step ha)) fun s h => h.2
    · intro s₁ i _ hj₁ hi hs _ s₂ _ hj₂
      show Prog.Safe D J X _ (Prog.bind (Prog.bind (require ((t.view s₂).invoice? invoice.id) _) _) _)
        _ _
      simp only [Prog.bind_assoc]
      refine safe_require S.throws fun reread hr => ?_
      refine safe_guardOr S.throws fun _ => ?_
      have hread : Invoice.Step invoice reread := by
        obtain ⟨i₂, hi₂, hs₂⟩ := hrow s₂ hj₂
        rw [hv] at hr
        rwa [Option.some.inj (hr.symm.trans hi₂)]
      exact safe_recordPart S ht now invoice reread paidSum amount none input (.inl rfl) hamount
        (by simp [flipWrites]) (List.Subset.refl _) (by simp) hread (hstill _)

/-- What the desk asks for: an amount, or all that is residual. -/
def InvoiceService.ManualMarkPaidInput.asked (input : InvoiceService.ManualMarkPaidInput)
    (residual : Int) : Int := (input.amount.map MoneyKzt.fromKzt).getD residual

theorem safe_receiveCash (S : Setting D J X) (ht : t.writes = []) (now : Int) (invoice : Invoice)
    (paidSum : Int) (input : InvoiceService.ManualMarkPaidInput) (hrow : ∀ s, J s → StillThere invoice s) :
    Prog.Safe D J X
      (fun t' s' _ =>
        ReceivedPost (input.asked (invoice.amountAfterDiscount - paidSum)) invoice paidSum t t' s')
      (InvoiceService.receiveCash now invoice paidSum input) t s := by
  have full := safe_recordFullCashPayment S ht now invoice paidSum input hrow (s := s)
  unfold InvoiceService.receiveCash InvoiceService.ManualMarkPaidInput.asked
  cases hin : input.amount with
  | none => exact full
  | some d =>
    unfold InvoiceService.checkCashAmount
    simp only [Prog.bind_eq, Prog.bind_assoc]
    refine safe_guardOr S.throws fun _ => safe_guardOr S.throws fun hle => ?_
    refine safe_guardOr S.throws fun _ => ?_
    simp only [MoneyKzt.isPositive, Bool.and_eq_true, decide_eq_true_eq] at hle
    simp only [Option.map_some, Option.getD_some]
    split
    · next he =>
      rw [he]
      exact full
    · next hne =>
      exact safe_recordPartialCashPayment S ht now invoice paidSum _ input hle.1 (by omega) hrow

/-- A committed cash receipt. -/
structure CashReceipt (D : Discipline Store Key Write) (requested : Nat)
    (input : InvoiceService.ManualMarkPaidInput) (invoice : Invoice) (paidSum : Int) (flip : Option InvoiceFlip) (p : Payment) (credit : Option Int)
    (t : Tx Store Key Write) (s : Store) : Prop
    extends Received invoice paidSum flip p credit .start t s where
  id : invoice.id = requested
  asked : AskedFor (input.asked (invoice.amountAfterDiscount - paidSum)) invoice paidSum flip p
  stillThere : StillThere invoice s
  lock : invoice.invoiceType.isPrepayment = true → Key.prepayment invoice.childId ∈ t.held
  read : ∃ v v₁, v.WF ∧ D.rely [] v s ∧ paidSum = v.paidSum invoice.id ∧
    v₁.invoice? requested = some invoice ∧ [v₁, v] <+: t.seen

theorem safe_manualMarkPaid (S : Setting D J X) (now : Int) (invoiceId : Nat)
    (input : InvoiceService.ManualMarkPaidInput) : Prog.Safe D J X
      (fun t s _ => ∃ invoice paidSum flip p credit,
        CashReceipt D invoiceId input invoice paidSum flip p credit t s)
      (InvoiceService.manualMarkPaid now invoiceId input) .start s := by
  unfold InvoiceService.manualMarkPaid
  refine Prog.Safe.query fun s₁ _ hj₁ => safe_require S.throws fun invoice hi => ?_
  have hid : invoice.id = invoiceId := Table.id_of_find hi
  have hthere : StillThere invoice s₁ := ⟨invoice, by rw [hid]; exact hi, .refl _⟩
  refine Prog.Safe.keep (StillThere invoice) [] (by simp)
    (fun _ _ hr _ _ h => keep_stillThere (S.moves hr) h) hj₁ hthere ?_
  have S₁ := S.and (StillThere invoice)
  refine safe_lockPrepaymentOf ⟨hj₁, hthere⟩ fun t₁ s₂ hw hh hs hl _ hj₂ => ?_
  -- the committed state in which the sum is read
  refine Prog.Safe.query fun v _ hv => ?_
  have hview : t₁.view v = v := view_of_writes_eq (t := Tx.start) hw v
  refine Prog.Safe.keep (D.rely [] v) [] (by simp) (fun _ _ hr _ _ h => D.trans h hr) hv
    (D.refl _ _) ?_
  have S₂ := S₁.and (D.rely [] v)
  refine (safe_receiveCash S₂ (t := t₁.saw v) hw now invoice _ input fun s h => h.1.2).mono ?_
  rintro t' s' _ ⟨⟨hj', hthere'⟩, hrely⟩ ⟨flip, p, credit, hrec, hasked⟩
  refine ⟨invoice, (t₁.view v).paidSum invoiceId, flip, p, credit, ?_⟩
  exact
    { hrec with
      held := fun k hk => absurd hk List.not_mem_nil
      seen := List.nil_prefix
      id := hid
      asked := hasked
      stillThere := hthere'
      lock := fun hp => hrec.held (hl hp)
      read := ⟨v, s₁, S.wf hv.1, hrely, by rw [hview, hid], hi, by
        have := hrec.seen
        rw [Tx.seen_saw, hs, hview] at this
        exact this⟩ }

/-! ## Flips on their own -/

/-- A row that this flip may have changed. -/
def Invoice.FlippedBy (f : InvoiceFlip) (i i' : Invoice) : Prop :=
  i' = i ∨ f.accepts i = true ∧ i' = f.set i

theorem InvoiceFlip.accepts_set (f : InvoiceFlip) (i : Invoice) : f.accepts (f.set i) = false := by
  cases f <;> rfl

theorem Invoice.FlippedBy.refl (f : InvoiceFlip) (i : Invoice) : Invoice.FlippedBy f i i := .inl rfl

theorem Invoice.FlippedBy.trans {a b c : Invoice} (h₁ : Invoice.FlippedBy f a b)
    (h₂ : Invoice.FlippedBy f b c) : Invoice.FlippedBy f a c := by
  rcases h₁ with rfl | ⟨ha, rfl⟩
  · exact h₂
  · rcases h₂ with rfl | ⟨hb, -⟩
    · exact .inr ⟨ha, rfl⟩
    · cases (f.accepts_set a).symm.trans hb

theorem Invoice.FlippedBy.step {i i' : Invoice} (h : Invoice.FlippedBy f i i') : Invoice.Step i i' := by
  rcases h with rfl | ⟨ha, rfl⟩
  · exact .refl _
  · exact InvoiceFlip.step ha

/-- Statements that flip invoices this one way; events and released slots besides. -/
def Flipping (f : InvoiceFlip) (w : Write) : Prop :=
  Notice w ∨ (∃ i, w = .releaseUsage i) ∨ ∃ i, w = .markInvoice i f

theorem Flipping.table_ne {w : Write} (h : Flipping f w) {T : TableName}
    (hT : T ≠ .outbox ∧ T ≠ .customDiscounts ∧ T ≠ .invoices) : w.table ≠ T := by
  rcases h with h | ⟨i, rfl⟩ | ⟨i, rfl⟩
  · exact h.table_ne hT.1
  · exact hT.2.1.symm
  · exact hT.2.2.symm

theorem flipping_foldl {ws : List Write} (hw : ∀ w ∈ ws, Flipping f w) (v : Store) :
    Table.Rewrites (Invoice.FlippedBy f) v.invoices (ws.foldl Store.apply v).invoices := by
  induction ws generalizing v with
  | nil => exact .refl (Invoice.FlippedBy.refl f) _
  | cons w ws ih =>
    have hrest := ih (fun w' hw' => hw w' (List.mem_cons_of_mem w hw')) (v.apply w)
    refine Table.Rewrites.trans (fun _ _ _ h h' => h.trans h') ?_ hrest
    rcases hw w List.mem_cons_self with ⟨n, rfl⟩ | ⟨i, rfl⟩ | ⟨i, rfl⟩
    · exact .refl (Invoice.FlippedBy.refl f) _
    · exact .refl (Invoice.FlippedBy.refl f) _
    · exact .updateWhere (Invoice.FlippedBy.refl f) (fun _ => rfl) fun r _ hp => .inr ⟨hp, rfl⟩

/-- Some invoices flip this way, and no money moves. -/
structure Reflagged (f : InvoiceFlip) (t : Tx Store Key Write) (s : Store) : Prop where
  invoices : Table.Rewrites (Invoice.FlippedBy f) s.invoices (t.view s).invoices
  accounts : (t.view s).accounts = s.accounts
  payments : (t.view s).payments = s.payments
  refunds : (t.view s).refunds = s.refunds

theorem reflagged_of_extends (h : Tx.Extends (Flipping f) .start t) (s : Store) : Reflagged f t s where
  invoices := by
    obtain ⟨ws, he, hw⟩ := h.writes
    rw [view_of_writes he]
    exact flipping_foldl hw s
  accounts := accounts_of_extends h (fun w h => h.table_ne (by decide)) s
  payments := payments_of_extends h (fun w h => h.table_ne (by decide)) s
  refunds := refunds_of_extends h (fun w h => h.table_ne (by decide)) s

theorem safe_cancel (S : Setting D J X) (hj : J s) (invoiceId : Nat) (reason : Option String) :
    Prog.Safe D J X (fun t s _ => Reflagged .cancelled t s)
      (InvoiceService.cancel invoiceId reason) .start s :=
  (Prog.Safe.of_onlyWrites (onlyWrites_cancel (.inr (.inr ⟨_, rfl⟩)) (fun i => .inr (.inl ⟨i, rfl⟩))
    fun n _ => .inl ⟨n, rfl⟩) S.throws hj).mono fun _ s' _ _ h => reflagged_of_extends h.1 s'

theorem safe_runForKindergarten (S : Setting D J X) (hj : J s) (now : Int) :
    Prog.Safe D J X (fun t s _ => Reflagged (.overdue (formatDateInTimezone now)) t s)
      (OverdueInvoiceProcessor.runForKindergarten now) .start s :=
  (Prog.Safe.of_onlyWrites (onlyWrites_runForKindergarten (fun i => .inr (.inr ⟨i, rfl⟩)) fun n _ => .inl ⟨n, rfl⟩)
    S.throws hj).mono fun _ s' _ _ h => reflagged_of_extends h.1 s'

end Billing
