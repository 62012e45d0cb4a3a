import Shyraq.Billing.Effects

/-!
# What a settlement does

The ledger movement, the covered monthlies and the flip of the invoice: what each part of a
settlement has written when the rest of the transaction goes on, and what it still knows
of the committed store then.
-/

namespace Billing

open Kernel Transactions

variable {D : Discipline Store Key Write} {J : Store → Prop} {X : BillingError → Prop}
  {t : Tx Store Key Write} {s : Store}

/-- Writes that only announce something. -/
def Notice (w : Write) : Prop := ∃ n, w = .notify n

theorem Notice.table_ne {w : Write} (h : Notice w) {T : TableName} (hT : T ≠ .outbox) : w.table ≠ T := by
  obtain ⟨n, rfl⟩ := h
  exact hT.symm

/-! ## The ledger -/

/-- A ledger movement, right after its statement. -/
structure LedgerEntry (t t' : Tx Store Key Write) (s : Store) (accountId : Nat) (delta : Int)
    (a : PaymentAccount) : Prop where
  writes : t'.writes = t.writes ++ [.saveAccount accountId (a.balance + delta)]
  held : t.held ⊆ t'.held
  row : Key.row accountId ∈ t'.held
  balance : Key.balance accountId ∈ t'.held
  seen : t.seen <+: t'.seen
  account : s.account? accountId = some a

theorem keep_account {held : List Key} {s' : Store} {i : Nat} {a : PaymentAccount}
    (hb : Key.balance i ∈ held) (hm : Moves held s s') (h : s.account? i = some a) :
    s'.account? i = some a := hm.balances i a hb h

theorem safe_moveBalance (S : Setting D J X)
    (hacc : ∀ s, (t.view s).accounts = s.accounts) (accountId : Nat) (amount delta : Int) (error : String) :
    Prog.Safe D J X (fun t' s' _ => 0 < amount ∧ ∃ a, LedgerEntry t t' s' accountId delta a)
      (PaymentAccountService.moveBalance accountId amount delta error) t s := by
  unfold PaymentAccountService.moveBalance
  refine Prog.Safe.acquire fun s₁ _ hj₁ => Prog.Safe.query fun s₂ _ hj₂ => ?_
  refine safe_require S.throws fun a ha => safe_guardOr S.throws fun hpos => ?_
  have ha₂ : s₂.account? accountId = some a := by
    have hv : ((t.locked (.balance accountId)).view s₂).account? accountId = s₂.account? accountId := by
      unfold Store.account?
      rw [Tx.view_locked, hacc]
    rw [← hv]
    exact ha
  have hid : a.id = accountId := Table.id_of_find ha₂
  refine Prog.Safe.keep (fun s => s.account? accountId = some a) [.balance accountId] (by simp) ?_
    hj₂ ha₂ ?_
  · exact fun s s' hr _ _ h => keep_account List.mem_cons_self (S.moves hr) h
  · unfold PaymentAccountRepository.save
    refine Prog.Safe.update ?_ ?_
    · intro s₃ _ hj₃ _ s₄ hr₄ hj₄
      refine ⟨by simpa [MoneyKzt.isPositive] using hpos, a, ?_⟩
      exact
        { writes := by simp [hid]
          held := fun k hk => by simp [hk]
          row := by
            show Key.row accountId ∈ [Key.row a.id] ++ _
            rw [hid]
            exact List.mem_cons_self
          balance := by simp
          seen := by simp
          account := hj₄.2 }
    · intro s₃ _ hj₃ hmiss
      exfalso
      have : Store.hit ((t.locked (.balance accountId)).view s₃)
          (.saveAccount a.id (a.balance + delta)) = true := by
        show (Table.find ((t.locked (.balance accountId)).view s₃).accounts a.id).isSome = true
        rw [Tx.view_locked, hacc, hid]
        have := hj₃.2
        unfold Store.account? at this
        rw [this]
        rfl
      cases this.symm.trans hmiss

theorem safe_creditFromPayment (S : Setting D J X) (hacc : ∀ s, (t.view s).accounts = s.accounts)
    (accountId : Nat) (amount : Int) :
    Prog.Safe D J X (fun t' s' _ => 0 < amount ∧ ∃ a, LedgerEntry t t' s' accountId amount a)
      (PaymentAccountService.creditFromPayment accountId amount) t s :=
  safe_moveBalance S hacc accountId amount amount _

theorem safe_debitForRefund (S : Setting D J X) (hacc : ∀ s, (t.view s).accounts = s.accounts)
    (accountId : Nat) (amount : Int) :
    Prog.Safe D J X (fun t' s' _ => 0 < amount ∧ ∃ a, LedgerEntry t t' s' accountId (-amount) a)
      (PaymentAccountService.debitForRefund accountId amount) t s :=
  safe_moveBalance S hacc accountId amount (-amount) _

variable {invoice : Invoice} {t' : Tx Store Key Write}

theorem LedgerEntry.balanceMoved {accountId : Nat}
    {delta : Int} {a : PaymentAccount} (h : LedgerEntry t t' s accountId delta a) (hw : s.WF)
    (hacc : (t.view s).accounts = s.accounts) : BalanceMoved s.accounts (t'.view s).accounts accountId delta := by
  refine ⟨a, ?_⟩
  rw [view_of_writes h.writes]
  show Table.Replaced s.accounts (Table.updateWhere (t.view s).accounts accountId _ _) _ _ _
  rw [hacc]
  exact .updateWhere (f := fun a => { a with balance := _ }) hw.accountIds (fun _ => rfl) h.account rfl

/-! ## The covered monthlies -/

/-- What the settlement of a prepayment may write besides: cancelled invoices with their
slots and events. -/
def Voiding (ids : List Nat) (w : Write) : Prop :=
  Notice w ∨ (∃ i, w = .releaseUsage i) ∨ ∃ i ∈ ids, w = .markInvoice i .cancelled

theorem Voiding.table_ne {ids : List Nat} {w : Write} (h : Voiding ids w) {T : TableName}
    (hT : T ≠ .outbox ∧ T ≠ .customDiscounts ∧ T ≠ .invoices) : w.table ≠ T := by
  rcases h with h | ⟨i, rfl⟩ | ⟨i, -, rfl⟩
  · exact h.table_ne hT.1
  · exact hT.2.1.symm
  · exact hT.2.2.symm

/-- These ids are monthly invoices. -/
def Monthlies (ids : List Nat) (s : Store) : Prop :=
  ∀ i ∈ ids, ∃ r, s.invoice? i = some r ∧ r.invoiceType = .monthly

theorem keep_monthlies {held : List Key} {ids : List Nat} {s' : Store} (hm : Moves held s s')
    (h : Monthlies ids s) : Monthlies ids s' := by
  intro i hi
  obtain ⟨r, hr, ht⟩ := h i hi
  obtain ⟨r', hr', hs, -⟩ := hm.invoices.row i r hr
  refine ⟨r', hr', ?_⟩
  rw [hs.1]
  exact ht

theorem rewrites_invoices {ws : List Write} (hw : ∀ w ∈ ws, ∀ i, w ≠ .insertInvoice i) (v : Store) :
    Table.Rewrites Invoice.Step v.invoices (ws.foldl Store.apply v).invoices := by
  induction ws generalizing v with
  | nil => exact .refl Invoice.Step.refl _
  | cons w ws ih =>
    have hrest := ih (fun w' hw' => hw w' (List.mem_cons_of_mem w hw')) (v.apply w)
    refine Table.Rewrites.trans (fun _ _ _ h h' => h.trans h') ?_ hrest
    by_cases ht : w.table = .invoices
    · cases w with
      | insertInvoice i => exact absurd rfl (hw _ List.mem_cons_self i)
      | markInvoice i f =>
        exact .updateWhere Invoice.Step.refl (fun _ => rfl) fun r _ hp => InvoiceFlip.step hp
      | _ => cases ht
    · rw [Store.invoices_apply v w ht]
      exact .refl Invoice.Step.refl _

theorem safe_cancelCoveredMonthlies (S : Setting D J X)
    (hinv : ∀ w ∈ t.writes, ∀ i, w ≠ .insertInvoice i) (prepayment : Invoice) :
    Prog.Safe D J X (fun t' s' _ => ∃ ids, Tx.Extends (Voiding ids) t t' ∧ Monthlies ids s')
      (cancelCoveredMonthlies prepayment) t s := by
  unfold cancelCoveredMonthlies
  refine Prog.Safe.acquire fun s₁ _ hj₁ => ?_
  refine Prog.Safe.bind_frame (P := fun _ => False)
    (Prog.OnlyWrites.forEach _ fun _ _ => trivial) S.throws hj₁ fun _ t₂ s₂ he _ _ => ?_
  refine Prog.Safe.query fun s₃ _ hj₃ => ?_
  have he₃ : Tx.Extends (fun _ => False) t (t₂.saw s₃) :=
    ((Tx.Extends.refl t).locked _).trans he |>.saw s₃
  generalize ho : orderBy _ _ = overlapped
  have hm₃ : Monthlies (overlapped.map Invoice.id) s₃ := by
    intro i hi
    obtain ⟨m, hm, rfl⟩ := List.mem_map.1 hi
    rw [← ho, orderBy, List.mem_insertionSort, List.mem_filter] at hm
    have hv : (t₂.view s₃) = t.view s₃ := he₃.view_eq id (fun _ _ h => h.elim) s₃
    rw [hv] at hm
    have hfind := Table.find_of_mem ((S.wf hj₃).view t).invoiceIds hm.1
    obtain ⟨r, hr, hs⟩ := (rewrites_invoices hinv s₃).row_before hfind
    refine ⟨r, hr, ?_⟩
    have ht : m.invoiceType = .monthly := by
      have := hm.2
      simp only [Bool.and_eq_true, beq_iff_eq] at this
      exact this.1.1.1.2
    rw [← ht, hs.1]
  refine Prog.Safe.keep (Monthlies (overlapped.map Invoice.id)) [] (by simp)
    (fun _ _ hr _ _ h => keep_monthlies (S.moves hr) h) hj₃ hm₃ ?_
  split
  · exact fun s' _ hj' => ⟨_, he₃.mono fun _ h => h.elim, hj'.2⟩
  · refine Prog.Safe.query fun s₄ _ hj₄ => ?_
    have hf : ∀ paidSums, Prog.OnlyWrites (Voiding (overlapped.map Invoice.id))
        (Prog.forEach (cancelCoveredMonthly paidSums) overlapped : Sql Unit) := by
      intro paidSums
      refine Prog.OnlyWrites.forEach _ fun m hm => ?_
      exact onlyWrites_cancelCoveredMonthly (.inr (.inr ⟨m.id, List.mem_map_of_mem hm, rfl⟩))
        (fun i => .inr (.inl ⟨i, rfl⟩)) fun n _ => .inl ⟨n, rfl⟩
    refine (Prog.Safe.of_onlyWrites (hf _) S.throws hj₄).mono ?_
    intro t' s' _ hj' h
    exact ⟨_, ((he₃.mono fun _ h => h.elim).saw s₄).trans h.1, hj'.2⟩

/-! ## The flip of the invoice -/

/-- The row is still there, further along. -/
def StillThere (invoice : Invoice) (s : Store) : Prop :=
  ∃ i, s.invoice? invoice.id = some i ∧ Invoice.Step invoice i

theorem keep_stillThere {held : List Key} {s' : Store} (hm : Moves held s s')
    (h : StillThere invoice s) : StillThere invoice s' := by
  obtain ⟨i, hi, hs⟩ := h
  obtain ⟨i', hi', hs', -⟩ := hm.invoices.row _ _ hi
  exact ⟨i', hi', hs.trans hs'⟩

/-- The invoice row from the flip on: the row that flipped is locked; where the whole amount
is in and nothing flipped, the row is past being unpaid. -/
def Flipped (held : List Key) (invoice : Invoice) (paidSum : Int) (flip : Option InvoiceFlip)
    (s : Store) : Prop :=
  ∃ i, s.invoice? invoice.id = some i ∧ Invoice.Step invoice i ∧
    match flip with
    | some f => f.accepts i = true ∧ Key.row invoice.id ∈ held
    | none => invoice.amountAfterDiscount ≤ paidSum → i.status.unpaid = false

theorem unpaid_of_reaches {a b : InvoiceStatus} (h : a.reaches b = true) (ha : a.unpaid = false) :
    b.unpaid = false := by
  revert h ha
  cases a <;> cases b <;> simp [InvoiceStatus.reaches, InvoiceStatus.unpaid]

theorem keep_flipped {held : List Key} {paidSum : Int} {flip : Option InvoiceFlip} {s' : Store} (hm : Moves held s s')
    (h : Flipped held invoice paidSum flip s) : Flipped held invoice paidSum flip s' := by
  obtain ⟨i, hi, hs, hk⟩ := h
  obtain ⟨i', hi', hs', heq⟩ := hm.invoices.row _ _ hi
  refine ⟨i', hi', hs.trans hs', ?_⟩
  cases flip with
  | some f =>
    rw [heq hk.2]
    exact hk
  | none => exact fun hle => unpaid_of_reaches hs'.2 (hk hle)

/-- The flips that a settlement makes. -/
def FlipOf (invoice : Invoice) (paidSum : Int) : Option InvoiceFlip → Prop
  | some .paid => invoice.amountAfterDiscount ≤ paidSum
  | some .partial_ => paidSum < invoice.amountAfterDiscount
  | some _ => False
  | none => True

/-- The transaction after the flip, or after it has been left out. -/
structure FlipPost (invoice : Invoice) (paidSum : Int) (flip : Option InvoiceFlip)
    (t t' : Tx Store Key Write) (s : Store) : Prop where
  writes : ∃ t₁, t₁.writes = t.writes ++ flipWrites invoice.id flip ∧ Tx.Extends Notice t₁ t'
  held : t.held ⊆ t'.held
  seen : t.seen <+: t'.seen
  kind : FlipOf invoice paidSum flip
  lock : flip = some .paid → invoice.invoiceType.isPrepayment = true →
    Key.prepayment invoice.childId ∈ t'.held
  row : Flipped t'.held invoice paidSum flip s

theorem view_of_writes_eq (h : t'.writes = t.writes) (s : Store) : t'.view s = t.view s := by
  unfold Tx.view
  rw [h]

theorem safe_lockPrepaymentOf {A : Type} {Q : Tx Store Key Write → Store → A → Prop} {f : Unit → Sql A} (hj : J s)
    (h : ∀ t₁ s₁, t₁.writes = t.writes → t.held ⊆ t₁.held → t₁.seen = t.seen →
      (invoice.invoiceType.isPrepayment = true → Key.prepayment invoice.childId ∈ t₁.held) →
      D.rely t.held s s₁ → J s₁ → Prog.Safe D J X Q (f ()) t₁ s₁) :
    Prog.Safe D J X Q (Prog.bind (lockPrepaymentOf invoice) f) t s := by
  unfold lockPrepaymentOf
  split
  · refine Prog.Safe.acquire fun s₁ hr hj₁ => h _ s₁ rfl ?_ rfl ?_ hr hj₁
    · exact fun k hk => List.mem_cons_of_mem _ hk
    · exact fun _ => List.mem_cons_self
  · next hp => exact h t s rfl (List.Subset.refl _) rfl (fun hp' => absurd hp' hp) (D.refl _ _) hj

theorem safe_flip {A : Type} {Q : Tx Store Key Write → Store → A → Prop} (paidSum : Int) (S : Setting D J X)
    {g : InvoiceFlip} {f : Option Invoice → Sql A}
    (hinv : ∀ s, (t.view s).invoices = s.invoices) (hrow : ∀ s, J s → StillThere invoice s)
    (hit : ∀ s₁ i, J s₁ → Flipped (t.wrote (.markInvoice invoice.id g)).held invoice paidSum (some g) s₁ →
      Invoice.Step invoice i → g.accepts i = true →
      Prog.Safe D (fun s => J s ∧ Flipped (t.wrote (.markInvoice invoice.id g)).held
        invoice paidSum (some g) s) X Q (f (some (g.set i))) ((t.wrote (.markInvoice invoice.id g)).saw s₁) s₁)
    (miss : ∀ s₁ i, D.rely t.held s s₁ → J s₁ → s₁.invoice? invoice.id = some i →
      Invoice.Step invoice i → g.accepts i = false → Prog.Safe D J X Q (f none) t s₁) :
    Prog.Safe D J X Q (Prog.bind (InvoiceRepository.markConditional invoice.id g) f) t s := by
  have hv : ∀ s i, s.invoice? invoice.id = some i → (t.view s).invoice? invoice.id = some i := by
    intro s i hi
    unfold Store.invoice? at hi ⊢
    rw [hinv, hi]
  refine safe_returning ?_ ?_
  · intro s₁ _ hj₁ hh
    obtain ⟨i, hi, hs⟩ := hrow s₁ hj₁
    have ha : g.accepts i = true := by
      have : ((t.view s₁).invoice? invoice.id).any g.accepts = true := hh
      rwa [hv s₁ i hi] at this
    refine Prog.Safe.keep (Flipped (t.wrote (.markInvoice invoice.id g)).held invoice paidSum (some g))
      _ (List.Subset.refl _) (fun _ _ hr _ _ h => keep_flipped (S.moves hr) h) hj₁ ?_ ?_
    · exact ⟨i, hi, hs, ha, List.mem_append_left _ List.mem_cons_self⟩
    · refine Prog.Safe.query fun s₂ _ hj₂ => ?_
      obtain ⟨i₂, hi₂, hs₂, ha₂, -⟩ := hj₂.2
      have hread : ((t.wrote (.markInvoice invoice.id g)).view s₂).invoice? invoice.id =
          some (g.set i₂) := by
        rw [Tx.view_wrote]
        have hrep : Table.Replaced (t.view s₂).invoices
            (Table.updateWhere (t.view s₂).invoices invoice.id g.accepts g.set) invoice.id i₂
            (g.set i₂) :=
          .updateWhere ((S.wf hj₂.1).view t).invoiceIds (fun _ => rfl) (hv s₂ i₂ hi₂) ha₂
        exact hrep.find_self
      rw [hread]
      exact hit s₂ i₂ hj₂.1 hj₂.2 hs₂ ha₂
  · intro s₁ hr hj₁ hm
    obtain ⟨i, hi, hs⟩ := hrow s₁ hj₁
    refine miss s₁ i hr hj₁ hi hs ?_
    have : ((t.view s₁).invoice? invoice.id).any g.accepts = false := hm
    rwa [hv s₁ i hi] at this

/-- How `flipInvoice` leaves the invoice; it answers the row when it became `paid`. -/
def FlipResult (invoice : Invoice) (paidSum : Int) (t t' : Tx Store Key Write) (s : Store)
    (result : Option Invoice) : Prop :=
  ∃ flip, (result.isSome = true ↔ flip = some .paid) ∧ FlipPost invoice paidSum flip t t' s

theorem safe_escalated (S : Setting D J X) {payment : Payment} {paidSum : Int}
    {t₁ : Tx Store Key Write} (hw : t₁.writes = t.writes) (hh : t.held ⊆ t₁.held)
    (hs : t₁.seen = t.seen) (hj : J s) (hf : Flipped t₁.held invoice paidSum none s) :
    Prog.Safe D J X (FlipResult invoice paidSum t)
      (Prog.bind (PaymentService.escalateSettleIntoVoidInvoice payment invoice.id) fun _ => Prog.ret none) t₁ s := by
  refine Prog.Safe.bind_frame (P := Notice) (onlyWrites_escalate fun n _ => ⟨n, rfl⟩) S.throws hj
    fun _ t' s' he hr _ s'' hr' _ => ?_
  have hm := (S.moves hr).trans ((S.moves hr').mono he.held)
  refine ⟨none, by simp, ⟨t₁, by simp [hw, flipWrites], he⟩, fun k hk => he.held (hh hk),
    hs ▸ he.seen, trivial, by simp, ?_⟩
  obtain ⟨i, hi, hstep, hk⟩ := keep_flipped hm hf
  exact ⟨i, hi, hstep, hk⟩

theorem safe_flipInvoice (S : Setting D J X) (hj : J s)
    (hinv : ∀ s, (t.view s).invoices = s.invoices) (payment : Payment) (invoice : Invoice)
    (paidSum : Int) (hrow : StillThere invoice s) : Prog.Safe D J X (FlipResult invoice paidSum t)
      (PaymentService.flipInvoice payment invoice paidSum) t s := by
  refine Prog.Safe.keep (StillThere invoice) [] (by simp)
    (fun _ _ hr _ _ h => keep_stillThere (S.moves hr) h) hj hrow ?_
  have S₁ := S.and (StillThere invoice)
  unfold PaymentService.flipInvoice
  split
  · next hle =>
    refine safe_lockPrepaymentOf ⟨hj, hrow⟩ fun t₁ s₁ hw hh hs hl _ hj₁ => ?_
    refine safe_flip paidSum S₁ (fun s => ?_) (fun s h => h.2) ?_ ?_
    · rw [view_of_writes_eq hw, hinv]
    · intro s₂ i _ _ _ _ s₃ _ hj₃
      refine ⟨some .paid, by simp, ⟨_, by simp [hw, flipWrites], .saw (.refl _) s₂⟩, ?_, ?_, hle, ?_,
        hj₃.2⟩
      · exact fun k hk => List.mem_append_right _ (hh hk)
      · simp [hs]
      · exact fun _ hp => List.mem_append_right _ (hl hp)
    · intro s₂ i _ hj₂ hi hst ha
      exact safe_escalated S₁ hw hh hs hj₂ ⟨i, hi, hst, fun _ => ha⟩
  · next hlt =>
    split
    · refine safe_flip paidSum S₁ hinv (fun s h => h.2) ?_ ?_
      · intro s₂ i _ _ _ _ s₃ _ hj₃
        refine ⟨some .partial_, by simp, ⟨_, by simp [flipWrites], .saw (.refl _) s₂⟩, ?_, ?_, ?_, ?_,
          hj₃.2⟩
        · exact fun k hk => List.mem_append_right _ hk
        · simp
        · exact Int.not_le.1 hlt
        · exact fun h => by cases h
      · intro s₂ i _ hj₂ hi hst _
        exact safe_escalated S₁ rfl (List.Subset.refl _) rfl hj₂ ⟨i, hi, hst, fun h => absurd h hlt⟩
    · have hf : Flipped t.held invoice paidSum none s := by
        obtain ⟨i, hi, hst⟩ := hrow
        exact ⟨i, hi, hst, fun h => absurd h hlt⟩
      split
      · exact safe_escalated S₁ rfl (List.Subset.refl _) rfl ⟨hj, hrow⟩ hf
      · intro s' hr _
        refine ⟨none, by simp, ⟨t, by simp [flipWrites], .refl t⟩, List.Subset.refl _,
          List.prefix_rfl, trivial, by simp, ?_⟩
        exact keep_flipped (S.moves hr) hf

/-! ## The settlement of a completed payment -/

theorem voided_of_extends {ids : List Nat}
    (he : Tx.Extends (Voiding ids) t t') (hinv : ∀ w ∈ t.writes, ∀ i, w ≠ .insertInvoice i) (hm : Monthlies ids s) :
    Table.Rewrites Invoice.Voided (t.view s).invoices (t'.view s).invoices := by
  obtain ⟨ws, hw, hv⟩ := he.writes
  rw [view_of_writes hw]
  have hvoids : ∀ w ∈ ws, w.table ≠ .invoices ∨ ∃ i ∈ ids, w = .markInvoice i .cancelled := by
    intro w hw
    rcases hv w hw with h | ⟨i, rfl⟩ | ⟨i, hi, rfl⟩
    · exact .inl (h.table_ne (by decide))
    · exact .inl (by simp [Write.table])
    · exact .inr ⟨i, hi, rfl⟩
  refine voided_foldl hvoids ?_
  · intro i hi r hr
    obtain ⟨r₀, hr₀, ht⟩ := hm i hi
    obtain ⟨r', hr', hs⟩ := (rewrites_invoices hinv s).row hr₀
    rw [show (t.view s).invoice? i = _ from hr'] at hr
    cases hr
    rw [hs.1]
    exact ht

/-- What follows the credit: the flag of a double payment, and events. -/
def Tail (paymentId : Nat) (w : Write) : Prop :=
  Notice w ∨ ∃ r d, w = .markRefundRequired paymentId r d

theorem Tail.table_ne {paymentId : Nat} {w : Write} (h : Tail paymentId w) {T : TableName}
    (hT : T ≠ .outbox ∧ T ≠ .payments) : w.table ≠ T := by
  rcases h with h | ⟨r, d, rfl⟩
  · exact h.table_ne hT.1
  · exact hT.2.symm

/-- What the settlement of payment `p` has made of the store, from `t` to `t'`.  `paidSum`
is what it read, in the committed state `v`. -/
structure Settled (D : Discipline Store Key Write) (p : Payment) (invoice : Invoice) (paidSum : Int)
    (flip : Option InvoiceFlip) (t t' : Tx Store Key Write) (s : Store) : Prop where
  id : invoice.id = p.invoiceId
  stillThere : StillThere invoice s
  read : ∃ v v₁, v.WF ∧ D.rely t.held v s ∧ paidSum = (t.view v).paidSum p.invoiceId ∧
    t.seen ++ [v₁, t.view v] <+: t'.seen
  kind : FlipOf invoice paidSum flip
  lock : flip = some .paid → invoice.invoiceType.isPrepayment = true →
    Key.prepayment invoice.childId ∈ t'.held
  row : Flipped t'.held invoice paidSum flip s
  held : t.held ⊆ t'.held
  positive : 0 < p.amount
  accounts : BalanceMoved s.accounts (t'.view s).accounts invoice.paymentAccountId p.amount
  invoices : ∃ l, Flips s.invoices l invoice.id flip ∧
    Table.Rewrites Invoice.Voided l (t'.view s).invoices
  payments : ∀ {l q r}, Table.Replaced l (t.view s).payments p.id q r →
    ∃ r', Table.Replaced l (t'.view s).payments p.id q r' ∧ Payment.Flagged r r'
  refunds : (t'.view s).refunds = (t.view s).refunds

theorem Settled.of_parts {p : Payment} {paidSum : Int}
    {flip : Option InvoiceFlip} {t₀ t₁ t₂ t₃ : Tx Store Key Write} {v v₁ : Store} {a : PaymentAccount}
    {ids : List Nat} (hs : s.WF) (hw : ∀ w ∈ t.writes, w.table = .payments)
    (hid : invoice.id = p.invoiceId) (hthere : StillThere invoice s)
    (hwf : v.WF) (hv : D.rely t.held v s) (hsum : paidSum = (t.view v).paidSum p.invoiceId)
    (ht₀ : t₀ = { t with seen := t.seen ++ [v₁] ++ [t.view v] }) (hflip : FlipPost invoice paidSum flip t₀ t₁ s)
    (hvoid : Tx.Extends (Voiding ids) t₁ t₂) (hm : Monthlies ids s) (hpos : 0 < p.amount)
    (hcredit : LedgerEntry t₂ t₃ s invoice.paymentAccountId p.amount a)
    (htail : Tx.Extends (Tail p.id) t₃ t') : Settled D p invoice paidSum flip t t' s := by
  subst ht₀
  obtain ⟨tf, hfw, hfn⟩ := hflip.writes
  have htf : ∀ w ∈ tf.writes, w.table = .payments ∨ ∃ g, w = .markInvoice invoice.id g := by
    intro w h
    rw [hfw] at h
    rcases List.mem_append.1 h with h | h
    · exact .inl (hw w h)
    · exact .inr (table_of_flipWrites h)
  have accounts₂ : (t₂.view s).accounts = s.accounts := by
    rw [accounts_of_extends hvoid fun w h => h.table_ne (by decide),
      accounts_of_extends hfn fun w h => h.table_ne (by decide)]
    refine accounts_of_start (fun w h => ?_) s
    rcases htf w h with h | ⟨g, rfl⟩
    · rw [h]
      decide
    · simp [Write.table]
  have payments₃ : (t₃.view s).payments = (t.view s).payments := by
    rw [view_of_writes hcredit.writes]
    show (t₂.view s).payments = _
    rw [payments_of_extends hvoid fun w h => h.table_ne (by decide),
      payments_of_extends hfn fun w h => h.table_ne (by decide), view_of_writes hfw]
    cases flip <;> rfl
  refine
    { id := hid, stillThere := hthere, kind := hflip.kind, positive := hpos
      read := ⟨v, v₁, hwf, hv, hsum, ?_⟩, lock := fun hf hp => ?_, row := ?_, held := ?_
      accounts := ?_, invoices := ?_, payments := ?_, refunds := ?_ }
  · have h := hflip.seen.trans (hvoid.seen.trans (hcredit.seen.trans htail.seen))
    simpa using h
  · exact htail.held (hcredit.held (hvoid.held (hflip.lock hf hp)))
  · obtain ⟨i, hi, hstep, hk⟩ := hflip.row
    refine ⟨i, hi, hstep, ?_⟩
    cases flip with
    | none => exact hk
    | some f => exact ⟨hk.1, htail.held (hcredit.held (hvoid.held hk.2))⟩
  · exact fun k hk => htail.held (hcredit.held (hvoid.held (hflip.held hk)))
  · have h := hcredit.balanceMoved hs accounts₂
    rwa [← accounts_of_extends htail fun w h => h.table_ne (by decide)] at h
  · refine ⟨(tf.view s).invoices, ?_, ?_⟩
    · have hinv : (t.view s).invoices = s.invoices :=
        invoices_of_start (fun w h => by rw [hw w h]; decide) s
      rw [← hinv]
      refine invoices_of_flipWrites hfw (hs.view t) fun g hg => ?_
      obtain ⟨i, hi, -, hk⟩ := hflip.row
      subst hg
      refine ⟨i, ?_, hk.1⟩
      show Table.find (t.view s).invoices invoice.id = some i
      rw [hinv]
      exact hi
    · have hinv₁ : ∀ w ∈ t₁.writes, ∀ i, w ≠ .insertInvoice i := by
        obtain ⟨ws, he, hn⟩ := hfn.writes
        intro w h i
        rw [he] at h
        rcases List.mem_append.1 h with h | h
        · rcases htf w h with h | ⟨g, rfl⟩
          · rintro rfl
            cases h
          · simp
        · obtain ⟨n, rfl⟩ := hn w h
          simp
      rw [invoices_of_extends htail fun w h => h.table_ne (by decide),
        view_of_writes hcredit.writes, ← invoices_of_extends hfn fun w h => h.table_ne (by decide)]
      exact voided_of_extends hvoid hinv₁ hm
  · intro l q r h
    obtain ⟨ws, he, ht⟩ := htail.writes
    rw [view_of_writes he]
    refine flagged_foldl ?_ (hs.view t₃) (by rwa [payments₃])
    intro w hw'
    rcases ht w hw' with h | h
    · exact .inl (h.table_ne (by decide))
    · exact .inr h
  · rw [refunds_of_extends htail fun w h => h.table_ne (by decide), view_of_writes hcredit.writes]
    show (t₂.view s).refunds = _
    rw [refunds_of_extends hvoid fun w h => h.table_ne (by decide),
      refunds_of_extends hfn fun w h => h.table_ne (by decide), view_of_writes hfw]
    cases flip <;> rfl

theorem safe_cancelIfPrepayment (S : Setting D J X)
    (hinv : ∀ w ∈ t.writes, ∀ i, w ≠ .insertInvoice i) (paidFlip : Option Invoice) (invoice : Invoice) :
    Prog.Safe D J X (fun t' s' _ => ∃ ids, Tx.Extends (Voiding ids) t t' ∧ Monthlies ids s')
      (PaymentService.cancelIfPrepayment paidFlip invoice) t s := by
  unfold PaymentService.cancelIfPrepayment
  split
  · exact safe_cancelCoveredMonthlies S hinv invoice
  · exact fun s' _ _ => ⟨[], .refl t, by simp [Monthlies]⟩

theorem onlyWrites_announceCompleted {now : Int} {p : Payment} {paidSum : Int} :
    Prog.OnlyWrites (Tail p.id) (PaymentService.announceCompleted now p invoice paidSum) := by
  unfold PaymentService.announceCompleted
  refine (onlyWrites_detectDoublePayment (fun r d => .inr ⟨r, d, rfl⟩) fun n _ => .inl ⟨n, rfl⟩).bind
    fun _ => (onlyWrites_notify (.inl ⟨_, rfl⟩)).bind fun _ => ?_
  split
  · exact onlyWrites_notify (.inl ⟨_, rfl⟩)
  · trivial

theorem safe_settle (S : Setting D J X) (hw : ∀ w ∈ t.writes, w.table = .payments) (now : Int) (p : Payment) :
    Prog.Safe D J X
      (fun t' s' _ => ∃ invoice paidSum flip, Settled D p invoice paidSum flip t t' s')
      (PaymentService.settle now p) t s := by
  have hinv : ∀ s, (t.view s).invoices = s.invoices :=
    invoices_of_start fun w h => by rw [hw w h]; decide
  unfold PaymentService.settle
  refine Prog.Safe.query fun s₁ _ hj₁ => safe_require S.throws fun invoice hi => ?_
  have hi₁ : Table.find s₁.invoices p.invoiceId = some invoice := by
    rw [← hinv]
    exact hi
  have hid : invoice.id = p.invoiceId := Table.id_of_find hi₁
  refine Prog.Safe.keep (StillThere invoice) [] (by simp)
    (fun _ _ hr _ _ h => keep_stillThere (S.moves hr) h) hj₁
    ⟨invoice, by rw [hid]; exact hi₁, .refl _⟩ ?_
  -- the committed state in which the sum is read
  refine Prog.Safe.query fun v _ hv => ?_
  refine Prog.Safe.keep (D.rely t.held v) t.held (List.Subset.refl _)
    (fun _ _ hr _ _ h => D.trans h hr) hv (D.refl _ _) ?_
  have S₂ := (S.and (StillThere invoice)).and (D.rely t.held v)
  refine Prog.Safe.bind ⟨hv, D.refl _ _⟩ ((safe_flipInvoice S₂ ⟨hv, D.refl _ _⟩ ?_ p invoice
    ((t.view v).paidSum p.invoiceId) hv.2).mono fun t₁ s₃ res hj₃ h => ?_)
  · exact fun s => by rw [Tx.view_saw, Tx.view_saw, hinv]
  obtain ⟨flip, -, hflip⟩ := h
  refine Prog.Safe.keep (Flipped t₁.held invoice ((t.view v).paidSum p.invoiceId) flip) t₁.held
    (List.Subset.refl _)
    (fun _ _ hr _ _ h => keep_flipped (S.moves hr) h) hj₃ hflip.row ?_
  have S₃ := S₂.and (Flipped t₁.held invoice ((t.view v).paidSum p.invoiceId) flip)
  have hw₁ : ∀ w ∈ t₁.writes, (∀ i, w ≠ .insertInvoice i) ∧ w.table ≠ .accounts := by
    obtain ⟨tf, hfw, hext⟩ := hflip.writes
    obtain ⟨ws, he, hn⟩ := hext.writes
    intro w h
    rw [he, hfw] at h
    rcases List.mem_append.1 h with h | h
    · rcases List.mem_append.1 h with h | h
      · have ht := hw w h
        refine ⟨?_, by rw [ht]; decide⟩
        rintro i rfl
        cases ht
      · obtain ⟨g, rfl⟩ := table_of_flipWrites h
        exact ⟨fun i => by simp, by simp [Write.table]⟩
    · obtain ⟨n, rfl⟩ := hn w h
      exact ⟨fun i => by simp, by simp [Write.table]⟩
  refine Prog.Safe.bind ⟨hj₃, hflip.row⟩ ((safe_cancelIfPrepayment S₃
    (fun w h => (hw₁ w h).1) res invoice).mono fun t₂ s₄ _ hj₄ h => ?_)
  obtain ⟨ids, hvoid, hm⟩ := h
  refine Prog.Safe.keep (Monthlies ids) [] (by simp)
    (fun _ _ hr _ _ h => keep_monthlies (S.moves hr) h) hj₄ hm ?_
  have S₄ := S₃.and (Monthlies ids)
  have hacc : ∀ s, (t₂.view s).accounts = s.accounts := by
    refine accounts_of_start fun w h => ?_
    obtain ⟨ws, he, hv'⟩ := hvoid.writes
    rw [he] at h
    rcases List.mem_append.1 h with h | h
    · exact (hw₁ w h).2
    · exact (hv' w h).table_ne (by decide)
  refine Prog.Safe.bind ⟨hj₄, hm⟩ ((safe_creditFromPayment S₄ hacc invoice.paymentAccountId
    p.amount).mono fun t₃ s₅ _ hj₅ h => ?_)
  obtain ⟨hpos, a, hcredit⟩ := h
  refine Prog.Safe.keep (fun s => s.account? invoice.paymentAccountId = some a) t₃.held
    (List.Subset.refl _)
    (fun _ _ hr _ _ h => keep_account hcredit.balance (S.moves hr) h) hj₅ hcredit.account ?_
  have hall : Prog.OnlyWrites (Tail p.id) (PaymentService.announceCompleted now p invoice
      ((t.view v).paidSum p.invoiceId)) := onlyWrites_announceCompleted
  refine (Prog.Safe.of_onlyWrites hall S.throws ⟨hj₅, hcredit.account⟩).mono
    fun t' s' _ hj' h => ⟨invoice, (t.view v).paidSum p.invoiceId, flip, ?_⟩
  obtain ⟨⟨⟨⟨⟨hjs, hthere⟩, hrely⟩, hrow⟩, hmon⟩, hacct⟩ := hj'
  exact Settled.of_parts (S.wf hjs) hw hid hthere (S.wf hv.1) hrely rfl rfl { hflip with row := hrow }
    hvoid hmon hpos { hcredit with account := hacct } h.1

end Billing
