import Shyraq.Billing.Landing

/-!
# One live Kaspi request for each payer

`initiate` fails the live requests of the payer that it has read, and opens its own.  What another `initiate` commits
after that read stays live beside the new one.
-/

namespace Billing

open Kernel Transactions

/-! ## What is claimed -/

/-- A Kaspi request of a known payer, under way. -/
def Payment.live (p : Payment) : Bool := p.status.inFlight && p.provider == .kaspiPay && p.payerUserId.isSome

/-- Each invoice and payer have at most one. -/
def OneLive (s : Store) : Prop :=
  ∀ p ∈ s.payments, ∀ q ∈ s.payments, p.live = true → q.live = true → p.invoiceId = q.invoiceId →
    p.payerUserId = q.payerUserId → p = q

/-- A provider observation, or an `initiate` at Kaspi: its adapter throws or answers `initiated`. -/
def Op.kaspiTraffic : Op → Bool
  | deliver .. => true
  | initiate _ input .throws => input.provider == .kaspiPay
  | initiate _ input (.initiated _) => input.provider == .kaspiPay
  | _ => false

/-- The requests that the recall fails. -/
def recallable (v : Store) (invoiceId payer : Nat) : List Nat :=
  (v.payments.filter fun q => q.invoiceId == invoiceId && PaymentService.supersedable payer q).map Payment.id

/-- What the recall has read: the fourth SELECT of an `initiate`. -/
def recalled (input : PaymentService.InitiatePaymentInput) (t : Tx Store Key Write) : List Nat :=
  match t.seen[3]?, input.payerUserId with
  | some v, some payer => recallable v input.invoiceId payer
  | _, _ => []

/-- A new request has read all that are live. -/
def RecallsAll (s : Store) (c : BillingCommit) : Prop :=
  match c.op with
  | .initiate _ input _ => s.paymentByKey input.idempotencyKey = none → ∀ q ∈ s.payments, q.live = true →
      q.invoiceId = input.invoiceId → q.payerUserId = input.payerUserId → q.id ∈ recalled input c.tx
  | _ => True

instance (s : Store) : Decidable (OneLive s) := by
  unfold OneLive
  infer_instance

instance (s : Store) (c : BillingCommit) : Decidable (RecallsAll s c) := by
  obtain ⟨op, tx, a⟩ := c
  apply Op.casesOn (motive := fun op => Decidable (RecallsAll s ⟨op, tx, a⟩)) op <;> intros <;> dsimp only [RecallsAll] <;>
    infer_instance

/-! ## Rows that fail and rows that go on -/

/-- What is live was live. -/
def Thins (s s' : Store) : Prop := ∀ p ∈ s'.payments, p.live = true → p ∈ s.payments

theorem OneLive.thin {s s' : Store} (h : OneLive s) (hthin : Thins s s') : OneLive s' := by
  intro p hp q hq hlive hlive' hinvoice hpayer
  exact h p (hthin p hp hlive) q (hthin q hq hlive') hlive hlive' hinvoice hpayer

theorem not_live {p : Payment} (h : p.status.inFlight = false) : p.live = false := by
  unfold Payment.live
  rw [h]
  rfl

theorem Flown.thins {s s' : Store} (h : Flown s s') : Thins s s' := by
  intro p hp hlive
  refine h p hp ?_
  by_contra hno
  rw [not_live (Bool.eq_false_of_not_eq_true hno)] at hlive
  cases hlive

/-- Statements that put the new row under way. -/
def OnProcessing (id : Nat) (w : Write) : Prop :=
  (∃ txn, w = .markPayment id (.processing txn)) ∨ ∃ nextAt, w = .scheduleBccReconciliation id nextAt

/-- The same request, still under way. -/
structure Payment.GoesOn (p p' : Payment) : Prop where
  id : p'.id = p.id
  live : p'.live = p.live
  invoiceId : p'.invoiceId = p.invoiceId
  payerUserId : p'.payerUserId = p.payerUserId

theorem Payment.GoesOn.refl (p : Payment) : Payment.GoesOn p p := ⟨rfl, rfl, rfl, rfl⟩

theorem Payment.GoesOn.trans {a b c : Payment} (h₁ : Payment.GoesOn a b) (h₂ : Payment.GoesOn b c) :
    Payment.GoesOn a c :=
  ⟨h₂.id.trans h₁.id, h₂.live.trans h₁.live, h₂.invoiceId.trans h₁.invoiceId,
    h₂.payerUserId.trans h₁.payerUserId⟩

theorem goesOn_processing {p : Payment} {txn : Option Nat} (h : p.status = .initiated) :
    Payment.GoesOn p ((PaymentPatch.processing txn).set p) := by
  refine ⟨rfl, ?_, rfl, rfl⟩
  unfold Payment.live
  rw [h]
  rfl

theorem processing_rows {ws : List Write} {id : Nat} (hw : ∀ w ∈ ws, OnProcessing id w) (v : Store) :
    Table.Rewrites (fun p p' => p' = p ∨ p.id = id ∧ Payment.GoesOn p p') v.payments
      (ws.foldl Store.apply v).payments := by
  have hrefl : ∀ p : Payment, p = p ∨ p.id = id ∧ Payment.GoesOn p p := fun p => .inl rfl
  induction ws generalizing v with
  | nil => exact .refl hrefl _
  | cons w ws ih =>
    have hfirst : Table.Rewrites (fun p p' => p' = p ∨ p.id = id ∧ Payment.GoesOn p p') v.payments
        (v.apply w).payments := by
      rcases hw w List.mem_cons_self with ⟨txn, rfl⟩ | ⟨nextAt, rfl⟩
      · exact .updateWhere hrefl (PaymentPatch.id_set _) fun r hr hp =>
          .inr ⟨Table.id_of_find hr, goesOn_processing (beq_iff_eq.1 hp)⟩
      · exact .updateWhere hrefl (fun _ => rfl) fun r hr _ => .inr ⟨Table.id_of_find hr, rfl, rfl, rfl, rfl⟩
    refine hfirst.trans (fun a b c hab hbc => ?_) (ih (fun w' hw' => hw w' (List.mem_cons_of_mem _ hw')) _)
    rcases hab with rfl | ⟨ha, hab⟩
    · exact hbc
    · rcases hbc with rfl | ⟨-, hbc⟩
      · exact .inr ⟨ha, hab⟩
      · exact .inr ⟨ha, hab.trans hbc⟩

theorem unmarked_row {rs : List Write} (hrs : ∀ w ∈ rs, Recall w) {i : Nat} (hi : Write.markPayment i .failed ∉ rs)
    (s : Store) : (rs.foldl Store.apply s).payment? i = s.payment? i := by
  induction rs generalizing s with
  | nil => rfl
  | cons w rs ih =>
    obtain ⟨j, rfl⟩ := hrs w List.mem_cons_self
    have hne : i ≠ j := by
      rintro rfl
      exact hi List.mem_cons_self
    have hrest := ih (fun w' hw' => hrs w' (List.mem_cons_of_mem _ hw')) (fun hm => hi (List.mem_cons_of_mem _ hm))
      (s.apply (.markPayment j .failed))
    rw [List.foldl_cons, hrest]
    exact Table.find_updateWhere_of_ne (PaymentPatch.id_set .failed) hne

theorem marked_row {rs : List Write} (hrs : ∀ w ∈ rs, Recall w) {i : Nat} (hi : Write.markPayment i .failed ∈ rs)
    {s : Store} {q : Payment} (hq : (rs.foldl Store.apply s).payment? i = some q) : q.status.inFlight = false := by
  induction rs generalizing s with
  | nil => cases hi
  | cons w rs ih =>
    have hrest : ∀ w ∈ rs, Recall w := fun w' hw' => hrs w' (List.mem_cons_of_mem _ hw')
    rw [List.foldl_cons] at hq
    by_cases hlater : Write.markPayment i .failed ∈ rs
    · exact ih hrest hlater hq
    · obtain rfl := (List.mem_cons.1 hi).resolve_right hlater
      rw [unmarked_row hrest hlater] at hq
      have hfind : Table.find (Table.updateWhere s.payments i (PaymentPatch.failed).accepts (PaymentPatch.failed).set) i =
          some q := hq
      rw [Table.find_updateWhere s.payments i _ PaymentPatch.failed.set (PaymentPatch.id_set .failed), Option.map_eq_some_iff] at hfind
      obtain ⟨r, -, hr⟩ := hfind
      by_cases haccepts : (PaymentPatch.failed).accepts r = true
      · rw [if_pos ⟨rfl, haccepts⟩] at hr
        rw [← hr]
        rfl
      · rw [if_neg fun h => haccepts h.2] at hr
        rw [← hr]
        exact Bool.eq_false_of_not_eq_true haccepts

theorem opened_rows {v : Store} {p : Payment} {ws : List Write} (hadmits : v.admitsPayment p = true)
    (hws : ∀ w ∈ ws, OnProcessing p.id w) :
    (∃ p', (ws.foldl Store.apply (v.apply (.insertPayment p))).payment? p.id = some p' ∧ Payment.GoesOn p p') ∧
      ∀ i, i ≠ p.id → (ws.foldl Store.apply (v.apply (.insertPayment p))).payment? i = v.payment? i := by
  have hadd : Table.Added v.payments (v.apply (.insertPayment p)).payments p := added_of_admits hadmits
  have hrows := processing_rows hws (v.apply (.insertPayment p))
  constructor
  · obtain ⟨p', hp', hgoes⟩ := hrows.row ((hadd.after p.id).trans (if_pos rfl))
    refine ⟨p', hp', ?_⟩
    rcases hgoes with rfl | ⟨-, hgoes⟩
    · exact .refl _
    · exact hgoes
  · intro i hi
    have hbefore : Table.find (v.apply (.insertPayment p)).payments i = v.payment? i :=
      (hadd.after i).trans (if_neg hi)
    cases hfind : v.payment? i with
    | none => exact hrows.absent (hbefore.trans hfind)
    | some r =>
      obtain ⟨r', hr', hgoes⟩ := hrows.row (hbefore.trans hfind)
      rcases hgoes with rfl | ⟨hid, -⟩
      · exact hr'
      · exact absurd ((Table.id_of_find hfind).symm.trans hid) hi

/-! ## What an initiate at Kaspi does -/

/-- All that is still in flight of what the recall has read has failed, and nothing else. -/
structure Recalls (input : PaymentService.InitiatePaymentInput) (t : Tx Store Key Write) (rs : List Write) (s : Store) :
    Prop where
  writes : ∀ w ∈ rs, ∃ i ∈ recalled input t, w = .markPayment i .failed
  failed : ∀ q ∈ s.payments, q.status.inFlight = true → q.id ∈ recalled input t → .markPayment q.id .failed ∈ rs

/-- A row is opened beside those that the recall has failed. -/
structure KaspiOpening (input : PaymentService.InitiatePaymentInput) (t : Tx Store Key Write) (s : Store) (p : Payment)
    (rs ws : List Write) : Prop where
  writes : t.writes = rs ++ .insertPayment p :: ws
  recalls : Recalls input t rs s
  processing : ∀ w ∈ ws, OnProcessing p.id w
  admitted : (rs.foldl Store.apply s).admitsPayment p = true
  live : p.live = input.payerUserId.isSome
  invoiceId : p.invoiceId = input.invoiceId
  payerUserId : p.payerUserId = input.payerUserId
  key : p.idempotencyKey = input.idempotencyKey

inductive KaspiInitiated (input : PaymentService.InitiatePaymentInput) (t : Tx Store Key Write) (s : Store) : Prop
  | answered (thin : Thins s (t.view s)) (known : (s.paymentByKey input.idempotencyKey).isSome = true)
  | opened (p : Payment) (rs ws : List Write) (h : KaspiOpening input t s p rs ws)

variable {input : PaymentService.InitiatePaymentInput}

theorem recalled_of_prefix {t t' : Tx Store Key Write}
    (hseen : t.seen <+: t'.seen) (hlength : input.payerUserId.isSome = true → 3 < t.seen.length) :
    recalled input t' = recalled input t := by
  unfold recalled
  cases hpayer : input.payerUserId with
  | none => cases t'.seen[3]? <;> cases t.seen[3]? <;> rfl
  | some payer =>
    have hlt : 3 < t.seen.length := hlength (by rw [hpayer]; rfl)
    obtain ⟨rest, hrest⟩ := hseen
    rw [← hrest, List.getElem?_append_left hlt]

section

variable {D : Discipline Store Key Write} {J : Store → Prop} {X : BillingError → Prop}

/-- The rows that the recall has read are there. -/
def AllThere (ids : List Nat) (s : Store) : Prop := ∀ i ∈ ids, ∃ q, s.payment? i = some q

variable {s : Store} {t : Tx Store Key Write} {ids done : List Nat} {seen : List Store}

theorem AllThere.moves {held : List Key} {s' : Store} (h : AllThere ids s) (hm : Moves held s s') :
    AllThere ids s' := by
  intro i hi
  obtain ⟨q, hq⟩ := h i hi
  obtain ⟨q', hq', -⟩ := hm.payments.row _ _ hq
  exact ⟨q', hq'⟩

/-- Of the ids, those on `done` have failed. -/
structure Recalling (ids done : List Nat) (seen : List Store) (t : Tx Store Key Write) (s : Store) : Prop where
  seen : seen <+: t.seen
  writes : ∀ w ∈ t.writes, ∃ i ∈ ids, w = .markPayment i .failed
  failed : ∀ q ∈ s.payments, q.status.inFlight = true → q.id ∈ done → .markPayment q.id .failed ∈ t.writes

theorem Recalling.recall (h : Recalling ids done seen t s) : ∀ w ∈ t.writes, Recall w := by
  intro w hw
  obtain ⟨i, -, rfl⟩ := h.writes w hw
  exact ⟨i, rfl⟩

theorem Recalling.moves {s' : Store}
    {held : List Key} (h : Recalling ids done seen t s) (hs' : s'.WF) (hdone : AllThere done s)
    (hm : Moves held s s') : Recalling ids done seen t s' where
  seen := h.seen
  writes := h.writes
  failed q hq hflight hdone' := by
    obtain ⟨r, hr⟩ := hdone q.id hdone'
    obtain ⟨q', hq', hstep, -⟩ := hm.payments.row _ _ hr
    have hsame : q' = q := Option.some.inj (hq'.symm.trans (Table.find_of_mem hs'.paymentIds hq))
    subst hsame
    have hid : q'.id = r.id := hstep.id
    have hbefore : r.status.inFlight = true := by
      cases hr' : r.status.inFlight with
      | true => rfl
      | false => exact (inFlight_of_reaches hstep.status hr').symm.trans hflight
    rw [hid]
    exact h.failed r (Table.mem_of_find hr) hbefore (hid ▸ hdone')

theorem Recalling.saw (h : Recalling ids done seen t s) (v : Store) : Recalling ids done seen (t.saw v) s :=
  ⟨h.seen.trans (List.prefix_append _ _), h.writes, h.failed⟩

theorem Recalling.wrote (h : Recalling ids done seen t s) {i : Nat} (hi : i ∈ ids) :
    Recalling ids (done ++ [i]) seen (t.wrote (.markPayment i .failed)) s where
  seen := h.seen
  writes w hw := by
    rw [Tx.writes_wrote] at hw
    rcases List.mem_append.1 hw with hw | hw
    · exact h.writes w hw
    · exact ⟨i, hi, List.mem_singleton.1 hw⟩
  failed q hq hflight hdone := by
    rw [Tx.writes_wrote]
    rcases List.mem_append.1 hdone with hdone | hdone
    · exact List.mem_append_left _ (h.failed q hq hflight hdone)
    · rw [List.mem_singleton.1 hdone]
      exact List.mem_append_right _ (List.mem_singleton.2 rfl)

/-- A row that the statement does not match has failed before, or is past. -/
theorem Recalling.missed (h : Recalling ids done seen t s) (hs : s.WF) {i : Nat}
    (hmiss : Store.hit (t.view s) (.markPayment i .failed) = false) : Recalling ids (done ++ [i]) seen t s where
  seen := h.seen
  writes := h.writes
  failed q hq hflight hdone := by
    rcases List.mem_append.1 hdone with hdone | hdone
    · exact h.failed q hq hflight hdone
    · by_contra hno
      have hrow : (t.view s).payment? q.id = some q :=
        (unmarked_row h.recall hno s).trans (Table.find_of_mem hs.paymentIds hq)
      have hhit : ((t.view s).payment? q.id).any (PaymentPatch.failed).accepts = false :=
        List.mem_singleton.1 hdone ▸ hmiss
      rw [hrow] at hhit
      exact absurd (hflight.symm.trans hhit) (by decide)

theorem safe_recallLoop (S : Setting D J X) {payer : Nat} (l : List Payment)
    (hids : ∀ prev ∈ l, PaymentService.supersedable payer prev = true → prev.id ∈ ids) (hdone : done ⊆ ids)
    (hj : J s ∧ AllThere ids s) (h : Recalling ids done seen t s) : Prog.Safe D (fun s => J s ∧ AllThere ids s) X
      (fun t s _ => Recalling ids (done ++ (l.filter (PaymentService.supersedable payer)).map Payment.id) seen t s)
      (Prog.forEach (fun prev => do if PaymentService.supersedable payer prev then do
          let _ ← PaymentRepository.markFailedConditional prev.id else pure ()) l) t s := by
  have later : ∀ {done : List Nat} {t : Tx Store Key Write} {s s'}, done ⊆ ids → J s ∧ AllThere ids s →
      D.rely t.held s s' → J s' ∧ AllThere ids s' → Recalling ids done seen t s → Recalling ids done seen t s' := by
    intro done t s s' hsub hj hr hj' h
    exact h.moves (S.wf hj'.1) (fun i hi => hj.2 i (hsub hi)) (S.moves hr)
  induction l generalizing done t s with
  | nil =>
    intro s' hr hj'
    rw [List.filter_nil, List.map_nil, List.append_nil]
    exact later hdone hj hr hj' h
  | cons prev l ih =>
    have hrest : ∀ prev ∈ l, PaymentService.supersedable payer prev = true → prev.id ∈ ids :=
      fun p hp => hids p (List.mem_cons_of_mem _ hp)
    refine Prog.Safe.bind hj ?_
    beta_reduce
    by_cases hsup : PaymentService.supersedable payer prev = true
    · have hi := hids prev List.mem_cons_self hsup
      have hdone' : done ++ [prev.id] ⊆ ids := by
        intro i hm
        rcases List.mem_append.1 hm with hm | hm
        · exact hdone hm
        · rwa [List.mem_singleton.1 hm]
      rw [if_pos hsup, List.filter_cons_of_pos hsup, List.map_cons, ← List.singleton_append, ← List.append_assoc]
      refine safe_returning (fun s₁ hr₁ hj₁ _ s₂ hr₂ hj₂ s₃ hr₃ hj₃ => ?_) fun s₁ hr₁ hj₁ hmiss s₃ hr₃ hj₃ => ?_
      · have h₁ := (later hdone hj hr₁ hj₁ h).wrote hi
        have h₂ := (later hdone' hj₁ hr₂ hj₂ h₁).saw s₂
        exact ih hrest hdone' hj₃ (later hdone' hj₂ hr₃ hj₃ h₂)
      · have h₁ := (later hdone hj hr₁ hj₁ h).missed (S.wf hj₁.1) hmiss
        exact ih hrest hdone' hj₃ (later hdone' hj₁ hr₃ hj₃ h₁)
    · rw [if_neg hsup, List.filter_cons_of_neg hsup]
      exact fun s₁ hr₁ hj₁ => ih hrest hdone hj₁ (later hdone hj hr₁ hj₁ h)

/-- The recall as a whole: what it has read, and that it has failed all of it. -/
theorem safe_recall (S : Setting D J X) {invoiceId payer : Nat} (ht : t.writes = []) :
    Prog.Safe D J X (fun t' s' _ => ∃ v, Recalling (recallable v invoiceId payer) (recallable v invoiceId payer)
        (t.seen ++ [v]) t' s' ∧ AllThere (recallable v invoiceId payer) s')
      (PaymentService.recallInFlightKaspiForPayer invoiceId payer) t s := by
  unfold PaymentService.recallInFlightKaspiForPayer PaymentRepository.findByInvoiceId
  refine Prog.Safe.query fun v hr hj₁ => ?_
  have hview : t.view v = v := view_of_writes_eq (t := Tx.start) ht v
  rw [hview]
  have hthere : AllThere (recallable v invoiceId payer) v := by
    intro i hi
    obtain ⟨q, hq, rfl⟩ := List.mem_map.1 hi
    exact ⟨q, Table.find_of_mem (S.wf hj₁).paymentIds (List.mem_filter.1 hq).1⟩
  refine Prog.Safe.keep (AllThere (recallable v invoiceId payer)) [] (List.nil_subset _)
    (fun s₁ s₂ hm _ _ h => h.moves (S.moves hm)) hj₁ hthere ?_
  have hstart : Recalling (recallable v invoiceId payer) [] (t.seen ++ [v]) (t.saw v) v := by
    refine ⟨?_, fun w hw => ?_, fun q _ _ hdone => absurd hdone List.not_mem_nil⟩
    · rw [Tx.seen_saw, hview]
    · rw [Tx.writes_saw, ht] at hw
      cases hw
  have hmem : ∀ q, q ∈ orderBy (fun a b : Payment => decide (b.createdAt ≤ a.createdAt))
      (v.payments.filter fun p => p.invoiceId == invoiceId) ↔ q ∈ v.payments ∧ q.invoiceId = invoiceId := by
    intro q
    rw [orderBy, List.mem_insertionSort, List.mem_filter, beq_iff_eq]
  refine (safe_recallLoop S _ (fun prev hprev hsup => ?_) (List.nil_subset _) ⟨hj₁, hthere⟩ hstart).mono
    fun t' s' _ hj' h => ⟨v, ?_, hj'.2⟩
  · obtain ⟨hv, hinvoice⟩ := (hmem prev).1 hprev
    exact List.mem_map_of_mem (List.mem_filter.2 ⟨hv, by rw [hinvoice, hsup]; simp⟩)
  · refine ⟨h.seen, h.writes, fun q hq hflight hid => h.failed q hq hflight ?_⟩
    obtain ⟨r, hr, hrid⟩ := List.mem_map.1 hid
    obtain ⟨hv, hboth⟩ := List.mem_filter.1 hr
    obtain ⟨hinvoice, hsup⟩ := Bool.and_eq_true_iff.1 hboth
    rw [← hrid, List.nil_append]
    exact List.mem_map_of_mem (List.mem_filter.2 ⟨(hmem r).2 ⟨hv, beq_iff_eq.1 hinvoice⟩, hsup⟩)

theorem onlyWrites_initiated {now : Int} {p : Payment} {txn : Nat} (h : input.provider = .kaspiPay) :
    Prog.OnlyWrites (OnProcessing p.id) (PaymentService.afterProviderCall now input p (.initiated txn)) := by
  refine (onlyWrites_returning (.inl ⟨some txn, rfl⟩)).bind fun _ s => ?_
  show Prog.OnlyWrites _ (if _ then _ else _)
  rw [if_neg (by rw [h]; decide)]
  trivial

theorem safe_openAtKaspi (S : Setting D J X) {now : Int}
    {outcome : PaymentService.ProviderOutcome} (hprovider : input.provider = .kaspiPay)
    (hout : outcome = .throws ∨ ∃ txn, outcome = .initiated txn) {invoice : Invoice} (hid : invoice.id = input.invoiceId)
    (hrec : Tx.Extends Recall .start t)
    (hlength : input.payerUserId.isSome = true → 3 < t.seen.length) (hrecalls : ∀ s, J s → Recalls input t t.writes s) :
    Prog.Safe D J X (fun t s _ => KaspiInitiated input t s)
      (Prog.bind Prog.uuid fun paymentId =>
        Prog.bind (PaymentService.createOrWinner (PaymentService.newPayment paymentId now input invoice)) fun winner =>
          match winner with
          | some winner => .ret winner
          | none => PaymentService.afterProviderCall now input
              (PaymentService.newPayment paymentId now input invoice) outcome) t s := by
  refine Prog.Safe.uuid fun s₁ id _ _ _ _ => ?_
  generalize hp : PaymentService.newPayment id now input invoice = p
  let t₁ := t.locked (Relational.rowKey Store id)
  have hrec₁ : Tx.Extends Recall .start t₁ := hrec.locked _
  intro s₂ hr₂ hj₂
  refine ⟨fun hhit => ?_, fun _ s₃ _ hj₃ => ?_⟩
  · have hin : ((t₁.view s₂).admitsPayment p && (t₁.view s₂).hasChild p.childId) = true := hhit
    have hadmits : s₂.admitsPayment p = true := by
      rw [← admits_of_recalls hrec₁ s₂ p]
      exact (Bool.and_eq_true_iff.1 hin).1
    show Prog.Safe D J X _ (PaymentService.afterProviderCall now input p outcome) (t₁.wrote (.insertPayment p)) s₂
    rcases hout with rfl | ⟨txn, rfl⟩
    · exact fun s₃ _ _ => ⟨fun _ s₄ _ _ => S.throws _, fun _ => S.throws _⟩
    · have hheld : Key.row p.id ∈ (t₁.wrote (.insertPayment p)).held ∧
          Key.idempotency p.idempotencyKey ∈ (t₁.wrote (.insertPayment p)).held := by
        constructor <;> exact List.mem_append_left _ (by simp [Relational.keys, Store.keys])
      refine Prog.Safe.keep (fun s => s.admitsPayment p = true) (t₁.wrote (.insertPayment p)).held
        (List.Subset.refl _) (fun s s' hr _ _ h => keep_admitsPayment hheld.1 hheld.2 (S.moves hr) h) hj₂ hadmits ?_
      refine (Prog.Safe.of_onlyWrites (onlyWrites_initiated hprovider) S.throws ⟨hj₂, hadmits⟩).mono ?_
      rintro t' s' answer ⟨hj', hadmits'⟩ ⟨hext, -⟩
      obtain ⟨ws, he, hws⟩ := hext.writes
      have hsame : recalled input t' = recalled input t := recalled_of_prefix hext.seen hlength
      have hview : t₁.view s' = t.writes.foldl Store.apply s' := rfl
      have hrecalls' := hrecalls s' hj'
      refine .opened p t.writes ws ⟨?_, ⟨?_, ?_⟩, hws, ?_, ?_, ?_, ?_, ?_⟩
      · rw [he]
        exact List.append_assoc _ _ _
      · rw [hsame]
        exact hrecalls'.writes
      · rw [hsame]
        exact hrecalls'.failed
      · rw [← hview, admits_of_recalls hrec₁]
        exact hadmits'
      · rw [← hp]
        show (PaymentStatus.inFlight .initiated && input.provider == .kaspiPay && input.payerUserId.isSome) = _
        rw [hprovider]
        rfl
      · rw [← hp]
        exact hid
      · rw [← hp]
        rfl
      · rw [← hp]
        rfl
  · show Prog.Safe D J X _ (Prog.bind (Prog.bind
      (require ((t₁.view s₃).paymentByKey p.idempotencyKey) _) _) _) _ _
    cases hwinner : (t₁.view s₃).paymentByKey p.idempotencyKey with
    | none => exact S.throws _
    | some q =>
      intro s₄ hr₄ hj₄
      have hknown : (s₃.paymentByKey p.idempotencyKey).isSome = true :=
        known_of_view hrec₁ (S.wf hj₃) (by rw [hwinner]; rfl)
      rw [← hp] at hknown
      exact .answered (flown_of_recalls (S.wf hj₄) (hrec₁.saw s₃)).thins (keep_known (S.moves hr₄) hknown (S.wf hj₃))

/-- **An `initiate` at Kaspi** answers a payment that is there, or opens a row beside what its recall has failed. -/
theorem safe_initiateAtKaspi (S : Setting D J X) {now : Int}
    {outcome : PaymentService.ProviderOutcome} (hprovider : input.provider = .kaspiPay)
    (hout : outcome = .throws ∨ ∃ txn, outcome = .initiated txn) (s : Store) :
    Prog.Safe D J X (fun t s _ => KaspiInitiated input t s) (PaymentService.initiate now input outcome) .start s := by
  unfold PaymentService.initiate PaymentRepository.findByIdempotencyKey InvoiceRepository.findById
    InvoiceRepository.getPaidSumForInvoice
  refine Prog.Safe.query fun s₁ _ hj₁ => ?_
  cases hexisting : (Tx.start.view s₁).paymentByKey input.idempotencyKey with
  | some p =>
    intro s₂ hr₂ hj₂
    refine .answered (flown_of_recalls (S.wf hj₂) (.of_start fun w hw => absurd hw List.not_mem_nil)).thins ?_
    refine keep_known (S.moves hr₂) ?_ (S.wf hj₁)
    rw [Tx.view_start] at hexisting
    rw [hexisting]
    rfl
  | none =>
    refine safe_guardOr S.throws fun _ => safe_guardOr S.throws fun _ => Prog.Safe.query fun s₂ _ _ => ?_
    refine safe_require S.throws fun invoice hinvoice => ?_
    have hid : invoice.id = input.invoiceId := Table.id_of_find hinvoice
    refine Prog.Safe.query fun s₃ _ hj₃ => safe_checkInitiate S.throws hid fun _ => ?_
    unfold PaymentService.openPayment PaymentService.recallBefore
    rw [hprovider]
    cases hpayer : input.payerUserId with
    | none =>
      refine safe_openAtKaspi S hprovider hout hid (.of_start fun w hw => absurd hw List.not_mem_nil)
        (fun h => ?_) fun s _ => ⟨fun w hw => absurd hw List.not_mem_nil, fun q _ _ hq => ?_⟩
      · rw [hpayer] at h
        cases h
      · unfold recalled at hq
        rw [hpayer] at hq
        cases hq
    | some payer =>
      refine Prog.Safe.bind hj₃ ((safe_recall S rfl).mono fun t s _ hj h => ?_)
      obtain ⟨v, hrecalling, hthere⟩ := h
      have hread : recalled input t = recallable v invoice.id payer := by
        obtain ⟨rest, hrest⟩ := hrecalling.seen
        unfold recalled
        rw [hpayer, ← hrest, hid]
        rfl
      refine Prog.Safe.keep (fun s => Recalling (recallable v invoice.id payer) (recallable v invoice.id payer) _ t s ∧
        AllThere (recallable v invoice.id payer) s) [] (List.nil_subset _) (fun s s' hm _ hj' h => ⟨?_, ?_⟩) hj
        ⟨hrecalling, hthere⟩ ?_
      · exact h.1.moves (S.wf hj') h.2 (S.moves hm)
      · exact h.2.moves (S.moves hm)
      · refine safe_openAtKaspi (S.and _) hprovider hout hid (.of_start hrecalling.recall) (fun _ => ?_) fun s hs => ?_
        · have hfour : 4 ≤ t.seen.length := hrecalling.seen.length_le
          exact hfour
        · exact ⟨hread ▸ hs.2.1.writes, hread ▸ hs.2.1.failed⟩

end

/-! ## What a commit leaves -/

section

variable {input : PaymentService.InitiatePaymentInput} {t : Tx Store Key Write} {s : Store} {p : Payment}
  {rs ws : List Write}

theorem KaspiOpening.view (h : KaspiOpening input t s p rs ws) :
    t.view s = ws.foldl Store.apply ((rs.foldl Store.apply s).apply (.insertPayment p)) := by
  have hview : t.view s = t.writes.foldl Store.apply s := rfl
  rw [hview, h.writes, List.foldl_append, List.foldl_cons]

theorem Recalls.recall (h : Recalls input t rs s) : ∀ w ∈ rs, Recall w := by
  intro w hw
  obtain ⟨i, -, rfl⟩ := h.writes w hw
  exact ⟨i, rfl⟩

theorem Recalls.thins (hs : s.WF) (h : Recalls input t rs s) : Thins s (rs.foldl Store.apply s) :=
  (flown_of_recalls hs (t := { (Tx.start : Tx Store Key Write) with writes := rs }) (.of_start h.recall)).thins

theorem KaspiOpening.rows (hs : s.WF) (h : KaspiOpening input t s p rs ws) :
    ∃ p', (t.view s).payment? p.id = some p' ∧ Payment.GoesOn p p' ∧
      ∀ q ∈ (t.view s).payments, q = p' ∨ q.id ≠ p.id ∧ (rs.foldl Store.apply s).payment? q.id = some q := by
  obtain ⟨⟨p', hp', hgoes⟩, hothers⟩ := opened_rows h.admitted h.processing
  rw [← h.view] at hp' hothers
  refine ⟨p', hp', hgoes, fun q hq => ?_⟩
  have hfind : (t.view s).payment? q.id = some q := Table.find_of_mem (hs.view t).paymentIds hq
  by_cases hid : q.id = p.id
  · rw [hid, hp'] at hfind
    exact .inl (Option.some.inj hfind).symm
  · exact .inr ⟨hid, (hothers q.id hid).symm.trans hfind⟩

theorem KaspiOpening.oneLive (hs : s.WF) (hone : OneLive s) (h : KaspiOpening input t s p rs ws)
    (hall : ∀ q ∈ s.payments, q.live = true → q.invoiceId = input.invoiceId → q.payerUserId = input.payerUserId →
      q.id ∈ recalled input t) : OneLive (t.view s) := by
  obtain ⟨p', hp', hgoes, hrows⟩ := h.rows hs
  have hthin := h.recalls.thins hs
  have before : ∀ q, (rs.foldl Store.apply s).payment? q.id = some q → q.live = true → q ∈ s.payments :=
    fun q hq hlive => hthin q (Table.mem_of_find hq) hlive
  -- beside the new row, one of its payer would have been read and failed
  have alone : ∀ q, (rs.foldl Store.apply s).payment? q.id = some q → q.live = true → q.invoiceId = p'.invoiceId →
      q.payerUserId = p'.payerUserId → False := by
    intro q hq hlive hinvoice hpayer
    have hflight : q.status.inFlight = true := by
      by_contra hno
      rw [not_live (Bool.eq_false_of_not_eq_true hno)] at hlive
      cases hlive
    have hmem := before q hq hlive
    have hread : q.id ∈ recalled input t :=
      hall q hmem hlive (by rw [hinvoice, hgoes.invoiceId, h.invoiceId]) (by rw [hpayer, hgoes.payerUserId, h.payerUserId])
    have hfailed := marked_row h.recalls.recall (h.recalls.failed q hmem hflight hread) hq
    rw [hfailed] at hflight
    cases hflight
  intro a ha b hb hlive hlive' hinvoice hpayer
  rcases hrows a ha with rfl | ⟨-, ha'⟩
  · rcases hrows b hb with rfl | ⟨-, hb'⟩
    · rfl
    · exact (alone b hb' hlive' hinvoice.symm hpayer.symm).elim
  · rcases hrows b hb with rfl | ⟨-, hb'⟩
    · exact (alone a ha' hlive hinvoice hpayer).elim
    · exact hone a (before a ha' hlive) b (before b hb' hlive') hlive hlive' hinvoice hpayer

theorem KaspiOpening.read (hs : s.WF) (hone : OneLive (t.view s)) (h : KaspiOpening input t s p rs ws) :
    ∀ q ∈ s.payments, q.live = true → q.invoiceId = input.invoiceId → q.payerUserId = input.payerUserId →
      q.id ∈ recalled input t := by
  intro q hq hlive hinvoice hpayer
  by_contra hunread
  obtain ⟨⟨p', hp', hgoes⟩, hothers⟩ := opened_rows h.admitted h.processing
  rw [← h.view] at hp' hothers
  have hunmarked : Write.markPayment q.id .failed ∉ rs := by
    intro hm
    obtain ⟨i, hi, hw⟩ := h.recalls.writes _ hm
    cases hw
    exact hunread hi
  have hfind : (rs.foldl Store.apply s).payment? q.id = some q :=
    (unmarked_row h.recalls.recall hunmarked s).trans (Table.find_of_mem hs.paymentIds hq)
  have hfresh : (rs.foldl Store.apply s).payment? p.id = none := by
    have hadmits := h.admitted
    simp only [Store.admitsPayment, Bool.and_eq_true, Option.isNone_iff_eq_none] at hadmits
    exact hadmits.1.1.1
  have hne : q.id ≠ p.id := by
    intro hid
    rw [hid, hfresh] at hfind
    cases hfind
  have hpayerKnown : input.payerUserId.isSome = true := by
    rw [← hpayer]
    exact (Bool.and_eq_true_iff.1 hlive).2
  have hsame : q = p' := by
    refine hone q (Table.mem_of_find ((hothers q.id hne).trans hfind)) p' (Table.mem_of_find hp') hlive ?_ ?_ ?_
    · rw [hgoes.live, h.live, hpayerKnown]
    · rw [hinvoice, hgoes.invoiceId, h.invoiceId]
    · rw [hpayer, hgoes.payerUserId, h.payerUserId]
  exact hne (by rw [hsame, hgoes.id])

theorem KaspiOpening.free (h : KaspiOpening input t s p rs ws) : s.paymentByKey input.idempotencyKey = none := by
  have hadmits := h.admitted
  rw [show rs.foldl Store.apply s = ({ (Tx.start : Tx Store Key Write) with writes := rs }).view s from rfl,
    admits_of_recalls (.of_start h.recalls.recall)] at hadmits
  simp only [Store.admitsPayment, Bool.and_eq_true, Bool.not_eq_true', List.any_eq_false] at hadmits
  refine List.find?_eq_none.2 fun q hq => ?_
  rw [← h.key]
  exact hadmits.2 q hq

end

/-- What a commit of these requests has done. -/
inductive KaspiStep (s : Store) (c : BillingCommit) : Prop
  | delivered (entry : Entry) (now : Int) (id : Nat) (v : VerifyWebhookResult) (hop : c.op = .deliver entry now id v)
      (h : Delivered locks entry v.status id c.tx s)
  | initiated (now : Int) (input : PaymentService.InitiatePaymentInput) (outcome : PaymentService.ProviderOutcome)
      (hop : c.op = .initiate now input outcome) (h : KaspiInitiated input c.tx s)

/-- A commit leaves one request for each payer exactly when it has read all that it would leave beside its own. -/
theorem KaspiStep.leavesOne {s : Store} {c : BillingCommit} (hs : s.WF) (hone : OneLive s) (h : KaspiStep s c) :
    OneLive (c.tx.view s) ↔ RecallsAll s c := by
  cases h with
  | delivered entry now id v hop h =>
    refine iff_of_true (hone.thin (flown_of_delivered hs h).thins) ?_
    unfold RecallsAll
    rw [hop]
    trivial
  | initiated now input outcome hop h =>
    unfold RecallsAll
    rw [hop]
    cases h with
    | answered thin known =>
      refine iff_of_true (hone.thin thin) fun hfree => ?_
      rw [hfree] at known
      cases known
    | opened p rs ws h =>
      constructor
      · intro hview _
        exact h.read hs hview
      · intro hall
        exact h.oneLive hs hone (hall h.free)

/-! ## Runs -/

theorem movesMoney_of_kaspiTraffic {op : Op} (hop : op.kaspiTraffic = true) : op.MovesMoney := by
  cases op with
  | deliver => trivial
  | initiate => trivial
  | _ => cases hop

theorem safe_kaspiStep {s : Store} (op : Op) (hop : op.kaspiTraffic = true) :
    Prog.Safe locks Store.WF (fun _ => True) (fun t s a => KaspiStep s ⟨op, t, a⟩) op.prog .start s := by
  cases op with
  | deliver entry now id v =>
    exact (safe_deliver setting_locks now id v entry).map fun _ _ _ _ h => .delivered entry now id v rfl h
  | initiate now input outcome =>
    have atKaspi : input.provider = .kaspiPay → (outcome = .throws ∨ ∃ txn, outcome = .initiated txn) →
        Prog.Safe locks Store.WF (fun _ => True)
          (fun t s a => KaspiStep s ⟨.initiate now input outcome, t, a⟩) (Op.initiate now input outcome).prog .start s :=
      fun hprovider hout => (safe_initiateAtKaspi setting_locks hprovider hout s).map
        fun _ _ _ _ h => .initiated now input outcome rfl h
    cases outcome with
    | throws => exact atKaspi (beq_iff_eq.1 hop) (.inl rfl)
    | initiated txn => exact atKaspi (beq_iff_eq.1 hop) (.inr ⟨txn, rfl⟩)
    | completed txn => cases hop
    | failed => cases hop
  | _ => cases hop

theorem chain_kaspiSteps {n : Nat} {s : Store} {cs : Schedule n} {σ : System n} (hs : s.WF)
    (hcs : System.Starts (fun op => op.kaspiTraffic = true) cs) (hrun : run s cs = some σ) :
    Chain (fun s c => s.WF ∧ KaspiStep s c) s σ.log σ.db :=
  chain_of_covered (D := locks) (fun op hop => covered_prog op (movesMoney_of_kaspiTraffic hop))
    (fun op _ hop _ => safe_kaspiStep op hop) (fun _ c hs _ => hs.view c.tx)
    (fun s _ _ _ hcov => guarantee_locks hcov s) hs hcs hrun

/-- **Each payer of an invoice has one live request** all along exactly when every new one has read those that are
live when it commits. -/
theorem oneLive_iff {n : Nat} {s : Store} {cs : Schedule n} {σ : System n} (hs : s.WF) (hone : OneLive s)
    (hcs : System.Starts (fun op => op.kaspiTraffic = true) cs) (hrun : run s cs = some σ) :
    Always OneLive s σ.log ↔ AtEach RecallsAll s σ.log :=
  (chain_kaspiSteps hs hcs hrun).always_iff OneLive hone fun _ _ hc hi => hc.2.leavesOne hc.1 hi

/-! ## Two requests of one payer -/

/-- Payer 2 asks Kaspi for 1000 under the key. -/
def askKaspi (key txn : Nat) : Op :=
  .initiate 5 ⟨20, 10, .full, .kaspiPay, .client key, some 2, true, false⟩ (.initiated txn)

/-- The second recalls the first. -/
def kaspiInTurn : Schedule 2 := request 0 (askKaspi 7 70) 10 40 ++ (request 1 (askKaspi 8 80) 12 41 ++ [])

/-- Each has read before the other inserts. -/
def kaspiAtOnce : Schedule 2 :=
  .start 0 (askKaspi 7 70) :: (steps 0 4 40 ++ (request 1 (askKaspi 8 80) 10 41 ++ (steps 0 6 40 ++ [])))

theorem oneLive_inTurn : ∃ σ : System 2, run (Store.oneInvoice .other 1000) kaspiInTurn = some σ ∧
    σ.log.length = 2 ∧ Always OneLive (Store.oneInvoice .other 1000) σ.log := by
  obtain ⟨σ, hrun, h⟩ := run_shows run (Store.oneInvoice .other 1000) kaspiInTurn
    (fun σ => decide (σ.log.length = 2 ∧ AtEach RecallsAll (Store.oneInvoice .other 1000) σ.log)) (by decide +kernel)
  obtain ⟨hlength, hmeets⟩ := of_decide_eq_true h
  exact ⟨σ, hrun, hlength, (oneLive_iff (by decide) (by decide) (by decide) hrun).2 hmeets⟩

/-- Two requests of 1000 are open for one payer of one invoice. -/
theorem atOnce_twoLive : ∃ σ : System 2, (Store.oneInvoice .other 1000).WF ∧ OneLive (Store.oneInvoice .other 1000) ∧
    System.Starts (fun op => op.kaspiTraffic = true) kaspiAtOnce ∧
    run (Store.oneInvoice .other 1000) kaspiAtOnce = some σ ∧ ¬Always OneLive (Store.oneInvoice .other 1000) σ.log := by
  obtain ⟨σ, hrun, h⟩ := run_shows run (Store.oneInvoice .other 1000) kaspiAtOnce
    (fun σ => decide (¬Always OneLive (Store.oneInvoice .other 1000) σ.log)) (by decide +kernel)
  exact ⟨σ, by decide, by decide, by decide, hrun, of_decide_eq_true h⟩

end Billing
