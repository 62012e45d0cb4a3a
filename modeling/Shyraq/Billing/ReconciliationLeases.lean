import Shyraq.Billing.ReconciliationRuns

/-!
# The leases of reconciliation ticks

Claims of one payment count its attempts up, and the next check of the row is never before the end of a lease that is
still held.
-/

namespace Billing

open Kernel Transactions

/-- The claims of these commits. -/
def claims (l : List TickCommit) : List Claim := l.filterMap claim?

/-- The payments that they let go of. -/
def released (l : List TickCommit) : List Payment := l.filterMap released?

variable {l : List TickCommit}

theorem mem_claims_snoc {c : TickCommit} {x : Claim} : x ∈ claims (l ++ [c]) ↔ x ∈ claims l ∨ claim? c = some x := by
  unfold claims
  rw [List.filterMap_append, List.mem_append, List.mem_filterMap (l := [c])]
  simp

theorem mem_released_snoc {c : TickCommit} {p : Payment} (h : p ∈ released l) : p ∈ released (l ++ [c]) := by
  unfold released
  rw [List.filterMap_append]
  exact List.mem_append_left _ h

theorem released_self {c : TickCommit} {p : Payment} (h : released? c = some p) : p ∈ released (l ++ [c]) :=
  List.mem_filterMap.2 ⟨c, List.mem_append_right _ List.mem_cons_self, h⟩

/-- The claim `x` is let go of, or over at this instant. -/
def Claim.OverAt (x : Claim) (l : List TickCommit) (at_ : Int) : Prop := x.leaseUntil ≤ at_ ∨ x.payment ∈ released l

theorem Claim.OverAt.snoc {x : Claim} {at_ : Int} (h : x.OverAt l at_) (c : TickCommit) : x.OverAt (l ++ [c]) at_ :=
  h.imp_right mem_released_snoc

theorem claimsAlone_iff {c : TickCommit} : ClaimsAlone l c ↔
    ∀ x ∈ claims l, ∀ y, claim? c = some y → x.payment.id = y.payment.id → x.OverAt l y.now := by
  have hover : ∀ x : Claim, ∀ at_, (x.leaseUntil ≤ at_ ∨ ∃ e ∈ l, released? e = some x.payment) ↔ x.OverAt l at_ :=
    fun x at_ => or_congr_right List.mem_filterMap.symm
  constructor
  · intro h x hx y hy hid
    obtain ⟨d, hd, hdx⟩ := List.mem_filterMap.1 hx
    exact (hover x y.now).1 (h d hd x hdx y hy hid)
  · intro h d hd x hx y hy hid
    exact (hover x y.now).2 (h x (List.mem_filterMap.2 ⟨d, hd, hx⟩) y hy hid)

/-! ## What the claims say of the rows -/

/-- The claim `x`, of a row that still waits. -/
structure Claim.Kept (l : List TickCommit) (x : Claim) (r : Payment) : Prop where
  attempts : x.payment.reconciliationAttempts ≤ r.reconciliationAttempts
  due : ∀ n, r.nextReconciliationAt = some n → x.OverAt l n

structure Leased (l : List TickCommit) (s : Store) : Prop where
  row : ∀ x ∈ claims l, ∃ r, s.payment? x.payment.id = some r ∧ (Store.bccSchedulable r = true → x.Kept l r)
  /-- The later of two claims has found the earlier one over. -/
  order : ∀ x ∈ claims l, ∀ y ∈ claims l, x.payment.id = y.payment.id →
    x.payment.reconciliationAttempts < y.payment.reconciliationAttempts → x.OverAt l y.now
  unique : ∀ x ∈ claims l, ∀ y ∈ claims l, x.payment.id = y.payment.id →
    x.payment.reconciliationAttempts = y.payment.reconciliationAttempts → x = y

/-- The rows that wait are as they were. -/
def Untouched (s s' : Store) : Prop :=
  ∀ i r, s.payment? i = some r → ∃ r', s'.payment? i = some r' ∧ (Store.bccSchedulable r' = true → r' = r)

theorem Untouched.refl (s : Store) : Untouched s s := fun _ r hr => ⟨r, hr, fun _ => rfl⟩

theorem Tended.untouched {s s' : Store} (h : Tended s s') : Untouched s s' := by
  intro i r hr
  obtain ⟨r', hr', hsame⟩ := h.rows i r hr
  refine ⟨r', hr', fun hwaits => ?_⟩
  rcases hsame with hsame | hpast
  · exact hsame
  · rw [(schedulable_iff.1 hwaits).2.1] at hpast
    cases hpast

section

variable {d : ReconciliationDelays} {l : List TickCommit} {s s' : Store} {c : TickCommit}

theorem Leased.untouched (h : Leased l s) (hs : Untouched s s') (hno : claim? c = none) : Leased (l ++ [c]) s' := by
  have hclaims : ∀ x, x ∈ claims (l ++ [c]) → x ∈ claims l := by
    intro x hx
    rcases mem_claims_snoc.1 hx with hx | hx
    · exact hx
    · rw [hno] at hx
      cases hx
  constructor
  · intro x hx
    obtain ⟨r, hr, hkept⟩ := h.row x (hclaims x hx)
    obtain ⟨r', hr', hsame⟩ := hs _ r hr
    refine ⟨r', hr', fun hwaits => ?_⟩
    obtain rfl := hsame hwaits
    exact ⟨(hkept hwaits).attempts, fun n hn => ((hkept hwaits).due n hn).snoc c⟩
  · intro x hx y hy hid hlt
    exact (h.order x (hclaims x hx) y (hclaims y hy) hid hlt).snoc c
  · intro x hx y hy
    exact h.unique x (hclaims x hx) y (hclaims y hy)

theorem payment?_updateWhere (s : Store) (i : Nat) (p : Payment → Bool) {f : Payment → Payment}
    (hf : ∀ r, Row.id (f r) = Row.id r) (j : Nat) :
    ({ s with payments := Table.updateWhere s.payments i p f } : Store).payment? j =
      (s.payment? j).map fun r => if j = i ∧ p r = true then f r else r :=
  Table.find_updateWhere s.payments i p f hf j

theorem untouched_updateWhere (s : Store) (i : Nat) (p : Payment → Bool) {f : Payment → Payment}
    (hf : ∀ r, Row.id (f r) = Row.id r) (hgone : ∀ r, Store.bccSchedulable (f r) = false) :
    Untouched s { s with payments := Table.updateWhere s.payments i p f } := by
  intro j r hr
  refine ⟨_, (payment?_updateWhere s i p hf j).trans (by rw [hr]; rfl), fun hwaits => ?_⟩
  beta_reduce at hwaits ⊢
  by_cases hc : j = i ∧ p r = true
  · rw [if_pos hc, hgone] at hwaits
    cases hwaits
  · rw [if_neg hc]

theorem Leased.claim (h : Leased l s) {id : Nat} {now leaseUntil : Int} {p : Payment} {t : Tx Store Key Write}
    (hlease : now ≤ leaseUntil) (hw : t.writes = [.reconcile id (.claim now leaseUntil)])
    (hrow : s.payment? id = some p) (hdue : Store.reconcilable (.claim now leaseUntil) p = true)
    (hc : claim? c = some ⟨(ReconciliationPatch.claim now leaseUntil).set p, now, leaseUntil⟩) :
    ClaimsAlone l c ∧ Leased (l ++ [c]) (t.view s) := by
  obtain ⟨hwaits, hnext⟩ := Bool.and_eq_true_iff.1 hdue
  obtain ⟨n, hn, hle⟩ := (Option.any_eq_true _ _).1 hnext
  have hle : n ≤ now := of_decide_eq_true hle
  have hid : p.id = id := Table.id_of_find hrow
  -- the claims that this one finds
  have hfound : ∀ x ∈ claims l, x.payment.id = id → x.Kept l p := by
    intro x hx hxid
    obtain ⟨r, hr, hkept⟩ := h.row x hx
    rw [hxid] at hr
    obtain rfl := Option.some.inj (hrow.symm.trans hr)
    exact hkept hwaits
  have hover : ∀ x ∈ claims l, x.payment.id = id → ∀ at_, now ≤ at_ → x.OverAt l at_ := by
    intro x hx hxid at_ hat
    rcases (hfound x hx hxid).due n hn with hx | hx
    · exact .inl (by omega)
    · exact .inr hx
  have hview : ∀ j, (t.view s).payment? j = (s.payment? j).map fun r =>
      if j = id ∧ Store.reconcilable (.claim now leaseUntil) r = true
        then (ReconciliationPatch.claim now leaseUntil).set r else r := by
    intro j
    rw [view_of_single hw]
    exact payment?_updateWhere s id _ (ReconciliationPatch.id_set _) j
  have hself : (t.view s).payment? id = some ((ReconciliationPatch.claim now leaseUntil).set p) := by
    rw [hview, hrow]
    simp [hdue]
  refine ⟨claimsAlone_iff.2 fun x hx y hy hxy => ?_, ⟨fun x hx => ?_, fun x hx y hy hxy hlt => ?_, fun x hx y hy hxy heq => ?_⟩⟩
  · rw [hc] at hy
    cases hy
    exact hover x hx (hxy.trans hid) now (le_refl _)
  · rcases mem_claims_snoc.1 hx with hx | hx
    · by_cases hxid : x.payment.id = id
      · refine ⟨_, hxid ▸ hself, fun _ => ⟨?_, fun m hm => ?_⟩⟩
        · exact Nat.le_succ_of_le (hfound x hx hxid).attempts
        · cases hm
          exact (hover x hx hxid leaseUntil hlease).snoc c
      · obtain ⟨r, hr, hkept⟩ := h.row x hx
        refine ⟨r, ?_, fun hr => ⟨(hkept hr).attempts, fun m hm => ((hkept hr).due m hm).snoc c⟩⟩
        rw [hview, hr]
        simp [hxid]
    · rw [hc] at hx
      cases hx
      refine ⟨_, (congrArg _ hid).trans hself, fun _ => ⟨le_refl _, fun m hm => ?_⟩⟩
      cases hm
      exact .inl (le_refl _)
  · rcases mem_claims_snoc.1 hx with hx | hx <;> rcases mem_claims_snoc.1 hy with hy | hy
    · exact (h.order x hx y hy hxy hlt).snoc c
    · rw [hc] at hy
      cases hy
      exact (hover x hx (hxy.trans hid) now (le_refl _)).snoc c
    · rw [hc] at hx
      cases hx
      have hy' := (hfound y hy (hxy.symm.trans hid)).attempts
      have hlt : p.reconciliationAttempts + 1 < y.payment.reconciliationAttempts := hlt
      omega
    · rw [hc] at hx hy
      cases hx
      cases hy
      exact absurd hlt (Nat.lt_irrefl _)
  · rcases mem_claims_snoc.1 hx with hx | hx <;> rcases mem_claims_snoc.1 hy with hy | hy
    · exact h.unique x hx y hy hxy heq
    · rw [hc] at hy
      cases hy
      have hx' := (hfound x hx (hxy.trans hid)).attempts
      have heq : x.payment.reconciliationAttempts = p.reconciliationAttempts + 1 := heq
      omega
    · rw [hc] at hx
      cases hx
      have hy' := (hfound y hy (hxy.symm.trans hid)).attempts
      have heq : p.reconciliationAttempts + 1 = y.payment.reconciliationAttempts := heq
      omega
    · exact Option.some.inj (hx.symm.trans hy)

theorem Leased.reschedule (h : Leased l s) {payment : Payment} {hardCapAt now : Int} {t : Tx Store Key Write}
    {a : TickAnswer} (hw : t.writes = [.scheduleBccReconciliation payment.id (nextCheckAt d payment hardCapAt now)])
    (hcap : now < hardCapAt) (hclaim : ∃ e ∈ l, claim? e = some ⟨payment, now, now + d.max⟩)
    (hheld : StillHeld s ⟨.reschedule payment hardCapAt now, t, a⟩) :
    Leased (l ++ [⟨.reschedule payment hardCapAt now, t, a⟩]) (t.view s) := by
  obtain ⟨e, he, hclaim⟩ := hclaim
  have hmine : (⟨payment, now, now + d.max⟩ : Claim) ∈ claims l := List.mem_filterMap.2 ⟨e, he, hclaim⟩
  have hlater : now ≤ nextCheckAt d payment hardCapAt now := by
    have hdelay := delay_pos d payment.reconciliationAttempts
    exact Int.le_min.2 ⟨by omega, by omega⟩
  have hclaims : ∀ x, x ∈ claims (l ++ [⟨.reschedule payment hardCapAt now, t, a⟩]) → x ∈ claims l := by
    intro x hx
    rcases mem_claims_snoc.1 hx with hx | hx
    · exact hx
    · cases hx
  constructor
  · intro x hx
    have hx := hclaims x hx
    obtain ⟨r, hr, hkept⟩ := h.row x hx
    have hview : (t.view s).payment? x.payment.id = some (if x.payment.id = payment.id ∧ Store.bccSchedulable r = true
        then { r with nextReconciliationAt := some (nextCheckAt d payment hardCapAt now) } else r) := by
      rw [view_of_single hw]
      refine (payment?_updateWhere s payment.id Store.bccSchedulable
        (f := fun p : Payment => { p with nextReconciliationAt := some (nextCheckAt d payment hardCapAt now) })
        (fun _ => rfl) _).trans ?_
      rw [hr]
      rfl
    refine ⟨_, hview, ?_⟩
    by_cases hrow : x.payment.id = payment.id ∧ Store.bccSchedulable r = true
    · rw [if_pos hrow]
      obtain ⟨hid, hwaits⟩ := hrow
      refine fun _ => ⟨(hkept hwaits).attempts, fun n hn => ?_⟩
      cases hn
      -- the row counts what this tick has claimed, so no claim is later than its own
      have hcount := hheld r (Table.mem_of_find hr) ((Table.id_of_find hr).trans hid) hwaits
      rcases Nat.lt_or_eq_of_le (hcount ▸ (hkept hwaits).attempts) with hlt | heq
      · rcases h.order x hx _ hmine hid hlt with hover | hover
        · have hover : x.leaseUntil ≤ now := hover
          exact .inl (by omega)
        · exact .inr (mem_released_snoc hover)
      · obtain rfl := h.unique x hx _ hmine hid heq
        exact .inr (released_self rfl)
    · rw [if_neg hrow]
      exact fun hwaits => ⟨(hkept hwaits).attempts, fun n hn => ((hkept hwaits).due n hn).snoc _⟩
  · intro x hx y hy hid hlt
    exact (h.order x (hclaims x hx) y (hclaims y hy) hid hlt).snoc _
  · intro x hx y hy
    exact h.unique x (hclaims x hx) y (hclaims y hy)

theorem Leased.step (h : Leased l s) (hQ : TickEffect d c.op c.tx s c.result) (hok : Orderly d l c)
    (hheld : StillHeld s c) : ClaimsAlone l c ∧ Leased (l ++ [c]) (c.tx.view s) := by
  have alone : claim? c = none → ClaimsAlone l c := fun hno => claimsAlone_iff.2 fun x _ y hy => by
    rw [hno] at hy
    cases hy
  have kept : claim? c = none → Untouched s (c.tx.view s) → ClaimsAlone l c ∧ Leased (l ++ [c]) (c.tx.view s) :=
    fun hno hs => ⟨alone hno, h.untouched hs hno⟩
  have unwritten : claim? c = none → c.tx.writes = [] → ClaimsAlone l c ∧ Leased (l ++ [c]) (c.tx.view s) := by
    intro hno hw
    refine kept hno ?_
    rw [Tx.view_of_unwritten hw]
    exact .refl s
  obtain ⟨op, t, a⟩ := c
  cases hQ with
  | billing htended => exact kept rfl htended.untouched
  | found hw => exact unwritten rfl hw
  | unclaimed hw => exact unwritten rfl hw
  | claimed p hw hrow hdue =>
    have hlease : _ = _ := hok
    refine h.claim ?_ hw hrow hdue rfl
    have := d.max_pos
    omega
  | rescheduled hw =>
    rcases hw with hw | hw
    · exact unwritten rfl hw
    · exact ⟨alone rfl, h.reschedule hw hok.1 hok.2 hheld⟩
  | reviewed hw =>
    rcases hw with hw | hw
    · exact unwritten rfl hw
    · refine kept rfl ?_
      rw [view_of_single hw]
      refine untouched_updateWhere s _ _ (ReconciliationPatch.id_set _) fun r => ?_
      show (_ && Option.isNone (some _)) = false
      rw [Option.isNone_some, Bool.and_false]

theorem leased_nil (s : Store) : Leased [] s := by
  constructor <;> exact fun x hx => absurd hx List.not_mem_nil

theorem leased (hok : ∀ p c, p ++ [c] <+: l → Orderly d p c)
    (hQ : AtEach (fun s c => TickEffect d c.op c.tx s c.result ∧ StillHeld s c) s l) :
    Exclusive l ∧ Leased l (replay s l) := by
  induction l using List.reverseRecOn with
  | nil =>
    refine ⟨fun p c hp => ?_, leased_nil s⟩
    exact absurd (List.prefix_nil.1 hp) (List.append_ne_nil_of_right_ne_nil p (List.cons_ne_nil c []))
  | append_singleton l c ih =>
    rw [atEach_snoc] at hQ
    obtain ⟨hexclusive, hleased⟩ := ih (fun p e hp => hok p e (hp.trans (List.prefix_append l [c]))) hQ.1
    obtain ⟨halone, hleased⟩ := hleased.step hQ.2.1 (hok l c List.prefix_rfl) hQ.2.2
    rw [replay_snoc]
    refine ⟨fun p e hp => ?_, hleased⟩
    rcases List.prefix_concat_iff.1 hp with hp | hp
    · obtain ⟨rfl, he⟩ := List.append_inj' hp rfl
      rw [List.singleton_inj.1 he]
      exact halone
    · exact hexclusive p e hp

end

/-! ## Every run -/

section

variable {n : Nat} {d : ReconciliationDelays} {s : Store} {l : List TickCommit}

theorem reviewsAreFinal (h : History (reconciliation d s) l) : ReviewsAreFinal s l := by
  intro p c hp q hq r hr hmanual y hy hid
  have hpast := h.of_prefix ((List.prefix_append p [c]).trans hp)
  have hbefore : Later (reconciliation d s) q p := ⟨hq, hpast⟩
  have hclosed : RowClosed (replay s p) r.id := by
    have hrow := Table.find_of_mem (hpast.of_prefix hq).inv.1.paymentIds hr
    refine RowClosed.onward ⟨r, hrow, ?_⟩ (onward_later hbefore)
    unfold Payment.closed
    rw [hmanual, Bool.or_true]
  have hat := (h.of_prefix hp).chain.atEach
  rw [atEach_snoc] at hat
  obtain ⟨op, t, a⟩ := c
  obtain ⟨-, hQ, -⟩ := hat.2
  cases hQ with
  | claimed u hw hrow hdue =>
    cases hy
    obtain ⟨v, hv, hclosed⟩ := hclosed
    have hclaimed : u.id = r.id := hid
    rw [hclaimed.symm.trans (Table.id_of_find hrow)] at hv
    obtain rfl := Option.some.inj (hrow.symm.trans hv)
    rw [not_closed (Bool.and_eq_true_iff.1 hdue).1] at hclosed
    cases hclosed
  | _ => cases hy

theorem ticksOn {ended : List (Ended Store Processed BccReconciliationJobData)}
    (h : ∀ e ∈ ended, JobPost d s e.job e.began l e.result) : TicksOn ended (replay s l) := by
  intro e he p hp hid hbcc
  obtain ⟨hwf, htick, henqueued⟩ := h e he
  rcases htick p (hid ▸ Table.find_of_mem hwf.paymentIds hp) hbcc with hagain | ⟨p', hp', hclosed⟩
  · refine .inl ⟨hagain.1, hagain.2, henqueued.trans ?_⟩
    unfold BccReconciliationProcessor.furtherTick
    rw [if_pos hagain]
  · exact .inr ⟨p', Table.mem_of_find hp', (Table.id_of_find hp').trans hid.symm, hclosed⟩

/-- **Reconciliation loses no payment**, whatever runs beside the ticks; and no lease is held twice where each tick lets
go only of what no other has claimed since. -/
theorem reconcile_loses_nothing (d : ReconciliationDelays) (hs : s.WF) (ht : AllTracked s)
    {es : List (ReconciliationEvent n)} (hes : Jobs.Requests (fun op => op.ordinary = true) es) {σ : Reconciliations n}
    (hrun : reconcile d s es = some σ) :
    Always AllTracked s σ.sys.log ∧ TicksOn σ.ended σ.sys.db ∧ ReviewsAreFinal s σ.sys.log ∧
      (AtEach StillHeld s σ.sys.log → Exclusive σ.sys.log) := by
  obtain ⟨⟨hl, hdb⟩, hended⟩ := Jobs.exec_sound (setting_reconciliation hs ht) hes hrun
  refine ⟨?_, ?_, reviewsAreFinal hl, fun hheld => ?_⟩
  · exact hl.chain.always AllTracked ht fun s c _ hc => hc.2.1.tracked hc.1.1 hc.1.2
  · rw [← hdb]
    exact ticksOn hended
  · exact (leased hl.ok ((hl.chain.atEach.mono fun _ _ h => h.2.1).and hheld)).1

end

/-! ## A tick that outlives its lease -/

/-- One BCC payment of 1000, due for its check. -/
def Store.oneDue : Store :=
  { Store.oneInvoice .other 1000 with
    payments := [{ gatewayPayment 30 1000 with provider := .bcc, nextReconciliationAt := some 0 }] }

/-- A transaction of the job, in so many steps. -/
def calling {n : Nat} (i : Fin n) (k : Nat) (es : List (ReconciliationEvent n)) : List (ReconciliationEvent n) :=
  .call i :: (List.replicate k (.step i 0) ++ es)

/-- A tick up to its status request. -/
def claiming {n : Nat} (i : Fin n) (now : Int) (es : List (ReconciliationEvent n)) : List (ReconciliationEvent n) :=
  .enter i ⟨30, 0⟩ :: calling i 2 (.hear i ⟨now, none⟩ :: calling i 3 es)

/-- The status request throws. -/
def askingAgain {n : Nat} (i : Fin n) (es : List (ReconciliationEvent n)) : List (ReconciliationEvent n) :=
  .hear i ⟨0, none⟩ :: calling i 2 (.finish i :: es)

def ticksInTurn : List (ReconciliationEvent 2) := claiming 0 0 (askingAgain 0 (claiming 1 300000 (askingAgain 1 [])))

/-- The first asks again after its lease, while the second waits for the gateway. -/
def ticksAtOnce : List (ReconciliationEvent 3) :=
  claiming 0 0 (claiming 1 3600000 (askingAgain 0 (claiming 2 3700000 [])))

theorem reconcile_shows {n : Nat} (s : Store) (es : List (ReconciliationEvent n)) (p : Reconciliations n → Bool)
    (h : (reconcile .default s es).any p = true) : ∃ σ, reconcile .default s es = some σ ∧ p σ = true :=
  Option.any_eq_true _ _ |>.1 h

theorem reconcile_inTurn : ∃ σ : Reconciliations 2, reconcile .default .oneDue ticksInTurn = some σ ∧
    σ.ended.length = 2 ∧ Always AllTracked .oneDue σ.sys.log ∧ TicksOn σ.ended σ.sys.db ∧ Exclusive σ.sys.log := by
  obtain ⟨σ, hrun, h⟩ := reconcile_shows .oneDue ticksInTurn
    (fun σ => decide (σ.ended.length = 2 ∧ AtEach StillHeld .oneDue σ.sys.log)) (by decide +kernel)
  obtain ⟨hlength, hheld⟩ := of_decide_eq_true h
  obtain ⟨htracked, hticks, -, halone⟩ := reconcile_loses_nothing .default (by decide) (by decide) (by decide) hrun
  exact ⟨σ, hrun, hlength, htracked, hticks, halone hheld⟩

/-- The third tick claims the payment while the second holds it. -/
theorem atOnce_claimedTwice : ∃ σ : Reconciliations 3, Store.oneDue.WF ∧ AllTracked Store.oneDue ∧
    Jobs.Requests (fun op => op.ordinary = true) ticksAtOnce ∧
    reconcile .default .oneDue ticksAtOnce = some σ ∧ ¬Exclusive σ.sys.log := by
  obtain ⟨σ, hrun, h⟩ := reconcile_shows .oneDue ticksAtOnce
    (fun σ => decide (¬Exclusive σ.sys.log)) (by decide +kernel)
  exact ⟨σ, by decide, by decide, by decide, hrun, of_decide_eq_true h⟩

end Billing
