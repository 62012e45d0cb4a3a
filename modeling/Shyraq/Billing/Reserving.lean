import Shyraq.Billing.Quoting
import Shyraq.Billing.Settling

/-!
# The quote that reserves

With slots taken on the way the quote is the one that the preview gives on the same store: a
discount is offered once, and its slot is there exactly when the preview sees one.
-/

namespace Billing

open Kernel Transactions

/-- Slots of capped discounts, taken and given back. -/
def Slots (w : Write) : Prop := (∃ i, w = .tryReserveUsage i) ∨ ∃ i, w = .releaseUsage i

variable {J : Store → Prop} {X : BillingError → Prop} {t t' : Tx Store Key Write} {s : Store}

theorem view_of_slots (h : Tx.Extends Slots t t') (s : Store) :
    ∃ ds, t'.view s = { t.view s with customDiscounts := ds } := by
  obtain ⟨ws, hw, hs⟩ := h.writes
  rw [view_of_writes hw]
  generalize t.view s = v
  clear hw h
  induction ws generalizing v with
  | nil => exact ⟨v.customDiscounts, rfl⟩
  | cons w ws ih =>
    obtain ⟨ds, hds⟩ := ih (fun w' hw' => hs w' (List.mem_cons_of_mem _ hw')) (v.apply w)
    refine ⟨ds, hds.trans ?_⟩
    rcases hs w List.mem_cons_self with ⟨i, rfl⟩ | ⟨i, rfl⟩ <;> rfl

theorem safe_read {A B : Type} {Q : Tx Store Key Write → Store → B → Prop} {g : Store → A} {f : A → Sql B}
    (h : Prog.Safe Discipline.serial J X Q (f (g (t.view s))) (t.saw s) s) :
    Prog.Safe Discipline.serial J X Q (Prog.bind (Prog.query g) f) t s := by
  rintro s' rfl -
  exact h

theorem safe_guardOr_serial {B : Type} {Q : Tx Store Key Write → Store → B → Prop} {c : Bool} {e : BillingError}
    {f : Unit → Sql B} (h : c = true → Prog.Safe Discipline.serial J X Q (f ()) t s) (he : c = false → X e) :
    Prog.Safe Discipline.serial J X Q (Prog.bind (guardOr c e) f) t s := by
  cases c with
  | true => exact h rfl
  | false => exact he rfl

theorem safe_each {A : Type} {P : Write → Prop} {body : A → Sql Unit} (hj : J s) (l : List A)
    (h : ∀ a ∈ l, ∀ t, Prog.Safe Discipline.serial J X (fun t' s' _ => s' = s ∧ Tx.Extends P t t') (body a) t s) :
    Prog.Safe Discipline.serial J X (fun t' s' _ => s' = s ∧ Tx.Extends P t t') (Prog.forEach body l) t s := by
  induction l generalizing t with
  | nil =>
    rintro s' rfl -
    exact ⟨rfl, .refl t⟩
  | cons a l ih =>
    refine Prog.Safe.bind hj ((h a List.mem_cons_self t).mono ?_)
    rintro t₁ s₁ - - ⟨rfl, he₁⟩
    refine (ih fun b hb => h b (List.mem_cons_of_mem _ hb)).mono ?_
    rintro t₂ s₂ - - ⟨rfl, he₂⟩
    exact ⟨rfl, he₁.trans he₂⟩

namespace InvoiceService

/-- The rows that the loop has still to look at are as they were read. -/
def Unspent (l : List CustomDiscount) (v : Store) : Prop :=
  ∀ d ∈ l, Table.find v.customDiscounts d.id = some d

theorem unspent_apply {d : CustomDiscount} {l : List CustomDiscount} (hn : ((d :: l).map CustomDiscount.id).Nodup)
    {v : Store} (h : Unspent (d :: l) v) : Unspent l (v.apply (.tryReserveUsage d.id)) := by
  intro q hq
  have hne : q.id ≠ d.id := by
    intro he
    rw [List.map_cons, List.nodup_cons] at hn
    exact hn.1 (he ▸ List.mem_map_of_mem hq)
  show Table.find (Table.updateWhere v.customDiscounts d.id Store.hasCapacity fun d =>
    { d with usedCount := d.usedCount + 1 }) q.id = some q
  rw [Table.find_updateWhere_of_ne (f := fun d : CustomDiscount => { d with usedCount := d.usedCount + 1 })
    (fun _ => rfl) hne]
  exact h q (List.mem_cons_of_mem _ hq)

theorem safe_takeSlot (hj : J s) {d : CustomDiscount} (hd : Table.find (t.view s).customDiscounts d.id = some d) :
    Prog.Safe Discipline.serial J X (fun t' s' r => s' = s ∧ r.1 = Store.hasCapacity d ∧
      Tx.Extends Slots t t' ∧ (t'.view s = t.view s ∨ t'.view s = (t.view s).apply (.tryReserveUsage d.id)))
      (takeSlot true d) t s := by
  unfold takeSlot
  cases hcap : d.totalMaxUses with
  | none =>
    rintro s' rfl -
    refine ⟨rfl, ?_, .refl t, .inl rfl⟩
    unfold Store.hasCapacity
    rw [hcap]
    rfl
  | some cap =>
    rintro s₁ rfl -
    have hhit : Relational.hit (t.view s₁) (Write.tryReserveUsage d.id) = Store.hasCapacity d := by
      show (Table.find (t.view s₁).customDiscounts d.id).any Store.hasCapacity = _
      rw [hd]
      rfl
    constructor
    · intro hh
      rintro s₂ rfl -
      exact ⟨rfl, hh.symm.trans hhit, (Tx.Extends.refl t).wrote (.inl ⟨d.id, rfl⟩),
        .inr (Tx.view_wrote t s₂ _)⟩
    · intro hh
      rintro s₂ rfl -
      exact ⟨rfl, hh.symm.trans hhit, .refl t, .inl rfl⟩

theorem safe_admitSnapshots (hj : J s) (childId : Nat) {l : List CustomDiscount}
    (hn : (l.map CustomDiscount.id).Nodup) (hl : Unspent l (t.view s)) :
    Prog.Safe Discipline.serial J X (fun t' s' r => s' = s ∧ Tx.Extends Slots t t' ∧
      r.1 = l.filter ((t.view s).belowCaps childId)) (admitSnapshots true childId l) t s := by
  induction l generalizing t with
  | nil =>
    rintro s' rfl -
    exact ⟨rfl, .refl t, rfl⟩
  | cons d l ih =>
    have hn' : (l.map CustomDiscount.id).Nodup := (List.nodup_cons.1 hn).2
    unfold admitSnapshots
    refine Prog.Safe.bind_reads hj (reads_belowChildCap (t.view s) true childId d) (by simp) ?_
    rintro below hbelow t₁ he₁
    have hv₁ : t₁.view s = t.view s := view_of_writes_eq he₁.unwritten s
    have he₁ : Tx.Extends Slots t t₁ := he₁.mono fun _ h => h.elim
    obtain rfl := Except.ok.inj hbelow
    split
    · next hb =>
      have hcaps : (t.view s).belowCaps childId d = Store.hasCapacity d := by
        unfold Store.belowCaps
        rw [hb, Bool.true_and]
      refine Prog.Safe.bind hj ((safe_takeSlot hj (by rw [hv₁]; exact hl d List.mem_cons_self)).mono ?_)
      rintro t₂ s₂ slot - ⟨rfl, hslot, he₂, hv₂⟩
      have hcaps₂ : (t₂.view s₂).belowCaps childId = (t.view s₂).belowCaps childId := by
        rcases hv₂ with h | h <;> rw [h, hv₁]
        rfl
      have hl₂ : Unspent l (t₂.view s₂) := by
        rcases hv₂ with h | h <;> rw [h, hv₁]
        · exact fun q hq => hl q (List.mem_cons_of_mem _ hq)
        · exact unspent_apply hn hl
      refine Prog.Safe.bind hj ((ih hn' hl₂).mono ?_)
      rintro t₃ s₃ others - ⟨rfl, he₃, hothers⟩
      rintro s₄ rfl -
      refine ⟨rfl, he₁.trans (he₂.trans he₃), ?_⟩
      rw [hcaps₂] at hothers
      rw [List.filter_cons, hslot, hcaps, hothers]
    · next hb =>
      have hcaps : ¬ (t.view s).belowCaps childId d = true := by
        unfold Store.belowCaps
        simp [hb]
      rw [List.filter_cons, if_neg hcaps]
      refine (ih hn' ?_).mono ?_
      · rw [hv₁]
        exact fun q hq => hl q (List.mem_cons_of_mem _ hq)
      · rintro t₂ s₂ r - ⟨rfl, he₂, hr⟩
        rw [hv₁] at hr
        exact ⟨rfl, he₁.trans he₂, hr⟩

theorem mem_targeted {v : Store} {now : Int} {childId : Nat} {d : CustomDiscount}
    (h : d ∈ v.targeted now childId) : d ∈ v.customDiscounts := by
  unfold Store.targeted at h
  rw [List.mem_filter, orderBy, List.mem_insertionSort, List.mem_filter] at h
  exact h.1.1

theorem nodup_targeted {v : Store} (hu : Table.Unique v.customDiscounts) (now : Int) (childId : Nat) :
    ((v.targeted now childId).map CustomDiscount.id).Nodup := by
  unfold Store.targeted orderBy
  refine List.Nodup.sublist (List.filter_sublist.map _) ?_
  rw [((List.perm_insertionSort _ _).map CustomDiscount.id).nodup_iff]
  exact List.Nodup.sublist (List.filter_sublist.map _) hu

theorem unspent_targeted {v : Store} (hu : Table.Unique v.customDiscounts) (now : Int) (childId : Nat) :
    Unspent (v.targeted now childId) v := fun _ hd => Table.find_of_mem hu (mem_targeted hd)

theorem safe_buildCustomDiscountInputs (hj : J s) (hu : Table.Unique (t.view s).customDiscounts) (now : Int)
    (childId : Nat) : Prog.Safe Discipline.serial J X (fun t' s' r => s' = s ∧ Tx.Extends Slots t t' ∧
      ∃ ids, r = { (t.view s).discountInputs now childId with reservedDiscountIds := ids })
      (buildCustomDiscountInputs now childId true) t s := by
  unfold buildCustomDiscountInputs
  refine safe_read (Prog.Safe.bind_reads hj (reads_filterDiscountsForChild _ now childId _) (by simp) ?_)
  rintro targeted htargeted t₁ he₁
  obtain rfl := Except.ok.inj htargeted
  have hv₁ : t₁.view s = t.view s := view_of_writes_eq he₁.unwritten s
  have hread : Tx.Extends Slots t t₁ := (((Tx.Extends.refl t).saw s).trans he₁).mono fun _ h => h.elim
  have hslots := safe_admitSnapshots (X := X) (t := t₁) hj childId (nodup_targeted hu now childId)
    (by rw [hv₁]; exact unspent_targeted hu now childId)
  refine Prog.Safe.bind hj (hslots.mono ?_)
  rintro t₂ s₂ admitted - ⟨rfl, he₂, hoffered⟩
  rw [hv₁] at hoffered
  obtain ⟨ds, hds⟩ := view_of_slots he₂ s₂
  rw [hv₁] at hds
  have he : Tx.Extends Slots t t₂ := hread.trans he₂
  refine safe_read ?_
  have hchild : (t₂.view s₂).child? childId = (t.view s₂).child? childId := by
    rw [hds]
    rfl
  rw [hchild]
  unfold Store.discountInputs Store.childContext
  cases hc : (t.view s₂).child? childId with
  | none =>
    rintro s₄ rfl -
    exact ⟨rfl, he.saw s₄, admitted.2, by rw [hoffered]; rfl⟩
  | some child =>
    refine safe_read (safe_read ?_)
    rintro s₄ rfl -
    refine ⟨rfl, ((he.saw s₄).saw s₄).saw s₄, admitted.2, ?_⟩
    simp only [Tx.view_saw, hds, hoffered]
    rfl

theorem safe_releaseUnusedReservations (hj : J s) (ids : List Nat) (discount : DiscountEngine.Result) :
    Prog.Safe Discipline.serial J X (fun t' s' _ => s' = s ∧ Tx.Extends Slots t t')
      (releaseUnusedReservations ids discount) t s := by
  refine safe_each hj ids fun id _ t => ?_
  split
  · rintro s' rfl -
    exact ⟨rfl, .refl t⟩
  · rintro s' rfl -
    constructor
    · rintro - s'' rfl -
      exact ⟨rfl, (Tx.Extends.refl t).wrote (.inr ⟨id, rfl⟩)⟩
    · rintro - s'' rfl -
      exact ⟨rfl, .refl t⟩

theorem safe_priceQuote (hj : J s) (hu : Table.Unique (t.view s).customDiscounts) (now : Int) (childId : Nat)
    (months : PrepaymentMonths) (assignment : TariffAssignment) (tariffPlan : TariffPlan) (hX : ∀ e, Store.priced
      ((t.view s).windowMonths assignment tariffPlan ((t.view s).prepaymentWindow now childId) months) months
      ((t.view s).prepaymentWindow now childId) tariffPlan
      ((t.view s).prepaymentDiscount now childId months assignment tariffPlan) = .error e → X e) :
    Prog.Safe Discipline.serial J X (fun t' s' r => s' = s ∧ Tx.Extends Slots t t' ∧
      Store.priced
        ((t.view s).windowMonths assignment tariffPlan ((t.view s).prepaymentWindow now childId) months) months
        ((t.view s).prepaymentWindow now childId) tariffPlan
        ((t.view s).prepaymentDiscount now childId months assignment tariffPlan) = .ok r)
      (priceQuote now childId months true assignment tariffPlan ((t.view s).prepaymentWindow now childId)) t s := by
  unfold priceQuote
  refine Prog.Safe.bind_reads hj (reads_quoteMonths (t.view s) _ _ _) (by simp) ?_
  rintro entries hentries t₁ he₁
  obtain rfl := Except.ok.inj hentries
  have hv₁ : t₁.view s = t.view s := view_of_writes_eq he₁.unwritten s
  refine Prog.Safe.bind hj ((safe_buildCustomDiscountInputs hj (by rw [hv₁]; exact hu) now childId).mono ?_)
  rintro t₂ s₂ custom - ⟨rfl, he₂, ids, hcustom⟩
  rw [hv₁] at hcustom
  have hext : Tx.Extends Slots t t₂ := (he₁.mono fun _ h => h.elim).trans he₂
  subst hcustom
  refine Prog.Safe.bind hj ((safe_releaseUnusedReservations hj _ _).mono ?_)
  rintro t₃ s₃ - - ⟨rfl, he₃⟩
  refine safe_guardOr_serial ?_ ?_
  · intro hsum
    rintro s₄ rfl -
    refine ⟨rfl, hext.trans he₃, ?_⟩
    exact if_pos hsum
  · intro hsum
    exact hX _ (if_neg fun h => Bool.noConfusion (h.symm.trans hsum))

/-- **One source of truth**: the quote that takes slots is the quote that the preview gives on what
this transaction sees. -/
theorem safe_computePrepaymentQuote (hj : J s) (hu : Table.Unique (t.view s).customDiscounts) (now : Int)
    (childId : Nat) (months : PrepaymentMonths) (hX : ∀ e, (t.view s).quote now childId months = .error e → X e) :
    Prog.Safe Discipline.serial J X (fun t' s' r => s' = s ∧ Tx.Extends Slots t t' ∧
      (t.view s).quote now childId months = .ok r) (computePrepaymentQuote now childId months true) t s := by
  have answered : ∀ {t' r}, Tx.Extends Slots t t' → (t.view s).quote now childId months = .ok r →
      Prog.Safe Discipline.serial J X (fun t' s' r => s' = s ∧ Tx.Extends Slots t t' ∧
        (t.view s).quote now childId months = .ok r) (Prog.ret r) t' s := by
    rintro t' r he hr s' rfl -
    exact ⟨rfl, he, hr⟩
  unfold computePrepaymentQuote
  refine safe_read ?_
  generalize hfound : (orderBy _ _).head? = found
  cases found with
  | none =>
    refine hX _ ?_
    unfold Store.quote Store.tariffFor
    rw [hfound]
  | some assignment =>
  refine safe_read ?_
  show Prog.Safe _ _ _ _ (Prog.bind (require (Table.find (t.view s).reference.tariffPlans
    assignment.tariffPlanId) _) _) _ _
  cases hplan : Table.find (t.view s).reference.tariffPlans assignment.tariffPlanId with
  | none =>
    refine hX _ ?_
    unfold Store.quote Store.tariffFor
    rw [hfound]
    dsimp only
    rw [hplan]
  | some tariffPlan =>
  show Prog.Safe _ _ _ _ (Prog.bind (guardOr (DiscountEngine.prepayPct _ _).isSome _) _) _ _
  have htariff : (t.view s).tariffFor now childId months =
      if (DiscountEngine.prepayPct tariffPlan.discountRules months).isSome then .ok (assignment, tariffPlan)
      else .error .prepaymentHorizonNotConfigured := by
    unfold Store.tariffFor
    rw [hfound]
    dsimp only
    rw [hplan]
  refine safe_guardOr_serial (fun hpct => ?_) fun hpct => hX _ ?_
  swap
  · have hrefused : (t.view s).tariffFor now childId months = .error .prepaymentHorizonNotConfigured := by
      rw [htariff, hpct]
      exact if_neg (by decide)
    unfold Store.quote
    rw [hrefused]
  rw [if_pos hpct] at htariff
  have hquote : (t.view s).quote now childId months = ((t.view s).blocked childId).elim
      ((t.view s).openQuote now childId months assignment tariffPlan) fun reason => .ok (.inl reason) := by
    unfold Store.quote
    cases (t.view s).blocked childId with
    | none => simp only [htariff, Option.elim]
    | some reason => simp only [htariff, Option.elim]
  refine Prog.Safe.bind_reads hj (reads_computeOutstandingDebt (t.view s) childId) (by simp) ?_
  rintro outstanding houtstanding t₁ he₁
  obtain rfl := Except.ok.inj houtstanding
  have hv₁ : t₁.view s = t.view s := view_of_writes_eq he₁.unwritten s
  have hext₁ : Tx.Extends Slots t t₁ :=
    ((((Tx.Extends.refl t).saw s).saw s).trans he₁).mono fun _ h => h.elim
  unfold Store.blocked at hquote
  cases hdebt : (t.view s).outstandingDebt childId with
  | some amount =>
    rw [hdebt] at hquote
    exact answered hext₁ hquote
  | none =>
  rw [hdebt] at hquote
  refine safe_read ?_
  rw [hv₁]
  refine Prog.Safe.bind_reads hj (t := t₁.saw s) (r := .ok ((t.view s).moneyHolding childId)) ?_ (by simp) ?_
  · rw [Tx.view_saw, hv₁]
    exact reads_findMoneyHolding (t.view s) childId
  rintro holding hholding t₂ he₂
  obtain rfl := Except.ok.inj hholding
  have hv₂ : t₂.view s = t.view s := (view_of_writes_eq he₂.unwritten s).trans hv₁
  have hext₂ : Tx.Extends Slots t t₂ := (hext₁.saw s).trans (he₂.mono fun _ h => h.elim)
  cases hmoney : (t.view s).moneyHolding childId with
  | some h =>
    rw [hmoney] at hquote
    exact answered hext₂ hquote
  | none =>
  rw [hmoney] at hquote
  have hquote : (t.view s).quote now childId months =
      (t.view s).openQuote now childId months assignment tariffPlan := hquote
  refine safe_read ?_
  rw [hv₂]
  show Prog.Safe _ _ _ _ (if (overlappingCovered ((t.view s).paidPrepayments now childId)
    ((t.view s).prepaymentWindow now childId) months.count).isEmpty then _ else _) _ _
  unfold Store.openQuote at hquote
  dsimp only at hquote
  split
  · next hempty =>
    rw [if_pos hempty] at hquote
    have hv₃ : (t₂.saw s).view s = t.view s := hv₂
    have hprice := safe_priceQuote (X := X) (t := t₂.saw s) hj (by rw [hv₃]; exact hu) now childId months assignment
      tariffPlan
    rw [hv₃] at hprice
    refine Prog.Safe.bind hj ((hprice fun e he => hX e (by rw [hquote, he]; rfl)).mono ?_)
    rintro t₃ s₃ quote - ⟨rfl, he₃, hq⟩
    exact answered ((hext₂.saw s₃).trans he₃) (by rw [hquote, hq]; rfl)
  · next hempty =>
    rw [if_neg hempty] at hquote
    exact answered (hext₂.saw s) hquote

end InvoiceService

end Billing
