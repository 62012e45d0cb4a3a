import Shyraq.Billing.MonthLocks

/-!
# What a settled prepayment does to the monthlies of its window

The settlement locks the months, reads the live monthlies of the child and goes over them one by
one.  When it is through, each of them is cancelled, is past being unpaid, or holds money; and no
other can come up before the commit.
-/

namespace Billing

open Kernel Transactions

/-! ## Surroundings -/

/-- A monthly that is marked `paid` or `partial` holds money, some `old` ones apart. -/
def Shown (old : Nat → Prop) (s : Store) : Prop :=
  ∀ i m, s.invoice? i = some m → m.invoiceType = .monthly → (m.status = .paid ∨ m.status = .partial_) →
    s.hasMoney i = true ∨ old i

/-- Prepayments that are still to be settled lock every month of their windows. -/
def Anchorage (s : Store) : Prop :=
  ∀ i p, s.invoice? i = some p → p.invoiceType.isPrepayment = true → p.status.unpaid = true → p.Anchored

structure MonthSetting (D : Discipline Store Key Write) (J : Store → Prop) (X : BillingError → Prop)
    (old : Nat → Prop) : Prop extends Setting D J X where
  months : ∀ {held s s'}, D.rely held s s' → MonthMoves held s s'
  shown : ∀ {s}, J s → Shown old s
  anchorage : ∀ {s}, J s → Anchorage s

variable {D : Discipline Store Key Write} {J : Store → Prop} {X : BillingError → Prop}
  {old : Nat → Prop} {t t' : Tx Store Key Write} {s s' : Store}

theorem MonthSetting.and (M : MonthSetting D J X old) (φ : Store → Prop) :
    MonthSetting D (fun s => J s ∧ φ s) X old where
  toSetting := M.toSetting.and φ
  months := M.months
  shown h := M.shown h.1
  anchorage h := M.anchorage h.1

/-! ## Monthlies that are dealt with -/

/-- Cancelled here, past being unpaid, or holding money. -/
def Closed (t : Tx Store Key Write) (s : Store) (i : Nat) : Prop :=
  .markInvoice i .cancelled ∈ t.writes ∨ (∃ m, s.invoice? i = some m ∧ m.status.unpaid = false) ∨
    s.hasMoney i = true

theorem keep_closed {held : List Key} {i : Nat} (hm : MonthMoves held s s') (h : Closed t s i) : Closed t s' i := by
  rcases h with h | ⟨m, hi, hu⟩ | h
  · exact .inl h
  · obtain ⟨m', hi', hs, -⟩ := hm.invoices.row i m hi
    exact .inr (.inl ⟨m', hi', unpaid_of_reaches hs.2 hu⟩)
  · exact .inr (.inr (hm.money i h))

theorem Closed.extends {P : Write → Prop} {i : Nat} (h : Closed t s i) (he : Tx.Extends P t t') : Closed t' s i := by
  rcases h with h | h
  · obtain ⟨ws, hw, -⟩ := he.writes
    rw [Closed, hw]
    exact .inl (List.mem_append_left _ h)
  · exact .inr h

theorem invoice_view_of_unmarked {i : Nat} (hinv : ∀ w ∈ t.writes, ∀ j, w ≠ .insertInvoice j)
    (hmark : ∀ f, .markInvoice i f ∉ t.writes) (s : Store) : (t.view s).invoice? i = s.invoice? i := by
  unfold Tx.view
  generalize t.writes = ws at hinv hmark
  induction ws generalizing s with
  | nil => rfl
  | cons w ws ih =>
    refine (ih (s.apply w) (fun w' hw' => hinv w' (List.mem_cons_of_mem _ hw'))
      fun f hf => hmark f (List.mem_cons_of_mem _ hf)).trans ?_
    unfold Store.invoice?
    by_cases ht : w.table = .invoices
    · cases w with
      | insertInvoice j => exact absurd rfl (hinv _ List.mem_cons_self j)
      | markInvoice j f =>
        refine Table.find_updateWhere_of_ne (f := f.set) (fun _ => rfl) ?_
        rintro rfl
        exact hmark f List.mem_cons_self
      | _ => cases ht
    · rw [Store.invoices_apply s w ht]

/-! ## The loop over the monthlies -/

/-- What the loop may assume of the transaction that it runs in: its marks are on `p`, or
cancel monthlies. -/
structure Marks (p : Nat) (t : Tx Store Key Write) : Prop where
  inserts : ∀ w ∈ t.writes, ∀ i, w ≠ .insertInvoice i
  marks : ∀ i f, .markInvoice i f ∈ t.writes → i = p ∨ f = .cancelled

theorem Marks.extends {p : Nat} {ids : List Nat} (h : Marks p t) (he : Tx.Extends (Voiding ids) t t') :
    Marks p t' := by
  obtain ⟨ws, hw, hv⟩ := he.writes
  constructor
  · intro w hmem i
    rw [hw] at hmem
    rcases List.mem_append.1 hmem with hmem | hmem
    · exact h.inserts w hmem i
    · rintro rfl
      rcases hv _ hmem with ⟨n, h⟩ | ⟨j, h⟩ | ⟨j, -, h⟩ <;> cases h
  · intro i f hmem
    rw [hw] at hmem
    rcases List.mem_append.1 hmem with hmem | hmem
    · exact h.marks i f hmem
    · rcases hv _ hmem with ⟨n, h⟩ | ⟨j, h⟩ | ⟨j, -, h⟩ <;> cases h
      exact .inr rfl

theorem closed_of_miss {p i : Nat} (ht : Marks p t) (hi : i ≠ p) (hrow : ∃ m, s.invoice? i = some m)
    (hmiss : Store.hit (t.view s) (.markInvoice i .cancelled) = false) : Closed t s i := by
  by_cases hmine : .markInvoice i .cancelled ∈ t.writes
  · exact .inl hmine
  · obtain ⟨m, hm⟩ := hrow
    have hview : (t.view s).invoice? i = some m := by
      rw [invoice_view_of_unmarked ht.inserts (fun f hf => ?_) s, hm]
      rcases ht.marks i f hf with h | rfl
      · exact hi h
      · exact hmine hf
    have hany : ((t.view s).invoice? i).any (InvoiceFlip.accepts .cancelled) = false := hmiss
    rw [hview] at hany
    exact .inr (.inl ⟨m, hm, hany⟩)

theorem safe_cancelCoveredMonthly (M : MonthSetting D J X old) {p : Nat} {paidSums : Nat → Int}
    {m : Invoice} {ids : List Nat} (hid : m.id ∈ ids) (ht : Marks p t) (hp : m.id ≠ p)
    (hrow : ∀ s, J s → ∃ r, s.invoice? m.id = some r)
    (hskip : m.status = .paid ∨ m.status = .partial_ ∨ 0 < paidSums m.id →
      ∀ s, J s → Closed t s m.id ∨ old m.id) :
    Prog.Safe D J X (fun t' s' _ => Tx.Extends (Voiding ids) t t' ∧ (Closed t' s' m.id ∨ old m.id))
      (cancelCoveredMonthly paidSums m) t s := by
  unfold cancelCoveredMonthly
  split
  · next h => exact fun s' _ hj' => ⟨.refl t, hskip h s' hj'⟩
  · refine safe_returning ?_ ?_
    · intro s₁ _ hj₁ _
      have hread : Prog.OnlyWrites (Voiding ids) (InvoiceRepository.findById m.id) := fun _ => trivial
      refine (Prog.Safe.of_onlyWrites (hread.bind fun cancelled => ?_) M.throws hj₁).mono fun t' s' _ _ h => ?_
      · cases cancelled with
        | none => exact fun _ => trivial
        | some r =>
          exact (onlyWrites_releaseUsages fun i => .inr (.inl ⟨i, rfl⟩)).bind fun _ =>
            onlyWrites_notify (.inl ⟨_, rfl⟩)
      · have he := ((Tx.Extends.refl t).wrote (w := .markInvoice m.id .cancelled)
          (.inr (.inr ⟨m.id, hid, rfl⟩))).trans h.1
        refine ⟨he, .inl (.inl ?_)⟩
        obtain ⟨ws, hw, -⟩ := h.1.writes
        rw [hw]
        exact List.mem_append_left _ (List.mem_append_right _ List.mem_cons_self)
    · intro s₁ _ hj₁ hmiss
      have hclosed := closed_of_miss ht hp (hrow s₁ hj₁) hmiss
      intro s₂ hr₂ _ s₃ hr₃ _
      have hm := (M.months hr₂).trans (M.months hr₃)
      exact ⟨(Tx.Extends.refl t).saw s₂, .inl (keep_closed (t := t) hm hclosed)⟩

theorem safe_cancelAll (M : MonthSetting D J X old) {p : Nat} {paidSums : Nat → Int}
    {l : List Invoice} {ids : List Nat} (hids : ∀ m ∈ l, m.id ∈ ids) (ht : Marks p t)
    (hp : ∀ m ∈ l, m.id ≠ p) (hj : J s) (hrow : ∀ s, J s → ∀ m ∈ l, ∃ r, s.invoice? m.id = some r)
    (hskip : ∀ m ∈ l, m.status = .paid ∨ m.status = .partial_ ∨ 0 < paidSums m.id →
      ∀ s, J s → Closed t s m.id ∨ old m.id) : Prog.Safe D J X
      (fun t' s' _ => Tx.Extends (Voiding ids) t t' ∧ ∀ m ∈ l, Closed t' s' m.id ∨ old m.id)
      (Prog.forEach (cancelCoveredMonthly paidSums) l) t s := by
  induction l generalizing J t s with
  | nil => exact fun s' _ _ => ⟨.refl t, by simp⟩
  | cons m l ih =>
    refine Prog.Safe.bind hj ((safe_cancelCoveredMonthly M (hids m List.mem_cons_self) ht
      (hp m List.mem_cons_self) (fun s hj => hrow s hj m List.mem_cons_self)
      (hskip m List.mem_cons_self)).mono fun t₁ s₁ _ hj₁ h => ?_)
    obtain ⟨he, hm⟩ := h
    -- what is closed stays closed while the rest of the list runs
    refine Prog.Safe.keep (fun s => Closed t₁ s m.id ∨ old m.id) [] (by simp) ?_ hj₁ hm ?_
    · intro s s' hr _ _ h
      exact h.imp_left (keep_closed (M.months hr))
    · refine (ih (M.and _) (fun q hq => hids q (List.mem_cons_of_mem _ hq)) (ht.extends he)
        (fun q hq => hp q (List.mem_cons_of_mem _ hq)) ⟨hj₁, hm⟩
        (fun s hj q hq => hrow s hj.1 q (List.mem_cons_of_mem _ hq)) ?_).mono ?_
      · intro q hq hs s hj
        exact (hskip q (List.mem_cons_of_mem _ hq) hs s hj.1).imp_left fun h => h.extends he
      · rintro t' s' _ ⟨-, hm'⟩ ⟨he', hrest⟩
        refine ⟨he.trans he', fun q hq => ?_⟩
        rcases List.mem_cons.1 hq with rfl | hq
        · exact hm'.imp_left fun h => h.extends he'
        · exact hrest q hq

/-! ## The hook -/

/-- A monthly of the same child that begins with a month of the window. -/
structure Invoice.Overlaps (p m : Invoice) : Prop where
  monthly : m.invoiceType = .monthly
  child : m.childId = p.childId
  aligned : m.periodStart = monthStart (monthOf m.periodStart)
  covered : p.covers m.periodStart

variable {p : Invoice}

theorem Invoice.Overlaps.of_step {m m' : Invoice} (h : p.Overlaps m') (hs : Invoice.Step m m') : p.Overlaps m := by
  obtain ⟨hm, hc, ha, hw⟩ := h
  rw [hs.1] at hm hc ha hw
  exact ⟨hm, hc, ha, hw⟩

/-- The months of the window are locked, and every overlapping monthly is dealt with. -/
structure Superseded (old : Nat → Prop) (p : Invoice) (t : Tx Store Key Write) (s : Store) : Prop where
  locked : ∀ k ∈ p.lockedMonths, Key.monthly k ∈ t.held
  closed : ∀ i m, s.invoice? i = some m → p.Overlaps m → Closed t s i ∨ old i

/-- The live ones are among these. -/
def Listed (p : Invoice) (ids : List Nat) (s : Store) : Prop :=
  ∀ i m, s.invoice? i = some m → p.Overlaps m → m.status.live = true → i ∈ ids

theorem live_of_reaches {a b : InvoiceStatus} (h : a.reaches b = true) (hb : b.live = true) : a.live = true := by
  revert h hb
  cases a <;> cases b <;> simp [InvoiceStatus.reaches, InvoiceStatus.live]

theorem unpaid_of_not_live {a : InvoiceStatus} (h : a.live = false) : a.unpaid = false := by
  revert h
  cases a <;> simp [InvoiceStatus.live, InvoiceStatus.unpaid]

theorem overlapping_before {held : List Key} {m : Invoice} {i : Nat} (ha : p.Anchored)
    (hk : ∀ k ∈ p.lockedMonths, Key.monthly k ∈ held) (hm : MonthMoves held s s')
    (hi : s'.invoice? i = some m) (ho : p.Overlaps m) : ∃ m₀, s.invoice? i = some m₀ ∧ Invoice.Step m₀ m := by
  have hlocked := hk _ (ha (monthOf m.periodStart) (ho.aligned ▸ ho.covered))
  obtain ⟨m₀, hm₀⟩ := hm.billed _ hlocked i m hi ho.monthly ho.aligned
  obtain ⟨m', hm', hs, -⟩ := hm.invoices.row i m₀ hm₀
  obtain rfl := Option.some.inj (hm'.symm.trans hi)
  exact ⟨m₀, hm₀, hs⟩

theorem keep_listed {held : List Key} {ids : List Nat} (ha : p.Anchored)
    (hk : ∀ k ∈ p.lockedMonths, Key.monthly k ∈ held) (hm : MonthMoves held s s') (h : Listed p ids s) :
    Listed p ids s' := by
  intro i m hi ho hl
  obtain ⟨m₀, hm₀, hs⟩ := overlapping_before ha hk hm hi ho
  exact h i m₀ hm₀ (ho.of_step hs) (live_of_reaches hs.2 hl)

theorem keep_superseded {held : List Key} (ha : p.Anchored) (hh : t.held ⊆ held)
    (hm : MonthMoves held s s') (h : Superseded old p t s) : Superseded old p t s' where
  locked := h.locked
  closed := by
    intro i m hi ho
    obtain ⟨m₀, hm₀, hs⟩ := overlapping_before ha (fun k hk => hh (h.locked k hk)) hm hi ho
    exact (h.closed i m₀ hm₀ (ho.of_step hs)).imp_left (keep_closed hm)

theorem Superseded.extends {P : Write → Prop} (h : Superseded old p t s)
    (he : Tx.Extends P t t') : Superseded old p t' s where
  locked k hk := he.held (h.locked k hk)
  closed i m hi ho := (h.closed i m hi ho).imp_left fun h => h.extends he

theorem superseded_of_listed {l : List Invoice}
    (hk : ∀ k ∈ p.lockedMonths, Key.monthly k ∈ t.held) (hl : Listed p (l.map Invoice.id) s)
    (hc : ∀ m ∈ l, Closed t s m.id ∨ old m.id) : Superseded old p t s where
  locked := hk
  closed := by
    intro i m hi ho
    by_cases hlive : m.status.live = true
    · obtain ⟨q, hq, rfl⟩ := List.mem_map.1 (hl i m hi ho hlive)
      exact hc q hq
    · exact .inl (.inr (.inl ⟨m, hi, unpaid_of_not_live (by simpa using hlive)⟩))

theorem safe_lockMonths {A : Type} {Q : Tx Store Key Write → Store → A → Prop} {days : List Int}
    {f : Unit → Sql A} (hj : J s)
    (h : ∀ t' s', Tx.Extends (fun _ => False) t t' → (∀ k ∈ days.map monthOf, Key.monthly k ∈ t'.held) →
      J s' → Prog.Safe D J X Q (f ()) t' s') : Prog.Safe D J X Q
      (Prog.bind (Prog.forEach InvoiceRepository.acquireMonthlyGenerationAdvisoryLock days) f) t s := by
  induction days generalizing t s with
  | nil => exact h t s (.refl t) (by simp) hj
  | cons d days ih =>
    simp only [Prog.forEach, Prog.bind_assoc]
    refine Prog.Safe.acquire fun s₁ _ hj₁ => ih hj₁ fun t' s' he hk hj' => ?_
    refine h t' s' (((Tx.Extends.refl t).locked _).trans he) (fun k hmem => ?_) hj'
    rcases List.mem_cons.1 hmem with rfl | hmem
    · exact he.held List.mem_cons_self
    · exact hk k hmem

/-- What the hook may assume of the transaction that has just settled the prepayment `p`: its
marks are on `p`, and the money it brought in is for `p`. -/
structure JustSettled (J : Store → Prop) (p : Invoice) (t : Tx Store Key Write) : Prop where
  inserts : ∀ w ∈ t.writes, ∀ i, w ≠ .insertInvoice i
  marks : ∀ i f, .markInvoice i f ∈ t.writes → i = p.id
  row : ∀ s, J s → ∀ m, s.invoice? p.id = some m → m.invoiceType ≠ .monthly
  money : ∀ s, J s → ∀ i, i ≠ p.id → (t.view s).hasMoney i = true → s.hasMoney i = true

theorem JustSettled.rows (h : JustSettled J p t) {i : Nat} (hi : i ≠ p.id) (s : Store) :
    (t.view s).invoice? i = s.invoice? i :=
  invoice_view_of_unmarked h.inserts (fun f hf => hi (h.marks i f hf)) s

theorem mem_overlapped {m : Invoice} {rows : List Invoice} :
    m ∈ orderBy (fun a b => decide (a.periodStart ≤ b.periodStart)) (rows.filter fun i =>
      i.childId == p.childId && i.invoiceType == .monthly && i.status.live &&
      decide (p.periodStart ≤ i.periodStart) && decide (i.periodStart ≤ p.periodEnd)) ↔
    m ∈ rows ∧ m.childId = p.childId ∧ m.invoiceType = .monthly ∧ m.status.live = true ∧ p.covers m.periodStart := by
  rw [orderBy, List.mem_insertionSort, List.mem_filter]
  simp only [Bool.and_eq_true, beq_iff_eq, decide_eq_true_eq, Invoice.covers, and_assoc]

theorem safe_supersede (M : MonthSetting D J X old) (ha : p.Anchored) (hp : JustSettled J p t) : Prog.Safe D J X
      (fun t' s' _ => (∃ ids, Tx.Extends (Voiding ids) t t') ∧ Superseded old p t' s')
      (cancelCoveredMonthlies p) t s := by
  unfold cancelCoveredMonthlies
  refine Prog.Safe.acquire fun s₁ _ hj₁ => safe_lockMonths hj₁ fun t₂ s₂ he hk hj₂ => ?_
  have hk : ∀ k ∈ p.lockedMonths, Key.monthly k ∈ t₂.held := hk
  have he₂ : Tx.Extends (fun _ => False) t t₂ := ((Tx.Extends.refl t).locked _).trans he
  have hview : ∀ s, t₂.view s = t.view s := he₂.view_eq id fun _ _ h => h.elim
  refine Prog.Safe.query fun s₃ _ hj₃ => ?_
  generalize ho : orderBy _ _ = l
  have hmem : ∀ m, m ∈ l ↔ m ∈ (t.view s₃).invoices ∧ m.childId = p.childId ∧ m.invoiceType = .monthly ∧
      m.status.live = true ∧ p.covers m.periodStart := by
    intro m
    rw [← ho, hview]
    exact mem_overlapped
  have hwf := (M.wf hj₃).view t
  -- the rows of the list are committed as they were read
  have hrows : ∀ m ∈ l, m.id ≠ p.id ∧ s₃.invoice? m.id = some m := by
    intro m hm
    obtain ⟨hm, -, htype, -⟩ := (hmem m).1 hm
    have hfind : (t.view s₃).invoice? m.id = some m := Table.find_of_mem hwf.invoiceIds hm
    have hne : m.id ≠ p.id := by
      intro he
      obtain ⟨r, hr, hs⟩ := (rewrites_invoices hp.inserts s₃).row_before hfind
      refine hp.row s₃ hj₃ r (he ▸ hr) ?_
      rw [← htype, hs.1]
    exact ⟨hne, by rw [← hp.rows hne]; exact hfind⟩
  have hlisted : Listed p (l.map Invoice.id) s₃ := by
    intro i m hi hov hlive
    have hne : i ≠ p.id := by
      rintro rfl
      exact hp.row s₃ hj₃ m hi hov.monthly
    have hfind : (t.view s₃).invoice? i = some m := (hp.rows hne s₃).trans hi
    have hid : m.id = i := Table.id_of_find hi
    rw [← hid]
    exact List.mem_map_of_mem ((hmem m).2 ⟨Table.mem_of_find hfind, hov.child, hov.monthly, hlive, hov.covered⟩)
  have hshown : ∀ m ∈ l, (m.status = .paid ∨ m.status = .partial_) → s₃.hasMoney m.id = true ∨ old m.id :=
    fun m hm => M.shown hj₃ m.id m (hrows m hm).2 ((hmem m).1 hm).2.2.1
  have hthere : ∀ m ∈ l, ∃ r, s₃.invoice? m.id = some r := fun m hm => ⟨m, (hrows m hm).2⟩
  refine Prog.Safe.keep (fun s => (∀ m ∈ l, ∃ r, s.invoice? m.id = some r) ∧ Listed p (l.map Invoice.id) s ∧
    ∀ m ∈ l, (m.status = .paid ∨ m.status = .partial_) → s.hasMoney m.id = true ∨ old m.id) t₂.held
    (List.Subset.refl _) ?_ hj₃ ⟨hthere, hlisted, hshown⟩ ?_
  · rintro s s' hr - - ⟨hthere, hlisted, hshown⟩
    have hm := M.months hr
    refine ⟨fun m hm' => ?_, keep_listed ha hk hm hlisted, fun m hm' hst => ?_⟩
    · obtain ⟨r, hr⟩ := hthere m hm'
      obtain ⟨r', hr', -⟩ := hm.invoices.row _ r hr
      exact ⟨r', hr'⟩
    · exact (hshown m hm' hst).imp_left (hm.money m.id)
  split
  · next hempty =>
    rintro s' hr ⟨-, -, hlisted, -⟩
    refine ⟨⟨[], (he₂.saw s₃).mono fun _ h => h.elim⟩, superseded_of_listed hk hlisted fun m hm => ?_⟩
    rw [List.isEmpty_iff.1 hempty] at hm
    cases hm
  · refine Prog.Safe.query fun s₄ _ hj₄ => ?_
    have hsums : ∀ m ∈ l, 0 < ((t₂.saw s₃).view s₄).paidSum m.id → s₄.hasMoney m.id = true := by
      intro m hm hsum
      rw [Tx.view_saw, hview] at hsum
      exact hp.money s₄ hj₄.1 m.id (hrows m hm).1 (hasMoney_of_paidSum hsum)
    refine Prog.Safe.keep (fun s => ∀ m ∈ l, 0 < ((t₂.saw s₃).view s₄).paidSum m.id →
      s.hasMoney m.id = true) [] (by simp) ?_ hj₄ hsums ?_
    · exact fun s s' hr _ _ h m hm hsum => (M.months hr).money m.id (h m hm hsum)
    have hmarks : Marks p.id ((t₂.saw s₃).saw s₄) := by
      have hw : t₂.writes = t.writes := he₂.unwritten
      constructor
      · intro w hmem
        exact hp.inserts w (hw ▸ hmem)
      · intro i f hmem
        exact .inl (hp.marks i f (hw ▸ hmem))
    refine (safe_cancelAll ((M.and _).and _) (fun m hm => List.mem_map_of_mem hm) hmarks
      (fun m hm => (hrows m hm).1) ⟨hj₄, hsums⟩ (fun s hs => hs.1.2.1) ?_).mono ?_
    · rintro m hm hst s ⟨⟨-, -, -, hshown⟩, hsums⟩
      have hst : (m.status = .paid ∨ m.status = .partial_) ∨ _ := or_assoc.2 hst
      rcases hst with hst | hst
      · exact (hshown m hm hst).imp_left fun h => .inr (.inr h)
      · exact .inl (.inr (.inr (hsums m hm hst)))
    · rintro t' s' _ ⟨⟨-, -, hlisted, -⟩, -⟩ ⟨he', hclosed⟩
      exact ⟨⟨_, (((he₂.saw s₃).saw s₄).mono fun _ h => h.elim).trans he'⟩,
        superseded_of_listed (fun k hmem => he'.held (hk k hmem)) hlisted hclosed⟩

end Billing
