import Shyraq.Notifications.Poller
import Shyraq.Notifications.Resolvers
import Shyraq.Transactions.Program

/-!
# Delivery history

The batch is locked before it is processed, an event is processed once in a poll, and the savepoint writes its history
rows together with its new status or neither.
-/

namespace Notifications

open Transactions

/-! ## What is claimed -/

def Store.historyOf (s : Store) (i : Nat) : List Notification := s.history.filter fun row => row.event == i

/-- The attempts at an event that have failed. -/
def failedAttempts (i : Nat) (log : List NotificationCommit) : Nat :=
  (log.flatMap fun c => c.result.results).countP fun r => r.1 == i && r.2 != .dispatched

/-- The commit has dispatched the event `e`, with its row and its history rows as they are in `s`: one row for each
recipient with in-app notifications, as the transaction has resolved them. -/
inductive DispatchedBy (s : Store) (i : Nat) : NotificationCommit → Prop
  | intro {now skipped faults t results} (e : OutboxEvent) (resolver : RecipientResolver) (vs : List Store)
      (effective : List Effective) (row : s.event i = some (e.dispatchedRow now))
      (lookup : recipientResolvers.lookup e.eventKey = some resolver) (seen : vs <:+: t.seen)
      (recipients : (effectiveRecipients resolver e).answered vs = some (.ok effective))
      (history : (s.historyOf i).map Notification.userId =
        (effective.filter fun r => r.inAppEnabled).map Effective.userId)
      (distinct : (effective.map Effective.userId).Nodup) :
      DispatchedBy s i ⟨.poll now skipped faults, t, .polled results⟩

/-- An event with its history. -/
structure EventConsistent (row : Option OutboxEvent) (history : List Notification) : Prop where
  once : (history.map Notification.userId).Nodup
  silent : ∀ e, row = some e → e.status ≠ .dispatched → history = []
  known : row = none → history = []
  pending : ∀ e, row = some e → e.status = .pending → e.attempts < maxOutboxAttempts
  failed : ∀ e, row = some e → e.status = .failed → e.attempts = maxOutboxAttempts

/-- What holds of the tables between transactions. -/
structure Consistent (s : Store) : Prop where
  unique : Table.Unique s.outbox
  events : ∀ i, EventConsistent (s.event i) (s.historyOf i)

/-- The commits have turned the tables `s` into `s'`. -/
structure DeliveryHistory (s : Store) (log : List NotificationCommit) (s' : Store) : Prop where
  consistent : Consistent s'
  /-- An event that is dispatched was so before, or was dispatched on the way. -/
  dispatched : ∀ i e, s'.event i = some e → e.status = .dispatched →
    (s.event i = some e ∧ s'.historyOf i = s.historyOf i) ∨ ∃ c ∈ log, DispatchedBy s' i c
  attempts : ∀ i, (s'.event i).elim 0 OutboxEvent.attempts =
    (s.event i).elim 0 OutboxEvent.attempts + failedAttempts i log
  /-- Only pending events are claimed. -/
  claimed : AtEach (fun v c => ∀ r ∈ c.result.results, ∃ e, v.event r.1 = some e ∧ e.status = .pending) s log
  /-- And what is not pending stays as it is for good. -/
  final : ∀ i e, e.status ≠ .pending → Lasting (fun v => v.event i = some e) s log

/-! ## The fragment of an event -/

/-- The row of an event and its history. -/
def Store.look (s : Store) (i : Nat) : Option OutboxEvent × List Notification := (s.event i, s.historyOf i)

/-- The writes about an event. -/
def Write.about (i : Nat) : Write → Bool
  | .enqueue e => e.id == i
  | .insertNotification row => row.event == i
  | .markDispatched j _ | .markFailedWithRetry j _ => j == i
  | .directory _ => false

section

variable {s : Store} {i : Nat}

theorem event_enqueue (s : Store) (e : OutboxEvent) (i : Nat) :
    (Relational.apply s (Write.enqueue e)).event i = (s.event i).or (if e.id = i then some e else none) :=
  Table.find_append s.outbox e i

theorem event_markDispatched (s : Store) (j : Nat) (now : Int) (i : Nat) :
    (Relational.apply s (Write.markDispatched j now)).event i =
      (s.event i).map fun e => if i = j ∧ true = true then e.dispatchedRow now else e :=
  Table.find_updateWhere s.outbox j (fun _ => true) (fun e => e.dispatchedRow now) (fun _ => rfl) i

theorem event_markFailed (s : Store) (j : Nat) (fresh : OutboxEvent) (i : Nat) :
    (Relational.apply s (Write.markFailedWithRetry j fresh)).event i =
      (s.event i).map fun e => if i = j ∧ true = true then e.failedRow fresh else e :=
  Table.find_updateWhere s.outbox j (fun _ => true) (fun e => e.failedRow fresh) (fun _ => rfl) i

theorem historyOf_insert (s : Store) (row : Notification) (i : Nat) :
    (Relational.apply s (Write.insertNotification row)).historyOf i =
      s.historyOf i ++ if row.event = i then [row] else [] := by
  show (s.history ++ [row]).filter _ = _
  rw [List.filter_append]
  congr 1
  by_cases h : row.event = i
  · rw [if_pos h, List.filter_cons_of_pos (by simpa using h), List.filter_nil]
  · rw [if_neg h, List.filter_cons_of_neg (by simpa using h), List.filter_nil]

theorem fragmentOf (i : Nat) : Fragment (fun s : Store => s.look i) (Write.about i) where
  others w s h := by
    refine Prod.ext ?_ ?_
    · show (Relational.apply s w).event i = s.event i
      cases w with
      | enqueue e =>
        have hne : ¬ e.id = i := by simpa [Write.about] using h
        rw [event_enqueue, if_neg hne, Option.or_none]
      | markDispatched j now =>
        have hne : ¬ i = j := fun he => by simp [Write.about, he] at h
        rw [event_markDispatched]
        simp only [hne, false_and, if_false, Option.map_id']
      | markFailedWithRetry j fresh =>
        have hne : ¬ i = j := fun he => by simp [Write.about, he] at h
        rw [event_markFailed]
        simp only [hne, false_and, if_false, Option.map_id']
      | insertNotification row => rfl
      | directory d => rfl
    · show (Relational.apply s w).historyOf i = s.historyOf i
      cases w with
      | insertNotification row =>
        have hne : ¬ row.event = i := by simpa [Write.about] using h
        rw [historyOf_insert, if_neg hne, List.append_nil]
      | _ => rfl
  owners w s s' h := by
    have hevent : s.event i = s'.event i := congrArg Prod.fst h
    have hhistory : s.historyOf i = s'.historyOf i := congrArg Prod.snd h
    refine Prod.ext ?_ ?_
    · show (Relational.apply s w).event i = (Relational.apply s' w).event i
      cases w with
      | enqueue e => rw [event_enqueue, event_enqueue, hevent]
      | markDispatched j now => rw [event_markDispatched, event_markDispatched, hevent]
      | markFailedWithRetry j fresh => rw [event_markFailed, event_markFailed, hevent]
      | insertNotification row => exact hevent
      | directory d => exact hevent
    · show (Relational.apply s w).historyOf i = (Relational.apply s' w).historyOf i
      cases w with
      | insertNotification row => rw [historyOf_insert, historyOf_insert, hhistory]
      | _ => exact hhistory

/-- The writes of a transaction about an event. -/
abbrev about (i : Nat) (t : Tx Store Key Write) : List Write := t.owned (Write.about i)

theorem look_view (t : Tx Store Key Write) (s : Store) (i : Nat) :
    (t.view s).look i = ((about i t).foldl Relational.apply s).look i := (fragmentOf i).view t s

theorem look_insertAll (rows : List Notification) (h : ∀ row ∈ rows, row.event = i) (s : Store) :
    ((rows.map Write.insertNotification).foldl Relational.apply s).look i = (s.event i, s.historyOf i ++ rows) := by
  induction rows generalizing s with
  | nil => rw [List.append_nil]; rfl
  | cons row rows ih =>
    have hrow : row.event = i := h row List.mem_cons_self
    rw [List.map_cons, List.foldl_cons, ih fun r hr => h r (List.mem_cons_of_mem row hr), historyOf_insert,
      if_pos hrow, List.append_assoc]
    rfl

end

/-! ## Locks -/

/-- The event of a locked row stays as it is, with its history. -/
def outboxLocks : Discipline Store Key Write where
  rely held s s' := ∀ i, Key.row i ∈ held → s'.look i = s.look i
  refl _ _ _ _ := rfl
  trans h₁ h₂ i hi := (h₂ i hi).trans (h₁ i hi)
  mono hs h i hi := h i (hs hi)

theorem outboxLocks_respects {held : List Key} {w : Write} (h : ∀ i, Write.about i w = true → Key.row i ∈ held) :
    outboxLocks.Respects held w := by
  intro held' hd s i hi
  refine (fragmentOf i).others w s ?_
  by_contra habout
  exact hd (h i (Bool.eq_true_of_not_eq_false habout)) hi

/-! ## A poll -/

/-- How an event was processed, with the writes about it. -/
inductive Processed (now : Int) (seen : List Store) (e : OutboxEvent) : DispatchResult → List Write → Prop
  | dispatched (resolver : RecipientResolver) (vs : List Store) (effective : List Effective)
      (lookup : recipientResolvers.lookup e.eventKey = some resolver) (inside : vs <:+: seen)
      (recipients : (effectiveRecipients resolver e).answered vs = some (.ok effective)) :
      Processed now seen e .dispatched
        ((historyRows now e effective).map .insertNotification ++ [.markDispatched e.id now])
  | failed (reason : String) (fresh : OutboxEvent) (marked : e.markFailed now reason = .ok fresh) :
      Processed now seen e (.failed reason) [.markFailedWithRetry e.id fresh]

variable {e : OutboxEvent}

theorem Processed.mono {now : Int} {seen seen' : List Store} {result : DispatchResult}
    {ws : List Write} (h : Processed now seen e result ws) (hs : seen <+: seen') : Processed now seen' e result ws := by
  cases h with
  | dispatched resolver vs effective lookup inside recipients =>
    exact .dispatched resolver vs effective lookup (inside.trans hs.isInfix) recipients
  | failed reason fresh marked => exact .failed reason fresh marked

/-- Committed outbox rows have ids of their own. -/
def UniqueEvents (s : Store) : Prop := Table.Unique s.outbox

section

variable {now : Int} {t : Tx Store Key Write} {s : Store}

/-- Claimed: locked, and pending as of its lock. -/
structure Claimed (t : Tx Store Key Write) (s : Store) (e : OutboxEvent) : Prop where
  row : s.event e.id = some e
  pending : e.status = .pending
  held : Key.row e.id ∈ t.held

theorem Claimed.later {t' : Tx Store Key Write} {s' : Store} (h : Claimed t s e)
    (hheld : t.held ⊆ t'.held) (hr : outboxLocks.rely t.held s s') : Claimed t' s' e where
  row := (congrArg Prod.fst (hr e.id h.held)).trans h.row
  pending := h.pending
  held := hheld h.held

theorem safe_claimRows (now : Int) (candidates : List OutboxEvent) (limit : Nat) (ht : t.writes = []) :
    Prog.Safe outboxLocks UniqueEvents (fun _ => True) (fun t' s' events => t'.writes = [] ∧ t.held ⊆ t'.held ∧
        outboxLocks.rely t.held s s' ∧ (events.map OutboxEvent.id).Sublist (candidates.map OutboxEvent.id) ∧
          ∀ e ∈ events, Claimed t' s' e) (OutboxEventRepository.claimRows now candidates limit) t s := by
  induction candidates generalizing limit t s with
  | nil =>
    exact fun s' hr _ => ⟨ht, List.Subset.refl _, hr, List.Sublist.refl _, fun _ h => absurd h List.not_mem_nil⟩
  | cons c cs ih =>
    cases limit with
    | zero => exact fun s' hr _ => ⟨ht, List.Subset.refl _, hr, List.nil_sublist _, fun _ h => absurd h List.not_mem_nil⟩
    | succ limit =>
      unfold OutboxEventRepository.claimRows OutboxEventRepository.lockRow
      simp only [Prog.bind_eq, Prog.bind_assoc]
      refine Prog.Safe.acquire fun s₁ hr₁ _ => Prog.Safe.query fun s₂ hr₂ hj₂ => ?_
      have hheld : t.held ⊆ ((t.locked (.row c.id)).saw s₂).held := List.subset_cons_self _ _
      have hview : (t.locked (.row c.id)).view s₂ = s₂ := Tx.view_of_unwritten ht s₂
      have hsince : outboxLocks.rely t.held s s₂ := outboxLocks.trans hr₁ (outboxLocks.mono hheld hr₂)
      have ht₂ : ((t.locked (.row c.id)).saw s₂).writes = [] := ht
      rw [hview]
      cases hlocked : (s₂.event c.id).filter (OutboxEvent.claimable now) with
      | none =>
        refine (ih (s := s₂) (limit + 1) ht₂).mono fun t' s' events _ ⟨hwrites, hheld', hr, hsub, hall⟩ => ?_
        exact ⟨hwrites, List.Subset.trans hheld hheld', outboxLocks.trans hsince (outboxLocks.mono hheld hr), hsub.cons _, hall⟩
      | some e =>
        obtain ⟨hrow, hclaimable⟩ := Option.filter_eq_some_iff.1 hlocked
        have hid : e.id = c.id := Table.id_of_find hrow
        have hclaimed : Claimed ((t.locked (.row c.id)).saw s₂) s₂ e := by
          refine ⟨hid ▸ hrow, ?_, hid ▸ List.mem_cons_self⟩
          rw [OutboxEvent.claimable, Bool.and_eq_true] at hclaimable
          exact beq_iff_eq.1 hclaimable.1
        refine Prog.Safe.bind hj₂ ((ih (s := s₂) limit ht₂).mono fun t' s' events _ ⟨hwrites, hheld', hr, hsub, hall⟩ => ?_)
        refine fun s₃ hr₃ _ => ⟨hwrites, List.Subset.trans hheld hheld', ?_, ?_, ?_⟩
        · exact outboxLocks.trans (outboxLocks.trans hsince (outboxLocks.mono hheld hr))
            (outboxLocks.mono (List.Subset.trans hheld hheld') hr₃)
        · rw [List.map_cons, List.map_cons, hid]
          exact hsub.cons_cons _
        · intro e' he'
          rcases List.mem_cons.1 he' with rfl | he'
          · exact (hclaimed.later hheld' hr).later (List.Subset.refl _) hr₃
          · exact (hall e' he').later (List.Subset.refl _) hr₃

/-- A transaction that went on from `t`, for the event `i` alone. -/
structure OnlyAbout (i : Nat) (t t' : Tx Store Key Write) (s s' : Store) : Prop where
  others : ∀ j, j ≠ i → about j t' = about j t
  held : t.held ⊆ t'.held
  seen : t.seen <+: t'.seen
  since : outboxLocks.rely t.held s s'

theorem about_wrote (t : Tx Store Key Write) {w : Write} {i : Nat} (h : Write.about i w = true) :
    about i (t.wrote w) = about i t ++ [w] := Tx.owned_wrote t h

theorem about_wrote_of_not (t : Tx Store Key Write) {w : Write} {i : Nat} (h : Write.about i w = false) :
    about i (t.wrote w) = about i t := Tx.owned_wrote_of_not t h

theorem OnlyAbout.refl (i : Nat) (t : Tx Store Key Write) {s' : Store} (hr : outboxLocks.rely t.held s s') :
    OnlyAbout i t t s s' := ⟨fun _ _ => rfl, List.Subset.refl _, List.prefix_rfl, hr⟩

theorem OnlyAbout.trans {i : Nat} {t₁ t₂ : Tx Store Key Write} {s₁ s₂ : Store} (h₁ : OnlyAbout i t t₁ s s₁)
    (h₂ : OnlyAbout i t₁ t₂ s₁ s₂) : OnlyAbout i t t₂ s s₂ where
  others j hj := (h₂.others j hj).trans (h₁.others j hj)
  held := List.Subset.trans h₁.held h₂.held
  seen := h₁.seen.trans h₂.seen
  since := outboxLocks.trans h₁.since (outboxLocks.mono h₁.held h₂.since)

theorem OnlyAbout.wrote {i : Nat} {w : Write} (h : ∀ j, j ≠ i → Write.about j w = false) {s' : Store}
    (hr : outboxLocks.rely t.held s s') : OnlyAbout i t (t.wrote w) s s' where
  others j hj := about_wrote_of_not t (h j hj)
  held := List.subset_append_right _ _
  seen := List.prefix_rfl
  since := hr

theorem safe_createMany (rows : List Notification) {i : Nat} (h : ∀ row ∈ rows, row.event = i) :
    Prog.Safe outboxLocks UniqueEvents (fun _ => True) (fun t' s' _ =>
      OnlyAbout i t t' s s' ∧ about i t' = about i t ++ rows.map .insertNotification) (createMany rows) t s := by
  unfold createMany
  induction rows generalizing t s with
  | nil => exact fun s' hr _ => ⟨.refl i t hr, by rw [List.map_nil, List.append_nil]⟩
  | cons row rows ih =>
    have hrow : row.event = i := h row List.mem_cons_self
    have hown : Write.about i (.insertNotification row) = true := by simpa [Write.about] using hrow
    have hother : ∀ j, j ≠ i → Write.about j (.insertNotification row) = false := by
      intro j hj
      simpa [Write.about, hrow] using hj.symm
    unfold Prog.forEach
    simp only [Prog.bind_eq, Prog.bind_assoc]
    refine Prog.Safe.update (fun s₁ hr₁ _ _ => ?_) fun s₁ _ _ hmiss => (by cases hmiss)
    refine (ih fun r hr => h r (List.mem_cons_of_mem row hr)).mono fun t' s' _ _ ⟨honly, hwrites⟩ => ?_
    refine ⟨(OnlyAbout.wrote hother hr₁).trans honly, ?_⟩
    rw [hwrites, about_wrote t hown, List.append_assoc]
    rfl

theorem markFailed_pending (h : e.status = .pending) (now : Int) (reason : String) :
    ∃ fresh, e.markFailed now reason = .ok fresh := by
  unfold OutboxEvent.markFailed
  rw [if_neg (not_not.2 h)]
  split
  · exact ⟨_, rfl⟩
  · exact ⟨_, rfl⟩

/-- The row of a claimed event can be seen as long as only its history was written. -/
theorem Claimed.visible (h : Claimed t s e) {rows : List Notification}
    (hrows : ∀ row ∈ rows, row.event = e.id) (habout : about e.id t = rows.map .insertNotification) :
    (t.view s).event e.id = some e := by
  have hlook := look_view t s e.id
  rw [habout, look_insertAll rows hrows] at hlook
  exact (congrArg Prod.fst hlook).trans h.row

theorem event_of_historyRows (now : Int) (e : OutboxEvent) (effective : List Effective) :
    ∀ row ∈ historyRows now e effective, row.event = e.id := by
  intro row hrow
  obtain ⟨r, -, rfl⟩ := List.mem_map.1 hrow
  rfl

theorem userIds_historyRows (now : Int) (e : OutboxEvent) (effective : List Effective) :
    (historyRows now e effective).map Notification.userId =
      (effective.filter fun r => r.inAppEnabled).map Effective.userId := by
  unfold historyRows
  rw [List.map_map]
  rfl

theorem safe_processOne (now : Int) (faults : List (Nat × Faults)) (hc : Claimed t s e)
    (hj : UniqueEvents s) (habout : about e.id t = []) :
    Prog.Safe outboxLocks UniqueEvents (fun _ => True) (fun t' s' r => OnlyAbout e.id t t' s s' ∧ r.1 = e.id ∧
      Processed now t'.seen e r.2 (about e.id t')) (OutboxPollerProcessor.processOne now faults e) t s := by
  unfold OutboxPollerProcessor.processOne
  simp only [Prog.bind_eq]
  generalize (faults.lookup e.id).getD .none = f
  refine Prog.Safe.bind hj ((Prog.Safe.of_onlyReads (onlyReads_dispatch now f e) fun _ => trivial).mono ?_)
  rintro t₁ s₁ delivery hj₁ ⟨vs, rfl, hanswered, hr₁⟩
  generalize ht₁ : ({ t with seen := t.seen ++ vs } : Tx Store Key Write) = t₁
  have honly₁ : OnlyAbout e.id t t₁ s s₁ := by
    rw [← ht₁]
    exact ⟨fun _ _ => rfl, List.Subset.refl _, List.prefix_append _ _, hr₁⟩
  have habout₁ : about e.id t₁ = [] := by
    rw [← ht₁]
    exact habout
  have hinside : vs <:+: t₁.seen := by
    rw [← ht₁]
    exact (List.suffix_append _ _).isInfix
  have hc₁ : Claimed t₁ s₁ e := hc.later honly₁.held hr₁
  have hother : ∀ w : Write, (∀ j, Write.about j w = (e.id == j)) → ∀ j, j ≠ e.id → Write.about j w = false := by
    intro w hw j hj
    rw [hw]
    simpa using hj.symm
  cases hresult : OutboxPollerProcessor.savepointResult f.release delivery with
  | dispatched =>
    unfold OutboxPollerProcessor.settle OutboxEventRepository.markDispatched
    simp only [Prog.bind_eq, Prog.bind_assoc]
    cases answered_dispatch hanswered with
    | nothing reason eq =>
      rw [eq] at hresult
      cases hresult
    | delivered resolver vs₁ vs₂ effective lookup seen recipients rows sent =>
      have hrows := event_of_historyRows now e effective
      rw [← rows] at hrows
      refine Prog.Safe.bind hj₁ ((safe_createMany delivery.rows hrows).mono fun t₂ s₂ _ _ ⟨honly₂, hwrites⟩ => ?_)
      rw [habout₁, List.nil_append] at hwrites
      have hc₂ : Claimed t₂ s₂ e := hc₁.later honly₂.held honly₂.since
      have hown : Write.about e.id (.markDispatched e.id now) = true := beq_self_eq_true _
      refine Prog.Safe.update (fun s₃ hr₃ _ _ s₄ hr₄ _ => ?_) fun s₃ hr₃ _ hmiss => ?_
      · have honly₃ := OnlyAbout.wrote (hother (.markDispatched e.id now) fun _ => rfl) hr₃
        refine ⟨((honly₁.trans honly₂).trans honly₃).trans (.refl _ _ hr₄), rfl, ?_⟩
        rw [about_wrote t₂ hown, hwrites, rows]
        refine .dispatched resolver vs₁ effective lookup ?_ recipients
        exact ((seen ▸ (List.prefix_append vs₁ vs₂).isInfix).trans hinside).trans honly₂.seen.isInfix
      · -- the row is there
        have hvisible := (hc₂.later (List.Subset.refl _) hr₃).visible hrows hwrites
        have hhit : ((t₂.view s₃).event e.id).isSome = false := hmiss
        rw [hvisible] at hhit
        cases hhit
  | failed reason =>
    obtain ⟨fresh, hfresh⟩ := markFailed_pending hc.pending now reason
    unfold OutboxPollerProcessor.settle OutboxEventRepository.markFailedWithRetry
    dsimp only
    rw [hfresh]
    simp only [Prog.bind_eq, Prog.bind_assoc]
    have hown : Write.about e.id (.markFailedWithRetry e.id fresh) = true := beq_self_eq_true _
    refine Prog.Safe.update (fun s₃ hr₃ _ _ s₄ hr₄ _ => ?_) fun s₃ hr₃ _ hmiss => ?_
    · have honly₃ := OnlyAbout.wrote (hother (.markFailedWithRetry e.id fresh) fun _ => rfl) hr₃
      refine ⟨(honly₁.trans honly₃).trans (.refl _ _ hr₄), rfl, ?_⟩
      rw [about_wrote t₁ hown, habout₁, List.nil_append]
      exact .failed reason fresh hfresh
    · have hnone : about e.id t₁ = ([] : List Notification).map .insertNotification := habout₁
      have hvisible := (hc₁.later (List.Subset.refl _) hr₃).visible (fun _ h => absurd h List.not_mem_nil) hnone
      have hhit : ((t₁.view s₃).event e.id).isSome = false := hmiss
      rw [hvisible] at hhit
      cases hhit

/-- What the loop has done: each event of the batch is processed, the others are left alone. -/
structure BatchProcessed (now : Int) (events : List OutboxEvent) (t t' : Tx Store Key Write) (s s' : Store)
    (results : List (Nat × DispatchResult)) : Prop where
  ids : results.map Prod.fst = events.map OutboxEvent.id
  others : ∀ i, i ∉ events.map OutboxEvent.id → about i t' = about i t
  processed : ∀ e ∈ events, Claimed t' s' e ∧ ∃ result, (e.id, result) ∈ results ∧
    Processed now t'.seen e result (about e.id t')
  held : t.held ⊆ t'.held
  seen : t.seen <+: t'.seen
  since : outboxLocks.rely t.held s s'

theorem safe_batch (now : Int) (faults : List (Nat × Faults)) (events : List OutboxEvent) (hj : UniqueEvents s)
    (hnodup : (events.map OutboxEvent.id).Nodup) (hc : ∀ e ∈ events, Claimed t s e)
    (habout : ∀ e ∈ events, about e.id t = []) :
    Prog.Safe outboxLocks UniqueEvents (fun _ => True) (fun t' s' results => BatchProcessed now events t t' s s' results)
      (Prog.collect (OutboxPollerProcessor.processOne now faults) events) t s := by
  induction events generalizing t s with
  | nil =>
    refine fun s' hr _ => ⟨rfl, fun _ _ => rfl, fun _ h => absurd h List.not_mem_nil, List.Subset.refl _,
      List.prefix_rfl, hr⟩
  | cons e events ih =>
    rw [List.map_cons, List.nodup_cons] at hnodup
    have hne : ∀ e' ∈ events, e'.id ≠ e.id := fun e' he' heq => hnodup.1 (heq ▸ List.mem_map_of_mem he')
    unfold Prog.collect
    refine Prog.Safe.bind hj ((safe_processOne now faults (hc e List.mem_cons_self) hj
      (habout e List.mem_cons_self)).mono fun t₁ s₁ r hj₁ ⟨honly, hid, hprocessed⟩ => ?_)
    have hrest := ih (t := t₁) (s := s₁) hj₁ hnodup.2
      (fun e' he' => (hc e' (List.mem_cons_of_mem e he')).later honly.held honly.since)
      fun e' he' => (honly.others e'.id (hne e' he')).trans (habout e' (List.mem_cons_of_mem e he'))
    refine Prog.Safe.bind hj₁ (hrest.mono fun t₂ s₂ results _ hbatch => ?_)
    intro s₃ hr₃ _
    have hlast : outboxLocks.rely t₁.held s₁ s₃ := outboxLocks.trans hbatch.since (outboxLocks.mono hbatch.held hr₃)
    refine ⟨?_, fun i hi => ?_, fun e' he' => ?_, List.Subset.trans honly.held hbatch.held,
      honly.seen.trans hbatch.seen, outboxLocks.trans honly.since (outboxLocks.mono honly.held hlast)⟩
    · rw [List.map_cons, List.map_cons, hid, hbatch.ids]
    · rw [List.map_cons, List.mem_cons, not_or] at hi
      exact (hbatch.others i hi.2).trans (honly.others i hi.1)
    · rcases List.mem_cons.1 he' with rfl | he'
      · have hclaimed : Claimed t₁ s₁ e' := (hc e' List.mem_cons_self).later honly.held honly.since
        refine ⟨hclaimed.later hbatch.held hlast, r.2, hid ▸ List.mem_cons_self, ?_⟩
        rw [hbatch.others e'.id hnodup.1]
        exact hprocessed.mono hbatch.seen
      · obtain ⟨hclaimed, result, hmem, hp⟩ := hbatch.processed e' he'
        exact ⟨hclaimed.later (List.Subset.refl _) hr₃, result, List.mem_cons_of_mem r hmem, hp⟩

end

/-! ## Requests -/

/-- What a request has done to an event. -/
inductive NotificationOutcome (i : Nat) (t : Tx Store Key Write) (s : Store) : Op → Response → Prop
  | untouched {op a} (writes : about i t = []) (unclaimed : ∀ r ∈ a.results, r.1 ≠ i) : NotificationOutcome i t s op a
  | processed {now skipped faults results} (e : OutboxEvent) (result : DispatchResult) (id : e.id = i)
      (claimed : Claimed t s e) (once : (results.filter fun r => r.1 == i) = [(i, result)])
      (processed : Processed now t.seen e result (about i t)) :
      NotificationOutcome i t s (.poll now skipped faults) (.polled results)
  | enqueued {now} {input : EnqueueInput} (absent : s.event i = none) (held : Key.row i ∈ t.held)
      (writes : about i t = [.enqueue (.create i input.kindergartenId input.eventKey input.payload now)]) :
      NotificationOutcome i t s (.enqueue now input) (.enqueued i)

/-- An event is enqueued alone, under an id that is free. -/
def EnqueuesFresh (t : Tx Store Key Write) (s : Store) : Prop :=
  (∀ w ∈ t.writes, ∀ e, w ≠ .enqueue e) ∨ ∃ e, t.writes = [.enqueue e] ∧ s.event e.id = none

section

variable {t : Tx Store Key Write} {s : Store}

theorem EnqueuesFresh.unique (h : EnqueuesFresh t s) (hs : UniqueEvents s) : UniqueEvents (t.view s) := by
  unfold Tx.view
  rcases h with h | ⟨e, hwrites, hnone⟩
  · generalize t.writes = ws at h
    induction ws generalizing s with
    | nil => exact hs
    | cons w ws ih =>
      refine ih ?_ fun w' hw' => h w' (List.mem_cons_of_mem w hw')
      cases w with
      | enqueue e => exact absurd rfl (h _ List.mem_cons_self e)
      | insertNotification row => exact hs
      | markDispatched i now => exact Table.unique_updateWhere hs i _ _ fun _ => rfl
      | markFailedWithRetry i fresh => exact Table.unique_updateWhere hs i _ _ fun _ => rfl
      | directory d => exact hs
  · rw [hwrites]
    exact Table.unique_append hs hnone

theorem filter_results {ids : List Nat} {results : List (Nat × DispatchResult)} (h : results.map Prod.fst = ids)
    (hnodup : ids.Nodup) {i : Nat} {result : DispatchResult} (hmem : (i, result) ∈ results) :
    (results.filter fun r => r.1 == i) = [(i, result)] := by
  subst h
  induction results with
  | nil => cases hmem
  | cons r results ih =>
    rw [List.map_cons, List.nodup_cons] at hnodup
    rcases List.mem_cons.1 hmem with rfl | hmem
    · have hrest : (results.filter fun r => r.1 == i) = [] := by
        refine List.filter_eq_nil_iff.2 fun r hr heq => hnodup.1 ?_
        exact List.mem_map.2 ⟨r, hr, beq_iff_eq.1 heq⟩
      rw [List.filter_cons_of_pos (by simp), hrest]
    · have hne : r.1 ≠ i := fun heq => hnodup.1 (heq ▸ List.mem_map_of_mem hmem)
      rw [List.filter_cons_of_neg (by simpa using hne)]
      exact ih hmem hnodup.2

theorem safe_poll (now : Int) (skipped : List Nat) (faults : List (Nat × Faults)) (s : Store) :
    Prog.Safe outboxLocks UniqueEvents (fun _ => True)
      (fun t s a => ∀ i, NotificationOutcome i t s (.poll now skipped faults) a) (Op.poll now skipped faults).prog
      .start s := by
  unfold Op.prog Op.answer OutboxPollerProcessor.process OutboxEventRepository.claimBatch
  simp only [Prog.bind_eq, Prog.bind_assoc]
  refine Prog.Safe.query fun v hr hj => ?_
  have hunique : UniqueEvents v := hj
  have hnodup : ((((v.outbox.filter (OutboxEvent.claimable now)).insertionSort
      fun a b => a.nextRetryAt ≤ b.nextRetryAt).filter fun e => !skipped.contains e.id).map OutboxEvent.id).Nodup := by
    refine List.Nodup.sublist (List.filter_sublist.map _) ?_
    refine ((List.perm_insertionSort _ _).map _).nodup_iff.2 ?_
    exact List.Nodup.sublist (List.filter_sublist.map _) hunique
  refine Prog.Safe.bind hj ((safe_claimRows now _ outboxBatchSize rfl).mono
    fun t₁ s₁ events hj₁ ⟨hwrites, hheld, hr₁, hsub, hclaimed⟩ => ?_)
  have hids := hnodup.sublist hsub
  refine (safe_batch now faults events hj₁ hids hclaimed fun e _ => Tx.owned_of_unwritten hwrites).map
    fun t₂ s₂ results _ hbatch i => ?_
  by_cases hi : i ∈ events.map OutboxEvent.id
  · obtain ⟨e, he, rfl⟩ := List.mem_map.1 hi
    obtain ⟨hclaimed₂, result, hmem, hprocessed⟩ := hbatch.processed e he
    exact .processed e result rfl hclaimed₂ (filter_results hbatch.ids hids hmem) hprocessed
  · refine .untouched ((hbatch.others i hi).trans (Tx.owned_of_unwritten hwrites)) fun r hr heq => hi ?_
    rw [← hbatch.ids, ← heq]
    exact List.mem_map_of_mem hr

theorem onlyWrites_process (now : Int) (skipped : List Nat) (faults : List (Nat × Faults)) :
    Prog.OnlyWrites (fun w => ∀ e, w ≠ .enqueue e) (OutboxPollerProcessor.process now skipped faults) := by
  have claim : ∀ candidates limit, Prog.OnlyWrites (fun w : Write => ∀ e, w ≠ .enqueue e)
      (OutboxEventRepository.claimRows now candidates limit) := by
    intro candidates
    induction candidates with
    | nil => exact fun _ => trivial
    | cons c cs ih =>
      intro limit
      cases limit with
      | zero => trivial
      | succ limit =>
        unfold OutboxEventRepository.claimRows OutboxEventRepository.lockRow
        refine .query fun locked => ?_
        cases locked with
        | some e => exact (ih limit).bind fun _ => trivial
        | none => exact ih (limit + 1)
  have settle : ∀ e rows result, Prog.OnlyWrites (fun w : Write => ∀ e, w ≠ .enqueue e)
      (OutboxPollerProcessor.settle now e rows result) := by
    intro e rows result
    have marked : ∀ i, Prog.OnlyWrites (fun w : Write => ∀ e, w ≠ .enqueue e)
        (OutboxEventRepository.markDispatched i now) := fun i => ⟨nofun, fun _ => trivial⟩
    cases result with
    | dispatched =>
      exact .bind (.forEach rows fun row _ => ⟨nofun, fun _ => trivial⟩) fun _ => marked e.id
    | failed reason =>
      unfold OutboxPollerProcessor.settle
      dsimp only
      split
      · trivial
      · exact ⟨nofun, fun _ => trivial⟩
  refine .bind (.bind (fun _ => trivial) fun candidates => claim _ _) fun events => .collect events fun e _ => ?_
  exact .bind (onlyReads_dispatch now _ e).onlyWrites fun delivery => .bind (settle e _ _) fun _ => trivial

theorem safe_enqueue (now : Int) (input : EnqueueInput) (s : Store) :
    Prog.Safe outboxLocks UniqueEvents (fun _ => True)
      (fun t s a => (∀ i, NotificationOutcome i t s (.enqueue now input) a) ∧ EnqueuesFresh t s)
      (Op.enqueue now input).prog .start s := by
  unfold Op.prog Op.answer OutboxEventRepository.enqueue
  simp only [Prog.bind_eq, Prog.bind_assoc]
  refine Prog.Safe.uuid fun s₁ id hr₁ _ hfree hheld => ?_
  refine Prog.Safe.insertOr (fun _ => trivial) fun s₂ hr₂ _ hhit s₃ hr₃ _ => ?_
  generalize ht : ((Tx.start : Tx Store Key Write).locked (.row id)).wrote (.enqueue
    (.create id input.kindergartenId input.eventKey input.payload now)) = t at hr₃ ⊢
  have hmem : Key.row id ∈ t.held := ht ▸ List.mem_append_right _ List.mem_cons_self
  have hnone : s₃.event id = none := by
    have hfirst : s₂.event id = none := Option.isNone_iff_eq_none.1 hhit
    exact (congrArg Prod.fst (hr₃ id hmem)).trans hfirst
  subst ht
  refine ⟨fun i => ?_, .inr ⟨_, rfl, hnone⟩⟩
  by_cases hi : i = id
  · subst hi
    refine .enqueued hnone hmem ?_
    exact about_wrote _ (beq_self_eq_true i)
  · refine .untouched ?_ fun r hr => absurd hr List.not_mem_nil
    exact about_wrote_of_not _ (by simpa [Write.about, OutboxEvent.create] using Ne.symm hi)

theorem safe_directory (d : Directory) (s : Store) : Prog.Safe outboxLocks UniqueEvents (fun _ => True)
      (fun t s a => (∀ i, NotificationOutcome i t s (.directory d) a) ∧ EnqueuesFresh t s) (Op.directory d).prog
      .start s := by
  unfold Op.prog Op.answer
  refine Prog.Safe.update (fun s₁ _ _ _ s₂ _ _ => ?_) fun s₁ _ _ hmiss => (by cases hmiss)
  refine ⟨fun i => .untouched (about_wrote_of_not _ rfl) fun r hr => absurd hr List.not_mem_nil, .inl ?_⟩
  intro w hw e he
  obtain rfl : w = .directory d := List.mem_singleton.1 hw
  cases he

theorem safe_outcome (op : Op) (s : Store) (hj : UniqueEvents s) : Prog.Safe outboxLocks UniqueEvents (fun _ => True)
      (fun t s a => (∀ i, NotificationOutcome i t s op a) ∧ EnqueuesFresh t s) op.prog .start s := by
  cases op with
  | poll now skipped faults =>
    have hwrites : Prog.OnlyWrites (fun w : Write => ∀ e, w ≠ .enqueue e) (Op.poll now skipped faults).prog :=
      .bind (onlyWrites_process now skipped faults) fun _ => trivial
    refine ((safe_poll now skipped faults s).and (Prog.Safe.of_onlyWrites hwrites (fun _ => trivial) hj)).mono ?_
    rintro t s' a - ⟨houtcome, hext, -⟩
    obtain ⟨ws, heq, hws⟩ := hext.writes
    exact ⟨houtcome, .inl (heq ▸ hws)⟩
  | enqueue now input => exact safe_enqueue now input s
  | directory d => exact safe_directory d s

theorem NotificationOutcome.held {op : Op} {a : Response} {i : Nat} (h : NotificationOutcome i t s op a)
    (hne : about i t ≠ []) : Key.row i ∈ t.held := by
  cases h with
  | untouched writes unclaimed => exact absurd writes hne
  | processed e result id claimed once processed => exact id ▸ claimed.held
  | enqueued absent held writes => exact held

theorem guarantee_of_outcomes {op : Op} {a : Response} (h : ∀ i, NotificationOutcome i t s op a) :
    outboxLocks.Guarantee t s := by
  refine Discipline.guarantee_of_respects (fun w hw => outboxLocks_respects fun i hi => (h i).held fun hnil => ?_) s
  have hmem : w ∈ about i t := List.mem_filter.2 ⟨hw, hi⟩
  rw [hnil] at hmem
  exact List.not_mem_nil hmem

end

theorem run_outcomes {n : Nat} {s : Store} {σ : System n} {cs : Schedule n} (hs : UniqueEvents s)
    (hrun : run s cs = some σ) :
    Chain (fun s c => UniqueEvents s ∧ (∀ i, NotificationOutcome i c.tx s c.op c.result) ∧ EnqueuesFresh c.tx s)
      s σ.log σ.db := by
  have hstarts : System.Starts (fun _ => True) cs := fun _ _ _ => trivial
  exact System.exec_chain (X := fun _ => True) hs (fun op s _ hj => safe_outcome op s hj)
    (fun _ _ _ _ hj hq => hq.2.unique hj) (fun _ _ _ _ _ hq => guarantee_of_outcomes hq.1) hstarts hrun

/-! ## What a commit does to an event -/

theorem failedAttempts_snoc (i : Nat) (log : List NotificationCommit) (c : NotificationCommit) :
    failedAttempts i (log ++ [c]) = failedAttempts i log + failedAttempts i [c] := by
  unfold failedAttempts
  rw [List.flatMap_append, List.countP_append]

section

variable {i : Nat} {s s' : Store} {c : NotificationCommit}

theorem failedAttempts_unclaimed (h : ∀ r ∈ c.result.results, r.1 ≠ i) : failedAttempts i [c] = 0 := by
  unfold failedAttempts
  rw [List.flatMap_singleton, List.countP_eq_zero]
  intro r hr
  simp [h r hr]

theorem failedAttempts_once {result : DispatchResult} (h : (c.result.results.filter fun r => r.1 == i) = [(i, result)]) :
    failedAttempts i [c] = if result = .dispatched then 0 else 1 := by
  have hcount : failedAttempts i [c] = (c.result.results.filter fun r => r.1 == i).countP fun r => r.2 != .dispatched := by
    unfold failedAttempts
    rw [List.flatMap_singleton, List.countP_filter]
    congr 1
    funext r
    exact Bool.and_comm _ _
  rw [hcount, h, List.countP_singleton]
  by_cases hresult : result = .dispatched
  · simp [hresult]
  · simp [hresult]

/-- The row that a failed attempt leaves. -/
structure Retried (e e' : OutboxEvent) : Prop where
  attempts : e'.attempts = e.attempts + 1
  pending : e'.status = .pending → e.attempts + 1 < maxOutboxAttempts
  failed : e'.status = .failed → maxOutboxAttempts ≤ e.attempts + 1
  undelivered : e'.status ≠ .dispatched

theorem status_failedRow (e : OutboxEvent) {fresh : OutboxEvent} (h : fresh.status = .pending) :
    (e.failedRow fresh).status = .pending := by
  simp [OutboxEvent.failedRow, OutboxEvent.isTerminal, h]

theorem retried_of_markFailed {fresh : OutboxEvent} {now : Int} {reason : String}
    (h : e.markFailed now reason = .ok fresh) : Retried e (e.failedRow fresh) := by
  unfold OutboxEvent.markFailed at h
  split at h
  · cases h
  · rename_i hpending
    have hstatus : e.status = .pending := not_not.1 hpending
    split at h
    · rename_i hlast
      cases h
      exact ⟨rfl, nofun, fun _ => hlast, nofun⟩
    · rename_i hmore
      cases h
      refine ⟨rfl, fun _ => Nat.lt_of_not_le hmore, fun hfailed => ?_, fun hdispatched => ?_⟩
      · exact absurd (hfailed.symm.trans (status_failedRow e hstatus)) (by decide)
      · exact absurd (hdispatched.symm.trans (status_failedRow e hstatus)) (by decide)

/-- What a commit does to the row of an event and to its history. -/
inductive Told (i : Nat) (s : Store) (c : NotificationCommit) (s' : Store) : Prop
  | same (look : s'.look i = s.look i) (failures : failedAttempts i [c] = 0)
      (unclaimed : ∀ r ∈ c.result.results, r.1 ≠ i)
  | enqueued (e : OutboxEvent) (absent : s.event i = none) (pending : e.status = .pending) (attempts : e.attempts = 0)
      (look : s'.look i = (some e, s.historyOf i)) (failures : failedAttempts i [c] = 0)
      (unclaimed : ∀ r ∈ c.result.results, r.1 ≠ i)
  | dispatched (now : Int) (skipped : List Nat) (faults : List (Nat × Faults)) (t : Tx Store Key Write)
      (results : List (Nat × DispatchResult)) (commit : c = ⟨.poll now skipped faults, t, .polled results⟩)
      (e : OutboxEvent) (row : s.event i = some e) (pending : e.status = .pending) (resolver : RecipientResolver)
      (vs : List Store) (effective : List Effective)
      (lookup : recipientResolvers.lookup e.eventKey = some resolver) (inside : vs <:+: t.seen)
      (recipients : (effectiveRecipients resolver e).answered vs = some (.ok effective))
      (look : s'.look i = (some (e.dispatchedRow now), s.historyOf i ++ historyRows now e effective))
      (failures : failedAttempts i [c] = 0)
  | failed (e e' : OutboxEvent) (row : s.event i = some e) (pending : e.status = .pending) (retried : Retried e e')
      (look : s'.look i = (some e', s.historyOf i)) (failures : failedAttempts i [c] = 1)

theorem told_of_outcome (h : NotificationOutcome i c.tx s c.op c.result) : Told i s c (c.tx.view s) := by
  obtain ⟨op, t, a⟩ := c
  have hlook := look_view t s i
  cases h with
  | untouched writes unclaimed =>
    rw [writes] at hlook
    exact .same hlook (failedAttempts_unclaimed unclaimed) unclaimed
  | @processed now skipped faults results e result id claimed once processed =>
    have hid : s.event i = some e := id ▸ claimed.row
    have hcount := failedAttempts_once (c := ⟨.poll now skipped faults, t, .polled results⟩) once
    generalize hws : about i t = ws at processed
    rw [hws] at hlook
    cases processed with
    | dispatched resolver vs effective lookup inside recipients =>
      refine .dispatched now skipped faults t results rfl e hid claimed.pending resolver vs effective lookup inside
        recipients ?_ hcount
      have hrows := look_insertAll (historyRows now e effective) (id ▸ event_of_historyRows now e effective) s
      have hback : ∀ v : Store, (Relational.apply v (Write.markDispatched i now)).look i =
          ((v.event i).map fun e => e.dispatchedRow now, v.historyOf i) := by
        intro v
        refine Prod.ext ?_ rfl
        show (Relational.apply v (Write.markDispatched i now)).event i = _
        rw [event_markDispatched]
        simp
      rw [List.foldl_append, List.foldl_cons, List.foldl_nil, id, hback] at hlook
      rw [hlook]
      generalize ((historyRows now e effective).map Write.insertNotification).foldl Relational.apply s = v at hrows ⊢
      have hevent : v.event i = some e := (congrArg Prod.fst hrows).trans hid
      have hhistory : v.historyOf i = s.historyOf i ++ historyRows now e effective := congrArg Prod.snd hrows
      rw [hevent, hhistory, Option.map_some]
    | failed reason fresh marked =>
      refine .failed e (e.failedRow fresh) hid claimed.pending (retried_of_markFailed marked) ?_ hcount
      rw [hlook]
      refine Prod.ext ?_ rfl
      show (Relational.apply s (Write.markFailedWithRetry e.id fresh)).event i = _
      rw [event_markFailed, hid, id]
      simp
  | @enqueued now input absent held writes =>
    rw [writes] at hlook
    have hunclaimed : ∀ r ∈ (Response.enqueued i).results, r.1 ≠ i := fun r hr => absurd hr List.not_mem_nil
    refine .enqueued (.create i input.kindergartenId input.eventKey input.payload now) absent rfl rfl ?_ (failedAttempts_unclaimed hunclaimed) hunclaimed
    rw [hlook]
    refine Prod.ext ?_ rfl
    show (Relational.apply s (Write.enqueue _)).event i = _
    rw [event_enqueue, absent, Option.none_or]
    exact if_pos rfl

theorem DispatchedBy.congr (h : DispatchedBy s i c) (hlook : s'.look i = s.look i) : DispatchedBy s' i c := by
  have hevent : s'.event i = s.event i := congrArg Prod.fst hlook
  have hhistory : s'.historyOf i = s.historyOf i := congrArg Prod.snd hlook
  cases h with
  | intro e resolver vs effective row lookup seen recipients history distinct =>
    exact .intro e resolver vs effective (hevent.trans row) lookup seen recipients (hhistory ▸ history) distinct

theorem nodup_historyRows (now : Int) (e : OutboxEvent) {effective : List Effective}
    (h : (effective.map Effective.userId).Nodup) : ((historyRows now e effective).map Notification.userId).Nodup := by
  rw [userIds_historyRows]
  exact h.sublist (List.filter_sublist.map _)

theorem Told.consistent (h : Told i s c s') (hs : EventConsistent (s.event i) (s.historyOf i)) :
    EventConsistent (s'.event i) (s'.historyOf i) := by
  have hevent : s'.event i = (s'.look i).1 := rfl
  have hhistory : s'.historyOf i = (s'.look i).2 := rfl
  rw [hevent, hhistory]
  cases h with
  | same look failures unclaimed =>
    rw [look]
    exact hs
  | enqueued e absent pending attempts look failures unclaimed =>
    rw [look, hs.known absent]
    refine ⟨List.nodup_nil, fun _ _ _ => rfl, fun _ => rfl, fun e' he' _ => ?_, fun e' he' hfailed => ?_⟩
    · obtain rfl := Option.some.inj he'
      rw [attempts]
      decide
    · obtain rfl := Option.some.inj he'
      rw [pending] at hfailed
      cases hfailed
  | dispatched now skipped faults t results commit e row pending resolver vs effective lookup inside recipients look
      failures =>
    rw [look, hs.silent e row (by rw [pending]; decide), List.nil_append]
    refine ⟨nodup_historyRows now e (nodup_effective lookup recipients), fun e' he' hne => ?_, nofun,
      fun e' he' hpending => ?_, fun e' he' hfailed => ?_⟩
    all_goals obtain rfl := Option.some.inj he'
    · exact absurd rfl hne
    · cases hpending
    · cases hfailed
  | failed e e' row pending retried look failures =>
    rw [look, hs.silent e row (by rw [pending]; decide)]
    refine ⟨List.nodup_nil, fun _ _ _ => rfl, fun _ => rfl, fun e₁ he₁ hpending => ?_, fun e₁ he₁ hfailed => ?_⟩
    all_goals obtain rfl := Option.some.inj he₁
    · rw [retried.attempts]
      exact retried.pending hpending
    · have hbefore := hs.pending e row pending
      have hlast := retried.failed hfailed
      rw [retried.attempts]
      omega

theorem Told.dispatchedBy (h : Told i s c s') (hs : EventConsistent (s.event i) (s.historyOf i))
    (he : s'.event i = some e) (hstatus : e.status = .dispatched) : s'.look i = s.look i ∨ DispatchedBy s' i c := by
  have hevent : (s'.look i).1 = some e := he
  cases h with
  | same look failures unclaimed => exact .inl look
  | enqueued e' absent pending attempts look failures unclaimed =>
    rw [look] at hevent
    obtain rfl := Option.some.inj hevent
    rw [pending] at hstatus
    cases hstatus
  | failed e₀ e' row pending retried look failures =>
    rw [look] at hevent
    obtain rfl := Option.some.inj hevent
    exact absurd hstatus retried.undelivered
  | dispatched now skipped faults t results commit e₀ row pending resolver vs effective lookup inside recipients look
      failures =>
    right
    rw [hs.silent e₀ row (by rw [pending]; decide), List.nil_append] at look
    have hhistory : s'.historyOf i = historyRows now e₀ effective := congrArg Prod.snd look
    rw [commit]
    refine .intro e₀ resolver vs effective (congrArg Prod.fst look) lookup inside recipients ?_
      (nodup_effective lookup recipients)
    rw [hhistory, userIds_historyRows]

theorem Told.attempts (h : Told i s c s') :
    (s'.event i).elim 0 OutboxEvent.attempts = (s.event i).elim 0 OutboxEvent.attempts + failedAttempts i [c] := by
  have hevent : s'.event i = (s'.look i).1 := rfl
  rw [hevent]
  cases h with
  | same look failures unclaimed =>
    rw [look, failures]
    rfl
  | enqueued e absent pending attempts look failures unclaimed =>
    rw [look, absent, failures]
    exact attempts
  | failed e e' row pending retried look failures =>
    rw [look, row, failures]
    exact retried.attempts
  | dispatched now skipped faults t results commit e row pending resolver vs effective lookup inside recipients look
      failures =>
    rw [look, row, failures]
    rfl

theorem Told.final (h : Told i s c s') (he : s.event i = some e) (hstatus : e.status ≠ .pending) :
    s'.event i = some e := by
  have hne : ∀ e', s.event i = some e' → e'.status ≠ .pending := fun e' he' => Option.some.inj (he ▸ he') ▸ hstatus
  cases h with
  | same look failures unclaimed => exact (congrArg Prod.fst look).trans he
  | enqueued e' absent pending attempts look failures unclaimed =>
    rw [absent] at he
    cases he
  | failed e₀ e' row pending retried look failures => exact absurd pending (hne e₀ row)
  | dispatched now skipped faults t results commit e₀ row pending resolver vs effective lookup inside recipients look
      failures => exact absurd pending (hne e₀ row)

theorem Told.claimed (h : Told i s c s') (hclaimed : ∃ r ∈ c.result.results, r.1 = i) :
    ∃ e, s.event i = some e ∧ e.status = .pending := by
  obtain ⟨r, hr, hi⟩ := hclaimed
  cases h with
  | same look failures unclaimed => exact absurd hi (unclaimed r hr)
  | enqueued e absent pending attempts look failures unclaimed => exact absurd hi (unclaimed r hr)
  | failed e e' row pending retried look failures => exact ⟨e, row, pending⟩
  | dispatched now skipped faults t results commit e row pending resolver vs effective lookup inside recipients look
      failures => exact ⟨e, row, pending⟩

end

/-! ## Runs -/

section

variable {n : Nat} {s : Store} {σ : System n} {cs : Schedule n}

theorem run_told (hs : UniqueEvents s) (hrun : run s cs = some σ) :
    Chain (fun s c => UniqueEvents (c.tx.view s) ∧ ∀ i, Told i s c (c.tx.view s)) s σ.log σ.db :=
  (run_outcomes hs hrun).mono fun _ _ ⟨hj, houtcome, hfresh⟩ => ⟨hfresh.unique hj, fun i => told_of_outcome (houtcome i)⟩

theorem DeliveryHistory.snoc {s₀ : Store} {log : List NotificationCommit} {c : NotificationCommit}
    (h : DeliveryHistory s₀ log s) (hreplay : replay s₀ log = s) (hunique : UniqueEvents (c.tx.view s))
    (htold : ∀ i, Told i s c (c.tx.view s)) : DeliveryHistory s₀ (log ++ [c]) (c.tx.view s) where
  consistent := ⟨hunique, fun i => (htold i).consistent (h.consistent.events i)⟩
  dispatched i e he hstatus := by
    rcases (htold i).dispatchedBy (h.consistent.events i) he hstatus with hlook | hby
    · have hevent : s.event i = some e := (congrArg Prod.fst hlook).symm.trans he
      rcases h.dispatched i e hevent hstatus with ⟨hbefore, hhistory⟩ | ⟨c', hc', hby⟩
      · exact .inl ⟨hbefore, (congrArg Prod.snd hlook).trans hhistory⟩
      · exact .inr ⟨c', List.mem_append_left _ hc', hby.congr hlook⟩
    · exact .inr ⟨c, List.mem_append_right _ (List.mem_singleton.2 rfl), hby⟩
  attempts i := by
    rw [failedAttempts_snoc, (htold i).attempts, h.attempts i, Nat.add_assoc]
  claimed := by
    rw [atEach_snoc, hreplay]
    exact ⟨h.claimed, fun r hr => (htold r.1).claimed ⟨r, hr, rfl⟩⟩
  final i e hstatus := by
    rw [lasting_iff, atEach_snoc, hreplay, ← lasting_iff]
    exact ⟨h.final i e hstatus, fun he => (htold i).final he hstatus⟩

theorem DeliveryHistory.nil (hs : Consistent s) : DeliveryHistory s [] s :=
  ⟨hs, fun _ _ he _ => .inl ⟨he, rfl⟩, fun _ => rfl, trivial, fun _ _ _ => lasting_iff.2 trivial⟩

/-- **The history of a delivery**, for every interleaving of pollers, whatever rows they skip and whatever throws. -/
theorem delivery_history (hs : Consistent s) (hrun : run s cs = some σ) : DeliveryHistory s σ.log σ.db := by
  have hchain := run_told hs.unique hrun
  refine (hchain.invLog (fun l v => replay s l = v ∧ DeliveryHistory s l v) ⟨rfl, .nil hs⟩ ?_).2
  intro l v c ⟨hreplay, h⟩ ⟨hunique, htold⟩
  exact ⟨by rw [replay_snoc, hreplay], h.snoc hreplay hunique htold⟩

end

/-! ## Two pollers -/

/-- An event for Aida, and one that nobody can dispatch and that has one attempt left. -/
def twoEvents : Store :=
  ⟨[⟨1, "kg", "guardian.approved", [("guardianUserId", .text "aida")], .pending, 3, 0, none, none⟩,
    ⟨2, "kg", "guardian.unknown", [], .pending, 4, 0, none, none⟩], [], ⟨[], [], [], []⟩⟩

/-- Both see both events; each locks one and skips the other. -/
def twoPollers : Schedule 2 :=
  [.start 0 (.poll 10 [2] []), .start 1 (.poll 10 [1] []), .step 0 0, .step 1 0] ++ Choice.steps 0 7 0 ++
    Choice.steps 1 4 0

theorem consistent_twoEvents : Consistent twoEvents where
  unique := by
    unfold Table.Unique
    decide
  events i := by
    refine ⟨List.nodup_nil, fun _ _ _ => rfl, fun _ => rfl, fun e he _ => ?_, fun e he hstatus => ?_⟩
    all_goals
      have hmem : e ∈ twoEvents.outbox := Table.mem_of_find he
      rcases List.mem_cons.1 hmem with rfl | hmem
    · decide
    · obtain rfl := List.mem_singleton.1 hmem
      decide
    · cases hstatus
    · obtain rfl := List.mem_singleton.1 hmem
      cases hstatus

theorem delivery_history_twoPollers : ∃ σ : System 2, run twoEvents twoPollers = some σ ∧ σ.log.length = 2 ∧
    σ.db.history = [⟨1, "kg", "aida", "guardian.approved", 10⟩] ∧
    (σ.db.outbox.map fun e => (e.status, e.attempts)) = [(.dispatched, 3), (.failed, 5)] ∧
    DeliveryHistory twoEvents σ.log σ.db := by
  obtain ⟨σ, hrun, hp⟩ := run_shows run twoEvents twoPollers
    (fun σ => decide (σ.log.length = 2 ∧ σ.db.history = [⟨1, "kg", "aida", "guardian.approved", 10⟩] ∧
      (σ.db.outbox.map fun e => (e.status, e.attempts)) = [(.dispatched, 3), (.failed, 5)])) (by decide +kernel)
  obtain ⟨hlog, hhistory, houtbox⟩ := of_decide_eq_true hp
  exact ⟨σ, hrun, hlog, hhistory, houtbox, delivery_history consistent_twoEvents hrun⟩

end Notifications
