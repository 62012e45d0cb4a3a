import Shyraq.Polling.Ticks

/-!
# A payment is followed to its end

The newest job of a payment is the one that is waiting or at work, so that the tick after it is never refused.  A tick ends
the chain where it does not find the row, and a settlement that throws ends it too.
-/

namespace Polling

open Billing Transactions

/-! ## What is claimed -/

/-- A Kaspi payment that is committed and has had its first job is terminal, or has a tick. -/
def State.Watched (σ : State) : Prop :=
  ∀ row ∈ σ.rows, row.visible = true → row.payment.provider = .kaspiPay → row.payment.id ∈ σ.enqueued →
    row.payment.status.inFlight = false ∨
      ∃ job ∈ σ.jobs, job.id.paymentId = row.payment.id ∧ job.state.pending = true

instance (σ : State) : Decidable σ.Watched := inferInstanceAs (Decidable (∀ _ ∈ _, _))

/-- No tick looks for a payment whose `initiate` has not committed, and what a tick waits for throws only once the payment
is terminal. -/
def State.smooth (σ : State) : Event → Bool
  | .load id => (σ.row id.paymentId).all PaymentRow.visible
  | .settle id false | .notify id false => (σ.row id.paymentId).all fun row => !row.payment.status.inFlight
  | _ => true

def State.smoothRun (cadence : Cadence) : State → List Event → Bool
  | _, [] => true
  | σ, e :: events => σ.smooth e && (σ.step cadence e).all fun σ' => smoothRun cadence σ' events

/-! ## The queue -/

section

variable {σ : State} {id id' : JobId} {state : JobState} {delay : Int}

theorem job_setJob : (σ.setJob id state).job id' = if id' = id then (σ.job id).map fun _ => state else σ.job id' := by
  unfold State.job State.setJob
  dsimp only
  induction σ.jobs with
  | nil =>
    by_cases h : id' = id
    · rw [if_pos h]
      rfl
    · rw [if_neg h]
      rfl
  | cons job jobs ih =>
    rw [List.map_cons, List.find?_cons, List.find?_cons, List.find?_cons]
    by_cases hjob : job.id = id
    · rw [if_pos hjob]
      by_cases h : id' = id
      · subst h
        simp [hjob]
      · have hne : ¬id = id' := fun heq => h heq.symm
        simp only [hjob, beq_self_eq_true, beq_eq_false_iff_ne.2 hne, if_neg h] at ih ⊢
        exact ih
    · rw [if_neg hjob]
      by_cases hjob' : job.id = id'
      · have hne : ¬id' = id := fun heq => hjob (hjob'.trans heq)
        simp [hjob', hne]
      · simp only [beq_eq_false_iff_ne.2 hjob, beq_eq_false_iff_ne.2 hjob']
        exact ih

theorem isSome_setJob : ((σ.setJob id state).job id').isSome = (σ.job id').isSome := by
  rw [job_setJob]
  by_cases h : id' = id
  · rw [if_pos h, h, Option.isSome_map]
  · rw [if_neg h]

theorem job_add : (σ.add id delay).job id' =
    if id' = id ∧ σ.job id = none then some (.delayed (σ.now + delay)) else σ.job id' := by
  unfold State.add
  cases hjob : σ.job id with
  | some state =>
    have hsome : (some state).isSome = true := rfl
    have hnot : ¬(id' = id ∧ some state = none) := fun h => (nomatch h.2)
    rw [if_pos hsome, if_neg hnot]
  | none =>
    rw [if_neg (by decide)]
    unfold State.job at hjob ⊢
    dsimp only
    rw [List.find?_append]
    by_cases h : id' = id
    · subst h
      rw [Option.map_eq_none_iff] at hjob
      simp [hjob]
    · have hne : ¬id = id' := fun heq => h heq.symm
      simp [h, hne]

theorem rows_add : (σ.add id delay).rows = σ.rows ∧ (σ.add id delay).enqueued = σ.enqueued := by
  unfold State.add
  split <;> exact ⟨rfl, rfl⟩

theorem job_forget : State.job { σ with jobs := σ.jobs.filter fun job => decide (job.id ≠ id) } id' =
    if id' = id then none else σ.job id' := by
  unfold State.job
  dsimp only
  rw [List.find?_filter]
  by_cases h : id' = id
  · subst h
    rw [if_pos rfl, Option.map_eq_none_iff, List.find?_eq_none]
    intro job _
    simp
  · rw [if_neg h]
    congr 2
    funext job
    by_cases hjob : job.id = id'
    · have hne : job.id ≠ id := fun heq => h (hjob.symm.trans heq)
      simp [hjob, h]
    · simp [hjob]

theorem mem_of_job (h : σ.job id = some state) : ∃ job ∈ σ.jobs, job.id = id ∧ job.state = state := by
  unfold State.job at h
  rw [Option.map_eq_some_iff] at h
  obtain ⟨job, hfind, rfl⟩ := h
  exact ⟨job, List.mem_of_find?_eq_some hfind, by simpa using List.find?_some hfind, rfl⟩

end

/-! ## The invariant -/

/-- The newest job of a payment is waiting or at work. -/
def State.Followed (σ : State) (paymentId : Nat) : Prop :=
  ∃ tick state, σ.job ⟨paymentId, tick⟩ = some state ∧ state.pending = true ∧
    ∀ tick', (σ.job ⟨paymentId, tick'⟩).isSome = true → tick' ≤ tick

structure State.Inv (σ : State) : Prop where
  unique : Table.Unique σ.rows
  kaspi : ∀ i row, σ.row i = some row → i ∈ σ.enqueued → row.payment.provider = .kaspiPay
  known : ∀ id, (σ.job id).isSome = true → id.paymentId ∈ σ.enqueued
  /-- A tick that has seen its row can count on it. -/
  seen : ∀ id tick, σ.job id = some (.active tick) → tick ≠ .load →
    ∃ row, σ.row id.paymentId = some row ∧ row.visible = true
  followed : ∀ i row, σ.row i = some row → i ∈ σ.enqueued → row.payment.status.inFlight = true → σ.Followed i

section

variable {cadence : Cadence} {σ σ' : State} {id : JobId} {state : JobState} {i : Nat}

/-- The payment of a job is past its settlement, or there is none. -/
def State.Over (σ : State) (i : Nat) : Prop := ∀ row, σ.row i = some row → row.payment.status.inFlight = false

variable {before : JobState} {result : KaspiPollResult} {payment : Payment}

theorem State.Inv.setJob (h : σ.Inv) (hjob : σ.job id = some before)
    (hstate : state.pending = true ∨ σ.Over id.paymentId)
    (hseen : ∀ tick, state = .active tick → tick ≠ .load → ∃ row, σ.row id.paymentId = some row ∧ row.visible = true) :
    (σ.setJob id state).Inv := by
  refine ⟨h.unique, h.kaspi, fun id' hsome => ?_, fun id' tick hid' hload => ?_, fun i row hrow hin hflight => ?_⟩
  · rw [isSome_setJob] at hsome
    exact h.known id' hsome
  · rw [job_setJob] at hid'
    by_cases hid : id' = id
    · rw [if_pos hid, hjob, Option.map_some] at hid'
      subst hid
      exact hseen tick (Option.some.inj hid') hload
    · rw [if_neg hid] at hid'
      exact h.seen id' tick hid' hload
  · obtain ⟨tick, state', hnewest, hpending, hlast⟩ := h.followed i row hrow hin hflight
    have hlast' : ∀ tick', ((σ.setJob id state).job ⟨i, tick'⟩).isSome = true → tick' ≤ tick := fun tick' hsome =>
      hlast tick' (isSome_setJob ▸ hsome)
    by_cases hid : (⟨i, tick⟩ : JobId) = id
    · refine ⟨tick, state, ?_, ?_, hlast'⟩
      · rw [job_setJob, if_pos hid, hjob, Option.map_some]
      · rcases hstate with hstate | hover
        · exact hstate
        · subst hid
          rw [hover row hrow] at hflight
          cases hflight
    · refine ⟨tick, state', ?_, hpending, hlast'⟩
      rw [job_setJob, if_neg hid]
      exact hnewest

theorem State.Inv.proceed {poll : Poll} (h : σ.Inv) (hjob : σ.job id = some before)
    (hseen : (∃ row, σ.row id.paymentId = some row ∧ row.visible = true) ∨ ∃ result, poll = .done result ∧
      result.outcome ≠ .reschedule)
    (hdone : ∀ result, poll = .done result → result.outcome ≠ .reschedule → σ.Over id.paymentId) :
    (σ.proceed id poll).Inv := by
  cases poll with
  | goOn tick =>
    refine h.setJob hjob (.inl rfl) fun _ _ _ => hseen.resolve_right ?_
    rintro ⟨result, hresult, -⟩
    cases hresult
  | done result =>
    unfold State.proceed
    dsimp only
    by_cases houtcome : result.outcome = .reschedule
    · rw [if_pos houtcome]
      refine h.setJob hjob (.inl rfl) fun _ _ _ => hseen.resolve_right ?_
      rintro ⟨result', hresult, hne⟩
      cases hresult
      exact hne houtcome
    · rw [if_neg houtcome]
      exact h.setJob hjob (.inr (hdone result rfl houtcome)) fun _ hactive => (nomatch hactive)

theorem State.Inv.rows {rows : List PaymentRow} (h : σ.Inv) (hunique : Table.Unique rows)
    (hback : ∀ i row, Table.find rows i = some row → i ∈ σ.enqueued → ∃ row₀, σ.row i = some row₀ ∧
      row.payment.provider = row₀.payment.provider ∧
      (row.payment.status.inFlight = true → row₀.payment.status.inFlight = true))
    (hvisible : ∀ i row, σ.row i = some row → row.visible = true → ∃ row', Table.find rows i = some row' ∧
      row'.visible = true) : State.Inv { σ with rows := rows } := by
  refine ⟨hunique, fun i row hrow hin => ?_, h.known, fun id tick hid hload => ?_, fun i row hrow hin hflight => ?_⟩
  · obtain ⟨row₀, hrow₀, hprovider, -⟩ := hback i row hrow hin
    rw [hprovider]
    exact h.kaspi i row₀ hrow₀ hin
  · obtain ⟨row, hrow, hv⟩ := h.seen id tick hid hload
    exact hvisible id.paymentId row hrow hv
  · obtain ⟨row₀, hrow₀, -, hback⟩ := hback i row hrow hin
    exact h.followed i row₀ hrow₀ hin (hback hflight)

theorem inFlight_of_patch {patch : PaymentPatch} {p : Payment} (haccepts : patch.accepts p = true)
    (h : (patch.set p).status.inFlight = true) : p.status.inFlight = true := by
  cases hp : p.status.inFlight with
  | true => rfl
  | false =>
    rw [inFlight_of_reaches (PaymentPatch.step haccepts).status hp] at h
    cases h

theorem row_patched (patch : PaymentPatch) (j : Nat) : (σ.patched i patch).row j = (σ.row j).map fun row =>
    if j = i ∧ (row.visible && patch.accepts row.payment) = true then State.patchRow patch row else row :=
  Table.find_updateWhere σ.rows i _ (State.patchRow patch) (fun row => patch.id_set row.payment) j

theorem visible_patched (patch : PaymentPatch) {j : Nat} {row : PaymentRow} (hrow : σ.row j = some row)
    (hvisible : row.visible = true) : ∃ row', (σ.patched i patch).row j = some row' ∧ row'.visible = true := by
  rw [row_patched, hrow, Option.map_some]
  by_cases hhit : j = i ∧ (row.visible && patch.accepts row.payment) = true
  · rw [if_pos hhit]
    exact ⟨_, rfl, hvisible⟩
  · rw [if_neg hhit]
    exact ⟨row, rfl, hvisible⟩

theorem State.Inv.patched (h : σ.Inv) (i : Nat) (patch : PaymentPatch) : (σ.patched i patch).Inv := by
  refine h.rows (Table.unique_updateWhere h.unique _ _ (State.patchRow patch) fun row => patch.id_set row.payment)
    (fun j row hrow _ => ?_) fun j row hrow hvisible => ?_
  · have hrow' : (σ.patched i patch).row j = some row := hrow
    rw [row_patched, Option.map_eq_some_iff] at hrow'
    obtain ⟨row₀, hrow₀, rfl⟩ := hrow'
    refine ⟨row₀, hrow₀, ?_⟩
    by_cases hhit : j = i ∧ (row₀.visible && patch.accepts row₀.payment) = true
    · rw [if_pos hhit]
      have haccepts := (Bool.and_eq_true_iff.1 hhit.2).2
      exact ⟨(PaymentPatch.step haccepts).provider, inFlight_of_patch haccepts⟩
    · rw [if_neg hhit]
      exact ⟨rfl, id⟩
  · exact visible_patched patch hrow hvisible

/-! ### The ticks -/

theorem unlessExpired_done {txn : Nat} {now : Int} {details : ParsedRemoteDetails}
    (h : PollOnce.unlessExpired payment txn now details = .done result) : result.outcome = .reschedule := by
  unfold PollOnce.unlessExpired at h
  split at h
  · cases h
  · cases h
    rfl

theorem fetched_done {txn : Nat} {now : Int} {answer : Option ParsedRemoteDetails}
    (h : PollOnce.fetched payment txn now answer = .done result) : result.outcome = .reschedule := by
  cases answer with
  | none =>
    cases h
    rfl
  | some details =>
    unfold PollOnce.fetched at h
    dsimp only at h
    split at h
    · cases h
    · cases h
    · cases h
    · exact unlessExpired_done h

theorem loaded_done {now : Int} (hprovider : payment.provider = .kaspiPay)
    (h : PollOnce.loaded cadence now (some payment) = .done result) (houtcome : result.outcome ≠ .reschedule) :
    payment.status.inFlight = false := by
  unfold PollOnce.loaded at h
  dsimp only at h
  split at h
  · next hstop => exact hstop.resolve_left fun hne => hne hprovider
  · split at h
    · cases h
      exact absurd rfl houtcome
    · split at h <;> cases h

theorem State.Inv.load (h : σ.Inv) (hjob : σ.job id = some before)
    (hvisible : (σ.row id.paymentId).all PaymentRow.visible = true) :
    (σ.proceed id (PollOnce.loaded cadence σ.now (σ.payment id.paymentId))).Inv := by
  unfold State.payment
  cases hrow : σ.row id.paymentId with
  | none =>
    refine h.proceed hjob (.inr ⟨_, rfl, by decide⟩) fun _ _ _ row hrow' => ?_
    rw [hrow] at hrow'
    cases hrow'
  | some row =>
    rw [hrow, Option.all_some] at hvisible
    rw [Option.filter_some, if_pos hvisible, Option.map_some]
    refine h.proceed hjob (.inl ⟨row, hrow, hvisible⟩) fun result hresult houtcome row' hrow' => ?_
    obtain rfl := Option.some.inj (hrow.symm.trans hrow')
    have hin := h.known id (by rw [hjob]; rfl)
    exact loaded_done (h.kaspi id.paymentId row hrow hin) hresult houtcome

theorem over_settled {terminal : VerifyWebhookResult} {row : PaymentRow} (hrow : σ.row i = some row)
    (hvisible : row.visible = true) : (σ.patched i (σ.settlementPatch terminal)).Over i := by
  intro row' hrow'
  rw [row_patched, hrow, Option.map_some, hvisible, Bool.true_and] at hrow'
  obtain rfl := Option.some.inj hrow'
  have hpatch : (σ.settlementPatch terminal).accepts row.payment = row.payment.status.inFlight ∧
      (σ.settlementPatch terminal).next.inFlight = false := by
    unfold State.settlementPatch
    split <;> exact ⟨rfl, rfl⟩
  by_cases hflight : row.payment.status.inFlight = true
  · rw [if_pos ⟨rfl, hpatch.1.trans hflight⟩]
    unfold State.patchRow
    rw [PaymentPatch.status_set]
    exact hpatch.2
  · rw [if_neg fun hhit => hflight (hpatch.1.symm.trans hhit.2)]
    exact Bool.not_eq_true _ ▸ hflight

theorem State.Inv.settle {terminal : VerifyWebhookResult} (h : σ.Inv)
    (hjob : σ.job id = some before) (hseen : ∃ row, σ.row id.paymentId = some row ∧ row.visible = true) :
    (σ.settleFromKaspiPoller id terminal result).Inv := by
  obtain ⟨row, hrow, hvisible⟩ := hseen
  have hpayment : σ.payment id.paymentId = some row.payment := by
    unfold State.payment
    rw [hrow, Option.filter_some, if_pos hvisible, Option.map_some]
  unfold State.settleFromKaspiPoller
  rw [hpayment]
  have hpatched := h.patched id.paymentId (σ.settlementPatch terminal)
  have hjob' : (σ.patched id.paymentId (σ.settlementPatch terminal)).job id = some before := hjob
  exact hpatched.proceed hjob' (.inl (visible_patched _ hrow hvisible)) fun _ _ _ => over_settled hrow hvisible

theorem State.Inv.reschedule (h : σ.Inv) (hjob : σ.job id = some before) : (σ.reschedule cadence id result).Inv := by
  have hin := h.known id (by rw [hjob]; rfl)
  unfold State.reschedule
  generalize nextDelayMs cadence (result.paymentCreatedAt.getD σ.now) σ.now = delay
  have hne : id ≠ ⟨id.paymentId, id.tick + 1⟩ := fun heq => by
    have htick := congrArg JobId.tick heq
    dsimp only at htick
    omega
  have hafter : ∀ id', ((σ.add ⟨id.paymentId, id.tick + 1⟩ delay).setJob id .completed).job id' =
      if id' = id then some .completed
      else if id' = ⟨id.paymentId, id.tick + 1⟩ ∧ σ.job ⟨id.paymentId, id.tick + 1⟩ = none then
        some (.delayed (σ.now + delay))
      else σ.job id' := by
    intro id'
    have hself : (σ.add ⟨id.paymentId, id.tick + 1⟩ delay).job id = some before := by
      rw [job_add, if_neg fun heq => hne heq.1, hjob]
    rw [job_setJob, hself, job_add]
    rfl
  have hadded : (σ.add ⟨id.paymentId, id.tick + 1⟩ delay).rows = σ.rows ∧
      (σ.add ⟨id.paymentId, id.tick + 1⟩ delay).enqueued = σ.enqueued := rows_add
  obtain ⟨hrows, henqueued⟩ := hadded
  have hrow : ∀ i, ((σ.add ⟨id.paymentId, id.tick + 1⟩ delay).setJob id .completed).row i = σ.row i := fun i =>
    congrArg (fun l => Table.find l i) hrows
  refine ⟨hrows ▸ h.unique, fun i row hrow' hin' => ?_, fun id' hsome => ?_, fun id' tick hid' hload => ?_,
    fun i row hrow' hin' hflight => ?_⟩
  · exact h.kaspi i row ((hrow i).symm.trans hrow') (henqueued ▸ hin')
  · show id'.paymentId ∈ (σ.add ⟨id.paymentId, id.tick + 1⟩ delay).enqueued
    rw [henqueued]
    rw [hafter] at hsome
    by_cases hid : id' = id
    · rw [hid]
      exact hin
    · rw [if_neg hid] at hsome
      split at hsome
      · next hnext =>
        rw [hnext.1]
        exact hin
      · exact h.known id' hsome
  · rw [hrow]
    rw [hafter] at hid'
    split at hid'
    · cases hid'
    · split at hid'
      · cases hid'
      · exact h.seen id' tick hid' hload
  · obtain ⟨tick, state, hnewest, hpending, hlast⟩ :=
      h.followed i row ((hrow i).symm.trans hrow') (henqueued ▸ hin') hflight
    by_cases hi : i = id.paymentId
    · subst hi
      have hle : id.tick ≤ tick := hlast id.tick (by rw [hjob]; rfl)
      by_cases htick : tick = id.tick
      · -- this tick is the newest, and the one it adds is the next
        have hfree : σ.job ⟨id.paymentId, id.tick + 1⟩ = none := by
          cases hnext : σ.job ⟨id.paymentId, id.tick + 1⟩ with
          | none => rfl
          | some next =>
            have hle' := hlast (id.tick + 1) (by rw [hnext]; rfl)
            omega
        refine ⟨id.tick + 1, .delayed (σ.now + delay), ?_, rfl, fun tick' hsome => ?_⟩
        · rw [hafter, if_neg fun heq => hne heq.symm, if_pos ⟨rfl, hfree⟩]
        · rw [hafter] at hsome
          split at hsome
          · next heq =>
            have heq' := congrArg JobId.tick heq
            dsimp only at heq'
            omega
          · split at hsome
            · next heq =>
              have heq' := congrArg JobId.tick heq.1
              dsimp only at heq'
              omega
            · have hle' := hlast tick' hsome
              omega
      · -- a newer tick is there
        refine ⟨tick, state, ?_, hpending, fun tick' hsome => ?_⟩
        · rw [hafter, if_neg fun heq => htick (congrArg JobId.tick heq), if_neg, hnewest]
          rintro ⟨heq, hnone⟩
          rw [heq, hnone] at hnewest
          cases hnewest
        · rw [hafter] at hsome
          split at hsome
          · next heq =>
            have heq' := congrArg JobId.tick heq
            dsimp only at heq'
            omega
          · split at hsome
            · next heq =>
              have heq' := congrArg JobId.tick heq.1
              dsimp only at heq'
              omega
            · exact hlast tick' hsome
    · have hother : ∀ tick', ((σ.add ⟨id.paymentId, id.tick + 1⟩ delay).setJob id .completed).job ⟨i, tick'⟩ =
          σ.job ⟨i, tick'⟩ := by
        intro tick'
        rw [hafter, if_neg fun heq => hi (congrArg JobId.paymentId heq),
          if_neg fun heq => hi (congrArg JobId.paymentId heq.1)]
      refine ⟨tick, state, (hother tick).trans hnewest, hpending, fun tick' hsome => ?_⟩
      rw [hother] at hsome
      exact hlast tick' hsome

/-! ### The other events -/

theorem State.Inv.initiate (h : σ.Inv) (hfree : σ.row payment.id = none)
    (hnew : payment.id ∉ σ.enqueued) : State.Inv { σ with rows := σ.rows ++ [⟨payment, false⟩] } := by
  have hadded : Table.Added σ.rows (σ.rows ++ [⟨payment, false⟩]) ⟨payment, false⟩ := .append hfree
  refine h.rows (Table.unique_append h.unique hfree) (fun i row hrow hin => ?_) fun i row hrow hvisible => ?_
  · rw [hadded.after] at hrow
    by_cases hi : i = payment.id
    · subst hi
      exact absurd hin hnew
    · exact ⟨row, (if_neg hi).symm.trans hrow, rfl, id⟩
  · have hi : i ≠ payment.id := fun hi => by
      rw [hi, hfree] at hrow
      cases hrow
    exact ⟨row, (hadded.after i).trans ((if_neg hi).trans hrow), hvisible⟩

theorem State.Inv.enqueue {row : PaymentRow} {delay : Int} (h : σ.Inv) (hrow : σ.row i = some row)
    (hprovider : row.payment.provider = .kaspiPay) (hnew : i ∉ σ.enqueued) :
    State.Inv { (σ.add ⟨i, 0⟩ delay) with enqueued := i :: σ.enqueued } := by
  have hnone : ∀ tick, σ.job ⟨i, tick⟩ = none := fun tick => by
    cases hjob : σ.job ⟨i, tick⟩ with
    | none => rfl
    | some state => exact absurd (h.known ⟨i, tick⟩ (by rw [hjob]; rfl)) hnew
  have hadded : (σ.add ⟨i, 0⟩ delay).rows = σ.rows ∧ (σ.add ⟨i, 0⟩ delay).enqueued = σ.enqueued := rows_add
  have hjob : ∀ id', (σ.add ⟨i, 0⟩ delay).job id' =
      if id' = ⟨i, 0⟩ then some (.delayed (σ.now + delay)) else σ.job id' := by
    intro id'
    rw [job_add]
    simp only [hnone, and_true]
  have hrows : ∀ j, State.row { (σ.add ⟨i, 0⟩ delay) with enqueued := i :: σ.enqueued } j = σ.row j := fun j =>
    congrArg (fun l => Table.find l j) hadded.1
  refine ⟨hadded.1 ▸ h.unique, fun j row' hrow' hin => ?_, fun id' hsome => ?_, fun id' tick hid' hload => ?_,
    fun j row' hrow' hin hflight => ?_⟩
  · rw [hrows] at hrow'
    rcases List.mem_cons.1 hin with rfl | hin
    · obtain rfl := Option.some.inj (hrow.symm.trans hrow')
      exact hprovider
    · exact h.kaspi j row' hrow' hin
  · have hsome' : ((σ.add ⟨i, 0⟩ delay).job id').isSome = true := hsome
    rw [hjob] at hsome'
    split at hsome'
    · next heq =>
      rw [heq]
      exact List.mem_cons_self
    · exact List.mem_cons_of_mem i (h.known id' hsome')
  · have hid : (σ.add ⟨i, 0⟩ delay).job id' = some (.active tick) := hid'
    rw [hjob] at hid
    rw [hrows]
    split at hid
    · cases hid
    · exact h.seen id' tick hid hload
  · rw [hrows] at hrow'
    rcases List.mem_cons.1 hin with rfl | hin
    · refine ⟨0, .delayed (σ.now + delay), (hjob _).trans (if_pos rfl), rfl, fun tick' hsome => ?_⟩
      have hsome' : ((σ.add ⟨j, 0⟩ delay).job ⟨j, tick'⟩).isSome = true := hsome
      rw [hjob, hnone] at hsome'
      split at hsome'
      · next heq => exact Nat.le_of_eq (congrArg JobId.tick heq)
      · cases hsome'
    · have hji : j ≠ i := fun hji => hnew (hji ▸ hin)
      have hother : ∀ tick, (σ.add ⟨i, 0⟩ delay).job ⟨j, tick⟩ = σ.job ⟨j, tick⟩ := fun tick =>
        (hjob _).trans (if_neg fun heq => hji (congrArg JobId.paymentId heq))
      obtain ⟨tick, state, hnewest, hpending, hlast⟩ := h.followed j row' hrow' hin hflight
      exact ⟨tick, state, (hother tick).trans hnewest, hpending, fun tick' hsome => hlast tick' (hother tick' ▸ hsome)⟩

theorem State.Inv.commit (h : σ.Inv) (i : Nat) :
    State.Inv { σ with rows := Table.updateWhere σ.rows i (fun _ => true) State.publish } := by
  have hfind : ∀ j, Table.find (Table.updateWhere σ.rows i (fun _ => true) State.publish) j =
      (σ.row j).map fun row => if j = i ∧ true = true then State.publish row else row := fun j =>
    Table.find_updateWhere σ.rows i _ State.publish (fun _ => rfl) j
  refine h.rows (Table.unique_updateWhere h.unique _ _ State.publish fun _ => rfl) (fun j row hrow _ => ?_)
    fun j row hrow hvisible => ?_
  · rw [hfind, Option.map_eq_some_iff] at hrow
    obtain ⟨row₀, hrow₀, rfl⟩ := hrow
    refine ⟨row₀, hrow₀, ?_⟩
    split <;> exact ⟨rfl, id⟩
  · rw [hfind, hrow, Option.map_some]
    split
    · exact ⟨_, rfl, rfl⟩
    · exact ⟨row, rfl, hvisible⟩

theorem State.Inv.rollback (h : σ.Inv) (i : Nat) : State.Inv { σ with
    rows := σ.rows.filter fun row => decide (row.payment.id ≠ i ∨ row.visible = true) } := by
  refine h.rows (Table.unique_filter h.unique _) (fun j row hrow _ => ?_) fun j row hrow hvisible => ?_
  · rw [Table.find_filter h.unique] at hrow
    exact ⟨row, hrow.1, rfl, id⟩
  · exact ⟨row, (Table.find_filter h.unique).2 ⟨hrow, decide_eq_true (.inr hvisible)⟩, hvisible⟩

theorem State.Inv.forget (h : σ.Inv) (hjob : σ.job id = some state) (hover : state.pending = false) :
    State.Inv { σ with jobs := σ.jobs.filter fun job => decide (job.id ≠ id) } := by
  have hless : ∀ id', (State.job { σ with jobs := σ.jobs.filter fun job => decide (job.id ≠ id) } id').isSome = true →
      (σ.job id').isSome = true := by
    intro id' hsome
    rw [job_forget] at hsome
    split at hsome
    · cases hsome
    · exact hsome
  refine ⟨h.unique, h.kaspi, fun id' hsome => h.known id' (hless id' hsome), fun id' tick hid' hload => ?_,
    fun i row hrow hin hflight => ?_⟩
  · rw [job_forget] at hid'
    split at hid'
    · cases hid'
    · exact h.seen id' tick hid' hload
  · obtain ⟨tick, state', hnewest, hpending, hlast⟩ := h.followed i row hrow hin hflight
    refine ⟨tick, state', ?_, hpending, fun tick' hsome => hlast tick' (hless _ hsome)⟩
    rw [job_forget, if_neg, hnewest]
    intro heq
    rw [heq, hjob] at hnewest
    obtain rfl := Option.some.inj hnewest
    rw [hover] at hpending
    cases hpending

theorem over_of_smooth (hsmooth : ((σ.row i).all fun row => !row.payment.status.inFlight) = true) : σ.Over i := by
  intro row hrow
  rw [hrow, Option.all_some] at hsmooth
  simpa using hsmooth

theorem State.Inv.stepJob {e : Event} (h : σ.Inv) (hjob : σ.job id = some state)
    (hload : e = .load id → (σ.row id.paymentId).all PaymentRow.visible = true)
    (hthrow : e = .settle id false ∨ e = .notify id false → σ.Over id.paymentId)
    (he : ∀ id', (e = .load id' ∨ (∃ ok, e = .settle id' ok) ∨ ∃ ok, e = .notify id' ok) → id' = id)
    (hstep : σ.stepJob cadence id state e = some σ') : σ'.Inv := by
  unfold State.stepJob at hstep
  split at hstep
  · split at hstep
    · obtain rfl := Option.some.inj hstep
      exact h.setJob hjob (.inl rfl) fun tick htick hne => absurd (JobState.active.inj htick).symm hne
    · cases hstep
  · next id' =>
    obtain rfl := he id' (.inl rfl)
    obtain rfl := Option.some.inj hstep
    exact h.load hjob (hload rfl)
  · obtain rfl := Option.some.inj hstep
    exact h.proceed hjob (.inl (h.seen id _ hjob (by simp))) fun result hresult hne =>
      absurd (fetched_done hresult) hne
  · obtain rfl := Option.some.inj hstep
    refine h.proceed hjob (.inl (h.seen id _ hjob (by simp))) fun result hresult hne => ?_
    split at hresult
    · exact absurd (unlessExpired_done hresult) hne
    · cases hresult
  · next id' succeeds =>
    obtain rfl := he id' (.inr (.inr ⟨_, rfl⟩))
    obtain rfl := Option.some.inj hstep
    cases succeeds with
    | true =>
      exact h.proceed hjob (.inl (h.seen id' _ hjob (by simp))) fun result hresult hne =>
        absurd (unlessExpired_done hresult) hne
    | false => exact h.setJob hjob (.inr (hthrow (.inr rfl))) fun _ hactive => (nomatch hactive)
  · next id' commits =>
    obtain rfl := he id' (.inr (.inl ⟨_, rfl⟩))
    obtain rfl := Option.some.inj hstep
    cases commits with
    | true => exact h.settle hjob (h.seen id' _ hjob (by simp))
    | false => exact h.setJob hjob (.inr (hthrow (.inl rfl))) fun _ hactive => (nomatch hactive)
  · obtain rfl := Option.some.inj hstep
    exact h.reschedule hjob
  · obtain rfl := Option.some.inj hstep
    exact h.forget hjob rfl
  · obtain rfl := Option.some.inj hstep
    exact h.forget hjob rfl
  · cases hstep

theorem State.Inv.step {e : Event} (h : σ.Inv) (hsmooth : σ.smooth e = true) (hstep : σ.step cadence e = some σ') :
    σ'.Inv := by
  have hjobs : ∀ id, ((σ.job id).bind fun state => σ.stepJob cadence id state e) = some σ' →
      (∀ id', (e = .load id' ∨ (∃ ok, e = .settle id' ok) ∨ ∃ ok, e = .notify id' ok) → id' = id) → σ'.Inv := by
    intro id hid he
    rw [Option.bind_eq_some_iff] at hid
    obtain ⟨state, hjob, hid⟩ := hid
    refine h.stepJob hjob (fun hload => ?_) (fun hthrow => ?_) he hid
    · subst hload
      exact hsmooth
    · rcases hthrow with rfl | rfl
      · exact over_of_smooth hsmooth
      · exact over_of_smooth hsmooth
  cases e with
  | elapse ms =>
    obtain rfl := Option.some.inj hstep
    exact ⟨h.unique, h.kaspi, h.known, h.seen, h.followed⟩
  | initiate payment =>
    unfold State.step at hstep
    dsimp only at hstep
    split at hstep
    · next hfree =>
      obtain rfl := Option.some.inj hstep
      rw [Bool.and_eq_true, Option.isNone_iff_eq_none, Bool.not_eq_true', List.contains_eq_mem,
        decide_eq_false_iff_not] at hfree
      exact h.initiate hfree.1 hfree.2
    · cases hstep
  | enqueue paymentId =>
    unfold State.step at hstep
    dsimp only at hstep
    split at hstep
    · next hfirst =>
      obtain rfl := Option.some.inj hstep
      rw [Bool.and_eq_true, Option.any_eq_true, Bool.not_eq_true', List.contains_eq_mem,
        decide_eq_false_iff_not] at hfirst
      obtain ⟨⟨row, hrow, hkaspi⟩, hnew⟩ := hfirst
      rw [Bool.and_eq_true, beq_iff_eq] at hkaspi
      exact h.enqueue hrow hkaspi.2 hnew
    · cases hstep
  | commit paymentId =>
    obtain rfl := Option.some.inj hstep
    exact h.commit paymentId
  | rollback paymentId =>
    obtain rfl := Option.some.inj hstep
    exact h.rollback paymentId
  | patch paymentId patch =>
    obtain rfl := Option.some.inj hstep
    exact h.patched paymentId patch
  | take id => exact hjobs id hstep fun _ he => by simp at he
  | load id => exact hjobs id hstep fun _ he => by simp at he; exact he.symm
  | fetch id answer => exact hjobs id hstep fun _ he => by simp at he
  | refresh id succeeds => exact hjobs id hstep fun _ he => by simp at he
  | notify id succeeds => exact hjobs id hstep fun _ he => by simp at he; exact he.symm
  | settle id commits => exact hjobs id hstep fun _ he => by simp at he; exact he.symm
  | reschedule id => exact hjobs id hstep fun _ he => by simp at he
  | forget id => exact hjobs id hstep fun _ he => by simp at he

theorem State.Inv.run {events : List Event} (h : σ.Inv) (hsmooth : σ.smoothRun cadence events = true)
    (hrun : σ.run cadence events = some σ') : σ'.Inv := by
  induction events generalizing σ with
  | nil =>
    obtain rfl := Option.some.inj hrun
    exact h
  | cons e events ih =>
    unfold State.run at hrun
    rw [Option.bind_eq_some_iff] at hrun
    obtain ⟨σ₁, hstep, hrest⟩ := hrun
    unfold State.smoothRun at hsmooth
    rw [Bool.and_eq_true, hstep, Option.all_some] at hsmooth
    exact ih (h.step hsmooth.1 hstep) hsmooth.2 hrest

end

theorem State.inv_boot (now : Int) : (State.boot now).Inv where
  unique := List.nodup_nil
  kaspi _ _ h := (nomatch h)
  known _ h := (nomatch h)
  seen _ _ h := (nomatch h)
  followed _ _ h := (nomatch h)

/-! ## Runs -/

/-- **No payment is abandoned.**  As long as no tick comes before the commit of its payment, and no settlement or alert
that a tick waits for throws on a live payment. -/
theorem payments_watched {cadence : Cadence} {now : Int} {events : List Event} {σ : State}
    (hrun : (State.boot now).run cadence events = some σ)
    (hsmooth : (State.boot now).smoothRun cadence events = true) : σ.Watched := by
  have hinv := (State.inv_boot now).run hsmooth hrun
  intro row hrow _ _ hin
  cases hflight : row.payment.status.inFlight with
  | false => exact .inl rfl
  | true =>
    obtain ⟨tick, state, hjob, hpending, -⟩ :=
      hinv.followed row.payment.id row (Table.find_of_mem hinv.unique hrow) hin hflight
    obtain ⟨job, hmem, hid, rfl⟩ := mem_of_job hjob
    exact .inr ⟨job, hmem, by rw [hid], hpending⟩

/-- A payment of 45 000 at Kaspi. -/
def kaspiPayment : Payment :=
  ⟨30, 5, 7, some 1, 45000, .kaspiPay, some 900, .client 1, .processing, none, none, none, none, false, none, none, 0, 0⟩

def firstTick : JobId := ⟨30, 0⟩

def secondTick : JobId := ⟨30, 1⟩

/-- Kaspi does not answer the first tick, the session has to be refreshed for the second one. -/
def refreshedTick : List Event :=
  [.initiate kaspiPayment, .enqueue 30, .commit 30, .elapse 5000, .take firstTick, .load firstTick, .fetch firstTick none,
    .reschedule firstTick, .elapse 5000, .take secondTick, .load secondTick,
    .fetch secondTick (some ⟨.sessionExpired, none, none⟩), .refresh secondTick false, .notify secondTick true,
    .forget firstTick, .reschedule secondTick]

theorem payments_watched_refreshedTick :
    ∃ σ, (State.boot 0).run defaultCadence refreshedTick = some σ ∧
      σ.jobs = [⟨secondTick, .completed⟩, ⟨⟨30, 2⟩, .delayed 15000⟩] ∧ σ.Watched := by
  have hend : ((State.boot 0).run defaultCadence refreshedTick).any
      (fun σ => decide (σ.jobs = [⟨secondTick, .completed⟩, ⟨⟨30, 2⟩, .delayed 15000⟩])) = true := by
    decide +kernel
  rw [Option.any_eq_true] at hend
  obtain ⟨σ, hrun, hσ⟩ := hend
  exact ⟨σ, hrun, of_decide_eq_true hσ, payments_watched hrun (by decide +kernel)⟩

/-- The first tick is there before the commit. -/
def earlyTick : List Event :=
  [.initiate kaspiPayment, .enqueue 30, .elapse 5000, .take firstTick, .load firstTick, .commit 30]

/-- Kaspi reports the money, and the settlement throws. -/
def settlementThrows : List Event :=
  [.initiate kaspiPayment, .enqueue 30, .commit 30, .elapse 5000, .take firstTick, .load firstTick,
    .fetch firstTick (some ⟨.processed, some "Processed", none⟩), .settle firstTick false]

theorem payment_abandoned :
    (∃ σ, (State.boot 0).run defaultCadence earlyTick = some σ ∧ ¬σ.Watched) ∧
      ∃ σ, (State.boot 0).run defaultCadence settlementThrows = some σ ∧ ¬σ.Watched := by
  have hlost : ∀ events, ((State.boot 0).run defaultCadence events).any (fun σ => decide ¬σ.Watched) = true →
      ∃ σ, (State.boot 0).run defaultCadence events = some σ ∧ ¬σ.Watched := by
    intro events hend
    rw [Option.any_eq_true] at hend
    obtain ⟨σ, hrun, hσ⟩ := hend
    exact ⟨σ, hrun, of_decide_eq_true hσ⟩
  constructor
  · exact hlost earlyTick (by decide +kernel)
  · exact hlost settlementThrows (by decide +kernel)

end Polling
