import Shyraq.Pickup.Attempts
import Shyraq.Pickup.Outcomes

/-!
# The life cycle of a pickup request

Under the row lock the status moves once, and with `validated` comes the one check-out.  Redis is not
rolled back: a wrong code is compared first and counted afterwards.
-/

namespace Pickup

open Kernel Transactions

/-! ## What is claimed -/

def Store.statusOf (s : Store) (r : Nat) : Option PickupRequestStatus := (s.request r).map PickupRequest.status

/-- One check-out for a validated request, none otherwise. -/
def Recorded (r : Nat) (s : Store) : Prop :=
  (s.pickups r).length = if s.statusOf r = some .validated then 1 else 0

instance (r : Nat) (s : Store) : Decidable (Recorded r s) := inferInstanceAs (Decidable (_ = _))

/-- A committed `validateOtp` or `cancel` of this request. -/
def Op.ends (r : Nat) : Op → Bool
  | validateOtp _ i _ _ _ => i == r
  | cancel i => i == r
  | _ => false

/-- A committed `validateOtp` of this request. -/
def Op.validates (r : Nat) : Op → Bool
  | validateOtp _ i _ _ _ => i == r
  | _ => false

structure LifeCycle (r : Nat) (s : Store) (log : List PickupCommit) : Prop where
  absorbing : AtEach (fun s c => ∀ st, s.statusOf r = some st → st.terminal = true →
    (c.tx.view s).statusOf r = some st) s log
  ends : log.countP (fun c => c.op.ends r) ≤ 1
  recorded : Always (Recorded r) s log
  validates : AtEach (fun s c => c.op.validates r = true →
    s.statusOf r = some .otpSent ∧ (c.tx.view s).statusOf r = some .validated) s log

/-! ## What a commit does to the request -/

inductive Effect (r : Nat) (op : Op) (s s' : Store) : Prop
  | validated (hop : op.ends r = true) (before : s.statusOf r = some .otpSent)
      (after : s'.statusOf r = some .validated) (event : (s'.pickups r).length = (s.pickups r).length + 1)
  | cancelled (hop : op.ends r = true) (hval : op.validates r = false) (before : s.statusOf r = some .otpSent)
      (after : s'.statusOf r = some .cancelled) (events : s'.pickups r = s.pickups r)
  | unchanged (hop : op.ends r = false) (hval : op.validates r = false) (status : s'.statusOf r = s.statusOf r)
      (events : s'.pickups r = s.pickups r)

section

variable {J : Store → Prop} {t : Tx Store Key Write} {s : Store} {op : Op} {a : Response}

theorem statusOf_updateRequest (s : Store) (r i : Nat) (patch : PickupRequestPatch) (e : Option PickupRequestStatus) :
    (Relational.apply s (Write.updateRequest i patch e)).statusOf r =
      (s.request r).map fun pr => if r = i ∧ Store.expected e pr then (patch.set pr).status else pr.status := by
  show (Table.find (Table.updateWhere s.requests i (Store.expected e) patch.set) r).map _ = _
  rw [Table.find_updateWhere s.requests i (Store.expected e) patch.set fun _ => rfl, Option.map_map]
  congr 1
  funext pr
  simp only [Function.comp_apply]
  split <;> rfl

theorem statusOf_congr {s' : Store} (h : s'.requests = s.requests) (r : Nat) : s'.statusOf r = s.statusOf r := by
  unfold Store.statusOf Store.request
  rw [h]

theorem pickups_congr {s' : Store} (h : s'.attendance = s.attendance) (r : Nat) : s'.pickups r = s.pickups r := by
  unfold Store.pickups
  rw [h]

/-- The status a patch of the found request leaves behind, here or elsewhere. -/
theorem statusOf_patched {r i : Nat} {pr : PickupRequest} (row : s.request i = some pr) (patch : PickupRequestPatch)
    (e : Option PickupRequestStatus) (he : Store.expected e pr = true) :
    (Relational.apply s (Write.updateRequest i patch e)).statusOf r =
      if r = i then some (patch.status.getD pr.status) else s.statusOf r := by
  rw [statusOf_updateRequest]
  by_cases hr : r = i
  · subst hr
    rw [if_pos rfl, row, Option.map_some, if_pos ⟨rfl, he⟩]
    rfl
  · simp only [hr, false_and, if_false]
    rfl

theorem Outcome.effect (r : Nat) (h : Outcome J t s op a) : Effect r op s (t.view s) := by
  unfold Tx.view
  cases h with
  | @sent now i draw _ _ res pr key held row status writes =>
    rw [writes]
    refine .unchanged rfl rfl ?_ rfl
    rw [List.foldl_cons, List.foldl_nil, statusOf_patched row _ _ rfl]
    split
    · next hr =>
      subst hr
      show some pr.status = _
      rw [Store.statusOf, row]
      rfl
    · rfl
  | @validated now i code _ _ res pr e x patch claim held row status checkOut moved claimed writes =>
    rw [writes]
    simp only [List.foldl_cons]
    generalize hv : Relational.apply (Relational.apply (Relational.apply s (Write.attendance (.insertEvent e)))
      (Write.attendance (.insertEntry x))) (Write.updateRequest i patch none) = v
    obtain ⟨hrequests, hattendance⟩ := claim_frame claimed v
    have hstatus : v.statusOf r = if r = i then some .validated else s.statusOf r := by
      have hrow : (Relational.apply (Relational.apply s (Write.attendance (.insertEvent e)))
        (Write.attendance (.insertEntry x))).request i = some pr := row
      rw [← hv, statusOf_patched hrow _ _ rfl, moved]
      rfl
    have hpickups : v.pickups r = s.pickups r ++ if e.pickupRequestId = some r then [e] else [] := by
      rw [← hv]
      exact pickups_insertEvent s e r
    rw [← statusOf_congr hrequests] at hstatus
    rw [← pickups_congr hattendance] at hpickups
    by_cases hr : r = i
    · subst hr
      rw [if_pos rfl] at hstatus
      rw [if_pos checkOut] at hpickups
      refine .validated (beq_self_eq_true r) ?_ hstatus ?_
      · rw [Store.statusOf, row, Option.map_some, status]
      · rw [hpickups, List.length_append, List.length_singleton]
    · rw [if_neg hr] at hstatus
      rw [if_neg, List.append_nil] at hpickups
      · exact .unchanged (beq_false_of_ne (Ne.symm hr)) (beq_false_of_ne (Ne.symm hr)) hstatus hpickups
      · rw [checkOut]
        exact fun h => hr (Option.some.inj h).symm
  | @cancelled i res pr held row status writes =>
    rw [writes, List.foldl_cons, List.foldl_nil]
    have hstatus := statusOf_patched (r := r) row { emptyPatch with status := some .cancelled } (some .otpSent)
      (beq_iff_eq.2 status)
    by_cases hr : r = i
    · subst hr
      rw [if_pos rfl] at hstatus
      refine .cancelled (beq_self_eq_true r) rfl ?_ hstatus rfl
      rw [Store.statusOf, row, Option.map_some, status]
    · rw [if_neg hr] at hstatus
      exact .unchanged (beq_false_of_ne (Ne.symm hr)) rfl hstatus rfl
  | updated res writes =>
    rw [writes]
    split <;> exact .unchanged rfl rfl rfl rfl
  | revoked res writes =>
    rcases writes with writes | writes <;> rw [writes] <;> exact .unchanged rfl rfl rfl rfl

end

/-! ## Runs -/

theorem Effect.absorbing {r : Nat} {op : Op} {s s' : Store} (h : Effect r op s s') {st : PickupRequestStatus}
    (hst : s.statusOf r = some st) (hterminal : st.terminal = true) : s'.statusOf r = some st := by
  have open_ : s.statusOf r ≠ some .otpSent := by
    intro ho
    obtain rfl := Option.some.inj (hst.symm.trans ho)
    cases hterminal
  cases h with
  | validated _ before _ _ => exact absurd before open_
  | cancelled _ _ before _ _ => exact absurd before open_
  | unchanged _ _ status _ => exact status.trans hst

theorem Effect.recorded {r : Nat} {op : Op} {s s' : Store} (h : Effect r op s s') (hs : Recorded r s) :
    Recorded r s' := by
  unfold Recorded at hs ⊢
  cases h with
  | validated _ before after event =>
    rw [before, if_neg (by decide)] at hs
    rw [after, if_pos rfl, event, hs]
  | cancelled _ _ before after events =>
    rw [before, if_neg (by decide)] at hs
    rw [after, if_neg (by decide), events, hs]
  | unchanged _ _ status events => rw [status, events, hs]

/-- The request has ended at most once, and is terminal if it has. -/
def Ended (r : Nat) (log : List PickupCommit) (s : Store) : Prop :=
  log.countP (fun c => c.op.ends r) = 0 ∨
    log.countP (fun c => c.op.ends r) = 1 ∧ ∃ st, s.statusOf r = some st ∧ st.terminal = true

theorem Effect.ended {r : Nat} {c : PickupCommit} {s : Store} (h : Effect r c.op s (c.tx.view s))
    {log : List PickupCommit} (hl : Ended r log s) : Ended r (log ++ [c]) (c.tx.view s) := by
  unfold Ended at hl ⊢
  rw [List.countP_append, List.countP_singleton]
  cases h with
  | validated hop before after _ =>
    rw [if_pos hop]
    rcases hl with hl | ⟨_, st, hst, hterminal⟩
    · exact .inr ⟨by omega, _, after, rfl⟩
    · obtain rfl := Option.some.inj (hst.symm.trans before)
      cases hterminal
  | cancelled hop _ before after _ =>
    rw [if_pos hop]
    rcases hl with hl | ⟨_, st, hst, hterminal⟩
    · exact .inr ⟨by omega, _, after, rfl⟩
    · obtain rfl := Option.some.inj (hst.symm.trans before)
      cases hterminal
  | unchanged hop _ status _ =>
    rw [if_neg (by rw [hop]; decide), status]
    exact hl

/-- Whatever the requests, however they interleave and wherever they are cut off. -/
theorem lifeCycle_run {n r : Nat} {s : Store} {now : Nat} {cs : Schedule n} {σ : System n} (hs : Recorded r s)
    (hrun : run s now cs = some σ) : LifeCycle r s σ.log := by
  have hchain := (run_chain (J := fun _ => True) trivial (fun _ _ _ _ _ _ => trivial) hrun).mono
    fun s c h => h.2.effect r
  refine ⟨?_, ?_, ?_, ?_⟩
  · refine hchain.atEach.mono fun s c h => ?_
    intro st hst hterminal
    exact h.absorbing hst hterminal
  · have hended : Ended r σ.log σ.db := hchain.invLog (Ended r) (.inl rfl) fun l s c hl h => h.ended hl
    unfold Ended at hended
    omega
  · exact hchain.always (Recorded r) hs fun s c hs h => h.recorded hs
  · refine hchain.atEach.mono fun s c h hop => ?_
    cases h with
    | validated _ before after _ => exact ⟨before, after⟩
    | cancelled _ hval _ _ _ => rw [hval] at hop; cases hop
    | unchanged _ hval _ _ => rw [hval] at hop; cases hop

/-- The requests are on this pickup request, and none is cut off between a wrong code and the end of its
bookkeeping. -/
def BookkeepingFinishes {n : Nat} (r : Nat) (s : Store) (now : Nat) (cs : Schedule n) : Prop :=
  Scripts.Meets Op.prog (Scripts.Finishes (otpKeys r) (.validate r)) (init s now) cs

instance (r : Nat) (op : Op) (calls : List (OtpCommand × OtpReply)) : Decidable ((otpKeys r).clean op calls) :=
  inferInstanceAs (Decidable (settled r op calls = true))

instance {n : Nat} (r : Nat) (s : Store) (now : Nat) (cs : Schedule n) : Decidable (BookkeepingFinishes r s now cs) :=
  inferInstanceAs (Decidable (Scripts.Meets _ _ _ _))

/-- **The life cycle of a pickup request.** -/
theorem pickup_life_cycle {n r : Nat} {s : Store} {now : Nat} {cs : Schedule n} {σ : System n} (hs : Recorded r s)
    (hops : Scripts.Starts (fun op => op.on r = true) cs) (hc : BookkeepingFinishes r s now cs)
    (hrun : run s now cs = some σ) : LifeCycle r s σ.log ∧ ThreeStrikes r σ.trace :=
  ⟨lifeCycle_run hs hrun, three_strikes hops hc hrun⟩

/-! ## A crash after the third strike -/

/-- A fresh request of a trusted person who is not on the whitelist. -/
def freshRequest : Store where
  requests := [⟨1, 5, 7, none, "+77010000001", "Aidar", none, none, .otpSent, none, none, none, none, 1800000⟩]
  people := []
  attendance := ⟨[], [], []⟩

def sendCode : Op := .sendOtp 0 1 123456 false true

def submit (code : String) : Op := .validateOtp 1000 1 code ⟨9, some 3⟩ true

/-- Two wrong codes, a third that is cut off before the lock and the clearing, and a fourth. -/
def crashAfterThird : Schedule 1 :=
  Event.request 0 sendCode 8 0 ++ Event.request 0 (submit "000000") 8 0 ++ Event.request 0 (submit "000001") 8 0 ++
    Event.request 0 (submit "000002") 7 0 ++ .kill 0 :: Event.request 0 (submit "000003") 6 0

theorem crashAfterThird_fourStrikes : ∃ σ : System 1, Recorded 1 freshRequest ∧
    Scripts.Starts (fun op => op.on 1 = true) crashAfterThird ∧ run freshRequest 0 crashAfterThird = some σ ∧
    strikes 1 σ.trace = 4 ∧ ¬ ThreeStrikes 1 σ.trace := by
  obtain ⟨σ, hrun, h⟩ := run_shows (run freshRequest) 0 crashAfterThird (fun σ : System 1 =>
    decide (strikes 1 σ.trace = 4)) (by decide +kernel)
  have hfour : strikes 1 σ.trace = 4 := of_decide_eq_true h
  refine ⟨σ, by decide, by decide, hrun, hfour, fun hthree => ?_⟩
  have hle := hthree σ.trace List.prefix_rfl
  omega

/-- A wrong code, then the right one. -/
def wrongThenRight : Schedule 1 :=
  Event.request 0 sendCode 8 0 ++ Event.request 0 (submit "000000") 8 0 ++ .start 0 (submit "123456") ::
    Event.steps 0 7 10 ++ Event.steps 0 6 11

theorem pickup_life_cycle_wrongThenRight : ∃ σ : System 1, run freshRequest 0 wrongThenRight = some σ ∧
    σ.db.statusOf 1 = some .validated ∧ LifeCycle 1 freshRequest σ.log ∧ ThreeStrikes 1 σ.trace := by
  obtain ⟨σ, hrun, h⟩ := run_shows (run freshRequest) 0 wrongThenRight (fun σ : System 1 =>
    decide (σ.db.statusOf 1 = some .validated)) (by decide +kernel)
  exact ⟨σ, hrun, of_decide_eq_true h, pickup_life_cycle (by decide) (by decide) (by decide +kernel) hrun⟩

end Pickup
