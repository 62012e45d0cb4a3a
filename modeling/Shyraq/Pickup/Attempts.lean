import Shyraq.Pickup.Services
import Shyraq.Transactions.Resource

/-!
# Wrong codes and the budget of three

The OTP keys of a request are touched only under its advisory lock.  While nobody holds the lock, the wrong
codes compared with the stored code are at most two, and the counter in Redis has seen them all.
-/

namespace Pickup

open Kernel Transactions

/-! ## What is counted -/

/-- The command stores a new code. -/
def stores (requestId : Nat) : Op × OtpCommand × OtpReply → Bool
  | (_, .setCode i _ _, _) => i == requestId
  | _ => false

/-- The reply is a code that is not the one submitted. -/
def wrong (requestId : Nat) : Op × OtpCommand × OtpReply → Bool
  | (.validateOtp _ _ code _ _, .getCode i, reply) => i == requestId && reply.code.any fun c => c != code
  | _ => false

/-- The wrong codes that have been compared with the code stored last. -/
def strikes (requestId : Nat) (tr : Trace) : Nat :=
  tr.foldl (fun k e => if stores requestId e then 0 else if wrong requestId e then k + 1 else k) 0

theorem strikes_snoc (r : Nat) (tr : Trace) (e : Op × OtpCommand × OtpReply) :
    strikes r (tr ++ [e]) = if stores r e then 0 else if wrong r e then strikes r tr + 1 else strikes r tr := by
  simp only [strikes, List.foldl_append, List.foldl_cons, List.foldl_nil]

/-- At any time, for the code stored last at that time. -/
def ThreeStrikes (requestId : Nat) (tr : Trace) : Prop := ∀ tr', tr' <+: tr → strikes requestId tr' ≤ 3

variable {r : Nat} {e : Op × OtpCommand × OtpReply}

theorem threeStrikes_snoc {tr : Trace} (h : ThreeStrikes r tr)
    (he : strikes r (tr ++ [e]) ≤ 3) : ThreeStrikes r (tr ++ [e]) := by
  intro tr' hp
  rcases List.prefix_concat_iff.1 hp with rfl | hp
  · exact he
  · exact h tr' hp

theorem strikes_quiet (tr : Trace) (hs : stores r e = false)
    (hw : wrong r e = false) : strikes r (tr ++ [e]) = strikes r tr := by
  rw [strikes_snoc, hs, hw]
  rfl

theorem threeStrikes_quiet {tr : Trace} (h : ThreeStrikes r tr)
    (hs : stores r e = false) (hw : wrong r e = false) : ThreeStrikes r (tr ++ [e]) := by
  refine threeStrikes_snoc h ?_
  rw [strikes_quiet tr hs hw]
  exact h tr List.prefix_rfl

/-! ## The budget -/

/-- The stored code may meet another wrong one, and the counter outlives it with all that were compared. -/
def Budget (r : Nat) (x : OtpCache) (k : Nat) : Prop :=
  ∀ e, x.code r = some e → e.alive x.now = true → k < pickupOtpMaxFailedAttempts ∧
    (∃ t, e.expiresAt = some t ∧ t ≤ x.now + pickupOtpTtlSec * 1000) ∧
    (k = 0 ∨ ∃ a, x.attempts r = some a ∧ k ≤ a.value ∧ e.OutlivedBy a)

theorem Budget.pass {x : OtpCache} {k : Nat} (h : Budget r x k) (d : Nat) : Budget r (Outer.pass x d) k := by
  intro e he halive
  obtain ⟨hk, ⟨t, ht, hle⟩, hcount⟩ := h e he (Expiring.alive_of_later (Nat.le_add_right _ _) halive)
  have hnow : (Outer.pass x d).now = x.now + d := rfl
  refine ⟨hk, ⟨t, ht, ?_⟩, hcount⟩
  rw [hnow]
  exact hle.trans (Nat.add_le_add_right (Nat.le_add_right _ _) _)

theorem Budget.incr {x : OtpCache} {k : Nat} (h : Budget r x k)
    (hcount : (Expiring.live x.now (x.attempts r)).getD 0 + 1 < pickupOtpMaxFailedAttempts) :
    Budget r (x.exec (.incrAttempts r attemptsTtlSec)).1 (k + 1) := by
  intro e he (halive : e.alive x.now = true)
  obtain ⟨_, ⟨t, ht, hle⟩, hk⟩ := h e he halive
  have hseen : k ≤ (Expiring.live x.now (x.attempts r)).getD 0 := by
    rcases hk with rfl | ⟨a, ha, hk, hout⟩
    · exact Nat.zero_le _
    · rw [ha, Expiring.live_of_alive (hout _ halive)]
      exact hk
  have hwritten : (x.exec (.incrAttempts r attemptsTtlSec)).1.attempts r =
      some ⟨(Expiring.live x.now (x.attempts r)).getD 0 + 1, x.deadline attemptsTtlSec⟩ := Function.update_self ..
  refine ⟨by omega, ⟨t, ht, hle⟩, .inr ⟨_, hwritten, Nat.succ_le_succ hseen, ?_⟩⟩
  exact Expiring.outlivedBy_of_le ht rfl hle

theorem budget_of_no_code {x : OtpCache} (h : x.code r = none) (k : Nat) : Budget r x k := by
  intro e he
  rw [h] at he
  cases he

/-- While nobody holds the lock. -/
structure Counted (r : Nat) (x : OtpCache) (tr : Trace) : Prop where
  bounded : ThreeStrikes r tr
  budget : Budget r x (strikes r tr)

/-- A wrong code is counted by this, or there is no code left. -/
def closes : OtpCommand × OtpReply → Bool
  | (.incrAttempts _ _, reply) => decide (reply.count < pickupOtpMaxFailedAttempts)
  | (.delCode _, _) => true
  | _ => false

/-- No wrong code was compared, or its bookkeeping is done. -/
def settled (r : Nat) (op : Op) (calls : List (OtpCommand × OtpReply)) : Bool :=
  !(calls.any fun c => wrong r (op, c)) || calls.any closes

theorem settled_snoc {op : Op} {calls : List (OtpCommand × OtpReply)} (h : settled r op calls = false)
    (c : OtpCommand × OtpReply) : settled r op (calls ++ [c]) = closes c := by
  simp only [settled, Bool.or_eq_false_iff, Bool.not_eq_false'] at h
  simp only [settled, List.any_append, h.1, h.2, Bool.true_or, Bool.not_true, Bool.false_or, List.any_cons,
    List.any_nil, Bool.or_false]

/-- What the advisory lock protects. -/
def otpKeys (r : Nat) : Resource Op OtpCache OtpCommand OtpReply where
  inv := Counted r
  safe := ThreeStrikes r
  clean op calls := settled r op calls = true
  inv_safe h := h.bounded
  inv_pass d h := ⟨h.bounded, h.budget.pass d⟩

section

variable {r : Nat} {x : OtpCache} {tr : Trace} {op : Op}

theorem counted_empty (now : Nat) : Counted r (OtpCache.empty now) [] where
  bounded tr' h := by
    rw [List.prefix_nil.1 h]
    exact Nat.zero_le _
  budget := budget_of_no_code rfl _

/-- A command that neither stores nor compares, and leaves what is stored and counted alone. -/
theorem Counted.quiet (h : Counted r x tr) {c : OtpCommand} {reply : OtpReply} {x' : OtpCache}
    (hs : stores r (op, c, reply) = false) (hw : wrong r (op, c, reply) = false)
    (hb : Budget r x (strikes r tr) → Budget r x' (strikes r tr)) : Counted r x' (tr ++ [(op, c, reply)]) := by
  refine ⟨threeStrikes_quiet h.bounded hs hw, ?_⟩
  rw [strikes_quiet tr hs hw]
  exact hb h.budget

theorem counted_delCode (h : ThreeStrikes r tr) (reply : OtpReply) :
    Counted r (x.exec (.delCode r)).1 (tr ++ [(op, .delCode r, reply)]) :=
  ⟨threeStrikes_quiet h rfl (by cases op <;> rfl), budget_of_no_code (Function.update_self ..) _⟩

theorem strikes_setCode (code : String) (ttl : Nat) (reply : OtpReply) :
    strikes r (tr ++ [(op, .setCode r code ttl, reply)]) = 0 := by
  rw [strikes_snoc]
  simp only [stores, beq_self_eq_true, if_true]

theorem counted_setCode (h : ThreeStrikes r tr) (code : String) (reply : OtpReply) :
    Counted r (x.exec (.setCode r code pickupOtpTtlSec)).1 (tr ++ [(op, .setCode r code pickupOtpTtlSec, reply)]) := by
  have hk := @strikes_setCode r tr op code pickupOtpTtlSec reply
  refine ⟨threeStrikes_snoc h ?_, ?_⟩
  · rw [hk]
    exact Nat.zero_le _
  · rw [hk]
    intro e he halive
    rw [show (x.exec (.setCode r code pickupOtpTtlSec)).1.code r = some ⟨code, x.deadline pickupOtpTtlSec⟩ from
      Function.update_self .., Option.some.injEq] at he
    subst he
    exact ⟨by decide, ⟨_, rfl, le_refl _⟩, .inl rfl⟩

/-- A wrong code has been compared and is not counted yet. -/
structure Struck (r : Nat) (x : OtpCache) (tr : Trace) : Prop where
  bounded : ThreeStrikes r tr
  budget : ∃ k, strikes r tr = k + 1 ∧ Budget r x k

theorem Struck.pass (h : Struck r x tr) (d : Nat) : Struck r (Outer.pass x d) tr := by
  obtain ⟨k, hk, hb⟩ := h.budget
  exact ⟨h.bounded, k, hk, hb.pass d⟩

theorem Counted.pass (h : Counted r x tr) (d : Nat) : Counted r (Outer.pass x d) tr := ⟨h.bounded, h.budget.pass d⟩

/-- The stored code is wrong: it is alive, so there were at most two before it. -/
theorem Counted.struck (h : Counted r x tr) {c : String} (hlive : (x.exec (.getCode r)).2.code = some c)
    {reply : OtpReply} (hs : stores r (op, .getCode r, reply) = false)
    (hw : wrong r (op, .getCode r, reply) = true) : Struck r x (tr ++ [(op, .getCode r, reply)]) := by
  have hk : strikes r (tr ++ [(op, .getCode r, reply)]) = strikes r tr + 1 := by
    rw [strikes_snoc, hs, hw]
    rfl
  refine ⟨threeStrikes_snoc h.bounded ?_, strikes r tr, hk, h.budget⟩
  obtain ⟨hvalue, _⟩ := Option.filter_eq_some_iff.1 hlive
  obtain ⟨e, he, halive, _⟩ := Expiring.live_some hvalue
  rw [hk]
  exact (h.budget e he halive).1

/-! ## The requests one by one -/

variable {A B : Type} {calls : List (OtpCommand × OtpReply)}

theorem inside_clearCode (hmid : (otpKeys r).Mid op x tr calls) {f : Unit → Request B}
    (h : ∀ x' tr' calls', Counted r x' tr' → (f ()).Inside (otpKeys r) op x' tr' calls') :
    (Script.bind (OtpStore.clearCode r) f).Inside (otpKeys r) op x tr calls := by
  unfold OtpStore.clearCode
  simp only [Script.bind_eq, Script.bind_assoc]
  refine Script.Inside.send hmid fun d => h _ _ _ ?_
  exact counted_delCode hmid.safe _

theorem inside_isLocked (hinv : Counted r x tr) {f : Bool → Request B} (h : ∀ b reply x' tr', Counted r x' tr' →
      (f b).Inside (otpKeys r) op x' tr' (calls ++ [(.existsLock r, reply)])) :
    (Script.bind (OtpStore.isLocked r) f).Inside (otpKeys r) op x tr calls := by
  unfold OtpStore.isLocked
  simp only [Script.bind_eq, Script.bind_assoc]
  refine Script.Inside.send (.of_inv hinv) fun d => h _ _ _ _ ?_
  exact (hinv.pass d).quiet rfl (by cases op <;> rfl) id

theorem inside_storeCode (hinv : Counted r x tr) (code : String) {f : String → Request B}
    (h : ∀ key x' tr' calls', Counted r x' tr' → (f key).Inside (otpKeys r) op x' tr' calls') :
    (Script.bind (OtpStore.storeCode r code pickupOtpTtlSec) f).Inside (otpKeys r) op x tr calls := by
  unfold OtpStore.storeCode
  simp only [Script.bind_eq, Script.bind_assoc]
  refine Script.Inside.send (.of_inv hinv) fun d => ?_
  have h₁ := @counted_setCode r (Outer.pass x d) tr op hinv.bounded code .ok
  refine Script.Inside.send (.of_inv h₁) fun d' => h _ _ _ _ ?_
  refine (h₁.pass d').quiet rfl (by cases op <;> rfl) fun hb e he halive => ?_
  obtain ⟨hk, hdeadline, _⟩ := hb e he halive
  exact ⟨hk, hdeadline, .inl (strikes_setCode code pickupOtpTtlSec .ok)⟩

theorem outside_sendOtp (now : Int) (r draw : Nat) (rateExceeded smsSent : Bool) :
    (Op.sendOtp now r draw rateExceeded smsSent).prog.Outside (otpKeys r) (.validate r)
      (.sendOtp now r draw rateExceeded smsSent) := by
  unfold Op.prog PickupRequestService.sendOtp
  simp only [Script.bind_eq, Script.lift_eq, Script.bind_assoc]
  refine Script.Outside.lock fun pr x tr hinv => Script.Inside.lift hinv fun _ => Script.Inside.lift hinv fun _ => ?_
  refine inside_isLocked hinv fun b reply x₁ tr₁ h₁ => Script.Inside.lift h₁ fun _ => Script.Inside.lift h₁ fun _ => ?_
  refine inside_storeCode h₁ _ fun key x₂ tr₂ calls h₂ => ?_
  exact Script.Inside.lift h₂ fun _ => Script.Inside.lift h₂ fun _ => h₂

theorem outside_cancel (r : Nat) : (Op.cancel r).prog.Outside (otpKeys r) (.validate r) (.cancel r) := by
  unfold Op.prog PickupRequestService.cancel
  simp only [Script.bind_eq, Script.lift_eq, Script.bind_assoc]
  refine Script.Outside.lock fun pr x tr hinv => Script.Inside.lift hinv fun _ => Script.Inside.lift hinv fun _ => ?_
  refine Script.Inside.lift hinv fun _ => inside_clearCode (.of_inv hinv) fun x₁ tr₁ calls h₁ => ?_
  exact h₁

/-- Compared with the code submitted. -/
def Compared (r : Nat) (code c : String) (x : OtpCache) (tr : Trace) : Prop :=
  if c ≠ code then Struck r x tr else Counted r x tr

theorem mid_of_unsettled (h : ThreeStrikes r tr) (hset : settled r op calls = false) :
    (otpKeys r).Mid op x tr calls := by
  refine ⟨h, fun hclean => ?_⟩
  rw [show settled r op calls = true from hclean] at hset
  cases hset

theorem Compared.mid {code c : String} (h : Compared r code c x tr)
    (hset : c ≠ code → settled r op calls = false) : (otpKeys r).Mid op x tr calls := by
  unfold Compared at h
  split at h
  · next hne => exact mid_of_unsettled h.bounded (hset hne)
  · exact .of_inv h

theorem Compared.getAttempts {code c : String} (h : Compared r code c x tr) (d : Nat) (reply : OtpReply) :
    Compared r code c (Outer.pass x d) (tr ++ [(op, .getAttempts r, reply)]) := by
  have hk : strikes r (tr ++ [(op, .getAttempts r, reply)]) = strikes r tr := strikes_quiet tr rfl (by cases op <;> rfl)
  unfold Compared at h ⊢
  split at h
  · next hne =>
    rw [if_pos hne]
    obtain ⟨k, hstrikes, hb⟩ := h.budget
    exact ⟨threeStrikes_quiet h.bounded rfl (by cases op <;> rfl), k, hk.trans hstrikes, hb.pass d⟩
  · next heq =>
    rw [if_neg heq]
    exact (h.pass d).quiet rfl (by cases op <;> rfl) id

theorem inside_readCode (hinv : Counted r x tr) {now : Int} {code : String} {caller : Attendance.Caller}
    {childExists : Bool} (hop : op = .validateOtp now r code caller childExists) {lock : OtpReply}
    {f : Option StoredPickupOtp → Request B}
    (hnone : ∀ x' tr' calls', Counted r x' tr' → (f none).Inside (otpKeys r) op x' tr' calls')
    (hsome : ∀ c a x' tr' calls', Compared r code c x' tr' → (c ≠ code → settled r op calls' = false) →
      (f (some ⟨c, a⟩)).Inside (otpKeys r) op x' tr' calls') :
    (Script.bind (OtpStore.readCode r) f).Inside (otpKeys r) op x tr [(.existsLock r, lock)] := by
  subst hop
  unfold OtpStore.readCode
  simp only [Script.bind_eq, Script.bind_assoc]
  refine Script.Inside.send (.of_inv hinv) fun d => ?_
  cases hread : (Outer.exec (Outer.pass x d) (.getCode r)).2.code with
  | none =>
    refine hnone _ _ _ ((hinv.pass d).quiet rfl ?_ id)
    simp only [wrong, hread, Option.any_none, Bool.and_false]
  | some c =>
    have hwrong : wrong r (.validateOtp now r code caller childExists, .getCode r,
        (Outer.exec (Outer.pass x d) (.getCode r)).2) = decide (c ≠ code) := by
      simp only [wrong, hread, beq_self_eq_true, Option.any_some, Bool.true_and, bne, beq_eq_decide, decide_not]
    have hcompared : Compared r code c (Outer.pass x d) (tr ++ [(.validateOtp now r code caller childExists,
        .getCode r, (Outer.exec (Outer.pass x d) (.getCode r)).2)]) := by
      unfold Compared
      split
      · next hne => exact (hinv.pass d).struck hread rfl (hwrong.trans (decide_eq_true hne))
      · next heq => exact (hinv.pass d).quiet rfl (hwrong.trans (decide_eq_false heq)) id
    refine Script.Inside.send (hcompared.mid fun hne => ?_) fun d' => hsome _ _ _ _ _ (hcompared.getAttempts d' _) fun hne => ?_
    · rw [decide_eq_true hne] at hwrong
      simp only [settled, List.any_append, List.any_cons, List.any_nil, hwrong]
      rfl
    · rw [decide_eq_true hne] at hwrong
      simp only [settled, List.any_append, List.any_cons, List.any_nil, hwrong]
      rfl

theorem Struck.incr (h : Struck r x tr) (d : Nat) : ThreeStrikes r (tr ++ [(op, .incrAttempts r attemptsTtlSec,
      (Outer.exec (Outer.pass x d) (.incrAttempts r attemptsTtlSec)).2)]) ∧
    ((Outer.exec (Outer.pass x d) (.incrAttempts r attemptsTtlSec)).2.count < pickupOtpMaxFailedAttempts →
      Counted r (Outer.exec (Outer.pass x d) (.incrAttempts r attemptsTtlSec)).1
        (tr ++ [(op, .incrAttempts r attemptsTtlSec,
          (Outer.exec (Outer.pass x d) (.incrAttempts r attemptsTtlSec)).2)])) := by
  obtain ⟨k, hstrikes, hb⟩ := (h.pass d).budget
  generalize hreply : (Outer.exec (Outer.pass x d) (.incrAttempts r attemptsTtlSec)).2 = reply
  have hk : strikes r (tr ++ [(op, .incrAttempts r attemptsTtlSec, reply)]) = strikes r tr :=
    strikes_quiet tr rfl (by cases op <;> rfl)
  have hbounded : ThreeStrikes r (tr ++ [(op, .incrAttempts r attemptsTtlSec, reply)]) :=
    threeStrikes_quiet h.bounded rfl (by cases op <;> rfl)
  refine ⟨hbounded, fun hlt => ⟨hbounded, ?_⟩⟩
  rw [hk, hstrikes]
  rw [← hreply] at hlt
  exact hb.incr hlt

/-- The bookkeeping of a wrong code ends in an error, with the code counted or cleared. -/
theorem inside_compareCode {stored : StoredPickupOtp} {code : String} (h : Compared r code stored.code x tr)
    (hset : stored.code ≠ code → settled r op calls = false) {f : Unit → Request B}
    (hf : ∀ calls', Counted r x tr → (f ()).Inside (otpKeys r) op x tr calls') :
    (Script.bind (PickupRequestService.compareCode r stored code) f).Inside (otpKeys r) op x tr calls := by
  have hmid := h.mid hset
  unfold PickupRequestService.compareCode
  unfold Compared at h
  split
  · next hne =>
    rw [if_pos hne] at h
    unfold OtpStore.incrementAttempts PickupRequestService.punish
    simp only [Script.bind_eq, Script.bind_assoc]
    refine Script.Inside.send hmid fun d => ?_
    obtain ⟨hbounded, hcounted⟩ := @Struck.incr r x tr op h d
    generalize (Outer.exec (Outer.pass x d) (.incrAttempts r attemptsTtlSec)).1 = x₁ at hcounted ⊢
    generalize (Outer.exec (Outer.pass x d) (.incrAttempts r attemptsTtlSec)).2 = reply at hbounded hcounted ⊢
    have hset₁ := settled_snoc (hset hne) (.incrAttempts r attemptsTtlSec, reply)
    by_cases hlt : reply.count < pickupOtpMaxFailedAttempts
    · rw [show (pure reply.count : Request Nat) = .ret reply.count from rfl]
      simp only [Script.bind, if_neg (Nat.not_le.2 hlt)]
      exact hcounted hlt
    · rw [show (pure reply.count : Request Nat) = .ret reply.count from rfl]
      simp only [Script.bind, if_pos (Nat.le_of_not_lt hlt)]
      have hopen : closes (.incrAttempts r attemptsTtlSec, reply) = false := decide_eq_false hlt
      rw [hopen] at hset₁
      unfold OtpStore.lockRequest
      simp only [Script.bind_eq, Script.bind_assoc]
      refine Script.Inside.send (mid_of_unsettled hbounded hset₁) fun d' => ?_
      have hlocked := threeStrikes_quiet (e := (op, .setLock r pickupOtpLockTtlSec, .ok)) hbounded rfl
        (by cases op <;> rfl)
      exact inside_clearCode (mid_of_unsettled hlocked (settled_snoc hset₁ _)) fun _ _ _ hc => hc
  · next heq =>
    rw [if_neg heq] at h
    exact hf _ h

theorem outside_validateOtp (now : Int) (r : Nat) (code : String) (caller : Attendance.Caller) (childExists : Bool) :
    (Op.validateOtp now r code caller childExists).prog.Outside (otpKeys r) (.validate r)
      (.validateOtp now r code caller childExists) := by
  unfold Op.prog PickupRequestService.validateOtp
  simp only [Script.bind_eq, Script.lift_eq, Script.bind_assoc]
  refine Script.Outside.require fun staff => Script.Outside.lock fun checked x tr hinv => ?_
  refine inside_isLocked hinv fun b lock x₁ tr₁ h₁ => Script.Inside.lift h₁ fun _ => ?_
  refine inside_readCode h₁ rfl (fun x₂ tr₂ calls h₂ => h₂) fun c a x₂ tr₂ calls h₂ hset => ?_
  refine inside_compareCode h₂ hset fun calls h₃ => Script.Inside.lift h₃ fun result => ?_
  exact inside_clearCode (.of_inv h₃) fun x₄ tr₄ calls h₄ => h₄

end

/-! ## Runs -/

/-- The request is one of the three on this pickup request. -/
def Op.on (r : Nat) : Op → Bool
  | sendOtp _ i _ _ _ => i == r
  | validateOtp _ i _ _ _ => i == r
  | cancel i => i == r
  | updatePerson .. => false
  | revokePerson .. => false

theorem outside_on {op : Op} (h : op.on r = true) : op.prog.Outside (otpKeys r) (.validate r) op := by
  cases op with
  | sendOtp now i draw rateExceeded smsSent =>
    obtain rfl := beq_iff_eq.1 h
    exact outside_sendOtp now i draw rateExceeded smsSent
  | validateOtp now i code caller childExists =>
    obtain rfl := beq_iff_eq.1 h
    exact outside_validateOtp now i code caller childExists
  | cancel i =>
    obtain rfl := beq_iff_eq.1 h
    exact outside_cancel i
  | updatePerson i patch link => cases h
  | revokePerson now i link => cases h

/-- **At most three wrong codes** meet each stored code, when no request is cut off between a wrong code and
the end of its bookkeeping. -/
theorem three_strikes {n : Nat} {s : Store} {now : Nat} {cs : Schedule n} {σ : System n}
    (hops : Scripts.Starts (fun op => op.on r = true) cs)
    (hc : Scripts.Meets Op.prog (Scripts.Finishes (otpKeys r) (.validate r)) (init s now) cs)
    (hrun : run s now cs = some σ) : ThreeStrikes r σ.trace :=
  ((Scripts.guarded_init (counted_empty now)).exec (fun _ h => outside_on h) hops hc hrun).safe

end Pickup
