import Shyraq.Pickup.Outcomes

/-!
# One-time people and revocation

`validateOtp` reads the trusted person, and stamps the row at the end with an UPDATE that re-reads its
condition.  A person read with the one-time flag is refused when the UPDATE misses; one read without it is
not, whatever has become of the row.
-/

namespace Pickup

open Kernel Transactions

/-! ## What is claimed -/

/-- A validated request that names the person. -/
def PickupRequest.backs (p : Nat) (pr : PickupRequest) : Bool :=
  pr.trustedPersonId == some p && pr.status == .validated

def Store.validatedFor (s : Store) (p : Nat) : Nat := s.requests.countP (PickupRequest.backs p)

def OneTimeOnce (p : Nat) (s : Store) : Prop :=
  ∀ tp, s.person p = some tp → tp.isOneTime = true → s.validatedFor p ≤ 1

/-- A committed `validateOtp` of a request that names the person. -/
def Op.validatesFor (p : Nat) (s : Store) : Op → Bool
  | validateOtp _ r _ _ _ => (s.request r).any fun pr => pr.trustedPersonId == some p
  | _ => false

/-- A request that validates finds the person not revoked. -/
def NotRevoked (p : Nat) (s : Store) (c : PickupCommit) : Prop :=
  c.op.validatesFor p s = true → ∀ tp, s.person p = some tp → tp.isRevoked = false

structure TrustedPersonSafe (p : Nat) (s : Store) (log : List PickupCommit) : Prop where
  oneTime : Always (OneTimeOnce p) s log
  revoked : AtEach (NotRevoked p) s log

/-- The person was read without the one-time flag. -/
def Reads (p : Nat) (c : PickupCommit) : Prop :=
  ∃ v, c.tx.seen[1]? = some v ∧ ∃ tp, v.person p = some tp ∧ tp.isOneTime = false

/-- The request sets the one-time flag. -/
def Op.flags (p : Nat) : Op → Bool
  | updatePerson i patch _ => i == p && patch.isOneTime == some true
  | _ => false

/-- Who was read without the flag is neither revoked nor used up by now; who gets the flag has been picked up
with at most once. -/
structure StillStanding (p : Nat) (s : Store) (c : PickupCommit) : Prop where
  standing : c.op.validatesFor p s = true → Reads p c →
    ∀ tp, s.person p = some tp → tp.isRevoked = false ∧ ¬ (tp.isOneTime = true ∧ tp.usedAt.isSome = true)
  flag : c.op.flags p = true → ∀ tp, s.person p = some tp → s.validatedFor p ≤ 1

instance (p : Nat) (s : Store) : Decidable (OneTimeOnce p s) :=
  inferInstanceAs (Decidable (∀ tp ∈ s.person p, tp.isOneTime = true → s.validatedFor p ≤ 1))

instance (p : Nat) (s : Store) (c : PickupCommit) : Decidable (NotRevoked p s c) :=
  inferInstanceAs (Decidable (c.op.validatesFor p s = true → ∀ tp ∈ s.person p, tp.isRevoked = false))

instance (p : Nat) (c : PickupCommit) : Decidable (Reads p c) :=
  decidable_of_iff (∃ v ∈ c.tx.seen[1]?, ∃ tp ∈ v.person p, tp.isOneTime = false) Iff.rfl

instance (p : Nat) (s : Store) (c : PickupCommit) : Decidable (StillStanding p s c) :=
  decidable_of_iff ((c.op.validatesFor p s = true → Reads p c → ∀ tp ∈ s.person p,
      tp.isRevoked = false ∧ ¬ (tp.isOneTime = true ∧ tp.usedAt.isSome = true)) ∧
      (c.op.flags p = true → ∀ tp ∈ s.person p, s.validatedFor p ≤ 1))
    ⟨fun h => ⟨h.1, h.2⟩, fun h => ⟨h.standing, h.flag⟩⟩

/-- The row of the person tells of the pickups. -/
structure Told (p : Nat) (s : Store) : Prop where
  ids : Table.Unique s.requests
  used : ∀ tp, s.person p = some tp → tp.usedAt.isSome = true → 1 ≤ s.validatedFor p
  backed : ∀ tp, s.person p = some tp → 1 ≤ s.validatedFor p → tp.usedAt.isSome = true ∨ tp.isRevoked = true
  inactive : ∀ tp, s.person p = some tp → tp.isActive = false → tp.usedAt.isSome = true ∨ tp.isRevoked = true

/-! ## What a commit does to the person -/

inductive PersonEffect (p : Nat) (c : PickupCommit) (s s' : Store) : Prop
  | stamped (tp q : TrustedPerson) (v : Store) (now : Int) (hop : c.op.validatesFor p s = true)
      (seen : c.tx.seen[1]? = some v) (found : v.person p = some tp) (row : s.person p = some q)
      (claimable : q.claimable tp.isOneTime = true) (after : s'.person p = some (q.used now tp.isOneTime))
      (count : s'.validatedFor p = s.validatedFor p + 1)
  | missed (tp : TrustedPerson) (v : Store) (hop : c.op.validatesFor p s = true) (seen : c.tx.seen[1]? = some v)
      (found : v.person p = some tp) (standing : tp.isOneTime = false)
      (gone : ∀ q, s.person p = some q → q.usedAt.isSome = true ∨ q.isRevoked = true)
      (after : s'.person p = s.person p) (count : s'.validatedFor p = s.validatedFor p + 1)
  | patched (patch : TrustedPersonPatch) (hop : c.op.validatesFor p s = false)
      (hflags : c.op.flags p = (patch.isOneTime == some true))
      (after : s'.person p = (s.person p).map patch.set) (count : s'.validatedFor p = s.validatedFor p)
  | revoked (now : Int) (hop : c.op.validatesFor p s = false) (hflags : c.op.flags p = false)
      (after : s'.person p = (s.person p).map fun q => if q.isRevoked then q else q.revoked now)
      (count : s'.validatedFor p = s.validatedFor p)
  | unchanged (hop : c.op.validatesFor p s = false) (hflags : c.op.flags p = false)
      (after : s'.person p = s.person p) (count : s'.validatedFor p = s.validatedFor p)

section

variable {p : Nat} {s : Store}

theorem validatedFor_replaced {s' : Store} {r : Nat} {pr n : PickupRequest}
    (h : Table.Replaced s.requests s'.requests r pr n) (hopen : pr.status = .otpSent)
    (hkept : n.trustedPersonId = pr.trustedPersonId) : s'.validatedFor p =
      s.validatedFor p + if n.status = .validated ∧ pr.trustedPersonId = some p then 1 else 0 := by
  have hcount := h.countP (PickupRequest.backs p)
  have hbefore : PickupRequest.backs p pr = false := by
    rw [PickupRequest.backs, hopen]
    exact Bool.and_false _
  have hafter : PickupRequest.backs p n = decide (n.status = .validated ∧ pr.trustedPersonId = some p) := by
    rw [PickupRequest.backs, hkept, Bool.decide_and, Bool.and_comm, beq_eq_decide, beq_eq_decide]
  rw [hbefore] at hcount
  unfold Store.validatedFor
  by_cases hn : n.status = .validated ∧ pr.trustedPersonId = some p
  · rw [hafter, decide_eq_true hn, if_neg Bool.false_ne_true, if_pos rfl] at hcount
    rw [if_pos hn]
    omega
  · rw [hafter, decide_eq_false hn, if_neg Bool.false_ne_true] at hcount
    rw [if_neg hn]
    omega

theorem validatedFor_updateRequest (hu : Table.Unique s.requests) {r : Nat} {pr : PickupRequest}
    (row : s.request r = some pr) (hopen : pr.status = .otpSent) (patch : PickupRequestPatch)
    (e : Option PickupRequestStatus) (he : Store.expected e pr = true) :
    (Relational.apply s (Write.updateRequest r patch e)).validatedFor p = s.validatedFor p +
      if patch.status = some .validated ∧ pr.trustedPersonId = some p then 1 else 0 := by
  have hreplaced : Table.Replaced s.requests (Relational.apply s (Write.updateRequest r patch e)).requests r pr
      (patch.set pr) := .updateWhere hu (fun _ => rfl) row he
  rw [validatedFor_replaced hreplaced hopen rfl]
  have hiff : (patch.set pr).status = .validated ↔ patch.status = some .validated := by
    show patch.status.getD pr.status = _ ↔ _
    cases patch.status with
    | none => simp [hopen]
    | some st => simp
  simp only [hiff]

theorem person_updateWhere (s : Store) (i : Nat) (q : TrustedPerson → Bool) (f : TrustedPerson → TrustedPerson)
    (hf : ∀ r, Row.id (f r) = Row.id r) :
    Table.find (Table.updateWhere s.people i q f) p =
      (s.person p).map fun tp => if p = i ∧ q tp = true then f tp else tp :=
  Table.find_updateWhere s.people i q f hf p

theorem Claimed.gone {J : Store → Prop} (hJ : ∀ s, J s → Told p s)
    (h : ∃ s₁ q₁, J s₁ ∧ s₁.person p = some q₁ ∧ q₁.claimable false = false ∧ requestLocks.rely [] s₁ s)
    {q : TrustedPerson} (hq : s.person p = some q) : q.usedAt.isSome = true ∨ q.isRevoked = true := by
  obtain ⟨s₁, q₁, hj, hq₁, hclaim, hr⟩ := h
  obtain ⟨q', hq', hages, _⟩ := hr.2.1.row p q₁ hq₁
  obtain rfl := Option.some.inj (hq.symm.trans hq')
  have hbefore : q₁.usedAt.isSome = true ∨ q₁.isRevoked = true := by
    by_cases hactive : q₁.isActive = true
    · right
      rw [TrustedPerson.claimable, hactive] at hclaim
      simpa using hclaim
    · exact (hJ s₁ hj).inactive q₁ hq₁ (Bool.eq_false_of_not_eq_true hactive)
  exact hbefore.imp hages.used hages.revoked

theorem Outcome.personEffect {J : Store → Prop} {c : PickupCommit} (hJ : ∀ s, J s → Told p s) (hj : J s)
    (h : Outcome J c.tx s c.op c.result) : PersonEffect p c s (c.tx.view s) := by
  have hu := (hJ s hj).ids
  obtain ⟨op, t, a⟩ := c
  have hview : ∀ {ws}, t.writes = ws → t.view s = ws.foldl Relational.apply s := fun h => congrArg _ h
  cases h with
  | @sent now r draw _ _ res pr key held row status writes =>
    refine .unchanged rfl rfl ?_ ?_
    · rw [hview writes]
      rfl
    · rw [hview writes, List.foldl_cons, List.foldl_nil, validatedFor_updateRequest hu row status _ _ rfl]
      rfl
  | @validated now r code caller childExists res pr e x patch claim held row status checkOut moved claimed writes =>
    -- the two attendance rows come first
    generalize hs₀ : Relational.apply (Relational.apply s (Write.attendance (.insertEvent e)))
      (Write.attendance (.insertEntry x)) = s₀
    have hrow₀ : s₀.request r = some pr := hs₀ ▸ row
    have hu₀ : Table.Unique s₀.requests := hs₀ ▸ hu
    have hcount₀ : s₀.validatedFor p = s.validatedFor p := hs₀ ▸ rfl
    have hpeople₀ : s₀.people = s.people := hs₀ ▸ rfl
    have hv : t.view s = claim.foldl Relational.apply (Relational.apply s₀ (Write.updateRequest r patch none)) := by
      rw [hview writes, ← hs₀]
      rfl
    have hcount : (t.view s).validatedFor p = s.validatedFor p + if pr.trustedPersonId = some p then 1 else 0 := by
      have hpatched := validatedFor_updateRequest (p := p) hu₀ hrow₀ status patch none rfl
      rw [moved, hcount₀] at hpatched
      rw [Store.validatedFor, hv, (claim_frame claimed _).1]
      refine hpatched.trans ?_
      simp only [true_and]
    have hop : (Op.validateOtp now r code caller childExists).validatesFor p s = (pr.trustedPersonId == some p) := by
      rw [Op.validatesFor, row]
      rfl
    generalize pr.trustedPersonId = named at claimed hcount hop
    have hself : named = some p → (t.view s).validatedFor p = s.validatedFor p + 1 := by
      intro hn
      rw [hcount, if_pos hn]
    have hother : named ≠ some p → (t.view s).validatedFor p = s.validatedFor p := by
      intro hn
      rw [hcount, if_neg hn]
      rfl
    cases claimed with
    | nobody =>
      refine .unchanged hop rfl ?_ (hother nofun)
      rw [hv]
      exact congrArg (fun l => Table.find l p) hpeople₀
    | stamped i v tp q seen found held' row' claimable =>
      have hafter : (t.view s).person p = (s.person p).map fun q =>
          if p = i ∧ q.claimable tp.isOneTime = true then q.used now tp.isOneTime else q := by
        rw [hv, ← person_updateWhere s i (TrustedPerson.claimable tp.isOneTime)
          (TrustedPerson.used now tp.isOneTime) fun _ => rfl, ← hpeople₀]
        rfl
      by_cases hi : i = p
      · subst hi
        refine .stamped tp q v now (hop.trans (beq_self_eq_true _)) seen found row' claimable ?_ (hself rfl)
        rw [hafter, row', Option.map_some, if_pos ⟨rfl, claimable⟩]
      · have hne : some i ≠ some p := fun h => hi (Option.some.inj h)
        refine .unchanged (hop.trans (beq_false_of_ne hne)) rfl ?_ (hother hne)
        rw [hafter]
        simp only [Ne.symm hi, false_and, if_false, Option.map_id']
    | missed i v tp seen found standing gone =>
      have hafter : (t.view s).person p = s.person p := by
        rw [hv]
        exact congrArg (fun l => Table.find l p) hpeople₀
      by_cases hi : i = p
      · subst hi
        exact .missed tp v (hop.trans (beq_self_eq_true _)) seen found standing
          (fun q hq => Claimed.gone hJ gone hq) hafter (hself rfl)
      · have hne : some i ≠ some p := fun h => hi (Option.some.inj h)
        exact .unchanged (hop.trans (beq_false_of_ne hne)) rfl hafter (hother hne)
  | @cancelled r res pr held row status writes =>
    refine .unchanged rfl rfl ?_ ?_
    · rw [hview writes]
      rfl
    · rw [hview writes, List.foldl_cons, List.foldl_nil,
        validatedFor_updateRequest hu row status _ (some .otpSent) (beq_iff_eq.2 status)]
      rfl
  | @updated i patch link res writes =>
    by_cases hnone : patch = .none
    · rw [if_pos hnone] at writes
      refine .unchanged rfl ?_ (by rw [hview writes]; rfl) (by rw [hview writes]; rfl)
      subst hnone
      exact Bool.and_false _
    · rw [if_neg hnone] at writes
      by_cases hi : i = p
      · subst hi
        refine .patched patch rfl ?_ ?_ (by rw [hview writes]; rfl)
        · show (i == i && _) = _
          rw [beq_self_eq_true, Bool.true_and]
        · rw [hview writes]
          refine (person_updateWhere s i (fun _ => true) patch.set fun _ => rfl).trans ?_
          simp only [and_self, if_true]
      · refine .unchanged rfl ?_ ?_ (by rw [hview writes]; rfl)
        · show (i == p && _) = false
          rw [beq_false_of_ne hi, Bool.false_and]
        · rw [hview writes]
          refine (person_updateWhere s i (fun _ => true) patch.set fun _ => rfl).trans ?_
          simp only [Ne.symm hi, false_and, if_false, Option.map_id']
  | @revoked now i link res writes =>
    rcases writes with writes | writes
    · exact .unchanged rfl rfl (by rw [hview writes]; rfl) (by rw [hview writes]; rfl)
    by_cases hi : i = p
    · subst hi
      refine .revoked now rfl rfl ?_ (by rw [hview writes]; rfl)
      rw [hview writes]
      refine (person_updateWhere s i (fun row => !row.isRevoked) (TrustedPerson.revoked now) fun _ => rfl).trans ?_
      congr 1
      funext q
      by_cases hq : q.isRevoked = true <;> simp [hq]
    · refine .unchanged rfl rfl ?_ (by rw [hview writes]; rfl)
      rw [hview writes]
      refine (person_updateWhere s i (fun row => !row.isRevoked) (TrustedPerson.revoked now) fun _ => rfl).trans ?_
      simp only [Ne.symm hi, false_and, if_false, Option.map_id']

theorem unique_view (h : Table.Unique s.requests) (t : Tx Store Key Write) : Table.Unique (t.view s).requests := by
  unfold Tx.view
  generalize t.writes = ws
  induction ws generalizing s with
  | nil => exact h
  | cons w ws ih =>
    refine ih ?_
    cases w with
    | updateRequest i patch e => exact Table.unique_updateWhere h i _ _ fun _ => rfl
    | updatePerson i patch => exact h
    | markRevoked i now => exact h
    | markUsed i now d => exact h
    | attendance w => exact h

variable {c : PickupCommit} {s' : Store}

theorem PersonEffect.told (h : PersonEffect p c s s') (hs : Told p s) (hu : Table.Unique s'.requests) : Told p s' := by
  cases h with
  | stamped tp q v now _ _ _ _ _ after count =>
    have hused : ∀ n, s'.person p = some n → n.usedAt.isSome = true := by
      intro n hn
      obtain rfl := Option.some.inj (after.symm.trans hn)
      rfl
    refine ⟨hu, fun n _ _ => ?_, fun n hn _ => .inl (hused n hn), fun n hn _ => .inl (hused n hn)⟩
    omega
  | missed tp v _ _ _ _ gone after count =>
    refine ⟨hu, fun n _ _ => ?_, fun n hn _ => gone n (after ▸ hn), fun n hn hi => hs.inactive n (after ▸ hn) hi⟩
    omega
  | patched patch _ _ after count =>
    refine ⟨hu, fun n hn hused => ?_, fun n hn hb => ?_, fun n hn hi => ?_⟩
    all_goals
      rw [after, Option.map_eq_some_iff] at hn
      obtain ⟨q, hq, rfl⟩ := hn
    · rw [count]
      exact hs.used q hq hused
    · rw [count] at hb
      exact hs.backed q hq hb
    · exact hs.inactive q hq hi
  | revoked now _ _ after count =>
    refine ⟨hu, fun n hn hused => ?_, fun n hn hb => ?_, fun n hn hi => ?_⟩
    all_goals
      rw [after, Option.map_eq_some_iff] at hn
      obtain ⟨q, hq, rfl⟩ := hn
    · rw [count]
      refine hs.used q hq ?_
      split at hused <;> exact hused
    · rw [count] at hb
      split
      · exact hs.backed q hq hb
      · exact .inr rfl
    · split at hi
      · next hrevoked =>
        rw [if_pos hrevoked]
        exact .inr hrevoked
      · next hrevoked =>
        rw [if_neg hrevoked]
        exact .inr rfl
  | unchanged _ _ after count =>
    exact ⟨hu, fun n hn h => count ▸ hs.used n (after ▸ hn) h, fun n hn h => hs.backed n (after ▸ hn) (count ▸ h),
      fun n hn h => hs.inactive n (after ▸ hn) h⟩

theorem flags_of_validatesFor {op : Op} (h : op.validatesFor p s = true) : op.flags p = false := by
  cases op <;> first | rfl | cases h

theorem PersonEffect.safe_iff (h : PersonEffect p c s s') (hs : Told p s) (hone : OneTimeOnce p s) :
    OneTimeOnce p s' ∧ NotRevoked p s c ↔ StillStanding p s c := by
  cases h with
  | stamped tp q v now hop seen found row claimable after count =>
    simp only [TrustedPerson.claimable, Bool.and_eq_true, Bool.not_eq_true'] at claimable
    obtain ⟨⟨hlive, _⟩, hclaim⟩ := claimable
    have hfree : q.usedAt.isSome = false → s.validatedFor p = 0 := by
      intro hused
      by_contra hne
      rcases hs.backed q row (Nat.one_le_iff_ne_zero.2 hne) with h | h
      · rw [hused] at h; cases h
      · rw [hlive] at h; cases h
    constructor
    · rintro ⟨hone', _⟩
      refine ⟨fun _ _ n hn => ?_, fun hf => ?_⟩
      · obtain rfl := Option.some.inj (row.symm.trans hn)
        refine ⟨hlive, fun ⟨hflag, hused⟩ => ?_⟩
        have hbefore := hs.used q row hused
        have hafter := hone' _ after hflag
        omega
      · rw [flags_of_validatesFor hop] at hf
        cases hf
    · intro hc
      refine ⟨fun n hn hflag => ?_, fun _ n hn => ?_⟩
      · obtain rfl := Option.some.inj (after.symm.trans hn)
        have hused : q.usedAt.isSome = false := by
          by_cases hread : tp.isOneTime = true
          · rw [hread] at hclaim
            simpa using hclaim
          · have hreads : Reads p c := ⟨v, seen, tp, found, Bool.eq_false_of_not_eq_true hread⟩
            have hnot := (hc.standing hop hreads q row).2
            exact Bool.eq_false_of_not_eq_true fun h => hnot ⟨hflag, h⟩
        rw [count, hfree hused]
      · obtain rfl := Option.some.inj (row.symm.trans hn)
        exact hlive
  | missed tp v hop seen found standing gone after count =>
    have hreads : Reads p c := ⟨v, seen, tp, found, standing⟩
    constructor
    · rintro ⟨hone', hlive⟩
      refine ⟨fun _ _ n hn => ⟨hlive hop n hn, fun ⟨hflag, hused⟩ => ?_⟩, fun hf => ?_⟩
      · have hbefore := hs.used n hn hused
        have hafter := hone' n (after ▸ hn) hflag
        omega
      · rw [flags_of_validatesFor hop] at hf
        cases hf
    · intro hc
      refine ⟨fun n hn hflag => ?_, fun _ n hn => (hc.standing hop hreads n hn).1⟩
      obtain ⟨hlive, hnot⟩ := hc.standing hop hreads n (after ▸ hn)
      rcases gone n (after ▸ hn) with h | h
      · exact absurd ⟨hflag, h⟩ hnot
      · rw [hlive] at h
        cases h
  | patched patch hop hflags after count =>
    have hset : ∀ q, s.person p = some q → s'.person p = some (patch.set q) := by
      intro q hq
      rw [after, hq]
      rfl
    constructor
    · rintro ⟨hone', _⟩
      refine ⟨fun hval => ?_, fun hf q hq => ?_⟩
      · rw [hop] at hval
        cases hval
      · rw [hflags, beq_iff_eq] at hf
        rw [← count]
        refine hone' _ (hset q hq) ?_
        show patch.isOneTime.getD q.isOneTime = true
        rw [hf]
        rfl
    · intro hc
      refine ⟨fun n hn hflag => ?_, fun hval => ?_⟩
      · rw [after, Option.map_eq_some_iff] at hn
        obtain ⟨q, hq, rfl⟩ := hn
        rw [count]
        have hflag : patch.isOneTime.getD q.isOneTime = true := hflag
        cases hp : patch.isOneTime with
        | none =>
          rw [hp] at hflag
          exact hone q hq hflag
        | some b =>
          rw [hp] at hflag
          obtain rfl : b = true := hflag
          refine hc.flag ?_ q hq
          rw [hflags, hp]
          rfl
      · rw [hop] at hval
        cases hval
  | revoked now hop hflags after count =>
    refine iff_of_true ⟨fun n hn hflag => ?_, fun hval => ?_⟩ ⟨fun hval => ?_, fun hf => ?_⟩
    · rw [after, Option.map_eq_some_iff] at hn
      obtain ⟨q, hq, rfl⟩ := hn
      rw [count]
      refine hone q hq ?_
      split at hflag <;> exact hflag
    · rw [hop] at hval
      cases hval
    · rw [hop] at hval
      cases hval
    · rw [hflags] at hf
      cases hf
  | unchanged hop hflags after count =>
    refine iff_of_true ⟨fun n hn hflag => ?_, fun hval => ?_⟩ ⟨fun hval => ?_, fun hf => ?_⟩
    · rw [count]
      exact hone n (after ▸ hn) hflag
    · rw [hop] at hval
      cases hval
    · rw [hop] at hval
      cases hval
    · rw [hflags] at hf
      cases hf

end

/-- **A trusted person is safe exactly as long as** whoever was read without the one-time flag is still standing
at the commit, and nobody gets the flag after two pickups. -/
theorem trusted_person_iff {n p : Nat} {s : Store} {now : Nat} {cs : Schedule n} {σ : System n} (hs : Told p s)
    (hone : OneTimeOnce p s) (hrun : run s now cs = some σ) :
    TrustedPersonSafe p s σ.log ↔ AtEach (StillStanding p) s σ.log := by
  have hchain := run_chain (J := Told p) hs (fun op t s a hj h => ?_) hrun
  · have hiff := (hchain.mono fun s c h => (⟨h.1, h.2.personEffect (fun _ h => h) h.1⟩ :
      Told p s ∧ PersonEffect p c s (c.tx.view s))).always_and_iff (OneTimeOnce p) hone
      fun s c h hi => h.2.safe_iff h.1 hi
    rw [← hiff]
    exact ⟨fun h => ⟨h.oneTime, h.revoked⟩, fun h => ⟨h.1, h.2⟩⟩
  · have heffect := Outcome.personEffect (c := ⟨op, t, a⟩) (J := Told p) (fun _ h => h) hj h
    exact heffect.told hj (unique_view hj.ids t)

/-! ## Revoked between the check and the commit -/

/-- A request that names the standing person 3. -/
def namedRequest : Store where
  requests := [⟨1, 5, 7, some 3, "+77010000001", "Aidar", none, none, .otpSent, none, none, none, none, 1800000⟩]
  people := [⟨3, 5, 7, "Aidar", "+77010000001", none, "uncle", none, true, false, none, none⟩]
  attendance := ⟨[], [], []⟩

theorem told_namedRequest : Told 3 namedRequest where
  ids := (by decide : (namedRequest.requests.map PickupRequest.id).Nodup)
  used tp h := by
    obtain rfl := Option.some.inj h
    decide
  backed tp _ h := absurd h (by decide)
  inactive tp h := by
    obtain rfl := Option.some.inj h
    decide

/-- The primary guardian of the child. -/
def primaryLink : Guardians.ChildGuardian :=
  ⟨2, 5, 7, .primary, .approved, true, some 7, some 0, none, none, true, [], none, none⟩

def sendNamed : Op := .sendOtp 0 1 123456 false true

def pickUp : Op := .validateOtp 1000 1 "123456" ⟨9, some 3⟩ true

/-- `validateOtp` has found the person standing; the parent revokes; `validateOtp` goes on. -/
def revokeDuringPickup : Schedule 2 :=
  Event.request 0 sendNamed 8 0 ++ Event.request 0 pickUp 4 0 ++
    Event.request 1 (.revokePerson 900 3 (some primaryLink)) 3 0 ++ Event.steps 0 5 10 ++ Event.steps 0 6 11

theorem revokeDuringPickup_unsafe : ∃ σ : System 2, Told 3 namedRequest ∧ OneTimeOnce 3 namedRequest ∧
    run namedRequest 0 revokeDuringPickup = some σ ∧ ¬ TrustedPersonSafe 3 namedRequest σ.log := by
  obtain ⟨σ, hrun, h⟩ := run_shows (run namedRequest) 0 revokeDuringPickup (fun σ : System 2 =>
    decide (¬ AtEach (NotRevoked 3) namedRequest σ.log)) (by decide +kernel)
  exact ⟨σ, told_namedRequest, by decide, hrun, fun hsafe => of_decide_eq_true h hsafe.revoked⟩

/-- The pickup, and then the revocation. -/
def pickupThenRevoke : Schedule 1 :=
  Event.request 0 sendNamed 8 0 ++ Event.request 0 pickUp 9 10 ++ Event.steps 0 6 11 ++
    Event.request 0 (.revokePerson 900 3 (some primaryLink)) 3 0

theorem trusted_person_iff_pickupThenRevoke : ∃ σ : System 1, run namedRequest 0 pickupThenRevoke = some σ ∧
    σ.log.length = 3 ∧ TrustedPersonSafe 3 namedRequest σ.log := by
  obtain ⟨σ, hrun, h⟩ := run_shows (run namedRequest) 0 pickupThenRevoke (fun σ : System 1 =>
    decide (AtEach (StillStanding 3) namedRequest σ.log) && σ.log.length == 3) (by decide +kernel)
  simp only [Bool.and_eq_true, decide_eq_true_eq, beq_iff_eq] at h
  exact ⟨σ, hrun, h.2, (trusted_person_iff told_namedRequest (by decide) hrun).2 h.1⟩

end Pickup
