import Shyraq.Merchants.KaspiConnect
import Shyraq.Transactions.Serial

/-!
# A disconnect is final

`refreshSession` saves every column of the row that it loaded before it asked the provider, the status included, and
does not ask what the status was.
-/

namespace Kaspi

open Transactions

/-! ## What is claimed -/

/-- The last disconnect has no finished onboarding after it. -/
def disconnected : List KaspiCommit → Bool :=
  List.foldl (fun d c => match c.op with
    | .disconnect => true
    | .verifyOtp .. => false
    | _ => d) false

/-- `active` or `expired`. -/
def Store.connected (s : Store) : Bool := s.session.any fun row => row.status == .active || row.status == .expired

/-- Where a disconnect was the last word, the session is not connected. -/
def StaysDisconnected (log : List KaspiCommit) (s : Store) : Prop := disconnected log = true → s.connected = false

/-- A refresh is saved only where no disconnect was the last word. -/
def RefreshesConnected (log : List KaspiCommit) (c : KaspiCommit) : Prop :=
  match c.op with
  | .refreshSession .. => disconnected log = false
  | _ => True

/-- A disconnect is final in every state of the run. -/
def DisconnectFinal (s : Store) (log : List KaspiCommit) : Prop :=
  ∀ p, p <+: log → StaysDisconnected p (replay s p)

instance (log : List KaspiCommit) (s : Store) : Decidable (StaysDisconnected log s) :=
  inferInstanceAs (Decidable (_ → _))

instance (log : List KaspiCommit) (c : KaspiCommit) : Decidable (RefreshesConnected log c) := by
  unfold RefreshesConnected
  split <;> infer_instance

/-! ## What the requests commit -/

/-- The requests that save no status. -/
def Op.keepsStatus : Op → Bool
  | .init _ | .sendPhone .. | .touch _ => true
  | .verifyOtp .. | .refreshSession .. | .disconnect => false

/-- What a request leaves of the connection. -/
inductive SessionOutcome (v s : Store) : Op → Prop
  | kept {op} (same : v.connected = s.connected) (keeps : op.keepsStatus = true) : SessionOutcome v s op
  | finished {now a} : SessionOutcome v s (.verifyOtp now a)
  | refreshed {now a} (connected : v.connected = true) : SessionOutcome v s (.refreshSession now a)
  | disconnected (gone : v.connected = false) : SessionOutcome v s .disconnect

section

variable {t : Tx Store Key Write} {s : Store} {X : KaspiError → Prop}

theorem safe_save (session : KaspiMerchantSession) (t : Tx Store Key Write) (s : Store) :
    Prog.Safe Discipline.loose (fun _ => True) (fun _ => True) (fun t' s' _ => t'.view s' = ⟨some session⟩)
      (KaspiMerchantSessionRepository.save session) t s := by
  unfold KaspiMerchantSessionRepository.save
  simp only [Prog.bind_eq]
  refine Prog.Safe.update (fun s₁ _ _ _ => Prog.Safe.query fun s₂ _ _ => ?_) fun s₁ _ _ hmiss => (by cases hmiss)
  cases hrow : ((t.wrote (Write.save session)).view s₂).session with
  | none => trivial
  | some row =>
    intro s₃ _ _
    show (t.writes ++ [Write.save session]).foldl Relational.apply s₃ = _
    rw [List.foldl_append]
    rfl

theorem safe_outcome (op : Op) (s : Store) :
    Prog.Safe Discipline.loose (fun _ => True) (fun _ => True) (fun t s _ => SessionOutcome (t.view s) s op) op.prog
      .start s := by
  have hX : ∀ _ : KaspiError, True := fun _ => trivial
  cases op with
  | init a =>
    unfold Op.prog Op.answer KaspiConnectService.init KaspiMerchantSessionRepository.findByKindergartenId
    simp only [Prog.bind_eq, Prog.bind_assoc]
    refine Prog.Safe.query fun v _ _ => Prog.Safe.guardOr hX fun _ => ?_
    cases a with
    | accepted => exact fun s' _ _ => .kept rfl rfl
    | _ => trivial
  | sendPhone known a =>
    unfold Op.prog Op.answer KaspiConnectService.sendPhone
    simp only [Prog.bind_eq, Prog.bind_assoc]
    refine Prog.Safe.guardOr hX fun _ => ?_
    cases a with
    | accepted => exact fun s' _ _ => .kept rfl rfl
    | _ => trivial
  | verifyOtp now a =>
    refine (Prog.Safe.of_onlyWrites (Prog.OnlyWrites.any _) hX trivial).mono fun t' s' _ _ _ => ?_
    exact .finished
  | refreshSession now a =>
    unfold Op.prog Op.answer KaspiConnectService.refreshSession KaspiMerchantSessionRepository.findByKindergartenId
    simp only [Prog.bind_eq, Prog.bind_assoc]
    refine Prog.Safe.query fun v _ _ => Prog.Safe.require hX fun session _ => Prog.Safe.require hX fun tokenSn _ => ?_
    refine Prog.Safe.ofExcept hX fun next hnext => ?_
    refine Prog.Safe.map (safe_save next _ _) fun t' s' _ _ hview => .refreshed ?_
    rw [hview]
    unfold KaspiConnectService.refreshed at hnext
    cases a with
    | throws => cases hnext
    | failed => cases hnext; rfl
    | signedIn newTokenSn secret org =>
      cases org with
      | none => cases hnext
      | some org => cases hnext; rfl
  | disconnect =>
    unfold Op.prog Op.answer KaspiConnectService.disconnect KaspiMerchantSessionRepository.findByKindergartenId
    simp only [Prog.bind_eq, Prog.bind_assoc]
    refine Prog.Safe.query fun v _ _ => Prog.Safe.require hX fun session _ => ?_
    refine Prog.Safe.map (safe_save session.revoke _ _) fun t' s' _ _ hview => .disconnected ?_
    rw [hview]
    rfl
  | touch now =>
    unfold Op.prog Op.answer KaspiMerchantSessionRepository.touchLastCheckedAtBypassRls
    simp only [Prog.bind_eq, Prog.bind_assoc]
    refine Prog.Safe.update (fun s₁ _ _ _ s₂ _ _ => .kept ?_ rfl) fun s₁ _ _ _ s₂ _ _ =>
      .kept rfl rfl
    show (Store.apply s₂ (.touchLastCheckedAt now)).connected = s₂.connected
    unfold Store.apply Store.connected
    rw [Option.any_map]

end

/-! ## Runs -/

theorem disconnected_snoc (log : List KaspiCommit) (c : KaspiCommit) : disconnected (log ++ [c]) = match c.op with
      | .disconnect => true
      | .verifyOtp .. => false
      | _ => disconnected log := by
  unfold disconnected
  rw [List.foldl_append, List.foldl_cons, List.foldl_nil]

theorem staysDisconnected_iff {log : List KaspiCommit} {s : Store} {c : KaspiCommit}
    (h : SessionOutcome (c.tx.view s) s c.op) (hs : StaysDisconnected log s) :
    StaysDisconnected (log ++ [c]) (c.tx.view s) ↔ RefreshesConnected log c := by
  unfold StaysDisconnected at hs ⊢
  unfold RefreshesConnected
  rw [disconnected_snoc]
  generalize hop : c.op = op at h ⊢
  cases h with
  | kept same keeps =>
    cases op with
    | disconnect => cases keeps
    | refreshSession now a => cases keeps
    | verifyOtp now a => cases keeps
    | init a => exact iff_of_true (fun h => same.trans (hs h)) trivial
    | sendPhone known a => exact iff_of_true (fun h => same.trans (hs h)) trivial
    | touch now => exact iff_of_true (fun h => same.trans (hs h)) trivial
  | finished => exact iff_of_true (fun h => absurd h Bool.false_ne_true) trivial
  | refreshed connected =>
    show (disconnected log = true → (c.tx.view s).connected = false) ↔ disconnected log = false
    rw [connected]
    constructor
    · intro h
      exact Bool.eq_false_of_not_eq_true fun hd => absurd (h hd) (by decide)
    · intro h hd
      rw [h] at hd
      exact hd.symm
  | disconnected gone => exact iff_of_true (fun _ => gone) trivial

/-- **A disconnect is final** in a run exactly when no refresh saves after a disconnect that no onboarding has followed. -/
theorem disconnectFinal_iff {n : Nat} {s : Store} {σ : System n} {cs : Schedule n} (hrun : run s cs = some σ) :
    DisconnectFinal s σ.log ↔ ∀ p c, p ++ [c] <+: σ.log → RefreshesConnected p c := by
  have hstarts : System.Starts (fun _ => True) cs := fun _ _ _ => trivial
  have hchain := System.exec_chain (X := fun _ => True) (J := fun _ => True)
    (Q := fun op t s _ => SessionOutcome (t.view s) s op) (D := Discipline.loose) trivial
    (fun op s _ _ => safe_outcome op s) (fun _ _ _ _ _ _ => trivial) (fun _ _ _ _ _ _ _ _ => trivial) hstarts hrun
  exact hchain.prefix_iff (C := fun p _ c => RefreshesConnected p c) (fun h => absurd h Bool.false_ne_true)
    fun l v c ⟨_, h⟩ hs => staysDisconnected_iff h hs

/-! ## A refresh that overtakes a disconnect -/

/-- Signed in once, with all that a refresh needs. -/
def merchant : Store :=
  ⟨some ⟨1, .active, some "+77010000000", some "profile", some "org", some "Balapan", some "token", some "secret",
    some "keypair", some "ecdh", some "device", some "install", some "pin", some 10⟩⟩

def signedIn : SignInLiteAnswer := .signedIn (some "token2") "secret2" (some ⟨some "profile", some "org", none⟩)

/-- The refresh has loaded the row and waits for the provider when the disconnect commits. -/
def refreshOvertakes : Schedule 2 :=
  [.start 0 (.refreshSession 20 signedIn), .step 0 0] ++ Choice.request 1 .disconnect 4 0 ++ Choice.steps 0 3 0

theorem refreshOvertakes_reconnects : ∃ σ : System 2, run merchant refreshOvertakes = some σ ∧
    ¬ DisconnectFinal merchant σ.log := by
  obtain ⟨σ, hrun, h⟩ := run_shows run merchant refreshOvertakes
    (fun σ : System 2 => decide (σ.log.length = 2 ∧ ¬ StaysDisconnected σ.log (replay merchant σ.log)))
    (by decide +kernel)
  exact ⟨σ, hrun, fun hfinal => (of_decide_eq_true h).2 (hfinal σ.log List.prefix_rfl)⟩

/-- The refresh is over before the disconnect. -/
def refreshThenDisconnect : Schedule 2 :=
  Choice.request 0 (.refreshSession 20 signedIn) 4 0 ++ Choice.request 1 .disconnect 4 0

theorem disconnectFinal_refreshThenDisconnect : ∃ σ : System 2, run merchant refreshThenDisconnect = some σ ∧
    σ.log.length = 2 ∧ DisconnectFinal merchant σ.log := by
  obtain ⟨σ, hrun, h⟩ := run_shows run merchant refreshThenDisconnect
    (fun σ : System 2 => decide (σ.log.length = 2 ∧
      ∀ i (h : i < σ.log.length), RefreshesConnected (σ.log.take i) σ.log[i])) (by decide +kernel)
  obtain ⟨hlength, hconnected⟩ := of_decide_eq_true h
  exact ⟨σ, hrun, hlength, (disconnectFinal_iff hrun).2 (forall_snoc_prefix_iff.2 hconnected)⟩

end Kaspi
