import Shyraq.Merchants.BccAccount
import Shyraq.Transactions.Serial

/-!
# What a save of the whole row carries over

Every request loads the row, changes some of its columns and saves all of them.  The ledger is what the committed
requests were asked to store; the row agrees with it as long as no request carries over a column that has changed since
its load.
-/

namespace Bcc

open Transactions

/-! ## What is claimed -/

/-- What a connection check is run with. -/
structure CheckedConfiguration where
  terminalId : String
  merchantId : String
  macKeyEnc : String
  environment : BccEnvironment
  deriving DecidableEq

def BccMerchantAccount.checkedConfiguration (account : BccMerchantAccount) : CheckedConfiguration :=
  ⟨account.terminalId, account.merchantId, account.macKeyEnc, account.environment⟩

structure Ledger where
  /-- Of the last upsert or rotation of the key. -/
  macKeyEnc : Option String
  /-- Of the first upsert, or of the last rotation of the callback. -/
  callback : Option BccCallbackCredentials
  /-- What the last successful check was run with. -/
  check : Option CheckedConfiguration
  /-- The number of commits up to the last disable, as long as no check has started after it and succeeded. -/
  disabledAt : Option Nat
  commits : Nat

/-- What the request loaded. -/
def loaded (c : BccCommit) : Store := c.tx.seen.headD ⟨none, 0⟩

def Ledger.record (L : Ledger) (c : BccCommit) : Ledger :=
  let L := { L with commits := L.commits + 1 }
  match c.op with
  | .upsert _ _ macKeyEnc callback _ =>
    { L with macKeyEnc := macKeyEnc, callback := if (loaded c).account = none then some callback else L.callback }
  | .checkConnection _ answer _ _ =>
    if answer.success then
      { L with
        check := (loaded c).account.map BccMerchantAccount.checkedConfiguration
        disabledAt := L.disabledAt.filter fun k => decide ((loaded c).saves < k) }
    else L
  | .disable .. => { L with disabledAt := some L.commits }
  | .rotateMac macKeyEnc _ => { L with macKeyEnc := macKeyEnc }
  | .rotateCallbackCredentials generated _ => { L with callback := some generated }

def ledger (log : List BccCommit) : Ledger := log.foldl Ledger.record ⟨none, none, none, none, 0⟩

structure Faithful (L : Ledger) (account : BccMerchantAccount) : Prop where
  macKey : L.macKeyEnc = some account.macKeyEnc
  callback : L.callback = some account.toBccCallbackCredentials
  enabled : account.isActive = true → L.disabledAt = none
  checked : account.isActive = true → L.check = some account.checkedConfiguration

/-- No row, before the first upsert. -/
def unconnected : Store := ⟨none, 0⟩

/-- The row is what the ledger says, in every state of the run. -/
def AlwaysFaithful (log : List BccCommit) : Prop :=
  ∀ p, p <+: log → ∀ account ∈ (replay unconnected p).account, Faithful (ledger p) account

/-- An active row that is saved as it was loaded. -/
def StillActive (L : Ledger) (account : BccMerchantAccount) : Prop :=
  account.isActive = true → L.disabledAt = none ∧ L.check = some account.checkedConfiguration

/-- What is carried over from the load is still what the ledger says. -/
def Carried (L : Ledger) (c : BccCommit) : Prop :=
  ∀ account ∈ (loaded c).account,
    match c.op with
    | .upsert .. => L.callback = some account.toBccCallbackCredentials
    | .checkConnection _ answer _ _ =>
      L.macKeyEnc = some account.macKeyEnc ∧ L.callback = some account.toBccCallbackCredentials ∧
        if answer.success then ∀ k ∈ L.disabledAt, k ≤ (loaded c).saves else StillActive L account
    | .disable .. => L.macKeyEnc = some account.macKeyEnc ∧ L.callback = some account.toBccCallbackCredentials
    | .rotateMac .. => L.callback = some account.toBccCallbackCredentials
    | .rotateCallbackCredentials .. => L.macKeyEnc = some account.macKeyEnc ∧ StillActive L account

instance (L : Ledger) (account : BccMerchantAccount) : Decidable (StillActive L account) :=
  inferInstanceAs (Decidable (_ → _))

instance (L : Ledger) (account : BccMerchantAccount) : Decidable (Faithful L account) :=
  decidable_of_iff (L.macKeyEnc = some account.macKeyEnc ∧ L.callback = some account.toBccCallbackCredentials ∧
      (account.isActive = true → L.disabledAt = none) ∧
      (account.isActive = true → L.check = some account.checkedConfiguration))
    ⟨fun ⟨h₁, h₂, h₃, h₄⟩ => ⟨h₁, h₂, h₃, h₄⟩, fun ⟨h₁, h₂, h₃, h₄⟩ => ⟨h₁, h₂, h₃, h₄⟩⟩

instance (L : Ledger) (c : BccCommit) : Decidable (Carried L c) := by
  unfold Carried
  cases c.op <;> infer_instance

/-! ## What the requests save -/

/-- The row that a request saves over the one that it loaded. -/
inductive Saved : Op → Option BccMerchantAccount → BccMerchantAccount → Prop
  | created {kindergarten input macKeyEnc callback actorId} :
      Saved (.upsert kindergarten input (some macKeyEnc) callback actorId) none
        (BccMerchantOnboardingService.newAccount
          ⟨input.merchantId, input.terminalId, input.merchantName, macKeyEnc, input.environment⟩ callback actorId)
  | configured {kindergarten input macKeyEnc callback actorId existing next}
      (update : BccMerchantAccount.updateDraftConfiguration existing
        ⟨input.merchantId, input.terminalId, input.merchantName, macKeyEnc, input.environment⟩ actorId = .ok next) :
      Saved (.upsert kindergarten input (some macKeyEnc) callback actorId) (some existing) next
  | checked {opens answer checkedAt actorId account next}
      (check : BccMerchantOnboardingService.checked answer checkedAt actorId account = .ok next) :
      Saved (.checkConnection opens answer checkedAt actorId) (some account) next
  | disabled {now actorId account} : Saved (.disable now actorId) (some account) (account.disable now actorId)
  | macRotated {macKeyEnc actorId account} :
      Saved (.rotateMac (some macKeyEnc) actorId) (some account) (account.rotateMacKey macKeyEnc actorId)
  | callbackRotated {generated actorId account} :
      Saved (.rotateCallbackCredentials generated actorId) (some account)
        (account.rotateCallbackCredentials generated actorId)

theorem updateDraftConfiguration_ok {existing next : BccMerchantAccount} {input : BccConfiguration} {updatedBy : Nat}
    (h : existing.updateDraftConfiguration input updatedBy = .ok next) :
    next.macKeyEnc = input.macKeyEnc ∧ next.toBccCallbackCredentials = existing.toBccCallbackCredentials ∧
      next.isActive = false := by
  unfold BccMerchantAccount.updateDraftConfiguration at h
  split at h
  · cases h
  · obtain rfl := Except.ok.inj h
    exact ⟨rfl, rfl, rfl⟩

variable {account : BccMerchantAccount}

theorem activate_ok {next : BccMerchantAccount} {updatedBy : Nat} (h : account.activate updatedBy = .ok next) :
    next.toBccConfiguration = account.toBccConfiguration ∧
      next.toBccCallbackCredentials = account.toBccCallbackCredentials ∧ next.isActive = true := by
  unfold BccMerchantAccount.activate at h
  split at h
  · cases h
  · dsimp only at h
    split at h
    · obtain rfl := Except.ok.inj h
      exact ⟨rfl, rfl, rfl⟩
    · cases h

theorem checked_ok {answer : BccAnswer} {checkedAt : Int} {actorId : Nat} {next : BccMerchantAccount}
    (h : BccMerchantOnboardingService.checked answer checkedAt actorId account = .ok next) :
    next.toBccConfiguration = account.toBccConfiguration ∧
      next.toBccCallbackCredentials = account.toBccCallbackCredentials ∧
      next.isActive = (answer.success || account.isActive) := by
  have hsame : (account.recordConnectionCheck answer.result checkedAt actorId).isActive = account.isActive := rfl
  unfold BccMerchantOnboardingService.checked at h
  dsimp only at h
  rw [hsame] at h
  cases hsuccess : answer.success with
  | false =>
    rw [hsuccess] at h
    obtain rfl := Except.ok.inj h
    exact ⟨rfl, rfl, rfl⟩
  | true =>
    cases hactive : account.isActive with
    | true =>
      rw [hsuccess, hactive] at h
      obtain rfl := Except.ok.inj h
      exact ⟨rfl, rfl, hactive⟩
    | false =>
      rw [hsuccess, hactive] at h
      have hactivated : (account.recordConnectionCheck answer.result checkedAt actorId).activate actorId = .ok next := h
      obtain ⟨hconfiguration, hcallback, hnext⟩ := activate_ok hactivated
      exact ⟨hconfiguration, hcallback, hnext⟩

theorem isActive_disable (account : BccMerchantAccount) (now : Int) (updatedBy : Nat) :
    (account.disable now updatedBy).isActive = false := by
  unfold BccMerchantAccount.disable BccMerchantAccount.isActive
  split
  · rename_i h
    rw [h]
    rfl
  · rfl

theorem disable_keeps (account : BccMerchantAccount) (now : Int) (updatedBy : Nat) :
    (account.disable now updatedBy).toBccConfiguration = account.toBccConfiguration ∧
      (account.disable now updatedBy).toBccCallbackCredentials = account.toBccCallbackCredentials := by
  unfold BccMerchantAccount.disable
  split
  · exact ⟨rfl, rfl⟩
  · exact ⟨rfl, rfl⟩

/-- One save, of a row that was made from the loaded one. -/
structure SavesOne (t : Tx Store Key Write) (s : Store) (op : Op) : Prop where
  saved : ∃ v account, t.seen.head? = some v ∧ Saved op v.account account ∧ t.view s = ⟨some account, s.saves + 1⟩

section

variable {v : Store}

theorem safe_save {op : Op} {t : Tx Store Key Write} {s : Store}
    (hseen : t.seen = [v]) (hwrites : t.writes = []) (h : Saved op v.account account) :
    Prog.Safe Discipline.loose (fun _ => True) (fun _ => True) (fun t s _ => SavesOne t s op)
      (BccMerchantAccountRepository.save account) t s := by
  unfold BccMerchantAccountRepository.save
  simp only [Prog.bind_eq]
  refine Prog.Safe.update (fun s₁ _ _ _ => Prog.Safe.query fun s₂ _ _ => ?_) fun s₁ _ _ hmiss => (by cases hmiss)
  cases hrow : ((t.wrote (Write.save account)).view s₂).account with
  | none => trivial
  | some row =>
    intro s₃ _ _
    refine ⟨v, account, ?_, h, ?_⟩
    · rw [Tx.seen_saw, Tx.seen_wrote, hseen]
      rfl
    · rw [Tx.view_saw, Tx.view_wrote, Tx.view, hwrites]
      rfl

/-- **Every request** saves one row that it made from the one it loaded. -/
theorem safe_savesOne (op : Op) (s : Store) :
    Prog.Safe Discipline.loose (fun _ => True) (fun _ => True) (fun t s _ => SavesOne t s op) op.prog .start s := by
  have hX : ∀ _ : BccError, True := fun _ => trivial
  cases op with
  | upsert kindergarten input macKeyEnc callback actorId =>
    unfold Op.prog Op.answer BccMerchantOnboardingService.upsert BccMerchantAccountRepository.findByKindergartenId
    simp only [Prog.bind_eq, Prog.bind_assoc]
    refine Prog.Safe.guardOr hX fun _ => Prog.Safe.require hX fun mac hmac => Prog.Safe.query fun v _ _ => ?_
    refine Prog.Safe.ofExcept hX fun next hnext => Prog.Safe.map (safe_save rfl rfl ?_) fun _ _ _ _ h => h
    subst hmac
    rw [Tx.view_start] at hnext ⊢
    cases hrow : v.account with
    | none =>
      rw [hrow] at hnext
      obtain rfl := Except.ok.inj hnext
      exact .created
    | some existing =>
      rw [hrow] at hnext
      dsimp only [BccMerchantOnboardingService.upserted] at hnext
      cases hactive : existing.isActive with
      | true =>
        rw [hactive] at hnext
        cases hnext
      | false =>
        rw [hactive] at hnext
        exact .configured hnext
  | checkConnection opens a checkedAt actorId =>
    unfold Op.prog Op.answer BccMerchantOnboardingService.checkConnection BccMerchantOnboardingService.requireAccount
      BccMerchantAccountRepository.findByKindergartenId
    simp only [Prog.bind_eq, Prog.bind_assoc]
    refine Prog.Safe.query fun v _ _ => Prog.Safe.require hX fun account hrow => Prog.Safe.guardOr hX fun _ => ?_
    refine Prog.Safe.ofExcept hX fun next hnext => Prog.Safe.map (safe_save rfl rfl ?_) fun _ _ _ _ h => h
    rw [hrow]
    exact .checked hnext
  | disable now actorId =>
    unfold Op.prog Op.answer BccMerchantOnboardingService.disable BccMerchantOnboardingService.requireAccount
      BccMerchantAccountRepository.findByKindergartenId
    simp only [Prog.bind_eq, Prog.bind_assoc]
    refine Prog.Safe.query fun v _ _ => Prog.Safe.require hX fun account hrow => ?_
    refine Prog.Safe.map (safe_save rfl rfl ?_) fun _ _ _ _ h => h
    rw [hrow]
    exact .disabled
  | rotateMac macKeyEnc actorId =>
    unfold Op.prog Op.answer BccMerchantOnboardingService.rotateMac BccMerchantOnboardingService.requireAccount
      BccMerchantAccountRepository.findByKindergartenId
    simp only [Prog.bind_eq, Prog.bind_assoc]
    refine Prog.Safe.query fun v _ _ => Prog.Safe.require hX fun account hrow => Prog.Safe.require hX fun mac hmac => ?_
    refine Prog.Safe.map (safe_save rfl rfl ?_) fun _ _ _ _ h => h
    subst hmac
    rw [hrow]
    exact .macRotated
  | rotateCallbackCredentials generated actorId =>
    unfold Op.prog Op.answer BccMerchantOnboardingService.rotateCallbackCredentials
      BccMerchantOnboardingService.requireAccount BccMerchantAccountRepository.findByKindergartenId
    simp only [Prog.bind_eq, Prog.bind_assoc]
    refine Prog.Safe.query fun v _ _ => Prog.Safe.require hX fun account hrow => ?_
    refine Prog.Safe.map (safe_save rfl rfl ?_) fun _ _ _ _ h => h
    rw [hrow]
    exact .callbackRotated

end

/-! ## Runs -/

section

variable {L : Ledger} {c : BccCommit} {account : BccMerchantAccount}

theorem faithful_inactive (h : account.isActive = false) : Faithful L account ↔
      L.macKeyEnc = some account.macKeyEnc ∧ L.callback = some account.toBccCallbackCredentials := by
  constructor
  · intro hf
    exact ⟨hf.macKey, hf.callback⟩
  · intro ⟨hmac, hcallback⟩
    have hno : ∀ {P : Prop}, account.isActive = true → P := fun ha => absurd (h.symm.trans ha) Bool.false_ne_true
    exact ⟨hmac, hcallback, hno, hno⟩

theorem faithful_iff : Faithful L account ↔ L.macKeyEnc = some account.macKeyEnc ∧
      L.callback = some account.toBccCallbackCredentials ∧ StillActive L account := by
  constructor
  · intro hf
    exact ⟨hf.macKey, hf.callback, fun ha => ⟨hf.enabled ha, hf.checked ha⟩⟩
  · intro ⟨hmac, hcallback, hactive⟩
    exact ⟨hmac, hcallback, fun ha => (hactive ha).1, fun ha => (hactive ha).2⟩

/-- **One commit.**  The row that it leaves is faithful exactly when what it carried over is. -/
theorem faithful_record_iff {v : Store} (hloaded : loaded c = v) (h : Saved c.op v.account account) :
    Faithful (L.record c) account ↔ Carried L c := by
  unfold Ledger.record Carried
  rw [hloaded]
  generalize c.op = op at h ⊢
  generalize v.account = row at h ⊢
  cases h with
  | created =>
    refine iff_of_true ((faithful_inactive rfl).2 ⟨rfl, rfl⟩) ?_
    intro existing hrow
    cases hrow
  | @configured _ _ _ _ _ existing _ update =>
    obtain ⟨hmac, hcallback, hactive⟩ := updateDraftConfiguration_ok update
    rw [faithful_inactive hactive, hmac, hcallback]
    simp
  | @checked _ answer _ _ before _ check =>
    obtain ⟨hconfiguration, hcallback, hactive⟩ := checked_ok check
    have hmac : account.macKeyEnc = before.macKeyEnc := congrArg BccConfiguration.macKeyEnc hconfiguration
    have hsame : account.checkedConfiguration = before.checkedConfiguration := by
      unfold BccMerchantAccount.checkedConfiguration
      rw [hconfiguration]
    rw [faithful_iff, hmac, hcallback]
    unfold StillActive
    rw [hactive, hsame]
    cases hsuccess : answer.success with
    | true =>
      simp only [hsuccess, Bool.true_or, if_true, forall_const, Option.map_some, and_true, Option.some.injEq, forall_eq',
        Option.filter_eq_none_iff, decide_eq_true_eq, Nat.not_lt, Option.mem_def]
    | false =>
      simp only [hsuccess, Bool.false_or, Bool.false_eq_true, if_false, Option.mem_some_iff, forall_eq']
  | @disabled now actorId before =>
    have hconfiguration := (disable_keeps before now actorId).1
    rw [faithful_inactive (isActive_disable before now actorId), hconfiguration, (disable_keeps before now actorId).2]
    simp
  | @macRotated _ _ before =>
    rw [faithful_inactive rfl]
    simp [BccMerchantAccount.rotateMacKey, BccMerchantAccount.resetToDraft]
  | @callbackRotated generated actorId before =>
    rw [faithful_iff]
    simp only [BccMerchantAccount.rotateCallbackCredentials, Option.mem_some_iff, forall_eq', true_and]
    exact Iff.rfl

variable {n : Nat} {σ : System n} {cs : Schedule n}

theorem ledger_snoc (log : List BccCommit) (c : BccCommit) : ledger (log ++ [c]) = (ledger log).record c := by
  unfold ledger
  rw [List.foldl_append, List.foldl_cons, List.foldl_nil]

theorem run_saves (hrun : run unconnected cs = some σ) :
    Chain (fun s c => SavesOne c.tx s c.op) unconnected σ.log σ.db := by
  have hstarts : System.Starts (fun _ => True) cs := fun _ _ _ => trivial
  have hchain := System.exec_chain (X := fun _ => True) (J := fun _ => True) (Q := fun op t s _ => SavesOne t s op)
    (D := Discipline.loose) trivial (fun op s _ _ => safe_savesOne op s) (fun _ _ _ _ _ _ => trivial)
    (fun _ _ _ _ _ _ _ _ => trivial) hstarts hrun
  exact hchain.mono fun _ _ h => h.2

/-- **The row is what was last stored** in every state of a run exactly when every save carries over what the ledger
still says. -/
theorem alwaysFaithful_iff (hrun : run unconnected cs = some σ) :
    AlwaysFaithful σ.log ↔ ∀ p c, p ++ [c] <+: σ.log → Carried (ledger p) c := by
  have hnone : ∀ account ∈ unconnected.account, Faithful (ledger []) account := by
    intro account hrow
    cases hrow
  refine (run_saves hrun).prefix_iff (I := fun p s => ∀ account ∈ s.account, Faithful (ledger p) account)
    (C := fun p _ c => Carried (ledger p) c) hnone fun l s c ⟨v, account, hseen, hsaved, hview⟩ _ => ?_
  have hloaded : loaded c = v := by
    unfold loaded
    rw [List.headD_eq_head?_getD, hseen]
    rfl
  rw [hview, ledger_snoc]
  show (∀ a ∈ some account, Faithful ((ledger l).record c) a) ↔ _
  simp only [Option.mem_some_iff, forall_eq']
  exact faithful_record_iff hloaded hsaved

end

/-! ## A check that overtakes a disable -/

def terminal : UpsertBccAccountInput := ⟨"merchant", "terminal", none, .live⟩

def callbackOne : BccCallbackCredentials := ⟨"hash1", "token1", "bcc_1", "password1"⟩

def callbackTwo : BccCallbackCredentials := ⟨"hash2", "token2", "bcc_2", "password2"⟩

def accepted : BccAnswer := .responded true (some "0") none none

/-- The account is connected. -/
def connect : Schedule 2 :=
  Choice.request 0 (.upsert true terminal (some "mac1") callbackOne 1) 4 0 ++
    Choice.request 0 (.checkConnection true accepted 10 1) 4 0

/-- A second check has loaded the active row and waits for the bank when the disable commits. -/
def checkOvertakes : Schedule 2 :=
  connect ++ [.start 0 (.checkConnection true accepted 30 1), .step 0 0] ++ Choice.request 1 (.disable 20 2) 4 0 ++
    Choice.steps 0 3 0

theorem checkOvertakes_unfaithful : ∃ σ : System 2, run unconnected checkOvertakes = some σ ∧ ¬ AlwaysFaithful σ.log := by
  obtain ⟨σ, hrun, h⟩ := run_shows run unconnected checkOvertakes
    (fun σ : System 2 => decide (σ.log.length = 4 ∧
      ¬ ∀ account ∈ (replay unconnected σ.log).account, Faithful (ledger σ.log) account)) (by decide +kernel)
  exact ⟨σ, hrun, fun hfaithful => (of_decide_eq_true h).2 (hfaithful σ.log List.prefix_rfl)⟩

/-- One request after the other. -/
def rotations : Schedule 2 :=
  connect ++ Choice.request 1 (.rotateCallbackCredentials callbackTwo 2) 4 0 ++ Choice.request 1 (.disable 20 2) 4 0 ++
    Choice.request 0 (.checkConnection true accepted 30 1) 4 0 ++ Choice.request 1 (.rotateMac (some "mac2") 2) 4 0

theorem alwaysFaithful_rotations : ∃ σ : System 2, run unconnected rotations = some σ ∧ σ.log.length = 6 ∧
    AlwaysFaithful σ.log := by
  obtain ⟨σ, hrun, h⟩ := run_shows run unconnected rotations
    (fun σ : System 2 => decide (σ.log.length = 6 ∧
      ∀ i (h : i < σ.log.length), Carried (ledger (σ.log.take i)) σ.log[i])) (by decide +kernel)
  obtain ⟨hlength, hcarried⟩ := of_decide_eq_true h
  exact ⟨σ, hrun, hlength, (alwaysFaithful_iff hrun).2 (forall_snoc_prefix_iff.2 hcarried)⟩

end Bcc
