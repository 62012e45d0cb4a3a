import Shyraq.Transactions.Flows
import Shyraq.Billing.Requests

/-!
# BccReconciliationService

One status check of a BCC payment: claim the payment, ask the gateway, then settle it or ask again later.  Each call of
the repository, and each settlement, is a transaction of its own.
-/

namespace Billing

open Kernel Transactions

/-- `BCC_RECONCILIATION_…_MS`: `positiveEnv` lets no other values through. -/
structure ReconciliationDelays where
  base : Int
  max : Int
  hardCap : Int
  base_pos : 0 < base
  max_pos : 0 < max
  hardCap_pos : 0 < hardCap

def ReconciliationDelays.default : ReconciliationDelays := ⟨300000, 3600000, 86400000, by decide, by decide, by decide⟩

def bccReconciliationDelayMs (d : ReconciliationDelays) (attempts : Nat) : Int :=
  let exponent := Max.max 0 (min 30 ((attempts : Int) - 1))
  min d.max (d.base * 2 ^ exponent.toNat)

theorem delay_pos (d : ReconciliationDelays) (attempts : Nat) : 0 < bccReconciliationDelayMs d attempts := by
  show 0 < min d.max (d.base * 2 ^ _)
  rw [Int.lt_min]
  exact ⟨d.max_pos, Int.mul_pos d.base_pos (Int.pow_pos (by omega))⟩

/-! ## The transactions of a tick -/

namespace PaymentRepository

def claimBccReconciliationCrossTenant (id : Nat) (now leaseUntil : Int) : Sql (Option Payment) :=
  returning (.reconcile id (.claim now leaseUntil)) fun s => s.payment? id

def rescheduleBccReconciliationCrossTenant (id : Nat) (nextAt : Int) : Sql Bool :=
  Prog.update (.scheduleBccReconciliation id nextAt)

def markBccManualReviewCrossTenant (id : Nat) (now : Int) : Sql Bool :=
  Prog.update (.reconcile id (.manualReview now))

end PaymentRepository

/-- A billing request, or a call of a tick. -/
inductive TickOp
  | billing (op : Op)
  | find (id : Nat)
  | claim (id : Nat) (now leaseUntil : Int)
  | reschedule (payment : Payment) (hardCapAt now : Int)
  | manualReview (id : Nat) (now : Int)

inductive TickAnswer
  | billing (a : Answer)
  | payment (p : Option Payment)
  | flag (b : Bool)

/-- When a tick asks again. -/
def nextCheckAt (d : ReconciliationDelays) (payment : Payment) (hardCapAt now : Int) : Int :=
  min hardCapAt (now + bccReconciliationDelayMs d payment.reconciliationAttempts)

def TickOp.prog (d : ReconciliationDelays) : TickOp → Sql TickAnswer
  | billing op => do
      let a ← op.prog
      pure (.billing a)
  | find id => do
      let p ← PaymentRepository.findById id
      pure (.payment p)
  | claim id now leaseUntil => do
      let p ← PaymentRepository.claimBccReconciliationCrossTenant id now leaseUntil
      pure (.payment p)
  | reschedule payment hardCapAt now => do
      let b ← PaymentRepository.rescheduleBccReconciliationCrossTenant payment.id (nextCheckAt d payment hardCapAt now)
      pure (.flag b)
  | manualReview id now => do
      let b ← PaymentRepository.markBccManualReviewCrossTenant id now
      pure (.flag b)

/-! ## reconcileOnce -/

/-- `BccGatewayResponse`, as far as the tick reads it. -/
structure BccGatewayResponse where
  httpOk : Bool
  order : Option Nat
  action : Option String
  rc : Option String
  deriving DecidableEq

/-- What a tick hears when it asks: the clock, and the gateway, whose call may throw. -/
structure Heard where
  now : Int
  status : Option BccGatewayResponse

/-- A tick, or a part of one. -/
abbrev Tick (A : Type) := Flow TickOp TickAnswer Heard A

inductive ReconciliationOutcome
  | settled | failed | reschedule | manualReview | stop
  deriving DecidableEq, Repr

structure ReconciliationResult where
  outcome : ReconciliationOutcome
  nextAt : Option Int
  deriving DecidableEq

namespace BccReconciliationService

def isBccSuccess (action rc : Option String) : Bool := action == some "0" && rc == some "00"

def isBccTerminalFailure (action rc : Option String) : Bool :=
  action == some "1" || action == some "2" || action == some "3" ||
    rc.any (fun rc => rc != "" && rc != "00") && action == some "0"

def clockNow : Tick Int := .hear fun x => .done x.now

def getPaymentStatus : Tick (Option BccGatewayResponse) := .hear fun x => .done x.status

def paymentOr (op : TickOp) : Tick (Option Payment) :=
  .call op fun
    | some (.payment p) => .done p
    | _ => .fail

def flagOr (op : TickOp) : Tick Bool :=
  .call op fun
    | some (.flag b) => .done b
    | _ => .fail

def reschedule (d : ReconciliationDelays) (payment : Payment) (hardCapAt now : Int) : Tick ReconciliationResult := do
  let _ ← flagOr (.reschedule payment hardCapAt now)
  pure ⟨.reschedule, some (nextCheckAt d payment hardCapAt now)⟩

/-- `settleFromBccReconciliation`; where it throws the tick asks again later. -/
def settleOrReschedule (d : ReconciliationDelays) (payment : Payment) (hardCapAt now : Int)
    (terminal : VerifyWebhookResult) (outcome : ReconciliationOutcome) : Tick ReconciliationResult := do
  let settledAt ← clockNow
  let settled ← Flow.transaction (.billing (.deliver .settleFromBccReconciliation settledAt payment.id terminal))
  if settled.isSome then pure ⟨outcome, none⟩ else reschedule d payment hardCapAt now

/-- `claimed.providerTxnId ?? ''`. -/
def orderOf (payment : Payment) : Nat := payment.providerTxnId.getD 0

/-- What the claiming tick makes of the gateway's answer. -/
def applyStatus (d : ReconciliationDelays) (claimed : Payment) (hardCapAt now : Int) (r : BccGatewayResponse) :
    Tick ReconciliationResult :=
  if (r.order.isSome && r.order != claimed.providerTxnId) || !r.httpOk then
    reschedule d claimed hardCapAt now
  else if isBccSuccess r.action r.rc then
    settleOrReschedule d claimed hardCapAt now ⟨orderOf claimed, .completed, none⟩ .settled
  else if isBccTerminalFailure r.action r.rc then
    settleOrReschedule d claimed hardCapAt now
      ⟨orderOf claimed, .failed, some ("bcc_rc_" ++ r.rc.getD "unknown")⟩ .failed
  else
    reschedule d claimed hardCapAt now

def checkStatus (d : ReconciliationDelays) (claimed : Payment) (hardCapAt now : Int) : Tick ReconciliationResult := do
  let response ← getPaymentStatus
  match response with
  | none => reschedule d claimed hardCapAt now
  | some r => applyStatus d claimed hardCapAt now r

/-- Another tick has the claim, or nothing is due. -/
def unclaimed (paymentId : Nat) : Tick ReconciliationResult := do
  let refreshed ← paymentOr (.find paymentId)
  match refreshed with
  | none => pure ⟨.stop, none⟩
  | some p =>
      if p.provider = .bcc ∧ p.status = .processing ∧ p.nextReconciliationAt.isSome then
        pure ⟨.reschedule, p.nextReconciliationAt⟩
      else
        pure ⟨.stop, none⟩

/-- From the claim on. -/
def claimAndCheck (d : ReconciliationDelays) (paymentId : Nat) (hardCapAt now : Int) : Tick ReconciliationResult := do
  let claimed ← paymentOr (.claim paymentId now (now + d.max))
  match claimed with
  | none => unclaimed paymentId
  | some claimed => checkStatus d claimed hardCapAt now

def reconcileProcessing (d : ReconciliationDelays) (payment : Payment) (paymentId : Nat) : Tick ReconciliationResult := do
  let now ← clockNow
  let hardCapAt := payment.createdAt + d.hardCap
  if hardCapAt ≤ now then do
    let _ ← flagOr (.manualReview paymentId now)
    pure ⟨.manualReview, none⟩
  else
    claimAndCheck d paymentId hardCapAt now

def reconcileOnce (d : ReconciliationDelays) (paymentId : Nat) : Tick ReconciliationResult := do
  let payment ← paymentOr (.find paymentId)
  match payment with
  | none => pure ⟨.stop, none⟩
  | some payment =>
      if payment.provider ≠ .bcc ∨ payment.status ≠ .processing then pure ⟨.stop, none⟩
      else reconcileProcessing d payment paymentId

end BccReconciliationService

/-! ## BccReconciliationProcessor -/

structure BccReconciliationJobData where
  paymentId : Nat
  tick : Nat
  deriving DecidableEq

/-- What a job returns, and the job that it has enqueued. -/
structure Processed where
  result : ReconciliationResult
  enqueued : Option BccReconciliationJobData
  deriving DecidableEq

namespace BccReconciliationProcessor

/-- `result.outcome === 'reschedule' && result.nextAt`. -/
def furtherTick (job : BccReconciliationJobData) (result : ReconciliationResult) : Option BccReconciliationJobData :=
  if result.outcome = .reschedule ∧ result.nextAt.isSome then some { job with tick := job.tick + 1 } else none

def process (d : ReconciliationDelays) (job : BccReconciliationJobData) : Tick Processed := do
  let result ← BccReconciliationService.reconcileOnce d job.paymentId
  pure ⟨result, furtherTick job result⟩

end BccReconciliationProcessor

/-- Up to `n` requests and jobs at once. -/
abbrev Reconciliations (n : Nat) :=
  Jobs Store Key Write BillingError TickOp TickAnswer Heard Processed BccReconciliationJobData n

abbrev ReconciliationEvent (n : Nat) := JobEvent TickOp Heard BccReconciliationJobData n

abbrev TickCommit := Commit Store Key Write TickOp TickAnswer

def reconcile {n : Nat} (d : ReconciliationDelays) (s : Store) (es : List (ReconciliationEvent n)) :
    Option (Reconciliations n) :=
  (Jobs.init s).exec (TickOp.prog d) (BccReconciliationProcessor.process d) es

end Billing
