import Shyraq.Billing.PaymentService

/-!
# KaspiPaymentStatusPollerService and its queue

A Kaspi payment is followed by a chain of delayed jobs: each tick asks Kaspi once, and settles the payment or adds the next
tick.  The first job is added by `initiate`, in the middle of its transaction.
-/

namespace Polling

open Billing Transactions

/-! ## What a tick decides -/

inductive ParsedRemoteDetailsKind
  | processed | pending | terminal | sessionExpired
  deriving DecidableEq

structure ParsedRemoteDetails where
  kind : ParsedRemoteDetailsKind
  rawStatus : Option String
  expireDate : Option Int
  deriving DecidableEq

inductive KaspiPollOutcome
  | settled | failed | reschedule | stop
  deriving DecidableEq

structure KaspiPollResult where
  outcome : KaspiPollOutcome
  paymentCreatedAt : Option Int
  expireDate : Option Int
  deriving DecidableEq

/-- What a tick awaits. -/
inductive Tick
  /-- `findByIdCrossTenant`. -/
  | load
  /-- `getPaymentStatus`. -/
  | fetch (payment : Payment) (providerTxnId : Nat) (now : Int)
  /-- `refreshSession`. -/
  | refresh (payment : Payment) (providerTxnId : Nat) (now : Int) (details : ParsedRemoteDetails)
  /-- `notifySessionExpired`. -/
  | notify (payment : Payment) (providerTxnId : Nat) (now : Int) (details : ParsedRemoteDetails)
  /-- `settleFromKaspiPoller`. -/
  | settle (terminal : VerifyWebhookResult) (result : KaspiPollResult)
  /-- The `add` of the next job. -/
  | reschedule (result : KaspiPollResult)
  deriving DecidableEq

/-- `pollOnce` up to its next `await`. -/
inductive Poll
  | goOn (tick : Tick)
  | done (result : KaspiPollResult)

/-- Milliseconds, from the environment. -/
structure Cadence where
  aggressiveInterval : Int
  backoffInterval : Int
  tailInterval : Int
  aggressiveWindow : Int
  backoffWindow : Int
  hardCap : Int

def defaultCadence : Cadence := ⟨5000, 20000, 60000, 2 * 60000, 10 * 60000, 23 * 60 * 60000⟩

def completedTerminal (providerPaymentId : Nat) : VerifyWebhookResult := ⟨providerPaymentId, .completed, none⟩

def failedTerminal (providerPaymentId : Nat) (failureReason : String) : VerifyWebhookResult :=
  ⟨providerPaymentId, .failed, some failureReason⟩

namespace PollOnce

def loaded (cadence : Cadence) (now : Int) : Option Payment → Poll
  | none => .done ⟨.stop, none, none⟩
  | some payment =>
      if payment.provider ≠ .kaspiPay ∨ payment.status.inFlight = false then .done ⟨.stop, some payment.createdAt, none⟩
      else
        match payment.providerTxnId with
        | none => .done ⟨.reschedule, some payment.createdAt, none⟩
        | some txn =>
            if now - payment.createdAt ≥ cadence.hardCap then
              .goOn (.settle (failedTerminal txn "kaspi_expired_hard_cap") ⟨.failed, some payment.createdAt, none⟩)
            else .goOn (.fetch payment txn now)

/-- A dead operation is failed, a live one is asked again. -/
def unlessExpired (payment : Payment) (txn : Nat) (now : Int) (details : ParsedRemoteDetails) : Poll :=
  if details.expireDate.any fun expireDate => decide (expireDate ≤ now) then
    .goOn (.settle (failedTerminal txn "kaspi_expired") ⟨.failed, some payment.createdAt, details.expireDate⟩)
  else .done ⟨.reschedule, some payment.createdAt, details.expireDate⟩

/-- `none` where `getPaymentStatus` throws. -/
def fetched (payment : Payment) (txn : Nat) (now : Int) : Option ParsedRemoteDetails → Poll
  | none => .done ⟨.reschedule, some payment.createdAt, none⟩
  | some details =>
      match details.kind with
      | .processed => .goOn (.settle (completedTerminal txn) ⟨.settled, some payment.createdAt, details.expireDate⟩)
      | .terminal =>
          .goOn (.settle (failedTerminal txn ("kaspi_" ++ details.rawStatus.getD "terminal"))
            ⟨.failed, some payment.createdAt, details.expireDate⟩)
      | .sessionExpired => .goOn (.refresh payment txn now details)
      | .pending => unlessExpired payment txn now details

end PollOnce

def nextDelayMs (cadence : Cadence) (createdAt now : Int) : Int :=
  let age := now - createdAt
  if age < cadence.aggressiveWindow then cadence.aggressiveInterval
  else if age < cadence.backoffWindow then cadence.backoffInterval
  else cadence.tailInterval

/-! ## The queue -/

/-- `kaspi-poll-<paymentId>-<tick>`. -/
structure JobId where
  paymentId : Nat
  tick : Nat
  deriving DecidableEq

inductive JobState
  | delayed (until_ : Int)
  | active (tick : Tick)
  | completed
  /-- With one attempt it stays so. -/
  | failed
  deriving DecidableEq

/-- Queued or running. -/
def JobState.pending : JobState → Bool
  | .delayed _ | .active _ => true
  | .completed | .failed => false

structure Job where
  id : JobId
  state : JobState
  deriving DecidableEq

/-- A row of `payments`, which the others see once its `initiate` has committed. -/
structure PaymentRow where
  payment : Payment
  visible : Bool
  deriving DecidableEq

instance : Row PaymentRow := ⟨fun row => row.payment.id⟩

structure State where
  now : Int
  rows : List PaymentRow
  /-- The payments whose first job has been added. -/
  enqueued : List Nat
  jobs : List Job

inductive Event
  | elapse (ms : Nat)
  /-- `initiate` has its row as it will be committed. -/
  | initiate (payment : Payment)
  | enqueue (paymentId : Nat)
  | commit (paymentId : Nat)
  | rollback (paymentId : Nat)
  /-- Another transaction changes the status. -/
  | patch (paymentId : Nat) (patch : PaymentPatch)
  /-- A worker takes a job that is due. -/
  | take (job : JobId)
  | load (job : JobId)
  | fetch (job : JobId) (answer : Option ParsedRemoteDetails)
  | refresh (job : JobId) (succeeds : Bool)
  | notify (job : JobId) (succeeds : Bool)
  /-- The transaction commits, or throws. -/
  | settle (job : JobId) (commits : Bool)
  | reschedule (job : JobId)
  /-- `removeOnComplete` and `removeOnFail`. -/
  | forget (job : JobId)
  deriving DecidableEq

namespace State

variable (cadence : Cadence) (σ : State)

def row (paymentId : Nat) : Option PaymentRow := Table.find σ.rows paymentId

/-- `findByIdCrossTenant`. -/
def payment (paymentId : Nat) : Option Payment := ((σ.row paymentId).filter PaymentRow.visible).map PaymentRow.payment

def job (id : JobId) : Option JobState := (σ.jobs.find? fun job => job.id == id).map Job.state

def setJob (id : JobId) (state : JobState) : State :=
  { σ with jobs := σ.jobs.map fun job => if job.id = id then { job with state := state } else job }

/-- `queue.add`: an id that is there already is refused. -/
def add (id : JobId) (delay : Int) : State :=
  if (σ.job id).isSome then σ else { σ with jobs := σ.jobs ++ [⟨id, .delayed (σ.now + delay)⟩] }

/-- `process`, after `pollOnce` has gone on. -/
def proceed (id : JobId) : Poll → State
  | .goOn tick => σ.setJob id (.active tick)
  | .done result =>
      if result.outcome = .reschedule then σ.setJob id (.active (.reschedule result)) else σ.setJob id .completed

def publish (row : PaymentRow) : PaymentRow := { row with visible := true }

def patchRow (patch : PaymentPatch) (row : PaymentRow) : PaymentRow := { row with payment := patch.set row.payment }

def patched (paymentId : Nat) (patch : PaymentPatch) : State :=
  { σ with
    rows := Table.updateWhere σ.rows paymentId (fun row => row.visible && patch.accepts row.payment) (patchRow patch) }

/-- `markFailedConditional` or `markCompletedConditional`. -/
def settlementPatch (terminal : VerifyWebhookResult) : PaymentPatch :=
  if terminal.status = .failed then .failed else .completed terminal.providerPaymentId σ.now

/-- The transaction of `settleFromKaspiPoller`; without its row it throws. -/
def settleFromKaspiPoller (id : JobId) (terminal : VerifyWebhookResult) (result : KaspiPollResult) : State :=
  match σ.payment id.paymentId with
  | none => σ.setJob id .failed
  | some _ => (σ.patched id.paymentId (σ.settlementPatch terminal)).proceed id (.done result)

/-- The next tick is added, and this one is over. -/
def reschedule (id : JobId) (result : KaspiPollResult) : State :=
  (σ.add ⟨id.paymentId, id.tick + 1⟩ (nextDelayMs cadence (result.paymentCreatedAt.getD σ.now) σ.now)).setJob id .completed

def stepJob (id : JobId) : JobState → Event → Option State
  | .delayed due, .take _ => if due ≤ σ.now then some (σ.setJob id (.active .load)) else none
  | .active .load, .load _ => some (σ.proceed id (PollOnce.loaded cadence σ.now (σ.payment id.paymentId)))
  | .active (.fetch payment txn now), .fetch _ answer => some (σ.proceed id (PollOnce.fetched payment txn now answer))
  | .active (.refresh payment txn now details), .refresh _ succeeds =>
      some (σ.proceed id (if succeeds then PollOnce.unlessExpired payment txn now details
        else .goOn (.notify payment txn now details)))
  | .active (.notify payment txn now details), .notify _ succeeds =>
      some (if succeeds then σ.proceed id (PollOnce.unlessExpired payment txn now details) else σ.setJob id .failed)
  | .active (.settle terminal result), .settle _ commits =>
      some (if commits then σ.settleFromKaspiPoller id terminal result else σ.setJob id .failed)
  | .active (.reschedule result), .reschedule _ => some (σ.reschedule cadence id result)
  | .completed, .forget _ | .failed, .forget _ =>
      some { σ with jobs := σ.jobs.filter fun job => decide (job.id ≠ id) }
  | _, _ => none

/-- `none` where the event cannot happen. -/
def step (e : Event) : Option State :=
  match e with
  | .elapse ms => some { σ with now := σ.now + ms }
  | .initiate payment =>
      if (σ.row payment.id).isNone && !σ.enqueued.contains payment.id then
        some { σ with rows := σ.rows ++ [⟨payment, false⟩] }
      else none
  | .enqueue paymentId =>
      if (σ.row paymentId).any (fun row => !row.visible && row.payment.provider == .kaspiPay) &&
          !σ.enqueued.contains paymentId then
        some { (σ.add ⟨paymentId, 0⟩ cadence.aggressiveInterval) with enqueued := paymentId :: σ.enqueued }
      else none
  | .commit paymentId => some { σ with rows := Table.updateWhere σ.rows paymentId (fun _ => true) publish }
  | .rollback paymentId =>
      some { σ with rows := σ.rows.filter fun row => decide (row.payment.id ≠ paymentId ∨ row.visible = true) }
  | .patch paymentId patch => some (σ.patched paymentId patch)
  | .take id | .load id | .fetch id _ | .refresh id _ | .notify id _ | .settle id _ | .reschedule id | .forget id =>
      (σ.job id).bind fun state => σ.stepJob cadence id state e

def run : State → List Event → Option State
  | σ, [] => some σ
  | σ, e :: events => (σ.step cadence e).bind fun σ' => run σ' events

def boot (now : Int) : State := ⟨now, [], [], []⟩

end State

end Polling
