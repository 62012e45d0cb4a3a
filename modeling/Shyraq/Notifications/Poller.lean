import Shyraq.Notifications.Adapter
import Shyraq.Notifications.Dispatcher

/-!
# OutboxPollerProcessor

A poll is one transaction; each event of its batch is processed in a savepoint.  What the savepoint writes is written
once it is known to be released: nothing that it writes is read before.  A history row and `dispatched_at` carry the time
of the poll.
-/

namespace Notifications

open Transactions

/-- `OUTBOX_BATCH_SIZE`. -/
def outboxBatchSize : Nat := 50

def OutboxEvent.claimable (now : Int) (event : OutboxEvent) : Bool :=
  event.status == .pending && decide (event.nextRetryAt ≤ now)

namespace OutboxEventRepository

def enqueue (now : Int) (input : EnqueueInput) : Sql Nat := do
  let id ← Prog.uuid
  Prog.insertOr (.enqueue (.create id input.kindergartenId input.eventKey input.payload now)) ⟨"notification_outbox_pkey"⟩
  pure id

/-- The lock, then the row as it is by then. -/
def lockRow (now : Int) (id : Nat) : Sql (Option OutboxEvent) := do
  Prog.acquire (.row id)
  Prog.query fun s => (s.event id).filter (OutboxEvent.claimable now)

/-- Up to `limit` of the candidates. -/
def claimRows (now : Int) : List OutboxEvent → Nat → Sql (List OutboxEvent)
  | [], _ => pure []
  | _, 0 => pure []
  | candidate :: candidates, limit + 1 => do
      let locked ← lockRow now candidate.id
      match locked with
      | some event => do
          let events ← claimRows now candidates limit
          pure (event :: events)
      | none => claimRows now candidates (limit + 1)

/-- `FOR UPDATE SKIP LOCKED`; `skipped` are the rows that are locked by others when their turn comes. -/
def claimBatch (limit : Nat) (now : Int) (skipped : List Nat) : Sql (List OutboxEvent) := do
  let candidates ← Prog.query fun s =>
    (s.outbox.filter (OutboxEvent.claimable now)).insertionSort fun a b => a.nextRetryAt ≤ b.nextRetryAt
  claimRows now (candidates.filter fun event => !skipped.contains event.id) limit

def markDispatched (id : Nat) (now : Int) : Sql Unit := do
  let _ ← Prog.update (.markDispatched id now)
  pure ()

def markFailedWithRetry (id : Nat) (fresh : OutboxEvent) : Sql Unit := do
  let _ ← Prog.update (.markFailedWithRetry id fresh)
  pure ()

end OutboxEventRepository

def createMany (rows : List Notification) : Sql Unit :=
  Prog.forEach (fun row => do
    let _ ← Prog.update (.insertNotification row)
    pure ()) rows

namespace OutboxPollerProcessor

/-- How the savepoint ends. -/
def savepointResult (release : Option String) (delivery : Delivery) : DispatchResult :=
  match delivery.result, release with
  | .failed reason, _ => .failed reason
  | .dispatched, some message => .failed message
  | .dispatched, none => .dispatched

/-- After the savepoint: released, or rolled back and the attempt marked on the outer transaction.  An UPDATE of the
outer transaction that fails rolls all of it back. -/
def settle (now : Int) (event : OutboxEvent) (rows : List Notification) : DispatchResult → Sql Unit
  | .dispatched => do
      createMany rows
      OutboxEventRepository.markDispatched event.id now
  | .failed reason =>
      match event.markFailed now reason with
      | .error _ => pure ()
      | .ok fresh => OutboxEventRepository.markFailedWithRetry event.id fresh

def processOne (now : Int) (faults : List (Nat × Faults)) (event : OutboxEvent) : Sql (Nat × DispatchResult) := do
  let faults := (faults.lookup event.id).getD .none
  let delivery ← dispatch now faults event
  let result := savepointResult faults.release delivery
  settle now event delivery.rows result
  pure (event.id, result)

def process (now : Int) (skipped : List Nat) (faults : List (Nat × Faults)) : Sql (List (Nat × DispatchResult)) := do
  let events ← OutboxEventRepository.claimBatch outboxBatchSize now skipped
  Prog.collect (processOne now faults) events

end OutboxPollerProcessor

/-! ## Requests -/

inductive Op
  | poll (now : Int) (skipped : List Nat) (faults : List (Nat × Faults))
  /-- A business transaction enqueues an event. -/
  | enqueue (now : Int) (input : EnqueueInput)
  /-- Another transaction changes guardians, children, preferences or tokens. -/
  | directory (d : Directory)
  deriving DecidableEq

/-- `polled` says how each event of the batch was processed. -/
inductive Response
  | polled (results : List (Nat × DispatchResult))
  | enqueued (id : Nat)
  | unit
  deriving DecidableEq

/-- The events that a request has processed. -/
def Response.results : Response → List (Nat × DispatchResult)
  | polled results => results
  | _ => []

namespace Op

def answer {A : Type} (f : A → Response) (p : Sql A) : Sql Response := Prog.bind p fun a => .ret (f a)

def prog : Op → Sql Response
  | poll now skipped faults => answer .polled (OutboxPollerProcessor.process now skipped faults)
  | enqueue now input => answer .enqueued (OutboxEventRepository.enqueue now input)
  | directory d => answer (fun _ => .unit) (Prog.update (.directory d))

end Op

abbrev System (n : Nat) := Transactions.System Store Key Write NotificationError Op Response n

abbrev Schedule (n : Nat) := List (Choice Op n)

abbrev NotificationCommit := Commit Store Key Write Op Response

def run {n : Nat} (s : Store) (cs : Schedule n) : Option (System n) := (System.init s).exec Op.prog cs

end Notifications
