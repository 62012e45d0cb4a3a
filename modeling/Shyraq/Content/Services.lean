import Shyraq.Content.Entities

/-!
# ContentService and the publish cron

Each request is one transaction; the cron is one transaction for the kindergarten.  The creation of posts, the
stored media and the read endpoints are left out.
-/

namespace Content

open Transactions

abbrev Sql (A : Type) := Prog Store Key Write ContentError A

/-! ## Repositories -/

namespace ContentRepository

def findById (id : Nat) : Sql (Option ContentPost) := Prog.query fun s => s.post id

/-- The status is written back with the rest of the row. -/
def update (post : ContentPost) : Sql ContentPost := do
  let _ ← Prog.update (.updatePost post)
  pure post

def delete (id : Nat) : Sql Bool := Prog.update (.deletePost id)

def transitionStatus (id : Nat) (expectedStatus newStatus : ContentStatus) (patch : TransitionStatusPatch) :
    Sql (Option ContentPost) :=
  Prog.returning (.transitionStatus id expectedStatus newStatus patch) fun s => s.post id

def dueBefore (a b : ContentPost) : Prop :=
  a.scheduledFor.getD 0 < b.scheduledFor.getD 0 ∨ a.scheduledFor.getD 0 = b.scheduledFor.getD 0 ∧ a.id ≤ b.id

instance (a b : ContentPost) : Decidable (dueBefore a b) := inferInstanceAs (Decidable (_ ∨ _ ∧ _))

def isScheduledDue (now : Int) (p : ContentPost) : Bool :=
  p.status == .scheduled && p.scheduledFor.any fun t => decide (t ≤ now)

def listScheduledDue (now : Int) (limit : Nat) : Sql (List ContentPost) :=
  Prog.query fun s => ((s.posts.filter (isScheduledDue now)).insertionSort dueBefore).take limit

end ContentRepository

/-! ## The service -/

/-- `emitPublishedEvent`. -/
def emitPublishedEvent (post : ContentPost) (now : Int) : Sql Unit :=
  match post.publicationEvent now with
  | none => pure ()
  | some event => do
      let _ ← Prog.update (.enqueue event)
      pure ()

namespace ContentService

def assertTargetBelongsToKg (target : ContentTargetType × Option Nat × Option Nat) : Sql Unit :=
  match target with
  | (.group, some groupId, _) => do
      let known ← Prog.query fun s => s.groups.contains groupId
      Prog.guardOr known (.groupNotFound groupId)
  | (.child, _, some childId) => do
      let known ← Prog.query fun s => s.children.contains childId
      Prog.guardOr known (.childNotFound childId)
  | _ => pure ()

def assertPatchedTarget (post : ContentPost) (patch : UpdateContentInput) : Sql Unit :=
  if patch.targetPatched then assertTargetBelongsToKg (post.nextTarget patch) else pure ()

def requirePost (id : Nat) : Sql ContentPost := do
  let post ← ContentRepository.findById id
  Prog.require post (.contentPostNotFound id)

def update (now : Int) (id : Nat) (patch : UpdateContentInput) : Sql ContentPost := do
  let post ← requirePost id
  assertPatchedTarget post patch
  let next ← Prog.ofExcept (post.update patch now)
  ContentRepository.update next

def delete (id : Nat) : Sql Unit := do
  let post ← requirePost id
  Prog.guardOr post.canDelete (.contentPostStatusInvalid post.status "delete" "content_cannot_delete_published")
  let deleted ← ContentRepository.delete id
  Prog.guardOr deleted (.contentPostNotFound id)

def schedule (now : Int) (id : Nat) (scheduledFor : Int) : Sql ContentPost := do
  let post ← requirePost id
  let _ ← Prog.ofExcept (post.schedule scheduledFor now)
  let updated ← ContentRepository.transitionStatus id post.status .scheduled ⟨none, some scheduledFor⟩
  Prog.require updated (.contentPostStatusInvalid post.status "schedule" "wrong_source_status")

def publish (now : Int) (id : Nat) : Sql ContentPost := do
  let post ← requirePost id
  Prog.guardOr (post.status != .published)
    (.contentPostStatusInvalid post.status "publish" "content_already_published")
  let updated ← ContentRepository.transitionStatus id post.status .published ⟨some now, none⟩
  let updated ← Prog.require updated (.contentPostStatusInvalid post.status "publish" "wrong_source_status")
  emitPublishedEvent updated now
  pure updated

end ContentService

/-! ## The cron -/

namespace ContentPublishProcessor

/-- `BATCH_SIZE`. -/
def batchSize : Nat := 100

/-- One post in its savepoint.  Where the event cannot be enqueued (`failing`) the savepoint takes the flip back, and
nothing is left. -/
def publishOne (now : Int) (failing : List Nat) (post : ContentPost) : Sql Unit :=
  if failing.contains post.id then pure ()
  else do
    let updated ← ContentRepository.transitionStatus post.id .scheduled .published ⟨some now, none⟩
    match updated with
    | none => pure ()
    | some u => emitPublishedEvent u now

def runForKindergarten (now : Int) (failing : List Nat) : Sql Unit := do
  let scheduled ← ContentRepository.listScheduledDue now batchSize
  Prog.forEach (publishOne now failing) scheduled

end ContentPublishProcessor

/-! ## Requests -/

inductive Op
  | update (now : Int) (id : Nat) (patch : UpdateContentInput)
  | delete (id : Nat)
  | schedule (now : Int) (id : Nat) (scheduledFor : Int)
  | publish (now : Int) (id : Nat)
  /-- One tick of the cron; the events of the posts in `failing` cannot be enqueued. -/
  | cron (now : Int) (failing : List Nat)
  deriving DecidableEq

inductive Response
  | post (p : ContentPost)
  | unit
  deriving DecidableEq

namespace Op

def answer {A : Type} (f : A → Response) (p : Sql A) : Sql Response := Prog.bind p fun a => .ret (f a)

def prog : Op → Sql Response
  | update now i patch => answer .post (ContentService.update now i patch)
  | delete i => answer (fun _ => .unit) (ContentService.delete i)
  | schedule now i scheduledFor => answer .post (ContentService.schedule now i scheduledFor)
  | publish now i => answer .post (ContentService.publish now i)
  | cron now failing => answer (fun _ => .unit) (ContentPublishProcessor.runForKindergarten now failing)

end Op

abbrev System (n : Nat) := Transactions.System Store Key Write ContentError Op Response n

abbrev Schedule (n : Nat) := List (Choice Op n)

abbrev ContentCommit := Commit Store Key Write Op Response

def run {n : Nat} (s : Store) (cs : Schedule n) : Option (System n) := (System.init s).exec Op.prog cs

end Content
