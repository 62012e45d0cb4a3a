import Mathlib.Data.List.Sort
import Shyraq.Transactions.Runs
import Shyraq.Transactions.Statements
import Shyraq.Transactions.Table

/-!
# Content posts

The tables `content_posts` and `notification_outbox` of one kindergarten, with the ids of its groups and children.
The columns `created_at` and `updated_at` are left out.
-/

namespace Content

open Transactions

inductive ContentType
  | news | menu | schedulePub | qundylyq | birthday
  deriving DecidableEq, Repr

inductive ContentTargetType
  | all | group | child
  deriving DecidableEq, Repr

inductive ContentStatus
  | draft | scheduled | published
  deriving DecidableEq, Repr

abbrev LocalisedText := List (String × String)

/-- A value of the `metadata` object. -/
inductive MetadataValue
  | text (value : String)
  | number (value : Int)
  | other (json : String)
  deriving DecidableEq

abbrev Metadata := List (String × MetadataValue)

inductive ContentError
  | contentPostNotFound (id : Nat)
  | contentPostStatusInvalid (status : ContentStatus) (action reason : String)
  | contentTargetInvalid (targetType : ContentTargetType) (reason : String)
  | groupNotFound (id : Nat)
  | childNotFound (id : Nat)
  /-- What the driver throws on a violated constraint. -/
  | internal (message : String)
  deriving DecidableEq

/-! ## Posts -/

def validateTargetShape (targetType : ContentTargetType) (targetGroupId targetChildId : Option Nat) :
    Except ContentError Unit :=
  match targetType with
  | .all =>
      if targetGroupId.isSome || targetChildId.isSome then
        .error (.contentTargetInvalid .all "target_ids_must_be_empty")
      else .ok ()
  | .group =>
      if targetGroupId.isNone then .error (.contentTargetInvalid .group "target_group_id_required")
      else if targetChildId.isSome then .error (.contentTargetInvalid .group "target_ids_mutually_exclusive")
      else .ok ()
  | .child =>
      if targetChildId.isNone then .error (.contentTargetInvalid .child "target_child_id_required")
      else if targetGroupId.isSome then .error (.contentTargetInvalid .child "target_ids_mutually_exclusive")
      else .ok ()

structure ContentPost where
  id : Nat
  contentType : ContentType
  targetType : ContentTargetType
  targetGroupId : Option Nat
  targetChildId : Option Nat
  title : Option String
  body : Option String
  titleI18n : Option LocalisedText
  bodyI18n : Option LocalisedText
  mediaUrls : Option (List String)
  metadata : Option Metadata
  scheduledFor : Option Int
  publishedAt : Option Int
  expiresAt : Option Int
  status : ContentStatus
  createdBy : Option Nat
  deriving DecidableEq

instance : Row ContentPost := ⟨ContentPost.id⟩

/-- `none` leaves the field alone. -/
structure UpdateContentInput where
  title : Option (Option String)
  body : Option (Option String)
  titleI18n : Option (Option LocalisedText)
  bodyI18n : Option (Option LocalisedText)
  mediaUrls : Option (Option (List String))
  metadata : Option (Option Metadata)
  expiresAt : Option (Option Int)
  targetType : Option ContentTargetType
  targetGroupId : Option (Option Nat)
  targetChildId : Option (Option Nat)
  scheduledFor : Option (Option Int)
  /-- The payload carries a `contentType` of its own. -/
  contentType : Bool
  deriving DecidableEq

def UpdateContentInput.targetPatched (patch : UpdateContentInput) : Bool :=
  patch.targetType.isSome || patch.targetGroupId.isSome || patch.targetChildId.isSome

namespace ContentPost

variable (post : ContentPost)

def canDelete : Bool := post.status == .draft

def schedule (scheduledFor now : Int) : Except ContentError ContentPost :=
  if post.status = .published then
    .error (.contentPostStatusInvalid post.status "schedule" "content_already_published")
  else if post.status ≠ .draft then
    .error (.contentPostStatusInvalid post.status "schedule" "wrong_source_status")
  else if scheduledFor ≤ now then
    .error (.contentPostStatusInvalid post.status "schedule" "content_scheduled_for_in_past")
  else .ok { post with status := .scheduled, scheduledFor := some scheduledFor }

/-- The new date of a scheduled post; `none` leaves it alone. -/
def rescheduled (patch : Option (Option Int)) (now : Int) : Except ContentError (Option Int) :=
  match patch with
  | none => .ok post.scheduledFor
  | some none => .error (.contentPostStatusInvalid post.status "update" "wrong_source_status")
  | some (some next) =>
      if post.status ≠ .scheduled then
        .error (.contentPostStatusInvalid post.status "update" "wrong_source_status")
      else if next ≤ now then
        .error (.contentPostStatusInvalid post.status "update" "content_scheduled_for_in_past")
      else .ok (some next)

/-- The target that the post would have. -/
def nextTarget (patch : UpdateContentInput) : ContentTargetType × Option Nat × Option Nat :=
  (patch.targetType.getD post.targetType, patch.targetGroupId.getD post.targetGroupId,
    patch.targetChildId.getD post.targetChildId)

def update (patch : UpdateContentInput) (now : Int) : Except ContentError ContentPost := do
  if post.status = .published then
    throw (.contentPostStatusInvalid post.status "update" "content_already_published")
  if patch.contentType then
    throw (.contentPostStatusInvalid post.status "update" "content_type_immutable")
  let target := post.nextTarget patch
  if patch.targetPatched then validateTargetShape target.1 target.2.1 target.2.2
  let scheduledFor ← post.rescheduled patch.scheduledFor now
  pure { post with
    title := patch.title.getD post.title
    body := patch.body.getD post.body
    titleI18n := patch.titleI18n.getD post.titleI18n
    bodyI18n := patch.bodyI18n.getD post.bodyI18n
    mediaUrls := patch.mediaUrls.getD post.mediaUrls
    metadata := patch.metadata.getD post.metadata
    expiresAt := patch.expiresAt.getD post.expiresAt
    targetType := target.1
    targetGroupId := target.2.1
    targetChildId := target.2.2
    scheduledFor := scheduledFor }

/-- `UPDATE`: all columns but the id, the type and the author. -/
def saved (row : ContentPost) : ContentPost :=
  { post with id := row.id, contentType := row.contentType, createdBy := row.createdBy }

end ContentPost

/-- The columns that `transitionStatus` sets beside the status; `none` leaves the column alone. -/
structure TransitionStatusPatch where
  publishedAt : Option Int
  scheduledFor : Option Int
  deriving DecidableEq

def ContentPost.moved (post : ContentPost) (newStatus : ContentStatus) (patch : TransitionStatusPatch) : ContentPost :=
  { post with
    status := newStatus
    publishedAt := patch.publishedAt.orElse fun _ => post.publishedAt
    scheduledFor := patch.scheduledFor.orElse fun _ => post.scheduledFor }

/-! ## Events -/

/-- The outbox rows of a publication. -/
inductive PublicationEvent
  | newsPublished (contentPostId : Nat) (targetType : ContentTargetType) (targetGroupId targetChildId : Option Nat)
      (titleI18n : Option LocalisedText) (publishedAt : Int)
  | qundylyqNew (contentPostId : Nat) (titleI18n : Option LocalisedText) (metadata : Option Metadata)
      (publishedAt : Int)
  | birthday (contentPostId : Nat) (targetChildId : Option Nat) (childFullName : String) (age : Int)
      (publishedAt : Int)
  deriving DecidableEq

def PublicationEvent.contentPostId : PublicationEvent → Nat
  | newsPublished i .. | qundylyqNew i .. | birthday i .. => i

/-- Empty texts count as absent. -/
def pickName (i18n : Option LocalisedText) : String :=
  let texts := i18n.getD []
  (["ru", "kk", "kz", "en"].findSome? fun locale => (texts.lookup locale).filter fun t => t != "").getD ""

namespace ContentPost

variable (post : ContentPost)

def childFullName : String :=
  match (post.metadata.getD []).lookup "child_full_name" with
  | some (.text name) => if name = "" then pickName post.titleI18n else name
  | _ => pickName post.titleI18n

def age : Int :=
  match (post.metadata.getD []).lookup "age" with
  | some (.number age) => age
  | _ => 0

/-- `emitPublishedEvent`; the types `menu` and `schedule_pub` have no event. -/
def publicationEvent (now : Int) : Option PublicationEvent :=
  match post.contentType with
  | .news => some (.newsPublished post.id post.targetType post.targetGroupId post.targetChildId post.titleI18n
      (post.publishedAt.getD now))
  | .qundylyq => some (.qundylyqNew post.id post.titleI18n post.metadata (post.publishedAt.getD now))
  | .birthday => some (.birthday post.id post.targetChildId post.childFullName post.age (post.publishedAt.getD now))
  | .menu | .schedulePub => none

end ContentPost

/-! ## The tables -/

structure Store where
  posts : List ContentPost
  outbox : List PublicationEvent
  groups : List Nat
  children : List Nat

inductive Key
  | row (id : Nat)
  deriving DecidableEq

inductive Write
  | updatePost (post : ContentPost)
  | deletePost (id : Nat)
  /-- Where the status is still the expected one. -/
  | transitionStatus (id : Nat) (expectedStatus newStatus : ContentStatus) (patch : TransitionStatusPatch)
  | enqueue (event : PublicationEvent)

namespace Store

def post (s : Store) (i : Nat) : Option ContentPost := Table.find s.posts i

def keys : Write → List Key
  | .updatePost p => [.row p.id]
  | .deletePost i | .transitionStatus i _ _ _ => [.row i]
  | .enqueue _ => []

def hit (s : Store) : Write → Bool
  | .updatePost p => (s.post p.id).isSome
  | .deletePost i => (s.post i).isSome
  | .transitionStatus i e _ _ => (s.post i).any fun row => row.status == e
  | .enqueue _ => true

def apply (s : Store) : Write → Store
  | .updatePost p => { s with posts := Table.updateWhere s.posts p.id (fun _ => true) p.saved }
  | .deletePost i => { s with posts := s.posts.filter fun row => Row.id row != i }
  | .transitionStatus i e next patch => { s with
      posts := Table.updateWhere s.posts i (fun row => row.status == e) fun row => row.moved next patch }
  | .enqueue event => { s with outbox := s.outbox ++ [event] }

end Store

instance : Relational Store Key Write where
  keys := Store.keys
  hit := Store.hit
  apply := Store.apply
  rowKey := Key.row
  absent s i := (s.post i).isNone

end Content
