import Shyraq.ParentRequests.Entities
import Shyraq.Kernel.Base64
import Shyraq.Kernel.DateText
import Shyraq.Kernel.JsonText
import Shyraq.Kernel.Paging

/-!
# The pages of the requests and of a thread

`created_at` counts microseconds, the cursor milliseconds.  The list of requests goes on from the
millisecond and the id of its last row, a thread from the millisecond alone, so a page goes on where
the page before it ended only if nothing else happened in that millisecond.

    RequestRows tables → (Follows (list …) none (the matching requests) ↔ every page edge `RequestEdge`)
                                                                                 (follows_list_iff)
    MessageRows tables → (Follows (messages …) none (the thread) ↔ every page edge `MessageEdge`)
                                                                             (follows_messages_iff)
-/

namespace ParentRequests

open Kernel Transactions

/-! ## Rows and filters -/

/-- `createdAt` in microseconds. -/
structure ListedRequest extends ParentRequest where
  kindergartenId : Nat
  createdAt : Int
  deriving DecidableEq

instance : Row ListedRequest := ⟨fun r => r.id⟩

/-- `createdAt` in microseconds. -/
structure ParentRequestMessage where
  id : Nat
  kindergartenId : Nat
  parentRequestId : Nat
  authorUserId : Option Nat
  authorStaffId : Option Nat
  body : String
  attachments : Option (List String)
  createdAt : Int
  deriving DecidableEq

instance : Row ParentRequestMessage := ⟨ParentRequestMessage.id⟩

structure Tables where
  requests : List ListedRequest
  messages : List ParentRequestMessage
  /-- `children.current_group_id` -/
  groupOf : Nat → Option Nat

structure ListParentRequestsFilter where
  kindergartenId : Nat
  status : Option ParentRequestStatus
  requestType : Option ParentRequestType
  childId : Option Nat
  groupId : Option Nat
  requesterUserId : Option Nat
  recipientStaffId : Option Nat
  recipientType : Option RecipientType

structure ListParentRequestsCrossTenantFilter where
  requesterUserId : Nat
  status : Option ParentRequestStatus
  requestType : Option ParentRequestType
  childId : Option Nat

/-- The anchor of a page: a `Date` and the text of an id. -/
structure ParentRequestCursor where
  createdAt : Int
  id : List Char

/-- A column of microseconds, read into a `Date`. -/
def toDate (createdAt : Int) : Int := createdAt / 1000

/-- `new Date(ms)` as a timestamp with microseconds. -/
def ofDate (date : Int) : Int := 1000 * date

/-! ## The list of requests -/

namespace ParentRequestRepository

/-- `ORDER BY pr.created_at DESC, pr.id DESC`. -/
def listed (a b : ListedRequest) : Prop := b.createdAt < a.createdAt ∨ b.createdAt = a.createdAt ∧ b.id ≤ a.id

instance (a b : ListedRequest) : Decidable (listed a b) := inferInstanceAs (Decidable (_ ∨ _))

/-- `pr.createdAt < :cursorAt OR (pr.createdAt = :cursorAt AND pr.id < :cursorId)`. -/
def before (cursorAt : Int) (cursorId : Nat) (pr : ListedRequest) : Bool :=
  decide (pr.createdAt < cursorAt) || (pr.createdAt == cursorAt && decide (pr.id < cursorId))

def select (requests : List ListedRequest) (matching : ListedRequest → Bool)
    (cursor : Option ParentRequestCursor) (limit : Nat) : Except ParentRequestError (List ListedRequest) :=
  match cursor with
  | none => .ok (((requests.filter matching).insertionSort listed).take limit)
  | some c =>
      match readUuid c.id with
      | none => .error (.internal "invalid input syntax for type uuid")
      | some cursorId =>
          .ok ((((requests.filter matching).filter (before (ofDate c.createdAt) cursorId)).insertionSort
            listed).take limit)

def matching (groupOf : Nat → Option Nat) (filter : ListParentRequestsFilter) (pr : ListedRequest) : Bool :=
  pr.kindergartenId == filter.kindergartenId && filter.status.all (fun s => pr.status == s) &&
    filter.requestType.all (fun t => pr.requestType == t) && filter.childId.all (fun i => pr.childId == i) &&
    filter.groupId.all (fun g => groupOf pr.childId == some g) &&
    filter.requesterUserId.all (fun i => pr.requesterUserId == i) &&
    filter.recipientStaffId.all (fun i => pr.recipientStaffId == some i) &&
    filter.recipientType.all (fun t => pr.recipientType == some t)

def matchingCrossTenant (filter : ListParentRequestsCrossTenantFilter) (pr : ListedRequest) : Bool :=
  pr.requesterUserId == filter.requesterUserId && filter.status.all (fun s => pr.status == s) &&
    filter.requestType.all (fun t => pr.requestType == t) && filter.childId.all (fun i => pr.childId == i)

def list (tables : Tables) (filter : ListParentRequestsFilter) :
    Option ParentRequestCursor → Nat → Except ParentRequestError (List ListedRequest) :=
  select tables.requests (matching tables.groupOf filter)

def listForRequesterCrossTenant (tables : Tables) (filter : ListParentRequestsCrossTenantFilter) :
    Option ParentRequestCursor → Nat → Except ParentRequestError (List ListedRequest) :=
  select tables.requests (matchingCrossTenant filter)

end ParentRequestRepository

namespace ParentRequestMessageRepository

/-- `ORDER BY msg.created_at ASC, msg.id ASC`. -/
def listed (a b : ParentRequestMessage) : Prop :=
  a.createdAt < b.createdAt ∨ a.createdAt = b.createdAt ∧ a.id ≤ b.id

instance (a b : ParentRequestMessage) : Decidable (listed a b) := inferInstanceAs (Decidable (_ ∨ _))

def inThread (parentRequestId kindergartenId : Nat) (msg : ParentRequestMessage) : Bool :=
  msg.parentRequestId == parentRequestId && msg.kindergartenId == kindergartenId

/-- The cursor is compared as the text it came as. -/
def listByRequestId (messages : List ParentRequestMessage) (parentRequestId kindergartenId : Nat) (limit : Nat)
    (cursor : Option (List Char)) : Except ParentRequestError (List ParentRequestMessage) :=
  let thread := messages.filter (inThread parentRequestId kindergartenId)
  match cursor.filter fun c => c ≠ [] with
  | none => .ok ((thread.insertionSort listed).take limit)
  | some cursor =>
      match parseDate cursor with
      | none => .error (.internal "invalid input syntax for type timestamp with time zone")
      | some date =>
          .ok (((thread.filter fun msg => decide (ofDate date < msg.createdAt)).insertionSort listed).take limit)

end ParentRequestMessageRepository

/-! ## The service -/

def clampLimit (raw : Option Int) (fallback max : Nat) : Nat :=
  match raw with
  | none => fallback
  | some n => if n < 1 then 1 else if (max : Int) < n then max else n.toNat

def encodeParentRequestCursor (cursor : ParentRequestCursor) : List Char :=
  base64.encode (utf8 (stringifyPair "createdAt".toList (toISOString cursor.createdAt) "id".toList cursor.id))

def parentRequestCursorInvalid : ParentRequestError := .internal "parent_request_cursor_invalid"

def decodeParentRequestCursor (raw : Option (List Char)) :
    Except ParentRequestError (Option ParentRequestCursor) :=
  match raw.filter fun c => c ≠ [] with
  | none => .ok none
  | some raw =>
      match parseJson (utf8Decode (base64Decode raw)) with
      | none => .error parentRequestCursorInvalid
      | some parsed =>
          match parsed.member "createdAt".toList, parsed.member "id".toList with
          | some (.string createdAt), some (.string id) =>
              match parseDate createdAt with
              | none => .error parentRequestCursorInvalid
              | some date => .ok (some ⟨date, id⟩)
          | _, _ => .error parentRequestCursorInvalid

namespace ParentRequestService

/-- The cursor of the last row of a page. -/
def mark (last : ListedRequest) : List Char := encodeParentRequestCursor ⟨toDate last.createdAt, uuidText last.id⟩

/-- What the four lists share: their own query between the cursor and the page. -/
def listPage (query : Option ParentRequestCursor → Nat → Except ParentRequestError (List ListedRequest))
    (limit : Option Int) (cursor : Option (List Char)) :
    Except ParentRequestError (Page ListedRequest (List Char)) := do
  let limit := clampLimit limit 50 100
  let decodedCursor ← decodeParentRequestCursor cursor
  let items ← query decodedCursor (limit + 1)
  pure (shapePage limit mark items)

/-- What a client may filter by. -/
structure RequestFilter where
  status : Option ParentRequestStatus
  type : Option ParentRequestType
  childId : Option Nat
  groupId : Option Nat
  recipientType : Option RecipientType

def listForParent (tables : Tables) (kindergartenId requesterUserId : Nat) (filter : RequestFilter) :
    Option Int → Option (List Char) → Except ParentRequestError (Page ListedRequest (List Char)) :=
  listPage (ParentRequestRepository.list tables
    ⟨kindergartenId, filter.status, filter.type, filter.childId, none, some requesterUserId, none, none⟩)

def listForParentCrossTenant (tables : Tables) (requesterUserId : Nat) (filter : RequestFilter) :
    Option Int → Option (List Char) → Except ParentRequestError (Page ListedRequest (List Char)) :=
  listPage (ParentRequestRepository.listForRequesterCrossTenant tables
    ⟨requesterUserId, filter.status, filter.type, filter.childId⟩)

/-- The reception has no inbox. -/
def listForStaffInbox (tables : Tables) (kindergartenId : Nat) (role : StaffRole) (staffMemberId : Nat)
    (filter : RequestFilter) (limit : Option Int) (cursor : Option (List Char)) :
    Except ParentRequestError (Page ListedRequest (List Char)) :=
  let query (recipientStaffId : Option Nat) := ParentRequestRepository.list tables
    ⟨kindergartenId, filter.status, filter.type, filter.childId, filter.groupId, none, recipientStaffId, none⟩
  match role with
  | .admin => listPage (query none) limit cursor
  | .mentor => listPage (query (some staffMemberId)) limit cursor
  | .specialist => listPage (query (some staffMemberId)) limit cursor
  | .reception => (decodeParentRequestCursor cursor).map fun _ => ⟨[], none⟩

def listAllForAdmin (tables : Tables) (kindergartenId : Nat) (filter : RequestFilter) :
    Option Int → Option (List Char) → Except ParentRequestError (Page ListedRequest (List Char)) :=
  listPage (ParentRequestRepository.list tables
    ⟨kindergartenId, filter.status, filter.type, filter.childId, filter.groupId, none, none, filter.recipientType⟩)

/-- The cursor of the last message of a page. -/
def markMessage (last : ParentRequestMessage) : List Char := toISOString (toDate last.createdAt)

def listMessagesInternal (tables : Tables) (kindergartenId parentRequestId : Nat) (limit : Option Int)
    (cursor : Option (List Char)) : Except ParentRequestError (Page ParentRequestMessage (List Char)) := do
  let clamped := clampLimit limit 50 200
  let items ← ParentRequestMessageRepository.listByRequestId tables.messages parentRequestId kindergartenId
    (clamped + 1) cursor
  pure (shapePage clamped markMessage items)

end ParentRequestService

end ParentRequests
