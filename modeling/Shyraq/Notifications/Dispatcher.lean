import Shyraq.Notifications.Entities
import Shyraq.Transactions.Answers

/-!
# NotificationDispatcher

From an outbox event to the rows and the pushes.  Rendered texts, their look-ups and the WebSocket rooms are left out.
Push tokens are read and deleted on a connection of their own; a deleted token is a change of the directory.
-/

namespace Notifications

open Transactions

abbrev Sql (A : Type) := Prog Store Key Write NotificationError A

/-! ## Guardians -/

namespace ChildGuardianRepository

def findByChildId (kindergartenId childId : Uuid) : Sql (List ChildGuardian) :=
  Prog.query fun s => s.directory.guardians.filter fun g => g.kindergartenId == kindergartenId && g.childId == childId

def findApprovedActiveByUserAndChild (kindergartenId childId userId : Uuid) : Sql (Option ChildGuardian) :=
  Prog.query fun s => s.directory.guardians.find? fun g =>
    g.kindergartenId == kindergartenId && g.childId == childId && g.userId == userId && g.approvedActive

def findApprovedUserIdsBySomeChildIds (kindergartenId : Uuid) (childIds : List Uuid) : Sql (List Uuid) :=
  if childIds.isEmpty then pure []
  else Prog.query fun s => ((s.directory.guardians.filter fun g =>
    g.kindergartenId == kindergartenId && childIds.contains g.childId && g.approvedActive && g.role != .nanny).map
      ChildGuardian.userId).dedup

/-- `JOIN children`, without the archived ones. -/
def joined (d : Directory) (g : ChildGuardian) (p : Child → Bool) : Bool :=
  d.children.any fun c => c.id == g.childId && c.kindergartenId == g.kindergartenId && c.status != .archived && p c

def findApprovedUserIdsByGroup (kindergartenId groupId : Uuid) : Sql (List Uuid) :=
  Prog.query fun s => ((s.directory.guardians.filter fun g =>
    g.kindergartenId == kindergartenId && joined s.directory g (fun c => c.currentGroupId == some groupId) &&
      g.approvedActive && g.role != .nanny).map ChildGuardian.userId).dedup

def findApprovedUserIdsByKindergarten (kindergartenId : Uuid) : Sql (List Uuid) :=
  Prog.query fun s => ((s.directory.guardians.filter fun g =>
    g.kindergartenId == kindergartenId && joined s.directory g (fun _ => true) && g.approvedActive &&
      g.role != .nanny).map ChildGuardian.userId).dedup

end ChildGuardianRepository

/-! ## Recipients -/

structure ResolvedRecipients where
  userIds : List Uuid
  nannyUserIds : List Uuid
  deriving DecidableEq

abbrev RecipientResolver := OutboxEvent → Sql ResolvedRecipients

def noRecipients : ResolvedRecipients := ⟨[], []⟩

/-- One round of the loop over the guardians of a child. -/
def approvedRound (r : ResolvedRecipients) (g : ChildGuardian) : ResolvedRecipients :=
  if g.approvedActive then
    { userIds := if r.userIds.contains g.userId then r.userIds else r.userIds ++ [g.userId]
      nannyUserIds := if g.role = .nanny then r.nannyUserIds ++ [g.userId] else r.nannyUserIds }
  else r

def approvedRecipients (guardians : List ChildGuardian) : ResolvedRecipients :=
  guardians.foldl approvedRound noRecipients

/-- The guardians of the child that the payload names in `field`. -/
def resolveGuardiansOf (field : String) : RecipientResolver := fun event => do
  let childId ← Prog.ofExcept (stringField event.payload field)
  let guardians ← ChildGuardianRepository.findByChildId event.kindergartenId childId
  pure (approvedRecipients guardians)

def resolveByChildGuardians : RecipientResolver := resolveGuardiansOf "childId"

/-- The requester, if the link is still there; a nanny is marked if `marksNanny`. -/
def requesterOf (link : Option ChildGuardian) (requesterId : Uuid) (marksNanny : Bool) : ResolvedRecipients :=
  match link with
  | none => noRecipients
  | some g => ⟨[requesterId], if marksNanny && g.role == .nanny then [requesterId] else []⟩

def resolveRequester (marksNanny : Bool) : RecipientResolver := fun event => do
  let requesterId ← Prog.ofExcept (stringField event.payload "requesterUserId")
  let childId ← Prog.ofExcept (stringField event.payload "childId")
  let link ← ChildGuardianRepository.findApprovedActiveByUserAndChild event.kindergartenId childId requesterId
  pure (requesterOf link requesterId marksNanny)

/-- The requester joins the guardians of the child, if he is not one of them but has a link. -/
def withRequester (event : OutboxEvent) (guardiansResult : ResolvedRecipients) (requesterId : Uuid) :
    Sql ResolvedRecipients :=
  if guardiansResult.userIds.contains requesterId then pure guardiansResult
  else do
    let childId ← Prog.ofExcept (stringField event.payload "childId")
    let link ← ChildGuardianRepository.findApprovedActiveByUserAndChild event.kindergartenId childId requesterId
    pure (if link.isSome then { guardiansResult with userIds := guardiansResult.userIds ++ [requesterId] }
      else guardiansResult)

def resolvePickupValidatedRecipients : RecipientResolver := fun event => do
  let guardiansResult ← resolveByChildGuardians event
  let requesterId ← Prog.ofExcept (stringField event.payload "requesterUserId")
  withRequester event guardiansResult requesterId

def resolvePickupOtpSentRecipients : RecipientResolver := resolveRequester false

def resolveSelfFromField (fieldName : String) : RecipientResolver := fun event => do
  let userId ← Prog.ofExcept (stringField event.payload fieldName)
  pure ⟨[userId], []⟩

/-- `Array.from(new Set(ids))`. -/
def distinct (ids : List Uuid) : List Uuid := ids.reverse.dedup.reverse

def resolveRecipientUserIdsFromPayload : RecipientResolver := fun event =>
  pure ⟨distinct (stringsField event.payload "recipientUserIds"), []⟩

def resolveParentRequestRequesterRecipients : RecipientResolver := resolveRequester true

def resolveParentRequestCancelledRecipients : RecipientResolver := fun event =>
  pure ⟨(asNonEmptyString (event.payload.lookup "recipientStaffUserId")).toList, []⟩

def resolveParentRequestMessageRecipients : RecipientResolver := fun event => do
  let authorRole ← Prog.ofExcept (stringField event.payload "authorRole")
  if authorRole = "parent" then resolveParentRequestCancelledRecipients event
  else resolveRequester true event

def resolveDiscountActivatedRecipients : RecipientResolver := fun event => do
  let userIds ← ChildGuardianRepository.findApprovedUserIdsBySomeChildIds event.kindergartenId
    (stringsField event.payload "targetChildIds")
  pure ⟨userIds, []⟩

def resolveContentBirthdayRecipients : RecipientResolver := resolveGuardiansOf "targetChildId"

def resolveContentQundylyqRecipients : RecipientResolver := fun event => do
  let userIds ← ChildGuardianRepository.findApprovedUserIdsByKindergarten event.kindergartenId
  pure ⟨userIds, []⟩

/-- The guardians of the group that the payload names in `field`. -/
def resolveGroup (field : String) : RecipientResolver := fun event => do
  let groupId ← Prog.ofExcept (stringField event.payload field)
  let userIds ← ChildGuardianRepository.findApprovedUserIdsByGroup event.kindergartenId groupId
  pure ⟨userIds, []⟩

def resolveContentStoryNewRecipients : RecipientResolver := resolveGroup "groupId"

def resolveContentNewsPublishedRecipients : RecipientResolver := fun event => do
  let targetType ← Prog.ofExcept (stringField event.payload "targetType")
  if targetType = "all" then resolveContentQundylyqRecipients event
  else if targetType = "group" then resolveGroup "targetGroupId" event
  else if targetType = "child" then resolveGuardiansOf "targetChildId" event
  else pure noRecipients

/-- `RECIPIENT_RESOLVERS`; the keys of `TEMPLATES` are the same. -/
def recipientResolvers : List (String × RecipientResolver) := [
  ("attendance.checkin", resolveByChildGuardians),
  ("attendance.checkout", resolveByChildGuardians),
  ("daily_status.changed", resolveByChildGuardians),
  ("timeline.entry_created", resolveByChildGuardians),
  ("guardian.approved", resolveSelfFromField "guardianUserId"),
  ("guardian.self_revoked", resolveSelfFromField "userId"),
  ("guardian.pending_approval", resolveSelfFromField "primaryUserId"),
  ("guardian.rejected", resolveSelfFromField "guardianUserId"),
  ("guardian.revoked", resolveSelfFromField "guardianUserId"),
  ("guardian.permissions_updated", resolveSelfFromField "guardianUserId"),
  ("child.transferred", resolveByChildGuardians),
  ("child.archived", resolveByChildGuardians),
  ("child.reactivated", resolveByChildGuardians),
  ("pickup.otp_sent", resolvePickupOtpSentRecipients),
  ("pickup.validated", resolvePickupValidatedRecipients),
  ("request.accepted", resolveParentRequestRequesterRecipients),
  ("request.rejected", resolveParentRequestRequesterRecipients),
  ("request.cancelled", resolveParentRequestCancelledRecipients),
  ("request.message_sent", resolveParentRequestMessageRecipients),
  ("invoice.created", resolveByChildGuardians),
  ("invoice.paid", resolveByChildGuardians),
  ("invoice.overdue", resolveByChildGuardians),
  ("invoice.cancelled", resolveByChildGuardians),
  ("payment.completed", resolveByChildGuardians),
  ("payment.failed", resolveByChildGuardians),
  ("payment.refunded", resolveByChildGuardians),
  ("refund.processed", resolveByChildGuardians),
  ("enrollment.first_invoice_skipped", resolveRecipientUserIdsFromPayload),
  ("payment.refund_required", resolveRecipientUserIdsFromPayload),
  ("kaspi.session_expired", resolveRecipientUserIdsFromPayload),
  ("discount.activated", resolveDiscountActivatedRecipients),
  ("diagnostic.new", resolveByChildGuardians),
  ("progress_note.new", resolveByChildGuardians),
  ("content.birthday", resolveContentBirthdayRecipients),
  ("content.news_published", resolveContentNewsPublishedRecipients),
  ("content.qundylyq_new", resolveContentQundylyqRecipients),
  ("content.story_new", resolveContentStoryNewRecipients)]

/-- `NANNY_ALLOWED_EVENT_KEYS`. -/
def nannyAllowedEventKeys : List String :=
  ["attendance.checkin", "attendance.checkout", "pickup.otp_sent", "pickup.validated"]

def applyNannyPolicy (eventKey : String) (r : ResolvedRecipients) : List Uuid :=
  if nannyAllowedEventKeys.contains eventKey then r.userIds
  else r.userIds.filter fun u => !r.nannyUserIds.contains u

/-! ## Preferences -/

/-- A recipient with the flags that count for him. -/
structure Effective where
  userId : Uuid
  pushEnabled : Bool
  inAppEnabled : Bool
  deriving DecidableEq

def findByUserIdsAndEventKey (userIds : List Uuid) (eventKey : String) : Sql (List NotificationPreference) :=
  if userIds.isEmpty then pure []
  else Prog.query fun s => s.directory.preferences.filter fun p => userIds.contains p.userId && p.eventKey == eventKey

/-- Without a row both are enabled. -/
def effectiveFlags (preferences : List NotificationPreference) (userId : Uuid) : Effective :=
  match preferences.find? fun p => p.userId == userId with
  | some p => ⟨userId, p.pushEnabled, p.inAppEnabled⟩
  | none => ⟨userId, true, true⟩

/-- Whom the event goes to, and how. -/
def effectiveRecipients (resolver : RecipientResolver) (event : OutboxEvent) : Sql (List Effective) := do
  let recipients ← resolver event
  let filteredUserIds := applyNannyPolicy event.eventKey recipients
  let preferences ← findByUserIdsAndEventKey filteredUserIds event.eventKey
  pure (filteredUserIds.map (effectiveFlags preferences))

/-! ## Pushes -/

inductive PushErrorClassification
  | permanentToken | transient
  deriving DecidableEq, Repr

/-- `PERMANENT_TOKEN_PATTERNS`, in lower case: they are matched without regard to it. -/
def permanentTokenPatterns : List String :=
  ["invalidregistration", "notregistered", "baddevicetoken", "unregistered", "mismatchsenderid",
    "registration-token-not-registered", "invalid-registration-token", "devicetokennotfortopic"]

/-- `haystack` is the code and the message of the error. -/
def classifyPushError (haystack : String) : PushErrorClassification :=
  let text := haystack.toList.map Char.toLower
  if permanentTokenPatterns.any fun pattern => decide (pattern.toList <:+: text) then .permanentToken else .transient

/-- What goes wrong while an event is processed. -/
structure Faults where
  /-- A statement of the dispatcher throws. -/
  statement : Option String
  /-- The pushes that throw, by token, with the error. -/
  push : List (String × String)
  /-- `markDispatched`, or the release of the savepoint, throws. -/
  release : Option String
  deriving DecidableEq

def Faults.none : Faults := ⟨.none, [], .none⟩

/-- The calls of the push port, in order, with what each is classified as. -/
def pushCalls (faults : Faults) (userIds : List Uuid) (tokens : List PushToken) :
    List (PushToken × Option PushErrorClassification) :=
  (userIds.flatMap fun u => tokens.filter fun t => t.userId == u).map fun t =>
    (t, (faults.push.lookup t.token).map classifyPushError)

structure Fanout where
  sent : List PushToken
  transientFailures : Nat

def fanoutPush (faults : Faults) (userIds : List Uuid) : Sql Fanout :=
  if userIds.isEmpty then pure ⟨[], 0⟩
  else do
    let tokens ← Prog.query fun s => s.directory.tokens.filter fun t => userIds.contains t.userId
    let calls := pushCalls faults userIds tokens
    pure ⟨(calls.filter fun c => c.2.isNone).map Prod.fst, calls.countP fun c => c.2 == some .transient⟩

/-! ## One event -/

inductive DispatchResult
  | dispatched
  | failed (reason : String)
  deriving DecidableEq

/-- What `dispatch` has done: the history rows, which stand or fall with the savepoint, and the pushes that went out. -/
structure Delivery where
  rows : List Notification
  sent : List PushToken
  result : DispatchResult
  deriving DecidableEq

def Delivery.nothing (result : DispatchResult) : Delivery := ⟨[], [], result⟩

def historyRows (now : Int) (event : OutboxEvent) (effective : List Effective) : List Notification :=
  (effective.filter fun e => e.inAppEnabled).map fun e => ⟨event.id, event.kindergartenId, e.userId, event.eventKey, now⟩

/-- The run for an event whose key has a resolver. -/
def deliver (now : Int) (faults : Faults) (resolver : RecipientResolver) (event : OutboxEvent) : Sql Delivery := do
  let effective ← effectiveRecipients resolver event
  let fanout ← fanoutPush faults ((effective.filter fun e => e.pushEnabled).map Effective.userId)
  pure ⟨historyRows now event effective, fanout.sent,
    if 0 < fanout.transientFailures then .failed ("push_transient_failures=" ++ toString fanout.transientFailures)
    else .dispatched⟩

/-- The body of the `try`: a statement that throws may be any of its statements before the pushes. -/
def attempt (now : Int) (faults : Faults) (event : OutboxEvent) : Sql Delivery :=
  match recipientResolvers.lookup event.eventKey with
  | none => pure (.nothing (.failed ("unknown_event_key:" ++ event.eventKey)))
  | some resolver =>
      match faults.statement with
      | some message => Prog.throw ⟨message⟩
      | none => deliver now faults resolver event

def dispatch (now : Int) (faults : Faults) (event : OutboxEvent) : Sql Delivery :=
  Prog.tryCatch (fun e => pure (.nothing (.failed e.message))) (attempt now faults event)

/-! ## What a dispatch is made of -/

section

variable {now : Int} {faults : Faults} {event : OutboxEvent} {resolver : RecipientResolver} {vs : List Store}

theorem mem_pushCalls {userIds : List Uuid} {tokens : List PushToken}
    {c : PushToken × Option PushErrorClassification} (h : c ∈ pushCalls faults userIds tokens) :
    c.1.userId ∈ userIds ∧ c.1 ∈ tokens := by
  obtain ⟨t, ht, rfl⟩ := List.mem_map.1 h
  obtain ⟨u, hu, ht⟩ := List.mem_flatMap.1 ht
  obtain ⟨htoken, huser⟩ := List.mem_filter.1 ht
  exact ⟨beq_iff_eq.1 huser ▸ hu, htoken⟩

theorem answered_fanoutPush {userIds : List Uuid} {fanout : Fanout}
    (h : (fanoutPush faults userIds).answered vs = some (.ok fanout)) :
    ∀ t ∈ fanout.sent, t.userId ∈ userIds ∧ ∃ w ∈ vs, t ∈ w.directory.tokens := by
  unfold fanoutPush at h
  by_cases hempty : userIds.isEmpty = true
  · rw [if_pos hempty] at h
    obtain ⟨rfl, -⟩ := Prog.answered_ret h
    exact fun t ht => by cases ht
  · rw [if_neg hempty] at h
    obtain ⟨w, vs', rfl, h₁⟩ := Prog.answered_query h
    obtain ⟨rfl, -⟩ := Prog.answered_ret h₁
    intro t ht
    obtain ⟨c, hc, rfl⟩ := List.mem_map.1 ht
    obtain ⟨huser, htoken⟩ := mem_pushCalls (List.mem_filter.1 hc).1
    exact ⟨huser, w, List.mem_cons_self, (List.mem_filter.1 htoken).1⟩

/-- A dispatch does nothing and fails, or serves the recipients that it has resolved. -/
inductive DispatchOutcome (now : Int) (event : OutboxEvent) (vs : List Store) (d : Delivery) : Prop
  | nothing (reason : String) (eq : d = .nothing (.failed reason))
  | delivered (resolver : RecipientResolver) (vs₁ vs₂ : List Store) (effective : List Effective)
      (lookup : recipientResolvers.lookup event.eventKey = some resolver) (seen : vs = vs₁ ++ vs₂)
      (recipients : (effectiveRecipients resolver event).answered vs₁ = some (.ok effective))
      (rows : d.rows = historyRows now event effective)
      (sent : ∀ t ∈ d.sent, t.userId ∈ (effective.filter fun e => e.pushEnabled).map Effective.userId ∧
        ∃ w ∈ vs₂, t ∈ w.directory.tokens)

theorem answered_deliver {d : Delivery} (hl : recipientResolvers.lookup event.eventKey = some resolver)
    (h : (deliver now faults resolver event).answered vs = some (.ok d)) : DispatchOutcome now event vs d := by
  obtain ⟨effective, vs₁, vs₂, rfl, heffective, h₁⟩ := Prog.answered_bind h
  obtain ⟨fanout, vs₃, vs₄, rfl, hfanout, h₂⟩ := Prog.answered_bind h₁
  obtain ⟨rfl, rfl⟩ := Prog.answered_ret h₂
  rw [List.append_nil]
  exact .delivered resolver vs₁ vs₃ effective hl rfl heffective rfl (answered_fanoutPush hfanout)

theorem answered_dispatch {d : Delivery} (h : (dispatch now faults event).answered vs = some (.ok d)) :
    DispatchOutcome now event vs d := by
  rcases Prog.answered_tryCatch h with h | ⟨e, vs₂, h⟩
  · unfold attempt at h
    cases hl : recipientResolvers.lookup event.eventKey with
    | none =>
      rw [hl] at h
      exact .nothing _ (Prog.answered_ret h).1.symm
    | some resolver =>
      rw [hl] at h
      cases hstatement : faults.statement with
      | some message =>
        rw [hstatement] at h
        cases vs <;> cases h
      | none =>
        rw [hstatement] at h
        exact answered_deliver hl h
  · exact .nothing _ (Prog.answered_ret h).1.symm

theorem answered_effectiveRecipients {effective : List Effective}
    (h : (effectiveRecipients resolver event).answered vs = some (.ok effective)) :
    ∃ r vs₁ vs₂ preferences, vs = vs₁ ++ vs₂ ∧ (resolver event).answered vs₁ = some (.ok r) ∧
      effective = (applyNannyPolicy event.eventKey r).map (effectiveFlags preferences) ∧
      (preferences = [] ∧ applyNannyPolicy event.eventKey r = [] ∨ ∃ w ∈ vs₂, preferences =
        w.directory.preferences.filter fun p =>
          (applyNannyPolicy event.eventKey r).contains p.userId && p.eventKey == event.eventKey) := by
  obtain ⟨r, vs₁, vs₂, rfl, hr, h₁⟩ := Prog.answered_bind h
  obtain ⟨preferences, vs₃, vs₄, rfl, hp, h₂⟩ := Prog.answered_bind h₁
  obtain ⟨rfl, -⟩ := Prog.answered_ret h₂
  refine ⟨r, vs₁, vs₃ ++ vs₄, preferences, rfl, hr, rfl, ?_⟩
  unfold findByUserIdsAndEventKey at hp
  by_cases hempty : (applyNannyPolicy event.eventKey r).isEmpty = true
  · rw [if_pos hempty] at hp
    exact .inl ⟨(Prog.answered_ret hp).1.symm, List.isEmpty_iff.1 hempty⟩
  · rw [if_neg hempty] at hp
    obtain ⟨w, vs', rfl, hw⟩ := Prog.answered_query (f := Prog.ret) hp
    exact .inr ⟨w, by simp, (Prog.answered_ret hw).1.symm⟩

@[simp] theorem userId_effectiveFlags (preferences : List NotificationPreference) (u : Uuid) :
    (effectiveFlags preferences u).userId = u := by
  unfold effectiveFlags
  cases preferences.find? fun p => p.userId == u <;> rfl

end

end Notifications
