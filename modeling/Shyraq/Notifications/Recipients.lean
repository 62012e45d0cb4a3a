import Shyraq.Notifications.Adapter
import Shyraq.Notifications.Dispatcher

/-!
# Who receives a notification

Every resolver that sends to parents asks for their links again, but for the one that tells the primary guardian about
a pending approval: it takes the user whom the payload names.
-/

namespace Notifications

open Transactions

/-! ## What is claimed -/

/-- The children that an event is about. -/
inductive Audience
  | child (childId : Uuid)
  | children (childIds : List Uuid)
  | group (groupId : Uuid)
  | kindergarten
  | nobody
  deriving DecidableEq

def Audience.Includes (d : Directory) (kindergartenId childId : Uuid) : Audience → Prop
  | child c => childId = c
  | children cs => childId ∈ cs
  | group g => ∃ c ∈ d.children, c.id = childId ∧ c.kindergartenId = kindergartenId ∧ c.currentGroupId = some g
  | kindergarten => ∃ c ∈ d.children, c.id = childId ∧ c.kindergartenId = kindergartenId
  | nobody => False

instance (d : Directory) (kindergartenId childId : Uuid) (a : Audience) :
    Decidable (a.Includes d kindergartenId childId) := by
  cases a <;> unfold Audience.Includes <;> infer_instance

/-- A guardian who may hear of the event: approved, not revoked, of a child it is about; a nanny only of some events. -/
structure ChildGuardian.MayHear (d : Directory) (kindergartenId : Uuid) (eventKey : String) (a : Audience)
    (g : ChildGuardian) : Prop where
  kindergarten : g.kindergartenId = kindergartenId
  approved : g.approvedActive = true
  nanny : g.role = .nanny → eventKey ∈ nannyAllowedEventKeys
  child : a.Includes d kindergartenId g.childId

instance (d : Directory) (kindergartenId : Uuid) (eventKey : String) (a : Audience) (g : ChildGuardian) :
    Decidable (g.MayHear d kindergartenId eventKey a) :=
  decidable_of_iff (g.kindergartenId = kindergartenId ∧ g.approvedActive = true ∧
      (g.role = .nanny → eventKey ∈ nannyAllowedEventKeys) ∧ a.Includes d kindergartenId g.childId)
    ⟨fun h => ⟨h.1, h.2.1, h.2.2.1, h.2.2.2⟩, fun h => ⟨h.kindergarten, h.approved, h.nanny, h.child⟩⟩

def EntitledGuardian (d : Directory) (kindergartenId : Uuid) (eventKey : String) (a : Audience) (u : Uuid) : Prop :=
  ∃ g ∈ d.guardians, g.userId = u ∧ g.MayHear d kindergartenId eventKey a

instance (d : Directory) (kindergartenId : Uuid) (eventKey : String) (a : Audience) (u : Uuid) :
    Decidable (EntitledGuardian d kindergartenId eventKey a u) :=
  inferInstanceAs (Decidable (∃ g ∈ d.guardians, g.userId = u ∧ g.MayHear d kindergartenId eventKey a))

namespace NotificationCall

/-- The children that a call is about. -/
def audience : NotificationCall → Audience
  | notifyGuardianPendingApproval _ childId .. | notifyGuardianApproved _ childId .. | notifyGuardianRejected _ childId ..
  | notifyGuardianRevoked _ childId .. | notifyGuardianSelfRevoked _ childId .. | notifyChildTransferred _ childId ..
  | notifyPermissionsUpdated _ childId .. | notifyAttendanceCheckIn _ childId .. | notifyAttendanceCheckOut _ childId ..
  | notifyDailyStatusChanged _ childId .. | notifyTimelineEntryCreated _ childId .. | notifyPickupOtpSent _ childId ..
  | notifyPickupValidated _ childId .. | notifyParentRequestAccepted _ _ childId ..
  | notifyParentRequestRejected _ _ childId .. | notifyParentRequestCancelled _ _ childId ..
  | notifyParentRequestMessageSent _ _ childId .. | notifyInvoiceCreated _ _ childId .. | notifyInvoicePaid _ _ childId ..
  | notifyInvoiceOverdue _ _ childId .. | notifyInvoiceCancelled _ _ childId .. | notifyPaymentCompleted _ _ childId ..
  | notifyPaymentFailed _ _ childId .. | notifyPaymentRefunded _ _ childId .. | notifyRefundProcessed _ _ _ childId ..
  | notifyEnrollmentFirstInvoiceSkipped _ _ childId .. | notifyDiagnosticNew _ childId .. | notifyProgressNoteNew _ childId ..
  | notifyContentBirthday _ _ childId .. | notifyChildArchived _ childId .. | notifyChildReactivated _ childId ..
  | notifyPaymentRefundRequired _ _ _ _ childId .. => .child childId
  | notifyDiscountActivated _ _ _ targetChildIds .. => .children targetChildIds
  | notifyContentNewsPublished _ _ .all .. | notifyContentQundylyqNew .. => .kindergarten
  | notifyContentNewsPublished _ _ .group targetGroupId .. => targetGroupId.elim .nobody .group
  | notifyContentNewsPublished _ _ .child _ targetChildId .. => targetChildId.elim .nobody .child
  | notifyContentStoryNew _ _ groupId .. => .group groupId
  | notifyKaspiSessionExpired .. => .nobody

/-- The guardian whose own link a guardian event is about. -/
def subject : NotificationCall → Option Uuid
  | notifyGuardianPendingApproval _ _ _ _ requesterUserId _ => some requesterUserId
  | notifyGuardianApproved _ _ guardianUserId .. | notifyGuardianRejected _ _ guardianUserId ..
  | notifyGuardianRevoked _ _ guardianUserId .. | notifyPermissionsUpdated _ _ guardianUserId .. => some guardianUserId
  | notifyGuardianSelfRevoked _ _ userId .. => some userId
  | _ => none

/-- The users whom a call addresses as staff. -/
def staffUserIds : NotificationCall → List Uuid
  | notifyEnrollmentFirstInvoiceSkipped _ _ _ _ recipientUserIds | notifyKaspiSessionExpired _ recipientUserIds
  | notifyPaymentRefundRequired _ _ _ _ _ _ _ recipientUserIds => recipientUserIds
  | notifyParentRequestCancelled _ _ _ _ _ _ recipientStaffUserId => recipientStaffUserId.toList
  | notifyParentRequestMessageSent _ _ _ _ .parent _ _ _ _ recipientStaffUserId => recipientStaffUserId.toList
  | _ => []

end NotificationCall

/-- The user is entitled to hear of the call, with the links as they are in `d`. -/
def Entitled (d : Directory) (call : NotificationCall) (u : Uuid) : Prop :=
  EntitledGuardian d call.enqueued.kindergartenId call.enqueued.eventKey call.audience u ∨ call.subject = some u

instance (d : Directory) (call : NotificationCall) (u : Uuid) : Decidable (Entitled d call u) :=
  inferInstanceAs (Decidable (_ ∨ _))

/-- The outbox row that a call has enqueued, at whatever attempt. -/
structure OutboxEvent.Carries (event : OutboxEvent) (call : NotificationCall) : Prop where
  kindergartenId : event.kindergartenId = call.enqueued.kindergartenId
  eventKey : event.eventKey = call.enqueued.eventKey
  payload : event.payload = call.enqueued.payload

/-- Who gets a row or a push. -/
def Delivery.receivers (d : Delivery) : List Uuid := d.rows.map Notification.userId ++ d.sent.map PushToken.userId

/-- A notification of this key reaches the user. -/
def Directory.reaches (d : Directory) (u : Uuid) (eventKey : String) : Bool :=
  let flags := effectiveFlags (d.preferences.filter fun p => p.userId == u && p.eventKey == eventKey) u
  u != "" && (flags.inAppEnabled || flags.pushEnabled && d.tokens.any fun t => t.userId == u)

/-- Whom the payload of a pending approval names is still entitled, if it reaches him at all. -/
def StillEntitled (d : Directory) : NotificationCall → Prop
  | .notifyGuardianPendingApproval kindergartenId childId _ primaryUserId requesterUserId _ =>
      d.reaches primaryUserId "guardian.pending_approval" = true → primaryUserId = requesterUserId ∨
        EntitledGuardian d kindergartenId "guardian.pending_approval" (.child childId) primaryUserId
  | _ => True

/-! ## Resolvers -/

/-- Whomever the resolver finds in `v` is entitled, once the nannies are filtered. -/
def SoundFor (v : Store) (event : OutboxEvent) (a : Audience) (resolver : RecipientResolver) : Prop :=
  ∀ vs r, (∀ w ∈ vs, w = v) → (resolver event).answered vs = some (.ok r) →
    ∀ u ∈ applyNannyPolicy event.eventKey r, EntitledGuardian v.directory event.kindergartenId event.eventKey a u

section

variable {v : Store} {event : OutboxEvent} {a : Audience} {field : String} {u : Uuid}

variable {r : ResolvedRecipients} {vs : List Store}

theorem mem_applyNannyPolicy {eventKey : String} :
    u ∈ applyNannyPolicy eventKey r ↔ u ∈ r.userIds ∧ (u ∈ r.nannyUserIds → eventKey ∈ nannyAllowedEventKeys) := by
  unfold applyNannyPolicy
  by_cases h : eventKey ∈ nannyAllowedEventKeys
  · rw [if_pos (by simpa using h)]
    exact ⟨fun hu => ⟨hu, fun _ => h⟩, fun hu => hu.1⟩
  · rw [if_neg (by simpa using h), List.mem_filter]
    simp [h]

theorem mem_approvedRound {g : ChildGuardian} :
    (u ∈ (approvedRound r g).userIds ↔ u ∈ r.userIds ∨ g.approvedActive = true ∧ g.userId = u) ∧
      (u ∈ (approvedRound r g).nannyUserIds ↔
        u ∈ r.nannyUserIds ∨ g.approvedActive = true ∧ g.role = .nanny ∧ g.userId = u) := by
  unfold approvedRound
  by_cases hg : g.approvedActive = true
  · rw [if_pos hg]
    constructor
    · by_cases hmem : g.userId ∈ r.userIds
      · rw [if_pos (by simpa using hmem)]
        exact ⟨.inl, fun h => h.elim id fun h => h.2 ▸ hmem⟩
      · rw [if_neg (by simpa using hmem)]
        simp [hg, eq_comm]
    · by_cases hrole : g.role = .nanny
      · simp [hg, hrole, eq_comm]
      · simp [hrole]
  · simp [hg]

theorem mem_foldl_approvedRound (gs : List ChildGuardian) (r : ResolvedRecipients) :
    (u ∈ (gs.foldl approvedRound r).userIds ↔ u ∈ r.userIds ∨ ∃ g ∈ gs, g.approvedActive = true ∧ g.userId = u) ∧
      (u ∈ (gs.foldl approvedRound r).nannyUserIds ↔
        u ∈ r.nannyUserIds ∨ ∃ g ∈ gs, g.approvedActive = true ∧ g.role = .nanny ∧ g.userId = u) := by
  induction gs generalizing r with
  | nil => simp
  | cons g gs ih =>
    obtain ⟨husers, hnannies⟩ := ih (approvedRound r g)
    obtain ⟨huser, hnanny⟩ := mem_approvedRound (u := u) (r := r) (g := g)
    refine ⟨husers.trans ?_, hnannies.trans ?_⟩
    · rw [huser, or_assoc, List.exists_mem_cons_iff]
    · rw [hnanny, or_assoc, List.exists_mem_cons_iff]

theorem mem_approvedRecipients {gs : List ChildGuardian} :
    (u ∈ (approvedRecipients gs).userIds ↔ ∃ g ∈ gs, g.approvedActive = true ∧ g.userId = u) ∧
      (u ∈ (approvedRecipients gs).nannyUserIds ↔
        ∃ g ∈ gs, g.approvedActive = true ∧ g.role = .nanny ∧ g.userId = u) := by
  unfold approvedRecipients
  have h := mem_foldl_approvedRound (u := u) gs noRecipients
  simpa [noRecipients] using h

theorem sound_guardiansOf (h : ∀ c, stringField event.payload field = .ok c →
    a.Includes v.directory event.kindergartenId c) : SoundFor v event a (resolveGuardiansOf field) := by
  intro vs r hvs hr u hu
  obtain ⟨c, hc, h₁⟩ := Prog.answered_ofExcept hr
  obtain ⟨w, vs', rfl, h₂⟩ := Prog.answered_query h₁
  obtain ⟨rfl, -⟩ := Prog.answered_ret h₂
  obtain rfl : w = v := hvs w List.mem_cons_self
  obtain ⟨huser, hnanny⟩ := mem_applyNannyPolicy.1 hu
  obtain ⟨g, hg, happroved, rfl⟩ := mem_approvedRecipients.1.1 huser
  obtain ⟨hmem, hwhere⟩ := List.mem_filter.1 hg
  rw [Bool.and_eq_true, beq_iff_eq, beq_iff_eq] at hwhere
  refine ⟨g, hmem, rfl, hwhere.1, happroved, fun hrole => ?_, hwhere.2 ▸ h c hc⟩
  exact hnanny (mem_approvedRecipients.2.2 ⟨g, hg, happroved, hrole, rfl⟩)

theorem entitled_of_link {g : ChildGuardian} {childId userId : Uuid}
    (h : (v.directory.guardians.find? fun g => g.kindergartenId == event.kindergartenId && g.childId == childId &&
      g.userId == userId && g.approvedActive) = some g)
    (hnanny : g.role = .nanny → event.eventKey ∈ nannyAllowedEventKeys)
    (hchild : a.Includes v.directory event.kindergartenId childId) :
    EntitledGuardian v.directory event.kindergartenId event.eventKey a userId := by
  have hwhere := List.find?_some h
  simp only [Bool.and_eq_true, beq_iff_eq] at hwhere
  obtain ⟨⟨⟨hkg, rfl⟩, rfl⟩, happroved⟩ := hwhere
  exact ⟨g, List.mem_of_find?_eq_some h, rfl, hkg, happroved, hnanny, hchild⟩

theorem sound_requester {marksNanny : Bool} (hmark : marksNanny = true ∨ event.eventKey ∈ nannyAllowedEventKeys)
    (h : ∀ c, stringField event.payload "childId" = .ok c → a.Includes v.directory event.kindergartenId c) :
    SoundFor v event a (resolveRequester marksNanny) := by
  intro vs r hvs hr u hu
  obtain ⟨requesterId, -, h₁⟩ := Prog.answered_ofExcept hr
  obtain ⟨c, hc, h₂⟩ := Prog.answered_ofExcept h₁
  obtain ⟨w, vs', rfl, h₃⟩ := Prog.answered_query h₂
  obtain ⟨rfl, -⟩ := Prog.answered_ret h₃
  obtain rfl : w = v := hvs w List.mem_cons_self
  obtain ⟨huser, hnanny⟩ := mem_applyNannyPolicy.1 hu
  cases hlink : w.directory.guardians.find? fun g => g.kindergartenId == event.kindergartenId && g.childId == c &&
      g.userId == requesterId && g.approvedActive with
  | none =>
    rw [hlink] at huser
    cases huser
  | some g =>
    rw [hlink] at huser hnanny
    obtain rfl : u = requesterId := List.mem_singleton.1 huser
    refine entitled_of_link hlink (fun hrole => ?_) (h c hc)
    rcases hmark with rfl | hkey
    · exact hnanny (by simp [requesterOf, hrole])
    · exact hkey

theorem sound_pickupValidated (hkey : event.eventKey ∈ nannyAllowedEventKeys)
    (h : ∀ c, stringField event.payload "childId" = .ok c → a.Includes v.directory event.kindergartenId c) :
    SoundFor v event a resolvePickupValidatedRecipients := by
  intro vs r hvs hr u hu
  obtain ⟨found, vs₁, vs₂, rfl, hfound, h₁⟩ := Prog.answered_bind hr
  obtain ⟨requesterId, -, h₂⟩ := Prog.answered_ofExcept h₁
  have hguardians : ∀ u ∈ found.userIds, EntitledGuardian v.directory event.kindergartenId event.eventKey a u :=
    fun u hu => sound_guardiansOf h vs₁ found (fun w hw => hvs w (List.mem_append_left _ hw)) hfound u
      (mem_applyNannyPolicy.2 ⟨hu, fun _ => hkey⟩)
  have huser := (mem_applyNannyPolicy.1 hu).1
  unfold withRequester at h₂
  by_cases hmem : found.userIds.contains requesterId = true
  · rw [if_pos hmem] at h₂
    obtain ⟨rfl, -⟩ := Prog.answered_ret h₂
    exact hguardians u huser
  · rw [if_neg hmem] at h₂
    obtain ⟨c, hc, h₃⟩ := Prog.answered_ofExcept h₂
    obtain ⟨w, vs', rfl, h₄⟩ := Prog.answered_query h₃
    obtain ⟨rfl, -⟩ := Prog.answered_ret h₄
    obtain rfl : w = v := hvs w (by simp)
    cases hlink : w.directory.guardians.find? fun g => g.kindergartenId == event.kindergartenId && g.childId == c &&
        g.userId == requesterId && g.approvedActive with
    | none =>
      rw [hlink] at huser
      exact hguardians u huser
    | some g =>
      rw [hlink] at huser
      rcases List.mem_append.1 huser with huser | huser
      · exact hguardians u huser
      · obtain rfl : u = requesterId := List.mem_singleton.1 huser
        exact entitled_of_link hlink (fun _ => hkey) (h c hc)

theorem entitled_of_query {p : ChildGuardian → Bool} (h : ∀ g ∈ v.directory.guardians,
      g.kindergartenId = event.kindergartenId → p g = true → a.Includes v.directory event.kindergartenId g.childId)
    (hu : u ∈ ((v.directory.guardians.filter fun g => g.kindergartenId == event.kindergartenId && p g &&
      g.approvedActive && g.role != .nanny).map ChildGuardian.userId).dedup) :
    EntitledGuardian v.directory event.kindergartenId event.eventKey a u := by
  rw [List.mem_dedup, List.mem_map] at hu
  obtain ⟨g, hg, rfl⟩ := hu
  obtain ⟨hmem, hwhere⟩ := List.mem_filter.1 hg
  simp only [Bool.and_eq_true, beq_iff_eq, bne_iff_ne, ne_eq] at hwhere
  obtain ⟨⟨⟨hkg, hp⟩, happroved⟩, hrole⟩ := hwhere
  exact ⟨g, hmem, rfl, hkg, happroved, fun hnanny => absurd hnanny hrole, h g hmem hkg hp⟩

theorem child_of_joined {d : Directory} {g : ChildGuardian} {p : Child → Bool}
    (h : ChildGuardianRepository.joined d g p = true) :
    ∃ c ∈ d.children, c.id = g.childId ∧ c.kindergartenId = g.kindergartenId ∧ p c = true := by
  unfold ChildGuardianRepository.joined at h
  obtain ⟨c, hc, hwhere⟩ := List.any_eq_true.1 h
  simp only [Bool.and_eq_true, beq_iff_eq] at hwhere
  exact ⟨c, hc, hwhere.1.1.1, hwhere.1.1.2, hwhere.2⟩

theorem sound_kindergarten : SoundFor v event .kindergarten resolveContentQundylyqRecipients := by
  intro vs r hvs hr u hu
  obtain ⟨w, vs', rfl, h₁⟩ := Prog.answered_query hr
  obtain ⟨rfl, -⟩ := Prog.answered_ret h₁
  obtain rfl : w = v := hvs w List.mem_cons_self
  refine entitled_of_query (fun g _ hkg hp => ?_) (mem_applyNannyPolicy.1 hu).1
  obtain ⟨c, hc, hid, hckg, -⟩ := child_of_joined hp
  exact ⟨c, hc, hid, hckg.trans hkg⟩

theorem sound_group (h : ∀ g, stringField event.payload field = .ok g → a = .group g) :
    SoundFor v event a (resolveGroup field) := by
  intro vs r hvs hr u hu
  obtain ⟨groupId, hgroup, h₁⟩ := Prog.answered_ofExcept hr
  obtain rfl := h groupId hgroup
  obtain ⟨w, vs', rfl, h₂⟩ := Prog.answered_query h₁
  obtain ⟨rfl, -⟩ := Prog.answered_ret h₂
  obtain rfl : w = v := hvs w List.mem_cons_self
  refine entitled_of_query (fun g _ hkg hp => ?_) (mem_applyNannyPolicy.1 hu).1
  obtain ⟨c, hc, hid, hckg, hin⟩ := child_of_joined hp
  exact ⟨c, hc, hid, hckg.trans hkg, beq_iff_eq.1 hin⟩

theorem sound_discount (h : ∀ c ∈ stringsField event.payload "targetChildIds",
    a.Includes v.directory event.kindergartenId c) : SoundFor v event a resolveDiscountActivatedRecipients := by
  intro vs r hvs hr u hu
  obtain ⟨userIds, vs₁, vs₂, rfl, husers, h₁⟩ := Prog.answered_bind hr
  obtain ⟨rfl, -⟩ := Prog.answered_ret h₁
  have huser := (mem_applyNannyPolicy.1 hu).1
  unfold ChildGuardianRepository.findApprovedUserIdsBySomeChildIds at husers
  by_cases hempty : (stringsField event.payload "targetChildIds").isEmpty = true
  · rw [if_pos hempty] at husers
    obtain ⟨rfl, -⟩ := Prog.answered_ret husers
    cases huser
  · rw [if_neg hempty] at husers
    obtain ⟨w, vs', rfl, h₂⟩ := Prog.answered_query (f := Prog.ret) husers
    obtain ⟨rfl, -⟩ := Prog.answered_ret h₂
    obtain rfl : w = v := hvs w (by simp)
    exact entitled_of_query (fun g _ _ hp => h g.childId (by simpa using hp)) huser

/-! ## Calls -/

theorem text_of_stringField {payload : Payload} {key value c : String} (h : stringField payload key = .ok c)
    (hl : payload.lookup key = some (.text value)) : c = value ∧ value ≠ "" := by
  unfold stringField at h
  rw [hl] at h
  dsimp only at h
  by_cases hempty : value = ""
  · rw [if_pos hempty] at h
    cases h
  · rw [if_neg hempty] at h
    exact ⟨(Except.ok.inj h).symm, hempty⟩

theorem text_of_ofOption {payload : Payload} {key c : String} {value : Option String}
    (h : stringField payload key = .ok c) (hl : payload.lookup key = some (.ofOption value)) : value = some c := by
  cases value with
  | none =>
    unfold stringField at h
    rw [hl] at h
    cases h
  | some value => rw [(text_of_stringField h hl).1]

/-- The resolver of a call. -/
def NotificationCall.resolver : NotificationCall → RecipientResolver
  | notifyGuardianPendingApproval .. => resolveSelfFromField "primaryUserId"
  | notifyGuardianApproved .. | notifyGuardianRejected .. | notifyGuardianRevoked .. | notifyPermissionsUpdated .. =>
      resolveSelfFromField "guardianUserId"
  | notifyGuardianSelfRevoked .. => resolveSelfFromField "userId"
  | notifyPickupOtpSent .. => resolvePickupOtpSentRecipients
  | notifyPickupValidated .. => resolvePickupValidatedRecipients
  | notifyParentRequestAccepted .. | notifyParentRequestRejected .. => resolveParentRequestRequesterRecipients
  | notifyParentRequestCancelled .. => resolveParentRequestCancelledRecipients
  | notifyParentRequestMessageSent .. => resolveParentRequestMessageRecipients
  | notifyEnrollmentFirstInvoiceSkipped .. | notifyPaymentRefundRequired .. | notifyKaspiSessionExpired .. =>
      resolveRecipientUserIdsFromPayload
  | notifyDiscountActivated .. => resolveDiscountActivatedRecipients
  | notifyContentNewsPublished .. => resolveContentNewsPublishedRecipients
  | notifyContentStoryNew .. => resolveContentStoryNewRecipients
  | notifyContentQundylyqNew .. => resolveContentQundylyqRecipients
  | notifyContentBirthday .. => resolveContentBirthdayRecipients
  | _ => resolveByChildGuardians

theorem lookup_resolver (call : NotificationCall) :
    recipientResolvers.lookup call.enqueued.eventKey = some call.resolver := by
  cases call <;> rfl

theorem answered_self
    (h : (resolveSelfFromField field event).answered vs = some (.ok r)) (hu : u ∈ applyNannyPolicy event.eventKey r) :
    stringField event.payload field = .ok u := by
  obtain ⟨c, hc, h₁⟩ := Prog.answered_ofExcept h
  obtain ⟨rfl, -⟩ := Prog.answered_ret h₁
  rw [List.mem_singleton.1 (mem_applyNannyPolicy.1 hu).1]
  exact hc

theorem answered_recipientStaff {staff : Option Uuid}
    (hl : event.payload.lookup "recipientStaffUserId" = some (.ofOption staff))
    (h : (resolveParentRequestCancelledRecipients event).answered vs = some (.ok r))
    (hu : u ∈ applyNannyPolicy event.eventKey r) : u ∈ staff.toList := by
  obtain ⟨rfl, -⟩ := Prog.answered_ret h
  have huser := (mem_applyNannyPolicy.1 hu).1
  rw [hl] at huser
  cases staff with
  | none => exact huser
  | some staff =>
    unfold asNonEmptyString PayloadValue.ofOption at huser
    dsimp only at huser
    by_cases hempty : staff = ""
    · rw [if_pos hempty] at huser
      cases huser
    · rw [if_neg hempty] at huser
      exact huser

theorem answered_payloadRecipients {ids : List Uuid}
    (hl : event.payload.lookup "recipientUserIds" = some (.texts ids))
    (h : (resolveRecipientUserIdsFromPayload event).answered vs = some (.ok r))
    (hu : u ∈ applyNannyPolicy event.eventKey r) : u ∈ ids := by
  obtain ⟨rfl, -⟩ := Prog.answered_ret h
  have huser : u ∈ distinct (stringsField event.payload "recipientUserIds") := (mem_applyNannyPolicy.1 hu).1
  unfold distinct stringsField at huser
  rw [List.mem_reverse, List.mem_dedup, List.mem_reverse, hl] at huser
  exact (List.mem_filter.1 huser).1

/-- The user whom a pending approval is sent to. -/
def NotificationCall.primaryUserId : NotificationCall → Option Uuid
  | notifyGuardianPendingApproval _ _ _ primaryUserId _ _ => some primaryUserId
  | _ => none

/-- Whomever a call is sent to is entitled, or staff, or the primary guardian of a pending approval. -/
theorem entitled_of_resolved {call : NotificationCall} (hc : event.Carries call)
    (hvs : ∀ w ∈ vs, w = v) (hr : (call.resolver event).answered vs = some (.ok r))
    (hu : u ∈ applyNannyPolicy event.eventKey r) (hstaff : u ∉ call.staffUserIds) :
    Entitled v.directory call u ∨ call.primaryUserId = some u ∧ u ≠ "" := by
  have hfield : ∀ {key c value}, call.enqueued.payload.lookup key = some (.text value) →
      stringField event.payload key = .ok c → c = value :=
    fun hl h => (text_of_stringField h (hc.payload ▸ hl)).1
  have entitled : ∀ {resolver : RecipientResolver}, SoundFor v event call.audience resolver →
      (resolver event).answered vs = some (.ok r) →
      Entitled v.directory call u ∨ call.primaryUserId = some u ∧ u ≠ "" := by
    intro resolver hsound hr
    have h := hsound vs r hvs hr u hu
    rw [hc.kindergartenId, hc.eventKey] at h
    exact .inl (.inl h)
  have sound : ∀ {resolver}, resolver = call.resolver → SoundFor v event call.audience resolver →
      Entitled v.directory call u ∨ call.primaryUserId = some u ∧ u ≠ "" := by
    rintro resolver rfl hsound
    exact entitled hsound hr
  have self : ∀ {key value}, call.resolver = resolveSelfFromField key →
      call.enqueued.payload.lookup key = some (.text value) → u = value ∧ value ≠ "" := by
    intro key value hresolver hl
    rw [hresolver] at hr
    exact text_of_stringField (answered_self hr hu) (hc.payload ▸ hl)
  cases call with
  | notifyGuardianPendingApproval =>
    obtain ⟨rfl, hne⟩ := self rfl rfl
    exact .inr ⟨rfl, hne⟩
  | notifyGuardianApproved | notifyGuardianRejected | notifyGuardianRevoked | notifyPermissionsUpdated
  | notifyGuardianSelfRevoked =>
    obtain ⟨rfl, -⟩ := self rfl rfl
    exact .inl (.inr rfl)
  | notifyPickupOtpSent =>
    have hkey : event.eventKey = "pickup.otp_sent" := hc.eventKey
    exact sound rfl (sound_requester (.inr (by rw [hkey]; decide)) fun c h => hfield rfl h)
  | notifyPickupValidated =>
    have hkey : event.eventKey = "pickup.validated" := hc.eventKey
    exact sound rfl (sound_pickupValidated (by rw [hkey]; decide) fun c h => hfield rfl h)
  | notifyParentRequestAccepted | notifyParentRequestRejected =>
    exact sound rfl (sound_requester (.inl rfl) fun c h => hfield rfl h)
  | notifyParentRequestCancelled =>
    exact absurd (answered_recipientStaff (by rw [hc.payload]; rfl) hr hu) hstaff
  | notifyParentRequestMessageSent kg parentRequestId childId messageId authorRole =>
    obtain ⟨role, hrole, h₁⟩ := Prog.answered_ofExcept hr
    obtain rfl : role = authorRole.value := hfield rfl hrole
    cases authorRole with
    | parent =>
      rw [if_pos (show AuthorRole.parent.value = "parent" from rfl)] at h₁
      exact absurd (answered_recipientStaff (by rw [hc.payload]; rfl) h₁ hu) hstaff
    | staff =>
      rw [if_neg (show ¬ AuthorRole.staff.value = "parent" by decide)] at h₁
      exact entitled (sound_requester (.inl rfl) fun c h => hfield rfl h) h₁
  | notifyEnrollmentFirstInvoiceSkipped | notifyPaymentRefundRequired | notifyKaspiSessionExpired =>
    exact absurd (answered_payloadRecipients (by rw [hc.payload]; rfl) hr hu) hstaff
  | notifyDiscountActivated kg discountId discountName targetChildIds =>
    refine sound rfl (sound_discount fun c h => ?_)
    unfold stringsField at h
    rw [hc.payload, show (NotificationCall.enqueued _).payload.lookup "targetChildIds" =
      some (.texts targetChildIds) from rfl] at h
    exact (List.mem_filter.1 h).1
  | notifyContentNewsPublished kg contentPostId targetType targetGroupId targetChildId =>
    obtain ⟨target, htarget, h₁⟩ := Prog.answered_ofExcept hr
    obtain rfl : target = targetType.value := hfield rfl htarget
    cases targetType with
    | all =>
      rw [if_pos (show TargetType.all.value = "all" from rfl)] at h₁
      exact entitled sound_kindergarten h₁
    | group =>
      rw [if_neg (show ¬ TargetType.group.value = "all" by decide),
        if_pos (show TargetType.group.value = "group" from rfl)] at h₁
      refine entitled (sound_group fun g h => ?_) h₁
      obtain rfl := text_of_ofOption h (hc.payload ▸ rfl : event.payload.lookup "targetGroupId" =
        some (.ofOption targetGroupId))
      rfl
    | child =>
      rw [if_neg (show ¬ TargetType.child.value = "all" by decide),
        if_neg (show ¬ TargetType.child.value = "group" by decide),
        if_pos (show TargetType.child.value = "child" from rfl)] at h₁
      refine entitled (sound_guardiansOf fun c h => ?_) h₁
      obtain rfl := text_of_ofOption h (hc.payload ▸ rfl : event.payload.lookup "targetChildId" =
        some (.ofOption targetChildId))
      rfl
  | notifyContentStoryNew => exact sound rfl (sound_group fun g h => congrArg Audience.group (hfield rfl h).symm)
  | notifyContentQundylyqNew => exact sound rfl sound_kindergarten
  | notifyContentBirthday => exact sound rfl (sound_guardiansOf fun c h => hfield rfl h)
  | _ => exact sound rfl (sound_guardiansOf fun c h => hfield rfl h)

theorem applyNannyPolicy_single (eventKey : String) (c : Uuid) : applyNannyPolicy eventKey ⟨[c], []⟩ = [c] := by
  unfold applyNannyPolicy
  split <;> rfl

/-- The flags of a user for the key of an event. -/
def Directory.flagsOf (d : Directory) (u : Uuid) (eventKey : String) : Effective :=
  effectiveFlags (d.preferences.filter fun p => p.userId == u && p.eventKey == eventKey) u

theorem reaches_iff {d : Directory} {eventKey : String} : d.reaches u eventKey = true ↔
    u ≠ "" ∧ ((d.flagsOf u eventKey).inAppEnabled = true ∨
      (d.flagsOf u eventKey).pushEnabled = true ∧ ∃ t ∈ d.tokens, t.userId = u) := by
  unfold Directory.reaches Directory.flagsOf
  simp only [Bool.and_eq_true, Bool.or_eq_true, bne_iff_ne, ne_eq, List.any_eq_true, beq_iff_eq]

/-- A resolver that takes one user from the payload finds him, with his flags. -/
theorem effective_of_self {effective : List Effective} (hvs : ∀ w ∈ vs, w = v)
    (h : (effectiveRecipients (resolveSelfFromField field) event).answered vs = some (.ok effective)) :
    ∃ c, effective = [v.directory.flagsOf c event.eventKey] := by
  obtain ⟨r, vs₁, vs₂, preferences, rfl, hr, rfl, hpreferences⟩ := answered_effectiveRecipients h
  obtain ⟨c, -, h₁⟩ := Prog.answered_ofExcept hr
  obtain ⟨rfl, -⟩ := Prog.answered_ret h₁
  rw [applyNannyPolicy_single] at hpreferences ⊢
  rcases hpreferences with ⟨-, hnone⟩ | ⟨w, hw, rfl⟩
  · cases hnone
  · obtain rfl : w = v := hvs w (List.mem_append_right _ hw)
    refine ⟨c, ?_⟩
    unfold Directory.flagsOf
    simp only [List.map_cons, List.map_nil, List.contains_cons, List.contains_nil, Bool.or_false]

theorem fanoutPush_none (v : Store) (userIds : List Uuid) : ∃ vs fanout, (∀ w ∈ vs, w = v) ∧
    (fanoutPush .none userIds).answered vs = some (.ok fanout) ∧
      ∀ t ∈ v.directory.tokens, t.userId ∈ userIds → t ∈ fanout.sent := by
  by_cases hempty : userIds.isEmpty = true
  · refine ⟨[], ⟨[], 0⟩, fun _ h => absurd h List.not_mem_nil, ?_, fun t _ hu => ?_⟩
    · unfold fanoutPush
      rw [if_pos hempty]
      rfl
    · rw [List.isEmpty_iff.1 hempty] at hu
      cases hu
  · have hanswered : (fanoutPush .none userIds).answered [v] = some (.ok ⟨((pushCalls .none userIds
        (v.directory.tokens.filter fun t => userIds.contains t.userId)).filter fun c => c.2.isNone).map Prod.fst,
        (pushCalls .none userIds (v.directory.tokens.filter fun t => userIds.contains t.userId)).countP
          fun c => c.2 == some .transient⟩) := by
      unfold fanoutPush
      rw [if_neg hempty]
      rfl
    refine ⟨[v], _, fun w hw => List.mem_singleton.1 hw, hanswered, fun t ht hu => ?_⟩
    refine List.mem_map.2 ⟨(t, none), List.mem_filter.2 ⟨?_, rfl⟩, rfl⟩
    refine List.mem_map.2 ⟨t, List.mem_flatMap.2 ⟨t.userId, hu, List.mem_filter.2 ⟨?_, beq_self_eq_true _⟩⟩, rfl⟩
    exact List.mem_filter.2 ⟨ht, by simpa using hu⟩

theorem receives_of_self {c : Uuid} (hl : recipientResolvers.lookup event.eventKey = some (resolveSelfFromField field))
    (hfield : stringField event.payload field = .ok c) (now : Int)
    (hreach : (v.directory.flagsOf c event.eventKey).inAppEnabled = true ∨
      (v.directory.flagsOf c event.eventKey).pushEnabled = true ∧ ∃ t ∈ v.directory.tokens, t.userId = c) :
    ∃ vs d, (∀ w ∈ vs, w = v) ∧ (dispatch now .none event).answered vs = some (.ok d) ∧ c ∈ d.receivers := by
  have hresolved : (resolveSelfFromField field event).answered [] = some (.ok ⟨[c], []⟩) := by
    unfold resolveSelfFromField
    rw [hfield]
    rfl
  have hpreferences : (findByUserIdsAndEventKey [c] event.eventKey).answered [v] =
      some (.ok (v.directory.preferences.filter fun p => p.userId == c && p.eventKey == event.eventKey)) := by
    unfold findByUserIdsAndEventKey
    simp only [List.isEmpty_cons, Bool.false_eq_true, if_false, List.contains_cons, List.contains_nil, Bool.or_false]
    rfl
  have heffective : (effectiveRecipients (resolveSelfFromField field) event).answered [v] =
      some (.ok [v.directory.flagsOf c event.eventKey]) := by
    refine Prog.answered_bind_of hresolved ?_
    rw [applyNannyPolicy_single, ← List.append_nil [v]]
    exact Prog.answered_bind_of hpreferences rfl
  obtain ⟨vs, fanout, hvs, hfanout, hsent⟩ := fanoutPush_none v
    (([v.directory.flagsOf c event.eventKey].filter fun e => e.pushEnabled).map Effective.userId)
  have hdelivered : (deliver now .none (resolveSelfFromField field) event).answered ([v] ++ (vs ++ [])) =
      some (.ok ⟨historyRows now event [v.directory.flagsOf c event.eventKey], fanout.sent,
        if 0 < fanout.transientFailures then .failed ("push_transient_failures=" ++ toString fanout.transientFailures)
        else .dispatched⟩) :=
    Prog.answered_bind_of heffective (Prog.answered_bind_of hfanout rfl)
  have hattempt : attempt now .none event = deliver now .none (resolveSelfFromField field) event := by
    unfold attempt
    rw [hl]
    rfl
  rw [← hattempt] at hdelivered
  refine ⟨_, _, ?_, Prog.answered_tryCatch_of hdelivered, ?_⟩
  · intro w hw
    rw [List.append_nil, List.singleton_append, List.mem_cons] at hw
    exact hw.elim id (hvs w)
  · have hid : (v.directory.flagsOf c event.eventKey).userId = c := userId_effectiveFlags _ c
    rcases hreach with hinApp | ⟨hpush, t, ht, huser⟩
    · refine List.mem_append_left _ (List.mem_map.2 ⟨_, List.mem_map.2 ⟨_, List.mem_filter.2
        ⟨List.mem_singleton.2 rfl, hinApp⟩, rfl⟩, hid⟩)
    · refine List.mem_append_right _ (List.mem_map.2 ⟨t, hsent t ht ?_, huser⟩)
      rw [List.filter_cons_of_pos hpush, List.filter_nil, List.map_singleton, hid, huser]
      exact List.mem_singleton.2 rfl

/-- **Every parent who receives a notification is entitled to it**, but for the one whom a pending approval names: he
must still be. -/
theorem receivers_entitled_iff {call : NotificationCall} (hc : event.Carries call) (now : Int) (v : Store) :
    (∀ faults vs d, (∀ w ∈ vs, w = v) → (dispatch now faults event).answered vs = some (.ok d) →
      ∀ u ∈ d.receivers, u ∉ call.staffUserIds → Entitled v.directory call u) ↔ StillEntitled v.directory call := by
  have hlookup : recipientResolvers.lookup event.eventKey = some call.resolver := by
    rw [hc.eventKey, lookup_resolver]
  constructor
  · intro hall
    cases call with
    | notifyGuardianPendingApproval kg childId childFullName primaryUserId requesterUserId role =>
      intro hreach
      obtain ⟨hne, hreach⟩ := reaches_iff.1 hreach
      have hfield : stringField event.payload "primaryUserId" = .ok primaryUserId := by
        rw [hc.payload]
        exact if_neg hne
      have hkey : event.eventKey = "guardian.pending_approval" := hc.eventKey
      rw [← hkey] at hreach
      obtain ⟨vs, d, hvs, hd, hmem⟩ := receives_of_self hlookup hfield now hreach
      rcases hall .none vs d hvs hd primaryUserId hmem (List.not_mem_nil) with h | h
      · exact .inr h
      · exact .inl (Option.some.inj h).symm
    | _ => trivial
  · intro hstill faults vs d hvs hd u hu hstaff
    cases answered_dispatch hd with
    | nothing reason eq =>
      rw [eq] at hu
      cases hu
    | delivered resolver vs₁ vs₂ effective lookup seen recipients rows sent =>
      obtain rfl : resolver = call.resolver := Option.some.inj (lookup.symm.trans hlookup)
      have hvs₁ : ∀ w ∈ vs₁, w = v := fun w hw => hvs w (seen ▸ List.mem_append_left _ hw)
      -- one of the recipients, by a row or by a push
      have hserved : ∃ e ∈ effective, e.userId = u ∧
          (e.inAppEnabled = true ∨ e.pushEnabled = true ∧ ∃ t ∈ v.directory.tokens, t.userId = u) := by
        rcases List.mem_append.1 hu with hu | hpush
        · obtain ⟨row, hrow, rfl⟩ := List.mem_map.1 hu
          rw [rows] at hrow
          obtain ⟨e, he, rfl⟩ := List.mem_map.1 hrow
          obtain ⟨he, hinApp⟩ := List.mem_filter.1 he
          exact ⟨e, he, rfl, .inl hinApp⟩
        · obtain ⟨t, ht, rfl⟩ := List.mem_map.1 hpush
          obtain ⟨huser, w, hw, htoken⟩ := sent t ht
          obtain ⟨e, he, heq⟩ := List.mem_map.1 huser
          obtain ⟨he, hpush⟩ := List.mem_filter.1 he
          obtain rfl := hvs w (seen ▸ List.mem_append_right _ hw)
          exact ⟨e, he, heq, .inr ⟨hpush, t, htoken, rfl⟩⟩
      obtain ⟨e, he, rfl, hflags⟩ := hserved
      obtain ⟨r, vs₃, vs₄, preferences, rfl, hr, heffective, -⟩ := answered_effectiveRecipients recipients
      have hmem : e.userId ∈ applyNannyPolicy event.eventKey r := by
        rw [heffective] at he
        obtain ⟨w, hw, rfl⟩ := List.mem_map.1 he
        rwa [userId_effectiveFlags]
      rcases entitled_of_resolved hc (fun w hw => hvs₁ w (List.mem_append_left _ hw)) hr hmem hstaff with h | ⟨h, hne⟩
      · exact h
      · -- the primary guardian of a pending approval
        cases call with
        | notifyGuardianPendingApproval kg childId childFullName primaryUserId requesterUserId role =>
          obtain rfl := Option.some.inj h
          obtain ⟨c, hself⟩ := effective_of_self hvs₁ recipients
          rw [hself, List.mem_singleton] at he
          have hc' : e.userId = c := by rw [he, Directory.flagsOf, userId_effectiveFlags]
          have hreach : v.directory.reaches e.userId "guardian.pending_approval" = true := by
            refine reaches_iff.2 ⟨hne, ?_⟩
            have hflagsOf : v.directory.flagsOf e.userId "guardian.pending_approval" = e := by
              rw [hc', he, hc.eventKey]
              rfl
            rw [hflagsOf]
            exact hflags
          rcases hstill hreach with h | h
          · exact .inr (congrArg some h.symm)
          · exact .inl h
        | _ => cases h

end

/-! ## A primary guardian who is gone -/

/-- The father asks to join; the mother is the primary guardian. -/
def askToJoin : NotificationCall :=
  .notifyGuardianPendingApproval "kg" "child" "Aru" "mother" "father" "secondary"

/-- The mother, with a push token, and whether her link is revoked. -/
def familyStore (revokedAt : Option Int) : Store :=
  ⟨[], [], ⟨[⟨"kg", "child", "mother", .primary, if revokedAt.isSome then .revoked else .approved, revokedAt⟩,
      ⟨"kg", "child", "father", .secondary, .pendingApproval, none⟩],
    [⟨"child", "kg", some "group", .active⟩], [], [⟨"mother", "phone"⟩]⟩⟩

/-- Revoked before the dispatch, the mother gets the row and the push. -/
theorem askToJoin_reaches_revoked :
    (dispatch 20 .none (askToJoin.event 1 10)).answered [familyStore (some 15), familyStore (some 15)] =
        some (.ok ⟨[⟨1, "kg", "mother", "guardian.pending_approval", 20⟩], [⟨"mother", "phone"⟩], .dispatched⟩) ∧
      "mother" ∉ askToJoin.staffUserIds ∧ ¬ Entitled (familyStore (some 15)).directory askToJoin "mother" :=
  ⟨rfl, by decide, by decide⟩

theorem receivers_entitled_askToJoin : StillEntitled (familyStore none).directory askToJoin ∧
    ((∀ faults vs d, (∀ w ∈ vs, w = familyStore none) →
      (dispatch 20 faults (askToJoin.event 1 10)).answered vs = some (.ok d) → ∀ u ∈ d.receivers,
        u ∉ askToJoin.staffUserIds → Entitled (familyStore none).directory askToJoin u) ↔
      StillEntitled (familyStore none).directory askToJoin) :=
  ⟨fun _ => .inr (by decide), receivers_entitled_iff ⟨rfl, rfl, rfl⟩ 20 (familyStore none)⟩

end Notifications
