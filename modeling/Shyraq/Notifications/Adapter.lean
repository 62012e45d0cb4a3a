import Shyraq.Notifications.Entities

/-!
# OutboxNotificationAdapter

One constructor for each method of the port, with the fields that its event carries.  Dates are their ISO texts, and
free-form objects their JSON.
-/

namespace Notifications

/-- What `enqueue` inserts. -/
structure EnqueueInput where
  kindergartenId : Uuid
  eventKey : String
  payload : Payload
  deriving DecidableEq

inductive AuthorRole
  | parent | staff
  deriving DecidableEq, Repr

inductive TargetType
  | all | group | child
  deriving DecidableEq, Repr

def AuthorRole.value : AuthorRole → String
  | parent => "parent"
  | staff => "staff"

def TargetType.value : TargetType → String
  | all => "all"
  | group => "group"
  | child => "child"

/-- A call of the adapter. -/
inductive NotificationCall
  | notifyGuardianPendingApproval (kindergartenId childId : Uuid) (childFullName : String)
      (primaryUserId requesterUserId : Uuid) (role : String)
  | notifyGuardianApproved (kindergartenId childId guardianUserId approvedBy : Uuid) (hasApprovalRights : Bool)
  | notifyGuardianRejected (kindergartenId childId guardianUserId rejectedBy : Uuid)
  | notifyGuardianRevoked (kindergartenId childId guardianUserId revokedBy : Uuid)
  | notifyGuardianSelfRevoked (kindergartenId childId userId : Uuid) (revokedAt : String)
  | notifyChildTransferred (kindergartenId childId : Uuid) (fromGroupId : Option Uuid) (toGroupId transferredBy : Uuid)
      (recipientUserIds : List Uuid)
  | notifyPermissionsUpdated (kindergartenId childId guardianUserId updatedBy : Uuid) (effectivePermissions : String)
  | notifyAttendanceCheckIn (kindergartenId childId eventId : Uuid) (recordedAt : String)
      (recordedByStaffMemberId : Option Uuid)
  | notifyAttendanceCheckOut (kindergartenId childId eventId : Uuid) (recordedAt : String)
      (recordedByStaffMemberId pickupUserId pickupRequestId : Option Uuid)
  | notifyDailyStatusChanged (kindergartenId childId : Uuid) (date status : String) (setByStaffMemberId : Option Uuid)
  | notifyTimelineEntryCreated (kindergartenId childId entryId : Uuid) (entryType entryTime : String)
      (recordedByStaffMemberId : Option Uuid)
  | notifyPickupOtpSent (kindergartenId childId pickupRequestId requesterUserId : Uuid) (trustedPersonName : String)
  | notifyPickupValidated (kindergartenId childId pickupRequestId requesterUserId : Uuid) (trustedPersonName : String)
      (attendanceEventId : Uuid) (validatedAt : String)
  | notifyParentRequestAccepted (kindergartenId parentRequestId childId requesterUserId : Uuid) (requestType : String)
      (reviewedByStaffId : Uuid)
  | notifyParentRequestRejected (kindergartenId parentRequestId childId requesterUserId : Uuid) (requestType : String)
      (reviewedByStaffId : Uuid)
  | notifyParentRequestCancelled (kindergartenId parentRequestId childId requesterUserId : Uuid) (requestType : String)
      (recipientStaffId recipientStaffUserId : Option Uuid)
  | notifyParentRequestMessageSent (kindergartenId parentRequestId childId messageId : Uuid) (authorRole : AuthorRole)
      (authorUserId authorStaffId : Option Uuid) (requesterUserId : Uuid)
      (recipientStaffId recipientStaffUserId : Option Uuid)
  | notifyInvoiceCreated (kindergartenId invoiceId childId : Uuid) (invoiceType : String) (amountAfterDiscount : Rat)
      (dueDate periodStart periodEnd : String)
  | notifyInvoicePaid (kindergartenId invoiceId childId : Uuid) (amountAfterDiscount : Rat) (paidAt : String)
  | notifyInvoiceOverdue (kindergartenId invoiceId childId : Uuid) (amountAfterDiscount : Rat) (dueDate : String)
      (daysOverdue : Rat)
  | notifyInvoiceCancelled (kindergartenId invoiceId childId : Uuid) (reason : Option String)
  | notifyPaymentCompleted (kindergartenId paymentId childId invoiceId : Uuid) (amount : Rat) (provider paidAt : String)
  | notifyPaymentFailed (kindergartenId paymentId childId invoiceId : Uuid) (amount : Rat)
      (provider failureReason : String)
  | notifyPaymentRefunded (kindergartenId paymentId childId invoiceId : Uuid) (amount : Rat) (refundId : Uuid)
  | notifyRefundProcessed (kindergartenId refundId paymentId childId invoiceId : Uuid) (amount : Rat)
      (processedBy : Uuid)
  | notifyEnrollmentFirstInvoiceSkipped (kindergartenId enrollmentId childId : Uuid) (reason : String)
      (recipientUserIds : List Uuid)
  | notifyDiscountActivated (kindergartenId discountId : Uuid) (discountName : String) (targetChildIds : List Uuid)
      (notificationTitle notificationBody : Option String)
  | notifyDiagnosticNew (kindergartenId childId entryId templateId : Uuid) (templateName : String)
      (specialistId : Uuid) (specialistType assessmentDate createdAt : String)
  | notifyProgressNoteNew (kindergartenId childId noteId mentorId : Uuid) (notedAt createdAt : String)
  | notifyContentNewsPublished (kindergartenId contentPostId : Uuid) (targetType : TargetType)
      (targetGroupId targetChildId : Option Uuid) (titleI18n : Option String) (publishedAt : String)
  | notifyContentStoryNew (kindergartenId storyId groupId : Uuid) (mediaUrl mediaType : String) (createdBy : Uuid)
      (createdAt : String)
  | notifyContentQundylyqNew (kindergartenId contentPostId : Uuid) (titleI18n metadata : Option String)
      (publishedAt : String)
  | notifyContentBirthday (kindergartenId contentPostId targetChildId : Uuid) (childFullName : String) (age : Rat)
      (publishedAt : String)
  | notifyChildArchived (kindergartenId childId : Uuid) (archivedAt archiveReason : String) (archivedByStaffId : Uuid)
  | notifyChildReactivated (kindergartenId childId : Uuid) (reactivatedAt : String) (reactivatedByStaffId : Uuid)
  | notifyKaspiSessionExpired (kindergartenId : Uuid) (recipientUserIds : List Uuid)
  | notifyPaymentRefundRequired (kindergartenId paymentId : Uuid) (duplicateOfPaymentId : Option Uuid)
      (invoiceId childId : Uuid) (amount : Rat) (reason : String) (recipientUserIds : List Uuid)
  deriving DecidableEq

/-- What the call enqueues. -/
def NotificationCall.enqueued : NotificationCall → EnqueueInput
  | notifyGuardianPendingApproval kg childId childFullName primaryUserId requesterUserId role =>
      ⟨kg, "guardian.pending_approval",
        [("childId", .text childId), ("childFullName", .text childFullName), ("primaryUserId", .text primaryUserId),
          ("requesterUserId", .text requesterUserId), ("role", .text role)]⟩
  | notifyGuardianApproved kg childId guardianUserId approvedBy hasApprovalRights =>
      ⟨kg, "guardian.approved",
        [("childId", .text childId), ("guardianUserId", .text guardianUserId), ("approvedBy", .text approvedBy),
          ("hasApprovalRights", .flag hasApprovalRights)]⟩
  | notifyGuardianRejected kg childId guardianUserId rejectedBy =>
      ⟨kg, "guardian.rejected",
        [("childId", .text childId), ("guardianUserId", .text guardianUserId), ("rejectedBy", .text rejectedBy)]⟩
  | notifyGuardianRevoked kg childId guardianUserId revokedBy =>
      ⟨kg, "guardian.revoked",
        [("childId", .text childId), ("guardianUserId", .text guardianUserId), ("revokedBy", .text revokedBy)]⟩
  | notifyGuardianSelfRevoked kg childId userId revokedAt =>
      ⟨kg, "guardian.self_revoked",
        [("childId", .text childId), ("userId", .text userId), ("revokedAt", .text revokedAt)]⟩
  -- the recipients are not persisted
  | notifyChildTransferred kg childId fromGroupId toGroupId transferredBy _ =>
      ⟨kg, "child.transferred",
        [("childId", .text childId), ("fromGroupId", .ofOption fromGroupId), ("toGroupId", .text toGroupId),
          ("transferredBy", .text transferredBy)]⟩
  | notifyPermissionsUpdated kg childId guardianUserId updatedBy effectivePermissions =>
      ⟨kg, "guardian.permissions_updated",
        [("childId", .text childId), ("guardianUserId", .text guardianUserId), ("updatedBy", .text updatedBy),
          ("effectivePermissions", .object effectivePermissions)]⟩
  | notifyAttendanceCheckIn kg childId eventId recordedAt recordedByStaffMemberId =>
      ⟨kg, "attendance.checkin",
        [("childId", .text childId), ("eventId", .text eventId), ("recordedAt", .text recordedAt),
          ("recordedByStaffMemberId", .ofOption recordedByStaffMemberId)]⟩
  | notifyAttendanceCheckOut kg childId eventId recordedAt recordedByStaffMemberId pickupUserId pickupRequestId =>
      ⟨kg, "attendance.checkout",
        [("childId", .text childId), ("eventId", .text eventId), ("recordedAt", .text recordedAt),
          ("recordedByStaffMemberId", .ofOption recordedByStaffMemberId), ("pickupUserId", .ofOption pickupUserId),
          ("pickupRequestId", .ofOption pickupRequestId)]⟩
  | notifyDailyStatusChanged kg childId date status setByStaffMemberId =>
      ⟨kg, "daily_status.changed",
        [("childId", .text childId), ("date", .text date), ("status", .text status),
          ("setByStaffMemberId", .ofOption setByStaffMemberId)]⟩
  | notifyTimelineEntryCreated kg childId entryId entryType entryTime recordedByStaffMemberId =>
      ⟨kg, "timeline.entry_created",
        [("childId", .text childId), ("entryId", .text entryId), ("entryType", .text entryType),
          ("entryTime", .text entryTime), ("recordedByStaffMemberId", .ofOption recordedByStaffMemberId)]⟩
  | notifyPickupOtpSent kg childId pickupRequestId requesterUserId trustedPersonName =>
      ⟨kg, "pickup.otp_sent",
        [("childId", .text childId), ("pickupRequestId", .text pickupRequestId),
          ("requesterUserId", .text requesterUserId), ("trustedPersonName", .text trustedPersonName)]⟩
  | notifyPickupValidated kg childId pickupRequestId requesterUserId trustedPersonName attendanceEventId validatedAt =>
      ⟨kg, "pickup.validated",
        [("childId", .text childId), ("pickupRequestId", .text pickupRequestId),
          ("requesterUserId", .text requesterUserId), ("trustedPersonName", .text trustedPersonName),
          ("attendanceEventId", .text attendanceEventId), ("validatedAt", .text validatedAt)]⟩
  | notifyParentRequestAccepted kg parentRequestId childId requesterUserId requestType reviewedByStaffId =>
      ⟨kg, "request.accepted",
        [("parentRequestId", .text parentRequestId), ("childId", .text childId),
          ("requesterUserId", .text requesterUserId), ("requestType", .text requestType),
          ("reviewedByStaffId", .text reviewedByStaffId)]⟩
  | notifyParentRequestRejected kg parentRequestId childId requesterUserId requestType reviewedByStaffId =>
      ⟨kg, "request.rejected",
        [("parentRequestId", .text parentRequestId), ("childId", .text childId),
          ("requesterUserId", .text requesterUserId), ("requestType", .text requestType),
          ("reviewedByStaffId", .text reviewedByStaffId)]⟩
  | notifyParentRequestCancelled kg parentRequestId childId requesterUserId requestType recipientStaffId
      recipientStaffUserId =>
      ⟨kg, "request.cancelled",
        [("parentRequestId", .text parentRequestId), ("childId", .text childId),
          ("requesterUserId", .text requesterUserId), ("requestType", .text requestType),
          ("recipientStaffId", .ofOption recipientStaffId), ("recipientStaffUserId", .ofOption recipientStaffUserId)]⟩
  | notifyParentRequestMessageSent kg parentRequestId childId messageId authorRole authorUserId authorStaffId
      requesterUserId recipientStaffId recipientStaffUserId =>
      ⟨kg, "request.message_sent",
        [("parentRequestId", .text parentRequestId), ("childId", .text childId), ("messageId", .text messageId),
          ("authorRole", .text authorRole.value), ("authorUserId", .ofOption authorUserId),
          ("authorStaffId", .ofOption authorStaffId), ("requesterUserId", .text requesterUserId),
          ("recipientStaffId", .ofOption recipientStaffId), ("recipientStaffUserId", .ofOption recipientStaffUserId)]⟩
  | notifyInvoiceCreated kg invoiceId childId invoiceType amountAfterDiscount dueDate periodStart periodEnd =>
      ⟨kg, "invoice.created",
        [("invoiceId", .text invoiceId), ("childId", .text childId), ("invoiceType", .text invoiceType),
          ("amountAfterDiscount", .number amountAfterDiscount), ("dueDate", .text dueDate),
          ("periodStart", .text periodStart), ("periodEnd", .text periodEnd)]⟩
  | notifyInvoicePaid kg invoiceId childId amountAfterDiscount paidAt =>
      ⟨kg, "invoice.paid",
        [("invoiceId", .text invoiceId), ("childId", .text childId),
          ("amountAfterDiscount", .number amountAfterDiscount), ("paidAt", .text paidAt)]⟩
  | notifyInvoiceOverdue kg invoiceId childId amountAfterDiscount dueDate daysOverdue =>
      ⟨kg, "invoice.overdue",
        [("invoiceId", .text invoiceId), ("childId", .text childId),
          ("amountAfterDiscount", .number amountAfterDiscount), ("dueDate", .text dueDate),
          ("daysOverdue", .number daysOverdue)]⟩
  | notifyInvoiceCancelled kg invoiceId childId reason =>
      ⟨kg, "invoice.cancelled",
        [("invoiceId", .text invoiceId), ("childId", .text childId), ("reason", .ofOption reason)]⟩
  | notifyPaymentCompleted kg paymentId childId invoiceId amount provider paidAt =>
      ⟨kg, "payment.completed",
        [("paymentId", .text paymentId), ("childId", .text childId), ("invoiceId", .text invoiceId),
          ("amount", .number amount), ("provider", .text provider), ("paidAt", .text paidAt)]⟩
  | notifyPaymentFailed kg paymentId childId invoiceId amount provider failureReason =>
      ⟨kg, "payment.failed",
        [("paymentId", .text paymentId), ("childId", .text childId), ("invoiceId", .text invoiceId),
          ("amount", .number amount), ("provider", .text provider), ("failureReason", .text failureReason)]⟩
  | notifyPaymentRefunded kg paymentId childId invoiceId amount refundId =>
      ⟨kg, "payment.refunded",
        [("paymentId", .text paymentId), ("childId", .text childId), ("invoiceId", .text invoiceId),
          ("amount", .number amount), ("refundId", .text refundId)]⟩
  | notifyRefundProcessed kg refundId paymentId childId invoiceId amount processedBy =>
      ⟨kg, "refund.processed",
        [("refundId", .text refundId), ("paymentId", .text paymentId), ("childId", .text childId),
          ("invoiceId", .text invoiceId), ("amount", .number amount), ("processedBy", .text processedBy)]⟩
  | notifyEnrollmentFirstInvoiceSkipped kg enrollmentId childId reason recipientUserIds =>
      ⟨kg, "enrollment.first_invoice_skipped",
        [("enrollmentId", .text enrollmentId), ("childId", .text childId), ("reason", .text reason),
          ("recipientUserIds", .texts recipientUserIds)]⟩
  | notifyDiscountActivated kg discountId discountName targetChildIds notificationTitle notificationBody =>
      ⟨kg, "discount.activated",
        [("discountId", .text discountId), ("discountName", .object discountName),
          ("targetChildIds", .texts targetChildIds), ("notificationTitle", .ofObject notificationTitle),
          ("notificationBody", .ofObject notificationBody)]⟩
  | notifyDiagnosticNew kg childId entryId templateId templateName specialistId specialistType assessmentDate
      createdAt =>
      ⟨kg, "diagnostic.new",
        [("childId", .text childId), ("entryId", .text entryId), ("templateId", .text templateId),
          ("templateName", .text templateName), ("specialistId", .text specialistId),
          ("specialistType", .text specialistType), ("assessmentDate", .text assessmentDate),
          ("createdAt", .text createdAt)]⟩
  | notifyProgressNoteNew kg childId noteId mentorId notedAt createdAt =>
      ⟨kg, "progress_note.new",
        [("childId", .text childId), ("noteId", .text noteId), ("mentorId", .text mentorId),
          ("notedAt", .text notedAt), ("createdAt", .text createdAt)]⟩
  | notifyContentNewsPublished kg contentPostId targetType targetGroupId targetChildId titleI18n publishedAt =>
      ⟨kg, "content.news_published",
        [("contentPostId", .text contentPostId), ("targetType", .text targetType.value),
          ("targetGroupId", .ofOption targetGroupId), ("targetChildId", .ofOption targetChildId),
          ("titleI18n", .ofObject titleI18n), ("publishedAt", .text publishedAt)]⟩
  | notifyContentStoryNew kg storyId groupId mediaUrl mediaType createdBy createdAt =>
      ⟨kg, "content.story_new",
        [("storyId", .text storyId), ("groupId", .text groupId), ("mediaUrl", .text mediaUrl),
          ("mediaType", .text mediaType), ("createdBy", .text createdBy), ("createdAt", .text createdAt)]⟩
  | notifyContentQundylyqNew kg contentPostId titleI18n metadata publishedAt =>
      ⟨kg, "content.qundylyq_new",
        [("contentPostId", .text contentPostId), ("titleI18n", .ofObject titleI18n), ("metadata", .ofObject metadata),
          ("publishedAt", .text publishedAt)]⟩
  | notifyContentBirthday kg contentPostId targetChildId childFullName age publishedAt =>
      ⟨kg, "content.birthday",
        [("contentPostId", .text contentPostId), ("targetChildId", .text targetChildId),
          ("childFullName", .text childFullName), ("age", .number age), ("publishedAt", .text publishedAt)]⟩
  | notifyChildArchived kg childId archivedAt archiveReason archivedByStaffId =>
      ⟨kg, "child.archived",
        [("childId", .text childId), ("archivedAt", .text archivedAt), ("archiveReason", .text archiveReason),
          ("archivedByStaffId", .text archivedByStaffId)]⟩
  | notifyChildReactivated kg childId reactivatedAt reactivatedByStaffId =>
      ⟨kg, "child.reactivated",
        [("childId", .text childId), ("reactivatedAt", .text reactivatedAt),
          ("reactivatedByStaffId", .text reactivatedByStaffId)]⟩
  | notifyKaspiSessionExpired kg recipientUserIds =>
      ⟨kg, "kaspi.session_expired", [("recipientUserIds", .texts recipientUserIds)]⟩
  | notifyPaymentRefundRequired kg paymentId duplicateOfPaymentId invoiceId childId amount reason recipientUserIds =>
      ⟨kg, "payment.refund_required",
        [("paymentId", .text paymentId), ("duplicateOfPaymentId", .ofOption duplicateOfPaymentId),
          ("invoiceId", .text invoiceId), ("childId", .text childId), ("amount", .number amount),
          ("reason", .text reason), ("recipientUserIds", .texts recipientUserIds)]⟩

/-- The outbox row of a call. -/
def NotificationCall.event (call : NotificationCall) (id : Nat) (now : Int) : OutboxEvent :=
  .create id call.enqueued.kindergartenId call.enqueued.eventKey call.enqueued.payload now

end Notifications
