import Shyraq.ParentRequests.Paging

/-!
# When the pages are complete

The cursor is the last row of a page cut down to the millisecond.  Of two rows that a page edge
separates, a request must not be younger than that, and a message must be younger.
-/

namespace ParentRequests

open Kernel Transactions ParentRequestService

/-! ## Listings -/

/-- The four lists, each with what its caller chooses. -/
inductive RequestListing
  | forParent (kindergartenId requesterUserId : Nat) (filter : RequestFilter)
  | forParentCrossTenant (requesterUserId : Nat) (filter : RequestFilter)
  | staffInbox (kindergartenId : Nat) (role : StaffRole) (staffMemberId : Nat) (filter : RequestFilter)
  | allForAdmin (kindergartenId : Nat) (filter : RequestFilter)

namespace RequestListing

def page (tables : Tables) (limit : Option Int) :
    RequestListing → Option (List Char) → Except ParentRequestError (Page ListedRequest (List Char))
  | forParent kg user filter => listForParent tables kg user filter limit
  | forParentCrossTenant user filter => listForParentCrossTenant tables user filter limit
  | staffInbox kg role staff filter => listForStaffInbox tables kg role staff filter limit
  | allForAdmin kg filter => listAllForAdmin tables kg filter limit

/-- The requests that the caller may see and asks for. -/
def shows (groupOf : Nat → Option Nat) : RequestListing → ListedRequest → Bool
  | forParent kg user f => ParentRequestRepository.matching groupOf
      ⟨kg, f.status, f.type, f.childId, none, some user, none, none⟩
  | forParentCrossTenant user f => ParentRequestRepository.matchingCrossTenant ⟨user, f.status, f.type, f.childId⟩
  | staffInbox kg .admin _ f => ParentRequestRepository.matching groupOf
      ⟨kg, f.status, f.type, f.childId, f.groupId, none, none, none⟩
  | staffInbox kg .mentor staff f => ParentRequestRepository.matching groupOf
      ⟨kg, f.status, f.type, f.childId, f.groupId, none, some staff, none⟩
  | staffInbox kg .specialist staff f => ParentRequestRepository.matching groupOf
      ⟨kg, f.status, f.type, f.childId, f.groupId, none, some staff, none⟩
  | staffInbox _ .reception _ _ => fun _ => false
  | allForAdmin kg f => ParentRequestRepository.matching groupOf
      ⟨kg, f.status, f.type, f.childId, f.groupId, none, none, f.recipientType⟩

end RequestListing

/-- Every matching request in (created_at DESC, id DESC) order. -/
def requestsInOrder (requests : List ListedRequest) (matching : ListedRequest → Bool) : List ListedRequest :=
  (requests.filter matching).insertionSort ParentRequestRepository.listed

/-- Every message of a thread in (created_at ASC, id ASC) order. -/
def threadInOrder (messages : List ParentRequestMessage) (parentRequestId kindergartenId : Nat) :
    List ParentRequestMessage :=
  (messages.filter (ParentRequestMessageRepository.inThread parentRequestId kindergartenId)).insertionSort
    ParentRequestMessageRepository.listed

/-- Rows of a table whose key is a uuid and whose times a `Date` can hold. -/
structure RequestRows (requests : List ListedRequest) : Prop where
  ids : Table.Unique requests
  uuids : ∀ r ∈ requests, r.id < uuidBound
  times : ∀ r ∈ requests, -maxTime ≤ toDate r.createdAt ∧ toDate r.createdAt ≤ maxTime

/-- Rows of a table with a key, created in the years 1 to 9999: their ISO text is a timestamp for the database. -/
structure MessageRows (messages : List ParentRequestMessage) : Prop where
  ids : Table.Unique messages
  times : ∀ m ∈ messages, -62135596800000000 ≤ m.createdAt ∧ m.createdAt < 253402300800000000

/-- The row `n` comes after the millisecond and the id of `b`. -/
def RequestEdge (b n : ListedRequest) : Prop :=
  n.createdAt < ofDate (toDate b.createdAt) ∨ n.createdAt = ofDate (toDate b.createdAt) ∧ n.id < b.id

instance (b n : ListedRequest) : Decidable (RequestEdge b n) := inferInstanceAs (Decidable (_ ∨ _))

/-- The message `b` is of a whole millisecond and `n` is younger. -/
def MessageEdge (b n : ParentRequestMessage) : Prop :=
  ofDate (toDate b.createdAt) = b.createdAt ∧ b.createdAt < n.createdAt

instance (b n : ParentRequestMessage) : Decidable (MessageEdge b n) := inferInstanceAs (Decidable (_ ∧ _))

theorem ofDate_toDate_le (t : Int) : ofDate (toDate t) ≤ t := by
  unfold ofDate toDate
  omega

/-! ## Cursors -/

theorem decode_encodeParentRequestCursor {cursor : ParentRequestCursor} (hmin : -maxTime ≤ cursor.createdAt)
    (hmax : cursor.createdAt ≤ maxTime) :
    decodeParentRequestCursor (some (encodeParentRequestCursor cursor)) = .ok (some cursor) := by
  have hne : encodeParentRequestCursor cursor ≠ [] := encode_ne_nil base64_known (List.cons_ne_nil _ _)
  have hparsed : parseJson (utf8Decode (base64Decode (encodeParentRequestCursor cursor))) =
      some (.object [("createdAt".toList, .string (toISOString cursor.createdAt)), ("id".toList, .string cursor.id)]) := by
    unfold encodeParentRequestCursor
    rw [base64Decode_encode base64_known, utf8Decode_utf8, parseJson_stringifyPair]
  have hdate : JsonValue.member "createdAt".toList (.object [("createdAt".toList,
      .string (toISOString cursor.createdAt)), ("id".toList, .string cursor.id)]) =
      some (.string (toISOString cursor.createdAt)) := rfl
  have hid : JsonValue.member "id".toList (.object [("createdAt".toList,
      .string (toISOString cursor.createdAt)), ("id".toList, .string cursor.id)]) = some (.string cursor.id) := rfl
  unfold decodeParentRequestCursor
  rw [Option.filter_some, if_pos (decide_eq_true hne)]
  dsimp only
  rw [hparsed]
  dsimp only
  rw [hdate, hid]
  dsimp only
  rw [parseDate_toISOString hmin hmax]

theorem clampLimit_pos (raw : Option Int) {fallback max : Nat} (hf : 0 < fallback) (hm : 0 < max) :
    0 < clampLimit raw fallback max := by
  unfold clampLimit
  cases raw with
  | none => exact hf
  | some n =>
    dsimp only
    split
    · exact Nat.one_pos
    · split
      · exact hm
      · omega

/-! ## Requests -/

section Requests

open ParentRequestRepository

/-- The row `n` is past the cursor of `b`. -/
def behind (b n : ListedRequest) : Bool := before (ofDate (toDate b.createdAt)) b.id n

theorem behind_iff {b n : ListedRequest} : behind b n = true ↔ RequestEdge b n := by
  unfold behind before RequestEdge
  simp

instance : Std.Total listed where
  total a b := by
    unfold listed
    omega

instance : IsTrans ListedRequest listed where
  trans a b c := by
    unfold listed
    omega

variable {requests : List ListedRequest}

theorem eq_of_listed (h : RequestRows requests) {a b : ListedRequest} (ha : a ∈ requests) (hb : b ∈ requests)
    (hab : listed a b) (hba : listed b a) : a = b := by
  have hid : Row.id a = Row.id b := by
    show a.id = b.id
    unfold listed at hab hba
    omega
  have hfind := Table.find_of_mem h.ids ha
  rw [hid, Table.find_of_mem h.ids hb] at hfind
  exact (Option.some.inj hfind).symm

theorem mem_requestsInOrder {matching : ListedRequest → Bool} {r : ListedRequest} :
    r ∈ requestsInOrder requests matching ↔ r ∈ requests ∧ matching r = true := by
  unfold requestsInOrder
  rw [List.mem_insertionSort, List.mem_filter]

theorem select_serves (h : RequestRows requests) (matching : ListedRequest → Bool) (limit : Option Int) :
    Serves (listPage (select requests matching) limit) (requestsInOrder requests matching) behind mark
      (clampLimit limit 50 100) where
  first := rfl
  later b hb := by
    have hmem := (mem_requestsInOrder.1 hb).1
    obtain ⟨hmin, hmax⟩ := h.times b hmem
    have hdecoded : decodeParentRequestCursor (some (mark b)) = .ok (some ⟨toDate b.createdAt, uuidText b.id⟩) :=
      decode_encodeParentRequestCursor hmin hmax
    have htie : ∀ x ∈ requests.filter matching, ∀ y ∈ requests.filter matching, listed x y → listed y x → x = y :=
      fun x hx y hy => eq_of_listed h (List.mem_filter.1 hx).1 (List.mem_filter.1 hy).1
    have hselected : select requests matching (some ⟨toDate b.createdAt, uuidText b.id⟩)
        (clampLimit limit 50 100 + 1) =
        .ok (((requestsInOrder requests matching).filter (behind b)).take (clampLimit limit 50 100 + 1)) := by
      unfold select requestsInOrder
      dsimp only
      rw [readUuid_uuidText (h.uuids b hmem), filter_insertionSort htie]
      rfl
    unfold listPage
    rw [hdecoded]
    show (select requests matching _ (clampLimit limit 50 100 + 1) >>= fun items => pure (shapePage _ _ items)) = _
    rw [hselected]
    rfl

theorem cuts_behind (matching : ListedRequest → Bool) : Cuts behind (requestsInOrder requests matching) := by
  intro b
  have hsorted : (requestsInOrder requests matching).Pairwise listed := List.pairwise_insertionSort _ _
  refine hsorted.imp fun {r r'} hr hb => ?_
  rw [behind_iff] at hb ⊢
  unfold RequestEdge at hb ⊢
  unfold listed at hr
  omega

theorem nodup_requestsInOrder (h : RequestRows requests) (matching : ListedRequest → Bool) :
    (requestsInOrder requests matching).Nodup := by
  have hall : requests.Nodup := List.Nodup.of_map _ h.ids
  exact (List.perm_insertionSort _ _).nodup_iff.2 (hall.filter _)

theorem edgesCut_behind_iff {limit : Nat} {rows : List ListedRequest} :
    EdgesCut behind limit rows ↔ ∀ b n, PageEdge limit rows b n → RequestEdge b n := by
  have hself : ∀ b, behind b b = false := by
    intro b
    have := ofDate_toDate_le b.createdAt
    rw [Bool.eq_false_iff, ne_eq, behind_iff]
    unfold RequestEdge
    omega
  constructor
  · exact fun h b n hbn => behind_iff.1 (h b n hbn).2
  · exact fun h b n hbn => ⟨hself b, behind_iff.2 (h b n hbn)⟩

theorem follows_select_iff (h : RequestRows requests) (matching : ListedRequest → Bool) (limit : Option Int) :
    Follows (listPage (select requests matching) limit) none (requestsInOrder requests matching) ↔
      ∀ b n, PageEdge (clampLimit limit 50 100) (requestsInOrder requests matching) b n → RequestEdge b n :=
  ((select_serves h matching limit).follows_iff (clampLimit_pos limit (by decide) (by decide))
    (cuts_behind matching) (nodup_requestsInOrder h matching)).trans edgesCut_behind_iff

theorem follows_list_iff (tables : Tables) (h : RequestRows tables.requests) (listing : RequestListing)
    (limit : Option Int) : Follows (listing.page tables limit) none
        (requestsInOrder tables.requests (listing.shows tables.groupOf)) ↔
      ∀ b n, PageEdge (clampLimit limit 50 100)
        (requestsInOrder tables.requests (listing.shows tables.groupOf)) b n → RequestEdge b n := by
  cases listing with
  | forParent kg user filter => exact follows_select_iff h _ limit
  | forParentCrossTenant user filter => exact follows_select_iff h _ limit
  | allForAdmin kg filter => exact follows_select_iff h _ limit
  | staffInbox kg role staff filter =>
    cases role with
    | admin => exact follows_select_iff h _ limit
    | mentor => exact follows_select_iff h _ limit
    | specialist => exact follows_select_iff h _ limit
    | reception =>
      have hnone : requestsInOrder tables.requests
          ((RequestListing.staffInbox kg .reception staff filter).shows tables.groupOf) = [] := by
        have hempty : tables.requests.filter
            ((RequestListing.staffInbox kg .reception staff filter).shows tables.groupOf) = [] :=
          List.filter_eq_nil_iff.2 fun r _ hr => Bool.false_ne_true hr
        unfold requestsInOrder
        rw [hempty]
        rfl
      rw [hnone]
      constructor
      · rintro - b n ⟨i, -, hb, -⟩
        cases hb
      · exact fun _ => .last rfl

end Requests

/-! ## Messages -/

section Messages

open ParentRequestMessageRepository

/-- The message `n` is past the cursor of `b`. -/
def since (b n : ParentRequestMessage) : Bool := decide (ofDate (toDate b.createdAt) < n.createdAt)

instance : Std.Total (α := ParentRequestMessage) listed where
  total a b := by
    unfold listed
    omega

instance : IsTrans ParentRequestMessage listed where
  trans a b c := by
    unfold listed
    omega

variable {messages : List ParentRequestMessage}

theorem eq_of_listed_messages (h : MessageRows messages) {a b : ParentRequestMessage} (ha : a ∈ messages)
    (hb : b ∈ messages) (hab : listed a b) (hba : listed b a) : a = b := by
  have hid : Row.id a = Row.id b := by
    show a.id = b.id
    unfold listed at hab hba
    omega
  have hfind := Table.find_of_mem h.ids ha
  rw [hid, Table.find_of_mem h.ids hb] at hfind
  exact (Option.some.inj hfind).symm

theorem parseDate_markMessage (h : MessageRows messages) {b : ParentRequestMessage} (hb : b ∈ messages) :
    parseDate (markMessage b) = some (toDate b.createdAt) := by
  obtain ⟨hmin, hmax⟩ := h.times b hb
  have hrange : -maxTime ≤ toDate b.createdAt ∧ toDate b.createdAt ≤ maxTime := by
    unfold toDate maxTime
    omega
  exact parseDate_toISOString hrange.1 hrange.2

theorem messages_serve (tables : Tables) (h : MessageRows tables.messages) (kindergartenId parentRequestId : Nat)
    (limit : Option Int) : Serves (listMessagesInternal tables kindergartenId parentRequestId limit)
      (threadInOrder tables.messages parentRequestId kindergartenId) since markMessage (clampLimit limit 50 200) where
  first := rfl
  later b hb := by
    have hmem : b ∈ tables.messages := by
      unfold threadInOrder at hb
      exact (List.mem_filter.1 ((List.mem_insertionSort _).1 hb)).1
    have hne : markMessage b ≠ [] := List.append_ne_nil_of_right_ne_nil _ (List.cons_ne_nil _ _)
    have htie : ∀ x ∈ tables.messages.filter (inThread parentRequestId kindergartenId),
        ∀ y ∈ tables.messages.filter (inThread parentRequestId kindergartenId), listed x y → listed y x → x = y :=
      fun x hx y hy => eq_of_listed_messages h (List.mem_filter.1 hx).1 (List.mem_filter.1 hy).1
    have hlisted : listByRequestId tables.messages parentRequestId kindergartenId (clampLimit limit 50 200 + 1)
        (some (markMessage b)) = .ok (((threadInOrder tables.messages parentRequestId kindergartenId).filter
          (since b)).take (clampLimit limit 50 200 + 1)) := by
      unfold listByRequestId threadInOrder
      dsimp only
      rw [Option.filter_some, if_pos (decide_eq_true hne)]
      dsimp only
      rw [parseDate_markMessage h hmem, filter_insertionSort htie]
      rfl
    unfold listMessagesInternal
    dsimp only
    rw [hlisted]
    rfl

theorem cuts_since (parentRequestId kindergartenId : Nat) :
    Cuts since (threadInOrder messages parentRequestId kindergartenId) := by
  intro b
  have hsorted : (threadInOrder messages parentRequestId kindergartenId).Pairwise listed :=
    List.pairwise_insertionSort _ _
  refine hsorted.imp fun {r r'} hr hb => ?_
  unfold since at hb ⊢
  rw [decide_eq_true_iff] at hb ⊢
  unfold listed at hr
  omega

theorem edgesCut_since_iff {limit : Nat} {rows : List ParentRequestMessage} :
    EdgesCut since limit rows ↔ ∀ b n, PageEdge limit rows b n → MessageEdge b n := by
  have hiff : ∀ b n, since b b = false ∧ since b n = true ↔ MessageEdge b n := by
    intro b n
    have hle := ofDate_toDate_le b.createdAt
    unfold since MessageEdge
    rw [decide_eq_true_iff, decide_eq_false_iff_not]
    omega
  constructor
  · exact fun h b n hbn => (hiff b n).1 (h b n hbn)
  · exact fun h b n hbn => (hiff b n).2 (h b n hbn)

theorem follows_messages_iff (tables : Tables) (h : MessageRows tables.messages)
    (kindergartenId parentRequestId : Nat) (limit : Option Int) :
    Follows (listMessagesInternal tables kindergartenId parentRequestId limit) none
        (threadInOrder tables.messages parentRequestId kindergartenId) ↔
      ∀ b n, PageEdge (clampLimit limit 50 200) (threadInOrder tables.messages parentRequestId kindergartenId) b n →
        MessageEdge b n := by
  have hall : tables.messages.Nodup := List.Nodup.of_map _ h.ids
  have hd : (threadInOrder tables.messages parentRequestId kindergartenId).Nodup :=
    (List.perm_insertionSort _ _).nodup_iff.2 (hall.filter _)
  exact ((messages_serve tables h kindergartenId parentRequestId limit).follows_iff
    (clampLimit_pos limit (by decide) (by decide)) (cuts_since parentRequestId kindergartenId) hd).trans
    edgesCut_since_iff

end Messages

/-! ## Both listings -/

/-- The pages are complete exactly if at every page edge the next request does not come before the
millisecond and the id of the last one, and the last message is of a whole millisecond that the next
one does not share. -/
theorem pages_complete_iff (tables : Tables) (hr : RequestRows tables.requests) (hm : MessageRows tables.messages)
    (listing : RequestListing) (kindergartenId parentRequestId : Nat) (limit : Option Int) :
    (Follows (listing.page tables limit) none
        (requestsInOrder tables.requests (listing.shows tables.groupOf)) ↔
      ∀ b n, PageEdge (clampLimit limit 50 100)
        (requestsInOrder tables.requests (listing.shows tables.groupOf)) b n → RequestEdge b n) ∧
    (Follows (listMessagesInternal tables kindergartenId parentRequestId limit) none
        (threadInOrder tables.messages parentRequestId kindergartenId) ↔
      ∀ b n, PageEdge (clampLimit limit 50 200) (threadInOrder tables.messages parentRequestId kindergartenId) b n →
        MessageEdge b n) :=
  ⟨follows_list_iff tables hr listing limit, follows_messages_iff tables hm kindergartenId parentRequestId limit⟩

/-- Two requests and two messages, each pair within one millisecond. -/
def sameMillisecond : Tables :=
  let request (id : Nat) : ParentRequest :=
    ⟨id, 3, 4, .dayOff, .pending, none, none, [], some .admin, none, none, none, none, none⟩
  { requests := [{ request 1 with kindergartenId := 2, createdAt := 1752393600000500 },
      { request 2 with kindergartenId := 2, createdAt := 1752393600000900 }]
    messages := [⟨5, 2, 1, some 4, none, "first", none, 1752393600000500⟩,
      ⟨6, 2, 1, some 4, none, "second", none, 1752393600000900⟩]
    groupOf := fun _ => none }

/-- All requests of the kindergarten. -/
def everyRequest : RequestListing := .allForAdmin 2 ⟨none, none, none, none, none⟩

theorem requestRows_sameMillisecond : RequestRows sameMillisecond.requests :=
  ⟨by unfold Table.Unique; decide, by decide, by decide⟩

theorem messageRows_sameMillisecond : MessageRows sameMillisecond.messages :=
  ⟨by unfold Table.Unique; decide, by decide⟩

theorem pages_complete_iff_sameMillisecond :
    (Follows (everyRequest.page sameMillisecond (some 2)) none
        (requestsInOrder sameMillisecond.requests (everyRequest.shows sameMillisecond.groupOf)) ↔
      ∀ b n, PageEdge (clampLimit (some 2) 50 100)
        (requestsInOrder sameMillisecond.requests (everyRequest.shows sameMillisecond.groupOf)) b n →
          RequestEdge b n) ∧
    (Follows (listMessagesInternal sameMillisecond 2 1 (some 2)) none
        (threadInOrder sameMillisecond.messages 1 2) ↔
      ∀ b n, PageEdge (clampLimit (some 2) 50 200) (threadInOrder sameMillisecond.messages 1 2) b n →
        MessageEdge b n) :=
  pages_complete_iff sameMillisecond requestRows_sameMillisecond messageRows_sameMillisecond everyRequest 2 1 (some 2)

/-- One row on a page: the older request is skipped, and the first message comes again for ever. -/
theorem pages_incomplete :
    RequestRows sameMillisecond.requests ∧ MessageRows sameMillisecond.messages ∧
    ¬Follows (everyRequest.page sameMillisecond (some 1)) none
      (requestsInOrder sameMillisecond.requests (everyRequest.shows sameMillisecond.groupOf)) ∧
    ¬Follows (listMessagesInternal sameMillisecond 2 1 (some 1)) none (threadInOrder sameMillisecond.messages 1 2) := by
  refine ⟨requestRows_sameMillisecond, messageRows_sameMillisecond, ?_, ?_⟩
  · rw [follows_list_iff sameMillisecond requestRows_sameMillisecond]
    intro h
    have hedge := h _ _ ⟨0, by decide, rfl, rfl⟩
    exact absurd hedge (by decide)
  · rw [follows_messages_iff sameMillisecond messageRows_sameMillisecond]
    intro h
    have hedge := h _ _ ⟨0, by decide, rfl, rfl⟩
    exact absurd hedge (by decide)

end ParentRequests
