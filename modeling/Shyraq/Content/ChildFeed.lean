import Mathlib.Data.Prod.Lex
import Shyraq.Kernel.Newest
import Shyraq.Content.Entities

/-!
# The feed of a child

`ContentFeedService.getParentChildFeed` puts together the sections of a child's feed, each from a query of its own.
A section shows the newest posts for the child exactly when the posts that its query gets wrong lie behind enough
others.
-/

namespace Content

open Kernel

/-! ## The tables -/

/-- A row of `content_posts`. -/
structure PostRow where
  kindergartenId : Nat
  createdAt : Int
  post : ContentPost
  deriving DecidableEq

inductive StoryMediaType
  | image | video
  deriving DecidableEq

/-- A row of `group_stories`. -/
structure GroupStory where
  id : Nat
  kindergartenId : Nat
  groupId : Nat
  createdBy : Nat
  mediaUrl : String
  mediaType : StoryMediaType
  caption : Option String
  views : Nat
  expiresAt : Int
  createdAt : Int
  deriving DecidableEq

/-- What the feed reads of `children`. -/
structure ChildRow where
  id : Nat
  kindergartenId : Nat
  currentGroupId : Option Nat

/-- The tables with their primary keys. -/
structure FeedStore where
  posts : List PostRow
  stories : List GroupStory
  children : List ChildRow
  postIds : (posts.map fun row => row.post.id).Nodup
  storyIds : (stories.map GroupStory.id).Nodup

/-- `created_at, id`. -/
def PostRow.createdKey (row : PostRow) : Lex (Int × Nat) := toLex (row.createdAt, row.post.id)

/-- `COALESCE(published_at, created_at), created_at, id`. -/
def PostRow.publishedKey (row : PostRow) : Lex (Int × Lex (Int × Nat)) :=
  toLex (row.post.publishedAt.getD row.createdAt, row.createdKey)

/-- `created_at, id`. -/
def GroupStory.createdKey (story : GroupStory) : Lex (Int × Nat) := toLex (story.createdAt, story.id)

def ChildRepository.findById (s : FeedStore) (kindergartenId id : Nat) : Option ChildRow :=
  s.children.find? fun c => c.id == id && c.kindergartenId == kindergartenId

/-! ## The queries -/

/-- An absent filter constrains nothing. -/
structure ListContentFilters where
  contentType : Option ContentType := none
  status : Option ContentStatus := none
  targetType : Option ContentTargetType := none
  targetGroupId : Option Nat := none
  targetChildId : Option Nat := none
  scheduledFrom : Option Int := none
  scheduledTo : Option Int := none
  publishedFrom : Option Int := none
  publishedTo : Option Int := none
  cursorCreatedAt : Option Int := none
  cursorId : Option Nat := none
  limit : Option Int := none

namespace ContentRepository

/-- Only a cursor with both its parts counts. -/
def isPastCursor (filters : ListContentFilters) (row : PostRow) : Bool :=
  match filters.cursorCreatedAt, filters.cursorId with
  | some cursorCreatedAt, some cursorId => decide (row.createdKey < toLex (cursorCreatedAt, cursorId))
  | _, _ => true

/-- The `WHERE` clause of `list`. -/
def isListed (kindergartenId : Nat) (filters : ListContentFilters) (row : PostRow) : Bool :=
  row.kindergartenId == kindergartenId &&
  filters.contentType.all (fun ct => row.post.contentType == ct) &&
  filters.status.all (fun st => row.post.status == st) &&
  filters.targetType.all (fun tt => row.post.targetType == tt) &&
  filters.targetGroupId.all (fun tgid => row.post.targetGroupId == some tgid) &&
  filters.targetChildId.all (fun tcid => row.post.targetChildId == some tcid) &&
  filters.scheduledFrom.all (fun sf => row.post.scheduledFor.any fun t => decide (sf ≤ t)) &&
  filters.scheduledTo.all (fun st2 => row.post.scheduledFor.any fun t => decide (t ≤ st2)) &&
  filters.publishedFrom.all (fun pf => row.post.publishedAt.any fun t => decide (pf ≤ t)) &&
  filters.publishedTo.all (fun pt => row.post.publishedAt.any fun t => decide (t ≤ pt)) &&
  isPastCursor filters row

def list (s : FeedStore) (kindergartenId : Nat) (filters : ListContentFilters) : List PostRow :=
  newest PostRow.createdKey (capOf (filters.limit.getD 0) 50) (s.posts.filter (isListed kindergartenId filters))

/-- The `WHERE` clause of `listNewsForChild`. -/
def isNewsForChild (kindergartenId childId : Nat) (groupId : Option Nat) (row : PostRow) : Bool :=
  row.kindergartenId == kindergartenId && row.post.contentType == .news && row.post.status == .published &&
    (row.post.targetType == .all ||
      groupId.any (fun gid => row.post.targetType == .group && row.post.targetGroupId == some gid) ||
      (row.post.targetType == .child && row.post.targetChildId == some childId))

def listNewsForChild (s : FeedStore) (kindergartenId childId : Nat) (groupId : Option Nat) (limit : Int) :
    List PostRow :=
  newest PostRow.publishedKey (capOf limit 10) (s.posts.filter (isNewsForChild kindergartenId childId groupId))

end ContentRepository

/-- The `WHERE` clause of `listActiveByGroup`. -/
def GroupStoryRepository.isActive (kindergartenId groupId : Nat) (now : Int) (story : GroupStory) : Bool :=
  story.kindergartenId == kindergartenId && story.groupId == groupId && decide (now < story.expiresAt)

def GroupStoryRepository.listActiveByGroup (s : FeedStore) (kindergartenId groupId : Nat) (now : Int) :
    List GroupStory :=
  newestFirst GroupStory.createdKey (s.stories.filter (isActive kindergartenId groupId now))

/-! ## The feed -/

structure ContentFeedResult where
  news : List PostRow
  qundylyq : List PostRow
  birthdays : List PostRow
  stories : List GroupStory

namespace ContentFeedService

def defaultFeedLimit : Int := 10

/-- The filters of the section `qundylyq`. -/
def qundylyqFilters (limit : Int) : ListContentFilters :=
  { contentType := some .qundylyq, status := some .published, limit := some limit }

/-- The filters of the section `birthdays`. -/
def birthdayFilters (childId : Nat) (limit : Int) : ListContentFilters :=
  { contentType := some .birthday, status := some .published, targetChildId := some childId, limit := some limit }

def getParentChildFeed (s : FeedStore) (now : Int) (kindergartenId childId : Nat) (limit : Option Int) :
    Except ContentError ContentFeedResult :=
  match ChildRepository.findById s kindergartenId childId with
  | none => .error (.childNotFound childId)
  | some child =>
      let limit := limit.getD defaultFeedLimit
      .ok {
        news := ContentRepository.listNewsForChild s kindergartenId childId child.currentGroupId limit
        qundylyq := ContentRepository.list s kindergartenId (qundylyqFilters limit)
        birthdays := ContentRepository.list s kindergartenId (birthdayFilters childId limit)
        stories :=
          match child.currentGroupId with
          | some groupId => GroupStoryRepository.listActiveByGroup s kindergartenId groupId now
          | none => [] }

end ContentFeedService

/-! ## What is for the child -/

/-- The group the child is in now. -/
def FeedStore.groupOf (s : FeedStore) (kindergartenId childId : Nat) : Option Nat :=
  (ChildRepository.findById s kindergartenId childId).bind ChildRow.currentGroupId

def ContentPost.expired (now : Int) (post : ContentPost) : Bool := post.expiresAt.any fun t => decide (t < now)

/-- At the whole kindergarten, the group or the child. -/
def ContentPost.targetedAt (groupId : Option Nat) (childId : Nat) (post : ContentPost) : Bool :=
  match post.targetType with
  | .all => true
  | .group => groupId.any fun gid => post.targetGroupId == some gid
  | .child => post.targetChildId == some childId

/-- A published post of the kindergarten, of this type. -/
def PostRow.publishedAs (kindergartenId : Nat) (contentType : ContentType) (row : PostRow) : Bool :=
  row.kindergartenId == kindergartenId && row.post.contentType == contentType && row.post.status == .published

/-- A post of the section that is for the child. -/
def PostRow.isFor (kindergartenId childId : Nat) (groupId : Option Nat) (now : Int) (contentType : ContentType)
    (row : PostRow) : Bool :=
  row.publishedAs kindergartenId contentType && (row.post.targetedAt groupId childId && !row.post.expired now)

/-- A story that is for the child. -/
def GroupStory.isFor (kindergartenId : Nat) (groupId : Option Nat) (now : Int) (story : GroupStory) : Bool :=
  groupId.any fun gid => GroupStoryRepository.isActive kindergartenId gid now story

/-- What the feed of a child owes: nothing but what is for the child, and the newest of it. -/
structure FeedTargeted (s : FeedStore) (now : Int) (kindergartenId childId : Nat) (limit : Int)
    (feed : ContentFeedResult) : Prop where
  posts : ∀ row ∈ feed.news ++ feed.qundylyq ++ feed.birthdays,
    row.kindergartenId = kindergartenId ∧ row.post.status = .published ∧ row.post.expired now = false ∧
      row.post.targetedAt (s.groupOf kindergartenId childId) childId = true
  shown : ∀ story ∈ feed.stories, story.kindergartenId = kindergartenId ∧ now < story.expiresAt ∧
    s.groupOf kindergartenId childId = some story.groupId
  news : feed.news = newest PostRow.publishedKey limit.toNat
    (s.posts.filter (PostRow.isFor kindergartenId childId (s.groupOf kindergartenId childId) now .news))
  qundylyq : feed.qundylyq = newest PostRow.createdKey limit.toNat
    (s.posts.filter (PostRow.isFor kindergartenId childId (s.groupOf kindergartenId childId) now .qundylyq))
  birthdays : feed.birthdays = newest PostRow.createdKey limit.toNat
    (s.posts.filter (PostRow.isFor kindergartenId childId (s.groupOf kindergartenId childId) now .birthday))
  stories : feed.stories = newest GroupStory.createdKey limit.toNat
    (s.stories.filter (GroupStory.isFor kindergartenId (s.groupOf kindergartenId childId) now))

/-! ## The posts a query gets wrong -/

/-- A published greeting that the section takes for one of the child. -/
def PostRow.isGreeting (kindergartenId childId : Nat) (row : PostRow) : Bool :=
  row.publishedAs kindergartenId .birthday && row.post.targetChildId == some childId

/-- Behind enough rows that the query selects. -/
def OutOfReach {K : Type} [LinearOrder K] (key : PostRow → K) (selected : PostRow → Bool) (limit : Int) (s : FeedStore)
    (row : PostRow) : Prop :=
  limit.toNat ≤ ahead key selected s.posts row

instance {K : Type} [LinearOrder K] (key : PostRow → K) (selected : PostRow → Bool) (limit : Int) (s : FeedStore)
    (row : PostRow) : Decidable (OutOfReach key selected limit s row) := inferInstanceAs (Decidable (_ ≤ _))

/-- What a section gets wrong is out of reach, and its stories are few. -/
structure FeedInReach (s : FeedStore) (now : Int) (kindergartenId childId : Nat) (limit : Int) : Prop where
  /-- Without a positive limit there is nothing to show. -/
  empty : limit ≤ 0 → ∀ row ∈ s.posts,
    ContentRepository.isNewsForChild kindergartenId childId (s.groupOf kindergartenId childId) row = false ∧
      row.publishedAs kindergartenId .qundylyq = false ∧ row.isGreeting kindergartenId childId = false
  /-- News that are past their date. -/
  news : ∀ row ∈ s.posts,
    ContentRepository.isNewsForChild kindergartenId childId (s.groupOf kindergartenId childId) row = true →
    row.post.expired now = true →
    OutOfReach PostRow.publishedKey
      (ContentRepository.isNewsForChild kindergartenId childId (s.groupOf kindergartenId childId)) limit s row
  /-- Posts that are past their date, or for others. -/
  qundylyq : ∀ row ∈ s.posts, row.publishedAs kindergartenId .qundylyq = true →
    (row.post.targetedAt (s.groupOf kindergartenId childId) childId = false ∨ row.post.expired now = true) →
    OutOfReach PostRow.createdKey (PostRow.publishedAs kindergartenId .qundylyq) limit s row
  /-- Greetings that are past their date or for others, and greetings for all or for the group. -/
  birthdays : ∀ row ∈ s.posts, row.publishedAs kindergartenId .birthday = true →
    (row.post.targetedAt (s.groupOf kindergartenId childId) childId && !row.post.expired now) ≠
      (row.post.targetChildId == some childId) →
    OutOfReach PostRow.createdKey (PostRow.isGreeting kindergartenId childId) limit s row
  stories : (s.stories.filter (GroupStory.isFor kindergartenId (s.groupOf kindergartenId childId) now)).length ≤
    limit.toNat

/-! ## Each section -/

theorem PostRow.id_of_createdKey {a b : PostRow} (h : a.createdKey = b.createdKey) : a.post.id = b.post.id :=
  (Prod.mk.inj (toLex.injective h)).2

theorem FeedStore.keyed_created (s : FeedStore) : Keyed PostRow.createdKey s.posts :=
  .of_ids s.postIds fun _ _ => PostRow.id_of_createdKey

theorem FeedStore.keyed_published (s : FeedStore) : Keyed PostRow.publishedKey s.posts :=
  .of_ids s.postIds fun _ _ h => PostRow.id_of_createdKey (Prod.mk.inj (toLex.injective h)).2

section

variable {s : FeedStore} {now : Int} {kindergartenId childId : Nat} {groupId : Option Nat} {limit : Int}
  {row : PostRow}

theorem isNewsForChild_eq : ContentRepository.isNewsForChild kindergartenId childId groupId row =
    (row.publishedAs kindergartenId .news && row.post.targetedAt groupId childId) := by
  unfold ContentRepository.isNewsForChild PostRow.publishedAs ContentPost.targetedAt
  cases row.post.targetType with
  | all => simp
  | group =>
    have hall : (ContentTargetType.group == .all) = false := rfl
    have hchild : (ContentTargetType.group == .child) = false := rfl
    cases groupId <;> simp [hall, hchild]
  | child =>
    have hall : (ContentTargetType.child == .all) = false := rfl
    have hgroup : (ContentTargetType.child == .group) = false := rfl
    cases groupId <;> simp [hall, hgroup]

theorem isListed_qundylyq : ContentRepository.isListed kindergartenId (ContentFeedService.qundylyqFilters limit) row =
    row.publishedAs kindergartenId .qundylyq := by
  simp [ContentRepository.isListed, ContentRepository.isPastCursor, ContentFeedService.qundylyqFilters,
    PostRow.publishedAs]

theorem isListed_birthday :
    ContentRepository.isListed kindergartenId (ContentFeedService.birthdayFilters childId limit) row =
      row.isGreeting kindergartenId childId := by
  simp [ContentRepository.isListed, ContentRepository.isPastCursor, ContentFeedService.birthdayFilters,
    PostRow.isGreeting, PostRow.publishedAs]

theorem news_iff : ContentRepository.listNewsForChild s kindergartenId childId groupId limit =
      newest PostRow.publishedKey limit.toNat
        (s.posts.filter (PostRow.isFor kindergartenId childId groupId now .news)) ↔
    (limit ≤ 0 → ∀ row ∈ s.posts, ContentRepository.isNewsForChild kindergartenId childId groupId row = false) ∧
      ∀ row ∈ s.posts, ContentRepository.isNewsForChild kindergartenId childId groupId row = true →
        row.post.expired now = true →
        OutOfReach PostRow.publishedKey (ContentRepository.isNewsForChild kindergartenId childId groupId) limit s row := by
  unfold ContentRepository.listNewsForChild
  rw [newest_capped_eq_iff s.keyed_published _ _ limit (by decide)]
  refine and_congr_right fun _ => forall₂_congr fun row _ => ?_
  have hdiffers : PostRow.isFor kindergartenId childId groupId now .news row ≠
        ContentRepository.isNewsForChild kindergartenId childId groupId row ↔
      ContentRepository.isNewsForChild kindergartenId childId groupId row = true ∧ row.post.expired now = true := by
    rw [isNewsForChild_eq]
    unfold PostRow.isFor
    cases row.publishedAs kindergartenId .news <;> cases row.post.targetedAt groupId childId <;>
      cases row.post.expired now <;> decide
  rw [hdiffers, and_imp]
  exact Iff.rfl

theorem qundylyq_iff : ContentRepository.list s kindergartenId (ContentFeedService.qundylyqFilters limit) =
      newest PostRow.createdKey limit.toNat
        (s.posts.filter (PostRow.isFor kindergartenId childId groupId now .qundylyq)) ↔
    (limit ≤ 0 → ∀ row ∈ s.posts, row.publishedAs kindergartenId .qundylyq = false) ∧
      ∀ row ∈ s.posts, row.publishedAs kindergartenId .qundylyq = true →
        (row.post.targetedAt groupId childId = false ∨ row.post.expired now = true) →
        OutOfReach PostRow.createdKey (PostRow.publishedAs kindergartenId .qundylyq) limit s row := by
  have hlisted : ContentRepository.isListed kindergartenId (ContentFeedService.qundylyqFilters limit) =
      PostRow.publishedAs kindergartenId .qundylyq := funext fun _ => isListed_qundylyq
  unfold ContentRepository.list
  rw [hlisted]
  refine (newest_capped_eq_iff s.keyed_created _ _ limit (by decide)).trans ?_
  refine and_congr_right fun _ => forall₂_congr fun row _ => ?_
  have hdiffers : PostRow.isFor kindergartenId childId groupId now .qundylyq row ≠
        row.publishedAs kindergartenId .qundylyq ↔
      row.publishedAs kindergartenId .qundylyq = true ∧
        (row.post.targetedAt groupId childId = false ∨ row.post.expired now = true) := by
    unfold PostRow.isFor
    cases row.publishedAs kindergartenId .qundylyq <;> cases row.post.targetedAt groupId childId <;>
      cases row.post.expired now <;> decide
  rw [hdiffers, and_imp]
  exact Iff.rfl

theorem birthdays_iff : ContentRepository.list s kindergartenId (ContentFeedService.birthdayFilters childId limit) =
      newest PostRow.createdKey limit.toNat
        (s.posts.filter (PostRow.isFor kindergartenId childId groupId now .birthday)) ↔
    (limit ≤ 0 → ∀ row ∈ s.posts, row.isGreeting kindergartenId childId = false) ∧
      ∀ row ∈ s.posts, row.publishedAs kindergartenId .birthday = true →
        (row.post.targetedAt groupId childId && !row.post.expired now) ≠ (row.post.targetChildId == some childId) →
        OutOfReach PostRow.createdKey (PostRow.isGreeting kindergartenId childId) limit s row := by
  have hlisted : ContentRepository.isListed kindergartenId (ContentFeedService.birthdayFilters childId limit) =
      PostRow.isGreeting kindergartenId childId := funext fun _ => isListed_birthday
  unfold ContentRepository.list
  rw [hlisted]
  refine (newest_capped_eq_iff s.keyed_created _ _ limit (by decide)).trans ?_
  refine and_congr_right fun _ => forall₂_congr fun row _ => ?_
  have hdiffers : PostRow.isFor kindergartenId childId groupId now .birthday row ≠
        row.isGreeting kindergartenId childId ↔
      row.publishedAs kindergartenId .birthday = true ∧
        (row.post.targetedAt groupId childId && !row.post.expired now) ≠ (row.post.targetChildId == some childId) := by
    unfold PostRow.isFor PostRow.isGreeting
    cases row.publishedAs kindergartenId .birthday <;> cases row.post.targetedAt groupId childId <;>
      cases row.post.expired now <;> cases row.post.targetChildId == some childId <;> decide
  rw [hdiffers, and_imp]
  exact Iff.rfl

theorem stories_eq : (match groupId with
      | some gid => GroupStoryRepository.listActiveByGroup s kindergartenId gid now
      | none => []) =
    newestFirst GroupStory.createdKey (s.stories.filter (GroupStory.isFor kindergartenId groupId now)) := by
  cases groupId with
  | some gid => rfl
  | none =>
    have hnone : s.stories.filter (GroupStory.isFor kindergartenId none now) = [] :=
      List.filter_eq_nil_iff.2 fun _ _ => Bool.false_ne_true
    rw [hnone]
    rfl

theorem PostRow.isFor_iff {contentType : ContentType} :
    row.isFor kindergartenId childId groupId now contentType = true ↔
      (row.kindergartenId = kindergartenId ∧ row.post.contentType = contentType ∧ row.post.status = .published) ∧
        row.post.targetedAt groupId childId = true ∧ row.post.expired now = false := by
  simp only [PostRow.isFor, PostRow.publishedAs, Bool.and_eq_true, beq_iff_eq, Bool.not_eq_true', and_assoc]

theorem GroupStory.isFor_iff {story : GroupStory} : story.isFor kindergartenId groupId now = true ↔
    story.kindergartenId = kindergartenId ∧ now < story.expiresAt ∧ groupId = some story.groupId := by
  cases groupId with
  | none => simp [GroupStory.isFor]
  | some gid =>
    simp only [GroupStory.isFor, GroupStoryRepository.isActive, Option.any_some, Bool.and_eq_true, beq_iff_eq,
      decide_eq_true_eq, Option.some.injEq]
    constructor
    · rintro ⟨⟨hkg, hgroup⟩, hnow⟩
      exact ⟨hkg, hnow, hgroup.symm⟩
    · rintro ⟨hkg, hnow, hgroup⟩
      exact ⟨⟨hkg, hgroup.symm⟩, hnow⟩

end

/-! ## The feed -/

/-- A section of the newest posts for the child has only posts for the child. -/
theorem shown_of_newest {K : Type} [LinearOrder K] {key : PostRow → K} {s : FeedStore} {now : Int}
    {kindergartenId childId n : Nat} {groupId : Option Nat} {contentType : ContentType} {row : PostRow}
    (h : row ∈ newest key n (s.posts.filter (PostRow.isFor kindergartenId childId groupId now contentType))) :
    row.kindergartenId = kindergartenId ∧ row.post.status = .published ∧ row.post.expired now = false ∧
      row.post.targetedAt groupId childId = true := by
  obtain ⟨⟨hkg, -, hpublished⟩, htarget, hexpired⟩ := PostRow.isFor_iff.1 (List.mem_filter.1 (mem_newest h)).2
  exact ⟨hkg, hpublished, hexpired, htarget⟩

/-- **The feed.**  Whatever posts and stories there are, the feed has the newest of what is for the child and nothing
else exactly when the posts that its queries get wrong are out of reach and the stories are no more than the limit. -/
theorem feedTargeted_iff_inReach {s : FeedStore} {now : Int} {kindergartenId childId : Nat} {limit : Option Int}
    {feed : ContentFeedResult}
    (h : ContentFeedService.getParentChildFeed s now kindergartenId childId limit = .ok feed) :
    FeedTargeted s now kindergartenId childId (limit.getD ContentFeedService.defaultFeedLimit) feed ↔
      FeedInReach s now kindergartenId childId (limit.getD ContentFeedService.defaultFeedLimit) := by
  unfold ContentFeedService.getParentChildFeed at h
  cases hchild : ChildRepository.findById s kindergartenId childId with
  | none =>
    rw [hchild] at h
    cases h
  | some child =>
    rw [hchild] at h
    obtain rfl := Except.ok.inj h
    have hgroup : s.groupOf kindergartenId childId = child.currentGroupId := by
      unfold FeedStore.groupOf
      rw [hchild]
      rfl
    rw [← hgroup, stories_eq]
    constructor
    · intro ht
      obtain ⟨hnone, hnews⟩ := news_iff.1 ht.news
      obtain ⟨hnone', hqundylyq⟩ := qundylyq_iff.1 ht.qundylyq
      obtain ⟨hnone'', hbirthdays⟩ := birthdays_iff.1 ht.birthdays
      refine ⟨fun hlimit row hrow => ?_, hnews, hqundylyq, hbirthdays, newestFirst_eq_newest_iff.1 ht.stories⟩
      exact ⟨hnone hlimit row hrow, hnone' hlimit row hrow, hnone'' hlimit row hrow⟩
    · intro hr
      have hnews := news_iff.2 ⟨fun hlimit row hrow => (hr.empty hlimit row hrow).1, hr.news⟩
      have hqundylyq := qundylyq_iff.2 ⟨fun hlimit row hrow => (hr.empty hlimit row hrow).2.1, hr.qundylyq⟩
      have hbirthdays := birthdays_iff.2 ⟨fun hlimit row hrow => (hr.empty hlimit row hrow).2.2, hr.birthdays⟩
      refine ⟨fun row hrow => ?_, fun story hstory => ?_, hnews, hqundylyq, hbirthdays,
        newestFirst_eq_newest_iff.2 hr.stories⟩
      · rcases List.mem_append.1 hrow with hrow | hrow
        · rcases List.mem_append.1 hrow with hrow | hrow
          · exact shown_of_newest (hnews ▸ hrow)
          · exact shown_of_newest (hqundylyq ▸ hrow)
        · exact shown_of_newest (hbirthdays ▸ hrow)
      · exact GroupStory.isFor_iff.1 (List.mem_filter.1 (mem_newestFirst.1 hstory)).2

/-! ## A greeting, and another child's post -/

/-- A published post of kindergarten 1. -/
def publishedPost (id : Nat) (contentType : ContentType) (targetType : ContentTargetType)
    (targetGroupId targetChildId : Option Nat) : PostRow where
  kindergartenId := 1
  createdAt := 5
  post := {
    id := id
    contentType := contentType
    targetType := targetType
    targetGroupId := targetGroupId
    targetChildId := targetChildId
    title := none
    body := none
    titleI18n := none
    bodyI18n := none
    mediaUrls := none
    metadata := none
    scheduledFor := none
    publishedAt := some 6
    expiresAt := some 90
    status := .published
    createdBy := none }

def storyOfSeven : GroupStory := ⟨40, 1, 7, 3, "/media/a.jpg", .image, none, 0, 80, 5⟩

/-- Child 1 is in group 7. -/
def ownPosts : FeedStore where
  posts := [publishedPost 20 .news .group (some 7) none, publishedPost 21 .qundylyq .all none none,
    publishedPost 22 .birthday .child none (some 1)]
  stories := [storyOfSeven]
  children := [⟨1, 1, some 7⟩]
  postIds := by decide
  storyIds := by decide

theorem feedTargeted_iff_inReach_ownPosts : ∃ feed,
    ContentFeedService.getParentChildFeed ownPosts 10 1 1 none = .ok feed ∧
      FeedTargeted ownPosts 10 1 1 ContentFeedService.defaultFeedLimit feed ∧ feed.stories = [storyOfSeven] := by
  have hfeed : ContentFeedService.getParentChildFeed ownPosts 10 1 1 none = .ok _ := rfl
  refine ⟨_, hfeed, (feedTargeted_iff_inReach hfeed).2 ?_, by decide⟩
  exact ⟨by decide, by decide, by decide, by decide, by decide⟩

/-- The only post is for child 2. -/
def strangersPost : PostRow := publishedPost 23 .qundylyq .child none (some 2)

def strangersPosts : FeedStore where
  posts := [strangersPost]
  stories := []
  children := [⟨1, 1, some 7⟩, ⟨2, 1, some 7⟩]
  postIds := by decide
  storyIds := by decide

/-- The feed of child 1 shows it. -/
theorem strangersPosts_not_feedTargeted : ∃ feed,
    ContentFeedService.getParentChildFeed strangersPosts 10 1 1 none = .ok feed ∧
      ¬FeedTargeted strangersPosts 10 1 1 ContentFeedService.defaultFeedLimit feed := by
  refine ⟨_, rfl, fun h => ?_⟩
  have htargeted := (h.posts strangersPost (by decide)).2.2.2
  exact absurd htargeted (by decide)

end Content
