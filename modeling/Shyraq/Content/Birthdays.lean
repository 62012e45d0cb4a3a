import Shyraq.Kernel.Calendar
import Shyraq.Content.Entities

/-!
# BirthdayGeneratorService

The runs of one kindergarten, one after the other as the advisory lock has them.  A run gets the rows of `children` as
they then are, the ids that it draws, and the children whose savepoint is rolled back.

A day is written out in year, month and day as `formatDateInTimezone` does it; months and days count from 1.
-/

namespace Content

open Kernel

structure Child where
  id : Nat
  fullName : String
  archived : Bool
  /-- The `date` column, as a UTC day. -/
  dateOfBirth : Option Int
  deriving DecidableEq

def yearOf (d : Int) : Int := monthOf d / 12
def monthNumber (d : Int) : Int := monthOf d % 12 + 1
def dayNumber (d : Int) : Int := dayOfMonth d + 1

/-- `computeAge`. -/
def computeAge (dob todayYear todayMonth todayDay : Int) : Int :=
  let age := todayYear - yearOf dob
  let age :=
    if todayMonth < monthNumber dob ∨ (todayMonth = monthNumber dob ∧ todayDay < dayNumber dob) then age - 1 else age
  if age < 0 then 0 else age

namespace ContentPost

/-- `createBirthday`, with the name stamped into the metadata. -/
def createBirthday (id targetChildId : Nat) (childFullName : String) (childAge now : Int) : ContentPost where
  id := id
  contentType := .birthday
  targetType := .child
  targetGroupId := none
  targetChildId := some targetChildId
  title := none
  body := none
  titleI18n := some [("ru", s!"С днём рождения, {childFullName}!"), ("kk", s!"Туған күніңмен, {childFullName}!")]
  bodyI18n := some [("ru", s!"Поздравляем с {childAge}-летием!"), ("kk", s!"{childAge} жасыңмен құттықтаймыз!")]
  mediaUrls := none
  metadata := some [("child_id", .text (toString targetChildId)), ("age", .number childAge),
    ("child_full_name", .text childFullName)]
  scheduledFor := none
  publishedAt := some now
  expiresAt := none
  status := .published
  createdBy := none

/-- A birthday post of the child. -/
def isBirthdayOf (post : ContentPost) (childId : Nat) : Bool :=
  post.contentType == .birthday && post.targetChildId == some childId

/-- `DATE(published_at AT TIME ZONE 'Asia/Almaty')`. -/
def publishedOn (post : ContentPost) : Option Int := post.publishedAt.map formatDateInTimezone

end ContentPost

/-- One call of `runDaily`. -/
structure DailyRun where
  today : Int
  children : List Child
  /-- `randomUUID()`, for each child. -/
  uuid : Nat → Nat
  failing : List Nat

structure BirthdayGenerationResult where
  generatedCount : Nat
  skippedCount : Nat
  deriving DecidableEq

/-- The tables that the runs write. -/
structure Feed where
  posts : List ContentPost
  outbox : List PublicationEvent

def existsBirthdayForChildOnDate (posts : List ContentPost) (childId : Nat) (date : Int) : Bool :=
  posts.any fun p => p.isBirthdayOf childId && p.publishedOn == some (formatDateInTimezone date)

def listActiveByBirthdayMonthDay (children : List Child) (month day : Int) : List Child :=
  children.filter fun c =>
    !c.archived && c.dateOfBirth.any fun dob => decide (monthNumber dob = month) && decide (dayNumber dob = day)

namespace BirthdayGeneratorService

/-- Who has a birthday on this day, or is born on a 29 February that the year does not have. -/
def allChildren (children : List Child) (year month day : Int) : List Child :=
  listActiveByBirthdayMonthDay children month day ++
    if month = 2 ∧ day = 28 ∧ isLeapYear year = false then listActiveByBirthdayMonthDay children 2 29 else []

/-- The post of one child, in its savepoint. -/
def generateOne (run : DailyRun) (year month day : Int) (state : BirthdayGenerationResult × Feed) (child : Child) :
    BirthdayGenerationResult × Feed :=
  let (counts, feed) := state
  if existsBirthdayForChildOnDate feed.posts child.id run.today then
    ({ counts with skippedCount := counts.skippedCount + 1 }, feed)
  else if run.failing.contains child.id then state
  else
    let age := computeAge (child.dateOfBirth.getD 0) year month day
    let post := ContentPost.createBirthday (run.uuid child.id) child.id child.fullName age run.today
    ({ counts with generatedCount := counts.generatedCount + 1 },
      { posts := feed.posts ++ [post]
        outbox := feed.outbox ++ [.birthday post.id (some child.id) child.fullName age run.today] })

def runDaily (run : DailyRun) (feed : Feed) : BirthdayGenerationResult × Feed :=
  let today := formatDateInTimezone run.today
  let children := allChildren run.children (yearOf today) (monthNumber today) (dayNumber today)
  children.foldl (generateOne run (yearOf today) (monthNumber today) (dayNumber today)) (⟨0, 0⟩, feed)

/-- One run after the other. -/
def runs (feed : Feed) (calls : List DailyRun) : Feed := calls.foldl (fun feed run => (runDaily run feed).2) feed

end BirthdayGeneratorService

/-! ## Birthdays -/

/-- The day of the birthday in a year: 28 February where the year has no 29th. -/
def birthdayIn (year dob : Int) : Int :=
  monthStart (12 * year + (monthNumber dob - 1)) +
    (min (dayNumber dob) (daysInMonth year (monthNumber dob)) - 1)

theorem monthNumber_range (d : Int) : 1 ≤ monthNumber d ∧ monthNumber d ≤ 12 := by
  unfold monthNumber
  omega

theorem monthOf_eq_parts (d : Int) : monthOf d = 12 * yearOf d + (monthNumber d - 1) := by
  unfold yearOf monthNumber
  omega

theorem dayNumber_range (d : Int) : 1 ≤ dayNumber d ∧ dayNumber d ≤ daysInMonth (yearOf d) (monthNumber d) := by
  obtain ⟨hfirst, hlast⟩ := monthOf_spec d
  have hlength := monthLength (yearOf d) (monthNumber d) (monthNumber_range d).1 (monthNumber_range d).2
  rw [← monthOf_eq_parts] at hlength
  unfold dayNumber dayOfMonth
  omega

theorem parts_of_date {year month day : Int} (h₁ : 1 ≤ month) (h₂ : month ≤ 12) (h₃ : 1 ≤ day)
    (h₄ : day ≤ daysInMonth year month) : yearOf (monthStart (12 * year + (month - 1)) + (day - 1)) = year ∧
      monthNumber (monthStart (12 * year + (month - 1)) + (day - 1)) = month ∧
      dayNumber (monthStart (12 * year + (month - 1)) + (day - 1)) = day := by
  have hlength := monthLength year month h₁ h₂
  have hmonth : monthOf (monthStart (12 * year + (month - 1)) + (day - 1)) = 12 * year + (month - 1) :=
    monthOf_eq (by omega) (by omega)
  unfold yearOf monthNumber dayNumber dayOfMonth
  rw [hmonth]
  refine ⟨by omega, by omega, by omega⟩

theorem date_of_parts (d : Int) : d = monthStart (12 * yearOf d + (monthNumber d - 1)) + (dayNumber d - 1) := by
  rw [← monthOf_eq_parts]
  unfold dayNumber dayOfMonth
  omega

theorem fits_or_leapDay (year dob : Int) : dayNumber dob ≤ daysInMonth year (monthNumber dob) ∨
      (monthNumber dob = 2 ∧ dayNumber dob = 29 ∧ isLeapYear year = false) := by
  have hlast := (dayNumber_range dob).2
  unfold daysInMonth at hlast ⊢
  by_cases hfeb : monthNumber dob = 2
  · rw [if_pos hfeb] at hlast ⊢
    have h29 : dayNumber dob ≤ 29 := by
      split at hlast <;> omega
    cases isLeapYear year with
    | true => exact .inl h29
    | false =>
      by_cases hleap : dayNumber dob = 29
      · exact .inr ⟨hfeb, hleap, rfl⟩
      · left
        show dayNumber dob ≤ 28
        omega
  · rw [if_neg hfeb] at hlast ⊢
    exact .inl hlast

theorem birthdayIn_parts (year dob : Int) :
    yearOf (birthdayIn year dob) = year ∧ monthNumber (birthdayIn year dob) = monthNumber dob ∧
      dayNumber (birthdayIn year dob) = min (dayNumber dob) (daysInMonth year (monthNumber dob)) := by
  obtain ⟨hfirst, -⟩ := dayNumber_range dob
  obtain ⟨h₁, h₂⟩ := monthNumber_range dob
  have hlength : 28 ≤ daysInMonth year (monthNumber dob) := by
    unfold daysInMonth
    split <;> split <;> omega
  exact parts_of_date h₁ h₂ (by omega) (by omega)

theorem selected_iff (d dob : Int) : (monthNumber dob = monthNumber d ∧ dayNumber dob = dayNumber d) ∨
      ((monthNumber d = 2 ∧ dayNumber d = 28 ∧ isLeapYear (yearOf d) = false) ∧ monthNumber dob = 2 ∧ dayNumber dob = 29) ↔
    d = birthdayIn (yearOf d) dob := by
  obtain ⟨hyear, hmonth, hday⟩ := birthdayIn_parts (yearOf d) dob
  have hrange := (dayNumber_range d).2
  constructor
  · intro h
    have hparts : monthNumber d = monthNumber dob ∧
        dayNumber d = min (dayNumber dob) (daysInMonth (yearOf d) (monthNumber dob)) := by
      rcases h with ⟨hm, hd⟩ | ⟨⟨hm, hd, hleap⟩, hm', hd'⟩
      · rw [← hm, ← hd] at hrange
        exact ⟨hm.symm, by omega⟩
      · have hlength : daysInMonth (yearOf d) 2 = 28 := by
          unfold daysInMonth
          rw [hleap]
          rfl
        rw [hm, hm', hd, hd', hlength]
        decide
    have hd := date_of_parts d
    rw [hparts.1, hparts.2] at hd
    exact hd
  · intro h
    rw [← h] at hmonth hday
    rcases fits_or_leapDay (yearOf d) dob with hfits | ⟨hm', hd', hleap⟩
    · left
      exact ⟨hmonth.symm, by omega⟩
    · right
      have hlength : daysInMonth (yearOf d) 2 = 28 := by
        unfold daysInMonth
        rw [hleap]
        rfl
      rw [hm', hd', hlength] at hday
      exact ⟨⟨hmonth.trans hm', hday, hleap⟩, hm', hd'⟩

/-- The age that the run gives: a year short of the birthday on 28 February. -/
theorem computeAge_birthday {year dob : Int} (hborn : yearOf dob < year) :
    computeAge dob year (monthNumber (birthdayIn year dob)) (dayNumber (birthdayIn year dob)) =
      if dayNumber dob ≤ daysInMonth year (monthNumber dob) then year - yearOf dob else year - yearOf dob - 1 := by
  obtain ⟨-, hmonth, hday⟩ := birthdayIn_parts year dob
  unfold computeAge
  rw [hmonth, hday]
  dsimp only
  split_ifs <;> omega

theorem mem_allChildren {children : List Child} {d : Int} {c : Child} :
    c ∈ BirthdayGeneratorService.allChildren children (yearOf d) (monthNumber d) (dayNumber d) ↔
      c ∈ children ∧ c.archived = false ∧ ∃ dob, c.dateOfBirth = some dob ∧ d = birthdayIn (yearOf d) dob := by
  have hlist : ∀ month day, c ∈ listActiveByBirthdayMonthDay children month day ↔
      c ∈ children ∧ c.archived = false ∧
        ∃ dob, c.dateOfBirth = some dob ∧ monthNumber dob = month ∧ dayNumber dob = day := by
    intro month day
    unfold listActiveByBirthdayMonthDay
    rw [List.mem_filter, Bool.and_eq_true, Bool.not_eq_true', Option.any_eq_true]
    simp only [Bool.and_eq_true, decide_eq_true_eq]
  unfold BirthdayGeneratorService.allChildren
  rw [List.mem_append, hlist]
  simp only [← selected_iff]
  constructor
  · rintro (⟨hc, harchived, dob, hdob, hparts⟩ | h)
    · exact ⟨hc, harchived, dob, hdob, .inl hparts⟩
    · split at h
      · next hleap =>
        obtain ⟨hc, harchived, dob, hdob, hparts⟩ := (hlist 2 29).1 h
        exact ⟨hc, harchived, dob, hdob, .inr ⟨hleap, hparts⟩⟩
      · exact absurd h List.not_mem_nil
  · rintro ⟨hc, harchived, dob, hdob, hparts | ⟨hleap, hparts⟩⟩
    · exact .inl ⟨hc, harchived, dob, hdob, hparts⟩
    · right
      rw [if_pos hleap, hlist]
      exact ⟨hc, harchived, dob, hdob, hparts⟩

/-! ## One child, run after run -/

/-- The birthday posts of the child that are dated in the year. -/
def birthdayPosts (childId : Nat) (year : Int) (posts : List ContentPost) : List ContentPost :=
  posts.filter fun p => p.isBirthdayOf childId && p.publishedOn.any fun d => decide (yearOf d = year)

/-- What is known of the child in every run: it is an active child, born on this day. -/
def Born (childId : Nat) (dob : Int) (run : DailyRun) : Prop :=
  (∃ c ∈ run.children, c.id = childId) ∧
    ∀ c ∈ run.children, c.id = childId → c.archived = false ∧ c.dateOfBirth = some dob

/-- A run on this day goes through for the child. -/
def RunsOn (childId : Nat) (calls : List DailyRun) (d : Int) : Prop :=
  ∃ run ∈ calls, formatDateInTimezone run.today = d ∧ childId ∉ run.failing

/-- The post of the year, as the generator writes it. -/
structure Greets (childId : Nat) (year dob : Int) (post : ContentPost) : Prop where
  day : post.publishedOn = some (birthdayIn year dob)
  age : post.age = computeAge dob year (monthNumber (birthdayIn year dob)) (dayNumber (birthdayIn year dob))

/-- None yet, or the one. -/
def AtMostOne (childId : Nat) (year dob : Int) (posts : List ContentPost) : Prop :=
  birthdayPosts childId year posts = [] ∨
    ∃ post, birthdayPosts childId year posts = [post] ∧ Greets childId year dob post

section

variable {childId : Nat} {year dob : Int} {run : DailyRun} {state : BirthdayGenerationResult × Feed} {c : Child}

open BirthdayGeneratorService

/-- What one child adds. -/
def greeting (run : DailyRun) (c : Child) : ContentPost :=
  let d := formatDateInTimezone run.today
  .createBirthday (run.uuid c.id) c.id c.fullName
    (computeAge (c.dateOfBirth.getD 0) (yearOf d) (monthNumber d) (dayNumber d)) run.today

theorem generateOne_posts (run : DailyRun) (state : BirthdayGenerationResult × Feed) (c : Child) :
    let d := formatDateInTimezone run.today
    (generateOne run (yearOf d) (monthNumber d) (dayNumber d) state c).2.posts =
      if existsBirthdayForChildOnDate state.2.posts c.id run.today || run.failing.contains c.id then state.2.posts
      else state.2.posts ++ [greeting run c] := by
  obtain ⟨counts, feed⟩ := state
  unfold generateOne
  dsimp only
  cases existsBirthdayForChildOnDate feed.posts c.id run.today
  · cases run.failing.contains c.id <;> rfl
  · rfl

theorem birthdayPosts_snoc (posts : List ContentPost) (run : DailyRun) (c : Child) :
    birthdayPosts childId year (posts ++ [greeting run c]) =
      if c.id = childId ∧ yearOf (formatDateInTimezone run.today) = year
        then birthdayPosts childId year posts ++ [greeting run c] else birthdayPosts childId year posts := by
  unfold birthdayPosts
  rw [List.filter_append]
  have hkept : ((greeting run c).isBirthdayOf childId &&
      (greeting run c).publishedOn.any fun d => decide (yearOf d = year)) =
      (decide (c.id = childId) && decide (yearOf (formatDateInTimezone run.today) = year)) := by
    show ((ContentType.birthday == ContentType.birthday && some c.id == some childId) && _) = _
    simp [ContentPost.publishedOn, greeting, ContentPost.createBirthday, beq_eq_decide]
  rw [List.filter_cons, hkept]
  split <;> split <;> simp_all

theorem greets_greeting (hdob : c.dateOfBirth = some dob) (hday : formatDateInTimezone run.today = birthdayIn year dob) :
    Greets childId year dob (greeting run c) where
  day := congrArg some hday
  age := by
    show computeAge (c.dateOfBirth.getD 0) _ _ _ = _
    rw [hday, hdob, (birthdayIn_parts year dob).1]
    rfl

theorem exists_iff {posts : List ContentPost} (h : AtMostOne childId year dob posts) {date : Int}
    (hday : formatDateInTimezone date = birthdayIn year dob) :
    existsBirthdayForChildOnDate posts childId date = true ↔ birthdayPosts childId year posts ≠ [] := by
  unfold existsBirthdayForChildOnDate
  rw [List.any_eq_true]
  constructor
  · rintro ⟨p, hp, hkept⟩ hnil
    rw [Bool.and_eq_true, beq_iff_eq] at hkept
    have hmem : p ∈ birthdayPosts childId year posts := by
      refine List.mem_filter.2 ⟨hp, ?_⟩
      rw [hkept.1, hkept.2, hday]
      simp [(birthdayIn_parts year dob).1]
    rw [hnil] at hmem
    exact absurd hmem List.not_mem_nil
  · intro hsome
    rcases h with hnil | ⟨p, hp, hgreets⟩
    · exact absurd hnil hsome
    · obtain ⟨hmem, hkept⟩ := List.mem_filter.1 (hp ▸ List.mem_singleton_self p : p ∈ birthdayPosts childId year posts)
      refine ⟨p, hmem, ?_⟩
      rw [Bool.and_eq_true] at hkept ⊢
      exact ⟨hkept.1, by rw [hgreets.day, hday, beq_self_eq_true]⟩

theorem atMostOne_generateOne (hborn : Born childId dob run) (h : AtMostOne childId year dob state.2.posts)
    (hc : let d := formatDateInTimezone run.today
      c ∈ allChildren run.children (yearOf d) (monthNumber d) (dayNumber d)) : let d := formatDateInTimezone run.today
    let next := generateOne run (yearOf d) (monthNumber d) (dayNumber d) state c
    AtMostOne childId year dob next.2.posts ∧
      (birthdayPosts childId year state.2.posts ≠ [] → birthdayPosts childId year next.2.posts ≠ []) ∧
      (c.id = childId → yearOf d = year → childId ∉ run.failing → birthdayPosts childId year next.2.posts ≠ []) := by
  intro d next
  have hposts : next.2.posts = _ := generateOne_posts run state c
  rw [hposts]
  obtain ⟨hmem, -, dob', hdob', hd⟩ := mem_allChildren.1 hc
  by_cases hours : c.id = childId ∧ yearOf d = year
  · obtain ⟨rfl, hyear⟩ := hours
    have hdob : c.dateOfBirth = some dob := (hborn.2 c hmem rfl).2
    obtain rfl := Option.some.inj (hdob'.symm.trans hdob)
    have hday : d = birthdayIn year dob' := hyear ▸ hd
    have hexists := exists_iff h hday
    by_cases hthere : birthdayPosts c.id year state.2.posts = []
    · have hno : existsBirthdayForChildOnDate state.2.posts c.id run.today = false := by
        rw [← Bool.not_eq_true, hexists]
        exact fun hne => hne hthere
      rw [hno, Bool.false_or]
      split
      · next hfailing =>
        exact ⟨h, fun hne => hne, fun _ _ hok => absurd (List.contains_iff_mem.1 hfailing) hok⟩
      · rw [birthdayPosts_snoc, if_pos ⟨rfl, hyear⟩, hthere]
        refine ⟨.inr ⟨_, ?_, greets_greeting hdob hday⟩, fun hne => by simp, fun _ _ _ => by simp⟩
        rw [birthdayPosts_snoc, if_pos ⟨rfl, hyear⟩, hthere, List.nil_append]
    · rw [hexists.2 hthere, Bool.true_or, if_pos rfl]
      exact ⟨h, fun hne => hne, fun _ _ _ => hthere⟩
  · have hsame : birthdayPosts childId year (if existsBirthdayForChildOnDate state.2.posts c.id run.today ||
        run.failing.contains c.id then state.2.posts else state.2.posts ++ [greeting run c]) =
        birthdayPosts childId year state.2.posts := by
      split
      · rfl
      · rw [birthdayPosts_snoc, if_neg hours]
    unfold AtMostOne
    rw [hsame]
    exact ⟨h, fun hne => hne, fun hid hyear => absurd ⟨hid, hyear⟩ hours⟩

theorem atMostOne_foldl (hborn : Born childId dob run) (cs : List Child) (h : AtMostOne childId year dob state.2.posts)
    (hcs : let d := formatDateInTimezone run.today
      ∀ c ∈ cs, c ∈ allChildren run.children (yearOf d) (monthNumber d) (dayNumber d)) :
    let d := formatDateInTimezone run.today
    let next := cs.foldl (generateOne run (yearOf d) (monthNumber d) (dayNumber d)) state
    AtMostOne childId year dob next.2.posts ∧
      (birthdayPosts childId year state.2.posts ≠ [] → birthdayPosts childId year next.2.posts ≠ []) ∧
      ((∃ c ∈ cs, c.id = childId) → yearOf d = year → childId ∉ run.failing →
        birthdayPosts childId year next.2.posts ≠ []) := by
  induction cs generalizing state with
  | nil => exact ⟨h, fun hne => hne, fun ⟨c, hc, _⟩ => absurd hc List.not_mem_nil⟩
  | cons c cs ih =>
    obtain ⟨hone, hkept, hadded⟩ := atMostOne_generateOne hborn h (hcs c List.mem_cons_self)
    obtain ⟨hone', hkept', hadded'⟩ := ih hone fun c hc => hcs c (List.mem_cons_of_mem _ hc)
    refine ⟨hone', fun hne => hkept' (hkept hne), ?_⟩
    rintro ⟨x, hx, hid⟩ hyear hok
    rcases List.mem_cons.1 hx with rfl | hx
    · exact hkept' (hadded hid hyear hok)
    · exact hadded' ⟨x, hx, hid⟩ hyear hok

theorem atMostOne_runDaily (hborn : Born childId dob run) {feed : Feed} (h : AtMostOne childId year dob feed.posts) :
    AtMostOne childId year dob (runDaily run feed).2.posts ∧
      (birthdayPosts childId year feed.posts ≠ [] → birthdayPosts childId year (runDaily run feed).2.posts ≠ []) ∧
      (formatDateInTimezone run.today = birthdayIn year dob → childId ∉ run.failing →
        birthdayPosts childId year (runDaily run feed).2.posts ≠ []) := by
  have h₀ : AtMostOne childId year dob ((⟨0, 0⟩, feed) : BirthdayGenerationResult × Feed).2.posts := h
  obtain ⟨hone, hkept, hadded⟩ := atMostOne_foldl hborn _ h₀ fun c hc => hc
  refine ⟨hone, hkept, fun hday hok => ?_⟩
  have hyear : yearOf (formatDateInTimezone run.today) = year := hday ▸ (birthdayIn_parts year dob).1
  obtain ⟨⟨c, hc, hid⟩, hall⟩ := hborn
  refine hadded ⟨c, ?_, hid⟩ hyear hok
  exact mem_allChildren.2 ⟨hc, (hall c hc hid).1, dob, (hall c hc hid).2, hyear.symm ▸ hday⟩

theorem atMostOne_runs {calls : List DailyRun} (hborn : ∀ run ∈ calls, Born childId dob run) {feed : Feed}
    (h : AtMostOne childId year dob feed.posts) : AtMostOne childId year dob (runs feed calls).posts ∧
      (birthdayPosts childId year feed.posts ≠ [] ∨ RunsOn childId calls (birthdayIn year dob) →
        birthdayPosts childId year (runs feed calls).posts ≠ []) := by
  induction calls generalizing feed with
  | nil =>
    refine ⟨h, ?_⟩
    rintro (hne | ⟨run, hrun, -⟩)
    · exact hne
    · exact absurd hrun List.not_mem_nil
  | cons run calls ih =>
    obtain ⟨hone, hkept, hadded⟩ := atMostOne_runDaily (hborn run List.mem_cons_self) h
    obtain ⟨hone', hsome⟩ := ih (fun r hr => hborn r (List.mem_cons_of_mem _ hr)) hone
    refine ⟨hone', ?_⟩
    rintro (hne | ⟨r, hr, hday, hok⟩)
    · exact hsome (.inl (hkept hne))
    · rcases List.mem_cons.1 hr with rfl | hr
      · exact hsome (.inl (hadded hday hok))
      · exact hsome (.inr ⟨r, hr, hday, hok⟩)

theorem birthdayPost_runs {calls : List DailyRun} {feed : Feed} (hbefore : yearOf dob < year)
    (hborn : ∀ run ∈ calls, Born childId dob run) (hnone : birthdayPosts childId year feed.posts = [])
    (hcover : ∀ d, yearOf d = year → RunsOn childId calls d) :
    ∃ post, birthdayPosts childId year (runs feed calls).posts = [post] ∧
      post.publishedOn = some (birthdayIn year dob) ∧
      post.age = if dayNumber dob ≤ daysInMonth year (monthNumber dob) then year - yearOf dob else year - yearOf dob - 1 := by
  obtain ⟨hone, hsome⟩ := atMostOne_runs hborn (.inl hnone)
  have hne := hsome (.inr (hcover _ (birthdayIn_parts year dob).1))
  obtain ⟨post, hpost, hgreets⟩ := hone.resolve_left hne
  exact ⟨post, hpost, hgreets.day, hgreets.age.trans (computeAge_birthday hbefore)⟩

/-- **The birthday post of a year** is the one, on the birthday; its age is the year less the year of birth exactly when
the year has the day of the birth. -/
theorem birthdayPost_iff {calls : List DailyRun} {feed : Feed} (hbefore : yearOf dob < year)
    (hborn : ∀ run ∈ calls, Born childId dob run) (hnone : birthdayPosts childId year feed.posts = [])
    (hcover : ∀ d, yearOf d = year → RunsOn childId calls d) :
    (∃ post, birthdayPosts childId year (runs feed calls).posts = [post] ∧
      post.publishedOn = some (birthdayIn year dob) ∧ post.age = year - yearOf dob) ↔
    ¬(monthNumber dob = 2 ∧ dayNumber dob = 29 ∧ isLeapYear year = false) := by
  obtain ⟨post, hpost, hday, hage⟩ := birthdayPost_runs hbefore hborn hnone hcover
  constructor
  · rintro ⟨p, hp, -, hp_age⟩ ⟨hm, hd, hleap⟩
    obtain rfl := List.singleton_inj.1 (hpost.symm.trans hp)
    have hlength : daysInMonth year 2 = 28 := by
      unfold daysInMonth
      rw [hleap]
      rfl
    rw [hm, hd, hlength, if_neg (by decide)] at hage
    omega
  · intro hfits
    refine ⟨post, hpost, hday, ?_⟩
    rw [hage, if_pos ((fits_or_leapDay year dob).resolve_right hfits)]

end

/-! ## A year of runs -/

/-- A run at each midnight of the year. -/
def dailyRuns (year : Int) (children : List Child) : List DailyRun :=
  (List.range (monthStart (12 * (year + 1)) - monthStart (12 * year)).toNat).map fun k : Nat =>
    ⟨midnight (monthStart (12 * year) + k), children, fun i => i, []⟩

theorem runsOn_dailyRuns {year : Int} {children : List Child} {childId : Nat} (d : Int) (h : yearOf d = year) :
    RunsOn childId (dailyRuns year children) d := by
  obtain ⟨hfirst, hlast⟩ := monthOf_spec d
  unfold yearOf at h
  have hlow : monthStart (12 * year) ≤ monthStart (monthOf d) := monthStart_le (by omega)
  have hhigh : monthStart (monthOf d + 1) ≤ monthStart (12 * (year + 1)) := monthStart_le (by omega)
  refine ⟨⟨midnight d, children, fun i => i, []⟩, List.mem_map.2 ⟨(d - monthStart (12 * year)).toNat, ?_, ?_⟩, ?_,
    List.not_mem_nil⟩
  · rw [List.mem_range]
    omega
  · rw [show monthStart (12 * year) + ((d - monthStart (12 * year)).toNat : Int) = d by omega]
  · show (d * msPerDay + almatyOffsetMs) / msPerDay = d
    unfold msPerDay almatyOffsetMs
    omega

theorem born_dailyRuns {year dob : Int} {child : Child} (h : child.archived = false ∧ child.dateOfBirth = some dob) :
    ∀ run ∈ dailyRuns year [child], Born child.id dob run := by
  intro run hrun
  obtain ⟨k, -, rfl⟩ := List.mem_map.1 hrun
  exact ⟨⟨child, List.mem_singleton_self child, rfl⟩, fun c hc _ => List.mem_singleton.1 hc ▸ h⟩

/-- Born on 15 May 2020. -/
def maySample : Child := ⟨1, "Aru", false, some 18397⟩

/-- Born on 29 February 2020. -/
def leapSample : Child := ⟨2, "Nur", false, some 18321⟩

theorem birthdayPost_maySample :
    ∃ post, birthdayPosts 1 2027 (BirthdayGeneratorService.runs ⟨[], []⟩ (dailyRuns 2027 [maySample])).posts = [post] ∧
      post.publishedOn = some (birthdayIn 2027 18397) ∧ post.age = 2027 - yearOf 18397 := by
  have hborn : ∀ run ∈ dailyRuns 2027 [maySample], Born 1 18397 run := born_dailyRuns ⟨rfl, rfl⟩
  exact (birthdayPost_iff (by decide) hborn rfl fun d h => runsOn_dailyRuns d h).2 (by decide)

/-- In 2027 the child turns 7; the post of 28 February says 6. -/
theorem birthdayPost_leapSample : (∀ d, yearOf d = 2027 → RunsOn 2 (dailyRuns 2027 [leapSample]) d) ∧
    (∀ run ∈ dailyRuns 2027 [leapSample], Born 2 18321 run) ∧ yearOf 18321 = 2020 ∧
    ¬∃ post, birthdayPosts 2 2027 (BirthdayGeneratorService.runs ⟨[], []⟩ (dailyRuns 2027 [leapSample])).posts = [post] ∧
      post.publishedOn = some (birthdayIn 2027 18321) ∧ post.age = 7 := by
  have hcover : ∀ d, yearOf d = 2027 → RunsOn 2 (dailyRuns 2027 [leapSample]) d := fun d h => runsOn_dailyRuns d h
  have hborn : ∀ run ∈ dailyRuns 2027 [leapSample], Born 2 18321 run := born_dailyRuns ⟨rfl, rfl⟩
  have hnone : birthdayPosts 2 2027 (⟨[], []⟩ : Feed).posts = [] := rfl
  refine ⟨hcover, hborn, by decide, ?_⟩
  rintro ⟨p, hp, -, hp_age⟩
  obtain ⟨post, hpost, -, hage⟩ := birthdayPost_runs (by decide) hborn hnone hcover
  obtain rfl := List.singleton_inj.1 (hpost.symm.trans hp)
  rw [if_neg (by decide), hp_age] at hage
  revert hage
  decide

end Content
