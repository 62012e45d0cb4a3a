import Mathlib.Data.List.Sort
import Shyraq.Kernel.Digits
import Shyraq.Kernel.Calendar
import Shyraq.Transactions.Runs
import Shyraq.Transactions.Statements
import Shyraq.Transactions.Table

/-!
# Schedule templates, activity events and week snapshots

The tables `schedule_templates`, `schedule_template_slots`, `activity_events` and `schedule_week_snapshots` of
one kindergarten.  A `date` column is a day number, a `timestamptz` an instant in milliseconds, a `time` its
seconds since midnight.  The columns `created_at`, `updated_at` and `copied_from` are left out.
-/

namespace Schedule

open Kernel Transactions

inductive DayOfWeek
  | mon | tue | wed | thu | fri | sat | sun
  deriving DecidableEq, Repr

/-- `ISO_DAY_FOR_VALUE`. -/
def DayOfWeek.isoDay : DayOfWeek → Nat
  | mon => 1 | tue => 2 | wed => 3 | thu => 4 | fri => 5 | sat => 6 | sun => 7

inductive SlotCategory
  | lesson | activity | meal | sleep
  deriving DecidableEq, Repr

/-- `DEFAULT_SLOT_CATEGORY`. -/
def defaultSlotCategory : SlotCategory := .activity

inductive ActivityEventOrigin
  | template | adhoc
  deriving DecidableEq, Repr

inductive ActivityEventStatus
  | scheduled | inProgress | completed | cancelled
  deriving DecidableEq, Repr

def ActivityEventStatus.transitions : ActivityEventStatus → List ActivityEventStatus
  | scheduled => [inProgress, cancelled]
  | inProgress => [completed, cancelled]
  | completed => []
  | cancelled => []

def ActivityEventStatus.canTransitionTo (status next : ActivityEventStatus) : Bool :=
  decide (next ∈ status.transitions)

inductive WeekSnapshotSource
  | cron | manual
  deriving DecidableEq, Repr

inductive ScheduleError
  | scheduleTemplateNotFound (id : Nat)
  | groupNotFound (id : Nat)
  | slotNotFound (id : Nat)
  /-- The repository does not know the tuple. -/
  | slotConflict (templateId : Nat) (tuple : Option (DayOfWeek × Nat))
  | invalidSlotTime (startTime endTime : Nat)
  | activityEventNotFound (id : Nat)
  | eventNotDeletable (status : ActivityEventStatus)
  | invalidEventTransition (source target : ActivityEventStatus)
  | eventTransitionConflict (id : Nat) (expected attempted : ActivityEventStatus)
  /-- An `InvariantViolationError`, or what the driver throws on a violated constraint. -/
  | internal (message : String)
  deriving DecidableEq

/-! ## Slots -/

structure ScheduleTemplateSlot where
  id : Nat
  templateId : Nat
  dayOfWeek : DayOfWeek
  startTime : Nat
  endTime : Nat
  activityName : String
  category : SlotCategory
  locationId : Option Nat
  description : Option String
  deriving DecidableEq

instance : Row ScheduleTemplateSlot := ⟨ScheduleTemplateSlot.id⟩

structure AddSlotInput where
  dayOfWeek : DayOfWeek
  startTime : Nat
  endTime : Nat
  activityName : String
  category : Option SlotCategory
  locationId : Option Nat
  description : Option String
  deriving DecidableEq

/-- `none` leaves the field alone. -/
structure UpdateSlotPatch where
  dayOfWeek : Option DayOfWeek
  startTime : Option Nat
  endTime : Option Nat
  activityName : Option String
  category : Option SlotCategory
  locationId : Option (Option Nat)
  description : Option (Option String)
  deriving DecidableEq

/-- `TIME_RE`. -/
def normalizeTime (t : Nat) : Except ScheduleError Nat :=
  if t < 86400 then .ok t else .error (.invalidSlotTime t t)

namespace ScheduleTemplateSlot

def create (id templateId : Nat) (input : AddSlotInput) : Except ScheduleError ScheduleTemplateSlot := do
  let startTime ← normalizeTime input.startTime
  let endTime ← normalizeTime input.endTime
  if endTime ≤ startTime then throw (.invalidSlotTime startTime endTime)
  pure
    { id := id
      templateId := templateId
      dayOfWeek := input.dayOfWeek
      startTime := startTime
      endTime := endTime
      activityName := input.activityName
      category := input.category.getD defaultSlotCategory
      locationId := input.locationId
      description := input.description }

variable (slot : ScheduleTemplateSlot)

def patch (p : UpdateSlotPatch) : Except ScheduleError ScheduleTemplateSlot := do
  let nextStart ← p.startTime.elim (pure slot.startTime) normalizeTime
  let nextEnd ← p.endTime.elim (pure slot.endTime) normalizeTime
  if nextEnd ≤ nextStart then throw (.invalidSlotTime nextStart nextEnd)
  pure { slot with
    dayOfWeek := p.dayOfWeek.getD slot.dayOfWeek
    startTime := nextStart
    endTime := nextEnd
    activityName := p.activityName.getD slot.activityName
    category := p.category.getD slot.category
    locationId := p.locationId.getD slot.locationId
    description := p.description.getD slot.description }

/-- `idx_schedule_template_slots_unique`. -/
def isAt (templateId : Nat) (day : DayOfWeek) (startTime : Nat) : Bool :=
  slot.templateId == templateId && slot.dayOfWeek == day && slot.startTime == startTime

/-- The canonical order. -/
def before (a b : ScheduleTemplateSlot) : Prop :=
  a.dayOfWeek.isoDay < b.dayOfWeek.isoDay ∨ a.dayOfWeek.isoDay = b.dayOfWeek.isoDay ∧ a.startTime ≤ b.startTime

instance : DecidableRel before := fun _ _ => inferInstanceAs (Decidable (_ ∨ _))

end ScheduleTemplateSlot

/-! ## Templates -/

/-- A row of `schedule_templates`. -/
structure TemplateRow where
  id : Nat
  /-- `none`: the whole kindergarten. -/
  groupId : Option Nat
  name : String
  recurrence : String
  isActive : Bool
  validFrom : Int
  validUntil : Option Int
  deriving DecidableEq

instance : Row TemplateRow := ⟨TemplateRow.id⟩

/-- `is_active = true AND valid_from <= :d AND (valid_until IS NULL OR valid_until >= :d)`. -/
def TemplateRow.activeOn (row : TemplateRow) (day : Int) : Bool :=
  row.isActive && decide (row.validFrom ≤ day) && row.validUntil.all fun last => decide (day ≤ last)

/-- `t.groupId === null || t.groupId === group.id`. -/
def TemplateRow.appliesTo (row : TemplateRow) (groupId : Nat) : Bool := row.groupId.all fun g => g == groupId

/-- `UpdateTemplatePatch`; `none` leaves the field alone. -/
structure UpdateTemplatePatch where
  name : Option String
  isActive : Option Bool
  validUntil : Option (Option Int)
  deriving DecidableEq

structure CreateTemplateInput where
  groupId : Option Nat
  name : String
  recurrence : Option String
  validFrom : Int
  validUntil : Option Int
  isActive : Option Bool
  deriving DecidableEq

/-- The aggregate. -/
structure ScheduleTemplate where
  row : TemplateRow
  /-- In the order the join gave them. -/
  loaded : List ScheduleTemplateSlot
  deriving DecidableEq

namespace ScheduleTemplate

def createNew (id : Nat) (input : CreateTemplateInput) : ScheduleTemplate where
  row :=
    { id := id
      groupId := input.groupId
      name := input.name
      recurrence := input.recurrence.getD "weekly"
      isActive := true
      validFrom := input.validFrom
      validUntil := input.validUntil }
  loaded := []

variable (t : ScheduleTemplate)

/-- `sortedSlots`. -/
def slots : List ScheduleTemplateSlot := t.loaded.insertionSort ScheduleTemplateSlot.before

def deactivate : ScheduleTemplate := { t with row := { t.row with isActive := false } }

def update (patch : UpdateTemplatePatch) : ScheduleTemplate :=
  { t with row :=
    { t.row with
      name := patch.name.getD t.row.name
      isActive := patch.isActive.getD t.row.isActive
      validUntil := patch.validUntil.getD t.row.validUntil } }

def addSlot (id : Nat) (input : AddSlotInput) : Except ScheduleError ScheduleTemplate := do
  let slot ← ScheduleTemplateSlot.create id t.row.id input
  if t.loaded.any fun s => s.dayOfWeek == slot.dayOfWeek && s.startTime == slot.startTime then
    throw (.slotConflict t.row.id (some (slot.dayOfWeek, slot.startTime)))
  pure { t with loaded := t.loaded ++ [slot] }

def updateSlot (slotId : Nat) (patch : UpdateSlotPatch) : Except ScheduleError ScheduleTemplate := do
  let slot ← (t.loaded.find? fun s => s.id == slotId).elim (throw (.slotNotFound slotId)) pure
  let probeDay := patch.dayOfWeek.getD slot.dayOfWeek
  let probeStart := patch.startTime.getD slot.startTime
  if t.loaded.any fun s => s.id != slotId && s.dayOfWeek == probeDay && s.startTime == probeStart then
    throw (.slotConflict t.row.id (some (probeDay, probeStart)))
  let patched ← slot.patch patch
  pure { t with loaded := t.loaded.map fun s => if s.id = slotId then patched else s }

def removeSlot (slotId : Nat) : Except ScheduleError ScheduleTemplate :=
  if t.loaded.any fun s => s.id == slotId then
    .ok { t with loaded := t.loaded.eraseP fun s => s.id == slotId }
  else .error (.slotNotFound slotId)

end ScheduleTemplate

/-! ## Events -/

structure ActivityEvent where
  id : Nat
  groupId : Nat
  templateSlotId : Option Nat
  origin : ActivityEventOrigin
  activityName : String
  category : SlotCategory
  locationId : Option Nat
  startsAt : Int
  endsAt : Option Int
  status : ActivityEventStatus
  createdBy : Option Nat
  notes : Option String
  deriving DecidableEq

instance : Row ActivityEvent := ⟨ActivityEvent.id⟩

/-- `CreateActivityEventInput` without its id. -/
structure CreateActivityEventInput where
  groupId : Nat
  templateSlotId : Option Nat
  origin : ActivityEventOrigin
  activityName : String
  category : Option SlotCategory
  locationId : Option Nat
  startsAt : Int
  endsAt : Option Int
  createdBy : Option Nat
  notes : Option String
  deriving DecidableEq

/-- `UpdateEventPatch`; `none` leaves the field alone. -/
structure UpdateEventPatch where
  activityName : Option String
  category : Option SlotCategory
  locationId : Option (Option Nat)
  startsAt : Option Int
  endsAt : Option (Option Int)
  notes : Option (Option String)
  deriving DecidableEq

def validateRange (startsAt : Int) (endsAt : Option Int) : Except ScheduleError Unit :=
  if endsAt.any fun stop => decide (stop ≤ startsAt) then
    .error (.internal "activity_event ends_at must be > starts_at")
  else .ok ()

namespace ActivityEvent

def createScheduled (id : Nat) (input : CreateActivityEventInput) : Except ScheduleError ActivityEvent := do
  validateRange input.startsAt input.endsAt
  pure
    { id := id
      groupId := input.groupId
      templateSlotId := input.templateSlotId
      origin := input.origin
      activityName := input.activityName
      category := input.category.getD defaultSlotCategory
      locationId := input.locationId
      startsAt := input.startsAt
      endsAt := input.endsAt
      status := .scheduled
      createdBy := input.createdBy
      notes := input.notes }

variable (e : ActivityEvent)

def transition (next : ActivityEventStatus) : Except ScheduleError ActivityEvent :=
  if e.status.canTransitionTo next then .ok { e with status := next }
  else .error (.invalidEventTransition e.status next)

def start : Except ScheduleError ActivityEvent := e.transition .inProgress

def complete : Except ScheduleError ActivityEvent := e.transition .completed

/-- The notes of a cancelled event. -/
def cancelNotes (reason : String) (notes : Option String) : Option String :=
  let trimmed := trim reason
  if textLength trimmed = 0 then notes
  else
    let heading := "[cancelled: " ++ trimmed ++ "]"
    match notes with
    | none => some heading
    | some text => if textLength text = 0 then some heading else some (heading ++ " " ++ text)

def cancel (reason : String) : Except ScheduleError ActivityEvent := do
  let e' ← e.transition .cancelled
  pure { e' with notes := cancelNotes reason e.notes }

def reschedule (patch : UpdateEventPatch) : Except ScheduleError ActivityEvent := do
  if e.status ≠ .scheduled then throw (.invalidEventTransition e.status e.status)
  let nextStart := patch.startsAt.getD e.startsAt
  let nextEnd := patch.endsAt.getD e.endsAt
  validateRange nextStart nextEnd
  pure { e with
    activityName := patch.activityName.getD e.activityName
    category := patch.category.getD e.category
    locationId := patch.locationId.getD e.locationId
    startsAt := nextStart
    endsAt := nextEnd
    notes := patch.notes.getD e.notes }

/-- The columns that `update` writes. -/
def saved (row : ActivityEvent) : ActivityEvent :=
  { row with
    activityName := e.activityName
    category := e.category
    locationId := e.locationId
    startsAt := e.startsAt
    endsAt := e.endsAt
    status := e.status
    notes := e.notes }

/-- The columns that `updateWithExpectedStatus` writes. -/
def moved (row : ActivityEvent) : ActivityEvent :=
  { row with
    activityName := e.activityName
    locationId := e.locationId
    startsAt := e.startsAt
    endsAt := e.endsAt
    status := e.status
    notes := e.notes }

/-- `ON DELETE SET NULL`. -/
def orphaned : ActivityEvent := { e with templateSlotId := none }

/-- A template event of the group in this half-open range. -/
def inWeek (groupId : Nat) (source stop : Int) : Bool :=
  e.groupId == groupId && e.origin == .template && decide (source ≤ e.startsAt) && decide (e.startsAt < stop)

/-- What `deleteTemplateScheduledInRange` matches. -/
def swept (groupId : Nat) (source stop after : Int) : Bool :=
  e.inWeek groupId source stop && e.status == .scheduled && decide (after < e.startsAt)

end ActivityEvent

/-! ## Week snapshots -/

structure ScheduleWeekSnapshot where
  id : Nat
  groupId : Nat
  weekStartDate : Int
  source : WeekSnapshotSource
  deriving DecidableEq

instance : Row ScheduleWeekSnapshot := ⟨ScheduleWeekSnapshot.id⟩

/-- `idx_schedule_week_snapshots_unique`. -/
def ScheduleWeekSnapshot.isOf (x : ScheduleWeekSnapshot) (groupId : Nat) (weekStartDate : Int) : Bool :=
  x.groupId == groupId && x.weekStartDate == weekStartDate

/-! ## The tables -/

structure Store where
  templates : List TemplateRow
  slots : List ScheduleTemplateSlot
  events : List ActivityEvent
  snapshots : List ScheduleWeekSnapshot
  deriving DecidableEq

inductive Key
  | row (id : Nat)
  /-- `idx_schedule_template_slots_unique`. -/
  | slot (templateId : Nat) (day : DayOfWeek) (startTime : Nat)
  /-- `idx_schedule_week_snapshots_unique`. -/
  | week (groupId : Nat) (weekStartDate : Int)
  deriving DecidableEq

inductive Write
  | insertTemplate (row : TemplateRow)
  | updateTemplate (row : TemplateRow)
  | deleteTemplate (id : Nat)
  | insertSlot (slot : ScheduleTemplateSlot)
  | updateSlot (slot : ScheduleTemplateSlot)
  | deleteSlot (id : Nat)
  | insertEvent (event : ActivityEvent)
  | updateEvent (event : ActivityEvent)
  /-- Where the status is still the expected one. -/
  | moveEvent (event : ActivityEvent) (expected : ActivityEventStatus)
  | deleteEvent (id : Nat)
  /-- One row of `deleteTemplateScheduledInRange`, its condition checked again. -/
  | sweepEvent (id groupId : Nat) (source stop after : Int)
  /-- One row of `ON DELETE SET NULL`. -/
  | orphanEvent (id slotId : Nat)
  /-- `ON CONFLICT DO NOTHING`. -/
  | insertSnapshot (x : ScheduleWeekSnapshot)

namespace Store

def templateAt (s : Store) (i : Nat) : Option TemplateRow := Table.find s.templates i

def slotAt (s : Store) (i : Nat) : Option ScheduleTemplateSlot := Table.find s.slots i

def eventAt (s : Store) (i : Nat) : Option ActivityEvent := Table.find s.events i

def snapshotAt (s : Store) (i : Nat) : Option ScheduleWeekSnapshot := Table.find s.snapshots i

/-- The slots of one template. -/
def slotsOf (s : Store) (templateId : Nat) : List ScheduleTemplateSlot :=
  s.slots.filter fun slot => slot.templateId == templateId

/-- The aggregate of a row. -/
def load (s : Store) (row : TemplateRow) : ScheduleTemplate := ⟨row, s.slotsOf row.id⟩

def keys : Write → List Key
  | .insertTemplate row | .updateTemplate row => [.row row.id]
  | .deleteTemplate i => [.row i]
  | .insertSlot slot | .updateSlot slot => [.row slot.id, .slot slot.templateId slot.dayOfWeek slot.startTime]
  | .deleteSlot i => [.row i]
  | .insertEvent e | .updateEvent e | .moveEvent e _ => [.row e.id]
  | .deleteEvent i | .sweepEvent i _ _ _ _ | .orphanEvent i _ => [.row i]
  | .insertSnapshot x => [.row x.id, .week x.groupId x.weekStartDate]

/-- No other slot of the template starts at that time. -/
def slotFree (s : Store) (slot : ScheduleTemplateSlot) : Bool :=
  s.slots.all fun q => q.id == slot.id || !q.isAt slot.templateId slot.dayOfWeek slot.startTime

/-- A slot's template must exist, and so must an event's slot. -/
def hit (s : Store) : Write → Bool
  | .insertTemplate row => (s.templateAt row.id).isNone
  | .updateTemplate row => (s.templateAt row.id).isSome
  | .deleteTemplate i => (s.templateAt i).isSome
  | .insertSlot slot => (s.slotAt slot.id).isNone && s.slotFree slot && (s.templateAt slot.templateId).isSome
  | .updateSlot slot => (s.slotAt slot.id).isSome && s.slotFree slot
  | .deleteSlot i => (s.slotAt i).isSome
  | .insertEvent e => (s.eventAt e.id).isNone && e.templateSlotId.all fun i => (s.slotAt i).isSome
  | .updateEvent e => (s.eventAt e.id).isSome
  | .moveEvent e expected => (s.eventAt e.id).any fun row => row.status == expected
  | .deleteEvent i => (s.eventAt i).isSome
  | .sweepEvent i g source stop after => (s.eventAt i).any fun row => row.swept g source stop after
  | .orphanEvent i slotId => (s.eventAt i).any fun row => row.templateSlotId == some slotId
  | .insertSnapshot x => (s.snapshotAt x.id).isNone && s.snapshots.all fun q => !q.isOf x.groupId x.weekStartDate

/-- `update` of a slot: every column but the two ids. -/
def savedSlot (slot row : ScheduleTemplateSlot) : ScheduleTemplateSlot :=
  { slot with id := row.id, templateId := row.templateId }

def savedTemplate (t row : TemplateRow) : TemplateRow := { t with id := row.id }

def apply (s : Store) : Write → Store
  | .insertTemplate row => { s with templates := s.templates ++ [row] }
  | .updateTemplate row => { s with
      templates := Table.updateWhere s.templates row.id (fun _ => true) (savedTemplate row) }
  | .deleteTemplate i => { s with templates := s.templates.filter fun row => row.id != i }
  | .insertSlot slot => { s with slots := s.slots ++ [slot] }
  | .updateSlot slot => { s with slots := Table.updateWhere s.slots slot.id (fun _ => true) (savedSlot slot) }
  | .deleteSlot i => { s with slots := s.slots.filter fun row => row.id != i }
  | .insertEvent e => { s with events := s.events ++ [e] }
  | .updateEvent e => { s with events := Table.updateWhere s.events e.id (fun _ => true) e.saved }
  | .moveEvent e expected => { s with
      events := Table.updateWhere s.events e.id (fun row => row.status == expected) e.moved }
  | .deleteEvent i => { s with events := s.events.filter fun row => row.id != i }
  | .sweepEvent i g source stop after => { s with
      events := s.events.filter fun row => !(row.id == i && row.swept g source stop after) }
  | .orphanEvent i slotId => { s with
      events := Table.updateWhere s.events i (fun row => row.templateSlotId == some slotId) ActivityEvent.orphaned }
  | .insertSnapshot x => { s with snapshots := s.snapshots ++ [x] }

end Store

instance : Relational Store Key Write where
  keys := Store.keys
  hit := Store.hit
  apply := Store.apply
  rowKey := Key.row
  absent s i := (s.templateAt i).isNone && (s.slotAt i).isNone && (s.eventAt i).isNone && (s.snapshotAt i).isNone

end Schedule
