import Shyraq.Schedule.Entities

/-!
# ScheduleService

Each request is one transaction with one clock reading.  What other modules answer is part of the request: the
groups that are not archived, whether a group exists.  A foreign key is checked where the row is written; the
share lock on the referenced row is left out, which allows more interleavings and forbids none.
-/

namespace Schedule

open Kernel Transactions

abbrev Sql (A : Type) := Prog Store Key Write ScheduleError A

/-! ## Repositories -/

namespace ScheduleTemplateRepository

def findById (templateId : Nat) : Sql (Option ScheduleTemplate) :=
  Prog.query fun s => (s.templateAt templateId).map s.load

def create (template : ScheduleTemplate) : Sql ScheduleTemplate := do
  Prog.insertOr (.insertTemplate template.row) (.internal "schedule_templates_pkey")
  Prog.forEach (fun slot => Prog.insertOr (.insertSlot slot) (.slotConflict template.row.id none)) template.slots
  let reloaded ← findById template.row.id
  Prog.require reloaded (.internal "schedule_template_create_readback_failed")

/-- In the order of the table. -/
def listActiveValidOn (date : Int) : Sql (List ScheduleTemplate) :=
  Prog.query fun s => (s.templates.filter fun row => row.activeOn (utcDay date)).map s.load

/-- The DELETE, then what the foreign key of `activity_events` does. -/
def deleteSlot (slotId : Nat) : Sql Unit := do
  let _ ← Prog.update (.deleteSlot slotId)
  let orphans ← Prog.query fun s => (s.events.filter fun e => e.templateSlotId == some slotId).map ActivityEvent.id
  Prog.forEach (fun i => do
    let _ ← Prog.update (.orphanEvent i slotId)
    pure ()) orphans

/-- No row, or a violated index. -/
def updateSlot (slot : ScheduleTemplateSlot) : Sql Unit := do
  let matched ← Prog.update (.updateSlot slot)
  let missing ← Prog.query fun s => (s.slotAt slot.id).isNone
  Prog.guardOr (matched || missing) (.internal "idx_schedule_template_slots_unique")

/-- The template, then its slots reconciled with the rows there are: delete, update, insert. -/
def save (template : ScheduleTemplate) : Sql ScheduleTemplate := do
  let _ ← Prog.update (.updateTemplate template.row)
  let existing ← Prog.query fun s => s.slotsOf template.row.id
  let isStored (slot : ScheduleTemplateSlot) : Bool := existing.any fun row => row.id == slot.id
  let isDesired (row : ScheduleTemplateSlot) : Bool := template.slots.any fun slot => slot.id == row.id
  Prog.forEach (fun row => deleteSlot row.id) (existing.filter fun row => !isDesired row)
  Prog.forEach updateSlot (template.slots.filter isStored)
  Prog.forEach (fun slot => Prog.insertOr (.insertSlot slot) (.slotConflict template.row.id none))
    (template.slots.filter fun slot => !isStored slot)
  let reloaded ← findById template.row.id
  Prog.require reloaded (.internal "schedule_template_save_readback_failed")

/-- The DELETE, then what the foreign key of `schedule_template_slots` does. -/
def delete (templateId : Nat) : Sql Unit := do
  let _ ← Prog.update (.deleteTemplate templateId)
  let slots ← Prog.query fun s => s.slotsOf templateId
  Prog.forEach (fun slot => deleteSlot slot.id) slots

end ScheduleTemplateRepository

namespace ActivityEventRepository

def create (event : ActivityEvent) : Sql ActivityEvent := do
  Prog.insertOr (.insertEvent event) (.internal "activity_events")
  let row ← Prog.query fun s => s.eventAt event.id
  Prog.require row (.internal "activity_event_create_readback_failed")

def createMany (events : List ActivityEvent) : Sql Unit :=
  Prog.forEach (fun event => Prog.insertOr (.insertEvent event) (.internal "activity_events")) events

def findById (eventId : Nat) : Sql (Option ActivityEvent) := Prog.query fun s => s.eventAt eventId

/-- The whole row, whatever it has become since. -/
def update (event : ActivityEvent) : Sql ActivityEvent := do
  let row ← Prog.returning (.updateEvent event) fun s => s.eventAt event.id
  Prog.require row (.internal "activity_event_update_readback_failed")

def updateWithExpectedStatus (event : ActivityEvent) (expectedOldStatus : ActivityEventStatus) : Sql Bool :=
  Prog.update (.moveEvent event expectedOldStatus)

def delete (eventId : Nat) : Sql Unit := do
  let _ ← Prog.update (.deleteEvent eventId)
  pure ()

/-- One DELETE: the rows it finds, each checked again under its lock. -/
def deleteTemplateScheduledInRange (groupId : Nat) (source stop after : Int) : Sql Unit := do
  let matched ← Prog.query fun s => (s.events.filter fun e => e.swept groupId source stop after).map ActivityEvent.id
  Prog.forEach (fun i => do
    let _ ← Prog.update (.sweepEvent i groupId source stop after)
    pure ()) matched

end ActivityEventRepository

namespace ScheduleWeekSnapshotRepository

def findByGroupAndWeek (groupId : Nat) (weekStart : Int) : Sql (Option ScheduleWeekSnapshot) :=
  Prog.query fun s => s.snapshots.find? fun x => x.isOf groupId (utcDay weekStart)

/-- `none` where the week is taken. -/
def tryCreate (snapshot : ScheduleWeekSnapshot) : Sql (Option ScheduleWeekSnapshot) :=
  Prog.returning (.insertSnapshot snapshot) fun s => s.snapshotAt snapshot.id

/-- By week; no `groupId` means every group. -/
def list (groupId : Option Nat) (source : Int) : Sql (List ScheduleWeekSnapshot) :=
  Prog.query fun s => (s.snapshots.filter fun x =>
    groupId.all (fun g => x.groupId == g) && decide (utcDay source ≤ x.weekStartDate)).insertionSort
      fun a b => a.weekStartDate ≤ b.weekStartDate

end ScheduleWeekSnapshotRepository

/-! ## The service -/

structure CopyWeekResult where
  copiedGroups : Nat
  skippedGroups : Nat
  totalEvents : Nat
  snapshots : List ScheduleWeekSnapshot
  deriving DecidableEq

/-- When a slot starts in the week of this Monday. -/
def ScheduleTemplateSlot.startsIn (slot : ScheduleTemplateSlot) (weekStart : Int) : Int :=
  combineDateAndTime (weekStart + (slot.dayOfWeek.isoDay - 1 : Int) * msPerDay) slot.startTime

def ScheduleTemplateSlot.endsIn (slot : ScheduleTemplateSlot) (weekStart : Int) : Int :=
  combineDateAndTime (weekStart + (slot.dayOfWeek.isoDay - 1 : Int) * msPerDay) slot.endTime

/-- A slot's event in one group and week. -/
def ScheduleTemplateSlot.project (slot : ScheduleTemplateSlot) (groupId : Nat) (weekStart : Int) :
    CreateActivityEventInput where
  groupId := groupId
  templateSlotId := some slot.id
  origin := .template
  activityName := slot.activityName
  category := some slot.category
  locationId := slot.locationId
  startsAt := slot.startsIn weekStart
  endsAt := some (slot.endsIn weekStart)
  createdBy := none
  notes := none

namespace ScheduleService

def requireTemplate (templateId : Nat) : Sql ScheduleTemplate := do
  let template ← ScheduleTemplateRepository.findById templateId
  Prog.require template (.scheduleTemplateNotFound templateId)

def requireEvent (eventId : Nat) : Sql ActivityEvent := do
  let event ← ActivityEventRepository.findById eventId
  Prog.require event (.activityEventNotFound eventId)

def createScheduled (input : CreateActivityEventInput) : Sql ActivityEvent := do
  let id ← Prog.uuid
  Prog.ofExcept (ActivityEvent.createScheduled id input)

/-- `templates.filter(...)`, then the slots of each. -/
def applicableSlots (templates : List ScheduleTemplate) (groupId : Nat) : List ScheduleTemplateSlot :=
  (templates.filter fun t => t.row.appliesTo groupId).flatMap ScheduleTemplate.slots

def rematerializeWeek (now : Int) (groupId : Nat) (weekStart : Int) (templates : List ScheduleTemplate) :
    Sql Unit := do
  let ahead := (applicableSlots templates groupId).filter fun slot => decide (now < slot.startsIn weekStart)
  let events ← Prog.collect (fun slot => createScheduled (slot.project groupId weekStart)) ahead
  ActivityEventRepository.deleteTemplateScheduledInRange groupId weekStart (weekStart + msPerWeek) now
  ActivityEventRepository.createMany events

/-- `normalizeSnapshotWeekStart(snapshot.weekStartDate)`. -/
def weekStartOf (snapshot : ScheduleWeekSnapshot) : Int := normalizeSnapshotWeekStart (midnight snapshot.weekStartDate)

/-- `templatesByWeek`: the templates of a week are read once. -/
def templatesOf (cache : List (Int × List ScheduleTemplate)) (weekStart : Int) :
    Sql (List (Int × List ScheduleTemplate) × List ScheduleTemplate) :=
  match cache.find? fun p => p.1 == weekStart with
  | some (_, templates) => pure (cache, templates)
  | none => do
      let templates ← ScheduleTemplateRepository.listActiveValidOn weekStart
      pure ((weekStart, templates) :: cache, templates)

def rematerializeWeeks (now : Int) :
    List (Int × List ScheduleTemplate) → List ScheduleWeekSnapshot → Sql Unit
  | _, [] => pure ()
  | cache, snapshot :: rest => do
      let found ← templatesOf cache (weekStartOf snapshot)
      rematerializeWeek now snapshot.groupId (weekStartOf snapshot) found.2
      rematerializeWeeks now found.1 rest

def rematerializeFutureWeeks (now : Int) (groupId : Option Nat) : Sql Unit := do
  let snapshots ← ScheduleWeekSnapshotRepository.list groupId (startOfIsoWeek now)
  rematerializeWeeks now [] snapshots

/-! ### Templates -/

def createTemplate (input : CreateTemplateInput) (groupExists : Bool) : Sql ScheduleTemplate := do
  Prog.guardOr (input.validUntil.all fun last => decide (input.validFrom ≤ last))
    (.internal "valid_until must be >= valid_from")
  Prog.forEach (fun g => Prog.guardOr groupExists (.groupNotFound g)) input.groupId.toList
  let id ← Prog.uuid
  let template := ScheduleTemplate.createNew id input
  ScheduleTemplateRepository.create (if input.isActive = some false then template.deactivate else template)

/-- `save`, then the future weeks of the template's group. -/
def saveAndRematerialize (now : Int) (template : ScheduleTemplate) : Sql ScheduleTemplate := do
  let saved ← ScheduleTemplateRepository.save template
  rematerializeFutureWeeks now saved.row.groupId
  pure saved

def updateTemplate (now : Int) (templateId : Nat) (patch : UpdateTemplatePatch) : Sql ScheduleTemplate := do
  let template ← requireTemplate templateId
  saveAndRematerialize now (template.update patch)

def deleteTemplate (now : Int) (templateId : Nat) : Sql Unit := do
  let template ← requireTemplate templateId
  ScheduleTemplateRepository.delete templateId
  rematerializeFutureWeeks now template.row.groupId

/-! ### Slots -/

def addSlot (now : Int) (templateId : Nat) (input : AddSlotInput) : Sql ScheduleTemplate := do
  let template ← requireTemplate templateId
  let id ← Prog.uuid
  let added ← Prog.ofExcept (template.addSlot id input)
  saveAndRematerialize now added

def updateSlot (now : Int) (templateId slotId : Nat) (patch : UpdateSlotPatch) : Sql ScheduleTemplate := do
  let template ← requireTemplate templateId
  let updated ← Prog.ofExcept (template.updateSlot slotId patch)
  saveAndRematerialize now updated

def removeSlot (now : Int) (templateId slotId : Nat) : Sql ScheduleTemplate := do
  let template ← requireTemplate templateId
  let removed ← Prog.ofExcept (template.removeSlot slotId)
  saveAndRematerialize now removed

/-! ### Events -/

structure CreateAdHocEventInput where
  groupId : Nat
  activityName : String
  category : Option SlotCategory
  locationId : Option Nat
  startsAt : Int
  endsAt : Option Int
  notes : Option String
  createdByStaffId : Option Nat
  deriving DecidableEq

def createAdHocEvent (input : CreateAdHocEventInput) (groupExists : Bool) : Sql ActivityEvent := do
  Prog.guardOr groupExists (.groupNotFound input.groupId)
  let event ← createScheduled
    { groupId := input.groupId
      templateSlotId := none
      origin := .adhoc
      activityName := input.activityName
      category := input.category
      locationId := input.locationId
      startsAt := input.startsAt
      endsAt := input.endsAt
      createdBy := input.createdByStaffId
      notes := input.notes }
  ActivityEventRepository.create event

def updateEvent (eventId : Nat) (patch : UpdateEventPatch) : Sql ActivityEvent := do
  let event ← requireEvent eventId
  let rescheduled ← Prog.ofExcept (event.reschedule patch)
  ActivityEventRepository.update rescheduled

def deleteEvent (eventId : Nat) : Sql Unit := do
  let event ← requireEvent eventId
  Prog.guardOr (event.status == .scheduled) (.eventNotDeletable event.status)
  ActivityEventRepository.delete eventId

/-- Of two clicks on the same status, one wins. -/
def persistTransition (event : ActivityEvent) (expectedOldStatus : ActivityEventStatus) : Sql ActivityEvent := do
  let ok ← ActivityEventRepository.updateWithExpectedStatus event expectedOldStatus
  Prog.guardOr ok (.eventTransitionConflict event.id expectedOldStatus event.status)
  let fresh ← ActivityEventRepository.findById event.id
  Prog.require fresh (.activityEventNotFound event.id)

/-- `startEvent`, `completeEvent` and `cancelEvent` differ in what they make of the event. -/
def transitionEvent (eventId : Nat) (f : ActivityEvent → Except ScheduleError ActivityEvent) :
    Sql ActivityEvent := do
  let event ← requireEvent eventId
  let moved ← Prog.ofExcept (f event)
  persistTransition moved event.status

def startEvent (eventId : Nat) : Sql ActivityEvent := transitionEvent eventId ActivityEvent.start

def completeEvent (eventId : Nat) : Sql ActivityEvent := transitionEvent eventId ActivityEvent.complete

def cancelEvent (eventId : Nat) (reason : String) : Sql ActivityEvent :=
  transitionEvent eventId fun e => e.cancel reason

/-! ### Weeks -/

/-- One group of `copyWeekToNext`. -/
def copyGroup (nextMonday : Int) (source : WeekSnapshotSource) (templates : List ScheduleTemplate) (groupId : Nat) :
    Sql CopyWeekResult := do
  let existing ← ScheduleWeekSnapshotRepository.findByGroupAndWeek groupId nextMonday
  match existing with
  | some _ => pure ⟨0, 1, 0, []⟩
  | none => do
      let events ← Prog.collect (fun slot => createScheduled (slot.project groupId nextMonday))
        (applicableSlots templates groupId)
      let id ← Prog.uuid
      -- the claim on the week comes before its events
      let saved ← ScheduleWeekSnapshotRepository.tryCreate ⟨id, groupId, utcDay nextMonday, source⟩
      match saved with
      | none => pure ⟨0, 1, 0, []⟩
      | some snapshot => do
          ActivityEventRepository.createMany events
          pure ⟨1, 0, events.length, [snapshot]⟩

def CopyWeekResult.add (a b : CopyWeekResult) : CopyWeekResult where
  copiedGroups := a.copiedGroups + b.copiedGroups
  skippedGroups := a.skippedGroups + b.skippedGroups
  totalEvents := a.totalEvents + b.totalEvents
  snapshots := a.snapshots ++ b.snapshots

def copyGroups (nextMonday : Int) (source : WeekSnapshotSource) (templates : List ScheduleTemplate) :
    List Nat → Sql CopyWeekResult
  | [] => pure ⟨0, 0, 0, []⟩
  | groupId :: rest => do
      let one ← copyGroup nextMonday source templates groupId
      let others ← copyGroups nextMonday source templates rest
      pure (CopyWeekResult.add one others)

/-- `groups` are those that are not archived. -/
def copyWeekToNext (fromMonday : Int) (source : WeekSnapshotSource) (groups : List Nat) : Sql CopyWeekResult := do
  let nextMonday := startOfIsoWeek fromMonday + msPerWeek
  let templates ← ScheduleTemplateRepository.listActiveValidOn nextMonday
  copyGroups nextMonday source templates groups

end ScheduleService

/-! ## Requests -/

inductive Op
  | createTemplate (now : Int) (input : CreateTemplateInput) (groupExists : Bool)
  | updateTemplate (now : Int) (templateId : Nat) (patch : UpdateTemplatePatch)
  | deleteTemplate (now : Int) (templateId : Nat)
  | addSlot (now : Int) (templateId : Nat) (input : AddSlotInput)
  | updateSlot (now : Int) (templateId slotId : Nat) (patch : UpdateSlotPatch)
  | removeSlot (now : Int) (templateId slotId : Nat)
  | copyWeekToNext (now : Int) (fromMonday : Int) (source : WeekSnapshotSource) (groups : List Nat)
  | createAdHocEvent (now : Int) (input : ScheduleService.CreateAdHocEventInput) (groupExists : Bool)
  | updateEvent (now : Int) (eventId : Nat) (patch : UpdateEventPatch)
  | deleteEvent (now : Int) (eventId : Nat)
  | startEvent (now : Int) (eventId : Nat)
  | completeEvent (now : Int) (eventId : Nat)
  | cancelEvent (now : Int) (eventId : Nat) (reason : String)
  deriving DecidableEq

inductive Response
  | template (t : ScheduleTemplate)
  | event (e : ActivityEvent)
  | copied (r : CopyWeekResult)
  | deleted
  deriving DecidableEq

namespace Op

open ScheduleService

/-- When the request runs. -/
def now : Op → Int
  | createTemplate t _ _ | updateTemplate t _ _ | deleteTemplate t _ | addSlot t _ _ | updateSlot t _ _ _
  | removeSlot t _ _ | copyWeekToNext t _ _ _ | createAdHocEvent t _ _ | updateEvent t _ _ | deleteEvent t _
  | startEvent t _ | completeEvent t _ | cancelEvent t _ _ => t

def answer {A : Type} (f : A → Response) (p : Sql A) : Sql Response := Prog.bind p fun a => .ret (f a)

def prog : Op → Sql Response
  | createTemplate _ input groupExists => answer .template (ScheduleService.createTemplate input groupExists)
  | updateTemplate now i patch => answer .template (ScheduleService.updateTemplate now i patch)
  | deleteTemplate now i => answer (fun _ => .deleted) (ScheduleService.deleteTemplate now i)
  | addSlot now i input => answer .template (ScheduleService.addSlot now i input)
  | updateSlot now i slotId patch => answer .template (ScheduleService.updateSlot now i slotId patch)
  | removeSlot now i slotId => answer .template (ScheduleService.removeSlot now i slotId)
  | copyWeekToNext _ fromMonday source groups =>
      answer .copied (ScheduleService.copyWeekToNext fromMonday source groups)
  | createAdHocEvent _ input groupExists => answer .event (ScheduleService.createAdHocEvent input groupExists)
  | updateEvent _ i patch => answer .event (ScheduleService.updateEvent i patch)
  | deleteEvent _ i => answer (fun _ => .deleted) (ScheduleService.deleteEvent i)
  | startEvent _ i => answer .event (ScheduleService.startEvent i)
  | completeEvent _ i => answer .event (ScheduleService.completeEvent i)
  | cancelEvent _ i reason => answer .event (ScheduleService.cancelEvent i reason)

end Op

abbrev System (n : Nat) := Transactions.System Store Key Write ScheduleError Op Response n

abbrev Interleaving (n : Nat) := List (Choice Op n)

abbrev ScheduleCommit := Commit Store Key Write Op Response

def init {n : Nat} (s : Store) : System n := System.init s

def run {n : Nat} (s : Store) (cs : Interleaving n) : Option (System n) := (init s).exec Op.prog cs

end Schedule
