import Shyraq.Diagnostics.Schemas
import Shyraq.Transactions.Runs
import Shyraq.Transactions.Statements
import Shyraq.Transactions.Table

/-!
# DiagnosticTemplateService and DiagnosticEntryService

Templates and the entries that are filled in after them, each row with its `row_version`.  Whether the child is there is
part of a request, as is the clock.  The columns `created_by`, `created_at` and `updated_at`, the notification of a new
entry and the look-ups of who asks are left out.
-/

namespace Diagnostics

open Kernel Transactions

structure DiagnosticTemplate where
  id : Nat
  specialistType : String
  name : String
  description : Option String
  version : Nat
  rowVersion : Nat
  isActive : Bool
  schema : TemplateSchema

instance : Row DiagnosticTemplate := ⟨DiagnosticTemplate.id⟩

/-- `none` leaves the field alone. -/
structure DiagnosticTemplateUpdatePatch where
  name : Option String
  description : Option (Option String)
  schema : Option Json

namespace DiagnosticTemplate

variable (template : DiagnosticTemplate)

def deactivate : Except DiagnosticError DiagnosticTemplate :=
  if template.isActive then .ok { template with isActive := false }
  else .error (.invariantViolation "already_inactive")

/-- The schema is stored as it comes; its version counts the real changes. -/
def withSchema : Option Json → Except DiagnosticError DiagnosticTemplate
  | none => .ok template
  | some raw => do
      let schema ← validateTemplateSchemaShape raw
      pure { template with
        schema := schema
        version := if template.schema.same schema then template.version else template.version + 1 }

def update (patch : DiagnosticTemplateUpdatePatch) : Except DiagnosticError DiagnosticTemplate := do
  check (patch.name.all fun name => !isBlank name) (.invariantViolation "empty_name")
  { template with
    name := patch.name.getD template.name
    description := patch.description.getD template.description }.withSchema patch.schema

end DiagnosticTemplate

structure DiagnosticEntry where
  id : Nat
  childId : Nat
  templateId : Nat
  specialistId : Nat
  /-- A day of the calendar. -/
  assessmentDate : Int
  data : List (String × Json)
  summary : Option String
  recommendations : Option String
  attachments : List String
  rowVersion : Nat
  lastModifiedByUserId : Option Nat
  lastModifiedAt : Option Int

instance : Row DiagnosticEntry := ⟨DiagnosticEntry.id⟩

/-- `none` leaves the field alone. -/
structure DiagnosticEntryUpdatePatch where
  data : Option (List (String × Json))
  summary : Option (Option String)
  recommendations : Option (Option String)
  attachments : Option (List String)

def DiagnosticEntry.update (entry : DiagnosticEntry) (patch : DiagnosticEntryUpdatePatch) (callerUserId : Nat)
    (now : Int) : DiagnosticEntry :=
  { entry with
    data := patch.data.getD entry.data
    summary := patch.summary.getD entry.summary
    recommendations := patch.recommendations.getD entry.recommendations
    attachments := patch.attachments.getD entry.attachments
    lastModifiedByUserId := some callerUserId
    lastModifiedAt := some now }

/-! ## The tables -/

structure Store where
  templates : List DiagnosticTemplate
  entries : List DiagnosticEntry

inductive Key
  | row (id : Nat)
  deriving DecidableEq

inductive Write
  /-- `UPDATE … WHERE row_version = $expected`, every column that can change. -/
  | updateTemplate (template : DiagnosticTemplate) (expectedRowVersion : Nat)
  | insertEntry (entry : DiagnosticEntry)
  | updateEntry (entry : DiagnosticEntry) (expectedRowVersion : Nat)

/-- What the UPDATE leaves of the row it finds. -/
def DiagnosticTemplate.saved (row template : DiagnosticTemplate) : DiagnosticTemplate :=
  { row with
    name := template.name
    description := template.description
    version := template.version
    isActive := template.isActive
    schema := template.schema
    rowVersion := row.rowVersion + 1 }

def DiagnosticEntry.saved (row entry : DiagnosticEntry) : DiagnosticEntry :=
  { row with
    data := entry.data
    summary := entry.summary
    recommendations := entry.recommendations
    attachments := entry.attachments
    lastModifiedByUserId := entry.lastModifiedByUserId
    lastModifiedAt := entry.lastModifiedAt
    rowVersion := row.rowVersion + 1 }

namespace Store

variable (s : Store)

def template (id : Nat) : Option DiagnosticTemplate := Table.find s.templates id
def entry (id : Nat) : Option DiagnosticEntry := Table.find s.entries id

def keys : Write → List Key
  | .updateTemplate template _ => [.row template.id]
  | .insertEntry entry => [.row entry.id]
  | .updateEntry entry _ => [.row entry.id]

/-- A template is never deleted, so the foreign key of an entry is checked here only. -/
def hit : Write → Bool
  | .updateTemplate template expected => (s.template template.id).any fun row => row.rowVersion == expected
  | .insertEntry entry => (s.entry entry.id).isNone && (s.template entry.templateId).isSome
  | .updateEntry entry expected => (s.entry entry.id).any fun row => row.rowVersion == expected

def apply : Write → Store
  | .updateTemplate template expected => { s with
      templates := Table.updateWhere s.templates template.id (fun row => row.rowVersion == expected)
        fun row => row.saved template }
  | .insertEntry entry => { s with
      entries := if (s.entry entry.id).isNone then s.entries ++ [entry] else s.entries }
  | .updateEntry entry expected => { s with
      entries := Table.updateWhere s.entries entry.id (fun row => row.rowVersion == expected)
        fun row => row.saved entry }

end Store

instance : Relational Store Key Write where
  keys := Store.keys
  hit := Store.hit
  apply := Store.apply
  rowKey := .row
  absent s i := (s.template i).isNone && (s.entry i).isNone

abbrev Sql (A : Type) := Prog Store Key Write DiagnosticError A

/-! ## Repositories -/

namespace DiagnosticTemplateRepository

def findById (id : Nat) : Sql (Option DiagnosticTemplate) := Prog.query fun s => s.template id

def countEntriesUsingTemplate (templateId : Nat) : Sql Nat :=
  Prog.query fun s => (s.entries.filter fun e => e.templateId == templateId).length

def update (template : DiagnosticTemplate) (expectedRowVersion : Nat) : Sql DiagnosticTemplate := do
  let matched ← Prog.update (.updateTemplate template expectedRowVersion)
  Prog.guardOr matched .optimisticLock
  let persisted ← findById template.id
  Prog.require persisted (.internal "diagnostic_template_update_lost")

end DiagnosticTemplateRepository

namespace DiagnosticEntryRepository

def findById (id : Nat) : Sql (Option DiagnosticEntry) := Prog.query fun s => s.entry id

def create (entry : DiagnosticEntry) : Sql DiagnosticEntry := do
  Prog.insertOr (.insertEntry entry) (.internal "QueryFailedError")
  let persisted ← findById entry.id
  Prog.require persisted (.internal "diagnostic_entry_create_lost")

def update (entry : DiagnosticEntry) (expectedRowVersion : Nat) : Sql DiagnosticEntry := do
  let matched ← Prog.update (.updateEntry entry expectedRowVersion)
  Prog.guardOr matched .optimisticLock
  let persisted ← findById entry.id
  Prog.require persisted (.internal "diagnostic_entry_update_lost")

end DiagnosticEntryRepository

/-! ## Services -/

namespace DiagnosticTemplateService

def requireTemplate (id : Nat) : Sql DiagnosticTemplate := do
  let existing ← DiagnosticTemplateRepository.findById id
  Prog.require existing (.templateNotFound id)

/-- The patch carries a schema that differs from the one that is there; a malformed one always does. -/
def changesSchema (existing : DiagnosticTemplate) (patch : DiagnosticTemplateUpdatePatch) : Bool :=
  patch.schema.any fun raw =>
    match validateTemplateSchemaShape raw with
    | .ok schema => !existing.schema.same schema
    | .error _ => true

/-- A real change of the schema is refused once there are entries. -/
def checkUnused (existing : DiagnosticTemplate) (patch : DiagnosticTemplateUpdatePatch) : Sql Unit :=
  if changesSchema existing patch then do
    let entriesCount ← DiagnosticTemplateRepository.countEntriesUsingTemplate existing.id
    Prog.guardOr (entriesCount == 0) (.templateHasEntries existing.id entriesCount)
  else pure ()

def update (id : Nat) (patch : DiagnosticTemplateUpdatePatch) : Sql DiagnosticTemplate := do
  let existing ← requireTemplate id
  checkUnused existing patch
  let updated ← Prog.ofExcept (existing.update patch)
  DiagnosticTemplateRepository.update updated existing.rowVersion

def deactivate (id : Nat) : Sql DiagnosticTemplate := do
  let existing ← requireTemplate id
  let deactivated ← Prog.ofExcept existing.deactivate
  DiagnosticTemplateRepository.update deactivated existing.rowVersion

end DiagnosticTemplateService

structure CreateDiagnosticEntryInput where
  childId : Nat
  templateId : Nat
  specialistId : Nat
  assessmentDate : Int
  data : List (String × Json)
  summary : Option String
  recommendations : Option String
  attachments : List String

namespace DiagnosticEntryService

def newEntry (id : Nat) (input : CreateDiagnosticEntryInput) : DiagnosticEntry where
  id := id
  childId := input.childId
  templateId := input.templateId
  specialistId := input.specialistId
  assessmentDate := input.assessmentDate
  data := input.data
  summary := input.summary
  recommendations := input.recommendations
  attachments := input.attachments
  rowVersion := 1
  lastModifiedByUserId := none
  lastModifiedAt := none

def create (now : Int) (childExists : Bool) (input : CreateDiagnosticEntryInput) : Sql DiagnosticEntry := do
  Prog.guardOr childExists (.childNotFound input.childId)
  let template ← DiagnosticTemplateRepository.findById input.templateId
  let template ← Prog.require template (.templateNotFound input.templateId)
  Prog.guardOr template.isActive (.templateInactive input.templateId)
  Prog.ofExcept (validateEntryData template.schema input.data)
  Prog.guardOr (decide (input.assessmentDate ≤ formatDateInTimezone now))
    (.invariantViolation "assessment_date_in_future")
  let id ← Prog.uuid
  DiagnosticEntryRepository.create (newEntry id input)

/-- New data are checked against the template of the entry. -/
def checkData (existing : DiagnosticEntry) : Option (List (String × Json)) → Sql Unit
  | none => pure ()
  | some data => do
      let template ← DiagnosticTemplateRepository.findById existing.templateId
      let template ← Prog.require template (.templateNotFound existing.templateId)
      Prog.ofExcept (validateEntryData template.schema data)

def update (now : Int) (id callerStaffMemberId callerUserId : Nat) (patch : DiagnosticEntryUpdatePatch) :
    Sql DiagnosticEntry := do
  let existing ← DiagnosticEntryRepository.findById id
  let existing ← Prog.require existing (.entryNotFound id)
  Prog.guardOr (existing.specialistId == callerStaffMemberId) .notAuthoredByYou
  checkData existing patch.data
  DiagnosticEntryRepository.update (existing.update patch callerUserId now) existing.rowVersion

end DiagnosticEntryService

/-! ## Requests -/

inductive Op
  | updateTemplate (id : Nat) (patch : DiagnosticTemplateUpdatePatch)
  | deactivateTemplate (id : Nat)
  | createEntry (now : Int) (childExists : Bool) (input : CreateDiagnosticEntryInput)
  | updateEntry (now : Int) (id callerStaffMemberId callerUserId : Nat) (patch : DiagnosticEntryUpdatePatch)

inductive Answer
  | template (t : DiagnosticTemplate)
  | entry (e : DiagnosticEntry)

def Op.prog : Op → Sql Answer
  | updateTemplate id patch => do
      let template ← DiagnosticTemplateService.update id patch
      pure (.template template)
  | deactivateTemplate id => do
      let template ← DiagnosticTemplateService.deactivate id
      pure (.template template)
  | createEntry now childExists input => do
      let entry ← DiagnosticEntryService.create now childExists input
      pure (.entry entry)
  | updateEntry now id callerStaffMemberId callerUserId patch => do
      let entry ← DiagnosticEntryService.update now id callerStaffMemberId callerUserId patch
      pure (.entry entry)

abbrev System (n : Nat) := Transactions.System Store Key Write DiagnosticError Op Answer n
abbrev Schedule (n : Nat) := List (Choice Op n)
abbrev Commit := Transactions.Commit Store Key Write Op Answer

def run {n : Nat} (s : Store) (cs : Schedule n) : Option (System n) := (System.init s).exec Op.prog cs

end Diagnostics
