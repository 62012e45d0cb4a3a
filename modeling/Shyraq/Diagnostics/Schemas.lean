import Mathlib.Data.Rat.Defs
import Mathlib.Algebra.Order.Ring.Rat
import Shyraq.Kernel.Calendar
import Shyraq.Kernel.Digits

/-!
# Template schemas and entry data

The pure validators.  A schema is kept as the shape check has read it: the fields that it knows, and beside them the
keys that it lets through unread.  JSON numbers are finite, and an object has each key once.
-/

namespace Diagnostics

open Kernel

inductive Json
  | null
  | bool (b : Bool)
  | num (n : ℚ)
  | str (s : String)
  | arr (items : List Json)
  | obj (fields : List (String × Json))

namespace Json

/-- `typeof`. -/
def typeOf : Json → String
  | null | arr _ | obj _ => "object"
  | bool _ => "boolean"
  | num _ => "number"
  | str _ => "string"

/-- `===` of values that are not objects; two objects that were parsed are never one. -/
def sameValue : Json → Json → Bool
  | null, null => true
  | bool a, bool b => a == b
  | num a, num b => a == b
  | str a, str b => a == b
  | _, _ => false

end Json

def lookup (fields : List (String × Json)) (key : String) : Option Json :=
  (fields.find? fun f => f.1 == key).map Prod.snd

mutual

def deepEqualJson : Json → Json → Bool
  | .arr as, .arr bs => deepEqualItems as bs
  | .obj as, .obj bs => as.length == bs.length && deepEqualFields as bs
  | a, b => a.sameValue b

def deepEqualItems : List Json → List Json → Bool
  | [], [] => true
  | a :: as, b :: bs => deepEqualJson a b && deepEqualItems as bs
  | _, _ => false

/-- Each of these fields is in the other object. -/
def deepEqualFields : List (String × Json) → List (String × Json) → Bool
  | [], _ => true
  | (key, a) :: as, bs =>
      (match lookup bs key with
        | some b => deepEqualJson a b
        | none => false) && deepEqualFields as bs

end

/-! ## Schemas -/

/-- What a field expects of its value, with the keys that only this type reads. -/
inductive TemplateFieldType
  | text
  | number (min max : Option ℚ)
  | boolean
  | select (options : List String)
  | multiselect (options : List String)
  | date
  | scale (min max : Option ℚ)
  deriving DecidableEq

/-- `TemplateFieldType` as it is written. -/
inductive TypeName
  | text | number | boolean | select | multiselect | date | scale
  deriving DecidableEq

structure TemplateField where
  key : String
  label : String
  type : TemplateFieldType
  required : Bool
  /-- The keys that this type does not read. -/
  extra : List (String × Json)

structure TemplateSection where
  title : String
  fields : List TemplateField
  extra : List (String × Json)

structure TemplateSchema where
  sections : List TemplateSection
  extra : List (String × Json)

def sameExtra (as bs : List (String × Json)) : Bool := as.length == bs.length && deepEqualFields as bs

def allSame {A : Type} (same : A → A → Bool) : List A → List A → Bool
  | [], [] => true
  | a :: as, b :: bs => same a b && allSame same as bs
  | _, _ => false

def TemplateField.same (a b : TemplateField) : Bool :=
  a.key == b.key && a.label == b.label && a.type == b.type && a.required == b.required && sameExtra a.extra b.extra

def TemplateSection.same (a b : TemplateSection) : Bool :=
  a.title == b.title && allSame TemplateField.same a.fields b.fields && sameExtra a.extra b.extra

/-- `deepEqualJson` of two schemas. -/
def TemplateSchema.same (a b : TemplateSchema) : Bool :=
  allSame TemplateSection.same a.sections b.sections && sameExtra a.extra b.extra

/-- What a validator says it wants. -/
inductive Expected
  | text (s : String)
  | atLeast (n : ℚ)
  | atMost (n : ℚ)
  | oneOf (options : List String)
  | elementOneOf (options : List String)
  deriving DecidableEq

/-- What it has found: a text, or `String(raw)` of a number. -/
inductive Actual
  | text (s : String)
  | number (n : ℚ)
  deriving DecidableEq

inductive DiagnosticError
  | schemaInvalid (path message : String)
  | schemaTooLarge (path limit : String)
  | entryDataInvalid (path : String) (expected : Expected) (actual : Actual)
  | templateNotFound (id : Nat)
  | templateHasEntries (id count : Nat)
  | templateInactive (id : Nat)
  | childNotFound (id : Nat)
  | entryNotFound (id : Nat)
  | notAuthoredByYou
  | optimisticLock
  | invariantViolation (code : String)
  /-- What the driver throws. -/
  | internal (message : String)
  deriving DecidableEq

def maxSections : Nat := 20
def maxFieldsPerSection : Nat := 50
def maxOptionsPerField : Nat := 100
def maxStringLength : Nat := 200

/-! ## The shape of a schema -/

def check (c : Bool) (e : DiagnosticError) : Except DiagnosticError Unit := if c then .ok () else .error e

def assertStringWithinCap (path raw : String) : Except DiagnosticError Unit :=
  check (textLength raw ≤ maxStringLength) (.schemaTooLarge path "string length > 200")

def isBlank (s : String) : Bool := textLength (trim s) == 0

/-- `FIELD_KEY_RE`. -/
def isFieldKey (s : String) : Bool :=
  match s.toList with
  | [] => false
  | c :: cs => c.isLower && cs.all fun c => c.isLower || c.isDigit || c == '_'

/-- A string under the key, or what to throw. -/
def stringAt (fields : List (String × Json)) (key : String) (e : DiagnosticError) : Except DiagnosticError String :=
  match lookup fields key with
  | some (.str s) => .ok s
  | _ => .error e

def arrayAt (fields : List (String × Json)) (key : String) (e : DiagnosticError) : Except DiagnosticError (List Json) :=
  match lookup fields key with
  | some (.arr items) => .ok items
  | _ => .error e

/-- Absent, or a number. -/
def boundAt (fields : List (String × Json)) (key : String) (e : DiagnosticError) : Except DiagnosticError (Option ℚ) :=
  match lookup fields key with
  | none => .ok none
  | some (.num n) => .ok (some n)
  | some _ => .error e

def without (fields : List (String × Json)) (keys : List String) : List (String × Json) :=
  fields.filter fun f => !keys.contains f.1

/-- `f` for each element with its index, and a state that goes along. -/
def forEachWith {A B T : Type} (f : T → Nat → A → Except DiagnosticError (T × B)) :
    T → Nat → List A → Except DiagnosticError (T × List B)
  | state, _, [] => .ok (state, [])
  | state, i, a :: as => do
      let (state, b) ← f state i a
      let (state, bs) ← forEachWith f state (i + 1) as
      pure (state, b :: bs)

def validateOption (fieldPath : String) (i : Nat) : Json → Except DiagnosticError String
  | .str s => do
      check (textLength s != 0) (.schemaInvalid s!"{fieldPath}.options[{i}]" "option must be a non-empty string")
      assertStringWithinCap s!"{fieldPath}.options[{i}]" s
      pure s
  | _ => .error (.schemaInvalid s!"{fieldPath}.options[{i}]" "option must be a non-empty string")

def validateOptions (fieldPath type : String) (field : List (String × Json)) : Except DiagnosticError (List String) := do
  let path := s!"{fieldPath}.options"
  let options ← arrayAt field "options" (.schemaInvalid path s!"{type} field requires options array")
  check (2 ≤ options.length) (.schemaInvalid path s!"{type} field requires at least 2 options")
  check (options.length ≤ maxOptionsPerField) (.schemaTooLarge path "options.length > 100")
  let (_, texts) ← forEachWith (fun _ i o => (validateOption fieldPath i o).map fun s => ((), s)) () 0 options
  pure texts

def validateBounds (fieldPath : String) (field : List (String × Json)) :
    Except DiagnosticError (Option ℚ × Option ℚ) := do
  let min ← boundAt field "min" (.schemaInvalid s!"{fieldPath}.min" "min must be a number")
  let max ← boundAt field "max" (.schemaInvalid s!"{fieldPath}.max" "max must be a number")
  check (min.all fun min => max.all fun max => decide (min < max))
    (.schemaInvalid fieldPath "min must be strictly less than max")
  pure (min, max)

/-- `VALID_TYPES`. -/
def validateType (path : String) : Option Json → Except DiagnosticError TypeName
  | some (.str "text") => .ok .text
  | some (.str "number") => .ok .number
  | some (.str "boolean") => .ok .boolean
  | some (.str "select") => .ok .select
  | some (.str "multiselect") => .ok .multiselect
  | some (.str "date") => .ok .date
  | some (.str "scale") => .ok .scale
  | _ => .error (.schemaInvalid path "field type must be one of text|number|boolean|select|multiselect|date|scale")

/-- The type with the keys that it reads. -/
def readType (fieldPath : String) (field : List (String × Json)) : TypeName → Except DiagnosticError TemplateFieldType
  | .text => .ok .text
  | .boolean => .ok .boolean
  | .date => .ok .date
  | .select => (validateOptions fieldPath "select" field).map .select
  | .multiselect => (validateOptions fieldPath "multiselect" field).map .multiselect
  | .number => (validateBounds fieldPath field).map fun b => .number b.1 b.2
  | .scale => (validateBounds fieldPath field).map fun b => .scale b.1 b.2

def TypeName.keys : TypeName → List String
  | .text | .boolean | .date => ["key", "label", "type", "required"]
  | .select | .multiselect => ["key", "label", "type", "required", "options"]
  | .number | .scale => ["key", "label", "type", "required", "min", "max"]

def asObject (e : DiagnosticError) : Json → Except DiagnosticError (List (String × Json))
  | .obj fields => .ok fields
  | _ => .error e

def boolAt (fields : List (String × Json)) (key : String) (e : DiagnosticError) : Except DiagnosticError Bool :=
  match lookup fields key with
  | some (.bool b) => .ok b
  | _ => .error e

/-- `seenKeys` are the keys of the fields before this one, across sections. -/
def validateField (sectionPath : String) (seenKeys : List String) (fieldIdx : Nat) (v : Json) :
    Except DiagnosticError (List String × TemplateField) := do
  let fieldPath := s!"{sectionPath}.fields[{fieldIdx}]"
  let field ← asObject (.schemaInvalid fieldPath "field must be an object") v
  let keyPath := s!"{fieldPath}.key"
  let key ← stringAt field "key" (.schemaInvalid keyPath "field key must be a non-empty string")
  check (textLength key != 0) (.schemaInvalid keyPath "field key must be a non-empty string")
  check (isFieldKey key) (.schemaInvalid keyPath "field key must match /^[a-z][a-z0-9_]*$/ (snake_case)")
  assertStringWithinCap keyPath key
  check (!seenKeys.contains key) (.schemaInvalid keyPath s!"duplicate field key: {key}")
  let labelPath := s!"{fieldPath}.label"
  let label ← stringAt field "label" (.schemaInvalid labelPath "field label must be a non-empty string")
  check (!isBlank label) (.schemaInvalid labelPath "field label must be a non-empty string")
  assertStringWithinCap labelPath label
  let name ← validateType s!"{fieldPath}.type" (lookup field "type")
  let required ← boolAt field "required" (.schemaInvalid s!"{fieldPath}.required" "field required must be boolean")
  let type ← readType fieldPath field name
  pure (seenKeys ++ [key], ⟨key, label, type, required, without field name.keys⟩)

def validateSection (seenKeys : List String) (sectionIdx : Nat) (v : Json) :
    Except DiagnosticError (List String × TemplateSection) := do
  let sectionPath := s!"sections[{sectionIdx}]"
  let obj ← asObject (.schemaInvalid sectionPath "section must be an object") v
  let titlePath := s!"{sectionPath}.title"
  let title ← stringAt obj "title" (.schemaInvalid titlePath "section title must be a non-empty string")
  check (!isBlank title) (.schemaInvalid titlePath "section title must be a non-empty string")
  assertStringWithinCap titlePath title
  let fieldsPath := s!"{sectionPath}.fields"
  let items ← arrayAt obj "fields" (.schemaInvalid fieldsPath "fields must be an array")
  check (1 ≤ items.length) (.schemaInvalid fieldsPath "section must contain at least one field")
  check (items.length ≤ maxFieldsPerSection) (.schemaTooLarge fieldsPath "fields.length > 50")
  let (seenKeys, fields) ← forEachWith (validateField sectionPath) seenKeys 0 items
  pure (seenKeys, ⟨title, fields, without obj ["title", "fields"]⟩)

def validateTemplateSchemaShape (v : Json) : Except DiagnosticError TemplateSchema := do
  let schema ← asObject (.schemaInvalid "" "schema must be an object") v
  let items ← arrayAt schema "sections" (.schemaInvalid "sections" "sections must be an array")
  check (1 ≤ items.length) (.schemaInvalid "sections" "sections must contain at least one section")
  check (items.length ≤ maxSections) (.schemaTooLarge "sections" "sections.length > 20")
  let (_, sections) ← forEachWith validateSection [] 0 items
  pure ⟨sections, without schema ["sections"]⟩

/-! ## Entry data -/

/-- `DATE_RE`, and a day of the calendar. -/
def dateShaped (s : String) : Bool :=
  match s.toList with
  | [a, b, c, d, '-', e, f, '-', g, h] => [a, b, c, d, e, f, g, h].all Char.isDigit
  | _ => false

def digitsOf (cs : List Char) : Nat := cs.foldl (fun n c => 10 * n + (c.toNat - '0'.toNat)) 0

def isCalendarDate (s : String) : Bool :=
  let cs := s.toList
  let year := digitsOf (cs.take 4)
  let month := digitsOf ((cs.drop 5).take 2)
  let day := digitsOf (cs.drop 8)
  let first := 12 * (year : Int) + ((month : Int) - 1)
  decide (1 ≤ month) && decide (month ≤ 12) && decide (1 ≤ day) &&
    decide ((day : Int) ≤ monthStart (first + 1) - monthStart first)

/-- `new Set(raw).size !== raw.length`. -/
def hasDuplicates : List Json → Bool
  | [] => false
  | a :: as => as.any a.sameValue || hasDuplicates as

def checkRange (key : String) (min max : Option ℚ) (n : ℚ) : Except DiagnosticError Unit := do
  check (min.all fun min => decide (min ≤ n)) (.entryDataInvalid key (.atLeast (min.getD 0)) (.number n))
  check (max.all fun max => decide (n ≤ max)) (.entryDataInvalid key (.atMost (max.getD 0)) (.number n))

def validateElements (key : String) (options : List String) : List Json → Except DiagnosticError Unit
  | [] => .ok ()
  | .str s :: rest => do
      check (options.contains s) (.entryDataInvalid key (.elementOneOf options) (.text s))
      validateElements key options rest
  | v :: _ => .error (.entryDataInvalid key (.text "string element") (.text v.typeOf))

/-- A value that is there, by the type of its field. -/
def validateValue (field : TemplateField) (raw : Json) : Except DiagnosticError Unit :=
  let wrongType (wanted : String) : Except DiagnosticError Unit :=
    .error (.entryDataInvalid field.key (.text wanted) (.text raw.typeOf))
  match field.type, raw with
  | .text, .str s =>
      check (!(field.required && isBlank s)) (.entryDataInvalid field.key (.text "required") (.text "empty"))
  | .text, _ => wrongType "string"
  | .number min max, .num n => checkRange field.key min max n
  | .number .., _ => wrongType "number"
  | .boolean, .bool _ => .ok ()
  | .boolean, _ => wrongType "boolean"
  | .select options, .str s =>
      check (options.contains s) (.entryDataInvalid field.key (.oneOf options) (.text s))
  | .select _, _ => wrongType "string"
  | .multiselect options, .arr items => do
      check (!(field.required && items.isEmpty))
        (.entryDataInvalid field.key (.text "required") (.text "empty_array"))
      check (!hasDuplicates items) (.entryDataInvalid field.key (.text "unique elements") (.text "duplicates"))
      validateElements field.key options items
  | .multiselect _, _ => wrongType "array"
  | .date, .str s => do
      check (dateShaped s) (.entryDataInvalid field.key (.text "YYYY-MM-DD") (.text s))
      check (isCalendarDate s)
        (.entryDataInvalid field.key (.text "valid calendar date (YYYY-MM-DD)") (.text s))
  | .date, _ => wrongType "YYYY-MM-DD"
  | .scale min max, .num n => do
      check (n.den == 1) (.entryDataInvalid field.key (.text "integer") (.number n))
      checkRange field.key (some (min.getD 1)) (some (max.getD 10)) n
  | .scale .., _ => wrongType "number"

/-- A key that is absent, or `null`, is missing. -/
def validateEntryField (data : List (String × Json)) (field : TemplateField) : Except DiagnosticError Unit :=
  match lookup data field.key with
  | none | some .null =>
      check (!field.required) (.entryDataInvalid field.key (.text "required") (.text "missing"))
  | some raw => validateValue field raw

/-- `for (const a of as) f(a)`: the first throw ends it. -/
def visit {A : Type} (f : A → Except DiagnosticError Unit) : List A → Except DiagnosticError Unit
  | [] => .ok ()
  | a :: as => do
      f a
      visit f as

def validateEntryData (templateSchema : TemplateSchema) (data : List (String × Json)) : Except DiagnosticError Unit :=
  visit (fun sec => visit (validateEntryField data) sec.fields) templateSchema.sections

/-! ## What deep equality keeps -/

theorem forall₂_of_allSame {A : Type} {same : A → A → Bool} {as bs : List A} (h : allSame same as bs = true) :
    List.Forall₂ (fun a b => same a b = true) as bs := by
  induction as generalizing bs with
  | nil =>
    cases bs with
    | nil => exact .nil
    | cons b bs => cases h
  | cons a as ih =>
    cases bs with
    | nil => cases h
    | cons b bs =>
      obtain ⟨hab, hrest⟩ := Bool.and_eq_true_iff.1 h
      exact .cons hab (ih hrest)

theorem visit_congr {A : Type} {R : A → A → Prop} {f : A → Except DiagnosticError Unit} (hf : ∀ a b, R a b → f a = f b)
    {as bs : List A} (h : List.Forall₂ R as bs) : visit f as = visit f bs := by
  induction h with
  | nil => rfl
  | cons hab _ ih =>
    unfold visit
    rw [hf _ _ hab, ih]

theorem reads_of_same {a b : TemplateField} (h : a.same b = true) (data : List (String × Json)) :
    validateEntryField data a = validateEntryField data b := by
  simp only [TemplateField.same, Bool.and_eq_true, beq_iff_eq] at h
  obtain ⟨⟨⟨⟨hkey, -⟩, htype⟩, hrequired⟩, -⟩ := h
  unfold validateEntryField validateValue
  rw [hkey, htype, hrequired]

theorem fields_of_same {a b : TemplateSection} (h : a.same b = true) :
    List.Forall₂ (fun x y => TemplateField.same x y = true) a.fields b.fields := by
  unfold TemplateSection.same at h
  simp only [Bool.and_eq_true] at h
  exact forall₂_of_allSame h.1.2

/-- **Schemas that are deep-equal** judge every entry alike. -/
theorem validateEntryData_of_same {a b : TemplateSchema} (h : a.same b = true) (data : List (String × Json)) :
    validateEntryData a data = validateEntryData b data := by
  unfold TemplateSchema.same at h
  simp only [Bool.and_eq_true] at h
  have hsections : List.Forall₂ (fun x y => TemplateSection.same x y = true) a.sections b.sections := forall₂_of_allSame h.1
  refine visit_congr (fun x y hxy => ?_) hsections
  exact visit_congr (fun (f g : TemplateField) (hfg : f.same g = true) => reads_of_same hfg data) (fields_of_same hxy)

end Diagnostics
