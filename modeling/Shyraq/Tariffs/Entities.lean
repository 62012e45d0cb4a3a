import Shyraq.Billing.Entities
import Shyraq.Kernel.Windows
import Shyraq.Transactions.Statements
import Shyraq.Transactions.Runs

/-!
# Tariff plans and tariff assignments

The catalogue of one kindergarten.  Dates in a row are UTC days; the domain objects hold
instants, and the mappers cut them to days.  The columns `currency`, `created_at`,
`updated_at` and `assigned_by` are left out.
-/

namespace Tariffs

open Kernel Transactions

abbrev TariffType := Billing.InvoiceType

abbrev DiscountRules := Billing.DiscountRules

inductive TariffAppliesTo
  | allChildren | group | ageRange | individual
  deriving DecidableEq, Repr

/-! ## Plans -/

structure TariffPlan where
  id : Nat
  name : String
  description : List (String × String)
  tariffType : TariffType
  amount : Int
  appliesTo : TariffAppliesTo
  groupId : Option Nat
  ageMinMonths : Option Nat
  ageMaxMonths : Option Nat
  isActive : Bool
  validFrom : Int
  validUntil : Option Int
  discountRules : DiscountRules
  deriving DecidableEq

instance : Row TariffPlan := ⟨TariffPlan.id⟩

namespace TariffPlan

def window (p : TariffPlan) : Window Int := ⟨p.validFrom, p.validUntil⟩

/-- The constructor: the first check that fails. -/
def fromState (p : TariffPlan) : Except String TariffPlan :=
  if p.appliesTo = .group ∧ p.groupId = none then
    .error "TariffPlan: groupId is required when appliesTo=group"
  else if p.appliesTo = .ageRange ∧ (p.ageMinMonths = none ∨ p.ageMaxMonths = none) then
    .error "TariffPlan: ageMinMonths and ageMaxMonths are required when appliesTo=age_range"
  else if p.appliesTo = .ageRange ∧ p.ageMaxMonths.getD 0 < p.ageMinMonths.getD 0 then
    .error "TariffPlan: ageMinMonths must be <= ageMaxMonths"
  else if ¬ p.window.Ordered then
    .error "TariffPlan: validUntil must be >= validFrom"
  else .ok p

/-- The bounds that go with `appliesTo`. -/
structure Scoped (p : TariffPlan) : Prop where
  group : p.appliesTo = .group → p.groupId ≠ none
  ages : p.appliesTo = .ageRange →
    p.ageMinMonths ≠ none ∧ p.ageMaxMonths ≠ none ∧ p.ageMinMonths.getD 0 ≤ p.ageMaxMonths.getD 0

theorem fromState_eq_ok_iff {p q : TariffPlan} : p.fromState = .ok q ↔ q = p ∧ p.Scoped ∧ p.window.Ordered := by
  unfold fromState
  split
  · next h => exact iff_of_false (by simp) fun hs => hs.2.1.group h.1 h.2
  · next hg =>
    split
    · next h =>
      refine iff_of_false (by simp) fun hs => ?_
      rcases h.2 with hn | hn
      · exact (hs.2.1.ages h.1).1 hn
      · exact (hs.2.1.ages h.1).2.1 hn
    · next ha =>
      split
      · next h =>
        refine iff_of_false (by simp) fun hs => ?_
        have := (hs.2.1.ages h.1).2.2
        omega
      · next hb =>
        split
        · next h => exact iff_of_false (by simp) fun hs => h hs.2.2
        · next h =>
          rw [not_not] at h
          constructor
          · rintro ⟨⟩
            refine ⟨rfl, ⟨fun hgr hn => hg ⟨hgr, hn⟩, fun har => ⟨?_, ?_, ?_⟩⟩, h⟩
            · exact fun hn => ha ⟨har, .inl hn⟩
            · exact fun hn => ha ⟨har, .inr hn⟩
            · exact Nat.le_of_not_lt fun hlt => hb ⟨har, hlt⟩
          · rintro ⟨rfl, -, -⟩
            rfl

/-- `deactivate`. -/
def deactivate (p : TariffPlan) (now : Int) : TariffPlan :=
  { p with isActive := false, validUntil := some (utcDay now) }

end TariffPlan

/-- A patch; `none` leaves the column alone. -/
structure UpdateTariffPlanPatch where
  name : Option String
  description : Option (List (String × String))
  amount : Option Decimal
  appliesTo : Option TariffAppliesTo
  groupId : Option (Option Nat)
  ageMinMonths : Option (Option Nat)
  ageMaxMonths : Option (Option Nat)
  isActive : Option Bool
  validFrom : Option Int
  validUntil : Option (Option Int)
  discountRules : Option DiscountRules

/-- The columns that the patch sets. -/
def UpdateTariffPlanPatch.set (patch : UpdateTariffPlanPatch) (p : TariffPlan) : TariffPlan :=
  { p with
    name := patch.name.getD p.name
    description := patch.description.getD p.description
    amount := (patch.amount.map MoneyKzt.fromKzt).getD p.amount
    appliesTo := patch.appliesTo.getD p.appliesTo
    groupId := patch.groupId.getD p.groupId
    ageMinMonths := patch.ageMinMonths.getD p.ageMinMonths
    ageMaxMonths := patch.ageMaxMonths.getD p.ageMaxMonths
    isActive := patch.isActive.getD p.isActive
    validFrom := (patch.validFrom.map utcDay).getD p.validFrom
    validUntil := (patch.validUntil.map fun u => u.map utcDay).getD p.validUntil
    discountRules := patch.discountRules.getD p.discountRules }

/-- `UpdateTariffPlanDto`; dates are instants, since `IsDateString` admits a time of day. -/
structure UpdateTariffPlanDto where
  name : Option String
  description : Option (List (String × String))
  amount : Option Decimal
  discountRules : Option DiscountRules
  validUntil : Option (Option Int)

def UpdateTariffPlanDto.patch (dto : UpdateTariffPlanDto) : UpdateTariffPlanPatch where
  name := dto.name
  description := dto.description
  amount := dto.amount
  appliesTo := none
  groupId := none
  ageMinMonths := none
  ageMaxMonths := none
  isActive := none
  validFrom := none
  validUntil := dto.validUntil
  discountRules := dto.discountRules

/-! ## Assignments -/

structure TariffAssignment where
  id : Nat
  childId : Nat
  tariffPlanId : Nat
  customAmount : Option Int
  customReason : Option String
  validFrom : Int
  validUntil : Option Int
  deriving DecidableEq

instance : Row TariffAssignment := ⟨TariffAssignment.id⟩

namespace TariffAssignment

def window (a : TariffAssignment) : Window Int := ⟨a.validFrom, a.validUntil⟩

def fromState (a : TariffAssignment) : Except String TariffAssignment :=
  if a.customAmount.any fun c => decide (c < 0) then
    .error "TariffAssignment: customAmount must be >= 0"
  else if ¬ a.window.Ordered then
    .error "TariffAssignment: validUntil must be >= validFrom"
  else .ok a

theorem fromState_eq_ok_iff {a b : TariffAssignment} :
    a.fromState = .ok b ↔ b = a ∧ (∀ c ∈ a.customAmount, 0 ≤ c) ∧ a.window.Ordered := by
  have hc : (a.customAmount.any fun c => decide (c < 0)) = true ↔ ¬ ∀ c ∈ a.customAmount, 0 ≤ c := by
    cases a.customAmount <;> simp
  unfold fromState
  split
  · next h => exact iff_of_false (by simp) fun hs => hc.1 h hs.2.1
  · next h =>
    rw [hc, not_not] at h
    split
    · next ho => exact iff_of_false (by simp) fun hs => ho hs.2.2
    · next ho =>
      rw [not_not] at ho
      constructor
      · rintro ⟨⟩
        exact ⟨rfl, h, ho⟩
      · rintro ⟨rfl, -, -⟩
        rfl

/-- `close`: an end that is set stays. -/
def close (a : TariffAssignment) (now : Int) : TariffAssignment :=
  { a with validUntil := some (a.validUntil.getD (utcDay now)) }

end TariffAssignment

structure UpdateTariffAssignmentPatch where
  tariffPlanId : Option Nat
  customAmount : Option (Option Decimal)
  customReason : Option (Option String)
  validFrom : Option Int
  validUntil : Option (Option Int)

def UpdateTariffAssignmentPatch.set (patch : UpdateTariffAssignmentPatch) (a : TariffAssignment) :
    TariffAssignment :=
  { a with
    tariffPlanId := patch.tariffPlanId.getD a.tariffPlanId
    customAmount := (patch.customAmount.map fun c => c.map MoneyKzt.fromKzt).getD a.customAmount
    customReason := patch.customReason.getD a.customReason
    validFrom := (patch.validFrom.map utcDay).getD a.validFrom
    validUntil := (patch.validUntil.map fun u => u.map utcDay).getD a.validUntil }

/-- `UpdateTariffAssignmentDto`. -/
structure UpdateTariffAssignmentDto where
  customAmount : Option (Option Decimal)
  customReason : Option (Option String)
  validUntil : Option (Option Int)

def UpdateTariffAssignmentDto.patch (dto : UpdateTariffAssignmentDto) : UpdateTariffAssignmentPatch where
  tariffPlanId := none
  customAmount := dto.customAmount
  customReason := dto.customReason
  validFrom := none
  validUntil := dto.validUntil

/-! ## Tables -/

structure Store where
  plans : List TariffPlan
  assignments : List TariffAssignment

inductive Key
  | row (id : Nat)
  /-- `tariff-overlap:<kg>:<type>:<appliesTo>:<groupId>`. -/
  | overlap (type : TariffType) (appliesTo : TariffAppliesTo) (groupId : Option Nat)
  /-- `billing:tariff-assign:<kg>:<childId>`. -/
  | assignChild (childId : Nat)
  deriving DecidableEq

inductive Write
  | insertPlan (p : TariffPlan)
  | updatePlan (id : Nat) (patch : UpdateTariffPlanPatch)
  /-- The columns of `save`. -/
  | savePlan (p : TariffPlan)
  | insertAssignment (a : TariffAssignment)
  | updateAssignment (id : Nat) (patch : UpdateTariffAssignmentPatch)
  | saveAssignment (a : TariffAssignment)
  /-- One row of the bulk UPDATE of `closeActiveForChild`. -/
  | clampAssignment (id childId : Nat) (validUntil : Int)

/-- `save` writes all columns but these. -/
def TariffPlan.saved (p row : TariffPlan) : TariffPlan :=
  { p with id := row.id, tariffType := row.tariffType }

def TariffAssignment.saved (a row : TariffAssignment) : TariffAssignment :=
  { a with id := row.id, childId := row.childId }

/-- `child_id = $2 AND (valid_until IS NULL OR valid_until > $3)`. -/
def TariffAssignment.openAfter (childId : Nat) (validUntil : Int) (a : TariffAssignment) : Bool :=
  a.childId == childId && a.validUntil.all fun u => decide (validUntil < u)

namespace Store

def plan? (s : Store) (i : Nat) : Option TariffPlan := Table.find s.plans i

def assignment? (s : Store) (i : Nat) : Option TariffAssignment := Table.find s.assignments i

def keys : Write → List Key
  | .insertPlan p | .savePlan p => [.row p.id]
  | .insertAssignment a | .saveAssignment a => [.row a.id]
  | .updatePlan i _ | .updateAssignment i _ | .clampAssignment i _ _ => [.row i]

def hit (s : Store) : Write → Bool
  | .insertPlan p => (s.plan? p.id).isNone
  | .updatePlan i _ => (s.plan? i).isSome
  | .savePlan p => (s.plan? p.id).isSome
  | .insertAssignment a => (s.assignment? a.id).isNone && (s.plan? a.tariffPlanId).isSome
  | .updateAssignment i _ => (s.assignment? i).isSome
  | .saveAssignment a => (s.assignment? a.id).isSome
  | .clampAssignment i c u => (s.assignment? i).any (TariffAssignment.openAfter c u)

def apply (s : Store) : Write → Store
  | .insertPlan p => { s with
      plans := if (s.plan? p.id).isNone then s.plans ++ [p] else s.plans }
  | .updatePlan i patch => { s with plans := Table.updateWhere s.plans i (fun _ => true) patch.set }
  | .savePlan p => { s with plans := Table.updateWhere s.plans p.id (fun _ => true) p.saved }
  | .insertAssignment a => { s with
      assignments := if (s.assignment? a.id).isNone then s.assignments ++ [a] else s.assignments }
  | .updateAssignment i patch =>
      { s with assignments := Table.updateWhere s.assignments i (fun _ => true) patch.set }
  | .saveAssignment a =>
      { s with assignments := Table.updateWhere s.assignments a.id (fun _ => true) a.saved }
  | .clampAssignment i c u => { s with
      assignments := Table.updateWhere s.assignments i (TariffAssignment.openAfter c u) fun a =>
        { a with validUntil := some u } }

end Store

instance : Relational Store Key Write where
  keys := Store.keys
  hit := Store.hit
  apply := Store.apply
  rowKey := Key.row
  absent s i := (s.plan? i).isNone && (s.assignment? i).isNone

end Tariffs
