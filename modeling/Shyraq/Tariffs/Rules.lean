import Shyraq.Tariffs.Services

/-!
# Rules for tariff transactions

`Store.WF` is what every committed store satisfies.  Plan requests write plans only, assignment
requests assignments only; the `safe_` rules run the repository calls.
-/

namespace Tariffs

open Kernel Transactions

/-! ## Well-formed stores -/

/-- Ids are unique. -/
structure Store.WF (s : Store) : Prop where
  planIds : Table.Unique s.plans
  assignmentIds : Table.Unique s.assignments

instance (s : Store) : Decidable s.WF :=
  decidable_of_iff ((s.plans.map TariffPlan.id).Nodup ∧ (s.assignments.map TariffAssignment.id).Nodup)
    ⟨fun ⟨h₁, h₂⟩ => ⟨h₁, h₂⟩, fun ⟨h₁, h₂⟩ => ⟨h₁, h₂⟩⟩

theorem Store.WF.apply {s : Store} (h : s.WF) (w : Write) : (s.apply w).WF := by
  cases w with
  | insertPlan p =>
    refine { h with planIds := ?_ }
    show Table.Unique (if (s.plan? p.id).isNone then s.plans ++ [p] else s.plans)
    split
    · next hn => exact Table.unique_append h.planIds (Option.isNone_iff_eq_none.1 hn)
    · exact h.planIds
  | updatePlan i patch =>
    exact { h with planIds := Table.unique_updateWhere h.planIds i _ _ fun _ => rfl }
  | savePlan p =>
    exact { h with planIds := Table.unique_updateWhere h.planIds p.id _ _ fun _ => rfl }
  | insertAssignment a =>
    refine { h with assignmentIds := ?_ }
    show Table.Unique (if (s.assignment? a.id).isNone then s.assignments ++ [a] else s.assignments)
    split
    · next hn => exact Table.unique_append h.assignmentIds (Option.isNone_iff_eq_none.1 hn)
    · exact h.assignmentIds
  | updateAssignment i patch =>
    exact { h with assignmentIds := Table.unique_updateWhere h.assignmentIds i _ _ fun _ => rfl }
  | saveAssignment a =>
    exact { h with assignmentIds := Table.unique_updateWhere h.assignmentIds a.id _ _ fun _ => rfl }
  | clampAssignment i c u =>
    exact { h with assignmentIds := Table.unique_updateWhere h.assignmentIds i _ _ fun _ => rfl }

theorem Store.WF.view {s : Store} (h : s.WF) (t : Tx Store Key Write) : (t.view s).WF := by
  unfold Tx.view
  generalize t.writes = ws
  induction ws generalizing s with
  | nil => exact h
  | cons w ws ih => exact ih (h.apply w)

/-! ## Which table a statement writes -/

def Write.OfPlans : Write → Prop
  | .insertPlan _ | .updatePlan .. | .savePlan _ => True
  | .insertAssignment _ | .updateAssignment .. | .saveAssignment _ | .clampAssignment .. => False

def Write.OfAssignments : Write → Prop
  | .insertPlan _ | .updatePlan .. | .savePlan _ => False
  | .insertAssignment _ | .updateAssignment .. | .saveAssignment _ | .clampAssignment .. => True

theorem plans_apply {s : Store} {w : Write} (h : w.OfAssignments) : (s.apply w).plans = s.plans := by
  cases w <;> first | rfl | exact h.elim

theorem assignments_apply {s : Store} {w : Write} (h : w.OfPlans) : (s.apply w).assignments = s.assignments := by
  cases w <;> first | rfl | exact h.elim

section

variable {A B : Type} {P : Write → Prop}

theorem onlyWrites_require {o : Option A} {e : TariffError} : Prog.OnlyWrites P (Prog.require o e : Sql A) := by
  cases o <;> trivial

theorem onlyWrites_guardOr {c : Bool} {e : TariffError} : Prog.OnlyWrites P (Prog.guardOr c e : Sql Unit) := by
  cases c <;> trivial

theorem onlyWrites_toDomain {fs : A → Except String A} {o : Option A} :
    Prog.OnlyWrites P (toDomain fs o : Sql (Option A)) := by
  cases o with
  | none => trivial
  | some row =>
    show Prog.OnlyWrites P (Prog.bind (orThrow (fs row)) _)
    cases fs row <;> trivial

theorem onlyWrites_findPlan (id : Nat) : Prog.OnlyWrites P (TariffPlanRepository.findById id) :=
  fun _ => onlyWrites_toDomain

theorem onlyWrites_findAssignment (id : Nat) :
    Prog.OnlyWrites P (TariffAssignmentRepository.findById id) := fun _ => onlyWrites_toDomain

theorem onlyWrites_insertOr {w : Write} {e : TariffError} (h : P w) :
    Prog.OnlyWrites P (Prog.insertOr w e : Sql Unit) :=
  ⟨h, fun _ => onlyWrites_guardOr⟩

theorem onlyWrites_returning {w : Write} {row : Store → Option A} (h : P w) :
    Prog.OnlyWrites P (Prog.returning w row : Sql (Option A)) := by
  refine ⟨h, fun b => ?_⟩
  cases b
  · trivial
  · exact fun _ => trivial

end

/-! ## Repository calls -/

section

variable {D : Discipline Store Key Write} {J : Store → Prop} {X : TariffError → Prop} {A B : Type}
  {Q : Tx Store Key Write → Store → B → Prop} {t : Tx Store Key Write} {s : Store}

theorem safe_orThrow {r : Except String A} {f : A → Sql B} (hX : ∀ e, X e)
    (h : ∀ a, r = .ok a → Prog.Safe D J X Q (f a) t s) : Prog.Safe D J X Q (Prog.bind (orThrow r) f) t s := by
  cases r with
  | error m => exact hX _
  | ok a => exact h a rfl

theorem safe_found {fs : A → Except String A} {o : Option A} {e : TariffError} {f : A → Sql B}
    (hX : ∀ e, X e) (h : ∀ row a, o = some row → fs row = .ok a → Prog.Safe D J X Q (f a) t s) :
    Prog.Safe D J X Q (Prog.bind (toDomain fs o) fun r => Prog.bind (Prog.require r e) f) t s := by
  cases o with
  | none => exact hX _
  | some row =>
    show Prog.Safe D J X Q (Prog.bind (Prog.bind (orThrow (fs row)) _) _) t s
    cases hr : fs row with
    | error m => exact hX _
    | ok a => exact h row a rfl hr

end

end Tariffs
