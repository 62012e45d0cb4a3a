import Shyraq.Diagnostics.ValidEntries

/-!
# Edits one at a time

A template and an entry are saved under the `row_version` that was read, so what a commit replaces is the row as it
stands.  A run of edits, in any interleaving, is one of them after the other.
-/

namespace Diagnostics

open Kernel Transactions

/-- What a request makes of a template, on its own. -/
def DiagnosticTemplate.after (row : DiagnosticTemplate) : Op → DiagnosticTemplate
  | .updateTemplate id patch => if id = row.id then (row.update patch).toOption.elim row row.saved else row
  | .deactivateTemplate id => if id = row.id then row.deactivate.toOption.elim row row.saved else row
  | _ => row

/-- And of an entry. -/
def DiagnosticEntry.after (row : DiagnosticEntry) : Op → DiagnosticEntry
  | .updateEntry now id _ user patch => if id = row.id then row.saved (row.update patch user now) else row
  | _ => row

section

variable {op : Op} {t : Tx Store Key Write} {s : Store} {i : Nat}

theorem Outcome.template (h : Outcome op t s) {row : DiagnosticTemplate} (hrow : s.template i = some row) :
    (t.view s).template i = some (row.after op) := by
  have same : (t.view s).templates = s.templates → (t.view s).template i = some row :=
    fun he => (congrArg (Table.find · i) he).trans hrow
  have saved : ∀ {id} {a n : DiagnosticTemplate} {f : DiagnosticTemplate → Except DiagnosticError DiagnosticTemplate},
      f a = .ok n → Table.Replaced s.templates (t.view s).templates id a (a.saved n) →
      (t.view s).template i = some (if id = row.id then (f row).toOption.elim row row.saved else row) := by
    intro id a n f hn templates
    rw [show row.id = i from Table.id_of_find hrow]
    refine (templates.after i).trans ?_
    by_cases hid : i = id
    · subst hid
      obtain rfl : row = a := Option.some.inj (hrow.symm.trans templates.before)
      rw [if_pos rfl, if_pos rfl, hn]
      rfl
    · rw [if_neg hid, if_neg (Ne.symm hid)]
      exact hrow
  cases h with
  | @updated id patch _ _ a n hn held templates entries => exact saved (f := fun row => row.update patch) hn templates
  | deactivated a n hn held templates entries => exact saved (f := DiagnosticTemplate.deactivate) hn templates
  | created j held fresh templates entries read there => exact same templates
  | edited e held templates entries read => exact same templates

theorem Outcome.entry (h : Outcome op t s) {row : DiagnosticEntry} (hrow : s.entry i = some row) :
    (t.view s).entry i = some (row.after op) := by
  have same : (t.view s).entries = s.entries → (t.view s).entry i = some row :=
    fun he => (congrArg (Table.find · i) he).trans hrow
  cases h with
  | updated a n hn held templates entries => exact same entries
  | deactivated a n hn held templates entries => exact same entries
  | created j held fresh templates entries read there =>
    show Table.find (t.view s).entries i = some row
    rw [entries, Table.find_append, show Table.find s.entries i = some row from hrow, Option.some_or]
  | @edited now id staff user patch _ _ e held templates entries read =>
    show Table.find (t.view s).entries i = some (if id = row.id then _ else row)
    rw [show row.id = i from Table.id_of_find hrow, entries.after]
    by_cases hid : i = id
    · subst hid
      rw [if_pos rfl, if_pos rfl, Option.some.inj (hrow.symm.trans entries.before)]
    · rw [if_neg hid, if_neg (Ne.symm hid)]
      exact hrow

end

/-- One session reads the template, the other renames it meanwhile: the first has to come again. -/
def renameUnderRead : Schedule 2 :=
  .start 0 (.deactivateTemplate 1) :: .step 0 0 ::
    (Choice.request 1 (.updateTemplate 1 ⟨some "renamed", none, none⟩) 4 0 ++ Choice.steps 0 2 0 ++
      Choice.request 0 (.deactivateTemplate 1) 4 0)

end Diagnostics
