import Shyraq.Diagnostics.Services

/-!
# Entries stay valid

An entry is checked against the schema that its request has read, and a schema is changed after its request has counted
no entries.  The data of every entry pass the current schema exactly as long as neither has been overtaken to its harm.
-/

namespace Diagnostics

open Kernel Transactions

/-! ## What is claimed -/

/-- `validateEntryData` does not throw. -/
def passes (schema : TemplateSchema) (data : List (String × Json)) : Bool := (validateEntryData schema data).isOk

/-- The template accepts the data as it is now. -/
def Store.accepts (s : Store) (templateId : Nat) (data : List (String × Json)) : Bool :=
  (s.template templateId).any fun template => passes template.schema data

def EntriesValid (s : Store) : Prop := ∀ e ∈ s.entries, s.accepts e.templateId e.data = true

/-- The entries there are pass a new schema, if it is one. -/
def Store.allPass (s : Store) (templateId : Nat) (raw : Json) : Bool :=
  match validateTemplateSchemaShape raw with
  | .ok schema => s.entries.all fun e => e.templateId != templateId || passes schema e.data
  | .error _ => true

/-- What the commit brings fits what is there by then: a schema the entries, and data the schema. -/
def Fits (s : Store) (c : Commit) : Prop :=
  match c.op with
  | .updateTemplate id patch => patch.schema.all (s.allPass id) = true
  | .deactivateTemplate _ => True
  | .createEntry _ _ input => s.accepts input.templateId input.data = true
  | .updateEntry _ id _ _ patch =>
      (s.entry id).all (fun e => patch.data.all (s.accepts e.templateId)) = true

instance (s : Store) : Decidable (EntriesValid s) := by
  unfold EntriesValid
  infer_instance

instance (s : Store) (c : Commit) : Decidable (Fits s c) := by
  unfold Fits
  split <;> infer_instance

/-- The schema that a SELECT has found is still the one. -/
def StillRead (s : Store) (v : Option Store) (templateId : Nat) : Prop :=
  ∀ w ∈ v, ∀ a ∈ w.template templateId, ∀ b ∈ s.template templateId, a.schema = b.schema

/-- Nothing has overtaken the commit: no entry a change of the schema, and no change of the schema an entry. -/
def NotOvertaken (s : Store) (c : Commit) : Prop :=
  match c.op with
  | .updateTemplate id patch => ∀ existing ∈ s.template id,
      DiagnosticTemplateService.changesSchema existing patch = true → ∀ e ∈ s.entries, e.templateId ≠ id
  | .deactivateTemplate _ => True
  | .createEntry _ _ input => StillRead s c.tx.seen.head? input.templateId
  | .updateEntry _ id _ _ _ => ∀ e ∈ s.entry id, StillRead s c.tx.seen[1]? e.templateId

/-! ## What others do -/

structure Store.WF (s : Store) : Prop where
  templates : Table.Unique s.templates
  entries : Table.Unique s.entries

instance (s : Store) : Decidable s.WF :=
  decidable_of_iff ((s.templates.map DiagnosticTemplate.id).Nodup ∧ (s.entries.map DiagnosticEntry.id).Nodup)
    ⟨fun ⟨h₁, h₂⟩ => ⟨h₁, h₂⟩, fun ⟨h₁, h₂⟩ => ⟨h₁, h₂⟩⟩

theorem Store.WF.apply {s : Store} (h : s.WF) (w : Write) : (s.apply w).WF := by
  cases w with
  | updateTemplate template expected =>
    exact ⟨Table.unique_updateWhere h.templates template.id _ _ fun _ => rfl, h.entries⟩
  | updateEntry entry expected => exact ⟨h.templates, Table.unique_updateWhere h.entries entry.id _ _ fun _ => rfl⟩
  | insertEntry entry =>
    refine ⟨h.templates, ?_⟩
    show Table.Unique (if (s.entry entry.id).isNone then s.entries ++ [entry] else s.entries)
    by_cases hnone : (s.entry entry.id).isNone = true
    · rw [if_pos hnone]
      exact Table.unique_append h.entries (Option.isNone_iff_eq_none.1 hnone)
    · rw [if_neg hnone]
      exact h.entries

theorem Store.WF.view {s : Store} (h : s.WF) (t : Tx Store Key Write) : (t.view s).WF := by
  unfold Tx.view
  generalize t.writes = ws
  induction ws generalizing s with
  | nil => exact h
  | cons w ws ih => exact ih (h.apply w)

/-- A row is as it was, or has a later version. -/
def DiagnosticTemplate.Step (a b : DiagnosticTemplate) : Prop := b = a ∨ a.rowVersion < b.rowVersion

def DiagnosticEntry.Step (a b : DiagnosticEntry) : Prop :=
  b.templateId = a.templateId ∧ (b = a ∨ a.rowVersion < b.rowVersion)

theorem DiagnosticTemplate.Step.refl (a : DiagnosticTemplate) : a.Step a := .inl rfl

theorem DiagnosticEntry.Step.refl (a : DiagnosticEntry) : a.Step a := ⟨rfl, .inl rfl⟩

variable {id : Nat} {a b existing : DiagnosticTemplate}

theorem DiagnosticTemplate.Step.trans {c : DiagnosticTemplate} (h₁ : a.Step b) (h₂ : b.Step c) : a.Step c := by
  rcases h₁ with rfl | h₁
  · exact h₂
  · rcases h₂ with rfl | h₂
    · exact .inr h₁
    · exact .inr (h₁.trans h₂)

theorem DiagnosticEntry.Step.trans {a b c : DiagnosticEntry} (h₁ : a.Step b) (h₂ : b.Step c) : a.Step c := by
  refine ⟨h₂.1.trans h₁.1, ?_⟩
  rcases h₁.2 with rfl | h₁
  · exact h₂.2
  · rcases h₂.2 with rfl | h₂
    · exact .inr h₁
    · exact .inr (h₁.trans h₂)

/-- Rows stay, a locked one as it is; whoever changes one gives it a later version. -/
def versions : Discipline Store Key Write where
  rely held s s' :=
    Table.Evolves DiagnosticTemplate.Step (fun i => Key.row i ∈ held) s.templates s'.templates ∧
      Table.Evolves DiagnosticEntry.Step (fun i => Key.row i ∈ held) s.entries s'.entries
  refl _ _ := ⟨.refl DiagnosticTemplate.Step.refl _, .refl DiagnosticEntry.Step.refl _⟩
  trans h₁ h₂ := ⟨h₁.1.trans (fun _ _ _ => .trans) h₂.1, h₁.2.trans (fun _ _ _ => .trans) h₂.2⟩
  mono hs h := ⟨h.1.mono fun _ hi => hs hi, h.2.mono fun _ hi => hs hi⟩

/-- What a request has done by the time it commits. -/
inductive Outcome : Op → Tx Store Key Write → Store → Prop
  | updated {id : Nat} {patch : DiagnosticTemplateUpdatePatch} {t : Tx Store Key Write} {s : Store}
      (existing n : DiagnosticTemplate) (hn : existing.update patch = .ok n) (held : Key.row id ∈ t.held)
      (templates : Table.Replaced s.templates (t.view s).templates id existing (existing.saved n))
      (entries : (t.view s).entries = s.entries) : Outcome (.updateTemplate id patch) t s
  | deactivated {id : Nat} {t : Tx Store Key Write} {s : Store} (existing n : DiagnosticTemplate)
      (hn : existing.deactivate = .ok n) (held : Key.row id ∈ t.held)
      (templates : Table.Replaced s.templates (t.view s).templates id existing (existing.saved n))
      (entries : (t.view s).entries = s.entries) : Outcome (.deactivateTemplate id) t s
  | created {now : Int} {childExists : Bool} {input : CreateDiagnosticEntryInput} {t : Tx Store Key Write} {s : Store}
      (i : Nat) (held : Key.row i ∈ t.held) (fresh : s.entry i = none)
      (templates : (t.view s).templates = s.templates)
      (entries : (t.view s).entries = s.entries ++ [DiagnosticEntryService.newEntry i input])
      (read : ∃ v ∈ t.seen.head?, v.accepts input.templateId input.data = true)
      (there : (s.template input.templateId).isSome = true) : Outcome (.createEntry now childExists input) t s
  | edited {now : Int} {id staff user : Nat} {patch : DiagnosticEntryUpdatePatch} {t : Tx Store Key Write} {s : Store}
      (e : DiagnosticEntry) (held : Key.row id ∈ t.held) (templates : (t.view s).templates = s.templates)
      (entries : Table.Replaced s.entries (t.view s).entries id e (e.saved (e.update patch user now)))
      (read : ∀ data ∈ patch.data, ∃ v ∈ t.seen[1]?, v.accepts e.templateId data = true) :
      Outcome (.updateEntry now id staff user patch) t s

section

variable {op : Op} {t : Tx Store Key Write} {s : Store}

theorem Outcome.guarantee (h : Outcome op t s) : versions.Guarantee t s := by
  intro held hd
  have sameTemplates : (t.view s).templates = s.templates →
      Table.Evolves DiagnosticTemplate.Step (fun i => Key.row i ∈ held) s.templates (t.view s).templates := by
    intro h
    rw [h]
    exact .refl DiagnosticTemplate.Step.refl _
  have sameEntries : (t.view s).entries = s.entries →
      Table.Evolves DiagnosticEntry.Step (fun i => Key.row i ∈ held) s.entries (t.view s).entries := by
    intro h
    rw [h]
    exact .refl DiagnosticEntry.Step.refl _
  cases h with
  | updated existing n hn hheld templates entries =>
    exact ⟨templates.evolves .refl (.inr (Nat.lt_succ_self _)) fun hk => hd hheld hk, sameEntries entries⟩
  | deactivated existing n hn hheld templates entries =>
    exact ⟨templates.evolves .refl (.inr (Nat.lt_succ_self _)) fun hk => hd hheld hk, sameEntries entries⟩
  | created i hheld fresh templates entries read there =>
    refine ⟨sameTemplates templates, ?_⟩
    rw [entries]
    exact .append .refl fun hk => hd hheld hk
  | edited e hheld templates entries read =>
    exact ⟨sameTemplates templates, entries.evolves .refl ⟨rfl, .inr (Nat.lt_succ_self _)⟩ fun hk => hd hheld hk⟩

end

/-! ## The requests one by one -/

section

variable {J : Store → Prop} {X : DiagnosticError → Prop} {B : Type} {Q : Tx Store Key Write → Store → B → Prop}
  {t : Tx Store Key Write} {s v : Store}

theorem template_of_version {held : List Key} (h : versions.rely held v s)
    (ha : v.template id = some a) (hb : s.template id = some b) (hversion : b.rowVersion = a.rowVersion) : b = a := by
  obtain ⟨b', hb', hstep, -⟩ := h.1.row id a ha
  obtain rfl := Option.some.inj (hb'.symm.trans hb)
  rcases hstep with hsame | hlater
  · exact hsame
  · omega

theorem entry_of_version {held : List Key} (h : versions.rely held v s) {a b : DiagnosticEntry}
    (ha : v.entry id = some a) (hb : s.entry id = some b) (hversion : b.rowVersion = a.rowVersion) : b = a := by
  obtain ⟨b', hb', hstep, -⟩ := h.2.row id a ha
  obtain rfl := Option.some.inj (hb'.symm.trans hb)
  rcases hstep.2 with hsame | hlater
  · exact hsame
  · omega

theorem safe_updateTemplate {n : DiagnosticTemplate} (hX : ∀ e, X e) (hJ : ∀ s, J s → s.WF)
    (hw : t.writes = []) (hid : n.id = existing.id) (hread : v.template existing.id = some existing)
    (h : ∀ t' s', Key.row existing.id ∈ t'.held →
      Table.Replaced s'.templates (t'.view s').templates existing.id existing (existing.saved n) →
      (t'.view s').entries = s'.entries → Outcome op t' s') :
    Prog.Safe versions (fun s => J s ∧ versions.rely t.held v s) X (fun t s _ => Outcome op t s)
      (Prog.bind (DiagnosticTemplateRepository.update n existing.rowVersion) fun a => .ret (Answer.template a)) t s := by
  unfold DiagnosticTemplateRepository.update DiagnosticTemplateRepository.findById
  simp only [Prog.bind_eq, Prog.bind_assoc]
  refine Prog.Safe.update (fun s₁ _ hj₁ hh => ?_) fun s₁ _ _ _ => Prog.Safe.guardOr hX fun hno => by cases hno
  rw [Tx.view_of_unwritten hw] at hh
  have hany : (s₁.template n.id).any (fun row => row.rowVersion == existing.rowVersion) = true := hh
  obtain ⟨b, hb, hversion⟩ := (Option.any_eq_true _ _).1 hany
  rw [hid] at hb
  obtain rfl := template_of_version hj₁.2 hread hb (beq_iff_eq.1 hversion)
  refine Prog.Safe.keepAt (k := .row b.id) (φ := fun s => s.template b.id)
    (List.mem_append_left _ (hid ▸ List.mem_cons_self)) (fun _ _ _ hk hr => hr.1.find_eq hk) hj₁ hb ?_
  refine Prog.Safe.guardOr hX fun _ => Prog.Safe.query fun s₂ _ _ => Prog.Safe.require hX fun _ _ => fun s₃ _ hj₃ => ?_
  have hview : Tx.view ((t.wrote (.updateTemplate n b.rowVersion)).saw s₂) s₃ =
      s₃.apply (.updateTemplate n b.rowVersion) := by
    rw [Tx.view_saw, Tx.view_wrote, Tx.view_of_unwritten hw]
    rfl
  refine h _ s₃ (List.mem_append_left _ (hid ▸ List.mem_cons_self)) ?_ ?_
  · rw [hview, ← hid]
    exact .updateWhere (hJ s₃ hj₃.1.1).templates (fun _ => rfl) (hid ▸ hj₃.2) (beq_self_eq_true _)
  · rw [hview]
    rfl

theorem safe_updateEntry {existing n : DiagnosticEntry} (hX : ∀ e, X e) (hJ : ∀ s, J s → s.WF)
    (hw : t.writes = []) (hid : n.id = existing.id) (hread : v.entry existing.id = some existing)
    (h : ∀ t' s', Key.row existing.id ∈ t'.held → t.seen <+: t'.seen → (t'.view s').templates = s'.templates →
      Table.Replaced s'.entries (t'.view s').entries existing.id existing (existing.saved n) → Outcome op t' s') :
    Prog.Safe versions (fun s => J s ∧ versions.rely [] v s) X (fun t s _ => Outcome op t s)
      (Prog.bind (DiagnosticEntryRepository.update n existing.rowVersion) fun a => .ret (Answer.entry a)) t s := by
  unfold DiagnosticEntryRepository.update DiagnosticEntryRepository.findById
  simp only [Prog.bind_eq, Prog.bind_assoc]
  refine Prog.Safe.update (fun s₁ _ hj₁ hh => ?_) fun s₁ _ _ _ => Prog.Safe.guardOr hX fun hno => by cases hno
  rw [Tx.view_of_unwritten hw] at hh
  have hany : (s₁.entry n.id).any (fun row => row.rowVersion == existing.rowVersion) = true := hh
  obtain ⟨b, hb, hversion⟩ := (Option.any_eq_true _ _).1 hany
  rw [hid] at hb
  obtain rfl := entry_of_version hj₁.2 hread hb (beq_iff_eq.1 hversion)
  refine Prog.Safe.keepAt (k := .row b.id) (φ := fun s => s.entry b.id)
    (List.mem_append_left _ (hid ▸ List.mem_cons_self)) (fun _ _ _ hk hr => hr.2.find_eq hk) hj₁ hb ?_
  refine Prog.Safe.guardOr hX fun _ => Prog.Safe.query fun s₂ _ _ => Prog.Safe.require hX fun _ _ => fun s₃ _ hj₃ => ?_
  have hview : Tx.view ((t.wrote (.updateEntry n b.rowVersion)).saw s₂) s₃ =
      s₃.apply (.updateEntry n b.rowVersion) := by
    rw [Tx.view_saw, Tx.view_wrote, Tx.view_of_unwritten hw]
    rfl
  refine h _ s₃ (List.mem_append_left _ (hid ▸ List.mem_cons_self)) (List.prefix_append _ _) ?_ ?_
  · rw [hview]
    rfl
  · rw [hview, ← hid]
    exact .updateWhere (hJ s₃ hj₃.1.1).entries (fun _ => rfl) (hid ▸ hj₃.2) (beq_self_eq_true _)

theorem update_id {n : DiagnosticTemplate} {patch : DiagnosticTemplateUpdatePatch}
    (h : existing.update patch = .ok n) : n.id = existing.id := by
  unfold DiagnosticTemplate.update at h
  cases hname : check (patch.name.all fun name => !isBlank name) (.invariantViolation "empty_name") with
  | error e =>
    rw [hname] at h
    cases h
  | ok _ =>
    rw [hname] at h
    unfold DiagnosticTemplate.withSchema at h
    cases hpatch : patch.schema with
    | none =>
      rw [hpatch] at h
      cases h
      rfl
    | some raw =>
      rw [hpatch] at h
      cases hshape : validateTemplateSchemaShape raw with
      | error e =>
        simp only [hshape] at h
        cases h
      | ok schema =>
        simp only [hshape] at h
        cases h
        rfl

theorem safe_requireTemplate {f : DiagnosticTemplate → Sql B} (hX : ∀ e, X e)
    (h : ∀ v existing, v.template id = some existing → existing.id = id →
      Prog.Safe versions (fun s => J s ∧ versions.rely [] v s) X Q (f existing) (Tx.start.saw v) v) :
    Prog.Safe versions J X Q (Prog.bind (DiagnosticTemplateService.requireTemplate id) f) .start s := by
  unfold DiagnosticTemplateService.requireTemplate DiagnosticTemplateRepository.findById
  simp only [Prog.bind_eq, Prog.bind_assoc]
  exact Prog.Safe.querySince fun v _ _ => Prog.Safe.require hX fun existing hv => h v existing hv (Table.id_of_find hv)

theorem safe_updateTemplateOp (hX : ∀ e, X e) (hJ : ∀ s, J s → s.WF) (id : Nat)
    (patch : DiagnosticTemplateUpdatePatch) :
    Prog.Safe versions J X (fun t s _ => Outcome (.updateTemplate id patch) t s) (Op.updateTemplate id patch).prog
      .start s := by
  unfold Op.prog DiagnosticTemplateService.update
  simp only [Prog.bind_eq, Prog.bind_assoc]
  refine safe_requireTemplate hX fun v existing hv hid => ?_
  subst hid
  have checked : ∀ t s, t.writes = [] → t.held = [] →
      Prog.Safe versions (fun s => J s ∧ versions.rely [] v s) X
        (fun t s _ => Outcome (.updateTemplate existing.id patch) t s)
        (Prog.bind (Prog.ofExcept (existing.update patch)) fun updated =>
          Prog.bind (DiagnosticTemplateRepository.update updated existing.rowVersion) fun a =>
            .ret (Answer.template a)) t s := by
    intro t s hw hheld
    refine Prog.Safe.ofExcept hX fun n hn => ?_
    have hdone : ∀ t' s', Key.row existing.id ∈ t'.held →
        Table.Replaced s'.templates (t'.view s').templates existing.id existing (existing.saved n) →
        (t'.view s').entries = s'.entries → Outcome (.updateTemplate existing.id patch) t' s' :=
      fun t' s' hheld' hrow hentries => .updated existing n hn hheld' hrow hentries
    have hsafe := safe_updateTemplate (s := s) hX hJ hw (update_id hn) hv hdone
    rwa [hheld] at hsafe
  unfold DiagnosticTemplateService.checkUnused
  split
  · unfold DiagnosticTemplateRepository.countEntriesUsingTemplate
    simp only [Prog.bind_eq, Prog.bind_assoc]
    exact Prog.Safe.query fun s₁ _ _ => Prog.Safe.guardOr hX fun _ => checked _ s₁ rfl rfl
  · exact checked _ v rfl rfl

theorem safe_deactivateTemplateOp (hX : ∀ e, X e) (hJ : ∀ s, J s → s.WF) (id : Nat) :
    Prog.Safe versions J X (fun t s _ => Outcome (.deactivateTemplate id) t s) (Op.deactivateTemplate id).prog
      .start s := by
  unfold Op.prog DiagnosticTemplateService.deactivate
  simp only [Prog.bind_eq, Prog.bind_assoc]
  refine safe_requireTemplate hX fun v existing hv hid => Prog.Safe.ofExcept hX fun n hn => ?_
  subst hid
  have hsame : n.id = existing.id := by
    unfold DiagnosticTemplate.deactivate at hn
    split at hn
    · cases hn
      rfl
    · cases hn
  exact safe_updateTemplate hX hJ rfl hsame hv
    fun t' s' hheld hrow hentries => .deactivated existing n hn hheld hrow hentries

theorem accepts_of_ok {template : DiagnosticTemplate} {data : List (String × Json)}
    (hv : v.template id = some template) (h : validateEntryData template.schema data = .ok ()) :
    v.accepts id data = true := by
  unfold Store.accepts passes
  rw [hv, Option.any_some, h]
  rfl

theorem safe_createEntryOp (hX : ∀ e, X e) (now : Int) (childExists : Bool) (input : CreateDiagnosticEntryInput) :
    Prog.Safe versions J X (fun t s _ => Outcome (.createEntry now childExists input) t s)
      (Op.createEntry now childExists input).prog .start s := by
  unfold Op.prog DiagnosticEntryService.create DiagnosticTemplateRepository.findById
  simp only [Prog.bind_eq, Prog.bind_assoc]
  refine Prog.Safe.guardOr hX fun _ => Prog.Safe.querySince fun v _ _ => Prog.Safe.require hX fun template hv => ?_
  refine Prog.Safe.guardOr hX fun _ => Prog.Safe.ofExcept hX fun _ hok => Prog.Safe.guardOr hX fun _ => ?_
  refine Prog.Safe.uuid fun s₁ i _ hj₁ habsent _ => ?_
  have hfresh : s₁.entry i = none := by
    have h : ((s₁.template i).isNone && (s₁.entry i).isNone) = true := habsent
    exact Option.isNone_iff_eq_none.1 (Bool.and_eq_true_iff.1 h).2
  refine Prog.Safe.keepAt (k := .row i) (φ := fun s => s.entry i) List.mem_cons_self
    (fun _ _ _ hk hr => hr.2.find_eq hk) hj₁ hfresh ?_
  unfold DiagnosticEntryRepository.create DiagnosticEntryRepository.findById
  simp only [Prog.bind_eq, Prog.bind_assoc]
  refine Prog.Safe.insertOr hX fun s₂ _ _ _ => Prog.Safe.query fun s₃ _ _ => Prog.Safe.require hX fun _ _ => ?_
  intro s₄ _ hj₄
  obtain ⟨⟨-, hsince⟩, hnone⟩ := hj₄
  have hv' : v.template input.templateId = some template := hv
  refine .created i ?_ hnone rfl ?_ ⟨v, rfl, accepts_of_ok hv' hok⟩ ?_
  · exact List.mem_append_left _ List.mem_cons_self
  · show (if (s₄.entry i).isNone then _ else _) = _
    rw [hnone]
    rfl
  · obtain ⟨t', ht', -⟩ := hsince.1.row _ _ hv'
    rw [show s₄.template input.templateId = some t' from ht']
    rfl

theorem safe_updateEntryOp (hX : ∀ e, X e) (hJ : ∀ s, J s → s.WF) (now : Int) (id staff user : Nat)
    (patch : DiagnosticEntryUpdatePatch) :
    Prog.Safe versions J X (fun t s _ => Outcome (.updateEntry now id staff user patch) t s)
      (Op.updateEntry now id staff user patch).prog .start s := by
  unfold Op.prog DiagnosticEntryService.update DiagnosticEntryRepository.findById
  simp only [Prog.bind_eq, Prog.bind_assoc]
  refine Prog.Safe.querySince fun v _ _ => Prog.Safe.require hX fun existing hv => Prog.Safe.guardOr hX fun _ => ?_
  have hid : existing.id = id := Table.id_of_find hv
  subst hid
  have hv' : v.entry existing.id = some existing := hv
  unfold DiagnosticEntryService.checkData
  cases hpatch : patch.data with
  | none =>
    refine safe_updateEntry hX hJ rfl rfl hv' fun t' s' hheld _ htemplates hrow => ?_
    refine .edited existing hheld htemplates hrow fun data hdata => ?_
    rw [hpatch] at hdata
    cases hdata
  | some data =>
    unfold DiagnosticTemplateRepository.findById
    simp only [Prog.bind_eq, Prog.bind_assoc]
    refine Prog.Safe.query fun v' _ _ => Prog.Safe.require hX fun template ht => Prog.Safe.ofExcept hX fun _ hok => ?_
    refine safe_updateEntry hX hJ rfl rfl hv' fun t' s' hheld hseen htemplates hrow => ?_
    refine .edited existing hheld htemplates hrow fun data' hdata => ?_
    obtain rfl : data = data' := Option.some.inj (hpatch.symm.trans hdata)
    obtain ⟨rest, hrest⟩ := hseen
    refine ⟨v', ?_, accepts_of_ok ht hok⟩
    rw [← hrest]
    rfl

end

/-! ## What a commit leaves -/

section

variable {t : Tx Store Key Write} {s : Store}

theorem update_schema {n : DiagnosticTemplate} {patch : DiagnosticTemplateUpdatePatch}
    (h : existing.update patch = .ok n) : (patch.schema = none ∧ n.schema = existing.schema) ∨
      ∃ raw, patch.schema = some raw ∧ validateTemplateSchemaShape raw = .ok n.schema := by
  unfold DiagnosticTemplate.update at h
  cases hname : check (patch.name.all fun name => !isBlank name) (.invariantViolation "empty_name") with
  | error e =>
    rw [hname] at h
    cases h
  | ok _ =>
    rw [hname] at h
    unfold DiagnosticTemplate.withSchema at h
    cases hpatch : patch.schema with
    | none =>
      rw [hpatch] at h
      cases h
      exact .inl ⟨rfl, rfl⟩
    | some raw =>
      rw [hpatch] at h
      cases hshape : validateTemplateSchemaShape raw with
      | error e =>
        simp only [hshape] at h
        cases h
      | ok schema =>
        simp only [hshape] at h
        cases h
        exact .inr ⟨raw, rfl, hshape⟩

theorem accepts_congr {s' : Store} (h : s'.templates = s.templates) : s'.accepts = s.accepts := by
  funext id data
  unfold Store.accepts Store.template
  rw [h]

theorem accepts_replaced {s' : Store}
    (h : Table.Replaced s.templates s'.templates id a b) (tid : Nat) (data : List (String × Json)) :
    s'.accepts tid data = if tid = id then passes b.schema data else s.accepts tid data := by
  unfold Store.accepts Store.template
  rw [h.after]
  by_cases htid : tid = id
  · rw [if_pos htid, if_pos htid, Option.any_some]
  · rw [if_neg htid, if_neg htid]

theorem valid_kept {s' : Store} (hv : EntriesValid s)
    (hentries : s'.entries = s.entries) (h : Table.Replaced s.templates s'.templates id a b)
    (hschema : b.schema = a.schema) : EntriesValid s' := by
  intro e he
  rw [hentries] at he
  have hold := hv e he
  rw [accepts_replaced h]
  by_cases hid : e.templateId = id
  · rw [if_pos hid, hschema]
    unfold Store.accepts Store.template at hold
    rwa [hid, h.before, Option.any_some] at hold
  · rwa [if_neg hid]

theorem valid_patched_iff {s' : Store} {raw : Json} (hv : EntriesValid s)
    (hentries : s'.entries = s.entries) (h : Table.Replaced s.templates s'.templates id a b)
    (hshape : validateTemplateSchemaShape raw = .ok b.schema) : EntriesValid s' ↔ s.allPass id raw = true := by
  unfold Store.allPass EntriesValid
  rw [hshape, hentries, List.all_eq_true]
  refine forall₂_congr fun e he => ?_
  have hold := hv e he
  rw [accepts_replaced h, Bool.or_eq_true, bne_iff_ne]
  by_cases hid : e.templateId = id
  · rw [if_pos hid]
    exact ⟨.inr, fun hor => hor.resolve_left fun hne => hne hid⟩
  · rw [if_neg hid]
    exact ⟨fun _ => .inl hid, fun _ => hold⟩

theorem valid_edited_iff {s' : Store} {a b : DiagnosticEntry} (hs' : s'.WF)
    (hv : EntriesValid s) (htemplates : s'.templates = s.templates)
    (h : Table.Replaced s.entries s'.entries id a b) : EntriesValid s' ↔ s.accepts b.templateId b.data = true := by
  unfold EntriesValid
  rw [accepts_congr htemplates]
  constructor
  · intro hall
    exact hall b (Table.mem_of_find h.find_self)
  · intro hb e he
    have hfind := Table.find_of_mem hs'.entries he
    rw [h.after] at hfind
    split at hfind
    · rwa [← Option.some.inj hfind]
    · exact hv e (Table.mem_of_find hfind)

theorem Outcome.valid_iff {c : Commit} (hs : s.WF) (hv : EntriesValid s) (h : Outcome c.op c.tx s) :
    EntriesValid (c.tx.view s) ↔ Fits s c := by
  obtain ⟨op, t, a⟩ := c
  dsimp only at h ⊢
  cases h with
  | updated existing n hn held templates entries =>
    unfold Fits
    dsimp only
    rcases update_schema hn with ⟨hpatch, hschema⟩ | ⟨raw, hpatch, hshape⟩
    · rw [hpatch]
      exact iff_of_true (valid_kept hv entries templates hschema) rfl
    · rw [hpatch, Option.all_some]
      exact valid_patched_iff hv entries templates hshape
  | deactivated existing n hn held templates entries =>
    refine iff_of_true (valid_kept hv entries templates ?_) trivial
    unfold DiagnosticTemplate.deactivate at hn
    split at hn
    · cases hn
      rfl
    · cases hn
  | created i held fresh templates entries read there =>
    unfold EntriesValid
    rw [entries, accepts_congr templates]
    constructor
    · intro hall
      exact hall _ (List.mem_append_right _ List.mem_cons_self)
    · intro hnew e he
      rcases List.mem_append.1 he with he | he
      · exact hv e he
      · rw [List.mem_singleton.1 he]
        exact hnew
  | @edited now id staff user patch _ _ e held templates entries read =>
    rw [valid_edited_iff (hs.view t) hv templates entries]
    unfold Fits
    dsimp only
    rw [show s.entry id = some e from entries.before, Option.all_some]
    show s.accepts e.templateId (patch.data.getD e.data) = true ↔ _
    cases patch.data with
    | none => exact iff_of_true (hv e (Table.mem_of_find entries.before)) rfl
    | some data => rfl

theorem Outcome.valid_of_notOvertaken {c : Commit} (hs : s.WF) (hv : EntriesValid s) (h : Outcome c.op c.tx s)
    (hc : NotOvertaken s c) : EntriesValid (c.tx.view s) := by
  rw [h.valid_iff hs hv]
  obtain ⟨op, t, a⟩ := c
  dsimp only at h hc ⊢
  -- the schema that was read is the one that is there
  have still : ∀ v tid data, StillRead s (some v) tid → v.accepts tid data = true → (s.template tid).isSome = true →
      s.accepts tid data = true := by
    intro v tid data hstill hread hthere
    obtain ⟨old, hold, hpasses⟩ := (Option.any_eq_true _ _).1 hread
    obtain ⟨b, hb⟩ := Option.isSome_iff_exists.1 hthere
    unfold Store.accepts
    rw [hb, Option.any_some, ← hstill v rfl old hold b hb]
    exact hpasses
  cases h with
  | @updated id patch _ _ existing n hn held templates entries =>
    unfold Fits
    dsimp only
    rcases update_schema hn with ⟨hpatch, -⟩ | ⟨raw, hpatch, hshape⟩
    · rw [hpatch]
      rfl
    · rw [hpatch, Option.all_some]
      unfold Store.allPass
      rw [hshape, List.all_eq_true]
      intro e he
      rw [Bool.or_eq_true, bne_iff_ne]
      by_cases hchanges : DiagnosticTemplateService.changesSchema existing patch = true
      · exact .inl (hc existing templates.before hchanges e he)
      · have hsame : existing.schema.same n.schema = true := by
          unfold DiagnosticTemplateService.changesSchema at hchanges
          rw [hpatch, Option.any_some, hshape] at hchanges
          simpa using hchanges
        by_cases hid : e.templateId = id
        · have hold := hv e he
          unfold Store.accepts at hold
          rw [hid, show s.template id = some existing from templates.before, Option.any_some] at hold
          unfold passes at hold ⊢
          rw [← validateEntryData_of_same hsame]
          exact .inr hold
        · exact .inl hid
  | deactivated existing n hn held templates entries => trivial
  | created i held fresh templates entries read there =>
    obtain ⟨v, hseen, hread⟩ := read
    unfold NotOvertaken at hc
    dsimp only at hc
    rw [show t.seen.head? = some v from hseen] at hc
    exact still v _ _ hc hread there
  | @edited now id staff user patch _ _ e held templates entries read =>
    unfold Fits
    dsimp only
    rw [show s.entry id = some e from entries.before, Option.all_some]
    cases hpatch : patch.data with
    | none => rfl
    | some data =>
      obtain ⟨v, hseen, hread⟩ := read data hpatch
      have hstill := hc e entries.before
      rw [show t.seen[1]? = some v from hseen] at hstill
      refine still v _ _ hstill hread ?_
      obtain ⟨b, hb, -⟩ := (Option.any_eq_true _ _).1 (hv e (Table.mem_of_find entries.before))
      rw [show s.template e.templateId = some b from hb]
      rfl

end

/-! ## Runs -/

theorem safe_op {J : Store → Prop} {X : DiagnosticError → Prop} (hX : ∀ e, X e) (hJ : ∀ s, J s → s.WF) (op : Op)
    (s : Store) : Prog.Safe versions J X (fun t s _ => Outcome op t s) op.prog .start s := by
  cases op with
  | updateTemplate id patch => exact safe_updateTemplateOp hX hJ id patch
  | deactivateTemplate id => exact safe_deactivateTemplateOp hX hJ id
  | createEntry now childExists input => exact safe_createEntryOp hX now childExists input
  | updateEntry now id staff user patch => exact safe_updateEntryOp hX hJ now id staff user patch

theorem chain_outcomes {n : Nat} {s : Store} {cs : Schedule n} {σ : System n} (hs : s.WF)
    (hrun : run s cs = some σ) : Chain (fun s c => s.WF ∧ Outcome c.op c.tx s) s σ.log σ.db := by
  have hstarts : System.Starts (fun _ => True) cs := fun _ _ _ => trivial
  exact System.exec_chain (X := fun _ => True) hs (fun op s _ _ => safe_op (fun _ => trivial) (fun _ h => h) op s)
    (fun _ t _ _ h _ => h.view t) (fun _ _ _ _ _ h => h.guarantee) hstarts hrun

/-- **The entries stay valid** exactly as long as what each commit brings fits what is there by then; and it does
whenever nothing has overtaken the commit. -/
theorem entriesValid_iff {n : Nat} {s : Store} {cs : Schedule n} {σ : System n} (hs : s.WF) (hv : EntriesValid s)
    (hrun : run s cs = some σ) :
    (Always EntriesValid s σ.log ↔ AtEach Fits s σ.log) ∧
      (AtEach NotOvertaken s σ.log → Always EntriesValid s σ.log) := by
  have hchain := chain_outcomes hs hrun
  constructor
  · exact hchain.always_iff EntriesValid hv fun s c hc hi => hc.2.valid_iff hc.1 hi
  · intro hmeets
    refine (hchain.and hmeets).always EntriesValid hv fun s c hi hc => ?_
    exact hc.1.2.valid_of_notOvertaken hc.1.1 hi hc.2

/-! ## A schema changed under an entry -/

/-- A schema of one section with these text fields, all required. -/
def textSchema (keys : List String) : Json :=
  .obj [("sections", .arr [.obj [("title", .str "speech"), ("fields", .arr (keys.map fun key =>
    .obj [("key", .str key), ("label", .str key), ("type", .str "text"), ("required", .bool true)]))]])]

def textField (key : String) : TemplateField := ⟨key, key, .text, true, []⟩

/-- One template, with the field `sounds`. -/
def Store.oneTemplate : Store where
  templates := [⟨1, "speech_therapist", "speech", none, 1, 1, true, ⟨[⟨"speech", [textField "sounds"], []⟩], []⟩⟩]
  entries := []

def fillIn : Op := .createEntry 0 true ⟨5, 1, 9, 0, [("sounds", .str "r")], none, none, []⟩

/-- The field `words` is added. -/
def addField : Op := .updateTemplate 1 ⟨none, none, some (textSchema ["sounds", "words"])⟩

/-- Once the entry is there, the change is refused. -/
def fillThenAdd : Schedule 1 := Choice.request 0 fillIn 5 7 ++ Choice.request 0 addField 3 0

/-- The entry is checked before the change, and committed after it. -/
def addUnderFill : Schedule 2 := .start 0 fillIn :: .step 0 0 :: (Choice.request 1 addField 5 0 ++ Choice.steps 0 4 7)

theorem entriesValid_inTurn : ∃ σ : System 1, run Store.oneTemplate fillThenAdd = some σ ∧ σ.db.entries.length = 1 ∧
    Always EntriesValid Store.oneTemplate σ.log := by
  obtain ⟨σ, hrun, h⟩ := run_shows run Store.oneTemplate fillThenAdd
    (fun σ => decide (σ.db.entries.length = 1 ∧ AtEach Fits Store.oneTemplate σ.log)) (by decide +kernel)
  obtain ⟨hlength, hfits⟩ := of_decide_eq_true h
  exact ⟨σ, hrun, hlength, (entriesValid_iff (by decide) (by decide) hrun).1.2 hfits⟩

/-- The entry lacks the field that is required by now. -/
theorem addUnderFill_invalid : ∃ σ : System 2, Store.oneTemplate.WF ∧ EntriesValid Store.oneTemplate ∧
    run Store.oneTemplate addUnderFill = some σ ∧ ¬Always EntriesValid Store.oneTemplate σ.log := by
  obtain ⟨σ, hrun, h⟩ := run_shows run Store.oneTemplate addUnderFill
    (fun σ => decide (¬Always EntriesValid Store.oneTemplate σ.log)) (by decide +kernel)
  exact ⟨σ, by decide, by decide, hrun, of_decide_eq_true h⟩

end Diagnostics
