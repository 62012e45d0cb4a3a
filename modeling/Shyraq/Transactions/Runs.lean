import Shyraq.Transactions.Rely

/-!
# Runs of whole systems

If every request is `Safe`, and no request moves the store under the keys of another, then
the committed states of every interleaving form a chain (`Chain`) in which each commit
satisfies the postcondition of its own request: `System.exec_chain`.
`System.exec_chain_serial` is the same for one session, where nothing moves.
-/

namespace Transactions

variable {S K W E Op A B : Type} [Relational S K W]

/-! ## Logs -/

/-- Committed states one after the other, each commit `R`-related to the state before it. -/
inductive Chain (R : S → Commit S K W Op A → Prop) (s₀ : S) : List (Commit S K W Op A) → S → Prop
  | nil : Chain R s₀ [] s₀
  | snoc {l s c} : Chain R s₀ l s → R s c → Chain R s₀ (l ++ [c]) (c.tx.view s)

/-- The committed state after these commits. -/
def replay (s : S) (log : List (Commit S K W Op A)) : S := log.foldl (fun s c => c.tx.view s) s

/-- A quantity of each commit, read in the state right before it and summed over the log. -/
def tally (f : S → Commit S K W Op A → Int) : S → List (Commit S K W Op A) → Int
  | _, [] => 0
  | s, c :: cs => f s c + tally f (c.tx.view s) cs

@[simp] theorem replay_nil (s : S) : replay s ([] : List (Commit S K W Op A)) = s := rfl

theorem replay_snoc (s : S) (log : List (Commit S K W Op A)) (c : Commit S K W Op A) :
    replay s (log ++ [c]) = c.tx.view (replay s log) := by
  simp [replay]

theorem tally_snoc (f : S → Commit S K W Op A → Int) (s : S) (log : List (Commit S K W Op A))
    (c : Commit S K W Op A) : tally f s (log ++ [c]) = tally f s log + f (replay s log) c := by
  induction log generalizing s with
  | nil => simp [tally]
  | cons d log ih =>
    simp only [List.cons_append, tally, ih]
    have : replay s (d :: log) = replay (d.tx.view s) log := rfl
    rw [this]
    omega

variable {R R' C : S → Commit S K W Op A → Prop} {s s₀ : S} {l log : List (Commit S K W Op A)}

theorem Chain.replay_eq (h : Chain R s₀ l s) : replay s₀ l = s := by
  induction h with
  | nil => rfl
  | snoc _ _ ih => rw [replay_snoc, ih]

theorem Chain.mono (hR : ∀ s c, R s c → R' s c) (h : Chain R s₀ l s) : Chain R' s₀ l s := by
  induction h with
  | nil => exact .nil
  | snoc _ hr ih => exact .snoc ih (hR _ _ hr)

/-- An invariant that every commit keeps holds at the end of the chain. -/
theorem Chain.inv (I : S → Prop) (h₀ : I s₀) (hs : ∀ s c, I s → R s c → I (c.tx.view s))
    (h : Chain R s₀ l s) : I s := by
  induction h with
  | nil => exact h₀
  | snoc _ hr ih => exact hs _ _ ih hr

/-- The invariant holds before each commit. -/
theorem Chain.before (I : S → Prop) (h₀ : I s₀) (hs : ∀ s c, I s → R s c → I (c.tx.view s))
    (h : Chain R s₀ l s) : Chain (fun s c => I s ∧ R s c) s₀ l s := by
  induction h with
  | nil => exact .nil
  | snoc hc hr ih => exact .snoc ih ⟨hc.inv I h₀ hs, hr⟩

/-- The same with the log in view. -/
theorem Chain.invLog (I : List (Commit S K W Op A) → S → Prop)
    (h₀ : I [] s₀) (hs : ∀ l s c, I l s → R s c → I (l ++ [c]) (c.tx.view s)) (h : Chain R s₀ l s) : I l s := by
  induction h with
  | nil => exact h₀
  | snoc _ hr ih => exact hs _ _ _ ih hr

omit [Relational S K W] in
/-- Every commit with what was committed before it, by position. -/
theorem forall_snoc_prefix_iff {P : List (Commit S K W Op A) → Commit S K W Op A → Prop} :
    (∀ p c, p ++ [c] <+: l → P p c) ↔ ∀ i (h : i < l.length), P (l.take i) l[i] := by
  constructor
  · intro hall i hi
    refine hall _ _ ?_
    rw [List.take_concat_get' l i hi]
    exact List.take_prefix _ _
  · rintro hall p c ⟨rest, rfl⟩
    have hlt : p.length < (p ++ [c] ++ rest).length := by
      simp only [List.length_append, List.length_singleton]
      omega
    have hp := hall p.length hlt
    simpa using hp

/-- An invariant about the log so far and the rows, which a commit keeps exactly when it meets its condition: it holds all
along exactly when every commit meets it. -/
theorem Chain.prefix_iff {I : List (Commit S K W Op A) → S → Prop}
    {C : List (Commit S K W Op A) → S → Commit S K W Op A → Prop} (h₀ : I [] s₀)
    (hs : ∀ l s c, R s c → I l s → (I (l ++ [c]) (c.tx.view s) ↔ C l s c)) (h : Chain R s₀ l s) :
    (∀ p, p <+: l → I p (replay s₀ p)) ↔ ∀ p c, p ++ [c] <+: l → C p (replay s₀ p) c := by
  induction h with
  | nil =>
    refine iff_of_true (fun p hp => ?_) fun p c hp => ?_
    · rw [List.prefix_nil.1 hp]
      exact h₀
    · exact absurd (List.prefix_nil.1 hp) (List.append_ne_nil_of_right_ne_nil p (List.cons_ne_nil c []))
  | @snoc l v c hc hr ih =>
    have hlast : replay s₀ (l ++ [c]) = c.tx.view v := by rw [replay_snoc, hc.replay_eq]
    constructor
    · intro h p d hp
      rcases List.prefix_concat_iff.1 hp with hp | hp
      · obtain ⟨rfl, hd⟩ := List.append_inj' hp rfl
        obtain rfl := List.singleton_inj.1 hd
        have hbefore := h p (List.prefix_append _ _)
        rw [hc.replay_eq] at hbefore ⊢
        exact (hs p v d hr hbefore).1 (hlast ▸ h (p ++ [d]) List.prefix_rfl)
      · exact ih.1 (fun q hq => h q (hq.trans (List.prefix_append _ _))) p d hp
    · intro h p hp
      have hall := ih.2 fun q d hq => h q d (hq.trans (List.prefix_append _ _))
      rcases List.prefix_concat_iff.1 hp with rfl | hp
      · have hbefore := hall l List.prefix_rfl
        have hcond := h l c List.prefix_rfl
        rw [hc.replay_eq] at hbefore hcond
        rw [hlast]
        exact (hs l v c hr hbefore).2 hcond
      · exact hall p hp

/-- `R` holds of every commit of the log, in the state right before it. -/
def AtEach (R : S → Commit S K W Op A → Prop) : S → List (Commit S K W Op A) → Prop
  | _, [] => True
  | s, c :: cs => R s c ∧ AtEach R (c.tx.view s) cs

instance AtEach.decidable {R : S → Commit S K W Op A → Prop} [∀ s c, Decidable (R s c)] :
    ∀ (s : S) (log : List (Commit S K W Op A)), Decidable (AtEach R s log)
  | _, [] => .isTrue trivial
  | s, c :: cs => haveI := AtEach.decidable (R := R) (c.tx.view s) cs; inferInstanceAs (Decidable (_ ∧ _))

theorem atEach_snoc {c : Commit S K W Op A} : AtEach R s (log ++ [c]) ↔ AtEach R s log ∧ R (replay s log) c := by
  induction log generalizing s with
  | nil => simp [AtEach]
  | cons d log ih =>
    have hr : replay s (d :: log) = replay (d.tx.view s) log := rfl
    simp only [List.cons_append, AtEach, ih, hr, and_assoc]

theorem atEach_append {log' : List (Commit S K W Op A)} :
    AtEach R s (log ++ log') ↔ AtEach R s log ∧ AtEach R (replay s log) log' := by
  induction log generalizing s with
  | nil => simp [AtEach]
  | cons c log ih =>
    have hr : replay s (c :: log) = replay (c.tx.view s) log := rfl
    simp only [List.cons_append, AtEach, ih, hr, and_assoc]

/-- An invariant that every commit keeps holds before each commit. -/
theorem AtEach.before (I : S → Prop) (hs : ∀ s c, I s → R s c → I (c.tx.view s)) (h₀ : I s)
    (h : AtEach R s log) : AtEach (fun s c => I s ∧ R s c) s log := by
  induction log generalizing s with
  | nil => trivial
  | cons c log ih => exact ⟨⟨h₀, h.1⟩, ih (hs s c h₀ h.1) h.2⟩

theorem AtEach.of_prefix
    {log' : List (Commit S K W Op A)} (h : AtEach R s log') (hp : log <+: log') : AtEach R s log := by
  induction log generalizing s log' with
  | nil => trivial
  | cons c log ih =>
    obtain ⟨rest, rfl⟩ := hp
    exact ⟨h.1, ih h.2 (List.prefix_append log rest)⟩

theorem AtEach.of_forall (h : ∀ s c, R s c) : AtEach R s log := by
  induction log generalizing s with
  | nil => trivial
  | cons c log ih => exact ⟨h s c, ih⟩

theorem AtEach.of_mem {P : Commit S K W Op A → Prop} (h : ∀ c ∈ log, P c) : AtEach (fun _ c => P c) s log := by
  induction log generalizing s with
  | nil => trivial
  | cons c log ih => exact ⟨h c List.mem_cons_self, ih fun d hd => h d (List.mem_cons_of_mem c hd)⟩

theorem AtEach.and (h : AtEach R s log) (h' : AtEach R' s log) : AtEach (fun s c => R s c ∧ R' s c) s log := by
  induction log generalizing s with
  | nil => trivial
  | cons c log ih => exact ⟨⟨h.1, h'.1⟩, ih h.2 h'.2⟩

theorem AtEach.mono (hR : ∀ s c, R s c → R' s c) (h : AtEach R s log) : AtEach R' s log := by
  induction log generalizing s with
  | nil => trivial
  | cons c log ih => exact ⟨hR s c h.1, ih h.2⟩

theorem AtEach.congr (h : AtEach (fun s c => R s c ↔ R' s c) s log) : AtEach R s log ↔ AtEach R' s log := by
  induction log generalizing s with
  | nil => exact Iff.rfl
  | cons c log ih => exact and_congr h.1 (ih h.2)

theorem AtEach.forall {I : Sort*} {R : I → S → Commit S K W Op A → Prop} :
    (∀ i, AtEach (R i) s log) ↔ AtEach (fun s c => ∀ i, R i s c) s log := by
  induction log generalizing s with
  | nil => simp [AtEach]
  | cons c log ih => simp only [AtEach, forall_and, ih]

/-- What holds in one committed state holds in every later one. -/
def Lasting (P : S → Prop) (s : S) (log : List (Commit S K W Op A)) : Prop :=
  ∀ p q, p <+: q → q <+: log → P (replay s p) → P (replay s q)

/-- To last is to last from each commit to the next. -/
theorem lasting_iff {P : S → Prop} : Lasting P s log ↔ AtEach (fun s c => P s → P (c.tx.view s)) s log := by
  induction log using List.reverseRecOn with
  | nil =>
    refine iff_of_true (fun p q hpq hq h => ?_) trivial
    rw [List.prefix_nil] at hq
    subst hq
    rw [List.prefix_nil] at hpq
    exact hpq ▸ h
  | append_singleton log c ih =>
    rw [atEach_snoc, ← ih]
    constructor
    · intro h
      refine ⟨fun p q hpq hq => h p q hpq (hq.trans (List.prefix_append _ _)), fun hP => ?_⟩
      rw [← replay_snoc]
      exact h log (log ++ [c]) (List.prefix_append _ _) List.prefix_rfl hP
    · rintro ⟨h, hc⟩ p q hpq hq hP
      -- the last commit is the only new step
      have hlog : ∀ r, r <+: log → p <+: r → P (replay s r) := fun r hr hpr => h p r hpr hr hP
      rcases List.prefix_concat_iff.1 hq with rfl | hq
      · rcases List.prefix_concat_iff.1 hpq with rfl | hpq
        · exact hP
        · rw [replay_snoc]
          exact hc (hlog log List.prefix_rfl hpq)
      · exact hlog q hq hpq

theorem Chain.atEach (h : Chain R s₀ l s) : AtEach R s₀ l := by
  induction h with
  | nil => trivial
  | snoc hc hr ih =>
    rw [atEach_snoc, hc.replay_eq]
    exact ⟨ih, hr⟩

/-- What is known of each commit besides joins the chain. -/
theorem Chain.and (h : Chain R s₀ l s) (h' : AtEach R' s₀ l) : Chain (fun s c => R s c ∧ R' s c) s₀ l s := by
  induction h with
  | nil => exact .nil
  | snoc hc hr ih =>
    rw [atEach_snoc, hc.replay_eq] at h'
    exact .snoc (ih h'.1) ⟨hr, h'.2⟩

/-- An invariant that a commit keeps exactly when it meets its condition, and that never comes
back once lost. -/
theorem Chain.inv_iff (I : S → Prop) (h₀ : I s₀) (hs : ∀ s c, R s c → (I (c.tx.view s) ↔ I s ∧ C s c))
    (h : Chain R s₀ l s) : I s ↔ AtEach C s₀ l := by
  induction h with
  | nil => exact iff_of_true h₀ trivial
  | snoc hc hr ih => rw [atEach_snoc, hc.replay_eq, hs _ _ hr, ih]

/-- `I` holds after each commit. -/
def Always (I : S → Prop) (s : S) (log : List (Commit S K W Op A)) : Prop :=
  AtEach (fun s c => I (c.tx.view s)) s log

instance {I : S → Prop} [DecidablePred I] (s : S) (log : List (Commit S K W Op A)) :
    Decidable (Always I s log) := inferInstanceAs (Decidable (AtEach (fun s c => I (c.tx.view s)) s log))

theorem Chain.always_end {I : S → Prop} (h₀ : I s₀) (h : Chain R s₀ l s) (hI : Always I s₀ l) : I s := by
  cases h with
  | nil => exact h₀
  | snoc hc _ =>
    rw [Always, atEach_snoc, hc.replay_eq] at hI
    exact hI.2

/-- An invariant that a commit keeps exactly when it meets its condition holds all along exactly
when every commit meets it. -/
theorem Chain.always_iff (I : S → Prop) (h₀ : I s₀) (hs : ∀ s c, R s c → I s → (I (c.tx.view s) ↔ C s c))
    (h : Chain R s₀ l s) : Always I s₀ l ↔ AtEach C s₀ l := by
  induction h with
  | nil => exact Iff.rfl
  | snoc hc hr ih =>
    unfold Always at ih ⊢
    rw [atEach_snoc, atEach_snoc, hc.replay_eq]
    constructor
    · rintro ⟨hl, hi⟩
      exact ⟨ih.1 hl, (hs _ _ hr (hc.always_end h₀ hl)).1 hi⟩
    · rintro ⟨hl, hi⟩
      have hl' := ih.2 hl
      exact ⟨hl', (hs _ _ hr (hc.always_end h₀ hl')).2 hi⟩

/-- The same, with something else to be met by each commit. -/
theorem Chain.always_and_iff {B : S → Commit S K W Op A → Prop} (I : S → Prop) (h₀ : I s₀)
    (hs : ∀ s c, R s c → I s → (I (c.tx.view s) ∧ B s c ↔ C s c))
    (h : Chain R s₀ l s) : Always I s₀ l ∧ AtEach B s₀ l ↔ AtEach C s₀ l := by
  induction h with
  | nil => exact iff_of_true ⟨trivial, trivial⟩ trivial
  | snoc hc hr ih =>
    unfold Always at ih ⊢
    rw [atEach_snoc, atEach_snoc, atEach_snoc, hc.replay_eq]
    constructor
    · rintro ⟨⟨hl, hi⟩, hb, hb'⟩
      exact ⟨ih.1 ⟨hl, hb⟩, (hs _ _ hr (hc.always_end h₀ hl)).1 ⟨hi, hb'⟩⟩
    · rintro ⟨hl, hi⟩
      obtain ⟨hl', hb⟩ := ih.2 hl
      have hlast := (hs _ _ hr (hc.always_end h₀ hl')).2 hi
      exact ⟨⟨hl', hlast.1⟩, hb, hlast.2⟩

/-- An invariant that every commit keeps holds all along. -/
theorem Chain.always (I : S → Prop) (h₀ : I s₀) (hs : ∀ s c, I s → R s c → I (c.tx.view s))
    (h : Chain R s₀ l s) : Always I s₀ l := by
  refine (h.always_iff (C := fun _ _ => True) I h₀ fun s c hr hi => ?_).2 (AtEach.of_forall fun _ _ => trivial)
  exact iff_of_true (hs s c hi hr) trivial

/-- What begins here is of this kind. -/
def Choice.Begins {n : Nat} (Allowed : Op → Prop) : Choice Op n → Prop
  | .start _ op => Allowed op
  | .step .. | .kill _ => True

instance {n : Nat} {Allowed : Op → Prop} [DecidablePred Allowed] : DecidablePred (Choice.Begins (n := n) Allowed)
  | .start _ op => inferInstanceAs (Decidable (Allowed op))
  | .step .. => .isTrue trivial
  | .kill _ => .isTrue trivial

namespace System

variable {n : Nat} [DecidableEq K] {prog : Op → Prog S K W E A}

/-- What holds between the events of a run. -/
structure Inv (D : Discipline S K W) (J : S → Prop) (X : E → Prop)
    (Q : Op → Tx S K W → S → A → Prop) (s₀ : S) (σ : System S K W E Op A n) : Prop where
  committed : J σ.db
  safe : ∀ i t, σ.sessions i = some t → t.prog.Safe D J X (Q t.op) t.tx σ.db
  disjoint : ∀ i j t u, i ≠ j → σ.sessions i = some t → σ.sessions j = some u →
    List.Disjoint t.tx.held u.tx.held
  chain : Chain (fun s c => J s ∧ Q c.op c.tx s c.result) s₀ σ.log σ.db

omit [Relational S K W] in
theorem not_mem_of_not_blocked {σ : System S K W E Op A n} {i : Fin n} {k : K}
    (h : σ.blocked i k = false) {j : Fin n} (hj : j ≠ i) {u : Session S K W E Op A}
    (hu : σ.sessions j = some u) : k ∉ u.tx.held := by
  intro hk
  have : σ.blocked i k = true := by
    rw [blocked, List.any_eq_true]
    exact ⟨j, List.mem_finRange j, by simp [hu, hj, hk]⟩
  rw [h] at this
  cases this

variable {D : Discipline S K W} {J : S → Prop} {X : E → Prop} {σ σ' : System S K W E Op A n} {c : Choice Op n}
  {cs : List (Choice Op n)} {Allowed : Op → Prop} {Q : Op → Tx S K W → S → A → Prop}

omit [DecidableEq K] in
/-- Session `i` goes on to `u`; nothing is committed. -/
theorem Inv.put_some (h : Inv D J X Q s₀ σ) (i : Fin n)
    (u : Session S K W E Op A) (hs : u.prog.Safe D J X (Q u.op) u.tx σ.db)
    (hd : ∀ j v, j ≠ i → σ.sessions j = some v → List.Disjoint u.tx.held v.tx.held) :
    Inv D J X Q s₀ (σ.put i (some u)) where
  committed := h.committed
  safe j t ht := by
    by_cases hj : j = i
    · subst hj
      simp only [put, Function.update_self, Option.some.injEq] at ht
      exact ht ▸ hs
    · simp only [put, Function.update_of_ne hj] at ht
      exact h.safe j t ht
  disjoint j k t v hjk ht hv := by
    by_cases hj : j = i
    · subst hj
      simp only [put, Function.update_self, Option.some.injEq] at ht
      simp only [put, Function.update_of_ne hjk.symm] at hv
      exact ht ▸ hd k v hjk.symm hv
    · simp only [put, Function.update_of_ne hj] at ht
      by_cases hk : k = i
      · subst hk
        simp only [put, Function.update_self, Option.some.injEq] at hv
        exact hv ▸ (hd j t hj ht).symm
      · simp only [put, Function.update_of_ne hk] at hv
        exact h.disjoint j k t v hjk ht hv
  chain := h.chain

omit [DecidableEq K] in
/-- Session `i` is over without a commit. -/
theorem Inv.put_none (h : Inv D J X Q s₀ σ) (i : Fin n) : Inv D J X Q s₀ (σ.put i none) where
  committed := h.committed
  safe j t ht := by
    by_cases hj : j = i
    · subst hj
      simp [put] at ht
    · simp only [put, Function.update_of_ne hj] at ht
      exact h.safe j t ht
  disjoint j k t v hjk ht hv := by
    by_cases hj : j = i
    · subst hj
      simp [put] at ht
    · by_cases hk : k = i
      · subst hk
        simp [put] at hv
      · simp only [put, Function.update_of_ne hj] at ht
        simp only [put, Function.update_of_ne hk] at hv
        exact h.disjoint j k t v hjk ht hv
  chain := h.chain

omit [DecidableEq K] in
/-- Session `i` commits: the others see the store move as their keys allow. -/
theorem Inv.commit (h : Inv D J X Q s₀ σ) {i : Fin n} {t : Session S K W E Op A} (ht : σ.sessions i = some t) {a : A}
    (hq : Q t.op t.tx σ.db a) (hJ : J (t.tx.view σ.db)) (hG : 1 < n → D.Guarantee t.tx σ.db) :
    Inv D J X Q s₀ { (σ.put i none) with db := t.tx.view σ.db, log := σ.log ++ [⟨t.op, t.tx, a⟩] } where
  committed := hJ
  safe j u hu := by
    by_cases hj : j = i
    · subst hj
      simp [put] at hu
    · simp only [put, Function.update_of_ne hj] at hu
      have hn : 1 < n := by
        by_contra hn
        exact hj (Fin.ext (by omega))
      exact (h.safe j u hu).rely (hG hn _ (h.disjoint i j t u (Ne.symm hj) ht hu))
  disjoint := (h.put_none i).disjoint
  chain := .snoc h.chain ⟨h.committed, hq⟩

/-- What every commit keeps, as long as the commits meet the condition `C`. -/
structure Keeps (D : Discipline S K W) (J : S → Prop) (Q : Op → Tx S K W → S → A → Prop)
    (C : S → Commit S K W Op A → Prop) (n : Nat) : Prop where
  inv : ∀ s c, J s → Q c.op c.tx s c.result → C s c → J (c.tx.view s)
  guarantee : 1 < n → ∀ s c, J s → Q c.op c.tx s c.result → C s c → D.Guarantee c.tx s

theorem Inv.advance (h : Inv D J X Q s₀ σ) (hK : Keeps D J Q C n)
    {i : Fin n} {id : Nat} {t : Session S K W E Op A} (ht : σ.sessions i = some t)
    (hs : σ.advance i id t = some σ') (hC : AtEach C s₀ σ'.log) : Inv D J X Q s₀ σ' := by
  have hsafe := h.safe i t ht
  have hdis : ∀ j v, j ≠ i → σ.sessions j = some v → List.Disjoint t.tx.held v.tx.held :=
    fun j v hj hv => h.disjoint i j t v (Ne.symm hj) ht hv
  unfold System.advance at hs
  cases hp : t.prog with
  | ret a =>
    simp only [hp, Option.some.injEq] at hs hsafe
    subst hs
    have hq := hsafe _ (D.refl _ _) h.committed
    have hc : C σ.db ⟨t.op, t.tx, a⟩ := by
      rw [← h.chain.replay_eq]
      exact (atEach_snoc.1 hC).2
    exact h.commit ht hq (hK.inv _ ⟨t.op, t.tx, a⟩ h.committed hq hc)
      fun hn => hK.guarantee hn _ ⟨t.op, t.tx, a⟩ h.committed hq hc
  | throw e =>
    simp only [hp, Option.some.injEq] at hs
    subst hs
    exact h.put_none i
  | select next =>
    simp only [hp, Option.some.injEq] at hs hsafe
    subst hs
    exact h.put_some i _ (hsafe _ (D.refl _ _) h.committed) hdis
  | lock k next =>
    simp only [hp] at hs hsafe
    split at hs
    · cases hs
    · next hb =>
      simp only [Option.some.injEq] at hs
      subst hs
      refine h.put_some i _ (hsafe _ (D.refl _ _) h.committed) fun j v hj hv => ?_
      rw [Tx.held_locked, List.disjoint_cons_left]
      exact ⟨not_mem_of_not_blocked (by simpa using hb) hj hv, hdis j v hj hv⟩
  | write w next =>
    simp only [hp] at hs hsafe
    split at hs
    · next hh =>
      split at hs
      · cases hs
      · next hb =>
        simp only [Option.some.injEq] at hs
        subst hs
        refine h.put_some i _ ((hsafe _ (D.refl _ _) h.committed).1 hh) fun j v hj hv => ?_
        rw [Tx.held_wrote, List.disjoint_append_left]
        refine ⟨fun k hk => ?_, hdis j v hj hv⟩
        refine not_mem_of_not_blocked (i := i) ?_ hj hv
        simpa using List.any_eq_false.1 (by simpa using hb) k hk
    · next hh =>
      simp only [Option.some.injEq] at hs
      subst hs
      exact h.put_some i _ ((hsafe _ (D.refl _ _) h.committed).2 (by simpa using hh)) hdis
  | fresh next =>
    simp only [hp] at hs hsafe
    split at hs
    · next hc =>
      simp only [Bool.and_eq_true, Bool.not_eq_true', decide_eq_false_iff_not] at hc
      simp only [Option.some.injEq] at hs
      subst hs
      refine h.put_some i _ (hsafe _ (D.refl _ _) h.committed id hc.1.1 hc.2) fun j v hj hv => ?_
      rw [Tx.held_locked, List.disjoint_cons_left]
      exact ⟨not_mem_of_not_blocked hc.1.2 hj hv, hdis j v hj hv⟩
    · cases hs

theorem Inv.step (h : Inv D J X Q s₀ σ) (hK : Keeps D J Q C n)
    (hP : ∀ op s, Allowed op → J s → (prog op).Safe D J X (Q op) Tx.start s)
    (hA : ∀ i op, c = .start i op → Allowed op)
    (hs : σ.step prog c = some σ') (hC : AtEach C s₀ σ'.log) : Inv D J X Q s₀ σ' := by
  cases c with
  | start i op =>
    simp only [System.step] at hs
    split at hs
    · simp only [Option.some.injEq] at hs
      subst hs
      refine h.put_some i _ (hP op _ (hA i op rfl) h.committed) fun j v _ _ => ?_
      simp [Tx.start]
    · cases hs
  | step i id =>
    simp only [System.step] at hs
    split at hs
    · cases hs
    · next t ht => exact h.advance hK ht hs hC
  | kill i =>
    simp only [System.step, Option.some.injEq] at hs
    subst hs
    exact h.put_none i

/-- Commits are only ever added to the log. -/
theorem log_step (hs : σ.step prog c = some σ') : σ.log <+: σ'.log := by
  cases c with
  | start i op =>
    simp only [System.step] at hs
    split at hs
    · cases hs
      exact List.prefix_rfl
    · cases hs
  | step i id =>
    simp only [System.step] at hs
    split at hs
    · cases hs
    · next t ht =>
      unfold System.advance at hs
      cases hp : t.prog <;> simp only [hp] at hs
      case ret a =>
        cases hs
        exact List.prefix_append _ _
      -- nothing else commits
      all_goals
        repeat' split at hs
        all_goals
          cases hs
          try exact List.prefix_rfl
  | kill i =>
    cases hs
    exact List.prefix_rfl

theorem log_exec (hs : σ.exec prog cs = some σ') : σ.log <+: σ'.log := by
  induction cs generalizing σ with
  | nil =>
    simp only [exec, Option.some.injEq] at hs
    rw [hs]
  | cons c cs ih =>
    simp only [exec, Option.bind_eq_some_iff] at hs
    obtain ⟨σ₁, h₁, h₂⟩ := hs
    exact (log_step h₁).trans (ih h₂)

/-- What every transaction does to the committed store, a run does. -/
theorem db_exec {R : S → S → Prop} (hrefl : ∀ s, R s s) (htrans : ∀ s₁ s₂ s₃, R s₁ s₂ → R s₂ s₃ → R s₁ s₃)
    (hview : ∀ (t : Tx S K W) s, R s (t.view s)) (hs : σ.exec prog cs = some σ') : R σ.db σ'.db := by
  induction cs generalizing σ with
  | nil =>
    obtain rfl := Option.some.inj hs
    exact hrefl _
  | cons c cs ih =>
    simp only [exec, Option.bind_eq_some_iff] at hs
    obtain ⟨σ₁, h₁, h₂⟩ := hs
    refine htrans _ _ _ ?_ (ih h₂)
    cases c with
    | start i op =>
      simp only [System.step] at h₁
      split at h₁ <;> cases h₁
      exact hrefl _
    | step i id =>
      simp only [System.step] at h₁
      split at h₁
      · cases h₁
      · next t ht =>
        unfold System.advance at h₁
        cases hp : t.prog <;> simp only [hp] at h₁
        case ret a =>
          cases h₁
          exact hview _ _
        all_goals
          repeat' split at h₁
          all_goals
            cases h₁
            try exact hrefl _
    | kill i =>
      cases h₁
      exact hrefl _

theorem exec_append (σ : System S K W E Op A n) (cs cs' : List (Choice Op n)) :
    σ.exec prog (cs ++ cs') = (σ.exec prog cs).bind fun σ' => σ'.exec prog cs' := by
  induction cs generalizing σ with
  | nil => rfl
  | cons c cs ih =>
    simp only [List.cons_append, exec]
    cases σ.step prog c with
    | none => rfl
    | some σ₁ => exact ih σ₁

/-- The requests of the schedule are all of this kind. -/
def Starts (Allowed : Op → Prop) (cs : List (Choice Op n)) : Prop :=
  ∀ i op, Choice.start i op ∈ cs → Allowed op

instance {Allowed : Op → Prop} [DecidablePred Allowed] (cs : List (Choice Op n)) : Decidable (Starts Allowed cs) :=
  decidable_of_iff (∀ c ∈ cs, c.Begins Allowed)
    ⟨fun h i op hc => h (.start i op) hc, fun h c hc => by
      cases c with
      | start i op => exact h i op hc
      | step i id => trivial
      | kill i => trivial⟩

theorem exec_inv (h : Inv D J X Q s₀ σ) (hK : Keeps D J Q C n)
    (hP : ∀ op s, Allowed op → J s → (prog op).Safe D J X (Q op) Tx.start s)
    (hA : Starts Allowed cs) (hs : σ.exec prog cs = some σ') (hC : AtEach C s₀ σ'.log) : Inv D J X Q s₀ σ' := by
  induction cs generalizing σ with
  | nil =>
    simp only [exec, Option.some.injEq] at hs
    exact hs ▸ h
  | cons c cs ih =>
    simp only [exec, Option.bind_eq_some_iff] at hs
    obtain ⟨σ₁, h₁, h₂⟩ := hs
    have hc : ∀ i op, c = .start i op → Allowed op := fun i op he => hA i op (he ▸ List.mem_cons_self)
    exact ih (h.step hK hP hc h₁ (hC.of_prefix (log_exec h₂)))
      (fun i op hm => hA i op (List.mem_cons_of_mem _ hm)) h₂

omit [DecidableEq K] in
theorem inv_init (hj : J s) : Inv D J X Q s (init s : System S K W E Op A n) where
  committed := hj
  safe i t ht := by simp [init] at ht
  disjoint i j t u _ ht := by simp [init] at ht
  chain := .nil

/-- **Every interleaving is a chain of commits**, as long as they meet the condition.  Each
request need only be safe on its own, under the interference that the discipline allows. -/
theorem exec_chain_if (hj : J s) (hK : Keeps D J Q C n)
    (hP : ∀ op s, Allowed op → J s → (prog op).Safe D J X (Q op) Tx.start s)
    (hA : Starts Allowed cs) (hs : (init s).exec prog cs = some σ)
    (hC : AtEach C s σ.log) : Chain (fun s c => J s ∧ Q c.op c.tx s c.result) s σ.log σ.db :=
  (exec_inv (X := X) (inv_init hj) hK hP hA hs hC).chain

/-- The same without a condition. -/
theorem exec_chain (hj : J s) (hP : ∀ op s, Allowed op → J s → (prog op).Safe D J X (Q op) Tx.start s)
    (hJ : ∀ op t s a, J s → Q op t s a → J (t.view s)) (hG : ∀ op t s a, J s → Q op t s a → D.Guarantee t s)
    (hA : Starts Allowed cs) (hs : (init s).exec prog cs = some σ) :
    Chain (fun s c => J s ∧ Q c.op c.tx s c.result) s σ.log σ.db := by
  have hK : Keeps D J Q (fun _ _ => True) n :=
    ⟨fun s c hj hq _ => hJ _ _ _ _ hj hq, fun _ s c hj hq _ => hG _ _ _ _ hj hq⟩
  exact exec_chain_if (X := X) hj hK hP hA hs (AtEach.of_forall fun _ _ => trivial)

/-- **A frame rule for runs.**  What no statement of the requests breaks, no interleaving breaks. -/
theorem exec_keeps {P : W → Prop} {R : S → S → Prop} (hrefl : ∀ s, R s s)
    (htrans : ∀ s₁ s₂ s₃, R s₁ s₂ → R s₂ s₃ → R s₁ s₃) (hP : ∀ op, Allowed op → (prog op).OnlyWrites P)
    (hw : ∀ s w, P w → R s (Relational.apply s w)) (hA : Starts Allowed cs) (hs : (init s).exec prog cs = some σ) :
    R s σ.db := by
  have hchain := exec_chain (D := .loose) (J := fun _ => True) (X := fun _ => True)
    (Q := fun _ t _ _ => ∀ w ∈ t.writes, P w) trivial (fun op s' hop _ => by
      refine (Prog.Safe.of_onlyWrites (hP op hop) (fun _ => trivial) trivial).mono fun t _ _ _ h => ?_
      obtain ⟨ws, hws, hall⟩ := h.1.writes
      rw [hws]
      exact hall) (fun _ _ _ _ _ _ => trivial) (fun _ _ _ _ _ _ _ _ => trivial) hA hs
  refine hchain.inv (R s) (hrefl s) fun s' c h hc => htrans _ _ _ h ?_
  have hfold : ∀ (ws : List W) (s' : S), (∀ w ∈ ws, P w) → R s' (ws.foldl Relational.apply s') := by
    intro ws
    induction ws with
    | nil => exact fun s' _ => hrefl s'
    | cons w ws ih =>
      intro s' hws
      exact htrans _ _ _ (hw s' w (hws w List.mem_cons_self)) (ih _ fun v hv => hws v (List.mem_cons_of_mem w hv))
  exact hfold c.tx.writes s' hc.2

/-- The requests may rely on `R` as long as the commits meet the condition, and as long as they do
`I` holds: `I` holds all along exactly when every commit meets its condition. -/
theorem exec_always_iff_of {I R : S → Prop} (hj : J s) (hi : R s) (hP : ∀ op s, Allowed op → J s ∧ R s →
      (prog op).Safe D (fun s => J s ∧ R s) X (Q op) Tx.start s)
    (hJ : ∀ s (c : Commit S K W Op A), J s → R s → Q c.op c.tx s c.result → J (c.tx.view s) ∧ D.Guarantee c.tx s)
    (hC : ∀ s (c : Commit S K W Op A), J s → R s → Q c.op c.tx s c.result →
      (I (c.tx.view s) ↔ C s c) ∧ (C s c → R (c.tx.view s)))
    (hA : Starts Allowed cs) (hs : (init s).exec prog cs = some σ) : Always I s σ.log ↔ AtEach C s σ.log := by
  -- as long as the commits meet `C'`, the chain of commits has the invariant
  have hchain : ∀ C' : S → Commit S K W Op A → Prop,
      (∀ s (c : Commit S K W Op A), J s → R s → Q c.op c.tx s c.result → C' s c → C s c) →
      AtEach C' s σ.log → AtEach (fun s c => I (c.tx.view s) ↔ C s c) s σ.log := by
    intro C' hC' h
    have hK : Keeps D (fun s => J s ∧ R s) Q C' n :=
      ⟨fun s c hj hq hc => ⟨(hJ s c hj.1 hj.2 hq).1, (hC s c hj.1 hj.2 hq).2 (hC' s c hj.1 hj.2 hq hc)⟩,
        fun _ s c hj hq _ => (hJ s c hj.1 hj.2 hq).2⟩
    have hchain := exec_chain_if (X := X) ⟨hj, hi⟩ hK hP hA hs h
    exact (hchain.mono fun s c h => (hC s c h.1.1 h.1.2 h.2).1).atEach
  constructor
  · intro h
    exact (hchain (fun s c => I (c.tx.view s)) (fun s c hj hi hq h => (hC s c hj hi hq).1.1 h) h).congr.1 h
  · intro h
    exact (hchain C (fun _ _ _ _ _ h => h) h).congr.2 h

/-- An invariant that the requests may rely on as long as it holds: it holds all along exactly when
every commit meets its condition. -/
theorem exec_always_iff {I : S → Prop} (hj : J s) (hi : I s) (hP : ∀ op s, Allowed op → J s ∧ I s →
      (prog op).Safe D (fun s => J s ∧ I s) X (Q op) Tx.start s)
    (hJ : ∀ s (c : Commit S K W Op A), J s → I s → Q c.op c.tx s c.result → J (c.tx.view s) ∧ D.Guarantee c.tx s)
    (hC : ∀ s (c : Commit S K W Op A), J s → I s → Q c.op c.tx s c.result → (I (c.tx.view s) ↔ C s c))
    (hA : Starts Allowed cs) (hs : (init s).exec prog cs = some σ) : Always I s σ.log ↔ AtEach C s σ.log :=
  exec_always_iff_of (X := X) hj hi hP hJ
    (fun s c hj hi hq => ⟨hC s c hj hi hq, (hC s c hj hi hq).2⟩) hA hs

/-- One session: nothing moves under it. -/
theorem exec_chain_serial {σ : System S K W E Op A 1} (hj : J s) (hP : ∀ op s, Allowed op → J s →
      (prog op).Safe Discipline.serial J X (Q op) Tx.start s) (hJ : ∀ op t s a, J s → Q op t s a → J (t.view s))
    {cs : List (Choice Op 1)} (hA : Starts Allowed cs) (hs : (init s).exec prog cs = some σ) :
    Chain (fun s c => J s ∧ Q c.op c.tx s c.result) s σ.log σ.db := by
  have hK : Keeps Discipline.serial J Q (fun _ _ => True) 1 :=
    ⟨fun s c hj hq _ => hJ _ _ _ _ hj hq, fun h => absurd h (by omega)⟩
  exact exec_chain_if (X := X) hj hK hP hA hs (AtEach.of_forall fun _ _ => trivial)

end System

/-! ### Schedules by hand -/

/-- A played schedule shows what its last state satisfies. -/
theorem run_shows {T Cs Last : Type} (run : T → Cs → Option Last) (s : T) (cs : Cs) (p : Last → Bool)
    (h : (run s cs).any p = true) : ∃ σ, run s cs = some σ ∧ p σ = true :=
  (Option.any_eq_true _ _).1 h

/-- `k` statements of session `i`, which draws `id` when it asks for one. -/
def Choice.steps {n : Nat} (i : Fin n) (k id : Nat) : List (Choice Op n) :=
  List.replicate k (.step i id)

/-- A request that runs through with nothing in between. -/
def Choice.request {n : Nat} (i : Fin n) (op : Op) (k id : Nat) : List (Choice Op n) :=
  .start i op :: Choice.steps i k id

end Transactions
