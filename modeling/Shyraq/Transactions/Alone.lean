import Shyraq.Transactions.Serial

/-!
# A transaction by itself

`Prog.alone` is what a request comes to when nobody else is there: an error, or the transaction
that it is about to commit.  The ids that it draws are given.  `Prog.reads` is the answer of a
program that writes nothing and draws nothing.
-/

namespace Transactions

variable {S K W E Op A B : Type} [Relational S K W]

namespace Prog

/-- How the request ends; `none` where an id is missing or taken. -/
def alone [DecidableEq K] (s : S) :
    Prog S K W E A → List Nat → Tx S K W → Option (Except E (A × Tx S K W))
  | ret a, _, t => some (.ok (a, t))
  | throw e, _, _ => some (.error e)
  | select next, ids, t => alone s (next (t.view s)) ids (t.saw s)
  | lock k next, ids, t => alone s next ids (t.locked k)
  | write w next, ids, t =>
      if Relational.hit (t.view s) w then alone s (next true) ids (t.wrote w)
      else alone s (next false) ids t
  | fresh _, [], _ => none
  | fresh next, id :: ids, t =>
      if Relational.absent (t.view s) id && !decide (Relational.rowKey S id ∈ t.held) then
        alone s (next id) ids (t.locked (Relational.rowKey S id))
      else none

/-- What a result of a request by itself satisfies. -/
def Ends (X : E → Prop) (Q : Tx S K W → A → Prop) : Except E (A × Tx S K W) → Prop
  | .ok (a, t) => Q t a
  | .error e => X e

variable {p : Prog S K W E A} {f : A → Prog S K W E B}

/-- The serial case of `Safe` speaks about `alone`. -/
theorem Safe.alone [DecidableEq K] {J : S → Prop} {X : E → Prop} {Q : Tx S K W → S → A → Prop}
    {ids : List Nat} {t : Tx S K W} {s : S} {r : Except E (A × Tx S K W)}
    (h : Safe Discipline.serial J X Q p t s) (hj : J s) (hr : p.alone s ids t = some r) :
    Ends X (fun t a => Q t s a) r := by
  induction p generalizing ids t with
  | ret a =>
    obtain rfl := Option.some.inj hr
    exact h s rfl hj
  | throw e =>
    obtain rfl := Option.some.inj hr
    exact h
  | select next ih => exact ih _ (h s rfl hj) hr
  | lock k next ih => exact ih (h s rfl hj) hr
  | write w next ih =>
    unfold Prog.alone at hr
    split at hr
    · next hh => exact ih _ ((h s rfl hj).1 hh) hr
    · next hh => exact ih _ ((h s rfl hj).2 (by simpa using hh)) hr
  | fresh next ih =>
    cases ids with
    | nil => cases hr
    | cons id ids =>
      unfold Prog.alone at hr
      split at hr
      · next ha =>
        simp only [Bool.and_eq_true, Bool.not_eq_true', decide_eq_false_iff_not] at ha
        exact ih _ (h s rfl hj id ha.1 ha.2) hr
      · cases hr

/-- How the request ends by itself is what it yields. -/
theorem yields_of_alone [DecidableEq K] {ids : List Nat} {t t' : Tx S K W} {s : S} {a : A}
    (h : p.alone s ids t = some (.ok (a, t'))) : p.Yields (t.view s) a (t'.view s) :=
  Safe.alone (Safe.of_yields (J := fun _ => True) (Q := fun t' s a => p.Yields (t.view s) a (t'.view s))
    fun _ _ ha => ha) trivial h

omit [Relational S K W] in
/-- A run that can be evaluated. -/
theorem alone_shows {r : Option (Except E (A × Tx S K W))} (h : r.any Except.toBool = true) :
    ∃ a t, r = some (.ok (a, t)) := by
  obtain ⟨r, rfl, hok⟩ := (Option.any_eq_true _ _).1 h
  cases r with
  | error e => cases hok
  | ok r => exact ⟨r.1, r.2, rfl⟩

omit [Relational S K W] in
/-- A run that can be evaluated, and what its end satisfies. -/
theorem alone_shows_end {r : Option (Except E (A × Tx S K W))} {f : A × Tx S K W → Bool}
    (h : (r.bind Except.toOption).any f = true) : ∃ a t, r = some (.ok (a, t)) ∧ f (a, t) = true := by
  obtain ⟨⟨a, t⟩, hr, hf⟩ := (Option.any_eq_true _ _).1 h
  obtain ⟨r, rfl, hr⟩ := Option.bind_eq_some_iff.1 hr
  cases r with
  | error e => cases hr
  | ok r =>
    obtain rfl := Option.some.inj hr
    exact ⟨a, t, rfl, hf⟩

/-- Where there is always an id that nobody has, a request by itself comes to an end. -/
theorem alone_ends [DecidableEq K] {s : S}
    (hfresh : ∀ (v : S) (held : List K), ∃ i, Relational.absent v i = true ∧ Relational.rowKey S i ∉ held)
    (p : Prog S K W E A) (t : Tx S K W) : ∃ ids r, p.alone s ids t = some r := by
  induction p generalizing t with
  | ret a => exact ⟨[], _, rfl⟩
  | throw e => exact ⟨[], _, rfl⟩
  | select next ih => exact ih _ _
  | lock k next ih => exact ih _
  | write w next ih =>
    by_cases hh : Relational.hit (t.view s) w = true
    · obtain ⟨ids, r, hr⟩ := ih true (t.wrote w)
      refine ⟨ids, r, ?_⟩
      unfold Prog.alone
      rw [if_pos hh]
      exact hr
    · obtain ⟨ids, r, hr⟩ := ih false t
      refine ⟨ids, r, ?_⟩
      unfold Prog.alone
      rw [if_neg hh]
      exact hr
  | fresh next ih =>
    obtain ⟨i, habsent, hheld⟩ := hfresh (t.view s) t.held
    obtain ⟨ids, r, hr⟩ := ih i (t.locked (Relational.rowKey S i))
    refine ⟨i :: ids, r, ?_⟩
    unfold Prog.alone
    rw [if_pos (by simp [habsent, hheld])]
    exact hr

/-! ## Programs that throw nothing -/

/-- Nothing is thrown, whatever is read, and only such writes are made. -/
def Unfailing (P : W → Prop) : Prog S K W E A → Prop
  | ret _ => True
  | throw _ => False
  | select next => ∀ s, Unfailing P (next s)
  | lock _ next => Unfailing P next
  | write w next => P w ∧ ∀ b, Unfailing P (next b)
  | fresh next => ∀ i, Unfailing P (next i)

omit [Relational S K W] in
theorem Unfailing.bind {P : W → Prop} (h : Unfailing P p)
    (hf : ∀ a, Unfailing P (f a)) : Unfailing P (Prog.bind p f) := by
  induction p with
  | ret a => exact hf a
  | throw e => exact h.elim
  | select next ih => exact fun s => ih s (h s)
  | lock k next ih => exact ih h
  | write w next ih => exact ⟨h.1, fun b => ih b (h.2 b)⟩
  | fresh next ih => exact fun i => ih i (h i)

omit [Relational S K W] in
theorem Unfailing.forEach {P : W → Prop} {body : A → Prog S K W E Unit} (l : List A)
    (h : ∀ a ∈ l, Unfailing P (body a)) : Unfailing P (Prog.forEach body l) := by
  induction l with
  | nil => trivial
  | cons a l ih => exact (h a List.mem_cons_self).bind fun _ => ih fun b hb => h b (List.mem_cons_of_mem a hb)

/-- By itself it ends, with its writes and no others. -/
theorem Unfailing.safe {P : W → Prop} {J : S → Prop} {X : E → Prop} (h : Unfailing P p) (t : Tx S K W) (s : S) :
    Safe Discipline.serial J X (fun t' s' _ => s' = s ∧ Tx.Extends P t t') p t s := by
  have step : ∀ t', Tx.Extends P t t' →
      Safe Discipline.serial J X (fun t' s' _ => s' = s ∧ Tx.Extends P t t') p t' s := by
    induction p with
    | ret a =>
      rintro t' he s' rfl -
      exact ⟨rfl, he⟩
    | throw e => exact h.elim
    | select next ih =>
      rintro t' he s' rfl -
      exact ih _ (h _) _ (he.saw s')
    | lock k next ih =>
      rintro t' he s' rfl -
      exact ih h _ (he.locked k)
    | write w next ih =>
      rintro t' he s' rfl -
      exact ⟨fun _ => ih true (h.2 true) _ (he.wrote h.1), fun _ => ih false (h.2 false) _ he⟩
    | fresh next ih =>
      rintro t' he s' rfl - i - -
      exact ih i (h i) _ (he.locked _)
  exact step t (.refl t)

/-! ## Programs that only read -/

/-- The answer on a store that does not change meanwhile. -/
def reads (s : S) : Prog S K W E A → Option (Except E A)
  | ret a => some (.ok a)
  | throw e => some (.error e)
  | select next => reads s (next s)
  | lock _ next => reads s next
  | write .. | fresh .. => none

omit [Relational S K W] in

omit [Relational S K W] in

omit [Relational S K W] in
@[simp] theorem reads_query (s : S) (g : S → A) : (query g : Prog S K W E A).reads s = some (.ok (g s)) := rfl

omit [Relational S K W] in
theorem reads_bind {s : S} {a : A} (h : p.reads s = some (.ok a)) : (bind p f).reads s = (f a).reads s := by
  induction p with
  | ret b =>
    cases h
    rfl
  | throw e => cases h
  | select next ih => exact ih s h
  | lock k next ih => exact ih h
  | write w next => cases h
  | fresh next => cases h

omit [Relational S K W] in
theorem reads_bind_error {s : S} {e : E}
    (h : p.reads s = some (.error e)) : (bind p f).reads s = some (.error e) := by
  induction p with
  | ret b => cases h
  | throw e' =>
    cases h
    rfl
  | select next ih => exact ih s h
  | lock k next ih => exact ih h
  | write w next => cases h
  | fresh next => cases h

/-- A reader by itself gives its answer and has written nothing. -/
theorem alone_of_reads [DecidableEq K] {s : S} {r : Except E A} (ids : List Nat)
    {t : Tx S K W} (h : p.reads (t.view s) = some r) :
    ∃ t', t'.writes = t.writes ∧ p.alone s ids t = some (r.map fun a => (a, t')) := by
  induction p generalizing t with
  | ret a =>
    cases h
    exact ⟨t, rfl, rfl⟩
  | throw e =>
    cases h
    exact ⟨t, rfl, rfl⟩
  | select next ih => exact ih (t.view s) (t := t.saw s) h
  | lock k next ih => exact ih (t := t.locked k) h
  | write w next => cases h
  | fresh next => cases h

/-- Going on after a reader. -/
theorem Safe.bind_reads {J : S → Prop} {X : E → Prop} {Q : Tx S K W → S → B → Prop}
    {t : Tx S K W} {s : S} {r : Except E A} (hj : J s)
    (h : p.reads (t.view s) = some r) (herr : ∀ e, r = .error e → X e)
    (hok : ∀ a, r = .ok a → ∀ t', Tx.Extends (fun _ => False) t t' → Safe Discipline.serial J X Q (f a) t' s) :
    Safe Discipline.serial J X Q (Prog.bind p f) t s := by
  induction p generalizing t with
  | ret a =>
    cases h
    exact hok a rfl t (.refl t)
  | throw e =>
    cases h
    exact herr e rfl
  | select next ih =>
    rintro s' rfl -
    exact ih _ (t := t.saw s') h fun a ha t' he => hok a ha t' (((Tx.Extends.refl t).saw s').trans he)
  | lock k next ih =>
    rintro s' rfl -
    exact ih (t := t.locked k) h fun a ha t' he => hok a ha t' (((Tx.Extends.refl t).locked k).trans he)
  | write w next => cases h
  | fresh next => cases h

end Prog

/-! ## As long as nobody commits -/

section

variable [DecidableEq K] {n : Nat} {prog : Op → Prog S K W E A} {s : S}

/-- By itself the request may fail. -/
def Prog.FailsAlone (s : S) (p : Prog S K W E A) : Prop := ∃ ids e, p.alone s ids Tx.start = some (.error e)

/-- What the session has left to do is what is left of its request by itself. -/
def Session.Continues (prog : Op → Prog S K W E A) (s : S) (t : Session S K W E Op A) : Prop :=
  ∀ ids r, t.prog.alone s ids t.tx = some r → ∃ ids', (prog t.op).alone s ids' Tx.start = some r

namespace System

/-- What an event leaves of the sessions, as long as nobody commits: they go on or fail. -/
structure Uncommitted (prog : Op → Prog S K W E A) (σ σ' : System S K W E Op A n) : Prop where
  db : σ'.db = σ.db
  continues : ∀ i t, σ'.sessions i = some t → t.Continues prog σ.db
  goes : ∀ i t, σ.sessions i = some t →
    (∃ t', σ'.sessions i = some t' ∧ t'.op = t.op) ∨ (prog t.op).FailsAlone σ.db

variable {σ σ' : System S K W E Op A n} {i : Fin n} {t : Session S K W E Op A}

omit [DecidableEq K] [Relational S K W] in
theorem sessions_put (σ : System S K W E Op A n) (i j : Fin n) (t : Option (Session S K W E Op A)) :
    (σ.put i t).sessions j = if j = i then t else σ.sessions j :=
  Function.update_apply σ.sessions i t j

/-- The session has gone on. -/
theorem Uncommitted.put (hσ : ∀ j u, σ.sessions j = some u → u.Continues prog σ.db)
    (hop : ∀ u, σ.sessions i = some u → t.op = u.op) (ht : t.Continues prog σ.db) :
    Uncommitted prog σ (σ.put i (some t)) where
  db := rfl
  continues j u hu := by
    rw [sessions_put] at hu
    by_cases hj : j = i
    · rw [if_pos hj] at hu
      exact Option.some.inj hu ▸ ht
    · rw [if_neg hj] at hu
      exact hσ j u hu
  goes j u hu := by
    rw [sessions_put]
    by_cases hj : j = i
    · subst hj
      exact .inl ⟨t, if_pos rfl, hop u hu⟩
    · exact .inl ⟨u, (if_neg hj).trans hu, rfl⟩

/-- The session has failed. -/
theorem Uncommitted.thrown (hσ : ∀ j u, σ.sessions j = some u → u.Continues prog σ.db)
    (ht : σ.sessions i = some t) (hfails : (prog t.op).FailsAlone σ.db) : Uncommitted prog σ (σ.put i none) where
  db := rfl
  continues j u hu := by
    rw [sessions_put] at hu
    by_cases hj : j = i
    · rw [if_pos hj] at hu
      cases hu
    · rw [if_neg hj] at hu
      exact hσ j u hu
  goes j u hu := by
    rw [sessions_put]
    by_cases hj : j = i
    · subst hj
      obtain rfl := Option.some.inj (ht.symm.trans hu)
      exact .inr hfails
    · exact .inl ⟨u, (if_neg hj).trans hu, rfl⟩

theorem Uncommitted.advance {id : Nat} (hσ : ∀ j u, σ.sessions j = some u → u.Continues prog σ.db)
    (ht : σ.sessions i = some t) (h : σ.advance i id t = some σ') (hlog : σ'.log = []) : Uncommitted prog σ σ' := by
  have hcont := hσ i t ht
  have hop : ∀ u, σ.sessions i = some u → t.op = u.op := fun u hu => by rw [Option.some.inj (ht.symm.trans hu)]
  obtain ⟨op, p, tx⟩ := t
  unfold System.advance at h
  cases p with
  | ret a =>
    cases h
    simp at hlog
  | throw e =>
    cases h
    exact .thrown hσ ht (hcont [] (.error e) rfl |>.imp fun ids hids => ⟨e, hids⟩)
  | select next =>
    cases h
    exact .put hσ hop hcont
  | lock k next =>
    dsimp only at h
    split at h
    · cases h
    · cases h
      exact .put hσ hop hcont
  | write w next =>
    dsimp only at h
    split at h
    · next hit =>
      split at h
      · cases h
      · cases h
        refine .put hσ hop fun ids r hr => hcont ids r ?_
        show (if _ then _ else _) = _
        rw [if_pos hit]
        exact hr
    · next hit =>
      cases h
      refine .put hσ hop fun ids r hr => hcont ids r ?_
      show (if _ then _ else _) = _
      rw [if_neg hit]
      exact hr
  | fresh next =>
    dsimp only at h
    split at h
    · next hfree =>
      cases h
      refine .put hσ hop fun ids r hr => hcont (id :: ids) r ?_
      show (if _ then _ else _) = _
      simp only [Bool.and_eq_true] at hfree
      rw [if_pos (by rw [hfree.1.1, hfree.2]; rfl)]
      exact hr
    · cases h

/-- A request that has begun runs or fails. -/
theorem exec_failsAlone {cs : List (Choice Op n)} (hs : σ.exec prog cs = some σ') (hlog : σ'.log = [])
    (hidle : ∀ i, σ'.sessions i = none) (hkill : ∀ i, Choice.kill i ∉ cs)
    (hσ : ∀ i t, σ.sessions i = some t → t.Continues prog σ.db) :
    (∀ i t, σ.sessions i = some t → (prog t.op).FailsAlone σ.db) ∧
      ∀ i op, Choice.start i op ∈ cs → (prog op).FailsAlone σ.db := by
  induction cs generalizing σ with
  | nil =>
    cases hs
    refine ⟨fun i t ht => ?_, fun i op h => absurd h List.not_mem_nil⟩
    rw [hidle i] at ht
    cases ht
  | cons c cs ih =>
    simp only [exec, Option.bind_eq_some_iff] at hs
    obtain ⟨σ₁, h₁, h₂⟩ := hs
    have hlog₁ : σ₁.log = [] := List.prefix_nil.1 (hlog ▸ log_exec h₂)
    have hkill' : ∀ i, Choice.kill i ∉ cs := fun i h => hkill i (List.mem_cons_of_mem c h)
    -- the sessions of the next state fail, and so do the requests that begin later
    have rest : Uncommitted prog σ σ₁ →
        (∀ i t, σ₁.sessions i = some t → (prog t.op).FailsAlone σ.db) ∧
          (∀ i t, σ.sessions i = some t → (prog t.op).FailsAlone σ.db) ∧
          ∀ i op, Choice.start i op ∈ cs → (prog op).FailsAlone σ.db := by
      intro hu
      have h := ih h₂ hkill' (fun i t ht => hu.db.symm ▸ hu.continues i t ht)
      rw [hu.db] at h
      refine ⟨h.1, fun i t ht => ?_, h.2⟩
      rcases hu.goes i t ht with ⟨t', ht', hop⟩ | hfails
      · exact hop ▸ h.1 i t' ht'
      · exact hfails
    cases c with
    | start i op =>
      simp only [step] at h₁
      split at h₁
      · next hfree =>
        cases h₁
        have hput : Uncommitted prog σ (σ.put i (some ⟨op, prog op, Tx.start⟩)) := by
          refine .put hσ (fun u hu => ?_) fun ids r hr => ⟨ids, hr⟩
          rw [hfree] at hu
          cases hu
        obtain ⟨hnext, hnow, hlater⟩ := rest hput
        refine ⟨hnow, fun j op' hm => ?_⟩
        rcases List.mem_cons.1 hm with he | hm
        · cases he
          exact hnext i _ ((sessions_put _ _ _ _).trans (if_pos rfl))
        · exact hlater j op' hm
      · cases h₁
    | step i id =>
      simp only [step] at h₁
      split at h₁
      · cases h₁
      · next t ht =>
        obtain ⟨-, hnow, hlater⟩ := rest (.advance hσ ht h₁ hlog₁)
        refine ⟨hnow, fun j op' hm => hlater j op' ?_⟩
        exact (List.mem_cons.1 hm).resolve_left (fun he => by cases he)
    | kill i => exact absurd List.mem_cons_self (hkill i)

/-- **Where nobody succeeds, everybody fails alone**, once all have run to their ends. -/
theorem exec_init_failsAlone {cs : List (Choice Op n)} (hs : (init s).exec prog cs = some σ')
    (hlog : σ'.log = []) (hidle : ∀ i, σ'.sessions i = none) (hkill : ∀ i, Choice.kill i ∉ cs) {op : Op}
    (hop : Choice.start i op ∈ cs) : (prog op).FailsAlone s :=
  (exec_failsAlone hs hlog hidle hkill fun i t ht => by simp [init] at ht).2 i op hop

end System

end

end Transactions
