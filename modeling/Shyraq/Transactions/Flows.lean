import Shyraq.Transactions.Runs

/-!
# Jobs that run several transactions

A queue job is a `Flow`: one transaction after the other, and between them what it hears from outside (a clock, the
answer of a service).  `Jobs` runs any number of jobs beside the ordinary requests of a system.

`Flow.Safe` runs one job symbolically: before each of its transactions the others may have committed.  Its postcondition
is about the log when the job is over and ever after (`Jobs.exec_sound`).
-/

namespace Transactions

variable {S K W E Op A I R Job B : Type}

inductive Flow (Op A I R : Type) : Type
  | done (r : R)
  /-- An exception that nobody catches. -/
  | fail
  /-- A transaction; the answer is `none` where it has thrown. -/
  | call (op : Op) (next : Option A → Flow Op A I R)
  | hear (next : I → Flow Op A I R)

namespace Flow

def bind : Flow Op A I R → (R → Flow Op A I B) → Flow Op A I B
  | done r, f => f r
  | fail, _ => fail
  | call op next, f => call op fun a => bind (next a) f
  | hear next, f => hear fun x => bind (next x) f

instance : Monad (Flow Op A I) where
  pure := done
  bind := bind

/-- One transaction and its answer. -/
def transaction (op : Op) : Flow Op A I (Option A) := call op done

def listen : Flow Op A I I := hear done

@[simp] theorem pure_eq (r : R) : (pure r : Flow Op A I R) = done r := rfl
@[simp] theorem bind_eq (p : Flow Op A I R) (f : R → Flow Op A I B) : p >>= f = bind p f := rfl

/-- What the job does once its transaction is over. -/
def answered : Flow Op A I R → Option A → Flow Op A I R
  | call _ next, a => next a
  | f, _ => f

end Flow

/-- A job under way. -/
structure Running (S Op A I R Job : Type) where
  job : Job
  /-- The committed store when it began. -/
  began : S
  flow : Flow Op A I R

/-- A job that is over, and what it has returned. -/
structure Ended (S R Job : Type) where
  job : Job
  began : S
  result : R

/-- Requests and jobs, each session running one or the other. -/
structure Jobs (S K W E Op A I R Job : Type) (n : Nat) where
  sys : System S K W E Op A n
  running : Fin n → Option (Running S Op A I R Job)
  ended : List (Ended S R Job)

/-- The next event.  `kill i` is a lost connection, or the end of the worker. -/
inductive JobEvent (Op I Job : Type) (n : Nat) : Type
  | request (i : Fin n) (op : Op)
  | enter (i : Fin n) (job : Job)
  | call (i : Fin n)
  | hear (i : Fin n) (x : I)
  | finish (i : Fin n)
  | step (i : Fin n) (id : Nat)
  | kill (i : Fin n)

/-- The job after a statement of its transaction. -/
def Running.after (r : Running S Op A I R Job) : Prog S K W E A → Running S Op A I R Job
  | .ret a => { r with flow := r.flow.answered (some a) }
  | .throw _ => { r with flow := r.flow.answered none }
  | _ => r

namespace Jobs

variable {n : Nat} [Relational S K W] [DecidableEq K]

def init (s : S) : Jobs S K W E Op A I R Job n := ⟨System.init s, fun _ => none, []⟩

def put (σ : Jobs S K W E Op A I R Job n) (i : Fin n) (r : Option (Running S Op A I R Job)) :
    Jobs S K W E Op A I R Job n :=
  { σ with running := Function.update σ.running i r }

def step (prog : Op → Prog S K W E A) (body : Job → Flow Op A I R) (σ : Jobs S K W E Op A I R Job n) :
    JobEvent Op I Job n → Option (Jobs S K W E Op A I R Job n)
  | .request i op =>
      match σ.running i with
      | none => (σ.sys.step prog (.start i op)).map fun sys => { σ with sys := sys }
      | some _ => none
  | .enter i job =>
      match σ.running i, σ.sys.sessions i with
      | none, none => some (σ.put i (some ⟨job, σ.sys.db, body job⟩))
      | _, _ => none
  | .call i =>
      match σ.running i with
      | some ⟨_, _, .call op _⟩ => (σ.sys.step prog (.start i op)).map fun sys => { σ with sys := sys }
      | _ => none
  | .hear i x =>
      match σ.running i with
      | some ⟨job, began, .hear next⟩ => some (σ.put i (some ⟨job, began, next x⟩))
      | _ => none
  | .finish i =>
      match σ.running i with
      | some ⟨job, began, .done r⟩ => some { (σ.put i none) with ended := σ.ended ++ [⟨job, began, r⟩] }
      | some ⟨_, _, .fail⟩ => some (σ.put i none)
      | _ => none
  | .step i id =>
      match σ.sys.sessions i with
      | none => none
      | some t => (σ.sys.advance i id t).map fun sys =>
          { (σ.put i ((σ.running i).map fun r => r.after t.prog)) with sys := sys }
  | .kill i => some { (σ.put i none) with sys := σ.sys.put i none }

/-- Plays a schedule; `none` when it asks for an event that cannot happen. -/
def exec (prog : Op → Prog S K W E A) (body : Job → Flow Op A I R) (σ : Jobs S K W E Op A I R Job n) :
    List (JobEvent Op I Job n) → Option (Jobs S K W E Op A I R Job n)
  | [] => some σ
  | e :: es => (σ.step prog body e).bind fun σ' => exec prog body σ' es

/-- The ordinary requests of the schedule are all of this kind. -/
def Requests (Requested : Op → Prop) (es : List (JobEvent Op I Job n)) : Prop :=
  ∀ i op, JobEvent.request i op ∈ es → Requested op

/-- The request that the event begins. -/
def asked? : JobEvent Op I Job n → Option Op
  | .request _ op => some op
  | _ => none

instance (Requested : Op → Prop) [DecidablePred Requested] (es : List (JobEvent Op I Job n)) :
    Decidable (Requests Requested es) :=
  decidable_of_iff (∀ op ∈ es.filterMap asked?, Requested op) <| by
    constructor
    · exact fun h i op hmem => h op (List.mem_filterMap.2 ⟨_, hmem, rfl⟩)
    · intro h op hop
      obtain ⟨e, he, hasked⟩ := List.mem_filterMap.1 hop
      cases e with
      | request i op' =>
        cases hasked
        exact h i op he
      | _ => cases hasked

end Jobs

/-! ## Rules for one job -/

/-- What is relied on and kept by the transactions of a system, and what may be said of each commit (`Q`) and of each
commit after those before it (`Ok`). -/
structure Contract (S K W E Op A : Type) [Relational S K W] where
  prog : Op → Prog S K W E A
  s₀ : S
  D : Discipline S K W
  J : S → Prop
  X : E → Prop
  Q : Op → Tx S K W → S → A → Prop
  Ok : List (Commit S K W Op A) → Commit S K W Op A → Prop

section

variable [Relational S K W] {C : Contract S K W E Op A} {l l' l'' : List (Commit S K W Op A)} {c : Commit S K W Op A}

/-- The committed store after these commits. -/
def Contract.after (C : Contract S K W E Op A) (l : List (Commit S K W Op A)) : S := replay C.s₀ l

/-- A log that the contract allows. -/
structure History (C : Contract S K W E Op A) (l : List (Commit S K W Op A)) : Prop where
  inv : C.J (C.after l)
  chain : Chain (fun s c => C.J s ∧ C.Q c.op c.tx s c.result) C.s₀ l (C.after l)
  ok : ∀ p c, p ++ [c] <+: l → C.Ok p c

/-- The log has gone on. -/
def Later (C : Contract S K W E Op A) (l l' : List (Commit S K W Op A)) : Prop := l <+: l' ∧ History C l'

theorem Contract.after_snoc (C : Contract S K W E Op A) (l : List (Commit S K W Op A)) (c : Commit S K W Op A) :
    C.after (l ++ [c]) = c.tx.view (C.after l) := replay_snoc _ _ _

theorem History.snoc (h : History C l) (hc : C.Q c.op c.tx (C.after l) c.result) (hj : C.J (C.after (l ++ [c])))
    (hok : C.Ok l c) : History C (l ++ [c]) where
  inv := hj
  chain := by
    rw [C.after_snoc]
    exact h.chain.snoc ⟨h.inv, hc⟩
  ok p d hp := by
    rcases List.prefix_concat_iff.1 hp with hp | hp
    · obtain ⟨rfl, hd⟩ := List.append_inj' hp rfl
      rw [List.singleton_inj.1 hd]
      exact hok
    · exact h.ok p d hp

theorem AtEach.chain {Rel : S → Commit S K W Op A → Prop} {s₀ : S} (h : AtEach Rel s₀ l) :
    Chain Rel s₀ l (replay s₀ l) := by
  induction l using List.reverseRecOn with
  | nil => exact .nil
  | append_singleton l c ih =>
    rw [atEach_snoc] at h
    rw [replay_snoc]
    exact (ih h.1).snoc h.2

theorem History.of_prefix (h : History C l') (hl : l <+: l') : History C l where
  inv := by
    obtain ⟨rest, rfl⟩ := hl
    cases rest with
    | nil => exact l.append_nil ▸ h.inv
    | cons c rest =>
      have hat : AtEach _ C.s₀ (l ++ [c]) := h.chain.atEach.of_prefix ⟨rest, by simp⟩
      exact (atEach_snoc.1 hat).2.1
  chain := (h.chain.atEach.of_prefix hl).chain
  ok p c hp := h.ok p c (hp.trans hl)

theorem History.later (h : History C l) : Later C l l := ⟨List.prefix_rfl, h⟩

theorem Later.trans (h : Later C l l') (h' : Later C l' l'') : Later C l l'' := ⟨h.1.trans h'.1, h'.2⟩

/-- What each commit does to the store, the log does as it goes on. -/
theorem Later.rel {ρ : S → S → Prop} (refl : ∀ s, ρ s s) (trans : ∀ a b c, ρ a b → ρ b c → ρ a c)
    (hstep : ∀ s (c : Commit S K W Op A), C.J s → C.Q c.op c.tx s c.result → ρ s (c.tx.view s)) (h : Later C l l') :
    ρ (C.after l) (C.after l') := by
  obtain ⟨⟨rest, rfl⟩, hl⟩ := h
  have hat := hl.chain.atEach
  clear hl
  induction rest using List.reverseRecOn with
  | nil =>
    rw [List.append_nil]
    exact refl _
  | append_singleton rest c ih =>
    rw [← List.append_assoc, atEach_snoc] at hat
    rw [← List.append_assoc, C.after_snoc]
    exact trans _ _ _ (ih hat.1) (hstep _ _ hat.2.1 hat.2.2)

namespace Flow

/-- Every run of the rest of the job from this log, with others committing before each transaction, keeps the contract and
ends in `Post`. -/
def Safe (C : Contract S K W E Op A) (Post : List (Commit S K W Op A) → R → Prop) :
    Flow Op A I R → List (Commit S K W Op A) → Prop
  | done r, l => ∀ l', Later C l l' → Post l' r
  | fail, _ => True
  | call op next, l => ∀ l₁, Later C l l₁ →
      (C.prog op).Safe C.D C.J C.X (C.Q op) Tx.start (C.after l₁) ∧
      -- what the transaction has besides, begun here
      ∃ P, (C.prog op).Safe C.D C.J C.X P Tx.start (C.after l₁) ∧ ∀ l₂, Later C l₁ l₂ →
        Safe C Post (next none) l₂ ∧
        ∀ c, c.op = op → C.Q op c.tx (C.after l₂) c.result → P c.tx (C.after l₂) c.result →
          C.Ok l₂ c ∧ (Later C l₂ (l₂ ++ [c]) → Safe C Post (next (some c.result)) (l₂ ++ [c]))
  | hear next, l => ∀ x, Safe C Post (next x) l

variable {Post : List (Commit S K W Op A) → R → Prop}

/-- What the others commit meanwhile is already accounted for. -/
theorem Safe.later {f : Flow Op A I R} (h : Safe C Post f l) (hl : Later C l l') : Safe C Post f l' := by
  induction f with
  | done r => exact fun l'' h' => h l'' (hl.trans h')
  | fail => trivial
  | call op next ih => exact fun l'' h' => h l'' (hl.trans h')
  | hear next ih => exact fun x => ih x (h x)

theorem Safe.mono {Post' : List (Commit S K W Op A) → R → Prop} {f : Flow Op A I R} (h : Safe C Post f l)
    (hpost : ∀ l r, History C l → Post l r → Post' l r) : Safe C Post' f l := by
  induction f generalizing l with
  | done r => exact fun l' hl' => hpost l' r hl'.2 (h l' hl')
  | fail => trivial
  | call op next ih =>
    intro l₁ hl₁
    obtain ⟨hsafe, P, hP, hrest⟩ := h l₁ hl₁
    refine ⟨hsafe, P, hP, fun l₂ hl₂ => ⟨ih _ (hrest l₂ hl₂).1, fun c hop hQ hc => ?_⟩⟩
    obtain ⟨hok, hnext⟩ := (hrest l₂ hl₂).2 c hop hQ hc
    exact ⟨hok, fun hlater => ih _ (hnext hlater)⟩
  | hear next ih => exact fun x => ih x (h x)

/-- Sequencing: the rest must be safe from wherever the first part ends. -/
theorem Safe.bind {Post : List (Commit S K W Op A) → B → Prop} {f : Flow Op A I R} {g : R → Flow Op A I B}
    (hl : History C l) (h : Safe C (fun l r => Safe C Post (g r) l) f l) : Safe C Post (Flow.bind f g) l := by
  induction f generalizing l with
  | done r => exact h l hl.later
  | fail => trivial
  | call op next ih =>
    intro l₁ hl₁
    obtain ⟨hsafe, P, hP, hrest⟩ := h l₁ hl₁
    refine ⟨hsafe, P, hP, fun l₂ hl₂ => ⟨ih _ hl₂.2 (hrest l₂ hl₂).1, fun c hop hQ hc => ?_⟩⟩
    obtain ⟨hok, hnext⟩ := (hrest l₂ hl₂).2 c hop hQ hc
    exact ⟨hok, fun hlater => ih _ hlater.2 (hnext hlater)⟩
  | hear next ih => exact fun x => ih x hl (h x)

/-- The job waits for this transaction of its own. -/
def Waits (C : Contract S K W E Op A) (Post : List (Commit S K W Op A) → R → Prop) (f : Flow Op A I R)
    (t : Session S K W E Op A) (l : List (Commit S K W Op A)) (s : S) : Prop :=
  ∃ next P, f = call t.op next ∧ t.prog.Safe C.D C.J C.X P t.tx s ∧ ∀ l₂, Later C l l₂ →
    Safe C Post (next none) l₂ ∧
    ∀ c, c.op = t.op → C.Q t.op c.tx (C.after l₂) c.result → P c.tx (C.after l₂) c.result →
      C.Ok l₂ c ∧ (Later C l₂ (l₂ ++ [c]) → Safe C Post (next (some c.result)) (l₂ ++ [c]))

theorem Waits.later {f : Flow Op A I R} {t : Session S K W E Op A} {s s' : S} (h : Waits C Post f t l s)
    (hl : Later C l l') (hr : C.D.rely t.tx.held s s') : Waits C Post f t l' s' := by
  obtain ⟨next, P, hf, hsafe, hrest⟩ := h
  exact ⟨next, P, hf, hsafe.rely hr, fun l₂ hl₂ => hrest l₂ (hl.trans hl₂)⟩

end Flow

end

/-! ## Every run of jobs and requests -/

namespace Jobs

variable [Relational S K W] [DecidableEq K] {n : Nat} {body : Job → Flow Op A I R} {C : Contract S K W E Op A}
  {Requested : Op → Prop} {Post : Job → S → List (Commit S K W Op A) → R → Prop}

/-- What is known of the system, of its jobs and of its requests. -/
structure Setting (body : Job → Flow Op A I R) (C : Contract S K W E Op A) (Requested : Op → Prop)
    (Post : Job → S → List (Commit S K W Op A) → R → Prop) : Prop where
  start : C.J C.s₀
  inv : ∀ s (c : Commit S K W Op A), C.J s → C.Q c.op c.tx s c.result → C.J (c.tx.view s)
  guarantee : ∀ s (c : Commit S K W Op A), C.J s → C.Q c.op c.tx s c.result → C.D.Guarantee c.tx s
  request : ∀ op s, Requested op → C.J s → (C.prog op).Safe C.D C.J C.X (C.Q op) Tx.start s
  requested : ∀ l c, Requested c.op → C.Ok l c
  job : ∀ job l, History C l → (body job).Safe C (Post job (C.after l)) l
  lasts : ∀ job s l l' r, Later C l l' → Post job s l r → Post job s l' r

/-- What holds between the events of a run. -/
structure Sound (C : Contract S K W E Op A) (Requested : Op → Prop)
    (Post : Job → S → List (Commit S K W Op A) → R → Prop) (σ : Jobs S K W E Op A I R Job n) : Prop where
  inv : System.Inv C.D C.J C.X C.Q C.s₀ σ.sys
  ok : ∀ p c, p ++ [c] <+: σ.sys.log → C.Ok p c
  idle : ∀ i r, σ.running i = some r → σ.sys.sessions i = none → r.flow.Safe C (Post r.job r.began) σ.sys.log
  busy : ∀ i r t, σ.running i = some r → σ.sys.sessions i = some t →
    r.flow.Waits C (Post r.job r.began) t σ.sys.log σ.sys.db
  asked : ∀ i t, σ.running i = none → σ.sys.sessions i = some t → Requested t.op
  ended : ∀ e ∈ σ.ended, Post e.job e.began σ.sys.log e.result

variable {σ σ' : Jobs S K W E Op A I R Job n}

omit [DecidableEq K] in
theorem Sound.history (h : Sound C Requested Post σ) : History C σ.sys.log ∧ C.after σ.sys.log = σ.sys.db := by
  have hdb : C.after σ.sys.log = σ.sys.db := h.inv.chain.replay_eq
  refine ⟨⟨?_, ?_, h.ok⟩, hdb⟩
  · rw [hdb]
    exact h.inv.committed
  · rw [hdb]
    exact h.inv.chain

omit [DecidableEq K] in
/-- One session has gone on, with its job. -/
theorem Sound.at (H : Setting body C Requested Post)
    (h : Sound C Requested Post σ) (i : Fin n) (hinv : System.Inv C.D C.J C.X C.Q C.s₀ σ'.sys)
    (hlater : Later C σ.sys.log σ'.sys.log)
    (hother : ∀ j, j ≠ i → σ'.running j = σ.running j ∧ σ'.sys.sessions j = σ.sys.sessions j)
    (hrely : ∀ j t, j ≠ i → σ.sys.sessions j = some t → C.D.rely t.tx.held σ.sys.db σ'.sys.db)
    (hidle : ∀ r, σ'.running i = some r → σ'.sys.sessions i = none → r.flow.Safe C (Post r.job r.began) σ'.sys.log)
    (hbusy : ∀ r t, σ'.running i = some r → σ'.sys.sessions i = some t →
      r.flow.Waits C (Post r.job r.began) t σ'.sys.log σ'.sys.db)
    (hasked : ∀ t, σ'.running i = none → σ'.sys.sessions i = some t → Requested t.op)
    (hended : ∀ e ∈ σ'.ended, e ∈ σ.ended ∨ Post e.job e.began σ'.sys.log e.result) : Sound C Requested Post σ' where
  inv := hinv
  ok := hlater.2.ok
  idle j r hr ht := by
    by_cases hj : j = i
    · subst hj
      exact hidle r hr ht
    · obtain ⟨hrunning, hsession⟩ := hother j hj
      exact (h.idle j r (hrunning ▸ hr) (hsession ▸ ht)).later hlater
  busy j r t hr ht := by
    by_cases hj : j = i
    · subst hj
      exact hbusy r t hr ht
    · obtain ⟨hrunning, hsession⟩ := hother j hj
      rw [hrunning] at hr
      rw [hsession] at ht
      exact (h.busy j r t hr ht).later hlater (hrely j t hj ht)
  asked j t hr ht := by
    by_cases hj : j = i
    · subst hj
      exact hasked t hr ht
    · obtain ⟨hrunning, hsession⟩ := hother j hj
      exact h.asked j t (hrunning ▸ hr) (hsession ▸ ht)
  ended e he := by
    rcases hended e he with he | he
    · exact H.lasts _ _ _ _ _ hlater (h.ended e he)
    · exact he

omit [Relational S K W] [DecidableEq K] in
theorem after_of_statement {r : Running S Op A I R Job} {p : Prog S K W E A} (hret : ∀ a, p ≠ .ret a)
    (hthrow : ∀ e, p ≠ .throw e) : r.after p = r := by
  cases p with
  | ret a => exact absurd rfl (hret a)
  | throw e => exact absurd rfl (hthrow e)
  | _ => rfl

/-- A statement, a rollback or the commit of session `i`. -/
theorem advance_cases {D : Discipline S K W} {J : S → Prop} {X : E → Prop} {σ σ' : System S K W E Op A n} {i : Fin n}
    {id : Nat} {t : Session S K W E Op A} (hj : J σ.db) (hs : σ.advance i id t = some σ') :
    (∀ j, j ≠ i → σ'.sessions j = σ.sessions j) ∧
      ((∃ a, t.prog = .ret a ∧ σ'.sessions i = none ∧ σ'.db = t.tx.view σ.db ∧
        σ'.log = σ.log ++ [⟨t.op, t.tx, a⟩]) ∨
      (∃ e, t.prog = .throw e ∧ σ'.sessions i = none ∧ σ'.db = σ.db ∧ σ'.log = σ.log) ∨
      ((∀ a, t.prog ≠ .ret a) ∧ (∀ e, t.prog ≠ .throw e) ∧ (∃ u, σ'.sessions i = some u ∧ u.op = t.op ∧
        ∀ P, t.prog.Safe D J X P t.tx σ.db → u.prog.Safe D J X P u.tx σ.db) ∧ σ'.db = σ.db ∧ σ'.log = σ.log)) := by
  have other : ∀ (u : Option (Session S K W E Op A)) j, j ≠ i → (σ.put i u).sessions j = σ.sessions j :=
    fun u j hj => Function.update_of_ne hj _ _
  have self : ∀ u : Option (Session S K W E Op A), (σ.put i u).sessions i = u := fun u => Function.update_self _ _ _
  unfold System.advance at hs
  cases hp : t.prog with
  | ret a =>
    simp only [hp, Option.some.injEq] at hs
    subst hs
    exact ⟨other none, .inl ⟨a, rfl, self none, rfl, rfl⟩⟩
  | throw e =>
    simp only [hp, Option.some.injEq] at hs
    subst hs
    exact ⟨other none, .inr (.inl ⟨e, rfl, self none, rfl, rfl⟩)⟩
  | select next =>
    simp only [hp, Option.some.injEq] at hs
    subst hs
    exact ⟨other _, .inr (.inr ⟨by simp, by simp, ⟨_, self _, rfl, fun P h => h _ (D.refl _ _) hj⟩, rfl, rfl⟩)⟩
  | lock k next =>
    simp only [hp] at hs
    split at hs
    · cases hs
    · simp only [Option.some.injEq] at hs
      subst hs
      exact ⟨other _, .inr (.inr ⟨by simp, by simp, ⟨_, self _, rfl, fun P h => h _ (D.refl _ _) hj⟩, rfl, rfl⟩)⟩
  | write w next =>
    simp only [hp] at hs
    split at hs
    · next hhit =>
      split at hs
      · cases hs
      · simp only [Option.some.injEq] at hs
        subst hs
        exact ⟨other _, .inr (.inr ⟨by simp, by simp, ⟨_, self _, rfl, fun P h => (h _ (D.refl _ _) hj).1 hhit⟩, rfl, rfl⟩)⟩
    · next hmiss =>
      simp only [Option.some.injEq] at hs
      subst hs
      exact ⟨other _, .inr (.inr ⟨by simp, by simp,
        ⟨_, self _, rfl, fun P h => (h _ (D.refl _ _) hj).2 (by simpa using hmiss)⟩, rfl, rfl⟩)⟩
  | fresh next =>
    simp only [hp] at hs
    split at hs
    · next hfree =>
      simp only [Bool.and_eq_true, Bool.not_eq_true', decide_eq_false_iff_not] at hfree
      simp only [Option.some.injEq] at hs
      subst hs
      exact ⟨other _, .inr (.inr ⟨by simp, by simp,
        ⟨_, self _, rfl, fun P h => h _ (D.refl _ _) hj id hfree.1.1 hfree.2⟩, rfl, rfl⟩)⟩
    · cases hs

/-- The session of a request or of a job takes its next statement. -/
theorem Sound.statement (H : Setting body C Requested Post)
    (h : Sound C Requested Post σ) {i : Fin n} {id : Nat} {t : Session S K W E Op A}
    {sys : System S K W E Op A n} (ht : σ.sys.sessions i = some t) (hs : σ.sys.advance i id t = some sys) :
    Sound C Requested Post { (σ.put i ((σ.running i).map fun r => r.after t.prog)) with sys := sys } := by
  have hK : System.Keeps C.D C.J C.Q (fun _ _ => True) n :=
    ⟨fun s c hj hq _ => H.inv s c hj hq, fun _ s c hj hq _ => H.guarantee s c hj hq⟩
  have hinv : System.Inv C.D C.J C.X C.Q C.s₀ sys := h.inv.advance hK ht hs (AtEach.of_forall fun _ _ => trivial)
  obtain ⟨hhistory, hdb⟩ := h.history
  obtain ⟨hother, hcases⟩ := advance_cases (D := C.D) (J := C.J) (X := C.X) h.inv.committed hs
  have hothers : ∀ (r : Option (Running S Op A I R Job)) j, j ≠ i →
      (σ.put i r).running j = σ.running j ∧ sys.sessions j = σ.sys.sessions j :=
    fun r j hj => ⟨Function.update_of_ne hj _ _, hother j hj⟩
  have hself : ∀ r : Option (Running S Op A I R Job), (σ.put i r).running i = r := fun r => Function.update_self _ _ _
  rcases hcases with ⟨a, hp, hsession, hdb', hlog⟩ | ⟨e, hp, hsession, hdb', hlog⟩ |
    ⟨hret, hthrow, ⟨u, hsession, hop, hgoes⟩, hdb', hlog⟩
  · -- the commit: `Ok` by the job, or because the request is an ordinary one
    have hafter : C.after sys.log = sys.db := hinv.chain.replay_eq
    have hQ : C.Q t.op t.tx (C.after σ.sys.log) a := by
      have hat := hinv.chain.atEach
      rw [hlog, atEach_snoc] at hat
      exact hat.2.2
    have hP : ∀ P, t.prog.Safe C.D C.J C.X P t.tx σ.sys.db → P t.tx (C.after σ.sys.log) a := by
      intro P hsafe
      rw [hp] at hsafe
      rw [hdb]
      exact hsafe _ (C.D.refl _ _) h.inv.committed
    have hok : C.Ok σ.sys.log ⟨t.op, t.tx, a⟩ := by
      cases hr : σ.running i with
      | none => exact H.requested _ _ (h.asked i t hr ht)
      | some r =>
        obtain ⟨next, P, -, hsafe, hrest⟩ := h.busy i r t hr ht
        exact ((hrest _ hhistory.later).2 ⟨t.op, t.tx, a⟩ rfl hQ (hP P hsafe)).1
    have hlater : Later C σ.sys.log sys.log := by
      refine ⟨hlog ▸ List.prefix_append _ _, ?_⟩
      rw [hlog] at hafter ⊢
      exact hhistory.snoc hQ (hafter ▸ hinv.committed) hok
    refine h.at H i hinv hlater (hothers _) (fun j u hj hu => ?_) (fun r hr _ => ?_) (fun r u _ hu => ?_)
      (fun u _ hu => ?_) fun e he => .inl he
    · show C.D.rely u.tx.held σ.sys.db sys.db
      rw [hdb']
      exact H.guarantee σ.sys.db ⟨t.op, t.tx, a⟩ h.inv.committed (hdb ▸ hQ) _ (h.inv.disjoint i j t u (Ne.symm hj) ht hu)
    · rw [hself, Option.map_eq_some_iff] at hr
      obtain ⟨r, hr, rfl⟩ := hr
      obtain ⟨next, P, hflow, hsafe, hrest⟩ := h.busy i r t hr ht
      show Flow.Safe C (Post (r.after t.prog).job (r.after t.prog).began) (r.after t.prog).flow sys.log
      rw [hp]
      show Flow.Safe C (Post r.job r.began) (r.flow.answered (some a)) sys.log
      rw [hflow, hlog]
      exact ((hrest _ hhistory.later).2 ⟨t.op, t.tx, a⟩ rfl hQ (hP P hsafe)).2 (hlog ▸ hlater)
    · cases hsession.symm.trans hu
    · cases hsession.symm.trans hu
  · have hlater : Later C σ.sys.log sys.log := by
      rw [hlog]
      exact hhistory.later
    refine h.at H i hinv hlater (hothers _) (fun j u _ _ => ?_) (fun r hr _ => ?_) (fun r u _ hu => ?_)
      (fun u _ hu => ?_) fun e he => .inl he
    · show C.D.rely u.tx.held σ.sys.db sys.db
      rw [hdb']
      exact C.D.refl _ _
    · rw [hself, Option.map_eq_some_iff] at hr
      obtain ⟨r, hr, rfl⟩ := hr
      obtain ⟨next, P, hflow, hsafe, hrest⟩ := h.busy i r t hr ht
      show Flow.Safe C (Post (r.after t.prog).job (r.after t.prog).began) (r.after t.prog).flow sys.log
      rw [hp]
      show Flow.Safe C (Post r.job r.began) (r.flow.answered none) sys.log
      rw [hflow]
      exact (hrest _ hlater).1
    · cases hsession.symm.trans hu
    · cases hsession.symm.trans hu
  · have hlater : Later C σ.sys.log sys.log := by
      rw [hlog]
      exact hhistory.later
    refine h.at H i hinv hlater (hothers _) (fun j v _ _ => ?_) (fun r _ hnone => ?_) (fun r v hr hv => ?_)
      (fun v hr hv => ?_) fun e he => .inl he
    · show C.D.rely v.tx.held σ.sys.db sys.db
      rw [hdb']
      exact C.D.refl _ _
    · cases hsession.symm.trans hnone
    · rw [hself, Option.map_eq_some_iff] at hr
      obtain ⟨r, hr, rfl⟩ := hr
      obtain rfl := Option.some.inj (hsession.symm.trans hv)
      rw [after_of_statement hret hthrow]
      obtain ⟨next, P, hflow, hsafe, hrest⟩ := h.busy i r t hr ht
      refine ⟨next, P, hop ▸ hflow, ?_, fun l₂ hl₂ => hop ▸ hrest l₂ (hlater.trans hl₂)⟩
      show u.prog.Safe C.D C.J C.X P u.tx sys.db
      rw [hdb']
      exact hgoes P hsafe
    · rw [hself, Option.map_eq_none_iff] at hr
      obtain rfl := Option.some.inj (hsession.symm.trans hv)
      rw [hop]
      exact h.asked i t hr ht

/-- A transaction of a request or of a job begins. -/
theorem Sound.start (H : Setting body C Requested Post)
    (h : Sound C Requested Post σ) {i : Fin n} {op : Op} {sys : System S K W E Op A n}
    (hsafe : (C.prog op).Safe C.D C.J C.X (C.Q op) Tx.start σ.sys.db) (hrequest : σ.running i = none → Requested op)
    (hcall : ∀ r, σ.running i = some r →
      r.flow.Waits C (Post r.job r.began) ⟨op, C.prog op, Tx.start⟩ σ.sys.log σ.sys.db)
    (hs : σ.sys.step C.prog (.start i op) = some sys) : Sound C Requested Post { σ with sys := sys } := by
  simp only [System.step] at hs
  split at hs
  · simp only [Option.some.injEq] at hs
    subst hs
    have hself : (σ.sys.put i (some ⟨op, C.prog op, Tx.start⟩)).sessions i = some ⟨op, C.prog op, Tx.start⟩ :=
      Function.update_self _ _ _
    have hinv := h.inv.put_some i ⟨op, C.prog op, Tx.start⟩ hsafe fun j v _ _ => by simp [Tx.start]
    have hlater : Later C σ.sys.log (σ.sys.put i (some ⟨op, C.prog op, Tx.start⟩)).log := h.history.1.later
    refine h.at H i hinv hlater (fun j hj => ⟨rfl, Function.update_of_ne hj _ _⟩) (fun j t _ _ => C.D.refl _ _)
      (fun r _ hnone => ?_) (fun r u hr hu => ?_) (fun u hr hu => ?_) fun e he => .inl he
    · cases hself.symm.trans hnone
    · rw [← Option.some.inj (hself.symm.trans hu)]
      exact hcall r hr
    · rw [← Option.some.inj (hself.symm.trans hu)]
      exact hrequest hr
  · cases hs

omit [DecidableEq K] in
/-- The job of session `i` goes on, or is over, while no transaction of it runs. -/
theorem Sound.goesOn (H : Setting body C Requested Post)
    (h : Sound C Requested Post σ) {i : Fin n} {r : Option (Running S Op A I R Job)} {ended : List (Ended S R Job)}
    (hidle : σ.sys.sessions i = none) (hsafe : ∀ r', r = some r' → r'.flow.Safe C (Post r'.job r'.began) σ.sys.log)
    (hended : ∀ e ∈ ended, e ∈ σ.ended ∨ Post e.job e.began σ.sys.log e.result) :
    Sound C Requested Post { (σ.put i r) with ended := ended } := by
  have hself : (σ.put i r).running i = r := Function.update_self _ _ _
  refine h.at H i h.inv h.history.1.later (fun j hj => ⟨Function.update_of_ne hj _ _, rfl⟩) (fun j t _ _ => C.D.refl _ _)
    (fun r' hr _ => hsafe r' (hself.symm.trans hr)) (fun r' u _ hu => ?_) (fun u _ hu => ?_) hended
  · cases hidle.symm.trans hu
  · cases hidle.symm.trans hu

omit [DecidableEq K] in
/-- A job that does not wait for a transaction has none. -/
theorem Sound.session_eq_none (h : Sound C Requested Post σ) {i : Fin n}
    {r : Running S Op A I R Job} (hr : σ.running i = some r) (hflow : ∀ op next, r.flow ≠ .call op next) :
    σ.sys.sessions i = none := by
  cases ht : σ.sys.sessions i with
  | none => rfl
  | some t =>
    obtain ⟨next, P, hnext, -⟩ := h.busy i r t hr ht
    exact absurd hnext (hflow _ _)

theorem Sound.step (H : Setting body C Requested Post)
    (h : Sound C Requested Post σ) {e : JobEvent Op I Job n} (hA : ∀ i op, e = .request i op → Requested op)
    (hs : σ.step C.prog body e = some σ') : Sound C Requested Post σ' := by
  obtain ⟨hhistory, hdb⟩ := h.history
  cases e with
  | request i op =>
    simp only [Jobs.step] at hs
    split at hs
    · next hnone =>
      obtain ⟨sys, hsys, rfl⟩ := Option.map_eq_some_iff.1 hs
      have hop := hA i op rfl
      refine h.start H (H.request op _ hop h.inv.committed) (fun _ => hop) (fun r hr => ?_) hsys
      cases hnone.symm.trans hr
    · cases hs
  | enter i job =>
    simp only [Jobs.step] at hs
    split at hs
    · next hnone hidle =>
      cases hs
      refine h.goesOn H hidle (fun r hr => ?_) fun e he => .inl he
      rw [← Option.some.inj hr, ← hdb]
      exact H.job job _ hhistory
    · cases hs
  | call i =>
    simp only [Jobs.step] at hs
    split at hs
    · next job began op next hr =>
      obtain ⟨sys, hsys, rfl⟩ := Option.map_eq_some_iff.1 hs
      have hidle : σ.sys.sessions i = none := by
        cases ht : σ.sys.sessions i with
        | none => rfl
        | some t =>
          simp only [System.step, ht] at hsys
          cases hsys
      obtain ⟨hsafe, P, hP, hrest⟩ := (h.idle i _ hr hidle) _ hhistory.later
      refine h.start H (hdb ▸ hsafe) (fun hnone => ?_) (fun r hr' => ?_) hsys
      · cases hnone.symm.trans hr
      · rw [← Option.some.inj (hr.symm.trans hr')]
        exact ⟨next, P, rfl, hdb ▸ hP, hrest⟩
    · cases hs
  | hear i x =>
    simp only [Jobs.step] at hs
    split at hs
    · next job began next hr =>
      cases hs
      have hnone := h.session_eq_none hr fun op next => by simp
      refine h.goesOn H hnone (fun r hr' => ?_) fun e he => .inl he
      rw [← Option.some.inj hr']
      exact h.idle i _ hr hnone x
    · cases hs
  | finish i =>
    simp only [Jobs.step] at hs
    split at hs
    · next job began r hr =>
      cases hs
      have hnone := h.session_eq_none hr fun op next => by simp
      refine h.goesOn H hnone (fun r hr' => by cases hr') fun e he => ?_
      rcases List.mem_append.1 he with he | he
      · exact .inl he
      · rw [List.mem_singleton.1 he]
        exact .inr (h.idle i _ hr hnone _ hhistory.later)
    · next job began hr =>
      cases hs
      exact h.goesOn H (h.session_eq_none hr fun op next => by simp) (fun r hr' => by cases hr') fun e he => .inl he
    · cases hs
  | step i id =>
    simp only [Jobs.step] at hs
    split at hs
    · cases hs
    · next t ht =>
      obtain ⟨sys, hsys, rfl⟩ := Option.map_eq_some_iff.1 hs
      exact h.statement H ht hsys
  | kill i =>
    simp only [Jobs.step, Option.some.injEq] at hs
    subst hs
    refine h.at H i (h.inv.put_none i) hhistory.later
      (fun j hj => ⟨Function.update_of_ne hj _ _, Function.update_of_ne hj _ _⟩) (fun j t _ _ => C.D.refl _ _)
      (fun r hr _ => ?_) (fun r t hr _ => ?_) (fun t _ ht => ?_) fun e he => .inl he
    · have hnone : (σ.put i none).running i = none := Function.update_self _ _ _
      cases hnone.symm.trans hr
    · have hnone : (σ.put i none).running i = none := Function.update_self _ _ _
      cases hnone.symm.trans hr
    · have hnone : (σ.sys.put i none).sessions i = none := Function.update_self _ _ _
      cases hnone.symm.trans ht

omit [DecidableEq K] in
theorem sound_init (H : Setting body C Requested Post) :
    Sound C Requested Post (init C.s₀ : Jobs S K W E Op A I R Job n) where
  inv := System.inv_init H.start
  ok p c hp := by
    have hnil := List.prefix_nil.1 hp
    exact absurd hnil (List.append_ne_nil_of_right_ne_nil p (List.cons_ne_nil c []))
  idle i r hr := by cases hr
  busy i r t hr := by cases hr
  asked i t _ ht := by cases ht
  ended e he := absurd he List.not_mem_nil

theorem Sound.exec (H : Setting body C Requested Post) {es : List (JobEvent Op I Job n)}
    (hA : Requests Requested es) (h : Sound C Requested Post σ)
    (hs : σ.exec C.prog body es = some σ') : Sound C Requested Post σ' := by
  induction es generalizing σ with
  | nil =>
    simp only [Jobs.exec, Option.some.injEq] at hs
    exact hs ▸ h
  | cons e es ih =>
    simp only [Jobs.exec, Option.bind_eq_some_iff] at hs
    obtain ⟨σ₁, h₁, h₂⟩ := hs
    have hfirst := h.step H (fun i op he => hA i op (he ▸ List.mem_cons_self)) h₁
    exact ih (fun i op hm => hA i op (List.mem_cons_of_mem _ hm)) hfirst h₂

/-- **Every run of jobs and requests**: its commits keep the contract, and what each job has ended with holds. -/
theorem exec_sound (H : Setting body C Requested Post) {es : List (JobEvent Op I Job n)}
    (hA : Requests Requested es) (hs : (init C.s₀).exec C.prog body es = some σ) :
    (History C σ.sys.log ∧ C.after σ.sys.log = σ.sys.db) ∧ ∀ e ∈ σ.ended, Post e.job e.began σ.sys.log e.result := by
  have h := (sound_init H).exec H hA hs
  exact ⟨h.history, h.ended⟩

end Jobs

end Transactions
