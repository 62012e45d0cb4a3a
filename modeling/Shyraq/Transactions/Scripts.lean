import Shyraq.Transactions.Statements
import Shyraq.Transactions.Runs

/-!
# Requests that also talk to another store

A `Script` is a transaction program that sends commands to a store outside the database in between.
A command takes effect at once, and no rollback takes it back.

With the answers of the commands given, a script is a plain program (`Script.erase`), and every run of
scripts is a run of plain programs on the database: `Scripts.exec_chain`.
-/

namespace Transactions

variable {S K W E X C R Op A B : Type}

/-- A store `X` outside the database: its commands `C`, their answers `R`, and the time that passes. -/
class Outer (X : Type) (C R : outParam Type) where
  exec : X → C → X × R
  pass : X → Nat → X
  pass_zero : ∀ x, pass x 0 = x
  pass_pass : ∀ x d d', pass (pass x d) d' = pass x (d + d')

/-- A request: the statements of `Prog`, and commands. -/
inductive Script (S K W E C R A : Type) : Type
  | ret (a : A)
  | throw (e : E)
  | select (next : S → Script S K W E C R A)
  | lock (k : K) (next : Script S K W E C R A)
  | write (w : W) (next : Bool → Script S K W E C R A)
  | fresh (next : Nat → Script S K W E C R A)
  | call (c : C) (next : R → Script S K W E C R A)

namespace Script

def bind : Script S K W E C R A → (A → Script S K W E C R B) → Script S K W E C R B
  | ret a, f => f a
  | throw e, _ => throw e
  | select next, f => select fun s => bind (next s) f
  | lock k next, f => lock k (bind next f)
  | write w next, f => write w fun b => bind (next b) f
  | fresh next, f => fresh fun i => bind (next i) f
  | call c next, f => call c fun r => bind (next r) f

instance : Monad (Script S K W E C R) where
  pure := ret
  bind := bind

/-- A program without commands. -/
def lift : Prog S K W E A → Script S K W E C R A
  | .ret a => ret a
  | .throw e => throw e
  | .select next => select fun s => lift (next s)
  | .lock k next => lock k (lift next)
  | .write w next => write w fun b => lift (next b)
  | .fresh next => fresh fun i => lift (next i)

/-- One command and its answer. -/
def send (c : C) : Script S K W E C R R := call c ret

instance : MonadLift (Prog S K W E) (Script S K W E C R) := ⟨lift⟩

@[simp] theorem pure_eq (a : A) : (pure a : Script S K W E C R A) = ret a := rfl
@[simp] theorem bind_eq (p : Script S K W E C R A) (f : A → Script S K W E C R B) : p >>= f = bind p f := rfl
@[simp] theorem lift_eq (p : Prog S K W E A) : (liftM p : Script S K W E C R A) = lift p := rfl

theorem bind_assoc {D : Type} (p : Script S K W E C R A) (f : A → Script S K W E C R B)
    (g : B → Script S K W E C R D) : bind (bind p f) g = bind p fun a => bind (f a) g := by
  induction p with
  | ret a => rfl
  | throw e => rfl
  | select next ih => simp only [bind, ih]
  | lock k next ih => simp only [bind, ih]
  | write w next ih => simp only [bind, ih]
  | fresh next ih => simp only [bind, ih]
  | call c next ih => simp only [bind, ih]

/-- The program that is left once the answers are known: `o k` answers the `k`-th command. -/
def erase : Script S K W E C R A → (Nat → R) → Prog S K W E A
  | ret a, _ => .ret a
  | throw e, _ => .throw e
  | select next, o => .select fun s => erase (next s) o
  | lock k next, o => .lock k (erase next o)
  | write w next, o => .write w fun b => erase (next b) o
  | fresh next, o => .fresh fun i => erase (next i) o
  | call _ next, o => erase (next (o 0)) fun k => o (k + 1)

theorem erase_lift (p : Prog S K W E A) (o : Nat → R) : erase (lift p : Script S K W E C R A) o = p := by
  induction p with
  | ret a => rfl
  | throw e => rfl
  | select next ih => simp only [lift, erase, ih]
  | lock k next ih => simp only [lift, erase, ih]
  | write w next ih => simp only [lift, erase, ih]
  | fresh next ih => simp only [lift, erase, ih]

theorem erase_lift_bind (p : Prog S K W E A) (f : A → Script S K W E C R B) (o : Nat → R) :
    erase (bind (lift p) f) o = Prog.bind p fun a => erase (f a) o := by
  induction p with
  | ret a => rfl
  | throw e => rfl
  | select next ih => simp only [lift, bind, erase, Prog.bind, ih]
  | lock k next ih => simp only [lift, bind, erase, Prog.bind, ih]
  | write w next ih => simp only [lift, bind, erase, Prog.bind, ih]
  | fresh next ih => simp only [lift, bind, erase, Prog.bind, ih]

end Script

/-! ## Systems -/

/-- A session in the middle of a request, and the commands it has sent. -/
structure Scripted (S K W E C R Op A : Type) where
  op : Op
  prog : Script S K W E C R A
  tx : Tx S K W
  calls : List (C × R)

/-- The committed database, the outer store, and what has happened to both. -/
structure Scripts (S K W E X C R Op A : Type) (n : Nat) where
  db : S
  outer : X
  log : List (Commit S K W Op A)
  /-- The commands of all requests, with their answers. -/
  trace : List (Op × C × R)
  sessions : Fin n → Option (Scripted S K W E C R Op A)

/-- `pass d`: the time goes on by `d`.  The other events are those of `Choice`. -/
inductive Event (Op : Type) (n : Nat) : Type
  | start (i : Fin n) (op : Op)
  | step (i : Fin n) (id : Nat)
  | kill (i : Fin n)
  | pass (d : Nat)

namespace Scripts

variable {n : Nat} [DecidableEq K]

def init (s : S) (x : X) : Scripts S K W E X C R Op A n := ⟨s, x, [], [], fun _ => none⟩

/-- Another session holds the key. -/
def blocked (σ : Scripts S K W E X C R Op A n) (i : Fin n) (k : K) : Bool :=
  (List.finRange n).any fun j =>
    j != i && ((σ.sessions j).map fun t => decide (k ∈ t.tx.held)).getD false

def put (σ : Scripts S K W E X C R Op A n) (i : Fin n) (t : Option (Scripted S K W E C R Op A)) :
    Scripts S K W E X C R Op A n :=
  { σ with sessions := Function.update σ.sessions i t }

variable [Relational S K W] [Outer X C R]

/-- The next statement or command of session `i`; `none` when it has to wait. -/
def advance (σ : Scripts S K W E X C R Op A n) (i : Fin n) (id : Nat) (t : Scripted S K W E C R Op A) :
    Option (Scripts S K W E X C R Op A n) :=
  match t.prog with
  | .ret a => some { (σ.put i none) with
      db := t.tx.view σ.db, log := σ.log ++ [⟨t.op, t.tx, a⟩] }
  | .throw _ => some (σ.put i none)
  | .select next => some (σ.put i (some ⟨t.op, next (t.tx.view σ.db), t.tx.saw σ.db, t.calls⟩))
  | .lock k next =>
      if σ.blocked i k then none else some (σ.put i (some ⟨t.op, next, t.tx.locked k, t.calls⟩))
  | .write w next =>
      if Relational.hit (t.tx.view σ.db) w then
        if (Relational.keys S w).any (σ.blocked i) then none
        else some (σ.put i (some ⟨t.op, next true, t.tx.wrote w, t.calls⟩))
      else some (σ.put i (some ⟨t.op, next false, t.tx, t.calls⟩))
  | .fresh next =>
      let k : K := Relational.rowKey S id
      if Relational.absent (t.tx.view σ.db) id && !σ.blocked i k && !decide (k ∈ t.tx.held) then
        some (σ.put i (some ⟨t.op, next id, t.tx.locked k, t.calls⟩))
      else none
  | .call c next =>
      let r := (Outer.exec σ.outer c).2
      some { (σ.put i (some ⟨t.op, next r, t.tx, t.calls ++ [(c, r)]⟩)) with
        outer := (Outer.exec σ.outer c).1, trace := σ.trace ++ [(t.op, c, r)] }

def step (prog : Op → Script S K W E C R A) (σ : Scripts S K W E X C R Op A n) :
    Event Op n → Option (Scripts S K W E X C R Op A n)
  | .start i op =>
      match σ.sessions i with
      | none => some (σ.put i (some ⟨op, prog op, Tx.start, []⟩))
      | some _ => none
  | .step i id =>
      match σ.sessions i with
      | none => none
      | some t => σ.advance i id t
  | .kill i => some (σ.put i none)
  | .pass d => some { σ with outer := Outer.pass σ.outer d }

/-- Plays a schedule; `none` when it asks for an event that cannot happen. -/
def exec (prog : Op → Script S K W E C R A) (σ : Scripts S K W E X C R Op A n) :
    List (Event Op n) → Option (Scripts S K W E X C R Op A n)
  | [] => some σ
  | c :: cs => (σ.step prog c).bind fun σ' => exec prog σ' cs

/-- The requests of the schedule are all of this kind. -/
def Starts (Allowed : Op → Prop) (cs : List (Event Op n)) : Prop :=
  ∀ i op, Event.start i op ∈ cs → Allowed op

/-- Each event of the schedule meets the condition, in the state it happens in. -/
def Meets (prog : Op → Script S K W E C R A) (G : Scripts S K W E X C R Op A n → Event Op n → Prop) :
    Scripts S K W E X C R Op A n → List (Event Op n) → Prop
  | _, [] => True
  | σ, c :: cs => G σ c ∧ ∀ σ', σ.step prog c = some σ' → Meets prog G σ' cs

instance Meets.decidable {prog : Op → Script S K W E C R A}
    {G : Scripts S K W E X C R Op A n → Event Op n → Prop} [∀ σ c, Decidable (G σ c)] :
    ∀ (σ : Scripts S K W E X C R Op A n) (cs : List (Event Op n)), Decidable (Meets prog G σ cs)
  | _, [] => .isTrue trivial
  | σ, c :: cs =>
      match h : σ.step prog c with
      | none => decidable_of_iff (G σ c) ⟨fun hc => ⟨hc, fun σ' h' => by rw [h] at h'; cases h'⟩, fun hc => hc.1⟩
      | some σ₁ =>
          haveI : Decidable (Meets prog G σ₁ cs) := Meets.decidable σ₁ cs
          decidable_of_iff (G σ c ∧ Meets prog G σ₁ cs)
            ⟨fun hc => ⟨hc.1, fun σ' h' => Option.some.inj (h.symm.trans h') ▸ hc.2⟩, fun hc => ⟨hc.1, hc.2 σ₁ h⟩⟩

/-! ## Scripts as plain programs -/

/-- The plain program of a request and the answers it will get. -/
def plain (prog : Op → Script S K W E C R A) (r : Op × (Nat → R)) : Prog S K W E A := (prog r.1).erase r.2

/-- The plain system at the same point; `o i` is what session `i` has yet to be answered. -/
structure Mirrors (o : Fin n → Nat → R) (σ : Scripts S K W E X C R Op A n)
    (τ : System S K W E (Op × (Nat → R)) A n) : Prop where
  db : τ.db = σ.db
  log : τ.log.map (fun c => (⟨c.op.1, c.tx, c.result⟩ : Commit S K W Op A)) = σ.log
  session : ∀ i, (τ.sessions i).map (fun u => (u.op.1, u.prog, u.tx)) =
    (σ.sessions i).map fun u => (u.op, u.prog.erase (o i), u.tx)

section

variable {prog : Op → Script S K W E C R A} {σ σ' : Scripts S K W E X C R Op A n}
  {τ τ' : System S K W E (Op × (Nat → R)) A n} {o : Fin n → Nat → R} {i : Fin n} {s : S}

omit [Relational S K W] [Outer X C R] in
theorem Mirrors.blocked_eq (h : Mirrors o σ τ) (i : Fin n) (k : K) : τ.blocked i k = σ.blocked i k := by
  unfold System.blocked Scripts.blocked
  congr 1
  funext j
  have hj := h.session j
  cases hτ : τ.sessions j <;> cases hσ : σ.sessions j <;> rw [hτ, hσ] at hj
  · rfl
  · cases hj
  · cases hj
  · simp only [Option.map_some, Option.some.injEq, Prod.mk.injEq] at hj
    simp only [Option.map_some, hj.2.2]

omit [DecidableEq K] [Relational S K W] [Outer X C R] in
/-- Session `i` goes on on both sides. -/
theorem Mirrors.put (h : Mirrors o σ τ) {u : Option (Session S K W E (Op × (Nat → R)) A)}
    {v : Option (Scripted S K W E C R Op A)}
    (huv : u.map (fun u => (u.op.1, u.prog, u.tx)) = v.map fun v => (v.op, v.prog.erase (o i), v.tx)) :
    Mirrors o (σ.put i v) (τ.put i u) where
  db := h.db
  log := h.log
  session j := by
    by_cases hj : j = i
    · subst hj
      simp only [System.put, Scripts.put, Function.update_self]
      exact huv
    · simp only [System.put, Scripts.put, Function.update_of_ne hj]
      exact h.session j

/-- A plain run that leads there. -/
def Reached (prog : Op → Script S K W E C R A) (Allowed : Op → Prop) (s : S)
    (τ : System S K W E (Op × (Nat → R)) A n) : Prop :=
  ∃ cs, System.Starts (fun r : Op × (Nat → R) => Allowed r.1) cs ∧
    (System.init s).exec (plain prog) cs = some τ

variable {Allowed : Op → Prop}

omit [Outer X C R] in
theorem Reached.snoc (h : Reached prog Allowed s τ) {c : Choice (Op × (Nat → R)) n}
    (hA : ∀ i r, c = .start i r → Allowed r.1) (hs : τ.step (plain prog) c = some τ') :
    Reached prog Allowed s τ' := by
  obtain ⟨cs, hstarts, hrun⟩ := h
  refine ⟨cs ++ [c], fun i r hm => ?_, ?_⟩
  · rcases List.mem_append.1 hm with hm | hm
    · exact hstarts i r hm
    · exact hA i r (List.mem_singleton.1 hm).symm
  · rw [System.exec_append, hrun]
    simp only [Option.bind_some, System.exec, hs]

omit [DecidableEq K] [Relational S K W] [Outer X C R] in
theorem Mirrors.session_some (h : Mirrors o σ τ) {u : Scripted S K W E C R Op A} (hu : σ.sessions i = some u) :
    ∃ r, τ.sessions i = some ⟨r, u.prog.erase (o i), u.tx⟩ ∧ r.1 = u.op := by
  have hi := h.session i
  rw [hu] at hi
  cases hτ : τ.sessions i with
  | none =>
    rw [hτ] at hi
    cases hi
  | some v =>
    obtain ⟨r, p, t⟩ := v
    rw [hτ] at hi
    simp only [Option.map_some, Option.some.injEq, Prod.mk.injEq] at hi
    obtain ⟨hop, rfl, rfl⟩ := hi
    exact ⟨r, rfl, hop⟩

omit [DecidableEq K] [Relational S K W] [Outer X C R] in
theorem Mirrors.session_none (h : Mirrors o σ τ) (hu : σ.sessions i = none) : τ.sessions i = none := by
  have hi := h.session i
  rw [hu] at hi
  cases hτ : τ.sessions i with
  | none => rfl
  | some v =>
    rw [hτ] at hi
    cases hi

/-- Whatever is still to be answered, the plain system can be where the scripts are. -/
def Mirrored (prog : Op → Script S K W E C R A) (Allowed : Op → Prop) (s : S)
    (σ : Scripts S K W E X C R Op A n) : Prop :=
  ∀ o, ∃ τ, Reached prog Allowed s τ ∧ Mirrors o σ τ

omit [Outer X C R] in
/-- A statement is the same on both sides. -/
theorem Mirrored.statement (h : Mirrored prog Allowed s σ) {u : Scripted S K W E C R Op A}
    (hu : σ.sessions i = some u) (id : Nat)
    (hstep : ∀ o τ r, Mirrors o σ τ → r.1 = u.op → τ.sessions i = some ⟨r, u.prog.erase (o i), u.tx⟩ →
      ∃ τ', τ.advance i id ⟨r, u.prog.erase (o i), u.tx⟩ = some τ' ∧ Mirrors o σ' τ') :
    Mirrored prog Allowed s σ' := by
  intro o
  obtain ⟨τ, hreach, hm⟩ := h o
  obtain ⟨r, hr, hop⟩ := hm.session_some hu
  obtain ⟨τ', hadvance, hm'⟩ := hstep o τ r hm hop hr
  refine ⟨τ', hreach.snoc (c := .step i id) (fun _ _ hc => by cases hc) ?_, hm'⟩
  simp only [System.step, hr]
  exact hadvance

theorem Mirrored.advance (h : Mirrored prog Allowed s σ) {u : Scripted S K W E C R Op A} {id : Nat}
    (hu : σ.sessions i = some u) (hs : σ.advance i id u = some σ') : Mirrored prog Allowed s σ' := by
  unfold Scripts.advance at hs
  cases hp : u.prog with
  | ret a =>
    simp only [hp, Option.some.injEq] at hs
    subst hs
    refine h.statement hu id fun o τ r hm hop hr => ?_
    simp only [hp, Script.erase, System.advance]
    refine ⟨_, rfl, ?_⟩
    have hput := hm.put (i := i) (u := none) (v := none) rfl
    refine ⟨?_, ?_, hput.session⟩
    · simp only [hm.db]
    · simp only [List.map_append, hm.log, List.map_cons, List.map_nil, hop]
  | throw e =>
    simp only [hp, Option.some.injEq] at hs
    subst hs
    refine h.statement hu id fun o τ r hm hop hr => ?_
    simp only [hp, Script.erase, System.advance]
    exact ⟨_, rfl, hm.put rfl⟩
  | select next =>
    simp only [hp, Option.some.injEq] at hs
    subst hs
    refine h.statement hu id fun o τ r hm hop hr => ?_
    simp only [hp, Script.erase, System.advance]
    refine ⟨_, rfl, hm.put ?_⟩
    simp only [Option.map_some, hop, hm.db]
  | lock k next =>
    simp only [hp] at hs
    split at hs
    · cases hs
    · next hb =>
      simp only [Option.some.injEq] at hs
      subst hs
      refine h.statement hu id fun o τ r hm hop hr => ?_
      simp only [hp, Script.erase, System.advance, hm.blocked_eq, if_neg hb]
      refine ⟨_, rfl, hm.put ?_⟩
      simp only [Option.map_some, hop]
  | write w next =>
    simp only [hp] at hs
    split at hs
    · next hh =>
      split at hs
      · cases hs
      · next hb =>
        simp only [Option.some.injEq] at hs
        subst hs
        refine h.statement hu id fun o τ r hm hop hr => ?_
        have hblocked : τ.blocked i = σ.blocked i := funext fun k => hm.blocked_eq i k
        simp only [hp, Script.erase, System.advance, hm.db, if_pos hh, hblocked, if_neg hb]
        refine ⟨_, rfl, hm.put ?_⟩
        simp only [Option.map_some, hop]
    · next hh =>
      simp only [Option.some.injEq] at hs
      subst hs
      refine h.statement hu id fun o τ r hm hop hr => ?_
      simp only [hp, Script.erase, System.advance, hm.db, if_neg hh]
      refine ⟨_, rfl, hm.put ?_⟩
      simp only [Option.map_some, hop]
  | fresh next =>
    simp only [hp] at hs
    split at hs
    · next hc =>
      simp only [Option.some.injEq] at hs
      subst hs
      refine h.statement hu id fun o τ r hm hop hr => ?_
      simp only [hp, Script.erase, System.advance, hm.db, hm.blocked_eq, if_pos hc]
      refine ⟨_, rfl, hm.put ?_⟩
      simp only [Option.map_some, hop]
    · cases hs
  | call c next =>
    simp only [hp, Option.some.injEq] at hs
    subst hs
    -- the answer is put before those that session `i` has yet to get
    intro o
    obtain ⟨τ, hreach, hm⟩ := h (Function.update o i fun k => Nat.casesOn k (Outer.exec σ.outer c).2 (o i))
    refine ⟨τ, hreach, hm.db, hm.log, fun j => ?_⟩
    have hj := hm.session j
    by_cases hji : j = i
    · subst hji
      rw [hj, hu]
      simp only [put, Function.update_self, Option.map_some, hp, Script.erase]
      rfl
    · simp only [put, Function.update_of_ne hji] at hj ⊢
      exact hj

theorem Mirrored.step (h : Mirrored prog Allowed s σ) {c : Event Op n} (hA : ∀ i op, c = .start i op → Allowed op)
    (hs : σ.step prog c = some σ') : Mirrored prog Allowed s σ' := by
  cases c with
  | start i op =>
    simp only [Scripts.step] at hs
    split at hs
    · next hnone =>
      cases hs
      intro o
      obtain ⟨τ, hreach, hm⟩ := h o
      refine ⟨τ.put i (some ⟨(op, o i), plain prog (op, o i), Tx.start⟩),
        hreach.snoc (c := .start i (op, o i)) (fun j r hc => ?_) ?_, hm.put rfl⟩
      · cases hc
        exact hA i op rfl
      · simp only [System.step, hm.session_none hnone]
    · cases hs
  | step i id =>
    simp only [Scripts.step] at hs
    split at hs
    · cases hs
    · next u hu => exact h.advance hu hs
  | kill i =>
    cases hs
    intro o
    obtain ⟨τ, hreach, hm⟩ := h o
    exact ⟨τ.put i none, hreach.snoc (c := .kill i) (fun _ _ hc => by cases hc) rfl, hm.put rfl⟩
  | pass d =>
    cases hs
    intro o
    obtain ⟨τ, hreach, hm⟩ := h o
    exact ⟨τ, hreach, hm.db, hm.log, hm.session⟩

theorem Mirrored.exec (h : Mirrored prog Allowed s σ) {cs : List (Event Op n)} (hA : Starts Allowed cs)
    (hs : σ.exec prog cs = some σ') : Mirrored prog Allowed s σ' := by
  induction cs generalizing σ with
  | nil =>
    cases hs
    exact h
  | cons c cs ih =>
    simp only [Scripts.exec, Option.bind_eq_some_iff] at hs
    obtain ⟨σ₁, h₁, h₂⟩ := hs
    have hc : ∀ i op, c = .start i op → Allowed op := fun i op he => hA i op (he ▸ List.mem_cons_self)
    exact ih (h.step hc h₁) (fun i op hm => hA i op (List.mem_cons_of_mem _ hm)) h₂

omit [Outer X C R] in
theorem mirrored_init (x : X) : Mirrored prog Allowed s (init s x : Scripts S K W E X C R Op A n) := by
  intro o
  exact ⟨System.init s, ⟨[], fun _ _ h => absurd h List.not_mem_nil, rfl⟩, rfl, rfl, fun _ => rfl⟩

end

end Scripts

/-! ## Rely–guarantee reasoning -/

section

variable [Relational S K W] {D : Discipline S K W} {J : S → Prop} {E' : E → Prop}

/-- Safe whatever the commands are answered. -/
def Script.Safe (D : Discipline S K W) (J : S → Prop) (E' : E → Prop) (Q : Tx S K W → S → A → Prop)
    (p : Script S K W E C R A) (t : Tx S K W) (s : S) : Prop :=
  ∀ o, Prog.Safe D J E' Q (p.erase o) t s

namespace Script

variable {Q : Tx S K W → S → B → Prop} {t : Tx S K W} {s : S}

theorem Safe.lift {p : Prog S K W E A} {f : A → Script S K W E C R B}
    (h : ∀ o, Prog.Safe D J E' Q (Prog.bind p fun a => (f a).erase o) t s) :
    Script.Safe D J E' Q (Script.bind (Script.lift p) f) t s := by
  intro o
  rw [erase_lift_bind]
  exact h o

/-- A request that sends no command. -/
theorem Safe.of_prog {p : Prog S K W E B} (h : Prog.Safe D J E' Q p t s) :
    Script.Safe D J E' Q (Script.lift p : Script S K W E C R B) t s := by
  intro o
  rw [erase_lift]
  exact h

theorem Safe.send {c : C} {f : R → Script S K W E C R B} (h : ∀ r, Script.Safe D J E' Q (f r) t s) :
    Script.Safe D J E' Q (Script.bind (Script.send c) f) t s := fun o => h (o 0) fun k => o (k + 1)

theorem Safe.ret {b : B} (h : ∀ s', D.rely t.held s s' → J s' → Q t s' b) :
    Script.Safe D J E' Q (.ret b : Script S K W E C R B) t s := fun _ => h

theorem Safe.withKeys {p : Script S K W E C R B} (h : Script.Safe D J E' Q p Tx.start s) (hX : ∀ e, E' e) :
    Script.Safe D J E' (fun t s a => Q t s a ∧ ∀ w ∈ t.writes, Relational.keys S w ⊆ t.held) p Tx.start s :=
  fun o => (h o).withKeys hX

theorem Safe.guardOr {c : Bool} {e : E} {f : Unit → Script S K W E C R B} (hX : ∀ e, E' e)
    (h : c = true → Script.Safe D J E' Q (f ()) t s) :
    Script.Safe D J E' Q (Script.bind (Script.lift (Prog.guardOr c e)) f) t s :=
  Safe.lift fun o => Prog.Safe.guardOr hX fun hc => h hc o

theorem Safe.require {a : Option A} {e : E} {f : A → Script S K W E C R B} (hX : ∀ e, E' e)
    (h : ∀ b, a = some b → Script.Safe D J E' Q (f b) t s) :
    Script.Safe D J E' Q (Script.bind (Script.lift (Prog.require a e)) f) t s :=
  Safe.lift fun o => Prog.Safe.require hX fun b hb => h b hb o

theorem Safe.ofExcept {r : Except E A} {f : A → Script S K W E C R B} (hX : ∀ e, E' e)
    (h : ∀ a, r = .ok a → Script.Safe D J E' Q (f a) t s) :
    Script.Safe D J E' Q (Script.bind (Script.lift (Prog.ofExcept r)) f) t s :=
  Safe.lift fun o => Prog.Safe.ofExcept hX fun a ha => h a ha o

theorem Safe.update {w : W} {f : Bool → Script S K W E C R B}
    (hit : ∀ s', D.rely t.held s s' → J s' → Relational.hit (t.view s') w = true →
      Script.Safe D J E' Q (f true) (t.wrote w) s')
    (miss : ∀ s', D.rely t.held s s' → J s' → Relational.hit (t.view s') w = false →
      Script.Safe D J E' Q (f false) t s') :
    Script.Safe D J E' Q (Script.bind (Script.lift (Prog.update w)) f) t s :=
  Safe.lift fun o => Prog.Safe.update (fun s' hr hj hh => hit s' hr hj hh o) fun s' hr hj hh => miss s' hr hj hh o

end Script

theorem Chain.map {Op' A' : Type} {P : S → Commit S K W Op A → Prop} {P' : S → Commit S K W Op' A' → Prop}
    {f : Commit S K W Op A → Commit S K W Op' A'} (htx : ∀ c, (f c).tx = c.tx) (h : ∀ s c, P s c → P' s (f c))
    {s₀ s : S} {log : List (Commit S K W Op A)} (hc : Chain P s₀ log s) : Chain P' s₀ (log.map f) s := by
  induction hc with
  | nil => exact .nil
  | @snoc log s c _ hr ih =>
    rw [List.map_append, ← htx c]
    exact .snoc ih (h s c hr)

variable {n : Nat} [DecidableEq K] [Outer X C R] {prog : Op → Script S K W E C R A} {Q : Op → Tx S K W → S → A → Prop}

/-- **The commits of scripts form a chain**, as those of plain programs do. -/
theorem Scripts.exec_chain {s : S} {x : X} {σ : Scripts S K W E X C R Op A n} (hj : J s) {Allowed : Op → Prop}
    (hP : ∀ op s, Allowed op → J s → (prog op).Safe D J E' (Q op) Tx.start s)
    (hJ : ∀ op t s a, J s → Q op t s a → J (t.view s)) (hG : ∀ op t s a, J s → Q op t s a → D.Guarantee t s)
    {cs : List (Event Op n)} (hA : Starts Allowed cs) (hs : (init s x).exec prog cs = some σ)
    (hR : Nonempty R) : Chain (fun s c => J s ∧ Q c.op c.tx s c.result) s σ.log σ.db := by
  obtain ⟨r⟩ := hR
  obtain ⟨τ, ⟨cs', hstarts, hrun⟩, hm⟩ := (mirrored_init x).exec hA hs fun _ _ => r
  have hchain := System.exec_chain (X := E') (Q := fun op : Op × (Nat → R) => Q op.1) hj
    (fun op s ha hj => hP op.1 s ha hj op.2) (fun op => hJ op.1) (fun op => hG op.1) hstarts hrun
  rw [← hm.log, ← hm.db]
  exact hchain.map (f := fun c : Commit S K W (Op × (Nat → R)) A => (⟨c.op.1, c.tx, c.result⟩ : Commit S K W Op A)) (fun _ => rfl) fun _ _ h => h

end

/-! ## Schedules -/

/-- `k` steps of session `i`; `id` answers those that draw one. -/
def Event.steps {n : Nat} (i : Fin n) (k id : Nat) : List (Event Op n) := List.replicate k (.step i id)

/-- A request from its start, `k` steps long. -/
def Event.request {n : Nat} (i : Fin n) (op : Op) (k id : Nat) : List (Event Op n) := .start i op :: Event.steps i k id

/-- A schedule starts only such requests when each of its events does. -/
def Event.Begins {n : Nat} (Allowed : Op → Prop) : Event Op n → Prop
  | .start _ op => Allowed op
  | _ => True

instance {n : Nat} {Allowed : Op → Prop} [DecidablePred Allowed] (c : Event Op n) : Decidable (c.Begins Allowed) := by
  cases c <;> unfold Event.Begins <;> infer_instance

instance {n : Nat} {Allowed : Op → Prop} [DecidablePred Allowed] (cs : List (Event Op n)) :
    Decidable (Scripts.Starts Allowed cs) :=
  decidable_of_iff (∀ c ∈ cs, c.Begins Allowed) <| by
    constructor
    · exact fun h i op hm => h _ hm
    · intro h c hm
      cases c with
      | start i op => exact h i op hm
      | step i id => trivial
      | kill i => trivial
      | pass d => trivial

end Transactions
