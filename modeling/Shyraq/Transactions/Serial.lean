import Shyraq.Transactions.Runs
import Shyraq.Transactions.Statements

/-!
# Requests that run one at a time

Alone, a request is a relation between the rows it sees, its answer and the rows it leaves: `Yields`.
It composes statement by statement, so that a serial run is a chain of commits of which each is
described by such equations (`System.exec_yields`).
-/

namespace Transactions

variable {S K W E Op A B R : Type} [Relational S K W]

namespace Prog

/-- The request may answer `b` and leave `v'` when it begins in `v` and nobody interferes. -/
def Yields : Prog S K W E A → S → A → S → Prop
  | ret a, v, b, v' => b = a ∧ v' = v
  | throw _, _, _, _ => False
  | select next, v, b, v' => Yields (next v) v b v'
  | lock _ next, v, b, v' => Yields next v b v'
  | write w next, v, b, v' =>
      (Relational.hit v w = true ∧ Yields (next true) (Relational.apply v w) b v') ∨
      (Relational.hit v w = false ∧ Yields (next false) v b v')
  | fresh next, v, b, v' => ∃ i, Relational.absent v i = true ∧ Yields (next i) v b v'

section

variable {v v' : S} {a : A} {b : B}

@[simp] theorem yields_ret {c : A} : Yields (ret c : Prog S K W E A) v a v' ↔ a = c ∧ v' = v := Iff.rfl

@[simp] theorem yields_throw {e : E} : ¬ Yields (throw e : Prog S K W E A) v a v' := id

@[simp] theorem yields_bind {p : Prog S K W E A} {f : A → Prog S K W E B} :
    Yields (bind p f) v b v' ↔ ∃ a u, Yields p v a u ∧ Yields (f a) u b v' := by
  induction p generalizing v with
  | ret a =>
    constructor
    · intro h
      exact ⟨a, v, ⟨rfl, rfl⟩, h⟩
    · rintro ⟨_, _, ⟨rfl, rfl⟩, h⟩
      exact h
  | throw e =>
    constructor
    · intro h
      exact h.elim
    · rintro ⟨_, _, h, _⟩
      exact h.elim
  | select next ih => exact ih v
  | lock k next ih => exact ih
  | write w next ih =>
    simp only [bind, Yields, ih]
    constructor
    · rintro (⟨hw, a, u, h, h'⟩ | ⟨hw, a, u, h, h'⟩)
      · exact ⟨a, u, .inl ⟨hw, h⟩, h'⟩
      · exact ⟨a, u, .inr ⟨hw, h⟩, h'⟩
    · rintro ⟨a, u, ⟨hw, h⟩ | ⟨hw, h⟩, h'⟩
      · exact .inl ⟨hw, a, u, h, h'⟩
      · exact .inr ⟨hw, a, u, h, h'⟩
  | fresh next ih =>
    simp only [bind, Yields, ih]
    constructor
    · rintro ⟨i, hi, a, u, h, h'⟩
      exact ⟨a, u, ⟨i, hi, h⟩, h'⟩
    · rintro ⟨a, u, ⟨i, hi, h⟩, h'⟩
      exact ⟨i, hi, a, u, h, h'⟩

@[simp] theorem yields_query {g : S → A} :
    Yields (query g : Prog S K W E A) v a v' ↔ a = g v ∧ v' = v := Iff.rfl

@[simp] theorem yields_acquire {k : K} {u : Unit} :
    Yields (acquire k : Prog S K W E Unit) v u v' ↔ v' = v :=
  ⟨fun h => h.2, fun h => ⟨rfl, h⟩⟩

theorem yields_update {w : W} {c : Bool} :
    Yields (update w : Prog S K W E Bool) v c v' ↔
      (Relational.hit v w = true ∧ c = true ∧ v' = Relational.apply v w) ∨
      (Relational.hit v w = false ∧ c = false ∧ v' = v) := Iff.rfl

@[simp] theorem yields_uuid {i : Nat} :
    Yields (uuid : Prog S K W E Nat) v i v' ↔ Relational.absent v i = true ∧ v' = v := by
  constructor
  · rintro ⟨j, hj, rfl, rfl⟩
    exact ⟨hj, rfl⟩
  · rintro ⟨hi, rfl⟩
    exact ⟨i, hi, rfl, rfl⟩

@[simp] theorem yields_guardOr {c : Bool} {e : E} {u : Unit} :
    Yields (guardOr c e : Prog S K W E Unit) v u v' ↔ c = true ∧ v' = v := by
  cases c with
  | false => simp [guardOr]
  | true => simp [guardOr]

@[simp] theorem yields_require {o : Option A} {e : E} :
    Yields (require o e : Prog S K W E A) v a v' ↔ o = some a ∧ v' = v := by
  cases o with
  | none => simp [require]
  | some c => simp [require, eq_comm]

@[simp] theorem yields_ofExcept {r : Except E A} :
    Yields (ofExcept r : Prog S K W E A) v a v' ↔ r = .ok a ∧ v' = v := by
  cases r with
  | error e => simp [ofExcept]
  | ok c => simp [ofExcept, eq_comm]

@[simp] theorem yields_insertOr {w : W} {e : E} {u : Unit} : Yields (insertOr w e : Prog S K W E Unit) v u v' ↔
      Relational.hit v w = true ∧ v' = Relational.apply v w := by
  simp only [insertOr, yields_bind, yields_update, yields_guardOr]
  constructor
  · rintro ⟨c, u, ⟨hw, -, rfl⟩ | ⟨-, hc, -⟩, hc', rfl⟩
    · exact ⟨hw, rfl⟩
    · rw [hc] at hc'
      cases hc'
  · rintro ⟨hw, rfl⟩
    exact ⟨true, _, .inl ⟨hw, rfl, rfl⟩, rfl, rfl⟩

theorem yields_returning {w : W} {row : S → Option R} {r : Option R} :
    Yields (returning w row : Prog S K W E (Option R)) v r v' ↔
      (Relational.hit v w = true ∧ r = row (Relational.apply v w) ∧ v' = Relational.apply v w) ∨
      (Relational.hit v w = false ∧ r = none ∧ v' = v) := by
  simp only [returning, yields_bind, yields_update]
  constructor
  · rintro ⟨c, u, ⟨hw, rfl, rfl⟩ | ⟨hw, rfl, rfl⟩, h⟩
    · exact .inl ⟨hw, h⟩
    · exact .inr ⟨hw, h⟩
  · rintro (⟨hw, h⟩ | ⟨hw, h⟩)
    · exact ⟨true, _, .inl ⟨hw, rfl, rfl⟩, h⟩
    · exact ⟨false, _, .inr ⟨hw, rfl, rfl⟩, h⟩

@[simp] theorem yields_forEach_nil {body : A → Prog S K W E Unit} {u : Unit} :
    Yields (forEach body []) v u v' ↔ v' = v :=
  ⟨fun h => h.2, fun h => ⟨rfl, h⟩⟩

@[simp] theorem yields_forEach_cons {body : A → Prog S K W E Unit} {c : A} {l : List A} {u : Unit} :
    Yields (forEach body (c :: l)) v u v' ↔
      ∃ v₁, Yields (body c) v () v₁ ∧ Yields (forEach body l) v₁ () v' := by
  simp only [forEach, yields_bind]
  constructor
  · rintro ⟨_, v₁, h, h'⟩
    exact ⟨v₁, h, h'⟩
  · rintro ⟨v₁, h, h'⟩
    exact ⟨(), v₁, h, h'⟩

/-- A loop whose steps write nothing. -/
theorem yields_collect {f : A → Prog S K W E B} {ρ : A → B → Prop} {l : List A}
    (hbody : ∀ c ∈ l, ∀ s b s', Yields (f c) s b s' → s' = s ∧ ρ c b) {bs : List B}
    (h : Yields (collect f l) v bs v') : v' = v ∧ List.Forall₂ ρ l bs := by
  induction l generalizing bs v with
  | nil =>
    obtain ⟨rfl, rfl⟩ := h
    exact ⟨rfl, .nil⟩
  | cons c l ih =>
    simp only [collect, yields_bind, yields_ret] at h
    obtain ⟨b, u, hb, bs', u', hbs, rfl, rfl⟩ := h
    obtain ⟨rfl, hρ⟩ := hbody c List.mem_cons_self _ _ _ hb
    obtain ⟨rfl, hrest⟩ := ih (fun d hd => hbody d (List.mem_cons_of_mem _ hd)) hbs
    exact ⟨rfl, .cons hρ hrest⟩

/-- What the writes `P` leave alone is as it was. -/
theorem Yields.frame {P : W → Prop} {p : Prog S K W E A} (hp : OnlyWrites P p) {α : Type} (φ : S → α)
    (hφ : ∀ s w, P w → φ (Relational.apply s w) = φ s) (h : Yields p v a v') : φ v' = φ v := by
  induction p generalizing v with
  | ret c =>
    obtain ⟨-, rfl⟩ := h
    rfl
  | throw e => exact h.elim
  | select next ih => exact ih v (hp v) h
  | lock k next ih => exact ih hp h
  | write w next ih =>
    rcases h with ⟨-, h⟩ | ⟨-, h⟩
    · exact (ih true (hp.2 true) h).trans (hφ v w hp.1)
    · exact ih false (hp.2 false) h
  | fresh next ih =>
    obtain ⟨i, -, h⟩ := h
    exact ih i (hp i) h

/-- What every write keeps. -/
theorem Yields.keeps {p : Prog S K W E A} (I : S → Prop)
    (hI : ∀ s w, Relational.hit s w = true → I s → I (Relational.apply s w)) (h : Yields p v a v') (hv : I v) :
    I v' := by
  induction p generalizing v with
  | ret c =>
    obtain ⟨-, rfl⟩ := h
    exact hv
  | throw e => exact h.elim
  | select next ih => exact ih v h hv
  | lock k next ih => exact ih h hv
  | write w next ih =>
    rcases h with ⟨hw, h⟩ | ⟨-, h⟩
    · exact ih true h (hI v w hw hv)
    · exact ih false h hv
  | fresh next ih =>
    obtain ⟨i, -, h⟩ := h
    exact ih i h hv

end

/-- Alone, a program is safe for what it yields. -/
theorem Safe.of_yields {J : S → Prop} {Q : Tx S K W → S → A → Prop} {p : Prog S K W E A} {t : Tx S K W} {s : S}
    (h : ∀ a t', Yields p (t.view s) a (t'.view s) → Q t' s a) :
    Safe Discipline.serial J (fun _ => True) Q p t s := by
  induction p generalizing t with
  | ret a =>
    rintro s' rfl -
    exact h a t ⟨rfl, rfl⟩
  | throw e => trivial
  | select next ih =>
    rintro s' rfl -
    exact ih (t.view s') (t := t.saw s') h
  | lock k next ih =>
    rintro s' rfl -
    exact ih (t := t.locked k) h
  | write w next ih =>
    rintro s' rfl -
    refine ⟨fun hw => ih true (t := t.wrote w) fun a t' ha => h a t' (.inl ⟨hw, ?_⟩), fun hw =>
      ih false (t := t) fun a t' ha => h a t' (.inr ⟨hw, ha⟩)⟩
    rw [Tx.view_wrote] at ha
    exact ha
  | fresh next ih =>
    rintro s' rfl - i hi -
    exact ih i (t := t.locked _) fun a t' ha => h a t' ⟨i, hi, ha⟩

omit [Relational S K W] in
theorem OnlyWrites.any (p : Prog S K W E A) : OnlyWrites (fun _ : W => True) p := by
  induction p with
  | ret a => trivial
  | throw e => trivial
  | select next ih => exact ih
  | lock k next ih => exact ih
  | write w next ih => exact ⟨trivial, ih⟩
  | fresh next ih => exact ih

/-- The keys that keep everything still are held to the end. -/
theorem Safe.still_of_yields {D : Discipline S K W} {J : S → Prop} {Q : Tx S K W → S → A → Prop} {p : Prog S K W E A}
    {t : Tx S K W} {s : S} (hj : J s) (hstill : ∀ s', D.rely t.held s s' → s' = s)
    (h : ∀ a t', t.held ⊆ t'.held → Yields p (t.view s) a (t'.view s) → Q t' s a) :
    Safe D J (fun _ => True) Q p t s := by
  have hy : Safe Discipline.serial J (fun _ => True)
      (fun t' s' a => s' = s ∧ Yields p (t.view s) a (t'.view s)) p t s :=
    Safe.of_yields fun a t' ha => ⟨rfl, ha⟩
  have he : Safe Discipline.serial J (fun _ => True)
      (fun t' s' _ => Tx.Extends (fun _ => True) t t' ∧ s' = s) p t s :=
    Safe.of_onlyWrites (OnlyWrites.any p) (fun _ => trivial) hj
  refine Safe.still hstill ((hy.and he).mono fun t' s' a _ hq => ?_)
  obtain ⟨⟨rfl, ha⟩, hext, -⟩ := hq
  exact h a t' hext.held ha

end Prog

/-! ## A service called by another -/

section

variable {S' K' W' E' : Type} [Relational S' K' W']

/-- The callee's statements do to its part of the caller's store what they do to its own. -/
structure Part.Lawful (π : Part S K W E S' K' W' E') : Prop where
  apply : ∀ s w, π.get (Relational.apply s (π.write w)) = Relational.apply (π.get s) w
  hit : ∀ s w, Relational.hit s (π.write w) = Relational.hit (π.get s) w
  absent : ∀ s i, Relational.absent s i = true → Relational.absent (π.get s) i = true

namespace Prog

variable {π : Part S K W E S' K' W' E'} {p : Prog S K W E A} {v v' : S'} {a : A}

theorem Yields.of_within (hπ : π.Lawful) (h : Yields (within π p) v a v') : Yields p (π.get v) a (π.get v') := by
  induction p generalizing v with
  | ret c =>
    obtain ⟨rfl, rfl⟩ := h
    exact ⟨rfl, rfl⟩
  | throw e => exact h.elim
  | select next ih => exact ih (π.get v) h
  | lock k next ih => exact ih h
  | write w next ih =>
    rcases h with ⟨hw, h⟩ | ⟨hw, h⟩
    · refine .inl ⟨(hπ.hit v w).symm.trans hw, ?_⟩
      rw [← hπ.apply]
      exact ih true h
    · exact .inr ⟨(hπ.hit v w).symm.trans hw, ih false h⟩
  | fresh next ih =>
    obtain ⟨i, hi, h⟩ := h
    exact ⟨i, hπ.absent v i hi, ih i h⟩

omit [Relational S K W] in
/-- The callee leaves the rest of the caller's store alone. -/
theorem Yields.rest {α : Type} (φ : S' → α) (hφ : ∀ s w, φ (Relational.apply s (π.write w)) = φ s)
    (h : Yields (within π p) v a v') : φ v' = φ v := by
  induction p generalizing v with
  | ret c =>
    obtain ⟨-, rfl⟩ := h
    rfl
  | throw e => exact h.elim
  | select next ih => exact ih (π.get v) h
  | lock k next ih => exact ih h
  | write w next ih =>
    rcases h with ⟨-, h⟩ | ⟨-, h⟩
    · exact (ih true h).trans (hφ v w)
    · exact ih false h
  | fresh next ih =>
    obtain ⟨i, -, h⟩ := h
    exact ih i h

omit [Relational S K W] in
/-- A callee that only reads. -/
theorem Yields.unwritten (hp : OnlyWrites (fun _ => False) p) (h : Yields (within π p) v a v') : v' = v := by
  induction p generalizing v with
  | ret c =>
    obtain ⟨-, rfl⟩ := h
    rfl
  | throw e => exact h.elim
  | select next ih => exact ih (π.get v) (hp (π.get v)) h
  | lock k next ih => exact ih hp h
  | write w next => exact hp.1.elim
  | fresh next ih =>
    obtain ⟨i, -, h⟩ := h
    exact ih i (hp i) h

end Prog

end

/-! ## Runs -/

namespace System

variable [DecidableEq K] {prog : Op → Prog S K W E A} {s : S} {σ : System S K W E Op A 1}
  {cs : List (Choice Op 1)}

/-- **A serial run is a chain of commits, each what its request yields.** -/
theorem exec_yields {Allowed : Op → Prop} (hA : Starts Allowed cs) (h : (init s).exec prog cs = some σ) :
    Chain (fun s c => Allowed c.op ∧ (prog c.op).Yields s c.result (c.tx.view s)) s σ.log σ.db := by
  have hchain := exec_chain_serial (J := fun _ => True) (X := fun _ => True)
    (Q := fun op t s a => Allowed op ∧ (prog op).Yields s a (t.view s)) (s := s) trivial
    (fun op s hop _ => Prog.Safe.of_yields fun a t' ha => ⟨hop, ha⟩) (fun _ _ _ _ _ _ => trivial) hA h
  exact hchain.mono fun _ _ hc => hc.2

end System

end Transactions
