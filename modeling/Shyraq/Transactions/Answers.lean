import Shyraq.Transactions.Statements

/-!
# Programs that only read

Such a program is determined by the stores that its SELECTs are answered from, one after the other.
-/

namespace Transactions

namespace Prog

variable {S K W E A B : Type}

def OnlyReads : Prog S K W E A → Prop
  | ret _ => True
  | throw _ => True
  | select next => ∀ s, OnlyReads (next s)
  | lock _ _ => False
  | write _ _ => False
  | fresh _ => False

/-- How the program ends if its SELECTs are answered from `vs`; `none` if it makes more of them, or fewer. -/
def answered : Prog S K W E A → List S → Option (Except E A)
  | ret a, [] => some (.ok a)
  | throw e, [] => some (.error e)
  | select next, v :: vs => answered (next v) vs
  | _, _ => none

section

variable {p : Prog S K W E A} {f : A → Prog S K W E B} {handler : E → Prog S K W E A} {vs : List S}

theorem OnlyReads.bind (h : OnlyReads p) (hf : ∀ a, OnlyReads (f a)) : OnlyReads (Prog.bind p f) := by
  induction p with
  | ret a => exact hf a
  | throw e => trivial
  | select next ih => exact fun s => ih s (h s)
  | lock k next ih => exact h.elim
  | write w next ih => exact h.elim
  | fresh next ih => exact h.elim

theorem OnlyReads.tryCatch (h : OnlyReads p) (hh : ∀ e, OnlyReads (handler e)) :
    OnlyReads (Prog.tryCatch handler p) := by
  induction p with
  | ret a => trivial
  | throw e => exact hh e
  | select next ih => exact fun s => ih s (h s)
  | lock k next ih => exact h.elim
  | write w next ih => exact h.elim
  | fresh next ih => exact h.elim

theorem OnlyReads.query (g : S → A) : OnlyReads (Prog.query g : Prog S K W E A) := fun _ => trivial

theorem OnlyReads.ofExcept (r : Except E A) : OnlyReads (Prog.ofExcept r : Prog S K W E A) := by
  cases r <;> trivial

/-- It has nothing to write. -/
theorem OnlyReads.onlyWrites {P : W → Prop} (h : OnlyReads p) : OnlyWrites P p := by
  induction p with
  | ret a => trivial
  | throw e => trivial
  | select next ih => exact fun s => ih s (h s)
  | lock k next ih => exact h.elim
  | write w next ih => exact h.elim
  | fresh next ih => exact h.elim

/-- The first part reads a prefix of the stores, the rest goes on from there. -/
theorem answered_bind {b : B} (h : (Prog.bind p f).answered vs = some (.ok b)) :
    ∃ a vs₁ vs₂, vs = vs₁ ++ vs₂ ∧ p.answered vs₁ = some (.ok a) ∧ (f a).answered vs₂ = some (.ok b) := by
  induction p generalizing vs with
  | ret a => exact ⟨a, [], vs, rfl, rfl, h⟩
  | throw e => cases vs <;> cases h
  | select next ih =>
    cases vs with
    | nil => cases h
    | cons v vs =>
      obtain ⟨a, vs₁, vs₂, rfl, h₁, h₂⟩ := ih v h
      exact ⟨a, v :: vs₁, vs₂, rfl, h₁, h₂⟩
  | lock k next ih => cases vs <;> cases h
  | write w next ih => cases vs <;> cases h
  | fresh next ih => cases vs <;> cases h

theorem answered_bind_of {a : A} {r : Except E B} {vs₁ vs₂ : List S} (h₁ : p.answered vs₁ = some (.ok a))
    (h₂ : (f a).answered vs₂ = some r) : (Prog.bind p f).answered (vs₁ ++ vs₂) = some r := by
  induction p generalizing vs₁ with
  | ret a' =>
    cases vs₁ with
    | nil =>
      obtain rfl := Except.ok.inj (Option.some.inj h₁)
      exact h₂
    | cons v vs₁ => cases h₁
  | throw e => cases vs₁ <;> cases h₁
  | select next ih =>
    cases vs₁ with
    | nil => cases h₁
    | cons v vs₁ => exact ih v h₁
  | lock k next ih => cases vs₁ <;> cases h₁
  | write w next ih => cases vs₁ <;> cases h₁
  | fresh next ih => cases vs₁ <;> cases h₁

/-- Where nothing is thrown the handler is not asked. -/
theorem answered_tryCatch_of {a : A} (h : p.answered vs = some (.ok a)) :
    (Prog.tryCatch handler p).answered vs = some (.ok a) := by
  induction p generalizing vs with
  | ret b => exact h
  | throw e => cases vs <;> cases h
  | select next ih =>
    cases vs with
    | nil => cases h
    | cons v vs => exact ih v h
  | lock k next ih => cases vs <;> cases h
  | write w next ih => cases vs <;> cases h
  | fresh next ih => cases vs <;> cases h

/-- An answer is the program's own, or what the handler makes of an error. -/
theorem answered_tryCatch {a : A} (h : (Prog.tryCatch handler p).answered vs = some (.ok a)) :
    p.answered vs = some (.ok a) ∨ ∃ e vs₂, (handler e).answered vs₂ = some (.ok a) := by
  induction p generalizing vs with
  | ret b => exact .inl h
  | throw e => exact .inr ⟨e, vs, h⟩
  | select next ih =>
    cases vs with
    | nil => cases h
    | cons v vs => exact ih v h
  | lock k next ih => cases vs <;> cases h
  | write w next ih => cases vs <;> cases h
  | fresh next ih => cases vs <;> cases h

theorem answered_ret {a b : A} (h : (Prog.ret a : Prog S K W E A).answered vs = some (.ok b)) : a = b ∧ vs = [] := by
  cases vs with
  | nil => exact ⟨Except.ok.inj (Option.some.inj h), rfl⟩
  | cons v vs => cases h

/-- Domain code in front reads nothing. -/
theorem answered_ofExcept {r : Except E A} {b : B} (h : (Prog.bind (Prog.ofExcept r) f).answered vs = some (.ok b)) :
    ∃ a, r = .ok a ∧ (f a).answered vs = some (.ok b) := by
  cases r with
  | error e => cases vs <;> cases h
  | ok a => exact ⟨a, rfl, h⟩

/-- A SELECT in front is answered from the first store. -/
theorem answered_query {g : S → A} {b : B} (h : (Prog.bind (Prog.query g) f).answered vs = some (.ok b)) :
    ∃ v vs', vs = v :: vs' ∧ (f (g v)).answered vs' = some (.ok b) := by
  cases vs with
  | nil => cases h
  | cons v vs' => exact ⟨v, vs', rfl, h⟩

end

/-- In a transaction it adds to what was seen, and nothing else. -/
theorem Safe.of_onlyReads [Relational S K W] {D : Discipline S K W} {J : S → Prop} {X : E → Prop}
    {p : Prog S K W E A} {t : Tx S K W} {s : S} (h : OnlyReads p) (hX : ∀ e, X e) :
    Safe D J X (fun t' s' a => ∃ vs, t' = { t with seen := t.seen ++ vs } ∧ p.answered vs = some (.ok a) ∧
      D.rely t.held s s') p t s := by
  suffices H : ∀ (q : Prog S K W E A) seen s₀, OnlyReads q → D.rely t.held s s₀ →
      Safe D J X (fun t' s' a => ∃ vs, t' = { t with seen := t.seen ++ (seen ++ vs) } ∧ q.answered vs = some (.ok a) ∧
        D.rely t.held s s') q { t with seen := t.seen ++ seen } s₀ by
    have := H p [] s h (D.refl _ _)
    simpa using this
  intro q
  induction q with
  | ret a =>
    intro seen s₀ _ hr s' hr' _
    exact ⟨[], by rw [List.append_nil], rfl, D.trans hr hr'⟩
  | throw e => exact fun _ _ _ _ => hX e
  | select next ih =>
    intro seen s₀ hq hr s' hr' _
    have hview : ({ t with seen := t.seen ++ seen } : Tx S K W).view s' = t.view s' := rfl
    have hnext := ih (t.view s') (seen ++ [t.view s']) s' (hq _) (D.trans hr hr')
    have hsaw : ({ t with seen := t.seen ++ seen } : Tx S K W).saw s' =
        { t with seen := t.seen ++ (seen ++ [t.view s']) } := by
      unfold Tx.saw
      rw [hview]
      simp only [List.append_assoc]
    rw [hview, hsaw]
    refine hnext.mono fun t' s'' a _ ⟨vs, ht', hvs, hr''⟩ => ⟨t.view s' :: vs, ?_, hvs, hr''⟩
    rw [ht']
    simp only [List.append_assoc, List.singleton_append]
  | lock k next ih => exact fun _ _ hq _ => hq.elim
  | write w next ih => exact fun _ _ hq _ => hq.elim
  | fresh next ih => exact fun _ _ hq _ => hq.elim

end Prog

end Transactions
