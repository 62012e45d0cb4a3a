import Shyraq.Transactions.Rely

/-!
# Guards and statements that answer

The shapes that most services share: a check that throws, a row that must be there, an INSERT
whose violated constraint throws, an UPDATE whose row is read back.
-/

namespace Transactions

namespace Prog

variable {S K W E A B R : Type}

/-- `if (!c) throw e`. -/
def guardOr (c : Bool) (e : E) : Prog S K W E Unit := if c then ret () else throw e

/-- `if (!o) throw e`. -/
def require (o : Option A) (e : E) : Prog S K W E A :=
  match o with
  | some a => ret a
  | none => throw e

/-- Domain code that may throw. -/
def ofExcept : Except E A → Prog S K W E A
  | .ok a => ret a
  | .error e => throw e

/-- An INSERT; a violated constraint throws. -/
def insertOr (w : W) (e : E) : Prog S K W E Unit := bind (update w) fun inserted => guardOr inserted e

/-- `f` for each element, in order, with the answers. -/
def collect (f : A → Prog S K W E B) : List A → Prog S K W E (List B)
  | [] => ret []
  | a :: as => bind (f a) fun b => bind (collect f as) fun bs => ret (b :: bs)

/-- An UPDATE, then the row read back. -/
def returning (w : W) (row : S → Option R) : Prog S K W E (Option R) :=
  bind (update w) fun matched => if matched then query row else ret none

/-! ## They write nothing -/

theorem OnlyWrites.guardOr {P : W → Prop} {c : Bool} {e : E} {f : Unit → Prog S K W E B}
    (h : OnlyWrites P (f ())) : OnlyWrites P (Prog.bind (Prog.guardOr c e) f) := by
  cases c with
  | false => trivial
  | true => exact h

theorem OnlyWrites.require {P : W → Prop} {o : Option A} {e : E} {f : A → Prog S K W E B}
    (h : ∀ a, OnlyWrites P (f a)) : OnlyWrites P (Prog.bind (Prog.require o e) f) := by
  cases o with
  | none => trivial
  | some a => exact h a

theorem OnlyWrites.ofExcept {P : W → Prop} {r : Except E A} {f : A → Prog S K W E B}
    (h : ∀ a, OnlyWrites P (f a)) : OnlyWrites P (Prog.bind (Prog.ofExcept r) f) := by
  cases r with
  | error e => trivial
  | ok a => exact h a

/-- But for an INSERT, which writes its row. -/
theorem OnlyWrites.insertOr {P : W → Prop} {w : W} {e : E} {f : Unit → Prog S K W E B} (hw : P w)
    (h : OnlyWrites P (f ())) : OnlyWrites P (Prog.bind (Prog.insertOr w e) f) :=
  ⟨hw, fun inserted => by
    cases inserted with
    | false => trivial
    | true => exact h⟩

theorem OnlyWrites.collect {P : W → Prop} {f : A → Prog S K W E B} (l : List A) (h : ∀ a ∈ l, OnlyWrites P (f a)) :
    OnlyWrites P (Prog.collect f l) := by
  induction l with
  | nil => trivial
  | cons a l ih =>
    have hrest := ih fun b hb => h b (List.mem_cons_of_mem a hb)
    exact (h a List.mem_cons_self).bind fun _ => hrest.bind fun _ => trivial

/-! ## One of them, then the rest -/

section

variable [Relational S K W] {D : Discipline S K W} {J : S → Prop} {X : E → Prop}
  {Q : Tx S K W → S → B → Prop} {t : Tx S K W} {s : S}

theorem Safe.guardOr {c : Bool} {e : E} {f : Unit → Prog S K W E B} (hX : ∀ e, X e)
    (h : c = true → Safe D J X Q (f ()) t s) : Safe D J X Q (Prog.bind (Prog.guardOr c e) f) t s := by
  cases c with
  | false => exact hX e
  | true => exact h rfl

theorem Safe.require {o : Option A} {e : E} {f : A → Prog S K W E B} (hX : ∀ e, X e)
    (h : ∀ a, o = some a → Safe D J X Q (f a) t s) : Safe D J X Q (Prog.bind (Prog.require o e) f) t s := by
  cases o with
  | none => exact hX e
  | some a => exact h a rfl

theorem Safe.ofExcept {r : Except E A} {f : A → Prog S K W E B} (hX : ∀ e, X e)
    (h : ∀ a, r = .ok a → Safe D J X Q (f a) t s) : Safe D J X Q (Prog.bind (Prog.ofExcept r) f) t s := by
  cases r with
  | error e => exact hX e
  | ok a => exact h a rfl

theorem Safe.insertOr {w : W} {e : E} {f : Unit → Prog S K W E B} (hX : ∀ e, X e)
    (h : ∀ s', D.rely t.held s s' → J s' → Relational.hit (t.view s') w = true →
      Safe D J X Q (f ()) (t.wrote w) s') :
    Safe D J X Q (Prog.bind (Prog.insertOr w e) f) t s :=
  fun s' hr hj => ⟨fun hh => h s' hr hj hh, fun _ => hX e⟩

/-- The row that matched is read back from a state that the row lock has kept. -/
theorem Safe.returning {w : W} {row : S → Option R} {f : Option R → Prog S K W E B}
    (hit : ∀ s', D.rely t.held s s' → J s' → Relational.hit (t.view s') w = true →
      Safe D J X Q (Prog.bind (Prog.query row) f) (t.wrote w) s')
    (miss : ∀ s', D.rely t.held s s' → J s' → Relational.hit (t.view s') w = false →
      Safe D J X Q (f none) t s') :
    Safe D J X Q (Prog.bind (Prog.returning w row) f) t s :=
  fun s' hr hj => ⟨hit s' hr hj, miss s' hr hj⟩

end

end Prog

end Transactions

/-! ## A service called by another

The caller's store has the callee's store as a part; the callee's statements run in the caller's
transaction.
-/

namespace Transactions

variable {S K W E S' K' W' E' A B R : Type}

/-- How the callee's store, keys, writes and errors are those of the caller. -/
structure Part (S K W E S' K' W' E' : Type) where
  get : S' → S
  key : K → K'
  write : W → W'
  error : E → E'

namespace Prog

def within (π : Part S K W E S' K' W' E') : Prog S K W E A → Prog S' K' W' E' A
  | ret a => ret a
  | throw e => throw (π.error e)
  | select next => select fun s => within π (next (π.get s))
  | lock k next => lock (π.key k) (within π next)
  | write w next => write (π.write w) fun b => within π (next b)
  | fresh next => fresh fun i => within π (next i)

variable (π : Part S K W E S' K' W' E')

theorem within_bind (p : Prog S K W E A) (f : A → Prog S K W E B) :
    within π (bind p f) = bind (within π p) fun a => within π (f a) := by
  induction p with
  | ret a => rfl
  | throw e => rfl
  | select next ih => simp only [bind, within, ih]
  | lock k next ih => simp only [bind, within, ih]
  | write w next ih => simp only [bind, within, ih]
  | fresh next ih => simp only [bind, within, ih]

/-- The callee's writes are the only ones. -/
theorem onlyWrites_within {P : W' → Prop} (h : ∀ w, P (π.write w)) (p : Prog S K W E A) :
    OnlyWrites P (within π p) := by
  induction p with
  | ret a => trivial
  | throw e => trivial
  | select next ih => exact fun s => ih (π.get s)
  | lock k next ih => exact ih
  | write w next ih => exact ⟨h w, ih⟩
  | fresh next ih => exact ih

theorem within_uuid : within π (uuid : Prog S K W E Nat) = uuid := rfl

theorem within_guardOr (c : Bool) (e : E) : within π (guardOr c e : Prog S K W E Unit) = guardOr c (π.error e) := by
  cases c <;> rfl

theorem within_require (o : Option A) (e : E) : within π (require o e : Prog S K W E A) = require o (π.error e) := by
  cases o <;> rfl

theorem within_insertOr (w : W) (e : E) :
    within π (insertOr w e : Prog S K W E Unit) = insertOr (π.write w) (π.error e) := by
  unfold insertOr
  rw [within_bind]
  simp only [within_guardOr]
  rfl

end Prog

end Transactions
