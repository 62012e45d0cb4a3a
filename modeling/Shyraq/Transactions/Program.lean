import Mathlib.Data.List.Basic
import Mathlib.Algebra.Ring.Nat
import Mathlib.Logic.Function.Basic
import Mathlib.Data.Fintype.Basic

/-!
# Transaction programs over a READ COMMITTED store

A request is a `Prog`: a tree of statements, each answered from what the
transaction can see at that moment — the committed store with the transaction's
own writes on top (`Tx.view`).  A write takes the lock of the row it matches and
stays private until the commit; advisory locks and row locks are held until then.

`System n` runs up to `n` sessions at once.  A `Choice` picks the next event, and
`System.exec` plays a list of them, so a claim about every interleaving is a claim
about every list.  `System 1` is the serial case: one session, one request at a
time.
-/

namespace Transactions

/-- What a store `S` offers to its transactions: locks `K`, single-row writes `W`. -/
class Relational (S : Type) (K W : outParam Type) where
  /-- The rows and unique-index entries that a matching write keeps locked. -/
  keys : W → List K
  /-- Does the statement match a row of what the transaction sees? -/
  hit : S → W → Bool
  /-- The statement itself.  It re-reads its own condition. -/
  apply : S → W → S
  rowKey : Nat → K
  /-- No row of any table carries this id. -/
  absent : S → Nat → Bool

/-- A request: `ret` commits, `throw` rolls back. -/
inductive Prog (S K W E A : Type) : Type
  | ret (a : A)
  | throw (e : E)
  | select (next : S → Prog S K W E A)
  | lock (k : K) (next : Prog S K W E A)
  | write (w : W) (next : Bool → Prog S K W E A)
  | fresh (next : Nat → Prog S K W E A)

namespace Prog

variable {S K W E A B : Type}

def bind : Prog S K W E A → (A → Prog S K W E B) → Prog S K W E B
  | ret a, f => f a
  | throw e, _ => throw e
  | select next, f => select fun s => bind (next s) f
  | lock k next, f => lock k (bind next f)
  | write w next, f => write w fun b => bind (next b) f
  | fresh next, f => fresh fun i => bind (next i) f

instance : Monad (Prog S K W E) where
  pure := ret
  bind := bind

/-- Runs `handler` where `p` throws.  The writes made so far stay: only the
outermost `throw` of a request rolls back. -/
def tryCatch (handler : E → Prog S K W E A) : Prog S K W E A → Prog S K W E A
  | ret a => ret a
  | throw e => handler e
  | select next => select fun s => tryCatch handler (next s)
  | lock k next => lock k (tryCatch handler next)
  | write w next => write w fun b => tryCatch handler (next b)
  | fresh next => fresh fun i => tryCatch handler (next i)

/-- A SELECT whose rows are turned into a value. -/
def query (f : S → A) : Prog S K W E A := select fun s => ret (f s)

def acquire (k : K) : Prog S K W E Unit := lock k (ret ())

/-- A conditional statement; the answer says whether a row matched. -/
def update (w : W) : Prog S K W E Bool := write w ret

def uuid : Prog S K W E Nat := fresh ret

/-- Runs `body` for each element, in order. -/
def forEach (body : A → Prog S K W E Unit) : List A → Prog S K W E Unit
  | [] => ret ()
  | a :: as => bind (body a) fun _ => forEach body as

@[simp] theorem pure_eq (a : A) : (pure a : Prog S K W E A) = ret a := rfl
@[simp] theorem bind_eq (p : Prog S K W E A) (f : A → Prog S K W E B) : p >>= f = bind p f := rfl

theorem bind_ret (p : Prog S K W E A) : bind p ret = p := by
  induction p with
  | ret a => rfl
  | throw e => rfl
  | select next ih => simp only [bind, ih]
  | lock k next ih => simp only [bind, ih]
  | write w next ih => simp only [bind, ih]
  | fresh next ih => simp only [bind, ih]

theorem bind_assoc {C : Type} (p : Prog S K W E A) (f : A → Prog S K W E B)
    (g : B → Prog S K W E C) : bind (bind p f) g = bind p fun a => bind (f a) g := by
  induction p with
  | ret a => rfl
  | throw e => rfl
  | select next ih => simp only [bind, ih]
  | lock k next ih => simp only [bind, ih]
  | write w next ih => simp only [bind, ih]
  | fresh next ih => simp only [bind, ih]

end Prog

/-- What a running transaction has done so far: its uncommitted writes, the keys it
holds, and the views its SELECTs were answered from. -/
structure Tx (S K W : Type) where
  writes : List W
  held : List K
  seen : List S

namespace Tx

variable {S K W : Type}

def start : Tx S K W := ⟨[], [], []⟩

/-- The store as the transaction sees it: its own writes over the committed rows. -/
def view [Relational S K W] (t : Tx S K W) (s : S) : S := t.writes.foldl Relational.apply s

def saw [Relational S K W] (t : Tx S K W) (s : S) : Tx S K W := { t with seen := t.seen ++ [t.view s] }

def locked (t : Tx S K W) (k : K) : Tx S K W := { t with held := k :: t.held }

def wrote [Relational S K W] (t : Tx S K W) (w : W) : Tx S K W :=
  { t with writes := t.writes ++ [w], held := Relational.keys S w ++ t.held }

@[simp] theorem writes_locked (t : Tx S K W) (k : K) : (t.locked k).writes = t.writes := rfl
@[simp] theorem held_locked (t : Tx S K W) (k : K) : (t.locked k).held = k :: t.held := rfl
@[simp] theorem seen_locked (t : Tx S K W) (k : K) : (t.locked k).seen = t.seen := rfl

section
variable [Relational S K W] (t : Tx S K W) (s : S)

variable {t} in
/-- Nothing is written yet. -/
theorem view_of_unwritten (h : t.writes = []) (s : S) : t.view s = s := by
  unfold view
  rw [h]
  rfl

@[simp] theorem view_start : (start : Tx S K W).view s = s := rfl
@[simp] theorem view_saw : (t.saw s).view = t.view := rfl
@[simp] theorem view_locked (k : K) : (t.locked k).view s = t.view s := rfl
@[simp] theorem view_wrote (w : W) : (t.wrote w).view s = Relational.apply (t.view s) w := by
  simp [view, wrote]

@[simp] theorem writes_saw : (t.saw s).writes = t.writes := rfl
@[simp] theorem writes_wrote (w : W) : (t.wrote w).writes = t.writes ++ [w] := rfl
@[simp] theorem held_saw : (t.saw s).held = t.held := rfl
@[simp] theorem held_wrote (w : W) :
    (t.wrote w).held = Relational.keys S w ++ t.held := rfl
@[simp] theorem seen_saw : (t.saw s).seen = t.seen ++ [t.view s] := rfl
@[simp] theorem seen_wrote (w : W) : (t.wrote w).seen = t.seen := rfl

end

end Tx

/-- One committed request: what was asked, what it did and what it answered. -/
structure Commit (S K W Op A : Type) where
  op : Op
  tx : Tx S K W
  result : A

/-- A session in the middle of a request. -/
structure Session (S K W E Op A : Type) where
  op : Op
  prog : Prog S K W E A
  tx : Tx S K W

structure System (S K W E Op A : Type) (n : Nat) where
  db : S
  log : List (Commit S K W Op A)
  sessions : Fin n → Option (Session S K W E Op A)

/-! Sessions are numbered by literals. -/

instance neZero_one : NeZero 1 := ⟨by decide⟩

instance neZero_two : NeZero 2 := ⟨by decide⟩

/-- The next event.  `step i id` runs the next statement of session `i`; `id` is the
random id it draws if that statement asks for one.  `kill i` is a lost connection or a
deadlock victim: the transaction rolls back. -/
inductive Choice (Op : Type) (n : Nat) : Type
  | start (i : Fin n) (op : Op)
  | step (i : Fin n) (id : Nat)
  | kill (i : Fin n)

namespace System

variable {S K W E Op A : Type} {n : Nat} [Relational S K W] [DecidableEq K]

def init (s : S) : System S K W E Op A n := ⟨s, [], fun _ => none⟩

/-- Another session holds the key. -/
def blocked (σ : System S K W E Op A n) (i : Fin n) (k : K) : Bool :=
  (List.finRange n).any fun j =>
    j != i && ((σ.sessions j).map fun t => decide (k ∈ t.tx.held)).getD false

def put (σ : System S K W E Op A n) (i : Fin n) (t : Option (Session S K W E Op A)) :
    System S K W E Op A n :=
  { σ with sessions := Function.update σ.sessions i t }

/-- The next statement of session `i`; `none` when it has to wait. -/
def advance (σ : System S K W E Op A n) (i : Fin n) (id : Nat) (t : Session S K W E Op A) :
    Option (System S K W E Op A n) :=
  match t.prog with
  | .ret a => some { (σ.put i none) with
      db := t.tx.view σ.db, log := σ.log ++ [⟨t.op, t.tx, a⟩] }
  | .throw _ => some (σ.put i none)
  | .select next => some (σ.put i (some ⟨t.op, next (t.tx.view σ.db), t.tx.saw σ.db⟩))
  | .lock k next =>
      if σ.blocked i k then none else some (σ.put i (some ⟨t.op, next, t.tx.locked k⟩))
  | .write w next =>
      if Relational.hit (t.tx.view σ.db) w then
        -- a row that another session has written but not committed: wait for it
        if (Relational.keys S w).any (σ.blocked i) then none
        else some (σ.put i (some ⟨t.op, next true, t.tx.wrote w⟩))
      else some (σ.put i (some ⟨t.op, next false, t.tx⟩))
  | .fresh next =>
      let k : K := Relational.rowKey S id
      if Relational.absent (t.tx.view σ.db) id && !σ.blocked i k && !decide (k ∈ t.tx.held) then
        some (σ.put i (some ⟨t.op, next id, t.tx.locked k⟩))
      else none

def step (prog : Op → Prog S K W E A) (σ : System S K W E Op A n) :
    Choice Op n → Option (System S K W E Op A n)
  | .start i op =>
      match σ.sessions i with
      | none => some (σ.put i (some ⟨op, prog op, Tx.start⟩))
      | some _ => none
  | .step i id =>
      match σ.sessions i with
      | none => none
      | some t => σ.advance i id t
  | .kill i => some (σ.put i none)

/-- Plays a schedule; `none` when it asks for an event that cannot happen. -/
def exec (prog : Op → Prog S K W E A) (σ : System S K W E Op A n) :
    List (Choice Op n) → Option (System S K W E Op A n)
  | [] => some σ
  | c :: cs => (σ.step prog c).bind fun σ' => exec prog σ' cs

end System

end Transactions

/-! ## Fragments of a store

A fragment of the store that some of the writes own: the others leave it alone, and the owners see no more of the store
than the part.  What a transaction does to the part is what its owners among the writes do to it.
-/

namespace Transactions

variable {S K W L : Type} [Relational S K W] {part : S → L} {owns : W → Bool}

structure Fragment (part : S → L) (owns : W → Bool) : Prop where
  others : ∀ w s, owns w = false → part (Relational.apply s w) = part s
  owners : ∀ w s s', part s = part s' → part (Relational.apply s w) = part (Relational.apply s' w)

/-- Only the owners count. -/
theorem Fragment.foldl (h : Fragment part owns) (ws : List W) (s : S) :
    part (ws.foldl Relational.apply s) = part ((ws.filter owns).foldl Relational.apply s) := by
  suffices H : ∀ s s' : S, part s = part s' →
      part (ws.foldl Relational.apply s) = part ((ws.filter owns).foldl Relational.apply s') from H s s rfl
  induction ws with
  | nil => exact fun s s' hs => hs
  | cons w ws ih =>
    intro s s' hs
    rw [List.foldl_cons]
    by_cases hw : owns w = true
    · rw [List.filter_cons_of_pos hw, List.foldl_cons]
      exact ih _ _ (h.owners w s s' hs)
    · rw [List.filter_cons_of_neg hw]
      exact ih _ _ ((h.others w s (Bool.eq_false_of_not_eq_true hw)).trans hs)

/-- The writes of a transaction that own a part. -/
def Tx.owned (owns : W → Bool) (t : Tx S K W) : List W := t.writes.filter owns

theorem Fragment.view (h : Fragment part owns) (t : Tx S K W) (s : S) :
    part (t.view s) = part ((t.owned owns).foldl Relational.apply s) := h.foldl t.writes s

namespace Tx

variable {t : Tx S K W} {w : W}

theorem owned_wrote (t : Tx S K W) (h : owns w = true) : (t.wrote w).owned owns = t.owned owns ++ [w] := by
  unfold owned
  rw [writes_wrote, List.filter_append, List.filter_cons_of_pos h, List.filter_nil]

theorem owned_wrote_of_not (t : Tx S K W) (h : owns w = false) : (t.wrote w).owned owns = t.owned owns := by
  unfold owned
  rw [writes_wrote, List.filter_append, List.filter_cons_of_neg (by simp [h]), List.filter_nil, List.append_nil]

omit [Relational S K W] in
theorem owned_of_unwritten (h : t.writes = []) : t.owned owns = [] := by
  unfold owned
  rw [h, List.filter_nil]

end Tx

end Transactions
