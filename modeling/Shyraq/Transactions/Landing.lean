import Shyraq.Transactions.Rely

/-!
# What a transaction has written lands with its commit

A statement matched when it was made.  The others may have moved the committed store since, and
the commit replays the statement there.  Where the locks keep what the statement needs, it lands.
-/

namespace Transactions

variable {S K W E A : Type} [Relational S K W]

/-- `φ s w`: on `s` the statement does what it was made for.  It matches then, and the keys that
it takes keep it so and carry what the others do over to what it leaves. -/
structure Discipline.Keeps (D : Discipline S K W) (φ : S → W → Prop) : Prop where
  hit : ∀ s w, Relational.hit s w = true → φ s w
  later : ∀ {held s s' w}, Relational.keys S w ⊆ held → D.rely held s s' → φ s w →
    φ s' w ∧ D.rely held (Relational.apply s w) (Relational.apply s' w)

/-- Each statement does, on what those before it leave. -/
def Landed (φ : S → W → Prop) : S → List W → Prop
  | _, [] => True
  | s, w :: ws => φ s w ∧ Landed φ (Relational.apply s w) ws

variable {φ : S → W → Prop} {D : Discipline S K W} {s s' : S} {ws ws' : List W}

theorem landed_append : Landed φ s (ws ++ ws') ↔ Landed φ s ws ∧ Landed φ (ws.foldl Relational.apply s) ws' := by
  induction ws generalizing s with
  | nil => simp [Landed]
  | cons w ws ih =>
    show φ s w ∧ Landed φ (Relational.apply s w) (ws ++ ws') ↔ _
    rw [ih, ← and_assoc]
    rfl

theorem landed_snoc {w : W} : Landed φ s (ws ++ [w]) ↔ Landed φ s ws ∧ φ (ws.foldl Relational.apply s) w := by
  rw [landed_append]
  simp [Landed]

/-- What the others do to the committed store they do to what the statements leave. -/
theorem Landed.later {held : List K} (hD : D.Keeps φ) (hk : ∀ w ∈ ws, Relational.keys S w ⊆ held)
    (hr : D.rely held s s') (h : Landed φ s ws) :
    Landed φ s' ws ∧ D.rely held (ws.foldl Relational.apply s) (ws.foldl Relational.apply s') := by
  induction ws generalizing s s' with
  | nil => exact ⟨trivial, hr⟩
  | cons w ws ih =>
    obtain ⟨hw, hws⟩ := h
    obtain ⟨hw', hr'⟩ := hD.later (hk w List.mem_cons_self) hr hw
    obtain ⟨hws', hr''⟩ := ih (fun v hv => hk v (List.mem_cons_of_mem _ hv)) hr' hws
    exact ⟨⟨hw', hws'⟩, hr''⟩

/-- Where the statement stands among the others. -/
theorem Landed.at {w : W} (h : Landed φ s ws) (hw : w ∈ ws) :
    ∃ ws₁ ws₂, ws = ws₁ ++ w :: ws₂ ∧ φ (ws₁.foldl Relational.apply s) w := by
  obtain ⟨ws₁, ws₂, rfl⟩ := List.append_of_mem hw
  exact ⟨ws₁, ws₂, rfl, (landed_append.1 h).2.1⟩

/-- The statements have landed on the committed store, and their keys are held. -/
structure Tx.Lands (φ : S → W → Prop) (t : Tx S K W) (s : S) : Prop where
  landed : Landed φ s t.writes
  keys : ∀ w ∈ t.writes, Relational.keys S w ⊆ t.held

namespace Tx.Lands

variable {t : Tx S K W}

theorem start : (Tx.start : Tx S K W).Lands φ s := ⟨trivial, fun _ hw => absurd hw List.not_mem_nil⟩

theorem later (hD : D.Keeps φ) (h : t.Lands φ s) (hr : D.rely t.held s s') : t.Lands φ s' :=
  ⟨(h.landed.later hD h.keys hr).1, h.keys⟩

theorem saw (h : t.Lands φ s) (v : S) : (t.saw v).Lands φ s := ⟨h.landed, h.keys⟩

theorem locked (h : t.Lands φ s) (k : K) : (t.locked k).Lands φ s :=
  ⟨h.landed, fun w hw => List.Subset.trans (h.keys w hw) (List.subset_cons_self _ _)⟩

theorem wrote (h : t.Lands φ s) {w : W} (hw : φ (t.view s) w) : (t.wrote w).Lands φ s := by
  refine ⟨landed_snoc.2 ⟨h.landed, hw⟩, fun w' hw' => ?_⟩
  rw [Tx.writes_wrote] at hw'
  rcases List.mem_append.1 hw' with hw' | hw'
  · exact List.Subset.trans (h.keys w' hw') (List.subset_append_right _ _)
  · rw [List.mem_singleton.1 hw']
    exact List.subset_append_left _ _

end Tx.Lands

/-- One postcondition for free: what was written has landed. -/
theorem Prog.Safe.lands {J : S → Prop} {X : E → Prop} {t : Tx S K W} (hD : D.Keeps φ) (hX : ∀ e, X e)
    (p : Prog S K W E A) (h : t.Lands φ s) : Prog.Safe D J X (fun t s _ => t.Lands φ s) p t s := by
  induction p generalizing t s with
  | ret a => exact fun s' hr _ => h.later hD hr
  | throw e => exact hX e
  | select next ih => exact fun s' hr _ => ih _ ((h.later hD hr).saw s')
  | lock k next ih => exact fun s' hr _ => ih ((h.later hD hr).locked k)
  | write w next ih =>
    intro s' hr _
    have h' := h.later hD hr
    exact ⟨fun hhit => ih _ (h'.wrote (hD.hit _ _ hhit)), fun _ => ih _ h'⟩
  | fresh next ih => exact fun s' hr _ i _ _ => ih i ((h.later hD hr).locked _)

/-! ## Programs that read under an invariant -/

namespace Prog

variable {B : Type}

/-- As long as its SELECTs see stores with `I`, every write is `P` and every answer `R`. -/
def Abides (I : S → Prop) (P : W → Prop) (R : A → Prop) : Prog S K W E A → Prop
  | ret a => R a
  | throw _ => True
  | select next => ∀ s, I s → Abides I P R (next s)
  | lock _ next => Abides I P R next
  | write w next => P w ∧ ∀ b, Abides I P R (next b)
  | fresh next => ∀ i, Abides I P R (next i)

section

variable {I : S → Prop} {P : W → Prop} {R : A → Prop} {R' : B → Prop} {p : Prog S K W E A} {f : A → Prog S K W E B}

omit [Relational S K W] in
theorem Abides.bind (h : Abides I P R p) (hf : ∀ a, R a → Abides I P R' (f a)) : Abides I P R' (Prog.bind p f) := by
  induction p with
  | ret a => exact hf a h
  | throw e => trivial
  | select next ih => exact fun s hs => ih s (h s hs)
  | lock k next ih => exact ih h
  | write w next ih => exact ⟨h.1, fun b => ih b (h.2 b)⟩
  | fresh next ih => exact fun i => ih i (h i)

omit [Relational S K W] in
theorem Abides.query {g : S → A} (h : ∀ s, I s → Abides I P R' (f (g s))) :
    Abides I P R' (Prog.bind (Prog.query g) f) := h

omit [Relational S K W] in
theorem OnlyWrites.abides (h : OnlyWrites P p) : Abides I P (fun _ => True) p := by
  induction p with
  | ret a => trivial
  | throw e => trivial
  | select next ih => exact fun s _ => ih s (h s)
  | lock k next ih => exact ih h
  | write w next ih => exact ⟨h.1, fun b => ih b (h.2 b)⟩
  | fresh next ih => exact fun i => ih i (h i)

/-- The invariant holds of what the transaction sees, whatever it writes next. -/
theorem Safe.of_abides {J : S → Prop} {X : E → Prop} {t : Tx S K W} (hD : D.Keeps φ) (hX : ∀ e, X e)
    (hI : ∀ t' s', Tx.Extends P t t' → t'.Lands φ s' → J s' → I (t'.view s')) (h : Abides I P R p)
    (hl : t.Lands φ s) : Safe D J X (fun t' s' a => Tx.Extends P t t' ∧ t'.Lands φ s' ∧ R a) p t s := by
  suffices H : ∀ t₀ s₀, Tx.Extends P t t₀ → t₀.Lands φ s₀ →
      Safe D J X (fun t' s' a => Tx.Extends P t t' ∧ t'.Lands φ s' ∧ R a) p t₀ s₀ from H t s (.refl t) hl
  clear hl
  induction p with
  | ret a => exact fun t₀ s₀ he hl s' hr _ => ⟨he, hl.later hD hr, h⟩
  | throw e => exact fun _ _ _ _ => hX e
  | select next ih =>
    intro t₀ s₀ he hl s' hr hj
    have hl' := hl.later hD hr
    exact ih _ (h _ (hI t₀ s' he hl' hj)) _ _ (he.saw s') (hl'.saw s')
  | lock k next ih => exact fun t₀ s₀ he hl s' hr _ => ih h _ _ (he.locked k) ((hl.later hD hr).locked k)
  | write w next ih =>
    intro t₀ s₀ he hl s' hr _
    have hl' := hl.later hD hr
    exact ⟨fun hhit => ih _ (h.2 true) _ _ (he.wrote h.1) (hl'.wrote (hD.hit _ _ hhit)),
      fun _ => ih _ (h.2 false) _ _ he hl'⟩
  | fresh next ih =>
    exact fun t₀ s₀ he hl s' hr _ i _ _ => ih i (h i) _ _ (he.locked _) ((hl.later hD hr).locked _)

end

end Prog

end Transactions
