import Shyraq.Transactions.Program

/-!
# Rely–guarantee reasoning about transaction programs

A `Discipline` says how the committed store may move under a session that holds some
keys.  `Prog.Safe` runs a program symbolically: before each statement the committed
store may have moved that way.  Its postcondition is about the state right before the
commit.

What the held keys protect may be assumed of every later committed store (`Safe.keep`).
-/

namespace Transactions

variable {S K W E Op A B : Type} [Relational S K W]

/-- `t'` went on from `t`: more writes, all of them `P`, more keys, more SELECTs. -/
structure Tx.Extends (P : W → Prop) (t t' : Tx S K W) : Prop where
  writes : ∃ ws, t'.writes = t.writes ++ ws ∧ ∀ w ∈ ws, P w
  held : t.held ⊆ t'.held
  seen : t.seen <+: t'.seen

namespace Tx.Extends

variable {P : W → Prop} {t t' : Tx S K W}

omit [Relational S K W] in
theorem refl (t : Tx S K W) : Extends P t t :=
  ⟨⟨[], by simp, by simp⟩, List.Subset.refl _, List.prefix_rfl⟩

omit [Relational S K W] in
/-- A transaction goes on from nothing. -/
theorem of_start (h : ∀ w ∈ t.writes, P w) : Extends P Tx.start t :=
  ⟨⟨t.writes, rfl, h⟩, fun _ hk => absurd hk List.not_mem_nil, List.nil_prefix⟩

theorem saw (h : Extends P t t') (s : S) : Extends P t (t'.saw s) :=
  ⟨h.writes, h.held, h.seen.trans (List.prefix_append _ _)⟩

omit [Relational S K W] in
theorem locked (h : Extends P t t') (k : K) : Extends P t (t'.locked k) :=
  ⟨h.writes, fun _ hk => List.mem_cons_of_mem _ (h.held hk), h.seen⟩

theorem wrote (h : Extends P t t') {w : W} (hw : P w) : Extends P t (t'.wrote w) := by
  obtain ⟨ws, he, hws⟩ := h.writes
  refine ⟨⟨ws ++ [w], by simp [he], ?_⟩, fun _ hk => List.mem_append_right _ (h.held hk), h.seen⟩
  intro w' hw'
  rcases List.mem_append.1 hw' with hw' | hw'
  · exact hws w' hw'
  · exact List.mem_singleton.1 hw' ▸ hw

omit [Relational S K W] in
theorem mono {P' : W → Prop} (h : Extends P t t') (hP : ∀ w, P w → P' w) : Extends P' t t' := by
  obtain ⟨ws, he, hws⟩ := h.writes
  exact ⟨⟨ws, he, fun w hw => hP w (hws w hw)⟩, h.held, h.seen⟩

omit [Relational S K W] in
theorem trans {t'' : Tx S K W} (h : Extends P t t') (h' : Extends P t' t'') : Extends P t t'' := by
  obtain ⟨ws, he, hws⟩ := h.writes
  obtain ⟨ws', he', hws'⟩ := h'.writes
  refine ⟨⟨ws ++ ws', by rw [he', he, List.append_assoc], ?_⟩,
    fun _ hk => h'.held (h.held hk), h.seen.trans h'.seen⟩
  intro w hw
  rcases List.mem_append.1 hw with hw | hw
  · exact hws w hw
  · exact hws' w hw

omit [Relational S K W] in
/-- No write was allowed. -/
theorem unwritten (h : Extends (fun _ => False) t t') : t'.writes = t.writes := by
  obtain ⟨ws, he, hws⟩ := h.writes
  cases ws with
  | nil => simpa using he
  | cons w ws => exact (hws w List.mem_cons_self).elim

/-- What the writes `P` leave alone is as it was. -/
theorem view_eq (h : Extends P t t') {α : Type} (φ : S → α)
    (hφ : ∀ s w, P w → φ (Relational.apply s w) = φ s) (s : S) : φ (t'.view s) = φ (t.view s) := by
  obtain ⟨ws, he, hws⟩ := h.writes
  unfold Tx.view
  rw [he, List.foldl_append]
  generalize t.writes.foldl Relational.apply s = v
  clear he
  induction ws generalizing v with
  | nil => rfl
  | cons w ws ih =>
    rw [List.foldl_cons, ih fun w' hw' => hws w' (List.mem_cons_of_mem _ hw')]
    exact hφ v w (hws w List.mem_cons_self)

end Tx.Extends

/-- The first SELECT was answered from a state with `φ`, and nothing is written yet. -/
structure Tx.FirstRead (φ : S → Prop) (t : Tx S K W) : Prop where
  unwritten : t.writes = []
  first : ∃ v, φ v ∧ t.seen.head? = some v

namespace Tx.FirstRead

variable {φ : S → Prop} {t : Tx S K W}

theorem start {v : S} (h : φ v) : FirstRead φ (Tx.start.saw v : Tx S K W) := ⟨rfl, v, h, rfl⟩

theorem saw (h : FirstRead φ t) (s : S) : FirstRead φ (t.saw s) := by
  obtain ⟨v, hv, hhead⟩ := h.first
  refine ⟨h.unwritten, v, hv, ?_⟩
  rw [Tx.seen_saw, List.head?_append, hhead]
  rfl

omit [Relational S K W] in
theorem locked (h : FirstRead φ t) (k : K) : FirstRead φ (t.locked k) := ⟨h.unwritten, h.first⟩

end Tx.FirstRead

/-- What the others may do to the committed store while these keys are held. -/
structure Discipline (S K W : Type) [Relational S K W] where
  rely : List K → S → S → Prop
  refl : ∀ held s, rely held s s
  trans : ∀ {held s₁ s₂ s₃}, rely held s₁ s₂ → rely held s₂ s₃ → rely held s₁ s₃
  mono : ∀ {held held' s s'}, held ⊆ held' → rely held' s s' → rely held s s'

/-- Nothing moves: the discipline of a session that runs alone. -/
def Discipline.serial : Discipline S K W where
  rely _ s s' := s' = s
  refl _ _ := rfl
  trans h₁ h₂ := h₂.trans h₁
  mono _ h := h

/-- Anything may move: no lock is relied on. -/
def Discipline.loose : Discipline S K W where
  rely _ _ _ := True
  refl _ _ := trivial
  trans _ _ := trivial
  mono _ _ := trivial

/-- The commit moves the store only as every session with other keys allows. -/
def Discipline.Guarantee (D : Discipline S K W) (t : Tx S K W) (s : S) : Prop :=
  ∀ held, List.Disjoint t.held held → D.rely held s (t.view s)

namespace Prog

/-- Every run of the rest of the program from here, with others interfering between the
statements, ends in `Q` right before it commits; `X` of the error when it throws.  `J` is
what is known of every committed store. -/
def Safe (D : Discipline S K W) (J : S → Prop) (X : E → Prop) (Q : Tx S K W → S → A → Prop) :
    Prog S K W E A → Tx S K W → S → Prop
  | ret a, t, s => ∀ s', D.rely t.held s s' → J s' → Q t s' a
  | throw e, _, _ => X e
  | select next, t, s => ∀ s', D.rely t.held s s' → J s' →
      Safe D J X Q (next (t.view s')) (t.saw s') s'
  | lock k next, t, s => ∀ s', D.rely t.held s s' → J s' → Safe D J X Q next (t.locked k) s'
  | write w next, t, s => ∀ s', D.rely t.held s s' → J s' →
      (Relational.hit (t.view s') w = true → Safe D J X Q (next true) (t.wrote w) s') ∧
      (Relational.hit (t.view s') w = false → Safe D J X Q (next false) t s')
  | fresh next, t, s => ∀ s', D.rely t.held s s' → J s' → ∀ i,
      Relational.absent (t.view s') i = true → Relational.rowKey S i ∉ t.held →
      Safe D J X Q (next i) (t.locked (Relational.rowKey S i)) s'

variable {D : Discipline S K W} {J : S → Prop} {X : E → Prop} {Q Q' : Tx S K W → S → A → Prop}
  {p : Prog S K W E A} {f : A → Prog S K W E B} {t : Tx S K W} {s : S}

/-- Interference before the next statement is already accounted for. -/
theorem Safe.rely {s' : S} (h : Safe D J X Q p t s) (hr : D.rely t.held s s') : Safe D J X Q p t s' := by
  cases p <;> first
    | exact h
    | exact fun s₂ hr₂ hj => h s₂ (D.trans hr hr₂) hj

/-- Sequencing: the rest must be safe from wherever the first part ends. -/
theorem Safe.bind {Q : Tx S K W → S → B → Prop} (hj : J s)
    (h : Safe D J X (fun t s a => Safe D J X Q (f a) t s) p t s) : Safe D J X Q (Prog.bind p f) t s := by
  induction p generalizing t s with
  | ret a => exact h s (D.refl _ _) hj
  | throw e => exact h
  | select next ih => exact fun s' hr hj' => ih _ hj' (h s' hr hj')
  | lock k next ih => exact fun s' hr hj' => ih hj' (h s' hr hj')
  | write w next ih =>
    exact fun s' hr hj' => ⟨fun hh => ih _ hj' ((h s' hr hj').1 hh),
      fun hh => ih _ hj' ((h s' hr hj').2 hh)⟩
  | fresh next ih => exact fun s' hr hj' i ha hk => ih _ hj' (h s' hr hj' i ha hk)

/-- Consequence: relying on less interference, knowing more of the committed stores, asking for less, and with the answer
turned into another. -/
theorem Safe.consequence {D' : Discipline S K W} {J' : S → Prop} {R : Tx S K W → S → B → Prop} {g : A → B}
    (hD : ∀ held s s', D'.rely held s s' → D.rely held s s') (hJ : ∀ s, J' s → J s)
    (hq : ∀ t s a, J' s → Q t s a → R t s (g a)) (h : Safe D J X Q p t s) :
    Safe D' J' X R (Prog.bind p fun a => ret (g a)) t s := by
  induction p generalizing t s with
  | ret a => exact fun s' hr hj => hq _ _ _ hj (h s' (hD _ _ _ hr) (hJ _ hj))
  | throw e => exact h
  | select next ih => exact fun s' hr hj => ih _ (h s' (hD _ _ _ hr) (hJ _ hj))
  | lock k next ih => exact fun s' hr hj => ih (h s' (hD _ _ _ hr) (hJ _ hj))
  | write w next ih =>
    intro s' hr hj
    have h' := h s' (hD _ _ _ hr) (hJ _ hj)
    exact ⟨fun hh => ih _ (h'.1 hh), fun hh => ih _ (h'.2 hh)⟩
  | fresh next ih => exact fun s' hr hj i ha hk => ih _ (h s' (hD _ _ _ hr) (hJ _ hj) i ha hk)

theorem Safe.map {R : Tx S K W → S → B → Prop} {g : A → B} (h : Safe D J X Q p t s)
    (hq : ∀ t s a, J s → Q t s a → R t s (g a)) : Safe D J X R (Prog.bind p fun a => ret (g a)) t s :=
  h.consequence (fun _ _ _ hr => hr) (fun _ hj => hj) hq

theorem Safe.weaken {D' : Discipline S K W} {J' : S → Prop} (hD : ∀ held s s', D'.rely held s s' → D.rely held s s')
    (hJ : ∀ s, J' s → J s) (hq : ∀ t s a, J' s → Q t s a → Q' t s a) (h : Safe D J X Q p t s) :
    Safe D' J' X Q' p t s := by
  have hmap := h.consequence (g := id) hD hJ hq
  have hid : (fun a : A => (ret (id a) : Prog S K W E A)) = ret := rfl
  rwa [hid, Prog.bind_ret] at hmap

theorem Safe.mono (h : Safe D J X Q p t s) (hq : ∀ t s a, J s → Q t s a → Q' t s a) : Safe D J X Q' p t s :=
  h.weaken (fun _ _ _ hr => hr) (fun _ hj => hj) hq

/-- Two postconditions of one program hold together. -/
theorem Safe.and (h : Safe D J X Q p t s) (h' : Safe D J X Q' p t s) :
    Safe D J X (fun t s a => Q t s a ∧ Q' t s a) p t s := by
  induction p generalizing t s with
  | ret a => exact fun s' hr hj => ⟨h s' hr hj, h' s' hr hj⟩
  | throw e => exact h
  | select next ih => exact fun s' hr hj => ih _ (h s' hr hj) (h' s' hr hj)
  | lock k next ih => exact fun s' hr hj => ih (h s' hr hj) (h' s' hr hj)
  | write w next ih =>
    exact fun s' hr hj => ⟨fun hh => ih _ ((h s' hr hj).1 hh) ((h' s' hr hj).1 hh),
      fun hh => ih _ ((h s' hr hj).2 hh) ((h' s' hr hj).2 hh)⟩
  | fresh next ih =>
    exact fun s' hr hj i ha hk => ih _ (h s' hr hj i ha hk) (h' s' hr hj i ha hk)

/-- A fact that the held keys protect may be assumed of every later committed store. -/
theorem Safe.keep (φ : S → Prop) (held : List K) (hh : held ⊆ t.held)
    (hφ : ∀ s s', D.rely held s s' → J s → J s' → φ s → φ s') (hj : J s) (h₀ : φ s)
    (h : Safe D (fun s => J s ∧ φ s) X Q p t s) : Safe D J X Q p t s := by
  have later : ∀ {t : Tx S K W} {s s'}, held ⊆ t.held → J s → φ s → D.rely t.held s s' → J s' →
      φ s' := fun hh hj h₀ hr hj' => hφ _ _ (D.mono hh hr) hj hj' h₀
  induction p generalizing t s with
  | ret a => exact fun s' hr hj' => h s' hr ⟨hj', later hh hj h₀ hr hj'⟩
  | throw e => exact h
  | select next ih =>
    intro s' hr hj'
    have h' := later hh hj h₀ hr hj'
    exact ih _ (by simpa using hh) hj' h' (h s' hr ⟨hj', h'⟩)
  | lock k next ih =>
    intro s' hr hj'
    have h' := later hh hj h₀ hr hj'
    exact ih (fun _ hk => List.mem_cons_of_mem _ (hh hk)) hj' h' (h s' hr ⟨hj', h'⟩)
  | write w next ih =>
    intro s' hr hj'
    have h' := later hh hj h₀ hr hj'
    have hs := h s' hr ⟨hj', h'⟩
    exact ⟨fun hw => ih _ (fun _ hk => List.mem_append_right _ (hh hk)) hj' h' (hs.1 hw),
      fun hw => ih _ hh hj' h' (hs.2 hw)⟩
  | fresh next ih =>
    intro s' hr hj' i ha hk
    have h' := later hh hj h₀ hr hj'
    exact ih i (fun _ hk => List.mem_cons_of_mem _ (hh hk)) hj' h' (h s' hr ⟨hj', h'⟩ i ha hk)

/-- What one held key protects stays as it was found. -/
theorem Safe.keepAt {α : Type} {φ : S → α} {a : α} {k : K} (hk : k ∈ t.held)
    (hφ : ∀ held s s', k ∈ held → D.rely held s s' → φ s' = φ s) (hj : J s) (ha : φ s = a)
    (h : Safe D (fun s => J s ∧ φ s = a) X Q p t s) : Safe D J X Q p t s :=
  Safe.keep (fun s => φ s = a) [k] (List.cons_subset.2 ⟨hk, List.nil_subset _⟩)
    (fun _ _ hr _ _ h => (hφ _ _ _ List.mem_cons_self hr).trans h) hj ha h

/-- Once the held keys keep everything still, the rest runs as if alone. -/
theorem Safe.still (hstill : ∀ s', D.rely t.held s s' → s' = s) (h : Safe Discipline.serial J X Q p t s) :
    Safe D J X Q p t s := by
  have later : ∀ {t t' : Tx S K W}, t.held ⊆ t'.held → (∀ s', D.rely t.held s s' → s' = s) →
      ∀ s', D.rely t'.held s s' → s' = s := fun hh hs s' hr => hs s' (D.mono hh hr)
  induction p generalizing t with
  | ret a =>
    intro s' hr hj
    exact h s' (hstill s' hr) hj
  | throw e => exact h
  | select next ih =>
    intro s' hr hj
    obtain rfl := hstill s' hr
    exact ih _ (later (by simp) hstill) (h s' rfl hj)
  | lock k next ih =>
    intro s' hr hj
    obtain rfl := hstill s' hr
    exact ih (later (List.subset_cons_self _ _) hstill) (h s' rfl hj)
  | write w next ih =>
    intro s' hr hj
    obtain rfl := hstill s' hr
    have hs := h s' rfl hj
    exact ⟨fun hw => ih _ (later (List.subset_append_right _ _) hstill) (hs.1 hw),
      fun hw => ih _ hstill (hs.2 hw)⟩
  | fresh next ih =>
    intro s' hr hj i ha hk
    obtain rfl := hstill s' hr
    exact ih i (later (List.subset_cons_self _ _) hstill) (h s' rfl hj i ha hk)

/-- A loop keeps what each round keeps, as long as the others leave it alone. -/
theorem Safe.forEach {I : Tx S K W → S → Prop} {body : A → Prog S K W E Unit} {l : List A}
    (stable : ∀ t s s', D.rely t.held s s' → J s' → I t s → I t s')
    (round : ∀ a ∈ l, ∀ t s, J s → I t s → Safe D J X (fun t s _ => I t s) (body a) t s) (hj : J s) (h : I t s) :
    Safe D J X (fun t s _ => I t s) (Prog.forEach body l) t s := by
  induction l generalizing t s with
  | nil => exact fun s' hr hj' => stable t s s' hr hj' h
  | cons a l ih =>
    refine Safe.bind hj ((round a List.mem_cons_self t s hj h).mono fun t' s' _ hj' h' => ?_)
    exact ih (fun b hb => round b (List.mem_cons_of_mem a hb)) hj' h'

/-! ## Writes that respect the locks -/

/-- More keys never hurt. -/
def HeldMono (P : List K → W → Prop) : Prop := ∀ h h' w, h ⊆ h' → P h w → P h' w

/-- `P held w` holds of every write of the program, `held` being the keys held once it is
made. -/
def EachWrite (P : List K → W → Prop) : Prog S K W E A → List K → Prop
  | ret _, _ => True
  | throw _, _ => True
  | select next, held => ∀ s, EachWrite P (next s) held
  | lock k next, held => EachWrite P next (k :: held)
  | write w next, held =>
      P (Relational.keys S w ++ held) w ∧
      EachWrite P (next true) (Relational.keys S w ++ held) ∧
      EachWrite P (next false) held
  | fresh next, held => ∀ i, EachWrite P (next i) (Relational.rowKey S i :: held)

variable {P : List K → W → Prop} {held held' : List K}

theorem EachWrite.mono_held (hP : HeldMono P) (hs : held ⊆ held') (h : EachWrite P p held) : EachWrite P p held' := by
  induction p generalizing held held' with
  | ret a => trivial
  | throw e => trivial
  | select next ih => exact fun s => ih s hs (h s)
  | lock k next ih => exact ih (List.cons_subset_cons k hs) h
  | write w next ih =>
    have hs' : Relational.keys S w ++ held ⊆ Relational.keys S w ++ held' :=
      List.append_subset.2 ⟨List.subset_append_left _ _, fun k hk => List.subset_append_right _ _ (hs hk)⟩
    exact ⟨hP _ _ _ hs' h.1, ih _ hs' h.2.1, ih _ hs h.2.2⟩
  | fresh next ih => exact fun i => ih i (List.cons_subset_cons _ hs) (h i)

theorem EachWrite.bind (hP : HeldMono P) (h : EachWrite P p held) (hf : ∀ a, EachWrite P (f a) held) :
    EachWrite P (Prog.bind p f) held := by
  induction p generalizing held with
  | ret a => exact hf a
  | throw e => trivial
  | select next ih => exact fun s => ih s (h s) hf
  | lock k next ih =>
    exact ih h fun a => (hf a).mono_held hP (List.subset_cons_self k held)
  | write w next ih =>
    have hs := List.subset_append_right (Relational.keys S w) held
    exact ⟨h.1, ih _ h.2.1 fun a => (hf a).mono_held hP hs, ih _ h.2.2 hf⟩
  | fresh next ih =>
    exact fun i => ih i (h i) fun a => (hf a).mono_held hP (List.subset_cons_self _ held)

theorem EachWrite.forEach (hP : HeldMono P) {body : A → Prog S K W E Unit}
    (l : List A) (h : ∀ a, EachWrite P (body a) held) : EachWrite P (Prog.forEach body l) held := by
  induction l with
  | nil => trivial
  | cons a l ih => exact EachWrite.bind hP (h a) fun _ => ih

theorem EachWrite.tryCatch (hP : HeldMono P) {handler : E → Prog S K W E A} (h : EachWrite P p held)
    (hh : ∀ e, EachWrite P (handler e) held) : EachWrite P (Prog.tryCatch handler p) held := by
  induction p generalizing held with
  | ret a => trivial
  | throw e => exact hh e
  | select next ih => exact fun s => ih s (h s) hh
  | lock k next ih =>
    exact ih h fun e => (hh e).mono_held hP (List.subset_cons_self k held)
  | write w next ih =>
    have hs := List.subset_append_right (Relational.keys S w) held
    exact ⟨h.1, ih _ h.2.1 fun e => (hh e).mono_held hP hs, ih _ h.2.2 hh⟩
  | fresh next ih =>
    exact fun i => ih i (h i) fun e => (hh e).mono_held hP (List.subset_cons_self _ held)

/-- A property of the writes of the program is a property of the commit. -/
theorem Safe.of_eachWrite (hP : HeldMono P)
    (h : EachWrite P p t.held) (hX : ∀ e, X e) (ht : ∀ w ∈ t.writes, P t.held w) :
    Safe D J X (fun t _ _ => ∀ w ∈ t.writes, P t.held w) p t s := by
  induction p generalizing t s with
  | ret a => exact fun s' _ _ => ht
  | throw e => exact hX e
  | select next ih => exact fun s' _ _ => ih _ (h _) ht
  | lock k next ih =>
    exact fun s' _ _ => ih h fun w hw => hP _ _ _ (List.subset_cons_self k t.held) (ht w hw)
  | write w next ih =>
    refine fun s' _ _ => ⟨fun _ => ih _ h.2.1 ?_, fun _ => ih _ h.2.2 ht⟩
    intro w' hw'
    rcases List.mem_append.1 hw' with hw' | hw'
    · exact hP _ _ _ (List.subset_append_right _ _) (ht w' hw')
    · rw [List.mem_singleton.1 hw']
      exact h.1
  | fresh next ih =>
    exact fun s' _ _ i _ _ =>
      ih _ (h i) fun w hw => hP _ _ _ (List.subset_cons_self _ t.held) (ht w hw)

/-- What a transaction has written it holds. -/
theorem EachWrite.keys (p : Prog S K W E A) (held : List K) :
    EachWrite (fun held (w : W) => Relational.keys S w ⊆ held) p held := by
  induction p generalizing held with
  | ret a => trivial
  | throw e => trivial
  | select next ih => exact fun s => ih s held
  | lock k next ih => exact ih _
  | write w next ih => exact ⟨List.subset_append_left _ _, ih _ _, ih _ _⟩
  | fresh next ih => exact fun i => ih i _

/-- One postcondition for free: the rows that were written are held. -/
theorem Safe.withKeys (h : Safe D J X Q p Tx.start s) (hX : ∀ e, X e) :
    Safe D J X (fun t s a => Q t s a ∧ ∀ w ∈ t.writes, Relational.keys S w ⊆ t.held) p Tx.start s := by
  have hmono : HeldMono fun held (w : W) => Relational.keys S w ⊆ held := fun _ _ _ hs h _ hk => hs (h hk)
  exact h.and (Safe.of_eachWrite (t := Tx.start) hmono (EachWrite.keys p []) hX
    fun _ hw => absurd hw List.not_mem_nil)

/-! ### One statement, then the rest -/

section

variable {Q : Tx S K W → S → B → Prop} {g : S → A}

theorem Safe.query (h : ∀ s', D.rely t.held s s' → J s' → Safe D J X Q (f (g (t.view s'))) (t.saw s') s') :
    Safe D J X Q (Prog.bind (Prog.query g) f) t s := h

/-- What was read stays on record: every later store has come from that one. -/
theorem Safe.querySince (h : ∀ s', D.rely t.held s s' → J s' →
      Safe D (fun s'' => J s'' ∧ D.rely t.held s' s'') X Q (f (g (t.view s'))) (t.saw s') s') :
    Safe D J X Q (Prog.bind (Prog.query g) f) t s := by
  refine Safe.query fun s' hr hj => ?_
  exact Safe.keep (fun s'' => D.rely t.held s' s'') t.held (List.Subset.refl _)
    (fun _ _ hr' _ _ h => D.trans h hr') hj (D.refl _ _) (h s' hr hj)

theorem Safe.acquire {k : K} {f : Unit → Prog S K W E B}
    (h : ∀ s', D.rely t.held s s' → J s' → Safe D J X Q (f ()) (t.locked k) s') :
    Safe D J X Q (Prog.bind (Prog.acquire k) f) t s := h

theorem Safe.update {w : W} {f : Bool → Prog S K W E B}
    (hit : ∀ s', D.rely t.held s s' → J s' → Relational.hit (t.view s') w = true →
      Safe D J X Q (f true) (t.wrote w) s')
    (miss : ∀ s', D.rely t.held s s' → J s' → Relational.hit (t.view s') w = false → Safe D J X Q (f false) t s') :
    Safe D J X Q (Prog.bind (Prog.update w) f) t s :=
  fun s' hr hj => ⟨hit s' hr hj, miss s' hr hj⟩

theorem Safe.uuid {f : Nat → Prog S K W E B}
    (h : ∀ s' i, D.rely t.held s s' → J s' → Relational.absent (t.view s') i = true → Relational.rowKey S i ∉ t.held →
      Safe D J X Q (f i) (t.locked (Relational.rowKey S i)) s') : Safe D J X Q (Prog.bind Prog.uuid f) t s :=
  fun s' hr hj i ha hk => h s' i hr hj ha hk

/-- The end of a program. -/
theorem Safe.pure {Q : Tx S K W → S → A → Prop} {a : A}
    (h : ∀ s', D.rely t.held s s' → J s' → Q t s' a) : Safe D J X Q (ret a) t s := h

theorem Safe.pure_bind {a : A} (h : Safe D J X Q (f a) t s) : Safe D J X Q (Prog.bind (ret a) f) t s := h

end

/-- Every write of the program satisfies `P`. -/
def OnlyWrites (P : W → Prop) : Prog S K W E A → Prop
  | ret _ => True
  | throw _ => True
  | select next => ∀ s, OnlyWrites P (next s)
  | lock _ next => OnlyWrites P next
  | write w next => P w ∧ ∀ b, OnlyWrites P (next b)
  | fresh next => ∀ i, OnlyWrites P (next i)

variable {P : W → Prop}

omit [Relational S K W] in
theorem OnlyWrites.bind (h : OnlyWrites P p) (hf : ∀ a, OnlyWrites P (f a)) : OnlyWrites P (Prog.bind p f) := by
  induction p with
  | ret a => exact hf a
  | throw e => trivial
  | select next ih => exact fun s => ih s (h s)
  | lock k next ih => exact ih h
  | write w next ih => exact ⟨h.1, fun b => ih b (h.2 b)⟩
  | fresh next ih => exact fun i => ih i (h i)

omit [Relational S K W] in
theorem OnlyWrites.query {g : S → A} (h : ∀ a, OnlyWrites P (f a)) :
    OnlyWrites P (Prog.bind (Prog.query g) f) := fun s => h (g s)

omit [Relational S K W] in
theorem OnlyWrites.tryCatch {handler : E → Prog S K W E A} (h : OnlyWrites P p) (hh : ∀ e, OnlyWrites P (handler e)) :
    OnlyWrites P (Prog.tryCatch handler p) := by
  induction p with
  | ret a => trivial
  | throw e => exact hh e
  | select next ih => exact fun s => ih s (h s)
  | lock k next ih => exact ih h
  | write w next ih => exact ⟨h.1, fun b => ih b (h.2 b)⟩
  | fresh next ih => exact fun i => ih i (h i)

/-- Writes that are fine whatever is held. -/
theorem OnlyWrites.eachWrite {P' : List K → W → Prop} (hP : ∀ held w, P w → P' (Relational.keys S w ++ held) w)
    (h : OnlyWrites P p) : EachWrite P' p held := by
  induction p generalizing held with
  | ret a => trivial
  | throw e => trivial
  | select next ih => exact fun s => ih s (h s)
  | lock k next ih => exact ih h
  | write w next ih => exact ⟨hP held w h.1, ih _ (h.2 true), ih _ (h.2 false)⟩
  | fresh next ih => exact fun i => ih i (h i)

omit [Relational S K W] in
theorem OnlyWrites.forEach {body : A → Prog S K W E Unit} (l : List A)
    (h : ∀ a ∈ l, OnlyWrites P (body a)) : OnlyWrites P (Prog.forEach body l) := by
  induction l with
  | nil => trivial
  | cons a l ih =>
    exact (h a List.mem_cons_self).bind fun _ => ih fun b hb => h b (List.mem_cons_of_mem _ hb)

omit [Relational S K W] in
theorem OnlyWrites.mono {P' : W → Prop} (hP : ∀ w, P w → P' w) (h : OnlyWrites P p) : OnlyWrites P' p := by
  induction p with
  | ret a => trivial
  | throw e => trivial
  | select next ih => exact fun s => ih s (h s)
  | lock k next ih => exact ih h
  | write w next ih => exact ⟨hP _ h.1, fun b => ih b (h.2 b)⟩
  | fresh next ih => exact fun i => ih i (h i)

/-- A part whose writes are all `P`, followed by the rest: the rest runs in a transaction
that `Extends` this one, in a store that has moved only as the held keys allow. -/
theorem Safe.bind_frame {Q : Tx S K W → S → B → Prop} (h : OnlyWrites P p) (hX : ∀ e, X e) (hj : J s)
    (hf : ∀ a t' s', Tx.Extends P t t' → D.rely t.held s s' → J s' →
      Safe D J X Q (f a) t' s') : Safe D J X Q (Prog.bind p f) t s := by
  suffices H : ∀ t₀ s₀, Tx.Extends P t t₀ → D.rely t.held s s₀ → J s₀ →
      Safe D J X Q (Prog.bind p f) t₀ s₀ from H t s (.refl t) (D.refl _ _) hj
  induction p with
  | ret a => exact fun t₀ s₀ he hr hj => hf a t₀ s₀ he hr hj
  | throw e => exact fun _ _ _ _ _ => hX e
  | select next ih =>
    intro t₀ s₀ he hr hj s' hr' hj'
    exact ih _ (h _) _ _ (he.saw s') (D.trans hr (D.mono he.held hr')) hj'
  | lock k next ih =>
    intro t₀ s₀ he hr hj s' hr' hj'
    exact ih h _ _ (he.locked k) (D.trans hr (D.mono he.held hr')) hj'
  | write w next ih =>
    intro t₀ s₀ he hr hj s' hr' hj'
    have hr₂ := D.trans hr (D.mono he.held hr')
    exact ⟨fun _ => ih _ (h.2 true) _ _ (he.wrote h.1) hr₂ hj',
      fun _ => ih _ (h.2 false) _ _ he hr₂ hj'⟩
  | fresh next ih =>
    intro t₀ s₀ he hr hj s' hr' hj' i _ _
    exact ih i (h i) _ _ (he.locked _) (D.trans hr (D.mono he.held hr')) hj'

/-- The same with nothing after it. -/
theorem Safe.of_onlyWrites (h : OnlyWrites P p) (hX : ∀ e, X e) (hj : J s) :
    Safe D J X (fun t' s' _ => Tx.Extends P t t' ∧ D.rely t.held s s') p t s := by
  have : Safe D J X (fun t' s' _ => Tx.Extends P t t' ∧ D.rely t.held s s') (Prog.bind p ret) t s :=
    Safe.bind_frame h hX hj fun a t' s' he hr hj' s'' hr' _ =>
      ⟨he, D.trans hr (D.mono he.held hr')⟩
  rwa [Prog.bind_ret] at this

end Prog

/-- The keys a write leaves to others: it moves the store as anyone else allows. -/
def Discipline.Respects (D : Discipline S K W) (held : List K) (w : W) : Prop :=
  ∀ held', List.Disjoint held held' → ∀ s, D.rely held' s (Relational.apply s w)

/-- A transaction whose writes all respect the locks keeps the discipline. -/
theorem Discipline.guarantee_of_respects {D : Discipline S K W} {t : Tx S K W}
    (h : ∀ w ∈ t.writes, D.Respects t.held w) (s : S) : D.Guarantee t s := by
  intro held hd
  unfold Tx.view
  generalize t.writes = ws at h
  induction ws generalizing s with
  | nil => exact D.refl _ _
  | cons w ws ih =>
    exact D.trans (h w List.mem_cons_self held hd s)
      (ih (Relational.apply s w) fun w' hw' => h w' (List.mem_cons_of_mem w hw'))

end Transactions
