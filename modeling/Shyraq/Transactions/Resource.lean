import Shyraq.Transactions.Scripts

/-!
# A lock that owns the outer store

Requests that send commands only while they hold one key: the commands of two of them never mix.
`Resource` says what holds of the outer store and of the commands sent so far while the key is free,
and what a request may leave unfinished in between.
-/

namespace Transactions

variable {S K W E X C R Op A B : Type}

structure Resource (Op X C R : Type) [Outer X C R] where
  /-- The store and the commands so far, while nobody holds the key. -/
  inv : X → List (Op × C × R) → Prop
  /-- The commands so far, at any time. -/
  safe : List (Op × C × R) → Prop
  /-- After these commands the request has nothing to finish. -/
  clean : Op → List (C × R) → Prop
  inv_safe : ∀ {x tr}, inv x tr → safe tr
  inv_pass : ∀ {x tr} (d : Nat), inv x tr → inv (Outer.pass x d) tr

variable [Outer X C R]

/-- In the middle of a request that holds the key. -/
structure Resource.Mid (ρ : Resource Op X C R) (op : Op) (x : X) (tr : List (Op × C × R)) (cs : List (C × R)) :
    Prop where
  safe : ρ.safe tr
  inv : ρ.clean op cs → ρ.inv x tr

theorem Resource.Mid.of_inv {ρ : Resource Op X C R} {op : Op} {x : X} {tr : List (Op × C × R)} {cs : List (C × R)}
    (h : ρ.inv x tr) : ρ.Mid op x tr cs := ⟨ρ.inv_safe h, fun _ => h⟩

theorem Resource.Mid.pass {ρ : Resource Op X C R} {op : Op} {x : X} {tr : List (Op × C × R)} {cs : List (C × R)}
    (h : ρ.Mid op x tr cs) (d : Nat) : ρ.Mid op (Outer.pass x d) tr cs :=
  ⟨h.safe, fun hc => ρ.inv_pass d (h.inv hc)⟩

namespace Script

/-- The rest of a request that holds the key and has sent `cs`. -/
def Inside (ρ : Resource Op X C R) (op : Op) :
    Script S K W E C R A → X → List (Op × C × R) → List (C × R) → Prop
  | ret _, x, tr, _ => ρ.inv x tr
  | throw _, x, tr, _ => ρ.inv x tr
  | select next, x, tr, cs => ρ.Mid op x tr cs ∧ ∀ s, Inside ρ op (next s) x tr cs
  | lock _ next, x, tr, cs => ρ.Mid op x tr cs ∧ Inside ρ op next x tr cs
  | write _ next, x, tr, cs => ρ.Mid op x tr cs ∧ ∀ b, Inside ρ op (next b) x tr cs
  | fresh next, x, tr, cs => ρ.Mid op x tr cs ∧ ∀ i, Inside ρ op (next i) x tr cs
  | call c next, x, tr, cs => ρ.Mid op x tr cs ∧ ∀ d,
      Inside ρ op (next (Outer.exec (Outer.pass x d) c).2) (Outer.exec (Outer.pass x d) c).1
        (tr ++ [(op, c, (Outer.exec (Outer.pass x d) c).2)]) (cs ++ [(c, (Outer.exec (Outer.pass x d) c).2)])

/-- A request that does not hold the key yet: it sends nothing. -/
def Outside [Relational S K W] [DecidableEq K] (ρ : Resource Op X C R) (k : K) (op : Op) : Script S K W E C R A → Prop
  | ret _ => True
  | throw _ => True
  | select next => ∀ s, Outside ρ k op (next s)
  | lock k' next => if k' = k then ∀ x tr, ρ.inv x tr → Inside ρ op next x tr [] else Outside ρ k op next
  | write w next => k ∉ Relational.keys S w ∧ ∀ b, Outside ρ k op (next b)
  | fresh next => ∀ i, Relational.rowKey S i ≠ k ∧ Outside ρ k op (next i)
  | call _ _ => False

variable {ρ : Resource Op X C R} {op : Op} {p : Script S K W E C R A} {x : X} {tr : List (Op × C × R)}
  {cs : List (C × R)}

theorem Inside.mid (h : Inside ρ op p x tr cs) : ρ.Mid op x tr cs := by
  cases p with
  | ret a => exact .of_inv h
  | throw e => exact .of_inv h
  | select next => exact h.1
  | lock k next => exact h.1
  | write w next => exact h.1
  | fresh next => exact h.1
  | call c next => exact h.1

/-- Time may pass at any point. -/
theorem Inside.pass (h : Inside ρ op p x tr cs) (d : Nat) : Inside ρ op p (Outer.pass x d) tr cs := by
  induction p with
  | ret a => exact ρ.inv_pass d h
  | throw e => exact ρ.inv_pass d h
  | select next ih => exact ⟨h.1.pass d, fun s => ih s (h.2 s)⟩
  | lock k next ih => exact ⟨h.1.pass d, ih h.2⟩
  | write w next ih => exact ⟨h.1.pass d, fun b => ih b (h.2 b)⟩
  | fresh next ih => exact ⟨h.1.pass d, fun i => ih i (h.2 i)⟩
  | call c next =>
    refine ⟨h.1.pass d, fun d' => ?_⟩
    have h' := h.2 (d + d')
    rw [← Outer.pass_pass] at h'
    exact h'

theorem Inside.send {c : C} {f : R → Script S K W E C R B} (hmid : ρ.Mid op x tr cs)
    (h : ∀ d, Inside ρ op (f (Outer.exec (Outer.pass x d) c).2) (Outer.exec (Outer.pass x d) c).1
      (tr ++ [(op, c, (Outer.exec (Outer.pass x d) c).2)]) (cs ++ [(c, (Outer.exec (Outer.pass x d) c).2)])) :
    Inside ρ op (bind (Script.send c) f : Script S K W E C R B) x tr cs := ⟨hmid, h⟩

/-- Statements leave the outer store alone; what they may break off must be finished. -/
theorem Inside.lift {q : Prog S K W E A} {f : A → Script S K W E C R B} (hinv : ρ.inv x tr)
    (h : ∀ a, Inside ρ op (f a) x tr cs) : Inside ρ op (bind (lift q) f) x tr cs := by
  induction q with
  | ret a => exact h a
  | throw e => exact hinv
  | select next ih => exact ⟨.of_inv hinv, fun s => ih s⟩
  | lock k next ih => exact ⟨.of_inv hinv, ih⟩
  | write w next ih => exact ⟨.of_inv hinv, fun b => ih b⟩
  | fresh next ih => exact ⟨.of_inv hinv, fun i => ih i⟩

section

variable [Relational S K W] [DecidableEq K] {k : K}

/-- A program that starts with the key. -/
theorem Outside.lock {q : Prog S K W E A} {f : A → Script S K W E C R B}
    (h : ∀ a x tr, ρ.inv x tr → Inside ρ op (f a) x tr []) : Outside ρ k op (bind (lift (.lock k q)) f) := by
  show (if k = k then _ else _)
  rw [if_pos rfl]
  exact fun x tr hinv => Inside.lift hinv fun a => h a x tr hinv

theorem Outside.require {o : Option A} {e : E} {f : A → Script S K W E C R B} (h : ∀ a, Outside ρ k op (f a)) :
    Outside ρ k op (bind (lift (Prog.require o e)) f) := by
  cases o with
  | none => trivial
  | some a => exact h a

end

end Script

/-! ## The system -/

namespace Scripts

variable [Relational S K W] [DecidableEq K] {n : Nat} {ρ : Resource Op X C R} {k : K}
  {prog : Op → Script S K W E C R A} {σ σ' : Scripts S K W E X C R Op A n} {i : Fin n}

/-- Only one request at a time is in the middle of the outer store. -/
structure Guarded (ρ : Resource Op X C R) (k : K) (σ : Scripts S K W E X C R Op A n) : Prop where
  outside : ∀ {i u}, σ.sessions i = some u → k ∉ u.tx.held → u.prog.Outside ρ k u.op ∧ u.calls = []
  inside : ∀ {i u}, σ.sessions i = some u → k ∈ u.tx.held → u.prog.Inside ρ u.op σ.outer σ.trace u.calls
  one : ∀ {i j u v}, σ.sessions i = some u → σ.sessions j = some v → k ∈ u.tx.held → k ∈ v.tx.held → i = j
  free : (∀ i u, σ.sessions i = some u → k ∉ u.tx.held) → ρ.inv σ.outer σ.trace

/-- A request that is cut off while it holds the key has nothing to finish. -/
def Finishes (ρ : Resource Op X C R) (k : K) (σ : Scripts S K W E X C R Op A n) : Event Op n → Prop
  | .kill i => ∀ u, σ.sessions i = some u → k ∈ u.tx.held → ρ.clean u.op u.calls
  | _ => True

omit [DecidableEq K] [Relational S K W] in
theorem finishes_kill (u : Scripted S K W E C R Op A) (h : σ.sessions i = some u) :
    Finishes ρ k σ (.kill i) ↔ (k ∈ u.tx.held → ρ.clean u.op u.calls) := by
  constructor
  · exact fun hf => hf u h
  · rintro hf v hv
    obtain rfl := Option.some.inj (h.symm.trans hv)
    exact hf

instance [∀ op cs, Decidable (ρ.clean op cs)] (σ : Scripts S K W E X C R Op A n) :
    ∀ c, Decidable (Finishes ρ k σ c)
  | .kill i =>
      match h : σ.sessions i with
      | none => .isTrue fun u hu => by rw [h] at hu; cases hu
      | some u => decidable_of_iff _ (finishes_kill u h).symm
  | .start .. => .isTrue trivial
  | .step .. => .isTrue trivial
  | .pass _ => .isTrue trivial

omit [Relational S K W] [Outer X C R] in
theorem not_held_of_not_blocked (h : σ.blocked i k = false) {j : Fin n} (hj : j ≠ i)
    {u : Scripted S K W E C R Op A} (hu : σ.sessions j = some u) : k ∉ u.tx.held := by
  intro hk
  have hb : σ.blocked i k = true := by
    unfold blocked
    refine List.any_eq_true.2 ⟨j, List.mem_finRange j, ?_⟩
    simp only [hu, Option.map_some, Option.getD_some, decide_eq_true hk, Bool.and_true, bne_iff_ne, ne_eq]
    exact hj
  rw [h] at hb
  cases hb

theorem Guarded.safe (h : Guarded ρ k σ) : ρ.safe σ.trace := by
  by_cases hheld : ∃ i u, σ.sessions i = some u ∧ k ∈ u.tx.held
  · obtain ⟨i, u, hu, hk⟩ := hheld
    exact (h.inside hu hk).mid.safe
  · refine ρ.inv_safe (h.free fun i u hu hk => hheld ⟨i, u, hu, hk⟩)

section

variable {t : Option (Scripted S K W E C R Op A)}

/-- Session `i` does not hold the key, before or after. -/
theorem Guarded.outside_step (h : Guarded ρ k σ) (hs : σ'.sessions = Function.update σ.sessions i t)
    (hx : σ'.outer = σ.outer) (htr : σ'.trace = σ.trace) (hi : ∀ u, σ.sessions i = some u → k ∉ u.tx.held)
    (ht : ∀ v, t = some v → k ∉ v.tx.held ∧ v.prog.Outside ρ k v.op ∧ v.calls = []) : Guarded ρ k σ' := by
  have hothers : ∀ {j v}, σ'.sessions j = some v → k ∈ v.tx.held → j ≠ i ∧ σ.sessions j = some v := by
    intro j v hv hk
    rw [hs] at hv
    by_cases hj : j = i
    · subst hj
      rw [Function.update_self] at hv
      exact absurd hk (ht v hv).1
    · rw [Function.update_of_ne hj] at hv
      exact ⟨hj, hv⟩
  refine ⟨fun {j v} hv hk => ?_, fun {j v} hv hk => ?_, fun {j j' u v} hu hv hku hkv => ?_, fun hfree => ?_⟩
  · rw [hs] at hv
    by_cases hj : j = i
    · subst hj
      rw [Function.update_self] at hv
      exact (ht v hv).2
    · rw [Function.update_of_ne hj] at hv
      exact h.outside hv hk
  · rw [hx, htr]
    exact h.inside (hothers hv hk).2 hk
  · exact h.one (hothers hu hku).2 (hothers hv hkv).2 hku hkv
  · rw [hx, htr]
    refine h.free fun j u hu hk => ?_
    by_cases hj : j = i
    · subst hj
      exact hi u hu hk
    · refine hfree j u ?_ hk
      rw [hs, Function.update_of_ne hj]
      exact hu

/-- Session `i` goes on holding the key, and nobody else does. -/
theorem Guarded.inside_step (h : Guarded ρ k σ) {v : Scripted S K W E C R Op A}
    (hs : σ'.sessions = Function.update σ.sessions i (some v))
    (hothers : ∀ j u, j ≠ i → σ.sessions j = some u → k ∉ u.tx.held) (hk : k ∈ v.tx.held)
    (hv : v.prog.Inside ρ v.op σ'.outer σ'.trace v.calls) : Guarded ρ k σ' := by
  have hself : σ'.sessions i = some v := by rw [hs, Function.update_self]
  have hne : ∀ {j u}, σ'.sessions j = some u → j ≠ i → σ.sessions j = some u := by
    intro j u hu hj
    rw [hs, Function.update_of_ne hj] at hu
    exact hu
  have hone : ∀ {j u}, σ'.sessions j = some u → k ∈ u.tx.held → j = i := by
    intro j u hu hku
    by_contra hj
    exact hothers j u hj (hne hu hj) hku
  refine ⟨fun {j u} hu hku => ?_, fun {j u} hu hku => ?_, fun {j j' u u'} hu hu' hku hku' => ?_, fun hfree => ?_⟩
  · refine h.outside (hne hu fun hj => ?_) hku
    subst hj
    rw [hself] at hu
    cases hu
    exact hku hk
  · obtain rfl := hone hu hku
    rw [hself] at hu
    cases hu
    exact hv
  · exact (hone hu hku).trans (hone hu' hku').symm
  · exact absurd hk (hfree i v hself)

/-- Session `i` is the last to have held the key, and gives it up. -/
theorem Guarded.leave (h : Guarded ρ k σ) (hs : σ'.sessions = Function.update σ.sessions i none)
    (hothers : ∀ j u, j ≠ i → σ.sessions j = some u → k ∉ u.tx.held) (hinv : ρ.inv σ'.outer σ'.trace) :
    Guarded ρ k σ' := by
  have hne : ∀ {j u}, σ'.sessions j = some u → j ≠ i ∧ σ.sessions j = some u := by
    intro j u hu
    rw [hs] at hu
    by_cases hj : j = i
    · subst hj
      rw [Function.update_self] at hu
      cases hu
    · rw [Function.update_of_ne hj] at hu
      exact ⟨hj, hu⟩
  refine ⟨fun hu hku => h.outside (hne hu).2 hku, fun {j u} hu hku => ?_, fun {j j' u u'} hu _ hku _ => ?_,
    fun _ => hinv⟩
  · exact absurd hku (hothers j u (hne hu).1 (hne hu).2)
  · exact absurd hku (hothers j u (hne hu).1 (hne hu).2)

theorem Guarded.others (h : Guarded ρ k σ) {u : Scripted S K W E C R Op A} (hu : σ.sessions i = some u)
    (hk : k ∈ u.tx.held) : ∀ j v, j ≠ i → σ.sessions j = some v → k ∉ v.tx.held :=
  fun _ _ hj hv hkv => hj (h.one hv hu hkv hk)

/-- A session that ends: it holds the key and leaves the invariant behind, or it never had it. -/
theorem Guarded.end_ (h : Guarded ρ k σ) {u : Scripted S K W E C R Op A} (hu : σ.sessions i = some u)
    (hs : σ'.sessions = Function.update σ.sessions i none) (hx : σ'.outer = σ.outer) (htr : σ'.trace = σ.trace)
    (hinv : k ∈ u.tx.held → ρ.inv σ.outer σ.trace) : Guarded ρ k σ' := by
  by_cases hk : k ∈ u.tx.held
  · refine h.leave hs (h.others hu hk) ?_
    rw [hx, htr]
    exact hinv hk
  · refine h.outside_step hs hx htr (fun v hv => ?_) fun v hv => by cases hv
    rw [hu] at hv
    cases hv
    exact hk

/-- A statement after which the session holds the same key or does not hold it still. -/
theorem Guarded.go_on (h : Guarded ρ k σ) {u v : Scripted S K W E C R Op A} (hu : σ.sessions i = some u)
    (hs : σ'.sessions = Function.update σ.sessions i (some v)) (hx : σ'.outer = σ.outer) (htr : σ'.trace = σ.trace)
    (hk : k ∈ v.tx.held ↔ k ∈ u.tx.held) (hcalls : v.calls = u.calls) (hout : k ∉ u.tx.held → v.prog.Outside ρ k v.op)
    (hin : k ∈ u.tx.held → v.prog.Inside ρ v.op σ.outer σ.trace u.calls) : Guarded ρ k σ' := by
  by_cases hku : k ∈ u.tx.held
  · refine h.inside_step hs (h.others hu hku) (hk.2 hku) ?_
    rw [hx, htr, hcalls]
    exact hin hku
  · refine h.outside_step hs hx htr (fun w hw => ?_) fun w hw => ?_
    · rw [hu] at hw
      cases hw
      exact hku
    · cases hw
      exact ⟨fun hc => hku (hk.1 hc), hout hku, hcalls.trans (h.outside hu hku).2⟩

theorem Guarded.advance (h : Guarded ρ k σ) {u : Scripted S K W E C R Op A} {id : Nat}
    (hu : σ.sessions i = some u) (hs : σ.advance i id u = some σ') : Guarded ρ k σ' := by
  unfold Scripts.advance at hs
  have hout := fun hk => (h.outside hu hk).1
  have hin := h.inside hu
  cases hp : u.prog with
  | ret a =>
    simp only [hp, Option.some.injEq] at hs
    subst hs
    rw [hp] at hin
    exact h.end_ hu rfl rfl rfl hin
  | throw e =>
    simp only [hp, Option.some.injEq] at hs
    subst hs
    rw [hp] at hin
    exact h.end_ hu rfl rfl rfl hin
  | select next =>
    simp only [hp, Option.some.injEq] at hs
    subst hs
    rw [hp] at hin hout
    exact h.go_on hu rfl rfl rfl Iff.rfl rfl (fun hk => hout hk _) fun hk => (hin hk).2 _
  | lock k' next =>
    simp only [hp] at hs
    split at hs
    · cases hs
    · next hb =>
      simp only [Option.some.injEq] at hs
      subst hs
      rw [hp] at hin hout
      by_cases hkk : k' = k
      · subst hkk
        have hothers : ∀ j v, j ≠ i → σ.sessions j = some v → k' ∉ v.tx.held :=
          fun j v hj hv => not_held_of_not_blocked (Bool.not_eq_true _ ▸ hb) hj hv
        by_cases hk : k' ∈ u.tx.held
        · exact h.inside_step rfl hothers List.mem_cons_self (hin hk).2
        · have hfree : ρ.inv σ.outer σ.trace := h.free fun j v hv => by
            by_cases hj : j = i
            · subst hj
              rw [hu] at hv
              cases hv
              exact hk
            · exact hothers j v hj hv
          have hnext := hout hk
          simp only [Script.Outside, if_true] at hnext
          refine h.inside_step rfl hothers List.mem_cons_self ?_
          show next.Inside ρ u.op σ.outer σ.trace u.calls
          rw [(h.outside hu hk).2]
          exact hnext _ _ hfree
      · refine h.go_on hu rfl rfl rfl ?_ rfl (fun hk => ?_) fun hk => (hin hk).2
        · exact ⟨fun hm => (List.mem_cons.1 hm).resolve_left (Ne.symm hkk), List.mem_cons_of_mem _⟩
        · have hnext := hout hk
          simp only [Script.Outside, if_neg hkk] at hnext
          exact hnext
  | write w next =>
    simp only [hp] at hs
    rw [hp] at hin hout
    split at hs
    · split at hs
      · cases hs
      · next hb =>
        simp only [Option.some.injEq] at hs
        subst hs
        by_cases hk : k ∈ u.tx.held
        · exact h.go_on hu rfl rfl rfl ⟨fun _ => hk, fun _ => List.mem_append_right _ hk⟩ rfl
            (fun hc => absurd hk hc) fun hk => (hin hk).2 _
        · refine h.go_on hu rfl rfl rfl ⟨fun hm => ?_, fun hm => List.mem_append_right _ hm⟩ rfl
            (fun hk => (hout hk).2 _) fun hc => absurd hc hk
          exact (List.mem_append.1 hm).resolve_left (hout hk).1
    · simp only [Option.some.injEq] at hs
      subst hs
      exact h.go_on hu rfl rfl rfl Iff.rfl rfl (fun hk => (hout hk).2 _) fun hk => (hin hk).2 _
  | fresh next =>
    simp only [hp] at hs
    rw [hp] at hin hout
    split at hs
    · simp only [Option.some.injEq] at hs
      subst hs
      by_cases hk : k ∈ u.tx.held
      · exact h.go_on hu rfl rfl rfl ⟨fun _ => hk, fun _ => List.mem_cons_of_mem _ hk⟩ rfl
          (fun hc => absurd hk hc) fun hk => (hin hk).2 _
      · refine h.go_on hu rfl rfl rfl ⟨fun hm => ?_, fun hm => List.mem_cons_of_mem _ hm⟩ rfl
          (fun hk => (hout hk id).2) fun hc => absurd hc hk
        exact (List.mem_cons.1 hm).resolve_left (hout hk id).1.symm
    · cases hs
  | call c next =>
    simp only [hp, Option.some.injEq] at hs
    subst hs
    rw [hp] at hin hout
    by_cases hk : k ∈ u.tx.held
    · have hnext := (hin hk).2 0
      rw [Outer.pass_zero] at hnext
      exact h.inside_step rfl (h.others hu hk) hk hnext
    · exact (hout hk).elim

end

variable {Allowed : Op → Prop} (hP : ∀ op, Allowed op → (prog op).Outside ρ k op)

include hP

theorem Guarded.step (h : Guarded ρ k σ) {c : Event Op n} (hA : ∀ i op, c = .start i op → Allowed op)
    (hc : Finishes ρ k σ c) (hs : σ.step prog c = some σ') : Guarded ρ k σ' := by
  cases c with
  | start i op =>
    simp only [Scripts.step] at hs
    split at hs
    · next hnone =>
      cases hs
      refine h.outside_step rfl rfl rfl (fun u hu => ?_) fun v hv => ?_
      · rw [hnone] at hu
        cases hu
      · cases hv
        exact ⟨List.not_mem_nil, hP op (hA i op rfl), rfl⟩
    · cases hs
  | step i id =>
    simp only [Scripts.step] at hs
    split at hs
    · cases hs
    · next u hu => exact h.advance hu hs
  | kill i =>
    cases hs
    cases hu : σ.sessions i with
    | none =>
      refine h.outside_step rfl rfl rfl (fun u hu' => ?_) fun v hv => by cases hv
      rw [hu] at hu'
      cases hu'
    | some u => exact h.end_ hu rfl rfl rfl fun hk => (h.inside hu hk).mid.inv (hc u hu hk)
  | pass d =>
    cases hs
    exact ⟨h.outside, fun hu hk => (h.inside hu hk).pass d, h.one, fun hfree => ρ.inv_pass d (h.free hfree)⟩

/-- **What the key protects holds throughout** every run in which no request is cut off with something to finish. -/
theorem Guarded.exec (h : Guarded ρ k σ) {cs : List (Event Op n)} (hA : Starts Allowed cs)
    (hc : Meets prog (Finishes ρ k) σ cs) (hs : σ.exec prog cs = some σ') : Guarded ρ k σ' := by
  induction cs generalizing σ with
  | nil =>
    cases hs
    exact h
  | cons c cs ih =>
    simp only [Scripts.exec, Option.bind_eq_some_iff] at hs
    obtain ⟨σ₁, h₁, h₂⟩ := hs
    have hstart : ∀ i op, c = .start i op → Allowed op := fun i op he => hA i op (he ▸ List.mem_cons_self)
    exact ih (h.step hP hstart hc.1 h₁) (fun i op hm => hA i op (List.mem_cons_of_mem _ hm)) (hc.2 σ₁ h₁) h₂

omit hP in
theorem guarded_init {s : S} {x : X} (h : ρ.inv x []) : Guarded ρ k (init s x : Scripts S K W E X C R Op A n) :=
  ⟨fun hu => (by cases hu), fun hu => (by cases hu), fun hu => (by cases hu), fun _ => h⟩

end Scripts

end Transactions
