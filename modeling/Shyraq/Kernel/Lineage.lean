import Mathlib.Data.Set.Insert
import Mathlib.Data.List.Basic

/-!
# Lineages of single-use tokens

A token is issued, is exchanged for a new one, or is retired.  The lineage of a token are the tokens
it was exchanged for, one after the other.  Whatever the order of the steps, a lineage has one live
token at most, and no token is exchanged twice.
-/

namespace Lineage

variable {τ : Type*}

structure Tokens (τ : Type*) where
  known : Set τ
  live : Set τ

inductive Event (τ : Type*)
  | issue (new : τ)
  | rotate (old new : τ)
  | retire

/-- Only live tokens are exchanged, and only unknown ones are issued. -/
inductive Step : Tokens τ → Event τ → Tokens τ → Prop
  | issue {s s' : Tokens τ} {new : τ} (hnew : new ∉ s.known) (hknown : s'.known = insert new s.known)
      (hlive : s'.live = insert new s.live) : Step s (.issue new) s'
  | rotate {s s' : Tokens τ} {old new : τ} (hold : old ∈ s.live) (hnew : new ∉ s.known)
      (hknown : s'.known = insert new s.known) (hlive : s'.live = insert new (s.live \ {old})) :
      Step s (.rotate old new) s'
  | retire {s s' : Tokens τ} (hknown : s'.known = s.known) (hlive : s'.live ⊆ s.live) : Step s .retire s'

/-- A run and its events. -/
inductive Run (s₀ : Tokens τ) : List (Event τ) → Tokens τ → Prop
  | nil : Run s₀ [] s₀
  | snoc {es e s s'} (hrun : Run s₀ es s) (hstep : Step s e s') : Run s₀ (es ++ [e]) s'

/-- What the token `root` was exchanged for. -/
def lineage [DecidableEq τ] (root : τ) (es : List (Event τ)) : List τ :=
  es.foldl (fun l e =>
    match e with
    | .rotate old new => if old ∈ l then l ++ [new] else l
    | _ => l) [root]

/-- The token has been exchanged. -/
def Event.Rotates (g : τ) : Event τ → Prop
  | .rotate old _ => old = g
  | _ => False

instance [DecidableEq τ] (g : τ) : DecidablePred (Event.Rotates g)
  | .rotate old _ => inferInstanceAs (Decidable (old = g))
  | .issue _ => inferInstanceAs (Decidable False)
  | .retire => inferInstanceAs (Decidable False)

section

variable {s₀ s s' : Tokens τ} {es : List (Event τ)} {e : Event τ} {g : τ}

/-- Live tokens are known. -/
theorem Step.live_known (h : Step s e s') (hs : s.live ⊆ s.known) : s'.live ⊆ s'.known := by
  intro k hk
  cases h with
  | issue _ hknown hlive =>
    rw [hlive] at hk
    rw [hknown]
    exact hk.imp id fun hk => hs hk
  | rotate _ _ hknown hlive =>
    rw [hlive] at hk
    rw [hknown]
    exact hk.imp id fun hk => hs hk.1
  | retire hknown hlive =>
    rw [hknown]
    exact hs (hlive hk)

theorem Step.known_mono (h : Step s e s') : s.known ⊆ s'.known := by
  intro k hk
  cases h with
  | issue _ hknown _ => exact hknown ▸ Set.mem_insert_of_mem _ hk
  | rotate _ _ hknown _ => exact hknown ▸ Set.mem_insert_of_mem _ hk
  | retire hknown _ => exact hknown ▸ hk

/-- What is no longer live stays so. -/
theorem Step.dead (h : Step s e s') (hk : g ∈ s.known) (hd : g ∉ s.live) : g ∉ s'.live := by
  intro hg
  cases h with
  | issue hnew _ hlive =>
    rw [hlive] at hg
    rcases hg with rfl | hg
    · exact hnew hk
    · exact hd hg
  | rotate _ hnew _ hlive =>
    rw [hlive] at hg
    rcases hg with rfl | hg
    · exact hnew hk
    · exact hd hg.1
  | retire _ hlive => exact hd (hlive hg)

theorem Run.live_known (h : Run s₀ es s) (hs : s₀.live ⊆ s₀.known) : s.live ⊆ s.known := by
  induction h with
  | nil => exact hs
  | snoc _ hstep ih => exact hstep.live_known ih

/-- An exchanged token is known and dead ever after. -/
theorem Run.spent (h : Run s₀ es s) (hs : s₀.live ⊆ s₀.known) (hg : ∃ e ∈ es, e.Rotates g) :
    g ∈ s.known ∧ g ∉ s.live := by
  induction h with
  | nil =>
    obtain ⟨e, he, -⟩ := hg
    cases he
  | @snoc es e s s' hrun hstep ih =>
    obtain ⟨d, hd, hgd⟩ := hg
    rcases List.mem_append.1 hd with hd | hd
    · obtain ⟨hk, hdead⟩ := ih ⟨d, hd, hgd⟩
      exact ⟨hstep.known_mono hk, hstep.dead hk hdead⟩
    · obtain rfl := List.mem_singleton.1 hd
      cases hstep with
      | issue => exact hgd.elim
      | retire => exact hgd.elim
      | @rotate _ old new hold hnew hknown hlive =>
        obtain rfl : old = g := hgd
        have hk := hrun.live_known hs hold
        refine ⟨hknown ▸ Set.mem_insert_of_mem _ hk, ?_⟩
        rw [hlive]
        rintro (rfl | hg)
        · exact hnew hk
        · exact hg.2 rfl

variable [DecidableEq τ]

theorem lineage_snoc (root : τ) (es : List (Event τ)) (e : Event τ) : lineage root (es ++ [e]) =
      match e with
      | .rotate old new => if old ∈ lineage root es then lineage root es ++ [new] else lineage root es
      | _ => lineage root es := by
  unfold lineage
  rw [List.foldl_append]
  cases e <;> rfl

/-- No token is exchanged twice. -/
theorem Run.once (h : Run s₀ es s) (hs : s₀.live ⊆ s₀.known) (g : τ) :
    (es.filter fun e => decide (e.Rotates g)).length ≤ 1 := by
  induction h with
  | nil => simp
  | @snoc es e s s' hrun hstep ih =>
    rw [List.filter_append, List.length_append]
    by_cases he : e.Rotates g
    · -- `g` was live until now
      have hnone : es.filter (fun e => decide (e.Rotates g)) = [] := by
        rw [List.filter_eq_nil_iff]
        intro d hd hdg
        obtain ⟨-, hdead⟩ := hrun.spent hs ⟨d, hd, of_decide_eq_true hdg⟩
        cases hstep with
        | issue => exact he
        | retire => exact he
        | @rotate _ old new hold _ _ _ =>
          obtain rfl : old = g := he
          exact hdead hold
      rw [hnone]
      simp [he]
    · simpa [he] using ih

/-- The tokens of a lineage are known, but for a root that is not issued yet. -/
theorem Run.lineage_known (h : Run s₀ es s) (hs : s₀.live ⊆ s₀.known) (root : τ) :
    (∀ k ∈ lineage root es, k = root ∨ k ∈ s.known) ∧ (root ∉ s.known → lineage root es = [root]) := by
  induction h with
  | nil => exact ⟨fun k hk => .inl (List.mem_singleton.1 hk), fun _ => rfl⟩
  | @snoc es e s s' hrun hstep ih =>
    obtain ⟨hknown, hroot⟩ := ih
    have hmono := hstep.known_mono
    rw [lineage_snoc]
    cases hstep with
    | issue => exact ⟨fun k hk => (hknown k hk).imp id (hmono ·), fun h => hroot fun hk => h (hmono hk)⟩
    | retire => exact ⟨fun k hk => (hknown k hk).imp id (hmono ·), fun h => hroot fun hk => h (hmono hk)⟩
    | @rotate _ old new hold hnew hk' _ =>
      dsimp only
      split
      · next hmem =>
        refine ⟨fun k hk => ?_, fun h => ?_⟩
        · rcases List.mem_append.1 hk with hk | hk
          · exact (hknown k hk).imp id (hmono ·)
          · rw [List.mem_singleton.1 hk, hk']
            exact .inr (Set.mem_insert _ _)
        · -- an unissued root has not been exchanged
          have hr : root ∉ s.known := fun hk => h (hmono hk)
          rw [hroot hr, List.mem_singleton] at hmem
          exact absurd (hrun.live_known hs hold) (hmem ▸ hr)
      · exact ⟨fun k hk => (hknown k hk).imp id (hmono ·), fun h => hroot fun hk => h (hmono hk)⟩

/-- **At most one live token in a lineage.** -/
theorem Run.single (h : Run s₀ es s) (hs : s₀.live ⊆ s₀.known) (root : τ) :
    ∀ k ∈ lineage root es, ∀ k' ∈ lineage root es, k ∈ s.live → k' ∈ s.live → k = k' := by
  induction h with
  | nil =>
    intro k hk k' hk' _ _
    rw [List.mem_singleton.1 hk, List.mem_singleton.1 hk']
  | @snoc es e s s' hrun hstep ih =>
    obtain ⟨hknown, hroot⟩ := hrun.lineage_known hs root
    rw [lineage_snoc]
    -- a new token is in the lineage only as its unissued root
    have hfresh : ∀ {new}, new ∉ s.known → ∀ k ∈ lineage root es, ∀ k' ∈ lineage root es,
        k = new → k = k' := by
      rintro new hnew k hk k' hk' rfl
      obtain rfl := (hknown k hk).resolve_right hnew
      rw [hroot hnew, List.mem_singleton] at hk'
      exact hk'.symm
    cases hstep with
    | issue hnew _ hlive =>
      intro k hk k' hk' hl hl'
      rw [hlive] at hl hl'
      rcases hl with hl | hl
      · exact hfresh hnew k hk k' hk' hl
      · rcases hl' with hl' | hl'
        · exact (hfresh hnew k' hk' k hk hl').symm
        · exact ih k hk k' hk' hl hl'
    | retire _ hlive => exact fun k hk k' hk' hl hl' => ih k hk k' hk' (hlive hl) (hlive hl')
    | @rotate _ old new hold hnew _ hlive =>
      dsimp only
      split
      · next hmem =>
        -- `old` was the only live one
        have honly : ∀ k ∈ lineage root es ++ [new], k ∈ s'.live → k = new := by
          intro k hk hl
          rw [hlive] at hl
          rcases hl with hl | ⟨hl, hne⟩
          · exact hl
          · rcases List.mem_append.1 hk with hk | hk
            · exact absurd (ih k hk old hmem hl hold) hne
            · exact List.mem_singleton.1 hk
        exact fun k hk k' hk' hl hl' => (honly k hk hl).trans (honly k' hk' hl').symm
      · intro k hk k' hk' hl hl'
        rw [hlive] at hl hl'
        rcases hl with hl | hl
        · exact hfresh hnew k hk k' hk' hl
        · rcases hl' with hl' | hl'
          · exact (hfresh hnew k' hk' k hk hl').symm
          · exact ih k hk k' hk' hl.1 hl'.1

end

end Lineage
