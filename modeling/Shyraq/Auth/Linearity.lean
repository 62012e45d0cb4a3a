import Shyraq.Auth.RefreshTokens

/-!
# Refresh rotation is linear

Each commit on `refresh_tokens` is a step of `Lineage`: a rotation takes a token that is live right
before its commit, because it has held the row since it looked.
-/

namespace Auth

open Transactions

namespace RefreshStore

def Known (s : RefreshStore) (g : Nat) : Prop := (s.token g).isSome = true

/-- Not revoked; it may have expired. -/
def Live (s : RefreshStore) (g : Nat) : Prop := ((s.token g).any fun row => row.revokedAt.isNone) = true

instance (s : RefreshStore) (g : Nat) : Decidable (s.Known g) := inferInstanceAs (Decidable (_ = true))

instance (s : RefreshStore) (g : Nat) : Decidable (s.Live g) := inferInstanceAs (Decidable (_ = true))

/-- Issued, and no longer live. -/
def Revoked (s : RefreshStore) (g : Nat) : Prop := s.Known g ∧ ¬ s.Live g

/-- The table as single-use tokens. -/
def abstract' (s : RefreshStore) : Lineage.Tokens Nat := ⟨{g | s.Known g}, {g | s.Live g}⟩

end RefreshStore

def RefreshCommit.event (c : RefreshCommit) : Lineage.Event Nat :=
  match c.op, c.result with
  | .create input, _ => .issue input.tokenHash
  | .refresh opts, .rotated (some _) => .rotate opts.tokenHash opts.newTokenHash
  | _, _ => .retire

/-! ## The table statement by statement -/

section

variable {s : RefreshStore} {g k : Nat}

theorem token_insert (s : RefreshStore) (row : RefreshToken) (k : Nat) :
    (Relational.apply s (RefreshWrite.insert row)).token k =
      (s.token k).or (if row.tokenHash = k then some row else none) :=
  Table.find_append s.tokens row k

theorem token_revoke (s : RefreshStore) (g : Nat) (now : Int) (k : Nat) :
    (Relational.apply s (RefreshWrite.revoke g now)).token k =
      (s.token k).map fun row => if k = g then row.revoked now else row := by
  refine (Table.find_updateWhere s.tokens g (fun _ => true) (RefreshToken.revoked now) (fun _ => rfl) k).trans ?_
  simp [RefreshStore.token]

theorem token_revokeLive (s : RefreshStore) (g : Nat) (now : Int) (k : Nat) :
    (Relational.apply s (RefreshWrite.revokeLive g now)).token k =
      (s.token k).map fun row => if k = g ∧ row.revokedAt.isNone = true then row.revoked now else row :=
  Table.find_updateWhere s.tokens g (fun row => row.revokedAt.isNone) (RefreshToken.revoked now) (fun _ => rfl) k

theorem live_known (s : RefreshStore) (h : s.Live g) : s.Known g := by
  unfold RefreshStore.Live at h
  unfold RefreshStore.Known
  cases hrow : s.token g with
  | none =>
    rw [hrow] at h
    cases h
  | some row => rfl

theorem live_iff_row : s.Live g ↔ ∃ row, s.token g = some row ∧ row.revokedAt = none := by
  simp [RefreshStore.Live, Option.any_eq_true]

theorem insert_abstract {row : RefreshToken} (hnew : s.token row.tokenHash = none) (hlive : row.revokedAt = none) :
    (∀ k, (Relational.apply s (RefreshWrite.insert row)).Known k ↔ k = row.tokenHash ∨ s.Known k) ∧
    ∀ k, (Relational.apply s (RefreshWrite.insert row)).Live k ↔ k = row.tokenHash ∨ s.Live k := by
  unfold RefreshStore.Known RefreshStore.Live
  refine ⟨fun k => ?_, fun k => ?_⟩
  · rw [token_insert]
    by_cases hk : row.tokenHash = k
    · simp [hk]
    · simp [hk, Ne.symm hk]
  · rw [token_insert]
    by_cases hk : row.tokenHash = k
    · subst hk
      simp [hnew, hlive]
    · simp [hk, Ne.symm hk]

theorem revoke_abstract (s : RefreshStore) (g : Nat) (now : Int) :
    (∀ k, (Relational.apply s (RefreshWrite.revoke g now)).Known k ↔ s.Known k) ∧
    ∀ k, (Relational.apply s (RefreshWrite.revoke g now)).Live k ↔ s.Live k ∧ k ≠ g := by
  unfold RefreshStore.Known RefreshStore.Live
  refine ⟨fun k => ?_, fun k => ?_⟩
  · rw [token_revoke, Option.isSome_map]
  · rw [token_revoke]
    cases s.token k with
    | none => simp
    | some row => by_cases hk : k = g <;> simp [hk, RefreshToken.revoked]

theorem revokeLive_abstract (s : RefreshStore) (g : Nat) (now : Int) :
    (∀ k, (Relational.apply s (RefreshWrite.revokeLive g now)).Known k ↔ s.Known k) ∧
    ∀ k, (Relational.apply s (RefreshWrite.revokeLive g now)).Live k → s.Live k := by
  unfold RefreshStore.Known RefreshStore.Live
  refine ⟨fun k => ?_, fun k => ?_⟩
  · rw [token_revokeLive, Option.isSome_map]
  · rw [token_revokeLive]
    cases s.token k with
    | none => exact id
    | some row =>
      intro h
      by_cases hk : k = g ∧ row.revokedAt.isNone = true
      · exact hk.2
      · rw [Option.map_some, if_neg hk] at h
        exact h

/-! ## The statements as steps -/

theorem step_issue (row : RefreshToken) (hnew : s.token row.tokenHash = none) (hlive : row.revokedAt = none) :
    Lineage.Step s.abstract' (.issue row.tokenHash) (Relational.apply s (RefreshWrite.insert row)).abstract' := by
  obtain ⟨hk, hl⟩ := insert_abstract hnew hlive
  refine .issue ?_ (Set.ext fun k => hk k) (Set.ext fun k => hl k)
  intro h
  have h : (s.token row.tokenHash).isSome = true := h
  rw [hnew] at h
  cases h

theorem step_rotate (row : RefreshToken) {now : Int} (hold : s.Live g) (hnew : s.token row.tokenHash = none)
    (hlive : row.revokedAt = none) : Lineage.Step s.abstract' (.rotate g row.tokenHash)
      (Relational.apply (Relational.apply s (RefreshWrite.revoke g now)) (RefreshWrite.insert row)).abstract' := by
  have hnew' : (Relational.apply s (RefreshWrite.revoke g now)).token row.tokenHash = none := by
    rw [token_revoke, hnew]
    rfl
  obtain ⟨hk, hl⟩ := insert_abstract hnew' hlive
  obtain ⟨hk', hl'⟩ := revoke_abstract s g now
  refine .rotate hold ?_ (Set.ext fun k => ?_) (Set.ext fun k => ?_)
  · intro h
    have h : (s.token row.tokenHash).isSome = true := h
    rw [hnew] at h
    cases h
  · exact (hk k).trans (or_congr_right (hk' k))
  · exact (hl k).trans (or_congr_right (hl' k))

/-- Writes that only revoke. -/
def RefreshWrite.Revokes : RefreshWrite → Prop
  | .revokeLive .. => True
  | _ => False

theorem step_retire {ws : List RefreshWrite} (h : ∀ w ∈ ws, w.Revokes) (s : RefreshStore) :
    Lineage.Step s.abstract' .retire (ws.foldl Relational.apply s).abstract' := by
  have habs : (∀ k, (ws.foldl Relational.apply s).Known k ↔ s.Known k) ∧
      ∀ k, (ws.foldl Relational.apply s).Live k → s.Live k := by
    induction ws generalizing s with
    | nil => exact ⟨fun _ => Iff.rfl, fun _ => id⟩
    | cons w ws ih =>
      obtain ⟨hk, hl⟩ := ih (fun w' hw' => h w' (List.mem_cons_of_mem _ hw')) (Relational.apply s w)
      have hw := h w List.mem_cons_self
      cases w with
      | revokeLive g now =>
        obtain ⟨hk', hl'⟩ := revokeLive_abstract s g now
        exact ⟨fun k => (hk k).trans (hk' k), fun k hlive => hl' k (hl k hlive)⟩
      | insert row => exact hw.elim
      | revoke g now => exact hw.elim
  exact .retire (Set.ext fun k => habs.1 k) fun k hk => habs.2 k hk

end

/-! ## The requests -/

section

variable {X : RefreshError → Prop} {s : RefreshStore}

/-- The commit of the request is a step. -/
def Steps (op : RefreshOp) (t : Tx RefreshStore RefreshKey RefreshWrite) (s : RefreshStore)
    (r : RefreshResponse) : Prop :=
  Lineage.Step s.abstract' (RefreshCommit.event ⟨op, t, r⟩) (t.view s).abstract'

theorem steps_idle {op : RefreshOp} {t : Tx RefreshStore RefreshKey RefreshWrite} {r : RefreshResponse}
    (hevent : RefreshCommit.event ⟨op, t, r⟩ = .retire) (ht : t.writes = []) : Steps op t s r := by
  unfold Steps
  rw [hevent, Tx.view_of_unwritten ht]
  exact .retire rfl (Set.Subset.refl _)

theorem locked_same {held : List RefreshKey} {s' : RefreshStore} {g : Nat}
    (hr : refreshLocks.rely held s s') (hg : RefreshKey.token g ∈ held) : s'.token g = s.token g :=
  Table.Evolves.find_eq hr hg

theorem safe_create (hX : ∀ e, X e) (input : CreateRefreshInput) :
    Prog.Safe refreshLocks (fun _ => True) X (fun t s r => Steps (.create input) t s r)
      (RefreshOp.create input).prog Tx.start s := by
  refine Prog.Safe.insertOr hX fun s₁ _ _ hhit s₂ hr₂ _ => ?_
  have hnew : s₁.token input.tokenHash = none := Option.isNone_iff_eq_none.1 hhit
  refine step_issue ⟨input.tokenHash, input.session, input.deviceId, input.ipAddress, input.expiresAt, none⟩ ?_ rfl
  exact (locked_same hr₂ (List.mem_append_left _ List.mem_cons_self)).trans hnew

theorem safe_refresh (hX : ∀ e, X e) (opts : RotateOpts) :
    Prog.Safe refreshLocks (fun _ => True) X (fun t s r => Steps (.refresh opts) t s r)
      (RefreshOp.refresh opts).prog Tx.start s := by
  simp only [RefreshOp.prog, RefreshTokenRepository.rotate, RefreshTokenRepository.findForUpdate, Prog.bind_eq,
    Prog.bind_assoc]
  refine Prog.Safe.query fun s₁ _ _ => ?_
  cases (Tx.start.view s₁).token opts.tokenHash with
  | none => exact fun _ _ _ => steps_idle rfl rfl
  | some found =>
    simp only [Prog.bind_assoc]
    refine Prog.Safe.acquire fun s₂ _ _ => Prog.Safe.query fun s₃ _ _ => ?_
    have hview : ((Tx.start.saw s₁).locked (RefreshKey.token opts.tokenHash)).view s₃ = s₃ := rfl
    rw [hview]
    cases hrow : (s₃.token opts.tokenHash).filter fun row => row.isActive opts.now with
    | none => exact fun _ _ _ => steps_idle rfl rfl
    | some row =>
      obtain ⟨hrow, hactive⟩ := Option.filter_eq_some_iff.1 hrow
      have hhash : row.tokenHash = opts.tokenHash := Table.id_of_find hrow
      have hlive : row.revokedAt = none := by
        simp only [RefreshToken.isActive, Bool.and_eq_true] at hactive
        exact Option.isNone_iff_eq_none.1 hactive.1
      simp only [Prog.bind_assoc, hhash]
      -- the row is held from here on
      refine Prog.Safe.keep (fun s => s.token opts.tokenHash = some row) [RefreshKey.token opts.tokenHash]
        (List.cons_subset.2 ⟨List.mem_cons_self, List.nil_subset _⟩)
        (fun _ _ hr _ _ h => (locked_same hr List.mem_cons_self).trans h) trivial hrow ?_
      refine Prog.Safe.update (fun s₄ _ _ _ => ?_) fun s₄ _ hj₄ hmiss => ?_
      · refine Prog.Safe.insertOr hX fun s₅ _ hj₅ hhit s₆ hr₆ hj₆ => ?_
        have hnew : s₅.token opts.newTokenHash = none := by
          have hnone : (Relational.apply s₅ (RefreshWrite.revoke opts.tokenHash opts.now)).token
              opts.newTokenHash = none := Option.isNone_iff_eq_none.1 hhit
          rw [token_revoke, Option.map_eq_none_iff] at hnone
          exact hnone
        refine step_rotate (opts.row row) (live_iff_row.2 ⟨row, hj₆.2, hlive⟩) ?_ rfl
        exact (locked_same hr₆ (List.mem_append_left _ List.mem_cons_self)).trans hnew
      · have hmiss : (s₄.token opts.tokenHash).isSome = false := hmiss
        rw [hj₄.2] at hmiss
        cases hmiss

theorem safe_logout (hX : ∀ e, X e) (now : Int) (userId : Nat) (tokenHash : Option Nat) :
    Prog.Safe refreshLocks (fun _ => True) X (fun t s r => Steps (.logout now userId tokenHash) t s r)
      (RefreshOp.logout now userId tokenHash).prog Tx.start s := by
  have hone : ∀ g, Prog.OnlyWrites RefreshWrite.Revokes (RefreshTokenRepository.revokeByHash g now) :=
    fun g => ⟨trivial, fun _ => trivial⟩
  have honly : Prog.OnlyWrites RefreshWrite.Revokes (RefreshOp.logout now userId tokenHash).prog := by
    cases tokenHash with
    | some g => exact (hone g).bind fun _ => trivial
    | none =>
      refine Prog.OnlyWrites.bind ?_ fun _ => trivial
      exact fun s => Prog.OnlyWrites.forEach _ fun row _ => hone row.tokenHash
  refine (Prog.Safe.of_onlyWrites honly hX trivial).mono fun t s r _ ht => ?_
  obtain ⟨ws, hws, hrevokes⟩ := ht.1.writes
  have hws : t.writes = ws := hws
  have hstep := step_retire hrevokes s
  rw [← hws] at hstep
  cases tokenHash <;> exact hstep

theorem safe_steps (hX : ∀ e, X e) (op : RefreshOp) :
    Prog.Safe refreshLocks (fun _ => True) X (fun t s r => Steps op t s r) op.prog Tx.start s := by
  cases op with
  | create input => exact safe_create hX input
  | refresh opts => exact safe_refresh hX opts
  | logout now userId tokenHash => exact safe_logout hX now userId tokenHash

end

/-! ## Every run -/

/-- This commit has exchanged the token. -/
def RefreshCommit.rotates (g : Nat) (c : RefreshCommit) : Bool := decide ((RefreshCommit.event c).Rotates g)

/-- What the token `root` has become. -/
def lineage (root : Nat) (log : List RefreshCommit) : List Nat :=
  Lineage.lineage root (log.map RefreshCommit.event)

structure Linear (s : RefreshStore) (log : List RefreshCommit) : Prop where
  /-- A token is rotated once at most. -/
  once : ∀ g, (log.filter (RefreshCommit.rotates g)).length ≤ 1
  /-- After that it is revoked. -/
  spent : ∀ g p, p <+: log → (∃ c ∈ p, RefreshCommit.rotates g c = true) → (replay s p).Revoked g
  /-- A lineage has one live token at most. -/
  single : ∀ root p, p <+: log → ∀ g ∈ lineage root p, ∀ g' ∈ lineage root p,
    (replay s p).Live g → (replay s p).Live g' → g = g'
  /-- A revoked token stays revoked. -/
  final : ∀ g, Lasting (fun s => s.Revoked g) s log

section

variable {s : RefreshStore} {log : List RefreshCommit}

theorem run_of_steps (h : AtEach (fun s c => Steps c.op c.tx s c.result) s log) :
    Lineage.Run s.abstract' (log.map RefreshCommit.event) (replay s log).abstract' := by
  induction log using List.reverseRecOn with
  | nil => exact .nil
  | append_singleton log c ih =>
    obtain ⟨hlog, hc⟩ := atEach_snoc.1 h
    rw [List.map_append, replay_snoc]
    exact .snoc (ih hlog) hc

theorem linear_of_steps (h : AtEach (fun s c => Steps c.op c.tx s c.result) s log) : Linear s log where
  once g := by
    have hone := (run_of_steps h).once (fun k hk => live_known s hk) g
    rw [List.filter_map, List.length_map] at hone
    exact hone
  spent g p hp hg := by
    obtain ⟨c, hc, hrot⟩ := hg
    exact (run_of_steps (h.of_prefix hp)).spent (fun k hk => live_known s hk)
      ⟨RefreshCommit.event c, List.mem_map_of_mem hc, of_decide_eq_true hrot⟩
  single root p hp := (run_of_steps (h.of_prefix hp)).single (fun k hk => live_known s hk) root
  final g := by
    rw [lasting_iff]
    refine h.mono fun v c hstep hrevoked => ?_
    exact ⟨Lineage.Step.known_mono hstep hrevoked.1, Lineage.Step.dead hstep hrevoked.1 hrevoked.2⟩

end

/-- **Rotation is linear**, whatever the requests and however their statements interleave. -/
theorem rotation_linear {n : Nat} {s : RefreshStore} {cs : RefreshSchedule n} {σ : RefreshSystem n}
    (hrun : runRefresh s cs = some σ) : Linear s σ.log := by
  have hX : ∀ _ : RefreshError, True := fun _ => trivial
  have hany : System.Starts (fun _ : RefreshOp => True) cs := fun _ _ _ => trivial
  have hchain := System.exec_chain (D := refreshLocks) (J := fun _ => True) (X := fun _ => True)
    (Q := fun op t s r => Steps op t s r ∧ ∀ w ∈ t.writes, RefreshStore.keys w ⊆ t.held) trivial
    (fun op _ _ _ => (safe_steps hX op).withKeys hX) (fun _ _ _ _ _ _ => trivial) (fun _ _ s _ _ h => ?_) hany hrun
  · exact linear_of_steps (hchain.mono fun _ _ h => h.2.1).atEach
  · exact Discipline.guarantee_of_respects (fun w hw => refresh_respects (h.2 w hw)) s

/-! ## One token, presented twice at once -/

def parentSession : Session := ⟨7, some 1, some .parent⟩

def loggedIn : RefreshStore := ⟨[⟨100, parentSession, none, none, 9000, none⟩]⟩

def rotateTo (newTokenHash : Nat) : RefreshOp := .refresh ⟨100, 5000, newTokenHash, 12000, none, none⟩

/-- Both have found the token live; the second waits for the row of the first. -/
def racingRefreshes : RefreshSchedule 2 :=
  .start 0 (rotateTo 101) :: .start 1 (rotateTo 102) :: Choice.steps 0 1 0 ++ Choice.steps 1 1 0 ++
    Choice.steps 0 5 0 ++ Choice.steps 1 3 0

theorem racingRefreshes_linear : ∃ σ : RefreshSystem 2, runRefresh loggedIn racingRefreshes = some σ ∧
    σ.log.map (fun c => c.result) = [.rotated (some parentSession), .rotated none] ∧ Linear loggedIn σ.log := by
  obtain ⟨σ, hrun, h⟩ := runRefresh_shows loggedIn racingRefreshes (fun σ : RefreshSystem 2 =>
    decide (σ.log.map (fun c => c.result) = [.rotated (some parentSession), .rotated none])) (by decide +kernel)
  exact ⟨σ, hrun, of_decide_eq_true h, rotation_linear hrun⟩

end Auth
