import Shyraq.Content.Services

/-!
# The publication of a post

A transition re-reads the status in its UPDATE and enqueues its event in the same transaction.  An edit writes back
the status that it has read, and a deletion asks nothing of the row that it deletes.
-/

namespace Content

open Transactions

/-! ## What is claimed -/

/-- The place on the way draft, scheduled, published. -/
def ContentStatus.rank : ContentStatus → Nat
  | draft => 0 | scheduled => 1 | published => 2

def ContentPost.isPublished (post : ContentPost) : Bool := post.status == .published

/-- The type has a publication event. -/
def ContentType.hasEvent : ContentType → Bool
  | news | qundylyq | birthday => true
  | menu | schedulePub => false

def Store.eventsOf (s : Store) (i : Nat) : Nat := s.outbox.countP fun event => event.contentPostId == i

def Store.isPublished (s : Store) (i : Nat) : Bool := (s.post i).any ContentPost.isPublished

/-- The post has become published, and is of a type with an event. -/
def Announced (i : Nat) (s s' : Store) : Prop :=
  s.isPublished i = false ∧ (s'.post i).any (fun p => p.isPublished && p.contentType.hasEvent) = true

instance (i : Nat) (s s' : Store) : Decidable (Announced i s s') := inferInstanceAs (Decidable (_ ∧ _))

/-- The status does not go back, a post that is gone does not come back, and a published post stays as it is. -/
structure Forward (i : Nat) (s s' : Store) : Prop where
  status : ∀ p p', s.post i = some p → s'.post i = some p' → p.status.rank ≤ p'.status.rank
  gone : s.post i = none → s'.post i = none
  published : ∀ p, s.post i = some p → p.isPublished = true → s'.post i = some p

/-- The version of the post that the request has read. -/
def readOf (c : ContentCommit) (i : Nat) : Option ContentPost := c.tx.seen.head?.bind fun v => v.post i

/-- Right before the commit: an edit finds the post no further than it has read it, a deletion finds it unpublished. -/
def UpToDate (i : Nat) (s : Store) (c : ContentCommit) : Prop :=
  match c.op with
  | .update _ j _ => j = i → ∀ p v, s.post i = some p → readOf c i = some v → p.status.rank ≤ v.status.rank
  | .delete j => j = i → s.isPublished i = false
  | _ => True

/-! ## The rows of a post -/

/-- The post that a write is about. -/
def Write.postId : Write → Nat
  | .updatePost p => p.id
  | .deletePost i | .transitionStatus i _ _ _ => i
  | .enqueue event => event.contentPostId

variable {s' : Store}

section

variable {s : Store} {i : Nat}

theorem post_update (s : Store) (p : ContentPost) (i : Nat) :
    (Relational.apply s (Write.updatePost p)).post i =
      (s.post i).map fun row => if i = p.id ∧ true = true then p.saved row else row :=
  Table.find_updateWhere s.posts p.id (fun _ => true) p.saved (fun _ => rfl) i

theorem post_transition (s : Store) (j : Nat) (e next : ContentStatus) (patch : TransitionStatusPatch) (i : Nat) :
    (Relational.apply s (Write.transitionStatus j e next patch)).post i =
      (s.post i).map fun row => if i = j ∧ (row.status == e) = true then row.moved next patch else row :=
  Table.find_updateWhere s.posts j (fun row => row.status == e) (fun row => row.moved next patch) (fun _ => rfl) i

theorem post_delete (s : Store) (j i : Nat) :
    (Relational.apply s (Write.deletePost j)).post i = if i = j then none else s.post i := by
  show Table.find (s.posts.filter fun row => Row.id row != j) i = _
  by_cases h : i = j
  · subst h
    rw [if_pos rfl, Table.find_eq_none]
    intro row hrow he
    simp [he] at hrow
  · rw [if_neg h, Table.find_filter_ne h]
    rfl

/-- What a post looks like: its row and the number of its events. -/
def Store.look (s : Store) (i : Nat) : Option ContentPost × Nat := (s.post i, s.eventsOf i)

theorem look_apply_of_ne {w : Write} (h : w.postId ≠ i) (s : Store) : (Relational.apply s w).look i = s.look i := by
  refine Prod.ext ?_ ?_
  · show (Relational.apply s w).post i = s.post i
    cases w with
    | updatePost p =>
      rw [post_update]
      have hne : ¬ i = p.id := Ne.symm h
      simp only [hne, false_and, if_false, Option.map_id']
    | transitionStatus j e next patch =>
      rw [post_transition]
      have hne : ¬ i = j := Ne.symm h
      simp only [hne, false_and, if_false, Option.map_id']
    | deletePost j =>
      have hne : ¬ i = j := Ne.symm h
      rw [post_delete, if_neg hne]
    | enqueue event => rfl
  · show (Relational.apply s w).eventsOf i = s.eventsOf i
    cases w with
    | enqueue event =>
      show (s.outbox ++ [event]).countP _ = _
      have hne : ¬ (event.contentPostId == i) = true := fun he => h (beq_iff_eq.1 he)
      rw [List.countP_append, List.countP_singleton, if_neg hne]
      rfl
    | _ => rfl

theorem look_apply_congr (h : s.look i = s'.look i) (w : Write) :
    (Relational.apply s w).look i = (Relational.apply s' w).look i := by
  have hpost : s.post i = s'.post i := congrArg Prod.fst h
  have hevents : s.eventsOf i = s'.eventsOf i := congrArg Prod.snd h
  refine Prod.ext ?_ ?_
  · show (Relational.apply s w).post i = (Relational.apply s' w).post i
    cases w with
    | updatePost p => rw [post_update, post_update, hpost]
    | transitionStatus j e next patch => rw [post_transition, post_transition, hpost]
    | deletePost j => rw [post_delete, post_delete, hpost]
    | enqueue event => exact hpost
  · show (Relational.apply s w).eventsOf i = (Relational.apply s' w).eventsOf i
    cases w with
    | enqueue event =>
      show (s.outbox ++ [event]).countP _ = (s'.outbox ++ [event]).countP _
      rw [List.countP_append, List.countP_append]
      exact congrArg (· + _) hevents
    | _ => exact hevents

theorem look_foldl (ws : List Write) (s : Store) (i : Nat) : (ws.foldl Relational.apply s).look i =
      ((ws.filter fun w => w.postId == i).foldl Relational.apply s).look i := by
  suffices H : ∀ s s' : Store, s.look i = s'.look i →
      (ws.foldl Relational.apply s).look i =
        ((ws.filter fun w => w.postId == i).foldl Relational.apply s').look i from H s s rfl
  induction ws with
  | nil => exact fun s s' h => h
  | cons w ws ih =>
    intro s s' h
    rw [List.foldl_cons]
    by_cases hw : w.postId = i
    · rw [List.filter_cons_of_pos (by simpa using hw), List.foldl_cons]
      exact ih _ _ (look_apply_congr h w)
    · rw [List.filter_cons_of_neg (by simpa using hw)]
      exact ih _ _ ((look_apply_of_ne hw s).trans h)

end

/-! ## What the requests commit -/

/-- A locked post stays as it is, and a deleted one does not come back. -/
def postLocks : Discipline Store Key Write where
  rely held s s' := (∀ i, Key.row i ∈ held → s'.post i = s.post i) ∧ ∀ i, s.post i = none → s'.post i = none
  refl _ _ := ⟨fun _ _ => rfl, fun _ h => h⟩
  trans h₁ h₂ := ⟨fun i hi => (h₂.1 i hi).trans (h₁.1 i hi), fun i hi => h₂.2 i (h₁.2 i hi)⟩
  mono hs h := ⟨fun i hi => h.1 i (hs hi), h.2⟩

theorem post_apply_of_ne {w : Write} {i : Nat} (h : w.postId ≠ i) (s : Store) :
    (Relational.apply s w).post i = s.post i := congrArg Prod.fst (look_apply_of_ne h s)

theorem post_apply_absent (w : Write) {s : Store} {i : Nat} (h : s.post i = none) :
    (Relational.apply s w).post i = none := by
  cases w with
  | updatePost p => rw [post_update, h, Option.map_none]
  | transitionStatus j e next patch => rw [post_transition, h, Option.map_none]
  | deletePost j => rw [post_delete, h, ite_self]
  | enqueue event => exact h

theorem Write.row_mem_keys {w : Write} {i : Nat} (h : w.postId = i) (hw : ∀ event, w ≠ .enqueue event) :
    Key.row i ∈ Relational.keys Store w := by
  subst h
  cases w with
  | enqueue event => exact absurd rfl (hw event)
  | _ => exact List.mem_cons_self

theorem postLocks_respects {held : List Key} {w : Write} (hk : Relational.keys Store w ⊆ held) :
    postLocks.Respects held w := by
  intro held' hd s
  refine ⟨fun i hi => ?_, fun i hi => post_apply_absent w hi⟩
  by_cases hw : ∃ event, w = .enqueue event
  · obtain ⟨event, rfl⟩ := hw
    rfl
  · exact post_apply_of_ne (fun he => hd (hk (Write.row_mem_keys he fun event h => hw ⟨event, h⟩)) hi) s

/-- The writes of a transaction about a post. -/
def about (i : Nat) (t : Tx Store Key Write) : List Write := t.writes.filter fun w => w.postId == i

/-- The flip of a post and the event that goes with it. -/
def flips (q : ContentPost) (next : ContentStatus) (patch : TransitionStatusPatch) (now : Int) : List Write :=
  .transitionStatus q.id q.status next patch ::
    if next = .published then ((q.moved next patch).publicationEvent now).toList.map .enqueue else []

/-- What a transaction has done to a post: nothing, or one flip to `next`. -/
inductive FlipOutcome (next : ContentStatus) (i : Nat) (t : Tx Store Key Write) (s : Store) : Prop
  | untouched (writes : about i t = [])
  | flipped (q : ContentPost) (patch : TransitionStatusPatch) (now : Int) (row : s.post i = some q)
      (further : q.status.rank < next.rank) (held : Key.row i ∈ t.held) (writes : about i t = flips q next patch now)

/-- What a request has done to a post. -/
inductive PostOutcome (i : Nat) (t : Tx Store Key Write) (s : Store) : Op → Prop
  | updated {now patch} (p n q : ContentPost) (read : (t.seen.head?.bind fun v => v.post i) = some p)
      (next : p.update patch now = .ok n) (row : s.post i = some q) (writes : about i t = [.updatePost n]) :
      PostOutcome i t s (.update now i patch)
  | deleted (row : (s.post i).isSome = true) (writes : about i t = [.deletePost i]) : PostOutcome i t s (.delete i)
  | moved {op} (next : ContentStatus) (h : FlipOutcome next i t s) (notEdit : ∀ now j patch, op ≠ .update now j patch)
      (notDelete : ∀ j, op ≠ .delete j) : PostOutcome i t s op
  | elsewhere {op} (writes : about i t = []) (absent : ∀ now patch, op = .update now i patch → s.post i = none)
      (others : op ≠ .delete i) : PostOutcome i t s op

section

variable {X : ContentError → Prop} {A : Type} {i j : Nat} {t t' t'' : Tx Store Key Write} {s s' s'' : Store}
  {e next : ContentStatus} {patch : TransitionStatusPatch} {now : Int} {q u : ContentPost}

theorem about_wrote (t : Tx Store Key Write) (w : Write) (h : w.postId = i) : about i (t.wrote w) = about i t ++ [w] := by
  unfold about
  rw [Tx.writes_wrote, List.filter_append, List.filter_cons_of_pos (by simpa using h), List.filter_nil]

theorem about_wrote_of_ne (t : Tx Store Key Write) (w : Write) (h : w.postId ≠ i) :
    about i (t.wrote w) = about i t := by
  unfold about
  rw [Tx.writes_wrote, List.filter_append, List.filter_cons_of_neg (by simpa using h), List.filter_nil,
    List.append_nil]

theorem look_view (t : Tx Store Key Write) (s : Store) (i : Nat) :
    (t.view s).look i = ((about i t).foldl Relational.apply s).look i := look_foldl t.writes s i

theorem post_view (t : Tx Store Key Write) (s : Store) (i : Nat) :
    (t.view s).post i = ((about i t).foldl Relational.apply s).post i := congrArg Prod.fst (look_view t s i)

theorem eventsOf_view (t : Tx Store Key Write) (s : Store) (i : Nat) :
    (t.view s).eventsOf i = ((about i t).foldl Relational.apply s).eventsOf i := congrArg Prod.snd (look_view t s i)

variable {post : ContentPost}

theorem contentPostId_of_event {event : PublicationEvent}
    (h : event ∈ post.publicationEvent now) : event.contentPostId = post.id := by
  unfold ContentPost.publicationEvent at h
  cases htype : post.contentType <;> rw [htype] at h <;> cases h <;> rfl

theorem post_flips (h : s.post i = some q) :
    ((flips q next patch now).foldl Relational.apply s).post i = some (q.moved next patch) := by
  have hid : q.id = i := Table.id_of_find h
  have hfirst : (Relational.apply s (Write.transitionStatus q.id q.status next patch)).post i =
      some (q.moved next patch) := by
    rw [post_transition, h, Option.map_some, if_pos ⟨hid.symm, beq_self_eq_true _⟩]
  unfold flips
  rw [List.foldl_cons]
  split
  · cases (q.moved next patch).publicationEvent now with
    | none => exact hfirst
    | some event => exact hfirst
  · exact hfirst

theorem length_publicationEvent (post : ContentPost) (now : Int) :
    (post.publicationEvent now).toList.length = if post.contentType.hasEvent then 1 else 0 := by
  unfold ContentPost.publicationEvent
  cases post.contentType <;> rfl

theorem eventsOf_flips (h : s.post i = some q) : ((flips q next patch now).foldl Relational.apply s).eventsOf i =
      s.eventsOf i + if next = .published ∧ q.contentType.hasEvent = true then 1 else 0 := by
  have hid : q.id = i := Table.id_of_find h
  unfold flips
  rw [List.foldl_cons]
  by_cases hnext : next = .published
  · have hcount := length_publicationEvent (q.moved next patch) now
    have hown : ∀ event ∈ (q.moved next patch).publicationEvent now, event.contentPostId = i :=
      fun event he => (contentPostId_of_event he).trans hid
    rw [if_pos hnext]
    cases hevent : (q.moved next patch).publicationEvent now with
    | none =>
      rw [hevent] at hcount
      have hnone : ¬ q.contentType.hasEvent = true := fun ht => by
        rw [show (q.moved next patch).contentType = q.contentType from rfl, if_pos ht] at hcount
        cases hcount
      rw [if_neg fun h => hnone h.2]
      rfl
    | some event =>
      rw [hevent] at hcount
      have hsome : q.contentType.hasEvent = true := by
        by_contra ht
        rw [show (q.moved next patch).contentType = q.contentType from rfl, if_neg ht] at hcount
        cases hcount
      rw [if_pos ⟨hnext, hsome⟩]
      show (s.outbox ++ [event]).countP _ = _
      rw [List.countP_append, List.countP_singleton, if_pos (beq_iff_eq.2 (hown event hevent))]
      rfl
  · rw [if_neg hnext, if_neg fun h => hnext h.1]
    rfl

theorem FlipOutcome.later (h : FlipOutcome next i t s) (hr : postLocks.rely t.held s s') : FlipOutcome next i t s' := by
  cases h with
  | untouched writes => exact .untouched writes
  | flipped q patch now row further held writes =>
    exact .flipped q patch now ((hr.1 i held).trans row) further held writes

theorem FlipOutcome.of_about (h : FlipOutcome next i t s) (ha : about i t' = about i t) (hh : t.held ⊆ t'.held) :
    FlipOutcome next i t' s := by
  cases h with
  | untouched writes => exact .untouched (ha.trans writes)
  | flipped q patch now row further held writes => exact .flipped q patch now row further (hh held) (ha.trans writes)

theorem FlipOutcome.untouched_of_hit (h : FlipOutcome next i t s)
    (hit : Relational.hit (t.view s) (Write.transitionStatus i e next patch) = true) (he : e ≠ next) :
    about i t = [] ∧ ∃ q, s.post i = some q ∧ q.status = e := by
  have hany : ((t.view s).post i).any (fun row => row.status == e) = true := hit
  rw [Option.any_eq_true] at hany
  obtain ⟨row, hrow, hstatus⟩ := hany
  rw [post_view] at hrow
  cases h with
  | untouched writes =>
    rw [writes] at hrow
    exact ⟨writes, row, hrow, beq_iff_eq.1 hstatus⟩
  | flipped q patch' now' hq further held writes =>
    rw [writes, post_flips hq] at hrow
    have hnext : row.status = next := by rw [← Option.some.inj hrow]; rfl
    exact absurd ((beq_iff_eq.1 hstatus).symm.trans hnext) he

theorem about_of_unwritten (h : t.writes = []) : about i t = [] := by
  unfold about
  rw [h, List.filter_nil]

theorem rank_lt_published (h : e ≠ .published) : e.rank < ContentStatus.rank .published := by
  cases e with
  | published => exact absurd rfl h
  | _ => decide

theorem status_of_schedule {next : ContentPost} {scheduledFor : Int}
    (h : post.schedule scheduledFor now = .ok next) : post.status = .draft := by
  unfold ContentPost.schedule at h
  split at h
  · cases h
  · split at h
    · cases h
    · rename_i hdraft
      exact not_not.1 hdraft

/-- An edit leaves the id and the status alone, and refuses a published post. -/
theorem edited_of_update {n : ContentPost} {edit : UpdateContentInput} (h : post.update edit now = .ok n) :
    n.id = post.id ∧ n.status = post.status ∧ post.status ≠ .published := by
  unfold ContentPost.update at h
  simp only [Bind.bind, Except.bind, Pure.pure, Except.pure, throw, throwThe, MonadExceptOf.throw] at h
  split at h
  · cases h
  · rename_i hpublished
    split at h
    · cases h
    · split at h
      · split at h
        · cases h
        · split at h
          · cases h
          · cases h
            exact ⟨rfl, rfl, hpublished⟩
      · split at h
        · cases h
        · cases h
          exact ⟨rfl, rfl, hpublished⟩

theorem id_of_update {n : ContentPost} {edit : UpdateContentInput} (h : post.update edit now = .ok n) :
    n.id = post.id := (edited_of_update h).1

theorem onlyWrites_assertPatchedTarget (post : ContentPost) (edit : UpdateContentInput) :
    Prog.OnlyWrites (fun _ => False) (ContentService.assertPatchedTarget post edit) := by
  have guarded : ∀ known (e : ContentError), Prog.OnlyWrites (fun _ : Write => False) (Prog.guardOr known e : Sql Unit) :=
    fun known e => by cases known <;> trivial
  unfold ContentService.assertPatchedTarget ContentService.assertTargetBelongsToKg
  split
  · split
    · exact fun s => guarded _ _
    · exact fun s => guarded _ _
    · trivial
  · trivial

/-- Right after the UPDATE of `j`: another post, or the flip alone, with the row read back. -/
inductive Flipped (e next : ContentStatus) (patch : TransitionStatusPatch) (i j : Nat) (t : Tx Store Key Write)
    (s : Store) (u : ContentPost) : Prop
  | other (ne : j ≠ i) (id : u.id = j) (h : FlipOutcome next i t s)
  | this (q : ContentPost) (eq : j = i) (row : s.post i = some q) (status : q.status = e) (held : Key.row i ∈ t.held)
      (writes : about i t = [.transitionStatus i e next patch]) (back : u = q.moved next patch)

theorem safe_flip {Q : Tx Store Key Write → Store → A → Prop} {f : Option ContentPost → Sql A}
    (he : e.rank < next.rank) (h : FlipOutcome next i t s) (hit : ∀ t' s' u, Flipped e next patch i j t' s' u →
      Prog.Safe postLocks (fun _ => True) X Q (f (some u)) t' s')
    (miss : ∀ t' s', FlipOutcome next i t' s' → Prog.Safe postLocks (fun _ => True) X Q (f none) t' s') :
    Prog.Safe postLocks (fun _ => True) X Q
      (Prog.bind (ContentRepository.transitionStatus j e next patch) f) t s := by
  have hne : e ≠ next := fun heq => by rw [heq] at he; exact absurd he (Nat.lt_irrefl _)
  refine Prog.Safe.returning (fun s₁ hr₁ _ hhit => ?_) fun s₁ hr₁ _ _ => miss t s₁ (h.later hr₁)
  have h₁ := h.later hr₁
  have hmem : Key.row j ∈ (t.wrote (Write.transitionStatus j e next patch)).held :=
    List.mem_append_left _ List.mem_cons_self
  refine Prog.Safe.query fun s₂ hr₂ _ => ?_
  show Prog.Safe postLocks _ X Q (f (((t.wrote (Write.transitionStatus j e next patch)).view s₂).post j)) _ s₂
  by_cases hji : j = i
  · -- the row that is read back is the one that was flipped
    subst hji
    obtain ⟨hnone, q, hq, hstatus⟩ := h₁.untouched_of_hit hhit hne
    have hq₂ : s₂.post j = some q := (hr₂.1 j hmem).trans hq
    have hwrites : about j (t.wrote (Write.transitionStatus j e next patch)) = [.transitionStatus j e next patch] := by
      have hown : (Write.transitionStatus j e next patch).postId = j := rfl
      rw [about_wrote t _ hown, hnone, List.nil_append]
    have hback : ((t.wrote (Write.transitionStatus j e next patch)).view s₂).post j = some (q.moved next patch) := by
      rw [post_view, hwrites]
      show (Relational.apply s₂ (Write.transitionStatus j e next patch)).post j = _
      rw [post_transition, hq₂, Option.map_some, if_pos ⟨rfl, beq_iff_eq.2 hstatus⟩]
    rw [hback]
    exact hit _ _ _ (.this q rfl hq₂ hstatus hmem hwrites rfl)
  · have hwrites : about i (t.wrote (Write.transitionStatus j e next patch)) = about i t :=
      about_wrote_of_ne t _ hji
    have h₂ : FlipOutcome next i ((t.wrote (Write.transitionStatus j e next patch)).saw s₂) s₂ := by
      refine FlipOutcome.later (s := s₁) ?_ hr₂
      exact h₁.of_about hwrites fun k hk => List.mem_append_right _ hk
    cases hback : ((t.wrote (Write.transitionStatus j e next patch)).view s₂).post j with
    | none => exact miss _ _ h₂
    | some u => exact hit _ _ _ (.other hji (Table.id_of_find hback) h₂)

theorem safe_emit (u : ContentPost) (now : Int) (t : Tx Store Key Write) (s : Store) :
    Prog.Safe postLocks (fun _ => True) X
      (fun t' s' _ => about i t' = about i t ++ (if u.id = i then (u.publicationEvent now).toList.map .enqueue else []) ∧
        t.held ⊆ t'.held ∧ postLocks.rely t.held s s') (emitPublishedEvent u now) t s := by
  unfold emitPublishedEvent
  cases hevent : u.publicationEvent now with
  | none =>
    refine fun s' hr _ => ⟨?_, List.Subset.refl _, hr⟩
    rw [Option.toList_none, List.map_nil, ite_self, List.append_nil]
  | some event =>
    refine Prog.Safe.update (fun s₁ hr₁ _ _ => ?_) fun s₁ _ _ hmiss => ?_
    · refine fun s₂ hr₂ _ => ⟨?_, List.subset_append_right _ _, postLocks.trans hr₁ hr₂⟩
      have hid : event.contentPostId = u.id := contentPostId_of_event hevent
      by_cases hi : u.id = i
      · rw [about_wrote t (.enqueue event) (hid.trans hi), if_pos hi]
        rfl
      · rw [about_wrote_of_ne t (.enqueue event) fun h => hi (hid.symm.trans h), if_neg hi, List.append_nil]
    · cases hmiss

theorem Flipped.emitted (h : Flipped e .published patch i j t s u) (he : e ≠ .published)
    (hwrites : about i t' = about i t ++ (if u.id = i then (u.publicationEvent now).toList.map .enqueue else []))
    (hheld : t.held ⊆ t'.held) (hr : postLocks.rely t.held s s') : FlipOutcome .published i t' s' := by
  cases h with
  | other ne id h =>
    rw [if_neg (fun h => ne (id.symm.trans h)), List.append_nil] at hwrites
    exact (h.later hr).of_about hwrites hheld
  | this q eq row status held writes back =>
    have hid : q.id = i := Table.id_of_find row
    have hu : u.id = i := back ▸ hid
    refine .flipped q patch now ((hr.1 i held).trans row) ?_ (hheld held) ?_
    · rw [status]
      cases e with
      | published => exact absurd rfl he
      | _ => decide
    · rw [hwrites, if_pos hu, writes, back]
      unfold flips
      rw [if_pos rfl, hid, status]
      rfl

theorem Flipped.scheduled (h : Flipped .draft .scheduled patch i j t s u) : FlipOutcome .scheduled i t s := by
  cases h with
  | other ne id h => exact h
  | this q eq row status held writes back =>
    have hid : q.id = i := Table.id_of_find row
    refine .flipped q patch 0 row (by rw [status]; decide) held ?_
    rw [writes]
    unfold flips
    rw [if_neg (by decide), hid, status]

theorem safe_publishOne (now : Int) (failing : List Nat) (post : ContentPost) (h : FlipOutcome .published i t s) :
    Prog.Safe postLocks (fun _ => True) X (fun t s _ => FlipOutcome .published i t s)
      (ContentPublishProcessor.publishOne now failing post) t s := by
  unfold ContentPublishProcessor.publishOne
  by_cases hfailing : failing.contains post.id = true
  · rw [if_pos hfailing]
    exact fun s' hr _ => h.later hr
  · rw [if_neg hfailing]
    refine safe_flip (by decide) h (fun t₁ s₁ u hflipped => ?_) fun t₁ s₁ h₁ s₂ hr₂ _ => h₁.later hr₂
    exact (safe_emit u now t₁ s₁).mono fun t₂ s₂ _ _ ⟨hwrites, hheld, hr⟩ =>
      hflipped.emitted (by decide) hwrites hheld hr

theorem safe_cron (now : Int) (failing : List Nat) (i : Nat) (s : Store) :
    Prog.Safe postLocks (fun _ => True) (fun _ => True) (fun t s _ => PostOutcome i t s (.cron now failing))
      (Op.cron now failing).prog .start s := by
  unfold Op.prog Op.answer ContentPublishProcessor.runForKindergarten ContentRepository.listScheduledDue
  simp only [Prog.bind_eq, Prog.bind_assoc]
  refine Prog.Safe.query fun v _ _ => ?_
  refine Prog.Safe.map (Q := fun t s _ => FlipOutcome .published i t s) ?_ fun t' s' _ _ h =>
    .moved .published h (fun _ _ _ h => by cases h) fun _ h => by cases h
  exact Prog.Safe.forEach (I := FlipOutcome .published i) (fun t s s' hr _ h => h.later hr)
    (fun post _ t s _ h => safe_publishOne now failing post h) trivial (.untouched rfl)

theorem safe_schedule (now : Int) (j : Nat) (scheduledFor : Int) (i : Nat) (s : Store) :
    Prog.Safe postLocks (fun _ => True) (fun _ => True) (fun t s _ => PostOutcome i t s (.schedule now j scheduledFor))
      (Op.schedule now j scheduledFor).prog .start s := by
  unfold Op.prog Op.answer ContentService.schedule ContentService.requirePost ContentRepository.findById
  simp only [Prog.bind_eq, Prog.bind_assoc]
  have hX : ∀ _ : ContentError, True := fun _ => trivial
  refine Prog.Safe.query fun v _ _ => Prog.Safe.require hX fun post _ => Prog.Safe.ofExcept hX fun p hp => ?_
  have hdraft : post.status = .draft := status_of_schedule hp
  rw [hdraft]
  refine safe_flip (i := i) (by decide) (.untouched rfl) (fun t₁ s₁ u hflipped => ?_) fun t₁ s₁ _ => trivial
  exact fun s₂ hr₂ _ => .moved .scheduled (hflipped.scheduled.later hr₂) (fun _ _ _ h => by cases h)
    fun _ h => by cases h

theorem safe_publish (now : Int) (j : Nat) (i : Nat) (s : Store) :
    Prog.Safe postLocks (fun _ => True) (fun _ => True) (fun t s _ => PostOutcome i t s (.publish now j))
      (Op.publish now j).prog .start s := by
  unfold Op.prog Op.answer ContentService.publish ContentService.requirePost ContentRepository.findById
  simp only [Prog.bind_eq, Prog.bind_assoc]
  have hX : ∀ _ : ContentError, True := fun _ => trivial
  refine Prog.Safe.query fun v _ _ => Prog.Safe.require hX fun post _ => Prog.Safe.guardOr hX fun hguard => ?_
  have hne : post.status ≠ .published := by simpa using hguard
  refine safe_flip (i := i) (rank_lt_published hne) (.untouched rfl) (fun t₁ s₁ u hflipped => ?_)
    fun t₁ s₁ _ => trivial
  refine Prog.Safe.map (Q := fun t s _ => FlipOutcome .published i t s) ?_ fun t' s' _ _ h =>
    .moved .published h (fun _ _ _ h => by cases h) fun _ h => by cases h
  exact (safe_emit u now t₁ s₁).mono fun t₂ s₂ _ _ ⟨hwrites, hheld, hr⟩ => hflipped.emitted hne hwrites hheld hr

theorem safe_update (now : Int) (j : Nat) (patch : UpdateContentInput) (i : Nat) (s : Store) :
    Prog.Safe postLocks (fun _ => True) (fun _ => True) (fun t s _ => PostOutcome i t s (.update now j patch))
      (Op.update now j patch).prog .start s := by
  unfold Op.prog Op.answer ContentService.update ContentService.requirePost ContentRepository.findById
    ContentRepository.update
  simp only [Prog.bind_eq, Prog.bind_assoc]
  have hX : ∀ _ : ContentError, True := fun _ => trivial
  refine Prog.Safe.query fun v _ _ => Prog.Safe.require hX fun post hpost => ?_
  refine Prog.Safe.bind_frame (onlyWrites_assertPatchedTarget post patch) hX trivial fun _ t₁ s₁ hext hr₁ _ => ?_
  refine Prog.Safe.ofExcept hX fun n hn => ?_
  have hunwritten : t₁.writes = [] := hext.unwritten
  have hread : (t₁.seen.head?.bind fun v => v.post j) = some post := by
    obtain ⟨rest, hrest⟩ := hext.seen
    rw [← hrest]
    exact hpost
  have hid : n.id = j := (id_of_update hn).trans (Table.id_of_find hpost)
  refine Prog.Safe.update (fun s₂ _ _ hhit s₃ hr₃ _ => ?_) fun s₂ _ _ hmiss s₃ hr₃ _ => ?_
  · by_cases hji : j = i
    · subst hji
      have hsome : (s₂.post j).isSome = true := by
        have hhit' : ((t₁.view s₂).post n.id).isSome = true := hhit
        rwa [post_view, about_of_unwritten hunwritten, hid] at hhit'
      obtain ⟨q, hq⟩ := Option.isSome_iff_exists.1 hsome
      refine .updated post n q hread hn ?_ ?_
      · refine (hr₃.1 j ?_).trans hq
        rw [← hid]
        exact List.mem_append_left _ List.mem_cons_self
      · rw [about_wrote t₁ (.updatePost n) hid, about_of_unwritten hunwritten, List.nil_append]
    · refine .elsewhere ?_ (fun now' patch' h => ?_) fun h => by cases h
      · rw [about_wrote_of_ne t₁ (.updatePost n) fun h => hji (hid.symm.trans h), about_of_unwritten hunwritten]
      · cases h
        exact absurd rfl hji
  · refine .elsewhere (about_of_unwritten hunwritten) (fun now' patch' h => ?_) fun h => by cases h
    cases h
    have hmiss' : ((t₁.view s₂).post n.id).isSome = false := hmiss
    rw [post_view, about_of_unwritten hunwritten, hid, Option.isSome_eq_false_iff, Option.isNone_iff_eq_none] at hmiss'
    exact hr₃.2 j hmiss'

theorem safe_delete (j i : Nat) (s : Store) :
    Prog.Safe postLocks (fun _ => True) (fun _ => True) (fun t s _ => PostOutcome i t s (.delete j))
      (Op.delete j).prog .start s := by
  unfold Op.prog Op.answer ContentService.delete ContentService.requirePost ContentRepository.findById
    ContentRepository.delete
  simp only [Prog.bind_eq, Prog.bind_assoc]
  have hX : ∀ _ : ContentError, True := fun _ => trivial
  refine Prog.Safe.query fun v _ _ => Prog.Safe.require hX fun post hpost => Prog.Safe.guardOr hX fun _ => ?_
  refine Prog.Safe.update (fun s₁ _ _ hhit => ?_) fun s₁ _ _ _ => Prog.Safe.guardOr hX fun h => by cases h
  refine Prog.Safe.guardOr hX fun _ s₂ hr₂ _ => ?_
  by_cases hji : j = i
  · subst hji
    refine .deleted ?_ ?_
    · rw [hr₂.1 j (List.mem_append_left _ List.mem_cons_self)]
      exact hhit
    · exact about_wrote _ _ rfl
  · refine .elsewhere ?_ (fun _ _ h => by cases h) fun h => hji (Op.delete.inj h)
    exact about_wrote_of_ne _ _ hji

theorem safe_outcome (op : Op) (i : Nat) (s : Store) :
    Prog.Safe postLocks (fun _ => True) (fun _ => True) (fun t s _ => PostOutcome i t s op) op.prog .start s := by
  cases op with
  | update now j patch => exact safe_update now j patch i s
  | delete j => exact safe_delete j i s
  | schedule now j scheduledFor => exact safe_schedule now j scheduledFor i s
  | publish now j => exact safe_publish now j i s
  | cron now failing => exact safe_cron now failing i s

end

/-! ## One commit -/

section

variable {s : Store} {c : ContentCommit} {i : Nat}

theorem Forward.refl (i : Nat) (h : s'.post i = s.post i) : Forward i s s' where
  status p p' hp hp' := by
    rw [h, hp] at hp'
    rw [Option.some.inj hp']
  gone hp := h.trans hp
  published p hp _ := h.trans hp

theorem rank_lt_two {p : ContentPost} (h : ¬ p.isPublished = true) : p.status.rank < 2 := by
  unfold ContentPost.isPublished at h
  revert h
  cases p.status <;> decide

theorem isPublished_iff_rank {p : ContentPost} : p.isPublished = true ↔ p.status.rank = 2 := by
  unfold ContentPost.isPublished
  cases p.status <;> decide

theorem not_announced_of_eq (h : s'.post i = s.post i) : ¬ Announced i s s' := by
  rintro ⟨hbefore, hafter⟩
  rw [h, Option.any_eq_true] at hafter
  obtain ⟨p, hp, hpublished⟩ := hafter
  rw [Store.isPublished, hp, Option.any_some] at hbefore
  rw [hbefore] at hpublished
  cases hpublished

theorem not_announced_of_status {p : ContentPost} (h : s'.post i = some p) (hp : p.status ≠ .published) :
    ¬ Announced i s s' := by
  rintro ⟨-, hafter⟩
  rw [h, Option.any_some, ContentPost.isPublished, Bool.and_eq_true] at hafter
  exact hp (beq_iff_eq.1 hafter.1)

theorem view_of_about {ws : List Write} (h : about i c.tx = ws) :
    (c.tx.view s).post i = (ws.foldl Relational.apply s).post i ∧
      (c.tx.view s).eventsOf i = (ws.foldl Relational.apply s).eventsOf i :=
  h ▸ ⟨post_view c.tx s i, eventsOf_view c.tx s i⟩

theorem post_edited {n q : ContentPost} (hid : n.id = i) (h : s.post i = some q) :
    ([Write.updatePost n].foldl Relational.apply s).post i = some (n.saved q) := by
  show (Relational.apply s (Write.updatePost n)).post i = _
  rw [post_update, h, Option.map_some, if_pos ⟨hid.symm, rfl⟩]

theorem PostOutcome.eventsOf (h : PostOutcome i c.tx s c.op) : (c.tx.view s).eventsOf i =
    s.eventsOf i + if Announced i s (c.tx.view s) then 1 else 0 := by
  have silent : ∀ {ws}, about i c.tx = ws → (ws.foldl Relational.apply s).eventsOf i = s.eventsOf i →
      ¬ Announced i s (c.tx.view s) → (c.tx.view s).eventsOf i =
        s.eventsOf i + if Announced i s (c.tx.view s) then 1 else 0 := by
    intro ws hws hevents hno
    rw [(view_of_about hws).2, hevents, if_neg hno, Nat.add_zero]
  generalize hop : c.op = op at h
  cases h with
  | @updated now patch p n q read next row writes =>
    obtain ⟨hid, hstatus, hne⟩ := edited_of_update next
    have hni : n.id = i := by
      obtain ⟨v, -, hv⟩ := Option.bind_eq_some_iff.1 read
      exact hid.trans (Table.id_of_find hv)
    have hpost := (view_of_about (s := s) writes).1.trans (post_edited hni row)
    refine silent writes rfl (not_announced_of_status hpost ?_)
    show n.status ≠ .published
    rwa [hstatus]
  | deleted row writes =>
    refine silent writes rfl ?_
    rintro ⟨-, hafter⟩
    have hpost : ([Write.deletePost i].foldl Relational.apply s).post i = none := by
      show (Relational.apply s (Write.deletePost i)).post i = none
      rw [post_delete, if_pos rfl]
    rw [(view_of_about writes).1, hpost] at hafter
    cases hafter
  | elsewhere writes absent others => exact silent writes rfl (not_announced_of_eq (view_of_about writes).1)
  | moved next h notEdit notDelete =>
    cases h with
    | untouched writes => exact silent writes rfl (not_announced_of_eq (view_of_about writes).1)
    | flipped q patch now row further held writes =>
      have hpost := (view_of_about (s := s) writes).1.trans (post_flips row)
      rw [(view_of_about writes).2, eventsOf_flips row]
      congr 1
      have hbefore : s.isPublished i = false := by
        rw [Store.isPublished, row, Option.any_some, Bool.eq_false_iff, ne_eq, isPublished_iff_rank]
        have hmax : next.rank ≤ 2 := by cases next <;> decide
        omega
      have hafter : ((c.tx.view s).post i).any (fun p => p.isPublished && p.contentType.hasEvent) = true ↔
          next = .published ∧ q.contentType.hasEvent = true := by
        rw [hpost, Option.any_some, Bool.and_eq_true]
        exact and_congr_left' beq_iff_eq
      have hiff : Announced i s (c.tx.view s) ↔ next = .published ∧ q.contentType.hasEvent = true :=
        (and_iff_right hbefore).trans hafter
      simp only [hiff]

theorem PostOutcome.forward_iff (h : PostOutcome i c.tx s c.op) : Forward i s (c.tx.view s) ↔ UpToDate i s c := by
  unfold UpToDate
  generalize hop : c.op = op at h
  cases h with
  | @updated now patch p n q read next row writes =>
    obtain ⟨hid, hstatus, hne⟩ := edited_of_update next
    have hni : n.id = i := by
      obtain ⟨v, -, hv⟩ := Option.bind_eq_some_iff.1 read
      exact hid.trans (Table.id_of_find hv)
    have hpost := (view_of_about (s := s) writes).1.trans (post_edited hni row)
    have hrank : (n.saved q).status.rank = p.status.rank := congrArg ContentStatus.rank hstatus
    have hp : p.status.rank < 2 := rank_lt_two fun hp => hne (beq_iff_eq.1 hp)
    constructor
    · intro hforward _ p' v hp' hv
      rw [row] at hp'
      obtain rfl := Option.some.inj hp'
      obtain rfl := Option.some.inj (hv.symm.trans read)
      exact hrank ▸ hforward.status q _ row hpost
    · intro hle
      have hq := hle rfl q p row read
      refine ⟨fun p₁ p₂ h₁ h₂ => ?_, fun h => (by rw [row] at h; cases h), fun p₁ h₁ hpublished => ?_⟩
      · obtain rfl := Option.some.inj (h₁.symm.trans row)
        obtain rfl := Option.some.inj (h₂.symm.trans hpost)
        exact hrank ▸ hq
      · obtain rfl := Option.some.inj (h₁.symm.trans row)
        rw [isPublished_iff_rank] at hpublished
        omega
  | deleted row writes =>
    obtain ⟨q, hq⟩ := Option.isSome_iff_exists.1 row
    have hpost : (c.tx.view s).post i = none := by
      rw [(view_of_about writes).1]
      show (Relational.apply s (Write.deletePost i)).post i = none
      rw [post_delete, if_pos rfl]
    constructor
    · intro hforward _
      by_contra hpublished
      rw [Store.isPublished, hq, Option.any_some, Bool.not_eq_false] at hpublished
      have hstays := hforward.published q hq hpublished
      rw [hpost] at hstays
      cases hstays
    · intro hdraft
      refine ⟨fun _ _ _ h => ?_, fun _ => hpost, fun p hp hpublished => ?_⟩
      · rw [hpost] at h
        cases h
      · have hdraft := hdraft rfl
        rw [Store.isPublished, hp, Option.any_some, hpublished] at hdraft
        cases hdraft
  | elsewhere writes absent others =>
    refine iff_of_true (Forward.refl i (view_of_about writes).1) ?_
    cases op with
    | update now j patch =>
      intro hji p v hp
      rw [absent now patch (by rw [hji])] at hp
      cases hp
    | delete j => exact fun hji => absurd (by rw [hji]) others
    | _ => trivial
  | moved next h notEdit notDelete =>
    refine iff_of_true ?_ ?_
    · cases h with
      | untouched writes => exact Forward.refl i (view_of_about writes).1
      | flipped q patch now row further held writes =>
        have hpost := (view_of_about (s := s) writes).1.trans (post_flips row)
        refine ⟨fun p₁ p₂ h₁ h₂ => ?_, fun h => (by rw [row] at h; cases h), fun p₁ h₁ hpublished => ?_⟩
        · obtain rfl := Option.some.inj (h₁.symm.trans row)
          obtain rfl := Option.some.inj (h₂.symm.trans hpost)
          exact Nat.le_of_lt further
        · obtain rfl := Option.some.inj (h₁.symm.trans row)
          rw [isPublished_iff_rank] at hpublished
          have hmax : next.rank ≤ 2 := by cases next <;> decide
          omega
    · cases op with
      | update now j patch => exact absurd rfl (notEdit now j patch)
      | delete j => exact absurd rfl (notDelete j)
      | _ => trivial

end

/-! ## Runs -/

theorem run_outcomes {n : Nat} {s : Store} {cs : Schedule n} {σ : System n} (h : run s cs = some σ) (i : Nat) :
    Chain (fun v (c : ContentCommit) => PostOutcome i c.tx v c.op) s σ.log σ.db := by
  have hsafe : ∀ op s, True → True → Prog.Safe postLocks (fun _ => True) (fun _ => True)
      (fun t s _ => PostOutcome i t s op ∧ ∀ w ∈ t.writes, Relational.keys Store w ⊆ t.held) op.prog .start s :=
    fun op s _ _ => (safe_outcome op i s).withKeys fun _ => trivial
  have hstarts : System.Starts (fun _ => True) cs := fun _ _ _ => trivial
  have hchain := System.exec_chain (J := fun _ => True) trivial hsafe (fun _ _ _ _ _ _ => trivial)
    (fun op t s a _ hq => Discipline.guarantee_of_respects (fun w hw => postLocks_respects (hq.2 w hw)) s) hstarts h
  exact hchain.mono fun s c h => h.2.1

theorem Forward.trans {s₀ s : Store} {i : Nat} (h₀ : Forward i s₀ s) (h : Forward i s s') : Forward i s₀ s' where
  status p p' hp hp' := by
    cases hmid : s.post i with
    | none => rw [h.gone hmid] at hp'; cases hp'
    | some q => exact (h₀.status p q hp hmid).trans (h.status q p' hmid hp')
  gone hp := h.gone (h₀.gone hp)
  published p hp hpublished := h.published p (h₀.published p hp hpublished) hpublished

theorem announced_trans {s₀ s : Store} {i : Nat} (h₀ : Forward i s₀ s) (h : Forward i s s') :
    ((if Announced i s₀ s then 1 else 0) + if Announced i s s' then 1 else 0 : Nat) =
      if Announced i s₀ s' then 1 else 0 := by
  have stays : ∀ {v v' : Store}, Forward i v v' → v.isPublished i = true → v'.post i = v.post i := by
    intro v v' hv hpublished
    obtain ⟨p, hp, hpub⟩ := (Option.any_eq_true _ _).1 hpublished
    exact (hv.published p hp hpub).trans hp.symm
  by_cases hs : s.isPublished i = true
  · -- published on the way here, or before: nothing is announced any more
    have hpost := stays h hs
    have hlater : ¬ Announced i s s' := not_announced_of_eq hpost
    have hiff : Announced i s₀ s' ↔ Announced i s₀ s := by
      unfold Announced
      rw [hpost]
    simp only [hlater, hiff, if_false, Nat.add_zero]
  · have hs : s.isPublished i = false := Bool.eq_false_of_not_eq_true hs
    have hs₀ : s₀.isPublished i = false := by
      by_contra hp
      have hp := Bool.eq_true_of_not_eq_false hp
      have hsame : s.isPublished i = s₀.isPublished i := by rw [Store.isPublished, Store.isPublished, stays h₀ hp]
      rw [hs, hp] at hsame
      cases hsame
    have hnow : ¬ Announced i s₀ s := by
      rintro ⟨-, hafter⟩
      obtain ⟨p, hp, hpublished⟩ := (Option.any_eq_true _ _).1 hafter
      rw [Store.isPublished, hp, Option.any_some] at hs
      rw [hs] at hpublished
      cases hpublished
    have hiff : Announced i s s' ↔ Announced i s₀ s' := by
      unfold Announced
      rw [hs, hs₀]
    simp only [hnow, hiff, if_false, Nat.zero_add]

/-- The post goes forward, and has one event exactly if it is published on the way, as long as each edit finds it no
further than it has read it and each deletion finds it unpublished. -/
theorem publication_iff {n : Nat} {s : Store} {cs : Schedule n} {σ : System n} (h : run s cs = some σ) (i : Nat) :
    (AtEach (fun v c => Forward i v (c.tx.view v)) s σ.log ∧
      σ.db.eventsOf i = s.eventsOf i + if Announced i s σ.db then 1 else 0) ↔ AtEach (UpToDate i) s σ.log := by
  have hchain := run_outcomes h i
  have hiff : AtEach (fun v c => Forward i v (c.tx.view v)) s σ.log ↔ AtEach (UpToDate i) s σ.log :=
    AtEach.congr (hchain.atEach.mono fun v c hc => hc.forward_iff)
  refine ⟨fun hall => hiff.1 hall.1, fun hall => ⟨hiff.2 hall, ?_⟩⟩
  have hforward := hchain.and (hiff.2 hall)
  refine (Chain.inv (fun v => Forward i s v ∧ v.eventsOf i = s.eventsOf i + if Announced i s v then 1 else 0)
    ⟨Forward.refl i rfl, ?_⟩ (fun v c hv hc => ⟨hv.1.trans hc.2, ?_⟩) hforward).2
  · rw [if_neg (not_announced_of_eq rfl), Nat.add_zero]
  · rw [hc.1.eventsOf, hv.2, Nat.add_assoc, announced_trans hv.1 hc.2]

/-! ## An edit over a publication -/

instance (i : Nat) (s s' : Store) : Decidable (Forward i s s') :=
  decidable_of_iff ((∀ p ∈ s.post i, ∀ p' ∈ s'.post i, p.status.rank ≤ p'.status.rank) ∧
      (s.post i = none → s'.post i = none) ∧ ∀ p ∈ s.post i, p.isPublished = true → s'.post i = some p)
    ⟨fun ⟨h₁, h₂, h₃⟩ => ⟨fun p p' hp hp' => h₁ p hp p' hp', h₂, h₃⟩,
      fun ⟨h₁, h₂, h₃⟩ => ⟨fun p hp p' hp' => h₁ p p' hp hp', h₂, h₃⟩⟩

/-- News for everyone, due at 100. -/
def openDay : ContentPost :=
  ⟨1, .news, .all, none, none, some "Open day", none, none, none, none, none, some 100, none, none, .scheduled, some 7⟩

def newsStore : Store := ⟨[openDay], [], [], []⟩

def retitle : Op := .update 50 1 ⟨some (some "Open doors"), none, none, none, none, none, none, none, none, none, none, false⟩

/-- The cron publishes the post between the read and the write of an edit, and publishes it again afterwards. -/
def editOverPublication : Schedule 2 :=
  .start 0 retitle :: Choice.steps 0 1 0 ++ Choice.request 1 (.cron 100 []) 5 0 ++ Choice.steps 0 2 0 ++
    Choice.request 1 (.cron 160 []) 5 0

theorem editOverPublication_announces_twice : ∃ σ : System 2, run newsStore editOverPublication = some σ ∧
    σ.log.length = 3 ∧ σ.db.eventsOf 1 = 2 ∧ ¬ AtEach (fun v c => Forward 1 v (c.tx.view v)) newsStore σ.log := by
  obtain ⟨σ, hrun, h⟩ := run_shows run newsStore editOverPublication (fun σ : System 2 => decide (σ.log.length = 3 ∧
    σ.db.eventsOf 1 = 2 ∧ ¬ AtEach (fun v c => Forward 1 v (c.tx.view v)) newsStore σ.log)) (by decide +kernel)
  exact ⟨σ, hrun, of_decide_eq_true h⟩

/-- The post is edited, then published by the cron. -/
def editThenPublish : Schedule 2 := Choice.request 0 retitle 3 0 ++ Choice.request 1 (.cron 100 []) 5 0

theorem publication_editThenPublish : ∃ σ : System 2, run newsStore editThenPublish = some σ ∧
    σ.db.isPublished 1 = true ∧
    ((AtEach (fun v c => Forward 1 v (c.tx.view v)) newsStore σ.log ∧
      σ.db.eventsOf 1 = newsStore.eventsOf 1 + if Announced 1 newsStore σ.db then 1 else 0) ↔
      AtEach (UpToDate 1) newsStore σ.log) := by
  obtain ⟨σ, hrun, h⟩ := run_shows run newsStore editThenPublish (fun σ : System 2 =>
    decide (σ.db.isPublished 1 = true)) (by decide +kernel)
  exact ⟨σ, hrun, of_decide_eq_true h, publication_iff hrun 1⟩

end Content
