import Shyraq.Notifications.Dispatcher

/-!
# Resolvers

Every resolver of the table only reads, and finds each recipient once.
-/

namespace Notifications

open Transactions

theorem onlyReads_resolveGuardiansOf (field : String) (e : OutboxEvent) : Prog.OnlyReads (resolveGuardiansOf field e) :=
  .bind (.ofExcept _) fun _ => .bind (.query _) fun _ => trivial

theorem onlyReads_resolveRequester (marksNanny : Bool) (e : OutboxEvent) :
    Prog.OnlyReads (resolveRequester marksNanny e) :=
  .bind (.ofExcept _) fun _ => .bind (.ofExcept _) fun _ => .bind (.query _) fun _ => trivial

theorem onlyReads_resolveSelf (field : String) (e : OutboxEvent) : Prog.OnlyReads (resolveSelfFromField field e) :=
  .bind (.ofExcept _) fun _ => trivial

theorem onlyReads_resolveGroup (field : String) (e : OutboxEvent) : Prog.OnlyReads (resolveGroup field e) :=
  .bind (.ofExcept _) fun _ => .bind (.query _) fun _ => trivial

/-- What every resolver does. -/
structure RecipientResolver.Proper (resolver : RecipientResolver) : Prop where
  reads : ∀ e, Prog.OnlyReads (resolver e)
  distinct : ∀ e vs r, (resolver e).answered vs = some (.ok r) → r.userIds.Nodup

theorem nodup_foldl_approvedRound (gs : List ChildGuardian) (r : ResolvedRecipients) (h : r.userIds.Nodup) :
    (gs.foldl approvedRound r).userIds.Nodup := by
  induction gs generalizing r with
  | nil => exact h
  | cons g gs ih =>
    refine ih _ ?_
    unfold approvedRound
    by_cases hg : g.approvedActive = true
    · rw [if_pos hg]
      by_cases hmem : r.userIds.contains g.userId = true
      · simpa only [hmem, if_true] using h
      · rw [Bool.not_eq_true] at hmem
        simp only [hmem, Bool.false_eq_true, if_false]
        refine List.Nodup.append h (List.nodup_singleton _) ?_
        simpa [List.disjoint_singleton] using hmem
    · rwa [if_neg hg]

theorem proper_resolveGuardiansOf (field : String) : RecipientResolver.Proper (resolveGuardiansOf field) where
  reads := onlyReads_resolveGuardiansOf field
  distinct e vs r h := by
    obtain ⟨c, -, h₁⟩ := Prog.answered_ofExcept h
    obtain ⟨w, vs', -, h₂⟩ := Prog.answered_query h₁
    obtain ⟨rfl, -⟩ := Prog.answered_ret h₂
    exact nodup_foldl_approvedRound _ noRecipients List.nodup_nil

theorem proper_resolveRequester (marksNanny : Bool) : RecipientResolver.Proper (resolveRequester marksNanny) where
  reads := onlyReads_resolveRequester marksNanny
  distinct e vs r h := by
    obtain ⟨u, -, h₁⟩ := Prog.answered_ofExcept h
    obtain ⟨c, -, h₂⟩ := Prog.answered_ofExcept h₁
    obtain ⟨w, vs', -, h₃⟩ := Prog.answered_query h₂
    obtain ⟨rfl, -⟩ := Prog.answered_ret h₃
    unfold requesterOf
    split
    · exact List.nodup_nil
    · exact List.nodup_singleton _

theorem proper_resolveSelf (field : String) : RecipientResolver.Proper (resolveSelfFromField field) where
  reads := onlyReads_resolveSelf field
  distinct e vs r h := by
    obtain ⟨c, -, h₁⟩ := Prog.answered_ofExcept h
    obtain ⟨rfl, -⟩ := Prog.answered_ret h₁
    exact List.nodup_singleton _

theorem proper_resolveGroup (field : String) : RecipientResolver.Proper (resolveGroup field) where
  reads := onlyReads_resolveGroup field
  distinct e vs r h := by
    obtain ⟨c, -, h₁⟩ := Prog.answered_ofExcept h
    obtain ⟨w, vs', -, h₂⟩ := Prog.answered_query h₁
    obtain ⟨rfl, -⟩ := Prog.answered_ret h₂
    exact List.nodup_dedup _

theorem proper_kindergarten : RecipientResolver.Proper resolveContentQundylyqRecipients where
  reads _ := .bind (.query _) fun _ => trivial
  distinct e vs r h := by
    obtain ⟨w, vs', -, h₁⟩ := Prog.answered_query h
    obtain ⟨rfl, -⟩ := Prog.answered_ret h₁
    exact List.nodup_dedup _

theorem proper_cancelled : RecipientResolver.Proper resolveParentRequestCancelledRecipients where
  reads _ := trivial
  distinct e vs r h := by
    obtain ⟨rfl, -⟩ := Prog.answered_ret h
    cases asNonEmptyString (e.payload.lookup "recipientStaffUserId") with
    | none => exact List.nodup_nil
    | some u => exact List.nodup_singleton _

theorem proper_message : RecipientResolver.Proper resolveParentRequestMessageRecipients where
  reads e := .bind (.ofExcept _) fun role => by
    split
    · exact proper_cancelled.reads e
    · exact onlyReads_resolveRequester true e
  distinct e vs r h := by
    obtain ⟨role, -, h₁⟩ := Prog.answered_ofExcept h
    split at h₁
    · exact proper_cancelled.distinct e vs r h₁
    · exact (proper_resolveRequester true).distinct e vs r h₁

theorem proper_payload : RecipientResolver.Proper resolveRecipientUserIdsFromPayload where
  reads _ := trivial
  distinct e vs r h := by
    obtain ⟨rfl, -⟩ := Prog.answered_ret h
    exact List.nodup_reverse.2 (List.nodup_dedup _)

theorem proper_discount : RecipientResolver.Proper resolveDiscountActivatedRecipients where
  reads e := by
    refine Prog.OnlyReads.bind ?_ fun _ => trivial
    unfold ChildGuardianRepository.findApprovedUserIdsBySomeChildIds
    split
    · trivial
    · exact .query _
  distinct e vs r h := by
    obtain ⟨userIds, vs₁, vs₂, -, husers, h₁⟩ := Prog.answered_bind h
    obtain ⟨rfl, -⟩ := Prog.answered_ret h₁
    unfold ChildGuardianRepository.findApprovedUserIdsBySomeChildIds at husers
    split at husers
    · obtain ⟨rfl, -⟩ := Prog.answered_ret husers
      exact List.nodup_nil
    · obtain ⟨w, vs', -, h₂⟩ := Prog.answered_query (f := Prog.ret) husers
      obtain ⟨rfl, -⟩ := Prog.answered_ret h₂
      exact List.nodup_dedup _

theorem proper_news : RecipientResolver.Proper resolveContentNewsPublishedRecipients where
  reads e := .bind (.ofExcept _) fun target => by
    split
    · exact proper_kindergarten.reads e
    · split
      · exact onlyReads_resolveGroup _ e
      · split
        · exact onlyReads_resolveGuardiansOf _ e
        · trivial
  distinct e vs r h := by
    obtain ⟨target, -, h₁⟩ := Prog.answered_ofExcept h
    split at h₁
    · exact proper_kindergarten.distinct e vs r h₁
    · split at h₁
      · exact (proper_resolveGroup _).distinct e vs r h₁
      · split at h₁
        · exact (proper_resolveGuardiansOf _).distinct e vs r h₁
        · obtain ⟨rfl, -⟩ := Prog.answered_ret h₁
          exact List.nodup_nil

theorem proper_pickupValidated : RecipientResolver.Proper resolvePickupValidatedRecipients where
  reads e := by
    refine .bind (onlyReads_resolveGuardiansOf _ e) fun found => .bind (.ofExcept _) fun requesterId => ?_
    unfold withRequester
    split
    · trivial
    · exact .bind (.ofExcept _) fun _ => .bind (.query _) fun _ => trivial
  distinct e vs r h := by
    obtain ⟨found, vs₁, vs₂, -, hfound, h₁⟩ := Prog.answered_bind h
    obtain ⟨requesterId, -, h₂⟩ := Prog.answered_ofExcept h₁
    have hnodup := (proper_resolveGuardiansOf "childId").distinct e vs₁ found hfound
    unfold withRequester at h₂
    split at h₂
    · obtain ⟨rfl, -⟩ := Prog.answered_ret h₂
      exact hnodup
    · rename_i hmem
      obtain ⟨c, -, h₃⟩ := Prog.answered_ofExcept h₂
      obtain ⟨w, vs', -, h₄⟩ := Prog.answered_query h₃
      obtain ⟨rfl, -⟩ := Prog.answered_ret h₄
      split
      · refine List.Nodup.append hnodup (List.nodup_singleton _) ?_
        simpa [List.disjoint_singleton] using hmem
      · exact hnodup

variable {resolver : RecipientResolver}

theorem proper_of_lookup {key : String} (h : recipientResolvers.lookup key = some resolver) : resolver.Proper := by
  have hall : ∀ p ∈ recipientResolvers, RecipientResolver.Proper p.2 := by
    unfold recipientResolvers
    simp only [List.forall_mem_cons]
    have child := proper_resolveGuardiansOf "childId"
    have self := proper_resolveSelf
    exact ⟨child, child, child, child, self _, self _, self _, self _, self _, self _, child, child, child,
      proper_resolveRequester false, proper_pickupValidated, proper_resolveRequester true, proper_resolveRequester true,
      proper_cancelled, proper_message, child, child, child, child, child, child, child, child, proper_payload,
      proper_payload, proper_payload, proper_discount, child, child, proper_resolveGuardiansOf _, proper_news,
      proper_kindergarten, proper_resolveGroup _, fun _ h => absurd h List.not_mem_nil⟩
  obtain ⟨k, hmem⟩ : ∃ k, (k, resolver) ∈ recipientResolvers := by
    obtain ⟨l₁, l₂, heq, -⟩ := List.lookup_eq_some_iff.1 h
    exact ⟨key, heq ▸ List.mem_append_right _ List.mem_cons_self⟩
  exact hall _ hmem

/-! ## The dispatch -/

section

variable {event : OutboxEvent}

theorem onlyReads_fanoutPush (faults : Faults) (userIds : List Uuid) : Prog.OnlyReads (fanoutPush faults userIds) := by
  unfold fanoutPush
  split
  · trivial
  · exact .bind (.query _) fun _ => trivial

theorem onlyReads_effectiveRecipients (h : resolver.Proper) (event : OutboxEvent) :
    Prog.OnlyReads (effectiveRecipients resolver event) := by
  refine .bind (h.reads event) fun r => .bind ?_ fun _ => trivial
  unfold findByUserIdsAndEventKey
  split
  · trivial
  · exact .query _

theorem onlyReads_dispatch (now : Int) (faults : Faults) (event : OutboxEvent) :
    Prog.OnlyReads (dispatch now faults event) := by
  refine .tryCatch ?_ fun _ => trivial
  unfold attempt
  split
  · trivial
  · rename_i resolver hl
    split
    · trivial
    · exact .bind (onlyReads_effectiveRecipients (proper_of_lookup hl) event) fun _ =>
        .bind (onlyReads_fanoutPush faults _) fun _ => trivial

theorem nodup_effective {vs : List Store} {effective : List Effective}
    (hl : recipientResolvers.lookup event.eventKey = some resolver)
    (h : (effectiveRecipients resolver event).answered vs = some (.ok effective)) :
    (effective.map Effective.userId).Nodup := by
  obtain ⟨r, vs₁, vs₂, preferences, -, hr, rfl, -⟩ := answered_effectiveRecipients h
  have hflags : ∀ l : List Uuid, (l.map (effectiveFlags preferences)).map Effective.userId = l := by
    intro l
    rw [List.map_map]
    exact (List.map_congr_left fun u _ => userId_effectiveFlags preferences u).trans (List.map_id l)
  rw [hflags]
  have hnodup := (proper_of_lookup hl).distinct event vs₁ r hr
  unfold applyNannyPolicy
  split
  · exact hnodup
  · exact hnodup.filter _

end

end Notifications
