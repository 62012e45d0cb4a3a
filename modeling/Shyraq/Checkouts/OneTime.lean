import Mathlib.Data.List.Nodup
import Shyraq.Checkouts.Store

/-!
# A checkout form is handed out once

A session that is there has its token under its payment, for as long as it lives.  What removes that token has seen the
session gone, and a token that is gone does not come back.
-/

namespace Checkouts

open Kernel

variable {B : Type}

/-! ## What is claimed -/

/-- The session that a token names now. -/
def sessionAt (env : Env B) (redis : Redis B) (token : CheckoutToken) : Option BccCheckoutSession :=
  match redis.get (sessionKey token) with
  | some (.sealed encrypted) => env.cipher.decryptString encrypted
  | _ => none

/-- The payment and the token that a caller is given. -/
def Answer.hands : Answer → Option (Uuid × Uuid × CheckoutToken)
  | .handle kindergartenId paymentId token _ => some (kindergartenId, paymentId, token)
  | .found kindergartenId paymentId token => some (kindergartenId, paymentId, token)
  | _ => none

/-- The token whose session is handed out. -/
def Answer.consumed : Answer → Option CheckoutToken
  | .returned token _ => some token
  | _ => none

/-- The token that a call consumes. -/
def Call.consumes : Call → Option CheckoutToken
  | .consume token => some token
  | .release token _ => some token
  | _ => none

/-- A drawn token is not the one of a session that has been there and is gone. -/
def State.fresh (σ : State B) : Event → Bool
  | .exec i draw | .lose i draw =>
      match σ.calls i with
      | some (.createOrReuse _ _) => !(σ.stored.map Prod.fst).contains draw.1 || σ.redis.has (sessionKey draw.1)
      | _ => true
  | _ => true

def State.freshRun (env : Env B) : State B → List Event → Bool
  | _, [] => true
  | σ, e :: events => σ.fresh e && (σ.step env e).all fun σ' => freshRun env σ' events

structure State.OneTime (env : Env B) (σ : State B) : Prop where
  /-- Every stored session has a token of its own, -/
  distinct : (σ.stored.map Prod.fst).Nodup
  /-- and at most one `consume` returns it. -/
  once : (σ.answers.filterMap Answer.consumed).Nodup
  asStored : ∀ token session, .returned token session ∈ σ.answers → (token, session) ∈ σ.stored
  /-- A payment has one live session at most. -/
  single : ∀ token token' session session', sessionAt env σ.redis token = some session →
    sessionAt env σ.redis token' = some session' → session.kindergartenId = session'.kindergartenId →
    session.paymentId = session'.paymentId → token = token'
  /-- A token that is handed to a caller names a live session of the payment. -/
  named : ∀ e σ' answer kindergartenId paymentId token, σ.fresh e = true → σ.step env e = some σ' →
    σ'.answers = answer :: σ.answers → answer.hands = some (kindergartenId, paymentId, token) →
    ∃ session, sessionAt env σ'.redis token = some session ∧ session.kindergartenId = kindergartenId ∧
      session.paymentId = paymentId
  /-- Consuming one token leaves the reverse key alone if it holds another one, or one whose session is there. -/
  kept : ∀ i call token draw e σ', σ.calls i = some call → call.consumes = some token →
    e = .exec i draw ∨ e = .lose i draw → σ.step env e = some σ' →
    ∀ kindergartenId paymentId newer, tokenAt σ.redis (paymentKey kindergartenId paymentId) = some newer →
      newer ≠ token ∨ σ'.redis.has (sessionKey newer) = true →
      tokenAt σ'.redis (paymentKey kindergartenId paymentId) = some newer

/-! ## The keys -/

variable {kindergartenId paymentId : Uuid}

section

variable {redis redis' : Redis B} {k k' : String} {ms ms' : Nat} {token token' : CheckoutToken}

theorem sessionKey_injective (h : sessionKey token = sessionKey token') : token = token' := by
  unfold sessionKey at h
  have htext := String.append_right_inj _ |>.1 h
  cases token
  cases token'
  cases htext
  rfl

theorem not_mem_uuid (id : Uuid) : ':' ∉ id.text.toList := fun hmem => by
  have hc := List.all_eq_true.1 id.hex ':' hmem
  exact absurd hc (by decide)

theorem paymentKey_injective {kindergartenId' paymentId' : Uuid}
    (h : paymentKey kindergartenId paymentId = paymentKey kindergartenId' paymentId') :
    kindergartenId = kindergartenId' ∧ paymentId = paymentId' := by
  have hl := congrArg String.toList h
  unfold paymentKey at hl
  simp only [String.toList_append, List.append_assoc, List.append_cancel_left_eq] at hl
  obtain ⟨hk, -, hp⟩ := (List.append_cons_inj_of_notMem (not_mem_uuid _) (not_mem_uuid _)).1 hl.symm
  cases kindergartenId
  cases kindergartenId'
  cases paymentId
  cases paymentId'
  obtain rfl := String.toList_inj.1 hk
  obtain rfl := String.toList_inj.1 hp
  exact ⟨rfl, rfl⟩

theorem paymentKey_ne_sessionKey : paymentKey kindergartenId paymentId ≠ sessionKey token := by
  intro h
  have hl := congrArg String.toList h
  unfold paymentKey sessionKey at hl
  simp only [String.toList_append] at hl
  cases hl

theorem tokenAfter_congr (h : redis'.getAfter ms' k' = redis.getAfter ms k) :
    tokenAfter redis' ms' k' = tokenAfter redis ms k := by
  unfold tokenAfter
  rw [h]

theorem tokenAfter_eq_some : tokenAfter redis ms k = some token ↔ redis.getAfter ms k = some (.token token) := by
  unfold tokenAfter
  constructor
  · intro h
    split at h
    · next heq =>
      obtain rfl := Option.some.inj h
      exact heq
    · cases h
  · intro h
    rw [h]

theorem tokenAt_of_later (h : tokenAfter redis ms k = some token) : tokenAt redis k = some token :=
  tokenAfter_eq_some.2 (KeySpace.getAfter_of_later (Nat.zero_le ms) (tokenAfter_eq_some.1 h))

end

/-! ## The two keys -/

/-- What holds between any two commands. -/
structure Held (env : Env B) (redis : Redis B) (stored : List (CheckoutToken × BccCheckoutSession)) : Prop where
  /-- The reverse key lives as long as the session. -/
  pointed : ∀ ms token v, redis.getAfter ms (sessionKey token) = some v → ∃ nonce session,
    v = .sealed (env.cipher.encryptString nonce session) ∧ (token, session) ∈ stored ∧
      tokenAfter redis ms (paymentKey session.kindergartenId session.paymentId) = some token
  owned : ∀ kindergartenId paymentId token, tokenAt redis (paymentKey kindergartenId paymentId) = some token →
    ∃ session, (token, session) ∈ stored ∧ session.kindergartenId = kindergartenId ∧ session.paymentId = paymentId
  distinct : (stored.map Prod.fst).Nodup

section

variable {env : Env B} {redis redis' redis₀ : Redis B} {stored stored' : List (CheckoutToken × BccCheckoutSession)}
  {token : CheckoutToken} {session session' : BccCheckoutSession} {kindergartenId paymentId : Uuid}

theorem Held.eq_of_mem (h : Held env redis stored) (hs : (token, session) ∈ stored) (hs' : (token, session') ∈ stored) :
    session = session' := congrArg Prod.snd (List.inj_on_of_nodup_map h.distinct hs hs' rfl)

theorem Held.sessionAt {v : Value B} (hcipher : ∀ nonce session,
      env.cipher.decryptString (env.cipher.encryptString nonce session) = some session)
    (h : Held env redis stored) (hv : redis.get (sessionKey token) = some v) :
    ∃ session, sessionAt env redis token = some session ∧ (token, session) ∈ stored ∧
      tokenAt redis (paymentKey session.kindergartenId session.paymentId) = some token := by
  obtain ⟨nonce, session, rfl, hmem, hpointed⟩ := h.pointed 0 token v hv
  refine ⟨session, ?_, hmem, hpointed⟩
  unfold Checkouts.sessionAt
  rw [hv]
  exact hcipher nonce session

theorem Held.later {d : Nat} (h : Held env redis stored)
    (hsame : ∀ ms k, redis'.getAfter ms k = redis.getAfter (d + ms) k) : Held env redis' stored := by
  refine ⟨fun ms token v hv => ?_, fun kindergartenId paymentId token htoken => ?_, h.distinct⟩
  · rw [hsame] at hv
    obtain ⟨nonce, session, rfl, hmem, hpointed⟩ := h.pointed (d + ms) token v hv
    exact ⟨nonce, session, rfl, hmem, (tokenAfter_congr (hsame ms _)).trans hpointed⟩
  · have hlater : tokenAfter redis (d + 0) (paymentKey kindergartenId paymentId) = some token :=
      (tokenAfter_congr (hsame 0 _)).symm.trans htoken
    exact h.owned kindergartenId paymentId token (tokenAt_of_later hlater)

theorem Held.take (h : Held env redis stored) (token : CheckoutToken) :
    Held env (redis.del (sessionKey token)) stored := by
  have hpayment : ∀ ms kindergartenId paymentId,
      tokenAfter (redis.del (sessionKey token)) ms (paymentKey kindergartenId paymentId) =
        tokenAfter redis ms (paymentKey kindergartenId paymentId) := fun ms _ _ =>
    tokenAfter_congr (KeySpace.getAfter_del_of_ne paymentKey_ne_sessionKey)
  refine ⟨fun ms other v hv => ?_, fun kindergartenId paymentId other hother => ?_, h.distinct⟩
  · by_cases hsame : other = token
    · subst hsame
      rw [KeySpace.getAfter_del_self] at hv
      cases hv
    · rw [KeySpace.getAfter_del_of_ne fun hkey => hsame (sessionKey_injective hkey)] at hv
      obtain ⟨nonce, session, rfl, hmem, hpointed⟩ := h.pointed ms other v hv
      exact ⟨nonce, session, rfl, hmem, (hpayment ms _ _).trans hpointed⟩
  · exact h.owned kindergartenId paymentId other ((hpayment 0 _ _).symm.trans hother)

theorem Held.drop (h : Held env redis stored)
    (hgone : ∀ token, tokenAt redis (paymentKey kindergartenId paymentId) = some token →
      redis.get (sessionKey token) = none) : Held env (redis.del (paymentKey kindergartenId paymentId)) stored := by
  have hsession : ∀ ms token, (redis.del (paymentKey kindergartenId paymentId)).getAfter ms (sessionKey token) =
      redis.getAfter ms (sessionKey token) := fun ms _ =>
    KeySpace.getAfter_del_of_ne fun hkey => paymentKey_ne_sessionKey hkey.symm
  refine ⟨fun ms token v hv => ?_, fun kindergartenId' paymentId' token htoken => ?_, h.distinct⟩
  · rw [hsession] at hv
    obtain ⟨nonce, session, rfl, hmem, hpointed⟩ := h.pointed ms token v hv
    refine ⟨nonce, session, rfl, hmem, ?_⟩
    have hother : paymentKey session.kindergartenId session.paymentId ≠ paymentKey kindergartenId paymentId := by
      intro hkey
      have hnow := KeySpace.getAfter_of_later (Nat.zero_le ms) hv
      rw [hkey] at hpointed
      rw [show redis.getAfter 0 (sessionKey token) = none from hgone token (tokenAt_of_later hpointed)] at hnow
      cases hnow
    exact (tokenAfter_congr (KeySpace.getAfter_del_of_ne hother)).trans hpointed
  · by_cases hkey : paymentKey kindergartenId' paymentId' = paymentKey kindergartenId paymentId
    · have hget := tokenAfter_eq_some.1 htoken
      rw [hkey, KeySpace.getAfter_del_self] at hget
      cases hget
    · exact h.owned kindergartenId' paymentId' token
        ((tokenAfter_congr (KeySpace.getAfter_del_of_ne hkey)).symm.trans htoken)

theorem Held.store {nonce ttl : Nat} (h : Held env redis stored) (hfresh : token ∉ stored.map Prod.fst)
    (hgone : ∀ token, tokenAt redis (paymentKey session.kindergartenId session.paymentId) = some token →
      redis.get (sessionKey token) = none) :
    Held env ((redis.set (sessionKey token) (.sealed (env.cipher.encryptString nonce session)) ttl).set
      (paymentKey session.kindergartenId session.paymentId) (.token token) ttl) ((token, session) :: stored) := by
  refine ⟨fun ms other v hv => ?_, fun kindergartenId paymentId other hother => ?_, List.nodup_cons.2 ⟨hfresh, h.distinct⟩⟩
  · rw [KeySpace.getAfter_set_of_ne fun hkey => paymentKey_ne_sessionKey hkey.symm] at hv
    by_cases hsame : other = token
    · subst hsame
      rw [KeySpace.getAfter_set_self] at hv
      by_cases hms : ms < ttl
      · rw [if_pos hms] at hv
        obtain rfl := Option.some.inj hv
        refine ⟨nonce, session, rfl, List.mem_cons_self, tokenAfter_eq_some.2 ?_⟩
        rw [KeySpace.getAfter_set_self, if_pos hms]
      · rw [if_neg hms] at hv
        cases hv
    · rw [KeySpace.getAfter_set_of_ne fun hkey => hsame (sessionKey_injective hkey)] at hv
      obtain ⟨nonce', session', rfl, hmem, hpointed⟩ := h.pointed ms other v hv
      refine ⟨nonce', session', rfl, List.mem_cons_of_mem _ hmem, ?_⟩
      have hother : paymentKey session'.kindergartenId session'.paymentId ≠
          paymentKey session.kindergartenId session.paymentId := by
        intro hkey
        have hnow := KeySpace.getAfter_of_later (Nat.zero_le ms) hv
        rw [hkey] at hpointed
        rw [show redis.getAfter 0 (sessionKey other) = none from hgone other (tokenAt_of_later hpointed)] at hnow
        cases hnow
      refine (tokenAfter_congr ?_).trans hpointed
      rw [KeySpace.getAfter_set_of_ne hother, KeySpace.getAfter_set_of_ne paymentKey_ne_sessionKey]
  · by_cases hkey : paymentKey kindergartenId paymentId = paymentKey session.kindergartenId session.paymentId
    · obtain ⟨rfl, rfl⟩ := paymentKey_injective hkey
      have hget := tokenAfter_eq_some.1 hother
      rw [KeySpace.getAfter_set_self] at hget
      split at hget
      · cases hget
        exact ⟨session, List.mem_cons_self, rfl, rfl⟩
      · cases hget
    · have hsame : tokenAt redis (paymentKey kindergartenId paymentId) = some other := by
        refine (tokenAfter_congr ?_).symm.trans hother
        rw [KeySpace.getAfter_set_of_ne hkey, KeySpace.getAfter_set_of_ne paymentKey_ne_sessionKey]
      obtain ⟨session', hmem, hkg, hp⟩ := h.owned kindergartenId paymentId other hsame
      exact ⟨session', List.mem_cons_of_mem _ hmem, hkg, hp⟩

/-- What a command leaves of the sessions: none is forgotten, and none that is gone comes back. -/
structure GoesOn (redis : Redis B) (stored : List (CheckoutToken × BccCheckoutSession)) (redis' : Redis B)
    (stored' : List (CheckoutToken × BccCheckoutSession)) : Prop where
  kept : stored ⊆ stored'
  gone : ∀ token ∈ stored.map Prod.fst, redis.get (sessionKey token) = none → redis'.get (sessionKey token) = none

theorem GoesOn.refl : GoesOn redis stored redis stored := ⟨List.Subset.refl _, fun _ _ h => h⟩

theorem GoesOn.later {d : Nat} (hsame : ∀ ms k, redis'.getAfter ms k = redis.getAfter (d + ms) k) :
    GoesOn redis stored redis' stored :=
  ⟨List.Subset.refl _, fun _ _ h => (hsame 0 _).trans (KeySpace.getAfter_eq_none_of_later (Nat.zero_le _) h)⟩

theorem GoesOn.del (redis : Redis B) (stored : List (CheckoutToken × BccCheckoutSession)) (k : String) :
    GoesOn redis stored (redis.del k) stored := by
  refine ⟨List.Subset.refl _, fun token _ h => ?_⟩
  by_cases hk : sessionKey token = k
  · subst hk
    exact KeySpace.getAfter_del_self
  · exact (KeySpace.getAfter_del_of_ne hk).trans h

theorem GoesOn.trans {redis₁ redis₂ redis₃ : Redis B} {stored₁ stored₂ stored₃ : List (CheckoutToken × BccCheckoutSession)}
    (h : GoesOn redis₁ stored₁ redis₂ stored₂) (h' : GoesOn redis₂ stored₂ redis₃ stored₃) :
    GoesOn redis₁ stored₁ redis₃ stored₃ :=
  ⟨List.Subset.trans h.kept h'.kept, fun token hmem hgone =>
    h'.gone token (List.map_subset Prod.fst h.kept hmem) (h.gone token hmem hgone)⟩

/-! ### The scripts -/

/-- What `CREATE_OR_REUSE_SCRIPT` does for a session that is to be stored under a fresh token. -/
def Scripted (env : Env B) (redis : Redis B) (stored : List (CheckoutToken × BccCheckoutSession))
    (token : CheckoutToken) (session : BccCheckoutSession) (redis' : Redis B) : ScriptResult → Prop
  | .reused existing => redis' = redis ∧ redis.has (sessionKey existing) = true ∧
      tokenAt redis (paymentKey session.kindergartenId session.paymentId) = some existing
  | .created => Held env redis' ((token, session) :: stored) ∧ GoesOn redis stored redis' ((token, session) :: stored) ∧
      redis'.has (sessionKey token) = true
  | .taken => Held env redis' stored ∧ GoesOn redis stored redis' stored

theorem Held.createIfFree {nonce : Nat} (h : Held env redis stored) (hbefore : GoesOn redis₀ stored redis stored)
    (hfresh : token ∉ stored.map Prod.fst ∨ redis.has (sessionKey token) = true)
    (hgone : ∀ token, tokenAt redis (paymentKey session.kindergartenId session.paymentId) = some token →
      redis.get (sessionKey token) = none) : Scripted env redis₀ stored token session
      (createIfFree redis token (paymentKey session.kindergartenId session.paymentId)
        (env.cipher.encryptString nonce session) env.ttl).1
      (createIfFree redis token (paymentKey session.kindergartenId session.paymentId)
        (env.cipher.encryptString nonce session) env.ttl).2 := by
  unfold Checkouts.createIfFree
  by_cases htaken : redis.has (sessionKey token) = true
  · rw [if_pos htaken]
    exact ⟨h, hbefore⟩
  · rw [if_neg htaken]
    have hnew := hfresh.resolve_right htaken
    refine ⟨h.store hnew hgone, hbefore.trans ⟨List.subset_cons_self _ _, fun other hmem hnone => ?_⟩, ?_⟩
    · have hne : sessionKey other ≠ sessionKey token := fun hkey => hnew (sessionKey_injective hkey ▸ hmem)
      refine (KeySpace.getAfter_set_of_ne fun hkey => paymentKey_ne_sessionKey hkey.symm).trans ?_
      exact (KeySpace.getAfter_set_of_ne hne).trans hnone
    · have hpos : 0 < 1000 * env.ttl.seconds := by
        have hseconds := env.ttl.atLeast
        omega
      rw [KeySpace.has_iff]
      refine ⟨.sealed (env.cipher.encryptString nonce session), ?_⟩
      refine (KeySpace.getAfter_set_of_ne fun hkey => paymentKey_ne_sessionKey hkey.symm).trans ?_
      rw [KeySpace.getAfter_set_self, if_pos hpos]

theorem Held.createOrReuseScript (h : Held env redis stored) (session : BccCheckoutSession) (nonce : Nat)
    (hfresh : token ∉ stored.map Prod.fst ∨ redis.has (sessionKey token) = true) :
    Scripted env redis stored token session
      (createOrReuseScript redis token (paymentKey session.kindergartenId session.paymentId)
        (env.cipher.encryptString nonce session) env.ttl).1
      (createOrReuseScript redis token (paymentKey session.kindergartenId session.paymentId)
        (env.cipher.encryptString nonce session) env.ttl).2 := by
  unfold Checkouts.createOrReuseScript
  cases hexisting : tokenAt redis (paymentKey session.kindergartenId session.paymentId) with
  | none =>
    refine h.createIfFree .refl hfresh fun other hother => ?_
    rw [hexisting] at hother
    cases hother
  | some existing =>
    dsimp only
    by_cases hlive : redis.has (sessionKey existing) = true
    · rw [if_pos hlive]
      exact ⟨rfl, hlive, hexisting⟩
    · rw [if_neg hlive]
      have hnone : redis.get (sessionKey existing) = none := KeySpace.has_eq_false_iff.1 (Bool.not_eq_true _ ▸ hlive)
      have hdropped : Held env (redis.del (paymentKey session.kindergartenId session.paymentId)) stored :=
        h.drop fun other hother => by
          obtain rfl := Option.some.inj (hexisting.symm.trans hother)
          exact hnone
      have hsame : (redis.del (paymentKey session.kindergartenId session.paymentId)).has (sessionKey token) =
          redis.has (sessionKey token) :=
        congrArg Option.isSome (KeySpace.getAfter_del_of_ne fun hkey => paymentKey_ne_sessionKey hkey.symm)
      refine hdropped.createIfFree (.del ..) (hsame ▸ hfresh) fun other hother => ?_
      have hget := tokenAfter_eq_some.1 hother
      rw [KeySpace.getAfter_del_self] at hget
      cases hget

theorem Held.deleteReverseIfMatches (h : Held env redis stored) (kindergartenId paymentId : Uuid)
    (hgone : redis.get (sessionKey token) = none) :
    Held env (deleteReverseIfMatches redis (paymentKey kindergartenId paymentId) token) stored ∧
      GoesOn redis stored (deleteReverseIfMatches redis (paymentKey kindergartenId paymentId) token) stored := by
  unfold Checkouts.deleteReverseIfMatches
  by_cases hmatch : tokenAt redis (paymentKey kindergartenId paymentId) = some token
  · rw [if_pos hmatch]
    refine ⟨h.drop fun other hother => ?_, .del ..⟩
    obtain rfl := Option.some.inj (hmatch.symm.trans hother)
    exact hgone
  · rw [if_neg hmatch]
    exact ⟨h, .refl⟩

end

/-! ## The calls -/

/-- What a call knows of the token it holds. -/
def State.Sound (σ : State B) : Call → Prop
  | .look kindergartenId paymentId token =>
      ∃ session, (token, session) ∈ σ.stored ∧ session.kindergartenId = kindergartenId ∧ session.paymentId = paymentId
  | .clean _ _ token => token ∈ σ.stored.map Prod.fst ∧ σ.redis.get (sessionKey token) = none
  | .release token session => (token, session) ∈ σ.stored ∧ σ.redis.get (sessionKey token) = none ∧
      token ∉ σ.answers.filterMap Answer.consumed
  | _ => True

structure State.Inv (env : Env B) (σ : State B) : Prop where
  held : Held env σ.redis σ.stored
  sound : ∀ i call, σ.calls i = some call → σ.Sound call
  /-- Of the calls that consume a token one has got its session. -/
  alone : ∀ i j token session session', σ.calls i = some (.release token session) →
    σ.calls j = some (.release token session') → i = j
  returned : ∀ token session, .returned token session ∈ σ.answers →
    (token, session) ∈ σ.stored ∧ σ.redis.get (sessionKey token) = none
  once : (σ.answers.filterMap Answer.consumed).Nodup

section

variable {env : Env B} {σ σ' : State B} {call : Call} {next : Next} {draw : Draw} {i : Nat}

theorem mem_consumed {token : CheckoutToken} :
    token ∈ σ.answers.filterMap Answer.consumed ↔ ∃ session, .returned token session ∈ σ.answers := by
  rw [List.mem_filterMap]
  constructor
  · rintro ⟨answer, hmem, hconsumed⟩
    cases answer with
    | returned token' session =>
      obtain rfl := Option.some.inj hconsumed
      exact ⟨session, hmem⟩
    | _ => cases hconsumed
  · rintro ⟨session, hmem⟩
    exact ⟨_, hmem, rfl⟩

theorem mem_fst {stored : List (CheckoutToken × BccCheckoutSession)} {token : CheckoutToken}
    {session : BccCheckoutSession} (h : (token, session) ∈ stored) : token ∈ stored.map Prod.fst :=
  List.mem_map.2 ⟨_, h, rfl⟩

theorem State.Sound.goesOn (h : σ.Sound call) (hgo : GoesOn σ.redis σ.stored σ'.redis σ'.stored)
    (hanswers : ∀ token session, call = .release token session → token ∉ σ'.answers.filterMap Answer.consumed) :
    σ'.Sound call := by
  cases call with
  | look kindergartenId paymentId token =>
    obtain ⟨session, hmem, hpayment⟩ := h
    exact ⟨session, hgo.kept hmem, hpayment⟩
  | clean kindergartenId paymentId token => exact ⟨List.map_subset Prod.fst hgo.kept h.1, hgo.gone token h.1 h.2⟩
  | release token session =>
    exact ⟨hgo.kept h.1, hgo.gone token (mem_fst h.1) h.2.1, hanswers token session rfl⟩
  | _ => trivial

/-- One command of a call. -/
structure Performed (env : Env B) (σ : State B) (call : Call) (σ' : State B) (next : Next) : Prop where
  held : Held env σ'.redis σ'.stored
  goesOn : GoesOn σ.redis σ.stored σ'.redis σ'.stored
  calls : σ'.calls = σ.calls
  answers : σ'.answers = σ.answers
  sound : ∀ call', next = .goOn call' → σ'.Sound call'
  /-- A session is taken where there is one. -/
  taken : ∀ token session, next = .goOn (.release token session) → σ.redis.has (sessionKey token) = true
  returned : ∀ token session, next = .answer (.returned token session) → call = .release token session
  named : ∀ answer kindergartenId paymentId token, next = .answer answer →
    answer.hands = some (kindergartenId, paymentId, token) →
    ∃ session, sessionAt env σ'.redis token = some session ∧ session.kindergartenId = kindergartenId ∧
      session.paymentId = paymentId

/-- Sessions are decrypted to what they were. -/
def Cipher.Faithful (cipher : Cipher B) : Prop :=
  ∀ nonce session, cipher.decryptString (cipher.encryptString nonce session) = some session

theorem perform_spec (hcipher : env.cipher.Faithful) (h : σ.Inv env) (hcall : σ.calls i = some call)
    (hfresh : σ.fresh (.exec i draw) = true) :
    Performed env σ call (σ.perform env draw call).1 (σ.perform env draw call).2 := by
  have hsound := h.sound i call hcall
  cases call with
  | createOrReuse session attempt =>
    have hnew : draw.1 ∉ σ.stored.map Prod.fst ∨ σ.redis.has (sessionKey draw.1) = true := by
      unfold State.fresh at hfresh
      dsimp only at hfresh
      rw [hcall] at hfresh
      simpa using hfresh
    have hscript := h.held.createOrReuseScript session draw.2 hnew
    unfold State.perform
    dsimp only
    generalize createOrReuseScript σ.redis draw.1 (paymentKey session.kindergartenId session.paymentId)
      (env.cipher.encryptString draw.2 session) env.ttl = result at hscript
    obtain ⟨redis, result⟩ := result
    cases result with
    | reused existing =>
      obtain ⟨rfl, hlive, hexisting⟩ := hscript
      refine ⟨h.held, .refl, rfl, rfl, fun _ hn => (nomatch hn), fun _ _ hn => (nomatch hn), fun _ _ hn => (nomatch hn),
        fun answer kindergartenId paymentId token hn hands => ?_⟩
      cases hn
      cases hands
      obtain ⟨v, hv⟩ := KeySpace.has_iff.1 hlive
      obtain ⟨session', hat, hmem, -⟩ := h.held.sessionAt hcipher hv
      obtain ⟨session'', hmem', hkg, hp⟩ := h.held.owned _ _ _ hexisting
      obtain rfl := h.held.eq_of_mem hmem hmem'
      exact ⟨session', hat, hkg, hp⟩
    | created =>
      obtain ⟨hheld, hgo, hlive⟩ := hscript
      refine ⟨hheld, hgo, rfl, rfl, fun _ hn => (nomatch hn), fun _ _ hn => (nomatch hn), fun _ _ hn => (nomatch hn),
        fun answer kindergartenId paymentId token hn hands => ?_⟩
      cases hn
      cases hands
      obtain ⟨v, hv⟩ := KeySpace.has_iff.1 hlive
      obtain ⟨session', hat, hmem, -⟩ := hheld.sessionAt hcipher hv
      obtain rfl := hheld.eq_of_mem hmem List.mem_cons_self
      exact ⟨session', hat, rfl, rfl⟩
    | taken =>
      obtain ⟨hheld, hgo⟩ := hscript
      refine ⟨hheld, hgo, rfl, rfl, fun call' hn => ?_, fun token session' hn => ?_, fun token session' hn => ?_,
        fun answer kindergartenId paymentId token hn hands => ?_⟩
      all_goals dsimp only at hn; split at hn <;> cases hn
      · trivial
      · cases hands
  | find kindergartenId paymentId =>
    unfold State.perform
    dsimp only
    cases htoken : tokenAt σ.redis (paymentKey kindergartenId paymentId) with
    | none =>
      refine ⟨h.held, .refl, rfl, rfl, fun _ hn => (nomatch hn), fun _ _ hn => (nomatch hn), fun _ _ hn => (nomatch hn),
        fun answer _ _ _ hn hands => ?_⟩
      cases hn
      cases hands
    | some token =>
      refine ⟨h.held, .refl, rfl, rfl, fun call' hn => ?_, fun _ _ hn => (nomatch hn), fun _ _ hn => (nomatch hn),
        fun _ _ _ _ hn => (nomatch hn)⟩
      cases hn
      exact h.held.owned kindergartenId paymentId token htoken
  | look kindergartenId paymentId token =>
    unfold State.perform
    dsimp only
    obtain ⟨session, hmem, rfl, rfl⟩ := hsound
    by_cases hlive : σ.redis.has (sessionKey token) = true
    · rw [if_pos hlive]
      refine ⟨h.held, .refl, rfl, rfl, fun _ hn => (nomatch hn), fun _ _ hn => (nomatch hn), fun _ _ hn => (nomatch hn),
        fun answer kindergartenId paymentId token' hn hands => ?_⟩
      cases hn
      cases hands
      obtain ⟨v, hv⟩ := KeySpace.has_iff.1 hlive
      obtain ⟨session', hat, hmem', -⟩ := h.held.sessionAt hcipher hv
      obtain rfl := h.held.eq_of_mem hmem hmem'
      exact ⟨session, hat, rfl, rfl⟩
    · rw [if_neg hlive]
      refine ⟨h.held, .refl, rfl, rfl, fun call' hn => ?_, fun _ _ hn => (nomatch hn), fun _ _ hn => (nomatch hn),
        fun _ _ _ _ hn => (nomatch hn)⟩
      cases hn
      exact ⟨mem_fst hmem, KeySpace.has_eq_false_iff.1 (Bool.not_eq_true _ ▸ hlive)⟩
  | clean kindergartenId paymentId token =>
    obtain ⟨hheld, hgo⟩ := h.held.deleteReverseIfMatches kindergartenId paymentId hsound.2
    refine ⟨hheld, hgo, rfl, rfl, fun _ hn => (nomatch hn), fun _ _ hn => (nomatch hn), fun _ _ hn => (nomatch hn),
      fun answer _ _ _ hn hands => ?_⟩
    cases hn
    cases hands
  | consume token =>
    have hheld := h.held.take token
    have hgo := GoesOn.del σ.redis σ.stored (sessionKey token)
    unfold State.perform KeySpace.getdel
    dsimp only
    cases hget : σ.redis.get (sessionKey token) with
    | none =>
      refine ⟨hheld, hgo, rfl, rfl, fun _ hn => (nomatch hn), fun _ _ hn => (nomatch hn), fun _ _ hn => (nomatch hn),
        fun answer _ _ _ hn hands => ?_⟩
      cases hn
      cases hands
    | some v =>
      obtain ⟨nonce, session, rfl, hmem, -⟩ := h.held.pointed 0 token v hget
      dsimp only
      rw [hcipher nonce session]
      refine ⟨hheld, hgo, rfl, rfl, fun call' hn => ?_, fun token' session' hn => ?_, fun _ _ hn => (nomatch hn),
        fun _ _ _ _ hn => (nomatch hn)⟩
      · cases hn
        refine ⟨hmem, KeySpace.getAfter_del_self, fun hconsumed => ?_⟩
        obtain ⟨session', hreturned⟩ := mem_consumed.1 hconsumed
        rw [(h.returned token session' hreturned).2] at hget
        cases hget
      · cases hn
        exact KeySpace.has_iff.2 ⟨_, hget⟩
  | release token session =>
    obtain ⟨hheld, hgo⟩ := h.held.deleteReverseIfMatches session.kindergartenId session.paymentId hsound.2.1
    refine ⟨hheld, hgo, rfl, rfl, fun _ hn => (nomatch hn), fun _ _ hn => (nomatch hn), fun token' session' hn => ?_,
      fun answer _ _ _ hn hands => ?_⟩
    · cases hn
      rfl
    · cases hn
      cases hands

theorem State.calls_goOn {c : Option Call} {j : Nat} : (σ.goOn i c).calls j = if j = i then c else σ.calls j := by
  unfold State.goOn
  dsimp only
  by_cases hj : j = i
  · rw [hj, Function.update_self, if_pos rfl]
  · rw [Function.update_of_ne hj, if_neg hj]

@[simp] theorem State.redis_proceed : (σ.proceed i next).redis = σ.redis := by
  cases next with
  | goOn call => rfl
  | answer answer => rfl

theorem Performed.goOn {c : Option Call} (hp : Performed env σ call σ' next) (h : σ.Inv env)
    (hsound : ∀ call', c = some call' → σ'.Sound call')
    (htaken : ∀ token session, c = some (.release token session) → σ.redis.has (sessionKey token) = true) :
    (σ'.goOn i c).Inv env := by
  have hothers : ∀ j token session, σ.calls j = some (.release token session) →
      ∀ session', c ≠ some (.release token session') := by
    intro j token session hj session' hc
    have hnone : σ.redis.has (sessionKey token) = false := KeySpace.has_eq_false_iff.2 (h.sound j _ hj).2.1
    rw [htaken token session' hc] at hnone
    cases hnone
  refine ⟨hp.held, fun j call' hj => ?_, fun j k token session session' hj hk => ?_, fun token session hmem => ?_, ?_⟩
  · rw [State.calls_goOn] at hj
    by_cases hji : j = i
    · rw [if_pos hji] at hj
      exact hsound call' hj
    · rw [if_neg hji, hp.calls] at hj
      have hbefore := h.sound j call' hj
      refine hbefore.goesOn hp.goesOn fun token session hrelease => ?_
      subst hrelease
      show token ∉ σ'.answers.filterMap Answer.consumed
      rw [hp.answers]
      exact hbefore.2.2
  · rw [State.calls_goOn, hp.calls] at hj hk
    by_cases hji : j = i
    · by_cases hki : k = i
      · rw [hji, hki]
      · rw [if_pos hji] at hj
        rw [if_neg hki] at hk
        exact absurd hj (hothers k token session' hk session)
    · rw [if_neg hji] at hj
      by_cases hki : k = i
      · rw [if_pos hki] at hk
        exact absurd hk (hothers j token session hj session')
      · rw [if_neg hki] at hk
        exact h.alone j k token session session' hj hk
  · have hmem' : .returned token session ∈ σ.answers := hp.answers ▸ hmem
    obtain ⟨hstored, hnone⟩ := h.returned token session hmem'
    exact ⟨hp.goesOn.kept hstored, hp.goesOn.gone token (mem_fst hstored) hnone⟩
  · show (σ'.answers.filterMap Answer.consumed).Nodup
    rw [hp.answers]
    exact h.once

theorem State.Inv.answer {answer : Answer} (h : σ.Inv env)
    (hanswer : ∀ token session, answer = .returned token session → (token, session) ∈ σ.stored ∧
      σ.redis.get (sessionKey token) = none ∧ token ∉ σ.answers.filterMap Answer.consumed ∧
      ∀ j session', σ.calls j ≠ some (.release token session')) :
    State.Inv env { σ with answers := answer :: σ.answers } := by
  refine ⟨h.held, fun j call hj => ?_, h.alone, fun token session hmem => ?_, ?_⟩
  · have hbefore := h.sound j call hj
    refine hbefore.goesOn .refl fun token session hrelease => ?_
    subst hrelease
    intro hconsumed
    obtain ⟨session', hmem⟩ := mem_consumed.1 hconsumed
    rcases List.mem_cons.1 hmem with hnew | hold
    · exact (hanswer token session' hnew.symm).2.2.2 j session hj
    · exact hbefore.2.2 (mem_consumed.2 ⟨session', hold⟩)
  · rcases List.mem_cons.1 hmem with hnew | hold
    · obtain ⟨hstored, hnone, -⟩ := hanswer token session hnew.symm
      exact ⟨hstored, hnone⟩
    · exact h.returned token session hold
  · cases answer with
    | returned token session => exact List.nodup_cons.2 ⟨(hanswer token session rfl).2.2.1, h.once⟩
    | _ => exact h.once

theorem Performed.proceed (hp : Performed env σ call σ' next) (h : σ.Inv env) (hcall : σ.calls i = some call) :
    (σ'.proceed i next).Inv env := by
  cases next with
  | goOn call' =>
    refine hp.goOn h (fun call'' hc => ?_) fun token session hc => ?_
    · cases hc
      exact hp.sound call' rfl
    · cases hc
      exact hp.taken token session rfl
  | answer answer =>
    have hover := hp.goOn (i := i) (c := none) h (fun _ hc => (nomatch hc)) fun _ _ hc => (nomatch hc)
    refine hover.answer fun token session hanswer => ?_
    subst hanswer
    obtain rfl := hp.returned token session rfl
    obtain ⟨hstored, hnone, hnot⟩ := h.sound i _ hcall
    refine ⟨hp.goesOn.kept hstored, hp.goesOn.gone token (mem_fst hstored) hnone, ?_, fun j session' hj => ?_⟩
    · show token ∉ σ'.answers.filterMap Answer.consumed
      rw [hp.answers]
      exact hnot
    · rw [State.calls_goOn, hp.calls] at hj
      by_cases hji : j = i
      · rw [if_pos hji] at hj
        cases hj
      · rw [if_neg hji] at hj
        exact hji (h.alone j i token session' session hj hcall)

theorem State.Inv.later {redis : Redis B} {d : Nat} (h : σ.Inv env)
    (hsame : ∀ ms k, redis.getAfter ms k = σ.redis.getAfter (d + ms) k) : State.Inv env { σ with redis := redis } := by
  have hgo : GoesOn σ.redis σ.stored redis σ.stored := .later hsame
  refine ⟨h.held.later hsame, fun j call hj => ?_, h.alone, fun token session hmem => ?_, h.once⟩
  · have hbefore := h.sound j call hj
    refine hbefore.goesOn hgo fun token session hrelease => ?_
    subst hrelease
    exact hbefore.2.2
  · obtain ⟨hstored, hnone⟩ := h.returned token session hmem
    exact ⟨hstored, hgo.gone token (mem_fst hstored) hnone⟩

theorem State.Inv.goOn {c : Option Call} (h : σ.Inv env) (hsound : ∀ call, c = some call → σ.Sound call)
    (hrelease : ∀ token session, c ≠ some (.release token session)) : (σ.goOn i c).Inv env := by
  refine ⟨h.held, fun j call hj => ?_, fun j k token session session' hj hk => ?_, h.returned, h.once⟩
  · rw [State.calls_goOn] at hj
    by_cases hji : j = i
    · rw [if_pos hji] at hj
      exact hsound call hj
    · rw [if_neg hji] at hj
      exact h.sound j call hj
  · rw [State.calls_goOn] at hj hk
    by_cases hji : j = i
    · rw [if_pos hji] at hj
      exact absurd hj (hrelease token session)
    · rw [if_neg hji] at hj
      by_cases hki : k = i
      · rw [if_pos hki] at hk
        exact absurd hk (hrelease token session')
      · rw [if_neg hki] at hk
        exact h.alone j k token session session' hj hk

theorem State.Inv.start {σ₁ : State B} (h : σ.Inv env) (hstart : σ.start i call = some σ₁) (hsound : σ.Sound call)
    (hrelease : ∀ token session, call ≠ .release token session) : σ₁.Inv env := by
  unfold State.start at hstart
  split at hstart
  · obtain rfl := Option.some.inj hstart
    refine h.goOn (fun call' hc => ?_) fun token session hc => hrelease token session (Option.some.inj hc)
    obtain rfl := Option.some.inj hc
    exact hsound
  · cases hstart

theorem State.Inv.step {e : Event} {σ₁ : State B} (hcipher : env.cipher.Faithful) (h : σ.Inv env)
    (hfresh : σ.fresh e = true) (hstep : σ.step env e = some σ₁) : σ₁.Inv env := by
  cases e with
  | elapse ms =>
    obtain rfl := Option.some.inj hstep
    exact h.later fun _ _ => KeySpace.getAfter_pass
  | expire key =>
    obtain rfl := Option.some.inj hstep
    refine h.later (d := 0) fun ms k => ?_
    rw [KeySpace.getAfter_expire, Nat.zero_add]
  | createOrReuse i session => exact h.start hstep trivial fun _ _ hc => (nomatch hc)
  | findTokenByPayment i kindergartenId paymentId => exact h.start hstep trivial fun _ _ hc => (nomatch hc)
  | consume i token =>
    unfold State.step at hstep
    dsimp only at hstep
    split at hstep
    · exact h.start hstep trivial fun _ _ hc => (nomatch hc)
    · obtain rfl := Option.some.inj hstep
      exact h.answer fun _ _ hc => (nomatch hc)
  | exec i draw =>
    unfold State.step at hstep
    rw [Option.map_eq_some_iff] at hstep
    obtain ⟨call, hcall, rfl⟩ := hstep
    exact (perform_spec hcipher h hcall hfresh).proceed h hcall
  | lose i draw =>
    unfold State.step at hstep
    rw [Option.map_eq_some_iff] at hstep
    obtain ⟨call, hcall, rfl⟩ := hstep
    exact (perform_spec hcipher h hcall hfresh).goOn h (fun _ hc => (nomatch hc)) fun _ _ hc => (nomatch hc)
  | fail i =>
    unfold State.step at hstep
    rw [Option.map_eq_some_iff] at hstep
    obtain ⟨call, -, rfl⟩ := hstep
    exact h.goOn (fun _ hc => (nomatch hc)) fun _ _ hc => (nomatch hc)

theorem State.Inv.run {events : List Event} {σ₁ : State B} (hcipher : env.cipher.Faithful) (h : σ.Inv env)
    (hfresh : σ.freshRun env events = true) (hrun : σ.run env events = some σ₁) : σ₁.Inv env := by
  induction events generalizing σ with
  | nil =>
    obtain rfl := Option.some.inj hrun
    exact h
  | cons e events ih =>
    unfold State.run at hrun
    rw [Option.bind_eq_some_iff] at hrun
    obtain ⟨σ₂, hstep, hrest⟩ := hrun
    unfold State.freshRun at hfresh
    rw [Bool.and_eq_true, hstep, Option.all_some] at hfresh
    exact ih (h.step hcipher hfresh.1 hstep) hfresh.2 hrest

end

theorem State.inv_boot (env : Env B) (now : Nat) : (State.boot now : State B).Inv env where
  held := ⟨fun _ _ _ h => (nomatch h), fun _ _ _ h => (nomatch h), List.nodup_nil⟩
  sound _ _ h := (nomatch h)
  alone _ _ _ _ _ h := (nomatch h)
  returned _ _ h := absurd h List.not_mem_nil
  once := List.nodup_nil

/-! ## Runs -/

section

variable {env : Env B} {σ σ' : State B} {call : Call}

variable {token : CheckoutToken}

theorem tokenAt_deleteReverse {redis : Redis B} {k k' : String} {newer : CheckoutToken}
    (h : tokenAt redis k' = some newer) (hne : newer ≠ token) :
    tokenAt (deleteReverseIfMatches redis k token) k' = some newer := by
  unfold deleteReverseIfMatches
  by_cases hmatch : tokenAt redis k = some token
  · rw [if_pos hmatch]
    have hk : k' ≠ k := by
      rintro rfl
      exact hne (Option.some.inj (h.symm.trans hmatch))
    exact (tokenAfter_congr (KeySpace.getAfter_del_of_ne hk)).trans h
  · rw [if_neg hmatch]
    exact h

/-- Neither the `GETDEL` nor the script after it takes the reverse key from another session. -/
theorem State.Inv.kept {i : Nat} {draw : Draw} (h : σ.Inv env)
    (hcall : σ.calls i = some call) (hconsumes : call.consumes = some token)
    {newer : CheckoutToken} (hnewer : tokenAt σ.redis (paymentKey kindergartenId paymentId) = some newer)
    (hother : newer ≠ token ∨ (σ.perform env draw call).1.redis.has (sessionKey newer) = true) :
    tokenAt (σ.perform env draw call).1.redis (paymentKey kindergartenId paymentId) = some newer := by
  cases call with
  | consume token' =>
    have hdel : (σ.perform env draw (.consume token')).1.redis = σ.redis.del (sessionKey token') := by
      unfold State.perform KeySpace.getdel
      dsimp only
      split
      · next heq =>
        obtain ⟨rfl, -⟩ := Prod.mk.inj heq
        split <;> rfl
      · next heq =>
        obtain ⟨rfl, -⟩ := Prod.mk.inj heq
        rfl
    rw [hdel]
    exact (tokenAfter_congr (KeySpace.getAfter_del_of_ne paymentKey_ne_sessionKey)).trans hnewer
  | release token' session =>
    obtain rfl := Option.some.inj hconsumes
    obtain ⟨hstored, hnone, -⟩ := h.sound i _ hcall
    refine tokenAt_deleteReverse hnewer fun hsame => ?_
    subst hsame
    have hgone := (h.held.deleteReverseIfMatches session.kindergartenId session.paymentId hnone).2.gone newer
      (mem_fst hstored) hnone
    rcases hother with hne | hlive
    · exact hne rfl
    · rw [show State.redis (σ.perform env draw (.release newer session)).1 = deleteReverseIfMatches σ.redis
        (paymentKey session.kindergartenId session.paymentId) newer from rfl, KeySpace.has_iff] at hlive
      obtain ⟨v, hv⟩ := hlive
      rw [hgone] at hv
      cases hv
  | _ => cases hconsumes

theorem State.Inv.single {token' : CheckoutToken} {session session' : BccCheckoutSession}
    (hcipher : env.cipher.Faithful) (h : σ.Inv env) (hat : sessionAt env σ.redis token = some session)
    (hat' : sessionAt env σ.redis token' = some session') (hkg : session.kindergartenId = session'.kindergartenId)
    (hp : session.paymentId = session'.paymentId) : token = token' := by
  have hpointed : ∀ token session, sessionAt env σ.redis token = some session →
      tokenAt σ.redis (paymentKey session.kindergartenId session.paymentId) = some token := by
    intro token session hat
    cases hget : σ.redis.get (sessionKey token) with
    | none =>
      unfold sessionAt at hat
      rw [hget] at hat
      cases hat
    | some v =>
      obtain ⟨found, hfound, -, htoken⟩ := h.held.sessionAt hcipher hget
      obtain rfl := Option.some.inj (hat.symm.trans hfound)
      exact htoken
  have hone := hpointed token session hat
  rw [hkg, hp, hpointed token' session' hat'] at hone
  exact (Option.some.inj hone).symm

theorem State.Inv.named {e : Event} {answer : Answer}
    (hcipher : env.cipher.Faithful) (h : σ.Inv env) (hfresh : σ.fresh e = true) (hstep : σ.step env e = some σ')
    (hanswers : σ'.answers = answer :: σ.answers) (hands : answer.hands = some (kindergartenId, paymentId, token)) :
    ∃ session, sessionAt env σ'.redis token = some session ∧ session.kindergartenId = kindergartenId ∧
      session.paymentId = paymentId := by
  have hlonger : ∀ {τ : State B}, τ.answers = σ.answers → τ.answers ≠ answer :: σ.answers := fun hsame hlong =>
    List.cons_ne_self answer σ.answers (hlong.symm.trans hsame)
  have hstart : ∀ {i : Nat} {call : Call}, σ.start i call = some σ' → σ'.answers = σ.answers := by
    intro i call hstart
    unfold State.start at hstart
    split at hstart
    · obtain rfl := Option.some.inj hstart
      rfl
    · cases hstart
  cases e with
  | elapse ms =>
    obtain rfl := Option.some.inj hstep
    exact absurd hanswers (hlonger rfl)
  | expire key =>
    obtain rfl := Option.some.inj hstep
    exact absurd hanswers (hlonger rfl)
  | createOrReuse i session => exact absurd hanswers (hlonger (hstart hstep))
  | findTokenByPayment i kindergartenId paymentId => exact absurd hanswers (hlonger (hstart hstep))
  | consume i token =>
    unfold State.step at hstep
    dsimp only at hstep
    split at hstep
    · exact absurd hanswers (hlonger (hstart hstep))
    · obtain rfl := Option.some.inj hstep
      obtain ⟨rfl, -⟩ := List.cons.inj hanswers
      cases hands
  | exec i draw =>
    unfold State.step at hstep
    rw [Option.map_eq_some_iff] at hstep
    obtain ⟨call, hcall, rfl⟩ := hstep
    have hp := perform_spec hcipher h hcall hfresh
    generalize (σ.perform env draw call).2 = next at hp hanswers ⊢
    cases next with
    | goOn call' => exact absurd hanswers (hlonger hp.answers)
    | answer given =>
      obtain ⟨rfl, -⟩ := List.cons.inj hanswers
      exact hp.named given kindergartenId paymentId token rfl hands
  | lose i draw =>
    unfold State.step at hstep
    rw [Option.map_eq_some_iff] at hstep
    obtain ⟨call, hcall, rfl⟩ := hstep
    exact absurd hanswers (hlonger (perform_spec hcipher h hcall hfresh).answers)
  | fail i =>
    unfold State.step at hstep
    rw [Option.map_eq_some_iff] at hstep
    obtain ⟨call, -, rfl⟩ := hstep
    exact absurd hanswers (hlonger rfl)

end

/-- **A checkout is one-time.**  Tokens are not drawn twice, and the cipher gives back what it was given. -/
theorem checkout_one_time {env : Env B} {now : Nat} {events : List Event} {σ : State B}
    (hcipher : env.cipher.Faithful) (hrun : (State.boot now).run env events = some σ)
    (hfresh : (State.boot now : State B).freshRun env events = true) : σ.OneTime env := by
  have hinv := (State.inv_boot env now).run hcipher hfresh hrun
  refine ⟨hinv.held.distinct, hinv.once, fun token session hmem => (hinv.returned token session hmem).1,
    fun token token' session session' => hinv.single hcipher,
    fun e σ' answer kindergartenId paymentId token => hinv.named hcipher, ?_⟩
  intro i call token draw e σ' hcall hconsumes he hstep kindergartenId paymentId newer hnewer hother
  have hredis : σ'.redis = (σ.perform env draw call).1.redis := by
    rcases he with rfl | rfl
    · unfold State.step at hstep
      dsimp only at hstep
      rw [hcall] at hstep
      obtain rfl := Option.some.inj hstep
      exact State.redis_proceed
    · unfold State.step at hstep
      dsimp only at hstep
      rw [hcall] at hstep
      obtain rfl := Option.some.inj hstep
      rfl
  rw [hredis] at hother ⊢
  exact hinv.kept hcall hconsumes hnewer hother

/-- Texts as they are, with the nonce in front. -/
def clearText : Env (Nat × BccCheckoutSession) := ⟨⟨fun nonce session => (nonce, session), fun text => some text.2⟩,
  defaultTtlSeconds⟩

def token (c : Char) (h : isCheckoutToken (String.ofList (List.replicate 43 c)) = true) : CheckoutToken :=
  ⟨String.ofList (List.replicate 43 c), h⟩

def session : BccCheckoutSession :=
  ⟨⟨"e1", by decide⟩, ⟨"a7", by decide⟩, "1700000000", "https://gateway", [("TRTYPE", "1")], "+77010000000", "Almaty"⟩

def tokenA : CheckoutToken := token 'A' (by decide +kernel)

def tokenB : CheckoutToken := token 'B' (by decide +kernel)

/-- The form is opened twice, and while the first opening still has to clear up, the payment is checked out anew. -/
def openedTwice : List Event :=
  [.createOrReuse 0 session, .exec 0 (tokenA, 0), .consume 1 tokenA.text, .consume 2 tokenA.text, .exec 1 (tokenA, 0),
    .exec 2 (tokenA, 0), .createOrReuse 3 session, .exec 3 (tokenB, 1), .exec 1 (tokenA, 0),
    .findTokenByPayment 4 ⟨"a7", by decide⟩ ⟨"e1", by decide⟩, .exec 4 (tokenA, 0), .elapse 1000, .exec 4 (tokenA, 0)]

theorem checkout_one_time_openedTwice :
    ∃ σ, (State.boot 0).run clearText openedTwice = some σ ∧
      σ.answers = [.found ⟨"a7", by decide⟩ ⟨"e1", by decide⟩ tokenB, .returned tokenA session,
        .handle ⟨"a7", by decide⟩ ⟨"e1", by decide⟩ tokenB 900, .noSession,
        .handle ⟨"a7", by decide⟩ ⟨"e1", by decide⟩ tokenA 900] ∧ σ.OneTime clearText := by
  have hend : ((State.boot 0).run clearText openedTwice).any (fun σ => decide (σ.answers =
      [.found ⟨"a7", by decide⟩ ⟨"e1", by decide⟩ tokenB, .returned tokenA session,
        .handle ⟨"a7", by decide⟩ ⟨"e1", by decide⟩ tokenB 900, .noSession,
        .handle ⟨"a7", by decide⟩ ⟨"e1", by decide⟩ tokenA 900])) = true := by
    decide +kernel
  rw [Option.any_eq_true] at hend
  obtain ⟨σ, hrun, hσ⟩ := hend
  exact ⟨σ, hrun, of_decide_eq_true hσ, checkout_one_time (fun _ _ => rfl) hrun (by decide +kernel)⟩

end Checkouts
