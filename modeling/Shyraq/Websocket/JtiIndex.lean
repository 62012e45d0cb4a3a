import Shyraq.Websocket.Gateway

/-!
# Revoked sockets

The blocklist is read early in a handshake, and the socket is found by its `jti` only from the end of it.  A revocation
that is handled in between finds nothing, and a socket that is disconnected in between is indexed for good.
-/

namespace Websocket

open Transactions

/-! ## What is claimed -/

/-- Once a revocation has been handled and the handshakes of its `jti` are over, no socket of it is connected. -/
def State.RevokedGone (σ : State) : Prop :=
  ∀ jti ∈ σ.handled, (∀ client ∈ σ.sockets, client.ownJti = some jti → client.handshake = .finished) →
    ∀ client ∈ σ.sockets, client.ownJti = some jti → client.connected = false

instance (σ : State) : Decidable σ.RevokedGone := inferInstanceAs (Decidable (∀ _ ∈ _, _))

/-- Whenever no handshake is in progress, the index has exactly the connected sockets, under their own `jti`. -/
def State.Indexed (σ : State) : Prop :=
  (∀ client ∈ σ.sockets, client.handshake = .finished) → ∀ jti i, i ∈ σ.getSocketsByJti jti ↔
    ∃ client ∈ σ.sockets, client.id = i ∧ client.connected = true ∧ client.ownJti = some jti

/-- The blocklist had nothing against it, and it is not in the index yet. -/
def Socket.admitted (client : Socket) : Bool :=
  client.handshake == .checked false || client.handshake == .subscribing

def Socket.expired (client : Socket) (now : Int) : Bool := client.exp.all fun exp => decide (exp * 1000 ≤ now)

/-- A revocation has been handled since the socket's handshake read the blocklist.  The last event comes first. -/
def overtaken (i jti : Nat) : List Event → Bool
  | [] => false
  | .readBlocklist j :: past => j != i && overtaken i jti past
  | .handleRevocation other :: past => other == jti || overtaken i jti past
  | _ :: past => overtaken i jti past

/-- What is read of a revoked `jti` is still there, and the handshake of a token with a `jti` ends on a socket that is
connected, before the token expires, with no revocation since it read the blocklist. -/
def State.orderly (past : List Event) (σ : State) : Event → Bool
  | .readBlocklist i => (σ.socket i).all fun client => client.ownJti.all fun jti =>
      !σ.handled.contains jti || σ.isBlocked jti || client.expired σ.now
  | .subscribe i => (σ.socket i).all fun client => client.ownJti.all fun jti =>
      client.connected && !client.expired σ.now && !overtaken i jti past
  | _ => true

def State.orderlyRun : List Event → State → List Event → Bool
  | _, _, [] => true
  | past, σ, e :: events => σ.orderly past e && (σ.step e).all fun σ' => orderlyRun (e :: past) σ' events

/-! ## What the operations do -/

def Socket.closed (client : Socket) : Socket :=
  if client.connected then { client with connected := false, expiryTimer := none } else client

section

variable {σ : State} {i j jti : Nat}

theorem ownJti_congr {a b : Socket} (h : a.token = b.token) : a.ownJti = b.ownJti := by
  unfold Socket.ownJti
  rw [h]

theorem expired_congr {a b : Socket} (h : a.token = b.token) {now : Int} : a.expired now = b.expired now := by
  unfold Socket.expired Socket.exp
  rw [h]

theorem Socket.connected_closed (client : Socket) : client.closed.connected = false := by
  unfold Socket.closed
  by_cases h : client.connected = true
  · rw [if_pos h]
  · rw [if_neg h]
    exact Bool.not_eq_true _ ▸ h

theorem Socket.closed_keeps (client : Socket) : client.closed.id = client.id ∧ client.closed.token = client.token ∧
    client.closed.jti = client.jti ∧ client.closed.handshake = client.handshake := by
  unfold Socket.closed
  by_cases h : client.connected = true
  · rw [if_pos h]
    exact ⟨rfl, rfl, rfl, rfl⟩
  · rw [if_neg h]
    exact ⟨rfl, rfl, rfl, rfl⟩

theorem socket_on (f : Socket → Socket) (hf : ∀ s, (f s).id = s.id) (j : Nat) :
    (σ.on i f).socket j = (σ.socket j).map fun s => if j = i then f s else s := by
  have hfind := Table.find_updateWhere σ.sockets i (fun _ => true) f hf j
  simp only [and_true] at hfind
  exact hfind

theorem socket_on_of_ne (f : Socket → Socket) (hf : ∀ s, (f s).id = s.id) (hj : j ≠ i) :
    (σ.on i f).socket j = σ.socket j := Table.find_updateWhere_of_ne (f := f) hf hj

theorem socket_on_self {client : Socket} (f : Socket → Socket) (hf : ∀ s, (f s).id = s.id)
    (h : σ.socket i = some client) : (σ.on i f).socket i = some (f client) := by
  rw [socket_on f hf, h, Option.map_some, if_pos rfl]

theorem socket_on_cases {client client' : Socket} (h : σ.socket i = some client) (f : Socket → Socket)
    (hf : ∀ s, (f s).id = s.id) (hj : (σ.on i f).socket j = some client') :
    j = i ∧ client' = f client ∨ j ≠ i ∧ σ.socket j = some client' := by
  by_cases hji : j = i
  · subst hji
    rw [socket_on_self f hf h] at hj
    exact .inl ⟨rfl, (Option.some.inj hj).symm⟩
  · rw [socket_on_of_ne f hf hji] at hj
    exact .inr ⟨hji, hj⟩

theorem mem_indexSocketByJti {jti' : Nat} : j ∈ (σ.indexSocketByJti i jti).getSocketsByJti jti' ↔
    j ∈ σ.getSocketsByJti jti' ∨ j = i ∧ jti' = jti := by
  unfold State.getSocketsByJti State.indexSocketByJti
  dsimp only
  by_cases h : jti' = jti
  · subst h
    rw [Function.update_self, Option.getD_some]
    by_cases hmem : i ∈ (σ.socketsByJti jti').getD []
    · rw [if_pos hmem]
      constructor
      · exact .inl
      · rintro (hj | ⟨rfl, -⟩)
        · exact hj
        · exact hmem
    · rw [if_neg hmem, List.mem_append, List.mem_singleton]
      simp only [and_true]
  · rw [Function.update_of_ne h]
    simp only [h, and_false, or_false]

theorem mem_unindexSocketByJti {jti' : Nat} : j ∈ (σ.unindexSocketByJti i jti).getSocketsByJti jti' ↔
    j ∈ σ.getSocketsByJti jti' ∧ ¬(j = i ∧ jti' = jti) := by
  unfold State.getSocketsByJti State.unindexSocketByJti
  cases hset : σ.socketsByJti jti with
  | none =>
    dsimp only
    refine ⟨fun hj => ⟨hj, ?_⟩, And.left⟩
    rintro ⟨-, rfl⟩
    rw [hset] at hj
    cases hj
  | some set =>
    dsimp only
    by_cases h : jti' = jti
    · subst h
      have hrest : (if (set.filter fun j => j != i).isEmpty = true then none else some (set.filter fun j => j != i)).getD [] =
          set.filter fun j => j != i := by
        by_cases hempty : (set.filter fun j => j != i).isEmpty = true
        · rw [if_pos hempty, List.isEmpty_iff.1 hempty]
          rfl
        · rw [if_neg hempty]
          rfl
      rw [Function.update_self, hrest, hset, Option.getD_some, List.mem_filter, bne_iff_ne]
      simp only [and_true, ne_eq]
    · rw [Function.update_of_ne h]
      simp only [h, and_false, not_false_eq_true, and_true]

/-- What a disconnection changes. -/
structure Disconnected (σ σ' : State) (i : Nat) : Prop where
  socket : ∀ j, σ'.socket j = (σ.socket j).map fun s => if j = i then s.closed else s
  index : ∀ j jti, j ∈ σ'.getSocketsByJti jti ↔ j ∈ σ.getSocketsByJti jti ∧
    ¬(j = i ∧ ∃ client, σ.socket i = some client ∧ client.connected = true ∧ client.jti = some jti)
  unique : Table.Unique σ.sockets → Table.Unique σ'.sockets
  now : σ'.now = σ.now
  blocklist : σ'.blocklist = σ.blocklist
  published : σ'.published = σ.published
  handled : σ'.handled = σ.handled

theorem disconnect_spec (σ : State) (i : Nat) : Disconnected σ (σ.disconnect i) i := by
  unfold State.disconnect
  cases hi : σ.socket i with
  | none =>
    refine ⟨fun j => ?_, fun j jti => ?_, id, rfl, rfl, rfl, rfl⟩
    · by_cases hj : j = i
      · subst hj
        rw [hi]
        rfl
      · simp only [hj, if_false, Option.map_id']
    · rw [hi]
      simp
  | some client =>
    have hid : client.id = i := Table.id_of_find hi
    subst hid
    dsimp only
    by_cases hopen : client.connected = true
    · rw [if_pos hopen]
      have hsocket : ∀ j, ((σ.on client.id Socket.hangUp).on client.id Socket.clearTimer).socket j =
          (σ.socket j).map fun s => if j = client.id then s.closed else s := by
        intro j
        by_cases hj : j = client.id
        · subst hj
          rw [socket_on_self Socket.clearTimer (fun _ => rfl) (socket_on_self Socket.hangUp (fun _ => rfl) hi), hi,
            Option.map_some, if_pos rfl]
          unfold Socket.closed
          rw [if_pos hopen]
          rfl
        · rw [socket_on_of_ne Socket.clearTimer (fun _ => rfl) hj, socket_on_of_ne Socket.hangUp (fun _ => rfl) hj]
          simp only [hj, if_false, Option.map_id']
      have hunique : Table.Unique σ.sockets →
          Table.Unique ((σ.on client.id Socket.hangUp).on client.id Socket.clearTimer).sockets := fun hu =>
        Table.unique_updateWhere (Table.unique_updateWhere hu _ _ Socket.hangUp fun _ => rfl) _ _ Socket.clearTimer
          fun _ => rfl
      unfold State.handleDisconnect
      cases hjti : client.jti with
      | none =>
        refine ⟨hsocket, fun j jti => ?_, hunique, rfl, rfl, rfl, rfl⟩
        show j ∈ σ.getSocketsByJti jti ↔ _
        simp [hi, hopen, hjti]
      | some jti =>
        have hsame : ∀ (τ : State) (i jti : Nat), (τ.unindexSocketByJti i jti).sockets = τ.sockets ∧
            (τ.unindexSocketByJti i jti).now = τ.now ∧ (τ.unindexSocketByJti i jti).blocklist = τ.blocklist ∧
            (τ.unindexSocketByJti i jti).published = τ.published ∧ (τ.unindexSocketByJti i jti).handled = τ.handled := by
          intro τ i jti
          unfold State.unindexSocketByJti
          split <;> exact ⟨rfl, rfl, rfl, rfl, rfl⟩
        obtain ⟨hsockets, hnow, hblocklist, hpublished, hhandled⟩ := hsame
          ((σ.on client.id Socket.hangUp).on client.id Socket.clearTimer) client.id jti
        refine ⟨fun j => ?_, fun j jti' => ?_, fun hu => ?_, hnow, hblocklist, hpublished, hhandled⟩
        · rw [← hsocket]
          unfold State.socket
          rw [hsockets]
        · rw [mem_unindexSocketByJti]
          show j ∈ σ.getSocketsByJti jti' ∧ _ ↔ _
          simp only [hi, hopen, hjti, Option.some.injEq, exists_eq_left', true_and, eq_comm]
        · rw [hsockets]
          exact hunique hu
    · rw [if_neg hopen]
      refine ⟨fun j => ?_, fun j jti => ?_, id, rfl, rfl, rfl, rfl⟩
      · by_cases hj : j = client.id
        · subst hj
          rw [hi, Option.map_some, if_pos rfl]
          unfold Socket.closed
          rw [if_neg hopen]
        · simp only [hj, if_false, Option.map_id']
      · simp [hi, hopen]

end

/-! ## The invariant -/

/-- Connected, and through with its handshake. -/
def Socket.live (client : Socket) : Prop := client.handshake = .finished ∧ client.connected = true

structure State.Inv (past : List Event) (σ : State) : Prop where
  unique : Table.Unique σ.sockets
  stashed : ∀ i client, σ.socket i = some client → client.handshake = .subscribing ∨ client.live →
    client.jti = client.ownJti
  /-- Whoever was let through before its `jti` was revoked has been overtaken. -/
  admitted : ∀ i client jti, σ.socket i = some client → client.admitted = true → client.ownJti = some jti →
    jti ∈ σ.handled → client.expired σ.now = true ∨ overtaken i jti past = true
  gone : ∀ i client jti, σ.socket i = some client → client.live → client.ownJti = some jti → jti ∉ σ.handled
  indexed : ∀ jti i, i ∈ σ.getSocketsByJti jti ↔
    ∃ client, σ.socket i = some client ∧ client.live ∧ client.ownJti = some jti

section

variable {past : List Event} {σ σ' : State} {client : Socket} {i jti : Nat}

theorem Socket.live_closed (client : Socket) : ¬client.closed.live := by
  rintro ⟨-, hopen⟩
  rw [client.connected_closed] at hopen
  cases hopen

theorem State.Inv.disconnected (h : σ.Inv past) (hd : Disconnected σ σ' i) : σ'.Inv past := by
  have hsame : ∀ j client', σ'.socket j = some client' → ∃ client, σ.socket j = some client ∧
      client'.token = client.token ∧ client'.jti = client.jti ∧ client'.handshake = client.handshake := by
    intro j client' hj
    rw [hd.socket, Option.map_eq_some_iff] at hj
    obtain ⟨client, hclient, rfl⟩ := hj
    refine ⟨client, hclient, ?_⟩
    by_cases hji : j = i
    · rw [if_pos hji]
      exact client.closed_keeps.2
    · rw [if_neg hji]
      exact ⟨rfl, rfl, rfl⟩
  have hlive : ∀ j client', σ'.socket j = some client' → client'.live → j ≠ i ∧ σ.socket j = some client' := by
    intro j client' hj hl
    rw [hd.socket, Option.map_eq_some_iff] at hj
    obtain ⟨client, hclient, rfl⟩ := hj
    by_cases hji : j = i
    · rw [if_pos hji] at hl
      exact absurd hl client.live_closed
    · rw [if_neg hji]
      exact ⟨hji, hclient⟩
  refine ⟨hd.unique h.unique, fun j client' hj hopen => ?_, fun j client' jti hj hadmitted hown hhandled => ?_,
    fun j client' jti hj hl hown hhandled => ?_, fun jti j => ?_⟩
  · obtain ⟨client, hclient, htoken, hjti, hhandshake⟩ := hsame j client' hj
    have hown := ownJti_congr htoken
    rcases hopen with hsub | hl
    · rw [hjti, hown]
      exact h.stashed j client hclient (.inl (hhandshake ▸ hsub))
    · obtain ⟨-, hbefore⟩ := hlive j client' hj hl
      exact h.stashed j client' hbefore (.inr hl)
  · obtain ⟨client, hclient, htoken, -, hhandshake⟩ := hsame j client' hj
    have hadmitted' : client.admitted = true := by
      unfold Socket.admitted at hadmitted ⊢
      rwa [hhandshake] at hadmitted
    rw [hd.handled] at hhandled
    rw [hd.now, expired_congr htoken]
    exact h.admitted j client jti hclient hadmitted' ((ownJti_congr htoken).symm.trans hown) hhandled
  · rw [hd.handled] at hhandled
    exact h.gone j client' jti (hlive j client' hj hl).2 hl hown hhandled
  · rw [hd.index, h.indexed]
    constructor
    · rintro ⟨⟨client, hclient, hl, hown⟩, hother⟩
      have hji : j ≠ i := by
        rintro rfl
        exact hother ⟨rfl, client, hclient, hl.2, (h.stashed j client hclient (.inr hl)).trans hown⟩
      refine ⟨client, ?_, hl, hown⟩
      rw [hd.socket, hclient, Option.map_some, if_neg hji]
    · rintro ⟨client, hclient, hl, hown⟩
      obtain ⟨hji, hbefore⟩ := hlive j client hclient hl
      exact ⟨⟨client, hbefore, hl, hown⟩, fun hmem => hji hmem.1⟩

theorem State.Inv.disconnect (h : σ.Inv past) (i : Nat) : (σ.disconnect i).Inv past :=
  h.disconnected (disconnect_spec σ i)

theorem State.Inv.on (h : σ.Inv past) (hclient : σ.socket i = some client) {f : Socket → Socket}
    (hf : ∀ s, (f s).id = s.id) (htoken : (f client).token = client.token) (hlive : (f client).live ↔ client.live)
    (hstashed : (f client).handshake = .subscribing ∨ (f client).live → (f client).jti = client.ownJti)
    (hadmitted : (f client).admitted = true → ∀ jti, client.ownJti = some jti → jti ∈ σ.handled →
      client.expired σ.now = true ∨ overtaken i jti past = true) : (σ.on i f).Inv past := by
  have hown := ownJti_congr htoken
  have hcases : ∀ j client', (σ.on i f).socket j = some client' →
      j = i ∧ client' = f client ∨ j ≠ i ∧ σ.socket j = some client' := fun _ _ => socket_on_cases hclient f hf
  refine ⟨Table.unique_updateWhere h.unique i _ f hf, fun j client' hj hopen => ?_,
    fun j client' jti hj hadm hownJti hhandled => ?_, fun j client' jti hj hl hownJti => ?_, fun jti j => ?_⟩
  · rcases hcases j client' hj with ⟨rfl, rfl⟩ | ⟨-, hbefore⟩
    · rw [hown]
      exact hstashed hopen
    · exact h.stashed j client' hbefore hopen
  · rcases hcases j client' hj with ⟨rfl, rfl⟩ | ⟨-, hbefore⟩
    · rw [expired_congr htoken]
      exact hadmitted hadm jti (hown ▸ hownJti) hhandled
    · exact h.admitted j client' jti hbefore hadm hownJti hhandled
  · rcases hcases j client' hj with ⟨rfl, rfl⟩ | ⟨-, hbefore⟩
    · exact h.gone j client jti hclient (hlive.1 hl) (hown ▸ hownJti)
    · exact h.gone j client' jti hbefore hl hownJti
  · have hindex : j ∈ (σ.on i f).getSocketsByJti jti ↔ j ∈ σ.getSocketsByJti jti := Iff.rfl
    rw [hindex, h.indexed]
    by_cases hji : j = i
    · subst hji
      rw [socket_on_self f hf hclient, hclient]
      simp only [Option.some.injEq, exists_eq_left', hlive, hown]
    · rw [socket_on_of_ne f hf hji]

theorem State.Inv.reject (h : σ.Inv past) (hclient : σ.socket i = some client) :
    (σ.rejectAndDisconnect i).Inv past := by
  have hclosed : (σ.disconnect i).socket i = some client.closed := by
    rw [(disconnect_spec σ i).socket, hclient, Option.map_some, if_pos rfl]
  have hdead : ¬(Socket.goOn .finished client.closed).live := by
    rintro ⟨-, hopen⟩
    exact absurd (client.connected_closed.symm.trans hopen) (by decide)
  refine (h.disconnect i).on hclosed (fun _ => rfl) rfl (iff_of_false hdead client.live_closed) ?_ ?_
  · rintro (hsub | hl)
    · cases hsub
    · exact absurd hl hdead
  · exact fun hadm => (nomatch hadm)

/-- The socket is still there after its timer is set, and connected where the token has time left. -/
theorem State.Inv.scheduleExpiryDisconnect (h : σ.Inv past) (hclient : σ.socket i = some client)
    (hsub : client.handshake = .subscribing) :
    (σ.scheduleExpiryDisconnect i client.exp).Inv past ∧ (σ.scheduleExpiryDisconnect i client.exp).now = σ.now ∧
      ∃ client', (σ.scheduleExpiryDisconnect i client.exp).socket i = some client' ∧ client'.token = client.token ∧
        client'.handshake = .subscribing ∧
        (client.connected = true → client.expired σ.now = false → client'.connected = true) := by
  have hgone : client.expired σ.now = true →
      (σ.disconnect i).Inv past ∧ (σ.disconnect i).now = σ.now ∧
        ∃ client', (σ.disconnect i).socket i = some client' ∧ client'.token = client.token ∧
          client'.handshake = .subscribing ∧
          (client.connected = true → client.expired σ.now = false → client'.connected = true) := by
    intro hexpired
    have hd := disconnect_spec σ i
    refine ⟨h.disconnect i, hd.now, client.closed, ?_, client.closed_keeps.2.1,
      client.closed_keeps.2.2.2.trans hsub, fun _ hnot => ?_⟩
    · rw [hd.socket, hclient, Option.map_some, if_pos rfl]
    · rw [hexpired] at hnot
      cases hnot
  unfold State.scheduleExpiryDisconnect
  cases hexp : client.exp with
  | none =>
    refine hgone ?_
    unfold Socket.expired
    rw [hexp]
    rfl
  | some exp =>
    dsimp only
    by_cases hlate : exp * 1000 - σ.now ≤ 0
    · rw [if_pos hlate]
      refine hgone ?_
      unfold Socket.expired
      rw [hexp, Option.all_some, decide_eq_true_iff]
      omega
    · rw [if_neg hlate]
      refine ⟨?_, rfl, _, socket_on_self _ (fun _ => rfl) hclient, rfl, hsub, fun hopen _ => hopen⟩
      exact h.on hclient (fun _ => rfl) rfl Iff.rfl (fun _ => h.stashed i client hclient (.inl hsub))
        fun hadm jti hown hmem => h.admitted i client jti hclient hadm hown hmem

theorem State.Inv.finish (h : σ.Inv past) (hclient : σ.socket i = some client)
    (hsub : client.handshake = .subscribing) (hfree : ∀ jti, client.ownJti = some jti →
      client.connected = true ∧ client.expired σ.now = false ∧ overtaken i jti past = false) :
    (State.on (match client.ownJti with
      | some jti => σ.indexSocketByJti i jti
      | none => σ) i (Socket.goOn .finished)).Inv past := by
  generalize hτ : (match client.ownJti with
    | some jti => σ.indexSocketByJti i jti
    | none => σ) = τ
  have hsockets : τ.sockets = σ.sockets ∧ τ.now = σ.now ∧ τ.handled = σ.handled := by
    rw [← hτ]
    split <;> exact ⟨rfl, rfl, rfl⟩
  obtain ⟨hsockets, hnow, hhandled⟩ := hsockets
  have hindex : ∀ j jti, j ∈ τ.getSocketsByJti jti ↔ j ∈ σ.getSocketsByJti jti ∨ j = i ∧ client.ownJti = some jti := by
    intro j jti
    rw [← hτ]
    cases hown : client.ownJti with
    | none => simp
    | some own =>
      dsimp only
      rw [mem_indexSocketByJti, Option.some.injEq, eq_comm (a := jti)]
  have hsocket : ∀ j, τ.socket j = σ.socket j := fun j => congrArg (fun l => Table.find l j) hsockets
  have hclient' : τ.socket i = some client := (hsocket i).trans hclient
  have hadmitted : client.admitted = true := by
    unfold Socket.admitted
    rw [hsub]
    rfl
  have hcases : ∀ j client', (τ.on i (Socket.goOn .finished)).socket j = some client' →
      j = i ∧ client' = Socket.goOn .finished client ∨ j ≠ i ∧ σ.socket j = some client' := by
    intro j client' hj
    rw [← hsocket]
    exact socket_on_cases hclient' (Socket.goOn .finished) (fun _ => rfl) hj
  refine ⟨?_, fun j client' hj hlive => ?_, fun j client' jti hj hadm hownJti hmem => ?_,
    fun j client' jti hj hl hownJti hmem => ?_, fun jti j => ?_⟩
  · have hunique : Table.Unique τ.sockets := hsockets ▸ h.unique
    exact Table.unique_updateWhere hunique i _ (Socket.goOn .finished) fun _ => rfl
  · rcases hcases j client' hj with ⟨rfl, rfl⟩ | ⟨-, hbefore⟩
    · exact h.stashed j client hclient (.inl hsub)
    · exact h.stashed j client' hbefore hlive
  · rw [show State.handled (τ.on i (Socket.goOn .finished)) = σ.handled from hhandled] at hmem
    show client'.expired τ.now = true ∨ _
    rw [hnow]
    rcases hcases j client' hj with ⟨rfl, rfl⟩ | ⟨-, hbefore⟩
    · exact (nomatch hadm)
    · exact h.admitted j client' jti hbefore hadm hownJti hmem
  · rw [show State.handled (τ.on i (Socket.goOn .finished)) = σ.handled from hhandled] at hmem
    rcases hcases j client' hj with ⟨rfl, rfl⟩ | ⟨-, hbefore⟩
    · obtain ⟨-, hunexpired, hnot⟩ := hfree jti hownJti
      rcases h.admitted j client jti hclient hadmitted hownJti hmem with hexpired | hover
      · rw [hunexpired] at hexpired
        cases hexpired
      · rw [hnot] at hover
        cases hover
    · exact h.gone j client' jti hbefore hl hownJti hmem
  · have hsame : j ∈ (τ.on i (Socket.goOn .finished)).getSocketsByJti jti ↔ j ∈ τ.getSocketsByJti jti := Iff.rfl
    rw [hsame, hindex, h.indexed]
    constructor
    · rintro (⟨client', hclient'', hl, hown⟩ | ⟨rfl, hown⟩)
      · have hji : j ≠ i := by
          rintro rfl
          obtain rfl := Option.some.inj (hclient.symm.trans hclient'')
          exact absurd (hsub.symm.trans hl.1) (by decide)
        refine ⟨client', ?_, hl, hown⟩
        rw [socket_on_of_ne (Socket.goOn .finished) (fun _ => rfl) hji, hsocket]
        exact hclient''
      · exact ⟨_, socket_on_self (Socket.goOn .finished) (fun _ => rfl) hclient', ⟨rfl, (hfree jti hown).1⟩, hown⟩
    · rintro ⟨client', hclient'', hl, hown⟩
      rcases hcases j client' hclient'' with ⟨rfl, rfl⟩ | ⟨hji, hbefore⟩
      · exact .inr ⟨rfl, hown⟩
      · exact .inl ⟨client', hbefore, hl, hown⟩

/-! ### The events -/

/-- The past grows, unless a socket that was let through reads the blocklist once more. -/
theorem State.Inv.cons (h : σ.Inv past) (e : Event)
    (he : ∀ i client, e = .readBlocklist i → σ.socket i = some client → client.admitted = false) :
    σ.Inv (e :: past) := by
  refine ⟨h.unique, h.stashed, fun i client jti hi hadm hown hmem => ?_, h.gone, h.indexed⟩
  refine (h.admitted i client jti hi hadm hown hmem).imp_right fun hover => ?_
  cases e with
  | readBlocklist j =>
    have hji : j ≠ i := by
      rintro rfl
      rw [he j client rfl hi] at hadm
      cases hadm
    unfold overtaken
    rw [hover, bne_iff_ne.2 hji]
    rfl
  | handleRevocation other =>
    unfold overtaken
    rw [hover, Bool.or_true]
  | _ => exact hover

theorem State.Inv.later {now : Int} (h : σ.Inv past) (hnow : σ.now ≤ now) : State.Inv past { σ with now := now } := by
  refine ⟨h.unique, h.stashed, fun i client jti hi hadm hown hmem => ?_, h.gone, h.indexed⟩
  refine (h.admitted i client jti hi hadm hown hmem).imp_left fun hexpired => ?_
  unfold Socket.expired at hexpired ⊢
  rw [Option.all_eq_true] at hexpired ⊢
  intro exp hexp
  have hle := of_decide_eq_true (hexpired exp hexp)
  exact decide_eq_true (Int.le_trans hle hnow)

theorem State.Inv.disconnectAll (h : σ.Inv past) (l : List Nat) :
    (l.foldl State.disconnect σ).Inv past ∧ (l.foldl State.disconnect σ).handled = σ.handled ∧
      ∀ j client, (l.foldl State.disconnect σ).socket j = some client → client.live →
        j ∉ l ∧ σ.socket j = some client := by
  induction l generalizing σ with
  | nil => exact ⟨h, rfl, fun j client hj _ => ⟨List.not_mem_nil, hj⟩⟩
  | cons i l ih =>
    have hd := disconnect_spec σ i
    obtain ⟨hinv, hhandled, hlive⟩ := ih (h.disconnect i)
    rw [List.foldl_cons]
    refine ⟨hinv, hhandled.trans hd.handled, fun j client hj hl => ?_⟩
    obtain ⟨hnot, hbetween⟩ := hlive j client hj hl
    rw [hd.socket, Option.map_eq_some_iff] at hbetween
    obtain ⟨before, hbefore, rfl⟩ := hbetween
    by_cases hji : j = i
    · rw [if_pos hji] at hl
      exact absurd hl before.live_closed
    · rw [if_neg hji]
      exact ⟨List.not_mem_cons_of_ne_of_not_mem hji hnot, hbefore⟩

theorem State.Inv.handleRevocation (h : σ.Inv past) :
    State.Inv (.handleRevocation jti :: past) { (σ.revokeJti jti) with
      published := σ.published.erase jti, handled := jti :: σ.handled } := by
  obtain ⟨hinv, hhandled, hlive⟩ := h.disconnectAll (σ.getSocketsByJti jti)
  have hlater := hinv.cons (.handleRevocation jti) fun _ _ he => (nomatch he)
  refine ⟨hinv.unique, hinv.stashed, fun i client other hi hadm hother hmem => ?_,
    fun i client other hi hl hother hmem => ?_, hinv.indexed⟩
  · rcases List.mem_cons.1 hmem with rfl | hmem
    · right
      unfold overtaken
      rw [beq_self_eq_true, Bool.true_or]
    · exact hlater.admitted i client other hi hadm hother (hhandled ▸ hmem)
  · rcases List.mem_cons.1 hmem with rfl | hmem
    · obtain ⟨hnot, hclient⟩ := hlive i client hi hl
      exact hnot ((h.indexed other i).2 ⟨client, hclient, hl, hother⟩)
    · exact hinv.gone i client other hi hl hother (hhandled ▸ hmem)

theorem State.Inv.handleConnection (h : σ.Inv past) (token : Option Token) (hfree : σ.socket i = none) :
    (σ.handleConnection i token).Inv past := by
  have hadded : Table.Added σ.sockets (σ.sockets ++ [⟨i, token, true, none, none, [], .verifying⟩])
      ⟨i, token, true, none, none, [], .verifying⟩ := .append hfree
  have hfind : ∀ j, State.socket { σ with sockets := σ.sockets ++ [⟨i, token, true, none, none, [], .verifying⟩] } j =
      if j = i then some ⟨i, token, true, none, none, [], .verifying⟩ else σ.socket j := hadded.after
  have hdead : ∀ s : Socket, s.handshake = .verifying → ¬s.live := fun s hs hl => by
    rw [hl.1] at hs
    cases hs
  have hold : ∀ j client, State.socket
      { σ with sockets := σ.sockets ++ [⟨i, token, true, none, none, [], .verifying⟩] } j = some client →
      client.handshake ≠ .verifying → σ.socket j = some client := by
    intro j client hj hbegun
    rw [hfind] at hj
    by_cases hji : j = i
    · rw [if_pos hji] at hj
      obtain rfl := Option.some.inj hj
      exact absurd rfl hbegun
    · rwa [if_neg hji] at hj
  have hnew : State.Inv past { σ with sockets := σ.sockets ++ [⟨i, token, true, none, none, [], .verifying⟩] } := by
    refine ⟨Table.unique_append h.unique hfree, fun j client hj hopen => ?_,
      fun j client jti hj hadm hown hmem => ?_, fun j client jti hj hl hown => ?_, fun jti j => ?_⟩
    · refine h.stashed j client (hold j client hj fun hs => ?_) hopen
      rcases hopen with hsub | hl
      · rw [hs] at hsub
        cases hsub
      · exact hdead client hs hl
    · refine h.admitted j client jti (hold j client hj fun hs => ?_) hadm hown hmem
      unfold Socket.admitted at hadm
      rw [hs] at hadm
      cases hadm
    · exact h.gone j client jti (hold j client hj fun hs => hdead client hs hl) hl hown
    · have hsame : j ∈ State.getSocketsByJti { σ with
          sockets := σ.sockets ++ [⟨i, token, true, none, none, [], .verifying⟩] } jti ↔ j ∈ σ.getSocketsByJti jti := Iff.rfl
      rw [hsame, h.indexed]
      constructor
      · rintro ⟨client, hclient, hl, hown⟩
        have hji : j ≠ i := fun hji => by
          rw [hji, hfree] at hclient
          cases hclient
        exact ⟨client, (hfind j).trans ((if_neg hji).trans hclient), hl, hown⟩
      · rintro ⟨client, hclient, hl, hown⟩
        exact ⟨client, hold j client hclient fun hs => hdead client hs hl, hl, hown⟩
  unfold State.handleConnection
  cases token with
  | some t => exact hnew
  | none => exact hnew.reject (by rw [hfind, if_pos rfl])

theorem State.Inv.stepSocket {e : Event} (h : σ.Inv past) (hclient : σ.socket client.id = some client)
    (hread : e = .readBlocklist client.id → ∀ jti, client.ownJti = some jti → jti ∈ σ.handled →
      σ.isBlocked jti = true ∨ client.expired σ.now = true)
    (hsubscribe : e = .subscribe client.id → ∀ jti, client.ownJti = some jti →
      client.connected = true ∧ client.expired σ.now = false ∧ overtaken client.id jti past = false)
    (he : ∀ i, e = .readBlocklist i ∨ e = .subscribe i → i = client.id)
    (hstep : σ.stepSocket client e = some σ') : σ'.Inv (e :: past) := by
  have hdead : ∀ {s : Socket}, s.handshake ≠ .finished → ¬s.live := fun hne hl => hne hl.1
  have hopened : client.handshake ≠ .finished → ∀ {f : Socket → Socket}, (f client).handshake ≠ .finished →
      ((f client).live ↔ client.live) := fun hne _ hne' => iff_of_false (hdead hne') (hdead hne)
  cases e with
  | verify i =>
    replace h := h.cons (.verify i) fun _ _ he => (nomatch he)
    unfold State.stepSocket at hstep
    dsimp only at hstep
    split at hstep
    · next hverifying =>
      obtain rfl := Option.some.inj hstep
      have hbefore : client.handshake ≠ .finished := fun hfin => by rw [hverifying] at hfin; cases hfin
      unfold State.verified
      split
      · by_cases hjti : client.ownJti.isSome = true
        · rw [if_pos hjti]
          have hnot : (Socket.goOn .checking client).handshake ≠ .finished := fun hfin => by cases hfin
          refine h.on hclient (fun _ => rfl) rfl (hopened hbefore hnot) ?_ (fun hadm => (nomatch hadm))
          rintro (hsub | hl)
          · cases hsub
          · exact absurd hl (hdead hnot)
        · rw [if_neg hjti]
          have hnot : client.stash.handshake ≠ .finished := fun hfin => by cases hfin
          refine h.on hclient (fun _ => rfl) rfl (hopened hbefore hnot) (fun _ => rfl) ?_
          intro _ jti hown
          rw [hown] at hjti
          exact absurd rfl hjti
      · exact h.reject hclient
    · cases hstep
  | readBlocklist i =>
    obtain rfl := he i (.inl rfl)
    unfold State.stepSocket at hstep
    dsimp only at hstep
    split at hstep
    · next hchecking =>
      obtain rfl := Option.some.inj hstep
      have hbefore : client.handshake ≠ .finished := fun hfin => by rw [hchecking] at hfin; cases hfin
      have hnot : (Socket.goOn (.checked (client.ownJti.any σ.isBlocked)) client).handshake ≠ .finished :=
        fun hfin => by cases hfin
      replace h := h.cons (.readBlocklist client.id) fun i client' hi hclient' => by
        obtain rfl := Event.readBlocklist.inj hi
        obtain rfl := Option.some.inj (hclient.symm.trans hclient')
        unfold Socket.admitted
        rw [hchecking]
        rfl
      refine h.on hclient (fun _ => rfl) rfl (hopened hbefore hnot) ?_ ?_
      · rintro (hsub | hl)
        · cases hsub
        · exact absurd hl (hdead hnot)
      · intro hadm jti hown hmem
        rcases hread rfl jti hown hmem with hblocked | hexpired
        · rw [hown, Option.any_some, hblocked] at hadm
          cases hadm
        · exact .inl hexpired
    · cases hstep
  | resume i =>
    replace h := h.cons (.resume i) fun _ _ he => (nomatch he)
    unfold State.stepSocket at hstep
    dsimp only at hstep
    split at hstep
    · obtain rfl := Option.some.inj hstep
      exact h.reject hclient
    · next hchecked =>
      obtain rfl := Option.some.inj hstep
      have hbefore : client.handshake ≠ .finished := fun hfin => by rw [hchecked] at hfin; cases hfin
      have hnot : client.stash.handshake ≠ .finished := fun hfin => by cases hfin
      refine h.on hclient (fun _ => rfl) rfl (hopened hbefore hnot) (fun _ => rfl) ?_
      intro _ jti hown hmem
      refine h.admitted client.id client jti hclient ?_ hown hmem
      unfold Socket.admitted
      rw [hchecked]
      rfl
    · cases hstep
  | join i room =>
    replace h := h.cons (.join i room) fun _ _ he => (nomatch he)
    unfold State.stepSocket at hstep
    dsimp only at hstep
    split at hstep
    · next hsub =>
      obtain rfl := Option.some.inj hstep
      refine h.on hclient (fun _ => rfl) rfl Iff.rfl
        (fun _ => h.stashed client.id client hclient (.inl hsub)) fun hadm jti hown hmem =>
          h.admitted client.id client jti hclient hadm hown hmem
    · cases hstep
  | subscribe i =>
    obtain rfl := he i (.inr rfl)
    replace h := h.cons (.subscribe client.id) fun _ _ he => (nomatch he)
    unfold State.stepSocket at hstep
    dsimp only at hstep
    split at hstep
    · next hsub =>
      obtain rfl := Option.some.inj hstep
      obtain ⟨hscheduled, hnow, client', hclient', htoken, hsub', hopen⟩ := h.scheduleExpiryDisconnect hclient hsub
      unfold State.subscribed
      rw [← ownJti_congr htoken]
      refine hscheduled.finish hclient' hsub' fun jti hown => ?_
      obtain ⟨hconnected, hunexpired, hnot⟩ := hsubscribe rfl jti ((ownJti_congr htoken).symm.trans hown)
      rw [hnow, expired_congr htoken]
      exact ⟨hopen hconnected hunexpired, hunexpired, hnot⟩
    · cases hstep
  | fail i =>
    replace h := h.cons (.fail i) fun _ _ he => (nomatch he)
    unfold State.stepSocket at hstep
    dsimp only at hstep
    split at hstep
    · obtain rfl := Option.some.inj hstep
      exact h.reject hclient
    · obtain rfl := Option.some.inj hstep
      exact h.reject hclient
    · cases hstep
  | clientDisconnect i =>
    obtain rfl := Option.some.inj hstep
    exact (h.cons (.clientDisconnect i) fun _ _ he => (nomatch he)).disconnect client.id
  | timer i =>
    replace h := h.cons (.timer i) fun _ _ he => (nomatch he)
    unfold State.stepSocket at hstep
    dsimp only at hstep
    split at hstep
    · obtain rfl := Option.some.inj hstep
      refine State.Inv.disconnect ?_ client.id
      exact h.on hclient (fun _ => rfl) rfl Iff.rfl (fun hopen => h.stashed client.id client hclient hopen)
        fun hadm jti hown hmem => h.admitted client.id client jti hclient hadm hown hmem
    · cases hstep
  | _ => cases hstep

theorem State.Inv.step {e : Event} (h : σ.Inv past) (hord : σ.orderly past e = true) (hstep : σ.step e = some σ') :
    σ'.Inv (e :: past) := by
  have hsocket : ∀ i, ((σ.socket i).bind fun client => σ.stepSocket client e) = some σ' →
      (∀ j, e = .readBlocklist j ∨ e = .subscribe j → j = i) → σ'.Inv (e :: past) := by
    intro i hi he
    rw [Option.bind_eq_some_iff] at hi
    obtain ⟨client, hclient, hi⟩ := hi
    have hid : client.id = i := Table.id_of_find hclient
    subst hid
    refine h.stepSocket hclient (fun hread jti hown hmem => ?_) (fun hsub jti hown => ?_) he hi
    · subst hread
      unfold State.orderly at hord
      dsimp only at hord
      rw [hclient] at hord
      simp only [Option.all_some, hown, List.contains_eq_mem, hmem, decide_true, Bool.not_true, Bool.false_or,
        Bool.or_eq_true] at hord
      exact hord
    · subst hsub
      unfold State.orderly at hord
      dsimp only at hord
      rw [hclient] at hord
      simp only [Option.all_some, hown, Bool.and_eq_true, Bool.not_eq_true'] at hord
      exact ⟨hord.1.1, hord.1.2, hord.2⟩
  cases e with
  | elapse ms =>
    obtain rfl := Option.some.inj hstep
    exact (h.cons (.elapse ms) fun _ _ he => (nomatch he)).later (by omega)
  | connect i token =>
    unfold State.step at hstep
    dsimp only at hstep
    split at hstep
    · next hfree =>
      obtain rfl := Option.some.inj hstep
      exact (h.cons (.connect i token) fun _ _ he => (nomatch he)).handleConnection token
        (Option.isNone_iff_eq_none.1 hfree)
    · cases hstep
  | blocklist jti expUnix =>
    obtain rfl := Option.some.inj hstep
    have hsame := h.cons (.blocklist jti expUnix) fun _ _ he => (nomatch he)
    exact ⟨hsame.unique, hsame.stashed, hsame.admitted, hsame.gone, hsame.indexed⟩
  | handleRevocation jti =>
    unfold State.step at hstep
    dsimp only at hstep
    split at hstep
    · obtain rfl := Option.some.inj hstep
      exact h.handleRevocation
    · cases hstep
  | verify i => exact hsocket i hstep fun _ hj => by rcases hj with hj | hj <;> cases hj
  | readBlocklist i => exact hsocket i hstep fun _ hj => by rcases hj with hj | hj <;> cases hj; rfl
  | resume i => exact hsocket i hstep fun _ hj => by rcases hj with hj | hj <;> cases hj
  | join i room => exact hsocket i hstep fun _ hj => by rcases hj with hj | hj <;> cases hj
  | subscribe i => exact hsocket i hstep fun _ hj => by rcases hj with hj | hj <;> cases hj; rfl
  | fail i => exact hsocket i hstep fun _ hj => by rcases hj with hj | hj <;> cases hj
  | clientDisconnect i => exact hsocket i hstep fun _ hj => by rcases hj with hj | hj <;> cases hj
  | timer i => exact hsocket i hstep fun _ hj => by rcases hj with hj | hj <;> cases hj

theorem State.Inv.run {events : List Event} (h : σ.Inv past) (hord : State.orderlyRun past σ events = true)
    (hrun : σ.run events = some σ') : ∃ past', σ'.Inv past' := by
  induction events generalizing past σ with
  | nil =>
    obtain rfl := Option.some.inj hrun
    exact ⟨past, h⟩
  | cons e events ih =>
    unfold State.run at hrun
    rw [Option.bind_eq_some_iff] at hrun
    obtain ⟨σ₁, hstep, hrest⟩ := hrun
    unfold State.orderlyRun at hord
    rw [Bool.and_eq_true, hstep, Option.all_some] at hord
    exact ih (h.step hord.1 hstep) hord.2 hrest

end

theorem State.inv_boot (now : Int) (blocklist : Nat → Option Int) : (State.boot now blocklist).Inv [] where
  unique := List.nodup_nil
  stashed _ _ h := (nomatch h)
  admitted _ _ _ h := (nomatch h)
  gone _ _ _ h := (nomatch h)
  indexed _ _ := ⟨fun h => absurd h List.not_mem_nil, fun ⟨_, h, _⟩ => (nomatch h)⟩

/-! ## Runs -/

/-- **Revocation over sockets.**  As long as no handshake is overtaken by a revocation after it has read the blocklist, and
none ends on a socket that is gone or on an expired token, no revoked socket stays connected and the index has exactly the
connected sockets. -/
theorem revoked_gone_and_indexed {now : Int} {blocklist : Nat → Option Int} {events : List Event} {σ : State}
    (hrun : (State.boot now blocklist).run events = some σ)
    (hord : State.orderlyRun [] (State.boot now blocklist) events = true) : σ.RevokedGone ∧ σ.Indexed := by
  obtain ⟨past, hinv⟩ := (State.inv_boot now blocklist).run hord hrun
  have hfind : ∀ client ∈ σ.sockets, σ.socket client.id = some client := fun client hc => Table.find_of_mem hinv.unique hc
  constructor
  · intro jti hmem hover client hc hown
    cases hopen : client.connected with
    | false => rfl
    | true => exact absurd hmem (hinv.gone client.id client jti (hfind client hc) ⟨hover client hc hown, hopen⟩ hown)
  · intro hover jti i
    rw [hinv.indexed]
    constructor
    · rintro ⟨client, hclient, hl, hown⟩
      exact ⟨client, Table.mem_of_find hclient, Table.id_of_find hclient, hl.2, hown⟩
    · rintro ⟨client, hc, rfl, hopen, hown⟩
      exact ⟨client, hfind client hc, ⟨hover client hc, hopen⟩, hown⟩

/-- A token of fifteen minutes. -/
def accessToken (jti : Nat) : Token := ⟨some jti, some 900, true⟩

def handshakeOf (i jti : Nat) : List Event :=
  [.connect i (some (accessToken jti)), .verify i, .readBlocklist i, .resume i, .join i "user:1", .subscribe i]

/-- Two sockets of one token are closed by its revocation, and a third one is refused. -/
def twoTabs : List Event :=
  handshakeOf 0 7 ++ handshakeOf 1 7 ++ [.elapse 1000, .blocklist 7 900, .handleRevocation 7,
    .connect 2 (some (accessToken 7)), .verify 2, .readBlocklist 2, .resume 2]

theorem revoked_gone_and_indexed_twoTabs :
    ∃ σ, (State.boot 0 fun _ => none).run twoTabs = some σ ∧ 7 ∈ σ.handled ∧ σ.sockets.length = 3 ∧ σ.RevokedGone ∧
      σ.Indexed := by
  have hend : ((State.boot 0 fun _ => none).run twoTabs).any
      (fun σ => decide (7 ∈ σ.handled ∧ σ.sockets.length = 3)) = true := by
    decide +kernel
  rw [Option.any_eq_true] at hend
  obtain ⟨σ, hrun, hσ⟩ := hend
  obtain ⟨hhandled, hlength⟩ := of_decide_eq_true hσ
  exact ⟨σ, hrun, hhandled, hlength, revoked_gone_and_indexed hrun (by decide +kernel)⟩

/-- The token is revoked while the rooms are joined. -/
def revokedWhileJoining : List Event :=
  [.connect 0 (some (accessToken 7)), .verify 0, .readBlocklist 0, .resume 0, .join 0 "user:1", .blocklist 7 900,
    .handleRevocation 7, .subscribe 0]

/-- The client hangs up while the rooms are joined. -/
def goneWhileJoining : List Event :=
  [.connect 0 (some (accessToken 7)), .verify 0, .readBlocklist 0, .resume 0, .join 0 "user:1", .clientDisconnect 0,
    .subscribe 0]

theorem revoked_stays_and_gone_stays_indexed :
    (∃ σ, (State.boot 0 fun _ => none).run revokedWhileJoining = some σ ∧ ¬σ.RevokedGone) ∧
      ∃ σ, (State.boot 0 fun _ => none).run goneWhileJoining = some σ ∧ ¬σ.Indexed := by
  constructor
  · have hend : ((State.boot 0 fun _ => none).run revokedWhileJoining).any (fun σ => decide ¬σ.RevokedGone) = true := by
      decide +kernel
    rw [Option.any_eq_true] at hend
    obtain ⟨σ, hrun, hσ⟩ := hend
    exact ⟨σ, hrun, of_decide_eq_true hσ⟩
  · have hend : ((State.boot 0 fun _ => none).run goneWhileJoining).any (fun σ => decide
        ((∀ client ∈ σ.sockets, client.handshake = .finished) ∧ 0 ∈ σ.getSocketsByJti 7 ∧
          ∀ client ∈ σ.sockets, client.connected = false)) = true := by
      decide +kernel
    rw [Option.any_eq_true] at hend
    obtain ⟨σ, hrun, hσ⟩ := hend
    obtain ⟨hover, hindexed, hgone⟩ := of_decide_eq_true hσ
    refine ⟨σ, hrun, fun h => ?_⟩
    obtain ⟨client, hclient, -, hopen, -⟩ := (h hover 7 0).1 hindexed
    rw [hgone client hclient] at hopen
    cases hopen

end Websocket
