import Shyraq.Cameras.StreamAccess

/-!
# How long a stream outlives the right to it

A token for the session's own camera ends within its lifetime.  But the door takes any token for any session: whoever
may still watch one camera keeps another one's stream going.
-/

namespace Cameras

open CctvStreamTokenService

/-! ## What is claimed -/

/-- A token of that camera was minted for the user, and its lifetime was not over. -/
def Served.CoveredBy (config : CctvConfig) (minted : List Minted) (r : Served) : Prop :=
  ∃ m ∈ minted, m.token.claims.cameraId = r.cameraId ∧ m.token.claims.userId = r.claims.userId ∧ m.at_ ≤ r.at_ ∧
    r.at_ ≤ m.at_ + config.streamTokenTtlSeconds * 1000

instance (config : CctvConfig) (minted : List Minted) (r : Served) : Decidable (r.CoveredBy config minted) :=
  inferInstanceAs (Decidable (∃ _ ∈ _, _))

/-- What went out to users without the right to it went out within the lifetime of their last token. -/
def State.WithinWindow (config : CctvConfig) (σ : State) : Prop :=
  ∀ r ∈ σ.served, r.allowed = false → r.CoveredBy config σ.minted

instance (config : CctvConfig) (σ : State) : Decidable (σ.WithinWindow config) :=
  inferInstanceAs (Decidable (∀ _ ∈ _, _))

/-- The token is one of another camera. -/
def Served.Strays (r : Served) : Prop := r.claims.cameraId ≠ r.cameraId

instance (r : Served) : Decidable r.Strays := inferInstanceAs (Decidable (_ ≠ _))

/-! ## Nobody forges a signature -/

def Event.presents : Event → Option StreamToken
  | .master _ token _ _ | .media _ token _ => some token
  | _ => none

/-- A token with this server's signature is one that it has minted. -/
def State.genuine (hmac : Hmac) (config : CctvConfig) (σ : State) (e : Event) : Bool :=
  e.presents.all fun token => !signed hmac config token || σ.minted.any fun m => m.token == token

def State.unforged (hmac : Hmac) (config : CctvConfig) : State → List Event → Bool
  | _, [] => true
  | σ, e :: events => σ.genuine hmac config e && (σ.step hmac config e).all fun σ' => unforged hmac config σ' events

/-! ## One step -/

section

variable {hmac : Hmac} {config : CctvConfig} {σ σ' : State} {r : Served}

theorem Served.CoveredBy.mono {minted minted' : List Minted} (h : r.CoveredBy config minted) (hm : minted ⊆ minted') :
    r.CoveredBy config minted' := by
  obtain ⟨m, hmem, hrest⟩ := h
  exact ⟨m, hm hmem, hrest⟩

/-- A minted token ends with its lifetime, and what was served on a token of its own camera was covered. -/
structure State.Inv (config : CctvConfig) (σ : State) : Prop where
  minted : ∀ m ∈ σ.minted, m.at_ ≤ σ.now ∧
    m.token.claims.expiresAt * 1000 ≤ m.at_ + config.streamTokenTtlSeconds * 1000
  served : ∀ r ∈ σ.served, ¬r.Strays → r.CoveredBy config σ.minted

theorem verify_spec {now : Int} {token : StreamToken} {claims : StreamTokenClaims}
    (h : verify hmac config now token = some claims) :
    signed hmac config token = true ∧ claims = token.claims ∧ now < token.claims.expiresAt * 1000 := by
  unfold verify at h
  split at h
  · next hvalid =>
    simp only [Bool.and_eq_true, decide_eq_true_eq] at hvalid
    exact ⟨hvalid.1.1, (Option.some.inj h).symm, hvalid.2⟩
  · cases h

theorem expiresAt_mint (secret : String) (now : Int) (cameraId userId : Nat) :
    (mint hmac config secret now cameraId userId).token.claims.expiresAt * 1000 ≤
      now + config.streamTokenTtlSeconds * 1000 := by
  show (now / 1000 + config.streamTokenTtlSeconds) * 1000 ≤ _
  omega

theorem State.Inv.mintAll (h : σ.Inv config) (secret : String) (userId : Nat) (cameras : List Camera) :
    (σ.mintAll hmac config secret userId cameras).Inv config where
  minted m hm := by
    rcases List.mem_append.1 hm with hm | hm
    · exact h.minted m hm
    · obtain ⟨camera, -, rfl⟩ := List.mem_map.1 hm
      exact ⟨Int.le_refl _, expiresAt_mint secret σ.now camera.id userId⟩
  served r hr hstays := (h.served r hr hstays).mono (List.subset_append_left _ _)

theorem State.Inv.listForChild {childId userId : Nat} (h : σ.Inv config)
    (hσ : State.listForChild hmac config σ childId userId = .ok σ') : σ'.Inv config := by
  unfold State.listForChild at hσ
  split at hσ
  · next secret _ _ _ =>
    cases hcameras : σ.world.listForChild σ.now childId userId with
    | error e =>
      rw [hcameras] at hσ
      cases hσ
    | ok cameras =>
      rw [hcameras] at hσ
      obtain rfl := Except.ok.inj hσ
      exact h.mintAll secret userId cameras
  · cases hσ

theorem State.Inv.streamAccess {cameraId userId : Nat} (h : σ.Inv config)
    (hσ : State.streamAccess hmac config σ cameraId userId = .ok σ') : σ'.Inv config := by
  unfold State.streamAccess at hσ
  split at hσ
  · split at hσ
    · cases hσ
    · next camera _ =>
      split at hσ
      · next secret _ =>
        obtain rfl := Except.ok.inj hσ
        split
        · exact h.mintAll secret userId [camera]
        · exact h
      · obtain rfl := Except.ok.inj hσ
        exact h
  · cases hσ

theorem master_spec {cameraId : Nat} {token : StreamToken} {answer : GatewayAnswer} {sessionId : String}
    (hσ : State.master hmac config σ cameraId token answer sessionId = .ok σ') :
    σ' = { σ with sessions := σ.sessions ++ [⟨sessionId, cameraId⟩] } := by
  unfold State.master at hσ
  split at hσ
  · cases hσ
  · split at hσ
    · cases hσ
    · split at hσ
      · split at hσ
        · cases hσ
        · cases hσ
        · cases hσ
        · exact (Except.ok.inj hσ).symm
      · cases hσ

theorem media_spec {sessionId : String} {token : StreamToken} {answer : GatewayAnswer}
    (hσ : State.media hmac config σ sessionId token answer = .ok σ') :
    ∃ cameraId, (signed hmac config token = true ∧ σ.now < token.claims.expiresAt * 1000) ∧
      σ' = { σ with served := σ.served ++
        [⟨σ.now, cameraId, token.claims, σ.world.mayWatch σ.now token.claims.userId cameraId⟩] } := by
  unfold State.media at hσ
  split at hσ
  · cases hσ
  · next claims hverify =>
    obtain ⟨hsigned, rfl, hlive⟩ := verify_spec hverify
    split at hσ
    · split at hσ
      · cases hσ
      · cases hσ
      · cases hσ
      · cases hσ
      · exact ⟨_, ⟨hsigned, hlive⟩, (Except.ok.inj hσ).symm⟩
    · cases hσ

/-- **One event.** -/
theorem State.Inv.step {e : Event} (h : σ.Inv config) (hgenuine : σ.genuine hmac config e = true)
    (hσ : σ.step hmac config e = some σ') : σ'.Inv config := by
  cases e with
  | pass ms =>
    obtain rfl := Option.some.inj hσ
    refine ⟨fun m hm => ⟨?_, (h.minted m hm).2⟩, h.served⟩
    have := (h.minted m hm).1
    show m.at_ ≤ σ.now + ms
    omega
  | change world =>
    obtain rfl := Option.some.inj hσ
    exact ⟨h.minted, h.served⟩
  | listForChild childId userId =>
    obtain rfl := Option.some.inj hσ
    cases hlist : State.listForChild hmac config σ childId userId with
    | error e => exact h
    | ok σ₁ => exact h.listForChild hlist
  | streamAccess cameraId userId =>
    obtain rfl := Option.some.inj hσ
    cases haccess : State.streamAccess hmac config σ cameraId userId with
    | error e => exact h
    | ok σ₁ => exact h.streamAccess haccess
  | master cameraId token answer sessionId =>
    simp only [State.step] at hσ
    split at hσ
    · cases hσ
    · obtain rfl := Option.some.inj hσ
      cases hmaster : State.master hmac config σ cameraId token answer sessionId with
      | error e => exact h
      | ok σ₁ =>
        obtain rfl := master_spec hmaster
        exact ⟨h.minted, h.served⟩
  | media sessionId token answer =>
    obtain rfl := Option.some.inj hσ
    cases hmedia : State.media hmac config σ sessionId token answer with
    | error e => exact h
    | ok σ₁ =>
      obtain ⟨cameraId, ⟨hsigned, hlive⟩, rfl⟩ := media_spec hmedia
      refine ⟨h.minted, fun r hr hstays => ?_⟩
      rcases List.mem_append.1 hr with hr | hr
      · exact h.served r hr hstays
      · obtain rfl := List.mem_singleton.1 hr
        -- the token is one that was minted, for the camera of the session
        have hminted : (!signed hmac config token || σ.minted.any fun m => m.token == token) = true := hgenuine
        rw [hsigned, Bool.not_true, Bool.false_or, List.any_eq_true] at hminted
        obtain ⟨m, hm, heq⟩ := hminted
        obtain rfl := beq_iff_eq.1 heq
        obtain ⟨hpast, hends⟩ := h.minted m hm
        have hcamera : m.token.claims.cameraId = cameraId := not_not.1 hstays
        refine ⟨m, hm, hcamera, rfl, hpast, ?_⟩
        show σ.now ≤ _
        omega

theorem State.Inv.run {events : List Event} (h : σ.Inv config) (hunforged : σ.unforged hmac config events = true)
    (hrun : σ.run hmac config events = some σ') : σ'.Inv config := by
  induction events generalizing σ with
  | nil =>
    obtain rfl := Option.some.inj hrun
    exact h
  | cons e events ih =>
    unfold State.unforged at hunforged
    rw [Bool.and_eq_true] at hunforged
    unfold State.run at hrun
    rw [Option.bind_eq_some_iff] at hrun
    obtain ⟨σ₁, hstep, hrest⟩ := hrun
    rw [hstep] at hunforged
    exact ih (h.step hunforged.1 hstep) hunforged.2 hrest

end

/-! ## Runs -/

/-- Nothing has been asked for yet. -/
def State.start (now : Int) (world : World) : State := ⟨now, world, [], [], []⟩

/-- **The revocation window.**  It is kept exactly when no user without the right to a camera carries its stream past
the window on a token for another one. -/
theorem revocation_window_iff {hmac : Hmac} {config : CctvConfig} {now : Int} {world : World} {events : List Event}
    {σ : State} (hunforged : (State.start now world).unforged hmac config events = true)
    (hrun : (State.start now world).run hmac config events = some σ) :
    σ.WithinWindow config ↔ ∀ r ∈ σ.served, r.allowed = false → r.Strays → r.CoveredBy config σ.minted := by
  have hstart : (State.start now world).Inv config :=
    ⟨fun _ hm => absurd hm List.not_mem_nil, fun _ hr => absurd hr List.not_mem_nil⟩
  have hinv := hstart.run hunforged hrun
  constructor
  · intro h r hr hlost _
    exact h r hr hlost
  · intro h r hr hlost
    by_cases hstrays : r.Strays
    · exact h r hr hlost hstrays
    · exact hinv.served r hr hstrays

/-! ## Two children in two rooms -/

/-- The mother of children 1 and 2; the groups 10 and 20 are in the rooms 100 and 200, a camera in each. -/
def twoRooms (mayWatchFirst : Bool) : World where
  guardians := [⟨1, 1, 7, .primary, .approved, true, none, none, none, none, true,
      [(.viewCctv, mayWatchFirst)], none, none⟩,
    ⟨2, 2, 7, .primary, .approved, true, none, none, none, none, true, [], none, none⟩]
  children := [⟨1, some 10⟩, ⟨2, some 20⟩]
  groups := [⟨10, some 100⟩, ⟨20, some 200⟩]
  events := []
  cameras := [⟨1, 100, "Ясли", "rtsp://a", none, some "cam01_sub", none, none, none, true, none⟩,
    ⟨2, 200, "Зал", "rtsp://b", none, some "cam02_sub", none, none, none, true, none⟩]
  staff := []

/-- Any keyed digest does here. -/
def keyed : Hmac := fun secret payload => secret ++ payload

def oneHour : CctvConfig := ⟨some "s", 3600, some "https://stream"⟩

def tokenOf (cameraId : Nat) (now : Int) : StreamToken := (mint keyed oneHour "s" now cameraId 7).token

/-- The permission for the first child is withdrawn while her stream is open. -/
def keptAlive : List Event :=
  [.listForChild 1 7, .master 1 (tokenOf 1 0) .playlist "x1", .media "x1" (tokenOf 1 0) .playlist,
    .change (twoRooms false), .pass 3000000, .listForChild 2 7, .media "x1" (tokenOf 2 3000000) .playlist,
    .pass 3000000, .media "x1" (tokenOf 2 3000000) .playlist]

/-- An hour and forty minutes after the only token for the first room, its playlist still goes out. -/
theorem keptAlive_pastWindow : (State.start 0 (twoRooms true)).unforged keyed oneHour keptAlive = true ∧
    ((State.start 0 (twoRooms true)).run keyed oneHour keptAlive).any
      (fun σ => decide (¬σ.WithinWindow oneHour)) = true := by
  decide +kernel

/-- With a token of its own camera the stream ends with it. -/
def ownToken : List Event :=
  [.listForChild 1 7, .master 1 (tokenOf 1 0) .playlist "x1", .change (twoRooms false), .pass 3599000,
    .media "x1" (tokenOf 1 0) .playlist, .pass 1000, .media "x1" (tokenOf 1 0) .playlist]

theorem revocation_window_ownToken : ∃ σ, (State.start 0 (twoRooms true)).run keyed oneHour ownToken = some σ ∧
    σ.served.map Served.allowed = [false] ∧ σ.WithinWindow oneHour := by
  have hrun : ((State.start 0 (twoRooms true)).run keyed oneHour ownToken).any
      (fun σ => decide (σ.served.map Served.allowed = [false] ∧ ∀ r ∈ σ.served, ¬r.Strays)) = true := by
    decide +kernel
  obtain ⟨σ, hσ, h⟩ := (Option.any_eq_true _ _).1 hrun
  obtain ⟨hserved, hown⟩ := of_decide_eq_true h
  exact ⟨σ, hσ, hserved, (revocation_window_iff (by decide +kernel) hσ).2
    fun r hr _ hstrays => absurd hstrays (hown r hr)⟩

end Cameras
