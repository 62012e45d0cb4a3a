import Shyraq.Auth.AuthService

/-!
# One app, its roles

A login is for one app; what the client is issued after it, by a selection and by any number of
refreshes, with the user's roles changing meanwhile.  The app bounds the roles of a login and of a
refresh.  A selection looks at the user's roles in all kindergartens.
-/

namespace Auth

open AuthService

/-- What a client has been issued since its login. -/
structure Client where
  userId : Nat
  issued : List AccessToken
  session : Option Session
  deriving DecidableEq

/-- A call of the client, with the roles of its user at that moment. -/
inductive Call
  | selectRole (u : UserRoles) (found : Bool) (kindergartenId : Nat) (role : Option String)
  | refresh (u : UserRoles) (found : Bool)

namespace Client

def holds (c : Client) (r : AuthResult) : Client :=
  { c with issued := c.issued ++ [r.accessToken], session := r.session }

/-- A refresh that fails has used up the refresh token. -/
def step (c : Client) : Call → Client
  | .selectRole u found kindergartenId role =>
      match selectRole u found ⟨c.userId, kindergartenId, role, c.issued.any AccessToken.pendingRoleSelect⟩ with
      | .ok r => c.holds r
      | .error _ => c
  | .refresh u found =>
      match c.session with
      | none => c
      | some row =>
        match refreshToken u found row with
        | .ok r => c.holds r
        | .error _ => { c with session := none }

def run (c : Client) (calls : List Call) : Client := calls.foldl step c

end Client

def login (userId : Nat) (u : UserRoles) (app : AuthApp) (requestedKindergartenId : Option Nat) :
    Except AuthError Client :=
  match issueTokensForUser userId u app requestedKindergartenId with
  | .ok r => .ok ⟨userId, [r.accessToken], r.session⟩
  | .error e => .error e

/-- A selection, if it is one, finds a role of this app. -/
def Call.SelectsFrom (app : AuthApp) : Call → Prop
  | .selectRole u _ kindergartenId role =>
      ∀ r ∈ selectedRole u kindergartenId role, r.role ∈ appAllowedRoles app
  | .refresh .. => True

instance (app : AuthApp) : ∀ c : Call, Decidable (c.SelectsFrom app)
  | .selectRole u _ kindergartenId role =>
      inferInstanceAs (Decidable (∀ r ∈ selectedRole u kindergartenId role, r.role ∈ appAllowedRoles app))
  | .refresh .. => inferInstanceAs (Decidable True)

/-! ## The roles of an app -/

section

variable {app : AuthApp} {roles : List RoleView} {r : RoleView}

theorem allowed_of_filter (h : r ∈ filterRolesForApp roles app) : r.role ∈ appAllowedRoles app := by
  unfold filterRolesForApp at h
  dsimp only at h
  split at h
  · next hc =>
    obtain rfl := List.mem_singleton.1 h
    rw [hc.2]
    exact List.mem_singleton.2 rfl
  · simpa using (List.mem_filter.1 h).2

/-- The role a login commits to is one of the roles, or that of a parent. -/
theorem allowed_of_choose {kg : Option Nat} (hroles : ∀ r ∈ roles, r.role ∈ appAllowedRoles app)
    (h : chooseRole roles app kg = some r) : r.role ∈ appAllowedRoles app := by
  unfold chooseRole at h
  dsimp only at h
  rw [Option.or_eq_some_iff] at h
  rcases h with h | ⟨-, h⟩
  · split at h
    · next happ =>
      split at h
      · obtain rfl := Option.some.inj h
        rw [happ]
        exact List.mem_singleton.2 rfl
      · exact hroles r (List.mem_of_mem_head? h)
    · obtain ⟨k, -, hk⟩ := Option.bind_eq_some_iff.1 h
      exact hroles r (List.mem_of_find?_eq_some hk)
  · split at h
    · exact hroles r (List.mem_of_mem_head? h)
    · cases h

theorem pickRoleForRotation_mem {kg : Option Nat} (h : pickRoleForRotation roles kg = some r) : r ∈ roles := by
  cases kg with
  | none =>
    rcases Option.or_eq_some_iff.1 h with h | ⟨-, h⟩ <;> exact List.mem_of_find?_eq_some h
  | some k =>
    rcases Option.or_eq_some_iff.1 h with h | ⟨-, h⟩
    · exact (List.mem_filter.1 (List.mem_of_find?_eq_some h)).1
    · exact (List.mem_filter.1 (List.mem_of_mem_head? h)).1

theorem selectedAudience_of_allowed {role : Role} (h : role ∈ appAllowedRoles app) : selectedAudience role = app := by
  cases app <;> simp [appAllowedRoles] at h
  · rw [h]
    rfl
  · rcases h with rfl | rfl | rfl <;> rfl
  · rw [h]
    rfl

end

/-! ## Call by call -/

/-- The token that asks for a selection. -/
def pendingToken (userId : Nat) (app : AuthApp) : AccessToken := ⟨userId, .staffMultiRole, none, true, some app⟩

/-- Every token has a role of the app, the pending one apart; the session keeps the audience. -/
structure Within (app : AuthApp) (c : Client) : Prop where
  issued : ∀ t ∈ c.issued, t = pendingToken c.userId app ∨ t.role ∈ appAllowedRoles app
  session : ∀ row ∈ c.session, row.audience = some app

section

variable {app : AuthApp} {u : UserRoles} {c : Client} {r : AuthResult} {userId : Nat} {kg : Option Nat}

theorem within_login (h : login userId u app kg = .ok c) : Within app c := by
  unfold login issueTokensForUser at h
  dsimp only at h
  by_cases hroles : filterRolesForApp (assembleRoles u).1 app = []
  · rw [if_pos hroles] at h
    cases h
  · rw [if_neg hroles] at h
    cases hchosen : chooseRole (filterRolesForApp (assembleRoles u).1 app) app kg with
    | none =>
      rw [hchosen] at h
      cases h
      exact ⟨fun t ht => .inl (List.mem_singleton.1 ht), fun _ hrow => absurd hrow (Option.not_mem_none _)⟩
    | some chosen =>
      rw [hchosen] at h
      cases h
      refine ⟨fun t ht => ?_, fun row hrow => ?_⟩
      · rw [List.mem_singleton.1 ht]
        exact .inr (allowed_of_choose (fun _ hr => allowed_of_filter hr) hchosen)
      · obtain rfl := Option.mem_some_iff.1 hrow
        rfl

theorem selectRole_within {found : Bool} {input : SelectRoleInput}
    (hsel : ∀ r ∈ selectedRole u input.kindergartenId input.role, r.role ∈ appAllowedRoles app)
    (h : selectRole u found input = .ok r) :
    r.accessToken.role ∈ appAllowedRoles app ∧ ∀ row ∈ r.session, row.audience = some app := by
  unfold selectRole at h
  split at h
  · cases h
  · cases hselected : selectedRole u input.kindergartenId input.role with
    | none =>
      rw [hselected] at h
      cases h
    | some selected =>
      rw [hselected] at h hsel
      have hrole := hsel selected rfl
      dsimp only at h
      split at h
      · cases h
      · cases h
        refine ⟨hrole, fun row hrow => ?_⟩
        obtain rfl := Option.mem_some_iff.1 hrow
        exact congrArg some (selectedAudience_of_allowed hrole)

theorem refreshToken_within {found : Bool} {row : Session} (hrow : row.audience = some app)
    (h : refreshToken u found row = .ok r) : r.accessToken.role ∈ appAllowedRoles app ∧ r.session = some row := by
  unfold refreshToken at h
  dsimp only at h
  split at h
  · cases h
  · split at h
    · cases h
    · cases hpick : pickRoleForRotation (rolesForAudience (assembleRoles u).1 row.audience) row.kindergartenId with
      | none =>
        rw [hpick] at h
        cases h
      | some matched =>
        rw [hpick] at h
        cases h
        have hmem := pickRoleForRotation_mem hpick
        rw [hrow] at hmem
        exact ⟨allowed_of_filter hmem, rfl⟩

theorem Within.holds (hc : Within app c) (hrole : r.accessToken.role ∈ appAllowedRoles app)
    (hrow : ∀ row ∈ r.session, row.audience = some app) : Within app (c.holds r) := by
  refine ⟨fun t ht => ?_, hrow⟩
  rcases List.mem_append.1 ht with ht | ht
  · exact hc.issued t ht
  · rw [List.mem_singleton.1 ht]
    exact .inr hrole

theorem Within.step (hc : Within app c) {call : Call} (hcall : call.SelectsFrom app) : Within app (c.step call) := by
  cases call with
  | selectRole u found k role =>
    unfold Client.step
    dsimp only
    cases hr : selectRole u found ⟨c.userId, k, role, c.issued.any AccessToken.pendingRoleSelect⟩ with
    | error e => exact hc
    | ok r =>
      have hsel : ∀ r ∈ selectedRole u k role, r.role ∈ appAllowedRoles app := hcall
      obtain ⟨hrole, hrow⟩ := selectRole_within hsel hr
      exact hc.holds hrole hrow
  | refresh u found =>
    unfold Client.step
    dsimp only
    cases hsession : c.session with
    | none => exact hc
    | some row =>
      cases hr : refreshToken u found row with
      | error e =>
        dsimp only
        rw [hr]
        exact ⟨hc.issued, fun _ hrow => absurd hrow (Option.not_mem_none _)⟩
      | ok r =>
        dsimp only
        rw [hr]
        obtain ⟨hrole, hkept⟩ := refreshToken_within (hc.session row hsession) hr
        refine hc.holds hrole fun row' hrow' => ?_
        rw [hkept] at hrow'
        exact hc.session row' (hsession ▸ hrow')

theorem userId_step (c : Client) (call : Call) : (c.step call).userId = c.userId := by
  cases call with
  | selectRole u found k role =>
    unfold Client.step
    dsimp only
    split <;> rfl
  | refresh u found =>
    unfold Client.step
    dsimp only
    split
    · rfl
    · split <;> rfl

theorem Within.run (hc : Within app c) {calls : List Call} (hcalls : ∀ call ∈ calls, call.SelectsFrom app) :
    Within app (c.run calls) := by
  induction calls generalizing c with
  | nil => exact hc
  | cons call calls ih =>
    exact ih (hc.step (hcalls call List.mem_cons_self)) fun d hd => hcalls d (List.mem_cons_of_mem _ hd)

theorem userId_run (c : Client) (calls : List Call) : (c.run calls).userId = c.userId := by
  induction calls generalizing c with
  | nil => rfl
  | cons call calls ih => exact (ih (c.step call)).trans (userId_step c call)

theorem userId_login (h : login userId u app kg = .ok c) : c.userId = userId := by
  unfold login at h
  split at h
  · cases h
    rfl
  · cases h

end

/-- **No app issues another app's role.**  After a login for an app, whatever becomes of the user's
roles, every token has a role of that app; the one that asks for a selection has none. -/
theorem roles_within_app {userId : Nat} {u : UserRoles} {app : AuthApp} {kg : Option Nat} {c : Client}
    (hlogin : login userId u app kg = .ok c) {calls : List Call}
    (hcalls : ∀ call ∈ calls, call.SelectsFrom app) :
    ∀ t ∈ (c.run calls).issued, t = pendingToken userId app ∨ t.role ∈ appAllowedRoles app := by
  have hwithin := (within_login hlogin).run hcalls
  have huser : (c.run calls).userId = userId := (userId_run c calls).trans (userId_login hlogin)
  exact huser ▸ hwithin.issued

/-! ## A mentor in two kindergartens -/

def mentorInTwo : UserRoles where
  staffEntries := [⟨1, .mentor, none⟩, ⟨2, .mentor, none⟩]
  guardianKindergartenIds := []
  mentorAssignments := []
  onePerKindergarten := by decide
  distinct := by decide

theorem mentorInTwo_pending : ∃ c, login 7 mentorInTwo .staff none = .ok c ∧
    ¬ ∀ t ∈ (c.run []).issued, t.role ∈ appAllowedRoles .staff :=
  ⟨⟨7, [pendingToken 7 .staff], none⟩, by decide, by decide⟩

/-- The second kindergarten is selected, then the session is refreshed. -/
theorem roles_within_app_mentorInTwo : ∃ c, login 7 mentorInTwo .staff none = .ok c ∧
    (c.run [.selectRole mentorInTwo true 2 none, .refresh mentorInTwo true]).issued.length = 3 ∧
    ∀ t ∈ (c.run [.selectRole mentorInTwo true 2 none, .refresh mentorInTwo true]).issued,
      t = pendingToken 7 .staff ∨ t.role ∈ appAllowedRoles .staff := by
  have hlogin : login 7 mentorInTwo .staff none = .ok ⟨7, [pendingToken 7 .staff], none⟩ := by decide
  exact ⟨_, hlogin, by decide, roles_within_app hlogin (by decide)⟩

end Auth
