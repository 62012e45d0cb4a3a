import Shyraq.Auth.Apps

/-!
# Refreshing a session

As long as the roles of the user stay as they are, a refresh gives the token of the session again.
Two kinds of sessions are different: that of a parent in several kindergartens, bound to none of
them, and that of a parent in a kindergarten where the user is staff too.
-/

namespace Auth

open AuthService

/-- Where a session comes from. -/
inductive Origin
  | verifyOtp (app : AuthApp) (requestedKindergartenId : Option Nat)
  | selectRole (kindergartenId : Nat) (role : Option String)

def Origin.result (userId : Nat) (u : UserRoles) : Origin → Except AuthError AuthResult
  | verifyOtp app requestedKindergartenId => issueTokensForUser userId u app requestedKindergartenId
  | selectRole kindergartenId role => AuthService.selectRole u true ⟨userId, kindergartenId, role, true⟩

/-- The holder of a session and of its first token. -/
def holder (userId : Nat) (t : AccessToken) (row : Session) : Client := ⟨userId, [t], some row⟩

/-- Every refresh gives the token again. -/
def Preserves (userId : Nat) (u : UserRoles) (t : AccessToken) (row : Session) : Prop :=
  ∀ n, ((holder userId t row).run (List.replicate n (.refresh u true))).issued = List.replicate (n + 1) t

/-- A parent of one kindergarten at most; a parent where the user is not staff. -/
def Origin.Stable (u : UserRoles) : Origin → Prop
  | verifyOtp app _ => app = .parent → (parentKindergartens u).length ≤ 1
  | selectRole kindergartenId role =>
      ¬ (role = some "parent" ∧ kindergartenId ∈ u.staffEntries.map StaffMember.kindergartenId)

instance (u : UserRoles) : ∀ o : Origin, Decidable (o.Stable u)
  | .verifyOtp app _ => inferInstanceAs (Decidable (app = .parent → (parentKindergartens u).length ≤ 1))
  | .selectRole kindergartenId role => inferInstanceAs (Decidable
      (¬ (role = some "parent" ∧ kindergartenId ∈ u.staffEntries.map StaffMember.kindergartenId)))

/-! ## One refresh -/

section

variable {u : UserRoles} {userId : Nat} {app : AuthApp} {kg : Option Nat} {role : Role} {t : AccessToken}
  {row : Session}

theorem pickRoleForRotation_nil (kg : Option Nat) : pickRoleForRotation [] kg = none := by
  cases kg <;> rfl

theorem refreshToken_eq (u : UserRoles) (row : Session) : refreshToken u true row =
    match pickRoleForRotation (rolesForAudience (assembleRoles u).1 row.audience) row.kindergartenId with
    | none => .error .noActiveRoles
    | some matched => .ok
        { accessToken := ⟨row.userId, matched.role, matched.kindergartenId, false, row.audience⟩
          session := some row
          roles := rolesForAudience (assembleRoles u).1 row.audience
          kindergartens := kindergartensFromRoles (rolesForAudience (assembleRoles u).1 row.audience) } := by
  unfold refreshToken
  rw [if_neg (by simp)]
  dsimp only
  split
  · next h =>
    rw [h, pickRoleForRotation_nil]
  · rfl

theorem refreshToken_iff : (∃ r, refreshToken u true ⟨userId, kg, some app⟩ = .ok r ∧
      r.accessToken = ⟨userId, role, kg, false, some app⟩) ↔
    ∃ m, pickRoleForRotation (filterRolesForApp (assembleRoles u).1 app) kg = some m ∧
      m.role = role ∧ m.kindergartenId = kg := by
  rw [refreshToken_eq]
  simp only [rolesForAudience]
  cases pickRoleForRotation (filterRolesForApp (assembleRoles u).1 app) kg with
  | none => simp
  | some matched => simp

theorem refreshToken_session {found : Bool} {r : AuthResult} (h : refreshToken u found row = .ok r) :
    r.session = some row := by
  unfold refreshToken at h
  dsimp only at h
  split at h
  · cases h
  · split at h
    · cases h
    · cases hpick : pickRoleForRotation (rolesForAudience (assembleRoles u).1 row.audience) row.kindergartenId with
      | none =>
        rw [hpick] at h
        cases h
      | some matched =>
        rw [hpick] at h
        cases h
        rfl

theorem preserves_iff : Preserves userId u t row ↔
    ∃ r, refreshToken u true row = .ok r ∧ r.accessToken = t := by
  constructor
  · intro h
    have hone := h 1
    unfold holder Client.run Client.step at hone
    simp only [List.replicate, List.foldl_cons, List.foldl_nil] at hone
    cases hr : refreshToken u true row with
    | error e =>
      rw [hr] at hone
      simp at hone
    | ok r =>
      rw [hr] at hone
      exact ⟨r, rfl, by simpa [Client.holds] using hone⟩
  · rintro ⟨r, hr, rfl⟩
    have hrow := refreshToken_session hr
    -- after any number of refreshes the session is the same
    have hrun : ∀ n (c : Client), c.session = some row →
        (c.run (List.replicate n (.refresh u true))).issued = c.issued ++ List.replicate n r.accessToken := by
      intro n
      induction n with
      | zero => exact fun c _ => (List.append_nil _).symm
      | succ n ih =>
        intro c hc
        have hstep : c.step (.refresh u true) = c.holds r := by
          unfold Client.step
          dsimp only
          rw [hc]
          dsimp only
          rw [hr]
        rw [List.replicate_succ, Client.run, List.foldl_cons, hstep]
        refine (ih (c.holds r) hrow).trans ?_
        rw [Client.holds, List.append_assoc]
        rfl
    intro n
    exact (hrun n _ rfl).trans rfl

end

/-! ## The roles of a refresh -/

section

variable {u : UserRoles} {app : AuthApp} {r : RoleView} {k : Nat}

theorem assembleRoles_filter (u : UserRoles) (p : RoleView → Bool) (hp : p (parentRole none) = false) :
    (assembleRoles u).1.filter p =
      (staffRoles u ++ (parentKindergartens u).map fun kgId => parentRole (some kgId)).filter p := by
  unfold assembleRoles
  dsimp only
  split
  · next h => simp [h, hp]
  · rfl

/-- In the parent app: the kindergartens where the user is a parent only. -/
theorem parentApp_roles (u : UserRoles) : filterRolesForApp (assembleRoles u).1 .parent =
    if parentKindergartens u = [] then [parentRole none]
    else (parentKindergartens u).map fun kgId => parentRole (some kgId) := by
  have hstaff : (staffRoles u).filter (fun r => (appAllowedRoles .parent).contains r.role) = [] := by
    rw [List.filter_eq_nil_iff]
    intro r hr
    obtain ⟨s, -, rfl⟩ := List.mem_map.1 hr
    simp [appAllowedRoles]
  have hparents : ((parentKindergartens u).map fun kgId => parentRole (some kgId)).filter
      (fun r => (appAllowedRoles .parent).contains r.role) =
      (parentKindergartens u).map fun kgId => parentRole (some kgId) := by
    rw [List.filter_eq_self]
    intro r hr
    obtain ⟨k, -, rfl⟩ := List.mem_map.1 hr
    rfl
  unfold filterRolesForApp assembleRoles
  dsimp only
  by_cases hnone : parentKindergartens u = []
  · rw [if_pos hnone]
    split
    · rfl
    · rw [List.filter_append, hstaff, hparents, hnone]
      rfl
  · have hsome : (parentKindergartens u).map (fun kgId => parentRole (some kgId)) ≠ [] := by simpa using hnone
    rw [if_neg hnone, if_neg fun h => hsome (List.append_eq_nil_iff.1 h).2]
    rw [List.filter_append, hstaff, hparents, List.nil_append, if_neg fun h => hsome h.1]

theorem staffApp_roles (u : UserRoles) (happ : app ≠ .parent) : filterRolesForApp (assembleRoles u).1 app =
    (staffRoles u).filter fun r => (appAllowedRoles app).contains r.role := by
  have hparent : ∀ kg, (appAllowedRoles app).contains (parentRole kg).role = false := by
    intro kg
    cases app <;> first | exact absurd rfl happ | rfl
  unfold filterRolesForApp
  dsimp only
  rw [if_neg fun h => happ h.2, assembleRoles_filter u _ (hparent none), List.filter_append]
  have hnone : ((parentKindergartens u).map fun kgId => parentRole (some kgId)).filter
      (fun r => (appAllowedRoles app).contains r.role) = [] := by
    rw [List.filter_eq_nil_iff]
    intro r hr
    obtain ⟨k, -, rfl⟩ := List.mem_map.1 hr
    simpa using hparent (some k)
  rw [hnone, List.append_nil]

theorem staffRoles_unique {r' : RoleView} (hr : r ∈ staffRoles u) (hr' : r' ∈ staffRoles u)
    (h : r.kindergartenId = r'.kindergartenId) : r = r' := by
  obtain ⟨s, hs, rfl⟩ := List.mem_map.1 hr
  obtain ⟨s', hs', rfl⟩ := List.mem_map.1 hr'
  rw [List.inj_on_of_nodup_map u.onePerKindergarten hs hs' (Option.some.inj h)]

theorem pick_of_unique {roles : List RoleView} (hr : r ∈ roles) (hk : r.kindergartenId = some k)
    (hall : ∀ m ∈ roles, m.kindergartenId = some k → m = r) :
    pickRoleForRotation roles (some k) = some r := by
  have hmatch : ∀ m ∈ roles.filter fun m => m.kindergartenId == some k, m = r := by
    intro m hm
    obtain ⟨hm, hmk⟩ := List.mem_filter.1 hm
    exact hall m hm (by simpa using hmk)
  have hmem : r ∈ roles.filter fun m => m.kindergartenId == some k := List.mem_filter.2 ⟨hr, by simpa using hk⟩
  unfold pickRoleForRotation
  dsimp only
  cases hfind : (roles.filter fun m => m.kindergartenId == some k).find? fun m => m.role != .parent with
  | some m =>
    rw [hmatch m (List.mem_of_find?_eq_some hfind)]
    rfl
  | none =>
    cases hlist : roles.filter fun m => m.kindergartenId == some k with
    | nil =>
      rw [hlist] at hmem
      cases hmem
    | cons m l =>
      rw [hmatch m (hlist ▸ List.mem_cons_self)]
      rfl

theorem pick_staff (happ : app ≠ .parent) (hr : r ∈ staffRoles u) (hrole : r.role ∈ appAllowedRoles app)
    (hk : r.kindergartenId = some k) :
    pickRoleForRotation (filterRolesForApp (assembleRoles u).1 app) (some k) = some r := by
  rw [staffApp_roles u happ]
  refine pick_of_unique (List.mem_filter.2 ⟨hr, by simpa using hrole⟩) hk fun m hm hmk => ?_
  exact staffRoles_unique (List.mem_filter.1 hm).1 hr (hmk.trans hk.symm)

theorem pick_parent (hk : k ∈ parentKindergartens u) :
    pickRoleForRotation (filterRolesForApp (assembleRoles u).1 .parent) (some k) = some (parentRole (some k)) := by
  rw [parentApp_roles, if_neg (List.ne_nil_of_mem hk)]
  refine pick_of_unique (List.mem_map.2 ⟨k, hk, rfl⟩) rfl fun m hm hmk => ?_
  obtain ⟨k', -, rfl⟩ := List.mem_map.1 hm
  rw [show some k' = some k from hmk]

theorem pick_parent_none (hk : k ∉ parentKindergartens u) :
    pickRoleForRotation (filterRolesForApp (assembleRoles u).1 .parent) (some k) = none := by
  have hnone : (filterRolesForApp (assembleRoles u).1 .parent).filter (fun r => r.kindergartenId == some k) = [] := by
    rw [List.filter_eq_nil_iff, parentApp_roles]
    intro r hr
    split at hr
    · rw [List.mem_singleton.1 hr]
      simp [parentRole]
    · obtain ⟨k', hk', rfl⟩ := List.mem_map.1 hr
      intro h
      have h : (some k' : Option Nat) = some k := by simpa [parentRole] using h
      exact hk (Option.some.inj h ▸ hk')
  unfold pickRoleForRotation
  dsimp only
  rw [hnone]
  rfl

end

/-! ## Every session -/

section

variable {u : UserRoles} {userId : Nat} {app : AuthApp} {r : AuthResult} {row : Session}

/-- The session of a committed role. -/
def committed (userId : Nat) (app : AuthApp) (chosen : RoleView) : AccessToken × Session :=
  (⟨userId, chosen.role, chosen.kindergartenId, false, some app⟩, ⟨userId, chosen.kindergartenId, some app⟩)

theorem issued_session {kg : Option Nat} (h : issueTokensForUser userId u app kg = .ok r)
    (hrow : r.session = some row) :
    ∃ chosen, chooseRole (filterRolesForApp (assembleRoles u).1 app) app kg = some chosen ∧
      (r.accessToken, row) = committed userId app chosen := by
  unfold issueTokensForUser at h
  dsimp only at h
  split at h
  · cases h
  · cases hchosen : chooseRole (filterRolesForApp (assembleRoles u).1 app) app kg with
    | none =>
      rw [hchosen] at h
      cases h
      cases hrow
    | some chosen =>
      rw [hchosen] at h
      cases h
      cases hrow
      exact ⟨chosen, rfl, rfl⟩

theorem selected_session {k : Nat} {role : Option String}
    (h : selectRole u true ⟨userId, k, role, true⟩ = .ok r) (hrow : r.session = some row) :
    ∃ selected, selectedRole u k role = some selected ∧
      (r.accessToken, row) = committed userId (selectedAudience selected.role) selected := by
  unfold selectRole at h
  dsimp only at h
  rw [if_neg (by simp)] at h
  cases hselected : selectedRole u k role with
  | none =>
    rw [hselected] at h
    cases h
  | some selected =>
    rw [hselected] at h
    dsimp only at h
    rw [if_neg (by simp)] at h
    cases h
    cases hrow
    exact ⟨selected, rfl, rfl⟩

theorem preserves_committed {t : AccessToken} {chosen : RoleView}
    (h : (t, row) = committed userId app chosen) : Preserves userId u t row ↔
      ∃ m, pickRoleForRotation (filterRolesForApp (assembleRoles u).1 app) chosen.kindergartenId = some m ∧
        m.role = chosen.role ∧ m.kindergartenId = chosen.kindergartenId := by
  cases h
  exact preserves_iff.trans refreshToken_iff

theorem parent_login (kg : Option Nat) : chooseRole (filterRolesForApp (assembleRoles u).1 .parent) .parent kg =
    match parentKindergartens u with
    | [] => some (parentRole none)
    | [k] => some (parentRole (some k))
    | _ :: _ :: _ => some (parentRole none) := by
  have hnodup : (parentKindergartens u).Nodup := u.distinct.filter _
  rw [parentApp_roles]
  unfold chooseRole
  dsimp only
  rw [if_pos rfl]
  match hkgs : parentKindergartens u with
  | [] => rfl
  | [k] => rfl
  | k :: k' :: rest =>
    have hmap : (((k :: k' :: rest).map fun kgId => parentRole (some kgId)).filterMap
        RoleView.kindergartenId) = k :: k' :: rest := by
      rw [List.filterMap_map]
      exact List.filterMap_some
    rw [if_neg (List.cons_ne_nil _ _), hmap, List.dedup_eq_self.2 (hkgs ▸ hnodup), if_pos (by simp)]
    rfl

/-- With several kindergartens a refresh binds the session to the first. -/
theorem parent_login_stable {kg : Option Nat} {chosen : RoleView}
    (h : chooseRole (filterRolesForApp (assembleRoles u).1 .parent) .parent kg = some chosen) :
    (∃ m, pickRoleForRotation (filterRolesForApp (assembleRoles u).1 .parent) chosen.kindergartenId = some m ∧
        m.role = chosen.role ∧ m.kindergartenId = chosen.kindergartenId) ↔
      (parentKindergartens u).length ≤ 1 := by
  rw [parent_login] at h
  match hkgs : parentKindergartens u with
  | [] =>
    rw [hkgs] at h
    obtain rfl := Option.some.inj h
    refine iff_of_true ⟨parentRole none, ?_, rfl, rfl⟩ (by simp)
    rw [parentApp_roles, if_pos hkgs]
    rfl
  | [k] =>
    rw [hkgs] at h
    obtain rfl := Option.some.inj h
    refine iff_of_true ⟨parentRole (some k), pick_parent ?_, rfl, rfl⟩ (by simp)
    rw [hkgs]
    exact List.mem_singleton.2 rfl
  | k :: k' :: rest =>
    rw [hkgs] at h
    obtain rfl := Option.some.inj h
    refine iff_of_false ?_ (by simp)
    rintro ⟨m, hm, -, hkg⟩
    have hmem := pickRoleForRotation_mem hm
    rw [parentApp_roles, hkgs, if_neg (List.cons_ne_nil _ _)] at hmem
    obtain ⟨j, -, rfl⟩ := List.mem_map.1 hmem
    cases hkg

theorem staff_login {kg : Option Nat} {chosen : RoleView} (happ : app ≠ .parent)
    (h : chooseRole (filterRolesForApp (assembleRoles u).1 app) app kg = some chosen) :
    ∃ m, pickRoleForRotation (filterRolesForApp (assembleRoles u).1 app) chosen.kindergartenId = some m ∧
      m.role = chosen.role ∧ m.kindergartenId = chosen.kindergartenId := by
  have hmem : chosen ∈ filterRolesForApp (assembleRoles u).1 app := by
    unfold chooseRole at h
    dsimp only at h
    rw [if_neg happ] at h
    rcases Option.or_eq_some_iff.1 h with h | ⟨-, h⟩
    · obtain ⟨k, -, hk⟩ := Option.bind_eq_some_iff.1 h
      exact List.mem_of_find?_eq_some hk
    · split at h
      · exact List.mem_of_mem_head? h
      · cases h
  have hrole := allowed_of_filter hmem
  rw [staffApp_roles u happ] at hmem
  have hstaff := (List.mem_filter.1 hmem).1
  obtain ⟨s, -, hs⟩ := List.mem_map.1 hstaff
  have hk : chosen.kindergartenId = some s.kindergartenId := by rw [← hs]
  rw [hk]
  exact ⟨chosen, pick_staff happ hstaff hrole hk, rfl, hk⟩

theorem name_ne_parent (role : StaffRole) : role.name ≠ "parent" := by
  cases role <;> decide

theorem allowed_audienceForRole (role : StaffRole) :
    audienceForRole role ≠ .parent ∧ Role.ofStaff role ∈ appAllowedRoles (audienceForRole role) := by
  cases role <;> decide

/-- A selected staff row is refreshed as itself, a selected parent only where there is none. -/
theorem selection_stable {k : Nat} {role : Option String} {selected : RoleView}
    (h : selectedRole u k role = some selected) :
    (∃ m, pickRoleForRotation (filterRolesForApp (assembleRoles u).1 (selectedAudience selected.role))
        selected.kindergartenId = some m ∧ m.role = selected.role ∧ m.kindergartenId = selected.kindergartenId) ↔
      (Origin.selectRole k role).Stable u := by
  unfold selectedRole at h
  split at h
  · next s hs =>
    obtain rfl := Option.some.inj h
    have hmem := List.mem_of_find?_eq_some hs
    have hfound : s.kindergartenId = k ∧ (role.all fun r => s.role.name == r) = true := by
      simpa using List.find?_some hs
    obtain ⟨happ, hrole⟩ := allowed_audienceForRole s.role
    refine iff_of_true ?_ ?_
    · have hview := List.mem_map_of_mem (f := fun s : StaffMember =>
        ({ role := .ofStaff s.role
           kindergartenId := some s.kindergartenId
           groupId := if s.role = .mentor then primaryGroupByKg u.mentorAssignments s.kindergartenId else none
           specialistType := s.specialistType } : RoleView)) hmem
      exact ⟨_, pick_staff happ hview hrole rfl, rfl, rfl⟩
    · rintro ⟨rfl, -⟩
      exact name_ne_parent s.role (by simpa using hfound.2)
  · next hnone =>
    split at h
    · next hc =>
      obtain rfl := Option.some.inj h
      simp only [Bool.and_eq_true] at hc
      obtain ⟨hrole, hguardian⟩ := hc
      have hguardian : k ∈ u.guardianKindergartenIds := by simpa using hguardian
      by_cases hstaff : k ∈ u.staffEntries.map StaffMember.kindergartenId
      · have hnot : k ∉ parentKindergartens u := fun hk => by
          have hk := (List.mem_filter.1 hk).2
          simp [hstaff] at hk
        refine iff_of_false ?_ fun hstable => hstable ⟨?_, hstaff⟩
        · rintro ⟨m, hm, -⟩
          have hm : pickRoleForRotation (filterRolesForApp (assembleRoles u).1 .parent) (some k) = some m := hm
          rw [pick_parent_none hnot] at hm
          cases hm
        · -- without a role the staff row would have been found
          cases role with
          | none =>
            obtain ⟨s, hs, hsk⟩ := List.mem_map.1 hstaff
            have hmiss := List.find?_eq_none.1 hnone s hs
            simp [hsk] at hmiss
          | some name => simpa using hrole
      · have hk : k ∈ parentKindergartens u := List.mem_filter.2 ⟨hguardian, by simpa using hstaff⟩
        exact iff_of_true ⟨_, pick_parent hk, rfl, rfl⟩ fun h => hstaff h.2
    · cases h

/-- **A refresh preserves the session** exactly when it is not that of a parent in several
kindergartens or of a parent where the user is staff. -/
theorem refresh_preserves_iff {origin : Origin} (h : origin.result userId u = .ok r)
    (hrow : r.session = some row) : Preserves userId u r.accessToken row ↔ origin.Stable u := by
  cases origin with
  | verifyOtp app kg =>
    obtain ⟨chosen, hchosen, hpair⟩ := issued_session h hrow
    rw [preserves_committed hpair]
    by_cases happ : app = .parent
    · subst happ
      rw [parent_login_stable hchosen]
      exact ⟨fun hlen _ => hlen, fun hstable => hstable rfl⟩
    · exact iff_of_true (staff_login happ hchosen) fun hparent => absurd hparent happ
  | selectRole k role =>
    obtain ⟨selected, hselected, hpair⟩ := selected_session h hrow
    rw [preserves_committed hpair]
    exact selection_stable hselected

end

/-! ## A parent of two kindergartens, a parent of one -/

def parentInTwo : UserRoles where
  staffEntries := []
  guardianKindergartenIds := [1, 2]
  mentorAssignments := []
  onePerKindergarten := by decide
  distinct := by decide

theorem parentInTwo_bound : ∃ r row, (Origin.verifyOtp .parent none).result 7 parentInTwo = .ok r ∧
    r.session = some row ∧ ¬ Preserves 7 parentInTwo r.accessToken row := by
  refine ⟨⟨⟨7, .parent, none, false, some .parent⟩, some ⟨7, none, some .parent⟩,
    [parentRole (some 1), parentRole (some 2)], [⟨1, "", ""⟩, ⟨2, "", ""⟩]⟩, ⟨7, none, some .parent⟩,
    by decide, rfl, fun h => absurd (h 1) (by decide)⟩

def mentorAndParent : UserRoles where
  staffEntries := [⟨1, .mentor, none⟩]
  guardianKindergartenIds := [1, 2]
  mentorAssignments := []
  onePerKindergarten := by decide
  distinct := by decide

theorem refresh_preserves_iff_mentorAndParent :
    ∃ r row, (Origin.verifyOtp .parent none).result 7 mentorAndParent = .ok r ∧
      r.session = some row ∧ Preserves 7 mentorAndParent r.accessToken row := by
  have hresult : (Origin.verifyOtp .parent none).result 7 mentorAndParent =
      .ok ⟨⟨7, .parent, some 2, false, some .parent⟩, some ⟨7, some 2, some .parent⟩,
        [parentRole (some 2)], [⟨2, "", ""⟩]⟩ := by decide
  exact ⟨_, _, hresult, rfl, (refresh_preserves_iff hresult rfl).2 (by decide)⟩

end Auth
