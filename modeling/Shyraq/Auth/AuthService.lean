import Mathlib.Data.List.Dedup
import Mathlib.Data.List.Nodup

/-!
# AuthService: from roles to tokens

What a user may be in which kindergarten, and how `verifyOtp`, `selectRole` and `refreshToken` turn
that into the claims of an access token and the refresh-token row of a session.  The one-time code,
the rotation of the row and the extras of the parent app are elsewhere or left out.
-/

namespace Auth

/-- Which client app the login targets. -/
inductive AuthApp
  | parent | staff | admin
  deriving DecidableEq, Repr

/-- `staff_members_role_chk`. -/
inductive StaffRole
  | admin | mentor | specialist | reception
  deriving DecidableEq, Repr

def StaffRole.name : StaffRole → String
  | admin => "admin"
  | mentor => "mentor"
  | specialist => "specialist"
  | reception => "reception"

/-- The `role` claim of a token. -/
inductive Role
  | parent
  | ofStaff (role : StaffRole)
  /-- Until the kindergarten is selected. -/
  | staffMultiRole
  deriving DecidableEq, Repr

inductive AuthError
  | noRoleForApp
  | noActiveRoles
  | roleNotAvailable
  | roleSelectNotRequired
  | refreshInvalid
  deriving DecidableEq

/-- Roles allowed per app. -/
def appAllowedRoles : AuthApp → List Role
  | .parent => [.parent]
  | .staff => [.ofStaff .mentor, .ofStaff .specialist, .ofStaff .reception]
  | .admin => [.ofStaff .admin]

def audienceForRole (role : StaffRole) : AuthApp := if role = .admin then .admin else .staff

/-! ## What is known of a user -/

structure StaffMember where
  kindergartenId : Nat
  role : StaffRole
  specialistType : Option String
  deriving DecidableEq

structure MentorAssignment where
  kindergartenId : Nat
  groupId : Nat
  isPrimary : Bool

/-- The active staff rows, the kindergartens of the approved guardian links, the active mentor
assignments. -/
structure UserRoles where
  staffEntries : List StaffMember
  guardianKindergartenIds : List Nat
  mentorAssignments : List MentorAssignment
  /-- `idx_staff_members_kg_user_active`. -/
  onePerKindergarten : (staffEntries.map StaffMember.kindergartenId).Nodup
  /-- `SELECT DISTINCT`. -/
  distinct : guardianKindergartenIds.Nodup

structure RoleView where
  role : Role
  kindergartenId : Option Nat
  groupId : Option Nat
  specialistType : Option String
  deriving DecidableEq

structure KindergartenSummaryView where
  id : Nat
  name : String
  slug : String
  deriving DecidableEq

def parentRole (kindergartenId : Option Nat) : RoleView := ⟨.parent, kindergartenId, none, none⟩

namespace AuthService

/-- The first of each kindergarten. -/
def kindergartensFromRoles (roles : List RoleView) : List KindergartenSummaryView :=
  (roles.filterMap RoleView.kindergartenId).reverse.dedup.reverse.map fun id => ⟨id, "", ""⟩

/-- The assignment flagged primary, else the first one; of several flagged the last. -/
def primaryGroupByKg (mentorAssignments : List MentorAssignment) (kindergartenId : Nat) : Option Nat :=
  mentorAssignments.foldl (fun group a =>
    if a.kindergartenId = kindergartenId ∧ (a.isPrimary = true ∨ group = none) then some a.groupId
    else group) none

def staffRoles (u : UserRoles) : List RoleView :=
  u.staffEntries.map fun s =>
    { role := .ofStaff s.role
      kindergartenId := some s.kindergartenId
      groupId := if s.role = .mentor then primaryGroupByKg u.mentorAssignments s.kindergartenId else none
      specialistType := s.specialistType }

/-- Staff is preferred over parent within a kindergarten. -/
def parentKindergartens (u : UserRoles) : List Nat :=
  u.guardianKindergartenIds.filter fun kgId => !(u.staffEntries.map StaffMember.kindergartenId).contains kgId

def assembleRoles (u : UserRoles) : List RoleView × List KindergartenSummaryView :=
  let roles := staffRoles u ++ (parentKindergartens u).map fun kgId => parentRole (some kgId)
  if roles = [] then ([parentRole none], []) else (roles, kindergartensFromRoles roles)

/-- The parent app is open to anybody: there a parent without a kindergarten stands in. -/
def filterRolesForApp (allRoles : List RoleView) (app : AuthApp) : List RoleView :=
  let roles := allRoles.filter fun r => (appAllowedRoles app).contains r.role
  if roles = [] ∧ app = .parent then [parentRole none] else roles

/-- A session without a kindergarten may only become one of a parent; within a kindergarten staff
comes first. -/
def pickRoleForRotation (roles : List RoleView) : Option Nat → Option RoleView
  | none => (roles.find? fun r => r.kindergartenId == none).or (roles.find? fun r => r.role == .parent)
  | some kgId =>
      let matching := roles.filter fun r => r.kindergartenId == some kgId
      (matching.find? fun r => r.role != .parent).or matching.head?

end AuthService

/-! ## Tokens -/

/-- The claims of an access token. -/
structure AccessToken where
  sub : Nat
  role : Role
  kindergartenId : Option Nat
  pendingRoleSelect : Bool
  aud : Option AuthApp
  deriving DecidableEq

/-- What a refresh-token row says of its session; rows from before the apps have no audience. -/
structure Session where
  userId : Nat
  kindergartenId : Option Nat
  audience : Option AuthApp
  deriving DecidableEq

structure AuthResult where
  accessToken : AccessToken
  /-- The row that goes with the refresh token, if there is one. -/
  session : Option Session
  roles : List RoleView
  kindergartens : List KindergartenSummaryView
  deriving DecidableEq

def AuthResult.pendingRoleSelect (r : AuthResult) : Bool := r.session.isNone

structure SelectRoleInput where
  userId : Nat
  kindergartenId : Nat
  role : Option String
  pendingRoleSelect : Bool

namespace AuthService

/-- Which role the session is committed to; `none` asks for a selection. -/
def chooseRole (roles : List RoleView) (app : AuthApp) (requestedKindergartenId : Option Nat) :
    Option RoleView :=
  let chosen :=
    if app = .parent then
      -- a guardian in several kindergartens is bound to none
      if 1 < (roles.filterMap RoleView.kindergartenId).dedup.length then some (parentRole none)
      else roles.head?
    else requestedKindergartenId.bind fun kgId => roles.find? fun r => r.kindergartenId == some kgId
  chosen.or (if roles.length = 1 then roles.head? else none)

/-- `verifyOtp`, once the code is consumed. -/
def issueTokensForUser (userId : Nat) (u : UserRoles) (app : AuthApp)
    (requestedKindergartenId : Option Nat) : Except AuthError AuthResult :=
  let roles := filterRolesForApp (assembleRoles u).1 app
  if roles = [] then .error .noRoleForApp
  else
    match chooseRole roles app requestedKindergartenId with
    | none => .ok
        { accessToken := ⟨userId, .staffMultiRole, none, true, some app⟩
          session := none
          roles := roles
          kindergartens := kindergartensFromRoles roles }
    | some chosen => .ok
        { accessToken := ⟨userId, chosen.role, chosen.kindergartenId, false, some app⟩
          session := some ⟨userId, chosen.kindergartenId, some app⟩
          roles := roles
          kindergartens := kindergartensFromRoles roles }

/-- The role that `selectRole` finds: the staff row of the kindergarten, else the guardian link. -/
def selectedRole (u : UserRoles) (kindergartenId : Nat) (role : Option String) : Option RoleView :=
  match u.staffEntries.find? fun s =>
      s.kindergartenId == kindergartenId && role.all fun r => s.role.name == r with
  | some s => some ⟨.ofStaff s.role, some s.kindergartenId, none, s.specialistType⟩
  | none =>
      if (role.all fun r => r == "parent") && u.guardianKindergartenIds.contains kindergartenId then
        some (parentRole (some kindergartenId))
      else none

def selectedAudience : Role → AuthApp
  | .ofStaff role => audienceForRole role
  | .parent | .staffMultiRole => .parent

/-- `found`: the users row is still there. -/
def selectRole (u : UserRoles) (found : Bool) (input : SelectRoleInput) : Except AuthError AuthResult :=
  if !input.pendingRoleSelect then .error .roleSelectNotRequired
  else
    match selectedRole u input.kindergartenId input.role with
    | none => .error .roleNotAvailable
    | some selected =>
        let audience := selectedAudience selected.role
        if !found then .error .refreshInvalid
        else .ok
          { accessToken := ⟨input.userId, selected.role, selected.kindergartenId, false, some audience⟩
            session := some ⟨input.userId, selected.kindergartenId, some audience⟩
            roles := [selected]
            kindergartens := [⟨input.kindergartenId, "", ""⟩] }

/-- Rows without an audience are not filtered. -/
def rolesForAudience (allRoles : List RoleView) : Option AuthApp → List RoleView
  | none => allRoles
  | some app => filterRolesForApp allRoles app

/-- `refreshToken`, once the row is rotated. -/
def refreshToken (u : UserRoles) (found : Bool) (rotated : Session) : Except AuthError AuthResult :=
  if !found then .error .refreshInvalid
  else
    let roles := rolesForAudience (assembleRoles u).1 rotated.audience
    if roles = [] then .error .noActiveRoles
    else
      match pickRoleForRotation roles rotated.kindergartenId with
      | none => .error .noActiveRoles
      | some matched => .ok
          { accessToken := ⟨rotated.userId, matched.role, matched.kindergartenId, false, rotated.audience⟩
            session := some rotated
            roles := roles
            kindergartens := kindergartensFromRoles roles }

end AuthService

end Auth
