import Shyraq.Auth.AuthService
import Shyraq.Kernel.Lineage
import Shyraq.Transactions.Statements
import Shyraq.Transactions.Table
import Shyraq.Transactions.Runs

/-!
# Refresh tokens

The table `refresh_tokens` and the transactions on it: a session is issued, its token is rotated, a
logout revokes.  `token_hash` is unique and stands for the row; the column `id`, another key of the
same row, is left out.  The hashes of new tokens come with the request.
-/

namespace Auth

open Transactions

structure RefreshToken where
  tokenHash : Nat
  session : Session
  deviceId : Option String
  ipAddress : Option String
  expiresAt : Int
  revokedAt : Option Int
  deriving DecidableEq

instance : Row RefreshToken := ⟨RefreshToken.tokenHash⟩

structure RefreshStore where
  tokens : List RefreshToken
  deriving DecidableEq

inductive RefreshKey
  /-- The row, and its entry in the unique index. -/
  | token (tokenHash : Nat)
  deriving DecidableEq

inductive RefreshWrite
  | insert (row : RefreshToken)
  | revoke (tokenHash : Nat) (now : Int)
  /-- `token_hash = :hash AND revoked_at IS NULL`. -/
  | revokeLive (tokenHash : Nat) (now : Int)

namespace RefreshToken

def revoked (now : Int) (row : RefreshToken) : RefreshToken := { row with revokedAt := some now }

/-- Neither revoked nor expired. -/
def isActive (row : RefreshToken) (now : Int) : Bool := row.revokedAt.isNone && decide (now < row.expiresAt)

end RefreshToken

namespace RefreshStore

def token (s : RefreshStore) (tokenHash : Nat) : Option RefreshToken := Table.find s.tokens tokenHash

def keys : RefreshWrite → List RefreshKey
  | .insert row => [.token row.tokenHash]
  | .revoke tokenHash _ | .revokeLive tokenHash _ => [.token tokenHash]

def hit (s : RefreshStore) : RefreshWrite → Bool
  | .insert row => (s.token row.tokenHash).isNone
  | .revoke tokenHash _ => (s.token tokenHash).isSome
  | .revokeLive tokenHash _ => (s.token tokenHash).any fun row => row.revokedAt.isNone

def apply (s : RefreshStore) : RefreshWrite → RefreshStore
  | .insert row => { s with tokens := s.tokens ++ [row] }
  | .revoke tokenHash now =>
      { s with tokens := Table.updateWhere s.tokens tokenHash (fun _ => true) (RefreshToken.revoked now) }
  | .revokeLive tokenHash now =>
      { s with
        tokens := Table.updateWhere s.tokens tokenHash (fun row => row.revokedAt.isNone) (RefreshToken.revoked now) }

end RefreshStore

instance : Relational RefreshStore RefreshKey RefreshWrite where
  keys := RefreshStore.keys
  hit := RefreshStore.hit
  apply := RefreshStore.apply
  rowKey := RefreshKey.token
  absent s i := (s.token i).isNone

inductive RefreshError
  /-- What the driver throws on a violated constraint. -/
  | uniqueViolation
  deriving DecidableEq

abbrev RefreshSql (A : Type) := Prog RefreshStore RefreshKey RefreshWrite RefreshError A

structure CreateRefreshInput where
  session : Session
  tokenHash : Nat
  deviceId : Option String
  ipAddress : Option String
  expiresAt : Int

structure RotateOpts where
  tokenHash : Nat
  now : Int
  newTokenHash : Nat
  newExpiresAt : Int
  deviceIdOverride : Option String
  ipAddressOverride : Option String

/-- The row of the new token; the session goes with it. -/
def RotateOpts.row (opts : RotateOpts) (existing : RefreshToken) : RefreshToken where
  tokenHash := opts.newTokenHash
  session := existing.session
  deviceId := opts.deviceIdOverride.or existing.deviceId
  ipAddress := opts.ipAddressOverride.or existing.ipAddress
  expiresAt := opts.newExpiresAt
  revokedAt := none

namespace RefreshTokenRepository

def create (input : CreateRefreshInput) : RefreshSql Unit :=
  Prog.insertOr (.insert ⟨input.tokenHash, input.session, input.deviceId, input.ipAddress, input.expiresAt, none⟩)
    .uniqueViolation

/-- `FOR UPDATE`: the row is locked, then read as it has become. -/
def findForUpdate (tokenHash : Nat) : RefreshSql (Option RefreshToken) := do
  let found ← Prog.query fun s => s.token tokenHash
  match found with
  | none => pure none
  | some _ => do
      Prog.acquire (.token tokenHash)
      Prog.query fun s => s.token tokenHash

def rotate (opts : RotateOpts) : RefreshSql (Option Session) := do
  let existing ← findForUpdate opts.tokenHash
  match existing.filter fun row => row.isActive opts.now with
  | none => pure none
  | some existing => do
      let _ ← Prog.update (.revoke existing.tokenHash opts.now)
      Prog.insertOr (.insert (opts.row existing)) .uniqueViolation
      pure (some existing.session)

def revokeByHash (tokenHash : Nat) (now : Int) : RefreshSql Unit := do
  let _ ← Prog.update (.revokeLive tokenHash now)
  pure ()

/-- One UPDATE: the rows it finds, each looked at again once it is locked. -/
def revokeAllByUserId (userId : Nat) (now : Int) : RefreshSql Unit := do
  let found ← Prog.query fun s =>
    s.tokens.filter fun row => row.session.userId == userId && row.revokedAt.isNone
  Prog.forEach (fun row => revokeByHash row.tokenHash now) found

end RefreshTokenRepository

/-! ## Requests -/

inductive RefreshOp
  | create (input : CreateRefreshInput)
  | refresh (opts : RotateOpts)
  | logout (now : Int) (userId : Nat) (tokenHash : Option Nat)

inductive RefreshResponse
  /-- `none`: the token is unknown, expired or revoked. -/
  | rotated (session : Option Session)
  | noContent
  deriving DecidableEq

def RefreshOp.prog : RefreshOp → RefreshSql RefreshResponse
  | create input => .bind (RefreshTokenRepository.create input) fun _ => .ret .noContent
  | refresh opts => .bind (RefreshTokenRepository.rotate opts) fun session => .ret (.rotated session)
  | logout now _ (some tokenHash) =>
      .bind (RefreshTokenRepository.revokeByHash tokenHash now) fun _ => .ret .noContent
  | logout now userId none =>
      .bind (RefreshTokenRepository.revokeAllByUserId userId now) fun _ => .ret .noContent

abbrev RefreshSystem (n : Nat) :=
  Transactions.System RefreshStore RefreshKey RefreshWrite RefreshError RefreshOp RefreshResponse n

abbrev RefreshSchedule (n : Nat) := List (Choice RefreshOp n)

abbrev RefreshCommit := Commit RefreshStore RefreshKey RefreshWrite RefreshOp RefreshResponse

def runRefresh {n : Nat} (s : RefreshStore) (cs : RefreshSchedule n) : Option (RefreshSystem n) :=
  (System.init s).exec RefreshOp.prog cs

theorem runRefresh_shows {n : Nat} (s : RefreshStore) (cs : RefreshSchedule n) (p : RefreshSystem n → Bool)
    (h : (runRefresh s cs).any p = true) : ∃ σ : RefreshSystem n, runRefresh s cs = some σ ∧ p σ = true :=
  (Option.any_eq_true _ _).1 h

/-! ## What the rows of others may do -/

/-- Only `revoked_at` moves, and it is never taken back. -/
def Ages (row row' : RefreshToken) : Prop :=
  ∃ o, row' = { row with revokedAt := o } ∧ (row.revokedAt ≠ none → o ≠ none)

theorem Ages.revoked (row : RefreshToken) (now : Int) : Ages row (row.revoked now) :=
  ⟨some now, rfl, fun _ => Option.some_ne_none _⟩

theorem Ages.refl (row : RefreshToken) : Ages row row := ⟨row.revokedAt, rfl, id⟩

theorem Ages.trans {r₁ r₂ r₃ : RefreshToken} (h₁ : Ages r₁ r₂) (h₂ : Ages r₂ r₃) : Ages r₁ r₃ := by
  obtain ⟨o₁, rfl, ho₁⟩ := h₁
  obtain ⟨o₂, rfl, ho₂⟩ := h₂
  exact ⟨o₂, rfl, fun h => ho₂ (ho₁ h)⟩

def refreshLocks : Discipline RefreshStore RefreshKey RefreshWrite where
  rely held s s' := Table.Evolves Ages (fun h => RefreshKey.token h ∈ held) s.tokens s'.tokens
  refl _ s := .refl Ages.refl s.tokens
  trans h₁ h₂ := h₁.trans (fun _ _ _ h h' => h.trans h') h₂
  mono hs h := h.mono fun _ hi => hs hi

theorem refresh_respects {held : List RefreshKey} {w : RefreshWrite} (hkeys : RefreshStore.keys w ⊆ held) :
    refreshLocks.Respects held w := by
  intro held' hd s
  cases w with
  | insert row =>
    exact .append Ages.refl fun hk => hd (hkeys List.mem_cons_self) hk
  | revoke h now =>
    refine .updateWhere (fun _ => rfl) Ages.refl fun row _ _ => ⟨.revoked row now, ?_⟩
    exact fun hk => hd (hkeys List.mem_cons_self) hk
  | revokeLive h now =>
    refine .updateWhere (fun _ => rfl) Ages.refl fun row _ _ => ⟨.revoked row now, ?_⟩
    exact fun hk => hd (hkeys List.mem_cons_self) hk

end Auth
