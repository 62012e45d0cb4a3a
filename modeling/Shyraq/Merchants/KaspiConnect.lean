import Shyraq.Transactions.Runs
import Shyraq.Transactions.Statements

/-!
# KaspiConnectService

The row of `kaspi_merchant_session` of one kindergarten, and the requests that read and save it.  What the provider and
the onboarding store answer is part of a request.  A load takes no lock and nothing is written before the save, so a load
in a transaction of its own is the same SELECT in front.  Ciphertexts are opaque texts; the columns `id`, `created_at`
and `updated_at` are left out.
-/

namespace Kaspi

open Transactions

inductive KaspiSessionStatus
  | pending | active | expired | revoked
  deriving DecidableEq, Repr

inductive KaspiError
  | alreadyConnected
  | notConnected
  | appVersionOutdated
  | finishFailed (reason : String)
  | otpInvalid
  | unknownProcess
  /-- What the HTTP client or the cipher throws. -/
  | upstream
  deriving DecidableEq

/-! ## The session -/

structure KaspiMerchantSession where
  connectedByUserId : Nat
  status : KaspiSessionStatus
  cashierPhone : Option String
  kaspiProfileId : Option String
  kaspiOrgId : Option String
  orgName : Option String
  tokenSn : Option String
  vtokenSecretEnc : Option String
  deviceKeypairEnc : Option String
  ecdhKeypairEnc : Option String
  deviceId : Option String
  installId : Option String
  pinHash : Option String
  lastCheckedAt : Option Int
  deriving DecidableEq

structure KaspiSessionActivation where
  cashierPhone : String
  kaspiProfileId : Option String
  kaspiOrgId : Option String
  orgName : Option String
  tokenSn : String
  vtokenSecretEnc : String
  deviceKeypairEnc : String
  ecdhKeypairEnc : String
  deviceId : String
  installId : String
  pinHash : String

/-- What `org-context-otp` answers. -/
structure OrgContext where
  profileId : Option String
  organizationId : Option String
  orgName : Option String
  deriving DecidableEq

namespace KaspiMerchantSession

def newPending (connectedByUserId : Nat) : KaspiMerchantSession :=
  ⟨connectedByUserId, .pending, none, none, none, none, none, none, none, none, none, none, none, none⟩

variable (session : KaspiMerchantSession)

def isActive : Bool := session.status == .active

def activate (a : KaspiSessionActivation) (now : Int) : KaspiMerchantSession :=
  { session with
    status := .active
    cashierPhone := some a.cashierPhone
    kaspiProfileId := a.kaspiProfileId
    kaspiOrgId := a.kaspiOrgId
    orgName := a.orgName
    tokenSn := some a.tokenSn
    vtokenSecretEnc := some a.vtokenSecretEnc
    deviceKeypairEnc := some a.deviceKeypairEnc
    ecdhKeypairEnc := some a.ecdhKeypairEnc
    deviceId := some a.deviceId
    installId := some a.installId
    pinHash := some a.pinHash
    lastCheckedAt := some now }

def markExpired (now : Int) : KaspiMerchantSession := { session with status := .expired, lastCheckedAt := some now }

def applyRefresh (tokenSn vtokenSecretEnc : String) (org : OrgContext) (now : Int) : KaspiMerchantSession :=
  { session with
    status := .active
    tokenSn := some tokenSn
    vtokenSecretEnc := some vtokenSecretEnc
    kaspiProfileId := org.profileId.or session.kaspiProfileId
    kaspiOrgId := org.organizationId.or session.kaspiOrgId
    orgName := org.orgName.or session.orgName
    lastCheckedAt := some now }

def revoke : KaspiMerchantSession := { session with status := .revoked }

/-- The token, with all that a sign-in needs. -/
def credentials : Option String :=
  if session.vtokenSecretEnc.any (fun v => v != "") && session.deviceKeypairEnc.any (fun v => v != "") &&
      session.ecdhKeypairEnc.any (fun v => v != "") && session.installId.any (fun v => v != "") &&
      session.pinHash.any fun v => v != "" then
    session.tokenSn.filter fun v => v != ""
  else none

end KaspiMerchantSession

/-! ## The table -/

structure Store where
  session : Option KaspiMerchantSession
  deriving DecidableEq

inductive Key
  /-- The row, and the unique index on `kindergarten_id`. -/
  | session
  deriving DecidableEq

inductive Write
  /-- The upsert of every column. -/
  | save (session : KaspiMerchantSession)
  | touchLastCheckedAt (now : Int)

namespace Store

def hit (s : Store) : Write → Bool
  | .save _ => true
  | .touchLastCheckedAt _ => s.session.isSome

def apply (s : Store) : Write → Store
  | .save session => ⟨some session⟩
  | .touchLastCheckedAt now => ⟨s.session.map fun row => { row with lastCheckedAt := some now }⟩

end Store

instance : Relational Store Key Write where
  keys _ := [.session]
  hit := Store.hit
  apply := Store.apply
  rowKey _ := .session
  absent _ _ := false

abbrev Sql (A : Type) := Prog Store Key Write KaspiError A

/-! ## Repository -/

namespace KaspiMerchantSessionRepository

def findByKindergartenId : Sql (Option KaspiMerchantSession) := Prog.query Store.session

def save (session : KaspiMerchantSession) : Sql KaspiMerchantSession := do
  let _ ← Prog.update (.save session)
  let row ← Prog.query Store.session
  Prog.require row .upstream

def touchLastCheckedAtBypassRls (now : Int) : Sql Unit := do
  let _ ← Prog.update (.touchLastCheckedAt now)
  pure ()

end KaspiMerchantSessionRepository

/-! ## The service -/

/-- What the entrance step answers to `init` and `sendPhone`. -/
inductive EntranceAnswer
  | throws
  | oldVersionToUpdate
  | unexpected
  | accepted
  deriving DecidableEq

/-- What the steps of `verifyOtp` answer, up to the first that fails. -/
inductive FinishAnswer
  | unknownProcess
  | throws
  | otpRejected
  | noTokenSn
  /-- `connectedByUserId` is that of the blob in the onboarding store. -/
  | finished (connectedByUserId : Nat) (activation : KaspiSessionActivation)

/-- What `sign-in-lite` and `org-context-otp` answer. -/
inductive SignInLiteAnswer
  | throws
  | failed
  /-- The new ciphertext; `none`: the call for the context throws. -/
  | signedIn (tokenSn : Option String) (vtokenSecretEnc : String) (org : Option OrgContext)
  deriving DecidableEq

structure KaspiConnectResult where
  phone : String
  orgName : Option String
  profileId : Option String
  deriving DecidableEq

namespace KaspiConnectService

/-- Up to the blob in the onboarding store. -/
def init (answer : EntranceAnswer) : Sql Unit := do
  let existing ← KaspiMerchantSessionRepository.findByKindergartenId
  Prog.guardOr (!existing.any KaspiMerchantSession.isActive) .alreadyConnected
  match answer with
  | .throws => Prog.throw .upstream
  | .oldVersionToUpdate => Prog.throw .appVersionOutdated
  | .unexpected => Prog.throw (.finishFailed "init_no_process_id")
  | .accepted => pure ()

def sendPhone (known : Bool) (answer : EntranceAnswer) : Sql Unit := do
  Prog.guardOr known .unknownProcess
  match answer with
  | .throws => Prog.throw .upstream
  | .oldVersionToUpdate => Prog.throw .appVersionOutdated
  | .unexpected => Prog.throw (.finishFailed "send_phone_failed")
  | .accepted => pure ()

/-- The end of `doFinish`. -/
def finish (now : Int) (connectedByUserId : Nat) (activation : KaspiSessionActivation) : Sql KaspiConnectResult := do
  Prog.guardOr activation.kaspiProfileId.isSome (.finishFailed "finish_no_org_context")
  let existing ← KaspiMerchantSessionRepository.findByKindergartenId
  let session := existing.getD (.newPending connectedByUserId)
  let saved ← KaspiMerchantSessionRepository.save (session.activate activation now)
  pure ⟨saved.cashierPhone.getD "", saved.orgName, saved.kaspiProfileId⟩

def verifyOtp (now : Int) : FinishAnswer → Sql KaspiConnectResult
  | .unknownProcess => Prog.throw .unknownProcess
  | .throws => Prog.throw .upstream
  | .otpRejected => Prog.throw .otpInvalid
  | .noTokenSn => Prog.throw (.finishFailed "finish_no_token_sn")
  | .finished connectedByUserId activation => finish now connectedByUserId activation

/-- What the sign-in makes of the session that was loaded; a failed one is saved before the throw. -/
def refreshed (now : Int) (session : KaspiMerchantSession) (tokenSn : String) :
    SignInLiteAnswer → Except KaspiError KaspiMerchantSession
  | .throws => .error .upstream
  | .failed => .ok (session.markExpired now)
  | .signedIn _ _ none => .error .upstream
  | .signedIn newTokenSn secret (some org) => .ok (session.applyRefresh (newTokenSn.getD tokenSn) secret org now)

/-- `none`: the session was marked expired and the request throws. -/
def refreshSession (now : Int) (answer : SignInLiteAnswer) : Sql (Option KaspiMerchantSession) := do
  let session ← KaspiMerchantSessionRepository.findByKindergartenId
  let session ← Prog.require session .notConnected
  let tokenSn ← Prog.require session.credentials (.finishFailed "refresh_missing_credentials")
  let next ← Prog.ofExcept (refreshed now session tokenSn answer)
  let saved ← KaspiMerchantSessionRepository.save next
  pure (if answer = .failed then none else some saved)

def disconnect : Sql Unit := do
  let session ← KaspiMerchantSessionRepository.findByKindergartenId
  let session ← Prog.require session .notConnected
  let _ ← KaspiMerchantSessionRepository.save session.revoke
  pure ()

end KaspiConnectService

/-! ## Requests -/

/-- A poller tick touches the row, and may then refresh the session: two transactions. -/
inductive Op
  | init (answer : EntranceAnswer)
  | sendPhone (known : Bool) (answer : EntranceAnswer)
  | verifyOtp (now : Int) (answer : FinishAnswer)
  | refreshSession (now : Int) (answer : SignInLiteAnswer)
  | disconnect
  | touch (now : Int)

inductive Response
  | done
  | connected (r : KaspiConnectResult)
  | session (r : Option KaspiMerchantSession)
  deriving DecidableEq

namespace Op

def answer {A : Type} (f : A → Response) (p : Sql A) : Sql Response := Prog.bind p fun a => .ret (f a)

def prog : Op → Sql Response
  | init a => answer (fun _ => .done) (KaspiConnectService.init a)
  | sendPhone known a => answer (fun _ => .done) (KaspiConnectService.sendPhone known a)
  | verifyOtp now a => answer .connected (KaspiConnectService.verifyOtp now a)
  | refreshSession now a => answer .session (KaspiConnectService.refreshSession now a)
  | disconnect => answer (fun _ => .done) KaspiConnectService.disconnect
  | touch now => answer (fun _ => .done) (KaspiMerchantSessionRepository.touchLastCheckedAtBypassRls now)

end Op

abbrev System (n : Nat) := Transactions.System Store Key Write KaspiError Op Response n

abbrev Schedule (n : Nat) := List (Choice Op n)

abbrev KaspiCommit := Commit Store Key Write Op Response

def run {n : Nat} (s : Store) (cs : Schedule n) : Option (System n) := (System.init s).exec Op.prog cs

end Kaspi
