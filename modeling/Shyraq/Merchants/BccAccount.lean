import Shyraq.Transactions.Runs
import Shyraq.Transactions.Statements

/-!
# BccMerchantOnboardingService

The row of `bcc_merchant_accounts` of one kindergarten, and the requests that read and save it.  What the bank answers,
the ciphertexts and the generated credentials are part of a request; its texts are trimmed already.  A failed check is
saved in a transaction of its own and then throws: a commit with an error for its answer.  The columns `id`, `created_at`
and `updated_at` and the plaintexts of the credentials are left out.
-/

namespace Bcc

open Transactions

inductive BccEnvironment
  | test | live
  deriving DecidableEq, Repr

inductive BccMerchantAccountStatus
  | draft | active | disabled
  deriving DecidableEq, Repr

inductive BccError
  | kindergartenNotFound
  | macComponentsInvalid
  | accountActive
  | accountNotFound
  | statusInvalid (status : BccMerchantAccountStatus) (action : String)
  | activation
  | gatewayUnavailable
  | connectionCheckFailed
  /-- What the cipher throws on the stored token. -/
  | cipher
  deriving DecidableEq

/-! ## The account -/

structure BccConnectionResult where
  success : Bool
  action : Option String
  rc : Option String
  rcText : Option String
  deriving DecidableEq

/-- The four columns that a rotation of the callback sets. -/
structure BccCallbackCredentials where
  callbackTokenHash : String
  callbackTokenEnc : String
  notifyUsername : String
  notifyPasswordHash : String
  deriving DecidableEq

/-- The columns that a new configuration sets. -/
structure BccConfiguration where
  merchantId : String
  terminalId : String
  merchantName : Option String
  macKeyEnc : String
  environment : BccEnvironment
  deriving DecidableEq

structure BccMerchantAccount extends BccConfiguration, BccCallbackCredentials where
  status : BccMerchantAccountStatus
  lastConnectionCheckedAt : Option Int
  lastConnectionResult : Option BccConnectionResult
  disabledAt : Option Int
  updatedBy : Nat
  deriving DecidableEq

namespace BccMerchantAccount

variable (account : BccMerchantAccount)

def isActive : Bool := account.status == .active

def resetToDraft (updatedBy : Nat) : BccMerchantAccount :=
  { account with
    status := .draft
    lastConnectionCheckedAt := none
    lastConnectionResult := none
    disabledAt := none
    updatedBy := updatedBy }

def updateDraftConfiguration (input : BccConfiguration) (updatedBy : Nat) : Except BccError BccMerchantAccount :=
  if account.status = .active then .error (.statusInvalid .active "update")
  else .ok (resetToDraft { account with toBccConfiguration := input } updatedBy)

def rotateMacKey (macKeyEnc : String) (updatedBy : Nat) : BccMerchantAccount :=
  resetToDraft { account with macKeyEnc := macKeyEnc } updatedBy

def rotateCallbackCredentials (input : BccCallbackCredentials) (updatedBy : Nat) : BccMerchantAccount :=
  { account with toBccCallbackCredentials := input, updatedBy := updatedBy }

def recordConnectionCheck (result : BccConnectionResult) (checkedAt : Int) (updatedBy : Nat) : BccMerchantAccount :=
  { account with
    lastConnectionResult := some result
    lastConnectionCheckedAt := some checkedAt
    updatedBy := updatedBy }

def activate (updatedBy : Nat) : Except BccError BccMerchantAccount :=
  if account.status = .active then .error (.statusInvalid .active "activate")
  else
    let checkedAt := account.lastConnectionCheckedAt
    let hasSuccessfulCheck := account.lastConnectionResult.any (fun r => r.success) && checkedAt.isSome
    let checkIsAfterDisable := account.disabledAt.all fun d => checkedAt.any fun c => decide (d < c)
    if hasSuccessfulCheck && checkIsAfterDisable then
      .ok { account with status := .active, disabledAt := none, updatedBy := updatedBy }
    else .error .activation

def disable (now : Int) (updatedBy : Nat) : BccMerchantAccount :=
  if account.status = .disabled then account
  else { account with status := .disabled, disabledAt := some now, updatedBy := updatedBy }

end BccMerchantAccount

/-! ## The table -/

structure Store where
  account : Option BccMerchantAccount
  /-- Ghost: how often the row was saved; no query reads it. -/
  saves : Nat
  deriving DecidableEq

inductive Key
  /-- The row, and the unique index on `kindergarten_id`. -/
  | account
  deriving DecidableEq

inductive Write
  /-- The upsert of every column. -/
  | save (account : BccMerchantAccount)

namespace Store

def apply (s : Store) : Write → Store
  | .save account => ⟨some account, s.saves + 1⟩

end Store

instance : Relational Store Key Write where
  keys _ := [.account]
  hit _ _ := true
  apply := Store.apply
  rowKey _ := .account
  absent _ _ := false

abbrev Sql (A : Type) := Prog Store Key Write BccError A

/-! ## Repository -/

namespace BccMerchantAccountRepository

def findByKindergartenId : Sql (Option BccMerchantAccount) := Prog.query Store.account

def save (account : BccMerchantAccount) : Sql BccMerchantAccount := do
  let _ ← Prog.update (.save account)
  let row ← Prog.query Store.account
  Prog.require row .accountNotFound

end BccMerchantAccountRepository

/-! ## The service -/

structure BccAccountView where
  connected : Bool
  status : BccMerchantAccountStatus
  merchantId : String
  terminalId : String
  merchantName : Option String
  environment : BccEnvironment
  lastConnectionCheckedAt : Option Int
  lastConnectionResult : Option BccConnectionResult
  deriving DecidableEq

def toView (account : BccMerchantAccount) : BccAccountView where
  connected := account.isActive
  status := account.status
  merchantId := account.merchantId
  terminalId := account.terminalId
  merchantName := account.merchantName
  environment := account.environment
  lastConnectionCheckedAt := account.lastConnectionCheckedAt
  lastConnectionResult := account.lastConnectionResult

structure UpsertBccAccountInput where
  merchantId : String
  terminalId : String
  merchantName : Option String
  environment : BccEnvironment
  deriving DecidableEq

/-- What the connection check of the bank answers. -/
inductive BccAnswer
  | throws
  | responded (httpOk : Bool) (action rc rcText : Option String)
  deriving DecidableEq

structure BccConnectionCheckResult where
  connected : Bool
  status : BccMerchantAccountStatus
  checkedAt : Int
  result : BccConnectionResult
  deriving DecidableEq

/-- Letters, digits, `_` and `-`, at most 32 of them. -/
def sanitizeCode (value : Option String) : Option String :=
  value.bind fun v =>
    let code := (v.toList.filter fun c => c.isAlphanum || c == '_' || c == '-').take 32
    if code = [] then none else some (String.ofList code)

/-- Line breaks and tabs become blanks; at most 160 characters. -/
def sanitizeText (value : Option String) : Option String :=
  value.bind fun v =>
    if v = "" then none
    else some (String.ofList ((v.toList.map fun c => if c == '\r' || c == '\n' || c == '\t' then ' ' else c).take 160))

def BccAnswer.success : BccAnswer → Bool
  | .throws => false
  | .responded httpOk action rc _ => httpOk && (action == some "0" || rc == some "00")

/-- What is recorded of the answer. -/
def BccAnswer.result : BccAnswer → BccConnectionResult
  | .throws => ⟨false, none, none, some "transport_error"⟩
  | .responded httpOk action rc rcText =>
    ⟨BccAnswer.success (.responded httpOk action rc rcText), sanitizeCode action, sanitizeCode rc, sanitizeText rcText⟩

namespace BccMerchantOnboardingService

def requireAccount : Sql BccMerchantAccount := do
  let account ← BccMerchantAccountRepository.findByKindergartenId
  Prog.require account .accountNotFound

/-- The row of the first upsert. -/
def newAccount (input : BccConfiguration) (callback : BccCallbackCredentials) (actorId : Nat) : BccMerchantAccount :=
  { toBccConfiguration := input
    toBccCallbackCredentials := callback
    status := .draft
    lastConnectionCheckedAt := none
    lastConnectionResult := none
    disabledAt := none
    updatedBy := actorId }

/-- What an upsert saves over the row that it loaded. -/
def upserted (input : BccConfiguration) (callback : BccCallbackCredentials) (actorId : Nat) :
    Option BccMerchantAccount → Except BccError BccMerchantAccount
  | some existing =>
    if existing.isActive then .error .accountActive else existing.updateDraftConfiguration input actorId
  | none => .ok (newAccount input callback actorId)

/-- `macKeyEnc` is `none` where the two components do not combine. -/
def upsert (kindergarten : Bool) (input : UpsertBccAccountInput) (macKeyEnc : Option String)
    (callback : BccCallbackCredentials) (actorId : Nat) : Sql BccAccountView := do
  Prog.guardOr kindergarten .kindergartenNotFound
  let macKeyEnc ← Prog.require macKeyEnc .macComponentsInvalid
  let existing ← BccMerchantAccountRepository.findByKindergartenId
  let next ← Prog.ofExcept
    (upserted ⟨input.merchantId, input.terminalId, input.merchantName, macKeyEnc, input.environment⟩ callback actorId
      existing)
  let saved ← BccMerchantAccountRepository.save next
  pure (toView saved)

/-- What a check saves over the row that it loaded. -/
def checked (answer : BccAnswer) (checkedAt : Int) (actorId : Nat) (account : BccMerchantAccount) :
    Except BccError BccMerchantAccount :=
  let account := account.recordConnectionCheck answer.result checkedAt actorId
  if answer.success && !account.isActive then account.activate actorId else .ok account

/-- The error that follows a failed check, or the answer to a successful one. -/
def checkResponse (answer : BccAnswer) (checkedAt : Int) (saved : BccMerchantAccount) :
    Except BccError BccConnectionCheckResult :=
  match answer with
  | .throws => .error .gatewayUnavailable
  | .responded .. =>
    if answer.success then .ok ⟨saved.isActive, saved.status, checkedAt, answer.result⟩
    else .error .connectionCheckFailed

/-- `opens`: the stored token can be decrypted. -/
def checkConnection (opens : Bool) (answer : BccAnswer) (checkedAt : Int) (actorId : Nat) :
    Sql (Except BccError BccConnectionCheckResult) := do
  let account ← requireAccount
  Prog.guardOr opens .cipher
  let next ← Prog.ofExcept (checked answer checkedAt actorId account)
  let saved ← BccMerchantAccountRepository.save next
  pure (checkResponse answer checkedAt saved)

def disable (now : Int) (actorId : Nat) : Sql Unit := do
  let account ← requireAccount
  let _ ← BccMerchantAccountRepository.save (account.disable now actorId)
  pure ()

def rotateMac (macKeyEnc : Option String) (actorId : Nat) : Sql BccAccountView := do
  let account ← requireAccount
  let macKeyEnc ← Prog.require macKeyEnc .macComponentsInvalid
  let saved ← BccMerchantAccountRepository.save (account.rotateMacKey macKeyEnc actorId)
  pure (toView saved)

def rotateCallbackCredentials (generated : BccCallbackCredentials) (actorId : Nat) : Sql Unit := do
  let account ← requireAccount
  let _ ← BccMerchantAccountRepository.save (account.rotateCallbackCredentials generated actorId)
  pure ()

end BccMerchantOnboardingService

/-! ## Requests -/

inductive Op
  | upsert (kindergarten : Bool) (input : UpsertBccAccountInput) (macKeyEnc : Option String)
      (callback : BccCallbackCredentials) (actorId : Nat)
  | checkConnection (opens : Bool) (answer : BccAnswer) (checkedAt : Int) (actorId : Nat)
  | disable (now : Int) (actorId : Nat)
  | rotateMac (macKeyEnc : Option String) (actorId : Nat)
  | rotateCallbackCredentials (generated : BccCallbackCredentials) (actorId : Nat)

inductive Response
  | done
  | account (view : BccAccountView)
  | checked (r : Except BccError BccConnectionCheckResult)

namespace Op

def answer {A : Type} (f : A → Response) (p : Sql A) : Sql Response := Prog.bind p fun a => .ret (f a)

def prog : Op → Sql Response
  | upsert kindergarten input macKeyEnc callback actorId =>
    answer .account (BccMerchantOnboardingService.upsert kindergarten input macKeyEnc callback actorId)
  | checkConnection opens a checkedAt actorId =>
    answer .checked (BccMerchantOnboardingService.checkConnection opens a checkedAt actorId)
  | disable now actorId => answer (fun _ => .done) (BccMerchantOnboardingService.disable now actorId)
  | rotateMac macKeyEnc actorId => answer .account (BccMerchantOnboardingService.rotateMac macKeyEnc actorId)
  | rotateCallbackCredentials generated actorId =>
    answer (fun _ => .done) (BccMerchantOnboardingService.rotateCallbackCredentials generated actorId)

end Op

abbrev System (n : Nat) := Transactions.System Store Key Write BccError Op Response n

abbrev Schedule (n : Nat) := List (Choice Op n)

abbrev BccCommit := Commit Store Key Write Op Response

def run {n : Nat} (s : Store) (cs : Schedule n) : Option (System n) := (System.init s).exec Op.prog cs

end Bcc
