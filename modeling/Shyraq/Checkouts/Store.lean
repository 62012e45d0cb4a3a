import Shyraq.Kernel.KeySpace

/-!
# RedisBccCheckoutStoreAdapter

Checkout sessions of card payments.  A session is kept encrypted under its token, and the token under its payment.  A call
is a sequence of commands, and the commands of different calls mix.
-/

namespace Checkouts

open Kernel

/-- As the database writes it. -/
structure Uuid where
  text : String
  hex : text.toList.all (fun c => c.isAlphanum || c == '-') = true
  deriving DecidableEq

structure BccCheckoutSession where
  paymentId : Uuid
  kindergartenId : Uuid
  order : String
  gatewayUrl : String
  formFields : List (String × String)
  billingPhone : String
  billingAddress : String
  deriving DecidableEq

def isCheckoutToken (token : String) : Bool :=
  token.length == 43 && token.toList.all fun c => c.isAlphanum || c == '_' || c == '-'

/-- `randomBytes(32).toString('base64url')`. -/
structure CheckoutToken where
  text : String
  valid : isCheckoutToken text = true
  deriving DecidableEq

/-- `BCC_CHECKOUT_TTL_SECONDS`. -/
inductive RawTtl
  | blank
  | notAnInteger
  | value (n : Int)

structure Ttl where
  seconds : Nat
  atLeast : 60 ≤ seconds
  atMost : seconds ≤ 1800

def defaultTtlSeconds : Ttl := ⟨900, by omega, by omega⟩

/-- `none` is thrown. -/
def readCheckoutTtl : RawTtl → Option Ttl
  | .blank => some defaultTtlSeconds
  | .notAnInteger => none
  | .value n => if h : 60 ≤ n ∧ n ≤ 1800 then some ⟨n.toNat, by omega, by omega⟩ else none

/-- `encryptString` of a session's JSON draws a nonce, and `decryptString` may throw, as may the parser and
`assertSession` after it. -/
structure Cipher (B : Type) where
  encryptString : Nat → BccCheckoutSession → B
  decryptString : B → Option BccCheckoutSession

/-- What Redis keeps. -/
inductive Value (B : Type)
  | sealed (encrypted : B)
  | token (token : CheckoutToken)

abbrev Redis (B : Type) := KeySpace (Value B)

def sessionKey (token : CheckoutToken) : String := "bcc:checkout:session:" ++ token.text

def paymentKey (kindergartenId paymentId : Uuid) : String :=
  "bcc:checkout:payment:" ++ kindergartenId.text ++ ":" ++ paymentId.text

section

variable {B : Type} (redis : Redis B)

def tokenAfter (ms : Nat) (k : String) : Option CheckoutToken :=
  match redis.getAfter ms k with
  | some (.token token) => some token
  | _ => none

/-- The token that a payment's key holds. -/
def tokenAt (k : String) : Option CheckoutToken := tokenAfter redis 0 k

/-! ## The scripts -/

inductive ScriptResult
  | reused (token : CheckoutToken)
  | created
  /-- The empty string. -/
  | taken

/-- The end of `CREATE_OR_REUSE_SCRIPT`. -/
def createIfFree (token : CheckoutToken) (reverseKey : String) (encrypted : B) (ttl : Ttl) : Redis B × ScriptResult :=
  if redis.has (sessionKey token) then (redis, .taken)
  else
    ((redis.set (sessionKey token) (.sealed encrypted) (1000 * ttl.seconds)).set reverseKey (.token token)
      (1000 * ttl.seconds), .created)

/-- `CREATE_OR_REUSE_SCRIPT`. -/
def createOrReuseScript (token : CheckoutToken) (reverseKey : String) (encrypted : B) (ttl : Ttl) :
    Redis B × ScriptResult :=
  match tokenAt redis reverseKey with
  | some existing =>
      if redis.has (sessionKey existing) then (redis, .reused existing)
      else createIfFree (redis.del reverseKey) token reverseKey encrypted ttl
  | none => createIfFree redis token reverseKey encrypted ttl

/-- `DELETE_REVERSE_IF_MATCHES_SCRIPT`. -/
def deleteReverseIfMatches (reverseKey : String) (token : CheckoutToken) : Redis B :=
  if tokenAt redis reverseKey = some token then redis.del reverseKey else redis

end

/-! ## The calls -/

/-- The command that a call sends next. -/
inductive Call
  | createOrReuse (session : BccCheckoutSession) (attempt : Nat)
  /-- `GET` of the reverse key. -/
  | find (kindergartenId paymentId : Uuid)
  /-- `EXISTS` of the session. -/
  | look (kindergartenId paymentId : Uuid) (token : CheckoutToken)
  | clean (kindergartenId paymentId : Uuid) (token : CheckoutToken)
  /-- `GETDEL` of the session. -/
  | consume (token : CheckoutToken)
  | release (token : CheckoutToken) (session : BccCheckoutSession)
  deriving DecidableEq

inductive Answer
  /-- `createOrReuse`. -/
  | handle (kindergartenId paymentId : Uuid) (token : CheckoutToken) (expiresInSeconds : Nat)
  /-- `findTokenByPayment`. -/
  | found (kindergartenId paymentId : Uuid) (token : CheckoutToken)
  | noToken
  /-- `consume`. -/
  | returned (token : CheckoutToken) (session : BccCheckoutSession)
  | noSession
  /-- `bcc_checkout_token_generation_failed`. -/
  | failed
  deriving DecidableEq

inductive Next
  | goOn (call : Call)
  | answer (answer : Answer)

structure State (B : Type) where
  redis : Redis B
  calls : Nat → Option Call
  /-- The sessions that have been stored, with their tokens. -/
  stored : List (CheckoutToken × BccCheckoutSession)
  answers : List Answer

structure Env (B : Type) where
  cipher : Cipher B
  ttl : Ttl

/-- What is drawn for a command: a token, and a nonce for the cipher. -/
abbrev Draw := CheckoutToken × Nat

inductive Event
  | elapse (ms : Nat)
  /-- Redis removes a key whose time is over. -/
  | expire (key : String)
  | createOrReuse (i : Nat) (session : BccCheckoutSession)
  | findTokenByPayment (i : Nat) (kindergartenId paymentId : Uuid)
  | consume (i : Nat) (token : String)
  /-- Redis runs the next command of a call, and the call goes on with the answer. -/
  | exec (i : Nat) (draw : Draw)
  /-- Redis runs it, and the answer is lost. -/
  | lose (i : Nat) (draw : Draw)
  /-- The call is cut off. -/
  | fail (i : Nat)

namespace State

variable {B : Type} (env : Env B) (σ : State B)

def goOn (i : Nat) (call : Option Call) : State B := { σ with calls := Function.update σ.calls i call }

/-- One command. -/
def perform (draw : Draw) : Call → State B × Next
  | .createOrReuse session attempt =>
      match createOrReuseScript σ.redis draw.1 (paymentKey session.kindergartenId session.paymentId)
          (env.cipher.encryptString draw.2 session) env.ttl with
      | (redis, .reused token) =>
          ({ σ with redis := redis },
            .answer (.handle session.kindergartenId session.paymentId token env.ttl.seconds))
      | (redis, .created) =>
          ({ σ with redis := redis, stored := (draw.1, session) :: σ.stored },
            .answer (.handle session.kindergartenId session.paymentId draw.1 env.ttl.seconds))
      | (redis, .taken) =>
          ({ σ with redis := redis },
            if attempt + 1 < 3 then .goOn (.createOrReuse session (attempt + 1)) else .answer .failed)
  | .find kindergartenId paymentId =>
      match tokenAt σ.redis (paymentKey kindergartenId paymentId) with
      | some token => (σ, .goOn (.look kindergartenId paymentId token))
      | none => (σ, .answer .noToken)
  | .look kindergartenId paymentId token =>
      if σ.redis.has (sessionKey token) then (σ, .answer (.found kindergartenId paymentId token))
      else (σ, .goOn (.clean kindergartenId paymentId token))
  | .clean kindergartenId paymentId token =>
      ({ σ with redis := deleteReverseIfMatches σ.redis (paymentKey kindergartenId paymentId) token },
        .answer .noToken)
  | .consume token =>
      match σ.redis.getdel (sessionKey token) with
      | (redis, some (.sealed encrypted)) =>
          match env.cipher.decryptString encrypted with
          | some session => ({ σ with redis := redis }, .goOn (.release token session))
          | none => ({ σ with redis := redis }, .answer .noSession)
      | (redis, _) => ({ σ with redis := redis }, .answer .noSession)
  | .release token session =>
      ({ σ with redis := deleteReverseIfMatches σ.redis (paymentKey session.kindergartenId session.paymentId) token },
        .answer (.returned token session))

def proceed (i : Nat) : Next → State B
  | .goOn call => σ.goOn i (some call)
  | .answer answer => { σ.goOn i none with answers := answer :: σ.answers }

def start (i : Nat) (call : Call) : Option (State B) :=
  if (σ.calls i).isNone then some (σ.goOn i (some call)) else none

/-- `none` where the event cannot happen. -/
def step : Event → Option (State B)
  | .elapse ms => some { σ with redis := σ.redis.pass ms }
  | .expire key => some { σ with redis := σ.redis.expire key }
  | .createOrReuse i session => σ.start i (.createOrReuse session 0)
  | .findTokenByPayment i kindergartenId paymentId => σ.start i (.find kindergartenId paymentId)
  | .consume i token =>
      if h : isCheckoutToken token = true then σ.start i (.consume ⟨token, h⟩)
      else some { σ with answers := .noSession :: σ.answers }
  | .exec i draw => (σ.calls i).map fun call => (σ.perform env draw call).1.proceed i (σ.perform env draw call).2
  | .lose i draw => (σ.calls i).map fun call => (σ.perform env draw call).1.goOn i none
  | .fail i => (σ.calls i).map fun _ => σ.goOn i none

def run : State B → List Event → Option (State B)
  | σ, [] => some σ
  | σ, e :: events => (σ.step env e).bind fun σ' => run σ' events

def boot (now : Nat) : State B := ⟨.empty now, fun _ => none, [], []⟩

end State

end Checkouts
