import Mathlib.Logic.Function.Basic
import Shyraq.Transactions.Table

/-!
# NotificationGateway

One api process: its sockets, their handshakes between one `await` and the next, the index by `jti`, and the blocklist in
Redis with the events that are published after it.  Whoever holds a token has it from this server.
-/

namespace Websocket

open Transactions

/-- `VerifiedAccessClaims` and the signature they came with. -/
structure Token where
  jti : Option Nat
  /-- Unix seconds. -/
  exp : Option Int
  /-- Signed by this server, with a subject and a role. -/
  genuine : Bool
  deriving DecidableEq

/-- `verifyAccessToken` does not throw. -/
def verifyAccessToken (now : Int) (token : Token) : Bool :=
  token.genuine && token.exp.all fun exp => decide (now / 1000 < exp)

/-- Where `handleConnection` is. -/
inductive Handshake
  | verifying
  /-- The blocklist has been asked. -/
  | checking
  /-- Its answer is on the way. -/
  | checked (revoked : Bool)
  /-- Rooms are being looked up and joined. -/
  | subscribing
  | finished
  deriving DecidableEq

structure Socket where
  id : Nat
  token : Option Token
  connected : Bool
  /-- `client.data.jti`. -/
  jti : Option Nat
  expiryTimer : Option Int
  rooms : List String
  handshake : Handshake
  deriving DecidableEq

instance : Row Socket := ⟨Socket.id⟩

/-- The `jti` of the token it has come with. -/
def Socket.ownJti (client : Socket) : Option Nat := client.token.bind Token.jti

def Socket.exp (client : Socket) : Option Int := client.token.bind Token.exp

def Socket.hangUp (client : Socket) : Socket := { client with connected := false }

/-- `clearTimeout`. -/
def Socket.clearTimer (client : Socket) : Socket := { client with expiryTimer := none }

def Socket.goOn (handshake : Handshake) (client : Socket) : Socket := { client with handshake := handshake }

/-- The fields of `client.data`. -/
def Socket.stash (client : Socket) : Socket := { client with jti := client.ownJti, handshake := .subscribing }

def Socket.join (room : String) (client : Socket) : Socket := { client with rooms := client.rooms ++ [room] }

def Socket.startTimer (at_ : Int) (client : Socket) : Socket := { client with expiryTimer := some at_ }

structure State where
  /-- Milliseconds. -/
  now : Int
  /-- When the key of a `jti` expires. -/
  blocklist : Nat → Option Int
  /-- Revocations that were published and have not arrived. -/
  published : List Nat
  /-- Revocations that have been handled. -/
  handled : List Nat
  sockets : List Socket
  socketsByJti : Nat → Option (List Nat)

def socketTtlCapMs : Int := 24 * 60 * 60 * 1000

namespace State

variable (σ : State)

def socket (i : Nat) : Option Socket := Table.find σ.sockets i

def on (i : Nat) (f : Socket → Socket) : State := { σ with sockets := Table.updateWhere σ.sockets i (fun _ => true) f }

/-! ## The index -/

def getSocketsByJti (jti : Nat) : List Nat := (σ.socketsByJti jti).getD []

def indexSocketByJti (i jti : Nat) : State :=
  let set := (σ.socketsByJti jti).getD []
  { σ with socketsByJti := Function.update σ.socketsByJti jti (some (if i ∈ set then set else set ++ [i])) }

/-- An empty set is dropped. -/
def unindexSocketByJti (i jti : Nat) : State :=
  match σ.socketsByJti jti with
  | none => σ
  | some set =>
      let rest := set.filter fun j => j != i
      { σ with socketsByJti := Function.update σ.socketsByJti jti (if rest.isEmpty then none else some rest) }

/-! ## Disconnecting -/

def handleDisconnect (client : Socket) : State :=
  let σ := σ.on client.id Socket.clearTimer
  match client.jti with
  | some jti => σ.unindexSocketByJti client.id jti
  | none => σ

/-- `socket.disconnect(true)`, or the client's end of it.  Of a socket that is gone it does nothing. -/
def disconnect (i : Nat) : State :=
  match σ.socket i with
  | some client =>
      if client.connected then (σ.on i Socket.hangUp).handleDisconnect client else σ
  | none => σ

/-- After which `handleConnection` returns. -/
def rejectAndDisconnect (i : Nat) : State := (σ.disconnect i).on i (Socket.goOn .finished)

def revokeJti (jti : Nat) : State := (σ.getSocketsByJti jti).foldl disconnect σ

/-! ## The handshake -/

def handleConnection (i : Nat) (token : Option Token) : State :=
  let σ := { σ with sockets := σ.sockets ++ [⟨i, token, true, none, none, [], .verifying⟩] }
  match token with
  | some _ => σ
  | none => σ.rejectAndDisconnect i

def verified (client : Socket) : State :=
  if client.token.any (verifyAccessToken σ.now) then
    σ.on client.id (if client.ownJti.isSome then Socket.goOn .checking else Socket.stash)
  else σ.rejectAndDisconnect client.id

def isBlocked (jti : Nat) : Bool := (σ.blocklist jti).any fun expires => decide (σ.now < expires)

def scheduleExpiryDisconnect (i : Nat) (expUnix : Option Int) : State :=
  match expUnix with
  | none => σ.disconnect i
  | some exp =>
      let msUntilExpiry := exp * 1000 - σ.now
      if msUntilExpiry ≤ 0 then σ.disconnect i
      else σ.on i (Socket.startTimer (σ.now + min msUntilExpiry socketTtlCapMs))

/-- From the last room on nothing is awaited. -/
def subscribed (client : Socket) : State :=
  let σ := σ.scheduleExpiryDisconnect client.id client.exp
  let σ := match client.ownJti with
    | some jti => σ.indexSocketByJti client.id jti
    | none => σ
  σ.on client.id (Socket.goOn .finished)

end State

/-! ## Events -/

inductive Event
  | elapse (ms : Nat)
  | connect (i : Nat) (token : Option Token)
  | verify (i : Nat)
  /-- Redis answers `isBlocked`. -/
  | readBlocklist (i : Nat)
  /-- The answer arrives. -/
  | resume (i : Nat)
  | join (i : Nat) (room : String)
  | subscribe (i : Nat)
  /-- What is awaited throws. -/
  | fail (i : Nat)
  | clientDisconnect (i : Nat)
  | timer (i : Nat)
  /-- `SET … EX`, and the event is published. -/
  | blocklist (jti : Nat) (expUnix : Int)
  | handleRevocation (jti : Nat)
  deriving DecidableEq

/-- The key lives as long as the token is said to, one second at least. -/
def blocklistExpiry (now expUnix : Int) : Int := now + 1000 * max 1 (expUnix - now / 1000)

namespace State

variable (σ : State)

/-- What happens at a socket. -/
def stepSocket (client : Socket) : Event → Option State
  | .verify _ => if client.handshake = .verifying then some (σ.verified client) else none
  | .readBlocklist _ =>
      if client.handshake = .checking then
        some (σ.on client.id (Socket.goOn (.checked (client.ownJti.any σ.isBlocked))))
      else none
  | .resume _ =>
      match client.handshake with
      | .checked true => some (σ.rejectAndDisconnect client.id)
      | .checked false => some (σ.on client.id Socket.stash)
      | _ => none
  | .join _ room =>
      if client.handshake = .subscribing then some (σ.on client.id (Socket.join room)) else none
  | .subscribe _ => if client.handshake = .subscribing then some (σ.subscribed client) else none
  | .fail _ =>
      match client.handshake with
      | .checking | .subscribing => some (σ.rejectAndDisconnect client.id)
      | _ => none
  | .clientDisconnect _ => some (σ.disconnect client.id)
  | .timer _ =>
      if client.expiryTimer.any fun at_ => decide (at_ ≤ σ.now) then
        some ((σ.on client.id Socket.clearTimer).disconnect client.id)
      else none
  | _ => none

/-- `none` where the event cannot happen. -/
def step (e : Event) : Option State :=
  match e with
  | .elapse ms => some { σ with now := σ.now + ms }
  | .connect i token => if (σ.socket i).isNone then some (σ.handleConnection i token) else none
  | .blocklist jti expUnix => some { σ with
      blocklist := Function.update σ.blocklist jti (some (blocklistExpiry σ.now expUnix))
      published := jti :: σ.published }
  | .handleRevocation jti =>
      if jti ∈ σ.published then
        some { (σ.revokeJti jti) with published := σ.published.erase jti, handled := jti :: σ.handled }
      else none
  | .verify i | .readBlocklist i | .resume i | .join i _ | .subscribe i | .fail i | .clientDisconnect i | .timer i =>
      (σ.socket i).bind fun client => σ.stepSocket client e

def run : State → List Event → Option State
  | σ, [] => some σ
  | σ, e :: events => (σ.step e).bind fun σ' => run σ' events

/-- The process has just started. -/
def boot (now : Int) (blocklist : Nat → Option Int) : State := ⟨now, blocklist, [], [], [], fun _ => none⟩

end State

end Websocket
