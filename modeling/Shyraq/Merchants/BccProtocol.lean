import Mathlib.Data.NNRat.Defs
import Shyraq.Kernel.Digits
import Shyraq.Kernel.Frames
import Shyraq.Kernel.MoneyKzt

/-!
# The signed BCC requests

`bcc-crypto` and the builders of `bcc-protocol`.  The fields of a form are a function of their names.  HMAC-SHA1 is a
parameter: the hexadecimal digest of a text under a key.
-/

namespace Bcc

open Kernel

abbrev Text := List Char

inductive BccMacFieldName
  | amount | currency | order | merchant | terminal | merchGmt | timestamp | trtype | nonce | orgAmount | rrn | intRef
  deriving DecidableEq, Repr

namespace BccMacFieldName

def text : BccMacFieldName → String
  | amount => "AMOUNT"
  | currency => "CURRENCY"
  | order => "ORDER"
  | merchant => "MERCHANT"
  | terminal => "TERMINAL"
  | merchGmt => "MERCH_GMT"
  | timestamp => "TIMESTAMP"
  | trtype => "TRTYPE"
  | nonce => "NONCE"
  | orgAmount => "ORG_AMOUNT"
  | rrn => "RRN"
  | intRef => "INT_REF"

end BccMacFieldName

/-- `Partial<Record<BccMacFieldName, string>>`. -/
abbrev BccMacFields := BccMacFieldName → Option Text

inductive BccSignedTrType
  | purchase | refund | status
  deriving DecidableEq, Repr

namespace BccSignedTrType

def text : BccSignedTrType → Text
  | purchase => ['1']
  | refund => ['1', '4']
  | status => ['9', '0']

end BccSignedTrType

/-- `MAC_FIELD_ORDER`. -/
def macFieldOrder : BccSignedTrType → List BccMacFieldName
  | .purchase => [.amount, .currency, .order, .merchant, .terminal, .merchGmt, .timestamp, .trtype, .nonce]
  | .refund => [.order, .orgAmount, .amount, .currency, .rrn, .intRef, .terminal, .timestamp, .trtype, .nonce]
  | .status => [.order, .terminal, .timestamp, .trtype, .nonce]

/-! ## Patterns -/

/-- One character of `[\x20-\x7E]`. -/
def isAscii (c : Char) : Bool := decide (32 ≤ c.toNat) && decide (c.toNat ≤ 126)

/-- One character of `[0-9A-Fa-f]`. -/
def isHex (c : Char) : Bool := c.isDigit || "ABCDEFabcdef".toList.contains c

/-- `text.trim() === ''`. -/
def isBlank (text : Text) : Bool := text.all isWhitespace

def isOrder (text : Text) : Bool := text.all Char.isDigit && decide (7 ≤ text.length) && decide (text.length ≤ 32)
def isTimestamp (text : Text) : Bool := text.all Char.isDigit && decide (text.length = 14)
def isNonce (text : Text) : Bool := text.all isHex && decide (16 ≤ text.length) && decide (text.length ≤ 64)
def isCurrency (text : Text) : Bool := text.all Char.isDigit && decide (text.length = 3)
def isMerchRnId (text : Text) : Bool := text.all Char.isAlphanum && decide (text.length = 16)

/-! ## `bcc-crypto` -/

/-- `if (!ok) throw new Error(message)`. -/
def assert (ok : Bool) (message : String) : Except String Unit := if ok then .ok () else .error message

def requiredAsciiField (fields : BccMacFields) (name : BccMacFieldName) : Except String Text := do
  let value := (fields name).getD []
  assert (!value.isEmpty) ("bcc_mac_field_required:" ++ name.text)
  assert (value.all isAscii) ("bcc_mac_field_non_ascii:" ++ name.text)
  pure value

def buildBccMacSource (trType : BccSignedTrType) (fields : BccMacFields) : Except String Text := do
  assert (fields .trtype == some trType.text) "bcc_mac_trtype_mismatch"
  let values ← (macFieldOrder trType).mapM (requiredAsciiField fields)
  pure (frames values)

/-- Over the HMAC-SHA1 digest, in capitals. -/
def computeBccPSign (hmac : Text → Text → Text) (trType : BccSignedTrType) (fields : BccMacFields) (macKeyHex : Text) :
    Except String Text := do
  assert (macKeyHex.length == 32 && macKeyHex.all isHex) "bcc_mac_key_invalid"
  let source ← buildBccMacSource trType fields
  pure ((hmac macKeyHex source).map Char.toUpper)

/-- What `new Decimal(value)` makes of a value. -/
inductive DecimalValue
  /-- The constructor throws. -/
  | malformed
  | nan
  | infinite (negative : Bool)
  /-- A zero has a sign too. -/
  | finite (negative : Bool) (abs : ℚ≥0)

/-- `toFixed(2)` of an amount that is not negative, in hundredths. -/
def fixedText (hundredths : Nat) : Text :=
  Nat.toDigits 10 (hundredths / 100) ++ '.' :: padStart 10 2 (hundredths % 100)

def formatBccAmount : DecimalValue → Except String Text
  | .finite false abs => .ok (fixedText (roundHalfEven (abs * 100)).toNat)
  | _ => .error "bcc_amount_invalid"

/-! ## `bcc-protocol` -/

inductive BccFormField
  | mac (name : BccMacFieldName)
  | merchRnId | desc | backref | lang | notifyUrl | clientIp | mInfo | pSign | merchName | tranTrtype
  deriving DecidableEq, Repr

/-- `Record<string, string>`. -/
abbrev BccFormFields := BccFormField → Option Text

inductive BccLanguage
  | ru | kk | en
  deriving DecidableEq, Repr

def BccLanguage.text : BccLanguage → Text
  | ru => ['r', 'u']
  | kk => ['k', 'k']
  | en => ['e', 'n']

structure BccPurchaseRequestInput where
  amount : DecimalValue
  currency : Option Text
  order : Text
  merchRnId : Text
  description : Text
  merchantId : Text
  merchantName : Option Text
  terminalId : Text
  timestamp : Text
  nonce : Text
  macKeyHex : Text
  backref : Text
  language : BccLanguage
  notifyUrl : Text
  clientIp : Text
  mInfo : Text

structure BccRefundRequestInput where
  order : Text
  originalAmount : DecimalValue
  amount : DecimalValue
  currency : Option Text
  rrn : Text
  intRef : Text
  terminalId : Text
  timestamp : Text
  nonce : Text
  macKeyHex : Text
  notifyUrl : Option Text

structure BccStatusRequestInput where
  order : Text
  terminalId : Text
  timestamp : Text
  nonce : Text
  macKeyHex : Text
  notifyUrl : Text
  /-- `'1' | '14'`. -/
  transactionType : Option BccSignedTrType

def assertOrder (order : Text) : Except String Unit := assert (isOrder order) "bcc_request_order_invalid"

def assertTimestamp (timestamp : Text) : Except String Unit :=
  assert (isTimestamp timestamp) "bcc_request_timestamp_invalid"

def assertNonce (nonce : Text) : Except String Unit := assert (isNonce nonce) "bcc_request_nonce_invalid"

def assertMerchRnId (merchRnId : Text) : Except String Unit :=
  assert (isMerchRnId merchRnId) "bcc_request_merch_rn_id_invalid"

def requireNonEmpty (field : String) (value : Text) : Except String Unit :=
  assert (!isBlank value) ("bcc_request_field_required:" ++ field)

def normalizeCurrency (currency : Option Text) : Except String Text := do
  let currency := currency.getD ['3', '9', '8']
  assert (isCurrency currency) "bcc_request_currency_invalid"
  pure currency

def purchaseFields (input : BccPurchaseRequestInput) (amount currency : Text) : BccMacFields
  | .amount => some amount
  | .currency => some currency
  | .order => some input.order
  | .merchant => some input.merchantId
  | .terminal => some input.terminalId
  | .merchGmt => some ['0']
  | .timestamp => some input.timestamp
  | .trtype => some ['1']
  | .nonce => some input.nonce
  | _ => none

def purchaseForm (input : BccPurchaseRequestInput) (signed : BccMacFields) (pSign : Text) : BccFormFields
  | .mac name => signed name
  | .merchRnId => some input.merchRnId
  | .desc => some input.description
  | .backref => some input.backref
  | .lang => some input.language.text
  | .notifyUrl => some input.notifyUrl
  | .clientIp => some input.clientIp
  | .mInfo => some input.mInfo
  | .pSign => some pSign
  | .merchName => input.merchantName.filter fun name => !name.isEmpty
  | _ => none

def buildBccPurchaseRequest (hmac : Text → Text → Text) (input : BccPurchaseRequestInput) :
    Except String BccFormFields := do
  assertOrder input.order
  assertTimestamp input.timestamp
  assertNonce input.nonce
  assertMerchRnId input.merchRnId
  requireNonEmpty "DESC" input.description
  requireNonEmpty "MERCHANT" input.merchantId
  requireNonEmpty "TERMINAL" input.terminalId
  requireNonEmpty "BACKREF" input.backref
  requireNonEmpty "NOTIFY_URL" input.notifyUrl
  requireNonEmpty "CLIENT_IP" input.clientIp
  requireNonEmpty "M_INFO" input.mInfo
  let amount ← formatBccAmount input.amount
  let currency ← normalizeCurrency input.currency
  let signedFields := purchaseFields input amount currency
  let pSign ← computeBccPSign hmac .purchase signedFields input.macKeyHex
  pure (purchaseForm input signedFields pSign)

def refundFields (input : BccRefundRequestInput) (originalAmount amount currency : Text) : BccMacFields
  | .order => some input.order
  | .orgAmount => some originalAmount
  | .amount => some amount
  | .currency => some currency
  | .rrn => some input.rrn
  | .intRef => some input.intRef
  | .terminal => some input.terminalId
  | .timestamp => some input.timestamp
  | .trtype => some ['1', '4']
  | .nonce => some input.nonce
  | _ => none

def refundForm (input : BccRefundRequestInput) (signed : BccMacFields) (pSign : Text) : BccFormFields
  | .mac name => signed name
  | .pSign => some pSign
  | .notifyUrl => input.notifyUrl.filter fun url => !url.isEmpty
  | _ => none

def buildBccRefundRequest (hmac : Text → Text → Text) (input : BccRefundRequestInput) :
    Except String BccFormFields := do
  assertOrder input.order
  assertTimestamp input.timestamp
  assertNonce input.nonce
  requireNonEmpty "RRN" input.rrn
  requireNonEmpty "INT_REF" input.intRef
  requireNonEmpty "TERMINAL" input.terminalId
  let originalAmount ← formatBccAmount input.originalAmount
  let amount ← formatBccAmount input.amount
  let currency ← normalizeCurrency input.currency
  let signedFields := refundFields input originalAmount amount currency
  let pSign ← computeBccPSign hmac .refund signedFields input.macKeyHex
  pure (refundForm input signedFields pSign)

def statusFields (input : BccStatusRequestInput) : BccMacFields
  | .order => some input.order
  | .terminal => some input.terminalId
  | .timestamp => some input.timestamp
  | .trtype => some ['9', '0']
  | .nonce => some input.nonce
  | _ => none

def statusForm (input : BccStatusRequestInput) (signed : BccMacFields) (pSign : Text) : BccFormFields
  | .mac .merchGmt => some ['0']
  | .mac name => signed name
  | .tranTrtype => some (input.transactionType.getD .purchase).text
  | .notifyUrl => some input.notifyUrl
  | .pSign => some pSign
  | _ => none

def buildBccStatusRequest (hmac : Text → Text → Text) (input : BccStatusRequestInput) :
    Except String BccFormFields := do
  assertOrder input.order
  assertTimestamp input.timestamp
  assertNonce input.nonce
  requireNonEmpty "TERMINAL" input.terminalId
  requireNonEmpty "NOTIFY_URL" input.notifyUrl
  let signedFields := statusFields input
  let pSign ← computeBccPSign hmac .status signedFields input.macKeyHex
  pure (statusForm input signedFields pSign)

/-! ## What was checked -/

section

variable {A B : Type} {x : Except String A} {f : A → Except String B} {b : B}

theorem ok_of_bind (h : (x >>= f) = .ok b) : ∃ a, x = .ok a ∧ f a = .ok b := by
  cases x with
  | ok a => exact ⟨a, rfl, h⟩
  | error e => cases h

theorem of_assert {ok : Bool} {message : String} {g : Unit → Except String B} (h : (assert ok message >>= g) = .ok b) :
    ok = true ∧ g () = .ok b := by
  cases ok with
  | true => exact ⟨rfl, h⟩
  | false => cases h

/-- The source is made of the values that the fields have, in the order of the type. -/
theorem values_of_mapM {fields : BccMacFields} {names : List BccMacFieldName} {values : List Text}
    (h : names.mapM (requiredAsciiField fields) = .ok values) : values = names.map fun name => (fields name).getD [] := by
  induction names generalizing values with
  | nil =>
    cases h
    rfl
  | cons name names ih =>
    rw [List.mapM_cons] at h
    obtain ⟨v, hv, h⟩ := ok_of_bind h
    obtain ⟨vs, hvs, h⟩ := ok_of_bind h
    cases h
    unfold requiredAsciiField at hv
    obtain ⟨-, hv⟩ := of_assert hv
    obtain ⟨-, hv⟩ := of_assert hv
    cases hv
    rw [ih hvs, List.map_cons]

theorem buildBccMacSource_ok {trType : BccSignedTrType} {fields : BccMacFields} {source : Text}
    (h : buildBccMacSource trType fields = .ok source) :
    source = frames ((macFieldOrder trType).map fun name => (fields name).getD []) := by
  unfold buildBccMacSource at h
  obtain ⟨-, h⟩ := of_assert h
  obtain ⟨values, hvalues, h⟩ := ok_of_bind h
  cases h
  rw [values_of_mapM hvalues]

theorem computeBccPSign_ok {hmac : Text → Text → Text} {trType : BccSignedTrType} {fields : BccMacFields}
    {macKeyHex pSign : Text} (h : computeBccPSign hmac trType fields macKeyHex = .ok pSign) :
    ∃ source, buildBccMacSource trType fields = .ok source ∧ pSign = (hmac macKeyHex source).map Char.toUpper := by
  unfold computeBccPSign at h
  obtain ⟨-, h⟩ := of_assert h
  obtain ⟨source, hsource, h⟩ := ok_of_bind h
  cases h
  exact ⟨source, hsource, rfl⟩

end

theorem marked_of_formatBccAmount {value : DecimalValue} {text : Text} (h : formatBccAmount value = .ok text) :
    Marked '.' 2 text := by
  cases value with
  | finite negative abs =>
    cases negative with
    | true => cases h
    | false =>
      obtain rfl := Except.ok.inj h
      exact ⟨_, _, rfl, all_isDigit_toDigits _, rfl⟩
  | malformed => cases h
  | nan => cases h
  | infinite negative => cases h

end Bcc
