import Shyraq.Merchants.BccProtocol

/-!
# Which request a MAC is for

The MAC is over the signed fields, each after its length.  A purchase is told from a status request by the dot of its
amount, and two requests of one type by the classes their fields are checked for: the frames of each are read in one
way only.
-/

namespace Bcc

open Kernel

/-- The requests that this system signs and sends on its own. -/
inductive BccRequest
  | purchase (input : BccPurchaseRequestInput)
  | status (input : BccStatusRequestInput)

namespace BccRequest

def trType : BccRequest → BccSignedTrType
  | purchase _ => .purchase
  | status _ => .status

def build (hmac : Text → Text → Text) : BccRequest → Except String BccFormFields
  | purchase input => buildBccPurchaseRequest hmac input
  | status input => buildBccStatusRequest hmac input

/-- The merchant and the terminal it is sent for; a status request names no merchant. -/
def IssuedBy (merchant terminal : Text) : BccRequest → Prop
  | purchase input => input.merchantId = merchant ∧ input.terminalId = terminal
  | status input => input.terminalId = terminal

def macKeyHex : BccRequest → Text
  | purchase input => input.macKeyHex
  | status input => input.macKeyHex

end BccRequest

/-- The MAC source of a form, from the fields it names. -/
def macSource (trType : BccSignedTrType) (form : BccFormFields) : Except String Text :=
  buildBccMacSource trType fun name => form (.mac name)

/-- What each signed field of the type is checked for. -/
def fieldClasses (merchant terminal : Text) : BccSignedTrType → List (Text → Prop)
  | .purchase => [Marked '.' 2, fun v => isCurrency v = true, fun v => isOrder v = true, fun v => v = merchant,
      fun v => v = terminal, fun v => v = ['0'], fun v => isTimestamp v = true, fun v => v = ['1'],
      fun v => isNonce v = true]
  | .refund => []
  | .status => [fun v => isOrder v = true, fun v => v = terminal, fun v => isTimestamp v = true,
      fun v => v = ['9', '0'], fun v => isNonce v = true]

/-! ## The classes are delimited -/

theorem prefixFree_of_decide {a b : Nat} (h : ∀ n < b, a ≤ n → ∀ m < b, a ≤ m →
    Nat.toDigits 10 n <+: Nat.toDigits 10 m → n = m) : PrefixFree fun n => a ≤ n ∧ n < b :=
  fun n m hn hm => h n hn.2 hn.1 m hm.2 hm.1

theorem delimited_order : Delimited fun v => isOrder v = true := by
  refine (delimited_of_prefixFree (prefixFree_of_decide (a := 7) (b := 33) (by decide))).mono fun v hv => ?_
  unfold isOrder at hv
  simp only [Bool.and_eq_true, decide_eq_true_eq] at hv
  omega

theorem delimited_nonce : Delimited fun v => isNonce v = true := by
  refine (delimited_of_prefixFree (prefixFree_of_decide (a := 16) (b := 65) (by decide +kernel))).mono fun v hv => ?_
  unfold isNonce at hv
  simp only [Bool.and_eq_true, decide_eq_true_eq] at hv
  omega

theorem delimited_timestamp : Delimited fun v => isTimestamp v = true := by
  refine (delimited_length 14).mono fun v hv => ?_
  unfold isTimestamp at hv
  simp only [Bool.and_eq_true, decide_eq_true_eq] at hv
  exact hv.2

theorem delimited_currency : Delimited fun v => isCurrency v = true := by
  refine (delimited_length 3).mono fun v hv => ?_
  unfold isCurrency at hv
  simp only [Bool.and_eq_true, decide_eq_true_eq] at hv
  exact hv.2

theorem delimited_fieldClasses (merchant terminal : Text) (trType : BccSignedTrType) :
    ∀ P ∈ fieldClasses merchant terminal trType, Delimited P := by
  intro P hP
  cases trType with
  | purchase =>
    simp only [fieldClasses, List.mem_cons, List.not_mem_nil, or_false] at hP
    rcases hP with rfl | rfl | rfl | rfl | rfl | rfl | rfl | rfl | rfl
    · exact delimited_marked (by decide) 2
    · exact delimited_currency
    · exact delimited_order
    · exact delimited_eq merchant
    · exact delimited_eq terminal
    · exact delimited_eq _
    · exact delimited_timestamp
    · exact delimited_eq _
    · exact delimited_nonce
  | refund => cases hP
  | status =>
    simp only [fieldClasses, List.mem_cons, List.not_mem_nil, or_false] at hP
    rcases hP with rfl | rfl | rfl | rfl | rfl
    · exact delimited_order
    · exact delimited_eq terminal
    · exact delimited_timestamp
    · exact delimited_eq _
    · exact delimited_nonce

/-! ## What is accepted -/

section

variable {hmac : Text → Text → Text} {merchant terminal : Text} {form : BccFormFields}

/-- The form of an accepted request: its signed values are of their classes, and the digest is over their frames. -/
structure Signed (hmac : Text → Text → Text) (merchant terminal : Text) (r : BccRequest) (form : BccFormFields)
    (values : List Text) : Prop where
  fields : (macFieldOrder r.trType).map (fun name => form (.mac name)) = values.map some
  source : macSource r.trType form = .ok (frames values)
  classes : List.Forall₂ (fun P v => P v) (fieldClasses merchant terminal r.trType) values
  pSign : form .pSign = some ((hmac r.macKeyHex (frames values)).map Char.toUpper)

theorem signed_purchase {input : BccPurchaseRequestInput} (h : buildBccPurchaseRequest hmac input = .ok form)
    (hi : (BccRequest.purchase input).IssuedBy merchant terminal) :
    ∃ values, Signed hmac merchant terminal (.purchase input) form values := by
  unfold buildBccPurchaseRequest at h
  obtain ⟨horder, h⟩ := of_assert h
  obtain ⟨htimestamp, h⟩ := of_assert h
  obtain ⟨hnonce, h⟩ := of_assert h
  obtain ⟨-, h⟩ := of_assert h
  obtain ⟨-, h⟩ := of_assert h
  obtain ⟨-, h⟩ := of_assert h
  obtain ⟨-, h⟩ := of_assert h
  obtain ⟨-, h⟩ := of_assert h
  obtain ⟨-, h⟩ := of_assert h
  obtain ⟨-, h⟩ := of_assert h
  obtain ⟨-, h⟩ := of_assert h
  obtain ⟨amount, hamount, h⟩ := ok_of_bind h
  obtain ⟨currency, hcurrency, h⟩ := ok_of_bind h
  obtain ⟨pSign, hpSign, h⟩ := ok_of_bind h
  cases h
  obtain ⟨hthree, he⟩ := of_assert hcurrency
  cases he
  obtain ⟨source, hsource, rfl⟩ := computeBccPSign_ok hpSign
  obtain rfl := buildBccMacSource_ok hsource
  obtain ⟨hmerchant, hterminal⟩ := hi
  refine ⟨_, rfl, hsource, ?_, rfl⟩
  exact .cons (marked_of_formatBccAmount hamount) (.cons hthree (.cons horder (.cons hmerchant (.cons hterminal
    (.cons rfl (.cons htimestamp (.cons rfl (.cons hnonce .nil))))))))

theorem signed_status {input : BccStatusRequestInput} (h : buildBccStatusRequest hmac input = .ok form)
    (hi : (BccRequest.status input).IssuedBy merchant terminal) :
    ∃ values, Signed hmac merchant terminal (.status input) form values := by
  unfold buildBccStatusRequest at h
  obtain ⟨horder, h⟩ := of_assert h
  obtain ⟨htimestamp, h⟩ := of_assert h
  obtain ⟨hnonce, h⟩ := of_assert h
  obtain ⟨-, h⟩ := of_assert h
  obtain ⟨-, h⟩ := of_assert h
  obtain ⟨pSign, hpSign, h⟩ := ok_of_bind h
  cases h
  obtain ⟨source, hsource, rfl⟩ := computeBccPSign_ok hpSign
  obtain rfl := buildBccMacSource_ok hsource
  refine ⟨_, rfl, hsource, ?_, rfl⟩
  exact .cons horder (.cons hi (.cons htimestamp (.cons rfl (.cons hnonce .nil))))

theorem signed_of_build {r : BccRequest} (h : r.build hmac = .ok form) (hi : r.IssuedBy merchant terminal) :
    ∃ values, Signed hmac merchant terminal r form values := by
  cases r with
  | purchase input => exact signed_purchase h hi
  | status input => exact signed_status h hi

/-! ## The dot of the amount -/

theorem count_dot_of_digits {v : Text} (h : v.all Char.isDigit = true) : v.count '.' = 0 := by
  rw [List.count_eq_zero]
  intro hdot
  exact absurd (List.all_eq_true.1 h _ hdot) (by decide)

theorem count_dot_of_nonce {v : Text} (h : isNonce v = true) : v.count '.' = 0 := by
  unfold isNonce at h
  simp only [Bool.and_eq_true] at h
  rw [List.count_eq_zero]
  intro hdot
  exact absurd (List.all_eq_true.1 h.1.1 _ hdot) (by decide +kernel)

theorem all_isDigit_of_order {v : Text} (h : isOrder v = true) : v.all Char.isDigit = true := by
  unfold isOrder at h
  simp only [Bool.and_eq_true] at h
  exact h.1.1

theorem all_isDigit_of_timestamp {v : Text} (h : isTimestamp v = true) : v.all Char.isDigit = true := by
  unfold isTimestamp at h
  simp only [Bool.and_eq_true] at h
  exact h.1

theorem count_dot_status {values : List Text}
    (h : List.Forall₂ (fun P v => P v) (fieldClasses merchant terminal .status) values) :
    (frames values).count '.' = terminal.count '.' := by
  rw [count_frames (by decide)]
  obtain ⟨order, _, horder, h₁, rfl⟩ := List.forall₂_cons_left_iff.1 h
  obtain ⟨_, _, rfl, h₂, rfl⟩ := List.forall₂_cons_left_iff.1 h₁
  obtain ⟨timestamp, _, htimestamp, h₃, rfl⟩ := List.forall₂_cons_left_iff.1 h₂
  obtain ⟨_, _, rfl, h₄, rfl⟩ := List.forall₂_cons_left_iff.1 h₃
  obtain ⟨nonce, _, hnonce, h₅, rfl⟩ := List.forall₂_cons_left_iff.1 h₄
  cases h₅
  simp [count_dot_of_digits (all_isDigit_of_order horder), count_dot_of_digits (all_isDigit_of_timestamp htimestamp),
    count_dot_of_nonce hnonce]

theorem lt_count_dot_purchase {values : List Text}
    (h : List.Forall₂ (fun P v => P v) (fieldClasses merchant terminal .purchase) values) :
    terminal.count '.' < (frames values).count '.' := by
  rw [count_frames (by decide)]
  obtain ⟨amount, _, ⟨digits, rest, rfl, -, -⟩, h₁, rfl⟩ := List.forall₂_cons_left_iff.1 h
  obtain ⟨_, _, -, h₂, rfl⟩ := List.forall₂_cons_left_iff.1 h₁
  obtain ⟨_, _, -, h₃, rfl⟩ := List.forall₂_cons_left_iff.1 h₂
  obtain ⟨_, _, -, h₄, rfl⟩ := List.forall₂_cons_left_iff.1 h₃
  obtain ⟨_, _, rfl, h₅, rfl⟩ := List.forall₂_cons_left_iff.1 h₄
  simp only [List.map_cons, List.sum_cons, List.count_append, List.count_cons_self]
  omega

/-! ## One request for a source -/

/-- For one merchant and terminal, the MAC source tells the type and every signed field. -/
theorem macSource_injective {r r' : BccRequest} {form form' : BccFormFields} (hr : r.build hmac = .ok form)
    (hr' : r'.build hmac = .ok form') (hi : r.IssuedBy merchant terminal) (hi' : r'.IssuedBy merchant terminal)
    (h : macSource r.trType form = macSource r'.trType form') :
    r.trType = r'.trType ∧ ∀ name ∈ macFieldOrder r.trType, form (.mac name) = form' (.mac name) := by
  obtain ⟨values, hs⟩ := signed_of_build hr hi
  obtain ⟨values', hs'⟩ := signed_of_build hr' hi'
  have hframes : frames values = frames values' := Except.ok.inj (hs.source.symm.trans (h.trans hs'.source))
  have hclasses := hs.classes
  have hclasses' := hs'.classes
  have htype : r.trType = r'.trType := by
    cases r with
    | purchase input =>
      cases r' with
      | purchase input' => rfl
      | status input' =>
        have hlt := lt_count_dot_purchase hclasses
        rw [hframes, count_dot_status hclasses'] at hlt
        omega
    | status input =>
      cases r' with
      | purchase input' =>
        have hlt := lt_count_dot_purchase hclasses'
        rw [← hframes, count_dot_status hclasses] at hlt
        omega
      | status input' => rfl
  rw [← htype] at hclasses'
  have hvalues := frames_inj (delimited_fieldClasses merchant terminal r.trType) hclasses hclasses' hframes
  have hfields := hs'.fields
  rw [← htype, ← hvalues, ← hs.fields] at hfields
  exact ⟨htype, fun name hname => (List.map_inj_left.1 hfields name hname).symm⟩

end

/-- A purchase over 350 tenge. -/
def samplePurchase (description : Text) : BccRequest :=
  .purchase
    { amount := .finite false 350
      currency := none
      order := "1234567".toList
      merchRnId := "0123456789ABCDEF".toList
      description := description
      merchantId := "M1".toList
      merchantName := none
      terminalId := "T1".toList
      timestamp := "20261001120000".toList
      nonce := "0123456789ABCDEF".toList
      macKeyHex := "00112233445566778899AABBCCDDEEFF".toList
      backref := ['/']
      language := .ru
      notifyUrl := ['/']
      clientIp := ['0']
      mInfo := ['0'] }

/-- The digest of that source under that key. -/
def sampleHmac (_ _ : Text) : Text := "515c452ecd567a9046102980efac04ba1d92c02f".toList

/-- The description is not signed. -/
theorem macSource_injective_descriptions : ∃ form form',
    (samplePurchase ['a']).build sampleHmac = .ok form ∧ (samplePurchase ['b']).build sampleHmac = .ok form' ∧
    ∀ name ∈ macFieldOrder .purchase, form (.mac name) = form' (.mac name) := by
  have hrun : (((samplePurchase ['a']).build sampleHmac).toOption.bind fun form =>
      ((samplePurchase ['b']).build sampleHmac).toOption.bind fun form' =>
        if macSource .purchase form = macSource .purchase form' then some () else none).isSome = true := by
    decide +kernel
  cases hform : (samplePurchase ['a']).build sampleHmac with
  | error e =>
    rw [hform] at hrun
    cases hrun
  | ok form =>
    cases hform' : (samplePurchase ['b']).build sampleHmac with
    | error e =>
      rw [hform, hform'] at hrun
      cases hrun
    | ok form' =>
      rw [hform, hform'] at hrun
      have hrun : (if macSource .purchase form = macSource .purchase form' then some () else none).isSome = true := hrun
      by_cases hsource : macSource .purchase form = macSource .purchase form'
      · exact ⟨form, form', rfl, rfl, (macSource_injective hform hform' ⟨rfl, rfl⟩ ⟨rfl, rfl⟩ hsource).2⟩
      · rw [if_neg hsource] at hrun
        cases hrun

end Bcc
