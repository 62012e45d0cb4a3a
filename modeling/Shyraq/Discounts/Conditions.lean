import Shyraq.Diagnostics.Schemas

/-!
# Conditions of a custom discount

`validateConditionsSchema` over the raw JSON of the column.  What it answers has only the keys that it has read, and
passes it unchanged.
-/

namespace Discounts

open Diagnostics (Json lookup dateShaped digitsOf)

inductive ConditionsInvalidReason
  | unknownConditionType | invalidConditionField | conditionsDepthLimitExceeded | conditionsWidthLimitExceeded
  | invalidDateFormat | invalidRootShape
  deriving DecidableEq

structure ConditionsInvalid where
  reason : ConditionsInvalidReason
  path : Option String
  deriving DecidableEq

abbrev Checked A := Except ConditionsInvalid A

def maxDepth : Nat := 3
def maxWidth : Nat := 20

inductive LeafType
  | prepaymentMonths | siblingsCount | ageRange | benefitCategory | paymentMethod | earlyPayment | birthdayMonth
  | dateRange | firstInvoice | tariffTypes
  deriving DecidableEq

namespace LeafType

def name : LeafType → String
  | prepaymentMonths => "prepayment_months"
  | siblingsCount => "siblings_count"
  | ageRange => "age_range"
  | benefitCategory => "benefit_category"
  | paymentMethod => "payment_method"
  | earlyPayment => "early_payment"
  | birthdayMonth => "birthday_month"
  | dateRange => "date_range"
  | firstInvoice => "first_invoice"
  | tariffTypes => "tariff_types"

/-- `KNOWN_LEAF_TYPES`. -/
def all : List LeafType :=
  [prepaymentMonths, siblingsCount, ageRange, benefitCategory, paymentMethod, earlyPayment, birthdayMonth, dateRange,
    firstInvoice, tariffTypes]

def ofName (s : String) : Option LeafType := all.find? fun type => type.name == s

end LeafType

def knownComparisonOps : List String := ["gte", "eq"]

def knownBenefitCategories : List String := ["multi_child", "disability", "single_mother", "mother_heroine"]

def knownPaymentMethods : List String := ["kaspi_pay", "halyk_epay", "bcc", "cash", "bank_transfer"]

def knownInvoiceTypes : List String :=
  ["monthly", "prepayment_3m", "prepayment_6m", "prepayment_12m", "prepayment_24m", "additional_service",
    "late_pickup_fee", "other"]

/-! ## One field of a leaf -/

/-- `fieldErr`. -/
def fieldErr (path field : String) : ConditionsInvalid := ⟨.invalidConditionField, some s!"{path}.{field}"⟩

/-- `isFiniteNonNegInt`. -/
def nonNegIntAt (node : List (String × Json)) (path field : String) : Checked ℚ :=
  match lookup node field with
  | some (.num n) => if n.den = 1 ∧ 0 ≤ n then .ok n else .error (fieldErr path field)
  | _ => .error (fieldErr path field)

def oneOfAt (known : List String) (node : List (String × Json)) (path field : String) : Checked String :=
  match lookup node field with
  | some (.str s) => if s ∈ known then .ok s else .error (fieldErr path field)
  | _ => .error (fieldErr path field)

/-- A text out of these. -/
def isKnown (known : List String) : Json → Bool
  | .str s => known.contains s
  | _ => false

def knownListAt (known : List String) (node : List (String × Json)) (path field : String) : Checked (List Json) :=
  match lookup node field with
  | some (.arr items) => if items.all (isKnown known) then .ok items else .error (fieldErr path field)
  | _ => .error (fieldErr path field)

def dateErr (path field : String) : ConditionsInvalid := ⟨.invalidDateFormat, some s!"{path}.{field}"⟩

/-- `ISO_DATE_RE`. -/
def isoDateAt (node : List (String × Json)) (path field : String) : Checked String :=
  match lookup node field with
  | some (.str s) => if dateShaped s then .ok s else .error (dateErr path field)
  | _ => .error (dateErr path field)

/-- `Date.parse` has an answer; it lets every month have 31 days. -/
def dateParses (s : String) : Bool :=
  let month := digitsOf ((s.toList.drop 5).take 2)
  let day := digitsOf (s.toList.drop 8)
  decide (1 ≤ month) && decide (month ≤ 12) && decide (1 ≤ day) && decide (day ≤ 31)

def ensure (c : Bool) (e : ConditionsInvalid) : Checked Unit := if c then .ok () else .error e

/-- `{ type, ...fields }`. -/
def leaf (type : LeafType) (fields : List (String × Json)) : Json := .obj (("type", .str type.name) :: fields)

def validateComparison (type : LeafType) (node : List (String × Json)) (path : String) : Checked Json := do
  let op ← oneOfAt knownComparisonOps node path "op"
  let value ← nonNegIntAt node path "value"
  pure (leaf type [("op", .str op), ("value", .num value)])

def validateMembership (type : LeafType) (known : List String) (node : List (String × Json)) (path : String) :
    Checked Json := do
  let items ← knownListAt known node path "in"
  pure (leaf type [("in", .arr items)])

def validateAgeRange (node : List (String × Json)) (path : String) : Checked Json := do
  let from_months ← nonNegIntAt node path "from_months"
  let to_months ← nonNegIntAt node path "to_months"
  ensure (from_months ≤ to_months) (fieldErr path "from_months")
  pure (leaf .ageRange [("from_months", .num from_months), ("to_months", .num to_months)])

def validateDateRange (node : List (String × Json)) (path : String) : Checked Json := do
  let fromDate ← isoDateAt node path "from"
  let toDate ← isoDateAt node path "to"
  ensure (dateParses fromDate) (dateErr path "from")
  ensure (dateParses toDate) (dateErr path "to")
  pure (leaf .dateRange [("from", .str fromDate), ("to", .str toDate)])

def validateEarlyPayment (node : List (String × Json)) (path : String) : Checked Json := do
  let days ← nonNegIntAt node path "days_before_due"
  pure (leaf .earlyPayment [("days_before_due", .num days)])

def validateLeaf (node : List (String × Json)) (type : LeafType) (path : String) : Checked Json :=
  match type with
  | .prepaymentMonths => validateComparison .prepaymentMonths node path
  | .siblingsCount => validateComparison .siblingsCount node path
  | .ageRange => validateAgeRange node path
  | .benefitCategory => validateMembership .benefitCategory knownBenefitCategories node path
  | .paymentMethod => validateMembership .paymentMethod knownPaymentMethods node path
  | .earlyPayment => validateEarlyPayment node path
  | .birthdayMonth => .ok (leaf .birthdayMonth [])
  | .dateRange => validateDateRange node path
  | .firstInvoice => .ok (leaf .firstInvoice [])
  | .tariffTypes => validateMembership .tariffTypes knownInvoiceTypes node path

/-! ## The tree -/

/-- The key of a composite; `all_of` wins. -/
def childKey (node : List (String × Json)) : Option String :=
  if (lookup node "all_of").isSome then some "all_of"
  else if (lookup node "any_of").isSome then some "any_of"
  else none

/-- `f` for each element with its index; the first throw ends it. -/
def mapIndexed (f : Nat → Json → Checked Json) : Nat → List Json → Checked (List Json)
  | _, [] => .ok []
  | i, v :: vs => do
      let w ← f i v
      let ws ← mapIndexed f (i + 1) vs
      pure (w :: ws)

def leafType (node : List (String × Json)) : Option LeafType :=
  match lookup node "type" with
  | some (.str s) => LeafType.ofName s
  | _ => none

/-- `levels` are left before the depth limit. -/
def validateNode : Nat → Json → String → Checked Json
  | 0, _, path => .error ⟨.conditionsDepthLimitExceeded, some path⟩
  | levels + 1, .obj node, path =>
      match childKey node with
      | some key =>
          match lookup node key with
          | some (.arr children) => do
              ensure (children.length ≤ maxWidth) ⟨.conditionsWidthLimitExceeded, some s!"{path}.{key}"⟩
              let validated ← mapIndexed (fun i child => validateNode levels child s!"{path}.{key}[{i}]") 0 children
              pure (.obj [(key, .arr validated)])
          | _ => .error ⟨.invalidConditionField, some s!"{path}.{key}"⟩
      | none =>
          match leafType node with
          | some type => validateLeaf node type path
          | none => .error ⟨.unknownConditionType, some path⟩
  | _ + 1, _, path => .error ⟨.invalidRootShape, some path⟩

/-- `{}` is always satisfied. -/
def validateConditionsSchema : Json → Checked Json
  | .obj [] => .ok (.obj [])
  | .obj node => validateNode (maxDepth + 1) (.obj node) "$"
  | _ => .error ⟨.invalidRootShape, none⟩

/-! ## What was answered is answered again -/

theorem lookup_cons (k key : String) (v : Json) (rest : List (String × Json)) :
    lookup ((k, v) :: rest) key = if k = key then some v else lookup rest key := by
  unfold lookup
  rw [List.find?_cons]
  by_cases h : k = key
  · rw [if_pos h, show (k == key) = true from beq_iff_eq.2 h]
    rfl
  · rw [if_neg h, show (k == key) = false from beq_eq_false_iff_ne.2 h]

section

variable {A B : Type} {node : List (String × Json)} {path field : String} {c : Json}

theorem bind_ok {a : Checked A} {f : A → Checked B} {b : B} (h : (a >>= f) = .ok b) : ∃ x, a = .ok x ∧ f x = .ok b := by
  cases a with
  | error e => cases h
  | ok x => exact ⟨x, rfl, h⟩

theorem ensure_ok {b : Bool} {e : ConditionsInvalid} {u : Unit} (h : ensure b e = .ok u) : b = true := by
  cases b with
  | false => cases h
  | true => rfl

theorem nonNegIntAt_ok {n : ℚ} :
    nonNegIntAt node path field = .ok n ↔ lookup node field = some (.num n) ∧ n.den = 1 ∧ 0 ≤ n := by
  unfold nonNegIntAt
  constructor
  · intro h
    split at h
    · next m hm =>
      split at h
      · next hint =>
        cases h
        exact ⟨hm, hint⟩
      · cases h
    · cases h
  · rintro ⟨hm, hint⟩
    rw [hm]
    exact if_pos hint

theorem oneOfAt_ok {known : List String} {s : String} :
    oneOfAt known node path field = .ok s ↔ lookup node field = some (.str s) ∧ s ∈ known := by
  unfold oneOfAt
  constructor
  · intro h
    split at h
    · next t ht =>
      split at h
      · next hknown =>
        cases h
        exact ⟨ht, hknown⟩
      · cases h
    · cases h
  · rintro ⟨ht, hknown⟩
    rw [ht]
    exact if_pos hknown

theorem knownListAt_ok {known : List String} {items : List Json} : knownListAt known node path field = .ok items ↔
      lookup node field = some (.arr items) ∧ items.all (isKnown known) = true := by
  unfold knownListAt
  constructor
  · intro h
    split at h
    · next l hl =>
      split at h
      · next hknown =>
        cases h
        exact ⟨hl, hknown⟩
      · cases h
    · cases h
  · rintro ⟨hl, hknown⟩
    rw [hl]
    exact if_pos hknown

theorem isoDateAt_ok {s : String} :
    isoDateAt node path field = .ok s ↔ lookup node field = some (.str s) ∧ dateShaped s = true := by
  unfold isoDateAt
  constructor
  · intro h
    split at h
    · next t ht =>
      split at h
      · next hdate =>
        cases h
        exact ⟨ht, hdate⟩
      · cases h
    · cases h
  · rintro ⟨ht, hdate⟩
    rw [ht]
    exact if_pos hdate

theorem validateLeaf_again {type : LeafType} (h : validateLeaf node type path = .ok c) :
    ∃ fields, c = leaf type fields ∧ (∀ other, validateLeaf (("type", .str type.name) :: fields) type other = .ok c) ∧
      lookup fields "all_of" = none ∧ lookup fields "any_of" = none := by
  have comparison : ∀ {type : LeafType}, validateComparison type node path = .ok c →
      ∃ fields, c = leaf type fields ∧
        (∀ other, validateComparison type (("type", .str type.name) :: fields) other = .ok c) ∧
        lookup fields "all_of" = none ∧ lookup fields "any_of" = none := by
    intro type h
    obtain ⟨op, hop, h⟩ := bind_ok h
    obtain ⟨value, hvalue, h⟩ := bind_ok h
    cases h
    refine ⟨_, rfl, fun other => ?_, rfl, rfl⟩
    unfold validateComparison
    rw [oneOfAt_ok.2 ⟨rfl, (oneOfAt_ok.1 hop).2⟩]
    dsimp only [bind, Except.bind]
    rw [nonNegIntAt_ok.2 ⟨rfl, (nonNegIntAt_ok.1 hvalue).2⟩]
    rfl
  have membership : ∀ {type : LeafType} {known : List String}, validateMembership type known node path = .ok c →
      ∃ fields, c = leaf type fields ∧
        (∀ other, validateMembership type known (("type", .str type.name) :: fields) other = .ok c) ∧
        lookup fields "all_of" = none ∧ lookup fields "any_of" = none := by
    intro type known h
    obtain ⟨items, hitems, h⟩ := bind_ok h
    cases h
    refine ⟨_, rfl, fun other => ?_, rfl, rfl⟩
    unfold validateMembership
    rw [knownListAt_ok.2 ⟨rfl, (knownListAt_ok.1 hitems).2⟩]
    rfl
  cases type with
  | prepaymentMonths => exact comparison h
  | siblingsCount => exact comparison h
  | benefitCategory => exact membership h
  | paymentMethod => exact membership h
  | tariffTypes => exact membership h
  | birthdayMonth =>
    cases h
    exact ⟨[], rfl, fun _ => rfl, rfl, rfl⟩
  | firstInvoice =>
    cases h
    exact ⟨[], rfl, fun _ => rfl, rfl, rfl⟩
  | earlyPayment =>
    obtain ⟨days, hdays, h⟩ := bind_ok h
    cases h
    refine ⟨_, rfl, fun other => ?_, rfl, rfl⟩
    show validateEarlyPayment _ other = _
    unfold validateEarlyPayment
    rw [nonNegIntAt_ok.2 ⟨rfl, (nonNegIntAt_ok.1 hdays).2⟩]
    rfl
  | ageRange =>
    obtain ⟨lower, hlower, h⟩ := bind_ok h
    obtain ⟨upper, hupper, h⟩ := bind_ok h
    obtain ⟨_, horder, h⟩ := bind_ok h
    cases h
    refine ⟨_, rfl, fun other => ?_, rfl, rfl⟩
    show validateAgeRange _ other = _
    unfold validateAgeRange
    rw [nonNegIntAt_ok.2 ⟨rfl, (nonNegIntAt_ok.1 hlower).2⟩]
    dsimp only [bind, Except.bind]
    rw [nonNegIntAt_ok.2 ⟨rfl, (nonNegIntAt_ok.1 hupper).2⟩]
    dsimp only
    rw [ensure_ok horder]
    rfl
  | dateRange =>
    obtain ⟨first, hfirst, h⟩ := bind_ok h
    obtain ⟨last, hlast, h⟩ := bind_ok h
    obtain ⟨_, hfirst', h⟩ := bind_ok h
    obtain ⟨_, hlast', h⟩ := bind_ok h
    cases h
    refine ⟨_, rfl, fun other => ?_, rfl, rfl⟩
    show validateDateRange _ other = _
    unfold validateDateRange
    rw [isoDateAt_ok.2 ⟨rfl, (isoDateAt_ok.1 hfirst).2⟩]
    dsimp only [bind, Except.bind]
    rw [isoDateAt_ok.2 ⟨rfl, (isoDateAt_ok.1 hlast).2⟩]
    dsimp only
    rw [ensure_ok hfirst', ensure_ok hlast']
    rfl

theorem mapIndexed_again {f g : Nat → Json → Checked Json} (hg : ∀ i j v w, f i v = .ok w → g j w = .ok w) {i : Nat}
    {vs ws : List Json} (h : mapIndexed f i vs = .ok ws) (j : Nat) :
    mapIndexed g j ws = .ok ws ∧ ws.length = vs.length := by
  induction vs generalizing i j ws with
  | nil =>
    cases h
    exact ⟨rfl, rfl⟩
  | cons v vs ih =>
    obtain ⟨w, hw, h⟩ := bind_ok h
    obtain ⟨rest, hrest, h⟩ := bind_ok h
    cases h
    obtain ⟨hagain, hlength⟩ := ih hrest (j + 1)
    refine ⟨?_, by rw [List.length_cons, List.length_cons, hlength]⟩
    unfold mapIndexed
    rw [hg i j v w hw]
    dsimp only [bind, Except.bind]
    rw [hagain]
    rfl

end

theorem ofName_name (type : LeafType) : LeafType.ofName type.name = some type := by cases type <;> rfl

theorem childKey_of_some {node : List (String × Json)} {key : String} (h : childKey node = some key) :
    key = "all_of" ∨ key = "any_of" := by
  unfold childKey at h
  split at h
  · exact .inl (Option.some.inj h).symm
  · split at h
    · exact .inr (Option.some.inj h).symm
    · cases h

/-- By the levels that are left: a composite has one key, and its children pass by induction. -/
theorem validateNode_again {levels : Nat} {v c : Json} {path : String} (h : validateNode levels v path = .ok c)
    (other : String) : validateNode levels c other = .ok c := by
  induction levels generalizing v c path other with
  | zero => cases h
  | succ levels ih =>
    cases v with
    | obj node =>
      unfold validateNode at h
      split at h
      · next key hkey =>
        split at h
        · next children hchildren =>
          obtain ⟨_, hwidth, h⟩ := bind_ok h
          obtain ⟨validated, hvalidated, h⟩ := bind_ok h
          cases h
          obtain ⟨hagain, hlength⟩ := mapIndexed_again
            (g := fun i child => validateNode levels child s!"{other}.{key}[{i}]")
            (fun i j v w hw => ih hw _) hvalidated 0
          have hself : childKey [(key, .arr validated)] = some key := by
            rcases childKey_of_some hkey with rfl | rfl <;> rfl
          have hlookup : lookup [(key, .arr validated)] key = some (.arr validated) := by
            rw [lookup_cons, if_pos rfl]
          unfold validateNode
          rw [hself]
          dsimp only
          rw [hlookup]
          dsimp only
          rw [hlength, ensure_ok hwidth, hagain]
          rfl
        · cases h
      · split at h
        · next type htype =>
          obtain ⟨fields, rfl, hagain, hall, hany⟩ := validateLeaf_again h
          have hself : childKey (("type", .str type.name) :: fields) = none := by
            have htype : ∀ key, "type" ≠ key → lookup (("type", .str type.name) :: fields) key = lookup fields key :=
              fun key hkey => by rw [lookup_cons, if_neg hkey]
            unfold childKey
            rw [htype "all_of" (by decide), htype "any_of" (by decide), hall, hany]
            rfl
          have hleaf : leafType (("type", .str type.name) :: fields) = some type := by
            unfold leafType
            rw [lookup_cons, if_pos rfl]
            exact ofName_name type
          unfold leaf validateNode
          rw [hself]
          dsimp only
          rw [hleaf]
          exact hagain other
        · cases h
    | _ => cases h

/-- **A validated tree is canonical.** -/
theorem validateConditionsSchema_again {v c : Json} (h : validateConditionsSchema v = .ok c) :
    validateConditionsSchema c = .ok c := by
  unfold validateConditionsSchema at h
  split at h
  · cases h
    rfl
  · next node hnode =>
    have hagain := validateNode_again h "$"
    unfold validateConditionsSchema
    split
    · rfl
    · exact hagain
    · next hempty hobj =>
      cases c with
      | obj fields => exact (hobj fields rfl).elim
      | _ => cases hagain
  · cases h

end Discounts
