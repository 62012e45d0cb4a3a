import Shyraq.Billing.Entities
import Shyraq.Discounts.Conditions
import Shyraq.Kernel.DateText

/-!
# Conditions and what they mean

`evaluateConditions` over the JSON that the validator answers, beside the tree of conditions that this JSON stands for.
A tree holds of a context by its shape, all of these or one of these; the evaluator walks the JSON with a depth of its
own.  On a validated tree the two agree, and the evaluator has nothing left to throw.
-/

namespace Discounts

open Kernel
open Billing (ComparisonOp)
open Diagnostics (Json lookup dateShaped digitsOf)

/-! ## The evaluator -/

/-- `EvalContext`, with the fields that the evaluator reads. -/
structure EvalContext where
  invoiceType : String
  periodStart : Int
  birthDate : Int
  ageInMonths : ℚ
  benefitCategory : Option String
  siblingsInKgCount : ℚ
  isFirstInvoiceForChild : Bool
  method : Option String
  prepaymentMonths : Option ℚ
  paidEarlyDays : Option ℚ
  now : Int

inductive EvaluationError
  | conditionsInvalid (e : ConditionsInvalid)
  | typeError
  /-- A value that the language would convert first, which is left out. -/
  | converted
  deriving DecidableEq

abbrev Evaluated A := Except EvaluationError A

def numberOf (node : List (String × Json)) (field : String) : Evaluated ℚ :=
  match lookup node field with
  | some (.num n) => .ok n
  | _ => .error .converted

def textOf (node : List (String × Json)) (field : String) : Evaluated String :=
  match lookup node field with
  | some (.str s) => .ok s
  | _ => .error .converted

def isText (text : String) : Json → Bool
  | .str s => s == text
  | _ => false

/-- `includes`, which a text has too. -/
def includesAt (node : List (String × Json)) (text : String) : Evaluated Bool :=
  match lookup node "in" with
  | some (.arr items) => .ok (items.any (isText text))
  | some (.str _) => .error .converted
  | _ => .error .typeError

def compare (node : List (String × Json)) (lhs : ℚ) : Evaluated Bool := do
  let rhs ← numberOf node "value"
  pure (if (lookup node "op").any (isText "gte") then decide (rhs ≤ lhs) else lhs == rhs)

def evaluateAgeRange (node : List (String × Json)) (a : ℚ) : Evaluated Bool := do
  let from_months ← numberOf node "from_months"
  let to_months ← numberOf node "to_months"
  pure (decide (from_months ≤ a) && decide (a ≤ to_months))

def evaluateEarlyPayment (node : List (String × Json)) (d : ℚ) : Evaluated Bool := do
  let days ← numberOf node "days_before_due"
  pure (decide (days ≤ d))

/-- What is no date compares as false. -/
def evaluateDateRange (node : List (String × Json)) (nowTs : Int) : Evaluated Bool := do
  let fromDate ← textOf node "from"
  let toDate ← textOf node "to"
  let fromTs := parseDate (fromDate.toList ++ "T00:00:00Z".toList)
  let toTs := parseDate (toDate.toList ++ "T23:59:59.999Z".toList)
  pure (fromTs.any (fun t => decide (t ≤ nowTs)) && toTs.any fun t => decide (nowTs ≤ t))

/-- What the context does not have is false. -/
def whenKnown {A : Type} (value : Option A) (f : A → Evaluated Bool) : Evaluated Bool :=
  match value with
  | none => .ok false
  | some a => f a

/-- `undefined` for an unknown type, which counts as false. -/
def evaluateLeaf (node : List (String × Json)) (ctx : EvalContext) : Evaluated Bool :=
  match leafType node with
  | some .prepaymentMonths => whenKnown ctx.prepaymentMonths (compare node)
  | some .siblingsCount => compare node ctx.siblingsInKgCount
  | some .ageRange => evaluateAgeRange node ctx.ageInMonths
  | some .benefitCategory => whenKnown ctx.benefitCategory (includesAt node)
  | some .paymentMethod => whenKnown ctx.method (includesAt node)
  | some .earlyPayment => whenKnown ctx.paidEarlyDays (evaluateEarlyPayment node)
  | some .birthdayMonth => .ok (utcMonth (utcDay ctx.birthDate) == utcMonth (utcDay ctx.periodStart))
  | some .dateRange => evaluateDateRange node ctx.now
  | some .firstInvoice => .ok ctx.isFirstInvoiceForChild
  | some .tariffTypes => includesAt node ctx.invoiceType
  | none => .ok false

/-- `Array.every`, until the first `false`. -/
def every (f : Json → Evaluated Bool) : List Json → Evaluated Bool
  | [] => .ok true
  | c :: cs => do
      let b ← f c
      if b then every f cs else pure false

/-- `Array.some`, until the first `true`. -/
def anyOne (f : Json → Evaluated Bool) : List Json → Evaluated Bool
  | [] => .ok false
  | c :: cs => do
      let b ← f c
      if b then pure true else anyOne f cs

/-- `levels` are left before the depth limit. -/
def evaluateNode (ctx : EvalContext) : Nat → Json → Evaluated Bool
  | 0, _ => .error (.conditionsInvalid ⟨.conditionsDepthLimitExceeded, none⟩)
  | _ + 1, .obj [] => .ok true
  | levels + 1, .obj node =>
      match lookup node "all_of" with
      | some (.arr children) => every (evaluateNode ctx levels) children
      | some _ => .error .typeError
      | none =>
          match lookup node "any_of" with
          | some (.arr children) => anyOne (evaluateNode ctx levels) children
          | some _ => .error .typeError
          | none => evaluateLeaf node ctx
  | _ + 1, _ => .error (.conditionsInvalid ⟨.invalidRootShape, none⟩)

def evaluateConditions (conditions : Json) (ctx : EvalContext) : Evaluated Bool :=
  evaluateNode ctx (maxDepth + 1) conditions

/-! ## Trees of conditions -/

inductive LeafCondition
  | prepaymentMonths (op : ComparisonOp) (value : ℚ)
  | siblingsCount (op : ComparisonOp) (value : ℚ)
  | ageRange (from_months to_months : ℚ)
  | benefitCategory (categories : List String)
  | paymentMethod (methods : List String)
  | earlyPayment (days_before_due : ℚ)
  | birthdayMonth
  | dateRange (fromDate toDate : String)
  | firstInvoice
  | tariffTypes (types : List String)

/-- `always` is the empty object. -/
inductive DiscountCondition
  | always
  | leaf (l : LeafCondition)
  | allOf (cs : List DiscountCondition)
  | anyOf (cs : List DiscountCondition)

def opText : ComparisonOp → String
  | .gte => "gte"
  | .eq => "eq"

namespace LeafCondition

def type : LeafCondition → LeafType
  | prepaymentMonths .. => .prepaymentMonths
  | siblingsCount .. => .siblingsCount
  | ageRange .. => .ageRange
  | benefitCategory _ => .benefitCategory
  | paymentMethod _ => .paymentMethod
  | earlyPayment _ => .earlyPayment
  | birthdayMonth => .birthdayMonth
  | dateRange .. => .dateRange
  | firstInvoice => .firstInvoice
  | tariffTypes _ => .tariffTypes

def fields : LeafCondition → List (String × Json)
  | prepaymentMonths op value | siblingsCount op value => [("op", .str (opText op)), ("value", .num value)]
  | ageRange lower upper => [("from_months", .num lower), ("to_months", .num upper)]
  | benefitCategory texts | paymentMethod texts | tariffTypes texts => [("in", .arr (texts.map Json.str))]
  | earlyPayment days => [("days_before_due", .num days)]
  | birthdayMonth | firstInvoice => []
  | dateRange first last => [("from", .str first), ("to", .str last)]

def toJson (l : LeafCondition) : Json := Discounts.leaf l.type l.fields

end LeafCondition

namespace DiscountCondition

mutual

def toJson : DiscountCondition → Json
  | always => .obj []
  | leaf l => l.toJson
  | allOf cs => .obj [("all_of", .arr (toJsons cs))]
  | anyOf cs => .obj [("any_of", .arr (toJsons cs))]

def toJsons : List DiscountCondition → List Json
  | [] => []
  | c :: cs => c.toJson :: toJsons cs

end

end DiscountCondition

/-! ## What they mean -/

/-- The day that a text names; a day past the end of its month runs over. -/
def isoDay (s : String) : Int :=
  dayOf (digitsOf (s.toList.take 4)) (digitsOf ((s.toList.drop 5).take 2)) (digitsOf (s.toList.drop 8))

def opHolds (op : ComparisonOp) (lhs rhs : ℚ) : Prop :=
  match op with
  | .gte => rhs ≤ lhs
  | .eq => lhs = rhs

/-- What is not known of the context does not hold. -/
def LeafCondition.Holds (ctx : EvalContext) : LeafCondition → Prop
  | prepaymentMonths op value => ∃ months, ctx.prepaymentMonths = some months ∧ opHolds op months value
  | siblingsCount op value => opHolds op ctx.siblingsInKgCount value
  | ageRange lower upper => lower ≤ ctx.ageInMonths ∧ ctx.ageInMonths ≤ upper
  | benefitCategory categories => ∃ category ∈ categories, ctx.benefitCategory = some category
  | paymentMethod methods => ∃ method ∈ methods, ctx.method = some method
  | earlyPayment days => ∃ early, ctx.paidEarlyDays = some early ∧ days ≤ early
  | birthdayMonth => utcMonth (utcDay ctx.birthDate) = utcMonth (utcDay ctx.periodStart)
  | dateRange first last => isoDay first ≤ utcDay ctx.now ∧ utcDay ctx.now ≤ isoDay last
  | firstInvoice => ctx.isFirstInvoiceForChild = true
  | tariffTypes types => ctx.invoiceType ∈ types

namespace DiscountCondition

variable (ctx : EvalContext)

mutual

/-- All of the conditions, or one of them; no conditions hold together and not one by one. -/
def Holds : DiscountCondition → Prop
  | always => True
  | leaf l => l.Holds ctx
  | allOf cs => AllHold cs
  | anyOf cs => OneHolds cs

def AllHold : List DiscountCondition → Prop
  | [] => True
  | c :: cs => c.Holds ∧ AllHold cs

def OneHolds : List DiscountCondition → Prop
  | [] => False
  | c :: cs => c.Holds ∨ OneHolds cs

end

end DiscountCondition

/-! ## Dates -/

theorem digitsOf_lt {cs : List Char} (h : cs.all Char.isDigit = true) : digitsOf cs < 10 ^ cs.length := by
  have step : ∀ (cs : List Char) acc, cs.all Char.isDigit = true →
      cs.foldl (fun n c => 10 * n + (c.toNat - '0'.toNat)) acc < (acc + 1) * 10 ^ cs.length := by
    intro cs
    induction cs with
    | nil =>
      intro acc _
      show acc < (acc + 1) * 10 ^ 0
      omega
    | cons c cs ih =>
      intro acc h
      simp only [List.all_cons, Bool.and_eq_true] at h
      have hc : c.toNat ≤ 57 := by
        have hd := h.1
        unfold Char.isDigit at hd
        simp only [Bool.and_eq_true, decide_eq_true_eq] at hd
        exact hd.2
      have hzero : '0'.toNat = 48 := rfl
      refine lt_of_lt_of_le (ih _ h.2) ?_
      dsimp only
      rw [List.length_cons, pow_succ, Nat.mul_comm (10 ^ _) 10, ← Nat.mul_assoc]
      exact Nat.mul_le_mul_right _ (by omega)
  have hlt := step cs 0 h
  rw [Nat.zero_add, Nat.one_mul] at hlt
  exact hlt

theorem readDay_dateShaped {s : String} (hs : dateShaped s = true) (rest : List Char) :
    readDay (s.toList ++ rest) = if dateParses s = true then some (isoDay s, rest) else none := by
  unfold dateShaped at hs
  split at hs
  · next a b c d e f g h hlist =>
    simp only [List.all_cons, List.all_nil, Bool.and_true, Bool.and_eq_true] at hs
    obtain ⟨ha, hb, hc, hd, he, hf, hg, hh⟩ := hs
    have hyear : readNumber 10 4 (a :: b :: c :: d :: '-' :: e :: f :: '-' :: g :: h :: rest) =
        some (digitsOf [a, b, c, d], '-' :: e :: f :: '-' :: g :: h :: rest) :=
      @readNumber_ten [a, b, c, d] 4 (by simp [ha, hb, hc, hd]) rfl _
    have hmonth : readNumber 10 2 (e :: f :: '-' :: g :: h :: rest) =
        some (digitsOf [e, f], '-' :: g :: h :: rest) := @readNumber_ten [e, f] 2 (by simp [he, hf]) rfl _
    have hday : readNumber 10 2 (g :: h :: rest) = some (digitsOf [g, h], rest) :=
      @readNumber_ten [g, h] 2 (by simp [hg, hh]) rfl _
    have hplus : a ≠ '+' := by
      rintro rfl
      cases ha
    have hminus : a ≠ '-' := by
      rintro rfl
      cases ha
    unfold readDay dateParses isoDay
    rw [hlist]
    have hread : readYear (a :: b :: c :: d :: '-' :: e :: f :: '-' :: g :: h :: rest) =
        some ((digitsOf [a, b, c, d] : Int), '-' :: e :: f :: '-' :: g :: h :: rest) := by
      unfold readYear
      split
      · next heq => exact absurd (List.cons.inj heq).1 hplus
      · next heq => exact absurd (List.cons.inj heq).1 hminus
      · rw [hyear]
        rfl
    simp only [List.cons_append, List.nil_append, hread, Option.bind_eq_bind, Option.bind_some, readChar_cons, hmonth,
      hday, List.drop_succ_cons, List.drop_zero, List.take_succ_cons, List.take_zero]
    by_cases hparts : 1 ≤ digitsOf [e, f] ∧ digitsOf [e, f] ≤ 12 ∧ 1 ≤ digitsOf [g, h] ∧ digitsOf [g, h] ≤ 31
    · rw [if_pos hparts, if_pos]
      simp only [hparts, decide_true, Bool.and_self]
    · rw [if_neg hparts, if_neg]
      simp only [Bool.and_eq_true, decide_eq_true_eq]
      exact fun hall => hparts ⟨hall.1.1.1, hall.1.1.2, hall.1.2, hall.2⟩
  · cases hs

theorem isoDay_bounds {s : String} (hs : dateShaped s = true) (hp : dateParses s = true) :
    -1000000 ≤ isoDay s ∧ isoDay s ≤ 4000000 := by
  unfold dateShaped at hs
  unfold dateParses at hp
  unfold isoDay dayOf
  split at hs
  · next a b c d e f g h hlist =>
    rw [hlist] at hp ⊢
    simp only [List.all_cons, List.all_nil, Bool.and_true, Bool.and_eq_true] at hs
    simp only [List.drop_succ_cons, List.drop_zero, List.take_succ_cons, List.take_zero, Bool.and_eq_true,
      decide_eq_true_eq] at hp ⊢
    have hyear : digitsOf [a, b, c, d] < 10 ^ 4 := @digitsOf_lt [a, b, c, d] (by simp [hs])
    have hbounds := monthStart_bounds (12 * (digitsOf [a, b, c, d] : Int) + ((digitsOf [e, f] : Int) - 1))
    omega
  · cases hs

theorem parseDate_dateShaped {s : String} (hs : dateShaped s = true) (hp : dateParses s = true) {time : List Char}
    {ms : Nat} (htime : readTime time = some (ms, ['Z'])) (hms : ms ≤ 86400000) :
    parseDate (s.toList ++ 'T' :: time) = some (midnight (isoDay s) + ms) := by
  obtain ⟨hlow, hhigh⟩ := isoDay_bounds hs hp
  have hin : -maxTime ≤ midnight (isoDay s) + ms - 0 ∧ midnight (isoDay s) + ms - 0 ≤ maxTime := by
    unfold midnight msPerDay maxTime
    omega
  unfold parseDate
  rw [readDay_dateShaped hs, if_pos hp]
  simp only [Option.bind_eq_bind, Option.bind_some, readChar_cons, htime, readOffset]
  rw [if_neg (by simp), if_pos hin, Int.sub_zero]

/-! ## Leaves -/

def IsCount (n : ℚ) : Prop := n.den = 1 ∧ 0 ≤ n

def IsDate (s : String) : Prop := dateShaped s = true ∧ dateParses s = true

/-- What the validator requires of a leaf. -/
def LeafCondition.Valid : LeafCondition → Prop
  | prepaymentMonths _ value | siblingsCount _ value => IsCount value
  | ageRange lower upper => IsCount lower ∧ IsCount upper ∧ lower ≤ upper
  | benefitCategory texts => ∀ text ∈ texts, text ∈ knownBenefitCategories
  | paymentMethod texts => ∀ text ∈ texts, text ∈ knownPaymentMethods
  | earlyPayment days => IsCount days
  | dateRange first last => IsDate first ∧ IsDate last
  | tariffTypes texts => ∀ text ∈ texts, text ∈ knownInvoiceTypes
  | birthdayMonth | firstInvoice => True

section

variable {node : List (String × Json)} {path : String} {r : Json} {ctx : EvalContext}

theorem opText_of_known {op : String} (h : op ∈ knownComparisonOps) : ∃ o, op = opText o := by
  unfold knownComparisonOps at h
  rcases List.mem_cons.1 h with rfl | h
  · exact ⟨.gte, rfl⟩
  · exact ⟨.eq, List.mem_singleton.1 h⟩

theorem texts_of_known {known : List String} {items : List Json} (h : items.all (isKnown known) = true) :
    ∃ texts : List String, items = texts.map Json.str ∧ ∀ text ∈ texts, text ∈ known := by
  induction items with
  | nil => exact ⟨[], rfl, fun text ht => absurd ht List.not_mem_nil⟩
  | cons item items ih =>
    simp only [List.all_cons, Bool.and_eq_true] at h
    obtain ⟨texts, rfl, hknown⟩ := ih h.2
    have hitem := h.1
    cases item with
    | str s =>
      refine ⟨s :: texts, rfl, fun text ht => ?_⟩
      rcases List.mem_cons.1 ht with rfl | ht
      · exact List.contains_iff_mem.1 hitem
      · exact hknown text ht
    | _ => cases hitem

theorem validateLeaf_ok {type : LeafType} (h : validateLeaf node type path = .ok r) :
    ∃ l : LeafCondition, r = l.toJson ∧ l.Valid := by
  have comparison : ∀ {type : LeafType}, validateComparison type node path = .ok r →
      ∃ op value, r = leaf type [("op", .str (opText op)), ("value", .num value)] ∧ IsCount value := by
    intro type h
    obtain ⟨op, hop, h⟩ := bind_ok h
    obtain ⟨value, hvalue, h⟩ := bind_ok h
    cases h
    obtain ⟨o, rfl⟩ := opText_of_known (oneOfAt_ok.1 hop).2
    exact ⟨o, value, rfl, (nonNegIntAt_ok.1 hvalue).2⟩
  have membership : ∀ {type : LeafType} {known : List String}, validateMembership type known node path = .ok r →
      ∃ texts : List String, r = leaf type [("in", .arr (texts.map Json.str))] ∧ ∀ text ∈ texts, text ∈ known := by
    intro type known h
    obtain ⟨items, hitems, h⟩ := bind_ok h
    cases h
    obtain ⟨texts, rfl, hknown⟩ := texts_of_known (knownListAt_ok.1 hitems).2
    exact ⟨texts, rfl, hknown⟩
  cases type with
  | prepaymentMonths =>
    obtain ⟨op, value, hr, hvalue⟩ := comparison h
    exact ⟨.prepaymentMonths op value, hr, hvalue⟩
  | siblingsCount =>
    obtain ⟨op, value, hr, hvalue⟩ := comparison h
    exact ⟨.siblingsCount op value, hr, hvalue⟩
  | benefitCategory =>
    obtain ⟨texts, hr, hknown⟩ := membership h
    exact ⟨.benefitCategory texts, hr, hknown⟩
  | paymentMethod =>
    obtain ⟨texts, hr, hknown⟩ := membership h
    exact ⟨.paymentMethod texts, hr, hknown⟩
  | tariffTypes =>
    obtain ⟨texts, hr, hknown⟩ := membership h
    exact ⟨.tariffTypes texts, hr, hknown⟩
  | birthdayMonth =>
    cases h
    exact ⟨.birthdayMonth, rfl, trivial⟩
  | firstInvoice =>
    cases h
    exact ⟨.firstInvoice, rfl, trivial⟩
  | earlyPayment =>
    obtain ⟨days, hdays, h⟩ := bind_ok h
    cases h
    exact ⟨.earlyPayment days, rfl, (nonNegIntAt_ok.1 hdays).2⟩
  | ageRange =>
    obtain ⟨lower, hlower, h⟩ := bind_ok h
    obtain ⟨upper, hupper, h⟩ := bind_ok h
    obtain ⟨_, horder, h⟩ := bind_ok h
    cases h
    exact ⟨.ageRange lower upper, rfl, (nonNegIntAt_ok.1 hlower).2, (nonNegIntAt_ok.1 hupper).2,
      of_decide_eq_true (ensure_ok horder)⟩
  | dateRange =>
    obtain ⟨first, hfirst, h⟩ := bind_ok h
    obtain ⟨last, hlast, h⟩ := bind_ok h
    obtain ⟨_, hfirst', h⟩ := bind_ok h
    obtain ⟨_, hlast', h⟩ := bind_ok h
    cases h
    exact ⟨.dateRange first last, rfl, ⟨(isoDateAt_ok.1 hfirst).2, ensure_ok hfirst'⟩,
      ⟨(isoDateAt_ok.1 hlast).2, ensure_ok hlast'⟩⟩

/-! ## The evaluation of a leaf -/

/-- The evaluator answers, and as the meaning is. -/
def Decides (answer : Evaluated Bool) (meaning : Prop) : Prop := ∃ b, answer = .ok b ∧ (b = true ↔ meaning)

theorem decides_compare (type : LeafType) (op : ComparisonOp) (lhs value : ℚ) :
    Decides (compare [("type", .str type.name), ("op", .str (opText op)), ("value", .num value)] lhs)
      (opHolds op lhs value) := by
  cases op with
  | gte => exact ⟨decide (value ≤ lhs), rfl, decide_eq_true_iff⟩
  | eq => exact ⟨lhs == value, rfl, beq_iff_eq⟩

theorem decides_includesAt (type : LeafType) (texts : List String) (text : String) :
    Decides (includesAt [("type", .str type.name), ("in", .arr (texts.map Json.str))] text) (text ∈ texts) := by
  refine ⟨(texts.map Json.str).any (isText text), rfl, ?_⟩
  rw [List.any_map, List.any_eq_true]
  constructor
  · rintro ⟨other, hmem, heq⟩
    exact beq_iff_eq.1 heq ▸ hmem
  · intro hmem
    exact ⟨text, hmem, beq_self_eq_true text⟩

theorem decides_whenKnown {A : Type} {value : Option A} {f : A → Evaluated Bool} {meaning : A → Prop}
    (h : ∀ a, Decides (f a) (meaning a)) : Decides (whenKnown value f) (∃ a, value = some a ∧ meaning a) := by
  cases value with
  | none => exact ⟨false, rfl, iff_of_false Bool.false_ne_true fun ⟨a, ha, _⟩ => Option.some_ne_none a ha.symm⟩
  | some a =>
    obtain ⟨b, hb, hiff⟩ := h a
    refine ⟨b, hb, hiff.trans ⟨fun hm => ⟨a, rfl, hm⟩, ?_⟩⟩
    rintro ⟨_, heq, hm⟩
    exact Option.some.inj heq ▸ hm

theorem Decides.congr {answer : Evaluated Bool} {meaning meaning' : Prop} (h : Decides answer meaning)
    (hiff : meaning ↔ meaning') : Decides answer meaning' := by
  obtain ⟨b, hb, hb'⟩ := h
  exact ⟨b, hb, hb'.trans hiff⟩

theorem time_startOfDay : readTime "00:00:00Z".toList = some (0, ['Z']) := by decide

theorem time_endOfDay : readTime "23:59:59.999Z".toList = some (86399999, ['Z']) := by decide

/-- The days of the range, from the first instant of the first to the last of the last. -/
theorem decides_dateRange {first last : String} (hfirst : IsDate first) (hlast : IsDate last) (nowTs : Int) :
    Decides (evaluateDateRange [("type", .str LeafType.dateRange.name), ("from", .str first), ("to", .str last)] nowTs)
      (isoDay first ≤ utcDay nowTs ∧ utcDay nowTs ≤ isoDay last) := by
  have hstart : parseDate (first.toList ++ "T00:00:00Z".toList) = some (midnight (isoDay first) + (0 : Nat)) :=
    parseDate_dateShaped hfirst.1 hfirst.2 time_startOfDay (by decide)
  have hend : parseDate (last.toList ++ "T23:59:59.999Z".toList) = some (midnight (isoDay last) + (86399999 : Nat)) :=
    parseDate_dateShaped hlast.1 hlast.2 time_endOfDay (by decide)
  have heval : evaluateDateRange
      [("type", .str LeafType.dateRange.name), ("from", .str first), ("to", .str last)] nowTs =
      .ok ((parseDate (first.toList ++ "T00:00:00Z".toList)).any (fun t => decide (t ≤ nowTs)) &&
        (parseDate (last.toList ++ "T23:59:59.999Z".toList)).any fun t => decide (nowTs ≤ t)) := rfl
  refine ⟨_, heval, ?_⟩
  rw [hstart, hend, Option.any_some, Option.any_some, Bool.and_eq_true, decide_eq_true_iff, decide_eq_true_iff]
  unfold midnight utcDay msPerDay
  omega

theorem leafType_leaf (type : LeafType) (fields : List (String × Json)) :
    leafType (("type", .str type.name) :: fields) = some type := by
  unfold leafType
  rw [lookup_cons, if_pos rfl]
  exact ofName_name type

/-- **A leaf is evaluated to its meaning.** -/
theorem decides_evaluateLeaf {l : LeafCondition} (h : l.Valid) (ctx : EvalContext) :
    Decides (evaluateLeaf (("type", .str l.type.name) :: l.fields) ctx) (l.Holds ctx) := by
  unfold evaluateLeaf
  rw [leafType_leaf]
  cases l with
  | prepaymentMonths op value => exact decides_whenKnown fun months => decides_compare _ op months value
  | siblingsCount op value => exact decides_compare _ op _ value
  | ageRange lower upper =>
    refine ⟨decide (lower ≤ ctx.ageInMonths) && decide (ctx.ageInMonths ≤ upper), rfl, ?_⟩
    rw [Bool.and_eq_true, decide_eq_true_iff, decide_eq_true_iff]
    rfl
  | benefitCategory texts =>
    refine (decides_whenKnown fun text => decides_includesAt _ texts text).congr ?_
    exact ⟨fun ⟨text, hctx, hmem⟩ => ⟨text, hmem, hctx⟩, fun ⟨text, hmem, hctx⟩ => ⟨text, hctx, hmem⟩⟩
  | paymentMethod texts =>
    refine (decides_whenKnown fun text => decides_includesAt _ texts text).congr ?_
    exact ⟨fun ⟨text, hctx, hmem⟩ => ⟨text, hmem, hctx⟩, fun ⟨text, hmem, hctx⟩ => ⟨text, hctx, hmem⟩⟩
  | earlyPayment days =>
    exact decides_whenKnown fun early => ⟨decide (days ≤ early), rfl, decide_eq_true_iff⟩
  | birthdayMonth => exact ⟨_, rfl, beq_iff_eq⟩
  | dateRange first last => exact decides_dateRange h.1 h.2 ctx.now
  | firstInvoice => exact ⟨_, rfl, Iff.rfl⟩
  | tariffTypes texts => exact decides_includesAt _ texts _

end

/-! ## Trees -/

open DiscountCondition in
theorem decides_every {f : Json → Evaluated Bool} {ctx : EvalContext} {cs : List DiscountCondition}
    (h : ∀ c ∈ cs, Decides (f c.toJson) (c.Holds ctx)) : Decides (every f (toJsons cs)) (AllHold ctx cs) := by
  induction cs with
  | nil => exact ⟨true, rfl, iff_of_true rfl trivial⟩
  | cons c cs ih =>
    obtain ⟨b, hb, hiff⟩ := h c List.mem_cons_self
    obtain ⟨b', hb', hiff'⟩ := ih fun d hd => h d (List.mem_cons_of_mem c hd)
    unfold toJsons every AllHold
    rw [hb]
    cases b with
    | true => exact ⟨b', hb', hiff'.trans ⟨fun hall => ⟨hiff.1 rfl, hall⟩, And.right⟩⟩
    | false => exact ⟨false, rfl, iff_of_false Bool.false_ne_true fun hall => Bool.false_ne_true (hiff.2 hall.1)⟩

open DiscountCondition in
theorem decides_anyOne {f : Json → Evaluated Bool} {ctx : EvalContext} {cs : List DiscountCondition}
    (h : ∀ c ∈ cs, Decides (f c.toJson) (c.Holds ctx)) : Decides (anyOne f (toJsons cs)) (OneHolds ctx cs) := by
  induction cs with
  | nil => exact ⟨false, rfl, iff_of_false Bool.false_ne_true id⟩
  | cons c cs ih =>
    obtain ⟨b, hb, hiff⟩ := h c List.mem_cons_self
    obtain ⟨b', hb', hiff'⟩ := ih fun d hd => h d (List.mem_cons_of_mem c hd)
    unfold toJsons anyOne OneHolds
    rw [hb]
    cases b with
    | true => exact ⟨true, rfl, iff_of_true rfl (.inl (hiff.1 rfl))⟩
    | false =>
      refine ⟨b', hb', hiff'.trans ⟨.inr, fun hone => ?_⟩⟩
      exact hone.resolve_left fun hc => Bool.false_ne_true (hiff.2 hc)

theorem evaluateNode_leaf (l : LeafCondition) (ctx : EvalContext) (levels : Nat) :
    evaluateNode ctx (levels + 1) l.toJson = evaluateLeaf (("type", .str l.type.name) :: l.fields) ctx := by
  cases l <;> rfl

section

variable {f : Nat → Json → Checked Json} {i : Nat} {vs ws : List Json}

theorem mapIndexed_each (h : mapIndexed f i vs = .ok ws) {v : Json} (hv : v ∈ vs) : ∃ j w, f j v = .ok w := by
  induction vs generalizing i ws with
  | nil => cases hv
  | cons v' vs ih =>
    obtain ⟨w, hw, h⟩ := bind_ok h
    obtain ⟨rest, hrest, h⟩ := bind_ok h
    rcases List.mem_cons.1 hv with rfl | hv
    · exact ⟨i, w, hw⟩
    · exact ih hrest hv

/-- The answers are those of a list of trees, when each answer is that of a tree. -/
theorem mapIndexed_trees {P : DiscountCondition → Prop}
    (hf : ∀ j v w, f j v = .ok w → ∃ c : DiscountCondition, w = c.toJson ∧ P c)
    (h : mapIndexed f i vs = .ok ws) : ∃ cs, ws = DiscountCondition.toJsons cs ∧ ∀ c ∈ cs, P c := by
  induction vs generalizing i ws with
  | nil =>
    cases h
    exact ⟨[], rfl, fun c hc => absurd hc List.not_mem_nil⟩
  | cons v vs ih =>
    obtain ⟨w, hw, h⟩ := bind_ok h
    obtain ⟨rest, hrest, h⟩ := bind_ok h
    cases h
    obtain ⟨c, rfl, hc⟩ := hf i v w hw
    obtain ⟨cs, rfl, hcs⟩ := ih hrest
    refine ⟨c :: cs, rfl, fun d hd => ?_⟩
    rcases List.mem_cons.1 hd with rfl | hd
    · exact hc
    · exact hcs d hd

end

theorem validateNode_means {levels : Nat} {v r : Json} {path : String} (h : validateNode levels v path = .ok r) :
    ∃ c : DiscountCondition, r = c.toJson ∧ ∀ ctx, Decides (evaluateNode ctx levels r) (c.Holds ctx) := by
  induction levels generalizing v r path with
  | zero => cases h
  | succ levels ih =>
    cases v with
    | obj node =>
      unfold validateNode at h
      split at h
      · next key hkey =>
        split at h
        · next children hchildren =>
          obtain ⟨_, -, h⟩ := bind_ok h
          obtain ⟨validated, hvalidated, h⟩ := bind_ok h
          cases h
          obtain ⟨cs, rfl, hcs⟩ := mapIndexed_trees
            (P := fun c => ∀ ctx, Decides (evaluateNode ctx levels c.toJson) (c.Holds ctx))
            (fun j v w hw => by
              obtain ⟨c, rfl, hc⟩ := ih hw
              exact ⟨c, rfl, hc⟩) hvalidated
          rcases childKey_of_some hkey with rfl | rfl
          · exact ⟨.allOf cs, rfl, fun ctx => decides_every fun c hc => hcs c hc ctx⟩
          · exact ⟨.anyOf cs, rfl, fun ctx => decides_anyOne fun c hc => hcs c hc ctx⟩
        · cases h
      · split at h
        · next type htype =>
          obtain ⟨l, rfl, hl⟩ := validateLeaf_ok h
          refine ⟨.leaf l, rfl, fun ctx => ?_⟩
          rw [evaluateNode_leaf]
          exact decides_evaluateLeaf hl ctx
        · cases h
    | _ => cases h

/-! ## How deep and how wide -/

/-- The conditions below a node, under the key that is read. -/
def childrenOf (node : List (String × Json)) : Option (List Json) :=
  (childKey node).bind fun key =>
    match lookup node key with
    | some (.arr children) => some children
    | _ => none

/-- There is a node so many levels below. -/
inductive Nested : Nat → Json → Prop
  | here (v : Json) : Nested 0 v
  | under {node : List (String × Json)} {children : List Json} {c : Json} {n : Nat} :
      childrenOf node = some children → c ∈ children → Nested n c → Nested (n + 1) (.obj node)

/-- A node has more children than that, at any level. -/
inductive Wider (width : Nat) : Json → Prop
  | here {node : List (String × Json)} {children : List Json} :
      childrenOf node = some children → width < children.length → Wider width (.obj node)
  | under {node : List (String × Json)} {children : List Json} {c : Json} :
      childrenOf node = some children → c ∈ children → Wider width c → Wider width (.obj node)

theorem Nested.le {m n : Nat} {v : Json} (h : Nested n v) (hle : m ≤ n) : Nested m v := by
  induction m generalizing n v with
  | zero => exact .here v
  | succ m ih =>
    cases h with
    | here v => exact absurd hle (Nat.not_succ_le_zero m)
    | under hchildren hc hn => exact .under hchildren hc (ih hn (Nat.le_of_succ_le_succ hle))

/-- A composite node that is let through: not too many children, each let through in turn. -/
theorem validateNode_children {levels : Nat} {node : List (String × Json)} {path : String} {r : Json}
    {children : List Json} (h : validateNode (levels + 1) (.obj node) path = .ok r)
    (hchildren : childrenOf node = some children) :
    children.length ≤ maxWidth ∧ ∀ c ∈ children, ∃ path r, validateNode levels c path = .ok r := by
  unfold childrenOf at hchildren
  obtain ⟨key, hkey, hlookup⟩ := Option.bind_eq_some_iff.1 hchildren
  unfold validateNode at h
  rw [hkey] at h
  dsimp only at h
  split at hlookup
  · next children' heq =>
    cases hlookup
    rw [heq] at h
    dsimp only at h
    obtain ⟨_, hwidth, h⟩ := bind_ok h
    obtain ⟨validated, hvalidated, -⟩ := bind_ok h
    refine ⟨of_decide_eq_true (ensure_ok hwidth), fun c hc => ?_⟩
    obtain ⟨j, w, hw⟩ := mapIndexed_each hvalidated hc
    exact ⟨_, w, hw⟩
  · cases hlookup

theorem not_nested_of_ok {levels : Nat} {v r : Json} {path : String} (h : validateNode levels v path = .ok r) :
    ¬Nested levels v := by
  induction levels generalizing v r path with
  | zero => cases h
  | succ levels ih =>
    intro hnested
    cases hnested with
    | under hchildren hc hn =>
      obtain ⟨path', r', hr'⟩ := (validateNode_children h hchildren).2 _ hc
      exact ih hr' hn

theorem not_wider_of_ok {levels : Nat} {v r : Json} {path : String} (h : validateNode levels v path = .ok r) :
    ¬Wider maxWidth v := by
  induction levels generalizing v r path with
  | zero => cases h
  | succ levels ih =>
    intro hwide
    cases hwide with
    | here hchildren hlt => exact absurd (validateNode_children h hchildren).1 (Nat.not_le_of_lt hlt)
    | under hchildren hc hn =>
      obtain ⟨path', r', hr'⟩ := (validateNode_children h hchildren).2 _ hc
      exact ih hr' hn

end Discounts
