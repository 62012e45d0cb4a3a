import Mathlib.Data.List.Sort
import Shyraq.Discounts.Catalogue
import Shyraq.Kernel.ZoneArithmetic
import Shyraq.Transactions.Alone
import Shyraq.Transactions.Flows

/-!
# The validity window

An admin gives the first and the last day of a discount.  Both become UTC midnights, which the finder, the aggregate
and the expiry batch compare with the clock in three ways.  They keep to the days of the zone except early on the first
day and late on the last.
-/

namespace Discounts

open Kernel Transactions
open Billing (CustomDiscountStatus CustomDiscountType)
open Diagnostics (Json)

/-! ## The request -/

/-- `CreateCustomDiscountDto`, with the dates as text. -/
structure CreateCustomDiscountDto where
  name : LocalisedText
  description : Option LocalisedText
  discountType : CustomDiscountType
  amount : Decimal
  conditions : Json
  targetType : String
  targetIds : Option (List Nat)
  validFrom : List Char
  validUntil : Option (List Char)
  maxUsesPerChild : Option Int
  totalMaxUses : Option Int
  priority : Option Int
  stackable : Option Bool
  notifyOnActivation : Option Bool
  notificationTitle : Option LocalisedText
  notificationBody : Option LocalisedText

/-- `dto.valid_until ? new Date(dto.valid_until) : null`. -/
def AdminCustomDiscountController.readUntil : Option (List Char) → Option (Option Int)
  | none | some [] => some none
  | some text => (parseDate text).map some

/-- What `create` hands to the service; an invalid date is none. -/
def AdminCustomDiscountController.createInput (dto : CreateCustomDiscountDto) : Option CreateCustomDiscountInput := do
  let validFrom ← parseDate dto.validFrom
  let validUntil ← readUntil dto.validUntil
  some {
    name := dto.name
    description := dto.description
    discountType := dto.discountType
    amount := dto.amount
    conditions := dto.conditions
    targetType := dto.targetType
    targetIds := dto.targetIds
    validFrom := validFrom
    validUntil := validUntil
    maxUsesPerChild := dto.maxUsesPerChild
    totalMaxUses := dto.totalMaxUses
    priority := dto.priority
    stackable := dto.stackable
    notifyOnActivation := dto.notifyOnActivation
    notificationTitle := dto.notificationTitle
    notificationBody := dto.notificationBody }

/-! ## Who reads the window -/

namespace CustomDiscountRepository

/-- `WHERE` of `findActiveCustomDiscounts`. -/
def isSelected (now : Int) (row : CustomDiscount) : Bool :=
  row.status == .active && decide (row.validFrom ≤ now) && row.validUntil.all fun validUntil => decide (now < validUntil)

/-- Rows of one priority stay in the order of their creation. -/
def findActiveCustomDiscounts (now : Int) : Sql (List CustomDiscount) := do
  let rows ← Prog.query fun s => (s.discounts.filter (isSelected now)).insertionSort fun a b => b.priority ≤ a.priority
  Prog.ofExcept (rows.mapM CustomDiscount.toDomain)

end CustomDiscountRepository

def CustomDiscount.isActive (state : CustomDiscount) (now : Int) : Bool :=
  if state.status ≠ .active then false
  else if now < state.validFrom then false
  else if state.validUntil.any (fun validUntil => decide (validUntil < now)) then false
  else true

/-! ## What is claimed -/

/-- `YYYY-MM-DD`. -/
structure IsoDate (text : List Char) (d : Int) : Prop where
  text : text = dayText d
  year : 0 ≤ yearOf d ∧ yearOf d ≤ 9999

/-- At this instant all three keep to the days `d₁` to `d₂` of the zone. -/
structure KeepsToDays (z : Zone) (d₁ d₂ t : Int) (id : Nat) (s : Store) : Prop where
  selected : ∃ found, (CustomDiscountRepository.findActiveCustomDiscounts t).reads s = some (.ok found) ∧
    (id ∈ found.map CustomDiscount.id ↔ d₁ ≤ z.dayAt t ∧ z.dayAt t ≤ d₂)
  agrees : ∃ found discount, (CustomDiscountRepository.findActiveCustomDiscounts t).reads s = some (.ok found) ∧
    (CustomDiscountRepository.findById id).reads s = some (.ok (some discount)) ∧
    (discount.isActive t = true ↔ id ∈ found.map CustomDiscount.id)
  expired : ∀ ids tx, (CustomDiscountRepository.markExpiredBatch t).alone s [] .start = some (.ok (ids, tx)) →
    id ∈ ids → d₂ < z.dayAt t

/-- Not before the UTC midnight of the first day, and not from that of the last day on. -/
def OffTheEdges (z : Zone) (d₁ d₂ t : Int) : Prop :=
  (z.dayAt t = d₁ → midnight d₁ ≤ t) ∧ (z.dayAt t = d₂ → t < midnight d₂)

/-- The request changes the window of the discount. -/
def Op.patchesWindow (id : Nat) : Op → Bool
  | .update id' patch => id' == id && (patch.validFrom.isSome || patch.validUntil.isSome)
  | _ => false

/-- The commit creates the discount for the days `d₁` to `d₂`. -/
structure CreatedWithin (d₁ d₂ : Int) (id : Nat) (s : Store) (c : Commit) : Prop where
  request : ∃ dto text input createdBy, c.op = .create input createdBy ∧
    AdminCustomDiscountController.createInput dto = some input ∧ IsoDate dto.validFrom d₁ ∧
    dto.validUntil = some text ∧ IsoDate text d₂
  absent : s.discount id = none
  row : ((c.tx.view s).discount id).isSome = true

/-! ## Days and midnights -/

section

variable {z : Zone} {d₁ d₂ t : Int}

theorem dayAt_bounds (hz : ∀ u, 0 ≤ z.offsetAt u) : midnight (z.dayAt t) - 50400000 ≤ t ∧ t < midnight (z.dayAt t + 1) := by
  have hoffset := z.bounded (t / 1000)
  have hnonneg := hz (t / 1000)
  unfold midnight Zone.dayAt Zone.wallOf Zone.wall msPerDay
  omega

/-- East of Greenwich the three readings keep to the days exactly off the edges. -/
theorem readings_iff (hz : ∀ u, 0 ≤ z.offsetAt u) (hdays : d₁ < d₂) :
    ((midnight d₁ ≤ t ∧ t < midnight d₂ ↔ d₁ ≤ z.dayAt t ∧ z.dayAt t ≤ d₂) ∧
      (midnight d₁ ≤ t ∧ t ≤ midnight d₂ ↔ midnight d₁ ≤ t ∧ t < midnight d₂) ∧
      (midnight d₂ ≤ t → d₂ < z.dayAt t)) ↔ OffTheEdges z d₁ d₂ t := by
  obtain ⟨hlow, hhigh⟩ := dayAt_bounds hz (t := t)
  unfold OffTheEdges
  unfold midnight msPerDay at *
  generalize z.dayAt t = day at *
  omega

end

/-! ## The three readings of a row -/

section

variable {row d : CustomDiscount} {s : Store} {t : Int}

theorem toDomain_of_valid (h : row.Valid) : ∃ c, row.toDomain = .ok { row with conditions := c } := by
  have hok := hydrates_iff.2 h
  unfold CustomDiscount.hydrates at hok
  cases hd : row.toDomain with
  | error e =>
    rw [hd] at hok
    cases hok
  | ok d =>
    unfold CustomDiscount.toDomain at hd
    obtain ⟨c, -, hstate⟩ := step_ok hd
    obtain ⟨c', hc'⟩ := (fromState_ok hstate).conditions
    rw [fromState_of_valid (fromState_ok hstate) hc'] at hstate
    exact ⟨c', congrArg Except.ok (Except.ok.inj hstate).symm⟩

theorem mapM_toDomain {rows : List CustomDiscount} (h : ∀ row ∈ rows, row.Valid) :
    ∃ found, rows.mapM CustomDiscount.toDomain = .ok found ∧
      found.map CustomDiscount.id = rows.map CustomDiscount.id := by
  induction rows with
  | nil => exact ⟨[], rfl, rfl⟩
  | cons row rows ih =>
    obtain ⟨found, hfound, hids⟩ := ih fun r hr => h r (List.mem_cons_of_mem row hr)
    obtain ⟨c, hc⟩ := toDomain_of_valid (h row List.mem_cons_self)
    refine ⟨{ row with conditions := c } :: found, ?_, congrArg (row.id :: ·) hids⟩
    rw [List.mapM_cons, hc, hfound]
    rfl

theorem reads_findActive (hs : ∀ row ∈ s.discounts, row.Valid) :
    ∃ found, (CustomDiscountRepository.findActiveCustomDiscounts t).reads s = some (.ok found) ∧
      ∀ id, id ∈ found.map CustomDiscount.id ↔
        ∃ row ∈ s.discounts, row.id = id ∧ CustomDiscountRepository.isSelected t row = true := by
  let rows := (s.discounts.filter (CustomDiscountRepository.isSelected t)).insertionSort fun a b => b.priority ≤ a.priority
  have hrows : ∀ row, row ∈ rows ↔ row ∈ s.discounts ∧ CustomDiscountRepository.isSelected t row = true := fun row =>
    (List.mem_insertionSort _).trans List.mem_filter
  obtain ⟨found, hfound, hids⟩ := mapM_toDomain fun row hrow => hs row ((hrows row).1 hrow).1
  refine ⟨found, ?_, fun id => ?_⟩
  · show (Prog.ofExcept (rows.mapM CustomDiscount.toDomain)).reads s = _
    rw [hfound]
    rfl
  · rw [hids, List.mem_map]
    constructor
    · rintro ⟨row, hrow, hid⟩
      exact ⟨row, ((hrows row).1 hrow).1, hid, ((hrows row).1 hrow).2⟩
    · rintro ⟨row, hrow, hid, hselected⟩
      exact ⟨row, (hrows row).2 ⟨hrow, hselected⟩, hid⟩

theorem selected_iff (hu : Table.Unique s.discounts) (hrow : s.discount row.id = some row) :
    (∃ r ∈ s.discounts, r.id = row.id ∧ CustomDiscountRepository.isSelected t r = true) ↔
      CustomDiscountRepository.isSelected t row = true := by
  constructor
  · rintro ⟨r, hr, hid, hselected⟩
    have hfind : s.discount row.id = some r := hid ▸ Table.find_of_mem hu hr
    obtain rfl := Option.some.inj (hfind.symm.trans hrow)
    exact hselected
  · intro hselected
    exact ⟨row, Table.mem_of_find hrow, rfl, hselected⟩

theorem reads_findById (h : row.Valid) (hrow : s.discount row.id = some row) :
    ∃ c, (CustomDiscountRepository.findById row.id).reads s = some (.ok (some { row with conditions := c })) := by
  obtain ⟨c, hc⟩ := toDomain_of_valid h
  refine ⟨c, ?_⟩
  show (CustomDiscountRepository.hydrate (s.discount row.id)).reads s = _
  rw [hrow]
  show (Prog.bind (Prog.ofExcept row.toDomain) fun d => .ret (some d)).reads s = _
  rw [hc]
  rfl

theorem alone_expireEach {ids expired : List Nat} {tx : Tx Store Key Write} (hids : ids.Nodup)
    (hall : ∀ id ∈ ids, ((tx.view s).discount id).any (Store.expires t) = true) :
    ∃ tx', (CustomDiscountRepository.expireEach t expired ids).alone s [] tx = some (.ok (expired ++ ids, tx')) := by
  induction ids generalizing expired tx with
  | nil => exact ⟨tx, by rw [List.append_nil]; rfl⟩
  | cons id ids ih =>
    obtain ⟨hnot, hids⟩ := List.nodup_cons.1 hids
    have hhit : Relational.hit (tx.view s) (Write.expire id t) = true := hall id List.mem_cons_self
    have hrest : ∀ j ∈ ids, (((tx.wrote (.expire id t)).view s).discount j).any (Store.expires t) = true := by
      intro j hj
      have hne : j ≠ id := fun hji => hnot (hji ▸ hj)
      rw [Tx.view_wrote, discount_apply, effect_of_ne fun hmem => hne (Key.row.inj (List.mem_singleton.1 hmem))]
      exact hall j (List.mem_cons_of_mem id hj)
    have htail : ∃ tx', (CustomDiscountRepository.expireEach t (expired ++ [id]) ids).alone s []
        (tx.wrote (.expire id t)) = some (.ok (expired ++ [id] ++ ids, tx')) := ih hids hrest
    obtain ⟨tx', htx⟩ := htail
    refine ⟨tx', ?_⟩
    show (if Relational.hit (tx.view s) (Write.expire id t) then
      (CustomDiscountRepository.expireEach t (expired ++ [id]) ids).alone s [] (tx.wrote (.expire id t)) else _) = _
    rw [if_pos hhit, htx, List.append_assoc]
    rfl

theorem any_expires (hu : Table.Unique s.discounts) {id : Nat} (hid : id ∈ CustomDiscountRepository.overdueIds t s) :
    (s.discount id).any (Store.expires t) = true := by
  obtain ⟨row, hrow, rfl⟩ := List.mem_map.1 hid
  obtain ⟨hrow, hexpires⟩ := List.mem_filter.1 hrow
  have hfind : s.discount row.id = some row := Table.find_of_mem hu hrow
  rw [hfind]
  exact hexpires

theorem alone_markExpiredBatch (hu : Table.Unique s.discounts) :
    ∃ tx, (CustomDiscountRepository.markExpiredBatch t).alone s [] .start =
      some (.ok (CustomDiscountRepository.overdueIds t s, tx)) := by
  have hnodup : (CustomDiscountRepository.overdueIds t s).Nodup :=
    List.Nodup.sublist (List.Sublist.map _ List.filter_sublist) hu
  have hall : ∀ id ∈ CustomDiscountRepository.overdueIds t s,
      ((((Tx.start : Tx Store Key Write).saw s).view s).discount id).any (Store.expires t) = true := by
    intro id hid
    rw [Tx.view_saw, Tx.view_start]
    exact any_expires hu hid
  exact alone_expireEach hnodup hall

theorem expired_iff (hu : Table.Unique s.discounts) (hrow : s.discount row.id = some row) :
    row.id ∈ CustomDiscountRepository.overdueIds t s ↔ Store.expires t row = true := by
  unfold CustomDiscountRepository.overdueIds
  rw [List.mem_map]
  constructor
  · rintro ⟨r, hr, hid⟩
    obtain ⟨hr, hexpires⟩ := List.mem_filter.1 hr
    have hfind : s.discount row.id = some r := hid ▸ Table.find_of_mem hu hr
    obtain rfl := Option.some.inj (hfind.symm.trans hrow)
    exact hexpires
  · intro hexpires
    exact ⟨row, List.mem_filter.2 ⟨Table.mem_of_find hrow, hexpires⟩, rfl⟩

end

/-! ## An active discount -/

section

variable {z : Zone} {d₁ d₂ t : Int} {row : CustomDiscount} {s : Store}

/-- An active discount with this window. -/
structure ActiveWithin (d₁ d₂ : Int) (row : CustomDiscount) : Prop where
  status : row.status = .active
  validFrom : row.validFrom = midnight d₁
  validUntil : row.validUntil = some (midnight d₂)

theorem ActiveWithin.isSelected_iff (h : ActiveWithin d₁ d₂ row) :
    CustomDiscountRepository.isSelected t row = true ↔ midnight d₁ ≤ t ∧ t < midnight d₂ := by
  unfold CustomDiscountRepository.isSelected
  rw [h.status, h.validFrom, h.validUntil]
  simp only [beq_self_eq_true, Bool.true_and, Option.all_some, Bool.and_eq_true, decide_eq_true_eq]

theorem ActiveWithin.isActive_iff (h : ActiveWithin d₁ d₂ row) :
    row.isActive t = true ↔ midnight d₁ ≤ t ∧ t ≤ midnight d₂ := by
  unfold CustomDiscount.isActive
  rw [if_neg (not_not_intro h.status), h.validFrom, h.validUntil, Option.any_some]
  by_cases hlow : t < midnight d₁
  · rw [if_pos hlow]
    exact iff_of_false Bool.false_ne_true fun hin => absurd hlow (Int.not_lt.2 hin.1)
  · rw [if_neg hlow]
    by_cases hhigh : midnight d₂ < t
    · rw [if_pos (decide_eq_true hhigh)]
      exact iff_of_false Bool.false_ne_true fun hin => absurd hhigh (Int.not_lt.2 hin.2)
    · rw [if_neg fun hd => hhigh (of_decide_eq_true hd)]
      exact iff_of_true rfl ⟨Int.not_lt.1 hlow, Int.not_lt.1 hhigh⟩

theorem ActiveWithin.expires_iff (h : ActiveWithin d₁ d₂ row) : Store.expires t row = true ↔ midnight d₂ ≤ t := by
  unfold Store.expires CustomDiscount.overdue
  rw [h.status, h.validUntil, Option.any_some]
  exact ⟨fun hd => of_decide_eq_true (Bool.and_eq_true_iff.1 hd).2, fun hle => by rw [decide_eq_true hle]; rfl⟩

theorem keepsToDays_iff_readings (hu : Table.Unique s.discounts) (hs : ∀ row ∈ s.discounts, row.Valid)
    (hrow : s.discount row.id = some row) (h : ActiveWithin d₁ d₂ row) : KeepsToDays z d₁ d₂ t row.id s ↔
      ((midnight d₁ ≤ t ∧ t < midnight d₂ ↔ d₁ ≤ z.dayAt t ∧ z.dayAt t ≤ d₂) ∧
        (midnight d₁ ≤ t ∧ t ≤ midnight d₂ ↔ midnight d₁ ≤ t ∧ t < midnight d₂) ∧
        (midnight d₂ ≤ t → d₂ < z.dayAt t)) := by
  obtain ⟨found, hfound, hselected⟩ := reads_findActive (t := t) hs
  have hselected : row.id ∈ found.map CustomDiscount.id ↔ midnight d₁ ≤ t ∧ t < midnight d₂ :=
    (hselected row.id).trans ((selected_iff hu hrow).trans h.isSelected_iff)
  obtain ⟨c, hc⟩ := reads_findById (hs row (Table.mem_of_find hrow)) hrow
  have hactive : CustomDiscount.isActive { row with conditions := c } t = true ↔ midnight d₁ ≤ t ∧ t ≤ midnight d₂ :=
    h.isActive_iff
  obtain ⟨tx, htx⟩ := alone_markExpiredBatch (t := t) hu
  have hexpired : row.id ∈ CustomDiscountRepository.overdueIds t s ↔ midnight d₂ ≤ t :=
    (expired_iff hu hrow).trans h.expires_iff
  constructor
  · intro hk
    refine ⟨?_, ?_, fun hle => hk.expired _ tx htx (hexpired.2 hle)⟩
    · obtain ⟨found', hfound', hin⟩ := hk.selected
      obtain rfl := Except.ok.inj (Option.some.inj (hfound.symm.trans hfound'))
      exact hselected.symm.trans hin
    · obtain ⟨found', d, hfound', hd, hin⟩ := hk.agrees
      obtain rfl := Except.ok.inj (Option.some.inj (hfound.symm.trans hfound'))
      obtain rfl := Option.some.inj (Except.ok.inj (Option.some.inj (hc.symm.trans hd)))
      exact hactive.symm.trans (hin.trans hselected)
  · rintro ⟨hdays, hagree, hafter⟩
    refine ⟨⟨found, hfound, hselected.trans hdays⟩, ⟨found, _, hfound, hc, ?_⟩, fun ids tx' htx' hid => ?_⟩
    · exact hactive.trans (hagree.trans hselected.symm)
    · obtain ⟨rfl, -⟩ := Prod.mk.inj (Except.ok.inj (Option.some.inj (htx.symm.trans htx')))
      exact hafter (hexpired.1 hid)

end

/-! ## What the requests write -/

/-- Only a creation inserts, with the window of its input; only a patch updates. -/
structure Op.Makes (op : Op) (w : Write) : Prop where
  insert : ∀ row, w = .insert row → ∃ input createdBy, op = .create input createdBy ∧
    row.validFrom = input.validFrom ∧ row.validUntil = input.validUntil
  update : ∀ id patch expected, w = .update id patch expected → op = .update id patch

theorem Op.makes_of_other (op : Op) {w : Write} (hinsert : ∀ row, w ≠ .insert row)
    (hupdate : ∀ id patch expected, w ≠ .update id patch expected) : op.Makes w :=
  ⟨fun row h => absurd h (hinsert row), fun id patch expected h => absurd h (hupdate id patch expected)⟩

variable {input : CreateCustomDiscountInput}

section

variable {P : Write → Prop} {id : Nat}

theorem onlyWrites_reload : Prog.OnlyWrites P (CustomDiscountRepository.reload id) := by
  refine Prog.OnlyWrites.bind (.query fun row => ?_) fun _ => onlyWrites_findById id
  cases row.all CustomDiscount.meetsChecks <;> trivial

theorem onlyWrites_readBack (matched : Bool) : Prog.OnlyWrites P (CustomDiscountRepository.readBack id matched) := by
  cases matched with
  | true => exact onlyWrites_reload
  | false => trivial

theorem onlyWrites_orRefuse (attempted : String) (found : Option CustomDiscount) :
    Prog.OnlyWrites P (CustomDiscountService.orRefuse id attempted found) := by
  cases found with
  | some discount => trivial
  | none => exact (onlyWrites_findById id).bind fun _ => .require fun _ => trivial

theorem onlyWrites_simpleTransition {fromStatus : List CustomDiscountStatus} {toStatus : CustomDiscountStatus}
    (attempted : String) (h : P (.transition id fromStatus toStatus)) :
    Prog.OnlyWrites P (CustomDiscountService.simpleTransition id fromStatus toStatus attempted) := by
  refine Prog.OnlyWrites.bind ?_ fun found => onlyWrites_orRefuse attempted found
  exact ⟨h, fun matched => onlyWrites_readBack matched⟩

theorem onlyWrites_create {createdBy : Option Nat}
    (h : ∀ row, row.validFrom = input.validFrom → row.validUntil = input.validUntil → P (.insert row)) :
    Prog.OnlyWrites P (CustomDiscountService.create input createdBy) := by
  refine .ofExcept fun _ id => ?_
  refine .insertOr (h _ rfl rfl) (onlyWrites_reload.bind fun discount => ?_)
  cases discount <;> trivial

theorem onlyWrites_updateOp {patch : UpdateCustomDiscountPatch} (h : ∀ expected, P (.update id patch expected)) :
    Prog.OnlyWrites P (CustomDiscountService.update id patch) := by
  refine (onlyWrites_findById id).bind fun existing => .require fun existing => .guardOr (.ofExcept fun _ => ?_)
  refine Prog.OnlyWrites.bind ?_ fun updated => onlyWrites_orRefuse "update" updated
  exact ⟨h _, fun matched => onlyWrites_readBack matched⟩

theorem onlyWrites_activate {resolve : CustomDiscount → Option (List Nat)}
    (h : ∀ expected status, P (.transition id expected status)) (henqueue : ∀ event, P (.enqueue event)) :
    Prog.OnlyWrites P (CustomDiscountService.activate resolve id) := by
  show Prog.OnlyWrites P (Prog.bind (CustomDiscountRepository.findById id) _)
  refine (onlyWrites_findById id).bind fun locked => .require fun locked => .guardOr ?_
  refine Prog.OnlyWrites.bind ⟨h _ _, fun matched => onlyWrites_readBack matched⟩ fun flipped => .require fun flipped => ?_
  refine Prog.OnlyWrites.bind ((onlyWrites_notifyActivated resolve flipped).mono ?_) fun _ => trivial
  rintro w ⟨event, rfl⟩
  exact henqueue event

theorem onlyWrites_expireEach {now : Int} (h : ∀ id, P (.expire id now)) (expired ids : List Nat) :
    Prog.OnlyWrites P (CustomDiscountRepository.expireEach now expired ids) := by
  induction ids generalizing expired with
  | nil => trivial
  | cons id ids ih => exact ⟨h id, fun matched => ih _⟩

end

theorem makes_prog (op : Op) : Prog.OnlyWrites op.Makes op.prog := by
  have transition : ∀ id expected status, op.Makes (.transition id expected status) := fun _ _ _ =>
    op.makes_of_other (fun _ => Write.noConfusion) fun _ _ _ => Write.noConfusion
  have expire : ∀ now id, op.Makes (.expire id now) := fun _ _ =>
    op.makes_of_other (fun _ => Write.noConfusion) fun _ _ _ => Write.noConfusion
  have enqueue : ∀ event, op.Makes (.enqueue event) := fun _ =>
    op.makes_of_other (fun _ => Write.noConfusion) fun _ _ _ => Write.noConfusion
  cases op with
  | create input createdBy =>
    refine (onlyWrites_create fun row hfrom huntil => ?_).bind fun _ => trivial
    exact ⟨fun _ h => Write.insert.inj h ▸ ⟨input, createdBy, rfl, hfrom, huntil⟩, fun _ _ _ h => Write.noConfusion h⟩
  | update id patch =>
    refine (onlyWrites_updateOp fun expected => ?_).bind fun _ => trivial
    refine ⟨fun _ h => Write.noConfusion h, fun id' patch' expected' h => ?_⟩
    obtain ⟨rfl, rfl, -⟩ := Write.update.inj h
    rfl
  | activate resolve id => exact (onlyWrites_activate (transition id) enqueue).bind fun _ => trivial
  | pause id => exact (onlyWrites_simpleTransition "pause" (transition _ _ _)).bind fun _ => trivial
  | resume id => exact (onlyWrites_simpleTransition "resume" (transition _ _ _)).bind fun _ => trivial
  | cancel id => exact (onlyWrites_simpleTransition "cancel" (transition _ _ _)).bind fun _ => trivial
  | expireOverdue now =>
    exact (Prog.OnlyWrites.query fun ids => onlyWrites_expireEach (expire now) [] ids).bind fun _ => trivial

/-! ## The window of a row -/

/-- There is a row, and it has this window. -/
def HasWindow (validFrom : Int) (validUntil : Option Int) (o : Option CustomDiscount) : Prop :=
  ∃ row, o = some row ∧ row.validFrom = validFrom ∧ row.validUntil = validUntil

section

variable {validFrom : Int} {validUntil : Option Int} {o : Option CustomDiscount} {id : Nat} {op : Op} {w : Write}
  {s : Store} {tx : Tx Store Key Write}

theorem HasWindow.effect (hw : op.Makes w) (hop : op.patchesWindow id = false) (h : HasWindow validFrom validUntil o) :
    HasWindow validFrom validUntil (w.effect id o) := by
  obtain ⟨row, rfl, hfrom, huntil⟩ := h
  have either : ∀ {c : Prop} [Decidable c] {row' : CustomDiscount},
      (c → row'.validFrom = row.validFrom ∧ row'.validUntil = row.validUntil) →
      HasWindow validFrom validUntil (some (if c then row' else row)) := by
    intro c _ row' hsame
    by_cases hc : c
    · rw [if_pos hc]
      exact ⟨row', rfl, (hsame hc).1.trans hfrom, (hsame hc).2.trans huntil⟩
    · rw [if_neg hc]
      exact ⟨row, rfl, hfrom, huntil⟩
  cases w with
  | insert r => exact ⟨row, rfl, hfrom, huntil⟩
  | update id' patch expected =>
    refine either fun ⟨hid, _⟩ => ?_
    rw [hw.update id' patch expected rfl] at hop
    change (id' == id && (patch.validFrom.isSome || patch.validUntil.isSome)) = false at hop
    rw [hid, beq_self_eq_true, Bool.true_and, Bool.or_eq_false_iff] at hop
    have hpatch : patch.validFrom = none ∧ patch.validUntil = none :=
      ⟨Option.isNone_iff_eq_none.1 (Option.isSome_eq_false_iff.1 hop.1),
        Option.isNone_iff_eq_none.1 (Option.isSome_eq_false_iff.1 hop.2)⟩
    unfold CustomDiscount.patched
    rw [hpatch.1, hpatch.2]
    exact ⟨rfl, rfl⟩
  | transition id' expected status => exact either fun _ => ⟨rfl, rfl⟩
  | expire id' now => exact either fun _ => ⟨rfl, rfl⟩
  | enqueue event => exact ⟨row, rfl, hfrom, huntil⟩

theorem row_view_of_effect {I : Option CustomDiscount → Prop} (hw : ∀ w ∈ tx.writes, ∀ o, I o → I (w.effect id o))
    (h : I (s.discount id)) : I ((tx.view s).discount id) := by
  rw [discount_view]
  generalize s.discount id = o at h
  generalize tx.writes = ws at hw
  induction ws generalizing o with
  | nil => exact h
  | cons w ws ih => exact ih _ (hw w List.mem_cons_self o h) fun u hu => hw u (List.mem_cons_of_mem w hu)

theorem HasWindow.view (hw : ∀ w ∈ tx.writes, op.Makes w) (hop : op.patchesWindow id = false)
    (h : HasWindow validFrom validUntil (s.discount id)) : HasWindow validFrom validUntil ((tx.view s).discount id) :=
  row_view_of_effect (fun w hmem _ ho => ho.effect (hw w hmem) hop) h

theorem window_of_created {createdBy : Option Nat}
    (hw : ∀ w ∈ tx.writes, (Op.create input createdBy).Makes w) (habsent : s.discount id = none)
    (hrow : ((tx.view s).discount id).isSome = true) :
    HasWindow input.validFrom input.validUntil ((tx.view s).discount id) := by
  have hstep : ∀ w ∈ tx.writes, ∀ o, (o = none ∨ HasWindow input.validFrom input.validUntil o) →
      (w.effect id o = none ∨ HasWindow input.validFrom input.validUntil (w.effect id o)) := by
    rintro w hmem o (rfl | hwindow)
    · cases w with
      | insert row =>
        obtain ⟨input', createdBy', hop, hfrom, huntil⟩ := (hw _ hmem).insert row rfl
        obtain ⟨rfl, rfl⟩ := Op.create.inj hop
        by_cases hid : row.id = id
        · exact .inr ⟨row, if_pos hid, hfrom, huntil⟩
        · exact .inl (if_neg hid)
      | _ => exact .inl rfl
    · exact .inr (hwindow.effect (hw w hmem) rfl)
  rcases row_view_of_effect hstep (.inl habsent) with hnone | hwindow
  · rw [hnone] at hrow
    cases hrow
  · exact hwindow

end

/-! ## Dates -/

theorem parseDate_isoDate {text : List Char} {d : Int} (h : IsoDate text d) : parseDate text = some (midnight d) := by
  have hyear := h.year
  have hday := readDay_dayText (d := d) (by omega) (by omega) []
  rw [List.append_nil] at hday
  rw [h.text]
  unfold parseDate
  rw [hday]
  rfl

theorem readUntil_isoDate {text : List Char} {d : Int} (h : IsoDate text d) :
    AdminCustomDiscountController.readUntil (some text) = some (some (midnight d)) := by
  have hparse := parseDate_isoDate h
  cases text with
  | nil => cases hparse
  | cons c cs =>
    show (parseDate (c :: cs)).map some = _
    rw [hparse]
    rfl

theorem createInput_window {dto : CreateCustomDiscountDto} {text : List Char} {d₁ d₂ : Int}
    (h : AdminCustomDiscountController.createInput dto = some input)
    (hfrom : IsoDate dto.validFrom d₁) (huntil : dto.validUntil = some text) (htext : IsoDate text d₂) :
    input.validFrom = midnight d₁ ∧ input.validUntil = some (midnight d₂) := by
  unfold AdminCustomDiscountController.createInput at h
  rw [parseDate_isoDate hfrom, huntil, readUntil_isoDate htext] at h
  obtain rfl := Option.some.inj h
  exact ⟨rfl, rfl⟩

/-! ## Every run -/

section

variable {n : Nat} {s : Store} {cs : Schedule n} {σ : System n} {z : Zone} {d₁ d₂ : Int} {id : Nat}

/-- What a commit owes the window. -/
structure WindowCommit (s : Store) (c : Commit) : Prop where
  unique : Table.Unique s.discounts
  outcome : Outcome c.tx s
  makes : ∀ w ∈ c.tx.writes, c.op.Makes w

theorem chain_window (hu : Table.Unique s.discounts) (hrun : run s cs = some σ) : Chain WindowCommit s σ.log σ.db := by
  have hops : System.Starts (fun _ => True) cs := fun _ _ _ => trivial
  let Q : Op → Tx Store Key Write → Store → Answer → Prop := fun op t s _ =>
    (Outcome t s ∧ ∀ w ∈ t.writes, Relational.keys Store w ⊆ t.held) ∧ ∀ w ∈ t.writes, op.Makes w
  have hsafe : ∀ (op : Op) (s : Store), True → Table.Unique s.discounts →
      op.prog.Safe rowLocks (fun s => Table.Unique s.discounts) (fun _ => True) (Q op) .start s := by
    intro op s _ hj
    refine ((safe_prog op hj).withKeys fun _ => trivial).and ?_
    refine (Prog.Safe.of_onlyWrites (makes_prog op) (fun _ => trivial) hj).mono fun t s a _ he => ?_
    obtain ⟨ws, hws, hmakes⟩ := he.1.writes
    rw [hws]
    exact hmakes
  have hchain := System.exec_chain (J := fun s => Table.Unique s.discounts) (Q := Q) hu hsafe
    (fun _ t _ _ hj _ => unique_view hj t) (fun _ _ _ _ _ h => guarantee_of_keys h.1.2) hops hrun
  exact hchain.mono fun s c h => ⟨h.1, h.2.1.1, h.2.2⟩

theorem Chain.valid {l : List Commit} {v : Store} (h : Chain WindowCommit s l v) (hu : Table.Unique s.discounts)
    (hs : ∀ row ∈ s.discounts, row.Valid) : Table.Unique v.discounts ∧ ∀ row ∈ v.discounts, row.Valid :=
  Transactions.Chain.inv (fun v => Table.Unique v.discounts ∧ ∀ row ∈ v.discounts, row.Valid) ⟨hu, hs⟩
    (fun _ c hv hc => ⟨unique_view hv.1 c.tx, hc.outcome.valid hv.1 hv.2⟩) h

/-- From its creation on, a discount whose window is not patched keeps the midnights of its days. -/
theorem window_after_creation {c : Commit} {after : List Commit} (hcreated : CreatedWithin d₁ d₂ id s c)
    (hlog : AtEach WindowCommit s (c :: after)) (hops : ∀ d ∈ after, d.op.patchesWindow id = false) :
    HasWindow (midnight d₁) (some (midnight d₂)) ((replay s (c :: after)).discount id) := by
  obtain ⟨dto, text, input, createdBy, hop, hinput, hfrom, huntil, htext⟩ := hcreated.request
  obtain ⟨hfrom, huntil⟩ := createInput_window hinput hfrom huntil htext
  have hfirst : HasWindow input.validFrom input.validUntil ((c.tx.view s).discount id) :=
    window_of_created (hop ▸ hlog.1.makes) hcreated.absent hcreated.row
  rw [hfrom, huntil] at hfirst
  have hrest := (hlog.2.and (AtEach.of_mem hops)).chain
  exact hrest.inv (fun s => HasWindow (midnight d₁) (some (midnight d₂)) (s.discount id)) hfirst
    fun s c h hc => h.view hc.1.makes hc.2

/-- In every run, what is claimed of an active discount is what its two midnights do. -/
theorem readings_of_run (hu : Table.Unique s.discounts) (hs : ∀ row ∈ s.discounts, row.hydrates = true)
    (hrun : run s cs = some σ) {before after : List Commit} {c : Commit} (hpre : before ++ c :: after <+: σ.log)
    (hcreated : CreatedWithin d₁ d₂ id (replay s before) c) (hops : ∀ d ∈ after, d.op.patchesWindow id = false)
    (hactive : ∀ row, (replay s (before ++ c :: after)).discount id = some row → row.status = .active) :
    d₁ < d₂ ∧ ∀ t, KeepsToDays z d₁ d₂ t id (replay s (before ++ c :: after)) ↔
      ((midnight d₁ ≤ t ∧ t < midnight d₂ ↔ d₁ ≤ z.dayAt t ∧ z.dayAt t ≤ d₂) ∧
        (midnight d₁ ≤ t ∧ t ≤ midnight d₂ ↔ midnight d₁ ≤ t ∧ t < midnight d₂) ∧
        (midnight d₂ ≤ t → d₂ < z.dayAt t)) := by
  have hlog : AtEach WindowCommit s (before ++ c :: after) := (chain_window hu hrun).atEach.of_prefix hpre
  obtain ⟨hunique, hvalid⟩ := Chain.valid hlog.chain hu fun row hrow => hydrates_iff.1 (hs row hrow)
  have hwindow := window_after_creation hcreated (atEach_append.1 hlog).2 hops
  have hreplay : replay (replay s before) (c :: after) = replay s (before ++ c :: after) :=
    (List.foldl_append ..).symm
  rw [hreplay] at hwindow
  generalize replay s (before ++ c :: after) = v at *
  obtain ⟨row, hrow, hfrom, huntil⟩ := hwindow
  obtain rfl : row.id = id := Table.id_of_find hrow
  have hdays : d₁ < d₂ := by
    have hmidnights := (hvalid row (Table.mem_of_find hrow)).window _ huntil
    rw [hfrom] at hmidnights
    unfold midnight msPerDay at hmidnights
    omega
  exact ⟨hdays, fun t => keepsToDays_iff_readings hunique hvalid hrow ⟨hactive row hrow, hfrom, huntil⟩⟩

/-- **The validity window.**  In every run, while a discount that was created for the days `d₁` to `d₂` is active and
its window is as created, the finder, the aggregate and the expiry batch keep to these days of a zone east of Greenwich
exactly at the instants off the edges. -/
theorem keepsToDays_iff_offTheEdges (hz : ∀ u, 0 ≤ z.offsetAt u) (hu : Table.Unique s.discounts)
    (hs : ∀ row ∈ s.discounts, row.hydrates = true) (hrun : run s cs = some σ) :
    ∀ before c after, before ++ c :: after <+: σ.log → CreatedWithin d₁ d₂ id (replay s before) c →
      (∀ d ∈ after, d.op.patchesWindow id = false) →
      (∀ row, (replay s (before ++ c :: after)).discount id = some row → row.status = .active) →
      ∀ t, KeepsToDays z d₁ d₂ t id (replay s (before ++ c :: after)) ↔ OffTheEdges z d₁ d₂ t := by
  intro before c after hpre hcreated hops hactive t
  obtain ⟨hdays, hreadings⟩ := readings_of_run hu hs hrun hpre hcreated hops hactive
  exact (hreadings t).trans (readings_iff hz hdays)

end

/-! ## March -/

/-- From 2026-03-01 to 2026-03-31. -/
def marchDto : CreateCustomDiscountDto :=
  { name := [("ru", "Март")], description := none, discountType := .percentage, amount := 15, conditions := .obj []
    targetType := "all", targetIds := none, validFrom := "2026-03-01".toList, validUntil := some "2026-03-31".toList
    maxUsesPerChild := none, totalMaxUses := none, priority := none, stackable := none, notifyOnActivation := some false
    notificationTitle := none, notificationBody := none }

/-- The discount is created and activated. -/
def marchRun : Schedule 1 :=
  ((AdminCustomDiscountController.createInput marchDto).map fun input =>
    Choice.request 0 (.create input none) 5 1 ++ Choice.request 0 (.activate (fun _ => none) 1) 7 0).getD []

def Op.createsWindow (validFrom : Int) (validUntil : Option Int) : Op → Bool
  | .create input _ => input.validFrom == validFrom && input.validUntil == validUntil
  | _ => false

theorem exists_dto {d₁ d₂ : Int} {op : Op} (h : op.createsWindow (midnight d₁) (some (midnight d₂)) = true)
    (h₁ : 0 ≤ yearOf d₁ ∧ yearOf d₁ ≤ 9999) (h₂ : 0 ≤ yearOf d₂ ∧ yearOf d₂ ≤ 9999) :
    ∃ dto text input createdBy, op = .create input createdBy ∧
      AdminCustomDiscountController.createInput dto = some input ∧ IsoDate dto.validFrom d₁ ∧
      dto.validUntil = some text ∧ IsoDate text d₂ := by
  cases op with
  | create input createdBy =>
    change (input.validFrom == midnight d₁ && input.validUntil == some (midnight d₂)) = true at h
    rw [Bool.and_eq_true, beq_iff_eq, beq_iff_eq] at h
    have hfrom : IsoDate (dayText d₁) d₁ := ⟨rfl, h₁⟩
    have huntil : IsoDate (dayText d₂) d₂ := ⟨rfl, h₂⟩
    refine ⟨{ input with validFrom := dayText d₁, validUntil := some (dayText d₂) }, dayText d₂, input, createdBy, rfl,
      ?_, hfrom, rfl, huntil⟩
    unfold AdminCustomDiscountController.createInput
    rw [parseDate_isoDate hfrom, readUntil_isoDate huntil, ← h.1, ← h.2]
    rfl
  | _ => cases h

/-- The first commit creates the discount, and it is active at the end. -/
def createsAndActivates (d₁ d₂ : Int) (id : Nat) (s : Store) : List Commit → Bool
  | [] => false
  | c :: after =>
      c.op.createsWindow (midnight d₁) (some (midnight d₂)) && (s.discount id).isNone &&
        ((c.tx.view s).discount id).isSome && after.all (fun d => !d.op.patchesWindow id) &&
        ((replay s (c :: after)).discount id).all fun row => row.status == .active

theorem created_of_shown {d₁ d₂ : Int} {id : Nat} {s : Store} {log : List Commit}
    (h : createsAndActivates d₁ d₂ id s log = true) (h₁ : 0 ≤ yearOf d₁ ∧ yearOf d₁ ≤ 9999)
    (h₂ : 0 ≤ yearOf d₂ ∧ yearOf d₂ ≤ 9999) : ∃ c after, log = c :: after ∧ CreatedWithin d₁ d₂ id s c ∧
      (∀ d ∈ after, d.op.patchesWindow id = false) ∧
      ∀ row, (replay s (c :: after)).discount id = some row → row.status = .active := by
  cases log with
  | nil => cases h
  | cons c after =>
    unfold createsAndActivates at h
    simp only [Bool.and_eq_true, List.all_eq_true, Bool.not_eq_true'] at h
    obtain ⟨⟨⟨⟨hop, hnone⟩, hsome⟩, hops⟩, hactive⟩ := h
    refine ⟨c, after, rfl, ⟨exists_dto hop h₁ h₂, Option.isNone_iff_eq_none.1 hnone, hsome⟩, hops, fun row hrow => ?_⟩
    rw [hrow] at hactive
    exact beq_iff_eq.1 hactive

/-- On the fifteenth at noon all three keep to March. -/
theorem keepsToDays_iff_offTheEdges_march : ∃ σ : System 1, run ⟨[], []⟩ marchRun = some σ ∧
    ∃ c after, σ.log = c :: after ∧ CreatedWithin 20513 20543 1 ⟨[], []⟩ c ∧
      KeepsToDays Zone.almaty 20513 20543 1773558000000 1 (replay ⟨[], []⟩ (c :: after)) := by
  obtain ⟨σ, hrun, h⟩ := run_shows run ⟨[], []⟩ marchRun (fun σ => createsAndActivates 20513 20543 1 ⟨[], []⟩ σ.log)
    (by decide +kernel)
  obtain ⟨c, after, hlog, hcreated, hops, hactive⟩ := created_of_shown h (by decide) (by decide)
  refine ⟨σ, hrun, c, after, hlog, hcreated, ?_⟩
  refine (keepsToDays_iff_offTheEdges (fun _ => (by decide : (0 : Int) ≤ 18000)) (by unfold Table.Unique; decide)
    (fun _ hrow => absurd hrow List.not_mem_nil) hrun [] c after ?_ hcreated hops hactive _).2 (by unfold OffTheEdges; decide)
  rw [List.nil_append, hlog]

/-- At noon of the last day, which is said to be included, the discount is not found any more. -/
theorem march_ends_early : ∃ σ : System 1, run ⟨[], []⟩ marchRun = some σ ∧
    ∃ c after, σ.log = c :: after ∧ CreatedWithin 20513 20543 1 ⟨[], []⟩ c ∧
      (∀ d ∈ after, d.op.patchesWindow 1 = false) ∧
      (∀ row, (replay ⟨[], []⟩ (c :: after)).discount 1 = some row → row.status = .active) ∧
      ¬KeepsToDays Zone.almaty 20513 20543 1774940400000 1 (replay ⟨[], []⟩ (c :: after)) := by
  obtain ⟨σ, hrun, h⟩ := run_shows run ⟨[], []⟩ marchRun (fun σ => createsAndActivates 20513 20543 1 ⟨[], []⟩ σ.log)
    (by decide +kernel)
  obtain ⟨c, after, hlog, hcreated, hops, hactive⟩ := created_of_shown h (by decide) (by decide)
  refine ⟨σ, hrun, c, after, hlog, hcreated, hops, hactive, fun hkeeps => ?_⟩
  have hpre : [] ++ c :: after <+: σ.log := by rw [List.nil_append, hlog]
  have hreadings := (readings_of_run (z := Zone.almaty) (by unfold Table.Unique; decide)
    (fun _ hrow => absurd hrow List.not_mem_nil) hrun hpre hcreated hops hactive).2 1774940400000
  exact absurd (hreadings.1 hkeeps).2.2 (by decide)

end Discounts
