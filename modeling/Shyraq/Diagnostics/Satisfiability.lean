import Mathlib.Data.Rat.Floor
import Mathlib.Data.List.Induction
import Mathlib.Data.List.Nodup
import Mathlib.Data.List.TakeWhile
import Shyraq.Kernel.Calendar
import Shyraq.Diagnostics.Schemas

/-!
# What a schema accepts

`Accepts` says it field by field, without the validator's order of checks.  An accepted schema has distinct keys, options
to choose from and bounds that leave room, so every field of it can be filled in; except a `scale`, whose bounds are
compared before the defaults and the integers come in.
-/

namespace Diagnostics

open Kernel

/-! ## Dates -/

/-- The last `k` decimal digits. -/
def digits : Nat → Nat → List Char
  | 0, _ => []
  | k + 1, n => digits k (n / 10) ++ [Char.ofNat (48 + n % 10)]

/-- `YYYY-MM-DD` of a day of the calendar. -/
def IsCalendarDay (s : String) : Prop :=
  ∃ y m d : Nat, y < 10000 ∧ (1 ≤ m ∧ m ≤ 12) ∧ (1 ≤ d ∧ (d : Int) ≤ daysInMonth y m) ∧
    s.toList = digits 4 y ++ '-' :: digits 2 m ++ '-' :: digits 2 d

theorem toNat_digit (n : Nat) : (Char.ofNat (48 + n % 10)).toNat = 48 + n % 10 := by
  have hvalid : (48 + n % 10).isValidChar := by
    left
    omega
  unfold Char.ofNat
  rw [dif_pos hvalid]
  rfl

theorem digitsOf_snoc (cs : List Char) (c : Char) : digitsOf (cs ++ [c]) = 10 * digitsOf cs + (c.toNat - 48) := by
  unfold digitsOf
  rw [List.foldl_append]
  rfl

theorem digitsOf_digits (k n : Nat) : digitsOf (digits k n) = n % 10 ^ k := by
  induction k generalizing n with
  | zero =>
    show 0 = n % 1
    omega
  | succ k ih =>
    show digitsOf (digits k (n / 10) ++ _) = _
    rw [digitsOf_snoc, ih, toNat_digit, Nat.pow_succ', Nat.mod_mul]
    omega

theorem length_digits (k n : Nat) : (digits k n).length = k := by
  induction k generalizing n with
  | zero => rfl
  | succ k ih =>
    show (digits k (n / 10) ++ _).length = _
    rw [List.length_append, ih]
    rfl

theorem isDigit_digits (k n : Nat) : (digits k n).all Char.isDigit = true := by
  induction k generalizing n with
  | zero => rfl
  | succ k ih =>
    show (digits k (n / 10) ++ [_]).all _ = true
    rw [List.all_append, ih, Bool.true_and, List.all_cons, List.all_nil, Bool.and_true]
    rw [Char.isDigit_iff_toNat, toNat_digit]
    have hzero : '0'.toNat = 48 := rfl
    have hnine : '9'.toNat = 57 := rfl
    omega

theorem digits_digitsOf {cs : List Char} (h : cs.all Char.isDigit = true) : digits cs.length (digitsOf cs) = cs := by
  induction cs using List.reverseRecOn with
  | nil => rfl
  | append_singleton cs c ih =>
    rw [List.all_append, Bool.and_eq_true] at h
    have hc : c.isDigit = true := by simpa using h.2
    rw [Char.isDigit_iff_toNat] at hc
    have hzero : '0'.toNat = 48 := rfl
    have hnine : '9'.toNat = 57 := rfl
    have hinit : (10 * digitsOf cs + (c.toNat - 48)) / 10 = digitsOf cs := by omega
    have hlast : 48 + (10 * digitsOf cs + (c.toNat - 48)) % 10 = c.toNat := by omega
    rw [List.length_append, digitsOf_snoc]
    show digits cs.length (_ / 10) ++ [Char.ofNat _] = _
    rw [hinit, hlast, ih h.1, Char.ofNat_toNat]

theorem digitsOf_lt {cs : List Char} (h : cs.all Char.isDigit = true) : digitsOf cs < 10 ^ cs.length := by
  have hself := digitsOf_digits cs.length (digitsOf cs)
  rw [digits_digitsOf h] at hself
  rw [hself]
  exact Nat.mod_lt _ (Nat.pow_pos (by omega))

theorem dateShaped_iff (s : String) : dateShaped s = true ↔
    ∃ ys ms ds : List Char, (ys.length = 4 ∧ ms.length = 2 ∧ ds.length = 2) ∧
      (ys.all Char.isDigit = true ∧ ms.all Char.isDigit = true ∧ ds.all Char.isDigit = true) ∧
      s.toList = ys ++ '-' :: ms ++ '-' :: ds := by
  unfold dateShaped
  constructor
  · intro h
    split at h
    · next a b c d e f g i heq =>
      refine ⟨[a, b, c, d], [e, f], [g, i], ⟨rfl, rfl, rfl⟩, ?_, heq⟩
      simpa [and_assoc] using h
    · cases h
  · rintro ⟨ys, ms, ds, ⟨hy, hm, hd⟩, ⟨hys, hms, hds⟩, heq⟩
    obtain ⟨a, b, c, d, rfl⟩ := List.length_eq_four.1 hy
    obtain ⟨e, f, rfl⟩ := List.length_eq_two.1 hm
    obtain ⟨g, i, rfl⟩ := List.length_eq_two.1 hd
    rw [heq]
    show ([a, b, c, d, e, f, g, i].all Char.isDigit) = true
    simp only [List.all_cons, List.all_nil, Bool.and_true, Bool.and_eq_true] at hys hms hds ⊢
    exact ⟨hys.1, hys.2.1, hys.2.2.1, hys.2.2.2, hms.1, hms.2, hds.1, hds.2⟩

theorem isCalendarDate_of_parts {s : String} {ys ms ds : List Char} (hy : ys.length = 4) (hm : ms.length = 2)
    (heq : s.toList = ys ++ '-' :: ms ++ '-' :: ds) : isCalendarDate s = true ↔
      (1 ≤ digitsOf ms ∧ digitsOf ms ≤ 12) ∧
        (1 ≤ digitsOf ds ∧ (digitsOf ds : Int) ≤ daysInMonth (digitsOf ys) (digitsOf ms)) := by
  obtain ⟨a, b, c, d, rfl⟩ := List.length_eq_four.1 hy
  obtain ⟨e, f, rfl⟩ := List.length_eq_two.1 hm
  unfold isCalendarDate
  rw [heq]
  show ((decide (1 ≤ digitsOf [e, f]) && decide (digitsOf [e, f] ≤ 12)) && decide (1 ≤ digitsOf ds) &&
    decide ((digitsOf ds : Int) ≤ monthStart (12 * (digitsOf [a, b, c, d] : Int) + ((digitsOf [e, f] : Int) - 1) + 1) -
      monthStart (12 * (digitsOf [a, b, c, d] : Int) + ((digitsOf [e, f] : Int) - 1)))) = true ↔ _
  generalize digitsOf [a, b, c, d] = y
  generalize digitsOf [e, f] = m
  simp only [Bool.and_eq_true, decide_eq_true_eq]
  constructor
  · rintro ⟨⟨⟨h₁, h₂⟩, h₃⟩, h₄⟩
    have := monthLength y m (by omega) (by omega)
    exact ⟨⟨h₁, h₂⟩, h₃, by omega⟩
  · rintro ⟨⟨h₁, h₂⟩, h₃, h₄⟩
    have := monthLength y m (by omega) (by omega)
    exact ⟨⟨⟨h₁, h₂⟩, h₃⟩, by omega⟩

theorem isCalendarDay_iff (s : String) : dateShaped s = true ∧ isCalendarDate s = true ↔ IsCalendarDay s := by
  rw [dateShaped_iff]
  constructor
  · rintro ⟨⟨ys, ms, ds, ⟨hy, hm, hd⟩, ⟨hys, hms, hds⟩, heq⟩, hdate⟩
    obtain ⟨hmonth, hday⟩ := (isCalendarDate_of_parts hy hm heq).1 hdate
    refine ⟨digitsOf ys, digitsOf ms, digitsOf ds, ?_, hmonth, hday, ?_⟩
    · have := digitsOf_lt hys
      rwa [hy] at this
    · have hys' := digits_digitsOf hys
      have hms' := digits_digitsOf hms
      have hds' := digits_digitsOf hds
      rw [hy] at hys'
      rw [hm] at hms'
      rw [hd] at hds'
      rw [hys', hms', hds', heq]
  · rintro ⟨y, m, d, hy, hm, hd, heq⟩
    have hlen : daysInMonth y m ≤ 31 := by
      unfold daysInMonth
      split <;> split <;> omega
    have hy' : digitsOf (digits 4 y) = y := (digitsOf_digits 4 y).trans (Nat.mod_eq_of_lt hy)
    have hm' : digitsOf (digits 2 m) = m := (digitsOf_digits 2 m).trans (Nat.mod_eq_of_lt (by omega))
    have hd' : digitsOf (digits 2 d) = d := (digitsOf_digits 2 d).trans (Nat.mod_eq_of_lt (by omega))
    refine ⟨⟨digits 4 y, digits 2 m, digits 2 d, ⟨length_digits 4 y, length_digits 2 m, length_digits 2 d⟩,
      ⟨isDigit_digits 4 y, isDigit_digits 2 m, isDigit_digits 2 d⟩, heq⟩, ?_⟩
    rw [isCalendarDate_of_parts (length_digits 4 y) (length_digits 2 m) heq, hy', hm', hd']
    exact ⟨hm, hd⟩

/-! ## What is accepted -/

/-- Not only white space. -/
def HasText (s : String) : Prop := ∃ c ∈ s.toList, isWhitespace c = false

/-- A value of the type, within its range, options and calendar. -/
def TemplateFieldType.Fits (required : Bool) : TemplateFieldType → Json → Prop
  | .text, .str s => required = true → HasText s
  | .number min max, .num n => (∀ x ∈ min, x ≤ n) ∧ ∀ x ∈ max, n ≤ x
  | .boolean, .bool _ => True
  | .select options, .str s => s ∈ options
  | .multiselect options, .arr items =>
      ∃ chosen : List String, items = chosen.map .str ∧ chosen.Nodup ∧ chosen ⊆ options ∧
        (required = true → chosen ≠ [])
  | .date, .str s => IsCalendarDay s
  | .scale min max, .num n => ∃ k : Int, n = k ∧ min.getD 1 ≤ k ∧ (k : ℚ) ≤ max.getD 10
  | _, _ => False

/-- What may stand under the key of the field. -/
def TemplateField.Accepts (field : TemplateField) : Option Json → Prop
  | none | some .null => field.required = false
  | some raw => field.type.Fits field.required raw

/-- The fields of all sections. -/
def TemplateSchema.fields (t : TemplateSchema) : List TemplateField := t.sections.flatMap TemplateSection.fields

theorem check_eq_ok {c : Bool} {e : DiagnosticError} {u : Unit} : check c e = .ok u ↔ c = true := by
  unfold check
  cases c <;> simp

theorem andThen_eq_ok {a b : Except DiagnosticError Unit} : (a >>= fun _ => b) = .ok () ↔ a = .ok () ∧ b = .ok () := by
  cases a with
  | ok u =>
    show b = .ok () ↔ _
    exact ⟨fun h => ⟨rfl, h⟩, fun h => h.2⟩
  | error e =>
    constructor
    · intro h
      cases h
    · rintro ⟨h, -⟩
      cases h

theorem visit_eq_ok {A : Type} {f : A → Except DiagnosticError Unit} {as : List A} :
    visit f as = .ok () ↔ ∀ a ∈ as, f a = .ok () := by
  induction as with
  | nil => simp [visit]
  | cons a as ih =>
    show (f a >>= fun _ => visit f as) = _ ↔ _
    rw [andThen_eq_ok, ih, List.forall_mem_cons]

theorem textLength_eq_zero {s : String} : textLength s = 0 ↔ s.toList = [] := by
  unfold textLength
  cases s.toList with
  | nil => simp
  | cons c cs =>
    simp only [List.map_cons, List.sum_cons, reduceCtorEq, iff_false]
    split <;> omega

theorem visit_eq {A : Type} {f g : A → Except DiagnosticError Unit} {as : List A} (h : ∀ a ∈ as, f a = g a) :
    visit f as = visit g as := by
  induction as with
  | nil => rfl
  | cons a as ih =>
    obtain ⟨ha, has⟩ := List.forall_mem_cons.1 h
    unfold visit
    rw [ha, ih has]

theorem hasText_iff (s : String) : isBlank s = false ↔ HasText s := by
  have hblank : isBlank s = true ↔ ∀ c ∈ s.toList, isWhitespace c = true := by
    unfold isBlank trim
    rw [beq_iff_eq, textLength_eq_zero, String.toList_ofList, List.reverse_eq_nil_iff, List.dropWhile_eq_nil_iff]
    simp only [List.mem_reverse]
    constructor
    · intro h c hc
      by_contra hno
      have hkept : ∀ cs : List Char, c ∈ cs → c ∈ cs.dropWhile isWhitespace := by
        intro cs hmem
        rw [← List.takeWhile_append_dropWhile (p := isWhitespace) (l := cs)] at hmem
        rcases List.mem_append.1 hmem with hmem | hmem
        · exact absurd (List.mem_takeWhile_imp hmem) hno
        · exact hmem
      exact hno (h c (hkept _ hc))
    · exact fun h c hc => h c ((List.dropWhile_suffix _).subset hc)
  unfold HasText
  rw [← Bool.not_eq_true, hblank]
  simp

theorem checkRange_eq_ok {key : String} {min max : Option ℚ} {n : ℚ} :
    checkRange key min max n = .ok () ↔ (∀ x ∈ min, x ≤ n) ∧ ∀ x ∈ max, n ≤ x := by
  unfold checkRange
  rw [andThen_eq_ok, check_eq_ok, check_eq_ok, Option.all_eq_true, Option.all_eq_true]
  simp only [decide_eq_true_eq]
  exact Iff.rfl

theorem validateElements_eq_ok {key : String} {options : List String} {items : List Json} :
    validateElements key options items = .ok () ↔ ∃ chosen : List String, items = chosen.map .str ∧ chosen ⊆ options := by
  induction items with
  | nil => exact ⟨fun _ => ⟨[], rfl, List.nil_subset _⟩, fun _ => rfl⟩
  | cons v rest ih =>
    constructor
    · intro h
      cases v with
      | str s =>
        have h : (check (options.contains s) _ >>= fun _ => validateElements key options rest) = .ok () := h
        rw [andThen_eq_ok, check_eq_ok, ih] at h
        obtain ⟨hs, chosen, rfl, hsub⟩ := h
        exact ⟨s :: chosen, rfl, List.cons_subset.2 ⟨List.contains_iff_mem.1 hs, hsub⟩⟩
      | _ => cases h
    · rintro ⟨chosen, heq, hsub⟩
      cases chosen with
      | nil => cases heq
      | cons s chosen =>
        cases heq
        obtain ⟨hs, hrest⟩ := List.cons_subset.1 hsub
        show (check (options.contains s) _ >>= fun _ => validateElements key options _) = .ok ()
        rw [andThen_eq_ok, check_eq_ok, ih]
        exact ⟨List.contains_iff_mem.2 hs, chosen, rfl, hrest⟩

theorem hasDuplicates_strings (chosen : List String) : hasDuplicates (chosen.map .str) = false ↔ chosen.Nodup := by
  induction chosen with
  | nil => simp [hasDuplicates]
  | cons s rest ih =>
    show (((rest.map Json.str).any (Json.sameValue (.str s))) || hasDuplicates (rest.map .str)) = false ↔ _
    rw [Bool.or_eq_false_iff, ih, List.nodup_cons, List.any_map, List.any_eq_false]
    refine and_congr_left fun _ => ?_
    simp only [Function.comp_apply, Json.sameValue, beq_iff_eq]
    exact ⟨fun h hs => h s hs rfl, fun h x hx hsx => h (hsx ▸ hx)⟩

theorem validateValue_iff (field : TemplateField) (raw : Json) :
    validateValue field raw = .ok () ↔ field.type.Fits field.required raw := by
  obtain ⟨key, label, type, required, extra⟩ := field
  unfold validateValue
  cases type with
  | text =>
    cases raw with
    | str s =>
      show check (!(required && isBlank s)) _ = .ok () ↔ (required = true → HasText s)
      rw [check_eq_ok, ← hasText_iff]
      cases required <;> simp
    | _ => exact ⟨fun h => (nomatch h), fun h => False.elim h⟩
  | number min max =>
    cases raw with
    | num n => exact checkRange_eq_ok
    | _ => exact ⟨fun h => (nomatch h), fun h => False.elim h⟩
  | boolean =>
    cases raw with
    | bool b => exact ⟨fun _ => trivial, fun _ => rfl⟩
    | _ => exact ⟨fun h => (nomatch h), fun h => False.elim h⟩
  | select options =>
    cases raw with
    | str s =>
      show check (options.contains s) _ = .ok () ↔ s ∈ options
      rw [check_eq_ok, List.contains_iff_mem]
    | _ => exact ⟨fun h => (nomatch h), fun h => False.elim h⟩
  | multiselect options =>
    cases raw with
    | arr items =>
      show (check (!(required && items.isEmpty)) _ >>= fun _ => check (!hasDuplicates items) _ >>= fun _ =>
        validateElements key options items) = .ok () ↔ _
      rw [andThen_eq_ok, andThen_eq_ok, check_eq_ok, check_eq_ok, validateElements_eq_ok]
      constructor
      · rintro ⟨hempty, hdup, chosen, rfl, hsub⟩
        refine ⟨chosen, rfl, ?_, hsub, ?_⟩
        · rwa [Bool.not_eq_true', hasDuplicates_strings] at hdup
        · rintro rfl rfl
          cases hempty
      · rintro ⟨chosen, rfl, hnodup, hsub, hne⟩
        refine ⟨?_, ?_, chosen, rfl, hsub⟩
        · cases required with
          | false => rfl
          | true =>
            cases chosen with
            | nil => exact absurd rfl (hne rfl)
            | cons s rest => rfl
        · rwa [Bool.not_eq_true', hasDuplicates_strings]
    | _ => exact ⟨fun h => (nomatch h), fun h => False.elim h⟩
  | date =>
    cases raw with
    | str s =>
      show (check (dateShaped s) _ >>= fun _ => check (isCalendarDate s) _) = .ok () ↔ IsCalendarDay s
      rw [andThen_eq_ok, check_eq_ok, check_eq_ok, isCalendarDay_iff]
    | _ => exact ⟨fun h => (nomatch h), fun h => False.elim h⟩
  | scale min max =>
    cases raw with
    | num n =>
      show (check (n.den == 1) _ >>= fun _ => checkRange key (some (min.getD 1)) (some (max.getD 10)) n) = .ok () ↔ _
      rw [andThen_eq_ok, check_eq_ok, checkRange_eq_ok, beq_iff_eq]
      constructor
      · rintro ⟨hden, hmin, hmax⟩
        have hn : n = n.num := (Rat.den_eq_one_iff n).1 hden |>.symm
        exact ⟨n.num, hn, hn ▸ hmin _ rfl, hn ▸ hmax _ rfl⟩
      · rintro ⟨k, rfl, hmin, hmax⟩
        refine ⟨Rat.den_intCast k, fun x hx => ?_, fun x hx => ?_⟩
        · cases hx
          exact hmin
        · cases hx
          exact hmax
    | _ => exact ⟨fun h => (nomatch h), fun h => False.elim h⟩

/-- **The validator of entries** accepts what every field of the schema accepts. -/
theorem validateEntryData_iff (t : TemplateSchema) (data : List (String × Json)) :
    validateEntryData t data = .ok () ↔ ∀ field ∈ t.fields, field.Accepts (lookup data field.key) := by
  have hfield : ∀ field : TemplateField, validateEntryField data field = .ok () ↔
      field.Accepts (lookup data field.key) := by
    intro field
    unfold validateEntryField
    split
    · next h =>
      rw [check_eq_ok, h, Bool.not_eq_true']
      rfl
    · next h =>
      rw [check_eq_ok, h, Bool.not_eq_true']
      rfl
    · next raw hnull h =>
      rw [validateValue_iff, h]
      cases raw with
      | null => exact absurd rfl hnull
      | _ => rfl
  unfold validateEntryData TemplateSchema.fields
  simp only [visit_eq_ok, hfield, List.forall_mem_flatMap]

/-! ## What the shape check promises -/

/-- The type leaves something to choose from: options, or room between the bounds. -/
def TemplateFieldType.Roomy : TemplateFieldType → Prop
  | .select options | .multiselect options => options ≠ []
  | .number min max => ∀ x ∈ min, ∀ y ∈ max, x < y
  | _ => True

theorem bind_eq_ok {A B : Type} {x : Except DiagnosticError A} {f : A → Except DiagnosticError B} {b : B} :
    (x >>= f) = .ok b ↔ ∃ a, x = .ok a ∧ f a = .ok b := by
  cases x with
  | ok a =>
    show f a = .ok b ↔ _
    simp
  | error e =>
    show Except.error e = .ok b ↔ _
    simp

theorem map_eq_ok {A B : Type} {x : Except DiagnosticError A} {f : A → B} {b : B} :
    x.map f = .ok b ↔ ∃ a, x = .ok a ∧ f a = b := by
  cases x <;> simp [Except.map]

theorem forEachWith_keys {A B : Type} {f : List String → Nat → A → Except DiagnosticError (List String × B)}
    {keysOf : B → List String} {P : B → Prop}
    (hf : ∀ seen i a seen' b, f seen i a = .ok (seen', b) → seen' = seen ++ keysOf b ∧ (seen.Nodup → seen'.Nodup) ∧ P b)
    {as : List A} {seen seen' : List String} {i : Nat} {bs : List B} (h : forEachWith f seen i as = .ok (seen', bs)) :
    seen' = seen ++ bs.flatMap keysOf ∧ (seen.Nodup → seen'.Nodup) ∧ ∀ b ∈ bs, P b := by
  induction as generalizing seen i bs with
  | nil =>
    cases h
    refine ⟨by simp, fun h => h, fun b hb => absurd hb List.not_mem_nil⟩
  | cons a as ih =>
    unfold forEachWith at h
    simp only [bind_eq_ok] at h
    obtain ⟨⟨seen₁, b⟩, hfirst, ⟨seen₂, rest⟩, hrest, heq⟩ := h
    cases heq
    obtain ⟨hkeys, hnodup, hb⟩ := hf _ _ _ _ _ hfirst
    obtain ⟨hkeys', hnodup', hbs⟩ := ih hrest
    refine ⟨?_, fun h => hnodup' (hnodup h), List.forall_mem_cons.2 ⟨hb, hbs⟩⟩
    rw [hkeys', hkeys, List.flatMap_cons, List.append_assoc]

theorem forEachWith_length {A B T : Type} {f : T → Nat → A → Except DiagnosticError (T × B)} {as : List A}
    {state state' : T} {i : Nat} {bs : List B} (h : forEachWith f state i as = .ok (state', bs)) :
    bs.length = as.length := by
  induction as generalizing state i bs with
  | nil =>
    cases h
    rfl
  | cons a as ih =>
    unfold forEachWith at h
    simp only [bind_eq_ok] at h
    obtain ⟨⟨state₁, b⟩, -, ⟨state₂, rest⟩, hrest, heq⟩ := h
    cases heq
    rw [List.length_cons, List.length_cons, ih hrest]

variable {field : List (String × Json)}

theorem options_ne_nil {path type : String} {options : List String}
    (h : validateOptions path type field = .ok options) : options ≠ [] := by
  unfold validateOptions at h
  simp only [bind_eq_ok, check_eq_ok, decide_eq_true_eq] at h
  obtain ⟨items, -, -, htwo, -, -, ⟨u, texts⟩, hall, heq⟩ := h
  cases heq
  have hlen := forEachWith_length hall
  rintro rfl
  rw [List.length_nil] at hlen
  omega

theorem bounds_lt {path : String} {b : Option ℚ × Option ℚ}
    (h : validateBounds path field = .ok b) : ∀ x ∈ b.1, ∀ y ∈ b.2, x < y := by
  unfold validateBounds at h
  simp only [bind_eq_ok, check_eq_ok] at h
  obtain ⟨min, -, max, -, -, hlt, heq⟩ := h
  cases heq
  intro x hx y hy
  cases hx
  cases hy
  simpa using hlt

theorem readType_roomy {path : String} {name : TypeName} {type : TemplateFieldType}
    (h : readType path field name = .ok type) : type.Roomy := by
  cases name with
  | select =>
    obtain ⟨options, hoptions, rfl⟩ := map_eq_ok.1 h
    exact options_ne_nil hoptions
  | multiselect =>
    obtain ⟨options, hoptions, rfl⟩ := map_eq_ok.1 h
    exact options_ne_nil hoptions
  | number =>
    obtain ⟨b, hb, rfl⟩ := map_eq_ok.1 h
    exact bounds_lt hb
  | scale =>
    obtain ⟨b, hb, rfl⟩ := map_eq_ok.1 h
    trivial
  | _ =>
    cases h
    trivial

theorem validateField_ok {path : String} {seen seen' : List String} {i : Nat} {v : Json} {field : TemplateField}
    (h : validateField path seen i v = .ok (seen', field)) :
    seen' = seen ++ [field.key] ∧ (seen.Nodup → seen'.Nodup) ∧ field.type.Roomy := by
  unfold validateField at h
  simp only [bind_eq_ok, check_eq_ok] at h
  obtain ⟨obj, -, key, -, -, -, -, -, -, -, -, hnew, label, -, -, -, -, -, name, -, required, -, type, htype, heq⟩ := h
  cases heq
  refine ⟨rfl, fun hseen => ?_, readType_roomy htype⟩
  rw [← List.concat_eq_append, List.nodup_concat]
  refine ⟨?_, hseen⟩
  simpa using hnew

theorem validateSection_ok {seen seen' : List String} {i : Nat} {v : Json} {sec : TemplateSection}
    (h : validateSection seen i v = .ok (seen', sec)) :
    seen' = seen ++ sec.fields.map TemplateField.key ∧ (seen.Nodup → seen'.Nodup) ∧
      ∀ field ∈ sec.fields, field.type.Roomy := by
  unfold validateSection at h
  simp only [bind_eq_ok, check_eq_ok] at h
  obtain ⟨obj, -, title, -, -, -, -, -, items, -, -, -, -, -, ⟨seen₁, fields⟩, hfields, heq⟩ := h
  cases heq
  have hall : seen₁ = seen ++ fields.flatMap (fun f => [f.key]) ∧ _ ∧ ∀ field ∈ fields, field.type.Roomy :=
    forEachWith_keys (fun _ _ _ _ _ h => validateField_ok h) hfields
  rwa [← List.map_eq_flatMap] at hall

theorem shape_ok {v : Json} {t : TemplateSchema} (h : validateTemplateSchemaShape v = .ok t) :
    (t.fields.map TemplateField.key).Nodup ∧ ∀ field ∈ t.fields, field.type.Roomy := by
  unfold validateTemplateSchemaShape at h
  simp only [bind_eq_ok, check_eq_ok] at h
  obtain ⟨obj, -, items, -, -, -, -, -, ⟨seen, sections⟩, hsections, heq⟩ := h
  cases heq
  obtain ⟨hkeys, hnodup, hroomy⟩ := forEachWith_keys (fun _ _ _ _ _ h => validateSection_ok h) hsections
  constructor
  · have hkeys : seen = sections.flatMap fun sec => sec.fields.map TemplateField.key := by simpa using hkeys
    unfold TemplateSchema.fields
    rw [List.map_flatMap, ← hkeys]
    exact hnodup List.nodup_nil
  · intro field hfield
    obtain ⟨sec, hsec, hfield⟩ := List.mem_flatMap.1 hfield
    exact hroomy sec hsec field hfield

/-! ## Filling in a schema -/

/-- Some whole number lies between the bounds of a scale. -/
def TemplateFieldType.Satisfiable : TemplateFieldType → Prop
  | .scale min max => ⌈min.getD 1⌉ ≤ ⌊max.getD 10⌋
  | _ => True

instance (type : TemplateFieldType) : Decidable type.Satisfiable := by
  unfold TemplateFieldType.Satisfiable
  split <;> infer_instance

/-- A value of the type. -/
def TemplateFieldType.sample : TemplateFieldType → Json
  | .text => .str "a"
  | .number min max => .num (min.getD (max.getD 0))
  | .boolean => .bool true
  | .select options => .str (options.headD "")
  | .multiselect options => .arr [.str (options.headD "")]
  | .date => .str "2024-01-01"
  | .scale min _ => .num ⌈min.getD 1⌉

theorem fits_sample {type : TemplateFieldType} (hroomy : type.Roomy) (h : type.Satisfiable) (required : Bool) :
    type.Fits required type.sample := by
  cases type with
  | text =>
    intro _
    refine ⟨'a', ?_, rfl⟩
    show 'a' ∈ ("a" : String).toList
    decide
  | number min max =>
    show (∀ x ∈ min, x ≤ _) ∧ ∀ x ∈ max, _ ≤ x
    cases min with
    | none =>
      refine ⟨fun x hx => (nomatch hx), fun x hx => ?_⟩
      cases hx
      exact le_refl _
    | some low =>
      refine ⟨fun x hx => ?_, fun x hx => (hroomy low rfl x hx).le⟩
      cases hx
      exact le_refl _
  | boolean => trivial
  | select options =>
    cases options with
    | nil => exact absurd rfl hroomy
    | cons o rest => exact List.mem_cons_self
  | multiselect options =>
    cases options with
    | nil => exact absurd rfl hroomy
    | cons o rest =>
      refine ⟨[o], rfl, List.nodup_singleton o, ?_, fun _ => List.cons_ne_nil o []⟩
      exact List.cons_subset.2 ⟨List.mem_cons_self, List.nil_subset _⟩
  | date => exact (isCalendarDay_iff "2024-01-01").1 (by decide)
  | scale min max =>
    refine ⟨⌈min.getD 1⌉, rfl, Int.le_ceil _, ?_⟩
    exact Int.le_floor.1 h

theorem satisfiable_of_fits {type : TemplateFieldType} {required : Bool} {raw : Json} (h : type.Fits required raw) :
    type.Satisfiable := by
  cases type with
  | scale min max =>
    cases raw with
    | num n =>
      obtain ⟨k, -, hmin, hmax⟩ := h
      exact (Int.ceil_le.2 hmin).trans (Int.le_floor.2 hmax)
    | _ => exact False.elim h
  | _ => trivial

theorem satisfiable_of_accepts {field : TemplateField} {o : Option Json} (h : field.Accepts o)
    (hrequired : field.required = true) : field.type.Satisfiable := by
  unfold TemplateField.Accepts at h
  split at h
  · cases hrequired.symm.trans h
  · cases hrequired.symm.trans h
  · exact satisfiable_of_fits h

theorem lookup_of_mem {fields : List (String × Json)} {key : String} {v : Json}
    (hnodup : (fields.map Prod.fst).Nodup) (h : (key, v) ∈ fields) : lookup fields key = some v := by
  unfold lookup
  rw [Option.map_eq_some_iff]
  refine ⟨(key, v), ?_, rfl⟩
  induction fields with
  | nil => exact absurd h List.not_mem_nil
  | cons f rest ih =>
    rw [List.map_cons, List.nodup_cons] at hnodup
    rcases List.mem_cons.1 h with rfl | h
    · rw [List.find?_cons_of_pos (by simp)]
    · rw [List.find?_cons_of_neg, ih hnodup.2 h]
      rw [beq_iff_eq]
      rintro rfl
      exact hnodup.1 (List.mem_map.2 ⟨_, h, rfl⟩)

theorem lookup_eq_none {fields : List (String × Json)} {key : String} (h : key ∉ fields.map Prod.fst) :
    lookup fields key = none := by
  unfold lookup
  rw [Option.map_eq_none_iff, List.find?_eq_none]
  intro f hf hkey
  exact h (List.mem_map.2 ⟨f, hf, beq_iff_eq.1 hkey⟩)

/-- An entry with the required fields only. -/
def TemplateSchema.filled (t : TemplateSchema) : List (String × Json) :=
  (t.fields.filter TemplateField.required).map fun field => (field.key, field.type.sample)

theorem accepts_filled {t : TemplateSchema} (hkeys : (t.fields.map TemplateField.key).Nodup)
    (hroomy : ∀ field ∈ t.fields, field.type.Roomy)
    (h : ∀ field ∈ t.fields, field.required = true → field.type.Satisfiable) {field : TemplateField}
    (hfield : field ∈ t.fields) : field.Accepts (lookup t.filled field.key) := by
  have hfst : t.filled.map Prod.fst = (t.fields.filter TemplateField.required).map TemplateField.key := by
    unfold TemplateSchema.filled
    rw [List.map_map]
    rfl
  have hnodup : (t.filled.map Prod.fst).Nodup := by
    rw [hfst]
    exact hkeys.sublist (List.filter_sublist.map _)
  cases hrequired : field.required with
  | true =>
    rw [lookup_of_mem hnodup (List.mem_map.2 ⟨field, List.mem_filter.2 ⟨hfield, hrequired⟩, rfl⟩)]
    have hfits := fits_sample (hroomy field hfield) (h field hfield hrequired) field.required
    cases htype : field.type <;> rw [htype] at hfits <;> show TemplateFieldType.Fits _ field.type _ <;> rw [htype] <;>
      exact hfits
  | false =>
    rw [lookup_eq_none]
    · exact hrequired
    · rw [hfst]
      intro hmem
      obtain ⟨other, hother, hkey⟩ := List.mem_map.1 hmem
      obtain ⟨hmem, hreq⟩ := List.mem_filter.1 hother
      obtain rfl := List.inj_on_of_nodup_map hkeys hmem hfield hkey
      cases hrequired.symm.trans hreq

/-- **An accepted schema**: an entry can be filled in exactly when each required scale has a whole number between its
bounds; an entry is judged field by field, and by the keys of the schema alone. -/
theorem accepted_schema_iff {v : Json} {t : TemplateSchema} (h : validateTemplateSchemaShape v = .ok t) :
    ((∃ data, validateEntryData t data = .ok ()) ↔
      ∀ field ∈ t.fields, field.required = true → field.type.Satisfiable) ∧
    (∀ data, validateEntryData t data = .ok () ↔ ∀ field ∈ t.fields, field.Accepts (lookup data field.key)) ∧
    ∀ data data', (∀ field ∈ t.fields, lookup data field.key = lookup data' field.key) →
      validateEntryData t data = validateEntryData t data' := by
  obtain ⟨hkeys, hroomy⟩ := shape_ok h
  refine ⟨⟨?_, fun hsat => ?_⟩, validateEntryData_iff t, fun data data' hsame => ?_⟩
  · rintro ⟨data, hdata⟩ field hfield hrequired
    exact satisfiable_of_accepts ((validateEntryData_iff t data).1 hdata field hfield) hrequired
  · exact ⟨t.filled, (validateEntryData_iff t _).2 fun field hfield => accepts_filled hkeys hroomy hsat hfield⟩
  · unfold validateEntryData
    refine visit_eq fun sec hsec => visit_eq fun field hfield => ?_
    unfold validateEntryField
    rw [hsame field (List.mem_flatMap.2 ⟨sec, hsec, hfield⟩)]

/-! ## A scale without room -/

def sampleField (type : String) (bounds : List (String × Json)) : Json :=
  .obj ([("key", .str "mood"), ("label", .str "Mood"), ("type", .str type), ("required", .bool true)] ++ bounds)

def sampleSchema (field : Json) : Json :=
  .obj [("sections", .arr [.obj [("title", .str "Visit"), ("fields", .arr [field])]])]

/-- From 20 up, and at most 10 by default. -/
def scaleWithoutRoom : Json := sampleSchema (sampleField "scale" [("min", .num 20)])

def scaleOfFive : Json := sampleSchema (sampleField "scale" [("max", .num 5)])

theorem shape_shows (v : Json) (p : TemplateSchema → Bool)
    (h : (validateTemplateSchemaShape v).toOption.any p = true) :
    ∃ t, validateTemplateSchemaShape v = .ok t ∧ p t = true := by
  cases hv : validateTemplateSchemaShape v with
  | ok t =>
    rw [hv] at h
    exact ⟨t, rfl, h⟩
  | error e =>
    rw [hv] at h
    cases h

theorem scaleOfFive_satisfiable : ∃ t data, validateTemplateSchemaShape scaleOfFive = .ok t ∧
    validateEntryData t data = .ok () := by
  obtain ⟨t, ht, hsat⟩ := shape_shows scaleOfFive
    (fun t => t.fields.all fun field => decide (field.required = true → field.type.Satisfiable)) (by decide +kernel)
  have hall : ∀ field ∈ t.fields, field.required = true → field.type.Satisfiable := fun field hfield =>
    of_decide_eq_true (List.all_eq_true.1 hsat field hfield)
  obtain ⟨data, hdata⟩ := (accepted_schema_iff ht).1.2 hall
  exact ⟨t, data, ht, hdata⟩

/-- The schema is accepted, and no entry of it ever is. -/
theorem scaleWithoutRoom_unsatisfiable : ∃ t, validateTemplateSchemaShape scaleWithoutRoom = .ok t ∧
    ∀ data, validateEntryData t data ≠ .ok () := by
  obtain ⟨t, ht, hp⟩ := shape_shows scaleWithoutRoom
    (fun t => t.fields.any fun field => decide (field.required = true ∧ field.type = .scale (some 20) none))
    (by decide +kernel)
  obtain ⟨field, hfield, hscale⟩ := List.any_eq_true.1 hp
  obtain ⟨hrequired, htype⟩ := of_decide_eq_true hscale
  refine ⟨t, ht, fun data hdata => ?_⟩
  have hsat := satisfiable_of_accepts ((validateEntryData_iff t data).1 hdata field hfield) hrequired
  rw [htype] at hsat
  revert hsat
  decide

end Diagnostics
