import Mathlib.Data.List.Basic
import Mathlib.Algebra.Ring.Nat
import Mathlib.Tactic.Ring

/-!
# Strings and digits

`trim` cuts the white space and line terminators of ECMAScript, and `length` counts UTF-16 code
units.  `padStart` writes a number with a fixed count of digits, `readNumber` reads exactly that
many.  Ids are written in the canonical form of a uuid.
-/

namespace Kernel

def isWhitespace (c : Char) : Bool :=
  let n := c.toNat
  [9, 10, 11, 12, 13, 32, 160, 5760, 8232, 8233, 8239, 8287, 12288, 65279].contains n ||
    (decide (8192 ≤ n) && decide (n ≤ 8202))

/-- `trim()`. -/
def trim (s : String) : String :=
  String.ofList ((s.toList.dropWhile isWhitespace).reverse.dropWhile isWhitespace).reverse

/-- `.length`: a character past the basic plane counts twice. -/
def textLength (s : String) : Nat := (s.toList.map fun c => if c.toNat < 65536 then 1 else 2).sum

/-- A character of pieces that were put together with a separator between them. -/
theorem mem_intercalate {sep c : Char} {pieces : List (List Char)} (h : c ∈ [sep].intercalate pieces) :
    c = sep ∨ ∃ piece ∈ pieces, c ∈ piece := by
  induction pieces with
  | nil => cases h
  | cons s pieces ih =>
    cases pieces with
    | nil =>
      rw [List.intercalate_singleton] at h
      exact .inr ⟨s, List.mem_cons_self, h⟩
    | cons t pieces =>
      rw [List.intercalate_cons_cons, List.append_assoc, List.mem_append, List.mem_append, List.mem_singleton] at h
      rcases h with h | h | h
      · exact .inr ⟨s, List.mem_cons_self, h⟩
      · exact .inl h
      · rcases ih h with h | ⟨u, hu, h⟩
        · exact .inl h
        · exact .inr ⟨u, List.mem_cons_of_mem _ hu, h⟩

/-! ## Numbers -/

def digitChar (n : Nat) : Char := if n < 10 then Char.ofNat (48 + n) else Char.ofNat (87 + n)

def digitValue (base : Nat) (c : Char) : Option Nat :=
  let value :=
    if '0' ≤ c ∧ c ≤ '9' then c.toNat - 48
    else if 'a' ≤ c ∧ c ≤ 'f' then c.toNat - 87
    else if 'A' ≤ c ∧ c ≤ 'F' then c.toNat - 55
    else base
  if value < base then some value else none

/-- `n.toString(base).padStart(width, '0')` of a number of at most so many digits. -/
def padStart (base : Nat) : Nat → Nat → List Char
  | 0, _ => []
  | width + 1, n => digitChar (n / base ^ width % base) :: padStart base width n

/-- Exactly so many digits, after those already read. -/
def readDigits (base : Nat) : Nat → Nat → List Char → Option (Nat × List Char)
  | 0, acc, cs => some (acc, cs)
  | width + 1, acc, c :: cs =>
      (digitValue base c).bind fun d => readDigits base width (acc * base + d) cs
  | _ + 1, _, [] => none

def readNumber (base width : Nat) (cs : List Char) : Option (Nat × List Char) := readDigits base width 0 cs

def readChar (c : Char) : List Char → Option (List Char)
  | x :: xs => if x = c then some xs else none
  | [] => none

/-! ## What is written is read -/

/-- The bases whose digits are told apart. -/
def Digital (base : Nat) : Prop := ∀ d < base, digitValue base (digitChar d) = some d

theorem digital_ten : Digital 10 := by
  unfold Digital
  decide

theorem digital_sixteen : Digital 16 := by
  unfold Digital
  decide

variable {base : Nat}

theorem readDigits_padStart (hb : Digital base) (hpos : 0 < base) (width n acc : Nat) (rest : List Char) :
    readDigits base width acc (padStart base width n ++ rest) =
      some (acc * base ^ width + n % base ^ width, rest) := by
  induction width generalizing acc with
  | zero => simp [padStart, readDigits, Nat.mod_one]
  | succ width ih =>
    have hd : n / base ^ width % base < base := Nat.mod_lt _ hpos
    have hmod : n % base ^ (width + 1) = n % base ^ width + base ^ width * (n / base ^ width % base) :=
      Nat.mod_pow_succ
    unfold padStart
    rw [List.cons_append]
    unfold readDigits
    rw [hb _ hd, Option.bind_some, ih, hmod]
    congr 2
    ring

theorem readNumber_padStart (hb : Digital base) (hpos : 0 < base) {width n : Nat} (h : n < base ^ width)
    (rest : List Char) : readNumber base width (padStart base width n ++ rest) = some (n, rest) := by
  unfold readNumber
  rw [readDigits_padStart hb hpos, Nat.mod_eq_of_lt h, Nat.zero_mul, Nat.zero_add]

/-- A text of decimal digits is read as a whole. -/
theorem readDigits_ten {cs : List Char} (h : cs.all Char.isDigit = true) (acc : Nat) (rest : List Char) :
    readDigits 10 cs.length acc (cs ++ rest) =
      some (cs.foldl (fun n c => 10 * n + (c.toNat - '0'.toNat)) acc, rest) := by
  induction cs generalizing acc with
  | nil => rfl
  | cons c cs ih =>
    simp only [List.all_cons, Bool.and_eq_true] at h
    have hc : '0' ≤ c ∧ c ≤ '9' := by
      have hd := h.1
      unfold Char.isDigit at hd
      simp only [Bool.and_eq_true, decide_eq_true_eq] at hd
      exact hd
    have hlow : 48 ≤ c.toNat := hc.1
    have hhigh : c.toNat ≤ 57 := hc.2
    have hvalue : digitValue 10 c = some (c.toNat - '0'.toNat) := by
      unfold digitValue
      dsimp only
      rw [if_pos hc]
      exact if_pos (by omega)
    rw [List.length_cons, List.cons_append]
    unfold readDigits
    rw [hvalue, Option.bind_some, ih h.2, List.foldl_cons, Nat.mul_comm acc 10]

theorem readNumber_ten {cs : List Char} {width : Nat} (h : cs.all Char.isDigit = true) (hwidth : cs.length = width)
    (rest : List Char) : readNumber 10 width (cs ++ rest) =
      some (cs.foldl (fun n c => 10 * n + (c.toNat - '0'.toNat)) 0, rest) := by
  unfold readNumber
  rw [← hwidth]
  exact readDigits_ten h 0 rest

@[simp] theorem readChar_cons (c : Char) (cs : List Char) : readChar c (c :: cs) = some cs := if_pos rfl

/-- Every digit that is written is one of the base. -/
theorem mem_padStart {width n : Nat} (hpos : 0 < base) {c : Char} (h : c ∈ padStart base width n) :
    ∃ d < base, c = digitChar d := by
  induction width with
  | zero => cases h
  | succ width ih =>
    unfold padStart at h
    rcases List.mem_cons.1 h with rfl | h
    · exact ⟨_, Nat.mod_lt _ hpos, rfl⟩
    · exact ih h

/-! ## Uuids -/

/-- 128 bits. -/
def uuidBound : Nat := 2 ^ 128

/-- 8, 4, 4, 4 and 12 digits. -/
def uuidText (n : Nat) : List Char :=
  padStart 16 8 (n / 16 ^ 24) ++ '-' :: (padStart 16 4 (n / 16 ^ 20 % 16 ^ 4) ++
    '-' :: (padStart 16 4 (n / 16 ^ 16 % 16 ^ 4) ++ '-' :: (padStart 16 4 (n / 16 ^ 12 % 16 ^ 4) ++
      '-' :: padStart 16 12 (n % 16 ^ 12))))

def readUuid (text : List Char) : Option Nat := do
  let (a, cs) ← readNumber 16 8 text
  let cs ← readChar '-' cs
  let (b, cs) ← readNumber 16 4 cs
  let cs ← readChar '-' cs
  let (c, cs) ← readNumber 16 4 cs
  let cs ← readChar '-' cs
  let (d, cs) ← readNumber 16 4 cs
  let cs ← readChar '-' cs
  let (e, cs) ← readNumber 16 12 cs
  if cs = [] then some (a * 16 ^ 24 + b * 16 ^ 20 + c * 16 ^ 16 + d * 16 ^ 12 + e) else none

theorem readUuid_uuidText {n : Nat} (h : n < uuidBound) : readUuid (uuidText n) = some n := by
  have read : ∀ {width m : Nat}, m < 16 ^ width → ∀ rest,
      readNumber 16 width (padStart 16 width m ++ rest) = some (m, rest) :=
    fun h rest => readNumber_padStart digital_sixteen (by decide) h rest
  have ha : n / 16 ^ 24 < 16 ^ 8 := by
    unfold uuidBound at h
    omega
  have hb : n / 16 ^ 20 % 16 ^ 4 < 16 ^ 4 := Nat.mod_lt _ (by decide)
  have hc : n / 16 ^ 16 % 16 ^ 4 < 16 ^ 4 := Nat.mod_lt _ (by decide)
  have hd : n / 16 ^ 12 % 16 ^ 4 < 16 ^ 4 := Nat.mod_lt _ (by decide)
  have he : n % 16 ^ 12 < 16 ^ 12 := Nat.mod_lt _ (by decide)
  have hlast := read he []
  rw [List.append_nil] at hlast
  unfold readUuid uuidText
  simp only [read ha, read hb, read hc, read hd, hlast, readChar_cons, Option.bind_eq_bind, Option.bind_some, if_true]
  congr 1
  omega

/-- A uuid is written in hexadecimal digits and hyphens. -/
theorem mem_uuidText {n : Nat} {c : Char} (h : c ∈ uuidText n) : c = '-' ∨ ∃ d < 16, c = digitChar d := by
  unfold uuidText at h
  simp only [List.mem_append, List.mem_cons] at h
  rcases h with h | rfl | h | rfl | h | rfl | h | rfl | h
  · exact .inr (mem_padStart (by decide) h)
  · exact .inl rfl
  · exact .inr (mem_padStart (by decide) h)
  · exact .inl rfl
  · exact .inr (mem_padStart (by decide) h)
  · exact .inl rfl
  · exact .inr (mem_padStart (by decide) h)
  · exact .inl rfl
  · exact .inr (mem_padStart (by decide) h)

end Kernel
