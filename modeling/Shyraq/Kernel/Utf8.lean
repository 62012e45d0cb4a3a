import Mathlib.Data.List.Basic
import Mathlib.Algebra.Ring.Nat

/-!
# UTF-8

The bytes of a text, and the decoder that puts U+FFFD for what is no character: `step` reads one byte.  What was encoded
is decoded again.
-/

namespace Kernel

/-- One to four bytes. -/
def Utf8.encodeChar (c : Char) : List Nat :=
  let n := c.toNat
  if n < 128 then [n]
  else if n < 2048 then [192 + n / 64, 128 + n % 64]
  else if n < 65536 then [224 + n / 4096, 128 + n / 64 % 64, 128 + n % 64]
  else [240 + n / 262144, 128 + n / 4096 % 64, 128 + n / 64 % 64, 128 + n % 64]

def Utf8.encode (text : List Char) : List Nat := text.flatMap Utf8.encodeChar

/-- U+FFFD. -/
def replacement : Char := Char.ofNat 65533

/-- What is read of a character, and the bounds of its next byte. -/
structure Utf8State where
  needed : Nat
  codePoint : Nat
  lower : Nat
  upper : Nat

namespace Utf8State

def idle : Utf8State := ⟨0, 0, 128, 191⟩

/-- A byte where a character begins. -/
def lead (b : Nat) : List Char × Utf8State :=
  if b < 128 then ([Char.ofNat b], idle)
  else if b < 194 then ([replacement], idle)
  else if b < 224 then ([], ⟨1, b - 192, 128, 191⟩)
  else if b < 240 then ([], ⟨2, b - 224, if b = 224 then 160 else 128, if b = 237 then 159 else 191⟩)
  else if b < 245 then ([], ⟨3, b - 240, if b = 240 then 144 else 128, if b = 244 then 143 else 191⟩)
  else ([replacement], idle)

/-- A byte that does not go on begins anew. -/
def step (s : Utf8State) (b : Nat) : List Char × Utf8State :=
  if s.needed = 0 then lead b
  else if b < s.lower ∨ s.upper < b then (replacement :: (lead b).1, (lead b).2)
  else
    let codePoint := s.codePoint * 64 + (b - 128)
    if s.needed = 1 then ([Char.ofNat codePoint], idle)
    else ([], ⟨s.needed - 1, codePoint, 128, 191⟩)

/-- A character cut off by the end is replaced too. -/
def run (s : Utf8State) : List Nat → List Char
  | [] => if s.needed = 0 then [] else [replacement]
  | b :: bytes => (s.step b).1 ++ run (s.step b).2 bytes

end Utf8State

def Utf8.decode (bytes : List Nat) : List Char := Utf8State.idle.run bytes

/-! ## What was encoded -/

namespace Utf8State

theorem run_cons (s : Utf8State) (b : Nat) (bytes : List Nat) :
    s.run (b :: bytes) = (s.step b).1 ++ (s.step b).2.run bytes := rfl

/-- A byte in the middle of a character. -/
theorem run_next {s : Utf8State} {b : Nat} (bytes : List Nat) (hneeded : 1 < s.needed) (hlower : s.lower ≤ b)
    (hupper : b ≤ s.upper) :
    s.run (b :: bytes) = run ⟨s.needed - 1, s.codePoint * 64 + (b - 128), 128, 191⟩ bytes := by
  rw [run_cons]
  unfold step
  rw [if_neg (by omega), if_neg (by omega)]
  dsimp only
  rw [if_neg (by omega)]
  rfl

/-- The last byte of a character. -/
theorem run_last {s : Utf8State} {b : Nat} (bytes : List Nat) (hneeded : s.needed = 1) (hlower : s.lower ≤ b)
    (hupper : b ≤ s.upper) : s.run (b :: bytes) = Char.ofNat (s.codePoint * 64 + (b - 128)) :: idle.run bytes := by
  rw [run_cons]
  unfold step
  rw [if_neg (by omega), if_neg (by omega)]
  dsimp only
  rw [if_pos hneeded]
  rfl

theorem run_lead {b : Nat} {s : Utf8State} (bytes : List Nat) (h : lead b = ([], s)) :
    idle.run (b :: bytes) = s.run bytes := by
  show (lead b).1 ++ (lead b).2.run bytes = _
  rw [h]
  rfl

theorem run_encodeChar (c : Char) (bytes : List Nat) :
    idle.run (Utf8.encodeChar c ++ bytes) = c :: idle.run bytes := by
  have hvalid : c.toNat < 55296 ∨ 57343 < c.toNat ∧ c.toNat < 1114112 := c.valid
  have hc : Char.ofNat c.toNat = c := Char.ofNat_toNat c
  unfold Utf8.encodeChar
  generalize c.toNat = n at hvalid hc
  dsimp only
  by_cases h₁ : n < 128
  · rw [if_pos h₁]
    show (lead n).1 ++ (lead n).2.run bytes = _
    unfold lead
    rw [if_pos h₁, hc]
    rfl
  rw [if_neg h₁]
  by_cases h₂ : n < 2048
  · rw [if_pos h₂]
    have hlead : lead (192 + n / 64) = ([], ⟨1, n / 64, 128, 191⟩) := by
      unfold lead
      rw [if_neg (by omega), if_neg (by omega), if_pos (by omega), Nat.add_sub_cancel_left]
    rw [List.cons_append, run_lead _ hlead, List.cons_append, run_last _ rfl (by dsimp only; omega) (by dsimp only; omega)]
    rw [show n / 64 * 64 + (128 + n % 64 - 128) = n by omega, hc]
    rfl
  rw [if_neg h₂]
  by_cases h₃ : n < 65536
  · rw [if_pos h₃]
    have hlead : lead (224 + n / 4096) = ([], ⟨2, n / 4096, if n / 4096 = 0 then 160 else 128,
        if n / 4096 = 13 then 159 else 191⟩) := by
      unfold lead
      rw [if_neg (by omega), if_neg (by omega), if_neg (by omega), if_pos (by omega), Nat.add_sub_cancel_left]
      simp only [show (224 + n / 4096 = 224) = (n / 4096 = 0) by simp, show (224 + n / 4096 = 237) = (n / 4096 = 13) by
        rw [eq_iff_iff]; omega]
    rw [List.cons_append, run_lead _ hlead, List.cons_append, run_next _ (by dsimp only; omega)]
    · rw [List.cons_append, run_last _ rfl (by dsimp only; omega) (by dsimp only; omega)]
      dsimp only
      rw [show (n / 4096 * 64 + (128 + n / 64 % 64 - 128)) * 64 + (128 + n % 64 - 128) = n by omega, hc]
      rfl
    · dsimp only
      split <;> omega
    · dsimp only
      split <;> omega
  rw [if_neg h₃]
  have hlead : lead (240 + n / 262144) = ([], ⟨3, n / 262144, if n / 262144 = 0 then 144 else 128,
      if n / 262144 = 4 then 143 else 191⟩) := by
    unfold lead
    rw [if_neg (by omega), if_neg (by omega), if_neg (by omega), if_neg (by omega), if_pos (by omega),
      Nat.add_sub_cancel_left]
    simp only [show (240 + n / 262144 = 240) = (n / 262144 = 0) by simp,
      show (240 + n / 262144 = 244) = (n / 262144 = 4) by rw [eq_iff_iff]; omega]
  rw [List.cons_append, run_lead _ hlead, List.cons_append, run_next _ (by dsimp only; omega)]
  · rw [List.cons_append, run_next _ (by dsimp only; omega) (by dsimp only; omega) (by dsimp only; omega)]
    rw [List.cons_append, run_last _ rfl (by dsimp only; omega) (by dsimp only; omega)]
    dsimp only
    rw [show ((n / 262144 * 64 + (128 + n / 4096 % 64 - 128)) * 64 + (128 + n / 64 % 64 - 128)) * 64 +
      (128 + n % 64 - 128) = n by omega, hc]
    rfl
  · dsimp only
    split <;> omega
  · dsimp only
    split <;> omega

end Utf8State

theorem Utf8.decode_encode (text : List Char) : Utf8.decode (Utf8.encode text) = text := by
  unfold Utf8.decode
  induction text with
  | nil => rfl
  | cons c text ih =>
    unfold Utf8.encode at ih ⊢
    rw [List.flatMap_cons, Utf8State.run_encodeChar, ih]

theorem Utf8.lt_of_mem_encode {text : List Char} {b : Nat} (h : b ∈ Utf8.encode text) : b < 256 := by
  obtain ⟨c, -, hb⟩ := List.mem_flatMap.1 h
  have hvalid : c.toNat < 55296 ∨ 57343 < c.toNat ∧ c.toNat < 1114112 := c.valid
  unfold Utf8.encodeChar at hb
  generalize c.toNat = n at hvalid hb
  dsimp only at hb
  split at hb
  · simp only [List.mem_singleton] at hb
    omega
  · split at hb
    · simp only [List.mem_cons, List.not_mem_nil, or_false] at hb
      omega
    · split at hb <;> simp only [List.mem_cons, List.not_mem_nil, or_false] at hb <;> omega

/-- Plain text is its own bytes. -/
theorem Utf8.encode_ascii {text : List Char} (h : ∀ c ∈ text, c.toNat < 128) : Utf8.encode text = text.map Char.toNat := by
  unfold Utf8.encode
  induction text with
  | nil => rfl
  | cons c text ih =>
    rw [List.flatMap_cons, ih fun d hd => h d (List.mem_cons_of_mem _ hd), List.map_cons]
    unfold Utf8.encodeChar
    dsimp only
    rw [if_pos (h c List.mem_cons_self)]
    rfl

end Kernel
