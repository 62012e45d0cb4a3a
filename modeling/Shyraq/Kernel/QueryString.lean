import Mathlib.Data.List.Basic
import Shyraq.Kernel.Digits
import Shyraq.Kernel.Utf8

/-!
# Query strings

`URLSearchParams`: the pairs of a query in the form of `application/x-www-form-urlencoded`, read and written.  What was
written is read again, whatever the names and values are.
-/

namespace Kernel

/-- Letters, digits and `*-._` stand for themselves. -/
def isUnreserved (b : Nat) : Bool :=
  (decide (48 ≤ b) && decide (b ≤ 57)) || (decide (65 ≤ b) && decide (b ≤ 90)) ||
  (decide (97 ≤ b) && decide (b ≤ 122)) || b == 42 || b == 45 || b == 46 || b == 95

/-- A hexadecimal digit in capitals. -/
def hexByte (n : Nat) : Nat := if n < 10 then 48 + n else 55 + n

def hexValue (b : Nat) : Option Nat := digitValue 16 (Char.ofNat b)

/-- One byte of a name or a value, as it is written. -/
def formByte (b : Nat) : List Nat :=
  if b = 32 then [43] else if isUnreserved b then [b] else [37, hexByte (b / 16), hexByte (b % 16)]

def formBytes (text : List Char) : List Nat := (Utf8.encode text).flatMap formByte

/-- `%XX`. -/
def escaped (b high low : Nat) : Option Nat :=
  if b = 37 then (hexValue high).bind fun h => (hexValue low).map fun l => 16 * h + l else none

/-- An escape that is none stays as it is. -/
def percentDecode : List Nat → List Nat
  | b :: high :: low :: bytes =>
      match escaped b high low with
      | some v => v :: percentDecode bytes
      | none => b :: percentDecode (high :: low :: bytes)
  | bytes => bytes

/-- A plus is a space. -/
def plusToSpace (b : Nat) : Nat := if b = 43 then 32 else b

def formDecode (bytes : List Nat) : List Char := Utf8.decode (percentDecode (bytes.map plusToSpace))

/-- Up to the first `=`, and after it. -/
def readPair (bytes : List Nat) : List Char × List Char :=
  (formDecode (bytes.takeWhile (· != 61)), formDecode ((bytes.dropWhile (· != 61)).drop 1))

/-- `new URLSearchParams(query)`: a question mark at the beginning is dropped. -/
def parseQuery (query : List Char) : List (List Char × List Char) :=
  (((Utf8.encode (if query.head? = some '?' then query.tail else query)).splitOn 38).filter fun bytes =>
    !bytes.isEmpty).map readPair

def pairBytes (p : List Char × List Char) : List Nat := formBytes p.1 ++ 61 :: formBytes p.2

def queryBytes (params : List (List Char × List Char)) : List Nat := [38].intercalate (params.map pairBytes)

/-- `toString()`. -/
def formatQuery (params : List (List Char × List Char)) : List Char := (queryBytes params).map Char.ofNat

/-- `get(name)`. -/
def paramOf (name : List Char) (params : List (List Char × List Char)) : Option (List Char) :=
  (params.find? fun p => p.1 == name).map Prod.snd

/-! ## One name or value -/

theorem percentDecode_escape {b : Nat} (hb : b < 256) (bytes : List Nat) :
    percentDecode (37 :: hexByte (b / 16) :: hexByte (b % 16) :: bytes) = b :: percentDecode bytes := by
  have hdigit : ∀ d < 16, hexValue (hexByte d) = some d := by decide
  have hescaped : escaped 37 (hexByte (b / 16)) (hexByte (b % 16)) = some b := by
    unfold escaped
    rw [if_pos rfl, hdigit _ (by omega), hdigit _ (by omega)]
    show some (16 * (b / 16) + b % 16) = some b
    rw [Nat.div_add_mod]
  rw [percentDecode, hescaped]

theorem percentDecode_plain {b : Nat} (hb : b ≠ 37) (bytes : List Nat) :
    percentDecode (b :: bytes) = b :: percentDecode bytes := by
  cases bytes with
  | nil => rfl
  | cons high bytes =>
    cases bytes with
    | nil => rfl
    | cons low bytes =>
      have hescaped : escaped b high low = none := if_neg hb
      rw [percentDecode, hescaped]

/-- A byte is written with characters that are read as themselves. -/
theorem mem_formByte {b c : Nat} (hb : b < 256) (h : c ∈ formByte b) :
    c < 128 ∧ c ≠ 38 ∧ c ≠ 61 ∧ c ≠ 63 ∧ c ≠ 34 ∧ 32 < c := by
  have hall : ∀ b < 256, ∀ c ∈ formByte b, c < 128 ∧ c ≠ 38 ∧ c ≠ 61 ∧ c ≠ 63 ∧ c ≠ 34 ∧ 32 < c := by decide +kernel
  exact hall b hb c h

theorem percentDecode_formByte {b : Nat} (hb : b < 256) (bytes : List Nat) :
    percentDecode ((formByte b).map plusToSpace ++ bytes) = b :: percentDecode bytes := by
  unfold formByte
  split
  · next hspace =>
    subst hspace
    exact percentDecode_plain (by decide) bytes
  · split
    · next hunreserved =>
      have hplain : ∀ b < 256, isUnreserved b = true → plusToSpace b = b ∧ b ≠ 37 := by decide +kernel
      obtain ⟨hplus, hne⟩ := hplain b hb hunreserved
      rw [List.map_cons, hplus]
      exact percentDecode_plain hne bytes
    · have hhex : ∀ d < 16, plusToSpace (hexByte d) = hexByte d := by decide
      rw [List.map_cons, List.map_cons, List.map_cons, hhex _ (by omega), hhex _ (by omega)]
      exact percentDecode_escape hb bytes

theorem percentDecode_formBytes {bytes : List Nat} (h : ∀ b ∈ bytes, b < 256) :
    percentDecode ((bytes.flatMap formByte).map plusToSpace) = bytes := by
  induction bytes with
  | nil => rfl
  | cons b bytes ih =>
    rw [List.flatMap_cons, List.map_append, percentDecode_formByte (h b List.mem_cons_self),
      ih fun d hd => h d (List.mem_cons_of_mem _ hd)]

theorem formDecode_formBytes (text : List Char) : formDecode (formBytes text) = text := by
  unfold formDecode formBytes
  rw [percentDecode_formBytes fun _ hb => Utf8.lt_of_mem_encode hb, Utf8.decode_encode]

/-! ## Pairs in a row -/

/-- What a written name or value is made of. -/
theorem mem_formBytes {text : List Char} {c : Nat} (h : c ∈ formBytes text) :
    c < 128 ∧ c ≠ 38 ∧ c ≠ 61 ∧ c ≠ 63 ∧ c ≠ 34 ∧ 32 < c := by
  obtain ⟨b, hb, hc⟩ := List.mem_flatMap.1 h
  exact mem_formByte (Utf8.lt_of_mem_encode hb) hc

theorem mem_pairBytes {p : List Char × List Char} {c : Nat} (h : c ∈ pairBytes p) :
    c < 128 ∧ c ≠ 38 ∧ c ≠ 63 ∧ c ≠ 34 ∧ 32 < c := by
  unfold pairBytes at h
  rw [List.mem_append, List.mem_cons] at h
  rcases h with h | rfl | h
  · obtain ⟨h₁, h₂, -, h₄, h₅, h₆⟩ := mem_formBytes h
    exact ⟨h₁, h₂, h₄, h₅, h₆⟩
  · decide
  · obtain ⟨h₁, h₂, -, h₄, h₅, h₆⟩ := mem_formBytes h
    exact ⟨h₁, h₂, h₄, h₅, h₆⟩

theorem mem_queryBytes {params : List (List Char × List Char)} {c : Nat} (h : c ∈ queryBytes params) :
    c < 128 ∧ c ≠ 63 ∧ c ≠ 34 ∧ 32 < c := by
  unfold queryBytes at h
  induction params with
  | nil => cases h
  | cons p params ih =>
    cases params with
    | nil =>
      rw [List.map_cons, List.map_nil, List.intercalate_singleton] at h
      obtain ⟨h₁, -, h₃, h₄, h₅⟩ := mem_pairBytes h
      exact ⟨h₁, h₃, h₄, h₅⟩
    | cons q params =>
      rw [List.map_cons, List.map_cons, List.intercalate_cons_cons, List.mem_append, List.mem_append,
        List.mem_singleton] at h
      rcases h with (h | rfl) | h
      · obtain ⟨h₁, -, h₃, h₄, h₅⟩ := mem_pairBytes h
        exact ⟨h₁, h₃, h₄, h₅⟩
      · decide
      · exact ih h

theorem readPair_pairBytes (p : List Char × List Char) : readPair (pairBytes p) = p := by
  have hplain : ∀ c ∈ formBytes p.1, (c != 61) = true := fun c hc => by
    have := (mem_formBytes hc).2.2.1
    simpa using this
  unfold readPair pairBytes
  rw [List.takeWhile_append_of_pos hplain, List.dropWhile_append_of_pos hplain]
  show (formDecode (formBytes p.1 ++ []), formDecode (formBytes p.2)) = p
  rw [List.append_nil, formDecode_formBytes, formDecode_formBytes]

theorem encode_formatQuery (params : List (List Char × List Char)) :
    Utf8.encode (formatQuery params) = queryBytes params := by
  have htoNat : ∀ b < 128, (Char.ofNat b).toNat = b := by decide
  have hb : ∀ b ∈ queryBytes params, (Char.ofNat b).toNat = b := fun b hb => htoNat b (mem_queryBytes hb).1
  unfold formatQuery
  rw [Utf8.encode_ascii, List.map_map]
  · exact (List.map_congr_left hb).trans (List.map_id _)
  · intro c hc
    obtain ⟨b, hmem, rfl⟩ := List.mem_map.1 hc
    rw [hb b hmem]
    exact (mem_queryBytes hmem).1

/-- The characters of a query that was written. -/
theorem mem_formatQuery {params : List (List Char × List Char)} {c : Char} (h : c ∈ formatQuery params) :
    c ≠ '?' ∧ c ≠ '"' ∧ 32 < c.toNat ∧ c.toNat < 128 := by
  obtain ⟨b, hb, rfl⟩ := List.mem_map.1 h
  obtain ⟨h₁, h₂, h₃, h₄⟩ := mem_queryBytes hb
  have htoNat : ∀ b < 128, (Char.ofNat b).toNat = b := by decide
  have hb := htoNat b h₁
  refine ⟨fun he => h₂ ?_, fun he => h₃ ?_, by omega, by omega⟩
  · rw [← hb, he]
    rfl
  · rw [← hb, he]
    rfl

/-- What was written is read again. -/
theorem parseQuery_formatQuery (params : List (List Char × List Char)) :
    parseQuery (formatQuery params) = params := by
  have hhead : (formatQuery params).head? ≠ some '?' := by
    intro h
    exact (mem_formatQuery (List.mem_of_head? h)).1 rfl
  unfold parseQuery
  rw [if_neg hhead, encode_formatQuery]
  cases params with
  | nil => rfl
  | cons p params =>
    unfold queryBytes
    rw [List.splitOn_intercalate]
    · have hkept : ((p :: params).map pairBytes).filter (fun bytes => !bytes.isEmpty) = (p :: params).map pairBytes := by
        rw [List.filter_eq_self]
        intro bytes hbytes
        obtain ⟨q, -, rfl⟩ := List.mem_map.1 hbytes
        unfold pairBytes
        simp
      rw [hkept, List.map_map]
      exact (List.map_congr_left fun q _ => readPair_pairBytes q).trans (List.map_id _)
    · intro bytes hbytes h
      obtain ⟨q, -, rfl⟩ := List.mem_map.1 hbytes
      exact (mem_pairBytes h).2.1 rfl
    · simp

end Kernel
