import Mathlib.Data.List.Basic

/-!
# Base64

Three bytes are four characters.  The decoder takes both alphabets, skips every character that is in
neither and stops at the padding, as `Buffer.from(text, 'base64')` does.
-/

namespace Kernel

/-- The two last characters of the alphabet, and whether `=` fills up the last group. -/
structure Base64Variant where
  char62 : Char
  char63 : Char
  padded : Bool

def base64 : Base64Variant := ⟨'+', '/', true⟩

def base64url : Base64Variant := ⟨'-', '_', false⟩

namespace Base64Variant

variable (v : Base64Variant)

def charOf (n : Nat) : Char :=
  if n < 26 then Char.ofNat (65 + n)
  else if n < 52 then Char.ofNat (71 + n)
  else if n < 62 then Char.ofNat (n - 4)
  else if n = 62 then v.char62
  else v.char63

def pad (n : Nat) : List Char := if v.padded then List.replicate n '=' else []

def encode : List UInt8 → List Char
  | a :: b :: c :: rest =>
      v.charOf (a.toNat / 4) :: v.charOf (a.toNat % 4 * 16 + b.toNat / 16) ::
        v.charOf (b.toNat % 16 * 4 + c.toNat / 64) :: v.charOf (c.toNat % 64) :: encode rest
  | [a, b] =>
      [v.charOf (a.toNat / 4), v.charOf (a.toNat % 4 * 16 + b.toNat / 16), v.charOf (b.toNat % 16 * 4)] ++ v.pad 1
  | [a] => [v.charOf (a.toNat / 4), v.charOf (a.toNat % 4 * 16)] ++ v.pad 2
  | [] => []

end Base64Variant

def sextet (c : Char) : Option Nat :=
  if 'A' ≤ c ∧ c ≤ 'Z' then some (c.toNat - 65)
  else if 'a' ≤ c ∧ c ≤ 'z' then some (c.toNat - 71)
  else if '0' ≤ c ∧ c ≤ '9' then some (c.toNat + 4)
  else if c = '+' ∨ c = '-' then some 62
  else if c = '/' ∨ c = '_' then some 63
  else none

def bytesOf : List Nat → List UInt8
  | p :: q :: r :: s :: rest =>
      UInt8.ofNat (p * 4 + q / 16) :: UInt8.ofNat (q % 16 * 16 + r / 4) :: UInt8.ofNat (r % 4 * 64 + s) ::
        bytesOf rest
  | [p, q, r] => [UInt8.ofNat (p * 4 + q / 16), UInt8.ofNat (q % 16 * 16 + r / 4)]
  | [p, q] => [UInt8.ofNat (p * 4 + q / 16)]
  | _ => []

def base64Decode (text : List Char) : List UInt8 :=
  bytesOf ((text.takeWhile (· != '=')).filterMap sextet)

/-- `Buffer.from(text)`. -/
def utf8 (text : List Char) : List UInt8 := (String.ofList text).toUTF8.data.toList

/-- `buffer.toString('utf8')`: what is not UTF-8 becomes U+FFFD. -/
def utf8Decode (bytes : List UInt8) : List Char :=
  match String.fromUTF8? ⟨bytes.toArray⟩ with
  | some text => text.toList
  | none => bytes.map fun b => if b < 128 then Char.ofNat b.toNat else Char.ofNat 65533

/-! ## What is encoded is decoded -/

theorem utf8Decode_utf8 (text : List Char) : utf8Decode (utf8 text) = text := by
  have hvalid := (String.ofList text).isValidUTF8
  have hback : String.fromUTF8? ⟨(utf8 text).toArray⟩ = some (String.ofList text) := by
    unfold utf8 String.fromUTF8?
    rw [Array.toArray_toList]
    exact dif_pos hvalid
  unfold utf8Decode
  rw [hback]
  exact String.toList_ofList

/-- The alphabet of the variant is one of the two that the decoder takes. -/
def Base64Variant.Known (v : Base64Variant) : Prop := ∀ n < 64, sextet (v.charOf n) = some n ∧ v.charOf n ≠ '='

theorem base64_known : base64.Known := by
  unfold Base64Variant.Known
  decide

theorem base64url_known : base64url.Known := by
  unfold Base64Variant.Known
  decide

variable {v : Base64Variant}

/-- The sextets of the bytes, as `encode` writes them. -/
def sextets : List UInt8 → List Nat
  | a :: b :: c :: rest =>
      a.toNat / 4 :: (a.toNat % 4 * 16 + b.toNat / 16) :: (b.toNat % 16 * 4 + c.toNat / 64) :: c.toNat % 64 ::
        sextets rest
  | [a, b] => [a.toNat / 4, a.toNat % 4 * 16 + b.toNat / 16, b.toNat % 16 * 4]
  | [a] => [a.toNat / 4, a.toNat % 4 * 16]
  | [] => []

theorem sextets_lt (l : List UInt8) : ∀ n ∈ sextets l, n < 64 := by
  fun_induction sextets l with
  | case1 a b c rest ih =>
    have ha := a.toNat_lt
    have hb := b.toNat_lt
    have hc := c.toNat_lt
    intro n hn
    simp only [List.mem_cons] at hn
    rcases hn with rfl | rfl | rfl | rfl | hn
    · omega
    · omega
    · omega
    · omega
    · exact ih n hn
  | case2 a b =>
    have ha := a.toNat_lt
    have hb := b.toNat_lt
    intro n hn
    simp only [List.mem_cons, List.not_mem_nil, or_false] at hn
    omega
  | case3 a =>
    have ha := a.toNat_lt
    intro n hn
    simp only [List.mem_cons, List.not_mem_nil, or_false] at hn
    omega
  | case4 => exact fun n hn => absurd hn List.not_mem_nil

theorem bytesOf_sextets (l : List UInt8) : bytesOf (sextets l) = l := by
  have byte : ∀ (a : UInt8) (n : Nat), n = a.toNat → UInt8.ofNat n = a := by
    rintro a n rfl
    exact UInt8.ofNat_toNat
  fun_induction sextets l with
  | case1 a b c rest ih =>
    have ha := a.toNat_lt
    have hb := b.toNat_lt
    have hc := c.toNat_lt
    unfold bytesOf
    rw [ih, byte a _ (by omega), byte b _ (by omega), byte c _ (by omega)]
  | case2 a b =>
    have ha := a.toNat_lt
    have hb := b.toNat_lt
    unfold bytesOf
    rw [byte a _ (by omega), byte b _ (by omega)]
  | case3 a =>
    have ha := a.toNat_lt
    unfold bytesOf
    rw [byte a _ (by omega)]
  | case4 => rfl

theorem encode_eq (l : List UInt8) : ∃ n, v.encode l = (sextets l).map v.charOf ++ v.pad n := by
  fun_induction sextets l with
  | case1 a b c rest ih =>
    obtain ⟨n, hn⟩ := ih
    refine ⟨n, ?_⟩
    unfold Base64Variant.encode
    rw [hn]
    rfl
  | case2 a b => exact ⟨1, rfl⟩
  | case3 a => exact ⟨2, rfl⟩
  | case4 =>
    refine ⟨0, ?_⟩
    unfold Base64Variant.encode Base64Variant.pad
    simp

theorem base64Decode_encode (hv : v.Known) (l : List UInt8) : base64Decode (v.encode l) = l := by
  obtain ⟨n, hn⟩ := encode_eq (v := v) l
  have hchars : ∀ c ∈ (sextets l).map v.charOf, (c != '=') = true := by
    intro c hc
    obtain ⟨m, hm, rfl⟩ := List.mem_map.1 hc
    simpa using (hv m (sextets_lt l m hm)).2
  have hpad : (v.pad n).takeWhile (· != '=') = [] := by
    unfold Base64Variant.pad
    split
    · cases n with
      | zero => rfl
      | succ n => rfl
    · rfl
  have hmap : ((sextets l).map v.charOf).filterMap sextet = sextets l := by
    rw [List.filterMap_map]
    have hsome : ∀ m ∈ sextets l, (sextet ∘ v.charOf) m = some m := fun m hm => (hv m (sextets_lt l m hm)).1
    rw [List.filterMap_congr hsome, List.filterMap_some]
  unfold base64Decode
  rw [hn, List.takeWhile_append_of_pos hchars, hpad, List.append_nil, hmap, bytesOf_sextets]

theorem encode_ne_nil (hv : v.Known) {text : List Char} (h : text ≠ []) : v.encode (utf8 text) ≠ [] := by
  intro hnil
  have hbytes := base64Decode_encode hv (utf8 text)
  have htext := utf8Decode_utf8 text
  have hempty : utf8Decode (base64Decode []) = [] := utf8Decode_utf8 []
  rw [hnil] at hbytes
  rw [← hbytes, hempty] at htext
  exact h htext.symm

end Kernel
