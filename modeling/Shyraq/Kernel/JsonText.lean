import Shyraq.Kernel.Digits

/-!
# JSON as text

`parseJson` is `JSON.parse`, `quote` what `JSON.stringify` makes of a string.
-/

namespace Kernel

inductive JsonValue
  | null
  | boolean (value : Bool)
  | number (literal : List Char)
  | string (text : List Char)
  | array (items : List JsonValue)
  | object (members : List (List Char × JsonValue))

/-! ## Strings -/

def escapeChar (c : Char) : List Char :=
  if c = '"' then ['\\', '"']
  else if c = '\\' then ['\\', '\\']
  else if c.toNat = 8 then ['\\', 'b']
  else if c.toNat = 12 then ['\\', 'f']
  else if c.toNat = 10 then ['\\', 'n']
  else if c.toNat = 13 then ['\\', 'r']
  else if c.toNat = 9 then ['\\', 't']
  else if c.toNat < 32 then '\\' :: 'u' :: padStart 16 4 c.toNat
  else [c]

def quote (text : List Char) : List Char := '"' :: (text.flatMap escapeChar ++ ['"'])

/-- What a backslash and one character stand for. -/
def unescape (c : Char) : Option Char :=
  if c = '"' ∨ c = '\\' ∨ c = '/' then some c
  else if c = 'b' then some (Char.ofNat 8)
  else if c = 'f' then some (Char.ofNat 12)
  else if c = 'n' then some (Char.ofNat 10)
  else if c = 'r' then some (Char.ofNat 13)
  else if c = 't' then some (Char.ofNat 9)
  else none

def consChar (c : Char) (p : List Char × List Char) : List Char × List Char := (c :: p.1, p.2)

/-- Up to the closing quote. -/
def readString : List Char → Option (List Char × List Char)
  | [] => none
  | '"' :: cs => some ([], cs)
  | '\\' :: 'u' :: p :: q :: r :: s :: cs =>
      (readNumber 16 4 [p, q, r, s]).bind fun n => (readString cs).map (consChar (Char.ofNat n.1))
  | '\\' :: c :: cs => (unescape c).bind fun d => (readString cs).map (consChar d)
  | c :: cs => if c = '\\' ∨ c.toNat < 32 then none else (readString cs).map (consChar c)

/-! ## Values -/

def skipSpace (cs : List Char) : List Char :=
  cs.dropWhile fun c => c == ' ' || c.toNat == 9 || c.toNat == 10 || c.toNat == 13

/-- At least one digit. -/
def skipDigits (cs : List Char) : Option (List Char) :=
  match cs with
  | c :: cs => if c.isDigit then some (cs.dropWhile Char.isDigit) else none
  | [] => none

def skipSign (cs : List Char) : List Char :=
  match cs with
  | '+' :: cs => cs
  | '-' :: cs => cs
  | cs => cs

/-- What stands behind a number. -/
def skipNumber (cs : List Char) : Option (List Char) := do
  let cs := (readChar '-' cs).getD cs
  let cs ← match cs with
    | '0' :: cs => some cs
    | cs => skipDigits cs
  let cs ← match cs with
    | '.' :: cs => skipDigits cs
    | cs => some cs
  match cs with
  | 'e' :: cs => skipDigits (skipSign cs)
  | 'E' :: cs => skipDigits (skipSign cs)
  | cs => some cs

def readItems (value : List Char → Option (JsonValue × List Char)) :
    Nat → List Char → Option (List JsonValue × List Char)
  | 0, _ => none
  | fuel + 1, cs => do
      let (v, cs) ← value cs
      match skipSpace cs with
      | ',' :: cs => (readItems value fuel cs).map fun p => (v :: p.1, p.2)
      | ']' :: cs => some ([v], cs)
      | _ => none

def readMembers (value : List Char → Option (JsonValue × List Char)) :
    Nat → List Char → Option (List (List Char × JsonValue) × List Char)
  | 0, _ => none
  | fuel + 1, cs => do
      let cs ← readChar '"' (skipSpace cs)
      let (key, cs) ← readString cs
      let cs ← readChar ':' (skipSpace cs)
      let (v, cs) ← value cs
      match skipSpace cs with
      | ',' :: cs => (readMembers value fuel cs).map fun p => ((key, v) :: p.1, p.2)
      | '}' :: cs => some ([(key, v)], cs)
      | _ => none

/-- `fuel` bounds the nesting and the lengths. -/
def readValue : Nat → List Char → Option (JsonValue × List Char)
  | 0, _ => none
  | fuel + 1, cs =>
      match skipSpace cs with
      | '"' :: cs => (readString cs).map fun p => (.string p.1, p.2)
      | '{' :: cs =>
          match readChar '}' (skipSpace cs) with
          | some cs => some (.object [], cs)
          | none => (readMembers (readValue fuel) fuel cs).map fun p => (.object p.1, p.2)
      | '[' :: cs =>
          match readChar ']' (skipSpace cs) with
          | some cs => some (.array [], cs)
          | none => (readItems (readValue fuel) fuel cs).map fun p => (.array p.1, p.2)
      | 'n' :: 'u' :: 'l' :: 'l' :: cs => some (.null, cs)
      | 't' :: 'r' :: 'u' :: 'e' :: cs => some (.boolean true, cs)
      | 'f' :: 'a' :: 'l' :: 's' :: 'e' :: cs => some (.boolean false, cs)
      | cs => (skipNumber cs).map fun rest => (.number (cs.take (cs.length - rest.length)), rest)

def parseJson (text : List Char) : Option JsonValue := do
  let (v, cs) ← readValue (text.length + 1) text
  if skipSpace cs = [] then some v else none

/-- The member of an object; the last one of its name counts. -/
def JsonValue.member (key : List Char) : JsonValue → Option JsonValue
  | .object members => (members.reverse.find? fun m => m.1 == key).map Prod.snd
  | _ => none

/-! ## What is quoted is read -/

theorem readString_plain {c : Char} (hq : c ≠ '"') (hb : c ≠ '\\') (h : ¬c.toNat < 32) (cs : List Char) :
    readString (c :: cs) = (readString cs).map (consChar c) := by
  have hplain : ¬(c = '\\' ∨ c.toNat < 32) := not_or.2 ⟨hb, h⟩
  conv_lhs => unfold readString
  split
  · next heq => cases heq
  · next heq => exact absurd (List.cons.inj heq).1 hq
  · next heq => exact absurd (List.cons.inj heq).1 hb
  · next heq => exact absurd (List.cons.inj heq).1 hb
  · next heq =>
    obtain ⟨rfl, rfl⟩ := List.cons.inj heq
    exact if_neg hplain

theorem readString_control {n : Nat} (h : n < 32) (cs : List Char) :
    readString ('\\' :: 'u' :: (padStart 16 4 n ++ cs)) = (readString cs).map (consChar (Char.ofNat n)) := by
  have hread := readNumber_padStart digital_sixteen (by decide) (show n < 16 ^ 4 by omega) []
  rw [List.append_nil] at hread
  obtain ⟨p, q, r, s, hdigits⟩ : ∃ p q r s, padStart 16 4 n = [p, q, r, s] := ⟨_, _, _, _, rfl⟩
  rw [hdigits] at hread ⊢
  show (readNumber 16 4 [p, q, r, s]).bind (fun n => (readString cs).map (consChar (Char.ofNat n.1))) = _
  rw [hread]
  rfl

theorem readString_escapeChar (c : Char) (cs : List Char) :
    readString (escapeChar c ++ cs) = (readString cs).map (consChar c) := by
  have named : ∀ {n : Nat}, c.toNat = n → c = Char.ofNat n := by
    rintro n rfl
    exact (Char.ofNat_toNat c).symm
  unfold escapeChar
  split
  · next h => rw [h]; rfl
  split
  · next h => rw [h]; rfl
  split
  · next h => rw [named h]; rfl
  split
  · next h => rw [named h]; rfl
  split
  · next h => rw [named h]; rfl
  split
  · next h => rw [named h]; rfl
  split
  · next h => rw [named h]; rfl
  split
  · next h =>
    rw [List.cons_append, List.cons_append, readString_control h, Char.ofNat_toNat]
  · next hq hb _ _ _ _ _ h => exact readString_plain hq hb h cs

theorem readString_quoted (text rest : List Char) :
    readString (text.flatMap escapeChar ++ '"' :: rest) = some (text, rest) := by
  induction text with
  | nil => rfl
  | cons c cs ih =>
    rw [List.flatMap_cons, List.append_assoc, readString_escapeChar, ih]
    rfl

theorem readValue_quote (fuel : Nat) (text rest : List Char) :
    readValue (fuel + 1) (quote text ++ rest) = some (.string text, rest) := by
  have h := readString_quoted text rest
  show (readString ((text.flatMap escapeChar ++ ['"']) ++ rest)).map (fun p => (JsonValue.string p.1, p.2)) = _
  rw [List.append_assoc, List.singleton_append, h]
  rfl

variable {value : List Char → Option (JsonValue × List Char)} {key text rest rest' : List Char} {v : JsonValue}
  {members : List (List Char × JsonValue)}

/-- The last member of an object. -/
theorem readMembers_last (fuel : Nat) (hv : value text = some (v, '}' :: rest)) :
    readMembers value (fuel + 1) (quote key ++ ':' :: text) = some ([(key, v)], rest) := by
  have hkey := readString_quoted key (':' :: text)
  have hquote : quote key ++ ':' :: text = '"' :: (key.flatMap escapeChar ++ '"' :: ':' :: text) := by
    simp [quote]
  have hstart : ∀ cs, skipSpace ('"' :: cs) = '"' :: cs := fun _ => rfl
  have hcolon : ∀ cs, skipSpace (':' :: cs) = ':' :: cs := fun _ => rfl
  have hend : ∀ cs, skipSpace ('}' :: cs) = '}' :: cs := fun _ => rfl
  unfold readMembers
  rw [hquote]
  simp only [hstart, hcolon, hend, readChar_cons, hkey, hv, Option.bind_eq_bind, Option.bind_some]

theorem readMembers_more (fuel : Nat) (hv : value text = some (v, ',' :: rest))
    (hrest : readMembers value fuel rest = some (members, rest')) :
    readMembers value (fuel + 1) (quote key ++ ':' :: text) = some ((key, v) :: members, rest') := by
  have hkey := readString_quoted key (':' :: text)
  have hquote : quote key ++ ':' :: text = '"' :: (key.flatMap escapeChar ++ '"' :: ':' :: text) := by
    simp [quote]
  have hstart : ∀ cs, skipSpace ('"' :: cs) = '"' :: cs := fun _ => rfl
  have hcolon : ∀ cs, skipSpace (':' :: cs) = ':' :: cs := fun _ => rfl
  have hcomma : ∀ cs, skipSpace (',' :: cs) = ',' :: cs := fun _ => rfl
  unfold readMembers
  rw [hquote]
  simp only [hstart, hcolon, hcomma, readChar_cons, hkey, hv, hrest, Option.bind_eq_bind, Option.bind_some,
    Option.map_some]

/-- `JSON.stringify` of an object with two members that are strings. -/
def stringifyPair (key₁ text₁ key₂ text₂ : List Char) : List Char :=
  '{' :: (quote key₁ ++ ':' :: (quote text₁ ++ ',' :: (quote key₂ ++ ':' :: (quote text₂ ++ ['}']))))

theorem parseJson_stringifyPair (key₁ text₁ key₂ text₂ : List Char) :
    parseJson (stringifyPair key₁ text₁ key₂ text₂) =
      some (.object [(key₁, .string text₁), (key₂, .string text₂)]) := by
  obtain ⟨fuel, hfuel⟩ : ∃ fuel, (stringifyPair key₁ text₁ key₂ text₂).length + 1 = fuel + 3 := by
    refine ⟨(stringifyPair key₁ text₁ key₂ text₂).length - 2, ?_⟩
    unfold stringifyPair quote
    simp only [List.length_cons, List.length_append]
    omega
  have hsecond : readMembers (readValue (fuel + 2)) (fuel + 1) (quote key₂ ++ ':' :: (quote text₂ ++ ['}'])) =
      some ([(key₂, .string text₂)], []) := readMembers_last fuel (readValue_quote (fuel + 1) text₂ ['}'])
  have hboth : readMembers (readValue (fuel + 2)) (fuel + 2) (quote key₁ ++ ':' :: (quote text₁ ++ ',' ::
      (quote key₂ ++ ':' :: (quote text₂ ++ ['}'])))) =
      some ([(key₁, .string text₁), (key₂, .string text₂)], []) :=
    readMembers_more (fuel + 1) (readValue_quote (fuel + 1) text₁ _) hsecond
  have hvalue : readValue (fuel + 3) (stringifyPair key₁ text₁ key₂ text₂) =
      some (.object [(key₁, .string text₁), (key₂, .string text₂)], []) := by
    show (readMembers (readValue (fuel + 2)) (fuel + 2) (quote key₁ ++ ':' :: (quote text₁ ++ ',' ::
      (quote key₂ ++ ':' :: (quote text₂ ++ ['}']))))).map (fun p => (JsonValue.object p.1, p.2)) = _
    rw [hboth]
    rfl
  unfold parseJson
  rw [hfuel, hvalue]
  rfl

end Kernel
