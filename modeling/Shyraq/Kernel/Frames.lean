import Mathlib.Data.List.Basic
import Mathlib.Data.List.Forall2
import Mathlib.Data.List.Count
import Mathlib.Algebra.BigOperators.Group.List.Basic
import Mathlib.Algebra.Ring.Nat

/-!
# Texts after their lengths

`frame` writes a text after its length in decimal digits, with nothing between them.  Such frames in a row can be read
in more than one way, as the digits of a length may go on in the text.  A class of texts is `Delimited` when its frames
are read in one way only: texts of one length, of lengths that are no prefixes of each other, or with a mark that is no
digit at a fixed distance from their end.
-/

namespace Kernel

def frame (text : List Char) : List Char := Nat.toDigits 10 text.length ++ text

/-- The text and what follows its frame are determined. -/
def Delimited (P : List Char → Prop) : Prop :=
  ∀ v v' r r', P v → P v' → frame v ++ r = frame v' ++ r' → v = v' ∧ r = r'

/-- No length is written as the beginning of another one. -/
def PrefixFree (S : Nat → Prop) : Prop :=
  ∀ n m, S n → S m → Nat.toDigits 10 n <+: Nat.toDigits 10 m → n = m

/-- Digits, the mark, and so many characters. -/
def Marked (mark : Char) (tail : Nat) (v : List Char) : Prop :=
  ∃ digits rest, v = digits ++ mark :: rest ∧ digits.all Char.isDigit = true ∧ rest.length = tail

theorem all_isDigit_toDigits (n : Nat) : (Nat.toDigits 10 n).all Char.isDigit = true := by
  rw [List.all_eq_true]
  intro c hc
  exact Nat.isDigit_of_mem_toDigits (by decide) (by decide) hc

/-- A larger number has no fewer digits. -/
theorem length_toDigits_mono {n m : Nat} (h : n ≤ m) : (Nat.toDigits 10 n).length ≤ (Nat.toDigits 10 m).length := by
  have hpos : 0 < (Nat.toDigits 10 m).length := Nat.length_toDigits_pos
  rw [Nat.length_toDigits_le_iff (show 1 < 10 by decide) hpos]
  have hm := (Nat.length_toDigits_le_iff (n := m) (show 1 < 10 by decide) hpos).1 (Nat.le_refl _)
  omega

/-! ## One frame -/

theorem delimited_of_length {P : List Char → Prop}
    (h : ∀ v v' r r', P v → P v' → frame v ++ r = frame v' ++ r' → v.length = v'.length) : Delimited P := by
  intro v v' r r' hv hv' he
  have hlen := h v v' r r' hv hv' he
  unfold frame at he
  rw [hlen, List.append_assoc, List.append_assoc] at he
  exact List.append_inj (List.append_cancel_left he) hlen

theorem delimited_length (n : Nat) : Delimited fun v => v.length = n :=
  delimited_of_length fun _ _ _ _ hv hv' _ => hv.trans hv'.symm

theorem delimited_eq (text : List Char) : Delimited fun v => v = text :=
  delimited_of_length fun _ _ _ _ hv hv' _ => by rw [hv, hv']

theorem Delimited.mono {P P' : List Char → Prop} (h : Delimited P) (hP : ∀ v, P' v → P v) : Delimited P' :=
  fun v v' r r' hv hv' => h v v' r r' (hP v hv) (hP v' hv')

theorem delimited_of_prefixFree {S : Nat → Prop} (hS : PrefixFree S) : Delimited fun v => S v.length := by
  refine delimited_of_length fun v v' r r' hv hv' he => ?_
  -- both lengths stand at the beginning of one text
  have h₁ : Nat.toDigits 10 v.length <+: frame v ++ r := ⟨v ++ r, by simp [frame]⟩
  have h₂ : Nat.toDigits 10 v'.length <+: frame v ++ r := he ▸ ⟨v' ++ r', by simp [frame]⟩
  rcases List.prefix_or_prefix_of_prefix h₁ h₂ with h | h
  · exact hS _ _ hv hv' h
  · exact (hS _ _ hv' hv h).symm

theorem takeWhile_digits {digits rest : List Char} {mark : Char} (hd : digits.all Char.isDigit = true)
    (hm : mark.isDigit = false) : (digits ++ mark :: rest).takeWhile Char.isDigit = digits := by
  rw [List.takeWhile_append_of_pos fun c hc => List.all_eq_true.1 hd c hc, List.takeWhile_cons_of_neg (by simp [hm]),
    List.append_nil]

/-- The mark comes the later the longer the text is. -/
theorem delimited_marked {mark : Char} (hm : mark.isDigit = false) (tail : Nat) : Delimited (Marked mark tail) := by
  refine delimited_of_length ?_
  rintro v v' r r' ⟨ds, rest, rfl, hds, hrest⟩ ⟨ds', rest', rfl, hds', hrest'⟩ he
  generalize hn : (ds ++ mark :: rest).length = n
  generalize hn' : (ds' ++ mark :: rest').length = n'
  have hdigits : (Nat.toDigits 10 n ++ ds).all Char.isDigit = true := by
    rw [List.all_append, all_isDigit_toDigits, hds]
    rfl
  have hdigits' : (Nat.toDigits 10 n' ++ ds').all Char.isDigit = true := by
    rw [List.all_append, all_isDigit_toDigits, hds']
    rfl
  unfold frame at he
  rw [hn, hn'] at he
  have he : (Nat.toDigits 10 n ++ ds) ++ mark :: (rest ++ r) = (Nat.toDigits 10 n' ++ ds') ++ mark :: (rest' ++ r') := by
    simpa using he
  have hbefore := congrArg (List.takeWhile Char.isDigit) he
  rw [takeWhile_digits hdigits hm, takeWhile_digits hdigits' hm] at hbefore
  have hlen := congrArg List.length hbefore
  rw [List.length_append, List.length_append] at hlen
  rw [List.length_append, List.length_cons] at hn hn'
  rcases Nat.lt_trichotomy n n' with h | h | h
  · have := length_toDigits_mono (Nat.le_of_lt h)
    omega
  · exact h
  · have := length_toDigits_mono (Nat.le_of_lt h)
    omega

/-! ## Frames in a row -/

def frames (texts : List (List Char)) : List Char := texts.flatMap frame

/-- Texts of delimited classes are determined by their frames in a row. -/
theorem frames_inj {Ps : List (List Char → Prop)} (hPs : ∀ P ∈ Ps, Delimited P) {vs vs' : List (List Char)}
    (hv : List.Forall₂ (fun P v => P v) Ps vs) (hv' : List.Forall₂ (fun P v => P v) Ps vs')
    (h : frames vs = frames vs') : vs = vs' := by
  induction hv generalizing vs' with
  | nil =>
    cases hv'
    rfl
  | cons hp _ ih =>
    cases hv' with
    | cons hp' hrest' =>
      obtain ⟨rfl, hrest⟩ := hPs _ List.mem_cons_self _ _ _ _ hp hp' h
      rw [ih (fun P hP => hPs P (List.mem_cons_of_mem _ hP)) hrest' hrest]

/-- The lengths hold no such character. -/
theorem count_frames {c : Char} (hc : c.isDigit = false) (texts : List (List Char)) :
    (frames texts).count c = (texts.map (List.count c)).sum := by
  induction texts with
  | nil => rfl
  | cons v texts ih =>
    have hdigits : (Nat.toDigits 10 v.length).count c = 0 := by
      rw [List.count_eq_zero]
      intro h
      rw [List.all_eq_true.1 (all_isDigit_toDigits v.length) c h] at hc
      cases hc
    unfold frames at ih ⊢
    rw [List.flatMap_cons, List.count_append, ih, List.map_cons, List.sum_cons]
    unfold frame
    rw [List.count_append, hdigits, Nat.zero_add]

end Kernel
