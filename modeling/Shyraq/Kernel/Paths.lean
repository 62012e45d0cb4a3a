import Mathlib.Data.List.Induction
import Mathlib.Data.List.Infix
import Shyraq.Kernel.QueryString

/-!
# Paths

A path is the list of its segments.  `joinPath` walks from a directory along a text, `extname` is the extension of a
file, `decodeURIComponent` undoes the escapes of a part of a URL.
-/

namespace Kernel

abbrev Path := List (List Char)

/-- One segment of a text, below the root of the file system. -/
def stepInto (path : Path) (segment : List Char) : Path :=
  if segment = [] ∨ segment = ['.'] then path
  else if segment = ['.', '.'] then path.dropLast
  else path ++ [segment]

def walk (path : Path) (segments : List (List Char)) : Path := segments.foldl stepInto path

/-- `path.join(dir, text)`: a slash at the end is kept. -/
def joinPath (dir : Path) (text : List Char) : Path :=
  walk dir (text.splitOn '/') ++ if text.getLast? = some '/' then [[]] else []

/-- `path.extname`: from the last dot of the last segment, unless nothing stands before that dot. -/
def extname (path : List Char) : List Char :=
  let base := (path.reverse.dropWhile (· == '/')).takeWhile (· != '/')
  let extension := base.takeWhile (· != '.')
  match base.dropWhile (· != '.') with
  | '.' :: before => if before = [] ∨ (extension = [] ∧ before = ['.']) then [] else '.' :: extension.reverse
  | _ => []

/-- An escape that is none is refused. -/
def unescapeUri : List Nat → Option (List Nat)
  | [] => some []
  | b :: bytes =>
      if b = 37 then
        match bytes with
        | high :: low :: bytes => (escaped b high low).bind fun v => (unescapeUri bytes).map (v :: ·)
        | _ => none
      else (unescapeUri bytes).map (b :: ·)

/-- `none` is a `URIError`. -/
def decodeURIComponent (text : List Char) : Option (List Char) :=
  (unescapeUri (Utf8.encode text)).bind fun bytes =>
    if Utf8.encode (Utf8.decode bytes) = bytes then some (Utf8.decode bytes) else none

/-! ## Walking -/

/-- A segment that leads into a directory or to a file. -/
structure Plain (segment : List Char) : Prop where
  nonempty : segment ≠ []
  not_dot : segment ≠ ['.']
  not_dots : segment ≠ ['.', '.']
  no_slash : '/' ∉ segment

theorem stepInto_plain {segment : List Char} (h : Plain segment) (path : Path) :
    stepInto path segment = path ++ [segment] := by
  unfold stepInto
  rw [if_neg (not_or.2 ⟨h.nonempty, h.not_dot⟩), if_neg h.not_dots]

theorem walk_plain {segments : List (List Char)} (h : ∀ s ∈ segments, Plain s) (path : Path) :
    walk path segments = path ++ segments := by
  unfold walk
  induction segments generalizing path with
  | nil => exact (List.append_nil path).symm
  | cons s segments ih =>
    rw [List.foldl_cons, stepInto_plain (h s List.mem_cons_self), ih fun t ht => h t (List.mem_cons_of_mem _ ht),
      List.append_assoc]
    rfl

/-- What a walk ends with: a part of where it began, and then segments of the text. -/
theorem walk_eq_append (dir : Path) (segments : List (List Char)) :
    ∃ k rest, walk dir segments = dir.take k ++ rest ∧ ∀ s ∈ rest, s ∈ segments := by
  unfold walk
  induction segments using List.reverseRecOn with
  | nil => exact ⟨dir.length, [], by rw [List.take_length]; simp, by simp⟩
  | append_singleton segments s ih =>
    obtain ⟨k, rest, hwalk, hrest⟩ := ih
    rw [List.foldl_append, List.foldl_cons, List.foldl_nil, hwalk]
    unfold stepInto
    by_cases hskip : s = [] ∨ s = ['.']
    · rw [if_pos hskip]
      exact ⟨k, rest, rfl, fun t ht => List.mem_append_left _ (hrest t ht)⟩
    rw [if_neg hskip]
    by_cases hup : s = ['.', '.']
    · rw [if_pos hup]
      by_cases hempty : rest = []
      · rw [hempty, List.append_nil, List.dropLast_eq_take, List.take_take]
        exact ⟨_, [], (List.append_nil _).symm, by simp⟩
      · rw [List.dropLast_append_of_ne_nil hempty]
        exact ⟨k, _, rfl, fun t ht => List.mem_append_left _ (hrest t (List.dropLast_subset _ ht))⟩
    · rw [if_neg hup, List.append_assoc]
      refine ⟨k, _, rfl, fun t ht => ?_⟩
      rcases List.mem_append.1 ht with ht | ht
      · exact List.mem_append_left _ (hrest t ht)
      · exact List.mem_append_right _ ht

/-- The last segment of a path deeper than the directory stands in the text. -/
theorem mem_of_joinPath {dir deeper : Path} {name text : List Char} (hname : name ≠ [])
    (h : joinPath dir text = dir ++ deeper ++ [name]) : name ∈ text.splitOn '/' := by
  unfold joinPath at h
  obtain ⟨k, rest, hwalk, hrest⟩ := walk_eq_append dir (text.splitOn '/')
  rw [hwalk] at h
  by_cases hslash : text.getLast? = some '/'
  · rw [if_pos hslash] at h
    exact absurd (List.append_inj_right' h rfl) (by simpa using hname.symm)
  · rw [if_neg hslash, List.append_nil] at h
    have hne : rest ≠ [] := by
      rintro rfl
      have hlength := congrArg List.length h
      simp only [List.append_nil, List.length_take, List.length_append, List.length_singleton] at hlength
      omega
    have hlast := congrArg List.getLast? h
    rw [List.getLast?_append, List.getLast?_append, List.getLast?_eq_some_getLast hne] at hlast
    have hlast : rest.getLast hne = name := Option.some.inj hlast
    exact hrest name (hlast ▸ List.getLast_mem hne)

theorem joinPath_intercalate {segments : List (List Char)} (hne : segments ≠ []) (h : ∀ s ∈ segments, Plain s)
    (dir : Path) : joinPath dir (['/'].intercalate segments) = dir ++ segments := by
  unfold joinPath
  rw [List.splitOn_intercalate '/' (fun s hs => (h s hs).no_slash) hne, walk_plain h, if_neg, List.append_nil]
  have hplain := h _ (List.getLast_mem hne)
  have hends : ∀ {ss : List (List Char)} (hss : ss ≠ []), ss.getLast hss ≠ [] →
      (['/'].intercalate ss).getLast? = (ss.getLast hss).getLast? := by
    intro ss hss hlast
    induction ss with
    | nil => exact absurd rfl hss
    | cons s ss ih =>
      cases ss with
      | nil => rw [List.intercalate_singleton]; rfl
      | cons t ss =>
        have hlast' : (t :: ss).getLast (by simp) ≠ [] := hlast
        have hsome : ∃ c, ((t :: ss).getLast (by simp)).getLast? = some c :=
          ⟨_, List.getLast?_eq_some_getLast hlast'⟩
        obtain ⟨c, hc⟩ := hsome
        rw [List.intercalate_cons_cons, List.getLast?_append, ih (by simp) hlast', hc]
        exact hc.symm
  rw [hends hne hplain.nonempty]
  intro hlast
  exact hplain.no_slash (List.mem_of_getLast? hlast)

/-- A piece of a text that was split. -/
theorem infix_of_mem_splitOn {sep : Char} {text piece : List Char} (h : piece ∈ text.splitOn sep) : piece <:+: text := by
  have hall : ∀ {pieces : List (List Char)}, piece ∈ pieces → piece <:+: [sep].intercalate pieces := by
    intro pieces hmem
    induction pieces with
    | nil => cases hmem
    | cons p pieces ih =>
      cases pieces with
      | nil =>
        rw [List.intercalate_singleton]
        obtain rfl := List.mem_singleton.1 hmem
        exact List.infix_rfl
      | cons q pieces =>
        rw [List.intercalate_cons_cons]
        rcases List.mem_cons.1 hmem with rfl | hmem
        · exact ⟨[], [sep] ++ [sep].intercalate (q :: pieces), by simp⟩
        · exact (ih hmem).trans ⟨p ++ [sep], [], by simp⟩
  have := hall h
  rwa [List.intercalate_splitOn] at this

/-! ## Escapes -/

theorem unescapeUri_plain {bytes : List Nat} (h : 37 ∉ bytes) : unescapeUri bytes = some bytes := by
  induction bytes with
  | nil => rfl
  | cons b bytes ih =>
    rw [List.mem_cons, not_or] at h
    unfold unescapeUri
    rw [if_neg fun he => h.1 he.symm, ih h.2]
    rfl

/-- A text without escapes stands for itself. -/
theorem decodeURIComponent_plain {text : List Char} (h : ∀ c ∈ text, c.toNat < 128) (hescape : '%' ∉ text) :
    decodeURIComponent text = some text := by
  have hbytes : 37 ∉ Utf8.encode text := by
    rw [Utf8.encode_ascii h, List.mem_map]
    rintro ⟨c, hc, hcode⟩
    obtain rfl : c = '%' := Char.toNat_inj.1 hcode
    exact hescape hc
  unfold decodeURIComponent
  rw [unescapeUri_plain hbytes, Option.bind_some, Utf8.decode_encode, if_pos rfl]

/-! ## Two dots in a row -/

theorem encodeChar_dot {c : Char} (h : 46 ∈ Utf8.encodeChar c) : c = '.' := by
  unfold Utf8.encodeChar at h
  dsimp only at h
  split at h
  · exact Char.toNat_inj.1 (List.mem_singleton.1 h).symm
  · split at h
    · simp only [List.mem_cons, List.not_mem_nil, or_false] at h
      omega
    · split at h <;> simp only [List.mem_cons, List.not_mem_nil, or_false] at h <;> omega

theorem encodeChar_ne_nil (c : Char) : Utf8.encodeChar c ≠ [] := by
  unfold Utf8.encodeChar
  dsimp only
  split
  · exact List.cons_ne_nil _ _
  · split
    · exact List.cons_ne_nil _ _
    · split <;> exact List.cons_ne_nil _ _

theorem dots_of_encode {text : List Char} (h : [46, 46] <:+: Utf8.encode text) : ['.', '.'] <:+: text := by
  induction text with
  | nil => cases List.infix_nil.1 h
  | cons c text ih =>
    have h : [46, 46] <:+: Utf8.encodeChar c ++ Utf8.encode text := h
    rcases List.infix_append_iff_ne_nil.1 h with hc | htext | ⟨l₁, l₂, hne₁, hne₂, hl, hc, htext⟩
    · obtain rfl := encodeChar_dot (hc.subset List.mem_cons_self)
      exact absurd hc.length_le (by decide)
    · exact (ih htext).trans (List.suffix_cons c text).isInfix
    · obtain ⟨rfl, rfl⟩ : l₁ = [46] ∧ l₂ = [46] := by
        rcases l₁ with _ | ⟨a, _ | ⟨b, l₁⟩⟩
        · exact absurd rfl hne₁
        · obtain ⟨rfl, rfl⟩ := List.cons.inj hl
          exact ⟨rfl, rfl⟩
        · exact absurd (congrArg List.length hl) (by
            have h₂ := List.length_pos_iff.2 hne₂
            simp only [List.length_cons, List.length_append, List.length_nil]
            omega)
      obtain rfl := encodeChar_dot (hc.subset List.mem_cons_self)
      cases text with
      | nil => cases List.prefix_nil.1 htext
      | cons d rest =>
        obtain ⟨b, bytes, hd⟩ := List.exists_cons_of_ne_nil (encodeChar_ne_nil d)
        have htext : [46] <+: Utf8.encodeChar d ++ Utf8.encode rest := htext
        rw [hd, List.cons_append, List.cons_prefix_cons] at htext
        obtain rfl := encodeChar_dot (c := d) (hd ▸ htext.1 ▸ List.mem_cons_self)
        exact ⟨[], rest, rfl⟩

theorem dots_of_unescapeUri {bytes out : List Nat} (h : unescapeUri bytes = some out) (hd : [46, 46] <:+: bytes) :
    [46, 46] <:+: out := by
  have hplain : ∀ {b : Nat} {bytes out : List Nat}, b ≠ 37 → unescapeUri (b :: bytes) = some out →
      ∃ rest, unescapeUri bytes = some rest ∧ b :: rest = out := fun hb h => by
    unfold unescapeUri at h
    rw [if_neg hb] at h
    exact Option.map_eq_some_iff.1 h
  fun_induction unescapeUri bytes generalizing out with
  | case1 => cases List.infix_nil.1 hd
  | case2 high low bytes ih =>
    obtain ⟨v, hv, h⟩ := Option.bind_eq_some_iff.1 h
    obtain ⟨rest, hrest, rfl⟩ := Option.map_eq_some_iff.1 h
    have hhigh : high ≠ 46 := by
      rintro rfl
      cases hv
    have hlow : low ≠ 46 := by
      rintro rfl
      unfold escaped at hv
      rw [if_pos rfl] at hv
      obtain ⟨x, -, hx⟩ := Option.bind_eq_some_iff.1 hv
      cases hx
    simp only [List.infix_cons_iff, List.cons_prefix_cons] at hd
    have hbytes : [46, 46] <:+: bytes := by
      rcases hd with ⟨h, -⟩ | ⟨h, -⟩ | ⟨h, -⟩ | h
      · cases h
      · exact absurd h.symm hhigh
      · exact absurd h.symm hlow
      · exact h
    exact (ih hrest hbytes).trans (List.suffix_cons v rest).isInfix
  | case3 => cases h
  | case4 b bytes hb ih =>
    obtain ⟨rest, hrest, rfl⟩ := Option.map_eq_some_iff.1 h
    rcases List.infix_cons_iff.1 hd with ⟨post, hpost⟩ | hd
    · obtain ⟨rfl, rfl⟩ := List.cons.inj hpost
      obtain ⟨rest', -, rfl⟩ := hplain (by decide) hrest
      exact ⟨[], rest', rfl⟩
    · exact (ih hrest hd).trans (List.suffix_cons b rest).isInfix

theorem dots_of_decodeURIComponent {text decoded : List Char} (h : decodeURIComponent text = some decoded)
    (hd : ['.', '.'] <:+: text) : ['.', '.'] <:+: decoded := by
  obtain ⟨bytes, hbytes, h⟩ := Option.bind_eq_some_iff.1 h
  split at h
  · next hencode =>
    obtain rfl := Option.some.inj h
    refine dots_of_encode ?_
    rw [hencode]
    exact dots_of_unescapeUri hbytes (hd.flatMap Utf8.encodeChar)
  · cases h

/-- A path joined from a text without two dots in a row goes nowhere but down. -/
theorem prefix_joinPath {text : List Char} (h : ¬['.', '.'] <:+: text) (dir : Path) : dir <+: joinPath dir text := by
  have hseg : ∀ s ∈ text.splitOn '/', s ≠ ['.', '.'] := fun s hs he => h (he ▸ infix_of_mem_splitOn hs)
  refine List.IsPrefix.trans ?_ (List.prefix_append _ _)
  unfold walk
  generalize text.splitOn '/' = segments at hseg
  induction segments generalizing dir with
  | nil => exact List.prefix_rfl
  | cons s segments ih =>
    refine List.IsPrefix.trans ?_ (ih (stepInto dir s) fun t ht => hseg t (List.mem_cons_of_mem s ht))
    unfold stepInto
    rw [if_neg (hseg s List.mem_cons_self)]
    split
    · exact List.prefix_rfl
    · exact List.prefix_append _ _

end Kernel
