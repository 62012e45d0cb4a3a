import Mathlib.Data.List.TakeWhile
import Mathlib.Tactic.IntervalCases
import Shyraq.Media.LocalStorage

/-!
# Uploaded files, served

A file that was accepted comes back byte for byte exactly when it is no story, when its name keeps an extension of two
to five characters, and when the year has four digits.  Whatever it is, it lies under the uploads root and no other
kindergarten gets it.
-/

namespace Media

open Kernel

/-! ## What is claimed -/

/-- Who accepts a file. -/
inductive Producer
  | uploadMedia
  | createStory (group : Bool) (actor : Option StoryAuthor)
  | setLogo (existing : Option Kindergarten)

/-- The caller's kindergarten. -/
def Member (tenant : TenantContext) (kindergartenId : Nat) : Prop :=
  tenant.kgId = some (String.ofList (uuidText kindergartenId))

structure RoundTrips (uploadsDir : Path) (kindergartenId : Nat) (buffer : Bytes) (up : Uploaded) : Prop where
  served : ∀ tenant, Member tenant kindergartenId →
    ∃ response, MediaController.get uploadsDir none up.files tenant up.url = .ok response ∧ response.body = buffer
  refused : ∀ tenant, tenant.bypass = false → ¬Member tenant kindergartenId →
    ∀ fault response, MediaController.get uploadsDir fault up.files tenant up.url ≠ .ok response
  rooted : ∃ key, up.url = LocalFileStorageAdapter.urlPrefix ++ '/' :: key ∧
    uploadsDir <+: joinPath uploadsDir key ∧ joinPath uploadsDir key ≠ uploadsDir

namespace Producer

variable (toLowerCase : List Char → List Char)

def accept (host : Host) (kindergartenId : Nat) (file : UploadInput) : Producer → Except UploadError Uploaded
  | uploadMedia => ContentService.uploadMedia toLowerCase host kindergartenId file
  | createStory group actor => StoryService.create toLowerCase host kindergartenId group actor file
  | setLogo existing => KindergartenService.setLogo toLowerCase host kindergartenId existing file

/-- The new id stands in no link that is stored. -/
def Fresh (host : Host) : Producer → Prop
  | setLogo (some existing) => ∀ previous, existing.logoUrl = some previous → ¬uuidText host.randomUUID <:+: previous
  | _ => True

def isStory : Producer → Prop
  | createStory _ _ => True
  | _ => False

/-- The dot counts. -/
structure Servable (host : Host) (file : UploadInput) (producer : Producer) : Prop where
  noStory : ¬producer.isStory
  extension : 3 ≤ (safeExt toLowerCase file.originalname).length ∧ (safeExt toLowerCase file.originalname).length ≤ 6
  year : 0 ≤ yearOf (utcDay host.now) ∧ yearOf (utcDay host.now) ≤ 9999

end Producer

/-! ## Keys -/

/-- A part of a key that was built. -/
structure Segment (s : List Char) : Prop where
  long : 3 ≤ s.length
  chars : ∀ c ∈ s, c = '-' ∨ c = '.' ∨ isExtensionChar c = true

theorem isExtensionChar_code {c : Char} (h : isExtensionChar c = true) :
    48 ≤ c.toNat ∧ c.toNat ≤ 57 ∨ 97 ≤ c.toNat ∧ c.toNat ≤ 122 := by
  unfold isExtensionChar Char.isDigit at h
  simp only [Bool.or_eq_true, Bool.and_eq_true, decide_eq_true_eq] at h
  exact h

theorem Segment.code {s : List Char} (h : Segment s) {c : Char} (hc : c ∈ s) :
    c.toNat < 128 ∧ c ≠ '/' ∧ c ≠ '?' ∧ c ≠ '%' := by
  have hcode : 48 ≤ c.toNat ∧ c.toNat ≤ 57 ∨ 97 ≤ c.toNat ∧ c.toNat ≤ 122 ∨ c = '-' ∨ c = '.' := by
    rcases h.chars c hc with rfl | rfl | hext
    · decide
    · decide
    · rcases isExtensionChar_code hext with h | h
      · exact .inl h
      · exact .inr (.inl h)
  rcases hcode with hcode | hcode | rfl | rfl
  · refine ⟨by omega, ?_, ?_, ?_⟩ <;> rintro rfl <;> exact absurd hcode (by decide)
  · refine ⟨by omega, ?_, ?_, ?_⟩ <;> rintro rfl <;> exact absurd hcode (by decide)
  · decide
  · decide

theorem Segment.plain {s : List Char} (h : Segment s) : Plain s where
  nonempty := by
    rintro rfl
    exact absurd h.long (by decide)
  not_dot := by
    rintro rfl
    exact absurd h.long (by decide)
  not_dots := by
    rintro rfl
    exact absurd h.long (by decide)
  no_slash hc := (h.code hc).2.1 rfl

theorem Segment.decoded {s : List Char} (h : Segment s) : decodeURIComponent s = some s :=
  decodeURIComponent_plain (fun _ hc => (h.code hc).1) fun hc => (h.code hc).2.2.2 rfl

theorem Segment.append {s e : List Char} (h : Segment s) (he : ∀ c ∈ e, c = '-' ∨ c = '.' ∨ isExtensionChar c = true) :
    Segment (s ++ e) where
  long := by
    have := h.long
    rw [List.length_append]
    omega
  chars c hc := by
    rcases List.mem_append.1 hc with hc | hc
    · exact h.chars c hc
    · exact he c hc

theorem digit_segment : ∀ d < 16, isExtensionChar (digitChar d) = true ∧ MediaController.isHex (digitChar d) = true := by
  decide

theorem length_padStart (base width n : Nat) : (padStart base width n).length = width := by
  induction width with
  | zero => rfl
  | succ width ih =>
    unfold padStart
    rw [List.length_cons, ih]

theorem length_uuidText (n : Nat) : (uuidText n).length = 36 := by
  unfold uuidText
  simp only [List.length_append, List.length_cons, length_padStart]

theorem segment_uuidText (n : Nat) : Segment (uuidText n) where
  long := by
    rw [length_uuidText]
    decide
  chars c hc := by
    rcases mem_uuidText hc with rfl | ⟨d, hd, rfl⟩
    · exact .inl rfl
    · exact .inr (.inr (digit_segment d hd).1)

theorem isUuid_uuidText (n : Nat) : MediaController.isUuid (uuidText n) = true := by
  have hhex : ∀ m, MediaController.isHex (digitChar (m % 16)) = true := fun m =>
    (digit_segment _ (Nat.mod_lt _ (by decide))).2
  unfold MediaController.isUuid
  rw [decide_eq_true (length_uuidText n), Bool.true_and]
  unfold uuidText
  simp [padStart, hhex]

/-! ## File names -/

theorem isExtension_iff {ext : List Char} : isExtension ext = true ↔
    ∃ name, ext = '.' :: name ∧ 1 ≤ name.length ∧ name.length ≤ 8 ∧ ∀ c ∈ name, isExtensionChar c = true := by
  unfold isExtension
  split
  · next name =>
    rw [Bool.and_eq_true, decide_eq_true_iff, List.all_eq_true]
    constructor
    · rintro ⟨⟨hshort, hlong⟩, hchars⟩
      exact ⟨name, rfl, hshort, hlong, hchars⟩
    · rintro ⟨_, hname, hshort, hlong, hchars⟩
      obtain ⟨-, rfl⟩ := List.cons.inj hname
      exact ⟨⟨hshort, hlong⟩, hchars⟩
  · next hne =>
    refine iff_of_false Bool.false_ne_true ?_
    rintro ⟨name, rfl, -⟩
    exact hne name rfl

theorem safeExt_cases (toLowerCase : List Char → List Char) (originalname : List Char) :
    isExtension (safeExt toLowerCase originalname) = true ∨ safeExt toLowerCase originalname = [] := by
  unfold safeExt
  dsimp only
  split
  · next h => exact .inl h
  · exact .inr rfl

theorem isFilename_uuidText (n : Nat) {ext : List Char} (h : isExtension ext = true ∨ ext = []) :
    MediaController.isFilename (uuidText n ++ ext) = true ↔ 3 ≤ ext.length ∧ ext.length ≤ 6 := by
  unfold MediaController.isFilename
  rw [List.take_left' (length_uuidText n), List.drop_left' (length_uuidText n), isUuid_uuidText, Bool.true_and]
  rcases h with h | rfl
  · obtain ⟨name, rfl, -, -, hchars⟩ := isExtension_iff.1 h
    have hall : (name.all fun c => c.isDigit || (decide ('a' ≤ c) && decide (c ≤ 'z'))) = true :=
      List.all_eq_true.2 hchars
    show (decide (2 ≤ name.length ∧ name.length ≤ 5) && _) = true ↔ _
    rw [hall, Bool.and_true, decide_eq_true_iff, List.length_cons]
    omega
  · exact iff_of_false Bool.false_ne_true (by decide)

theorem segment_fileName (toLowerCase : List Char → List Char) (host : Host) (file : UploadInput) :
    Segment (host.fileName toLowerCase file) := by
  refine (segment_uuidText _).append fun c hc => ?_
  rcases safeExt_cases toLowerCase file.originalname with h | h
  · obtain ⟨name, hext, -, -, hchars⟩ := isExtension_iff.1 h
    rw [hext] at hc
    rcases List.mem_cons.1 hc with rfl | hc
    · exact .inr (.inl rfl)
    · exact .inr (.inr (hchars c hc))
  · rw [h] at hc
    cases hc

/-! ## Months -/

theorem mem_decimal {n : Nat} {c : Char} (h : c ∈ decimal n) : ∃ d < 10, c = digitChar d := by
  induction n using Nat.strongRecOn with
  | ind n ih =>
    unfold decimal at h
    split at h
    · next hn => exact ⟨n, hn, List.mem_singleton.1 h⟩
    · rcases List.mem_append.1 h with h | h
      · exact ih (n / 10) (by omega) h
      · exact ⟨n % 10, Nat.mod_lt _ (by decide), List.mem_singleton.1 h⟩

theorem lt_pow_length_decimal (n : Nat) : n < 10 ^ (decimal n).length := by
  induction n using Nat.strongRecOn with
  | ind n ih =>
    unfold decimal
    split
    · next hn => exact hn
    · have := ih (n / 10) (by omega)
      rw [List.length_append, List.length_singleton, Nat.pow_succ]
      omega

theorem yearDigits_of_year {y : Int} (h₀ : 0 ≤ y) (h₁ : y ≤ 9999) : yearDigits y = padStart 10 4 y.toNat := by
  unfold yearDigits
  rw [if_neg (by omega)]
  dsimp only
  generalize hn : y.toNat = n
  have hn₁ : n ≤ 9999 := by omega
  have hdigits : padStart 10 4 n = [digitChar (n / 10 ^ 3 % 10), digitChar (n / 10 ^ 2 % 10),
      digitChar (n / 10 ^ 1 % 10), digitChar (n / 10 ^ 0 % 10)] := rfl
  have hzero : digitChar 0 = '0' := by decide
  by_cases h₄ : 1000 ≤ n
  · rw [decimal_eq h₄ hn₁, length_padStart]
    rfl
  rw [hdigits]
  by_cases h₃ : 100 ≤ n
  · rw [decimal, if_neg (by omega), decimal, if_neg (by omega), decimal, if_pos (by omega)]
    rw [show n / 10 ^ 3 % 10 = 0 by omega, show n / 10 ^ 2 % 10 = n / 10 / 10 by omega]
    simp [hzero]
  by_cases h₂ : 10 ≤ n
  · rw [decimal, if_neg (by omega), decimal, if_pos (by omega)]
    rw [show n / 10 ^ 3 % 10 = 0 by omega, show n / 10 ^ 2 % 10 = 0 by omega, show n / 10 ^ 1 % 10 = n / 10 by omega]
    simp [hzero, List.replicate]
  · rw [decimal, if_pos (by omega)]
    rw [show n / 10 ^ 3 % 10 = 0 by omega, show n / 10 ^ 2 % 10 = 0 by omega, show n / 10 ^ 1 % 10 = 0 by omega,
      show n / 10 ^ 0 % 10 = n by omega]
    simp [hzero, List.replicate]

theorem mem_yearDigits {y : Int} {c : Char} (h : c ∈ yearDigits y) : c = '-' ∧ y < 0 ∨ ∃ d < 10, c = digitChar d := by
  unfold yearDigits at h
  dsimp only at h
  rcases List.mem_append.1 h with h | h
  · exact .inr ⟨0, by decide, List.eq_of_mem_replicate h⟩
  · split at h
    · next hneg =>
      rcases List.mem_cons.1 h with rfl | h
      · exact .inl ⟨rfl, hneg⟩
      · exact .inr (mem_decimal h)
    · exact .inr (mem_decimal h)

theorem le_length_yearDigits (y : Int) : 4 ≤ (yearDigits y).length := by
  unfold yearDigits
  dsimp only
  rw [List.length_append, List.length_replicate]
  omega

theorem digit_month : ∀ m < 12, ∃ a b, padStart 10 2 (m + 1) = [a, b] ∧ b.isDigit = true ∧
    ((a == '0' && b != '0') || (a == '1' && decide (b ≤ '2'))) = true := by
  intro m hm
  refine ⟨_, _, rfl, ?_⟩
  interval_cases m <;> decide

theorem segment_monthDir (now : Int) : Segment (monthDir now) where
  long := by
    have := le_length_yearDigits (yearOf (utcDay now))
    unfold monthDir
    rw [List.length_append]
    omega
  chars c hc := by
    have hdigit : ∀ d < 10, isExtensionChar (digitChar d) = true := fun d hd => (digit_segment d (by omega)).1
    unfold monthDir at hc
    rw [List.mem_append, List.mem_cons] at hc
    rcases hc with hc | rfl | hc
    · rcases mem_yearDigits hc with ⟨rfl, -⟩ | ⟨d, hd, rfl⟩
      · exact .inl rfl
      · exact .inr (.inr (hdigit d hd))
    · exact .inl rfl
    · obtain ⟨d, hd, rfl⟩ := mem_padStart (by decide) hc
      exact .inr (.inr (hdigit d hd))

theorem isYearMonth_monthDir (now : Int) : MediaController.isYearMonth (monthDir now) = true ↔
    0 ≤ yearOf (utcDay now) ∧ yearOf (utcDay now) ≤ 9999 := by
  obtain ⟨hm₀, hm₁⟩ := utcMonth_bounds (utcDay now)
  have hmonth : (utcMonth (utcDay now) + 1).toNat = (utcMonth (utcDay now)).toNat + 1 := by omega
  obtain ⟨a, b, hab, hb, hvalid⟩ := digit_month (utcMonth (utcDay now)).toNat (by omega)
  unfold monthDir
  rw [hmonth, hab]
  generalize yearOf (utcDay now) = y
  constructor
  · intro h
    -- the four characters before the dash are digits
    have hfour : ∃ c₁ c₂ c₃ c₄, yearDigits y = [c₁, c₂, c₃, c₄] ∧ c₁.isDigit = true ∧ c₂.isDigit = true ∧
        c₃.isDigit = true ∧ c₄.isDigit = true := by
      generalize yearDigits y = text at h
      unfold MediaController.isYearMonth at h
      split at h
      · next c₁ c₂ c₃ c₄ dash m n heq =>
        have hlength := congrArg List.length heq
        have hfour : text.length = 4 := by simpa using hlength
        obtain ⟨d₁, d₂, d₃, d₄, rfl⟩ := List.length_eq_four.1 hfour
        obtain ⟨rfl, rfl, rfl, rfl, -⟩ : d₁ = c₁ ∧ d₂ = c₂ ∧ d₃ = c₃ ∧ d₄ = c₄ ∧ _ := by simpa using heq
        simp only [List.all_cons, Bool.and_eq_true] at h
        exact ⟨_, _, _, _, rfl, h.1.1.1, h.1.1.2.1, h.1.1.2.2.1, h.1.1.2.2.2.1⟩
      · cases h
    obtain ⟨c₁, c₂, c₃, c₄, htext, h₁, h₂, h₃, h₄⟩ := hfour
    have hlength : (yearDigits y).length = 4 := by rw [htext]; rfl
    unfold yearDigits at htext hlength
    by_cases hneg : y < 0
    · rw [if_pos hneg] at htext
      have hmem : '-' ∈ [c₁, c₂, c₃, c₄] := by
        rw [← htext]
        exact List.mem_append_right _ List.mem_cons_self
      simp only [List.mem_cons, List.not_mem_nil, or_false] at hmem
      rcases hmem with rfl | rfl | rfl | rfl
      · cases h₁
      · cases h₂
      · cases h₃
      · cases h₄
    · rw [if_neg hneg] at hlength
      dsimp only at hlength
      rw [List.length_append, List.length_replicate] at hlength
      have hlt := lt_pow_length_decimal y.toNat
      have hpow : 10 ^ (decimal y.toNat).length ≤ 10 ^ 4 := Nat.pow_le_pow_right (by decide) (by omega)
      omega
  · rintro ⟨h₀, h₁⟩
    have hdigit : ∀ d < 10, (digitChar d).isDigit = true := fun d hd => (digit_plain d hd).2.1
    rw [yearDigits_of_year h₀ h₁]
    show MediaController.isYearMonth (digitChar _ :: digitChar _ :: digitChar _ :: digitChar _ :: '-' :: [a, b]) = true
    unfold MediaController.isYearMonth
    simp only [List.all_cons, List.all_nil, hdigit _ (Nat.mod_lt _ (by decide)), hb, Bool.and_true, Bool.true_and,
      beq_self_eq_true]
    exact hvalid

/-! ## Where a URL leads -/

theorem splitOn_url {segments : List (List Char)} (hne : segments ≠ []) (h : ∀ s ∈ segments, Segment s) :
    ((LocalFileStorageAdapter.urlPrefix ++ '/' :: ['/'].intercalate segments).takeWhile (· != '?')).splitOn '/' =
      [] :: "api".toList :: "v1".toList :: "media".toList :: segments := by
  have hurl : LocalFileStorageAdapter.urlPrefix ++ '/' :: ['/'].intercalate segments =
      ['/'].intercalate ([] :: "api".toList :: "v1".toList :: "media".toList :: segments) := by
    have hpre : LocalFileStorageAdapter.urlPrefix =
        '/' :: ("api".toList ++ '/' :: ("v1".toList ++ '/' :: "media".toList)) := by
      decide
    obtain ⟨s, segments, rfl⟩ := List.exists_cons_of_ne_nil hne
    rw [hpre]
    simp only [List.intercalate_cons_cons, List.append_assoc, List.nil_append, List.cons_append]
  have hcode : ∀ s ∈ [] :: "api".toList :: "v1".toList :: "media".toList :: segments,
      ∀ c ∈ s, c ≠ '/' ∧ c ≠ '?' := by
    intro s hs c hc
    simp only [List.mem_cons] at hs
    rcases hs with rfl | rfl | rfl | rfl | hs
    · cases hc
    · revert c
      simp
    · revert c
      simp
    · revert c
      simp
    · exact ⟨((h s hs).code hc).2.1, ((h s hs).code hc).2.2.1⟩
  rw [hurl, List.takeWhile_eq_self_iff.2, List.splitOn_intercalate '/' _ (by simp)]
  · intro s hs hc
    exact (hcode s hs '/' hc).1 rfl
  · intro c hc
    rcases mem_intercalate hc with rfl | ⟨s, hs, hc⟩
    · decide
    · simpa using (hcode s hs c hc).2

theorem route_of_three {kgId yyyyMm filename : List Char} (h₁ : Segment kgId) (h₂ : Segment yyyyMm)
    (h₃ : Segment filename) :
    MediaController.route (LocalFileStorageAdapter.urlPrefix ++ '/' :: ['/'].intercalate [kgId, yyyyMm, filename]) =
      .ok (kgId, yyyyMm, filename) := by
  have hpre : ["api".toList, "v1".toList, "media".toList].map (·.map Char.toLower) =
      ["api".toList, "v1".toList, "media".toList] := by
    decide
  unfold MediaController.route
  rw [splitOn_url (by simp) (by simp [h₁, h₂, h₃])]
  dsimp only
  rw [if_pos ⟨hpre, h₁.plain.nonempty, h₂.plain.nonempty, h₃.plain.nonempty, .inl rfl⟩, h₁.decoded, h₂.decoded,
    h₃.decoded]

theorem route_of_four {kgId dir yyyyMm filename : List Char} (h₁ : Segment kgId) (h₂ : Segment dir)
    (h₃ : Segment yyyyMm) (h₄ : Segment filename) : MediaController.route (LocalFileStorageAdapter.urlPrefix ++ '/' ::
      ['/'].intercalate [kgId, dir, yyyyMm, filename]) = .error .noSuchRoute := by
  unfold MediaController.route
  rw [splitOn_url (by simp) (by simp [h₁, h₂, h₃, h₄])]
  dsimp only
  rw [if_neg]
  rintro ⟨-, -, -, -, hmore | hmore⟩
  · cases hmore
  · exact h₄.plain.nonempty (List.cons.inj hmore).1

section

variable {uploadsDir : Path} {fault : Option String} {files : Files} {tenant : TenantContext} {kgId : Nat}
  {yyyyMm filename : List Char} {response : MediaResponse}

theorem get_of_three (h₂ : Segment yyyyMm) (h₃ : Segment filename) : MediaController.get uploadsDir fault files tenant
      (LocalFileStorageAdapter.urlPrefix ++ '/' :: ['/'].intercalate [uuidText kgId, yyyyMm, filename]) =
      if !MediaController.isYearMonth yyyyMm || !MediaController.isFilename filename then .error (.media .mediaNotFound)
      else if !tenant.bypass && tenant.kgId != some (String.ofList (uuidText kgId)) then
        .error (.media .mediaCrossTenantDenied)
      else MediaController.respond uploadsDir fault files filename (['/'].intercalate [uuidText kgId, yyyyMm, filename]) := by
  have hkey : (String.ofList (uuidText kgId) ++ "/" ++ String.ofList yyyyMm ++ "/" ++ String.ofList filename).toList =
      ['/'].intercalate [uuidText kgId, yyyyMm, filename] := by
    simp only [String.toList_append, String.toList_ofList, List.intercalate_cons_cons, List.intercalate_singleton,
      List.append_assoc]
    rfl
  unfold MediaController.get
  rw [route_of_three (segment_uuidText kgId) h₂ h₃]
  show ((MediaController.stream tenant _ _ _).mapError GetError.media >>= _) = _
  unfold MediaController.stream
  simp only [String.toList_ofList, isUuid_uuidText, Bool.not_true, Bool.false_or]
  split
  · rfl
  · split
    · rfl
    · rw [← hkey]
      simp only [String.append_assoc]
      rfl

theorem get_of_four {dir : List Char} (h₁ : Segment dir) (h₂ : Segment yyyyMm) (h₃ : Segment filename) :
    MediaController.get uploadsDir fault files tenant (LocalFileStorageAdapter.urlPrefix ++ '/' ::
      ['/'].intercalate [uuidText kgId, dir, yyyyMm, filename]) = .error .noSuchRoute := by
  unfold MediaController.get
  rw [route_of_four (segment_uuidText kgId) h₁ h₂ h₃]
  rfl

end

/-! ## What an accepted file leaves -/

section

variable {toLowerCase : List Char → List Char} {host : Host} {kgId : Nat} {file : UploadInput} {up : Uploaded}

theorem ok_of_store {key : List Char} {buffer : Bytes} {maxBytes : Nat} {url : List Char} {files : Files}
    (h : host.store key buffer maxBytes = .ok (url, files)) :
    LocalFileStorageAdapter.assertSafeKey key = .ok () ∧ url = LocalFileStorageAdapter.urlPrefix ++ '/' :: key ∧
      files = host.files.write (joinPath host.uploadsDir key) buffer := by
  unfold Host.store LocalFileStorageAdapter.upload at h
  cases hsafe : LocalFileStorageAdapter.assertSafeKey key with
  | error e =>
    rw [hsafe] at h
    cases h
  | ok u =>
    rw [hsafe] at h
    change (if 0 < maxBytes ∧ maxBytes < buffer.length then _ else _ : Except FileError _).mapError _ = _ at h
    split at h
    · cases h
    · cases hfault : host.fault with
      | some errno =>
        rw [hfault] at h
        dsimp only at h
        split at h <;> cases h
      | none =>
        rw [hfault] at h
        obtain ⟨rfl, rfl⟩ := Prod.mk.inj (Except.ok.inj h)
        exact ⟨rfl, rfl, rfl⟩

/-- The file stands at its place, with what was sent. -/
structure Stored (uploadsDir : Path) (key : List Char) (buffer : Bytes) (up : Uploaded) : Prop where
  safe : LocalFileStorageAdapter.assertSafeKey key = .ok ()
  url : up.url = LocalFileStorageAdapter.urlPrefix ++ '/' :: key
  bytes : up.files (joinPath uploadsDir key) = some buffer

theorem stored_of_store {key : List Char} {buffer : Bytes} {maxBytes : Nat} {url : List Char} {files : Files}
    (h : host.store key buffer maxBytes = .ok (url, files)) : Stored host.uploadsDir key buffer ⟨url, files⟩ := by
  obtain ⟨hsafe, rfl, rfl⟩ := ok_of_store h
  exact ⟨hsafe, rfl, if_pos rfl⟩

theorem bind_store {key : List Char} {buffer : Bytes} {maxBytes : Nat}
    {f : List Char × Files → Except UploadError Uploaded} (h : (host.store key buffer maxBytes >>= f) = .ok up) :
    ∃ url files, Stored host.uploadsDir key buffer ⟨url, files⟩ ∧ f (url, files) = .ok up := by
  cases hstore : host.store key buffer maxBytes with
  | error e =>
    rw [hstore] at h
    cases h
  | ok p =>
    rw [hstore] at h
    exact ⟨p.1, p.2, stored_of_store hstore, h⟩

theorem stored_uploadMedia (h : ContentService.uploadMedia toLowerCase host kgId file = .ok up) :
    Stored host.uploadsDir (mediaKey toLowerCase host kgId file) file.buffer up := by
  unfold ContentService.uploadMedia at h
  dsimp only at h
  split at h
  · cases h
  split at h
  · cases h
  split at h
  · cases h
  obtain ⟨url, files, hstored, hup⟩ := bind_store h
  obtain rfl := Except.ok.inj hup
  exact hstored

theorem stored_createStory {group : Bool} {actor : Option StoryAuthor}
    (h : StoryService.create toLowerCase host kgId group actor file = .ok up) :
    Stored host.uploadsDir (storyKey toLowerCase host kgId file) file.buffer up := by
  unfold StoryService.create at h
  dsimp only at h
  split at h
  · cases h
  split at h
  · cases h
  split at h
  · cases h
  split at h
  · cases h
  split at h
  · cases h
  obtain ⟨url, files, hstored, hup⟩ := bind_store h
  dsimp only at hup
  split at hup
  · cases hup
  · obtain rfl := Except.ok.inj hup
    exact hstored

theorem replaceLogo_keeps {uploadsDir deeper : Path} {files : Files} {previous : Option (List Char)} {id url name : List Char}
    (hfresh : ∀ link, previous = some link → ¬id <:+: link) (hname : id <:+: name) (hne : name ≠ []) :
    replaceLogo uploadsDir files previous url (uploadsDir ++ deeper ++ [name]) =
      files (uploadsDir ++ deeper ++ [name]) := by
  unfold replaceLogo
  cases hprevious : previous with
  | none => rfl
  | some link =>
    dsimp only
    split
    · unfold bestEffortDeleteMedia
      cases hkey : storedKey link with
      | none => rfl
      | some key =>
        dsimp only
        unfold LocalFileStorageAdapter.delete
        cases LocalFileStorageAdapter.assertSafeKey key with
        | error e => rfl
        | ok u =>
          show files.unlink (joinPath uploadsDir key) _ = _
          unfold Files.unlink
          rw [if_neg]
          intro hpath
          have hkeylink : key <:+: link := by
            unfold storedKey at hkey
            dsimp only at hkey
            split at hkey
            · obtain rfl := Option.some.inj hkey
              exact (List.takeWhile_prefix _).isInfix.trans (List.drop_suffix _ _).isInfix
            · cases hkey
          exact hfresh link hprevious
            ((hname.trans (infix_of_mem_splitOn (mem_of_joinPath hne hpath.symm))).trans hkeylink)
    · rfl

theorem joinPath_mediaKey (uploadsDir : Path) : joinPath uploadsDir (mediaKey toLowerCase host kgId file) =
    uploadsDir ++ [uuidText kgId, monthDir host.now] ++ [host.fileName toLowerCase file] := by
  unfold mediaKey
  rw [joinPath_intercalate (by simp) (by
    simp [(segment_uuidText kgId).plain, (segment_monthDir host.now).plain,
      (segment_fileName toLowerCase host file).plain]), List.append_assoc]
  rfl

theorem segment_stories : Segment "stories".toList where
  long := by decide
  chars := by
    intro c hc
    exact .inr (.inr (List.all_eq_true.1 (rfl : "stories".toList.all isExtensionChar = true) c hc))

theorem joinPath_storyKey (uploadsDir : Path) : joinPath uploadsDir (storyKey toLowerCase host kgId file) =
    uploadsDir ++ [uuidText kgId, "stories".toList, monthDir host.now, host.fileName toLowerCase file] := by
  refine joinPath_intercalate (List.cons_ne_nil _ _) (List.forall_mem_cons.2 ⟨(segment_uuidText kgId).plain,
    List.forall_mem_cons.2 ⟨segment_stories.plain, ?_⟩⟩) _
  simp [(segment_monthDir host.now).plain, (segment_fileName toLowerCase host file).plain]

theorem stored_setLogo {existing : Option Kindergarten} (hfresh : (Producer.setLogo existing).Fresh host)
    (h : KindergartenService.setLogo toLowerCase host kgId existing file = .ok up) :
    Stored host.uploadsDir (mediaKey toLowerCase host kgId file) file.buffer up := by
  unfold KindergartenService.setLogo at h
  cases existing with
  | none => cases h
  | some existing =>
    dsimp only at h
    split at h
    · cases h
    split at h
    · cases h
    split at h
    · cases h
    split at h
    · cases h
    obtain ⟨url, files, hstored, hup⟩ := bind_store h
    obtain rfl := Except.ok.inj hup
    refine ⟨hstored.safe, hstored.url, ?_⟩
    have hname : uuidText host.randomUUID <:+: host.fileName toLowerCase file := ⟨[], safeExt toLowerCase _, rfl⟩
    rw [joinPath_mediaKey]
    dsimp only
    rw [replaceLogo_keeps hfresh hname (segment_fileName toLowerCase host file).plain.nonempty, ← joinPath_mediaKey]
    exact hstored.bytes

end

/-! ## The round trip -/

section

variable {uploadsDir : Path} {kgId : Nat} {key : List Char} {buffer : Bytes} {up : Uploaded}

theorem respond_of_stored (h : Stored uploadsDir key buffer up) (filename : List Char) :
    MediaController.respond uploadsDir none up.files filename key =
      .ok ⟨MediaController.contentTypeOf filename, buffer.length, buffer⟩ := by
  have hdownload : LocalFileStorageAdapter.download uploadsDir none up.files key = .ok buffer := by
    unfold LocalFileStorageAdapter.download
    rw [h.safe]
    simp only [bind, Except.bind, h.bytes]
  unfold MediaController.respond
  rw [hdownload]

variable {toLowerCase : List Char → List Char} {host : Host} {file : UploadInput}

theorem get_story (hurl : up.url = LocalFileStorageAdapter.urlPrefix ++ '/' :: storyKey toLowerCase host kgId file)
    (fault : Option String) (tenant : TenantContext) :
    MediaController.get host.uploadsDir fault up.files tenant up.url = .error .noSuchRoute := by
  rw [hurl]
  exact get_of_four segment_stories (segment_monthDir host.now) (segment_fileName toLowerCase host file)

theorem refused_mediaKey (hurl : up.url = LocalFileStorageAdapter.urlPrefix ++ '/' :: mediaKey toLowerCase host kgId file)
    {tenant : TenantContext} (hbypass : tenant.bypass = false) (hother : ¬Member tenant kgId) (fault : Option String)
    (response : MediaResponse) : MediaController.get host.uploadsDir fault up.files tenant up.url ≠ .ok response := by
  intro hok
  have hother : tenant.kgId ≠ some (String.ofList (uuidText kgId)) := hother
  rw [hurl] at hok
  unfold mediaKey at hok
  rw [get_of_three (segment_monthDir host.now) (segment_fileName toLowerCase host file)] at hok
  split at hok
  · cases hok
  · rw [if_pos (by rw [hbypass]; simpa using hother)] at hok
    cases hok

theorem refused_of_accept {producer : Producer} (h : producer.accept toLowerCase host kgId file = .ok up)
    (hfresh : producer.Fresh host) {tenant : TenantContext} (hbypass : tenant.bypass = false)
    (hother : ¬Member tenant kgId) (fault : Option String) (response : MediaResponse) :
    MediaController.get host.uploadsDir fault up.files tenant up.url ≠ .ok response := by
  cases producer with
  | uploadMedia => exact refused_mediaKey (stored_uploadMedia h).url hbypass hother fault response
  | createStory group actor =>
    rw [get_story (stored_createStory h).url]
    intro hok
    cases hok
  | setLogo existing => exact refused_mediaKey (stored_setLogo hfresh h).url hbypass hother fault response

theorem rooted_of_accept {producer : Producer} (h : producer.accept toLowerCase host kgId file = .ok up)
    (hfresh : producer.Fresh host) : ∃ key, up.url = LocalFileStorageAdapter.urlPrefix ++ '/' :: key ∧
      host.uploadsDir <+: joinPath host.uploadsDir key ∧ joinPath host.uploadsDir key ≠ host.uploadsDir := by
  have hmedia : host.uploadsDir <+: joinPath host.uploadsDir (mediaKey toLowerCase host kgId file) ∧
      joinPath host.uploadsDir (mediaKey toLowerCase host kgId file) ≠ host.uploadsDir := by
    rw [joinPath_mediaKey, List.append_assoc]
    exact ⟨List.prefix_append _ _, by simp⟩
  cases producer with
  | uploadMedia => exact ⟨_, (stored_uploadMedia h).url, hmedia⟩
  | createStory group actor =>
    refine ⟨_, (stored_createStory h).url, ?_⟩
    rw [joinPath_storyKey]
    exact ⟨List.prefix_append _ _, by simp⟩
  | setLogo existing => exact ⟨_, (stored_setLogo hfresh h).url, hmedia⟩

theorem served_mediaKey_iff (h : Stored host.uploadsDir (mediaKey toLowerCase host kgId file) file.buffer up) :
    (∀ tenant, Member tenant kgId → ∃ response, MediaController.get host.uploadsDir none up.files tenant up.url =
      .ok response ∧ response.body = file.buffer) ↔
      (3 ≤ (safeExt toLowerCase file.originalname).length ∧ (safeExt toLowerCase file.originalname).length ≤ 6) ∧
        0 ≤ yearOf (utcDay host.now) ∧ yearOf (utcDay host.now) ≤ 9999 := by
  have hfile := isFilename_uuidText host.randomUUID (safeExt_cases toLowerCase file.originalname)
  have hget : ∀ tenant, Member tenant kgId → MediaController.get host.uploadsDir none up.files tenant up.url =
      if !MediaController.isYearMonth (monthDir host.now) ||
          !MediaController.isFilename (host.fileName toLowerCase file) then .error (.media .mediaNotFound)
      else MediaController.respond host.uploadsDir none up.files (host.fileName toLowerCase file)
        (mediaKey toLowerCase host kgId file) := by
    intro tenant hmember
    have hmember : tenant.kgId = some (String.ofList (uuidText kgId)) := hmember
    have hgate : ¬(!tenant.bypass && tenant.kgId != some (String.ofList (uuidText kgId))) = true := by
      rw [hmember]
      simp
    rw [h.url]
    unfold mediaKey
    rw [get_of_three (segment_monthDir host.now) (segment_fileName toLowerCase host file), if_neg hgate]
  constructor
  · intro hserved
    have hmember : Member ⟨some (String.ofList (uuidText kgId)), false⟩ kgId := rfl
    obtain ⟨response, hok, -⟩ := hserved _ hmember
    rw [hget _ hmember] at hok
    split at hok
    · cases hok
    · next hshape =>
      simp only [Bool.or_eq_true, Bool.not_eq_true', not_or, Bool.not_eq_false] at hshape
      exact ⟨hfile.1 hshape.2, (isYearMonth_monthDir _).1 hshape.1⟩
  · rintro ⟨hext, hyear⟩ tenant hmember
    have hname : MediaController.isFilename (host.fileName toLowerCase file) = true := hfile.2 hext
    rw [hget _ hmember, (isYearMonth_monthDir _).2 hyear, hname, if_neg (by decide)]
    exact ⟨_, respond_of_stored h _, rfl⟩

theorem not_served_story {group : Bool} {actor : Option StoryAuthor}
    (h : (Producer.createStory group actor).accept toLowerCase host kgId file = .ok up) :
    ¬RoundTrips host.uploadsDir kgId file.buffer up := by
  intro hround
  obtain ⟨response, hok, -⟩ := hround.served ⟨some (String.ofList (uuidText kgId)), false⟩ rfl
  rw [get_story (stored_createStory h).url] at hok
  cases hok

/-- **What is uploaded and what is served.** -/
theorem roundTrips_iff (producer : Producer) (h : producer.accept toLowerCase host kgId file = .ok up)
    (hfresh : producer.Fresh host) : RoundTrips host.uploadsDir kgId file.buffer up ↔
      producer.Servable toLowerCase host file := by
  have hround : RoundTrips host.uploadsDir kgId file.buffer up ↔ ∀ tenant, Member tenant kgId →
      ∃ response, MediaController.get host.uploadsDir none up.files tenant up.url = .ok response ∧
        response.body = file.buffer :=
    ⟨fun hround => hround.served, fun hserved => ⟨hserved, fun _ hbypass hother =>
      refused_of_accept h hfresh hbypass hother, rooted_of_accept h hfresh⟩⟩
  have hservable : ¬producer.isStory → (producer.Servable toLowerCase host file ↔
      (3 ≤ (safeExt toLowerCase file.originalname).length ∧ (safeExt toLowerCase file.originalname).length ≤ 6) ∧
        0 ≤ yearOf (utcDay host.now) ∧ yearOf (utcDay host.now) ≤ 9999) := fun hstory =>
    ⟨fun hs => ⟨hs.extension, hs.year⟩, fun ⟨hext, hyear⟩ => ⟨hstory, hext, hyear⟩⟩
  cases producer with
  | uploadMedia =>
    rw [hround, hservable fun hstory => hstory]
    exact served_mediaKey_iff (stored_uploadMedia h)
  | createStory group actor => exact iff_of_false (not_served_story h) fun hs => hs.noStory trivial
  | setLogo existing =>
    rw [hround, hservable fun hstory => hstory]
    exact served_mediaKey_iff (stored_setLogo hfresh h)

end

/-! ## A logo and a story -/

/-- The host on the first of June 2026. -/
def june : Host := ⟨1780272000000, 3, ["srv".toList, "uploads".toList], fun _ => none, none⟩

def photograph : UploadInput := ⟨[255, 216], "image/jpeg".toList, "IMG.JPG".toList⟩

/-- The lower case of a Latin name. -/
def lowerLatin (text : List Char) : List Char := text.map Char.toLower

def oldLogo : List Char :=
  "/api/v1/media/00000000-0000-0000-0000-000000000001/2026-05/00000000-0000-0000-0000-000000000002.png".toList

/-- A kindergarten with a logo. -/
def withLogo : Kindergarten := ⟨false, some oldLogo⟩

theorem roundTrips_iff_logo : ∃ up, (Producer.setLogo (some withLogo)).accept lowerLatin june 1 photograph = .ok up ∧
    (RoundTrips june.uploadsDir 1 photograph.buffer up ↔
      (Producer.setLogo (some withLogo)).Servable lowerLatin june photograph) := by
  have haccepts : ((Producer.setLogo (some withLogo)).accept lowerLatin june 1 photograph).isOk = true := by
    decide +kernel
  have hfresh : (Producer.setLogo (some withLogo)).Fresh june := by
    have hold : ¬uuidText june.randomUUID <:+: oldLogo := by decide +kernel
    intro previous hprevious
    have hsame : oldLogo = previous := by
      unfold withLogo at hprevious
      exact Option.some.inj hprevious
    rw [← hsame]
    exact hold
  cases h : (Producer.setLogo (some withLogo)).accept lowerLatin june 1 photograph with
  | error e =>
    rw [h] at haccepts
    cases haccepts
  | ok up => exact ⟨up, rfl, roundTrips_iff _ h hfresh⟩

/-- The same photograph as a story. -/
theorem story_not_roundTrips : ∃ up,
    (Producer.createStory true none).accept lowerLatin june 1 photograph = .ok up ∧
      ¬RoundTrips june.uploadsDir 1 photograph.buffer up := by
  have haccepts : ((Producer.createStory true none).accept lowerLatin june 1 photograph).isOk = true := by
    decide +kernel
  cases h : (Producer.createStory true none).accept lowerLatin june 1 photograph with
  | error e =>
    rw [h] at haccepts
    cases haccepts
  | ok up => exact ⟨up, rfl, not_served_story h⟩

end Media
