import Shyraq.Media.RoundTrip

/-!
# The disk outside the uploads root

`assertSafeKey` looks for two dots in the decoded key, but the path is joined from the key as it stands.  Dots are never
part of an escape or of a longer character, so none are lost on the way.
-/

namespace Media

open Kernel

/-- The files elsewhere are what they were. -/
def SameOutside (dir : Path) (files files' : Files) : Prop := ∀ p, ¬dir <+: p → files' p = files p

section

variable {toLowerCase : List Char → List Char} {uploadsDir : Path} {files : Files} {key : List Char}

theorem prefix_of_assertSafeKey (h : LocalFileStorageAdapter.assertSafeKey key = .ok ()) (dir : Path) :
    dir <+: joinPath dir key := by
  refine prefix_joinPath (fun hdots => ?_) dir
  unfold LocalFileStorageAdapter.assertSafeKey at h
  split at h
  · cases h
  · cases hdecoded : decodeURIComponent key with
    | none =>
      rw [hdecoded] at h
      cases h
    | some decoded =>
      have hdots : "..".toList <:+: decoded := dots_of_decodeURIComponent hdecoded hdots
      rw [hdecoded] at h
      simp only [hdots, decide_true, Bool.or_true, Bool.true_or, if_true] at h
      cases h

theorem sameOutside_write (h : LocalFileStorageAdapter.assertSafeKey key = .ok ()) (buffer : Bytes) :
    SameOutside uploadsDir files (files.write (joinPath uploadsDir key) buffer) :=
  fun p hp => if_neg fun (he : p = _) => hp (he ▸ prefix_of_assertSafeKey h uploadsDir)

/-- Whatever link is stored. -/
theorem sameOutside_replaceLogo (previous : Option (List Char)) (url : List Char) :
    SameOutside uploadsDir files (replaceLogo uploadsDir files previous url) := by
  intro p hp
  cases previous with
  | none => rfl
  | some previous =>
    unfold replaceLogo bestEffortDeleteMedia LocalFileStorageAdapter.delete
    dsimp only
    split
    · cases storedKey previous with
      | none => rfl
      | some key =>
        dsimp only
        cases hsafe : LocalFileStorageAdapter.assertSafeKey key with
        | error e => rfl
        | ok u => exact if_neg fun (he : p = _) => hp (he ▸ prefix_of_assertSafeKey hsafe uploadsDir)
    · rfl

end

/-- **Accepted files stay below the uploads root**, and so does what is deleted for them, whatever link is stored. -/
theorem sameOutside_accept {toLowerCase : List Char → List Char} {host : Host} {kgId : Nat} {file : UploadInput}
    {producer : Producer} {up : Uploaded} (h : producer.accept toLowerCase host kgId file = .ok up) :
    SameOutside host.uploadsDir host.files up.files := by
  have hstore : ∀ {key buffer maxBytes} {f : List Char × Files → Except UploadError Uploaded},
      (host.store key buffer maxBytes >>= f) = .ok up →
      ∃ url files, SameOutside host.uploadsDir host.files files ∧ f (url, files) = .ok up := by
    intro key buffer maxBytes f h
    cases hp : host.store key buffer maxBytes with
    | error e =>
      rw [hp] at h
      cases h
    | ok p =>
      rw [hp] at h
      obtain ⟨hsafe, -, hfiles⟩ := ok_of_store hp
      exact ⟨p.1, p.2, hfiles ▸ sameOutside_write hsafe buffer, h⟩
  cases producer with
  | uploadMedia =>
    unfold Producer.accept ContentService.uploadMedia at h
    dsimp only at h
    split_ifs at h
    obtain ⟨url, files, hsame, hup⟩ := hstore h
    exact Except.ok.inj hup ▸ hsame
  | createStory group actor =>
    unfold Producer.accept StoryService.create at h
    dsimp only at h
    split_ifs at h
    obtain ⟨url, files, hsame, hup⟩ := hstore h
    dsimp only at hup
    split_ifs at hup
    exact Except.ok.inj hup ▸ hsame
  | setLogo existing =>
    cases existing with
    | none => cases h
    | some existing =>
      unfold Producer.accept KindergartenService.setLogo at h
      dsimp only at h
      split_ifs at h
      obtain ⟨url, files, hsame, hup⟩ := hstore h
      obtain rfl := Except.ok.inj hup
      exact fun p hp => (sameOutside_replaceLogo existing.logoUrl url p hp).trans (hsame p hp)

/-- The old link climbs. -/
def climbing : Producer := .setLogo (some ⟨false, some "/api/v1/media/%2e%2e/keys".toList⟩)

theorem sameOutside_accept_climbing : ∃ up, climbing.accept lowerLatin june 1 photograph = .ok up ∧
    SameOutside june.uploadsDir june.files up.files := by
  have haccepts : (climbing.accept lowerLatin june 1 photograph).isOk = true := by decide +kernel
  cases h : climbing.accept lowerLatin june 1 photograph with
  | error e =>
    rw [h] at haccepts
    cases haccepts
  | ok up => exact ⟨up, rfl, sameOutside_accept h⟩

end Media
