import Shyraq.Cameras.Services

/-!
# What a probe of the codec writes

A probe saves the whole row that it loaded before it asked the gateway.  The codec that it stores is the answer for the
key that it stores with it, but an edit made in between is undone.
-/

namespace Cameras

open Transactions

/-! ## What is claimed -/

/-- The row without the two columns that a probe is there to fill. -/
def Camera.declared (camera : Camera) : Camera := { camera with videoCodec := none, codecCheckedAt := none }

/-- Every other column of every camera is as it was. -/
def TouchesOnlyCodec (s s' : Store) : Prop :=
  ∀ camera ∈ s.cameras, (s'.camera camera.id).map Camera.declared = some camera.declared

instance (s s' : Store) : Decidable (TouchesOnlyCodec s s') := inferInstanceAs (Decidable (∀ _ ∈ _, _))

/-- The rows that a request asks the gateway about, once it has loaded them. -/
def Op.worklist : Op → Store → List Camera
  | refreshCodec _ _ id, v => (v.camera id).toList
  | refreshCodecs _ _, v => CameraRepository.streamable v
  | _, _ => []

/-- What the gateway answers to a request. -/
def Op.probe : Op → String → StreamProbeResult
  | refreshCodec _ probe _ | refreshCodecs _ probe => probe
  | _ => fun _ => ⟨false, .unknown⟩

def Op.now : Op → Int
  | refreshCodec now _ _ | refreshCodecs now _ => now
  | _ => 0

def Op.probes : Op → Bool
  | refreshCodec .. | refreshCodecs .. => true
  | _ => false

/-- The rows that the gateway has an answer for, as they are to be saved. -/
def Op.saves (op : Op) (v : Store) : List Camera := (op.worklist v).filterMap (CameraService.probed op.now op.probe)

/-- The request has asked for this key and got this answer. -/
def Asked (c : Commit) (key : String) (codec : VideoCodec) : Prop :=
  ∃ v, c.tx.seen.head? = some v ∧ c.op.probe key = ⟨true, codec⟩ ∧
    ∃ camera ∈ c.op.worklist v, camera.streamKey = some key

/-- The codec of a row, if it is known, is an answer for its own key. -/
def Camera.Answered (answers : String → VideoCodec → Prop) (camera : Camera) : Prop :=
  ∀ codec, camera.videoCodec = some codec → ∃ key, camera.streamKey = some key ∧ answers key codec

def Store.Answered (answers : String → VideoCodec → Prop) (s : Store) : Prop :=
  ∀ camera ∈ s.cameras, camera.Answered answers

/-- Each row that the gateway had an answer for is still as it was loaded. -/
def StillStands (s : Store) (c : Commit) : Prop :=
  ∀ v, c.tx.seen.head? = some v → ∀ camera ∈ c.op.worklist v,
    (CameraService.probed c.op.now c.op.probe camera).isSome →
      (s.camera camera.id).map Camera.declared = some camera.declared

/-! ## Rows -/

section

variable {answers : String → VideoCodec → Prop} {camera recorded : Camera}

theorem probed_spec {now : Int} {probe : String → StreamProbeResult}
    (h : CameraService.probed now probe camera = some recorded) :
    ∃ key, camera.streamKey = some key ∧ (probe key).available = true ∧
      recorded = camera.recordCodecProbe (probe key).videoCodec now := by
  unfold CameraService.probed Camera.probeKey at h
  rw [Option.bind_eq_some_iff] at h
  obtain ⟨key, hkey, h⟩ := h
  rw [Option.filter_eq_some_iff] at hkey
  by_cases havailable : (probe key).available = true
  · rw [if_pos havailable] at h
    exact ⟨key, hkey.1, havailable, (Option.some.inj h).symm⟩
  · rw [if_neg havailable] at h
    cases h

theorem Camera.Answered.patched (h : camera.Answered answers) (patch : UpdateCameraInput) :
    (camera.patched patch).Answered answers := by
  intro codec hcodec
  unfold Camera.patched at hcodec ⊢
  cases hkey : patch.streamKey with
  | none =>
    rw [hkey] at hcodec
    exact h codec hcodec
  | some key =>
    rw [hkey] at hcodec
    cases hcodec

theorem Camera.Answered.congr (h : camera.Answered answers) (hkey : recorded.streamKey = camera.streamKey)
    (hcodec : recorded.videoCodec = camera.videoCodec) : recorded.Answered answers := by
  intro codec hc
  rw [hkey]
  exact h codec (hcodec ▸ hc)

theorem Camera.Answered.mono {answers' : String → VideoCodec → Prop} (h : camera.Answered answers)
    (himp : ∀ key codec, answers key codec → answers' key codec) : camera.Answered answers' := by
  intro codec hcodec
  obtain ⟨key, hkey, hanswer⟩ := h codec hcodec
  exact ⟨key, hkey, himp key codec hanswer⟩

end

/-! ## Writes -/

/-- The codec that a write stores is an answer for the key that it stores. -/
def Write.Answered (answers : String → VideoCodec → Prop) : Write → Prop
  | .update _ _ => True
  | .save camera => camera.Answered answers

section

variable {answers : String → VideoCodec → Prop} {s : Store} {w : Write}

theorem isSome_camera_apply (s : Store) (w : Write) (i : Nat) :
    ((Relational.apply s w).camera i).isSome = (s.camera i).isSome := by
  cases w with
  | update id patch =>
    have hfind := Table.find_updateWhere s.cameras id (fun _ => true) (fun row => row.patched patch) (fun _ => rfl) i
    exact (congrArg Option.isSome hfind).trans Option.isSome_map
  | save camera =>
    have hfind := Table.find_updateWhere s.cameras camera.id (fun _ => true)
      (fun row => { camera with id := row.id }) (fun _ => rfl) i
    exact (congrArg Option.isSome hfind).trans Option.isSome_map

theorem isSome_camera_view (t : Tx Store Key Write) (s : Store) (i : Nat) :
    ((t.view s).camera i).isSome = (s.camera i).isSome := by
  unfold Tx.view
  induction t.writes generalizing s with
  | nil => rfl
  | cons w ws ih => rw [List.foldl_cons, ih, isSome_camera_apply]

theorem Store.Answered.apply (h : s.Answered answers) (hw : w.Answered answers) :
    (Relational.apply s w).Answered answers := by
  intro row hrow
  cases w with
  | update id patch =>
    obtain ⟨old, hold, rfl⟩ := List.mem_map.1 hrow
    split
    · exact (h old hold).patched patch
    · exact h old hold
  | save camera =>
    obtain ⟨old, hold, rfl⟩ := List.mem_map.1 hrow
    split
    · exact hw.congr rfl rfl
    · exact h old hold

theorem unique_apply (h : Table.Unique s.cameras) : Table.Unique (Relational.apply s w).cameras := by
  cases w with
  | update id patch => exact Table.unique_updateWhere h id _ _ fun _ => rfl
  | save camera => exact Table.unique_updateWhere h camera.id _ _ fun _ => rfl

theorem camera_saves {cameras : List Camera} (hnodup : (cameras.map Camera.id).Nodup) (s : Store)
    (hthere : ∀ camera ∈ cameras, (s.camera camera.id).isSome = true) :
    (∀ camera ∈ cameras, (((cameras.map Write.save).foldl Relational.apply s).camera camera.id) = some camera) ∧
      ∀ i, i ∉ cameras.map Camera.id → ((cameras.map Write.save).foldl Relational.apply s).camera i = s.camera i := by
  induction cameras generalizing s with
  | nil => exact ⟨fun _ h => absurd h List.not_mem_nil, fun _ _ => rfl⟩
  | cons first cameras ih =>
    rw [List.map_cons, List.nodup_cons] at hnodup
    have hfind : ∀ i, (Relational.apply s (Write.save first)).camera i =
        (s.camera i).map fun row => if i = first.id ∧ true = true then { first with id := row.id } else row :=
      Table.find_updateWhere s.cameras first.id (fun _ => true) (fun row => { first with id := row.id }) fun _ => rfl
    have hrest : ∀ camera ∈ cameras, ((Relational.apply s (Write.save first)).camera camera.id).isSome = true := by
      intro camera hcamera
      rw [isSome_camera_apply]
      exact hthere camera (List.mem_cons_of_mem _ hcamera)
    obtain ⟨hsaved, hothers⟩ := ih hnodup.2 (Relational.apply s (Write.save first)) hrest
    refine ⟨fun camera hcamera => ?_, fun i hi => ?_⟩
    · rw [List.map_cons, List.foldl_cons]
      rcases List.mem_cons.1 hcamera with rfl | hcamera
      · obtain ⟨row, hrow⟩ := Option.isSome_iff_exists.1 (hthere camera List.mem_cons_self)
        have hid : row.id = camera.id := Table.id_of_find hrow
        rw [hothers _ hnodup.1, hfind, hrow, Option.map_some, if_pos ⟨rfl, rfl⟩, hid]
      · exact hsaved camera hcamera
    · rw [List.map_cons, List.mem_cons, not_or] at hi
      rw [List.map_cons, List.foldl_cons, hothers i hi.2, hfind]
      simp only [hi.1, false_and, if_false, Option.map_id']

end

/-! ## The requests -/

/-- A camera is never deleted. -/
def camerasStay : Discipline Store Key Write where
  rely _ s s' := ∀ i, (s.camera i).isSome = true → (s'.camera i).isSome = true
  refl _ _ _ h := h
  trans h₁ h₂ i h := h₂ i (h₁ i h)
  mono _ h := h

/-- What is known of every committed store. -/
structure Sound (answers : String → VideoCodec → Prop) (s : Store) : Prop where
  unique : Table.Unique s.cameras
  answered : s.Answered answers

/-- The rows were loaded from `v`, and so far `cameras` have been saved. -/
structure HasSaved (v : Store) (cameras : List Camera) (t : Tx Store Key Write) (s : Store) : Prop where
  loaded : t.seen.head? = some v
  writes : t.writes = cameras.map Write.save
  there : ∀ camera ∈ cameras, (s.camera camera.id).isSome = true

variable {camera : Camera}

section

variable {J : Store → Prop} {v : Store} {saved : List Camera} {t : Tx Store Key Write} {s s' : Store}

theorem HasSaved.rely (h : HasSaved v saved t s) (hr : camerasStay.rely t.held s s') : HasSaved v saved t s' :=
  ⟨h.loaded, h.writes, fun camera hcamera => hr _ (h.there camera hcamera)⟩

theorem HasSaved.saw (h : HasSaved v saved t s) (u : Store) : HasSaved v saved (t.saw u) s := by
  refine ⟨?_, h.writes, h.there⟩
  rw [Tx.seen_saw, List.head?_append, h.loaded]
  rfl

theorem HasSaved.wrote (h : HasSaved v saved t s) (hthere : (s.camera camera.id).isSome = true) :
    HasSaved v (saved ++ [camera]) (t.wrote (.save camera)) s := by
  refine ⟨h.loaded, ?_, fun other hother => ?_⟩
  · rw [Tx.writes_wrote, h.writes, List.map_append]
    rfl
  · rcases List.mem_append.1 hother with hother | hother
    · exact h.there other hother
    · obtain rfl := List.mem_singleton.1 hother
      exact hthere

theorem safe_save {B : Type} {Q : Tx Store Key Write → Store → B → Prop} {f : Camera → Sql B}
    (h : HasSaved v saved t s) (hf : ∀ t' s' row, HasSaved v (saved ++ [camera]) t' s' → J s' →
      Prog.Safe camerasStay J (fun _ => True) Q (f row) t' s') :
    Prog.Safe camerasStay J (fun _ => True) Q (Prog.bind (CameraRepository.save camera) f) t s := by
  unfold CameraRepository.save CameraRepository.findById
  simp only [Prog.bind_eq, Prog.bind_assoc]
  refine Prog.Safe.insertOr (fun _ => trivial) fun s₁ hr _ hit => ?_
  have hthere : (s₁.camera camera.id).isSome = true := by
    rw [← isSome_camera_view t]
    exact (Bool.and_eq_true _ _ ▸ hit).1
  have hwrote := (h.rely hr).wrote hthere
  refine Prog.Safe.query fun s₂ hr₂ hj₂ => Prog.Safe.require (fun _ => trivial) fun row _ => ?_
  exact hf _ _ row ((hwrote.rely hr₂).saw s₂) hj₂

theorem safe_refreshEach {now : Int} {probe : String → StreamProbeResult} {cameras : List Camera}
    (summary : CodecRefreshSummary) (hj : J s) (h : HasSaved v saved t s) : Prog.Safe camerasStay J (fun _ => True)
      (fun t' s' _ => HasSaved v (saved ++ cameras.filterMap (CameraService.probed now probe)) t' s')
      (CameraService.refreshEach now probe summary cameras) t s := by
  induction cameras generalizing saved summary t s with
  | nil =>
    intro s' hr _
    rw [List.filterMap_nil, List.append_nil]
    exact h.rely hr
  | cons camera cameras ih =>
    unfold CameraService.refreshEach
    rw [List.filterMap_cons]
    cases hprobed : CameraService.probed now probe camera with
    | none => exact ih _ hj h
    | some recorded =>
      refine safe_save h fun t' s' row h' hj' => ?_
      rw [List.append_cons]
      exact ih _ hj' h'

end

/-! ### An edit -/

section

variable {answers : String → VideoCodec → Prop}

theorem onlyWrites_save (h : camera.Answered answers) :
    Prog.OnlyWrites (Write.Answered answers) (CameraRepository.save camera) :=
  .insertOr h fun s => by
    show Prog.OnlyWrites _ (Prog.require (s.camera camera.id) _)
    cases s.camera camera.id <;> trivial

theorem onlyWrites_requireLocation (id : Nat) {f : Unit → Sql Camera}
    (h : Prog.OnlyWrites (Write.Answered answers) (f ())) :
    Prog.OnlyWrites (Write.Answered answers) (Prog.bind (CameraService.requireLocation id) f) :=
  fun _ => .guardOr h

theorem onlyWrites_repositoryUpdate (id : Nat) (patch : UpdateCameraInput) :
    Prog.OnlyWrites (Write.Answered answers) (CameraRepository.update id patch) := by
  unfold CameraRepository.update
  split
  · exact fun _ => trivial
  · exact .insertOr trivial fun _ => trivial

/-- An edit writes pairs of key and codec as it has loaded them, or drops the codec. -/
theorem safe_edit {s : Store} {id : Nat} {f : Camera → Sql Camera}
    (hf : ∀ camera, camera.Answered answers → Prog.OnlyWrites (Write.Answered answers) (f camera)) :
    Prog.Safe camerasStay (Sound answers) (fun _ => True) (fun t _ _ => ∀ w ∈ t.writes, w.Answered answers)
      (answered (Prog.bind (CameraService.getById id) f)) .start s := by
  unfold answered
  refine Prog.Safe.map (Q := fun t _ _ => ∀ w ∈ t.writes, w.Answered answers) ?_ fun _ _ _ _ h => h
  unfold CameraService.getById CameraRepository.findById
  simp only [Prog.bind_eq, Prog.bind_assoc]
  refine Prog.Safe.query fun s₁ _ hj₁ => Prog.Safe.require (fun _ => trivial) fun camera hcamera => ?_
  have hloaded : camera.Answered answers := hj₁.answered camera (Table.mem_of_find hcamera)
  refine (Prog.Safe.of_onlyWrites (hf camera hloaded) (fun _ => trivial) hj₁).mono fun t' s' a _ h => ?_
  obtain ⟨ws, hwrites, hall⟩ := h.1.writes
  rw [hwrites]
  exact hall

theorem onlyWrites_archive {now : Int} (h : camera.Answered answers) : Prog.OnlyWrites (Write.Answered answers)
      (if camera.isArchived then pure camera else CameraRepository.save (camera.archive now)) := by
  by_cases harchived : camera.isArchived = true
  · rw [if_pos harchived]
    trivial
  · rw [if_neg harchived]
    refine onlyWrites_save ?_
    unfold Camera.archive
    rw [if_neg harchived]
    exact h.congr rfl rfl

theorem onlyWrites_restore (h : camera.Answered answers) : Prog.OnlyWrites (Write.Answered answers)
      (if camera.isArchived then CameraRepository.save camera.restore else pure camera) := by
  by_cases harchived : camera.isArchived = true
  · rw [if_pos harchived]
    refine onlyWrites_save ?_
    unfold Camera.restore
    rw [if_pos harchived]
    exact h.congr rfl rfl
  · rw [if_neg harchived]
    trivial

end

/-! ### What each request has written when it commits -/

/-- A probe has saved what the gateway answered for the rows it loaded, an edit only pairs of key and codec that
belong together. -/
def Outcome (answers : String → VideoCodec → Prop) (op : Op) (t : Tx Store Key Write) (s : Store) : Prop :=
  (op.probes = false ∧ ∀ w ∈ t.writes, w.Answered answers) ∨
    ∃ v, op.probes = true ∧ Sound answers v ∧ HasSaved v (op.saves v) t s

section

variable {answers : String → VideoCodec → Prop} {s : Store}

theorem safe_edit_prog {op : Op} (hop : op.probes = false) :
    Prog.Safe camerasStay (Sound answers) (fun _ => True) (fun t _ _ => ∀ w ∈ t.writes, w.Answered answers)
      op.prog .start s := by
  cases op with
  | update id patch =>
    refine safe_edit fun camera _ => .guardOr ?_
    have hrest : ∀ keys, Prog.OnlyWrites (Write.Answered answers) (Prog.bind (CameraRepository.update id keys)
        fun updated => Prog.require updated (.cameraNotFound id)) := fun keys =>
      (onlyWrites_repositoryUpdate id keys).bind fun updated => by
        cases updated <;> trivial
    cases patch.locationId with
    | none => exact hrest _
    | some locationId => exact onlyWrites_requireLocation locationId (hrest _)
  | linkToLocation id locationId =>
    exact safe_edit fun camera hcamera =>
      .guardOr (onlyWrites_requireLocation locationId (onlyWrites_save (hcamera.congr rfl rfl)))
  | archive now id => exact safe_edit fun camera hcamera => onlyWrites_archive hcamera
  | restore id => exact safe_edit fun camera hcamera => onlyWrites_restore hcamera
  | refreshCodec now probe id => cases hop
  | refreshCodecs now probe => cases hop

theorem safe_probe_prog {op : Op} (hop : op.probes = true) : Prog.Safe camerasStay (Sound answers) (fun _ => True)
      (fun t s _ => ∃ v, Sound answers v ∧ HasSaved v (op.saves v) t s) op.prog .start s := by
  have hstart : ∀ v, HasSaved v [] (Tx.start.saw v) v := fun v => ⟨rfl, rfl, fun _ h => absurd h List.not_mem_nil⟩
  cases op with
  | refreshCodec now probe id =>
    refine Prog.Safe.map (Q := fun t s _ => ∃ v, Sound answers v ∧
      HasSaved v ((Op.refreshCodec now probe id).saves v) t s) ?_ fun _ _ _ _ h => h
    unfold CameraService.refreshCodec CameraService.getById CameraRepository.findById
    simp only [Prog.bind_eq, Prog.bind_assoc]
    refine Prog.Safe.query fun v _ hv => Prog.Safe.require (fun _ => trivial) fun camera hcamera => ?_
    have hsaves : (Op.refreshCodec now probe id).saves v = (CameraService.probed now probe camera).toList := by
      have hcamera : v.camera id = some camera := hcamera
      show (v.camera id).toList.filterMap (CameraService.probed now probe) = _
      rw [hcamera, Option.toList_some, List.filterMap_cons, List.filterMap_nil]
      cases CameraService.probed now probe camera <;> rfl
    cases hprobed : CameraService.probed now probe camera with
    | none =>
      intro s' hr _
      refine ⟨v, hv, ?_⟩
      rw [hsaves, hprobed]
      exact (hstart v).rely hr
    | some recorded =>
      have hsave : Prog.Safe camerasStay (Sound answers) (fun _ => True)
          (fun t s _ => ∃ v, Sound answers v ∧ HasSaved v ((Op.refreshCodec now probe id).saves v) t s)
          (Prog.bind (CameraRepository.save recorded) .ret) (Tx.start.saw v) v := by
        refine safe_save (hstart v) fun t' s' row h' _ => Prog.Safe.pure fun s'' hr _ => ⟨v, hv, ?_⟩
        rw [hsaves, hprobed]
        exact h'.rely hr
      rw [Prog.bind_ret] at hsave
      exact hsave
  | refreshCodecs now probe =>
    refine Prog.Safe.map (Q := fun t s _ => ∃ v, Sound answers v ∧
      HasSaved v ((Op.refreshCodecs now probe).saves v) t s) ?_ fun _ _ _ _ h => h
    unfold CameraService.refreshCodecs CameraRepository.listStreamable
    simp only [Prog.bind_eq]
    refine Prog.Safe.query fun v _ hv => ?_
    exact (safe_refreshEach _ hv (hstart v)).mono fun t' s' a _ h => ⟨v, hv, h⟩
  | _ => cases hop

theorem safe_prog (op : Op) (s : Store) :
    Prog.Safe camerasStay (Sound answers) (fun _ => True) (fun t s _ => Outcome answers op t s) op.prog .start s := by
  cases hop : op.probes with
  | false => exact (safe_edit_prog hop).mono fun _ _ _ _ h => .inl ⟨hop, h⟩
  | true =>
    refine (safe_probe_prog hop).mono fun _ _ _ _ h => ?_
    obtain ⟨v, hv, hsaved⟩ := h
    exact .inr ⟨v, hop, hv, hsaved⟩

end

/-! ## Commits -/

section

variable {answers : String → VideoCodec → Prop} {s v : Store} {c : Commit}

theorem nodup_saves (h : Table.Unique v.cameras) (op : Op) : ((op.saves v).map Camera.id).Nodup := by
  have hids : ∀ l : List Camera, ((l.filterMap (CameraService.probed op.now op.probe)).map Camera.id).Sublist
      (l.map Camera.id) := by
    intro l
    induction l with
    | nil => exact List.Sublist.refl _
    | cons camera l ih =>
      rw [List.filterMap_cons, List.map_cons]
      cases hprobed : CameraService.probed op.now op.probe camera with
      | none => exact ih.cons _
      | some recorded =>
        obtain ⟨key, -, -, rfl⟩ := probed_spec hprobed
        exact ih.cons_cons _
  have hwork : ((op.worklist v).map Camera.id).Nodup := by
    cases op with
    | refreshCodec now probe id =>
      show ((v.camera id).toList.map Camera.id).Nodup
      cases v.camera id with
      | none => exact List.nodup_nil
      | some camera => exact List.nodup_singleton _
    | refreshCodecs now probe => exact Table.unique_filter h _
    | _ => exact List.nodup_nil
  exact hwork.sublist (hids _)

theorem mem_saves {op : Op} {recorded : Camera} (h : recorded ∈ op.saves v) :
    ∃ camera ∈ op.worklist v, ∃ key, CameraService.probed op.now op.probe camera = some recorded ∧
      camera.streamKey = some key ∧ op.probe key = ⟨true, (op.probe key).videoCodec⟩ ∧
      recorded = camera.recordCodecProbe (op.probe key).videoCodec op.now := by
  obtain ⟨camera, hcamera, hprobed⟩ := List.mem_filterMap.1 h
  obtain ⟨key, hkey, havailable, hrecorded⟩ := probed_spec hprobed
  refine ⟨camera, hcamera, key, hprobed, hkey, ?_, hrecorded⟩
  rw [← havailable]

theorem HasSaved.view {saved : List Camera} (h : HasSaved v saved c.tx s) :
    c.tx.view s = (saved.map Write.save).foldl Relational.apply s := by
  unfold Tx.view
  rw [h.writes]

/-- **One probe.** -/
theorem touchesOnlyCodec_iff (hs : Table.Unique s.cameras) (hv : Table.Unique v.cameras)
    (h : HasSaved v (c.op.saves v) c.tx s) : TouchesOnlyCodec s (c.tx.view s) ↔ StillStands s c := by
  obtain ⟨hsaved, hothers⟩ := camera_saves (nodup_saves hv c.op) s h.there
  rw [← h.view] at hsaved hothers
  constructor
  · intro htouches v' hv' camera hcamera hanswered
    obtain rfl : v = v' := Option.some.inj (h.loaded.symm.trans hv')
    obtain ⟨recorded, hrecorded⟩ := Option.isSome_iff_exists.1 hanswered
    have hmem : recorded ∈ c.op.saves v := List.mem_filterMap.2 ⟨camera, hcamera, hrecorded⟩
    obtain ⟨row, hrow⟩ := Option.isSome_iff_exists.1 (h.there recorded hmem)
    have hkept := htouches row (Table.mem_of_find hrow)
    have hid : row.id = recorded.id := Table.id_of_find hrow
    rw [hid, hsaved recorded hmem] at hkept
    obtain ⟨key, -, -, rfl⟩ := probed_spec hrecorded
    exact (congrArg (Option.map Camera.declared) hrow).trans hkept.symm
  · intro hstands row hrow
    have hfind : s.camera row.id = some row := Table.find_of_mem hs hrow
    by_cases hi : row.id ∈ (c.op.saves v).map Camera.id
    · obtain ⟨recorded, hmem, hid⟩ := List.mem_map.1 hi
      obtain ⟨camera, hcamera, key, hprobed, -, -, rfl⟩ := mem_saves hmem
      have hloaded := hstands v h.loaded camera hcamera (by rw [hprobed]; rfl)
      have hid : camera.id = row.id := hid
      rw [hid, hfind] at hloaded
      rw [← hid]
      exact (congrArg (Option.map Camera.declared) (hsaved _ hmem)).trans hloaded.symm
    · rw [hothers row.id hi, hfind]
      rfl

theorem sound_view (hasked : ∀ key codec, Asked c key codec → answers key codec) (hs : Sound answers s)
    (h : Outcome answers c.op c.tx s) : Sound answers (c.tx.view s) := by
  have hwrites : ∀ w ∈ c.tx.writes, w.Answered answers := by
    rcases h with ⟨-, hall⟩ | ⟨v, -, -, hsaved⟩
    · exact hall
    · intro w hw
      rw [hsaved.writes] at hw
      obtain ⟨recorded, hmem, rfl⟩ := List.mem_map.1 hw
      obtain ⟨camera, hcamera, key, -, hkey, hprobe, rfl⟩ := mem_saves hmem
      intro codec hcodec
      obtain rfl : (c.op.probe key).videoCodec = codec := Option.some.inj hcodec
      exact ⟨key, hkey, hasked key _ ⟨v, hsaved.loaded, hprobe, camera, hcamera, hkey⟩⟩
  unfold Tx.view
  generalize c.tx.writes = ws at hwrites
  clear h
  induction ws generalizing s with
  | nil => exact hs
  | cons w ws ih =>
    exact ih ⟨unique_apply hs.unique, hs.answered.apply (hwrites w List.mem_cons_self)⟩
      fun w' hw' => hwrites w' (List.mem_cons_of_mem _ hw')

end

/-! ## Runs -/

/-- What the gateway has answered before, and to the requests that have committed since. -/
def Answers (before : String → VideoCodec → Prop) (log : List Commit) (key : String) (codec : VideoCodec) : Prop :=
  before key codec ∨ ∃ c ∈ log, Asked c key codec

theorem run_sound {n : Nat} {s : Store} {cs : Schedule n} {σ : System n} {before : String → VideoCodec → Prop}
    (hs : Sound before s) (hrun : run s cs = some σ) :
    Chain (fun s c => Sound (Answers before σ.log) s ∧ Outcome (Answers before σ.log) c.op c.tx s) s σ.log σ.db := by
  have hstart : Sound (Answers before σ.log) s :=
    ⟨hs.unique, fun camera hcamera => (hs.answered camera hcamera).mono fun _ _ h => .inl h⟩
  have hK : System.Keeps camerasStay (Sound (Answers before σ.log))
      (fun op t s (_ : Answer) => Outcome (Answers before σ.log) op t s)
      (fun _ c => ∀ key codec, Asked c key codec → Answers before σ.log key codec) n :=
    ⟨fun s c hj hq hc => sound_view hc hj hq, fun _ s c _ _ _ held _ i hi => by
      rw [isSome_camera_view]
      exact hi⟩
  have hops : System.Starts (fun _ => True) cs := fun _ _ _ => trivial
  exact System.exec_chain_if hstart hK (fun op s _ _ => safe_prog op s) hops hrun
    (AtEach.of_mem fun c hc key codec h => .inr ⟨c, hc, h⟩)

/-- **Probes of the codec.**  The codec of a row is always an answer for its key; a probe touches nothing else exactly
when no row that it saves has been edited since it was loaded. -/
theorem probes_touch_only_codec_iff {n : Nat} {s : Store} {cs : Schedule n} {σ : System n}
    {before : String → VideoCodec → Prop} (hs : Sound before s) (hrun : run s cs = some σ) :
    σ.db.Answered (Answers before σ.log) ∧
        AtEach (fun s c => c.op.probes = true → TouchesOnlyCodec s (c.tx.view s)) s σ.log ↔
      AtEach (fun s c => c.op.probes = true → StillStands s c) s σ.log := by
  have hchain := run_sound hs hrun
  have hanswered : σ.db.Answered (Answers before σ.log) := by
    have hstart : s.Answered (Answers before σ.log) := fun camera hcamera =>
      (hs.answered camera hcamera).mono fun _ _ h => .inl h
    have hlast := hchain.and (AtEach.of_mem fun c hc => hc)
    exact hlast.inv (Store.Answered (Answers before σ.log)) hstart fun s c _ h =>
      (sound_view (fun key codec hasked => .inr ⟨c, h.2, hasked⟩) h.1.1 h.1.2).answered
  rw [and_iff_right hanswered]
  refine AtEach.congr (hchain.atEach.mono fun s c h => ?_)
  rcases h.2 with ⟨hop, -⟩ | ⟨v, -, hv, hsaved⟩
  · rw [hop]
    exact iff_of_true (fun h => by cases h) fun h => by cases h
  · exact imp_congr_right fun _ => touchesOnlyCodec_iff h.1.unique hv.unique hsaved

/-! ## A camera that comes back -/

/-- Two cameras in the hall. -/
def hall : Store :=
  ⟨[⟨1, 7, "Вход", "rtsp://a", none, some "cam01_sub", none, none, none, true, none⟩,
    ⟨2, 7, "Зал", "rtsp://b", none, some "cam02_sub", none, none, none, true, none⟩], [7, 8], [], []⟩

def everyoneSpeaksH265 (_ : String) : StreamProbeResult := ⟨true, .h265⟩

/-- The first camera is archived while the gateway is asked. -/
def archivedWhileProbed : Schedule 2 :=
  .start 0 (.refreshCodecs 50 everyoneSpeaksH265) :: Choice.steps 0 1 0 ++ Choice.request 1 (.archive 60 1) 4 0 ++
    Choice.steps 0 5 0

theorem archivedWhileProbed_comesBack : ∃ σ : System 2, run hall archivedWhileProbed = some σ ∧
    σ.log.length = 2 ∧ (σ.db.camera 1).map Camera.isArchived = some false ∧
      ¬AtEach (fun s c => c.op.probes = true → TouchesOnlyCodec s (c.tx.view s)) hall σ.log := by
  obtain ⟨σ, hrun, h⟩ := run_shows run hall archivedWhileProbed (fun σ : System 2 =>
    decide (σ.log.length = 2 ∧ (σ.db.camera 1).map Camera.isArchived = some false ∧
      ¬AtEach (fun s (c : Commit) => c.op.probes = true → TouchesOnlyCodec s (c.tx.view s)) hall σ.log)) (by decide +kernel)
  exact ⟨σ, hrun, of_decide_eq_true h⟩

theorem sound_hall : Sound (fun _ _ => False) hall where
  unique := by unfold Table.Unique; decide
  answered camera hcamera codec hcodec := by
    have hnone : ∀ camera ∈ hall.cameras, camera.videoCodec = none := by decide
    rw [hnone camera hcamera] at hcodec
    cases hcodec

/-- The second camera moves before it is loaded. -/
def movedBeforeProbe : Schedule 2 :=
  Choice.request 1 (.linkToLocation 2 8) 5 0 ++ Choice.request 0 (.refreshCodecs 50 everyoneSpeaksH265) 6 0

theorem probes_touch_only_codec_movedBeforeProbe : ∃ σ : System 2, run hall movedBeforeProbe = some σ ∧
    σ.log.length = 2 ∧ σ.db.cameras.map Camera.videoCodec = [some .h265, some .h265] ∧
    (σ.db.Answered (Answers (fun _ _ => False) σ.log) ∧
        AtEach (fun s c => c.op.probes = true → TouchesOnlyCodec s (c.tx.view s)) hall σ.log ↔
      AtEach (fun s c => c.op.probes = true → StillStands s c) hall σ.log) := by
  obtain ⟨σ, hrun, h⟩ := run_shows run hall movedBeforeProbe (fun σ : System 2 =>
    decide (σ.log.length = 2 ∧ σ.db.cameras.map Camera.videoCodec = [some .h265, some .h265])) (by decide +kernel)
  have h := of_decide_eq_true h
  exact ⟨σ, hrun, h.1, h.2, probes_touch_only_codec_iff sound_hall hrun⟩

end Cameras
