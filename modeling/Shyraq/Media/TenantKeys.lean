import Shyraq.Media.Interceptor

/-!
# Whose objects are signed

The interceptor signs whatever reads like one of the bucket's objects, wherever it stands in the body.  Nothing ties a
key to the caller's kindergarten.
-/

namespace Media

/-! ## What is claimed -/

/-- The controller would read this object for a caller of the kindergarten. -/
def Serves (kgId key : String) : Prop :=
  ∃ segment yyyyMm filename, MediaController.stream ⟨some kgId, false⟩ segment yyyyMm filename = .ok key

/-- The text stands somewhere in the body. -/
inductive Occurs (s : String) : Body → Prop
  | here : Occurs s (.str s)
  | item {b : Body} {items : List Body} (hb : b ∈ items) (h : Occurs s b) : Occurs s (.arr items)
  | field {b : Body} {fields : List (String × Body)} (hb : b ∈ fields.map Prod.snd) (h : Occurs s b) :
      Occurs s (.obj fields)

/-- After `start`, up to a question mark, stands the key. -/
def Names (start value key : String) : Prop :=
  key ≠ "" ∧ ∃ rest, value.toList = start.toList ++ rest ∧ key.toList = rest.takeWhile (· != '?')

/-- The path of a media route. -/
def Routes (cfg : MediaUrlConfig) (path key : String) : Prop :=
  Names (cfg.urlPrefix ++ "/") path key ∨
    (¬(cfg.urlPrefix ++ "/").toList <+: path.toList ∧ Names (cfg.legacyPrefix ++ "/") path key)

/-- The text is a link to an object of the bucket: a path of a media route, an address in the bucket, or a link to a
media route on any host. -/
inductive Refers (cfg : MediaUrlConfig) (pathname : String → Option String) (value key : String) : Prop
  | route (hrelative : isAbsoluteUrl value = false) (h : Routes cfg value key)
  | bucket {before later : List String} {base : String} (habsolute : isAbsoluteUrl value = true)
      (hbases : cfg.bucketBases = before ++ base :: later)
      (hbefore : ∀ other ∈ before, ¬other.toList <+: value.toList) (h : Names base value key)
  | link {path : String} (habsolute : isAbsoluteUrl value = true)
      (hbases : ∀ base ∈ cfg.bucketBases, ¬base.toList <+: value.toList) (hpath : pathname value = some path)
      (h : Routes cfg path key)

/-! ## What is recognised -/

theorem after_eq_some {start value raw : String} :
    after start value = some raw ↔ value.toList = start.toList ++ raw.toList := by
  unfold after
  split
  · next h =>
    obtain ⟨rest, hrest⟩ := List.isPrefixOf_iff_prefix.1 h
    rw [← hrest, List.drop_left, Option.some.injEq]
    constructor
    · rintro rfl
      rw [String.toList_ofList]
    · intro h
      rw [List.append_cancel_left h, String.ofList_toList]
  · next h =>
    refine iff_of_false (fun h => by cases h) fun hvalue => h ?_
    exact List.isPrefixOf_iff_prefix.2 ⟨raw.toList, hvalue.symm⟩

theorem after_eq_none {start value : String} : after start value = none ↔ ¬start.toList <+: value.toList := by
  unfold after
  split
  · next h => exact iff_of_false (fun h => by cases h) (not_not.2 (List.isPrefixOf_iff_prefix.1 h))
  · next h => exact iff_of_true rfl fun hstart => h (List.isPrefixOf_iff_prefix.2 hstart)

theorem stripKey_eq_some {raw key : String} :
    stripKey raw = some key ↔ key ≠ "" ∧ key.toList = raw.toList.takeWhile (· != '?') := by
  unfold stripKey
  simp only
  split
  · next h =>
    refine iff_of_false (fun h => by cases h) fun ⟨hne, hkey⟩ => hne ?_
    rw [List.isEmpty_iff.1 h] at hkey
    exact String.toList_eq_nil_iff.1 hkey
  · next h =>
    rw [Option.some.injEq]
    constructor
    · rintro rfl
      refine ⟨fun hempty => h ?_, String.toList_ofList⟩
      have := String.toList_eq_nil_iff.2 hempty
      rw [String.toList_ofList] at this
      exact List.isEmpty_iff.2 this
    · rintro ⟨-, hkey⟩
      rw [← hkey, String.ofList_toList]

theorem names_iff {start value key : String} :
    Names start value key ↔ ∃ raw, after start value = some raw ∧ stripKey raw = some key := by
  constructor
  · rintro ⟨hne, rest, hvalue, hkey⟩
    refine ⟨String.ofList rest, after_eq_some.2 ?_, stripKey_eq_some.2 ⟨hne, ?_⟩⟩
    · rw [String.toList_ofList]
      exact hvalue
    · rw [String.toList_ofList]
      exact hkey
  · rintro ⟨raw, hafter, hstrip⟩
    obtain ⟨hne, hkey⟩ := stripKey_eq_some.1 hstrip
    exact ⟨hne, raw.toList, after_eq_some.1 hafter, hkey⟩

section

variable {cfg : MediaUrlConfig} {pathname : String → Option String} {value key : String}

theorem fromPath_eq_some {path : String} : fromPath cfg path = some key ↔ Routes cfg path key := by
  unfold fromPath Routes
  rw [names_iff, names_iff]
  cases hroute : after (cfg.urlPrefix ++ "/") path with
  | some raw =>
    have hstarts : (cfg.urlPrefix ++ "/").toList <+: path.toList := ⟨raw.toList, (after_eq_some.1 hroute).symm⟩
    constructor
    · intro h
      exact .inl ⟨raw, rfl, h⟩
    · rintro (⟨raw', hraw, h⟩ | ⟨hno, -⟩)
      · exact Option.some.inj hraw ▸ h
      · exact absurd hstarts hno
  | none =>
    constructor
    · intro h
      exact .inr ⟨after_eq_none.1 hroute, Option.bind_eq_some_iff.1 h⟩
    · rintro (⟨raw, hraw, -⟩ | ⟨-, h⟩)
      · cases hraw
      · exact Option.bind_eq_some_iff.2 h

theorem names_ne_empty {start : String} (h : Names (start ++ "/") value key) : value.isEmpty = false := by
  obtain ⟨-, rest, hvalue, -⟩ := h
  cases hempty : value.isEmpty with
  | false => rfl
  | true =>
    rw [String.isEmpty_iff.1 hempty, String.toList_append] at hvalue
    have := congrArg List.length hvalue
    simp at this

theorem routes_ne_empty (h : Routes cfg value key) : value.isEmpty = false := by
  rcases h with h | ⟨-, h⟩
  · exact names_ne_empty h
  · exact names_ne_empty h

theorem absolute_ne_empty (h : isAbsoluteUrl value = true) : value.isEmpty = false := by
  cases hempty : value.isEmpty with
  | false => rfl
  | true =>
    rw [String.isEmpty_iff.1 hempty] at h
    cases h

theorem resolveMediaKey_eq_some : resolveMediaKey cfg pathname value = some key ↔ Refers cfg pathname value key := by
  unfold resolveMediaKey
  constructor
  · intro h
    split at h
    · cases h
    split at h
    · next habsolute =>
      split at h
      · next raw hbase =>
        obtain ⟨before, base, later, hbases, hafter, hbefore⟩ := List.findSome?_eq_some_iff.1 hbase
        exact .bucket habsolute hbases (fun other hother => after_eq_none.1 (hbefore other hother))
          (names_iff.2 ⟨raw, hafter, h⟩)
      · next hbase =>
        obtain ⟨path, hpath, hroute⟩ := Option.bind_eq_some_iff.1 h
        rw [List.findSome?_eq_none_iff] at hbase
        exact .link habsolute (fun base hmem => after_eq_none.1 (hbase base hmem)) hpath (fromPath_eq_some.1 hroute)
    · next hrelative => exact .route (by simpa using hrelative) (fromPath_eq_some.1 h)
  · intro h
    cases h with
    | route hrelative h =>
      rw [routes_ne_empty h, hrelative]
      exact fromPath_eq_some.2 h
    | bucket habsolute hbases hbefore h =>
      obtain ⟨raw, hafter, hstrip⟩ := names_iff.1 h
      have hbase : (cfg.bucketBases.findSome? fun base => after base value) = some raw :=
        List.findSome?_eq_some_iff.2 ⟨_, _, _, hbases, hafter, fun other hother =>
          after_eq_none.2 (hbefore other hother)⟩
      rw [absolute_ne_empty habsolute, habsolute, hbase]
      exact hstrip
    | link habsolute hbases hpath h =>
      have hbase : (cfg.bucketBases.findSome? fun base => after base value) = none :=
        List.findSome?_eq_none_iff.2 fun base hmem => after_eq_none.2 (hbases base hmem)
      rw [absolute_ne_empty habsolute, habsolute, hbase]
      exact Option.bind_eq_some_iff.2 ⟨_, hpath, fromPath_eq_some.2 h⟩

end

/-! ## What is collected -/

section

variable {cfg : MediaUrlConfig} {pathname : String → Option String} {url : String}

/-- A text that is to be signed. -/
def Found (cfg : MediaUrlConfig) (pathname : String → Option String) (url : String) (b : Body) : Prop :=
  Occurs url b ∧ (resolveMediaKey cfg pathname url).isSome = true

theorem mem_add {acc : List String} {s : String} {c : Bool} :
    (url ∈ if c && !acc.contains s then acc ++ [s] else acc) ↔ url ∈ acc ∨ (url = s ∧ c = true) := by
  by_cases hmem : s ∈ acc
  · have hcontains : acc.contains s = true := List.contains_iff_mem.2 hmem
    rw [hcontains, Bool.not_true, Bool.and_false]
    constructor
    · exact .inl
    · rintro (h | ⟨rfl, -⟩)
      · exact h
      · exact hmem
  · have hcontains : acc.contains s = false := by
      rw [← Bool.not_eq_true, List.contains_iff_mem]
      exact hmem
    rw [hcontains, Bool.not_false, Bool.and_true]
    cases c with
    | false => simp
    | true => simp

mutual

theorem mem_collectMediaUrls : ∀ (acc : List String) (b : Body),
    url ∈ collectMediaUrls cfg pathname acc b ↔ url ∈ acc ∨ Found cfg pathname url b
  | acc, .str s => by
    unfold collectMediaUrls
    rw [mem_add]
    refine or_congr_right ⟨?_, ?_⟩
    · rintro ⟨rfl, h⟩
      exact ⟨.here, h⟩
    · rintro ⟨hoccurs, h⟩
      cases hoccurs
      exact ⟨rfl, h⟩
  | acc, .arr items => by
    unfold collectMediaUrls
    rw [mem_collectItems acc items]
    refine or_congr_right ⟨?_, ?_⟩
    · rintro ⟨b, hb, hoccurs, h⟩
      exact ⟨.item hb hoccurs, h⟩
    · rintro ⟨hoccurs, h⟩
      cases hoccurs with
      | item hb hoccurs => exact ⟨_, hb, hoccurs, h⟩
  | acc, .obj fields => by
    unfold collectMediaUrls
    rw [mem_collectFields acc fields]
    refine or_congr_right ⟨?_, ?_⟩
    · rintro ⟨b, hb, hoccurs, h⟩
      exact ⟨.field hb hoccurs, h⟩
    · rintro ⟨hoccurs, h⟩
      cases hoccurs with
      | field hb hoccurs => exact ⟨_, hb, hoccurs, h⟩
  | acc, .null | acc, .bool _ | acc, .num _ | acc, .native => by
    unfold collectMediaUrls
    refine (or_iff_left ?_).symm
    rintro ⟨hoccurs, -⟩
    cases hoccurs

theorem mem_collectItems : ∀ (acc : List String) (items : List Body),
    url ∈ collectItems cfg pathname acc items ↔ url ∈ acc ∨ ∃ b ∈ items, Found cfg pathname url b
  | acc, [] => by
    unfold collectItems
    simp
  | acc, item :: items => by
    unfold collectItems
    rw [mem_collectItems _ items, mem_collectMediaUrls acc item, List.exists_mem_cons_iff, or_assoc]

theorem mem_collectFields : ∀ (acc : List String) (fields : List (String × Body)),
    url ∈ collectFields cfg pathname acc fields ↔ url ∈ acc ∨ ∃ b ∈ fields.map Prod.snd, Found cfg pathname url b
  | acc, [] => by
    unfold collectFields
    simp
  | acc, (_, value) :: fields => by
    unfold collectFields
    rw [mem_collectFields _ fields, mem_collectMediaUrls acc value, List.map_cons, List.exists_mem_cons_iff, or_assoc]

end

theorem mem_keys {storage : MediaSignInterceptor.Storage} {body : Body} {key : String} :
    key ∈ (MediaSignInterceptor.intercept cfg pathname storage false body).keys ↔
      ∃ value, Occurs value body ∧ Refers cfg pathname value key := by
  have hkeys : (MediaSignInterceptor.intercept cfg pathname storage false body).keys =
      MediaSignInterceptor.presigned cfg pathname (collectMediaUrls cfg pathname [] body) := by
    unfold MediaSignInterceptor.intercept
    simp only [Bool.false_eq_true, if_false]
    split
    · next hempty =>
      rw [List.isEmpty_iff.1 hempty]
      rfl
    · rfl
  rw [hkeys]
  unfold MediaSignInterceptor.presigned
  rw [List.mem_dedup, List.mem_filterMap]
  constructor
  · rintro ⟨value, hvalue, hkey⟩
    rcases (mem_collectMediaUrls [] body).1 hvalue with hnil | hfound
    · cases hnil
    · exact ⟨value, hfound.1, resolveMediaKey_eq_some.1 hkey⟩
  · rintro ⟨value, hoccurs, hrefers⟩
    have hkey := resolveMediaKey_eq_some.2 hrefers
    exact ⟨value, (mem_collectMediaUrls [] body).2 (.inr ⟨hoccurs, by rw [hkey]; rfl⟩), hkey⟩

end

/-- **Whose objects are signed.**  A body is signed within the tenant exactly when every text in it that refers to an
object of the bucket refers to one that the controller would serve. -/
theorem signs_own_keys_iff (cfg : MediaUrlConfig) (pathname : String → Option String)
    (storage : MediaSignInterceptor.Storage) (skip : Bool) (kgId : String) (body : Body) :
    (∀ key ∈ (MediaSignInterceptor.intercept cfg pathname storage skip body).keys, Serves kgId key) ↔
      (skip = false → ∀ value, Occurs value body → ∀ key, Refers cfg pathname value key → Serves kgId key) := by
  cases skip with
  | true =>
    constructor
    · intro _ h
      cases h
    · intro _ key hkey
      cases hkey
  | false =>
    constructor
    · intro h _ value hoccurs key hrefers
      exact h key (mem_keys.2 ⟨value, hoccurs, hrefers⟩)
    · intro h key hkey
      obtain ⟨value, hoccurs, hrefers⟩ := mem_keys.1 hkey
      exact h rfl value hoccurs key hrefers

/-! ## Another kindergarten's photograph -/

theorem Serves.segment {kgId key : String} (h : Serves kgId key) : (kgId ++ "/").toList <+: key.toList := by
  obtain ⟨segment, yyyyMm, filename, h⟩ := h
  unfold MediaController.stream at h
  split at h
  · cases h
  · split at h
    · cases h
    · next htenant =>
      have hsame : kgId = segment := by simpa using htenant
      obtain rfl := Except.ok.inj h
      rw [hsame]
      exact ⟨(yyyyMm ++ "/" ++ filename).toList, by simp only [String.toList_append, List.append_assoc]⟩

def defaults : MediaUrlConfig := ⟨"/api/v1/media", "/static", []⟩

def ours : String := "11111111-1111-1111-1111-111111111111"

/-- A message whose sender has typed the link to a photograph of another kindergarten. -/
def plantedMessage : Body :=
  .obj [("body", .str "/api/v1/media/22222222-2222-2222-2222-222222222222/2026-05/33333333-3333-3333-3333-333333333333.jpg")]

theorem plantedMessage_signed : ¬∀ key ∈ (MediaSignInterceptor.intercept defaults (fun _ => none) some false
    plantedMessage).keys, Serves ours key := by
  intro h
  have hkeys : (MediaSignInterceptor.intercept defaults (fun _ => none) some false plantedMessage).keys =
      ["22222222-2222-2222-2222-222222222222/2026-05/33333333-3333-3333-3333-333333333333.jpg"] := by
    decide +kernel
  rw [hkeys] at h
  have hsegment := (h _ List.mem_cons_self).segment
  revert hsegment
  decide +kernel

example : (MediaController.stream ⟨some ours, false⟩ ours "2026-05" "33333333-3333-3333-3333-333333333333.jpg").toOption =
    some "11111111-1111-1111-1111-111111111111/2026-05/33333333-3333-3333-3333-333333333333.jpg" := by
  decide +kernel

end Media
