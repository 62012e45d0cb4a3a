import Mathlib.Data.List.Nodup
import Shyraq.Diagnostics.Satisfiability
import Shyraq.Diagnostics.Services

/-!
# Deep equality

A JSON value is what is left of its text when the order of the keys is forgotten: an object is a partial function on its
keys.  `deepEqualJson` compares exactly that, so the version of a template counts the real changes of its schema.

    a.Keyed → b.Keyed → (deepEqualJson a b = true ↔ a.value = b.value)                (deepEqualJson_iff)
-/

namespace Diagnostics

/-! ## JSON values -/

inductive Value
  | null
  | bool (b : Bool)
  | num (n : ℚ)
  | str (s : String)
  | arr (items : List Value)
  | obj (entries : String → Option Value)

mutual

def Json.value : Json → Value
  | .null => .null
  | .bool b => .bool b
  | .num n => .num n
  | .str s => .str s
  | .arr items => .arr (itemValues items)
  | .obj fields => .obj (fieldValues fields)

def itemValues : List Json → List Value
  | [] => []
  | a :: as => a.value :: itemValues as

/-- What is under a key. -/
def fieldValues : List (String × Json) → String → Option Value
  | [], _ => none
  | (key, a) :: as, k => if key = k then some a.value else fieldValues as k

end

mutual

/-- An object has each key once, at any depth. -/
def Json.Keyed : Json → Prop
  | .arr items => KeyedItems items
  | .obj fields => (fields.map Prod.fst).Nodup ∧ KeyedFields fields
  | _ => True

def KeyedItems : List Json → Prop
  | [] => True
  | a :: as => a.Keyed ∧ KeyedItems as

def KeyedFields : List (String × Json) → Prop
  | [] => True
  | (_, a) :: as => a.Keyed ∧ KeyedFields as

end

variable {as bs : List (String × Json)} {key k : String} {keys : List String}

theorem lookup_cons (a : Json) : lookup ((key, a) :: as) k = if key = k then some a else lookup as k := by
  unfold lookup
  rw [List.find?_cons]
  by_cases h : key = k
  · simp [h]
  · rw [beq_eq_false_iff_ne.2 h, if_neg h]

theorem fieldValues_eq (as : List (String × Json)) (k : String) : fieldValues as k = (lookup as k).map Json.value := by
  induction as with
  | nil => rfl
  | cons a as ih =>
    obtain ⟨key, a⟩ := a
    rw [fieldValues, lookup_cons]
    by_cases h : key = k
    · simp [h]
    · simp [h, ih]

theorem fieldValues_isSome (as : List (String × Json)) (k : String) :
    (fieldValues as k).isSome = true ↔ k ∈ as.map Prod.fst := by
  induction as with
  | nil => simp [fieldValues]
  | cons a as ih =>
    obtain ⟨key, a⟩ := a
    rw [fieldValues]
    by_cases h : key = k
    · simp [h]
    · rw [if_neg h, ih, List.map_cons, List.mem_cons]
      simp [Ne.symm h]

theorem KeyedFields.lookup {a : Json} (h : KeyedFields as) (ha : lookup as k = some a) : a.Keyed := by
  induction as with
  | nil => cases ha
  | cons f as ih =>
    obtain ⟨key, b⟩ := f
    rw [lookup_cons] at ha
    by_cases hk : key = k
    · rw [if_pos hk, Option.some.injEq] at ha
      exact ha ▸ h.1
    · rw [if_neg hk] at ha
      exact ih h.2 ha

/-! ## What `deepEqualJson` decides -/

theorem fieldValues_eq_iff (ha : (as.map Prod.fst).Nodup) (hb : (bs.map Prod.fst).Nodup) :
    (as.length = bs.length ∧ ∀ k v, fieldValues as k = some v → fieldValues bs k = some v) ↔
      fieldValues as = fieldValues bs := by
  constructor
  · rintro ⟨hlen, hsub⟩
    have hkeys : as.map Prod.fst ⊆ bs.map Prod.fst := by
      intro k hk
      obtain ⟨v, hv⟩ := Option.isSome_iff_exists.1 ((fieldValues_isSome as k).2 hk)
      rw [← fieldValues_isSome, hsub k v hv]
      rfl
    have hperm : (as.map Prod.fst).Perm (bs.map Prod.fst) :=
      (List.subperm_of_subset ha hkeys).perm_of_length_le (by simp [hlen])
    funext k
    cases hv : fieldValues as k with
    | some v => exact (hsub k v hv).symm
    | none =>
      have hnot : k ∉ bs.map Prod.fst := by
        rw [← hperm.mem_iff, ← fieldValues_isSome, hv]
        simp
      rw [← fieldValues_isSome, Bool.not_eq_true, Option.isSome_eq_false_iff, Option.isNone_iff_eq_none] at hnot
      exact hnot.symm
  · intro h
    refine ⟨?_, fun k v hv => h ▸ hv⟩
    have hperm : (as.map Prod.fst).Perm (bs.map Prod.fst) := by
      rw [List.perm_ext_iff_of_nodup ha hb]
      intro k
      rw [← fieldValues_isSome, h, fieldValues_isSome]
    simpa using hperm.length_eq

mutual

theorem deepEqualJson_iff : ∀ {a b : Json}, a.Keyed → b.Keyed → (deepEqualJson a b = true ↔ a.value = b.value)
  | .arr as, .arr bs, ha, hb => by
    rw [deepEqualJson, Json.value, Json.value, Value.arr.injEq]
    exact deepEqualItems_iff ha hb
  | .obj as, .obj bs, ha, hb => by
    rw [deepEqualJson, Json.value, Json.value, Value.obj.injEq, Bool.and_eq_true, beq_iff_eq,
      deepEqualFields_iff ha.1 ha.2 hb.2]
    exact fieldValues_eq_iff ha.1 hb.1
  | .null, b, _, _ => by cases b <;> simp [deepEqualJson, Json.sameValue, Json.value]
  | .bool _, b, _, _ => by cases b <;> simp [deepEqualJson, Json.sameValue, Json.value]
  | .num _, b, _, _ => by cases b <;> simp [deepEqualJson, Json.sameValue, Json.value]
  | .str _, b, _, _ => by cases b <;> simp [deepEqualJson, Json.sameValue, Json.value]
  | .arr _, .null, _, _ => by simp [deepEqualJson, Json.sameValue, Json.value]
  | .arr _, .bool _, _, _ => by simp [deepEqualJson, Json.sameValue, Json.value]
  | .arr _, .num _, _, _ => by simp [deepEqualJson, Json.sameValue, Json.value]
  | .arr _, .str _, _, _ => by simp [deepEqualJson, Json.sameValue, Json.value]
  | .arr _, .obj _, _, _ => by simp [deepEqualJson, Json.sameValue, Json.value]
  | .obj _, .null, _, _ => by simp [deepEqualJson, Json.sameValue, Json.value]
  | .obj _, .bool _, _, _ => by simp [deepEqualJson, Json.sameValue, Json.value]
  | .obj _, .num _, _, _ => by simp [deepEqualJson, Json.sameValue, Json.value]
  | .obj _, .str _, _, _ => by simp [deepEqualJson, Json.sameValue, Json.value]
  | .obj _, .arr _, _, _ => by simp [deepEqualJson, Json.sameValue, Json.value]

theorem deepEqualItems_iff : ∀ {as bs : List Json}, KeyedItems as → KeyedItems bs →
    (deepEqualItems as bs = true ↔ itemValues as = itemValues bs)
  | [], [], _, _ => by simp [deepEqualItems]
  | [], _ :: _, _, _ => by simp [deepEqualItems, itemValues]
  | _ :: _, [], _, _ => by simp [deepEqualItems, itemValues]
  | a :: as, b :: bs, ha, hb => by
    rw [deepEqualItems, itemValues, itemValues, List.cons.injEq, Bool.and_eq_true, deepEqualJson_iff ha.1 hb.1,
      deepEqualItems_iff ha.2 hb.2]

theorem deepEqualFields_iff : ∀ {as bs : List (String × Json)}, (as.map Prod.fst).Nodup → KeyedFields as →
    KeyedFields bs → (deepEqualFields as bs = true ↔ ∀ k v, fieldValues as k = some v → fieldValues bs k = some v)
  | [], bs, _, _, _ => by simp [deepEqualFields, fieldValues]
  | (key, a) :: as, bs, hnodup, ha, hb => by
    obtain ⟨hkey, hnodup⟩ := List.nodup_cons.1 hnodup
    have hfirst : deepEqualFields ((key, a) :: as) bs = true ↔
        fieldValues bs key = some a.value ∧ deepEqualFields as bs = true := by
      rw [deepEqualFields, Bool.and_eq_true, fieldValues_eq]
      cases hl : lookup bs key with
      | none => simp
      | some b =>
        rw [Option.map_some, Option.some.injEq]
        dsimp only
        rw [deepEqualJson_iff ha.1 (hb.lookup hl)]
        exact and_congr_left fun _ => eq_comm
    rw [hfirst, deepEqualFields_iff hnodup ha.2 hb]
    constructor
    · rintro ⟨hone, hrest⟩ k v hv
      rw [fieldValues] at hv
      by_cases hk : key = k
      · rw [if_pos hk] at hv
        rw [← hk, hone, hv]
      · rw [if_neg hk] at hv
        exact hrest k v hv
    · intro h
      refine ⟨h key a.value (by simp [fieldValues]), fun k v hv => h k v ?_⟩
      have hk : key ≠ k := by
        rintro rfl
        exact hkey ((fieldValues_isSome as key).1 (hv ▸ rfl))
      rw [fieldValues, if_neg hk, hv]

end

example : deepEqualJson (.obj [("min", .num 1), ("max", .null)]) (.obj [("max", .null), ("min", .num 1)]) = true := by
  decide +kernel

/-! ## A schema that was read -/

theorem KeyedFields.without (h : KeyedFields as) (keys : List String) : KeyedFields (without as keys) := by
  induction as with
  | nil => exact h
  | cons f as ih =>
    unfold Diagnostics.without
    rw [List.filter_cons]
    split
    · exact ⟨h.1, ih h.2⟩
    · exact ih h.2

theorem nodup_without (h : (as.map Prod.fst).Nodup) (keys : List String) : ((without as keys).map Prod.fst).Nodup :=
  h.sublist (List.filter_sublist.map _)

theorem fieldValues_without (as : List (String × Json)) (keys : List String) (k : String) :
    fieldValues (without as keys) k = if k ∈ keys then none else fieldValues as k := by
  induction as with
  | nil => simp [without, fieldValues]
  | cons f as ih =>
    obtain ⟨key, a⟩ := f
    unfold without at ih ⊢
    rw [List.filter_cons, fieldValues]
    by_cases hkey : key ∈ keys
    · have hout : (!keys.contains key) = false := by simp [hkey]
      rw [if_neg (by simp [hkey]), ih]
      by_cases hk : key = k
      · rw [if_pos (hk ▸ hkey), if_pos (hk ▸ hkey)]
      · rw [if_neg hk]
    · rw [if_pos (by simp [hkey]), fieldValues, ih]
      by_cases hk : key = k
      · rw [if_pos hk, if_pos hk, if_neg (hk ▸ hkey)]
      · rw [if_neg hk, if_neg hk]

theorem sameExtra_iff (ha : (Json.obj as).Keyed) (hb : (Json.obj bs).Keyed) :
    sameExtra as bs = true ↔ fieldValues as = fieldValues bs := by
  unfold sameExtra
  rw [Bool.and_eq_true, beq_iff_eq, deepEqualFields_iff ha.1 ha.2 hb.2]
  exact fieldValues_eq_iff ha.1 hb.1

theorem fieldValues_split (ha : (Json.obj as).Keyed) (hb : (Json.obj bs).Keyed) (keys : List String) :
    fieldValues as = fieldValues bs ↔ (∀ k ∈ keys, fieldValues as k = fieldValues bs k) ∧
      sameExtra (without as keys) (without bs keys) = true := by
  rw [sameExtra_iff ⟨nodup_without ha.1 keys, ha.2.without keys⟩ ⟨nodup_without hb.1 keys, hb.2.without keys⟩]
  constructor
  · intro h
    refine ⟨fun k _ => congrFun h k, funext fun k => ?_⟩
    rw [fieldValues_without, fieldValues_without, h]
  · rintro ⟨hkeys, hrest⟩
    funext k
    by_cases hk : k ∈ keys
    · exact hkeys k hk
    · have := congrFun hrest k
      rwa [fieldValues_without, fieldValues_without, if_neg hk, if_neg hk] at this

def TypeName.written : TypeName → String
  | text => "text"
  | number => "number"
  | boolean => "boolean"
  | select => "select"
  | multiselect => "multiselect"
  | date => "date"
  | scale => "scale"

theorem TypeName.written_inj {a b : TypeName} (h : a.written = b.written) : a = b := by
  cases a <;> cases b <;> first
    | rfl
    | exact absurd h (by decide)

def TemplateFieldType.name : TemplateFieldType → TypeName
  | text => .text
  | number .. => .number
  | boolean => .boolean
  | select _ => .select
  | multiselect _ => .multiselect
  | date => .date
  | scale .. => .scale

/-- The keys that only this type reads. -/
def TypeName.ownKeys : TypeName → List String
  | text | boolean | date => []
  | select | multiselect => ["options"]
  | number | scale => ["min", "max"]

theorem TypeName.keys_eq (name : TypeName) : name.keys = ["key", "label", "type", "required"] ++ name.ownKeys := by
  cases name <;> rfl

/-- What was under them. -/
def TemplateFieldType.entry : TemplateFieldType → String → Option Json
  | select options, k | multiselect options, k => if k = "options" then some (.arr (options.map .str)) else none
  | number min max, k | scale min max, k =>
      if k = "min" then min.map .num else if k = "max" then max.map .num else none
  | _, _ => none

def TemplateField.entry (field : TemplateField) (k : String) : Option Json :=
  if k = "key" then some (.str field.key)
  else if k = "label" then some (.str field.label)
  else if k = "type" then some (.str field.type.name.written)
  else if k = "required" then some (.bool field.required)
  else field.type.entry k

/-- The field is what was read of this object. -/
def TemplateField.ReadFrom (field : TemplateField) (v : Json) : Prop :=
  ∃ fields, v = .obj fields ∧ (∀ k ∈ field.type.name.keys, lookup fields k = field.entry k) ∧
    field.extra = without fields field.type.name.keys

def TemplateSection.ReadFrom (sec : TemplateSection) (v : Json) : Prop :=
  ∃ fields items, v = .obj fields ∧ lookup fields "title" = some (.str sec.title) ∧
    lookup fields "fields" = some (.arr items) ∧ List.Forall₂ TemplateField.ReadFrom sec.fields items ∧
    sec.extra = without fields ["title", "fields"]

def TemplateSchema.ReadFrom (schema : TemplateSchema) (v : Json) : Prop :=
  ∃ fields items, v = .obj fields ∧ lookup fields "sections" = some (.arr items) ∧
    List.Forall₂ TemplateSection.ReadFrom schema.sections items ∧ schema.extra = without fields ["sections"]

/-! ## The shape check reads -/

variable {v : Json} {path : String} {e : DiagnosticError}

theorem asObject_eq_ok (h : asObject e v = .ok as) : v = .obj as := by
  cases v with
  | obj fields =>
    cases h
    rfl
  | _ => cases h

theorem stringAt_eq_ok {s : String} (h : stringAt as k e = .ok s) : lookup as k = some (.str s) := by
  unfold stringAt at h
  split at h
  · next hl =>
    cases h
    exact hl
  · cases h

theorem arrayAt_eq_ok {items : List Json} (h : arrayAt as k e = .ok items) : lookup as k = some (.arr items) := by
  unfold arrayAt at h
  split at h
  · next hl =>
    cases h
    exact hl
  · cases h

theorem boolAt_eq_ok {b : Bool} (h : boolAt as k e = .ok b) : lookup as k = some (.bool b) := by
  unfold boolAt at h
  split at h
  · next hl =>
    cases h
    exact hl
  · cases h

theorem boundAt_eq_ok {bound : Option ℚ} (h : boundAt as k e = .ok bound) : lookup as k = bound.map .num := by
  unfold boundAt at h
  split at h
  · next hl =>
    cases h
    exact hl
  · next hl =>
    cases h
    exact hl
  · cases h

theorem validateType_eq_ok {o : Option Json} {name : TypeName} (h : validateType path o = .ok name) :
    o = some (.str name.written) := by
  unfold validateType at h
  split at h <;> first
    | (cases h; rfl)
    | cases h

theorem forEachWith_read {A B T : Type} {f : T → Nat → A → Except DiagnosticError (T × B)} {R : B → A → Prop}
    (hf : ∀ state i a state' b, f state i a = .ok (state', b) → R b a) {items : List A} {state state' : T} {i : Nat}
    {read : List B} (h : forEachWith f state i items = .ok (state', read)) : List.Forall₂ R read items := by
  induction items generalizing state i read with
  | nil =>
    cases h
    exact .nil
  | cons a items ih =>
    unfold forEachWith at h
    simp only [bind_eq_ok] at h
    obtain ⟨⟨state₁, b⟩, hfirst, ⟨state₂, rest⟩, hrest, heq⟩ := h
    cases heq
    exact .cons (hf _ _ _ _ _ hfirst) (ih hrest)

theorem validateOption_eq_ok {s : String} {i : Nat} (h : validateOption path i v = .ok s) : v = .str s := by
  cases v with
  | str t =>
    unfold validateOption at h
    simp only [bind_eq_ok] at h
    obtain ⟨-, -, -, -, heq⟩ := h
    cases heq
    rfl
  | _ => cases h

theorem eq_map_of_forall₂ {texts : List String} {items : List Json}
    (h : List.Forall₂ (fun (s : String) v => v = Json.str s) texts items) : items = texts.map .str := by
  induction h with
  | nil => rfl
  | cons h _ ih => rw [h, List.map_cons, ← ih]

theorem validateOptions_eq_ok {type : String} {options : List String}
    (h : validateOptions path type as = .ok options) : lookup as "options" = some (.arr (options.map .str)) := by
  unfold validateOptions at h
  simp only [bind_eq_ok] at h
  obtain ⟨items, hitems, -, -, -, -, ⟨u, texts⟩, hall, heq⟩ := h
  cases heq
  have hread : List.Forall₂ (fun (s : String) v => v = Json.str s) texts items := by
    refine forEachWith_read ?_ hall
    intro _ i v _ s h
    obtain ⟨s', hs, heq⟩ := map_eq_ok.1 h
    cases heq
    exact validateOption_eq_ok hs
  rw [arrayAt_eq_ok hitems, eq_map_of_forall₂ hread]

theorem validateBounds_eq_ok {b : Option ℚ × Option ℚ} (h : validateBounds path as = .ok b) :
    lookup as "min" = b.1.map .num ∧ lookup as "max" = b.2.map .num := by
  unfold validateBounds at h
  simp only [bind_eq_ok] at h
  obtain ⟨min, hmin, max, hmax, -, -, heq⟩ := h
  cases heq
  exact ⟨boundAt_eq_ok hmin, boundAt_eq_ok hmax⟩

theorem readType_eq_ok {name : TypeName} {type : TemplateFieldType} (h : readType path as name = .ok type) :
    type.name = name ∧ ∀ k ∈ name.ownKeys, lookup as k = type.entry k := by
  cases name with
  | select =>
    obtain ⟨options, hoptions, rfl⟩ := map_eq_ok.1 h
    exact ⟨rfl, List.forall_mem_singleton.2 (validateOptions_eq_ok hoptions)⟩
  | multiselect =>
    obtain ⟨options, hoptions, rfl⟩ := map_eq_ok.1 h
    exact ⟨rfl, List.forall_mem_singleton.2 (validateOptions_eq_ok hoptions)⟩
  | number =>
    obtain ⟨b, hb, rfl⟩ := map_eq_ok.1 h
    obtain ⟨hmin, hmax⟩ := validateBounds_eq_ok hb
    exact ⟨rfl, List.forall_mem_cons.2 ⟨hmin, List.forall_mem_singleton.2 hmax⟩⟩
  | scale =>
    obtain ⟨b, hb, rfl⟩ := map_eq_ok.1 h
    obtain ⟨hmin, hmax⟩ := validateBounds_eq_ok hb
    exact ⟨rfl, List.forall_mem_cons.2 ⟨hmin, List.forall_mem_singleton.2 hmax⟩⟩
  | _ =>
    cases h
    exact ⟨rfl, fun k hk => absurd hk List.not_mem_nil⟩

theorem TemplateField.entry_own (field : TemplateField) (h : k ∈ field.type.name.ownKeys) :
    field.entry k = field.type.entry k := by
  have hnot : k ≠ "key" ∧ k ≠ "label" ∧ k ≠ "type" ∧ k ≠ "required" := by
    revert k
    cases field.type.name <;> decide
  unfold TemplateField.entry
  rw [if_neg hnot.1, if_neg hnot.2.1, if_neg hnot.2.2.1, if_neg hnot.2.2.2]

theorem validateField_reads {seen seen' : List String} {i : Nat} {field : TemplateField}
    (h : validateField path seen i v = .ok (seen', field)) : field.ReadFrom v := by
  unfold validateField at h
  simp only [bind_eq_ok] at h
  obtain ⟨obj, hobj, key, hkey, -, -, -, -, -, -, -, -, label, hlabel, -, -, -, -, name, hname, required, hrequired, type,
    htype, heq⟩ := h
  cases heq
  obtain ⟨rfl, hown⟩ := readType_eq_ok htype
  refine ⟨obj, asObject_eq_ok hobj, fun k hk => ?_, rfl⟩
  rw [TypeName.keys_eq] at hk
  rcases List.mem_append.1 hk with hk | hk
  · simp only [List.mem_cons, List.not_mem_nil, or_false] at hk
    rcases hk with rfl | rfl | rfl | rfl
    · exact stringAt_eq_ok hkey
    · exact stringAt_eq_ok hlabel
    · exact validateType_eq_ok hname
    · exact boolAt_eq_ok hrequired
  · rw [TemplateField.entry_own _ hk]
    exact hown k hk

theorem validateSection_reads {seen seen' : List String} {i : Nat} {sec : TemplateSection}
    (h : validateSection seen i v = .ok (seen', sec)) : sec.ReadFrom v := by
  unfold validateSection at h
  simp only [bind_eq_ok] at h
  obtain ⟨obj, hobj, title, htitle, -, -, -, -, items, hitems, -, -, -, -, ⟨seen₁, fields⟩, hfields, heq⟩ := h
  cases heq
  exact ⟨obj, items, asObject_eq_ok hobj, stringAt_eq_ok htitle, arrayAt_eq_ok hitems,
    forEachWith_read (R := TemplateField.ReadFrom) (fun _ _ _ _ _ h => validateField_reads h) hfields, rfl⟩

theorem validateTemplateSchemaShape_reads {schema : TemplateSchema}
    (h : validateTemplateSchemaShape v = .ok schema) : schema.ReadFrom v := by
  unfold validateTemplateSchemaShape at h
  simp only [bind_eq_ok] at h
  obtain ⟨obj, hobj, items, hitems, -, -, -, -, ⟨seen, sections⟩, hsections, heq⟩ := h
  cases heq
  exact ⟨obj, items, asObject_eq_ok hobj, arrayAt_eq_ok hitems,
    forEachWith_read (R := TemplateSection.ReadFrom) (fun _ _ _ _ _ h => validateSection_reads h) hsections, rfl⟩

/-! ## The same schema -/

theorem num_map_iff {a b : Option ℚ} : a.map (Json.value ∘ Json.num) = b.map (Json.value ∘ Json.num) ↔ a = b := by
  cases a <;> cases b <;> simp [Json.value]

theorem itemValues_str_iff {as bs : List String} : itemValues (as.map .str) = itemValues (bs.map .str) ↔ as = bs := by
  induction as generalizing bs with
  | nil => cases bs <;> simp [itemValues]
  | cons a as ih => cases bs <;> simp [itemValues, Json.value, ih]

theorem entry_iff {a b : TemplateFieldType} (hname : a.name = b.name) :
    (∀ k ∈ a.name.ownKeys, (a.entry k).map Json.value = (b.entry k).map Json.value) ↔ a = b := by
  cases a <;> cases b <;> first
    | (cases hname; done)
    | simp [TemplateFieldType.name, TypeName.ownKeys, TemplateFieldType.entry, Json.value, num_map_iff,
        itemValues_str_iff]

theorem TemplateField.same_iff {f g : TemplateField} {w : Json} (hf : f.ReadFrom v) (hg : g.ReadFrom w)
    (hv : v.Keyed) (hw : w.Keyed) : f.same g = true ↔ v.value = w.value := by
  obtain ⟨as, rfl, hreadf, hextraf⟩ := hf
  obtain ⟨bs, rfl, hreadg, hextrag⟩ := hg
  have hcommon : ∀ (name : TypeName) (k : String), k ∈ ["key", "label", "type", "required"] → k ∈ name.keys := by
    intro name k hk
    rw [name.keys_eq]
    exact List.mem_append_left _ hk
  by_cases hname : f.type.name = g.type.name
  · have hkeys : (∀ k ∈ f.type.name.keys, fieldValues as k = fieldValues bs k) ↔
        f.key = g.key ∧ f.label = g.label ∧ f.required = g.required ∧ f.type = g.type := by
      have hentries : (∀ k ∈ f.type.name.keys, fieldValues as k = fieldValues bs k) ↔
          ∀ k ∈ f.type.name.keys, (f.entry k).map Json.value = (g.entry k).map Json.value :=
        forall₂_congr fun k hk => by rw [fieldValues_eq, fieldValues_eq, hreadf k hk, hreadg k (hname ▸ hk)]
      have hown : (∀ k ∈ f.type.name.ownKeys, (f.entry k).map Json.value = (g.entry k).map Json.value) ↔
          f.type = g.type := by
        rw [← entry_iff hname]
        exact forall₂_congr fun k hk => by rw [f.entry_own hk, g.entry_own (hname ▸ hk)]
      rw [hentries, TypeName.keys_eq, List.forall_mem_append, hown]
      simp [TemplateField.entry, Json.value, hname]
      tauto
    rw [Json.value, Json.value, Value.obj.injEq, fieldValues_split hv hw f.type.name.keys, hkeys, ← hextraf, hname,
      ← hextrag]
    unfold TemplateField.same
    simp only [Bool.and_eq_true, beq_iff_eq]
    tauto
  · constructor
    · intro h
      unfold TemplateField.same at h
      simp only [Bool.and_eq_true, beq_iff_eq] at h
      exact absurd (congrArg TemplateFieldType.name h.1.1.2) hname
    · intro h
      rw [Json.value, Json.value, Value.obj.injEq] at h
      have htype := congrFun h "type"
      rw [fieldValues_eq, fieldValues_eq, hreadf "type" (hcommon _ _ (by simp)), hreadg "type" (hcommon _ _ (by simp))]
        at htype
      exact absurd (TypeName.written_inj (by simpa [TemplateField.entry, Json.value] using htype)) hname

theorem allSame_iff {A : Type} {same : A → A → Bool} {R : A → Json → Prop}
    (hsame : ∀ {a b v w}, R a v → R b w → v.Keyed → w.Keyed → (same a b = true ↔ v.value = w.value))
    {as bs : List A} {items others : List Json} (ha : List.Forall₂ R as items) (hb : List.Forall₂ R bs others)
    (hi : KeyedItems items) (ho : KeyedItems others) : allSame same as bs = true ↔ itemValues items = itemValues others := by
  induction ha generalizing bs others with
  | nil =>
    cases hb with
    | nil => simp [allSame]
    | cons => simp [allSame, itemValues]
  | cons hone _ ih =>
    cases hb with
    | nil => simp [allSame, itemValues]
    | cons hother hb =>
      rw [allSame, Bool.and_eq_true, itemValues, itemValues, List.cons.injEq, ih hb hi.2 ho.2,
        hsame hone hother hi.1 ho.1]

theorem TemplateSection.same_iff {a b : TemplateSection} {w : Json} (ha : a.ReadFrom v) (hb : b.ReadFrom w)
    (hv : v.Keyed) (hw : w.Keyed) : a.same b = true ↔ v.value = w.value := by
  obtain ⟨as, items, rfl, htitle, hitems, hfields, hextra⟩ := ha
  obtain ⟨bs, others, rfl, htitle', hothers, hfields', hextra'⟩ := hb
  have hkeys : (∀ k ∈ ["title", "fields"], fieldValues as k = fieldValues bs k) ↔
      a.title = b.title ∧ itemValues items = itemValues others := by
    simp [fieldValues_eq, htitle, hitems, htitle', hothers, Json.value]
  rw [Json.value, Json.value, Value.obj.injEq, fieldValues_split hv hw ["title", "fields"], hkeys, ← hextra, ← hextra',
    ← allSame_iff (R := TemplateField.ReadFrom) TemplateField.same_iff hfields hfields' (hv.2.lookup hitems) (hw.2.lookup hothers)]
  unfold TemplateSection.same
  rw [Bool.and_eq_true, Bool.and_eq_true, beq_iff_eq]

theorem TemplateSchema.same_iff {a b : TemplateSchema} {w : Json} (ha : a.ReadFrom v) (hb : b.ReadFrom w)
    (hv : v.Keyed) (hw : w.Keyed) : a.same b = true ↔ v.value = w.value := by
  obtain ⟨as, items, rfl, hitems, hsections, hextra⟩ := ha
  obtain ⟨bs, others, rfl, hothers, hsections', hextra'⟩ := hb
  have hkeys : (∀ k ∈ ["sections"], fieldValues as k = fieldValues bs k) ↔ itemValues items = itemValues others := by
    simp [fieldValues_eq, hitems, hothers, Json.value]
  rw [Json.value, Json.value, Value.obj.injEq, fieldValues_split hv hw ["sections"], hkeys, ← hextra, ← hextra',
    ← allSame_iff (R := TemplateSection.ReadFrom) TemplateSection.same_iff hsections hsections' (hv.2.lookup hitems) (hw.2.lookup hothers)]
  unfold TemplateSchema.same
  rw [Bool.and_eq_true]

/-- The schemas of two accepted texts are deep-equal exactly if the texts are the same JSON. -/
theorem same_iff_of_accepted {old new : Json} {a b : TemplateSchema} (ho : validateTemplateSchemaShape old = .ok a)
    (hn : validateTemplateSchemaShape new = .ok b) (hold : old.Keyed) (hnew : new.Keyed) :
    a.same b = true ↔ old.value = new.value :=
  TemplateSchema.same_iff (validateTemplateSchemaShape_reads ho) (validateTemplateSchemaShape_reads hn) hold hnew

/-! ## The version of a template -/

/-- What `JSON.parse` returns. -/
structure Parsed where
  json : Json
  keyed : json.Keyed

namespace DiagnosticTemplate

variable {template updated : DiagnosticTemplate} {patch : DiagnosticTemplateUpdatePatch}

theorem update_version_none (hpatch : patch.schema = none) (h : template.update patch = .ok updated) :
    updated.version = template.version := by
  unfold update at h
  simp only [bind_eq_ok, hpatch] at h
  obtain ⟨-, -, heq⟩ := h
  cases heq
  rfl

/-- The schema of the patch is stored, and counted if it is not the one that is there. -/
theorem update_schema {raw : Json} (hpatch : patch.schema = some raw) (h : template.update patch = .ok updated) :
    validateTemplateSchemaShape raw = .ok updated.schema ∧
      updated.version = if template.schema.same updated.schema then template.version else template.version + 1 := by
  unfold update at h
  simp only [bind_eq_ok, hpatch] at h
  obtain ⟨-, -, hschema⟩ := h
  unfold withSchema at hschema
  simp only [bind_eq_ok] at hschema
  obtain ⟨schema, hread, heq⟩ := hschema
  cases heq
  exact ⟨hread, rfl⟩

theorem update_version {old new : Parsed} (hold : validateTemplateSchemaShape old.json = .ok template.schema)
    (hpatch : patch.schema = some new.json) (h : template.update patch = .ok updated) :
    (updated.version = template.version + 1 ↔ old.json.value ≠ new.json.value) ∧
      (updated.version = template.version ↔ old.json.value = new.json.value) := by
  obtain ⟨hnew, hversion⟩ := update_schema hpatch h
  rw [hversion, ne_eq, ← same_iff_of_accepted hold hnew old.keyed new.keyed]
  cases template.schema.same updated.schema <;> simp

end DiagnosticTemplate

/-- **`deepEqualJson` is equality of JSON values**, so an equivalence, and a template counts the changes of its schema
as JSON. -/
theorem deepEqualJson_isEquality :
    (∀ a b : Parsed, deepEqualJson a.json b.json = true ↔ a.json.value = b.json.value) ∧
    (Equivalence fun a b : Parsed => deepEqualJson a.json b.json = true) ∧
    ∀ (template updated : DiagnosticTemplate) (patch : DiagnosticTemplateUpdatePatch) (old : Parsed),
      validateTemplateSchemaShape old.json = .ok template.schema → template.update patch = .ok updated →
        (patch.schema = none → updated.version = template.version) ∧
        ∀ new : Parsed, patch.schema = some new.json →
          (updated.version = template.version + 1 ↔ old.json.value ≠ new.json.value) ∧
            (updated.version = template.version ↔ old.json.value = new.json.value) := by
  have hiff : ∀ a b : Parsed, deepEqualJson a.json b.json = true ↔ a.json.value = b.json.value :=
    fun a b => deepEqualJson_iff a.keyed b.keyed
  refine ⟨hiff, ⟨?_, ?_, ?_⟩, ?_⟩
  · intro a
    exact (hiff a a).2 rfl
  · intro a b h
    exact (hiff b a).2 ((hiff a b).1 h).symm
  · intro a b c hab hbc
    exact (hiff a c).2 (((hiff a b).1 hab).trans ((hiff b c).1 hbc))
  · intro template updated patch old hold h
    exact ⟨fun hpatch => DiagnosticTemplate.update_version_none hpatch h,
      fun new hpatch => DiagnosticTemplate.update_version hold hpatch h⟩

end Diagnostics
