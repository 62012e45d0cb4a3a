import Shyraq.Attendance.Entities
import Shyraq.Kernel.Base64
import Shyraq.Kernel.DateText
import Shyraq.Kernel.Paging

/-!
# The pages of a timeline

The cursor of a page is the time and the id of its last entry, in the order of the query, so a page
goes on exactly where the page before it ended.

    TimelineRows entries → Follows (findByChild entries childId …) none (the listed entries)
                                                                              (findByChild_pages)
-/

namespace Attendance

open Kernel Transactions

structure ListTimelineEntriesFilter where
  from_ : Option Int
  to_ : Option Int
  limit : Option Int
  cursor : Option (List Char)

/-- A cursor that names no uuid: the query itself fails. -/
inductive QueryError
  | invalidUuid (text : List Char)

namespace TimelineEntryRepository

/-- Splits at `lastIndexOf`. -/
def splitLast (sep : Char) : List Char → Option (List Char × List Char)
  | [] => none
  | c :: cs =>
      match splitLast sep cs with
      | some (before, after) => some (c :: before, after)
      | none => if c = sep then some ([], cs) else none

def encodeCursor (entryTime : Int) (id : List Char) : List Char :=
  base64url.encode (utf8 (toISOString entryTime ++ '|' :: id))

def decodeCursor (cursor : List Char) : Option (Int × List Char) := do
  let (ts, id) ← splitLast '|' (utf8Decode (base64Decode cursor))
  let d ← parseDate ts
  if id = [] then none else some (d, id)

def clampLimit (raw : Option Int) : Nat :=
  match raw with
  | none => 50
  | some n => if n ≤ 0 then 50 else (min n 200).toNat

/-- `ORDER BY t.entry_time DESC, t.id DESC`. -/
def listed (a b : TimelineEntry) : Prop := b.entryTime < a.entryTime ∨ b.entryTime = a.entryTime ∧ b.id ≤ a.id

instance (a b : TimelineEntry) : Decidable (listed a b) := inferInstanceAs (Decidable (_ ∨ _))

/-- `t.entry_time < :ct OR (t.entry_time = :ct AND t.id < :cid2)`. -/
def before (ct : Int) (cid2 : Nat) (t : TimelineEntry) : Bool :=
  decide (t.entryTime < ct) || (t.entryTime == ct && decide (t.id < cid2))

def inRange (childId : Nat) (from_ to_ : Option Int) (t : TimelineEntry) : Bool :=
  t.childId == childId && from_.all (fun f => decide (f ≤ t.entryTime)) &&
    to_.all (fun u => decide (t.entryTime < u))

def mark (last : TimelineEntry) : List Char := encodeCursor last.entryTime (uuidText last.id)

def findByChild (entries : List TimelineEntry) (childId : Nat) (opts : ListTimelineEntriesFilter) :
    Except QueryError (Page TimelineEntry (List Char)) :=
  let limit := clampLimit opts.limit
  let matching := entries.filter (inRange childId opts.from_ opts.to_)
  let decoded := (opts.cursor.filter fun c => c ≠ []).bind decodeCursor
  match decoded with
  | none => .ok (shapePage limit mark ((matching.insertionSort listed).take (limit + 1)))
  | some (ct, id) =>
      match readUuid id with
      | none => .error (.invalidUuid id)
      | some cid2 => .ok (shapePage limit mark (((matching.filter (before ct cid2)).insertionSort listed).take (limit + 1)))

end TimelineEntryRepository

open TimelineEntryRepository

/-! ## The cursor -/

theorem splitLast_append {sep : Char} (front : List Char) {back : List Char} (h : sep ∉ back) :
    splitLast sep (front ++ sep :: back) = some (front, back) := by
  have hback : ∀ cs : List Char, sep ∉ cs → splitLast sep cs = none := by
    intro cs
    induction cs with
    | nil => exact fun _ => rfl
    | cons c cs ih =>
      intro hc
      rw [List.mem_cons, not_or] at hc
      unfold splitLast
      rw [ih hc.2]
      exact if_neg (Ne.symm hc.1)
  induction front with
  | nil =>
    rw [List.nil_append]
    unfold splitLast
    rw [hback back h]
    exact if_pos rfl
  | cons c cs ih =>
    rw [List.cons_append]
    unfold splitLast
    rw [ih]

theorem decodeCursor_encodeCursor {entryTime : Int} {id : List Char} (hmin : -maxTime ≤ entryTime)
    (hmax : entryTime ≤ maxTime) (hid : id ≠ []) (hbar : '|' ∉ id) :
    decodeCursor (encodeCursor entryTime id) = some (entryTime, id) := by
  unfold decodeCursor encodeCursor
  rw [base64Decode_encode base64url_known, utf8Decode_utf8, splitLast_append _ hbar]
  simp only [Option.bind_eq_bind, Option.bind_some, parseDate_toISOString hmin hmax]
  exact if_neg hid

theorem uuidText_ne_nil (n : Nat) : uuidText n ≠ [] := by
  unfold uuidText padStart
  exact List.cons_ne_nil _ _

theorem bar_not_mem_uuidText (n : Nat) : '|' ∉ uuidText n := by
  intro h
  have hdigits : ∀ d < 16, '|' ≠ digitChar d := by decide
  rcases mem_uuidText h with h | ⟨d, hd, h⟩
  · exact absurd h (by decide)
  · exact hdigits d hd h

theorem encodeCursor_ne_nil (entryTime : Int) (id : List Char) : encodeCursor entryTime id ≠ [] :=
  encode_ne_nil base64url_known (List.append_ne_nil_of_right_ne_nil _ (List.cons_ne_nil _ _))

/-! ## All pages -/

/-- Rows of a table whose key is a uuid and whose times are those of a `Date`. -/
structure TimelineRows (entries : List TimelineEntry) : Prop where
  ids : Table.Unique entries
  uuids : ∀ e ∈ entries, e.id < uuidBound
  times : ∀ e ∈ entries, -maxTime ≤ e.entryTime ∧ e.entryTime ≤ maxTime

/-- The entry `n` is past the cursor of `b`. -/
def behind (b n : TimelineEntry) : Bool := before b.entryTime b.id n

theorem behind_iff {b n : TimelineEntry} :
    behind b n = true ↔ n.entryTime < b.entryTime ∨ n.entryTime = b.entryTime ∧ n.id < b.id := by
  unfold behind before
  simp

theorem behind_irrefl (b : TimelineEntry) : behind b b = false := by
  rw [Bool.eq_false_iff, ne_eq, behind_iff]
  omega

theorem behind_trans {b n m : TimelineEntry} (h : behind b n = true) (h' : behind n m = true) :
    behind b m = true := by
  rw [behind_iff] at h h' ⊢
  omega

instance : Std.Total listed where
  total a b := by
    unfold listed
    omega

instance : IsTrans TimelineEntry listed where
  trans a b c := by
    unfold listed
    omega

variable {entries : List TimelineEntry} {childId : Nat} {from_ to_ limit : Option Int}

/-- Every matching entry, in the order of the query. -/
def listing (entries : List TimelineEntry) (childId : Nat) (from_ to_ : Option Int) : List TimelineEntry :=
  (entries.filter (inRange childId from_ to_)).insertionSort listed

theorem mem_listing {e : TimelineEntry} :
    e ∈ listing entries childId from_ to_ ↔ e ∈ entries ∧ inRange childId from_ to_ e = true := by
  unfold listing
  rw [List.mem_insertionSort, List.mem_filter]

theorem eq_of_listed (h : TimelineRows entries) {a b : TimelineEntry} (ha : a ∈ entries) (hb : b ∈ entries)
    (hab : listed a b) (hba : listed b a) : a = b := by
  have hid : a.id = b.id := by
    unfold listed at hab hba
    omega
  have hfind := Table.find_of_mem h.ids ha
  have hfind' := Table.find_of_mem h.ids hb
  have hrow : (Row.id a : Nat) = Row.id b := hid
  rw [hrow, hfind'] at hfind
  exact (Option.some.inj hfind).symm

theorem nodup_listing (h : TimelineRows entries) : (listing entries childId from_ to_).Nodup := by
  have hall : entries.Nodup := List.Nodup.of_map _ h.ids
  exact (List.perm_insertionSort _ _).nodup_iff.2 (hall.filter _)

theorem pairwise_listing (h : TimelineRows entries) :
    (listing entries childId from_ to_).Pairwise fun b n => behind b n = true := by
  have hsorted : (listing entries childId from_ to_).Pairwise listed := List.pairwise_insertionSort _ _
  refine (hsorted.and (nodup_listing h)).imp_of_mem fun {b n} hb hn hbn => ?_
  rw [behind_iff]
  by_contra hnot
  have hnb : listed n b := by
    have hl := hbn.1
    unfold listed at hl ⊢
    omega
  exact hbn.2 (eq_of_listed h (mem_listing.1 hb).1 (mem_listing.1 hn).1 hbn.1 hnb)

theorem decoded_mark (h : TimelineRows entries) {b : TimelineEntry} (hb : b ∈ entries) :
    ((some (mark b)).filter fun c => c ≠ []).bind decodeCursor = some (b.entryTime, uuidText b.id) := by
  have hne : decide (mark b ≠ []) = true := decide_eq_true (encodeCursor_ne_nil b.entryTime (uuidText b.id))
  rw [Option.filter_some, if_pos hne, Option.bind_some]
  obtain ⟨hmin, hmax⟩ := h.times b hb
  exact decodeCursor_encodeCursor hmin hmax (uuidText_ne_nil b.id) (bar_not_mem_uuidText b.id)

theorem findByChild_serves (h : TimelineRows entries) :
    Serves (fun cursor => findByChild entries childId ⟨from_, to_, limit, cursor⟩)
      (listing entries childId from_ to_) behind mark (clampLimit limit) where
  first := rfl
  later b hb := by
    have hmem := (mem_listing.1 hb).1
    have htie : ∀ x ∈ entries.filter (inRange childId from_ to_), ∀ y ∈ entries.filter (inRange childId from_ to_),
        listed x y → listed y x → x = y :=
      fun x hx y hy => eq_of_listed h (List.mem_filter.1 hx).1 (List.mem_filter.1 hy).1
    unfold findByChild
    dsimp only
    rw [decoded_mark h hmem]
    dsimp only
    rw [readUuid_uuidText (h.uuids b hmem)]
    dsimp only
    unfold listing
    rw [filter_insertionSort htie]
    rfl

theorem clampLimit_pos (raw : Option Int) : 0 < clampLimit raw := by
  unfold clampLimit
  cases raw with
  | none => decide
  | some n =>
    dsimp only
    split
    · decide
    · omega

theorem findByChild_follows (h : TimelineRows entries) (childId : Nat) (from_ to_ limit : Option Int) :
    Follows (fun cursor => findByChild entries childId ⟨from_, to_, limit, cursor⟩) none
      (listing entries childId from_ to_) := by
  have hrows : (listing entries childId from_ to_).Pairwise fun b n => behind b n = true := pairwise_listing h
  have hcuts : Cuts behind (listing entries childId from_ to_) :=
    fun b => hrows.imp fun hn hb => behind_trans hb hn
  exact ((findByChild_serves h).follows_iff (clampLimit_pos limit) hcuts (nodup_listing h)).2
    (.of_pairwise hrows behind_irrefl)

/-- From the first page to the last: every matching entry once, the latest first; and the cursor says
where a page ended. -/
theorem timeline_pages (h : TimelineRows entries) (childId : Nat) (from_ to_ limit : Option Int) :
    (∃ pages, Follows (fun cursor => findByChild entries childId ⟨from_, to_, limit, cursor⟩) none pages ∧
      pages.Perm (entries.filter (inRange childId from_ to_)) ∧
      pages.Pairwise fun b n => n.entryTime < b.entryTime ∨ n.entryTime = b.entryTime ∧ n.id < b.id) ∧
    ∀ entryTime id, -maxTime ≤ entryTime → entryTime ≤ maxTime →
      decodeCursor (encodeCursor entryTime (uuidText id)) = some (entryTime, uuidText id) := by
  constructor
  · have hrows : (listing entries childId from_ to_).Pairwise fun b n => behind b n = true := pairwise_listing h
    exact ⟨_, findByChild_follows h childId from_ to_ limit, List.perm_insertionSort _ _,
      hrows.imp fun hbn => behind_iff.1 hbn⟩
  · intro entryTime id hmin hmax
    exact decodeCursor_encodeCursor hmin hmax (uuidText_ne_nil id) (bar_not_mem_uuidText id)

/-- Three entries of one instant, one on a page. -/
def sameInstant : List TimelineEntry :=
  [⟨7, 1, .note, none, none, none, none, none, 1752393600000, none⟩,
    ⟨9, 1, .note, none, none, none, none, none, 1752393600000, none⟩,
    ⟨8, 1, .note, none, none, none, none, none, 1752393600000, none⟩]

theorem timeline_pages_sameInstant :
    (∃ pages, Follows (fun cursor => findByChild sameInstant 1 ⟨none, none, some 1, cursor⟩) none pages ∧
      pages.Perm (sameInstant.filter (inRange 1 none none)) ∧
      pages.Pairwise fun b n => n.entryTime < b.entryTime ∨ n.entryTime = b.entryTime ∧ n.id < b.id) ∧
    ∀ entryTime id, -maxTime ≤ entryTime → entryTime ≤ maxTime →
      decodeCursor (encodeCursor entryTime (uuidText id)) = some (entryTime, uuidText id) :=
  timeline_pages ⟨by unfold Table.Unique; decide, by decide, by decide⟩ 1 none none (some 1)

end Attendance
