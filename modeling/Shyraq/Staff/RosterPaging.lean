import Shyraq.Attendance.Entities
import Shyraq.Children.Entities
import Shyraq.Kernel.Base64
import Shyraq.Kernel.OffsetPaging

/-!
# The roster, page by page

`listChildrenPage` hands out the next offset as its cursor, into `ORDER BY created_at DESC`.  Children that came at the
same moment come in any order, and in another one with the next page, so no page may end between two of them.
-/

namespace StaffPortal

open Kernel Children

/-- A row of `children`. -/
structure ChildEntity where
  child : Child
  createdAt : Int
  deriving DecidableEq

/-- The rows of one kindergarten. -/
structure Roster where
  rows : List ChildEntity
  ids : (rows.map fun row => row.child.id).Nodup

structure ChildListFilters where
  status : ChildStatus
  currentGroupId : Option Nat

def ChildListFilters.matches (filters : ChildListFilters) (row : ChildEntity) : Bool :=
  row.child.status == filters.status && filters.currentGroupId.all fun gid => row.child.currentGroupId == some gid

/-- A group of the mentor, or the whole kindergarten. -/
def rosterFilters (currentGroupId : Option Nat) : ChildListFilters := ⟨.active, currentGroupId⟩

structure PageRequest where
  limit : Nat
  offset : Nat

structure PageResult where
  items : List ChildEntity
  total : Nat

/-- `ORDER BY c.created_at DESC`, `skip` and `take`; the rows that match as the database has put them. -/
def ChildRepository.list (listing : List ChildEntity) (page : PageRequest) : PageResult where
  items := pageRows page.limit page.offset listing
  total := listing.length

inductive StaffPortalError
  | invalidCursor
  deriving DecidableEq

/-! ## The cursor -/

/-- `Number.MAX_SAFE_INTEGER`. -/
def maxSafeInteger : Nat := 2 ^ 53 - 1

def encodeCursor (offset : Nat) : List Char := base64url.encode (utf8 (Nat.toDigits 10 offset))

/-- `/^(0|[1-9]\d*)$/` -/
def isOffset : List Char → Bool
  | [] => false
  | c :: cs => (c == '0' && cs.isEmpty) || (c != '0' && (c :: cs).all Char.isDigit)

def decodeCursor (cursor : List Char) : Except StaffPortalError Nat :=
  let decoded := utf8Decode (base64Decode cursor)
  if isOffset decoded then
    let offset := Nat.ofDigitChars 10 decoded 0
    if offset ≤ maxSafeInteger then .ok offset else .error .invalidCursor
  else .error .invalidCursor

/-! ## One page -/

/-- As the query is validated. -/
structure PageParams where
  limit : Option Nat
  positive : ∀ n ∈ limit, 0 < n

def defaultLimit : Nat := 20

def PageParams.size (page : PageParams) : Nat := page.limit.getD defaultLimit

structure RosterItem where
  child : ChildEntity
  dayStatus : Option Attendance.ChildIntradayStatus

/-- The last row of a child counts. -/
def statusByChild (statusRows : List Attendance.ChildDailyStatus) (childId : Nat) :
    Option Attendance.ChildIntradayStatus :=
  (statusRows.reverse.find? fun row => row.childId == childId).map Attendance.ChildDailyStatus.status

/-- `listing` and `statusRows` are what the two queries find. -/
def listChildrenPage (statusRows : List Attendance.ChildDailyStatus) (page : PageParams) (listing : List ChildEntity)
    (cursor : Option (List Char)) : Except StaffPortalError (Page RosterItem (List Char)) := do
  let limit := page.size
  let offset ← cursor.elim (.ok 0) decodeCursor
  let result := ChildRepository.list listing ⟨limit, offset⟩
  let nextOffset := offset + result.items.length
  let hasMore := result.items.length == limit && decide (nextOffset < result.total)
  pure
    { items := result.items.map fun row => ⟨row, statusByChild statusRows row.child.id⟩
      nextCursor := if hasMore then some (encodeCursor nextOffset) else none }

/-! ## Cursors are read as they were written -/

theorem head_toDigits {n : Nat} (h : 0 < n) : (Nat.toDigits 10 n).head? ≠ some '0' := by
  induction n using Nat.strong_induction_on with
  | _ n ih =>
  by_cases hlt : n < 10
  · rw [Nat.toDigits_of_lt_base hlt]
    interval_cases n <;> decide
  · rw [Nat.toDigits_of_base_le (by decide) (by omega), List.head?_append]
    have hne : Nat.toDigits 10 (n / 10) ≠ [] := Nat.toDigits_ne_nil
    obtain ⟨c, cs, hcs⟩ := List.exists_cons_of_ne_nil hne
    have := ih (n / 10) (by omega) (by omega)
    rw [hcs] at this ⊢
    exact this

theorem isOffset_toDigits (n : Nat) : isOffset (Nat.toDigits 10 n) = true := by
  by_cases h : n = 0
  · subst h
    rfl
  · have hhead := head_toDigits (Nat.pos_of_ne_zero h)
    have hdigits : (Nat.toDigits 10 n).all Char.isDigit = true :=
      List.all_eq_true.2 fun c hc => Nat.isDigit_of_mem_toDigits (by decide) (by decide) hc
    have hne : Nat.toDigits 10 n ≠ [] := Nat.toDigits_ne_nil
    obtain ⟨c, cs, hcs⟩ := List.exists_cons_of_ne_nil hne
    rw [hcs] at hhead hdigits ⊢
    have hc : (c != '0') = true := bne_iff_ne.2 fun hc => hhead (congrArg some hc)
    unfold isOffset
    dsimp only
    rw [hc, hdigits]
    exact Bool.or_true _

theorem decodeCursor_encodeCursor (n : Nat) :
    decodeCursor (encodeCursor n) = if n ≤ maxSafeInteger then .ok n else .error .invalidCursor := by
  unfold decodeCursor encodeCursor
  rw [base64Decode_encode base64url_known, utf8Decode_utf8]
  dsimp only
  rw [if_pos (isOffset_toDigits n), Nat.ofDigitChars_ten_toDigits]

/-! ## All pages -/

theorem PageParams.size_pos (page : PageParams) : 0 < page.size := by
  unfold PageParams.size
  cases h : page.limit with
  | none => decide
  | some n => exact page.positive n h

theorem pageAt_offset (statusRows : List Attendance.ChildDailyStatus) (page : PageParams) (listing : List ChildEntity)
    {cursor : Option (List Char)} {offset : Nat} (h : cursor.elim (.ok 0) decodeCursor = .ok offset) :
    PageAt RosterItem.child encodeCursor page.size offset listing (listChildrenPage statusRows page listing cursor) := by
  refine ⟨(pageRows page.size offset listing).map fun row => ⟨row, statusByChild statusRows row.child.id⟩, ?_, ?_⟩
  · unfold listChildrenPage
    rw [h]
    unfold nextCursor ChildRepository.list
    simp only [Bool.and_eq_true, beq_iff_eq, decide_eq_true_eq]
    rfl
  · rw [List.map_map]
    exact List.map_id _

theorem servesOffsets (statusRows : List Attendance.ChildDailyStatus) (page : PageParams) :
    ServesOffsets (listChildrenPage statusRows page) RosterItem.child encodeCursor (· ≤ maxSafeInteger) page.size where
  first listing := pageAt_offset statusRows page listing rfl
  later listing offset h := pageAt_offset statusRows page listing ((decodeCursor_encodeCursor offset).trans (if_pos h))
  refused listing offset h := by
    refine ⟨.invalidCursor, ?_⟩
    unfold listChildrenPage
    rw [show (some (encodeCursor offset)).elim (.ok 0) decodeCursor = Except.error StaffPortalError.invalidCursor from
      (decodeCursor_encodeCursor offset).trans (if_neg h)]
    rfl

/-- The active children of a group, or of the whole kindergarten. -/
def Roster.active (roster : Roster) (currentGroupId : Option Nat) : List ChildEntity :=
  roster.rows.filter (rosterFilters currentGroupId).matches

theorem Roster.nodup_active (roster : Roster) (currentGroupId : Option Nat) : (roster.active currentGroupId).Nodup :=
  (List.Nodup.of_map _ roster.ids).filter _

/-- Whatever the database makes of equal times, in each of its queries, the pages come to an end and show every active
child of the filter exactly once. -/
def ShowsAll (roster : Roster) (currentGroupId : Option Nat) (page : PageParams) : Prop :=
  ∀ (listings : Nat → List ChildEntity) (statusRows : Nat → List Attendance.ChildDailyStatus),
    (∀ n, Listing ChildEntity.createdAt (roster.active currentGroupId) (listings n)) →
      ∃ items, Collects (fun n => listChildrenPage (statusRows n) page (listings n)) 0 none items ∧
        (items.map RosterItem.child).Perm (roster.active currentGroupId)

theorem edgesUntied_of_showsAll {roster : Roster} {currentGroupId : Option Nat} {page : PageParams}
    (h : ShowsAll roster currentGroupId page) :
    EdgesUntied ChildEntity.createdAt (roster.active currentGroupId) (· ≤ maxSafeInteger) page.size :=
  edgesUntied_of_collects (fun _ => servesOffsets [] page) page.size_pos (roster.nodup_active currentGroupId)
    fun listings hl => h listings (fun _ => []) hl

/-- **The pages of the roster** show every child once exactly when no page ends between children with one `created_at`. -/
theorem showsAll_iff_edgesUntied (roster : Roster) (currentGroupId : Option Nat) (page : PageParams) :
    ShowsAll roster currentGroupId page ↔
      EdgesUntied ChildEntity.createdAt (roster.active currentGroupId) (· ≤ maxSafeInteger) page.size := by
  constructor
  · exact edgesUntied_of_showsAll
  · intro huntied listings statusRows hl
    have hserves := fun n => servesOffsets (statusRows n) page
    exact (collects_iff hserves page.size_pos (roster.nodup_active currentGroupId)).2 huntied listings hl

/-- Two children of one import. -/
def imported (id : Nat) (fullName : String) : ChildEntity :=
  ⟨⟨id, none, fullName, 18000, none, none, .active, some 1, none, none, none, none, none⟩, 1767225600⟩

def bulkImport : Roster := ⟨[imported 1 "Aidar", imported 2 "Dana"], by decide⟩

def onePerPage : PageParams := ⟨some 1, by decide⟩

/-- The first page ends between them. -/
theorem bulkImport_not_showsAll : ¬ShowsAll bulkImport (some 1) onePerPage := by
  intro h
  have hedge := edgesUntied_of_showsAll h 1 (imported 1 "Aidar") (imported 2 "Dana") (by decide) (by decide) Nat.one_pos
  exact hedge.2 rfl

end StaffPortal
