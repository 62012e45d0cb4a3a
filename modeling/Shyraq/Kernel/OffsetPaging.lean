import Shyraq.Kernel.Newest

/-!
# Paging by offset

`ORDER BY key DESC LIMIT n OFFSET m`, with the offset in the cursor.  Rows with one key come in any order, and in another
one in the next query.  The client gets every row once, whatever the orders are, exactly when no page ends between rows
with one key.

    ServesOffsets ask back encode known limit → rows.Nodup →
      ((∀ listings of rows, ∃ items, Collects … items ∧ items ~ rows) ↔
        after every page the offset is known and the key another one)                                     (collects_iff)
-/

namespace Kernel

variable {R K V C E : Type}

/-- What the pages hold from this question on, joined.  The `n`-th question is asked of what is there by then. -/
inductive Collects (ask : Nat → Option C → Except E (Page V C)) : Nat → Option C → List V → Prop
  | last {n cursor items} : ask n cursor = .ok ⟨items, none⟩ → Collects ask n cursor items
  | next {n cursor items c rest} : ask n cursor = .ok ⟨items, some c⟩ → Collects ask (n + 1) (some c) rest →
      Collects ask n cursor (items ++ rest)

/-- The rows as one query lists them. -/
structure Listing [LE K] (key : R → K) (rows listing : List R) : Prop where
  perm : listing.Perm rows
  sorted : listing.Pairwise fun a b => key b ≤ key a

def pageRows (limit offset : Nat) (listing : List R) : List R := (listing.drop offset).take limit

/-- Of a full page that does not reach the end. -/
def nextCursor (limit : Nat) (encode : Nat → C) (offset : Nat) (listing : List R) : Option C :=
  let length := (pageRows limit offset listing).length
  if length = limit ∧ offset + length < listing.length then some (encode (offset + length)) else none

/-- The page at an offset; an item shows its row. -/
def PageAt (back : V → R) (encode : Nat → C) (limit offset : Nat) (listing : List R) (r : Except E (Page V C)) : Prop :=
  ∃ items, r = .ok ⟨items, nextCursor limit encode offset listing⟩ ∧ items.map back = pageRows limit offset listing

structure ServesOffsets (ask : List R → Option C → Except E (Page V C)) (back : V → R) (encode : Nat → C)
    (known : Nat → Prop) (limit : Nat) : Prop where
  first : ∀ listing, PageAt back encode limit 0 listing (ask listing none)
  later : ∀ listing offset, known offset → PageAt back encode limit offset listing (ask listing (some (encode offset)))
  refused : ∀ listing offset, ¬known offset → ∃ e, ask listing (some (encode offset)) = .error e

/-! ## Where a listing may differ -/

variable [LinearOrder K] {key : R → K} {rows l l' : List R} {limit i : Nat} {b n : R}

theorem listing_newestFirst : Listing key rows (newestFirst key rows) :=
  ⟨perm_newestFirst, List.pairwise_insertionSort _ _⟩

/-- The keys are the same in all of them. -/
theorem Listing.map_key (h : Listing key rows l) : l.map key = (newestFirst key rows).map key := by
  have hl : (l.map key).Pairwise (· ≥ ·) := List.pairwise_map.2 h.sorted
  have hnewest : ((newestFirst key rows).map key).Pairwise (· ≥ ·) := List.pairwise_map.2 listing_newestFirst.sorted
  have hperm : (l.map key).Perm ((newestFirst key rows).map key) := (h.perm.trans perm_newestFirst.symm).map key
  exact hperm.eq_of_pairwise (fun _ _ _ _ hab hba => le_antisymm hba hab) hl hnewest

theorem Listing.key_of (h : Listing key rows l) (h' : Listing key rows l') (hb : l[i]? = some b) :
    ∃ b', l'[i]? = some b' ∧ key b' = key b := by
  have hkeys : l'.map key = l.map key := h'.map_key.trans h.map_key.symm
  have hi : (l'.map key)[i]? = some (key b) := by
    rw [hkeys, List.getElem?_map, hb]
    rfl
  rw [List.getElem?_map, Option.map_eq_some_iff] at hi
  exact hi

theorem split_at (hb : l[i]? = some b) (hn : l[i + 1]? = some n) : l = l.take i ++ b :: n :: l.drop (i + 2) := by
  obtain ⟨hi, rfl⟩ := List.getElem?_eq_some_iff.1 hb
  obtain ⟨hi', rfl⟩ := List.getElem?_eq_some_iff.1 hn
  rw [← List.drop_eq_getElem_cons hi', ← List.drop_eq_getElem_cons hi, List.take_append_drop]

/-- Where the key goes down, the rows in front are those with its keys. -/
theorem Listing.filter_eq_take (h : Listing key rows l) (hb : l[i]? = some b) (hn : l[i + 1]? = some n)
    (hlt : key n < key b) : l.filter (fun y => decide (key b ≤ key y)) = l.take (i + 1) := by
  have hsplit := split_at hb hn
  have hsorted := h.sorted
  rw [hsplit, List.pairwise_append, List.pairwise_cons, List.pairwise_cons] at hsorted
  obtain ⟨-, ⟨-, hback, -⟩, hfront⟩ := hsorted
  have hlen : (l.take i).length = i := by
    have := (List.getElem?_eq_some_iff.1 hb).1
    rw [List.length_take]
    omega
  have htake : l.take (i + 1) = l.take i ++ [b] := by
    rw [List.take_add_one, hb]
    rfl
  have hkept : (l.take i ++ [b]).filter (fun y => decide (key b ≤ key y)) = l.take i ++ [b] := by
    refine List.filter_eq_self.2 fun y hy => decide_eq_true ?_
    rcases List.mem_append.1 hy with hy | hy
    · exact hfront y hy b List.mem_cons_self
    · rw [List.mem_singleton.1 hy]
  have hgone : (n :: l.drop (i + 2)).filter (fun y => decide (key b ≤ key y)) = [] := by
    refine List.filter_eq_nil_iff.2 fun y hy hle => ?_
    have hyn : key y ≤ key n := by
      rcases List.mem_cons.1 hy with rfl | hy
      · exact le_rfl
      · exact hback y hy
    exact absurd (of_decide_eq_true hle) (not_le.2 (lt_of_le_of_lt hyn hlt))
  rw [htake]
  conv_lhs =>
    rw [hsplit, ← List.singleton_append, ← List.append_assoc, List.filter_append, hkept, hgone, List.append_nil]

/-- There all listings agree on the rows in front. -/
theorem Listing.take_perm (h : Listing key rows l) (h' : Listing key rows l') (hb : l[i]? = some b)
    (hn : l[i + 1]? = some n) (hne : key b ≠ key n) : (l.take (i + 1)).Perm (l'.take (i + 1)) := by
  have hlt : key n < key b := by
    have hsorted := h.sorted
    rw [split_at hb hn, List.pairwise_append, List.pairwise_cons] at hsorted
    exact lt_of_le_of_ne (hsorted.2.1.1 n List.mem_cons_self) hne.symm
  obtain ⟨b', hb', hkb⟩ := h.key_of h' hb
  obtain ⟨n', hn', hkn⟩ := h.key_of h' hn
  rw [← h.filter_eq_take hb hn hlt, ← h'.filter_eq_take hb' hn' (by rwa [hkb, hkn]), hkb]
  exact (h.perm.trans h'.perm.symm).filter _

/-- Rows with one key may change places. -/
theorem Listing.swap (h : Listing key rows l) (hb : l[i]? = some b) (hn : l[i + 1]? = some n) (hkey : key b = key n) :
    ∃ m, Listing key rows m ∧ m[i + 1]? = some b := by
  have hsplit := split_at hb hn
  have hlen : (l.take i).length = i := by
    have := (List.getElem?_eq_some_iff.1 hb).1
    rw [List.length_take]
    omega
  refine ⟨l.take i ++ n :: b :: l.drop (i + 2), ⟨?_, ?_⟩, ?_⟩
  · refine List.Perm.trans ?_ h.perm
    conv_rhs => rw [hsplit]
    exact (List.Perm.swap _ _ _).append_left _
  · have hmap : (l.map key).Pairwise (· ≥ ·) := List.pairwise_map.2 h.sorted
    rw [hsplit] at hmap
    have hswapped : ((l.take i ++ n :: b :: l.drop (i + 2)).map key).Pairwise (· ≥ ·) := by
      simpa only [List.map_append, List.map_cons, hkey] using hmap
    exact List.pairwise_map.1 hswapped
  · rw [List.getElem?_append_right (by omega), hlen, Nat.add_sub_cancel_left]
    rfl

/-! ## One page after the other -/

variable {ask : Nat → List R → Option C → Except E (Page V C)} {back : V → R} {encode : Nat → C} {known : Nat → Prop}
  {listings : Nat → List R}

/-- The cursor of the `m`-th page. -/
def cursorAt (encode : Nat → C) (limit : Nat) : Nat → Option C
  | 0 => none
  | m + 1 => some (encode ((m + 1) * limit))

/-- After `m` pages the offset is known, and the next row has another key than the last one. -/
def EdgesUntied (key : R → K) (rows : List R) (known : Nat → Prop) (limit : Nat) : Prop :=
  ∀ m b n, (newestFirst key rows)[m * limit - 1]? = some b → (newestFirst key rows)[m * limit]? = some n → 0 < m →
    known (m * limit) ∧ key b ≠ key n

theorem exists_edge (h : Listing key rows l) {p : Nat} (hp : 0 < p) (hlt : p < rows.length) :
    ∃ b n, l[p - 1]? = some b ∧ l[p - 1 + 1]? = some n := by
  have hlen := h.perm.length_eq
  have hb : l[p - 1]? = some l[p - 1] := List.getElem?_eq_getElem (by omega)
  have hn : l[p - 1 + 1]? = some l[p - 1 + 1] := List.getElem?_eq_getElem (by omega)
  exact ⟨_, _, hb, hn⟩

theorem pageAt_cursorAt (S : ∀ n, ServesOffsets (ask n) back encode known limit) {m : Nat}
    (hknown : 0 < m → known (m * limit)) :
    PageAt back encode limit (m * limit) (listings m) (ask m (listings m) (cursorAt encode limit m)) := by
  cases m with
  | zero =>
    rw [Nat.zero_mul]
    exact (S 0).first _
  | succ m => exact (S (m + 1)).later _ _ (hknown (Nat.succ_pos m))

theorem nextCursor_of_lt {m : Nat} (h : (m + 1) * limit < l.length) :
    nextCursor limit encode (m * limit) l = cursorAt encode limit (m + 1) := by
  have hmul : (m + 1) * limit = m * limit + limit := Nat.succ_mul m limit
  have hlen : (pageRows limit (m * limit) l).length = limit := by
    unfold pageRows
    rw [List.length_take, List.length_drop]
    omega
  unfold nextCursor
  dsimp only
  rw [hlen, if_pos ⟨rfl, by omega⟩, ← hmul]
  rfl

theorem nextCursor_of_le {m : Nat} (h : l.length ≤ (m + 1) * limit) : nextCursor limit encode (m * limit) l = none := by
  have hmul : (m + 1) * limit = m * limit + limit := Nat.succ_mul m limit
  refine if_neg ?_
  rintro ⟨hfull, hmore⟩
  rw [hfull] at hmore
  omega

theorem take_pageRows (m : Nat) (l : List R) :
    l.take (m * limit) ++ pageRows limit (m * limit) l = l.take ((m + 1) * limit) := by
  rw [Nat.succ_mul, List.take_add]
  rfl

/-- From the `m`-th page on the client gets what is missing. -/
theorem collects_rest (S : ∀ n, ServesOffsets (ask n) back encode known limit) (hlimit : 0 < limit)
    (h : ∀ n, Listing key rows (listings n)) (hedges : ∀ m, 0 < m → m * limit < rows.length → known (m * limit) ∧
      ((listings (m - 1)).take (m * limit)).Perm ((listings m).take (m * limit))) (m : Nat)
    (hm : m = 0 ∨ m * limit < rows.length) :
    ∃ rest, Collects (fun n => ask n (listings n)) m (cursorAt encode limit m) rest ∧
      ((listings m).take (m * limit) ++ rest.map back).Perm rows := by
  induction hk : rows.length - m * limit using Nat.strong_induction_on generalizing m with
  | _ k ih =>
  obtain ⟨items, hask, hitems⟩ : PageAt back encode limit (m * limit) (listings m) _ :=
    pageAt_cursorAt S fun hpos => (hedges m hpos (hm.resolve_left (by omega))).1
  have hlen : (listings m).length = rows.length := (h m).perm.length_eq
  have hmul : (m + 1) * limit = m * limit + limit := Nat.succ_mul m limit
  by_cases hmore : (m + 1) * limit < rows.length
  · obtain ⟨rest, hrest, hperm⟩ := ih (rows.length - (m + 1) * limit) (by omega) (m + 1) (.inr hmore) rfl
    rw [nextCursor_of_lt (hlen ▸ hmore)] at hask
    refine ⟨items ++ rest, .next hask hrest, ?_⟩
    have hfront := (hedges (m + 1) (Nat.succ_pos m) hmore).2
    rw [List.map_append, ← List.append_assoc, hitems, take_pageRows]
    exact (hfront.append_right _).trans hperm
  · rw [nextCursor_of_le (by omega)] at hask
    refine ⟨items, .last hask, ?_⟩
    rw [hitems, take_pageRows, List.take_of_length_le (by omega)]
    exact (h m).perm

/-- Nobody gets past an offset that is not known. -/
theorem known_of_collects (S : ∀ n, ServesOffsets (ask n) back encode known limit) {m : Nat} {rest : List V}
    (hc : Collects (fun n => ask n (listings n)) m (cursorAt encode limit m) rest) (hm : 0 < m) : known (m * limit) := by
  obtain ⟨m, rfl⟩ := Nat.exists_eq_succ_of_ne_zero (Nat.pos_iff_ne_zero.1 hm)
  by_contra hnot
  obtain ⟨e, he⟩ := (S (m + 1)).refused (listings (m + 1)) _ hnot
  cases hc with
  | last hask => cases he.symm.trans hask
  | next hask _ => cases he.symm.trans hask

/-- What comes begins with the page. -/
theorem pageRows_of_collects (S : ∀ n, ServesOffsets (ask n) back encode known limit) {m : Nat} {rest : List V}
    (hc : Collects (fun n => ask n (listings n)) m (cursorAt encode limit m) rest) :
    ∃ page later, rest = page ++ later ∧ page.map back = pageRows limit (m * limit) (listings m) ∧
      ((m + 1) * limit < (listings m).length →
        Collects (fun n => ask n (listings n)) (m + 1) (cursorAt encode limit (m + 1)) later) := by
  obtain ⟨page, hask, hitems⟩ : PageAt back encode limit (m * limit) (listings m) _ :=
    pageAt_cursorAt S (known_of_collects S hc)
  by_cases hmore : (m + 1) * limit < (listings m).length
  · rw [nextCursor_of_lt hmore] at hask
    cases hc with
    | last hlast => cases hask.symm.trans hlast
    | next hnext hlater =>
      cases hask.symm.trans hnext
      exact ⟨_, _, rfl, hitems, fun _ => hlater⟩
  · rw [nextCursor_of_le (not_lt.1 hmore)] at hask
    cases hc with
    | last hlast =>
      cases hask.symm.trans hlast
      exact ⟨_, [], (List.append_nil _).symm, hitems, fun h => absurd h hmore⟩
    | next hnext _ => cases hask.symm.trans hnext

/-- The client comes to every page. -/
theorem reaches (S : ∀ n, ServesOffsets (ask n) back encode known limit) {items : List V}
    (hc : Collects (fun n => ask n (listings n)) 0 none items) (m : Nat)
    (hm : ∀ k, k < m → (k + 1) * limit < (listings k).length) :
    ∃ front rest, items = front ++ rest ∧ Collects (fun n => ask n (listings n)) m (cursorAt encode limit m) rest := by
  induction m with
  | zero => exact ⟨[], items, rfl, hc⟩
  | succ m ih =>
    obtain ⟨front, rest, rfl, hrest⟩ := ih fun k hk => hm k (by omega)
    obtain ⟨page, later, rfl, -, hlater⟩ := pageRows_of_collects S hrest
    exact ⟨front ++ page, later, (List.append_assoc _ _ _).symm, hlater (hm m (Nat.lt_succ_self m))⟩

theorem mem_pageRows {p : Nat} (hi : l[i]? = some b) (hp : p ≤ i) (hlt : i < p + limit) : b ∈ pageRows limit p l := by
  refine List.mem_of_getElem? (i := i - p) ?_
  unfold pageRows
  rw [List.getElem?_take_of_lt (by omega), List.getElem?_drop, ← hi]
  congr 1
  omega

/-- If every order of the rows gives the client all of them, no page ends between rows with one key. -/
theorem edgesUntied_of_collects (S : ∀ n, ServesOffsets (ask n) back encode known limit) (hlimit : 0 < limit)
    (hnodup : rows.Nodup) (h : ∀ listings : Nat → List R, (∀ n, Listing key rows (listings n)) →
      ∃ items, Collects (fun n => ask n (listings n)) 0 none items ∧ (items.map back).Perm rows) :
    EdgesUntied key rows known limit := by
  intro m b n hb hn hpos
  obtain ⟨m, rfl⟩ : ∃ k, m = k + 1 := ⟨m - 1, by omega⟩
  have hmul : (m + 1) * limit = m * limit + limit := Nat.succ_mul m limit
  have hone : Listing key rows (newestFirst key rows) := listing_newestFirst
  have hlt : (m + 1) * limit < rows.length := by
    rw [← hone.perm.length_eq]
    exact (List.getElem?_eq_some_iff.1 hn).1
  have hreach : ∀ listings : Nat → List R, (∀ n, Listing key rows (listings n)) → ∀ k, k < m + 1 →
      (k + 1) * limit < (listings k).length := by
    intro listings hl k hk
    rw [(hl k).perm.length_eq]
    exact lt_of_le_of_lt (Nat.mul_le_mul_right limit hk) hlt
  constructor
  · obtain ⟨items, hc, -⟩ := h _ fun _ => hone
    obtain ⟨front, rest, -, hrest⟩ := reaches S hc (m + 1) (hreach _ fun _ => hone)
    exact known_of_collects S hrest (Nat.succ_pos m)
  · intro hkey
    have hedge : (m + 1) * limit - 1 + 1 = (m + 1) * limit := by omega
    rw [← hedge] at hn
    obtain ⟨other, hother, hagain⟩ := hone.swap hb hn hkey
    -- up to this edge the one order, from there on the other
    have hl : ∀ n, Listing key rows (if n < m + 1 then newestFirst key rows else other) := by
      intro n
      split
      · exact hone
      · exact hother
    obtain ⟨items, hc, hperm⟩ := h _ hl
    obtain ⟨front, rest, rfl, hrest⟩ := reaches S hc m fun k hk => hreach _ hl k (by omega)
    obtain ⟨page, later, rfl, hpage, hlater⟩ := pageRows_of_collects S hrest
    obtain ⟨page', last, rfl, hpage', -⟩ := pageRows_of_collects S (hlater (hreach _ hl m (Nat.lt_succ_self m)))
    have hinpage : b ∈ page.map back := by
      rw [hpage, if_pos (Nat.lt_succ_self m)]
      exact mem_pageRows hb (by omega) (by omega)
    have hinnext : b ∈ page'.map back := by
      rw [hpage', if_neg (Nat.lt_irrefl _)]
      exact mem_pageRows hagain (by omega) (by omega)
    have hall := hperm.nodup_iff.2 hnodup
    rw [List.map_append, List.map_append, List.map_append] at hall
    have hrest := (List.nodup_append.1 (List.nodup_append.1 hall).2.1).2.2
    exact hrest b hinpage b (List.mem_append_left _ hinnext) rfl

/-- Every row once, in whatever orders the rows come: exactly when no page ends between rows with one key. -/
theorem collects_iff (S : ∀ n, ServesOffsets (ask n) back encode known limit) (hlimit : 0 < limit) (hnodup : rows.Nodup) :
    (∀ listings : Nat → List R, (∀ n, Listing key rows (listings n)) →
      ∃ items, Collects (fun n => ask n (listings n)) 0 none items ∧ (items.map back).Perm rows) ↔
      EdgesUntied key rows known limit := by
  constructor
  · exact edgesUntied_of_collects S hlimit hnodup
  · intro huntied listings h
    have hone : Listing key rows (newestFirst key rows) := listing_newestFirst
    have hedges : ∀ m, 0 < m → m * limit < rows.length → known (m * limit) ∧
        ((listings (m - 1)).take (m * limit)).Perm ((listings m).take (m * limit)) := by
      intro m hpos hlt
      have hp : m * limit - 1 + 1 = m * limit := by
        have := Nat.mul_pos hpos hlimit
        omega
      obtain ⟨b, n, hb, hn⟩ := exists_edge hone (Nat.mul_pos hpos hlimit) hlt
      obtain ⟨hknown, hne⟩ := huntied m b n hb (hp ▸ hn) hpos
      obtain ⟨b', hb', hkb⟩ := hone.key_of (h (m - 1)) hb
      obtain ⟨n', hn', hkn⟩ := hone.key_of (h (m - 1)) hn
      have hperm := (h (m - 1)).take_perm (h m) hb' hn' (by rwa [hkb, hkn])
      rw [hp] at hperm
      exact ⟨hknown, hperm⟩
    obtain ⟨items, hc, hperm⟩ := collects_rest S hlimit h hedges 0 (.inl rfl)
    refine ⟨items, hc, ?_⟩
    rwa [Nat.zero_mul, List.take_zero, List.nil_append] at hperm

end Kernel
