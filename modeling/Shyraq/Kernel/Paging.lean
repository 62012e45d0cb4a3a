import Mathlib.Data.List.Basic
import Mathlib.Data.List.Nodup
import Mathlib.Data.List.Sort

/-!
# Keyset paging

A list endpoint answers a page and the cursor of its last row; the client asks again until no
cursor comes back.  `Serves` is what the endpoint does with a fixed table: the rows in order, cut
at the cursor, one more than fits to see whether there is a next page.

    Serves ask rows behind mark limit → rows.Nodup → the cursor cuts a suffix →
      (Follows ask none rows ↔ at every page edge the cursor lies between its row and the next one)
                                                                                 (Serves.follows_iff)
-/

namespace Kernel

variable {R C E : Type}

structure Page (R C : Type) where
  items : List R
  nextCursor : Option C

/-- The pages that `ask` answers from this cursor on, joined; no page is the last one unless its
`nextCursor` is null. -/
inductive Follows (ask : Option C → Except E (Page R C)) : Option C → List R → Prop
  | last {cursor items} : ask cursor = .ok ⟨items, none⟩ → Follows ask cursor items
  | next {cursor items c rest} : ask cursor = .ok ⟨items, some c⟩ → Follows ask (some c) rest →
      Follows ask cursor (items ++ rest)

/-- One row too many was asked for, to see whether there are more. -/
def shapePage (limit : Nat) (mark : R → C) (items : List R) : Page R C :=
  if limit < items.length then ⟨items.take limit, (items.take limit).getLast?.map mark⟩
  else ⟨items, none⟩

/-- `b` is the last row of a full page and `n` the row that follows it. -/
def PageEdge (limit : Nat) (rows : List R) (b n : R) : Prop :=
  ∃ i, limit ∣ i + 1 ∧ rows[i]? = some b ∧ rows[i + 1]? = some n

/-- `behind b n`: the row `n` is past the cursor of `b`. -/
structure Serves (ask : Option C → Except E (Page R C)) (rows : List R) (behind : R → R → Bool)
    (mark : R → C) (limit : Nat) : Prop where
  first : ask none = .ok (shapePage limit mark (rows.take (limit + 1)))
  later : ∀ b ∈ rows, ask (some (mark b)) = .ok (shapePage limit mark ((rows.filter (behind b)).take (limit + 1)))

/-- `WHERE` and `ORDER BY` in either order, when no two rows tie. -/
theorem filter_insertionSort {le : R → R → Prop} [DecidableRel le] [Std.Total le] [IsTrans R le] {l : List R}
    (hl : ∀ a ∈ l, ∀ b ∈ l, le a b → le b a → a = b) (p : R → Bool) :
    (l.insertionSort le).filter p = (l.filter p).insertionSort le := by
  have hleft : ((l.insertionSort le).filter p).Pairwise le := (List.pairwise_insertionSort le l).filter _
  refine List.Perm.eq_of_pairwise ?_ hleft (List.pairwise_insertionSort le _) ?_
  · intro a b ha hb
    have ha' := (List.mem_insertionSort le).1 (List.mem_filter.1 ha).1
    have hb' := (List.mem_filter.1 ((List.mem_insertionSort le).1 hb)).1
    exact hl a ha' b hb'
  · exact ((List.perm_insertionSort le l).filter p).trans (List.perm_insertionSort le _).symm

/-! ## One page -/

variable {limit : Nat} {mark : R → C} {rows tail : List R} {behind : R → R → Bool}
  {ask : Option C → Except E (Page R C)} {b n : R}

theorem shapePage_take (l : List R) : shapePage limit mark (l.take (limit + 1)) = shapePage limit mark l := by
  unfold shapePage
  by_cases h : limit < l.length
  · have h' : limit < (l.take (limit + 1)).length := by
      rw [List.length_take]
      omega
    rw [if_pos h, if_pos h', List.take_take]
    simp
  · rw [List.take_of_length_le (by omega)]

theorem shapePage_of_le {l : List R} (h : l.length ≤ limit) : shapePage limit mark l = ⟨l, none⟩ :=
  if_neg (by omega)

theorem shapePage_of_lt {l₁ l₂ : List R} (hl : (l₁ ++ [b]).length = limit) (hl₂ : l₂ ≠ []) :
    shapePage limit mark (l₁ ++ [b] ++ l₂) = ⟨l₁ ++ [b], some (mark b)⟩ := by
  have hpos : 0 < l₂.length := List.length_pos_iff.2 hl₂
  have hlen : limit < (l₁ ++ [b] ++ l₂).length := by
    rw [List.length_append]
    omega
  have htake : (l₁ ++ [b] ++ l₂).take limit = l₁ ++ [b] := List.take_left' hl
  unfold shapePage
  rw [if_pos hlen, htake, List.getLast?_append]
  simp

/-- A list that does not fit on a page, cut where the page ends. -/
theorem exists_cut (hlimit : 0 < limit) (h : limit < tail.length) :
    ∃ l₁ b n l₂, tail = l₁ ++ [b] ++ n :: l₂ ∧ (l₁ ++ [b]).length = limit := by
  have hdrop : tail.drop limit ≠ [] := by
    intro he
    rw [List.drop_eq_nil_iff] at he
    omega
  have htake : tail.take limit ≠ [] := by
    intro he
    rw [List.take_eq_nil_iff] at he
    rcases he with he | rfl
    · omega
    · simp at h
  obtain ⟨n, l₂, hn⟩ := List.exists_cons_of_ne_nil hdrop
  refine ⟨(tail.take limit).dropLast, (tail.take limit).getLast htake, n, l₂, ?_, ?_⟩
  · rw [List.dropLast_append_getLast, ← hn, List.take_append_drop]
  · rw [List.dropLast_append_getLast, List.length_take]
    omega

/-! ## A cursor cuts a suffix -/

/-- What is behind a cursor stays behind it further down the list. -/
def Cuts (behind : R → R → Bool) (rows : List R) : Prop :=
  ∀ b, rows.Pairwise fun r r' => behind b r = true → behind b r' = true

theorem filter_of_cut {l₁ l₂ : List R} {x : R} (hc : Cuts behind (l₁ ++ [x] ++ n :: l₂))
    (hx : behind b x = false) (hn : behind b n = true) : (l₁ ++ [x] ++ n :: l₂).filter (behind b) = n :: l₂ := by
  have hp := hc b
  rw [List.append_assoc, List.pairwise_append] at hp
  obtain ⟨-, hp₂, hp₁⟩ := hp
  rw [List.singleton_append, List.pairwise_cons, List.pairwise_cons] at hp₂
  have hfront : (l₁ ++ [x]).filter (behind b) = [] := by
    rw [List.filter_eq_nil_iff]
    intro r hr hb
    rcases List.mem_append.1 hr with hr | hr
    · have := hp₁ r hr x (by simp) hb
      rw [hx] at this
      cases this
    · rw [List.mem_singleton.1 hr, hx] at hb
      cases hb
  have hback : (n :: l₂).filter (behind b) = n :: l₂ := by
    rw [List.filter_eq_self]
    intro r hr
    rcases List.mem_cons.1 hr with rfl | hr
    · exact hn
    · exact hp₂.2.1 r hr hn
  rw [List.filter_append, hfront, hback, List.nil_append]

/-- If the rows past a cursor begin with `n`, the cursor lies right before it. -/
theorem cut_of_filter {l₁ l₂ rest : List R} {x : R} (hd : (l₁ ++ [x] ++ n :: l₂).Nodup)
    (hf : (l₁ ++ [x] ++ n :: l₂).filter (behind b) = n :: rest) : behind b x = false ∧ behind b n = true := by
  have hn : n ∈ (l₁ ++ [x] ++ n :: l₂).filter (behind b) := by
    rw [hf]
    exact List.mem_cons_self
  refine ⟨?_, (List.mem_filter.1 hn).2⟩
  by_contra hx
  rw [Bool.not_eq_false] at hx
  have hmem : x ∈ (l₁ ++ [x]).filter (behind b) := List.mem_filter.2 ⟨by simp, hx⟩
  obtain ⟨y, ys, hy⟩ := List.exists_cons_of_ne_nil (List.ne_nil_of_mem hmem)
  rw [List.filter_append, hy, List.cons_append] at hf
  have hyn : y = n := (List.cons.inj hf).1
  have hyfront : y ∈ l₁ ++ [x] := by
    have hy' : y ∈ (l₁ ++ [x]).filter (behind b) := by
      rw [hy]
      exact List.mem_cons_self
    exact (List.mem_filter.1 hy').1
  exact (List.nodup_append.1 hd).2.2 y hyfront n List.mem_cons_self hyn

/-! ## All pages -/

/-- The edges of what is left are edges of the whole. -/
theorem PageEdge.append {done : List R} (hd : limit ∣ done.length) (h : PageEdge limit tail b n) :
    PageEdge limit (done ++ tail) b n := by
  obtain ⟨i, hi, hb, hn⟩ := h
  refine ⟨done.length + i, ?_, ?_, ?_⟩
  · exact (Nat.add_assoc _ _ _).symm ▸ Nat.dvd_add hd hi
  · rw [List.getElem?_append_right (by omega)]
    simpa using hb
  · rw [List.getElem?_append_right (by omega)]
    simpa [Nat.add_assoc] using hn

/-- The edges after a full page. -/
theorem PageEdge.of_append {l₁ l₂ : List R} {x y : R} (hl : (l₁ ++ [x]).length = limit)
    (h : PageEdge limit (l₁ ++ [x] ++ y :: l₂) b n) : b = x ∧ n = y ∨ PageEdge limit (y :: l₂) b n := by
  obtain ⟨i, ⟨k, hk⟩, hb, hn⟩ := h
  by_cases hfirst : i + 1 = limit
  · left
    constructor
    · rw [List.getElem?_append_left (by omega), List.getElem?_append_right (by simp at hl; omega)] at hb
      simp at hl
      have : i - l₁.length = 0 := by omega
      rw [this] at hb
      simpa using hb.symm
    · rw [List.getElem?_append_right (by omega)] at hn
      have : i + 1 - (l₁ ++ [x]).length = 0 := by omega
      rw [this] at hn
      simpa using hn.symm
  · right
    have hge : limit ≤ i := by
      by_contra hlt
      have hk0 : 0 < k := by
        rcases Nat.eq_zero_or_pos k with rfl | h
        · omega
        · exact h
      have := Nat.le_mul_of_pos_right limit hk0
      omega
    refine ⟨i - limit, ⟨k - 1, ?_⟩, ?_, ?_⟩
    · rw [Nat.mul_sub, ← hk]
      omega
    · rw [List.getElem?_append_right (by omega), hl] at hb
      exact hb
    · rw [List.getElem?_append_right (by omega), hl] at hn
      have : i + 1 - limit = i - limit + 1 := by omega
      rw [this] at hn
      exact hn

theorem pageEdge_first {l₁ l₂ : List R} (hl : (l₁ ++ [b]).length = limit) :
    PageEdge limit (l₁ ++ [b] ++ n :: l₂) b n := by
  have hlen : l₁.length + 1 = limit := by simpa using hl
  refine ⟨l₁.length, ⟨1, by omega⟩, ?_, ?_⟩
  · rw [List.getElem?_append_left (by simp)]
    simp
  · rw [List.getElem?_append_right (by omega)]
    simp

/-- At every edge of `rows` the cursor of a page lies between its last row and the next one. -/
def EdgesCut (behind : R → R → Bool) (limit : Nat) (rows : List R) : Prop :=
  ∀ b n, PageEdge limit rows b n → behind b b = false ∧ behind b n = true

/-- A cursor that is compared as the rows are ordered cuts right. -/
theorem EdgesCut.of_pairwise (hrows : rows.Pairwise fun r r' => behind r r' = true)
    (hirrefl : ∀ r, behind r r = false) : EdgesCut behind limit rows := by
  rintro b n ⟨i, -, hb, hn⟩
  refine ⟨hirrefl b, ?_⟩
  obtain ⟨hi, rfl⟩ := List.getElem?_eq_some_iff.1 hb
  obtain ⟨hi', rfl⟩ := List.getElem?_eq_some_iff.1 hn
  exact List.pairwise_iff_getElem.1 hrows i (i + 1) hi hi' (Nat.lt_succ_self i)

/-- From a cursor after which `tail` is left, the client gets `tail`. -/
theorem Serves.follows_tail (S : Serves ask rows behind mark limit) (hlimit : 0 < limit) (hc : Cuts behind rows)
    (h : EdgesCut behind limit rows) {cursor : Option C} {done : List R} (hrows : rows = done ++ tail)
    (hd : limit ∣ done.length) (hask : ask cursor = .ok (shapePage limit mark (tail.take (limit + 1)))) :
    Follows ask cursor tail := by
  induction hm : tail.length using Nat.strong_induction_on generalizing tail done cursor with
  | _ m ih =>
  subst hm
  rw [shapePage_take] at hask
  by_cases hlen : limit < tail.length
  · obtain ⟨l₁, b, n, l₂, rfl, hl⟩ := exists_cut hlimit hlen
    rw [shapePage_of_lt hl (by simp)] at hask
    have hedge := h b n (hrows ▸ (pageEdge_first hl).append hd)
    have hfilter : rows.filter (behind b) = n :: l₂ := by
      have hsplit : rows = done ++ l₁ ++ [b] ++ n :: l₂ := by rw [hrows]; simp
      rw [hsplit] at hc ⊢
      exact filter_of_cut hc hedge.1 hedge.2
    have hb : b ∈ rows := by rw [hrows]; simp
    have hnext := S.later b hb
    rw [hfilter] at hnext
    refine .next hask ?_
    have hrows' : rows = (done ++ (l₁ ++ [b])) ++ n :: l₂ := by rw [hrows]; simp
    have hd' : limit ∣ (done ++ (l₁ ++ [b])).length := by
      rw [List.length_append, hl]
      exact Nat.dvd_add hd (Nat.dvd_refl limit)
    exact ih _ (by simp at hl ⊢; omega) hrows' hd' hnext rfl
  · rw [shapePage_of_le (by omega)] at hask
    exact .last hask

/-- A page that is not empty begins with the first row that was found. -/
theorem head_of_follows {l rest : List R} (hlimit : 0 < limit) {cursor : Option C}
    (hask : ask cursor = .ok (shapePage limit mark l)) (h : Follows ask cursor (n :: rest)) : ∃ l', l = n :: l' := by
  cases l with
  | nil =>
    rw [shapePage_of_le (Nat.zero_le _)] at hask
    generalize hall : n :: rest = all at h
    cases h with
    | last hlast =>
      rw [hask] at hlast
      cases hlast
      cases hall
    | next hnext _ =>
      rw [hask] at hnext
      cases hnext
  | cons y ys =>
    have hitems : ∃ zs c, shapePage limit mark (y :: ys) = ⟨y :: zs, c⟩ := by
      unfold shapePage
      obtain ⟨m, rfl⟩ := Nat.exists_eq_add_of_lt hlimit
      split
      · rw [Nat.zero_add, List.take_succ_cons]
        exact ⟨_, _, rfl⟩
      · exact ⟨_, _, rfl⟩
    obtain ⟨zs, c, hitems⟩ := hitems
    rw [hitems] at hask
    generalize hall : n :: rest = all at h
    cases h with
    | last hlast =>
      rw [hask] at hlast
      cases hlast
      cases hall
      exact ⟨ys, rfl⟩
    | next hnext _ =>
      rw [hask] at hnext
      cases hnext
      rw [List.cons_append] at hall
      cases hall
      exact ⟨ys, rfl⟩

/-- If the client gets `tail`, every edge of it is cut right. -/
theorem Serves.edgesCut_tail (S : Serves ask rows behind mark limit) (hlimit : 0 < limit) (hc : Cuts behind rows)
    (hd : rows.Nodup) {cursor : Option C} {done : List R} (hrows : rows = done ++ tail)
    (hask : ask cursor = .ok (shapePage limit mark (tail.take (limit + 1)))) (h : Follows ask cursor tail) :
    EdgesCut behind limit tail := by
  induction hm : tail.length using Nat.strong_induction_on generalizing tail done cursor with
  | _ m ih =>
  subst hm
  rw [shapePage_take] at hask
  by_cases hlen : limit < tail.length
  · obtain ⟨l₁, b, n, l₂, rfl, hl⟩ := exists_cut hlimit hlen
    rw [shapePage_of_lt hl (by simp)] at hask
    have hb : b ∈ rows := by rw [hrows]; simp
    have hlater := S.later b hb
    rw [shapePage_take] at hlater
    have hsplit : rows = done ++ l₁ ++ [b] ++ n :: l₂ := by rw [hrows]; simp
    have hrest : Follows ask (some (mark b)) (n :: l₂) := by
      generalize hall : l₁ ++ [b] ++ n :: l₂ = all at h
      cases h with
      | last hlast =>
        rw [hask] at hlast
        cases hlast
      | next hnext hrest =>
        rw [hask] at hnext
        cases hnext
        rw [List.append_cancel_left hall]
        exact hrest
    obtain ⟨found, hfound⟩ := head_of_follows hlimit hlater hrest
    have hedge : behind b b = false ∧ behind b n = true := by
      rw [hsplit] at hd hfound
      exact cut_of_filter hd hfound
    have hfilter : rows.filter (behind b) = n :: l₂ := by
      rw [hsplit] at hc ⊢
      exact filter_of_cut hc hedge.1 hedge.2
    have hrows' : rows = (done ++ (l₁ ++ [b])) ++ n :: l₂ := by rw [hrows]; simp
    have hask' : ask (some (mark b)) = .ok (shapePage limit mark ((n :: l₂).take (limit + 1))) := by
      rw [shapePage_take, ← hfilter]
      exact hlater
    have hbelow := ih _ (by simp at hl ⊢; omega) hrows' hask' hrest rfl
    intro x y hxy
    rcases hxy.of_append hl with ⟨rfl, rfl⟩ | hxy
    · exact hedge
    · exact hbelow x y hxy
  · rintro b n ⟨i, hi, -, hn⟩
    have := Nat.le_of_dvd (by omega) hi
    rw [List.getElem?_eq_none (by omega)] at hn
    cases hn

/-- The pages join to the whole listing exactly if no edge is cut wrong. -/
theorem Serves.follows_iff (S : Serves ask rows behind mark limit) (hlimit : 0 < limit) (hc : Cuts behind rows)
    (hd : rows.Nodup) : Follows ask none rows ↔ EdgesCut behind limit rows := by
  constructor
  · exact S.edgesCut_tail hlimit hc hd (List.nil_append rows).symm S.first
  · intro h
    exact S.follows_tail hlimit hc h (List.nil_append rows).symm (Nat.dvd_zero limit) S.first

end Kernel
