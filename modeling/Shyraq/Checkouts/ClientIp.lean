import Shyraq.Kernel.Digits

/-!
# The address of the customer

`bcc-client-ip`: the address that the bank is told.  Every trusted proxy appends the address of its peer to
`X-Forwarded-For`, so the one that the outermost of them has seen stands as many places from the end as there are
proxies, whatever the customer has written before it.  A header that is not there is read as one empty entry.
-/

namespace Checkouts

open Kernel

abbrev Text := List Char

/-! ## Addresses -/

def isOctet (s : Text) : Bool :=
  s.all Char.isDigit && decide (1 ≤ s.length) && decide (s.length ≤ 3) && (s.length == 1 || s.head? != some '0') &&
    decide (s.foldl (fun n c => 10 * n + (c.toNat - 48)) 0 ≤ 255)

def isIPv4 (s : Text) : Bool := (s.splitOn '.').length == 4 && (s.splitOn '.').all isOctet

def isHexDigit (c : Char) : Bool := c.isDigit || ('a' ≤ c && c ≤ 'f') || ('A' ≤ c && c ≤ 'F')

def isGroup (s : Text) : Bool := s.all isHexDigit && decide (1 ≤ s.length) && decide (s.length ≤ 4)

/-- How many groups the pieces stand for; an IPv4 address at the end is two. -/
def groups : List Text → Option Nat
  | [] => some 0
  | [last] => if isGroup last then some 1 else if isIPv4 last then some 2 else none
  | group :: rest => if isGroup group then (groups rest).map (1 + ·) else none

/-- What is before and after the first `::`. -/
def cutDouble : Text → Option (Text × Text)
  | ':' :: ':' :: rest => some ([], rest)
  | c :: rest => (cutDouble rest).map fun p => (c :: p.1, p.2)
  | [] => none

def pieces (s : Text) : List Text := if s = [] then [] else s.splitOn ':'

def isZoneChar (c : Char) : Bool := c.isAlphanum || c == '-' || c == '.' || c == ':'

/-- A zone is not empty. -/
def isIPv6 (s : Text) : Bool :=
  let address := s.takeWhile (· != '%')
  let zone := s.dropWhile (· != '%')
  (zone.isEmpty || (decide (2 ≤ zone.length) && (zone.drop 1).all isZoneChar)) &&
    match cutDouble address with
    | none => groups (pieces address) == some 8
    | some (left, right) =>
        (pieces left).all isGroup && (groups (pieces right)).any fun n => decide ((pieces left).length + n ≤ 7)

/-- `net.isIP`. -/
def isIP (s : Text) : Nat := if isIPv4 s then 4 else if isIPv6 s then 6 else 0

/-! ## The resolver -/

/-- `trim()`. -/
def trimmed (s : Text) : Text := ((s.dropWhile isWhitespace).reverse.dropWhile isWhitespace).reverse

def unspecified : Text := "0.0.0.0".toList

def mapped : Text := "::ffff:".toList

/-- Without brackets and zone. -/
def bare (value : Text) : Text :=
  let normalized := trimmed value
  let normalized := if normalized.head? = some '[' ∧ normalized.getLast? = some ']' then normalized.tail.dropLast else normalized
  normalized.takeWhile (· != '%')

def normalizeIp : Option Text → Text
  | none | some [] => unspecified
  | some value =>
      let normalized := bare value
      let ipv4 := normalized.drop mapped.length
      if mapped.isPrefixOf normalized && isIP ipv4 == 4 then ipv4
      else if isIP normalized ≠ 0 then normalized else unspecified

inductive HeaderValue
  | undefined
  | text (value : Text)
  | texts (values : List Text)

def headerValue : HeaderValue → Text
  | .undefined => []
  | .text value => value
  | .texts values => [','].intercalate values

def resolveBccClientIp (remoteAddress : Option Text) (forwardedFor : HeaderValue) (trustedProxyHops : Nat) : Text :=
  let remote := normalizeIp remoteAddress
  if trustedProxyHops = 0 then remote
  else
    let forwarded := (((headerValue forwardedFor).splitOn ',').map fun value => normalizeIp (some value)).filter
      fun value => isIP value != 0
    let chain := forwarded ++ [remote]
    let candidateIndex : Int := chain.length - trustedProxyHops - 1
    if 0 ≤ candidateIndex then chain.getD candidateIndex.toNat remote else remote

/-! ## Trusted proxies -/

def Blank (s : Text) : Prop := ∀ c ∈ s, isWhitespace c = true

/-- A proxy appends the address of its peer to the lines of the header: as a line of its own, or at the end of the last
one.  It may join lines before. -/
inductive Appends (peer : Text) : List Text → List Text → Prop
  | line (lines : List Text) : Appends peer lines (lines ++ [peer])
  | entry {sep : Text} (lines : List Text) (last : Text) : Blank sep →
      Appends peer (lines ++ [last]) (lines ++ [last ++ ',' :: (sep ++ peer)])
  | join {sep : Text} {lines' : List Text} (before after : List Text) (a b : Text) : Blank sep →
      Appends peer (before ++ (a ++ ',' :: (sep ++ b)) :: after) lines' → Appends peer (before ++ a :: b :: after) lines'

/-- Through the proxies with these peers, the outermost first. -/
inductive Passes : List Text → List Text → List Text → Prop
  | arrived (lines : List Text) : Passes [] lines lines
  | hop {peer : Text} {peers lines lines' lines'' : List Text} : Appends peer lines lines' → Passes peers lines' lines'' →
      Passes (peer :: peers) lines lines''

/-- What the server makes of the lines. -/
inductive Received : List Text → HeaderValue → Prop
  | absent : Received [] .undefined
  | joined {line : Text} (lines : List Text) : Received (line :: lines) (.text ([',', ' '].intercalate (line :: lines)))
  | separate (lines : List Text) : Received lines (.texts lines)

/-- The entries of a header; an empty one has none. -/
def entries (forwardedFor : HeaderValue) : List Text :=
  if headerValue forwardedFor = [] then [] else (headerValue forwardedFor).splitOn ','

/-- The peer of the outermost of `hops` trusted proxies, and the remote address where the header is too short. -/
def Unspoofed (remoteAddress : Option Text) (forwardedFor : HeaderValue) (hops : Nat) : Prop :=
  (∀ (clientLines lines peers : List Text) (peer : Text), Received lines forwardedFor →
    Passes (peer :: peers) clientLines lines → (peer :: peers).length = hops → (∀ p ∈ peer :: peers, isIP p ≠ 0) →
      resolveBccClientIp remoteAddress forwardedFor hops = normalizeIp (some peer)) ∧
  ((entries forwardedFor).length < hops →
    resolveBccClientIp remoteAddress forwardedFor hops = normalizeIp remoteAddress)

/-! ## An address has no comma -/

variable {s a b sep peer : Text}

theorem mem_splitOn {c x : Char} (h : c ∈ s) (hx : c ≠ x) : ∃ piece ∈ s.splitOn x, c ∈ piece := by
  have hs : [x].intercalate (s.splitOn x) = s := List.intercalate_splitOn x
  rw [← hs] at h
  exact (mem_intercalate h).resolve_left hx

theorem no_comma_of_v4 (h : isIPv4 s = true) : ',' ∉ s := by
  intro hc
  obtain ⟨piece, hpiece, hc⟩ := mem_splitOn hc (show ',' ≠ '.' by decide)
  unfold isIPv4 at h
  have hoctet := List.all_eq_true.1 (Bool.and_eq_true_iff.1 h).2 piece hpiece
  unfold isOctet at hoctet
  simp only [Bool.and_eq_true, List.all_eq_true] at hoctet
  exact absurd (hoctet.1.1.1.1 ',' hc) (by decide)

theorem no_comma_of_group (h : isGroup s = true) : ',' ∉ s := by
  intro hc
  unfold isGroup at h
  simp only [Bool.and_eq_true, List.all_eq_true] at h
  exact absurd (h.1.1 ',' hc) (by decide)

theorem no_comma_of_groups {l : List Text} {n : Nat} (h : groups l = some n) : ∀ piece ∈ l, ',' ∉ piece := by
  induction l generalizing n with
  | nil => simp
  | cons group rest ih =>
    cases rest with
    | nil =>
      intro piece hpiece
      rw [List.mem_singleton.1 hpiece]
      unfold groups at h
      split at h
      · next hg => exact no_comma_of_group hg
      · split at h
        · next hv => exact no_comma_of_v4 hv
        · cases h
    | cons next rest =>
      unfold groups at h
      split at h
      · next hg =>
        obtain ⟨m, hm, -⟩ := Option.map_eq_some_iff.1 h
        exact List.forall_mem_cons.2 ⟨no_comma_of_group hg, ih hm⟩
      · cases h

theorem no_comma_of_pieces (h : ∀ piece ∈ pieces s, ',' ∉ piece) : ',' ∉ s := by
  intro hc
  obtain ⟨piece, hpiece, hc⟩ := mem_splitOn hc (show ',' ≠ ':' by decide)
  refine h piece ?_ hc
  unfold pieces
  rwa [if_neg (List.ne_nil_of_mem (by assumption))]

theorem cutDouble_eq_some {left right : Text} (h : cutDouble s = some (left, right)) :
    s = left ++ ':' :: ':' :: right := by
  induction s using cutDouble.induct generalizing left with
  | case1 rest =>
    cases h
    rfl
  | case2 c rest hne ih =>
    rw [cutDouble] at h
    · obtain ⟨⟨left', right'⟩, hcut, heq⟩ := Option.map_eq_some_iff.1 h
      cases heq
      rw [ih hcut]
      rfl
    · exact hne
  | case3 => cases h

theorem no_comma_of_v6 (h : isIPv6 s = true) : ',' ∉ s := by
  unfold isIPv6 at h
  dsimp only at h
  obtain ⟨hzone, haddress⟩ := Bool.and_eq_true_iff.1 h
  intro hc
  rw [← List.takeWhile_append_dropWhile (p := (· != '%')) (l := s)] at hc
  rcases List.mem_append.1 hc with hc | hc
  · -- in the address
    split at haddress
    · exact no_comma_of_pieces (no_comma_of_groups (beq_iff_eq.1 haddress)) hc
    · next left right hcut =>
      obtain ⟨hleft, hright⟩ := Bool.and_eq_true_iff.1 haddress
      obtain ⟨n, hn, -⟩ := (Option.any_eq_true _ _).1 hright
      rw [cutDouble_eq_some hcut] at hc
      rcases List.mem_append.1 hc with hc | hc
      · exact no_comma_of_pieces (fun piece hp => no_comma_of_group (List.all_eq_true.1 hleft piece hp)) hc
      · simp only [List.mem_cons, Char.reduceEq, false_or] at hc
        exact no_comma_of_pieces (no_comma_of_groups hn) hc
  · -- in the zone
    cases hz : s.dropWhile (· != '%') with
    | nil =>
      rw [hz] at hc
      cases hc
    | cons c zone =>
      rw [hz] at hc hzone
      have hpercent : c = '%' := by
        have := List.head?_dropWhile_not (· != '%') s
        rw [hz] at this
        simpa using this
      simp only [List.isEmpty_cons, Bool.false_or, Bool.and_eq_true, List.drop_one, List.tail_cons,
        List.all_eq_true] at hzone
      rcases List.mem_cons.1 hc with hc | hc
      · rw [hpercent] at hc
        exact absurd hc (by decide)
      · exact absurd (hzone.2 ',' hc) (by decide)

theorem no_comma_of_isIP (h : isIP s ≠ 0) : ',' ∉ s := by
  unfold isIP at h
  split at h
  · next hv => exact no_comma_of_v4 hv
  · split at h
    · next hv => exact no_comma_of_v6 hv
    · exact absurd rfl h

/-! ## Normalising -/

theorem normalizeIp_some (value : Text) : normalizeIp (some value) =
    if mapped.isPrefixOf (bare value) && isIP ((bare value).drop mapped.length) == 4
      then (bare value).drop mapped.length else if isIP (bare value) ≠ 0 then bare value else unspecified := by
  cases value with
  | nil => rfl
  | cons c value => rfl

theorem isIP_normalizeIp (value : Option Text) : isIP (normalizeIp value) ≠ 0 := by
  have hzero : isIP unspecified ≠ 0 := by decide +kernel
  cases value with
  | none => exact hzero
  | some value =>
    rw [normalizeIp_some]
    split
    · next h =>
      rw [beq_iff_eq.1 (Bool.and_eq_true_iff.1 h).2]
      decide
    · split
      · next h => exact h
      · exact hzero

theorem normalizeIp_blank (h : Blank sep) (value : Text) : normalizeIp (some (sep ++ value)) = normalizeIp (some value) := by
  have hbare : bare (sep ++ value) = bare value := by
    unfold bare trimmed
    rw [List.dropWhile_append_of_pos h]
  rw [normalizeIp_some, normalizeIp_some, hbare]

/-- What `resolveBccClientIp` makes of a header. -/
def addresses (s : Text) : List Text := (s.splitOn ',').map fun value => normalizeIp (some value)

theorem addresses_blank (h : Blank sep) (b : Text) : addresses (sep ++ b) = addresses b := by
  have hsplit : (sep ++ b).splitOn ',' = (b.splitOn ',').modifyHead (sep ++ ·) := by
    induction sep with
    | nil =>
      rw [List.nil_append]
      cases b.splitOn ',' <;> rfl
    | cons c sep ih =>
      have hc : (c == ',') = false := by
        rw [beq_eq_false_iff_ne]
        rintro rfl
        exact absurd (h ',' List.mem_cons_self) (by decide)
      rw [List.cons_append, List.splitOn_cons_eq_if_modifyHead, if_neg (by simp [hc]),
        ih fun c' hc' => h c' (List.mem_cons_of_mem _ hc')]
      cases b.splitOn ',' <;> rfl
  unfold addresses
  rw [hsplit]
  cases b.splitOn ',' with
  | nil => rfl
  | cons piece pieces => simp [normalizeIp_blank h]

theorem addresses_join (h : Blank sep) (a b : Text) : addresses (a ++ ',' :: (sep ++ b)) = addresses a ++ addresses b := by
  have hsplit := List.splitOn_append_cons_self (a := ',') a (sep ++ b)
  rw [← addresses_blank h b]
  unfold addresses
  rw [hsplit, List.map_append]

theorem addresses_peer (h : isIP peer ≠ 0) : addresses peer = [normalizeIp (some peer)] := by
  unfold addresses
  rw [List.splitOn_eq_singleton (no_comma_of_isIP h)]
  rfl

theorem addresses_intercalate (h : Blank sep) (line : Text) (lines : List Text) :
    addresses ((',' :: sep).intercalate (line :: lines)) = (line :: lines).flatMap addresses := by
  induction lines generalizing line with
  | nil => simp
  | cons next lines ih =>
    rw [List.intercalate_cons_cons, List.append_assoc, List.cons_append, addresses_join h, ih]
    rfl

/-! ## Through the proxies -/

variable {lines : List Text}

theorem Appends.addresses {lines' : List Text} (h : Appends peer lines lines') (hp : isIP peer ≠ 0) :
    lines' ≠ [] ∧ lines'.flatMap addresses = lines.flatMap addresses ++ [normalizeIp (some peer)] := by
  induction h with
  | line lines =>
    refine ⟨by simp, ?_⟩
    rw [List.flatMap_append, List.flatMap_singleton, addresses_peer hp]
  | entry lines last hsep =>
    refine ⟨by simp, ?_⟩
    rw [List.flatMap_append, List.flatMap_append, List.flatMap_singleton, List.flatMap_singleton, addresses_join hsep,
      addresses_peer hp, List.append_assoc]
  | join before after a b hsep _ ih =>
    refine ⟨ih.1, ?_⟩
    rw [ih.2]
    simp [addresses_join hsep]

theorem Passes.addresses {peers lines' : List Text} (h : Passes peers lines lines') (hp : ∀ p ∈ peers, isIP p ≠ 0) :
    (lines ≠ [] ∨ peers ≠ [] → lines' ≠ []) ∧
      lines'.flatMap addresses = lines.flatMap addresses ++ peers.map fun p => normalizeIp (some p) := by
  induction h with
  | arrived lines => simp
  | hop happend _ ih =>
    obtain ⟨hne, haddresses⟩ := happend.addresses (hp _ List.mem_cons_self)
    obtain ⟨hrest, hall⟩ := ih fun p hp' => hp p (List.mem_cons_of_mem _ hp')
    refine ⟨fun _ => hrest (.inl hne), ?_⟩
    rw [hall, haddresses, List.append_assoc]
    rfl

theorem Received.addresses {forwardedFor : HeaderValue} (h : Received lines forwardedFor)
    (hne : lines ≠ []) : addresses (headerValue forwardedFor) = lines.flatMap addresses := by
  cases h with
  | absent => exact absurd rfl hne
  | joined lines => exact addresses_intercalate (List.forall_mem_singleton.2 (by decide)) _ lines
  | separate =>
    cases lines with
    | nil => exact absurd rfl hne
    | cons line lines => exact addresses_intercalate (fun _ h => absurd h List.not_mem_nil) line lines

/-! ## The address of the customer -/

variable {remoteAddress : Option Text} {forwardedFor : HeaderValue} {hops : Nat}

/-- The entry that stands `hops` places from the end, all of them addresses by now. -/
theorem resolve_eq (hpos : 0 < hops) : resolveBccClientIp remoteAddress forwardedFor hops =
    if hops ≤ (addresses (headerValue forwardedFor)).length
      then (addresses (headerValue forwardedFor)).getD ((addresses (headerValue forwardedFor)).length - hops) []
    else normalizeIp remoteAddress := by
  have hfilter : ((addresses (headerValue forwardedFor)).filter fun value => isIP value != 0) =
      addresses (headerValue forwardedFor) := by
    rw [List.filter_eq_self]
    intro value hvalue
    obtain ⟨piece, -, rfl⟩ := List.mem_map.1 hvalue
    exact bne_iff_ne.2 (isIP_normalizeIp _)
  unfold addresses at hfilter
  unfold resolveBccClientIp
  rw [if_neg (by omega)]
  dsimp only
  rw [hfilter, List.length_append, List.length_singleton]
  generalize hall : ((headerValue forwardedFor).splitOn ',').map (fun value => normalizeIp (some value)) = all
  have hall' : addresses (headerValue forwardedFor) = all := hall
  rw [hall']
  by_cases hle : hops ≤ all.length
  · have hindex : ((all.length + 1 : Nat) : Int) - hops - 1 = ((all.length - hops : Nat) : Int) := by omega
    rw [if_pos hle, hindex, if_pos (by omega), Int.toNat_natCast, List.getD_eq_getElem?_getD, List.getD_eq_getElem?_getD,
      List.getElem?_append_left (by omega), List.getElem?_eq_getElem (by omega)]
    rfl
  · rw [if_neg hle, if_neg (by omega)]

/-- Whatever the customer has written stands before what the proxies have. -/
theorem resolve_passed {clientLines peers : List Text} (hreceived : Received lines forwardedFor)
    (hpasses : Passes (peer :: peers) clientLines lines) (hhops : (peer :: peers).length = hops)
    (hp : ∀ p ∈ peer :: peers, isIP p ≠ 0) :
    resolveBccClientIp remoteAddress forwardedFor hops = normalizeIp (some peer) := by
  obtain ⟨hne, hlines⟩ := hpasses.addresses hp
  rw [resolve_eq (by rw [← hhops]; exact Nat.succ_pos _), hreceived.addresses (hne (.inr (List.cons_ne_nil _ _))), hlines,
    List.map_cons, List.length_append, List.length_cons, List.length_map]
  rw [List.length_cons] at hhops
  have hindex : (clientLines.flatMap addresses).length + (peers.length + 1) - hops =
      (clientLines.flatMap addresses).length := by omega
  rw [if_pos (by omega), hindex, List.getD_eq_getElem?_getD, List.getElem?_append_right (le_refl _), Nat.sub_self]
  rfl

theorem resolve_short (hpos : 0 < hops) (hshort : (entries forwardedFor).length < hops) :
    resolveBccClientIp remoteAddress forwardedFor hops =
      if headerValue forwardedFor = [] ∧ hops = 1 then unspecified else normalizeIp remoteAddress := by
  rw [resolve_eq hpos]
  unfold entries at hshort
  by_cases hempty : headerValue forwardedFor = []
  · rw [hempty]
    have hone : addresses [] = [unspecified] := rfl
    rw [hone]
    by_cases hhops : hops = 1
    · subst hhops
      rfl
    · rw [List.length_singleton, if_neg (by omega), if_neg (by tauto)]
  · rw [if_neg hempty] at hshort
    have hlen : (addresses (headerValue forwardedFor)).length < hops := by
      unfold addresses
      rwa [List.length_map]
    rw [if_neg (by omega), if_neg (by tauto)]

/-- **The customer cannot choose the address**, and a header that is too short is not used: except that, behind one
proxy, a header that is absent counts as an entry. -/
theorem unspoofed_iff_noEmptyHeader (hpos : 0 < hops) : Unspoofed remoteAddress forwardedFor hops ↔
    ¬(hops = 1 ∧ headerValue forwardedFor = [] ∧ normalizeIp remoteAddress ≠ unspecified) := by
  constructor
  · rintro ⟨-, hshort⟩ ⟨rfl, hempty, hremote⟩
    have hnone : (entries forwardedFor).length < 1 := by
      unfold entries
      rw [if_pos hempty]
      exact Nat.one_pos
    have hresolve := hshort hnone
    rw [resolve_short hpos hnone, if_pos ⟨hempty, rfl⟩] at hresolve
    exact hremote hresolve.symm
  · intro hcond
    refine ⟨fun _ _ _ _ hreceived hpasses hhops hp => resolve_passed hreceived hpasses hhops hp, fun hshort => ?_⟩
    rw [resolve_short hpos hshort]
    split
    · next h =>
      by_contra hremote
      exact hcond ⟨h.2, h.1, Ne.symm hremote⟩
    · rfl

theorem unspoofed_iff_noEmptyHeader_twoHops :
    Unspoofed (some "10.0.0.5".toList) (.text "203.0.113.10, 10.0.0.9".toList) 2 ↔
      ¬(2 = 1 ∧ headerValue (.text "203.0.113.10, 10.0.0.9".toList) = [] ∧
        normalizeIp (some "10.0.0.5".toList) ≠ unspecified) :=
  unspoofed_iff_noEmptyHeader (by decide)

/-- A customer who comes without any proxy, and without the header. -/
theorem noHeader_not_unspoofed : ¬Unspoofed (some "203.0.113.7".toList) .undefined 1 := by
  rintro ⟨-, hshort⟩
  have hresolve : resolveBccClientIp (some "203.0.113.7".toList) .undefined 1 = unspecified := by decide +kernel
  have hremote : normalizeIp (some "203.0.113.7".toList) ≠ unspecified := by decide +kernel
  exact hremote ((hshort Nat.one_pos).symm.trans hresolve)

end Checkouts
