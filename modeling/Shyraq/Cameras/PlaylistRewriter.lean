import Mathlib.Data.List.TakeWhile
import Shyraq.Kernel.QueryString
import Shyraq.Kernel.Digits

/-!
# The playlist rewriter

`hls-playlist.rewriter`: the playlists of the media gateway, line by line, with its URIs turned into our own.  The
allow-list is an object, so the names that every object inherits are found in it too.
-/

namespace Cameras

open Kernel

structure RewriteOptions where
  publicBase : List Char
  token : List Char

/-- The four entries of `URI_ALLOW_LIST`. -/
def ownEntry (name : List Char) : Option (List Char) :=
  if name = "playlist.m3u8".toList then some "media.m3u8".toList
  else if name = "init.mp4".toList then some "init.mp4".toList
  else if name = "segment.m4s".toList then some "segment.m4s".toList
  else if name = "segment.ts".toList then some "segment.ts".toList
  else none

/-- What is inherited from `Object.prototype`, as a template string shows it. -/
def inheritedEntry (name : List Char) : Option (List Char) :=
  if name = "constructor".toList then some "function Object() \x7b [native code] \x7d".toList
  else if name = "__proto__".toList then some "[object Object]".toList
  else if ["hasOwnProperty".toList, "isPrototypeOf".toList, "propertyIsEnumerable".toList, "toLocaleString".toList,
      "toString".toList, "valueOf".toList, "__defineGetter__".toList, "__defineSetter__".toList,
      "__lookupGetter__".toList, "__lookupSetter__".toList].contains name then
    some ("function ".toList ++ name ++ "() \x7b [native code] \x7d".toList)
  else none

/-- `URI_ALLOW_LIST[name]`. -/
def uriAllowList (name : List Char) : Option (List Char) := (ownEntry name).or (inheritedEntry name)

/-- `uri.replace(/^hls\//, '')`. -/
def withoutPrefix (uri : List Char) : List Char :=
  if "hls/".toList.isPrefixOf uri then uri.drop 4 else uri

/-- The two parts of `splitOnce(withoutPrefix, '?')`. -/
def nameOf (uri : List Char) : List Char := (withoutPrefix uri).takeWhile (· != '?')
def queryOf (uri : List Char) : List Char := ((withoutPrefix uri).dropWhile (· != '?')).drop 1

/-- The parameters that are passed through, and the token. -/
def passthrough (uri token : List Char) : List (List Char × List Char) :=
  (["id".toList, ['n']].filterMap fun key => (paramOf key (parseQuery (queryOf uri))).map fun value => (key, value)) ++
    [(['t'], token)]

/-- Where a file is served. -/
def publicPath (publicBase mapped : List Char) : List Char := publicBase ++ ("/hls/".toList ++ mapped)

def rewriteUri (opts : RewriteOptions) (uri : List Char) : Option (List Char) :=
  (uriAllowList (nameOf uri)).map fun mapped =>
    publicPath opts.publicBase mapped ++ '?' :: formatQuery (passthrough uri opts.token)

/-! ## Lines -/

/-- `body.split(/\r?\n/)`. -/
def splitLines : List Char → List (List Char)
  | [] => [[]]
  | '\n' :: text => [] :: splitLines text
  | '\r' :: '\n' :: text => [] :: splitLines text
  | c :: text => (splitLines text).modifyHead (c :: ·)

/-- `rawLine.trim()`. -/
def trimLine (raw : List Char) : List Char :=
  ((raw.dropWhile isWhitespace).reverse.dropWhile isWhitespace).reverse

/-- A character that `.` matches. -/
def isDot (c : Char) : Bool := !([10, 13, 8232, 8233].contains c.toNat)

def marker : List Char := "URI=\"".toList

/-- `URI="([^"]+)(".*)$` at the beginning. -/
def matchHere (text : List Char) : Option (List Char × List Char) :=
  if marker.isPrefixOf text then
    let uri := (text.drop 5).takeWhile (· != '"')
    let post := (text.drop 5).dropWhile (· != '"')
    if !uri.isEmpty && !post.isEmpty && (post.drop 1).all isDot then some (uri, post) else none
  else none

/-- After `.*`, which takes as much as it can. -/
def matchUri : List Char → Option (List Char × List Char × List Char)
  | [] => none
  | c :: text =>
      ((if isDot c then matchUri text else none).map fun (before, uri, post) => (c :: before, uri, post)).or
        ((matchHere (c :: text)).map fun (uri, post) => (marker, uri, post))

def mapTag : List Char := "#EXT-X-MAP:".toList

/-- `/^(#EXT-X-MAP:.*URI=")([^"]+)(".*)$/`. -/
def matchMap (line : List Char) : Option (List Char × List Char × List Char) :=
  if mapTag.isPrefixOf line then
    (matchUri (line.drop 11)).map fun (before, uri, post) => (mapTag ++ before, uri, post)
  else none

def rewriteLine (opts : RewriteOptions) (rawLine : List Char) : Option (List Char) :=
  let line := trimLine rawLine
  if line.isEmpty then some rawLine
  else if line.head? = some '#' then
    match matchMap line with
    | none => some rawLine
    | some (before, uri, post) => (rewriteUri opts uri).map fun rewritten => before ++ rewritten ++ post
  else rewriteUri opts line

/-- The lines of the answer. -/
def rewrittenLines (opts : RewriteOptions) (body : List Char) : Option (List (List Char)) :=
  (splitLines body).mapM (rewriteLine opts)

def rewriteLines (opts : RewriteOptions) (body : List Char) : Option (List Char) :=
  (rewrittenLines opts body).map fun out => ['\n'].intercalate out

def rewriteMasterPlaylist (body : List Char) (opts : RewriteOptions) : Option (List Char) := rewriteLines opts body

def rewriteMediaPlaylist (body : List Char) (opts : RewriteOptions) : Option (List Char) := rewriteLines opts body

/-! ## The lines of a playlist

A playlist line is read into its URIs and the text around them: a line of its own, or the quoted `URI` attributes of a
tag, from the left.  The rewriter's pattern looks for the last one, and only in `#EXT-X-MAP`.
-/

/-! ## Reading a line -/

/-- The first quoted URI: up to its quote, the URI, and the rest from its closing quote on. -/
def firstUri : List Char → Option (List Char × List Char × List Char)
  | [] => none
  | c :: text =>
      let after := (c :: text).drop 5
      if marker.isPrefixOf (c :: text) && after.contains '"' then
        some (marker, after.takeWhile (· != '"'), after.dropWhile (· != '"'))
      else (firstUri text).map fun (before, uri, post) => (c :: before, uri, post)

/-- The text before the first URI, and each URI with the text after it. -/
def readTag : Nat → List Char → List Char × List (List Char × List Char)
  | 0, text => (text, [])
  | fuel + 1, text =>
      match firstUri text with
      | none => (text, [])
      | some (before, uri, post) => (before, (uri, (readTag fuel post).1) :: (readTag fuel post).2)

/-- The white space around a line. -/
def leading (raw : List Char) : List Char := raw.takeWhile isWhitespace
def trailing (raw : List Char) : List Char := ((raw.dropWhile isWhitespace).reverse.takeWhile isWhitespace).reverse

def readLine (raw : List Char) : List Char × List (List Char × List Char) :=
  let line := trimLine raw
  if line.isEmpty then (raw, [])
  else if line.head? = some '#' then readTag raw.length raw
  else (leading raw, [(line, trailing raw)])

/-! ## What the rewriter reads -/

/-- Where the rewriter cuts a line: the text before a URI, the URI, and the text after it. -/
def cut (raw : List Char) : Option (List Char × List Char × List Char) :=
  let line := trimLine raw
  if line.isEmpty then none else if line.head? = some '#' then matchMap line else some ([], line, [])

/-! ## The first URI of a tag -/

/-- The text ends with its only marker. -/
def EndsInMarker (before : List Char) : Prop :=
  (∃ x, before = x ++ marker) ∧ ∀ x y, before = x ++ marker ++ y → y = []

variable {text post uri before : List Char}

theorem takeWhile_quote (huri : '"' ∉ uri) (hpost : post.head? = some '"') :
    (uri ++ post).takeWhile (· != '"') = uri ∧ (uri ++ post).dropWhile (· != '"') = post := by
  have hplain : ∀ c ∈ uri, (c != '"') = true := fun c hc => by
    simp only [bne_iff_ne, ne_eq]
    rintro rfl
    exact huri hc
  obtain ⟨rest, rfl⟩ : ∃ rest, post = '"' :: rest := by
    cases post with
    | nil => cases hpost
    | cons c rest => exact ⟨rest, by rw [Option.some.inj hpost]⟩
  rw [List.takeWhile_append_of_pos hplain, List.dropWhile_append_of_pos hplain]
  exact ⟨List.append_nil uri, rfl⟩

theorem notMem_takeWhile_quote (text : List Char) : '"' ∉ text.takeWhile (· != '"') := by
  intro h
  have := List.mem_takeWhile_imp h
  simp at this

theorem head_dropWhile_quote (h : '"' ∈ text) : (text.dropWhile (· != '"')).head? = some '"' := by
  induction text with
  | nil => cases h
  | cons c text ih =>
    by_cases hc : c = '"'
    · subst hc
      rfl
    · rw [List.dropWhile_cons_of_pos (by simpa using hc)]
      exact ih ((List.mem_cons.1 h).resolve_left fun he => hc he.symm)

theorem endsInMarker_marker : EndsInMarker marker := by
  refine ⟨⟨[], rfl⟩, fun x y h => ?_⟩
  have hlen := congrArg List.length h
  simp only [List.length_append] at hlen
  exact List.eq_nil_of_length_eq_zero (by omega)

theorem EndsInMarker.eq_marker {rest : List Char} (h : EndsInMarker before)
    (he : before ++ rest = marker ++ text) : before = marker := by
  obtain ⟨x, hx⟩ := h.1
  have hlen : marker.length ≤ before.length := by
    rw [hx, List.length_append]
    omega
  obtain ⟨y, rfl⟩ : marker <+: before :=
    List.prefix_of_prefix_length_le ⟨text, he.symm⟩ (List.prefix_append before rest) hlen
  rw [h.2 [] y rfl, List.append_nil]

theorem EndsInMarker.tail {c : Char} (h : EndsInMarker (c :: before)) (hne : c :: before ≠ marker) :
    EndsInMarker before := by
  obtain ⟨x, hx⟩ := h.1
  cases x with
  | nil => exact absurd hx hne
  | cons d x =>
    refine ⟨⟨x, (List.cons.inj hx).2⟩, fun x' y he => h.2 (c :: x') y ?_⟩
    rw [he]
    rfl

theorem mem_of_head (h : post.head? = some '"') : '"' ∈ post := List.mem_of_head? h

/-- The first URI of a tag: the only marker before it is the one that it stands after. -/
theorem firstUri_eq_some_iff : firstUri text = some (before, uri, post) ↔
    text = before ++ (uri ++ post) ∧ EndsInMarker before ∧ '"' ∉ uri ∧ post.head? = some '"' := by
  induction text generalizing before with
  | nil =>
    constructor
    · intro h
      cases h
    · rintro ⟨h, ⟨⟨x, rfl⟩, -⟩, -, -⟩
      have hlen := congrArg List.length h
      simp [marker] at hlen
  | cons c text ih =>
    unfold firstUri
    dsimp only
    by_cases hopens : (marker.isPrefixOf (c :: text) && ((c :: text).drop 5).contains '"') = true
    · rw [if_pos hopens]
      simp only [Bool.and_eq_true, List.isPrefixOf_iff_prefix, List.contains_iff_mem] at hopens
      obtain ⟨⟨after, hafter⟩, hquote⟩ := hopens
      have hdrop : (c :: text).drop 5 = after := by
        rw [← hafter]
        rfl
      rw [hdrop] at hquote ⊢
      constructor
      · intro h
        obtain ⟨rfl, he₁⟩ := Prod.mk.inj (Option.some.inj h)
        obtain ⟨rfl, rfl⟩ := Prod.mk.inj he₁
        refine ⟨?_, endsInMarker_marker, notMem_takeWhile_quote after, head_dropWhile_quote hquote⟩
        rw [List.takeWhile_append_dropWhile, hafter]
      · rintro ⟨h, hbefore, huri, hpost⟩
        obtain rfl := hbefore.eq_marker (h.symm.trans hafter.symm)
        obtain rfl := List.append_cancel_left (hafter.trans h)
        obtain ⟨h₁, h₂⟩ := takeWhile_quote huri hpost
        rw [h₁, h₂]
    · rw [if_neg hopens]
      simp only [Bool.and_eq_true, List.isPrefixOf_iff_prefix, List.contains_iff_mem, not_and] at hopens
      have hunopened : ∀ after, c :: text = marker ++ after → '"' ∉ after := by
        intro after he
        have hno := hopens ⟨after, he.symm⟩
        rw [he] at hno
        exact hno
      constructor
      · intro h
        obtain ⟨⟨before', uri', post'⟩, hfirst, he₁⟩ := Option.map_eq_some_iff.1 h
        obtain ⟨rfl, he₂⟩ := Prod.mk.inj he₁
        obtain ⟨rfl, rfl⟩ := Prod.mk.inj he₂
        obtain ⟨rfl, hbefore, huri, hpost⟩ := ih.1 hfirst
        refine ⟨rfl, ⟨?_, ?_⟩, huri, hpost⟩
        · obtain ⟨x, rfl⟩ := hbefore.1
          exact ⟨c :: x, rfl⟩
        · intro x y he
          cases x with
          | nil =>
            refine absurd ?_ (hunopened (y ++ (uri' ++ post')) ?_)
            · simp [mem_of_head hpost]
            · exact (congrArg (· ++ (uri' ++ post')) he).trans (List.append_assoc marker y _)
          | cons d x => exact hbefore.2 x y (List.cons.inj he).2
      · rintro ⟨h, hbefore, huri, hpost⟩
        cases before with
        | nil =>
          obtain ⟨x, hx⟩ := hbefore.1
          have hlen := congrArg List.length hx
          simp [marker] at hlen
        | cons d before =>
          obtain ⟨rfl, rfl⟩ := List.cons.inj h
          have hne : c :: before ≠ marker := by
            intro he
            refine absurd ?_ (hunopened (uri ++ post) ?_)
            · simp [mem_of_head hpost]
            · exact congrArg (· ++ (uri ++ post)) he
          rw [ih.2 ⟨rfl, hbefore.tail hne, huri, hpost⟩]
          rfl

theorem firstUri_eq_none (h : firstUri text = none)
    (hbefore : ∃ x, before = x ++ marker) (huri : '"' ∉ uri) (hpost : post.head? = some '"') :
    text ≠ before ++ (uri ++ post) := by
  obtain ⟨x, rfl⟩ := hbefore
  rintro rfl
  induction x with
  | nil =>
    have hsome := firstUri_eq_some_iff.2 ⟨rfl, endsInMarker_marker, huri, hpost⟩
    rw [show [] ++ marker = marker from rfl, hsome] at h
    cases h
  | cons c x ih =>
    rw [List.cons_append, List.cons_append] at h
    unfold firstUri at h
    dsimp only at h
    split at h
    · cases h
    · exact ih (Option.map_eq_none_iff.1 h)

/-! ## The URIs of a tag -/

theorem readTag_of_le {n : Nat} (h : text.length ≤ n) : readTag n text = readTag text.length text := by
  induction n using Nat.strong_induction_on generalizing text with
  | _ n ih =>
    cases n with
    | zero => rw [Nat.le_zero.1 h]
    | succ n =>
      cases hlen : text.length with
      | zero =>
        obtain rfl := List.eq_nil_of_length_eq_zero hlen
        rfl
      | succ m =>
        unfold readTag
        cases hfirst : firstUri text with
        | none => rfl
        | some p =>
          obtain ⟨before, uri, post⟩ := p
          obtain ⟨rfl, ⟨⟨x, rfl⟩, -⟩, -, -⟩ := firstUri_eq_some_iff.1 hfirst
          have hshort : post.length < m := by
            simp only [List.length_append, marker] at hlen
            have : "URI=\"".toList.length = 5 := rfl
            omega
          dsimp only
          rw [ih n (by omega) (by omega), ← ih m (by omega) (by omega)]

/-- The URIs of a whole text. -/
def uris (text : List Char) : List Char × List (List Char × List Char) := readTag text.length text

theorem uris_of_none (h : firstUri text = none) : uris text = (text, []) := by
  unfold uris
  cases text.length with
  | zero => rfl
  | succ n =>
    unfold readTag
    rw [h]

theorem uris_of_some (h : firstUri text = some (before, uri, post)) :
    uris text = (before, (uri, (uris post).1) :: (uris post).2) := by
  obtain ⟨he, ⟨⟨x, rfl⟩, -⟩, -, -⟩ := firstUri_eq_some_iff.1 h
  unfold uris
  cases hlen : text.length with
  | zero =>
    rw [he] at hlen
    simp [marker] at hlen
  | succ n =>
    have hshort : post.length ≤ n := by
      rw [he] at hlen
      simp only [List.length_append] at hlen
      have : marker.length = 5 := rfl
      omega
    rw [← readTag_of_le hshort, readTag, h]

/-! ## The cut of a tag -/

theorem matchHere_eq_some (h : matchHere text = some (uri, post)) :
    text = marker ++ (uri ++ post) ∧ '"' ∉ uri ∧ post.head? = some '"' := by
  unfold matchHere at h
  dsimp only at h
  split at h
  · next hmarker =>
    obtain ⟨after, rfl⟩ := List.isPrefixOf_iff_prefix.1 hmarker
    have hdrop : (marker ++ after).drop 5 = after := rfl
    rw [hdrop] at h
    split at h
    · next hmatch =>
      obtain ⟨rfl, rfl⟩ := Prod.mk.inj (Option.some.inj h)
      simp only [Bool.and_eq_true, Bool.not_eq_true', List.isEmpty_eq_false_iff] at hmatch
      refine ⟨by rw [List.takeWhile_append_dropWhile], notMem_takeWhile_quote after, head_dropWhile_quote ?_⟩
      by_contra hquote
      refine hmatch.1.2 (List.dropWhile_eq_nil_iff.2 fun c hc => ?_)
      simp only [bne_iff_ne, ne_eq]
      rintro rfl
      exact hquote hc
    · cases h
  · cases h

theorem matchUri_eq_some (h : matchUri text = some (before, uri, post)) :
    text = before ++ (uri ++ post) ∧ (∃ x, before = x ++ marker) ∧ '"' ∉ uri ∧ post.head? = some '"' := by
  induction text generalizing before with
  | nil => cases h
  | cons c text ih =>
    unfold matchUri at h
    rcases Option.or_eq_some_iff.1 h with hlater | ⟨-, hhere⟩
    · obtain ⟨⟨before', uri', post'⟩, hmatch, he₁⟩ := Option.map_eq_some_iff.1 hlater
      obtain ⟨rfl, he₂⟩ := Prod.mk.inj he₁
      obtain ⟨rfl, rfl⟩ := Prod.mk.inj he₂
      split at hmatch
      · obtain ⟨rfl, ⟨x, rfl⟩, huri, hpost⟩ := ih hmatch
        exact ⟨rfl, ⟨c :: x, rfl⟩, huri, hpost⟩
      · cases hmatch
    · obtain ⟨⟨uri', post'⟩, hmatch, he₁⟩ := Option.map_eq_some_iff.1 hhere
      obtain ⟨rfl, he₂⟩ := Prod.mk.inj he₁
      obtain ⟨rfl, rfl⟩ := Prod.mk.inj he₂
      obtain ⟨htext, huri, hpost⟩ := matchHere_eq_some hmatch
      exact ⟨htext, ⟨[], rfl⟩, huri, hpost⟩

/-- Where the rewriter cuts a tag, it begins with a number sign and has a quoted URI. -/
theorem matchMap_eq_some {line : List Char} (h : matchMap line = some (before, uri, post)) :
    line = before ++ (uri ++ post) ∧ before.head? = some '#' ∧ (∃ x, before = x ++ marker) ∧ '"' ∉ uri ∧
      post.head? = some '"' := by
  unfold matchMap at h
  split at h
  · next hprefix =>
    obtain ⟨rest, rfl⟩ := List.isPrefixOf_iff_prefix.1 hprefix
    obtain ⟨⟨before', uri', post'⟩, hmatch, he₁⟩ := Option.map_eq_some_iff.1 h
    obtain ⟨rfl, he₂⟩ := Prod.mk.inj he₁
    obtain ⟨rfl, rfl⟩ := Prod.mk.inj he₂
    have hdrop : (mapTag ++ rest).drop 11 = rest := rfl
    rw [hdrop] at hmatch
    obtain ⟨rfl, ⟨x, rfl⟩, huri, hpost⟩ := matchUri_eq_some hmatch
    exact ⟨(List.append_assoc mapTag (x ++ marker) _).symm, rfl, ⟨mapTag ++ x, by rw [List.append_assoc]⟩, huri, hpost⟩
  · cases h

/-! ## Trimming -/

theorem dropWhile_split (raw : List Char) : raw.dropWhile isWhitespace = trimLine raw ++ trailing raw := by
  have hback := congrArg List.reverse
    (List.takeWhile_append_dropWhile (p := isWhitespace) (l := (raw.dropWhile isWhitespace).reverse))
  rw [List.reverse_append, List.reverse_reverse] at hback
  exact hback.symm

theorem trimLine_split (raw : List Char) : raw = leading raw ++ (trimLine raw ++ trailing raw) := by
  rw [← dropWhile_split]
  exact List.takeWhile_append_dropWhile.symm

theorem isWhitespace_of_leading {raw : List Char} {c : Char} (h : c ∈ leading raw) : isWhitespace c = true :=
  List.mem_takeWhile_imp h

theorem isWhitespace_of_trailing {raw : List Char} {c : Char} (h : c ∈ trailing raw) : isWhitespace c = true :=
  List.mem_takeWhile_imp (List.mem_reverse.1 h)

theorem trimLine_eq_self (text : List Char) (hhead : ∀ c ∈ text.head?, isWhitespace c = false)
    (hlast : ∀ c ∈ text.getLast?, isWhitespace c = false) :
    trimLine text = text ∧ leading text = [] ∧ trailing text = [] := by
  have hdrop : text.dropWhile isWhitespace = text := by
    cases text with
    | nil => rfl
    | cons c text => exact List.dropWhile_cons_of_neg (by simp [hhead c rfl])
  have htake : text.takeWhile isWhitespace = [] := by
    cases text with
    | nil => rfl
    | cons c text => exact List.takeWhile_cons_of_neg (by simp [hhead c rfl])
  have hback : ∀ c ∈ text.reverse.head?, isWhitespace c = false := by
    rw [List.head?_reverse]
    exact hlast
  unfold trimLine leading trailing
  rw [hdrop, htake]
  cases hrev : text.reverse with
  | nil => exact ⟨by rw [← List.reverse_reverse text, hrev]; rfl, rfl, rfl⟩
  | cons c rest =>
    have hc : ¬isWhitespace c = true := by simp [hback c (by rw [hrev]; rfl)]
    rw [List.dropWhile_cons_of_neg hc, List.takeWhile_cons_of_neg hc, ← hrev, List.reverse_reverse]
    exact ⟨rfl, rfl, rfl⟩

/-- The first character of a line that begins with none of the white space. -/
theorem head_trimLine {raw : List Char} {c : Char} (h : raw.head? = some c) (hc : isWhitespace c = false) :
    leading raw = [] ∧ (trimLine raw).head? = some c := by
  obtain ⟨rest, rfl⟩ : ∃ rest, raw = c :: rest := by
    cases raw with
    | nil => cases h
    | cons d rest => exact ⟨rest, by rw [Option.some.inj h]⟩
  have hlead : leading (c :: rest) = [] := List.takeWhile_cons_of_neg (by simp [hc])
  have hsplit := trimLine_split (c :: rest)
  rw [hlead, List.nil_append] at hsplit
  refine ⟨hlead, ?_⟩
  cases hline : trimLine (c :: rest) with
  | nil =>
    rw [hline, List.nil_append] at hsplit
    have hmem : c ∈ trailing (c :: rest) := hsplit ▸ List.mem_cons_self
    have hws := isWhitespace_of_trailing hmem
    rw [hc] at hws
    cases hws
  | cons d line =>
    rw [hline] at hsplit
    rw [(List.cons.inj hsplit).1]
    rfl

theorem leading_of_head_trimLine {raw : List Char} {c : Char} (h : (trimLine raw).head? = some c) :
    isWhitespace c = false := by
  have hdrop : (raw.dropWhile isWhitespace).head? = some c := by
    rw [dropWhile_split, List.head?_append, h]
    rfl
  have hnot := List.head?_dropWhile_not isWhitespace raw
  rw [hdrop] at hnot
  simpa using hnot

end Cameras
