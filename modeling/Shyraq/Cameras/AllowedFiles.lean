import Mathlib.Data.List.Forall2
import Mathlib.Data.List.Perm.Basic
import Shyraq.Cameras.PlaylistRewriter

/-!
# What gets through the rewriter

Of a tag the rewriter reads only the last URI of `#EXT-X-MAP`, it takes the names that objects inherit for names of its
list, and it drops the white space around what it cuts.  It is the allow-list that it is meant to be as long as it cuts
every line where its one URI is.
-/

namespace Cameras

open Kernel

/-- The file of ours that the URI names. -/
def fileOf (uri : List Char) : Option (List Char) := ownEntry (nameOf uri)

/-- What a URI becomes: the file under the public base, with the token and what was passed through. -/
structure Translated (opts : RewriteOptions) (uri rewritten : List Char) : Prop where
  path : (fileOf uri).map (publicPath opts.publicBase) = some (rewritten.takeWhile (· != '?'))
  params : (parseQuery ((rewritten.dropWhile (· != '?')).drop 1)).Perm (passthrough uri opts.token)

/-- URI by URI, with the text around them unchanged. -/
def LineTranslated (opts : RewriteOptions) (raw out : List Char) : Prop :=
  (readLine raw).1 = (readLine out).1 ∧
    List.Forall₂ (fun p q => Translated opts p.1 q.1 ∧ p.2 = q.2) (readLine raw).2 (readLine out).2

/-- Some URI of the line names none of the four files. -/
def Foreign (raw : List Char) : Prop := ∃ p ∈ (readLine raw).2, fileOf p.1 = none

structure StrictAllowList (opts : RewriteOptions) (body : List Char) : Prop where
  refuses : rewriteLines opts body = none ↔ ∃ raw ∈ splitLines body, Foreign raw
  translates : ∀ out, rewrittenLines opts body = some out → List.Forall₂ (LineTranslated opts) (splitLines body) out

/-- The URI it reads is not in its list. -/
def Refused (raw : List Char) : Prop := ∃ before uri post, cut raw = some (before, uri, post) ∧ uriAllowList (nameOf uri) = none

/-- The URI of a line of its own stays one under the base, and that of an attribute stays within its quotes. -/
def Fits (publicBase before : List Char) : Prop :=
  '?' ∉ publicBase ∧ if before = [] then ∀ c ∈ publicBase.head?, isWhitespace c = false ∧ c ≠ '#' else '"' ∉ publicBase

/-- No URI, or a single one that names one of the four files, and the rewriter cuts the line there. -/
def Regular (opts : RewriteOptions) (raw : List Char) : Prop :=
  (readLine raw).2 = [] ∨ ∃ before uri post, cut raw = some (before, uri, post) ∧
    readLine raw = (before, [(uri, post)]) ∧ (fileOf uri).isSome = true ∧ Fits opts.publicBase before

/-! ## Our own URIs -/

section

variable {opts : RewriteOptions} {uri file : List Char}

theorem ownEntry_plain {name : List Char} (h : ownEntry name = some file) :
    '?' ∉ file ∧ '"' ∉ file ∧ name.count '/' = 0 := by
  unfold ownEntry at h
  split at h
  · next hname =>
    obtain rfl := Option.some.inj h
    rw [hname]
    decide
  · split at h
    · next hname =>
      obtain rfl := Option.some.inj h
      rw [hname]
      decide
    · split at h
      · next hname =>
        obtain rfl := Option.some.inj h
        rw [hname]
        decide
      · split at h
        · next hname =>
          obtain rfl := Option.some.inj h
          rw [hname]
          decide
        · cases h

theorem takeWhile_path {path : List Char} (query : List Char) (h : '?' ∉ path) :
    (path ++ '?' :: query).takeWhile (· != '?') = path ∧ ((path ++ '?' :: query).dropWhile (· != '?')).drop 1 = query := by
  have hplain : ∀ c ∈ path, (c != '?') = true := fun c hc => by
    simp only [bne_iff_ne, ne_eq]
    rintro rfl
    exact h hc
  rw [List.takeWhile_append_of_pos hplain, List.dropWhile_append_of_pos hplain]
  exact ⟨List.append_nil path, rfl⟩

theorem translated_rewriteUri (hfile : fileOf uri = some file) (hbase : '?' ∉ opts.publicBase) :
    Translated opts uri (publicPath opts.publicBase file ++ '?' :: formatQuery (passthrough uri opts.token)) := by
  have hpath : '?' ∉ publicPath opts.publicBase file := by
    unfold publicPath
    rw [List.mem_append, List.mem_append]
    rintro (h | h | h)
    · exact hbase h
    · exact absurd h (by decide)
    · exact (ownEntry_plain hfile).1 h
  obtain ⟨h₁, h₂⟩ := takeWhile_path (formatQuery (passthrough uri opts.token)) hpath
  exact ⟨by rw [h₁, hfile]; rfl, by rw [h₂, parseQuery_formatQuery]⟩

theorem rewriteUri_of_file (opts : RewriteOptions) (hfile : fileOf uri = some file) : rewriteUri opts uri =
    some (publicPath opts.publicBase file ++ '?' :: formatQuery (passthrough uri opts.token)) := by
  have hown : ownEntry (nameOf uri) = some file := hfile
  unfold rewriteUri uriAllowList
  rw [hown]
  rfl

/-- Without the query, a URI that names a file has one slash at most; one of ours has two at least. -/
theorem not_translated_self (uri : List Char) : ¬Translated opts uri uri := by
  rintro ⟨hpath, -⟩
  obtain ⟨file, hfile, hpath⟩ := Option.map_eq_some_iff.1 hpath
  have hname := (ownEntry_plain hfile).2.2
  have hcount := congrArg (List.count '/') hpath
  unfold publicPath at hcount
  rw [List.count_append, List.count_append] at hcount
  have htwo : "/hls/".toList.count '/' = 2 := by decide
  have hone : (uri.takeWhile (· != '?')).count '/' ≤ 1 + (nameOf uri).count '/' := by
    unfold nameOf withoutPrefix
    split
    · next hprefix =>
      obtain ⟨rest, rfl⟩ := List.isPrefixOf_iff_prefix.1 hprefix
      have hplain : ∀ c ∈ "hls/".toList, (c != '?') = true := List.all_eq_true.1 rfl
      have hdrop : ("hls/".toList ++ rest).drop 4 = rest := rfl
      rw [List.takeWhile_append_of_pos hplain, List.count_append, hdrop]
      have : "hls/".toList.count '/' = 1 := by decide
      omega
    · omega
  omega

theorem isWhitespace_of_printed {c : Char} (h₁ : 32 < c.toNat) (h₂ : c.toNat < 128) : isWhitespace c = false := by
  have hall : ∀ n < 128, 32 < n → ([9, 10, 11, 12, 13, 32, 160, 5760, 8232, 8233, 8239, 8287, 12288, 65279].contains n ||
      (decide (8192 ≤ n) && decide (n ≤ 8202))) = false := by decide
  exact hall _ h₂ h₁

theorem getLast_formatQuery (uri token : List Char) :
    ∃ c, (formatQuery (passthrough uri token)).getLast? = some c ∧ isWhitespace c = false := by
  have hne : formatQuery (passthrough uri token) ≠ [] := by
    intro hempty
    have hparse := parseQuery_formatQuery (passthrough uri token)
    rw [hempty] at hparse
    unfold passthrough at hparse
    have hlen := congrArg List.length hparse
    rw [List.length_append] at hlen
    exact absurd hlen (Nat.ne_of_lt (Nat.lt_of_lt_of_le (by decide : 0 < 1) (Nat.le_add_left 1 _)))
  have hmem := List.getLast_mem hne
  obtain ⟨-, -, h₁, h₂⟩ := mem_formatQuery hmem
  exact ⟨_, List.getLast?_eq_some_getLast hne, isWhitespace_of_printed h₁ h₂⟩

/-! ## A line -/

variable {raw out before post : List Char}

theorem cut_none (h : cut raw = none) : rewriteLine opts raw = some raw := by
  unfold cut at h
  unfold rewriteLine
  dsimp only at h ⊢
  by_cases hempty : (trimLine raw).isEmpty = true
  · rw [if_pos hempty]
  · rw [if_neg hempty] at h ⊢
    by_cases htag : (trimLine raw).head? = some '#'
    · rw [if_pos htag] at h ⊢
      rw [h]
    · rw [if_neg htag] at h
      cases h

theorem cut_some (h : cut raw = some (before, uri, post)) :
    rewriteLine opts raw = (rewriteUri opts uri).map fun r => before ++ (r ++ post) := by
  unfold cut at h
  unfold rewriteLine
  dsimp only at h ⊢
  by_cases hempty : (trimLine raw).isEmpty = true
  · rw [if_pos hempty] at h
    cases h
  · rw [if_neg hempty] at h ⊢
    by_cases htag : (trimLine raw).head? = some '#'
    · rw [if_pos htag] at h ⊢
      rw [h]
      simp only [List.append_assoc]
    · rw [if_neg htag] at h ⊢
      obtain ⟨rfl, he⟩ := Prod.mk.inj (Option.some.inj h)
      obtain ⟨rfl, rfl⟩ := Prod.mk.inj he
      simp

theorem cut_cases (h : cut raw = some (before, uri, post)) :
    (before = [] ∧ uri = trimLine raw ∧ post = [] ∧ readLine raw = (leading raw, [(uri, trailing raw)])) ∨
      (matchMap (trimLine raw) = some (before, uri, post) ∧ readLine raw = uris raw) := by
  unfold cut at h
  unfold readLine uris
  dsimp only at h ⊢
  by_cases hempty : (trimLine raw).isEmpty = true
  · rw [if_pos hempty] at h
    cases h
  · rw [if_neg hempty] at h ⊢
    by_cases htag : (trimLine raw).head? = some '#'
    · rw [if_pos htag] at h ⊢
      exact .inr ⟨h, rfl⟩
    · rw [if_neg htag] at h ⊢
      obtain ⟨rfl, he⟩ := Prod.mk.inj (Option.some.inj h)
      obtain ⟨rfl, rfl⟩ := Prod.mk.inj he
      exact .inl ⟨rfl, rfl, rfl, rfl⟩

theorem rewriteLine_eq_none_iff : rewriteLine opts raw = none ↔ Refused raw := by
  constructor
  · intro h
    cases hcut : cut raw with
    | none =>
      rw [cut_none hcut] at h
      cases h
    | some p =>
      obtain ⟨before, uri, post⟩ := p
      rw [cut_some hcut, Option.map_eq_none_iff] at h
      exact ⟨before, uri, post, hcut, Option.map_eq_none_iff.1 h⟩
  · rintro ⟨before, uri, post, hcut, hrefused⟩
    rw [cut_some hcut]
    unfold rewriteUri
    rw [hrefused]
    rfl

theorem readLine_of_tag (h : raw.head? = some '#') : readLine raw = uris raw := by
  obtain ⟨-, hline⟩ := head_trimLine h (by decide)
  unfold readLine uris
  dsimp only
  rw [if_neg (by cases htrim : trimLine raw <;> simp [htrim] at hline ⊢), if_pos hline]

theorem firstUri_of_match (h : matchMap (trimLine raw) = some (before, uri, post)) : ∃ p, firstUri raw = some p := by
  obtain ⟨hline, -, ⟨x, rfl⟩, huri, hpost⟩ := matchMap_eq_some h
  cases hfirst : firstUri raw with
  | some p => exact ⟨p, rfl⟩
  | none =>
    have hhead : (post ++ trailing raw).head? = some '"' := by
      rw [List.head?_append, hpost]
      rfl
    refine absurd ?_ (firstUri_eq_none hfirst ⟨leading raw ++ x, rfl⟩ huri hhead)
    conv_lhs => rw [trimLine_split raw, hline]
    simp only [List.append_assoc]

theorem firstUri_of_single (h : uris raw = (before, [(uri, post)])) :
    firstUri raw = some (before, uri, post) ∧ firstUri post = none := by
  cases hfirst : firstUri raw with
  | none =>
    rw [uris_of_none hfirst] at h
    cases h
  | some p =>
    obtain ⟨before', uri', post'⟩ := p
    rw [uris_of_some hfirst] at h
    obtain ⟨rfl, he₁⟩ := Prod.mk.inj h
    obtain ⟨he₂, he₃⟩ := List.cons.inj he₁
    obtain ⟨rfl, he₄⟩ := Prod.mk.inj he₂
    cases hrest : firstUri post' with
    | none =>
      rw [uris_of_none hrest] at he₄
      obtain rfl : post' = post := he₄
      exact ⟨rfl, hrest⟩
    | some q =>
      obtain ⟨before'', uri'', post''⟩ := q
      rw [uris_of_some hrest] at he₃
      cases he₃

theorem readLine_own (hbase : ∀ c ∈ opts.publicBase.head?, isWhitespace c = false ∧ c ≠ '#') {r mapped : List Char}
    (hr : r = publicPath opts.publicBase mapped ++ '?' :: formatQuery (passthrough uri opts.token)) :
    readLine r = ([], [(r, [])]) := by
  obtain ⟨last, hlast, hplain⟩ := getLast_formatQuery uri opts.token
  have hhead : ∃ c, r.head? = some c ∧ isWhitespace c = false ∧ c ≠ '#' := by
    rw [hr]
    unfold publicPath
    cases hb : opts.publicBase with
    | nil => exact ⟨'/', rfl, by decide, by decide⟩
    | cons c base =>
      obtain ⟨h₁, h₂⟩ := hbase c (by rw [hb]; rfl)
      exact ⟨c, rfl, h₁, h₂⟩
  obtain ⟨c, hc, hplain₁, htag⟩ := hhead
  obtain ⟨htrim, hlead, htrail⟩ := trimLine_eq_self r
    (fun d hd => by rw [Option.mem_def, hc] at hd; rw [← Option.some.inj hd]; exact hplain₁)
    (fun d hd => by
      rw [hr, List.getLast?_append, List.getLast?_cons, hlast] at hd
      rw [← Option.some.inj (show some last = some d from hd)]
      exact hplain)
  unfold readLine
  dsimp only
  rw [htrim, hlead, htrail]
  rw [if_neg (by cases r <;> simp at hc ⊢), if_neg (by rw [hc]; exact fun h => htag (Option.some.inj h))]

theorem lineTranslated_of_regular (h : Regular opts raw) :
    ∃ out, rewriteLine opts raw = some out ∧ LineTranslated opts raw out ∧ ¬Foreign raw := by
  rcases h with hnone | ⟨before, uri, post, hcut, hread, hfile, hquery, hfits⟩
  · have hcut : cut raw = none := by
      cases hcut : cut raw with
      | none => rfl
      | some p =>
        obtain ⟨before, uri, post⟩ := p
        rcases cut_cases hcut with ⟨-, -, -, hread⟩ | ⟨hmatch, hread⟩
        · rw [hread] at hnone
          cases hnone
        · obtain ⟨⟨b, u, t⟩, hfirst⟩ := firstUri_of_match hmatch
          rw [hread, uris_of_some hfirst] at hnone
          cases hnone
    refine ⟨raw, cut_none hcut, ⟨rfl, ?_⟩, ?_⟩
    · rw [hnone]
      exact .nil
    · rintro ⟨p, hp, -⟩
      rw [hnone] at hp
      cases hp
  · obtain ⟨file, hfile⟩ := Option.isSome_iff_exists.1 hfile
    have hrewritten := rewriteUri_of_file opts hfile
    have htranslated := translated_rewriteUri hfile hquery
    generalize hr : publicPath opts.publicBase file ++ '?' :: formatQuery (passthrough uri opts.token) = r at *
    have hforeign : ¬Foreign raw := by
      rintro ⟨p, hp, hno⟩
      rw [hread] at hp
      obtain rfl := List.mem_singleton.1 hp
      rw [hfile] at hno
      cases hno
    refine ⟨before ++ (r ++ post), by rw [cut_some hcut, hrewritten]; rfl, ?_, hforeign⟩
    have hout : readLine (before ++ (r ++ post)) = (before, [(r, post)]) := by
      rcases cut_cases hcut with ⟨rfl, -, rfl, -⟩ | ⟨hmatch, huris⟩
      · rw [if_pos rfl] at hfits
        rw [List.append_nil, List.nil_append]
        exact readLine_own hfits hr.symm
      · obtain ⟨-, htag, ⟨x, hx⟩, -, -⟩ := matchMap_eq_some hmatch
        rw [if_neg (by rintro rfl; cases htag)] at hfits
        obtain ⟨hfirst, hrest⟩ := firstUri_of_single (huris.symm.trans hread)
        obtain ⟨-, hends, -, hpost⟩ := firstUri_eq_some_iff.1 hfirst
        have hquote : '"' ∉ r := by
          rw [← hr]
          unfold publicPath
          simp only [List.mem_append, List.mem_cons]
          rintro ((h | h | h) | h | h)
          · exact hfits h
          · exact absurd h (by decide)
          · exact (ownEntry_plain hfile).2.1 h
          · cases h
          · exact (mem_formatQuery h).2.1 rfl
        have hfirst' := firstUri_eq_some_iff.2 ⟨rfl, hends, hquote, hpost⟩
        rw [readLine_of_tag (by rw [List.head?_append, htag]; rfl), uris_of_some hfirst', uris_of_none hrest]
    unfold LineTranslated
    rw [hread, hout]
    exact ⟨rfl, .cons ⟨htranslated, rfl⟩ .nil⟩

/-! ## Back from the answer -/

theorem takeWhile_quote_append {text : List Char} (h : '"' ∈ text) (rest : List Char) :
    (text ++ rest).takeWhile (· != '"') = text.takeWhile (· != '"') := by
  induction text with
  | nil => cases h
  | cons c text ih =>
    by_cases hc : c = '"'
    · subst hc
      rfl
    · have hc' : (c != '"') = true := by simpa using hc
      rw [List.cons_append, List.takeWhile_cons_of_pos (p := (· != '"')) hc',
        List.takeWhile_cons_of_pos (p := (· != '"')) hc', ih ((List.mem_cons.1 h).resolve_left fun he => hc he.symm)]

/-- Two texts that differ in their first URI are cut there: what they share before goes no further. -/
theorem before_eq {b v p v' p' x rest r rest' : List Char} (hends : EndsInMarker b) (hv : '"' ∉ v) (hv' : '"' ∉ v')
    (hp : p.head? = some '"') (hp' : p'.head? = some '"') (hne : v ≠ v')
    (h : b ++ (v ++ p) = (x ++ marker) ++ rest) (h' : b ++ (v' ++ p') = (x ++ marker) ++ (r ++ rest')) :
    b = x ++ marker := by
  rcases List.append_eq_append_iff.1 h with ⟨z, hz, hvp⟩ | ⟨z, hz, -⟩
  · by_cases hempty : z = []
    · rw [hz, hempty, List.append_nil]
    · -- the marker's quote closes both URIs
      have hquote : '"' ∈ z := by
        have hlast := congrArg List.getLast? hz
        rw [List.getLast?_append, List.getLast?_append, List.getLast?_eq_some_getLast hempty] at hlast
        have hquote : '"' = z.getLast hempty := Option.some.inj hlast
        exact hquote ▸ List.getLast_mem hempty
      rw [hz, List.append_assoc] at h'
      have hv₁ := congrArg (List.takeWhile (· != '"')) hvp
      have hv₂ := congrArg (List.takeWhile (· != '"')) (List.append_cancel_left h')
      rw [(takeWhile_quote hv hp).1, takeWhile_quote_append hquote] at hv₁
      rw [(takeWhile_quote hv' hp').1, takeWhile_quote_append hquote] at hv₂
      exact absurd (hv₁.trans hv₂.symm) hne
  · rw [hz, hends.2 x z hz, List.append_nil]

theorem Translated.spec {rewritten : List Char} (h : Translated opts uri rewritten) :
    ∃ file, fileOf uri = some file ∧ rewritten.takeWhile (· != '?') = publicPath opts.publicBase file ∧
      '?' ∉ publicPath opts.publicBase file := by
  obtain ⟨file, hfile, hpath⟩ := Option.map_eq_some_iff.1 h.path
  refine ⟨file, hfile, hpath.symm, fun hmem => ?_⟩
  rw [hpath] at hmem
  have := List.mem_takeWhile_imp hmem
  simp at this

theorem not_mem_base {mapped : List Char} {c : Char} (h : c ∉ publicPath opts.publicBase mapped) : c ∉ opts.publicBase :=
  fun hc => h (List.mem_append_left _ hc)

theorem regular_of_uncut (h : LineTranslated opts raw raw) : Regular opts raw := by
  left
  cases hrest : (readLine raw).2 with
  | nil => rfl
  | cons p rest =>
    have hall := h.2
    rw [hrest] at hall
    exact absurd (List.forall₂_cons.1 hall).1.1 (not_translated_self p.1)

theorem regular_of_own {r : List Char} (hcut : cut raw = some ([], uri, []))
    (hread : readLine raw = (leading raw, [(uri, trailing raw)])) (hr : rewriteUri opts uri = some r)
    (h : LineTranslated opts raw r) : Regular opts raw := by
  obtain ⟨hhead, hall⟩ := h
  rw [hread] at hhead hall
  obtain ⟨⟨r', t⟩, rest, ⟨htranslated, htrail⟩, hnil, hout⟩ := List.forall₂_cons_left_iff.1 hall
  obtain rfl := List.forall₂_nil_left_iff.1 hnil
  obtain rfl : trailing raw = t := htrail
  have hout : readLine r = (leading raw, [(r', trailing raw)]) := Prod.ext hhead.symm hout
  obtain ⟨file, hfile, hpath, hquery⟩ := htranslated.spec
  obtain rfl := Option.some.inj (hr.symm.trans (rewriteUri_of_file opts hfile))
  generalize hq : formatQuery (passthrough uri opts.token) = query at *
  have hpath' := (takeWhile_path query hquery).1
  obtain ⟨last, hlast, hplain⟩ := getLast_formatQuery uri opts.token
  rw [hq] at hlast
  generalize hr' : publicPath opts.publicBase file ++ '?' :: query = r at *
  have hlast' : r.getLast? = some last := by
    rw [← hr', List.getLast?_append, List.getLast?_cons, hlast]
    rfl
  unfold readLine at hout
  dsimp only at hout
  by_cases hempty : (trimLine r).isEmpty = true
  · rw [if_pos hempty] at hout
    cases hout
  rw [if_neg hempty] at hout
  by_cases htag : (trimLine r).head? = some '#'
  · rw [if_pos htag] at hout
    obtain ⟨-, ⟨⟨x, hx⟩, -⟩, -, -⟩ := firstUri_eq_some_iff.1 (firstUri_of_single hout).1
    have hmem : 'U' ∈ leading raw := by
      rw [hx]
      exact List.mem_append_right _ (by decide)
    exact absurd (isWhitespace_of_leading hmem) (by decide)
  rw [if_neg htag] at hout
  obtain ⟨hlead, he₁⟩ := Prod.mk.inj hout
  obtain ⟨he₂, -⟩ := List.cons.inj he₁
  obtain ⟨rfl, htrail⟩ := Prod.mk.inj he₂
  have hsplit := trimLine_split r
  have htrail₀ : trailing r = [] := by
    by_contra hne
    have hlast₁ := congrArg List.getLast? hsplit
    rw [List.getLast?_append, List.getLast?_append, List.getLast?_eq_some_getLast hne, hlast'] at hlast₁
    have hws := isWhitespace_of_trailing (List.getLast_mem hne)
    rw [← Option.some.inj (show some last = some _ from hlast₁), hplain] at hws
    cases hws
  rw [htrail₀, List.append_nil] at hsplit
  have hlead₀ : leading r = [] := by
    have hplain : ∀ c ∈ leading r, (c != '?') = true := by
      intro c hc
      simp only [bne_iff_ne, ne_eq]
      rintro rfl
      exact absurd (isWhitespace_of_leading hc) (by decide)
    have htake := congrArg (List.takeWhile (· != '?')) hsplit
    rw [List.takeWhile_append_of_pos hplain, hpath, hpath'] at htake
    exact List.append_left_eq_self.1 htake.symm
  rw [hlead₀, List.nil_append] at hsplit
  rw [← hlead, hlead₀, ← htrail, htrail₀] at hread
  refine .inr ⟨[], uri, [], hcut, hread, by rw [hfile]; rfl, not_mem_base hquery, ?_⟩
  rw [if_pos rfl]
  intro c hc
  have hc' : (trimLine r).head? = some c := by
    rw [← hsplit, ← hr']
    unfold publicPath
    rw [List.head?_append, List.head?_append, Option.mem_def.1 hc]
    rfl
  refine ⟨leading_of_head_trimLine hc', ?_⟩
  rintro rfl
  exact htag hc'

theorem uris_rest {text tail : List Char} (hhead : (uris (text ++ tail)).1 = (uris text).1)
    (hall : List.Forall₂ (fun p q => Translated opts p.1 q.1 ∧ p.2 = q.2) (uris (text ++ tail)).2 (uris text).2) :
    firstUri text = none ∧ tail = [] := by
  cases hlong : firstUri (text ++ tail) with
  | none =>
    rw [uris_of_none hlong] at hhead hall
    cases hshort : firstUri text with
    | none =>
      rw [uris_of_none hshort] at hhead
      exact ⟨rfl, List.append_right_eq_self.1 hhead⟩
    | some q =>
      obtain ⟨b, w, p⟩ := q
      rw [uris_of_some hshort] at hall
      cases hall
  | some q =>
    obtain ⟨b, w, p⟩ := q
    rw [uris_of_some hlong] at hhead hall
    cases hshort : firstUri text with
    | none =>
      rw [uris_of_none hshort] at hall
      cases hall
    | some q =>
      obtain ⟨b', w', p'⟩ := q
      rw [uris_of_some hshort] at hhead hall
      obtain rfl : b = b' := hhead
      obtain ⟨htext, -, hw', hp'⟩ := firstUri_eq_some_iff.1 hshort
      obtain ⟨hboth, -, hw, hp⟩ := firstUri_eq_some_iff.1 hlong
      rw [htext, List.append_assoc, List.append_assoc] at hboth
      have htake := congrArg (List.takeWhile (· != '"')) (List.append_cancel_left hboth)
      rw [(takeWhile_quote hw hp).1, (takeWhile_quote hw' (by rw [List.head?_append, hp']; rfl)).1] at htake
      have htranslated := (List.forall₂_cons.1 hall).1.1
      rw [show w' = w from htake] at htranslated
      exact absurd htranslated (not_translated_self w)

theorem regular_of_tag {r : List Char} (hcut : cut raw = some (before, uri, post))
    (hmatch : matchMap (trimLine raw) = some (before, uri, post)) (hread : readLine raw = uris raw)
    (hr : rewriteUri opts uri = some r) (h : LineTranslated opts raw (before ++ (r ++ post))) : Regular opts raw := by
  obtain ⟨hline, htag, ⟨x, rfl⟩, huri, hpost⟩ := matchMap_eq_some hmatch
  have houttag : (x ++ marker ++ (r ++ post)).head? = some '#' := by
    rw [List.head?_append, htag]
    rfl
  obtain ⟨hhead, hall⟩ := h
  rw [hread, readLine_of_tag houttag] at hhead hall
  obtain ⟨⟨b, v, p⟩, hfirst⟩ := firstUri_of_match hmatch
  rw [uris_of_some hfirst] at hhead hall
  cases hfirst' : firstUri (x ++ marker ++ (r ++ post)) with
  | none =>
    rw [uris_of_none hfirst'] at hall
    cases hall
  | some q =>
    obtain ⟨b', v', p'⟩ := q
    rw [uris_of_some hfirst'] at hhead hall
    obtain rfl : b = b' := hhead
    obtain ⟨⟨htranslated, hbetween⟩, hrest⟩ := List.forall₂_cons.1 hall
    obtain ⟨hraw, hends, hv, hp⟩ := firstUri_eq_some_iff.1 hfirst
    obtain ⟨hout, -, hv', hp'⟩ := firstUri_eq_some_iff.1 hfirst'
    have hne : v ≠ v' := by
      rintro rfl
      exact not_translated_self v htranslated
    -- both lines begin with what stands before their first URI
    have hrawtag : raw.head? = some '#' := by
      have hb : b ≠ [] := by
        obtain ⟨y, rfl⟩ := hends.1
        intro hempty
        have hlen := congrArg List.length hempty
        simp [marker] at hlen
      obtain ⟨c, b', rfl⟩ := List.exists_cons_of_ne_nil hb
      rw [hout] at houttag
      rw [hraw]
      exact houttag
    obtain ⟨hlead, -⟩ := head_trimLine hrawtag (by decide)
    have hsplit := trimLine_split raw
    rw [hlead, List.nil_append, hline] at hsplit
    have hraw' : b ++ (v ++ p) = (x ++ marker) ++ (uri ++ (post ++ trailing raw)) := by
      rw [← hraw]
      conv_lhs => rw [hsplit]
      simp only [List.append_assoc]
    obtain rfl := before_eq hends hv hv' hp hp' hne hraw' hout.symm
    have htail : (post ++ trailing raw).head? = some '"' := by
      rw [List.head?_append, hpost]
      rfl
    have hcancel := List.append_cancel_left hraw'
    have huri' := congrArg (List.takeWhile (· != '"')) hcancel
    have hpost' := congrArg (List.dropWhile (· != '"')) hcancel
    rw [(takeWhile_quote hv hp).1, (takeWhile_quote huri htail).1] at huri'
    rw [(takeWhile_quote hv hp).2, (takeWhile_quote huri htail).2] at hpost'
    obtain rfl : v = uri := huri'
    obtain rfl : p = post ++ trailing raw := hpost'
    -- the answer's URI is the one that was put in
    obtain ⟨file, hfile, hpath, hquery⟩ := htranslated.spec
    obtain rfl := Option.some.inj (hr.symm.trans (rewriteUri_of_file opts hfile))
    have hpathquote : '"' ∉ publicPath opts.publicBase file := by
      rw [← hpath]
      exact fun hmem => hv' (List.takeWhile_subset _ hmem)
    have hquote : '"' ∉ publicPath opts.publicBase file ++ '?' :: formatQuery (passthrough v opts.token) := by
      rw [List.mem_append, List.mem_cons]
      rintro (h | h | h)
      · exact hpathquote h
      · cases h
      · exact (mem_formatQuery h).2.1 rfl
    have hcancel' := congrArg (List.dropWhile (· != '"')) (List.append_cancel_left hout)
    rw [(takeWhile_quote hquote hpost).2, (takeWhile_quote hv' hp').2] at hcancel'
    obtain rfl : post = p' := hcancel'
    obtain ⟨hnone, htrail⟩ := uris_rest hbetween hrest
    rw [htrail, List.append_nil] at hfirst
    refine .inr ⟨_, _, _, hcut, ?_, by rw [hfile]; rfl, not_mem_base hquery, ?_⟩
    · rw [hread, uris_of_some hfirst, uris_of_none hnone]
    · rw [if_neg]
      · exact not_mem_base hpathquote
      · intro hempty
        rw [hempty] at htag
        cases htag

theorem regular_of_lineTranslated (hline : rewriteLine opts raw = some out) (h : LineTranslated opts raw out) :
    Regular opts raw := by
  cases hcut : cut raw with
  | none =>
    obtain rfl := Option.some.inj ((cut_none hcut).symm.trans hline)
    exact regular_of_uncut h
  | some p =>
    obtain ⟨before, uri, post⟩ := p
    rw [cut_some hcut] at hline
    obtain ⟨r, hr, rfl⟩ := Option.map_eq_some_iff.1 hline
    rcases cut_cases hcut with ⟨rfl, -, rfl, hread⟩ | ⟨hmatch, hread⟩
    · rw [List.append_nil, List.nil_append] at h
      exact regular_of_own hcut hread hr h
    · exact regular_of_tag hcut hmatch hread hr h

/-! ## A playlist -/

theorem mapM_eq_none_iff {A B : Type} {f : A → Option B} {as : List A} : as.mapM f = none ↔ ∃ a ∈ as, f a = none := by
  induction as with
  | nil =>
    constructor
    · intro h
      cases h
    · rintro ⟨a, ha, -⟩
      cases ha
  | cons a as ih =>
    rw [List.mapM_cons]
    cases ha : f a with
    | none => exact iff_of_true rfl ⟨a, List.mem_cons_self, ha⟩
    | some b =>
      have hcons : (some b >>= fun b => as.mapM f >>= fun bs => pure (b :: bs)) = none ↔ as.mapM f = none := by
        cases as.mapM f with
        | none => exact iff_of_true rfl rfl
        | some bs => exact ⟨fun h => (Option.some_ne_none _ h).elim, fun h => (Option.some_ne_none _ h).elim⟩
      rw [hcons, ih]
      constructor
      · rintro ⟨c, hc, hnone⟩
        exact ⟨c, List.mem_cons_of_mem _ hc, hnone⟩
      · rintro ⟨c, hc, hnone⟩
        rcases List.mem_cons.1 hc with rfl | hc
        · rw [ha] at hnone
          cases hnone
        · exact ⟨c, hc, hnone⟩

theorem forall₂_of_mapM {A B : Type} {f : A → Option B} {as : List A} {bs : List B} (h : as.mapM f = some bs) :
    List.Forall₂ (fun a b => f a = some b) as bs := by
  induction as generalizing bs with
  | nil =>
    obtain rfl := Option.some.inj h
    exact .nil
  | cons a as ih =>
    rw [List.mapM_cons] at h
    obtain ⟨b, hb, hrest⟩ := Option.bind_eq_some_iff.1 h
    obtain ⟨bs', hbs, hcons⟩ := Option.bind_eq_some_iff.1 hrest
    obtain rfl := Option.some.inj hcons
    exact .cons hb (ih hbs)

/-- The rewriter is the allow-list if every line is regular, or if it refuses one and a URI is foreign. -/
theorem strictAllowList_iff (opts : RewriteOptions) (body : List Char) : StrictAllowList opts body ↔
    ((∃ raw ∈ splitLines body, Refused raw) ∧ ∃ raw ∈ splitLines body, Foreign raw) ∨
      ∀ raw ∈ splitLines body, Regular opts raw := by
  have hrefused : rewriteLines opts body = none ↔ ∃ raw ∈ splitLines body, Refused raw := by
    unfold rewriteLines rewrittenLines
    rw [Option.map_eq_none_iff, mapM_eq_none_iff]
    simp only [rewriteLine_eq_none_iff]
  constructor
  · rintro ⟨hnull, hlines⟩
    rw [hrefused] at hnull
    by_cases hforeign : ∃ raw ∈ splitLines body, Foreign raw
    · exact .inl ⟨hnull.2 hforeign, hforeign⟩
    · right
      cases hout : rewrittenLines opts body with
      | none => exact absurd (hnull.1 (hrefused.1 (by unfold rewriteLines; rw [hout]; rfl))) hforeign
      | some out =>
        have hboth : List.Forall₂ (fun raw _ => Regular opts raw ∧ True) (splitLines body) out :=
          List.Forall₂.mp (fun _ _ h₁ h₂ => ⟨regular_of_lineTranslated h₁ h₂, trivial⟩) (forall₂_of_mapM hout)
            (hlines out hout)
        exact ((List.forall₂_and_left _ _).1 hboth).1
  · rintro (⟨hrefuses, hforeign⟩ | hregular)
    · refine ⟨iff_of_true (hrefused.2 hrefuses) hforeign, fun out hout => ?_⟩
      have hnone := hrefused.2 hrefuses
      unfold rewriteLines at hnone
      rw [hout] at hnone
      cases hnone
    · have hsome : ¬∃ raw ∈ splitLines body, Refused raw := by
        rintro ⟨raw, hraw, hrefuses⟩
        obtain ⟨out, hline, -⟩ := lineTranslated_of_regular (hregular raw hraw)
        rw [rewriteLine_eq_none_iff.2 hrefuses] at hline
        cases hline
      refine ⟨iff_of_false (fun h => hsome (hrefused.1 h)) ?_, fun out hout => ?_⟩
      · rintro ⟨raw, hraw, hforeign⟩
        obtain ⟨-, -, -, hnot⟩ := lineTranslated_of_regular (hregular raw hraw)
        exact hnot hforeign
      · refine ((List.forall₂_and_left _ _).2 ⟨hregular, forall₂_of_mapM hout⟩).imp ?_
        rintro raw line ⟨hr, hline⟩
        obtain ⟨line', hline', htranslated, -⟩ := lineTranslated_of_regular hr
        obtain rfl := Option.some.inj (hline.symm.trans hline')
        exact htranslated

end

/-! ## A key of another tag -/

/-- The key of an encrypted playlist on the gateway's own host. -/
def keyTag : List Char := "#EXT-X-KEY:METHOD=AES-128,URI=\"http://172.17.0.1:1984/key\"".toList

/-- It is passed on as it is. -/
theorem keyTag_not_strictAllowList : ¬StrictAllowList ⟨"https://h".toList, ['t']⟩ keyTag := by
  intro h
  have hnone : rewriteLines ⟨"https://h".toList, ['t']⟩ keyTag = none := by
    refine h.refuses.2 ⟨keyTag, by decide +kernel, ("http://172.17.0.1:1984/key".toList, ['"']), ?_, by decide +kernel⟩
    decide +kernel
  exact absurd hnone (by decide +kernel)

end Cameras
