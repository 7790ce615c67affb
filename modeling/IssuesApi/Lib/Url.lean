import IssuesApi.Lib.Codec
import Mathlib.Data.List.SplitBy

/-!
# URLs and query strings

The part of `urllib.parse` the service uses: `urlsplit`, `unquote`, `parse_qsl`, `parse_qs`,
`quote_plus` and `urlencode`.

`urlsplit` can raise `ValueError` in three places, all about the authority: unbalanced
brackets, a bracketed host that is no IP literal, and a non-ASCII authority whose NFKC form
holds a delimiter.  The first is modelled; the other two are the predicates of
`NetlocChecks`.

The two results the rest of the development uses are `urlsplit_query`, which says what the
query of an ordinary URL is, and `parseQsl_renderQuery`, which reads a rendered query back.
-/

namespace IssuesApi

/-! ## `urlsplit` -/

/-- The two tests of an authority that `urlsplit` delegates. -/
structure NetlocChecks where
  /-- `_check_bracketed_netloc` accepts the authority. -/
  bracketed : Text → Bool
  /-- `_checknetloc` accepts the (non-ASCII) authority. -/
  nfkc : Text → Bool

/-- The components of a URL. -/
structure SplitResult where
  scheme : Text
  netloc : Text
  path : Text
  query : Text
  fragment : Text
  deriving DecidableEq, Repr

/-- `scheme_chars`. -/
def isSchemeChar (c : Char) : Bool := c.isAlphanum || c == '+' || c == '-' || c == '.'

/-- Split off `scheme:`, when what stands before the first colon is a scheme. -/
def splitScheme (url : Text) : Text × Text :=
  match splitFirst ':' url with
  | (s, some rest) =>
    if (s.head?.any Char.isAlpha) && s.all isSchemeChar then (s.map Char.toLower, rest)
    else ([], url)
  | (_, none) => ([], url)

def isNetlocEnd (c : Char) : Bool := c == '/' || c == '?' || c == '#'

/-- Split off `//netloc`. -/
def splitNetloc (url : Text) : Text × Text :=
  match url with
  | '/' :: '/' :: rest =>
    (rest.takeWhile (fun c => !isNetlocEnd c), rest.dropWhile (fun c => !isNetlocEnd c))
  | _ => ([], url)

/-- Whether `urlsplit` accepts the authority. -/
def NetlocChecks.accepts (checks : NetlocChecks) (netloc : Text) : Bool :=
  (netloc.contains '[' == netloc.contains ']') &&
    (!netloc.contains '[' || checks.bracketed netloc) &&
    (isAscii netloc || checks.nfkc netloc)

/-- The characters `urlsplit` removes before it starts. -/
def stripUnsafe (url : Text) : Text :=
  (url.dropWhile (fun c => c.toNat ≤ 0x20)).filter
    (fun c => !(c == '\t' || c == '\r' || c == '\n'))

/-- `urllib.parse.urlsplit`; `none` is a `ValueError`. -/
def urlsplit (checks : NetlocChecks) (url : Text) : Option SplitResult :=
  let (scheme, url) := splitScheme (stripUnsafe url)
  let (netloc, url) := splitNetloc url
  if checks.accepts netloc then
    let (url, fragment) := splitFirst '#' url
    let (path, query) := splitFirst '?' url
    some { scheme, netloc, path, query := query.getD [], fragment := fragment.getD [] }
  else none

/-! ### Ordinary URLs

The URLs of the theorems below are made of visible ASCII characters, which is what RFC 3986
allows, and have the form `base?query`. -/

/-- A visible ASCII character. -/
def isVisible (c : Char) : Bool := 0x21 ≤ c.toNat && c.toNat ≤ 0x7E

lemma isVisible_bounds {c : Char} (h : isVisible c = true) : 0x21 ≤ c.toNat ∧ c.toNat ≤ 0x7E := by
  simpa [isVisible] using h

lemma isSpace_of_isVisible {c : Char} (h : isVisible c = true) : isSpace c = false := by
  have := isVisible_bounds h
  simp only [isSpace, isSpaceCode, Bool.or_eq_false_iff, Bool.and_eq_false_iff,
    decide_eq_false_iff_not, beq_eq_false_iff_ne]
  omega

lemma stripUnsafe_of_visible {url : Text} (h : ∀ c ∈ url, isVisible c = true) :
    stripUnsafe url = url := by
  have hdrop : url.dropWhile (fun c => c.toNat ≤ 0x20) = url := by
    cases url with
    | nil => rfl
    | cons c t =>
      have := isVisible_bounds (h c (by simp))
      rw [List.dropWhile_cons_of_neg (by simp; omega)]
  rw [stripUnsafe, hdrop, List.filter_eq_self]
  intro c hc
  have := isVisible_bounds (h c hc)
  have ht : c ≠ '\t' := by rintro rfl; simp at this
  have hr : c ≠ '\r' := by rintro rfl; simp at this
  have hn : c ≠ '\n' := by rintro rfl; simp at this
  simp [ht, hr, hn]

/-- Taking the scheme off leaves the query and only shortens what stands before it. -/
lemma splitScheme_snd {base : Text} (q : Text) (hb : '?' ∉ base) :
    ∃ base', (∀ c ∈ base', c ∈ base) ∧
      (splitScheme (base ++ '?' :: q)).2 = base' ++ '?' :: q := by
  by_cases hc : ':' ∈ base
  · obtain ⟨s, t, rfl, hs⟩ := List.eq_append_cons_of_mem hc
    rw [splitScheme, List.append_assoc, List.cons_append, splitFirst_append_cons _ hs]
    dsimp only
    split
    · exact ⟨t, fun c hc => by simp [hc], rfl⟩
    · exact ⟨s ++ ':' :: t, fun c hc => hc, by simp⟩
  · -- a colon in the query cannot end a scheme: `?` is no scheme character
    refine ⟨base, fun c hc => hc, ?_⟩
    have hall : ∀ x ∈ base, (x != ':') = true := fun x hx => by
      simpa using fun h : x = ':' => hc (h ▸ hx)
    rw [splitScheme, splitFirst]
    cases hd : (base ++ '?' :: q).dropWhile (· != ':') with
    | nil => rfl
    | cons c rest =>
      have hq : '?' ∈ (base ++ '?' :: q).takeWhile (· != ':') := by
        rw [List.takeWhile_append_of_pos hall]
        simp
      have hns : ((base ++ '?' :: q).takeWhile (· != ':')).all isSchemeChar = false := by
        rw [List.all_eq_false]
        exact ⟨'?', hq, by decide⟩
      simp [hns]

/-- Taking the authority off leaves the query; the authority comes from the text before it. -/
lemma splitNetloc_spec {base : Text} (q : Text) (hb : '?' ∉ base) :
    ∃ base', (∀ c ∈ base', c ∈ base) ∧ (∀ c ∈ (splitNetloc (base ++ '?' :: q)).1, c ∈ base) ∧
      (splitNetloc (base ++ '?' :: q)).2 = base' ++ '?' :: q := by
  have hcut : ∀ t : Text, '?' ∉ t → ∃ t', (∀ c ∈ t', c ∈ t) ∧
      (∀ c ∈ (t ++ '?' :: q).takeWhile (fun c => !isNetlocEnd c), c ∈ t) ∧
      (t ++ '?' :: q).dropWhile (fun c => !isNetlocEnd c) = t' ++ '?' :: q := by
    intro t ht
    induction t with
    | nil => exact ⟨[], by simp, by simp [isNetlocEnd], by simp [isNetlocEnd]⟩
    | cons x t ih =>
      obtain ⟨t', h₁, h₂, h₃⟩ := ih (fun h => ht (List.mem_cons_of_mem _ h))
      by_cases hx : isNetlocEnd x = true
      · exact ⟨x :: t, fun c hc => hc, by simp [hx], by simp [hx]⟩
      · refine ⟨t', fun c hc => List.mem_cons_of_mem _ (h₁ c hc), fun c hc => ?_, ?_⟩
        · rw [List.cons_append, List.takeWhile_cons_of_pos (by simpa using hx)] at hc
          rcases List.mem_cons.mp hc with rfl | hc
          · simp
          · exact List.mem_cons_of_mem _ (h₂ c hc)
        · rw [List.cons_append, List.dropWhile_cons_of_pos (by simpa using hx), h₃]
  unfold splitNetloc
  split
  · next rest heq =>
    rcases base with _ | ⟨a, _ | ⟨b, t⟩⟩
    · simp at heq
    · simp at heq
    · obtain ⟨-, -, rfl⟩ : a = '/' ∧ b = '/' ∧ t ++ '?' :: q = rest := by simpa using heq
      obtain ⟨t', h₁, h₂, h₃⟩ := hcut t (fun h => hb (by simp [h]))
      exact ⟨t', fun c hc => by simp [h₁ c hc], fun c hc => by simp [h₂ c hc], h₃⟩
  · exact ⟨base, fun c hc => hc, by simp, rfl⟩

/-- The visible ASCII text that may stand before the query of an ordinary URL. -/
def UrlBase (base : Text) : Prop :=
  ∀ c ∈ base, isVisible c = true ∧ c ∉ ['?', '#', '[', ']', '<', '>']

/-- The visible ASCII text a query may consist of. -/
def UrlQuery (q : Text) : Prop := ∀ c ∈ q, isVisible c = true ∧ c ∉ ['#', '<', '>']

instance (t : Text) : Decidable (UrlBase t) := by unfold UrlBase; infer_instance

instance (t : Text) : Decidable (UrlQuery t) := by unfold UrlQuery; infer_instance

lemma NetlocChecks.accepts_of_plain (checks : NetlocChecks) {netloc : Text}
    (hv : ∀ c ∈ netloc, isVisible c = true) (ho : '[' ∉ netloc) (hc : ']' ∉ netloc) :
    checks.accepts netloc = true := by
  have hascii : isAscii netloc = true := by
    rw [isAscii, List.all_eq_true]
    intro c hmem
    have := isVisible_bounds (hv c hmem)
    simp; omega
  simp [NetlocChecks.accepts, ho, hc, hascii]

/-- **The query of an ordinary URL.**  `urlsplit` accepts `base?q` and returns `q`. -/
theorem urlsplit_query (checks : NetlocChecks) {base q : Text} (hb : UrlBase base)
    (hq : UrlQuery q) : ∃ r, urlsplit checks (base ++ '?' :: q) = some r ∧ r.query = q := by
  have hvis : ∀ c ∈ base ++ '?' :: q, isVisible c = true := by
    intro c hc
    rw [List.mem_append, List.mem_cons] at hc
    rcases hc with hc | rfl | hc
    · exact (hb c hc).1
    · decide
    · exact (hq c hc).1
  have hbq : '?' ∉ base := fun h => (hb _ h).2 (by simp)
  obtain ⟨b₁, hb₁, hs⟩ := splitScheme_snd q hbq
  have hb₁q : '?' ∉ b₁ := fun h => hbq (hb₁ _ h)
  obtain ⟨b₂, hb₂, hn, hs₂⟩ := splitNetloc_spec q hb₁q
  have hsub : ∀ c ∈ b₂, c ∈ base := fun c hc => hb₁ c (hb₂ c hc)
  have hacc : checks.accepts (splitNetloc (b₁ ++ '?' :: q)).1 = true := by
    refine checks.accepts_of_plain (fun c hc => (hb c (hb₁ c (hn c hc))).1) ?_ ?_
    · exact fun h => (hb _ (hb₁ _ (hn _ h))).2 (by simp)
    · exact fun h => (hb _ (hb₁ _ (hn _ h))).2 (by simp)
  have hfrag : '#' ∉ b₂ ++ '?' :: q := by
    simp only [List.mem_append, List.mem_cons, not_or]
    exact ⟨fun h => (hb _ (hsub _ h)).2 (by simp), by decide, fun h => (hq _ h).2 (by simp)⟩
  have hquest : '?' ∉ b₂ := fun h => hbq (hsub _ h)
  refine ⟨⟨(splitScheme (base ++ '?' :: q)).1, (splitNetloc (b₁ ++ '?' :: q)).1, b₂, q, []⟩,
    ?_, rfl⟩
  rw [urlsplit, stripUnsafe_of_visible hvis]
  dsimp only
  rw [hs, hs₂, if_pos hacc, splitFirst_of_not_mem hfrag]
  dsimp only
  rw [splitFirst_append_cons _ hquest]
  rfl

/-- A reference that starts with one slash has neither a scheme nor an authority. -/
lemma urlsplit_relative (checks : NetlocChecks) {c : Char} {t : Text} (hc : c ≠ '/')
    (hvis : ∀ x ∈ '/' :: c :: t, isVisible x = true) (hfrag : '#' ∉ '/' :: c :: t) :
    urlsplit checks ('/' :: c :: t) = some ⟨[], [], (splitFirst '?' ('/' :: c :: t)).1,
      (splitFirst '?' ('/' :: c :: t)).2.getD [], []⟩ := by
  have hscheme : splitScheme ('/' :: c :: t) = ([], '/' :: c :: t) := by
    -- the first character is a slash, so no scheme starts here
    rw [splitScheme, splitFirst]
    cases hd : ('/' :: c :: t).dropWhile (· != ':') with
    | nil => rfl
    | cons x rest =>
      have : ((('/' :: c :: t).takeWhile (· != ':')).head?.any Char.isAlpha) = false := by
        rw [List.takeWhile_cons_of_pos (by decide)]
        rfl
      simp only [this, Bool.false_and, Bool.false_eq_true, if_false]
  have hnetloc : splitNetloc ('/' :: c :: t) = ([], '/' :: c :: t) := by
    unfold splitNetloc
    split
    · next rest heq => exact absurd (by simpa using heq : c = '/' ∧ _).1 hc
    · rfl
  rw [urlsplit, stripUnsafe_of_visible hvis, hscheme]
  dsimp only
  rw [hnetloc]
  dsimp only
  rw [if_pos (checks.accepts_of_plain (by simp) (by simp) (by simp)),
    splitFirst_of_not_mem hfrag]
  rfl

/-- A local reference `/path?query`, whose path does not start with a second slash. -/
theorem urlsplit_local (checks : NetlocChecks) {c : Char} {t q : Text} (hc : c ≠ '/')
    (hb : UrlBase ('/' :: c :: t)) (hq : UrlQuery q) :
    urlsplit checks ('/' :: c :: t ++ '?' :: q) = some ⟨[], [], '/' :: c :: t, q, []⟩ := by
  have hvis : ∀ x ∈ '/' :: c :: t ++ '?' :: q, isVisible x = true := by
    intro x hx
    rw [List.mem_append, List.mem_cons (a := x) (b := '?')] at hx
    rcases hx with hx | rfl | hx
    · exact (hb x hx).1
    · decide
    · exact (hq x hx).1
  have hfrag : '#' ∉ '/' :: c :: t ++ '?' :: q := by
    rw [List.mem_append, List.mem_cons (a := '#') (b := '?')]
    rintro (h | h | h)
    · exact (hb _ h).2 (by simp)
    · exact absurd h (by decide)
    · exact (hq _ h).2 (by simp)
  have hquest : '?' ∉ '/' :: c :: t := fun h => (hb _ h).2 (by simp)
  have hsplit := splitFirst_append_cons q hquest
  rw [List.cons_append, List.cons_append] at hvis hfrag hsplit ⊢
  rw [urlsplit_relative checks hc hvis hfrag, hsplit]
  rfl

/-- A local reference without a query. -/
theorem urlsplit_path (checks : NetlocChecks) {c : Char} {t : Text} (hc : c ≠ '/')
    (hb : UrlBase ('/' :: c :: t)) :
    urlsplit checks ('/' :: c :: t) = some ⟨[], [], '/' :: c :: t, [], []⟩ := by
  have hfrag : '#' ∉ '/' :: c :: t := fun h => (hb _ h).2 (by simp)
  have hquest : '?' ∉ '/' :: c :: t := fun h => (hb _ h).2 (by simp)
  rw [urlsplit_relative checks hc (fun x hx => (hb x hx).1) hfrag, splitFirst_of_not_mem hquest]
  rfl

/-! ## Percent-decoding -/

/-- The value of a hexadecimal digit. -/
def hexCharValue (c : Char) : Option ℕ :=
  if '0' ≤ c ∧ c ≤ '9' then some (c.toNat - 48)
  else if 'A' ≤ c ∧ c ≤ 'F' then some (c.toNat - 55)
  else if 'a' ≤ c ∧ c ≤ 'f' then some (c.toNat - 87)
  else none

/-- `unquote_to_bytes` on ASCII text: a percent sign that two hexadecimal digits do not
follow stands for itself. -/
def unquoteToBytes : Text → Bytes
  | '%' :: a :: b :: rest =>
    match hexCharValue a, hexCharValue b with
    | some x, some y => UInt8.ofNat (16 * x + y) :: unquoteToBytes rest
    | _, _ => UInt8.ofNat '%'.toNat :: unquoteToBytes (a :: b :: rest)
  | c :: rest => UInt8.ofNat c.toNat :: unquoteToBytes rest
  | [] => []

/-- `urllib.parse.unquote`: each maximal ASCII run is percent-decoded and read as UTF-8. -/
def unquote (t : Text) : Text :=
  if t.contains '%' then
    (t.splitBy (fun a b => isAscii [a] == isAscii [b])).flatMap
      (fun run => if isAscii run then utf8Replace (unquoteToBytes run) else run)
  else t

/-- `unquote(t.replace("+", " "))`. -/
def unquotePlus (t : Text) : Text := unquote (t.map (fun c => if c = '+' then ' ' else c))

/-- Text without escapes is left alone. -/
lemma unquotePlus_of_plain {t : Text} (hp : '%' ∉ t) (hs : '+' ∉ t) : unquotePlus t = t := by
  have hmap : t.map (fun c => if c = '+' then ' ' else c) = t := by
    conv_rhs => rw [← List.map_id t]
    refine List.map_congr_left fun c hc => ?_
    have : c ≠ '+' := fun h => hs (h ▸ hc)
    simp [this]
  rw [unquotePlus, hmap, unquote, if_neg (by simpa using hp)]

/-- What stands for itself. -/
lemma unquoteToBytes_cons {c : Char} (hc : c ≠ '%') (rest : Text) :
    unquoteToBytes (c :: rest) = UInt8.ofNat c.toNat :: unquoteToBytes rest := by
  rw [unquoteToBytes]
  rintro a b t rfl -
  exact hc rfl

lemma unquoteToBytes_escape {a b : Char} {x y : ℕ} (ha : hexCharValue a = some x)
    (hb : hexCharValue b = some y) (rest : Text) :
    unquoteToBytes ('%' :: a :: b :: rest) = UInt8.ofNat (16 * x + y) :: unquoteToBytes rest := by
  rw [unquoteToBytes, ha, hb]

lemma unquoteToBytes_ne_nil {t : Text} (h : t ≠ []) : unquoteToBytes t ≠ [] := by
  unfold unquoteToBytes
  split
  · split
    · exact List.cons_ne_nil _ _
    · exact List.cons_ne_nil _ _
  · exact List.cons_ne_nil _ _
  · exact absurd rfl h

/-- ASCII text is one run. -/
lemma unquote_of_isAscii {t : Text} (h : isAscii t = true) :
    unquote t = utf8Replace (unquoteToBytes t) := by
  have hchar : ∀ c ∈ t, c.toNat < 128 := by simpa [isAscii] using h
  rw [unquote]
  split
  · next hescape =>
    have hne : t ≠ [] := by
      rintro rfl
      cases hescape
    have hchain : t.IsChain fun a b => isAscii [a] == isAscii [b] := by
      refine List.Pairwise.isChain (List.pairwise_iff_forall_sublist.mpr fun {a b} hab => ?_)
      have ha : a ∈ t := hab.subset (by simp)
      have hb : b ∈ t := hab.subset (by simp)
      simp [isAscii, hchar a ha, hchar b hb]
    rw [List.splitBy_of_isChain hne hchain, List.flatMap_singleton, if_pos h]
  · next hescape =>
    have hplain : '%' ∉ t := by simpa using hescape
    have hbytes : ∀ u : Text, u ⊆ t → unquoteToBytes u = utf8Encode u := by
      intro u hu
      induction u with
      | nil => rfl
      | cons c u ih =>
        have hc : c ∈ t := hu (by simp)
        rw [unquoteToBytes_cons (fun heq => hplain (heq ▸ hc)),
          ih fun x hx => hu (List.mem_cons_of_mem _ hx), utf8Encode, utf8Encode,
          List.flatMap_cons, utf8EncodeChar_of_ascii (hchar c hc), List.singleton_append]
    rw [hbytes t (List.Subset.refl t), utf8Replace_utf8Encode]

/-- Decoding leaves something of every text. -/
lemma unquote_ne_nil {t : Text} (h : t ≠ []) : unquote t ≠ [] := by
  rw [unquote]
  split
  · intro hnil
    obtain ⟨run, hrun⟩ := List.exists_mem_of_ne_nil _ (List.splitBy_ne_nil.mpr h)
    have hempty := List.flatMap_eq_nil_iff.mp hnil run hrun
    have hne : run ≠ [] := List.ne_nil_of_mem_splitBy hrun
    split at hempty
    · exact utf8Replace_ne_nil (unquoteToBytes_ne_nil hne) hempty
    · exact hne hempty
  · exact h

lemma unquotePlus_ne_nil {t : Text} (h : t ≠ []) : unquotePlus t ≠ [] :=
  unquote_ne_nil (by simpa using h)

/-! ## Query strings -/

/-- One `name=value` piece of a query; `none` when it is skipped. -/
def parsePiece (keepBlank : Bool) (piece : Text) : Option (Text × Text) :=
  if piece = [] then none
  else
    match splitFirst '=' piece with
    | (name, some value) =>
      if value ≠ [] ∨ keepBlank then some (unquotePlus name, unquotePlus value) else none
    | (name, none) => if keepBlank then some (unquotePlus name, []) else none

/-- `urllib.parse.parse_qsl`. -/
def parseQsl (keepBlank : Bool) (query : Text) : List (Text × Text) :=
  if query = [] then [] else (query.splitOn '&').filterMap (parsePiece keepBlank)

/-- The values a pair list has for a name, in order. -/
def valuesOf (pairs : List (Text × Text)) (name : Text) : List Text :=
  (pairs.filter (fun p => p.1 = name)).map (·.2)

/-- `urllib.parse.parse_qs(query)[name]`; the list is empty exactly when the key is absent. -/
def parseQs (query name : Text) : List Text := valuesOf (parseQsl false query) name

/-- A query as it stands in a URL: `name=value` pieces joined by `&`. -/
def renderQuery (params : List (Text × Text)) : Text :=
  joinSep ['&'] (params.map (fun p => p.1 ++ '=' :: p.2))

/-- Raw parameters that a query can hold unambiguously. -/
def RawParam (p : Text × Text) : Prop := '&' ∉ p.1 ∧ '=' ∉ p.1 ∧ '&' ∉ p.2

instance (p : Text × Text) : Decidable (RawParam p) := by unfold RawParam; infer_instance

lemma parsePiece_render (keepBlank : Bool) {p : Text × Text} (hp : RawParam p) :
    parsePiece keepBlank (p.1 ++ '=' :: p.2) =
      if p.2 ≠ [] ∨ keepBlank then some (unquotePlus p.1, unquotePlus p.2) else none := by
  rw [parsePiece, if_neg (by simp), splitFirst_append_cons _ hp.2.1]

/-- **Reading a rendered query back.**  The parameters come back decoded, in order; those with
a blank value do when blank values are kept. -/
theorem parseQsl_renderQuery (keepBlank : Bool) {params : List (Text × Text)}
    (h : ∀ p ∈ params, RawParam p) :
    parseQsl keepBlank (renderQuery params) =
      (params.filter fun p => p.2 ≠ [] ∨ keepBlank).map
        fun p => (unquotePlus p.1, unquotePlus p.2) := by
  rcases params.eq_nil_or_concat with rfl | ⟨init, last, hparams⟩
  · rfl
  have hpieces : params.map (fun p => p.1 ++ '=' :: p.2) ≠ [] := by simp [hparams]
  have hq : renderQuery params ≠ [] := by
    obtain ⟨p, ps, rfl⟩ := List.exists_cons_of_ne_nil (by simp [hparams] : params ≠ [])
    cases ps with
    | nil => simp [renderQuery]
    | cons p' ps => simp [renderQuery, joinSep_cons_cons]
  have hsplit : ∀ t ∈ params.map (fun p => p.1 ++ '=' :: p.2), '&' ∉ t := by
    intro t ht
    obtain ⟨p, hp, rfl⟩ := List.mem_map.mp ht
    have := h p hp
    simp [this.1, this.2.2]
  rw [parseQsl, if_neg hq, renderQuery, splitOn_joinSep '&' hpieces hsplit, List.filterMap_map,
    ← List.filterMap_eq_map, ← List.filterMap_eq_filter, List.filterMap_filterMap]
  refine List.filterMap_congr fun p hp => ?_
  rw [Function.comp_apply, parsePiece_render keepBlank (h p hp)]
  by_cases hkeep : p.2 ≠ [] ∨ keepBlank
  · simp [Option.guard, hkeep]
  · simp [Option.guard, hkeep]

/-- A query made of texts that may stand in one is one. -/
lemma urlQuery_renderQuery {params : List (Text × Text)}
    (h : ∀ p ∈ params, UrlQuery p.1 ∧ UrlQuery p.2) : UrlQuery (renderQuery params) := by
  intro c hc
  rcases mem_joinSep hc with hsep | ⟨piece, hpiece, hmem⟩
  · rw [List.mem_singleton.mp hsep]
    decide
  · obtain ⟨p, hp, rfl⟩ := List.mem_map.mp hpiece
    rcases List.mem_append.mp hmem with hname | hvalue
    · exact (h p hp).1 c hname
    · rcases List.mem_cons.mp hvalue with rfl | hvalue
      · decide
      · exact (h p hp).2 c hvalue

/-- The values of a name that stands in the query with one value only. -/
lemma parseQs_renderQuery {params : List (Text × Text)} (hraw : ∀ p ∈ params, RawParam p)
    {name value : Text} (hmem : (name, value) ∈ params) (hname : unquotePlus name = name)
    (hvalue : unquotePlus value = value) (hne : value ≠ [])
    (honly : ∀ p ∈ params, unquotePlus p.1 = name → p.2 = value) :
    ∃ more, parseQs (renderQuery params) name = value :: more := by
  have hiff : ∀ v, v ∈ parseQs (renderQuery params) name ↔
      ∃ p ∈ params, p.2 ≠ [] ∧ unquotePlus p.1 = name ∧ unquotePlus p.2 = v := by
    intro v
    rw [parseQs, parseQsl_renderQuery false hraw]
    simp [valuesOf, and_assoc]
  have hall : ∀ v ∈ parseQs (renderQuery params) name, v = value := by
    intro v hv
    obtain ⟨p, hp, -, hpname, rfl⟩ := (hiff v).mp hv
    rw [honly p hp hpname, hvalue]
  have hone : value ∈ parseQs (renderQuery params) name :=
    (hiff value).mpr ⟨(name, value), hmem, hne, hname, hvalue⟩
  obtain ⟨first, more, heq⟩ := List.exists_cons_of_ne_nil (List.ne_nil_of_mem hone)
  rw [heq] at hall
  exact ⟨more, by rw [heq, hall first (by simp)]⟩

/-! ## Percent-encoding -/

/-- `_ALWAYS_SAFE`. -/
def isAlwaysSafe (c : Char) : Bool :=
  c.isAlphanum || c == '_' || c == '.' || c == '-' || c == '~'

/-- One byte of `quote_plus`. -/
def quoteByte (b : UInt8) : Text :=
  let c := Char.ofNat b.toNat
  if isAlwaysSafe c then [c]
  else if b = 0x20 then ['+']
  else ['%', (Nat.digitChar (b.toNat / 16)).toUpper, (Nat.digitChar (b.toNat % 16)).toUpper]

/-- `urllib.parse.quote_plus`. -/
def quotePlus (t : Text) : Text := (utf8Encode t).flatMap quoteByte

/-- `urllib.parse.urlencode`. -/
def urlencode (params : List (Text × Text)) : Text :=
  renderQuery (params.map (fun p => (quotePlus p.1, quotePlus p.2)))

/-- Safe ASCII text is its own encoding. -/
lemma quotePlus_of_safe {t : Text} (h : ∀ c ∈ t, isAlwaysSafe c = true ∧ c.toNat < 128) :
    quotePlus t = t := by
  induction t with
  | nil => rfl
  | cons c t ih =>
    obtain ⟨hsafe, hascii⟩ := h c (by simp)
    have hquote : quoteByte (UInt8.ofNat c.toNat) = [c] := by
      have hc : Char.ofNat (UInt8.ofNat c.toNat).toNat = c := by
        rw [UInt8.toNat_ofNat_of_lt' (by simpa using (by omega : c.toNat < 256)),
          Char.ofNat_toNat]
      simp only [quoteByte, hc, hsafe, if_true]
    have ih' := ih (fun x hx => h x (List.mem_cons_of_mem _ hx))
    rw [quotePlus, utf8Encode] at ih'
    rw [quotePlus, utf8Encode, List.flatMap_cons, utf8EncodeChar_of_ascii hascii,
      List.singleton_append, List.flatMap_cons, hquote, ih', List.singleton_append]

lemma isAlwaysSafe_of_isDigit {c : Char} (h : c.isDigit = true) : isAlwaysSafe c = true := by
  simp [isAlwaysSafe, Char.isAlphanum, h]

/-- Every byte is written in visible ASCII, and without a character that means something in
a URL or a link. -/
lemma isVisible_of_mem_quoteByte {b : UInt8} {c : Char} (h : c ∈ quoteByte b) :
    isVisible c = true ∧ c ∉ ['#', '<', '>'] := by
  have hall : ∀ n < 256, ∀ c ∈ quoteByte (UInt8.ofNat n),
      isVisible c = true ∧ c ∉ ['#', '<', '>'] := by
    decide +kernel
  refine hall b.toNat b.toNat_lt c ?_
  rwa [UInt8.ofNat_toNat]

lemma urlQuery_quotePlus (t : Text) : UrlQuery (quotePlus t) := by
  intro c hc
  obtain ⟨b, -, hb⟩ := List.mem_flatMap.mp hc
  exact isVisible_of_mem_quoteByte hb

/-- An encoded query is a query. -/
lemma urlQuery_urlencode (params : List (Text × Text)) : UrlQuery (urlencode params) := by
  refine urlQuery_renderQuery fun p hp => ?_
  obtain ⟨q, -, rfl⟩ := List.mem_map.mp hp
  exact ⟨urlQuery_quotePlus q.1, urlQuery_quotePlus q.2⟩

/-- The digits of an escape. -/
lemma hexCharValue_digitChar : ∀ k < 16, hexCharValue (Nat.digitChar k).toUpper = some k ∧
    (Nat.digitChar k).toUpper ≠ '+' := by
  decide

/-- A quoted byte is read back. -/
lemma unquoteToBytes_quoteByte (b : UInt8) (rest : Text) :
    unquoteToBytes ((quoteByte b).map (fun c => if c = '+' then ' ' else c) ++ rest) =
      b :: unquoteToBytes rest := by
  have hb := b.toNat_lt
  rw [quoteByte]
  split
  · next hsafe =>
    have hplus : Char.ofNat b.toNat ≠ '+' := fun h => absurd (h ▸ hsafe) (by decide)
    have hpercent : Char.ofNat b.toNat ≠ '%' := fun h => absurd (h ▸ hsafe) (by decide)
    have hvalid : b.toNat.isValidChar := Or.inl (by omega)
    have hbyte : (Char.ofNat b.toNat).toNat = b.toNat := by
      rw [Char.ofNat, dif_pos hvalid]
      rfl
    rw [List.map_singleton, if_neg hplus, List.singleton_append, unquoteToBytes_cons hpercent,
      hbyte, UInt8.ofNat_toNat]
  · split
    · next hspace =>
      rw [hspace]
      exact unquoteToBytes_cons (by decide) rest
    · obtain ⟨hhigh, hhigh'⟩ := hexCharValue_digitChar (b.toNat / 16) (by omega)
      obtain ⟨hlow, hlow'⟩ := hexCharValue_digitChar (b.toNat % 16) (by omega)
      simp only [List.map_cons, List.map_nil, if_neg hhigh', if_neg hlow', List.cons_append,
        List.nil_append]
      rw [if_neg (by decide), unquoteToBytes_escape hhigh hlow]
      congr 1
      rw [Nat.div_add_mod, UInt8.ofNat_toNat]

lemma unquoteToBytes_quotePlus (bs : Bytes) :
    unquoteToBytes ((bs.flatMap quoteByte).map fun c => if c = '+' then ' ' else c) = bs := by
  induction bs with
  | nil => rfl
  | cons b bs ih => rw [List.flatMap_cons, List.map_append, unquoteToBytes_quoteByte, ih]

/-- **Unquoting undoes quoting.** -/
theorem unquotePlus_quotePlus (t : Text) : unquotePlus (quotePlus t) = t := by
  have hascii : isAscii ((quotePlus t).map fun c => if c = '+' then ' ' else c) = true := by
    rw [isAscii, List.all_map, List.all_eq_true]
    intro c hc
    have hvisible := isVisible_bounds (urlQuery_quotePlus t c hc).1
    by_cases hplus : c = '+'
    · simp [hplus]
    · simpa [hplus] using (by omega : c.toNat < 128)
  rw [unquotePlus, unquote_of_isAscii hascii, quotePlus, unquoteToBytes_quotePlus,
    utf8Replace_utf8Encode]

lemma quotePlus_ne_nil {t : Text} (h : t ≠ []) : quotePlus t ≠ [] := by
  rintro hnil
  have hback := unquotePlus_quotePlus t
  rw [hnil] at hback
  exact h hback.symm

/-- A quoted text holds none of the characters that structure a query. -/
lemma not_mem_quotePlus {c : Char} (hc : c ∈ ['&', '=']) (t : Text) : c ∉ quotePlus t := by
  have hall : ∀ n < 256, ∀ x ∈ quoteByte (UInt8.ofNat n), x ∉ ['&', '='] := by
    decide +kernel
  intro hmem
  obtain ⟨b, -, hb⟩ := List.mem_flatMap.mp hmem
  refine hall b.toNat b.toNat_lt c ?_ hc
  rwa [UInt8.ofNat_toNat]

/-- **Reading an encoded query back.**  `parse_qsl` undoes `urlencode` on values that are not
empty. -/
theorem parseQsl_urlencode (keepBlank : Bool) {params : List (Text × Text)}
    (h : ∀ p ∈ params, p.2 ≠ []) : parseQsl keepBlank (urlencode params) = params := by
  have hraw : ∀ p ∈ params.map (fun p => (quotePlus p.1, quotePlus p.2)), RawParam p := by
    intro p hp
    obtain ⟨q, -, rfl⟩ := List.mem_map.mp hp
    exact ⟨not_mem_quotePlus (by decide) _, not_mem_quotePlus (by decide) _,
      not_mem_quotePlus (by decide) _⟩
  have hkept : ∀ p ∈ params.map (fun p => (quotePlus p.1, quotePlus p.2)),
      decide (p.2 ≠ [] ∨ keepBlank = true) = true := by
    intro p hp
    obtain ⟨q, hq, rfl⟩ := List.mem_map.mp hp
    exact decide_eq_true (Or.inl (quotePlus_ne_nil (h q hq)))
  rw [urlencode, parseQsl_renderQuery keepBlank hraw, List.filter_eq_self.mpr hkept, List.map_map]
  refine (List.map_congr_left fun p _ => ?_).trans (List.map_id _)
  exact Prod.ext (unquotePlus_quotePlus p.1) (unquotePlus_quotePlus p.2)

/-- Without blank values, every value that is parsed holds something. -/
lemma ne_nil_of_mem_parseQs {query name value : Text} (h : value ∈ parseQs query name) :
    value ≠ [] := by
  obtain ⟨p, hp, rfl⟩ := List.mem_map.mp h
  have hmem := List.mem_of_mem_filter hp
  rw [parseQsl] at hmem
  split at hmem
  · cases hmem
  · obtain ⟨piece, -, hpiece⟩ := List.mem_filterMap.mp hmem
    rw [parsePiece] at hpiece
    split at hpiece
    · cases hpiece
    · split at hpiece
      · split at hpiece
        · next hraw =>
          obtain rfl := Option.some.inj hpiece
          exact unquotePlus_ne_nil (hraw.resolve_right (by decide))
        · cases hpiece
      · cases hpiece

@[simp] lemma quotePlus_decimal (n : ℕ) : quotePlus (decimal n) = decimal n := by
  refine quotePlus_of_safe fun c hc => ?_
  have hd := isDigit_of_mem_decimal hc
  have := isDigit_bounds hd
  exact ⟨isAlwaysSafe_of_isDigit hd, by omega⟩

@[simp] lemma unquotePlus_decimal (n : ℕ) : unquotePlus (decimal n) = decimal n :=
  unquotePlus_of_plain (not_mem_decimal n (by decide)) (not_mem_decimal n (by decide))

end IssuesApi
