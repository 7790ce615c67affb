import IssuesApi.LinkEntries

/-!
# What reads as a link

`_LINK_SEGMENT` and `_REL_PARAM` as descriptions of a text: where a `rel=` with a value begins,
what it names, and when a text reads as a link that says something.  The readers of `Pagination`
find just what is described here.
-/

namespace IssuesApi

/-! ## A `rel=` and what it names -/

/-- A character of a value without quotation marks, `[^\s;,]`. -/
def isWordChar (c : Char) : Bool := !(isSpace c || c == ';' || c == ',')

/-- `rel`, in any case, and an equals sign, with blanks around it. -/
def IsRelSign (sign : Text) : Prop :=
  ∃ r e l gap gap', sign = r :: e :: l :: (gap ++ '=' :: gap') ∧
    (r.toLower = 'r' ∧ e.toLower = 'e' ∧ l.toLower = 'l') ∧
    (∀ c ∈ gap, isSpace c = true) ∧ ∀ c ∈ gap', isSpace c = true

/-- A `rel=` with a value begins the text. -/
def StartsRel (t : Text) : Prop :=
  ∃ sign c rest, t = sign ++ c :: rest ∧ IsRelSign sign ∧ isWordChar c = true

/-- A quotation mark that is closed begins the text. -/
def IsQuoted (t : Text) : Prop := t.head? = some '"' ∧ '"' ∈ t.tail

instance (t : Text) : Decidable (IsQuoted t) := by
  unfold IsQuoted
  infer_instance

/-- What the value at the start of a text names: what stands in quotation marks, or else all up
to a blank, a semicolon or a comma. -/
inductive ValueNames : Text → Text → Prop
  | quoted (name rest : Text) : '"' ∉ name → ValueNames ('"' :: (name ++ '"' :: rest)) name
  | word (name rest : Text) : name ≠ [] → (∀ c ∈ name, isWordChar c = true) →
      (∀ c ∈ rest.head?, isWordChar c = false) →
      ¬ IsQuoted (name ++ rest) → ValueNames (name ++ rest) name

/-- What the first `rel=` of a text names: all others stand behind where it begins. -/
def FirstRelNames (t name : Text) : Prop :=
  ∃ sign value, sign ++ value <:+ t ∧ IsRelSign sign ∧ ValueNames value name ∧
    ∀ u, u <:+ t → StartsRel u → u <:+ sign ++ value

/-- The text, blanks around it aside, reads as a link: a URL in angle brackets, a semicolon, and
behind it a `rel=`.  It says something when the URL and the relation are not blank, or when the
relation is empty, which is an error. -/
def SaysLink (t : Text) : Prop :=
  ∃ url gap params name, strip t = '<' :: (url ++ '>' :: (gap ++ ';' :: params)) ∧ '>' ∉ url ∧
    (∀ c ∈ gap, isSpace c = true) ∧ FirstRelNames params name ∧
    (name = [] ∨ (strip name ≠ [] ∧ strip url ≠ []))

/-! ## The readers -/

/-- What a match names. -/
def RelMatch.name (m : RelMatch) : Text := m.quoted.getD (m.bare.getD [])

/-- A letter in either case is no whitespace. -/
lemma isSpace_of_toLower {c : Char} (h : isSpace c.toLower = false) : isSpace c = false := by
  by_cases hupper : 'A'.val ≤ c.val ∧ c.val ≤ 'Z'.val
  · rw [UInt32.le_iff_toNat_le, UInt32.le_iff_toNat_le] at hupper
    have hlow : 65 ≤ c.toNat := hupper.1
    have hhigh : c.toNat ≤ 90 := hupper.2
    simp only [isSpace, isSpaceCode, Bool.or_eq_false_iff, Bool.and_eq_false_iff,
      decide_eq_false_iff_not, beq_eq_false_iff_ne]
    omega
  · have hsame : c.toLower = c := dif_neg hupper
    rwa [hsame] at h

lemma isSpace_of_isWordChar {c : Char} (h : isWordChar c = true) : isSpace c = false := by
  rw [isWordChar, Bool.not_eq_true', Bool.or_eq_false_iff, Bool.or_eq_false_iff] at h
  exact h.1.1

lemma matchRelValue_of_quoted {t : Text} (h : IsQuoted t) :
    matchRelValue t = some ⟨some (t.tail.takeWhile (· != '"')), none⟩ := by
  obtain ⟨rest, rfl⟩ : ∃ rest, t = '"' :: rest := List.head?_eq_some_iff.mp h.1
  exact if_pos h.2

lemma matchRelValue_of_not_quoted {t : Text} (h : ¬ IsQuoted t) :
    matchRelValue t =
      if t.takeWhile isWordChar = [] then none else some ⟨none, some (t.takeWhile isWordChar)⟩ := by
  unfold matchRelValue
  split
  · next rest => exact if_neg fun hclosed => h ⟨rfl, hclosed⟩
  · rfl

/-- A value is read whenever it begins with a character of one. -/
lemma matchRelValue_isSome_iff {t : Text} :
    (matchRelValue t).isSome = true ↔ ∃ c ∈ t.head?, isWordChar c = true := by
  by_cases hquoted : IsQuoted t
  · rw [matchRelValue_of_quoted hquoted, hquoted.1]
    have hword : isWordChar '"' = true := by decide
    simp [hword]
  · rw [matchRelValue_of_not_quoted hquoted]
    cases t with
    | nil => simp
    | cons c rest => cases hword : isWordChar c <;> simp [hword]

/-- A value is read as what it names. -/
lemma valueNames_iff {t name : Text} :
    ValueNames t name ↔ ∃ m, matchRelValue t = some m ∧ m.name = name := by
  constructor
  · rintro (⟨_, rest, hname⟩ | ⟨_, rest, hne, hword, hend, hquoted⟩)
    · have hquoted : IsQuoted ('"' :: (name ++ '"' :: rest)) := ⟨rfl, by simp⟩
      have hname : ∀ c ∈ name, (c != '"') = true := by
        intro c hc
        simpa using fun heq : c = '"' => hname (heq ▸ hc)
      refine ⟨_, matchRelValue_of_quoted hquoted, ?_⟩
      exact takeWhile_append_cons rest hname (by decide)
    · have htake : (name ++ rest).takeWhile isWordChar = name := by
        rw [List.takeWhile_append_of_pos hword]
        cases rest with
        | nil => simp
        | cons c rest => rw [List.takeWhile_cons_of_neg (by simpa using hend), List.append_nil]
      refine ⟨⟨none, some name⟩, ?_, rfl⟩
      rw [matchRelValue_of_not_quoted hquoted, htake, if_neg hne]
  · rintro ⟨m, hmatch, rfl⟩
    by_cases hquoted : IsQuoted t
    · rw [matchRelValue_of_quoted hquoted] at hmatch
      obtain rfl := Option.some.inj hmatch
      obtain ⟨rest, rfl⟩ : ∃ rest, t = '"' :: rest := List.head?_eq_some_iff.mp hquoted.1
      obtain ⟨name, after, hrest, hname⟩ := List.eq_append_cons_of_mem hquoted.2
      have hchars : ∀ c ∈ name, (c != '"') = true := by
        intro c hc
        simpa using fun heq : c = '"' => hname (heq ▸ hc)
      have htail : rest = name ++ '"' :: after := hrest
      have htake : rest.takeWhile (· != '"') = name :=
        htail ▸ takeWhile_append_cons after hchars (by decide)
      have hnames := ValueNames.quoted name after hname
      rw [← htail] at hnames
      exact htake.symm ▸ hnames
    · rw [matchRelValue_of_not_quoted hquoted] at hmatch
      split at hmatch
      · cases hmatch
      · next hne =>
        obtain rfl := Option.some.inj hmatch
        have hsplit := List.takeWhile_append_dropWhile (p := isWordChar) (l := t)
        have hnames := ValueNames.word (t.takeWhile isWordChar) (t.dropWhile isWordChar) hne
          (fun c hc => List.mem_takeWhile_imp hc) (fun c hc => ?_) (by rwa [hsplit])
        · rwa [hsplit] at hnames
        · have hnot := List.head?_dropWhile_not isWordChar t
          rw [Option.mem_def.mp hc] at hnot
          simpa using hnot

/-- The reader passes over the sign. -/
lemma matchRel_append {sign value : Text} (h : IsRelSign sign)
    (hvalue : ∀ c ∈ value.head?, isSpace c = false) :
    matchRel (sign ++ value) = matchRelValue value := by
  obtain ⟨r, e, l, gap, gap', rfl, hrel, hgap, hgap'⟩ := h
  have hsign : ((r :: e :: l :: (gap ++ '=' :: gap')) ++ value : Text) =
      r :: e :: l :: (gap ++ '=' :: (gap' ++ value)) := by simp
  have hstart : (gap' ++ value).dropWhile isSpace = value := by
    rw [List.dropWhile_append_of_pos hgap']
    cases value with
    | nil => rfl
    | cons c value => exact List.dropWhile_cons_of_neg (by simpa using hvalue)
  rw [hsign, matchRel, if_pos hrel, dropWhile_append_cons _ hgap (by decide)]
  exact congrArg matchRelValue hstart

/-- What is read as a relation is a sign and a value. -/
lemma matchRel_eq_some {t : Text} {m : RelMatch} :
    matchRel t = some m ↔
      ∃ sign value, t = sign ++ value ∧ IsRelSign sign ∧ matchRelValue value = some m := by
  constructor
  · intro h
    unfold matchRel at h
    split at h
    · next r e l rest =>
      split at h
      · next hrel =>
        split at h
        · next value hrest =>
          have hgap := List.takeWhile_append_dropWhile (p := isSpace) (l := rest)
          have hgap' := List.takeWhile_append_dropWhile (p := isSpace) (l := value)
          refine ⟨r :: e :: l :: (rest.takeWhile isSpace ++ '=' :: value.takeWhile isSpace),
            value.dropWhile isSpace, ?_, ⟨r, e, l, _, _, rfl, hrel,
              fun c hc => List.mem_takeWhile_imp hc, fun c hc => List.mem_takeWhile_imp hc⟩, h⟩
          rw [hrest] at hgap
          simp [hgap', hgap]
        · cases h
      · cases h
    · cases h
  · rintro ⟨sign, value, rfl, hsign, hmatch⟩
    have hsome : (matchRelValue value).isSome = true := by rw [hmatch]; rfl
    obtain ⟨c, hc, hword⟩ := matchRelValue_isSome_iff.mp hsome
    rw [matchRel_append hsign, hmatch]
    intro c' hc'
    obtain rfl := Option.mem_unique hc hc'
    exact isSpace_of_isWordChar hword

/-- A relation is read where one starts. -/
lemma matchRel_isSome_iff {t : Text} : (matchRel t).isSome = true ↔ StartsRel t := by
  rw [Option.isSome_iff_exists]
  constructor
  · rintro ⟨m, hm⟩
    obtain ⟨sign, value, rfl, hsign, hmatch⟩ := matchRel_eq_some.mp hm
    have hsome : (matchRelValue value).isSome = true := by rw [hmatch]; rfl
    obtain ⟨c, hc, hword⟩ := matchRelValue_isSome_iff.mp hsome
    obtain ⟨rest, rfl⟩ := List.head?_eq_some_iff.mp hc
    exact ⟨sign, c, rest, rfl, hsign, hword⟩
  · rintro ⟨sign, c, rest, rfl, hsign, hword⟩
    have hsome : (matchRelValue (c :: rest)).isSome = true :=
      matchRelValue_isSome_iff.mpr ⟨c, rfl, hword⟩
    obtain ⟨m, hm⟩ := Option.isSome_iff_exists.mp hsome
    exact ⟨m, matchRel_eq_some.mpr ⟨sign, _, rfl, hsign, hm⟩⟩

lemma matchRel_eq_none_iff {t : Text} : matchRel t = none ↔ ¬ StartsRel t := by
  rw [← matchRel_isSome_iff, Option.not_isSome_iff_eq_none]

lemma searchRel_cons_of_startsRel {c : Char} {t : Text} (h : StartsRel (c :: t)) :
    searchRel (c :: t) = matchRel (c :: t) := by
  obtain ⟨m, hm⟩ := Option.isSome_iff_exists.mp (matchRel_isSome_iff.mpr h)
  rw [searchRel, hm]

lemma searchRel_cons_of_not_startsRel {c : Char} {t : Text} (h : ¬ StartsRel (c :: t)) :
    searchRel (c :: t) = searchRel t := by
  rw [searchRel, matchRel_eq_none_iff.mpr h]

/-- The search passes over what starts no relation. -/
lemma searchRel_append_of_quiet {s : Text} (rest : Text)
    (h : ∀ u, u <:+ s → u ≠ [] → ¬ StartsRel (u ++ rest)) :
    searchRel (s ++ rest) = searchRel rest := by
  induction s with
  | nil => rfl
  | cons c s ih =>
    have hnot : ¬ StartsRel (c :: (s ++ rest)) := h _ List.suffix_rfl (by simp)
    rw [List.cons_append, searchRel_cons_of_not_startsRel hnot]
    exact ih fun u hu => h u (hu.trans (List.suffix_cons c s))

/-- Blanks before a text are passed over. -/
lemma searchRel_lstrip (t : Text) : searchRel (lstrip t) = searchRel t := by
  have hblank : ∀ c ∈ t.takeWhile isSpace, isSpace c = true := fun c hc =>
    List.mem_takeWhile_imp hc
  have hsplit : t.takeWhile isSpace ++ lstrip t = t := List.takeWhile_append_dropWhile
  conv_rhs => rw [← hsplit]
  refine (searchRel_append_of_quiet _ fun u hu hne => ?_).symm
  rintro ⟨sign, c, rest, heq, ⟨r, e, l, gap, gap', rfl, ⟨hr, -⟩, -⟩, -⟩
  obtain ⟨b, u, rfl⟩ := List.exists_cons_of_ne_nil hne
  obtain rfl : b = r := (List.cons.inj heq).1
  have hspace := hblank b (hu.subset (by simp))
  rw [isSpace_of_toLower (by rw [hr]; decide)] at hspace
  cases hspace

/-- The leftmost match is found. -/
lemma searchRel_eq_some {t : Text} {m : RelMatch} (h : searchRel t = some m) :
    ∃ v, v <:+ t ∧ matchRel v = some m ∧ ∀ u, u <:+ t → StartsRel u → u <:+ v := by
  induction t with
  | nil => cases h
  | cons c t ih =>
    by_cases hstart : StartsRel (c :: t)
    · rw [searchRel_cons_of_startsRel hstart] at h
      exact ⟨c :: t, List.suffix_rfl, h, fun u hu _ => hu⟩
    · rw [searchRel_cons_of_not_startsRel hstart] at h
      obtain ⟨v, hv, hmatch, hfirst⟩ := ih h
      refine ⟨v, hv.trans (List.suffix_cons c t), hmatch, fun u hu hstarts => ?_⟩
      rcases List.suffix_cons_iff.mp hu with rfl | hu
      · exact absurd hstarts hstart
      · exact hfirst u hu hstarts

/-- What is found is what the first relation names. -/
lemma firstRelNames_iff {t name : Text} :
    FirstRelNames t name ↔ ∃ m, searchRel t = some m ∧ m.name = name := by
  constructor
  · rintro ⟨sign, value, ⟨before, rfl⟩, hsign, hnames, hfirst⟩
    obtain ⟨m, hm, rfl⟩ := valueNames_iff.mp hnames
    have hmatch : matchRel (sign ++ value) = some m :=
      matchRel_eq_some.mpr ⟨sign, value, rfl, hsign, hm⟩
    have hquiet : ∀ u, u <:+ before → u ≠ [] → ¬ StartsRel (u ++ (sign ++ value)) := by
      rintro u ⟨skipped, rfl⟩ hne hstarts
      have hlength := (hfirst _ ⟨skipped, by simp⟩ hstarts).length_le
      rw [List.length_append] at hlength
      exact hne (List.length_eq_zero_iff.mp (by omega))
    have hstarts : StartsRel (sign ++ value) := matchRel_isSome_iff.mp (by rw [hmatch]; rfl)
    refine ⟨m, ?_, rfl⟩
    rw [searchRel_append_of_quiet _ hquiet]
    obtain ⟨r, e, l, gap, gap', rfl, -⟩ := hsign
    rw [← hmatch]
    exact searchRel_cons_of_startsRel hstarts
  · rintro ⟨m, hm, rfl⟩
    obtain ⟨v, hv, hmatch, hfirst⟩ := searchRel_eq_some hm
    obtain ⟨sign, value, rfl, hsign, hvalue⟩ := matchRel_eq_some.mp hmatch
    exact ⟨sign, value, hv, hsign, valueNames_iff.mpr ⟨m, hvalue, rfl⟩, hfirst⟩

/-! ## In front of a semicolon -/

lemma IsRelSign.semicolon_not_mem {sign : Text} (h : IsRelSign sign) : ';' ∉ sign := by
  obtain ⟨r, e, l, gap, gap', rfl, ⟨hr, he, hl⟩, hgap, hgap'⟩ := h
  have hletter : ∀ {c d : Char}, c.toLower = d → d ≠ ';' → ';' ≠ c := by
    rintro c d hc hd rfl
    exact hd hc.symm
  have hblank : ∀ gap : Text, (∀ c ∈ gap, isSpace c = true) → ';' ∉ gap := fun gap hgap hmem =>
    absurd (hgap _ hmem) (by decide)
  simp only [List.mem_cons, List.mem_append, not_or]
  exact ⟨hletter hr (by decide), hletter he (by decide), hletter hl (by decide),
    hblank gap hgap, by decide, hblank gap' hgap'⟩

/-- A semicolon is in no relation, so what follows one does not matter. -/
lemma startsRel_append_semicolon {s t : Text} : StartsRel (s ++ ';' :: t) ↔ StartsRel s := by
  constructor
  · rintro ⟨sign, c, rest, heq, hsign, hword⟩
    have hnot : ';' ∉ sign ++ [c] := by
      rw [List.mem_append, List.mem_singleton, not_or]
      refine ⟨hsign.semicolon_not_mem, ?_⟩
      rintro rfl
      exact absurd hword (by decide)
    have hsplit : s ++ ';' :: t = (sign ++ [c]) ++ rest := by simpa using heq
    rcases List.append_eq_append_iff.mp hsplit with ⟨more, hstart, hrest⟩ | ⟨more, rfl, -⟩
    · cases more with
      | nil => exact ⟨sign, c, [], by simpa using hstart.symm, hsign, hword⟩
      | cons d more =>
        obtain ⟨rfl, -⟩ := List.cons.inj hrest
        exact absurd (by rw [hstart]; simp) hnot
    · exact ⟨sign, c, more, by simp, hsign, hword⟩
  · rintro ⟨sign, c, rest, rfl, hsign, hword⟩
    exact ⟨sign, c, rest ++ ';' :: t, by simp, hsign, hword⟩

/-- A relation in front of a quoted one ends before that one's name. -/
lemma matchRel_before_quoted {s : Text} (h : StartsRel s) (t t' : Text) :
    matchRel (s ++ ';' :: (" rel=".toList ++ '"' :: t)) =
      matchRel (s ++ ';' :: (" rel=".toList ++ '"' :: t')) := by
  obtain ⟨sign, c, rest, rfl, hsign, hword⟩ := h
  have hread : ∀ t : Text, matchRel ((sign ++ c :: rest) ++ ';' :: (" rel=".toList ++ '"' :: t)) =
      if c = '"' then some ⟨some ((rest ++ ';' :: " rel=".toList).takeWhile (· != '"')), none⟩
      else some ⟨none, some ((c :: rest).takeWhile isWordChar)⟩ := by
    intro t
    have hvalue : (sign ++ c :: rest) ++ ';' :: (" rel=".toList ++ '"' :: t) =
        sign ++ (c :: (rest ++ ';' :: " rel=".toList ++ '"' :: t)) := by simp
    rw [hvalue, matchRel_append hsign (by simpa using isSpace_of_isWordChar hword)]
    by_cases hquote : c = '"'
    · rw [if_pos hquote, hquote, matchRelValue_of_quoted ⟨rfl, by simp⟩, List.tail_cons,
        takeWhile_append_of_neg (by decide)]
    · have hnot : ¬ IsQuoted (c :: (rest ++ ';' :: " rel=".toList ++ '"' :: t)) := fun hu =>
        hquote (Option.some.inj hu.1)
      have hsemi : c :: (rest ++ ';' :: " rel=".toList ++ '"' :: t) =
          (c :: rest) ++ ';' :: (" rel=".toList ++ '"' :: t) := by simp
      rw [if_neg hquote, matchRelValue_of_not_quoted hnot, hsemi,
        takeWhile_append_of_neg (by decide), if_neg]
      rw [List.takeWhile_cons_of_pos hword]
      exact List.cons_ne_nil _ _
  rw [hread, hread]

lemma not_startsRel_separator {u : Text} (h : u <:+ "; ".toList) : ¬ StartsRel u := by
  have hnone : ∀ n < 3, matchRel ("; ".toList.drop n) = none := by decide
  have hdrop := List.suffix_iff_eq_drop.mp h
  rw [← matchRel_eq_none_iff, hdrop]
  by_cases hn : "; ".toList.length - u.length < 3
  · exact hnone _ hn
  · have hle : "; ".toList.length - u.length ≤ 2 := Nat.sub_le ..
    omega

/-- What the search finds in front of a quoted relation does not depend on that one. -/
lemma searchRel_before_quoted {s : Text} (h : ∃ u, u <:+ s ++ "; ".toList ∧ StartsRel u)
    (t t' : Text) :
    searchRel (s ++ ';' :: (" rel=".toList ++ '"' :: t)) =
      searchRel (s ++ ';' :: (" rel=".toList ++ '"' :: t')) := by
  obtain ⟨u, hu, hstarts⟩ := h
  induction s with
  | nil => exact absurd hstarts (not_startsRel_separator hu)
  | cons c s ih =>
    by_cases hhere : StartsRel (c :: s)
    · have hread : ∀ t, searchRel (c :: s ++ ';' :: t) = matchRel (c :: s ++ ';' :: t) :=
        fun t => searchRel_cons_of_startsRel (startsRel_append_semicolon.mpr hhere)
      rw [hread, hread]
      exact matchRel_before_quoted hhere t t'
    · have hskip : ∀ t, searchRel (c :: s ++ ';' :: t) = searchRel (s ++ ';' :: t) :=
        fun t => searchRel_cons_of_not_startsRel fun hs => hhere (startsRel_append_semicolon.mp hs)
      rw [hskip, hskip]
      rcases List.suffix_cons_iff.mp hu with rfl | hu
      · exact absurd (startsRel_append_semicolon.mp hstarts) hhere
      · exact ih hu

lemma toLower_of_startsRel {c : Char} {t : Text} (h : StartsRel (c :: t)) : c.toLower = 'r' := by
  obtain ⟨sign, x, rest, heq, ⟨r, e, l, gap, gap', rfl, ⟨hr, -⟩, -⟩, -⟩ := h
  rwa [(List.cons.inj heq).1]

/-- The search passes over parameters without a relation. -/
lemma searchRel_before_of_quiet {s : Text} (h : ∀ u, u <:+ s ++ "; ".toList → ¬ StartsRel u)
    (t : Text) : searchRel (s ++ ';' :: ' ' :: t) = searchRel t := by
  induction s with
  | nil =>
    have hsemi : ¬ StartsRel (';' :: ' ' :: t) := fun hs =>
      absurd (toLower_of_startsRel hs) (by decide)
    have hblank : ¬ StartsRel (' ' :: t) := fun hs => absurd (toLower_of_startsRel hs) (by decide)
    rw [List.nil_append, searchRel_cons_of_not_startsRel hsemi,
      searchRel_cons_of_not_startsRel hblank]
  | cons c s ih =>
    have hnot : ¬ StartsRel (c :: s) := fun hs =>
      h _ List.suffix_rfl (startsRel_append_semicolon.mpr hs)
    have hskip : ¬ StartsRel (c :: (s ++ ';' :: ' ' :: t)) := fun hs =>
      hnot (startsRel_append_semicolon.mp hs)
    rw [List.cons_append, searchRel_cons_of_not_startsRel hskip]
    exact ih fun u hu => h u (hu.trans (List.suffix_cons c _))

/-- `_LINK_SEGMENT` takes a text apart. -/
lemma matchLinkSegment_eq_some {t url params : Text} :
    matchLinkSegment t = some (url, params) ↔ ∃ gap rest,
      t = '<' :: (url ++ '>' :: (gap ++ ';' :: rest)) ∧ '>' ∉ url ∧
        (∀ c ∈ gap, isSpace c = true) ∧ params = lstrip rest := by
  constructor
  · intro h
    unfold matchLinkSegment at h
    split at h
    · next rest =>
      split at h
      · next close after hclose =>
        split at h
        · next tail hsemi =>
          obtain ⟨rfl, rfl⟩ := Prod.mk.inj (Option.some.inj h)
          have hurl := List.takeWhile_append_dropWhile (p := (· != '>')) (l := rest)
          have hgap := List.takeWhile_append_dropWhile (p := isSpace) (l := after)
          have hbracket : close = '>' := by
            have hnot := List.head?_dropWhile_not (· != '>') rest
            rw [hclose] at hnot
            simpa using hnot
          rw [hclose, hbracket] at hurl
          rw [hsemi] at hgap
          refine ⟨after.takeWhile isSpace, tail, ?_, fun hmem => ?_,
            fun c hc => List.mem_takeWhile_imp hc, rfl⟩
          · rw [hgap, hurl]
          · simpa using List.mem_takeWhile_imp hmem
        · cases h
      · cases h
    · cases h
  · rintro ⟨gap, rest, rfl, hurl, hgap, rfl⟩
    have hchars : ∀ c ∈ url, (c != '>') = true := by
      intro c hc
      simpa using fun heq : c = '>' => hurl (heq ▸ hc)
    rw [matchLinkSegment, dropWhile_append_cons _ hchars (by decide),
      takeWhile_append_cons _ hchars (by decide)]
    dsimp only
    rw [dropWhile_append_cons _ hgap (by decide)]
    rfl

/-! ## What a segment says -/

lemma RelMatch.Valid.text_eq {m : RelMatch} (h : m.Valid) : m.text = strip m.name := by
  rcases h with ⟨quoted, rfl⟩ | ⟨bare, -, rfl⟩
  · cases quoted <;> rfl
  · rfl

lemma RelMatch.Valid.name_eq_nil_iff {m : RelMatch} (h : m.Valid) :
    m.name = [] ↔ m.quoted = some [] := by
  rcases h with ⟨quoted, rfl⟩ | ⟨bare, hne, rfl⟩
  · simp [RelMatch.name]
  · simp [RelMatch.name, hne]

/-- A segment is read when it is a link with a relation. -/
lemma segmentMatch_iff {t url : Text} {m : RelMatch} :
    segmentMatch t = some (url, m) ↔ ∃ gap params,
      strip t = '<' :: (url ++ '>' :: (gap ++ ';' :: params)) ∧ '>' ∉ url ∧
        (∀ c ∈ gap, isSpace c = true) ∧ searchRel params = some m := by
  rw [segmentMatch_eq_some]
  constructor
  · rintro ⟨_, hmatch, hsearch⟩
    obtain ⟨gap, params, ht, hurl, hgap, rfl⟩ := matchLinkSegment_eq_some.mp hmatch
    exact ⟨gap, params, ht, hurl, hgap, by rwa [searchRel_lstrip] at hsearch⟩
  · rintro ⟨gap, params, ht, hurl, hgap, hsearch⟩
    exact ⟨_, matchLinkSegment_eq_some.mpr ⟨gap, params, ht, hurl, hgap, rfl⟩,
      by rwa [searchRel_lstrip]⟩

/-- **What reads as a link.**  A segment says something, be it that it names nothing, exactly
when it reads as a link. -/
lemma saysLink_iff {t : Text} : SaysLink t ↔ segmentEntry t ≠ none ∨ NamesNothing t := by
  constructor
  · rintro ⟨url, gap, params, name, ht, hurl, hgap, hfirst, hsays⟩
    obtain ⟨m, hm, rfl⟩ := firstRelNames_iff.mp hfirst
    have hvalid := valid_of_searchRel hm
    have hmatch := segmentMatch_iff.mpr ⟨gap, params, ht, hurl, hgap, hm⟩
    rcases hsays with hempty | hboth
    · exact Or.inr ⟨url, m, hmatch, hvalid.name_eq_nil_iff.mp hempty⟩
    · rw [← hvalid.text_eq] at hboth
      left
      rw [segmentEntry, hmatch, Option.bind_eq_bind, Option.bind_some]
      simp [hboth]
  · intro h
    have hmatch : ∃ url m, segmentMatch t = some (url, m) ∧
        (m.quoted = some [] ∨ (m.text ≠ [] ∧ strip url ≠ [])) := by
      rcases h with hentry | ⟨url, m, hmatch, hempty⟩
      · obtain ⟨entry, hentry⟩ := Option.ne_none_iff_exists'.mp hentry
        obtain ⟨⟨url, m⟩, hmatch, hif⟩ := Option.bind_eq_some_iff.mp hentry
        dsimp only at hif
        split at hif
        · next hboth => exact ⟨url, m, hmatch, Or.inr hboth⟩
        · cases hif
      · exact ⟨url, m, hmatch, Or.inl hempty⟩
    obtain ⟨url, m, hmatch, hsays⟩ := hmatch
    obtain ⟨gap, params, ht, hurl, hgap, hm⟩ := segmentMatch_iff.mp hmatch
    have hvalid := valid_of_searchRel hm
    rw [← hvalid.name_eq_nil_iff, hvalid.text_eq] at hsays
    exact ⟨url, gap, params, m.name, ht, hurl, hgap, firstRelNames_iff.mpr ⟨m, hm, rfl⟩, hsays⟩

lemma segmentEntry_of_not_saysLink {t : Text} (h : ¬ SaysLink t) : segmentEntry t = none := by
  by_contra hentry
  exact h (saysLink_iff.mpr (Or.inl hentry))

lemma not_namesNothing_of_not_saysLink {t : Text} (h : ¬ SaysLink t) : ¬ NamesNothing t :=
  fun hnothing => h (saysLink_iff.mpr (Or.inr hnothing))

end IssuesApi
