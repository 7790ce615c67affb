import IssuesApi.Lib.JsonRoundTrip
import Mathlib.Data.List.Nodup

/-!
# What `json.loads` produces

Every value that `json.loads` returns can be written and read again: its integers are short
enough, its strings are made of code points, the keys of its objects are distinct, and it is
nested no deeper than the interpreter reads.
-/

namespace IssuesApi

/-! ## Strings -/

lemma CodePoints.of_cons {c : ℕ} {s : PyStr} (h : CodePoints (c :: s)) : CodePoints s :=
  fun d hd => h d (List.mem_cons_of_mem _ hd)

lemma CodePoints.cons {c : ℕ} {s : PyStr} (hc : c < 0x110000) (h : CodePoints s) :
    CodePoints (c :: s) := List.forall_mem_cons.mpr ⟨hc, h⟩

lemma CodePoints.dropWhile {s : PyStr} (h : CodePoints s) (p : ℕ → Bool) :
    CodePoints (s.dropWhile p) := fun c hc => h c ((List.dropWhile_suffix p).subset hc)

lemma CodePoints.drop {s : PyStr} (h : CodePoints s) (n : ℕ) : CodePoints (s.drop n) :=
  fun c hc => h c (List.mem_of_mem_drop hc)

lemma hexDigitValue_lt {c k : ℕ} (h : hexDigitValue c = some k) : k < 16 := by
  unfold hexDigitValue at h
  split_ifs at h <;> simp only [Option.some.injEq] at h <;> omega

lemma hex4_bounds {s rest : PyStr} {u : ℕ} (hs : CodePoints s) (h : hex4 s = some (u, rest)) :
    u < 0x10000 ∧ CodePoints rest := by
  unfold hex4 at h
  split at h
  · next a b c d r =>
    simp only [Option.bind_eq_bind, Option.bind_eq_some_iff] at h
    obtain ⟨w, hw, x, hx, y, hy, z, hz, h⟩ := h
    obtain ⟨rfl, rfl⟩ := Prod.mk.inj (Option.some.inj h)
    have hw := hexDigitValue_lt hw
    have hx := hexDigitValue_lt hx
    have hy := hexDigitValue_lt hy
    have hz := hexDigitValue_lt hz
    exact ⟨by omega, hs.of_cons.of_cons.of_cons.of_cons⟩
  · cases h

lemma joinPair_lt {u v : ℕ} (hu : isHighSurrogate u = true) (hv : isLowSurrogate v = true) :
    joinPair u v < 0x110000 := by
  simp only [isHighSurrogate, isLowSurrogate, Bool.and_eq_true, decide_eq_true_eq] at hu hv
  unfold joinPair
  omega

lemma escapedUnit_bounds {u : ℕ} {rest : PyStr} (hu : u < 0x10000) (hrest : CodePoints rest) :
    (escapedUnit u rest).1 < 0x110000 ∧ CodePoints (escapedUnit u rest).2 := by
  unfold escapedUnit
  split
  · next hhigh =>
    split
    · next rest' =>
      split
      · next v rest'' hhex =>
        obtain ⟨-, hrest''⟩ := hex4_bounds hrest.of_cons.of_cons hhex
        split
        · next hlow => exact ⟨joinPair_lt hhigh hlow, hrest''⟩
        · exact ⟨by omega, hrest⟩
      · exact ⟨by omega, hrest⟩
    · exact ⟨by omega, hrest⟩
  · exact ⟨by omega, hrest⟩

lemma simpleEscape_lt {e c : ℕ} (h : simpleEscape e = some c) : c < 0x110000 := by
  unfold simpleEscape at h
  split_ifs at h <;> simp only [Option.some.injEq] at h <;> omega

/-- One more code point in front of what the rest of a literal gives. -/
lemma codePoints_map_cons {n c : ℕ} {s t rest : PyStr} (hc : c < 0x110000)
    (hread : ∀ t rest, scanStringAux n s = some (t, rest) → CodePoints t ∧ CodePoints rest)
    (h : (scanStringAux n s).map (fun r => (c :: r.1, r.2)) = some (t, rest)) :
    CodePoints t ∧ CodePoints rest := by
  obtain ⟨⟨t', rest'⟩, heq, hpair⟩ := Option.map_eq_some_iff.mp h
  obtain ⟨rfl, rfl⟩ := Prod.mk.inj hpair
  obtain ⟨ht, hrest⟩ := hread _ _ heq
  exact ⟨ht.cons hc, hrest⟩

/-- The string read and what is left are made of code points when the input is. -/
lemma scanStringAux_codePoints {n : ℕ} {s t rest : PyStr} (hs : CodePoints s)
    (h : scanStringAux n s = some (t, rest)) : CodePoints t ∧ CodePoints rest := by
  induction n generalizing s t rest with
  | zero => cases h
  | succ n ih =>
    rw [scanStringAux.eq_def] at h
    cases s with
    | nil => cases h
    | cons c s =>
      dsimp only at h
      split_ifs at h with hquote hslash hcontrol
      · obtain ⟨rfl, rfl⟩ := Prod.mk.inj (Option.some.inj h)
        exact ⟨List.forall_mem_nil _, hs.of_cons⟩
      · cases s with
        | nil => cases h
        | cons e s =>
          dsimp only at h
          split_ifs at h with hunit
          · obtain ⟨⟨u, r⟩, hhex, h⟩ := Option.bind_eq_some_iff.mp h
            obtain ⟨hu, hr⟩ := hex4_bounds hs.of_cons.of_cons hhex
            obtain ⟨hpoint, hleft⟩ := escapedUnit_bounds hu hr
            exact codePoints_map_cons hpoint (fun _ _ hread => ih hleft hread) h
          · obtain ⟨d, hd, h⟩ := Option.bind_eq_some_iff.mp h
            exact codePoints_map_cons (simpleEscape_lt hd)
              (fun _ _ hread => ih hs.of_cons.of_cons hread) h
      · exact codePoints_map_cons (hs c (by simp)) (fun _ _ hread => ih hs.of_cons hread) h

lemma scanString_codePoints {s t rest : PyStr} (hs : CodePoints s)
    (h : scanString s = .ok (t, rest)) : CodePoints t ∧ CodePoints rest := by
  unfold scanString at h
  split at h
  · next r hread =>
    obtain rfl := Except.ok.inj h
    exact scanStringAux_codePoints hs hread
  · cases h

/-! ## Numbers -/

lemma natOfDigits_lt {s : PyStr} (h : IsDigits s) : natOfDigits s < 10 ^ s.length := by
  induction s using List.reverseRecOn with
  | nil => simp [natOfDigits]
  | append_singleton s c ih =>
    have hc := isAsciiDigit_iff.mp (h c (by simp))
    have ih := ih fun d hd => h d (by simp [hd])
    rw [natOfDigits, List.foldl_append, List.foldl_cons, List.foldl_nil, List.length_append,
      List.length_singleton, Nat.pow_succ]
    rw [natOfDigits] at ih
    omega

lemma wholePart_bounds {s : PyStr} (hs : CodePoints s) :
    IsDigits (wholePart s).1 ∧ CodePoints (wholePart s).2 := by
  unfold wholePart
  split
  · exact ⟨by simp [IsDigits, isAsciiDigit], hs.of_cons⟩
  · exact ⟨fun c hc => List.mem_takeWhile_imp hc, hs.dropWhile _⟩

lemma scanFraction_codePoints {s : PyStr} (hs : CodePoints s) : CodePoints (scanFraction s).2 := by
  unfold scanFraction
  split
  · split
    · exact hs
    · exact hs.of_cons.dropWhile _
  · exact hs

lemma scanExponent_codePoints {s : PyStr} (hs : CodePoints s) : CodePoints (scanExponent s).2 := by
  cases s with
  | nil => exact hs
  | cons c s =>
    have hsplit : ∀ (p : Bool × PyStr), CodePoints p.2 →
        CodePoints (if (p.2.takeWhile isAsciiDigit).isEmpty then ((none : Option ℤ), c :: s)
          else (some (if p.1 then -(natOfDigits (p.2.takeWhile isAsciiDigit) : ℤ)
            else natOfDigits (p.2.takeWhile isAsciiDigit)), p.2.dropWhile isAsciiDigit)).2 := by
      intro p hp
      split
      · exact hs
      · exact hp.dropWhile _
    unfold scanExponent
    dsimp only
    split
    · split
      · exact hsplit (false, _) hs.of_cons.of_cons
      · exact hsplit (true, _) hs.of_cons.of_cons
      · exact hsplit (false, _) hs.of_cons
    · exact hs

/-- A float that was read is one that can be read. -/
lemma readable_ofDecimal (negative : Bool) (mantissa : ℕ) (exponent : ℤ) :
    (Json.float (PyFloat.ofDecimal negative mantissa exponent)).Readable := by
  cases h : PyFloat.ofDecimal negative mantissa exponent with
  | finite q => exact ⟨negative, mantissa, exponent, h⟩
  | negZero => trivial
  | inf negative => trivial
  | nan => trivial

/-- What a reader of values returns: a value of bounded depth that can be written and read
again, and code points left over. -/
def ReadsReadable (d : ℕ) (value : PyStr → Scan Json) : Prop :=
  ∀ s v rest, CodePoints s → value s = .ok (v, rest) →
    v.Readable ∧ v.depth ≤ d ∧ CodePoints rest

lemma readsReadable_scanUnsigned (d : ℕ) (negative : Bool) :
    ReadsReadable d (scanUnsigned negative) := by
  intro s v rest hs h
  obtain ⟨hdigits, hafter⟩ := wholePart_bounds hs
  have hleft := scanExponent_codePoints (scanFraction_codePoints hafter)
  rw [scanUnsigned_eq] at h
  split at h
  · cases h
  · next hempty =>
    split at h
    · split at h
      · next hshort =>
        obtain ⟨rfl, rfl⟩ := Prod.mk.inj (Except.ok.inj h)
        refine ⟨?_, Nat.zero_le _, hleft⟩
        have hlt := natOfDigits_lt hdigits
        have hne : (wholePart s).1 ≠ [] := by simpa using hempty
        rw [List.isEmpty_iff, List.drop_eq_nil_iff] at hshort
        have hlen : (decimal (natOfDigits (wholePart s).1)).length ≤ (wholePart s).1.length :=
          (Nat.length_toDigits_le_iff (by omega) (List.length_pos_iff.mpr hne)).mpr hlt
        have habs : (if negative = true then -(natOfDigits (wholePart s).1 : ℤ)
            else natOfDigits (wholePart s).1).natAbs = natOfDigits (wholePart s).1 := by
          split <;> simp
        rw [Json.Readable, habs]
        omega
      · cases h
    · obtain ⟨rfl, rfl⟩ := Prod.mk.inj (Except.ok.inj h)
      exact ⟨readable_ofDecimal _ _ _, Nat.zero_le _, hleft⟩

/-! ## Values -/

lemma scanKeyword_ok {word s rest : PyStr} {value v : Json}
    (h : scanKeyword word value s = .ok (v, rest)) : v = value ∧ rest = s.drop word.length := by
  unfold scanKeyword at h
  split at h
  · obtain ⟨rfl, rfl⟩ := Prod.mk.inj (Except.ok.inj h)
    exact ⟨rfl, rfl⟩
  · cases h

/-- A value is readable when the insides of arrays and objects are. -/
lemma readsReadable_scanValue {d : ℕ} {array object : PyStr → Scan Json}
    (harray : ReadsReadable d array) (hobject : ReadsReadable d object) :
    ReadsReadable d (scanValue array object) := by
  -- a keyword stands for a value without parts
  have hkeyword : ∀ {word s rest : PyStr} {value v : Json}, CodePoints s →
      scanKeyword word value s = .ok (v, rest) → value.Readable → value.depth = 0 →
      v.Readable ∧ v.depth ≤ d ∧ CodePoints rest := by
    intro word s rest value v hs h hvalue hdepth
    obtain ⟨rfl, rfl⟩ := scanKeyword_ok h
    exact ⟨hvalue, by omega, hs.drop _⟩
  intro s v rest hs h
  unfold scanValue at h
  split at h
  · next s =>
    cases hscan : scanString s with
    | error e =>
      rw [hscan] at h
      cases h
    | ok r =>
      rw [hscan] at h
      obtain ⟨rfl, rfl⟩ := Prod.mk.inj (Except.ok.inj h)
      obtain ⟨ht, hrest⟩ := scanString_codePoints hs.of_cons hscan
      exact ⟨ht, Nat.zero_le _, hrest⟩
  · exact hobject _ _ _ hs.of_cons h
  · exact harray _ _ _ hs.of_cons h
  · exact hkeyword hs h trivial rfl
  · exact hkeyword hs h trivial rfl
  · exact hkeyword hs h trivial rfl
  · exact hkeyword hs h trivial rfl
  · exact hkeyword hs h trivial rfl
  · exact hkeyword hs h trivial rfl
  · exact readsReadable_scanUnsigned d true _ _ _ hs.of_cons h
  · exact readsReadable_scanUnsigned d false _ _ _ hs h

/-! ## Arrays and objects -/

lemma CodePoints.skipWs {s : PyStr} (h : CodePoints s) : CodePoints (skipWs s) := h.dropWhile _

lemma scanItems_readable {d : ℕ} {value : PyStr → Scan Json} (hvalue : ReadsReadable d value)
    {n : ℕ} {s rest : PyStr} {items : List Json} (hs : CodePoints s)
    (h : scanItems value n s = .ok (items, rest)) :
    (∀ v ∈ items, v.Readable ∧ v.depth ≤ d) ∧ CodePoints rest := by
  induction n generalizing s items rest with
  | zero => cases h
  | succ n ih =>
    obtain ⟨⟨v, r⟩, hread, h⟩ := bind_eq_ok.mp h
    obtain ⟨hv, hdepth, hr⟩ := hvalue s v r hs hread
    have hr := hr.skipWs
    dsimp only at h
    split at h
    · next r' heq =>
      obtain ⟨rfl, rfl⟩ := Prod.mk.inj (Except.ok.inj h)
      rw [heq] at hr
      exact ⟨by simpa using ⟨hv, hdepth⟩, hr.of_cons⟩
    · next r' heq =>
      rw [heq] at hr
      obtain ⟨⟨items', rest'⟩, hrec, h⟩ := bind_eq_ok.mp h
      obtain ⟨rfl, rfl⟩ := Prod.mk.inj (Except.ok.inj h)
      obtain ⟨hitems, hrest⟩ := ih hr.of_cons.skipWs hrec
      exact ⟨List.forall_mem_cons.mpr ⟨⟨hv, hdepth⟩, hitems⟩, hrest⟩
    · cases h

lemma scanMembers_readable {d : ℕ} {value : PyStr → Scan Json} (hvalue : ReadsReadable d value)
    {n : ℕ} {s rest : PyStr} {fields : List (PyStr × Json)} (hs : CodePoints s)
    (h : scanMembers value n s = .ok (fields, rest)) :
    (∀ f ∈ fields, CodePoints f.1 ∧ f.2.Readable ∧ f.2.depth ≤ d) ∧ CodePoints rest := by
  induction n generalizing s fields rest with
  | zero => cases h
  | succ n ih =>
    unfold scanMembers at h
    split at h
    · next s =>
      obtain ⟨⟨key, r⟩, hkey, h⟩ := bind_eq_ok.mp h
      obtain ⟨hkey, hr⟩ := scanString_codePoints hs.of_cons hkey
      have hr := hr.skipWs
      dsimp only at h
      split at h
      · next r' heq =>
        rw [heq] at hr
        obtain ⟨⟨v, u⟩, hread, h⟩ := bind_eq_ok.mp h
        obtain ⟨hv, hdepth, hu⟩ := hvalue _ v u hr.of_cons.skipWs hread
        have hu := hu.skipWs
        dsimp only at h
        split at h
        · next u' heq' =>
          obtain ⟨rfl, rfl⟩ := Prod.mk.inj (Except.ok.inj h)
          rw [heq'] at hu
          exact ⟨by simpa using ⟨hkey, hv, hdepth⟩, hu.of_cons⟩
        · next u' heq' =>
          rw [heq'] at hu
          obtain ⟨⟨fields', rest'⟩, hrec, h⟩ := bind_eq_ok.mp h
          obtain ⟨rfl, rfl⟩ := Prod.mk.inj (Except.ok.inj h)
          obtain ⟨hfields, hrest⟩ := ih hu.of_cons.skipWs hrec
          exact ⟨List.forall_mem_cons.mpr ⟨⟨hkey, hv, hdepth⟩, hfields⟩, hrest⟩
        · cases h
      · cases h
    · cases h

/-- The members of a dictionary are among the pairs it was made of. -/
lemma mem_dictOfPairs {pairs : List (PyStr × Json)} {f : PyStr × Json}
    (h : f ∈ dictOfPairs pairs) : f ∈ pairs := by
  induction pairs using List.reverseRecOn generalizing f with
  | nil => exact h
  | append_singleton pairs p ih =>
    rw [dictOfPairs, List.foldl_append, List.foldl_cons, List.foldl_nil, dictSet] at h
    rw [List.mem_append, List.mem_singleton]
    split at h
    · obtain ⟨g, hg, rfl⟩ := List.mem_map.mp h
      split
      · exact Or.inr rfl
      · exact Or.inl (ih hg)
    · rcases List.mem_append.mp h with h | h
      · exact Or.inl (ih h)
      · exact Or.inr (List.mem_singleton.mp h)

/-- A dictionary has every key once. -/
lemma nodup_keys_dictOfPairs (pairs : List (PyStr × Json)) :
    ((dictOfPairs pairs).map Prod.fst).Nodup := by
  induction pairs using List.reverseRecOn with
  | nil => exact List.nodup_nil
  | append_singleton pairs p ih =>
    rw [dictOfPairs, List.foldl_append, List.foldl_cons, List.foldl_nil, dictSet]
    split
    · have hkeys : (Prod.fst ∘ fun f : PyStr × Json => if f.1 = p.1 then (p.1, p.2) else f) =
          Prod.fst := by
        funext f
        rw [Function.comp_apply]
        split
        · next heq => exact heq.symm
        · rfl
      rw [List.map_map, hkeys]
      exact ih
    · next hnew =>
      rw [List.map_append, List.nodup_append]
      refine ⟨ih, List.nodup_singleton _, ?_⟩
      rintro k hk _ hp rfl
      obtain ⟨f, hf, rfl⟩ := List.mem_map.mp hk
      refine hnew (List.any_eq_true.mpr ⟨f, hf, ?_⟩)
      simpa using hp

lemma readsReadable_scanArray {d : ℕ} {value : PyStr → Scan Json}
    (hvalue : ReadsReadable d value) : ReadsReadable (d + 1) (scanArray value) := by
  intro s v rest hs h
  have hskip := hs.skipWs
  unfold scanArray at h
  split at h
  · next r heq =>
    obtain ⟨rfl, rfl⟩ := Prod.mk.inj (Except.ok.inj h)
    rw [heq] at hskip
    exact ⟨trivial, by simp [Json.depth, Json.depthItems], hskip.of_cons⟩
  · cases hitems : scanItems value (skipWs s).length (skipWs s) with
    | error e =>
      rw [hitems] at h
      cases h
    | ok r =>
      rw [hitems] at h
      obtain ⟨rfl, rfl⟩ := Prod.mk.inj (Except.ok.inj h)
      obtain ⟨hread, hrest⟩ := scanItems_readable hvalue hskip hitems
      exact ⟨Json.readableItems_iff.mpr fun v hv => (hread v hv).1,
        Nat.succ_le_succ (Json.depthItems_le_iff.mpr fun v hv => (hread v hv).2), hrest⟩

lemma readsReadable_scanObject {d : ℕ} {value : PyStr → Scan Json}
    (hvalue : ReadsReadable d value) : ReadsReadable (d + 1) (scanObject value) := by
  intro s v rest hs h
  have hskip := hs.skipWs
  unfold scanObject at h
  split at h
  · next r heq =>
    obtain ⟨rfl, rfl⟩ := Prod.mk.inj (Except.ok.inj h)
    rw [heq] at hskip
    exact ⟨⟨List.nodup_nil, trivial⟩, by simp [Json.depth, Json.depthFields], hskip.of_cons⟩
  · cases hmembers : scanMembers value (skipWs s).length (skipWs s) with
    | error e =>
      rw [hmembers] at h
      cases h
    | ok r =>
      rw [hmembers] at h
      obtain ⟨rfl, rfl⟩ := Prod.mk.inj (Except.ok.inj h)
      obtain ⟨hread, hrest⟩ := scanMembers_readable hvalue hskip hmembers
      have hfields : ∀ f ∈ dictOfPairs r.1, CodePoints f.1 ∧ f.2.Readable ∧ f.2.depth ≤ d :=
        fun f hf => hread f (mem_dictOfPairs hf)
      exact ⟨⟨nodup_keys_dictOfPairs _,
          Json.readableFields_iff.mpr fun f hf => ⟨(hfields f hf).1, (hfields f hf).2.1⟩⟩,
        Nat.succ_le_succ (Json.depthFields_le_iff.mpr fun f hf => (hfields f hf).2.2), hrest⟩

/-- Reading a value nested at most `d` levels deep. -/
lemma readsReadable_scanOnce (d : ℕ) : ReadsReadable d (scanOnce d) := by
  induction d with
  | zero =>
    refine readsReadable_scanValue ?_ ?_
    · intro s v rest _ h
      cases h
    · intro s v rest _ h
      cases h
  | succ d ih =>
    exact readsReadable_scanValue (readsReadable_scanArray ih) (readsReadable_scanObject ih)

/-! ## Documents -/

lemma payload_lt (b : UInt8) : payload b < 64 := Nat.mod_lt _ (by decide)

/-- A well-formed sequence stands for a code point. -/
lemma utf8Step_lt {b : UInt8} {bs rest : Bytes} {n : ℕ} (h : utf8Step b bs = .scalar n rest) :
    n < 0x110000 := by
  have hscalar : ∀ {m k : ℕ} {r : Bytes}, m < 0x110000 →
      Utf8Step.scalar m r = .scalar k rest → k < 0x110000 := by
    intro m k r hm heq
    cases heq
    exact hm
  unfold utf8Step at h
  dsimp only at h
  split at h
  · next hascii => exact hscalar (by omega) h
  · split at h
    · next hlead =>
      split at h
      · next c r =>
        have hc := payload_lt c
        split at h
        · exact hscalar (by omega) h
        · cases h
      · cases h
    · split at h
      · next hlead =>
        generalize (if b.toNat = 0xE0 then 0xA0 else 0x80) = low at h
        generalize (if b.toNat = 0xED then 0x9F else 0xBF) = high at h
        split at h
        · next c r =>
          split at h
          · split at h
            · next d r' =>
              have hc := payload_lt c
              have hd := payload_lt d
              split at h
              · exact hscalar (by omega) h
              · cases h
            · cases h
          · cases h
        · cases h
      · split at h
        · next hlead =>
          -- the second byte keeps the largest lead byte below the last code point
          have hfirst : b.toNat = 0xF4 → (if b.toNat = 0xF0 then 0x90 else 0x80) = 0x80 :=
            fun hb => if_neg (by omega)
          have hlast : b.toNat = 0xF4 → (if b.toNat = 0xF4 then 0x8F else 0xBF) = 0x8F :=
            fun hb => if_pos hb
          generalize (if b.toNat = 0xF0 then 0x90 else 0x80) = low at h hfirst
          generalize (if b.toNat = 0xF4 then 0x8F else 0xBF) = high at h hlast
          split at h
          · next c r =>
            split at h
            · next hrange =>
              split at h
              · next d r' =>
                split at h
                · split at h
                  · next e r'' =>
                    have hc := payload_lt c
                    have hd := payload_lt d
                    have he := payload_lt e
                    split at h
                    · refine hscalar ?_ h
                      by_cases hb : b.toNat = 0xF4
                      · have := hfirst hb
                        have := hlast hb
                        unfold payload at hc hd he ⊢
                        omega
                      · omega
                    · cases h
                  · cases h
                · cases h
              · cases h
            · cases h
          · cases h
        · cases h

lemma encodedSurrogate_lt {bs rest : Bytes} {n : ℕ} (h : encodedSurrogate? bs = some (n, rest)) :
    n < 0x110000 := by
  unfold encodedSurrogate? at h
  split at h
  · next b c d r =>
    have hc := payload_lt c
    have hd := payload_lt d
    split at h
    · obtain ⟨rfl, -⟩ := Prod.mk.inj (Option.some.inj h)
      omega
    · cases h
  · cases h

lemma codePoints_utf8SurrogatePassAux {n : ℕ} {bs : Bytes} {s : PyStr}
    (h : utf8SurrogatePassAux n bs = some s) : CodePoints s := by
  induction n generalizing bs s with
  | zero =>
    obtain rfl := Option.some.inj h
    exact List.forall_mem_nil _
  | succ n ih =>
    cases bs with
    | nil =>
      obtain rfl := Option.some.inj h
      exact List.forall_mem_nil _
    | cons b bs =>
      rw [utf8SurrogatePassAux] at h
      split at h
      · next c rest hstep =>
        obtain ⟨t, ht, rfl⟩ := Option.map_eq_some_iff.mp h
        exact (ih ht).cons (utf8Step_lt hstep)
      · split at h
        · next c rest hsurrogate =>
          obtain ⟨t, ht, rfl⟩ := Option.map_eq_some_iff.mp h
          exact (ih ht).cons (encodedSurrogate_lt hsurrogate)
        · cases h

lemma codePoints_units16 {order : ByteOrder} {bs : Bytes} {us : List ℕ}
    (h : units16 order bs = some us) : ∀ u ∈ us, u < 0x10000 := by
  induction bs using units16.induct generalizing us with
  | case1 =>
    obtain rfl := Option.some.inj h
    simp
  | case2 => cases h
  | case3 a b rest ih =>
    rw [units16] at h
    obtain ⟨vs, hvs, rfl⟩ := Option.map_eq_some_iff.mp h
    refine List.forall_mem_cons.mpr ⟨?_, ih hvs⟩
    have ha := a.toNat_lt
    have hb := b.toNat_lt
    cases order <;> simp only [ByteOrder.unit16] <;> omega

lemma codePoints_pairUp {us : List ℕ} (h : ∀ u ∈ us, u < 0x10000) : CodePoints (pairUp us) := by
  induction us using pairUp.induct with
  | case1 => exact List.forall_mem_nil _
  | case2 u =>
    have := h u (by simp)
    exact CodePoints.cons (by omega) (List.forall_mem_nil _)
  | case3 u v t hpair ih =>
    rw [pairUp, if_pos hpair]
    rw [Bool.and_eq_true] at hpair
    exact (ih fun w hw => h w (by simp [hw])).cons (joinPair_lt hpair.1 hpair.2)
  | case4 u v t hpair ih =>
    have := h u (by simp)
    rw [pairUp, if_neg hpair]
    exact (ih fun w hw => h w (List.mem_cons_of_mem _ hw)).cons (by omega)

lemma codePoints_utf16SurrogatePass {order : ByteOrder} {bs : Bytes} {s : PyStr}
    (h : utf16SurrogatePass order bs = some s) : CodePoints s := by
  obtain ⟨us, hus, rfl⟩ := Option.map_eq_some_iff.mp h
  exact codePoints_pairUp (codePoints_units16 hus)

lemma codePoints_utf32SurrogatePass {order : ByteOrder} : ∀ {bs : Bytes} {s : PyStr},
    utf32SurrogatePass order bs = some s → CodePoints s
  | [], s, h => by
      obtain rfl := Option.some.inj h
      exact List.forall_mem_nil _
  | [_], _, h => by cases h
  | [_, _], _, h => by cases h
  | [_, _, _], _, h => by cases h
  | a :: b :: c :: d :: rest, s, h => by
      rw [utf32SurrogatePass] at h
      split at h
      · obtain ⟨t, ht, rfl⟩ := Option.map_eq_some_iff.mp h
        exact (codePoints_utf32SurrogatePass ht).cons (by omega)
      · cases h

/-- A document is decoded by one of three codecs. -/
lemma decodeDocument_cases {P : Option PyStr → Prop} (h8 : ∀ bs, P (utf8SurrogatePass bs))
    (h16 : ∀ order bs, P (utf16SurrogatePass order bs))
    (h32 : ∀ order bs, P (utf32SurrogatePass order bs)) (bs : Bytes) :
    P (decodeDocument bs) := by
  have hunmarked : P (decodeUnmarked bs) := by
    unfold decodeUnmarked
    split
    · split_ifs
      · exact h32 _ _
      · exact h16 _ _
      · exact h32 _ _
      · exact h16 _ _
      · exact h8 _
    · split_ifs
      · exact h16 _ _
      · exact h16 _ _
      · exact h8 _
    · exact h8 _
  unfold decodeDocument
  split_ifs
  · exact h32 _ _
  · exact h32 _ _
  · exact h16 _ _
  · exact h16 _ _
  · exact h8 _
  · exact hunmarked

/-- A decoded document is made of code points. -/
lemma codePoints_decodeDocument {bs : Bytes} {s : PyStr} (h : decodeDocument bs = some s) :
    CodePoints s := by
  have hall := @decodeDocument_cases fun x => ∀ s, x = some s → CodePoints s
  exact hall (fun _ _ h => codePoints_utf8SurrogatePassAux h)
    (fun _ _ _ h => codePoints_utf16SurrogatePass h)
    (fun _ _ _ h => codePoints_utf32SurrogatePass h) bs s h

/-- **What `json.loads` returns can be written and read again.** -/
theorem readable_of_loads {limit : ℕ} {bs : Bytes} {v : Json} (h : loads limit bs = .ok v) :
    v.Readable ∧ v.depth ≤ limit := by
  unfold loads at h
  split at h
  · cases h
  · next s hdecode =>
    obtain ⟨⟨w, rest⟩, hscan, h⟩ := bind_eq_ok.mp h
    obtain ⟨hw, hdepth, -⟩ :=
      readsReadable_scanOnce limit _ w rest (codePoints_decodeDocument hdecode).skipWs hscan
    dsimp only at h
    split at h
    · obtain rfl := Except.ok.inj h
      exact ⟨hw, hdepth⟩
    · cases h

end IssuesApi
