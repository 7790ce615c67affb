import Mathlib.Data.List.Forall2

/-!
# Computations that may raise

How to take apart a computation in `Except` that succeeded, one statement at a time, instead
of unfolding the monad; and how to run one in `Option` the same way.
-/

namespace IssuesApi

variable {ε α β : Type}

@[simp] lemma ok_bind (a : α) (f : α → Except ε β) : (Except.ok a >>= f) = f a := rfl

@[simp] lemma error_bind (e : ε) (f : α → Except ε β) :
    ((Except.error e : Except ε α) >>= f) = .error e := rfl

/-- A reader goes on with what its first part has read. -/
lemma bind_of_eq_some {o : Option α} {a : α} (h : o = some a) (f : α → Option β) :
    (o >>= f) = f a := by
  rw [h, Option.bind_eq_bind, Option.bind_some]

/-- A sequence succeeds when both parts do. -/
lemma bind_eq_ok {x : Except ε α} {f : α → Except ε β} {b : β} :
    (x >>= f) = .ok b ↔ ∃ a, x = .ok a ∧ f a = .ok b := by
  cases x with
  | error e => simp
  | ok a => simp

/-- A sequence raises what one of its parts raises. -/
lemma bind_eq_error {x : Except ε α} {f : α → Except ε β} {e : ε} :
    (x >>= f) = .error e ↔ x = .error e ∨ ∃ a, x = .ok a ∧ f a = .error e := by
  cases x with
  | error e' => simp
  | ok a => simp

lemma map_eq_ok {x : Except ε α} {f : α → β} {b : β} :
    x.map f = .ok b ↔ ∃ a, x = .ok a ∧ f a = b := by
  cases x <;> simp [Except.map]

/-- A loop over a list succeeds when every iteration does. -/
lemma mapM_eq_ok {f : α → Except ε β} : ∀ {xs : List α} {ys : List β},
    xs.mapM f = .ok ys ↔ List.Forall₂ (fun x y => f x = .ok y) xs ys
  | [], ys => by
      rw [List.mapM_nil, List.forall₂_nil_left_iff]
      exact ⟨fun h => (Except.ok.inj h).symm, fun h => h ▸ rfl⟩
  | x :: xs, ys => by
      rw [List.mapM_cons, bind_eq_ok, List.forall₂_cons_left_iff]
      constructor
      · rintro ⟨y, hy, h⟩
        obtain ⟨ys', hys, h⟩ := bind_eq_ok.mp h
        exact ⟨y, ys', hy, mapM_eq_ok.mp hys, (Except.ok.inj h).symm⟩
      · rintro ⟨y, ys', hy, hys, rfl⟩
        refine ⟨y, hy, ?_⟩
        rw [mapM_eq_ok.mpr hys]
        rfl

/-- Two loops, one after the other, succeed when one loop that does both succeeds. -/
lemma mapM_bind_mapM_eq_ok {γ : Type} {f : α → Except ε β} {g : β → Except ε γ} :
    ∀ {xs : List α} {zs : List γ},
      (xs.mapM f >>= fun ys => ys.mapM g) = .ok zs ↔ (xs.mapM fun x => f x >>= g) = .ok zs
  | [], zs => by rw [List.mapM_nil, List.mapM_nil]; rfl
  | x :: xs, zs => by
      have htail (zs : List γ) := @mapM_bind_mapM_eq_ok γ f g xs zs
      simp only [mapM_eq_ok, bind_eq_ok] at htail
      simp only [mapM_eq_ok, bind_eq_ok, List.forall₂_cons_left_iff, ← htail]
      constructor
      · rintro ⟨_, ⟨y, ys, hy, hys, rfl⟩, hzs⟩
        obtain ⟨z, zs, hz, hrest, rfl⟩ := List.forall₂_cons_left_iff.mp hzs
        exact ⟨z, zs, ⟨y, hy, hz⟩, ⟨ys, hys, hrest⟩, rfl⟩
      · rintro ⟨z, zs, ⟨y, hy, hz⟩, ⟨ys, hys, hrest⟩, rfl⟩
        exact ⟨y :: ys, ⟨y, ys, hy, hys, rfl⟩, .cons hz hrest⟩

/-- Every element has an image exactly when the list has one. -/
lemma exists_forall₂_iff {γ δ : Type*} {R : γ → δ → Prop} {xs : List γ} :
    (∃ ys, List.Forall₂ R xs ys) ↔ ∀ x ∈ xs, ∃ y, R x y := by
  induction xs with
  | nil => simp
  | cons x xs ih =>
    rw [List.forall_mem_cons, ← ih]
    constructor
    · rintro ⟨_, hall⟩
      obtain ⟨y, ys, hy, hys, rfl⟩ := List.forall₂_cons_left_iff.mp hall
      exact ⟨⟨y, hy⟩, ys, hys⟩
    · rintro ⟨⟨y, hy⟩, ys, hys⟩
      exact ⟨y :: ys, .cons hy hys⟩

/-- Outcomes that agree under a function agree under what can be computed from its value. -/
lemma map_eq_of_map_eq {γ δ : Type*} {x y : Except ε γ} {core : γ → δ}
    (h : x.map core = y.map core) {read : γ → β} {f : δ → β} (hread : ∀ a, f (core a) = read a) :
    x.map read = y.map read := by
  have hmap (z : Except ε γ) : (z.map core).map f = z.map read := by
    cases z with
    | error e => rfl
    | ok a => exact congrArg Except.ok (hread a)
  rw [← hmap x, ← hmap y, h]

/-- What every element on the left entails of its partners holds on the right. -/
lemma forall_of_forall₂ {γ δ : Type*} {R : γ → δ → Prop} {p : δ → Prop} {xs : List γ}
    {ys : List δ} (h : List.Forall₂ R xs ys) (himp : ∀ x ∈ xs, ∀ y, R x y → p y) :
    ∀ y ∈ ys, p y := by
  induction h with
  | nil => simp
  | cons hxy _ ih =>
    rw [List.forall_mem_cons]
    exact ⟨himp _ (by simp) _ hxy, ih fun x hx => himp x (by simp [hx])⟩

/-- A loop returns something exactly when every iteration does. -/
lemma mapM_returns_iff {f : α → Except ε β} {xs : List α} :
    (∃ ys, xs.mapM f = .ok ys) ↔ ∀ x ∈ xs, ∃ y, f x = .ok y := by
  simp only [mapM_eq_ok]
  exact exists_forall₂_iff

end IssuesApi
