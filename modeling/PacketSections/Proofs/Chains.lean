import Mathlib

/-!
Computations one after the other, and lists element by element.

A chain of computations that may fail gives a value exactly when each link does. In the same way a
relation carries over to lists: a list can be matched when each of its elements can.
-/

namespace Except

variable {ε ε' α β σ : Type}

@[simp] lemma bind_eq_ok {x : Except ε α} {f : α → Except ε β} {b : β} :
    x >>= f = .ok b ↔ ∃ a, x = .ok a ∧ f a = .ok b := by
  cases x <;> simp [bind, Except.bind]

@[simp] lemma map_eq_ok {x : Except ε α} {f : α → β} {b : β} :
    x.map f = .ok b ↔ ∃ a, x = .ok a ∧ f a = b := by
  cases x <;> simp [Except.map]

/-- A change of the error is no change of the value. -/
@[simp] lemma mapError_eq_ok {x : Except ε α} {g : ε → ε'} {a : α} :
    x.mapError g = .ok a ↔ x = .ok a := by
  cases x <;> simp [Except.mapError]

/-- Each value that was made comes from one of the sources. -/
lemma mem_of_mapM {f : σ → Except ε α} {xs : List σ} {as : List α} (h : xs.mapM f = .ok as) {a : α}
    (ha : a ∈ as) : ∃ x ∈ xs, f x = .ok a := by
  induction xs generalizing as with
  | nil => cases h; simp at ha
  | cons x xs ih =>
    rw [List.mapM_cons] at h
    simp only [bind_eq_ok, pure, Except.pure, Except.ok.injEq] at h
    obtain ⟨b, hb, bs, hbs, rfl⟩ := h
    rcases List.mem_cons.1 ha with rfl | ha
    · exact ⟨x, by simp, hb⟩
    · obtain ⟨y, hy, hya⟩ := ih hbs ha
      exact ⟨y, by simp [hy], hya⟩

end Except

namespace List

variable {σ τ : Type} {S : σ → τ → Prop}

lemma exists_forall₂_iff {xs : List σ} : (∃ ys, Forall₂ S xs ys) ↔ ∀ x ∈ xs, ∃ y, S x y := by
  induction xs with
  | nil => simp
  | cons x xs ih =>
    rw [forall_mem_cons, ← ih]
    constructor
    · rintro ⟨_, _ | ⟨hxy, hs⟩⟩
      exact ⟨⟨_, hxy⟩, _, hs⟩
    · rintro ⟨⟨y, hxy⟩, ys, hs⟩
      exact ⟨y :: ys, .cons hxy hs⟩

lemma forall₂_singleton_left_iff {x : σ} {ys : List τ} :
    Forall₂ S [x] ys ↔ ∃ y, ys = [y] ∧ S x y := by
  simp [forall₂_cons_left_iff, and_comm]

/-- Lists that match are both empty, or their last elements match. -/
lemma Forall₂.getLast? {xs : List σ} {ys : List τ} (h : Forall₂ S xs ys) :
    xs.getLast? = none ∧ ys.getLast? = none ∨
      ∃ x y, xs.getLast? = some x ∧ ys.getLast? = some y ∧ S x y := by
  induction h with
  | nil => exact .inl ⟨rfl, rfl⟩
  | @cons x y xs ys hxy _ ih =>
    rw [getLast?_cons, getLast?_cons]
    rcases ih with ⟨hx, hy⟩ | ⟨x', y', hx, hy, hlast⟩
    · exact .inr ⟨x, y, by rw [hx]; rfl, by rw [hy]; rfl, hxy⟩
    · exact .inr ⟨x', y', by rw [hx]; rfl, by rw [hy]; rfl, hlast⟩

end List
