import Mathlib.Data.List.Basic

/-!
# Variables that hold values

The variables of a program, numbered in the order in which they were made; a variable that was
destroyed holds nothing.  `Slots.copy`, `Slots.assign` and `Slots.destroy` are what copy
construction, assignment and destruction mean for values: a copy is equal, and an assignment leaves
nothing of the old value.  An operation on a variable that holds nothing does nothing.

None of them looks at the values: they keep any relation between the values of two lists of
variables (`Slots.Rel`).
-/

namespace MileRpc

/-- What each variable holds. -/
abbrev Slots (α : Type) : Type := List (Option α)

namespace Slots

variable {α β : Type}

/-- The value of the variable `i`. -/
def value? (xs : Slots α) (i : ℕ) : Option α := xs[i]?.join

/-- Make a variable, if there is a value for it. -/
def add (xs : Slots α) : Option α → Slots α
  | some a => xs ++ [some a]
  | none => xs

/-- Make a variable as a copy of the variable `i`. -/
def copy (xs : Slots α) (i : ℕ) : Slots α := xs.add (xs.value? i)

/-- Assign the variable `j` to the variable `i`. -/
def assign (xs : Slots α) (i j : ℕ) : Slots α :=
  match xs.value? i, xs.value? j with
  | some _, some a => xs.set i (some a)
  | _, _ => xs

/-- Destroy the variable `i`. -/
def destroy (xs : Slots α) (i : ℕ) : Slots α :=
  match xs.value? i with
  | some _ => xs.set i none
  | none => xs

@[simp] theorem add_none (xs : Slots α) : xs.add none = xs := rfl

theorem lt_length_of_value? {xs : Slots α} {i : ℕ} {a : α} (h : xs.value? i = some a) :
    i < xs.length := by
  have hget : xs[i]? = some (some a) := by simpa [value?, Option.join_eq_some_iff] using h
  exact (List.getElem?_eq_some_iff.1 hget).1

theorem value?_set {xs : Slots α} {i : ℕ} (hi : i < xs.length) (x : Option α) (k : ℕ) :
    Slots.value? (xs.set i x) k = if k = i then x else xs.value? k := by
  unfold value?
  by_cases hk : k = i
  · subst hk
    simp [hi]
  · simp [List.getElem?_set_ne (Ne.symm hk), hk]

theorem value?_append (xs : Slots α) (x : Option α) (k : ℕ) :
    Slots.value? (xs ++ [x]) k = if k = xs.length then x else xs.value? k := by
  unfold value?
  rcases Nat.lt_trichotomy k xs.length with hk | rfl | hk
  · rw [List.getElem?_append_left hk, if_neg (Nat.ne_of_lt hk)]
  · simp
  · have hlen : (xs ++ [x]).length ≤ k := by
      rw [List.length_append]
      exact hk
    rw [List.getElem?_eq_none hlen, List.getElem?_eq_none (Nat.le_of_lt hk),
      if_neg (Nat.ne_of_gt hk)]

/-- The same variables hold values, and those are related. -/
structure Rel (R : α → β → Prop) (xs : Slots α) (ys : Slots β) : Prop where
  length : xs.length = ys.length
  value? : ∀ i, Option.Rel R (xs.value? i) (ys.value? i)

namespace Rel

variable {R R' : α → β → Prop} {xs : Slots α} {ys : Slots β}

theorem nil : Slots.Rel R [] [] where
  length := rfl
  value? _ := .none

theorem mono (h : Slots.Rel R xs ys)
    (hR : ∀ i a b, xs.value? i = some a → R a b → R' a b) : Slots.Rel R' xs ys where
  length := h.length
  value? i := by
    have hi := h.value? i
    cases hx : xs.value? i with
    | none =>
      cases hy : ys.value? i with
      | none => exact .none
      | some b => simp [hx, hy] at hi
    | some a =>
      cases hy : ys.value? i with
      | none => simp [hx, hy] at hi
      | some b => exact .some (hR i a b hx (by simpa [hx, hy] using hi))

theorem of_some (h : Slots.Rel R xs ys) {i : ℕ} {a : α} (ha : xs.value? i = some a) :
    ∃ b, ys.value? i = some b ∧ R a b := by
  have hi := h.value? i
  rw [ha] at hi
  cases hy : ys.value? i with
  | none => simp [hy] at hi
  | some b => exact ⟨b, rfl, by simpa [hy] using hi⟩

theorem of_none (h : Slots.Rel R xs ys) {i : ℕ} (ha : xs.value? i = none) :
    ys.value? i = none := by
  have hi := h.value? i
  rw [ha] at hi
  cases hy : ys.value? i with
  | none => rfl
  | some b => simp [hy] at hi

theorem append (h : Slots.Rel R xs ys) {x : Option α} {y : Option β} (hxy : Option.Rel R x y) :
    Slots.Rel R (xs ++ [x]) (ys ++ [y]) where
  length := by simp [h.length]
  value? i := by
    rw [value?_append, value?_append, h.length]
    split
    · exact hxy
    · exact h.value? i

theorem set (h : Slots.Rel R xs ys) {i : ℕ} (hi : i < xs.length) {x : Option α} {y : Option β}
    (hxy : Option.Rel R x y) : Slots.Rel R (xs.set i x) (ys.set i y) where
  length := by simp [h.length]
  value? k := by
    rw [value?_set hi, value?_set (h.length ▸ hi)]
    split
    · exact hxy
    · exact h.value? k

theorem add (h : Slots.Rel R xs ys) {x : Option α} {y : Option β} (hxy : Option.Rel R x y) :
    Slots.Rel R (xs.add x) (ys.add y) := by
  cases hxy with
  | some hab => exact h.append (.some hab)
  | none => exact h

theorem copy (h : Slots.Rel R xs ys) (i : ℕ) : Slots.Rel R (xs.copy i) (ys.copy i) :=
  h.add (h.value? i)

theorem assign (h : Slots.Rel R xs ys) (i j : ℕ) : Slots.Rel R (xs.assign i j) (ys.assign i j) := by
  unfold Slots.assign
  cases hi : xs.value? i with
  | none => simpa [h.of_none hi] using h
  | some a =>
    obtain ⟨b, hb, -⟩ := h.of_some hi
    cases hj : xs.value? j with
    | none => simpa [hb, h.of_none hj] using h
    | some a' =>
      obtain ⟨b', hb', hR⟩ := h.of_some hj
      simpa [hb, hb'] using h.set (lt_length_of_value? hi) (.some hR)

theorem destroy (h : Slots.Rel R xs ys) (i : ℕ) : Slots.Rel R (xs.destroy i) (ys.destroy i) := by
  unfold Slots.destroy
  cases hi : xs.value? i with
  | none => simpa [h.of_none hi] using h
  | some a =>
    obtain ⟨b, hb, -⟩ := h.of_some hi
    simpa [hb] using h.set (lt_length_of_value? hi) .none

end Rel

end Slots

end MileRpc
