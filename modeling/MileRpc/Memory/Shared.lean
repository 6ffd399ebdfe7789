import Mathlib.Data.List.Nodup

/-!
# Shared objects

Objects that are owned by counted pointers, as those of `std::shared_ptr` are: an object is made
with one owner, every copy of a pointer is one owner more, and the object is destroyed when its last
owner gives it up.

`Shared.Owned h owners` says that the counts are right: an object has as many uses as there are
pointers to it among the owners, and it was destroyed, once, exactly if there are none.  Each
operation keeps this (`Owned.make`, `Owned.retain`, `Owned.release`), and a pointer of an owner can
be followed (`Owned.get?_eq`).
-/

namespace MileRpc

/-- A pointer; `none` is null. -/
abbrev Pointer : Type := Option ℕ

/-- The objects that were made, each with the number of its owners, and those that were destroyed,
in order. -/
structure Shared (α : Type) where
  cells : List (α × ℕ)
  freed : List ℕ

namespace Shared

variable {α : Type}

/-- Nothing was made. -/
def empty : Shared α := ⟨[], []⟩

/-- The number of owners. -/
def uses (h : Shared α) (p : ℕ) : ℕ := (h.cells[p]?).elim 0 Prod.snd

/-- The object that was made for a pointer, which may have been destroyed. -/
def made? (h : Shared α) (p : Pointer) : Option α := (p.bind (h.cells[·]?)).map Prod.fst

/-- The object behind a pointer, if it is there. -/
def get? (h : Shared α) (p : Pointer) : Option α :=
  if ∃ n, p = some n ∧ 0 < h.uses n then h.made? p else none

/-- Make an object. -/
def make (h : Shared α) (a : α) : Pointer × Shared α :=
  (some h.cells.length, ⟨h.cells ++ [(a, 1)], h.freed⟩)

/-- Copy a pointer. -/
def retain (h : Shared α) : Pointer → Shared α
  | some p => { h with cells := h.cells.modify p fun c => (c.1, c.2 + 1) }
  | none => h

/-- Give up a pointer. -/
def release (h : Shared α) : Pointer → Shared α
  | some p =>
    { cells := h.cells.modify p fun c => (c.1, c.2 - 1),
      freed := if h.uses p = 1 then h.freed ++ [p] else h.freed }
  | none => h

@[simp] theorem retain_none (h : Shared α) : h.retain none = h := rfl
@[simp] theorem release_none (h : Shared α) : h.release none = h := rfl

instance (h : Shared α) (p : Pointer) : Decidable (∃ n, p = some n ∧ 0 < h.uses n) :=
  match p with
  | some n => decidable_of_iff (0 < h.uses n) (by simp)
  | none => .isFalse (by simp)

/-! ### Counts -/

theorem lt_length_of_uses {h : Shared α} {p : ℕ} (hp : 0 < h.uses p) : p < h.cells.length := by
  by_contra hlen
  have hnone : h.cells[p]? = none := List.getElem?_eq_none (Nat.le_of_not_lt hlen)
  simp [uses, hnone] at hp

theorem uses_make (h : Shared α) (a : α) (q : ℕ) :
    (h.make a).2.uses q = if q = h.cells.length then 1 else h.uses q := by
  unfold uses make
  by_cases hq : q = h.cells.length
  · simp [hq]
  · rw [if_neg hq]
    by_cases hlt : q < h.cells.length
    · rw [List.getElem?_append_left hlt]
    · have hgt : h.cells.length + 1 ≤ q := by omega
      rw [List.getElem?_eq_none (by simpa using hgt), List.getElem?_eq_none (by omega)]

theorem uses_modify {cells : List (α × ℕ)} (freed freed' : List ℕ) {p : ℕ} (f : ℕ → ℕ)
    (hp : p < cells.length) (q : ℕ) :
    (⟨cells.modify p fun c => (c.1, f c.2), freed⟩ : Shared α).uses q =
      if q = p then f ((⟨cells, freed'⟩ : Shared α).uses p)
      else (⟨cells, freed'⟩ : Shared α).uses q := by
  unfold uses
  by_cases hq : q = p
  · subst hq
    simp [hp]
  · simp [List.getElem?_modify_ne _ _ (Ne.symm hq), hq]

theorem length_retain (h : Shared α) (p : Pointer) :
    (h.retain p).cells.length = h.cells.length := by
  cases p <;> simp [retain]

theorem length_release (h : Shared α) (p : Pointer) :
    (h.release p).cells.length = h.cells.length := by
  cases p <;> simp [release]

/-! ### Objects stay what they are -/

/-- Every object of `h` is one of `h'`, under the same pointer. -/
def Within (h h' : Shared α) : Prop := ∀ p a, h.made? p = some a → h'.made? p = some a

theorem Within.trans {h h' h'' : Shared α} (h₁ : h.Within h') (h₂ : h'.Within h'') :
    h.Within h'' :=
  fun p a hp => h₂ p a (h₁ p a hp)

theorem within_make (h : Shared α) (a : α) : h.Within (h.make a).2 := by
  intro p b hp
  cases p with
  | none => cases hp
  | some p =>
    obtain ⟨c, hc, rfl⟩ : ∃ c, h.cells[p]? = some c ∧ c.1 = b := by simpa [made?] using hp
    have hlt : p < h.cells.length := (List.getElem?_eq_some_iff.1 hc).1
    simp [made?, make, List.getElem?_append_left hlt, hc]

theorem made?_make (h : Shared α) (a : α) : (h.make a).2.made? (h.make a).1 = some a := by
  simp [made?, make]

theorem within_modify (cells : List (α × ℕ)) (freed freed' : List ℕ) (p : ℕ) (f : ℕ → ℕ) :
    (⟨cells, freed⟩ : Shared α).Within ⟨cells.modify p fun c => (c.1, f c.2), freed'⟩ := by
  intro q a hq
  cases q with
  | none => cases hq
  | some q =>
    obtain ⟨c, hc, rfl⟩ : ∃ c, cells[q]? = some c ∧ c.1 = a := by simpa [made?] using hq
    by_cases hpq : p = q
    · subst hpq
      simp [made?, hc]
    · simp [made?, List.getElem?_modify_ne _ _ hpq, hc]

theorem within_retain (h : Shared α) (p : Pointer) : h.Within (h.retain p) := by
  cases p with
  | none => exact fun _ _ hp => hp
  | some p => exact within_modify h.cells h.freed _ p (· + 1)

theorem within_release (h : Shared α) (p : Pointer) : h.Within (h.release p) := by
  cases p with
  | none => exact fun _ _ hp => hp
  | some p => exact within_modify h.cells h.freed _ p (· - 1)

/-! ### Owners -/

/-- The counts are those of the owners, and what has no owner was destroyed once. -/
structure Owned (h : Shared α) (owners : List Pointer) : Prop where
  uses : ∀ p, h.uses p = owners.count (some p)
  nodup : h.freed.Nodup
  freed : ∀ p, p ∈ h.freed ↔ p < h.cells.length ∧ some p ∉ owners

namespace Owned

variable {h : Shared α} {owners : List Pointer}

theorem empty : (Shared.empty : Shared α).Owned [] where
  uses := by simp [Shared.uses, Shared.empty]
  nodup := List.nodup_nil
  freed := by simp [Shared.empty]

theorem perm {owners' : List Pointer} (ho : h.Owned owners) (hperm : owners.Perm owners') :
    h.Owned owners' where
  uses p := by rw [ho.uses, hperm.count_eq]
  nodup := ho.nodup
  freed p := by rw [ho.freed, hperm.mem_iff]

theorem uses_pos (ho : h.Owned owners) {p : ℕ} (hp : some p ∈ owners) : 0 < h.uses p := by
  rw [ho.uses]
  exact List.count_pos_iff.2 hp

/-- **A pointer of an owner can be followed.** -/
theorem get?_eq (ho : h.Owned owners) {p : Pointer} (hp : p ∈ owners) {a : α}
    (ha : h.made? p = some a) : h.get? p = some a := by
  cases p with
  | none => cases ha
  | some p => rw [get?, if_pos ⟨p, rfl, ho.uses_pos hp⟩, ha]

theorem make (ho : h.Owned owners) (a : α) : (h.make a).2.Owned ((h.make a).1 :: owners) := by
  -- nobody owns the new object
  have hnew : some h.cells.length ∉ owners :=
    fun hmem => absurd (lt_length_of_uses (ho.uses_pos hmem)) (by omega)
  refine ⟨fun p => ?_, ho.nodup, fun p => ?_⟩
  · rw [uses_make]
    by_cases hp : p = h.cells.length
    · subst hp
      simp [Shared.make, List.count_eq_zero_of_not_mem hnew]
    · have hne : (some h.cells.length : Pointer) ≠ some p := fun hs => hp (Option.some.inj hs).symm
      rw [if_neg hp, ho.uses, Shared.make, List.count_cons_of_ne hne]
  · have hfreed := ho.freed p
    have hlt : p < h.cells.length + 1 ∧ ¬p = h.cells.length ↔ p < h.cells.length := by omega
    simp only [Shared.make, List.length_append, List.length_singleton, List.mem_cons, not_or,
      Option.some.injEq, hfreed, ← and_assoc, hlt]

theorem retain (ho : h.Owned owners) {p : Pointer} (hp : p ∈ owners) :
    (h.retain p).Owned (p :: owners) := by
  cases p with
  | none =>
    refine ⟨fun p => ?_, ho.nodup, fun p => ?_⟩
    · simpa using ho.uses p
    · simpa using ho.freed p
  | some p =>
    have hlt := lt_length_of_uses (ho.uses_pos hp)
    refine ⟨fun q => ?_, ho.nodup, fun q => ?_⟩
    · rw [Shared.retain, uses_modify h.freed h.freed (· + 1) hlt]
      by_cases hq : q = p
      · subst hq
        simp [ho.uses]
      · have hne : (some p : Pointer) ≠ some q := fun hs => hq (Option.some.inj hs).symm
        rw [if_neg hq, ho.uses, List.count_cons_of_ne hne]
    · rw [length_retain]
      have hmem : some q ∈ some p :: owners ↔ some q ∈ owners := by
        simp only [List.mem_cons, Option.some.injEq, or_iff_right_iff_imp]
        rintro rfl
        exact hp
      rw [hmem]
      exact ho.freed q

/-- The last owner destroys the object. -/
theorem release {p : Pointer} (ho : h.Owned (p :: owners)) : (h.release p).Owned owners := by
  cases p with
  | none =>
    refine ⟨fun p => ?_, ho.nodup, fun p => ?_⟩
    · simpa using ho.uses p
    · simpa using ho.freed p
  | some p =>
    have hlt := lt_length_of_uses (ho.uses_pos List.mem_cons_self)
    have huses : h.uses p = owners.count (some p) + 1 := by rw [ho.uses, List.count_cons_self]
    have hp : p ∉ h.freed := fun hmem => ((ho.freed p).1 hmem).2 List.mem_cons_self
    refine ⟨fun q => ?_, ?_, fun q => ?_⟩
    · rw [Shared.release, uses_modify _ h.freed (· - 1) hlt]
      by_cases hq : q = p
      · subst hq
        rw [if_pos rfl, huses, Nat.add_sub_cancel]
      · have hne : (some p : Pointer) ≠ some q := fun hs => hq (Option.some.inj hs).symm
        rw [if_neg hq, ho.uses, List.count_cons_of_ne hne]
    · simp only [Shared.release]
      split
      · exact List.Nodup.append ho.nodup (List.nodup_singleton p) (by simpa using hp)
      · exact ho.nodup
    · rw [length_release]
      have hold := ho.freed q
      simp only [List.mem_cons, not_or, Option.some.injEq] at hold
      by_cases hq : q = p
      · subst hq
        have hcount : h.uses q = 1 ↔ some q ∉ owners := by
          rw [huses, ← List.count_eq_zero]
          omega
        by_cases hone : h.uses q = 1
        · simp [Shared.release, hone, hcount.1 hone, hlt]
        · simp [Shared.release, hone, hp, not_not.1 (mt hcount.2 hone)]
      · have hmem : q ∈ (h.release (some p)).freed ↔ q ∈ h.freed := by
          simp only [Shared.release]
          split <;> simp [hq]
        rw [hmem, hold]
        simp [hq]

end Owned

end Shared

end MileRpc
