import Mathlib.Data.List.Basic

/-!
# Perl-style regular expressions

A `Pattern` is matched by backtracking: an option and a repetition first try to take as much as
they can, an alternative first tries its left side.  `Pattern.splits r s` lists **all** ways in
which `r` can match at the beginning of `s`, in the order in which a backtracking matcher comes to
them, and `Pattern.fullMatch` takes the first one that leaves nothing of the input.

Repetition is over one character class, which is what a pattern made of class repetitions,
options, alternatives and groups needs; it makes `splits` structurally recursive.

## Main results

* `Pattern.append_of_mem_splits` : a split puts the input together again.
* `Pattern.mem_splits_seq`, `Pattern.head?_seq` : the splits of a sequence, and the first of them.
* `Pattern.head?_many` : a repetition first takes the longest prefix in its class.
* `Pattern.fullMatch_of_head?` : if the first split leaves nothing, there is no backtracking.
-/

namespace MileRpc

/-- A regular expression over characters. -/
inductive Pattern where
  /-- The empty string. -/
  | eps
  /-- One character of a class. -/
  | chr (p : Char → Bool)
  /-- As many characters of a class as possible. -/
  | many (p : Char → Bool)
  | opt (r : Pattern)
  | alt (r t : Pattern)
  | seq (r t : Pattern)
  /-- The capture group number `n`. -/
  | group (n : ℕ) (r : Pattern)

/-- A match at the beginning of an input: what it takes, what it leaves, and the text of each
capture group. -/
structure Split where
  taken : List Char
  rest : List Char
  caps : List (ℕ × List Char)
  deriving DecidableEq, Repr

/-- The match `a` followed by the match `b` of what `a` leaves. -/
def Split.append (a b : Split) : Split := ⟨a.taken ++ b.taken, b.rest, a.caps ++ b.caps⟩

/-- The match of nothing. -/
def Split.nothing (s : List Char) : Split := ⟨[], s, []⟩

namespace Pattern

/-- A given text. -/
def lit : List Char → Pattern
  | [] => eps
  | c :: cs => seq (chr (· == c)) (lit cs)

/-- At least one character of a class. -/
def many1 (p : Char → Bool) : Pattern := seq (chr p) (many p)

/-- The splits of a repetition, the longest first. -/
def manySplits (p : Char → Bool) : List Char → List Split
  | [] => [.nothing []]
  | c :: cs => if p c
      then (manySplits p cs).map (fun a => { a with taken := c :: a.taken }) ++ [.nothing (c :: cs)]
      else [.nothing (c :: cs)]

/-- All splits of an input, in the order of the backtracking search. -/
def splits : Pattern → List Char → List Split
  | eps, s => [.nothing s]
  | chr p, s => match s with
    | [] => []
    | c :: cs => if p c then [⟨[c], cs, []⟩] else []
  | many p, s => manySplits p s
  | opt r, s => r.splits s ++ [.nothing s]
  | alt r t, s => r.splits s ++ t.splits s
  | seq r t, s => (r.splits s).flatMap fun a => (t.splits a.rest).map a.append
  | group n r, s => (r.splits s).map fun a => { a with caps := (n, a.taken) :: a.caps }

/-- The captures of the first split that takes the whole input. -/
def fullMatch (r : Pattern) (s : List Char) : Option (List (ℕ × List Char)) :=
  ((r.splits s).find? fun a => a.rest.isEmpty).map Split.caps

/-! ### Splits -/

section Equations

variable (p : Char → Bool) (r t : Pattern) (n : ℕ) (c : Char) (cs s : List Char)

@[simp] theorem manySplits_nil : manySplits p [] = [.nothing []] := rfl

theorem manySplits_cons : manySplits p (c :: cs) = if p c
    then (manySplits p cs).map (fun a => { a with taken := c :: a.taken }) ++ [.nothing (c :: cs)]
    else [.nothing (c :: cs)] := rfl

@[simp] theorem splits_eps : eps.splits s = [.nothing s] := rfl

@[simp] theorem splits_chr_nil : (chr p).splits [] = [] := rfl

@[simp] theorem splits_chr_cons :
    (chr p).splits (c :: cs) = if p c then [⟨[c], cs, []⟩] else [] := rfl

@[simp] theorem splits_many : (many p).splits s = manySplits p s := rfl

@[simp] theorem splits_opt : (opt r).splits s = r.splits s ++ [.nothing s] := rfl

@[simp] theorem splits_seq :
    (seq r t).splits s = (r.splits s).flatMap fun a => (t.splits a.rest).map a.append := rfl

@[simp] theorem splits_group : (group n r).splits s =
    (r.splits s).map fun a => { a with caps := (n, a.taken) :: a.caps } := rfl

end Equations

theorem manySplits_taken {p : Char → Bool} {s : List Char} {a : Split} (h : a ∈ manySplits p s) :
    a.taken ++ a.rest = s ∧ (∀ c ∈ a.taken, p c = true) ∧ a.caps = [] := by
  induction s generalizing a with
  | nil =>
    simp only [manySplits_nil, List.mem_singleton] at h
    simp [h, Split.nothing]
  | cons c cs ih =>
    rw [manySplits_cons] at h
    split_ifs at h with hc
    · simp only [List.mem_append, List.mem_map, List.mem_singleton] at h
      rcases h with ⟨b, hb, rfl⟩ | rfl
      · obtain ⟨h1, h2, h3⟩ := ih hb
        refine ⟨by simp [h1], fun d hd => ?_, h3⟩
        rcases List.mem_cons.1 hd with rfl | hd
        · exact hc
        · exact h2 d hd
      · simp [Split.nothing]
    · simp only [List.mem_singleton] at h
      simp [h, Split.nothing]

theorem mem_splits_seq {r t : Pattern} {s : List Char} {c : Split} :
    c ∈ (seq r t).splits s ↔ ∃ a ∈ r.splits s, ∃ b ∈ t.splits a.rest, c = a.append b := by
  simp only [splits_seq, List.mem_flatMap, List.mem_map, eq_comm]

theorem mem_splits_chr {p : Char → Bool} {s : List Char} {a : Split} :
    a ∈ (chr p).splits s ↔ ∃ c cs, s = c :: cs ∧ p c = true ∧ a = ⟨[c], cs, []⟩ := by
  cases s with
  | nil => simp
  | cons c cs =>
    by_cases hc : p c
    · simp [hc]
    · simp only [splits_chr_cons, hc, Bool.false_eq_true, ↓reduceIte, List.not_mem_nil, false_iff]
      rintro ⟨d, ds, h, hd, -⟩
      injection h with h1 h2
      exact hc (h1 ▸ hd)

/-- A split puts the input together again. -/
theorem append_of_mem_splits {r : Pattern} {s : List Char} {a : Split} (h : a ∈ r.splits s) :
    a.taken ++ a.rest = s := by
  induction r generalizing s a with
  | eps => simp only [splits_eps, List.mem_singleton] at h; simp [h, Split.nothing]
  | chr p => obtain ⟨c, cs, rfl, -, rfl⟩ := mem_splits_chr.1 h; rfl
  | many p => exact (manySplits_taken h).1
  | opt r ih =>
    rcases List.mem_append.1 h with h | h
    · exact ih h
    · simp only [List.mem_singleton] at h; simp [h, Split.nothing]
  | alt r t ihr iht =>
    rcases List.mem_append.1 h with h | h
    · exact ihr h
    · exact iht h
  | seq r t ihr iht =>
    obtain ⟨a, ha, b, hb, rfl⟩ := mem_splits_seq.1 h
    simp only [Split.append, List.append_assoc, iht hb, ihr ha]
  | group n r ih =>
    obtain ⟨b, hb, rfl⟩ := List.mem_map.1 h
    exact ih (a := b) hb

theorem mem_splits_lit {w s : List Char} {a : Split} (h : a ∈ (lit w).splits s) :
    s = w ++ a.rest ∧ a = ⟨w, a.rest, []⟩ := by
  induction w generalizing s a with
  | nil =>
    simp only [lit, splits_eps, List.mem_singleton] at h
    simp [h, Split.nothing]
  | cons c cs ih =>
    obtain ⟨b, hb, d, hd, rfl⟩ := mem_splits_seq.1 h
    obtain ⟨c', s', rfl, hc, rfl⟩ := mem_splits_chr.1 hb
    obtain ⟨h1, h2⟩ := ih hd
    have hcc : c' = c := by simpa using hc
    simp only at h1
    subst hcc
    refine ⟨by simp [Split.append, ← h1], ?_⟩
    rw [h2]
    rfl

/-- No class of the pattern contains `c`. -/
def avoids (c : Char) : Pattern → Bool
  | eps => true
  | chr p => !p c
  | many p => !p c
  | opt r => r.avoids c
  | alt r t => r.avoids c && t.avoids c
  | seq r t => r.avoids c && t.avoids c
  | group _ r => r.avoids c

/-- A character that is in no class of the pattern is in no text it takes. -/
theorem not_mem_taken {c : Char} {r : Pattern} {s : List Char} {a : Split}
    (hr : r.avoids c = true) (h : a ∈ r.splits s) : c ∉ a.taken := by
  induction r generalizing s a with
  | eps => simp only [splits_eps, List.mem_singleton] at h; simp [h, Split.nothing]
  | chr p =>
    obtain ⟨d, ds, -, hd, rfl⟩ := mem_splits_chr.1 h
    rw [List.mem_singleton]
    rintro rfl
    simp [avoids, hd] at hr
  | many p =>
    intro hc
    have hp := (manySplits_taken h).2.1 c hc
    simp [avoids, hp] at hr
  | opt r ih =>
    rcases List.mem_append.1 h with h | h
    · exact ih hr h
    · simp only [List.mem_singleton] at h; simp [h, Split.nothing]
  | alt r t ihr iht =>
    simp only [avoids, Bool.and_eq_true] at hr
    rcases List.mem_append.1 h with h | h
    · exact ihr hr.1 h
    · exact iht hr.2 h
  | seq r t ihr iht =>
    simp only [avoids, Bool.and_eq_true] at hr
    obtain ⟨a, ha, b, hb, rfl⟩ := mem_splits_seq.1 h
    simp only [Split.append, List.mem_append, not_or]
    exact ⟨ihr hr.1 ha, iht hr.2 hb⟩
  | group n r ih =>
    obtain ⟨b, hb, rfl⟩ := List.mem_map.1 h
    exact (ih hr hb : c ∉ b.taken)

/-! ### The first split -/

theorem head?_many (p : Char → Bool) (s : List Char) :
    ((many p).splits s).head? = some ⟨s.takeWhile p, s.dropWhile p, []⟩ := by
  rw [splits_many]
  induction s with
  | nil => rfl
  | cons c cs ih =>
    rw [manySplits_cons]
    split_ifs with hc
    · simp [List.head?_append, ih, hc]
    · simp [Split.nothing, hc]

theorem head?_chr {p : Char → Bool} {c : Char} (cs : List Char) (h : p c = true) :
    ((chr p).splits (c :: cs)).head? = some ⟨[c], cs, []⟩ := by
  simp [h]

theorem head?_seq {r t : Pattern} {s : List Char} {a b : Split}
    (ha : (r.splits s).head? = some a) (hb : (t.splits a.rest).head? = some b) :
    ((seq r t).splits s).head? = some (a.append b) := by
  obtain ⟨as, has⟩ := List.head?_eq_some_iff.1 ha
  obtain ⟨bs, hbs⟩ := List.head?_eq_some_iff.1 hb
  simp [has, hbs]

theorem head?_group {n : ℕ} {r : Pattern} {s : List Char} {a : Split}
    (ha : (r.splits s).head? = some a) :
    ((group n r).splits s).head? = some { a with caps := (n, a.taken) :: a.caps } := by
  simp [List.head?_map, ha]

/-- The first split of an optional character. -/
theorem head?_opt_chr (p : Char → Bool) (s : List Char) :
    ((opt (chr p)).splits s).head? = some (match s with
      | [] => .nothing []
      | c :: cs => if p c then ⟨[c], cs, []⟩ else .nothing (c :: cs)) := by
  cases s with
  | nil => rfl
  | cons c cs => by_cases h : p c <;> simp [h]

theorem head?_lit (w s : List Char) :
    ((lit w).splits (w ++ s)).head? = some ⟨w, s, []⟩ := by
  induction w with
  | nil => rfl
  | cons c cs ih => exact head?_seq (head?_chr _ (by simp)) ih

/-! ### Full matches -/

theorem fullMatch_isSome_iff {r : Pattern} {s : List Char} :
    (r.fullMatch s).isSome = true ↔ ∃ a ∈ r.splits s, a.rest = [] := by
  simp [fullMatch]

/-- If the first split takes the whole input, the match is found without backtracking. -/
theorem fullMatch_of_head? {r : Pattern} {s : List Char} {a : Split}
    (ha : (r.splits s).head? = some a) (hr : a.rest = []) :
    r.fullMatch s = some a.caps := by
  obtain ⟨as, has⟩ := List.head?_eq_some_iff.1 ha
  simp [fullMatch, has, hr]

end Pattern

end MileRpc
