import MileRpc.Url.Scan

/-!
# Url variables

A program with any number of `Url` variables runs any sequence of parsing, copy construction and
copy assignment (`UrlOp`).  Every value that it can reach (`runUrlOps`) comes from `Url::Parse` and
has an empty `fragment_`, whatever the pattern captured, because the value leaves `Url::Parse`
through the copy constructor.  All other components are those of its own absolute string, also
after an assignment (`reachable_wellFormed`, `assign_eq`).
-/

namespace MileRpc

namespace Url

/-- The components of `u` are the ones the pattern captures from its absolute string. -/
def Represents (u : Url) : Prop :=
  ∃ what, urlCaptures u.urlString.toList = some what ∧
    parseProtocol what.protocol = .ok u.protocol ∧ u.domain = String.ofList what.host ∧
    parsePort u.protocol what.port = .ok u.port ∧ u.path = String.ofList what.path ∧
    u.query = String.ofList what.query ∧ u.fragment = String.ofList what.fragment

/-- The fragment that the pattern captures from a string. -/
def capturedFragment (s : String) : Option (List Char) :=
  (urlCaptures s.toList).map UrlCaptures.fragment

/-- What every reachable url satisfies: it is what `Url::Parse` returned for its own string. -/
def WellFormed (u : Url) : Prop := NulFree u.urlString ∧ parseResult u.urlString = .ok u

theorem WellFormed.fragment_eq {u : Url} (h : u.WellFormed) : u.fragment = "" := by
  obtain ⟨_, -, -, -, -, -, -, -, hf⟩ := parseResult_eq_ok h.2
  exact hf

theorem WellFormed.copy_eq {u : Url} (h : u.WellFormed) : u.copy = u := by
  have hf := h.fragment_eq
  cases u
  simp only [copy] at hf ⊢
  rw [hf]

/-- An assignment between reachable urls leaves nothing of the overwritten one. -/
theorem assign_eq {u v : Url} (hu : u.WellFormed) (hv : v.WellFormed) : u.assign v = v := by
  have hfu := hu.fragment_eq
  have hfv := hv.fragment_eq
  cases v
  simp only [assign] at hfu hfv ⊢
  rw [hfu, hfv]

theorem wellFormed_of_parse {s : String} {u : Url} (hs : NulFree s) (h : parseResult s = .ok u) :
    u.WellFormed := by
  obtain ⟨_, -, -, -, hu, -⟩ := parseResult_eq_ok h
  exact ⟨by rwa [hu], by rwa [hu]⟩

/-- A reachable url represents its string exactly if that string has no fragment. -/
theorem WellFormed.represents_iff {u : Url} (h : u.WellFormed) :
    u.Represents ↔ capturedFragment u.urlString = some [] := by
  obtain ⟨what, hw, hp, hq, -, hd, hpath, hquery, hf⟩ := parseResult_eq_ok h.2
  rw [cStr_of_nulFree h.1] at hw
  have hempty : u.fragment = String.ofList what.fragment ↔ what.fragment = [] := by
    rw [hf, eq_comm, ← String.toList_inj]
    simp
  simp only [Represents, capturedFragment, hw, Option.map_some, Option.some.injEq]
  constructor
  · rintro ⟨w, rfl, -, -, -, -, -, hfrag⟩
    exact hempty.1 hfrag
  · intro hnil
    exact ⟨what, rfl, hp, hd, hq, hpath, hquery, hempty.2 hnil⟩

end Url

/-- The variables of a program; `none` is a variable that has not been constructed. -/
abbrev UrlVars := ℕ → Option Url

/-- An operation on the variables. -/
inductive UrlOp where
  /-- Construct `x` from the result of `Url::Parse(s)`, if there is one. -/
  | parse (x : ℕ) (s : String)
  /-- Construct `x` as a copy of `y`. -/
  | copy (x y : ℕ)
  /-- `x = y` -/
  | assign (x y : ℕ)

namespace UrlOp

/-- The strings that the operation parses have no NUL byte. -/
def NulFree : UrlOp → Prop
  | parse _ s => MileRpc.NulFree s
  | _ => True

/-- The result of an operation; an operation on a variable that is not there does nothing. -/
def apply (σ : UrlVars) : UrlOp → UrlVars
  | parse x s => match Url.parseResult s with
    | .ok u => Function.update σ x (some u)
    | .error _ => σ
  | copy x y => match σ y with
    | some v => Function.update σ x (some v.copy)
    | none => σ
  | assign x y => match σ x, σ y with
    | some u, some v => Function.update σ x (some (u.assign v))
    | _, _ => σ

end UrlOp

/-- The variables after a sequence of operations. -/
def runUrlOps (ops : List UrlOp) : UrlVars := ops.foldl UrlOp.apply fun _ => none

/-- Every variable that is there holds a well-formed url. -/
def UrlVars.WellFormed (σ : UrlVars) : Prop := ∀ x u, σ x = some u → u.WellFormed

theorem UrlVars.WellFormed.update {σ : UrlVars} (hσ : σ.WellFormed) {x : ℕ} {u : Url}
    (hu : u.WellFormed) : UrlVars.WellFormed (Function.update σ x (some u)) := by
  intro y v hv
  by_cases h : y = x
  · subst h
    rw [Function.update_self, Option.some.injEq] at hv
    exact hv ▸ hu
  · rw [Function.update_of_ne h] at hv
    exact hσ y v hv

theorem UrlOp.apply_wellFormed {σ : UrlVars} (hσ : σ.WellFormed) {op : UrlOp} (hop : op.NulFree) :
    (op.apply σ).WellFormed := by
  cases op with
  | parse x s =>
    simp only [UrlOp.apply]
    cases h : Url.parseResult s with
    | error e => exact hσ
    | ok u => exact hσ.update (Url.wellFormed_of_parse hop h)
  | copy x y =>
    simp only [UrlOp.apply]
    cases h : σ y with
    | none => exact hσ
    | some v =>
      have hv := hσ y v h
      simp only [hv.copy_eq]
      exact hσ.update hv
  | assign x y =>
    simp only [UrlOp.apply]
    cases hx : σ x with
    | none => exact hσ
    | some u =>
      cases hy : σ y with
      | none => exact hσ
      | some v =>
        have hv := hσ y v hy
        simp only [Url.assign_eq (hσ x u hx) hv]
        exact hσ.update hv

theorem reachable_wellFormed {ops : List UrlOp} (hops : ∀ op ∈ ops, op.NulFree) :
    (runUrlOps ops).WellFormed := by
  -- by induction on the operations, from any well-formed variables
  have key : ∀ (ops : List UrlOp) (σ : UrlVars), (∀ op ∈ ops, op.NulFree) → σ.WellFormed →
      (ops.foldl UrlOp.apply σ).WellFormed := by
    intro ops
    induction ops with
    | nil => exact fun _ _ hσ => hσ
    | cons op ops ih =>
      intro σ hops hσ
      exact ih _ (fun o ho => hops o (List.mem_cons_of_mem _ ho))
        (UrlOp.apply_wellFormed hσ (hops op List.mem_cons_self))
  exact key ops _ hops fun x u h => by cases h

/-- **When a url represents its string.**  A value reached by any operations has the components
that the pattern captures from its own absolute string if and only if the captured fragment is
empty. -/
theorem url_represents_iff (ops : List UrlOp) (hops : ∀ op ∈ ops, op.NulFree) (x : ℕ) (u : Url)
    (hu : runUrlOps ops x = some u) :
    u.Represents ↔ Url.capturedFragment u.urlString = some [] :=
  (reachable_wellFormed hops x u hu).represents_iff

/-- The value after a parse, a copy and an assignment represents its string. -/
theorem url_represents_iff_run :
    (⟨"https://d:8/e?f", .https, "d", 8, "/e", "", "f"⟩ : Url).Represents ↔
      Url.capturedFragment "https://d:8/e?f" = some [] := by
  refine url_represents_iff [.parse 0 "http://a/b#c", .parse 1 "https://d:8/e?f", .assign 0 1,
    .copy 2 0] ?_ 2 _ (by decide +kernel)
  simp [UrlOp.NulFree, NulFree]

/-- A parsed url with a fragment does not represent its string. -/
theorem url_represents_fails :
    ¬ ∀ (ops : List UrlOp), (∀ op ∈ ops, op.NulFree) → ∀ x u, runUrlOps ops x = some u →
      u.Represents := by
  intro h
  have hrun : runUrlOps [.parse 0 "http://a/b#c"] 0 =
      some ⟨"http://a/b#c", .http, "a", 80, "/b", "", ""⟩ := by decide +kernel
  have hrep := h [.parse 0 "http://a/b#c"] (by simp [UrlOp.NulFree, NulFree]) 0 _ hrun
  rw [(reachable_wellFormed (by simp [UrlOp.NulFree, NulFree]) 0 _ hrun).represents_iff] at hrep
  exact absurd hrep (by decide +kernel)

end MileRpc
