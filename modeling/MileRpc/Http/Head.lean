import MileRpc.Http.Message

/-!
# Reading a request head

How a lenient server reads the head of a request: a line ends at CR LF, at a bare CR or at a bare
LF (`splitLines`); the head ends at the first empty line; the parts of the request line are
separated by white space; the name of a field ends at the first colon (`readHead`).

The main result is `readHead_head_iff`: the head of a request reads back as its own method, target
and fields exactly if none of them contains a character that ends a line and the target contains no
white space (`HttpRequest.Clean`).
-/

namespace MileRpc

/-- A carriage return or a line feed. -/
def isLineEnd (c : Char) : Bool := c == '\r' || c == '\n'

/-- The white space that may end a part of the request line. -/
def isTokenEnd (c : Char) : Bool :=
  c == ' ' || c == '\t' || c == '\x0b' || c == '\x0c' || isLineEnd c

/-- No character of `s` ends a line. -/
def OneLine (s : List Char) : Prop := ∀ c ∈ s, isLineEnd c = false

/-- No character of `s` ends a line or a part of the request line. -/
def OneToken (s : List Char) : Prop := ∀ c ∈ s, isTokenEnd c = false

instance (s : List Char) : Decidable (OneLine s) :=
  decidable_of_iff (s.any isLineEnd = false) (by simp [OneLine])

instance (s : List Char) : Decidable (OneToken s) :=
  decidable_of_iff (s.any isTokenEnd = false) (by simp [OneToken])

theorem OneToken.oneLine {s : List Char} (h : OneToken s) : OneLine s := by
  intro c hc
  have := h c hc
  simp_all [isTokenEnd]

theorem OneLine.append {s t : List Char} (hs : OneLine s) (ht : OneLine t) : OneLine (s ++ t) :=
  fun c hc => (List.mem_append.1 hc).elim (hs c) (ht c)

/-- `c` in front of the first line. -/
def consLine (c : Char) : List (List Char) → List (List Char)
  | [] => [[c]]
  | l :: ls => (c :: l) :: ls

/-- The lines of a text. -/
def splitLines : List Char → List (List Char)
  | [] => [[]]
  | '\r' :: '\n' :: cs => [] :: splitLines cs
  | c :: cs => if isLineEnd c then [] :: splitLines cs else consLine c (splitLines cs)

theorem splitLines_cons {c : Char} (hc : isLineEnd c = false) (cs : List Char) :
    splitLines (c :: cs) = consLine c (splitLines cs) := by
  rw [splitLines]
  · simp [hc]
  · rintro ds rfl
    simp [isLineEnd] at hc

/-- A line that is ended by CR LF. -/
theorem splitLines_line {l : List Char} (hl : OneLine l) (rest : List Char) :
    splitLines (l ++ '\r' :: '\n' :: rest) = l :: splitLines rest := by
  induction l with
  | nil => rw [List.nil_append, splitLines]
  | cons c l ih =>
    have hc : isLineEnd c = false := hl c List.mem_cons_self
    have hl' : OneLine l := fun d hd => hl d (List.mem_cons_of_mem _ hd)
    rw [List.cons_append, splitLines_cons hc, ih hl']
    rfl

/-- Lines that are each ended by CR LF are read back. -/
theorem splitLines_flatMap {ls : List (List Char)} (hls : ∀ l ∈ ls, OneLine l)
    (rest : List Char) :
    splitLines ((ls.flatMap fun l => l ++ ['\r', '\n']) ++ rest) = ls ++ splitLines rest := by
  induction ls with
  | nil => rfl
  | cons l ls ih =>
    have hl : OneLine l := hls l List.mem_cons_self
    have hls' : ∀ l ∈ ls, OneLine l := fun l' h => hls l' (List.mem_cons_of_mem _ h)
    simp only [List.flatMap_cons, List.append_assoc, List.cons_append, List.nil_append]
    rw [splitLines_line hl, ih hls']

theorem oneLine_of_mem_splitLines (s : List Char) : ∀ l ∈ splitLines s, OneLine l := by
  fun_induction splitLines s with
  | case1 => simp [OneLine]
  | case2 cs ih => simpa [OneLine] using ih
  | case3 c cs hne hc ih => simpa [OneLine] using ih
  | case4 c cs hne hc ih =>
    have hc' : isLineEnd c = false := by simpa using hc
    cases h : splitLines cs with
    | nil => simpa [consLine, OneLine] using hc'
    | cons l ls =>
      rw [h] at ih
      intro l' hl'
      rcases List.mem_cons.1 hl' with rfl | hl'
      · intro d hd
        rcases List.mem_cons.1 hd with rfl | hd
        · exact hc'
        · exact ih l List.mem_cons_self d hd
      · exact ih l' (List.mem_cons_of_mem _ hl')

/-! ### Parts of a line -/

/-- The parts of a request line. -/
def readTokens (l : List Char) : List (List Char) := l.splitOnP isTokenEnd

/-- The name and the value of a field line. -/
def readField (l : List Char) : List Char × List Char :=
  (l.takeWhile (· ≠ ':'), (l.dropWhile (· ≠ ':')).drop 2)

theorem oneToken_of_mem_readTokens (l : List Char) : ∀ p ∈ readTokens l, OneToken p := by
  unfold readTokens
  induction l with
  | nil => simp [OneToken]
  | cons c l ih =>
    rw [List.splitOnP_cons_eq_if_modifyHead]
    split_ifs with hc
    · simpa [OneToken] using ih
    · cases h : l.splitOnP isTokenEnd with
      | nil => exact absurd h (List.splitOnP_ne_nil _ _)
      | cons p ps =>
        rw [h] at ih
        intro q hq
        simp only [List.modifyHead_cons, List.mem_cons] at hq
        rcases hq with rfl | hq
        · intro d hd
          rcases List.mem_cons.1 hd with rfl | hd
          · simpa using hc
          · exact ih p List.mem_cons_self d hd
        · exact ih q (List.mem_cons_of_mem _ hq)

theorem readField_fieldLine {name value : List Char} (hn : ':' ∉ name) :
    readField (name ++ ':' :: ' ' :: value) = (name, value) := by
  have hall : ∀ c ∈ name, decide (c ≠ ':') = true := by
    intro c hc
    simp only [ne_eq, decide_eq_true_eq]
    rintro rfl
    exact hn hc
  have htake : (name ++ ':' :: ' ' :: value).takeWhile (· ≠ ':') = name := by
    rw [List.takeWhile_append_of_pos hall]
    simp
  have hdrop : (name ++ ':' :: ' ' :: value).dropWhile (· ≠ ':') = ':' :: ' ' :: value := by
    rw [List.dropWhile_append_of_pos hall]
    simp
  rw [readField, htake, hdrop]
  rfl

/-! ### Heads -/

/-- A head as it was read: the parts of the request line, and the fields. -/
structure ReadHead where
  tokens : List (List Char)
  fields : List (List Char × List Char)
  deriving DecidableEq

/-- Read the head of a request, up to the first empty line. -/
def readHead (s : List Char) : ReadHead :=
  match (splitLines s).takeWhile (· ≠ []) with
  | [] => ⟨[], []⟩
  | l :: ls => ⟨readTokens l, ls.map readField⟩

theorem oneToken_of_mem_tokens (s : List Char) : ∀ p ∈ (readHead s).tokens, OneToken p := by
  unfold readHead
  split
  · simp
  · exact oneToken_of_mem_readTokens _

theorem oneLine_of_mem_fields (s : List Char) : ∀ f ∈ (readHead s).fields, OneLine f.2 := by
  unfold readHead
  split
  · simp
  · rename_i l ls h
    intro f hf
    obtain ⟨l', hl', rfl⟩ := List.mem_map.1 hf
    have hmem : l' ∈ splitLines s :=
      (List.takeWhile_sublist _).subset (h ▸ List.mem_cons_of_mem _ hl')
    intro c hc
    exact oneLine_of_mem_splitLines s l' hmem c
      ((List.dropWhile_sublist _).subset (List.mem_of_mem_drop hc))

namespace HttpRequest

/-- The head that a request is meant to have. -/
def parts (r : HttpRequest) : ReadHead :=
  ⟨[r.method.text.toList, r.target.toList, "HTTP/1.1".toList],
    r.fields.map fun f => (f.1.toList, f.2.toList)⟩

/-- No field value contains a character that ends a line, and the target no white space. -/
def Clean (r : HttpRequest) : Prop :=
  OneToken r.target.toList ∧ ∀ f ∈ r.fields, OneLine f.2.toList

/-- The field names are names. -/
def FieldNames (r : HttpRequest) : Prop :=
  ∀ f ∈ r.fields, OneLine f.1.toList ∧ ':' ∉ f.1.toList

theorem requestLine_tokens {r : HttpRequest} (h : OneToken r.target.toList) :
    readTokens r.requestLine = r.parts.tokens := by
  have hmethod : OneToken r.method.text.toList := by
    cases r.method <;> decide
  have hversion : OneToken "HTTP/1.1".toList := by decide
  unfold readTokens requestLine
  rw [List.splitOnP_append_cons_of_forall_mem hmethod ' ' rfl,
    List.splitOnP_append_cons_of_forall_mem h ' ' rfl, List.splitOnP_eq_singleton hversion]
  rfl

theorem requestLine_oneLine {r : HttpRequest} (h : OneToken r.target.toList) :
    OneLine r.requestLine := by
  have hmethod : OneLine r.method.text.toList := by
    cases r.method <;> decide
  have hversion : OneLine "HTTP/1.1".toList := by decide
  have hspace : OneLine [' '] := by decide
  have h' := hmethod.append (hspace.append (h.oneLine.append (hspace.append hversion)))
  simpa [requestLine] using h'

/-- **Reading a head back.**  The head of a request reads as its own parts exactly if the request
is clean. -/
theorem readHead_head_iff {r : HttpRequest} (hn : r.FieldNames) :
    readHead r.head = r.parts ↔ r.Clean := by
  constructor
  · -- what was read back has no line end in it
    intro h
    refine ⟨oneToken_of_mem_tokens r.head _ ?_, fun f hf => ?_⟩
    · rw [h]
      simp [parts]
    · have hmem : (f.1.toList, f.2.toList) ∈ (readHead r.head).fields := by
        rw [h]
        exact List.mem_map_of_mem (f := fun f : String × String => (f.1.toList, f.2.toList)) hf
      exact oneLine_of_mem_fields r.head _ hmem
  · rintro ⟨htarget, hfields⟩
    -- no line of the head is split, and none ends it
    have hlines : ∀ l ∈ r.headLines, OneLine l ∧ l ≠ [] := by
      intro l hl
      rcases List.mem_cons.1 hl with rfl | hl
      · exact ⟨requestLine_oneLine htarget, by simp [requestLine]⟩
      · obtain ⟨f, hf, rfl⟩ := List.mem_map.1 hl
        refine ⟨(hn f hf).1.append ?_, by simp [fieldLine]⟩
        simpa [OneLine, isLineEnd] using hfields f hf
    have hsplit : splitLines r.head = r.headLines ++ [[], []] := by
      rw [head, splitLines_flatMap fun l hl => (hlines l hl).1]
      simp [splitLines]
    have htake : (splitLines r.head).takeWhile (· ≠ []) = r.headLines := by
      rw [hsplit, List.takeWhile_append_of_pos fun l hl => by simpa using (hlines l hl).2]
      simp
    have hread : (r.fields.map fieldLine).map readField = r.parts.fields := by
      rw [List.map_map]
      refine List.map_congr_left fun f hf => ?_
      exact readField_fieldLine (hn f hf).2
    simp only [readHead, htake, headLines, hread, requestLine_tokens htarget]

end HttpRequest

end MileRpc
