import MileRpc.Http.Head

/-!
# Reading a stream of requests

What a lenient server makes of the bytes of a connection.  It takes them one by one
(`Reader.step`): lines end as they do in `MileRpc.Http.Head`, an empty line ends the head of a
request, and as many bytes as the field `Content-Length` says are its body.  So it does not matter
in which pieces the bytes arrive.

## Main results

* `Reader.run_stream_iff` : a stream of requests reads back as just these requests, with their
  bodies, exactly if all of them are clean
* `Reader.run_read_first` : a part of such a stream reads as the first of these requests
-/

namespace MileRpc

/-- The head with these lines. -/
def ReadHead.ofLines : List (List Char) → ReadHead
  | [] => ⟨[], []⟩
  | l :: ls => ⟨readTokens l, ls.map readField⟩

/-- The number of bytes of the body; `none` if the field is not a number. -/
def ReadHead.contentLength (h : ReadHead) : Option ℕ :=
  match h.fields.lookup "Content-Length".toList with
  | none => some 0
  | some v =>
    if v ≠ [] ∧ v.all Char.isDigit then some (Nat.ofDigitChars 10 v 0) else none

/-- A request as it was read. -/
structure ReadRequest where
  head : ReadHead
  body : List Char
  deriving DecidableEq

/-- What a server is reading. -/
inductive ReadPhase where
  /-- A head, after these lines and this part of a line. -/
  | head (lines : List (List Char)) (line : List Char)
  /-- A body, after this part of it; `left + 1` bytes are missing. -/
  | body (head : ReadHead) (left : ℕ) (text : List Char)
  /-- Nothing any more: the length of a body is not a number. -/
  | broken
  deriving DecidableEq

/-- A server: the requests that it has read, what it is reading, and whether the last byte was a
CR that ended a line. -/
structure Reader where
  read : List ReadRequest
  phase : ReadPhase
  afterCr : Bool
  deriving DecidableEq

namespace Reader

/-- A server between two requests. -/
def idle (rs : List ReadRequest) : Reader := ⟨rs, .head [] [], false⟩

/-- The empty line after these lines. -/
def endHead (rs : List ReadRequest) (lines : List (List Char)) : Reader :=
  -- empty lines in front of a request are skipped
  if lines = [] then idle rs
  else match (ReadHead.ofLines lines).contentLength with
    | some 0 => idle (rs ++ [⟨.ofLines lines, []⟩])
    | some (n + 1) => ⟨rs, .body (.ofLines lines) n [], false⟩
    | none => ⟨rs, .broken, false⟩

/-- The end of a line. -/
def endLine (rs : List ReadRequest) (lines : List (List Char)) (line : List Char) : Reader :=
  if line = [] then endHead rs lines else ⟨rs, .head (lines ++ [line]) [], false⟩

/-- The next byte. -/
def step (q : Reader) (c : Char) : Reader :=
  -- the LF of a CR LF
  if q.afterCr ∧ c = '\n' then { q with afterCr := false }
  else match q.phase with
    | .head lines line =>
      if isLineEnd c then { endLine q.read lines line with afterCr := c == '\r' }
      else ⟨q.read, .head lines (line ++ [c]), false⟩
    | .body head 0 text => idle (q.read ++ [⟨head, text ++ [c]⟩])
    | .body head (n + 1) text => ⟨q.read, .body head n (text ++ [c]), false⟩
    | .broken => ⟨q.read, .broken, false⟩

/-- The next bytes. -/
def run (q : Reader) (cs : List Char) : Reader := cs.foldl step q

@[simp] theorem run_nil (q : Reader) : q.run [] = q := rfl

@[simp] theorem run_cons (q : Reader) (c : Char) (cs : List Char) :
    q.run (c :: cs) = (q.step c).run cs := rfl

/-- It does not matter where the bytes are cut. -/
theorem run_append (q : Reader) (cs ds : List Char) : q.run (cs ++ ds) = (q.run cs).run ds :=
  List.foldl_append

/-! ### Requests that are read back -/

variable (rs : List ReadRequest)

theorem run_part {l : List Char} (hl : OneLine l) (lines : List (List Char)) (part : List Char) :
    run ⟨rs, .head lines part, false⟩ l = ⟨rs, .head lines (part ++ l), false⟩ := by
  induction l generalizing part with
  | nil => simp
  | cons c l ih =>
    have hc : isLineEnd c = false := hl c List.mem_cons_self
    have hl' : OneLine l := fun d hd => hl d (List.mem_cons_of_mem _ hd)
    have hstep : step ⟨rs, .head lines part, false⟩ c = ⟨rs, .head lines (part ++ [c]), false⟩ := by
      simp [step, hc]
    rw [run_cons, hstep, ih hl', List.append_assoc, List.singleton_append]

theorem run_crlf (lines : List (List Char)) (line : List Char) :
    run ⟨rs, .head lines line, false⟩ ['\r', '\n'] =
      { endLine rs lines line with afterCr := false } := by
  simp [step, isLineEnd]

theorem run_lines {ls : List (List Char)} (hls : ∀ l ∈ ls, OneLine l ∧ l ≠ [])
    (lines : List (List Char)) :
    run ⟨rs, .head lines [], false⟩ (ls.flatMap fun l => l ++ ['\r', '\n']) =
      ⟨rs, .head (lines ++ ls) [], false⟩ := by
  induction ls generalizing lines with
  | nil => simp
  | cons l ls ih =>
    obtain ⟨hl, hne⟩ := hls l List.mem_cons_self
    have hls' : ∀ l ∈ ls, OneLine l ∧ l ≠ [] := fun l' h => hls l' (List.mem_cons_of_mem _ h)
    rw [List.flatMap_cons, run_append, run_append, run_part rs hl, run_crlf, List.nil_append,
      endLine, if_neg hne, ih hls', List.append_assoc, List.singleton_append]

theorem run_body (head : ReadHead) {b : List Char} {n : ℕ} (hb : b.length = n + 1)
    (text : List Char) :
    run ⟨rs, .body head n text, false⟩ b = idle (rs ++ [⟨head, text ++ b⟩]) := by
  induction b generalizing n text with
  | nil => cases hb
  | cons c b ih =>
    cases n with
    | zero =>
      obtain rfl : b = [] := List.eq_nil_of_length_eq_zero (by simpa using hb)
      simp [step]
    | succ n =>
      have hstep : step ⟨rs, .body head (n + 1) text, false⟩ c =
          ⟨rs, .body head n (text ++ [c]), false⟩ := by
        simp [step]
      have hb' : b.length = n + 1 := by simpa using hb
      rw [run_cons, hstep, ih hb', List.append_assoc, List.singleton_append]

end Reader

namespace HttpRequest

/-- The bytes of a request. -/
def wire (r : HttpRequest) : List Char := r.head ++ r.body.toList

/-- The request as it is meant to be read. -/
def reading (r : HttpRequest) : ReadRequest := ⟨r.parts, r.body.toList⟩

/-- The head announces the body. -/
def Framed (r : HttpRequest) : Prop := r.parts.contentLength = some r.body.length

theorem lookup_parts (r : HttpRequest) (name : String) :
    r.parts.fields.lookup name.toList = (r.field? name).map String.toList := by
  have key : ∀ fs : List (String × String),
      (fs.map fun f => (f.1.toList, f.2.toList)).lookup name.toList =
        (fs.lookup name).map String.toList := by
    intro fs
    induction fs with
    | nil => rfl
    | cons f fs ih =>
      obtain ⟨name', value⟩ := f
      simp only [List.map_cons, List.lookup_cons, ih]
      by_cases h : name = name'
      · simp [h]
      · have hname : (name == name') = false := by simpa using h
        have hlist : (name.toList == name'.toList) = false := by simpa [String.toList_inj] using h
        rw [hlist, hname]
  exact key r.fields

theorem headLines_clean {r : HttpRequest} (hn : r.FieldNames) (hc : r.Clean) :
    ∀ l ∈ r.headLines, OneLine l ∧ l ≠ [] := by
  intro l hl
  rcases List.mem_cons.1 hl with rfl | hl
  · exact ⟨requestLine_oneLine hc.1, by simp [requestLine]⟩
  · obtain ⟨f, hf, rfl⟩ := List.mem_map.1 hl
    refine ⟨(hn f hf).1.append ?_, by simp [fieldLine]⟩
    simpa [OneLine, isLineEnd] using hc.2 f hf

theorem ofLines_headLines {r : HttpRequest} (hn : r.FieldNames) (hc : r.Clean) :
    ReadHead.ofLines r.headLines = r.parts := by
  have hread : (r.fields.map fieldLine).map readField = r.parts.fields := by
    rw [List.map_map]
    exact List.map_congr_left fun f hf => readField_fieldLine (hn f hf).2
  simp only [headLines, ReadHead.ofLines, requestLine_tokens hc.1, hread]

/-- **A clean request is read back**, and leaves the server between two requests. -/
theorem run_wire {r : HttpRequest} (hn : r.FieldNames) (hf : r.Framed) (hc : r.Clean)
    (rs : List ReadRequest) : (Reader.idle rs).run r.wire = .idle (rs ++ [r.reading]) := by
  have hempty : Reader.endLine rs r.headLines [] = Reader.endHead rs r.headLines := if_pos rfl
  have hne : r.headLines ≠ [] := by simp [headLines]
  rw [wire, head, Reader.run_append, Reader.run_append, Reader.idle,
    Reader.run_lines rs (headLines_clean hn hc), Reader.run_crlf, List.nil_append, hempty,
    Reader.endHead, if_neg hne, ofLines_headLines hn hc, hf]
  -- an empty body is there at once
  cases hlen : r.body.length with
  | zero =>
    have hbody : r.body.toList = [] :=
      List.eq_nil_of_length_eq_zero (by rw [String.length_toList, hlen])
    simp [reading, hbody, Reader.idle]
  | succ n =>
    have hbody : r.body.toList.length = n + 1 := by rw [String.length_toList, hlen]
    simpa [reading] using Reader.run_body rs r.parts hbody []

end HttpRequest

namespace Reader

theorem run_stream {rs : List HttpRequest} (hn : ∀ r ∈ rs, r.FieldNames) (hf : ∀ r ∈ rs, r.Framed)
    (hc : ∀ r ∈ rs, r.Clean) (before : List ReadRequest) :
    (idle before).run (rs.flatMap HttpRequest.wire) =
      idle (before ++ rs.map HttpRequest.reading) := by
  induction rs generalizing before with
  | nil => simp
  | cons r rs ih =>
    have ih := ih (fun r' h => hn r' (List.mem_cons_of_mem _ h))
      (fun r' h => hf r' (List.mem_cons_of_mem _ h)) fun r' h => hc r' (List.mem_cons_of_mem _ h)
    have hr := HttpRequest.run_wire (hn r List.mem_cons_self) (hf r List.mem_cons_self)
      (hc r List.mem_cons_self) before
    rw [List.flatMap_cons, run_append, hr, ih, List.append_assoc, List.map_cons,
      List.singleton_append]

/-! ### What a server has read is never taken back -/

theorem endHead_extends (rs : List ReadRequest) (lines : List (List Char)) :
    rs <+: (endHead rs lines).read := by
  unfold endHead
  split
  · exact List.prefix_refl rs
  · split
    · exact List.prefix_append rs _
    · exact List.prefix_refl rs
    · exact List.prefix_refl rs

theorem step_extends (q : Reader) (c : Char) : q.read <+: (q.step c).read := by
  unfold step
  split
  · exact List.prefix_refl q.read
  · split
    · split
      · unfold endLine
        split
        · exact endHead_extends _ _
        · exact List.prefix_refl q.read
      · exact List.prefix_refl q.read
    · exact List.prefix_append q.read _
    · exact List.prefix_refl q.read
    · exact List.prefix_refl q.read

theorem run_extends (q : Reader) (cs : List Char) : q.read <+: (q.run cs).read := by
  induction cs generalizing q with
  | nil => exact List.prefix_refl q.read
  | cons c cs ih => exact (step_extends q c).trans (ih (q.step c))

/-- **A part of a stream** of clean requests reads as the first of them. -/
theorem run_read_first {rs : List HttpRequest} (hn : ∀ r ∈ rs, r.FieldNames)
    (hf : ∀ r ∈ rs, r.Framed) (hc : ∀ r ∈ rs, r.Clean) {b : List Char}
    (hb : b <+: rs.flatMap HttpRequest.wire) :
    ((idle []).run b).read <+: rs.map HttpRequest.reading := by
  obtain ⟨rest, hrest⟩ := hb
  have hwhole := run_stream hn hf hc []
  rw [← hrest, run_append] at hwhole
  have hmore := run_extends ((idle []).run b) rest
  rwa [hwhole] at hmore

/-! ### What a server can read -/

/-- No part of the head ends a line. -/
def Unbroken (r : ReadRequest) : Prop :=
  (∀ p ∈ r.head.tokens, OneToken p) ∧ ∀ f ∈ r.head.fields, OneLine f.2

/-- The lines of the head that is being read are lines. -/
def Tidy : ReadPhase → Prop
  | .head lines line => (∀ l ∈ lines, OneLine l) ∧ OneLine line
  | .body head _ text => Unbroken ⟨head, text⟩
  | .broken => True

/-- What holds of a server, whatever it reads. -/
structure Sound (q : Reader) : Prop where
  read : ∀ r ∈ q.read, Unbroken r
  phase : Tidy q.phase

theorem unbroken_ofLines {lines : List (List Char)} (h : ∀ l ∈ lines, OneLine l)
    (body : List Char) : Unbroken ⟨.ofLines lines, body⟩ := by
  cases lines with
  | nil => exact ⟨by simp [ReadHead.ofLines], by simp [ReadHead.ofLines]⟩
  | cons l ls =>
    refine ⟨oneToken_of_mem_readTokens l, fun f hf => ?_⟩
    obtain ⟨l', hl', rfl⟩ := List.mem_map.1 hf
    intro c hc
    exact h l' (List.mem_cons_of_mem _ hl') c
      ((List.dropWhile_sublist _).subset (List.mem_of_mem_drop hc))

theorem Sound.idle {rs : List ReadRequest} (h : ∀ r ∈ rs, Unbroken r) : Sound (idle rs) :=
  ⟨h, by simp [Tidy, Reader.idle, OneLine]⟩

theorem Sound.snoc {rs : List ReadRequest} (h : ∀ r ∈ rs, Unbroken r) {r : ReadRequest}
    (hr : Unbroken r) : Sound (.idle (rs ++ [r])) := by
  refine .idle fun r' hr' => ?_
  rcases List.mem_append.1 hr' with hr' | hr'
  · exact h r' hr'
  · exact List.eq_of_mem_singleton hr' ▸ hr

theorem Sound.endHead {rs : List ReadRequest} (h : ∀ r ∈ rs, Unbroken r)
    {lines : List (List Char)} (hl : ∀ l ∈ lines, OneLine l) : Sound (endHead rs lines) := by
  unfold Reader.endHead
  split
  · exact .idle h
  · split
    · exact .snoc h (unbroken_ofLines hl [])
    · exact ⟨h, unbroken_ofLines hl []⟩
    · exact ⟨h, trivial⟩

theorem Sound.step {q : Reader} (hq : Sound q) (c : Char) : Sound (q.step c) := by
  obtain ⟨rs, phase, cr⟩ := q
  obtain ⟨hread, hphase⟩ := hq
  unfold Reader.step
  split
  · exact ⟨hread, hphase⟩
  · cases phase with
    | head lines line =>
      obtain ⟨hlines, hline⟩ := hphase
      by_cases hc : isLineEnd c = true
      · have hend : Sound (endLine rs lines line) := by
          unfold endLine
          split
          · exact .endHead hread hlines
          · refine ⟨hread, fun l hl => ?_, by simp [OneLine]⟩
            rcases List.mem_append.1 hl with hl | hl
            · exact hlines l hl
            · exact List.eq_of_mem_singleton hl ▸ hline
        simpa [hc] using (⟨hend.read, hend.phase⟩ : Sound { endLine rs lines line with
          afterCr := c == '\r' })
      · have hpart : OneLine (line ++ [c]) := hline.append (by simpa [OneLine] using hc)
        simpa [hc] using (⟨hread, hlines, hpart⟩ : Sound ⟨rs, .head lines (line ++ [c]), false⟩)
    | body head left text =>
      cases left with
      | zero => exact .snoc hread hphase
      | succ n => exact ⟨hread, hphase⟩
    | broken => exact ⟨hread, trivial⟩

theorem Sound.run {q : Reader} (hq : Sound q) (cs : List Char) : Sound (q.run cs) := by
  induction cs generalizing q with
  | nil => exact hq
  | cons c cs ih => exact ih (hq.step c)

/-- **Streams are read back exactly if they are clean.**  A stream of requests, each with a head
that announces its body, reads as these requests and nothing else exactly if all of them are
clean, whatever bytes the bodies have. -/
theorem run_stream_iff {rs : List HttpRequest} (hn : ∀ r ∈ rs, r.FieldNames)
    (hf : ∀ r ∈ rs, r.Framed) :
    (idle []).run (rs.flatMap HttpRequest.wire) = idle (rs.map HttpRequest.reading) ↔
      ∀ r ∈ rs, r.Clean := by
  constructor
  · intro h r hr
    -- what a server has read has no line end in it
    have hsound : Sound ((idle []).run (rs.flatMap HttpRequest.wire)) :=
      (Sound.idle (by simp)).run _
    rw [h] at hsound
    obtain ⟨htokens, hfields⟩ := hsound.read r.reading (List.mem_map_of_mem hr)
    refine ⟨htokens _ (by simp [HttpRequest.reading, HttpRequest.parts]), fun f hf' => ?_⟩
    exact hfields _ (List.mem_map_of_mem (f := fun f : String × String => (f.1.toList, f.2.toList))
      hf')
  · exact fun hc => run_stream hn hf hc []

end Reader

end MileRpc
