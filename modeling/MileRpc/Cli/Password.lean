import MileRpc.Cli.Tools

/-!
# The key prompt

`getpasswd`, by which `mile_cli_transfer` reads a private key from its terminal.

The index `idx` of the function bounds its loop, is the place of its backspace and is what it
returns, but no branch increments it.  So a line is read to its end, whatever its length; deletes
are ignored; and the result is 0 (`readLoop_line`).  The function keeps its contract only where
this makes no difference (`getpasswd_isLine_iff`).

`Transfer.mainAt` is `main` at a terminal, with what the prompt writes: an asterisk for a character
(`isPrompt_of_mem`), which shows how long the key is, and nothing else of it.
-/

namespace MileRpc

namespace Cli

/-- The character of the delete key. -/
def del : Char := '\x7f'

/-! ### The contract -/

/-- The line that is typed, after `kept`, if at most `n` characters are kept, and what is left of
the input: a delete removes the last character, and reading stops at a character too many. -/
def typeLine (n : ℕ) : List Char → List Char → List Char × List Char
  | kept, [] => (kept, [])
  | kept, c :: cs =>
    if c = '\n' then (kept, cs)
    else if c = del then typeLine n kept.dropLast cs
    else if kept.length < n then typeLine n (kept ++ [c]) cs
    else (kept, cs)

theorem typeLine_length_le {n : ℕ} {kept : List Char} (h : kept.length ≤ n) (input : List Char) :
    (typeLine n kept input).1.length ≤ n := by
  induction input generalizing kept with
  | nil => exact h
  | cons c cs ih =>
    rw [typeLine]
    split_ifs with h₁ h₂ h₃
    · exact h
    · exact ih (by rw [List.length_dropLast]; omega)
    · exact ih (by rw [List.length_append]; exact h₃)
    · exact h

/-- The characters before the end of the line. -/
def line (input : List Char) : List Char := input.takeWhile (· ≠ '\n')

/-- The characters after the end of the line. -/
def afterLine (input : List Char) : List Char := (input.dropWhile (· ≠ '\n')).tail

theorem typeLine_of_del {n : ℕ} {input : List Char} (h : ∀ c ∈ line input, c = del) :
    typeLine n [] input = ([], afterLine input) := by
  induction input with
  | nil => rfl
  | cons c cs ih =>
    by_cases hc : c = '\n'
    · simp [typeLine, afterLine, hc]
    · have hline : line (c :: cs) = c :: line cs := by simp [line, hc]
      rw [hline, List.forall_mem_cons] at h
      have hrest : afterLine (c :: cs) = afterLine cs := by simp [afterLine, hc]
      rw [hrest, ← ih h.2, typeLine, if_neg hc, if_pos h.1, List.dropLast_nil]

theorem typeLine_zero (input : List Char) :
    typeLine 0 [] input = ([], (input.dropWhile (· = del)).tail) := by
  induction input with
  | nil => rfl
  | cons c cs ih =>
    by_cases hc : c = del
    · have hne : del ≠ '\n' := by decide
      simp [typeLine, hc, hne, ih]
    · simp [typeLine, hc]

/-! ### The terminal -/

/-- The settings of a terminal that `getpasswd` changes. -/
structure Termios where
  icanon : Bool
  echo : Bool
  vtime : UInt8
  vmin : UInt8
  deriving DecidableEq

/-- The settings while a key is read. -/
def Termios.quiet (old : Termios) : Termios :=
  { old with icanon := false, echo := false, vtime := 0, vmin := 1 }

/-- A terminal: its settings, and whether the three calls on them succeed. -/
structure Terminal where
  mode : Termios
  /-- `tcgetattr` succeeds. -/
  reads : Bool
  /-- The first `tcsetattr` succeeds. -/
  changes : Bool
  /-- The second `tcsetattr` succeeds. -/
  resets : Bool

/-- Every call on the terminal succeeds. -/
structure Terminal.Works (tty : Terminal) : Prop where
  reads : tty.reads = true
  changes : tty.changes = true
  resets : tty.resets = true

/-! ### The loop -/

/-- The variables of the loop, and what it wrote to `stdout`. -/
structure Typing where
  pw : List Char
  idx : UInt64
  out : List Char

/-- What the loop leaves behind: its variables, the last character that was read (none at the end
of the input) and the rest of the input. -/
structure Stopped where
  typing : Typing
  last : Option Char
  rest : List Char

/-- What is written for a key: nothing, unless the mask is printable. -/
def masked (mask : ℤ) (text : List Char) : List Char :=
  if 31 < mask && mask < 127 then text else []

/-- The body of the loop. -/
def Typing.key (mask : ℤ) (k : Typing) (c : Char) : Typing :=
  if c ≠ del then
    { k with
      pw := k.pw ++ [c]
      out := k.out ++ masked mask [Char.ofNat mask.toNat] }
  else if k.idx > 0 then
    { pw := k.pw.set (k.idx - 1).toNat '\x00'
      idx := k.idx - 1
      out := k.out ++ masked mask ['\x08', ' ', '\x08'] }
  else k

/-- The condition of the loop. -/
def goesOn (sz idx : UInt64) (c : Char) : Bool :=
  (c ≠ '\n' && idx < sz - 1) || (idx = sz - 1 && c = del)

/-- The loop. -/
def readLoop (sz : UInt64) (mask : ℤ) : Typing → List Char → Stopped
  | k, [] => ⟨k, none, []⟩
  | k, c :: cs => if goesOn sz k.idx c then readLoop sz mask (k.key mask c) cs else ⟨k, some c, cs⟩

/-- `if (sz > MAXPW) sz = MAXPW` -/
def capSize (maxpw sz : UInt64) : UInt64 := if sz > maxpw then maxpw else sz

/-- What a call of `getpasswd` leaves behind. -/
structure Entry where
  result : ℤ
  pw : List Char
  fp : Option (List Char)
  out : List Char
  err : List String
  mode : Termios

/-- `getpasswd(pw, sz, mask, fp)`, where `maxpw` is `MAXPW`. -/
def getpasswd (maxpw : UInt64) (tty : Terminal) (pw : List Char) (sz : UInt64) (mask : ℤ)
    (fp : Option (List Char)) : Entry :=
  match fp with
  | none => ⟨-1, pw, fp, [], [], tty.mode⟩
  | some input =>
    if sz = 0 then ⟨-1, pw, fp, [], [], tty.mode⟩
    else
      let sz := capSize maxpw sz
      if !tty.reads then ⟨-1, [], fp, [], ["getpasswd() error: tcgetattr failed.\n"], tty.mode⟩
      else if !tty.changes then
        ⟨-1, [], fp, [], ["getpasswd() error: tcsetattr failed.\n"], tty.mode⟩
      else
        let r := readLoop sz mask ⟨[], 0, []⟩ input
        if !tty.resets then
          ⟨-1, r.typing.pw, some r.rest, r.typing.out, ["getpasswd() error: tcsetattr failed.\n"],
            tty.mode.quiet⟩
        else
          let warning := if r.typing.idx = sz - 1 ∧ r.last ≠ some '\n' then
              [" (getpasswd() warning: truncated at " ++ toString (sz - 1).toNat ++ " chars.)\n"]
            else []
          ⟨r.typing.idx.toNat, r.typing.pw, some r.rest, r.typing.out, warning, tty.mode⟩

theorem getpasswd_mode {maxpw sz : UInt64} {tty : Terminal} (h : tty.resets = true)
    (pw : List Char) (mask : ℤ) (fp : Option (List Char)) :
    (getpasswd maxpw tty pw sz mask fp).mode = tty.mode := by
  unfold getpasswd
  cases fp with
  | none => rfl
  | some input =>
    dsimp only
    split_ifs <;> simp_all

section Loop

variable {sz : UInt64} {k : Typing} (mask : ℤ)

theorem Typing.key_idx (h : k.idx = 0) (c : Char) : (k.key mask c).idx = 0 := by
  have hpos : ¬ k.idx > 0 := by simp [h]
  unfold Typing.key
  split_ifs
  · exact h
  · exact h

theorem Typing.key_pw (h : k.idx = 0) (c : Char) :
    (k.key mask c).pw = k.pw ++ [c].filter (· ≠ del) := by
  have hpos : ¬ k.idx > 0 := by simp [h]
  unfold Typing.key
  split_ifs with hc
  · simp [hc]
  · simp [not_not.1 hc]

theorem Typing.key_del (h : k.idx = 0) : k.key mask del = k := by
  have hpos : ¬ k.idx > 0 := by simp [h]
  rw [Typing.key, if_neg (not_not.2 rfl), if_neg hpos]

/-- **What the loop reads** if more than one character fits: the whole line without its deletes. -/
theorem readLoop_line (hsz : 0 < sz - 1) (h : k.idx = 0) (input : List Char) :
    (readLoop sz mask k input).typing.pw = k.pw ++ (line input).filter (· ≠ del) ∧
      (readLoop sz mask k input).typing.idx = 0 ∧
      (readLoop sz mask k input).rest = afterLine input := by
  induction input generalizing k with
  | nil => simp [readLoop, line, afterLine, h]
  | cons c cs ih =>
    have hne : (0 : UInt64) ≠ sz - 1 := fun he => by simp [← he] at hsz
    by_cases hc : c = '\n'
    · have hstop : ¬ goesOn sz k.idx c = true := by simp [goesOn, h, hc, hne]
      rw [readLoop, if_neg hstop]
      exact ⟨by simp [line, hc], h, by simp [afterLine, hc]⟩
    · have hgo : goesOn sz k.idx c = true := by simp [goesOn, h, hc, hsz]
      obtain ⟨hpw, hidx, hrest⟩ := ih (Typing.key_idx mask h c)
      rw [readLoop, if_pos hgo, hpw, hidx, hrest, Typing.key_pw mask h, List.append_assoc,
        ← List.filter_append]
      simp [line, afterLine, hc]

/-- If not even one character fits, the loop reads over the deletes before the first character. -/
theorem readLoop_deletes (hsz : sz - 1 = 0) (h : k.idx = 0) (input : List Char) :
    (readLoop sz mask k input).typing = k ∧
      (readLoop sz mask k input).rest = (input.dropWhile (· = del)).tail := by
  induction input with
  | nil => exact ⟨rfl, rfl⟩
  | cons c cs ih =>
    by_cases hc : c = del
    · have hgo : goesOn sz k.idx c = true := by simp [goesOn, hsz, h, hc]
      rw [readLoop, if_pos hgo, hc, Typing.key_del mask h, ih.1, ih.2]
      simp
    · have hstop : ¬ goesOn sz k.idx c = true := by simp [goesOn, hsz, h, hc]
      rw [readLoop, if_neg hstop]
      exact ⟨rfl, by simp [hc]⟩

end Loop

/-! ### The contract and the function -/

/-- The number of characters that a buffer of this size may hold. -/
def keptMax (maxpw sz : UInt64) : ℕ := min sz.toNat maxpw.toNat - 1

/-- The contract: the line is left in `pw`, at most `n` characters of it are kept, and their number
is returned. -/
structure IsLine (n : ℕ) (input : List Char) (e : Entry) : Prop where
  pw : e.pw = (typeLine n [] input).1
  rest : e.fp = some (typeLine n [] input).2
  bounded : e.pw.length ≤ n
  result : e.result = e.pw.length

section Contract

variable {maxpw sz : UInt64} {tty : Terminal}

theorem toNat_capSize_sub_one (hmax : 0 < maxpw) (hsz : 0 < sz) :
    (capSize maxpw sz - 1).toNat = keptMax maxpw sz := by
  have hcap : (capSize maxpw sz).toNat = min sz.toNat maxpw.toNat := by
    unfold capSize
    split_ifs with h
    · rw [gt_iff_lt, UInt64.lt_iff_toNat_lt] at h
      omega
    · rw [gt_iff_lt, UInt64.lt_iff_toNat_lt] at h
      omega
  rw [UInt64.lt_iff_toNat_lt, UInt64.toNat_zero] at hmax hsz
  have hone : (1 : UInt64) ≤ capSize maxpw sz := by
    rw [UInt64.le_iff_toNat_le, UInt64.toNat_one]
    omega
  rw [UInt64.toNat_sub_of_le _ _ hone, UInt64.toNat_one, hcap, keptMax]

theorem getpasswd_of_works (hsz : 0 < sz) (htty : tty.Works) (maxpw : UInt64) (mask : ℤ)
    (pw input : List Char) :
    (getpasswd maxpw tty pw sz mask (some input)).pw =
        (readLoop (capSize maxpw sz) mask ⟨[], 0, []⟩ input).typing.pw ∧
      (getpasswd maxpw tty pw sz mask (some input)).result =
        (readLoop (capSize maxpw sz) mask ⟨[], 0, []⟩ input).typing.idx.toNat ∧
      (getpasswd maxpw tty pw sz mask (some input)).fp =
        some (readLoop (capSize maxpw sz) mask ⟨[], 0, []⟩ input).rest := by
  have hne : sz ≠ 0 := fun h => by simp [h] at hsz
  simp [getpasswd, capSize, hne, htty.reads, htty.changes, htty.resets]

/-- The bound of the contract follows from the rest of it. -/
theorem isLine_of_typeLine {n : ℕ} {input : List Char} {e : Entry}
    (hpw : e.pw = (typeLine n [] input).1) (hrest : e.fp = some (typeLine n [] input).2)
    (hresult : e.result = e.pw.length) : IsLine n input e where
  pw := hpw
  rest := hrest
  bounded := by
    rw [hpw]
    exact typeLine_length_le (Nat.zero_le n) input
  result := hresult

theorem getpasswd_of_keptMax_eq_zero (hmax : 0 < maxpw) (hsz : 0 < sz) (htty : tty.Works)
    (hn : keptMax maxpw sz = 0) (mask : ℤ) (pw input : List Char) :
    (getpasswd maxpw tty pw sz mask (some input)).pw = [] ∧
      (getpasswd maxpw tty pw sz mask (some input)).result = 0 ∧
      (getpasswd maxpw tty pw sz mask (some input)).fp =
        some (input.dropWhile (· = del)).tail := by
  obtain ⟨hpw, hresult, hfp⟩ := getpasswd_of_works hsz htty maxpw mask pw input
  have hzero : capSize maxpw sz - 1 = 0 := by
    rw [← UInt64.toNat_inj, toNat_capSize_sub_one hmax hsz, hn, UInt64.toNat_zero]
  obtain ⟨htyping, hrest⟩ := readLoop_deletes mask (k := ⟨[], 0, []⟩) hzero rfl input
  rw [htyping] at hpw hresult
  rw [hrest] at hfp
  exact ⟨hpw, hresult, hfp⟩

theorem getpasswd_of_keptMax_pos (hmax : 0 < maxpw) (hsz : 0 < sz) (htty : tty.Works)
    (hn : 0 < keptMax maxpw sz) (mask : ℤ) (pw input : List Char) :
    (getpasswd maxpw tty pw sz mask (some input)).pw = (line input).filter (· ≠ del) ∧
      (getpasswd maxpw tty pw sz mask (some input)).result = 0 ∧
      (getpasswd maxpw tty pw sz mask (some input)).fp = some (afterLine input) := by
  obtain ⟨hpw, hresult, hfp⟩ := getpasswd_of_works hsz htty maxpw mask pw input
  have hpos : 0 < capSize maxpw sz - 1 := by
    rw [UInt64.lt_iff_toNat_lt, toNat_capSize_sub_one hmax hsz, UInt64.toNat_zero]
    exact hn
  obtain ⟨hline, hidx, hrest⟩ := readLoop_line mask (k := ⟨[], 0, []⟩) hpos rfl input
  rw [hline, List.nil_append] at hpw
  rw [hidx] at hresult
  rw [hrest] at hfp
  exact ⟨hpw, hresult, hfp⟩

/-- **When `getpasswd` keeps its contract.**  It does if it may keep no character, and else exactly
if nothing but deletes is typed before the end of the line. -/
theorem getpasswd_isLine_iff (hmax : 0 < maxpw) (hsz : 0 < sz) (htty : tty.Works) (mask : ℤ)
    (pw input : List Char) :
    IsLine (keptMax maxpw sz) input (getpasswd maxpw tty pw sz mask (some input)) ↔
      keptMax maxpw sz = 0 ∨ ∀ c ∈ line input, c = del := by
  rcases Nat.eq_zero_or_pos (keptMax maxpw sz) with hn | hn
  · obtain ⟨hpw, hresult, hfp⟩ := getpasswd_of_keptMax_eq_zero hmax hsz htty hn mask pw input
    refine iff_of_true ?_ (.inl hn)
    rw [hn]
    exact isLine_of_typeLine (by rw [hpw, typeLine_zero]) (by rw [hfp, typeLine_zero])
      (by rw [hresult, hpw]; rfl)
  · obtain ⟨hpw, hresult, hfp⟩ := getpasswd_of_keptMax_pos hmax hsz htty hn mask pw input
    constructor
    · -- the result is 0, so that nothing was kept
      intro h
      have hlength := h.result
      rw [hresult, hpw, eq_comm, Nat.cast_eq_zero, List.length_eq_zero_iff,
        List.filter_eq_nil_iff] at hlength
      exact .inr fun c hc => by simpa using hlength c hc
    · intro h
      have hdel := h.resolve_left hn.ne'
      have hnil : (line input).filter (· ≠ del) = [] :=
        List.filter_eq_nil_iff.2 fun c hc => by simp [hdel c hc]
      rw [hnil] at hpw
      exact isLine_of_typeLine (by rw [hpw, typeLine_of_del hdel])
        (by rw [hfp, typeLine_of_del hdel]) (by rw [hresult, hpw]; rfl)

/-- A terminal on which every call succeeds. -/
def console : Terminal := ⟨⟨true, true, 0, 1⟩, true, true, true⟩

theorem console_works : console.Works := ⟨rfl, rfl, rfl⟩

/-- A key of one character. -/
theorem getpasswd_isLine_iff_console :
    IsLine (keptMax 64 64) ['k', '\n'] (getpasswd 64 console [] 64 42 (some ['k', '\n'])) ↔
      keptMax 64 64 = 0 ∨ ∀ c ∈ line ['k', '\n'], c = del :=
  getpasswd_isLine_iff (by decide) (by decide) console_works 42 [] ['k', '\n']

/-- The function returns 0 for it. -/
theorem getpasswd_isLine_fails :
    ¬ ∀ (maxpw sz : UInt64) (tty : Terminal) (mask : ℤ) (pw input : List Char), 0 < maxpw →
      0 < sz → tty.Works →
      IsLine (keptMax maxpw sz) input (getpasswd maxpw tty pw sz mask (some input)) := by
  intro h
  have hresult := (h 64 64 console 42 [] ['k', '\n'] (by decide) (by decide) console_works).result
  revert hresult
  decide

end Contract

/-! ### The key of a transfer -/

/-- The tries of `main` to read a private key, of which `pw` is the last one. -/
def enterKey (api : Api) (maxpw : UInt64) (tty : Terminal) :
    ℕ → List Char → List Char → Option String
  | 0, _, _ => none
  | tries + 1, pw, input =>
    let e := getpasswd maxpw tty pw maxpw '*'.toNat (some input)
    let key := String.ofList e.pw
    if api.validatePrivateKey key then some key
    else enterKey api maxpw tty tries e.pw (e.fp.getD [])

/-- The lines of the input without their deletes. -/
def typedLines : ℕ → List Char → List String
  | 0, _ => []
  | n + 1, input =>
    String.ofList ((line input).filter (· ≠ del)) :: typedLines n (afterLine input)

theorem enterKey_eq {api : Api} {maxpw : UInt64} {tty : Terminal} (hmax : 1 < maxpw)
    (htty : tty.Works) (tries : ℕ) (pw input : List Char) :
    enterKey api maxpw tty tries pw input =
      (typedLines tries input).find? api.validatePrivateKey := by
  induction tries generalizing pw input with
  | zero => rfl
  | succ tries ih =>
    have hsz : 0 < maxpw := by
      rw [UInt64.lt_iff_toNat_lt] at hmax ⊢
      exact Nat.zero_lt_of_lt hmax
    have hn : 0 < keptMax maxpw maxpw := by
      rw [UInt64.lt_iff_toNat_lt, UInt64.toNat_one] at hmax
      rw [keptMax]
      omega
    obtain ⟨hpw, -, hfp⟩ := getpasswd_of_keptMax_pos hsz hsz htty hn '*'.toNat pw input
    rw [enterKey, typedLines, List.find?_cons, hpw, hfp, ih]
    cases api.validatePrivateKey (String.ofList ((line input).filter (· ≠ del))) <;> rfl

/-- **The key that is typed** at a working terminal, if more than one character fits, is the first
of three lines that is valid. -/
theorem Transfer.chooseKey_typed {api : Api} {opts : Transfer.Options} {maxpw : UInt64}
    {tty : Terminal} (hmax : 1 < maxpw) (htty : tty.Works) (hkey : opts.privateKey = "")
    (input : List Char) :
    Transfer.chooseKey api opts (typedLines 3 input) = enterKey api maxpw tty 3 [] input := by
  have htake : (typedLines 3 input).take 3 = typedLines 3 input := rfl
  rw [enterKey_eq hmax htty, Transfer.chooseKey, if_pos hkey, htake]

/-! ### The prompt -/

/-- The calls of `getpasswd` in `main`, of which `pw` is the key before, if none reads a valid
one. -/
def keyEntries (maxpw : UInt64) (tty : Terminal) : ℕ → List Char → List Char → List Entry
  | 0, _, _ => []
  | tries + 1, pw, input =>
    let e := getpasswd maxpw tty pw maxpw '*'.toNat (some input)
    e :: keyEntries maxpw tty tries e.pw (e.fp.getD [])

/-- The key that a call has read. -/
def Entry.key (e : Entry) : String := String.ofList e.pw

/-- What is written while a key is read by these calls: nothing more after a valid one. -/
def promptEvents (api : Api) : List Entry → List Event
  | [] => []
  | e :: es =>
    .cout "Enter wallet private key: " :: .cout (String.ofList e.out) :: e.err.map .cerr ++
      if api.validatePrivateKey e.key then [.cout "\n"]
      else .cout "\nPrivate key is not valid\n" :: promptEvents api es

theorem promptEvents_cases {api : Api} {es : List Entry} {e : Event} (h : e ∈ promptEvents api es) :
    (∃ text, e = .cout text) ∨ ∃ text, e = .cerr text := by
  induction es with
  | nil => cases h
  | cons entry es ih =>
    simp only [promptEvents, List.cons_append, List.mem_cons, List.mem_append, List.mem_map] at h
    rcases h with rfl | rfl | ⟨text, -, rfl⟩ | h
    · exact .inl ⟨_, rfl⟩
    · exact .inl ⟨_, rfl⟩
    · exact .inr ⟨text, rfl⟩
    · split_ifs at h
      · exact .inl ⟨_, List.mem_singleton.1 h⟩
      · rcases List.mem_cons.1 h with rfl | h
        · exact .inl ⟨_, rfl⟩
        · exact ih h

/-- The key that the calls read is the one that `main` takes. -/
theorem find?_keyEntries (api : Api) (maxpw : UInt64) (tty : Terminal) (tries : ℕ)
    (pw input : List Char) :
    ((keyEntries maxpw tty tries pw input).map Entry.key).find? api.validatePrivateKey =
      enterKey api maxpw tty tries pw input := by
  induction tries generalizing pw input with
  | zero => rfl
  | succ tries ih =>
    rw [keyEntries, enterKey, List.map_cons, List.find?_cons, Entry.key, ih]
    split <;> simp_all

/-- What the prompt may write: its text, asterisks, and how a try ends. -/
def IsPrompt (text : String) : Prop :=
  text = "Enter wallet private key: " ∨ (∀ c ∈ text.toList, c = '*') ∨ text = "\n" ∨
    text = "\nPrivate key is not valid\n"

theorem Typing.key_out {k : Typing} (h : k.idx = 0) (hout : ∀ c ∈ k.out, c = '*') (c : Char) :
    ∀ x ∈ (k.key '*'.toNat c).out, x = '*' := by
  have hpos : ¬ k.idx > 0 := by simp [h]
  unfold Typing.key
  split_ifs
  · simpa [masked, or_imp, forall_and] using hout
  · exact hout

theorem readLoop_out (sz : UInt64) (input : List Char) :
    ∀ {k : Typing}, k.idx = 0 → (∀ c ∈ k.out, c = '*') →
      ∀ c ∈ (readLoop sz '*'.toNat k input).typing.out, c = '*' := by
  induction input with
  | nil => exact fun _ hout => hout
  | cons c cs ih =>
    intro k hk hout
    rw [readLoop]
    split_ifs
    · exact ih (Typing.key_idx _ hk c) (Typing.key_out hk hout c)
    · exact hout

theorem getpasswd_out (maxpw : UInt64) (tty : Terminal) (pw : List Char) (sz : UInt64)
    (fp : Option (List Char)) : ∀ c ∈ (getpasswd maxpw tty pw sz '*'.toNat fp).out, c = '*' := by
  unfold getpasswd
  cases fp with
  | none => simp
  | some input =>
    have hloop := readLoop_out (capSize maxpw sz) input (k := ⟨[], 0, []⟩) rfl (by simp)
    dsimp only
    split_ifs
    · simp
    · simp
    · simp
    · exact hloop
    · exact hloop
    · exact hloop

/-- **The prompt does not tell the key.** -/
theorem isPrompt_of_mem (api : Api) (maxpw : UInt64) (tty : Terminal) (tries : ℕ)
    (pw input : List Char) {text : String}
    (h : .cout text ∈ promptEvents api (keyEntries maxpw tty tries pw input)) : IsPrompt text := by
  induction tries generalizing pw input with
  | zero => simp [keyEntries, promptEvents] at h
  | succ tries ih =>
    have hmask := getpasswd_out maxpw tty pw maxpw (some input)
    have herr : ∀ err : List String, Event.cout text ∉ err.map .cerr := by simp
    simp only [keyEntries, promptEvents, List.cons_append, List.mem_cons, List.mem_append, herr,
      false_or, Event.cout.injEq] at h
    rcases h with rfl | rfl | h
    · exact .inl rfl
    · exact .inr (.inl (by simpa using hmask))
    · split_ifs at h with hvalid
      · exact .inr (.inr (.inl (by simpa using h)))
      · rcases List.mem_cons.1 h with h | h
        · exact .inr (.inr (.inr (Event.cout.inj h)))
        · exact ih _ _ h

namespace Transfer

/-- The keys that are typed at a terminal. -/
def typedAt (maxpw : UInt64) (tty : Terminal) (input : List Char) : List String :=
  (keyEntries maxpw tty 3 [] input).map Entry.key

/-- `main` at a terminal, with what is written while the key is read. -/
def mainAt {ν : Type} (env : Env ν) (api : Api) (opts : Options) (maxpw : UInt64) (tty : Terminal)
    (input : List Char) (fuel : ℕ) : M ν Unit := do
  if opts.privateKey = "" then
    Prog.each Prog.emit (promptEvents api (keyEntries maxpw tty 3 [] input))
  main env api opts (typedAt maxpw tty input) fuel

/-- It takes the key that is typed. -/
theorem chooseKey_typedAt {api : Api} {opts : Options} (hkey : opts.privateKey = "")
    (maxpw : UInt64) (tty : Terminal) (input : List Char) :
    chooseKey api opts (typedAt maxpw tty input) = enterKey api maxpw tty 3 [] input := by
  have htake : (typedAt maxpw tty input).take 3 = typedAt maxpw tty input := rfl
  rw [chooseKey, if_pos hkey, htake, typedAt, find?_keyEntries]

end Transfer

end Cli

end MileRpc
