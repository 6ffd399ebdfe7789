import MileRpc.Url.Authority
import Mathlib.Data.List.Induction

/-!
# The port of a url

The text of a port is any text up to a `/`.  `std::stoi` with an automatic base takes from it what
it can: it throws on a text without a leading number (`parse_reports_iff`), takes a leading zero for
an octal number and ignores what follows the digits (`port_correct_iff`).
-/

namespace MileRpc

/-! ### Octal numbers -/

theorem digitsValue_append_one (base : ℕ) (ds : List Char) (d : Char) :
    digitsValue base (ds ++ [d]) = base * digitsValue base ds + (digitValue d).getD 0 := by
  simp [digitsValue]

theorem digitsValue_le_append (ds more : List Char) :
    digitsValue 10 ds ≤ digitsValue 10 (ds ++ more) := by
  induction more using List.reverseRecOn with
  | nil => simp
  | append_singleton more d ih =>
    rw [← List.append_assoc, digitsValue_append_one]
    omega

theorem octal_le_decimal (ds : List Char) : digitsValue 8 ds ≤ digitsValue 10 ds := by
  induction ds using List.reverseRecOn with
  | nil => simp [digitsValue]
  | append_singleton ds d ih =>
    simp only [digitsValue_append_one]
    omega

theorem octal_eq_decimal_iff {ds : List Char} (h : ∀ c ∈ ds, isDigit 8 c = true) :
    digitsValue 8 ds = digitsValue 10 ds ↔ digitsValue 10 ds ≤ 7 := by
  induction ds using List.reverseRecOn with
  | nil => simp [digitsValue]
  | append_singleton ds d _ =>
    have hd : (digitValue d).getD 0 < 8 := by
      have hlast := h d (by simp)
      unfold isDigit at hlast
      cases hv : digitValue d with
      | none => simp
      | some v => simpa [hv] using hlast
    have hle := octal_le_decimal ds
    simp only [digitsValue_append_one]
    omega

theorem octal_part_eq_iff {p : List Char} (h : ∀ c ∈ p, c.isDigit = true) :
    digitsValue 8 (p.takeWhile (isDigit 8)) = digitsValue 10 p ↔ digitsValue 10 p ≤ 7 := by
  have hoctal : ∀ c ∈ p.takeWhile (isDigit 8), isDigit 8 c = true := fun c hc =>
    List.mem_takeWhile_imp hc
  have hp : p.takeWhile (isDigit 8) ++ p.dropWhile (isDigit 8) = p :=
    List.takeWhile_append_dropWhile
  cases hrest : p.dropWhile (isDigit 8) with
  | nil =>
    rw [hrest, List.append_nil] at hp
    rw [hp] at hoctal ⊢
    exact octal_eq_decimal_iff hoctal
  | cons d ds =>
    -- the digit `d` is an eight or a nine
    have hd : 8 ≤ (digitValue d).getD 0 := by
      have hhead := List.head?_dropWhile_not (isDigit 8) p
      rw [hrest] at hhead
      have hdigit : d.isDigit = true := h d (hp ▸ hrest ▸ by simp)
      simp only [List.head?_cons, isDigit, digitValue_of_isDigit hdigit, Option.any_some,
        decide_eq_false_iff_not, not_lt] at hhead
      rwa [digitValue_of_isDigit hdigit, Option.getD_some]
    have hmore := digitsValue_le_append (p.takeWhile (isDigit 8) ++ [d]) ds
    rw [List.append_assoc, List.singleton_append, ← hrest, hp, digitsValue_append_one] at hmore
    have hle := octal_le_decimal (p.takeWhile (isDigit 8))
    omega

/-! ### What is read from a port text -/

/-- The decimal value of a text of digits. -/
def decimalValue (p : List Char) : ℕ := Nat.ofDigitChars 10 p 0

/-- The number that `stoi` reads from a text of decimal digits. -/
def readValue (p : List Char) : ℕ :=
  if p.head? = some '0' then digitsValue 8 (p.takeWhile (isDigit 8)) else decimalValue p

theorem splitBase_of_zero {cs : List Char} (h : ∀ c ∈ cs, c.isDigit = true) :
    splitBase ('0' :: cs) = (8, '0' :: cs) := by
  cases cs with
  | nil => rfl
  | cons x cs =>
    have hx : ¬ (x = 'x' ∨ x = 'X') := by
      have hdigit := h x List.mem_cons_self
      rintro (rfl | rfl) <;> simp at hdigit
    cases cs with
    | nil => rfl
    | cons d ds => simp [splitBase, hx]

theorem stoi_of_digits {p : List Char} (hne : p ≠ []) (h : ∀ c ∈ p, c.isDigit = true) :
    stoi p = if readValue p < 2 ^ 31 then .ok (readValue p : ℤ) else .error (.std "stoi") := by
  obtain ⟨c, cs, rfl⟩ := List.exists_cons_of_ne_nil hne
  have hc := h c List.mem_cons_self
  unfold readValue
  by_cases hzero : c = '0'
  · subst hzero
    have hbase := splitBase_of_zero fun d hd => h d (List.mem_cons_of_mem _ hd)
    rw [List.head?_cons, if_pos rfl]
    exact stoi_of_isDigit hc hbase rfl (by simp [show isDigit 8 '0' = true from rfl])
  · have hhead : (c :: cs).head? ≠ some '0' := by simpa using hzero
    have hall : (c :: cs).takeWhile (isDigit 10) = c :: cs :=
      List.takeWhile_eq_self_iff.2 fun d hd => isDigit_ten_of_isDigit (h d hd)
    rw [if_neg hhead, decimalValue, ← digitsValue_ten h]
    exact stoi_of_isDigit hc (splitBase_of_ne_zero hhead) hall (by simp)

/-- The number read is the decimal value, unless there is a leading zero and the value is more than
seven. -/
theorem readValue_eq_iff {p : List Char} (h : ∀ c ∈ p, c.isDigit = true) :
    readValue p = decimalValue p ↔ p.head? ≠ some '0' ∨ decimalValue p ≤ 7 := by
  unfold readValue
  split_ifs with hzero
  · rw [decimalValue, ← digitsValue_ten h, octal_part_eq_iff h]
    simp [hzero]
  · simp [hzero]

namespace Url

theorem parsePort_of_ne_nil {protocol : Protocol} {p : List Char} {port : UInt16} (hne : p ≠ [])
    (h : parsePort protocol p = .ok port) : stoi p = .ok (port.toNat : ℤ) := by
  rw [parsePort, if_neg hne] at h
  cases hs : stoi p with
  | error e => simp [hs] at h
  | ok n =>
    rw [hs] at h
    simp only at h
    split_ifs at h with hrange
    obtain rfl : UInt16.ofNat n.toNat = port := by simpa using h
    have hlt : n.toNat < 2 ^ 16 := by omega
    rw [UInt16.toNat_ofNat_of_lt' hlt, Int.toNat_of_nonneg hrange.1]

theorem parsePort_of_digits {protocol : Protocol} {p : List Char} {port : UInt16} (hne : p ≠ [])
    (hd : ∀ c ∈ p, c.isDigit = true) (h : parsePort protocol p = .ok port) :
    port.toNat = readValue p := by
  have hs := parsePort_of_ne_nil hne h
  rw [stoi_of_digits hne hd] at hs
  split_ifs at hs
  simpa using hs.symm

/-! ### The port of an accepted string -/

/-- What stands before the first colon. -/
def schemeText (s : List Char) : List Char := (upTo [':'] s).1

/-- The port for which a string needs no port text. -/
def schemePort (s : List Char) : ℕ :=
  if schemeText s = ['h', 't', 't', 'p', 's'] then 443 else 80

/-- The port of `u` is what the port text of `s` says: the port of the protocol if it is empty, and
otherwise the value of a decimal number up to 65535. -/
def PortCorrect (s : String) (u : Url) : Prop :=
  let p := portText (afterScheme s.toList)
  if p = [] then u.port.toNat = schemePort s.toList
  else (∀ c ∈ p, c.isDigit = true) ∧ decimalValue p ≤ 65535 ∧ u.port.toNat = decimalValue p

/-- A quantifier over the characters of a port is decided by going through the port. -/
instance decidableDigits (p : List Char) : Decidable (∀ c ∈ p, c.isDigit = true) :=
  List.decidableBAll _ _

instance (s : String) (u : Url) : Decidable (PortCorrect s u) := by
  unfold PortCorrect; infer_instance

/-- The port text is empty or a decimal number, without a leading zero if its value is more than
seven.  Behind a NUL byte in the host it is not read: there it is the port of the protocol. -/
def PlainPort (s : List Char) : Prop :=
  let p := portText (afterScheme s)
  p = [] ∨ (∀ c ∈ p, c.isDigit = true) ∧
    if '\x00' ∈ hostText (afterScheme s) then decimalValue p = schemePort s
    else p.head? ≠ some '0' ∨ decimalValue p ≤ 7

instance (s : List Char) : Decidable (PlainPort s) := by unfold PlainPort; infer_instance

@[simp] theorem beforeNul_nil : beforeNul [] = [] := rfl

@[simp] theorem beforeNul_nul (cs : List Char) : beforeNul ('\x00' :: cs) = [] := by
  simp [beforeNul, upTo]

theorem beforeNul_cons {c : Char} (h : c ≠ '\x00') (cs : List Char) :
    beforeNul (c :: cs) = c :: beforeNul cs := by
  simp [beforeNul, upTo, h]

@[simp] theorem portText_nil : portText [] = [] := rfl

@[simp] theorem portText_colon (cs : List Char) : portText (':' :: cs) = (upTo ['/'] cs).1 := by
  simp [portText, upTo, dropChar]

@[simp] theorem portText_slash (cs : List Char) : portText ('/' :: cs) = [] := by
  simp [portText, upTo, dropChar]

theorem portText_cons {c : Char} (hslash : c ≠ '/') (hcolon : c ≠ ':') (cs : List Char) :
    portText (c :: cs) = portText cs := by
  simp [portText, upTo, hslash, hcolon]

theorem hostText_cons {c : Char} (hslash : c ≠ '/') (hcolon : c ≠ ':') (cs : List Char) :
    hostText (c :: cs) = c :: hostText cs := by
  simp [hostText, upTo, hslash, hcolon]

theorem portText_beforeNul (r : List Char) :
    portText (beforeNul r) = if '\x00' ∈ hostText r then [] else beforeNul (portText r) := by
  induction r with
  | nil => simp
  | cons c cs ih =>
    by_cases hcolon : c = ':'
    · subst hcolon
      have hhost : hostText (':' :: cs) = [] := by simp [hostText, upTo]
      rw [beforeNul_cons (by decide), portText_colon, portText_colon, hhost,
        if_neg List.not_mem_nil, upTo_beforeNul]
    · by_cases hslash : c = '/'
      · subst hslash
        rw [beforeNul_cons (by decide), portText_slash, portText_slash]
        simp
      · rw [hostText_cons hslash hcolon, portText_cons hslash hcolon]
        by_cases hnul : c = '\x00'
        · subst hnul
          simp
        · rw [beforeNul_cons hnul, portText_cons hslash hcolon, ih]
          simp [Ne.symm hnul]

theorem beforeNul_of_digits {p : List Char} (h : ∀ c ∈ p, c.isDigit = true) : beforeNul p = p := by
  refine List.takeWhile_eq_self_iff.2 fun c hc => decide_eq_true fun hnul => ?_
  have hdigit := h c hc
  rw [List.mem_singleton.1 hnul] at hdigit
  simp at hdigit

theorem schemePort_le (s : List Char) : schemePort s ≤ 65535 := by
  unfold schemePort
  split_ifs <;> omega

theorem defaultPort_eq {p r : List Char} {protocol : Protocol} (hp : p ∈ urlSchemes)
    (h : parseProtocol p = .ok protocol) :
    (defaultPort protocol).toNat = schemePort (p ++ ':' :: r) := by
  simp only [urlSchemes, List.mem_cons, List.not_mem_nil, or_false] at hp
  rcases hp with rfl | rfl | rfl
  · cases h
    simp [schemePort, schemeText, upTo, defaultPort]
  · cases h
    simp [schemePort, schemeText, upTo, defaultPort]
  · cases h

/-- **When the port is correct.**  For an accepted string it is if and only if its port text is
plain. -/
theorem port_correct_iff {s : String} {u : Url} (h : parseResult s = .ok u) :
    PortCorrect s u ↔ PlainPort s.toList := by
  obtain ⟨what, hwhat, hprotocol, hport, -⟩ := parseResult_eq_ok h
  obtain ⟨p, hp, hs, hscan⟩ := captures_eq_linearScan hwhat
  have hdefault : (defaultPort u.protocol).toNat = schemePort s.toList := by
    rw [hs]
    exact defaultPort_eq hp (by rwa [hscan] at hprotocol)
  have htext : what.port = portText (beforeNul (afterScheme s.toList)) := by rw [hscan]; rfl
  rw [htext, portText_beforeNul] at hport
  have hnone : parsePort u.protocol [] = .ok u.port → u.port.toNat = schemePort s.toList := by
    intro hp
    rw [parsePort, if_pos rfl, Except.ok.injEq] at hp
    rw [← hp, hdefault]
  unfold PortCorrect PlainPort
  generalize portText (afterScheme s.toList) = q at hport
  by_cases hq : q = []
  · subst hq
    simp only [beforeNul_nil, ite_self] at hport
    simp [hnone hport]
  · by_cases hd : ∀ c ∈ q, c.isDigit = true
    · rw [beforeNul_of_digits hd] at hport
      simp only [hq, ↓reduceIte, false_or]
      split_ifs at hport ⊢ with hnul
      · rw [hnone hport]
        exact ⟨fun h => ⟨hd, h.2.2.symm⟩, fun h => ⟨hd, h.2 ▸ schemePort_le _, h.2.symm⟩⟩
      · have hvalue := parsePort_of_digits hq hd hport
        have hlt := u.port.toNat_lt
        rw [← readValue_eq_iff hd, hvalue]
        exact ⟨fun h => ⟨hd, h.2.2⟩, fun h => ⟨hd, by omega, h.2⟩⟩
    · simp [hq, hd]

example : PlainPort "https://h:8080/p".toList ∧ ¬ PlainPort "http://h:010".toList ∧
    ¬ PlainPort "http://h:0x50".toList ∧ ¬ PlainPort "http://h:80abc".toList := by decide

/-- A url with a port. -/
theorem port_correct_iff_decimal :
    PortCorrect "http://h:8080/p" ⟨"http://h:8080/p", .http, "h", 8080, "/p", "", ""⟩ ↔
      PlainPort "http://h:8080/p".toList :=
  port_correct_iff (by decide +kernel)

/-- A leading zero makes the number octal. -/
theorem port_correct_fails :
    ¬ ∀ (s : String) (u : Url), parseResult s = .ok u → PortCorrect s u := by
  intro h
  have hu := h "http://h:010" ⟨"http://h:010", .http, "h", 8, "", "", ""⟩ (by decide +kernel)
  exact absurd hu (by decide)

end Url

/-! ### Texts that convert -/

/-- What stands behind white space and a sign. -/
def unsignedText (p : List Char) : List Char := (splitSign (p.dropWhile isSpace)).2

/-- The number at the beginning of a text. -/
def numberValue (p : List Char) : ℤ :=
  let (base, text) := splitBase (unsignedText p)
  (splitSign (p.dropWhile isSpace)).1 * digitsValue base (text.takeWhile (isDigit base))

/-- Behind white space and a sign stands a digit, and the number there is one of an `int`. -/
def Converts (p : List Char) : Prop :=
  (unsignedText p).head?.any Char.isDigit = true ∧ -2 ^ 31 ≤ numberValue p ∧ numberValue p < 2 ^ 31

instance (p : List Char) : Decidable (Converts p) := by unfold Converts; infer_instance

theorem isDigit_ten (c : Char) : isDigit 10 c = c.isDigit := by
  by_cases h : c.isDigit = true
  · rw [h, isDigit_ten_of_isDigit h]
  · have hd : ¬ ('0' ≤ c ∧ c ≤ '9') := by
      simpa [Char.isDigit, Char.le_def] using h
    rw [Bool.not_eq_true] at h
    rw [h, isDigit, digitValue, if_neg hd]
    split_ifs <;> simp

theorem digits_ne_nil_iff (text : List Char) :
    (splitBase text).2.takeWhile (isDigit (splitBase text).1) ≠ [] ↔
      text.head?.any Char.isDigit = true := by
  have hzero : isDigit 8 '0' = true := rfl
  unfold splitBase
  split
  · next x d cs =>
    split_ifs with hx
    · simp [hx.2]
    · simp [hzero]
  · simp [hzero]
  · cases text with
    | nil => simp
    | cons c cs =>
      rw [List.takeWhile_cons, isDigit_ten]
      cases hc : c.isDigit <;> simp [hc]

/-- A text that converts has the number at its beginning as its value, and any other throws. -/
theorem stoi_eq (p : List Char) :
    stoi p = if Converts p then .ok (numberValue p) else .error (.std "stoi") := by
  have hdigits := digits_ne_nil_iff (unsignedText p)
  unfold stoi Converts numberValue
  simp only [← hdigits]
  unfold unsignedText
  obtain ⟨sign, text⟩ := splitSign (p.dropWhile isSpace)
  obtain ⟨base, digits⟩ := splitBase text
  simp only
  generalize digits.takeWhile (isDigit base) = ds
  by_cases hds : ds = []
  · simp [hds]
  · simp [hds]

namespace Url

/-! ### Reports -/

/-- The parser ends normally if its error handler does: it returns a url without calling the
handler, or calls it exactly once and returns nothing. -/
def Reports (m : Matcher) (s : String) : Prop :=
  (∃ u, ∀ (ν : Type) (error : ErrorHandler ν), parseWith m s error = pure (some u)) ∨
    ∃ code text, ∀ (ν : Type) (error : ErrorHandler ν),
      parseWith m s error = do
        error code text
        pure none

/-- If the pattern matches and the protocol is supported, the port text is empty or converts. -/
def PortConverts (s : List Char) : Prop :=
  ∀ p ∈ [['h', 't', 't', 'p'], ['h', 't', 't', 'p', 's']], ∀ c r, c ≠ '/' → c ≠ ':' →
    ' ' ∉ c :: r → s = p ++ ':' :: '/' :: '/' :: c :: r →
    portText (c :: r) = [] ∨ Converts (portText (c :: r))

/-- What is no report is an exception. -/
theorem reports_iff (m : Matcher) (s : String) :
    Reports m s ↔ ∀ e, resultWith m s ≠ .error (.throw e) := by
  unfold Reports parseWith
  cases resultWith m s with
  | ok u =>
    refine ⟨fun _ e h => ?_, fun _ => .inl ⟨u, fun _ _ => rfl⟩⟩
    cases h
  | error f =>
    cases f with
    | report code text =>
      refine ⟨fun _ e h => ?_, fun _ => .inr ⟨code, text, fun _ _ => rfl⟩⟩
      cases h
    | throw e =>
      refine ⟨fun h => ?_, fun h => absurd rfl (h e)⟩
      exfalso
      rcases h with ⟨u, h⟩ | ⟨code, text, h⟩
      · have hrun := congrArg Run.outcome (congrFun (h Unit logError) (World.init ()))
        cases hrun
      · have hrun := congrArg Run.outcome (congrFun (h Unit logError) (World.init ()))
        cases hrun

theorem parsePort_throw_iff {protocol : Protocol} {p : List Char} :
    (∃ e, parsePort protocol p = .error (.throw e)) ↔ ¬ (p = [] ∨ Converts p) := by
  unfold parsePort
  by_cases hp : p = []
  · simp [hp]
  · rw [if_neg hp, stoi_eq]
    by_cases hc : Converts p
    · simp only [hc, ↓reduceIte, hp, or_true, not_true_eq_false, iff_false, not_exists]
      intro e h
      split_ifs at h
      cases h
    · simp [hc, hp]

theorem parseProtocol_isOk_iff {p : List Char} (hp : p ∈ urlSchemes) :
    (∃ protocol, parseProtocol p = .ok protocol) ↔
      p ∈ [['h', 't', 't', 'p'], ['h', 't', 't', 'p', 's']] := by
  simp only [urlSchemes, List.mem_cons, List.not_mem_nil, or_false] at hp
  rcases hp with rfl | rfl | rfl
  · exact ⟨fun _ => by simp, fun _ => ⟨.http, rfl⟩⟩
  · exact ⟨fun _ => by simp, fun _ => ⟨.https, rfl⟩⟩
  · constructor
    · rintro ⟨_, h⟩
      cases h
    · intro h
      simp at h

theorem parseProtocol_eq_error {p : List Char} {f : Failure} (h : parseProtocol p = .error f) :
    ∃ code text, f = .report code text := by
  simp only [parseProtocol] at h
  split_ifs at h
  exact ⟨_, _, (Except.error.inj h).symm⟩

theorem parseMatch_throw_iff {s : String} {what : Option UrlCaptures} :
    (∃ e, parseMatch s what = .error (.throw e)) ↔ ∃ w, what = some w ∧
      ∃ protocol, parseProtocol w.protocol = .ok protocol ∧
        ∃ e, parsePort protocol w.port = .error (.throw e) := by
  cases what with
  | none => simp [parseMatch]
  | some w =>
    cases hp : parseProtocol w.protocol with
    | error f =>
      obtain ⟨code, text, rfl⟩ := parseProtocol_eq_error hp
      simp [parseMatch, hp, bind, Except.bind]
    | ok protocol =>
      cases hq : parsePort protocol w.port with
      | error f => simp [parseMatch, hp, hq, bind, Except.bind]
      | ok port => simp [parseMatch, hp, hq, bind, Except.bind, pure, Except.pure]

/-- The conversion of the port throws if and only if there is a port text that does not convert. -/
theorem parseMatch_not_throw_iff (s : String) :
    (¬ ∃ e, parseMatch s (urlCaptures (cStr s)) = .error (.throw e)) ↔ PortConverts (cStr s) := by
  rw [parseMatch_throw_iff]
  constructor
  · intro h p hp c r hslash hcolon hspace hs
    have hmem : p ∈ urlSchemes := List.mem_append_left [['f', 't', 'p']] hp
    have hwhat : urlCaptures (cStr s) = some (linearScan p (c :: r)) :=
      urlCaptures_eq_some_iff.2 ⟨p, hmem, c, r, (isHostChar_iff hspace).2 ⟨hslash, hcolon⟩, hspace,
        hs, (scanUrl_eq_linearScan p hspace).symm⟩
    obtain ⟨protocol, hprotocol⟩ := (parseProtocol_isOk_iff hmem).2 hp
    by_contra hport
    exact h ⟨_, hwhat, protocol, hprotocol, parsePort_throw_iff.2 hport⟩
  · rintro h ⟨what, hwhat, protocol, hprotocol, hthrow⟩
    obtain ⟨p, hp, c, r, hc, hspace, hs, rfl⟩ := urlCaptures_eq_some_iff.1 hwhat
    rw [scanUrl_eq_linearScan p hspace] at hprotocol hthrow
    rw [isHostChar_iff hspace] at hc
    exact parsePort_throw_iff.1 hthrow
      (h p ((parseProtocol_isOk_iff hp).1 ⟨protocol, hprotocol⟩) c r hc.1 hc.2 hspace hs)

/-- **When the parser reports instead of throwing.**  It does for exactly the strings on which the
matcher does not give up and whose port text, if there is one, begins with a number that fits an
`int`. -/
theorem parse_reports_iff (m : Matcher) (s : String) :
    Reports m s ↔ (s = "" ∨ m.Answers s) ∧ PortConverts (cStr s) := by
  rw [reports_iff, ← not_exists, ← parseMatch_not_throw_iff]
  unfold resultWith Matcher.Answers
  by_cases hs : s = ""
  · subst hs
    have hnone : urlCaptures (cStr "") = none := rfl
    simp [hnone, parseMatch]
  · rw [if_neg hs]
    cases hm : m.regexMatch (cStr s) with
    | ok what =>
      obtain rfl := m.sound _ _ hm
      simp
    | error e => simp [hs]

example : Converts "80".toList ∧ Converts "-0x1fz".toList ∧ ¬ Converts "abc".toList ∧
    ¬ Converts "99999999999".toList := by decide

/-- A matcher may give up on a string that it does not match. -/
example : ∃ m, ¬ Reports m "http://h/ " := by
  refine ⟨⟨fun s => if urlCaptures s = none then .error (.std "error_complexity")
    else .ok (urlCaptures s), fun s what h => ?_⟩, fun h => ?_⟩
  · split_ifs at h
    exact (Except.ok.inj h).symm
  · exact (reports_iff _ _).1 h (.std "error_complexity") (by decide +kernel)

/-- On a port text without a number the parser throws, with any matcher. -/
theorem parse_reports_fails : ¬ ∃ m, ∀ s, Reports m s := by
  rintro ⟨m, h⟩
  have hreports := (reports_iff m "http://h:abc").1 (h _)
  have hthrow : parseMatch "http://h:abc" (urlCaptures (cStr "http://h:abc")) =
      .error (.throw (.std "stoi")) := by decide +kernel
  unfold resultWith at hreports
  rw [if_neg (by decide)] at hreports
  cases hm : m.regexMatch (cStr "http://h:abc") with
  | ok what =>
    obtain rfl := m.sound _ _ hm
    rw [hm] at hreports
    exact hreports _ hthrow
  | error e =>
    rw [hm] at hreports
    exact hreports e rfl

end Url

end MileRpc
