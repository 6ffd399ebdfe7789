import MileRpc.Url.Values

/-!
# Writing a url

`Url.render` writes a url from its getters, with an explicit port.  Every string that `Url::Parse`
accepts has regular components (`UrlCaptures.Regular`): in particular the group of the port takes
everything up to a `/`, so that without a path there is no query either.  Regular components are
what the pattern captures from the text they are written as (`urlCaptures_text`), and a decimal port
is read back by the conversion with an automatic base, since it has no leading zero
(`stoi_decimal`).  So a parsed url is parsed again from what it renders to (`parse_render`).
-/

namespace MileRpc

/-! ### Decimal numbers -/

theorem digitValue_of_isDigit {c : Char} (h : c.isDigit = true) :
    digitValue c = some (c.toNat - '0'.toNat) := by
  have hd : '0' ≤ c ∧ c ≤ '9' := by
    simpa [Char.isDigit, Char.le_def] using h
  simp only [digitValue, if_pos hd]

theorem isDigit_ten_of_isDigit {c : Char} (h : c.isDigit = true) : isDigit 10 c = true := by
  rw [isDigit, digitValue_of_isDigit h, Option.any_some, decide_eq_true_eq]
  have hc : c.toNat ≤ 57 := by
    simp only [Char.isDigit, Bool.and_eq_true, decide_eq_true_eq] at h
    exact UInt32.le_iff_toNat_le.1 h.2
  have h0 : '0'.toNat = 48 := rfl
  omega

theorem isDigit_of_mem_decimal {n : ℕ} {c : Char} (hc : c ∈ Nat.toDigits 10 n) :
    c.isDigit = true :=
  Nat.isDigit_of_mem_toDigits (by omega) (by omega) hc

theorem digitsValue_ten {ds : List Char} (h : ∀ c ∈ ds, c.isDigit = true) :
    digitsValue 10 ds = Nat.ofDigitChars 10 ds 0 := by
  -- the two folds agree on every digit
  have key : ∀ (ds : List Char) (m : ℕ), (∀ c ∈ ds, c.isDigit = true) →
      ds.foldl (fun n c => 10 * n + (digitValue c).getD 0) m = Nat.ofDigitChars 10 ds m := by
    intro ds
    induction ds with
    | nil => simp
    | cons c ds ih =>
      intro m h
      rw [List.foldl_cons, ih _ fun d hd => h d (List.mem_cons_of_mem _ hd),
        Nat.ofDigitChars_cons, digitValue_of_isDigit (h c List.mem_cons_self), Option.getD_some]
  exact key ds 0 h

theorem digitsValue_decimal (n : ℕ) : digitsValue 10 (Nat.toDigits 10 n) = n := by
  rw [digitsValue_ten fun c hc => isDigit_of_mem_decimal hc]
  exact Nat.ofDigitChars_ten_toDigits

theorem head_decimal_ne_zero {n : ℕ} (hn : 0 < n) : (Nat.toDigits 10 n).head? ≠ some '0' := by
  induction n using Nat.strongRecOn with
  | ind n ih =>
    by_cases h : n < 10
    · rw [Nat.toDigits_of_lt_base h]
      intro h0
      rw [List.head?_cons, Option.some.injEq] at h0
      have hval := Nat.toNat_digitChar_sub_48_of_lt_ten h
      rw [h0] at hval
      exact hn.ne hval
    · rw [Nat.toDigits_of_base_le (by omega) (by omega), List.head?_append,
        List.head?_eq_some_head Nat.toDigits_ne_nil, Option.some_or,
        ← List.head?_eq_some_head Nat.toDigits_ne_nil]
      exact ih (n / 10) (by omega) (by omega)

theorem splitSign_of_isDigit {c : Char} (cs : List Char) (h : c.isDigit = true) :
    splitSign (c :: cs) = (1, c :: cs) := by
  unfold splitSign
  split
  · next heq => cases heq; simp at h
  · next heq => cases heq; simp at h
  · rfl

theorem splitBase_of_ne_zero {cs : List Char} (h : cs.head? ≠ some '0') :
    splitBase cs = (10, cs) := by
  unfold splitBase
  split
  · simp at h
  · simp at h
  · rfl

theorem isSpace_of_isDigit {c : Char} (h : c.isDigit = true) : isSpace c = false := by
  by_contra hsp
  simp only [isSpace, Bool.not_eq_false, Bool.or_eq_true, beq_iff_eq, Bool.and_eq_true,
    decide_eq_true_eq] at hsp
  rcases hsp with rfl | ⟨-, hle⟩
  · simp at h
  · have h48 : 48 ≤ c.toNat := by
      simp only [Char.isDigit, Bool.and_eq_true, decide_eq_true_eq] at h
      exact UInt32.le_iff_toNat_le.1 h.1
    omega

/-- A text of digits of one base is converted to its value, if it begins with a decimal digit. -/
theorem stoi_of_isDigit {c : Char} {cs ds : List Char} {base : ℕ} (hc : c.isDigit = true)
    (hbase : splitBase (c :: cs) = (base, c :: cs))
    (hds : (c :: cs).takeWhile (isDigit base) = ds) (hne : ds ≠ []) :
    stoi (c :: cs) = if digitsValue base ds < 2 ^ 31 then .ok (digitsValue base ds : ℤ)
      else .error (.std "stoi") := by
  have hrange : ((-2 ^ 31 : ℤ) ≤ digitsValue base ds ∧ (digitsValue base ds : ℤ) < 2 ^ 31) ↔
      digitsValue base ds < 2 ^ 31 := by omega
  simp only [stoi, List.dropWhile_cons, isSpace_of_isDigit hc, Bool.false_eq_true, ↓reduceIte,
    splitSign_of_isDigit cs hc, hbase, hds, hne, one_mul, hrange]

/-- **A decimal number is read back**, with the base found from its text. -/
theorem stoi_decimal {n : ℕ} (hn : n < 2 ^ 31) : stoi (Nat.toDigits 10 n) = .ok n := by
  rcases Nat.eq_zero_or_pos n with rfl | hpos
  · rfl
  · obtain ⟨c, cs, hcs⟩ := List.exists_cons_of_ne_nil (Nat.toDigits_ne_nil (n := n) (b := 10))
    have hdigit : ∀ d ∈ c :: cs, d.isDigit = true := fun d hd =>
      isDigit_of_mem_decimal (by rwa [hcs])
    have hbase : splitBase (c :: cs) = (10, c :: cs) :=
      splitBase_of_ne_zero (hcs ▸ head_decimal_ne_zero hpos)
    have hall : (c :: cs).takeWhile (isDigit 10) = c :: cs :=
      List.takeWhile_eq_self_iff.2 fun d hd => isDigit_ten_of_isDigit (hdigit d hd)
    have hvalue : digitsValue 10 (c :: cs) = n := hcs ▸ digitsValue_decimal n
    rw [hcs, stoi_of_isDigit (hdigit c List.mem_cons_self) hbase hall (by simp), hvalue, if_pos hn]

/-! ### Regular components -/

/-- The text of a query with its separator. -/
def querySuffix (query : List Char) : List Char := if query = [] then [] else '?' :: query

namespace UrlCaptures

/-- Components that a url can be written from. -/
structure Regular (w : UrlCaptures) : Prop where
  protocol : w.protocol ∈ urlSchemes
  host : ∀ c ∈ w.host, isHostChar c = true
  host_ne_nil : w.host ≠ []
  port : ∀ c ∈ w.port, isPortChar c = true
  /-- Without a path there is no query. -/
  path : (w.path = [] ∧ w.query = []) ∨
    ∃ cs, w.path = '/' :: cs ∧ ∀ c ∈ cs, isPathChar c = true
  query : ∀ c ∈ w.query, isQueryChar c = true

/-- What follows the port in the text of a url. -/
def afterPort (w : UrlCaptures) : List Char := w.path ++ querySuffix w.query

/-- What follows `://`. -/
def afterScheme (w : UrlCaptures) : List Char := w.host ++ ':' :: (w.port ++ w.afterPort)

/-- The text of the components, without the fragment. -/
def text (w : UrlCaptures) : List Char := w.protocol ++ ':' :: '/' :: '/' :: w.afterScheme

end UrlCaptures

theorem scanAfterPort_cases {s : List Char} (h : ' ' ∉ s) :
    scanAfterPort s = [] ∨ ∃ cs, scanAfterPort s = '/' :: cs := by
  have hsub : scanAfterPort s <:+ s :=
    (List.dropWhile_suffix _).trans (dropChar_suffix ':' s)
  cases hd : scanAfterPort s with
  | nil => exact .inl rfl
  | cons d ds =>
    right
    have hne : isPortChar d = false := by
      have hhead := List.head?_dropWhile_not isPortChar (scanAfterHost s)
      unfold scanAfterPort at hd
      rw [hd] at hhead
      simpa using hhead
    have hspace : d ≠ ' ' := by
      rintro rfl
      exact h (hsub.subset (hd ▸ List.mem_cons_self))
    have hslash : d = '/' := by
      by_contra hn
      simp [isPortChar, hspace, hn] at hne
    exact ⟨ds, by rw [hslash]⟩

theorem mem_takeWhile_true {p : Char → Bool} {s : List Char} :
    ∀ c ∈ s.takeWhile p, p c = true := fun _ hc => List.mem_takeWhile_imp hc

theorem regular_of_captures {s : List Char} {w : UrlCaptures} (h : urlCaptures s = some w) :
    w.Regular := by
  obtain ⟨p, hp, c, cs, hc, hspace, -, rfl⟩ := urlCaptures_eq_some_iff.1 h
  have hrest : ' ' ∉ (c :: cs).dropWhile isHostChar := fun hm =>
    hspace ((List.dropWhile_suffix _).subset hm)
  refine ⟨hp, mem_takeWhile_true, by simp [scanUrl, hc], mem_takeWhile_true, ?_,
    mem_takeWhile_true⟩
  rcases scanAfterPort_cases hrest with hnil | ⟨ds, hds⟩
  · left
    simp [scanUrl, scanAfterPath, hnil, takeChar, dropChar]
  · right
    refine ⟨ds.takeWhile isPathChar, ?_, mem_takeWhile_true⟩
    simp [scanUrl, hds, takeChar, dropChar]

/-- A prefix that satisfies the predicate is split off, if what follows it is empty or begins with
a character that does not. -/
theorem takeWhile_append_of_head {p : Char → Bool} {xs : List Char} (ys : List Char)
    (hxs : ∀ x ∈ xs, p x = true) (hys : ∀ y, ys.head? = some y → p y = false) :
    (xs ++ ys).takeWhile p = xs ∧ (xs ++ ys).dropWhile p = ys := by
  rw [List.takeWhile_append_of_pos hxs, List.dropWhile_append_of_pos hxs]
  cases ys with
  | nil => simp
  | cons y ys => simp [hys y rfl]

namespace UrlCaptures.Regular

variable {w : UrlCaptures}

theorem head_afterPort (h : w.Regular) :
    ∀ c, w.afterPort.head? = some c → isPortChar c = false := by
  intro c hc
  rcases h.path with ⟨hpath, hquery⟩ | ⟨cs, hpath, -⟩
  · simp [afterPort, hpath, hquery, querySuffix] at hc
  · obtain rfl : '/' = c := by simpa [afterPort, hpath] using hc
    rfl

theorem scanUrl_afterScheme (h : w.Regular) :
    scanUrl w.protocol w.afterScheme = { w with fragment := [] } := by
  obtain ⟨hhost, hs⟩ := takeWhile_append_of_head (':' :: (w.port ++ w.afterPort)) h.host
    fun c hc => by
      obtain rfl : ':' = c := by simpa using hc
      rfl
  obtain ⟨hport, hafter⟩ := takeWhile_append_of_head _ h.port h.head_afterPort
  have hcolon : scanAfterHost (':' :: (w.port ++ w.afterPort)) = w.port ++ w.afterPort := rfl
  have hscan : scanAfterPort (':' :: (w.port ++ w.afterPort)) = w.afterPort := by
    rw [scanAfterPort, hcolon, hafter]
  unfold scanUrl scanAfterQuery scanAfterPath afterScheme
  simp only [hhost, hs, hcolon, hport, hscan]
  rcases h.path with ⟨hpath, hquery⟩ | ⟨cs, hpath, hcs⟩
  · simp [afterPort, hpath, hquery, querySuffix, takeChar, dropChar]
  · have hsuffix : ∀ c, (querySuffix w.query).head? = some c → isPathChar c = false := by
      intro c hc
      unfold querySuffix at hc
      split_ifs at hc
      · simp at hc
      · obtain rfl : '?' = c := by simpa using hc
        rfl
    obtain ⟨hp, hq⟩ := takeWhile_append_of_head _ hcs hsuffix
    have hdrop : dropChar '?' (querySuffix w.query) = w.query := by
      unfold querySuffix
      split_ifs with hnil
      · rw [hnil]; rfl
      · rfl
    have htake : w.query.takeWhile isQueryChar = w.query := List.takeWhile_eq_self_iff.2 h.query
    have hend : w.query.dropWhile isQueryChar = [] := List.dropWhile_eq_nil_iff.2 h.query
    have hhead : takeChar '/' w.afterPort = ['/'] ∧
        dropChar '/' w.afterPort = cs ++ querySuffix w.query := by
      simp [afterPort, hpath, takeChar, dropChar]
    rw [hhead.1, hhead.2, hp, hq, hdrop, htake, hend, hpath]
    rfl

theorem space_not_mem (h : w.Regular) (hport : ' ' ∉ w.port) : ' ' ∉ w.afterScheme := by
  have hhost : ' ' ∉ w.host := fun hm => by simpa [isHostChar] using h.host _ hm
  have hquery : ' ' ∉ w.query := fun hm => by simpa [isQueryChar] using h.query _ hm
  have hpath : ' ' ∉ w.path := by
    rcases h.path with ⟨hpath, -⟩ | ⟨cs, hpath, hcs⟩
    · simp [hpath]
    · rw [hpath]
      rintro (_ | ⟨_, hm⟩)
      simpa [isPathChar] using hcs _ hm
  have hsuffix : ' ' ∉ querySuffix w.query := by
    unfold querySuffix
    split_ifs <;> simp [hquery]
  simp [afterScheme, afterPort, hhost, hport, hpath, hsuffix]

/-- **Regular components are captured from their text.** -/
theorem urlCaptures_text (h : w.Regular) : urlCaptures w.text = some { w with fragment := [] } := by
  obtain ⟨c, cs, hcs⟩ := List.exists_cons_of_ne_nil h.host_ne_nil
  have hspace : ' ' ∉ w.afterScheme :=
    h.space_not_mem fun hm => by simpa [isPortChar] using h.port _ hm
  have hafter : w.afterScheme = c :: (cs ++ ':' :: (w.port ++ w.afterPort)) := by
    rw [afterScheme, hcs]
    rfl
  refine urlCaptures_eq_some_iff.2 ⟨w.protocol, h.protocol, c, _,
    h.host c (hcs ▸ List.mem_cons_self), hafter ▸ hspace, ?_, ?_⟩
  · rw [text, hafter]
  · rw [← hafter, h.scanUrl_afterScheme]

end UrlCaptures.Regular

/-! ### Urls -/

/-- The text of a protocol. -/
def Protocol.scheme : Protocol → String
  | .http => "http"
  | .https => "https"
  | .unknown => ""

namespace Url

/-- The url written from its getters. -/
def render (u : Url) : String :=
  u.protocol.scheme ++ "://" ++ u.domain ++ ":" ++ toString u.port.toNat ++ u.path ++
    if u.query = "" then "" else "?" ++ u.query

/-- The same protocol, host, port, path and query. -/
structure SameParts (u v : Url) : Prop where
  protocol : u.protocol = v.protocol
  domain : u.domain = v.domain
  port : u.port = v.port
  path : u.path = v.path
  query : u.query = v.query

theorem parseProtocol_scheme {p : List Char} {protocol : Protocol}
    (h : parseProtocol p = .ok protocol) (hp : p ∈ urlSchemes) : protocol.scheme.toList = p := by
  simp only [urlSchemes, List.mem_cons, List.not_mem_nil, or_false] at hp
  rcases hp with rfl | rfl | rfl <;> cases h <;> rfl

/-- The components that `render` writes: the port is decimal. -/
def written (u : Url) (what : UrlCaptures) : UrlCaptures :=
  { what with port := Nat.toDigits 10 u.port.toNat }

theorem written_regular {u : Url} {what : UrlCaptures} (h : what.Regular) :
    (u.written what).Regular := by
  refine { h with port := fun c hc => ?_ }
  have hd := isDigit_of_mem_decimal hc
  have hne : c ≠ '/' ∧ c ≠ ' ' := by
    constructor <;> rintro rfl <;> simp at hd
  simp [isPortChar, hne.1, hne.2]

theorem toList_render {u : Url} {what : UrlCaptures} (h : what.Regular)
    (hp : parseProtocol what.protocol = .ok u.protocol) (hd : u.domain = String.ofList what.host)
    (hpath : u.path = String.ofList what.path) (hquery : u.query = String.ofList what.query) :
    u.render.toList = (u.written what).text := by
  have hempty : u.query = "" ↔ what.query = [] := by
    rw [hquery, ← String.toList_inj]
    simp
  have hsuffix : (if u.query = "" then "" else "?" ++ u.query).toList = querySuffix what.query := by
    unfold querySuffix
    by_cases hq : what.query = []
    · rw [if_pos (hempty.2 hq), if_pos hq]
      rfl
    · rw [if_neg fun h => hq (hempty.1 h), if_neg hq, hquery]
      simp
  simp [render, hsuffix, parseProtocol_scheme hp h.protocol, hd, hpath, UrlCaptures.text,
    UrlCaptures.afterScheme, UrlCaptures.afterPort, written]

/-- The components contain no character that the string does not contain, but for the slash. -/
theorem not_mem_captures {s : List Char} {w : UrlCaptures} {d : Char} (h : urlCaptures s = some w)
    (hd : d ≠ '/') (hs : d ∉ s) : d ∉ w.host ∧ d ∉ w.path ∧ d ∉ w.query := by
  obtain ⟨p, -, c, cs, -, -, rfl, rfl⟩ := urlCaptures_eq_some_iff.1 h
  have hr : d ∉ c :: cs := fun hm => hs (by simp [List.mem_cons.1 hm])
  have htake : ∀ (t : List Char) (q : Char → Bool), t <:+ c :: cs → d ∉ t.takeWhile q :=
    fun t q ht hm => hr (ht.subset ((List.takeWhile_prefix q).subset hm))
  have hrest : (c :: cs).dropWhile isHostChar <:+ c :: cs := List.dropWhile_suffix _
  have hport : dropChar '/' (scanAfterPort ((c :: cs).dropWhile isHostChar)) <:+ c :: cs :=
    (dropChar_suffix _ _).trans <| (List.dropWhile_suffix _).trans <|
    (dropChar_suffix _ _).trans hrest
  refine ⟨htake _ _ (List.suffix_refl _), fun hm => ?_, htake _ _ ?_⟩
  · rcases List.mem_append.1 hm with hm | hm
    · unfold takeChar at hm
      split_ifs at hm
      · exact hd (List.mem_singleton.1 hm)
      · cases hm
    · exact htake _ _ hport hm
  · exact (dropChar_suffix _ _).trans ((List.dropWhile_suffix _).trans hport)

theorem render_nulFree {s : String} {u : Url} (hs : NulFree s) (h : parseResult s = .ok u) :
    NulFree u.render := by
  obtain ⟨what, hwhat, hp, -, -, hd, hpath, hquery, -⟩ := parseResult_eq_ok h
  rw [cStr_of_nulFree hs] at hwhat
  have hreg := regular_of_captures hwhat
  obtain ⟨h1, h2, h3⟩ := not_mem_captures hwhat (by decide) hs
  have hdigits : '\x00' ∉ Nat.toDigits 10 u.port.toNat := fun hm => by
    simpa using isDigit_of_mem_decimal hm
  have hscheme : '\x00' ∉ what.protocol := fun hm => by
    have hp := hreg.protocol
    simp only [urlSchemes, List.mem_cons, List.not_mem_nil, or_false] at hp
    rcases hp with hp | hp | hp <;> rw [hp] at hm <;> simp at hm
  have hsuffix : '\x00' ∉ querySuffix what.query := by
    unfold querySuffix
    split_ifs <;> simp [h3]
  rw [NulFree, toList_render hreg hp hd hpath hquery]
  simp [UrlCaptures.text, UrlCaptures.afterScheme, UrlCaptures.afterPort, written, h1, h2, hdigits,
    hscheme, hsuffix]

/-- The converse of `parseResult_eq_ok`. -/
theorem parseResult_of_captures {s : String} {what : UrlCaptures} {protocol : Protocol}
    {port : UInt16} (hs : s ≠ "") (hwhat : urlCaptures (cStr s) = some what)
    (hp : parseProtocol what.protocol = .ok protocol)
    (hport : parsePort protocol what.port = .ok port) :
    parseResult s = .ok ⟨s, protocol, String.ofList what.host, port, String.ofList what.path, "",
      String.ofList what.query⟩ := by
  rw [parseResult, if_neg hs, hwhat]
  simp only [parseMatch, hp, hport, bind, Except.bind]
  rfl

theorem parseResult_render {s : String} {u : Url} (hs : NulFree s) (h : parseResult s = .ok u) :
    parseResult u.render = .ok { u with urlString := u.render } := by
  obtain ⟨what, hwhat, hp, -, -, hd, hpath, hquery, hf⟩ := parseResult_eq_ok h
  have hreg := regular_of_captures hwhat
  have hlist := toList_render hreg hp hd hpath hquery
  have hne : u.render ≠ "" := by
    intro h
    rw [h] at hlist
    simp [UrlCaptures.text] at hlist
  have hcaptured : urlCaptures (cStr u.render) = some { u.written what with fragment := [] } := by
    rw [cStr_of_nulFree (render_nulFree hs h), hlist]
    exact (written_regular hreg).urlCaptures_text
  -- the port of a url is a number of 16 bits
  have hlt := u.port.toNat_lt
  have hport : parsePort u.protocol (Nat.toDigits 10 u.port.toNat) = .ok u.port := by
    have hrange : (0 : ℤ) ≤ u.port.toNat ∧ (u.port.toNat : ℤ) ≤ 65535 := by omega
    rw [parsePort, if_neg Nat.toDigits_ne_nil, stoi_decimal (by omega)]
    simp only [if_pos hrange, Int.toNat_natCast, UInt16.ofNat_toNat]
  rw [parseResult_of_captures hne hcaptured hp hport, hd, hpath, hquery, hf]
  rfl

/-- **A url is parsed again from what it renders to**, without an error, and with the same parts. -/
theorem parse_render {s : String} {u : Url} (hs : NulFree s) (h : parseResult s = .ok u) :
    ∃ v : Url, v.SameParts u ∧
      ∀ (ν : Type) (error : ErrorHandler ν), parse u.render error = pure (some v) :=
  ⟨{ u with urlString := u.render }, ⟨rfl, rfl, rfl, rfl, rfl⟩, fun ν error => by
    rw [parse, parseResult_render hs h, finish]⟩

/-- A url with the default port and a query that begins with a question mark. -/
theorem parse_render_query :
    ∃ v : Url, v.SameParts ⟨"http://h/a??b#c", .http, "h", 80, "/a", "", "?b"⟩ ∧
      ∀ (ν : Type) (error : ErrorHandler ν),
        parse (render ⟨"http://h/a??b#c", .http, "h", 80, "/a", "", "?b"⟩) error = pure (some v) :=
  parse_render (s := "http://h/a??b#c") (by simp [NulFree]) (by decide +kernel)

end Url

end MileRpc
