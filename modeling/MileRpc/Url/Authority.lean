import MileRpc.Url.Render

/-!
# The authority of a url

The parts of a url by their separators, read from the whole string: what stands between `://` and
the first `/`, `?` or `#` is the authority, and the query runs from the first `?` before any `#` to
that `#`.

The pattern ends a host at `/` or `:` and a port at `/` only, so that a `?` or `#` before the first
`/` becomes a part of one of them (`boundaries_iff`).
-/

namespace MileRpc

namespace Url

/-! ### Parts of a text -/

/-- What follows `://` in a string that begins with a protocol. -/
def afterScheme (s : List Char) : List Char := (upTo [':'] s).2.drop 3

/-- The host in what follows `://`. -/
def hostText (r : List Char) : List Char := (upTo ['/', ':'] r).1

/-- The port in what follows `://`: what follows the `:` after the host up to the next `/`. -/
def portText (r : List Char) : List Char := (upTo ['/'] (dropChar ':' (upTo ['/', ':'] r).2)).1

/-- The authority in what follows `://`. -/
def authority (r : List Char) : List Char := (upTo ['/', '?', '#'] r).1

/-- What follows the first `?` that stands before any `#`, up to that `#`. -/
def queryText (r : List Char) : List Char := (upTo ['?'] (upTo ['#'] r).1).2.tail

/-- What a C string keeps of a text. -/
def beforeNul (r : List Char) : List Char := (upTo ['\x00'] r).1

theorem cStr_eq (s : String) : cStr s = beforeNul s.toList := by
  simp [cStr, beforeNul, upTo]

theorem afterScheme_append {p : List Char} (hp : p ∈ urlSchemes) (r : List Char) :
    afterScheme (p ++ ':' :: '/' :: '/' :: r) = r := by
  simp only [urlSchemes, List.mem_cons, List.not_mem_nil, or_false] at hp
  rcases hp with rfl | rfl | rfl <;> simp [afterScheme, upTo]

theorem upTo_beforeNul (stop r : List Char) :
    (upTo stop (beforeNul r)).1 = beforeNul (upTo stop r).1 := by
  simp only [upTo, beforeNul, List.takeWhile_takeWhile]
  exact congrArg (List.takeWhile · r) (funext fun c => by simp [Bool.and_comm])

theorem captures_eq_linearScan {s : String} {w : UrlCaptures} (h : urlCaptures (cStr s) = some w) :
    ∃ p ∈ urlSchemes, s.toList = p ++ ':' :: '/' :: '/' :: afterScheme s.toList ∧
      w = linearScan p (beforeNul (afterScheme s.toList)) := by
  obtain ⟨p, hp, c, cs, -, hspace, hs, rfl⟩ := urlCaptures_eq_some_iff.1 h
  rw [scanUrl_eq_linearScan p hspace]
  obtain ⟨t, ht⟩ : cStr s <+: s.toList := List.takeWhile_prefix _
  rw [hs, List.append_assoc] at ht
  have hrest : afterScheme s.toList = c :: cs ++ t := by
    rw [← ht]
    exact afterScheme_append hp _
  refine ⟨p, hp, ?_, ?_⟩
  · rw [hrest, ← ht]
    rfl
  · have hnul : beforeNul s.toList = p ++ ':' :: '/' :: '/' :: beforeNul (c :: cs ++ t) := by
      rw [← ht]
      simp only [urlSchemes, List.mem_cons, List.not_mem_nil, or_false] at hp
      rcases hp with rfl | rfl | rfl <;> simp [beforeNul, upTo]
    rw [← cStr_eq, hs] at hnul
    have heq := List.append_cancel_left hnul
    simp only [List.cons.injEq, true_and] at heq
    rw [hrest, ← heq]

/-! ### Splits by separators -/

theorem upTo_of_subset (stop more : List Char) (h : stop ⊆ more) (s : List Char) :
    (upTo stop s).1 = (upTo more s).1 ++ (upTo stop (upTo more s).2).1 ∧
      (upTo stop s).2 = (upTo stop (upTo more s).2).2 := by
  have htaken : ∀ c ∈ s.takeWhile (· ∉ more), decide (c ∉ stop) = true := by
    intro c hc
    have hmore : c ∉ more := by simpa using List.mem_takeWhile_imp hc
    exact decide_eq_true fun hstop => hmore (h hstop)
  have hs : s.takeWhile (· ∉ more) ++ s.dropWhile (· ∉ more) = s := List.takeWhile_append_dropWhile
  constructor
  · calc s.takeWhile (· ∉ stop)
        = (s.takeWhile (· ∉ more) ++ s.dropWhile (· ∉ more)).takeWhile (· ∉ stop) := by rw [hs]
      _ = s.takeWhile (· ∉ more) ++ (s.dropWhile (· ∉ more)).takeWhile (· ∉ stop) :=
          List.takeWhile_append_of_pos htaken
  · calc s.dropWhile (· ∉ stop)
        = (s.takeWhile (· ∉ more) ++ s.dropWhile (· ∉ more)).dropWhile (· ∉ stop) := by rw [hs]
      _ = (s.dropWhile (· ∉ more)).dropWhile (· ∉ stop) := List.dropWhile_append_of_pos htaken

theorem upTo_takeChar (stop : List Char) (c : Char) (hc : c ∉ stop) (s : List Char) :
    (upTo stop s).1 = takeChar c s ++ (upTo stop (dropChar c s)).1 ∧
      (upTo stop s).2 = (upTo stop (dropChar c s)).2 := by
  cases s with
  | nil => exact ⟨rfl, rfl⟩
  | cons d ds =>
    by_cases h : d = c
    · subst h
      simp [upTo, takeChar, dropChar, hc]
    · simp [takeChar, dropChar, h]

theorem upTo_slash (r : List Char) :
    (upTo ['/'] r).1 =
        hostText r ++ takeChar ':' (upTo ['/', ':'] r).2 ++ portText r ∧
      (upTo ['/'] r).2 = (upTo ['/'] (dropChar ':' (upTo ['/', ':'] r).2)).2 := by
  obtain ⟨htake, hdrop⟩ := upTo_of_subset ['/'] ['/', ':'] (by simp) r
  obtain ⟨hcolon, hrest⟩ := upTo_takeChar ['/'] ':' (by simp) (upTo ['/', ':'] r).2
  rw [htake, hdrop, hcolon, hrest, ← List.append_assoc]
  exact ⟨rfl, rfl⟩

theorem scan_query_eq (s : List Char) :
    (upTo ['#'] (dropChar '?' (upTo ['#', '?'] s).2)).1 = queryText s := by
  induction s with
  | nil => rfl
  | cons c cs ih =>
    by_cases hhash : c = '#'
    · subst hhash
      simp [upTo, dropChar, queryText]
    · by_cases hmark : c = '?'
      · subst hmark
        simp [upTo, dropChar, queryText]
      · simpa [upTo, queryText, hhash, hmark] using ih

theorem queryText_append {a : List Char} (ha : ∀ c ∈ a, c ∉ ['?', '#']) (s : List Char) :
    queryText (a ++ s) = queryText s := by
  have hhash : ∀ c ∈ a, decide (c ∉ ['#']) = true := fun c hc => by
    have h := ha c hc
    simp only [List.mem_cons, List.not_mem_nil, or_false, not_or] at h
    simpa using h.2
  have hmark : ∀ c ∈ a, decide (c ∉ ['?']) = true := fun c hc => by
    have h := ha c hc
    simp only [List.mem_cons, List.not_mem_nil, or_false, not_or] at h
    simpa using h.1
  unfold queryText upTo
  rw [List.takeWhile_append_of_pos hhash, List.dropWhile_append_of_pos hmark]

theorem linearScan_query {p r : List Char} (h : ∀ c ∈ (upTo ['/'] r).1, c ∉ ['?', '#']) :
    (linearScan p r).query = queryText r := by
  have hr : (upTo ['/'] r).1 ++ (upTo ['/'] r).2 = r := List.takeWhile_append_dropWhile
  calc (linearScan p r).query
      = queryText (upTo ['/'] (dropChar ':' (upTo ['/', ':'] r).2)).2 := scan_query_eq _
    _ = queryText (upTo ['/'] r).2 := by rw [(upTo_slash r).2]
    _ = queryText ((upTo ['/'] r).1 ++ (upTo ['/'] r).2) := (queryText_append h _).symm
    _ = queryText r := by rw [hr]

/-- A NUL byte cuts off a part of the query unless it comes after it or there is none. -/
theorem queryText_beforeNul_iff (r : List Char) :
    queryText (beforeNul r) = queryText r ↔ queryText r = [] ∨ '\x00' ∉ (upTo ['#'] r).1 := by
  rw [queryText, upTo_beforeNul, queryText]
  generalize (upTo ['#'] r).1 = a
  induction a with
  | nil => simp [beforeNul, upTo]
  | cons c cs ih =>
    by_cases hnul : c = '\x00'
    · subst hnul
      simp [beforeNul, upTo]
    · by_cases hmark : c = '?'
      · subst hmark
        have hnil : cs = [] → '\x00' ∉ '?' :: cs := by
          rintro rfl
          simp
        have hcut : (upTo ['?'] (beforeNul ('?' :: cs))).2.tail = beforeNul cs := by
          simp [beforeNul, upTo]
        have hall : (upTo ['?'] ('?' :: cs)).2.tail = cs := by simp [upTo]
        rw [hcut, hall, or_iff_right_of_imp hnil, beforeNul, upTo, List.takeWhile_eq_self_iff]
        simp [List.forall_mem_ne']
      · simpa [beforeNul, upTo, hnul, hmark, Ne.symm hnul] using ih

/-! ### Boundaries -/

/-- The components of `u` keep to their boundaries in `s`: the texts of its host and of its port
stand in the authority, the host contains neither `?` nor `#`, and the query is the query of `s`. -/
structure Boundaries (s : String) (u : Url) : Prop where
  authority : ∃ what, urlCaptures (cStr s) = some what ∧
    what.host <+: Url.authority (afterScheme s.toList) ∧
    (what.port ≠ [] → what.host ++ ':' :: what.port <+: Url.authority (afterScheme s.toList))
  host : '?' ∉ u.domain.toList ∧ '#' ∉ u.domain.toList
  query : u.query.toList = queryText (afterScheme s.toList)

/-- In what follows `://`, neither `?` nor `#` stands before the first `/` or NUL byte, and no NUL
byte stands before the end of a query. -/
def MarksInPlace (r : List Char) : Prop :=
  (∀ c ∈ (upTo ['/', '\x00'] r).1, c ∉ ['?', '#']) ∧
    (queryText r = [] ∨ '\x00' ∉ (upTo ['#'] r).1)

-- (instance search would go through all characters instead of the list)
instance (r : List Char) : Decidable (MarksInPlace r) :=
  @instDecidableAnd _ _ (List.decidableBAll _ _) inferInstance

theorem upTo_slash_beforeNul (r : List Char) :
    (upTo ['/'] (beforeNul r)).1 = (upTo ['/', '\x00'] r).1 := by
  simp only [upTo, beforeNul, List.takeWhile_takeWhile]
  exact congrArg (List.takeWhile · r) (funext fun c => by simp)

theorem mem_stop_of_upTo {stop s cs : List Char} {c : Char} (h : (upTo stop s).2 = c :: cs) :
    c ∈ stop := by
  have hhead := List.head?_dropWhile_not (fun c => decide (c ∉ stop)) s
  simp only [upTo] at h
  rw [h] at hhead
  simpa using hhead

theorem takeChar_of_portText {r : List Char} (h : portText r ≠ []) :
    takeChar ':' (upTo ['/', ':'] r).2 = [':'] := by
  unfold portText at h
  cases hd : (upTo ['/', ':'] r).2 with
  | nil =>
    rw [hd] at h
    simp [upTo, dropChar] at h
  | cons d ds =>
    rw [hd] at h
    obtain rfl | rfl : d = '/' ∨ d = ':' := by simpa using mem_stop_of_upTo hd
    · simp [upTo, dropChar] at h
    · rfl

theorem prefix_upTo {stop a s : List Char} (h : a <+: s) (ha : ∀ c ∈ a, c ∉ stop) :
    a <+: (upTo stop s).1 := by
  obtain ⟨t, rfl⟩ := h
  unfold upTo
  rw [List.takeWhile_append_of_pos fun c hc => decide_eq_true (ha c hc)]
  exact List.prefix_append _ _

theorem not_mem_of_mem_upTo {stop s : List Char} {c : Char} (h : c ∈ (upTo stop s).1) :
    c ∉ stop := by
  simpa using List.mem_takeWhile_imp h

/-- The texts of the host and of the port that the parser reads stand in the authority if and only
if no `?` or `#` stands before the first `/`. -/
theorem texts_in_authority_iff (r : List Char) :
    (hostText (beforeNul r) <+: authority r ∧ (portText (beforeNul r) ≠ [] →
      hostText (beforeNul r) ++ ':' :: portText (beforeNul r) <+: authority r)) ↔
    ∀ c ∈ (upTo ['/', '\x00'] r).1, c ∉ ['?', '#'] := by
  obtain ⟨hparts, -⟩ := upTo_slash (beforeNul r)
  rw [upTo_slash_beforeNul] at hparts
  have hsub : ∀ {a : List Char}, a <+: authority r → ∀ c ∈ a, c ∉ ['?', '#'] := by
    intro a ha c hc hmark
    exact not_mem_of_mem_upTo (ha.subset hc) (List.mem_cons_of_mem _ hmark)
  constructor
  · rintro ⟨hhost, hport⟩
    rw [hparts]
    by_cases hnil : portText (beforeNul r) = []
    · have hcolon : takeChar ':' (upTo ['/', ':'] (beforeNul r)).2 ⊆ [':'] := by
        unfold takeChar
        split_ifs <;> simp
      intro c hc hmark
      rw [hnil, List.append_nil, List.mem_append] at hc
      rcases hc with hc | hc
      · exact hsub hhost c hc hmark
      · rw [List.mem_singleton.1 (hcolon hc)] at hmark
        simp at hmark
    · rw [takeChar_of_portText hnil, List.append_assoc]
      exact hsub (hport hnil)
  · intro hmarks
    have hin : (upTo ['/', '\x00'] r).1 <+: authority r := by
      refine prefix_upTo (List.takeWhile_prefix _) fun c hc => ?_
      have hslash := not_mem_of_mem_upTo hc
      have hmark := hmarks c hc
      simp only [List.mem_cons, List.not_mem_nil, or_false, not_or] at hslash hmark ⊢
      exact ⟨hslash.1, hmark⟩
    rw [hparts, List.append_assoc] at hin
    refine ⟨(List.prefix_append _ _).trans hin, fun hne => ?_⟩
    rwa [takeChar_of_portText hne] at hin

/-- **When the components keep to their boundaries.**  For an accepted string they do if and only if
neither `?` nor `#` stands before the first `/` after `://`, and no NUL byte cuts the query. -/
theorem boundaries_iff {s : String} {u : Url} (h : parseResult s = .ok u) :
    Boundaries s u ↔ MarksInPlace (afterScheme s.toList) := by
  obtain ⟨what, hwhat, -, -, -, hd, -, hq, -⟩ := parseResult_eq_ok h
  obtain ⟨p, -, -, hscan⟩ := captures_eq_linearScan hwhat
  have htexts := texts_in_authority_iff (afterScheme s.toList)
  have hquery : (∀ c ∈ (upTo ['/', '\x00'] (afterScheme s.toList)).1, c ∉ ['?', '#']) →
      u.query.toList = queryText (beforeNul (afterScheme s.toList)) := by
    intro hmarks
    rw [hq, String.toList_ofList, hscan]
    exact linearScan_query (by rwa [upTo_slash_beforeNul])
  constructor
  · rintro ⟨⟨w, hw, hin⟩, -, hquery'⟩
    obtain rfl : what = w := Option.some.inj (hwhat.symm.trans hw)
    rw [hscan] at hin
    have hmarks := htexts.1 hin
    exact ⟨hmarks, (queryText_beforeNul_iff _).1 ((hquery hmarks).symm.trans hquery')⟩
  · rintro ⟨hmarks, hnul⟩
    have hin := htexts.2 hmarks
    have hhost : ∀ c, c ∈ ['?', '#'] → c ∉ u.domain.toList := by
      intro c hmark hc
      rw [hd, String.toList_ofList, hscan] at hc
      exact not_mem_of_mem_upTo (hin.1.subset hc) (List.mem_cons_of_mem _ hmark)
    refine ⟨⟨what, hwhat, ?_⟩, ⟨hhost _ (by simp), hhost _ (by simp)⟩, ?_⟩
    · rw [hscan]
      exact hin
    · rw [hquery hmarks]
      exact (queryText_beforeNul_iff _).2 hnul

example : MarksInPlace "h:80/p?q#f".toList ∧ ¬ MarksInPlace "h?q=1".toList := by decide

/-- A url with a path and a query. -/
theorem boundaries_iff_path :
    Boundaries "http://h:80/p?q#f" ⟨"http://h:80/p?q#f", .http, "h", 80, "/p", "", "q"⟩ ↔
      MarksInPlace (afterScheme "http://h:80/p?q#f".toList) :=
  boundaries_iff (by decide +kernel)

/-- Without a path, the query becomes a part of the host. -/
theorem boundaries_fail :
    ¬ ∀ (s : String) (u : Url), parseResult s = .ok u → Boundaries s u := by
  intro h
  have hu := h "http://h?q=1" ⟨"http://h?q=1", .http, "h?q=1", 80, "", "", ""⟩ (by decide +kernel)
  exact hu.host.1 (by decide)

end Url

end MileRpc
