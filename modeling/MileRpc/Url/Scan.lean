import MileRpc.Url.Basic

/-!
# The pattern of a url as a linear scan

The pattern of `Url::Parse` joins six greedy groups by optional separators, so a string has many
splits.  Here the first of them is computed: it is the result of one scan from left to right
(`scanUrl`), and it takes the whole input unless the input contains a space, in which case no other
split does either.  So the pattern never backtracks into a group (`urlCaptures_eq_some_iff`).
-/

namespace MileRpc

/-- The protocol texts the pattern accepts. -/
def urlSchemes : List (List Char) :=
  [['h', 't', 't', 'p'], ['h', 't', 't', 'p', 's'], ['f', 't', 'p']]

/-- `s` without the character `c` at its beginning, if it is there. -/
def dropChar (c : Char) (s : List Char) : List Char := if s.head? = some c then s.tail else s

/-- The character `c` at the beginning of `s`, if it is there. -/
def takeChar (c : Char) (s : List Char) : List Char := if s.head? = some c then [c] else []

/-- What follows the host in a scan. -/
def scanAfterHost (s : List Char) : List Char := dropChar ':' s

/-- What follows the port. -/
def scanAfterPort (s : List Char) : List Char := (scanAfterHost s).dropWhile isPortChar

/-- What follows the path. -/
def scanAfterPath (s : List Char) : List Char :=
  (dropChar '/' (scanAfterPort s)).dropWhile isPathChar

/-- What follows the query. -/
def scanAfterQuery (s : List Char) : List Char :=
  (dropChar '?' (scanAfterPath s)).dropWhile isQueryChar

/-- The components of a url with protocol text `p` and `r` after `://`, by one scan of `r`. -/
def scanUrl (p r : List Char) : UrlCaptures :=
  let s := r.dropWhile isHostChar
  { protocol := p
    host := r.takeWhile isHostChar
    port := (scanAfterHost s).takeWhile isPortChar
    path := takeChar '/' (scanAfterPort s) ++
      (dropChar '/' (scanAfterPort s)).takeWhile isPathChar
    query := (dropChar '?' (scanAfterPath s)).takeWhile isQueryChar
    fragment := (dropChar '#' (scanAfterQuery s)).takeWhile isFragmentChar }

namespace Pattern

theorem head?_optChar (c : Char) (s : List Char) :
    ((opt (chr (· == c))).splits s).head? = some ⟨takeChar c s, dropChar c s, []⟩ := by
  rw [head?_opt_chr]
  cases s with
  | nil => simp [takeChar, dropChar, Split.nothing]
  | cons d ds =>
    by_cases h : d = c
    · simp [takeChar, dropChar, h]
    · simp [takeChar, dropChar, Split.nothing, h]

theorem head?_afterHost (s : List Char) :
    ∃ t, (afterHost.splits s).head? = some
      ⟨t, (dropChar '#' (scanAfterQuery s)).dropWhile isFragmentChar,
        [(3, (scanAfterHost s).takeWhile isPortChar),
         (4, takeChar '/' (scanAfterPort s) ++
            (dropChar '/' (scanAfterPort s)).takeWhile isPathChar),
         (5, (dropChar '?' (scanAfterPath s)).takeWhile isQueryChar),
         (6, (dropChar '#' (scanAfterQuery s)).takeWhile isFragmentChar)]⟩ := by
  have h := head?_seq (head?_optChar ':' s) <|
    head?_seq (head?_group (n := 3) (head?_many isPortChar _)) <|
    head?_seq (head?_group (n := 4) (head?_seq (head?_optChar '/' _) (head?_many isPathChar _))) <|
    head?_seq (head?_optChar '?' _) <|
    head?_seq (head?_group (n := 5) (head?_many isQueryChar _)) <|
    head?_seq (head?_optChar '#' _) (head?_group (n := 6) (head?_many isFragmentChar _))
  exact ⟨_, h⟩

theorem head?_host {c : Char} {cs : List Char} (h : isHostChar c = true) :
    ((group 2 (many1 isHostChar)).splits (c :: cs)).head? =
      some ⟨(c :: cs).takeWhile isHostChar, (c :: cs).dropWhile isHostChar,
        [(2, (c :: cs).takeWhile isHostChar)]⟩ := by
  have h1 := head?_seq (head?_chr cs h) (head?_many isHostChar cs)
  rw [many1, head?_group h1]
  simp [Split.append, h]

theorem head?_proto {p : List Char} (hp : p ∈ urlSchemes) (r : List Char) :
    (proto.splits (p ++ ':' :: r)).head? = some ⟨p, ':' :: r, [(1, p)]⟩ := by
  simp only [urlSchemes, List.mem_cons, List.not_mem_nil, or_false] at hp
  rcases hp with rfl | rfl | rfl <;> rfl

/-- The first split of a url takes everything but what follows a space. -/
theorem head?_url {p : List Char} (hp : p ∈ urlSchemes) {c : Char} (cs : List Char)
    (hc : isHostChar c = true) :
    ∃ a, (url.splits (p ++ ':' :: '/' :: '/' :: c :: cs)).head? = some a ∧
      a.rest = (dropChar '#' (scanAfterQuery ((c :: cs).dropWhile isHostChar))).dropWhile
        isFragmentChar ∧
      (⟨groupText a.caps 1, groupText a.caps 2, groupText a.caps 3, groupText a.caps 4,
        groupText a.caps 5, groupText a.caps 6⟩ : UrlCaptures) = scanUrl p (c :: cs) := by
  obtain ⟨t, ht⟩ := head?_afterHost ((c :: cs).dropWhile isHostChar)
  refine ⟨_, head?_seq (head?_proto hp _) (head?_seq (head?_lit [':', '/', '/'] (c :: cs))
    (head?_seq (head?_host hc) ht)), rfl, ?_⟩
  simp [Split.append, groupText, scanUrl, List.lookup_cons]

theorem proto_taken {s : List Char} {a : Split} (h : a ∈ proto.splits s) :
    a.taken ∈ urlSchemes := by
  obtain ⟨b, hb, rfl⟩ := List.mem_map.1 h
  rcases List.mem_append.1 hb with hb | hb
  · obtain ⟨x, hx, y, hy, rfl⟩ := mem_splits_seq.1 hb
    obtain ⟨-, hx⟩ := mem_splits_lit hx
    rcases List.mem_append.1 hy with hy | hy
    · obtain ⟨c, cs, -, hc, rfl⟩ := mem_splits_chr.1 hy
      rw [hx]
      simp [Split.append, urlSchemes, beq_iff_eq.1 hc]
    · rw [List.mem_singleton.1 hy, hx]
      simp [Split.append, Split.nothing, urlSchemes]
  · obtain ⟨-, hb⟩ := mem_splits_lit hb
    rw [hb]
    simp [urlSchemes]

/-- Every split of a url starts with a protocol, `://` and a host character, and takes no space
after that. -/
theorem url_taken {s : List Char} {a : Split} (h : a ∈ url.splits s) :
    ∃ p ∈ urlSchemes, ∃ c t, isHostChar c = true ∧ ' ' ∉ c :: t ∧
      s = p ++ ':' :: '/' :: '/' :: c :: (t ++ a.rest) := by
  obtain ⟨p, hp, b, hb, rfl⟩ := mem_splits_seq.1 h
  obtain ⟨l, hl, d, hd, rfl⟩ := mem_splits_seq.1 hb
  have hs := append_of_mem_splits hp
  obtain ⟨hl', -⟩ := mem_splits_lit hl
  have hd' := append_of_mem_splits hd
  have hspace : ' ' ∉ d.taken := not_mem_taken (by decide) hd
  obtain ⟨x, hx, y, -, rfl⟩ := mem_splits_seq.1 hd
  obtain ⟨x', hx', rfl⟩ := List.mem_map.1 hx
  obtain ⟨u, hu, v, -, rfl⟩ := mem_splits_seq.1 hx'
  obtain ⟨c, cs, -, hc, rfl⟩ := mem_splits_chr.1 hu
  refine ⟨p.taken, proto_taken hp, c, v.taken ++ y.taken, hc, by simpa [Split.append] using hspace,
    ?_⟩
  simp only [Split.append, List.append_assoc, List.cons_append, List.nil_append] at hd' ⊢
  rw [← hs, hl', ← hd']
  rfl

end Pattern

theorem dropChar_suffix (c : Char) (s : List Char) : dropChar c s <:+ s := by
  unfold dropChar
  split_ifs
  · exact List.tail_suffix s
  · exact List.suffix_refl s

theorem scanAfterQuery_suffix (s : List Char) : scanAfterQuery s <:+ s :=
  (List.dropWhile_suffix _).trans <| (dropChar_suffix _ _).trans <|
  (List.dropWhile_suffix _).trans <| (dropChar_suffix _ _).trans <|
  (List.dropWhile_suffix _).trans (dropChar_suffix _ _)

theorem Pattern.head?_url_whole {p : List Char} (hp : p ∈ urlSchemes) {c : Char} {cs : List Char}
    (hc : isHostChar c = true) (hspace : ' ' ∉ c :: cs) :
    ∃ a, (url.splits (p ++ ':' :: '/' :: '/' :: c :: cs)).head? = some a ∧ a.rest = [] ∧
      (⟨groupText a.caps 1, groupText a.caps 2, groupText a.caps 3, groupText a.caps 4,
        groupText a.caps 5, groupText a.caps 6⟩ : UrlCaptures) = scanUrl p (c :: cs) := by
  obtain ⟨a, ha, hrest, hcaps⟩ := Pattern.head?_url hp cs hc
  -- a space is all that could be left of the input
  have hsub : ∀ d ∈ dropChar '#' (scanAfterQuery ((c :: cs).dropWhile isHostChar)),
      isFragmentChar d = true := by
    intro d hd
    have hd' : d ∈ c :: cs :=
      ((dropChar_suffix _ _).trans ((scanAfterQuery_suffix _).trans
        (List.dropWhile_suffix _))).subset hd
    simp only [isFragmentChar, bne_iff_ne, ne_eq]
    rintro rfl
    exact hspace hd'
  exact ⟨a, ha, hrest.trans (List.dropWhile_eq_nil_iff.2 hsub), hcaps⟩

/-- **The pattern of a url is a linear scan.**  It matches exactly the strings that consist of a
protocol, `://` and a text without spaces that begins with a host character, and its groups are
those of the scan. -/
theorem urlCaptures_eq_some_iff {s : List Char} {w : UrlCaptures} :
    urlCaptures s = some w ↔ ∃ p ∈ urlSchemes, ∃ c cs, isHostChar c = true ∧ ' ' ∉ c :: cs ∧
      s = p ++ ':' :: '/' :: '/' :: c :: cs ∧ w = scanUrl p (c :: cs) := by
  have key : ∀ p ∈ urlSchemes, ∀ c cs, isHostChar c = true → ' ' ∉ c :: cs →
      urlCaptures (p ++ ':' :: '/' :: '/' :: c :: cs) = some (scanUrl p (c :: cs)) := by
    intro p hp c cs hc hspace
    obtain ⟨a, ha, hrest, hcaps⟩ := Pattern.head?_url_whole hp hc hspace
    rw [urlCaptures, Pattern.fullMatch_of_head? ha hrest, Option.map_some, hcaps]
  constructor
  · -- some split takes the whole input, so the first one does
    intro h
    obtain ⟨caps, hcaps, -⟩ := Option.map_eq_some_iff.1 h
    obtain ⟨a, ha, hrest⟩ := Pattern.fullMatch_isSome_iff.1 (Option.isSome_of_eq_some hcaps)
    obtain ⟨p, hp, c, t, hc, hspace, rfl⟩ := Pattern.url_taken ha
    rw [hrest, List.append_nil] at h ⊢
    rw [key p hp c t hc hspace] at h
    exact ⟨p, hp, c, t, hc, hspace, rfl, (Option.some.inj h).symm⟩
  · rintro ⟨p, hp, c, cs, hc, hspace, rfl, rfl⟩
    exact key p hp c cs hc hspace

/-! ### The scan in terms of separators -/

/-- The longest part at the beginning of `s` without a character of `stop`, and what follows it. -/
def upTo (stop s : List Char) : List Char × List Char :=
  (s.takeWhile (· ∉ stop), s.dropWhile (· ∉ stop))

/-- One scan of `r` from left to right, in which each part is as long as it can be: the host up to
the first `/` or `:`, an optional `:`, the port up to the first `/`, the path up to the first `#`
or `?`, an optional `?`, the query up to the first `#`, an optional `#` and the fragment. -/
def linearScan (protocol r : List Char) : UrlCaptures :=
  let host := upTo ['/', ':'] r
  let port := upTo ['/'] (dropChar ':' host.2)
  let path := upTo ['#', '?'] port.2
  let query := upTo ['#'] (dropChar '?' path.2)
  { protocol, host := host.1, port := port.1, path := path.1, query := query.1,
    fragment := dropChar '#' query.2 }

theorem upTo_snd_suffix (stop s : List Char) : (upTo stop s).2 <:+ s := List.dropWhile_suffix _

/-- On a text without spaces the class of a group is what its separators leave. -/
theorem span_eq_upTo (stop : List Char) (p : Char → Bool) {s : List Char} (hs : ' ' ∉ s)
    (hp : ∀ c, c ≠ ' ' → (p c = true ↔ c ∉ stop)) :
    s.takeWhile p = (upTo stop s).1 ∧ s.dropWhile p = (upTo stop s).2 := by
  unfold upTo
  induction s with
  | nil => exact ⟨rfl, rfl⟩
  | cons c cs ih =>
    rw [List.mem_cons, not_or] at hs
    have hc := hp c fun h => hs.1 h.symm
    have hcs := ih hs.2
    by_cases hstop : c ∈ stop
    · have hpc : p c = false := by simpa [hstop] using hc
      simp [hpc, hstop]
    · have hpc : p c = true := by simpa [hstop] using hc
      simpa [hpc, hstop] using hcs

theorem path_eq_upTo {s : List Char} (hs : ' ' ∉ s) :
    takeChar '/' s ++ (dropChar '/' s).takeWhile isPathChar = (upTo ['#', '?'] s).1 ∧
      (dropChar '/' s).dropWhile isPathChar = (upTo ['#', '?'] s).2 := by
  have hspan := span_eq_upTo ['#', '?'] isPathChar hs fun c hc => by
    simp [isPathChar, hc]
  rw [← hspan.1, ← hspan.2]
  cases s with
  | nil => exact ⟨rfl, rfl⟩
  | cons c cs =>
    by_cases h : c = '/'
    · subst h
      have hslash : isPathChar '/' = true := rfl
      simp [takeChar, dropChar, hslash]
    · simp [takeChar, dropChar, h]

/-- On a text without spaces the groups of the pattern are those of the linear scan. -/
theorem scanUrl_eq_linearScan (p : List Char) {r : List Char} (hr : ' ' ∉ r) :
    scanUrl p r = linearScan p r := by
  have hspace : ∀ {s t : List Char}, s <:+ t → ' ' ∉ t → ' ' ∉ s := fun hst ht h =>
    ht (hst.subset h)
  -- the parts from left to right, each on a text without spaces
  obtain ⟨hhost, h1⟩ := span_eq_upTo ['/', ':'] isHostChar hr fun c hc => by
    simp [isHostChar, hc]
  have hr1 := hspace (dropChar_suffix ':' _) (hspace (upTo_snd_suffix ['/', ':'] r) hr)
  obtain ⟨hport, h2⟩ := span_eq_upTo ['/'] isPortChar hr1 fun c hc => by
    simp [isPortChar, hc]
  have hr2 := hspace (upTo_snd_suffix ['/'] _) hr1
  obtain ⟨hpath, h3⟩ := path_eq_upTo hr2
  have hr3 := hspace (dropChar_suffix '?' _) (hspace (upTo_snd_suffix ['#', '?'] _) hr2)
  obtain ⟨hquery, h4⟩ := span_eq_upTo ['#'] isQueryChar hr3 fun c hc => by
    simp [isQueryChar, hc]
  have hr4 := hspace (dropChar_suffix '#' _) (hspace (upTo_snd_suffix ['#'] _) hr3)
  have hfragment : ∀ c ∈ dropChar '#' (upTo ['#'] (dropChar '?' (upTo ['#', '?']
      (upTo ['/'] (dropChar ':' (upTo ['/', ':'] r).2)).2).2)).2, isFragmentChar c = true := by
    intro c hc
    simp only [isFragmentChar, bne_iff_ne, ne_eq]
    rintro rfl
    exact hr4 hc
  simp only [scanUrl, linearScan, scanAfterQuery, scanAfterPath, scanAfterPort, scanAfterHost,
    hhost, h1, hport, h2, hpath, h3, hquery, h4, List.takeWhile_eq_self_iff.2 hfragment]

theorem isHostChar_iff {c : Char} {cs : List Char} (hspace : ' ' ∉ c :: cs) :
    isHostChar c = true ↔ c ≠ '/' ∧ c ≠ ':' := by
  have hc : c ≠ ' ' := fun h => hspace (h ▸ List.mem_cons_self)
  simp [isHostChar, hc]

/-- **The pattern is a linear scan.**  It matches exactly a protocol, `://` and a text without
spaces that begins with neither `/` nor `:`, and its groups are those of the linear scan.  They come
from the first split: it takes the whole string, so that the matcher never backtracks. -/
theorem url_pattern_linear (s : String) (hs : NulFree s) :
    (∀ w, urlCaptures (cStr s) = some w ↔ ∃ p ∈ urlSchemes, ∃ c r, c ≠ '/' ∧ c ≠ ':' ∧
      ' ' ∉ c :: r ∧ s.toList = p ++ ':' :: '/' :: '/' :: c :: r ∧ w = linearScan p (c :: r)) ∧
    ((urlCaptures (cStr s)).isSome = true →
      ∃ a, (Pattern.url.splits (cStr s)).head? = some a ∧ a.taken = cStr s ∧
        Pattern.url.fullMatch (cStr s) = some a.caps) := by
  rw [cStr_of_nulFree hs]
  refine ⟨fun w => urlCaptures_eq_some_iff.trans ⟨?_, ?_⟩, fun hsome => ?_⟩
  · rintro ⟨p, hp, c, r, hc, hspace, heq, rfl⟩
    rw [isHostChar_iff hspace] at hc
    exact ⟨p, hp, c, r, hc.1, hc.2, hspace, heq, scanUrl_eq_linearScan p hspace⟩
  · rintro ⟨p, hp, c, r, hslash, hcolon, hspace, heq, rfl⟩
    exact ⟨p, hp, c, r, (isHostChar_iff hspace).2 ⟨hslash, hcolon⟩, hspace, heq,
      (scanUrl_eq_linearScan p hspace).symm⟩
  · obtain ⟨w, hw⟩ := Option.isSome_iff_exists.1 hsome
    obtain ⟨p, hp, c, r, hc, hspace, heq, -⟩ := urlCaptures_eq_some_iff.1 hw
    obtain ⟨a, ha, hrest, -⟩ := Pattern.head?_url_whole hp hc hspace
    rw [heq]
    have happend := Pattern.append_of_mem_splits (List.mem_of_head? ha)
    rw [hrest, List.append_nil] at happend
    exact ⟨a, ha, happend, Pattern.fullMatch_of_head? ha hrest⟩

/-- A url with every component. -/
theorem url_pattern_linear_full :
    (∀ w, urlCaptures (cStr "http://h:80/p?q#f") = some w ↔ ∃ p ∈ urlSchemes, ∃ c r, c ≠ '/' ∧
      c ≠ ':' ∧ ' ' ∉ c :: r ∧ "http://h:80/p?q#f".toList = p ++ ':' :: '/' :: '/' :: c :: r ∧
      w = linearScan p (c :: r)) ∧
    ((urlCaptures (cStr "http://h:80/p?q#f")).isSome = true →
      ∃ a, (Pattern.url.splits (cStr "http://h:80/p?q#f")).head? = some a ∧
        a.taken = cStr "http://h:80/p?q#f" ∧
        Pattern.url.fullMatch (cStr "http://h:80/p?q#f") = some a.caps) :=
  url_pattern_linear "http://h:80/p?q#f" (by simp [NulFree])

/-! ### The components of an accepted url -/

theorem space_not_mem_captures {s : List Char} {w : UrlCaptures} (h : urlCaptures s = some w) :
    ' ' ∉ w.host ∧ ' ' ∉ w.path := by
  obtain ⟨p, -, c, cs, -, -, -, rfl⟩ := urlCaptures_eq_some_iff.1 h
  constructor
  · intro hm
    have := List.mem_takeWhile_imp hm
    simp [isHostChar] at this
  · intro hm
    simp only [scanUrl, List.mem_append] at hm
    rcases hm with hm | hm
    · unfold takeChar at hm
      split_ifs at hm <;> simp at hm
    · have := List.mem_takeWhile_imp hm
      simp [isPathChar] at this

end MileRpc
