import MileRpc.Url.Port

/-!
# The resource of a url

What a url string addresses, read from the string itself and not from the components that the parser
captures: the protocol, the host header and the target of a request for the url without its
fragment.

The parser takes the host and the path from the string up to its first NUL byte, and ends neither
the host nor the port at a `#` or `?`.  `resource_captured_iff` says for which strings the captured
protocol, host and path alone are the resource.
-/

namespace MileRpc

/-- What a request addresses: its protocol, its host header and its target. -/
structure Resource where
  scheme : List Char
  host : List Char
  target : List Char
  deriving DecidableEq, Repr

namespace Url

/-- The url without its fragment. -/
def withoutFragment (s : List Char) : List Char := (upTo ['#'] s).1

/-- The port text is absent, or the decimal number of the port of the protocol. -/
def IsDefaultPort (default : ℕ) (p : List Char) : Prop :=
  p = [] ∨ (∀ c ∈ p, c.isDigit = true) ∧ decimalValue p = default

instance (default : ℕ) (p : List Char) : Decidable (IsDefaultPort default p) := by
  unfold IsDefaultPort; infer_instance

/-- The host header of an authority: its host, with `:` and its port unless that is the default. -/
def hostHeader (default : ℕ) (authority : List Char) : List Char :=
  hostText authority ++
    if IsDefaultPort default (portText authority) then [] else ':' :: portText authority

/-- The target of what follows the authority: the path (`/` if it is empty), with `?` and the query
if there is one. -/
def originForm (r : List Char) : List Char := if r.head? = some '/' then r else '/' :: r

/-- The resource of a url. -/
def resource (s : List Char) : Resource :=
  let r := afterScheme (withoutFragment s)
  { scheme := schemeText s
    host := hostHeader (schemePort s) (upTo ['/', '?'] r).1
    target := originForm (upTo ['/', '?'] r).2 }

/-- Before the fragment stand neither a `?` nor a NUL byte, the port is the default one, and there
is a path.  (A port that is cut off by a fragment has one too, if the fragment happens to hold a
`/` and the parser takes nothing more for the path.) -/
def PlainResource (s : List Char) : Prop :=
  let r := afterScheme (withoutFragment s)
  '?' ∉ r ∧ '\x00' ∉ r ∧ IsDefaultPort (schemePort s) (portText r) ∧
    ('/' ∈ r ∨ ':' ∈ r ∧ (linearScan [] (beforeNul (afterScheme s))).path = ['/'])

instance (s : List Char) : Decidable (PlainResource s) := by unfold PlainResource; infer_instance

/-! ### What stands where -/

theorem upTo_append (stop s : List Char) : (upTo stop s).1 ++ (upTo stop s).2 = s :=
  List.takeWhile_append_dropWhile

theorem upTo_append_of_mem {stop a : List Char} {c : Char} (hc : c ∈ a) (hstop : c ∈ stop)
    (b : List Char) :
    (upTo stop (a ++ b)).1 = (upTo stop a).1 ∧ (upTo stop (a ++ b)).2 = (upTo stop a).2 ++ b := by
  induction a with
  | nil => exact absurd hc List.not_mem_nil
  | cons d ds ih =>
    by_cases hd : d ∈ stop
    · simp [upTo, hd]
    · have hne : c ≠ d := fun h => hd (h ▸ hstop)
      simpa [upTo, hd] using ih ((List.mem_cons.1 hc).resolve_left hne)

theorem upTo_of_forall {stop s : List Char} (h : ∀ c ∈ s, c ∉ stop) : upTo stop s = (s, []) := by
  have hs : ∀ c ∈ s, decide (c ∉ stop) = true := fun c hc => decide_eq_true (h c hc)
  rw [upTo, List.takeWhile_eq_self_iff.2 hs, List.dropWhile_eq_nil_iff.2 hs]

theorem afterScheme_withoutFragment {p : List Char} (hp : p ∈ urlSchemes) (r : List Char) :
    afterScheme (withoutFragment (p ++ ':' :: '/' :: '/' :: r)) = (upTo ['#'] r).1 := by
  simp only [urlSchemes, List.mem_cons, List.not_mem_nil, or_false] at hp
  rcases hp with rfl | rfl | rfl <;> simp [withoutFragment, afterScheme, upTo]

theorem schemeText_append {p : List Char} (hp : p ∈ urlSchemes) (r : List Char) :
    schemeText (p ++ ':' :: r) = p := by
  simp only [urlSchemes, List.mem_cons, List.not_mem_nil, or_false] at hp
  rcases hp with rfl | rfl | rfl <;> simp [schemeText, upTo]

/-- Host and port are read from what stands before the first `/`. -/
theorem texts_upTo_slash (r : List Char) :
    hostText (upTo ['/'] r).1 = hostText r ∧ portText (upTo ['/'] r).1 = portText r := by
  induction r with
  | nil => exact ⟨rfl, rfl⟩
  | cons c cs ih =>
    by_cases hslash : c = '/'
    · subst hslash
      simp [upTo, hostText]
    · have hcons : (upTo ['/'] (c :: cs)).1 = c :: (upTo ['/'] cs).1 := by simp [upTo, hslash]
      rw [hcons]
      by_cases hcolon : c = ':'
      · subst hcolon
        have hnone : ∀ c ∈ (upTo ['/'] cs).1, c ∉ ['/'] := fun c hc => not_mem_of_mem_upTo hc
        rw [portText_colon, portText_colon, upTo_of_forall hnone]
        simp [hostText, upTo]
      · rw [hostText_cons hslash hcolon, hostText_cons hslash hcolon, portText_cons hslash hcolon,
          portText_cons hslash hcolon, ih.1, ih.2]
        exact ⟨rfl, rfl⟩

theorem linearScan_path (p r : List Char) :
    (linearScan p r).path = (upTo ['#', '?'] (upTo ['/'] r).2).1 := by
  rw [(upTo_slash r).2]
  rfl

theorem hostText_subset (r : List Char) : hostText r ⊆ r := List.takeWhile_subset _

theorem path_subset (p r : List Char) : (linearScan p r).path ⊆ r := by
  rw [linearScan_path]
  exact List.Subset.trans (List.takeWhile_subset _) (upTo_snd_suffix ['/'] r).subset

theorem mem_originForm {c : Char} {r : List Char} (h : c ∈ r) : c ∈ originForm r := by
  unfold originForm
  split_ifs
  · exact h
  · exact List.mem_cons_of_mem _ h

/-- What is neither a colon nor a digit stays in the host header of an authority. -/
theorem mem_hostHeader (default : ℕ) {c : Char} {a : List Char} (h : c ∈ a) (hslash : '/' ∉ a)
    (hcolon : c ≠ ':') (hdigit : c.isDigit = false) : c ∈ hostHeader default a := by
  have ha : (upTo ['/'] a).1 = a := by
    rw [upTo_of_forall fun d hd => by simpa using fun heq : d = '/' => hslash (heq ▸ hd)]
  have hparts := (upTo_slash a).1
  rw [ha] at hparts
  rw [hparts, List.mem_append, List.mem_append] at h
  unfold hostHeader
  rcases h with (h | h) | h
  · exact List.mem_append_left _ h
  · exfalso
    unfold takeChar at h
    split_ifs at h
    · exact hcolon (List.mem_singleton.1 h)
    · exact List.not_mem_nil h
  · refine List.mem_append_right _ ?_
    rw [if_neg]
    · exact List.mem_cons_of_mem _ h
    · rintro (hnil | ⟨hdigits, -⟩)
      · exact List.not_mem_nil (hnil ▸ h)
      · exact absurd (hdigits c h) (by simp [hdigit])

theorem hostText_eq_hostHeader_iff (default : ℕ) (a : List Char) :
    hostText a = hostHeader default a ↔ IsDefaultPort default (portText a) := by
  unfold hostHeader
  rw [List.self_eq_append_right]
  split_ifs with h <;> simp [h]

/-! ### The captured components -/

section Parts

variable {default : ℕ} {r t : List Char}

theorem upTo_eq_self {stop s : List Char} (h : ∀ c ∈ stop, c ∉ s) : upTo stop s = (s, []) :=
  upTo_of_forall fun c hc hstop => h c hstop hc

/-- What follows a `/` is the target, up to the fragment. -/
theorem path_eq_originForm (hmark : '?' ∉ r) (hhash : '#' ∉ r)
    (ht : t = [] ∨ ∃ t', t = '#' :: t') (hslash : '/' ∈ r) :
    (linearScan [] (r ++ t)).path = originForm (upTo ['/'] r).2 := by
  obtain ⟨cs, hcs⟩ : ∃ cs, (upTo ['/'] r).2 = '/' :: cs := by
    cases hr : (upTo ['/'] r).2 with
    | nil =>
      have hall := upTo_append ['/'] r
      rw [hr, List.append_nil] at hall
      exact absurd (List.mem_singleton_self _) (not_mem_of_mem_upTo (hall.symm ▸ hslash))
    | cons c cs =>
      obtain rfl := List.mem_singleton.1 (mem_stop_of_upTo hr)
      exact ⟨cs, rfl⟩
  have hsub : '/' :: cs ⊆ r := hcs ▸ (upTo_snd_suffix ['/'] r).subset
  have hnone : ∀ c ∈ '/' :: cs, decide (c ∉ ['#', '?']) = true := by
    intro c hc
    simp only [List.mem_cons, List.not_mem_nil, or_false, not_or, decide_eq_true_eq]
    exact ⟨fun h => hhash (h ▸ hsub hc), fun h => hmark (h ▸ hsub hc)⟩
  rw [linearScan_path, (upTo_append_of_mem hslash (List.mem_singleton_self _) t).2, hcs]
  simp only [upTo, originForm, List.head?_cons, ↓reduceIte]
  rw [List.takeWhile_append_of_pos hnone]
  rcases ht with rfl | ⟨t', rfl⟩ <;> simp

/-- Without a separator before it the fragment is a part of the host, and there is no other path. -/
theorem captured_ne_of_bare (hslash : '/' ∉ r) (hcolon : ':' ∉ r) (hhash : '#' ∉ r)
    (ht : t = [] ∨ ∃ t', t = '#' :: t') (hhost : hostText (r ++ t) = hostHeader default r) :
    (linearScan [] (r ++ t)).path ≠ ['/'] := by
  have hbare : ∀ c ∈ ['/', ':'], c ∉ r := by
    simp [hslash, hcolon]
  rcases ht with rfl | ⟨t', rfl⟩
  · have hnone : upTo ['/'] r = (r, []) := upTo_eq_self (by simpa using hslash)
    rw [linearScan_path, List.append_nil, hnone]
    simp [upTo]
  · exfalso
    have hpre : r ++ ['#'] <+: r ++ '#' :: t' := ⟨t', by simp⟩
    have hmem : '#' ∈ hostText (r ++ '#' :: t') := by
      refine (prefix_upTo hpre fun c hc hstop => ?_).subset (by simp)
      rcases List.mem_append.1 hc with hc | hc
      · exact hbare c hstop hc
      · rw [List.mem_singleton.1 hc] at hstop
        simp at hstop
    have hport : portText r = [] := by
      rw [portText, upTo_eq_self hbare]
      rfl
    rw [hhost, hostHeader, hport, if_pos (.inl rfl), List.append_nil] at hmem
    exact hhash (hostText_subset r hmem)

/-- Without a `?` before the fragment, the host and the path that the parser captures are the host
header and the target if and only if the port is the default one and a path is there. -/
theorem captured_iff (hmark : '?' ∉ r) (hhash : '#' ∉ r) (ht : t = [] ∨ ∃ t', t = '#' :: t') :
    (hostText (r ++ t) = hostHeader default (upTo ['/'] r).1 ∧
        (linearScan [] (r ++ t)).path = originForm (upTo ['/'] r).2) ↔
      IsDefaultPort default (portText r) ∧
        ('/' ∈ r ∨ ':' ∈ r ∧ (linearScan [] (r ++ t)).path = ['/']) := by
  obtain ⟨hhost, hport⟩ := texts_upTo_slash r
  have hheader : hostText r = hostHeader default (upTo ['/'] r).1 ↔
      IsDefaultPort default (portText r) := by
    rw [← hhost, ← hport]
    exact hostText_eq_hostHeader_iff _ _
  by_cases hslash : '/' ∈ r
  · have hsame : hostText (r ++ t) = hostText r := (upTo_append_of_mem hslash (by simp) t).1
    rw [hsame, hheader]
    simp [hslash, path_eq_originForm hmark hhash ht hslash]
  · have hnone : upTo ['/'] r = (r, []) := upTo_eq_self (by simpa using hslash)
    have hform : originForm (upTo ['/'] r).2 = ['/'] := by rw [hnone]; rfl
    rw [hform]
    by_cases hcolon : ':' ∈ r
    · have hsame : hostText (r ++ t) = hostText r := (upTo_append_of_mem hcolon (by simp) t).1
      rw [hsame, hheader]
      simp [hslash, hcolon]
    · simp only [hslash, hcolon, false_and, or_self, and_false, iff_false]
      rintro ⟨hhost', hpath'⟩
      rw [hnone] at hhost'
      exact captured_ne_of_bare hslash hcolon hhash ht hhost' hpath'

/-- What a C string keeps of a text without NUL bytes before its fragment. -/
theorem beforeNul_eq_append (hnul : '\x00' ∉ (upTo ['#'] r).1) :
    ∃ t, beforeNul r = (upTo ['#'] r).1 ++ t ∧ (t = [] ∨ ∃ t', t = '#' :: t') := by
  have hall : ∀ c ∈ (upTo ['#'] r).1, decide (c ∉ ['\x00']) = true := fun c hc => by
    simpa using fun h : c = '\x00' => hnul (h ▸ hc)
  refine ⟨beforeNul (upTo ['#'] r).2, ?_, ?_⟩
  · conv_lhs => rw [← upTo_append ['#'] r]
    exact List.takeWhile_append_of_pos hall
  · cases hr : (upTo ['#'] r).2 with
    | nil => exact .inl rfl
    | cons c cs =>
      obtain rfl := List.mem_singleton.1 (mem_stop_of_upTo hr)
      exact .inr ⟨_, beforeNul_cons (by decide) cs⟩

/-- A `?` or a NUL byte before the fragment is a part of the resource, but of no captured host or
path. -/
theorem clean_of_captured {a : List Char}
    (hhost : hostText (beforeNul r) = hostHeader default (upTo ['/', '?'] a).1)
    (hpath : (linearScan [] (beforeNul r)).path = originForm (upTo ['/', '?'] a).2) :
    '?' ∉ a ∧ '\x00' ∉ a := by
  have hsplit : ∀ {c}, c ∈ a → c ∈ (upTo ['/', '?'] a).1 ∨ c ∈ (upTo ['/', '?'] a).2 := by
    intro c hc
    rwa [← upTo_append ['/', '?'] a, List.mem_append] at hc
  have hcut : '\x00' ∉ beforeNul r := fun h => not_mem_of_mem_upTo h (by simp)
  constructor
  · intro h
    rcases hsplit h with h | h
    · exact not_mem_of_mem_upTo h (by simp)
    · have hmem := mem_originForm h
      rw [← hpath, linearScan_path] at hmem
      exact not_mem_of_mem_upTo hmem (by simp)
  · intro h
    rcases hsplit h with h | h
    · have hslash : '/' ∉ (upTo ['/', '?'] a).1 := fun h => not_mem_of_mem_upTo h (by simp)
      have hmem := mem_hostHeader default h hslash (by decide) (by decide)
      rw [← hhost] at hmem
      exact hcut (hostText_subset _ hmem)
    · have hmem := mem_originForm h
      rw [← hpath] at hmem
      exact hcut (path_subset [] _ hmem)

theorem upTo_slash_of_not_mem (hmark : '?' ∉ r) : upTo ['/', '?'] r = upTo ['/'] r := by
  obtain ⟨h1, h2⟩ := upTo_of_subset ['/'] ['/', '?'] (by simp) r
  have hrest : upTo ['/'] (upTo ['/', '?'] r).2 = ([], (upTo ['/', '?'] r).2) := by
    cases hr : (upTo ['/', '?'] r).2 with
    | nil => rfl
    | cons c cs =>
      have hc : c ∈ r := (upTo_snd_suffix ['/', '?'] r).subset (by rw [hr]; simp)
      obtain rfl | rfl : c = '/' ∨ c = '?' := by simpa using mem_stop_of_upTo hr
      · simp [upTo]
      · exact absurd hc hmark
  rw [hrest] at h1 h2
  exact Prod.ext (by simpa using h1.symm) h2.symm

/-- **When the captured components are the resource.** -/
theorem resource_captured_iff {p : List Char} (hp : p ∈ urlSchemes) (r : List Char) :
    ⟨p, (linearScan p (beforeNul r)).host, (linearScan p (beforeNul r)).path⟩ =
        resource (p ++ ':' :: '/' :: '/' :: r) ↔
      PlainResource (p ++ ':' :: '/' :: '/' :: r) := by
  have hhost : (linearScan p (beforeNul r)).host = hostText (beforeNul r) := rfl
  have hpath : (linearScan p (beforeNul r)).path = (linearScan [] (beforeNul r)).path := rfl
  simp only [resource, PlainResource, afterScheme_withoutFragment hp, schemeText_append hp,
    afterScheme_append hp, Resource.mk.injEq, true_and, hhost, hpath]
  have hhash : '#' ∉ (upTo ['#'] r).1 := fun h => not_mem_of_mem_upTo h (by simp)
  constructor
  · intro h
    obtain ⟨hmark, hnul⟩ := clean_of_captured h.1 h.2
    obtain ⟨t, ht, htail⟩ := beforeNul_eq_append hnul
    rw [upTo_slash_of_not_mem hmark, ht] at h
    rw [ht]
    exact ⟨hmark, hnul, (captured_iff hmark hhash htail).1 h⟩
  · rintro ⟨hmark, hnul, h⟩
    obtain ⟨t, ht, htail⟩ := beforeNul_eq_append hnul
    rw [ht] at h
    rw [upTo_slash_of_not_mem hmark, ht]
    exact (captured_iff hmark hhash htail).2 h

end Parts

example : PlainResource "http://h:80/p#f?g".toList ∧ ¬ PlainResource "http://h/p?q=1".toList ∧
    ¬ PlainResource "https://h:80/p".toList ∧ ¬ PlainResource "http://h".toList := by decide

end Url

end MileRpc
