import MileRpc.Effect.Monitor

/-!
# Programs that know their past

A run is grounded when each of its events is justified by those before it: `J h e` says that the
event `e` may follow the history `h` (`Grounded`).  The monitor of that remembers the whole history
(`Since`).

What a program knows of its past stays true, whatever happens next (`Fact`).
`Prog.Learns J K V x` : after a history with the fact `K`, all the events of `x` are justified, and
if it returns `a`, then the history has the fact `V a` too.  In a sequence each part knows what the
parts before it have learned (`Prog.Learns.bind`), so the value of one part can justify an event of
another one.
-/

namespace MileRpc

variable {σ E ε ω α β : Type}

/-! ### Histories -/

/-- Every event is justified by those before it. -/
def Grounded (J : List E → E → Prop) (t : List E) : Prop := ∀ u e v, t = u ++ e :: v → J u e

/-- The monitor that remembers the history: every event that it reads is justified. -/
def Since (J : List E → E → Prop) (h t h' : List E) : Prop :=
  h' = h ++ t ∧ ∀ u e v, t = u ++ e :: v → J (h ++ u) e

theorem Since.singleton {J : List E → E → Prop} {h : List E} {e : E} (he : J h e) :
    Since J h [e] (h ++ [e]) := by
  refine ⟨rfl, fun u e' v heq => ?_⟩
  obtain ⟨rfl, hrest⟩ | ⟨u', rfl, hrest⟩ := List.cons_eq_append_iff.1 heq
  · obtain ⟨rfl, -⟩ := List.cons.inj hrest
    simpa using he
  · simp at hrest

instance (J : List E → E → Prop) : Monitor (Since J) where
  nil h := ⟨by simp, fun u e v heq => by simp at heq⟩
  append {h h₁ h₂ t u} ht hu := by
    obtain ⟨rfl, ht⟩ := ht
    obtain ⟨rfl, hu⟩ := hu
    refine ⟨by simp, fun a e v heq => ?_⟩
    obtain ⟨b, rfl, hrest⟩ | ⟨b, rfl, hrest⟩ := List.append_eq_append_iff.1 heq
    · rw [← List.append_assoc]
      exact hu b e v hrest
    · cases b with
      | nil =>
        have h := hu [] e v (by simpa using hrest.symm)
        simpa using h
      | cons e' b =>
        obtain ⟨rfl, rfl⟩ := List.cons.inj hrest
        exact ht a e b rfl

/-- A property of the past that stays true. -/
structure Fact (E : Type) where
  holds : List E → Prop
  persists : ∀ {h : List E} (t : List E), holds h → holds (h ++ t)

namespace Fact

instance : CoeFun (Fact E) fun _ => List E → Prop := ⟨Fact.holds⟩

/-- A fact that does not depend on the past. -/
def always (p : Prop) : Fact E := ⟨fun _ => p, fun _ hp => hp⟩

/-- The event has happened. -/
def seen (e : E) : Fact E := ⟨fun h => e ∈ h, fun _ he => List.mem_append_left _ he⟩

def and (K L : Fact E) : Fact E :=
  ⟨fun h => K h ∧ L h, fun t h => ⟨K.persists t h.1, L.persists t h.2⟩⟩

/-- One of two facts. -/
def or (K L : Fact E) : Fact E :=
  ⟨fun h => K h ∨ L h, fun t h => h.imp (K.persists t) (L.persists t)⟩

/-- Some of these facts. -/
def any {ι : Type} (K : ι → Fact E) : Fact E :=
  ⟨fun h => ∃ i, K i h, fun t ⟨i, h⟩ => ⟨i, (K i).persists t h⟩⟩

end Fact

/-! ### Programs -/

namespace Prog

/-- After a history with the fact `K`, all the events of `x` are justified, and a value `a` that it
returns comes with the fact `V a`. -/
def Learns (J : List E → E → Prop) (K : Fact E) (V : α → Fact E) (x : Prog σ E ε ω α) : Prop :=
  x.Follows (Since J) (fun _ => K) fun o _ h => K h ∧ ∀ a, o = .ret a → V a h

namespace Learns

variable {J : List E → E → Prop} {K L : Fact E} {V : α → Fact E} {B : β → Fact E}
  {x : Prog σ E ε ω α} {f : α → Prog σ E ε ω β}

theorem grounded (hx : x.Learns J K V) (hK : K []) (s : σ) : Grounded J (x s).trace := by
  obtain ⟨h, ⟨-, hjust⟩, -⟩ := hx s [] hK
  exact fun u e v heq => hjust u e v heq

/-- A program may know more, and tell less. -/
theorem mono {V' : α → Fact E} (hx : x.Learns J K V) (hK : ∀ h, L h → K h)
    (hV : ∀ a h, L h → V a h → V' a h) : x.Learns J L V' := by
  intro s h hL
  obtain ⟨h', ⟨rfl, hjust⟩, -, hret⟩ := hx s h (hK h hL)
  have hL' := L.persists (x s).trace hL
  exact ⟨_, ⟨rfl, hjust⟩, hL', fun a ha => hV a _ hL' (hret a ha)⟩

theorem weaken {V' : α → Fact E} (hx : x.Learns J K V) (hV : ∀ a h, V a h → V' a h) :
    x.Learns J K V' :=
  hx.mono (fun _ h => h) fun a h _ => hV a h

theorem pure {a : α} (ha : ∀ h, K h → V a h) :
    (Pure.pure a : Prog σ E ε ω α).Learns J K V :=
  Follows.pure fun _ h hK => ⟨hK, fun _ heq => Outcome.ret.inj heq ▸ ha h hK⟩

theorem raise (e : ε) : (Prog.raise e : Prog σ E ε ω α).Learns J K V :=
  Follows.raise fun _ _ hK => ⟨hK, nofun⟩

theorem halt (w : ω) : (Prog.halt w : Prog σ E ε ω α).Learns J K V :=
  Follows.halt fun _ _ hK => ⟨hK, nofun⟩

/-- An event that the history justifies. -/
theorem emit {e : E} (he : ∀ h, K h → J h e) :
    (Prog.emit e : Prog σ E ε ω Unit).Learns J K fun _ => .seen e :=
  Follows.emit fun _ h hK =>
    ⟨h ++ [e], Since.singleton (he h hK), K.persists _ hK, fun _ _ => by simp [Fact.seen]⟩

theorem modifyGet {g : σ → α × σ} :
    (Prog.modifyGet g : Prog σ E ε ω α).Learns J K fun _ => .always True :=
  Follows.modifyGet fun _ h hK => ⟨h, Monitor.nil h, hK, fun _ _ => trivial⟩

theorem gets (g : σ → α) : (Prog.gets g : Prog σ E ε ω α).Learns J K fun _ => .always True :=
  fun _ h hK => ⟨h, Monitor.nil h, hK, fun _ _ => trivial⟩

theorem ofExcept (r : Except ε α) :
    (Prog.ofExcept r : Prog σ E ε ω α).Learns J K fun a => .always (r = .ok a) := by
  cases r with
  | ok a => exact pure fun _ _ => rfl
  | error e => exact raise e

theorem ite {p : Prop} [Decidable p] {y : Prog σ E ε ω α} (hx : p → x.Learns J K V)
    (hy : ¬ p → y.Learns J K V) : (if p then x else y).Learns J K V :=
  Follows.ite hx hy

/-- The rule for sequencing: the second part knows what the first one has learned. -/
theorem bind (hx : x.Learns J K V) (hf : ∀ a, (f a).Learns J (K.and (V a)) B) :
    (x >>= f).Learns J K B := by
  refine Follows.bind hx (fun a => Follows.mono (hf a) (fun _ h hK => ⟨hK.1, hK.2 a rfl⟩) ?_)
    (fun e _ h hK => ⟨hK.1, nofun⟩) fun w _ h hK => ⟨hK.1, nofun⟩
  exact fun o _ h hB => ⟨hB.1.1, hB.2⟩

/-- What does not depend on the past is known outright. -/
theorem assume {p : Prop} (hx : p → x.Learns J K V) : x.Learns J (K.and (.always p)) V := by
  rintro s h ⟨hK, hp⟩
  have hmore : x.Learns J (K.and (.always p)) V := (hx hp).mono (fun _ h => h.1) fun _ _ _ h => h
  exact hmore s h ⟨hK, hp⟩

/-- The rule for catching. -/
theorem tryCatch {c : ε → Prog σ E ε ω α} (hx : x.Learns J K V) (hc : ∀ e, (c e).Learns J K V) :
    (x.tryCatch c).Learns J K V :=
  Follows.tryCatch hx (fun _ _ _ h => h) (fun e => Follows.mono (hc e) (fun _ _ h => h.1)
    fun _ _ _ h => h) fun _ _ _ h => h

/-- Programs of which only the events matter, after a history with the fact `K`. -/
theorem graded (J : List E → E → Prop) (K : Fact E) :
    Graded (fun e => ∀ h, K h → J h e) (fun _ _ : σ => True)
      fun _ {α} (x : Prog σ E ε ω α) => x.Learns J K fun _ => .always True where
  mono _ hx := hx
  pure _ := pure fun _ _ => trivial
  raise := raise
  halt := halt
  emit he := (emit he).weaken fun _ _ _ => trivial
  modifyGet _ := modifyGet
  bind hx hf := hx.bind fun a => (hf a).mono (fun _ h => h.1) fun _ _ _ h => h
  tryCatch hx hc := hx.tryCatch hc

end Learns

end Prog

end MileRpc
