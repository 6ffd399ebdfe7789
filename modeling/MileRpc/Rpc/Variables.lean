import MileRpc.Effect.Alike
import MileRpc.Memory.Slots
import MileRpc.Rpc.Program

/-!
# Programs with client variables

A program that also copies, assigns and destroys its clients (`VariableAct`, `runValues`).  Here a
variable holds a client as a value, and a copy is that value: this is what the classes should
mean, and `MileRpc.Rpc.Objects` says that they do.

`runValues_numbered` : such a program is one of `runActs`, where each variable stands for the client
that it has, by its number among those that were connected.  So what holds of the programs that
only connect and use clients holds of these.
-/

namespace MileRpc

variable {ν C : Type}

/-- A step of a program with client variables of both kinds. -/
inductive VariableAct where
  /-- Connect a new client, or use the client of a variable. -/
  | act (act : Act)
  /-- Make a new variable as a copy of the variable `i`. -/
  | copy (i : ℕ)
  /-- Assign the variable `j` to the variable `i`. -/
  | assign (i j : ℕ)
  | destroy (i : ℕ)
  | httpCopy (i : ℕ)
  | httpAssign (i j : ℕ)
  | httpDestroy (i : ℕ)

/-- The clients that the variables hold. -/
structure Values (ν : Type) where
  rpc : Slots (Rpc.Client ν)
  http : Slots (Http.Client ν)

/-- A function of the client that the variable `i` holds, if there is one, also if it throws. -/
def useValue (vs : Slots C) (i : ℕ) (f : C → M ν Unit) : M ν Unit :=
  match vs.value? i with
  | some c => (f c).tryCatch fun _ => pure ()
  | none => pure ()

section Program

variable (env : Env ν) (api : Api) (responseFail : ResponseHandler ν) (error : ErrorHandler ν)

/-- Take a step. -/
def stepValues (v : Values ν) : VariableAct → M ν (Values ν)
  | .act (.connect urlString verifySsl) => do
    let c ← (Rpc.Client.connect env urlString verifySsl responseFail error).tryCatch
      fun _ => pure none
    pure { v with rpc := v.rpc.add c }
  | .act (.httpConnect urlString verifySsl) => do
    let c ← (Http.Client.connect env urlString verifySsl error).tryCatch fun _ => pure none
    pure { v with http := v.http.add c }
  | .act (.op i op) => do
    useValue v.rpc i fun c => op.run env api c
    pure v
  | .act (.call i method params) => do
    useValue v.rpc i fun c => (fun _ => ()) <$> c.call env api method params
    pure v
  | .act (.get i) => do
    useValue v.http i fun c => (fun _ => ()) <$> c.get env
    pure v
  | .copy i => pure { v with rpc := v.rpc.copy i }
  | .assign i j => pure { v with rpc := v.rpc.assign i j }
  | .destroy i => pure { v with rpc := v.rpc.destroy i }
  | .httpCopy i => pure { v with http := v.http.copy i }
  | .httpAssign i j => pure { v with http := v.http.assign i j }
  | .httpDestroy i => pure { v with http := v.http.destroy i }

/-- Take the steps one after the other. -/
def runValues (v : Values ν) : List VariableAct → M ν (Values ν)
  | [] => pure v
  | act :: acts => do
    let v ← stepValues env api responseFail error v act
    runValues v acts

end Program

/-! ### Numbers -/

/-- The clients of the variables, as their numbers among those that were connected, and how many
those are. -/
structure Numbers where
  rpc : Slots ℕ
  rpcs : ℕ
  http : Slots ℕ
  https : ℕ

namespace Numbers

/-- The numbers after a step, where a connect has succeeded or not. -/
def after (n : Numbers) (connected : Bool) : VariableAct → Numbers
  | .act (.connect ..) =>
    if connected then { n with rpc := n.rpc.add (some n.rpcs), rpcs := n.rpcs + 1 } else n
  | .act (.httpConnect ..) =>
    if connected then { n with http := n.http.add (some n.https), https := n.https + 1 } else n
  | .act _ => n
  | .copy i => { n with rpc := n.rpc.copy i }
  | .assign i j => { n with rpc := n.rpc.assign i j }
  | .destroy i => { n with rpc := n.rpc.destroy i }
  | .httpCopy i => { n with http := n.http.copy i }
  | .httpAssign i j => { n with http := n.http.assign i j }
  | .httpDestroy i => { n with http := n.http.destroy i }

/-- The step of `runActs` that a step is, if it connects a client or uses one. -/
def act? (n : Numbers) : VariableAct → Option Act
  | .act (.op i op) => (n.rpc.value? i).map fun k => .op k op
  | .act (.call i method params) => (n.rpc.value? i).map fun k => .call k method params
  | .act (.get i) => (n.http.value? i).map .get
  | .act act => some act
  | _ => none

/-- The steps of `runActs` that the steps are, each given with whether its connect succeeds. -/
def acts : Numbers → List (VariableAct × Bool) → List Act
  | _, [] => []
  | n, (act, connected) :: steps => (n.act? act).toList ++ (n.after connected act).acts steps

end Numbers

/-- The variables hold the clients of these numbers. -/
structure Values.Numbered (v : Values ν) (cs : Clients ν) (n : Numbers) : Prop where
  rpc : Slots.Rel (fun c k => cs.rpc[k]? = some c) v.rpc n.rpc
  rpcs : n.rpcs = cs.rpc.length
  http : Slots.Rel (fun c k => cs.http[k]? = some c) v.http n.http
  https : n.https = cs.http.length

/-- A client more leaves the numbers of the others as they are. -/
theorem rel_append {cs : List C} {vs : Slots C} {ks : Slots ℕ}
    (h : Slots.Rel (fun c k => cs[k]? = some c) vs ks) (new : C) :
    Slots.Rel (fun c k => (cs ++ [new])[k]? = some c) (vs.add (some new))
      (ks.add (some cs.length)) := by
  have hold : Slots.Rel (fun c k => (cs ++ [new])[k]? = some c) vs ks := h.mono fun _ c k _ hk => by
    rwa [List.getElem?_append_left (List.getElem?_eq_some_iff.1 hk).1]
  exact hold.add (.some List.getElem?_concat_length)

theorem useValue_cases {vs : Slots C} {cs : List C} {ks : Slots ℕ}
    (h : Slots.Rel (fun c k => cs[k]? = some c) vs ks) (i : ℕ) (f : C → M ν Unit) :
    (∃ k, ks.value? i = some k ∧ useValue vs i f = useClient cs k f) ∨
      ks.value? i = none ∧ useValue vs i f = pure () := by
  unfold useValue
  cases hi : vs.value? i with
  | none => exact .inr ⟨h.of_none hi, rfl⟩
  | some c =>
    obtain ⟨k, hk, hc⟩ := h.of_some hi
    exact .inl ⟨k, hk, by simp only [useClient, hc]⟩

variable {env : Env ν} {api : Api} {responseFail : ResponseHandler ν} {error : ErrorHandler ν}

/-- The steps, each with whether its connect succeeds. -/
def Steps (acts : List VariableAct) (steps : List (VariableAct × Bool)) : Prop :=
  steps.map Prod.fst = acts

theorem exists_steps (acts : List VariableAct) : ∃ steps, Steps acts steps :=
  ⟨acts.map (·, false), by simp [Steps, Function.comp_def]⟩

variable (env api responseFail error) in
/-- The run over values is one of `runActs` over the clients `cs`, with numbers that start as
`n`. -/
def Values.Replays (v : Values ν) (cs : Clients ν) (n : Numbers) (acts : List VariableAct)
    (w : World ν) : Prop :=
  ∃ steps, Steps acts steps ∧ (runValues env api responseFail error v acts w).Alike
    (fun _ _ => True) (runActs env api responseFail error cs (n.acts steps) w)

theorem Values.Replays.cons {v : Values ν} {cs : Clients ν} {n : Numbers} {act : VariableAct}
    {acts : List VariableAct} {w : World ν}
    (h : ∃ steps, Steps acts steps ∧
      (runValues env api responseFail error v (act :: acts) w).Alike (fun _ _ => True)
        (runActs env api responseFail error cs
          ((n.act? act).toList ++ (n.after false act).acts steps) w)) :
    v.Replays env api responseFail error cs n (act :: acts) w := by
  obtain ⟨steps, hsteps, hx⟩ := h
  exact ⟨(act, false) :: steps, congrArg (act :: ·) hsteps, hx⟩

theorem useValue_alike {vs : Slots C} {ds : List C} {ks : Slots ℕ}
    (h : Slots.Rel (fun c k => ds[k]? = some c) vs ks) (i : ℕ) {F : C → M ν Unit}
    {v : Values ν} {cs : Clients ν} {n : Numbers} {acts : List VariableAct}
    (hrest : ∀ w, v.Replays env api responseFail error cs n acts w)
    (act : ℕ → Act) (hact : ∀ k acts, runActs env api responseFail error cs (act k :: acts) =
      (useClient ds k F >>= fun _ => runActs env api responseFail error cs acts))
    (w : World ν) :
    ∃ steps, Steps acts steps ∧
      ((useValue vs i F >>= fun _ => runValues env api responseFail error v acts) w).Alike
        (fun _ _ => True) (runActs env api responseFail error cs
          (((ks.value? i).map act).toList ++ n.acts steps) w) := by
  rcases useValue_cases h i F with ⟨k, hk, huse⟩ | ⟨hk, huse⟩
  · rw [hk, huse]
    simp only [Option.map_some, Option.toList_some, List.singleton_append, hact]
    exact Run.Alike.exists_bind (exists_steps acts) (.refl _) fun _ _ w' _ => hrest w'
  · rw [hk, huse, pure_bind]
    exact hrest w

theorem Values.Numbered.connect {v : Values ν} {cs : Clients ν} {n : Numbers}
    (hv : v.Numbered cs n) (urlString : String) (verifySsl : Bool) (c : Option (Rpc.Client ν)) :
    Values.Numbered { v with rpc := v.rpc.add c } { cs with rpc := cs.rpc ++ c.toList }
      (n.after c.isSome (.act (.connect urlString verifySsl))) := by
  cases c with
  | none =>
    exact ⟨by simpa [Numbers.after] using hv.rpc, by simpa [Numbers.after] using hv.rpcs, hv.http,
      hv.https⟩
  | some c =>
    exact ⟨by simpa [Numbers.after, hv.rpcs] using rel_append hv.rpc c,
      by simp [Numbers.after, hv.rpcs], hv.http, hv.https⟩

theorem Values.Numbered.httpConnect {v : Values ν} {cs : Clients ν} {n : Numbers}
    (hv : v.Numbered cs n) (urlString : String) (verifySsl : Bool) (c : Option (Http.Client ν)) :
    Values.Numbered { v with http := v.http.add c } { cs with http := cs.http ++ c.toList }
      (n.after c.isSome (.act (.httpConnect urlString verifySsl))) := by
  cases c with
  | none =>
    exact ⟨hv.rpc, hv.rpcs, by simpa [Numbers.after] using hv.http,
      by simpa [Numbers.after] using hv.https⟩
  | some c =>
    exact ⟨hv.rpc, hv.rpcs, by simpa [Numbers.after, hv.https] using rel_append hv.http c,
      by simp [Numbers.after, hv.https]⟩

/-- Both runs connect a client first, and there is a number more, or not. -/
theorem Values.Replays.connect (x : M ν (Option C)) {v : Values ν} {cs : Clients ν} {n : Numbers}
    {act : VariableAct} {acts : List VariableAct} {v' : Option C → Values ν}
    {cs' : Option C → Clients ν}
    (hvalues : runValues env api responseFail error v (act :: acts) =
      x >>= fun c => runValues env api responseFail error (v' c) acts)
    (hacts : ∀ as, runActs env api responseFail error cs ((n.act? act).toList ++ as) =
      x >>= fun c => runActs env api responseFail error (cs' c) as)
    (hrest : ∀ c w, (v' c).Replays env api responseFail error (cs' c) (n.after c.isSome act) acts w)
    (w : World ν) : v.Replays env api responseFail error cs n (act :: acts) w := by
  obtain ⟨steps, hsteps⟩ := exists_steps acts
  have hstep : ∃ step : Bool × List (VariableAct × Bool), Steps acts step.2 ∧
      ((x >>= fun c => runValues env api responseFail error (v' c) acts) w).Alike
        (fun _ _ => True)
        ((x >>= fun c => runActs env api responseFail error (cs' c)
          ((n.after step.1 act).acts step.2)) w) := by
    refine Run.Alike.exists_bind ⟨(false, steps), hsteps⟩ (.refl (x w)) fun c c' w' hc => ?_
    obtain rfl : c = c' := hc
    obtain ⟨steps, hsteps, halike⟩ := hrest c w'
    exact ⟨(c.isSome, steps), hsteps, halike⟩
  obtain ⟨⟨connected, steps⟩, hsteps, halike⟩ := hstep
  refine ⟨(act, connected) :: steps, congrArg (act :: ·) hsteps, ?_⟩
  rwa [hvalues, Numbers.acts, hacts]

/-- By induction on the steps: each variable keeps the client of its number. -/
theorem runValues_alike (env : Env ν) (api : Api) (responseFail : ResponseHandler ν)
    (error : ErrorHandler ν) (acts : List VariableAct) :
    ∀ {v : Values ν} {cs : Clients ν} {n : Numbers}, v.Numbered cs n →
      ∀ w, v.Replays env api responseFail error cs n acts w := by
  induction acts with
  | nil => exact fun _ w => ⟨[], rfl, .ret trivial [] w⟩
  | cons act acts ih =>
    intro v cs n hv w
    cases act with
    | act act =>
      cases act with
      | connect urlString verifySsl =>
        refine .connect ((Rpc.Client.connect env urlString verifySsl responseFail error).tryCatch
          fun _ => pure none) ?_ (fun _ => rfl) (fun c => ih (hv.connect urlString verifySsl c)) w
        simp only [runValues, stepValues, bind_assoc, pure_bind]
      | httpConnect urlString verifySsl =>
        refine .connect ((Http.Client.connect env urlString verifySsl error).tryCatch
          fun _ => pure none) ?_ (fun _ => rfl)
          (fun c => ih (hv.httpConnect urlString verifySsl c)) w
        simp only [runValues, stepValues, bind_assoc, pure_bind]
      | op i op =>
        refine .cons ?_
        simp only [runValues, stepValues, bind_assoc, pure_bind]
        exact useValue_alike hv.rpc i (fun w' => ih hv w') (.op · op) (fun _ _ => rfl) w
      | call i method params =>
        refine .cons ?_
        simp only [runValues, stepValues, bind_assoc, pure_bind]
        exact useValue_alike hv.rpc i (fun w' => ih hv w') (.call · method params)
          (fun _ _ => rfl) w
      | get i =>
        refine .cons ?_
        simp only [runValues, stepValues, bind_assoc, pure_bind]
        exact useValue_alike hv.http i (fun w' => ih hv w') .get (fun _ _ => rfl) w
    | copy i =>
      exact .cons (ih (v := { v with rpc := v.rpc.copy i }) (n := n.after false (.copy i))
        ⟨hv.rpc.copy i, hv.rpcs, hv.http, hv.https⟩ w)
    | assign i j =>
      exact .cons (ih (v := { v with rpc := v.rpc.assign i j })
        (n := n.after false (.assign i j)) ⟨hv.rpc.assign i j, hv.rpcs, hv.http, hv.https⟩ w)
    | destroy i =>
      exact .cons (ih (v := { v with rpc := v.rpc.destroy i }) (n := n.after false (.destroy i))
        ⟨hv.rpc.destroy i, hv.rpcs, hv.http, hv.https⟩ w)
    | httpCopy i =>
      exact .cons (ih (v := { v with http := v.http.copy i }) (n := n.after false (.httpCopy i))
        ⟨hv.rpc, hv.rpcs, hv.http.copy i, hv.https⟩ w)
    | httpAssign i j =>
      exact .cons (ih (v := { v with http := v.http.assign i j })
        (n := n.after false (.httpAssign i j)) ⟨hv.rpc, hv.rpcs, hv.http.assign i j, hv.https⟩ w)
    | httpDestroy i =>
      exact .cons (ih (v := { v with http := v.http.destroy i })
        (n := n.after false (.httpDestroy i)) ⟨hv.rpc, hv.rpcs, hv.http.destroy i, hv.https⟩ w)

/-- No variable was made. -/
def Values.none : Values ν := ⟨[], []⟩

/-- No client was connected. -/
def Numbers.none : Numbers := ⟨[], 0, [], 0⟩

/-- **A variable stands for its client.**  A program that copies, assigns and destroys clients runs
like one that only connects and uses them, and uses a client by the number that its variable has. -/
theorem runValues_numbered (env : Env ν) (api : Api) (responseFail : ResponseHandler ν)
    (error : ErrorHandler ν) (acts : List VariableAct) (w : World ν) :
    ∃ steps, Steps acts steps ∧
      (runValues env api responseFail error .none acts w).Alike (fun _ _ => True)
        (runActs env api responseFail error ⟨[], []⟩ (Numbers.none.acts steps) w) :=
  runValues_alike env api responseFail error acts ⟨.nil, rfl, .nil, rfl⟩ w

end MileRpc
