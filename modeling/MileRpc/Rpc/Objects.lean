import MileRpc.Memory.Shared
import MileRpc.Rpc.Purposes
import MileRpc.Rpc.Variables

/-!
# Client objects

The classes `rpc::Client` and `http::Client` as objects that are made, copied, assigned and
destroyed.  Both have the same constructors, assignment and destructor; what differs is the handlers
(`H`).  An object shares its session with its copies: in the copy constructor and in the assignment,
`std::move(client.session)` is a copy, since `client` is constant.

`runObjects` is a program over such objects, where following a null pointer or one to a session that
was destroyed ends the process.  In `runValues` the variables hold clients as values, and there is
nothing to follow.

## Main results

* `runObjects_refines` : every run over objects is the run over values, and the objects are at its
  end what the variables hold
* `runObjects_frees` : the sessions that were destroyed, each once, are those that no object has
-/

namespace MileRpc

variable {ν H C : Type}

/-- A client object. -/
structure ClientObject (H : Type) where
  url : Option Url
  verifySsl : Bool
  session : Pointer
  handlers : H

/-- The client objects of one class, those that were destroyed included, and their sessions. -/
structure Heap (H : Type) where
  objects : Slots (ClientObject H)
  sessions : Shared Session

namespace Heap

/-- No object was made. -/
def empty : Heap H := ⟨[], .empty⟩

/-- The object `i`, if it was not destroyed. -/
def object? (h : Heap H) (i : ℕ) : Option (ClientObject H) := h.objects.value? i

/-- `Client(const Client &)` -/
def copyOf (o : ClientObject H) : ClientObject H := { o with url := o.url.map Url.copy }

/-- Make the object `i + 1`, `i + 2`, ... as a copy of the object `i`. -/
def copy (h : Heap H) (i : ℕ) : Heap H :=
  match h.object? i with
  | some o => ⟨h.objects ++ [some (copyOf o)], h.sessions.retain o.session⟩
  | none => h

/-- `url_ = client.url_` -/
def assignUrl : Option Url → Option Url → Option Url
  | some self, some u => some (self.assign u)
  | none, some u => some u.copy
  | _, none => none

/-- `operator=(const Client &)` -/
def assign (h : Heap H) (i j : ℕ) : Heap H :=
  match h.object? i, h.object? j with
  | some self, some o =>
    -- the new session is shared before the old one is given up, so an object may be assigned to
    -- itself
    ⟨h.objects.set i (some { o with url := assignUrl self.url o.url }),
      (h.sessions.retain o.session).release self.session⟩
  | _, _ => h

/-- `~Client()` -/
def destroy (h : Heap H) (i : ℕ) : Heap H :=
  match h.object? i with
  | some o => ⟨h.objects.set i none, h.sessions.release o.session⟩
  | none => h

/-- The end of `Connect`: the local object is returned as a copy of it, if the session is
connected, and destroyed. -/
def leave (h : Heap H) (client : ClientObject H) (connected : Bool) : Heap H :=
  if connected then
    ⟨h.objects ++ [some (copyOf client)],
      (h.sessions.retain client.session).release client.session⟩
  else ⟨h.objects, h.sessions.release client.session⟩

/-- `Client::Connect(urlString, verify_ssl, ...)` in a program that catches all exceptions. -/
def connect (env : Env ν) (urlString : String) (verifySsl : Bool) (handlers : H)
    (error : ErrorHandler ν) (h : Heap H) : M ν (Heap H) := do
    match ← (Url.parse urlString error).tryCatch fun _ => pure none with
    | some url => do
      let timeout ← Prog.gets World.timeout
      let s ← Session.make url.domain url.port url.path url.protocol verifySsl timeout
      let (p, sessions) := h.sessions.make s
      -- the local object is destroyed on every path, also by an exception of a handler
      let connected ← (s.connect env error).tryCatch fun _ => pure false
      pure (leave ⟨h.objects, sessions⟩ ⟨some url.copy, verifySsl, p, handlers⟩ connected)
    | none => pure h

/-- A function of the object `i`, which follows its session. -/
def use (h : Heap H) (i : ℕ) (f : Option Url → Bool → Session → H → M ν Unit) : M ν Unit :=
  match h.object? i with
  | some o =>
    match h.sessions.get? o.session with
    | some s => (f o.url o.verifySsl s o.handlers).tryCatch fun _ => pure ()
    | none => Prog.halt .crash
  | none => pure ()

end Heap

/-! ### Programs -/

/-- A function of a json-rpc client is called with these members. -/
def Rpc.Client.ofObject (url : Option Url) (verifySsl : Bool) (session : Session)
    (handlers : ResponseHandler ν × ErrorHandler ν) : Rpc.Client ν :=
  ⟨url.getD (Url.init ""), verifySsl, session, handlers.1, handlers.2⟩

/-- A function of an http client is called with these members. -/
def Http.Client.ofObject (url : Option Url) (verifySsl : Bool) (session : Session)
    (error : ErrorHandler ν) : Http.Client ν :=
  ⟨url.getD (Url.init ""), verifySsl, session, error⟩

/-- The client objects of a program. -/
structure Objects (ν : Type) where
  rpc : Heap (ResponseHandler ν × ErrorHandler ν)
  http : Heap (ErrorHandler ν)

section Program

variable (env : Env ν) (api : Api) (responseFail : ResponseHandler ν) (error : ErrorHandler ν)

/-- Take a step. -/
def stepObjects (o : Objects ν) : VariableAct → M ν (Objects ν)
  | .act (.connect urlString verifySsl) => do
    let h ← o.rpc.connect env urlString verifySsl (responseFail, error) error
    pure { o with rpc := h }
  | .act (.httpConnect urlString verifySsl) => do
    let h ← o.http.connect env urlString verifySsl error error
    pure { o with http := h }
  | .act (.op i op) => do
    o.rpc.use i fun url v s h => op.run env api (.ofObject url v s h)
    pure o
  | .act (.call i method params) => do
    o.rpc.use i fun url v s h =>
      (fun _ => ()) <$> (Rpc.Client.ofObject url v s h).call env api method params
    pure o
  | .act (.get i) => do
    o.http.use i fun url v s h => (fun _ => ()) <$> (Http.Client.ofObject url v s h).get env
    pure o
  | .copy i => pure { o with rpc := o.rpc.copy i }
  | .assign i j => pure { o with rpc := o.rpc.assign i j }
  | .destroy i => pure { o with rpc := o.rpc.destroy i }
  | .httpCopy i => pure { o with http := o.http.copy i }
  | .httpAssign i j => pure { o with http := o.http.assign i j }
  | .httpDestroy i => pure { o with http := o.http.destroy i }

/-- Take the steps one after the other. -/
def runObjects (o : Objects ν) : List VariableAct → M ν (Objects ν)
  | [] => pure o
  | act :: acts => do
    let o ← stepObjects env api responseFail error o act
    runObjects o acts

end Program

/-! ### The invariant -/

/-- The object is the client `c`, with the session that its pointer leads to. -/
structure ClientObject.Is (value : Option Url → Bool → Session → H → C)
    (session? : Pointer → Option Session) (o : ClientObject H) (c : C) : Prop where
  url : ∃ u, o.url = some u ∧ u.fragment = ""
  eq : ∃ s, session? o.session = some s ∧ value o.url o.verifySsl s o.handlers = c

theorem copy_url {u : Url} (hu : u.fragment = "") : u.copy = u := by
  cases u
  subst hu
  rfl

theorem assign_url {self u : Url} (hself : self.fragment = "") (hu : u.fragment = "") :
    self.assign u = u := by
  cases u
  subst hu
  simp [Url.assign, hself]

namespace Heap

/-- The pointers of the objects that were not destroyed. -/
def owners (os : Slots (ClientObject H)) : List Pointer :=
  os.filterMap (Option.map ClientObject.session)

/-- The counts of the sessions are right, and the objects are the clients `vs`. -/
structure Sound (value : Option Url → Bool → Session → H → C) (h : Heap H) (vs : Slots C) :
    Prop where
  owned : h.sessions.Owned (owners h.objects)
  objects : Slots.Rel (ClientObject.Is value h.sessions.made?) h.objects vs

theorem getElem?_of_object? {h : Heap H} {i : ℕ} {o : ClientObject H} (ho : h.object? i = some o) :
    h.objects[i]? = some (some o) := by
  simpa [object?, Slots.value?, Option.join_eq_some_iff] using ho

theorem mem_owners {h : Heap H} {i : ℕ} {o : ClientObject H} (ho : h.object? i = some o) :
    o.session ∈ owners h.objects :=
  List.mem_filterMap.2 ⟨some o, List.mem_of_getElem? (getElem?_of_object? ho), rfl⟩

theorem owners_set {os : Slots (ClientObject H)} {i : ℕ} (hi : i < os.length)
    (x : Option (ClientObject H)) :
    (owners (os.set i x)).Perm
      ((x.map ClientObject.session).toList ++ owners (os.take i ++ os.drop (i + 1))) := by
  have hset : os.set i x = os.take i ++ x :: os.drop (i + 1) := by
    rw [List.set_eq_take_append_cons_drop, if_pos hi]
  rw [hset]
  cases x with
  | none => simp [owners]
  | some o =>
    simp only [owners, List.filterMap_append, List.filterMap_cons, Option.map_some,
      Option.toList_some, List.singleton_append]
    exact List.perm_middle

theorem owners_perm {os : Slots (ClientObject H)} {i : ℕ} {o : ClientObject H}
    (ho : os[i]? = some (some o)) :
    (owners os).Perm (o.session :: owners (os.take i ++ os.drop (i + 1))) := by
  obtain ⟨hi, hget⟩ := List.getElem?_eq_some_iff.1 ho
  have hperm := owners_set hi (some o)
  rwa [← hget, List.set_getElem_self, hget] at hperm

theorem owners_append (os : Slots (ClientObject H)) (o : ClientObject H) :
    (o.session :: owners os).Perm (owners (os ++ [some o])) := by
  simp only [owners, List.filterMap_append, List.filterMap_cons, List.filterMap_nil]
  exact (List.perm_append_singleton _ _).symm

end Heap

namespace ClientObject.Is

variable {value : Option Url → Bool → Session → H → C}
  {session? session?' : Pointer → Option Session} {o self : ClientObject H} {c c' : C}

theorem mono (h : o.Is value session? c)
    (hw : ∀ p s, session? p = some s → session?' p = some s) : o.Is value session?' c where
  url := h.url
  eq := by
    obtain ⟨s, hs, hc⟩ := h.eq
    exact ⟨s, hw _ _ hs, hc⟩

/-- A copy is the same client. -/
theorem copyOf_eq (h : o.Is value session? c) : Heap.copyOf o = o := by
  obtain ⟨u, hu, hf⟩ := h.url
  cases o
  subst hu
  simp [Heap.copyOf, copy_url hf]

/-- What is assigned is the same client, whatever was there. -/
theorem assign_eq (h : o.Is value session? c) (hself : self.Is value session? c') :
    { o with url := Heap.assignUrl self.url o.url } = o := by
  obtain ⟨u, hu, hf⟩ := h.url
  obtain ⟨v, hv, hg⟩ := hself.url
  cases o
  subst hu
  simp [hv, Heap.assignUrl, assign_url hg hf]

end ClientObject.Is

namespace Heap.Sound

variable {value : Option Url → Bool → Session → H → C} {h : Heap H} {vs : Slots C}

theorem empty : (Heap.empty : Heap H).Sound value [] where
  owned := .empty
  objects := .nil

theorem within (hs : h.Sound value vs) {sessions : Shared Session}
    (hw : h.sessions.Within sessions) :
    Slots.Rel (ClientObject.Is value sessions.made?) h.objects vs :=
  hs.objects.mono fun _ _ _ _ ho => ho.mono hw

theorem copy (hs : h.Sound value vs) (i : ℕ) : (h.copy i).Sound value (vs.copy i) := by
  unfold Heap.copy
  split
  · rename_i o ho
    obtain ⟨c, hc, his⟩ := hs.objects.of_some ho
    have hw := Shared.within_retain h.sessions o.session
    rw [his.copyOf_eq, Slots.copy, hc]
    exact ⟨(hs.owned.retain (mem_owners ho)).perm (owners_append _ _),
      (hs.within hw).append (.some (his.mono hw))⟩
  · rename_i ho
    rw [Slots.copy, hs.objects.of_none ho]
    exact hs

theorem assign (hs : h.Sound value vs) (i j : ℕ) : (h.assign i j).Sound value (vs.assign i j) := by
  unfold Heap.assign Slots.assign
  cases hself : h.object? i with
  | none => simpa [hs.objects.of_none hself] using hs
  | some self =>
    obtain ⟨c, hc, hcis⟩ := hs.objects.of_some hself
    cases ho : h.object? j with
    | none => simpa [hc, hs.objects.of_none ho] using hs
    | some o =>
      obtain ⟨d, hd, hdis⟩ := hs.objects.of_some ho
      have hi := getElem?_of_object? hself
      have hlt := Slots.lt_length_of_value? hself
      have hw := (Shared.within_retain h.sessions o.session).trans
        (Shared.within_release _ self.session)
      -- one owner more of the new session, and then one less of the old one
      have howned := ((hs.owned.retain (mem_owners ho)).perm
        (((owners_perm hi).cons o.session).trans (List.Perm.swap ..))).release.perm
          (owners_set hlt (some o)).symm
      simp only [hc, hd, hdis.assign_eq hcis]
      exact ⟨howned, (hs.within hw).set hlt (.some (hdis.mono hw))⟩

theorem destroy (hs : h.Sound value vs) (i : ℕ) : (h.destroy i).Sound value (vs.destroy i) := by
  unfold Heap.destroy Slots.destroy
  cases ho : h.object? i with
  | none => simpa [hs.objects.of_none ho] using hs
  | some o =>
    obtain ⟨c, hc, -⟩ := hs.objects.of_some ho
    have hlt := Slots.lt_length_of_value? ho
    have howned := (hs.owned.perm (owners_perm (getElem?_of_object? ho))).release.perm
      (owners_set hlt none).symm
    simp only [hc]
    exact ⟨howned, (hs.within (Shared.within_release _ _)).set hlt .none⟩

/-- The end of a connect: with a copy of the local object, or with nothing. -/
theorem leave (hs : h.Sound value vs) {url : Url} (hurl : url.fragment = "") (verifySsl : Bool)
    (s : Session) (handlers : H) (connected : Bool) :
    (Heap.leave ⟨h.objects, (h.sessions.make s).2⟩
      ⟨some url, verifySsl, (h.sessions.make s).1, handlers⟩ connected).Sound value
        (vs.add (if connected then some (value (some url) verifySsl s handlers) else none)) := by
  have hmade := hs.owned.make s
  have hw := Shared.within_make h.sessions s
  cases connected with
  | false => exact ⟨hmade.release, hs.within (hw.trans (Shared.within_release _ _))⟩
  | true =>
    have hw' := (Shared.within_retain (h.sessions.make s).2 (h.sessions.make s).1).trans
      (Shared.within_release _ (h.sessions.make s).1)
    have his : ClientObject.Is value (h.sessions.make s).2.made?
        ⟨some url, verifySsl, (h.sessions.make s).1, handlers⟩
        (value (some url) verifySsl s handlers) :=
      ⟨⟨url, rfl, hurl⟩, s, Shared.made?_make h.sessions s, rfl⟩
    simp only [Heap.leave, ↓reduceIte, his.copyOf_eq]
    have howned := (hmade.retain List.mem_cons_self).release.perm
      (owners_append h.objects ⟨some url, verifySsl, (h.sessions.make s).1, handlers⟩)
    exact ⟨howned, (hs.within (hw.trans hw')).append (.some (his.mono hw'))⟩

end Heap.Sound

/-! ### One step -/

namespace Heap

/-- What both classes do to connect, as a function to a value. -/
def connectValue (value : Option Url → Bool → Session → H → C) (env : Env ν) (urlString : String)
    (verifySsl : Bool) (handlers : H) (error : ErrorHandler ν) : M ν (Option C) := do
  match ← Url.parse urlString error with
  | some url => do
    let timeout ← Prog.gets World.timeout
    let s ← Session.make url.domain url.port url.path url.protocol verifySsl timeout
    let b ← s.connect env error
    pure (if b then some (value (some url.copy) verifySsl s handlers) else none)
  | none => pure none

variable {value : Option Url → Bool → Session → H → C} {h : Heap H} {vs : Slots C}

/-- A connect adds an object where it adds a value. -/
theorem connect_alike (env : Env ν) (hs : h.Sound value vs) (urlString : String) (verifySsl : Bool)
    (handlers : H) (error : ErrorHandler ν) (w : World ν) :
    (h.connect env urlString verifySsl handlers error w).Alike
      (fun h' c => h'.Sound value (vs.add c))
      ((connectValue value env urlString verifySsl handlers error).tryCatch
        (fun _ => pure none) w) := by
  refine Run.Alike.bind_tryCatch (fun url w' => ?_) fun e w' => .ret (b := none) hs [] w'
  cases url with
  | none => exact .ret (b := none) hs [] w'
  | some url =>
    have hend : ∀ (s : Session) (b : Bool) (w' : World ν), Run.Alike
        (fun h' c => h'.Sound value (vs.add c))
        ((pure (leave ⟨h.objects, (h.sessions.make s).2⟩
          ⟨some url.copy, verifySsl, (h.sessions.make s).1, handlers⟩ b) : M ν _) w')
        ((pure (if b then some (value (some url.copy) verifySsl s handlers) else none) :
          M ν _) w') := by
      intro s b w'
      exact .ret (b := if b then some (value (some url.copy) verifySsl s handlers) else none)
        (hs.leave rfl verifySsl s handlers b) [] w'
    -- the session that both have made
    exact Run.Alike.bind_tryCatch (fun b w' => hend _ b w') fun e w' => hend _ false w'

/-- Using an object is using its value: the session is there. -/
theorem use_eq (hs : h.Sound value vs) (i : ℕ)
    (f : Option Url → Bool → Session → H → M ν Unit) (F : C → M ν Unit)
    (hf : ∀ url v s a, f url v s a = F (value url v s a)) : h.use i f = useValue vs i F := by
  unfold use useValue
  cases ho : h.object? i with
  | none => rw [hs.objects.of_none ho]
  | some o =>
    obtain ⟨c, hc, his⟩ := hs.objects.of_some ho
    obtain ⟨s, hmade, rfl⟩ := his.eq
    simp only [hc, hs.owned.get?_eq (mem_owners ho) hmade, hf]

end Heap

/-! ### Runs -/

variable {env : Env ν} {api : Api} {responseFail : ResponseHandler ν} {error : ErrorHandler ν}

theorem Rpc.Client.connect_eq (urlString : String) (verifySsl : Bool) :
    connect env urlString verifySsl responseFail error =
      Heap.connectValue ofObject env urlString verifySsl (responseFail, error) error := by
  unfold connect Heap.connectValue make
  refine congrArg (Url.parse urlString error >>= ·) (funext fun url => ?_)
  cases url with
  | none => rfl
  | some url =>
    simp only [bind_assoc, pure_bind]
    refine bind_congr fun timeout => bind_congr fun s => bind_congr fun b => ?_
    cases b <;> rfl

theorem Http.Client.connect_eq (urlString : String) (verifySsl : Bool) :
    connect env urlString verifySsl error =
      Heap.connectValue ofObject env urlString verifySsl error error := by
  unfold connect Heap.connectValue make
  refine congrArg (Url.parse urlString error >>= ·) (funext fun url => ?_)
  cases url with
  | none => rfl
  | some url =>
    simp only [bind_assoc, pure_bind]
    refine bind_congr fun timeout => bind_congr fun s => bind_congr fun b => ?_
    cases b <;> rfl

/-- The objects are what the variables hold, and their sessions are counted right. -/
structure Objects.Sound (o : Objects ν) (v : Values ν) : Prop where
  rpc : o.rpc.Sound Rpc.Client.ofObject v.rpc
  http : o.http.Sound Http.Client.ofObject v.http

theorem stepObjects_alike {o : Objects ν} {v : Values ν} (hs : o.Sound v) (act : VariableAct)
    (w : World ν) :
    (stepObjects env api responseFail error o act w).Alike Objects.Sound
      (stepValues env api responseFail error v act w) := by
  cases act with
  | act act =>
    cases act with
    | connect urlString verifySsl =>
      have hx := Heap.connect_alike env hs.rpc urlString verifySsl (responseFail, error) error w
      rw [← Rpc.Client.connect_eq] at hx
      exact hx.bind fun h c w' hh => .ret ⟨hh, hs.http⟩ [] w'
    | httpConnect urlString verifySsl =>
      have hx := Heap.connect_alike env hs.http urlString verifySsl error error w
      rw [← Http.Client.connect_eq] at hx
      exact hx.bind fun h c w' hh => .ret ⟨hs.rpc, hh⟩ [] w'
    | op i op =>
      have huse := Heap.use_eq (ν := ν) hs.rpc i _ (fun c => op.run env api c) fun _ _ _ _ => rfl
      simp only [stepObjects, stepValues, huse]
      exact (Run.Alike.refl _).bind fun _ _ w' _ => .ret hs [] w'
    | call i method params =>
      have huse := Heap.use_eq (ν := ν) hs.rpc i _
        (fun c => (fun _ => ()) <$> c.call env api method params) fun _ _ _ _ => rfl
      simp only [stepObjects, stepValues, huse]
      exact (Run.Alike.refl _).bind fun _ _ w' _ => .ret hs [] w'
    | get i =>
      have huse := Heap.use_eq (ν := ν) hs.http i _ (fun c => (fun _ => ()) <$> c.get env)
        fun _ _ _ _ => rfl
      simp only [stepObjects, stepValues, huse]
      exact (Run.Alike.refl _).bind fun _ _ w' _ => .ret hs [] w'
  | copy i => exact .ret ⟨hs.rpc.copy i, hs.http⟩ [] w
  | assign i j => exact .ret ⟨hs.rpc.assign i j, hs.http⟩ [] w
  | destroy i => exact .ret ⟨hs.rpc.destroy i, hs.http⟩ [] w
  | httpCopy i => exact .ret ⟨hs.rpc, hs.http.copy i⟩ [] w
  | httpAssign i j => exact .ret ⟨hs.rpc, hs.http.assign i j⟩ [] w
  | httpDestroy i => exact .ret ⟨hs.rpc, hs.http.destroy i⟩ [] w

theorem runObjects_alike (env : Env ν) (api : Api) (responseFail : ResponseHandler ν)
    (error : ErrorHandler ν) (acts : List VariableAct) :
    ∀ {o : Objects ν} {v : Values ν}, o.Sound v → ∀ w,
      (runObjects env api responseFail error o acts w).Alike Objects.Sound
        (runValues env api responseFail error v acts w) := by
  induction acts with
  | nil => exact fun hs w => .ret hs [] w
  | cons act acts ih => exact fun hs w => (stepObjects_alike hs act w).bind fun _ _ w' h => ih h w'

/-- A program that has not started. -/
def Objects.empty : Objects ν := ⟨.empty, .empty⟩

theorem Objects.Sound.empty : (Objects.empty : Objects ν).Sound .none := ⟨.empty, .empty⟩

/-- Each object that was not destroyed is the client that its variable holds, with a session that
is still there, and the other variables hold nothing. -/
structure Objects.Are (o : Objects ν) (v : Values ν) : Prop where
  rpc : Slots.Rel (ClientObject.Is Rpc.Client.ofObject o.rpc.sessions.get?) o.rpc.objects v.rpc
  http : Slots.Rel (ClientObject.Is Http.Client.ofObject o.http.sessions.get?) o.http.objects v.http

theorem Heap.Sound.there {value : Option Url → Bool → Session → H → C} {h : Heap H} {vs : Slots C}
    (hs : h.Sound value vs) :
    Slots.Rel (ClientObject.Is value h.sessions.get?) h.objects vs :=
  hs.objects.mono fun _ _ _ ho his => by
    obtain ⟨s, hmade, hc⟩ := his.eq
    exact ⟨his.url, s, hs.owned.get?_eq (mem_owners ho) hmade, hc⟩

/-- **Objects are values.**  A program may copy, assign and destroy its clients as it likes: its run
over objects has the same events, the same last state and the same end as its run over values, and
at the end each object is what its variable holds: a copy, or an object that was assigned, has the
url, the handlers and the session of the client that it was made from.  So no step follows a null
pointer or one to a session that was destroyed. -/
theorem runObjects_refines (env : Env ν) (api : Api) (responseFail : ResponseHandler ν)
    (error : ErrorHandler ν) (acts : List VariableAct) (w : World ν) :
    (runObjects env api responseFail error .empty acts w).Alike Objects.Are
      (runValues env api responseFail error .none acts w) :=
  (runObjects_alike env api responseFail error acts .empty w).mono fun _ _ hs =>
    ⟨hs.rpc.there, hs.http.there⟩

/-- A run over objects is a run over the clients that were connected, which the variables stand
for. -/
theorem runObjects_numbered (env : Env ν) (api : Api) (responseFail : ResponseHandler ν)
    (error : ErrorHandler ν) (acts : List VariableAct) (w : World ν) :
    ∃ steps, Steps acts steps ∧
      (runObjects env api responseFail error .empty acts w).Alike (fun _ _ => True)
        (runActs env api responseFail error ⟨[], []⟩ (Numbers.none.acts steps) w) := by
  obtain ⟨steps, hsteps, hvalues⟩ := runValues_numbered env api responseFail error acts w
  have hobjects := runObjects_alike env api responseFail error acts .empty w
  exact ⟨steps, hsteps, (hobjects.trans hvalues).mono fun _ _ _ => trivial⟩

/-- The sessions of a heap are accounted for: the variables that hold nothing have no object, and
the sessions that were destroyed, each once, are those that no object has. -/
structure Heap.Accounts (h : Heap H) (vs : Slots C) : Prop where
  live : ∀ i, (h.object? i).isSome = (vs.value? i).isSome
  nodup : h.sessions.freed.Nodup
  freed : ∀ p, p ∈ h.sessions.freed ↔
    p < h.sessions.cells.length ∧ ∀ i o, h.object? i = some o → o.session ≠ some p
  there : ∀ i o, h.object? i = some o → (h.sessions.get? o.session).isSome

theorem Heap.Sound.accounts {value : Option Url → Bool → Session → H → C} {h : Heap H}
    {vs : Slots C} (hs : h.Sound value vs) : h.Accounts vs where
  live i := by
    cases ho : h.object? i with
    | none => simp [hs.objects.of_none ho]
    | some o =>
      obtain ⟨c, hc, -⟩ := hs.objects.of_some ho
      simp [hc]
  nodup := hs.owned.nodup
  freed p := by
    rw [hs.owned.freed]
    refine and_congr_right fun _ => ?_
    constructor
    · intro hp i o ho heq
      exact hp (heq ▸ mem_owners ho)
    · intro hp hmem
      obtain ⟨x, hx, hsession⟩ := List.mem_filterMap.1 hmem
      obtain ⟨o, rfl, heq⟩ := Option.map_eq_some_iff.1 hsession
      obtain ⟨i, hi⟩ := List.mem_iff_getElem?.1 hx
      exact hp i o (by simp [object?, Slots.value?, hi]) heq
  there i o ho := by
    obtain ⟨c, -, his⟩ := hs.there.of_some ho
    obtain ⟨s, hget, -⟩ := his.eq
    rw [hget]
    rfl

/-- **No session leaks, and none is destroyed twice.**  After any steps, the objects are those of
the variables that hold a client, and the sessions that were destroyed, each once, are those that
none of these objects has: those of failed connects and those whose last object was destroyed or
got another client. -/
theorem runObjects_frees (env : Env ν) (api : Api) {responseFail : ResponseHandler ν}
    {error : ErrorHandler ν} (acts : List VariableAct) (w : World ν) {o : Objects ν}
    (h : (runObjects env api responseFail error .empty acts w).outcome = .ret o) :
    ∃ v, (runValues env api responseFail error .none acts w).outcome = .ret v ∧
      o.rpc.Accounts v.rpc ∧ o.http.Accounts v.http := by
  have hout := (runObjects_alike env api responseFail error acts .empty w).outcome
  rw [h] at hout
  obtain ⟨v, hv, hs⟩ := hout.of_ret
  exact ⟨v, hv, hs.rpc.accounts, hs.http.accounts⟩

/-- Two objects for one session, of which one gets another client, and one more for that. -/
def sharing : List VariableAct :=
  [.act (.connect "http://a/p" true), .copy 0, .destroy 0, .act (.op 1 .getNodes),
    .act (.connect "http://a/q" true), .assign 1 2, .destroy 2, .act (.op 1 .getNodes)]

/-- The sessions that were destroyed and those that objects have, if a run has not failed. -/
def kept? (r : Run (World ν) Event Exn Stop (Objects ν)) : Option (List ℕ × List Pointer) :=
  match r.outcome with
  | .ret o => some (o.rpc.sessions.freed, Heap.owners o.rpc.objects)
  | _ => none

theorem runObjects_frees_sharing :
    ∃ o v, (runObjects tellingNode tellingApi logResponse logError .empty sharing
        (World.init ())).outcome = .ret o ∧
      (runValues tellingNode tellingApi logResponse logError .none sharing
        (World.init ())).outcome = .ret v ∧
      o.rpc.Accounts v.rpc ∧ o.http.Accounts v.http ∧
      o.rpc.sessions.freed = [0] ∧ Heap.owners o.rpc.objects = [some 1] := by
  have hkept : kept? (runObjects tellingNode tellingApi logResponse logError .empty sharing
      (World.init ())) = some ([0], [some 1]) := by decide +kernel
  rcases h : (runObjects tellingNode tellingApi logResponse logError .empty sharing
      (World.init ())).outcome with o | e | stop
  · obtain ⟨v, hv, hrpc, hhttp⟩ := runObjects_frees tellingNode tellingApi sharing (World.init ()) h
    simp only [kept?, h, Option.some.injEq, Prod.mk.injEq] at hkept
    exact ⟨o, v, rfl, hv, hrpc, hhttp, hkept⟩
  · simp [kept?, h] at hkept
  · simp [kept?, h] at hkept

end MileRpc
