import MileRpc.Rpc.Law
import Mathlib.Data.List.Nodup

/-!
# Transaction ids

`generate_trx_id` seeds the generator with the clock plus the number of its earlier calls in the
process, and returns the first value.  `Generates` is the life of a process as far as these ids
are concerned: whatever else the program does leaves the counter alone (`runCalls_generates`).

In one process with a clock that does not go back, the sums of clock and counter increase strictly
(`sums_strictly_increase`).  Nothing keeps the sums of two processes apart, nor does `rand` promise
different values for different seeds; `trxIds_nodup_iff` says that these are all the ways in which
two ids can be equal.
-/

namespace MileRpc

namespace Rpc

/-- A call of `generate_trx_id`: the clock that it read and the id that it returned. -/
structure Generated where
  now : ℤ
  id : UInt64

variable {ν : Type} {env : Env ν} {api : Api}

/-- Between the two worlds, these were the calls of `generate_trx_id`. -/
inductive Generates (env : Env ν) (api : Api) : World ν → List Generated → World ν → Prop
  /-- Anything else the program does. -/
  | other {w w' : World ν} : w'.trxCounter = w.trxCounter → Generates env api w [] w'
  | call {w w' : World ν} {id : UInt64} : generateTrxId env api w = ⟨.ret id, [], w'⟩ →
      Generates env api w [⟨(env.time w.net).1, id⟩] w'
  | append {w w' w'' : World ν} {gs gs' : List Generated} : Generates env api w gs w' →
      Generates env api w' gs' w'' → Generates env api w (gs ++ gs') w''

/-- `time(NULL) + _trx_counter` in calls that begin with the counter `k`. -/
def sums (k : ℤ) : List Generated → List ℤ
  | [] => []
  | g :: gs => (g.now + k) :: sums (k + 1) gs

theorem sums_append (k : ℤ) (gs gs' : List Generated) :
    sums k (gs ++ gs') = sums k gs ++ sums (k + gs.length) gs' := by
  induction gs generalizing k with
  | nil => simp [sums]
  | cons g gs ih =>
    have hk : k + 1 + (gs.length : ℤ) = k + ((gs.length + 1 : ℕ) : ℤ) := by omega
    simp [sums, ih, hk]

theorem le_of_mem_sums {k s : ℤ} {gs : List Generated} (hs : s ∈ sums k gs) :
    ∃ g ∈ gs, g.now + k ≤ s := by
  induction gs generalizing k with
  | nil => cases hs
  | cons g gs ih =>
    rcases List.mem_cons.1 hs with rfl | hs
    · exact ⟨g, List.mem_cons_self, le_rfl⟩
    · obtain ⟨g', hg', hle⟩ := ih hs
      exact ⟨g', List.mem_cons_of_mem _ hg', by omega⟩

/-- **The reseeding moves on**: with a clock that does not go back, the sums increase strictly. -/
theorem sums_strictly_increase (k : ℤ) {gs : List Generated}
    (hclock : (gs.map Generated.now).Pairwise (· ≤ ·)) : (sums k gs).Pairwise (· < ·) := by
  induction gs generalizing k with
  | nil => exact List.Pairwise.nil
  | cons g gs ih =>
    obtain ⟨hhead, htail⟩ := List.pairwise_cons.1 hclock
    refine List.Pairwise.cons (fun s hs => ?_) (ih (k + 1) htail)
    obtain ⟨g', hg', hle⟩ := le_of_mem_sums hs
    have hnow : g.now ≤ g'.now := hhead _ (List.mem_map_of_mem hg')
    omega

/-- The id for a seed. -/
def trxIdOf (api : Api) (seed : UInt32) : UInt64 := (api.rand seed 0).toUInt64

theorem generateTrxId_apply (env : Env ν) (api : Api) (w : World ν) :
    ∃ w' : World ν, w'.trxCounter = w.trxCounter + 1 ∧
    generateTrxId env api w =
      ⟨.ret (trxIdOf api (UInt32.ofInt ((env.time w.net).1 + w.trxCounter))), [], w'⟩ :=
  ⟨_, rfl, rfl⟩

theorem Generates.ids {w w' : World ν} {gs : List Generated} (h : Generates env api w gs w') :
    gs.map Generated.id = ((sums w.trxCounter gs).map UInt32.ofInt).map (trxIdOf api) ∧
      w'.trxCounter = w.trxCounter + gs.length := by
  induction h with
  | other hcounter => exact ⟨rfl, by simp [hcounter]⟩
  | @call w w' id hcall =>
    obtain ⟨w₁, hcounter, happly⟩ := generateTrxId_apply env api w
    rw [happly, Run.mk.injEq, Outcome.ret.injEq] at hcall
    obtain ⟨rfl, -, rfl⟩ := hcall
    exact ⟨rfl, by simp [hcounter]⟩
  | append _ _ ih ih' =>
    obtain ⟨hids, hcounter⟩ := ih
    obtain ⟨hids', hcounter'⟩ := ih'
    refine ⟨?_, by rw [hcounter', hcounter, List.length_append]; omega⟩
    rw [sums_append, List.map_append, List.map_append, List.map_append, hids, hids', hcounter]

/-! ### The runs of the program -/

/-- The law that only `generate_trx_id` moves its counter. -/
def generating (env : Env ν) (api : Api) : Law (World ν) Event Stop where
  Moves w _ w' := ∃ gs, Generates env api w gs w'
  Stops w _ _ := ∃ gs w', Generates env api w gs w'
  Fair _ := True
  moves_nil _ := ⟨[], .other rfl⟩
  moves_append := fun ⟨gs, h⟩ ⟨gs', h'⟩ => ⟨gs ++ gs', h.append h'⟩
  stops_append := fun ⟨gs, h⟩ ⟨gs', w', h'⟩ => ⟨gs ++ gs', w', h.append h'⟩
  fair_append _ := ⟨trivial, trivial⟩

theorem generating_callLaw (params : Json) :
    Client.CallLaw (generating env api) env api params where
  lenient :=
    { quiet := fun _ hcounter _ => ⟨[], .other hcounter⟩
      plain := fun _ _ _ => ⟨[], .other rfl⟩
      crash := fun w => ⟨[], w, .other rfl⟩
      reply := fun _ _ => ⟨[], .other rfl⟩ }
  trxId _ := ⟨_, .call rfl⟩
  command _ _ := ⟨[], .other rfl⟩
  send _ _ := ⟨[], .other rfl⟩
  create _ _ _ := ⟨[], .other rfl⟩
  body _ _ := ⟨[], .other rfl⟩

/-- Make calls one after the other, on any clients. -/
def runCalls (env : Env ν) (api : Api) : List (Client ν × String × Json) → M ν Unit
  | [] => pure ()
  | (c, method, params) :: calls => do
    let _ ← c.call env api method params
    runCalls env api calls

theorem runCalls_keeps {calls : List (Client ν × String × Json)}
    (hc : ∀ p ∈ calls, p.1.Keeping (generating env api) True True) :
    (generating env api).Keeps (fun _ => True) True (runCalls env api calls) := by
  induction calls with
  | nil => exact .pure trivial
  | cons p calls ih =>
    obtain ⟨c, method, params⟩ := p
    refine (Client.call_keeps (generating_callLaw params) (hc _ List.mem_cons_self)
      (hc _ List.mem_cons_self).error).andThen
      fun _ _ => ?_
    exact ih fun p hp => hc p (List.mem_cons_of_mem _ hp)

/-- **A run of calls is the life of a process**: between two worlds, it calls `generate_trx_id` and
does nothing else to its counter.  The handlers may call the clients too. -/
theorem runCalls_generates {calls : List (Client ν × String × Json)}
    (hc : ∀ p ∈ calls, p.1.Keeping (generating env api) True True) (w : World ν) :
    ∃ gs w', Generates env api w gs w' ∧
      ((runCalls env api calls w).outcome = .ret () → (runCalls env api calls w).state = w') := by
  have hrun := runCalls_keeps hc w trivial
  unfold Law.Meets at hrun
  split at hrun
  · obtain ⟨⟨gs, h⟩, -⟩ := hrun
    exact ⟨gs, _, h, fun _ => rfl⟩
  · obtain ⟨⟨gs, h⟩, -⟩ := hrun
    exact ⟨gs, _, h, fun _ => rfl⟩
  · next hstop =>
    obtain ⟨gs, w', h⟩ := hrun
    exact ⟨gs, w', h, fun hret => by rw [hstop] at hret; cases hret⟩

/-! ### Many processes -/

/-- A process, from its start to some moment. -/
structure Process (ν : Type) (api : Api) where
  env : Env ν
  net : ν
  generated : List Generated
  last : World ν
  generates : Generates env api (World.init net) generated last

namespace Process

variable (p : Process ν api)

/-- The ids that `generate_trx_id` returned. -/
def ids : List UInt64 := p.generated.map Generated.id

/-- The clock readings of `generate_trx_id`. -/
def readings : List ℤ := p.generated.map Generated.now

/-- Each reading plus the number of earlier calls. -/
def seedSums : List ℤ := sums 0 p.generated

/-- The arguments of `srand`. -/
def seeds : List UInt32 := p.seedSums.map UInt32.ofInt

theorem ids_eq : p.ids = p.seeds.map (trxIdOf api) := p.generates.ids.1

/-- In one process, two seeds are equal only if their sums differ by a multiple of `2 ^ 32`. -/
theorem seeds_nodup_iff (hclock : p.readings.Pairwise (· ≤ ·)) :
    p.seeds.Nodup ↔ ∀ s ∈ p.seedSums, ∀ t ∈ p.seedSums, UInt32.ofInt s = UInt32.ofInt t → s = t :=
  List.nodup_map_iff_inj_on ((sums_strictly_increase 0 hclock).imp ne_of_lt)

end Process

theorem trxIdOf_inj {s t : UInt32} : trxIdOf api s = trxIdOf api t ↔ api.rand s 0 = api.rand t 0 :=
  UInt32.toUInt64_inj

theorem nodup_map_iff {α β : Type} {f : α → β} {l : List α} :
    (l.map f).Nodup ↔ l.Nodup ∧ ∀ x ∈ l, ∀ y ∈ l, f x = f y → x = y := by
  constructor
  · intro h
    exact ⟨h.of_map f, (List.nodup_map_iff_inj_on (h.of_map f)).1 h⟩
  · exact fun ⟨hl, hf⟩ => (List.nodup_map_iff_inj_on hl).2 hf

/-- **When all transaction ids are different.**  The clock of each process does not go back.  Then
any two calls of `generate_trx_id`, in one process or in two, return different ids if and only if no
seed occurs in two processes, no two sums of one process agree modulo `2 ^ 32`, and `rand` starts
with different values after different seeds that were used. -/
theorem trxIds_nodup_iff (ps : List (Process ν api))
    (hclock : ∀ p ∈ ps, p.readings.Pairwise (· ≤ ·)) :
    (ps.flatMap Process.ids).Nodup ↔
      ps.Pairwise (fun p q => p.seeds.Disjoint q.seeds) ∧
      (∀ p ∈ ps, ∀ s ∈ p.seedSums, ∀ t ∈ p.seedSums, UInt32.ofInt s = UInt32.ofInt t → s = t) ∧
      ∀ s ∈ ps.flatMap Process.seeds, ∀ t ∈ ps.flatMap Process.seeds,
        api.rand s 0 = api.rand t 0 → s = t := by
  have hids : ps.flatMap Process.ids = (ps.flatMap Process.seeds).map (trxIdOf api) := by
    rw [List.map_flatMap]
    exact congrArg (fun f => ps.flatMap f) (funext Process.ids_eq)
  have hseeds : (∀ p ∈ ps, p.seeds.Nodup) ↔ ∀ p ∈ ps, ∀ s ∈ p.seedSums, ∀ t ∈ p.seedSums,
      UInt32.ofInt s = UInt32.ofInt t → s = t :=
    forall₂_congr fun p hp => p.seeds_nodup_iff (hclock p hp)
  rw [hids, nodup_map_iff, List.nodup_flatMap, hseeds]
  simp only [trxIdOf_inj]
  rw [and_comm (a := ∀ p ∈ ps, _), and_assoc]

/-- A generator whose first value is the seed, cut to 31 bits. -/
def seededApi : Api := { Api.sample [] with rand := fun seed _ => seed % 0x80000000 }

/-- A process that calls `generate_trx_id` once, at the time `clock`. -/
def freshAt (clock : ℤ) : Process Unit seededApi where
  env := { Env.answering fun n : Unit => (⟨200, ""⟩, n) with time := fun n => (clock, n) }
  net := ()
  generated := [⟨clock, trxIdOf seededApi (UInt32.ofInt (clock + 0))⟩]
  last := (generateTrxId { Env.answering fun n : Unit => (⟨200, ""⟩, n) with
    time := fun n => (clock, n) } seededApi (World.init ())).state
  generates := .call rfl

/-- Two processes in different seconds. -/
theorem trxIds_nodup_two : ([freshAt 100, freshAt 101].flatMap Process.ids).Nodup := by
  have hapart : (freshAt 100).seeds.Disjoint (freshAt 101).seeds := by
    rw [show (freshAt 100).seeds = [100] from rfl, show (freshAt 101).seeds = [101] from rfl]
    simp
  have hrand : ∀ s ∈ [freshAt 100, freshAt 101].flatMap Process.seeds,
      ∀ t ∈ [freshAt 100, freshAt 101].flatMap Process.seeds,
      seededApi.rand s 0 = seededApi.rand t 0 → s = t := by
    rw [show [freshAt 100, freshAt 101].flatMap Process.seeds = [100, 101] from rfl]
    simp [seededApi]
  refine (trxIds_nodup_iff [freshAt 100, freshAt 101]
    (by simp [Process.readings, freshAt])).2 ⟨List.pairwise_pair.2 hapart, ?_, hrand⟩
  -- each process has one sum only
  simp [Process.seedSums, freshAt, sums]

/-- Two processes in one second use the same id. -/
theorem trxIds_not_nodup : ¬ ∀ ps : List (Process Unit seededApi),
    (∀ p ∈ ps, p.readings.Pairwise (· ≤ ·)) → (ps.flatMap Process.ids).Nodup := by
  intro h
  have hclock : ∀ p ∈ [freshAt 100, freshAt 100], p.readings.Pairwise (· ≤ ·) := by
    simp [Process.readings, freshAt]
  exact absurd (h _ hclock) (by decide)

end Rpc

end MileRpc
