import MileRpc.Rpc.Law
import MileRpc.Json.Rounding
import MileRpc.Rpc.BlockId

/-!
# Numbers in parameters

What becomes of a number in the parameters of a call.  The amount is converted to `float`, so a
JSON integer arrives as it is only if 24 bits hold it (`call_amount`); the asset code and the limit
are cast to 16 and 32 bits without a check, so they arrive as they are only in range
(`call_integer_parameters`).  The integers are those that the JSON library keeps as integers, which
have 64 bits; it makes a double of a longer literal.

The handlers may do anything, and even call the client again with the same parameters, as those of
the command line tools do (`MadeFrom`).
-/

namespace MileRpc

/-- A factory call or a query with a limit is made from these parameters. -/
def Event.MadeFrom (api : Api) (params : Json) : Event → Prop
  | .created call _ => call.From api params
  | .request b => methodOf b = some "get-wallet-transactions" → ∃ (key : String) (limit : Int32),
      b.member? "params" =
        some (.object [("public-key", .string key), ("limit", .integer limit.toUInt32.toNat)]) ∧
      ∀ v, params.member? "limit" = some v → v.getInt = .ok limit
  | _ => True

/-- Everything in the trace is made from these parameters. -/
def MadeFrom (api : Api) (params : Json) (t : List Event) : Prop := ∀ e ∈ t, e.MadeFrom api params

/-- Whatever the handlers do and however they end, their traces satisfy `P`. -/
structure HandlersEnsure {ν : Type} (P : List Event → Prop) (responseFail : ResponseHandler ν)
    (error : ErrorHandler ν) : Prop where
  responseFail : ∀ status method res, (responseFail status method res).Ensures fun _ t => P t
  error : ∀ code text, (error code text).Ensures fun _ t => P t

/-! ### What a trace made of them -/

/-- The calls of the transaction factory. -/
def createCalls (t : List Event) : List CreateCall :=
  t.filterMap fun e => match e with
    | .created call _ => some call
    | _ => none

theorem mem_createCalls {t : List Event} {call : CreateCall} :
    call ∈ createCalls t ↔ ∃ o, .created call o ∈ t := by
  unfold createCalls
  rw [List.mem_filterMap]
  constructor
  · rintro ⟨e, he, hcall⟩
    split at hcall
    · exact ⟨_, Option.some.inj hcall ▸ he⟩
    · cases hcall
  · rintro ⟨o, he⟩
    exact ⟨_, he, rfl⟩

theorem mem_requests {t : List Event} {b : Json} : b ∈ requests t ↔ .request b ∈ t :=
  mem_filterMap_iff fun e _ => by cases e <;> simp

/-- The amounts that were handed to the transaction factory. -/
def amounts (t : List Event) : List Single := (createCalls t).filterMap CreateCall.amount?

/-- The assets that were handed to the transaction factory. -/
def assets (t : List Event) : List Token := (createCalls t).filterMap CreateCall.asset?

/-- The limit in the parameters of a command. -/
def limitOf (body : Json) : Option Json := (body.member? "params").bind (·.member? "limit")

/-- The limits of the queries for transactions, as they are put on the wire. -/
def limits (t : List Event) : List (Option Json) :=
  ((requests t).filter fun b => methodOf b = some "get-wallet-transactions").map limitOf

theorem MadeFrom.createCalls {api : Api} {params : Json} {t : List Event}
    (h : MadeFrom api params t) {call : CreateCall} (hcall : call ∈ createCalls t) :
    call.From api params := by
  obtain ⟨o, he⟩ := mem_createCalls.1 hcall
  exact h _ he

theorem MadeFrom.limits {api : Api} {params : Json} {t : List Event} (h : MadeFrom api params t)
    {l : Option Json} (hl : l ∈ limits t) :
    ∃ limit : Int32, l = some (.integer limit.toUInt32.toNat) ∧
      ∀ v, params.member? "limit" = some v → v.getInt = .ok limit := by
  obtain ⟨b, hb, rfl⟩ := List.mem_map.1 hl
  obtain ⟨hb, hm⟩ := List.mem_filter.1 hb
  obtain ⟨key, limit, hparams, hlimit⟩ := h _ (mem_requests.1 hb) (by simpa using hm)
  exact ⟨limit, by simp [limitOf, hparams, List.lookup_cons], hlimit⟩

namespace Rpc.Client

variable {ν : Type} {env : Env ν} {api : Api} {c : Client ν} {method : String} {params : Json}

theorem madeFrom_callLaw :
    CallLaw (Law.every (Event.MadeFrom api params) : Law (World ν) Event Stop) env api params where
  lenient :=
    { quiet := fun _ _ _ e he => absurd he List.not_mem_nil
      plain := fun {e} he _ _ e' he' => by
        rw [List.mem_singleton.1 he']
        cases e <;> trivial
      crash := fun _ e he => absurd he List.not_mem_nil
      reply := fun _ _ e he => by
        rw [List.mem_singleton.1 he]
        trivial }
  trxId _ e he := absurd he List.not_mem_nil
  command hm _ e he := by
    rw [List.mem_singleton.1 he]
    intro hmethod
    obtain ⟨key, limit, rfl, hlimit⟩ := hm (by simpa using hmethod)
    exact ⟨key, limit, by simp [command, List.lookup_cons], hlimit⟩
  send x _ e he := by
    rw [List.mem_singleton.1 he]
    intro hmethod
    rw [methodOf_set_params] at hmethod
    simp at hmethod
  create _ hcall _ e he := by
    rw [List.mem_singleton.1 he]
    exact hcall
  body _ _ e he := by
    rw [List.mem_singleton.1 he]
    trivial

theorem call_madeFrom (hh : HandlersEnsure (MadeFrom api params) c.responseFail c.error) :
    (c.call env api method params).Ensures fun _ t => MadeFrom api params t := by
  have hc : Keeping (Law.every (Event.MadeFrom api params)) True True c :=
    ⟨fun status m res => Law.every_keeps_iff.2 (hh.responseFail status m res),
      fun code text => Law.every_keeps_iff.2 (hh.error code text)⟩
  exact Law.every_keeps_iff.1 ((call_keeps madeFrom_callLaw hc hc.error).weaken fun _ _ => trivial)

/-! ### Amounts -/

theorem getFloat_integer (n : ℤ) : (Json.integer n).getFloat = .ok (.round (.ofInt n)) := rfl

/-- **What becomes of an integer amount**, one of 64 bits.  The amount that a call hands to the
transaction factory is the integer rounded to 24 significant bits; it is that integer exactly if 24
bits hold it, and two such integers give different amounts. -/
theorem call_amount {n : ℕ} (hn : params.member? "amount" = some (.integer n))
    (hh : HandlersEnsure (MadeFrom api params) c.responseFail c.error) (w : World ν) :
    ∀ a ∈ amounts (c.call env api method params w).trace,
      a = .round (.ofInt n) ∧ (a.Is n ↔ Single.Holds n) ∧
        ∀ m, Single.Holds m → Single.Holds n → a = .round (.ofInt m) → m = n := by
  intro a ha
  obtain ⟨call, hcall, hamount⟩ := List.mem_filterMap.1 ha
  obtain ⟨v, hv, hfloat⟩ := ((call_madeFrom hh w).createCalls hcall).amount a hamount
  obtain rfl : Json.integer n = v := by rwa [hn, Option.some.injEq] at hv
  obtain rfl : Single.round (.ofInt n) = a := by simpa [getFloat_integer] using hfloat
  exact ⟨rfl, Single.round_is_iff n, fun m hm hn h => (Single.round_injective hn hm h).symm⟩

theorem logging_madeFrom (s : Session) :
    HandlersEnsure (MadeFrom api params) (logging s : Client ν).responseFail (logging s).error where
  responseFail _ _ _ _ := by simp [logging, MadeFrom, Event.MadeFrom]
  error _ _ _ := by simp [logging, MadeFrom, Event.MadeFrom]

/-- A vote for an amount. -/
def voteParams (amount : Json) : Json :=
  .object [("private-key", .string "k"), ("amount", amount)]

/-- The amounts of a vote at a node with a block id. -/
def voteAmounts (amount : Json) : List Single :=
  amounts ((logging .sample).call (repeating (idReply (.string "7")))
    (.sample [idReply (.string "7")]) "vote-for-rate" (voteParams amount) (World.init ())).trace

/-- An odd amount past the significand. -/
theorem call_amount_odd :
    .round (.ofInt 16777217) ∈ voteAmounts (.integer 16777217) ∧
      ((Single.round (.ofInt 16777217)).Is 16777217 ↔ Single.Holds 16777217) := by
  have hmem : .round (.ofInt 16777217) ∈ voteAmounts (.integer (16777217 : ℕ)) := by decide +kernel
  have hn : (voteParams (.integer (16777217 : ℕ))).member? "amount" =
      some (.integer (16777217 : ℕ)) := by
    simp [voteParams, List.lookup_cons]
  exact ⟨hmem, (call_amount hn (logging_madeFrom .sample) (World.init ()) _ hmem).2.1⟩

/-- It is not the amount that is handed to the factory, and another integer gives the same. -/
theorem call_amount_not_exact :
    (∃ a ∈ voteAmounts (.integer 16777217), ¬ a.Is 16777217) ∧
      voteAmounts (.integer 16777217) = voteAmounts (.integer 16777216) := by
  decide +kernel

/-! ### Integers -/

theorem getUnsignedShort_integer (v : ℤ) :
    (Json.integer v).getUnsignedShort = .ok (UInt16.ofInt v) := by
  simp [Json.getUnsignedShort, Json.getNumber, Except.map, Binary.trunc, Binary.ofInt]

theorem getInt_integer (v : ℤ) : (Json.integer v).getInt = .ok (Int32.ofInt v) := by
  simp [Json.getInt, Json.getNumber, Except.map, Binary.trunc, Binary.ofInt]

theorem toNat_ofInt16 (v : ℤ) : ((UInt16.ofInt v).toNat : ℤ) = v % 2 ^ 16 := by
  have hnat : (v % 2 ^ 16).toNat < 2 ^ 16 := by omega
  rw [UInt16.ofInt, UInt16.toNat_ofNat', Nat.mod_eq_of_lt hnat]
  omega

theorem toNat_ofInt32 (v : ℤ) : ((Int32.ofInt v).toUInt32.toNat : ℤ) = v % 2 ^ 32 := by
  have h : (Int32.ofInt v).toUInt32.toNat = (v % 2 ^ 32).toNat := by simp [Int32.ofInt]
  rw [h]
  omega

/-- **Which integers arrive**, of those of 64 bits.  The asset of a transfer is that of the code
modulo `2 ^ 16`, and the limit of a query is sent modulo `2 ^ 32`: an asset code is used as it is
given exactly if it is in the range of 16 bits, and a limit exactly if it is in the range of 32
bits. -/
theorem call_integer_parameters (hh : HandlersEnsure (MadeFrom api params) c.responseFail c.error)
    (v : ℤ) (w : World ν) :
    (params.member? "asset-code" = some (.integer v) →
      ∀ t ∈ assets (c.call env api method params w).trace,
        t = api.tokenFromCode (UInt16.ofInt v) ∧
          ((∃ code : UInt16, (code.toNat : ℤ) = v ∧ t = api.tokenFromCode code) ↔
            0 ≤ v ∧ v < 2 ^ 16)) ∧
    (params.member? "limit" = some (.integer v) →
      ∀ l ∈ limits (c.call env api method params w).trace,
        l = some (.integer (v % 2 ^ 32)) ∧ (l = some (.integer v) ↔ 0 ≤ v ∧ v < 2 ^ 32)) := by
  constructor
  · intro hv t ht
    obtain ⟨call, hcall, hasset⟩ := List.mem_filterMap.1 ht
    obtain ⟨u, code, hu, hcode, rfl⟩ := ((call_madeFrom hh w).createCalls hcall).asset t hasset
    obtain rfl : Json.integer v = u := by rwa [hv, Option.some.injEq] at hu
    obtain rfl : UInt16.ofInt v = code := by simpa [getUnsignedShort_integer] using hcode
    refine ⟨rfl, fun ⟨code, hcode, _⟩ => ?_, fun hrange => ⟨_, ?_, rfl⟩⟩
    · have := code.toNat_lt
      omega
    · rw [toNat_ofInt16]
      omega
  · intro hv l hl
    obtain ⟨limit, rfl, hlimit⟩ := (call_madeFrom hh w).limits hl
    obtain rfl : Int32.ofInt v = limit := by simpa [getInt_integer] using hlimit _ hv
    rw [toNat_ofInt32]
    refine ⟨rfl, ?_⟩
    rw [Option.some.injEq, Json.integer.injEq]
    omega

/-- The parameters of a transfer. -/
def assetParams (code : Json) : Json :=
  .object [("private-key", .string "k"), ("to", .string "d"), ("amount", .integer 1),
    ("asset-code", code)]

/-- The parameters of a query for transactions. -/
def limitParams (limit : Json) : Json :=
  .object [("public-key", .string "k"), ("limit", limit)]

/-- The assets of a transfer at a node with a block id. -/
def transferAssets (code : Json) : List Token :=
  assets ((logging .sample).call (repeating (idReply (.string "7")))
    (.sample [idReply (.string "7")]) "send-transfer" (assetParams code) (World.init ())).trace

/-- The limits of a query for transactions. -/
def queryLimits (limit : Json) : List (Option Json) :=
  limits ((logging .sample).call (repeating (idReply (.string "7")))
    (.sample [idReply (.string "7")]) "get-wallet-transactions" (limitParams limit)
    (World.init ())).trace

/-- An asset code and a limit in range. -/
theorem call_integer_parameters_one :
    ((Api.sample []).tokenFromCode 1 ∈ transferAssets (.integer 1) ∧
      ((∃ code : UInt16, (code.toNat : ℤ) = 1 ∧
          (Api.sample []).tokenFromCode 1 = (Api.sample []).tokenFromCode code) ↔
        (0 : ℤ) ≤ 1 ∧ (1 : ℤ) < 2 ^ 16)) ∧
      some (.integer 1) ∈ queryLimits (.integer 1) ∧
      ((some (Json.integer 1) = some (.integer 1)) ↔ (0 : ℤ) ≤ 1 ∧ (1 : ℤ) < 2 ^ 32) := by
  have hasset : (Api.sample []).tokenFromCode 1 ∈ transferAssets (.integer 1) := by decide +kernel
  have hlimit : some (.integer 1) ∈ queryLimits (.integer 1) := by
    rw [show queryLimits (.integer 1) = [some (.integer 1)] from rfl]
    exact List.mem_singleton_self _
  have hassetParam : (assetParams (.integer 1)).member? "asset-code" = some (.integer 1) := by
    simp [assetParams, List.lookup_cons]
  have hlimitParam : (limitParams (.integer 1)).member? "limit" = some (.integer 1) := by
    simp [limitParams, List.lookup_cons]
  exact ⟨⟨hasset, ((call_integer_parameters (logging_madeFrom .sample) 1 (World.init ())).1
      hassetParam _ hasset).2⟩,
    hlimit, ((call_integer_parameters (logging_madeFrom .sample) 1 (World.init ())).2
      hlimitParam _ hlimit).2⟩

/-- An asset code of `2 ^ 16 + 1` selects the asset 1, and a limit of -1 is sent as
`2 ^ 32 - 1`. -/
theorem call_integer_parameters_wrap :
    transferAssets (.integer 65537) = [(Api.sample []).tokenFromCode 1] ∧
      (¬ ∃ code : UInt16, (code.toNat : ℤ) = 65537) ∧
      queryLimits (.integer (-1)) = [some (.integer 4294967295)] :=
  ⟨by decide +kernel, fun ⟨code, h⟩ => by have := code.toNat_lt; omega, rfl⟩

end Rpc.Client

end MileRpc
