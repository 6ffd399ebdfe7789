import MileRpc.Json.Number

/-!
# JSON values

`Json` is a value of `nlohmann::json`, with the accessors the client uses.  Each accessor follows
the documented behaviour for every kind of value:

* `Json.count` is 0 on anything but an object;
* `Json.index` is the `operator[]` of a mutable value: null becomes an object, a missing key is
  inserted as null, and any other kind is a `type_error`;
* `Json.constIndex` is the `operator[]` of a constant value: on an object without the key it
  dereferences the end iterator, which is the `none` of its result;
* `Json.getString`, `Json.getNumber` are the implicit conversions to `std::string` and to an
  arithmetic type; the latter accepts a boolean.

A string is a byte string; the byte `b` is the character number `b`.
-/

namespace MileRpc

/-- A JSON value. -/
inductive Json where
  | null
  | boolean (b : Bool)
  /-- A signed or unsigned integer. -/
  | integer (n : ℤ)
  /-- A `double`. -/
  | float (x : Binary)
  | string (s : String)
  | array (xs : List Json)
  | object (fields : List (String × Json))
  deriving Repr, Inhabited

/-- The classes of exceptions of the JSON library. -/
inductive JsonErrorKind where
  | parseError
  | invalidIterator
  | typeError
  | outOfRange
  | otherError
  deriving DecidableEq, Repr

/-- An exception of the JSON library. -/
structure JsonError where
  /-- Its class. -/
  kind : JsonErrorKind
  /-- Its text. -/
  what : String
  deriving DecidableEq, Repr

namespace Json

/-- The name of the kind of a value, as the error texts give it. -/
def typeName : Json → String
  | null => "null"
  | boolean _ => "boolean"
  | integer _ => "number"
  | float _ => "number"
  | string _ => "string"
  | array _ => "array"
  | object _ => "object"

/-- `operator[]` on a value that has no keys. -/
def indexError (j : Json) : JsonError :=
  ⟨.typeError, "[json.exception.type_error.305] cannot use operator[] with " ++ j.typeName⟩

/-- A conversion to a type that the value does not have. -/
def conversionError (expected : String) (j : Json) : JsonError :=
  ⟨.typeError, "[json.exception.type_error.302] type must be " ++ expected ++ ", but is " ++
    j.typeName⟩

/-- The member `key` of an object. -/
def member? (j : Json) (key : String) : Option Json :=
  match j with
  | object fields => fields.lookup key
  | _ => none

/-- `j.count(key)` -/
def count (j : Json) (key : String) : ℕ := if (j.member? key).isSome then 1 else 0

/-- `j[key]` on a constant value; `none` is the dereference of the end iterator. -/
def constIndex (j : Json) (key : String) : Except JsonError (Option Json) :=
  match j with
  | object fields => .ok (fields.lookup key)
  | j => .error j.indexError

/-- `j[key]` on a mutable value. -/
def index (j : Json) (key : String) : Except JsonError Json :=
  match j with
  | object fields => .ok ((fields.lookup key).getD null)
  | null => .ok null
  | j => .error j.indexError

/-- `j[key] = v` on an object. -/
def set (j : Json) (key : String) (v : Json) : Json :=
  match j with
  | object fields => object (if (fields.lookup key).isSome
      then fields.map fun f => if f.1 = key then (key, v) else f
      else fields ++ [(key, v)])
  | j => j

/-- `j.empty()` -/
def isEmpty : Json → Bool
  | null => true
  | array xs => xs.isEmpty
  | object fields => fields.isEmpty
  | _ => false

/-- `j == nullptr` -/
def isNull : Json → Bool
  | null => true
  | _ => false

/-- The conversion to `std::string`. -/
def getString : Json → Except JsonError String
  | string s => .ok s
  | j => .error (j.conversionError "string")

/-- The conversion to an arithmetic type, before the cast to that type. -/
def getNumber : Json → Except JsonError Binary
  | integer n => .ok (.ofInt n)
  | float x => .ok x
  | boolean b => .ok (.ofInt b.toNat)
  | j => .error (j.conversionError "number")

/-- The conversion to `float`. -/
def getFloat (j : Json) : Except JsonError Single := j.getNumber.map Single.round

/-- The conversion to `unsigned short`. -/
def getUnsignedShort (j : Json) : Except JsonError UInt16 :=
  j.getNumber.map fun x => UInt16.ofInt x.trunc

/-- The conversion to `int`. -/
def getInt (j : Json) : Except JsonError Int32 := j.getNumber.map fun x => Int32.ofInt x.trunc

/-! ### Members -/

@[simp] theorem member?_object (fields : List (String × Json)) (key : String) :
    (object fields).member? key = fields.lookup key := rfl

theorem count_eq_zero {j : Json} {key : String} : j.count key = 0 ↔ j.member? key = none := by
  cases h : j.member? key <;> simp [count, h]

theorem count_pos {j : Json} {key : String} : 0 < j.count key ↔ ∃ v, j.member? key = some v := by
  rw [Nat.pos_iff_ne_zero, ne_eq, count_eq_zero, ← ne_eq, Option.ne_none_iff_exists']

/-- Where a member is counted, both index operators return it. -/
theorem constIndex_of_member {j v : Json} {key : String} (h : j.member? key = some v) :
    j.constIndex key = .ok (some v) := by
  cases j <;> simp_all [member?, constIndex]

theorem constIndex_eq_some {j v : Json} {key : String} :
    j.constIndex key = .ok (some v) ↔ j.member? key = some v := by
  cases j <;> simp [member?, constIndex]

theorem getString_eq_ok {j : Json} {s : String} : j.getString = .ok s ↔ j = string s := by
  cases j <;> simp [getString]

theorem lookup_map_set {fields : List (String × Json)} {key : String} {v : Json}
    (h : (fields.lookup key).isSome) :
    (fields.map fun f => if f.1 = key then (key, v) else f).lookup key = some v := by
  induction fields with
  | nil => simp at h
  | cons f fields ih =>
    obtain ⟨k, x⟩ := f
    by_cases hf : k = key
    · simp [hf]
    · have hk : (key == k) = false := by simpa using fun h => hf h.symm
      simp only [List.lookup_cons, hk] at h
      simp only [List.map_cons, hf, ↓reduceIte, List.lookup_cons, hk]
      exact ih h

/-- An assigned member is read back. -/
theorem member?_set {fields : List (String × Json)} (key : String) (v : Json) :
    ((object fields).set key v).member? key = some v := by
  simp only [set, member?]
  split_ifs with h
  · exact lookup_map_set h
  · simp [List.lookup_append, Option.not_isSome_iff_eq_none.1 h]

/-- The other members of an object survive an assignment. -/
theorem member?_set_of_ne {fields : List (String × Json)} {key key' : String} (v : Json)
    (hne : key' ≠ key) :
    ((object fields).set key v).member? key' = (object fields).member? key' := by
  have hb : (key' == key) = false := by simpa using hne
  simp only [set, member?]
  split_ifs with h
  · clear h
    induction fields with
    | nil => rfl
    | cons f fields ih =>
      obtain ⟨k, x⟩ := f
      by_cases hf : k = key
      · simpa [List.lookup_cons, hf, hb] using ih
      · simp only [List.map_cons, hf, ↓reduceIte, List.lookup_cons]
        cases key' == k
        · exact ih
        · rfl
  · simp [List.lookup_append, List.lookup_cons, hb]

end Json

end MileRpc
