import Mathlib.Algebra.Order.Ring.Rat
import PixelForge.Shared.Errors

/-! # Values, DynamoDB attributes and items

`PyVal` is the JSON-like part of Python's values: what `json.loads` and pydantic give, and what
`shared/aws.py` passes to boto3. `AttrValue` is a stored DynamoDB attribute.

* `PyVal.toDynamo` is `_to_dynamo`; `PyVal.serialize` is what boto3's serializer then does.
* `AttrValue.fromDynamo` is boto3's deserializer followed by `_from_dynamo`.
* `Item` is a stored item; an `UpdateItem` call is an `Update`, with its condition.
-/
set_option autoImplicit false

namespace PixelForge

/-- A Python `float`. A finite one is named by the decimal its `repr` prints, which determines
it. -/
inductive PyFloat
  | finite (repr : Rat)
  | nan
  | inf (negative : Bool)
deriving DecidableEq, Repr

/-- Whether `float(n)` does not overflow: from there on, `n` rounds to a number that is no `float`. -/
def fitsFloat (n : Int) : Bool := n.natAbs < 2 ^ 1024 - 2 ^ 970

/-- What `float` raises for an `int` that does not fit. -/
def floatOverflow : Exc := .python (.other "OverflowError") "int too large to convert to float"

inductive PyVal
  | none
  | bool (b : Bool)
  | int (n : Int)
  | float (x : PyFloat)
  | decimal (x : PyFloat)
  | str (s : String)
  | list (vs : List PyVal)
  | tuple (vs : List PyVal)
  | dict (kvs : List (String × PyVal))
deriving Repr

/-- The keyword arguments, items and JSON objects of the code: dictionaries with string keys. -/
abbrev PyDict : Type := List (String × PyVal)

inductive AttrValue
  | s (v : String)
  | n (v : Rat)
  | bool (v : Bool)
  | null
  | l (vs : List AttrValue)
  | m (kvs : List (String × AttrValue))
deriving Repr

/-! ## `_to_dynamo` and boto3's serializer -/

mutual
def PyVal.toDynamo : PyVal → PyVal
  | .float x => .decimal x
  | .dict kvs => .dict (toDynamoDict kvs)
  | .list vs => .list (toDynamoList vs)
  | .tuple vs => .list (toDynamoList vs)
  | v => v

def toDynamoList : List PyVal → List PyVal
  | [] => []
  | v :: vs => v.toDynamo :: toDynamoList vs

/-- `{key: _to_dynamo(item) for key, item in value.items() if item is not None}`. -/
def toDynamoDict : List (String × PyVal) → List (String × PyVal)
  | [] => []
  | (_, .none) :: kvs => toDynamoDict kvs
  | (k, v) :: kvs => (k, v.toDynamo) :: toDynamoDict kvs
end

/-- What boto3 raises for a value it cannot serialise. -/
def serializerError (cls text : String) : Exc := .python (.other cls) text

/-- A signal of boto3's decimal context, which traps the loss of a digit. -/
def decimalSignal (cls : String) : Exc := serializerError cls s!"[<class 'decimal.{cls}'>]"

/-- The signal for an `int` of more than 38 digits. -/
def intSignal (n : Int) : Exc :=
  if 10 ^ 127 ≤ n.natAbs then decimalSignal "Overflow"
  else if n.natAbs % 10 ^ ((Nat.toDigits 10 n.natAbs).length - 38) = 0 then decimalSignal "Rounded"
  else decimalSignal "Inexact"

theorem intSignal_eq (n : Int) : ∃ cls text, intSignal n = serializerError cls text := by
  unfold intSignal
  split_ifs
  exacts [⟨_, _, rfl⟩, ⟨_, _, rfl⟩, ⟨_, _, rfl⟩]

/-- The numbers DynamoDB stores: at most 38 digits, magnitude from 1E-130 to 9.99E+125. -/
def inDynamoRange (q : Rat) : Bool := q == 0 || (1 / 10 ^ 130 ≤ |q| && |q| < 10 ^ 126)

mutual
/-- boto3's `TypeSerializer`. It refuses `float`, and a number outside its decimal context. -/
def PyVal.serialize : PyVal → Except Exc AttrValue
  | .none => .ok .null
  | .bool b => .ok (.bool b)
  | .int n =>
    if n.natAbs < 10 ^ 38 then .ok (.n n) else .error (intSignal n)
  | .float _ => .error (serializerError "TypeError" "Float types are not supported")
  | .decimal (.finite q) =>
    if inDynamoRange q then .ok (.n q)
    else .error (decimalSignal (if |q| < 1 then "Underflow" else "Overflow"))
  | .decimal _ => .error (serializerError "TypeError" "Infinity and NaN not supported")
  | .str s => .ok (.s s)
  | .list vs => (serializeList vs).map .l
  | .tuple vs => (serializeList vs).map .l
  | .dict kvs => (serializeDict kvs).map .m

def serializeList : List PyVal → Except Exc (List AttrValue)
  | [] => .ok []
  | v :: vs =>
    match v.serialize with
    | .error e => .error e
    | .ok a => (serializeList vs).map (a :: ·)

def serializeDict : List (String × PyVal) → Except Exc (List (String × AttrValue))
  | [] => .ok []
  | (k, v) :: kvs =>
    match v.serialize with
    | .error e => .error e
    | .ok a => (serializeDict kvs).map ((k, a) :: ·)
end

theorem ok_of_map_ok {α β : Type} {x : Except Exc α} {f : α → β} {b : β} (h : x.map f = .ok b) :
    ∃ a, x = .ok a ∧ f a = b := by
  cases x with
  | error e => cases h
  | ok a => exact ⟨a, rfl, Except.ok.inj h⟩

theorem ok_of_bind_ok {α β : Type} {x : Except Exc α} {f : α → Except Exc β} {b : β}
    (h : x >>= f = .ok b) : ∃ a, x = .ok a ∧ f a = .ok b := by
  cases x with
  | error _ => cases h
  | ok a => exact ⟨a, rfl, h⟩

theorem error_of_bind_error {α β : Type} {x : Except Exc α} {f : α → Except Exc β} {e : Exc}
    (h : x >>= f = .error e) : x = .error e ∨ ∃ a, x = .ok a ∧ f a = .error e := by
  cases x with
  | error _ => exact .inl (congrArg _ (Except.error.inj h))
  | ok a => exact .inr ⟨a, rfl, h⟩

theorem error_of_map_error {α β : Type} {x : Except Exc α} {f : α → β} {e : Exc}
    (h : x.map f = .error e) : x = .error e := by
  cases x with
  | error _ => exact congrArg _ (Except.error.inj h)
  | ok a => cases h

mutual
/-- boto3 refuses a value with an exception that no `except` clause names. -/
theorem PyVal.serialize_error {e : Exc} :
    ∀ v : PyVal, v.serialize = .error e → ∃ cls text, e = serializerError cls text
  | .none, h => by cases h
  | .bool _, h => by cases h
  | .str _, h => by cases h
  | .int n, h => by
      unfold PyVal.serialize at h
      split at h <;> cases h
      exact intSignal_eq n
  | .float _, h => ⟨_, _, (Except.error.inj h).symm⟩
  | .decimal (.finite q), h => by
      unfold PyVal.serialize at h
      split at h <;> cases h
      exact ⟨_, _, rfl⟩
  | .decimal .nan, h => ⟨_, _, (Except.error.inj h).symm⟩
  | .decimal (.inf _), h => ⟨_, _, (Except.error.inj h).symm⟩
  | .list vs, h => serializeList_error vs (error_of_map_error h)
  | .tuple vs, h => serializeList_error vs (error_of_map_error h)
  | .dict kvs, h => serializeDict_error kvs (error_of_map_error h)

theorem serializeList_error {e : Exc} :
    ∀ vs : List PyVal, serializeList vs = .error e → ∃ cls text, e = serializerError cls text
  | [], h => by cases h
  | v :: vs, h => by
      unfold serializeList at h
      split at h
      · rename_i hv
        cases h
        exact PyVal.serialize_error v hv
      · exact serializeList_error vs (error_of_map_error h)

theorem serializeDict_error {e : Exc} :
    ∀ kvs : List (String × PyVal),
      serializeDict kvs = .error e → ∃ cls text, e = serializerError cls text
  | [], h => by cases h
  | (k, v) :: kvs, h => by
      unfold serializeDict at h
      split at h
      · rename_i hv
        cases h
        exact PyVal.serialize_error v hv
      · exact serializeDict_error kvs (error_of_map_error h)
end

/-! ## boto3's deserializer and `_from_dynamo` -/

mutual
/-- A stored attribute as the code sees it: `int` when the `Decimal` is a whole number, else
`float`. -/
def AttrValue.fromDynamo : AttrValue → PyVal
  | .s v => .str v
  | .n q => if q.den = 1 then .int q.num else .float (.finite q)
  | .bool b => .bool b
  | .null => .none
  | .l vs => .list (fromDynamoList vs)
  | .m kvs => .dict (fromDynamoDict kvs)

def fromDynamoList : List AttrValue → List PyVal
  | [] => []
  | v :: vs => v.fromDynamo :: fromDynamoList vs

def fromDynamoDict : List (String × AttrValue) → List (String × PyVal)
  | [] => []
  | (k, v) :: kvs => (k, v.fromDynamo) :: fromDynamoDict kvs
end

theorem lookup_fromDynamoDict (name : String) :
    ∀ kvs : List (String × AttrValue),
      (fromDynamoDict kvs).lookup name = (kvs.lookup name).map AttrValue.fromDynamo
  | [] => rfl
  | (k, v) :: kvs => by
      rw [fromDynamoDict, List.lookup_cons, List.lookup_cons, lookup_fromDynamoDict name kvs]
      cases name == k <;> rfl

/-! ## Items -/

/-- A stored item: its attributes by name, in no particular order. -/
abbrev Item : Type := List (String × AttrValue)

theorem lookup_cons_if {α : Type} (k key : String) (v : α) (d : List (String × α)) :
    ((key, v) :: d).lookup k = if k = key then some v else d.lookup k := by
  rw [List.lookup_cons]
  by_cases hk : k = key
  · simp [hk]
  · have hb : (k == key) = false := by simpa using hk
    rw [hb, if_neg hk]

namespace Item

def get (it : Item) (name : String) : Option AttrValue := it.lookup name

def remove (it : Item) (name : String) : Item := it.filter fun kv => kv.1 != name

def set (it : Item) (name : String) (v : AttrValue) : Item := (name, v) :: it.remove name

theorem get_cons (k a : String) (v : AttrValue) (it : Item) :
    get ((k, v) :: it) a = if a = k then some v else get it a := lookup_cons_if a k v it

theorem get_remove (it : Item) (name a : String) :
    (it.remove name).get a = if a = name then none else it.get a := by
  induction it with
  | nil => simp [remove, get]
  | cons kv it ih =>
    obtain ⟨k, v⟩ := kv
    have hcons : remove ((k, v) :: it) name =
        if k = name then remove it name else (k, v) :: remove it name := by
      by_cases hk : k = name <;> simp [remove, hk]
    rw [hcons, get_cons]
    by_cases hk : k = name
    · rw [if_pos hk, ih]
      by_cases ha : a = name <;> simp [ha, hk]
    · rw [if_neg hk, get_cons, ih]
      by_cases ha : a = k
      · simp [ha, hk]
      · simp [ha]

theorem get_set (it : Item) (name a : String) (v : AttrValue) :
    (it.set name v).get a = if a = name then some v else it.get a := by
  rw [set, get_cons, get_remove]
  by_cases h : a = name <;> simp [h]

/-- `SET` every attribute of `sets`, then `REMOVE` every one of `removes`. -/
def update (it : Item) (sets : List (String × AttrValue)) (removes : List String) : Item :=
  removes.foldl remove (sets.foldl (fun it kv => it.set kv.1 kv.2) it)

theorem get_update_of_not_mem (sets : List (String × AttrValue)) (removes : List String)
    (a : String) (hs : a ∉ sets.map Prod.fst) (hr : a ∉ removes) (it : Item) :
    (it.update sets removes).get a = it.get a := by
  unfold update
  have hsets : (sets.foldl (fun it kv => it.set kv.1 kv.2) it).get a = it.get a := by
    induction sets generalizing it with
    | nil => rfl
    | cons kv sets ih =>
      simp only [List.map_cons, List.mem_cons, not_or] at hs
      rw [List.foldl_cons, ih hs.2, get_set, if_neg hs.1]
  rw [← hsets]
  generalize sets.foldl (fun it kv => it.set kv.1 kv.2) it = it'
  induction removes generalizing it' with
  | nil => rfl
  | cons r removes ih =>
    simp only [List.mem_cons, not_or] at hr
    rw [List.foldl_cons, ih hr.2, get_remove, if_neg hr.1]

end Item

/-- The condition expressions of the code. -/
inductive Condition
  | attributeExists (name : String)
  | notEquals (name value : String)
  | and (c d : Condition)
deriving DecidableEq, Repr

/-- Whether a condition holds of the stored item, if there is one. A missing attribute is not
equal to any value. -/
def Condition.holds (it : Option Item) : Condition → Bool
  | .attributeExists name => (it.bind fun i => i.get name).isSome
  | .notEquals name value =>
    match it.bind fun i => i.get name with
    | some (.s v) => v != value
    | _ => true
  | .and c d => c.holds it && d.holds it

/-- The arguments of an `UpdateItem` call: what it sets and removes, and on which condition. -/
structure Update where
  set : PyDict
  remove : List String
  condition : Option Condition
deriving Repr

end PixelForge
