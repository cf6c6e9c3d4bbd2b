import Flannel.Lib.SortedMap
import Mathlib.Data.String.Basic

/-!
# JSON values

The values of `serde_json`, as it is built without `preserve_order` and `arbitrary_precision`: an
object is an ordered map, so its members are kept in ascending order of their keys, which is the
order of their bytes and of their code points alike.

`Value` itself does not keep the order.  `Value.Wf` says that every object in a value does, and a
`Map` is an object with that.
-/

namespace Json

/-- `serde_json::Number`: an unsigned integer, a negative one, or the bits of a float. -/
inductive Number where
  | posInt (n : UInt64)
  | negInt (n : Int64)
  | float (bits : UInt64)
  deriving DecidableEq, Repr

/-- `Number::as_i64`. -/
def Number.asI64 : Number → Option Int
  | .posInt n => if n.toNat ≤ 9223372036854775807 then some n.toNat else none
  | .negInt n => some n.toInt
  | .float _ => none

/-- `serde_json::Value`. -/
inductive Value where
  | null
  | bool (b : Bool)
  | number (n : Number)
  | string (s : String)
  | array (elements : List Value)
  | object (members : List (String × Value))
  deriving Repr

namespace Value

/-- `Value::as_i64`. -/
def asI64 : Value → Option Int
  | .number n => n.asI64
  | _ => none

/-- `Value::as_bool`. -/
def asBool : Value → Option Bool
  | .bool b => some b
  | _ => none

/-- `Value::as_str`. -/
def asStr : Value → Option String
  | .string s => some s
  | _ => none

theorem asStr_eq_some_iff {v : Value} {s : String} : v.asStr = some s ↔ v = .string s := by
  cases v <;> simp [asStr]

/-- Every object lists its members in ascending order. -/
inductive Wf : Value → Prop
  | null : Wf .null
  | bool (b : Bool) : Wf (.bool b)
  | number (n : Number) : Wf (.number n)
  | string (s : String) : Wf (.string s)
  | array {elements : List Value} (h : ∀ v ∈ elements, v.Wf) : Wf (.array elements)
  | object {members : List (String × Value)} (hsorted : SortedMap.Sorted members)
      (h : ∀ e ∈ members, e.2.Wf) : Wf (.object members)

theorem wf_empty : (Value.object []).Wf :=
  .object SortedMap.sorted_nil fun _ he => absurd he List.not_mem_nil

theorem Wf.sorted {members : List (String × Value)} (h : (Value.object members).Wf) :
    SortedMap.Sorted members := by
  cases h
  assumption

theorem Wf.of_mem {members : List (String × Value)} (h : (Value.object members).Wf)
    {e : String × Value} (he : e ∈ members) : e.2.Wf := by
  cases h with
  | object _ hmembers => exact hmembers e he

theorem Wf.of_get {members : List (String × Value)} (h : (Value.object members).Wf) {k : String}
    {v : Value} (hv : SortedMap.get members k = some v) : v.Wf :=
  h.of_mem ((SortedMap.mem_iff_get_eq h.sorted).mpr hv)

theorem Wf.insert {members : List (String × Value)} (h : (Value.object members).Wf) (k : String)
    {v : Value} (hv : v.Wf) : (Value.object (SortedMap.insert k v members)).Wf := by
  have hsorted := h.sorted.insert k v
  refine .object hsorted fun e he => ?_
  rw [SortedMap.mem_iff_get_eq hsorted (k := e.1) (v := e.2), SortedMap.get_insert h.sorted] at he
  split_ifs at he
  · cases he
    exact hv
  · exact h.of_get he

theorem Wf.extend {members : List (String × Value)} (h : (Value.object members).Wf)
    {pairs : List (String × Value)} (hpairs : ∀ e ∈ pairs, e.2.Wf) :
    (Value.object (SortedMap.extend members pairs)).Wf := by
  induction pairs generalizing members with
  | nil => exact h
  | cons p pairs ih =>
    rw [List.forall_mem_cons] at hpairs
    exact ih (h.insert p.1 hpairs.1) hpairs.2

end Value

/-- `serde_json::Map`. -/
structure Map where
  members : List (String × Value)
  wf : (Value.object members).Wf

namespace Map

/-- `Map::get`. -/
def get (m : Map) (k : String) : Option Value := SortedMap.get m.members k

/-- `Map::contains_key`. -/
def containsKey (m : Map) (k : String) : Bool := (m.get k).isSome

end Map

end Json
