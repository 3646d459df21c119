import TableProfiling.Number.Binary64

namespace TableProfiling.Json

-- A number is an integer if its text has neither fraction nor exponent and it fits into 64 bits,
-- with or without a sign; any other number is a finite double.
inductive Number
  | integer (n : Int) (fits : -0x8000000000000000 ≤ n ∧ n < 0x10000000000000000)
  | double (x : Binary64) (finite : x.isFinite)
  deriving DecidableEq

-- Whoever reads an object puts its members in the order of their keys.
inductive Value
  | null
  | bool (b : Bool)
  | number (n : Number)
  | string (s : String)
  | array (items : List Value)
  | object (members : List (String × Value))
  deriving Inhabited

-- The value of a double: JSON has no text for infinities and for what is not a number.
def Value.ofDouble (x : Binary64) : Value :=
  if h : x.isFinite then .number (.double x h) else .null

def Value.ofInt64 (n : Int64) : Value :=
  .number (.integer n.toInt ⟨n.le_toInt, Int.lt_trans n.toInt_lt (by decide)⟩)

def Value.ofUInt32 (n : UInt32) : Value :=
  .number (.integer n.toNat ⟨by omega, by have := n.toNat_lt; omega⟩)

-- Puts a member into a list in the order of its keys, in place of one with the same key.
def putSorted (k : String) (v : α) : List (String × α) → List (String × α)
  | [] => [(k, v)]
  | (k', v') :: ms =>
    if k < k' then (k, v) :: (k', v') :: ms
    else if k = k' then (k, v) :: ms
    else (k', v') :: putSorted k v ms

end TableProfiling.Json
