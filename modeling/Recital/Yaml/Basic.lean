import Recital.Binary64

/-!
# YAML values

What a YAML document says, apart from how it is written: aliases are replaced by what they stand
for, and plain scalars have become values.  A mapping keeps the order of its entries, and its keys
may be any values.  A value can carry a tag that the application gives a meaning to.
-/

namespace Recital

/-- The value of a YAML document. -/
inductive Yaml
  | null
  | bool (value : Bool)
  /-- An integer between the least signed and the greatest unsigned 64-bit word. -/
  | int (value : Int)
  | real (value : Binary64)
  | str (value : String)
  | seq (items : List Yaml)
  | map (entries : List (Yaml × Yaml))
  /-- A value that carries a tag of the application's own, named without the mark in front of
  it. -/
  | tagged (tag : String) (value : Yaml)
deriving Inhabited

namespace Yaml

/-- The value without the tags it carries. -/
def untag : Yaml → Yaml
  | tagged _ y => untag y
  | y => y

/-- Two floating-point numbers that count as one key: equal ones, both zeros, or any two that are
no numbers. -/
def sameReal (x y : Binary64) : Bool :=
  x == y || (x.isNaN && y.isNaN) || (x.magnitudeBits == 0 && y.magnitudeBits == 0)

mutual

/-- Two values that count as one key.  The order of the entries of a mapping does not matter. -/
def same : Yaml → Yaml → Bool
  | null, null => true
  | bool a, bool b => a == b
  | int a, int b => a == b
  | real a, real b => sameReal a b
  | str a, str b => a == b
  | seq as, seq bs => sameItems as bs
  | map as, map bs => as.length == bs.length && sameEntries as bs
  | tagged s a, tagged t b => s == t && same a b
  | _, _ => false

/-- The values of two lists are the same one by one. -/
def sameItems : List Yaml → List Yaml → Bool
  | [], [] => true
  | a :: as, b :: bs => same a b && sameItems as bs
  | _, _ => false

/-- Each of the entries has one in the other list that is the same. -/
def sameEntries : List (Yaml × Yaml) → List (Yaml × Yaml) → Bool
  | [], _ => true
  | (k, v) :: rest, bs => bs.any (fun e => same k e.1 && same v e.2) && sameEntries rest bs

end

mutual

/-- The value or a part of it carries a tag. -/
def hasTag : Yaml → Bool
  | tagged _ _ => true
  | seq items => itemsHaveTag items
  | map entries => entriesHaveTag entries
  | _ => false

/-- One of the values or a part of one carries a tag. -/
def itemsHaveTag : List Yaml → Bool
  | [] => false
  | y :: rest => hasTag y || itemsHaveTag rest

/-- A key or a value of the entries, or a part of one, carries a tag. -/
def entriesHaveTag : List (Yaml × Yaml) → Bool
  | [] => false
  | (k, v) :: rest => hasTag k || hasTag v || entriesHaveTag rest

end

end Yaml

end Recital
