/-
  Digests of values, for looking up keys.

  A value is written out as a sequence of words and texts (`digestItems`), a map with its
  rows in the order of their names, so that values equal as keys are written alike.  The
  digest of a sequence is the same for equal sequences and nearly always differs for
  others, so that keys are compared in full only when their digests agree.
-/
import StreamSql.Value.Compare

namespace StreamSql.Value

/-- One item of the written form of a value. -/
inductive DigestItem where
  | word (w : UInt64)
  | text (s : String)
  deriving DecidableEq, Repr

/-- The bits under which a float is written; one pattern for all that is not a number. -/
def floatKeyBits (x : Double) : UInt64 :=
  if x.isNaN then 0x7FF8000000000000 else x.bits

/-- The number of a kind in the written form. -/
def kindTag : ValueKind → UInt64
  | .integer => 0 | .float => 1 | .text => 2 | .boolean => 3 | .null => 4 | .array => 5
  | .map => 6

mutual

/-- The written form of a value. -/
def digestItems : Value → List DigestItem
  | integer n => [.word (kindTag .integer), .word n.toUInt64]
  | float x => [.word (kindTag .float), .word (floatKeyBits x)]
  | text s => [.word (kindTag .text), .text s]
  | boolean b => [.word (kindTag .boolean), .word (if b then 1 else 0)]
  | null => [.word (kindTag .null)]
  | array items =>
    .word (kindTag .array) :: .word (UInt64.ofNat items.length) :: digestItemsOfList items
  | map fields =>
    .word (kindTag .map) :: .word (UInt64.ofNat fields.length) ::
      (digestRows fields).sorted.flatMap fun row => .text row.1 :: row.2

/-- The written forms of the items in order. -/
def digestItemsOfList : List Value → List DigestItem
  | [] => []
  | v :: rest => digestItems v ++ digestItemsOfList rest

/-- The rows of a table with their values in written form. -/
def digestRows : Table Value → Table (List DigestItem)
  | [] => []
  | (name, v) :: rest => (name, digestItems v) :: digestRows rest

end

/-- One step of the digest. -/
def mixWord (hash word : UInt64) : UInt64 :=
  (hash ^^^ word) * 0x100000001B3

/-- The digest of a sequence of items that starts from `hash`. -/
def digestFrom (hash : UInt64) (items : List DigestItem) : UInt64 :=
  items.foldl
    (fun hash item =>
      match item with
      | .word w => mixWord hash w
      | .text s => mixWord (s.foldl (fun h c => mixWord h c.val.toUInt64) hash) 0xFF)
    hash

/-- The digest of a list of values. -/
def digestOfList (values : List Value) : UInt64 :=
  digestFrom 0xCBF29CE484222325 (digestItemsOfList values)

end StreamSql.Value
