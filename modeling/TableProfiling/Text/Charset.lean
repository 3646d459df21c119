namespace TableProfiling

-- A set of characters, as ranges of code points that include both ends.
structure Charset where
  ranges : List (Nat × Nat)

namespace Charset

def contains (s : Charset) (c : Char) : Bool :=
  s.ranges.any fun (first, last) => first ≤ c.toNat && c.toNat ≤ last

-- The characters with the Unicode property `White_Space`.
def blank : Charset where
  ranges := [
    (0x9, 0xd), (0x20, 0x20), (0x85, 0x85), (0xa0, 0xa0), (0x1680, 0x1680), (0x2000, 0x200a),
    (0x2028, 0x2029), (0x202f, 0x202f), (0x205f, 0x205f), (0x3000, 0x3000)]

end Charset

-- Whether a text has no character other than white space.
def isBlank (s : String) : Bool :=
  s.toList.all Charset.blank.contains

end TableProfiling
