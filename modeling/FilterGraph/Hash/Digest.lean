import FilterGraph.Hash.Blake2b
import FilterGraph.Json.Canonical

/-!
# The digest of a JSON value

`Digest.ofJson v` is the BLAKE2b hash of eight bytes of the canonical text of `v`, read as a
big-endian number. Since the canonical text forgets the order of object members, so does the digest.
-/

namespace FilterGraph

/-- A number of 64 bits that stands for a value. -/
abbrev Digest := UInt64

namespace Digest

/-- The bytes of a word in reverse order. -/
def swapBytes (x : UInt64) : UInt64 :=
  (List.range 8).foldl (fun acc i => acc * 256 + (x >>> UInt64.ofNat (8 * i)) % 256) 0

/-- The digest of a text. -/
def ofText (s : String) : Digest := swapBytes ((Blake2b.absorb 8 s.toUTF8.toList).get 0)

/-- The digest of a value: of two texts that are equal the digests are. -/
def ofJson (v : Json) : Digest := ofText v.canonical

/-- A digest as sixteen hexadecimal digits. -/
def hex (d : Digest) : String := .ofList (Text.hexDigits 16 d.toNat)

end Digest

end FilterGraph
