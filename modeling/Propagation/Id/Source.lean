import Propagation.Id.Basic

/-!
# Sources of identifiers

A source hands out identifiers one after the other, the same ones in the same order each time
it is started anew. Which identifiers it hands out is a parameter; the seeded source mixes a
64-bit counter and marks the result as a random identifier of version 4.

## Main definitions

* `IdSource`: a sequence of identifiers with the number of those already handed out.
* `IdSource.next`: hand out one identifier.
* `IdSource.seeded`: the source that grows from a 64-bit seed.
-/

namespace Propagation

/-- A sequence of identifiers, some of which have been handed out. -/
structure IdSource where
  /-- The identifiers, in the order in which they are handed out. -/
  draw : Nat → BitVec 128
  /-- How many have been handed out. -/
  drawn : Nat := 0

namespace IdSource

/-- Hand out the next identifier, for a record of kind `e`. -/
def next (e : Entity) (s : IdSource) : Id e × IdSource :=
  (⟨s.draw s.drawn⟩, { s with drawn := s.drawn + 1 })

/-- Scatter the bits of the counter `z`. -/
def mix (z : BitVec 64) : BitVec 64 :=
  let z := (z ^^^ (z >>> 30)) * 0xBF58476D1CE4E5B9#64
  let z := (z ^^^ (z >>> 27)) * 0x94D049BB133111EB#64
  z ^^^ (z >>> 31)

/-- The distance between two counters: odd, so that the counters run through all words. -/
def stride : BitVec 64 := 0x9E3779B97F4A7C15#64

/-- The `k`-th word that grows from `seed`. -/
def word (seed : BitVec 64) (k : Nat) : BitVec 64 :=
  mix (seed + stride * BitVec.ofNat 64 (k + 1))

/-- Mark `raw` as an identifier of version 4 and of the standard variant. -/
def markRandom (raw : BitVec 128) : BitVec 128 :=
  (raw &&& 0xFFFFFFFFFFFF4FFFBFFFFFFFFFFFFFFF#128) ||| 0x00000000000040008000000000000000#128

/-- The source that grows from `seed`: two words make one identifier, the first the higher. -/
def seeded (seed : BitVec 64) : IdSource where
  draw k := markRandom (word seed (2 * k) ++ word seed (2 * k + 1))

end IdSource

end Propagation
