import TokenMesh.Binary64
import TokenMesh.Random.Stream

namespace TokenMesh

/-!
# Random choices

A generator is a stream of random words and how many of them have been drawn, so two generators
with the same key that have drawn equally often make the same choices from then on.

* `Generator.next32`, `Generator.next64`: the next word, or two of them;
* `Generator.below?`: a number below a bound, all equally likely but for a negligible rest;
* `Generator.chance`: an event of a given probability.
-/

/-- A source of random choices. -/
structure Generator where
  key : Random.Key
  drawn : Nat
deriving DecidableEq, Repr

namespace Generator

/-- The generator of a seed, with nothing drawn from it. -/
def ofSeed (seed : UInt64) : Generator := ⟨Random.Key.ofSeed seed, 0⟩

/-- The next word. -/
def next32 (g : Generator) : UInt32 × Generator :=
  (Random.word g.key g.drawn, { g with drawn := g.drawn + 1 })

/-- The next two words as one number, the first of them the lower half. -/
def next64 (g : Generator) : UInt64 × Generator :=
  let (low, g) := g.next32
  let (high, g) := g.next32
  (high.toUInt64 <<< 32 ||| low.toUInt64, g)

/-- A draw of 32 or 64 bits. -/
def draw (wide : Bool) (g : Generator) : Nat × Generator :=
  if wide then (g.next64.1.toNat, g.next64.2) else (g.next32.1.toNat, g.next32.2)

/-- A number below a bound, unless the bound is zero: the upper half of a draw times the bound.
    Where the lower half leaves in doubt which number it is, a second draw is added below the
    first and its carry decides.  Bounds below 2³² take draws of 32 bits, others of 64. -/
def below? (bound : Nat) (g : Generator) : Option (Nat × Generator) :=
  if bound = 0 then none
  else
    let wide : Bool := UInt32.size ≤ bound
    let range := if wide then UInt64.size else UInt32.size
    let (first, g) := g.draw wide
    let high := first * bound / range
    let low := first * bound % range
    if low ≤ (range - bound) % range then some (high, g)
    else
      let (second, g) := g.draw wide
      let carry := if range ≤ low + second * bound / range then 1 else 0
      some (high + carry, g)

/-- Whether an event of a given probability happens.  A certain one takes no draw. -/
def chance (p : Binary64) (g : Generator) : Bool × Generator :=
  if p = .one then (true, g)
  else
    let (n, g) := g.next64
    (n.toNat < p.share, g)

end Generator

end TokenMesh
