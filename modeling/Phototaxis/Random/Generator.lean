/-!
# A seeded generator

All random numbers of a world come from one generator with four words of state.
`Generator.next` rotates, adds and shifts them; the arithmetic wraps at 64 bits. The
seed is spread over the state by a second, linear recurrence that yields eight half
words.

A `Draw` is a computation that takes numbers from the generator. Draws run strictly
one after the other, so a seed and a list of draws fix every number.
-/

namespace Phototaxis

/-- The state of the generator. -/
structure Generator where
  s0 : UInt64
  s1 : UInt64
  s2 : UInt64
  s3 : UInt64
deriving DecidableEq, Inhabited

/-- A computation that takes numbers from the generator. -/
abbrev Draw := StateM Generator

namespace Generator

/-- The seed of a world that names none. -/
def standardSeed : UInt64 := 12345

/-- A word turned to the left by `n` bits, `0 < n < 64`. -/
def rotateLeft (w n : UInt64) : UInt64 := (w <<< n) ||| (w >>> (64 - n))

/-- A half word turned to the right by `n` bits, `n < 32`. -/
def rotateRight (w n : UInt32) : UInt32 := (w >>> n) ||| (w <<< ((32 - n) % 32))

/-- One step of the recurrence that spreads the seed. -/
def spreadStep (w : UInt64) : UInt64 := w * 6364136223846793005 + 11634580027462260723

/-- The half word that a state of that recurrence yields. -/
def spreadOutput (w : UInt64) : UInt32 :=
  rotateRight (((w >>> 18) ^^^ w) >>> 27).toUInt32 (w >>> 59).toUInt32

/-- Two half words, after two steps, as one word; with the state behind them. -/
def spreadWord (w : UInt64) : UInt64 × UInt64 :=
  let first := spreadStep w
  let second := spreadStep first
  ((spreadOutput first).toUInt64 ||| ((spreadOutput second).toUInt64 <<< 32), second)

/-- The generator of a seed. -/
def ofSeed (seed : UInt64) : Generator :=
  let (s0, seed) := spreadWord seed
  let (s1, seed) := spreadWord seed
  let (s2, seed) := spreadWord seed
  let (s3, _) := spreadWord seed
  ⟨s0, s1, s2, s3⟩

/-- The next word, and the state behind it. -/
def next (g : Generator) : UInt64 × Generator :=
  let result := rotateLeft (g.s0 + g.s3) 23 + g.s0
  let t := g.s1 <<< 17
  let s2 := g.s2 ^^^ g.s0
  let s3 := g.s3 ^^^ g.s1
  let s1 := g.s1 ^^^ s2
  let s0 := g.s0 ^^^ s3
  (result, ⟨s0, s1, s2 ^^^ t, rotateLeft s3 45⟩)

end Generator

namespace Draw

/-- The next word of the generator. -/
def word : Draw UInt64 := fun g => g.next

/-- A multiple of `2 ^ -52` from zero up to, and without, one. -/
def unit : Draw Float := do
  return Float.ofBits (((← word) >>> 12) ||| 0x3FF0000000000000) - 1.0

/-- The results of `n` draws in a row. -/
def replicate {α : Type} : Nat → Draw α → Draw (List α)
  | 0, _ => pure []
  | n + 1, draw => do
    let first ← draw
    let rest ← replicate n draw
    return first :: rest

/-- How often a draw that may miss is repeated. A miss is far less likely than a hit, so the bound
is never met in practice. -/
def attempts : Nat := 4096

end Draw

end Phototaxis
