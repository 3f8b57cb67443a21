/-!
# A small generator of pseudo-random numbers

A congruential generator with a 64-bit state and a permuted 32-bit output. Numbers below a bound are
drawn by multiplying a 32-bit draw by the bound and keeping the high half, with one more draw where the
low half is close to an overflow; `scaled_lt` and `corrected_lt` say that the result is below the bound
whatever is drawn.
-/

set_option autoImplicit false

namespace PropositionalCalculus

/-- The state of the generator, and what is added to it at every step. -/
structure Generator where
  state : UInt64
  increment : UInt64
deriving DecidableEq

namespace Generator

/-- What the state is multiplied by at every step. -/
def multiplier : UInt64 := 6364136223846793005

/-- The increment of seeded generators. -/
def seededIncrement : UInt64 := 0x9E3779B97F4A7C15

/-- The generator for a seed. -/
def ofSeed (seed : UInt64) : Generator where
  state := seed + seededIncrement
  increment := seededIncrement

/-- The generator whose state and increment are zero. -/
def zero : Generator := ⟨0, 0⟩

/-- The generator after one step. -/
def advance (g : Generator) : Generator :=
  { g with state := g.state * multiplier + g.increment }

/-- Moves the bits of a word to the right, those that fall out coming in from the left. -/
def rotateRight (x amount : UInt32) : UInt32 :=
  if amount = 0 then x else (x >>> amount) ||| (x <<< (32 - amount))

/-- The word that a state gives. -/
def output (state : UInt64) : UInt32 :=
  rotateRight (((state >>> 18) ^^^ state) >>> 27).toUInt32 (state >>> 59).toUInt32

/-- Draws 32 bits. -/
def next32 (g : Generator) : UInt32 × Generator :=
  (output g.state, g.advance)

/-- Draws 64 bits, the high half first. -/
def next64 (g : Generator) : UInt64 × Generator :=
  ((g.next32.1.toUInt64 <<< 32) ||| g.next32.2.next32.1.toUInt64, g.next32.2.next32.2)

/-- The given number of bytes of a number, the lowest first. -/
def lowBytes : Nat → Nat → List UInt8
  | 0, _ => []
  | count + 1, n => UInt8.ofNat n :: lowBytes count (n / 256)

/-- The number with these bytes, the lowest first. -/
def ofLowBytes : List UInt8 → Nat
  | [] => 0
  | b :: bytes => b.toNat + 256 * ofLowBytes bytes

/-- The generator for a seed of eight bytes. -/
def ofSeedBytes (seed : Vector UInt8 8) : Generator :=
  ofSeed (UInt64.ofNat (ofLowBytes seed.toList))

/-- Draws bytes: eight from every 64-bit draw as long as eight are wanted, then as many as are left from
a last draw, which has 32 bits if four bytes are enough. -/
def bytes : Nat → Generator → List UInt8 × Generator
  | 0, g => ([], g)
  | wanted + 1, g =>
      -- The number of bytes wanted is `wanted + 1`.
      if 7 ≤ wanted then
        let rest := bytes (wanted - 7) g.next64.2
        (lowBytes 8 g.next64.1.toNat ++ rest.1, rest.2)
      else if 4 ≤ wanted then (lowBytes (wanted + 1) g.next64.1.toNat, g.next64.2)
      else (lowBytes (wanted + 1) g.next32.1.toNat, g.next32.2)
termination_by wanted => wanted
decreasing_by exact Nat.lt_succ_of_le (Nat.sub_le _ _)

/-- True for one in four 64-bit draws. -/
def quarter (g : Generator) : Bool × Generator :=
  (decide (g.next64.1.toNat < UInt64.size / 4), g.next64.2)

/-- The high half of the product of a draw and a bound. -/
def scaled (bound : Nat) (draw : UInt32) : Nat :=
  draw.toNat * bound / UInt32.size

/-- The low half of the product of a draw and a bound. -/
def remainder (bound : Nat) (draw : UInt32) : Nat :=
  draw.toNat * bound % UInt32.size

/-- Whether the low half leaves room for a carry from a second draw. -/
def mayCarry (bound : Nat) (draw : UInt32) : Bool :=
  decide (UInt32.size - bound < remainder bound draw)

/-- The high half, raised by one when the second draw makes the low half overflow. -/
def corrected (bound : Nat) (draw second : UInt32) : Nat :=
  if UInt32.size ≤ remainder bound draw + scaled bound second then scaled bound draw + 1
  else scaled bound draw

/-- The product of a draw and a bound falls short of the bound's multiple of the word size. -/
theorem product_add_bound_le (bound : Nat) (draw : UInt32) :
    draw.toNat * bound + bound ≤ UInt32.size * bound := by
  have below := draw.toNat_lt_size
  calc draw.toNat * bound + bound = (draw.toNat + 1) * bound := (Nat.succ_mul _ _).symm
    _ ≤ UInt32.size * bound := Nat.mul_le_mul_right bound below

theorem scaled_lt {bound : Nat} (pos : 0 < bound) (draw : UInt32) : scaled bound draw < bound := by
  have short := product_add_bound_le bound draw
  unfold scaled
  unfold UInt32.size at short ⊢
  omega

/-- A carry is possible only where the high half is not the largest. -/
theorem scaled_succ_lt {bound : Nat} {draw : UInt32} (carry : mayCarry bound draw = true) :
    scaled bound draw + 1 < bound := by
  have short := product_add_bound_le bound draw
  have room : UInt32.size - bound < remainder bound draw := of_decide_eq_true carry
  unfold remainder at room
  unfold scaled
  unfold UInt32.size at short room ⊢
  omega

theorem corrected_lt {bound : Nat} {draw : UInt32} (carry : mayCarry bound draw = true)
    (second : UInt32) : corrected bound draw second < bound := by
  have below := scaled_succ_lt carry
  unfold corrected
  split <;> omega

/-- Draws a number below the bound. -/
def below (bound : Nat) (pos : 0 < bound) (g : Generator) : Fin bound × Generator :=
  if carry : mayCarry bound g.next32.1 then
    (⟨corrected bound g.next32.1 g.next32.2.next32.1, corrected_lt carry _⟩, g.next32.2.next32.2)
  else (⟨scaled bound g.next32.1, scaled_lt pos _⟩, g.next32.2)

end Generator

end PropositionalCalculus
