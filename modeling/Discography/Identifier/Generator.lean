import Discography.Identifier.Basic

/-!
# Generation of identifiers

A new identifier takes the clock reading and ten random bytes. Within one millisecond the counter of
the previous identifier is increased by one instead; once the counter is exhausted, fresh random
bytes are drawn. The tags are set in either case. A failing random source leaves the generator as it
was.

The clock and the random source are one machine with a state of its own, which answers readings and
draws in order. What a random source fails with, the generator fails with.

## Main definitions

* `Identifier.Source`: a clock and a random source
* `Identifier.Stamp`: what the generator remembers
* `Identifier.generate`: the next identifier
-/

namespace Discography.Identifier

/-- Ten random bytes, as many as an identifier takes beside its timestamp. -/
abbrev Noise := {bytes : List UInt8 // bytes.length = 10}

/-- A clock and a random source over states `σ`, which fails with errors `ε`. -/
structure Source (σ ε : Type) where
  /-- The reading of the clock in milliseconds. -/
  now : σ → Int64 × σ
  /-- Ten random bytes, or why there are none. -/
  noise : σ → Except ε Noise × σ

/-- The source with another form of its errors. -/
def Source.mapError {σ ε δ : Type} (f : ε → δ) (source : Source σ ε) : Source σ δ where
  now := source.now
  noise state := ((source.noise state).1.mapError f, (source.noise state).2)

/-- The last identifier of a generator, with the clock reading it was made at. -/
structure Stamp where
  millis : Int64
  id : Identifier

/-- The lowest 48 bits of a clock reading, the most significant byte first. -/
def timestampBytes (millis : Int64) : List UInt8 := bytesOf 6 millis.toUInt64.toNat

/-- The version tag `0100` in the upper half of a byte. -/
def versioned (b : UInt8) : UInt8 := (b &&& 0x0F) ||| 0x40

/-- The variant tag `10` in the upper two bits of a byte. -/
def varied (b : UInt8) : UInt8 := (b &&& 0x3F) ||| 0x80

/-- The identifier with its version and its variant tag set. -/
def tagged (id : Identifier) : Identifier where
  bytes := (id.bytes.modify 6 versioned).modify 8 varied
  length_bytes := by simp [id.length_bytes]

/-- The identifier for a clock reading and random bytes. -/
def fresh (millis : Int64) (noise : Noise) : Identifier :=
  tagged
    { bytes := timestampBytes millis ++ noise.1
      length_bytes := by simp [timestampBytes, bytesOf, noise.2] }

/-- The bytes of the number one above, the most significant first; none when all bits are set. -/
def increment? : List UInt8 → Option (List UInt8)
  | [] => none
  | b :: rest =>
    match increment? rest with
    | some rest => some (b :: rest)
    | none => if b = 0xFF then none else some ((b + 1) :: List.replicate rest.length 0)

theorem length_of_increment? : ∀ {bytes next : List UInt8},
    increment? bytes = some next → next.length = bytes.length
  | [], _, h => by simp [increment?] at h
  | b :: rest, next, h => by
    rw [increment?] at h
    split at h
    · next r hr =>
      obtain rfl := Option.some.inj h
      simp [length_of_increment? hr]
    · split at h
      · simp at h
      · obtain rfl := Option.some.inj h
        simp

/-- The identifier with its counter increased by one; none when the counter is exhausted. -/
def successor? (id : Identifier) : Option Identifier :=
  match h : increment? (id.bytes.drop 9) with
  | some counter => some
    { bytes := id.bytes.take 9 ++ counter
      length_bytes := by simp [length_of_increment? h, id.length_bytes] }
  | none => none

/-- The next identifier, what the generator remembers afterwards, and the state of the source. -/
def generate {σ ε : Type} (source : Source σ ε) (last : Option Stamp) (state : σ) :
    Except ε Identifier × Option Stamp × σ :=
  let (millis, state) := source.now state
  match last.bind fun stamp => if stamp.millis = millis then stamp.id.successor? else none with
  | some id => (.ok id.tagged, some ⟨millis, id.tagged⟩, state)
  | none =>
    match source.noise state with
    | (.error failure, state) => (.error failure, last, state)
    | (.ok noise, state) => (.ok (fresh millis noise), some ⟨millis, fresh millis noise⟩, state)

end Discography.Identifier
