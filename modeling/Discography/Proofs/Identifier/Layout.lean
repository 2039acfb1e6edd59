import Discography.Proofs.Identifier.Order

/-!
# The layout of identifiers

Whatever the clock reads, and in whichever order, every identifier of a generator has its version
and its variant tag, and its timestamp is the reading of its call, up to multiples of 2^48. An
identifier that counts on has all of this from the one that it counts on from: they share the bytes
before the counter, and they were made at the same reading. The other identifiers have the random
bytes of their call wherever there is neither timestamp nor tag.

## Main definitions

* `Identifier.Layout`: the tags and the timestamp of an identifier
* `Identifier.HasNoise`: where an identifier has its random bytes
* `Identifier.Call`, `Identifier.calls`: the calls of a generator

## Main results

* `Identifier.Stamp.Sound.layout`: what a generator remembers has the layout
* `Identifier.sound_of_generate`, `Identifier.sound_of_mem_calls`: one call keeps what is
  remembered sound, so all calls do
* `Identifier.draws_layout`: all identifiers of a generator
-/

namespace Discography.Identifier

/-! ### Bytes -/

/-- A byte of an identifier. -/
def byte (id : Identifier) (i : Fin 16) : UInt8 :=
  id.bytes.get ⟨i, i.isLt.trans_eq id.length_bytes.symm⟩

/-- A random byte. -/
def noiseByte (noise : Noise) (i : Fin 10) : UInt8 :=
  noise.1.get ⟨i, i.isLt.trans_eq noise.2.symm⟩

/-- The tags of an identifier, and its timestamp for a reading of the clock. -/
structure Layout (millis : Int64) (id : Identifier) : Prop where
  version : id.byte 6 >>> 4 = 0b0100
  variant : id.byte 8 >>> 6 = 0b10
  timestamp : (id.timestamp : Int) = millis.toInt % 2 ^ 48
  timestamp_of_fits : Fits millis → (id.timestamp : Int) = millis.toInt

/-- The identifier has the random bytes behind its timestamp, but for the bits of the two tags. -/
structure HasNoise (noise : Noise) (id : Identifier) : Prop where
  behind_version : id.byte 6 &&& 0x0F = noiseByte noise 0 &&& 0x0F
  between : id.byte 7 = noiseByte noise 1
  behind_variant : id.byte 8 &&& 0x3F = noiseByte noise 2 &&& 0x3F
  counter : id.bytes.drop 9 = noise.1.drop 3

section tags

variable {b mask tag : UInt8}

/-- A tag in the bits above the mask can be read off. -/
private theorem and_or_shiftRight {count : UInt8} (h : mask >>> count = 0) :
    (b &&& mask ||| tag) >>> count = tag >>> count := by
  rw [UInt8.shiftRight_or, UInt8.shiftRight_and, h, UInt8.and_zero, UInt8.zero_or]

/-- A tag outside the mask leaves the bits in the mask as they are. -/
private theorem and_or_and (h : tag &&& mask = 0) : (b &&& mask ||| tag) &&& mask = b &&& mask := by
  apply UInt8.toBitVec_inj.mp
  ext i hi
  have hbit : tag.toBitVec[i] = false ∨ mask.toBitVec[i] = false := by
    rw [← Bool.and_eq_false_iff, ← BitVec.getElem_and, ← UInt8.toBitVec_and, h]
    exact BitVec.getElem_zero hi
  simp only [UInt8.toBitVec_or, UInt8.toBitVec_and, BitVec.getElem_or, BitVec.getElem_and]
  rcases hbit with hbit | hbit <;> simp [hbit]

end tags

theorem byte_tagged (id : Identifier) (i : Fin 16) : id.tagged.byte i =
    if i = 6 then versioned (id.byte i) else if i = 8 then varied (id.byte i) else id.byte i := by
  have hversion : 6 = i.val ↔ i = 6 := by rw [eq_comm, Fin.ext_iff]; rfl
  have hvariant : 8 = i.val ↔ i = 8 := by rw [eq_comm, Fin.ext_iff]; rfl
  simp only [byte, tagged, List.get_eq_getElem, List.getElem_modify, hversion, hvariant]
  by_cases h : i = 6
  · simp [h]
  · simp [h]

/-- Behind the timestamp, an identifier that does not count on is made of random bytes. -/
theorem hasNoise_fresh (millis : Int64) (noise : Noise) : HasNoise noise (fresh millis noise) := by
  have hlength : (timestampBytes millis).length = 6 := by simp [timestampBytes]
  have hbytes : (timestampBytes millis ++ noise.1).length = 16 := by simp [hlength, noise.2]
  have hbyte (i : Fin 10) :
      byte ⟨timestampBytes millis ++ noise.1, hbytes⟩ (i.natAdd 6) = noiseByte noise i := by
    simp [byte, noiseByte, hlength]
  constructor
  · rw [fresh, byte_tagged, if_pos rfl, versioned, and_or_and rfl]
    exact congrArg (· &&& 0x0F) (hbyte 0)
  · rw [fresh, byte_tagged]
    exact hbyte 1
  · rw [fresh, byte_tagged, if_neg (by decide), if_pos rfl, varied, and_or_and rfl]
    exact congrArg (· &&& 0x3F) (hbyte 2)
  · rw [fresh, drop_tagged, List.drop_append, hlength,
      List.drop_eq_nil_of_le (by rw [hlength]; decide)]
    rfl

/-! ### Timestamps -/

/-- The lowest bits of a reading are its remainder, also if it is negative. -/
theorem toNat_mod_eq_toInt_emod (millis : Int64) :
    ((millis.toUInt64.toNat % 2 ^ 48 : Nat) : Int) = millis.toInt % 2 ^ 48 := by
  have hnat : millis.toUInt64.toNat = millis.toBitVec.toNat := rfl
  have hint : millis.toInt = millis.toBitVec.toInt := rfl
  rw [hnat, hint, BitVec.toInt_eq_toNat_cond]
  split <;> omega

/-- What a generator remembers has the layout. -/
theorem Stamp.Sound.layout {stamp : Stamp} (h : stamp.Sound) : Layout stamp.millis stamp.id where
  version := by
    rw [← h.tagged, byte_tagged, if_pos rfl, versioned, and_or_shiftRight rfl]
    rfl
  variant := by
    rw [← h.tagged, byte_tagged, if_neg (by decide), if_pos rfl, varied, and_or_shiftRight rfl]
    rfl
  timestamp := by rw [h.timestamp, toNat_mod_eq_toInt_emod]
  timestamp_of_fits hfits := by
    rw [h.timestamp, toNat_mod_eq_toInt_emod]
    exact Int.emod_eq_of_lt hfits.1 hfits.2

/-! ### Calls -/

/-- What a generator remembers, and the state of its source, when it is called. -/
structure Call (σ : Type) where
  last : Option Stamp
  state : σ

variable {σ ε : Type} {source : Source σ ε} {last : Option Stamp} {state : σ} {id : Identifier}

/-- What a call reads and makes. -/
def Call.draw (source : Source σ ε) (call : Call σ) : Draw ε :=
  ⟨(source.now call.state).1, (generate source call.last call.state).1⟩

/-- The first `count` calls of a generator. -/
def calls (source : Source σ ε) : (count : Nat) → Option Stamp → σ → List (Call σ)
  | 0, _, _ => []
  | count + 1, last, state =>
    let next := generate source last state
    ⟨last, state⟩ :: calls source count next.2.1 next.2.2

theorem draws_eq_map_calls (source : Source σ ε) (count : Nat) (last : Option Stamp) (state : σ) :
    draws source count last state = (calls source count last state).map (Call.draw source) := by
  induction count generalizing last state with
  | zero => rfl
  | succ count ih =>
    rw [draws, calls, List.map_cons, ih]
    rfl

/-- One call keeps what is remembered sound. -/
theorem sound_of_generate (hlast : ∀ stamp, last = some stamp → stamp.Sound) :
    ∀ stamp, (generate source last state).2.1 = some stamp → stamp.Sound := by
  intro stamp hstamp
  have hcall := generates source last state
  generalize generate source last state = result at hstamp hcall
  cases hcall with
  | counted previous next remembered reading counts =>
    obtain rfl := Option.some.inj hstamp
    exact (Makes.counted previous next remembered reading counts).sound hlast
  | fresh noise exhausted drawn =>
    obtain rfl := Option.some.inj hstamp
    exact (Makes.fresh noise exhausted).sound hlast
  | failed => exact hlast stamp hstamp

/-- So at every call what is remembered is sound. -/
theorem sound_of_mem_calls {count : Nat} (hlast : ∀ stamp, last = some stamp → stamp.Sound)
    {call : Call σ} (hcall : call ∈ calls source count last state) :
    ∀ stamp, call.last = some stamp → stamp.Sound := by
  induction count generalizing last state with
  | zero => cases hcall
  | succ count ih =>
    rcases List.mem_cons.mp hcall with rfl | hcall
    · exact hlast
    · exact ih (sound_of_generate hlast) hcall

/-- An identifier counts on, or it has the random bytes that its call has drawn. -/
theorem isSuccessor_or_hasNoise (hlast : ∀ stamp, last = some stamp → stamp.Sound)
    (h : (generate source last state).1 = .ok id) :
    (∃ stamp, last = some stamp ∧ stamp.millis = (source.now state).1 ∧ IsSuccessor stamp.id id) ∨
      ∃ noise, (source.noise (source.now state).2).1 = .ok noise ∧ HasNoise noise id := by
  have hcall := generates source last state
  generalize generate source last state = result at h hcall
  cases hcall with
  | counted stamp next remembered reading counts =>
    obtain rfl := Except.ok.inj h
    -- the tags are set again, which changes nothing because the remembered identifier has them
    exact .inl ⟨stamp, remembered, reading,
      isSuccessor_tagged (hlast stamp remembered).tagged counts⟩
  | fresh noise exhausted drawn =>
    obtain rfl := Except.ok.inj h
    exact .inr ⟨noise, drawn, hasNoise_fresh _ noise⟩
  | failed => cases h

/-- A call that succeeds makes an identifier with the layout for its reading. -/
theorem layout_of_generate (hlast : ∀ stamp, last = some stamp → stamp.Sound)
    (h : (generate source last state).1 = .ok id) : Layout (source.now state).1 id := by
  have hgen : generate source last state = (.ok id, (generate source last state).2) := by rw [← h]
  have hafter := (generate_eq_ok hgen).1
  exact (sound_of_generate hlast _ hafter).layout

/-- **All identifiers have the tags and the timestamp of their call.** Along the calls of a
generator, whatever its clock reads and its random source answers, every identifier has the version
and the variant tag, and its timestamp is the reading modulo 2^48, so the reading itself if 48 bits
represent it. Either it is the previous identifier with a greater counter, made at the same reading,
or it has the random bytes of its call wherever there is neither timestamp nor tag. -/
theorem draws_layout (source : Source σ ε) (start : σ) (count : Nat) :
    draws source count none start = (calls source count none start).map (Call.draw source) ∧
    ∀ call ∈ calls source count none start, ∀ id, (call.draw source).outcome = .ok id →
      Layout (call.draw source).millis id ∧
      ((∃ stamp, call.last = some stamp ∧ stamp.millis = (call.draw source).millis ∧
          IsSuccessor stamp.id id) ∨
        ∃ noise, (source.noise (source.now call.state).2).1 = .ok noise ∧ HasNoise noise id) := by
  refine ⟨draws_eq_map_calls source count none start, fun call hcall id hid => ?_⟩
  have hlast : ∀ stamp, call.last = some stamp → stamp.Sound := sound_of_mem_calls (by nofun) hcall
  exact ⟨layout_of_generate hlast hid, isSuccessor_or_hasNoise hlast hid⟩

/-- A clock that starts before the epoch, leaves the range of 48 bits and goes back, with random
bytes that have all bits of the tags set. -/
def wild : Source Nat String where
  now call := (if call = 0 then -1 else if call = 1 then 2 ^ 48 + 5 else 7, call + 1)
  noise call := (.ok ⟨[0xF9, 1, 0xFF, 0, 0, 0, 0, 0, 1, 0xFF], rfl⟩, call)

theorem draws_layout_wild :
    (draws wild 4 none 0).map (fun draw =>
        draw.outcome.toOption.map fun id => (id.timestamp, id.counter)) =
        [some (2 ^ 48 - 1, 511), some (5, 511), some (7, 511), some (7, 512)] ∧
      ∀ call ∈ calls wild 4 none 0, ∀ id, (call.draw wild).outcome = .ok id →
        Layout (call.draw wild).millis id := by
  obtain ⟨-, hcalls⟩ := draws_layout wild 0 4
  exact ⟨by decide, fun call hcall id hid => (hcalls call hcall id hid).1⟩

end Discography.Identifier
