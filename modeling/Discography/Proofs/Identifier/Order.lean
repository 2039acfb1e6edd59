import Discography.Proofs.Identifier.Counter
import Mathlib.Data.List.Chain

/-!
# The order of the identifiers of one generator

Within one reading of the clock, an identifier is the previous one with its counter increased by
one; the tags, set once, stay. At a later reading the timestamp is greater. The only identifiers
without an order between them are those of one reading where the counter was exhausted in between,
since the second has fresh random bytes.

The order is carried along the calls by `Stamp.Sound`: what the generator remembers is tagged, and
its timestamp is its reading. A failed call changes neither.

## Main definitions

* `Identifier.Exhausted`, `Identifier.IsSuccessor`: the counters of identifiers
* `Identifier.Generates`: what one call does
* `Identifier.Source.FailsWith`: what a call may fail with
* `Identifier.Stamp.Follows`: how an identifier compares to the previous one
* `Identifier.draws`, `Identifier.stamps`: the calls of a generator and what they made

## Main results

* `Identifier.generates`: what one call does
* `Identifier.Stamp.Sound.follows`: one call preserves the order
* `Identifier.draws_increasing`: the order along all calls
-/

namespace Discography.Identifier

variable {σ ε : Type} {source : Source σ ε} {id next : Identifier} {millis : Int64} {failure : ε}
  {state state' : σ} {last after : Option Stamp}

/-! ### Counters -/

/-- The counter of an identifier. -/
def counter (id : Identifier) : Nat := bigEndian (id.bytes.drop 9)

/-- All bits of the counter are set. -/
def Exhausted (id : Identifier) : Prop := ∀ b ∈ id.bytes.drop 9, b = 0xFF
  deriving Decidable

/-- The counter of `next` is that of `id` increased by one, and the other bytes agree. -/
def IsSuccessor (id next : Identifier) : Prop :=
  next.bytes.take 9 = id.bytes.take 9 ∧ next.counter = id.counter + 1

theorem eq_of_bytes_eq {a b : Identifier} (h : a.bytes = b.bytes) : a = b := by
  cases a
  cases b
  cases h
  rfl

theorem length_bytes_eq (a b : Identifier) : a.bytes.length = b.bytes.length := by
  rw [a.length_bytes, b.length_bytes]

theorem IsSuccessor.lt (h : IsSuccessor id next) : id.bytes < next.bytes :=
  lt_of_bigEndian_drop_lt (id.length_bytes_eq next) h.1.symm (by
    have hcounter : bigEndian (next.bytes.drop 9) = bigEndian (id.bytes.drop 9) + 1 := h.2
    omega)

theorem successor?_eq_some :
    id.successor? = some next ↔
      ∃ counter, increment? (id.bytes.drop 9) = some counter ∧
        next.bytes = id.bytes.take 9 ++ counter := by
  obtain ⟨bytes, hbytes⟩ := next
  rw [successor?]
  split
  · next counter h => simp [h, eq_comm]
  · next h => simp [h]

theorem successor?_eq_none : id.successor? = none ↔ id.Exhausted := by
  rw [Exhausted, ← increment?_eq_none_iff, successor?]
  split <;> simp [*]

theorem isSuccessor_of_successor? (h : id.successor? = some next) : IsSuccessor id next := by
  obtain ⟨counter, hcounter, hbytes⟩ := successor?_eq_some.mp h
  have hlen : (id.bytes.take 9).length = 9 := by simp [id.length_bytes]
  refine ⟨?_, ?_⟩
  · rw [hbytes, List.take_left' hlen]
  · rw [Identifier.counter, hbytes, List.drop_left' hlen, bigEndian_of_increment? hcounter]
    rfl

/-! ### Tags and timestamps -/

private theorem and_or_and_or (b mask tag : UInt8) :
    ((b &&& mask) ||| tag) &&& mask ||| tag = (b &&& mask) ||| tag := by
  apply UInt8.toBitVec_inj.mp
  ext i hi
  simp only [UInt8.toBitVec_or, UInt8.toBitVec_and, BitVec.getElem_or, BitVec.getElem_and]
  cases b.toBitVec[i] <;> cases mask.toBitVec[i] <;> cases tag.toBitVec[i] <;> rfl

theorem versioned_comp_versioned : versioned ∘ versioned = versioned :=
  funext fun b => and_or_and_or b _ _

theorem varied_comp_varied : varied ∘ varied = varied :=
  funext fun b => and_or_and_or b _ _

/-- Tags that are set are not changed by setting them again. -/
theorem tagged_tagged (id : Identifier) : id.tagged.tagged = id.tagged := by
  simp only [tagged, Identifier.mk.injEq]
  rw [List.modify_modify_ne versioned varied _ (by decide), List.modify_modify_eq,
    List.modify_modify_ne _ _ _ (by decide), List.modify_modify_eq, versioned_comp_versioned,
    varied_comp_varied]

/-- The tags lie in the bytes before the counter. -/
theorem drop_tagged (id : Identifier) : id.tagged.bytes.drop 9 = id.bytes.drop 9 := by
  rw [tagged, List.drop_modify_of_lt _ _ _ _ (by decide),
    List.drop_modify_of_lt _ _ _ _ (by decide)]

theorem bytes_tagged (id : Identifier) :
    id.tagged.bytes =
      ((id.bytes.take 9).modify 6 versioned).modify 8 varied ++ id.bytes.drop 9 := by
  have htake : id.tagged.bytes.take 9 = ((id.bytes.take 9).modify 6 versioned).modify 8 varied := by
    rw [tagged, List.take_modify, List.take_modify]
  rw [← List.take_append_drop 9 id.tagged.bytes, htake, drop_tagged]

/-- The successor of a tagged identifier is tagged. -/
theorem tagged_eq_of_take_eq (h : next.bytes.take 9 = id.bytes.take 9) (hid : id.tagged = id) :
    next.tagged = next := by
  -- setting the tags does not change the bytes that the two have in common
  have hbytes : ((id.bytes.take 9).modify 6 versioned).modify 8 varied ++ id.bytes.drop 9 =
      id.bytes.take 9 ++ id.bytes.drop 9 := by
    rw [← bytes_tagged, hid, List.take_append_drop]
  have htake := List.append_cancel_right hbytes
  apply eq_of_bytes_eq
  rw [bytes_tagged, h, htake, ← h, List.take_append_drop]

theorem timestamp_tagged (id : Identifier) : id.tagged.timestamp = id.timestamp := by
  have hlen : (id.bytes.take 6).length = 6 := by simp [id.length_bytes]
  rw [timestamp, tagged, List.take_modify, List.take_modify, List.modify_eq_self hlen.le,
    List.modify_eq_self (by omega)]
  rfl

theorem timestamp_fresh (millis : Int64) (noise : Noise) :
    (fresh millis noise).timestamp = millis.toUInt64.toNat % 2 ^ 48 := by
  rw [fresh, timestamp_tagged, timestamp]
  simp only [timestampBytes]
  rw [List.take_left' (length_bytesOf 6 _), bigEndian_bytesOf]
  rfl

/-! ### One call -/

/-- The identifier is made from the memory of the generator, or it has fresh random bytes because
there was nothing to count on. -/
inductive Makes (last : Option Stamp) (millis : Int64) : Identifier → Prop where
  | counted (stamp : Stamp) (next : Identifier) (remembered : last = some stamp)
      (reading : stamp.millis = millis) (counts : stamp.id.successor? = some next) :
      Makes last millis next.tagged
  | fresh (noise : Noise)
      (exhausted : ∀ stamp, last = some stamp → stamp.millis = millis → stamp.id.Exhausted) :
      Makes last millis (fresh millis noise)

/-- What a call answers, what the generator remembers afterwards, and the state of its source. -/
inductive Generates (source : Source σ ε) (last : Option Stamp) (state : σ) :
    Except ε Identifier × Option Stamp × σ → Prop where
  | counted (stamp : Stamp) (next : Identifier) (remembered : last = some stamp)
      (reading : stamp.millis = (source.now state).1) (counts : stamp.id.successor? = some next) :
      Generates source last state
        (.ok next.tagged, some ⟨(source.now state).1, next.tagged⟩, (source.now state).2)
  | fresh (noise : Noise)
      (exhausted : ∀ stamp, last = some stamp → stamp.millis = (source.now state).1 →
        stamp.id.Exhausted)
      (drawn : (source.noise (source.now state).2).1 = .ok noise) :
      Generates source last state
        (.ok (fresh (source.now state).1 noise),
          some ⟨(source.now state).1, fresh (source.now state).1 noise⟩,
          (source.noise (source.now state).2).2)
  | failed (failure : ε) (drawn : (source.noise (source.now state).2).1 = .error failure) :
      Generates source last state
        (.error failure, last, (source.noise (source.now state).2).2)

theorem generates (source : Source σ ε) (last : Option Stamp) (state : σ) :
    Generates source last state (generate source last state) := by
  simp only [generate]
  split
  · next next hnext =>
    obtain ⟨stamp, rfl, hstamp⟩ := Option.bind_eq_some_iff.mp hnext
    obtain ⟨hreading, hcounts⟩ := Option.ite_none_right_eq_some.mp hstamp
    exact .counted stamp next rfl hreading hcounts
  · next hnone =>
    -- nothing to count on: nothing is remembered, at another reading, or with a full counter
    have hexhausted : ∀ stamp, last = some stamp → stamp.millis = (source.now state).1 →
        stamp.id.Exhausted := by
      rintro stamp rfl hreading
      rw [Option.bind_some, if_pos hreading] at hnone
      exact successor?_eq_none.mp hnone
    cases hnoise : source.noise (source.now state).2 with
    | mk drawn state' =>
      have hdrawn : (source.noise (source.now state).2).1 = drawn := by rw [hnoise]
      have hstate : (source.noise (source.now state).2).2 = state' := by rw [hnoise]
      cases drawn with
      | error failure => exact hstate ▸ .failed failure hdrawn
      | ok noise => exact hstate ▸ .fresh noise hexhausted hdrawn

/-- A call that succeeds remembers the identifier that it made, with its reading. -/
theorem generate_eq_ok (h : generate source last state = (.ok id, after, state')) :
    after = some ⟨(source.now state).1, id⟩ ∧ Makes last (source.now state).1 id := by
  have hcall := generates source last state
  rw [h] at hcall
  cases hcall with
  | counted stamp next remembered reading counts =>
    exact ⟨rfl, .counted stamp next remembered reading counts⟩
  | fresh noise exhausted drawn => exact ⟨rfl, .fresh noise exhausted⟩

/-- A call that fails leaves the memory of the generator as it was. -/
theorem generate_eq_error (h : (generate source last state).1 = .error failure) :
    (generate source last state).2.1 = last := by
  have hcall := generates source last state
  generalize generate source last state = result at h hcall
  cases hcall with
  | counted | fresh => cases h
  | failed => rfl

/-- In some state, the random source fails with the error. -/
def Source.FailsWith (source : Source σ ε) (cause : ε) : Prop :=
  ∃ state, (source.noise state).1 = .error cause

/-- A call that fails passes on what the random source has failed with. -/
theorem failsWith_of_generate (h : (generate source last state).1 = .error failure) :
    source.FailsWith failure := by
  have hcall := generates source last state
  generalize generate source last state = result at h hcall
  cases hcall with
  | counted | fresh => cases h
  | failed _ drawn =>
    obtain rfl := Except.error.inj h
    exact ⟨_, drawn⟩

/-! ### Readings in order -/

/-- A reading that 48 bits represent. -/
def Fits (millis : Int64) : Prop := 0 ≤ millis.toInt ∧ millis.toInt < 2 ^ 48
  deriving Decidable

theorem Fits.toNat_eq (h : Fits millis) : (millis.toUInt64.toNat : Int) = millis.toInt := by
  have hnat : millis.toUInt64.toNat = millis.toBitVec.toNat := rfl
  have hint : millis.toInt = millis.toBitVec.toInt := rfl
  have hpos := h.1
  rw [hint, BitVec.toInt_eq_toNat_cond] at *
  split at * <;> omega

/-- What a generator remembers: the identifier is tagged and its timestamp is the reading. -/
structure Stamp.Sound (stamp : Stamp) : Prop where
  tagged : stamp.id.tagged = stamp.id
  timestamp : stamp.id.timestamp = stamp.millis.toUInt64.toNat % 2 ^ 48

/-- How the identifier of `b` compares to the previous one, that of `a`. -/
structure Stamp.Follows (a b : Stamp) : Prop where
  /-- It is greater, except after an exhausted counter at the same reading. -/
  lt : ¬ (b.millis = a.millis ∧ a.id.Exhausted) → a.id.bytes < b.id.bytes
  /-- At the same reading it counts on. -/
  isSuccessor : b.millis = a.millis → ¬ a.id.Exhausted → IsSuccessor a.id b.id

/-- The next identifier of a tagged one counts on and is tagged, so setting its tags again has no
effect. -/
theorem isSuccessor_tagged (hid : id.tagged = id) (h : id.successor? = some next) :
    IsSuccessor id next.tagged := by
  have hnext := isSuccessor_of_successor? h
  rwa [tagged_eq_of_take_eq hnext.1 hid]

theorem Makes.sound {id : Identifier} (hlast : ∀ stamp, last = some stamp → stamp.Sound)
    (h : Makes last millis id) : Stamp.Sound ⟨millis, id⟩ := by
  cases h with
  | counted stamp next remembered reading counts =>
    obtain ⟨htagged, htimestamp⟩ := hlast stamp remembered
    have hnext := isSuccessor_tagged htagged counts
    have htake := congrArg (List.take 6) hnext.1
    simp only [List.take_take, Nat.reduceLeDiff, inf_of_le_left] at htake
    refine ⟨tagged_tagged next, ?_⟩
    rw [timestamp, htake, ← reading]
    exact htimestamp
  | fresh noise exhausted => exact ⟨tagged_tagged _, timestamp_fresh millis noise⟩

/-- A later reading makes a greater identifier. -/
theorem Stamp.Sound.lt {a b : Stamp} (ha : a.Sound) (hb : b.Sound) (hfa : Fits a.millis)
    (hfb : Fits b.millis) (hlt : a.millis < b.millis) : a.id.bytes < b.id.bytes := by
  have hreading : a.millis.toInt < b.millis.toInt := Int64.lt_iff_toInt_lt.mp hlt
  have ha' := hfa.toNat_eq
  have hb' := hfb.toNat_eq
  have htimestamp : a.id.timestamp < b.id.timestamp := by
    rw [ha.timestamp, hb.timestamp]
    obtain ⟨-, hbound⟩ := hfb
    omega
  exact lt_of_bigEndian_take_lt (a.id.length_bytes_eq b.id) 6 htimestamp

/-- One call preserves the order. -/
theorem Stamp.Sound.follows {stamp : Stamp} (hstamp : stamp.Sound) (hstampFits : Fits stamp.millis)
    (hfits : Fits millis) (hle : stamp.millis ≤ millis) {id : Identifier}
    (h : Makes (some stamp) millis id) : stamp.Follows ⟨millis, id⟩ := by
  have hsound : Stamp.Sound ⟨millis, id⟩ :=
    h.sound fun s hs => Option.some.inj hs ▸ hstamp
  by_cases hsame : millis = stamp.millis
  · -- with the same reading, only an exhausted counter does not count on
    have hnext : ¬ stamp.id.Exhausted → IsSuccessor stamp.id id := fun hfree => by
      cases h with
      | counted stamp' next remembered reading counts =>
        obtain rfl := Option.some.inj remembered
        exact isSuccessor_tagged hstamp.tagged counts
      | fresh noise exhausted => exact absurd (exhausted stamp rfl hsame.symm) hfree
    exact ⟨fun h => (hnext fun hfull => h ⟨hsame, hfull⟩).lt, fun _ => hnext⟩
  · have hlt : stamp.millis < millis := by
      rw [Int64.lt_iff_toInt_lt]
      rw [Int64.le_iff_toInt_le] at hle
      have hne : millis.toInt ≠ stamp.millis.toInt := fun h => hsame (Int64.toInt_inj.mp h)
      omega
    exact ⟨fun _ => hstamp.lt hsound hstampFits hfits hlt, fun h => absurd h hsame⟩

/-! ### All calls -/

/-- One call: the reading of the clock and the outcome. -/
structure Draw (ε : Type) where
  millis : Int64
  outcome : Except ε Identifier

/-- What a call made, if it succeeded. -/
def Draw.stamp? (draw : Draw ε) : Option Stamp :=
  draw.outcome.toOption.map fun id => ⟨draw.millis, id⟩

/-- The first `count` calls of a generator. -/
def draws (source : Source σ ε) : (count : Nat) → Option Stamp → σ → List (Draw ε)
  | 0, _, _ => []
  | count + 1, last, state =>
    let next := generate source last state
    ⟨(source.now state).1, next.1⟩ :: draws source count next.2.1 next.2.2

/-- What the calls made that succeeded. -/
def stamps (draws : List (Draw ε)) : List Stamp := draws.filterMap Draw.stamp?

@[simp] theorem stamps_nil : stamps ([] : List (Draw ε)) = [] := rfl

theorem stamps_cons (draw : Draw ε) (draws : List (Draw ε)) :
    stamps (draw :: draws) = draw.stamp?.toList ++ stamps draws := by
  rw [stamps, stamps, List.filterMap_cons]
  cases draw.stamp? <;> rfl

/-- After a failed call, the identifiers are those without the call. -/
theorem stamps_draws_of_error (h : (generate source last state).1 = .error failure) (count : Nat) :
    stamps (draws source (count + 1) last state) =
      stamps (draws source count last (generate source last state).2.2) := by
  rw [draws, stamps_cons, Draw.stamp?, h, generate_eq_error h]
  rfl

/-- The calls preserve the order, beginning with what the generator remembers. -/
theorem isChain_stamps_draws (count : Nat) (last : Option Stamp) (state : σ)
    (hsound : ∀ stamp, last = some stamp → stamp.Sound ∧ Fits stamp.millis)
    (hlast : ∀ stamp, last = some stamp →
      ∀ draw ∈ draws source count last state, stamp.millis ≤ draw.millis)
    (hmono : ((draws source count last state).map Draw.millis).Pairwise (· ≤ ·))
    (hfits : ∀ draw ∈ draws source count last state, Fits draw.millis) :
    (last.toList ++ stamps (draws source count last state)).IsChain Stamp.Follows := by
  induction count generalizing last state with
  | zero => cases last <;> simp [draws]
  | succ count ih =>
    obtain ⟨outcome, after, state', hgen⟩ : ∃ outcome after state',
        generate source last state = (outcome, after, state') := ⟨_, _, _, rfl⟩
    simp only [draws, hgen, List.map_cons, List.pairwise_cons, List.forall_mem_cons,
      List.forall_mem_map] at hlast hmono hfits ⊢
    obtain ⟨hfirst, hrest⟩ := hmono
    cases outcome with
    | error failure =>
      obtain rfl : after = last := by
        have hfail : (generate source last state).1 = .error failure := by rw [hgen]
        have hafter := generate_eq_error hfail
        rwa [hgen] at hafter
      -- nothing was made, and the calls go on from the same memory
      rw [stamps_cons]
      exact ih after state' hsound (fun s hs => (hlast s hs).2) hrest hfits.2
    | ok id =>
      obtain ⟨rfl, hmakes⟩ := generate_eq_ok hgen
      have hnew := hmakes.sound fun s hs => (hsound s hs).1
      -- the calls go on from the new identifier, whose reading is not later than theirs
      have htail := ih (some ⟨(source.now state).1, id⟩) state'
        (fun s hs => Option.some.inj hs ▸ ⟨hnew, hfits.1⟩)
        (fun s hs => Option.some.inj hs ▸ hfirst) hrest hfits.2
      rw [stamps_cons]
      cases last with
      | none => exact htail
      | some stamp =>
        refine List.isChain_cons_cons.mpr ⟨?_, htail⟩
        obtain ⟨hstamp, hstampFits⟩ := hsound stamp rfl
        exact hstamp.follows hstampFits hfits.1 (hlast stamp rfl).1 hmakes

/-- Without an exhausted counter between identifiers of one reading, the order is strict
throughout. -/
theorem pairwise_lt_of_isChain {list : List Stamp} (hchain : list.IsChain Stamp.Follows)
    (hfree : list.IsChain fun a b => ¬ (b.millis = a.millis ∧ a.id.Exhausted)) :
    (list.map (·.id.bytes)).Pairwise (· < ·) := by
  rw [← List.isChain_iff_pairwise, List.isChain_map]
  induction list with
  | nil => exact .nil
  | cons a list ih =>
    cases list with
    | nil => exact .singleton _
    | cons b list =>
      rw [List.isChain_cons_cons] at hchain hfree ⊢
      exact ⟨hchain.1.lt hfree.1, ih hchain.2 hfree.2⟩

/-- Over a clock that never goes back, with readings of 48 bits, the identifiers of a generator
increase: each is greater than the previous one, except after an exhausted counter at the same
reading, and at the same reading it has the previous counter increased by one. Without such an
exhaustion they are pairwise distinct. A failed call has no effect on the identifiers. -/
theorem draws_increasing (source : Source σ ε) (state : σ) (count : Nat)
    (hmono : ((draws source count none state).map Draw.millis).Pairwise (· ≤ ·))
    (hfits : ∀ draw ∈ draws source count none state, Fits draw.millis) :
    (stamps (draws source count none state)).IsChain Stamp.Follows ∧
      ((stamps (draws source count none state)).IsChain
          (fun a b => ¬ (b.millis = a.millis ∧ a.id.Exhausted)) →
        ((stamps (draws source count none state)).map Stamp.id).Nodup) ∧
      ∀ last state failure, (generate source last state).1 = .error failure →
        (generate source last state).2.1 = last ∧
        ∀ count, stamps (draws source (count + 1) last state) =
          stamps (draws source count last (generate source last state).2.2) := by
  have hchain : (stamps (draws source count none state)).IsChain Stamp.Follows :=
    isChain_stamps_draws count none state (by simp) (by simp) hmono hfits
  refine ⟨hchain, fun hfree => ?_, fun last state failure h =>
    ⟨generate_eq_error h, stamps_draws_of_error h⟩⟩
  have hlt := List.pairwise_map.mp (pairwise_lt_of_isChain hchain hfree)
  have hne : (stamps (draws source count none state)).Pairwise (·.id ≠ ·.id) := by
    apply hlt.imp
    intro a b hab heq
    rw [heq] at hab
    exact List.lt_irrefl _ hab
  exact List.pairwise_map.mpr hne

/-- A clock that reads 5 four times and then 7, with random bytes that are missing at first and then
leave the counter one below a carry. -/
def sample : Source Nat String where
  now call := (if call < 4 then 5 else 7, call + 1)
  noise
    | 1 => (.error "no random bytes", 1)
    | call => (.ok ⟨[9, 9, 9, 0, 0, 0, 0, 0, 1, 0xFF], rfl⟩, call)

theorem draws_increasing_sample :
    ((draws sample 6 none 0).map Draw.millis).Pairwise (· ≤ ·) ∧
      (∀ draw ∈ draws sample 6 none 0, Fits draw.millis) ∧
      (stamps (draws sample 6 none 0)).length = 5 ∧
      (stamps (draws sample 6 none 0)).IsChain Stamp.Follows ∧
      ((stamps (draws sample 6 none 0)).map Stamp.id).Nodup := by
  have hmono : ((draws sample 6 none 0).map Draw.millis).Pairwise (· ≤ ·) := by decide
  have hfits : ∀ draw ∈ draws sample 6 none 0, Fits draw.millis := by decide
  obtain ⟨hchain, hnodup, -⟩ := draws_increasing sample 0 6 hmono hfits
  exact ⟨hmono, hfits, by decide, hchain, hnodup (by decide)⟩

/-- The exception is needed: constant random bytes with a full counter repeat an identifier. -/
example :
    let full : Source Unit String :=
      ⟨fun _ => (5, ()), fun _ => (.ok ⟨List.replicate 10 0xFF, rfl⟩, ())⟩
    let ids := (stamps (draws full 2 none ())).map Stamp.id
    ids[0]? = ids[1]? ∧ ids.length = 2 := by
  decide

end Discography.Identifier
