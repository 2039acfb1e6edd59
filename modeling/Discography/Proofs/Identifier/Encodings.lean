import Discography.Proofs.Identifier.Counter
import Discography.Proofs.Sql.Quoted
import Discography.Record

/-!
# The encodings of identifiers

An identifier is written as text, which is 32 digits in groups, or as its 16 bytes, which are a list
of numbers in documents. Each of these gives the identifier back. The order is the same in all of
them: lower-case digits are in the order of their values, two of them stand for each byte with the
high half first, and the hyphens are at the same places in all texts. The bytes begin with the
timestamp, so the order by any encoding is the order of creation.

## Main results

* `Hex.lower_lt_lower_iff`: the order of digits is that of the bytes
* `Identifier.hyphenate_lt_hyphenate_iff`, `Identifier.unhyphenate?_hyphenate`: groups keep the
  order and can be taken apart
* `Identifier.parse_text`, `Identifier.fromJson_bytes`: texts and documents are read back
* `Identifier.text_lt_text_iff`: the order of texts is that of the bytes
* `Identifier.encodings_agree`: all encodings
-/

namespace Discography

/-! ### Digits -/

namespace Hex

theorem hexDigit_lowerDigit {n : Nat} (h : n < 16) : HexDigit (lowerDigit n) n := by
  have hdigit : ∀ n < 16, (48 ≤ (lowerDigit n).toNat ∧ (lowerDigit n).toNat ≤ 57 ∧
      (lowerDigit n).toNat - 48 = n) ∨ (97 ≤ (lowerDigit n).toNat ∧ (lowerDigit n).toNat ≤ 102 ∧
        (lowerDigit n).toNat - 87 = n) := by decide
  exact hexDigit_iff.mpr ((hdigit n h).imp_right .inr)

theorem decode_lower (bytes : List UInt8) : decode (lower bytes) = .ok bytes :=
  decode_eq_ok_iff.mpr (hexPairs_of_hexDigit (fun _ => hexDigit_lowerDigit) bytes)

theorem lower_cons (b : UInt8) (bytes : List UInt8) :
    lower (b :: bytes) =
      lowerDigit (b.toNat / 16) :: lowerDigit (b.toNat % 16) :: lower bytes := rfl

theorem length_lower (bytes : List UInt8) : (lower bytes).length = 2 * bytes.length := by
  induction bytes with
  | nil => rfl
  | cons b bytes ih =>
    rw [lower_cons, List.length_cons, List.length_cons, ih, List.length_cons]
    omega

/-- Lower-case digits are in the order of their values, since letters come behind the decimal
digits. -/
theorem lowerDigit_lt_iff {m n : Nat} (hm : m < 16) (hn : n < 16) :
    lowerDigit m < lowerDigit n ↔ m < n := by
  have hdigit : ∀ m < 16, ∀ n < 16, lowerDigit m < lowerDigit n ↔ m < n := by decide
  exact hdigit m hm n hn

theorem lowerDigit_inj {m n : Nat} (hm : m < 16) (hn : n < 16) :
    lowerDigit m = lowerDigit n ↔ m = n := by
  have hdigit : ∀ m < 16, ∀ n < 16, lowerDigit m = lowerDigit n ↔ m = n := by decide
  exact hdigit m hm n hn

/-- Digits in lower case are in the order of the bytes that they are written for. -/
theorem lower_lt_lower_iff {xs ys : List UInt8} : lower xs < lower ys ↔ xs < ys := by
  induction xs generalizing ys with
  | nil => cases ys <;> simp [lower]
  | cons x xs ih =>
    cases ys with
    | nil => simp [lower]
    | cons y ys =>
      have hx := x.toNat_lt
      have hy := y.toNat_lt
      have hxhigh : x.toNat / 16 < 16 := by omega
      have hyhigh : y.toNat / 16 < 16 := by omega
      have hxlow : x.toNat % 16 < 16 := Nat.mod_lt _ (by decide)
      have hylow : y.toNat % 16 < 16 := Nat.mod_lt _ (by decide)
      simp only [lower_cons, List.cons_lt_cons_iff, lowerDigit_lt_iff hxhigh hyhigh,
        lowerDigit_lt_iff hxlow hylow, lowerDigit_inj hxhigh hyhigh, lowerDigit_inj hxlow hylow, ih,
        UInt8.lt_iff_toNat_lt, ← UInt8.toNat_inj]
      -- a byte is less by its high half, or with equal high halves by its low half
      constructor
      · rintro (h | ⟨hhigh, h | ⟨hlow, h⟩⟩)
        · exact .inl (by omega)
        · exact .inl (by omega)
        · exact .inr ⟨by omega, h⟩
      · rintro (h | ⟨heq, h⟩)
        · omega
        · exact .inr ⟨by rw [heq], .inr ⟨by rw [heq], h⟩⟩

end Hex

namespace Identifier

/-! ### Groups -/

/-- Among texts with leading parts of one length, the leading parts decide first. -/
theorem append_lt_append_iff {α : Type} [LT α] {xs ys s t : List α}
    (h : xs.length = ys.length) : xs ++ s < ys ++ t ↔ xs < ys ∨ xs = ys ∧ s < t := by
  induction xs generalizing ys with
  | nil =>
    obtain rfl := List.length_eq_zero_iff.mp h.symm
    simp
  | cons x xs ih =>
    obtain ⟨y, ys, rfl⟩ := List.exists_cons_of_length_eq_add_one h.symm
    simp only [List.cons_append, List.cons_lt_cons_iff, ih (Nat.succ.inj h), List.cons.injEq]
    tauto

/-- Hyphens at the same places do not change the order. -/
theorem hyphenate_lt_hyphenate_iff : ∀ {sizes : List Nat} {xs ys : List Char},
    xs.length = ys.length → (hyphenate sizes xs < hyphenate sizes ys ↔ xs < ys)
  | [], _, _, _ => Iff.rfl
  | [_], _, _, _ => Iff.rfl
  | size :: next :: sizes, xs, ys, h => by
    have htake : (xs.take size).length = (ys.take size).length := by
      rw [List.length_take, List.length_take, h]
    have hdrop : (xs.drop size).length = (ys.drop size).length := by
      rw [List.length_drop, List.length_drop, h]
    conv_rhs => rw [← List.take_append_drop size xs, ← List.take_append_drop size ys]
    rw [hyphenate, hyphenate, append_lt_append_iff htake, append_lt_append_iff htake,
      List.cons_lt_cons_iff, hyphenate_lt_hyphenate_iff hdrop]
    simp

/-- The digits in front of a hyphen fill their group. -/
private theorem length_groups {size next : Nat} {sizes : List Nat} {digits : List Char}
    (h : digits.length = (size :: next :: sizes).sum) :
    (digits.take size).length = size ∧ (digits.drop size).length = (next :: sizes).sum := by
  rw [List.sum_cons] at h
  rw [List.length_take, List.length_drop]
  omega

theorem length_hyphenate : ∀ {sizes : List Nat} {digits : List Char}, sizes ≠ [] →
    digits.length = sizes.sum → (hyphenate sizes digits).length + 1 = sizes.sum + sizes.length
  | [], _, hne, _ => absurd rfl hne
  | [_], digits, _, h => congrArg (· + 1) h
  | size :: next :: sizes, digits, _, h => by
    obtain ⟨htake, hdrop⟩ := length_groups h
    have ih := length_hyphenate (List.cons_ne_nil next sizes) hdrop
    rw [hyphenate, List.length_append, List.length_cons, htake, List.sum_cons, List.length_cons]
    omega

/-- Digits that fill the groups are read back. -/
theorem unhyphenate?_hyphenate : ∀ {sizes : List Nat} {digits : List Char}, sizes ≠ [] →
    digits.length = sizes.sum → unhyphenate? sizes (hyphenate sizes digits) = some digits
  | [], _, hne, _ => absurd rfl hne
  | [size], digits, _, h => if_pos h
  | size :: next :: sizes, digits, _, h => by
    obtain ⟨htake, hdrop⟩ := length_groups h
    have ih := unhyphenate?_hyphenate (List.cons_ne_nil next sizes) hdrop
    rw [hyphenate, unhyphenate?, List.drop_left' htake, List.take_left' htake]
    simp only [htake, if_true, ih, Option.map_some, List.take_append_drop]

/-! ### The text form -/

variable {a b : Identifier}

theorem length_digits (id : Identifier) : (Hex.lower id.bytes).length = groups.sum := by
  rw [Hex.length_lower, id.length_bytes]
  rfl

theorem length_chars (id : Identifier) : id.chars.length = 36 := by
  have hlength := length_hyphenate (by decide : groups ≠ []) id.length_digits
  exact Nat.succ.inj hlength

theorem digits?_chars (id : Identifier) : digits? id.chars = some (Hex.lower id.bytes) := by
  rw [digits?, id.length_chars]
  exact unhyphenate?_hyphenate (by decide) id.length_digits

theorem parse_text (id : Identifier) : parse id.text = .ok id := by
  rw [parse, text, String.toList_ofList, digits?_chars]
  simp only [Hex.decode_lower, dif_pos id.length_bytes]

theorem text_lt_text_iff : a.text < b.text ↔ a.bytes < b.bytes := by
  rw [String.lt_iff, text, text, String.toList_ofList, String.toList_ofList, chars, chars,
    hyphenate_lt_hyphenate_iff (a.length_digits.trans b.length_digits.symm), Hex.lower_lt_lower_iff]

theorem text_le_text_iff : a.text ≤ b.text ↔ a.bytes ≤ b.bytes :=
  not_congr text_lt_text_iff

/-! ### Documents -/

theorem fromJson_byte (b : UInt8) : fromJson (toJson b) = .ok b := by
  have hbounds : (0 : Int) ≤ b.toNat ∧ (b.toNat : Int) ≤ UInt8.size - 1 := by
    have := b.toNat_lt
    simp only [UInt8.size]
    omega
  have hback : UInt8.ofInt b.toNat = b := by
    rw [← UInt8.toNat_inj, UInt8.ofInt, UInt8.toNat_ofNat']
    have := b.toNat_lt
    omega
  change (Json.boundedInteger 0 (UInt8.size - 1) "u8" (.integer b.toNat)).map UInt8.ofInt = _
  rw [Json.boundedInteger, if_pos hbounds, Except.map, hback]

theorem ofBytes_bytes (id : Identifier) : ofBytes id.bytes = .ok id := dif_pos id.length_bytes

theorem decodeBytes_bytes (id : Identifier) : decodeBytes id.bytes = .ok id := by
  rw [decodeBytes, ofBytes_bytes]
  rfl

/-- The bytes as an array of numbers. -/
theorem fromJson_bytes (id : Identifier) :
    fromJson (Json.array (id.bytes.map toJson)) = .ok id := by
  have hbytes : (id.bytes.map toJson).mapM fromJson = (.ok id.bytes : Json.Decoded _) := by
    refine Outcome.mapM_eq_ok.mpr (List.forall₂_map_left_iff.mpr ?_)
    exact List.forall₂_same.mpr fun b _ => fromJson_byte b
  change ((id.bytes.map toJson).mapM fromJson >>= decodeBytes) = _
  rw [hbytes]
  exact id.decodeBytes_bytes

theorem fromJson_text (id : Identifier) : fromJson (toJson id) = .ok id := by
  change (parse id.text).mapError _ = _
  rw [parse_text]
  rfl

/-! ### All encodings -/

theorem le_iff : a.le b ↔ a.bytes ≤ b.bytes := decide_eq_true_iff

theorem bytes_lt_of_timestamp_lt (h : a.timestamp < b.timestamp) : a.bytes < b.bytes :=
  lt_of_bigEndian_take_lt (a.length_bytes.trans b.length_bytes.symm) 6 h

/-- **All encodings agree.** Whatever its bytes are, an identifier is read back from its text, from
the document with its text, from its bytes, and from the document for its bytes as a value, which is
an array of 16 numbers. Two identifiers compare alike as identifiers, by their bytes and by their
texts, and the one with the smaller timestamp is the smaller one. -/
theorem encodings_agree (a b : Identifier) :
    (parse a.text = .ok a ∧ fromJson (toJson a) = .ok a) ∧
    (ofBytes a.bytes = .ok a ∧ decodeBytes a.bytes = .ok a ∧
      toJson (toValue a) = .array (a.bytes.map toJson) ∧ a.bytes.length = 16 ∧
      fromJson (toJson (toValue a)) = .ok a) ∧
    ((a.le b ↔ a.bytes ≤ b.bytes) ∧ (a.le b ↔ a.text ≤ b.text) ∧
      (a.bytes < b.bytes ↔ ¬ b.le a) ∧ (a.text < b.text ↔ ¬ b.le a)) ∧
    (a.timestamp < b.timestamp → ¬ b.le a ∧ a.bytes < b.bytes ∧ a.text < b.text) := by
  have hlt : a.bytes < b.bytes ↔ ¬ b.le a := by rw [le_iff, List.not_le]
  refine ⟨⟨a.parse_text, a.fromJson_text⟩,
    ⟨a.ofBytes_bytes, a.decodeBytes_bytes, rfl, a.length_bytes, a.fromJson_bytes⟩,
    ⟨le_iff, le_iff.trans text_le_text_iff.symm, hlt, text_lt_text_iff.trans hlt⟩, fun h => ?_⟩
  have hbytes := bytes_lt_of_timestamp_lt h
  exact ⟨hlt.mp hbytes, hbytes, text_lt_text_iff.mpr hbytes⟩

/-- Two identifiers whose digits differ in kind: the one that was made earlier has the greater bytes
behind its timestamp. -/
def pair : Identifier × Identifier :=
  (⟨[1, 0x8B, 0xCF, 0xE5, 0x68, 0x9F] ++ List.replicate 10 0xFF, rfl⟩,
    ⟨[1, 0x8B, 0xCF, 0xE5, 0x68, 0xA0] ++ List.replicate 10 0, rfl⟩)

theorem encodings_agree_pair :
    pair.1.text = "018bcfe5-689f-ffff-ffff-ffffffffffff" ∧ pair.1.timestamp < pair.2.timestamp ∧
      parse pair.1.text = .ok pair.1 ∧ pair.1.bytes < pair.2.bytes ∧ pair.1.text < pair.2.text := by
  have htimestamp : pair.1.timestamp < pair.2.timestamp := by decide
  obtain ⟨⟨hparse, -⟩, -, -, horder⟩ := encodings_agree pair.1 pair.2
  exact ⟨by rfl, htimestamp, hparse, (horder htimestamp).2⟩

end Identifier

end Discography
