import Discography.Proofs.Outcome
import Discography.Sql.Literal.Reader

/-!
# The bodies of texts and of bytes

What stands between the apostrophes of a literal, apart from how it is read. In a text an apostrophe
is written twice or behind a backslash, depending on the style; bytes are pairs of hexadecimal
digits. The readers find the apostrophe that closes such a body, and accept no others.

## Main definitions

* `Literal.Escape`: the characters behind backslashes
* `Literal.TextBody`: the bodies of texts, in either style
* `Hex.HexDigit`, `Hex.HexPairs`: the bodies of bytes

## Main results

* `Literal.readText_eq_ok_iff`: reading the body of a text
* `Hex.decode_eq_ok_iff`: the bytes of digits
* `Literal.readBlob_eq_ok_iff`: reading the body of bytes
-/

namespace Discography

/-! ### Texts -/

namespace Literal

/-- The first character behind a backslash stands for the second one. -/
inductive Escape : Char → Char → Prop
  | zero : Escape '0' '\x00'
  | newline : Escape 'n' '\n'
  | carriageReturn : Escape 'r' '\r'
  | controlZ : Escape 'Z' '\x1a'
  | itself {c : Char} (h : c ∉ ['0', 'n', 'r', 'Z']) : Escape c c

theorem escape_iff {c d : Char} : Escape c d ↔ unescape c = d := by
  constructor
  · rintro (_ | _ | _ | _ | h)
    case itself => simp_all [unescape]
    all_goals rfl
  · rintro rfl
    rw [unescape]
    split_ifs with hzero hnewline hreturn hcontrol
    · exact hzero ▸ .zero
    · exact hnewline ▸ .newline
    · exact hreturn ▸ .carriageReturn
    · exact hcontrol ▸ .controlZ
    · exact .itself (by simp [hzero, hnewline, hreturn, hcontrol])

/-- The body of a text, and the characters that it stands for. -/
inductive TextBody : TextStyle → List Char → List Char → Prop
  | nil {style : TextStyle} : TextBody style [] []
  | plain {style : TextStyle} {c : Char} {body s : List Char} (hquote : c ≠ '\'')
    (hbackslash : style = .backslash → c ≠ '\\') (h : TextBody style body s) :
    TextBody style (c :: body) (c :: s)
  | doubled {body s : List Char} (h : TextBody .doubled body s) :
    TextBody .doubled ('\'' :: '\'' :: body) ('\'' :: s)
  | escaped {c d : Char} {body s : List Char} (hescape : Escape c d)
    (h : TextBody .backslash body s) : TextBody .backslash ('\\' :: c :: body) (d :: s)

theorem push_eq_ok {c : Char} {r : Reading (List Char)} {s rest : List Char} :
    r.push c = .ok (s, rest) ↔ ∃ t, r = .ok (t, rest) ∧ s = c :: t := by
  rw [Reading.push, Outcome.map_eq_ok]
  constructor
  · rintro ⟨⟨t, _⟩, hr, ⟨⟩⟩
    exact ⟨t, hr, rfl⟩
  · rintro ⟨t, hr, rfl⟩
    exact ⟨(t, rest), hr, rfl⟩

theorem textBody_of_readDoubled {text s rest : List Char} (h : readDoubled text = .ok (s, rest)) :
    ∃ body, text = body ++ '\'' :: rest ∧ TextBody .doubled body s ∧ rest.head? ≠ some '\'' := by
  fun_induction readDoubled text generalizing s with
  | case1 text ih =>
    obtain ⟨t, ht, rfl⟩ := push_eq_ok.mp h
    obtain ⟨body, rfl, hbody, hrest⟩ := ih ht
    exact ⟨'\'' :: '\'' :: body, rfl, .doubled hbody, hrest⟩
  | case2 text hnext =>
    obtain ⟨rfl, rfl⟩ := Prod.mk.inj (Except.ok.inj h)
    refine ⟨[], rfl, .nil, fun hhead => ?_⟩
    obtain ⟨more, rfl⟩ := List.head?_eq_some_iff.mp hhead
    exact hnext more rfl
  | case3 c text _ hquote ih =>
    obtain ⟨t, ht, rfl⟩ := push_eq_ok.mp h
    obtain ⟨body, rfl, hbody, hrest⟩ := ih ht
    exact ⟨c :: body, rfl, .plain hquote nofun hbody, hrest⟩
  | case4 => cases h

theorem textBody_of_readBackslash {text s rest : List Char}
    (h : readBackslash text = .ok (s, rest)) :
    ∃ body, text = body ++ '\'' :: rest ∧ TextBody .backslash body s := by
  fun_induction readBackslash text generalizing s with
  | case1 c text ih =>
    obtain ⟨t, ht, rfl⟩ := push_eq_ok.mp h
    obtain ⟨body, rfl, hbody⟩ := ih ht
    exact ⟨'\\' :: c :: body, rfl, .escaped (escape_iff.mpr rfl) hbody⟩
  | case2 => cases h
  | case3 text =>
    obtain ⟨rfl, rfl⟩ := Prod.mk.inj (Except.ok.inj h)
    exact ⟨[], rfl, .nil⟩
  | case4 c text hescape hdangling hquote ih =>
    obtain ⟨t, ht, rfl⟩ := push_eq_ok.mp h
    -- a backslash escapes the character behind it or dangles at the end
    have hbackslash : c ≠ '\\' := by
      rintro rfl
      cases text with
      | nil => exact hdangling rfl rfl
      | cons d text => exact hescape d text rfl rfl
    obtain ⟨body, rfl, hbody⟩ := ih ht
    exact ⟨c :: body, rfl, .plain hquote (fun _ => hbackslash) hbody⟩
  | case5 => cases h

/-- A body is read up to the apostrophe behind it. If apostrophes are doubled, that one must not be
followed by another. -/
theorem TextBody.readText {style : TextStyle} {body s rest : List Char} (h : TextBody style body s)
    (hrest : style = .doubled → rest.head? ≠ some '\'') :
    Literal.readText style (body ++ '\'' :: rest) = .ok (s, rest) := by
  induction h with
  | @nil style =>
    cases style with
    | doubled =>
      -- another apostrophe behind the closing one would make it a part of the body
      cases rest with
      | nil => rfl
      | cons c rest =>
        have hc : c ≠ '\'' := by simpa using hrest rfl
        simp [Literal.readText, readDoubled, hc]
    | backslash => simp [Literal.readText, readBackslash]
  | @plain style c body s hquote hbackslash _ ih =>
    cases style with
    | doubled =>
      have hread : readDoubled (body ++ '\'' :: rest) = .ok (s, rest) := ih hrest
      simp [Literal.readText, readDoubled, hquote, hread, Reading.push, Except.map]
    | backslash =>
      have hread : readBackslash (body ++ '\'' :: rest) = .ok (s, rest) := ih hrest
      simp [Literal.readText, readBackslash, hbackslash rfl, hread, Reading.push, Except.map]
  | @doubled body s _ ih =>
    have hread : readDoubled (body ++ '\'' :: rest) = .ok (s, rest) := ih hrest
    simp [Literal.readText, readDoubled, hread, Reading.push, Except.map]
  | @escaped c d body s hescape _ ih =>
    have hread : readBackslash (body ++ '\'' :: rest) = .ok (s, rest) := ih hrest
    simp [Literal.readText, readBackslash, hread, Reading.push, Except.map, escape_iff.mp hescape]

/-- A text is read if it is the body of one and has an apostrophe behind it, that closes it. -/
theorem readText_eq_ok_iff {style : TextStyle} {text s rest : List Char} :
    readText style text = .ok (s, rest) ↔
      ∃ body, text = body ++ '\'' :: rest ∧ TextBody style body s ∧
        (style = .doubled → rest.head? ≠ some '\'') := by
  constructor
  · intro h
    cases style with
    | doubled =>
      obtain ⟨body, htext, hbody, hrest⟩ := textBody_of_readDoubled h
      exact ⟨body, htext, hbody, fun _ => hrest⟩
    | backslash =>
      obtain ⟨body, htext, hbody⟩ := textBody_of_readBackslash h
      exact ⟨body, htext, hbody, nofun⟩
  · rintro ⟨body, rfl, hbody, hrest⟩
    exact hbody.readText hrest

end Literal

/-! ### Bytes -/

namespace Hex

/-- A hexadecimal digit in either case, and its value. -/
inductive HexDigit : Char → Nat → Prop
  | decimal {c : Char} {n : Nat} (hn : n < 10) (hc : c.toNat = '0'.toNat + n) : HexDigit c n
  | upper {c : Char} {n : Nat} (hn : n < 6) (hc : c.toNat = 'A'.toNat + n) : HexDigit c (10 + n)
  | lower {c : Char} {n : Nat} (hn : n < 6) (hc : c.toNat = 'a'.toNat + n) : HexDigit c (10 + n)

/-- Two digits for each byte, the high one first. -/
inductive HexPairs : List Char → List UInt8 → Prop
  | nil : HexPairs [] []
  | cons {high low : Char} {h l : Nat} {digits : List Char} {bytes : List UInt8}
    (hhigh : HexDigit high h) (hlow : HexDigit low l) (hrest : HexPairs digits bytes) :
    HexPairs (high :: low :: digits) (UInt8.ofNat (16 * h + l) :: bytes)

theorem hexDigit_iff {c : Char} {n : Nat} : HexDigit c n ↔
    (48 ≤ c.toNat ∧ c.toNat ≤ 57 ∧ c.toNat - 48 = n) ∨
      (65 ≤ c.toNat ∧ c.toNat ≤ 70 ∧ c.toNat - 55 = n) ∨
        97 ≤ c.toNat ∧ c.toNat ≤ 102 ∧ c.toNat - 87 = n := by
  have hzero : '0'.toNat = 48 := rfl
  have hupper : 'A'.toNat = 65 := rfl
  have hlower : 'a'.toNat = 97 := rfl
  constructor
  · rintro (⟨hn, hc⟩ | ⟨hn, hc⟩ | ⟨hn, hc⟩) <;> omega
  · rintro (⟨hlow, hhigh, rfl⟩ | ⟨hlow, hhigh, hn⟩ | ⟨hlow, hhigh, hn⟩)
    · exact .decimal (by omega) (by omega)
    · obtain ⟨k, rfl⟩ : ∃ k, n = 10 + k := ⟨n - 10, by omega⟩
      exact .upper (by omega) (by omega)
    · obtain ⟨k, rfl⟩ : ∃ k, n = 10 + k := ⟨n - 10, by omega⟩
      exact .lower (by omega) (by omega)

theorem HexDigit.ascii {c : Char} {n : Nat} (h : HexDigit c n) : c.toNat ≤ 0x7f := by
  rw [hexDigit_iff] at h
  omega

theorem digitValue?_eq_some_iff {c : Char} {n : Nat} (hc : c.toNat ≤ 0x7f) :
    digitValue? (UInt8.ofNat c.toNat) = some n ↔ HexDigit c n := by
  have hbyte : (UInt8.ofNat c.toNat).toNat = c.toNat := by
    rw [UInt8.toNat_ofNat']
    omega
  simp only [digitValue?, hbyte, Bool.and_eq_true, decide_eq_true_eq, hexDigit_iff]
  split_ifs
  · rw [Option.some.injEq]
    omega
  · rw [Option.some.injEq]
    omega
  · rw [Option.some.injEq]
    omega
  · rw [iff_false_left nofun]
    omega

/-- No byte of a character beyond ASCII is a digit. -/
theorem digitValue?_of_mem_utf8EncodeChar {c : Char} (hc : ¬ c.toNat ≤ 0x7f) {b : UInt8}
    (hb : b ∈ String.utf8EncodeChar c) : digitValue? b = none := by
  have hhigh : 0x80 ≤ b.toNat := by
    simp only [String.utf8EncodeChar] at hb
    split_ifs at hb
    · contradiction
    all_goals
      simp only [List.mem_cons, List.not_mem_nil, or_false] at hb
      rcases hb with rfl | rfl | rfl | rfl <;> simp <;> omega
  simp only [digitValue?]
  rw [if_neg (by simp; omega), if_neg (by simp; omega), if_neg (by simp; omega)]

theorem flatMap_utf8EncodeChar {text : List Char} (h : ∀ c ∈ text, c.toNat ≤ 0x7f) :
    text.flatMap String.utf8EncodeChar = text.map fun c => UInt8.ofNat c.toNat := by
  induction text with
  | nil => rfl
  | cons c text ih =>
    obtain ⟨hc, htext⟩ := List.forall_mem_cons.mp h
    have hchar : String.utf8EncodeChar c = [UInt8.ofNat c.toNat] := if_pos hc
    rw [List.flatMap_cons, hchar, ih htext]
    rfl

theorem readDigit_eq_ok_iff {position : Nat} {b : UInt8} {n : Nat} :
    readDigit position b = .ok n ↔ digitValue? b = some n := by
  rw [readDigit]
  cases digitValue? b <;> simp

/-- Only digits are decoded. -/
theorem isSome_digitValue?_of_decodePairs {position : Nat} : ∀ {bytes result : List UInt8},
    bytes.length % 2 = 0 → decodePairs position bytes = .ok result →
      ∀ b ∈ bytes, (digitValue? b).isSome
  | [], _, _, _ => nofun
  | [_], _, heven, _ => absurd heven (by simp)
  | high :: low :: bytes, result, heven, h => by
    simp only [decodePairs, Outcome.bind_eq_ok, readDigit_eq_ok_iff] at h
    obtain ⟨m, hhigh, n, hlow, rest, hrest, -⟩ := h
    rw [List.length_cons, List.length_cons] at heven
    simp only [List.forall_mem_cons]
    exact ⟨by simp [hhigh], by simp [hlow],
      isSome_digitValue?_of_decodePairs (by omega) hrest⟩

theorem decodePairs_ascii {position : Nat} : ∀ {text : List Char} {bytes : List UInt8},
    (∀ c ∈ text, c.toNat ≤ 0x7f) → text.length % 2 = 0 →
      (decodePairs position (text.map fun c => UInt8.ofNat c.toNat) = .ok bytes ↔
        HexPairs text bytes)
  | [], bytes, _, _ => by
    constructor
    · rintro ⟨⟩
      exact .nil
    · rintro ⟨⟩
      rfl
  | [_], _, _, heven => absurd heven (by simp)
  | high :: low :: text, bytes, hascii, heven => by
    simp only [List.forall_mem_cons] at hascii
    rw [List.length_cons, List.length_cons] at heven
    obtain ⟨hhigh, hlow, htext⟩ := hascii
    simp only [List.map_cons, decodePairs, Outcome.bind_eq_ok, readDigit_eq_ok_iff,
      Outcome.pure_eq_ok, digitValue?_eq_some_iff hhigh, digitValue?_eq_some_iff hlow,
      decodePairs_ascii htext (by omega : text.length % 2 = 0)]
    constructor
    · rintro ⟨h, hh, l, hl, rest, hrest, rfl⟩
      exact .cons hh hl hrest
    · rintro (_ | ⟨hh, hl, hrest⟩)
      exact ⟨_, hh, _, hl, _, hrest, rfl⟩

theorem HexPairs.ascii {text : List Char} {bytes : List UInt8} (h : HexPairs text bytes) :
    ∀ c ∈ text, c.toNat ≤ 0x7f := by
  induction h with
  | nil => exact nofun
  | cons hhigh hlow _ ih =>
    simp only [List.forall_mem_cons]
    exact ⟨hhigh.ascii, hlow.ascii, ih⟩

theorem HexPairs.even {text : List Char} {bytes : List UInt8} (h : HexPairs text bytes) :
    text.length % 2 = 0 := by
  induction h with
  | nil => rfl
  | cons _ _ _ ih =>
    rw [List.length_cons, List.length_cons]
    omega

/-- The texts that stand for bytes are pairs of digits. -/
theorem decode_eq_ok_iff {text : List Char} {bytes : List UInt8} :
    decode text = .ok bytes ↔ HexPairs text bytes := by
  constructor
  · intro h
    rw [decode] at h
    split at h
    · rename_i heven
      -- all bytes are digits, so no character takes more than one of them
      have hascii : ∀ c ∈ text, c.toNat ≤ 0x7f := by
        intro c hc
        by_contra hhigh
        have hne : String.utf8EncodeChar c ≠ [] := by
          rw [← List.length_pos_iff, String.length_utf8EncodeChar]
          exact c.utf8Size_pos
        obtain ⟨b, bs, hbytes⟩ := List.exists_cons_of_ne_nil hne
        have hb : b ∈ String.utf8EncodeChar c := hbytes ▸ List.mem_cons_self
        have hsome := isSome_digitValue?_of_decodePairs heven h b (List.mem_flatMap.mpr ⟨c, hc, hb⟩)
        rw [digitValue?_of_mem_utf8EncodeChar hhigh hb] at hsome
        cases hsome
      rw [flatMap_utf8EncodeChar hascii] at h heven
      exact (decodePairs_ascii hascii (by rwa [List.length_map] at heven)).mp h
    · cases h
  · intro h
    rw [decode, flatMap_utf8EncodeChar h.ascii, List.length_map, if_pos h.even]
    exact (decodePairs_ascii h.ascii h.even).mpr h

theorem HexPairs.ne_apostrophe {text : List Char} {bytes : List UInt8} (h : HexPairs text bytes) :
    ∀ c ∈ text, c ≠ '\'' := by
  have hdigit : ∀ {c : Char} {n : Nat}, HexDigit c n → c ≠ '\'' := by
    rintro _ n h rfl
    have hrange := hexDigit_iff.mp h
    simp at hrange
  induction h with
  | nil => exact nofun
  | cons hhigh hlow _ ih =>
    simp only [List.forall_mem_cons]
    exact ⟨hdigit hhigh, hdigit hlow, ih⟩

end Hex

namespace Literal

/-- Bytes are read if they are pairs of digits with an apostrophe behind them. -/
theorem readBlob_eq_ok_iff {text rest : List Char} {v : Value} :
    readBlob text = .ok (v, rest) ↔ ∃ digits bytes,
      text = digits ++ '\'' :: rest ∧ Hex.HexPairs digits bytes ∧ v = .blob bytes := by
  constructor
  · intro h
    rw [readBlob] at h
    split at h
    · cases h
    rename_i c more hdrop
    split at h
    · rename_i bytes hdecode
      obtain ⟨rfl, rfl⟩ := Prod.mk.inj (Except.ok.inj h)
      have hclose : c = '\'' := by
        have hhead := List.head?_dropWhile_not (· != '\'') text
        rw [hdrop] at hhead
        simpa using hhead
      rw [hclose] at hdrop
      refine ⟨_, bytes, ?_, Hex.decode_eq_ok_iff.mp hdecode, rfl⟩
      rw [← hdrop, List.takeWhile_append_dropWhile]
    · cases h
  · rintro ⟨digits, bytes, rfl, hdigits, rfl⟩
    have hplain : ∀ c ∈ digits, (c != '\'') = true := fun c hc =>
      bne_iff_ne.mpr (hdigits.ne_apostrophe c hc)
    rw [readBlob, List.takeWhile_append_of_pos hplain, List.dropWhile_append_of_pos hplain]
    simp [Hex.decode_eq_ok_iff.mpr hdigits]

end Literal

end Discography
