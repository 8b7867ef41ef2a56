import LatchSim.Text.Utf8

/-!
# Decoding inverts encoding

`decode_eq_ok`: bytes are read as a text exactly where they are the text's encoding. What a
decoder in any state makes of the bytes ahead is told by `Decoder.Accepts`, without its steps,
and one byte at a time it is what the decoder does: `accepts_cons`.
-/

namespace LatchSim.Text.Utf8

def encode (text : String) : List UInt8 := text.toUTF8.data.toList

theorem encode_ofList (chars : List Char) :
    encode (String.ofList chars) = chars.flatMap String.utf8EncodeChar := by
  simp [encode, String.toUTF8, List.utf8Encode]

/-! ## One character -/

/-- The bytes of a code point, as numbers. -/
def units (n : Nat) : List Nat :=
  if n ≤ 0x7F then [n]
  else if n ≤ 0x7FF then [n / 64 + 0xC0, n % 64 + 0x80]
  else if n ≤ 0xFFFF then [n / 4096 + 0xE0, n / 64 % 64 + 0x80, n % 64 + 0x80]
  else [n / 262144 + 0xF0, n / 4096 % 64 + 0x80, n / 64 % 64 + 0x80, n % 64 + 0x80]

/-- The code point of a character, and the bytes that encode it. -/
def Encodes (n : Nat) (bytes : List Nat) : Prop := n.isValidChar ∧ units n = bytes

section

variable {n a b c d : Nat}

theorem encodes_one : Encodes n [a] ↔ a < 0x80 ∧ n = a := by
  unfold Encodes units Nat.isValidChar
  repeat' split
  all_goals
    simp only [List.cons.injEq, reduceCtorEq, and_true, and_false, false_iff]
    omega

theorem encodes_two : Encodes n [a, b] ↔
    (0xC2 ≤ a ∧ a < 0xE0) ∧ (0x80 ≤ b ∧ b ≤ 0xBF) ∧ n = (a - 0xC0) * 64 + b % 64 := by
  unfold Encodes units Nat.isValidChar
  repeat' split
  all_goals
    simp only [List.cons.injEq, reduceCtorEq, and_true, and_false, false_iff]
    omega

theorem encodes_three : Encodes n [a, b, c] ↔
    (0xE0 ≤ a ∧ a < 0xF0) ∧
      ((if a = 0xE0 then 0xA0 else 0x80) ≤ b ∧ b ≤ if a = 0xED then 0x9F else 0xBF) ∧
      (0x80 ≤ c ∧ c ≤ 0xBF) ∧ n = ((a - 0xE0) * 64 + b % 64) * 64 + c % 64 := by
  unfold Encodes units Nat.isValidChar
  repeat' split
  all_goals
    simp only [List.cons.injEq, reduceCtorEq, and_true, and_false, false_iff]
    omega

theorem encodes_four : Encodes n [a, b, c, d] ↔
    (0xF0 ≤ a ∧ a < 0xF5) ∧
      ((if a = 0xF0 then 0x90 else 0x80) ≤ b ∧ b ≤ if a = 0xF4 then 0x8F else 0xBF) ∧
      (0x80 ≤ c ∧ c ≤ 0xBF) ∧ (0x80 ≤ d ∧ d ≤ 0xBF) ∧
      n = (((a - 0xF0) * 64 + b % 64) * 64 + c % 64) * 64 + d % 64 := by
  unfold Encodes units Nat.isValidChar
  repeat' split
  all_goals
    simp only [List.cons.injEq, reduceCtorEq, and_true, and_false, false_iff]
    omega

theorem Encodes.length_le {bytes : List Nat} (encodes : Encodes n bytes) : bytes.length ≤ 4 := by
  obtain ⟨_, rfl⟩ := encodes
  unfold units
  repeat' split
  all_goals simp

theorem Encodes.single {tail : List Nat} (encodes : Encodes n (a :: tail)) (low : a < 0x80) :
    tail = [] := by
  obtain ⟨_, code⟩ := encodes
  unfold units at code
  repeat' split at code
  all_goals
    obtain ⟨rfl, rest⟩ := List.cons.inj code
    first | exact rest.symm | omega

end

theorem toNat_encodeChar (c : Char) :
    (String.utf8EncodeChar c).map UInt8.toNat = units c.toNat := by
  have valid : c.toNat.isValidChar := c.valid
  have value : c.val.toNat = c.toNat := rfl
  simp only [Nat.isValidChar] at valid
  simp only [String.utf8EncodeChar, units, value, apply_ite (List.map UInt8.toNat), List.map_cons,
    List.map_nil, UInt8.toNat_ofNat']
  repeat' split
  all_goals
    simp only [List.cons.injEq, and_true]
    omega

theorem toNat_ofNat {n : Nat} (valid : n.isValidChar) : (Char.ofNat n).toNat = n := by
  rw [Char.ofNat, dif_pos valid]
  rfl

theorem encodeChar_eq_iff {c : Char} {bytes : List UInt8} :
    String.utf8EncodeChar c = bytes ↔
      ∃ n, c = Char.ofNat n ∧ Encodes n (bytes.map UInt8.toNat) := by
  constructor
  · rintro rfl
    exact ⟨c.toNat, c.ofNat_toNat.symm, c.valid, (toNat_encodeChar c).symm⟩
  · rintro ⟨n, rfl, valid, code⟩
    refine (List.map_inj_right fun _ _ => UInt8.toNat_inj.mp).mp ?_
    rw [toNat_encodeChar, toNat_ofNat valid, code]

/-! ## A character part way through -/

namespace Partial

/-- The bytes that complete a character part way through, and its code point. -/
def Ends (rest : Partial) : List UInt8 → Nat → Prop
  | [], _ => False
  | byte :: tail, n =>
    (rest.low ≤ byte.toNat ∧ byte.toNat ≤ rest.high) ∧
      if rest.due ≤ 1 then tail = [] ∧ n = rest.value * 64 + byte.toNat % 64
      else Ends ⟨rest.due - 1, 0x80, 0xBF, rest.value * 64 + byte.toNat % 64⟩ tail n

theorem ofLead?_eq_some {a : Nat} {rest : Partial} : ofLead? a = some rest ↔
    ((0xC2 ≤ a ∧ a < 0xE0) ∧ rest = ⟨1, 0x80, 0xBF, a - 0xC0⟩) ∨
    ((0xE0 ≤ a ∧ a < 0xF0) ∧ rest =
      ⟨2, if a = 0xE0 then 0xA0 else 0x80, if a = 0xED then 0x9F else 0xBF, a - 0xE0⟩) ∨
    ((0xF0 ≤ a ∧ a < 0xF5) ∧ rest =
      ⟨3, if a = 0xF0 then 0x90 else 0x80, if a = 0xF4 then 0x8F else 0xBF, a - 0xF0⟩) := by
  unfold ofLead?
  grind

/-- What a first byte begins ends with the other bytes of a character, one by one within their
bounds. -/
theorem exists_ends_iff {a : UInt8} {tail : List UInt8} {n : Nat} :
    (∃ rest, ofLead? a.toNat = some rest ∧ rest.Ends tail n) ↔
      0x80 ≤ a.toNat ∧ Encodes n ((a :: tail).map UInt8.toNat) := by
  simp only [ofLead?_eq_some, or_and_right, exists_or, and_assoc, exists_and_left, exists_eq_left]
  match tail with
  | [] =>
    simp only [Ends, and_false, or_false, List.map_cons, List.map_nil, encodes_one, false_iff]
    omega
  | [b] =>
    simp only [Ends, Std.le_refl, ↓reduceIte, true_and, Nat.reduceLeDiff, and_false, or_self,
      or_false, List.map_cons, List.map_nil, encodes_two]
    omega
  | [b, c] =>
    simp only [Ends, Std.le_refl, ↓reduceIte, List.cons_ne_self, false_and, and_false,
      Nat.reduceLeDiff, Nat.add_one_sub_one, true_and, or_false, false_or, List.map_cons,
      List.map_nil, encodes_three]
    omega
  | [b, c, d] =>
    simp only [Ends, Std.le_refl, ↓reduceIte, reduceCtorEq, false_and, and_false,
      Nat.reduceLeDiff, Nat.add_one_sub_one, List.cons_ne_self, true_and, false_or, List.map_cons,
      List.map_nil, encodes_four]
    omega
  | b :: c :: d :: e :: tail =>
    have long : ¬ Encodes n ((a :: b :: c :: d :: e :: tail).map UInt8.toNat) := fun encodes => by
      have short := encodes.length_le
      simp only [List.length_map, List.length_cons] at short
      omega
    simp [Ends, long, -List.map_cons]

end Partial

/-! ## The decoder -/

/-- The encoding of a text, split at its first byte. -/
theorem cons_eq_flatMap {a : UInt8} {bytes : List UInt8} {chars : List Char} :
    a :: bytes = chars.flatMap String.utf8EncodeChar ↔ ∃ c others tail, chars = c :: others ∧
      String.utf8EncodeChar c = a :: tail ∧
      bytes = tail ++ others.flatMap String.utf8EncodeChar := by
  cases chars with
  | nil => simp
  | cons c others =>
    rw [List.flatMap_cons]
    cases code : String.utf8EncodeChar c with
    | nil => exact absurd code String.utf8EncodeChar_ne_nil
    | cons b tail => grind

/-- A character has one byte, or a first byte and others that the first one asks for. -/
theorem encodeChar_eq_cons {c : Char} {a : UInt8} {tail : List UInt8} :
    String.utf8EncodeChar c = a :: tail ↔
      if a < 0x80 then c = Char.ofNat a.toNat ∧ tail = []
      else ∃ rest, Partial.ofLead? a.toNat = some rest ∧
        ∃ n, rest.Ends tail n ∧ c = Char.ofNat n := by
  rw [encodeChar_eq_iff]
  split
  case isTrue low =>
    have low : a.toNat < 0x80 := UInt8.lt_iff_toNat_lt.mp low
    constructor
    · rintro ⟨n, rfl, encodes⟩
      obtain rfl := List.map_eq_nil_iff.mp (encodes.single low)
      rw [(encodes_one.mp encodes).2]
      exact ⟨rfl, rfl⟩
    · rintro ⟨rfl, rfl⟩
      exact ⟨a.toNat, rfl, encodes_one.mpr ⟨low, rfl⟩⟩
  case isFalse high =>
    have high : 0x80 ≤ a.toNat := Nat.not_lt.mp fun low => high (UInt8.lt_iff_toNat_lt.mpr low)
    constructor
    · rintro ⟨n, rfl, encodes⟩
      obtain ⟨rest, begun, ends⟩ := Partial.exists_ends_iff.mpr ⟨high, encodes⟩
      exact ⟨rest, begun, n, ends, rfl⟩
    · rintro ⟨rest, begun, n, ends, rfl⟩
      exact ⟨n, rfl, (Partial.exists_ends_iff.mp ⟨rest, begun, ends⟩).2⟩

/-- The bytes ahead are, to their end, the encoding of these characters. -/
def State.Reads : State → List UInt8 → List Char → Prop
  | .between, bytes, chars => bytes = chars.flatMap String.utf8EncodeChar
  | .within _ rest, bytes, chars => ∃ tail n others, rest.Ends tail n ∧
      bytes = tail ++ others.flatMap String.utf8EncodeChar ∧ chars = Char.ofNat n :: others
  | .failed _, _, _ => False

namespace State

variable {a : UInt8} {bytes : List UInt8} {chars : List Char} {read : Nat} {rest : Partial}

theorem reads_between_cons : State.between.Reads (a :: bytes) chars ↔
    if a < 0x80 then
      ∃ others, chars = Char.ofNat a.toNat :: others ∧ State.between.Reads bytes others
    else ∃ rest, Partial.ofLead? a.toNat = some rest ∧ (State.within 1 rest).Reads bytes chars := by
  refine cons_eq_flatMap.trans ?_
  simp only [encodeChar_eq_cons]
  split
  · constructor
    · rintro ⟨_, others, _, rfl, ⟨rfl, rfl⟩, rfl⟩
      exact ⟨others, rfl, rfl⟩
    · rintro ⟨others, rfl, rfl⟩
      exact ⟨_, others, [], rfl, ⟨rfl, rfl⟩, rfl⟩
  · constructor
    · rintro ⟨_, others, tail, rfl, ⟨rest, begun, n, ends, rfl⟩, rfl⟩
      exact ⟨rest, begun, tail, n, others, ends, rfl, rfl⟩
    · rintro ⟨rest, begun, tail, n, others, ends, rfl, rfl⟩
      exact ⟨_, others, tail, rfl, ⟨rest, begun, n, ends, rfl⟩, rfl⟩

theorem reads_within_cons : (State.within read rest).Reads (a :: bytes) chars ↔
    (rest.low ≤ a.toNat ∧ a.toNat ≤ rest.high) ∧
      if rest.due ≤ 1 then ∃ others,
        chars = Char.ofNat (rest.value * 64 + a.toNat % 64) :: others ∧
          State.between.Reads bytes others
      else (State.within (read + 1)
        ⟨rest.due - 1, 0x80, 0xBF, rest.value * 64 + a.toNat % 64⟩).Reads bytes chars := by
  constructor
  · rintro ⟨tail, n, others, ends, split, rfl⟩
    cases tail with
    | nil => cases ends
    | cons b tail =>
      obtain ⟨rfl, rfl⟩ := List.cons.inj split
      refine ⟨ends.1, ?_⟩
      have ends := ends.2
      split at ends
      case isTrue last =>
        obtain ⟨rfl, rfl⟩ := ends
        rw [if_pos last]
        exact ⟨others, rfl, rfl⟩
      case isFalse more =>
        rw [if_neg more]
        exact ⟨tail, n, others, ends, rfl, rfl⟩
  · rintro ⟨bounds, ahead⟩
    split at ahead
    case isTrue last =>
      obtain ⟨others, rfl, rfl⟩ := ahead
      exact ⟨[a], _, others, ⟨bounds, by rw [if_pos last]; exact ⟨rfl, rfl⟩⟩, rfl, rfl⟩
    case isFalse more =>
      obtain ⟨tail, n, others, ends, rfl, rfl⟩ := ahead
      exact ⟨a :: tail, n, others, ⟨bounds, by rwa [if_neg more]⟩, rfl, rfl⟩

theorem reads_nil {state : State} : state.Reads [] chars ↔ state = .between ∧ chars = [] := by
  cases state with
  | between =>
    simp only [Reads, true_and]
    cases chars with
    | nil => simp
    | cons c others => simp
  | within read rest =>
    simp only [Reads, reduceCtorEq, false_and, iff_false]
    rintro ⟨tail, n, others, ends, empty, rfl⟩
    cases tail with
    | nil => cases ends
    | cons b tail => cases empty
  | failed fault => simp [Reads]

end State

namespace Decoder

/-- With the bytes ahead, a decoder comes to read a text. -/
def Accepts (d : Decoder) (bytes : List UInt8) (text : String) : Prop :=
  ∃ chars, d.state.Reads bytes chars ∧ text = String.ofList (d.done.reverse ++ chars)

theorem accepts_nil {d : Decoder} {text : String} :
    d.Accepts [] text ↔ d.result = .ok text := by
  obtain ⟨done, index, state⟩ := d
  simp only [Accepts, State.reads_nil]
  cases state <;> simp [result, eq_comm]

/-- A character that is complete joins those that are done. -/
theorem accepts_done {c : Char} {done : List Char} {index : Nat} {bytes : List UInt8}
    {text : String} : Accepts ⟨c :: done, index, .between⟩ bytes text ↔
      ∃ chars, (∃ others, chars = c :: others ∧ State.between.Reads bytes others) ∧
        text = String.ofList (done.reverse ++ chars) := by
  constructor
  · rintro ⟨others, reads, rfl⟩
    exact ⟨c :: others, ⟨others, rfl, reads⟩, by simp⟩
  · rintro ⟨_, ⟨others, rfl, reads⟩, rfl⟩
    exact ⟨others, reads, by simp⟩

/-- A byte ahead is what a decoder is fed next. -/
theorem accepts_cons {d : Decoder} {a : UInt8} {bytes : List UInt8} {text : String} :
    d.Accepts (a :: bytes) text ↔ (d.feed a).Accepts bytes text := by
  obtain ⟨done, index, state⟩ := d
  cases state with
  | between =>
    simp only [feed]
    split
    case isTrue low =>
      rw [accepts_done]
      simp only [Accepts, State.reads_between_cons, if_pos low]
    case isFalse high =>
      simp only [Accepts, State.reads_between_cons, if_neg high]
      cases Partial.ofLead? a.toNat <;> simp [State.Reads]
  | within read rest =>
    simp only [feed]
    split
    case isTrue bounds =>
      split
      case isTrue last =>
        rw [accepts_done]
        simp only [Accepts, State.reads_within_cons, if_pos last, bounds, true_and, and_self]
      case isFalse more =>
        simp only [Accepts, State.reads_within_cons, if_neg more, bounds, true_and, and_self]
    case isFalse out =>
      simp only [Accepts, State.reads_within_cons, out, false_and, exists_false, false_iff]
      rintro ⟨_, reads, _⟩
      exact reads
  | failed fault => rfl

theorem accepts_iff {d : Decoder} {bytes : List UInt8} {text : String} :
    d.Accepts bytes text ↔ (bytes.foldl feed d).result = .ok text := by
  induction bytes generalizing d with
  | nil => exact accepts_nil
  | cons a bytes ih => rw [accepts_cons, ih, List.foldl_cons]

end Decoder

/-- Bytes are read as a text exactly where they are its encoding. -/
theorem decode_eq_ok {bytes : List UInt8} {text : String} :
    decode bytes = .ok text ↔ bytes = encode text := by
  rw [decode, ← Decoder.accepts_iff]
  constructor
  · rintro ⟨chars, reads, rfl⟩
    rw [Decoder.start, List.reverse_nil, List.nil_append, encode_ofList]
    exact reads
  · rintro rfl
    refine ⟨text.toList, ?_, by simp [Decoder.start]⟩
    change encode text = text.toList.flatMap String.utf8EncodeChar
    rw [← encode_ofList, String.ofList_toList]

end LatchSim.Text.Utf8
