import Mathlib.Data.List.Induction
import LatchSim.Proofs.Text.Utf8

/-!
# Where bytes stop being text

A fault of the decoder tells how much of the bytes is text, and what stands behind that:
`decode_eq_error`. The decoder has failed as soon as the bytes so far begin no text at all, and
its index is at all times the length of the longest text that they begin with:
`Decoder.tracks`.
-/

namespace LatchSim.Text.Utf8

/-- Some text is encoded by these bytes and others behind them. -/
def BeginsText (bytes : List UInt8) : Prop := ∃ text, bytes <+: encode text

/-- Some character is encoded by these bytes and at least one behind them. -/
def BeginsChar (bytes : List UInt8) : Prop :=
  ∃ c tail, tail ≠ [] ∧ String.utf8EncodeChar c = bytes ++ tail

/-- This many bytes are text, and no more. -/
structure Longest (bytes : List UInt8) (index : Nat) : Prop where
  valid : ∃ text, encode text <+: bytes ∧ (encode text).length = index
  longest : ∀ text, encode text <+: bytes → (encode text).length ≤ index

/-- Behind the index the bytes go wrong after `length` of them: a byte that begins no character,
or bytes that do and another one that they cannot go on with. -/
structure Stops (bytes : List UInt8) (index length : Nat) : Prop where
  positive : 0 < length
  inside : index + length ≤ bytes.length
  begun : length = 1 ∨ BeginsText (bytes.take (index + length))
  broken : ¬ BeginsText (bytes.take (index + length + 1))

variable {bytes : List UInt8} {index length : Nat}

theorem BeginsText.mono {front : List UInt8} (begins : BeginsText bytes)
    (before : front <+: bytes) : BeginsText front := by
  obtain ⟨text, inside⟩ := begins
  exact ⟨text, before.trans inside⟩

theorem Stops.append (stops : Stops bytes index length) (more : List UInt8) :
    Stops (bytes ++ more) index length where
  positive := stops.positive
  inside := by
    rw [List.length_append]
    exact Nat.le_add_right_of_le stops.inside
  begun := by
    rw [List.take_append_of_le_length stops.inside]
    exact stops.begun
  broken begins := by
    refine stops.broken (begins.mono ?_)
    rw [List.take_append]
    exact List.prefix_append _ _

/-! ## Characters part way through -/

namespace Partial

/-- A byte can be found that goes on. -/
def Open (rest : Partial) : Prop := rest.low ≤ rest.high ∧ rest.high < 256

theorem open_of_lead {a : Nat} {rest : Partial} (begun : ofLead? a = some rest) : rest.Open := by
  rcases ofLead?_eq_some.mp begun with ⟨_, rfl⟩ | ⟨_, rfl⟩ | ⟨_, rfl⟩ <;> (unfold Open; grind)

theorem open_next (due value : Nat) : Open ⟨due, 0x80, 0xBF, value⟩ := by simp [Open]

/-- A character part way through can be completed. -/
theorem Open.exists_ends {rest : Partial} (opened : rest.Open) : ∃ tail n, rest.Ends tail n := by
  obtain ⟨byte, low⟩ : ∃ byte : UInt8, byte.toNat = rest.low :=
    ⟨UInt8.ofNat rest.low, UInt8.toNat_ofNat_of_lt' (Nat.lt_of_le_of_lt opened.1 opened.2)⟩
  have bounds : rest.low ≤ byte.toNat ∧ byte.toNat ≤ rest.high := by
    rw [low]
    exact ⟨Nat.le_refl _, opened.1⟩
  by_cases last : rest.due ≤ 1
  · exact ⟨[byte], _, bounds, by rw [if_pos last]; exact ⟨rfl, rfl⟩⟩
  · obtain ⟨tail, n, ends⟩ :=
      (open_next (rest.due - 1) (rest.value * 64 + byte.toNat % 64)).exists_ends
    exact ⟨byte :: tail, n, bounds, by rwa [if_neg last]⟩
termination_by rest.due
decreasing_by omega

end Partial

/-! ## The decoder -/

namespace Decoder

/-- The decoder when it has been fed these bytes. -/
def after (bytes : List UInt8) : Decoder := bytes.foldl feed start

/-- The bytes of the characters that are complete. -/
def taken (d : Decoder) : List UInt8 := encode (String.ofList d.done.reverse)

theorem after_concat (bytes : List UInt8) (b : UInt8) :
    after (bytes ++ [b]) = (after bytes).feed b := by
  simp [after]

theorem accepts_after {tail : List UInt8} {text : String} :
    (after bytes).Accepts tail text ↔ bytes ++ tail = encode text := by
  rw [accepts_iff, after, ← List.foldl_append]
  exact decode_eq_ok

theorem taken_of_between (between : (after bytes).state = .between) :
    (after bytes).taken = bytes := by
  have reads : (after bytes).state.Reads [] [] := State.reads_nil.mpr ⟨between, rfl⟩
  have whole := accepts_after.mp ⟨[], reads, rfl⟩
  rw [List.append_nil, List.append_nil] at whole
  exact whole.symm

theorem between_iff : (after bytes).state = .between ↔ ∃ text, bytes = encode text := by
  constructor
  · intro between
    exact ⟨_, (taken_of_between between).symm⟩
  · rintro ⟨text, whole⟩
    obtain ⟨chars, reads, _⟩ := accepts_after.mpr ((List.append_nil bytes).trans whole)
    exact (State.reads_nil.mp reads).1

/-- What completes the character that is being read, completes its encoding. -/
theorem append_of_within {read : Nat} {rest : Partial} {tail : List UInt8} {n : Nat}
    (within : (after bytes).state = .within read rest) (ends : rest.Ends tail n) :
    bytes ++ tail = (after bytes).taken ++ String.utf8EncodeChar (Char.ofNat n) := by
  have reads : (after bytes).state.Reads tail [Char.ofNat n] := by
    rw [within]
    exact ⟨tail, n, [], ends, (List.append_nil tail).symm, rfl⟩
  rw [accepts_after.mp ⟨_, reads, rfl⟩, encode_ofList, List.flatMap_append, taken, encode_ofList,
    List.flatMap_singleton]

theorem not_beginsText_of_failed {fault : Fault} (failed : (after bytes).state = .failed fault) :
    ¬ BeginsText bytes := by
  rintro ⟨text, tail, whole⟩
  obtain ⟨chars, reads, _⟩ := accepts_after.mpr whole
  rw [failed] at reads
  exact reads

theorem beginsText_of_within {read : Nat} {rest : Partial}
    (within : (after bytes).state = .within read rest) (opened : rest.Open) :
    BeginsText bytes := by
  obtain ⟨tail, n, ends⟩ := opened.exists_ends
  refine ⟨String.ofList ((after bytes).done.reverse ++ [Char.ofNat n]), tail, ?_⟩
  rw [append_of_within within ends, taken, encode_ofList, encode_ofList, List.flatMap_append,
    List.flatMap_singleton]

/-! ### One byte -/

/-- The bytes that have been read of a character part way through. -/
def pending : State → Nat
  | .within read _ => read
  | _ => 0

theorem feed_of_failed {d : Decoder} {fault : Fault} (failed : d.state = .failed fault)
    (b : UInt8) : d.feed b = d := by
  simp only [feed, failed]

/-- A byte completes a character, or is one more of its bytes, or is refused. -/
theorem feed_cases {d : Decoder} (unfailed : ∀ fault, d.state ≠ .failed fault) (b : UInt8) :
    (∃ c, d.feed b = ⟨c :: d.done, d.index + pending d.state + 1, .between⟩) ∨
    (∃ rest : Partial, rest.Open ∧
      d.feed b = { d with state := .within (pending d.state + 1) rest }) ∨
    ∃ length, d.feed b = { d with state := .failed (.invalid d.index length) } ∧
      (d.state = .between ∧ length = 1 ∨ ∃ rest, d.state = .within length rest) := by
  obtain ⟨done, index, state⟩ := d
  cases state with
  | between =>
    simp only [feed]
    split
    · exact .inl ⟨_, rfl⟩
    · split
      next rest begun => exact .inr (.inl ⟨rest, Partial.open_of_lead begun, rfl⟩)
      next => exact .inr (.inr ⟨1, rfl, .inl ⟨trivial, rfl⟩⟩)
  | within read rest =>
    simp only [feed]
    split
    · split
      · exact .inl ⟨_, rfl⟩
      · exact .inr (.inl ⟨_, Partial.open_next _ _, rfl⟩)
    · exact .inr (.inr ⟨read, rfl, .inr ⟨rest, rfl⟩⟩)
  | failed fault => exact absurd rfl (unfailed fault)

/-- Unless a byte completes a character, the characters stay as they are. -/
theorem feed_of_not_between {d : Decoder} {b : UInt8} (unfinished : (d.feed b).state ≠ .between) :
    (d.feed b).taken = d.taken ∧ (d.feed b).index = d.index := by
  by_cases failed : ∃ fault, d.state = .failed fault
  · obtain ⟨fault, failed⟩ := failed
    rw [feed_of_failed failed]
    exact ⟨rfl, rfl⟩
  · rcases feed_cases (not_exists.mp failed) b with ⟨c, next⟩ | ⟨rest, _, next⟩ | ⟨length, next, _⟩
    · rw [next] at unfinished
      exact absurd rfl unfinished
    all_goals
      rw [next]
      exact ⟨rfl, rfl⟩

/-! ### All bytes -/

/-- What the state of a decoder tells about the bytes that it has been fed. -/
def Tells (bytes : List UInt8) (index : Nat) : State → Prop
  | .between => index = bytes.length
  | .within read rest => index + read = bytes.length ∧ 0 < read ∧ rest.Open
  | .failed fault => ∃ length, fault = .invalid index length ∧ Stops bytes index length

theorem Tells.position {state : State} (tells : Tells bytes index state)
    (unfailed : ∀ fault, state ≠ .failed fault) : index + pending state = bytes.length := by
  cases state with
  | between => exact tells
  | within read rest => exact tells.1
  | failed fault => exact absurd rfl (unfailed fault)

/-- Behind the characters that are complete, the bytes stop where one is refused. -/
theorem stops_of_refused {b : UInt8}
    (tells : Tells bytes (after bytes).index (after bytes).state)
    (begun : (after bytes).state = .between ∧ length = 1 ∨
      ∃ rest, (after bytes).state = .within length rest)
    (broken : ¬ BeginsText (bytes ++ [b])) : Stops (bytes ++ [b]) (after bytes).index length := by
  have longer : (bytes ++ [b]).length = bytes.length + 1 := by simp
  rcases begun with ⟨between, rfl⟩ | ⟨rest, within⟩
  · have position : (after bytes).index = bytes.length := by rwa [between] at tells
    refine ⟨Nat.one_pos, by omega, .inl rfl, ?_⟩
    rwa [List.take_of_length_le (by omega)]
  · rw [within] at tells
    obtain ⟨position, positive, opened⟩ := tells
    refine ⟨positive, by omega, .inr ?_, ?_⟩
    · rw [position, List.take_left]
      exact beginsText_of_within within opened
    · rwa [List.take_of_length_le (by omega)]

/-- One more byte is told of by the next state. -/
theorem Tells.concat {b : UInt8}
    (tells : Tells bytes (after bytes).index (after bytes).state) :
    Tells (bytes ++ [b]) (after (bytes ++ [b])).index (after (bytes ++ [b])).state := by
  by_cases failed : ∃ fault, (after bytes).state = .failed fault
  · obtain ⟨fault, failed⟩ := failed
    rw [after_concat, feed_of_failed failed]
    rw [failed] at tells ⊢
    obtain ⟨length, cause, stops⟩ := tells
    exact ⟨length, cause, stops.append [b]⟩
  · have unfailed := not_exists.mp failed
    have position : (after bytes).index + pending (after bytes).state + 1 =
        (bytes ++ [b]).length := by
      rw [tells.position unfailed, List.length_append, List.length_singleton]
    rcases feed_cases unfailed b with ⟨c, next⟩ | ⟨rest, opened, next⟩ | ⟨length, next, begun⟩
    all_goals rw [← after_concat] at next
    · rw [next]
      exact position
    · rw [next]
      exact ⟨position, Nat.succ_pos _, opened⟩
    · rw [next]
      refine ⟨length, rfl, stops_of_refused tells begun ?_⟩
      exact not_beginsText_of_failed (congrArg state next)

/-- What a decoder knows of the bytes that it has been fed. -/
structure Tracks (bytes : List UInt8) (d : Decoder) : Prop where
  taken : d.taken <+: bytes
  index : d.taken.length = d.index
  longest : ∀ text, encode text <+: bytes → (encode text).length ≤ d.index
  state : Tells bytes d.index d.state

theorem tracks (bytes : List UInt8) : Tracks bytes (after bytes) := by
  induction bytes using List.reverseRecOn with
  | nil =>
    refine ⟨List.nil_prefix, rfl, fun text inside => ?_, rfl⟩
    rw [List.prefix_nil.mp inside]
    exact Nat.le_refl 0
  | append_singleton bytes b ih =>
    have state := Tells.concat (b := b) ih.state
    by_cases between : (after (bytes ++ [b])).state = .between
    · have taken := taken_of_between between
      have position : (after (bytes ++ [b])).index = (bytes ++ [b]).length := by
        rwa [between] at state
      refine ⟨?_, ?_, fun text inside => ?_, state⟩
      · exact ⟨[], by rw [List.append_nil, taken]⟩
      · rw [taken, position]
      · rw [position]
        exact inside.length_le
    · -- The characters stay as they are, and the bytes as a whole are no text.
      obtain ⟨taken, index⟩ : (after (bytes ++ [b])).taken = (after bytes).taken ∧
          (after (bytes ++ [b])).index = (after bytes).index := by
        rw [after_concat] at between ⊢
        exact feed_of_not_between between
      refine ⟨?_, ?_, ?_, state⟩
      · rw [taken]
        exact ih.taken.trans (List.prefix_append bytes [b])
      · rw [taken, index, ih.index]
      · intro text inside
        rw [index]
        rcases List.prefix_concat_iff.mp inside with whole | inside
        · exact absurd (between_iff.mpr ⟨text, whole.symm⟩) between
        · exact ih.longest text inside

/-- What has been taken and what follows it are all the bytes. -/
theorem taken_append_drop (bytes : List UInt8) :
    (after bytes).taken ++ bytes.drop (after bytes).index = bytes := by
  have inside := List.prefix_iff_eq_append.mp (tracks bytes).taken
  rwa [(tracks bytes).index] at inside

end Decoder

/-! ## Faults -/

theorem longest_after (bytes : List UInt8) : Longest bytes (Decoder.after bytes).index where
  valid := ⟨_, (Decoder.tracks bytes).taken, (Decoder.tracks bytes).index⟩
  longest := (Decoder.tracks bytes).longest

namespace Longest

variable (longest : Longest bytes index)

include longest

theorem index_after : (Decoder.after bytes).index = index := by
  obtain ⟨text, inside, rfl⟩ := longest.valid
  obtain ⟨other, taken, same⟩ := (longest_after bytes).valid
  refine Nat.le_antisymm ?_ ((longest_after bytes).longest text inside)
  rw [← same]
  exact longest.longest other taken

/-- What follows the longest text does not matter to it. -/
theorem take (count : Nat) : Longest (bytes.take (index + count)) index where
  valid := by
    obtain ⟨text, inside, rfl⟩ := longest.valid
    exact ⟨text, List.prefix_take_iff.mpr ⟨inside, Nat.le_add_right _ count⟩, rfl⟩
  longest text inside := longest.longest text (inside.trans (List.take_prefix _ bytes))

/-- Bytes begin a text where those behind the longest text begin a character. -/
theorem beginsText_iff : BeginsText bytes ↔ BeginsChar (bytes.drop index) := by
  have whole := Decoder.taken_append_drop bytes
  rw [longest.index_after] at whole
  constructor
  · intro begins
    have state := (Decoder.tracks bytes).state
    cases reached : (Decoder.after bytes).state with
    | between =>
      rw [Decoder.taken_of_between reached] at whole
      have rest : bytes.drop index = [] :=
        List.append_cancel_left (whole.trans (List.append_nil bytes).symm)
      exact ⟨'a', _, String.utf8EncodeChar_ne_nil, by rw [rest, List.nil_append]⟩
    | within read rest =>
      rw [reached] at state
      obtain ⟨tail, n, ends⟩ := state.2.2.exists_ends
      have completed : (Decoder.after bytes).taken ++ (bytes.drop index ++ tail) =
          (Decoder.after bytes).taken ++ String.utf8EncodeChar (Char.ofNat n) := by
        rw [← List.append_assoc, whole, Decoder.append_of_within reached ends]
      refine ⟨Char.ofNat n, tail, fun empty => ?_, (List.append_cancel_left completed).symm⟩
      rw [empty] at ends
      exact ends
    | failed fault => exact absurd begins (Decoder.not_beginsText_of_failed reached)
  · rintro ⟨c, tail, _, code⟩
    have completed : bytes ++ tail =
        (Decoder.after bytes).taken ++ String.utf8EncodeChar c := by
      rw [code, ← List.append_assoc, whole]
    refine ⟨String.ofList ((Decoder.after bytes).done.reverse ++ [c]), tail, ?_⟩
    rw [completed, Decoder.taken, encode_ofList, encode_ofList, List.flatMap_append,
      List.flatMap_singleton]

end Longest

/-- Bytes go wrong after `length` of them: a byte that begins no character, or bytes that do and
another one that they cannot go on with. -/
structure Halts (bytes : List UInt8) (length : Nat) : Prop where
  positive : 0 < length
  inside : length ≤ bytes.length
  begun : length = 1 ∨ BeginsChar (bytes.take length)
  broken : ¬ BeginsChar (bytes.take (length + 1))

/-- What a fault tells of the bytes. -/
def Breaks (bytes : List UInt8) : Fault → Prop
  | .invalid index length => Longest bytes index ∧ ¬ BeginsChar (bytes.drop index) ∧
      Halts (bytes.drop index) length
  | .incomplete index => Longest bytes index ∧ BeginsChar (bytes.drop index)

theorem Stops.halts (stops : Stops bytes index length) (longest : Longest bytes index) :
    Halts (bytes.drop index) length where
  positive := stops.positive
  inside := by
    rw [List.length_drop]
    exact Nat.le_sub_of_add_le' stops.inside
  begun := by
    have begun := stops.begun
    rwa [(longest.take length).beginsText_iff, ← List.take_drop] at begun
  broken := by
    have broken := stops.broken
    rwa [Nat.add_assoc, (longest.take (length + 1)).beginsText_iff, ← List.take_drop] at broken

/-- A fault tells how much of the bytes is text, and whether they end within a character. -/
theorem decode_eq_error {fault : Fault} (failed : decode bytes = .error fault) :
    Breaks bytes fault := by
  have longest := longest_after bytes
  have state := (Decoder.tracks bytes).state
  have result : (Decoder.after bytes).result = .error fault := failed
  unfold Decoder.result at result
  split at result
  case h_1 => cases result
  case h_2 read rest reached =>
    obtain rfl := Except.error.inj result
    rw [reached] at state
    exact ⟨longest, longest.beginsText_iff.mp (Decoder.beginsText_of_within reached state.2.2)⟩
  case h_3 cause reached =>
    obtain rfl := Except.error.inj result
    rw [reached] at state
    obtain ⟨length, rfl, stops⟩ := state
    have unbegun := Decoder.not_beginsText_of_failed reached
    exact ⟨longest, mt longest.beginsText_iff.mpr unbegun, stops.halts longest⟩

/-- A surrogate is no character, and a character can be cut short. -/
example : decode [0x5B, 0xED, 0xA0, 0x80] = .error (.invalid 1 1) ∧
    decode [0x5B, 0xE2, 0x82] = .error (.incomplete 1) := by decide

/-- Bytes that are not the encoding of any text are refused with a fault. -/
theorem exists_fault (garbled : ∀ text, bytes ≠ encode text) :
    ∃ fault, decode bytes = .error fault ∧ Breaks bytes fault := by
  cases decoded : decode bytes with
  | ok text => exact absurd (decode_eq_ok.mp decoded) (garbled text)
  | error fault => exact ⟨fault, rfl, decode_eq_error decoded⟩

end LatchSim.Text.Utf8
