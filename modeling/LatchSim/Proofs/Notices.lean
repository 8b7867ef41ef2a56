import LatchSim.Proofs.Session
import LatchSim.Proofs.Text.Break

/-!
# What callers are told of faults

A session opens on the text of a circuit. On other bytes it does not, and a caller who listens
is told why: `Opens`. A call that fails tells the words of its fault: `Reports`. What is told
holds no zero character, whatever names it shows.
-/

namespace LatchSim.Session

variable {listening : Bool} {bytes : Bytes} {α : Type}

/-- A text that says what a message says, with spaces for zero characters. -/
structure Conveys (text message : String) : Prop where
  blanked : text.toList = message.toList.map fun c => if c = '\x00' then ' ' else c
  zeroless : '\x00' ∉ text.toList

/-- Who listens gets the message, and nobody else gets anything. -/
def Notifies (listening : Bool) (message : String) (told? : Option String) : Prop :=
  if listening then ∃ text, told? = some text ∧ Conveys text message else told? = none

/-- What is told of bytes that are no text: how far they are, and how they go on. -/
structure Garbles (bytes : Bytes) (index : Nat) (report : String) : Prop where
  longest : Text.Utf8.Longest bytes index
  incomplete : Text.Utf8.BeginsChar (bytes.drop index) →
    report = "incomplete utf-8 byte sequence from index " ++ toString index
  invalid : ¬ Text.Utf8.BeginsChar (bytes.drop index) → ∃ length,
    Text.Utf8.Halts (bytes.drop index) length ∧ report =
      "invalid utf-8 sequence of " ++ toString length ++ " bytes from index " ++ toString index

/-- What comes of opening a session on some bytes. -/
structure Opens (listening : Bool) (bytes : Bytes) : Prop where
  opened : ∀ text c, bytes = Text.Utf8.encode text →
    (create listening (some bytes) = (ofCircuit c, none) ↔ Circuit.ofJson text = .ok c)
  refused : ∀ text fault, bytes = Text.Utf8.encode text → Circuit.ofJson text = .error fault →
    (create listening (some bytes)).1 = ⟨none⟩ ∧
      Notifies listening fault.message (create listening (some bytes)).2
  garbled : (∀ text, bytes ≠ Text.Utf8.encode text) → ∃ index report,
    Garbles bytes index report ∧ create listening (some bytes) =
      (⟨none⟩, if listening then some ("Invalid UTF-8 in JSON: " ++ report) else none)

theorem notice?_notifies (listening : Bool) (message : String) :
    Notifies listening message (notice? listening message) := by
  cases listening with
  | false => rfl
  | true =>
    refine ⟨_, rfl, String.toList_map, fun zero => ?_⟩
    rw [String.toList_map] at zero
    obtain ⟨c, _, blank⟩ := List.mem_map.mp zero
    split at blank
    next => cases blank
    next nonzero => exact nonzero blank

/-- A message without zero characters is handed over as it is. -/
theorem notice?_of_zeroless {message : String} (zeroless : '\x00' ∉ message.toList) :
    notice? listening message = if listening then some message else none := by
  have same : (message.map fun c => if c = '\x00' then ' ' else c) = message := by
    rw [← String.toList_inj, String.toList_map]
    refine (List.map_congr_left fun c member => if_neg ?_).trans (List.map_id _)
    rintro rfl
    exact zeroless member
  rw [notice?, same]

theorem zero_not_mem_toString (n : Nat) : '\x00' ∉ (toString n).toList := by
  intro zero
  rw [Nat.toString_eq_repr, Nat.toList_repr] at zero
  have digit := Nat.isDigit_of_mem_toDigits (by decide) (Nat.le_refl 10) zero
  cases digit

theorem zero_not_mem_append {front back : String} (first : '\x00' ∉ front.toList)
    (second : '\x00' ∉ back.toList) : '\x00' ∉ (front ++ back).toList := by
  rw [String.toList_append]
  exact List.not_mem_append first second

theorem zero_not_mem_message (fault : Text.Utf8.Fault) : '\x00' ∉ fault.message.toList := by
  have number := zero_not_mem_toString
  cases fault with
  | invalid index length =>
    exact zero_not_mem_append (zero_not_mem_append (zero_not_mem_append (by decide)
      (number length)) (by decide)) (number index)
  | incomplete index => exact zero_not_mem_append (by decide) (number index)

/-! ## Sessions -/

theorem create_of_text {text : String} (whole : bytes = Text.Utf8.encode text) :
    create listening (some bytes) = match Circuit.ofJson text with
      | .error fault => (⟨none⟩, notice? listening fault.message)
      | .ok c => (ofCircuit c, none) := by
  rw [create, Text.Utf8.decode_eq_ok.mpr whole]
  rfl

theorem create_of_garbled (garbled : ∀ text, bytes ≠ Text.Utf8.encode text) :
    ∃ index report, Garbles bytes index report ∧ create listening (some bytes) =
      (⟨none⟩, if listening then some ("Invalid UTF-8 in JSON: " ++ report) else none) := by
  obtain ⟨fault, failed, breaks⟩ := Text.Utf8.exists_fault garbled
  have told : create listening (some bytes) = (⟨none⟩,
      if listening then some ("Invalid UTF-8 in JSON: " ++ fault.message) else none) := by
    rw [create, failed]
    simp only
    rw [notice?_of_zeroless (zero_not_mem_append (by decide) (zero_not_mem_message fault))]
  cases fault with
  | invalid index length =>
    obtain ⟨longest, unbegun, halts⟩ := breaks
    exact ⟨index, _, ⟨longest, fun begun => absurd begun unbegun, fun _ => ⟨length, halts, rfl⟩⟩,
      told⟩
  | incomplete index =>
    obtain ⟨longest, begun⟩ := breaks
    exact ⟨index, _, ⟨longest, fun _ => rfl, fun unbegun => absurd begun unbegun⟩, told⟩

theorem opens (listening : Bool) (bytes : Bytes) : Opens listening bytes where
  opened text c whole := by
    rw [create_of_text whole]
    cases told : Circuit.ofJson text with
    | error fault => simp [ofCircuit]
    | ok d => simp [ofCircuit_inj]
  refused text fault whole told := by
    rw [create_of_text whole, told]
    exact ⟨rfl, notice?_notifies listening fault.message⟩
  garbled := create_of_garbled

end LatchSim.Session
