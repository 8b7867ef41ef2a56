import LatchSim.Format.Circuit
import LatchSim.Proofs.Json.Extent

/-!
# One text, one circuit

A circuit takes up its text to the end: `Circuit.ofJson_append`. Blanks may follow, but any
other longer text is refused, and so is the text cut short.
-/

namespace LatchSim.Circuit

/-- A circuit is read from a complete container only. -/
theorem ofDocument_closed (doc : Json.Document) (c : Circuit) (read : ofDocument doc = .ok c) :
    doc.Closed := by
  obtain ⟨draft, record, -⟩ := bind_eq_ok_iff.mp read
  exact Json.Layout.read_closed record

theorem isBlank_iff {ch : Char} : Json.isBlank ch ↔ ch ∈ [' ', '\t', '\n', '\r'] := by
  simp [Json.isBlank, or_assoc]

/-- A text that has been read as a circuit is read as the same circuit with blanks behind it,
and refused with anything else behind it. It is also refused when it is cut short before its
last character that is not blank, so no text is read as part of another circuit. -/
theorem ofJson_append {text : String} {c : Circuit} (accepted : ofJson text = .ok c) :
    (∀ more : String,
      ((∀ ch ∈ more.toList, ch ∈ [' ', '\t', '\n', '\r']) → ofJson (text ++ more) = .ok c) ∧
      ((∃ ch ∈ more.toList, ch ∉ [' ', '\t', '\n', '\r']) →
        ofJson (text ++ more) = .error .trailingCharacters)) ∧
    (Json.Fault.trailingCharacters.reason = "trailing characters") ∧
    ∀ before after : String, text = before ++ after →
      (∃ ch ∈ after.toList, ch ∉ [' ', '\t', '\n', '\r']) →
      ∃ fault, ofJson before = .error fault := by
  simp only [← isBlank_iff]
  refine ⟨fun more => ?_, rfl, fun before after whole unblank => ?_⟩
  · rw [ofJson, Json.Document.read_append ofDocument_closed accepted]
    refine ⟨fun blank => if_pos (List.all_eq_true.mpr blank), fun ⟨ch, member, unblank⟩ => ?_⟩
    exact if_neg fun blank => unblank (List.all_eq_true.mp blank ch member)
  · subst whole
    exact Json.Document.read_cut ofDocument_closed accepted unblank

/-- A circuit with one update. -/
def negation : Circuit where
  name := "negation"
  inputs := ["a"]
  outputs := ["y"]
  latches := []
  updates := [⟨"y", .not (.signal "a")⟩]
  stimuli := []

/-- Its text, with all records written as lists, up to the expression, and from there on. -/
def negationHead : String := "[\"negation\", [\"a\"], [\"y\"], [], [[\"y\", "

def negationTail : String := "[\"not\", [\"signal\", \"a\"]]]]] "

theorem negation_ofJson :
    ofJson (negationHead ++ negationTail) = .ok negation ∧
    ofJson (negationHead ++ negationTail ++ "\n") = .ok negation ∧
    ofJson (negationHead ++ negationTail ++ "\n, []") = .error .trailingCharacters ∧
    ∃ fault, ofJson negationHead = .error fault := by
  have accepted : ofJson (negationHead ++ negationTail) = .ok negation := by cbv
  obtain ⟨longer, -, shorter⟩ := ofJson_append accepted
  refine ⟨accepted, ?_, ?_, ?_⟩
  · exact (longer "\n").1 (by simp)
  · exact (longer "\n, []").2 ⟨',', by simp, by simp⟩
  · exact shorter negationHead negationTail rfl ⟨'[', by decide, by decide⟩

end LatchSim.Circuit
