import LatchSim.Session
import LatchSim.Proofs.Format.Circuit

/-!
# Exported results

Texts of values without numbers have no control characters, whatever the names in them:
`Json.Value.Numberless.visible`. So the text of the outputs can always be handed over, and it is
read back as the traces that it was written for: `Session.outputs_exported`.
-/

namespace LatchSim

namespace Json

/-- A character that is not one of the controls in front of the space. -/
def Visible (c : Char) : Prop := 0x20 ≤ c.toNat

instance : DecidablePred Visible := fun c => inferInstanceAs (Decidable (0x20 ≤ c.toNat))

theorem hexUnit_visible (value : Nat) : ∀ c ∈ hexUnit value, Visible c := by
  have digit (n : Nat) : Visible (Nat.digitChar (n % 16)) := by
    have each : ∀ d < 16, Visible (Nat.digitChar d) := by decide
    exact each _ (Nat.mod_lt n (by decide))
  simp [hexUnit, digit]

theorem escapeLetter_visible {c : Char} (escaped : c = '"' ∨ c = '\\' ∨ escapeLetter c ≠ c) :
    Visible (escapeLetter c) := by
  unfold escapeLetter at escaped ⊢
  repeat' split
  case isFalse =>
    -- No letter stands for the character, so it is a quote or a backslash.
    simp only [*, if_false, ne_eq, not_true, or_false] at escaped
    rcases escaped with rfl | rfl <;> decide
  all_goals decide

theorem pieceOf_visible (c : Char) : ∀ d ∈ (pieceOf c).text, Visible d := by
  have slash : Visible '\\' := by decide
  unfold pieceOf
  split
  next escaped => simp [Piece.text, slash, escapeLetter_visible escaped]
  next =>
    split
    next =>
      have u : Visible 'u' := by decide
      simpa [Piece.text, slash, u] using hexUnit_visible c.toNat
    next high => simpa [Piece.text, Visible] using high

/-- Tokens that are written for values are visible to the last character. -/
theorem Token.Closed.visible {t : Token} (closed : t.Closed) : ∀ c ∈ t.text, Visible c := by
  cases closed with
  | string s =>
    have quote : Visible '"' := by decide
    have inside : ∀ d ∈ (pieces s).flatMap Piece.text, Visible d := by
      intro d member
      obtain ⟨piece, written, member⟩ := List.mem_flatMap.mp member
      obtain ⟨c, _, rfl⟩ := List.mem_map.mp written
      exact pieceOf_visible c d member
    simp only [Token.text, List.cons_append, List.mem_cons, List.mem_append, List.not_mem_nil,
      or_false]
    rintro d (rfl | member | rfl)
    · exact quote
    · exact inside d member
    · exact quote
  | bool value => cases value <;> simp [Token.text, Visible]
  | _ => simp [Token.text, Visible]

theorem Value.Numberless.visible {v : Value} (plain : v.Numberless) :
    ∀ c ∈ v.text.toList, Visible c := by
  have closed := plain.closes [] fun _ member => nomatch member
  rw [Value.text, String.toList_ofList]
  intro c member
  obtain ⟨t, inside, member⟩ := List.mem_flatMap.mp member
  exact (closed t inside).visible c member

end Json

/-! ## Traces -/

/-- Reads a list of traces. -/
def Trace.listOfJson (text : String) : Except Json.Fault (List Trace) :=
  Json.Document.read (Json.Document.items Trace.ofDocument) text

theorem Trace.listOfJson_text (traces : List Trace) :
    listOfJson (Json.Value.list (traces.map toValue)).text = .ok traces := by
  have plain := Json.Value.Numberless.map numberless_toValue traces
  have fits : Json.Fits (∀ t ∈ traces, True) traces
      (Json.Document.items ofDocument (Json.Value.list (traces.map toValue)).document) :=
    Json.Document.items_fits (.same _) fun _ _ _ => ofDocument_fits
  rw [listOfJson, Json.Document.read_text plain, fits.eq_ite, if_pos fun _ _ => trivial]

/-! ## Outputs -/

namespace Simulator

/-- What it means that the outputs of a simulator are exported, and nothing is lost. -/
structure Exports (sim : Simulator) : Prop where
  ready : (∃ text, sim.outputsJson = .ok text) ↔ sim.phase = .terminated
  unready : ∀ fault, sim.outputsJson = .error fault ↔
    sim.phase ≠ .terminated ∧ fault = .invalidTransition .exportOutputs sim.phase
  visible : ∀ text, sim.outputsJson = .ok text → ∀ c ∈ text.toList, 0x20 ≤ c.toNat
  lossless : ∀ text, sim.outputsJson = .ok text → ∃ traces, sim.outputs? = some traces ∧
    Trace.listOfJson text = .ok traces
  distinct : ∀ (other : Simulator) text, sim.outputsJson = .ok text →
    other.outputsJson = .ok text → other.outputs? = sim.outputs?

theorem outputsJson_eq_ok {sim : Simulator} {text : String} :
    sim.outputsJson = .ok text ↔ ∃ traces, sim.outputs? = some traces ∧
      (Json.Value.list (traces.map Trace.toValue)).text = text := by
  cases outputs : sim.outputs? <;> simp [outputsJson, outputs]

theorem outputsJson_eq_error {sim : Simulator} {fault : Fault} :
    sim.outputsJson = .error fault ↔
      sim.phase ≠ .terminated ∧ fault = .invalidTransition .exportOutputs sim.phase := by
  by_cases terminated : sim.phase = .terminated <;>
    simp [outputsJson, outputs?, terminated, eq_comm]

theorem exports (sim : Simulator) : sim.Exports where
  ready := by
    by_cases terminated : sim.phase = .terminated <;> simp [outputsJson, outputs?, terminated]
  unready _ := outputsJson_eq_error
  visible text ok := by
    obtain ⟨traces, _, rfl⟩ := outputsJson_eq_ok.mp ok
    exact (Json.Value.Numberless.map Trace.numberless_toValue traces).visible
  lossless text ok := by
    obtain ⟨traces, outputs, rfl⟩ := outputsJson_eq_ok.mp ok
    exact ⟨traces, outputs, Trace.listOfJson_text traces⟩
  distinct other text ok same := by
    obtain ⟨traces, outputs, rfl⟩ := outputsJson_eq_ok.mp ok
    obtain ⟨others, othersOutputs, written⟩ := outputsJson_eq_ok.mp same
    have read := Trace.listOfJson_text others
    rw [written, Trace.listOfJson_text] at read
    rw [outputs, othersOutputs, Except.ok.inj read]

end Simulator

namespace Session

theorem handOver?_of_visible {text : String} (visible : ∀ c ∈ text.toList, Json.Visible c) :
    handOver? text = some text := by
  have zeroless : '\x00' ∉ text.toList := fun member => absurd (visible _ member) (by decide)
  simp [handOver?, zeroless]

/-- Nothing in a text of outputs keeps it from being handed over. -/
theorem outputsJson?_eq (sim : Simulator) :
    outputsJson? ⟨some sim⟩ = sim.outputsJson.toOption := by
  cases exported : sim.outputsJson with
  | error fault => simp [outputsJson?, exported, Except.toOption]
  | ok text =>
    have handed := handOver?_of_visible (sim.exports.visible text exported)
    simpa [outputsJson?, exported, Except.toOption] using handed

/-- Outputs are exported without loss as soon as a simulation has terminated, and a session
then always has their text to hand over. -/
theorem outputs_exported (session : Session) :
    (∀ sim : Simulator, sim.Exports) ∧
    (session.outputsJson? = none ↔ session.simulator? = none ∨
      ∃ sim, session.simulator? = some sim ∧ sim.phase ≠ .terminated) ∧
    ∀ text, session.outputsJson? = some text ↔
      ∃ sim, session.simulator? = some sim ∧ sim.outputsJson = .ok text := by
  refine ⟨Simulator.exports, ?_⟩
  obtain ⟨simulator?⟩ := session
  cases simulator? with
  | none => simp [outputsJson?]
  | some sim =>
    rw [outputsJson?_eq]
    cases exported : sim.outputsJson with
    | error fault =>
      have unterminated := (sim.exports.unready fault).mp exported
      simp [Except.toOption, exported, unterminated.1]
    | ok text =>
      have terminated := sim.exports.ready.mp ⟨text, exported⟩
      simp [Except.toOption, exported, terminated]

end Session

end LatchSim
