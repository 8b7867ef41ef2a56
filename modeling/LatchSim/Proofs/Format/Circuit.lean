import LatchSim.Format.Circuit
import LatchSim.Proofs.Format.Expr

/-!
# Circuits read back

A circuit is read from every text that states it: the members of its objects in any order,
any blanks between tokens, and empty lists left out where that is allowed. The one thing
that can fail is the nesting: `Circuit.ofDocument_fits`.
-/

namespace LatchSim

open Json (Value Document Fits)

/-! ## Latches -/

namespace Latch

def written (l : Latch) : Field → Value
  | .input => .string l.input
  | .output => .string l.output

def content (l : Latch) : Field → String
  | .input => l.input
  | .output => l.output

theorem numberless_toValue (l : Latch) : l.toValue.Numberless := by
  have each (f : Field) : (l.written f).Numberless := by
    cases f <;> exact .string _
  exact .record layout.label each layout.fields

theorem labelled : layout.Labelled := by
  intro field
  cases field <;> rfl

theorem ofDocument_fits {l : Latch} {v : Value} (h : l.toValue.Rearranged v) :
    Fits True l (ofDocument v.document) := by
  have each (f : Field) (_ : f ∈ layout.fields) (w : Value) (h : (l.written f).Rearranged w) :
      Fits True (l.content f) (layout.decode f w.document) := by
    cases f <;> exact Document.text_fits h
  have read := Json.Layout.read_fits labelled (by decide) each h
  exact .of_iff (by simp) (read.bind (.pure l))

end Latch

/-! ## Updates -/

namespace Update

def written (u : Update) : Field → Value
  | .name => .string u.name
  | .expr => u.expr.toValue

def content (u : Update) : (f : Field) → f.Content
  | .name => u.name
  | .expr => u.expr

/-- The field leaves enough levels for an expression. -/
def Shallow (u : Update) (room : Nat) : Field → Prop
  | .name => True
  | .expr => u.expr.height ≤ room

theorem numberless_toValue (u : Update) : u.toValue.Numberless := by
  have each (f : Field) : (u.written f).Numberless := by
    cases f with
    | name => exact .string u.name
    | expr => exact u.expr.numberless_toValue
  exact .record (layout 0).label each (layout 0).fields

theorem labelled (room : Nat) : (layout room).Labelled := by
  intro field
  cases field <;> rfl

theorem ofDocument_fits {u : Update} {v : Value} (h : u.toValue.Rearranged v) (room : Nat) :
    Fits (u.expr.height ≤ room) u (ofDocument room v.document) := by
  have each (f : Field) (_ : f ∈ (layout room).fields) (w : Value)
      (h : (u.written f).Rearranged w) :
      Fits (u.Shallow room f) (u.content f) ((layout room).decode f w.document) := by
    cases f with
    | name => exact Document.text_fits h
    | expr => exact Expr.ofDocument_fits h room
  have read := Json.Layout.read_fits (labelled room) (by simp [layout]) each h
  exact .of_iff (by simp [layout, Shallow]) (read.bind (.pure u))

end Update

/-! ## Traces -/

namespace Trace

def written (t : Trace) : Field → Value
  | .signal => .string t.signal
  | .values => .list (t.values.map sampleValue)

def content (t : Trace) : (f : Field) → f.Content
  | .signal => t.signal
  | .values => t.values

theorem numberless_sampleValue (x : Option Bool) : (sampleValue x).Numberless := by
  cases x with
  | none => exact .null
  | some value => exact .bool value

theorem numberless_toValue (t : Trace) : t.toValue.Numberless := by
  have each (f : Field) : (t.written f).Numberless := by
    cases f with
    | signal => exact .string t.signal
    | values => exact .map numberless_sampleValue t.values
  exact .record layout.label each layout.fields

theorem labelled : layout.Labelled := by
  intro field
  cases field <;> rfl

theorem sample_fits {x : Option Bool} {v : Value} (h : (sampleValue x).Rearranged v) :
    Fits True x (Document.sample v.document) := by
  cases x <;> (cases h; exact .pure _)

theorem ofDocument_fits {t : Trace} {v : Value} (h : t.toValue.Rearranged v) :
    Fits True t (ofDocument v.document) := by
  have each (f : Field) (_ : f ∈ layout.fields) (w : Value) (h : (t.written f).Rearranged w) :
      Fits True (t.content f) (layout.decode f w.document) := by
    cases f with
    | signal => exact Document.text_fits h
    | values =>
      exact .of_iff (by simp) (Document.items_fits h fun _ _ _ h => sample_fits h)
  have read := Json.Layout.read_fits labelled (by decide) each h
  exact .of_iff (by simp) (read.bind (.pure t))

end Trace

/-! ## Circuits -/

namespace Circuit

/-- The value of a circuit in any order of the members of any object, and, where they are
empty, without the lists that may be left out. -/
def StatedBy (c : Circuit) (v : Value) : Prop :=
  ∃ members kept, c.toValue = .object members ∧
    Value.Trimmed ["latches", "updates", "siminputs"] members kept ∧
    (Value.object kept).Rearranged v

def written (c : Circuit) : Field → Value
  | .name => .string c.name
  | .inputs => .list (c.inputs.map .string)
  | .outputs => .list (c.outputs.map .string)
  | .latches => .list (c.latches.map Latch.toValue)
  | .updates => .list (c.updates.map Update.toValue)
  | .stimuli => .list (c.stimuli.map Trace.toValue)

def content (c : Circuit) : (f : Field) → layout.Content f
  | .name => c.name
  | .inputs => c.inputs
  | .outputs => c.outputs
  | .latches => c.latches
  | .updates => c.updates
  | .stimuli => c.stimuli

/-- The levels that are left for the expression of an update. -/
def exprLevels : Nat := Json.nestingLimit - levelsAroundExpr

/-- The field leaves enough levels for all expressions. -/
def Shallow (c : Circuit) : Field → Prop
  | .updates => ∀ u ∈ c.updates, u.expr.height ≤ exprLevels
  | _ => True

theorem labelled : layout.Labelled := by
  intro field
  cases field <;> rfl

theorem decode_fits {c : Circuit} (f : Field) {v : Value} (h : (c.written f).Rearranged v) :
    Fits (c.Shallow f) (c.content f) (layout.decode f v.document) := by
  cases f with
  | name => exact Document.text_fits h
  | inputs | outputs =>
    exact .of_iff (by simp [Shallow]) (Document.items_fits h fun _ _ _ h => Document.text_fits h)
  | latches =>
    exact .of_iff (by simp [Shallow]) (Document.items_fits h fun _ _ _ h => Latch.ofDocument_fits h)
  | updates => exact Document.items_fits h fun _ _ _ h => Update.ofDocument_fits h exprLevels
  | stimuli =>
    exact .of_iff (by simp [Shallow]) (Document.items_fits h fun _ _ _ h => Trace.ofDocument_fits h)

/-- These fields are enough to tell the circuit: those left out are empty lists. -/
structure Told (c : Circuit) (known : List Field) : Prop where
  distinct : known.Nodup
  name : .name ∈ known
  inputs : .inputs ∈ known
  outputs : .outputs ∈ known
  latches : .latches ∈ known ∨ c.latches = []
  updates : .updates ∈ known ∨ c.updates = []
  stimuli : .stimuli ∈ known ∨ c.stimuli = []

theorem StatedBy.told {c : Circuit} {v : Value} (stated : c.StatedBy v) :
    ∃ known, c.Told known ∧
      (Value.object (known.map fun f => (layout.label f, c.written f))).Rearranged v := by
  obtain ⟨members, kept, same, trimmed, rearranged⟩ := stated
  obtain rfl : layout.fields.map (fun f => (layout.label f, c.written f)) = members :=
    Value.object.inj same
  obtain ⟨known, sub, rfl, missing⟩ := trimmed.of_record
  have present (f : Field) : f ∈ known ∨
      f.label ∈ ["latches", "updates", "siminputs"] ∧ c.written f = .list [] :=
    missing f (by cases f <;> decide)
  refine ⟨known, ?_, rearranged⟩
  exact {
    distinct := sub.nodup (by decide)
    name := (present .name).resolve_right (by simp [Field.label])
    inputs := (present .inputs).resolve_right (by simp [Field.label])
    outputs := (present .outputs).resolve_right (by simp [Field.label])
    latches := (present .latches).imp_right fun left => by simpa [written] using left.2
    updates := (present .updates).imp_right fun left => by simpa [written] using left.2
    stimuli := (present .stimuli).imp_right fun left => by simpa [written] using left.2 }

theorem Told.shallow_iff {c : Circuit} {known : List Field} (told : c.Told known) :
    (∀ f ∈ known, c.Shallow f) ↔ ∀ u ∈ c.updates, u.expr.height ≤ exprLevels := by
  refine ⟨fun all => ?_, fun all f _ => ?_⟩
  · rcases told.updates with mem | empty
    · exact all .updates mem
    · simp [empty]
  · cases f with
    | updates => exact all
    | _ => trivial

theorem getD_ite {p : Prop} [Decidable p] {results : List α} (present : p ∨ results = []) :
    (if p then some results else none).getD [] = results := by
  rcases present with known | rfl
  · rw [if_pos known, Option.getD_some]
  · split <;> rfl

/-- A circuit that goes no deeper than the reader may is read from any value that states it. -/
theorem ofDocument_fits {c : Circuit} {v : Value} (stated : c.StatedBy v) :
    Fits (∀ u ∈ c.updates, u.expr.height ≤ exprLevels) c (ofDocument v.document) := by
  obtain ⟨known, told, rearranged⟩ := stated.told
  have read := Json.Layout.read_fits labelled told.distinct (fun f _ _ => decode_fits f) rearranged
  refine .of_iff ((iff_of_eq (and_true _)).trans told.shallow_iff)
    (read.bind (q := True) (b := c) ?_)
  rw [Json.Layout.get_filled told.name, Json.Layout.get_filled told.inputs,
    Json.Layout.get_filled told.outputs]
  -- A list that was left out reads as empty, and `Told` has it that it is.
  change Fits True c (.ok ⟨c.name, c.inputs, c.outputs,
    (if .latches ∈ known then some c.latches else none).getD [],
    (if .updates ∈ known then some c.updates else none).getD [],
    (if .stimuli ∈ known then some c.stimuli else none).getD []⟩)
  rw [getD_ite told.latches, getD_ite told.updates, getD_ite told.stimuli]
  exact .pure c

theorem numberless_toValue (c : Circuit) : c.toValue.Numberless := by
  have each (f : Field) : (c.written f).Numberless := by
    cases f with
    | name => exact .string c.name
    | inputs | outputs => exact .map .string _
    | latches => exact .map Latch.numberless_toValue c.latches
    | updates => exact .map Update.numberless_toValue c.updates
    | stimuli => exact .map Trace.numberless_toValue c.stimuli
  exact .record layout.label each layout.fields

theorem StatedBy.numberless {c : Circuit} {v : Value} (stated : c.StatedBy v) : v.Numberless := by
  obtain ⟨members, kept, same, trimmed, rearranged⟩ := stated
  have plain := c.numberless_toValue
  rw [same] at plain
  cases plain with | object _ each =>
  exact rearranged.numberless (.object kept fun m mem => each m (trimmed.sublist.subset mem))

theorem toValue_states (c : Circuit) : c.StatedBy c.toValue :=
  ⟨_, _, rfl, .all _, .same _⟩

theorem ofJson_toJson_fits (c : Circuit) :
    Fits (∀ u ∈ c.updates, u.expr.height ≤ exprLevels) c (ofJson c.toJson) := by
  have stated := c.toValue_states
  rw [ofJson, toJson, Document.read_text stated.numberless]
  exact ofDocument_fits stated

/-- A circuit is read back from its text unless an expression has too many levels. -/
theorem ofJson_toJson (c : Circuit) :
    ofJson c.toJson =
      (if ∀ u ∈ c.updates, u.expr.depth ≤ 124 then .ok c else .error .tooDeep) ∧
    Json.Fault.tooDeep.reason = "recursion limit exceeded" := by
  refine ⟨?_, rfl⟩
  simp only [Expr.depth_eq_height]
  exact c.ofJson_toJson_fits.eq_ite

/-- Only what a text says counts, and not how it is laid out: neither the order of members
nor blanks nor empty lists that may be left out. -/
theorem ofJson_spaced {c : Circuit} {v : Value} {text : String}
    (shallow : ∀ u ∈ c.updates, u.expr.depth ≤ 124) (stated : c.StatedBy v)
    (spaced : Json.Spaced v.tokens text.toList) : ofJson text = .ok c := by
  rw [ofJson, Document.read_spaced stated.numberless spaced]
  simp only [Expr.depth_eq_height] at shallow
  exact (ofDocument_fits stated).eq_ite.trans (if_pos shallow)

/-- A circuit without latches. -/
def gated : Circuit where
  name := "gated"
  inputs := ["a"]
  outputs := ["y"]
  latches := []
  updates := [⟨"y", .and (.not (.signal "a")) (.signal "a")⟩]
  stimuli := [⟨"a", [some true, none]⟩]

/-- The expression of `gated` with its members in reverse on all levels. -/
def gatedExpr : Value :=
  let signal := .object [("name", .string "a"), ("type", .string "signal")]
  let negated := .object [("operand", signal), ("type", .string "not")]
  .object [("right", signal), ("left", negated), ("type", .string "and")]

/-- The value of `gated` with all members in reverse, and without latches. -/
def gatedReversed : Value :=
  .object [
    ("siminputs",
      .list [.object [("values", .list [.bool true, .null]), ("signal", .string "a")]]),
    ("updates", .list [.object [("expr", gatedExpr), ("name", .string "y")]]),
    ("outputs", .list [.string "y"]),
    ("inputs", .list [.string "a"]),
    ("name", .string "gated")]

/-- Its text with a blank and a new line behind every token. -/
def gatedText : String :=
  String.ofList (gatedReversed.tokens.flatMap fun t => t.text ++ [' ', '\n'])

theorem gated_stated : gated.StatedBy gatedReversed := by
  have reversed {members moved : List (String × Value)}
      (each : List.Forall₂ (fun m n => m.1 = n.1 ∧ m.2.Rearranged n.2) members.reverse moved) :
      (Value.object members).Rearranged (.object moved) :=
    .object_of_forall₂ (List.reverse_perm members).symm each
  have signal : (Expr.signal "a").toValue.Rearranged
      (.object [("name", .string "a"), ("type", .string "signal")]) :=
    reversed (.cons ⟨rfl, .same _⟩ (.cons ⟨rfl, .same _⟩ .nil))
  have expr : (Expr.and (.not (.signal "a")) (.signal "a")).toValue.Rearranged gatedExpr :=
    have negated := reversed (.cons ⟨rfl, signal⟩ (.cons ⟨rfl, .same _⟩ .nil))
    reversed (.cons ⟨rfl, signal⟩ (.cons ⟨rfl, negated⟩ (.cons ⟨rfl, .same _⟩ .nil)))
  have update : (Update.mk "y" (.and (.not (.signal "a")) (.signal "a"))).toValue.Rearranged
      (.object [("expr", gatedExpr), ("name", .string "y")]) :=
    reversed (.cons ⟨rfl, expr⟩ (.cons ⟨rfl, .same _⟩ .nil))
  have trace : (Trace.mk "a" [some true, none]).toValue.Rearranged
      (.object [("values", .list [.bool true, .null]), ("signal", .string "a")]) :=
    reversed (.cons ⟨rfl, .same _⟩ (.cons ⟨rfl, .same _⟩ .nil))
  refine ⟨_, _, rfl, .keep _ (.keep _ (.keep _ (.leaveOut (by decide) rfl (.all _)))), ?_⟩
  exact reversed (.cons ⟨rfl, .list_of_forall₂ (.cons trace .nil)⟩
    (.cons ⟨rfl, .list_of_forall₂ (.cons update .nil)⟩
      (.cons ⟨rfl, .same _⟩ (.cons ⟨rfl, .same _⟩ (.cons ⟨rfl, .same _⟩ .nil)))))

theorem gated_ofJson :
    (∀ u ∈ gated.updates, u.expr.depth ≤ 124) ∧ gated.StatedBy gatedReversed ∧
    Json.Spaced gatedReversed.tokens gatedText.toList ∧ ofJson gatedText = .ok gated := by
  have shallow : ∀ u ∈ gated.updates, u.expr.depth ≤ 124 := by
    simp only [Expr.depth_eq_height]
    decide
  have spaced : Json.Spaced gatedReversed.tokens gatedText.toList := by
    rw [gatedText, String.toList_ofList]
    exact .spread (by simp [Json.isBlank]) _
  exact ⟨shallow, gated_stated, spaced, ofJson_spaced shallow gated_stated spaced⟩

end Circuit
end LatchSim
