import LatchSim.Circuit
import LatchSim.Format.Expr
import LatchSim.Json.Record

/-!
# Circuits in JSON

The layouts of latches, updates, traces and circuits, and the values that write them.
Latches, updates and stimuli may be left out of a circuit where there are none.
-/

namespace LatchSim

inductive Latch.Field where
  | input
  | output
  deriving DecidableEq

def Latch.layout : Json.Layout Latch.Field where
  kind := "Latch"
  fields := [.input, .output]
  label
    | .input => "input"
    | .output => "output"
  required _ := true
  Content _ := String
  decode _ := Json.Document.text

def Latch.ofDocument (doc : Json.Document) : Except Json.Fault Latch := do
  let draft ← layout.read doc
  return ⟨← draft.get .input, ← draft.get .output⟩

def Latch.toValue (l : Latch) : Json.Value :=
  .object [("input", .string l.input), ("output", .string l.output)]

inductive Update.Field where
  | name
  | expr
  deriving DecidableEq

def Update.Field.Content : Update.Field → Type
  | name => String
  | expr => Expr

/-- An update whose expression may open `room` levels of containers. -/
def Update.layout (room : Nat) : Json.Layout Update.Field where
  kind := "Update"
  fields := [.name, .expr]
  label
    | .name => "name"
    | .expr => "expr"
  required _ := true
  Content := Update.Field.Content
  decode
    | .name => Json.Document.text
    | .expr => Expr.ofDocument room

def Update.ofDocument (room : Nat) (doc : Json.Document) : Except Json.Fault Update := do
  let draft ← (layout room).read doc
  return ⟨← draft.get .name, ← draft.get .expr⟩

def Update.toValue (u : Update) : Json.Value :=
  .object [("name", .string u.name), ("expr", u.expr.toValue)]

inductive Trace.Field where
  | signal
  | values
  deriving DecidableEq

def Trace.Field.Content : Trace.Field → Type
  | signal => String
  | values => List (Option Bool)

def Trace.layout : Json.Layout Trace.Field where
  kind := "Trace"
  fields := [.signal, .values]
  label
    | .signal => "signal"
    | .values => "values"
  required _ := true
  Content := Trace.Field.Content
  decode
    | .signal => Json.Document.text
    | .values => Json.Document.items Json.Document.sample

def Trace.ofDocument (doc : Json.Document) : Except Json.Fault Trace := do
  let draft ← layout.read doc
  return ⟨← draft.get .signal, ← draft.get .values⟩

def Trace.sampleValue : Option Bool → Json.Value
  | some value => .bool value
  | none => .null

def Trace.toValue (t : Trace) : Json.Value :=
  .object [("signal", .string t.signal), ("values", .list (t.values.map sampleValue))]

def Trace.ofJson (text : String) : Except Json.Fault Trace :=
  Json.Document.read Trace.ofDocument text

def Trace.toJson (t : Trace) : String := t.toValue.text

namespace Circuit

inductive Field where
  | name
  | inputs
  | outputs
  | latches
  | updates
  | stimuli
  deriving DecidableEq

def Field.Content : Field → Type
  | name => String
  | inputs | outputs => List String
  | latches => List Latch
  | updates => List Update
  | stimuli => List Trace

def Field.label : Field → String
  | name => "name"
  | inputs => "inputs"
  | outputs => "outputs"
  | latches => "latches"
  | updates => "updates"
  | stimuli => "siminputs"

/-- The containers open around the expression of an update: the circuit, the list of
updates, and the update. -/
def levelsAroundExpr : Nat := 3

def layout : Json.Layout Field where
  kind := "Circuit"
  fields := [.name, .inputs, .outputs, .latches, .updates, .stimuli]
  label := Field.label
  required
    | .name | .inputs | .outputs => true
    | .latches | .updates | .stimuli => false
  Content := Field.Content
  decode
    | .name => Json.Document.text
    | .inputs | .outputs => Json.Document.items Json.Document.text
    | .latches => Json.Document.items Latch.ofDocument
    | .updates =>
      Json.Document.items (Update.ofDocument (Json.nestingLimit - levelsAroundExpr))
    | .stimuli => Json.Document.items Trace.ofDocument

def ofDocument (doc : Json.Document) : Except Json.Fault Circuit := do
  let draft ← layout.read doc
  let name ← draft.get .name
  let inputs ← draft.get .inputs
  let outputs ← draft.get .outputs
  let latches : List Latch := (draft .latches).getD []
  let updates : List Update := (draft .updates).getD []
  let stimuli : List Trace := (draft .stimuli).getD []
  return ⟨name, inputs, outputs, latches, updates, stimuli⟩

def toValue (c : Circuit) : Json.Value :=
  .object [
    (Field.label .name, .string c.name),
    (Field.label .inputs, .list (c.inputs.map .string)),
    (Field.label .outputs, .list (c.outputs.map .string)),
    (Field.label .latches, .list (c.latches.map Latch.toValue)),
    (Field.label .updates, .list (c.updates.map Update.toValue)),
    (Field.label .stimuli, .list (c.stimuli.map Trace.toValue))]

def ofJson (text : String) : Except Json.Fault Circuit :=
  Json.Document.read ofDocument text

def toJson (c : Circuit) : String := c.toValue.text

end Circuit
end LatchSim
