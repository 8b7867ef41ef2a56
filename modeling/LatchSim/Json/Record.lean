import LatchSim.Json.Document

/-!
# Records

A record is written as an object with a member for each field, or as a list of the fields'
values in order. Members may stand in any order and other members are passed over.
-/

namespace LatchSim.Json

/-- The fields of a kind of record, and how each is read. -/
structure Layout (Field : Type) where
  kind : String
  fields : List Field
  label : Field → String
  required : Field → Bool
  Content : Field → Type
  decode : (field : Field) → Document → Except Fault (Content field)

namespace Layout

variable {Field : Type} [DecidableEq Field]

/-- The fields read so far. -/
abbrev Draft (layout : Layout Field) : Type :=
  (field : Field) → Option (layout.Content field)

def blank (layout : Layout Field) : layout.Draft := fun _ => none

def Draft.set {layout : Layout Field} (draft : layout.Draft) (field : Field)
    (content : layout.Content field) : layout.Draft :=
  fun other => if same : field = other then some (same ▸ content) else draft other

@[simp] theorem Draft.set_same {layout : Layout Field} (draft : layout.Draft) (field : Field)
    (content : layout.Content field) : draft.set field content field = some content := by
  simp [Draft.set]

theorem Draft.set_other {layout : Layout Field} (draft : layout.Draft) {field other : Field}
    (content : layout.Content field) (different : field ≠ other) :
    draft.set field content other = draft other := by
  simp [Draft.set, different]

def Draft.get {layout : Layout Field} (draft : layout.Draft) (field : Field) :
    Except Fault (layout.Content field) :=
  match draft field with
  | some content => .ok content
  | none => .error (.missingField (layout.label field))

/-- The number of fields in words. -/
def size (layout : Layout Field) : String := toString layout.fields.length ++ " elements"

/-- Reads members in the order of the text. A field may occur once. -/
def readMembers (layout : Layout Field) (cut? : Option Cut) :
    List (Key × Document) → layout.Draft → Except Fault layout.Draft
  | [], draft =>
    match cut? with
    | none => .ok draft
    | some cut => .error cut.read
  | (key, item) :: rest, draft => do
    let name ← key
    match layout.fields.find? fun field => layout.label field == name with
    | none =>
      item.skim
      layout.readMembers cut? rest draft
    | some field =>
      if (draft field).isSome then throw (.duplicateField name)
      let content ← layout.decode field item
      layout.readMembers cut? rest (draft.set field content)

/-- Reads elements as the given fields, `count` of which have been read before. -/
def readElements (layout : Layout Field) (cut? : Option Cut) :
    (count : Nat) → List Field → List Document → layout.Draft → Except Fault layout.Draft
  | _, [], [], draft =>
    match cut? with
    | none => .ok draft
    | some cut => .error cut.surplus
  | _, [], _ :: _, _ => .error .trailingCharacters
  | count, field :: fields, item :: rest, draft => do
    let content ← layout.decode field item
    layout.readElements cut? (count + 1) fields rest (draft.set field content)
  | count, field :: fields, [], draft =>
    match cut? with
    | some cut => .error cut.read
    | none =>
      if layout.required field then
        .error (.wrongLength count ("struct " ++ layout.kind ++ " with " ++ layout.size))
      else layout.readElements none count fields [] draft

def read (layout : Layout Field) : Document → Except Fault layout.Draft
  | .object members cut? => layout.readMembers cut? members layout.blank
  | .list items cut? => layout.readElements cut? 0 layout.fields items layout.blank
  | other => .error (other.mistyped ("struct " ++ layout.kind))

end Layout
end LatchSim.Json
