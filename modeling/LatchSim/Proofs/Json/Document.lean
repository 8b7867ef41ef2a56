import LatchSim.Json.Document
import LatchSim.Proofs.Json.Scan
import LatchSim.Proofs.Json.Value

/-!
# Texts of values as documents

`Value.document` is the tree that the text of a value is meant to give. The tokens of a
value take a place to the one behind that tree, whatever is open around it:
`Place.feedAll_value`. So a text of those tokens with any blanks is read as the value says:
`Document.read_spaced`.
-/

namespace LatchSim.Json

mutual

/-- The document of a value that is written in full. -/
def Value.document : Value → Document
  | .null => .null
  | .bool value => .bool value
  | .number literal => .number literal
  | .string text => .string (.ok text)
  | .list items => .list (Value.documents items) none
  | .object members => .object (Value.memberDocuments members) none

def Value.documents : List Value → List Document
  | [] => []
  | v :: rest => v.document :: Value.documents rest

def Value.memberDocuments : List (String × Value) → List (Key × Document)
  | [] => []
  | (name, v) :: rest => (.ok name, v.document) :: Value.memberDocuments rest

end

theorem Value.documents_eq_map (items : List Value) : documents items = items.map document := by
  induction items with
  | nil => rfl
  | cons v rest ih => rw [documents, ih, List.map_cons]

theorem Value.memberDocuments_eq_map (members : List (String × Value)) :
    memberDocuments members = members.map fun m => (.ok m.1, m.2.document) := by
  induction members with
  | nil => rfl
  | cons m rest ih => rw [memberDocuments, ih, List.map_cons]

theorem Key.ofPieces_pieces (name : String) : Key.ofPieces (pieces name) = .ok name := by
  rw [Key.ofPieces, resolve_pieces]
  exact congrArg Except.ok String.ofList_toList

/-! ## Places -/

namespace Place

variable {outer : List Frame} {tail : List Token}

/-- From here on a value is read within the frames. -/
def Awaits (place : Place) (frames : List Frame) : Prop :=
  ∀ (v : Value) (tail : List Token),
    place.feedAll (v.tokensBefore tail) = (value frames).feedAll (v.tokensBefore tail)

theorem firstItem_awaits : (firstItem outer).Awaits (.list [] :: outer) := by
  intro v tail
  cases v <;> rfl

theorem nextItem_awaits : (nextItem before outer).Awaits (.list before :: outer) := by
  intro v tail
  cases v <;> rfl

/-- The tokens of a value lead behind its document. -/
def Passes (v : Value) : Prop :=
  ∀ (outer : List Frame) (tail : List Token),
    (value outer).feedAll (v.tokensBefore tail) = (behind v.document outer).feedAll tail

/-- The items of a list, the first of which is due, and the end of the list. The place is
behind the opening bracket or behind a comma; all that counts is that an item is due. -/
theorem feedAll_items {v : Value} {rest : List Value} (each : ∀ w ∈ v :: rest, Passes w)
    {place : Place} (awaits : place.Awaits (.list before :: outer)) :
    place.feedAll (Value.itemTokensBefore (.closeList :: tail) (v :: rest)) =
      (behind (.list (before.reverse ++ Value.documents (v :: rest)) none) outer).feedAll tail := by
  induction rest generalizing v before place with
  | nil =>
    rw [Value.itemTokensBefore, awaits, each v List.mem_cons_self]
    simp [behind, feedAll, feed, feed?, Value.documents]
  | cons w rest ih =>
    rw [List.forall_mem_cons] at each
    rw [Value.itemTokensBefore, awaits, each.1]
    · refine (ih each.2 nextItem_awaits).trans ?_
      simp [Value.documents]
    · simp

theorem feedAll_key (before : List (Key × Document)) (name : String) (tokens : List Token) :
    (nextKey before outer).feedAll (.string (pieces name) :: .colon :: tokens) =
      (value (.member before (.ok name) :: outer)).feedAll tokens := by
  simp [feedAll, feed, feed?, Key.ofPieces_pieces]

/-- The members of an object, the first key of which is due, and the end of the object. -/
theorem feedAll_members {m : String × Value} {rest : List (String × Value)}
    (each : ∀ n ∈ m :: rest, Passes n.2) (before : List (Key × Document)) :
    (nextKey before outer).feedAll (Value.memberTokensBefore (.closeObject :: tail) (m :: rest)) =
      (behind (.object (before.reverse ++ Value.memberDocuments (m :: rest)) none) outer).feedAll
        tail := by
  induction rest generalizing m before with
  | nil =>
    rw [Value.memberTokensBefore, feedAll_key, each m List.mem_cons_self]
    simp [behind, feedAll, feed, feed?, Value.memberDocuments]
  | cons n rest ih =>
    rw [List.forall_mem_cons] at each
    rw [Value.memberTokensBefore, feedAll_key, each.1]
    · refine (ih each.2 ((.ok m.1, m.2.document) :: before)).trans ?_
      simp [Value.memberDocuments]
    · simp

/-- The tokens of a value take any place where one is due to the place behind it. -/
theorem feedAll_value (v : Value) : Passes v := by
  intro outer tail
  induction v generalizing outer tail with
  | null | bool _ | number _ => rfl
  | string text =>
    simp [Value.tokensBefore, feedAll, feed, feed?, startValue?, Key.ofPieces_pieces,
      Value.document]
  | list items ih =>
    cases items with
    | nil => rfl
    | cons v rest => exact feedAll_items ih firstItem_awaits
  | object members ih =>
    cases members with
    | nil => rfl
    | cons m rest =>
      -- A key is read behind an opening brace just as it is behind a comma.
      have opened (tokens : List Token) :
          (value outer).feedAll (.openObject :: .string (pieces m.1) :: tokens) =
            (nextKey [] outer).feedAll (.string (pieces m.1) :: tokens) := rfl
      refine Eq.trans ?_ (feedAll_members ih [])
      cases rest <;> exact opened _

end Place

/-! ## Tokens of values -/

namespace Value

/-- The tokens of the value end by themselves. -/
def Closes (v : Value) : Prop :=
  ∀ tail : List Token, (∀ t ∈ tail, t.Closed) → ∀ t ∈ v.tokensBefore tail, t.Closed

theorem closed_items (each : ∀ v ∈ items, Closes v) {tail : List Token}
    (closed : ∀ t ∈ tail, t.Closed) : ∀ t ∈ itemTokensBefore tail items, t.Closed := by
  induction items with
  | nil => exact closed
  | cons v rest ih =>
    rw [List.forall_mem_cons] at each
    cases rest with
    | nil => exact each.1 tail closed
    | cons w rest => exact each.1 _ (List.forall_mem_cons.mpr ⟨.comma, ih each.2⟩)

theorem closed_members (each : ∀ m ∈ members, Closes m.2) {tail : List Token}
    (closed : ∀ t ∈ tail, t.Closed) : ∀ t ∈ memberTokensBefore tail members, t.Closed := by
  induction members with
  | nil => exact closed
  | cons m rest ih =>
    rw [List.forall_mem_cons] at each
    have opened {tokens : List Token} (closed : ∀ t ∈ tokens, t.Closed) :
        ∀ t ∈ .string (pieces m.1) :: .colon :: tokens, t.Closed :=
      List.forall_mem_cons.mpr ⟨.string m.1, List.forall_mem_cons.mpr ⟨.colon, closed⟩⟩
    cases rest with
    | nil => exact opened (each.1 tail closed)
    | cons n rest => exact opened (each.1 _ (List.forall_mem_cons.mpr ⟨.comma, ih each.2⟩))

theorem Numberless.closes (plain : v.Numberless) : Closes v := by
  intro tail closed
  induction plain generalizing tail with
  | null => exact List.forall_mem_cons.mpr ⟨.null, closed⟩
  | bool value => exact List.forall_mem_cons.mpr ⟨.bool value, closed⟩
  | string text => exact List.forall_mem_cons.mpr ⟨.string text, closed⟩
  | list items _ ih =>
    refine List.forall_mem_cons.mpr ⟨.openList, closed_items ih ?_⟩
    exact List.forall_mem_cons.mpr ⟨.closeList, closed⟩
  | object members _ ih =>
    refine List.forall_mem_cons.mpr ⟨.openObject, closed_members ih ?_⟩
    exact List.forall_mem_cons.mpr ⟨.closeObject, closed⟩

end Value

namespace Document

variable {v : Value}

/-- A text of the tokens of a value, and of nothing else but blanks, is its document. -/
theorem parse_spaced {text : List Char} (plain : v.Numberless) (spaced : Spaced v.tokens text) :
    parse text = (v.document, false) := by
  have closed := plain.closes [] fun _ mem => nomatch mem
  rw [parse, Token.scan_spaced spaced closed, Value.tokens, Place.feedAll_value]
  rfl

theorem read_spaced {text : String} (plain : v.Numberless)
    (spaced : Spaced v.tokens text.toList) (decode : Document → Except Fault α) :
    read decode text = decode v.document := by
  simp only [read, parse_spaced plain spaced]
  cases decode v.document <;> rfl

/-- The text that is written for a value has no blanks at all. -/
theorem read_text (plain : v.Numberless) (decode : Document → Except Fault α) :
    read decode v.text = decode v.document := by
  refine read_spaced plain ?_ decode
  rw [Value.text, String.toList_ofList]
  exact .joined v.tokens

end Document
end LatchSim.Json
