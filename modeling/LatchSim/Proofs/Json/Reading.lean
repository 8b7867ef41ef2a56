import LatchSim.Json.Record
import LatchSim.Proofs.Json.Document

/-!
# Reading what has been written

A reader of documents `Fits` a result if nothing but the depth of the document can keep it
from giving that result. Such readers go together to readers of lists and of records,
whatever the order of the members: `Document.elements_fits`, `Layout.read_fits`.
-/

namespace LatchSim.Json

/-- The answers of a reader that gives `result` unless it has to go too deep. -/
inductive Fits (shallow : Prop) (result : α) : Except Fault α → Prop
  | ok : shallow → Fits shallow result (.ok result)
  | deep : ¬ shallow → Fits shallow result (.error .tooDeep)

namespace Fits

variable {p q : Prop} {a : α} {b : β} {answer : Except Fault α}

theorem pure (a : α) : Fits True a (.ok a) := .ok trivial

theorem of_iff (h : p ↔ q) (fits : Fits p a answer) : Fits q a answer := by
  rwa [← h]

theorem bind {next : α → Except Fault β} (first : Fits p a answer) (second : Fits q b (next a)) :
    Fits (p ∧ q) b (answer >>= next) := by
  cases first with
  | deep tooDeep => exact .deep fun both => tooDeep both.1
  | ok shallow => exact second.of_iff (and_iff_right shallow).symm

theorem map {f : α → β} (fits : Fits p a answer) : Fits p (f a) (f <$> answer) := by
  cases fits with
  | deep tooDeep => exact .deep tooDeep
  | ok shallow => exact .ok shallow

theorem eq_ite [Decidable p] (fits : Fits p a answer) :
    answer = if p then .ok a else .error .tooDeep := by
  cases fits with
  | deep tooDeep => rw [if_neg tooDeep]
  | ok shallow => rw [if_pos shallow]

end Fits

namespace Document

variable {room : Nat}

theorem values_fits {items : List Value}
    (each : ∀ v ∈ items, Fits (v.depth ≤ room) v (v.document.value room)) :
    Fits (Value.depthOfItems items ≤ room) items (values room none (Value.documents items)) := by
  induction items with
  | nil => exact .ok (Nat.zero_le room)
  | cons v rest ih =>
    rw [List.forall_mem_cons] at each
    refine .of_iff ?_ (each.1.bind ((ih each.2).bind (.pure _)))
    rw [Value.depthOfItems, Nat.max_le, and_true]

theorem memberValues_fits {members : List (String × Value)}
    (each : ∀ m ∈ members, Fits (m.2.depth ≤ room) m.2 (m.2.document.value room)) :
    Fits (Value.depthOfMembers members ≤ room) members
      (memberValues room none (Value.memberDocuments members)) := by
  induction members with
  | nil => exact .ok (Nat.zero_le room)
  | cons m rest ih =>
    rw [List.forall_mem_cons] at each
    refine .of_iff ?_ (each.1.bind ((ih each.2).bind (.pure _)))
    rw [Value.depthOfMembers, Nat.max_le, and_true]

/-- Every level of containers takes up one level of the room. -/
theorem value_fits {v : Value} (plain : v.Numberless) (room : Nat) :
    Fits (v.depth ≤ room) v (v.document.value room) := by
  induction plain generalizing room with
  | null | bool _ | string _ => exact .ok (Nat.zero_le room)
  | list items _ ih =>
    cases room with
    | zero => exact .deep (by simp [Value.depth])
    | succ room =>
      exact (values_fits fun v mem => ih v mem room).map.of_iff Nat.succ_le_succ_iff.symm
  | object members _ ih =>
    cases room with
    | zero => exact .deep (by simp [Value.depth])
    | succ room =>
      exact (memberValues_fits fun m mem => ih m mem room).map.of_iff Nat.succ_le_succ_iff.symm

theorem text_fits {s : String} {v : Value} (h : (Value.string s).Rearranged v) :
    Fits True s (text v.document) := by
  cases h
  exact .pure s

theorem elements_fits {decode : Document → Except Fault α} {shallow : α → Prop} {results : List α}
    {docs : List Document}
    (each : List.Forall₂ (fun a doc => Fits (shallow a) a (decode doc)) results docs) :
    Fits (∀ a ∈ results, shallow a) results (elements decode none docs) := by
  induction each with
  | nil => exact .ok fun _ mem => nomatch mem
  | cons first _ ih =>
    refine .of_iff ?_ (first.bind (ih.bind (.pure _)))
    rw [List.forall_mem_cons, and_true]

/-- A list of what `write` gives, up to the order of members. -/
theorem items_fits {decode : Document → Except Fault α} {shallow : α → Prop} {write : α → Value}
    {results : List α} {v : Value} (h : (Value.list (results.map write)).Rearranged v)
    (each : ∀ a ∈ results, ∀ w, (write a).Rearranged w → Fits (shallow a) a (decode w.document)) :
    Fits (∀ a ∈ results, shallow a) results (items decode v.document) := by
  obtain ⟨moved, rfl, pairs⟩ := h.of_list
  rw [List.forall₂_map_left_iff] at pairs
  refine elements_fits ?_
  rw [Value.documents_eq_map, List.forall₂_map_right_iff]
  rw [List.forall₂_iff_zip] at pairs ⊢
  exact ⟨pairs.1, fun mem => each _ (List.of_mem_zip mem).1 _ (pairs.2 mem)⟩

end Document

namespace Layout

variable {Field : Type} [DecidableEq Field] {layout : Layout Field}

/-- Every field is found by its label. -/
def Labelled (layout : Layout Field) : Prop :=
  ∀ field, (layout.fields.find? fun other => layout.label other == layout.label field) = some field

/-- The draft in which these fields are known. -/
def filled (layout : Layout Field) (known : List Field)
    (content : (field : Field) → layout.Content field) (before : layout.Draft) : layout.Draft :=
  fun field => if field ∈ known then some (content field) else before field

theorem filled_cons {field : Field} {rest : List Field} (new : field ∉ rest)
    (content : (field : Field) → layout.Content field) (before : layout.Draft) :
    layout.filled rest content (before.set field (content field)) =
      layout.filled (field :: rest) content before := by
  funext other
  by_cases same : other = field
  · subst same
    simp [filled, new]
  · simp [filled, same, Draft.set_other before (content field) (Ne.symm same)]

theorem readMembers_cons (labelled : layout.Labelled) {draft : layout.Draft} {field : Field}
    (free : draft field = none) (item : Document) (rest : List (Key × Document)) :
    layout.readMembers none ((.ok (layout.label field), item) :: rest) draft =
      layout.decode field item >>= fun content =>
        layout.readMembers none rest (draft.set field content) := by
  have found := labelled field
  simp only [readMembers, bind, Except.bind, found, free]
  rfl

/-- Members in any order, each for a field of its own that is still free. -/
theorem readMembers_fits (labelled : layout.Labelled) {shallow : Field → Prop}
    {content : (field : Field) → layout.Content field} {fields : List Field}
    {members : List (Key × Document)} (distinct : fields.Nodup)
    (each : List.Forall₂ (fun f m => m.1 = .ok (layout.label f) ∧
      Fits (shallow f) (content f) (layout.decode f m.2)) fields members)
    {draft : layout.Draft} (free : ∀ f ∈ fields, draft f = none) :
    Fits (∀ f ∈ fields, shallow f) (layout.filled fields content draft)
      (layout.readMembers none members draft) := by
  induction each generalizing draft with
  | nil =>
    have unchanged : layout.filled [] content draft = draft := by
      funext field
      simp [filled]
    rw [unchanged]
    exact .ok fun _ mem => nomatch mem
  | @cons field m fields members first _ ih =>
    obtain ⟨key, item⟩ := m
    obtain ⟨rfl, read⟩ := first
    rw [List.nodup_cons] at distinct
    rw [List.forall_mem_cons] at free
    -- The field just read is taken, but it does not come up again.
    have stillFree (f : Field) (mem : f ∈ fields) :
        draft.set field (content field) f = none := by
      have apart : field ≠ f := fun same => distinct.1 (same ▸ mem)
      rw [Draft.set_other draft _ apart, free.2 f mem]
    have rest := ih distinct.2 stillFree
    rw [filled_cons distinct.1] at rest
    rw [readMembers_cons labelled free.1]
    exact .of_iff List.forall_mem_cons.symm (read.bind rest)

theorem get_filled {content : (field : Field) → layout.Content field} {known : List Field}
    {field : Field} (mem : field ∈ known) (before : layout.Draft) :
    (layout.filled known content before).get field = .ok (content field) := by
  simp only [Draft.get, filled, if_pos mem]

/-- A record of what has been written for each known field, in any order. -/
theorem read_fits (labelled : layout.Labelled) {shallow : Field → Prop}
    {content : (field : Field) → layout.Content field} {written : Field → Value}
    {known : List Field} (distinct : known.Nodup)
    (each : ∀ f ∈ known, ∀ w, (written f).Rearranged w →
      Fits (shallow f) (content f) (layout.decode f w.document))
    {v : Value} (h : (Value.object (known.map fun f => (layout.label f, written f))).Rearranged v) :
    Fits (∀ f ∈ known, shallow f) (layout.filled known content layout.blank)
      (layout.read v.document) := by
  obtain ⟨found, moved, order, rfl, pairs⟩ := h.of_record
  have same : layout.filled known content = layout.filled found content := by
    funext before field
    simp only [filled, order.mem_iff]
  simp only [order.mem_iff] at each ⊢
  rw [same]
  refine readMembers_fits labelled (order.nodup distinct) ?_ fun _ _ => rfl
  rw [Value.memberDocuments_eq_map, List.forall₂_map_right_iff]
  rw [List.forall₂_iff_zip] at pairs ⊢
  refine ⟨pairs.1, fun mem => ?_⟩
  obtain ⟨name, rearranged⟩ := pairs.2 mem
  exact ⟨congrArg Except.ok name.symm, each _ (List.of_mem_zip mem).1 _ rearranged⟩

end Layout
end LatchSim.Json
