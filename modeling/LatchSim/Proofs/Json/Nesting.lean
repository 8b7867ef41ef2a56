import LatchSim.Json.Record
import LatchSim.Proofs.Except
import LatchSim.Proofs.Json.Value

/-!
# What readers let through

Texts may be laid out in many ways, yet what is read from any of them is bounded and comes
from somewhere. A value that is read in full has no more levels than there was room for:
`Document.value_depth_le`. Items of lists and fields of records are answers of the readers of
their parts: `Document.items_read`, `Layout.read_known`.
-/

namespace LatchSim.Json

/-! ## Levels -/

namespace Value

variable {bound : Nat}

theorem depthOfItems_le_iff {items : List Value} :
    depthOfItems items ≤ bound ↔ ∀ v ∈ items, v.depth ≤ bound := by
  induction items with
  | nil => simp [depthOfItems]
  | cons v rest ih => rw [depthOfItems, Nat.max_le, ih, List.forall_mem_cons]

theorem depthOfMembers_le_iff {members : List (String × Value)} :
    depthOfMembers members ≤ bound ↔ ∀ m ∈ members, m.2.depth ≤ bound := by
  induction members with
  | nil => simp [depthOfMembers]
  | cons m rest ih => rw [depthOfMembers, Nat.max_le, ih, List.forall_mem_cons]

end Value

namespace Document

variable {room : Nat} {cut? : Option Cut}

/-- Documents are taken apart together with all their items and members. -/
@[elab_as_elim, induction_eliminator]
theorem inductionOn {motive : Document → Prop} (null : motive null)
    (bool : ∀ value, motive (bool value)) (number : ∀ literal, motive (number literal))
    (string : ∀ text, motive (string text))
    (list : ∀ items cut?, (∀ doc ∈ items, motive doc) → motive (list items cut?))
    (object : ∀ members cut?, (∀ m ∈ members, motive m.2) → motive (object members cut?))
    (broken : ∀ cut, motive (broken cut)) (doc : Document) : motive doc :=
  doc.rec null bool number string list object broken (fun _ mem => nomatch mem)
    (fun _ _ head tail => List.forall_mem_cons.mpr ⟨head, tail⟩) (fun _ mem => nomatch mem)
    (fun _ _ head tail => List.forall_mem_cons.mpr ⟨head, tail⟩) (fun _ _ second => second)

theorem values_depth_le {docs : List Document} {items : List Value}
    (each : ∀ doc ∈ docs, ∀ v, doc.value room = .ok v → v.depth ≤ room)
    (read : values room cut? docs = .ok items) : ∀ v ∈ items, v.depth ≤ room := by
  induction docs generalizing items with
  | nil =>
    cases cut? with
    | none =>
      obtain rfl := Except.ok.inj read
      exact List.forall_mem_nil _
    | some cut => cases read
  | cons doc rest ih =>
    rw [List.forall_mem_cons] at each
    simp only [values, bind_eq_ok_iff] at read
    obtain ⟨v, first, later, others, result⟩ := read
    obtain rfl := Except.ok.inj result
    exact List.forall_mem_cons.mpr ⟨each.1 v first, ih each.2 others⟩

theorem memberValues_depth_le {docs : List (Key × Document)} {members : List (String × Value)}
    (each : ∀ m ∈ docs, ∀ v, m.2.value room = .ok v → v.depth ≤ room)
    (read : memberValues room cut? docs = .ok members) : ∀ m ∈ members, m.2.depth ≤ room := by
  induction docs generalizing members with
  | nil =>
    cases cut? with
    | none =>
      obtain rfl := Except.ok.inj read
      exact List.forall_mem_nil _
    | some cut => cases read
  | cons m rest ih =>
    rw [List.forall_mem_cons] at each
    simp only [memberValues, bind_eq_ok_iff] at read
    obtain ⟨name, -, v, first, later, others, result⟩ := read
    obtain rfl := Except.ok.inj result
    exact List.forall_mem_cons.mpr ⟨each.1 v first, ih each.2 others⟩

/-- A value that has been read fits into the room that there was for it. -/
theorem value_depth_le {doc : Document} {v : Value} (read : doc.value room = .ok v) :
    v.depth ≤ room := by
  induction doc generalizing room v with
  | null | bool _ =>
    obtain rfl := Except.ok.inj read
    exact Nat.zero_le room
  | number literal =>
    simp only [value] at read
    split at read
    · cases read
    · obtain rfl := Except.ok.inj read
      exact Nat.zero_le room
  | string text =>
    obtain ⟨s, -, rfl⟩ := map_eq_ok_iff.mp read
    exact Nat.zero_le room
  | list docs cut? ih =>
    cases room with
    | zero => cases read
    | succ room =>
      obtain ⟨items, contents, rfl⟩ := map_eq_ok_iff.mp read
      have each := values_depth_le (fun doc mem v => ih doc mem) contents
      exact Nat.succ_le_succ (Value.depthOfItems_le_iff.mpr each)
  | object docs cut? ih =>
    cases room with
    | zero => cases read
    | succ room =>
      obtain ⟨members, contents, rfl⟩ := map_eq_ok_iff.mp read
      have each := memberValues_depth_le (fun m mem v => ih m mem) contents
      exact Nat.succ_le_succ (Value.depthOfMembers_le_iff.mpr each)
  | broken cut => cases read

/-! ## Lists -/

theorem elements_read {decode : Document → Except Fault α} {docs : List Document}
    {results : List α} (read : elements decode cut? docs = .ok results) :
    ∀ a ∈ results, ∃ doc, decode doc = .ok a := by
  induction docs generalizing results with
  | nil =>
    cases cut? with
    | none =>
      obtain rfl := Except.ok.inj read
      exact List.forall_mem_nil _
    | some cut => cases read
  | cons doc rest ih =>
    simp only [elements, bind_eq_ok_iff] at read
    obtain ⟨a, first, later, others, result⟩ := read
    obtain rfl := Except.ok.inj result
    exact List.forall_mem_cons.mpr ⟨⟨doc, first⟩, ih others⟩

/-- Every item of a list has been read as such. -/
theorem items_read {decode : Document → Except Fault α} {doc : Document} {results : List α}
    (read : items decode doc = .ok results) : ∀ a ∈ results, ∃ doc, decode doc = .ok a := by
  cases doc with
  | list docs cut? => exact elements_read read
  | _ => cases read

end Document

/-! ## Records -/

namespace Layout

variable {Field : Type} [DecidableEq Field] {layout : Layout Field} {cut? : Option Cut}

/-- Every field that is known has been read as such. -/
def Draft.Read (draft : layout.Draft) : Prop :=
  ∀ field content, draft field = some content → ∃ doc, layout.decode field doc = .ok content

omit [DecidableEq Field] in
theorem Draft.Read.blank : layout.blank.Read := fun _ _ known => nomatch known

theorem Draft.Read.set {draft : layout.Draft} (known : draft.Read) {field : Field}
    {doc : Document} {content : layout.Content field}
    (read : layout.decode field doc = .ok content) : (draft.set field content).Read := by
  intro other found here
  by_cases same : field = other
  · subst same
    rw [Draft.set_same] at here
    obtain rfl := Option.some.inj here
    exact ⟨doc, read⟩
  · rw [Draft.set_other draft content same] at here
    exact known other found here

theorem readMembers_known {members : List (Key × Document)} {draft last : layout.Draft}
    (known : draft.Read) (read : layout.readMembers cut? members draft = .ok last) :
    last.Read := by
  induction members generalizing draft with
  | nil =>
    cases cut? with
    | none =>
      obtain rfl := Except.ok.inj read
      exact known
    | some cut => cases read
  | cons m rest ih =>
    obtain ⟨key, item⟩ := m
    simp only [readMembers, bind_eq_ok_iff] at read
    obtain ⟨name, -, read⟩ := read
    split at read
    · obtain ⟨_, -, read⟩ := bind_eq_ok_iff.mp read
      exact ih known read
    · split at read
      · cases read
      · obtain ⟨content, here, read⟩ := bind_eq_ok_iff.mp read
        exact ih (known.set here) read

theorem readElements_known {fields : List Field} {items : List Document} {count : Nat}
    {draft last : layout.Draft} (known : draft.Read)
    (read : layout.readElements cut? count fields items draft = .ok last) : last.Read := by
  induction fields generalizing count items draft with
  | nil =>
    cases items with
    | nil =>
      cases cut? with
      | none =>
        obtain rfl := Except.ok.inj read
        exact known
      | some cut => cases read
    | cons item rest => cases read
  | cons field fields ih =>
    cases items with
    | nil =>
      cases cut? with
      | none =>
        simp only [readElements] at read
        split at read
        · cases read
        · exact ih known read
      | some cut => cases read
    | cons item rest =>
      obtain ⟨content, here, read⟩ := bind_eq_ok_iff.mp read
      exact ih (known.set here) read

/-- However a record is written, its fields have been read as such. -/
theorem read_known {doc : Document} {draft : layout.Draft} (read : layout.read doc = .ok draft) :
    draft.Read := by
  cases doc with
  | object members cut? => exact readMembers_known .blank read
  | list items cut? => exact readElements_known .blank read
  | _ => cases read

end Layout
end LatchSim.Json
