import LatchSim.Proofs.Format.Circuit
import LatchSim.Proofs.Json.Nesting
import LatchSim.Proofs.Verdict

/-!
# How deep a text can nest

Expressions are read from values that have taken up levels of the text, and every level of an
expression has one of its own, however the expression is written: `Expr.height_le_depth`. So
what is read from any text is shallow enough to be written and read again:
`Circuit.ofJson_stable`.
-/

namespace LatchSim

open Json (Value Document)

namespace Expr

variable {bound room : Nat} {cut? : Option Json.Cut}

/-! ## Operands -/

theorem operandOfMembers_height {members : List (String × Value)} {found : Option Expr} {e : Expr}
    (each : ∀ m ∈ members, ∀ e, ofValue m.2 = .ok e → e.height ≤ bound)
    (before : ∀ e, found = some e → e.height ≤ bound)
    (read : operandOfMembers found members = .ok e) : e.height ≤ bound := by
  induction members generalizing found with
  | nil =>
    cases found with
    | none => cases read
    | some operand =>
      obtain rfl := Except.ok.inj read
      exact before operand rfl
  | cons m rest ih =>
    rw [List.forall_mem_cons] at each
    simp only [operandOfMembers] at read
    split at read
    · split at read
      · cases read
      · obtain ⟨operand, here, read⟩ := bind_eq_ok_iff.mp read
        refine ih each.2 (fun e known => ?_) read
        obtain rfl := Option.some.inj known
        exact each.1 operand here
    · exact ih each.2 before read

theorem operandsOfMembers_height {members : List (String × Value)}
    {foundLeft foundRight : Option Expr} {left right : Expr}
    (each : ∀ m ∈ members, ∀ e, ofValue m.2 = .ok e → e.height ≤ bound)
    (beforeLeft : ∀ e, foundLeft = some e → e.height ≤ bound)
    (beforeRight : ∀ e, foundRight = some e → e.height ≤ bound)
    (read : operandsOfMembers foundLeft foundRight members = .ok (left, right)) :
    left.height ≤ bound ∧ right.height ≤ bound := by
  induction members generalizing foundLeft foundRight with
  | nil =>
    simp only [operandsOfMembers, bind_eq_ok_iff] at read
    obtain ⟨l, onLeft, r, onRight, result⟩ := read
    obtain ⟨rfl, rfl⟩ := Prod.mk.inj (Except.ok.inj result)
    cases foundLeft with
    | none => cases onLeft
    | some _ =>
      cases foundRight with
      | none => cases onRight
      | some _ =>
        obtain rfl := Except.ok.inj onLeft
        obtain rfl := Except.ok.inj onRight
        exact ⟨beforeLeft _ rfl, beforeRight _ rfl⟩
  | cons m rest ih =>
    rw [List.forall_mem_cons] at each
    have now {operand : Expr} (here : ofValue m.2 = .ok operand) :
        ∀ e, some operand = some e → e.height ≤ bound := by
      intro e known
      obtain rfl := Option.some.inj known
      exact each.1 operand here
    simp only [operandsOfMembers] at read
    split at read
    · split at read
      · cases read
      · obtain ⟨operand, here, read⟩ := bind_eq_ok_iff.mp read
        exact ih each.2 (now here) beforeRight read
    · split at read
      · split at read
        · cases read
        · obtain ⟨operand, here, read⟩ := bind_eq_ok_iff.mp read
          exact ih each.2 beforeLeft (now here) read
      · exact ih each.2 beforeLeft beforeRight read

theorem operandOfItems_height {items : List Value} {e : Expr}
    (each : ∀ v ∈ items, ∀ e, ofValue v = .ok e → e.height ≤ bound)
    (read : operandOfItems items = .ok e) : e.height ≤ bound := by
  cases items with
  | nil => cases read
  | cons v rest =>
    simp only [operandOfItems, bind_eq_ok_iff] at read
    obtain ⟨operand, here, _, -, result⟩ := read
    obtain rfl := Except.ok.inj result
    exact each v List.mem_cons_self operand here

theorem operandsOfItems_height {tag : Tag} {items : List Value} {left right : Expr}
    (each : ∀ v ∈ items, ∀ e, ofValue v = .ok e → e.height ≤ bound)
    (read : operandsOfItems tag items = .ok (left, right)) :
    left.height ≤ bound ∧ right.height ≤ bound := by
  match items with
  | [] => cases read
  | [v] =>
    obtain ⟨_, -, read⟩ := bind_eq_ok_iff.mp read
    cases read
  | v :: w :: rest =>
    simp only [operandsOfItems, bind_eq_ok_iff] at read
    obtain ⟨l, onLeft, r, onRight, _, -, result⟩ := read
    obtain ⟨rfl, rfl⟩ := Prod.mk.inj (Except.ok.inj result)
    rw [List.forall_mem_cons, List.forall_mem_cons] at each
    exact ⟨each.1 _ onLeft, each.2.1 _ onRight⟩

/-! ## Expressions -/

/-- Whatever the kind, an expression adds one level to its operands. -/
theorem height_of_kind (name : Except Json.Fault String) (pair : Tag → Except Json.Fault (Expr × Expr))
    (single : Except Json.Fault Expr)
    (both : ∀ tag left right, pair tag = .ok (left, right) →
      left.height ≤ bound ∧ right.height ≤ bound)
    (one : ∀ operand, single = .ok operand → operand.height ≤ bound) {tag : Tag} {e : Expr}
    (read : (match tag with
      | .signal => do return signal (← name)
      | .and => do
        let (left, right) ← pair .and
        return and left right
      | .or => do
        let (left, right) ← pair .or
        return or left right
      | .not => do return not (← single)) = .ok e) : e.height ≤ bound + 1 := by
  cases tag with
  | signal =>
    obtain ⟨text, -, result⟩ := bind_eq_ok_iff.mp read
    obtain rfl := Except.ok.inj result
    exact Nat.succ_le_succ (Nat.zero_le bound)
  | and | or =>
    obtain ⟨⟨left, right⟩, operands, result⟩ := bind_eq_ok_iff.mp read
    obtain rfl := Except.ok.inj result
    exact Nat.succ_le_succ (Nat.max_le.mpr (both _ left right operands))
  | not =>
    obtain ⟨operand, here, result⟩ := bind_eq_ok_iff.mp read
    obtain rfl := Except.ok.inj result
    exact Nat.succ_le_succ (one operand here)

/-- An expression has no more levels than the value that states it. -/
theorem height_le_depth {v : Value} {e : Expr} (read : ofValue v = .ok e) :
    e.height ≤ v.depth := by
  induction v generalizing e with
  | null | bool _ | number _ | string _ => cases read
  | list items ih =>
    cases items with
    | nil => cases read
    | cons kind items =>
      have each : ∀ v ∈ items, ∀ e, ofValue v = .ok e → e.height ≤ Value.depthOfItems items :=
        fun v mem e read => Nat.le_trans (ih v (List.mem_cons_of_mem kind mem) read)
          (Json.Value.depthOfItems_le_iff.mp (Nat.le_refl _) v mem)
      obtain ⟨tag, -, read⟩ := bind_eq_ok_iff.mp read
      refine Nat.le_trans ?_ (Nat.succ_le_succ (Nat.le_max_right _ _))
      exact height_of_kind (nameOfItems items) (fun tag => operandsOfItems tag items)
        (operandOfItems items) (fun _ _ _ => operandsOfItems_height each)
        (fun _ => operandOfItems_height each) read
  | object members ih =>
    have each : ∀ m ∈ members, ∀ e, ofValue m.2 = .ok e →
        e.height ≤ Value.depthOfMembers members := fun m mem e read =>
      Nat.le_trans (ih m mem read) (Json.Value.depthOfMembers_le_iff.mp (Nat.le_refl _) m mem)
    obtain ⟨tag, -, read⟩ := bind_eq_ok_iff.mp read
    exact height_of_kind (nameOfMembers none members)
      (fun _ => operandsOfMembers none none members) (operandOfMembers none members)
      (fun _ _ _ => operandsOfMembers_height each nofun nofun)
      (fun _ => operandOfMembers_height each nofun) read

/-! ## The outermost object or list -/

theorem readMembers_depth_le {docs : List (Json.Key × Document)} {tagged : Bool}
    {members : List (String × Value)} (read : readMembers room cut? tagged docs = .ok members) :
    ∀ m ∈ members, m.2.depth ≤ room := by
  induction docs generalizing tagged members with
  | nil =>
    simp only [readMembers] at read
    split at read
    · cases read
    · split at read
      · obtain rfl := Except.ok.inj read
        exact List.forall_mem_nil _
      · cases read
  | cons m rest ih =>
    obtain ⟨key, item⟩ := m
    simp only [readMembers, bind_eq_ok_iff] at read
    obtain ⟨name, -, read⟩ := read
    split at read
    · split at read
      · cases read
      · simp only [bind_eq_ok_iff] at read
        obtain ⟨tag, -, later, others, result⟩ := read
        obtain rfl := Except.ok.inj result
        exact List.forall_mem_cons.mpr ⟨Nat.zero_le room, ih others⟩
    · simp only [bind_eq_ok_iff] at read
      obtain ⟨v, here, later, others, result⟩ := read
      obtain rfl := Except.ok.inj result
      exact List.forall_mem_cons.mpr ⟨Document.value_depth_le here, ih others⟩

theorem readItems_depth_le {docs : List Document} {items : List Value}
    (read : readItems room cut? docs = .ok items) : ∀ v ∈ items, v.depth ≤ room := by
  cases docs with
  | nil => cases cut? <;> cases read
  | cons doc rest =>
    simp only [readItems, bind_eq_ok_iff] at read
    obtain ⟨tag, -, later, others, result⟩ := read
    obtain rfl := Except.ok.inj result
    have each := Document.values_depth_le (fun _ _ _ => Document.value_depth_le) others
    exact List.forall_mem_cons.mpr ⟨Nat.zero_le room, each⟩

theorem valueOfDocument_depth_le {doc : Document} {v : Value}
    (read : valueOfDocument room doc = .ok v) : v.depth ≤ room := by
  cases doc with
  | object docs cut? =>
    cases room with
    | zero => cases read
    | succ room =>
      obtain ⟨members, contents, rfl⟩ := map_eq_ok_iff.mp read
      exact Nat.succ_le_succ (Json.Value.depthOfMembers_le_iff.mpr (readMembers_depth_le contents))
  | list docs cut? =>
    cases room with
    | zero => cases read
    | succ room =>
      obtain ⟨items, contents, rfl⟩ := map_eq_ok_iff.mp read
      exact Nat.succ_le_succ (Json.Value.depthOfItems_le_iff.mpr (readItems_depth_le contents))
  | null | bool _ | number _ | string _ | broken _ => exact Document.value_depth_le read

/-- However an expression is written, its levels fit into the room that there was for it. -/
theorem height_le_room {doc : Document} {e : Expr} (read : ofDocument room doc = .ok e) :
    e.height ≤ room := by
  obtain ⟨v, contents, result⟩ := bind_eq_ok_iff.mp read
  exact Nat.le_trans (height_le_depth result) (valueOfDocument_depth_le contents)

end Expr

/-! ## Circuits -/

theorem Json.Layout.Draft.Read.of_get {Field : Type} {layout : Json.Layout Field}
    {draft : layout.Draft} (known : draft.Read) {field : Field} {content : layout.Content field}
    (found : draft.get field = .ok content) : ∃ doc, layout.decode field doc = .ok content := by
  refine known field content ?_
  unfold Json.Layout.Draft.get at found
  split at found
  next here => rw [here, Except.ok.inj found]
  next => cases found

theorem Update.expr_height_le {room : Nat} {doc : Document} {u : Update}
    (read : Update.ofDocument room doc = .ok u) : u.expr.height ≤ room := by
  simp only [Update.ofDocument, bind_eq_ok_iff] at read
  obtain ⟨draft, record, name, -, expr, found, result⟩ := read
  obtain rfl := Except.ok.inj result
  obtain ⟨item, decoded⟩ := (Json.Layout.read_known record).of_get found
  exact Expr.height_le_room decoded

namespace Circuit

variable {c : Circuit} {text : String}

theorem ofDocument_shallow {doc : Document} (read : ofDocument doc = .ok c) :
    ∀ u ∈ c.updates, u.expr.height ≤ exprLevels := by
  simp only [ofDocument, bind_eq_ok_iff] at read
  obtain ⟨draft, record, name, -, inputs, -, outputs, -, result⟩ := read
  obtain rfl := Except.ok.inj result
  intro u mem
  -- Updates that were left out are none at all.
  cases given : draft .updates with
  | none =>
    rw [given] at mem
    exact absurd mem List.not_mem_nil
  | some updates =>
    obtain ⟨item, decoded⟩ := Json.Layout.read_known record .updates updates given
    rw [given] at mem
    obtain ⟨entry, decoded⟩ := Document.items_read decoded u mem
    exact Update.expr_height_le decoded

theorem ofJson_shallow (read : ofJson text = .ok c) :
    ∀ u ∈ c.updates, u.expr.depth ≤ 124 := by
  simp only [Expr.depth_eq_height]
  simp only [ofJson, Document.read] at read
  split at read
  · cases read
  · split at read
    · cases read
    · obtain rfl := Except.ok.inj read
      exact ofDocument_shallow ‹_›

/-- What any text is read as, it is shallow: its expressions have at most 124 levels. So they
are never too deep for validation, and the circuit is read back from its own text. -/
theorem ofJson_stable (read : ofJson text = .ok c) :
    (∀ u ∈ c.updates, u.expr.depth ≤ 124) ∧
      (∀ name depth limit, c.validate ≠ .error (.tooDeep name depth limit)) ∧
      ofJson c.toJson = .ok c := by
  have shallow := ofJson_shallow read
  refine ⟨shallow, validate_ne_tooDeep fun u mem => ?_, ?_⟩
  · exact Nat.le_trans (shallow u mem) (by decide)
  · simp only [Expr.depth_eq_height] at shallow
    exact c.ofJson_toJson_fits.eq_ite.trans (if_pos shallow)

def inverter : Circuit where
  name := "inverter"
  inputs := ["a"]
  outputs := ["y"]
  latches := []
  updates := [⟨"y", .not (.signal "a")⟩]
  stimuli := [⟨"a", [some true]⟩]

/-- The inverter in another form: its update, its trace and the negation are lists, and there
is a member that no circuit has. -/
def inverterLists : Value :=
  let signal := .object [("name", .string "a"), ("type", .string "signal")]
  .object [
    ("siminputs", .list [.list [.string "a", .list [.bool true]]]),
    ("note", .list [.null]),
    ("updates", .list [.list [.string "y", .list [.string "not", signal]]]),
    ("outputs", .list [.string "y"]),
    ("inputs", .list [.string "a"]),
    ("name", .string "inverter")]

theorem inverterLists_stable :
    ofJson inverterLists.text = .ok inverter ∧ (∀ u ∈ inverter.updates, u.expr.depth ≤ 124) ∧
      ofJson inverter.toJson = .ok inverter := by
  have plain : inverterLists.Numberless := by simp [inverterLists]
  have read : ofJson inverterLists.text = .ok inverter :=
    (Document.read_text plain ofDocument).trans (by decide +kernel)
  have ⟨shallow, _, again⟩ := ofJson_stable read
  exact ⟨read, shallow, again⟩

end Circuit
end LatchSim
