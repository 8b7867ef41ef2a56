import LatchSim.Format.Expr
import LatchSim.Proofs.Expr
import LatchSim.Proofs.Json.Reading

/-!
# Expressions read back

An expression is read from its value in any order of the members, the kind included, which
may stand behind the operands. The members of an object are searched once for each field;
`Supplies` follows such a search. One level of an expression is one container:
`Expr.depth_toValue`.
-/

namespace LatchSim.Expr

open Json (Value Document Fits)

/-- A search for a field through members: it has been found before, or comes up once. -/
inductive Supplies (reads : Value → α → Prop) (name : String) :
    Option α → List (String × Value) → α → Prop
  | found (a : α) : Supplies reads name (some a) [] a
  | here : key = name → reads v a → Supplies reads name (some a) rest a →
      Supplies reads name none ((key, v) :: rest) a
  | other : key ≠ name → Supplies reads name before rest a →
      Supplies reads name before ((key, v) :: rest) a

section
variable {reads : Value → α → Prop} {name : String} {a : α}

theorem supplies_found {members : List (String × Value)} (absent : name ∉ members.map Prod.fst) :
    Supplies reads name (some a) members a := by
  induction members with
  | nil => exact .found a
  | cons m rest ih =>
    rw [List.map_cons, List.mem_cons, not_or] at absent
    exact .other (Ne.symm absent.1) (ih absent.2)

/-- Members with distinct names supply each field, whatever the order inside it. -/
theorem supplies_none {members moved : List (String × Value)}
    (each : List.Forall₂ (fun m n => m.1 = n.1 ∧ m.2.Rearranged n.2) members moved)
    (distinct : (members.map Prod.fst).Nodup) (mem : (name, v) ∈ members)
    (read : ∀ w, v.Rearranged w → reads w a) : Supplies reads name none moved a := by
  induction each with
  | nil => nomatch mem
  | @cons m n members moved first rest ih =>
    have names : members.map Prod.fst = moved.map Prod.fst := by
      rw [← List.forall₂_eq_eq_eq, List.forall₂_map_left_iff, List.forall₂_map_right_iff]
      exact rest.imp fun _ _ both => both.1
    obtain ⟨key, w⟩ := n
    obtain ⟨rfl, rearranged⟩ := first
    rw [List.map_cons, List.nodup_cons] at distinct
    rcases List.mem_cons.mp mem with rfl | mem
    · exact .here rfl (read w rearranged) (supplies_found (names ▸ distinct.1))
    · have apart : m.1 ≠ name := fun same =>
        distinct.1 (same ▸ List.mem_map_of_mem (f := Prod.fst) mem)
      exact .other apart (ih distinct.2 mem)

theorem supplies_of_rearranged {members : List (String × Value)} {v : Value}
    (h : (Value.object members).Rearranged v) (distinct : (members.map Prod.fst).Nodup) :
    ∃ moved, v = .object moved ∧
      ∀ {α : Type} {reads : Value → α → Prop} {name : String} {x : Value} {a : α},
        (name, x) ∈ members → (∀ w, x.Rearranged w → reads w a) →
          Supplies reads name none moved a := by
  obtain ⟨ordered, moved, order, rfl, each⟩ := h.of_object
  exact ⟨moved, rfl, fun mem read =>
    supplies_none each ((order.map _).nodup distinct) (order.mem_iff.mp mem) read⟩

end

/-! ## Each search -/

theorem Tag.ofText_text (tag : Tag) : Tag.ofText tag.text = .ok tag := by
  cases tag <;> decide

theorem Tag.find_supplied {found : Option Tag} {members : List (String × Value)} {tag : Tag}
    (h : Supplies (fun v tag => Tag.ofValue v = .ok tag) "type" found members tag) :
    Tag.find found members = .ok tag := by
  induction h with
  | found => rfl
  | here same read _ ih => simp [Tag.find, same, read, ih, bind, Except.bind]
  | other apart _ ih => simp [Tag.find, apart, ih]

theorem nameOfMembers_supplied {found : Option String} {members : List (String × Value)}
    {name : String}
    (h : Supplies (fun v name => textOfValue v = .ok name) "name" found members name) :
    nameOfMembers found members = .ok name := by
  induction h with
  | found => rfl
  | here same read _ ih => simp [nameOfMembers, same, read, ih, bind, Except.bind]
  | other apart _ ih => simp [nameOfMembers, apart, ih]

theorem operandOfMembers_supplied {found : Option Expr} {members : List (String × Value)} {e : Expr}
    (h : Supplies (fun v e => ofValue v = .ok e) "operand" found members e) :
    operandOfMembers found members = .ok e := by
  induction h with
  | found => simp [operandOfMembers, require]
  | here same read _ ih => simp [operandOfMembers, same, read, ih, bind, Except.bind]
  | other apart _ ih => simp [operandOfMembers, apart, ih]

theorem operandsOfMembers_supplied {foundLeft foundRight : Option Expr}
    {members : List (String × Value)} {left right : Expr}
    (onLeft : Supplies (fun v e => ofValue v = .ok e) "left" foundLeft members left)
    (onRight : Supplies (fun v e => ofValue v = .ok e) "right" foundRight members right) :
    operandsOfMembers foundLeft foundRight members = .ok (left, right) := by
  -- Both searches see the same members, and no member ends both.
  induction onLeft generalizing foundRight with
  | found =>
    cases onRight with
    | found => simp [operandsOfMembers, require, bind, Except.bind, pure, Except.pure]
  | here same read _ ih =>
    subst same
    cases onRight with
    | here both => exact absurd both (by decide)
    | other _ onRight => simp [operandsOfMembers, read, ih onRight, bind, Except.bind]
  | other apart _ ih =>
    cases onRight with
    | here same read onRight =>
      simp [operandsOfMembers, same, read, ih onRight, bind, Except.bind]
    | other distinct onRight => simp [operandsOfMembers, apart, distinct, ih onRight]

/-! ## Expressions -/

theorem depth_toValue (e : Expr) : e.toValue.depth = e.height := by
  induction e <;> simp [toValue, Value.depth, Value.depthOfMembers, height, *]

theorem numberless_toValue (e : Expr) : e.toValue.Numberless := by
  induction e <;> simp [toValue, *]

theorem tag_rearranged (tag : Tag) (v : Value) (h : (Value.string tag.text).Rearranged v) :
    Tag.ofValue v = .ok tag := by
  cases h
  exact Tag.ofText_text tag

theorem text_rearranged (text : String) (v : Value) (h : (Value.string text).Rearranged v) :
    textOfValue v = .ok text := by
  cases h
  rfl

/-- The members may stand in any order on every level. -/
theorem ofValue_rearranged (e : Expr) (v : Value) (h : e.toValue.Rearranged v) :
    ofValue v = .ok e := by
  induction e generalizing v with
  | signal name =>
    obtain ⟨members, rfl, supplies⟩ := supplies_of_rearranged h (by simp)
    have tag := Tag.find_supplied (supplies (by simp) (tag_rearranged .signal))
    have found := nameOfMembers_supplied (supplies (by simp) (text_rearranged name))
    simp [ofValue, tag, found, bind, Except.bind, pure, Except.pure]
  | and left right ihl ihr =>
    obtain ⟨members, rfl, supplies⟩ := supplies_of_rearranged h (by simp)
    have tag := Tag.find_supplied (supplies (by simp) (tag_rearranged .and))
    have found := operandsOfMembers_supplied (supplies (by simp) ihl) (supplies (by simp) ihr)
    simp [ofValue, tag, found, bind, Except.bind, pure, Except.pure]
  | or left right ihl ihr =>
    obtain ⟨members, rfl, supplies⟩ := supplies_of_rearranged h (by simp)
    have tag := Tag.find_supplied (supplies (by simp) (tag_rearranged .or))
    have found := operandsOfMembers_supplied (supplies (by simp) ihl) (supplies (by simp) ihr)
    simp [ofValue, tag, found, bind, Except.bind, pure, Except.pure]
  | not operand ih =>
    obtain ⟨members, rfl, supplies⟩ := supplies_of_rearranged h (by simp)
    have tag := Tag.find_supplied (supplies (by simp) (tag_rearranged .not))
    have found := operandOfMembers_supplied (supplies (by simp) ih)
    simp [ofValue, tag, found, bind, Except.bind, pure, Except.pure]

theorem readMembers_type (room : Nat) (tag : Tag) (rest : List (Json.Key × Document)) :
    readMembers room none false ((.ok "type", .string (.ok tag.text)) :: rest) =
      (("type", .string tag.text) :: ·) <$> readMembers room none true rest := by
  have kind : Tag.ofDocument (.string (.ok tag.text)) = .ok tag := Tag.ofText_text tag
  simp only [readMembers, kind, bind, Except.bind, if_pos]
  rfl

theorem readMembers_other {key : String} (apart : key ≠ "type") (room : Nat) (tagged : Bool)
    (item : Document) (rest : List (Json.Key × Document)) :
    readMembers room none tagged ((.ok key, item) :: rest) =
      item.value room >>= fun v =>
        ((key, v) :: ·) <$> readMembers room none tagged rest := by
  simp only [readMembers, bind, Except.bind, if_neg apart]
  rfl

/-- The members of the outermost object, whose kind is looked at where it stands. -/
theorem readMembers_fits {found : Option Tag} {members : List (String × Value)} {tag : Tag}
    (h : Supplies (fun v tag => v = .string tag.text) "type" found members tag)
    (plain : ∀ m ∈ members, m.2.Numberless) (room : Nat) :
    Fits (Value.depthOfMembers members ≤ room) members
      (readMembers room none found.isSome (Value.memberDocuments members)) := by
  induction h with
  | found => exact .ok (Nat.zero_le room)
  | here same read _ ih =>
    rw [List.forall_mem_cons] at plain
    subst same read
    rw [Value.memberDocuments, Value.document, Option.isSome_none, readMembers_type]
    refine .of_iff ?_ (ih plain.2).map
    simp only [Value.depthOfMembers, Value.depth, Nat.zero_max]
  | other apart _ ih =>
    rw [List.forall_mem_cons] at plain
    rw [Value.memberDocuments, readMembers_other apart]
    refine .of_iff ?_ ((Json.Document.value_fits plain.1 room).bind (ih plain.2).map)
    rw [Value.depthOfMembers, Nat.max_le]

theorem toValue_tagged (e : Expr) : ∃ (tag : Tag) (operands : List (String × Value)),
    e.toValue = .object (("type", .string tag.text) :: operands) ∧
      (("type" :: operands.map Prod.fst)).Nodup := by
  cases e <;> exact ⟨_, _, rfl, by simp⟩

theorem valueOfDocument_fits {e : Expr} {v : Value} (h : e.toValue.Rearranged v) (room : Nat) :
    Fits (v.depth ≤ room) v (valueOfDocument room v.document) := by
  have plain := h.numberless e.numberless_toValue
  obtain ⟨tag, operands, written, distinct⟩ := e.toValue_tagged
  rw [written] at h
  obtain ⟨members, rfl, supplies⟩ := supplies_of_rearranged h distinct
  -- The outermost kind is replaced by its own text, so the value comes out unchanged.
  have kind : Supplies (fun v tag => v = .string tag.text) "type" none members tag :=
    supplies List.mem_cons_self fun w same => by cases same; rfl
  cases plain with | object _ plain =>
  cases room with
  | zero => exact .deep (by simp [Value.depth])
  | succ room => exact .of_iff Nat.succ_le_succ_iff.symm (readMembers_fits kind plain room).map

/-- An expression is read if its levels fit into the room that is left. -/
theorem ofDocument_fits {e : Expr} {v : Value} (h : e.toValue.Rearranged v) (room : Nat) :
    Fits (e.height ≤ room) e (ofDocument room v.document) := by
  have interpreted : Fits True e (ofValue v) := by
    rw [ofValue_rearranged e v h]
    exact .pure e
  -- All depth is used up before the value is interpreted, and that can no longer fail.
  rw [← depth_toValue, h.depth_eq]
  exact .of_iff (iff_of_eq (and_true _)) ((valueOfDocument_fits h room).bind interpreted)

end LatchSim.Expr
