import LatchSim.Json.Value
import Mathlib.Data.List.Perm.Basic

/-!
# Values up to the order of members

`Value.Rearranged` lets the members of any object in a value stand in any order. Whatever
reads records has to give the same result for all such values; the depth of a value does
not depend on the order either: `Rearranged.depth_eq`.
-/

namespace LatchSim.Json.Value

/-- Values are taken apart together with all their items and members. -/
@[elab_as_elim, induction_eliminator]
theorem inductionOn {motive : Value → Prop} (null : motive null)
    (bool : ∀ value, motive (bool value)) (number : ∀ literal, motive (number literal))
    (string : ∀ text, motive (string text))
    (list : ∀ items, (∀ v ∈ items, motive v) → motive (list items))
    (object : ∀ members, (∀ m ∈ members, motive m.2) → motive (object members)) (v : Value) :
    motive v :=
  v.rec null bool number string list object (fun _ mem => nomatch mem)
    (fun _ _ head tail => List.forall_mem_cons.mpr ⟨head, tail⟩) (fun _ mem => nomatch mem)
    (fun _ _ head tail => List.forall_mem_cons.mpr ⟨head, tail⟩) (fun _ _ second => second)

/-- There are no numbers in the value. -/
inductive Numberless : Value → Prop
  | null : Numberless null
  | bool (value : Bool) : Numberless (bool value)
  | string (text : String) : Numberless (string text)
  | list (items : List Value) : (∀ v ∈ items, Numberless v) → Numberless (list items)
  | object (members : List (String × Value)) :
      (∀ m ∈ members, Numberless m.2) → Numberless (object members)

attribute [simp] Numberless.null Numberless.bool Numberless.string

@[simp] theorem numberless_list {items : List Value} :
    (list items).Numberless ↔ ∀ v ∈ items, v.Numberless :=
  ⟨fun | .list _ each => each, .list items⟩

@[simp] theorem numberless_object {members : List (String × Value)} :
    (object members).Numberless ↔ ∀ m ∈ members, m.2.Numberless :=
  ⟨fun | .object _ each => each, .object members⟩

theorem Numberless.map {write : α → Value} (each : ∀ a, (write a).Numberless) (results : List α) :
    (Value.list (results.map write)).Numberless := by
  refine .list _ fun v mem => ?_
  obtain ⟨a, _, rfl⟩ := List.mem_map.mp mem
  exact each a

theorem Numberless.record {Field : Type} (label : Field → String) {written : Field → Value}
    (each : ∀ f, (written f).Numberless) (fields : List Field) :
    (Value.object (fields.map fun f => (label f, written f))).Numberless := by
  refine .object _ fun m mem => ?_
  obtain ⟨f, _, rfl⟩ := List.mem_map.mp mem
  exact each f

/-- Some of the members of an object; those left out are lists without items, and optional. -/
inductive Trimmed (optional : List String) :
    List (String × Value) → List (String × Value) → Prop
  | nothing : Trimmed optional [] []
  | keep (m : String × Value) : Trimmed optional members kept →
      Trimmed optional (m :: members) (m :: kept)
  | leaveOut : m.1 ∈ optional → m.2 = list [] → Trimmed optional members kept →
      Trimmed optional (m :: members) kept

/-- The same value up to the order of the members in each of its objects. -/
inductive Rearranged : Value → Value → Prop
  | same (v : Value) : Rearranged v v
  | list {items moved : List Value} (length : items.length = moved.length)
      (each : ∀ p ∈ items.zip moved, Rearranged p.1 p.2) :
      Rearranged (list items) (list moved)
  | object {members ordered moved : List (String × Value)} (order : members.Perm ordered)
      (length : ordered.length = moved.length)
      (names : ∀ p ∈ ordered.zip moved, p.1.1 = p.2.1)
      (each : ∀ p ∈ ordered.zip moved, Rearranged p.1.2 p.2.2) :
      Rearranged (object members) (object moved)

namespace Trimmed

variable {optional : List String}

theorem all (members : List (String × Value)) : Trimmed optional members members := by
  induction members with
  | nil => exact .nothing
  | cons m _ ih => exact .keep m ih

theorem sublist (h : Trimmed optional members kept) : kept.Sublist members := by
  induction h with
  | nothing => exact .slnil
  | keep m _ ih => exact ih.cons_cons m
  | leaveOut _ _ _ ih => exact ih.cons _

/-- The members of a record, one for each of some fields. -/
theorem of_record {Field : Type} {fields : List Field} {entry : Field → String × Value}
    (h : Trimmed optional (fields.map entry) kept) :
    ∃ known : List Field, known.Sublist fields ∧ kept = known.map entry ∧
      ∀ f ∈ fields, f ∈ known ∨ (entry f).1 ∈ optional ∧ (entry f).2 = list [] := by
  induction fields generalizing kept with
  | nil =>
    cases h
    exact ⟨[], .slnil, rfl, fun _ mem => nomatch mem⟩
  | cons f fields ih =>
    cases h with
    | keep _ h =>
      obtain ⟨known, sub, rfl, each⟩ := ih h
      refine ⟨f :: known, sub.cons_cons f, rfl, ?_⟩
      exact List.forall_mem_cons.mpr ⟨.inl List.mem_cons_self,
        fun g mem => (each g mem).imp_left (List.mem_cons_of_mem f)⟩
    | leaveOut allowed empty h =>
      obtain ⟨known, sub, rfl, each⟩ := ih h
      exact ⟨known, sub.cons f, rfl, List.forall_mem_cons.mpr ⟨.inr ⟨allowed, empty⟩, each⟩⟩

end Trimmed

/-! ## Depth -/

theorem depthOfItems_eq (items : List Value) :
    depthOfItems items = (items.map depth).foldr max 0 := by
  induction items with
  | nil => rfl
  | cons v rest ih => rw [depthOfItems, ih, List.map_cons, List.foldr_cons]

theorem depthOfMembers_eq (members : List (String × Value)) :
    depthOfMembers members = (members.map fun m => m.2.depth).foldr max 0 := by
  induction members with
  | nil => rfl
  | cons m rest ih => rw [depthOfMembers, ih, List.map_cons, List.foldr_cons]

/-! ## Rearranged values -/

theorem map_eq_of_zip {f : α → γ} {g : β → γ} {xs : List α} {ys : List β}
    (length : xs.length = ys.length) (each : ∀ p ∈ xs.zip ys, f p.1 = g p.2) :
    xs.map f = ys.map g := by
  rw [← List.forall₂_eq_eq_eq, List.forall₂_map_left_iff, List.forall₂_map_right_iff,
    List.forall₂_iff_zip]
  exact ⟨length, fun mem => each _ mem⟩

theorem exists_zip_of_mem_right {xs : List α} {ys : List β} {y : β}
    (length : xs.length = ys.length) (mem : y ∈ ys) : ∃ x ∈ xs, (x, y) ∈ xs.zip ys := by
  rw [← List.map_snd_zip (Nat.le_of_eq length.symm), List.mem_map] at mem
  obtain ⟨⟨x, _⟩, pair, rfl⟩ := mem
  exact ⟨x, (List.of_mem_zip pair).1, pair⟩

namespace Rearranged

theorem of_list (h : (Value.list items).Rearranged v) :
    ∃ moved, v = .list moved ∧ List.Forall₂ Rearranged items moved := by
  cases h with
  | same => exact ⟨items, rfl, List.forall₂_same.mpr fun v _ => .same v⟩
  | list length each => exact ⟨_, rfl, List.forall₂_iff_zip.mpr ⟨length, fun mem => each _ mem⟩⟩

/-- Members are put in order and then rearranged one by one. -/
theorem of_object (h : (Value.object members).Rearranged v) :
    ∃ ordered moved, members.Perm ordered ∧ v = .object moved ∧
      List.Forall₂ (fun m n => m.1 = n.1 ∧ m.2.Rearranged n.2) ordered moved := by
  cases h with
  | same =>
    exact ⟨members, members, .refl _, rfl, List.forall₂_same.mpr fun m _ => ⟨rfl, .same m.2⟩⟩
  | object order length names each =>
    exact ⟨_, _, order, rfl,
      List.forall₂_iff_zip.mpr ⟨length, fun mem => ⟨names _ mem, each _ mem⟩⟩⟩

theorem list_of_forall₂ (each : List.Forall₂ Rearranged items moved) :
    (Value.list items).Rearranged (.list moved) := by
  rw [List.forall₂_iff_zip] at each
  exact .list each.1 fun _ mem => each.2 mem

theorem object_of_forall₂ (order : members.Perm ordered)
    (each : List.Forall₂ (fun m n => m.1 = n.1 ∧ m.2.Rearranged n.2) ordered moved) :
    (Value.object members).Rearranged (.object moved) := by
  rw [List.forall₂_iff_zip] at each
  exact .object order each.1 (fun _ mem => (each.2 mem).1) fun _ mem => (each.2 mem).2

/-- The members of a record, one for each of some fields. -/
theorem of_record {Field : Type} {fields : List Field} {entry : Field → String × Value}
    (h : (Value.object (fields.map entry)).Rearranged v) :
    ∃ found moved, fields.Perm found ∧ v = .object moved ∧
      List.Forall₂ (fun f m => (entry f).1 = m.1 ∧ (entry f).2.Rearranged m.2) found moved := by
  obtain ⟨ordered, moved, order, rfl, each⟩ := of_object h
  have mapped : Relation.Comp (· = List.map entry ·) List.Perm ordered fields := by
    rw [List.eq_map_comp_perm]
    exact order.symm
  obtain ⟨found, rfl, placed⟩ := mapped
  exact ⟨found, moved, placed.symm, rfl, List.forall₂_map_left_iff.mp each⟩

theorem depth_eq (h : Rearranged v w) : v.depth = w.depth := by
  induction h with
  | same => rfl
  | list length _ ih =>
    rw [depth, depth, depthOfItems_eq, depthOfItems_eq, map_eq_of_zip length ih]
  | object order length _ _ ih =>
    have depths := (order.map fun m => m.2.depth).foldr_eq (f := max) 0
    rw [depth, depth, depthOfMembers_eq, depthOfMembers_eq, depths,
      map_eq_of_zip (g := fun m => m.2.depth) length ih]

theorem numberless (h : Rearranged v w) (plain : v.Numberless) : w.Numberless := by
  induction h with
  | same => exact plain
  | list length _ ih =>
    cases plain with | list _ plain =>
    refine .list _ fun w mem => ?_
    obtain ⟨v, source, pair⟩ := exists_zip_of_mem_right length mem
    exact ih _ pair (plain v source)
  | object order length _ _ ih =>
    cases plain with | object _ plain =>
    refine .object _ fun n mem => ?_
    obtain ⟨m, source, pair⟩ := exists_zip_of_mem_right length mem
    exact ih _ pair (plain m (order.mem_iff.mpr source))

end Rearranged
end LatchSim.Json.Value
