import LatchSim.Proofs.Cycle

/-!
# What a cycle binds its signals to

In a validated circuit every bound name has one writer. A stimulus holds the sample of the
last trace that names it, a latch output what its input held when the latches moved, and an
update target the value of its expression: `storeAfter_stimulus`, `next_latch`,
`storeAfter_target`.
-/

namespace LatchSim.Circuit

/-- The trace that a signal takes its samples from: the last one that names it. -/
def stimulus? (c : Circuit) (name : String) : Option Trace :=
  c.stimuli.reverse.find? (·.signal == name)

/-- A cycle up to its first updates. -/
def partCycle (c : Circuit) (cycle count : Nat) (s : Store) : Outcome :=
  ((c.bindStimuli cycle c.stimuli s).andThen (Latch.advanceAll c.latches)).andThen
    (Update.applyAll (c.updates.take count))

theorem partCycle_length (c : Circuit) (cycle : Nat) (s : Store) :
    c.partCycle cycle c.updates.length s = c.nextCycle cycle s := by
  rw [partCycle, nextCycle, List.take_length]

variable {c : Circuit} {n : Nat} {name : String}

/-! ## Stimuli -/

theorem stimulus?_mem {t : Trace} (drives : c.stimulus? name = some t) :
    t ∈ c.stimuli ∧ t.signal = name := by
  have member := List.mem_of_find?_eq_some drives
  have named := List.find?_some drives
  exact ⟨List.mem_reverse.mp member, by simpa using named⟩

theorem stimulus?_eq_none : c.stimulus? name = none ↔ name ∉ c.stimuli.map (·.signal) := by
  simp [stimulus?]

theorem exists_stimulus (member : name ∈ c.stimuli.map (·.signal)) :
    ∃ t, c.stimulus? name = some t :=
  Option.ne_none_iff_exists'.mp fun none => stimulus?_eq_none.mp none member

/-- A trace drives its signal where no later trace names it. -/
theorem stimulus?_of_last {before after : List Trace} {t : Trace}
    (split : c.stimuli = before ++ t :: after) (alone : ∀ u ∈ after, u.signal ≠ t.signal) :
    c.stimulus? t.signal = some t := by
  have later : after.reverse.find? (·.signal == t.signal) = none := by
    rw [List.find?_eq_none]
    intro u member
    simpa using alone u (List.mem_reverse.mp member)
  simp [stimulus?, split, List.find?_append, later]

theorem lookup_samples (cycle : Nat) (traces : List Trace) (name : String) :
    (samples cycle traces).reverse.lookup name =
      (traces.reverse.find? (·.signal == name)).map fun t => (t.get? cycle).getD false := by
  rw [samples, ← List.map_reverse]
  induction traces.reverse with
  | nil => rfl
  | cons t rest ih =>
    rw [List.map_cons, Binding.lookup_cons, List.find?_cons]
    by_cases same : name = t.signal
    · simp [same]
    · simp [same, beq_false_of_ne (Ne.symm same), ih]

theorem driven_stimulus {cycle : Nat} {s : Store} {t : Trace} (drives : c.stimulus? name = some t) :
    (c.driven cycle s).get? name = some ((t.get? cycle).getD false) := by
  rw [driven, Store.get?_setAll, lookup_samples]
  change ((c.stimulus? name).map _).or _ = _
  rw [drives]
  rfl

theorem driven_other {cycle : Nat} {s : Store} (undriven : c.stimulus? name = none) :
    (c.driven cycle s).get? name = s.get? name := by
  rw [driven, Store.get?_setAll_other]
  rw [samples_names]
  exact stimulus?_eq_none.mp undriven

/-! ## One writer for each name -/

theorem mem_sources_of_stimulus {t : Trace} (member : t ∈ c.stimuli) : t.signal ∈ c.sources :=
  List.mem_append_left _ (List.mem_map_of_mem member)

theorem mem_sources_of_latch {l : Latch} (member : l ∈ c.latches) : l.output ∈ c.sources :=
  List.mem_append_right _ (List.mem_map.mpr ⟨l, member, rfl⟩)

namespace Validated

variable (valid : c.Validated n)

include valid

theorem outputs_nodup : (Latch.outputs c.latches).Nodup :=
  (List.nodup_append.mp (List.nodup_append.mp valid.distinct).1).2.1

theorem targets_nodup : (Update.targets c.updates).Nodup :=
  (List.nodup_append.mp valid.distinct).2.1

theorem stimulus_input (member : name ∈ c.stimuli.map (·.signal)) : name ∈ c.inputs := by
  obtain ⟨t, inside, rfl⟩ := List.mem_map.mp member
  exact valid.inputs t inside

theorem input_not_output (input : name ∈ c.inputs) : name ∉ Latch.outputs c.latches := by
  intro output
  have apart := (List.nodup_append.mp (List.nodup_append.mp valid.distinct).1).2.2
  exact apart name input name output rfl

theorem input_not_target (input : name ∈ c.inputs) : name ∉ Update.targets c.updates := by
  intro target
  have apart := (List.nodup_append.mp valid.distinct).2.2
  exact apart name (List.mem_append_left _ input) name target rfl

theorem stimulus_not_output (member : name ∈ c.stimuli.map (·.signal)) :
    name ∉ Latch.outputs c.latches :=
  valid.input_not_output (valid.stimulus_input member)

theorem source_not_target (member : name ∈ c.sources) : name ∉ Update.targets c.updates := by
  rcases List.mem_append.mp member with stimulus | output
  · exact valid.input_not_target (valid.stimulus_input stimulus)
  · intro target
    have apart := (List.nodup_append.mp valid.distinct).2.2
    exact apart name (List.mem_append_right _ output) name target rfl

theorem ordered (resolved : Update.early c.sources c.updates = []) :
    Update.Ordered c.sources c.updates :=
  .of_early resolved valid.targets_nodup fun _ target source =>
    valid.source_not_target source target

/-- No update, of all or of the first ones, touches a stimulus or a latch output. -/
theorem settle_source {s : Store} (member : name ∈ c.sources) (count : Nat) :
    (Update.settle (c.updates.take count) s).get? name = s.get? name := by
  refine Update.get?_settle_other fun target => valid.source_not_target member ?_
  obtain ⟨u, inside, rfl⟩ := List.mem_map.mp target
  exact List.mem_map.mpr ⟨u, List.mem_of_mem_take inside, rfl⟩

theorem settle_all_source {s : Store} (member : name ∈ c.sources) :
    (Update.settle c.updates s).get? name = s.get? name := by
  simpa only [List.take_length] using valid.settle_source (s := s) member c.updates.length

end Validated

/-! ## After a cycle -/

section

variable (valid : c.Validated n)

include valid

/-- Neither a latch nor an update takes a stimulus away. -/
theorem settled_stimulus {cycle : Nat} {s : Store} {writes : List Binding} {t : Trace}
    (names : writes.map (·.1) = Latch.outputs c.latches) (drives : c.stimulus? name = some t) :
    (Update.settle c.updates ((c.driven cycle s).setAll writes)).get? name =
      some ((t.get? cycle).getD false) := by
  have member : name ∈ c.stimuli.map (·.signal) :=
    Classical.byContradiction fun out => by simp [stimulus?_eq_none.mpr out] at drives
  have untouched : name ∉ writes.map (·.1) := names ▸ valid.stimulus_not_output member
  rw [valid.settle_all_source (List.mem_append_left _ member), Store.get?_setAll_other untouched,
    driven_stimulus drives]

theorem storeAfter_stimulus {t : Nat} {trace : Trace} (inside : t < n)
    (drives : c.stimulus? name = some trace) : (c.storeAfter t).get? name = trace.get? t := by
  obtain ⟨value, sample⟩ := valid.sample inside (stimulus?_mem drives).1
  have bound : (c.storeAfter t).get? name = some ((trace.get? t).getD false) := by
    cases t with
    | zero => exact settled_stimulus valid (Latch.resets_names _) drives
    | succ t => exact settled_stimulus valid (Latch.moves_names _ _) drives
  rw [bound, sample]
  rfl

/-- The sample is there, and it is what the cycle leaves bound. -/
theorem storeAfter_sample {t : Nat} {trace : Trace} (inside : t < n)
    (drives : c.stimulus? name = some trace) :
    trace.get? t = some ((c.storeAfter t).view name) := by
  obtain ⟨value, sample⟩ := valid.sample inside (stimulus?_mem drives).1
  have bound := storeAfter_stimulus valid inside drives
  rw [sample] at bound ⊢
  rw [Store.view_of_get? bound]

theorem driven_sample {cycle : Nat} {s : Store} {trace : Trace} (inside : cycle < n)
    (drives : c.stimulus? name = some trace) :
    trace.get? cycle = some ((c.driven cycle s).view name) := by
  obtain ⟨value, sample⟩ := valid.sample inside (stimulus?_mem drives).1
  rw [Store.view, driven_stimulus drives, sample]
  rfl

/-- The new samples change a name just where a trace drives it with another sample. -/
theorem driven_view_eq_iff {t : Nat} (inside : t + 1 < n) :
    (c.driven (t + 1) (c.storeAfter t)).view name = (c.storeAfter t).view name ↔
      ∀ trace, c.stimulus? name = some trace → trace.get? (t + 1) = trace.get? t := by
  cases drives : c.stimulus? name with
  | none => simp [Store.view, driven_other drives]
  | some trace =>
    have now := driven_sample valid (s := c.storeAfter t) inside drives
    have held := storeAfter_sample valid (Nat.lt_of_succ_lt inside) drives
    simp [now, held]

theorem storeAfter_reset {l : Latch} (member : l ∈ c.latches) :
    (c.storeAfter 0).get? l.output = some false := by
  have distinct : ((Latch.resets c.latches).map (·.1)).Nodup :=
    (Latch.resets_names _).symm ▸ valid.outputs_nodup
  have written : (l.output, false) ∈ Latch.resets c.latches := List.mem_map.mpr ⟨l, member, rfl⟩
  rw [storeAfter, valid.settle_all_source (mem_sources_of_latch member)]
  exact Store.get?_setAll_mem distinct written

theorem advanced_latch {cycle : Nat} {s : Store} {l : Latch} (member : l ∈ c.latches) :
    (c.advanced cycle s).get? l.output = some ((c.driven cycle s).view l.input) := by
  have distinct : ((Latch.moves c.latches (c.driven cycle s)).map (·.1)).Nodup :=
    (Latch.moves_names _ _).symm ▸ valid.outputs_nodup
  have written : (l.output, (c.driven cycle s).view l.input) ∈
      Latch.moves c.latches (c.driven cycle s) := List.mem_map.mpr ⟨l, member, rfl⟩
  exact Store.get?_setAll_mem distinct written

/-- A latch hands on what its input holds once the samples of the cycle are bound. -/
theorem next_latch {cycle : Nat} {s : Store} {l : Latch} (member : l ∈ c.latches) :
    (c.next cycle s).get? l.output = some ((c.driven cycle s).view l.input) := by
  rw [next, valid.settle_all_source (mem_sources_of_latch member), advanced_latch valid member]

/-- After every cycle all update equations hold at once. -/
theorem storeAfter_target {t : Nat} {u : Update}
    (resolved : Update.early c.sources c.updates = []) (member : u ∈ c.updates) :
    (c.storeAfter t).view u.name = u.expr.value (c.storeAfter t).view := by
  cases t with
  | zero => exact Update.settle_solves (valid.ordered resolved) member
  | succ t => exact Update.settle_solves (valid.ordered resolved) member

/-- The store part way through the updates of a cycle that does not fail. -/
theorem partCycle_store {cycle : Nat} {s : Store} (inside : cycle < n)
    (ok : (c.nextCycle cycle s).fault? = none) (count : Nat) :
    (c.partCycle cycle count s).store =
      Update.settle (c.updates.take count) (c.advanced cycle s) := by
  cases first : (Latch.inputs c.latches).find? fun name => ! (c.driven cycle s).contains name with
  | none =>
    have moved := moved_of_bound valid inside (by simpa using first)
    rw [nextCycle, moved] at ok
    rw [partCycle, moved]
    have all : (Update.applyAll c.updates (c.advanced cycle s)).fault? = none := by
      simpa [Outcome.andThen] using ok
    exact Update.applyAll_store (Update.applyAll_take all count)
  | some name =>
    rw [nextCycle, moved_of_unbound valid inside first] at ok
    cases ok

end

end LatchSim.Circuit
