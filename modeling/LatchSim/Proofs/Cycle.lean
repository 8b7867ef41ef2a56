import LatchSim.Circuit.Cycle
import LatchSim.Proofs.Latch
import LatchSim.Proofs.Update
import LatchSim.Proofs.Validation

/-!
# What a cycle does

`Circuit.next` is the effect of a cycle on a store where nothing fails, and
`Circuit.storeAfter` its iteration from the reset on. Cycles of a validated circuit either
have this effect or stop at a reference that can be told from the circuit alone:
`firstCycle_fault?`, `nextCycle_fault?`. No sample has a say in that.
-/

namespace LatchSim.Circuit

/-- What a cycle binds its inputs to, in the order of the traces. -/
def samples (cycle : Nat) (traces : List Trace) : List Binding :=
  traces.map fun t => (t.signal, (t.get? cycle).getD false)

def driven (c : Circuit) (cycle : Nat) (s : Store) : Store := s.setAll (samples cycle c.stimuli)

/-- The store in which a cycle applies its updates. -/
def advanced (c : Circuit) (cycle : Nat) (s : Store) : Store :=
  (c.driven cycle s).setAll (Latch.moves c.latches (c.driven cycle s))

def next (c : Circuit) (cycle : Nat) (s : Store) : Store :=
  Update.settle c.updates (c.advanced cycle s)

def storeAfter (c : Circuit) : Nat → Store
  | 0 => Update.settle c.updates ((c.driven 0 .empty).setAll (Latch.resets c.latches))
  | t + 1 => c.next (t + 1) (c.storeAfter t)

/-- The names that a cycle binds before its first update: stimuli and latch outputs. -/
def sources (c : Circuit) : List String := c.stimuli.map (·.signal) ++ Latch.outputs c.latches

/-- All the names that a cycle binds. -/
def bound (c : Circuit) : List String := c.sources ++ Update.targets c.updates

/-- The output traces with the samples of the first cycles written. -/
def recording (c : Circuit) (length cycles : Nat) : List Trace :=
  c.outputs.map fun o =>
    ⟨o, (List.range length).map fun t =>
      if t < cycles then some ((c.storeAfter t).view o) else none⟩

/-! ## Names -/

@[simp] theorem samples_names (cycle : Nat) (traces : List Trace) :
    (samples cycle traces).map (·.1) = traces.map (·.signal) := by
  simp [samples]

theorem contains_driven {c : Circuit} {cycle : Nat} {s : Store} {name : String} :
    (c.driven cycle s).contains name = true ↔
      name ∈ c.stimuli.map (·.signal) ∨ s.contains name = true := by
  rw [driven, Store.contains_setAll, samples_names]

theorem contains_advanced {c : Circuit} {cycle : Nat} {s : Store} {name : String} :
    (c.advanced cycle s).contains name = true ↔ name ∈ c.sources ∨ s.contains name = true := by
  rw [advanced, Store.contains_setAll, Latch.moves_names, contains_driven, sources, List.mem_append]
  constructor
  · rintro (output | stimulus | before)
    · exact .inl (.inr output)
    · exact .inl (.inl stimulus)
    · exact .inr before
  · rintro ((stimulus | output) | before)
    · exact .inr (.inl stimulus)
    · exact .inl output
    · exact .inr (.inr before)

theorem contains_next {c : Circuit} {cycle : Nat} {s : Store} {name : String} :
    (c.next cycle s).contains name = true ↔ name ∈ c.bound ∨ s.contains name = true := by
  rw [next, Update.contains_settle, contains_advanced, bound, List.mem_append, ← or_assoc,
    or_comm (a := name ∈ Update.targets c.updates)]

theorem contains_reset {c : Circuit} {name : String} :
    ((c.driven 0 .empty).setAll (Latch.resets c.latches)).contains name = true ↔
      name ∈ c.sources := by
  rw [Store.contains_setAll, Latch.resets_names, contains_driven, sources, List.mem_append, or_comm]
  simp [Store.contains]

/-- Every cycle leaves the same names bound. -/
theorem contains_storeAfter {c : Circuit} {t : Nat} {name : String} :
    (c.storeAfter t).contains name = true ↔ name ∈ c.bound := by
  induction t with
  | zero => rw [storeAfter, Update.contains_settle, contains_reset, bound, List.mem_append, or_comm]
  | succ t ih => rw [storeAfter, contains_next, ih, or_self]

theorem mem_bound_of_source {c : Circuit} {name : String} (member : name ∈ c.sources) :
    name ∈ c.bound :=
  List.mem_append_left _ member

/-! ## Phases -/

theorem bindStimuli_eq {c : Circuit} {cycle : Nat} {traces : List Trace} {s : Store}
    (declared : ∀ t ∈ traces, t.signal ∈ c.inputs)
    (sampled : ∀ t ∈ traces, ∃ value, t.get? cycle = some value) :
    c.bindStimuli cycle traces s = .done (s.setAll (samples cycle traces)) := by
  induction traces generalizing s with
  | nil => rfl
  | cons t rest ih =>
    obtain ⟨value, sample⟩ := sampled t List.mem_cons_self
    have input : c.isInput t.signal = true := by
      simpa [isInput] using declared t List.mem_cons_self
    have later := ih (s := s.set t.signal value)
      (fun u member => declared u (List.mem_cons_of_mem _ member))
      (fun u member => sampled u (List.mem_cons_of_mem _ member))
    simpa [bindStimuli, input, sample, samples] using later

theorem Validated.sample {c : Circuit} {n cycle : Nat} (valid : c.Validated n)
    (inside : cycle < n) {t : Trace} (member : t ∈ c.stimuli) :
    ∃ value, t.get? cycle = some value := by
  obtain ⟨value, sample⟩ := Trace.exists_sample (valid.complete t member)
    (by rw [valid.lengths t member]; exact inside)
  exact ⟨value, by simp [Trace.get?, sample]⟩

theorem Validated.bindStimuli {c : Circuit} {n cycle : Nat} (valid : c.Validated n)
    (inside : cycle < n) (s : Store) :
    c.bindStimuli cycle c.stimuli s = .done (c.driven cycle s) :=
  bindStimuli_eq valid.inputs fun _ member => valid.sample inside member

theorem firstCycle_eq {c : Circuit} {n : Nat} (valid : c.Validated n) :
    c.firstCycle =
      Update.applyAll c.updates ((c.driven 0 .empty).setAll (Latch.resets c.latches)) := by
  rw [firstCycle, valid.bindStimuli valid.positive, Outcome.done_andThen, Latch.resetAll_eq]

/-- The first cycle fails where an update reads what no latch, stimulus or earlier update
has bound. -/
theorem firstCycle_fault? {c : Circuit} {n : Nat} (valid : c.Validated n) :
    c.firstCycle.fault? = (Update.early c.sources c.updates).head?.map .undefined := by
  rw [firstCycle_eq valid]
  exact Update.applyAll_fault? fun _ => contains_reset

theorem firstCycle_store {c : Circuit} {n : Nat} (valid : c.Validated n)
    (ok : c.firstCycle.fault? = none) : c.firstCycle.store = c.storeAfter 0 := by
  rw [firstCycle_eq valid] at ok ⊢
  exact Update.applyAll_store ok

section

variable {c : Circuit} {n cycle : Nat} {s : Store}

/-- Latches that can all be read move once the samples of the cycle are bound. -/
theorem moved_of_bound (valid : c.Validated n) (inside : cycle < n)
    (bound : ∀ name ∈ Latch.inputs c.latches, (c.driven cycle s).contains name = true) :
    (c.bindStimuli cycle c.stimuli s).andThen (Latch.advanceAll c.latches) =
      ⟨c.advanced cycle s, Latch.moveLog c.latches (c.driven cycle s), none⟩ := by
  rw [valid.bindStimuli inside, Outcome.done_andThen, Latch.advanceAll_of_bound bound]
  rfl

/-- A latch that cannot be read leaves the cycle with its samples bound and no more. -/
theorem moved_of_unbound {name : String} (valid : c.Validated n) (inside : cycle < n)
    (first : (Latch.inputs c.latches).find? (fun name => ! (c.driven cycle s).contains name) =
      some name) :
    (c.bindStimuli cycle c.stimuli s).andThen (Latch.advanceAll c.latches) =
      .stopped (c.driven cycle s) (.undefined name) := by
  rw [valid.bindStimuli inside, Outcome.done_andThen, Latch.advanceAll_of_unbound first]

/-- The first latch input that cannot be read in a store that binds what a cycle binds. -/
theorem find?_unbound_input (same : ∀ name, s.contains name = true ↔ name ∈ c.bound) :
    (Latch.inputs c.latches).find? (fun name => ! (c.driven cycle s).contains name) =
      ((Latch.inputs c.latches).filter (· ∉ c.bound)).head? := by
  have kept (name : String) : (c.driven cycle s).contains name = true ↔ name ∈ c.bound := by
    rw [contains_driven, same]
    exact or_iff_right_of_imp fun stimulus => mem_bound_of_source (List.mem_append_left _ stimulus)
  exact Update.find?_unbound kept _

/-- A later cycle fails where a latch reads what the cycle before has left unbound. -/
theorem nextCycle_fault? (valid : c.Validated n) (inside : cycle < n)
    (resolved : Update.early c.sources c.updates = [])
    (same : ∀ name, s.contains name = true ↔ name ∈ c.bound) :
    (c.nextCycle cycle s).fault? =
      ((Latch.inputs c.latches).filter (· ∉ c.bound)).head?.map .undefined := by
  have first : (Latch.inputs c.latches).find?
      (fun name => ! (c.driven cycle s).contains name) = _ := find?_unbound_input same
  cases missing : (Latch.inputs c.latches).filter (· ∉ c.bound) with
  | nil =>
    rw [missing, List.head?_nil] at first
    have read (name : String) : (c.advanced cycle s).contains name = true ↔ name ∈ c.bound := by
      rw [contains_advanced, same]
      exact or_iff_right_of_imp mem_bound_of_source
    have updates : (Update.applyAll c.updates (c.advanced cycle s)).fault? = _ :=
      Update.applyAll_fault? read
    rw [Update.early_mono (fun _ => mem_bound_of_source) resolved] at updates
    rw [nextCycle, moved_of_bound valid inside (by simpa using first)]
    simpa [Outcome.andThen] using updates
  | cons name others =>
    rw [missing, List.head?_cons] at first
    rw [nextCycle, moved_of_unbound valid inside first]
    rfl

theorem nextCycle_store (valid : c.Validated n) (inside : cycle < n)
    (ok : (c.nextCycle cycle s).fault? = none) : (c.nextCycle cycle s).store = c.next cycle s := by
  cases first : (Latch.inputs c.latches).find? fun name => ! (c.driven cycle s).contains name with
  | none =>
    rw [nextCycle, moved_of_bound valid inside (by simpa using first)] at ok ⊢
    exact Update.applyAll_store (by simpa [Outcome.andThen] using ok)
  | some name =>
    rw [nextCycle, moved_of_unbound valid inside first] at ok
    cases ok

/-- A later cycle that fails has bound its samples and changed nothing else. -/
theorem nextCycle_of_unresolved {name : String} (valid : c.Validated n) (inside : cycle < n)
    (same : ∀ name, s.contains name = true ↔ name ∈ c.bound)
    (first : ((Latch.inputs c.latches).filter (· ∉ c.bound)).head? = some name) :
    c.nextCycle cycle s = .stopped (c.driven cycle s) (.undefined name) := by
  have unbound : (Latch.inputs c.latches).find?
      (fun name => ! (c.driven cycle s).contains name) = some name :=
    (find?_unbound_input same).trans first
  rw [nextCycle, moved_of_unbound valid inside unbound]
  rfl

end

/-! ## Recording -/

theorem record_eq {cycle : Nat} {s : Store} {traces : List Trace}
    (inside : ∀ t ∈ traces, cycle < t.length) :
    record cycle s traces = s.require (traces.map (·.signal))
      (traces.map fun t => { t with values := t.values.set cycle (some (s.view t.signal)) }) := by
  induction traces with
  | nil => rfl
  | cons t rest ih =>
    have write (value : Bool) :
        t.set cycle value = .ok { t with values := t.values.set cycle (some value) } :=
      Trace.set_eq_ok.mpr ⟨inside t List.mem_cons_self, rfl⟩
    have later := ih fun u member => inside u (List.mem_cons_of_mem _ member)
    simp only [record, s.read_eq_require, write, ok_bind, later, pure, Except.pure,
      Store.require_map]
    exact s.require_bind [t.signal] (rest.map (·.signal)) (s.view t.signal) fun value =>
      { t with values := t.values.set cycle (some value) } :: rest.map fun u =>
        { u with values := u.values.set cycle (some (s.view u.signal)) }

theorem recording_zero (c : Circuit) (n : Nat) :
    c.recording n 0 = c.outputs.map (Trace.unset · n) := by
  simp only [recording, Trace.unset, Nat.not_lt_zero, if_false, List.map_const', List.length_range]

/-- Writing the sample of cycle `t` takes the first `t` samples to the first `t + 1`. -/
theorem set_samples (sample : Nat → Option Bool) (n t : Nat) :
    ((List.range n).map fun i => if i < t then sample i else none).set t (sample t) =
      (List.range n).map fun i => if i < t + 1 then sample i else none := by
  refine List.ext_getElem (by simp) fun i _ _ => ?_
  rw [List.getElem_set]
  by_cases here : t = i
  · simp [here]
  · have : i < t ↔ i < t + 1 := by omega
    simp [here, this]

@[simp] theorem recording_signals (c : Circuit) (n cycles : Nat) :
    (c.recording n cycles).map (·.signal) = c.outputs := by
  simp [recording, Function.comp_def]

theorem recording_length {c : Circuit} {n cycles : Nat} {trace : Trace}
    (member : trace ∈ c.recording n cycles) : trace.length = n := by
  obtain ⟨o, -, rfl⟩ := List.mem_map.mp member
  simp [Trace.length]

/-- The samples of the cycles so far are what these cycles have left bound. -/
theorem recording_get? {c : Circuit} {n cycles : Nat} {trace : Trace}
    (member : trace ∈ c.recording n cycles) (i : Nat) :
    trace.get? i =
      if i < cycles ∧ i < n then some ((c.storeAfter i).view trace.signal) else none := by
  obtain ⟨o, -, rfl⟩ := List.mem_map.mp member
  by_cases inside : i < n
  · by_cases before : i < cycles <;> simp [Trace.get?, inside, before]
  · simp [Trace.get?, inside]

/-- Recording a cycle adds its sample to every output, if all of them are bound. -/
theorem record_recording {c : Circuit} {n t : Nat} (inside : t < n) :
    record t (c.storeAfter t) (c.recording n t) =
      (c.storeAfter t).require c.outputs (c.recording n (t + 1)) := by
  have fits : ∀ trace ∈ c.recording n t, t < trace.length := fun trace member => by
    rwa [recording_length member]
  rw [record_eq fits]
  have writes (o : String) := set_samples (fun i => some ((c.storeAfter i).view o)) n t
  rw [recording_signals]
  refine congrArg _ ?_
  simp only [recording, List.map_map, Function.comp_def, writes]

section

variable {c : Circuit} {n t : Nat}

theorem record_of_bound (inside : t < n) (bound : ∀ name ∈ c.outputs, name ∈ c.bound) :
    record t (c.storeAfter t) (c.recording n t) = .ok (c.recording n (t + 1)) := by
  rw [record_recording inside]
  exact Store.require_of_contains _ fun name member => contains_storeAfter.mpr (bound name member)

theorem record_of_unbound {name : String} {others : List String} (inside : t < n)
    (missing : c.outputs.filter (· ∉ c.bound) = name :: others) :
    record t (c.storeAfter t) (c.recording n t) = .error (.undefined name) := by
  have same (name : String) : (c.storeAfter t).contains name = true ↔ name ∈ c.bound :=
    contains_storeAfter
  have first := Update.find?_unbound same c.outputs
  rw [missing, List.head?_cons] at first
  rw [record_recording inside]
  exact Store.require_eq_error.mpr ⟨name, first, rfl⟩

end

end LatchSim.Circuit
