import LatchSim.Proofs.Influence

/-!
# Slices of a circuit

A slice keeps the outputs, latches and updates of a circuit whose names are in a set. If the
set is closed under dependency, what is kept reads nothing of what is left out. So the slice
runs where the circuit runs, and it shows the part of it that is in the set: `slice_runs`.
-/

namespace LatchSim

/-- The bindings of a store for the names that are accepted. -/
def Store.restrict (s : Store) (accept : String → Bool) : Store where
  bindings := s.bindings.filter fun b => accept b.1
  ordered := s.ordered.filter _

def Circuit.slice (c : Circuit) (S : Set String) [DecidablePred (· ∈ S)] : Circuit :=
  { c with
    outputs := c.outputs.filter (· ∈ S)
    latches := c.latches.filter (·.output ∈ S)
    updates := c.updates.filter (·.name ∈ S) }

variable {c : Circuit} {S : Set String} {s s' : Store} {name : String} {n t : Nat}

theorem Binding.lookup_filter (name : String) (accept : String → Bool) (bindings : List Binding) :
    (bindings.filter fun b => accept b.1).lookup name =
      if accept name then bindings.lookup name else none := by
  induction bindings with
  | nil => simp
  | cons b rest ih =>
    obtain ⟨other, value⟩ := b
    by_cases same : name = other
    · subst same
      by_cases accepted : accept name <;> simp_all
    · by_cases accepted : accept other <;> simp_all [lookup_cons]

theorem Store.get?_restrict (s : Store) (accept : String → Bool) (name : String) :
    (s.restrict accept).get? name = if accept name then s.get? name else none :=
  Binding.lookup_filter name accept s.bindings

/-! ## Writes that are left out -/

theorem Store.AgreeOn.skip {value : Bool} (agree : s.AgreeOn S s') (outside : name ∉ S) :
    (s.set name value).AgreeOn S s' := by
  intro other member
  have different : other ≠ name := fun same => outside (same ▸ member)
  rw [get?_set, if_neg different, agree other member]

variable [DecidablePred (· ∈ S)]

theorem Store.AgreeOn.setAll_filter (agree : s.AgreeOn S s') (bindings : List Binding) :
    (s.setAll bindings).AgreeOn S (s'.setAll (bindings.filter (·.1 ∈ S))) := by
  induction bindings generalizing s s' with
  | nil => exact agree
  | cons b rest ih =>
    by_cases kept : b.1 ∈ S
    · rw [List.filter_cons_of_pos (by simpa using kept)]
      exact ih (agree.set fun _ => rfl)
    · rw [List.filter_cons_of_neg (by simpa using kept)]
      exact ih (agree.skip kept)

namespace Update

variable {updates : List Update}
  (closed : ∀ u ∈ updates, u.name ∈ S → ∀ name ∈ u.expr.signals, name ∈ S)

include closed

/-- Updates outside a closed set do not show in it, whether they are made or not. -/
theorem settle_filter_agreeOn (agree : s.AgreeOn S s') :
    (settle updates s).AgreeOn S (settle (updates.filter (·.name ∈ S)) s') := by
  induction updates generalizing s s' with
  | nil => exact agree
  | cons u rest ih =>
    have rest_closed := fun v member => closed v (List.mem_cons_of_mem u member)
    by_cases kept : u.name ∈ S
    · rw [List.filter_cons_of_pos (by simpa using kept)]
      apply ih rest_closed
      exact agree.set fun target => agree.value (closed u List.mem_cons_self target)
    · rw [List.filter_cons_of_neg (by simpa using kept)]
      exact ih rest_closed (agree.skip kept)

/-- The references of updates within a closed set are answered by what is known within it. -/
theorem early_filter {known known' : List String} (within : ∀ name ∈ known, name ∈ S → name ∈ known')
    (resolved : early known updates = []) : early known' (updates.filter (·.name ∈ S)) = [] := by
  induction updates generalizing known known' with
  | nil => rfl
  | cons u rest ih =>
    obtain ⟨here, later⟩ := List.append_eq_nil_iff.mp resolved
    have rest_closed := fun v member => closed v (List.mem_cons_of_mem u member)
    by_cases kept : u.name ∈ S
    · rw [List.filter_cons_of_pos (by simpa using kept), early, List.append_eq_nil_iff]
      constructor
      · simp only [List.filter_eq_nil_iff, decide_not, Bool.not_eq_true', decide_eq_false_iff_not,
          Decidable.not_not] at here ⊢
        exact fun name read =>
          within name (here name read) (closed u List.mem_cons_self kept name read)
      · apply ih rest_closed ?_ later
        intro name member inside
        exact (List.mem_cons.mp member).elim (fun same => same ▸ List.mem_cons_self)
          fun member => List.mem_cons_of_mem _ (within name member inside)
    · rw [List.filter_cons_of_neg (by simpa using kept)]
      apply ih rest_closed ?_ later
      intro name member inside
      rcases List.mem_cons.mp member with rfl | member
      · exact absurd inside kept
      · exact within name member inside

end Update

namespace Circuit

/-! ## The cycles of a slice -/

theorem moves_slice (closed : c.Closed S) (agree : s.AgreeOn S s') :
    Latch.moves (c.slice S).latches s' = (Latch.moves c.latches s).filter (·.1 ∈ S) := by
  rw [Latch.moves, Latch.moves, List.filter_map]
  apply List.map_congr_left
  intro l member
  obtain ⟨inside, kept⟩ := List.mem_filter.mp member
  rw [agree.view (closed.latches l inside (by simpa using kept))]

theorem resets_slice : Latch.resets (c.slice S).latches =
    (Latch.resets c.latches).filter (·.1 ∈ S) := by
  rw [Latch.resets, Latch.resets, List.filter_map]
  rfl

theorem driven_slice {cycle : Nat} (agree : s.AgreeOn S s') :
    (c.driven cycle s).AgreeOn S ((c.slice S).driven cycle s') :=
  agree.setAll (List.forall₂_same.mpr fun _ _ => ⟨rfl, fun _ => rfl⟩)

/-- A slice on a closed set goes through its cycles as the circuit does. -/
theorem storeAfter_slice (closed : c.Closed S) (t : Nat) :
    (c.storeAfter t).AgreeOn S ((c.slice S).storeAfter t) := by
  induction t with
  | zero =>
    apply Update.settle_filter_agreeOn closed.updates
    rw [resets_slice]
    exact (driven_slice (.refl S .empty)).setAll_filter _
  | succ t ih =>
    apply Update.settle_filter_agreeOn closed.updates
    rw [advanced, advanced, moves_slice closed (driven_slice ih)]
    exact (driven_slice ih).setAll_filter _

/-! ## Which names a slice binds -/

theorem mem_map_filter {f : α → String} {xs : List α} :
    name ∈ (xs.filter (f · ∈ S)).map f ↔ name ∈ S ∧ name ∈ xs.map f := by
  have same : (xs.filter (f · ∈ S)).map f = (xs.map f).filter (· ∈ S) := by
    rw [List.filter_map]
    rfl
  rw [same, List.mem_filter, decide_eq_true_eq, and_comm]

theorem mem_sources_slice : name ∈ (c.slice S).sources ↔
    name ∈ c.stimuli.map (·.signal) ∨ name ∈ S ∧ name ∈ Latch.outputs c.latches := by
  rw [sources, List.mem_append]
  exact or_congr_right mem_map_filter

theorem mem_bound_slice : name ∈ (c.slice S).bound ↔
    name ∈ c.stimuli.map (·.signal) ∨ name ∈ S ∧ name ∈ c.bound := by
  rw [bound, List.mem_append, mem_sources_slice, bound, List.mem_append, sources, List.mem_append]
  have targets : name ∈ Update.targets (c.slice S).updates ↔ _ := mem_map_filter
  rw [targets]
  tauto

theorem Validated.slice (valid : c.Validated n) : (c.slice S).Validated n where
  distinct := by
    have kept : (c.slice S).declared.Sublist c.declared :=
      ((List.Sublist.refl _).append (List.filter_sublist.map _)).append (List.filter_sublist.map _)
    exact valid.distinct.sublist kept
  supplied := valid.supplied
  positive := valid.positive
  lengths := valid.lengths
  shallow u member := valid.shallow u (List.mem_of_mem_filter member)
  inputs := valid.inputs
  complete := valid.complete

/-- A slice on a closed set completes the cycles that the circuit completes. -/
theorem Completes.slice (closed : c.Closed S) (done : c.Completes n t) :
    (c.slice S).Completes n t where
  valid := done.valid.slice
  inside := done.inside
  resolved := by
    rw [unresolved, List.append_eq_nil_iff]
    constructor
    · apply Update.early_filter closed.updates ?_ done.updates
      intro name source inside
      apply mem_sources_slice.mpr
      exact (List.mem_append.mp source).imp_right fun output => ⟨inside, output⟩
    · apply List.filter_eq_nil_iff.mpr
      intro name output
      obtain ⟨member, kept⟩ := List.mem_filter.mp output
      have known := mem_bound_slice.mpr (.inr ⟨of_decide_eq_true kept, done.outputs member⟩)
      simpa using known
  inputs later := by
    apply List.filter_eq_nil_iff.mpr
    intro name read
    obtain ⟨l, member, rfl⟩ := List.mem_map.mp read
    obtain ⟨member, kept⟩ := List.mem_filter.mp member
    have input : l.input ∈ c.bound := by
      have none := List.filter_eq_nil_iff.mp (done.inputs later)
      simpa using none l.input (List.mem_map.mpr ⟨l, member, rfl⟩)
    have inside := closed.latches l member (of_decide_eq_true kept)
    simpa using mem_bound_slice.mpr (.inr ⟨inside, input⟩)

/-- Whether a slice shows a name, if the circuit binds it. -/
def shows (c : Circuit) (S : Set String) [DecidablePred (· ∈ S)] (name : String) : Bool :=
  name ∈ c.stimuli.map (·.signal) || name ∈ S

theorem storeAfter_slice_eq (closed : c.Closed S) (done : c.Completes n t) :
    (c.slice S).storeAfter t = (c.storeAfter t).restrict (c.shows S) := by
  apply Store.ext_get?
  intro name
  rw [Store.get?_restrict]
  by_cases stimulus : name ∈ c.stimuli.map (·.signal)
  · obtain ⟨trace, drives⟩ := exists_stimulus stimulus
    have part := storeAfter_stimulus (done.slice closed).valid done.inside drives
    rw [part, storeAfter_stimulus done.valid done.inside drives]
    simp [shows, stimulus]
  · by_cases inside : name ∈ S
    · rw [storeAfter_slice closed t name inside]
      simp [shows, inside]
    · have unbound : ¬ ((c.slice S).storeAfter t).contains name = true := by
        rw [contains_storeAfter, mem_bound_slice]
        simp [stimulus, inside]
      rw [Store.get?_of_not_contains unbound]
      simp [shows, stimulus, inside]

theorem recording_slice (closed : c.Closed S) (n cycles : Nat) :
    (c.slice S).recording n cycles = (c.recording n cycles).filter (·.signal ∈ S) := by
  rw [recording, recording, List.filter_map]
  apply List.map_congr_left
  intro o member
  have inside : o ∈ S := by simpa using (List.mem_filter.mp member).2
  have views (t : Nat) : ((c.slice S).storeAfter t).view o = (c.storeAfter t).view o :=
    (storeAfter_slice closed t).view inside
  simp only [views]

end Circuit

/-- A slice on a closed set is as good as the circuit to whoever looks at the set only. If the
circuit runs, so does the slice, for as many cycles. It answers the output traces of the set
and ends with the store of the circuit restricted to the stimuli and the set, as it does after
every cycle on the way. -/
theorem slice_runs {traces : List Trace} (closed : c.Closed S)
    (ok : (Simulator.ofCircuit c).run.result = .ok traces) :
    let whole := (Simulator.ofCircuit c).run
    let part := (Simulator.ofCircuit (c.slice S)).run
    part.result = .ok (traces.filter (·.signal ∈ S)) ∧
      part.simulator.length = whole.simulator.length ∧
      part.simulator.store = whole.simulator.store.restrict (c.shows S) ∧
      ∀ live t, Reachable c live → live.cycle? = some t →
        ∃ kept, Reachable (c.slice S) kept ∧ kept.cycle? = some t ∧
          kept.store = live.store.restrict (c.shows S) := by
  obtain ⟨n, done, rfl, simulator⟩ := Circuit.completes_of_run ok
  obtain ⟨result, simulator'⟩ := Circuit.run_of_completes (done.slice closed)
  refine ⟨?_, ?_, ?_, ?_⟩
  · rw [← Circuit.recording_slice closed]
    exact result
  · rw [simulator, simulator']
    rfl
  · rw [simulator, simulator']
    exact Circuit.storeAfter_slice_eq closed done
  · intro live t reach last
    obtain ⟨m, here, rfl⟩ := reach.completed last
    exact ⟨(c.slice S).simulatorAfter m t, .simulatorAfter (here.slice closed),
      Circuit.cycle?_simulatorAfter here.inside, Circuit.storeAfter_slice_eq closed here⟩

instance : DecidablePred (· ∈ ringCore) := fun name =>
  decidable_of_iff (name = "n" ∨ name = "p" ∨ name = "q") (by simp [ringCore])

/-- The ring without the gates that look at it. -/
theorem ring_slice_runs :
    ring.Closed ringCore ∧
      (Simulator.ofCircuit ring).run.result =
        .ok [⟨"p", [some false, some true, some true]⟩,
          ⟨"both", [some false, some false, some true]⟩] ∧
      (ring.slice ringCore).updates = [⟨"n", .not (.signal "q")⟩] ∧
      (Simulator.ofCircuit (ring.slice ringCore)).run.result =
        .ok [⟨"p", [some false, some true, some true]⟩] := by
  have closed : ring.Closed ringCore := by
    constructor <;> simp [ring, ringCore, Expr.signals]
  have ok : (Simulator.ofCircuit ring).run.result =
      .ok [⟨"p", [some false, some true, some true]⟩,
        ⟨"both", [some false, some false, some true]⟩] := by decide +kernel
  obtain ⟨result, _⟩ := slice_runs closed ok
  exact ⟨closed, ok, by decide, result.trans (congrArg Except.ok (by decide))⟩

end LatchSim
