import Mathlib.Control.Monad.Basic
import LatchSim.Proofs.Run
import LatchSim.Proofs.Signals

/-!
# Combinational logic

Updates are evaluated one by one against a store that the later ones still write, and that
holds what the last cycle left in it. Neither shows between the cycles. There every update
equation holds at once, so that updates applied again change nothing: `updates_hold`. And
what a cycle computes depends on the store before it through the latch inputs alone:
`nextCycle_forgets`.
-/

namespace LatchSim

variable {c : Circuit} {n t : Nat}

namespace Circuit

/-! ## Equations between the cycles -/

/-- An update reads nothing but what the cycle binds. -/
theorem Completes.reads_bound (done : c.Completes n t) {u : Update} (member : u ∈ c.updates)
    {name : String} (read : name ∈ u.expr.signals) : name ∈ c.bound := by
  obtain ⟨k, here⟩ := List.getElem?_of_mem member
  rcases Update.early_eq_nil_iff.mp done.updates k u here name read with source | earlier
  · exact mem_bound_of_source source
  · obtain ⟨v, inside, rfl⟩ := List.mem_map.mp earlier
    exact List.mem_append_right _ (List.mem_map.mpr ⟨v, List.mem_of_mem_take inside, rfl⟩)

theorem Completes.holds (done : c.Completes n t) {u : Update} (member : u ∈ c.updates) :
    u.Holds (c.storeAfter t) := by
  have target : u.name ∈ c.bound :=
    List.mem_append_right _ (List.mem_map.mpr ⟨u, member, rfl⟩)
  refine Update.holds_of_view (fun name read => ?_) (contains_storeAfter.mpr target)
    (storeAfter_target done.valid done.updates member)
  exact contains_storeAfter.mpr (done.reads_bound member read)

/-! ## What a cycle reads -/

variable {cycle : Nat} {s s' : Store}

theorem driven_congr {name : String}
    (agree : name ∉ c.stimuli.map (·.signal) → s.get? name = s'.get? name) :
    (c.driven cycle s).get? name = (c.driven cycle s').get? name := by
  refine Store.get?_setAll_congr ?_
  rw [samples_names]
  by_cases stimulus : name ∈ c.stimuli.map (·.signal)
  · exact .inl stimulus
  · exact .inr (agree stimulus)

section

variable (agree : ∀ l ∈ c.latches, l.input ∉ c.stimuli.map (·.signal) →
  s.get? l.input = s'.get? l.input)

include agree

theorem driven_input_congr {l : Latch} (member : l ∈ c.latches) :
    (c.driven cycle s).view l.input = (c.driven cycle s').view l.input := by
  rw [Store.view, Store.view, driven_congr (agree l member)]

theorem moves_congr :
    Latch.moves c.latches (c.driven cycle s) = Latch.moves c.latches (c.driven cycle s') :=
  List.map_congr_left fun l member => by rw [driven_input_congr agree member]

theorem moveLog_congr :
    Latch.moveLog c.latches (c.driven cycle s) = Latch.moveLog c.latches (c.driven cycle s') :=
  List.map_congr_left fun l member => by rw [driven_input_congr agree member]

/-- When the updates begin, two stores can differ only in what an update is going to write. -/
theorem advanced_congr (same : ∀ name, s.contains name = true ↔ name ∈ c.bound)
    (same' : ∀ name, s'.contains name = true ↔ name ∈ c.bound) {name : String}
    (untouched : name ∉ Update.targets c.updates) :
    (c.advanced cycle s).get? name = (c.advanced cycle s').get? name := by
  rw [advanced, advanced, moves_congr agree]
  refine Store.get?_setAll_congr ?_
  rw [Latch.moves_names]
  by_cases output : name ∈ Latch.outputs c.latches
  · exact .inl output
  · refine .inr (driven_congr fun stimulus => ?_)
    have unbound : name ∉ c.bound := by
      simp only [bound, sources, List.mem_append, not_or]
      exact ⟨⟨stimulus, output⟩, untouched⟩
    rw [Store.get?_of_not_contains (mt (same name).mp unbound),
      Store.get?_of_not_contains (mt (same' name).mp unbound)]

theorem nextCycle_congr (valid : c.Validated n) (inside : cycle < n)
    (resolved : Update.early c.sources c.updates = []) (inputs : c.unresolvedInputs = [])
    (same : ∀ name, s.contains name = true ↔ name ∈ c.bound)
    (same' : ∀ name, s'.contains name = true ↔ name ∈ c.bound) :
    c.nextCycle cycle s = c.nextCycle cycle s' := by
  have readable {s : Store} (same : ∀ name, s.contains name = true ↔ name ∈ c.bound) :
      ∀ name ∈ Latch.inputs c.latches, (c.driven cycle s).contains name = true := by
    have first : (Latch.inputs c.latches).find?
        (fun name => ! (c.driven cycle s).contains name) = c.unresolvedInputs.head? :=
      find?_unbound_input same
    rw [inputs, List.head?_nil] at first
    simpa using first
  have updates : Update.applyAll c.updates (c.advanced cycle s) =
      Update.applyAll c.updates (c.advanced cycle s') :=
    Update.applyAll_congr (valid.ordered resolved)
      (fun name source => contains_advanced.mpr (.inl source))
      (fun name untouched => advanced_congr agree same same' untouched)
  rw [nextCycle, nextCycle, moved_of_bound valid inside (readable same),
    moved_of_bound valid inside (readable same'), moveLog_congr agree]
  simp only [Outcome.andThen, updates]

end

end Circuit

/-- Whenever a cycle is complete, all update equations hold in the store. So updates that are
applied again, some or all of them, in any order and any number of times, change nothing. -/
theorem updates_hold {sim : Simulator} (reach : Reachable c sim) (begun : sim.phase ≠ .fresh)
    (unfailed : sim.phase ≠ .failed) :
    (∀ u ∈ c.updates, u.Holds sim.store) ∧
      ∀ again : List Update, (∀ u ∈ again, u ∈ c.updates) →
        (Update.applyAll again sim.store).fault? = none ∧
          (Update.applyAll again sim.store).store = sim.store := by
  cases reach.stage with
  | fresh => exact absurd rfl begun
  | after done =>
    have holds : ∀ u ∈ c.updates, u.Holds (c.storeAfter _) := fun u => done.holds
    refine ⟨holds, fun again members => ?_⟩
    exact Update.applyAll_of_holds fun u member => holds u (members u member)
  | failed ended => exact absurd ended unfailed

/-- Two registers in a ring closed by an inverter, with gates that look at them. -/
def ring : Circuit where
  name := "ring"
  inputs := ["a"]
  outputs := ["p", "both"]
  latches := [⟨"n", "p"⟩, ⟨"p", "q"⟩]
  updates := [⟨"n", .not (.signal "q")⟩, ⟨"gate", .and (.signal "a") (.signal "p")⟩,
    ⟨"both", .and (.signal "gate") (.signal "q")⟩]
  stimuli := [⟨"a", [some true, some false, some true]⟩]

/-- Two of the equations applied again out of order, one of them twice. -/
theorem ring_updates_hold :
    Reachable ring ring.started ∧ ring.started.phase ≠ .fresh ∧ ring.started.phase ≠ .failed ∧
      ⟨"n", .not (.signal "q")⟩ ∈ ring.updates ∧
      ring.started.store.read "n" = .ok true ∧
      (Update.applyAll [⟨"both", .and (.signal "gate") (.signal "q")⟩,
        ⟨"n", .not (.signal "q")⟩, ⟨"n", .not (.signal "q")⟩] ring.started.store).store =
          ring.started.store := by
  have reach : Reachable ring ring.started := .after .start .fresh
  have begun : ring.started.phase ≠ .fresh := by decide +kernel
  have unfailed : ring.started.phase ≠ .failed := by decide +kernel
  have member : ⟨"n", .not (.signal "q")⟩ ∈ ring.updates := List.mem_cons_self
  obtain ⟨holds, unchanged⟩ := updates_hold reach begun unfailed
  obtain ⟨value, evaluated, read⟩ := holds _ member
  have high : (Expr.not (.signal "q")).eval ring.started.store = .ok true := by decide +kernel
  obtain rfl : true = value := Except.ok.inj (high.symm.trans evaluated)
  exact ⟨reach, begun, unfailed, member, read, (unchanged _ (by decide)).2⟩

/-- A cycle forgets. From any two stores that bind the names of the circuit and agree on the
latch inputs that no trace drives, it stops at the same fault or does the same throughout. -/
theorem nextCycle_forgets {s s' : Store} (ok : (Simulator.ofCircuit c).start.result = .ok ())
    (inside : t < c.started.length)
    (same : ∀ name, s.contains name = c.started.store.contains name)
    (same' : ∀ name, s'.contains name = c.started.store.contains name)
    (agree : ∀ l ∈ c.latches, l.input ∉ c.stimuli.map (·.signal) →
      s.get? l.input = s'.get? l.input) :
    (∃ fault, (c.nextCycle t s).fault? = some fault ∧ (c.nextCycle t s').fault? = some fault) ∨
      (c.nextCycle t s).fault? = none ∧ c.nextCycle t s = c.nextCycle t s' := by
  obtain ⟨n, done, started⟩ := Circuit.completes_of_start ok
  rw [started] at inside same same'
  have names {s : Store} (same : ∀ name, s.contains name = (c.storeAfter 0).contains name)
      (name : String) : s.contains name = true ↔ name ∈ c.bound := by
    rw [same, Circuit.contains_storeAfter]
  have fault {s : Store} (same : ∀ name, s.contains name = (c.storeAfter 0).contains name) :
      (c.nextCycle t s).fault? = c.unresolvedInputs.head?.map .undefined :=
    Circuit.nextCycle_fault? done.valid inside done.updates (names same)
  cases missing : c.unresolvedInputs with
  | nil =>
    refine .inr ⟨by rw [fault same, missing]; rfl, ?_⟩
    exact Circuit.nextCycle_congr agree done.valid inside done.updates missing (names same)
      (names same')
  | cons name others =>
    refine .inl ⟨.undefined name, ?_, ?_⟩
    · rw [fault same, missing]
      rfl
    · rw [fault same', missing]
      rfl

/-- The ring after its first cycle, with all that no register samples turned over. -/
def ringDisturbed : Store :=
  .ofList [("a", false), ("p", false), ("q", true), ("n", true), ("gate", true), ("both", true)]

theorem ring_forgets :
    (Simulator.ofCircuit ring).start.result = .ok () ∧ 1 < ring.started.length ∧
      ring.started.store ≠ ringDisturbed ∧
      (∀ name, ringDisturbed.contains name = ring.started.store.contains name) ∧
      (∀ l ∈ ring.latches, l.input ∉ ring.stimuli.map (·.signal) →
        ring.started.store.get? l.input = ringDisturbed.get? l.input) ∧
      ring.nextCycle 1 ring.started.store = ring.nextCycle 1 ringDisturbed := by
  have ok : (Simulator.ofCircuit ring).start.result = .ok () := by decide +kernel
  have inside : 1 < ring.started.length := by decide +kernel
  have store : ring.started.store = .ofList [("a", true), ("p", false), ("q", false), ("n", true),
      ("gate", false), ("both", false)] := by decide +kernel
  have same (name : String) :
      ringDisturbed.contains name = ring.started.store.contains name := by
    simp only [store, ringDisturbed, Store.ofList, List.foldl_cons, List.foldl_nil,
      Store.contains_set]
  have agree : ∀ l ∈ ring.latches, l.input ∉ ring.stimuli.map (·.signal) →
      ring.started.store.get? l.input = ringDisturbed.get? l.input := by decide +kernel
  refine ⟨ok, inside, by decide +kernel, same, agree, ?_⟩
  rcases nextCycle_forgets ok inside (fun _ => rfl) same agree with ⟨fault, stopped, _⟩ | ⟨_, alike⟩
  · have none : (ring.nextCycle 1 ring.started.store).fault? = none := by decide +kernel
    rw [none] at stopped
    cases stopped
  · exact alike

end LatchSim
