import Mathlib.Data.Set.Insert
import LatchSim.Proofs.Combinational
import LatchSim.Proofs.History
import LatchSim.Proofs.Lockstep

/-!
# What samples can influence

Two circuits that differ in nothing but samples are run side by side. Samples reach forward
in time only: `causality`. And they reach only the signals that depend on them, through updates
within a cycle and through latches from one cycle to the next: `noninterference`. Both rest on
`Circuit.storeAfter_agreeOn`, which follows a set of names that is closed under dependency
through the cycles.
-/

namespace LatchSim

variable {c : Circuit} {S : Set String} {s s' : Store} {stimuli : List Trace} {n m t : Nat}

/-! ## Agreement on some names -/

/-- Two stores bind the names of a set alike. -/
def Store.AgreeOn (S : Set String) (s s' : Store) : Prop := ∀ name ∈ S, s'.get? name = s.get? name

/-- Two writes to one name, of the same value if the name is in a set. -/
def Binding.AlikeOn (S : Set String) (b b' : Binding) : Prop :=
  b'.1 = b.1 ∧ (b.1 ∈ S → b'.2 = b.2)

namespace Store.AgreeOn

theorem refl (S : Set String) (s : Store) : s.AgreeOn S s := fun _ _ => rfl

theorem set {name : String} {value value' : Bool} (agree : s.AgreeOn S s')
    (same : name ∈ S → value' = value) : (s.set name value).AgreeOn S (s'.set name value') := by
  intro other member
  by_cases here : other = name
  · subst other
    simp [same member]
  · simp [here, agree other member]

theorem setAll {bindings bindings' : List Binding} (agree : s.AgreeOn S s')
    (alike : List.Forall₂ (Binding.AlikeOn S) bindings bindings') :
    (s.setAll bindings).AgreeOn S (s'.setAll bindings') := by
  induction alike generalizing s s' with
  | nil => exact agree
  | @cons b b' rest rest' first _ ih =>
    obtain ⟨name, value⟩ := b
    obtain ⟨_, value'⟩ := b'
    obtain ⟨rfl, same⟩ := first
    exact ih (agree.set same)

theorem view (agree : s.AgreeOn S s') {name : String} (member : name ∈ S) :
    s'.view name = s.view name := by
  simp [Store.view, agree name member]

theorem value (agree : s.AgreeOn S s') {e : Expr} (reads : ∀ name ∈ e.signals, name ∈ S) :
    e.value s'.view = e.value s.view :=
  Expr.value_congr fun name read => agree.view (reads name read)

end Store.AgreeOn

/-! ## Sets of names that depend on no others -/

/-- The names that an update or a latch with a target in the set reads are in the set too. -/
structure Circuit.Closed (c : Circuit) (S : Set String) : Prop where
  updates : ∀ u ∈ c.updates, u.name ∈ S → ∀ name ∈ u.expr.signals, name ∈ S
  latches : ∀ l ∈ c.latches, l.output ∈ S → l.input ∈ S

theorem Circuit.closed_univ (c : Circuit) : c.Closed Set.univ := by
  constructor <;> simp

namespace Update

variable {updates : List Update}

theorem settle_agreeOn
    (closed : ∀ u ∈ updates, u.name ∈ S → ∀ name ∈ u.expr.signals, name ∈ S)
    (agree : s.AgreeOn S s') : (settle updates s).AgreeOn S (settle updates s') := by
  induction updates generalizing s s' with
  | nil => exact agree
  | cons u rest ih =>
    apply ih fun v member => closed v (List.mem_cons_of_mem u member)
    exact agree.set fun target => agree.value (closed u List.mem_cons_self target)

/-- Updates that fail, fail in two stores with the same names at the same update, and leave
them in agreement as well. -/
theorem applyAll_agreeOn
    (closed : ∀ u ∈ updates, u.name ∈ S → ∀ name ∈ u.expr.signals, name ∈ S)
    (names : ∀ name, s'.contains name = s.contains name) (agree : s.AgreeOn S s') :
    (applyAll updates s).store.AgreeOn S (applyAll updates s').store := by
  induction updates generalizing s s' with
  | nil => exact agree
  | cons u rest ih =>
    have first : u.expr.signals.find? (fun name => ! s'.contains name) =
        u.expr.signals.find? fun name => ! s.contains name := by simp only [names]
    cases missing : u.expr.signals.find? fun name => ! s.contains name with
    | some name =>
      rw [applyAll, applyAll, apply_of_unbound missing, apply_of_unbound (first.trans missing)]
      exact agree
    | none =>
      have bound : ∀ name ∈ u.expr.signals, s.contains name = true := by simpa using missing
      have boundToo : ∀ name ∈ u.expr.signals, s'.contains name = true := by
        simpa [names] using bound
      rw [applyAll, applyAll, apply_of_bound bound, apply_of_bound boundToo,
        Outcome.write_andThen, Outcome.write_andThen]
      apply ih fun v member => closed v (List.mem_cons_of_mem u member)
      · intro name
        simp [Store.contains_set, names]
      · exact agree.set fun target => agree.value (closed u List.mem_cons_self target)

end Update

/-! ## Cycles with other samples -/

/-- A circuit with other traces in place of its own. -/
def Circuit.withStimuli (c : Circuit) (stimuli : List Trace) : Circuit :=
  { c with stimuli := stimuli }

/-- Two traces of one signal that show it alike in a cycle if it is in a set. -/
def Trace.ShowAlike (S : Set String) (cycle : Nat) (a b : Trace) : Prop :=
  b.signal = a.signal ∧ (a.signal ∈ S → b.get? cycle = a.get? cycle)

namespace Circuit

theorem samples_alikeOn {cycle : Nat} {traces traces' : List Trace}
    (alike : List.Forall₂ (Trace.ShowAlike S cycle) traces traces') :
    List.Forall₂ (Binding.AlikeOn S) (samples cycle traces) (samples cycle traces') := by
  rw [samples, samples, List.forall₂_map_left_iff, List.forall₂_map_right_iff]
  refine alike.imp fun a b same => ⟨same.1, fun member => ?_⟩
  simp [same.2 member]

theorem driven_agreeOn {cycle : Nat}
    (alike : List.Forall₂ (Trace.ShowAlike S cycle) c.stimuli stimuli) (agree : s.AgreeOn S s') :
    (c.driven cycle s).AgreeOn S ((c.withStimuli stimuli).driven cycle s') :=
  agree.setAll (samples_alikeOn alike)

theorem reset_agreeOn (alike : List.Forall₂ (Trace.ShowAlike S 0) c.stimuli stimuli) :
    ((c.driven 0 .empty).setAll (Latch.resets c.latches)).AgreeOn S
      (((c.withStimuli stimuli).driven 0 .empty).setAll (Latch.resets c.latches)) := by
  apply (driven_agreeOn alike (.refl S .empty)).setAll
  exact List.forall₂_same.mpr fun _ _ => ⟨rfl, fun _ => rfl⟩

theorem advanced_agreeOn {cycle : Nat} (closed : c.Closed S)
    (alike : List.Forall₂ (Trace.ShowAlike S cycle) c.stimuli stimuli) (agree : s.AgreeOn S s') :
    (c.advanced cycle s).AgreeOn S ((c.withStimuli stimuli).advanced cycle s') := by
  have driven : (c.driven cycle s).AgreeOn S ((c.withStimuli stimuli).driven cycle s') :=
    driven_agreeOn alike agree
  apply driven.setAll
  rw [Latch.moves, Latch.moves, List.forall₂_map_left_iff, List.forall₂_map_right_iff]
  apply List.forall₂_same.mpr
  intro l member
  exact ⟨rfl, fun output => driven.view (closed.latches l member output)⟩

/-- Stores that agree on a closed set before a cycle agree on it after the cycle. -/
theorem next_agreeOn {cycle : Nat} (closed : c.Closed S)
    (alike : List.Forall₂ (Trace.ShowAlike S cycle) c.stimuli stimuli) (agree : s.AgreeOn S s') :
    (c.next cycle s).AgreeOn S ((c.withStimuli stimuli).next cycle s') :=
  Update.settle_agreeOn closed.updates (advanced_agreeOn closed alike agree)

/-- On a closed set the store after a cycle depends on the samples that its names have had up
to this cycle, and on no others. -/
theorem storeAfter_agreeOn (closed : c.Closed S)
    (alike : ∀ i ≤ t, List.Forall₂ (Trace.ShowAlike S i) c.stimuli stimuli) :
    (c.storeAfter t).AgreeOn S ((c.withStimuli stimuli).storeAfter t) := by
  induction t with
  | zero => exact Update.settle_agreeOn closed.updates (reset_agreeOn (alike 0 (Nat.le_refl 0)))
  | succ t ih =>
    apply next_agreeOn closed (alike (t + 1) (Nat.le_refl _))
    exact ih fun i before => alike i (Nat.le_succ_of_le before)

/-! ## Which cycles are completed -/

section

variable (signals : stimuli.map (·.signal) = c.stimuli.map (·.signal))

include signals

theorem sources_withStimuli : (c.withStimuli stimuli).sources = c.sources :=
  congrArg (· ++ Latch.outputs c.latches) signals

theorem bound_withStimuli : (c.withStimuli stimuli).bound = c.bound :=
  congrArg (· ++ Update.targets c.updates) (sources_withStimuli signals)

theorem unresolved_withStimuli : (c.withStimuli stimuli).unresolved = c.unresolved := by
  rw [unresolved, sources_withStimuli signals, bound_withStimuli signals]
  rfl

theorem unresolvedInputs_withStimuli :
    (c.withStimuli stimuli).unresolvedInputs = c.unresolvedInputs := by
  rw [unresolvedInputs, bound_withStimuli signals]
  rfl

/-- Which cycles are completed does not depend on the samples. -/
theorem completes_withStimuli (valid : (c.withStimuli stimuli).Validated m) (inside : t < m)
    (done : c.Completes n t) : (c.withStimuli stimuli).Completes m t :=
  ⟨valid, inside, (unresolved_withStimuli signals).trans done.resolved, fun later =>
    (unresolvedInputs_withStimuli signals).trans (done.inputs later)⟩

end

theorem reached_iff (valid : c.Validated n) :
    (∃ sim, Reachable c sim ∧ sim.cycle? = some t) ↔ c.Completes n t := by
  constructor
  · rintro ⟨sim, reach, last⟩
    obtain ⟨m, done, _⟩ := reach.completed last
    obtain rfl := valid.unique done.valid
    exact done
  · intro done
    exact ⟨_, .simulatorAfter done, cycle?_simulatorAfter done.inside⟩

end Circuit

theorem map_eq_of_forall₂ {R : Trace → Trace → Prop} {f : Trace → α} {traces traces' : List Trace}
    (same : ∀ a b, R a b → f b = f a) (alike : List.Forall₂ R traces traces') :
    traces'.map f = traces.map f := by
  induction alike with
  | nil => rfl
  | cons first _ ih => simp [same _ _ first, ih]

/-! ## Forward in time -/

theorem Trace.AgreeUpTo.showAlike {a b : Trace} {i : Nat} (agree : a.AgreeUpTo t b)
    (before : i ≤ t) : a.ShowAlike S i b :=
  ⟨agree.signal, fun _ => agree.samples i before⟩

/-- Samples do not act back. Where the traces of two circuits agree up to a cycle, both come
to complete it or neither does, the stores after it are the same, and so are the recorded
samples up to it, then and at any later time. -/
theorem causality (valid : c.validate = .ok n) (validToo : (c.withStimuli stimuli).validate = .ok m)
    (agree : List.Forall₂ (Trace.AgreeUpTo t) c.stimuli stimuli) (inside : t < min n m) :
    ((∃ sim, Reachable c sim ∧ sim.cycle? = some t) ↔
      ∃ sim, Reachable (c.withStimuli stimuli) sim ∧ sim.cycle? = some t) ∧
    (∀ sim sim', Reachable c sim → Reachable (c.withStimuli stimuli) sim' →
      sim.cycle? = some t → sim'.cycle? = some t → sim'.store = sim.store) ∧
    ∀ sim sim' u u', Reachable c sim → Reachable (c.withStimuli stimuli) sim' →
      sim.cycle? = some u → sim'.cycle? = some u' → t ≤ u → t ≤ u' →
      List.Forall₂ (Trace.AgreeUpTo t) sim.recorded sim'.recorded := by
  have checked := Circuit.validate_eq_ok.mp valid
  have checkedToo := Circuit.validate_eq_ok.mp validToo
  have signals := map_eq_of_forall₂ (fun _ _ same => same.signal) agree
  have stores : ∀ i ≤ t, (c.withStimuli stimuli).storeAfter i = c.storeAfter i := by
    intro i before
    have same : (c.storeAfter i).AgreeOn Set.univ ((c.withStimuli stimuli).storeAfter i) :=
      Circuit.storeAfter_agreeOn c.closed_univ fun j earlier =>
        agree.imp fun a b agree => agree.showAlike (Nat.le_trans earlier before)
    exact Store.ext_get? fun name => same name (Set.mem_univ name)
  refine ⟨?_, ?_, ?_⟩
  · rw [Circuit.reached_iff checked, Circuit.reached_iff checkedToo]
    constructor
    · exact Circuit.completes_withStimuli signals checkedToo (by omega)
    · exact Circuit.completes_withStimuli (c := c.withStimuli stimuli) signals.symm checked
        (by omega)
  · intro sim sim' reach reachToo last lastToo
    obtain ⟨_, _, rfl⟩ := reach.completed last
    obtain ⟨_, _, rfl⟩ := reachToo.completed lastToo
    exact stores t (Nat.le_refl t)
  · intro sim sim' u u' reach reachToo last lastToo later laterToo
    obtain ⟨_, done, rfl⟩ := reach.completed last
    obtain ⟨_, doneToo, rfl⟩ := reachToo.completed lastToo
    have within := done.inside
    have withinToo := doneToo.inside
    have views : ∀ i ≤ t, ((c.withStimuli stimuli).storeAfter i).view = (c.storeAfter i).view :=
      fun i before => by rw [stores i before]
    exact Circuit.recording_agreeUpTo (d := c.withStimuli stimuli) rfl views (by omega) (by omega)

/-- Other samples for the ring, with a cycle more and another value after the second. -/
def ringStimuli : List Trace := [⟨"a", [some true, some false, some false, some true]⟩]

theorem ring_causality :
    ring.validate = .ok 3 ∧ (ring.withStimuli ringStimuli).validate = .ok 4 ∧
      List.Forall₂ (Trace.AgreeUpTo 1) ring.stimuli ringStimuli ∧ 1 < min 3 4 ∧
      ((Simulator.ofCircuit (ring.withStimuli ringStimuli)).after [.start, .step]).store =
        ((Simulator.ofCircuit ring).after [.start, .step]).store ∧
      List.Forall₂ (Trace.AgreeUpTo 1)
        ((Simulator.ofCircuit ring).after [.start, .step]).recorded
        ((Simulator.ofCircuit (ring.withStimuli ringStimuli)).after [.run]).recorded := by
  have valid : ring.validate = .ok 3 := by decide +kernel
  have validToo : (ring.withStimuli ringStimuli).validate = .ok 4 := by decide +kernel
  have agree : List.Forall₂ (Trace.AgreeUpTo 1) ring.stimuli ringStimuli :=
    .cons ⟨rfl, by decide⟩ .nil
  have inside : 1 < min 3 4 := by decide
  have reach {c : Circuit} (calls : List Call) := Reachable.calls (c := c) .fresh calls
  obtain ⟨_, stores, recorded⟩ := causality valid validToo agree inside
  refine ⟨valid, validToo, agree, inside, ?_, ?_⟩
  · exact stores _ _ (reach [.start, .step]) (reach [.start, .step]) (by decide +kernel)
      (by decide +kernel)
  · exact recorded _ _ 1 3 (reach [.start, .step]) (reach [.run]) (by decide +kernel)
      (by decide +kernel) (by decide) (by decide)

/-! ## Along the dependencies -/

/-- Two traces of one signal and one length, which are the same trace if the signal is in a set. -/
structure Trace.AlikeOn (S : Set String) (a b : Trace) : Prop where
  signal : b.signal = a.signal
  length : b.length = a.length
  same : a.signal ∈ S → b = a

theorem Trace.AlikeOn.showAlike {a b : Trace} (alike : a.AlikeOn S b) (i : Nat) :
    a.ShowAlike S i b :=
  ⟨alike.signal, fun member => by rw [alike.same member]⟩

namespace Circuit

theorem length_withStimuli (alike : List.Forall₂ (Trace.AlikeOn S) c.stimuli stimuli)
    (valid : c.Validated n) (validToo : (c.withStimuli stimuli).Validated m) : m = n := by
  have lengths := map_eq_of_forall₂ (fun _ _ same => same.length) alike
  obtain ⟨trace, member⟩ := List.exists_mem_of_ne_nil _ validToo.supplied
  have known : trace.length ∈ c.stimuli.map Trace.length := lengths ▸ List.mem_map_of_mem member
  obtain ⟨other, memberToo, same⟩ := List.mem_map.mp known
  rw [← validToo.lengths trace member, ← same, valid.lengths other memberToo]

/-- Outputs of a closed set are recorded alike. -/
theorem recording_alikeOn {cycles : Nat}
    (agree : ∀ t, (c.storeAfter t).AgreeOn S ((c.withStimuli stimuli).storeAfter t)) :
    List.Forall₂ (Trace.AlikeOn S) (c.recording n cycles)
      ((c.withStimuli stimuli).recording n cycles) := by
  refine recording_forall₂ (d := c.withStimuli stimuli) rfl fun a left b right same => ?_
  have length : b.length = a.length := by rw [recording_length left, recording_length right]
  refine ⟨same, length, fun member => ?_⟩
  obtain ⟨o, -, rfl⟩ := List.mem_map.mp left
  obtain ⟨other, -, rfl⟩ := List.mem_map.mp right
  obtain rfl : other = o := same
  have views (t : Nat) := (agree t).view member
  simp only [views]

theorem firstCycle_agreeOn (closed : c.Closed S)
    (alike : List.Forall₂ (Trace.ShowAlike S 0) c.stimuli stimuli) (valid : c.Validated n)
    (validToo : (c.withStimuli stimuli).Validated m) :
    c.firstCycle.store.AgreeOn S (c.withStimuli stimuli).firstCycle.store := by
  have signals := map_eq_of_forall₂ (fun _ _ same => same.1) alike
  rw [firstCycle_eq valid, firstCycle_eq validToo]
  apply Update.applyAll_agreeOn closed.updates ?_ (reset_agreeOn alike)
  intro name
  rw [Bool.eq_iff_iff, contains_reset, ← sources_withStimuli signals]
  exact contains_reset (c := c.withStimuli stimuli)

end Circuit

/-- Simulators of two circuits at the same place. Where both have failed, they still agree on
the set. -/
inductive Paired (S : Set String) (c c' : Circuit) : Simulator → Simulator → Prop where
  | fresh : Paired S c c' (.ofCircuit c) (.ofCircuit c')
  | after {length cycle : Nat} : c.Completes length cycle → c'.Completes length cycle →
      Paired S c c' (c.simulatorAfter length cycle) (c'.simulatorAfter length cycle)
  | failed : sim.phase = .failed → sim'.phase = .failed → sim'.length = sim.length →
      sim.store.AgreeOn S sim'.store →
      List.Forall₂ (Trace.AlikeOn S) sim.recorded sim'.recorded → Paired S c c' sim sim'

namespace Circuit

variable (closed : c.Closed S)
  (alike : List.Forall₂ (Trace.AlikeOn S) c.stimuli stimuli)

include closed alike

theorem storeAfter_alikeOn (t : Nat) :
    (c.storeAfter t).AgreeOn S ((c.withStimuli stimuli).storeAfter t) :=
  storeAfter_agreeOn closed fun i _ => alike.imp fun _ _ same => same.showAlike i

theorem paired_store {sim sim' : Simulator} (paired : Paired S c (c.withStimuli stimuli) sim sim') :
    sim.store.AgreeOn S sim'.store := by
  cases paired with
  | fresh => exact .refl S .empty
  | after => exact storeAfter_alikeOn closed alike _
  | failed _ _ _ agree _ => exact agree

theorem paired_recorded {sim sim' : Simulator}
    (paired : Paired S c (c.withStimuli stimuli) sim sim') :
    List.Forall₂ (Trace.AlikeOn S) sim.recorded sim'.recorded := by
  cases paired with
  | fresh => exact .nil
  | after => exact recording_alikeOn (storeAfter_alikeOn closed alike)
  | failed _ _ _ _ recorded => exact recorded

theorem paired_step (done : c.Completes n t) (doneToo : (c.withStimuli stimuli).Completes n t)
    (inside : t + 1 < n) : Alike (Paired S c (c.withStimuli stimuli)) Eq
      (c.simulatorAfter n t).step ((c.withStimuli stimuli).simulatorAfter n t).step := by
  have signals := map_eq_of_forall₂ (fun _ _ same => same.signal) alike
  have shown : List.Forall₂ (Trace.ShowAlike S 1) c.stimuli stimuli :=
    alike.imp fun _ _ same => same.showAlike 1
  apply Alike.next (fun _ => rfl) done doneToo inside (unresolvedInputs_withStimuli signals) .after
  refine .failed rfl rfl rfl ?_ ?_
  · exact driven_agreeOn shown (storeAfter_alikeOn closed alike 0)
  · exact recording_alikeOn (storeAfter_alikeOn closed alike)

variable (valid : c.Validated n) (validToo : (c.withStimuli stimuli).Validated n)

include valid validToo

theorem paired_start : Alike (Paired S c (c.withStimuli stimuli)) Eq (Simulator.ofCircuit c).start
    (Simulator.ofCircuit (c.withStimuli stimuli)).start := by
  have signals := map_eq_of_forall₂ (fun _ _ same => same.signal) alike
  have shown : List.Forall₂ (Trace.ShowAlike S 0) c.stimuli stimuli :=
    alike.imp fun _ _ same => same.showAlike 0
  apply Alike.first (fun _ => rfl) valid validToo (unresolved_withStimuli signals) .after
  refine .failed rfl rfl rfl ?_ ?_
  · exact firstCycle_agreeOn closed shown valid validToo
  · exact recording_alikeOn (storeAfter_alikeOn closed alike)

theorem lockstep_withStimuli : Lockstep (Paired S c (c.withStimuli stimuli)) Eq where
  phase := by
    rintro _ _ (_ | _ | ⟨failed, failedToo, _⟩)
    · rfl
    · rfl
    · exact failedToo.trans failed.symm
  length := by
    rintro _ _ (_ | _ | ⟨_, _, length, _⟩)
    · rfl
    · rfl
    · exact length
  rejected _ _ := rfl
  start := by
    intro sim sim' paired fresh
    cases paired with
    | fresh => exact paired_start closed alike valid validToo
    | after done => exact absurd fresh (Simulator.begun_simulatorAfter done.inside).1
    | failed ended => simp [ended] at fresh
  step := by
    intro sim sim' paired begun going
    cases paired with
    | fresh => exact absurd rfl begun
    | @after n' t done doneToo =>
      obtain rfl := valid.unique done.valid
      apply paired_step closed alike done doneToo
      apply Simulator.inside_of_phase (c := c) done.inside
      intro last
      simp [Phase.ended, last] at going
    | failed ended => simp [Phase.ended, ended] at going

end Circuit

/-- Signals do not see the samples that they do not depend on. Where the traces of two circuits
differ only in the samples of signals outside a closed set, all calls lead both to the same
phase and length, to stores that agree on the set and to output traces that are the same for
its signals, and they answer alike, but for the contents of the other output traces. -/
theorem noninterference (closed : c.Closed S) (valid : c.validate = .ok n)
    (validToo : (c.withStimuli stimuli).validate = .ok m)
    (alike : List.Forall₂ (Trace.AlikeOn S) c.stimuli stimuli) (calls : List Call) :
    let sim := (Simulator.ofCircuit c).after calls
    let other := (Simulator.ofCircuit (c.withStimuli stimuli)).after calls
    other.phase = sim.phase ∧ other.length = sim.length ∧ sim.store.AgreeOn S other.store ∧
      List.Forall₂ (Trace.AlikeOn S) sim.recorded other.recorded ∧
      List.Forall₂ (Answered Eq (List.Forall₂ (Trace.AlikeOn S)))
        ((Simulator.ofCircuit c).answers calls)
        ((Simulator.ofCircuit (c.withStimuli stimuli)).answers calls) := by
  have checked := Circuit.validate_eq_ok.mp valid
  have checkedToo := Circuit.validate_eq_ok.mp validToo
  obtain rfl := Circuit.length_withStimuli alike checked checkedToo
  have lockstep := Circuit.lockstep_withStimuli closed alike checked checkedToo
  have related : Paired S c (c.withStimuli stimuli) _ _ := .fresh
  intro sim other
  have paired : Paired S c (c.withStimuli stimuli) sim other := lockstep.after related calls
  refine ⟨lockstep.phase paired, lockstep.length paired, ?_, ?_, ?_⟩
  · exact Circuit.paired_store closed alike paired
  · exact Circuit.paired_recorded closed alike paired
  · exact lockstep.answered (fun _ _ => Circuit.paired_recorded closed alike) related calls

/-- The registers of the ring and the inverter between them, which see nothing of the input. -/
def ringCore : Set String := {"n", "p", "q"}

/-- Samples for the ring that differ from its own in every cycle. -/
def ringInverted : List Trace := [⟨"a", [some false, some true, some false]⟩]

theorem ring_noninterference :
    ring.Closed ringCore ∧ ring.validate = .ok 3 ∧
      (ring.withStimuli ringInverted).validate = .ok 3 ∧
      List.Forall₂ (Trace.AlikeOn ringCore) ring.stimuli ringInverted ∧
      ((Simulator.ofCircuit ring).after [.start, .step]).peek "p" = .ok true ∧
      ((Simulator.ofCircuit (ring.withStimuli ringInverted)).after [.start, .step]).peek "p" =
        .ok true := by
  have closed : ring.Closed ringCore := by
    constructor <;> simp [ring, ringCore, Expr.signals]
  have valid : ring.validate = .ok 3 := by decide +kernel
  have validToo : (ring.withStimuli ringInverted).validate = .ok 3 := by decide +kernel
  have alike : List.Forall₂ (Trace.AlikeOn ringCore) ring.stimuli ringInverted :=
    .cons ⟨rfl, rfl, by simp [ringCore]⟩ .nil
  have shown : ((Simulator.ofCircuit ring).after [.start, .step]).peek "p" = .ok true := by
    decide +kernel
  obtain ⟨_, _, agree, _⟩ := noninterference closed valid validToo alike [.start, .step]
  have member : "p" ∈ ringCore := by simp [ringCore]
  refine ⟨closed, valid, validToo, alike, shown, ?_⟩
  apply Store.read_eq_ok.mpr
  rw [agree "p" member]
  exact Store.read_eq_ok.mp shown

end LatchSim
