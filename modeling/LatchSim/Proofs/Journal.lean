import LatchSim.Proofs.Lifecycle
import LatchSim.Proofs.Gate

/-!
# The log as a journal

Every entry of a latch or an update announces a write. Between the store in which a cycle
opens and the store that it leaves behind, these are all the writes there are, also where the
cycle fails: `Reachable.journaled`.
-/

namespace LatchSim

variable {c : Circuit} {sim : Simulator} {n t k last : Nat} {fault : Fault}

/-! ## How far an action has come -/

/-- The names that a log announces writes to. -/
def Entry.writtenNames (log : List Entry) : List String := (Entry.written log).map Prod.fst

theorem Entry.writtenNames_append (log more : List Entry) :
    Entry.writtenNames (log ++ more) = Entry.writtenNames log ++ Entry.writtenNames more := by
  simp [Entry.writtenNames]

/-- All latches move, or one cannot be sampled and none does. -/
theorem Latch.advanceAll_cases (latches : List Latch) (s : Store) :
    ((advanceAll latches s).fault? = none ∧
      Entry.writtenNames (advanceAll latches s).log = outputs latches) ∨
    ∃ fault, sampleAll s latches = .error fault ∧ advanceAll latches s = .stopped s fault := by
  cases sampled : sampleAll s latches with
  | error fault => exact .inr ⟨fault, rfl, by rw [advanceAll, sampled]⟩
  | ok values =>
    rw [sampleAll_eq] at sampled
    have moved := advanceAll_of_bound (Store.require_eq_ok.mp sampled).1
    refine .inl ⟨congrArg Outcome.fault? moved, ?_⟩
    rw [moved]
    simp [Entry.writtenNames, Entry.written, moveLog, outputs, Entry.write?, List.filterMap_map,
      Function.comp_def]

/-- All updates are done, or one fails and those before it are. -/
theorem Update.applyAll_cases (updates : List Update) (s : Store) :
    ((applyAll updates s).fault? = none ∧
      Entry.writtenNames (applyAll updates s).log = targets updates) ∨
    ∃ k u fault, updates[k]? = some u ∧ (applyAll updates s).fault? = some fault ∧
      (u.apply (applyAll updates s).store).fault? = some fault ∧
      Entry.writtenNames (applyAll updates s).log = targets (updates.take k) := by
  induction updates generalizing s with
  | nil => exact .inl ⟨rfl, rfl⟩
  | cons u rest ih =>
    rcases u.apply_cases s with ⟨fault, stopped⟩ | ⟨value, wrote⟩
    · rw [applyAll, stopped, Outcome.stopped_andThen]
      exact .inr ⟨0, u, fault, rfl, rfl, congrArg Outcome.fault? stopped, rfl⟩
    · rw [applyAll, wrote, Outcome.write_andThen]
      have shift {names : List String} (later : Entry.writtenNames
          (applyAll rest (s.set u.name value)).log = names) :
          Entry.writtenNames (.update u.name value :: (applyAll rest (s.set u.name value)).log) =
            u.name :: names := congrArg (u.name :: ·) later
      rcases ih (s.set u.name value) with ⟨done, all⟩ | ⟨k, v, fault, place, failed, stuck, part⟩
      · exact .inl ⟨done, shift all⟩
      · exact .inr ⟨k + 1, v, fault, place, failed, stuck, shift part⟩

/-- So it is where other writes come first. -/
theorem Update.andThen_applyAll_cases {first : Outcome} (ok : first.fault? = none)
    (updates : List Update) :
    ((first.andThen (applyAll updates)).fault? = none ∧
      Entry.writtenNames (first.andThen (applyAll updates)).log =
        Entry.writtenNames first.log ++ targets updates) ∨
    ∃ k u fault, updates[k]? = some u ∧
      (first.andThen (applyAll updates)).fault? = some fault ∧
      (u.apply (first.andThen (applyAll updates)).store).fault? = some fault ∧
      Entry.writtenNames (first.andThen (applyAll updates)).log =
        Entry.writtenNames first.log ++ targets (updates.take k) := by
  have after : first.andThen (applyAll updates) = { applyAll updates first.store with
      log := first.log ++ (applyAll updates first.store).log } := by
    rw [Outcome.andThen, ok]
  rw [after]
  simp only [Entry.writtenNames_append]
  rcases applyAll_cases updates first.store with
    ⟨done, all⟩ | ⟨k, u, fault, place, failed, stuck, part⟩
  · exact .inl ⟨done, by rw [all]⟩
  · exact .inr ⟨k, u, fault, place, failed, stuck, by rw [part]⟩

namespace Circuit

/-! ## The body of a cycle -/

/-- The store in which a cycle opens: its samples are bound, and in the first cycle the latches
are reset. -/
def opened (c : Circuit) (t : Nat) (s : Store) : Store :=
  (c.driven t s).setAll (if t = 0 then Latch.resets c.latches else [])

/-- What a cycle does from there on. -/
def body (c : Circuit) (t : Nat) (s : Store) : Outcome :=
  (if t = 0 then .done s else Latch.advanceAll c.latches s).andThen (Update.applyAll c.updates)

theorem firstCycle_eq_body (valid : c.Validated n) :
    c.firstCycle = c.body 0 (c.opened 0 .empty) := by
  rw [firstCycle_eq valid]
  exact (Outcome.done_andThen _ _).symm

theorem nextCycle_eq_body (valid : c.Validated n) (inside : t + 1 < n) (s : Store) :
    c.nextCycle (t + 1) s = c.body (t + 1) (c.opened (t + 1) s) := by
  rw [nextCycle, valid.bindStimuli inside, Outcome.done_andThen]
  rfl

theorem body_journals (c : Circuit) (t : Nat) (s : Store) : (c.body t s).Journals s := by
  refine .andThen ?_ (Update.applyAll_journals c.updates)
  split
  · exact .done s
  · exact Latch.advanceAll_journals c.latches s

/-- The names that a cycle has written when it has come to the update with a number. -/
def progress (c : Circuit) (t count : Nat) : List String :=
  (if t = 0 then [] else Latch.outputs c.latches) ++ Update.targets (c.updates.take count)

/-- A cycle does all that is in it, or a latch stops it, or an update does. -/
theorem body_cases (c : Circuit) (t : Nat) (s : Store) :
    ((c.body t s).fault? = none ∧
      Entry.writtenNames (c.body t s).log = c.progress t c.updates.length) ∨
    (t ≠ 0 ∧ ∃ fault, Latch.sampleAll s c.latches = .error fault ∧
      c.body t s = .stopped s fault) ∨
    ∃ k u fault, c.updates[k]? = some u ∧ (c.body t s).fault? = some fault ∧
      (u.apply (c.body t s).store).fault? = some fault ∧
      Entry.writtenNames (c.body t s).log = c.progress t k := by
  by_cases first : t = 0
  · have cases := Update.applyAll_cases c.updates s
    simp only [body, progress, if_pos first, Outcome.done_andThen, List.nil_append,
      List.take_length]
    exact cases.imp_right .inr
  · rw [body, if_neg first]
    rcases Latch.advanceAll_cases c.latches s with ⟨moved, names⟩ | ⟨fault, sampled, stopped⟩
    · have cases := Update.andThen_applyAll_cases moved c.updates
      simp only [names] at cases
      simp only [progress, if_neg first, List.take_length]
      exact cases.imp_right .inr
    · rw [stopped, Outcome.stopped_andThen]
      exact .inr (.inl ⟨first, fault, sampled, rfl⟩)

/-! ## The end of a cycle -/

/-- Where a call ends that has opened a cycle, and what it has written up to there. -/
inductive Ending (c : Circuit) (t : Nat) (reply : Reply Unit) : Prop where
  | completed (ok : reply.result = .ok ())
      (wrote : Entry.writtenNames reply.log = c.progress t c.updates.length)
  /-- A latch cannot be sampled, and none has moved. -/
  | latch (later : t ≠ 0) (fault : Fault) (failed : reply.result = .error fault)
      (unsampled : Latch.sampleAll reply.simulator.store c.latches = .error fault)
      (wrote : Entry.written reply.log = [])
  /-- The update with number `k` fails in the store that is left behind. -/
  | update (k : Nat) (u : Update) (fault : Fault) (place : c.updates[k]? = some u)
      (failed : reply.result = .error fault)
      (stuck : (u.apply reply.simulator.store).fault? = some fault)
      (wrote : Entry.writtenNames reply.log = c.progress t k)
  /-- An output cannot be recorded, after all updates. -/
  | snapshot (fault : Fault) (failed : reply.result = .error fault)
      (unread : record t reply.simulator.store reply.simulator.recorded = .error fault)
      (wrote : Entry.writtenNames reply.log = c.progress t c.updates.length)

end Circuit

theorem Simulator.complete_store (sim : Simulator) (t : Nat) (opening : Entry) (o : Outcome) :
    (sim.complete t opening o).simulator.store = o.store := by
  rcases sim.complete_cases t opening o with ⟨fault, reply⟩ | ⟨traces, reply⟩ <;>
    simp only [reply, fail]

/-- Only the body of a cycle writes. -/
theorem Simulator.written_complete {opening : Entry} (opens : opening.opens? = some t)
    (sim : Simulator) (o : Outcome) :
    Entry.written (sim.complete t opening o).log = Entry.written o.log := by
  have head : Entry.written (opening :: o.log) = Entry.written o.log :=
    List.filterMap_cons_none (Entry.write?_of_opens opens)
  rcases sim.complete_closes t opening o with ⟨_, log⟩ | ⟨fault, _, log⟩
  · rw [log, head]
  · rw [log, Entry.written_append, head]
    exact List.append_nil _

namespace Circuit

theorem Ending.complete {opening : Entry} (opens : opening.opens? = some t) (sim : Simulator)
    (s : Store) : c.Ending t (sim.complete t opening (c.body t s)) := by
  have writes := Simulator.written_complete opens sim (c.body t s)
  have names : Entry.writtenNames (sim.complete t opening (c.body t s)).log =
      Entry.writtenNames (c.body t s).log := congrArg (List.map Prod.fst) writes
  have store := sim.complete_store t opening (c.body t s)
  rcases c.body_cases t s with
    ⟨done, all⟩ | ⟨later, fault, sampled, stopped⟩ | ⟨k, u, fault, place, stopped, stuck, part⟩
  · cases recorded : record t (c.body t s).store sim.recorded with
    | error fault =>
      have reply : sim.complete t opening (c.body t s) = _ :=
        Simulator.complete_of_unrecorded done recorded
      refine .snapshot fault (congrArg Reply.result reply) ?_ (names.trans all)
      rw [reply]
      exact recorded
    | ok traces =>
      have reply : sim.complete t opening (c.body t s) = _ :=
        Simulator.complete_of_recorded done recorded
      exact .completed (congrArg Reply.result reply) (names.trans all)
  · have reply : sim.complete t opening (c.body t s) = _ :=
      Simulator.complete_of_fault (congrArg Outcome.fault? stopped)
    refine .latch later fault (congrArg Reply.result reply) ?_ ?_
    · rw [store, stopped]
      exact sampled
    · rw [writes, stopped]
      rfl
  · have reply : sim.complete t opening (c.body t s) = _ := Simulator.complete_of_fault stopped
    refine .update k u fault place (congrArg Reply.result reply) ?_ (names.trans part)
    rw [store]
    exact stuck

/-- A cycle that is attempted opens and goes through its body, unless the circuit is refused. -/
theorem EndsAt.attempt_eq (ends : c.EndsAt last) (inside : k < last) :
    (∃ fault, k = 0 ∧ c.validate = .error fault ∧
      c.attempt k = (Simulator.ofCircuit c).fail [] fault) ∨
    ∃ n, ∃ sim : Simulator, ∃ opening : Entry,
      c.Validated n ∧ k < n ∧ sim.circuit = c ∧ opening.opens? = some k ∧
        c.attempt k = sim.complete k opening (c.body k (c.opened k (c.chain k).store)) := by
  cases k with
  | zero =>
    have attempt : c.attempt 0 = (Simulator.ofCircuit c).start := rfl
    cases checked : c.validate with
    | error fault => exact .inl ⟨fault, rfl, rfl, attempt.trans (Simulator.start_of_invalid checked)⟩
    | ok n =>
      have valid := validate_eq_ok.mp checked
      refine .inr ⟨n, Simulator.starting c n, .firstCycle n, valid, valid.positive, rfl, rfl, ?_⟩
      rw [attempt, Simulator.start_eq_complete valid, firstCycle_eq_body valid]
      rfl
  | succ k =>
    obtain ⟨n, done, more, here⟩ := chain_of_open (ends.going (k + 1) inside)
    have attempt : c.attempt (k + 1) = (c.chain (k + 1)).step := rfl
    refine .inr ⟨n, c.simulatorAfter n k, .cycle (k + 1), done.valid, more, rfl, rfl, ?_⟩
    have body := nextCycle_eq_body done.valid more (c.simulatorAfter n k).store
    rw [attempt, here, Simulator.step_of_inside more, ← body]
    rfl

/-! ## The journal of a call -/

/-- A call that opens cycle `t` on a store does this to it. -/
structure Journal (c : Circuit) (t : Nat) (s : Store) (reply : Reply Unit) : Prop where
  sampled : ∀ trace ∈ c.stimuli, ∃ value, trace.get? t = some value
  /-- The cycle opens, and then the writes of the log are made. -/
  store : reply.simulator.store = (c.opened t s).setAll (Entry.written reply.log)
  untouched : ∀ name, name ∉ c.stimuli.map (·.signal) →
    (t = 0 → name ∉ Latch.outputs c.latches) → name ∉ Entry.writtenNames reply.log →
    reply.simulator.store.get? name = s.get? name
  ending : c.Ending t reply

theorem Journal.complete {opening : Entry} (valid : c.Validated n) (inside : t < n)
    (opens : opening.opens? = some t) (sim : Simulator) (s : Store) :
    c.Journal t s (sim.complete t opening (c.body t (c.opened t s))) := by
  have store : (sim.complete t opening (c.body t (c.opened t s))).simulator.store =
      (c.opened t s).setAll
        (Entry.written (sim.complete t opening (c.body t (c.opened t s))).log) := by
    rw [sim.complete_store, Simulator.written_complete opens]
    exact (c.body_journals t (c.opened t s)).store
  refine ⟨fun trace member => valid.sample inside member, store, ?_, .complete opens sim _⟩
  intro name noStimulus noReset unwritten
  rw [store, Store.get?_setAll_other unwritten, opened, Store.get?_setAll_other, driven,
    Store.get?_setAll_other (by rwa [samples_names])]
  split
  case isTrue first => rw [Latch.resets_names]; exact noReset first
  case isFalse => exact List.not_mem_nil

/-- A cycle that is attempted has one opening entry, its own. -/
theorem EndsAt.attempt_opens (ends : c.EndsAt last) (inside : k < last) {entry : Entry}
    (member : entry ∈ (c.attempt k).log) (opens : entry.opens? = some t) :
    t = k ∧ c.Journal k (c.chain k).store (c.attempt k) := by
  rcases ends.attempt_eq inside with
    ⟨fault, rfl, _, reply⟩ | ⟨n, sim, opening, valid, cycle, _, own, reply⟩
  · rw [reply] at member
    obtain rfl := List.mem_singleton.mp member
    cases opens
  · have quiet := (c.body_journals k (c.opened k (c.chain k).store)).quiet
    rw [reply] at member ⊢
    obtain rfl := sim.complete_opens quiet member opens
    exact ⟨Option.some.inj (opens.symm.trans own), .complete valid cycle own sim _⟩

/-- Unless a cycle opens, an attempt leaves the store alone. -/
theorem EndsAt.attempt_unopened (ends : c.EndsAt last) (inside : k < last)
    (unopened : ∀ entry ∈ (c.attempt k).log, entry.opens? = none) :
    ∃ fault, k = 0 ∧ c.validate = .error fault ∧
      c.attempt k = (Simulator.ofCircuit c).fail [] fault := by
  refine (ends.attempt_eq inside).resolve_right ?_
  rintro ⟨n, sim, opening, _, _, _, own, reply⟩
  have member : opening ∈ (c.attempt k).log := by
    rw [reply]
    rcases sim.complete_closes k opening (c.body k (c.opened k (c.chain k).store)) with
      ⟨_, log⟩ | ⟨fault, _, log⟩ <;> rw [log] <;> simp
  rw [unopened opening member] at own
  cases own

/-! ## Every call keeps the journal -/

/-- What calls of a simulator do to its store, told by their logs. -/
structure Journaled (c : Circuit) (sim : Simulator) : Prop where
  /-- Unless the circuit is refused, a start or a step in order opens a cycle. -/
  reached : ∀ n, c.validate = .ok n → ∀ call : Call, call ≠ .run →
    call.inOrder sim.phase = true → ∃ entry ∈ (call.reply sim).log, entry.opens?.isSome = true
  /-- A start or a step that opens a cycle leaves the journal of the cycle. -/
  opened : ∀ call : Call, call ≠ .run → ∀ entry ∈ (call.reply sim).log, ∀ t,
    entry.opens? = some t → c.Journal t sim.store (call.reply sim)
  /-- A call that opens none, a run too, does nothing to the store. -/
  unopened : ∀ call : Call, (∀ entry ∈ (call.reply sim).log, entry.opens? = none) →
    (call.reply sim).simulator.store = sim.store

/-- A run tells all that its first cycle tells. -/
theorem EndsAt.mem_run_log (ends : c.EndsAt last) (inside : k < last) {entry : Entry}
    (member : entry ∈ (c.attempt k).log) : entry ∈ (c.chain k).run.log := by
  rw [ends.run_log inside]
  refine List.mem_append_right _ ?_
  cases result : (c.attempt k).result with
  | error fault => rwa [Reply.andThen_of_error result]
  | ok value =>
    rw [Reply.andThen_of_ok result]
    exact List.mem_append_left _ member

theorem EndsAt.journaled_chain (ends : c.EndsAt last) (inside : k ≤ last) :
    c.Journaled (c.chain k) where
  reached n accepted call single order := by
    obtain ⟨more, reply⟩ := ends.reply_single single inside order
    rw [reply]
    refine Classical.byContradiction fun silent => ?_
    have unopened : ∀ entry ∈ (c.attempt k).log, entry.opens? = none := fun entry member => by
      simpa using fun opens => silent ⟨entry, member, opens⟩
    obtain ⟨fault, _, refused, _⟩ := ends.attempt_unopened more unopened
    rw [accepted] at refused
    cases refused
  opened call single entry member t opens := by
    cases order : call.inOrder (c.chain k).phase with
    | true =>
      obtain ⟨more, reply⟩ := ends.reply_single single inside order
      rw [reply] at member ⊢
      obtain ⟨rfl, journal⟩ := ends.attempt_opens more member opens
      exact journal
    | false =>
      rw [call.reply_of_out order] at member
      cases member
  unopened call none := by
    cases order : call.inOrder (c.chain k).phase with
    | true =>
      obtain ⟨more, moved⟩ := ends.reply_simulator call inside order
      -- What calls leave unopened here is the first cycle, and then the chain has failed.
      have quiet : ∀ entry ∈ (c.attempt k).log, entry.opens? = Option.none := by
        intro entry member
        by_cases single : call = .run
        · subst single
          exact none entry (ends.mem_run_log more member)
        · rw [(ends.reply_single single inside order).2] at none
          exact none entry member
      obtain ⟨fault, rfl, refused, _⟩ := ends.attempt_unopened more quiet
      obtain ⟨place, target⟩ : ∃ place, call.target last 0 = place + 1 := by
        cases call with
        | start | step => exact ⟨0, rfl⟩
        | run => exact Nat.exists_eq_succ_of_ne_zero (Nat.ne_of_gt more)
      rw [moved, target, chain_of_refused refused]
      rfl
    | false =>
      rw [call.reply_of_out order]
      rfl

end Circuit

/-- However it has been driven, a simulator keeps a journal. -/
theorem Reachable.journaled (reach : Reachable c sim) : c.Journaled sim := by
  obtain ⟨last, k, ends, inside, rfl⟩ := Circuit.exists_place reach
  exact ends.journaled_chain inside

/-- The second of its updates reads a name that nothing binds. -/
def severed : Circuit where
  name := "severed"
  inputs := ["a"]
  outputs := ["x"]
  latches := [⟨"x", "q"⟩]
  updates := [⟨"x", .not (.signal "q")⟩, ⟨"y", .signal "z"⟩]
  stimuli := [⟨"a", [some true]⟩]

/-- The start of the severed circuit has reported and made the write of the first update. -/
theorem severed_journaled :
    Reachable severed (.ofCircuit severed) ∧
      .firstCycle 1 ∈ (Simulator.ofCircuit severed).start.log ∧
      Entry.written (Simulator.ofCircuit severed).start.log = [("x", true)] ∧
      (Simulator.ofCircuit severed).start.simulator.store =
        .ofList [("a", true), ("q", false), ("x", true)] := by
  have reach : Reachable severed (.ofCircuit severed) := .fresh
  have member : .firstCycle 1 ∈ (Simulator.ofCircuit severed).start.log := by decide +kernel
  have writes : Entry.written (Simulator.ofCircuit severed).start.log = [("x", true)] := by
    decide +kernel
  have journal := (Reachable.journaled reach).opened .start (by decide) _ member 0 rfl
  have store : (Simulator.ofCircuit severed).start.simulator.store = _ := journal.store
  rw [Call.reply, writes] at store
  exact ⟨reach, member, writes, store.trans (by decide +kernel)⟩

end LatchSim
