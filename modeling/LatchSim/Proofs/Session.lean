import LatchSim.Session
import LatchSim.Proofs.Chain
import LatchSim.Proofs.History
import LatchSim.Proofs.Text.Utf8

/-!
# Sessions show all of a result or nothing

However its caller mixes steps, runs and queries, a session stays on the chain of its circuit:
`EndsAt.after_onChain`. Outputs are shown from the end of a chain that has ended well, and from
nowhere else: `exposed`.
-/

namespace LatchSim

variable {c : Circuit} {n k last cycle : Nat} {listening : Bool} {name? : Option Bytes}
  {fault : Fault} {α : Type}

namespace Session

/-! ## Names and texts -/

/-- Bytes spell a name if it is encoded by what stands before the first zero byte. -/
def Spells (name? : Option Bytes) (name : String) : Prop :=
  ∃ bytes, name? = some bytes ∧ bytes.takeWhile (· ≠ 0) = Text.Utf8.encode name

theorem nameOf?_eq_some {name : String} : nameOf? name? = some name ↔ Spells name? name := by
  cases name? with
  | none => simp [nameOf?, Spells]
  | some bytes =>
    simp only [nameOf?, Spells, Option.bind_some, Option.some.injEq, exists_eq_left']
    rw [← Text.Utf8.decode_eq_ok]
    cases Text.Utf8.decode (bytes.takeWhile (· ≠ 0)) <;> simp [Except.toOption]

/-- The session that opens on a circuit. -/
def ofCircuit (c : Circuit) : Session := ⟨some (.ofCircuit c)⟩

theorem ofCircuit_inj {d : Circuit} : ofCircuit c = ofCircuit d ↔ c = d := by
  constructor
  · intro same
    have simulators := Option.some.inj (congrArg simulator? same)
    exact congrArg Simulator.circuit simulators
  · rintro rfl
    rfl

/-- A session opens on the circuit that a text tells. -/
theorem create_eq_ofCircuit {json? : Option Bytes} :
    (create listening json?).1 = ofCircuit c ↔
      ∃ text, json? = some (Text.Utf8.encode text) ∧ Circuit.ofJson text = .ok c := by
  constructor
  · intro opened
    cases json? with
    | none => cases opened
    | some bytes =>
      rw [create] at opened
      split at opened
      case h_1 => cases opened
      case h_2 text decoded =>
        obtain rfl := Text.Utf8.decode_eq_ok.mp decoded
        split at opened
        case h_1 => cases opened
        case h_2 told => exact ⟨text, rfl, told.trans (congrArg _ (ofCircuit_inj.mp opened))⟩
  · rintro ⟨text, rfl, told⟩
    rw [create, Text.Utf8.decode_eq_ok.mpr rfl]
    simp only [told]
    rfl

/-! ## Requests -/

/-- What a caller asks of a session. Queries are answered and leave it alone. -/
inductive Request where
  | step (listening : Bool)
  | run (listening : Bool)
  | peek (name? : Option Bytes)
  | outputValue (name? : Option Bytes) (cycle : Nat)
  | length
  | outputNames
  | outputsJson
  deriving DecidableEq

namespace Request

def isStep : Request → Bool
  | step _ => true
  | _ => false

def isRun : Request → Bool
  | run _ => true
  | _ => false

/-- The session that a request leaves behind. -/
def serve (r : Request) (session : Session) : Session :=
  match r with
  | step listening => (session.step listening).session
  | run listening => (session.run listening).session
  | _ => session

end Request

/-- The session after some requests. -/
def after (session : Session) : List Request → Session
  | [] => session
  | r :: rest => after (r.serve session) rest

/-- The requests contain this many steps, and no run. -/
structure Steps (requests : List Request) (count : Nat) : Prop where
  count : requests.countP Request.isStep = count
  runless : ∀ r ∈ requests, r.isRun = false

/-- The requests contain a run, or a step for each of `n` cycles. -/
def Exhausts (requests : List Request) (n : Nat) : Prop :=
  (∃ r ∈ requests, r.isRun = true) ∨ n ≤ requests.countP Request.isStep

theorem Steps.of_not_exhausts {requests : List Request} (left : ¬ Exhausts requests n) :
    ∃ k < n, Steps requests k := by
  obtain ⟨runless, more⟩ := not_or.mp left
  refine ⟨_, Nat.not_le.mp more, rfl, fun r member => ?_⟩
  exact Bool.eq_false_iff.mpr fun run => runless ⟨r, member, run⟩

/-! ## Calls -/

theorem call_session (sim : Simulator) (operation : Simulator → Reply α) :
    (call ⟨some sim⟩ listening operation).session = ⟨some (operation sim).simulator⟩ := by
  simp only [call]
  split <;> rfl

theorem call_of_ok {sim : Simulator} {operation : Simulator → Reply α} {value : α}
    (ok : (operation sim).result = .ok value) :
    call ⟨some sim⟩ listening operation = ⟨⟨some (operation sim).simulator⟩, 0, none⟩ := by
  simp only [call, ok]

theorem call_of_error {sim : Simulator} {operation : Simulator → Reply α}
    (failed : (operation sim).result = .error fault) :
    call ⟨some sim⟩ listening operation =
      ⟨⟨some (operation sim).simulator⟩, -1, notice? listening fault.message⟩ := by
  simp only [call, failed]

/-- The session at a place of the chain of a circuit. -/
def onChain (c : Circuit) (k : Nat) : Session := ⟨some (c.chain k)⟩

end Session

namespace Circuit

/-- A step of a session attempts the next cycle, the first one too. -/
theorem attempt_eq_stepping (c : Circuit) (k : Nat) :
    (if (c.chain k).phase = .fresh then (c.chain k).start else (c.chain k).step) = c.attempt k := by
  cases k with
  | zero => rfl
  | succ k => rw [if_neg (chain_begun c k)]; rfl

theorem step_onChain (c : Circuit) (k : Nat) : (Session.onChain c k).step listening =
    (Session.onChain c k).call listening fun _ => c.attempt k := by
  simp only [Session.step, Session.call, Session.onChain, attempt_eq_stepping]

theorem serve_step (c : Circuit) (k : Nat) :
    (Session.Request.step listening).serve (Session.onChain c k) = Session.onChain c (k + 1) := by
  rw [Session.Request.serve, step_onChain]
  exact Session.call_session _ _

/-- Requests without a run lead to the place that their steps count. -/
theorem after_onChain {requests : List Session.Request}
    (runless : ∀ r ∈ requests, r.isRun = false) : (Session.onChain c k).after requests =
      Session.onChain c (k + requests.countP Session.Request.isStep) := by
  induction requests generalizing k with
  | nil => rfl
  | cons r rest ih =>
    obtain ⟨first, later⟩ := List.forall_mem_cons.mp runless
    rw [Session.after]
    cases r with
    | step listening =>
      rw [serve_step, ih later, List.countP_cons_of_pos rfl, Nat.add_assoc, Nat.add_comm 1]
    | run listening => cases first
    | peek | outputValue | length | outputNames | outputsJson => exact ih later

namespace EndsAt

variable (ends : c.EndsAt last)

include ends

theorem onChain_late (late : last ≤ k) : Session.onChain c k = Session.onChain c last := by
  rw [Session.onChain, ends.chain_late late, Session.onChain]

/-- At the end of the chain calls are rejected and change nothing. -/
theorem rejected_last (listening : Bool) :
    (Session.onChain c last).step listening = ⟨Session.onChain c last, -1,
      Session.notice? listening (Fault.invalidTransition .step (c.chain last).phase).message⟩ ∧
    (Session.onChain c last).run listening = ⟨Session.onChain c last, -1,
      Session.notice? listening (Fault.invalidTransition .run (c.chain last).phase).message⟩ := by
  have step := attempt_of_ended ends.ended
  have run := Simulator.run_of_ended ends.ended
  constructor
  · rw [step_onChain, Session.onChain, Session.call_of_error (congrArg _ step), step]
    rfl
  · rw [Session.run, Session.onChain, Session.call_of_error (congrArg _ run), run]
    rfl

theorem run_of_ok (more : k < last) (terminated : (c.chain last).phase = .terminated) :
    (Session.onChain c k).run listening = ⟨Session.onChain c last, 0, none⟩ := by
  have ok := (ends.run_ok_iff more).mpr ⟨terminated, rfl⟩
  rw [Session.run, Session.onChain, Session.call_of_ok ok, (ends.run_eq more).1]
  rfl

theorem run_of_error (more : k < last) (failed : (c.chain last).phase = .failed)
    (stopped : (c.attempt (last - 1)).result = .error fault) :
    (Session.onChain c k).run listening =
      ⟨Session.onChain c last, -1, Session.notice? listening fault.message⟩ := by
  have error := (ends.run_error_iff more).mpr ⟨failed, stopped⟩
  rw [Session.run, Session.onChain, Session.call_of_error error, (ends.run_eq more).1]
  rfl

theorem serve_run (k : Nat) :
    (Session.Request.run listening).serve (Session.onChain c k) = Session.onChain c last := by
  refine (Session.call_session _ _).trans ?_
  by_cases more : k < last
  · rw [(ends.run_eq more).1]
    rfl
  · rw [ends.chain_late (Nat.not_lt.mp more), Simulator.run_of_ended ends.ended]
    rfl

/-- Requests with a run, or with a step for each place that is left, lead to the end. -/
theorem after_exhausted {requests : List Session.Request}
    (exhausts : (∃ r ∈ requests, r.isRun = true) ∨
      last ≤ k + requests.countP Session.Request.isStep) :
    (Session.onChain c k).after requests = Session.onChain c last := by
  induction requests generalizing k with
  | nil => exact ends.onChain_late (by simpa using exhausts)
  | cons r rest ih =>
    rw [Session.after]
    cases r with
    | run listening =>
      rw [ends.serve_run]
      exact ih (.inr (Nat.le_add_right _ _))
    | step listening =>
      rw [serve_step]
      refine ih (exhausts.imp ?_ fun count => ?_)
      · simp [Session.Request.isRun]
      · rw [List.countP_cons_of_pos rfl] at count
        omega
    | peek | outputValue | length | outputNames | outputsJson =>
      refine ih (exhausts.imp ?_ fun count => ?_)
      · simp [Session.Request.isRun]
      · rwa [List.countP_cons_of_neg (by simp [Session.Request.isStep])] at count

end EndsAt

end Circuit

/-! ## What is shown -/

namespace Session

theorem outputValue_eq (sim : Simulator) : outputValue ⟨some sim⟩ name? cycle =
    statusOf ((nameOf? name?).bind fun name => (sim.output? name).bind (·.get? cycle)) := rfl

theorem peek_eq (sim : Simulator) :
    peek ⟨some sim⟩ name? = statusOf ((nameOf? name?).bind sim.store.get?) := rfl

/-- Unless a simulator has terminated, no output is shown. -/
theorem hidden_of_unterminated {sim : Simulator} (unterminated : sim.phase ≠ .terminated) :
    outputValue ⟨some sim⟩ name? cycle = -1 ∧ outputsJson? ⟨some sim⟩ = none := by
  have outputs : sim.outputs? = none := by simp [Simulator.outputs?, unterminated]
  have unexported : sim.outputsJson = .error (.invalidTransition .exportOutputs sim.phase) := by
    rw [Simulator.outputsJson, outputs]
  constructor
  · simp [outputValue_eq, Simulator.output?, outputs, statusOf]
  · simp [outputsJson?, unexported, Except.toOption]

theorem hidden_of_going (going : (c.chain k).phase.ended = false) :
    (onChain c k).outputValue name? cycle = -1 ∧ (onChain c k).outputsJson? = none := by
  refine hidden_of_unterminated fun terminated => ?_
  rw [terminated] at going
  cases going

end Session

namespace Circuit.EndsAt

variable (ends : c.EndsAt last) (terminated : (c.chain last).phase = .terminated)

include ends terminated

theorem recorded_last : (c.chain last).recorded = c.recording last last := by
  rw [(ends.last_of_terminated terminated).2, simulatorAfter, Nat.sub_add_cancel ends.positive]

/-- At the end, the value of an output in a cycle is the one that was current after it. -/
theorem outputValue_eq_peek {name : String} (inside : cycle < last) (output : name ∈ c.outputs)
    (spells : Session.Spells name? name) : ∃ value,
      (Session.onChain c last).outputValue name? cycle = Session.statusOf (some value) ∧
        (Session.onChain c (cycle + 1)).peek name? = Session.statusOf (some value) := by
  obtain ⟨done, here⟩ := ends.chain_of_terminated inside terminated
  have recorded := ends.recorded_last terminated
  have named := Session.nameOf?_eq_some.mpr spells
  rw [← recording_signals c last last] at output
  obtain ⟨trace, member, rfl⟩ := List.mem_map.mp output
  obtain ⟨peeked, sample⟩ := done.recorded member
  have found : (c.chain last).output? trace.signal = some trace := by
    refine Simulator.output?_of_mem (Simulator.outputs?_of_terminated terminated) ?_ ?_
    · rw [recorded]
      exact fun other there same => recording_unique there member same
    · rwa [recorded]
  refine ⟨(c.storeAfter cycle).view trace.signal, ?_, ?_⟩
  · rw [Session.onChain, Session.outputValue_eq, named, Option.bind_some, found, Option.bind_some,
      sample]
  · rw [Session.onChain, Session.peek_eq, named, Option.bind_some, here]
    exact congrArg _ (Store.read_eq_ok.mp peeked)

theorem outputValue_unknown
    (unknown : ¬ (cycle < last ∧ ∃ o ∈ c.outputs, Session.Spells name? o)) :
    (Session.onChain c last).outputValue name? cycle = -1 := by
  rw [Session.onChain, Session.outputValue_eq]
  cases named : Session.nameOf? name? with
  | none => rfl
  | some name =>
    rw [Option.bind_some]
    cases found : (c.chain last).output? name with
    | none => rfl
    | some trace =>
      rw [Simulator.output?, Simulator.outputs?_of_terminated terminated, Option.bind_some,
        ends.recorded_last terminated] at found
      have member := List.mem_of_find?_eq_some found
      have signal : trace.signal = name := by simpa using List.find?_some found
      have output : name ∈ c.outputs := by
        rw [← recording_signals c last last, ← signal]
        exact List.mem_map_of_mem member
      have outside : ¬ (cycle < last ∧ cycle < last) := fun inside =>
        unknown ⟨inside.1, name, output, Session.nameOf?_eq_some.mp named⟩
      rw [Option.bind_some, recording_get? member, if_neg outside]
      rfl

end Circuit.EndsAt

/-! ## All or nothing -/

namespace Session

/-- What the calls of a session answer that is opened on a circuit with a run of `n` cycles. -/
structure Whole (c : Circuit) (n : Nat) : Prop where
  /-- As many steps as there are cycles go well, -/
  steps : ∀ requests k listening, Steps requests k → k < n →
    (((ofCircuit c).after requests).step listening).status = 0
  /-- and all later ones are rejected, as are all calls after a run. -/
  stuck : ∀ requests listening, Exhausts requests n →
    ((ofCircuit c).after requests).step listening = ⟨(ofCircuit c).after requests, -1,
      notice? listening "Cannot step while simulator is terminated"⟩ ∧
    ((ofCircuit c).after requests).run listening = ⟨(ofCircuit c).after requests, -1,
      notice? listening "Cannot run while simulator is terminated"⟩
  /-- A run before that goes well and leads where the remaining steps lead. -/
  run : ∀ requests k listening, Steps requests k → k < n →
    (((ofCircuit c).after requests).run listening).status = 0 ∧
      ∀ remaining, Steps remaining (n - k) →
        (((ofCircuit c).after requests).run listening).session =
          ((ofCircuit c).after requests).after remaining
  /-- Until then no output is shown. -/
  hidden : ∀ requests k name? cycle, Steps requests k → k < n →
    ((ofCircuit c).after requests).outputValue name? cycle = -1 ∧
      ((ofCircuit c).after requests).outputsJson? = none
  /-- From then on every sample of an output is, as it was current after its cycle, -/
  shown : ∀ requests name? cycle, Exhausts requests n →
    cycle < n → (∃ o ∈ c.outputs, Spells name? o) →
    (((ofCircuit c).after requests).outputValue name? cycle = 1 ∨
      ((ofCircuit c).after requests).outputValue name? cycle = 0) ∧
    ∀ earlier, Steps earlier (cycle + 1) →
      ((ofCircuit c).after requests).outputValue name? cycle =
        ((ofCircuit c).after earlier).peek name?
  /-- and nothing else. -/
  unknown : ∀ requests name? cycle, Exhausts requests n →
    ¬ (cycle < n ∧ ∃ o ∈ c.outputs, Spells name? o) →
    ((ofCircuit c).after requests).outputValue name? cycle = -1

/-- What they answer where the run of the circuit fails in a cycle. -/
structure Nothing (c : Circuit) (cycle : Nat) (fault : Fault) : Prop where
  steps : ∀ requests k listening, Steps requests k → k < cycle →
    (((ofCircuit c).after requests).step listening).status = 0
  /-- The step to the cycle fails, and so does a run before or instead of it. -/
  step : ∀ requests listening, Steps requests cycle →
    (((ofCircuit c).after requests).step listening).status = -1 ∧
      (((ofCircuit c).after requests).step listening).notice? = notice? listening fault.message
  run : ∀ requests k listening, Steps requests k → k ≤ cycle →
    (((ofCircuit c).after requests).run listening).status = -1 ∧
      (((ofCircuit c).after requests).run listening).notice? = notice? listening fault.message
  /-- All later calls are rejected and change nothing. -/
  stuck : ∀ requests listening, Exhausts requests (cycle + 1) →
    ((ofCircuit c).after requests).step listening = ⟨(ofCircuit c).after requests, -1,
      notice? listening "Cannot step while simulator is failed"⟩ ∧
    ((ofCircuit c).after requests).run listening = ⟨(ofCircuit c).after requests, -1,
      notice? listening "Cannot run while simulator is failed"⟩
  /-- Whatever is asked, no output is ever shown. -/
  hidden : ∀ requests name? cycle, ((ofCircuit c).after requests).outputValue name? cycle = -1 ∧
    ((ofCircuit c).after requests).outputsJson? = none

theorem Steps.after_ofCircuit {requests : List Request} (steps : Steps requests k) :
    (ofCircuit c).after requests = onChain c k := by
  have lead := c.after_onChain (k := 0) steps.runless
  rwa [Nat.zero_add, steps.count] at lead

theorem Exhausts.after_ofCircuit {requests : List Request} (exhausts : Exhausts requests last)
    (ends : c.EndsAt last) : (ofCircuit c).after requests = onChain c last := by
  refine ends.after_exhausted (k := 0) ?_
  rwa [Nat.zero_add]

theorem Whole.of_terminated (ends : c.EndsAt last)
    (terminated : (c.chain last).phase = .terminated) : Whole c last where
  steps requests k listening steps inside := by
    have unfailed : (c.chain (k + 1)).phase ≠ .failed := by
      rw [(ends.chain_of_terminated inside terminated).2]
      exact (Simulator.begun_simulatorAfter inside).2
    rw [steps.after_ofCircuit, Circuit.step_onChain, onChain,
      call_of_ok (ends.attempt_ok inside unfailed)]
  stuck requests listening exhausts := by
    have rejected := ends.rejected_last listening
    rw [terminated] at rejected
    rwa [exhausts.after_ofCircuit ends]
  run requests k listening steps inside := by
    rw [steps.after_ofCircuit, ends.run_of_ok inside terminated]
    refine ⟨rfl, fun remaining rest => ?_⟩
    rw [c.after_onChain rest.runless, rest.count, Nat.add_sub_cancel' (Nat.le_of_lt inside)]
  hidden requests k name? cycle steps inside := by
    rw [steps.after_ofCircuit]
    exact hidden_of_going (ends.going k inside)
  shown requests name? cycle exhausts inside output := by
    obtain ⟨o, output, spells⟩ := output
    obtain ⟨value, shown, peeked⟩ :=
      ends.outputValue_eq_peek terminated inside output spells
    rw [exhausts.after_ofCircuit ends, shown]
    refine ⟨by cases value <;> simp [statusOf], fun earlier steps => ?_⟩
    rw [steps.after_ofCircuit, peeked]
  unknown requests name? cycle exhausts unknown := by
    rw [exhausts.after_ofCircuit ends]
    exact ends.outputValue_unknown terminated unknown

theorem Nothing.of_failed (ends : c.EndsAt (cycle + 1))
    (failed : (c.chain (cycle + 1)).phase = .failed)
    (stopped : (c.attempt cycle).result = .error fault) : Nothing c cycle fault where
  steps requests k listening steps inside := by
    have unfailed : (c.chain (k + 1)).phase ≠ .failed := fun ended => by
      have going := ends.going (k + 1) (Nat.succ_lt_succ inside)
      rw [ended] at going
      cases going
    have ok := ends.attempt_ok (Nat.lt_succ_of_lt inside) unfailed
    rw [steps.after_ofCircuit, Circuit.step_onChain, onChain, call_of_ok ok]
  step requests listening steps := by
    rw [steps.after_ofCircuit, Circuit.step_onChain, onChain, call_of_error stopped]
    exact ⟨rfl, rfl⟩
  run requests k listening steps inside := by
    rw [steps.after_ofCircuit, ends.run_of_error (Nat.lt_succ_of_le inside) failed stopped]
    exact ⟨rfl, rfl⟩
  stuck requests listening exhausts := by
    have rejected := ends.rejected_last listening
    rw [failed] at rejected
    rwa [exhausts.after_ofCircuit ends]
  hidden requests name? asked := by
    by_cases exhausts : Exhausts requests (cycle + 1)
    · rw [exhausts.after_ofCircuit ends]
      exact hidden_of_unterminated (by simp [failed])
    · obtain ⟨k, inside, steps⟩ := Steps.of_not_exhausts exhausts
      rw [steps.after_ofCircuit]
      exact hidden_of_going (ends.going k inside)

/-- What the sessions that are opened on a circuit expose of its run. -/
structure Exposed (c : Circuit) : Prop where
  opened : ∀ listening json?, (create listening json?).1 = ofCircuit c ↔
    ∃ text, json? = some (Text.Utf8.encode text) ∧ Circuit.ofJson text = .ok c
  whole : ∀ traces, (Simulator.ofCircuit c).run.result = .ok traces →
    Whole c (Simulator.ofCircuit c).run.simulator.length
  nothing : ∀ fault, (Simulator.ofCircuit c).run.result = .error fault →
    ∃ cycle, Nothing c cycle fault

theorem exposed (c : Circuit) : Exposed c := by
  obtain ⟨last, ends⟩ := c.exists_endsAt
  have first : c.chain 0 = .ofCircuit c := rfl
  have ran := (ends.run_eq ends.positive).1
  constructor
  case opened => exact fun listening json? => create_eq_ofCircuit
  case whole =>
    intro traces ok
    obtain ⟨terminated, _⟩ := (ends.run_ok_iff ends.positive).mp ok
    rw [← first, ran, (ends.last_of_terminated terminated).2]
    exact .of_terminated ends terminated
  case nothing =>
    intro fault error
    obtain ⟨failed, stopped⟩ := (ends.run_error_iff ends.positive).mp error
    obtain ⟨cycle, rfl⟩ := Nat.exists_eq_succ_of_ne_zero (Nat.ne_of_gt ends.positive)
    exact ⟨cycle, .of_failed ends failed stopped⟩

/-- The toggle without its update, so that nothing binds what its latch reads. -/
def unfed : Circuit := { toggle with outputs := ["q"], updates := [] }

/-- The toggle shows `q` in its second cycle, asked for by bytes with a zero among them. -/
theorem toggle_exposed :
    Whole toggle 3 ∧ (∃ cycle, Nothing unfed cycle (.undefined "d")) ∧
      ((ofCircuit toggle).after [.step true, .run false]).outputValue
        (some [113, 0, 255]) 1 = 1 := by
  have length : (Simulator.ofCircuit toggle).run.simulator.length = 3 := by decide +kernel
  have whole : Whole toggle (Simulator.ofCircuit toggle).run.simulator.length :=
    (exposed toggle).whole [⟨"q", [some false, some true, some false]⟩,
      ⟨"d", [some true, some false, some true]⟩, ⟨"q", [some false, some true, some false]⟩]
      (by decide +kernel)
  rw [length] at whole
  have nothing : ∃ cycle, Nothing unfed cycle (.undefined "d") :=
    (exposed unfed).nothing _ (by decide +kernel)
  have spells : Spells (some [113, 0, 255]) "q" := ⟨_, rfl, by decide +kernel⟩
  have shown := (whole.shown [.step true, .run false] (some [113, 0, 255]) 1
    (.inl ⟨.run false, by simp, rfl⟩) (by decide) ⟨"q", by simp [toggle], spells⟩).2
    [.step false, .step false] ⟨rfl, by simp [Request.isRun]⟩
  have peeked : ((ofCircuit toggle).after [.step false, .step false]).peek
      (some [113, 0, 255]) = 1 := by decide +kernel
  exact ⟨whole, nothing, shown.trans peeked⟩

end Session

end LatchSim
