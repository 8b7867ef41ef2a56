import LatchSim.Latch
import LatchSim.Proofs.Store

/-!
# Latches that move together

Resetting and moving latches are lists of writes. All the values that a move writes are
read from the store before it, so the order of the latches does not matter to them, and
whatever latches feed each other, they move as one assignment or not at all:
`advanceAll_simultaneous`. Latches that move one after the other come to the same end where
none reads what one before it has written: `advanceEach_agrees`.
-/

namespace LatchSim.Latch

def inputs (latches : List Latch) : List String := latches.map (·.input)

def outputs (latches : List Latch) : List String := latches.map (·.output)

def resets (latches : List Latch) : List Binding := latches.map fun l => (l.output, false)

/-- What a move writes: the value of each input before it. -/
def moves (latches : List Latch) (s : Store) : List Binding :=
  latches.map fun l => (l.output, s.view l.input)

/-- What a move reports. -/
def moveLog (latches : List Latch) (s : Store) : List Entry :=
  latches.map fun l => .latch l.output l.input (s.view l.input)

@[simp] theorem resets_names (latches : List Latch) :
    (resets latches).map (·.1) = outputs latches := by
  simp [resets, outputs]

@[simp] theorem moves_names (latches : List Latch) (s : Store) :
    (moves latches s).map (·.1) = outputs latches := by
  simp [moves, outputs]

theorem resetAll_eq (latches : List Latch) (s : Store) :
    resetAll latches s = s.setAll (resets latches) := by
  simp only [resetAll, reset, Store.setAll, resets, List.foldl_map]

theorem sampleAll_eq (s : Store) (latches : List Latch) :
    sampleAll s latches = s.require (inputs latches) (latches.map fun l => s.view l.input) := by
  induction latches with
  | nil => rfl
  | cons l rest ih =>
    simp only [sampleAll, sample, ih, pure, Except.pure, Store.require_map, s.read_eq_require]
    exact s.require_bind [l.input] (inputs rest) (s.view l.input) fun value =>
      value :: rest.map fun l => s.view l.input

theorem storeAll_eq (samples : List (Latch × Bool)) (s : Store) :
    storeAll samples s =
      ⟨s.setAll (samples.map fun p => (p.1.output, p.2)),
        samples.map fun p => .latch p.1.output p.1.input p.2, none⟩ := by
  induction samples generalizing s with
  | nil => rfl
  | cons p rest ih =>
    obtain ⟨l, value⟩ := p
    simp only [storeAll, store, Outcome.write_andThen, ih, List.map_cons, Store.setAll_cons]

theorem advanceAll_of_bound {latches : List Latch} {s : Store}
    (bound : ∀ name ∈ inputs latches, s.contains name = true) :
    advanceAll latches s = ⟨s.setAll (moves latches s), moveLog latches s, none⟩ := by
  have pairs : latches.zip (latches.map fun l => s.view l.input) =
      latches.map fun l => (l, s.view l.input) := List.map_prod_left_eq_zip.symm
  rw [advanceAll, sampleAll_eq, Store.require_of_contains _ bound]
  simp only [storeAll_eq, pairs, List.map_map, moves, moveLog, Function.comp_def]

/-- The first latch whose input is unbound stops all of them. -/
theorem advanceAll_of_unbound {latches : List Latch} {s : Store} {name : String}
    (first : (inputs latches).find? (fun name => ! s.contains name) = some name) :
    advanceAll latches s = .stopped s (.undefined name) := by
  rw [advanceAll, sampleAll_eq, Store.require_eq_error.mpr ⟨name, first, rfl⟩]

/-! ## One assignment -/

/-- What it means that latches move together, as one assignment to all their outputs. -/
structure Simultaneous (latches : List Latch) (s : Store) (o : Outcome) : Prop where
  done : o.fault? = none ↔ ∀ l ∈ latches, s.contains l.input = true
  /-- An output takes over what the input of the last latch that writes it held before. -/
  moved : o.fault? = none → ∀ before l after, latches = before ++ l :: after →
    (∀ later ∈ after, later.output ≠ l.output) → o.store.get? l.output = s.get? l.input
  kept : o.fault? = none → ∀ name, name ∉ outputs latches → o.store.get? name = s.get? name
  /-- Every latch reports the value that its input held, in the order of the latches. -/
  log : o.fault? = none → o.log.map some =
    latches.map fun l => (s.get? l.input).map (.latch l.output l.input)
  /-- A fault is that of the first latch with an unbound input, and then nothing has moved. -/
  stopped : ∀ fault, o.fault? = some fault → ∃ before l after, latches = before ++ l :: after ∧
    (∀ earlier ∈ before, s.contains earlier.input = true) ∧ s.contains l.input = false ∧
      fault = .undefined l.input ∧ o.store = s ∧ o.log = []

/-- The last of the writes to an output is that of the last latch with this output. -/
theorem get?_moves {before after : List Latch} {l : Latch} {s : Store}
    (last : ∀ later ∈ after, later.output ≠ l.output) :
    (s.setAll (moves (before ++ l :: after) s)).get? l.output = some (s.view l.input) := by
  have untouched : l.output ∉ (moves after s).map (·.1) := by
    rw [moves_names]
    intro member
    obtain ⟨later, inside, same⟩ := List.mem_map.mp member
    exact last later inside same
  have split : moves (before ++ l :: after) s =
      moves before s ++ (l.output, s.view l.input) :: moves after s := by
    simp [moves]
  rw [split, Store.setAll_append, Store.setAll_cons, Store.get?_setAll_other untouched]
  simp

theorem simultaneous_of_bound {latches : List Latch} {s : Store}
    (bound : ∀ l ∈ latches, s.contains l.input = true) :
    Simultaneous latches s ⟨s.setAll (moves latches s), moveLog latches s, none⟩ where
  done := iff_of_true rfl bound
  moved _ before l after split last := by
    subst split
    have held := bound l (by simp)
    rw [get?_moves last, Store.get?_of_contains held]
  kept _ name untouched := Store.get?_setAll_other (by rwa [moves_names])
  log _ := by
    rw [moveLog, List.map_map]
    refine List.map_congr_left fun l member => ?_
    simp [Store.get?_of_contains (bound l member)]
  stopped _ none := nomatch none

/-- Whatever latches feed each other, they move as one assignment, or not at all. -/
theorem advanceAll_simultaneous (latches : List Latch) (s : Store) :
    Simultaneous latches s (advanceAll latches s) := by
  cases first : latches.find? fun l => ! s.contains l.input with
  | none =>
    have bound : ∀ l ∈ latches, s.contains l.input = true := by simpa using first
    rw [advanceAll_of_bound (by simpa [inputs] using bound)]
    exact simultaneous_of_bound bound
  | some l =>
    obtain ⟨unbound, before, after, split, earlier⟩ := List.find?_eq_some_iff_append.mp first
    have missing : s.contains l.input = false := by simpa using unbound
    have name : (inputs latches).find? (fun name => ! s.contains name) = some l.input := by
      rw [inputs, List.find?_map]
      exact congrArg (Option.map Latch.input) first
    rw [advanceAll_of_unbound name]
    constructor
    case done =>
      refine iff_of_false (by simp [Outcome.stopped]) fun bound => ?_
      simp [bound l (by simp [split])] at missing
    case stopped =>
      intro fault stopped
      obtain rfl := Option.some.inj stopped
      exact ⟨before, l, after, split, by simpa using earlier, missing, rfl, rfl, rfl⟩
    all_goals exact fun done => nomatch done

/-! ## One after the other -/

/-- Moves latches one by one: each samples what those before it have left. -/
def advanceEach : List Latch → Store → Outcome
  | [], s => .done s
  | l :: rest, s => (l.advance s).andThen (advanceEach rest)

/-- No latch reads the output of one that comes before it. -/
def Unfed (latches : List Latch) : Prop :=
  latches.Pairwise fun earlier later => later.input ≠ earlier.output

instance (latches : List Latch) : Decidable (Unfed latches) :=
  inferInstanceAs (Decidable (latches.Pairwise _))

theorem advanceEach_append (first second : List Latch) (s : Store) :
    advanceEach (first ++ second) s = (advanceEach first s).andThen (advanceEach second) := by
  induction first generalizing s with
  | nil => exact (Outcome.done_andThen s (advanceEach second)).symm
  | cons l rest ih =>
    rw [List.cons_append, advanceEach, advanceEach, Outcome.andThen_assoc]
    exact congrArg _ (funext ih)

theorem advance_of_bound {l : Latch} {s : Store} (bound : s.contains l.input = true) :
    l.advance s =
      .write s l.output (s.view l.input) (.latch l.output l.input (s.view l.input)) := by
  simp only [advance, sample, Store.read_eq_view bound, store]

theorem advance_of_unbound {l : Latch} {s : Store} (unbound : s.contains l.input = false) :
    l.advance s = .stopped s (.undefined l.input) := by
  rw [advance, sample, Store.read, Store.get?_of_not_contains (by simp [unbound])]

/-- What the first latch writes is not seen by those behind it. -/
theorem Unfed.get?_set {l : Latch} {rest : List Latch} (unfed : Unfed (l :: rest)) (s : Store)
    (value : Bool) : ∀ later ∈ rest, (s.set l.output value).get? later.input =
      s.get? later.input := by
  intro later member
  rw [Store.get?_set, if_neg ((List.pairwise_cons.mp unfed).1 later member)]

theorem advanceEach_of_bound {latches : List Latch} {s : Store} (unfed : Unfed latches)
    (bound : ∀ l ∈ latches, s.contains l.input = true) :
    advanceEach latches s = ⟨s.setAll (moves latches s), moveLog latches s, none⟩ := by
  induction latches generalizing s with
  | nil => rfl
  | cons l rest ih =>
    obtain ⟨first, others⟩ := List.forall_mem_cons.mp bound
    have untouched := unfed.get?_set s (s.view l.input)
    have stillBound : ∀ later ∈ rest,
        (s.set l.output (s.view l.input)).contains later.input = true := fun later member => by
      rw [Store.contains, untouched later member]
      exact others later member
    have sameMoves : moves rest (s.set l.output (s.view l.input)) = moves rest s :=
      List.map_congr_left fun later member => by
        rw [Store.view, untouched later member, Store.view]
    have sameLog : moveLog rest (s.set l.output (s.view l.input)) = moveLog rest s :=
      List.map_congr_left fun later member => by
        rw [Store.view, untouched later member, Store.view]
    rw [advanceEach, advance_of_bound first, Outcome.write_andThen,
      ih (List.pairwise_cons.mp unfed).2 stillBound, sameMoves, sameLog]
    rfl

/-- The first latch whose input is unbound stops those behind it, not those before it. -/
theorem advanceEach_of_unbound {before after : List Latch} {l : Latch} {s : Store}
    (unfed : Unfed (before ++ l :: after)) (bound : ∀ l ∈ before, s.contains l.input = true)
    (unbound : s.contains l.input = false) : advanceEach (before ++ l :: after) s =
      ⟨s.setAll (moves before s), moveLog before s, some (.undefined l.input)⟩ := by
  obtain ⟨unfedBefore, _, apart⟩ := List.pairwise_append.mp unfed
  have stillUnbound : (s.setAll (moves before s)).contains l.input = false := by
    rw [Bool.eq_false_iff, Ne, Store.contains_setAll, moves_names, not_or]
    refine ⟨fun output => ?_, by simp [unbound]⟩
    obtain ⟨earlier, member, same⟩ := List.mem_map.mp output
    exact apart earlier member l List.mem_cons_self same.symm
  rw [advanceEach_append, advanceEach_of_bound unfedBefore bound]
  simp only [Outcome.andThen, advanceEach, advance_of_unbound stillUnbound, Outcome.stopped,
    List.append_nil]

/-- Together the same latch stops all of them. -/
theorem advanceAll_of_first {before after : List Latch} {l : Latch} {s : Store}
    (bound : ∀ l ∈ before, s.contains l.input = true) (unbound : s.contains l.input = false) :
    advanceAll (before ++ l :: after) s = .stopped s (.undefined l.input) := by
  refine advanceAll_of_unbound (List.find?_eq_some_iff_append.mpr ⟨by simp [unbound], ?_⟩)
  exact ⟨before.map input, after.map input, by simp [inputs], by simpa using bound⟩

theorem bound_or_unbound (latches : List Latch) (s : Store) :
    (∀ l ∈ latches, s.contains l.input = true) ∨
      ∃ before l after, latches = before ++ l :: after ∧
        (∀ earlier ∈ before, s.contains earlier.input = true) ∧ s.contains l.input = false := by
  cases first : latches.find? fun l => ! s.contains l.input with
  | none => exact .inl (by simpa using first)
  | some l =>
    obtain ⟨unbound, before, after, split, bound⟩ := List.find?_eq_some_iff_append.mp first
    exact .inr ⟨before, l, after, split, by simpa using bound, by simpa using unbound⟩

/-- What it means that latches moved one after the other come to the end to which they come
together. -/
structure Agrees (latches : List Latch) (s : Store) (o : Outcome) : Prop where
  done : o.fault? = none ↔ (advanceAll latches s).fault? = none
  same : o.fault? = none → o = advanceAll latches s
  fault : ∀ fault, o.fault? = some fault ↔ (advanceAll latches s).fault? = some fault
  /-- A fault is that of the first latch with an unbound input. Only then does it show that
  the latches before it have moved by themselves. -/
  stopped : ∀ fault, o.fault? = some fault → ∃ before l after, latches = before ++ l :: after ∧
    (∀ earlier ∈ before, s.contains earlier.input = true) ∧ s.contains l.input = false ∧
      fault = .undefined l.input ∧ o = { advanceAll before s with fault? := some fault }

/-- Latches of which none reads the output of one before it may as well move one by one. -/
theorem advanceEach_agrees {latches : List Latch} (unfed : Unfed latches) (s : Store) :
    Agrees latches s (advanceEach latches s) := by
  rcases bound_or_unbound latches s with bound | ⟨before, l, after, rfl, bound, unbound⟩
  · have together := advanceAll_of_bound (s := s) (by simpa [inputs] using bound)
    rw [advanceEach_of_bound unfed bound, ← together]
    refine ⟨.rfl, fun _ => rfl, fun _ => .rfl, fun fault failed => ?_⟩
    rw [together] at failed
    cases failed
  · have together : advanceAll (before ++ l :: after) s = .stopped s (.undefined l.input) :=
      advanceAll_of_first bound unbound
    have first := advanceAll_of_bound (s := s) (by simpa [inputs] using bound)
    rw [advanceEach_of_unbound unfed bound unbound]
    constructor
    case done => simp [together, Outcome.stopped]
    case same => exact fun done => nomatch done
    case fault => simp [together, Outcome.stopped]
    case stopped =>
      rintro _ ⟨⟩
      exact ⟨before, l, after, rfl, bound, unbound, rfl, by rw [first]⟩

/-- A shift register listed from its end. -/
def shift : List Latch := [⟨"q", "r"⟩, ⟨"d", "q"⟩]

theorem shift_agrees : Unfed shift ∧
    Agrees shift (.ofList [("d", true), ("q", false)])
      ⟨.ofList [("d", true), ("q", true), ("r", false)],
        [.latch "r" "q" false, .latch "q" "d" true], none⟩ ∧
    Agrees shift (.ofList [("q", true)])
      ⟨.ofList [("q", true), ("r", true)], [.latch "r" "q" true], some (.undefined "d")⟩ := by
  have unfed : Unfed shift := by decide
  have moved : advanceEach shift (.ofList [("d", true), ("q", false)]) =
      ⟨.ofList [("d", true), ("q", true), ("r", false)],
        [.latch "r" "q" false, .latch "q" "d" true], none⟩ := by decide +kernel
  have severed : advanceEach shift (.ofList [("q", true)]) =
      ⟨.ofList [("q", true), ("r", true)], [.latch "r" "q" true], some (.undefined "d")⟩ := by
    decide +kernel
  exact ⟨unfed, moved ▸ advanceEach_agrees unfed _, severed ▸ advanceEach_agrees unfed _⟩

/-- Listed from its start, it lets a value through both latches at once. -/
example : (advanceEach shift.reverse (.ofList [("d", true), ("q", false)])).store =
    .ofList [("d", true), ("q", true), ("r", true)] := by decide +kernel

end LatchSim.Latch
