import Ferry.Proofs.Engine.Capture

/-!
# A signal that is shared

A signal is reached through handles: by those who arm, disarm or take it, and by the invocations of
engines, of which several may be in flight at a time. A scene is such a signal together with what is
in flight, and the acts in it may follow each other in any order. What occurs in it depends on one
thing, whether the signal is armed. An invocation that is played from its beginning to its end under a
schedule is one of those that are in flight in such a scene.
-/

namespace Ferry

/-- An invocation in flight. -/
structure InFlight where
  engine : Engine
  /-- The handle through which the engine reaches the signal. -/
  handle : Nat
  invocation : Invocation

/-- A signal with its handles, and the invocations that share it. -/
structure Sharing where
  board : Signal.Board
  /-- The invocations in flight, oldest first. -/
  runs : List InFlight

namespace Sharing

/-- A new signal with one handle, and nothing in flight. -/
def start : Sharing := ⟨Signal.Board.create {}, []⟩

/-- What can be done in a scene. -/
inductive Act where
  | arm (handle : Nat)
  | disarm (handle : Nat)
  | take (handle : Nat)
  | clone (handle : Nat)
  /-- A call begins on an engine that has a handle. -/
  | call (engine : Engine) (handle : Nat) (entry : UInt32) (arguments : List Word)
  /-- The continuation of a snapshot begins on an engine that has a handle. -/
  | resume (engine : Engine) (handle : Nat) (snapshot : Snapshot)
  /-- One of the invocations in flight passes its next boundary. -/
  | turn (run : Nat)

/-- What comes of an act. -/
inductive Occurrence where
  | armed
  | disarmed
  | took (success : Bool)
  | cloned
  | begun
  /-- An invocation could not begin. -/
  | refused (fault : Fault)
  /-- A boundary at which the signal was consulted, or was not. -/
  | turned (consulted : Bool) (turn : Turn)
  deriving DecidableEq, Repr

/-- Adds an invocation that has begun. -/
def enlist (scene : Sharing) (engine : Engine) (handle : Nat) :
    Except Fault Invocation → Occurrence × Sharing
  | .ok invocation =>
      (.begun, { scene with runs := scene.runs ++ [⟨engine, handle, invocation⟩] })
  | .error fault => (.refused fault, scene)

/-- An invocation in flight passes a boundary. -/
def pass (scene : Sharing) (run : Nat) (flight : InFlight) (signal : Signal) :
    Occurrence × Sharing :=
  let (turn, left) := flight.engine.turn signal flight.invocation
  (.turned flight.invocation.consults turn,
    { board := scene.board.put flight.handle left
      runs :=
        match turn with
        | .going next => scene.runs.set run { flight with invocation := next }
        | .ended _ => scene.runs.eraseIdx run })

/-- What comes of an act and how the scene is then, if the handle or the invocation exists. -/
def step (scene : Sharing) : Act → Option (Occurrence × Sharing)
  | .arm handle =>
      (scene.board.signal? handle).map fun _ =>
        (.armed, { scene with board := scene.board.arm handle })
  | .disarm handle =>
      (scene.board.signal? handle).map fun _ =>
        (.disarmed, { scene with board := scene.board.disarm handle })
  | .take handle =>
      (scene.board.signal? handle).map fun _ =>
        (.took (scene.board.take handle).1, { scene with board := (scene.board.take handle).2 })
  | .clone handle =>
      (scene.board.signal? handle).map fun _ =>
        (.cloned, { scene with board := scene.board.clone handle })
  | .call engine handle entry arguments =>
      (scene.board.signal? handle).map fun _ =>
        scene.enlist engine handle (engine.call entry arguments)
  | .resume engine handle snapshot =>
      (scene.board.signal? handle).map fun _ =>
        scene.enlist engine handle (engine.resume snapshot)
  | .turn run =>
      scene.runs[run]?.bind fun flight =>
        (scene.board.signal? flight.handle).map fun signal => scene.pass run flight signal

/-- The history of several acts and the scene after them, if all of them are possible. -/
def follow : Sharing → List Act → Option (List Occurrence × Sharing)
  | scene, [] => some ([], scene)
  | scene, act :: rest =>
      (scene.step act).bind fun (occurrence, next) =>
        (next.follow rest).map fun (history, last) => (occurrence :: history, last)

namespace Occurrence

/-- Whether an occurrence is a boundary at which an invocation paused. -/
def captures : Occurrence → Bool
  | .turned _ (.ended (.paused _)) => true
  | _ => false

/-- The outcome of an invocation, if an occurrence is its end. -/
def outcome? : Occurrence → Option (Outcome Fault)
  | .turned _ (.ended outcome) => some outcome
  | .refused fault => some (.faulted fault)
  | _ => none

end Occurrence

end Sharing

namespace Signal.Board

/-- There is one signal, and every handle reaches it. -/
structure Single (board : Board) (armed : Bool) : Prop where
  signals_eq : board.signals = #[⟨armed⟩]
  handles_eq : ∀ position ∈ board.handles, position = 0

variable {board : Board} {armed : Bool} {handle : Nat} {signal : Signal}

theorem single_create : (create {}).Single false := ⟨rfl, by simp [create]⟩

theorem Single.handle_eq (single : board.Single armed) (found : board.signal? handle = some signal) :
    board.handles[handle]? = some 0 := by
  obtain ⟨position, isPosition, -⟩ := Option.bind_eq_some_iff.mp found
  rw [isPosition, single.handles_eq position (Array.mem_of_getElem? isPosition)]

theorem Single.signal_eq (single : board.Single armed) (found : board.signal? handle = some signal) :
    signal = ⟨armed⟩ := by
  have reaches : board.signal? handle = some ⟨armed⟩ := by
    simp [signal?, single.handle_eq found, single.signals_eq]
  exact Option.some.inj (found.symm.trans reaches)

theorem Single.unique {other : Bool} (single : board.Single armed) (same : board.Single other) :
    other = armed := by
  have signals_eq := single.signals_eq
  rw [same.signals_eq] at signals_eq
  cases signals_eq
  rfl

theorem Single.put (single : board.Single armed) (found : board.signal? handle = some signal)
    (other : Bool) : (board.put handle ⟨other⟩).Single other := by
  rw [Board.put, single.handle_eq found]
  exact ⟨by simp [single.signals_eq], single.handles_eq⟩

theorem Single.clone (single : board.Single armed) (found : board.signal? handle = some signal) :
    (board.clone handle).Single armed := by
  rw [Board.clone, single.handle_eq found]
  refine ⟨single.signals_eq, ?_⟩
  intro position member
  rcases Array.mem_push.mp member with member | rfl
  · exact single.handles_eq position member
  · rfl

theorem Single.take_eq (single : board.Single armed)
    (found : board.signal? handle = some signal) :
    board.take handle = (armed, board.put handle ⟨false⟩) := by
  rw [take, found, single.signal_eq found]
  rfl

end Signal.Board

namespace Sharing

variable {scene next last : Sharing} {armed after : Bool}

/-- What can occur while a signal is armed or not, and whether it is armed then. -/
inductive Admits : Bool → Occurrence → Bool → Prop where
  | arms {armed : Bool} : Admits armed .armed true
  | disarms {armed : Bool} : Admits armed .disarmed false
  | takes {armed : Bool} : Admits armed (.took armed) false
  | clones {armed : Bool} : Admits armed .cloned armed
  | begins {armed : Bool} : Admits armed .begun armed
  | refuses {armed : Bool} {fault : Fault} : Admits armed (.refused fault) armed
  | captures {snapshot : Snapshot} :
      Admits true (.turned true (.ended (.paused snapshot))) false
  | passes {armed consulted : Bool} {turn : Turn} (unseen : (consulted && armed) = false)
      (goesOn : (Occurrence.turned consulted turn).captures = false) :
      Admits armed (.turned consulted turn) armed

/-- An instruction is not a pause, even if it is the last one. -/
theorem captures_advance (engine : Engine) (machine : Machine) (consulted : Bool) :
    (Occurrence.turned consulted (engine.advance machine)).captures = false := by
  rw [Engine.advance]
  split <;> rfl

theorem pass_admits {flight : InFlight} {signal : Signal} (single : scene.board.Single armed)
    (run : Nat) (found : scene.board.signal? flight.handle = some signal) :
    ∃ after, (scene.pass run flight signal).2.board.Single after ∧
      Admits armed (scene.pass run flight signal).1 after := by
  obtain rfl := single.signal_eq found
  by_cases stops : (flight.invocation.consults && armed) = true
  · rcases (Bool.and_eq_true _ _).mp stops with ⟨consults, rfl⟩
    have turned : flight.engine.turn ⟨true⟩ flight.invocation =
        (.ended (.paused flight.invocation.machine.record), ⟨false⟩) := by
      rw [Engine.turn, if_pos stops]
      rfl
    simp only [pass, turned, consults]
    exact ⟨false, single.put found false, .captures⟩
  · have turned : flight.engine.turn ⟨armed⟩ flight.invocation =
        (flight.engine.advance flight.invocation.machine, ⟨armed⟩) := by
      rw [Engine.turn, if_neg stops]
    simp only [pass, turned]
    exact ⟨armed, single.put found armed,
      .passes (Bool.eq_false_iff.mpr stops) (captures_advance ..)⟩

theorem enlist_admits (single : scene.board.Single armed) (engine : Engine) (handle : Nat)
    (begun : Except Fault Invocation) :
    (scene.enlist engine handle begun).2.board.Single armed ∧
      Admits armed (scene.enlist engine handle begun).1 armed := by
  cases begun with
  | ok invocation => exact ⟨single, .begins⟩
  | error fault => exact ⟨single, .refuses⟩

/-- A scene with one signal goes on having one, and what occurs depends on whether it is armed. -/
theorem admits_of_step {act : Act} {occurrence : Occurrence} (single : scene.board.Single armed)
    (stepped : scene.step act = some (occurrence, next)) :
    ∃ after, next.board.Single after ∧ Admits armed occurrence after := by
  cases act with
  | arm handle =>
      obtain ⟨signal, found, same⟩ := Option.map_eq_some_iff.mp stepped
      cases same
      exact ⟨true, single.put found true, .arms⟩
  | disarm handle =>
      obtain ⟨signal, found, same⟩ := Option.map_eq_some_iff.mp stepped
      cases same
      exact ⟨false, single.put found false, .disarms⟩
  | take handle =>
      obtain ⟨signal, found, same⟩ := Option.map_eq_some_iff.mp stepped
      rw [single.take_eq found] at same
      cases same
      exact ⟨false, single.put found false, .takes⟩
  | clone handle =>
      obtain ⟨signal, found, same⟩ := Option.map_eq_some_iff.mp stepped
      cases same
      exact ⟨armed, single.clone found, .clones⟩
  | call engine handle entry arguments =>
      obtain ⟨signal, found, same⟩ := Option.map_eq_some_iff.mp stepped
      have enlisted := enlist_admits single engine handle (engine.call entry arguments)
      rw [same] at enlisted
      exact ⟨armed, enlisted⟩
  | resume engine handle snapshot =>
      obtain ⟨signal, found, same⟩ := Option.map_eq_some_iff.mp stepped
      have enlisted := enlist_admits single engine handle (engine.resume snapshot)
      rw [same] at enlisted
      exact ⟨armed, enlisted⟩
  | turn run =>
      obtain ⟨flight, -, stepped⟩ := Option.bind_eq_some_iff.mp stepped
      obtain ⟨signal, found, same⟩ := Option.map_eq_some_iff.mp stepped
      have passed := pass_admits single run found
      rw [same] at passed
      exact passed

/-- A history that can occur from a state of the signal on, and the state after it. -/
inductive Runs : Bool → List Occurrence → Bool → Prop where
  | nil {armed : Bool} : Runs armed [] armed
  | cons {armed between after : Bool} {occurrence : Occurrence} {history : List Occurrence}
      (admits : Admits armed occurrence between) (runs : Runs between history after) :
      Runs armed (occurrence :: history) after

theorem follow_cons_iff {act : Act} {rest : List Act} {history : List Occurrence} :
    scene.follow (act :: rest) = some (history, last) ↔
      ∃ occurrence next others, scene.step act = some (occurrence, next) ∧
        next.follow rest = some (others, last) ∧ history = occurrence :: others := by
  rw [follow, Option.bind_eq_some_iff]
  constructor
  · rintro ⟨⟨occurrence, next⟩, stepped, followed⟩
    obtain ⟨⟨others, last⟩, followed, same⟩ := Option.map_eq_some_iff.mp followed
    cases same
    exact ⟨occurrence, next, others, stepped, followed, rfl⟩
  · rintro ⟨occurrence, next, others, stepped, followed, rfl⟩
    exact ⟨(occurrence, next), stepped, Option.map_eq_some_iff.mpr ⟨_, followed, rfl⟩⟩

/-- Every history of a scene with one signal is one that can occur. -/
theorem runs_of_follow {acts : List Act} {history : List Occurrence}
    (single : scene.board.Single armed) (followed : scene.follow acts = some (history, last)) :
    ∃ after, last.board.Single after ∧ Runs armed history after := by
  induction acts generalizing scene armed history with
  | nil =>
      cases followed
      exact ⟨armed, single, .nil⟩
  | cons act rest ih =>
      obtain ⟨occurrence, next, others, stepped, follows, rfl⟩ := follow_cons_iff.mp followed
      obtain ⟨between, singleNext, admits⟩ := admits_of_step single stepped
      obtain ⟨after, singleLast, runs⟩ := ih singleNext follows
      exact ⟨after, singleLast, .cons admits runs⟩

/-- A beginning that is refused changes nothing. -/
theorem eq_of_step_refused {act : Act} {fault : Fault}
    (stepped : scene.step act = some (.refused fault, next)) : next = scene := by
  have enlist_eq : ∀ engine handle begun,
      scene.enlist engine handle begun = (.refused fault, next) → next = scene := by
    intro engine handle begun enlisted
    cases begun with
    | ok invocation => cases enlisted
    | error other =>
        cases enlisted
        rfl
  cases act with
  | arm | disarm | take | clone =>
      obtain ⟨signal, -, same⟩ := Option.map_eq_some_iff.mp stepped
      cases same
  | call | resume =>
      obtain ⟨signal, -, enlisted⟩ := Option.map_eq_some_iff.mp stepped
      exact enlist_eq _ _ _ enlisted
  | turn run =>
      obtain ⟨flight, -, stepped⟩ := Option.bind_eq_some_iff.mp stepped
      obtain ⟨signal, -, same⟩ := Option.map_eq_some_iff.mp stepped
      cases same

/-- Whatever is refused might as well not have been tried. -/
theorem exists_follow_without {acts : List Act} {past future : List Occurrence} {fault : Fault}
    (followed : scene.follow acts = some (past ++ .refused fault :: future, last)) :
    ∃ others, scene.follow others = some (past ++ future, last) := by
  induction past generalizing scene acts with
  | nil =>
      cases acts with
      | nil => cases followed
      | cons act rest =>
          obtain ⟨occurrence, next, others, stepped, follows, same⟩ := follow_cons_iff.mp followed
          cases same
          obtain rfl := eq_of_step_refused stepped
          exact ⟨rest, follows⟩
  | cons first past ih =>
      cases acts with
      | nil => cases followed
      | cons act rest =>
          obtain ⟨occurrence, next, others, stepped, follows, same⟩ := follow_cons_iff.mp followed
          cases same
          obtain ⟨without, follows⟩ := ih follows
          exact ⟨act :: without, follow_cons_iff.mpr ⟨_, _, _, stepped, follows, rfl⟩⟩

theorem follow_append {first second : List Act} {history others : List Occurrence}
    (followed : scene.follow first = some (history, next))
    (follows : next.follow second = some (others, last)) :
    scene.follow (first ++ second) = some (history ++ others, last) := by
  induction first generalizing scene history with
  | nil =>
      cases followed
      exact follows
  | cons act rest ih =>
      obtain ⟨occurrence, between, later, stepped, rest_follows, rfl⟩ :=
        follow_cons_iff.mp followed
      exact follow_cons_iff.mpr ⟨occurrence, between, _, stepped, ih rest_follows, rfl⟩

section Playing

variable {engine : Engine} {arms : Nat → Bool} {handle : Nat} {outcome : Outcome Fault}
  {left : Signal}

/-- A scene with one signal, which a handle reaches, and nothing in flight but what is listed. -/
structure Stands (scene : Sharing) (armed : Bool) (handle : Nat) (runs : List InFlight) : Prop where
  single : scene.board.Single armed
  reaches : scene.board.handles[handle]? = some 0
  runs_eq : scene.runs = runs

theorem Stands.signal?_eq {runs : List InFlight} (stands : scene.Stands armed handle runs) :
    scene.board.signal? handle = some ⟨armed⟩ := by
  simp [Signal.Board.signal?, stands.reaches, stands.single.signals_eq]

theorem handles_put (board : Signal.Board) (signal : Signal) :
    (board.put handle signal).handles = board.handles := by
  rw [Signal.Board.put]
  split <;> rfl

/-- Somebody arms the signal, or nobody does. -/
theorem Stands.exists_follow_armIf {runs : List InFlight} (stands : scene.Stands armed handle runs)
    (condition : Bool) :
    ∃ acts history next, scene.follow acts = some (history, next) ∧
      next.Stands (armed || condition) handle runs := by
  cases condition with
  | false =>
      rw [Bool.or_false]
      exact ⟨[], [], scene, rfl, stands⟩
  | true =>
      rw [Bool.or_true]
      refine ⟨[.arm handle], [.armed], { scene with board := scene.board.arm handle }, ?_, ?_⟩
      · simp [follow, step, stands.signal?_eq]
      · refine ⟨stands.single.put stands.signal?_eq true, ?_, stands.runs_eq⟩
        exact (congrArg (·[handle]?) (handles_put ..)).trans stands.reaches

/-- The newest invocation passes a boundary. -/
theorem Stands.step_turn {others : List InFlight} {invocation : Invocation}
    (stands : scene.Stands armed handle (others ++ [⟨engine, handle, invocation⟩])) :
    ∃ next, scene.step (.turn others.length) =
        some (.turned invocation.consults (engine.turn ⟨armed⟩ invocation).1, next) ∧
      next.Stands (engine.turn ⟨armed⟩ invocation).2.armed handle
        (match (engine.turn ⟨armed⟩ invocation).1 with
        | .going after => others ++ [⟨engine, handle, after⟩]
        | .ended _ => others) := by
  have flying : scene.runs[others.length]? = some ⟨engine, handle, invocation⟩ := by
    simp [stands.runs_eq]
  refine ⟨(scene.pass others.length ⟨engine, handle, invocation⟩ ⟨armed⟩).2, ?_, ?_⟩
  · simp [step, flying, stands.signal?_eq, pass]
  · refine ⟨stands.single.put stands.signal?_eq _, ?_, ?_⟩
    · exact (congrArg (·[handle]?) (handles_put ..)).trans stands.reaches
    · simp only [pass, stands.runs_eq]
      cases (engine.turn ⟨armed⟩ invocation).1 <;> simp [List.eraseIdx_append_of_length_le]

/-- An invocation that is played to its end under a schedule passes its boundaries as it does in a
scene in which somebody arms the signal between them. -/
theorem exists_follow_of_run {fuel boundary : Nat} {others : List InFlight}
    {invocation : Invocation}
    (stands : scene.Stands armed handle (others ++ [⟨engine, handle, invocation⟩]))
    (played : engine.run arms fuel boundary ⟨armed⟩ invocation = some (outcome, left)) :
    ∃ acts history consulted last,
      scene.follow acts = some (history ++ [.turned consulted (.ended outcome)], last) ∧
      last.Stands left.armed handle others := by
  induction fuel generalizing scene armed boundary invocation with
  | zero => cases played
  | succ fuel ih =>
      obtain ⟨arming, armings, between, armed_followed, stands⟩ :=
        stands.exists_follow_armIf (arms boundary)
      obtain ⟨next, stepped, turned⟩ := stands.step_turn
      rw [Engine.run, Signal.armIf] at played
      cases passed : engine.turn ⟨armed || arms boundary⟩ invocation with
      | mk turn signal =>
          rw [passed] at played stepped turned
          cases turn with
          | going after =>
              obtain ⟨acts, history, consulted, last, follows, ends⟩ := ih turned played
              have whole := follow_append armed_followed
                (follow_cons_iff.mpr ⟨_, _, _, stepped, follows, rfl⟩)
              rw [← List.cons_append, ← List.append_assoc] at whole
              exact ⟨_, _, consulted, last, whole, ends⟩
          | ended result =>
              cases played
              have nothing : next.follow [] = some ([], next) := rfl
              have whole := follow_append armed_followed
                (follow_cons_iff.mpr ⟨_, _, _, stepped, nothing, rfl⟩)
              exact ⟨_, _, _, next, whole, turned⟩

/-- What a call or a resumption on an engine begins with. -/
inductive Begins (engine : Engine) : Except Fault Invocation → Prop where
  | call (entry : UInt32) (arguments : List Word) : Begins engine (engine.call entry arguments)
  | resume (snapshot : Snapshot) : Begins engine (engine.resume snapshot)

theorem Stands.exists_step_enlist {runs : List InFlight} {begun : Except Fault Invocation}
    (stands : scene.Stands armed handle runs) (begins : Begins engine begun) :
    ∃ act, scene.step act = some (scene.enlist engine handle begun) := by
  cases begins with
  | call entry arguments =>
      exact ⟨.call engine handle entry arguments, by simp [step, stands.signal?_eq]⟩
  | resume snapshot => exact ⟨.resume engine handle snapshot, by simp [step, stands.signal?_eq]⟩

/-- What is played from its beginning to its end under a schedule is an invocation that begins in a
scene and ends in it with the same outcome. -/
theorem Stands.exists_follow_of_play {fuel : Nat} {others : List InFlight}
    {begun : Except Fault Invocation} (stands : scene.Stands armed handle others)
    (begins : Begins engine begun)
    (played : engine.play arms fuel ⟨armed⟩ begun = some (outcome, left)) :
    ∃ acts history occurrence last,
      scene.follow acts = some (history ++ [occurrence], last) ∧
      occurrence.outcome? = some outcome ∧ last.Stands left.armed handle others := by
  obtain ⟨act, stepped⟩ := stands.exists_step_enlist begins
  cases begun with
  | error fault =>
      cases played
      have nothing : scene.follow [] = some ([], scene) := rfl
      exact ⟨[act], [], _, scene, follow_cons_iff.mpr ⟨_, _, _, stepped, nothing, rfl⟩, rfl, stands⟩
  | ok invocation =>
      have flying : (scene.enlist engine handle (.ok invocation)).2.Stands armed handle
          (others ++ [⟨engine, handle, invocation⟩]) :=
        ⟨stands.single, stands.reaches, congrArg (· ++ _) stands.runs_eq⟩
      obtain ⟨acts, history, consulted, last, follows, ends⟩ := exists_follow_of_run flying played
      exact ⟨act :: acts, .begun :: history, _, last,
        follow_cons_iff.mpr ⟨_, _, _, stepped, follows, rfl⟩, rfl, ends⟩

end Playing

end Sharing

end Ferry
