import Ferry.Program.Builtin
import Ferry.Proofs.Artifact.Files
import Ferry.Proofs.Artifact.Format
import Ferry.Proofs.Host.Failures
import Ferry.Proofs.Pair.HandOff
import Ferry.Proofs.Pair.Replies

/-!
# The computation exists exactly once

Two hosts with the same program and the same limit are each other's peers; the first of them begins a
computation, and the second waits for it. Whatever their trigger policies are, and in whatever order
things happen inside them and between them, there is exactly one copy of the computation until a run
faults, or a hand-over arrives that is too large for the server. Every other hand-over is accepted,
and the results are those of the uninterrupted computation. A hand-over that is too large is refused,
and the computation is lost with it: its sender has given it away already.
-/

namespace Ferry

/-- The computation that a host of a configuration begins with what it has loaded. -/
def Computation.ofConfig (config : Config) (id : SessionId) (initial : Option Snapshot) :
    Computation where
  id
  program := config.program
  maxCallDepth := config.maxCallDepth
  origin := Host.invoke config initial
  fits := by
    intro invocation invoked
    rw [Host.invoke] at invoked
    split at invoked
    · exact (Engine.resume_eq_ok_iff.mp invoked).2.1.fitsIn
    · exact Engine.fitsIn_of_call invoked

namespace Remote

variable {computation : Computation} {settled : Prop} {host : Remote} {results : List Word}

/-- How many copies of the computation are on a host: one for every run that works on it, and one if
it was completed here. -/
def copies (host : Remote) : Nat :=
  host.runs.countP (fun run => run.stage.isWorking) +
    if host.session.phase = .completed then 1 else 0

/-- A run works on the computation. -/
def IsWorking (host : Remote) : Prop :=
  ∃ run stage, host.stage? run = some stage ∧ stage.isWorking = true

/-- A host has results: those of a run, those in a notice, or those with which it ends. -/
inductive Reports (host : Remote) (results : List Word) : Prop where
  | returned {run : Nat} (stands : host.stage? run = some (.returned (.completed results)))
  | telling {run : Nat} (stands : host.stage? run = some (.telling results))
  | notice (inbox : .completed results ∈ host.inbox)
  | ended (loop : host.loop = .ended (.ok (.completed results)))

/-- The copies on a host are its session's share. -/
theorem Serves.copies_eq (serves : host.Serves computation settled) :
    host.copies = host.session.phase.share := by
  have working : host.runs.countP (fun run => run.stage.isWorking) =
      if host.session.phase.isActive = true then 1 else 0 := by
    split
    · rename_i active
      rcases serves.holding.works active with ⟨run, stage, stands, works⟩
      have member := (stage?_eq_some_iff serves.orderly.numbered).mp stands
      have positive : 0 < host.runs.countP (fun run => run.stage.isWorking) :=
        List.countP_pos_iff.mpr ⟨_, member, works⟩
      exact Nat.le_antisymm serves.orderly.countP_isWorking_le_one positive
    · rename_i inactive
      refine List.countP_eq_zero.mpr fun run member works => inactive ?_
      exact serves.orderly.balanced.active run.id run.stage
        ((stage?_eq_some_iff serves.orderly.numbered).mpr member) works
  rw [copies, working]
  cases host.session.phase <;> rfl

/-- A host without a share neither has a copy nor will begin the computation. -/
theorem Serves.nothing_of_free (serves : host.Serves computation settled)
    (free : host.share = 0) : host.ahead = 0 ∧ host.copies = 0 := by
  obtain ⟨ahead, phase⟩ := Nat.add_eq_zero_iff.mp free
  exact ⟨ahead, serves.copies_eq.trans phase⟩

theorem Reports.yields (reports : host.Reports results) (serves : host.Serves computation settled) :
    computation.Yields results := by
  cases reports with
  | returned stands => exact serves.holding.genuine _ _ stands
  | telling stands => exact serves.holding.genuine _ _ stands
  | notice inbox => exact (serves.informed.notices _ inbox).1
  | ended loop =>
      have genuine := serves.informed.loop
      rw [loop] at genuine
      exact genuine.1

/-- A host that has results has the share of the computation. -/
theorem Reports.share_eq (reports : host.Reports results) (serves : host.Serves computation settled) :
    host.session.phase.share = 1 := by
  have of_completed : host.session.phase = .completed → host.session.phase.share = 1 := by
    intro completed
    rw [completed]
    rfl
  cases reports with
  | returned stands => exact Phase.share_of_isActive (serves.orderly.balanced.active _ _ stands rfl)
  | telling stands => exact of_completed (serves.orderly.balanced.completed _ _ stands)
  | notice inbox => exact of_completed (serves.informed.notices _ inbox).2
  | ended loop =>
      have genuine := serves.informed.loop
      rw [loop] at genuine
      exact of_completed genuine.2

theorem Serves.not_failed (serves : host.Serves computation settled) (failure : Failure) :
    .failed failure ∉ host.inbox ∧ host.result? ≠ some (.error failure) := by
  constructor
  · intro told
    exact serves.informed.notices _ told
  · intro ended
    have genuine := serves.informed.loop
    rw [result?] at ended
    split at ended
    · rename_i result loop
      rw [loop, Option.some.inj ended] at genuine
      exact genuine
    · contradiction

/-- A host that starts immediately begins with what it has loaded. -/
theorem start_of_loadInitial {basis : Host} {directory : Directory} {initial : Option Snapshot}
    (peer : Peer.Caller) (immediately : basis.config.startImmediately = true)
    (loaded : Host.loadInitial basis.config directory = .ok initial) :
    start basis peer directory = { basis with peer, loop := .starting initial } := by
  rw [start, if_pos immediately, loaded]

/-- How the main loop of a new host starts. -/
theorem loop_of_ofConfig? {config : Config} {id : SessionId} {directory : Directory}
    {initial : Option Snapshot} (made : ofConfig? config id directory = .ok host)
    (loaded : if config.startImmediately = true then
      Host.loadInitial config directory = .ok initial else initial = none) :
    host.loop = .starting initial ∧ host.shutDown = false := by
  rw [ofConfig?, bind_eq_ok_iff] at made
  rcases made with ⟨basis, isBasis, made⟩
  rw [Host.ofConfig?, bind_eq_ok_iff] at isBasis
  rcases isBasis with ⟨caller, -, isBasis⟩
  cases isBasis
  split at made
  · cases made
    split at loaded
    · rename_i immediately
      rw [start_of_loadInitial _ immediately loaded]
      exact ⟨rfl, rfl⟩
    · rename_i waiting
      rw [start, if_neg waiting, loaded]
      exact ⟨rfl, rfl⟩
  · contradiction

/-- A new host serves the computation, and has a share of it if it is to begin it. -/
theorem serves_of_ofConfig? (settled : Prop) {config : Config} {id : SessionId}
    {directory : Directory} {initial : Option Snapshot}
    (made : ofConfig? config id directory = .ok host)
    (loaded : if config.startImmediately = true then
      Host.loadInitial config directory = .ok initial else initial = none)
    (suits : computation.Suits config)
    (begins : config.startImmediately = true → id = computation.id ∧
      (Stage.spawned initial).Genuine computation config) :
    host.Serves computation settled ∧
      host.share = if config.startImmediately = true then 1 else 0 := by
  rcases ofConfig?_eq_ok made with ⟨isConfig, runs, -, inbox, session⟩
  rcases loop_of_ofConfig? made loaded with ⟨loop, up⟩
  have none_runs : ∀ run, host.stage? run = none := fun run => by rw [stage?, runs]; rfl
  have idle : host.session.phase = .idle := by rw [session]
  constructor
  · constructor
    · exact Orderly.ofConfig? made
    · rw [isConfig]
      exact suits
    · constructor
      · rintro (begun | immediately)
        · exact absurd idle begun
        · rw [isConfig] at immediately
          rw [session]
          exact (begins immediately).1
      · intro active
        rw [idle] at active
        contradiction
      · intro run stage stands
        rw [none_runs] at stands
        contradiction
    · constructor
      · simp [inbox]
      · rw [loop, isConfig]
        exact fun immediately => (begins immediately).2
      · exact fun _ => ⟨inbox, .inl ⟨initial, loop⟩, up⟩
  · rw [share, ahead, loop, isConfig, idle]
    rfl

end Remote

namespace Pair

/-- How many copies of the computation there are: those on the hosts, and one for every message under
way that hands it over. -/
def copies (pair : Pair) : Nat :=
  pair.first.copies + pair.second.copies + pair.parcels.countP Parcel.handsOver

/-- Two new hosts with the same program and the same limit: the first of them is to begin a
computation, under an id, with what it has loaded; the second waits for one. -/
structure Opens (a b : Config) (id : SessionId) (initial : Option Snapshot) (pair : Pair) : Prop where
  first : ∃ directory, Remote.ofConfig? a id directory = .ok pair.first ∧
    Host.loadInitial a directory = .ok initial
  second : ∃ other directory, Remote.ofConfig? b other directory = .ok pair.second
  parcels : pair.parcels = []
  begins : a.startImmediately = true
  waits : b.startImmediately = false
  program : b.program = a.program
  limit : b.maxCallDepth = a.maxCallDepth

/-- A hand-over was refused when it arrived, because of its size: its sender will learn so, the
hosts are as before, and there is no copy of the computation. -/
structure Loses (pair : Pair) (position : Nat) (sender : Side) (run : Nat) (next : Pair) :
    Prop where
  arrived : pair.arrive position = some next
  hosts : ∀ side, next.host side = pair.host side
  answered : next.parcels =
    pair.parcels.set position (.reply sender run (.execute (.error .oversized)))
  gone : next.first.ahead + next.copies = 0

/-- What two hosts make of one computation, as it is seen from outside. -/
structure ExactlyOnce (computation : Computation) (pair : Pair) : Prop where
  /-- There is one copy of the computation, unless the first host is yet to begin it. -/
  once : pair.first.ahead + pair.copies = 1
  /-- A hand-over that the server takes is accepted when it arrives. -/
  accepted : ∀ sender run request,
    .message sender run (.execute request) ∈ pair.parcels →
    (Wire.write request).length ≤ Peer.maxMessage → ∀ caller,
    ((Remote.Call.execute request).exchange caller .up Remote.service
      (pair.host sender.other)).1 = .execute (.ok ⟨true⟩)
  /-- A hand-over that is too large is lost when it arrives. -/
  lost : ∀ position sender run request,
    pair.parcels[position]? = some (.message sender run (.execute request)) →
    Peer.maxMessage < (Wire.write request).length → ∃ next, pair.Loses position sender run next
  /-- Every reply tells that the computation was taken over, or acknowledges a notice. -/
  answered : ∀ sender run answer, .reply sender run answer ∈ pair.parcels →
    answer = .execute (.ok ⟨true⟩) ∨ answer = .finish (.ok ⟨⟩)
  /-- Whatever travels can arrive. -/
  arrives : ∀ position, position < pair.parcels.length → ∃ next, pair.arrive position = some next
  /-- A host that has had the computation knows it under its id. -/
  named : ∀ side, (pair.host side).session.phase ≠ .idle →
    (pair.host side).session.id = computation.id
  /-- No host fails, and none is about to. -/
  unfailed : ∀ side failure, .failed failure ∉ (pair.host side).inbox ∧
    (pair.host side).result? ≠ some (.error failure)
  /-- The results are those of the uninterrupted computation. -/
  yields : ∀ side results, (pair.host side).Reports results → computation.Yields results
  /-- Where one host has results, the other one has handed the computation over, or never had it. -/
  handed : ∀ side results, (pair.host side).Reports results →
    (pair.host side.other).session.phase = .idle ∨
      (pair.host side.other).session.phase = .transmitted ∧
        (pair.host side.other).session.id = computation.id
  /-- A run that has completed the computation can tell the other host of it. -/
  settles : ∀ side run results,
    (pair.host side).stage? run = some (.returned (.completed results)) →
    ∃ next, (pair.host side).step (.settle run) = some (next, some (.finish ⟨computation.id⟩)) ∧
      next.session.phase = .completed
  /-- A notice of the end is taken by the host that has handed the computation over. -/
  told : ∀ sender run request, .message sender run (.finish request) ∈ pair.parcels →
    (pair.host sender.other).session.phase = .transmitted → ∀ caller,
    (Remote.Call.finish request).exchange caller .up Remote.service (pair.host sender.other) =
      (.finish (.ok ⟨⟩), (pair.host sender.other).tell .finished)

variable {computation : Computation} {a b : Config} {id : SessionId} {initial : Option Snapshot}
  {pair : Pair}

theorem Opens.shares (opens : pair.Opens a b id initial) :
    pair.Shares (.ofConfig a id initial) := by
  rcases opens.first with ⟨directory, made, loaded⟩
  rcases opens.second with ⟨other, directory', made'⟩
  have genuine : (Remote.Stage.spawned initial).Genuine (.ofConfig a id initial) a := by
    intro invocation invoked _
    exact ⟨invocation, 0, invoked, rfl⟩
  have first : pair.first.Serves (.ofConfig a id initial) pair.Settled ∧ pair.first.share = 1 := by
    have serves := Remote.serves_of_ofConfig? pair.Settled made
      (by rw [if_pos opens.begins]; exact loaded) ⟨rfl, rfl⟩ fun _ => ⟨rfl, genuine⟩
    rw [if_pos opens.begins] at serves
    exact serves
  have second : pair.second.Serves (.ofConfig a id initial) pair.Settled ∧
      pair.second.share = 0 := by
    have waits : ¬ b.startImmediately = true := Bool.eq_false_iff.mp opens.waits
    have suits : (Computation.ofConfig a id initial).Suits b := ⟨opens.program, opens.limit⟩
    have serves := Remote.serves_of_ofConfig? pair.Settled made' (by rw [if_neg waits]) suits
      fun immediately => absurd immediately waits
    rw [if_neg waits] at serves
    exact serves
  constructor
  · intro side
    cases side with
    | first => exact first.1
    | second => exact second.1
  · rw [opens.parcels]
    intro parcel member
    contradiction
  · change pair.first.share + pair.second.share + _ = 1
    rw [first.2, second.2, opens.parcels]
    rfl
  · change pair.second.config.startImmediately = false
    rw [(Remote.ofConfig?_eq_ok made').1]
    exact opens.waits

theorem Opens.tidy (opens : pair.Opens a b id initial) : pair.Tidy := by
  rcases opens.first with ⟨directory, made, -⟩
  rcases opens.second with ⟨other, directory', made'⟩
  refine ⟨?_, by simp [opens.parcels], by simp [opens.parcels]⟩
  intro side
  cases side with
  | first => exact Remote.Orderly.ofConfig? made
  | second => exact Remote.Orderly.ofConfig? made'

/-- The share of a hand-over that is too large is the only one, and no host gets it. -/
theorem Shares.lost (shares : pair.Shares computation) {position : Nat} {sender : Side} {run : Nat}
    {request : Peer.ExecuteRequest}
    (found : pair.parcels[position]? = some (.message sender run (.execute request)))
    (large : Peer.maxMessage < (Wire.write request).length) :
    ∃ next, pair.Loses position sender run next := by
  have free := shares.free (List.mem_of_getElem? found)
  rcases (shares.serves .first).nothing_of_free (free .first) with ⟨first_ahead, first_copies⟩
  rcases (shares.serves .second).nothing_of_free (free .second) with ⟨-, second_copies⟩
  have one := shares.one
  rw [free .first, free .second] at one
  have delivered := countP_set_reply found sender run (.execute (.error .oversized))
  simp only [Parcel.handsOver, if_true] at delivered
  refine ⟨_, arrive_of_large found large, fun side => ?_, rfl, ?_⟩
  · cases side <;> rfl
  · simp only [Pair.host] at first_ahead first_copies second_copies
    simp only [copies]
    omega

/-- One share, seen from outside. -/
theorem Shares.exactlyOnce (shares : pair.Shares computation) (tidy : pair.Tidy) :
    pair.ExactlyOnce computation := by
  have named : ∀ side, (pair.host side).session.phase ≠ .idle →
      (pair.host side).session.id = computation.id := fun side begun =>
    (shares.serves side).holding.named (.inl begun)
  constructor
  · have one := shares.one
    have first := (shares.serves .first).copies_eq
    have second := (shares.serves .second).copies_eq
    have waits := shares.waits
    have ahead : pair.second.ahead = 0 := by
      rw [Remote.ahead]
      split
      · exact if_neg (Bool.eq_false_iff.mp waits)
      · rfl
    simp only [Pair.host, Remote.share] at one first second
    rw [copies]
    omega
  · intro sender run request travels small caller
    rcases shares.parcels _ travels with ⟨genuine, -⟩
    have free : (pair.host sender.other).session.phase.share = 0 :=
      Nat.eq_zero_of_add_eq_zero_left (shares.free travels sender.other)
    have takes := (shares.serves sender.other).takes genuine free
    have answered : Remote.service.execute (pair.host sender.other) request =
        (.ok ⟨true⟩, ((pair.host sender.other).takeOver request).2) :=
      Prod.ext (Remote.takeOver_accepts_iff.mpr takes) rfl
    rw [Remote.Call.exchange_execute caller small takes.sound answered]
  · intro position sender run request found large
    exact shares.lost found large
  · intro sender run answer travels
    have genuine : answer.Genuine := shares.parcels _ travels
    cases answer with
    | execute reply => exact .inl (congrArg _ genuine)
    | finish reply => exact .inr (congrArg _ genuine)
  · intro position inside
    exact tidy.arrives inside
  · exact named
  · intro side failure
    exact (shares.serves side).not_failed failure
  · intro side results reports
    exact reports.yields (shares.serves side)
  · intro side results reports
    have one := shares.share_other_le side
    have mine := reports.share_eq (shares.serves side)
    have free : (pair.host side.other).session.phase.share = 0 := by
      simp only [Remote.share, mine] at one
      omega
    rcases (shares.serves side.other).idle_or_transmitted free with idle | transmitted
    · exact .inl idle
    · refine .inr ⟨transmitted, named side.other ?_⟩
      rw [transmitted]
      decide
  · intro side run results returned
    exact (shares.serves side).settles shares.not_settled returned
  · intro sender run request travels transmitted caller
    rcases shares.parcels _ travels with ⟨genuine, -⟩
    have same : request.session = (pair.host sender.other).session.id := by
      rw [named sender.other (by rw [transmitted]; decide), genuine]
    have answered : Remote.service.finish (pair.host sender.other) request =
        (.ok ⟨⟩, (pair.host sender.other).tell .finished) := if_pos ⟨same, transmitted⟩
    exact Remote.Call.exchange_finish caller answered

theorem Reaches.shares {later : Pair} (reaches : pair.Reaches later)
    (shares : pair.Shares computation) : later.Shares computation :=
  reaches.induction shares fun _ _ _ shares proceeds => shares.proceeds proceeds

theorem Reaches.tidy {later : Pair} (reaches : pair.Reaches later) (tidy : pair.Tidy) :
    later.Tidy :=
  reaches.induction tidy fun _ _ _ tidy proceeds => tidy.step proceeds.stepped

/-- A session that has left the idle phase does not come back to it. -/
theorem Reaches.phase_ne_idle {later : Pair} (reaches : pair.Reaches later) {side : Side}
    (begun : (pair.host side).session.phase ≠ .idle) :
    (later.host side).session.phase ≠ .idle := by
  apply reaches.induction begun
  intro before event after begun proceeds
  rcases host_moves proceeds.stepped side with same | ⟨event, call, moves⟩
  · rw [same]
    exact begun
  · exact moves.phase_ne_idle begun

/-- Two hosts that hand one computation to and fro keep exactly one copy of it, on every undisturbed
course. Where one of them has results, they are those of the uninterrupted computation, and the other
one has handed the computation over if a run of it ever worked there. A host that starts afresh
begins with a call; one that starts from an artifact goes on with the snapshot in it. -/
theorem exactly_once {opening earlier later : Pair} (opens : opening.Opens a b id initial)
    (reaches : opening.Reaches earlier) (onward : earlier.Reaches later) :
    later.ExactlyOnce (.ofConfig a id initial) ∧
    (∀ side results, (later.host side).Reports results → (earlier.host side.other).IsWorking →
      (later.host side.other).session.phase = .transmitted ∧
        (later.host side.other).session.id = id) ∧
    (a.fromSnapshot = none → a.program.module.Addressable → ∀ side results,
      (later.host side).Reports results →
      a.engine.Ends (a.engine.call a.program.entry a.arguments) (.completed results)) ∧
    (∀ snapshot, initial = some snapshot → a.program.module.Addressable → ∀ side results,
      (later.host side).Reports results →
      a.engine.Ends (a.engine.resume snapshot) (.completed results)) := by
  have shares := reaches.shares opens.shares
  have tidy := onward.tidy (reaches.tidy opens.tidy)
  have exactlyOnce := (onward.shares shares).exactlyOnce tidy
  rcases opens.first with ⟨directory, -, loaded⟩
  refine ⟨exactlyOnce, ?_, ?_, ?_⟩
  · rintro side results reports ⟨run, stage, stands, works⟩
    have active := (shares.serves side.other).orderly.balanced.active run stage stands works
    have begun := Phase.ne_idle_of_isActive active
    rcases exactlyOnce.handed side results reports with idle | transmitted
    · exact absurd idle (onward.phase_ne_idle begun)
    · exact transmitted
  · intro afresh addressable side results reports
    rw [Host.loadInitial, afresh] at loaded
    cases loaded
    exact exactlyOnce.yields side results reports addressable
  · rintro snapshot rfl addressable side results reports
    have yields := exactlyOnce.yields side results reports addressable
    have begun : (Computation.ofConfig a id (some snapshot)).origin = a.engine.resume snapshot := by
      simp only [Computation.ofConfig, Host.invoke, Option.filter_some,
        if_pos (Host.valid_of_loadInitial loaded)]
    rw [begun] at yields
    exact yields

/-- A host that hands its computation over at once. -/
def handingFib : Config := { Remote.steppingFib with arguments := [1] }

/-- A host that never pauses, and waits for a computation. -/
def waitingFib : Config := { handingFib with policy := .never, startImmediately := false }

/-- Both hosts, before anything has happened. -/
def newFib : Except Failure Pair := do
  let first ← Remote.ofConfig? handingFib Remote.steppingId {}
  let second ← Remote.ofConfig? waitingFib ⟨List.replicate 16 1, rfl⟩ {}
  .ok { first, second }

/-- What happens after the first host has begun, until the second has the result. -/
def handingEvents : List Event :=
  [.inside .first (.invoke 0), .inside .first (.turn 0), .inside .first (.settle 0), .arrival 0,
    .inside .second .begin, .inside .second (.invoke 0)] ++
  List.replicate 6 (.inside .second (.turn 0))

/-- The first host works on the computation, the second one ends it, and its result is that of the
uninterrupted call. -/
theorem exactly_once_fib : ∃ opening earlier later : Pair,
    opening.Opens handingFib waitingFib Remote.steppingId none ∧ opening.Reaches earlier ∧
      earlier.Reaches later ∧ later.copies = 1 ∧ (later.host .second).Reports [1] ∧
      (later.host .first).session.phase = .transmitted ∧
      handingFib.engine.Ends (handingFib.engine.call 0 [1]) (.completed [1]) := by
  have started : (newFib.toOption.bind fun opening =>
      opening.follow [.inside .first .begin]).map (fun earlier => earlier.first.stage? 0) =
        some (some (.spawned none)) := by
    decide +kernel
  have ended : (newFib.toOption.bind fun opening =>
      (opening.follow [.inside .first .begin]).bind fun earlier =>
        earlier.follow handingEvents).map (fun later => (later.first.ahead, later.second.stage? 0)) =
          some (0, some (.returned (.completed [1]))) := by
    decide +kernel
  have made : ∃ first second, Remote.ofConfig? handingFib Remote.steppingId {} = .ok first ∧
      Remote.ofConfig? waitingFib ⟨List.replicate 16 1, rfl⟩ {} = .ok second ∧
      newFib = .ok { first, second } := ⟨_, _, rfl, rfl, rfl⟩
  rcases made with ⟨first, second, madeFirst, madeSecond, made⟩
  rw [made, Except.toOption, Option.bind_some] at started ended
  obtain ⟨earlier, begins, stands⟩ := Option.map_eq_some_iff.mp started
  obtain ⟨later, follows, observed⟩ := Option.map_eq_some_iff.mp ended
  obtain ⟨between, begins', onward⟩ := Option.bind_eq_some_iff.mp follows
  cases Option.some.inj (begins.symm.trans begins')
  rcases Prod.mk.inj observed with ⟨begun, returned⟩
  have opens : ({ first, second } : Pair).Opens handingFib waitingFib Remote.steppingId none :=
    ⟨⟨{}, madeFirst, rfl⟩, ⟨_, {}, madeSecond⟩, rfl, rfl, rfl, rfl, rfl⟩
  have addressable : handingFib.program.module.Addressable := by
    intro function member
    obtain rfl := Array.mem_singleton.mp member
    decide
  have reports : (later.host .second).Reports [1] := .returned returned
  rcases exactly_once opens ⟨_, begins⟩ ⟨_, onward⟩ with ⟨exactlyOnce, handed, yields, -⟩
  have once := exactlyOnce.once
  rw [begun, Nat.zero_add] at once
  exact ⟨_, earlier, later, opens, ⟨_, begins⟩, ⟨_, onward⟩, once, reports,
    (handed .second [1] reports ⟨0, _, stands, rfl⟩).1, yields rfl addressable .second [1] reports⟩

/-- The program that returns its argument, under a name. -/
def echo (name : String) : Program where
  name
  description := "the argument"
  module := ⟨#[.ofCode name 1 #[.localGet 0, .ret]], rfl⟩
  entry := 0
  defaultArguments := []
  exported := by simp [Module.export?, Function.ofCode]

/-- The first snapshot of a call of the program with 1. -/
def firstOfEcho : Snapshot := ⟨true, [⟨0, 0, [1], []⟩], 0⟩

/-- A host that calls the program with 1, and hands it over at once. -/
def handingEcho (name : String) : Config := { handingFib with program := echo name }

/-- A host that waits for the program. -/
def waitingEcho (name : String) : Config := { waitingFib with program := echo name }

/-- A host that would call the program with 0, but starts from an artifact. -/
def resumingEcho : Config :=
  { waitingEcho "echo" with
    arguments := [0], startImmediately := true, fromSnapshot := some "snapshot.bin" }

/-- The program is handed over, whatever its name is. -/
theorem exists_handed (name : String) : ∃ opening handed request,
    Opens (handingEcho name) (waitingEcho name) Remote.steppingId none opening ∧
      opening.Reaches handed ∧ handed.first.session.phase = .transmitted ∧
      handed.parcels = [.message .first 0 (.execute request)] ∧ request.program = name := by
  have course : ∃ first second handed request,
      Remote.ofConfig? (handingEcho name) Remote.steppingId {} = .ok first ∧
      Remote.ofConfig? (waitingEcho name) ⟨List.replicate 16 1, rfl⟩ {} = .ok second ∧
      ({ first, second } : Pair).follow [.inside .first .begin, .inside .first (.invoke 0),
        .inside .first (.turn 0), .inside .first (.settle 0)] = some handed ∧
      handed.first.session.phase = .transmitted ∧
      handed.parcels = [.message .first 0 (.execute request)] ∧ request.program = name :=
    ⟨_, _, _, _, rfl, rfl, rfl, rfl, rfl, rfl⟩
  rcases course with ⟨first, second, handed, request, made, made', follows, phase, parcels, named⟩
  exact ⟨_, handed, request,
    ⟨⟨{}, made, rfl⟩, ⟨_, {}, made'⟩, rfl, rfl, rfl, rfl, rfl⟩, ⟨_, follows⟩, phase, parcels, named⟩

/-- A file can hold the snapshot. -/
theorem exists_loadInitial_echo :
    ∃ directory, Host.loadInitial resumingEcho directory = .ok (some firstOfEcho) := by
  have countable : (Envelope.ofSnapshot "echo" firstOfEcho).Countable :=
    Envelope.countable_of_first (by decide) true 1
  obtain ⟨directory, written⟩ : ∃ directory, Directory.write {} "snapshot.bin"
      (Envelope.ofSnapshot "echo" firstOfEcho).toBytes = .ok directory := ⟨_, rfl⟩
  have opened := (StoredSnapshot.ofBytes?_ofSnapshot_eq_ok_iff countable).mpr ⟨rfl, rfl⟩
  have read := SnapshotFile.read_eq_ok_iff.mpr ⟨_, Directory.read_of_write written, opened⟩
  exact ⟨directory, Host.loadInitial_of_read rfl read rfl rfl⟩

/-- A host that starts from the file goes on with the call with 1. -/
theorem exists_resumed : ∃ opening later,
    Opens resumingEcho (waitingEcho "echo") Remote.steppingId (some firstOfEcho) opening ∧
      opening.Reaches later ∧ (later.host .first).Reports [1] := by
  have course : ∃ host peer second later,
      Host.ofConfig? resumingEcho Remote.steppingId = .ok host ∧ host.caller = some peer ∧
      host.config = resumingEcho ∧
      Remote.ofConfig? (waitingEcho "echo") ⟨List.replicate 16 1, rfl⟩ {} = .ok second ∧
      ({ first := { host with peer, loop := .starting (some firstOfEcho) }, second } : Pair).follow
        [.inside .first .begin, .inside .first (.invoke 0), .inside .first (.turn 0),
          .inside .first (.turn 0)] = some later ∧
      later.first.stage? 0 = some (.returned (.completed [1])) :=
    ⟨_, _, _, _, rfl, rfl, rfl, rfl, rfl, rfl⟩
  rcases course with ⟨host, peer, second, later, isHost, isPeer, isConfig, made', follows, returned⟩
  obtain ⟨directory, loaded⟩ := exists_loadInitial_echo
  have made : Remote.ofConfig? resumingEcho Remote.steppingId directory =
      .ok { host with peer, loop := .starting (some firstOfEcho) } := by
    have begins : resumingEcho.startImmediately = true := rfl
    rw [← isConfig] at loaded begins
    simp only [Remote.ofConfig?, isHost, isPeer, bind, Except.bind,
      Remote.start_of_loadInitial peer begins loaded]
  exact ⟨_, later, ⟨⟨directory, made, loaded⟩, ⟨_, {}, made'⟩, rfl, rfl, rfl, rfl, rfl⟩,
    ⟨_, follows⟩, .returned returned⟩

/-- There are undisturbed courses after which nothing is left of the computation: the hand-over of a
program whose name alone has the size of the limit arrives. And a host that starts from an artifact
comes to results that the call with its arguments does not have. -/
theorem longName_lost_and_resumed_differs :
    (∃ opening handed later : Pair,
      opening.Opens (handingEcho (Peer.longName Peer.maxMessage))
        (waitingEcho (Peer.longName Peer.maxMessage)) Remote.steppingId none ∧
      opening.Reaches handed ∧ handed.arrive 0 = some later ∧
      later.first.ahead + later.copies = 0 ∧ later.first.session.phase = .transmitted ∧
      later.parcels = [.reply .first 0 (.execute (.error (.status "execute" 413
        "Failed to buffer the request body: length limit exceeded")))]) ∧
    ∃ opening later : Pair,
      opening.Opens resumingEcho (waitingEcho "echo") Remote.steppingId (some firstOfEcho) ∧
      opening.Reaches later ∧ (later.host .first).Reports [1] ∧
      ¬ resumingEcho.engine.Ends
        (resumingEcho.engine.call resumingEcho.program.entry resumingEcho.arguments)
        (.completed [1]) := by
  constructor
  · obtain ⟨opening, handed, request, opens, reaches, phase, parcels, named⟩ :=
      exists_handed (Peer.longName Peer.maxMessage)
    have found : handed.parcels[0]? = some (.message .first 0 (.execute request)) := by
      rw [parcels]
      rfl
    obtain ⟨later, loses⟩ := (reaches.shares opens.shares).lost found
      (Peer.ExecuteRequest.large_of_longName named)
    have answered := loses.answered
    rw [parcels] at answered
    have same : later.first = handed.first := loses.hosts .first
    rw [← same] at phase
    exact ⟨opening, handed, later, opens, reaches, loses.arrived, loses.gone, phase, answered⟩
  · obtain ⟨opening, later, opens, reaches, reports⟩ := exists_resumed
    refine ⟨opening, later, opens, reaches, reports, fun ends => ?_⟩
    have called : resumingEcho.engine.Ends
        (resumingEcho.engine.call resumingEcho.program.entry resumingEcho.arguments)
        (.completed [0]) := ⟨3, _, rfl⟩
    cases called.unique ends

end Pair

end Ferry
