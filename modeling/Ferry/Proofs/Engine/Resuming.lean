import Mathlib.Data.List.Forall2
import Ferry.Program.Builtin
import Ferry.Proofs.Machine.Recording

/-!
# Which snapshots can be resumed

A snapshot is judged twice before the engine goes on with it: from the innermost frame outward
against the number of functions, and from the outermost frame inward against the functions
themselves. It is refused for the first condition that it violates. Otherwise the stack is rebuilt
from its frames, the outermost first, and records the same snapshot again.
-/

namespace Ferry

/-- A frame has the slots of its function and stands before an instruction of the body. -/
def Frame.FitsIn (module : Module) (frame : Frame) : Prop :=
  ∃ function, module.function? frame.functionIndex = some function ∧
    frame.locals.length = function.locals.toNat ∧
    frame.programCounter.toNat < function.code.size

/-- What is wrong with a frame of a function. -/
inductive Function.Misfit (function : Function) (frame : Frame) : Trap → Prop where
  | slots (differ : frame.locals.length ≠ function.locals.toNat) :
      Misfit function frame (.corruptFrame (s!"{function.name} has {function.locals.toNat} locals, "
        ++ s!"frame carries {frame.locals.length}"))
  | counter (slots : frame.locals.length = function.locals.toNat)
      (outside : function.code.size ≤ frame.programCounter.toNat) :
      Misfit function frame (.pcOutOfRange frame.programCounter.toNat)

namespace Snapshot

/-- The outermost frame belongs to the function that was called first. -/
def Opens (snapshot : Snapshot) : Prop :=
  ∃ outermost, snapshot.outermost? = some outermost ∧ outermost.functionIndex = snapshot.entry

/-- A snapshot is fit for a module with `count` functions. -/
structure Suits (snapshot : Snapshot) (count : Nat) : Prop where
  valid : snapshot.valid = true
  opens : snapshot.Opens
  known : ∀ frame ∈ snapshot.frames, frame.functionIndex.toNat < count

/-- Why a snapshot is not fit for any module with `count` functions. -/
inductive Refused (snapshot : Snapshot) (count : Nat) : Refusal → Prop where
  | notValid (invalid : snapshot.valid = false) : Refused snapshot count .notValid
  | noFrames (valid : snapshot.valid = true) (empty : snapshot.frames = []) :
      Refused snapshot count .noFrames
  | entryMismatch {outermost : Frame} (valid : snapshot.valid = true)
      (last : snapshot.outermost? = some outermost)
      (differs : outermost.functionIndex ≠ snapshot.entry) :
      Refused snapshot count (.entryMismatch snapshot.entry outermost.functionIndex)
  /-- The innermost of the frames that belong to no function. -/
  | unknownFunction {inner outer : List Frame} {frame : Frame} (valid : snapshot.valid = true)
      (opens : snapshot.Opens) (parted : snapshot.frames = inner ++ frame :: outer)
      (known : ∀ other ∈ inner, other.functionIndex.toNat < count)
      (unknown : count ≤ frame.functionIndex.toNat) :
      Refused snapshot count (.unknownFunction inner.length frame.functionIndex count)

end Snapshot

namespace Resumption

variable {module : Module} {frame : Frame} {frames : List Frame} {snapshot : Snapshot}
  {count position limit : Nat} {refusal : Refusal} {resumption : Resumption} {trap : Trap}

/-- The search for a frame of no function begins with the innermost one. -/
theorem stranger?_eq_some_iff :
    stranger? count position frames = some refusal ↔
      ∃ inner frame outer, frames = inner ++ frame :: outer ∧
        (∀ other ∈ inner, other.functionIndex.toNat < count) ∧
        count ≤ frame.functionIndex.toNat ∧
        refusal = .unknownFunction (position + inner.length) frame.functionIndex count := by
  induction frames generalizing position with
  | nil => simp [stranger?]
  | cons first rest ih =>
      rw [stranger?]
      constructor
      · intro found
        split at found
        · rename_i unknown
          cases found
          exact ⟨[], first, rest, rfl, List.forall_mem_nil _, unknown, rfl⟩
        · rename_i known
          obtain ⟨inner, frame, outer, rfl, all, unknown, rfl⟩ := ih.mp found
          refine ⟨first :: inner, frame, outer, rfl,
            List.forall_mem_cons.mpr ⟨Nat.not_le.mp known, all⟩, unknown, ?_⟩
          rw [List.length_cons, Nat.add_right_comm, Nat.add_assoc]
      · rintro ⟨inner, frame, outer, parted, all, unknown, rfl⟩
        cases inner with
        | nil =>
            cases parted
            rw [if_pos unknown]
            rfl
        | cons _ inner =>
            cases parted
            obtain ⟨known, all⟩ := List.forall_mem_cons.mp all
            rw [if_neg (Nat.not_le.mpr known)]
            refine ih.mpr ⟨inner, frame, outer, rfl, all, unknown, ?_⟩
            rw [List.length_cons, Nat.add_right_comm, Nat.add_assoc]

theorem ofSnapshot?_of_invalid (invalid : snapshot.valid = false) :
    ofSnapshot? snapshot count = .error .notValid := by
  simp [ofSnapshot?, invalid]

theorem ofSnapshot?_of_noFrames (valid : snapshot.valid = true) (empty : snapshot.frames = []) :
    ofSnapshot? snapshot count = .error .noFrames := by
  simp [ofSnapshot?, valid, empty]

theorem ofSnapshot?_of_mismatch {outermost : Frame} (valid : snapshot.valid = true)
    (last : snapshot.outermost? = some outermost)
    (differs : outermost.functionIndex ≠ snapshot.entry) :
    ofSnapshot? snapshot count =
      .error (.entryMismatch snapshot.entry outermost.functionIndex) := by
  rcases snapshot with ⟨_, frames, entry⟩
  obtain rfl := valid
  cases frames with
  | nil => cases last
  | cons innermost callers =>
      rw [Snapshot.outermost?, List.getLast?_eq_some_getLast (List.cons_ne_nil _ _)] at last
      cases last
      simp [ofSnapshot?, differs]

/-- If the outermost frame is right, the frames are judged. -/
theorem ofSnapshot?_of_opens (valid : snapshot.valid = true) (opens : snapshot.Opens) :
    ofSnapshot? snapshot count = .error refusal ↔
      stranger? count 0 snapshot.frames = some refusal := by
  rcases snapshot with ⟨_, frames, entry⟩
  obtain rfl := valid
  obtain ⟨outermost, last, rfl⟩ := opens
  cases frames with
  | nil => cases last
  | cons innermost callers =>
      rw [Snapshot.outermost?, List.getLast?_eq_some_getLast (List.cons_ne_nil _ _)] at last
      cases last
      cases strange : stranger? count 0 (innermost :: callers) <;> simp [ofSnapshot?, strange]

/-- A snapshot is refused for the first condition that it violates. -/
theorem ofSnapshot?_eq_error_iff :
    ofSnapshot? snapshot count = .error refusal ↔ snapshot.Refused count refusal := by
  constructor
  · intro judged
    cases valid : snapshot.valid with
    | false =>
        rw [ofSnapshot?_of_invalid valid] at judged
        cases judged
        exact .notValid valid
    | true =>
      cases last : snapshot.outermost? with
      | none =>
          have empty := List.getLast?_eq_none_iff.mp last
          rw [ofSnapshot?_of_noFrames valid empty] at judged
          cases judged
          exact .noFrames valid empty
      | some outermost =>
          by_cases same : outermost.functionIndex = snapshot.entry
          · have opens : snapshot.Opens := ⟨outermost, last, same⟩
            rw [ofSnapshot?_of_opens valid opens, stranger?_eq_some_iff] at judged
            obtain ⟨inner, frame, outer, parted, known, unknown, rfl⟩ := judged
            rw [Nat.zero_add]
            exact .unknownFunction valid opens parted known unknown
          · rw [ofSnapshot?_of_mismatch valid last same] at judged
            cases judged
            exact .entryMismatch valid last same
  · intro refused
    cases refused with
    | notValid invalid => exact ofSnapshot?_of_invalid invalid
    | noFrames valid empty => exact ofSnapshot?_of_noFrames valid empty
    | entryMismatch valid last differs => exact ofSnapshot?_of_mismatch valid last differs
    | unknownFunction valid opens parted known unknown =>
        rw [ofSnapshot?_of_opens valid opens, stranger?_eq_some_iff]
        exact ⟨_, _, _, parted, known, unknown, by rw [Nat.zero_add]⟩

theorem misfit?_eq_some_iff {function : Function}
    (found : module.function? frame.functionIndex = some function) :
    misfit? module frame = some trap ↔ function.Misfit frame trap := by
  simp only [misfit?, found]
  constructor
  · intro misfit
    split at misfit
    · rename_i differ
      cases misfit
      exact .slots differ
    · rename_i slots
      split at misfit
      · rename_i outside
        cases misfit
        exact .counter (Decidable.not_not.mp slots) outside
      · cases misfit
  · intro misfit
    cases misfit with
    | slots differ => rw [if_pos differ]
    | counter slots outside => rw [if_neg (not_not_intro slots), if_pos outside]

/-- The search for a frame that does not fit begins with the outermost one. -/
theorem findSome?_misfit?_eq_some_iff
    (known : ∀ frame ∈ frames, frame.functionIndex.toNat < module.size) :
    frames.reverse.findSome? (misfit? module) = some trap ↔
      ∃ inner frame outer function, frames = inner ++ frame :: outer ∧
        (∀ other ∈ outer, other.FitsIn module) ∧
        module.function? frame.functionIndex = some function ∧ function.Misfit frame trap := by
  rw [List.findSome?_eq_some_iff]
  constructor
  · rintro ⟨front, frame, back, parted, misfit, fits⟩
    have parted : frames = back.reverse ++ frame :: front.reverse := by
      rw [List.reverse_eq_iff.mp parted]
      simp
    have member : frame ∈ frames := by simp [parted]
    obtain ⟨function, found⟩ := Option.isSome_iff_exists.mp
      ((module.function?_isSome_iff _).mpr (known frame member))
    refine ⟨_, frame, _, function, parted, ?_, found, (misfit?_eq_some_iff found).mp misfit⟩
    intro other member
    exact misfit?_eq_none_iff.mp (fits other (List.mem_reverse.mp member))
  · rintro ⟨inner, frame, outer, function, rfl, fits, found, misfit⟩
    refine ⟨outer.reverse, frame, inner.reverse, by simp,
      (misfit?_eq_some_iff found).mpr misfit, ?_⟩
    intro other member
    exact misfit?_eq_none_iff.mpr (fits other (List.mem_reverse.mp member))

/-- The outermost frame that does not fit its function decides, and only then the limit. -/
theorem machine_eq_error_iff
    (known : ∀ frame ∈ resumption.frames, frame.functionIndex.toNat < module.size) :
    resumption.machine module limit = .error trap ↔
      (∃ inner frame outer function, resumption.frames = inner ++ frame :: outer ∧
        (∀ other ∈ outer, other.FitsIn module) ∧
        module.function? frame.functionIndex = some function ∧ function.Misfit frame trap) ∨
      (∀ frame ∈ resumption.frames, frame.FitsIn module) ∧ limit < resumption.depth ∧
        trap = .callDepthExceeded limit := by
  rw [← findSome?_misfit?_eq_some_iff known, machine]
  cases misfit : resumption.frames.reverse.findSome? (misfit? module) with
  | some found =>
      have unfit : ¬ ∀ frame ∈ resumption.frames, frame.FitsIn module := by
        intro fits
        rw [findSome?_misfit?_eq_none_iff.mpr fits] at misfit
        cases misfit
      simp [unfit]
  | none =>
      have fits : ∀ frame ∈ resumption.frames, frame.FitsIn module :=
        findSome?_misfit?_eq_none_iff.mp misfit
      by_cases deep : limit < resumption.depth
      · simp only [if_pos deep, reduceCtorEq, false_or, Except.error.injEq]
        exact ⟨fun same => ⟨fits, deep, same.symm⟩, fun decides => decides.2.2.symm⟩
      · simp [deep]

/-- The judgement lets through what suits the number of functions, and nothing else. -/
theorem suits_of_ok (judged : ofSnapshot? snapshot count = .ok resumption) :
    snapshot.Suits count ∧ resumption.frames = snapshot.frames := by
  obtain ⟨rfl, entry, known⟩ := ofSnapshot?_eq_ok_iff.mp judged
  rw [List.getLast?_map, Option.map_eq_some_iff] at entry
  exact ⟨⟨rfl, entry, known⟩, rfl⟩

theorem exists_ok_of_suits (suits : snapshot.Suits count) :
    ∃ resumption, ofSnapshot? snapshot count = .ok resumption := by
  obtain ⟨valid, ⟨outermost, last, entry⟩, known⟩ := suits
  rcases snapshot with ⟨_, frames, index⟩
  obtain rfl := valid
  cases frames with
  | nil => cases last
  | cons innermost callers =>
      have entry : ((innermost :: callers).map Frame.functionIndex).getLast? = some index := by
        rw [List.getLast?_map, Option.map_eq_some_iff]
        exact ⟨outermost, last, entry⟩
      exact ⟨⟨index, innermost, callers⟩, ofSnapshot?_eq_ok_iff.mpr ⟨rfl, entry, known⟩⟩

end Resumption

/-- The live activations, in the order in which their calls began. -/
def Machine.stack (machine : Machine) : List Activation := machine.activations.reverse

/-- An activation is what a frame records; its operand stack is written bottom first. -/
structure Activation.Holds (activation : Activation) (frame : Frame) : Prop where
  function_eq : activation.function = frame.functionIndex
  pc_eq : activation.pc = frame.programCounter.toNat
  locals_eq : activation.locals = frame.locals
  operands_eq : activation.operands.reverse = frame.operands

namespace Engine

variable {engine : Engine} {snapshot : Snapshot} {invocation : Invocation}

/-- An engine can go on with a snapshot. -/
structure Accepts (engine : Engine) (snapshot : Snapshot) : Prop where
  valid : snapshot.valid = true
  occupied : snapshot.frames ≠ []
  entry : ∀ outermost, snapshot.outermost? = some outermost →
    outermost.functionIndex = snapshot.entry
  known : ∀ frame ∈ snapshot.frames, frame.functionIndex.toNat < engine.module.size
  fits : ∀ frame ∈ snapshot.frames, frame.FitsIn engine.module
  depth_le : snapshot.depth ≤ engine.maxCallDepth

/-- Why an engine does not go on with a snapshot. -/
inductive Refuses (engine : Engine) (snapshot : Snapshot) : Fault → Prop where
  | refused {refusal : Refusal} (refused : snapshot.Refused engine.module.size refusal) :
      Refuses engine snapshot (.refused refusal)
  /-- The outermost of the frames that do not fit. -/
  | misfit {inner outer : List Frame} {frame : Frame} {function : Function} {trap : Trap}
      (suits : snapshot.Suits engine.module.size)
      (parted : snapshot.frames = inner ++ frame :: outer)
      (fits : ∀ other ∈ outer, other.FitsIn engine.module)
      (found : engine.module.function? frame.functionIndex = some function)
      (misfit : function.Misfit frame trap) : Refuses engine snapshot (.unrestorable trap)
  | tooDeep (suits : snapshot.Suits engine.module.size)
      (fits : ∀ frame ∈ snapshot.frames, frame.FitsIn engine.module)
      (deep : engine.maxCallDepth < snapshot.depth) :
      Refuses engine snapshot (.unrestorable (.callDepthExceeded engine.maxCallDepth))

/-- An invocation goes on where a snapshot was taken. -/
structure Revives (engine : Engine) (snapshot : Snapshot) (invocation : Invocation) : Prop where
  /-- The boundary before the first instruction was used up by the capture. -/
  consults_eq : invocation.consults = false
  entry_eq : invocation.machine.entry = snapshot.entry
  stack : List.Forall₂ Activation.Holds invocation.machine.stack snapshot.frames.reverse
  /-- The snapshot can be captured again at once. -/
  captured : Snapshot.capture (invocation.machine.stack.reverse.map Activation.record)
    invocation.machine.entry = .ok snapshot
  /-- This is what happens if the signal is consulted while it is armed. -/
  paused : ∀ signal : Signal, signal.armed = true →
    engine.turn signal ⟨invocation.machine, true⟩ = (.ended (.paused snapshot), signal.take.2)

theorem resume_eq_error_iff {fault : Fault} :
    engine.resume snapshot = .error fault ↔
      (∃ refusal, Resumption.ofSnapshot? snapshot engine.module.size = .error refusal ∧
        fault = .refused refusal) ∨
      ∃ resumption trap, Resumption.ofSnapshot? snapshot engine.module.size = .ok resumption ∧
        resumption.machine engine.module engine.maxCallDepth = .error trap ∧
        fault = .unrestorable trap := by
  rw [resume]
  cases judged : Resumption.ofSnapshot? snapshot engine.module.size with
  | error refusal => simp [eq_comm]
  | ok resumption =>
      cases rebuilt : resumption.machine engine.module engine.maxCallDepth with
      | error trap => simp [rebuilt, eq_comm]
      | ok machine => simp [rebuilt]

theorem resume_of_ok {resumption : Resumption} {machine : Machine}
    (judged : Resumption.ofSnapshot? snapshot engine.module.size = .ok resumption)
    (rebuilt : resumption.machine engine.module engine.maxCallDepth = .ok machine) :
    engine.resume snapshot = .ok ⟨machine, false⟩ := by
  simp only [resume, judged, rebuilt]

theorem exists_of_resume (resumed : engine.resume snapshot = .ok invocation) :
    ∃ resumption, Resumption.ofSnapshot? snapshot engine.module.size = .ok resumption ∧
      resumption.machine engine.module engine.maxCallDepth = .ok invocation.machine := by
  rw [resume] at resumed
  split at resumed
  · cases resumed
  · rename_i resumption judged
    split at resumed
    · cases resumed
    · rename_i machine rebuilt
      cases resumed
      exact ⟨resumption, judged, rebuilt⟩

theorem Accepts.suits (accepts : engine.Accepts snapshot) : snapshot.Suits engine.module.size := by
  have last := List.getLast?_eq_some_getLast accepts.occupied
  exact ⟨accepts.valid, ⟨_, last, accepts.entry _ last⟩, accepts.known⟩

theorem exists_resume_iff :
    (∃ invocation, engine.resume snapshot = .ok invocation) ↔ engine.Accepts snapshot := by
  constructor
  · rintro ⟨invocation, resumed⟩
    obtain ⟨resumption, judged, rebuilt⟩ := exists_of_resume resumed
    obtain ⟨⟨valid, ⟨outermost, last, entry⟩, known⟩, same⟩ := Resumption.suits_of_ok judged
    obtain ⟨-, depth_le, fits⟩ := Resumption.machine_eq_ok_iff.mp rebuilt
    rw [same] at fits
    rw [Resumption.depth, same] at depth_le
    constructor
    case valid => exact valid
    case occupied =>
      intro empty
      rw [Snapshot.outermost?, empty] at last
      cases last
    case entry =>
      intro outermost isLast
      rw [last] at isLast
      cases isLast
      exact entry
    case known => exact known
    case fits => exact fits
    case depth_le => exact depth_le
  · intro accepts
    obtain ⟨resumption, judged⟩ := Resumption.exists_ok_of_suits accepts.suits
    have same := (Resumption.suits_of_ok judged).2
    have depth_le : resumption.depth ≤ engine.maxCallDepth := by
      rw [Resumption.depth, same]
      exact accepts.depth_le
    have rebuilt := Resumption.machine_eq_ok_iff.mpr ⟨rfl, depth_le, same ▸ accepts.fits⟩
    exact ⟨_, resume_of_ok judged rebuilt⟩

theorem refuses_iff {fault : Fault} :
    engine.resume snapshot = .error fault ↔ engine.Refuses snapshot fault := by
  rw [resume_eq_error_iff]
  constructor
  · rintro (⟨refusal, judged, rfl⟩ | ⟨resumption, trap, judged, unfit, rfl⟩)
    · exact .refused (Resumption.ofSnapshot?_eq_error_iff.mp judged)
    · obtain ⟨suits, same⟩ := Resumption.suits_of_ok judged
      rw [Resumption.machine_eq_error_iff (same ▸ suits.known), Resumption.depth, same] at unfit
      rcases unfit with ⟨inner, frame, outer, function, parted, fits, found, misfit⟩ |
        ⟨fits, deep, rfl⟩
      · exact .misfit suits parted fits found misfit
      · exact .tooDeep suits fits deep
  · intro refuses
    cases refuses with
    | refused refused => exact .inl ⟨_, Resumption.ofSnapshot?_eq_error_iff.mpr refused, rfl⟩
    | misfit suits parted fits found misfit =>
        obtain ⟨resumption, judged⟩ := Resumption.exists_ok_of_suits suits
        have same := (Resumption.suits_of_ok judged).2
        refine .inr ⟨resumption, _, judged, ?_, rfl⟩
        rw [Resumption.machine_eq_error_iff (same ▸ suits.known), same]
        exact .inl ⟨_, _, _, _, parted, fits, found, misfit⟩
    | tooDeep suits fits deep =>
        obtain ⟨resumption, judged⟩ := Resumption.exists_ok_of_suits suits
        have same := (Resumption.suits_of_ok judged).2
        refine .inr ⟨resumption, _, judged, ?_, rfl⟩
        rw [Resumption.machine_eq_error_iff (same ▸ suits.known), Resumption.depth, same]
        exact .inr ⟨fits, deep, rfl⟩

theorem revives_of_resume (resumed : engine.resume snapshot = .ok invocation) :
    engine.Revives snapshot invocation := by
  obtain ⟨unconsulted, -, recordable, rfl⟩ := resume_eq_ok_iff.mp resumed
  have same := recordable.ofFrame_frames
  constructor
  case consults_eq => exact unconsulted
  case entry_eq => rfl
  case stack =>
    rw [Machine.stack, List.forall₂_reverse_iff, ← same, List.forall₂_map_left_iff,
      List.forall₂_same]
    exact fun frame _ => ⟨rfl, rfl, rfl, List.reverse_reverse _⟩
  case captured =>
    rw [Machine.stack, List.reverse_reverse]
    exact invocation.machine.capture_record
  case paused =>
    intro signal armed
    simp [turn, armed]

/-- An engine goes on with a snapshot exactly if the snapshot violates no condition, and refuses it
for the first one that it violates. It goes on with the stack that the snapshot records, from which
the same snapshot can be captured again before anything runs. -/
theorem resumed_exactly (engine : Engine) (snapshot : Snapshot) :
    ((∃ invocation, engine.resume snapshot = .ok invocation) ↔ engine.Accepts snapshot) ∧
    (∀ fault, engine.resume snapshot = .error fault ↔ engine.Refuses snapshot fault) ∧
    ∀ invocation, engine.resume snapshot = .ok invocation → engine.Revives snapshot invocation :=
  ⟨exists_resume_iff, fun _ => refuses_iff, fun _ => revives_of_resume⟩

/-- Of two frames that do not fit the outermost is told, although there is room for only one of
them. A frame that fits is rebuilt, and can be captured again. -/
theorem resumed_exactly_fib :
    (Engine.mk Program.fib.module 1).resume ⟨true, [⟨5, 0, [], []⟩, ⟨50, 0, [9], []⟩], 0⟩ =
      .error (.unrestorable (.pcOutOfRange 50)) ∧
    ∃ invocation,
      (Engine.mk Program.fib.module 1).resume ⟨true, [⟨5, 0, [9], [1, 2]⟩], 0⟩ = .ok invocation ∧
      (Engine.mk Program.fib.module 1).Revives ⟨true, [⟨5, 0, [9], [1, 2]⟩], 0⟩ invocation := by
  constructor
  · refine ((resumed_exactly _ _).2.1 _).mpr ?_
    have suits : Snapshot.Suits ⟨true, [⟨5, 0, [], []⟩, ⟨50, 0, [9], []⟩], 0⟩ 1 :=
      ⟨rfl, ⟨_, rfl, rfl⟩, by decide⟩
    exact @Refuses.misfit _ _ [_] [] _ _ _ suits rfl (List.forall_mem_nil _) rfl
      (.counter rfl (by decide))
  · exact ⟨_, rfl, (resumed_exactly _ _).2.2 _ rfl⟩

end Engine

end Ferry
