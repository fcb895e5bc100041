import Ferry.Machine.Engine
import Ferry.Proofs.Machine.Shape

/-!
# Recording a machine and rebuilding it

A frame keeps everything of an activation whose program counter fits 32 bits. A snapshot can be
resumed exactly if it is the record of a machine with the shape that running machines have, and then
the engine goes on with this machine.
-/

namespace Ferry

namespace Activation

@[simp]
theorem record_ofFrame (frame : Frame) : (ofFrame frame).record = frame := by
  simp [record, ofFrame]

/-- A frame keeps an activation whose program counter fits 32 bits. -/
theorem ofFrame_record {activation : Activation} (inRange : activation.pc < UInt32.size) :
    ofFrame activation.record = activation := by
  simp [record, ofFrame, UInt32.toNat_ofNat_of_lt' inRange]

/-- What is left of a program counter in 32 bits is no greater, so a frame fits where the activation
does. -/
theorem FitsIn.ofFrame_record {module : Module} {activation : Activation}
    (fits : activation.FitsIn module) : (ofFrame activation.record).FitsIn module := by
  rcases fits with ⟨function, found, slots, inside⟩
  refine ⟨function, found, slots, Nat.lt_of_le_of_lt ?_ inside⟩
  simp only [ofFrame, record, Nat.toUInt32_eq, UInt32.toNat_ofNat']
  exact Nat.mod_le _ _

end Activation

namespace Machine

/-- The program counters of a machine fit 32 bits. -/
def Recordable (machine : Machine) : Prop :=
  ∀ activation ∈ machine.activations, activation.pc < UInt32.size

theorem Recordable.ofFrame_frames {machine : Machine} (recordable : machine.Recordable) :
    machine.record.frames.map Activation.ofFrame = machine.activations := by
  rw [record, List.map_map]
  calc machine.activations.map (Activation.ofFrame ∘ Activation.record)
      = machine.activations.map id := List.map_congr_left fun activation member =>
        Activation.ofFrame_record (recordable activation member)
    _ = machine.activations := List.map_id _

end Machine

/-- A snapshot tells everything about a machine: it is valid, it names the function that was called
first, and its frames are the activations, innermost first. -/
structure Snapshot.Tells (snapshot : Snapshot) (machine : Machine) : Prop where
  valid : snapshot.valid = true
  entry : snapshot.entry = machine.entry
  activations : snapshot.frames.map Activation.ofFrame = machine.activations

theorem Machine.Recordable.tells {machine : Machine} (recordable : machine.Recordable) :
    machine.record.Tells machine :=
  ⟨rfl, rfl, recordable.ofFrame_frames⟩

namespace Module

/-- The bodies of a module are so short that a frame can record every offset. -/
def Addressable (module : Module) : Prop :=
  ∀ function ∈ module.functions, function.code.size ≤ UInt32.size

theorem Addressable.recordable {module : Module} (addressable : module.Addressable)
    {machine : Machine} (fits : machine.FitsIn module) : machine.Recordable := by
  intro activation member
  rcases fits.each activation member with ⟨function, found, -, inside⟩
  exact Nat.lt_of_lt_of_le inside (addressable function (Array.mem_of_getElem? found))

end Module

namespace Resumption

/-- The machine with which a resumption goes on. -/
def rebuilt (resumption : Resumption) : Machine :=
  ⟨resumption.entry, .ofFrame resumption.innermost, resumption.callers.map .ofFrame⟩

theorem rebuilt_activations (resumption : Resumption) :
    resumption.rebuilt.activations = resumption.frames.map Activation.ofFrame :=
  rfl

theorem record_rebuilt (resumption : Resumption) :
    resumption.rebuilt.record = ⟨true, resumption.frames, resumption.entry⟩ := by
  have frames_eq : resumption.rebuilt.activations.map Activation.record = resumption.frames := by
    rw [rebuilt_activations, List.map_map]
    exact List.map_id'' Activation.record_ofFrame _
  rw [Machine.record, frames_eq]
  rfl

theorem stranger?_eq_none_iff {count position : Nat} {frames : List Frame} :
    stranger? count position frames = none ↔
      ∀ frame ∈ frames, frame.functionIndex.toNat < count := by
  induction frames generalizing position with
  | nil => simp [stranger?]
  | cons frame rest ih =>
      by_cases unknown : count ≤ frame.functionIndex.toNat
      · simp [stranger?, unknown, Nat.not_lt.mpr unknown]
      · simp [stranger?, unknown, Nat.not_le.mp unknown, ih]

private theorem outermost_eq_iff {innermost : Frame} {callers : List Frame} {entry : UInt32} :
    ((innermost :: callers).map Frame.functionIndex).getLast? = some entry ↔
      ((innermost :: callers).getLast (List.cons_ne_nil _ _)).functionIndex = entry := by
  rw [List.getLast?_map, List.getLast?_eq_some_getLast (List.cons_ne_nil innermost callers),
    Option.map_some, Option.some.injEq]

/-- A snapshot is judged fit if it is valid, its outermost frame belongs to its entry function, and
all its functions exist. -/
theorem ofSnapshot?_eq_ok_iff {snapshot : Snapshot} {count : Nat} {resumption : Resumption} :
    ofSnapshot? snapshot count = .ok resumption ↔
      snapshot = ⟨true, resumption.frames, resumption.entry⟩ ∧
        (resumption.frames.map Frame.functionIndex).getLast? = some resumption.entry ∧
        ∀ frame ∈ resumption.frames, frame.functionIndex.toNat < count := by
  constructor
  · intro judged
    rcases snapshot with ⟨valid, frames, entry⟩
    rw [ofSnapshot?] at judged
    split at judged
    · contradiction
    rename_i isValid
    split at judged
    · contradiction
    rename_i innermost callers isFrames
    dsimp only at judged
    split at judged
    · contradiction
    rename_i sameEntry
    split at judged
    · contradiction
    rename_i known
    cases judged
    obtain rfl : valid = true := by simpa using isValid
    obtain rfl : frames = innermost :: callers := isFrames
    exact ⟨rfl, outermost_eq_iff.mpr (Decidable.not_not.mp sameEntry), stranger?_eq_none_iff.mp known⟩
  · rintro ⟨rfl, sameEntry, known⟩
    have known' : stranger? count 0 resumption.frames = none := stranger?_eq_none_iff.mpr known
    have sameEntry' := outermost_eq_iff.mp sameEntry
    simp only [frames] at known'
    simp [ofSnapshot?, frames, known', sameEntry']

theorem misfit?_eq_none_iff {module : Module} {frame : Frame} :
    misfit? module frame = none ↔ (Activation.ofFrame frame).FitsIn module := by
  cases found : module.function? frame.functionIndex with
  | none => simp [misfit?, Activation.FitsIn, Activation.ofFrame, found]
  | some function =>
      by_cases slots : frame.locals.length = function.locals.toNat
      · simp [misfit?, Activation.FitsIn, Activation.ofFrame, found, slots]
      · simp [misfit?, Activation.FitsIn, Activation.ofFrame, found, slots]

/-- The search through the frames finds nothing if all of them fit their functions. -/
theorem findSome?_misfit?_eq_none_iff {module : Module} {frames : List Frame} :
    frames.reverse.findSome? (misfit? module) = none ↔
      ∀ frame ∈ frames, (Activation.ofFrame frame).FitsIn module := by
  simp only [List.findSome?_eq_none_iff, List.mem_reverse, misfit?_eq_none_iff]

/-- A machine is rebuilt if every frame fits its function and there are not too many of them. -/
theorem machine_eq_ok_iff {resumption : Resumption} {module : Module} {limit : Nat}
    {result : Machine} :
    resumption.machine module limit = .ok result ↔
      result = resumption.rebuilt ∧ resumption.depth ≤ limit ∧
        ∀ frame ∈ resumption.frames, (Activation.ofFrame frame).FitsIn module := by
  have fits := @findSome?_misfit?_eq_none_iff module resumption.frames
  cases misfit : resumption.frames.reverse.findSome? (misfit? module) with
  | some trap =>
      rw [misfit] at fits
      simp [machine, misfit, ← fits]
  | none =>
      by_cases tooDeep : limit < resumption.depth
      · simp [machine, misfit, tooDeep, Nat.not_le.mpr tooDeep]
      · simp only [machine, misfit, if_neg tooDeep, Except.ok.injEq]
        constructor
        · rintro rfl
          exact ⟨rfl, Nat.not_lt.mp tooDeep, fits.mp misfit⟩
        · rintro ⟨rfl, -, -⟩
          rfl

end Resumption

namespace Machine

/-- A record has frames, so it is right that it is marked as valid. -/
theorem wellFormed_record (machine : Machine) : machine.record.WellFormed := by
  simp [Snapshot.WellFormed, record, activations]

/-- The resumption that the record of a machine gives. -/
def resumption (machine : Machine) : Resumption :=
  ⟨machine.entry, machine.top.record, machine.callers.map Activation.record⟩

theorem resumption_frames (machine : Machine) :
    machine.resumption.frames = machine.activations.map Activation.record :=
  rfl

theorem resumption_depth (machine : Machine) : machine.resumption.depth = machine.depth := by
  simp [Resumption.depth, resumption_frames, activations, depth]

/-- The frames that a machine leaves are judged fit if the machine is. -/
theorem FitsIn.ofSnapshot?_record {module : Module} {machine : Machine}
    (fits : machine.FitsIn module) :
    Resumption.ofSnapshot? machine.record module.size = .ok machine.resumption := by
  refine Resumption.ofSnapshot?_eq_ok_iff.mpr ⟨rfl, ?_, ?_⟩
  · rw [resumption_frames, List.map_map]
    exact fits.outermost
  · rw [resumption_frames]
    refine List.forall_mem_map.mpr fun activation member => ?_
    rcases fits.each activation member with ⟨function, found, -, -⟩
    exact (module.function?_isSome_iff _).mp (Option.isSome_of_eq_some found)

theorem FitsIn.fitsIn_frames {module : Module} {machine : Machine} (fits : machine.FitsIn module) :
    ∀ frame ∈ machine.resumption.frames, (Activation.ofFrame frame).FitsIn module := by
  rw [resumption_frames]
  exact List.forall_mem_map.mpr fun activation member =>
    (fits.each activation member).ofFrame_record

theorem Recordable.rebuilt_resumption {machine : Machine} (recordable : machine.Recordable) :
    machine.resumption.rebuilt = machine := by
  have same : machine.resumption.rebuilt.activations = machine.activations :=
    recordable.ofFrame_frames
  rcases machine with ⟨entry, top, callers⟩
  obtain ⟨same_top, same_callers⟩ := List.cons.inj same
  exact Machine.mk.injEq .. ▸ ⟨rfl, same_top, same_callers⟩

/-- A record tells machines apart. -/
theorem Recordable.record_inj {machine other : Machine} (recordable : machine.Recordable)
    (recordable' : other.Recordable) (same : machine.record = other.record) : machine = other := by
  rcases Snapshot.mk.inj same with ⟨-, same_frames, same_entry⟩
  obtain ⟨same_top, same_callers⟩ := List.cons.inj same_frames
  have same_resumption : machine.resumption = other.resumption := by
    rw [resumption, resumption, same_entry, same_top, same_callers]
  rw [← recordable.rebuilt_resumption, same_resumption, recordable'.rebuilt_resumption]

end Machine

namespace Engine

/-- A snapshot is resumed exactly if it is the record of a machine that could be running: one with
the right shape, within the limit, and with program counters of 32 bits. The engine then goes on
with this machine, and does not consult the signal first. -/
theorem resume_eq_ok_iff {engine : Engine} {snapshot : Snapshot} {invocation : Invocation} :
    engine.resume snapshot = .ok invocation ↔
      invocation.consults = false ∧
        invocation.machine.Regular engine.module engine.maxCallDepth ∧
        invocation.machine.Recordable ∧ invocation.machine.record = snapshot := by
  constructor
  · intro resumed
    rw [resume] at resumed
    split at resumed
    · contradiction
    rename_i resumption judged
    split at resumed
    · contradiction
    rename_i machine isMachine
    cases resumed
    rcases Resumption.ofSnapshot?_eq_ok_iff.mp judged with ⟨rfl, sameEntry, known⟩
    rcases Resumption.machine_eq_ok_iff.mp isMachine with ⟨rfl, depth_le, fits⟩
    refine ⟨rfl, ⟨⟨?_, ?_⟩, ?_⟩, ?_, resumption.record_rebuilt⟩
    · rw [Resumption.rebuilt_activations]
      exact List.forall_mem_map.mpr fits
    · rw [Resumption.rebuilt_activations, List.map_map]
      exact sameEntry
    · simpa [Machine.depth, Resumption.depth, Resumption.frames, Resumption.rebuilt] using depth_le
    · rw [Machine.Recordable, Resumption.rebuilt_activations]
      exact List.forall_mem_map.mpr fun frame _ => frame.programCounter.toNat_lt
  · rintro ⟨unconsulted, regular, recordable, rfl⟩
    rcases invocation with ⟨machine, consults⟩
    cases unconsulted
    have judged := regular.fitsIn.ofSnapshot?_record
    have isMachine : machine.resumption.machine engine.module engine.maxCallDepth =
        .ok machine := by
      refine Resumption.machine_eq_ok_iff.mpr
        ⟨recordable.rebuilt_resumption.symm, ?_, regular.fitsIn.fitsIn_frames⟩
      rw [machine.resumption_depth]
      exact regular.depth_le
    simp [resume, judged, isMachine]

/-- The record of a machine that fits its module is resumed if it is within the limit. If it names
offsets beyond 32 bits, the engine goes on at what is left of them. -/
theorem resume_record_of_depth_le {engine : Engine} {machine : Machine}
    (fits : machine.FitsIn engine.module) (depth_le : machine.depth ≤ engine.maxCallDepth) :
    engine.resume machine.record = .ok ⟨machine.resumption.rebuilt, false⟩ := by
  have isMachine : machine.resumption.machine engine.module engine.maxCallDepth =
      .ok machine.resumption.rebuilt :=
    Resumption.machine_eq_ok_iff.mpr ⟨rfl, by rwa [machine.resumption_depth], fits.fitsIn_frames⟩
  simp [resume, fits.ofSnapshot?_record, isMachine]

/-- Beyond the limit it is refused for its depth. -/
theorem resume_record_of_lt_depth {engine : Engine} {machine : Machine}
    (fits : machine.FitsIn engine.module) (tooDeep : engine.maxCallDepth < machine.depth) :
    engine.resume machine.record =
      .error (.unrestorable (.callDepthExceeded engine.maxCallDepth)) := by
  have noMisfit := Resumption.findSome?_misfit?_eq_none_iff.mpr fits.fitsIn_frames
  rw [← machine.resumption_depth] at tooDeep
  simp [resume, fits.ofSnapshot?_record, Resumption.machine, noMisfit, tooDeep]

/-- A regular machine is resumed from its record. -/
theorem resume_record {engine : Engine} {machine : Machine}
    (regular : machine.Regular engine.module engine.maxCallDepth)
    (addressable : engine.module.Addressable) :
    engine.resume machine.record = .ok ⟨machine, false⟩ :=
  resume_eq_ok_iff.mpr ⟨rfl, regular, addressable.recordable regular.fitsIn, rfl⟩

end Engine

end Ferry
