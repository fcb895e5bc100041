import Ferry.Proofs.Machine.Trapping
import Ferry.Proofs.Peer.Address
import Ferry.Proofs.Trigger.Confinement

/-!
# What options that were judged fit are good for

The arguments that an operator gives are counted when the options are judged. Those that a program
has by default are not: the engine counts them when it is to call the program, and refuses the call
before any instruction has run. The address of a peer is judged for itself when the host is made;
the options are refused only if the mode asks for a peer and none is given.
-/

namespace Ferry

open Text

/-- A function is given another number of arguments than it takes. -/
def Fault.IsMismatch : Fault → Prop
  | .badArguments _ _ _ => True
  | .unrestorable (.argumentMismatch _ _) => True
  | .trapped (.argumentMismatch _ _) _ _ => True
  | _ => False

theorem Fault.not_isMismatch_of_ordinary {limit pc : Nat} {function : String} {trap : Trap}
    (ordinary : trap.Ordinary limit) : ¬ (Fault.trapped trap function pc).IsMismatch := by
  cases ordinary <;> exact not_false

namespace Engine

variable {engine : Engine} {entry : UInt32} {arguments : List Word}

/-- A call that has begun does not end because of the number of arguments, of this call or of a
later one. -/
theorem not_isMismatch_of_call {invocation : Invocation} {arms : Nat → Bool}
    {fuel boundary : Nat} {signal left : Signal} {fault : Fault}
    (called : engine.call entry arguments = .ok invocation)
    (ended : engine.run arms fuel boundary signal invocation = some (.faulted fault, left)) :
    ¬ fault.IsMismatch := by
  obtain ⟨count, machine, passed, ⟨paused, -, -⟩ | stops⟩ := run_cases ended
  · cases paused
  · have fits := fitsIn_after (fitsIn_of_call called) passed
    obtain ⟨trap, site, trapped, rfl⟩ := trapped_of_end? stops
    exact Fault.not_isMismatch_of_ordinary (fits.ordinary trapped)

end Engine

namespace Program

/-- The function that a program calls is there, and it takes as many arguments as the program. -/
theorem exists_function (program : Program) :
    ∃ function, program.module.function? program.entry = some function ∧
      function.params.toNat = program.arity := by
  obtain ⟨index, found, same⟩ := Option.map_eq_some_iff.mp program.exported
  have within : program.entry.toNat < program.module.functions.size := by
    have bound := (List.findIdx?_eq_some_iff_getElem.mp found).1
    rw [← same, UInt32.toNat_ofNat']
    exact Nat.lt_of_le_of_lt (Nat.mod_le _ _) bound
  have there : program.module.function? program.entry =
      some program.module.functions[program.entry.toNat] :=
    Array.getElem?_eq_getElem within
  exact ⟨_, there, by rw [arity, there]⟩

theorem arguments_eq_ok_iff {program : Program} {given arguments : List Word} :
    program.arguments given = .ok arguments ↔
      (given = [] ∧ arguments = program.defaultArguments) ∨
        (given ≠ [] ∧ arguments = given ∧ given.length = program.arity) := by
  rw [Program.arguments]
  by_cases none : given = []
  · simp [none, eq_comm]
  · by_cases counted : given.length = program.arity <;> simp [none, counted, eq_comm]

end Program

/-- A call of the program succeeds exactly if there are as many arguments as it takes. -/
theorem Config.call_eq (config : Config) :
    ∃ function, config.program.module.function? config.program.entry = some function ∧
      config.engine.call config.program.entry config.arguments =
        if config.arguments.length = config.program.arity then
          .ok ⟨.start config.program.entry function config.arguments, true⟩
        else .error (.badArguments function.name config.program.arity config.arguments.length) := by
  obtain ⟨function, found, params⟩ := config.program.exists_function
  have found' : config.engine.module.function? config.program.entry = some function := found
  refine ⟨function, found, ?_⟩
  rw [Engine.call, found']
  simp only [params, ne_eq, ite_not]

namespace Config

theorem peerGiven_iff {peer : Option String} :
    peerGiven peer = true ↔ ∃ address, peer = some address ∧ ¬ AllBlank address.toList := by
  cases peer with
  | none => simp [peerGiven]
  | some address => simp [peerGiven, List.length_eq_zero_iff, trim_eq_nil_iff]

/-- What options, the catalog and the configuration that they mean have to do with each other. -/
structure Judged (options : Options) (catalog : Catalog) (config : Config) : Prop where
  found : catalog.lookup options.program = .ok config.program
  peer_eq : config.peer = options.peer
  /-- The given arguments are taken if there are as many as the program takes. Without any, those
  are taken that the program has by default, however many there are. -/
  arguments : (options.arguments = [] ∧ config.arguments = config.program.defaultArguments) ∨
    (options.arguments ≠ [] ∧ config.arguments = options.arguments ∧
      options.arguments.length = config.program.arity)
  /-- In remote mode there is an address, and it is not blank. -/
  reaches : config.mode = .remote →
    ∃ address, options.peer = some address ∧ ¬ AllBlank address.toList

theorem judged_of_ofOptions? {options : Options} {catalog : Catalog} {config : Config}
    (accepted : ofOptions? options catalog = .ok config) : config.Judged options catalog := by
  obtain ⟨policy, -, accepted⟩ := bind_eq_ok_iff.mp accepted
  obtain ⟨mode, -, accepted⟩ := bind_eq_ok_iff.mp accepted
  obtain ⟨_, fitting, accepted⟩ := bind_eq_ok_iff.mp accepted
  obtain ⟨program, found, accepted⟩ := bind_eq_ok_iff.mp accepted
  obtain ⟨arguments, taken, accepted⟩ := bind_eq_ok_iff.mp accepted
  cases accepted
  refine ⟨found, rfl, Program.arguments_eq_ok_iff.mp taken, ?_⟩
  rintro rfl
  rw [checkMode] at fitting
  split at fitting
  · cases fitting
  · split at fitting
    · cases fitting
    · rename_i given
      exact peerGiven_iff.mp (Decidable.not_not.mp given)

theorem Judged.arity_iff {options : Options} {catalog : Catalog} {config : Config}
    (judged : config.Judged options catalog) :
    config.arguments.length = config.program.arity ↔
      options.arguments ≠ [] ∨ config.program.defaultArguments.length = config.program.arity := by
  rcases judged.arguments with ⟨none, same⟩ | ⟨given, same, counted⟩
  · simp [none, same]
  · simp [given, same, counted]

end Config

namespace Host

variable {config : Config} {host : Host} {snapshot : Option Snapshot} {arms : Nat → Bool}
  {fuel : Nat}

/-- Without a valid snapshot a host calls its program. -/
theorem invoke_of_invalid (config : Config) (fresh : snapshot.filter (·.valid) = none) :
    invoke config snapshot = config.engine.call config.program.entry config.arguments := by
  rw [invoke, fresh]

/-- With as many arguments as the program takes, a call of the program may end in any way but with a
mismatch of arguments. -/
theorem not_isMismatch_of_executeOnce {fault : Fault} {after : Host}
    (counted : host.config.arguments.length = host.config.program.arity)
    (fresh : snapshot.filter (·.valid) = none)
    (ended : host.executeOnce arms fuel snapshot = some (.faulted fault, after)) :
    ¬ fault.IsMismatch := by
  obtain ⟨function, -, called⟩ := host.config.call_eq
  rw [if_pos counted] at called
  rw [executeOnce_eq, invoke_of_invalid _ fresh, called, Option.map_eq_some_iff] at ended
  obtain ⟨⟨outcome, signal⟩, played, same⟩ := ended
  cases same
  exact Engine.not_isMismatch_of_call called played

/-- With another number of arguments the call is refused at once. -/
theorem executeOnce_of_uncounted (host : Host) (arms : Nat → Bool) (fuel : Nat)
    (uncounted : host.config.arguments.length ≠ host.config.program.arity)
    (fresh : snapshot.filter (·.valid) = none) :
    ∃ function after,
      host.config.program.module.function? host.config.program.entry = some function ∧
        host.executeOnce arms fuel snapshot = some (.faulted (.badArguments function.name
          host.config.program.arity host.config.arguments.length), after) := by
  obtain ⟨function, found, called⟩ := host.config.call_eq
  rw [if_neg uncounted] at called
  rw [executeOnce_eq, invoke_of_invalid _ fresh, called]
  exact ⟨function, _, found, rfl⟩

/-- A call of the program ends with a mismatch of arguments exactly if their number is not the
arity. -/
theorem exists_isMismatch_iff {outcome : Outcome Fault} {after : Host}
    (fresh : snapshot.filter (·.valid) = none)
    (ended : host.executeOnce arms fuel snapshot = some (outcome, after)) :
    (∃ fault, outcome = .faulted fault ∧ fault.IsMismatch) ↔
      host.config.arguments.length ≠ host.config.program.arity := by
  constructor
  · rintro ⟨fault, rfl, mismatch⟩ counted
    exact not_isMismatch_of_executeOnce counted fresh ended mismatch
  · intro uncounted
    obtain ⟨function, _, -, refused⟩ := host.executeOnce_of_uncounted arms fuel uncounted fresh
    rw [refused] at ended
    cases ended
    exact ⟨_, rfl, trivial⟩

/-- A host is made, or it is refused because nothing is left of the address of the peer. -/
theorem ofConfig?_cases (config : Config) (id : SessionId) :
    ((∃ host, ofConfig? config id = .ok host ∧ host.config = config) ∧
        ∀ address, config.peer = some address → Peer.Address.core address ≠ []) ∨
      ofConfig? config id = .error (.configuration "invalid peer address \"\"") ∧
        ∃ address, config.peer = some address ∧ Peer.Address.core address = [] := by
  rw [ofConfig?, callerOf]
  cases given : config.peer with
  | none =>
      refine .inl ⟨⟨_, rfl, rfl⟩, ?_⟩
      intro address absent
      cases absent
  | some address =>
      simp only [Peer.Caller.ofAddress?_eq]
      by_cases nothing : Peer.Address.core address = []
      · rw [if_pos nothing]
        exact .inr ⟨rfl, address, rfl, nothing⟩
      · rw [if_neg nothing]
        refine .inl ⟨⟨_, rfl, rfl⟩, ?_⟩
        rintro other same
        cases same
        exact nothing

/-- A host is made exactly if each address that is given can be called. -/
theorem exists_ofConfig?_iff (config : Config) (id : SessionId) :
    (∃ host, ofConfig? config id = .ok host ∧ host.config = config) ↔
      ∀ address, config.peer = some address →
        ∃ caller, Peer.Caller.ofAddress? address config.transportTimeout = .ok caller := by
  simp only [Peer.Caller.ofAddress?_eq]
  rcases ofConfig?_cases config id with ⟨made, usable⟩ | ⟨refused, address, given, nothing⟩
  · refine iff_of_true made ?_
    intro address given
    exact ⟨_, if_neg (usable address given)⟩
  · refine iff_of_false ?_ ?_
    · rintro ⟨host, made, -⟩
      rw [refused] at made
      cases made
    · intro reachable
      obtain ⟨caller, accepted⟩ := reachable address given
      rw [if_pos nothing] at accepted
      cases accepted

/-- An address that a host is refused for holds blanks and slashes only. -/
theorem ofConfig?_eq_error {id : SessionId} {failure : Failure}
    (refused : ofConfig? config id = .error failure) :
    failure = .configuration "invalid peer address \"\"" ∧
      ∃ address, config.peer = some address ∧ ∀ c ∈ address.toList, isBlank c = true ∨ c = '/' := by
  rcases ofConfig?_cases config id with ⟨⟨host, made, -⟩, -⟩ | ⟨same, address, given, nothing⟩
  · rw [refused] at made
    cases made
  · rw [refused] at same
    exact ⟨Except.error.inj same, address, given, (Peer.Address.core_eq_nil_iff.mp nothing).1⟩

/-- With a blank address no host is made. -/
theorem exists_error_of_allBlank {address : String} (given : config.peer = some address)
    (blank : AllBlank address.toList) (id : SessionId) :
    ∃ failure, ofConfig? config id = .error failure := by
  rcases ofConfig?_cases config id with ⟨-, usable⟩ | ⟨refused, -⟩
  · exact absurd (Peer.Address.core_eq_nil_of_allBlank blank) (usable address given)
  · exact ⟨_, refused⟩

end Host

/-- The program that returns its argument and has none by default. -/
def Program.first : Program where
  name := "first"
  description := "the first argument"
  module := ⟨#[.ofCode "first" 1 #[.localGet 0, .ret]], by decide⟩
  entry := 0
  defaultArguments := []
  exported := by decide

namespace Config

/-- What a configuration is good for, which options were made into. -/
structure Fit (options : Options) (config : Config) : Prop where
  /-- Only default arguments can be too many or too few. -/
  counted_iff : config.arguments.length = config.program.arity ↔
    options.arguments ≠ [] ∨ config.program.defaultArguments.length = config.program.arity
  /-- An invocation from the beginning ends with a mismatch of arguments exactly if they are. -/
  mismatch_iff : ∀ (host : Host) arms fuel snapshot outcome after, host.config = config →
    snapshot.filter (·.valid) = none →
    host.executeOnce arms fuel snapshot = some (outcome, after) →
    ((∃ fault, outcome = .faulted fault ∧ fault.IsMismatch) ↔
      config.arguments.length ≠ config.program.arity)
  /-- Then it ends at once. -/
  refused_at_once : config.arguments.length ≠ config.program.arity →
    ∀ (host : Host) arms fuel snapshot, host.config = config → snapshot.filter (·.valid) = none →
    ∃ function after, config.program.module.function? config.program.entry = some function ∧
      host.executeOnce arms fuel snapshot = some (.faulted (.badArguments function.name
        config.program.arity config.arguments.length), after)
  /-- The host is made exactly if there is a caller of the peer, or no peer is given. -/
  made_iff : ∀ id, (∃ host, Host.ofConfig? config id = .ok host ∧ host.config = config) ↔
    ∀ address, options.peer = some address →
      ∃ caller, Peer.Caller.ofAddress? address config.transportTimeout = .ok caller
  /-- It is refused for one reason only. -/
  refusal : ∀ id failure, Host.ofConfig? config id = .error failure →
    failure = .configuration "invalid peer address \"\"" ∧
      ∃ address, options.peer = some address ∧ ∀ c ∈ address.toList, isBlank c = true ∨ c = '/'
  /-- In remote mode an address is given and not blank; in local mode a blank one can be given, and
  the host is refused. -/
  blank : ∀ address, options.peer = some address → AllBlank address.toList →
    config.mode = .local ∧ ∀ id, ∃ failure, Host.ofConfig? config id = .error failure
  given : config.mode = .remote → options.peer ≠ none

/-- Options that were judged fit are good for a run, apart from default arguments that do not fit
the program, which the engine refuses at once, and from an address that cannot be used, with which
no host is made. -/
theorem fit_of_ofOptions? {options : Options} {catalog : Catalog} {config : Config}
    (accepted : ofOptions? options catalog = .ok config) : config.Fit options := by
  have judged := judged_of_ofOptions? accepted
  constructor
  case counted_iff => exact judged.arity_iff
  case mismatch_iff =>
    rintro host arms fuel snapshot outcome after rfl fresh ended
    exact Host.exists_isMismatch_iff fresh ended
  case refused_at_once =>
    rintro uncounted host arms fuel snapshot rfl fresh
    exact host.executeOnce_of_uncounted arms fuel uncounted fresh
  case made_iff =>
    intro id
    rw [← judged.peer_eq]
    exact Host.exists_ofConfig?_iff config id
  case refusal =>
    intro id failure refused
    rw [← judged.peer_eq]
    exact Host.ofConfig?_eq_error refused
  case blank =>
    intro address given blank
    constructor
    · cases mode : config.mode with
      | «local» => rfl
      | remote =>
          obtain ⟨other, same, occupied⟩ := judged.reaches mode
          rw [given] at same
          cases same
          contradiction
    · exact Host.exists_error_of_allBlank (judged.peer_eq.trans given) blank
  case given =>
    intro mode none
    obtain ⟨address, same, -⟩ := judged.reaches mode
    rw [none] at same
    cases same

/-- Options for `fib` in remote mode. -/
def remoteFib : Options where
  arguments := [5]
  mode := "remote"
  peer := some "127.0.0.1:50052"

/-- These options have a configuration with their argument, and a host is made of it. -/
theorem fit_of_ofOptions?_fib :
    ∃ config, ofOptions? remoteFib Catalog.builtin = .ok config ∧ config.Fit remoteFib ∧
      config.arguments.length = config.program.arity ∧
      ∀ id, ∃ host, Host.ofConfig? config id = .ok host ∧ host.config = config := by
  obtain ⟨config, accepted⟩ : ∃ config, ofOptions? remoteFib Catalog.builtin = .ok config :=
    ⟨_, rfl⟩
  have fit := fit_of_ofOptions? accepted
  refine ⟨config, accepted, fit, fit.counted_iff.mpr (.inl (List.cons_ne_nil _ _)), ?_⟩
  intro id
  apply (fit.made_iff id).mpr
  rintro address given
  cases given
  exact ⟨⟨"http://127.0.0.1:50052", config.transportTimeout⟩, rfl⟩

/-- A program that returns its argument and has none by default is run without one, and a blank
address is accepted in local mode. -/
theorem unfit_accepted :
    (∃ config, ofOptions? { program := "first" } (Catalog.builtin.register .first) = .ok config ∧
      config.arguments = [] ∧ config.program.arity = 1 ∧
      ∀ host : Host, host.config = config → ∃ after, host.executeOnce (fun _ => false) 1 none =
        some (.faulted (.badArguments "first" 1 0), after)) ∧
    (∃ config, ofOptions? { peer := some "" } Catalog.builtin = .ok config ∧
      ∀ id, Host.ofConfig? config id = .error (.configuration "invalid peer address \"\"")) ∧
    ¬ ∀ options catalog config, ofOptions? options catalog = .ok config →
      config.arguments.length = config.program.arity ∧
        ∀ id, ∃ host, Host.ofConfig? config id = .ok host := by
  have uncounted : ∃ config, ofOptions? { program := "first" }
      (Catalog.builtin.register .first) = .ok config ∧
      config.arguments = [] ∧ config.program.arity = 1 ∧
      ∀ host : Host, host.config = config → ∃ after, host.executeOnce (fun _ => false) 1 none =
        some (.faulted (.badArguments "first" 1 0), after) := by
    refine ⟨_, rfl, rfl, rfl, ?_⟩
    intro host same
    rw [Host.executeOnce_eq, same]
    exact ⟨_, rfl⟩
  refine ⟨uncounted, ⟨_, rfl, fun id => rfl⟩, ?_⟩
  intro fit
  obtain ⟨config, accepted, none, one, -⟩ := uncounted
  have counted := (fit _ _ _ accepted).1
  rw [none, one] at counted
  cases counted

end Config

end Ferry
