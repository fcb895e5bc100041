import Ferry.Proofs.Session

/-!
# The history of a session

A session is worked on in place: what an operation has written before it is refused stays written.
The operations check before they write, so that a refusal leaves the session as it was. From this
follows what the session knows after any sequence of operations: its id is that of the last receipt,
and in each of its two slots is what was stored there last, unless it was taken out since.
-/

namespace Ferry.Session

/-- A place for a snapshot. -/
inductive Slot where
  /-- For what waits to be exported or handed over. -/
  | pending
  /-- For what waits to be resumed. -/
  | received
  deriving DecidableEq

namespace Slot

/-- What is in a slot. -/
def content (session : Session) : Slot → Option Snapshot
  | pending => session.pending
  | received => session.received

/-- A session after the slot was emptied. -/
def empty (session : Session) : Slot → Session
  | pending => { session with pending := none }
  | received => { session with received := none }

/-- Takes out what is in a slot. -/
def takeFrom (session : Session) : Slot → Option Snapshot × Session
  | pending => session.takePending
  | received => session.takeReceived

end Slot

/-- Work on a session in place, which may fail. -/
abbrev InPlace := ExceptT Failure (StateM Session)

namespace InPlace

/-- Moves to another phase. -/
def moveTo (next : Phase) : InPlace Unit := do
  let session ← get
  if session.phase.mayBecome next then set { session with phase := next }
  else throw (.invalidState session.phase.text next.text)

/-- Moves to the pause, and then keeps a captured snapshot. -/
def pause (snapshot : Snapshot) : InPlace Unit := do
  moveTo .paused
  modify fun session => { session with pending := some snapshot }

/-- Takes over a computation: the phase first, then its id, and then its snapshot. -/
def receive (id : SessionId) (snapshot : Option Snapshot) : InPlace Unit := do
  moveTo (phaseOnReceipt snapshot)
  modify fun session => { session with id }
  modify fun session => { session with received := snapshot }

/-- Takes out what is in a slot. -/
def take (slot : Slot) : InPlace (Option Snapshot) := do
  let session ← get
  set (slot.empty session)
  return slot.content session

/-- An operation, done in place; a refusal leaves the session as it was. -/
def atomic (operation : Session → Except Failure Session) : InPlace Unit := fun session =>
  match operation session with
  | .ok after => (.ok (), after)
  | .error failure => (.error failure, session)

theorem moveTo_eq (next : Phase) : moveTo next = atomic (·.moveTo next) := by
  funext session
  change (if session.phase.mayBecome next then set { session with phase := next }
    else throw (.invalidState session.phase.text next.text) : InPlace Unit) session = _
  simp only [atomic, Session.moveTo]
  split <;> rfl

/-- Writing after an atomic operation is atomic: a refusal comes before the writing. -/
theorem atomic_modify (operation : Session → Except Failure Session) (write : Session → Session) :
    (do atomic operation; modify write) = atomic fun session => (operation session).map write := by
  funext session
  simp only [bind, ExceptT.bind, StateT.bind, ExceptT.mk, atomic]
  cases operation session <;> rfl

theorem pause_eq (snapshot : Snapshot) : pause snapshot = atomic (·.pause snapshot) := by
  rw [pause, moveTo_eq, atomic_modify]
  rfl

theorem receive_eq (id : SessionId) (snapshot : Option Snapshot) :
    receive id snapshot = atomic (·.receive id snapshot) := by
  rw [receive, moveTo_eq, ← bind_assoc, atomic_modify, atomic_modify]
  congr 1
  funext session
  rw [Session.receive]
  cases session.moveTo (phaseOnReceipt snapshot) <;> rfl

/-- An atomic operation takes nothing out. -/
theorem atomic_none (operation : Session → Except Failure Session) (session : Session) :
    (do atomic operation; return none : InPlace (Option Snapshot)) session =
      match operation session with
      | .ok after => (.ok none, after)
      | .error failure => (.error failure, session) := by
  simp only [bind, ExceptT.bind, StateT.bind, ExceptT.mk, atomic]
  cases operation session <;> rfl

theorem take_eq (slot : Slot) (session : Session) :
    take slot session = (.ok (slot.takeFrom session).1, (slot.takeFrom session).2) := by
  cases slot <;> rfl

end InPlace

/-- What can be done with a session. -/
inductive Operation where
  | moveTo (next : Phase)
  | pause (snapshot : Snapshot)
  | receive (id : SessionId) (snapshot : Option Snapshot)
  | take (slot : Slot)

namespace Operation

/-- Does an operation; its result is what it takes out. -/
def perform : Operation → InPlace (Option Snapshot)
  | moveTo next => do InPlace.moveTo next; return none
  | pause snapshot => do InPlace.pause snapshot; return none
  | receive id snapshot => do InPlace.receive id snapshot; return none
  | take slot => InPlace.take slot

/-- The phase to which an operation needs an edge. -/
def target? : Operation → Option Phase
  | moveTo next => some next
  | pause _ => some .paused
  | receive _ snapshot => some (phaseOnReceipt snapshot)
  | take _ => none

/-- The id that an operation brings. -/
def id? : Operation → Option SessionId
  | receive id _ => some id
  | moveTo _ | pause _ | take _ => none

/-- What an operation leaves in a slot: a pause its snapshot, a receipt what comes with it, and a
taking nothing. -/
def left? (slot : Slot) : Operation → Option (Option Snapshot)
  | pause snapshot => if slot = .pending then some (some snapshot) else none
  | receive _ snapshot => if slot = .received then some snapshot else none
  | take other => if slot = other then some none else none
  | moveTo _ => none

end Operation

/-- One operation in the history of a session. -/
structure Entry where
  before : Session
  operation : Operation
  answer : Except Failure (Option Snapshot)
  after : Session

namespace Entry

/-- The entry that an operation on a session makes. -/
def of (session : Session) (operation : Operation) : Entry :=
  ⟨session, operation, (operation.perform session).1, (operation.perform session).2⟩

/-- The operation, unless it was refused. -/
def done? (entry : Entry) : Option Operation :=
  match entry.answer with
  | .ok _ => some entry.operation
  | .error _ => none

/-- The id that the session adopts. -/
def id? (entry : Entry) : Option SessionId := entry.done?.bind (·.id?)

/-- What is left in a slot. -/
def left? (slot : Slot) (entry : Entry) : Option (Option Snapshot) := entry.done?.bind (·.left? slot)

/-- The snapshot that is stored in a slot. -/
def stored? (slot : Slot) (entry : Entry) : Option Snapshot := (entry.left? slot).join

/-- The snapshot that is taken out of a slot. -/
def returned? (slot : Slot) (entry : Entry) : Option Snapshot :=
  match entry.answer, entry.operation with
  | .ok result, .take other => if slot = other then result else none
  | _, _ => none

/-- What operations do. -/
inductive Legal : Entry → Prop where
  | refused {session : Session} {operation : Operation} {next : Phase}
      (target : operation.target? = some next) (noEdge : session.phase.mayBecome next = false) :
      Legal ⟨session, operation, .error (.invalidState session.phase.text next.text), session⟩
  | moves {session : Session} {next : Phase} (edge : session.phase.mayBecome next = true) :
      Legal ⟨session, .moveTo next, .ok none, { session with phase := next }⟩
  | pauses {session : Session} {snapshot : Snapshot}
      (edge : session.phase.mayBecome .paused = true) :
      Legal ⟨session, .pause snapshot, .ok none,
        { session with phase := .paused, pending := some snapshot }⟩
  | receives {session : Session} {id : SessionId} {snapshot : Option Snapshot}
      (edge : session.phase.mayBecome (phaseOnReceipt snapshot) = true) :
      Legal ⟨session, .receive id snapshot, .ok none,
        { session with phase := phaseOnReceipt snapshot, id, received := snapshot }⟩
  | takes {session : Session} (slot : Slot) :
      Legal ⟨session, .take slot, .ok (slot.content session), slot.empty session⟩

/-- An operation does one of these things. -/
theorem legal_of (session : Session) (operation : Operation) : (of session operation).Legal := by
  cases operation with
  | moveTo next =>
      simp only [of, Operation.perform, InPlace.moveTo_eq, InPlace.atomic_none]
      cases edge : session.phase.mayBecome next with
      | true =>
          rw [moveTo_eq_ok_iff.mpr ⟨edge, rfl⟩]
          exact .moves edge
      | false =>
          rw [moveTo_of_noEdge edge]
          exact .refused rfl edge
  | pause snapshot =>
      simp only [of, Operation.perform, InPlace.pause_eq, InPlace.atomic_none]
      cases edge : session.phase.mayBecome .paused with
      | true =>
          rw [pause_eq_ok_iff.mpr ⟨edge, rfl⟩]
          exact .pauses edge
      | false =>
          rw [pause_of_noEdge snapshot edge]
          exact .refused rfl edge
  | receive id snapshot =>
      simp only [of, Operation.perform, InPlace.receive_eq, InPlace.atomic_none]
      cases edge : session.phase.mayBecome (phaseOnReceipt snapshot) with
      | true =>
          rw [receive_eq_ok_iff.mpr ⟨edge, rfl⟩]
          exact .receives edge
      | false =>
          rw [receive_of_noEdge id edge]
          exact .refused rfl edge
  | take slot =>
      simp only [of, Operation.perform, InPlace.take_eq]
      cases slot <;> exact .takes _

variable {entry : Entry}

theorem Legal.refusal (legal : entry.Legal) {failure : Failure}
    (refused : entry.answer = .error failure) :
    entry.after = entry.before ∧ ∃ next, entry.operation.target? = some next ∧
      entry.before.phase.mayBecome next = false ∧
      failure = .invalidState entry.before.phase.text next.text := by
  cases legal with
  | refused target noEdge =>
      cases refused
      exact ⟨rfl, _, target, noEdge, rfl⟩
  | _ => cases refused

theorem Legal.success (legal : entry.Legal) {result : Option Snapshot}
    (done : entry.answer = .ok result) {next : Phase}
    (target : entry.operation.target? = some next) :
    entry.before.phase.mayBecome next = true ∧ entry.after.phase = next := by
  cases legal with
  | refused => cases done
  | moves edge | pauses edge | receives edge =>
      cases target
      exact ⟨edge, rfl⟩
  | takes => cases target

theorem Legal.taking (legal : entry.Legal) {slot : Slot} (taken : entry.operation = .take slot) :
    entry.answer = .ok (slot.content entry.before) ∧ entry.after = slot.empty entry.before := by
  cases legal with
  | refused target =>
      cases taken
      cases target
  | takes =>
      cases taken
      exact ⟨rfl, rfl⟩
  | _ => cases taken

theorem Legal.mode_peer (legal : entry.Legal) :
    entry.after.mode = entry.before.mode ∧ entry.after.peer = entry.before.peer := by
  cases legal with
  | takes slot => cases slot <;> exact ⟨rfl, rfl⟩
  | _ => exact ⟨rfl, rfl⟩

theorem Legal.id (legal : entry.Legal) : entry.after.id = entry.id?.getD entry.before.id := by
  cases legal with
  | takes slot => cases slot <;> rfl
  | _ => rfl

theorem Legal.content (legal : entry.Legal) (slot : Slot) :
    slot.content entry.after = (entry.left? slot).getD (slot.content entry.before) := by
  cases legal with
  | takes other => cases slot <;> cases other <;> rfl
  | _ => cases slot <;> rfl

/-- What was taken out of a slot, and what is still in it, was stored there before, each snapshot in
its own turn. -/
theorem Legal.sublist (legal : entry.Legal) {slot : Slot} {returned stored : List Snapshot}
    (within : List.Sublist ((slot.content entry.before).toList ++ returned) stored) :
    List.Sublist
      ((slot.content entry.after).toList ++ ((entry.returned? slot).toList ++ returned))
      ((entry.stored? slot).toList ++ stored) := by
  have returned_within : List.Sublist returned stored :=
    (List.sublist_append_right _ _).trans within
  cases legal with
  | refused | moves => exact within
  | @pauses session snapshot =>
      cases slot with
      | pending => exact returned_within.append_left [snapshot]
      | received => exact within
  | @receives session id snapshot =>
      cases slot with
      | pending => exact within
      | received => exact returned_within.append_left snapshot.toList
  | takes other => cases slot <;> cases other <;> exact within

/-- An ended session stays as it is, but for what is taken out of its slots. -/
theorem Legal.closed (legal : entry.Legal) (terminal : entry.before.phase.isTerminal = true)
    (slot : Slot) :
    entry.after.phase = entry.before.phase ∧ entry.stored? slot = none ∧
      ∀ snapshot, slot.content entry.after = some snapshot →
        slot.content entry.before = some snapshot := by
  have no_edge : ∀ next, ¬ entry.before.phase.mayBecome next = true := fun next edge => by
    rw [Phase.not_mayBecome_of_isTerminal terminal] at edge
    contradiction
  cases legal with
  | refused => exact ⟨rfl, rfl, fun _ holds => holds⟩
  | moves edge | pauses edge | receives edge => exact absurd edge (no_edge _)
  | takes other =>
      cases slot <;> cases other <;> refine ⟨rfl, rfl, fun _ holds => ?_⟩ <;> first
        | exact holds
        | cases holds

end Entry

/-- A session about which nothing is known yet. -/
def new (mode : Mode) (peer : Option String) (id : SessionId) : Session := { mode, peer, id }

/-- The session after operations, which are given newest first. -/
def after (origin : Session) : List Operation → Session
  | [] => origin
  | operation :: earlier => (Entry.of (after origin earlier) operation).after

/-- The entries that operations make, newest first like these. -/
def history (origin : Session) : List Operation → List Entry
  | [] => []
  | operation :: earlier => .of (after origin earlier) operation :: history origin earlier

/-- What is known of a session is what the last operation that concerns it has left. -/
theorem after_eq_findSome? {α : Type} (field : Session → α) (left? : Entry → Option α)
    (leaves : ∀ entry : Entry, entry.Legal → field entry.after = (left? entry).getD (field entry.before))
    (origin : Session) (operations : List Operation) :
    field (after origin operations) =
      ((history origin operations).findSome? left?).getD (field origin) := by
  induction operations with
  | nil => rfl
  | cons operation earlier ih =>
      rw [after, leaves _ (Entry.legal_of _ _), history, List.findSome?_cons]
      cases left? (.of (after origin earlier) operation) with
      | none => exact ih
      | some value => rfl

/-- A snapshot waits in a slot: it was stored there, and nothing concerned the slot since. The entries
are given newest first. -/
def Waits (slot : Slot) (snapshot : Snapshot) (entries : List Entry) : Prop :=
  ∃ since store older, entries = since ++ store :: older ∧
    store.left? slot = some (some snapshot) ∧ ∀ entry ∈ since, entry.left? slot = none

theorem content_after_iff_waits {origin : Session} {slot : Slot}
    (empty : slot.content origin = none) (operations : List Operation) (snapshot : Snapshot) :
    slot.content (after origin operations) = some snapshot ↔
      Waits slot snapshot (history origin operations) := by
  have known := after_eq_findSome? (fun session => slot.content session) (Entry.left? slot)
    (fun _ legal => legal.content slot) origin operations
  rw [known, empty, Waits, ← List.findSome?_eq_some_iff]
  cases (history origin operations).findSome? (Entry.left? slot) <;> simp

/-- What was taken out of a slot so far, and what is in it, was stored there, each snapshot in its own
turn. -/
theorem account_sublist {origin : Session} {slot : Slot} (empty : slot.content origin = none)
    (operations : List Operation) :
    List.Sublist
      ((slot.content (after origin operations)).toList ++
        (history origin operations).filterMap (Entry.returned? slot))
      ((history origin operations).filterMap (Entry.stored? slot)) := by
  have filterMap_cons : ∀ (f : Entry → Option Snapshot) entry entries,
      (entry :: entries).filterMap f = (f entry).toList ++ entries.filterMap f := by
    intro f entry entries
    rw [List.filterMap_cons]
    cases f entry <;> rfl
  induction operations with
  | nil =>
      rw [after, empty]
      exact List.Sublist.slnil
  | cons operation earlier ih =>
      rw [after, history, filterMap_cons, filterMap_cons]
      exact (Entry.legal_of _ _).sublist ih

theorem after_mode_peer (origin : Session) (operations : List Operation) :
    (after origin operations).mode = origin.mode ∧ (after origin operations).peer = origin.peer := by
  induction operations with
  | nil => exact ⟨rfl, rfl⟩
  | cons operation earlier ih =>
      rw [after, (Entry.legal_of _ _).mode_peer.1, (Entry.legal_of _ _).mode_peer.2]
      exact ih

/-- After the end nothing is stored any more, whatever operations follow. -/
theorem closed_of_isTerminal {origin : Session} (terminal : origin.phase.isTerminal = true)
    (slot : Slot) (operations : List Operation) :
    (after origin operations).phase = origin.phase ∧
      (∀ entry ∈ history origin operations, entry.stored? slot = none) ∧
      ∀ snapshot, slot.content (after origin operations) = some snapshot →
        slot.content origin = some snapshot := by
  induction operations with
  | nil => exact ⟨rfl, by simp [history], fun _ holds => holds⟩
  | cons operation earlier ih =>
      obtain ⟨phase, unstored, holds⟩ := ih
      have still : (after origin earlier).phase.isTerminal = true := by rw [phase, terminal]
      obtain ⟨samePhase, unstoredHere, holdsHere⟩ :=
        (Entry.legal_of (after origin earlier) operation).closed still slot
      refine ⟨samePhase.trans phase, ?_, fun snapshot held => holds snapshot (holdsHere snapshot held)⟩
      intro entry member
      rcases List.mem_cons.mp member with rfl | earlier
      · exact unstoredHere
      · exact unstored entry earlier

/-- What holds of an operation after other operations, which are given newest first. -/
structure Lawful (origin : Session) (earlier : List Operation) (entry : Entry) : Prop where
  /-- A refusal leaves the session as it was. -/
  refusal : ∀ failure, entry.answer = .error failure →
    entry.after = entry.before ∧ ∃ next, entry.operation.target? = some next ∧
      entry.before.phase.mayBecome next = false ∧
      failure = .invalidState entry.before.phase.text next.text
  /-- A success goes along an edge. -/
  success : ∀ result next, entry.answer = .ok result → entry.operation.target? = some next →
    entry.before.phase.mayBecome next = true ∧ entry.after.phase = next
  /-- A taking answers with the snapshot that waits in its slot, and changes nothing else. -/
  taking : ∀ slot, entry.operation = .take slot → ∃ result, entry.answer = .ok result ∧
    entry.after = slot.empty entry.before ∧
    ∀ snapshot, result = some snapshot ↔ Waits slot snapshot (history origin earlier)
  mode : entry.after.mode = origin.mode
  peer : entry.after.peer = origin.peer
  /-- The id is that of the last receipt, or else the first one. -/
  id : entry.after.id = ((entry :: history origin earlier).findSome? Entry.id?).getD origin.id
  /-- Each stored snapshot is taken out at most once. -/
  once : ∀ slot, List.Sublist ((entry :: history origin earlier).filterMap (Entry.returned? slot))
    ((entry :: history origin earlier).filterMap (Entry.stored? slot))
  /-- After the end the phase stays, and no snapshot comes in. -/
  closed : entry.after.phase.isTerminal = true → ∀ slot later,
    (after entry.after later).phase = entry.after.phase ∧
      (∀ other ∈ history entry.after later, other.stored? slot = none) ∧
      ∀ snapshot, slot.content (after entry.after later) = some snapshot →
        slot.content entry.after = some snapshot

/-- Whatever is done with a session, every operation is lawful. -/
theorem history_lawful (mode : Mode) (peer : Option String) (id : SessionId)
    (earlier : List Operation) (operation : Operation) :
    Lawful (new mode peer id) earlier (.of (after (new mode peer id) earlier) operation) := by
  have legal := Entry.legal_of (after (new mode peer id) earlier) operation
  have empty : ∀ slot, Slot.content (new mode peer id) slot = none := by
    intro slot
    cases slot <;> rfl
  constructor
  · exact fun failure => legal.refusal
  · exact fun result next done target => legal.success done target
  · intro slot taken
    obtain ⟨answer, emptied⟩ := legal.taking taken
    exact ⟨_, answer, emptied, content_after_iff_waits (empty slot) earlier⟩
  · exact (after_mode_peer _ (operation :: earlier)).1
  · exact (after_mode_peer _ (operation :: earlier)).2
  · exact after_eq_findSome? Session.id Entry.id? (fun _ legal => legal.id) _ (operation :: earlier)
  · intro slot
    exact (List.sublist_append_right _ _).trans (account_sublist (empty slot) (operation :: earlier))
  · exact fun terminal slot later => closed_of_isTerminal terminal slot later

/-- A second capture replaces the first one, which was not taken out, and is itself taken out once. -/
example (mode : Mode) (peer : Option String) (id : SessionId) (first second : Snapshot) :
    (history (new mode peer id) [.take .pending, .take .pending, .pause second, .moveTo .resuming,
      .pause first, .moveTo .running]).filterMap (Entry.returned? .pending) = [second] := rfl

end Ferry.Session
