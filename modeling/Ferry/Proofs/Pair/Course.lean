import Ferry.Host.Pair
import Ferry.Proofs.Peer.Oversize
import Ferry.Proofs.Remote.Step

/-!
# The course of two hosts

What one step of two hosts changes, and the states to which they come as long as the network carries
every message, no operator presses a key and no run faults.
-/

namespace Ferry

namespace Remote

/-- Whether no run has come to a fault. -/
def isUnfaulted (host : Remote) : Bool :=
  host.runs.all fun run =>
    match run.stage with
    | .returned (.faulted _) => false
    | _ => true

theorem stage?_ne_faulted {host : Remote} (unfaulted : host.isUnfaulted = true) (run : Nat)
    (fault : Fault) : host.stage? run ≠ some (.returned (.faulted fault)) := by
  intro stands
  obtain ⟨⟨number, stage⟩, found, rfl⟩ := Option.map_eq_some_iff.mp stands
  have sound := List.all_eq_true.mp unfaulted _ (List.mem_of_find?_eq_some found)
  contradiction

end Remote

namespace Pair

variable {pair next : Pair}

theorem host_setHost (pair : Pair) (side other : Side) (host : Remote) :
    (pair.setHost side host).host other = if other = side then host else pair.host other := by
  cases side <;> cases other <;> rfl

theorem setHost_host (pair : Pair) (side : Side) : pair.setHost side (pair.host side) = pair := by
  cases side <;> rfl

theorem parcels_setHost (pair : Pair) (side : Side) (host : Remote) :
    (pair.setHost side host).parcels = pair.parcels := by
  cases side <;> rfl

/-- A step inside a host changes this host, and a message may begin to travel. -/
theorem inside_cases {side : Side} {event : Remote.Event}
    (stepped : pair.inside side event = some next) :
    isInternal event = true ∧ ∃ host call, (pair.host side).step event = some (host, call) ∧
      next = { pair.setHost side host with
        parcels := pair.parcels ++ call.toList.map (.message side (runOf event)) } := by
  rw [inside] at stepped
  split at stepped
  · rename_i internal
    obtain ⟨⟨host, call⟩, moved, rfl⟩ := Option.map_eq_some_iff.mp stepped
    refine ⟨internal, host, call, moved, ?_⟩
    cases call with
    | none =>
        simp only [Option.toList_none, List.map_nil, List.append_nil]
        cases side <;> rfl
    | some message =>
        simp only [parcels_setHost]
        rfl
  · contradiction

variable {position : Nat} {sender : Side} {run : Nat}

/-- A reply is given to the run that waits for it. -/
theorem arrive_reply {answer : Remote.Answer}
    (found : pair.parcels[position]? = some (.reply sender run answer))
    (stepped : pair.arrive position = some next) :
    ∃ host call, (pair.host sender).step (.answer run answer) = some (host, call) ∧
      next = { pair.setHost sender host with parcels := pair.parcels.eraseIdx position } := by
  rw [arrive, found] at stepped
  obtain ⟨⟨host, call⟩, moved, rfl⟩ := Option.map_eq_some_iff.mp stepped
  refine ⟨host, call, moved, ?_⟩
  simp only [parcels_setHost]

/-- A message is dealt with by the other host, and the reply begins to travel. -/
theorem arrive_message {call : Remote.Call} {answer : Remote.Answer} {receiver : Remote}
    (found : pair.parcels[position]? = some (.message sender run call))
    (exchanged : call.exchange (pair.host sender).peer .up Remote.service (pair.host sender.other) =
      (answer, receiver)) :
    pair.arrive position = some { pair.setHost sender.other receiver with
      parcels := pair.parcels.set position (.reply sender run answer) } := by
  rw [arrive, found]
  simp only [exchanged, parcels_setHost]

/-- A hand-over that is too large changes nothing but that its sender will learn so. -/
theorem arrive_of_large {request : Peer.ExecuteRequest}
    (found : pair.parcels[position]? = some (.message sender run (.execute request)))
    (large : Peer.maxMessage < (Wire.write request).length) :
    pair.arrive position = some { pair with
      parcels := pair.parcels.set position
        (.reply sender run (.execute (.error .oversized))) } := by
  rw [arrive_message found (Remote.Call.exchange_execute_of_large _ _ _ large), setHost_host]

/-- What an exchange does to the host that is asked is a move on a request. -/
theorem exchange_moves (call : Remote.Call) (caller : Peer.Caller) (host : Remote) :
    (call.exchange caller .up Remote.service host).2 = host ∨
      ∃ event, (∀ run answer, event ≠ .answer run answer) ∧
        host.Moves event (call.exchange caller .up Remote.service host).2 none := by
  have after_eq : (call.exchange caller .up Remote.service host).2 =
      (Remote.service.answer host call.toRequest).2 := rfl
  rw [after_eq]
  rcases Peer.answer_snd_cases Remote.service host call.toRequest with
    same | ⟨request, taken⟩ | ⟨request, noticed⟩
  · exact .inl same
  · rw [taken]
    exact .inr ⟨.execute request, by simp, Remote.takeOver_moves host request⟩
  · rw [noticed]
    exact .inr ⟨.finish request, by simp, Remote.takeNotice_moves host request⟩

/-- Whatever happens to two hosts, each of them stays as it is or makes a move of its own. -/
theorem host_moves {event : Event} (stepped : pair.step event = some next) (side : Side) :
    next.host side = pair.host side ∨
      ∃ event call, (pair.host side).Moves event (next.host side) call := by
  have of_changed : ∀ place host parcels,
      next = { pair.setHost place host with parcels } →
      (host = pair.host place ∨ ∃ event call, (pair.host place).Moves event host call) →
      next.host side = pair.host side ∨
        ∃ event call, (pair.host side).Moves event (next.host side) call := by
    rintro place host parcels rfl moved
    change (pair.setHost place host).host side = _ ∨
      ∃ event call, (pair.host side).Moves event ((pair.setHost place host).host side) call
    rw [host_setHost]
    split
    · rename_i same
      rw [same]
      exact moved
    · exact .inl rfl
  cases event with
  | inside place event =>
      rcases inside_cases stepped with ⟨-, host, call, moved, changed⟩
      exact of_changed place host _ changed (.inr ⟨event, call, Remote.moves_of_step moved⟩)
  | arrival position =>
      change pair.arrive position = some next at stepped
      cases found : pair.parcels[position]? with
      | none => simp [arrive, found] at stepped
      | some parcel =>
          cases parcel with
          | message sender run call =>
              rw [arrive_message found rfl] at stepped
              have changed := (Option.some.inj stepped).symm
              apply of_changed sender.other _ _ changed
              rcases exchange_moves call (pair.host sender).peer (pair.host sender.other) with
                same | ⟨event, -, moved⟩
              · exact .inl same
              · exact .inr ⟨event, none, moved⟩
          | reply sender run answer =>
              rcases arrive_reply found stepped with ⟨host, call, moved, changed⟩
              exact of_changed sender host _ changed (.inr ⟨_, call, Remote.moves_of_step moved⟩)

/-- Whether an event belongs to an undisturbed course: an operator presses no key, and a message that
arrives is one that the server takes. -/
def admits (pair : Pair) : Event → Bool
  | .inside _ (.key _) => false
  | .inside _ _ => true
  | .arrival position =>
      match pair.parcels[position]? with
      | some (.message _ _ (.execute request)) => (Wire.write request).length ≤ Peer.maxMessage
      | _ => true

/-- The state after an event of an undisturbed course, on which no run has come to a fault before. -/
def proceed (pair : Pair) (event : Event) : Option Pair :=
  if pair.first.isUnfaulted && pair.second.isUnfaulted && pair.admits event then pair.step event
  else none

/-- The state after several events of an undisturbed course. -/
def follow : Pair → List Event → Option Pair
  | pair, [] => some pair
  | pair, event :: rest => (pair.proceed event).bind fun next => next.follow rest

/-- Two hosts can come from one state to another on an undisturbed course. -/
def Reaches (pair later : Pair) : Prop := ∃ events, pair.follow events = some later

/-- What happens on an undisturbed course. -/
structure Proceeds (pair : Pair) (event : Event) (next : Pair) : Prop where
  unfaulted : ∀ side run fault, (pair.host side).stage? run ≠ some (.returned (.faulted fault))
  admitted : pair.admits event = true
  stepped : pair.step event = some next

theorem proceeds_of_proceed {event : Event} (proceeded : pair.proceed event = some next) :
    pair.Proceeds event next := by
  rw [proceed] at proceeded
  split at proceeded
  · rename_i condition
    obtain ⟨unfaulted, admitted⟩ := Bool.and_eq_true_iff.mp condition
    obtain ⟨first, second⟩ := Bool.and_eq_true_iff.mp unfaulted
    refine ⟨fun side => ?_, admitted, proceeded⟩
    cases side with
    | first => exact Remote.stage?_ne_faulted first
    | second => exact Remote.stage?_ne_faulted second
  · contradiction

/-- What holds at first, and what every event of an undisturbed course keeps up, holds in every state
that is reached. -/
theorem Reaches.induction {holds : Pair → Prop} {later : Pair} (reaches : pair.Reaches later)
    (at_first : holds pair)
    (kept : ∀ before event after, holds before → before.Proceeds event after → holds after) :
    holds later := by
  rcases reaches with ⟨events, followed⟩
  induction events generalizing pair with
  | nil =>
      cases followed
      exact at_first
  | cons event rest ih =>
      obtain ⟨between, proceeded, followed⟩ := Option.bind_eq_some_iff.mp followed
      exact ih (kept pair event between at_first (proceeds_of_proceed proceeded)) followed

end Pair

end Ferry
