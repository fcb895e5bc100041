import Ferry.Proofs.Pair.Course
import Ferry.Proofs.Remote.Orderly

/-!
# Every reply finds the run that waits for it

A parcel belongs to the run that has sent the message, and this run waits for the reply until it
comes. No two parcels belong to the same run. Every step keeps this, also if runs fault and
operators press keys; so whatever travels between two hosts can arrive.
-/

namespace Ferry

namespace Remote

/-- Whether a run at a stage waits for the reply to a message. -/
def Stage.awaits : Stage → Call → Bool
  | .handing, .execute _ => true
  | .telling _, .finish _ => true
  | _, _ => false

/-- Whether an answer is one to a message. -/
def Answer.fits : Answer → Call → Bool
  | .execute _, .execute _ => true
  | .finish _, .finish _ => true
  | _, _ => false

variable {host next : Remote} {event : Event} {call : Call} {answer : Answer} {stage : Stage}
  {run : Nat}

theorem Stage.resting_of_awaits (awaits : stage.awaits call = true) : stage.isWorking = false := by
  cases stage <;> cases call <;> first | rfl | contradiction

/-- What comes back from an exchange answers the message. -/
theorem Call.exchange_fits (call : Call) (caller : Peer.Caller) (host : Remote) :
    (call.exchange caller .up service host).1.fits call = true := by
  cases call <;> rfl

/-- Only a run that deals with its outcome sends a message, and then it waits for the reply. -/
theorem Moves.sends (moves : host.Moves event next (some call)) :
    ∃ run outcome stage, event = .settle run ∧ host.stage? run = some (.returned outcome) ∧
      next.stage? run = some stage ∧ stage.awaits call = true := by
  cases moves with
  | @completes run results returned up active =>
      refine ⟨run, _, .telling results, rfl, returned, ?_, rfl⟩
      exact (congrFun (stage?_setStage_of rfl returned _) run).trans (if_pos rfl)
  | @hands run snapshot returned up active =>
      refine ⟨run, _, .handing, rfl, returned, ?_, rfl⟩
      exact (congrFun (stage?_setStage_of rfl returned _) run).trans (if_pos rfl)

/-- A run takes the answer to its message. -/
theorem step_answer (stands : host.stage? run = some stage) (awaits : stage.awaits call = true)
    (fits : answer.fits call = true) : ∃ next, host.step (.answer run answer) = some (next, none) := by
  have taken : ∃ next, host.answerRun run stage answer = some next := by
    rcases call with request | request <;> cases stage <;> try contradiction
    · rcases answer with (error | reply) | reply
      · exact ⟨_, rfl⟩
      · rw [answerRun]
        split <;> exact ⟨_, rfl⟩
      · contradiction
    · rcases answer with reply | (error | reply)
      · contradiction
      · exact ⟨_, rfl⟩
      · exact ⟨_, rfl⟩
  rcases taken with ⟨next, isNext⟩
  refine ⟨next, ?_⟩
  simp only [step, stands, isNext, Option.map_some]

end Remote

namespace Pair

variable {pair next : Pair} {event : Event}

/-- The side and the run to which a parcel belongs. -/
def Parcel.owner : Parcel → Side × Nat
  | .message sender run _ => (sender, run)
  | .reply sender run _ => (sender, run)

/-- Whether a parcel carries a message, or an answer to it. -/
def Parcel.fits (call : Remote.Call) : Parcel → Prop
  | .message _ _ sent => sent = call
  | .reply _ _ answer => answer.fits call = true

/-- The run to which a parcel belongs waits for the reply. -/
def Awaits (pair : Pair) (parcel : Parcel) : Prop :=
  ∃ call stage, parcel.fits call ∧
    (pair.host parcel.owner.1).stage? parcel.owner.2 = some stage ∧ stage.awaits call = true

/-- The parcels belong to different runs, and these wait for their replies. -/
structure Tidy (pair : Pair) : Prop where
  orderly : ∀ side, (pair.host side).Orderly
  awaited : ∀ parcel ∈ pair.parcels, pair.Awaits parcel
  distinct : (pair.parcels.map Parcel.owner).Nodup

/-- A parcel stays awaited if a host makes a move that is not the answer to its message. -/
theorem Awaits.setHost {parcel : Parcel} (awaits : pair.Awaits parcel) {side : Side} {host : Remote}
    (orderly : (pair.host side).Orderly)
    (moved : host = pair.host side ∨ ∃ event call,
      (parcel.owner.1 = side → ∀ answer, event ≠ .answer parcel.owner.2 answer) ∧
        (pair.host side).Moves event host call) :
    (pair.setHost side host).Awaits parcel := by
  rcases awaits with ⟨call, stage, fits, stands, waits⟩
  refine ⟨call, stage, fits, ?_, waits⟩
  rw [host_setHost]
  split
  · rename_i same
    rw [same] at stands
    rcases moved with unmoved | ⟨event, sent, unanswered, moves⟩
    · rw [unmoved]
      exact stands
    · exact moves.stage?_of_resting orderly.numbered stands (Remote.Stage.resting_of_awaits waits)
        (unanswered same)
  · exact stands

/-- What is left after a parcel was taken out belongs to other runs. -/
theorem owner_ne_of_mem_eraseIdx {parcels : List Parcel} {position : Nat} {parcel other : Parcel}
    (distinct : (parcels.map Parcel.owner).Nodup) (found : parcels[position]? = some parcel)
    (member : other ∈ parcels.eraseIdx position) : other.owner ≠ parcel.owner := by
  obtain ⟨inside, here⟩ := List.getElem?_eq_some_iff.mp found
  have split_at : parcels = parcels.take position ++ parcel :: parcels.drop (position + 1) := by
    rw [← here, ← List.drop_eq_getElem_cons inside, List.take_append_drop]
  rw [split_at, List.map_append, List.map_cons, List.nodup_append] at distinct
  rcases distinct with ⟨-, after, apart⟩
  rw [List.eraseIdx_eq_take_drop_succ, List.mem_append] at member
  rcases member with before | later
  · exact apart _ (List.mem_map_of_mem before) _ List.mem_cons_self
  · intro same
    exact (List.nodup_cons.mp after).1 (same ▸ List.mem_map_of_mem later)

namespace Tidy

/-- A step changes one host and what travels. -/
theorem change (tidy : pair.Tidy) {side : Side} {host : Remote} {parcels : List Parcel}
    (orderly : host.Orderly) (awaited : ∀ parcel ∈ parcels, (pair.setHost side host).Awaits parcel)
    (distinct : (parcels.map Parcel.owner).Nodup) :
    ({ pair.setHost side host with parcels } : Pair).Tidy := by
  refine ⟨?_, awaited, distinct⟩
  intro place
  change ((pair.setHost side host).host place).Orderly
  rw [host_setHost]
  split
  · exact orderly
  · exact tidy.orderly place

/-- Something happens inside one host. -/
theorem inside (tidy : pair.Tidy) {side : Side} {event : Remote.Event}
    (stepped : pair.inside side event = some next) : next.Tidy := by
  rcases inside_cases stepped with ⟨internal, host, call, moved, rfl⟩
  have moves := Remote.moves_of_step moved
  have unanswered : ∀ run answer, event ≠ .answer run answer := by
    rintro run answer rfl
    contradiction
  have kept : ∀ parcel ∈ pair.parcels, (pair.setHost side host).Awaits parcel := by
    intro parcel member
    apply (tidy.awaited parcel member).setHost (tidy.orderly side)
    exact .inr ⟨event, call, fun _ => unanswered _, moves⟩
  apply tidy.change (moves.orderly (tidy.orderly side))
  · intro parcel member
    rcases List.mem_append.mp member with earlier | new
    · exact kept parcel earlier
    · obtain ⟨message, isCall, rfl⟩ := List.mem_map.mp new
      cases Option.mem_toList.mp isCall
      rcases moves.sends with ⟨run, outcome, stage, rfl, -, stands, awaits⟩
      refine ⟨message, stage, rfl, ?_, awaits⟩
      change ((pair.setHost side host).host side).stage? run = some stage
      rw [host_setHost, if_pos rfl]
      exact stands
  · cases call with
    | none => simpa using tidy.distinct
    | some message =>
        rcases moves.sends with ⟨run, outcome, stage, rfl, returned, -, -⟩
        rw [List.map_append, List.nodup_append]
        refine ⟨tidy.distinct, by simp, ?_⟩
        -- The run has only now come to wait, so nothing of its own can be under way.
        rintro owner isOwner other isNew rfl
        obtain ⟨parcel, member, rfl⟩ := List.mem_map.mp isOwner
        rcases tidy.awaited parcel member with ⟨call, before, -, stands, waits⟩
        rw [List.mem_singleton.mp isNew] at stands
        have resting := Remote.Stage.resting_of_awaits waits
        cases stands.symm.trans returned
        contradiction

variable {position : Nat} {sender : Side} {run : Nat}

/-- A message arrives, and its reply begins to travel. -/
theorem arrive_call (tidy : pair.Tidy) {call : Remote.Call}
    (found : pair.parcels[position]? = some (.message sender run call))
    (stepped : pair.arrive position = some next) : next.Tidy := by
  have fits := call.exchange_fits (pair.host sender).peer (pair.host sender.other)
  have moved := exchange_moves call (pair.host sender).peer (pair.host sender.other)
  obtain ⟨answer, receiver, exchanged⟩ : ∃ answer receiver, call.exchange (pair.host sender).peer .up
      Remote.service (pair.host sender.other) = (answer, receiver) := ⟨_, _, rfl⟩
  rw [arrive_message found exchanged] at stepped
  rw [exchanged] at fits moved
  cases stepped
  have kept : ∀ parcel ∈ pair.parcels, (pair.setHost sender.other receiver).Awaits parcel := by
    intro parcel member
    apply (tidy.awaited parcel member).setHost (tidy.orderly sender.other)
    rcases moved with same | ⟨event, unanswered, moves⟩
    · exact .inl same
    · exact .inr ⟨event, none, fun _ => unanswered _, moves⟩
  apply tidy.change
  · rcases moved with same | ⟨event, -, moves⟩
    · change receiver = _ at same
      rw [same]
      exact tidy.orderly _
    · exact moves.orderly (tidy.orderly _)
  · intro parcel member
    rcases List.mem_or_eq_of_mem_set member with earlier | rfl
    · exact kept parcel earlier
    · obtain ⟨_, stage, rfl, stands, waits⟩ := kept _ (List.mem_of_getElem? found)
      exact ⟨call, stage, fits, stands, waits⟩
  · have owner : (pair.parcels.map Parcel.owner)[position]? = some (sender, run) := by
      rw [List.getElem?_map, found]
      rfl
    obtain ⟨inside, here⟩ := List.getElem?_eq_some_iff.mp owner
    have unchanged : (pair.parcels.map Parcel.owner).set position (sender, run) =
        pair.parcels.map Parcel.owner := by
      rw [← here]
      exact List.set_getElem_self _
    rw [List.map_set]
    change ((pair.parcels.map Parcel.owner).set position (sender, run)).Nodup
    rw [unchanged]
    exact tidy.distinct

/-- A reply arrives. -/
theorem arrive_answer (tidy : pair.Tidy) {answer : Remote.Answer}
    (found : pair.parcels[position]? = some (.reply sender run answer))
    (stepped : pair.arrive position = some next) : next.Tidy := by
  rcases arrive_reply found stepped with ⟨host, call, moved, rfl⟩
  have moves := Remote.moves_of_step moved
  apply tidy.change (moves.orderly (tidy.orderly sender))
  · intro parcel member
    have differs := owner_ne_of_mem_eraseIdx tidy.distinct found member
    apply (tidy.awaited parcel (List.mem_of_mem_eraseIdx member)).setHost (tidy.orderly sender)
    refine .inr ⟨_, call, ?_, moves⟩
    rintro same other isAnswer
    cases isAnswer
    exact differs (Prod.ext same rfl)
  · exact tidy.distinct.sublist ((List.eraseIdx_sublist _ _).map _)

theorem step (tidy : pair.Tidy) (stepped : pair.step event = some next) : next.Tidy := by
  cases event with
  | inside side event => exact tidy.inside stepped
  | arrival position =>
      change pair.arrive position = some next at stepped
      cases found : pair.parcels[position]? with
      | none => simp [arrive, found] at stepped
      | some parcel =>
          cases parcel with
          | message sender run call => exact tidy.arrive_call found stepped
          | reply sender run answer => exact tidy.arrive_answer found stepped

/-- Whatever travels can arrive. -/
theorem arrives (tidy : pair.Tidy) (inside : position < pair.parcels.length) :
    ∃ next, pair.arrive position = some next := by
  have found : pair.parcels[position]? = some pair.parcels[position] :=
    List.getElem?_eq_getElem inside
  obtain ⟨call, stage, fits, stands, waits⟩ := tidy.awaited _ (List.getElem_mem inside)
  cases parcel : pair.parcels[position] with
  | message sender run sent =>
      rw [parcel] at found
      exact ⟨_, arrive_message found rfl⟩
  | reply sender run answer =>
      rw [parcel] at found fits stands
      rcases Remote.step_answer stands waits fits with ⟨host, isHost⟩
      have taken : (pair.host sender).step (.answer run answer) = some (host, none) := isHost
      exact Option.isSome_iff_exists.mp (by simp [arrive, found, taken])

end Tidy

end Pair

end Ferry
