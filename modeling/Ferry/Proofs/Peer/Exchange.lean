import Ferry.Host.Remote.Exchange
import Ferry.Proofs.Wire.ReadBack

/-!
# What a message of a host comes to

If the network is up, a message that is not too large reaches the service behind its endpoint as it
was sent, and the reply of the service comes back as it was given.
-/

namespace Ferry

namespace Peer

/-- The sequences in a request have a length of 64 bits. -/
structure ExecuteRequest.Countable (request : ExecuteRequest) : Prop where
  program : (Bytes.ofText request.program).length < UInt64.size
  snapshot : ∀ snapshot ∈ request.snapshot, snapshot.Countable

theorem ExecuteRequest.write_eq (request : ExecuteRequest) :
    Wire.write request = Wire.write request.session ++
      (Wire.write request.program ++ Wire.write request.snapshot) :=
  List.append_assoc ..

theorem ExecuteRequest.Countable.readsBack {request : ExecuteRequest}
    (countable : request.Countable) : Wire.ReadsBack request := by
  have program := Wire.readsBack_string countable.program
  have snapshot : Wire.ReadsBack request.snapshot :=
    Wire.readsBack_option fun inner member => (countable.snapshot inner member).readsBack
  intro rest
  rw [request.write_eq, List.append_assoc, List.append_assoc]
  apply (Wire.andThen_of_ok (Wire.readsBack_sessionId _ _)).trans
  exact (Wire.andThen_of_ok (program _)).trans (Wire.map_of_ok (snapshot rest))

/-- A request whose bytes have a length of 64 bits has only such sequences in it. -/
theorem ExecuteRequest.countable_of_length {request : ExecuteRequest}
    (short : (Wire.write request).length < UInt64.size) : request.Countable := by
  rw [request.write_eq, List.length_append, List.length_append] at short
  constructor
  · have length_eq : (Wire.write request.program).length =
        (Wire.writeNumber (Bytes.ofText request.program).length).length +
          (Bytes.ofText request.program).length := List.length_append
    omega
  · intro snapshot member
    have isSome : request.snapshot = some snapshot := member
    have length_eq : (Wire.write request.snapshot).length = snapshot.encode.length + 1 := by
      rw [isSome]
      rfl
    exact Snapshot.countable_of_length (by omega)

theorem readsBack_finishRequest (request : FinishRequest) : Wire.ReadsBack request := by
  intro rest
  exact Wire.map_of_ok (Wire.readsBack_sessionId request.session rest)

theorem readsBack_executeReply (reply : ExecuteReply) : Wire.ReadsBack reply := by
  intro rest
  exact Wire.map_of_ok (Wire.readsBack_bool reply.ok rest)

theorem readsBack_finishReply (reply : FinishReply) : Wire.ReadsBack reply := by
  intro rest
  rfl

/-- A message that reads back is what its bytes spell. -/
theorem decode_write {α : Type} [Wire α] {value : α} (operation : String)
    (back : Wire.ReadsBack value) : decode operation (Wire.write value) = .ok value := by
  rw [decode, Wire.decode_write back]

/-- A hand-over is read as it was sent, if its snapshot is well formed. -/
theorem readExecute_of_sound {request : ExecuteRequest} (countable : request.Countable)
    (sound : request.check = .ok ()) : readExecute (Wire.write request) = .ok request := by
  rw [readExecute, decode_write "execute" countable.readsBack]
  simp only [sound]

/-- A hand-over whose snapshot is not well formed is refused for what the check finds. -/
theorem readExecute_of_unsound {request : ExecuteRequest} {failure : Failure}
    (countable : request.Countable) (unsound : request.check = .error failure) :
    readExecute (Wire.write request) = .error (.codec "execute" failure.message) := by
  rw [readExecute, decode_write "execute" countable.readsBack]
  simp only [unsound]

theorem length_write_finishRequest (request : FinishRequest) :
    (Wire.write request).length = 17 := by
  have length_eq : (Wire.write request).length =
      (Wire.writeNumber 16).length + request.session.bytes.length := List.length_append
  have one_byte : (Wire.writeNumber 16).length = 1 := by
    rw [Wire.writeNumber]
    rfl
  rw [length_eq, one_byte, request.session.length_eq]

theorem route?_toRequest_execute (request : ExecuteRequest) :
    request.toRequest.route? = some executePath := by
  have method : isMethod "POST" = true := by decide
  have path : Target.path? executePath = some executePath := by decide
  exact (if_pos method).trans path

theorem route?_toRequest_finish (request : FinishRequest) :
    request.toRequest.route? = some finishPath := by
  have method : isMethod "POST" = true := by decide
  have path : Target.path? finishPath = some finishPath := by decide
  exact (if_pos method).trans path

section Service

variable {σ : Type} {service : Service σ} {state after : σ}

/-- A hand-over comes to the first endpoint. -/
theorem answer_toRequest_execute (service : Service σ) (state : σ) (request : ExecuteRequest) :
    service.answer state request.toRequest =
      service.answerExecute state (Wire.write request) := by
  rw [Service.answer, route?_toRequest_execute]
  rfl

/-- A hand-over that is not too large, and whose snapshot is well formed, reaches the service as it
was sent. -/
theorem answer_execute {request : ExecuteRequest} {reply : Except Failure ExecuteReply}
    (small : (Wire.write request).length ≤ maxMessage) (sound : request.check = .ok ())
    (answered : service.execute state request = (reply, after)) :
    service.answer state request.toRequest = (respond reply, after) := by
  have short : (Wire.write request).length < UInt64.size :=
    Nat.lt_of_le_of_lt small (by decide)
  have read := readExecute_of_sound (ExecuteRequest.countable_of_length short) sound
  rw [answer_toRequest_execute, Service.answerExecute, if_neg (Nat.not_lt.mpr small), read]
  simp only [answered]

/-- A hand-over that is not too large, and whose snapshot is not well formed, does not reach the
service. -/
theorem answer_execute_of_unsound (service : Service σ) (state : σ) {request : ExecuteRequest}
    {failure : Failure} (small : (Wire.write request).length ≤ maxMessage)
    (unsound : request.check = .error failure) :
    service.answer state request.toRequest =
      (.text 400 (Error.codec "execute" failure.message).message, state) := by
  have short : (Wire.write request).length < UInt64.size :=
    Nat.lt_of_le_of_lt small (by decide)
  have read := readExecute_of_unsound (ExecuteRequest.countable_of_length short) unsound
  rw [answer_toRequest_execute, Service.answerExecute, if_neg (Nat.not_lt.mpr small), read]

/-- A notice reaches the service as it was sent. -/
theorem answer_finish {request : FinishRequest} {reply : Except Failure FinishReply}
    (answered : service.finish state request = (reply, after)) :
    service.answer state request.toRequest = (respond reply, after) := by
  have small : (Wire.write request).length ≤ maxMessage := by
    rw [length_write_finishRequest]
    decide
  have handled : service.answerFinish state (Wire.write request) = (respond reply, after) := by
    rw [Service.answerFinish, if_neg (Nat.not_lt.mpr small), readFinish,
      decode_write "finish" (readsBack_finishRequest request)]
    simp only [answered]
  rw [Service.answer, route?_toRequest_finish]
  exact handled

/-- A server changes its state only through its service. -/
theorem answer_snd_cases (service : Service σ) (state : σ) (request : Request) :
    (service.answer state request).2 = state ∨
      (∃ message, (service.answer state request).2 = (service.execute state message).2) ∨
      ∃ message, (service.answer state request).2 = (service.finish state message).2 := by
  rw [Service.answer]
  split
  · exact .inl rfl
  rw [Service.answerPath]
  split
  · split
    · rw [Service.answerExecute]
      split
      · exact .inl rfl
      split
      · exact .inl rfl
      · exact .inr (.inl ⟨_, rfl⟩)
    · exact .inl rfl
  split
  · split
    · rw [Service.answerFinish]
      split
      · exact .inl rfl
      split
      · exact .inl rfl
      · exact .inr (.inr ⟨_, rfl⟩)
    · exact .inl rfl
  left
  repeat' split
  all_goals rfl

/-- A reply comes back as it was given. -/
theorem reply_respond {α : Type} [Wire α] (caller : Caller) (operation : String) {reply : α}
    (back : Wire.ReadsBack reply) :
    caller.reply operation (.answered (respond (.ok reply))) = .ok reply := by
  have body : caller.body operation (.answered (respond (.ok reply))) = .ok (Wire.write reply) := rfl
  rw [Caller.reply, body]
  exact decode_write operation back

end Service

end Peer

namespace Remote

variable {σ : Type} {service : Peer.Service σ} {state after : σ}

/-- A hand-over comes to what the service of the peer says. -/
theorem Call.exchange_execute (caller : Peer.Caller) {request : Peer.ExecuteRequest}
    {reply : Peer.ExecuteReply} (small : (Wire.write request).length ≤ Peer.maxMessage)
    (sound : request.check = .ok ())
    (answered : service.execute state request = (.ok reply, after)) :
    (Call.execute request).exchange caller .up service state = (.execute (.ok reply), after) := by
  have delivered : service.answer state (Call.execute request).toRequest =
      (Peer.respond (.ok reply), after) := Peer.answer_execute small sound answered
  simp only [exchange, Peer.Link.send, delivered, answer]
  rw [Peer.reply_respond caller "execute" (Peer.readsBack_executeReply reply)]

/-- A notice comes to what the service of the peer says. -/
theorem Call.exchange_finish (caller : Peer.Caller) {request : Peer.FinishRequest}
    {reply : Peer.FinishReply} (answered : service.finish state request = (.ok reply, after)) :
    (Call.finish request).exchange caller .up service state = (.finish (.ok reply), after) := by
  have delivered : service.answer state (Call.finish request).toRequest =
      (Peer.respond (.ok reply), after) := Peer.answer_finish answered
  simp only [exchange, Peer.Link.send, delivered, answer]
  rw [Peer.reply_respond caller "finish" (Peer.readsBack_finishReply reply)]

end Remote

end Ferry
