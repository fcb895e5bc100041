import Ferry.Proofs.Peer.Messages

/-!
# What a server asks of its service

A server asks its service to do something only if a request is posted to one of two paths and its body
is exactly one message; a computation that is handed over must also have a well-formed snapshot. The
service is then asked once, for what the message says, and its reply makes the response. Every other
request is answered without the service.
-/

namespace Ferry.Peer

open Wire

variable {σ : Type}

theorem decode_eq_ok_iff {α : Type} [Wire α] (operation : String) {body : Bytes} {message : α} :
    decode operation body = .ok message ↔ Wire.decode body = .ok message := by
  rw [decode]
  split <;> simp_all

/-- A hand-over is read exactly if the bytes spell it and its snapshot is well formed. -/
theorem readExecute_eq_ok_iff {body : Bytes} {message : ExecuteRequest} :
    readExecute body = .ok message ↔ SpellsExecute body message ∧ message.check = .ok () := by
  rw [← exact_executeRequest.decode_eq_ok_iff, ← decode_eq_ok_iff "execute",
    readExecute]
  cases decode (α := ExecuteRequest) "execute" body with
  | error error => simp
  | ok other =>
      simp only [Except.ok.injEq]
      constructor
      · intro accepted
        split at accepted
        · rename_i sound
          cases accepted
          exact ⟨rfl, sound⟩
        · cases accepted
      · rintro ⟨rfl, sound⟩
        rw [sound]

theorem readFinish_eq_ok_iff {body : Bytes} {notice : FinishRequest} :
    readFinish body = .ok notice ↔ SpellsFinish body notice := by
  rw [readFinish, decode_eq_ok_iff, exact_finishRequest.decode_eq_ok_iff]

/-- A request is posted to a path. -/
structure Request.PostedTo (request : Request) (path : String) : Prop where
  method : request.method = "POST"
  route : request.route? = some path

/-- A request carries a call of the service: it is posted to the path of the call, its body is not too
large and spells the message, and the snapshot of a computation that is handed over is well formed. -/
inductive Request.Carries (request : Request) : Remote.Call → Prop where
  | execute {message : ExecuteRequest} (posted : request.PostedTo executePath)
      (small : request.body.length ≤ maxMessage) (spells : SpellsExecute request.body message)
      (sound : message.check = .ok ()) : Carries request (.execute message)
  | finish {notice : FinishRequest} (posted : request.PostedTo finishPath)
      (small : request.body.length ≤ maxMessage) (spells : SpellsFinish request.body notice) :
      Carries request (.finish notice)

/-- How a request is answered that is posted to one of the two paths and is not for the service. -/
structure Request.RefusedWith (request : Request) (response : Response) : Prop where
  malformed : ∀ path ∈ [executePath, finishPath], request.PostedTo path →
    request.body.length ≤ maxMessage → response.status = 400
  oversized : ∀ path ∈ [executePath, finishPath], request.PostedTo path →
    maxMessage < request.body.length → response = tooLarge

theorem Request.PostedTo.route_unique {request : Request} {path other : String}
    (posted : request.PostedTo path) (posted_other : request.PostedTo other) : other = path :=
  Option.some.inj (posted_other.route.symm.trans posted.route)

/-- A request carries one call at most. -/
theorem Request.Carries.unique {request : Request} {call other : Remote.Call}
    (carries : request.Carries call) (carries_other : request.Carries other) : other = call := by
  have differ : finishPath ≠ executePath := by decide
  cases carries with
  | execute posted _ spells sound =>
      cases carries_other with
      | execute _ _ spells_other sound_other =>
          have read := readExecute_eq_ok_iff.mpr ⟨spells, sound⟩
          rw [readExecute_eq_ok_iff.mpr ⟨spells_other, sound_other⟩] at read
          exact congrArg _ (Except.ok.inj read)
      | finish posted_other => exact absurd (posted.route_unique posted_other) differ
  | finish posted _ spells =>
      cases carries_other with
      | execute posted_other => exact absurd (posted_other.route_unique posted) differ
      | finish _ _ spells_other =>
          have read := readFinish_eq_ok_iff.mpr spells
          rw [readFinish_eq_ok_iff.mpr spells_other] at read
          exact congrArg _ (Except.ok.inj read)

namespace Service

/-- The response to a call, and the state after it. -/
def serve (service : Service σ) (state : σ) : Remote.Call → Response × σ
  | .execute message =>
      (respond (service.execute state message).1, (service.execute state message).2)
  | .finish notice =>
      (respond (service.finish state notice).1, (service.finish state notice).2)

/-- A service that also keeps an account of the calls, in their order. -/
def recording (service : Service σ) : Service (σ × List Remote.Call) where
  execute state message :=
    let (reply, after) := service.execute state.1 message
    (reply, after, state.2 ++ [.execute message])
  finish state notice :=
    let (reply, after) := service.finish state.1 notice
    (reply, after, state.2 ++ [.finish notice])

/-- Answers requests, one after the other. -/
def answerAll (service : Service σ) : σ → List Request → List Response × σ
  | state, [] => ([], state)
  | state, request :: rest =>
      let (response, after) := service.answer state request
      let (responses, last) := answerAll service after rest
      (response :: responses, last)

theorem recording_serve (service : Service σ) (state : σ) (calls : List Remote.Call)
    (call : Remote.Call) :
    service.recording.serve (state, calls) call =
      ((service.serve state call).1, (service.serve state call).2, calls ++ [call]) := by
  cases call <;> rfl

variable {request : Request}

theorem answer_of_route {path : String} (route : request.route? = some path)
    (service : Service σ) (state : σ) :
    service.answer state request = service.answerPath state request path := by
  rw [answer, route]

theorem answer_of_posted_execute (posted : request.PostedTo executePath) (service : Service σ)
    (state : σ) : service.answer state request = service.answerExecute state request.body := by
  rw [answer_of_route posted.route, answerPath, if_pos rfl, if_pos posted.method]

theorem answer_of_posted_finish (posted : request.PostedTo finishPath) (service : Service σ)
    (state : σ) : service.answer state request = service.answerFinish state request.body := by
  have differ : finishPath ≠ executePath := by decide
  rw [answer_of_route posted.route, answerPath, if_neg differ, if_pos rfl, if_pos posted.method]

/-- A request that carries a call is answered by the service. -/
theorem answer_of_carries {call : Remote.Call} (carries : request.Carries call)
    (service : Service σ) (state : σ) :
    service.answer state request = service.serve state call := by
  cases carries with
  | execute posted small spells sound =>
      rw [answer_of_posted_execute posted, answerExecute, if_neg (Nat.not_lt.mpr small),
        readExecute_eq_ok_iff.mpr ⟨spells, sound⟩]
      rfl
  | finish posted small spells =>
      rw [answer_of_posted_finish posted, answerFinish, if_neg (Nat.not_lt.mpr small),
        readFinish_eq_ok_iff.mpr spells]
      rfl

/-- Where nothing is posted, all servers answer alike. -/
theorem exists_answer_of_not_posted (not_execute : ¬ request.PostedTo executePath)
    (not_finish : ¬ request.PostedTo finishPath) :
    ∃ response, ∀ {σ : Type} (service : Service σ) (state : σ),
      service.answer state request = (response, state) := by
  cases route : request.route? with
  | none => exact ⟨.bare 400, fun service state => by rw [answer, route]⟩
  | some path =>
      have not_posted : path = executePath ∨ path = finishPath → request.method ≠ "POST" := by
        rintro (rfl | rfl) method
        · exact not_execute ⟨method, route⟩
        · exact not_finish ⟨method, route⟩
      simp only [answer_of_route route, answerPath]
      by_cases isExecute : path = executePath
      · simp only [if_pos isExecute, if_neg (not_posted (.inl isExecute))]
        exact ⟨_, fun _ _ => rfl⟩
      by_cases isFinish : path = finishPath
      · simp only [if_neg isExecute, if_pos isFinish, if_neg (not_posted (.inr isFinish))]
        exact ⟨_, fun _ _ => rfl⟩
      simp only [if_neg isExecute, if_neg isFinish]
      by_cases isHealth : path = healthPath
      · simp only [if_pos isHealth]
        by_cases get : request.method = "GET"
        · simp only [if_pos get]
          exact ⟨_, fun _ _ => rfl⟩
        by_cases head : request.method = "HEAD"
        · simp only [if_neg get, if_pos head]
          exact ⟨_, fun _ _ => rfl⟩
        · simp only [if_neg get, if_neg head]
          exact ⟨_, fun _ _ => rfl⟩
      · simp only [if_neg isHealth]
        exact ⟨_, fun _ _ => rfl⟩

/-- Every request that carries no call is answered alike by all servers, whatever their service is. -/
theorem exists_answer_of_not_carries (nothing : ∀ call, ¬ request.Carries call) :
    ∃ response, request.RefusedWith response ∧
      ∀ {σ : Type} (service : Service σ) (state : σ),
        service.answer state request = (response, state) := by
  by_cases posted : request.PostedTo executePath ∨ request.PostedTo finishPath
  case neg =>
    obtain ⟨not_execute, not_finish⟩ := not_or.mp posted
    obtain ⟨response, answered⟩ := exists_answer_of_not_posted not_execute not_finish
    have vacuous : ∀ path ∈ [executePath, finishPath], ¬ request.PostedTo path := by
      simpa using ⟨not_execute, not_finish⟩
    exact ⟨response, ⟨fun path member here => absurd here (vacuous path member),
      fun path member here => absurd here (vacuous path member)⟩, answered⟩
  case pos =>
    by_cases large : maxMessage < request.body.length
    · refine ⟨tooLarge, ⟨fun _ _ _ small => absurd large (Nat.not_lt.mpr small),
        fun _ _ _ _ => rfl⟩, fun service state => ?_⟩
      rcases posted with posted | posted
      · rw [answer_of_posted_execute posted, answerExecute, if_pos large]
      · rw [answer_of_posted_finish posted, answerFinish, if_pos large]
    have small := Nat.not_lt.mp large
    have refused : ∀ error : Error, request.RefusedWith (.text 400 error.message) := fun error =>
      ⟨fun _ _ _ _ => rfl, fun _ _ _ oversized => absurd oversized large⟩
    rcases posted with posted | posted
    · cases read : readExecute request.body with
      | ok message =>
          obtain ⟨spells, sound⟩ := readExecute_eq_ok_iff.mp read
          exact absurd (.execute posted small spells sound) (nothing _)
      | error error =>
          refine ⟨_, refused error, fun service state => ?_⟩
          rw [answer_of_posted_execute posted, answerExecute, if_neg large, read]
    · cases read : readFinish request.body with
      | ok notice =>
          have spells := readFinish_eq_ok_iff.mp read
          exact absurd (.finish posted small spells) (nothing _)
      | error error =>
          refine ⟨_, refused error, fun service state => ?_⟩
          rw [answer_of_posted_finish posted, answerFinish, if_neg large, read]

/-- What the service makes of a call, as a response: a reply in full with the status of success, or
the description of a failure. -/
inductive Serves (service : Service σ) (state : σ) : Remote.Call → Response → σ → Prop where
  | executes {message : ExecuteRequest} {reply : ExecuteReply} {after : σ}
      (replied : service.execute state message = (.ok reply, after)) :
      Serves service state (.execute message) ⟨200, some messageType, Wire.write reply⟩ after
  | failsToExecute {message : ExecuteRequest} {failure : Failure} {after : σ}
      (failed : service.execute state message = (.error failure, after)) :
      Serves service state (.execute message)
        ⟨500, some textType, .ofText failure.message⟩ after
  | finishes {notice : FinishRequest} {reply : FinishReply} {after : σ}
      (replied : service.finish state notice = (.ok reply, after)) :
      Serves service state (.finish notice) ⟨200, some messageType, Wire.write reply⟩ after
  | failsToFinish {notice : FinishRequest} {failure : Failure} {after : σ}
      (failed : service.finish state notice = (.error failure, after)) :
      Serves service state (.finish notice) ⟨500, some textType, .ofText failure.message⟩ after

theorem serves_serve (service : Service σ) (state : σ) (call : Remote.Call) :
    service.Serves state call (service.serve state call).1 (service.serve state call).2 := by
  cases call with
  | execute message =>
      rcases replied : service.execute state message with ⟨failure | reply, after⟩
      · simp only [serve, replied]
        exact .failsToExecute replied
      · simp only [serve, replied]
        exact .executes replied
  | finish notice =>
      rcases replied : service.finish state notice with ⟨failure | reply, after⟩
      · simp only [serve, replied]
        exact .failsToFinish replied
      · simp only [serve, replied]
        exact .finishes replied

/-- A course of requests, with the calls of the service in it, the responses, and the state at its
end: the service is called for what a request carries, once, and for nothing else. -/
inductive Course (service : Service σ) :
    σ → List Request → List Remote.Call → List Response → σ → Prop where
  | ends {state : σ} : Course service state [] [] [] state
  | serves {state after last : σ} {request : Request} {call : Remote.Call} {response : Response}
      {rest : List Request} {calls : List Remote.Call} {responses : List Response}
      (carries : request.Carries call) (served : service.Serves state call response after)
      (onward : Course service after rest calls responses last) :
      Course service state (request :: rest) (call :: calls) (response :: responses) last
  | passesOver {state last : σ} {request : Request} {response : Response} {rest : List Request}
      {calls : List Remote.Call} {responses : List Response}
      (nothing : ∀ call, ¬ request.Carries call) (refused : request.RefusedWith response)
      (onward : Course service state rest calls responses last) :
      Course service state (request :: rest) calls (response :: responses) last

/-- Whatever requests come in, the calls of which the service keeps an account are those that the
requests carry, once each and in their order; and keeping the account does not change the responses.
A request carries one call at most. -/
theorem called_only_as_carried (service : Service σ) (state : σ) (requests : List Request) :
    (∃ calls responses last, service.Course state requests calls responses last ∧
      service.answerAll state requests = (responses, last) ∧
      service.recording.answerAll (state, []) requests = (responses, last, calls)) ∧
    ∀ request call other, Request.Carries request call → request.Carries other → other = call := by
  -- For the induction the account may have been begun before.
  have course : ∀ before : List Remote.Call, ∃ calls responses last,
      service.Course state requests calls responses last ∧
      service.answerAll state requests = (responses, last) ∧
      service.recording.answerAll (state, before) requests =
        (responses, last, before ++ calls) := by
    induction requests generalizing state with
    | nil => exact fun before => ⟨[], [], state, .ends, rfl, by rw [List.append_nil]; rfl⟩
    | cons request rest ih =>
        intro before
        by_cases carries : ∃ call, request.Carries call
        · obtain ⟨call, carries⟩ := carries
          obtain ⟨calls, responses, last, onward, answered, recorded⟩ :=
            ih (service.serve state call).2 (before ++ [call])
          refine ⟨_, _, last, .serves carries (service.serves_serve state call) onward, ?_, ?_⟩
          · simp only [answerAll, answer_of_carries carries, answered]
          · simp only [answerAll, answer_of_carries carries, recording_serve, recorded,
              List.append_assoc, List.singleton_append]
        · have nothing := not_exists.mp carries
          obtain ⟨response, refused, answered_alike⟩ := exists_answer_of_not_carries nothing
          obtain ⟨calls, responses, last, onward, answered, recorded⟩ := ih state before
          refine ⟨_, _, last, .passesOver nothing refused onward, ?_, ?_⟩
          · simp only [answerAll, answered_alike, answered]
          · simp only [answerAll, answered_alike, recorded]
  exact ⟨course [], fun _ _ _ carries carries_other => carries.unique carries_other⟩

end Service

end Ferry.Peer
