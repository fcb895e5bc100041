import Ferry.Host.Basic
import Ferry.Proofs.Except

/-!
# What a host starts from, and failures that are illegal moves

A host starts from the beginning or from a valid snapshot. A session that is asked for a move which
its phase does not allow fails in a way of its own. What the engine, the network, the files and the
checks of messages fail with is always something else.
-/

namespace Ferry

/-- The snapshot of an artifact is resumed only if it is valid. -/
theorem Host.valid_of_loadInitial {config : Config} {directory : Directory} {snapshot : Snapshot}
    (loaded : loadInitial config directory = .ok (some snapshot)) : snapshot.valid = true := by
  rw [loadInitial] at loaded
  split at loaded
  · cases loaded
  · obtain ⟨stored, -, loaded⟩ := bind_eq_ok_iff.mp loaded
    obtain ⟨_, -, loaded⟩ := bind_eq_ok_iff.mp loaded
    exact (Option.filter_eq_some_iff.mp (Except.ok.inj loaded)).2

/-- A session was asked for a move that its phase does not allow. -/
def Failure.IsIllegalMove (failure : Failure) : Prop :=
  ∃ source target, failure = .invalidState source target

theorem Fault.not_isIllegalMove (fault : Fault) : ¬ fault.toFailure.IsIllegalMove := by
  rintro ⟨_, _, same⟩
  cases same

theorem Peer.Error.not_isIllegalMove (error : Peer.Error) : ¬ error.toFailure.IsIllegalMove := by
  rintro ⟨_, _, same⟩
  cases error <;> cases same

theorem Peer.ExecuteRequest.not_isIllegalMove_of_check {request : Peer.ExecuteRequest}
    {failure : Failure} (refused : request.check = .error failure) :
    ¬ failure.IsIllegalMove := by
  rintro ⟨_, _, rfl⟩
  rw [check] at refused
  split at refused
  · rw [Snapshot.check] at refused
    split at refused <;> cases refused
  · cases refused

theorem SnapshotFile.not_isIllegalMove_of_read {directory : Directory} {path : String}
    {failure : Failure} (refused : read directory path = .error failure) :
    ¬ failure.IsIllegalMove := by
  rintro ⟨_, _, rfl⟩
  rw [read] at refused
  split at refused
  · cases refused
  · split at refused <;> cases refused

theorem SnapshotFile.not_isIllegalMove_of_write {directory after : Directory}
    {path program : String} {snapshot : Snapshot} {failure : Failure}
    (refused : write directory path program snapshot = (.error failure, after)) :
    ¬ failure.IsIllegalMove := by
  rintro ⟨_, _, rfl⟩
  rw [write] at refused
  split at refused <;> cases refused

theorem Host.not_isIllegalMove_of_loadInitial {config : Config} {directory : Directory}
    {failure : Failure} (refused : loadInitial config directory = .error failure) :
    ¬ failure.IsIllegalMove := by
  rw [loadInitial] at refused
  split at refused
  · cases refused
  · rcases bind_eq_error_iff.mp refused with unread | ⟨stored, -, other⟩
    · exact SnapshotFile.not_isIllegalMove_of_read unread
    · rintro ⟨_, _, rfl⟩
      rcases bind_eq_error_iff.mp other with mismatch | ⟨_, -, impossible⟩
      · rw [StoredSnapshot.ensureProgram] at mismatch
        split at mismatch <;> cases mismatch
      · cases impossible

end Ferry
