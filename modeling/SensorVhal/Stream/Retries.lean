import SensorVhal.Stream.Assembly

namespace SensorVhal

def IoResult.fails : IoResult → Bool
  | .moved _ => false
  | .failed _ _ => true

section Sequence

variable (io : Nat → IoResult)

-- The bytes that the first system calls move, and how many of them fail.
def accepted : Nat → Nat
  | 0 => 0
  | k + 1 => accepted k + (io k).bytes

def failures : Nat → Nat
  | 0 => 0
  | k + 1 => failures k + (io k).fails.toNat

-- As long as bytes are left, the system moves no more than these.
def FitsLen (len : Nat) : Prop :=
  ∀ k, accepted io k < len → (io k).possible (len - accepted io k)

-- A failure that a loop of SOCK_TIMEOUT_MODE does not try again after.
def HardError (k : Nat) : Prop := ∃ ret errno, io k = .failed ret errno ∧ timeout_retries errno = false

-- The system takes all of the bytes before a hard error, and fails no more often
-- than the loop tries again.
def TakesAll (len : Nat) (timeout_ms : Int) : Prop :=
  ∃ k, len ≤ accepted io k ∧ failures io k ≤ timeout_ms + 1 ∧ ∀ j < k, ¬ HardError io j

-- The loop of SOCK_TIMEOUT_MODE over the first system calls.
def timed_run (len : Nat) (timeout_ms : Int) (k : Nat) : Option DataCall :=
  Machine.run (DataCall.step (Transfer.turn timeout_retries true)) (.start true len timeout_ms)
    (Machine.firsts io k)

-- The call is still in its loop.
def Trying (len : Nat) (timeout_ms : Int) (k : Nat) : Prop :=
  ∃ c t, timed_run io len timeout_ms k = some c ∧ c.progress = .looping t ∧ t.Open len ∧
    t.p_src = accepted io k ∧ t.retry_count = timeout_ms - failures io k ∧
    failures io k ≤ timeout_ms + 1 ∧ ∀ j < k, ¬ HardError io j

-- The call has come back with `ret`.
def Returned (len : Nat) (timeout_ms : Int) (k : Nat) (ret : Int) : Prop :=
  ∃ c, timed_run io len timeout_ms k = some c ∧ c.progress = .returned ret

end Sequence

variable {io : Nat → IoResult} {len k : Nat} {timeout_ms : Int}

theorem accepted_mono {j : Nat} (h : j ≤ k) : accepted io j ≤ accepted io k := by
  induction h with
  | refl => exact Nat.le_refl _
  | step _ ih => exact Nat.le_trans ih (Nat.le_add_right _ _)

theorem failures_mono {j : Nat} (h : j ≤ k) : failures io j ≤ failures io k := by
  induction h with
  | refl => exact Nat.le_refl _
  | step _ ih => exact Nat.le_trans ih (Nat.le_add_right _ _)

theorem counts_of_moved {ret : Nat} (h : io k = .moved ret) :
    accepted io (k + 1) = accepted io k + ret ∧ failures io (k + 1) = failures io k := by
  rw [accepted, failures, h]
  exact ⟨rfl, rfl⟩

theorem counts_of_failed {ret errno : Int} (h : io k = .failed ret errno) :
    accepted io (k + 1) = accepted io k ∧ failures io (k + 1) = failures io k + 1 := by
  rw [accepted, failures, h]
  exact ⟨rfl, rfl⟩

theorem not_hardError_of_moved {ret : Nat} (h : io k = .moved ret) : ¬ HardError io k := by
  rintro ⟨_, _, hfailed, _⟩
  cases h.symm.trans hfailed

theorem not_hardError_of_retried {ret errno : Int} (h : io k = .failed ret errno)
    (hretried : timeout_retries errno = true) : ¬ HardError io k := by
  rintro ⟨_, errno', hfailed, hhard⟩
  obtain ⟨_, rfl⟩ := IoResult.failed.inj (h.symm.trans hfailed)
  exact Bool.false_ne_true (hhard.symm.trans hretried)

-- Every system call moves something or fails.
theorem count_le_accepted_add_failures (hfits : FitsLen io len)
    (hmissing : ∀ j < k, accepted io j < len) : k ≤ accepted io k + failures io k := by
  induction k with
  | zero => exact Nat.zero_le _
  | succ k ih =>
      have hbefore := ih fun j hj => hmissing j (Nat.lt_succ_of_lt hj)
      have hpossible := hfits k (hmissing k (Nat.lt_succ_self k))
      cases hio : io k with
      | moved ret =>
          rw [hio] at hpossible
          have hpos := (of_decide_eq_true hpossible).1
          have hcounts := counts_of_moved hio
          omega
      | failed ret errno =>
          have hcounts := counts_of_failed hio
          omega

theorem trying_zero (htimeout : 0 ≤ timeout_ms) (hpos : 0 < len) : Trying io len timeout_ms 0 := by
  have hhead : (Transfer.init len timeout_ms).head = .again (.init len timeout_ms) := if_pos hpos
  refine ⟨.start true len timeout_ms, .init len timeout_ms, rfl, ?_,
    Transfer.open_init timeout_ms hpos, rfl, ?_, ?_, nofun⟩
  · simp [DataCall.start, hhead, Turn.progress]
  · show timeout_ms = timeout_ms - (0 : Nat)
    omega
  · show ((0 : Nat) : Int) ≤ timeout_ms + 1
    omega

-- One more system call: the loop goes on, or it has moved everything, or it
-- gives up with what it has.
theorem trying_succ (hfits : FitsLen io len) (h : Trying io len timeout_ms k) :
    Trying io len timeout_ms (k + 1) ∨
    (Returned io len timeout_ms (k + 1) len ∧ accepted io (k + 1) = len ∧
      failures io (k + 1) ≤ timeout_ms + 1 ∧ ∀ j < k + 1, ¬ HardError io j) ∨
    (Returned io len timeout_ms (k + 1) (accepted io (k + 1)) ∧ accepted io (k + 1) < len ∧
      failures io (k + 1) ≤ timeout_ms + 2 ∧
      (HardError io k ∨ failures io (k + 1) = timeout_ms + 2)) := by
  obtain ⟨c, t, hrun, hprogress, hopen, hsrc, hcount, hbudget, hsoft⟩ := h
  have hleft := hopen.left
  have hsum := hopen.sum
  have htotal := hopen.total
  have hpossible := hfits k (by omega)
  have hsize : len - accepted io k = t.left_size := by omega
  rw [hsize] at hpossible
  have hnext : timed_run io len timeout_ms (k + 1) =
      some ⟨(t.turn timeout_retries true (io k)).progress,
        c.calls ++ [⟨t.p_src, t.left_size, io k⟩]⟩ := by
    rw [timed_run, Machine.run_firsts_succ hrun, DataCall.step, hprogress]
    exact if_pos hpossible
  have hsofter : ¬ HardError io k → ∀ j < k + 1, ¬ HardError io j :=
    fun hlast => Nat.forall_lt_succ_right.mpr ⟨hsoft, hlast⟩
  rcases Transfer.turn_cases timeout_retries true hopen hpossible with
    ⟨ret, hio, _, hlt, hturn⟩ | ⟨hio, hturn⟩ | ⟨ret, errno, hio, hretried, hagain, hturn⟩ |
    ⟨ret, errno, t', hio, hstop, hturn, _, htotal'⟩
  · rw [hturn] at hnext
    have hcounts := counts_of_moved hio
    refine .inl ⟨_, t.move ret, hnext, rfl, Transfer.open_move hopen hlt, ?_, ?_, by omega,
      hsofter (not_hardError_of_moved hio)⟩
    · simp only [Transfer.move]
      omega
    · simp only [Transfer.move]
      omega
  · rw [hturn] at hnext
    have hcounts := counts_of_moved hio
    refine .inr (.inl ⟨⟨_, hnext, ?_⟩, by omega, by omega, hsofter (not_hardError_of_moved hio)⟩)
    simp only [Turn.progress, Transfer.move]
    congr 1
    omega
  · rw [hturn] at hnext
    have hcounts := counts_of_failed hio
    have hleft' := hagain rfl
    refine .inl ⟨_, t.count_down, hnext, rfl, Transfer.open_count_down hopen, ?_, ?_, by omega,
      hsofter (not_hardError_of_retried hio hretried)⟩
    · simp only [Transfer.count_down]
      omega
    · simp only [Transfer.count_down]
      omega
  · rw [hturn] at hnext
    have hcounts := counts_of_failed hio
    refine .inr (.inr ⟨⟨_, hnext, ?_⟩, by omega, by omega, ?_⟩)
    · simp only [Turn.progress]
      congr 1
      omega
    · rcases hstop with hhard | ⟨_, hspent⟩
      · exact .inl ⟨ret, errno, hio, hhard⟩
      · exact .inr (by omega)

-- The call comes back after a bounded number of system calls, with all of its
-- bytes moved or after the failure that ended it.
theorem timed_returns (htimeout : 0 ≤ timeout_ms) (hfits : FitsLen io len) :
    ∃ k : Nat, k ≤ len + timeout_ms + 2 ∧
      ((Returned io len timeout_ms k len ∧ accepted io k = len ∧
        failures io k ≤ timeout_ms + 1 ∧ ∀ j < k, ¬ HardError io j) ∨
      (Returned io len timeout_ms k (accepted io k) ∧ accepted io k < len ∧
        failures io k ≤ timeout_ms + 2 ∧
        ∃ j, k = j + 1 ∧ (HardError io j ∨ failures io k = timeout_ms + 2))) := by
  by_contra hnone
  have htrying : ∀ k : Nat, k ≤ len + timeout_ms + 2 → Trying io len timeout_ms k := by
    intro k
    induction k with
    | zero =>
        intro _
        apply trying_zero htimeout
        by_contra hpos
        have hzero : len = 0 := by omega
        subst hzero
        refine hnone ⟨0, by omega, .inl ⟨⟨_, rfl, rfl⟩, rfl, ?_, nofun⟩⟩
        show ((0 : Nat) : Int) ≤ timeout_ms + 1
        omega
    | succ k ih =>
        intro hk
        rcases trying_succ hfits (ih (by omega)) with htrying | hdone |
          ⟨hreturned, hless, hbudget, hlast⟩
        · exact htrying
        · exact absurd ⟨k + 1, hk, .inl hdone⟩ hnone
        · exact absurd ⟨k + 1, hk, .inr ⟨hreturned, hless, hbudget, k, rfl, hlast⟩⟩ hnone
  have hmissing : ∀ j < len + timeout_ms.toNat + 2, accepted io j < len := by
    intro j hj
    obtain ⟨c, t, _, _, hopen, hsrc, _⟩ := htrying j (by omega)
    have hleft := hopen.left
    have hsum := hopen.sum
    omega
  have hlast := htrying (len + timeout_ms.toNat + 2) (by omega)
  obtain ⟨c, t, _, _, hopen, hsrc, _, hbudget, _⟩ := hlast
  have hcount := count_le_accepted_add_failures hfits hmissing
  have hleft := hopen.left
  have hsum := hopen.sum
  omega

-- It has moved all of its bytes exactly when the system takes them all in time.
theorem timed_returns_all (htimeout : 0 ≤ timeout_ms) (hfits : FitsLen io len) :
    ∃ (k : Nat) (ret : Int), k ≤ len + timeout_ms + 2 ∧ Returned io len timeout_ms k ret ∧
      (ret = len ↔ TakesAll io len timeout_ms) := by
  obtain ⟨k, hk, ⟨hreturned, hall, hbudget, hsoft⟩ | ⟨hreturned, hless, _, j, rfl, hlast⟩⟩ :=
    timed_returns htimeout hfits
  · exact ⟨k, len, hk, hreturned, iff_of_true rfl ⟨k, by omega, hbudget, hsoft⟩⟩
  · refine ⟨j + 1, _, hk, hreturned, iff_of_false (by omega) ?_⟩
    rintro ⟨i, hall, hbudget, hsoft⟩
    have hlater : j + 1 ≤ i := by
      by_contra hearlier
      have hmono : accepted io i ≤ accepted io (j + 1) := accepted_mono (by omega)
      omega
    rcases hlast with hhard | hspent
    · exact hsoft j (by omega) hhard
    · have hmono : failures io (j + 1) ≤ failures io i := failures_mono hlater
      omega

-- The system calls that moved nothing.
def stalls (calls : List SystemCall) : Nat := calls.countP fun call => call.result.fails

-- A call that a loop of SOCK_TIMEOUT_MODE does not try again after.
def SystemCall.Hard (call : SystemCall) : Prop :=
  ∃ ret errno, call.result = .failed ret errno ∧ ret ≤ 0 ∧ errno ≠ EINTR ∧ errno ≠ EAGAIN

-- A call has come back, after a bounded number of system calls, and with fewer
-- bytes only for a reason.
structure DataCall.Bounded (len : Nat) (timeout_ms ret : Int) (c : DataCall) : Prop where
  returned : c.progress = .returned ret
  calls : c.calls.length ≤ len + timeout_ms + 2
  stalled : stalls c.calls ≤ timeout_ms + 2
  short : ret < len → (∃ call, c.calls.getLast? = some call ∧ call.Hard) ∨
    stalls c.calls = timeout_ms + 2

section Bounds

variable {c : DataCall}

theorem failures_eq_countP (io : Nat → IoResult) (k : Nat) :
    failures io k = (Machine.firsts io k).countP IoResult.fails := by
  induction k with
  | zero => rfl
  | succ k ih =>
      rw [failures, ih, Machine.firsts_succ, List.countP_append]
      cases hfails : (io k).fails <;> simp [hfails]

-- The system calls of a run are the first of the sequence.
theorem calls_of_timed_run (hrun : timed_run io len timeout_ms k = some c) :
    c.calls.map SystemCall.result = Machine.firsts io k :=
  (DataCall.results_of_run hrun).trans (List.nil_append _)

theorem length_calls (hrun : timed_run io len timeout_ms k = some c) : c.calls.length = k := by
  rw [← List.length_map SystemCall.result, calls_of_timed_run hrun, Machine.length_firsts]

theorem stalls_calls (hrun : timed_run io len timeout_ms k = some c) :
    stalls c.calls = failures io k := by
  rw [failures_eq_countP, ← calls_of_timed_run hrun, List.countP_map]
  rfl

theorem hard_last (hfits : FitsLen io len) (hless : accepted io k < len)
    (hrun : timed_run io len timeout_ms (k + 1) = some c) (hhard : HardError io k) :
    ∃ call, c.calls.getLast? = some call ∧ call.Hard := by
  obtain ⟨ret, errno, hio, hretries⟩ := hhard
  have hpossible := hfits k hless
  rw [hio] at hpossible
  have hlast : (c.calls.map SystemCall.result).getLast? = some (io k) := by
    rw [calls_of_timed_run hrun, Machine.firsts_succ, List.getLast?_concat]
  rw [List.getLast?_map] at hlast
  obtain ⟨call, hcall, hresult⟩ := Option.map_eq_some_iff.mp hlast
  have hother : ¬ (errno = EINTR ∨ errno = EAGAIN) := of_decide_eq_false hretries
  rw [not_or] at hother
  exact ⟨call, hcall, ret, errno, hresult.trans hio, of_decide_eq_true hpossible, hother⟩

theorem timed_bounded (htimeout : 0 ≤ timeout_ms) (hfits : FitsLen io len) :
    ∃ (k : Nat) (c : DataCall) (ret : Int), timed_run io len timeout_ms k = some c ∧
      c.Bounded len timeout_ms ret := by
  obtain ⟨k, hk, ⟨⟨c, hrun, hret⟩, _, hbudget, _⟩ |
    ⟨⟨c, hrun, hret⟩, hless, hbudget, j, rfl, hlast⟩⟩ := timed_returns htimeout hfits
  · have hlength := length_calls hrun
    have hstalls := stalls_calls hrun
    exact ⟨k, c, len, hrun, hret, by omega, by omega, fun hshort => absurd hshort (by omega)⟩
  · have hlength := length_calls hrun
    have hstalls := stalls_calls hrun
    refine ⟨j + 1, c, _, hrun, hret, by omega, by omega, fun _ => ?_⟩
    rcases hlast with hhard | hspent
    · have hmono : accepted io j ≤ accepted io (j + 1) := accepted_mono (Nat.le_succ j)
      exact .inl (hard_last hfits (by omega) hrun hhard)
    · right
      rw [hstalls]
      exact hspent

end Bounds

-- Whatever the system calls give, the loops of SOCK_TIMEOUT_MODE come back.
theorem timed_transfers_bounded (len : Nat) (timeout_ms : Int) (htimeout : 0 ≤ timeout_ms) :
    (∀ (loop : DataLoop) (data : List UInt8) (io : Nat → IoResult),
      loop = SockServer.send_data ∨ loop = SockClient.send_data → FitsLen io len →
      ∃ (k : Nat) (c : SendCall) (ret : Int),
        Machine.run (SendCall.step (loop .TIMEOUT_MODE) data) (.start true len timeout_ms)
          (Machine.firsts io k) = some c ∧ c.Bounded len timeout_ms ret) ∧
    (∀ (loop : DataLoop) (memory : List UInt8) (outcomes : Nat → RecvOutcome),
      loop = SockServer.recv_data ∨ loop = SockClient.recv_data →
      FitsLen (fun j => (outcomes j).result) len →
      ∃ (k : Nat) (c : RecvCall) (ret : Int),
        Machine.run (RecvCall.step (loop .TIMEOUT_MODE)) (.start true memory len timeout_ms)
          (Machine.firsts outcomes k) = some c ∧ c.Bounded len timeout_ms ret) := by
  constructor
  · intro loop data io hloop hfits
    obtain ⟨k, d, ret, hrun, hbounded⟩ := timed_bounded htimeout hfits
    rw [DataLoop.eq_turn loop (by tauto) .TIMEOUT_MODE]
    obtain ⟨c, hcall, rfl⟩ := SendCall.exists_run (c := .start true len timeout_ms) hrun
    exact ⟨k, c, ret, hcall, hbounded⟩
  · intro loop memory outcomes hloop hfits
    obtain ⟨k, d, ret, hrun, hbounded⟩ := timed_bounded htimeout hfits
    rw [DataLoop.eq_turn loop (by tauto) .TIMEOUT_MODE]
    rw [timed_run, ← Machine.map_firsts] at hrun
    obtain ⟨c, hcall, rfl⟩ := RecvCall.exists_run (c := .start true memory len timeout_ms) hrun
    exact ⟨k, c, ret, hcall, hbounded⟩

-- A send that gets two of its four bytes out, and a recv at the end of the stream
-- with an errno that an earlier call left.
theorem timed_transfers_bounded_stalled :
    (∃ (k : Nat) (c : SendCall) (ret : Int),
      Machine.run (SendCall.step (SockServer.send_data .TIMEOUT_MODE) [1, 2, 3, 4])
        (.start true 4 1)
        (Machine.firsts (fun j => if j = 1 then .moved 2 else .failed (-1) EAGAIN) k) = some c ∧
      c.Bounded 4 1 ret) ∧
    ∃ (k : Nat) (c : RecvCall) (ret : Int),
      Machine.run (RecvCall.step (SockClient.recv_data .TIMEOUT_MODE))
        (.start true [0, 0, 0, 0] 4 1) (Machine.firsts (fun _ => .none 0 EINTR) k) = some c ∧
      c.Bounded 4 1 ret := by
  constructor
  · apply (timed_transfers_bounded 4 1 (by decide)).1 _ _ _ (.inl rfl)
    intro k _
    by_cases hk : k = 1
    · subst hk
      decide
    · simp [hk, IoResult.possible]
  · apply (timed_transfers_bounded 4 1 (by decide)).2 _ _ _ (.inr rfl)
    intro k _
    rfl

end SensorVhal
