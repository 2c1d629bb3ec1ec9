import SensorVhal.Lib.Run
import SensorVhal.Sock.Transfer

namespace SensorVhal

-- SockClient::recv_data in SOCK_BLOCK_MODE.
def SockClient.recv_data_block : Transfer → IoResult → Turn :=
  Transfer.turn block_retries false

-- What a recv call gives: bytes, a failure that sets errno, or the end of the
-- stream, which leaves errno as it was.
inductive Recv
  | chunk (ret : Nat)
  | error (errno : Int)
  | eof

namespace Recv

def bytes : Recv → Nat
  | chunk ret => ret
  | _ => 0

def errno (outcome : Recv) (before : Int) : Int :=
  match outcome with
  | error errno => errno
  | _ => before

def result (outcome : Recv) (before : Int) : IoResult :=
  match outcome with
  | chunk ret => .moved ret
  | error errno => .failed (-1) errno
  | eof => .failed 0 before

def possible (left_size : Nat) : Recv → Bool
  | chunk ret => 0 < ret ∧ ret ≤ left_size
  | _ => true

-- To the loop every outcome without bytes is a failure with the errno after it.
theorem chunk_or_failed (outcome : Recv) :
    (∃ ret, outcome = chunk ret) ∨
      (outcome.bytes = 0 ∧
        ∀ before, ∃ ret, outcome.result before = .failed ret (outcome.errno before)) := by
  cases outcome with
  | chunk ret => exact .inl ⟨ret, rfl⟩
  | error errno => exact .inr ⟨rfl, fun _ => ⟨-1, rfl⟩⟩
  | eof => exact .inr ⟨rfl, fun _ => ⟨0, rfl⟩⟩

end Recv

-- A call of recv_data between two turns of its loop, with the errno of the thread.
structure Receiving where
  turn : Turn
  errno : Int

def Receiving.start (len : Int) (errno : Int) : Receiving :=
  ⟨(Transfer.init len.toNat 5).head, errno⟩

def Receiving.step (recv_data : Transfer → IoResult → Turn) (r : Receiving) (outcome : Recv) :
    Option Receiving :=
  match r.turn with
  | .leave _ => none
  | .again t =>
    if outcome.possible t.left_size then
      some ⟨recv_data t (outcome.result r.errno), outcome.errno r.errno⟩
    else none

theorem Receiving.step_again {recv_data : Transfer → IoResult → Turn} {t : Transfer} {errno : Int}
    {outcome : Recv} (h : outcome.possible t.left_size) :
    Receiving.step recv_data ⟨.again t, errno⟩ outcome =
      some ⟨recv_data t (outcome.result errno), outcome.errno errno⟩ :=
  if_pos h

section Sequence

variable (recv : Nat → Recv)

-- The bytes that the first recv calls give, and errno after them.
def received : Nat → Nat
  | 0 => 0
  | k + 1 => received k + (recv k).bytes

def errno_after (errno : Int) : Nat → Int
  | 0 => errno
  | k + 1 => (recv k).errno (errno_after errno k)

def first_outcomes (k : Nat) : List Recv := (List.range k).map recv

-- As long as bytes are missing, recv gives no more than these.
def Fits (len : Int) : Prop :=
  ∀ k, received recv k < len.toNat → (recv k).possible (len.toNat - received recv k)

-- The call comes back, with the number of bytes that came in.
def ReturnsReceived (recv_data : Transfer → IoResult → Turn) (len errno : Int) : Prop :=
  ∃ k t e, Machine.run (Receiving.step recv_data) (.start len errno) (first_outcomes recv k) =
    some ⟨.leave t, e⟩ ∧ t.total_size = received recv k

-- A recv without bytes that the loop does not try again after.
def Stops (errno : Int) (k : Nat) : Prop :=
  (recv k).bytes = 0 ∧ block_retries (errno_after recv errno (k + 1)) = false

-- The call is still in its loop after the first recv calls.
def Runs (len errno : Int) (k : Nat) : Prop :=
  ∃ t : Transfer, Machine.run (Receiving.step (Transfer.turn block_retries false))
      (.start len errno) (first_outcomes recv k) = some ⟨.again t, errno_after recv errno k⟩ ∧
    t.Open len.toNat ∧ t.p_src = received recv k

end Sequence

variable {recv : Nat → Recv} {len errno : Int} {k : Nat}

theorem received_mono {j : Nat} (h : j ≤ k) : received recv j ≤ received recv k := by
  induction h with
  | refl => exact Nat.le_refl _
  | step _ ih => exact Nat.le_trans ih (Nat.le_add_right _ _)

theorem run_first_succ {r : Receiving} (s : Receiving)
    (recv_data : Transfer → IoResult → Turn)
    (h : Machine.run (Receiving.step recv_data) s (first_outcomes recv k) = some r) :
    Machine.run (Receiving.step recv_data) s (first_outcomes recv (k + 1)) =
      r.step recv_data (recv k) :=
  Machine.run_firsts_succ h

theorem runs_zero (h : 0 < len.toNat) : Runs recv len errno 0 :=
  ⟨.init len.toNat 5, by
    have hhead : (Transfer.init len.toNat 5).head = .again (.init len.toNat 5) := if_pos h
    rw [← hhead]
    rfl, Transfer.open_init 5 h, rfl⟩

theorem returns_zero (h : ¬ 0 < len.toNat) :
    ReturnsReceived recv (Transfer.turn block_retries false) len errno := by
  have hhead : (Transfer.init len.toNat 5).head = .leave (.init len.toNat 5) := if_neg h
  refine ⟨0, .init len.toNat 5, errno, ?_, rfl⟩
  rw [← hhead]
  rfl

-- One more recv: the loop goes on unless it stops or has all its bytes.
theorem runs_succ (hfits : Fits recv len) (h : Runs recv len errno k) :
    (¬ Stops recv errno k ∧ received recv (k + 1) < len.toNat ∧ Runs recv len errno (k + 1)) ∨
      ((Stops recv errno k ∨ len.toNat ≤ received recv (k + 1)) ∧
        ReturnsReceived recv (Transfer.turn block_retries false) len errno) := by
  obtain ⟨t, hrun, hopen, hsrc⟩ := h
  have hnext := run_first_succ _ _ hrun
  have hsum := hopen.sum
  have hleft := hopen.left
  have htotal := hopen.total
  have hpossible := hfits k (by omega)
  have hsize : len.toNat - received recv k = t.left_size := by omega
  rw [hsize] at hpossible
  rw [Receiving.step_again hpossible] at hnext
  rcases Recv.chunk_or_failed (recv k) with ⟨ret, houtcome⟩ | ⟨hnone, hfailed⟩
  · rw [houtcome] at hpossible hnext
    obtain ⟨hpos, hle⟩ := of_decide_eq_true hpossible
    have hbytes : received recv (k + 1) = received recv k + ret := by
      rw [received, houtcome, Recv.bytes]
    have herrno : errno_after recv errno (k + 1) = errno_after recv errno k := by
      rw [errno_after, houtcome]
      rfl
    have hgoes : ¬ Stops recv errno k := by
      rintro ⟨hnone, _⟩
      rw [houtcome, Recv.bytes] at hnone
      omega
    by_cases hlt : ret < t.left_size
    · rw [Recv.result, Transfer.turn_moved_again hlt] at hnext
      refine .inl ⟨hgoes, by omega, t.move ret, ?_, Transfer.open_move hopen hlt, ?_⟩
      · rw [hnext, herrno]
        rfl
      · simp only [Transfer.move]
        omega
    · rw [Recv.result, Transfer.turn_moved_leave (by omega)] at hnext
      refine .inr ⟨.inr (by omega), k + 1, _, _, hnext, ?_⟩
      simp only [Transfer.move]
      omega
  · obtain ⟨ret, hresult⟩ := hfailed (errno_after recv errno k)
    have hbytes : received recv (k + 1) = received recv k := by
      rw [received, hnone, Nat.add_zero]
    rw [hresult] at hnext
    cases hretry : block_retries ((recv k).errno (errno_after recv errno k)) with
    | true =>
        rw [Transfer.turn_retry ret hopen hretry] at hnext
        refine .inl ⟨fun hstops => ?_, by omega, t, hnext, hopen, by omega⟩
        exact Bool.false_ne_true (hstops.2.symm.trans hretry)
    | false =>
        rw [Transfer.turn_stop t false ret hretry] at hnext
        exact .inr ⟨.inl ⟨hnone, hretry⟩, k + 1, t, _, hnext, by omega⟩

-- The loop is in at most one place after a number of recv calls.
theorem not_returns_of_runs (h : ∀ k, Runs recv len errno k) :
    ¬ ReturnsReceived recv (Transfer.turn block_retries false) len errno := by
  rintro ⟨k, t, e, hreturned, _⟩
  obtain ⟨t', hrun, _⟩ := h k
  have hsame := congrArg Receiving.turn (Option.some.inj (hreturned.symm.trans hrun))
  cases hsame

-- A loop that never returns has met no stop and not all of its bytes.
theorem runs_of_not_returns (hfits : Fits recv len)
    (h : ¬ ReturnsReceived recv (Transfer.turn block_retries false) len errno) (k : Nat) :
    received recv k < len.toNat ∧ Runs recv len errno k := by
  induction k with
  | zero =>
      have hpos : 0 < len.toNat := by
        by_contra hzero
        exact h (returns_zero hzero)
      exact ⟨hpos, runs_zero hpos⟩
  | succ k ih =>
      rcases runs_succ hfits ih.2 with ⟨_, hmissing, hruns⟩ | ⟨_, hreturns⟩
      · exact ⟨hmissing, hruns⟩
      · exact absurd hreturns h

theorem runs_of_not_stops (hfits : Fits recv len) (hmissing : ∀ k, received recv k < len.toNat)
    (hstops : ∀ k, ¬ Stops recv errno k) (k : Nat) : Runs recv len errno k := by
  induction k with
  | zero => exact runs_zero (hmissing 0)
  | succ k ih =>
      rcases runs_succ hfits ih with ⟨_, _, hruns⟩ | ⟨hend, _⟩
      · exact hruns
      · have hless := hmissing (k + 1)
        rcases hend with hstop | hall
        · exact absurd hstop (hstops k)
        · omega

section EndOfFile

variable {N : Nat} (heof : ∀ k, N ≤ k → recv k = .eof)
include heof

-- The end of the stream brings no bytes and keeps errno.
theorem received_eof (hk : N ≤ k) : received recv k = received recv N := by
  induction hk with
  | refl => rfl
  | step hk ih =>
      rw [received, heof _ hk]
      exact ih

theorem errno_after_eof (hk : N ≤ k) : errno_after recv errno k = errno_after recv errno N := by
  induction hk with
  | refl => rfl
  | step hk ih =>
      rw [errno_after, heof _ hk]
      exact ih

theorem returns_iff (hfits : Fits recv len) :
    ReturnsReceived recv (Transfer.turn block_retries false) len errno ↔
      len.toNat ≤ received recv N ∨ block_retries (errno_after recv errno N) = false ∨
        ∃ k, k < N ∧ Stops recv errno k := by
  constructor
  · intro hreturns
    by_contra hcond
    obtain ⟨hmissing, hrest⟩ := not_or.mp hcond
    obtain ⟨hretry, hstops⟩ := not_or.mp hrest
    refine not_returns_of_runs (runs_of_not_stops hfits (fun k => ?_) (fun k => ?_)) hreturns
    · rcases Nat.le_total k N with hle | hge
      · exact Nat.lt_of_le_of_lt (received_mono hle) (Nat.lt_of_not_le hmissing)
      · rw [received_eof heof hge]
        exact Nat.lt_of_not_le hmissing
    · rcases Nat.lt_or_ge k N with hlt | hge
      · exact fun hstop => hstops ⟨k, hlt, hstop⟩
      · rintro ⟨_, hstop⟩
        rw [errno_after_eof heof (Nat.le_succ_of_le hge)] at hstop
        exact hretry hstop
  · intro hcond
    by_contra hreturns
    have hruns := runs_of_not_returns hfits hreturns
    have hgoes : ∀ k, ¬ Stops recv errno k := by
      intro k hstop
      rcases runs_succ hfits (hruns k).2 with ⟨hgo, _⟩ | ⟨_, hreturned⟩
      · exact hgo hstop
      · exact hreturns hreturned
    rcases hcond with hall | hfresh | ⟨k, _, hstop⟩
    · exact absurd (hruns N).1 (Nat.not_lt.mpr hall)
    · apply hgoes N
      have hnone : (recv N).bytes = 0 := congrArg Recv.bytes (heof N (Nat.le_refl N))
      refine ⟨hnone, ?_⟩
      rw [errno_after_eof heof (Nat.le_succ N)]
      exact hfresh
    · exact hgoes k hstop

end EndOfFile

-- Both receivers end at the end of the stream exactly when errno was not left
-- at one of the three values, or when they had ended before.
theorem recv_data_returns_iff (recv_data : Transfer → IoResult → Turn)
    (hdata : recv_data = SockServer.recv_data_block ∨ recv_data = SockClient.recv_data_block)
    (len errno : Int) (recv : Nat → Recv) (N : Nat) (heof : ∀ k, N ≤ k → recv k = .eof)
    (hfits : Fits recv len) :
    ReturnsReceived recv recv_data len errno ↔
      len.toNat ≤ received recv N ∨ block_retries (errno_after recv errno N) = false ∨
        ∃ k, k < N ∧ Stops recv errno k := by
  rcases hdata with rfl | rfl
  · exact returns_iff heof hfits
  · exact returns_iff heof hfits

-- Half a header, then the end of the stream, with errno at 0.
theorem recv_data_returns_half : ReturnsReceived
    (fun k => if k = 0 then .chunk 8 else .eof) SockServer.recv_data_block 16 0 := by
  have heof : ∀ k, 1 ≤ k → (if k = 0 then Recv.chunk 8 else .eof) = .eof :=
    fun k hk => if_neg (Nat.ne_of_gt hk)
  refine (recv_data_returns_iff _ (.inl rfl) 16 0 _ 1 heof fun k _ => ?_).mpr
    (.inr (.inl (by decide)))
  cases k with
  | zero => decide
  | succ k => rfl

-- The same after a recv that found nothing: errno stays at EAGAIN, and no
-- number of turns ends the call.
theorem recv_data_spins : ¬ ReturnsReceived
    (fun k => if k = 0 then .error EAGAIN else .eof) SockServer.recv_data_block 16 0 := by
  have heof : ∀ k, 1 ≤ k → (if k = 0 then Recv.error EAGAIN else .eof) = .eof :=
    fun k hk => if_neg (Nat.ne_of_gt hk)
  have hnone : ∀ k, received (fun k => if k = 0 then Recv.error EAGAIN else .eof) k = 0 := by
    intro k
    cases k with
    | zero => rfl
    | succ k => exact received_eof heof (Nat.le_add_left 1 k)
  have hstale : ∀ k, errno_after (fun k => if k = 0 then Recv.error EAGAIN else .eof) 0 (k + 1) =
      EAGAIN := fun k => errno_after_eof heof (Nat.le_add_left 1 k)
  refine not_returns_of_runs (runs_of_not_stops (fun k _ => ?_) (fun k => ?_) (fun k => ?_))
  · cases k with
    | zero => rfl
    | succ k => rfl
  · rw [hnone k]
    decide
  · rintro ⟨_, hstop⟩
    rw [hstale k] at hstop
    exact absurd hstop (by decide)

end SensorVhal
