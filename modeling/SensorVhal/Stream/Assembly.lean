import Mathlib.Algebra.GroupWithZero.Nat
import SensorVhal.Sock.EndOfFile
import SensorVhal.Stream.Callback

namespace SensorVhal

-- SockServer::send_data in SOCK_BLOCK_MODE.
def SockServer.send_data_block : Transfer → IoResult → Turn :=
  Transfer.turn block_retries false

-- SockServer::recv_data in SOCK_TIMEOUT_MODE.
def SockServer.recv_data_timeout : Transfer → IoResult → Turn :=
  Transfer.turn timeout_retries true

-- SockClient::send_data in SOCK_TIMEOUT_MODE.
def SockClient.send_data_timeout : Transfer → IoResult → Turn :=
  Transfer.turn timeout_retries true

-- SockClient::send_data in SOCK_BLOCK_MODE.
def SockClient.send_data_block : Transfer → IoResult → Turn :=
  Transfer.turn block_retries false

-- SockClient::recv_data in SOCK_TIMEOUT_MODE.
def SockClient.recv_data_timeout : Transfer → IoResult → Turn :=
  Transfer.turn timeout_retries true

-- The modes of sock_work_mode_t with a loop.
inductive LoopMode
  | BLOCK_MODE
  | TIMEOUT_MODE
  deriving DecidableEq

-- The loops of one of the four functions.
abbrev DataLoop := LoopMode → Transfer → IoResult → Turn

def SockServer.send_data : DataLoop
  | .BLOCK_MODE => SockServer.send_data_block
  | .TIMEOUT_MODE => SockServer.send_data_timeout

def SockServer.recv_data : DataLoop
  | .BLOCK_MODE => SockServer.recv_data_block
  | .TIMEOUT_MODE => SockServer.recv_data_timeout

def SockClient.send_data : DataLoop
  | .BLOCK_MODE => SockClient.send_data_block
  | .TIMEOUT_MODE => SockClient.send_data_timeout

def SockClient.recv_data : DataLoop
  | .BLOCK_MODE => SockClient.recv_data_block
  | .TIMEOUT_MODE => SockClient.recv_data_timeout

-- Where a call stands between its system calls.
inductive Progress
  | looping (t : Transfer)
  | returned (ret : Int)

def Turn.progress : Turn → Progress
  | .again t => .looping t
  | .leave t => .returned t.total_size

-- A send or recv: the offset and the size that it was given, and its result.
structure SystemCall where
  offset : Nat
  size : Nat
  result : IoResult

-- A call of one of the functions with the system calls it has made.
structure DataCall where
  progress : Progress
  calls : List SystemCall

-- The functions up to their first system call. Without a valid socket they
-- return at once.
def DataCall.start (valid : Bool) (len timeout_ms : Int) : DataCall where
  progress := if valid then (Transfer.init len.toNat timeout_ms).head.progress else .returned (-1)
  calls := []

def DataCall.step (loop : Transfer → IoResult → Turn) (c : DataCall) (io : IoResult) :
    Option DataCall :=
  match c.progress with
  | .looping t =>
    if io.possible t.left_size then
      some ⟨(loop t io).progress, c.calls ++ [⟨t.p_src, t.left_size, io⟩]⟩
    else none
  | .returned _ => none

def IoResult.bytes : IoResult → Nat
  | .moved ret => ret
  | .failed _ _ => 0

-- The bytes that the calls have moved.
def moved_bytes (calls : List SystemCall) : Nat := (calls.map fun call => call.result.bytes).sum

-- A call that a loop of SOCK_BLOCK_MODE does not try again after.
def SystemCall.Fatal (call : SystemCall) : Prop :=
  ∃ ret errno, call.result = .failed ret errno ∧ ret ≤ 0 ∧ block_retries errno = false

-- A call of send_data, with what went into the socket.
structure SendCall extends DataCall where
  sent : List UInt8

def SendCall.start (valid : Bool) (len timeout_ms : Int) : SendCall :=
  ⟨.start valid len timeout_ms, []⟩

-- The bytes of `data` that a send has taken.
def Progress.taken (data : List UInt8) (progress : Progress) (io : IoResult) : List UInt8 :=
  match progress with
  | .looping t => (data.drop t.p_src).take io.bytes
  | .returned _ => []

def SendCall.step (loop : Transfer → IoResult → Turn) (data : List UInt8) (c : SendCall)
    (io : IoResult) : Option SendCall :=
  (c.toDataCall.step loop io).map fun next => ⟨next, c.sent ++ c.progress.taken data io⟩

-- A call of recv_data, with its buffer and what came out of the socket.
structure RecvCall extends DataCall where
  buffer : List UInt8
  received : List UInt8

def RecvCall.start (valid : Bool) (buffer : List UInt8) (len timeout_ms : Int) : RecvCall :=
  ⟨.start valid len timeout_ms, buffer, []⟩

def Progress.fill (buffer : List UInt8) (progress : Progress) (outcome : RecvOutcome) :
    List UInt8 :=
  match progress with
  | .looping t => Bytes.overwrite buffer t.p_src outcome.chunk
  | .returned _ => buffer

def RecvCall.step (loop : Transfer → IoResult → Turn) (c : RecvCall) (outcome : RecvOutcome) :
    Option RecvCall :=
  (c.toDataCall.step loop outcome.result).map fun next =>
    ⟨next, c.progress.fill c.buffer outcome, c.received ++ outcome.chunk⟩

section Loops

def LoopMode.retries : LoopMode → Int → Bool
  | BLOCK_MODE => block_retries
  | TIMEOUT_MODE => timeout_retries

def LoopMode.timed : LoopMode → Bool
  | BLOCK_MODE => false
  | TIMEOUT_MODE => true

-- The loop of a mode is the same in all four functions.
theorem DataLoop.eq_turn (loop : DataLoop)
    (h : loop = SockServer.send_data ∨ loop = SockServer.recv_data ∨
      loop = SockClient.send_data ∨ loop = SockClient.recv_data) (mode : LoopMode) :
    loop mode = Transfer.turn mode.retries mode.timed := by
  rcases h with rfl | rfl | rfl | rfl <;> cases mode <;> rfl

variable {mode : LoopMode} {len : Nat} {c next : DataCall} {io : IoResult}

@[simp] theorem moved_bytes_append (calls : List SystemCall) (call : SystemCall) :
    moved_bytes (calls ++ [call]) = moved_bytes calls + call.result.bytes := by
  simp [moved_bytes]

theorem DataCall.step_cases {loop : Transfer → IoResult → Turn} (h : c.step loop io = some next) :
    ∃ t, c.progress = .looping t ∧ io.possible t.left_size = true ∧
      next = ⟨(loop t io).progress, c.calls ++ [⟨t.p_src, t.left_size, io⟩]⟩ := by
  unfold step at h
  split at h
  · rename_i t hprogress
    split at h
    · rename_i hpossible
      exact ⟨t, hprogress, hpossible, (Option.some.inj h).symm⟩
    · cases h
  · cases h

-- Each turn of a loop is one system call.
theorem DataCall.results_of_run {loop : Transfer → IoResult → Turn} {outcomes : List IoResult}
    (hrun : Machine.run (DataCall.step loop) c outcomes = some next) :
    next.calls.map SystemCall.result = c.calls.map SystemCall.result ++ outcomes := by
  induction outcomes generalizing c with
  | nil =>
      cases hrun
      exact (List.append_nil _).symm
  | cons io outcomes ih =>
      obtain ⟨middle, hmiddle, hrest⟩ := Machine.run_cons_some.mp hrun
      obtain ⟨t, _, _, rfl⟩ := step_cases hmiddle
      rw [ih hrest, List.map_append, List.append_assoc]
      rfl

-- The system calls stay within the data, and the pointer, the rest and the total
-- agree on how much was moved.
structure DataCall.Sound (mode : LoopMode) (len : Nat) (c : DataCall) : Prop where
  ranges : ∀ call ∈ c.calls, call.offset + call.size ≤ len
  looping : ∀ t, c.progress = .looping t → t.Open len ∧ t.p_src = moved_bytes c.calls
  returned : ∀ ret, c.progress = .returned ret → ret = moved_bytes c.calls ∧
    moved_bytes c.calls ≤ len ∧ (mode = .BLOCK_MODE → moved_bytes c.calls < len →
      ∃ call ∈ c.calls, call.Fatal)

theorem DataCall.sound_start (mode : LoopMode) (len : Nat) (timeout_ms : Int) :
    (DataCall.start true len timeout_ms).Sound mode len := by
  by_cases hpos : 0 < len
  · have hhead : (Transfer.init len timeout_ms).head = .again (.init len timeout_ms) := if_pos hpos
    have hstart : DataCall.start true len timeout_ms = ⟨.looping (.init len timeout_ms), []⟩ := by
      simp [start, hhead, Turn.progress]
    rw [hstart]
    refine ⟨nofun, fun t ht => ?_, nofun⟩
    cases ht
    exact ⟨Transfer.open_init timeout_ms hpos, rfl⟩
  · have hzero : len = 0 := by omega
    subst hzero
    refine ⟨nofun, nofun, fun ret hret => ?_⟩
    cases hret
    exact ⟨rfl, Nat.le_refl 0, fun _ hless => absurd hless (Nat.lt_irrefl 0)⟩

theorem DataCall.sound_step (h : c.Sound mode len)
    (hstep : c.step (Transfer.turn mode.retries mode.timed) io = some next) :
    next.Sound mode len := by
  obtain ⟨t, hprogress, hpossible, rfl⟩ := step_cases hstep
  obtain ⟨hopen, hsrc⟩ := h.looping t hprogress
  have hsum := hopen.sum
  have htotal := hopen.total
  have hranges : ∀ call ∈ c.calls ++ [⟨t.p_src, t.left_size, io⟩],
      call.offset + call.size ≤ len := by
    intro call hcall
    rcases List.mem_append.mp hcall with hold | hnew
    · exact h.ranges call hold
    · rw [List.mem_singleton.mp hnew]
      exact Nat.le_of_eq hsum
  rcases Transfer.turn_cases mode.retries mode.timed hopen hpossible with
    ⟨ret, rfl, _, hlt, hturn⟩ | ⟨rfl, hturn⟩ | ⟨ret, errno, rfl, _, _, hturn⟩ |
    ⟨ret, errno, t', rfl, hstop, hturn, _, htotal'⟩
  · rw [hturn]
    refine ⟨hranges, fun t' ht' => ?_, fun ret' hret => (by cases hret)⟩
    cases ht'
    refine ⟨Transfer.open_move hopen hlt, ?_⟩
    rw [moved_bytes_append, ← hsrc]
    rfl
  · rw [hturn]
    refine ⟨hranges, fun t' ht' => (by cases ht'), fun ret hret => ?_⟩
    cases hret
    have hmoved : moved_bytes (c.calls ++ [⟨t.p_src, t.left_size, .moved t.left_size⟩]) = len := by
      rw [moved_bytes_append, ← hsrc]
      exact hsum
    rw [hmoved]
    refine ⟨?_, Nat.le_refl len, fun _ hless => absurd hless (Nat.lt_irrefl len)⟩
    simp only [Transfer.move]
    omega
  · rw [hturn]
    refine ⟨hranges, fun t' ht' => ?_, fun ret' hret => (by cases hret)⟩
    cases ht'
    rw [moved_bytes_append, ← hsrc]
    cases mode.timed with
    | false => exact ⟨hopen, rfl⟩
    | true => exact ⟨Transfer.open_count_down hopen, rfl⟩
  · rw [hturn]
    refine ⟨hranges, fun t' ht' => (by cases ht'), fun ret' hret => ?_⟩
    cases hret
    have hmoved : moved_bytes (c.calls ++ [⟨t.p_src, t.left_size, .failed ret errno⟩]) =
        t.p_src := by
      rw [moved_bytes_append, ← hsrc]
      rfl
    rw [hmoved]
    refine ⟨by omega, by omega, fun hmode _ => ?_⟩
    have hret : ret ≤ 0 := of_decide_eq_true hpossible
    refine ⟨_, List.mem_append_right _ (List.mem_singleton_self _), ret, errno, rfl, hret, ?_⟩
    rcases hstop with hstop | ⟨htimed, _⟩
    · rw [hmode] at hstop
      exact hstop
    · rw [hmode] at htimed
      cases htimed

end Loops

section Sending

variable {mode : LoopMode} {data : List UInt8} {len : Nat} {c next : SendCall} {io : IoResult}

-- What was sent is the start of the data, up to where the call has come.
def SendCall.Assembled (mode : LoopMode) (data : List UInt8) (len : Nat) (c : SendCall) : Prop :=
  c.toDataCall.Sound mode len ∧ c.sent = data.take (moved_bytes c.calls)

theorem SendCall.assembled_step (h : c.Assembled mode data len)
    (hstep : c.step (Transfer.turn mode.retries mode.timed) data io = some next) :
    next.Assembled mode data len := by
  obtain ⟨d, hd, rfl⟩ := Option.map_eq_some_iff.mp hstep
  refine ⟨DataCall.sound_step h.1 hd, ?_⟩
  obtain ⟨t, hprogress, _, rfl⟩ := DataCall.step_cases hd
  obtain ⟨_, hsrc⟩ := h.1.looping t hprogress
  simp only [hprogress, Progress.taken, moved_bytes_append, h.2, hsrc]
  exact List.take_add.symm

theorem SendCall.assembled_of_run {timeout_ms : Int} {outcomes : List IoResult}
    (hrun : Machine.run (SendCall.step (Transfer.turn mode.retries mode.timed) data)
      (.start true len timeout_ms) outcomes = some c) : c.Assembled mode data len :=
  Machine.invariant_always (fun _ _ _ h hstep => assembled_step h hstep)
    ⟨DataCall.sound_start mode len timeout_ms, rfl⟩ hrun

-- The data take no part in how a call goes.
theorem SendCall.exists_run {loop : Transfer → IoResult → Turn} {outcomes : List IoResult}
    {d : DataCall} (hrun : Machine.run (DataCall.step loop) c.toDataCall outcomes = some d) :
    ∃ last, Machine.run (SendCall.step loop data) c outcomes = some last ∧
      last.toDataCall = d := by
  have hview : ∀ (c : SendCall) (io : IoResult),
      (c.step loop data io).map SendCall.toDataCall = c.toDataCall.step loop io := by
    intro c io
    rw [SendCall.step, Option.map_map]
    exact Option.map_id'
  have hmap := Machine.map_run (f := id) hview c outcomes
  rw [List.map_id, hrun] at hmap
  exact Option.map_eq_some_iff.mp hmap

end Sending

section Receiving

variable {mode : LoopMode} {memory : List UInt8} {len : Nat} {c next : RecvCall}
  {outcome : RecvOutcome}

-- What was received lies at the start of the buffer, and the rest is as it was.
def RecvCall.Assembled (mode : LoopMode) (memory : List UInt8) (len : Nat) (c : RecvCall) : Prop :=
  c.toDataCall.Sound mode len ∧ c.received.length = moved_bytes c.calls ∧
    c.buffer = c.received ++ memory.drop (moved_bytes c.calls)

theorem RecvOutcome.length_chunk (outcome : RecvOutcome) :
    outcome.chunk.length = outcome.result.bytes := by
  cases outcome <;> rfl

theorem RecvCall.assembled_step (h : c.Assembled mode memory len)
    (hstep : c.step (Transfer.turn mode.retries mode.timed) outcome = some next) :
    next.Assembled mode memory len := by
  obtain ⟨d, hd, rfl⟩ := Option.map_eq_some_iff.mp hstep
  obtain ⟨hsound, hlength, hbuffer⟩ := h
  refine ⟨DataCall.sound_step hsound hd, ?_⟩
  obtain ⟨t, hprogress, _, rfl⟩ := DataCall.step_cases hd
  obtain ⟨_, hsrc⟩ := hsound.looping t hprogress
  have hchunk := outcome.length_chunk
  simp only [hprogress, Progress.fill, moved_bytes_append, List.length_append]
  refine ⟨by omega, ?_⟩
  rw [Bytes.overwrite, hbuffer, hsrc, ← hlength, ← hchunk, List.take_left, List.drop_append,
    List.drop_of_length_le (by omega), List.nil_append, List.drop_drop]
  congr 2
  omega

-- Nor do the bytes that are received.
theorem RecvCall.exists_run {loop : Transfer → IoResult → Turn} {outcomes : List RecvOutcome}
    {d : DataCall} (hrun : Machine.run (DataCall.step loop) c.toDataCall
      (outcomes.map RecvOutcome.result) = some d) :
    ∃ last, Machine.run (RecvCall.step loop) c outcomes = some last ∧ last.toDataCall = d := by
  have hview : ∀ (c : RecvCall) (outcome : RecvOutcome),
      (c.step loop outcome).map RecvCall.toDataCall = c.toDataCall.step loop outcome.result := by
    intro c outcome
    rw [RecvCall.step, Option.map_map]
    exact Option.map_id'
  have hmap := Machine.map_run hview c outcomes
  rw [hrun] at hmap
  exact Option.map_eq_some_iff.mp hmap

end Receiving

-- Whatever the system calls give, a call that returns has moved the first `ret`
-- bytes of its data, each once and in order, and nothing else.
theorem transfers_assembled (mode : LoopMode) (len : Nat) (timeout_ms : Int) :
    (∀ (loop : DataLoop) (data : List UInt8) (outcomes : List IoResult) (c : SendCall) (ret : Int),
      loop = SockServer.send_data ∨ loop = SockClient.send_data →
      Machine.run (SendCall.step (loop mode) data) (.start true len timeout_ms) outcomes =
        some c → c.progress = .returned ret →
      0 ≤ ret ∧ ret ≤ len ∧ c.sent = data.take ret.toNat ∧
        (∀ call ∈ c.calls, call.offset + call.size ≤ len) ∧
        (mode = .BLOCK_MODE → ret < len → ∃ call ∈ c.calls, call.Fatal)) ∧
    (∀ (loop : DataLoop) (memory : List UInt8) (outcomes : List RecvOutcome) (c : RecvCall)
      (ret : Int),
      loop = SockServer.recv_data ∨ loop = SockClient.recv_data →
      Machine.run (RecvCall.step (loop mode)) (.start true memory len timeout_ms) outcomes =
        some c → c.progress = .returned ret →
      0 ≤ ret ∧ ret ≤ len ∧ c.received.length = ret ∧
        c.buffer = c.received ++ memory.drop ret.toNat ∧
        (∀ call ∈ c.calls, call.offset + call.size ≤ len) ∧
        (mode = .BLOCK_MODE → ret < len → ∃ call ∈ c.calls, call.Fatal)) := by
  constructor
  · intro loop data outcomes c ret hloop hrun hret
    rw [DataLoop.eq_turn loop (by tauto) mode] at hrun
    obtain ⟨⟨hranges, _, hreturned⟩, hsent⟩ := SendCall.assembled_of_run hrun
    obtain ⟨rfl, hle, hfatal⟩ := hreturned ret hret
    exact ⟨by omega, by omega, hsent, hranges, fun hmode hless => hfatal hmode (by omega)⟩
  · intro loop memory outcomes c ret hloop hrun hret
    rw [DataLoop.eq_turn loop (by tauto) mode] at hrun
    have hassembled : c.Assembled mode memory len := Machine.invariant_always
      (fun _ _ _ h hstep => RecvCall.assembled_step h hstep)
      ⟨DataCall.sound_start mode len timeout_ms, rfl, rfl⟩ hrun
    obtain ⟨⟨hranges, _, hreturned⟩, hlength, hbuffer⟩ := hassembled
    obtain ⟨rfl, hle, hfatal⟩ := hreturned ret hret
    exact ⟨by omega, by omega, by rw [hlength], hbuffer, hranges,
      fun hmode hless => hfatal hmode (by omega)⟩

-- Four bytes go out in two parts, and four come in up to a hard error.
theorem transfers_assembled_parts :
    (∃ c : SendCall, Machine.run (SendCall.step (SockServer.send_data .BLOCK_MODE) [1, 2, 3, 4])
        (.start true 4 5) [.moved 3, .failed (-1) EAGAIN, .moved 1] = some c ∧
      c.sent = [1, 2, 3, 4]) ∧
    ∃ c : RecvCall, Machine.run (RecvCall.step (SockClient.recv_data .BLOCK_MODE))
        (.start true [0, 0, 0, 0, 9] 4 5) [.data [7, 8], .none (-1) 104] = some c ∧
      c.buffer = c.received ++ [0, 0, 9] ∧ ∃ call ∈ c.calls, call.Fatal := by
  constructor
  · obtain ⟨c, hrun, hret⟩ : ∃ c, Machine.run
        (SendCall.step (SockServer.send_data .BLOCK_MODE) [1, 2, 3, 4])
        (.start true 4 5) [.moved 3, .failed (-1) EAGAIN, .moved 1] = some c ∧
        c.progress = .returned 4 := ⟨_, rfl, rfl⟩
    obtain ⟨_, _, hsent, _⟩ := (transfers_assembled .BLOCK_MODE 4 5).1 SockServer.send_data
      [1, 2, 3, 4] _ c 4 (.inl rfl) hrun hret
    exact ⟨c, hrun, hsent⟩
  · obtain ⟨c, hrun, hret⟩ : ∃ c, Machine.run (RecvCall.step (SockClient.recv_data .BLOCK_MODE))
        (.start true [0, 0, 0, 0, 9] 4 5) [.data [7, 8], .none (-1) 104] = some c ∧
        c.progress = .returned 2 := ⟨_, rfl, rfl⟩
    obtain ⟨_, _, _, hbuffer, _, hfatal⟩ := (transfers_assembled .BLOCK_MODE 4 5).2
      SockClient.recv_data [0, 0, 0, 0, 9] _ c 2 (.inr rfl) hrun hret
    exact ⟨c, hrun, hbuffer, hfatal rfl (by decide)⟩

end SensorVhal
