import SensorVhal.Lib.Bytes
import SensorVhal.Lib.Run
import SensorVhal.Sensors.Device
import SensorVhal.Sock.Transfer

namespace SensorVhal

-- sizeof(aic_sensors_event_t)
def HEADER_SIZE : Nat := 16

def MAX_SENSOR_PAYLOAD_SIZE : Nat := 4 * 8

def MEM_POOL_SIZE : Nat := 16

-- std::vector<char>(buf_size)
def new_buffer : List UInt8 := List.replicate (HEADER_SIZE + MAX_SENSOR_PAYLOAD_SIZE) 0

-- The field `type` at the start of a header.
def header_type (header : List UInt8) : Int := (Bytes.toWord header).toInt

-- Where the two recv_data calls of sensor_event_callback write: the header on
-- the stack, or data.fdata of a message buffer.
inductive Destination
  | sensor_events_header (bytes : List UInt8)
  | sensor_events_ptr (buffer : List UInt8)

def Destination.fill (dest : Destination) (p_src : Nat) (chunk : List UInt8) : Destination :=
  match dest with
  | sensor_events_header bytes => sensor_events_header (Bytes.overwrite bytes p_src chunk)
  | sensor_events_ptr buffer =>
      sensor_events_ptr (Bytes.overwrite buffer (HEADER_SIZE + p_src) chunk)

-- Where the listener thread stands.
inductive CallbackPc (Client : Type)
  | idle
  | recv_data (client : Client) (dest : Destination) (t : Transfer)

-- A buffer as it is put into m_sensor_msg_queue. `start` is the number of bytes
-- that the client had sent before the callback that received it.
structure Pushed (Client : Type) where
  client : Client
  start : Nat
  buffer : List UInt8

-- What has come in from each client so far, which of them has come to its end,
-- and what was put into the queue. The program does not read it.
structure ChannelHistory (Client : Type) where
  received : Client → List UInt8
  ended : Client → Bool
  start : Nat
  pushed : List (Pushed Client)

structure Channel (Client : Type) where
  pc : CallbackPc Client
  m_msg_mem_pool : List (List UInt8)
  m_sensor_msg_queue : List (List UInt8)
  history : ChannelHistory Client

inductive RecvOutcome
  | data (chunk : List UInt8)
  | none (ret errno : Int)

def RecvOutcome.chunk : RecvOutcome → List UInt8
  | data chunk => chunk
  | none _ _ => []

@[simp] theorem RecvOutcome.chunk_data (chunk : List UInt8) : (data chunk).chunk = chunk := rfl

@[simp] theorem RecvOutcome.chunk_none (ret errno : Int) : (none ret errno).chunk = [] := rfl

def RecvOutcome.result : RecvOutcome → IoResult
  | data chunk => .moved chunk.length
  | none ret errno => .failed ret errno

-- recv is at the end of the stream, or the socket has failed.
def RecvOutcome.ends : RecvOutcome → Bool
  | data _ => false
  | none ret errno => ret = 0 ∨ ¬ block_retries errno

@[simp] theorem RecvOutcome.ends_data (chunk : List UInt8) : (data chunk).ends = false := rfl

-- What recv can give to a loop: at most the bytes that are left, and none
-- behind the end of the client's stream.
def RecvOutcome.possible (outcome : RecvOutcome) (ended : Bool) (left_size : Nat) : Bool :=
  match outcome with
  | data chunk => ¬ ended ∧ 0 < chunk.length ∧ chunk.length ≤ left_size
  | none ret _ => ret ≤ 0

-- check_new_message finds a client readable and calls the callback, whose
-- header on the stack holds anything; a recv call returns; a poll takes the
-- oldest message; a poll gives a buffer back.
inductive ChannelEvent (Client : Type)
  | readable (client : Client) (stack : List UInt8)
  | recv (outcome : RecvOutcome)
  | take
  | recycle (buffer : List UInt8)

variable {Client : Type}

def Channel.init : Channel Client where
  pc := .idle
  m_msg_mem_pool := List.replicate MEM_POOL_SIZE new_buffer
  m_sensor_msg_queue := []
  history := ⟨fun _ => [], fun _ => false, 0, []⟩

variable (hdr : SensorsHeader)

-- sensor_event_callback behind its first recv_data.
def Channel.header_received (ch : Channel Client) (client : Client)
    (sensor_events_header : List UInt8) (len : Nat) : Channel Client :=
  if len = 0 then { ch with pc := .idle }
  else
    let payload_len := get_payload_len hdr (header_type sensor_events_header)
    if payload_len = 0 then { ch with pc := .idle }
    else
      let (buf, pool) := match ch.m_msg_mem_pool with
        | [] => (new_buffer, [])
        | buf :: pool => (buf, pool)
      { ch with
        m_msg_mem_pool := pool
        pc := .recv_data client (.sensor_events_ptr (Bytes.overwrite buf 0 sensor_events_header))
          (.init payload_len 5) }

-- sensor_event_callback behind its second recv_data.
def Channel.payload_received (ch : Channel Client) (client : Client) (buf : List UInt8)
    (len : Nat) : Channel Client :=
  if len = 0 then { ch with pc := .idle }
  else
    let (queue, pool) := make_room ch.m_sensor_msg_queue ch.m_msg_mem_pool
    { pc := .idle
      m_msg_mem_pool := pool
      m_sensor_msg_queue := queue ++ [buf]
      history := { ch.history with
        pushed := ch.history.pushed ++ [⟨client, ch.history.start, buf⟩] } }

def Channel.recv_data_returned (ch : Channel Client) (client : Client) (dest : Destination)
    (len : Nat) : Channel Client :=
  match dest with
  | .sensor_events_header bytes => ch.header_received hdr client bytes len
  | .sensor_events_ptr buffer => ch.payload_received client buffer len

variable [DecidableEq Client]

-- A recv call on the socket of a client has returned.
def ChannelHistory.log (history : ChannelHistory Client) (client : Client)
    (outcome : RecvOutcome) : ChannelHistory Client :=
  { history with
    received := Function.update history.received client (history.received client ++ outcome.chunk)
    ended := Function.update history.ended client (history.ended client || outcome.ends) }

section Log

variable (history : ChannelHistory Client) (client : Client) (outcome : RecvOutcome)

@[simp] theorem ChannelHistory.log_received :
    (history.log client outcome).received client = history.received client ++ outcome.chunk :=
  Function.update_self _ _ _

@[simp] theorem ChannelHistory.log_ended :
    (history.log client outcome).ended client = (history.ended client || outcome.ends) :=
  Function.update_self _ _ _

theorem ChannelHistory.log_received_of_ne {other : Client} (h : other ≠ client) :
    (history.log client outcome).received other = history.received other :=
  Function.update_of_ne h _ _

theorem ChannelHistory.log_ended_of_ne {other : Client} (h : other ≠ client) :
    (history.log client outcome).ended other = history.ended other :=
  Function.update_of_ne h _ _

end Log

def Channel.step (ch : Channel Client) : ChannelEvent Client → Option (Channel Client)
  | .readable client stack =>
    match ch.pc with
    | .idle =>
      if stack.length = HEADER_SIZE then
        some { ch with
          pc := .recv_data client (.sensor_events_header stack) (.init HEADER_SIZE 5)
          history := { ch.history with start := (ch.history.received client).length } }
      else none
    | .recv_data .. => none
  | .recv outcome =>
    match ch.pc with
    | .idle => none
    | .recv_data client dest t =>
      if outcome.possible (ch.history.ended client) t.left_size then
        let dest := dest.fill t.p_src outcome.chunk
        let ch := { ch with history := ch.history.log client outcome }
        match SockServer.recv_data_block t outcome.result with
        | .again t => some { ch with pc := .recv_data client dest t }
        | .leave t => some (ch.recv_data_returned hdr client dest t.total_size)
      else none
  | .take =>
    match ch.m_sensor_msg_queue with
    | [] => none
    | _ :: queue => some { ch with m_sensor_msg_queue := queue }
  | .recycle buffer =>
    if buffer.length = HEADER_SIZE + MAX_SENSOR_PAYLOAD_SIZE then
      some { ch with m_msg_mem_pool := ch.m_msg_mem_pool ++ [buffer] }
    else none

-- The moves of the channel, one for each way in which an event is enabled.
inductive Channel.Moves (ch : Channel Client) : ChannelEvent Client → Channel Client → Prop
  | readable (client : Client) (stack : List UInt8) (hpc : ch.pc = .idle)
      (hstack : stack.length = HEADER_SIZE) : ch.Moves (.readable client stack)
      { ch with
        pc := .recv_data client (.sensor_events_header stack) (.init HEADER_SIZE 5)
        history := { ch.history with start := (ch.history.received client).length } }
  | again (client : Client) (dest : Destination) (t t' : Transfer) (outcome : RecvOutcome)
      (hpc : ch.pc = .recv_data client dest t)
      (hpossible : outcome.possible (ch.history.ended client) t.left_size)
      (hturn : SockServer.recv_data_block t outcome.result = .again t') :
      ch.Moves (.recv outcome)
      { ch with
        pc := .recv_data client (dest.fill t.p_src outcome.chunk) t'
        history := ch.history.log client outcome }
  | leave (client : Client) (dest : Destination) (t t' : Transfer) (outcome : RecvOutcome)
      (hpc : ch.pc = .recv_data client dest t)
      (hpossible : outcome.possible (ch.history.ended client) t.left_size)
      (hturn : SockServer.recv_data_block t outcome.result = .leave t') :
      ch.Moves (.recv outcome)
      (({ ch with history := ch.history.log client outcome } : Channel Client).recv_data_returned
        hdr client (dest.fill t.p_src outcome.chunk) t'.total_size)
  | take (front : List UInt8) (queue : List (List UInt8))
      (hqueue : ch.m_sensor_msg_queue = front :: queue) :
      ch.Moves .take { ch with m_sensor_msg_queue := queue }
  | recycle (buffer : List UInt8)
      (hbuffer : buffer.length = HEADER_SIZE + MAX_SENSOR_PAYLOAD_SIZE) :
      ch.Moves (.recycle buffer) { ch with m_msg_mem_pool := ch.m_msg_mem_pool ++ [buffer] }

variable {hdr}

theorem Channel.moves_of_step {ch next : Channel Client} {event : ChannelEvent Client}
    (h : ch.step hdr event = some next) : ch.Moves hdr event next := by
  cases event with
  | readable client stack =>
      simp only [step] at h
      split at h
      · split at h <;> cases h
        exact .readable client stack ‹_› ‹_›
      · cases h
  | recv outcome =>
      simp only [step] at h
      split at h
      · cases h
      · split at h
        · split at h <;> cases h
          · exact .again _ _ _ _ outcome ‹_› ‹_› ‹_›
          · exact .leave _ _ _ _ outcome ‹_› ‹_› ‹_›
        · cases h
  | take =>
      simp only [step] at h
      split at h <;> cases h
      exact .take _ _ ‹_›
  | recycle buffer =>
      simp only [step] at h
      split at h <;> cases h
      exact .recycle buffer ‹_›

section Recv

variable {len : Nat} {t t' : Transfer} {outcome : RecvOutcome} {ended : Bool}

theorem RecvOutcome.again_cases (hopen : t.Open len)
    (hpossible : outcome.possible ended t.left_size)
    (hturn : SockServer.recv_data_block t outcome.result = .again t') :
    (∃ chunk, outcome = .data chunk ∧ ended = false ∧ chunk.length < t.left_size ∧
      t' = t.move chunk.length) ∨
    ∃ ret errno, outcome = .none ret errno ∧ block_retries errno ∧ t' = t := by
  cases outcome with
  | data chunk =>
      left
      simp only [possible, decide_eq_true_eq, Bool.not_eq_true] at hpossible
      obtain ⟨hended, _, hle⟩ := hpossible
      by_cases hlt : chunk.length < t.left_size
      · rw [SockServer.recv_data_block, result, Transfer.turn_moved_again hlt] at hturn
        exact ⟨chunk, rfl, hended, hlt, (Turn.again.inj hturn).symm⟩
      · rw [SockServer.recv_data_block, result, Transfer.turn_moved_leave (by omega)] at hturn
        cases hturn
  | none ret errno =>
      right
      cases hretry : block_retries errno with
      | true =>
          rw [SockServer.recv_data_block, result, Transfer.turn_retry ret hopen hretry] at hturn
          exact ⟨ret, errno, rfl, hretry, (Turn.again.inj hturn).symm⟩
      | false =>
          rw [SockServer.recv_data_block, result, Transfer.turn_stop t false ret hretry] at hturn
          cases hturn

theorem RecvOutcome.leave_cases (hopen : t.Open len)
    (hpossible : outcome.possible ended t.left_size)
    (hturn : SockServer.recv_data_block t outcome.result = .leave t') :
    (∃ chunk, outcome = .data chunk ∧ ended = false ∧ t.p_src + chunk.length = len ∧
      t'.total_size = len) ∨
    ∃ ret errno, outcome = .none ret errno ∧ block_retries errno = false ∧
      t'.total_size = t.p_src := by
  cases outcome with
  | data chunk =>
      left
      simp only [possible, decide_eq_true_eq, Bool.not_eq_true] at hpossible
      obtain ⟨hended, _, hle⟩ := hpossible
      obtain ⟨hleft, hsum, htotal⟩ := hopen
      by_cases hlt : chunk.length < t.left_size
      · rw [SockServer.recv_data_block, result, Transfer.turn_moved_again hlt] at hturn
        cases hturn
      · rw [SockServer.recv_data_block, result, Transfer.turn_moved_leave (by omega)] at hturn
        obtain rfl := (Turn.leave.inj hturn).symm
        refine ⟨chunk, rfl, hended, by omega, ?_⟩
        simp only [Transfer.move]
        omega
  | none ret errno =>
      right
      cases hretry : block_retries errno with
      | true =>
          rw [SockServer.recv_data_block, result, Transfer.turn_retry ret hopen hretry] at hturn
          cases hturn
      | false =>
          rw [SockServer.recv_data_block, result, Transfer.turn_stop t false ret hretry] at hturn
          obtain rfl := (Turn.leave.inj hturn).symm
          exact ⟨ret, errno, rfl, hretry, hopen.total⟩

end Recv

end SensorVhal
