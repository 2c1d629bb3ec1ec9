import SensorVhal.Lib.Framing
import SensorVhal.Stream.Callback

namespace SensorVhal

variable (hdr : SensorsHeader)

-- How a client's stream is to be read: a header, and behind it the payload of
-- the type that the header names.
def event_format : Framing.Format UInt8 where
  headLen := HEADER_SIZE
  headLen_pos := by decide
  bodyLen header := get_payload_len hdr (header_type header)

-- The message in a buffer: its header and the payload that its type has.
def Pushed.frame {Client : Type} (message : Pushed Client) : Framing.Frame UInt8 where
  start := message.start
  head := message.buffer.take HEADER_SIZE
  body := (message.buffer.drop HEADER_SIZE).take
    (get_payload_len hdr (header_type (message.buffer.take HEADER_SIZE)))

namespace Destination

def memory : Destination → List UInt8
  | sensor_events_header bytes => bytes
  | sensor_events_ptr buffer => buffer

def size : Destination → Nat
  | sensor_events_header _ => HEADER_SIZE
  | sensor_events_ptr _ => HEADER_SIZE + MAX_SENSOR_PAYLOAD_SIZE

-- Where in its memory recv_data writes.
def offset : Destination → Nat
  | sensor_events_header _ => 0
  | sensor_events_ptr _ => HEADER_SIZE

-- The number of bytes that recv_data is asked for.
def len : Destination → Nat
  | sensor_events_header _ => HEADER_SIZE
  | sensor_events_ptr buffer => get_payload_len hdr (header_type buffer)

variable {hdr}

theorem memory_fill (dest : Destination) (p_src : Nat) (chunk : List UInt8) :
    (dest.fill p_src chunk).memory = Bytes.overwrite dest.memory (dest.offset + p_src) chunk := by
  cases dest with
  | sensor_events_header bytes => rw [offset, Nat.zero_add]; rfl
  | sensor_events_ptr buffer => rfl

@[simp] theorem offset_fill (dest : Destination) (p_src : Nat) (chunk : List UInt8) :
    (dest.fill p_src chunk).offset = dest.offset := by
  cases dest <;> rfl

@[simp] theorem size_fill (dest : Destination) (p_src : Nat) (chunk : List UInt8) :
    (dest.fill p_src chunk).size = dest.size := by
  cases dest <;> rfl

end Destination

variable {hdr}

theorem header_type_take (bytes : List UInt8) :
    header_type (bytes.take HEADER_SIZE) = header_type bytes := by
  rw [header_type, Bytes.toWord_take (by decide)]
  rfl

theorem get_payload_len_le (hdr : SensorsHeader) (sensor_type : Int) :
    get_payload_len hdr sensor_type ≤ MAX_SENSOR_PAYLOAD_SIZE := by
  unfold get_payload_len
  split <;> decide

theorem Destination.offset_add_len_le (hdr : SensorsHeader) (dest : Destination) :
    dest.offset + dest.len hdr ≤ dest.size := by
  cases dest with
  | sensor_events_header bytes => exact Nat.le_of_eq (Nat.zero_add _)
  | sensor_events_ptr buffer => exact Nat.add_le_add_left (get_payload_len_le hdr _) _

-- Writing the payload leaves the header, so the length asked for stays.
theorem Destination.len_fill {dest : Destination} (p_src : Nat) (chunk : List UInt8)
    (hsize : dest.memory.length = dest.size) (hp : p_src ≤ dest.len hdr) :
    (dest.fill p_src chunk).len hdr = dest.len hdr := by
  cases dest with
  | sensor_events_header bytes => rfl
  | sensor_events_ptr buffer =>
      have hle := get_payload_len_le hdr (header_type buffer)
      have hbound : HEADER_SIZE + p_src ≤ buffer.length := by
        rw [show buffer.length = HEADER_SIZE + MAX_SENSOR_PAYLOAD_SIZE from hsize]
        exact Nat.add_le_add_left (Nat.le_trans hp hle) _
      have hhead := Bytes.take_overwrite_of_le chunk (Nat.le_add_right HEADER_SIZE p_src) hbound
      rw [fill, len, len, ← header_type_take, hhead, header_type_take]

variable {Client : Type}

-- A recv_data call of the callback, with `received` from the client so far. What
-- it has filled is what the client sent since the callback began, unless
-- the stream ended within the header: then no payload byte comes in.
structure Reading (hdr : SensorsHeader) (start : Nat) (received : List UInt8) (ended : Bool)
    (dest : Destination) (t : Transfer) : Prop where
  size : dest.memory.length = dest.size
  loop : t.Open (dest.len hdr)
  bytes : (start ≤ received.length ∧
      dest.memory.take (dest.offset + t.p_src) = received.drop start) ∨
    (ended = true ∧ t.p_src = 0 ∧ dest.offset = HEADER_SIZE)

@[simp] theorem Destination.fill_nil (dest : Destination) (p_src : Nat) :
    dest.fill p_src [] = dest := by
  cases dest <;> simp [fill]

namespace Reading

variable {start : Nat} {received : List UInt8} {ended : Bool} {dest : Destination} {t : Transfer}

theorem length_received (h : Reading hdr start received ended dest t)
    (hstart : start ≤ received.length)
    (hbytes : dest.memory.take (dest.offset + t.p_src) = received.drop start) :
    received.length = start + dest.offset + t.p_src := by
  have hlength := congrArg List.length hbytes
  have hsum := h.loop.sum
  have hle := dest.offset_add_len_le hdr
  rw [List.length_take, List.length_drop, h.size] at hlength
  omega

-- What a chunk from recv makes of the memory.
theorem fill (h : Reading hdr start received ended dest t) (chunk : List UInt8)
    (hchunk : t.p_src + chunk.length ≤ dest.len hdr) (hended : chunk = [] ∨ ended = false) :
    (dest.fill t.p_src chunk).memory.length = dest.size ∧
    (dest.fill t.p_src chunk).len hdr = dest.len hdr ∧
    ((start ≤ (received ++ chunk).length ∧
        (dest.fill t.p_src chunk).memory.take (dest.offset + (t.p_src + chunk.length)) =
          (received ++ chunk).drop start) ∨
      (ended = true ∧ t.p_src + chunk.length = 0 ∧ dest.offset = HEADER_SIZE)) := by
  have hle := dest.offset_add_len_le hdr
  have hsize := h.size
  refine ⟨?_, Destination.len_fill _ _ h.size (by omega), ?_⟩
  · rw [Destination.memory_fill, Bytes.length_overwrite (by omega), hsize]
  · rcases h.bytes with ⟨hstart, hbytes⟩ | ⟨hend, hzero, hoffset⟩
    · left
      rw [List.length_append, Destination.memory_fill, ← Nat.add_assoc,
        Bytes.take_overwrite chunk (by omega), hbytes, List.drop_append_of_le_length hstart]
      exact ⟨by omega, rfl⟩
    · right
      rcases hended with rfl | hfalse
      · exact ⟨hend, by simpa using hzero, hoffset⟩
      · rw [hend] at hfalse
        cases hfalse

theorem again {outcome : RecvOutcome} {t' : Transfer}
    (h : Reading hdr start received ended dest t)
    (hpossible : outcome.possible ended t.left_size)
    (hturn : SockServer.recv_data_block t outcome.result = .again t') :
    Reading hdr start (received ++ outcome.chunk) (ended || outcome.ends)
      (dest.fill t.p_src outcome.chunk) t' := by
  have hsum := h.loop.sum
  rcases RecvOutcome.again_cases h.loop hpossible hturn with
    ⟨chunk, rfl, rfl, hlt, rfl⟩ | ⟨ret, errno, rfl, _, rfl⟩
  · obtain ⟨hsize, hlen, hbytes⟩ := h.fill chunk (by omega) (.inr rfl)
    refine ⟨by simpa using hsize, ?_, ?_⟩
    · rw [RecvOutcome.chunk_data, hlen]
      exact Transfer.open_move h.loop hlt
    · rw [Destination.offset_fill]
      exact hbytes
  · simp only [RecvOutcome.chunk_none, Destination.fill_nil, List.append_nil]
    refine ⟨h.size, h.loop, ?_⟩
    rcases h.bytes with hbytes | ⟨hend, hzero⟩
    · exact .inl hbytes
    · exact .inr ⟨by rw [hend]; rfl, hzero⟩

-- A recv_data call returns when it has all its bytes, or at the end of the
-- stream, with what it has by then.
theorem leave {outcome : RecvOutcome} {t' : Transfer}
    (h : Reading hdr start received ended dest t)
    (hpossible : outcome.possible ended t.left_size)
    (hturn : SockServer.recv_data_block t outcome.result = .leave t') :
    (dest.fill t.p_src outcome.chunk).memory.length = dest.size ∧
    (((∃ chunk, outcome = .data chunk) ∧ t'.total_size = dest.len hdr ∧
        (dest.fill t.p_src outcome.chunk).len hdr = dest.len hdr ∧
        start ≤ (received ++ outcome.chunk).length ∧
        (dest.fill t.p_src outcome.chunk).memory.take (dest.offset + dest.len hdr) =
          (received ++ outcome.chunk).drop start) ∨
      (outcome.chunk = [] ∧ t'.total_size = t.p_src ∧ (ended || outcome.ends) = true ∧
        ∃ ret errno, outcome = .none ret errno ∧ block_retries errno = false)) := by
  have hsum := h.loop.sum
  have hleft := h.loop.left
  rcases RecvOutcome.leave_cases h.loop hpossible hturn with
    ⟨chunk, rfl, rfl, hfull, htotal⟩ | ⟨ret, errno, rfl, hretry, htotal⟩
  · obtain ⟨hsize, hlen, hbytes⟩ := h.fill chunk (by omega) (.inr rfl)
    refine ⟨hsize, .inl ⟨⟨chunk, rfl⟩, htotal, hlen, ?_⟩⟩
    rcases hbytes with hbytes | ⟨hend, _⟩
    · rwa [hfull] at hbytes
    · cases hend
  · rw [RecvOutcome.chunk_none, Destination.fill_nil]
    refine ⟨h.size, .inr ⟨rfl, htotal, ?_, ret, errno, rfl, hretry⟩⟩
    simp [RecvOutcome.ends, hretry]

end Reading

section Sound

theorem mem_make_room {β : Type} {queue pool : List β} {entry : β}
    (h : entry ∈ (make_room queue pool).1 ∨ entry ∈ (make_room queue pool).2) :
    entry ∈ queue ∨ entry ∈ pool := by
  induction queue generalizing pool with
  | nil => exact h
  | cons front queue ih =>
      unfold make_room at h
      split at h
      · rcases ih h with hqueue | hpool
        · exact .inl (List.mem_cons_of_mem _ hqueue)
        · rcases List.mem_append.mp hpool with hpool | hfront
          · exact .inr hpool
          · exact .inl (List.mem_singleton.mp hfront ▸ List.mem_cons_self)
      · exact h

def BUFFER_SIZE : Nat := HEADER_SIZE + MAX_SENSOR_PAYLOAD_SIZE

-- What holds of the channel at any time, whatever the sockets do.
structure Channel.Sound (hdr : SensorsHeader) (ch : Channel Client) : Prop where
  reading : ∀ client dest t, ch.pc = .recv_data client dest t →
    Reading hdr ch.history.start (ch.history.received client) (ch.history.ended client) dest t
  pool : ∀ buffer ∈ ch.m_msg_mem_pool, buffer.length = BUFFER_SIZE
  queue : ∀ buffer ∈ ch.m_sensor_msg_queue, buffer.length = BUFFER_SIZE

-- What the callback does behind its first recv_data.
theorem Channel.header_received_cases (ch : Channel Client) (client : Client)
    (header : List UInt8) (len : Nat) :
    ((len = 0 ∨ get_payload_len hdr (header_type header) = 0) ∧
      ch.header_received hdr client header len = { ch with pc := .idle }) ∨
    (0 < len ∧ 0 < get_payload_len hdr (header_type header) ∧
      ∃ buf pool, (buf = new_buffer ∨ buf ∈ ch.m_msg_mem_pool) ∧
        (∀ buffer ∈ pool, buffer ∈ ch.m_msg_mem_pool) ∧
        ch.header_received hdr client header len =
          { ch with
            m_msg_mem_pool := pool
            pc := .recv_data client (.sensor_events_ptr (Bytes.overwrite buf 0 header))
              (.init (get_payload_len hdr (header_type header)) 5) }) := by
  by_cases hlen : len = 0
  · exact .inl ⟨.inl hlen, if_pos hlen⟩
  · by_cases hpayload : get_payload_len hdr (header_type header) = 0
    · left
      refine ⟨.inr hpayload, ?_⟩
      rw [header_received, if_neg hlen]
      exact if_pos hpayload
    · right
      refine ⟨by omega, by omega, ?_⟩
      cases hpool : ch.m_msg_mem_pool with
      | nil =>
          refine ⟨new_buffer, [], .inl rfl, by simp, ?_⟩
          simp only [header_received, hlen, hpayload, hpool, if_false]
      | cons buf pool =>
          refine ⟨buf, pool, .inr List.mem_cons_self,
            fun _ hmem => List.mem_cons_of_mem _ hmem, ?_⟩
          simp only [header_received, hlen, hpayload, hpool, if_false]

-- The payload is read behind the header, which is now in the buffer.
theorem Reading.payload {buf header received : List UInt8} {start : Nat} {ended : Bool}
    (hbuf : buf.length = BUFFER_SIZE) (hheader : header.length = HEADER_SIZE)
    (hpos : 0 < get_payload_len hdr (header_type header))
    (hbytes : (start ≤ received.length ∧ header = received.drop start) ∨ ended = true) :
    Reading hdr start received ended (.sensor_events_ptr (Bytes.overwrite buf 0 header))
      (.init (get_payload_len hdr (header_type header)) 5) := by
  have hle : 0 + header.length ≤ buf.length := by
    rw [hbuf, hheader]
    decide
  have hhead : (Bytes.overwrite buf 0 header).take HEADER_SIZE = header := by
    have htake := Bytes.take_overwrite header (Nat.zero_le buf.length)
    rwa [hheader, Nat.zero_add] at htake
  have hlen : (Destination.sensor_events_ptr (Bytes.overwrite buf 0 header)).len hdr =
      get_payload_len hdr (header_type header) := by
    rw [Destination.len, ← header_type_take, hhead]
  constructor
  · exact (Bytes.length_overwrite hle).trans hbuf
  · rw [hlen]
    exact Transfer.open_init 5 hpos
  · rcases hbytes with ⟨hstart, hreceived⟩ | hended
    · exact .inl ⟨hstart, hhead.trans hreceived⟩
    · exact .inr ⟨hended, rfl, rfl⟩

variable [DecidableEq Client]

-- What a recv call adds to the history.
theorem Channel.logged_fields {ch logged : Channel Client} {client : Client}
    {outcome : RecvOutcome} (h : logged = { ch with history := ch.history.log client outcome }) :
    logged.history.start = ch.history.start ∧
      logged.history.ended client = (ch.history.ended client || outcome.ends) ∧
      logged.history.received client = ch.history.received client ++ outcome.chunk := by
  subst h
  exact ⟨rfl, ChannelHistory.log_ended _ _ _, ChannelHistory.log_received _ _ _⟩

-- How the first recv_data of a callback ends. `logged` is the channel with the
-- last recv call in its history.
theorem Channel.header_leave {ch logged : Channel Client} {client : Client} {bytes : List UInt8}
    {t t' : Transfer} {outcome : RecvOutcome} (h : ch.Sound hdr)
    (hpc : ch.pc = .recv_data client (.sensor_events_header bytes) t)
    (hpossible : outcome.possible (ch.history.ended client) t.left_size)
    (hturn : SockServer.recv_data_block t outcome.result = .leave t')
    (hlogged : logged = { ch with history := ch.history.log client outcome }) :
    (logged.header_received hdr client (Bytes.overwrite bytes t.p_src outcome.chunk)
        t'.total_size = { logged with pc := .idle } ∧
      (logged.history.ended client = true ∨
        (logged.history.start ≤ (logged.history.received client).length ∧
          ((logged.history.received client).drop logged.history.start).length = HEADER_SIZE ∧
          (event_format hdr).bodyLen
            ((logged.history.received client).drop logged.history.start) = 0))) ∨
    ∃ pool dest t'', (∀ buffer ∈ pool, buffer ∈ logged.m_msg_mem_pool) ∧
      logged.header_received hdr client (Bytes.overwrite bytes t.p_src outcome.chunk)
        t'.total_size = { logged with m_msg_mem_pool := pool, pc := .recv_data client dest t'' } ∧
      Reading hdr logged.history.start (logged.history.received client)
        (logged.history.ended client) dest t'' := by
  obtain ⟨hsize, hcases⟩ := (h.reading client _ t hpc).leave hpossible hturn
  have hlength : (Bytes.overwrite bytes t.p_src outcome.chunk).length = HEADER_SIZE := hsize
  have hpool : logged.m_msg_mem_pool = ch.m_msg_mem_pool := by rw [hlogged]
  obtain ⟨hstart, hended, hreceived⟩ := Channel.logged_fields hlogged
  -- either the whole header is there or the stream has ended
  have hheader : logged.history.ended client = true ∨
      (logged.history.start ≤ (logged.history.received client).length ∧
        Bytes.overwrite bytes t.p_src outcome.chunk =
          (logged.history.received client).drop logged.history.start ∧
        t'.total_size = HEADER_SIZE) := by
    rcases hcases with ⟨_, htotal, _, hle, hbytes⟩ | ⟨_, _, hend, _⟩
    · right
      rw [hreceived, hstart]
      refine ⟨hle, ?_, htotal⟩
      rw [← hbytes]
      refine (List.take_of_length_le ?_).symm
      exact Nat.le_of_eq (hlength.trans (Nat.zero_add _).symm)
    · left
      rw [hended]
      exact hend
  rcases Channel.header_received_cases logged client
    (Bytes.overwrite bytes t.p_src outcome.chunk) t'.total_size with
    ⟨hnone, hnext⟩ | ⟨_, hpos, buf, pool, hbuf, hsub, hnext⟩
  · left
    refine ⟨hnext, ?_⟩
    rcases hheader with hend | ⟨hle, hbytes, htotal⟩
    · exact .inl hend
    · right
      rw [← hbytes]
      refine ⟨hle, hlength, ?_⟩
      rcases hnone with hzero | hbody
      · rw [htotal] at hzero
        cases hzero
      · exact hbody
  · right
    refine ⟨pool, _, _, hsub, hnext, Reading.payload ?_ hlength hpos ?_⟩
    · rcases hbuf with rfl | hmem
      · exact List.length_replicate
      · rw [hpool] at hmem
        exact h.pool buf hmem
    · rcases hheader with hend | ⟨hle, hbytes, _⟩
      · exact .inr hend
      · exact .inl ⟨hle, hbytes⟩

-- How the second recv_data of a callback ends.
theorem Channel.payload_leave {ch logged : Channel Client} {client : Client} {buffer : List UInt8}
    {t t' : Transfer} {outcome : RecvOutcome} (h : ch.Sound hdr)
    (hpc : ch.pc = .recv_data client (.sensor_events_ptr buffer) t)
    (hpossible : outcome.possible (ch.history.ended client) t.left_size)
    (hturn : SockServer.recv_data_block t outcome.result = .leave t')
    (hlogged : logged = { ch with history := ch.history.log client outcome }) :
    (logged.payload_received client (Bytes.overwrite buffer (HEADER_SIZE + t.p_src) outcome.chunk)
        t'.total_size = { logged with pc := .idle } ∧ logged.history.ended client = true ∧
      t.p_src = 0) ∨
    ∃ buf queue pool, buf.length = BUFFER_SIZE ∧
      (∀ entry, entry ∈ queue ∨ entry ∈ pool →
        entry ∈ logged.m_sensor_msg_queue ∨ entry ∈ logged.m_msg_mem_pool) ∧
      logged.payload_received client (Bytes.overwrite buffer (HEADER_SIZE + t.p_src) outcome.chunk)
        t'.total_size =
          { pc := .idle
            m_msg_mem_pool := pool
            m_sensor_msg_queue := queue ++ [buf]
            history := { logged.history with
              pushed := logged.history.pushed ++ [⟨client, logged.history.start, buf⟩] } } ∧
      0 < get_payload_len hdr (header_type buf) ∧
      (((∃ chunk, outcome = .data chunk) ∧
          logged.history.start ≤ (logged.history.received client).length ∧
          buf.take (HEADER_SIZE + get_payload_len hdr (header_type buf)) =
            (logged.history.received client).drop logged.history.start) ∨
        (logged.history.ended client = true ∧ 0 < t.p_src ∧
          (logged.history.received client).length <
            logged.history.start + HEADER_SIZE + get_payload_len hdr (header_type buf) ∧
          ∃ ret errno, outcome = .none ret errno ∧ block_retries errno = false)) := by
  have hreading := h.reading client _ t hpc
  obtain ⟨hsize, hcases⟩ := hreading.leave hpossible hturn
  obtain ⟨hstart, hended, hreceived⟩ := Channel.logged_fields hlogged
  have hsum := hreading.loop.sum
  have hleft := hreading.loop.left
  by_cases hzero : t'.total_size = 0
  · left
    refine ⟨if_pos hzero, ?_⟩
    rcases hcases with ⟨_, htotal, _⟩ | ⟨_, htotal, hend, _⟩
    · omega
    · rw [hended]
      exact ⟨hend, by omega⟩
  · right
    refine ⟨Bytes.overwrite buffer (HEADER_SIZE + t.p_src) outcome.chunk, _, _, hsize,
      fun entry => mem_make_room, if_neg hzero, ?_⟩
    rcases hcases with ⟨hdata, _, hlen, hle, hbytes⟩ | ⟨hchunk, htotal, hend, hnone⟩
    · have hlen' : get_payload_len hdr
          (header_type (Bytes.overwrite buffer (HEADER_SIZE + t.p_src) outcome.chunk)) =
          (Destination.sensor_events_ptr buffer).len hdr := hlen
      rw [hreceived, hstart, hended, hlen']
      exact ⟨by omega, .inl ⟨hdata, hle, hbytes⟩⟩
    · rw [hreceived, hstart, hended, hchunk, Bytes.overwrite_nil, List.append_nil]
      have hlen : get_payload_len hdr (header_type buffer) =
          (Destination.sensor_events_ptr buffer).len hdr := rfl
      refine ⟨by omega, .inr ⟨hend, by omega, ?_, hnone⟩⟩
      rcases hreading.bytes with ⟨hle, hbytes⟩ | ⟨_, hp, _⟩
      · have hlength := hreading.length_received hle hbytes
        have hoffset : (Destination.sensor_events_ptr buffer).offset = HEADER_SIZE := rfl
        omega
      · omega

omit [DecidableEq Client] in
theorem Channel.sound_init : (Channel.init : Channel Client).Sound hdr := by
  constructor
  · intro client dest t hpc
    cases hpc
  · intro buffer hmem
    obtain rfl := List.eq_of_mem_replicate hmem
    exact List.length_replicate
  · intro buffer hmem
    cases hmem

theorem Channel.sound_step {ch next : Channel Client} {event : ChannelEvent Client}
    (h : ch.Sound hdr) (hstep : ch.step hdr event = some next) : next.Sound hdr := by
  cases Channel.moves_of_step hstep with
  | readable client stack hpc hstack =>
      refine ⟨fun client' dest t hpc' => ?_, h.pool, h.queue⟩
      cases hpc'
      exact ⟨hstack, Transfer.open_init 5 (Nat.zero_lt_succ 15),
        .inl ⟨Nat.le_refl _, List.drop_length.symm⟩⟩
  | again client dest t t' outcome hpc hpossible hturn =>
      refine ⟨fun client' dest' t'' hpc' => ?_, h.pool, h.queue⟩
      cases hpc'
      dsimp only
      rw [ChannelHistory.log_received, ChannelHistory.log_ended]
      exact (h.reading client dest t hpc).again hpossible hturn
  | leave client dest t t' outcome hpc hpossible hturn =>
      cases dest with
      | sensor_events_header bytes =>
          rcases Channel.header_leave h hpc hpossible hturn rfl with ⟨hnext, _⟩ |
            ⟨pool, dest, t'', hpool, hnext, hreading⟩
          · rw [Destination.fill, recv_data_returned, hnext]
            exact ⟨fun _ _ _ hpc' => (by cases hpc'), h.pool, h.queue⟩
          · rw [Destination.fill, recv_data_returned, hnext]
            refine ⟨fun client' dest' t₃ hpc' => ?_, fun buffer hmem => ?_, h.queue⟩
            · cases hpc'
              exact hreading
            · exact h.pool buffer (hpool buffer hmem)
      | sensor_events_ptr buffer =>
          rcases Channel.payload_leave h hpc hpossible hturn rfl with ⟨hnext, _, _⟩ |
            ⟨buf, queue, pool, hbuf, hroom, hnext, _⟩
          · rw [Destination.fill, recv_data_returned, hnext]
            exact ⟨fun _ _ _ hpc' => (by cases hpc'), h.pool, h.queue⟩
          · have hkept : ∀ entry, entry ∈ queue ∨ entry ∈ pool → entry.length = BUFFER_SIZE := by
              intro entry hmem
              rcases hroom entry hmem with hqueue | hpool
              · exact h.queue entry hqueue
              · exact h.pool entry hpool
            rw [Destination.fill, recv_data_returned, hnext]
            refine ⟨fun _ _ _ hpc' => (by cases hpc'), fun entry hmem => hkept entry (.inr hmem),
              fun entry hmem => ?_⟩
            rcases List.mem_append.mp hmem with hqueue | hnew
            · exact hkept entry (.inl hqueue)
            · rw [List.mem_singleton.mp hnew]
              exact hbuf
  | take front queue hqueue =>
      refine ⟨h.reading, h.pool, fun buffer hmem => h.queue buffer ?_⟩
      rw [hqueue]
      exact List.mem_cons_of_mem _ hmem
  | recycle buffer hbuffer =>
      refine ⟨h.reading, fun buffer' hmem => ?_, h.queue⟩
      rcases List.mem_append.mp hmem with hpool | hnew
      · exact h.pool buffer' hpool
      · rw [List.mem_singleton.mp hnew]
        exact hbuffer

end Sound

end SensorVhal
