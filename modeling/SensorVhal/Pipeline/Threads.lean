import SensorVhal.Lib.Fifo
import SensorVhal.Sensors.Slots
import SensorVhal.Stream.Callback

namespace SensorVhal

-- The address of a std::vector<char>.
abbrev Buffer := Nat

-- Where the listener thread stands in sensor_event_callback. It is `undefined`
-- once it has used a unique_ptr that it could not use.
inductive ListenerStage
  | idle
  | received (header : List UInt8)
  | creating (header : List UInt8)
  | popping (header : List UInt8)
  | filling (buf_ptr : Buffer) (payload_len : Nat)
  | pushing (buf_ptr : Buffer)
  | undefined

-- Where the poll thread stands while it does not hold m_mutex: outside of
-- sensor_device_poll, in usleep without a client, in front of the queue mutex,
-- in m_msg_queue_ready_cv.wait, or with a message that it has taken.
inductive PollStage
  | idle
  | asleep (count : Int) (buf_ptr : Option Buffer)
  | ready (count : Int) (buf_ptr : Option Buffer)
  | waiting (count : Int) (buf_ptr : Option Buffer) (notified : Bool)
  | taken (count : Int) (buf_ptr : Option Buffer)
  | undefined

-- What the callback put into the queue so far, what the poll found in the
-- buffers that it took, and the queue at each drop. The program does not read it.
structure PipelineHistory where
  enqueued : List (List UInt8)
  taken : List (List UInt8)
  dropped : List (List (List UInt8))

-- The device with its client, message buffers, and the two threads that hand
-- them to each other. A unique_ptr that owns nothing is none.
structure Pipeline where
  device : SensorDevice
  client_connected : Bool
  m_msg_mem_pool : List (Option Buffer)
  m_sensor_msg_queue : List (Option Buffer)
  contents : Buffer → List UInt8
  live : List Buffer
  listener : ListenerStage
  poll : PollStage
  history : PipelineHistory

-- Each event is one critical section, one operation on the pool, or a move of
-- the environment. The listener: `header` and `payload` are its two calls of
-- recv_data with what they received, `test` is m_msg_mem_pool.empty(). The poll
-- thread: `lock` is its section of m_msg_queue_mtx up to the wait, and `wait` the
-- rest of it, where the wait has returned after a notification or without one.
inductive PipelineEvent
  | flush (handle : Handle)
  | connection (connected : Bool)
  | header (len : Int) (bytes : List UInt8)
  | test
  | create (buffer : Buffer)
  | pop
  | payload (bytes : List UInt8)
  | push
  | poll (count : Int)
  | wake
  | lock
  | wait
  | process (host_timestamp : Int)

-- aic_sensors_event_t as it lies in a buffer.
def message_of (bytes : List UInt8) : AicSensorsEvent where
  type := header_type bytes
  data_num := (Bytes.toWord (bytes.drop 4)).toInt
  timestamp := (Bytes.toWord (bytes.drop 12) ++ Bytes.toWord (bytes.drop 8)).toInt
  fdata := fun i => Bytes.toWord (bytes.drop (HEADER_SIZE + 4 * i.val))

-- The queue at each turn of the loop that makes room in it.
def drops {β : Type} : List β → List (List β)
  | [] => []
  | front :: queue =>
    if MAX_MSG_QUEUE_SIZE ≤ (front :: queue).length then (front :: queue) :: drops queue else []

-- m_msg_queue_ready_cv.notify_all
def PollStage.notify : PollStage → PollStage
  | waiting count buf_ptr _ => waiting count buf_ptr true
  | stage => stage

namespace Pipeline

def init (memory : Handle → SensorsEvent) (log_trace_count : Int) : Pipeline where
  device := .init memory log_trace_count
  client_connected := false
  m_msg_mem_pool := (List.range MEM_POOL_SIZE).map some
  m_sensor_msg_queue := []
  contents := fun _ => new_buffer
  live := List.range MEM_POOL_SIZE
  listener := .idle
  poll := .idle
  history := ⟨[], [], []⟩

variable (x : Pipeline)

def bytes (buf_ptr : Option Buffer) : List UInt8 :=
  match buf_ptr with
  | none => []
  | some buffer => x.contents buffer

-- The destructor or the assignment of a unique_ptr frees what it owned.
def free (buf_ptr : Option Buffer) : Pipeline :=
  { x with
    live := match buf_ptr with
      | none => x.live
      | some buffer => x.live.erase buffer }

def write (buffer : Buffer) (offset : Nat) (chunk : List UInt8) : Pipeline :=
  { x with
    contents := Function.update x.contents buffer
      (Bytes.overwrite (x.contents buffer) offset chunk) }

-- buf_ptr = std::move(m_msg_mem_pool.front()), and the header into the buffer.
def pop (hdr : SensorsHeader) (header : List UInt8) : Pipeline :=
  match x.m_msg_mem_pool with
  | some buffer :: pool =>
    ({ x with
      m_msg_mem_pool := pool
      listener := .filling buffer (get_payload_len hdr (header_type header)) } : Pipeline).write
        buffer 0 header
  | _ => { x with listener := .undefined }

-- The last critical section of sensor_event_callback. Its loop drops one
-- message at most, so it does one operation on the pool.
def push (buffer : Buffer) : Pipeline :=
  let (queue, pool) := make_room x.m_sensor_msg_queue x.m_msg_mem_pool
  { x with
    m_msg_mem_pool := pool
    m_sensor_msg_queue := queue ++ [some buffer]
    listener := .idle
    poll := x.poll.notify
    history := { x.history with
      enqueued := x.history.enqueued ++ [x.contents buffer]
      dropped := x.history.dropped ++ drops (x.m_sensor_msg_queue.map x.bytes) } }

-- The head of the loop of sensor_device_poll_event_locked.
def poll_head (count : Int) (buf_ptr : Option Buffer) : Pipeline :=
  { x with poll := if x.client_connected then .ready count buf_ptr else .asleep count buf_ptr }

-- buf_ptr = std::move(m_sensor_msg_queue.front())
def take (count : Int) (buf_ptr : Option Buffer) : Pipeline :=
  match x.m_sensor_msg_queue with
  | [] => ({ x with poll := .undefined } : Pipeline).free buf_ptr
  | front :: queue =>
    ({ x with
      m_sensor_msg_queue := queue
      poll := .taken count front
      history := { x.history with taken := x.history.taken ++ [x.bytes front] } } :
        Pipeline).free buf_ptr

-- The end of sensor_device_poll. What it returns is modelled elsewhere.
def poll_return (hdr : SensorsHeader) (count : Int) (device : SensorDevice) : Pipeline :=
  { x with
    device := (sensor_device_poll_pick hdr count.toNat device 0).2.2
    poll := .idle }

-- sensor_device_poll_event_locked with m_mutex again and the buffer that it took.
def process (hdr : SensorsHeader) (count : Int) (buf_ptr : Option Buffer) (host_timestamp : Int) :
    Option Pipeline :=
  match buf_ptr with
  | none => some { x with poll := .undefined }
  | some buffer =>
    if x.contents buffer = [] then some (x.poll_head count buf_ptr)
    else
      match sensor_device_process_event hdr x.device (message_of (x.contents buffer))
          host_timestamp with
      | .again => some (x.poll_head count buf_ptr)
      | .trapped => none
      | .stored device =>
        some (({ x with m_msg_mem_pool := x.m_msg_mem_pool ++ [buf_ptr] } : Pipeline).poll_return
          hdr count device)

variable (hdr : SensorsHeader)

def step (x : Pipeline) : PipelineEvent → Option Pipeline
  | .flush handle => some { x with device := sensor_device_flush_locked hdr x.device handle }
  | .connection connected => some { x with client_connected := connected }
  | .header len bytes =>
    match x.listener with
    | .idle =>
      if bytes.length = HEADER_SIZE then
        if len ≤ 0 then some x
        else if get_payload_len hdr (header_type bytes) = 0 then some x
        else some { x with listener := .received bytes }
      else none
    | _ => none
  | .test =>
    match x.listener with
    | .received header =>
      if x.m_msg_mem_pool = [] then some { x with listener := .creating header }
      else some { x with listener := .popping header }
    | _ => none
  | .create buffer =>
    match x.listener with
    | .creating header =>
      -- new gives an address that is not in use
      if buffer ∉ x.live then
        some { x with
          m_msg_mem_pool := x.m_msg_mem_pool ++ [some buffer]
          contents := Function.update x.contents buffer new_buffer
          live := buffer :: x.live
          listener := .popping header }
      else none
    | _ => none
  | .pop =>
    match x.listener with
    | .popping header => some (x.pop hdr header)
    | _ => none
  | .payload bytes =>
    match x.listener with
    | .filling buffer payload_len =>
      if bytes.length ≤ payload_len then
        let y := x.write buffer HEADER_SIZE bytes
        if bytes.length = 0 then some (({ y with listener := .idle } : Pipeline).free (some buffer))
        else some { y with listener := .pushing buffer }
      else none
    | _ => none
  | .push =>
    match x.listener with
    | .pushing buffer => some (x.push buffer)
    | _ => none
  | .poll count =>
    match x.poll with
    | .idle =>
      if x.device.m_pending_sensors = 0 then some (x.poll_head count none)
      else some (x.poll_return hdr count x.device)
    | _ => none
  | .wake =>
    match x.poll with
    | .asleep count buf_ptr => some (x.poll_head count buf_ptr)
    | _ => none
  | .lock =>
    match x.poll with
    | .ready count buf_ptr =>
      if x.m_sensor_msg_queue = [] then some { x with poll := .waiting count buf_ptr false }
      else some (x.take count buf_ptr)
    | _ => none
  | .wait =>
    match x.poll with
    | .waiting count buf_ptr _ => some (x.take count buf_ptr)
    | _ => none
  | .process host_timestamp =>
    match x.poll with
    | .taken count buf_ptr => x.process hdr count buf_ptr host_timestamp
    | _ => none

-- The moves of the pipeline, one for each way in which an event is enabled.
inductive Moves (x : Pipeline) : PipelineEvent → Pipeline → Prop
  | flush (handle : Handle) : x.Moves (.flush handle)
      { x with device := sensor_device_flush_locked hdr x.device handle }
  | connection (connected : Bool) : x.Moves (.connection connected)
      { x with client_connected := connected }
  | header_dropped (len : Int) (bytes : List UInt8) : x.Moves (.header len bytes) x
  | header_received (len : Int) (bytes : List UInt8) (hpc : x.listener = .idle)
      (hlength : bytes.length = HEADER_SIZE)
      (hsupported : get_payload_len hdr (header_type bytes) ≠ 0) :
      x.Moves (.header len bytes) { x with listener := .received bytes }
  | test_empty (header : List UInt8) (hpc : x.listener = .received header)
      (hpool : x.m_msg_mem_pool = []) : x.Moves .test { x with listener := .creating header }
  | test_some (header : List UInt8) (hpc : x.listener = .received header)
      (hpool : x.m_msg_mem_pool ≠ []) : x.Moves .test { x with listener := .popping header }
  | create (header : List UInt8) (buffer : Buffer) (hpc : x.listener = .creating header)
      (hfresh : buffer ∉ x.live) : x.Moves (.create buffer)
      { x with
        m_msg_mem_pool := x.m_msg_mem_pool ++ [some buffer]
        contents := Function.update x.contents buffer new_buffer
        live := buffer :: x.live
        listener := .popping header }
  | pop (header : List UInt8) (hpc : x.listener = .popping header) :
      x.Moves .pop (x.pop hdr header)
  | payload_failed (buffer : Buffer) (payload_len : Nat) (bytes : List UInt8)
      (hpc : x.listener = .filling buffer payload_len) (hbytes : bytes.length ≤ payload_len) :
      x.Moves (.payload bytes) (({ x.write buffer HEADER_SIZE bytes with
        listener := .idle } : Pipeline).free (some buffer))
  | payload_received (buffer : Buffer) (payload_len : Nat) (bytes : List UInt8)
      (hpc : x.listener = .filling buffer payload_len) (hbytes : bytes.length ≤ payload_len) :
      x.Moves (.payload bytes)
        { x.write buffer HEADER_SIZE bytes with listener := .pushing buffer }
  | push (buffer : Buffer) (hpc : x.listener = .pushing buffer) : x.Moves .push (x.push buffer)
  | block (count : Int) (hpc : x.poll = .idle) (hnone : x.device.m_pending_sensors = 0) :
      x.Moves (.poll count) (x.poll_head count none)
  | report (count : Int) (hpc : x.poll = .idle) (hsome : x.device.m_pending_sensors ≠ 0) :
      x.Moves (.poll count) (x.poll_return hdr count x.device)
  | wake (count : Int) (buf_ptr : Option Buffer) (hpc : x.poll = .asleep count buf_ptr) :
      x.Moves .wake (x.poll_head count buf_ptr)
  | lock_wait (count : Int) (buf_ptr : Option Buffer) (hpc : x.poll = .ready count buf_ptr)
      (hqueue : x.m_sensor_msg_queue = []) :
      x.Moves .lock { x with poll := .waiting count buf_ptr false }
  | lock_take (count : Int) (buf_ptr : Option Buffer) (hpc : x.poll = .ready count buf_ptr)
      (hqueue : x.m_sensor_msg_queue ≠ []) : x.Moves .lock (x.take count buf_ptr)
  | wait_take (count : Int) (buf_ptr : Option Buffer) (notified : Bool)
      (hpc : x.poll = .waiting count buf_ptr notified) : x.Moves .wait (x.take count buf_ptr)
  | process (count : Int) (buf_ptr : Option Buffer) (host_timestamp : Int) (next : Pipeline)
      (hpc : x.poll = .taken count buf_ptr)
      (hprocess : x.process hdr count buf_ptr host_timestamp = some next) :
      x.Moves (.process host_timestamp) next

variable {hdr}

theorem moves_of_step {x next : Pipeline} {event : PipelineEvent}
    (h : x.step hdr event = some next) : x.Moves hdr event next := by
  cases event with
  | flush handle =>
      cases h
      exact .flush handle
  | connection connected =>
      cases h
      exact .connection connected
  | header len bytes =>
      simp only [step] at h
      split at h
      · rename_i hpc
        split at h
        · rename_i hlength
          split at h
          · cases h
            exact .header_dropped len bytes
          · split at h <;> cases h
            · exact .header_dropped len bytes
            · exact .header_received len bytes hpc hlength ‹_›
        · cases h
      · cases h
  | test =>
      simp only [step] at h
      split at h
      · split at h <;> cases h
        · exact .test_empty _ ‹_› ‹_›
        · exact .test_some _ ‹_› ‹_›
      · cases h
  | create buffer =>
      simp only [step] at h
      split at h
      · split at h <;> cases h
        exact .create _ buffer ‹_› ‹_›
      · cases h
  | pop =>
      simp only [step] at h
      split at h <;> cases h
      exact .pop _ ‹_›
  | payload bytes =>
      simp only [step] at h
      split at h
      · split at h
        · split at h <;> cases h
          · exact .payload_failed _ _ bytes ‹_› ‹_›
          · exact .payload_received _ _ bytes ‹_› ‹_›
        · cases h
      · cases h
  | push =>
      simp only [step] at h
      split at h <;> cases h
      exact .push _ ‹_›
  | poll count =>
      simp only [step] at h
      split at h
      · split at h <;> cases h
        · exact .block count ‹_› ‹_›
        · exact .report count ‹_› ‹_›
      · cases h
  | wake =>
      simp only [step] at h
      split at h <;> cases h
      exact .wake _ _ ‹_›
  | lock =>
      simp only [step] at h
      split at h
      · split at h <;> cases h
        · exact .lock_wait _ _ ‹_› ‹_›
        · exact .lock_take _ _ ‹_› ‹_›
      · cases h
  | wait =>
      simp only [step] at h
      split at h <;> cases h
      exact .wait_take _ _ _ ‹_›
  | process host =>
      simp only [step] at h
      split at h
      · exact .process _ _ host next ‹_› h
      · cases h

end Pipeline

end SensorVhal
