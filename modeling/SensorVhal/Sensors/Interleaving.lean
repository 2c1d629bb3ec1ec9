import SensorVhal.Lib.Run
import SensorVhal.Sensors.Slots

namespace SensorVhal

-- Where a poll call stands when it does not hold m_mutex.
inductive PollPc
  | idle
  | no_client (count : Int)
  | waiting (count : Int)
  | taken (count : Int) (message : AicSensorsEvent)

-- What has happened so far, and in `hand` the messages that polls took off the
-- queue and still have to look at. The program does not read it.
structure History (Tid : Type) where
  flushed : List Handle
  taken : List AicSensorsEvent
  hand : List (Tid × AicSensorsEvent)
  returned : List SensorsEvent

structure Hal (Tid : Type) where
  device : SensorDevice
  m_sensor_msg_queue : List AicSensorsEvent
  client_connected : Bool
  polls : Tid → PollPc
  history : History Tid

-- Each event is one critical section of m_mutex or of the queue mutex, or a
-- move of the environment.
inductive HalEvent (Tid : Type)
  | flush (handle : Handle)
  | arrive (message : AicSensorsEvent)
  | connection (connected : Bool)
  | poll (thread : Tid) (count : Int)
  | wake (thread : Tid)
  | take (thread : Tid)
  | process (thread : Tid) (host_timestamp : Int)

variable {Tid : Type} [DecidableEq Tid]

def Hal.init (memory : Handle → SensorsEvent) (log_trace_count : Int) : Hal Tid where
  device := .init memory log_trace_count
  m_sensor_msg_queue := []
  client_connected := false
  polls := fun _ => .idle
  history := ⟨[], [], [], []⟩

def enqueue (queue : List AicSensorsEvent) (message : AicSensorsEvent) : List AicSensorsEvent :=
  (make_room queue []).1 ++ [message]

-- The head of the loop of sensor_device_poll_event_locked.
def Hal.poll_head (hal : Hal Tid) (thread : Tid) (count : Int) : Hal Tid :=
  { hal with
    polls := Function.update hal.polls thread
      (if hal.client_connected then .waiting count else .no_client count) }

-- A poll has m_mutex again and looks at the message that it took.
def Hal.lay_down (hal : Hal Tid) (thread : Tid) : Hal Tid :=
  { hal with
    history := { hal.history with
      hand := hal.history.hand.eraseP fun entry => entry.1 = thread } }

variable (hdr : SensorsHeader)

-- The end of sensor_device_poll, once something is pending.
def Hal.poll_return (hal : Hal Tid) (thread : Tid) (count : Int) (device : SensorDevice) :
    Hal Tid :=
  let (events, _, device) := sensor_device_poll_pick hdr count.toNat device 0
  { hal with
    device := device
    polls := Function.update hal.polls thread .idle
    history := { hal.history with returned := hal.history.returned ++ events } }

-- A poll that comes out of its wait at an empty queue, after a spurious wake-up or behind
-- another poll that the same notify_all has woken and that took the message, uses the front
-- of that queue: undefined behaviour, at which the run ends.
def Hal.step (hal : Hal Tid) : HalEvent Tid → Option (Hal Tid)
  | .flush handle =>
    (sensor_device_flush hdr hal.device handle.val).map fun device =>
      { hal with
        device := device
        history := { hal.history with flushed := hal.history.flushed ++ [handle] } }
  | .arrive message =>
    some { hal with m_sensor_msg_queue := enqueue hal.m_sensor_msg_queue message }
  | .connection connected => some { hal with client_connected := connected }
  | .poll thread count =>
    match hal.polls thread with
    | .idle =>
      if hal.device.m_pending_sensors = 0 then some (hal.poll_head thread count)
      else some (hal.poll_return hdr thread count hal.device)
    | _ => none
  | .wake thread =>
    match hal.polls thread with
    | .no_client count => some (hal.poll_head thread count)
    | _ => none
  | .take thread =>
    match hal.polls thread, hal.m_sensor_msg_queue with
    | .waiting count, message :: queue =>
      some { hal with
        m_sensor_msg_queue := queue
        polls := Function.update hal.polls thread (.taken count message)
        history := { hal.history with
          taken := hal.history.taken ++ [message]
          hand := hal.history.hand ++ [(thread, message)] } }
    | _, _ => none
  | .process thread host_timestamp =>
    match hal.polls thread with
    | .taken count message =>
      match sensor_device_process_event hdr hal.device message host_timestamp with
      | .again => some ((hal.lay_down thread).poll_head thread count)
      | .trapped => none
      | .stored device => some ((hal.lay_down thread).poll_return hdr thread count device)
    | _ => none

-- The moves of the machine, one for each way in which an event is enabled.
inductive Hal.Moves (hal : Hal Tid) : HalEvent Tid → Hal Tid → Prop
  | flush (handle : Handle) : hal.Moves (.flush handle)
      { hal with
        device := sensor_device_flush_locked hdr hal.device handle
        history := { hal.history with flushed := hal.history.flushed ++ [handle] } }
  | arrive (message : AicSensorsEvent) : hal.Moves (.arrive message)
      { hal with m_sensor_msg_queue := enqueue hal.m_sensor_msg_queue message }
  | connection (connected : Bool) : hal.Moves (.connection connected)
      { hal with client_connected := connected }
  | block (thread : Tid) (count : Int) (hpc : hal.polls thread = .idle)
      (hnone : hal.device.m_pending_sensors = 0) :
      hal.Moves (.poll thread count) (hal.poll_head thread count)
  | report (thread : Tid) (count : Int) (hpc : hal.polls thread = .idle)
      (hsome : hal.device.m_pending_sensors ≠ 0) :
      hal.Moves (.poll thread count) (hal.poll_return hdr thread count hal.device)
  | wake (thread : Tid) (count : Int) (hpc : hal.polls thread = .no_client count) :
      hal.Moves (.wake thread) (hal.poll_head thread count)
  | take (thread : Tid) (count : Int) (message : AicSensorsEvent) (queue : List AicSensorsEvent)
      (hpc : hal.polls thread = .waiting count)
      (hqueue : hal.m_sensor_msg_queue = message :: queue) : hal.Moves (.take thread)
      { hal with
        m_sensor_msg_queue := queue
        polls := Function.update hal.polls thread (.taken count message)
        history := { hal.history with
          taken := hal.history.taken ++ [message]
          hand := hal.history.hand ++ [(thread, message)] } }
  | again (thread : Tid) (host count : Int) (message : AicSensorsEvent)
      (hpc : hal.polls thread = .taken count message)
      (hprocess : sensor_device_process_event hdr hal.device message host = .again) :
      hal.Moves (.process thread host) ((hal.lay_down thread).poll_head thread count)
  | store (thread : Tid) (host count : Int) (message : AicSensorsEvent) (device : SensorDevice)
      (hpc : hal.polls thread = .taken count message)
      (hprocess : sensor_device_process_event hdr hal.device message host = .stored device) :
      hal.Moves (.process thread host) ((hal.lay_down thread).poll_return hdr thread count device)

variable {hdr}

theorem Hal.moves_of_step {hal next : Hal Tid} {event : HalEvent Tid}
    (h : hal.step hdr event = some next) : hal.Moves hdr event next := by
  cases event with
  | flush handle =>
      obtain ⟨_, hflush, rfl⟩ := Option.map_eq_some_iff.mp h
      rw [sensor_device_flush_handle] at hflush
      cases hflush
      exact .flush handle
  | arrive message =>
      cases h
      exact .arrive message
  | connection connected =>
      cases h
      exact .connection connected
  | poll thread count =>
      simp only [step] at h
      split at h
      · rename_i hpc
        split at h <;> cases h
        · exact .block thread count hpc ‹_›
        · exact .report thread count hpc ‹_›
      · cases h
  | wake thread =>
      simp only [step] at h
      split at h <;> cases h
      exact .wake thread _ ‹_›
  | take thread =>
      simp only [step] at h
      split at h <;> cases h
      exact .take thread _ _ _ ‹_› ‹_›
  | process thread host =>
      simp only [step] at h
      split at h
      · split at h <;> cases h
        · exact .again thread host _ _ ‹_› ‹_›
        · exact .store thread host _ _ _ ‹_› ‹_›
      · cases h

-- A poll that returns hands over the events it picked and leaves the rest.
theorem Hal.poll_return_spec (hdr : SensorsHeader) (hal : Hal Tid) (thread : Tid) (count : Int)
    (device : SensorDevice) :
    ∃ events ret, sensor_device_poll_pick hdr count.toNat device 0 =
        (events, ret, (hal.poll_return hdr thread count device).device) ∧
      (hal.poll_return hdr thread count device).polls =
        Function.update hal.polls thread .idle ∧
      (hal.poll_return hdr thread count device).history.flushed = hal.history.flushed ∧
      (hal.poll_return hdr thread count device).history.taken = hal.history.taken ∧
      (hal.poll_return hdr thread count device).history.hand = hal.history.hand ∧
      (hal.poll_return hdr thread count device).history.returned =
        hal.history.returned ++ events :=
  ⟨_, _, rfl, rfl, rfl, rfl, rfl, rfl⟩

end SensorVhal
