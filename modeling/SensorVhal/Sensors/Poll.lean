import SensorVhal.Lib.Mask
import SensorVhal.Sensors.Device

namespace SensorVhal

def bit (handle : Handle) : BitVec 32 := 1#32 <<< handle.val

def SUPPORTED_SENSORS : BitVec 32 := 1#32 <<< 9 - 1#32

-- Only the bits of the nine handles are left, so the index stays in range.
theorem highest_supported_lt (pending : BitVec 32) :
    Mask.highest (SUPPORTED_SENSORS &&& pending) < 9 := by
  by_cases h : SUPPORTED_SENSORS &&& pending = 0#32
  · rw [h]
    decide
  · have hb := Mask.getLsbD_highest h
    rw [BitVec.getLsbD_and, Bool.and_eq_true] at hb
    by_contra hge
    have hlt := BitVec.lt_of_getLsbD hb.1
    have hnone : ∀ i : Fin 32, 9 ≤ i.val → SUPPORTED_SENSORS.getLsbD i.val = false := by decide
    exact Bool.false_ne_true ((hnone ⟨_, hlt⟩ (Nat.le_of_not_lt hge)).symm.trans hb.1)

variable (hdr : SensorsHeader)

-- A handle as meta_data.sensor holds it.
def handle_word (handle : Handle) : Word := BitVec.ofInt 32 handle.val

-- The completion event that a flush writes over the slot of its handle.
def flush_complete (handle : Handle) (event : SensorsEvent) : SensorsEvent :=
  { event with
    version := hdr.META_DATA_VERSION
    type := SENSOR_TYPE_META_DATA
    sensor := 0
    timestamp := 0
    data := Function.update (Function.update event.data META_SENSOR (handle_word handle)) META_WHAT
      hdr.META_DATA_FLUSH_COMPLETE }

def sensor_device_flush_locked (device : SensorDevice) (handle : Handle) : SensorDevice :=
  if device.m_pending_sensors &&& bit handle ≠ 0 ∧
      (device.m_sensors handle).type = SENSOR_TYPE_META_DATA then
    { device with
      m_flush_count := Function.update device.m_flush_count handle
        (device.m_flush_count handle + 1) }
  else
    { device with
      m_flush_count := Function.update device.m_flush_count handle 0
      m_sensors := Function.update device.m_sensors handle
        (flush_complete hdr handle (device.m_sensors handle))
      m_pending_sensors := device.m_pending_sensors ||| bit handle }

-- The function does not check its handle: one that is no index of the arrays
-- makes it access them out of bounds, which is none here.
def sensor_device_flush (device : SensorDevice) (handle : Int) : Option SensorDevice :=
  if h : 0 ≤ handle ∧ handle < 9 then
    some (sensor_device_flush_locked hdr device ⟨handle.toNat, by omega⟩)
  else none

def sensor_device_pick_pending_event_locked (device : SensorDevice) :
    Except Int (Handle × SensorsEvent × SensorDevice) :=
  let mask := SUPPORTED_SENSORS &&& device.m_pending_sensors
  if mask ≠ 0 then
    let i : Handle := ⟨Mask.highest mask, highest_supported_lt device.m_pending_sensors⟩
    let pending := device.m_pending_sensors &&& ~~~(bit i)
    let event := device.m_sensors i
    if event.type = SENSOR_TYPE_META_DATA then
      if 0 < device.m_flush_count i then
        .ok (i, event, { device with
          m_pending_sensors := pending ||| bit i
          m_flush_count := Function.update device.m_flush_count i (device.m_flush_count i - 1) })
      else
        .ok (i, event, { device with
          m_pending_sensors := pending
          m_sensors := Function.update device.m_sensors i
            { event with type := SENSOR_TYPE_META_DATA + 1 } })
    else
      .ok (i, { event with sensor := i.val, version := hdr.sizeof_sensors_event_t },
        { device with m_pending_sensors := pending })
  else .error (-EINVAL)

-- The loop of sensor_device_poll over at most `count` events: the events
-- written to `data`, the result and the device.
def sensor_device_poll_pick : Nat → SensorDevice → Int → List SensorsEvent × Int × SensorDevice
  | 0, device, result => ([], result, device)
  | count + 1, device, result =>
    if device.m_pending_sensors = 0 then ([], result, device)
    else
      match sensor_device_pick_pending_event_locked hdr device with
      | .error ret => ([], if result = 0 then ret else result, device)
      | .ok (_, event, device) =>
        let (events, result, device) := sensor_device_poll_pick count device (result + 1)
        (event :: events, result, device)

-- Copies `n` payload words to the start of the union.
def copy_words (n : Nat) (fdata : Fin 8 → Word) (data : Fin 16 → Word) : Fin 16 → Word :=
  fun i => if h : i.val < n ∧ i.val < 8 then fdata ⟨i.val, h.2⟩ else data i

-- One branch of the switch of sensor_device_poll_event_locked: the payload
-- goes to the slot `dataId`, the timestamp and the type to the slot `id`.
def store_event (dataId id : Handle) (words : Nat) (sensor_type : Int)
    (message : AicSensorsEvent) (events : Handle → SensorsEvent) : Handle → SensorsEvent :=
  let events := Function.update events dataId
    { events dataId with data := copy_words words message.fdata (events dataId).data }
  Function.update events id { events id with timestamp := message.timestamp, type := sensor_type }

def store_sensor_event (sensor : Sensor) (message : AicSensorsEvent)
    (events : Handle → SensorsEvent) : Handle → SensorsEvent :=
  let payload_words := get_payload_len hdr message.type / 4
  match sensor with
  | .ACCELEROMETER => store_event (Sensor.ID .ACCELEROMETER) (Sensor.ID .ACCELEROMETER) 3
      (hdr.SENSOR_TYPE .ACCELEROMETER) message events
  | .GYROSCOPE => store_event (Sensor.ID .GYROSCOPE) (Sensor.ID .GYROSCOPE) 3
      (hdr.SENSOR_TYPE .GYROSCOPE) message events
  | .MAGNETIC_FIELD => store_event (Sensor.ID .MAGNETIC_FIELD) (Sensor.ID .MAGNETIC_FIELD) 3
      (hdr.SENSOR_TYPE .MAGNETIC_FIELD) message events
  | .ACCELEROMETER_UNCALIBRATED =>
      store_event (Sensor.ID .ACCELEROMETER_UNCALIBRATED) (Sensor.ID .ACCELEROMETER_UNCALIBRATED)
        payload_words (hdr.SENSOR_TYPE .ACCELEROMETER_UNCALIBRATED) message events
  | .GYROSCOPE_UNCALIBRATED =>
      store_event (Sensor.ID .GYROSCOPE_UNCALIBRATED) (Sensor.ID .GYROSCOPE_UNCALIBRATED)
        payload_words (hdr.SENSOR_TYPE .GYROSCOPE_UNCALIBRATED) message events
  -- the payload of this one is copied into events[ID_MAGNETIC_FIELD]
  | .MAGNETIC_FIELD_UNCALIBRATED =>
      store_event (Sensor.ID .MAGNETIC_FIELD) (Sensor.ID .MAGNETIC_FIELD_UNCALIBRATED)
        payload_words (hdr.SENSOR_TYPE .MAGNETIC_FIELD_UNCALIBRATED) message events
  | .LIGHT => store_event (Sensor.ID .LIGHT) (Sensor.ID .LIGHT) 1
      (hdr.SENSOR_TYPE .LIGHT) message events
  | .PROXIMITY => store_event (Sensor.ID .PROXIMITY) (Sensor.ID .PROXIMITY) 1
      (hdr.SENSOR_TYPE .PROXIMITY) message events
  | .TEMPERATURE => store_event (Sensor.ID .TEMPERATURE) (Sensor.ID .TEMPERATURE) 1
      (hdr.SENSOR_TYPE .TEMPERATURE) message events

-- The loop over the bits of new_sensors. Every turn clears a bit, so the
-- width of the mask bounds the number of turns.
def stamp_sensors (timestamp : Int) :
    Nat → BitVec 32 → (Handle → SensorsEvent) → Handle → SensorsEvent
  | 0, _, events => events
  | turns + 1, new_sensors, events =>
    if new_sensors = 0 then events
    else
      let i := Mask.highest new_sensors
      let rest := new_sensors &&& ~~~(1#32 <<< i)
      if h : i < 9 then
        stamp_sensors timestamp turns rest
          (Function.update events ⟨i, h⟩ { events ⟨i, h⟩ with timestamp := timestamp })
      else stamp_sensors timestamp turns rest events

-- What sensor_device_poll_event_locked makes of a message it took: it turns
-- to the next one, it dies of a division by zero, or the event is stored.
inductive Processed
  | again
  | trapped
  | stored (device : SensorDevice)

def sensor_device_process_event (device : SensorDevice) (message : AicSensorsEvent)
    (host_timestamp : Int) : Processed :=
  match sensor_of_type hdr message.type with
  | none => .again
  | some sensor =>
    let events := store_sensor_event hdr sensor message device.m_sensors
    let new_sensors := bit sensor.ID
    let sensor_data_count := Function.update device.sensor_data_count sensor.ID
      (device.sensor_data_count sensor.ID + 1)
    -- sensor_data_count[handle] % m_log_trace_count
    if device.m_log_trace_count = 0 then .trapped
    else
      let m_time_start := if device.m_time_start = 0 then host_timestamp else device.m_time_start
      let m_time_offset := if device.m_time_start = 0 then m_time_start - message.timestamp
        else device.m_time_offset
      let remote_timestamp := message.timestamp + m_time_offset
      let remote_timestamp := if remote_timestamp > host_timestamp then host_timestamp
        else remote_timestamp
      .stored { device with
        m_pending_sensors := device.m_pending_sensors ||| new_sensors
        m_time_start := m_time_start
        m_time_offset := m_time_offset
        m_sensors := stamp_sensors remote_timestamp 32 new_sensors events
        sensor_data_count := sensor_data_count }

end SensorVhal
