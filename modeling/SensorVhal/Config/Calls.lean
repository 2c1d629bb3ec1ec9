import SensorVhal.Lib.Bytes
import SensorVhal.Sensors.Device

namespace SensorVhal

-- m_sensor_config_status
abbrev ConfigStatus := Handle → SensorConfigMsg

-- The bytes of a record as they are sent. Its fields are of type int32_t.
def SensorConfigMsg.bytes (msg : SensorConfigMsg) : List UInt8 :=
  Bytes.ofWord (.ofInt 32 msg.sensor_type) ++ Bytes.ofWord (.ofInt 32 msg.enabled) ++
    Bytes.ofWord (.ofInt 32 msg.sample_period)

@[simp] theorem SensorConfigMsg.length_bytes (msg : SensorConfigMsg) : msg.bytes.length = 12 := rfl

-- (int32_t)(sampling_period_ns / 1000000)
def sampling_period_ms (sampling_period_ns : Int) : Int :=
  (BitVec.ofInt 32 (sampling_period_ns.tdiv 1000000)).toInt

-- What a call has done when it comes to its message: it has returned without
-- one, or it holds m_mutex, has stored the entry of its handle, and sends that
-- entry or not.
inductive Configured
  | returned (ret : Int)
  | stored (handle : Handle) (status : ConfigStatus) (sends : Bool)

section Calls

variable (hdr : SensorsHeader) (status : ConfigStatus)

def sensor_device_activate (handle enabled : Int) : Configured :=
  let id := get_type_from_hanle hdr handle
  if id < 0 then .returned (-EINVAL)
  else
    let index := config_index handle
    .stored index
      (Function.update status index
        { status index with
          sensor_type := id
          enabled := enabled })
      (enabled = 0)

-- The common body of sensor_device_batch and sensor_device_set_delay.
def store_sample_period (handle sampling_period_ns : Int) : Configured :=
  let sensor_type := get_type_from_hanle hdr handle
  if sensor_type < 0 then .returned (-EINVAL)
  else
    let index := config_index handle
    .stored index
      (Function.update status index
        { sensor_type := sensor_type
          enabled := 1
          sample_period := sampling_period_ms sampling_period_ns })
      true

def sensor_device_batch (handle sampling_period_ns : Int) : Configured :=
  store_sample_period hdr status handle sampling_period_ns

def sensor_device_set_delay (handle ns : Int) : Configured :=
  store_sample_period hdr status handle ns

end Calls

inductive ConfigCall
  | activate (handle enabled : Int)
  | batch (handle sampling_period_ns : Int)
  | set_delay (handle ns : Int)

def ConfigCall.handle : ConfigCall → Int
  | activate handle _ | batch handle _ | set_delay handle _ => handle

def ConfigCall.configure (hdr : SensorsHeader) (status : ConfigStatus) : ConfigCall → Configured
  | activate handle enabled => sensor_device_activate hdr status handle enabled
  | batch handle sampling_period_ns => sensor_device_batch hdr status handle sampling_period_ns
  | set_delay handle ns => sensor_device_set_delay hdr status handle ns

-- The entry that a call leaves in place of `old`.
def ConfigCall.entry (sensor_type : Int) (old : SensorConfigMsg) : ConfigCall → SensorConfigMsg
  | activate _ enabled => ⟨sensor_type, enabled, old.sample_period⟩
  | batch _ ns | set_delay _ ns => ⟨sensor_type, 1, sampling_period_ms ns⟩

def ConfigCall.sends : ConfigCall → Bool
  | activate _ enabled => enabled = 0
  | batch _ _ | set_delay _ _ => true

-- The type of the sensor with a handle.
def handle_type (hdr : SensorsHeader) (handle : Handle) : Int := get_type_from_hanle hdr handle.val

section Handles

variable {hdr : SensorsHeader}

theorem exists_sensor (handle : Handle) : ∃ sensor : Sensor, sensor.ID = handle := by
  match handle with
  | 0 => exact ⟨.ACCELEROMETER, rfl⟩
  | 1 => exact ⟨.GYROSCOPE, rfl⟩
  | 2 => exact ⟨.MAGNETIC_FIELD, rfl⟩
  | 3 => exact ⟨.ACCELEROMETER_UNCALIBRATED, rfl⟩
  | 4 => exact ⟨.GYROSCOPE_UNCALIBRATED, rfl⟩
  | 5 => exact ⟨.MAGNETIC_FIELD_UNCALIBRATED, rfl⟩
  | 6 => exact ⟨.LIGHT, rfl⟩
  | 7 => exact ⟨.PROXIMITY, rfl⟩
  | 8 => exact ⟨.TEMPERATURE, rfl⟩

theorem handle_type_pos (handle : Handle) : 0 < handle_type hdr handle := by
  obtain ⟨sensor, rfl⟩ := exists_sensor handle
  rw [handle_type, get_type_from_hanle_ID]
  exact hdr.type_pos sensor

theorem handle_type_injective : Function.Injective (handle_type hdr) := by
  intro handle handle' h
  obtain ⟨sensor, rfl⟩ := exists_sensor handle
  obtain ⟨sensor', rfl⟩ := exists_sensor handle'
  rw [handle_type, handle_type, get_type_from_hanle_ID, get_type_from_hanle_ID] at h
  rw [hdr.type_injective h]

theorem get_type_from_hanle_unknown {handle : Int} (h : ∀ known : Handle, handle ≠ known.val) :
    get_type_from_hanle hdr handle = -EINVAL := by
  unfold get_type_from_hanle
  split
  · exact absurd rfl (h 0)
  · exact absurd rfl (h 1)
  · exact absurd rfl (h 2)
  · exact absurd rfl (h 3)
  · exact absurd rfl (h 4)
  · exact absurd rfl (h 5)
  · exact absurd rfl (h 6)
  · exact absurd rfl (h 7)
  · exact absurd rfl (h 8)
  · rfl

@[simp] theorem config_index_val (handle : Handle) : config_index handle.val = handle := by
  apply Fin.ext
  simp [config_index]

-- A call with a known handle stores its entry, and any other one changes nothing.
theorem ConfigCall.configure_cases (hdr : SensorsHeader) (status : ConfigStatus)
    (call : ConfigCall) :
    ((∀ handle : Handle, call.handle ≠ handle.val) ∧
      call.configure hdr status = .returned (-EINVAL)) ∨
    ∃ handle : Handle, call.handle = handle.val ∧
      call.configure hdr status = .stored handle
        (Function.update status handle (call.entry (handle_type hdr handle) (status handle)))
        call.sends := by
  by_cases hknown : ∃ handle : Handle, call.handle = handle.val
  · right
    obtain ⟨handle, hhandle⟩ := hknown
    have hpos : 0 < handle_type hdr handle := handle_type_pos handle
    have htype : ¬ get_type_from_hanle hdr handle.val < 0 := Int.not_lt.mpr (le_of_lt hpos)
    refine ⟨handle, hhandle, ?_⟩
    cases call with
    | activate number enabled =>
        obtain rfl : number = handle.val := hhandle
        simp only [configure, sensor_device_activate, if_neg htype, config_index_val]
        rfl
    | batch number ns =>
        obtain rfl : number = handle.val := hhandle
        simp only [configure, sensor_device_batch, store_sample_period, if_neg htype,
          config_index_val]
        rfl
    | set_delay number ns =>
        obtain rfl : number = handle.val := hhandle
        simp only [configure, sensor_device_set_delay, store_sample_period, if_neg htype,
          config_index_val]
        rfl
  · left
    have hunknown : ∀ handle : Handle, call.handle ≠ handle.val :=
      fun handle hhandle => hknown ⟨handle, hhandle⟩
    have htype : get_type_from_hanle hdr call.handle < 0 := by
      rw [get_type_from_hanle_unknown hunknown]
      decide
    refine ⟨hunknown, ?_⟩
    cases call with
    | activate number enabled => exact if_pos htype
    | batch number ns => exact if_pos htype
    | set_delay number ns => exact if_pos htype

end Handles

end SensorVhal
