import Mathlib.Data.Fin.VecNotation
import Mathlib.Logic.Function.Basic
import Mathlib.Tactic.Common

namespace SensorVhal

-- SENSORS_LIST of sensors_vhal.h: the nine sensors in the order of their ids.
inductive Sensor
  | ACCELEROMETER
  | GYROSCOPE
  | MAGNETIC_FIELD
  | ACCELEROMETER_UNCALIBRATED
  | GYROSCOPE_UNCALIBRATED
  | MAGNETIC_FIELD_UNCALIBRATED
  | LIGHT
  | PROXIMITY
  | TEMPERATURE
  deriving DecidableEq, Repr

-- An index of the arrays of MAX_NUM_SENSORS entries. SENSORS_HANDLE_BASE is 0.
abbrev Handle := Fin 9

abbrev Word := BitVec 32

-- The ID_ constants.
def Sensor.ID : Sensor → Handle
  | ACCELEROMETER => 0
  | GYROSCOPE => 1
  | MAGNETIC_FIELD => 2
  | ACCELEROMETER_UNCALIBRATED => 3
  | GYROSCOPE_UNCALIBRATED => 4
  | MAGNETIC_FIELD_UNCALIBRATED => 5
  | LIGHT => 6
  | PROXIMITY => 7
  | TEMPERATURE => 8

-- A handle as an index of m_sensor_config_status. It is used for known ones only.
def config_index (handle : Int) : Handle := Fin.ofNat 9 handle.toNat

-- The number of values in a message of a sensor.
def Sensor.words : Sensor → Nat
  | ACCELEROMETER | GYROSCOPE | MAGNETIC_FIELD => 3
  | ACCELEROMETER_UNCALIBRATED | GYROSCOPE_UNCALIBRATED | MAGNETIC_FIELD_UNCALIBRATED => 6
  | LIGHT | PROXIMITY | TEMPERATURE => 1

def SENSOR_TYPE_META_DATA : Int := 0

def EINVAL : Int := 22

def MAX_MSG_QUEUE_SIZE : Nat := 128

-- The loop of sensor_event_callback over a full m_sensor_msg_queue: the oldest
-- buffers go back to m_msg_mem_pool.
def make_room {β : Type} : List β → List β → List β × List β
  | [], pool => ([], pool)
  | front :: queue, pool =>
    if MAX_MSG_QUEUE_SIZE ≤ (front :: queue).length then make_room queue (pool ++ [front])
    else (front :: queue, pool)

-- What the sources take from the platform's sensor header, with the facts
-- about the constants that they rely on.
structure SensorsHeader where
  SENSOR_TYPE : Sensor → Int
  META_DATA_VERSION : Int
  META_DATA_FLUSH_COMPLETE : Word
  sizeof_sensors_event_t : Int
  type_injective : Function.Injective SENSOR_TYPE
  type_pos : ∀ sensor, 0 < SENSOR_TYPE sensor

-- The header of the platform as it is.
def android_header : SensorsHeader where
  SENSOR_TYPE
    | .ACCELEROMETER => 1
    | .GYROSCOPE => 4
    | .MAGNETIC_FIELD => 2
    | .ACCELEROMETER_UNCALIBRATED => 35
    | .GYROSCOPE_UNCALIBRATED => 16
    | .MAGNETIC_FIELD_UNCALIBRATED => 14
    | .LIGHT => 5
    | .PROXIMITY => 8
    | .TEMPERATURE => 13
  META_DATA_VERSION := 2
  META_DATA_FLUSH_COMPLETE := 1
  sizeof_sensors_event_t := 104
  type_injective := by
    intro a b h
    cases a <;> cases b <;> first | rfl | exact absurd h (by decide)
  type_pos := by
    intro sensor
    cases sensor <;> decide

-- sensors_event_t. The union is kept as its sixteen words: every member that
-- the sources use starts at word 0.
@[ext] structure SensorsEvent where
  version : Int
  sensor : Int
  type : Int
  timestamp : Int
  data : Fin 16 → Word
  deriving Inhabited

-- meta_data_event_t lies over words 0 and 1 of the union.
abbrev META_WHAT : Fin 16 := 0

abbrev META_SENSOR : Fin 16 := 1

def SensorsEvent.metaWhat (event : SensorsEvent) : Word := event.data META_WHAT

def SensorsEvent.metaSensor (event : SensorsEvent) : Word := event.data META_SENSOR

-- aic_sensors_event_t as it lies in a message buffer, whose data area of
-- MAX_SENSOR_PAYLOAD_SIZE bytes holds eight words.
structure AicSensorsEvent where
  type : Int
  data_num : Int
  timestamp : Int
  fdata : Fin 8 → Word

-- sensor_config_msg_t
@[ext] structure SensorConfigMsg where
  sensor_type : Int
  enabled : Int
  sample_period : Int
  deriving DecidableEq

-- The fields of SensorDevice and the static counter of
-- sensor_device_poll_event_locked. The queue and the buffer pool are kept
-- where the threads that share them are modelled.
structure SensorDevice where
  m_flush_count : Handle → BitVec 32
  m_pending_sensors : BitVec 32
  m_time_start : Int
  m_time_offset : Int
  m_log_trace_count : Int
  m_sensors : Handle → SensorsEvent
  m_sensor_config_status : Handle → SensorConfigMsg
  sensor_data_count : Handle → Int

-- The constructor leaves all of m_sensors but the type as it finds it.
def SensorDevice.init (memory : Handle → SensorsEvent) (log_trace_count : Int) : SensorDevice where
  m_flush_count := fun _ => 0
  m_pending_sensors := 0
  m_time_start := 0
  m_time_offset := 0
  m_log_trace_count := log_trace_count
  m_sensors := fun idx => { memory idx with type := SENSOR_TYPE_META_DATA + 1 }
  m_sensor_config_status := fun _ => ⟨0, 0, 0⟩
  sensor_data_count := fun _ => 0

variable (hdr : SensorsHeader)

-- The case label that a switch on a sensor type takes, none for the default.
def sensor_of_type (sensor_type : Int) : Option Sensor :=
  if sensor_type = hdr.SENSOR_TYPE .ACCELEROMETER then some .ACCELEROMETER
  else if sensor_type = hdr.SENSOR_TYPE .GYROSCOPE then some .GYROSCOPE
  else if sensor_type = hdr.SENSOR_TYPE .MAGNETIC_FIELD then some .MAGNETIC_FIELD
  else if sensor_type = hdr.SENSOR_TYPE .ACCELEROMETER_UNCALIBRATED then
    some .ACCELEROMETER_UNCALIBRATED
  else if sensor_type = hdr.SENSOR_TYPE .GYROSCOPE_UNCALIBRATED then some .GYROSCOPE_UNCALIBRATED
  else if sensor_type = hdr.SENSOR_TYPE .MAGNETIC_FIELD_UNCALIBRATED then
    some .MAGNETIC_FIELD_UNCALIBRATED
  else if sensor_type = hdr.SENSOR_TYPE .LIGHT then some .LIGHT
  else if sensor_type = hdr.SENSOR_TYPE .PROXIMITY then some .PROXIMITY
  else if sensor_type = hdr.SENSOR_TYPE .TEMPERATURE then some .TEMPERATURE
  else none

def get_payload_len (sensor_type : Int) : Nat :=
  match sensor_of_type hdr sensor_type with
  | some .ACCELEROMETER | some .GYROSCOPE | some .MAGNETIC_FIELD => 3 * 4
  | some .ACCELEROMETER_UNCALIBRATED | some .GYROSCOPE_UNCALIBRATED
  | some .MAGNETIC_FIELD_UNCALIBRATED => 6 * 4
  | some .LIGHT | some .PROXIMITY | some .TEMPERATURE => 1 * 4
  | none => 0

def get_type_from_hanle (handle : Int) : Int :=
  match handle with
  | 0 => hdr.SENSOR_TYPE .ACCELEROMETER
  | 1 => hdr.SENSOR_TYPE .GYROSCOPE
  | 2 => hdr.SENSOR_TYPE .MAGNETIC_FIELD
  | 3 => hdr.SENSOR_TYPE .ACCELEROMETER_UNCALIBRATED
  | 4 => hdr.SENSOR_TYPE .GYROSCOPE_UNCALIBRATED
  | 5 => hdr.SENSOR_TYPE .MAGNETIC_FIELD_UNCALIBRATED
  | 6 => hdr.SENSOR_TYPE .LIGHT
  | 7 => hdr.SENSOR_TYPE .PROXIMITY
  | 8 => hdr.SENSOR_TYPE .TEMPERATURE
  | _ => -EINVAL

def get_handle_from_type (sensor_type : Int) : Int :=
  match sensor_of_type hdr sensor_type with
  | some .ACCELEROMETER => (Sensor.ID .ACCELEROMETER).val
  | some .MAGNETIC_FIELD => (Sensor.ID .MAGNETIC_FIELD).val
  | some .GYROSCOPE => (Sensor.ID .GYROSCOPE).val
  | some .ACCELEROMETER_UNCALIBRATED => (Sensor.ID .ACCELEROMETER_UNCALIBRATED).val
  | some .GYROSCOPE_UNCALIBRATED => (Sensor.ID .GYROSCOPE_UNCALIBRATED).val
  | some .MAGNETIC_FIELD_UNCALIBRATED => (Sensor.ID .MAGNETIC_FIELD_UNCALIBRATED).val
  | some .LIGHT => (Sensor.ID .LIGHT).val
  | some .TEMPERATURE => (Sensor.ID .TEMPERATURE).val
  | some .PROXIMITY => (Sensor.ID .PROXIMITY).val
  | none => -1

variable {hdr}

theorem sensor_of_type_SENSOR_TYPE (sensor : Sensor) :
    sensor_of_type hdr (hdr.SENSOR_TYPE sensor) = some sensor := by
  simp only [sensor_of_type, hdr.type_injective.eq_iff]
  cases sensor <;> rfl

-- A chain of tests gives a value at the first one that has it.
theorem ite_some_eq_some {α : Type} {c : Prop} [Decidable c] {a b : α} {rest : Option α}
    (h : (if c then some a else rest) = some b) : c ∧ a = b ∨ rest = some b := by
  by_cases hc : c
  · rw [if_pos hc] at h
    exact .inl ⟨hc, Option.some.inj h⟩
  · rw [if_neg hc] at h
    exact .inr h

-- The switch of every sensor function finds the sensor of a type, and no other.
theorem sensor_of_type_eq_some {sensor_type : Int} {sensor : Sensor} :
    sensor_of_type hdr sensor_type = some sensor ↔ sensor_type = hdr.SENSOR_TYPE sensor := by
  constructor
  · intro h
    unfold sensor_of_type at h
    repeat
      rcases ite_some_eq_some h with ⟨htype, rfl⟩ | h
      · exact htype
    cases h
  · rintro rfl
    exact sensor_of_type_SENSOR_TYPE sensor

theorem get_payload_len_of_sensor {sensor_type : Int} {sensor : Sensor}
    (h : sensor_of_type hdr sensor_type = some sensor) :
    get_payload_len hdr sensor_type = 4 * sensor.words := by
  rw [get_payload_len, h]
  cases sensor <;> rfl

-- The three maps between sensors, types and handles agree.
theorem get_handle_from_type_of_sensor {sensor_type : Int} {sensor : Sensor}
    (h : sensor_of_type hdr sensor_type = some sensor) :
    get_handle_from_type hdr sensor_type = sensor.ID.val := by
  rw [get_handle_from_type, h]
  cases sensor <;> rfl

theorem get_type_from_hanle_ID (sensor : Sensor) :
    get_type_from_hanle hdr sensor.ID.val = hdr.SENSOR_TYPE sensor := by
  cases sensor <;> rfl

end SensorVhal
