import SensorVhal.Lib.Numeral
import SensorVhal.Sensors.DataDelivery

namespace SensorVhal

-- m_log_trace_count as the constructor leaves it. `property` is what
-- sys.sensor.log_trace.interval is set to, none if it is not. The library is built with
-- both widths of a long.
def log_trace_count (long : Numeral.Long) (property : Option (List UInt8)) : Int :=
  let prop_value := property.getD []
  if 0 < prop_value.length then Numeral.atoi long prop_value else 50

-- The property is not set or empty, or it begins with a number that an int does
-- not hold as 0.
def IntervalGiven (long : Numeral.Long) (property : Option (List UInt8)) : Prop :=
  property.getD [] = [] ∨ ¬ (4294967296 : Int) ∣ Numeral.strtol long (property.getD [])

variable {Tid : Type} [DecidableEq Tid]

-- No poll that looks at a message of a supported type divides by zero.
def Hal.DividesSafely (hdr : SensorsHeader) (hal : Hal Tid) : Prop :=
  ∀ thread count message host, hal.polls thread = .taken count message →
    sensor_of_type hdr message.type ≠ none →
    sensor_device_process_event hdr hal.device message host ≠ .trapped

variable {hdr : SensorsHeader}

theorem log_trace_count_eq_zero {long : Numeral.Long} {property : Option (List UInt8)} :
    log_trace_count long property = 0 ↔ ¬ IntervalGiven long property := by
  rw [IntervalGiven, not_or, not_not, ← Numeral.atoi_eq_zero, log_trace_count]
  split
  · rename_i hlength
    have hset : property.getD [] ≠ [] := List.ne_nil_of_length_pos hlength
    exact (and_iff_right hset).symm
  · rename_i hlength
    have hempty : property.getD [] = [] := List.eq_nil_of_length_eq_zero (by omega)
    simp [hempty]

-- The division is the only one, and its divisor is m_log_trace_count.
theorem process_trapped_iff {device : SensorDevice} {message : AicSensorsEvent} {host : Int}
    (hsensor : sensor_of_type hdr message.type ≠ none) :
    sensor_device_process_event hdr device message host = .trapped ↔
      device.m_log_trace_count = 0 := by
  obtain ⟨sensor, hsome⟩ := Option.ne_none_iff_exists'.mp hsensor
  simp only [sensor_device_process_event, hsome]
  split
  · rename_i hzero
    exact iff_of_true rfl hzero
  · rename_i hcount
    exact iff_of_false (fun htrapped => by cases htrapped) hcount

theorem Hal.log_trace_count_step {hal next : Hal Tid} {event : HalEvent Tid}
    (h : hal.step hdr event = some next) :
    next.device.m_log_trace_count = hal.device.m_log_trace_count := by
  have hframe : ∀ {device other : SensorDevice}, (∃ pending flush_count sensors,
      other = { device with
        m_pending_sensors := pending, m_flush_count := flush_count, m_sensors := sensors }) →
      other.m_log_trace_count = device.m_log_trace_count := by
    rintro device other ⟨_, _, _, rfl⟩
    rfl
  cases Hal.moves_of_step h with
  | flush handle => exact hframe (flush_frame hdr hal.device handle)
  | report thread count hpc hsome => exact hframe (poll_pick_frame hdr count.toNat hal.device 0)
  | store thread host count message device hpc hprocess =>
      rw [← process_log_trace_count hprocess]
      exact hframe (poll_pick_frame hdr count.toNat device 0)
  | _ => rfl

-- The constructor sets m_log_trace_count, and nothing else does.
theorem Hal.log_trace_count_run {memory : Handle → SensorsEvent} {log_trace_count : Int}
    {events : List (HalEvent Tid)} {hal : Hal Tid}
    (hrun : Machine.run (Hal.step hdr) (.init memory log_trace_count) events = some hal) :
    hal.device.m_log_trace_count = log_trace_count :=
  Machine.invariant_always (I := fun hal => hal.device.m_log_trace_count = log_trace_count)
    (fun _ _ _ h hstep => (Hal.log_trace_count_step hstep).trans h) rfl hrun

-- A poll of a new device comes to look at the first message that arrives.
theorem Hal.takes_first (hdr : SensorsHeader) (memory : Handle → SensorsEvent)
    (log_trace_count : Int) (message : AicSensorsEvent) (thread : Tid) :
    ∃ hal, Machine.run (Hal.step hdr) (.init memory log_trace_count)
        [.connection true, .arrive message, .poll thread 1, .take thread] = some hal ∧
      hal.polls thread = .taken 1 message ∧
      hal.device = .init memory log_trace_count := by
  let last : Hal Tid := { (Hal.init memory log_trace_count : Hal Tid) with
    client_connected := true
    polls := Function.update (Function.update (fun _ => .idle) thread (.waiting 1)) thread
      (.taken 1 message)
    history := ⟨[], [message], [(thread, message)], []⟩ }
  refine ⟨last, ?_, Function.update_self _ _ _, rfl⟩
  simp [Hal.step, Hal.init, Hal.poll_head, enqueue, make_room, SensorDevice.init, last]

-- Every message in every run is looked at without a division by zero exactly when
-- the property gives an interval or is not set.
theorem divides_safely_iff [Inhabited Tid] (hdr : SensorsHeader) (memory : Handle → SensorsEvent)
    (long : Numeral.Long) (property : Option (List UInt8)) :
    (∀ (events : List (HalEvent Tid)) (hal : Hal Tid),
      Machine.run (Hal.step hdr) (.init memory (log_trace_count long property)) events =
        some hal → hal.DividesSafely hdr) ↔ IntervalGiven long property := by
  constructor
  · intro hsafe
    by_contra hgiven
    have hzero := log_trace_count_eq_zero.mpr hgiven
    let message : AicSensorsEvent := ⟨hdr.SENSOR_TYPE .ACCELEROMETER, 3, 0, fun _ => 0⟩
    have hsensor : sensor_of_type hdr message.type ≠ none := by
      simp [message, sensor_of_type_SENSOR_TYPE]
    obtain ⟨hal, hrun, htaken, hdevice⟩ :=
      Hal.takes_first hdr memory (log_trace_count long property) message (default : Tid)
    apply hsafe _ hal hrun default 1 message 0 htaken hsensor
    rw [process_trapped_iff hsensor, hdevice]
    exact hzero
  · intro hgiven events hal hrun thread count message host _ hsensor htrapped
    have hzero := (process_trapped_iff hsensor).mp htrapped
    rw [Hal.log_trace_count_run hrun] at hzero
    exact log_trace_count_eq_zero.mp hzero hgiven

-- The property is set to "off", and one message arrives.
theorem division_by_zero_off :
    ∃ hal, Machine.run (Hal.step android_header)
        (.init (fun _ => default) (log_trace_count .bits64 (some [111, 102, 102])) : Hal Unit)
        [.connection true, .arrive ⟨1, 3, 1000000, fun _ => 0⟩, .poll () 1, .take ()] = some hal ∧
      ¬ hal.DividesSafely android_header := by
  obtain ⟨hal, hrun, htaken, hdevice⟩ := Hal.takes_first android_header (fun _ => default)
    (log_trace_count .bits64 (some [111, 102, 102])) ⟨1, 3, 1000000, fun _ => 0⟩ ()
  refine ⟨hal, hrun, fun hsafe => ?_⟩
  have hsensor : sensor_of_type android_header 1 ≠ none := by decide
  apply hsafe () 1 _ 5000 htaken hsensor
  rw [process_trapped_iff hsensor, hdevice]
  decide

end SensorVhal
