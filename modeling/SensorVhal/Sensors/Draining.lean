import SensorVhal.Sensors.Alignment
import SensorVhal.Sensors.Overtaking

namespace SensorVhal

-- The message that a poll holds.
def PollPc.hand : PollPc → List AicSensorsEvent
  | taken _ message => [message]
  | _ => []

-- What a poll has still to report: an event that lies in a pending slot, or a message of a
-- sensor, which is not stored yet.
inductive Due
  | pending (handle : Handle) (event : SensorsEvent)
  | message (sensor : Sensor) (message : AicSensorsEvent)

-- An event that a poll returns, with the handle that it picks and the host clock at which
-- it has stored the message that it waited for.
structure Report where
  handle : Handle
  event : SensorsEvent
  host : Option Int

def HalEvent.host {Tid : Type} : HalEvent Tid → Option Int
  | process _ host_timestamp => some host_timestamp
  | _ => none

variable (hdr : SensorsHeader)

def SensorsModule.reports {Tid : Type} (x : SensorsModule Tid) (event : HalEvent Tid) :
    List Report :=
  (x.served hdr event).map fun (handle, reported) => ⟨handle, reported, event.host⟩

-- Messages of no sensor are dropped.
def due (message : AicSensorsEvent) : Option Due :=
  (sensor_of_type hdr message.type).map fun sensor => .message sensor message

-- What the one poll thread has still to report: what is pending, the highest handle first,
-- and then the messages in their order.
def Hal.to_come (hal : Hal Unit) : List Due :=
  (pending_entries hdr hal.device).map (fun (handle, event) => .pending handle event) ++
    ((hal.polls ()).hand ++ hal.m_sensor_msg_queue).filterMap (due hdr)

-- The report of a message. The words of the uncalibrated magnetic field are in another
-- slot, and a message that comes at host clock 0 leaves m_time_start at 0.
structure ReportOf (device : SensorDevice) (sensor : Sensor) (message : AicSensorsEvent)
    (report : Report) : Prop where
  handle : report.handle = sensor.ID
  type : report.event.type = message.type
  version : report.event.version = hdr.sizeof_sensors_event_t
  data : sensor ≠ .MAGNETIC_FIELD_UNCALIBRATED → Holds message sensor.words report.event
  timestamp : ∃ host, report.host = some host ∧
    ((device.m_time_start ≠ 0 ∧
        report.event.timestamp = min (message.timestamp + device.m_time_offset) host) ∨
      host = 0 ∧ report.event.timestamp = 0)
  sensor : report.event.sensor = sensor.ID.val

-- What is pending is reported as it is.
def Due.Reported (device : SensorDevice) (report : Report) : Due → Prop
  | pending handle event => report.handle = handle ∧ report.event = event
  | message sensor received => ReportOf hdr device sensor received report

-- From `x` to `y` the polls report the front of what is to come.
structure Drained (x y : Hal Unit) (reports : List Report) : Prop where
  front : ∃ front, x.to_come hdr = front ++ y.to_come hdr ∧
    List.Forall₂ (fun entry report => entry.Reported hdr y.device report) front reports
  clock : x.device.m_time_start ≠ 0 → SameClock x.device y.device

variable {hdr}

section Reported

variable {device next : SensorDevice} {message : AicSensorsEvent} {sensor : Sensor} {host : Int}

theorem Due.Reported.keep {entry : Due} {report : Report} (h : entry.Reported hdr device report)
    (hclock : device.m_time_start ≠ 0 → SameClock device next) :
    entry.Reported hdr next report := by
  cases entry with
  | pending handle event => exact h
  | message sensor message =>
      obtain ⟨host, hhost, ⟨hstart, hmin⟩ | hzero⟩ := h.timestamp
      · obtain ⟨hsame, hoffset⟩ := hclock hstart
        refine { h with timestamp := ⟨host, hhost, .inl ⟨?_, ?_⟩⟩ }
        · rw [hsame]
          exact hstart
        · rw [hoffset]
          exact hmin
      · exact { h with timestamp := ⟨host, hhost, .inr hzero⟩ }

end Reported

section Drained

variable {x y z : Hal Unit} {reports reports' : List Report}

theorem Drained.trans (hfirst : Drained hdr x y reports) (hrest : Drained hdr y z reports') :
    Drained hdr x z (reports ++ reports') := by
  obtain ⟨front, hcome, hreported⟩ := hfirst.front
  obtain ⟨front', hcome', hreported'⟩ := hrest.front
  refine ⟨⟨front ++ front', ?_, ?_⟩, fun hstart => ?_⟩
  · rw [hcome, hcome', List.append_assoc]
  · exact List.rel_append (hreported.imp fun _ _ h => h.keep hrest.clock) hreported'
  · have hsame := hfirst.clock hstart
    have hstart' : y.device.m_time_start ≠ 0 := by
      rw [hsame.1]
      exact hstart
    have hsame' := hrest.clock hstart'
    exact ⟨hsame'.1.trans hsame.1, hsame'.2.trans hsame.2⟩

end Drained

namespace SensorsModule

variable {x y : SensorsModule Unit} {event : HalEvent Unit}

-- A poll that is running has found nothing pending.
def Quiet (hal : Hal Unit) : Prop := hal.polls () = .idle ∨ hal.device.m_pending_sensors = 0

theorem Quiet.zero {hal : Hal Unit} (h : Quiet hal) (hrunning : hal.polls () ≠ .idle) :
    hal.device.m_pending_sensors = 0 := h.resolve_left hrunning

variable {later : List (HalEvent Unit)}

end SensorsModule

end SensorVhal
