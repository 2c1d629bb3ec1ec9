import SensorVhal.Sensors.Slots

namespace SensorVhal

-- The first `words` data words of an event are those of the message.
def Holds (message : AicSensorsEvent) (words : Nat) (event : SensorsEvent) : Prop :=
  ∀ i : Fin 8, i.val < words → event.data (i.castLE (by decide)) = message.fdata i

-- The message lies in the slot of the handle and nowhere else.
structure Placed (hdr : SensorsHeader) (device next : SensorDevice) (message : AicSensorsEvent)
    (handle : Handle) : Prop where
  type : (next.m_sensors handle).type = message.type
  data : Holds message (get_payload_len hdr message.type / 4) (next.m_sensors handle)
  pending : next.m_pending_sensors = device.m_pending_sensors ||| bit handle
  frame : ∀ other, other ≠ handle → next.m_sensors other = device.m_sensors other

theorem copy_words_eq_self {message : AicSensorsEvent} {words : Nat} {event : SensorsEvent} :
    copy_words words message.fdata event.data = event.data ↔ Holds message words event := by
  constructor
  · intro h i hi
    have hcopied : i.val < words ∧ i.val < 8 := ⟨hi, i.isLt⟩
    have hword : copy_words words message.fdata event.data (i.castLE (by decide)) =
        message.fdata i := dif_pos hcopied
    exact (congrFun h _).symm.trans hword
  · intro h
    funext i
    by_cases hcopied : i.val < words ∧ i.val < 8
    · rw [copy_words, dif_pos hcopied]
      exact (h ⟨i.val, hcopied.2⟩ hcopied.1).symm
    · rw [copy_words, dif_neg hcopied]

-- Whatever lies in the slot before, the copied words are there afterwards.
theorem copy_words_holds {message : AicSensorsEvent} {words : Nat} {data : Fin 16 → Word}
    {event : SensorsEvent} (h : event.data = copy_words words message.fdata data) :
    Holds message words event := by
  intro i hi
  have hcopied : i.val < words ∧ i.val < 8 := ⟨hi, i.isLt⟩
  rw [h, copy_words]
  exact dif_pos hcopied

-- A slot that is given other data but its own words keeps nothing else.
theorem store_event_of_ne {dataId id handle : Handle} (hid : handle ≠ id) (words : Nat)
    (sensor_type : Int) (message : AicSensorsEvent) (events : Handle → SensorsEvent) :
    store_event dataId id words sensor_type message events handle =
      if handle = dataId then
        { events handle with data := copy_words words message.fdata (events handle).data }
      else events handle := by
  by_cases hdata : handle = dataId
  · subst handle
    simp [store_event, hid]
  · simp [store_event, hid, hdata]

variable {hdr : SensorsHeader} {device next : SensorDevice} {message : AicSensorsEvent}
  {sensor : Sensor} {host : Int}

theorem process_stored_iff (host : Int) (hsensor : sensor_of_type hdr message.type = some sensor) :
    (∃ next, sensor_device_process_event hdr device message host = .stored next) ↔
      device.m_log_trace_count ≠ 0 := by
  simp only [sensor_device_process_event, hsensor]
  split
  · simp_all
  · simp_all

-- The slot of the message's own handle after the processing.
theorem process_own_slot (hsensor : sensor_of_type hdr message.type = some sensor)
    (h : sensor_device_process_event hdr device message host = .stored next) :
    (next.m_sensors sensor.ID).type = message.type ∧
      (next.m_sensors sensor.ID).data =
        if sensor.ID = sensor.dataID then
          copy_words sensor.words message.fdata (device.m_sensors sensor.ID).data
        else (device.m_sensors sensor.ID).data := by
  obtain ⟨_, _, hother, -, -, _, rfl, hevents⟩ := process_cases h
  obtain rfl := Option.some.inj (hsensor.symm.trans hother)
  rw [hevents, Function.update_self]
  refine ⟨?_, store_event_data _ _ _ _ _ _ _⟩
  rw [store_event_type, if_pos rfl]
  exact (sensor_of_type_eq_some.mp hsensor).symm

-- The other slots: only the one that the payload is written to can change.
theorem process_other_slot (hsensor : sensor_of_type hdr message.type = some sensor)
    (h : sensor_device_process_event hdr device message host = .stored next) {other : Handle}
    (hne : other ≠ sensor.ID) :
    next.m_sensors other =
      if other = sensor.dataID then
        { device.m_sensors other with
          data := copy_words sensor.words message.fdata (device.m_sensors other).data }
      else device.m_sensors other := by
  obtain ⟨_, _, hfound, -, -, _, rfl, hevents⟩ := process_cases h
  obtain rfl := Option.some.inj (hsensor.symm.trans hfound)
  rw [hevents, Function.update_of_ne hne]
  exact store_event_of_ne hne _ _ _ _

theorem process_pending (hsensor : sensor_of_type hdr message.type = some sensor)
    (h : sensor_device_process_event hdr device message host = .stored next) :
    next.m_pending_sensors = device.m_pending_sensors ||| bit sensor.ID := by
  obtain ⟨_, _, hfound, -, hpending, -⟩ := process_cases h
  obtain rfl := Option.some.inj (hsensor.symm.trans hfound)
  exact hpending

-- Only one sensor has its payload written to another slot than its own.
theorem Sensor.dataID_eq_ID {sensor : Sensor} :
    sensor.dataID = sensor.ID ↔ sensor ≠ .MAGNETIC_FIELD_UNCALIBRATED := by
  cases sensor <;> decide

theorem placed_of_dataID (hsensor : sensor_of_type hdr message.type = some sensor)
    (h : sensor_device_process_event hdr device message host = .stored next)
    (hown : sensor.dataID = sensor.ID) : Placed hdr device next message sensor.ID := by
  obtain ⟨htype, hdata⟩ := process_own_slot hsensor h
  rw [if_pos hown.symm] at hdata
  refine ⟨htype, ?_, process_pending hsensor h, fun other hne => ?_⟩
  · rw [get_payload_len_of_sensor hsensor, Nat.mul_div_cancel_left _ (by decide)]
    exact copy_words_holds hdata
  · rw [process_other_slot hsensor h hne, hown]
    exact if_neg hne

-- Where the payload goes to another slot, both slots have to hold it before.
theorem placed_iff_of_ne (hsensor : sensor_of_type hdr message.type = some sensor)
    (h : sensor_device_process_event hdr device message host = .stored next)
    (hother : sensor.dataID ≠ sensor.ID) :
    Placed hdr device next message sensor.ID ↔
      Holds message sensor.words (device.m_sensors sensor.dataID) ∧
        Holds message sensor.words (device.m_sensors sensor.ID) := by
  have hwords : get_payload_len hdr message.type / 4 = sensor.words := by
    rw [get_payload_len_of_sensor hsensor, Nat.mul_div_cancel_left _ (by decide)]
  obtain ⟨htype, hdata⟩ := process_own_slot hsensor h
  rw [if_neg (Ne.symm hother)] at hdata
  have hslot := process_other_slot hsensor h hother
  rw [if_pos rfl] at hslot
  constructor
  · intro hplaced
    constructor
    · have hsame := hplaced.frame _ hother
      rw [hslot] at hsame
      exact copy_words_eq_self.mp (congrArg SensorsEvent.data hsame)
    · intro i hi
      rw [← hdata]
      exact hplaced.data i (hwords ▸ hi)
  · rintro ⟨hthere, hhere⟩
    refine ⟨htype, ?_, process_pending hsensor h, fun other hne => ?_⟩
    · intro i hi
      rw [hdata]
      exact hhere i (hwords ▸ hi)
    · by_cases hdataID : other = sensor.dataID
      · subst other
        rw [hslot, copy_words_eq_self.mpr hthere]
      · rw [process_other_slot hsensor h hne, if_neg hdataID]

-- A message of a sensor reaches the slot of its own handle alone, unless it is
-- one of the uncalibrated magnetic field sensor.
theorem process_placed_iff (hdr : SensorsHeader) (device : SensorDevice)
    (message : AicSensorsEvent) (host : Int) (sensor : Sensor)
    (htype : message.type = hdr.SENSOR_TYPE sensor) :
    (∃ next handle, sensor_device_process_event hdr device message host = .stored next ∧
        get_handle_from_type hdr message.type = (handle : Handle).val ∧
        Placed hdr device next message handle) ↔
      device.m_log_trace_count ≠ 0 ∧
        (sensor ≠ .MAGNETIC_FIELD_UNCALIBRATED ∨
          Holds message 6 (device.m_sensors (Sensor.ID .MAGNETIC_FIELD)) ∧
            Holds message 6 (device.m_sensors (Sensor.ID .MAGNETIC_FIELD_UNCALIBRATED))) := by
  have hsensor : sensor_of_type hdr message.type = some sensor := sensor_of_type_eq_some.mpr htype
  have hhandle := get_handle_from_type_of_sensor hsensor
  constructor
  · rintro ⟨next, handle, hstored, hfound, hplaced⟩
    refine ⟨(process_stored_iff host hsensor).mp ⟨next, hstored⟩, ?_⟩
    have hid : handle = sensor.ID := by
      have hval := hfound.symm.trans hhandle
      exact Fin.ext (by omega)
    subst handle
    by_cases huncalibrated : sensor = .MAGNETIC_FIELD_UNCALIBRATED
    · subst sensor
      have hother : Sensor.dataID .MAGNETIC_FIELD_UNCALIBRATED ≠
          Sensor.ID .MAGNETIC_FIELD_UNCALIBRATED := by decide
      exact .inr ((placed_iff_of_ne hsensor hstored hother).mp hplaced)
    · exact .inl huncalibrated
  · rintro ⟨htrace, hcond⟩
    obtain ⟨next, hstored⟩ := (process_stored_iff host hsensor).mpr htrace
    refine ⟨next, sensor.ID, hstored, hhandle, ?_⟩
    rcases hcond with hcalibrated | hholds
    · exact placed_of_dataID hsensor hstored (Sensor.dataID_eq_ID.mpr hcalibrated)
    · by_cases hown : sensor.dataID = sensor.ID
      · exact placed_of_dataID hsensor hstored hown
      · have huncalibrated : sensor = .MAGNETIC_FIELD_UNCALIBRATED := by
          by_contra hne
          exact hown (Sensor.dataID_eq_ID.mpr hne)
        subst sensor
        exact (placed_iff_of_ne hsensor hstored hown).mpr hholds

-- A proximity message goes to slot 7, whatever was in the slots.
theorem proximity_placed :
    ∃ next handle, sensor_device_process_event android_header
        (.init (fun _ => ⟨0, 0, 0, 0, fun _ => 7⟩) 50) ⟨8, 1, 1000, fun _ => 1⟩ 5000 =
          .stored next ∧
      get_handle_from_type android_header 8 = (handle : Handle).val ∧
      Placed android_header (.init (fun _ => ⟨0, 0, 0, 0, fun _ => 7⟩) 50) next
        ⟨8, 1, 1000, fun _ => 1⟩ handle :=
  (process_placed_iff android_header _ ⟨8, 1, 1000, fun _ => 1⟩ 5000 .PROXIMITY rfl).mpr
    ⟨by decide, .inl (by decide)⟩

-- The first uncalibrated magnetic field message: its values are in the slot of
-- the calibrated sensor.
theorem uncalibrated_misplaced :
    ¬ ∃ next handle, sensor_device_process_event android_header
        (.init (fun _ => ⟨0, 0, 0, 0, fun _ => 0⟩) 50) ⟨14, 6, 1000, fun _ => 1⟩ 5000 =
          .stored next ∧
      get_handle_from_type android_header 14 = (handle : Handle).val ∧
      Placed android_header (.init (fun _ => ⟨0, 0, 0, 0, fun _ => 0⟩) 50) next
        ⟨14, 6, 1000, fun _ => 1⟩ handle := by
  rintro ⟨next, handle, hstored, hhandle, hplaced⟩
  have hfive : get_handle_from_type android_header 14 = 5 := by decide
  obtain rfl : handle = 5 := Fin.ext (by omega)
  have hdata : (next.m_sensors 5).data 0 = 1 := hplaced.data 0 (by decide)
  clear hplaced
  obtain rfl := (Processed.stored.inj hstored).symm
  exact absurd hdata (by decide +kernel)

end SensorVhal
