import Mathlib.Algebra.BigOperators.Fin
import SensorVhal.Sensors.Interleaving

namespace SensorVhal

-- What the slot of a handle adds to the events that a poll can report.
def pending_count (device : SensorDevice) (handle : Handle) : Nat :=
  if device.m_pending_sensors.getLsbD handle then
    if (device.m_sensors handle).type = SENSOR_TYPE_META_DATA then
      (device.m_flush_count handle).toNat + 1
    else 1
  else 0

def pending_total (device : SensorDevice) : Nat := ∑ handle, pending_count device handle

-- No bit but those of the nine handles is set.
def OnlySupported (device : SensorDevice) : Prop :=
  ∀ i, device.m_pending_sensors.getLsbD i = true → i < 9

def handles_descending : List Handle := (List.finRange 9).reverse

variable (hdr : SensorsHeader)

-- The entry of `data` that is written for a handle.
def reported_event (device : SensorDevice) (handle : Handle) : SensorsEvent :=
  let event := device.m_sensors handle
  if event.type = SENSOR_TYPE_META_DATA then event
  else { event with sensor := handle.val, version := hdr.sizeof_sensors_event_t }

-- All that is pending, in the order in which polls report it.
def pending_entries (device : SensorDevice) : List (Handle × SensorsEvent) :=
  Mailbox.agenda handles_descending (slot device) (reported_event hdr device)

section Polls

variable {Tid : Type} [DecidableEq Tid]

-- The picking loop that an event comes to: that of a poll that starts with
-- something pending, or of one that has stored the message it waited for.
def Hal.picking (hal : Hal Tid) : HalEvent Tid → Option (Int × SensorDevice)
  | .poll thread count =>
    match hal.polls thread with
    | .idle => if hal.device.m_pending_sensors = 0 then none else some (count, hal.device)
    | _ => none
  | .process thread host_timestamp =>
    match hal.polls thread with
    | .taken count message =>
      match sensor_device_process_event hdr hal.device message host_timestamp with
      | .stored device => some (count, device)
      | _ => none
    | _ => none
  | _ => none

end Polls

variable {hdr}

section Entries

variable {device next : SensorDevice} {i : Handle} {event : SensorsEvent}

theorem weight_slot (device : SensorDevice) (handle : Handle) :
    (slot device handle).weight = pending_count device handle := by
  by_cases hbit : device.m_pending_sensors.getLsbD handle = true <;>
    by_cases htype : (device.m_sensors handle).type = SENSOR_TYPE_META_DATA <;>
    simp [slot, pending_count, hbit, htype, Mailbox.Slot.weight]

theorem handles_descending_sorted : handles_descending.Pairwise (· > ·) := by
  decide

theorem length_pending_entries (hdr : SensorsHeader) (device : SensorDevice) :
    (pending_entries hdr device).length = pending_total device := by
  rw [pending_entries, Mailbox.length_agenda, handles_descending, List.map_reverse,
    List.sum_reverse, ← Fin.sum_univ_def]
  exact Finset.sum_congr rfl fun handle _ => weight_slot device handle

theorem pick_reported
    (hpick : sensor_device_pick_pending_event_locked hdr device = .ok (i, event, next)) :
    event = reported_event hdr device i := by
  obtain ⟨_, ⟨more, hslot, rfl, -⟩ | ⟨hslot, rfl, -⟩ | ⟨type, hslot, rfl, -⟩⟩ := pick_cases hpick
  · exact (if_pos (slot_eq_owed.mp hslot).2.1).symm
  · exact (if_pos (slot_eq_owed.mp hslot).2.1).symm
  · obtain ⟨_, htype, hne⟩ := slot_eq_reading.mp hslot
    exact (if_neg (htype ▸ hne)).symm

-- What stays pending after a pick is reported as before.
theorem reported_of_pick
    (hpick : sensor_device_pick_pending_event_locked hdr device = .ok (i, event, next))
    {other : Handle} (hother : slot next other ≠ .empty) :
    reported_event hdr next other = reported_event hdr device other := by
  have hnext := slot_pick hpick
  obtain ⟨_, ⟨more, hslot, -, rfl⟩ | ⟨hslot, -, rfl⟩ | ⟨type, hslot, -, rfl⟩⟩ := pick_cases hpick
  · rfl
  · have hne : other ≠ i := by
      rintro rfl
      rw [hnext, Function.update_self, hslot] at hother
      exact hother rfl
    simp only [reported_event, Function.update_of_ne hne]
  · rfl

-- Each handle has as many entries as it has events pending.
theorem count_pending_entries (hdr : SensorsHeader) (device : SensorDevice) (handle : Handle) :
    ((pending_entries hdr device).map Prod.fst).count handle = pending_count device handle := by
  rw [pending_entries, Mailbox.count_agenda (by decide), if_pos, weight_slot]
  exact List.mem_reverse.mpr (List.mem_finRange handle)

-- A pick takes the first of the pending entries.
theorem pick_pending_entries
    (hpick : sensor_device_pick_pending_event_locked hdr device = .ok (i, event, next)) :
    pending_entries hdr device = (i, event) :: pending_entries hdr next := by
  have hmem : i ∈ handles_descending := List.mem_reverse.mpr (List.mem_finRange i)
  have hslot : slot device i ≠ .empty := by
    obtain ⟨_, ⟨more, hslot, -⟩ | ⟨hslot, -⟩ | ⟨type, hslot, -⟩⟩ := pick_cases hpick <;>
      rw [hslot] <;> nofun
  rw [pending_entries, pending_entries, slot_pick hpick, pick_reported hpick]
  apply Mailbox.agenda_rest hmem handles_descending_sorted (pick_cases hpick).1 hslot
  rw [← slot_pick hpick]
  exact fun other hother => reported_of_pick hpick hother

end Entries

section Supported

variable {device next : SensorDevice}

theorem pending_eq_zero (h : OnlySupported device) :
    device.m_pending_sensors = 0 ↔ pending_total device = 0 := by
  rw [pending_total, Finset.sum_eq_zero_iff]
  constructor
  · intro hzero handle _
    have hbit : device.m_pending_sensors.getLsbD handle = false := by
      rw [hzero]
      exact BitVec.getLsbD_zero
    simp [pending_count, hbit]
  · intro hnone
    apply BitVec.eq_of_getLsbD_eq
    intro i _
    cases hbit : device.m_pending_sensors.getLsbD i with
    | false => exact BitVec.getLsbD_zero.symm
    | true =>
        have hslot := hnone ⟨i, h i hbit⟩ (Finset.mem_univ _)
        rw [← weight_slot, Mailbox.Slot.weight_eq_zero, slot_eq_empty] at hslot
        exact absurd (hslot.symm.trans hbit) Bool.false_ne_true

theorem OnlySupported.set {pending : BitVec 32} (h : OnlySupported device) (handle : Handle)
    (hpending : pending = device.m_pending_sensors ||| bit handle) (i : Nat)
    (hbit : pending.getLsbD i = true) : i < 9 := by
  rw [hpending, BitVec.getLsbD_or, Bool.or_eq_true] at hbit
  rcases hbit with hbit | hbit
  · exact h i hbit
  · rw [bit, Mask.getLsbD_bit (BitVec.lt_of_getLsbD hbit)] at hbit
    rw [of_decide_eq_true hbit]
    exact handle.isLt

-- A pick sets no bit that was not set.
theorem OnlySupported.pick (h : OnlySupported device) {i : Handle} {event : SensorsEvent}
    (hpick : sensor_device_pick_pending_event_locked hdr device = .ok (i, event, next)) :
    OnlySupported next := by
  have hclear : OnlySupported { device with
      m_pending_sensors := device.m_pending_sensors &&& ~~~(bit i) } := by
    intro j hbit
    rw [BitVec.getLsbD_and, Bool.and_eq_true] at hbit
    exact h j hbit.1
  obtain ⟨_, ⟨more, _, -, rfl⟩ | ⟨_, -, rfl⟩ | ⟨type, _, -, rfl⟩⟩ := pick_cases hpick
  · exact OnlySupported.set hclear i rfl
  · exact hclear
  · exact hclear

theorem OnlySupported.flush (h : OnlySupported device) (handle : Handle) :
    OnlySupported (sensor_device_flush_locked hdr device handle) := by
  unfold sensor_device_flush_locked
  split
  · exact h
  · exact h.set handle rfl

theorem OnlySupported.process (h : OnlySupported device) {message : AicSensorsEvent} {host : Int}
    (hprocess : sensor_device_process_event hdr device message host = .stored next) :
    OnlySupported next := by
  obtain ⟨sensor, _, _, _, hpending, _⟩ := process_cases hprocess
  exact h.set sensor.ID hpending

theorem OnlySupported.pick_ne_error (h : OnlySupported device)
    (hpending : device.m_pending_sensors ≠ 0) (ret : Int) :
    sensor_device_pick_pending_event_locked hdr device ≠ .error ret := by
  intro herror
  apply hpending
  apply (pending_eq_zero h).mpr
  rw [pending_total, Finset.sum_eq_zero_iff]
  intro handle _
  simp [pending_count, pick_error herror handle]

-- The picking loop takes the pending entries from the front, at most `count` of
-- them. The result counts them.
theorem poll_pick_entries (h : OnlySupported device) {count : Nat} {result ret : Int}
    {events : List SensorsEvent}
    (hpick : sensor_device_poll_pick hdr count device result = (events, ret, next)) :
    events = ((pending_entries hdr device).take count).map Prod.snd ∧
      ret = result + events.length ∧
      pending_entries hdr next = (pending_entries hdr device).drop count ∧
      OnlySupported next := by
  induction count generalizing device result events ret next with
  | zero =>
      obtain ⟨rfl, rfl, rfl⟩ := hpick
      exact ⟨rfl, (Int.add_zero _).symm, rfl, h⟩
  | succ count ih =>
      unfold sensor_device_poll_pick at hpick
      split at hpick
      · rename_i hnone
        obtain ⟨rfl, rfl, rfl⟩ := hpick
        have hempty : pending_entries hdr device = [] := by
          apply List.eq_nil_of_length_eq_zero
          rw [length_pending_entries]
          exact (pending_eq_zero h).mp hnone
        rw [hempty]
        exact ⟨rfl, (Int.add_zero _).symm, rfl, h⟩
      · rename_i hpending
        split at hpick
        · rename_i ret' herror
          exact absurd herror (h.pick_ne_error hpending ret')
        · rename_i i event middle hone
          obtain ⟨rfl, rfl, rfl⟩ := hpick
          obtain ⟨hevents, hret, hleft, hsupported⟩ := ih (h.pick hone) rfl
          rw [pick_pending_entries hone]
          refine ⟨?_, ?_, hleft, hsupported⟩
          · rw [hevents]
            rfl
          · rw [hret, List.length_cons]
            omega

end Supported

section Polls

variable {Tid : Type} [DecidableEq Tid] {hal : Hal Tid} {event : HalEvent Tid} {count : Int}
  {device : SensorDevice}

-- A poll that comes to its picking loop has something to pick, and returns.
theorem Hal.picking_cases (h : hal.picking hdr event = some (count, device)) :
    device.m_pending_sensors ≠ 0 ∧ ∃ thread, ∃ start : Hal Tid,
      start.history.returned = hal.history.returned ∧
      hal.step hdr event = some (start.poll_return hdr thread count device) := by
  cases event with
  | poll thread count' =>
      simp only [picking] at h
      split at h
      · rename_i hpc
        split at h
        · cases h
        · rename_i hpending
          cases h
          refine ⟨hpending, thread, hal, rfl, ?_⟩
          simp only [step, hpc, if_neg hpending]
      · cases h
  | process thread host =>
      simp only [picking] at h
      split at h
      · rename_i hpc
        split at h
        · rename_i hprocess
          cases h
          obtain ⟨sensor, _, _, _, hbits, _⟩ := process_cases hprocess
          refine ⟨fun hzero => ?_, thread, hal.lay_down thread, rfl, ?_⟩
          · have hbit : device.m_pending_sensors.getLsbD sensor.ID = true := by
              rw [hbits, getLsbD_set]
              simp
            rw [hzero] at hbit
            exact Bool.false_ne_true (BitVec.getLsbD_zero.symm.trans hbit)
          · simp only [step, hpc, hprocess]
        · cases h
      · cases h
  | _ => cases h

-- A poll returns exactly what is pending, up to `count`, from the highest handle
-- down, and leaves the rest.
theorem poll_reports_pending (hdr : SensorsHeader) (hal : Hal Tid) (event : HalEvent Tid)
    (count : Int) (device : SensorDevice)
    (hpicking : hal.picking hdr event = some (count, device)) (hcount : 1 ≤ count)
    (hbits : OnlySupported device) :
    1 ≤ pending_total device ∧ ∃ events ret next, hal.step hdr event = some next ∧
      sensor_device_poll_pick hdr count.toNat device 0 = (events, ret, next.device) ∧
      next.history.returned = hal.history.returned ++ events ∧
      ret = min count (pending_total device) ∧ ret = events.length ∧ 0 < ret ∧ ret ≤ count ∧
      events = ((pending_entries hdr device).take count.toNat).map Prod.snd ∧
      ((pending_entries hdr device).map Prod.fst).Pairwise (· ≥ ·) ∧
      (∀ handle, ((pending_entries hdr device).map Prod.fst).count handle =
        pending_count device handle) ∧
      (pending_total next.device : Int) = pending_total device - ret ∧
      (next.device.m_pending_sensors = 0 ↔ (pending_total device : Int) ≤ count) := by
  obtain ⟨hpending, thread, start, hstart, hstep⟩ := Hal.picking_cases hpicking
  obtain ⟨events, ret, hpick, _, _, _, _, hreturned⟩ :=
    Hal.poll_return_spec hdr start thread count device
  obtain ⟨hevents, hret, hleft, hsupported⟩ := poll_pick_entries hbits hpick
  have htotal := length_pending_entries hdr device
  have hsome : pending_total device ≠ 0 := (pending_eq_zero hbits).not.mp hpending
  have hlength : events.length = min count.toNat (pending_total device) := by
    rw [hevents, List.length_map, List.length_take, htotal]
  have hrest : pending_total (start.poll_return hdr thread count device).device =
      pending_total device - count.toNat := by
    rw [← length_pending_entries hdr, hleft, List.length_drop, htotal]
  refine ⟨by omega, events, ret, _, hstep, hpick, ?_, by omega, by omega, by omega, by omega,
    hevents, Mailbox.agenda_sorted handles_descending_sorted, count_pending_entries hdr device,
    by omega, ?_⟩
  · rw [hreturned, hstart]
  · rw [pending_eq_zero hsupported, hrest]
    omega

-- Two flushes of the temperature sensor and one of the accelerometer, of which a
-- poll reports the first two.
theorem poll_reports_pending_flushes :
    let device := [8, 0, 8].foldl (sensor_device_flush_locked android_header)
      (.init (fun _ => default) 50)
    let hal : Hal Unit := { Hal.init (fun _ => default) 50 with device := device }
    1 ≤ pending_total device ∧
      ∃ events ret next, hal.step android_header (.poll () 2) = some next ∧
      sensor_device_poll_pick android_header 2 device 0 = (events, ret, next.device) ∧
      next.history.returned = hal.history.returned ++ events ∧
      ret = min (2 : Int) (pending_total device) ∧ ret = events.length ∧ 0 < ret ∧ ret ≤ 2 ∧
      events = ((pending_entries android_header device).take 2).map Prod.snd ∧
      ((pending_entries android_header device).map Prod.fst).Pairwise (· ≥ ·) ∧
      (∀ handle, ((pending_entries android_header device).map Prod.fst).count handle =
        pending_count device handle) ∧
      (pending_total next.device : Int) = pending_total device - ret ∧
      (next.device.m_pending_sensors = 0 ↔ (pending_total device : Int) ≤ 2) := by
  intro device hal
  have hbits : OnlySupported device := by
    intro i hbit
    have hpending : device.m_pending_sensors = 257#32 := by decide
    rw [hpending] at hbit
    have hlt := BitVec.lt_of_getLsbD hbit
    have hall : ∀ j : Fin 32, (257#32).getLsbD j.val = true → j.val < 9 := by decide
    exact hall ⟨i, hlt⟩ hbit
  exact poll_reports_pending android_header hal (.poll () 2) 2 device rfl (by decide) hbits

end Polls

end SensorVhal
