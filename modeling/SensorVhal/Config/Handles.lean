import SensorVhal.Config.Success
import SensorVhal.Sensors.Pending

namespace SensorVhal

-- The entry points that take a handle. A configuration call comes with the result
-- of sensor_device_send_config_msg, if it gets to it, and the errno after it.
inductive DeviceCall
  | flush (handle : Int)
  | config (call : ConfigCall) (ret errno : Int)

def DeviceCall.handle : DeviceCall → Int
  | flush handle => handle
  | config call _ _ => call.handle

-- A call returns, or it uses its handle as an index or a shift amount that is out
-- of range.
inductive CallOutcome
  | returned (ret : Int) (device : SensorDevice)
  | out_of_range

def SensorDevice.call (hdr : SensorsHeader) (device : SensorDevice) : DeviceCall → CallOutcome
  | .flush handle =>
    match sensor_device_flush hdr device handle with
    | some device => .returned 0 device
    | none => .out_of_range
  | .config call ret errno =>
    let configured := call.configure hdr device.m_sensor_config_status
    match configured with
    | .returned ret => .returned ret device
    | .stored _ status _ =>
      .returned (configured.result ret errno) { device with m_sensor_config_status := status }

variable {Tid : Type} [DecidableEq Tid]

-- The HAL with calls that may have any handle, what its polls returned, and
-- whether a handle was used out of range.
structure Entries (Tid : Type) where
  hal : Hal Tid
  polled : List Int
  out_of_range : Bool

inductive EntryEvent (Tid : Type)
  | call (call : DeviceCall)
  | hal (event : HalEvent Tid)

def Entries.init (memory : Handle → SensorsEvent) (log_trace_count : Int) : Entries Tid :=
  ⟨.init memory log_trace_count, [], false⟩

section Step

variable (hdr : SensorsHeader)

-- What sensor_device_poll returns, where an event makes one return.
def Hal.poll_result (hal : Hal Tid) (event : HalEvent Tid) : Option Int :=
  (hal.picking hdr event).map fun (count, device) =>
    (sensor_device_poll_pick hdr count.toNat device 0).2.1

-- Flushes are among the calls. Nothing is said about the program behind an access
-- that is out of range.
def Entries.step (x : Entries Tid) (event : EntryEvent Tid) : Option (Entries Tid) :=
  if x.out_of_range then none
  else
    match event with
    | .call call =>
      match x.hal.device.call hdr call with
      | .returned _ device => some { x with hal := { x.hal with device := device } }
      | .out_of_range => some { x with out_of_range := true }
    | .hal (.flush _) => none
    | .hal event =>
      (x.hal.step hdr event).map fun hal =>
        { x with hal := hal, polled := x.polled ++ (x.hal.poll_result hdr event).toList }

-- A call with a handle that is no sensor's returns -EINVAL and changes nothing.
def Entries.Rejects (x : Entries Tid) (event : EntryEvent Tid) : Prop :=
  ∀ call, event = .call call → ¬ (0 ≤ call.handle ∧ call.handle < 9) →
    x.hal.device.call hdr call = .returned (-EINVAL) x.hal.device

-- Every flush is of a sensor.
def Entries.FlushesSensor (_ : Entries Tid) (event : EntryEvent Tid) : Prop :=
  ∀ handle, event = .call (.flush handle) → 0 ≤ handle ∧ handle < 9

end Step

-- No unsupported bit is pending, no handle was used out of range, and no poll has
-- reported -EINVAL.
structure Entries.Unharmed (x : Entries Tid) : Prop where
  supported : OnlySupported x.hal.device
  in_range : x.out_of_range = false
  polled : -EINVAL ∉ x.polled

variable {hdr : SensorsHeader}

section Calls

variable {device next : SensorDevice}

theorem flush_unknown {handle : Int} (h : ¬ (0 ≤ handle ∧ handle < 9)) :
    device.call hdr (.flush handle) = .out_of_range := by
  simp only [SensorDevice.call, sensor_device_flush, dif_neg h]

-- The other three check their handle first.
theorem config_unknown {call : ConfigCall} (h : ¬ (0 ≤ call.handle ∧ call.handle < 9))
    (ret errno : Int) :
    device.call hdr (.config call ret errno) = .returned (-EINVAL) device := by
  rcases call.configure_cases hdr device.m_sensor_config_status with
    ⟨_, hreturned⟩ | ⟨handle, hhandle, _⟩
  · simp only [SensorDevice.call, hreturned]
  · exact absurd ⟨by omega, by omega⟩ h

theorem onlySupported_call (h : OnlySupported device) {call : DeviceCall} {ret : Int}
    (hcall : device.call hdr call = .returned ret next) : OnlySupported next := by
  cases call with
  | flush handle =>
      simp only [SensorDevice.call, sensor_device_flush] at hcall
      split at hcall
      · rename_i hflush
        split at hflush
        · cases hcall
          cases hflush
          exact h.flush _
        · cases hflush
      · cases hcall
  | config call ret errno =>
      simp only [SensorDevice.call] at hcall
      split at hcall <;> cases hcall
      · exact h
      · exact h

theorem not_out_of_range {call : DeviceCall}
    (h : ∀ handle, call = .flush handle → 0 ≤ handle ∧ handle < 9) :
    device.call hdr call ≠ .out_of_range := by
  cases call with
  | flush handle => simp [SensorDevice.call, sensor_device_flush, h handle rfl]
  | config call ret errno =>
      simp only [SensorDevice.call]
      split
      · intro hout
        cases hout
      · intro hout
        cases hout

end Calls

section Polls

variable {hal next : Hal Tid} {event : HalEvent Tid}

theorem onlySupported_poll_return (h : OnlySupported device) (hal : Hal Tid) (thread : Tid)
    (count : Int) : OnlySupported (hal.poll_return hdr thread count device).device :=
  (poll_pick_entries h rfl).2.2.2

theorem Hal.onlySupported_step (h : OnlySupported hal.device)
    (hstep : hal.step hdr event = some next) : OnlySupported next.device := by
  cases Hal.moves_of_step hstep with
  | flush handle => exact h.flush handle
  | report thread count hpc hsome => exact onlySupported_poll_return h hal thread count
  | store thread host count message device hpc hprocess =>
      exact onlySupported_poll_return (h.process hprocess) (hal.lay_down thread) thread count
  | _ => exact h

omit [DecidableEq Tid] in
theorem Hal.onlySupported_picking (h : OnlySupported hal.device) {count : Int}
    {device : SensorDevice} (hpicking : hal.picking hdr event = some (count, device)) :
    OnlySupported device := by
  cases event with
  | poll thread count' =>
      simp only [picking] at hpicking
      split at hpicking
      · split at hpicking <;> cases hpicking
        exact h
      · cases hpicking
  | process thread host =>
      simp only [picking] at hpicking
      split at hpicking
      · split at hpicking <;> cases hpicking
        exact h.process ‹_›
      · cases hpicking
  | _ => cases hpicking

-- Without unsupported bits a poll counts what it has written.
omit [DecidableEq Tid] in
theorem Hal.poll_result_nonneg (h : OnlySupported hal.device) {ret : Int}
    (hresult : hal.poll_result hdr event = some ret) : 0 ≤ ret := by
  obtain ⟨⟨count, device⟩, hpicking, rfl⟩ := Option.map_eq_some_iff.mp hresult
  obtain ⟨events, ret, next, hpick⟩ : ∃ events ret next,
      sensor_device_poll_pick hdr count.toNat device 0 = (events, ret, next) := ⟨_, _, _, rfl⟩
  obtain ⟨_, hret, _⟩ := poll_pick_entries (onlySupported_picking h hpicking) hpick
  show 0 ≤ (sensor_device_poll_pick hdr count.toNat device 0).2.1
  rw [hpick]
  show 0 ≤ ret
  omega

end Polls

section Runs

variable {x next : Entries Tid} {event : EntryEvent Tid}

theorem Entries.unharmed_hal {event : HalEvent Tid} {hal : Hal Tid} (h : x.Unharmed)
    (hstep : x.hal.step hdr event = some hal) : Entries.Unharmed
      { x with hal := hal, polled := x.polled ++ (x.hal.poll_result hdr event).toList } := by
  refine ⟨Hal.onlySupported_step h.supported hstep, h.in_range, fun hmem => ?_⟩
  rcases List.mem_append.mp hmem with hold | hnew
  · exact h.polled hold
  · have hnonneg := Hal.poll_result_nonneg h.supported (Option.mem_toList.mp hnew)
    exact absurd hnonneg (by decide)

theorem Entries.unharmed_step (h : x.Unharmed) (hcond : x.FlushesSensor event)
    (hstep : x.step hdr event = some next) : next.Unharmed := by
  have hrange : ¬ x.out_of_range = true := by simp [h.in_range]
  cases event with
  | call call =>
      simp only [step, if_neg hrange] at hstep
      split at hstep
      · rename_i hcall
        cases hstep
        exact ⟨onlySupported_call h.supported hcall, h.in_range, h.polled⟩
      · rename_i hcall
        refine absurd hcall (not_out_of_range fun handle hflush => ?_)
        exact hcond handle (congrArg EntryEvent.call hflush)
  | hal event =>
      simp only [step, if_neg hrange] at hstep
      cases event with
      | flush handle => cases hstep
      | _ =>
          obtain ⟨hal, hhal, rfl⟩ := Option.map_eq_some_iff.mp hstep
          exact unharmed_hal h hhal

omit [DecidableEq Tid] in
theorem Entries.rejects_iff : x.Rejects hdr event ↔ x.FlushesSensor event := by
  constructor
  · rintro hrejects handle rfl
    by_contra hunknown
    have hcall := hrejects _ rfl hunknown
    rw [flush_unknown hunknown] at hcall
    cases hcall
  · rintro hcond call rfl hunknown
    cases call with
    | flush handle => exact absurd (hcond handle rfl) hunknown
    | config call ret errno => exact config_unknown hunknown ret errno

omit [DecidableEq Tid] in
theorem Entries.unharmed_init (memory : Handle → SensorsEvent) (log_trace_count : Int) :
    (Entries.init memory log_trace_count : Entries Tid).Unharmed := by
  refine ⟨fun i hbit => ?_, rfl, List.not_mem_nil⟩
  exact absurd (BitVec.getLsbD_zero.symm.trans hbit) Bool.false_ne_true

-- Along a run bad handles are rejected, and do no harm, exactly when no flush has
-- one.
theorem bad_handles_rejected_iff (hdr : SensorsHeader) (memory : Handle → SensorsEvent)
    (log_trace_count : Int) (events : List (EntryEvent Tid)) :
    Machine.Along (Entries.step hdr) (fun x event => x.Rejects hdr event ∧
        ∀ next, x.step hdr event = some next → next.Unharmed)
        (Entries.init memory log_trace_count) events ↔
      Machine.Along (Entries.step hdr) Entries.FlushesSensor
        (Entries.init memory log_trace_count) events := by
  constructor
  · intro hsafe
    exact hsafe.of_invariant (I := fun _ => True) (fun _ _ _ _ _ _ => trivial)
      (fun _ _ _ hcond => Entries.rejects_iff.mp hcond.1) trivial
  · intro hflushes
    refine hflushes.of_invariant (I := Entries.Unharmed)
      (fun _ _ _ h hcond hstep => Entries.unharmed_step h hcond hstep) ?_
      (Entries.unharmed_init memory log_trace_count)
    intro x event h hcond
    exact ⟨Entries.rejects_iff.mpr hcond, fun next hstep => Entries.unharmed_step h hcond hstep⟩

-- A flush of handle 9, which activate, batch and set_delay would all refuse.
theorem flush_nine_accepted :
    ¬ Machine.Along (Entries.step android_header) (fun x event => x.Rejects android_header event ∧
        ∀ next, x.step android_header event = some next → next.Unharmed)
      (Entries.init (fun _ => default) 50 : Entries Unit) [.call (.flush 9)] := by
  rintro ⟨⟨hrejects, _⟩, _⟩
  have hcall := hrejects (.flush 9) rfl (by decide)
  rw [flush_unknown (by decide)] at hcall
  cases hcall

end Runs

end SensorVhal
