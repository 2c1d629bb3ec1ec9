import SensorVhal.Sensors.Timestamps

namespace SensorVhal

def INT64_MAX : Int := 9223372036854775807

def INT64_MIN : Int := -9223372036854775808

def InInt64 (value : Int) : Prop := INT64_MIN ≤ value ∧ value ≤ INT64_MAX

instance : DecidablePred InInt64 := fun _ => inferInstanceAs (Decidable (_ ∧ _))

-- What one message left behind: its own timestamp, the host clock at which it
-- was looked at, and the timestamp found in its slot afterwards.
structure Stamp where
  remote : Int
  host : Int
  timestamp : Int
  deriving DecidableEq

variable {Tid : Type} [DecidableEq Tid]

-- The HAL with the stamps of the messages so far, which the program does not read.
structure Stamped (Tid : Type) where
  hal : Hal Tid
  stamps : List Stamp

def Stamped.init (memory : Handle → SensorsEvent) (log_trace_count : Int) : Stamped Tid :=
  ⟨.init memory log_trace_count, []⟩

section Events

variable (hdr : SensorsHeader)

def Hal.stamp (hal next : Hal Tid) (event : HalEvent Tid) : Option Stamp :=
  (hal.storing hdr event).map fun message =>
    ⟨message.remote, message.host, (next.device.m_sensors message.handle).timestamp⟩

def Stamped.step (x : Stamped Tid) (event : HalEvent Tid) : Option (Stamped Tid) :=
  (x.hal.step hdr event).map fun hal => ⟨hal, x.stamps ++ (x.hal.stamp hdr hal event).toList⟩

end Events

-- The timestamp of a message moved by the offset that the first one fixed.
def Stamp.moved (first stamp : Stamp) : Int := stamp.remote + (first.host - first.remote)

variable {hdr : SensorsHeader}

section Slots

variable {device next : SensorDevice}

theorem pick_timestamp {i : Handle} {event : SensorsEvent}
    (hpick : sensor_device_pick_pending_event_locked hdr device = .ok (i, event, next))
    (handle : Handle) :
    (next.m_sensors handle).timestamp = (device.m_sensors handle).timestamp := by
  obtain ⟨_, ⟨more, _, -, rfl⟩ | ⟨_, -, rfl⟩ | ⟨type, _, -, rfl⟩⟩ := pick_cases hpick
  · rfl
  · by_cases hi : handle = i
    · subst handle
      simp only [Function.update_self]
    · simp only [Function.update_of_ne hi]
  · rfl

-- Picking events leaves the timestamps in the slots.
theorem poll_pick_timestamp {count : Nat} {result ret : Int} {events : List SensorsEvent}
    (hpick : sensor_device_poll_pick hdr count device result = (events, ret, next))
    (handle : Handle) :
    (next.m_sensors handle).timestamp = (device.m_sensors handle).timestamp := by
  induction count generalizing device result events ret next with
  | zero =>
      obtain ⟨-, -, rfl⟩ := hpick
      rfl
  | succ count ih =>
      unfold sensor_device_poll_pick at hpick
      split at hpick
      · obtain ⟨-, -, rfl⟩ := hpick
        rfl
      · split at hpick
        · obtain ⟨-, -, rfl⟩ := hpick
          rfl
        · rename_i i event middle hone
          obtain ⟨-, -, rfl⟩ := hpick
          rw [ih rfl, pick_timestamp hone]

end Slots

section Step

variable {x next : Stamped Tid} {event : HalEvent Tid}

-- The fields of the device that the alignment reads.
def SameClock (device next : SensorDevice) : Prop :=
  next.m_time_start = device.m_time_start ∧ next.m_time_offset = device.m_time_offset

theorem sameClock_of_frame {device next : SensorDevice}
    (h : ∃ pending flush_count sensors, next = { device with
      m_pending_sensors := pending, m_flush_count := flush_count, m_sensors := sensors }) :
    SameClock device next := by
  obtain ⟨_, _, _, rfl⟩ := h
  exact ⟨rfl, rfl⟩

-- A step leaves the clock fields and the stamps, or it stores a message.
theorem Stamped.step_cases (h : x.step hdr event = some next) :
    (x.hal.storing hdr event = none ∧ next.stamps = x.stamps ∧
      SameClock x.hal.device next.hal.device) ∨
    ∃ sensor message host device,
      x.hal.storing hdr event = some (stored_message x.hal.device sensor message host) ∧
      sensor_device_process_event hdr x.hal.device message host = .stored device ∧
      SameClock device next.hal.device ∧
      next.stamps = x.stamps ++
        [⟨message.timestamp, host, (stored_message x.hal.device sensor message host).timestamp⟩] := by
  obtain ⟨hal, hhal, rfl⟩ := Option.map_eq_some_iff.mp h
  have hnone : x.stamps ++ [] = x.stamps := List.append_nil _
  cases Hal.moves_of_step hhal with
  | flush handle => exact .inl ⟨rfl, hnone, sameClock_of_frame (flush_frame hdr _ handle)⟩
  | arrive message => exact .inl ⟨rfl, hnone, rfl, rfl⟩
  | connection connected => exact .inl ⟨rfl, hnone, rfl, rfl⟩
  | block thread count hpc hnone' => exact .inl ⟨rfl, hnone, rfl, rfl⟩
  | report thread count hpc hsome =>
      exact .inl ⟨rfl, hnone, sameClock_of_frame (poll_pick_frame hdr count.toNat _ 0)⟩
  | wake thread count hpc => exact .inl ⟨rfl, hnone, rfl, rfl⟩
  | take thread count message queue hpc hqueue => exact .inl ⟨rfl, hnone, rfl, rfl⟩
  | again thread host count message hpc hprocess =>
      have hstoring : x.hal.storing hdr (.process thread host) = none := by
        simp only [Hal.storing, hpc, process_again hprocess, Option.map_none]
      refine .inl ⟨hstoring, ?_, rfl, rfl⟩
      simp only [Hal.stamp, hstoring]
      exact hnone
  | store thread host count message device hpc hprocess =>
      obtain ⟨sensor, hsensor, _⟩ := slot_process hprocess
      have hstoring : x.hal.storing hdr (.process thread host) =
          some (stored_message x.hal.device sensor message host) := by
        simp only [Hal.storing, hpc, hsensor, Option.map_some]
      refine .inr ⟨sensor, message, host, device, hstoring, hprocess,
        sameClock_of_frame (poll_pick_frame hdr count.toNat device 0), ?_⟩
      obtain ⟨_, _, hpick, _⟩ :=
        Hal.poll_return_spec hdr (x.hal.lay_down thread) thread count device
      have hkept := poll_pick_timestamp hpick sensor.ID
      simp only [Hal.stamp, hstoring, Option.map_some, Option.toList_some]
      rw [← process_timestamp hsensor hprocess, ← hkept]
      rfl

end Step

section Invariant

-- The first message has fixed the clock fields, and every message has got its
-- timestamp by them.
structure Stamped.Fixed (first : Stamp) (x : Stamped Tid) : Prop where
  start : x.hal.device.m_time_start = first.host
  offset : x.hal.device.m_time_offset = first.host - first.remote
  stamps : ∀ stamp ∈ x.stamps, stamp.timestamp = min (first.moved stamp) stamp.host

-- A host clock at 0 at the first message would leave it to the second one.
def Stamped.FirstFixes (x : Stamped Tid) : Prop :=
  (x.stamps = [] → x.hal.device.m_time_start = 0) ∧
    ∀ first, x.stamps.head? = some first → first.host ≠ 0 → x.Fixed first

variable {x next : Stamped Tid} {event : HalEvent Tid}

theorem StoredMessage.timestamp_eq_min (message : StoredMessage) :
    message.timestamp = min message.aligned message.host := by
  rw [StoredMessage.timestamp]
  split <;> omega

omit [DecidableEq Tid] in
theorem Stamped.firstFixes_init (memory : Handle → SensorsEvent) (log_trace_count : Int) :
    (Stamped.init memory log_trace_count : Stamped Tid).FirstFixes :=
  ⟨fun _ => rfl, nofun⟩

omit [DecidableEq Tid] in
theorem Stamped.FirstFixes.keep (h : x.FirstFixes) (hstamps : next.stamps = x.stamps)
    (hclock : SameClock x.hal.device next.hal.device) : next.FirstFixes := by
  obtain ⟨hstart, hoffset⟩ := hclock
  rw [FirstFixes, hstamps, hstart]
  refine ⟨h.1, fun first hfirst hhost => ?_⟩
  have hfixed := h.2 first hfirst hhost
  exact ⟨hstart.trans hfixed.start, hoffset.trans hfixed.offset, hstamps ▸ hfixed.stamps⟩

-- The first message gets the host clock, and a later one is moved by the offset.
omit [DecidableEq Tid] in
theorem Stamped.FirstFixes.store (h : x.FirstFixes) {sensor : Sensor} {message : AicSensorsEvent}
    {host : Int} {device : SensorDevice}
    (hprocess : sensor_device_process_event hdr x.hal.device message host = .stored device)
    (hclock : SameClock device next.hal.device) (hstamps : next.stamps = x.stamps ++
      [⟨message.timestamp, host, (stored_message x.hal.device sensor message host).timestamp⟩]) :
    next.FirstFixes := by
  obtain ⟨hstart, hoffset, hkept⟩ := process_offset hprocess
  have hmin : (stored_message x.hal.device sensor message host).timestamp =
      min (aligned_timestamp x.hal.device message host) host := StoredMessage.timestamp_eq_min _
  rw [aligned_timestamp] at hmin hoffset
  refine ⟨fun hnil => ?_, fun first hfirst hhost => ?_⟩
  · rw [hstamps] at hnil
    exact absurd hnil (List.append_ne_nil_of_right_ne_nil _ (List.cons_ne_nil _ _))
  · cases hold : x.stamps with
    | nil =>
        have hzero := h.1 hold
        rw [hstamps, hold] at hfirst
        obtain rfl := Option.some.inj hfirst
        rw [if_pos hzero] at hstart hoffset hmin
        refine ⟨hclock.1.trans hstart, ?_, ?_⟩
        · rw [hclock.2]
          show device.m_time_offset = host - message.timestamp
          omega
        · rw [hstamps, hold]
          intro stamp hstamp
          rw [List.mem_singleton.mp hstamp]
          exact hmin
    | cons earlier rest =>
        have hsame : first = earlier := by
          rw [hstamps, hold] at hfirst
          exact (Option.some.inj hfirst).symm
        subst hsame
        have hfixed := h.2 first (congrArg List.head? hold) hhost
        have hne : x.hal.device.m_time_start ≠ 0 := by
          rw [hfixed.start]
          exact hhost
        rw [if_neg hne, hfixed.offset] at hmin
        rw [if_neg hne, hfixed.start] at hstart
        refine ⟨hclock.1.trans hstart, ?_, ?_⟩
        · rw [hclock.2, hkept hne]
          exact hfixed.offset
        · rw [hstamps]
          intro stamp hstamp
          rcases List.mem_append.mp hstamp with hearlier | hnew
          · exact hfixed.stamps stamp hearlier
          · rw [List.mem_singleton.mp hnew]
            exact hmin

theorem Stamped.firstFixes_step (h : x.FirstFixes) (hstep : x.step hdr event = some next) :
    next.FirstFixes := by
  rcases step_cases hstep with ⟨_, hstamps, hclock⟩ |
    ⟨sensor, message, host, device, _, hprocess, hclock, hstamps⟩
  · exact h.keep hstamps hclock
  · exact h.store hprocess hclock hstamps

end Invariant

section Timestamps

-- Every message gets the smaller of its own timestamp, moved by the offset of the
-- first message, and the host clock.
theorem timestamps_aligned (hdr : SensorsHeader) (memory : Handle → SensorsEvent)
    (log_trace_count : Int) (events : List (HalEvent Tid)) (x : Stamped Tid)
    (hrun : Machine.run (Stamped.step hdr) (Stamped.init memory log_trace_count) events = some x)
    (first : Stamp) (hfirst : x.stamps.head? = some first) (hhost : first.host ≠ 0)
    (hclock : (x.stamps.map Stamp.host).Pairwise (· ≤ ·)) :
    (∀ stamp ∈ x.stamps, stamp.timestamp =
      min (stamp.remote + (first.host - first.remote)) stamp.host) ∧
    first.timestamp = first.host ∧
    (∀ stamp ∈ x.stamps, stamp.timestamp ≤ stamp.host) ∧
    (∀ stamp ∈ x.stamps, ∀ other ∈ x.stamps, first.moved stamp ≤ stamp.host →
      first.moved other ≤ other.host →
      stamp.timestamp - other.timestamp = stamp.remote - other.remote) ∧
    ((x.stamps.map Stamp.remote).Pairwise (· ≤ ·) →
      (x.stamps.map Stamp.timestamp).Pairwise (· ≤ ·)) := by
  have hfixes : x.FirstFixes := Machine.invariant_always
    (fun _ _ _ h hstep => Stamped.firstFixes_step h hstep)
    (Stamped.firstFixes_init memory log_trace_count) hrun
  have hmin := (hfixes.2 first hfirst hhost).stamps
  simp only [Stamp.moved] at hmin ⊢
  refine ⟨hmin, ?_, ?_, ?_, ?_⟩
  · have hown := hmin first (List.mem_of_mem_head? hfirst)
    omega
  · intro stamp hstamp
    have hown := hmin stamp hstamp
    omega
  · intro stamp hstamp other hother hle hle'
    have hown := hmin stamp hstamp
    have hown' := hmin other hother
    omega
  · rw [List.pairwise_map] at hclock ⊢
    rw [List.pairwise_map]
    intro hremote
    refine (hclock.and hremote).imp_of_mem ?_
    intro stamp other hstamp hother ⟨hhosts, hremotes⟩
    have hown := hmin stamp hstamp
    have hown' := hmin other hother
    omega

-- A light reading between two of the accelerometer, the last of which is ahead of
-- the host clock.
theorem timestamps_aligned_two_sensors :
    ∃ x, Machine.run (Stamped.step android_header)
        (Stamped.init (fun _ => default) 50 : Stamped Unit)
        [.connection true, .arrive ⟨1, 3, 1000000, fun _ => 0⟩, .poll () 1, .take (),
          .process () 5000, .arrive ⟨5, 1, 1000700, fun _ => 0⟩, .poll () 1, .take (),
          .process () 6000, .arrive ⟨1, 3, 1009000, fun _ => 0⟩, .poll () 1, .take (),
          .process () 7000] = some x ∧
      (∀ stamp ∈ x.stamps, stamp.timestamp = min (stamp.remote + (5000 - 1000000)) stamp.host) ∧
      (⟨1000000, 5000, 5000⟩ : Stamp).timestamp = 5000 ∧
      (∀ stamp ∈ x.stamps, stamp.timestamp ≤ stamp.host) ∧
      (∀ stamp ∈ x.stamps, ∀ other ∈ x.stamps,
        Stamp.moved ⟨1000000, 5000, 5000⟩ stamp ≤ stamp.host →
        Stamp.moved ⟨1000000, 5000, 5000⟩ other ≤ other.host →
        stamp.timestamp - other.timestamp = stamp.remote - other.remote) ∧
      ((x.stamps.map Stamp.remote).Pairwise (· ≤ ·) →
        (x.stamps.map Stamp.timestamp).Pairwise (· ≤ ·)) := by
  obtain ⟨x, hrun, hstamps⟩ : ∃ x, Machine.run (Stamped.step android_header)
        (Stamped.init (fun _ => default) 50 : Stamped Unit)
        [.connection true, .arrive ⟨1, 3, 1000000, fun _ => 0⟩, .poll () 1, .take (),
          .process () 5000, .arrive ⟨5, 1, 1000700, fun _ => 0⟩, .poll () 1, .take (),
          .process () 6000, .arrive ⟨1, 3, 1009000, fun _ => 0⟩, .poll () 1, .take (),
          .process () 7000] = some x ∧
      x.stamps = [⟨1000000, 5000, 5000⟩, ⟨1000700, 6000, 5700⟩, ⟨1009000, 7000, 7000⟩] :=
    Option.map_eq_some_iff.mp (by decide +kernel)
  refine ⟨x, hrun, timestamps_aligned android_header _ 50 _ x hrun ⟨1000000, 5000, 5000⟩ ?_ ?_ ?_⟩
  · rw [hstamps]
    rfl
  · decide
  · rw [hstamps]
    decide

end Timestamps

section Overflow

variable (hdr : SensorsHeader)

-- What the socket and the host clock can give.
def Stamped.Given (x : Stamped Tid) (event : HalEvent Tid) : Prop :=
  ∀ message ∈ x.hal.storing hdr event,
    InInt64 message.remote ∧ 1 ≤ message.host ∧ message.host ≤ 4611686018427387904

-- The difference, where it is computed, and the sum stay within int64_t.
def Stamped.AlignsInRange (x : Stamped Tid) (event : HalEvent Tid) : Prop :=
  ∀ message ∈ x.hal.storing hdr event,
    (x.hal.device.m_time_start = 0 → InInt64 (message.host - message.remote)) ∧
      InInt64 message.aligned

-- The first message is not too far behind the host clock, and a later one is
-- not too far from the first.
def Stamped.NearFirst (x : Stamped Tid) (event : HalEvent Tid) : Prop :=
  ∀ message ∈ x.hal.storing hdr event,
    match x.stamps.head? with
    | none => message.host - INT64_MAX ≤ message.remote
    | some first => INT64_MIN - first.host ≤ message.remote - first.remote ∧
        message.remote - first.remote ≤ INT64_MAX - first.host

instance (x : Stamped Tid) (event : HalEvent Tid) : Decidable (x.Given hdr event) :=
  inferInstanceAs (Decidable (∀ message ∈ x.hal.storing hdr event, _))

instance (x : Stamped Tid) (event : HalEvent Tid) : Decidable (x.AlignsInRange hdr event) :=
  inferInstanceAs (Decidable (∀ message ∈ x.hal.storing hdr event, _))

instance (x : Stamped Tid) (event : HalEvent Tid) : Decidable (x.NearFirst hdr event) :=
  match hfirst : x.stamps.head? with
  | none => decidable_of_iff (∀ message ∈ x.hal.storing hdr event,
      message.host - INT64_MAX ≤ message.remote) (by simp only [Stamped.NearFirst, hfirst])
  | some first => decidable_of_iff (∀ message ∈ x.hal.storing hdr event,
      INT64_MIN - first.host ≤ message.remote - first.remote ∧
        message.remote - first.remote ≤ INT64_MAX - first.host)
      (by simp only [Stamped.NearFirst, hfirst])

variable {hdr} {x next : Stamped Tid} {event : HalEvent Tid}

-- The clock fields are those of the first message, whose host clock was not 0.
def Stamped.Started (x : Stamped Tid) : Prop :=
  x.FirstFixes ∧ ∀ first, x.stamps.head? = some first → first.host ≠ 0

theorem Stamped.started_step (h : x.Started) (hgiven : x.Given hdr event)
    (hstep : x.step hdr event = some next) : next.Started := by
  refine ⟨firstFixes_step h.1 hstep, ?_⟩
  rcases step_cases hstep with ⟨_, hstamps, _⟩ |
    ⟨sensor, message, host, device, hstoring, _, _, hstamps⟩
  · rw [hstamps]
    exact h.2
  · intro first hfirst
    cases hold : x.stamps with
    | nil =>
        rw [hstamps, hold] at hfirst
        obtain rfl := Option.some.inj hfirst
        have hpos : 1 ≤ host := (hgiven _ hstoring).2.1
        show host ≠ 0
        omega
    | cons earlier rest =>
        rw [hstamps, hold] at hfirst
        exact h.2 first (by rw [hold]; exact hfirst)

omit [DecidableEq Tid] in
theorem Stamped.alignsInRange_iff (h : x.Started) (hgiven : x.Given hdr event) :
    x.AlignsInRange hdr event ↔ x.NearFirst hdr event := by
  apply forall_congr'
  intro message
  apply forall_congr'
  intro hstoring
  obtain ⟨hremote, hpos, hsmall⟩ := hgiven message hstoring
  obtain ⟨_, host, sensor, stored, _, rfl⟩ := Hal.storing_eq_some hstoring
  simp only [stored_message, aligned_timestamp, InInt64, INT64_MAX, INT64_MIN] at *
  cases hold : x.stamps with
  | nil =>
      rw [if_pos (h.1.1 hold)]
      simp only [h.1.1 hold, forall_const, List.head?_nil]
      omega
  | cons first rest =>
      have hfirst : x.stamps.head? = some first := congrArg List.head? hold
      have hhost := h.2 first hfirst
      obtain ⟨hstart, hoffset, _⟩ := h.1.2 first hfirst hhost
      rw [hstart, if_neg hhost, hoffset]
      simp only [hhost, false_implies, true_and, List.head?_cons]
      omega

-- The alignment of a run stays within int64_t exactly when every message is near
-- the first one.
theorem alignment_in_range_iff (hdr : SensorsHeader) (memory : Handle → SensorsEvent)
    (log_trace_count : Int) (events : List (HalEvent Tid))
    (hgiven : Machine.Along (Stamped.step hdr) (Stamped.Given hdr)
      (Stamped.init memory log_trace_count) events) :
    Machine.Along (Stamped.step hdr) (Stamped.AlignsInRange hdr)
        (Stamped.init memory log_trace_count) events ↔
      Machine.Along (Stamped.step hdr) (Stamped.NearFirst hdr)
        (Stamped.init memory log_trace_count) events :=
  Machine.along_congr (fun _ _ _ h hcond hstep => Stamped.started_step h hcond hstep)
    (fun _ _ h hcond => Stamped.alignsInRange_iff h hcond)
    ⟨Stamped.firstFixes_init memory log_trace_count, nofun⟩ hgiven

-- Two messages of one client.
def two_messages : List (HalEvent Unit) :=
  [.connection true, .arrive ⟨1, 3, 1000000, fun _ => 0⟩, .poll () 1, .take (),
    .process () 5000, .arrive ⟨5, 1, 1000700, fun _ => 0⟩, .poll () 1, .take (),
    .process () 6000]

theorem alignment_in_range_client :
    Machine.Along (Stamped.step android_header) (Stamped.AlignsInRange android_header)
      (Stamped.init (fun _ => default) 50 : Stamped Unit) two_messages :=
  (alignment_in_range_iff android_header _ 50 two_messages (by decide +kernel)).mpr
    (by decide +kernel)

-- The first message fixes an offset of 5000, and the second has the greatest
-- timestamp there is: the sum passes it.
theorem future_timestamp_overflows :
    Machine.Along (Stamped.step android_header) (Stamped.Given android_header)
        (Stamped.init (fun _ => default) 50 : Stamped Unit)
        [.connection true, .arrive ⟨1, 3, 0, fun _ => 0⟩, .poll () 1, .take (),
          .process () 5000, .arrive ⟨1, 3, 9223372036854775807, fun _ => 0⟩, .poll () 1, .take (),
          .process () 6000] ∧
      ¬ Machine.Along (Stamped.step android_header) (Stamped.AlignsInRange android_header)
        (Stamped.init (fun _ => default) 50 : Stamped Unit)
        [.connection true, .arrive ⟨1, 3, 0, fun _ => 0⟩, .poll () 1, .take (),
          .process () 5000, .arrive ⟨1, 3, 9223372036854775807, fun _ => 0⟩, .poll () 1, .take (),
          .process () 6000] := by
  decide +kernel

end Overflow

end SensorVhal
