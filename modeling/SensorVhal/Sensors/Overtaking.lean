import Mathlib.Algebra.Order.BigOperators.Group.Finset
import SensorVhal.Sensors.Reports

namespace SensorVhal

-- The events that polls report before they come to a handle.
def waiting_above (device : SensorDevice) (handle : Handle) : Nat :=
  ∑ other, if handle < other then pending_count device other else 0

namespace SensorsModule

variable {Tid : Type} (hdr : SensorsHeader) (x : SensorsModule Tid)

-- What a poll reports, with the handles that it picks.
def served (event : HalEvent Tid) : List (Handle × SensorsEvent) :=
  match x.hal.picking hdr event with
  | some (count, device) => (pending_entries hdr device).take count.toNat
  | none => []

-- The handles that an event gives something to report.
def work (event : HalEvent Tid) : List Handle :=
  (match event with
    | .flush handle => [handle]
    | _ => []) ++
  (x.hal.stores hdr event).filterMap fun message =>
    (sensor_of_type hdr message.type).map Sensor.ID

end SensorsModule

variable {hdr : SensorsHeader}

section Devices

variable {device next : SensorDevice}

theorem countP_pending_entries (hdr : SensorsHeader) (device : SensorDevice) (handle : Handle) :
    (pending_entries hdr device).countP (fun entry => handle < entry.1) =
      waiting_above device handle := by
  rw [pending_entries, Mailbox.countP_agenda, handles_descending, List.map_reverse,
    List.sum_reverse, ← Fin.sum_univ_def, waiting_above]
  apply Finset.sum_congr rfl
  intro other _
  rw [weight_slot]

-- One slot changes, and has one event more at most.
theorem waiting_above_update {handle : Handle} {new : Mailbox.Slot Int}
    (hslot : slot next = Function.update (slot device) handle new)
    (hnew : new.weight ≤ (slot device handle).weight + 1) (waiter : Handle) :
    waiting_above next waiter ≤
      waiting_above device waiter + if waiter < handle then 1 else 0 := by
  have hterm : ∀ other, (if waiter < other then pending_count next other else 0) ≤
      (if waiter < other then pending_count device other else 0) +
        if other = handle ∧ waiter < handle then 1 else 0 := by
    intro other
    rw [← weight_slot, ← weight_slot, hslot]
    by_cases hs : other = handle
    · subst other
      rw [Function.update_self]
      by_cases habove : waiter < handle
      · simpa [habove] using hnew
      · simp [habove]
    · rw [Function.update_of_ne hs]
      exact Nat.le_add_right _ _
  have hsum := Finset.sum_le_sum fun other (_ : other ∈ Finset.univ) => hterm other
  rw [Finset.sum_add_distrib] at hsum
  refine hsum.trans (Nat.add_le_add_left ?_ _)
  by_cases habove : waiter < handle <;> simp [habove]

theorem slot_ne_empty_update {handle other : Handle} {new : Mailbox.Slot Int}
    (hslot : slot next = Function.update (slot device) handle new) (hnew : new ≠ .empty)
    (hother : slot device other ≠ .empty) : slot next other ≠ .empty := by
  rw [hslot]
  by_cases hs : other = handle
  · subst other
    rwa [Function.update_self]
  · rwa [Function.update_of_ne hs]

-- What a flush does to the handles that wait.
theorem flush_waits (hdr : SensorsHeader) (device : SensorDevice) (handle waiter : Handle)
    (hwaiter : slot device waiter ≠ .empty) :
    slot (sensor_device_flush_locked hdr device handle) waiter ≠ .empty ∧
      waiting_above (sensor_device_flush_locked hdr device handle) waiter ≤
        waiting_above device waiter + if waiter < handle then 1 else 0 := by
  obtain ⟨more, hslot, hmore⟩ := slot_flush_le hdr device handle
  refine ⟨slot_ne_empty_update hslot (fun h => by cases h) hwaiter,
    waiting_above_update hslot ?_ waiter⟩
  have hweight : (slot device handle).outstanding ≤ (slot device handle).weight := by
    cases slot device handle <;> simp [Mailbox.Slot.outstanding, Mailbox.Slot.weight]
  show more + 1 ≤ _
  omega

-- What a message does to them.
theorem process_waits {message : AicSensorsEvent} {host : Int} {sensor : Sensor}
    (hsensor : sensor_of_type hdr message.type = some sensor)
    (hprocess : sensor_device_process_event hdr device message host = .stored next)
    {waiter : Handle} (hwaiter : slot device waiter ≠ .empty) :
    slot next waiter ≠ .empty ∧ waiting_above next waiter ≤
      waiting_above device waiter + if waiter < sensor.ID then 1 else 0 := by
  obtain ⟨sensor', hsensor', hslot⟩ := slot_process hprocess
  obtain rfl := Option.some.inj (hsensor'.symm.trans hsensor)
  refine ⟨slot_ne_empty_update hslot (fun h => by cases h) hwaiter,
    waiting_above_update hslot ?_ waiter⟩
  exact Nat.le_add_left 1 _

-- What a poll does to a handle that it does not pick.
theorem poll_waits (hsupported : OnlySupported device) {count : Nat} {ret : Int}
    {events : List SensorsEvent}
    (hpick : sensor_device_poll_pick hdr count device 0 = (events, ret, next)) {waiter : Handle}
    (hwaiter : slot device waiter ≠ .empty)
    (hwaits : ∀ entry ∈ (pending_entries hdr device).take count, entry.1 ≠ waiter) :
    slot next waiter ≠ .empty ∧
      (∀ entry ∈ (pending_entries hdr device).take count, waiter < entry.1) ∧
      ((pending_entries hdr device).take count).length + waiting_above next waiter =
        waiting_above device waiter := by
  have hleft := (poll_pick_entries hsupported hpick).2.2.1
  have hmem : waiter ∈ handles_descending := List.mem_reverse.mpr (List.mem_finRange waiter)
  obtain ⟨hslot, habove, hcount⟩ :=
    Mailbox.agenda_waits hmem handles_descending_sorted hwaiter hleft hwaits
  refine ⟨hslot, habove, ?_⟩
  rw [← countP_pending_entries hdr, ← countP_pending_entries hdr]
  exact hcount

end Devices

namespace SensorsModule

variable {Tid : Type} {x y z : SensorsModule Tid} {waiter : Handle}

-- From `x` to `y` a handle waits, while polls report `served` and `work` comes in.
structure Overtaken (waiter : Handle) (x y : SensorsModule Tid)
    (served : List (Handle × SensorsEvent)) (work : List Handle) : Prop where
  waits : slot y.hal.device waiter ≠ .empty
  above : ∀ entry ∈ served, waiter < entry.1
  returned : y.hal.history.returned = x.hal.history.returned ++ served.map Prod.snd
  bound : served.length + waiting_above y.hal.device waiter ≤
    waiting_above x.hal.device waiter + work.countP fun handle => waiter < handle
  answers : ∃ answers, y.returns = x.returns ++ answers ∧
    answers.countP (fun answer => 0 < answer.ret) ≤ served.length

theorem Overtaken.refl (h : slot x.hal.device waiter ≠ .empty) : Overtaken waiter x x [] [] where
  waits := h
  above entry hmem := absurd hmem List.not_mem_nil
  returned := (List.append_nil _).symm
  bound := by simp
  answers := ⟨[], (List.append_nil _).symm, Nat.le_refl _⟩

theorem Overtaken.trans {served served' : List (Handle × SensorsEvent)} {work work' : List Handle}
    (hfirst : Overtaken waiter x y served work) (hrest : Overtaken waiter y z served' work') :
    Overtaken waiter x z (served ++ served') (work ++ work') := by
  obtain ⟨answers, hanswers, hcount⟩ := hfirst.answers
  obtain ⟨answers', hanswers', hcount'⟩ := hrest.answers
  refine ⟨hrest.waits, fun entry hmem => ?_, ?_, ?_, ⟨answers ++ answers', ?_, ?_⟩⟩
  · rcases List.mem_append.mp hmem with hmem | hmem
    · exact hfirst.above entry hmem
    · exact hrest.above entry hmem
  · rw [hrest.returned, hfirst.returned, List.map_append, List.append_assoc]
  · have hbound := hfirst.bound
    have hbound' := hrest.bound
    rw [List.length_append, List.countP_append]
    omega
  · rw [hanswers', hanswers, List.append_assoc]
  · rw [List.countP_append, List.length_append]
    omega

variable [DecidableEq Tid] {event : HalEvent Tid}

omit [DecidableEq Tid] in
-- A call that is refused reports nothing.
theorem served_refused (x : SensorsModule Tid) (thread : Tid) {count : Int} (hcount : count ≤ 0) :
    x.served hdr (.poll thread count) = [] := by
  unfold served
  split
  · rename_i count' device hpicking
    simp only [Hal.picking] at hpicking
    split at hpicking
    · split at hpicking <;> cases hpicking
      rw [Int.toNat_of_nonpos hcount, List.take_zero]
    · cases hpicking
  · rfl

-- What polls return is what they report.
theorem returned_step (h : x.Sound hdr) (hstep : x.step hdr event = some y) :
    y.hal.history.returned = x.hal.history.returned ++ (x.served hdr event).map Prod.snd := by
  rcases step_cases hstep with ⟨thread, count, rfl, hcount, rfl⟩ | ⟨_, hal, hhal, rfl⟩
  · rw [served_refused x thread hcount]
    exact (List.append_nil _).symm
  · cases Hal.effect_of_step hhal with
    | still _ _ hreturned _ hpicking =>
        rw [served, hpicking]
        exact hreturned.trans (List.append_nil _).symm
    | flush handle _ _ _ hreturned _ hpicking =>
        rw [served, hpicking]
        exact hreturned.trans (List.append_nil _).symm
    | answer count device events ret hpicking hpick _ hreturned _ =>
        have hsupported := Hal.onlySupported_picking h.supported hpicking
        rw [served, hpicking]
        exact hreturned.trans (congrArg _ (poll_pick_entries hsupported hpick).1)

-- A step while a handle waits: what it reports belongs to higher handles, and there is
-- no more of it than was waiting there or came in.
theorem overtaken_step (h : x.Sound hdr) (hstep : x.step hdr event = some y)
    (hwaiter : slot x.hal.device waiter ≠ .empty)
    (hwaits : ∀ entry ∈ x.served hdr event, entry.1 ≠ waiter) :
    Overtaken waiter x y (x.served hdr event) (x.work hdr event) := by
  have hreturns := returned_step h hstep
  rcases step_cases hstep with ⟨thread, count, rfl, hcount, rfl⟩ | ⟨_, hal, hhal, rfl⟩
  · have hnone : x.served hdr (.poll thread count) = [] := served_refused x thread hcount
    rw [hnone] at hreturns ⊢
    refine ⟨hwaiter, fun entry hmem => absurd hmem List.not_mem_nil, hreturns,
      Nat.le_trans (by simp) (Nat.le_add_right _ _), ⟨_, rfl, ?_⟩⟩
    simp [EINVAL]
  · cases Hal.effect_of_step hhal with
    | still hdevice hflushed hreturned hstores hpicking =>
        have hanswered : x.answered hdr event = none := by rw [answered, hpicking]; rfl
        have hserved : x.served hdr event = [] := by rw [served, hpicking]
        rw [hserved] at hreturns ⊢
        refine ⟨hdevice ▸ hwaiter, fun entry hmem => absurd hmem List.not_mem_nil, hreturns, ?_,
          ⟨_, rfl, ?_⟩⟩
        · show 0 + waiting_above hal.device waiter ≤ _
          rw [hdevice]
          omega
        · simp [hanswered]
    | flush handle hevent hdevice hflushed hreturned hstores hpicking =>
        subst event
        have hanswered : x.answered hdr (.flush handle) = none := by rw [answered, hpicking]; rfl
        have hserved : x.served hdr (.flush handle) = [] := by rw [served, hpicking]
        obtain ⟨hslot, habove⟩ := flush_waits hdr x.hal.device handle waiter hwaiter
        rw [hserved] at hreturns ⊢
        refine ⟨hdevice ▸ hslot, fun entry hmem => absurd hmem List.not_mem_nil, hreturns, ?_,
          ⟨_, rfl, ?_⟩⟩
        · have hwork : x.work hdr (.flush handle) = [handle] := by rw [work, hstores]; rfl
          show 0 + waiting_above hal.device waiter ≤ _
          rw [hdevice, hwork, List.countP_singleton]
          simpa using habove
        · simp [hanswered]
    | answer count device events ret hpicking hpick hflushed hreturned hstored =>
        have hserved : x.served hdr event = (pending_entries hdr device).take count.toNat := by
          rw [served, hpicking]
        have hanswered : x.answered hdr event = some ⟨count, ret, events, x.hal.history.flushed,
            x.stored ++ x.hal.stores hdr event⟩ := by
          simp only [answered, hpicking, Option.map_some, hpick]
        have hsupported := Hal.onlySupported_picking h.supported hpicking
        obtain ⟨hevents, hret, _⟩ := poll_pick_entries hsupported hpick
        -- before the picks, a message may have come into one of the slots
        have hcame : slot device waiter ≠ .empty ∧ waiting_above device waiter ≤
            waiting_above x.hal.device waiter +
              (x.work hdr event).countP fun handle => waiter < handle := by
          rcases hstored with ⟨rfl, _⟩ | ⟨thread, count', message, host, _, hprocess, hone⟩
          · exact ⟨hwaiter, Nat.le_add_right _ _⟩
          · obtain ⟨sensor, hsensor, _⟩ := slot_process hprocess
            obtain ⟨hslot, habove⟩ := process_waits hsensor hprocess hwaiter
            refine ⟨hslot, habove.trans (Nat.add_le_add_left ?_ _)⟩
            have hlast : (x.hal.stores hdr event).filterMap (fun message =>
                (sensor_of_type hdr message.type).map Sensor.ID) = [sensor.ID] := by
              rw [hone]
              simp [hsensor]
            unfold work
            rw [List.countP_append, hlast, List.countP_singleton]
            refine Nat.le_trans ?_ (Nat.le_add_left _ _)
            simp
        rw [hserved] at hwaits hreturns ⊢
        obtain ⟨hslot, habove, hleft⟩ := poll_waits hsupported hpick hcame.1 hwaits
        refine ⟨hslot, habove, hreturns, ?_, ⟨_, rfl, ?_⟩⟩
        · have hbound := hcame.2
          show _ + waiting_above hal.device waiter ≤ _
          omega
        · rw [hanswered, Option.toList_some, List.countP_singleton]
          have hlength : ret = ((pending_entries hdr device).take count.toNat).length := by
            rw [hret, hevents, List.length_map]
            omega
          split
          · rename_i hpos
            have hsome : 0 < ret := of_decide_eq_true hpos
            omega
          · exact Nat.zero_le _

variable {events : List (HalEvent Tid)}

theorem overtaken_run (h : x.Sound hdr) (hrun : Machine.run (step hdr) x events = some y)
    (hwaiter : slot x.hal.device waiter ≠ .empty)
    (hwaits : ∀ entry ∈ Machine.translation (step hdr) (served hdr) x events, entry.1 ≠ waiter) :
    Overtaken waiter x y (Machine.translation (step hdr) (served hdr) x events)
      (Machine.translation (step hdr) (work hdr) x events) := by
  induction events generalizing x with
  | nil =>
      cases hrun
      exact .refl hwaiter
  | cons event events ih =>
      obtain ⟨m, hm, hrest⟩ := Machine.run_cons_some.mp hrun
      simp only [Machine.translation, hm] at hwaits ⊢
      have hfirst := overtaken_step h hm hwaiter fun entry hmem =>
        hwaits entry (List.mem_append_left _ hmem)
      exact hfirst.trans (ih (h.step hm) hrest hfirst.waits fun entry hmem =>
        hwaits entry (List.mem_append_right _ hmem))

-- While a handle is pending and no poll comes to it, all that polls return belongs to
-- higher handles, and it is no more than was pending there or has come in since by
-- flushes and messages. So every poll that returns uses some of that up.
theorem overtaken_by_higher (hdr : SensorsHeader) (memory : Handle → SensorsEvent)
    (log_trace_count : Int) (before later : List (HalEvent Tid)) (x y : SensorsModule Tid)
    (waiter : Handle)
    (hbefore : Machine.run (step hdr) (init memory log_trace_count) before = some x)
    (hlater : Machine.run (step hdr) x later = some y)
    (hpending : x.hal.device.m_pending_sensors.getLsbD waiter = true)
    (hwaits : ∀ entry ∈ Machine.translation (step hdr) (served hdr) x later, entry.1 ≠ waiter) :
    y.hal.device.m_pending_sensors.getLsbD waiter = true ∧
    (∀ entry ∈ Machine.translation (step hdr) (served hdr) x later, waiter < entry.1) ∧
    y.hal.history.returned = x.hal.history.returned ++
      (Machine.translation (step hdr) (served hdr) x later).map Prod.snd ∧
    (Machine.translation (step hdr) (served hdr) x later).length +
        waiting_above y.hal.device waiter ≤
      waiting_above x.hal.device waiter +
        (Machine.translation (step hdr) (work hdr) x later).countP (fun handle => waiter < handle) ∧
    (y.returns.drop x.returns.length).countP (fun answer => 0 < answer.ret) ≤
      (Machine.translation (step hdr) (served hdr) x later).length := by
  have h : x.Sound hdr := Machine.invariant_always (fun _ _ _ hs hstep => hs.step hstep)
    (sound_init hdr memory log_trace_count) hbefore
  have hwaiter : slot x.hal.device waiter ≠ .empty := by
    rw [ne_eq, slot_eq_empty, hpending]
    decide
  have hovertaken := overtaken_run h hlater hwaiter hwaits
  obtain ⟨answers, hanswers, hcount⟩ := hovertaken.answers
  refine ⟨?_, hovertaken.above, hovertaken.returned, hovertaken.bound, ?_⟩
  · have hslot := hovertaken.waits
    rw [ne_eq, slot_eq_empty] at hslot
    simpa using hslot
  · rw [hanswers, List.drop_left]
    exact hcount

-- The accelerometer waits while polls report two flushes of the temperature sensor, and
-- one of the light sensor that comes later.
def three_flushes : List (HalEvent Unit) :=
  [.flush (Sensor.ID .ACCELEROMETER), .flush (Sensor.ID .TEMPERATURE),
    .flush (Sensor.ID .TEMPERATURE)]

def light_in_between : List (HalEvent Unit) :=
  [.poll () 1, .flush (Sensor.ID .LIGHT), .poll () 2]

theorem overtaken_by_higher_light : ∃ x y : SensorsModule Unit,
    Machine.run (step android_header) (init (fun _ => default) 50) three_flushes = some x ∧
      Machine.run (step android_header) x light_in_between = some y ∧
      (Machine.translation (step android_header) (served android_header) x light_in_between).map
          Prod.fst =
        [Sensor.ID .TEMPERATURE, Sensor.ID .TEMPERATURE, Sensor.ID .LIGHT] ∧
      y.hal.device.m_pending_sensors.getLsbD (Sensor.ID .ACCELEROMETER) = true := by
  obtain ⟨x, hbefore, hlater⟩ : ∃ x : SensorsModule Unit,
      Machine.run (step android_header) (init (fun _ => default) 50) three_flushes = some x ∧
        ((Machine.run (step android_header) x light_in_between).isSome,
          x.hal.device.m_pending_sensors.getLsbD (Sensor.ID .ACCELEROMETER),
          (Machine.translation (step android_header) (served android_header) x
            light_in_between).map Prod.fst) =
          (true, true, [Sensor.ID .TEMPERATURE, Sensor.ID .TEMPERATURE, Sensor.ID .LIGHT]) :=
    Option.map_eq_some_iff.mp (by decide +kernel)
  obtain ⟨hsome, hrest⟩ := Prod.mk.inj hlater
  obtain ⟨hpending, hserved⟩ := Prod.mk.inj hrest
  obtain ⟨y, hy⟩ := Option.isSome_iff_exists.mp hsome
  have hwaits : ∀ entry ∈ Machine.translation (step android_header) (served android_header) x
      light_in_between, entry.1 ≠ Sensor.ID .ACCELEROMETER := by
    intro entry hmem
    have hfst := List.mem_map_of_mem (f := Prod.fst) hmem
    rw [hserved] at hfst
    intro he
    rw [he] at hfst
    exact absurd hfst (by decide)
  exact ⟨x, y, hbefore, hy, hserved, (overtaken_by_higher android_header _ 50 _ _ x y _ hbefore hy
    hpending hwaits).1⟩

section Starvation

variable {x : SensorsModule Unit} {waiter : Handle}

-- With something pending in the highest slot, a poll comes to it first.
theorem pending_entries_top {device : SensorDevice} (hdr : SensorsHeader)
    (htop : slot device (Sensor.ID .TEMPERATURE) ≠ .empty) :
    ∃ event rest, pending_entries hdr device = (Sensor.ID .TEMPERATURE, event) :: rest := by
  have hcount := count_pending_entries hdr device (Sensor.ID .TEMPERATURE)
  rw [← weight_slot] at hcount
  have hmem : Sensor.ID .TEMPERATURE ∈ (pending_entries hdr device).map Prod.fst := by
    apply List.count_pos_iff.mp
    rw [hcount]
    exact Nat.pos_of_ne_zero fun hzero => htop (Mailbox.Slot.weight_eq_zero.mp hzero)
  have hsorted : ((pending_entries hdr device).map Prod.fst).Pairwise (· ≥ ·) :=
    Mailbox.agenda_sorted handles_descending_sorted
  cases hentries : pending_entries hdr device with
  | nil =>
      rw [hentries] at hmem
      exact absurd hmem List.not_mem_nil
  | cons first rest =>
      rw [hentries, List.map_cons] at hmem hsorted
      have hfirst : first.1 = Sensor.ID .TEMPERATURE := by
        rcases List.mem_cons.mp hmem with hhead | htail
        · exact hhead.symm
        · have hge := (List.pairwise_cons.mp hsorted).1 _ htail
          have hmax : ∀ handle : Handle, handle ≥ Sensor.ID .TEMPERATURE →
              handle = Sensor.ID .TEMPERATURE := by decide
          exact hmax first.1 hge
      exact ⟨first.2, rest, by rw [← hfirst]⟩

theorem step_flush (hdr : SensorsHeader) (x : SensorsModule Unit) (handle : Handle) :
    ∃ y, x.step hdr (.flush handle) = some y ∧ y.hal.polls = x.hal.polls ∧
      y.returns = x.returns ∧ y.hal.device = sensor_device_flush_locked hdr x.hal.device handle := by
  refine ⟨{ x with hal := { x.hal with
    device := sensor_device_flush_locked hdr x.hal.device handle
    history := { x.hal.history with flushed := x.hal.history.flushed ++ [handle] } } },
    ?_, rfl, rfl, rfl⟩
  show (x.hal.step hdr (.flush handle)).map _ = _
  rw [Hal.step, sensor_device_flush_handle, Option.map_some, Option.map_some]
  congr 2
  · exact List.append_nil x.stored
  · exact List.append_nil x.returns

-- A poll for one event that finds the highest slot filled returns with its event.
theorem step_poll_top (h : x.Sound hdr) (hidle : x.hal.polls () = .idle)
    (htop : slot x.hal.device (Sensor.ID .TEMPERATURE) ≠ .empty) :
    ∃ y answer event, x.step hdr (.poll () 1) = some y ∧ y.hal.polls () = .idle ∧
      y.returns = x.returns ++ [answer] ∧ 0 < answer.ret ∧
      x.served hdr (.poll () 1) = [(Sensor.ID .TEMPERATURE, event)] := by
  obtain ⟨event, rest, hentries⟩ := pending_entries_top hdr htop
  have hsome : x.hal.device.m_pending_sensors ≠ 0 := by
    rw [ne_eq, pending_eq_zero h.supported, ← length_pending_entries hdr, hentries]
    exact Nat.succ_ne_zero _
  have hpicking : x.hal.picking hdr (.poll () 1) = some (1, x.hal.device) := by
    simp only [Hal.picking, hidle, if_neg hsome]
  have hrefused : x.refused (.poll () 1) = none := by
    simp only [refused, hidle]
    rfl
  have hstep : x.hal.step hdr (.poll () 1) = some (x.hal.poll_return hdr () 1 x.hal.device) := by
    simp only [Hal.step, hidle, if_neg hsome]
  obtain ⟨events, ret, hpick, hpolls, _⟩ := Hal.poll_return_spec hdr x.hal () 1 x.hal.device
  obtain ⟨hevents, hret, _⟩ := poll_pick_entries h.supported hpick
  have hanswered : x.answered hdr (.poll () 1) = some ⟨1, ret, events, x.hal.history.flushed,
      x.stored ++ x.hal.stores hdr (.poll () 1)⟩ := by
    simp only [answered, hpicking, Option.map_some, hpick]
  refine ⟨_, _, event, by rw [step, hrefused, hstep, hanswered]; rfl, ?_, rfl, ?_, ?_⟩
  · show (x.hal.poll_return hdr () 1 x.hal.device).polls () = .idle
    rw [hpolls, Function.update_self]
  · show 0 < ret
    rw [hret, hevents, hentries]
    exact Int.zero_lt_one
  · simp only [served, hpicking, hentries]
    rfl

def overtaking : List (HalEvent Unit) := [.flush (Sensor.ID .TEMPERATURE), .poll () 1]

-- A flush of the highest handle and a poll for one event leave a lower handle waiting.
theorem overtake_once (h : x.Sound hdr) (hidle : x.hal.polls () = .idle)
    (htop : waiter ≠ Sensor.ID .TEMPERATURE) :
    ∃ y answer, Machine.run (step hdr) x overtaking = some y ∧ y.hal.polls () = .idle ∧
      y.returns = x.returns ++ [answer] ∧ 0 < answer.ret ∧
      ∀ entry ∈ Machine.translation (step hdr) (served hdr) x overtaking, entry.1 ≠ waiter := by
  obtain ⟨middle, hflush, hpolls, hreturns, hdevice⟩ := step_flush hdr x (Sensor.ID .TEMPERATURE)
  have hfilled : slot middle.hal.device (Sensor.ID .TEMPERATURE) ≠ .empty := by
    obtain ⟨more, hslot, _⟩ := slot_flush_owed hdr x.hal.device (Sensor.ID .TEMPERATURE)
    rw [hdevice, hslot, Function.update_self]
    exact fun h => by cases h
  obtain ⟨y, answer, event, hpoll, hidle', hanswer, hret, hserved⟩ :=
    step_poll_top (h.step hflush) (hpolls ▸ hidle) hfilled
  refine ⟨y, answer, ?_, hidle', hreturns ▸ hanswer, hret, ?_⟩
  · rw [overtaking, Machine.run_cons, hflush, Option.bind_some, Machine.run_singleton, hpoll]
  · intro entry hmem
    have hnone : x.served hdr (.flush (Sensor.ID .TEMPERATURE)) = [] := rfl
    simp only [overtaking, Machine.translation, hnone, hflush, hserved, hpoll, List.append_nil,
      List.nil_append] at hmem
    rw [List.mem_singleton.mp hmem]
    exact Ne.symm htop

-- Turn after turn a lower handle waits.
theorem overtake (h : x.Sound hdr) (hidle : x.hal.polls () = .idle)
    (htop : waiter ≠ Sensor.ID .TEMPERATURE) (n : Nat) :
    ∃ later y answers, Machine.run (step hdr) x later = some y ∧
      y.returns = x.returns ++ answers ∧ n ≤ answers.countP (fun answer => 0 < answer.ret) ∧
      ∀ entry ∈ Machine.translation (step hdr) (served hdr) x later, entry.1 ≠ waiter := by
  induction n generalizing x with
  | zero =>
      refine ⟨[], x, [], rfl, (List.append_nil _).symm, Nat.le_refl _, ?_⟩
      exact fun entry hmem => absurd hmem List.not_mem_nil
  | succ n ih =>
      obtain ⟨middle, answer, hturn, hidle', hanswer, hret, hserved⟩ :=
        overtake_once h hidle htop
      have hsound : middle.Sound hdr :=
        Machine.invariant_always (fun _ _ _ hs hstep => hs.step hstep) h hturn
      obtain ⟨later, y, answers, hrun, hanswers, hcount, hserved'⟩ := ih hsound hidle'
      refine ⟨overtaking ++ later, y, answer :: answers, ?_, ?_, ?_, fun entry hmem => ?_⟩
      · exact Machine.run_append_some.mpr ⟨middle, hturn, hrun⟩
      · rw [hanswers, hanswer, List.append_assoc, List.singleton_append]
      · rw [List.countP_cons_of_pos (by simpa using hret)]
        omega
      · rw [Machine.translation_append hturn] at hmem
        rcases List.mem_append.mp hmem with hmem | hmem
        · exact hserved entry hmem
        · exact hserved' entry hmem

-- A handle can be kept waiting through any number of polls that return events, unless it
-- is that of the temperature sensor, which is the highest.
theorem starves_iff (hdr : SensorsHeader) (memory : Handle → SensorsEvent) (log_trace_count : Int)
    (waiter : Handle) :
    (∀ n, ∃ (before later : List (HalEvent Unit)) (x y : SensorsModule Unit),
      Machine.run (step hdr) (init memory log_trace_count) before = some x ∧
      x.hal.device.m_pending_sensors.getLsbD waiter = true ∧
      Machine.run (step hdr) x later = some y ∧
      (∀ entry ∈ Machine.translation (step hdr) (served hdr) x later, entry.1 ≠ waiter) ∧
      n ≤ (y.returns.drop x.returns.length).countP (fun answer => 0 < answer.ret)) ↔
    waiter ≠ Sensor.ID .TEMPERATURE := by
  have hinit : (init memory log_trace_count : SensorsModule Unit).Sound hdr :=
    sound_init hdr memory log_trace_count
  constructor
  · rintro hstarves rfl
    obtain ⟨before, later, x, y, hbefore, hpending, hlater, hwaits, hanswers⟩ := hstarves 1
    have h : x.Sound hdr :=
      Machine.invariant_always (fun _ _ _ hs hstep => hs.step hstep) hinit hbefore
    have hwaiter : slot x.hal.device (Sensor.ID .TEMPERATURE) ≠ .empty := by
      rw [ne_eq, slot_eq_empty, hpending]
      decide
    have hovertaken := overtaken_run h hlater hwaiter hwaits
    obtain ⟨answers, heq, hcount⟩ := hovertaken.answers
    rw [heq, List.drop_left] at hanswers
    -- nothing is above the highest handle
    obtain ⟨entry, hentry⟩ := List.exists_mem_of_length_pos (Nat.lt_of_lt_of_le
      (Nat.lt_of_lt_of_le Nat.zero_lt_one hanswers) hcount)
    have hmax : ∀ handle : Handle, ¬ Sensor.ID .TEMPERATURE < handle := by decide
    exact hmax entry.1 (hovertaken.above entry hentry)
  · intro htop n
    obtain ⟨x, hflush, hpolls, _, hdevice⟩ :=
      step_flush hdr (init memory log_trace_count) waiter
    have hidle : x.hal.polls () = .idle := by
      rw [hpolls]
      rfl
    obtain ⟨later, y, answers, hrun, hanswers, hcount, hserved⟩ :=
      overtake (hinit.step hflush) hidle htop n
    refine ⟨[.flush waiter], later, x, y, ?_, ?_, hrun, hserved, ?_⟩
    · rw [Machine.run_singleton, hflush]
    · obtain ⟨more, hslot, _⟩ := slot_flush_owed hdr
        (init memory log_trace_count : SensorsModule Unit).hal.device waiter
      have howed : slot x.hal.device waiter = .owed more := by
        rw [hdevice, hslot, Function.update_self]
      exact (slot_eq_owed.mp howed).1
    · rw [hanswers, List.drop_left]
      exact hcount

end Starvation

end SensorsModule

end SensorVhal
