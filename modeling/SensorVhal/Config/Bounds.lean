import SensorVhal.Config.Mirror

namespace SensorVhal

-- How many more calls of send the loop of send_data can make.
def Transfer.calls_left (t : Transfer) : Nat := t.left_size + (t.retry_count + 1).toNat

section Turn

variable {t t' : Transfer} {len : Nat} {io : IoResult}

theorem Transfer.calls_left_pos (h : t.Open len) : 0 < t.calls_left := by
  have hleft := h.left
  unfold Transfer.calls_left
  omega

theorem SockServer.calls_left_again (hopen : t.Open len) (hpossible : io.possible t.left_size)
    (hturn : send_data_timeout t io = .again t') : t'.calls_left < t.calls_left := by
  unfold Transfer.calls_left
  rcases SockServer.send_turn_cases hopen hpossible with
    ⟨ret, rfl, hret, hagain⟩ | ⟨rfl, hleave⟩ | ⟨ret, errno, rfl, hkeeps, hagain⟩ |
    ⟨_, _, _, _, _, hleave, _⟩
  · obtain rfl := Turn.again.inj (hagain.symm.trans hturn)
    have hpos := (of_decide_eq_true hpossible).1
    simp only [Transfer.move]
    omega
  · cases hleave.symm.trans hturn
  · obtain rfl := Turn.again.inj (hagain.symm.trans hturn)
    have hcount : ¬ t.retry_count < 0 := fun hneg => hkeeps (.inr hneg)
    simp only [Transfer.count_down]
    omega
  · cases hleave.symm.trans hturn

end Turn

-- A call of send by a thread.
def ConfigEvent.sends_of (thread : ThreadId) : ConfigEvent → Bool
  | send other _ => other = thread
  | _ => false

def ConfigEvent.sends : ConfigEvent → Bool
  | send _ _ => true
  | _ => false

-- The records that an event gives a thread to send, at most.
def ConfigEvent.records_of (thread : ThreadId) : ConfigEvent → Nat
  | call other _ => if other = thread then 1 else 0
  | client_connected_callback other => if other = thread then 9 else 0
  | _ => 0

-- How many more calls of send a thread can make for what it has begun.
def Activity.budget : Activity → Nat
  | idle => 0
  | replay rest => 18 * rest.length
  | send _ transfer none => transfer.calls_left
  | send _ transfer (some rest) => transfer.calls_left + 18 * rest.length

theorem Activity.budget_send (handle : Handle) (transfer : Transfer)
    (replaying : Option (List Handle)) :
    (Activity.send handle transfer replaying).budget =
      transfer.calls_left + 18 * (replaying.getD []).length := by
  cases replaying <;> rfl

namespace ConfigChannel

variable {hdr : SensorsHeader} {s t : ConfigChannel} {event : ConfigEvent} {thread : ThreadId}

theorem budget_update {activity : Activity}
    (h : t.threads = Function.update s.threads thread activity) :
    (t.threads thread).budget = activity.budget := by
  rw [h, Function.update_self]

theorem budget_call {call : ConfigCall} (hstep : s.step hdr (.call thread call) = some t) :
    (t.threads thread).budget ≤ (s.threads thread).budget + 18 := by
  simp only [step] at hstep
  split at hstep
  · split at hstep
    · obtain rfl := Option.some.inj hstep
      exact Nat.le_add_right _ _
    · split at hstep
      · split at hstep
        · obtain rfl := Option.some.inj hstep
          rw [budget_update (s := s) rfl]
          exact Nat.le_add_left _ _
        · obtain rfl := Option.some.inj hstep
          exact Nat.le_add_right _ _
      · cases hstep
  · cases hstep

theorem budget_callback (hstep : s.step hdr (.client_connected_callback thread) = some t) :
    (t.threads thread).budget ≤ (s.threads thread).budget + 18 * 9 := by
  simp only [step] at hstep
  split at hstep
  · obtain rfl := Option.some.inj hstep
    rw [budget_update (s := s) rfl]
    exact Nat.le_add_left _ _
  · cases hstep

-- The replay has paid for the record that it comes to.
theorem budget_replay (hstep : s.step hdr (.replay thread) = some t) :
    (t.threads thread).budget ≤ (s.threads thread).budget := by
  simp only [step] at hstep
  split at hstep
  · obtain rfl := Option.some.inj hstep
    rw [budget_update (s := s) rfl]
    exact Nat.zero_le _
  · rename_i i rest hreplay
    split at hstep
    · obtain rfl := Option.some.inj hstep
      rw [budget_update (s := s) rfl, hreplay]
      have hinit : (Transfer.init 12 5).calls_left = 18 := rfl
      simp only [Activity.budget, hinit, List.length_cons]
      omega
    · cases hstep
  · cases hstep

-- A turn of the send loop takes one of the calls that are left, and the last one may
-- leave the loop before they are used up.
theorem Sound.turn_calls_left (h : s.Sound) {io : IoResult} {handle : Handle}
    {transfer : Transfer} {replaying : Option (List Handle)}
    (hsend : s.threads thread = .send handle transfer replaying)
    (hstep : s.step hdr (.send thread io) = some t) :
    0 < transfer.calls_left ∧
    ((∃ transfer', t.m_mutex = s.m_mutex ∧
        t.threads = Function.update s.threads thread (.send handle transfer' replaying) ∧
        transfer'.calls_left < transfer.calls_left) ∨
      (t.m_mutex = none ∧ ∃ activity, t.threads = Function.update s.threads thread activity ∧
        activity.budget = 18 * (replaying.getD []).length)) := by
  obtain ⟨_, _, _, hsend', hpossible⟩ := send_enabled hstep
  cases hsend.symm.trans hsend'
  obtain ⟨_, hopen⟩ := h.sender thread handle transfer replaying hsend
  refine ⟨Transfer.calls_left_pos hopen, ?_⟩
  simp only [ConfigChannel.step, hsend, if_pos hpossible] at hstep
  have hthreads : (s.accept handle transfer io).threads = s.threads := by
    cases io <;> rfl
  have hmutex : (s.accept handle transfer io).m_mutex = s.m_mutex := by
    cases io <;> rfl
  cases hturn : SockServer.send_data_timeout transfer io with
  | again transfer' =>
      rw [hturn] at hstep
      obtain rfl := Option.some.inj hstep
      refine .inl ⟨transfer', hmutex, ?_, SockServer.calls_left_again hopen hpossible hturn⟩
      dsimp only
      rw [hthreads]
  | leave transfer' =>
      rw [hturn] at hstep
      obtain rfl := Option.some.inj hstep
      refine .inr ⟨rfl, ?_⟩
      simp only [ConfigChannel.finish_send, hthreads]
      cases replaying with
      | none => exact ⟨.idle, rfl, rfl⟩
      | some rest => exact ⟨.replay rest, rfl, rfl⟩

theorem Sound.budget_send (h : s.Sound) {io : IoResult}
    (hstep : s.step hdr (.send thread io) = some t) :
    1 + (t.threads thread).budget ≤ (s.threads thread).budget := by
  obtain ⟨handle, transfer, replaying, hsend, _⟩ := send_enabled hstep
  obtain ⟨hpos, ⟨transfer', _, hthreads, hless⟩ | ⟨_, activity, hthreads, hbudget⟩⟩ :=
    h.turn_calls_left hsend hstep
  · rw [budget_update hthreads, hsend, Activity.budget_send, Activity.budget_send]
    omega
  · rw [budget_update hthreads, hbudget, hsend, Activity.budget_send]
    omega

theorem Sound.budget_step (h : s.Sound) (hstep : s.step hdr event = some t) (thread : ThreadId) :
    (if event.sends_of thread then 1 else 0) + (t.threads thread).budget ≤
      (s.threads thread).budget + 18 * event.records_of thread := by
  by_cases hown : event.thread = thread
  · cases event with
    | call other call =>
        obtain rfl : other = thread := hown
        have hle := budget_call hstep
        simpa [ConfigEvent.sends_of, ConfigEvent.records_of] using hle
    | client_connected_callback other =>
        obtain rfl : other = thread := hown
        have hle := budget_callback hstep
        simpa [ConfigEvent.sends_of, ConfigEvent.records_of] using hle
    | replay other =>
        obtain rfl : other = thread := hown
        have hle := budget_replay hstep
        simpa [ConfigEvent.sends_of, ConfigEvent.records_of] using hle
    | send other io =>
        obtain rfl : other = thread := hown
        have hle := h.budget_send hstep
        simpa [ConfigEvent.sends_of, ConfigEvent.records_of] using hle
  · rw [threads_other hstep hown]
    have hnone : event.sends_of thread = false := by
      cases event with
      | send other io => exact decide_eq_false hown
      | _ => rfl
    rw [if_neg (by rw [hnone]; decide)]
    omega

-- How many more calls of send the thread that holds m_mutex can make before it gives it
-- back.
def hold (s : ConfigChannel) : Nat :=
  match s.sending with
  | some (_, transfer) => transfer.calls_left
  | none => 0

theorem hold_of_send {handle : Handle} {transfer : Transfer} {replaying : Option (List Handle)}
    (hmutex : s.m_mutex = some thread)
    (hsend : s.threads thread = .send handle transfer replaying) :
    s.hold = transfer.calls_left := by
  simp only [hold, sending, hmutex, Option.bind_some, hsend]

theorem hold_of_free (hmutex : s.m_mutex = none) : s.hold = 0 := by
  simp only [hold, sending, hmutex, Option.bind_none]

theorem hold_congr (hmutex : t.m_mutex = s.m_mutex)
    (hthreads : ∀ thread, s.m_mutex = some thread → t.threads thread = s.threads thread) :
    t.hold = s.hold := by
  cases hheld : s.m_mutex with
  | none => rw [hold_of_free hheld, hold_of_free (hmutex.trans hheld)]
  | some thread =>
      simp only [hold, sending, hmutex, hheld, Option.bind_some, hthreads thread hheld]

theorem hold_start_send (s : ConfigChannel) (thread : ThreadId) (handle : Handle)
    (replaying : Option (List Handle)) : (s.start_send thread handle replaying).hold = 18 :=
  hold_of_send (s := s.start_send thread handle replaying) rfl (Function.update_self _ _ _)

-- What a thread that does not send can do to m_mutex: nothing while another one holds it,
-- and else it may take it with a record before it.
theorem Sound.quiet_hold (h : s.Sound) (hquiet : event.sends = false)
    (hstep : s.step hdr event = some t) :
    t.hold = s.hold ∨ (s.m_mutex = none ∧ t.hold = 18) := by
  have hmoved : ∀ u : ConfigChannel, (∀ handle transfer replaying,
      s.threads event.thread ≠ .send handle transfer replaying) →
      s.step hdr event = some u → u.m_mutex = s.m_mutex → u.hold = s.hold := by
    intro u hthread hu hmutex
    refine hold_congr hmutex fun holder hheld => threads_other hu ?_
    exact (h.not_holder hthread hheld).symm
  cases event with
  | call thread call =>
      have hstep' := hstep
      simp only [ConfigChannel.step] at hstep
      split at hstep
      · rename_i hidle
        have hthread : ∀ handle transfer replaying,
            s.threads thread ≠ .send handle transfer replaying := by
          intro _ _ _ hsend
          cases hidle.symm.trans hsend
        split at hstep
        · obtain rfl := Option.some.inj hstep
          exact .inl (hmoved _ hthread hstep' rfl)
        · split at hstep
          · rename_i hfree
            split at hstep
            · obtain rfl := Option.some.inj hstep
              exact .inr ⟨hfree, hold_start_send _ _ _ _⟩
            · obtain rfl := Option.some.inj hstep
              exact .inl (hmoved _ hthread hstep' rfl)
          · cases hstep
      · cases hstep
  | client_connected_callback thread =>
      have hstep' := hstep
      simp only [ConfigChannel.step] at hstep
      split at hstep
      · rename_i hidle
        obtain rfl := Option.some.inj hstep
        refine .inl (hmoved _ ?_ hstep' rfl)
        intro _ _ _ hsend
        cases hidle.symm.trans hsend
      · cases hstep
  | replay thread =>
      have hstep' := hstep
      simp only [ConfigChannel.step] at hstep
      split at hstep
      · rename_i hreplay
        obtain rfl := Option.some.inj hstep
        refine .inl (hmoved _ ?_ hstep' rfl)
        intro _ _ _ hsend
        cases hreplay.symm.trans hsend
      · split at hstep
        · rename_i hfree
          obtain rfl := Option.some.inj hstep
          exact .inr ⟨hfree, hold_start_send _ _ _ _⟩
        · cases hstep
      · cases hstep
  | send thread io => cases hquiet

theorem Sound.send_hold (h : s.Sound) {io : IoResult}
    (hstep : s.step hdr (.send thread io) = some t) : 1 + t.hold ≤ s.hold := by
  obtain ⟨handle, transfer, replaying, hsend, _⟩ := send_enabled hstep
  obtain ⟨hmutex, _⟩ := h.sender thread handle transfer replaying hsend
  rw [hold_of_send hmutex hsend]
  obtain ⟨hpos, ⟨transfer', hsame, hthreads, hless⟩ | ⟨hfree, _⟩⟩ := h.turn_calls_left hsend hstep
  · have hsend' : t.threads thread = .send handle transfer' replaying := by
      rw [hthreads, Function.update_self]
    rw [hold_of_send (hsame.trans hmutex) hsend']
    omega
  · rw [hold_of_free hfree]
    omega

theorem Sound.hold_le (h : s.Sound) (hle : s.hold ≤ 18) (hstep : s.step hdr event = some t) :
    t.hold ≤ 18 := by
  by_cases hsends : event.sends = true
  · cases event with
    | send thread io =>
        have hless := h.send_hold hstep
        omega
    | _ => cases hsends
  · rcases h.quiet_hold (Bool.eq_false_iff.mpr hsends) hstep with hsame | ⟨_, hfull⟩
    · omega
    · omega

theorem Sound.hold_step (h : s.Sound) (hheld : s.m_mutex ≠ none)
    (hstep : s.step hdr event = some t) :
    (if event.sends then 1 else 0) + t.hold ≤ s.hold := by
  by_cases hsends : event.sends = true
  · rw [if_pos hsends]
    cases event with
    | send thread io => exact h.send_hold hstep
    | _ => cases hsends
  · rw [if_neg hsends]
    rcases h.quiet_hold (Bool.eq_false_iff.mpr hsends) hstep with hsame | ⟨hfree, _⟩
    · omega
    · exact absurd hfree hheld

-- Whatever the calls of send give, a thread calls send at most 18 times for each record
-- that it was to send, and no thread calls it more often before it gives m_mutex back.
theorem sends_bounded {hdr : SensorsHeader} {status : ConfigStatus} {events : List ConfigEvent}
    {s : ConfigChannel} (hrun : Machine.run (step hdr) (connected status) events = some s) :
    (∀ thread, events.countP (ConfigEvent.sends_of thread) ≤
      18 * (events.map (ConfigEvent.records_of thread)).sum) ∧
    ∀ later t, Machine.run (step hdr) s later = some t →
      Machine.Along (step hdr) (fun s _ => s.m_mutex ≠ none) s later →
      later.countP ConfigEvent.sends ≤ 18 := by
  refine ⟨fun thread => ?_, fun later t hlater hheld => ?_⟩
  · have hstep : ∀ s e t, s.Sound → True → step hdr s e = some t → t.Sound ∧
        (if e.sends_of thread then 1 else 0) + (t.threads thread).budget ≤
          (s.threads thread).budget + 18 * e.records_of thread :=
      fun s e t h _ hnext => ⟨(h.step hnext).1, h.budget_step hnext thread⟩
    have hall : Machine.Along (step hdr) (fun _ _ => True) (connected status) events :=
      Machine.along_of_forall_mem (fun _ _ _ => trivial) _
    have hcost := Machine.countP_le hstep (sound_connected status) hall hrun
    have hidle : ((connected status).threads thread).budget = 0 := rfl
    omega
  · have hstart : s.Sound ∧ s.hold ≤ 18 :=
      Machine.invariant_always (I := fun s => s.Sound ∧ s.hold ≤ 18)
        (fun s e t h hstep => ⟨(h.1.step hstep).1, h.1.hold_le h.2 hstep⟩)
        ⟨sound_connected status, Nat.zero_le _⟩ hrun
    have hstep : ∀ s e t, s.Sound → s.m_mutex ≠ none → step hdr s e = some t → t.Sound ∧
        (if e.sends then 1 else 0) + t.hold ≤ s.hold :=
      fun s e t h hheld hnext => ⟨(h.step hnext).1, h.hold_step hheld hnext⟩
    exact (Machine.countP_le_potential hstep hstart.1 hheld hlater).trans hstart.2

-- Eleven bytes go one by one, and the retries run out in front of the last one.
theorem sends_bounded_attained :
    let events : List ConfigEvent := .call 1 (.batch 0 20000000) ::
      (List.replicate 11 (.send 1 (.moved 1)) ++
        List.replicate 7 (.send 1 (.failed (-1) EAGAIN)))
    ∃ s, Machine.run (step android_header) (connected fun _ => ⟨0, 0, 0⟩) events = some s ∧
      s.m_mutex = none ∧ events.countP (ConfigEvent.sends_of 1) = 18 ∧
      events.countP (ConfigEvent.sends_of 1) ≤
        18 * (events.map (ConfigEvent.records_of 1)).sum := by
  intro events
  obtain ⟨s, hrun, hfree⟩ : ∃ s, Machine.run (step android_header)
      (connected fun _ => ⟨0, 0, 0⟩) events = some s ∧ s.m_mutex = none :=
    Option.map_eq_some_iff.mp (by decide +kernel)
  exact ⟨s, hrun, hfree, by decide, (sends_bounded hrun).1 1⟩

end ConfigChannel

end SensorVhal
