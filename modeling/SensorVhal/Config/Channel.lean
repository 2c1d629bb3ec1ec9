import Mathlib.Logic.Function.Basic
import SensorVhal.Config.Calls
import SensorVhal.Lib.Run
import SensorVhal.Sock.Transfer

namespace SensorVhal

abbrev ThreadId := Nat

-- What a thread does. A replay has the entries left that its loop has not come
-- to, and a thread that sends comes back to the replay that it is part of.
inductive Activity
  | idle
  | replay (rest : List Handle)
  | send (handle : Handle) (transfer : Transfer) (replaying : Option (List Handle))

-- The configuration messages while the default client stays the same: what its
-- socket has accepted, the messages that were sent in full, and what the calls
-- have returned.
structure ConfigChannel where
  m_sensor_config_status : ConfigStatus
  m_mutex : Option ThreadId
  threads : ThreadId → Activity
  accepted : List UInt8
  completed : List SensorConfigMsg
  returned : List Int

inductive ConfigEvent
  | call (thread : ThreadId) (call : ConfigCall)
  | client_connected_callback (thread : ThreadId)
  | replay (thread : ThreadId)
  | send (thread : ThreadId) (io : IoResult)

namespace ConfigChannel

-- The default client has connected, at any time of the device's life.
def connected (status : ConfigStatus) : ConfigChannel where
  m_sensor_config_status := status
  m_mutex := none
  threads := fun _ => .idle
  accepted := []
  completed := []
  returned := []

section Step

variable (s : ConfigChannel) (thread : ThreadId)

-- Under m_mutex, up to the loop of send_data with its default of 5 ms.
def start_send (handle : Handle) (replaying : Option (List Handle)) : ConfigChannel :=
  { s with
    m_mutex := some thread
    threads := Function.update s.threads thread (.send handle (.init 12 5) replaying) }

-- The calls that send return 0: total_size is not negative.
def finish_send (handle : Handle) (transfer : Transfer) (replaying : Option (List Handle)) :
    ConfigChannel :=
  { s with
    m_mutex := none
    threads := Function.update s.threads thread
      (match replaying with
        | none => .idle
        | some rest => .replay rest)
    completed :=
      if transfer.left_size = 0 then s.completed ++ [s.m_sensor_config_status handle]
      else s.completed
    returned := if replaying = none then s.returned ++ [0] else s.returned }

-- The bytes of the entry that send takes.
def accept (handle : Handle) (transfer : Transfer) : IoResult → ConfigChannel
  | .moved ret =>
    { s with
      accepted := s.accepted ++
        ((s.m_sensor_config_status handle).bytes.drop transfer.p_src).take ret }
  | .failed _ _ => s

end Step

variable (hdr : SensorsHeader)

def step (s : ConfigChannel) : ConfigEvent → Option ConfigChannel
  | .call thread call =>
    match s.threads thread with
    | .idle =>
      match call.configure hdr s.m_sensor_config_status with
      | .returned ret => some { s with returned := s.returned ++ [ret] }
      | .stored handle status sends =>
        if s.m_mutex = none then
          let s := { s with m_sensor_config_status := status }
          if sends then some (s.start_send thread handle none)
          else some { s with returned := s.returned ++ [0] }
        else none
    | _ => none
  | .client_connected_callback thread =>
    match s.threads thread with
    | .idle =>
      some { s with
        threads := Function.update s.threads thread (.replay (List.finRange 9)) }
    | _ => none
  | .replay thread =>
    match s.threads thread with
    | .replay [] => some { s with threads := Function.update s.threads thread .idle }
    | .replay (i :: rest) =>
      if s.m_mutex = none then some (s.start_send thread i (some rest)) else none
    | _ => none
  | .send thread io =>
    match s.threads thread with
    | .send handle transfer replaying =>
      if io.possible transfer.left_size then
        let s := s.accept handle transfer io
        match SockServer.send_data_timeout transfer io with
        | .again transfer =>
          some { s with
            threads := Function.update s.threads thread (.send handle transfer replaying) }
        | .leave transfer => some (s.finish_send thread handle transfer replaying)
      else none
    | _ => none

-- The message that is being sent.
def sending (s : ConfigChannel) : Option (Handle × Transfer) :=
  s.m_mutex.bind fun thread =>
    match s.threads thread with
    | .send handle transfer _ => some (handle, transfer)
    | _ => none

-- The part of it that the socket has accepted.
def in_progress (s : ConfigChannel) : List UInt8 :=
  match s.sending with
  | some (handle, transfer) => (s.m_sensor_config_status handle).bytes.take transfer.p_src
  | none => []

-- The socket has whole records, and the beginning of the one being sent.
def Framed (s : ConfigChannel) : Prop :=
  s.accepted = s.completed.flatMap SensorConfigMsg.bytes ++ s.in_progress

-- No send loop gives up in the middle of a record.
def NotCut (s : ConfigChannel) (event : ConfigEvent) : Prop :=
  ∀ thread io handle transfer replaying, event = .send thread io →
    s.threads thread = .send handle transfer replaying → transfer.gives_up io →
    transfer.p_src = 0

instance (s : ConfigChannel) : ∀ event, Decidable (s.NotCut event)
  | .send thread io =>
    match hpc : s.threads thread with
    | .send handle transfer replaying =>
      decidable_of_iff (transfer.gives_up io → transfer.p_src = 0) <| by
        constructor
        · intro h thread' io' handle' transfer' replaying' hevent hpc' hgives
          cases hevent
          cases hpc.symm.trans hpc'
          exact h hgives
        · exact fun h => h thread io handle transfer replaying rfl hpc
    | .idle | .replay _ => .isTrue <| by
        intro thread' io' handle transfer replaying hevent hpc'
        cases hevent
        cases hpc.symm.trans hpc'
  | .call .. | .client_connected_callback _ | .replay _ => .isTrue <| by
      intro thread io handle transfer replaying hevent
      cases hevent

section Progress

variable {hdr} {s t : ConfigChannel} {thread : ThreadId} {handle : Handle} {transfer : Transfer}
  {replaying : Option (List Handle)}

theorem in_progress_of_send (hmutex : s.m_mutex = some thread)
    (hsend : s.threads thread = .send handle transfer replaying) :
    s.in_progress = (s.m_sensor_config_status handle).bytes.take transfer.p_src := by
  have hsending : s.sending = some (handle, transfer) := by
    simp only [sending, hmutex, Option.bind_some, hsend]
  rw [in_progress, hsending]

theorem in_progress_of_free (hmutex : s.m_mutex = none) : s.in_progress = [] := by
  have hsending : s.sending = none := by
    rw [sending, hmutex]
    rfl
  rw [in_progress, hsending]

theorem in_progress_congr (hmutex : t.m_mutex = s.m_mutex)
    (hstatus : t.m_sensor_config_status = s.m_sensor_config_status)
    (hthreads : ∀ thread, s.m_mutex = some thread → t.threads thread = s.threads thread) :
    t.in_progress = s.in_progress := by
  have hsending : t.sending = s.sending := by
    rw [sending, sending, hmutex]
    cases hheld : s.m_mutex with
    | none => rfl
    | some thread => simp only [Option.bind_some, hthreads thread hheld]
  rw [in_progress, in_progress, hsending, hstatus]

-- Exactly the thread that holds m_mutex is in the loop of send_data.
structure Sound (s : ConfigChannel) : Prop where
  sender : ∀ thread handle transfer replaying,
    s.threads thread = .send handle transfer replaying →
      s.m_mutex = some thread ∧ transfer.Open 12
  holder : ∀ thread, s.m_mutex = some thread →
    ∃ handle transfer replaying, s.threads thread = .send handle transfer replaying

theorem sound_connected (status : ConfigStatus) : (connected status).Sound := by
  constructor
  · intro thread handle transfer replaying hsend
    cases hsend
  · intro thread hheld
    cases hheld

-- A step that sends a part of a record, or finishes it, or does neither.
structure Advances (s t : ConfigChannel) : Prop where
  progress : ∃ chunk msgs, t.accepted = s.accepted ++ chunk ∧
    t.completed = s.completed ++ msgs ∧
    s.in_progress ++ chunk = msgs.flatMap SensorConfigMsg.bytes ++ t.in_progress

-- A step that drops the record that was being sent.
structure Drops (s t : ConfigChannel) : Prop where
  accepted : t.accepted = s.accepted
  completed : t.completed = s.completed
  in_progress : t.in_progress = []

theorem advances_of_same (haccepted : t.accepted = s.accepted)
    (hcompleted : t.completed = s.completed) (hprogress : t.in_progress = s.in_progress) :
    Advances s t := by
  refine ⟨[], [], ?_, ?_, ?_⟩
  · rw [haccepted, List.append_nil]
  · rw [hcompleted, List.append_nil]
  · rw [hprogress, List.append_nil]
    rfl

theorem Sound.not_holder (h : s.Sound) (hthread : ∀ handle transfer replaying,
    s.threads thread ≠ .send handle transfer replaying) {holder : ThreadId}
    (hmutex : s.m_mutex = some holder) : holder ≠ thread := by
  rintro rfl
  obtain ⟨handle, transfer, replaying, hsend⟩ := h.holder _ hmutex
  exact hthread handle transfer replaying hsend

-- A thread that is not sending goes on without sending.
theorem Sound.move (h : s.Sound) (hthread : ∀ handle transfer replaying,
    s.threads thread ≠ .send handle transfer replaying) {activity : Activity}
    (hactivity : ∀ handle transfer replaying, activity ≠ .send handle transfer replaying)
    (hmutex : t.m_mutex = s.m_mutex)
    (hthreads : t.threads = Function.update s.threads thread activity) :
    t.Sound ∧ ∀ holder, s.m_mutex = some holder → t.threads holder = s.threads holder := by
  have hothers : ∀ holder, s.m_mutex = some holder → t.threads holder = s.threads holder := by
    intro holder hheld
    rw [hthreads]
    exact Function.update_of_ne (h.not_holder hthread hheld) _ _
  refine ⟨⟨?_, ?_⟩, hothers⟩
  · intro sender handle transfer replaying hsend
    rw [hthreads] at hsend
    by_cases hsender : sender = thread
    · subst sender
      rw [Function.update_self] at hsend
      exact absurd hsend (hactivity handle transfer replaying)
    · rw [Function.update_of_ne hsender] at hsend
      rw [hmutex]
      exact h.sender sender handle transfer replaying hsend
  · intro holder hheld
    rw [hmutex] at hheld
    rw [hothers holder hheld]
    exact h.holder holder hheld

-- A thread takes m_mutex and comes to the loop of send_data.
theorem Sound.start_send (h : s.Sound) (hfree : s.m_mutex = none) (thread : ThreadId)
    (handle : Handle) (replaying : Option (List Handle)) :
    (s.start_send thread handle replaying).Sound := by
  constructor
  · intro sender handle' transfer replaying' hsend
    by_cases hsender : sender = thread
    · subst sender
      simp only [ConfigChannel.start_send, Function.update_self, Activity.send.injEq] at hsend
      obtain ⟨_, rfl, _⟩ := hsend
      exact ⟨rfl, Transfer.open_init 5 (by decide)⟩
    · simp only [ConfigChannel.start_send, Function.update_of_ne hsender] at hsend
      have hmutex := (h.sender sender handle' transfer replaying' hsend).1
      rw [hfree] at hmutex
      cases hmutex
  · intro holder hheld
    obtain rfl := Option.some.inj hheld
    exact ⟨handle, .init 12 5, replaying, Function.update_self _ _ _⟩

theorem advances_start_send (hfree : s.m_mutex = none) (thread : ThreadId) (handle : Handle)
    (replaying : Option (List Handle)) : Advances s (s.start_send thread handle replaying) := by
  have hsend : (s.start_send thread handle replaying).threads thread =
      .send handle (.init 12 5) replaying := Function.update_self _ _ _
  refine advances_of_same rfl rfl ?_
  rw [in_progress_of_free hfree]
  exact in_progress_of_send rfl hsend

-- The loop goes on: only its own variables change, and the bytes accepted.
theorem Sound.go_on (h : s.Sound) (hsend : s.threads thread = .send handle transfer replaying)
    {transfer' : Transfer} (hopen : transfer'.Open 12) (accepted : List UInt8) :
    Sound { s with
      accepted
      threads := Function.update s.threads thread (.send handle transfer' replaying) } := by
  have hmutex := (h.sender thread handle transfer replaying hsend).1
  constructor
  · intro sender handle' other replaying' hother
    by_cases hsender : sender = thread
    · subst sender
      simp only [Function.update_self, Activity.send.injEq] at hother
      obtain ⟨_, rfl, _⟩ := hother
      exact ⟨hmutex, hopen⟩
    · simp only [Function.update_of_ne hsender] at hother
      exact h.sender sender handle' other replaying' hother
  · intro holder hheld
    have hholder : holder = thread := Option.some.inj (hheld.symm.trans hmutex)
    subst holder
    exact ⟨handle, transfer', replaying, Function.update_self _ _ _⟩

theorem in_progress_go_on (hmutex : s.m_mutex = some thread) (handle : Handle)
    (transfer : Transfer) (replaying : Option (List Handle)) (accepted : List UInt8) :
    in_progress { s with
      accepted
      threads := Function.update s.threads thread (.send handle transfer replaying) } =
    (s.m_sensor_config_status handle).bytes.take transfer.p_src := by
  have hsend : Function.update s.threads thread (.send handle transfer replaying) thread =
      .send handle transfer replaying := Function.update_self _ _ _
  exact in_progress_of_send hmutex hsend

theorem Sound.finish_send (h : s.Sound)
    (hsend : s.threads thread = .send handle transfer replaying) (accepted : List UInt8)
    (transfer' : Transfer) :
    (ConfigChannel.finish_send { s with accepted } thread handle transfer' replaying).Sound := by
  have hmutex := (h.sender thread handle transfer replaying hsend).1
  constructor
  · intro sender handle' other replaying' hother
    by_cases hsender : sender = thread
    · subst sender
      simp only [ConfigChannel.finish_send, Function.update_self] at hother
      cases replaying <;> cases hother
    · simp only [ConfigChannel.finish_send, Function.update_of_ne hsender] at hother
      have hholder := (h.sender sender handle' other replaying' hother).1
      exact absurd (Option.some.inj (hholder.symm.trans hmutex)) hsender
  · intro holder hheld
    cases hheld

-- What a turn of the send loop does.
theorem Sound.send (h : s.Sound) (hsend : s.threads thread = .send handle transfer replaying)
    {io : IoResult} (hpossible : io.possible transfer.left_size)
    (hstep : s.step hdr (.send thread io) = some t) :
    t.Sound ∧ ((¬ transfer.gives_up io ∧ Advances s t) ∨ (transfer.gives_up io ∧ Drops s t)) := by
  obtain ⟨hmutex, hopen⟩ := h.sender thread handle transfer replaying hsend
  have hprogress := in_progress_of_send hmutex hsend
  simp only [step, hsend, if_pos hpossible] at hstep
  rcases SockServer.send_turn_cases hopen hpossible with
    ⟨ret, rfl, hret, hturn⟩ | ⟨rfl, hturn⟩ | ⟨ret, errno, rfl, hkeeps, hturn⟩ |
    ⟨ret, errno, transfer', rfl, hgives, hturn, hleft⟩
  · rw [hturn] at hstep
    obtain rfl := Option.some.inj hstep
    refine ⟨h.go_on hsend (Transfer.open_move hopen hret) _, .inl ⟨id, ?_⟩⟩
    refine ⟨((s.m_sensor_config_status handle).bytes.drop transfer.p_src).take ret, [], rfl,
      (List.append_nil _).symm, ?_⟩
    rw [hprogress, ← List.take_add]
    exact (in_progress_go_on hmutex handle (transfer.move ret) replaying _).symm
  · rw [hturn] at hstep
    obtain rfl := Option.some.inj hstep
    refine ⟨h.finish_send hsend _ _, .inl ⟨id, ?_⟩⟩
    have hdone : (transfer.move transfer.left_size).left_size = 0 := Nat.sub_self _
    refine ⟨((s.m_sensor_config_status handle).bytes.drop transfer.p_src).take transfer.left_size,
      [s.m_sensor_config_status handle], rfl, if_pos hdone, ?_⟩
    rw [hprogress, ← List.take_add, hopen.sum, in_progress_of_free rfl]
    simp only [List.flatMap_cons, List.flatMap_nil, List.append_nil]
    exact List.take_of_length_le (le_of_eq (SensorConfigMsg.length_bytes _))
  · rw [hturn] at hstep
    obtain rfl := Option.some.inj hstep
    refine ⟨h.go_on hsend (Transfer.open_count_down hopen) _, .inl ⟨hkeeps, ?_⟩⟩
    refine advances_of_same rfl rfl ?_
    rw [hprogress]
    exact in_progress_go_on hmutex handle transfer.count_down replaying _
  · rw [hturn] at hstep
    obtain rfl := Option.some.inj hstep
    have hleft' : ¬ transfer'.left_size = 0 := by
      have hpos := hopen.left
      omega
    exact ⟨h.finish_send hsend _ _, .inr ⟨hgives, rfl, if_neg hleft', in_progress_of_free rfl⟩⟩

-- A call from the HAL stores its entry and comes to its message.
theorem Sound.call (h : s.Sound) {call : ConfigCall}
    (hstep : s.step hdr (.call thread call) = some t) : t.Sound ∧ Advances s t := by
  simp only [step] at hstep
  split at hstep
  · split at hstep
    · obtain rfl := Option.some.inj hstep
      have hsame := in_progress_congr (s := s) rfl rfl fun _ _ => rfl
      exact ⟨⟨h.sender, h.holder⟩, advances_of_same rfl rfl hsame⟩
    · split at hstep
      · rename_i handle status sends _ hfree
        have hstored : Sound { s with m_sensor_config_status := status } := ⟨h.sender, h.holder⟩
        have hnone : in_progress { s with m_sensor_config_status := status } = [] :=
          in_progress_of_free hfree
        have hsame := hnone.trans (in_progress_of_free hfree).symm
        split at hstep
        · obtain rfl := Option.some.inj hstep
          obtain ⟨chunk, msgs, haccepted, hcompleted, hprogress⟩ :=
            advances_start_send (s := { s with m_sensor_config_status := status }) hfree thread
              handle none
          rw [hsame] at hprogress
          exact ⟨hstored.start_send hfree thread handle none, chunk, msgs, haccepted, hcompleted,
            hprogress⟩
        · obtain rfl := Option.some.inj hstep
          exact ⟨⟨h.sender, h.holder⟩, advances_of_same rfl rfl hsame⟩
      · cases hstep
  · cases hstep

theorem Sound.replay (h : s.Sound) (hstep : s.step hdr (.replay thread) = some t) :
    t.Sound ∧ Advances s t := by
  simp only [step] at hstep
  split at hstep
  · rename_i hreplay
    obtain rfl := Option.some.inj hstep
    obtain ⟨hsound, hothers⟩ := h.move (t := { s with
      threads := Function.update s.threads thread .idle })
      (fun _ _ _ hsend => by rw [hreplay] at hsend; cases hsend)
      (fun _ _ _ hsend => by cases hsend) rfl rfl
    exact ⟨hsound, advances_of_same rfl rfl (in_progress_congr rfl rfl hothers)⟩
  · split at hstep
    · rename_i i rest _ hfree
      obtain rfl := Option.some.inj hstep
      exact ⟨h.start_send hfree thread i (some rest),
        advances_start_send hfree thread i (some rest)⟩
    · cases hstep
  · cases hstep

theorem Sound.client_connected_callback (h : s.Sound)
    (hstep : s.step hdr (.client_connected_callback thread) = some t) :
    t.Sound ∧ Advances s t := by
  simp only [step] at hstep
  split at hstep
  · rename_i hidle
    obtain rfl := Option.some.inj hstep
    obtain ⟨hsound, hothers⟩ := h.move (t := { s with
      threads := Function.update s.threads thread (.replay (List.finRange 9)) })
      (fun _ _ _ hsend => by rw [hidle] at hsend; cases hsend)
      (fun _ _ _ hsend => by cases hsend) rfl rfl
    exact ⟨hsound, advances_of_same rfl rfl (in_progress_congr rfl rfl hothers)⟩
  · cases hstep

theorem send_enabled {io : IoResult} (hstep : s.step hdr (.send thread io) = some t) :
    ∃ handle transfer replaying, s.threads thread = .send handle transfer replaying ∧
      io.possible transfer.left_size := by
  simp only [step] at hstep
  split at hstep
  · rename_i handle transfer replaying hsend
    split at hstep
    · exact ⟨handle, transfer, replaying, hsend, ‹_›⟩
    · cases hstep
  · cases hstep

-- Every step advances the stream of records, unless a send loop gives up.
theorem Sound.step (h : s.Sound) {event : ConfigEvent} (hstep : s.step hdr event = some t) :
    t.Sound ∧ ((NotCut s event ∧ Advances s t) ∨
      (¬ NotCut s event ∧ s.in_progress ≠ [] ∧ Drops s t)) := by
  have hquiet : (∀ thread io, event ≠ .send thread io) → NotCut s event :=
    fun hevent thread io _ _ _ hsend => absurd hsend (hevent thread io)
  cases event with
  | call thread call =>
      obtain ⟨hsound, hadvances⟩ := h.call hstep
      exact ⟨hsound, .inl ⟨hquiet (by rintro _ _ ⟨⟩), hadvances⟩⟩
  | client_connected_callback thread =>
      obtain ⟨hsound, hadvances⟩ := h.client_connected_callback hstep
      exact ⟨hsound, .inl ⟨hquiet (by rintro _ _ ⟨⟩), hadvances⟩⟩
  | replay thread =>
      obtain ⟨hsound, hadvances⟩ := h.replay hstep
      exact ⟨hsound, .inl ⟨hquiet (by rintro _ _ ⟨⟩), hadvances⟩⟩
  | send thread io =>
      obtain ⟨handle, transfer, replaying, hsend, hpossible⟩ := send_enabled hstep
      obtain ⟨hmutex, hopen⟩ := h.sender thread handle transfer replaying hsend
      have hprogress := in_progress_of_send hmutex hsend
      have hnotCut : (transfer.gives_up io → transfer.p_src = 0) → NotCut s (.send thread io) := by
        intro hzero thread' io' handle' transfer' replaying' hevent hsend' hgives
        cases hevent
        rw [hsend] at hsend'
        cases hsend'
        exact hzero hgives
      obtain ⟨hsound, ⟨hkeeps, hadvances⟩ | ⟨hgives, hdrops⟩⟩ := h.send hsend hpossible hstep
      · exact ⟨hsound, .inl ⟨hnotCut fun hgives => absurd hgives hkeeps, hadvances⟩⟩
      · by_cases hzero : transfer.p_src = 0
        · refine ⟨hsound, .inl ⟨hnotCut fun _ => hzero, ?_⟩⟩
          refine advances_of_same hdrops.accepted hdrops.completed ?_
          rw [hdrops.in_progress, hprogress, hzero, List.take_zero]
        · refine ⟨hsound, .inr ⟨fun hcut => hzero (hcut _ _ _ _ _ rfl hsend hgives), ?_, hdrops⟩⟩
          rw [hprogress]
          intro hempty
          have hlength := congrArg List.length hempty
          rw [List.length_take, SensorConfigMsg.length_bytes, List.length_nil] at hlength
          omega

theorem framed_connected (status : ConfigStatus) : (connected status).Framed := rfl

-- The socket has more bytes than the records that were sent make up.
def Torn (s : ConfigChannel) : Prop :=
  12 * s.completed.length + s.in_progress.length < s.accepted.length

theorem length_flatMap_bytes (msgs : List SensorConfigMsg) :
    (msgs.flatMap SensorConfigMsg.bytes).length = 12 * msgs.length := by
  induction msgs with
  | nil => rfl
  | cons msg msgs ih =>
      rw [List.flatMap_cons, List.length_append, ih, SensorConfigMsg.length_bytes, List.length_cons]
      omega

theorem Framed.length_eq (h : s.Framed) :
    s.accepted.length = 12 * s.completed.length + s.in_progress.length := by
  rw [h, List.length_append, length_flatMap_bytes]

theorem Framed.advance (h : s.Framed) (hadvances : Advances s t) : t.Framed := by
  obtain ⟨chunk, msgs, haccepted, hcompleted, hprogress⟩ := hadvances
  rw [Framed, haccepted, hcompleted, h, List.append_assoc, hprogress, List.flatMap_append,
    List.append_assoc]

theorem Advances.length_eq (h : Advances s t) :
    t.accepted.length + (12 * s.completed.length + s.in_progress.length) =
      s.accepted.length + (12 * t.completed.length + t.in_progress.length) := by
  obtain ⟨chunk, msgs, haccepted, hcompleted, hprogress⟩ := h
  have hlength := congrArg List.length hprogress
  rw [List.length_append, List.length_append, length_flatMap_bytes] at hlength
  rw [haccepted, hcompleted, List.length_append, List.length_append]
  omega

theorem Drops.length_le (h : Drops s t) :
    12 * t.completed.length + t.in_progress.length ≤
      12 * s.completed.length + s.in_progress.length := by
  rw [h.completed, h.in_progress, List.length_nil]
  omega

theorem Framed.torn (h : s.Framed) (hprogress : s.in_progress ≠ []) (hdrops : Drops s t) :
    t.Torn := by
  have hlength := h.length_eq
  have hpos := List.length_pos_of_ne_nil hprogress
  unfold Torn
  rw [hdrops.accepted, hdrops.completed, hdrops.in_progress, List.length_nil]
  omega

-- The bytes of a record that was cut stay in the stream for good.
theorem Torn.step (hsound : s.Sound) (h : s.Torn) {event : ConfigEvent}
    (hstep : s.step hdr event = some t) : t.Torn := by
  unfold Torn at h ⊢
  obtain ⟨_, ⟨_, hadvances⟩ | ⟨_, _, hdrops⟩⟩ := hsound.step hstep
  · have hlength := hadvances.length_eq
    omega
  · have hlength := hdrops.length_le
    rw [hdrops.accepted]
    omega

end Progress

variable {hdr}

-- The bytes that the client's socket accepts are whole records exactly if no
-- send loop gives up in the middle of one.
theorem config_stream_framed {status : ConfigStatus} {events : List ConfigEvent}
    {s : ConfigChannel} (hrun : Machine.run (step hdr) (connected status) events = some s) :
    s.Framed ↔ Machine.Along (step hdr) NotCut (connected status) events := by
  constructor
  · intro hframed
    have hstep : ∀ s event t, s.Sound ∧ (s.Framed ∨ s.Torn) → step hdr s event = some t →
        t.Sound ∧ (t.Framed ∨ t.Torn) := by
      rintro s event t ⟨hsound, hbytes⟩ hnext
      obtain ⟨hsound', heffect⟩ := hsound.step hnext
      refine ⟨hsound', ?_⟩
      rcases hbytes with hframed | htorn
      · rcases heffect with ⟨_, hadvances⟩ | ⟨_, hprogress, hdrops⟩
        · exact .inl (hframed.advance hadvances)
        · exact .inr (hframed.torn hprogress hdrops)
      · exact .inr (htorn.step hsound hnext)
    have hmark : ∀ s event t, s.Sound ∧ (s.Framed ∨ s.Torn) → ¬ NotCut s event →
        step hdr s event = some t → t.Sound ∧ t.Torn := by
      rintro s event t ⟨hsound, hbytes⟩ hcut hnext
      obtain ⟨hsound', heffect⟩ := hsound.step hnext
      refine ⟨hsound', ?_⟩
      rcases hbytes with hframed | htorn
      · rcases heffect with ⟨hnotCut, _⟩ | ⟨_, hprogress, hdrops⟩
        · exact absurd hnotCut hcut
        · exact hframed.torn hprogress hdrops
      · exact htorn.step hsound hnext
    have hkeep : ∀ s event t, s.Sound ∧ s.Torn → step hdr s event = some t → t.Sound ∧ t.Torn :=
      fun s event t ⟨hsound, htorn⟩ hnext => ⟨(hsound.step hnext).1, htorn.step hsound hnext⟩
    have hwhole : ¬ (s.Sound ∧ s.Torn) := by
      rintro ⟨_, htorn⟩
      have hlength := hframed.length_eq
      unfold Torn at htorn
      omega
    exact Machine.Along.of_unmarked hstep hmark hkeep
      ⟨sound_connected status, .inl (framed_connected status)⟩ hrun hwhole
  · intro hnotCut
    have hstep : ∀ s event t, s.Sound ∧ s.Framed → NotCut s event → step hdr s event = some t →
        t.Sound ∧ t.Framed := by
      rintro s event t ⟨hsound, hframed⟩ hnotCut hnext
      obtain ⟨hsound', ⟨_, hadvances⟩ | ⟨hcut, _⟩⟩ := hsound.step hnext
      · exact ⟨hsound', hframed.advance hadvances⟩
      · exact absurd hnotCut hcut
    exact (Machine.invariant hstep ⟨sound_connected status, framed_connected status⟩ hnotCut hrun).2

-- No send loop gives up at all.
def Persists (s : ConfigChannel) (event : ConfigEvent) : Prop :=
  ∀ thread io handle transfer replaying, event = .send thread io →
    s.threads thread = .send handle transfer replaying → ¬ transfer.gives_up io

-- A turn of a send loop that does not give up: the loop goes on with the same
-- entry, or the entry has been sent and m_mutex is free.
theorem Sound.persist {s t : ConfigChannel} {thread : ThreadId} {handle : Handle}
    {transfer : Transfer} {replaying : Option (List Handle)} {io : IoResult} (h : s.Sound)
    (hsend : s.threads thread = .send handle transfer replaying)
    (hkeeps : ¬ transfer.gives_up io) (hstep : s.step hdr (.send thread io) = some t) :
    t.m_sensor_config_status = s.m_sensor_config_status ∧
    ((∃ transfer', t.threads thread = .send handle transfer' replaying ∧
        t.completed = s.completed) ∨
      (t.completed = s.completed ++ [s.m_sensor_config_status handle] ∧
        ∀ handle transfer replaying, t.threads thread ≠ .send handle transfer replaying)) := by
  obtain ⟨_, hopen⟩ := h.sender thread handle transfer replaying hsend
  obtain ⟨handle', transfer', replaying', hsend', hpossible⟩ := send_enabled hstep
  rw [hsend] at hsend'
  cases hsend'
  simp only [ConfigChannel.step, hsend, if_pos hpossible] at hstep
  rcases SockServer.send_turn_cases hopen hpossible with
    ⟨ret, rfl, _, hturn⟩ | ⟨rfl, hturn⟩ | ⟨ret, errno, rfl, _, hturn⟩ |
    ⟨_, _, _, _, hgives, _, _⟩
  · rw [hturn] at hstep
    obtain rfl := Option.some.inj hstep
    exact ⟨rfl, .inl ⟨transfer.move ret, Function.update_self _ _ _, rfl⟩⟩
  · rw [hturn] at hstep
    obtain rfl := Option.some.inj hstep
    have hdone : (transfer.move transfer.left_size).left_size = 0 := Nat.sub_self _
    refine ⟨rfl, .inr ⟨if_pos hdone, ?_⟩⟩
    intro handle' transfer' replaying' hagain
    simp only [ConfigChannel.finish_send, Function.update_self] at hagain
    cases replaying <;> cases hagain
  · rw [hturn] at hstep
    obtain rfl := Option.some.inj hstep
    exact ⟨rfl, .inl ⟨transfer.count_down, Function.update_self _ _ _, rfl⟩⟩
  · exact absurd hgives hkeeps

-- A send loop that does not give up sends its entry, whatever the sends give.
-- The listener's model takes it as one step.
theorem entry_sent {s t : ConfigChannel} {thread : ThreadId} {handle : Handle}
    {transfer : Transfer} {replaying : Option (List Handle)} {results : List IoResult}
    (h : s.Sound) (hsend : s.threads thread = .send handle transfer replaying)
    (hkeeps : Machine.Along (step hdr) Persists s (results.map (.send thread)))
    (hrun : Machine.run (step hdr) s (results.map (.send thread)) = some t)
    (hfree : t.m_mutex = none) :
    t.m_sensor_config_status = s.m_sensor_config_status ∧
      t.completed = s.completed ++ [s.m_sensor_config_status handle] := by
  induction results generalizing s transfer with
  | nil =>
      obtain rfl := Option.some.inj hrun
      obtain ⟨hmutex, _⟩ := h.sender thread handle transfer replaying hsend
      cases hfree.symm.trans hmutex
  | cons io results ih =>
      obtain ⟨m, hm, hrest⟩ := Machine.run_cons_some.mp hrun
      have hturn := h.persist hsend (hkeeps.1 thread io handle transfer replaying rfl hsend) hm
      obtain ⟨hstatus, ⟨transfer', hsend', hcompleted⟩ | ⟨hcompleted, hleft⟩⟩ := hturn
      · obtain ⟨hstatus', hcompleted'⟩ := ih (h.step hm).1 hsend' (hkeeps.2 m hm) hrest
        rw [hcompleted, hstatus] at hcompleted'
        exact ⟨hstatus'.trans hstatus, hcompleted'⟩
      · cases results with
        | nil =>
            obtain rfl := Option.some.inj hrest
            exact ⟨hstatus, hcompleted⟩
        | cons io' results =>
            -- the thread has left the loop and cannot send again
            obtain ⟨u, hu, _⟩ := Machine.run_cons_some.mp hrest
            obtain ⟨_, _, _, hagain, _⟩ := send_enabled hu
            exact absurd hagain (hleft _ _ _)

-- The nine messages of a replay are sent, the first one in two parts.
def replay_in_parts : List ConfigEvent :=
  [.client_connected_callback 0, .replay 0, .send 0 (.moved 5), .send 0 (.failed (-1) EAGAIN),
    .send 0 (.moved 7)] ++ (List.replicate 8 [.replay 0, .send 0 (.moved 12)]).flatten

theorem config_stream_framed_replay :
    ∃ s, Machine.run (step android_header) (connected fun _ => ⟨0, 0, 0⟩) replay_in_parts =
        some s ∧ s.completed.length = 9 ∧ s.Framed := by
  obtain ⟨s, hrun, hlength⟩ : ∃ s, Machine.run (step android_header)
      (connected fun _ => ⟨0, 0, 0⟩) replay_in_parts = some s ∧ s.completed.length = 9 :=
    Option.map_eq_some_iff.mp (by decide +kernel)
  exact ⟨s, hrun, hlength, (config_stream_framed hrun).mpr (by decide +kernel)⟩

-- Five bytes of a record are sent before the retries run out, and the next
-- record follows them.
theorem record_cut :
    ∃ s, Machine.run (step android_header) (connected fun _ => ⟨0, 0, 0⟩)
        ([.call 0 (.batch 0 20000000), .send 0 (.moved 5)] ++
          List.replicate 7 (.send 0 (.failed (-1) EAGAIN)) ++
          [.call 0 (.batch 6 20000000), .send 0 (.moved 12)]) = some s ∧ ¬ s.Framed := by
  obtain ⟨s, hrun, hlength⟩ : ∃ s, Machine.run (step android_header) (connected fun _ => ⟨0, 0, 0⟩)
      ([.call 0 (.batch 0 20000000), .send 0 (.moved 5)] ++
        List.replicate 7 (.send 0 (.failed (-1) EAGAIN)) ++
        [.call 0 (.batch 6 20000000), .send 0 (.moved 12)]) = some s ∧
      (s.accepted.length, s.completed.length, s.in_progress.length) = (17, 1, 0) :=
    Option.map_eq_some_iff.mp (by decide +kernel)
  refine ⟨s, hrun, fun hframed => ?_⟩
  simp only [Prod.mk.injEq] at hlength
  have hlengths := hframed.length_eq
  omega

end ConfigChannel

end SensorVhal
