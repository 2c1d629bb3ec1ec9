import SensorVhal.Stream.Segmentation

namespace SensorVhal

variable {Client : Type}

-- All bytes of the message's header and payload are bytes that its client sent
-- from the start of the callback on.
def Pushed.Complete (hdr : SensorsHeader) (history : ChannelHistory Client)
    (message : Pushed Client) : Prop :=
  let size := HEADER_SIZE + get_payload_len hdr (header_type message.buffer)
  message.start + size ≤ (history.received message.client).length ∧
    message.buffer.take size = ((history.received message.client).drop message.start).take size

-- recv does not meet the end of the stream, or a hard error, when a part of a
-- payload is in.
def NotCut (ch : Channel Client) : ChannelEvent Client → Prop
  | .recv (.none _ errno) => ∀ client buffer t,
      ch.pc = .recv_data client (.sensor_events_ptr buffer) t →
        block_retries errno = false → t.total_size = 0
  | _ => True

variable {hdr : SensorsHeader}

-- A client whose stream has ended before the end of the message.
def Pushed.Cut (hdr : SensorsHeader) (history : ChannelHistory Client)
    (message : Pushed Client) : Prop :=
  history.ended message.client = true ∧
    (history.received message.client).length <
      message.start + (HEADER_SIZE + get_payload_len hdr (header_type message.buffer))

-- Bytes are only added, and none behind the end of a stream.
def ChannelHistory.Grows (history later : ChannelHistory Client) : Prop :=
  ∀ client, ∃ chunk : List UInt8, later.received client = history.received client ++ chunk ∧
    (history.ended client = true → chunk = [] ∧ later.ended client = true)

theorem ChannelHistory.Grows.refl (history : ChannelHistory Client) : history.Grows history :=
  fun _ => ⟨[], (List.append_nil _).symm, fun hend => ⟨rfl, hend⟩⟩

theorem Pushed.Complete.grows {history later : ChannelHistory Client} {message : Pushed Client}
    (h : message.Complete hdr history) (hgrows : history.Grows later) :
    message.Complete hdr later := by
  obtain ⟨hle, hbytes⟩ := h
  obtain ⟨chunk, hreceived, _⟩ := hgrows message.client
  constructor
  · rw [hreceived, List.length_append]
    omega
  · rw [hreceived, List.drop_append_of_le_length (by omega), List.take_append_of_le_length]
    · exact hbytes
    · rw [List.length_drop]
      omega

theorem Pushed.Cut.grows {history later : ChannelHistory Client} {message : Pushed Client}
    (h : message.Cut hdr history) (hgrows : history.Grows later) : message.Cut hdr later := by
  obtain ⟨hend, hlt⟩ := h
  obtain ⟨chunk, hreceived, hended⟩ := hgrows message.client
  obtain ⟨rfl, hlater⟩ := hended hend
  rw [List.append_nil] at hreceived
  exact ⟨hlater, hreceived ▸ hlt⟩

theorem Pushed.Cut.not_complete {history : ChannelHistory Client} {message : Pushed Client}
    (h : message.Cut hdr history) : ¬ message.Complete hdr history :=
  fun hcomplete => absurd hcomplete.1 (Nat.not_le_of_lt h.2)

variable [DecidableEq Client]

theorem ChannelHistory.grows_log (history : ChannelHistory Client) (client : Client)
    {outcome : RecvOutcome} {left_size : Nat}
    (hpossible : outcome.possible (history.ended client) left_size) :
    history.Grows (history.log client outcome) := by
  intro other
  by_cases hne : other = client
  · subst other
    refine ⟨outcome.chunk, log_received _ _ _, fun hend => ⟨?_, ?_⟩⟩
    · cases outcome with
      | data chunk => simp [RecvOutcome.possible, hend] at hpossible
      | none ret errno => rfl
    · rw [log_ended, hend]
      rfl
  · refine ⟨[], ?_, fun hend => ⟨rfl, ?_⟩⟩
    · rw [log_received_of_ne _ _ _ hne, List.append_nil]
    · rw [log_ended_of_ne _ _ _ hne, hend]

-- What a step adds to the messages: nothing, a complete one, or one that was
-- cut off by a recv call that the condition rules out.
theorem Channel.step_pushed {ch next : Channel Client} {event : ChannelEvent Client}
    (h : ch.Sound hdr) (hstep : ch.step hdr event = some next) :
    ch.history.Grows next.history ∧
    ((NotCut ch event ∧ next.history.pushed = ch.history.pushed) ∨
      ∃ message, next.history.pushed = ch.history.pushed ++ [message] ∧
        ((NotCut ch event ∧ message.Complete hdr next.history) ∨
          (¬ NotCut ch event ∧ message.Cut hdr next.history))) := by
  cases Channel.moves_of_step hstep with
  | readable client stack hpc hstack => exact ⟨.refl _, .inl ⟨trivial, rfl⟩⟩
  | take front queue hqueue => exact ⟨.refl _, .inl ⟨trivial, rfl⟩⟩
  | recycle buffer hbuffer => exact ⟨.refl _, .inl ⟨trivial, rfl⟩⟩
  | again client dest t t' outcome hpc hpossible hturn =>
      refine ⟨ch.history.grows_log client hpossible, .inl ⟨?_, rfl⟩⟩
      rcases RecvOutcome.again_cases (h.reading client dest t hpc).loop hpossible hturn with
        ⟨chunk, rfl, _⟩ | ⟨ret, errno, rfl, hretry, _⟩
      · trivial
      · intro _ _ _ _ hstop
        rw [hretry] at hstop
        cases hstop
  | leave client dest t t' outcome hpc hpossible hturn =>
      have hgrows := ch.history.grows_log client hpossible
      have htotal := (h.reading client dest t hpc).loop.total
      cases dest with
      | sensor_events_header bytes =>
          have hnotcut : NotCut ch (.recv outcome) := by
            cases outcome with
            | data chunk => trivial
            | none ret errno =>
                intro _ _ _ hpc'
                rw [hpc] at hpc'
                cases hpc'
          rcases Channel.header_leave h hpc hpossible hturn rfl with ⟨hnext, _⟩ |
            ⟨pool, dest, t'', _, hnext, _⟩
          · rw [Destination.fill, recv_data_returned, hnext]
            exact ⟨hgrows, .inl ⟨hnotcut, rfl⟩⟩
          · rw [Destination.fill, recv_data_returned, hnext]
            exact ⟨hgrows, .inl ⟨hnotcut, rfl⟩⟩
      | sensor_events_ptr buffer =>
          rcases Channel.payload_leave h hpc hpossible hturn rfl with ⟨hnext, _, hzero⟩ |
            ⟨buf, queue, pool, hbuf, _, hnext, hpos, hcases⟩
          · rw [Destination.fill, recv_data_returned, hnext]
            refine ⟨hgrows, .inl ⟨?_, rfl⟩⟩
            cases outcome with
            | data chunk => trivial
            | none ret errno =>
                intro _ _ t₂ hpc' _
                rw [hpc] at hpc'
                cases hpc'
                omega
          · rw [Destination.fill, recv_data_returned, hnext]
            refine ⟨hgrows, .inr ⟨_, rfl, ?_⟩⟩
            have hlen := get_payload_len_le hdr (header_type buf)
            rcases hcases with ⟨⟨chunk, rfl⟩, hle, hbytes⟩ |
              ⟨hend, hsome, hlt, ret, errno, rfl, hretry⟩
            · left
              have hlength := congrArg List.length hbytes
              have hsize : BUFFER_SIZE = HEADER_SIZE + MAX_SENSOR_PAYLOAD_SIZE := rfl
              rw [List.length_take, List.length_drop, hbuf] at hlength
              refine ⟨trivial, ?_, ?_⟩
              · dsimp only at hlength hle ⊢
                omega
              · dsimp only at hbytes ⊢
                rw [← hbytes, List.take_take, Nat.min_self]
            · right
              refine ⟨fun hnotcut => ?_, hend, Nat.add_assoc _ _ _ ▸ hlt⟩
              have hzero := hnotcut client buffer t hpc hretry
              omega

theorem Channel.complete_step {ch next : Channel Client} {event : ChannelEvent Client}
    (h : ch.Sound hdr ∧ ∀ message ∈ ch.history.pushed, message.Complete hdr ch.history)
    (hcond : NotCut ch event) (hstep : ch.step hdr event = some next) :
    next.Sound hdr ∧ ∀ message ∈ next.history.pushed, message.Complete hdr next.history := by
  obtain ⟨hsound, hcomplete⟩ := h
  refine ⟨sound_step hsound hstep, fun message hmem => ?_⟩
  obtain ⟨hgrows, ⟨_, hpushed⟩ | ⟨new, hpushed, ⟨_, hnew⟩ | ⟨hcut, _⟩⟩⟩ :=
    Channel.step_pushed hsound hstep
  · rw [hpushed] at hmem
    exact (hcomplete message hmem).grows hgrows
  · rw [hpushed] at hmem
    rcases List.mem_append.mp hmem with hold | hlast
    · exact (hcomplete message hold).grows hgrows
    · exact List.mem_singleton.mp hlast ▸ hnew
  · exact absurd hcond hcut

-- A message that was cut off is there to stay.
def Channel.HasCut (hdr : SensorsHeader) (ch : Channel Client) : Prop :=
  ch.Sound hdr ∧ ∃ message ∈ ch.history.pushed, message.Cut hdr ch.history

theorem Channel.hasCut_of_cut {ch next : Channel Client} {event : ChannelEvent Client}
    (h : ch.Sound hdr) (hcut : ¬ NotCut ch event) (hstep : ch.step hdr event = some next) :
    next.HasCut hdr := by
  obtain ⟨_, ⟨hnotcut, _⟩ | ⟨new, hpushed, ⟨hnotcut, _⟩ | ⟨_, hnew⟩⟩⟩ :=
    Channel.step_pushed h hstep
  · exact absurd hnotcut hcut
  · exact absurd hnotcut hcut
  · refine ⟨sound_step h hstep, new, ?_, hnew⟩
    rw [hpushed]
    exact List.mem_append_right _ List.mem_cons_self

theorem Channel.hasCut_step {ch next : Channel Client} {event : ChannelEvent Client}
    (h : ch.HasCut hdr) (hstep : ch.step hdr event = some next) : next.HasCut hdr := by
  obtain ⟨hsound, message, hmem, hcut⟩ := h
  obtain ⟨hgrows, hcases⟩ := Channel.step_pushed hsound hstep
  refine ⟨sound_step hsound hstep, message, ?_, hcut.grows hgrows⟩
  rcases hcases with ⟨_, hpushed⟩ | ⟨new, hpushed, _⟩
  · exact hpushed ▸ hmem
  · rw [hpushed]
    exact List.mem_append_left _ hmem

-- All messages of a run are complete exactly if no stream came to its end when
-- a part of a payload was in.
theorem complete_messages (events : List (ChannelEvent Client)) (ch : Channel Client)
    (hrun : Machine.run (Channel.step hdr) Channel.init events = some ch) :
    (∀ message ∈ ch.history.pushed, message.Complete hdr ch.history) ↔
      Machine.Along (Channel.step hdr) NotCut Channel.init events := by
  constructor
  · intro hcomplete
    refine Machine.Along.of_unmarked (fun _ _ _ => Channel.sound_step)
      (fun _ _ _ => Channel.hasCut_of_cut) (fun _ _ _ => Channel.hasCut_step)
      Channel.sound_init hrun ?_
    rintro ⟨_, message, hmem, hcut⟩
    exact hcut.not_complete (hcomplete message hmem)
  · intro hcond
    have hempty : ∀ message ∈ (Channel.init : Channel Client).history.pushed,
        message.Complete hdr (Channel.init : Channel Client).history := by
      intro message hmem
      cases hmem
    exact (Machine.invariant (fun _ _ _ => Channel.complete_step)
      ⟨Channel.sound_init, hempty⟩ hcond hrun).2

theorem complete_messages_light :
    ∃ ch, Machine.run (Channel.step android_header) Channel.init light_in_pieces = some ch ∧
      ch.history.pushed.length = 1 ∧
      ∀ message ∈ ch.history.pushed, message.Complete android_header ch.history := by
  obtain ⟨ch, hrun, hlength⟩ : ∃ ch,
      Machine.run (Channel.step android_header) Channel.init light_in_pieces = some ch ∧
      ch.history.pushed.length = 1 := Option.map_eq_some_iff.mp (by decide +kernel)
  refine ⟨ch, hrun, hlength, (complete_messages _ ch hrun).mpr ?_⟩
  refine Machine.along_of_forall_mem ?_ _
  simp [light_in_pieces, NotCut, block_retries]

-- The client goes away after two of the four payload bytes. The other two are
-- those that the buffer had from before.
theorem truncated_payload_enqueued :
    ¬ ∀ (events : List (ChannelEvent Nat)) (ch : Channel Nat),
      Machine.run (Channel.step android_header) Channel.init events = some ch →
        ∀ message ∈ ch.history.pushed, message.Complete android_header ch.history := by
  intro h
  have hcut : (Machine.run (Channel.step android_header) Channel.init
      [.readable 0 (List.replicate 16 7),
        .recv (.data [5, 0, 0, 0, 1, 0, 0, 0, 0, 0, 0, 0, 0, 0, 0, 0]), .recv (.data [1, 2]),
        .recv (.none 0 0)]).map (fun ch => ((ch.history.received 0).length,
          ch.history.pushed.map fun message =>
            (message.client, message.start, get_payload_len android_header
              (header_type message.buffer)))) = some (18, [(0, 0, 4)]) := by
    decide +kernel
  obtain ⟨ch, hrun, hresult⟩ := Option.map_eq_some_iff.mp hcut
  rw [Prod.mk.injEq] at hresult
  obtain ⟨hlength, hpushed⟩ := hresult
  obtain ⟨message, hsingle, hfields⟩ := List.map_eq_singleton_iff.mp hpushed
  simp only [Prod.mk.injEq] at hfields
  have hcomplete := (h _ ch hrun message (hsingle ▸ List.mem_cons_self)).1
  rw [hfields.1, hfields.2.1, hfields.2.2, hlength] at hcomplete
  exact absurd hcomplete (by decide)

end SensorVhal
