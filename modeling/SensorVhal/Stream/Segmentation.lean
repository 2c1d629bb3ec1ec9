import SensorVhal.Stream.Framing

namespace SensorVhal

variable {Client : Type} [DecidableEq Client]

-- The messages that one client's bytes were made into, in order.
def Channel.frames (hdr : SensorsHeader) (ch : Channel Client) (client : Client) :
    List (Framing.Frame UInt8) :=
  (ch.history.pushed.filter fun message => message.client = client).map (Pushed.frame hdr)

-- No recv call meets the end of a stream or a hard error.
def Undisturbed : ChannelEvent Client → Prop
  | .recv outcome => outcome.ends = false
  | _ => True

variable {hdr : SensorsHeader}

-- Up to the frame that the callback is in, a client's bytes are whole frames.
def Channel.position (ch : Channel Client) (client : Client) : Nat :=
  match ch.pc with
  | .idle => (ch.history.received client).length
  | .recv_data reader _ _ =>
    if reader = client then ch.history.start else (ch.history.received client).length

structure Channel.Framed (hdr : SensorsHeader) (ch : Channel Client) : Prop where
  sound : ch.Sound hdr
  open_ : ∀ client, ch.history.ended client = false
  whole : ∀ client, (event_format hdr).Whole 0
    ((ch.history.received client).take (ch.position client)) (ch.frames hdr client)

theorem Channel.framed_init : (Channel.init : Channel Client).Framed hdr :=
  ⟨sound_init, fun _ => rfl, fun _ => .nil 0⟩

theorem Channel.position_idle {ch : Channel Client} (h : ch.pc = .idle) (client : Client) :
    ch.position client = (ch.history.received client).length := by
  rw [position, h]

theorem Channel.position_reader {ch : Channel Client} {client : Client} {dest : Destination}
    {t : Transfer} (h : ch.pc = .recv_data client dest t) :
    ch.position client = ch.history.start := by
  rw [position, h]
  exact if_pos rfl

theorem Channel.position_other {ch : Channel Client} {client other : Client} {dest : Destination}
    {t : Transfer} (h : ch.pc = .recv_data client dest t) (hne : other ≠ client) :
    ch.position other = (ch.history.received other).length := by
  rw [position, h]
  exact if_neg (Ne.symm hne)

theorem Reading.start_le {start : Nat} {received : List UInt8} {ended : Bool}
    {dest : Destination} {t : Transfer} (h : Reading hdr start received ended dest t)
    (hended : ended = false) : start ≤ received.length := by
  rcases h.bytes with ⟨hle, _⟩ | ⟨hend, _⟩
  · exact hle
  · rw [hended] at hend
    cases hend

theorem Channel.open_log {ch : Channel Client} {outcome : RecvOutcome} (h : ch.Framed hdr)
    (hends : outcome.ends = false) (client other : Client) :
    (ch.history.log client outcome).ended other = false := by
  by_cases hne : other = client
  · subst other
    rw [ChannelHistory.log_ended, h.open_, hends]
    rfl
  · rw [ChannelHistory.log_ended_of_ne _ _ _ hne, h.open_]

-- Before the frame that is read there are whole frames, and a recv call leaves them.
theorem Channel.Framed.reader {ch : Channel Client} {client : Client} {dest : Destination}
    {t : Transfer} (h : ch.Framed hdr) (hpc : ch.pc = .recv_data client dest t) :
    (event_format hdr).Whole 0 ((ch.history.received client).take ch.history.start)
      (ch.frames hdr client) := by
  have hclient := h.whole client
  rw [Channel.position_reader hpc] at hclient
  exact hclient

theorem Channel.Framed.log_before {ch : Channel Client} {client : Client} {dest : Destination}
    {t : Transfer} (h : ch.Framed hdr) (hpc : ch.pc = .recv_data client dest t)
    (outcome : RecvOutcome) :
    ((ch.history.log client outcome).received client).take ch.history.start =
      (ch.history.received client).take ch.history.start := by
  rw [ChannelHistory.log_received]
  exact List.take_append_of_le_length
    ((h.sound.reading client dest t hpc).start_le (h.open_ client))

-- A recv call for one client leaves the whole frames of the others.
theorem Channel.Framed.logged {ch next : Channel Client} {client : Client} {dest : Destination}
    {t : Transfer} {outcome : RecvOutcome} (h : ch.Framed hdr)
    (hpc : ch.pc = .recv_data client dest t) (hends : outcome.ends = false)
    (hsound : next.Sound hdr)
    (hreceived : next.history.received = (ch.history.log client outcome).received)
    (hended : next.history.ended = (ch.history.log client outcome).ended)
    (hposition : ∀ other, other ≠ client →
      next.position other = (next.history.received other).length)
    (hframes : ∀ other, other ≠ client → next.frames hdr other = ch.frames hdr other)
    (hclient : (event_format hdr).Whole 0
      ((next.history.received client).take (next.position client)) (next.frames hdr client)) :
    next.Framed hdr := by
  refine ⟨hsound, fun other => ?_, fun other => ?_⟩
  · rw [hended]
    exact Channel.open_log h hends client other
  · by_cases hne : other = client
    · subst other
      exact hclient
    · have hold := h.whole other
      rw [Channel.position_other hpc hne] at hold
      rw [hposition other hne, hreceived, ChannelHistory.log_received_of_ne _ _ _ hne,
        hframes other hne]
      exact hold

-- A callback that is over has added its bytes, and their frames, to the whole
-- ones.
theorem whole_extend {received received' : List UInt8} {start : Nat}
    {frames frames' : List (Framing.Frame UInt8)}
    (h : (event_format hdr).Whole 0 (received.take start) frames)
    (hbefore : received'.take start = received.take start) (hstart : start ≤ received'.length)
    (hnew : (event_format hdr).Whole start (received'.drop start) frames') :
    (event_format hdr).Whole 0 (received'.take received'.length) (frames ++ frames') := by
  have hlength : 0 + (received'.take start).length = start := by
    rw [List.length_take]
    omega
  rw [List.take_length, ← List.take_append_drop start received']
  rw [← hbefore] at h
  exact h.append (hlength.symm ▸ hnew)

omit [DecidableEq Client] in
theorem Pushed.whole (message : Pushed Client) {received : List UInt8}
    (hlength : message.buffer.length = BUFFER_SIZE)
    (hpos : 0 < get_payload_len hdr (header_type message.buffer))
    (hbytes : message.buffer.take (HEADER_SIZE + get_payload_len hdr (header_type message.buffer)) =
      received) :
    (event_format hdr).Whole message.start received [message.frame hdr] := by
  have hle := get_payload_len_le hdr (header_type message.buffer)
  have hhead : (message.buffer.take HEADER_SIZE).length = HEADER_SIZE := by
    rw [List.length_take, hlength]
    rfl
  have hbody : ((message.buffer.drop HEADER_SIZE).take
      (get_payload_len hdr (header_type message.buffer))).length =
      get_payload_len hdr (header_type message.buffer) := by
    rw [List.length_take, List.length_drop, hlength]
    exact Nat.min_eq_left (Nat.le_trans hle (Nat.le_of_eq rfl))
  have hlen : (event_format hdr).bodyLen (message.buffer.take HEADER_SIZE) =
      get_payload_len hdr (header_type message.buffer) := by
    rw [event_format]
    dsimp only
    rw [header_type_take]
  rw [← hbytes, List.take_add, ← List.append_nil ((message.buffer.drop HEADER_SIZE).take _),
    Pushed.frame, header_type_take]
  exact .frame hhead (hbody.trans hlen.symm) (by omega) (.nil _)

theorem Channel.frames_append (ch : Channel Client) (message : Pushed Client) (client : Client)
    {next : Channel Client} (h : next.history.pushed = ch.history.pushed ++ [message]) :
    next.frames hdr client = ch.frames hdr client ++
      if message.client = client then [message.frame hdr] else [] := by
  rw [frames, h, List.filter_append, List.map_append, frames]
  by_cases hc : message.client = client <;> simp [hc]

theorem Channel.framed_step {ch next : Channel Client} {event : ChannelEvent Client}
    (h : ch.Framed hdr) (hcond : Undisturbed event) (hstep : ch.step hdr event = some next) :
    next.Framed hdr := by
  have hsound := Channel.sound_step h.sound hstep
  cases Channel.moves_of_step hstep with
  | readable client stack hpc hstack =>
      refine ⟨hsound, h.open_, fun other => ?_⟩
      have hold := h.whole other
      rw [Channel.position_idle hpc] at hold
      by_cases hne : other = client
      · subst other
        rw [Channel.position_reader rfl]
        exact hold
      · rw [Channel.position_other rfl hne]
        exact hold
  | again client dest t t' outcome hpc hpossible hturn =>
      refine h.logged hpc hcond hsound rfl rfl ?_ ?_ ?_
      · exact fun other hne => Channel.position_other rfl hne
      · exact fun other hne => rfl
      · rw [Channel.position_reader rfl]
        exact (h.log_before hpc outcome).symm ▸ h.reader hpc
  | leave client dest t t' outcome hpc hpossible hturn =>
      have hends : outcome.ends = false := hcond
      have hclosed : ¬ (ch.history.log client outcome).ended client = true := by
        rw [Channel.open_log h hends client]
        exact Bool.false_ne_true
      cases dest with
      | sensor_events_header bytes =>
          rcases Channel.header_leave h.sound hpc hpossible hturn rfl with
            ⟨hnext, hend | ⟨hle, hlength, hbody⟩⟩ | ⟨pool, dest, t'', _, hnext, _⟩
          · exact absurd hend hclosed
          · rw [Destination.fill, recv_data_returned, hnext] at hsound ⊢
            refine h.logged hpc hends hsound rfl rfl ?_ ?_ ?_
            · exact fun other hne => Channel.position_idle rfl other
            · exact fun other hne => rfl
            · rw [Channel.position_idle rfl]
              have hskip : (event_format hdr).Whole ch.history.start
                  (((ch.history.log client outcome).received client).drop ch.history.start ++ [])
                  [] := .skip hlength hbody (.nil _)
              rw [List.append_nil] at hskip
              have hwhole := whole_extend (h.reader hpc) (h.log_before hpc outcome) hle hskip
              rwa [List.append_nil] at hwhole
          · rw [Destination.fill, recv_data_returned, hnext] at hsound ⊢
            refine h.logged hpc hends hsound rfl rfl ?_ ?_ ?_
            · exact fun other hne => Channel.position_other rfl hne
            · exact fun other hne => rfl
            · rw [Channel.position_reader rfl]
              exact (h.log_before hpc outcome).symm ▸ h.reader hpc
      | sensor_events_ptr buffer =>
          rcases Channel.payload_leave h.sound hpc hpossible hturn rfl with ⟨_, hend, _⟩ |
            ⟨buf, queue, pool, hbuf, _, hnext, hpos, ⟨_, hle, hbytes⟩ | ⟨hend, _⟩⟩
          · exact absurd hend hclosed
          · rw [Destination.fill, recv_data_returned, hnext] at hsound ⊢
            have hframe := Pushed.whole ⟨client, ch.history.start, buf⟩ hbuf hpos hbytes
            refine h.logged hpc hends hsound rfl rfl ?_ ?_ ?_
            · exact fun other hne => Channel.position_idle rfl other
            · intro other hne
              rw [Channel.frames_append ch _ other rfl, if_neg (Ne.symm hne), List.append_nil]
            · rw [Channel.position_idle rfl, Channel.frames_append ch _ client rfl, if_pos rfl]
              exact whole_extend (h.reader hpc) (h.log_before hpc outcome) hle hframe
          · exact absurd hend hclosed
  | take front queue hqueue => exact ⟨hsound, h.open_, h.whole⟩
  | recycle buffer hbuffer => exact ⟨hsound, h.open_, h.whole⟩

-- Behind the whole frames there is at most the beginning of one.
theorem Channel.parse_rest {ch : Channel Client} (h : ch.Framed hdr) (client : Client)
    (start : Nat) : (event_format hdr).parse start
      ((ch.history.received client).drop (ch.position client)) = [] := by
  have hnone : (event_format hdr).parse start
      ((ch.history.received client).drop (ch.history.received client).length) = [] := by
    rw [List.drop_length]
    exact Framing.parse_short start (event_format hdr).headLen_pos
  cases hpc : ch.pc with
  | idle =>
      rw [Channel.position_idle hpc]
      exact hnone
  | recv_data reader dest t =>
      by_cases hne : client = reader
      · subst reader
        rw [Channel.position_reader hpc]
        have hreading := h.sound.reading client dest t hpc
        have hsum := hreading.loop.sum
        have hleft := hreading.loop.left
        rcases hreading.bytes with ⟨hle, hbytes⟩ | ⟨hend, _⟩
        · have hlength := hreading.length_received hle hbytes
          apply Framing.parse_incomplete
          rw [List.length_drop]
          cases dest with
          | sensor_events_header bytes =>
              left
              have hlen : (Destination.sensor_events_header bytes).len hdr =
                (event_format hdr).headLen := rfl
              have hoffset : (Destination.sensor_events_header bytes).offset = 0 := rfl
              omega
          | sensor_events_ptr buffer =>
              right
              have hhead : ((ch.history.received client).drop ch.history.start).take HEADER_SIZE =
                  buffer.take HEADER_SIZE := by
                rw [← hbytes, List.take_take]
                exact congrArg (buffer.take ·) (Nat.min_eq_left (Nat.le_add_right _ _))
              have hlen : (event_format hdr).bodyLen
                  (((ch.history.received client).drop ch.history.start).take
                    (event_format hdr).headLen) =
                  (Destination.sensor_events_ptr buffer).len hdr := by
                have hbody : get_payload_len hdr (header_type
                    (((ch.history.received client).drop ch.history.start).take HEADER_SIZE)) =
                    get_payload_len hdr (header_type buffer) := by
                  rw [hhead, header_type_take]
                exact hbody
              have hoffset : (Destination.sensor_events_ptr buffer).offset =
                (event_format hdr).headLen := rfl
              omega
        · rw [h.open_] at hend
          cases hend
      · rw [Channel.position_other hpc hne]
        exact hnone

theorem Channel.frames_of_framed {ch : Channel Client} (h : ch.Framed hdr) (client : Client) :
    ch.frames hdr client = (event_format hdr).parse 0 (ch.history.received client) := by
  have hparse : (event_format hdr).parse 0 ((ch.history.received client).take
      (ch.position client) ++ (ch.history.received client).drop (ch.position client)) = _ :=
    (h.whole client).parse_append
  rw [List.take_append_drop, Channel.parse_rest h, List.append_nil] at hparse
  exact hparse.symm

theorem Channel.framed_run {events : List (ChannelEvent Client)} {ch : Channel Client}
    (hcond : ∀ event ∈ events, Undisturbed event)
    (hrun : Machine.run (Channel.step hdr) Channel.init events = some ch) : ch.Framed hdr := by
  have halong : Machine.Along (Channel.step hdr) (fun _ event => Undisturbed event)
      Channel.init events := Machine.along_of_forall_mem (fun event hmem _ => hcond event hmem) _
  exact Machine.invariant (fun _ _ _ => Channel.framed_step) Channel.framed_init halong hrun

-- However the bytes of the clients are cut up and interleaved, each client's
-- messages are those that its bytes parse to.
theorem messages_of_bytes (events : List (ChannelEvent Client)) (ch : Channel Client)
    (hcond : ∀ event ∈ events, Undisturbed event)
    (hrun : Machine.run (Channel.step hdr) Channel.init events = some ch) :
    (∀ client, ch.frames hdr client =
      (event_format hdr).parse 0 (ch.history.received client)) ∧
    ∀ (events' : List (ChannelEvent Client)) (ch' : Channel Client),
      (∀ event ∈ events', Undisturbed event) →
      Machine.run (Channel.step hdr) Channel.init events' = some ch' →
      ∀ client, ch'.history.received client = ch.history.received client →
        ch'.frames hdr client = ch.frames hdr client := by
  have hframed := Channel.framed_run hcond hrun
  refine ⟨Channel.frames_of_framed hframed, fun events' ch' hcond' hrun' client hsame => ?_⟩
  have hframed' := Channel.framed_run hcond' hrun'
  rw [Channel.frames_of_framed hframed, Channel.frames_of_framed hframed', hsame]

-- A message of the light sensor, in pieces.
def light_in_pieces : List (ChannelEvent Nat) :=
  [.readable 0 (List.replicate 16 7), .recv (.data [5, 0, 0]), .recv (.none (-1) EAGAIN),
    .recv (.data [0, 1, 0, 0, 0, 0, 0, 0, 0, 0, 0, 0, 0]), .recv (.data [1, 2]),
    .recv (.none (-1) EINTR), .recv (.data [3, 4])]

theorem messages_of_bytes_light :
    ∃ ch, Machine.run (Channel.step android_header) Channel.init light_in_pieces = some ch ∧
      ch.frames android_header 0 =
        [⟨0, [5, 0, 0, 0, 1, 0, 0, 0, 0, 0, 0, 0, 0, 0, 0, 0], [1, 2, 3, 4]⟩] ∧
      ch.frames android_header 0 =
        (event_format android_header).parse 0 (ch.history.received 0) := by
  obtain ⟨ch, hrun, hframes⟩ : ∃ ch,
      Machine.run (Channel.step android_header) Channel.init light_in_pieces = some ch ∧
      ch.frames android_header 0 =
        [⟨0, [5, 0, 0, 0, 1, 0, 0, 0, 0, 0, 0, 0, 0, 0, 0, 0], [1, 2, 3, 4]⟩] :=
    Option.map_eq_some_iff.mp (by decide +kernel)
  have hclean : ∀ event ∈ light_in_pieces, Undisturbed event := by
    simp [light_in_pieces, Undisturbed, RecvOutcome.ends, block_retries]
  exact ⟨ch, hrun, hframes, (messages_of_bytes _ ch hclean hrun).1 0⟩

end SensorVhal
