import SensorVhal.Pipeline.Simulation
import SensorVhal.Stream.Segmentation

namespace SensorVhal

-- The listener with the streams of its clients, the module, and the bytes in the buffer
-- that each poll took. The program does not read the rest: the messages in the queue, and
-- those that were taken, with the clients that they came from.
structure Delivery (Client Tid : Type) where
  channel : Channel Client
  sensors : SensorsModule Tid
  buf_ptr : Tid → List UInt8
  queued : List (Pushed Client)
  taken : List (Pushed Client)

-- The listener finds a client readable, or a recv call of its callback returns. The
-- others are moves of the polls and calls of the framework.
inductive DeliveryEvent (Client Tid : Type)
  | readable (client : Client) (stack : List UInt8)
  | recv (outcome : RecvOutcome)
  | take (thread : Tid)
  | process (thread : Tid) (host_timestamp : Int)
  | wake (thread : Tid)
  | poll (thread : Tid) (count : Int)
  | flush (handle : Handle)
  | connection (connected : Bool)

namespace Delivery

variable {Client Tid : Type}

def init (memory : Handle → SensorsEvent) (log_trace_count : Int) : Delivery Client Tid :=
  ⟨.init, .init memory log_trace_count, fun _ => [], [], []⟩

variable (hdr : SensorsHeader) [DecidableEq Client] [DecidableEq Tid]

-- A recv call has brought the channel to `channel`. Where that has put a buffer into the
-- queue, a message arrives.
def received (x : Delivery Client Tid) (channel : Channel Client) : Option (Delivery Client Tid) :=
  match channel.history.pushed.drop x.channel.history.pushed.length with
  | [] => some { x with channel := channel }
  | message :: _ =>
    (x.sensors.step hdr (.arrive (message_of message.buffer))).map fun sensors =>
      { x with
        channel := channel
        sensors := sensors
        queued := (make_room x.queued []).1 ++ [message] }

-- A poll takes the buffer at the front of the queue, and gives it back to the pool when
-- its message is stored. One that goes on waiting frees it for the next.
def step (x : Delivery Client Tid) : DeliveryEvent Client Tid → Option (Delivery Client Tid)
  | .readable client stack =>
    (x.channel.step hdr (.readable client stack)).map fun channel => { x with channel := channel }
  | .recv outcome => (x.channel.step hdr (.recv outcome)).bind (x.received hdr)
  | .take thread =>
    match x.channel.m_sensor_msg_queue with
    | [] => none
    | buffer :: _ =>
      (x.channel.step hdr .take).bind fun channel =>
        (x.sensors.step hdr (.take thread)).map fun sensors =>
          { channel := channel
            sensors := sensors
            buf_ptr := Function.update x.buf_ptr thread buffer
            queued := x.queued.tail
            taken := x.taken ++ x.queued.head?.toList }
  | .process thread host_timestamp =>
    (x.sensors.step hdr (.process thread host_timestamp)).bind fun sensors =>
      match x.sensors.hal.stores hdr (.process thread host_timestamp) with
      | [] => some { x with sensors := sensors }
      | _ :: _ =>
        (x.channel.step hdr (.recycle (x.buf_ptr thread))).map fun channel =>
          { x with channel := channel, sensors := sensors }
  | .wake thread =>
    (x.sensors.step hdr (.wake thread)).map fun sensors => { x with sensors := sensors }
  | .poll thread count =>
    (x.sensors.step hdr (.poll thread count)).map fun sensors => { x with sensors := sensors }
  | .flush handle =>
    (x.sensors.step hdr (.flush handle)).map fun sensors => { x with sensors := sensors }
  | .connection connected =>
    (x.sensors.step hdr (.connection connected)).map fun sensors => { x with sensors := sensors }

end Delivery

variable {hdr : SensorsHeader}

section Channel

variable {Client : Type} [DecidableEq Client] {ch next : Channel Client}

theorem make_room_pool {β : Type} (queue pool : List β) :
    (make_room queue pool).1 = (make_room queue []).1 := by
  have hroom := make_room_map id queue [] pool
  rwa [List.map_id, List.map_id] at hroom

-- A recv call puts one buffer into the queue, or leaves it as it is.
theorem Channel.recv_pushes {outcome : RecvOutcome}
    (hstep : ch.step hdr (.recv outcome) = some next) :
    (next.history.pushed = ch.history.pushed ∧
      next.m_sensor_msg_queue = ch.m_sensor_msg_queue) ∨
    ∃ message : Pushed Client, next.history.pushed = ch.history.pushed ++ [message] ∧
      next.m_sensor_msg_queue = (make_room ch.m_sensor_msg_queue []).1 ++ [message.buffer] := by
  cases Channel.moves_of_step hstep with
  | again client dest t t' outcome hpc hpossible hturn => exact .inl ⟨rfl, rfl⟩
  | leave client dest t t' outcome hpc hpossible hturn =>
      cases dest with
      | sensor_events_header bytes =>
          left
          rw [Destination.fill, recv_data_returned, header_received]
          split
          · exact ⟨rfl, rfl⟩
          · dsimp only
            split
            · exact ⟨rfl, rfl⟩
            · exact ⟨rfl, rfl⟩
      | sensor_events_ptr buffer =>
          rw [Destination.fill, recv_data_returned, payload_received]
          split
          · exact .inl ⟨rfl, rfl⟩
          · right
            refine ⟨_, rfl, ?_⟩
            dsimp only
            rw [make_room_pool]

-- The message in a buffer has the type of its frame and the words of its body.
omit [DecidableEq Client] in
theorem Pushed.message_frame (message : Pushed Client) {sensor : Sensor}
    (hsensor : sensor_of_type hdr (message_of message.buffer).type = some sensor) :
    header_type (message.frame hdr).head = (message_of message.buffer).type ∧
      ∀ i : Fin 8, i.val < sensor.words →
        (message_of message.buffer).fdata i =
          Bytes.toWord ((message.frame hdr).body.drop (4 * i.val)) := by
  have htype : header_type (message.frame hdr).head = header_type message.buffer :=
    header_type_take message.buffer
  refine ⟨htype, fun i hi => ?_⟩
  have hlen : get_payload_len hdr (header_type (message.buffer.take HEADER_SIZE)) =
      4 * sensor.words := by
    rw [header_type_take]
    exact get_payload_len_of_sensor hsensor
  show Bytes.toWord (message.buffer.drop (HEADER_SIZE + 4 * i.val)) = _
  rw [Pushed.frame, hlen, List.drop_take, List.drop_drop, Bytes.toWord_take (by omega)]

end Channel

namespace Delivery

variable {Client Tid : Type} [DecidableEq Client] [DecidableEq Tid]
  {x next : Delivery Client Tid} {event : DeliveryEvent Client Tid}

def message (pushed : Pushed Client) : AicSensorsEvent := message_of pushed.buffer

-- The module sees the queue of the channel as messages, and takes them in the order
-- in which the channel has put them there.
structure Sound (hdr : SensorsHeader) (x : Delivery Client Tid) : Prop where
  framed : x.channel.Framed hdr
  faithful : x.sensors.Sound hdr
  traced : x.sensors.Traced
  messages : x.sensors.hal.m_sensor_msg_queue = x.queued.map message
  buffers : x.channel.m_sensor_msg_queue = x.queued.map Pushed.buffer
  taken : x.sensors.hal.history.taken = x.taken.map message
  order : (x.taken ++ x.queued).Sublist x.channel.history.pushed

-- No recv call meets the end of a stream or a hard error.
def Clean (_ : Delivery Client Tid) (event : DeliveryEvent Client Tid) : Prop :=
  ∀ outcome, event = .recv outcome → outcome.ends = false

omit [DecidableEq Tid] in
theorem sound_init (hdr : SensorsHeader) (memory : Handle → SensorsEvent)
    (log_trace_count : Int) : (init memory log_trace_count : Delivery Client Tid).Sound hdr where
  framed := Channel.framed_init
  faithful := SensorsModule.sound_init hdr memory log_trace_count
  traced := SensorsModule.traced_init memory log_trace_count
  messages := rfl
  buffers := rfl
  taken := rfl
  order := .slnil

-- An event of the module that is no arrival and takes nothing.
theorem Sound.sensors (h : x.Sound hdr) {event : HalEvent Tid} {sensors : SensorsModule Tid}
    (hstep : x.sensors.step hdr event = some sensors) (harrive : ∀ message, event ≠ .arrive message)
    (htake : ∀ thread, event ≠ .take thread) :
    ({ x with sensors := sensors } : Delivery Client Tid).Sound hdr := by
  have hsame : sensors.hal.m_sensor_msg_queue = x.sensors.hal.m_sensor_msg_queue ∧
      sensors.hal.history.taken = x.sensors.hal.history.taken := by
    rcases SensorsModule.step_cases hstep with
      ⟨thread, count, rfl, hcount, rfl⟩ | ⟨_, hal, hhal, rfl⟩
    · exact ⟨rfl, rfl⟩
    · cases Hal.moves_of_step hhal with
      | arrive message => exact absurd rfl (harrive message)
      | take thread count message queue hpc hqueue => exact absurd rfl (htake thread)
      | _ => exact ⟨rfl, rfl⟩
  exact { h with
    faithful := h.faithful.step hstep
    traced := h.traced.step hstep
    messages := hsame.1.trans h.messages
    taken := hsame.2.trans h.taken }

-- What stays in the queue keeps its order.
omit [DecidableEq Client] [DecidableEq Tid] in
theorem order_make_room (queue : List (Pushed Client)) : (make_room queue []).1.Sublist queue := by
  have hgeneral : ∀ queue pool : List (Pushed Client),
      (make_room queue pool).1.Sublist queue := by
    intro queue
    induction queue with
    | nil => exact fun _ => .slnil
    | cons front queue ih =>
        intro pool
        unfold make_room
        split
        · exact (ih _).trans (List.sublist_cons_self front queue)
        · exact List.Sublist.refl _
  exact hgeneral queue []

theorem Sound.received (h : x.Sound hdr) {outcome : RecvOutcome} {channel : Channel Client}
    (hclean : outcome.ends = false) (hrecv : x.channel.step hdr (.recv outcome) = some channel)
    (hstep : x.received hdr channel = some next) : next.Sound hdr := by
  have hundisturbed : Undisturbed (.recv outcome : ChannelEvent Client) := hclean
  have hframed := Channel.framed_step h.framed hundisturbed hrecv
  unfold Delivery.received at hstep
  rcases Channel.recv_pushes hrecv with ⟨hpushed, hqueue⟩ | ⟨pushed, hpushed, hqueue⟩
  · rw [hpushed, List.drop_length] at hstep
    obtain rfl := Option.some.inj hstep
    exact { h with
      framed := hframed
      buffers := hqueue.trans h.buffers
      order := hpushed ▸ h.order }
  · rw [hpushed, List.drop_left] at hstep
    obtain ⟨sensors, hsensors, rfl⟩ := Option.map_eq_some_iff.mp hstep
    have hmessages := make_room_map message x.queued [] []
    have hbuffers := make_room_map Pushed.buffer x.queued [] []
    have harrived : sensors.hal.m_sensor_msg_queue =
          enqueue x.sensors.hal.m_sensor_msg_queue (message pushed) ∧
        sensors.hal.history.taken = x.sensors.hal.history.taken := by
      rcases SensorsModule.step_cases hsensors with ⟨_, _, hpoll, _⟩ | ⟨_, hal, hhal, rfl⟩
      · cases hpoll
      · obtain rfl := Option.some.inj hhal
        exact ⟨rfl, rfl⟩
    refine ⟨hframed, h.faithful.step hsensors, h.traced.step hsensors, ?_, ?_, ?_, ?_⟩
    · show sensors.hal.m_sensor_msg_queue = _
      rw [harrived.1, h.messages, enqueue, hmessages, List.map_append]
      rfl
    · show channel.m_sensor_msg_queue = _
      rw [hqueue, h.buffers, hbuffers, List.map_append]
      rfl
    · exact harrived.2.trans h.taken
    · show (x.taken ++ ((make_room x.queued []).1 ++ [pushed])).Sublist channel.history.pushed
      rw [hpushed, ← List.append_assoc]
      have hkept := ((order_make_room x.queued).append_left x.taken).trans h.order
      exact hkept.append (List.Sublist.refl [pushed])

theorem Sound.take (h : x.Sound hdr) {thread : Tid}
    (hstep : x.step hdr (.take thread) = some next) : next.Sound hdr := by
  have hbuffers := h.buffers
  have hmessages := h.messages
  have horder := h.order
  simp only [Delivery.step] at hstep
  split at hstep
  · cases hstep
  · rename_i buffer queue hqueue
    obtain ⟨channel, hchannel, hrest⟩ := Option.bind_eq_some_iff.mp hstep
    obtain ⟨sensors, hsensors, rfl⟩ := Option.map_eq_some_iff.mp hrest
    have hundisturbed : Undisturbed (.take : ChannelEvent Client) := trivial
    have hframed := Channel.framed_step h.framed hundisturbed hchannel
    simp only [Channel.step, hqueue] at hchannel
    obtain rfl := Option.some.inj hchannel
    rw [hqueue] at hbuffers
    cases hqueued : x.queued with
    | nil =>
        rw [hqueued] at hbuffers
        cases hbuffers
    | cons front rest =>
        rw [hqueued] at hbuffers hmessages horder
        obtain ⟨rfl, rfl⟩ := List.cons.inj hbuffers
        have htook : sensors.hal.m_sensor_msg_queue = rest.map message ∧
            sensors.hal.history.taken = x.sensors.hal.history.taken ++ [message front] := by
          rcases SensorsModule.step_cases hsensors with ⟨_, _, hpoll, _⟩ | ⟨_, hal, hhal, rfl⟩
          · cases hpoll
          · cases Hal.moves_of_step hhal with
            | take thread count taken queue hpc hfront =>
                rw [hmessages, List.map_cons] at hfront
                obtain ⟨rfl, rfl⟩ := List.cons.inj hfront
                exact ⟨rfl, rfl⟩
        refine ⟨hframed, h.faithful.step hsensors, h.traced.step hsensors, htook.1, rfl, ?_, ?_⟩
        · show sensors.hal.history.taken = (x.taken ++ [front]).map message
          rw [htook.2, h.taken, List.map_append]
          rfl
        · show (x.taken ++ [front] ++ rest).Sublist x.channel.history.pushed
          rw [List.append_assoc]
          exact horder

theorem Sound.process (h : x.Sound hdr) {thread : Tid} {host : Int}
    (hstep : x.step hdr (.process thread host) = some next) : next.Sound hdr := by
  obtain ⟨sensors, hsensors, hrest⟩ := Option.bind_eq_some_iff.mp hstep
  have hsound := h.sensors hsensors (fun _ he => by cases he) (fun _ he => by cases he)
  split at hrest
  · obtain rfl := Option.some.inj hrest
    exact hsound
  · obtain ⟨channel, hchannel, rfl⟩ := Option.map_eq_some_iff.mp hrest
    have hundisturbed : Undisturbed (.recycle (x.buf_ptr thread) : ChannelEvent Client) := trivial
    have hframed := Channel.framed_step h.framed hundisturbed hchannel
    cases Channel.moves_of_step hchannel with
    | recycle buffer hbuffer => exact { hsound with framed := hframed }

theorem Sound.step (h : x.Sound hdr) (hclean : x.Clean event)
    (hstep : x.step hdr event = some next) : next.Sound hdr := by
  cases event with
  | readable client stack =>
      obtain ⟨channel, hchannel, rfl⟩ := Option.map_eq_some_iff.mp hstep
      have hundisturbed : Undisturbed (.readable client stack : ChannelEvent Client) := trivial
      have hframed := Channel.framed_step h.framed hundisturbed hchannel
      cases Channel.moves_of_step hchannel with
      | readable client stack hpc hstack => exact { h with framed := hframed }
  | recv outcome =>
      obtain ⟨channel, hchannel, hreceived⟩ := Option.bind_eq_some_iff.mp hstep
      exact h.received (hclean outcome rfl) hchannel hreceived
  | take thread => exact h.take hstep
  | process thread host => exact h.process hstep
  | wake thread =>
      obtain ⟨sensors, hsensors, rfl⟩ := Option.map_eq_some_iff.mp hstep
      exact h.sensors hsensors (fun _ he => by cases he) (fun _ he => by cases he)
  | poll thread count =>
      obtain ⟨sensors, hsensors, rfl⟩ := Option.map_eq_some_iff.mp hstep
      exact h.sensors hsensors (fun _ he => by cases he) (fun _ he => by cases he)
  | flush handle =>
      obtain ⟨sensors, hsensors, rfl⟩ := Option.map_eq_some_iff.mp hstep
      exact h.sensors hsensors (fun _ he => by cases he) (fun _ he => by cases he)
  | connection connected =>
      have hconnected : (x.sensors.step hdr (.connection connected)).map
          (fun sensors => ({ x with sensors := sensors } : Delivery Client Tid)) = some next := hstep
      obtain ⟨sensors, hsensors, rfl⟩ := Option.map_eq_some_iff.mp hconnected
      exact h.sensors hsensors (fun _ he => by cases he) (fun _ he => by cases he)

-- A message that was taken is a frame of its client's bytes.
omit [DecidableEq Tid] in
theorem Sound.frame (h : x.Sound hdr) {pushed : Pushed Client} (hmem : pushed ∈ x.taken) :
    pushed.frame hdr ∈
      (event_format hdr).parse 0 (x.channel.history.received pushed.client) := by
  have hpushed : pushed ∈ x.channel.history.pushed :=
    h.order.subset (List.mem_append_left _ hmem)
  rw [← Channel.frames_of_framed h.framed, Channel.frames]
  exact List.mem_map_of_mem (List.mem_filter.mpr ⟨hpushed, decide_eq_true rfl⟩)

-- The values of a reading are those of a frame, of its own sensor or of the one that
-- writes to the same slot.
omit [DecidableEq Tid] in
theorem Sound.reading (h : x.Sound hdr) {answer : PollReturn} (hanswer : answer ∈ x.sensors.returns)
    {sensor : Sensor} {reported : SensorsEvent} (hreads : Reads hdr answer.stored sensor reported)
    (hcalibrated : sensor ≠ .MAGNETIC_FIELD_UNCALIBRATED) :
    ∃ client, ∃ frame ∈ (event_format hdr).parse 0 (x.channel.history.received client),
      ∃ writer : Sensor, header_type frame.head = hdr.SENSOR_TYPE writer ∧
        writer.dataID = sensor.ID ∧
        ∀ i : Fin 8, i.val < sensor.words →
          reported.data (i.castLE (by decide)) = Bytes.toWord (frame.body.drop (4 * i.val)) := by
  obtain ⟨last, hlatest, hholds⟩ := hreads.data hcalibrated
  have hlast := List.mem_of_getLast? hlatest
  obtain ⟨hstored, hslot⟩ := List.mem_filter.mp hlast
  obtain ⟨writer, hwriter, hdata⟩ := Option.map_eq_some_iff.mp (of_decide_eq_true hslot)
  have htaken := h.traced.returns answer hanswer last hstored
  rw [h.taken] at htaken
  obtain ⟨pushed, hpushed, rfl⟩ := List.mem_map.mp htaken
  obtain ⟨htype, hwords⟩ := pushed.message_frame hwriter
  have hle : sensor.words ≤ writer.words := by
    cases sensor <;> cases writer <;> first | exact absurd hdata (by decide) | decide
  refine ⟨pushed.client, _, h.frame hpushed, writer, ?_, hdata, fun i hi => ?_⟩
  · exact htype.trans (sensor_of_type_eq_some.mp hwriter)
  · rw [hholds i hi]
    exact hwords i (by omega)

-- From the bytes of the clients to the events of the framework, in every run in which no
-- stream ends: polls take each client's messages in the order of its frames, and the
-- values of every reading that a poll returns are those of a frame that some client sent.
theorem readings_delivered (hdr : SensorsHeader) (memory : Handle → SensorsEvent)
    (log_trace_count : Int) (events : List (DeliveryEvent Client Tid)) (x : Delivery Client Tid)
    (hclean : ∀ outcome, .recv outcome ∈ events → outcome.ends = false)
    (hrun : Machine.run (step hdr) (init memory log_trace_count) events = some x) :
    x.sensors.hal.history.taken = x.taken.map message ∧
    (∀ client, ((x.taken.filter fun pushed => pushed.client = client).map
        (Pushed.frame hdr)).Sublist
      ((event_format hdr).parse 0 (x.channel.history.received client))) ∧
    ∀ answer ∈ x.sensors.returns, ∀ reported ∈ answer.events,
      reported.type ≠ SENSOR_TYPE_META_DATA →
      ∃ sensor : Sensor, reported.sensor = sensor.ID.val ∧
        reported.type = hdr.SENSOR_TYPE sensor ∧
        (sensor ≠ .MAGNETIC_FIELD_UNCALIBRATED → ∃ client,
          ∃ frame ∈ (event_format hdr).parse 0 (x.channel.history.received client),
          ∃ writer : Sensor, header_type frame.head = hdr.SENSOR_TYPE writer ∧
            writer.dataID = sensor.ID ∧ ∀ i : Fin 8, i.val < sensor.words →
              reported.data (i.castLE (by decide)) =
                Bytes.toWord (frame.body.drop (4 * i.val))) := by
  have halong : Machine.Along (step hdr) Clean (init memory log_trace_count) events := by
    apply Machine.along_of_forall_mem
    intro event hmem _ outcome hevent
    subst event
    exact hclean outcome hmem
  have h : x.Sound hdr := Machine.invariant (fun _ _ _ hs hc hstep => hs.step hc hstep)
    (sound_init hdr memory log_trace_count) halong hrun
  refine ⟨h.taken, fun client => ?_, fun answer hanswer reported hreported hdata => ?_⟩
  · rw [← Channel.frames_of_framed h.framed, Channel.frames]
    have htaken := (List.sublist_append_left x.taken x.queued).trans h.order
    exact (htaken.filter _).map _
  · rcases (h.faithful.returns answer hanswer).events reported hreported with
      ⟨handle, hflush⟩ | ⟨handle, hover⟩ | ⟨sensor, hsensor, _, hreads⟩
    · exact absurd hflush.type hdata
    · exact absurd hover.type hdata
    · exact ⟨sensor, hsensor, hreads.type, h.reading hanswer hreads⟩

-- A light message that comes in two pieces, while a poll waits for it.
def light_delivered : List (DeliveryEvent Nat Unit) :=
  [.connection true, .poll () 1, .readable 0 (List.replicate 16 7),
    .recv (.data [5, 0, 0, 0, 1, 0, 0, 0, 0, 0, 0, 0, 0, 0, 0, 0]), .recv (.data [0, 0]),
    .recv (.data [128, 63]), .take (), .process () 2000]

theorem readings_delivered_light : ∃ x : Delivery Nat Unit,
    Machine.run (step android_header) (init (fun _ => default) 50) light_delivered = some x ∧
      x.sensors.hal.history.taken = x.taken.map message ∧
      ((x.taken.filter fun pushed => pushed.client = 0).map (Pushed.frame android_header)).Sublist
        ((event_format android_header).parse 0 (x.channel.history.received 0)) ∧
      ∃ answer ∈ x.sensors.returns, ∃ reported ∈ answer.events,
        reported.type = 5 ∧ reported.data 0 = 0x3F800000 ∧ ∃ client,
          ∃ frame ∈ (event_format android_header).parse 0 (x.channel.history.received client),
            header_type frame.head = 5 ∧ Bytes.toWord (frame.body.drop 0) = 0x3F800000 := by
  obtain ⟨x, hrun, hreturns⟩ : ∃ x : Delivery Nat Unit,
      Machine.run (step android_header) (init (fun _ => default) 50) light_delivered = some x ∧
        decide (∃ answer ∈ x.sensors.returns, ∃ reported ∈ answer.events,
          reported.type = 5 ∧ reported.data 0 = 0x3F800000) = true :=
    Option.map_eq_some_iff.mp (by decide +kernel)
  obtain ⟨answer, hanswer, reported, hreported, htype, hword⟩ := of_decide_eq_true hreturns
  have hclean : ∀ outcome, .recv outcome ∈ light_delivered → outcome.ends = false := by
    intro outcome hmem
    simp only [light_delivered, List.mem_cons, DeliveryEvent.recv.injEq, reduceCtorEq, false_or,
      or_false, List.not_mem_nil] at hmem
    rcases hmem with rfl | rfl | rfl <;> rfl
  obtain ⟨htaken, hframes, hvalues⟩ :=
    readings_delivered android_header _ 50 light_delivered x hclean hrun
  have hdata : reported.type ≠ SENSOR_TYPE_META_DATA := by
    rw [htype]
    decide
  obtain ⟨sensor, _, hsensor, hframe⟩ := hvalues answer hanswer reported hreported hdata
  have hlight : sensor = .LIGHT := by
    rw [htype] at hsensor
    revert hsensor
    cases sensor <;> decide
  subst hlight
  obtain ⟨client, frame, hmem, writer, hhead, hwriter, hwords⟩ := hframe (by decide)
  have hown : writer = .LIGHT := by
    revert hwriter
    cases writer <;> decide
  subst hown
  exact ⟨x, hrun, htaken, hframes 0, answer, hanswer, reported, hreported, htype, hword, client,
    frame, hmem, hhead, (hwords 0 (by decide)).symm.trans hword⟩

end Delivery

end SensorVhal
