import SensorVhal.Lib.Pipe
import SensorVhal.Stream.Assembly

namespace SensorVhal

-- Which end of a connection sends.
inductive Direction
  | to_client
  | to_server
  deriving DecidableEq

def Direction.send_data : Direction → DataLoop
  | to_client => SockServer.send_data
  | to_server => SockClient.send_data

def Direction.recv_data : Direction → DataLoop
  | to_client => SockClient.recv_data
  | to_server => SockServer.recv_data

-- A call of send_data between its system calls.
structure Outgoing where
  mode : LoopMode
  data : List UInt8
  call : SendCall

-- A call of recv_data, with its buffer as it was before.
structure Incoming where
  mode : LoopMode
  memory : List UInt8
  len : Nat
  call : RecvCall

structure SentData where
  data : List UInt8
  ret : Int

structure ReceivedData where
  memory : List UInt8
  len : Nat
  buffer : List UInt8
  bytes : List UInt8
  ret : Int

-- What a call that returned has put into the socket.
def SentData.taken (record : SentData) : List UInt8 := record.data.take record.ret.toNat

-- The two ends of one direction of a connection, the bytes between them, and the
-- calls that have returned.
structure Conversation where
  pipe : Pipe.State UInt8
  sender : Option Outgoing
  receiver : Option Incoming
  sent : List SentData
  received : List ReceivedData

-- A call begins, a system call of it returns, or a call in SOCK_NONBLOCK_MODE makes
-- its only system call.
inductive ConversationEvent
  | send (mode : LoopMode) (data : List UInt8) (timeout_ms : Int)
  | sender_io (io : IoResult)
  | send_nonblock (data : List UInt8) (io : IoResult)
  | recv (mode : LoopMode) (memory : List UInt8) (len : Nat) (timeout_ms : Int)
  | receiver_io (outcome : RecvOutcome)
  | recv_nonblock (memory : List UInt8) (len : Nat) (outcome : RecvOutcome)

def IoResult.ret : IoResult → Int
  | moved ret => ret
  | failed ret _ => ret

namespace Conversation

def init : Conversation := ⟨.empty, none, none, [], []⟩

variable (x : Conversation)

-- What the running calls have moved.
def on_the_way : List UInt8 :=
  match x.sender with
  | none => []
  | some out => out.call.sent

def coming_in : List UInt8 :=
  match x.receiver with
  | none => []
  | some incoming => incoming.call.received

-- A call of send_data has come to its next system call, or returns.
def sending (out : Outgoing) : Conversation :=
  match out.call.progress with
  | .looping _ => { x with sender := some out }
  | .returned ret => { x with sender := none, sent := x.sent ++ [⟨out.data, ret⟩] }

def receiving (incoming : Incoming) : Conversation :=
  match incoming.call.progress with
  | .looping _ => { x with receiver := some incoming }
  | .returned ret =>
    { x with
      receiver := none
      received := x.received ++ [⟨incoming.memory, incoming.len, incoming.call.buffer,
        incoming.call.received, ret⟩] }

variable (capacity : Nat) (dir : Direction)

-- One call at a time at each end. A send takes no more than there is room for, and a
-- recv gives what is at the front.
def step (x : Conversation) : ConversationEvent → Option Conversation
  | .send mode data timeout_ms =>
    match x.sender with
    | some _ => none
    | none => some (x.sending ⟨mode, data, .start true data.length timeout_ms⟩)
  | .sender_io io =>
    match x.sender with
    | none => none
    | some out =>
      let chunk := out.call.progress.taken out.data io
      if x.pipe.content.length + chunk.length ≤ capacity then
        (out.call.step (dir.send_data out.mode) out.data io).map fun call =>
          ({ x with pipe := x.pipe.put chunk } : Conversation).sending { out with call := call }
      else none
  | .send_nonblock data io =>
    match x.sender with
    | some _ => none
    | none =>
      let chunk := data.take io.bytes
      if io.possible data.length ∧ x.pipe.content.length + chunk.length ≤ capacity then
        some { x with pipe := x.pipe.put chunk, sent := x.sent ++ [⟨data, io.ret⟩] }
      else none
  | .recv mode memory len timeout_ms =>
    match x.receiver with
    | some _ => none
    | none => some (x.receiving ⟨mode, memory, len, .start true memory len timeout_ms⟩)
  | .receiver_io outcome =>
    match x.receiver with
    | none => none
    | some incoming =>
      if outcome.chunk <+: x.pipe.content then
        (incoming.call.step (dir.recv_data incoming.mode) outcome).map fun call =>
          ({ x with pipe := x.pipe.take outcome.chunk.length } : Conversation).receiving
            { incoming with call := call }
      else none
  | .recv_nonblock memory len outcome =>
    match x.receiver with
    | some _ => none
    | none =>
      if outcome.result.possible len ∧ outcome.chunk <+: x.pipe.content then
        some { x with
          pipe := x.pipe.take outcome.chunk.length
          received := x.received ++ [⟨memory, len, Bytes.overwrite memory 0 outcome.chunk,
            outcome.chunk, outcome.result.ret⟩] }
      else none

end Conversation

section Calls

variable {c : DataCall} {t : Transfer}

theorem DataCall.step_of_possible (io : IoResult) (loop : Transfer → IoResult → Turn)
    (hprogress : c.progress = .looping t) (hpossible : io.possible t.left_size = true) :
    ∃ next, c.step loop io = some next := by
  refine ⟨⟨(loop t io).progress, c.calls ++ [⟨t.p_src, t.left_size, io⟩]⟩, ?_⟩
  simp only [DataCall.step, hprogress, hpossible, if_true]

-- A nonblocking call reports what its system call has moved.
theorem IoResult.bytes_eq {io : IoResult} {len : Nat} (h : io.possible len = true) : io.bytes = io.ret.toNat := by
  cases io with
  | moved ret => rfl
  | failed ret errno =>
      have hneg : ret ≤ 0 := of_decide_eq_true h
      show 0 = ret.toNat
      omega

end Calls

namespace Conversation

-- What went in and out is what the calls report, in order.
structure Sound (capacity : Nat) (x : Conversation) : Prop where
  pipe : x.pipe.Sound capacity
  entered : x.pipe.entered = (x.sent.map SentData.taken).flatten ++ x.on_the_way
  left : x.pipe.left = (x.received.map ReceivedData.bytes).flatten ++ x.coming_in
  sender : ∀ out, x.sender = some out →
    out.call.Assembled out.mode out.data out.data.length ∧ ∃ t, out.call.progress = .looping t
  receiver : ∀ incoming, x.receiver = some incoming →
    incoming.call.Assembled incoming.mode incoming.memory incoming.len ∧
      ∃ t, incoming.call.progress = .looping t
  received : ∀ record ∈ x.received, record.bytes.length = record.ret.toNat ∧
    record.buffer = record.bytes ++ record.memory.drop record.bytes.length

variable {capacity : Nat} {dir : Direction} {x next : Conversation}

theorem sound_init (capacity : Nat) : init.Sound capacity where
  pipe := Pipe.State.sound_empty capacity
  entered := rfl
  left := rfl
  sender _ h := by cases h
  receiver _ h := by cases h
  received _ h := absurd h List.not_mem_nil

-- A call of send_data goes on, with what has gone into the pipe by then.
theorem Sound.sending (h : x.Sound capacity) (out : Outgoing) {pipe : Pipe.State UInt8}
    (hpipe : pipe.Sound capacity) (hleft : pipe.left = x.pipe.left)
    (hout : out.call.Assembled out.mode out.data out.data.length)
    (hentered : pipe.entered = (x.sent.map SentData.taken).flatten ++ out.call.sent) :
    (({ x with pipe := pipe } : Conversation).sending out).Sound capacity := by
  unfold Conversation.sending
  split
  · rename_i t hprogress
    exact { h with
      pipe := hpipe
      entered := hentered
      left := hleft.trans h.left
      sender := fun other hother => by
        obtain rfl := Option.some.inj hother
        exact ⟨hout, t, hprogress⟩ }
  · rename_i ret hprogress
    obtain ⟨hret, _, _⟩ := hout.1.returned ret hprogress
    have htaken : (SentData.mk out.data ret).taken = out.call.sent := by
      rw [SentData.taken, hret, hout.2]
      rfl
    exact { h with
      pipe := hpipe
      left := hleft.trans h.left
      sender := fun other hother => by cases hother
      entered := by
        show pipe.entered = ((x.sent ++ [SentData.mk out.data ret]).map SentData.taken).flatten ++ []
        rw [hentered, List.map_append, List.flatten_append, List.append_nil, ← htaken]
        simp }

theorem Sound.receiving (h : x.Sound capacity) (incoming : Incoming) {pipe : Pipe.State UInt8}
    (hpipe : pipe.Sound capacity) (hentered : pipe.entered = x.pipe.entered)
    (hin : incoming.call.Assembled incoming.mode incoming.memory incoming.len)
    (hleft : pipe.left =
      (x.received.map ReceivedData.bytes).flatten ++ incoming.call.received) :
    (({ x with pipe := pipe } : Conversation).receiving incoming).Sound capacity := by
  obtain ⟨hsound, hlength, hbuffer⟩ := hin
  unfold Conversation.receiving
  split
  · rename_i t hprogress
    exact { h with
      pipe := hpipe
      entered := hentered.trans h.entered
      left := hleft
      receiver := fun other hother => by
        obtain rfl := Option.some.inj hother
        exact ⟨⟨hsound, hlength, hbuffer⟩, t, hprogress⟩ }
  · rename_i ret hprogress
    obtain ⟨hret, _, _⟩ := hsound.returned ret hprogress
    exact { h with
      pipe := hpipe
      entered := hentered.trans h.entered
      receiver := fun other hother => by cases hother
      left := by
        rw [hleft, List.map_append, List.flatten_append]
        simp [coming_in]
      received := fun record hrecord => by
        rcases List.mem_append.mp hrecord with hold | hnew
        · exact h.received record hold
        · rw [List.mem_singleton.mp hnew]
          refine ⟨?_, ?_⟩
          · show incoming.call.received.length = ret.toNat
            rw [hlength, hret]
            rfl
          · show incoming.call.buffer = _
            rw [hbuffer, hlength] }

theorem send_data_eq (dir : Direction) (mode : LoopMode) :
    dir.send_data mode = Transfer.turn mode.retries mode.timed := by
  cases dir
  · exact DataLoop.eq_turn _ (.inl rfl) mode
  · exact DataLoop.eq_turn _ (.inr (.inr (.inl rfl))) mode

theorem recv_data_eq (dir : Direction) (mode : LoopMode) :
    dir.recv_data mode = Transfer.turn mode.retries mode.timed := by
  cases dir
  · exact DataLoop.eq_turn _ (.inr (.inr (.inr rfl))) mode
  · exact DataLoop.eq_turn _ (.inr (.inl rfl)) mode

theorem Sound.step {event : ConversationEvent} (h : x.Sound capacity)
    (hstep : x.step capacity dir event = some next) : next.Sound capacity := by
  cases event with
  | send mode data timeout_ms =>
      simp only [Conversation.step] at hstep
      split at hstep
      · cases hstep
      · rename_i hnone
        obtain rfl := Option.some.inj hstep
        have hentered := h.entered
        simp only [on_the_way, hnone] at hentered
        exact h.sending ⟨mode, data, _⟩ h.pipe rfl ⟨DataCall.sound_start mode data.length timeout_ms, rfl⟩ hentered
  | sender_io io =>
      simp only [Conversation.step] at hstep
      split at hstep
      · cases hstep
      · rename_i out hout
        obtain ⟨hroom, hcall⟩ := Option.ite_none_right_eq_some.mp hstep
        obtain ⟨call, hio, rfl⟩ := Option.map_eq_some_iff.mp hcall
        rw [send_data_eq] at hio
        have hentered := h.entered
        simp only [on_the_way, hout] at hentered
        have hnext := SendCall.assembled_step (h.sender out hout).1 hio
        obtain ⟨d, hd, rfl⟩ := Option.map_eq_some_iff.mp hio
        refine h.sending ⟨out.mode, out.data, _⟩ (h.pipe.put hroom) rfl hnext ?_
        show x.pipe.entered ++ _ = _
        rw [hentered, List.append_assoc]
  | send_nonblock data io =>
      simp only [Conversation.step] at hstep
      split at hstep
      · cases hstep
      · rename_i hnone
        obtain ⟨⟨hpossible, hroom⟩, hnext⟩ := Option.ite_none_right_eq_some.mp hstep
        obtain rfl := Option.some.inj hnext
        have hentered := h.entered
        simp only [on_the_way, hnone, List.append_nil] at hentered
        exact { h with
          pipe := h.pipe.put hroom
          entered := by
            simp only [on_the_way, hnone, Pipe.State.put, hentered, List.map_append,
              List.flatten_append, IoResult.bytes_eq hpossible]
            simp [SentData.taken] }
  | recv mode memory len timeout_ms =>
      simp only [Conversation.step] at hstep
      split at hstep
      · cases hstep
      · rename_i hnone
        obtain rfl := Option.some.inj hstep
        have hleft := h.left
        simp only [coming_in, hnone] at hleft
        exact h.receiving ⟨mode, memory, len, _⟩ h.pipe rfl
          ⟨DataCall.sound_start mode len timeout_ms, rfl, rfl⟩ hleft
  | receiver_io outcome =>
      simp only [Conversation.step] at hstep
      split at hstep
      · cases hstep
      · rename_i incoming hincoming
        obtain ⟨hfront, hcall⟩ := Option.ite_none_right_eq_some.mp hstep
        obtain ⟨call, hio, rfl⟩ := Option.map_eq_some_iff.mp hcall
        rw [recv_data_eq] at hio
        have hleft := h.left
        simp only [coming_in, hincoming] at hleft
        have hnext := RecvCall.assembled_step (h.receiver incoming hincoming).1 hio
        obtain ⟨d, hd, rfl⟩ := Option.map_eq_some_iff.mp hio
        refine h.receiving ⟨incoming.mode, incoming.memory, incoming.len, _⟩
          (h.pipe.take _) rfl hnext ?_
        show x.pipe.left ++ _ = _
        rw [hleft, ← List.prefix_iff_eq_take.mp hfront, List.append_assoc]
  | recv_nonblock memory len outcome =>
      simp only [Conversation.step] at hstep
      split at hstep
      · cases hstep
      · rename_i hnone
        obtain ⟨⟨hpossible, hfront⟩, hnext⟩ := Option.ite_none_right_eq_some.mp hstep
        obtain rfl := Option.some.inj hnext
        have hleft := h.left
        simp only [coming_in, hnone, List.append_nil] at hleft
        exact { h with
          pipe := h.pipe.take _
          left := by
            simp only [coming_in, hnone, Pipe.State.take, hleft, List.map_append,
              List.flatten_append, ← List.prefix_iff_eq_take.mp hfront]
            simp
          received := fun record hrecord => by
            rcases List.mem_append.mp hrecord with hold | hnew
            · exact h.received record hold
            · rw [List.mem_singleton.mp hnew]
              refine ⟨?_, ?_⟩
              · show outcome.chunk.length = outcome.result.ret.toNat
                rw [outcome.length_chunk, IoResult.bytes_eq hpossible]
              · show Bytes.overwrite memory 0 outcome.chunk = _
                simp [Bytes.overwrite] }

-- What came out and what is still inside is what went in.
theorem Sound.stream (h : x.Sound capacity) :
    (x.received.map ReceivedData.bytes).flatten ++ x.coming_in ++ x.pipe.content =
      (x.sent.map SentData.taken).flatten ++ x.on_the_way := by
  rw [← h.left, ← h.entered]
  exact h.pipe.order.symm

-- The running call has bytes left.
theorem Sound.length_on_the_way (h : x.Sound capacity) {out : Outgoing}
    (hout : x.sender = some out) : x.on_the_way.length < out.data.length := by
  obtain ⟨⟨hsound, hsent⟩, t, hprogress⟩ := h.sender out hout
  obtain ⟨hopen, hsrc⟩ := hsound.looping t hprogress
  have hsum := hopen.sum
  have hleft := hopen.left
  simp only [on_the_way, hout, hsent, List.length_take]
  omega

-- Whole records of one size come out as they went in.
theorem Sound.records (h : x.Sound capacity) {n : Nat} (hpos : 0 < n)
    (hsent : ∀ record ∈ x.sent, record.data.length = n ∧ record.ret = n)
    (hsending : ∀ out, x.sender = some out → out.data.length = n)
    (hreceived : ∀ record ∈ x.received, record.bytes.length = n) :
    x.received.map ReceivedData.bytes <+: x.sent.map SentData.data := by
  have htaken : x.sent.map SentData.taken = x.sent.map SentData.data := by
    apply List.map_congr_left
    intro record hrecord
    obtain ⟨hlength, hret⟩ := hsent record hrecord
    rw [SentData.taken, hret, ← hlength]
    exact List.take_length
  have hlast : x.on_the_way.length < n := by
    cases hsender : x.sender with
    | none =>
        simp only [on_the_way, hsender, List.length_nil]
        exact hpos
    | some out =>
        rw [← hsending out hsender]
        exact h.length_on_the_way hsender
  have hstream := h.stream
  rw [htaken, List.append_assoc] at hstream
  refine Pipe.prefix_of_flatten ?_ ?_ hlast hstream
  · intro bytes hbytes
    obtain ⟨record, hrecord, rfl⟩ := List.mem_map.mp hbytes
    exact hreceived record hrecord
  · intro data hdata
    obtain ⟨record, hrecord, rfl⟩ := List.mem_map.mp hdata
    exact (hsent record hrecord).1

-- With a call at each end, one of them can move a byte.
theorem Sound.moves (h : x.Sound capacity) (hpos : 0 < capacity) {out : Outgoing}
    {incoming : Incoming} (hout : x.sender = some out) (hin : x.receiver = some incoming) :
    (∃ next, x.step capacity dir (.sender_io (.moved 1)) = some next) ∨
      ∃ byte next, x.step capacity dir (.receiver_io (.data [byte])) = some next := by
  obtain ⟨⟨hsender, _⟩, t, ht⟩ := h.sender out hout
  obtain ⟨⟨hreceiver, _⟩, t', ht'⟩ := h.receiver incoming hin
  have hleft := (hsender.looping t ht).1.left
  have hleft' := (hreceiver.looping t' ht').1.left
  cases hcontent : x.pipe.content with
  | nil =>
      left
      obtain ⟨d, hd⟩ := DataCall.step_of_possible (.moved 1) (dir.send_data out.mode) ht
        (decide_eq_true ⟨Nat.one_pos, hleft⟩)
      have hroom : (out.call.progress.taken out.data (.moved 1)).length ≤ capacity := by
        simp only [ht, Progress.taken, IoResult.bytes, List.length_take]
        omega
      simp only [Conversation.step, hout, hcontent, List.length_nil, Nat.zero_add, hroom, if_true,
        SendCall.step, hd, Option.map_some]
      exact ⟨_, rfl⟩
  | cons byte content =>
      right
      obtain ⟨d, hd⟩ := DataCall.step_of_possible (.moved 1) (dir.recv_data incoming.mode) ht'
        (decide_eq_true ⟨Nat.one_pos, hleft'⟩)
      have hfront : (RecvOutcome.data [byte]).chunk <+: x.pipe.content := by
        rw [hcontent]
        exact ⟨content, rfl⟩
      obtain ⟨call, hcall⟩ : ∃ call, incoming.call.step (dir.recv_data incoming.mode)
          (.data [byte]) = some call := by
        refine ⟨_, Option.map_eq_some_iff.mpr ⟨d, hd, rfl⟩⟩
      refine ⟨byte, ?_⟩
      simp only [Conversation.step, hin]
      rw [if_pos hfront, hcall, Option.map_some]
      exact ⟨_, rfl⟩

-- One direction of a connection, whatever calls the two ends make and the system gives:
-- bytes come out as they went in, records of one size that were sent and received
-- whole are received in order, none lost or twice, and no two calls wait for each other.
theorem records_delivered (capacity : Nat) (dir : Direction) (events : List ConversationEvent)
    (x : Conversation) (hrun : Machine.run (step capacity dir) init events = some x) :
    x.pipe.content.length ≤ capacity ∧
    (x.received.map ReceivedData.bytes).flatten ++ x.coming_in ++ x.pipe.content =
      (x.sent.map SentData.taken).flatten ++ x.on_the_way ∧
    (∀ record ∈ x.received, record.bytes.length = record.ret.toNat ∧
      record.buffer = record.bytes ++ record.memory.drop record.bytes.length) ∧
    (∀ n, 0 < n → (∀ record ∈ x.sent, record.data.length = n ∧ record.ret = n) →
      (∀ out, x.sender = some out → out.data.length = n) →
      (∀ record ∈ x.received, record.ret = n) →
      x.received.map ReceivedData.bytes <+: x.sent.map SentData.data) ∧
    (0 < capacity → x.sender ≠ none → x.receiver ≠ none →
      (∃ next, x.step capacity dir (.sender_io (.moved 1)) = some next) ∨
        ∃ byte next, x.step capacity dir (.receiver_io (.data [byte])) = some next) := by
  have h : x.Sound capacity :=
    Machine.invariant_always (fun _ _ _ hs hstep => hs.step hstep) (sound_init capacity) hrun
  refine ⟨h.pipe.length, h.stream, h.received, ?_, ?_⟩
  · intro n hpos hsent hsending hreceived
    refine h.records hpos hsent hsending fun record hrecord => ?_
    rw [(h.received record hrecord).1, hreceived record hrecord]
    rfl
  · intro hpos hsender hreceiver
    obtain ⟨out, hout⟩ := Option.ne_none_iff_exists'.mp hsender
    obtain ⟨incoming, hin⟩ := Option.ne_none_iff_exists'.mp hreceiver
    exact h.moves hpos hout hin

-- Two records of four bytes, the first one received in other pieces than it was sent in,
-- and a third one that is to be sent.
def two_records : List ConversationEvent :=
  [.send .TIMEOUT_MODE [1, 2, 3, 4] 5, .recv .BLOCK_MODE [0, 0, 0, 0] 4 5, .sender_io (.moved 3),
    .sender_io (.failed (-1) EAGAIN), .receiver_io (.data [1, 2]), .sender_io (.moved 1),
    .receiver_io (.data [3, 4]), .send_nonblock [5, 6, 7, 8] (.moved 4),
    .recv_nonblock [0, 0, 0, 0] 4 (.data [5, 6, 7, 8]), .send .TIMEOUT_MODE [9, 9, 9, 9] 5,
    .recv .BLOCK_MODE [0, 0, 0, 0] 4 5]

theorem records_delivered_two : ∃ x, Machine.run (step 4 .to_client) init two_records = some x ∧
    x.received.length = 2 ∧ x.pipe.content.length ≤ 4 ∧
    (x.received.map ReceivedData.bytes).flatten ++ x.coming_in ++ x.pipe.content =
      (x.sent.map SentData.taken).flatten ++ x.on_the_way ∧
    (∀ record ∈ x.received, record.bytes.length = record.ret.toNat ∧
      record.buffer = record.bytes ++ record.memory.drop record.bytes.length) ∧
    x.received.map ReceivedData.bytes <+: [[1, 2, 3, 4], [5, 6, 7, 8]] ∧
    ((∃ next, x.step 4 .to_client (.sender_io (.moved 1)) = some next) ∨
      ∃ byte next, x.step 4 .to_client (.receiver_io (.data [byte])) = some next) := by
  obtain ⟨x, hrun, hx⟩ : ∃ x, Machine.run (step 4 .to_client) init two_records = some x ∧
      decide (x.received.length = 2 ∧ x.sent.map SentData.data = [[1, 2, 3, 4], [5, 6, 7, 8]] ∧
        (∀ record ∈ x.sent, record.data.length = 4 ∧ record.ret = (4 : Nat)) ∧
        (∀ record ∈ x.received, record.ret = (4 : Nat)) ∧
        x.sender.map (fun out => out.data.length) = some 4 ∧ x.receiver.isSome) = true :=
    Option.map_eq_some_iff.mp (by decide +kernel)
  obtain ⟨htwo, hdata, hsent, hreceived, hsender, hreceiver⟩ := of_decide_eq_true hx
  obtain ⟨hlength, hstream, hbuffers, hwhole, hmoves⟩ :=
    records_delivered 4 .to_client two_records x hrun
  have hsending : ∀ out, x.sender = some out → out.data.length = 4 := by
    intro out hout
    rw [hout] at hsender
    exact Option.some.inj hsender
  have hinside : x.sender ≠ none := by
    intro hnone
    rw [hnone] at hsender
    cases hsender
  refine ⟨x, hrun, htwo, hlength, hstream, hbuffers, ?_, ?_⟩
  · rw [← hdata]
    exact hwhole 4 (by decide) hsent hsending hreceived
  · exact hmoves (by decide) hinside (Option.isSome_iff_ne_none.mp hreceiver)

end Conversation

end SensorVhal
