import Mathlib.Data.List.ReduceOption
import SensorVhal.Pipeline.Threads
import SensorVhal.Stream.Framing

namespace SensorVhal

section Room

variable {β : Type}

theorem make_room_of_lt {queue : List β} (h : queue.length < MAX_MSG_QUEUE_SIZE) (pool : List β) :
    make_room queue pool = (queue, pool) ∧ drops queue = [] := by
  cases queue with
  | nil => exact ⟨rfl, rfl⟩
  | cons front queue => exact ⟨if_neg (Nat.not_le.mpr h), if_neg (Nat.not_le.mpr h)⟩

-- A full queue loses its oldest entry, and one entry only.
theorem make_room_of_full {front : β} {queue : List β}
    (h : (front :: queue).length = MAX_MSG_QUEUE_SIZE) (pool : List β) :
    make_room (front :: queue) pool = (queue, pool ++ [front]) ∧
      drops (front :: queue) = [front :: queue] := by
  have hrest : queue.length < MAX_MSG_QUEUE_SIZE := by
    rw [List.length_cons] at h
    omega
  obtain ⟨hroom, hdrops⟩ := make_room_of_lt hrest (pool ++ [front])
  constructor
  · rw [make_room, if_pos (Nat.le_of_eq h.symm), hroom]
  · rw [drops, if_pos (Nat.le_of_eq h.symm), hdrops]

end Room

-- The buffers that a thread owns while it stands somewhere.
def ListenerStage.held : ListenerStage → List Buffer
  | filling buf_ptr _ | pushing buf_ptr => [buf_ptr]
  | _ => []

def PollStage.held : PollStage → List Buffer
  | asleep _ buf_ptr | ready _ buf_ptr | waiting _ buf_ptr _ | taken _ buf_ptr => buf_ptr.toList
  | _ => []

-- The callback goes on with a header of a supported type only.
def Supported (hdr : SensorsHeader) (bytes : List UInt8) : Prop :=
  get_payload_len hdr (header_type bytes) ≠ 0

namespace Pipeline

variable (hdr : SensorsHeader) (x : Pipeline)

def owners : Multiset Buffer :=
  ↑x.m_msg_mem_pool.reduceOption + ↑x.m_sensor_msg_queue.reduceOption + ↑x.listener.held +
    ↑x.poll.held

-- The number of buffers in the pool, in the queue and with the two threads.
def population : Nat :=
  x.m_msg_mem_pool.length + x.m_sensor_msg_queue.length + x.listener.held.length +
    x.poll.held.length

-- Between its test of the pool and the new buffer only the poll thread can give
-- one back, so there are fewer buffers than the bound.
def ListenerSound : Prop :=
  match x.listener with
  | .idle => True
  | .received header => header.length = HEADER_SIZE ∧ Supported hdr header
  | .creating header =>
      header.length = HEADER_SIZE ∧ Supported hdr header ∧ x.population ≤ MAX_MSG_QUEUE_SIZE + 1
  | .popping header =>
      header.length = HEADER_SIZE ∧ Supported hdr header ∧ x.m_msg_mem_pool ≠ []
  | .filling buffer payload_len =>
      payload_len = get_payload_len hdr (header_type (x.contents buffer)) ∧
        Supported hdr (x.contents buffer)
  | .pushing buffer => Supported hdr (x.contents buffer)
  | .undefined => False

-- The buffer in the poll thread's hand holds the message that was taken last.
def PollSound : Prop :=
  ∀ count buf_ptr, x.poll = .taken count buf_ptr → ∃ buffer, buf_ptr = some buffer ∧
    Supported hdr (x.contents buffer) ∧ x.history.taken.getLast? = some (x.contents buffer)

structure Custody : Prop where
  pool : none ∉ x.m_msg_mem_pool
  queue : none ∉ x.m_sensor_msg_queue
  owners : x.owners = ↑x.live
  distinct : x.live.Nodup
  size : ∀ buffer ∈ x.live, (x.contents buffer).length = BUFFER_SIZE
  supported : ∀ buffer, some buffer ∈ x.m_sensor_msg_queue → Supported hdr (x.contents buffer)
  room : x.m_sensor_msg_queue.length ≤ MAX_MSG_QUEUE_SIZE
  bounded : x.population ≤ MAX_MSG_QUEUE_SIZE + 2
  listener : x.ListenerSound hdr
  poll : x.PollSound hdr

variable {hdr x}

theorem length_reduceOption_of_none {l : List (Option Buffer)} (h : none ∉ l) :
    l.reduceOption.length = l.length := by
  induction l with
  | nil => rfl
  | cons entry l ih =>
      cases entry with
      | none => exact absurd List.mem_cons_self h
      | some buffer =>
          rw [List.reduceOption_cons_of_some, List.length_cons, List.length_cons,
            ih fun hmem => h (List.mem_cons_of_mem _ hmem)]

-- Every live buffer is owned in one place.
theorem Custody.population_eq (h : x.Custody hdr) : x.population = x.live.length := by
  have hcard := congrArg Multiset.card h.owners
  simp only [Pipeline.owners, Multiset.card_add, Multiset.coe_card,
    length_reduceOption_of_none h.pool, length_reduceOption_of_none h.queue] at hcard
  exact hcard

theorem Custody.owners_nodup (h : x.Custody hdr) : x.owners.Nodup := by
  rw [h.owners]
  exact h.distinct

theorem mem_reduceOption {buffer : Buffer} {l : List (Option Buffer)} :
    buffer ∈ l.reduceOption ↔ some buffer ∈ l := List.reduceOption_mem_iff

-- What the listener writes to is neither in the queue nor with the poll.
theorem Custody.apart (h : x.Custody hdr) {buffer other : Buffer}
    (hbuffer : some buffer ∈ x.m_msg_mem_pool ∨ buffer ∈ x.listener.held)
    (hother : some other ∈ x.m_sensor_msg_queue ∨ other ∈ x.poll.held) : other ≠ buffer := by
  rintro rfl
  have hsplit : x.owners = (↑x.m_msg_mem_pool.reduceOption + ↑x.listener.held) +
      (↑x.m_sensor_msg_queue.reduceOption + ↑x.poll.held) := by
    rw [Pipeline.owners]
    ac_rfl
  have hnodup := h.owners_nodup
  rw [hsplit] at hnodup
  apply Multiset.disjoint_left.mp (Multiset.nodup_add.mp hnodup).2.2
  · rw [Multiset.mem_add, Multiset.mem_coe, Multiset.mem_coe, mem_reduceOption]
    exact hbuffer
  · rw [Multiset.mem_add, Multiset.mem_coe, Multiset.mem_coe, mem_reduceOption]
    exact hother

theorem Custody.mem_live (h : x.Custody hdr) {buffer : Buffer}
    (hmem : some buffer ∈ x.m_msg_mem_pool ∨ some buffer ∈ x.m_sensor_msg_queue ∨
      buffer ∈ x.listener.held ∨ buffer ∈ x.poll.held) : buffer ∈ x.live := by
  have hlive : buffer ∈ x.owners := by
    simp only [Pipeline.owners, Multiset.mem_add, Multiset.mem_coe, mem_reduceOption]
    tauto
  rw [h.owners] at hlive
  exact hlive

theorem held_filling {buffer : Buffer} {payload_len : Nat}
    (hpc : x.listener = .filling buffer payload_len) : buffer ∈ x.listener.held := by
  rw [hpc]
  exact List.mem_singleton_self buffer

theorem held_taken {count : Int} {buffer : Buffer} (hpc : x.poll = .taken count (some buffer)) :
    buffer ∈ x.poll.held := by
  rw [hpc]
  exact List.mem_singleton_self buffer

-- A poll keeps its message where the contents of its buffer stay.
theorem Custody.poll_kept {y : Pipeline} (h : x.Custody hdr) (hpoll : y.poll = x.poll)
    (htaken : y.history.taken = x.history.taken)
    (hcontents : ∀ buffer ∈ x.poll.held, y.contents buffer = x.contents buffer) :
    y.PollSound hdr := by
  intro count buf_ptr hpc
  rw [hpoll] at hpc
  obtain ⟨buffer, rfl, hmessage⟩ := h.poll count buf_ptr hpc
  refine ⟨buffer, rfl, ?_⟩
  rw [htaken, hcontents buffer (held_taken hpc)]
  exact hmessage

theorem custody_init (memory : Handle → SensorsEvent) (log_trace_count : Int) :
    (init memory log_trace_count).Custody hdr where
  pool := by
    simp [init]
  queue := List.not_mem_nil
  owners := rfl
  distinct := List.nodup_range
  size := fun _ _ => rfl
  supported := fun _ h => absurd h List.not_mem_nil
  room := Nat.zero_le _
  bounded := by
    have hsixteen : (init memory log_trace_count).population = 16 := rfl
    rw [hsixteen]
    decide
  listener := trivial
  poll := fun _ _ h => PollStage.noConfusion h

-- Moves that leave all buffers where they are.
theorem Custody.stay {y : Pipeline} (h : x.Custody hdr)
    (hpool : y.m_msg_mem_pool = x.m_msg_mem_pool)
    (hqueue : y.m_sensor_msg_queue = x.m_sensor_msg_queue) (hcontents : y.contents = x.contents)
    (hlive : y.live = x.live) (hlistener : y.listener.held = x.listener.held)
    (hpoll : y.poll.held = x.poll.held) (hlistenerSound : y.ListenerSound hdr)
    (hpollSound : y.PollSound hdr) : y.Custody hdr where
  pool := hpool ▸ h.pool
  queue := hqueue ▸ h.queue
  owners := by
    rw [Pipeline.owners, hpool, hqueue, hlistener, hpoll, hlive]
    exact h.owners
  distinct := hlive ▸ h.distinct
  size := by
    rw [hlive, hcontents]
    exact h.size
  supported := by
    rw [hqueue, hcontents]
    exact h.supported
  room := hqueue ▸ h.room
  bounded := by
    rw [population, hpool, hqueue, hlistener, hpoll]
    exact h.bounded
  listener := hlistenerSound
  poll := hpollSound

section Write

theorem header_type_overwrite {buffer header : List UInt8} (hheader : header.length = HEADER_SIZE) :
    header_type (Bytes.overwrite buffer 0 header) = header_type header := by
  have htake := Bytes.take_overwrite header (Nat.zero_le buffer.length)
  rw [hheader, Nat.zero_add, List.take_zero, List.nil_append] at htake
  rw [← header_type_take, htake]

theorem header_type_overwrite_payload {buffer : List UInt8} (chunk : List UInt8)
    (hsize : buffer.length = BUFFER_SIZE) :
    header_type (Bytes.overwrite buffer HEADER_SIZE chunk) = header_type buffer := by
  have hle : HEADER_SIZE ≤ buffer.length := by
    rw [hsize]
    decide
  rw [← header_type_take, Bytes.take_overwrite_of_le chunk (Nat.le_refl _) hle, header_type_take]

variable {buffer other : Buffer} {offset : Nat} {chunk : List UInt8}

@[simp] theorem write_contents_self : (x.write buffer offset chunk).contents buffer =
    Bytes.overwrite (x.contents buffer) offset chunk := Function.update_self _ _ _

theorem write_contents_of_ne (h : other ≠ buffer) :
    (x.write buffer offset chunk).contents other = x.contents other := Function.update_of_ne h _ _

theorem Custody.size_write (h : x.Custody hdr) (hlive : buffer ∈ x.live)
    (hfit : offset + chunk.length ≤ BUFFER_SIZE) {other : Buffer} (hother : other ∈ x.live) :
    ((x.write buffer offset chunk).contents other).length = BUFFER_SIZE := by
  by_cases hs : other = buffer
  · subst other
    rw [write_contents_self, Bytes.length_overwrite, h.size buffer hlive]
    rw [h.size buffer hlive]
    exact hfit
  · rw [write_contents_of_ne hs]
    exact h.size other hother

-- The messages in the queue and with the poll thread are not written to.
theorem Custody.supported_write (h : x.Custody hdr)
    (hbuffer : some buffer ∈ x.m_msg_mem_pool ∨ buffer ∈ x.listener.held) {other : Buffer}
    (hother : some other ∈ x.m_sensor_msg_queue) :
    Supported hdr ((x.write buffer offset chunk).contents other) := by
  rw [write_contents_of_ne (h.apart hbuffer (.inl hother))]
  exact h.supported other hother

theorem Custody.poll_write (h : x.Custody hdr)
    (hbuffer : some buffer ∈ x.m_msg_mem_pool ∨ buffer ∈ x.listener.held) :
    (x.write buffer offset chunk).PollSound hdr :=
  h.poll_kept rfl rfl fun _ hheld => write_contents_of_ne (h.apart hbuffer (.inr hheld))

end Write

section Steps

-- The pool is not empty where the callback pops, so it gets a buffer.
theorem Custody.pop (h : x.Custody hdr) {header : List UInt8}
    (hpc : x.listener = .popping header) : (x.pop hdr header).Custody hdr := by
  have hlistener := h.listener
  simp only [ListenerSound, hpc] at hlistener
  obtain ⟨hlength, hsupported, hnonempty⟩ := hlistener
  cases hpool : x.m_msg_mem_pool with
  | nil => exact absurd hpool hnonempty
  | cons entry pool =>
      cases entry with
      | none => exact absurd (hpool ▸ List.mem_cons_self) h.pool
      | some buffer =>
          have hmem : some buffer ∈ x.m_msg_mem_pool := hpool ▸ List.mem_cons_self
          have hlive : buffer ∈ x.live := h.mem_live (.inl hmem)
          have howners := h.owners
          have hbounded := h.bounded
          rw [Pipeline.owners, hpool, hpc, List.reduceOption_cons_of_some,
            ← List.singleton_append, ← Multiset.coe_add] at howners
          simp only [population, hpool, hpc, ListenerStage.held, List.length_cons,
            List.length_nil] at hbounded
          simp only [Pipeline.pop, hpool]
          refine ⟨?_, h.queue, ?_, h.distinct, fun other hother => ?_, fun other hother => ?_,
            h.room, ?_, ?_, ?_⟩
          · exact fun hnone => h.pool (hpool ▸ List.mem_cons_of_mem _ hnone)
          · refine Eq.trans ?_ howners
            simp only [Pipeline.owners, write, ListenerStage.held, Multiset.coe_nil, add_zero]
            ac_rfl
          · apply h.size_write hlive _ hother
            rw [hlength]
            decide
          · exact h.supported_write (.inl hmem) hother
          · simp only [population, write, ListenerStage.held, List.length_cons, List.length_nil]
            omega
          · simp only [ListenerSound, write, Function.update_self, Supported,
              header_type_overwrite hlength]
            exact ⟨trivial, hsupported⟩
          · exact h.poll_write (.inl hmem)

theorem Custody.create (h : x.Custody hdr) {header : List UInt8} {buffer : Buffer}
    (hpc : x.listener = .creating header) (hfresh : buffer ∉ x.live) :
    ({ x with
      m_msg_mem_pool := x.m_msg_mem_pool ++ [some buffer]
      contents := Function.update x.contents buffer new_buffer
      live := buffer :: x.live
      listener := .popping header } : Pipeline).Custody hdr := by
  have hlistener := h.listener
  simp only [ListenerSound, hpc] at hlistener
  obtain ⟨hlength, hsupported, hbounded⟩ := hlistener
  have howners := h.owners
  have hold : ∀ other ∈ x.live, Function.update x.contents buffer new_buffer other =
      x.contents other := by
    intro other hother
    have hne : other ≠ buffer := fun he => hfresh (he ▸ hother)
    exact Function.update_of_ne hne _ _
  refine ⟨?_, h.queue, ?_, ?_, fun other hother => ?_, fun other hother => ?_, h.room, ?_, ?_,
    ?_⟩
  · intro hnone
    rcases List.mem_append.mp hnone with hpool | hnew
    · exact h.pool hpool
    · cases List.mem_singleton.mp hnew
  · rw [Pipeline.owners, hpc] at howners
    rw [← Multiset.cons_coe, ← howners, ← Multiset.singleton_add]
    simp only [Pipeline.owners, ListenerStage.held, List.reduceOption_append,
      List.reduceOption_singleton, Option.toList_some, ← Multiset.coe_add, Multiset.coe_singleton]
    ac_rfl
  · exact List.nodup_cons.mpr ⟨hfresh, h.distinct⟩
  · rcases List.mem_cons.mp hother with rfl | hlive
    · simp only [Function.update_self]
      rfl
    · simp only [hold other hlive]
      exact h.size other hlive
  · simp only [hold other (h.mem_live (.inr (.inl hother)))]
    exact h.supported other hother
  · simp only [population, hpc, ListenerStage.held, List.length_append, List.length_singleton,
      List.length_nil] at hbounded ⊢
    omega
  · exact ⟨hlength, hsupported, List.append_ne_nil_of_right_ne_nil _ (List.cons_ne_nil _ _)⟩
  · exact h.poll_kept rfl rfl fun other hheld =>
      hold other (h.mem_live (.inr (.inr (.inr hheld))))

-- A buffer that a thread drops is no longer live.
theorem live_free {rest : Multiset Buffer} {y : Pipeline} {buf_ptr : Option Buffer}
    (h : rest + ↑buf_ptr.toList = ↑y.live) : rest = ↑(y.free buf_ptr).live := by
  cases buf_ptr with
  | none => exact (add_zero rest).symm.trans h
  | some buffer =>
      rw [free, ← Multiset.coe_erase, ← h, add_comm, Option.toList_some, Multiset.coe_singleton,
        Multiset.singleton_add, Multiset.erase_cons_head]

theorem mem_of_mem_free {y : Pipeline} {buf_ptr : Option Buffer} {buffer : Buffer}
    (h : buffer ∈ (y.free buf_ptr).live) : buffer ∈ y.live := by
  cases buf_ptr with
  | none => exact h
  | some other => exact List.mem_of_mem_erase h

theorem nodup_free {y : Pipeline} (buf_ptr : Option Buffer) (h : y.live.Nodup) :
    (y.free buf_ptr).live.Nodup := by
  cases buf_ptr with
  | none => exact h
  | some buffer => exact h.erase buffer

theorem Custody.payload_failed (h : x.Custody hdr) {buffer : Buffer} {payload_len : Nat}
    {bytes : List UInt8} (hpc : x.listener = .filling buffer payload_len)
    (hbytes : bytes.length ≤ payload_len) :
    (({ x.write buffer HEADER_SIZE bytes with listener := .idle } : Pipeline).free
      (some buffer)).Custody hdr := by
  have hlistener := h.listener
  simp only [ListenerSound, hpc] at hlistener
  have hheld := held_filling hpc
  have hle := get_payload_len_le hdr (header_type (x.contents buffer))
  have howners := h.owners
  have hbounded := h.bounded
  rw [Pipeline.owners, hpc] at howners
  simp only [population, hpc, ListenerStage.held, List.length_singleton] at hbounded
  refine ⟨h.pool, h.queue, ?_, h.distinct.erase _, fun other hother => ?_,
    fun other hother => h.supported_write (.inr hheld) hother, h.room, ?_, trivial,
    h.poll_write (.inr hheld)⟩
  · apply live_free
    refine Eq.trans ?_ howners
    simp only [Pipeline.owners, write, ListenerStage.held, Option.toList_some]
    ac_rfl
  · apply h.size_write (h.mem_live (.inr (.inr (.inl hheld)))) _ (List.mem_of_mem_erase hother)
    rw [BUFFER_SIZE]
    omega
  · simp only [population, free, write, ListenerStage.held, List.length_nil]
    omega

theorem Custody.payload_received (h : x.Custody hdr) {buffer : Buffer} {payload_len : Nat}
    {bytes : List UInt8} (hpc : x.listener = .filling buffer payload_len)
    (hbytes : bytes.length ≤ payload_len) :
    ({ x.write buffer HEADER_SIZE bytes with listener := .pushing buffer } : Pipeline).Custody
      hdr := by
  have hlistener := h.listener
  simp only [ListenerSound, hpc] at hlistener
  have hheld := held_filling hpc
  have hlive := h.mem_live (.inr (.inr (.inl hheld)))
  have hle := get_payload_len_le hdr (header_type (x.contents buffer))
  have howners := h.owners
  have hbounded := h.bounded
  rw [Pipeline.owners, hpc] at howners
  simp only [population, hpc, ListenerStage.held] at hbounded
  refine ⟨h.pool, h.queue, howners, h.distinct, fun other hother => ?_,
    fun other hother => h.supported_write (.inr hheld) hother, h.room, hbounded, ?_,
    h.poll_write (.inr hheld)⟩
  · apply h.size_write hlive _ hother
    rw [BUFFER_SIZE]
    omega
  · simp only [ListenerSound, write, Function.update_self, Supported,
      header_type_overwrite_payload bytes (h.size buffer hlive)]
    exact hlistener.2

@[simp] theorem held_notify (stage : PollStage) : stage.notify.held = stage.held := by
  cases stage <;> rfl

theorem notify_eq_taken {stage : PollStage} {count : Int} {buf_ptr : Option Buffer} :
    stage.notify = .taken count buf_ptr ↔ stage = .taken count buf_ptr := by
  cases stage <;> simp [PollStage.notify]

-- What the last critical section of the callback does to queue and pool.
theorem Custody.push_cases (h : x.Custody hdr) (buffer : Buffer) :
    (x.m_sensor_msg_queue.length < MAX_MSG_QUEUE_SIZE ∧
      (x.push buffer).m_sensor_msg_queue = x.m_sensor_msg_queue ++ [some buffer] ∧
      (x.push buffer).m_msg_mem_pool = x.m_msg_mem_pool ∧
      (x.push buffer).history.dropped = x.history.dropped) ∨
    ∃ front queue, x.m_sensor_msg_queue = some front :: queue ∧
      x.m_sensor_msg_queue.length = MAX_MSG_QUEUE_SIZE ∧
      (x.push buffer).m_sensor_msg_queue = queue ++ [some buffer] ∧
      (x.push buffer).m_msg_mem_pool = x.m_msg_mem_pool ++ [some front] ∧
      (x.push buffer).history.dropped =
        x.history.dropped ++ [x.m_sensor_msg_queue.map x.bytes] := by
  rcases Nat.lt_or_eq_of_le h.room with hlt | hfull
  · obtain ⟨hroom, _⟩ := make_room_of_lt hlt x.m_msg_mem_pool
    have hlength : (x.m_sensor_msg_queue.map x.bytes).length < MAX_MSG_QUEUE_SIZE := by
      rw [List.length_map]
      exact hlt
    obtain ⟨_, hdrops⟩ := make_room_of_lt hlength []
    left
    refine ⟨hlt, ?_, ?_, ?_⟩
    · simp only [push, hroom]
    · simp only [push, hroom]
    · simp only [push, hdrops, List.append_nil]
  · right
    cases hqueue : x.m_sensor_msg_queue with
    | nil =>
        rw [hqueue] at hfull
        cases hfull
    | cons entry queue =>
        cases entry with
        | none => exact absurd (hqueue ▸ List.mem_cons_self) h.queue
        | some front =>
            rw [hqueue] at hfull
            obtain ⟨hroom, _⟩ := make_room_of_full hfull x.m_msg_mem_pool
            have hlength : (x.bytes (some front) :: queue.map x.bytes).length =
                MAX_MSG_QUEUE_SIZE := by
              rw [List.length_cons, List.length_map]
              exact hfull
            obtain ⟨_, hdrops⟩ := make_room_of_full hlength []
            refine ⟨front, queue, rfl, hfull, ?_, ?_, ?_⟩
            · simp only [push, hqueue, hroom]
            · simp only [push, hqueue, hroom]
            · simp only [push, hqueue, List.map_cons, hdrops]

theorem Custody.push (h : x.Custody hdr) {buffer : Buffer} (hpc : x.listener = .pushing buffer) :
    (x.push buffer).Custody hdr := by
  have hlistener := h.listener
  simp only [ListenerSound, hpc] at hlistener
  have howners := h.owners
  have hbounded := h.bounded
  have hroom := h.room
  rw [Pipeline.owners, hpc] at howners
  simp only [population, hpc, ListenerStage.held, List.length_singleton] at hbounded
  have hpoll : (x.push buffer).PollSound hdr :=
    fun count buf_ptr htaken => h.poll count buf_ptr (notify_eq_taken.mp htaken)
  have hheld : (x.push buffer).poll.held = x.poll.held := held_notify x.poll
  have hidle : (x.push buffer).listener.held = [] := rfl
  rcases h.push_cases buffer with ⟨hlt, hqueue, hpool, -⟩ | ⟨front, queue, hold, hfull, hqueue,
    hpool, -⟩
  · refine ⟨hpool ▸ h.pool, ?_, ?_, h.distinct, h.size, fun other hother => ?_, ?_, ?_, trivial,
      hpoll⟩
    · rw [hqueue]
      simpa using h.queue
    · refine Eq.trans ?_ howners
      simp only [Pipeline.owners, hpool, hqueue, hheld, List.reduceOption_append,
        List.reduceOption_singleton, Option.toList_some, ← Multiset.coe_add, ListenerStage.held]
      ac_rfl
    · rw [hqueue] at hother
      rcases List.mem_append.mp hother with hmem | hnew
      · exact h.supported other hmem
      · obtain rfl := Option.some.inj (List.mem_singleton.mp hnew)
        exact hlistener
    · rw [hqueue, List.length_append, List.length_singleton]
      omega
    · simp only [population, hpool, hqueue, hheld, hidle, List.length_append,
        List.length_singleton, List.length_nil]
      omega
  · rw [hold, List.reduceOption_cons_of_some, ← List.singleton_append, ← Multiset.coe_add]
      at howners
    rw [hold, List.length_cons] at hbounded hfull
    refine ⟨?_, ?_, ?_, h.distinct, h.size, fun other hother => ?_, ?_, ?_, trivial, hpoll⟩
    · rw [hpool]
      simpa using h.pool
    · have hrest : none ∉ queue := fun hnone => h.queue (hold ▸ List.mem_cons_of_mem _ hnone)
      rw [hqueue]
      simpa using hrest
    · refine Eq.trans ?_ howners
      simp only [Pipeline.owners, hpool, hqueue, hheld, List.reduceOption_append,
        List.reduceOption_singleton, Option.toList_some, ← Multiset.coe_add, ListenerStage.held]
      ac_rfl
    · rw [hqueue] at hother
      rcases List.mem_append.mp hother with hmem | hnew
      · exact h.supported other (hold ▸ List.mem_cons_of_mem _ hmem)
      · obtain rfl := Option.some.inj (List.mem_singleton.mp hnew)
        exact hlistener
    · rw [hqueue, List.length_append, List.length_singleton]
      omega
    · simp only [population, hpool, hqueue, hheld, hidle, List.length_append,
        List.length_singleton, List.length_nil]
      omega

-- The poll thread's moves keep what the listener relies on.
theorem ListenerSound.keep {y : Pipeline} (h : x.ListenerSound hdr)
    (hlistener : y.listener = x.listener) (hcontents : y.contents = x.contents)
    (hpool : x.m_msg_mem_pool ≠ [] → y.m_msg_mem_pool ≠ [])
    (hpopulation : y.population ≤ x.population) : y.ListenerSound hdr := by
  unfold ListenerSound at h ⊢
  rw [hlistener, hcontents]
  split at h
  · trivial
  · exact h
  · exact ⟨h.1, h.2.1, Nat.le_trans hpopulation h.2.2⟩
  · exact ⟨h.1, h.2.1, hpool h.2.2⟩
  · exact h
  · exact h
  · exact h

theorem take_nil (hqueue : x.m_sensor_msg_queue = []) (count : Int) (buf_ptr : Option Buffer) :
    x.take count buf_ptr = ({ x with poll := .undefined } : Pipeline).free buf_ptr := by
  unfold take
  rw [hqueue]

theorem take_cons {front : Option Buffer} {queue : List (Option Buffer)}
    (hqueue : x.m_sensor_msg_queue = front :: queue) (count : Int) (buf_ptr : Option Buffer) :
    x.take count buf_ptr = ({ x with
      m_sensor_msg_queue := queue
      poll := .taken count front
      history := { x.history with taken := x.history.taken ++ [x.bytes front] } } :
        Pipeline).free buf_ptr := by
  unfold take
  rw [hqueue]

theorem Custody.take (h : x.Custody hdr) (count : Int) {buf_ptr : Option Buffer}
    (hheld : x.poll.held = buf_ptr.toList) : (x.take count buf_ptr).Custody hdr := by
  have howners := h.owners
  have hroom := h.room
  rw [Pipeline.owners, hheld] at howners
  cases hqueue : x.m_sensor_msg_queue with
  | nil =>
      rw [take_nil hqueue]
      have hle : (({ x with poll := .undefined } : Pipeline).free buf_ptr).population ≤
          x.population := Nat.add_le_add_left (Nat.zero_le _) _
      refine ⟨h.pool, h.queue, ?_, nodup_free buf_ptr h.distinct,
        fun other hother => h.size other (mem_of_mem_free hother), h.supported, hroom,
        Nat.le_trans hle h.bounded, h.listener.keep rfl rfl id hle, ?_⟩
      · apply live_free
        refine Eq.trans ?_ howners
        simp only [Pipeline.owners, free, PollStage.held, Multiset.coe_nil, add_zero]
      · exact fun _ _ htaken => PollStage.noConfusion htaken
  | cons entry queue =>
      cases entry with
      | none => exact absurd (hqueue ▸ List.mem_cons_self) h.queue
      | some front =>
          rw [take_cons hqueue]
          have hle : (({ x with
              m_sensor_msg_queue := queue
              poll := .taken count (some front)
              history := { x.history with
                taken := x.history.taken ++ [x.bytes (some front)] } } : Pipeline).free
                buf_ptr).population ≤ x.population := by
            simp only [population, free, hqueue, List.length_cons, PollStage.held,
              Option.toList_some, List.length_nil]
            omega
          rw [hqueue, List.reduceOption_cons_of_some, ← List.singleton_append,
            ← Multiset.coe_add] at howners
          rw [hqueue, List.length_cons] at hroom
          refine ⟨h.pool, fun hnone => h.queue (hqueue ▸ List.mem_cons_of_mem _ hnone), ?_,
            nodup_free buf_ptr h.distinct,
            fun other hother => h.size other (mem_of_mem_free hother),
            fun other hother => h.supported other (hqueue ▸ List.mem_cons_of_mem _ hother),
            Nat.le_of_succ_le hroom, Nat.le_trans hle h.bounded,
            h.listener.keep rfl rfl id hle, ?_⟩
          · apply live_free
            refine Eq.trans ?_ howners
            simp only [Pipeline.owners, free, PollStage.held, Option.toList_some]
            ac_rfl
          · intro _ _ htaken
            cases htaken
            refine ⟨front, rfl, h.supported front (hqueue ▸ List.mem_cons_self), ?_⟩
            exact List.getLast?_concat

-- A message that the poll took has a supported type, so it is stored and its
-- buffer goes back to the pool.
theorem Custody.process_eq (h : x.Custody hdr) {next : Pipeline} {count host : Int}
    {buf_ptr : Option Buffer} (hpc : x.poll = .taken count buf_ptr)
    (hprocess : x.process hdr count buf_ptr host = some next) :
    ∃ buffer device, buf_ptr = some buffer ∧
      sensor_device_process_event hdr x.device (message_of (x.contents buffer)) host =
        .stored device ∧
      next = ({ x with m_msg_mem_pool := x.m_msg_mem_pool ++ [some buffer] } :
        Pipeline).poll_return hdr count device := by
  obtain ⟨buffer, rfl, hsupported, -⟩ := h.poll count buf_ptr hpc
  have hheld : buffer ∈ x.poll.held := by
    rw [hpc]
    exact List.mem_singleton_self buffer
  have hsize := h.size buffer (h.mem_live (.inr (.inr (.inr hheld))))
  have hnonempty : x.contents buffer ≠ [] := by
    intro hnil
    rw [hnil] at hsize
    cases hsize
  obtain ⟨sensor, hsensor⟩ :
      ∃ sensor, sensor_of_type hdr (header_type (x.contents buffer)) = some sensor := by
    cases hfound : sensor_of_type hdr (header_type (x.contents buffer)) with
    | none =>
        refine absurd ?_ hsupported
        rw [get_payload_len, hfound]
    | some sensor => exact ⟨sensor, rfl⟩
  simp only [process, if_neg hnonempty] at hprocess
  split at hprocess
  · rename_i hagain
    simp only [sensor_device_process_event, message_of, hsensor] at hagain
    split at hagain <;> cases hagain
  · cases hprocess
  · rename_i device hstored
    cases hprocess
    exact ⟨buffer, device, rfl, hstored, rfl⟩

theorem Custody.recycle (h : x.Custody hdr) {count : Int} {buffer : Buffer}
    (hpc : x.poll = .taken count (some buffer)) (device : SensorDevice) :
    (({ x with m_msg_mem_pool := x.m_msg_mem_pool ++ [some buffer] } : Pipeline).poll_return hdr
      count device).Custody hdr := by
  have howners := h.owners
  have hle : (({ x with m_msg_mem_pool := x.m_msg_mem_pool ++ [some buffer] } :
      Pipeline).poll_return hdr count device).population ≤ x.population := by
    simp only [population, poll_return, hpc, PollStage.held, Option.toList_some,
      List.length_append, List.length_singleton, List.length_nil]
    omega
  rw [Pipeline.owners, hpc] at howners
  refine ⟨?_, h.queue, ?_, h.distinct, h.size, h.supported, h.room, Nat.le_trans hle h.bounded,
    h.listener.keep rfl rfl (fun _ => ?_) hle, fun _ _ htaken => PollStage.noConfusion htaken⟩
  · intro hnone
    rcases List.mem_append.mp hnone with hpool | hnew
    · exact h.pool hpool
    · cases List.mem_singleton.mp hnew
  · refine Eq.trans ?_ howners
    simp only [Pipeline.owners, poll_return, PollStage.held, List.reduceOption_append,
      List.reduceOption_singleton, Option.toList_some, ← Multiset.coe_add, Multiset.coe_nil,
      add_zero]
    ac_rfl
  · exact List.append_ne_nil_of_right_ne_nil _ (List.cons_ne_nil _ _)

-- Moves of the poll thread that only change where it stands.
theorem Custody.stand (h : x.Custody hdr) (device : SensorDevice) {stage : PollStage}
    (hheld : stage.held = x.poll.held) (htaken : ∀ count buf_ptr, stage ≠ .taken count buf_ptr) :
    ({ x with device := device, poll := stage } : Pipeline).Custody hdr := by
  have hpopulation : ({ x with device := device, poll := stage } : Pipeline).population =
      x.population := by
    simp only [population, hheld]
  refine h.stay rfl rfl rfl rfl rfl hheld ?_ ?_
  · exact h.listener.keep rfl rfl id (Nat.le_of_eq hpopulation)
  · exact fun count buf_ptr hpc => absurd hpc (htaken count buf_ptr)

theorem Custody.poll_head (h : x.Custody hdr) (count : Int) {buf_ptr : Option Buffer}
    (hheld : x.poll.held = buf_ptr.toList) : (x.poll_head count buf_ptr).Custody hdr := by
  apply h.stand x.device
  · rw [hheld]
    split <;> rfl
  · intro other owned
    split <;> exact PollStage.noConfusion

theorem custody_step {next : Pipeline} {event : PipelineEvent} (h : x.Custody hdr)
    (hstep : x.step hdr event = some next) : next.Custody hdr := by
  cases moves_of_step hstep with
  | flush handle => exact h.stay rfl rfl rfl rfl rfl rfl h.listener h.poll
  | connection connected => exact h.stay rfl rfl rfl rfl rfl rfl h.listener h.poll
  | header_dropped len bytes => exact h
  | header_received len bytes hpc hlength hsupported =>
      refine h.stay rfl rfl rfl rfl ?_ rfl ⟨hlength, hsupported⟩ h.poll
      rw [hpc]
      rfl
  | test_empty header hpc hpool =>
      have hlistener := h.listener
      simp only [ListenerSound, hpc] at hlistener
      refine h.stay rfl rfl rfl rfl ?_ rfl ⟨hlistener.1, hlistener.2, ?_⟩ h.poll
      · rw [hpc]
        rfl
      · have hroom := h.room
        have hone : x.poll.held.length ≤ 1 := by
          cases x.poll with
          | idle => exact Nat.zero_le 1
          | undefined => exact Nat.zero_le 1
          | _ => exact Option.length_toList_le
        simp only [population, hpool, ListenerStage.held, List.length_nil]
        omega
  | test_some header hpc hpool =>
      have hlistener := h.listener
      simp only [ListenerSound, hpc] at hlistener
      refine h.stay rfl rfl rfl rfl ?_ rfl ⟨hlistener.1, hlistener.2, hpool⟩ h.poll
      rw [hpc]
      rfl
  | create header buffer hpc hfresh => exact h.create hpc hfresh
  | pop header hpc => exact h.pop hpc
  | payload_failed buffer payload_len bytes hpc hbytes => exact h.payload_failed hpc hbytes
  | payload_received buffer payload_len bytes hpc hbytes => exact h.payload_received hpc hbytes
  | push buffer hpc => exact h.push hpc
  | block count hpc hnone =>
      apply h.poll_head count
      rw [hpc]
      rfl
  | report count hpc hsome =>
      apply h.stand
      · rw [hpc]
      · exact fun _ _ => PollStage.noConfusion
  | wake count buf_ptr hpc =>
      apply h.poll_head count
      rw [hpc]
      rfl
  | lock_wait count buf_ptr hpc hqueue =>
      apply h.stand x.device
      · rw [hpc]
        rfl
      · exact fun _ _ => PollStage.noConfusion
  | lock_take count buf_ptr hpc hqueue =>
      apply h.take
      rw [hpc]
      rfl
  | wait_take count buf_ptr notified hpc =>
      apply h.take
      rw [hpc]
      rfl
  | process count buf_ptr host next hpc hprocess =>
      obtain ⟨buffer, device, rfl, _, rfl⟩ := h.process_eq hpc hprocess
      exact h.recycle hpc device

end Steps

theorem custody_run {memory : Handle → SensorsEvent} {log_trace_count : Int}
    {events : List PipelineEvent}
    (hrun : Machine.run (step hdr) (init memory log_trace_count) events = some x) :
    x.Custody hdr :=
  Machine.invariant_always (fun _ _ _ h hstep => custody_step h hstep)
    (custody_init memory log_trace_count) hrun

-- The number of buffers stays bounded, a pop finds one, and all of them are
-- large enough for every message.
theorem buffers_bounded (hdr : SensorsHeader) (memory : Handle → SensorsEvent)
    (log_trace_count : Int) (events : List PipelineEvent) (x : Pipeline)
    (hrun : Machine.run (step hdr) (init memory log_trace_count) events = some x) :
    x.population ≤ MAX_MSG_QUEUE_SIZE + 2 ∧ x.live.length = x.population ∧
      x.listener ≠ .undefined ∧
      (∀ header, x.listener = .popping header → x.m_msg_mem_pool ≠ []) ∧
      ∀ buf_ptr ∈ x.m_msg_mem_pool ++ x.m_sensor_msg_queue, ∃ buffer, buf_ptr = some buffer ∧
        (x.contents buffer).length = HEADER_SIZE + MAX_SENSOR_PAYLOAD_SIZE ∧
        ∀ sensor_type, HEADER_SIZE + get_payload_len hdr sensor_type ≤
          (x.contents buffer).length := by
  have h := custody_run hrun
  have hlistener := h.listener
  refine ⟨h.bounded, h.population_eq.symm, ?_, ?_, ?_⟩
  · intro hundefined
    simp only [ListenerSound, hundefined] at hlistener
  · intro header hpopping
    simp only [ListenerSound, hpopping] at hlistener
    exact hlistener.2.2
  · intro buf_ptr hmem
    rw [List.mem_append] at hmem
    cases buf_ptr with
    | none =>
        rcases hmem with hpool | hqueue
        · exact absurd hpool h.pool
        · exact absurd hqueue h.queue
    | some buffer =>
        have hlive : buffer ∈ x.live := by
          rcases hmem with hpool | hqueue
          · exact h.mem_live (.inl hpool)
          · exact h.mem_live (.inr (.inl hqueue))
        have hsize := h.size buffer hlive
        refine ⟨buffer, rfl, hsize, fun sensor_type => ?_⟩
        have hle := get_payload_len_le hdr sensor_type
        rw [hsize, BUFFER_SIZE]
        omega

-- A light message comes in while the poll waits, and a second one begins.
def light_header : List UInt8 := [5, 0, 0, 0, 1, 0, 0, 0, 0, 0, 0, 0, 0, 0, 0, 0]

def light_events : List PipelineEvent :=
  [.connection true, .poll 1, .lock, .header 16 light_header, .test, .pop, .payload [0, 0, 128, 63],
    .push, .wait, .header 16 light_header, .test]

theorem buffers_bounded_light :
    ∃ x, Machine.run (step android_header) (init (fun _ => default) 50) light_events = some x ∧
      x.population = 16 ∧ x.population ≤ MAX_MSG_QUEUE_SIZE + 2 ∧ x.m_msg_mem_pool ≠ [] := by
  obtain ⟨x, hrun, hres⟩ : ∃ x, Machine.run (step android_header) (init (fun _ => default) 50)
      light_events = some x ∧ (x.population, x.m_msg_mem_pool.length) = (16, 15) :=
    Option.map_eq_some_iff.mp (by decide +kernel)
  simp only [Prod.mk.injEq] at hres
  have hbound := buffers_bounded android_header _ 50 light_events x hrun
  refine ⟨x, hrun, hres.1, hbound.1, ?_⟩
  intro hnil
  rw [hnil] at hres
  cases hres.2

end Pipeline

end SensorVhal
