import Mathlib.Data.Finset.Card
import SensorVhal.Sock.Clients

namespace SensorVhal

abbrev FD_SETSIZE : Int := 1024

-- fd_set, as the descriptors whose bits are set.
abbrev FdSet := Finset Int

-- A descriptor that the set has no bit for ends the process.
def FD_SET (fd : Int) (set : FdSet) : Option FdSet :=
  if 0 ≤ fd ∧ fd < FD_SETSIZE then some (insert fd set) else none

def FD_ISSET (fd : Int) (set : FdSet) : Option Bool :=
  if 0 ≤ fd ∧ fd < FD_SETSIZE then some (fd ∈ set) else none

-- The descriptors of the process: which of them are open, can be read or
-- written, and how many bytes they hold.
structure Descriptors where
  opened : Int → Bool
  readable : Int → Bool
  writable : Int → Bool
  nread : Int → Nat

namespace Descriptors

variable (fds : Descriptors)

-- select over the first `nfds` descriptors of one set: the result and the set
-- with those that are ready.
def select (ready : Int → Bool) (nfds : Int) (set : FdSet) : Int × FdSet :=
  let examined := set.filter fun fd => fd < nfds
  if ∃ fd ∈ examined, fds.opened fd = false then (-1, set)
  else
    let left := examined.filter fun fd => ready fd
    (left.card, left)

-- What select finds of a descriptor that is asked about for writing.
def canWrite (fd : Int) : Bool := fds.opened fd && fds.writable fd

-- ioctl(fd, FIONREAD, &nread), none where it fails.
def fionread (fd : Int) : Option Nat := if fds.opened fd then some (fds.nread fd) else none

end Descriptors

-- The fields of sock_server_t that the readiness queries use.
structure SelectServer where
  client_slots : SlotId → Int
  rfds : FdSet
  wfds : FdSet

namespace SelectServer

variable (s : SelectServer) (fds : Descriptors)

-- The loop of sock_server_clients_readable over the slots: rfds and maxfd.
def watch : List SlotId → FdSet → Int → Option (FdSet × Int)
  | [], rfds, maxfd => some (rfds, maxfd)
  | i :: rest, rfds, maxfd =>
    if s.client_slots i ≠ -1 then
      match FD_SET (s.client_slots i) rfds with
      | none => none
      | some rfds =>
        watch rest rfds (if maxfd > s.client_slots i then maxfd else s.client_slots i)
    else watch rest rfds maxfd

def sock_server_clients_readable : Option (Bool × SelectServer) :=
  match s.watch (List.finRange 512) ∅ 0 with
  | none => none
  | some (rfds, maxfd) =>
    let (nsel, rfds) := fds.select fds.readable (maxfd + 1) rfds
    some (nsel ≠ -1 ∧ nsel ≠ 0, { s with rfds := rfds })

-- The set has the id of the client, not its descriptor.
def sock_server_clients_writeable (id : SlotId) : Option (Bool × SelectServer) :=
  match FD_SET id.val ∅ with
  | none => none
  | some wfds =>
    let (nsel, wfds) := fds.select fds.writable (id.val + 1) wfds
    some (nsel ≠ -1 ∧ nsel ≠ 0, { s with wfds := wfds })

def sock_server_check_connect (id : SlotId) : Option ConnStatus :=
  let clientfd := s.client_slots id
  match FD_ISSET clientfd s.rfds with
  | none => none
  | some true =>
    match fds.fionread clientfd with
    | some nread => some (if nread ≠ 0 then .readable else .disconnect)
    | none => some .normal
  | some false => some .normal

-- The descriptors of the clients are open in the process.
def Serves : Prop := ∀ i, s.client_slots i ≠ -1 → fds.opened (s.client_slots i) = true

-- What the queries about a client should answer.
structure Answers (id : SlotId) : Prop where
  readable : ∃ answer next, s.sock_server_clients_readable fds = some (answer, next) ∧
    (answer = true ↔ ∃ i, s.client_slots i ≠ -1 ∧ fds.readable (s.client_slots i) = true) ∧
    (answer = true → ∃ status, next.sock_server_check_connect fds id = some status ∧
      (status = .readable ↔ fds.readable (s.client_slots id) = true ∧
        fds.nread (s.client_slots id) ≠ 0) ∧
      (status = .disconnect ↔ fds.readable (s.client_slots id) = true ∧
        fds.nread (s.client_slots id) = 0))
  writeable : ∃ answer next, s.sock_server_clients_writeable fds id = some (answer, next) ∧
    (answer = true ↔ fds.writable (s.client_slots id) = true)

-- All descriptors of clients have a bit in an fd_set, and the client's descriptor
-- is the same number as its slot.
def SameNumber (id : SlotId) : Prop :=
  (∀ i, s.client_slots i < FD_SETSIZE) ∧ s.client_slots id = id.val

-- As far as writing goes, the descriptor that has the number of the slot cannot be
-- told from the client's.
def Agrees (id : SlotId) : Prop :=
  (∀ i, s.client_slots i < FD_SETSIZE) ∧
    fds.canWrite id.val = fds.canWrite (s.client_slots id)

section Select

variable {fds : Descriptors} {ready : Int → Bool} {nfds : Int} {set : FdSet}

-- On open descriptors below `nfds` select leaves the ready ones.
theorem select_opened (h : ∀ fd ∈ set, fds.opened fd = true ∧ fd < nfds) :
    fds.select ready nfds set =
      (((set.filter fun fd => ready fd).card : Int), set.filter fun fd => ready fd) := by
  have hexamined : (set.filter fun fd => fd < nfds) = set :=
    Finset.filter_true_of_mem fun fd hfd => (h fd hfd).2
  have hopened : ¬ ∃ fd ∈ set, fds.opened fd = false := by
    rintro ⟨fd, hfd, hclosed⟩
    exact Bool.false_ne_true (hclosed.symm.trans (h fd hfd).1)
  simp only [Descriptors.select, hexamined, if_neg hopened]

-- The result is not 0 where one of them is ready.
theorem select_ready (h : ∀ fd ∈ set, fds.opened fd = true ∧ fd < nfds) :
    ((fds.select ready nfds set).1 ≠ -1 ∧ (fds.select ready nfds set).1 ≠ 0) ↔
      ∃ fd ∈ set, ready fd = true := by
  rw [select_opened h]
  have hcard : (set.filter fun fd => ready fd).card ≠ 0 ↔ ∃ fd ∈ set, ready fd = true := by
    rw [← Nat.pos_iff_ne_zero, Finset.card_pos]
    simp [Finset.Nonempty]
  rw [← hcard]
  show _ ∧ _ ↔ _
  omega

theorem select_closed {fd : Int} (hmem : fd ∈ set) (hlt : fd < nfds)
    (hclosed : fds.opened fd = false) : (fds.select ready nfds set).1 = -1 := by
  have hexamined : ∃ fd ∈ set.filter fun fd => fd < nfds, fds.opened fd = false :=
    ⟨fd, Finset.mem_filter.mpr ⟨hmem, hlt⟩, hclosed⟩
  simp only [Descriptors.select, if_pos hexamined]

end Select

section Watch

variable {s : SelectServer} {slots : List SlotId}

-- The set gets the descriptors of the clients, and maxfd is not below any of them.
theorem watch_spec (slots : List SlotId) (rfds : FdSet) (maxfd : Int)
    (h : ∀ i ∈ slots, s.client_slots i ≠ -1 →
      0 ≤ s.client_slots i ∧ s.client_slots i < FD_SETSIZE) :
    ∃ watched last, s.watch slots rfds maxfd = some (watched, last) ∧ maxfd ≤ last ∧
      (∀ fd, fd ∈ watched ↔
        fd ∈ rfds ∨ ∃ i ∈ slots, s.client_slots i ≠ -1 ∧ s.client_slots i = fd) ∧
      ∀ i ∈ slots, s.client_slots i ≠ -1 → s.client_slots i ≤ last := by
  induction slots generalizing rfds maxfd with
  | nil => exact ⟨rfds, maxfd, rfl, Int.le_refl _, by simp, by simp⟩
  | cons i slots ih =>
      have hrest := fun j hj => h j (List.mem_cons_of_mem i hj)
      by_cases hopen : s.client_slots i = -1
      · obtain ⟨watched, last, hwatch, hle, hmem, hmax⟩ := ih rfds maxfd hrest
        refine ⟨watched, last, ?_, hle, fun fd => ?_, fun j hj hopen' => ?_⟩
        · rw [watch, if_neg (not_not.mpr hopen)]
          exact hwatch
        · rw [hmem]
          simp [hopen]
        · rcases List.mem_cons.mp hj with rfl | hj
          · exact absurd hopen hopen'
          · exact hmax j hj hopen'
      · have hrange := h i List.mem_cons_self hopen
        obtain ⟨watched, last, hwatch, hle, hmem, hmax⟩ :=
          ih (insert (s.client_slots i) rfds)
            (if maxfd > s.client_slots i then maxfd else s.client_slots i) hrest
        have hbounds : maxfd ≤ last ∧ s.client_slots i ≤ last := by
          split at hle <;> omega
        refine ⟨watched, last, ?_, hbounds.1, fun fd => ?_, fun j hj hopen' => ?_⟩
        · rw [watch, if_pos hopen, FD_SET, if_pos hrange]
          exact hwatch
        · rw [hmem, Finset.mem_insert]
          constructor
          · rintro ((rfl | hold) | ⟨j, hj, hfd⟩)
            · exact .inr ⟨i, List.mem_cons_self, hopen, rfl⟩
            · exact .inl hold
            · exact .inr ⟨j, List.mem_cons_of_mem i hj, hfd⟩
          · rintro (hold | ⟨j, hj, hopen', hfd⟩)
            · exact .inl (.inr hold)
            · rcases List.mem_cons.mp hj with rfl | hj
              · exact .inl (.inl hfd.symm)
              · exact .inr ⟨j, hj, hopen', hfd⟩
        · rcases List.mem_cons.mp hj with rfl | hj
          · exact hbounds.2
          · exact hmax j hj hopen'

theorem watch_aborts (rfds : FdSet) (maxfd : Int) {i : SlotId} (hi : i ∈ slots)
    (hopen : s.client_slots i ≠ -1) (hlarge : ¬ s.client_slots i < FD_SETSIZE) :
    s.watch slots rfds maxfd = none := by
  have hout : FD_SET (s.client_slots i) = fun _ => none := by
    funext set
    exact if_neg fun hrange => hlarge hrange.2
  induction slots generalizing rfds maxfd with
  | nil => cases hi
  | cons j slots ih =>
      rw [watch]
      rcases List.mem_cons.mp hi with rfl | hi
      · rw [if_pos hopen, hout]
      · split
        · split
          · rfl
          · exact ih _ _ hi
        · exact ih _ _ hi

end Watch

section Answers

variable {s : SelectServer} {fds : Descriptors} {id : SlotId}

-- What sock_server_clients_readable finds, and leaves for the checks of the clients.
theorem clients_readable_spec
    (hrange : ∀ i, s.client_slots i ≠ -1 →
      0 ≤ s.client_slots i ∧ s.client_slots i < FD_SETSIZE) (hserves : s.Serves fds) :
    ∃ answer next, s.sock_server_clients_readable fds = some (answer, next) ∧
      (answer = true ↔ ∃ i, s.client_slots i ≠ -1 ∧ fds.readable (s.client_slots i) = true) ∧
      next.client_slots = s.client_slots ∧
      ∀ fd, fd ∈ next.rfds ↔
        (∃ i, s.client_slots i ≠ -1 ∧ s.client_slots i = fd) ∧ fds.readable fd = true := by
  obtain ⟨watched, last, hwatch, _, hmem, hmax⟩ :=
    watch_spec (List.finRange 512) ∅ 0 fun i _ => hrange i
  simp only [Finset.notMem_empty, List.mem_finRange, true_and, false_or] at hmem
  have hwatched : ∀ fd ∈ watched, fds.opened fd = true ∧ fd < last + 1 := by
    intro fd hfd
    obtain ⟨i, hopen, rfl⟩ := (hmem fd).mp hfd
    have hle := hmax i (List.mem_finRange i) hopen
    exact ⟨hserves i hopen, by omega⟩
  have hselect : fds.select fds.readable (last + 1) watched =
      (((watched.filter fun fd => fds.readable fd).card : Int),
        watched.filter fun fd => fds.readable fd) := select_opened hwatched
  have hreadable : s.sock_server_clients_readable fds =
      some (decide ((fds.select fds.readable (last + 1) watched).1 ≠ -1 ∧
          (fds.select fds.readable (last + 1) watched).1 ≠ 0),
        { s with rfds := (fds.select fds.readable (last + 1) watched).2 }) := by
    unfold sock_server_clients_readable
    rw [hwatch]
  refine ⟨_, _, hreadable, ?_, rfl, fun fd => ?_⟩
  · rw [decide_eq_true_iff, select_ready hwatched]
    constructor
    · rintro ⟨fd, hfd, hready⟩
      obtain ⟨i, hopen, rfl⟩ := (hmem fd).mp hfd
      exact ⟨i, hopen, hready⟩
    · rintro ⟨i, hopen, hready⟩
      exact ⟨_, (hmem _).mpr ⟨i, hopen, rfl⟩, hready⟩
  · simp only [hselect, Finset.mem_filter, hmem]

theorem check_connect_spec (hopen : s.client_slots id ≠ -1)
    (hrange : 0 ≤ s.client_slots id ∧ s.client_slots id < FD_SETSIZE) (hserves : s.Serves fds)
    {watched : Prop} (hrfds : s.client_slots id ∈ s.rfds ↔ watched) :
    ∃ status, s.sock_server_check_connect fds id = some status ∧
      (status = .readable ↔ watched ∧ fds.nread (s.client_slots id) ≠ 0) ∧
      (status = .disconnect ↔ watched ∧ fds.nread (s.client_slots id) = 0) := by
  have hisset : FD_ISSET (s.client_slots id) s.rfds =
      some (decide (s.client_slots id ∈ s.rfds)) := if_pos hrange
  have hioctl : fds.fionread (s.client_slots id) = some (fds.nread (s.client_slots id)) :=
    if_pos (hserves id hopen)
  by_cases hmem : s.client_slots id ∈ s.rfds
  · have hwatched := hrfds.mp hmem
    rw [decide_eq_true hmem] at hisset
    simp only [sock_server_check_connect, hisset, hioctl]
    refine ⟨_, rfl, ?_, ?_⟩ <;> by_cases hbytes : fds.nread (s.client_slots id) = 0 <;>
      simp [hbytes, hwatched]
  · have hwatched := hrfds.not.mp hmem
    rw [decide_eq_false hmem] at hisset
    simp only [sock_server_check_connect, hisset]
    exact ⟨_, rfl, by simp [hwatched], by simp [hwatched]⟩

-- The client's id is the descriptor that is asked about.
theorem clients_writeable_spec (s : SelectServer) (fds : Descriptors) (id : SlotId) :
    ∃ next, s.sock_server_clients_writeable fds id = some (fds.canWrite id.val, next) := by
  have hset : FD_SET id.val ∅ = some {(id.val : Int)} := by
    have hlt := id.isLt
    exact if_pos ⟨by omega, show (id.val : Int) < 1024 by omega⟩
  have hwriteable : s.sock_server_clients_writeable fds id =
      some (decide ((fds.select fds.writable (id.val + 1) {(id.val : Int)}).1 ≠ -1 ∧
          (fds.select fds.writable (id.val + 1) {(id.val : Int)}).1 ≠ 0),
        { s with wfds := (fds.select fds.writable (id.val + 1) {(id.val : Int)}).2 }) := by
    unfold sock_server_clients_writeable
    rw [hset]
  have hanswer : ((fds.select fds.writable (id.val + 1) {(id.val : Int)}).1 ≠ -1 ∧
      (fds.select fds.writable (id.val + 1) {(id.val : Int)}).1 ≠ 0) ↔
        fds.canWrite id.val = true := by
    rw [Descriptors.canWrite, Bool.and_eq_true]
    by_cases hopened : fds.opened id.val = true
    · have hwatched : ∀ fd ∈ ({(id.val : Int)} : FdSet),
          fds.opened fd = true ∧ fd < id.val + 1 := by
        intro fd hfd
        rw [Finset.mem_singleton.mp hfd]
        exact ⟨hopened, by omega⟩
      rw [select_ready hwatched]
      simp [hopened]
    · have hfailed : (fds.select fds.writable (id.val + 1) {(id.val : Int)}).1 = -1 :=
        select_closed (Finset.mem_singleton_self _) (Int.lt_succ (id.val : Int))
          (Bool.eq_false_iff.mpr hopened)
      simp [hfailed, hopened]
  rw [Bool.eq_iff_iff.mpr (decide_eq_true_iff.trans hanswer)] at hwriteable
  exact ⟨_, hwriteable⟩

theorem clients_readable_aborts (fds : Descriptors) {i : SlotId}
    (hopen : s.client_slots i ≠ -1) (hlarge : ¬ s.client_slots i < FD_SETSIZE) :
    s.sock_server_clients_readable fds = none := by
  unfold sock_server_clients_readable
  rw [watch_aborts ∅ 0 (List.mem_finRange i) hopen hlarge]

-- In one state of the descriptors.
theorem answers_iff (hopen : s.client_slots id ≠ -1)
    (hslots : ∀ i, s.client_slots i ≠ -1 → 0 ≤ s.client_slots i) (hserves : s.Serves fds) :
    s.Answers fds id ↔ s.Agrees fds id := by
  have hown : fds.canWrite (s.client_slots id) = fds.writable (s.client_slots id) := by
    rw [Descriptors.canWrite, hserves id hopen, Bool.true_and]
  obtain ⟨written, hwriteable⟩ := clients_writeable_spec s fds id
  constructor
  · intro hanswers
    constructor
    · intro i
      by_contra hlarge
      have hopen' : s.client_slots i ≠ -1 := by
        intro hclosed
        rw [hclosed] at hlarge
        exact hlarge (by decide)
      obtain ⟨_, _, hreadable, _⟩ := hanswers.readable
      rw [clients_readable_aborts fds hopen' hlarge] at hreadable
      cases hreadable
    · obtain ⟨answer, next, hcall, hanswer⟩ := hanswers.writeable
      obtain ⟨rfl, _⟩ := Prod.mk.inj (Option.some.inj (hwriteable.symm.trans hcall))
      rw [hown]
      exact Bool.eq_iff_iff.mpr hanswer
  · rintro ⟨hsmall, hagrees⟩
    have hrange : ∀ i, s.client_slots i ≠ -1 →
        0 ≤ s.client_slots i ∧ s.client_slots i < FD_SETSIZE :=
      fun i hi => ⟨hslots i hi, hsmall i⟩
    constructor
    · obtain ⟨answer, next, hreadable, hanswer, hkept, hrfds⟩ :=
        clients_readable_spec hrange hserves
      refine ⟨answer, next, hreadable, hanswer, fun _ => ?_⟩
      have hserves' : next.Serves fds := by
        rw [Serves, hkept]
        exact hserves
      have hwatched : next.client_slots id ∈ next.rfds ↔
          fds.readable (next.client_slots id) = true := by
        rw [hrfds, hkept]
        exact and_iff_right ⟨id, hopen, rfl⟩
      have hcheck :=
        check_connect_spec (hkept ▸ hopen) (hkept ▸ hrange id hopen) hserves' hwatched
      rw [hkept] at hcheck
      exact hcheck
    · refine ⟨_, written, hwriteable, ?_⟩
      rw [hagrees, hown]

-- The queries answer about the client's own socket, in every state of the
-- descriptors, exactly when its slot has the number of its descriptor.
theorem readiness_iff (s : SelectServer) (id : SlotId) (hopen : s.client_slots id ≠ -1)
    (hslots : ∀ i, s.client_slots i ≠ -1 → 0 ≤ s.client_slots i) :
    (∀ fds, s.Serves fds → (s.Answers fds id ↔ s.Agrees fds id)) ∧
      ((∀ fds, s.Serves fds → s.Answers fds id) ↔ s.SameNumber id) := by
  have hanswers : ∀ fds, s.Serves fds → (s.Answers fds id ↔ s.Agrees fds id) :=
    fun _ => answers_iff hopen hslots
  refine ⟨hanswers, ?_, ?_⟩
  · intro hall
    -- every descriptor is open, and only the client's own can be written
    let fds : Descriptors := ⟨fun _ => true, fun _ => true,
      fun fd => fd = s.client_slots id, fun _ => 0⟩
    have hserves : s.Serves fds := fun _ _ => rfl
    obtain ⟨hsmall, hagrees⟩ := (hanswers fds hserves).mp (hall fds hserves)
    have hown : fds.canWrite (s.client_slots id) = true := decide_eq_true rfl
    have hsame : (id.val : Int) = s.client_slots id :=
      of_decide_eq_true (hagrees.trans hown)
    exact ⟨hsmall, hsame.symm⟩
  · rintro ⟨hsmall, hsame⟩ fds hserves
    exact (hanswers fds hserves).mpr ⟨hsmall, by rw [hsame]⟩

-- A server with one client, in the slot `id`.
def lone_client (id : SlotId) (fd : Int) : SelectServer :=
  ⟨fun i => if i = id then fd else -1, ∅, ∅⟩

theorem lone_client_nonneg {fd : Int} (h : 0 ≤ fd) (i : SlotId)
    (hopen : (lone_client id fd).client_slots i ≠ -1) :
    0 ≤ (lone_client id fd).client_slots i := by
  by_cases hi : i = id
  · simpa [lone_client, hi] using h
  · exact absurd (if_neg hi) hopen

theorem readiness_slot_seven :
    (lone_client 7 7).Answers ⟨fun _ => true, fun _ => true, fun _ => false, fun _ => 12⟩ 7 := by
  have hsmall : ∀ i, (lone_client 7 7).client_slots i < FD_SETSIZE := by
    intro i
    by_cases hi : i = 7 <;> simp [lone_client, hi, FD_SETSIZE]
  exact (readiness_iff (lone_client 7 7) 7 (by decide)
    (lone_client_nonneg (by decide))).2.mpr ⟨hsmall, by decide⟩ _ fun _ _ => rfl

-- The descriptor 7 of the client can be written and standard input cannot.
theorem writeable_asks_descriptor_zero :
    ¬ (lone_client 0 7).Answers ⟨fun _ => true, fun _ => false, fun fd => fd = 7, fun _ => 0⟩
      0 := by
  intro hanswers
  have hagrees :=
    (answers_iff (by decide) (lone_client_nonneg (by decide)) fun _ _ => rfl).mp hanswers
  exact absurd hagrees.2 (by decide)

end Answers

end SelectServer

end SensorVhal
