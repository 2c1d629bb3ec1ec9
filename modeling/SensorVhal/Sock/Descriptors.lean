import Mathlib.Logic.Function.Basic
import SensorVhal.Sock.Client
import SensorVhal.Sock.Transfer

namespace SensorVhal

-- sizeof(struct cmsghdr)
abbrev CMSGHDR_LEN : Nat := 16

abbrev INT_MAX : Nat := 2147483647

def CMSG_LEN (len : Nat) : Nat := CMSGHDR_LEN + len

def CMSG_SPACE (len : Nat) : Nat := CMSGHDR_LEN + (len + 7) / 8 * 8

-- The control part of a msghdr. `cmsg_data` is the memory from CMSG_DATA on, as ints.
structure ControlMsg where
  msg_controllen : Nat
  cmsg_data : Nat → Int

-- CMSG_DATA of CMSG_FIRSTHDR, none where there is no header.
def ControlMsg.first_data (msg : ControlMsg) : Option (Nat → Int) :=
  if msg.msg_controllen < CMSGHDR_LEN then none else some msg.cmsg_data

-- What the system answers to sendmsg and recvmsg.
inductive MsgCall (α : Type)
  | failed (errno : Int)
  | done (value : α)

-- The loops of the client, over the answers to its calls. It ends with the first
-- that is not EINTR or EAGAIN.
def MsgCall.retry {α : Type} : List (MsgCall α) → Option (MsgCall α)
  | [] => none
  | .failed errno :: rest =>
    if errno = EINTR ∨ errno = EAGAIN then MsgCall.retry rest else some (.failed errno)
  | .done value :: _ => some (.done value)

-- (int)fdlen as the number of turns of a loop from 0.
def int_count (fdlen : Nat) : Nat := (BitVec.ofNat 32 fdlen).toInt.toNat

-- The loop dst[i] = src[i] with `turns` left.
def copy_fds (src : Nat → Int) (turns i : Nat) (dst : Nat → Int) : Nat → Int :=
  match turns with
  | 0 => dst
  | turns + 1 => copy_fds src turns (i + 1) (Function.update dst i (src i))

-- The descriptors in the control message of send_fd, of which cmsg_len has the number.
def sent_fds (fdlen : Nat) (cmsgbuf pfd : Nat → Int) : List Int :=
  let p_fds := copy_fds pfd (int_count fdlen) 0 cmsgbuf
  (List.range ((CMSG_LEN (4 * fdlen) - CMSGHDR_LEN) / 4)).map p_fds

-- The result of send_fd and what the socket took.
def after_sendmsg (fds : List Int) : MsgCall Unit → Int × Option (List Int)
  | .failed _ => (-1, none)
  | .done () => (0, some fds)

def sock_server_send_fd (server : Option (SlotId → Int)) (sender : SlotId)
    (sendmsg : Int → List Int → MsgCall Unit) (cmsgbuf pfd : Nat → Int) (fdlen : Nat) :
    Int × Option (List Int) :=
  match server with
  | none => (-1, none)
  | some client_slots =>
    let fds := sent_fds fdlen cmsgbuf pfd
    after_sendmsg fds (sendmsg (client_slots sender) fds)

def sock_client_send_fd (client : Option ClientSocket)
    (sendmsg : Int → List Int → List (MsgCall Unit)) (cmsgbuf pfd : Nat → Int) (fdlen : Nat) :
    Option (Int × Option (List Int)) :=
  match client with
  | none => some (-1, none)
  | some client =>
    let fds := sent_fds fdlen cmsgbuf pfd
    (MsgCall.retry (sendmsg client.socketfd fds)).map (after_sendmsg fds)

-- recvmsg sets the length to what came and leaves the rest of the buffer alone.
def ControlMsg.deliver (msg : ControlMsg) (fds : List Int) : ControlMsg :=
  if fds = [] then { msg with msg_controllen := 0 }
  else ⟨CMSG_SPACE (4 * fds.length), fun i => fds.getD i (msg.cmsg_data i)⟩

-- The message before recvmsg, its first descriptor set to -1.
def recv_msg (fdlen : Nat) (cmsgbuf : Nat → Int) : ControlMsg :=
  ⟨CMSG_SPACE (4 * fdlen), Function.update cmsgbuf 0 (-1)⟩

-- recv_fd from its last recvmsg on: the result and the entries of pfd.
def after_recvmsg (fdlen : Nat) (cmsgbuf pfd : Nat → Int) :
    MsgCall (List Int) → Int × (Nat → Int)
  | .failed _ => (-1, pfd)
  | .done fds =>
    match ((recv_msg fdlen cmsgbuf).deliver fds).first_data with
    | none => (-1, pfd)
    | some p_fds => (0, copy_fds p_fds (int_count fdlen) 0 pfd)

def sock_server_recv_fd (server : Option (SlotId → Int)) (receiver : SlotId)
    (recvmsg : Int → MsgCall (List Int)) (cmsgbuf pfd : Nat → Int) (fdlen : Nat) :
    Int × (Nat → Int) :=
  match server with
  | none => (-1, pfd)
  | some client_slots => after_recvmsg fdlen cmsgbuf pfd (recvmsg (client_slots receiver))

def sock_client_recv_fd (client : Option ClientSocket)
    (recvmsg : Int → List (MsgCall (List Int))) (cmsgbuf pfd : Nat → Int) (fdlen : Nat) :
    Option (Int × (Nat → Int)) :=
  match client with
  | none => some (-1, pfd)
  | some client =>
    (MsgCall.retry (recvmsg client.socketfd)).map (after_recvmsg fdlen cmsgbuf pfd)

-- The descriptors that came.
def MsgCall.fds : MsgCall (List Int) → List Int
  | .failed _ => []
  | .done fds => fds

-- All entries are descriptors that came, in their order.
def Filled (fdlen : Nat) (fds : List Int) (pfd : Nat → Int) : Prop :=
  ∀ i < fdlen, fds[i]? = some (pfd i)

-- They are, and the entries of those that did not come are -1.
def Marked (fdlen : Nat) (fds : List Int) (pfd : Nat → Int) : Prop :=
  ∀ i < fdlen, pfd i = fds.getD i (-1)

-- Whatever the buffers had before, the entries are good where the call returns 0 and
-- are left alone where it fails.
def Returns (call : (Nat → Int) → (Nat → Int) → Option (Int × (Nat → Int)))
    (good : (Nat → Int) → Prop) : Prop :=
  ∀ cmsgbuf pfd ret entries, call cmsgbuf pfd = some (ret, entries) →
    if ret = 0 then good entries else entries = pfd

-- No descriptor came, or as many as an int can count were asked for and came.
def Whole (fdlen : Nat) (fds : List Int) : Prop :=
  fds = [] ∨ fdlen ≤ fds.length ∧ fdlen ≤ INT_MAX

section Copy

variable {fdlen : Nat}

theorem int_count_le (fdlen : Nat) : int_count fdlen ≤ INT_MAX := by
  have hlt := (BitVec.ofNat 32 fdlen).toInt_lt
  simp only [int_count, INT_MAX]
  omega

theorem int_count_eq (h : fdlen ≤ INT_MAX) : int_count fdlen = fdlen := by
  have hsmall : fdlen ≤ 2147483647 := h
  have hnat : (BitVec.ofNat 32 fdlen).toNat = fdlen := by
    rw [BitVec.toNat_ofNat]
    omega
  rw [int_count, BitVec.toInt_eq_toNat_of_lt (by omega), hnat]
  rfl

theorem copy_fds_apply (src : Nat → Int) (turns i : Nat) (dst : Nat → Int) (j : Nat) :
    copy_fds src turns i dst j = if i ≤ j ∧ j < i + turns then src j else dst j := by
  induction turns generalizing i dst with
  | zero =>
      rw [if_neg (by omega)]
      rfl
  | succ turns ih =>
      rw [copy_fds, ih]
      by_cases hj : j = i
      · subst hj
        rw [Function.update_self, if_neg (by omega), if_pos (by omega)]
      · rw [Function.update_of_ne hj]
        congr 1
        exact propext (by omega)

end Copy

section Receive

variable {fdlen : Nat} {fds : List Int} {cmsgbuf pfd : Nat → Int}

-- With a control header the call returns 0, and each entry is a descriptor that
-- came or what stood in a buffer.
theorem after_recvmsg_done (fdlen : Nat) (cmsgbuf pfd : Nat → Int) (h : fds ≠ []) :
    ∃ entries, after_recvmsg fdlen cmsgbuf pfd (.done fds) = (0, entries) ∧
      ∀ i, entries i =
        if i < int_count fdlen then fds.getD i (cmsgbuf i) else pfd i := by
  have hdata : ((recv_msg fdlen cmsgbuf).deliver fds).first_data =
      some fun i => fds.getD i (Function.update cmsgbuf 0 (-1) i) := by
    rw [ControlMsg.deliver, if_neg h]
    exact if_neg (Nat.not_lt.mpr (Nat.le_add_right _ _))
  refine ⟨copy_fds (fun i => fds.getD i (Function.update cmsgbuf 0 (-1) i)) (int_count fdlen) 0
    pfd, ?_, fun i => ?_⟩
  · simp only [after_recvmsg, hdata]
  · rw [copy_fds_apply, Nat.zero_add]
    simp only [Nat.zero_le, true_and]
    by_cases hi : i < fds.length
    · simp [hi]
    · have hpos := List.length_pos_iff.mpr h
      have hne : i ≠ 0 := by omega
      rw [Function.update_of_ne hne]

theorem after_recvmsg_failed {answer : MsgCall (List Int)} (h : answer.fds = []) :
    after_recvmsg fdlen cmsgbuf pfd answer = (-1, pfd) := by
  cases answer with
  | failed errno => rfl
  | done fds =>
      have hfds : fds = [] := h
      subst hfds
      rfl

theorem after_recvmsg_filled {answer : MsgCall (List Int)} (h : Whole fdlen answer.fds)
    {ret : Int} {entries : Nat → Int}
    (hcall : after_recvmsg fdlen cmsgbuf pfd answer = (ret, entries)) :
    if ret = 0 then Filled fdlen answer.fds entries else entries = pfd := by
  rcases h with hnone | ⟨hlen, hint⟩
  · rw [after_recvmsg_failed hnone] at hcall
    obtain ⟨rfl, rfl⟩ := Prod.mk.inj hcall
    rfl
  · cases answer with
    | failed errno =>
        obtain ⟨rfl, rfl⟩ := Prod.mk.inj hcall
        rfl
    | done fds =>
        by_cases hfds : fds = []
        · subst hfds
          rw [after_recvmsg_failed rfl] at hcall
          obtain ⟨rfl, rfl⟩ := Prod.mk.inj hcall
          rfl
        · obtain ⟨stored, hdone, hstored⟩ := after_recvmsg_done fdlen cmsgbuf pfd hfds
          obtain ⟨rfl, rfl⟩ := Prod.mk.inj (hcall.symm.trans hdone)
          rw [if_pos rfl]
          intro i hi
          have hi' : i < fds.length := Nat.lt_of_lt_of_le hi hlen
          rw [hstored, int_count_eq hint, if_pos hi]
          show fds[i]? = _
          simp [hi']

-- What an entry has when it should not: another value than the one that is due.
def wrong_entries (fds : List Int) (i : Nat) : Int := fds.getD i (-1) + 1

theorem placed_of_good {i : Nat}
    (hgood : (if i < int_count fdlen then fds.getD i (wrong_entries fds i)
      else wrong_entries fds i) = fds.getD i (-1)) :
    i < int_count fdlen ∧ i < fds.length := by
  have hwrong : wrong_entries fds i ≠ fds.getD i (-1) := by
    rw [wrong_entries]
    omega
  by_contra hout
  by_cases hcount : i < int_count fdlen
  · have hlen : fds.length ≤ i := by
      by_contra hlt
      exact hout ⟨hcount, Nat.lt_of_not_le hlt⟩
    have hdefault : fds.getD i (wrong_entries fds i) = wrong_entries fds i := by
      rw [List.getD_eq_getElem?_getD, List.getElem?_eq_none hlen]
      rfl
    rw [if_pos hcount, hdefault] at hgood
    exact hwrong hgood
  · rw [if_neg hcount] at hgood
    exact hwrong hgood

-- Buffers in which every entry is wrong show which of them are left.
theorem whole_of_marked {answer : MsgCall (List Int)}
    (h : ∀ cmsgbuf pfd ret entries, after_recvmsg fdlen cmsgbuf pfd answer = (ret, entries) →
      if ret = 0 then Marked fdlen answer.fds entries else entries = pfd) :
    Whole fdlen answer.fds := by
  cases answer with
  | failed errno => exact .inl rfl
  | done fds =>
      by_cases hnone : fds = []
      · exact .inl hnone
      · obtain ⟨entries, hdone, hentries⟩ :=
          after_recvmsg_done fdlen (wrong_entries fds) (wrong_entries fds) hnone
        have hmarked : Marked fdlen fds entries := h _ _ 0 entries hdone
        have hplaces : ∀ i < fdlen, i < int_count fdlen ∧ i < fds.length := by
          intro i hi
          have hgood := hmarked i hi
          rw [hentries] at hgood
          exact placed_of_good hgood
        have hcount := int_count_le fdlen
        right
        show fdlen ≤ fds.length ∧ fdlen ≤ INT_MAX
        constructor
        · by_contra hlt
          exact Nat.lt_irrefl _ (hplaces fds.length (Nat.lt_of_not_le hlt)).2
        · by_contra hlt
          have hbelow : int_count fdlen < fdlen := by omega
          exact Nat.lt_irrefl _ (hplaces _ hbelow).1

theorem Filled.marked {entries : Nat → Int} (h : Filled fdlen fds entries) :
    Marked fdlen fds entries := by
  intro i hi
  rw [List.getD_eq_getElem?_getD, h i hi]
  rfl

theorem recv_returns_iff (fdlen : Nat) (answer : MsgCall (List Int)) :
    (Returns (fun cmsgbuf pfd => some (after_recvmsg fdlen cmsgbuf pfd answer))
        (Filled fdlen answer.fds) ↔ Whole fdlen answer.fds) ∧
      (Returns (fun cmsgbuf pfd => some (after_recvmsg fdlen cmsgbuf pfd answer))
        (Marked fdlen answer.fds) ↔ Whole fdlen answer.fds) := by
  have hfilled : Whole fdlen answer.fds →
      Returns (fun cmsgbuf pfd => some (after_recvmsg fdlen cmsgbuf pfd answer))
        (Filled fdlen answer.fds) :=
    fun hwhole _ _ _ _ hcall => after_recvmsg_filled hwhole (Option.some.inj hcall)
  have hmarked : Returns (fun cmsgbuf pfd => some (after_recvmsg fdlen cmsgbuf pfd answer))
      (Filled fdlen answer.fds) →
      Returns (fun cmsgbuf pfd => some (after_recvmsg fdlen cmsgbuf pfd answer))
        (Marked fdlen answer.fds) := by
    intro hreturns cmsgbuf pfd ret entries hcall
    have hentries := hreturns cmsgbuf pfd ret entries hcall
    by_cases hret : ret = 0
    · rw [if_pos hret] at hentries ⊢
      exact hentries.marked
    · rw [if_neg hret] at hentries ⊢
      exact hentries
  have hwhole : Returns (fun cmsgbuf pfd => some (after_recvmsg fdlen cmsgbuf pfd answer))
      (Marked fdlen answer.fds) → Whole fdlen answer.fds :=
    fun hreturns => whole_of_marked fun cmsgbuf pfd ret entries hcall =>
      hreturns cmsgbuf pfd ret entries (congrArg some hcall)
  exact ⟨⟨hwhole ∘ hmarked, hfilled⟩, ⟨hwhole, hmarked ∘ hfilled⟩⟩

theorem client_recv_fd_answer {client : ClientSocket} {recvmsg : Int → List (MsgCall (List Int))}
    {answer : MsgCall (List Int)} (h : MsgCall.retry (recvmsg client.socketfd) = some answer) :
    sock_client_recv_fd (some client) recvmsg cmsgbuf pfd fdlen =
      some (after_recvmsg fdlen cmsgbuf pfd answer) := by
  rw [sock_client_recv_fd, h]
  rfl

end Receive

section Pass

variable {File : Type} {own peer : Int → File} {fdlen : Nat} {cmsgbuf pfd : Nat → Int}

-- The entries refer to the files of the descriptors that the peer sent.
def Passed (own peer : Int → File) (fdlen : Nat) (pfd : Nat → Int)
    (result : Int × (Nat → Int)) : Prop :=
  result.1 = 0 ∧ ∀ i < fdlen, own (result.2 i) = peer (pfd i)

theorem sent_fds_eq (h : fdlen ≤ INT_MAX) :
    sent_fds fdlen cmsgbuf pfd = (List.range fdlen).map pfd := by
  have hnumber : (CMSG_LEN (4 * fdlen) - CMSGHDR_LEN) / 4 = fdlen := by
    simp only [CMSG_LEN, CMSGHDR_LEN]
    omega
  rw [sent_fds, hnumber, int_count_eq h]
  apply List.map_congr_left
  intro i hi
  have hlt := List.mem_range.mp hi
  rw [copy_fds_apply, if_pos (by omega)]

-- The descriptors that come refer to the files of those that were sent.
theorem after_recvmsg_passed (hpos : 1 ≤ fdlen) (hint : fdlen ≤ INT_MAX)
    {received : List Int} {sendbuf : Nat → Int}
    (hfiles : received.map own = (sent_fds fdlen sendbuf pfd).map peer)
    (before : Nat → Int) :
    Passed own peer fdlen pfd (after_recvmsg fdlen cmsgbuf before (.done received)) := by
  rw [sent_fds_eq hint, List.map_map] at hfiles
  have hlen : received.length = fdlen := by
    have hlengths := congrArg List.length hfiles
    simpa using hlengths
  have hsome : received ≠ [] := by
    intro hnone
    rw [hnone] at hlen
    exact absurd hpos (hlen ▸ by decide)
  obtain ⟨entries, hdone, hentries⟩ := after_recvmsg_done fdlen cmsgbuf before hsome
  rw [hdone]
  refine ⟨rfl, fun i hi => ?_⟩
  have hi' : i < received.length := hlen ▸ hi
  have hfile : own received[i] = peer (pfd i) := by
    have hat := congrArg (fun files => files[i]?) hfiles
    simpa [hi, hi'] using hat
  have hentry : entries i = received[i] := by
    rw [hentries, int_count_eq hint, if_pos hi]
    simp [hi']
  exact (congrArg own hentry).trans hfile

theorem after_sendmsg_sent {fds sent : List Int} {ret : Int} {answer : MsgCall Unit}
    (h : after_sendmsg fds answer = (ret, some sent)) : sent = fds := by
  cases answer with
  | failed errno => cases h
  | done value =>
      obtain ⟨_, hsent⟩ := Prod.mk.inj h
      exact (Option.some.inj hsent).symm

theorem client_send_fd_sent {client : ClientSocket}
    {sendmsg : Int → List Int → List (MsgCall Unit)} {ret : Int} {sent : List Int}
    (h : sock_client_send_fd (some client) sendmsg cmsgbuf pfd fdlen = some (ret, some sent)) :
    sent = sent_fds fdlen cmsgbuf pfd := by
  obtain ⟨answer, _, hanswer⟩ := Option.map_eq_some_iff.mp h
  exact after_sendmsg_sent hanswer

-- recv_fd returns only descriptors that came exactly where the message has all that
-- were asked for or none, and the two sides pass their descriptors in order.
theorem recv_fd_iff (fdlen : Nat) :
    (∀ (client_slots : SlotId → Int) (receiver : SlotId) (recvmsg : Int → MsgCall (List Int)),
      let fds := (recvmsg (client_slots receiver)).fds
      let call := fun cmsgbuf pfd =>
        some (sock_server_recv_fd (some client_slots) receiver recvmsg cmsgbuf pfd fdlen)
      (Returns call (Filled fdlen fds) ↔ Whole fdlen fds) ∧
        (Returns call (Marked fdlen fds) ↔ Whole fdlen fds)) ∧
    (∀ (client : ClientSocket) (recvmsg : Int → List (MsgCall (List Int)))
        (answer : MsgCall (List Int)),
      MsgCall.retry (recvmsg client.socketfd) = some answer →
      let call := fun cmsgbuf pfd => sock_client_recv_fd (some client) recvmsg cmsgbuf pfd fdlen
      (Returns call (Filled fdlen answer.fds) ↔ Whole fdlen answer.fds) ∧
        (Returns call (Marked fdlen answer.fds) ↔ Whole fdlen answer.fds)) ∧
    (1 ≤ fdlen → fdlen ≤ INT_MAX →
      ∀ (File : Type) (own peer : Int → File) (client_slots : SlotId → Int) (id : SlotId)
        (client : ClientSocket) (sendbuf pfd cmsgbuf before : Nat → Int)
        (sent received : List Int), received.map own = sent.map peer →
        (∀ sendmsg recvmsg, sock_server_send_fd (some client_slots) id sendmsg sendbuf pfd fdlen =
            (0, some sent) →
          MsgCall.retry (recvmsg client.socketfd) = some (.done received) →
          ∃ result, sock_client_recv_fd (some client) recvmsg cmsgbuf before fdlen = some result ∧
            Passed own peer fdlen pfd result) ∧
        (∀ sendmsg recvmsg, sock_client_send_fd (some client) sendmsg sendbuf pfd fdlen =
            some (0, some sent) →
          recvmsg (client_slots id) = .done received →
          Passed own peer fdlen pfd
            (sock_server_recv_fd (some client_slots) id recvmsg cmsgbuf before fdlen))) := by
  refine ⟨fun client_slots receiver recvmsg => recv_returns_iff fdlen _,
    fun client recvmsg answer hretry => ?_, ?_⟩
  · simp only [client_recv_fd_answer hretry]
    exact recv_returns_iff fdlen answer
  · intro hpos hint File own peer client_slots id client sendbuf pfd cmsgbuf before sent received
      hfiles
    constructor
    · intro sendmsg recvmsg hsend hretry
      rw [after_sendmsg_sent hsend] at hfiles
      exact ⟨_, client_recv_fd_answer hretry, after_recvmsg_passed hpos hint hfiles before⟩
    · intro sendmsg recvmsg hsend hrecv
      rw [client_send_fd_sent hsend] at hfiles
      rw [sock_server_recv_fd, hrecv]
      exact after_recvmsg_passed hpos hint hfiles before

-- The client sends its descriptors 3 and 4, which become 8 and 9 of the server.
theorem recv_fd_two_passed :
    Passed (fun fd => fd - 5) (fun fd => fd) 2 (fun i => i + 3)
      (sock_server_recv_fd (some fun _ => 7) 0 (fun _ => .done [8, 9]) (fun _ => 6) (fun _ => 0)
        2) :=
  ((recv_fd_iff 2).2.2 (by decide) (by decide) Int (fun fd => fd - 5) (fun fd => fd) (fun _ => 7)
    0 ⟨5, []⟩ (fun _ => 6) (fun i => i + 3) (fun _ => 6) (fun _ => 0) [3, 4] [8, 9] rfl).2
    (fun _ _ => [.failed EINTR, .done ()]) (fun _ => .done [8, 9]) (by decide) rfl

-- One descriptor came of the two: the other entry is what the buffer had.
theorem stale_descriptor_returned :
    ¬ Returns (fun cmsgbuf pfd =>
        some (sock_server_recv_fd (some fun _ => 7) 0 (fun _ => .done [5]) cmsgbuf pfd 2))
      (Marked 2 [5]) ∧
    ¬ Returns (fun cmsgbuf pfd =>
        sock_client_recv_fd (some ⟨7, []⟩) (fun _ => [.failed EAGAIN, .done [5]]) cmsgbuf pfd 2)
      (Marked 2 [5]) := by
  constructor
  · intro hreturns
    have hmarked := hreturns (fun _ => 9) (fun _ => 0) 0 _ rfl 1 (by decide)
    exact absurd hmarked (by decide)
  · intro hreturns
    have hmarked := hreturns (fun _ => 9) (fun _ => 0) 0 _ rfl 1 (by decide)
    exact absurd hmarked (by decide)

end Pass

end SensorVhal
