import Mathlib.Tactic.Common

namespace SensorVhal

def EINTR : Int := 4

def EAGAIN : Int := 11

def EWOULDBLOCK : Int := EAGAIN

-- What one send or recv gave: a positive count, or a result that is not
-- positive, with errno as it stands after the call.
inductive IoResult
  | moved (ret : Nat)
  | failed (ret errno : Int)

-- The local variables of the loops of send_data and recv_data. `p_src` counts
-- from the start of the data.
structure Transfer where
  p_src : Nat
  left_size : Nat
  retry_count : Int
  total_size : Nat
  deriving DecidableEq

def Transfer.init (len : Nat) (timeout_ms : Int) : Transfer := ⟨0, len, timeout_ms, 0⟩

inductive Turn
  | again (t : Transfer)
  | leave (t : Transfer)

-- The head of `while (left_size > 0)`.
def Transfer.head (t : Transfer) : Turn :=
  if 0 < t.left_size then .again t else .leave t

def Transfer.move (t : Transfer) (ret : Nat) : Transfer :=
  { t with
    left_size := t.left_size - ret
    p_src := t.p_src + ret
    total_size := t.total_size + ret }

-- `retry_count--`
def Transfer.count_down (t : Transfer) : Transfer :=
  { t with retry_count := t.retry_count - 1 }

-- One turn of a loop that tries again after the errno values in `retried`, and
-- in SOCK_TIMEOUT_MODE only while the retry count lasts.
def Transfer.turn (retried : Int → Bool) (timed : Bool) (t : Transfer) : IoResult → Turn
  | .moved ret => (t.move ret).head
  | .failed _ errno =>
    if retried errno then
      if timed then
        if t.retry_count < 0 then .leave t.count_down else t.count_down.head
      else t.head
    else .leave t

def timeout_retries (errno : Int) : Bool := errno = EINTR ∨ errno = EAGAIN

def block_retries (errno : Int) : Bool := errno = EINTR ∨ errno = EAGAIN ∨ errno = EWOULDBLOCK

-- SockServer::send_data in SOCK_TIMEOUT_MODE.
def SockServer.send_data_timeout : Transfer → IoResult → Turn :=
  Transfer.turn timeout_retries true

-- SockServer::recv_data in SOCK_BLOCK_MODE.
def SockServer.recv_data_block : Transfer → IoResult → Turn :=
  Transfer.turn block_retries false

-- What a send of `left_size` bytes can give.
def IoResult.possible (left_size : Nat) : IoResult → Bool
  | .moved ret => 0 < ret ∧ ret ≤ left_size
  | .failed ret _ => ret ≤ 0

-- The loop of send_data gives up at a failed send: on an error that it does not
-- try again after, or without retries left.
def Transfer.gives_up (t : Transfer) : IoResult → Prop
  | .moved _ => False
  | .failed _ errno => timeout_retries errno = false ∨ t.retry_count < 0

instance (t : Transfer) : DecidablePred t.gives_up
  | .moved _ => .isFalse id
  | .failed _ _ => inferInstanceAs (Decidable (_ ∨ _))

-- A loop over `len` bytes that still has bytes left.
structure Transfer.Open (len : Nat) (t : Transfer) : Prop where
  left : 0 < t.left_size
  sum : t.p_src + t.left_size = len
  total : t.total_size = t.p_src

theorem Transfer.open_init {len : Nat} (timeout_ms : Int) (h : 0 < len) :
    (Transfer.init len timeout_ms).Open len :=
  ⟨h, Nat.zero_add len, rfl⟩

section Turn

variable {retried : Int → Bool} {timed : Bool} {len : Nat} {t : Transfer}

theorem Transfer.open_move {ret : Nat} (h : t.Open len) (hret : ret < t.left_size) :
    (t.move ret).Open len := by
  obtain ⟨hleft, hsum, htotal⟩ := h
  constructor <;> simp only [Transfer.move] <;> omega

theorem Transfer.open_count_down (h : t.Open len) : t.count_down.Open len :=
  ⟨h.left, h.sum, h.total⟩

theorem Transfer.turn_moved_again {ret : Nat} (h : ret < t.left_size) :
    t.turn retried timed (.moved ret) = .again (t.move ret) := by
  have hleft : 0 < (t.move ret).left_size := Nat.sub_pos_of_lt h
  exact if_pos hleft

theorem Transfer.turn_moved_leave {ret : Nat} (h : ret = t.left_size) :
    t.turn retried timed (.moved ret) = .leave (t.move ret) := by
  subst h
  have hleft : ¬ 0 < (t.move t.left_size).left_size := by simp [Transfer.move]
  exact if_neg hleft

theorem Transfer.turn_stop (t : Transfer) (timed : Bool) (ret : Int) {errno : Int}
    (h : retried errno = false) : t.turn retried timed (.failed ret errno) = .leave t := by
  simp [Transfer.turn, h]

theorem Transfer.turn_retry (ret : Int) {errno : Int} (hopen : t.Open len)
    (h : retried errno = true) : t.turn retried false (.failed ret errno) = .again t := by
  simp [Transfer.turn, Transfer.head, h, hopen.left]

-- The ways a turn can go: part of the rest or nothing was moved and the loop goes
-- on, all of it was moved, or the loop gives up.
theorem Transfer.turn_cases (retried : Int → Bool) (timed : Bool) (hopen : t.Open len)
    {io : IoResult} (hpossible : io.possible t.left_size) :
    (∃ ret, io = .moved ret ∧ 0 < ret ∧ ret < t.left_size ∧
      t.turn retried timed io = .again (t.move ret)) ∨
    (io = .moved t.left_size ∧ t.turn retried timed io = .leave (t.move t.left_size)) ∨
    (∃ ret errno, io = .failed ret errno ∧ retried errno = true ∧
      (timed = true → ¬ t.retry_count < 0) ∧
      t.turn retried timed io = .again (if timed then t.count_down else t)) ∨
    (∃ ret errno t', io = .failed ret errno ∧
      (retried errno = false ∨ timed = true ∧ t.retry_count < 0) ∧
      t.turn retried timed io = .leave t' ∧ t'.left_size = t.left_size ∧
      t'.total_size = t.total_size) := by
  cases io with
  | moved ret =>
      obtain ⟨hpos, hle⟩ := of_decide_eq_true hpossible
      rcases Nat.lt_or_eq_of_le hle with hlt | rfl
      · exact .inl ⟨ret, rfl, hpos, hlt, Transfer.turn_moved_again hlt⟩
      · exact .inr (.inl ⟨rfl, Transfer.turn_moved_leave rfl⟩)
  | failed ret errno =>
      right
      right
      cases hretried : retried errno with
      | false =>
          exact .inr ⟨ret, errno, t, rfl, .inl hretried, t.turn_stop timed ret hretried, rfl, rfl⟩
      | true =>
          cases timed with
          | false => exact .inl ⟨ret, errno, rfl, hretried, nofun, turn_retry ret hopen hretried⟩
          | true =>
              by_cases hcount : t.retry_count < 0
              · refine .inr ⟨ret, errno, t.count_down, rfl, .inr ⟨rfl, hcount⟩, ?_, rfl, rfl⟩
                simp [Transfer.turn, hretried, hcount]
              · refine .inl ⟨ret, errno, rfl, hretried, fun _ => hcount, ?_⟩
                have hleft : 0 < t.count_down.left_size := hopen.left
                simp [Transfer.turn, Transfer.head, hretried, hcount, hleft]

-- The same of send_data in SOCK_TIMEOUT_MODE.
theorem SockServer.send_turn_cases (hopen : t.Open len) {io : IoResult}
    (hpossible : io.possible t.left_size) :
    (∃ ret, io = .moved ret ∧ ret < t.left_size ∧ send_data_timeout t io = .again (t.move ret)) ∨
    (io = .moved t.left_size ∧ send_data_timeout t io = .leave (t.move t.left_size)) ∨
    (∃ ret errno, io = .failed ret errno ∧ ¬ t.gives_up io ∧
      send_data_timeout t io = .again t.count_down) ∨
    (∃ ret errno t', io = .failed ret errno ∧ t.gives_up io ∧
      send_data_timeout t io = .leave t' ∧ t'.left_size = t.left_size) := by
  rcases Transfer.turn_cases timeout_retries true hopen hpossible with
    ⟨ret, rfl, _, hlt, hturn⟩ | ⟨hio, hturn⟩ | ⟨ret, errno, rfl, hretried, hcount, hturn⟩ |
    ⟨ret, errno, t', rfl, hstop, hturn, hleft, _⟩
  · exact .inl ⟨ret, rfl, hlt, hturn⟩
  · exact .inr (.inl ⟨hio, hturn⟩)
  · refine .inr (.inr (.inl ⟨ret, errno, rfl, ?_, hturn⟩))
    rintro (hstop | hneg)
    · exact Bool.false_ne_true (hstop.symm.trans hretried)
    · exact hcount rfl hneg
  · refine .inr (.inr (.inr ⟨ret, errno, t', rfl, ?_, hturn, hleft⟩))
    exact hstop.imp id And.right

end Turn

end SensorVhal
