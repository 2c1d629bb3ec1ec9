import SensorVhal.Config.Calls
import SensorVhal.Stream.Retries

namespace SensorVhal

-- What sensor_device_send_config_msg makes of the result of send_data, with errno
-- as it stands then. Without a client it "set 0 as success".
def sensor_device_send_config_msg (client : Bool) (ret errno : Int) : Int :=
  if client then if ret < 0 then -errno else ret else 0

-- What a call returns: `ret` is the result of sensor_device_send_config_msg, and
-- errno is read again behind the log of a failure.
def Configured.result (ret errno : Int) : Configured → Int
  | .returned result => result
  | .stored _ _ sends => if sends ∧ ret < 0 then -errno else 0

-- 0 says that all of the record was sent, and a negative result that it was not.
def Truthful (result : Int) (sent record : List UInt8) : Prop :=
  (sent = record → result = 0) ∧ (sent ≠ record → result < 0)

-- send_data never returns a negative number once it has come to its loop, so a
-- call that sends always returns 0.
theorem Configured.result_of_sent {handle : Handle} {status : ConfigStatus} {ret : Int}
    (hret : 0 ≤ ret) (errno errno' : Int) :
    (Configured.stored handle status true).result
      (sensor_device_send_config_msg true ret errno) errno' = 0 := by
  have hsent : sensor_device_send_config_msg true ret errno = ret := by
    rw [sensor_device_send_config_msg, if_pos rfl, if_neg (by omega)]
  rw [result, hsent, if_neg (by omega)]

-- The calls with a message tell the truth exactly when the socket takes the whole
-- record before a hard error and within the retries.
theorem success_means_sent_iff (hdr : SensorsHeader) (status : ConfigStatus) (call : ConfigCall)
    (handle : Handle) (hhandle : call.handle = handle.val) (hsends : call.sends = true)
    (io : Nat → IoResult) (hfits : FitsLen io 12) (errno errno' : Int) :
    ∃ (stored : ConfigStatus) (k : Nat) (c : SendCall) (ret : Int),
      call.configure hdr status = .stored handle stored true ∧
      Machine.run (SendCall.step (SockServer.send_data .TIMEOUT_MODE) (stored handle).bytes)
        (.start true 12 5) (Machine.firsts io k) = some c ∧ c.progress = .returned ret ∧
      (Truthful ((call.configure hdr status).result
          (sensor_device_send_config_msg true ret errno) errno') c.sent (stored handle).bytes ↔
        TakesAll io 12 5) := by
  rcases call.configure_cases hdr status with ⟨hunknown, _⟩ | ⟨known, hknown, hconfigured⟩
  · exact absurd hhandle (hunknown handle)
  obtain rfl : known = handle := Fin.ext (by omega)
  rw [hsends] at hconfigured
  have hreturns : ∃ (k : Nat) (ret : Int), k ≤ (12 : Nat) + (5 : Int) + 2 ∧
      Returned io 12 5 k ret ∧ (ret = (12 : Nat) ↔ TakesAll io 12 5) :=
    timed_returns_all (by decide) hfits
  obtain ⟨k, ret, _, ⟨d, hd, hprogress⟩, hall⟩ := hreturns
  obtain ⟨c, hrun, rfl⟩ := SendCall.exists_run (c := .start true 12 5) hd
  refine ⟨_, k, c, ret, hconfigured, hrun, hprogress, ?_⟩
  have hassembled : c.Assembled .TIMEOUT_MODE _ 12 := SendCall.assembled_of_run hrun
  obtain ⟨hsound, hsent⟩ := hassembled
  obtain ⟨hret, hle, _⟩ := hsound.returned ret hprogress
  rw [hconfigured, Configured.result_of_sent (by omega), ← hall]
  have hlength : c.sent.length = moved_bytes c.calls := by
    rw [hsent, List.length_take, SensorConfigMsg.length_bytes]
    omega
  constructor
  · rintro ⟨_, hshort⟩
    by_contra hless
    refine absurd (hshort fun hsame => hless ?_) (Int.lt_irrefl 0)
    rw [hsame, SensorConfigMsg.length_bytes] at hlength
    omega
  · intro hwhole
    refine ⟨fun _ => rfl, fun hshort => absurd ?_ hshort⟩
    rw [hsent]
    apply List.take_of_length_le
    rw [SensorConfigMsg.length_bytes]
    omega

-- The record of a batch call goes out in two parts, with an interruption between.
def two_parts (j : Nat) : IoResult := if j = 1 then .failed (-1) EINTR else .moved 6

theorem success_means_sent_two_parts :
    ∃ (stored : ConfigStatus) (k : Nat) (c : SendCall) (ret : Int),
      (ConfigCall.batch 3 20000000).configure android_header (fun _ => ⟨0, 0, 0⟩) =
        .stored 3 stored true ∧
      Machine.run (SendCall.step (SockServer.send_data .TIMEOUT_MODE) (stored 3).bytes)
        (.start true 12 5) (Machine.firsts two_parts k) = some c ∧
      c.progress = .returned ret ∧
      Truthful (((ConfigCall.batch 3 20000000).configure android_header
          (fun _ => ⟨0, 0, 0⟩)).result (sensor_device_send_config_msg true ret 0) 0)
          c.sent (stored 3).bytes := by
  have htakes : TakesAll two_parts 12 5 := by
    refine ⟨3, by decide, by decide, fun j hj hhard => ?_⟩
    obtain ⟨ret, errno, hio, hfatal⟩ := hhard
    have hone : j = 1 := by
      by_contra hne
      rw [two_parts, if_neg hne] at hio
      cases hio
    subst hone
    cases hio
    exact absurd hfatal (by decide)
  have hfits : FitsLen two_parts 12 := by
    intro k hk
    match k with
    | 0 => decide
    | 1 => decide
    | 2 => decide
    | k + 3 =>
        have hall : accepted two_parts 3 ≤ accepted two_parts (k + 3) :=
          accepted_mono (Nat.le_add_left 3 k)
        have htwo : accepted two_parts 3 = 12 := by decide
        omega
  obtain ⟨stored, k, c, ret, hstored, hrun, hret, htruthful⟩ :=
    success_means_sent_iff android_header (fun _ => ⟨0, 0, 0⟩) (.batch 3 20000000) 3 rfl rfl
      two_parts hfits 0 0
  exact ⟨stored, k, c, ret, hstored, hrun, hret, htruthful.mpr htakes⟩

-- Five bytes of a record go out before the connection is reset, and batch returns 0.
theorem success_after_reset :
    ∃ (stored : ConfigStatus) (c : SendCall),
      (ConfigCall.batch 0 10000000).configure android_header (fun _ => ⟨0, 0, 0⟩) =
        .stored 0 stored true ∧
      Machine.run (SendCall.step (SockServer.send_data .TIMEOUT_MODE) (stored 0).bytes)
        (.start true 12 5) [.moved 5, .failed (-1) 104] = some c ∧
      c.progress = .returned 5 ∧
      ¬ Truthful (((ConfigCall.batch 0 10000000).configure android_header
          (fun _ => ⟨0, 0, 0⟩)).result (sensor_device_send_config_msg true 5 104) 104)
          c.sent (stored 0).bytes := by
  refine ⟨_, _, rfl, rfl, rfl, ?_⟩
  rintro ⟨_, hshort⟩
  exact absurd (hshort (by decide)) (by decide)

end SensorVhal
