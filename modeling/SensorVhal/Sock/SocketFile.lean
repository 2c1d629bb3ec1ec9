import SensorVhal.Sock.Client

namespace SensorVhal

-- PROPERTY_VALUE_MAX, with the terminator.
abbrev PROPERTY_VALUE_MAX : Nat := 92

-- sizeof(sa_family_t)
abbrev SA_FAMILY_LEN : Nat := 2

abbrev IFNAMSIZ : Nat := 16

-- The bytes of a string literal, without the terminator.
def literal (text : String) : List UInt8 := text.toList.map fun c => UInt8.ofNat c.toNat

def SOCK_UTIL_DEFAULT_PATH : List UInt8 := literal "/ipc/display-sock"

-- What property_get may put into its buffer.
structure PropertyValue where
  chars : List UInt8
  terminated : 0 ∉ chars
  short : chars.length < PROPERTY_VALUE_MAX

-- The string in an array of chars.
def c_str (array : List UInt8) : List UInt8 := array.takeWhile fun c => c ≠ 0

-- strncpy writes all of its `n` bytes, none if they do not fit the array: the
-- process ends there.
def strncpy (array src : List UInt8) (n : Nat) : Option (List UInt8) :=
  if n > array.length then none
  else some (src.take n ++ List.replicate (n - src.length) 0 ++ array.drop n)

-- sock_server_t
structure PathServer where
  type : SockConnType
  socketfd : Int
  path : List UInt8
  client_slots : SlotId → Int

-- What the system answers to the calls of sock_server_init.
structure ServerCalls where
  socket : Int
  reuseaddr : Int
  nodelay : Int
  fionbio : Int
  access : Int
  unlink : Int
  bind : Int
  unix_listen : Int
  listen : Int

-- sock_server_init returns, or ends the process.
inductive ServerInit
  | exited
  | returned (server : Option PathServer)

-- What happened to descriptors and to files.
inductive FileMark
  | closed (fd : Int)
  | bound (file : List UInt8)
  | unlinked (file : List UInt8)

section Calls

variable (type : SockConnType) (build_id : PropertyValue) (k8s_env : Option (List UInt8))
  (calls : ServerCalls) (marks : List FileMark)

-- SocketPath
def socket_path : List UInt8 :=
  if k8s_env = some (literal "true") then literal "/conn/sensors-socket"
  else literal "/ipc/sensors-socket" ++ build_id.chars

-- bind of a socket file: an address that is longer than sockaddr_un is refused, and
-- the name is the string in the part of sun_path that the length covers.
def bind_file (sun_path : List UInt8) (addr_len : Nat) : Option (List UInt8) :=
  if addr_len > SA_FAMILY_LEN + SUN_PATH_LEN ∨ calls.bind < 0 then none
  else some (c_str (sun_path.take (addr_len - SA_FAMILY_LEN)))

-- The descriptor is closed on this way out of sock_server_init.
def ServerCalls.give_up (result : ServerInit) : ServerInit × List FileMark :=
  (result, marks ++ [.closed calls.socket])

-- sock_server_init from its last listen on.
def sock_server_create : ServerInit × List FileMark :=
  if calls.listen < 0 then calls.give_up marks (.returned none)
  else
    let zeros := List.replicate SOCK_MAX_PATH_LEN 0
    let path :=
      if type ≠ .INET_SOCK then strncpy zeros SOCK_UTIL_DEFAULT_PATH (SOCK_MAX_PATH_LEN - 1)
      else some zeros
    match path with
    | none => (.exited, marks)
    | some path => (.returned (some ⟨type, calls.socket, path, fun _ => -1⟩), marks)

-- Its part for a socket file.
def sock_server_bind : ServerInit × List FileMark :=
  let SocketPath := socket_path build_id k8s_env
  match strncpy (List.replicate SUN_PATH_LEN 0) SocketPath SocketPath.length with
  | none => (.exited, [])
  | some sun_path =>
    if calls.access ≠ -1 ∧ calls.unlink < 0 then calls.give_up [] (.returned none)
    else
      let removed := if calls.access ≠ -1 then [FileMark.unlinked SocketPath] else []
      match bind_file calls sun_path (SA_FAMILY_LEN + SocketPath.length + 1) with
      | none => calls.give_up removed (.returned none)
      | some file =>
        if calls.unix_listen < 0 then calls.give_up (removed ++ [.bound file]) (.returned none)
        else sock_server_create .UNIX_SOCK calls (removed ++ [.bound file])

def sock_server_init : ServerInit × List FileMark :=
  if calls.socket < 0 then (.returned none, [])
  else
    match type with
    | .INET_SOCK =>
      if calls.reuseaddr < 0 then calls.give_up [] .exited
      else if calls.nodelay < 0 then calls.give_up [] .exited
      else if calls.fionbio < 0 then calls.give_up [] (.returned none)
      else if calls.bind < 0 then calls.give_up [] (.returned none)
      else sock_server_create .INET_SOCK calls []
    | .UNIX_SOCK => sock_server_bind build_id k8s_env calls
    | .ABS_SOCK => sock_server_create .ABS_SOCK calls []

end Calls

def sock_server_close (server : Option PathServer) : List FileMark :=
  match server with
  | none => []
  | some server =>
    let slots := (List.finRange 512).filter fun id => server.client_slots id ≠ -1
    .closed server.socketfd :: slots.map (fun id => FileMark.closed (server.client_slots id)) ++
      if server.type = .UNIX_SOCK then [.unlinked (c_str server.path)] else []

-- The address that is returned, and the server. `ioctl` has what inet_ntoa makes of
-- the address of an interface, none where the call fails.
def sock_server_get_addr (server : Option PathServer) (ifname : List UInt8)
    (ioctl : List UInt8 → Option (List UInt8)) : List UInt8 × Option PathServer :=
  match server with
  | none => ([], none)
  | some server =>
    if server.type ≠ .INET_SOCK then (c_str server.path, some server)
    else
      let ifr_name := if ifname.length > IFNAMSIZ - 1 then [] else ifname
      let path :=
        match ioctl ifr_name with
        | none => []
        | some in_addr => if in_addr.length > SOCK_MAX_PATH_LEN - 1 then [] else in_addr
      let zeros := List.replicate (SOCK_MAX_PATH_LEN - path.length) 0
      (path, some { server with path := path ++ zeros })

-- The file of a server is the one that it records, tells and removes.
structure FileRecorded (server : PathServer) (marks : List FileMark) (path : List UInt8) :
    Prop where
  fits : path.length < SUN_PATH_LEN
  bound : ∀ file, .bound file ∈ marks ↔ file = path
  recorded : c_str server.path = path
  told : ∀ ifname ioctl, (sock_server_get_addr (some server) ifname ioctl).1 = path
  removed : ∀ slots file,
    .unlinked file ∈ sock_server_close (some { server with client_slots := slots }) ↔ file = path
  others : ∀ file, .unlinked file ∈ marks → file = path

-- No call fails, and the path has a place in sun_path.
structure ServerCalls.Succeed (calls : ServerCalls) (path : List UInt8) : Prop where
  socket : 0 ≤ calls.socket
  fits : path.length < SUN_PATH_LEN
  unlink : calls.access = -1 ∨ 0 ≤ calls.unlink
  bind : 0 ≤ calls.bind
  unix_listen : 0 ≤ calls.unix_listen
  listen : 0 ≤ calls.listen

section Init

variable {build_id : PropertyValue} {k8s_env : Option (List UInt8)} {calls : ServerCalls}
  {server : PathServer} {marks : List FileMark}

theorem socket_path_terminated (build_id : PropertyValue) (k8s_env : Option (List UInt8)) :
    0 ∉ socket_path build_id k8s_env := by
  rw [socket_path]
  split
  · decide
  · rw [List.mem_append, not_or]
    exact ⟨by decide, build_id.terminated⟩

theorem c_str_append {chars : List UInt8} (h : 0 ∉ chars) (rest : List UInt8) :
    c_str (chars ++ 0 :: rest) = chars := by
  rw [c_str, List.takeWhile_append_of_pos fun c hc => by
    simpa using fun hzero : c = 0 => h (hzero ▸ hc)]
  simp

-- The array after the copy of a string that is not longer than `n`.
theorem strncpy_string {array src : List UInt8} {n : Nat} (hsrc : src.length ≤ n)
    (hn : n ≤ array.length) :
    strncpy array src n =
      some (src ++ List.replicate (n - src.length) 0 ++ array.drop n) := by
  rw [strncpy, if_neg (Nat.not_lt.mpr hn), List.take_of_length_le hsrc]

-- What a server for a socket file is made of.
def path_server (calls : ServerCalls) : PathServer :=
  ⟨.UNIX_SOCK, calls.socket, SOCK_UTIL_DEFAULT_PATH ++ List.replicate 111 0, fun _ => -1⟩

theorem length_default_path : SOCK_UTIL_DEFAULT_PATH.length = 17 := by
  decide

theorem path_server_path (calls : ServerCalls) :
    c_str (path_server calls).path = SOCK_UTIL_DEFAULT_PATH :=
  c_str_append (by decide) (List.replicate 110 0)

theorem create_unix_spec (calls : ServerCalls) (marks : List FileMark) :
    sock_server_create .UNIX_SOCK calls marks =
      if calls.listen < 0 then calls.give_up marks (.returned none)
      else (.returned (some (path_server calls)), marks) := by
  have hcopied : strncpy (List.replicate SOCK_MAX_PATH_LEN 0) SOCK_UTIL_DEFAULT_PATH
      (SOCK_MAX_PATH_LEN - 1) = some (path_server calls).path := by
    rw [strncpy_string (length_default_path ▸ by decide) (by simp [SOCK_MAX_PATH_LEN]),
      length_default_path,
      List.drop_replicate, List.append_assoc, List.replicate_append_replicate]
    rfl
  simp only [sock_server_create, hcopied]
  rfl

theorem bind_file_path {path : List UInt8} (hterm : 0 ∉ path) (hfits : path.length < SUN_PATH_LEN)
    (hbind : 0 ≤ calls.bind) :
    bind_file calls (path ++ (List.replicate SUN_PATH_LEN 0).drop path.length)
      (SA_FAMILY_LEN + path.length + 1) = some path := by
  have hlen : ¬ (SA_FAMILY_LEN + path.length + 1 > SA_FAMILY_LEN + SUN_PATH_LEN ∨
      calls.bind < 0) := by omega
  have hname : SA_FAMILY_LEN + path.length + 1 - SA_FAMILY_LEN = path.length + 1 := by omega
  obtain ⟨rest, hrest⟩ : ∃ rest, SUN_PATH_LEN - path.length = rest + 1 :=
    ⟨SUN_PATH_LEN - path.length - 1, by omega⟩
  rw [bind_file, if_neg hlen, hname, List.drop_replicate, hrest, List.replicate_succ,
    List.take_length_add_append, List.take_succ_cons, c_str_append hterm]

-- The file is made, and what had its name is removed.
def file_marks (calls : ServerCalls) (path : List UInt8) : List FileMark :=
  (if calls.access ≠ -1 then [.unlinked path] else []) ++ [.bound path]

theorem give_up_none {server : PathServer} {marks marks' : List FileMark} :
    calls.give_up marks (.returned none) ≠ (.returned (some server), marks') := by
  intro hreturned
  cases congrArg Prod.fst hreturned

theorem bind_file_some {sun_path file : List UInt8} {addr_len : Nat}
    (h : bind_file calls sun_path addr_len = some file) : 0 ≤ calls.bind := by
  by_contra hfailed
  rw [bind_file, if_pos (.inr (Int.not_le.mp hfailed))] at h
  cases h

-- A path that has no place with its terminator makes no server.
theorem bind_unix_long (hlong : ¬ (socket_path build_id k8s_env).length < SUN_PATH_LEN) :
    sock_server_bind build_id k8s_env calls ≠ (.returned (some server), marks) := by
  generalize hpath : socket_path build_id k8s_env = path at hlong
  by_cases hover : path.length > (List.replicate SUN_PATH_LEN (0 : UInt8)).length
  · have hcopied : strncpy (List.replicate SUN_PATH_LEN 0) path path.length = none :=
      if_pos hover
    simp only [sock_server_bind, hpath, hcopied]
    intro hreturned
    cases congrArg Prod.fst hreturned
  · obtain ⟨sun_path, hcopied⟩ : ∃ sun_path,
        strncpy (List.replicate SUN_PATH_LEN 0) path path.length = some sun_path :=
      ⟨_, if_neg hover⟩
    have hrefused : bind_file calls sun_path (SA_FAMILY_LEN + path.length + 1) = none :=
      if_pos (.inl (by omega))
    simp only [sock_server_bind, hpath, hcopied, hrefused]
    split
    · exact give_up_none
    · exact give_up_none

theorem bind_unix_fits (hfits : (socket_path build_id k8s_env).length < SUN_PATH_LEN)
    (hunlink : calls.access = -1 ∨ 0 ≤ calls.unlink) (hbind : 0 ≤ calls.bind)
    (hlisten : 0 ≤ calls.unix_listen) :
    sock_server_bind build_id k8s_env calls =
      sock_server_create .UNIX_SOCK calls (file_marks calls (socket_path build_id k8s_env)) := by
  have hterm := socket_path_terminated build_id k8s_env
  generalize hpath : socket_path build_id k8s_env = path at hterm hfits
  have hcopied : strncpy (List.replicate SUN_PATH_LEN 0) path path.length =
      some (path ++ (List.replicate SUN_PATH_LEN 0).drop path.length) := by
    rw [strncpy_string (Nat.le_refl _) (by simp [Nat.le_of_lt hfits]), Nat.sub_self]
    simp
  have hremoved : ¬ (calls.access ≠ -1 ∧ calls.unlink < 0) := by omega
  have hlistens : ¬ calls.unix_listen < 0 := by omega
  simp only [sock_server_bind, hpath, hcopied, if_neg hremoved, bind_file_path hterm hfits hbind,
    if_neg hlistens]
  rfl

theorem bind_unix_succeeds (h : sock_server_bind build_id k8s_env calls =
    (.returned (some server), marks)) :
    (socket_path build_id k8s_env).length < SUN_PATH_LEN ∧
      (calls.access = -1 ∨ 0 ≤ calls.unlink) ∧ 0 ≤ calls.bind ∧ 0 ≤ calls.unix_listen := by
  have hfits : (socket_path build_id k8s_env).length < SUN_PATH_LEN :=
    by_contra fun hlong => bind_unix_long hlong h
  refine ⟨hfits, ?_⟩
  unfold sock_server_bind at h
  dsimp only at h
  split at h
  · cases congrArg Prod.fst h
  · split at h
    · exact absurd h give_up_none
    · split at h
      · exact absurd h give_up_none
      · split at h
        · exact absurd h give_up_none
        · rename_i hremoved _ _ hfile hlistens
          have hbind := bind_file_some hfile
          omega

-- The run of sock_server_init for a socket file.
theorem init_unix_spec (build_id : PropertyValue) (k8s_env : Option (List UInt8))
    (calls : ServerCalls) (server : PathServer) (marks : List FileMark) :
    sock_server_init .UNIX_SOCK build_id k8s_env calls = (.returned (some server), marks) ↔
      calls.Succeed (socket_path build_id k8s_env) ∧ server = path_server calls ∧
        marks = file_marks calls (socket_path build_id k8s_env) := by
  constructor
  · intro hinit
    have hsocket : ¬ calls.socket < 0 := by
      intro hfailed
      rw [sock_server_init, if_pos hfailed] at hinit
      cases congrArg Prod.fst hinit
    rw [sock_server_init, if_neg hsocket] at hinit
    obtain ⟨hfits, hunlink, hbind, hunix⟩ := bind_unix_succeeds hinit
    have hcreate : sock_server_create .UNIX_SOCK calls
        (file_marks calls (socket_path build_id k8s_env)) = (.returned (some server), marks) :=
      (bind_unix_fits hfits hunlink hbind hunix).symm.trans hinit
    have hlisten : ¬ calls.listen < 0 := by
      intro hfailed
      rw [create_unix_spec, if_pos hfailed] at hcreate
      exact give_up_none hcreate
    rw [create_unix_spec, if_neg hlisten] at hcreate
    obtain ⟨hserver, hmarks⟩ := Prod.mk.inj hcreate
    exact ⟨⟨by omega, hfits, hunlink, hbind, hunix, by omega⟩,
      (Option.some.inj (ServerInit.returned.inj hserver)).symm, hmarks.symm⟩
  · rintro ⟨hsucceed, rfl, rfl⟩
    have hsocket : ¬ calls.socket < 0 := Int.not_lt.mpr hsucceed.socket
    have hlisten : ¬ calls.listen < 0 := Int.not_lt.mpr hsucceed.listen
    rw [sock_server_init, if_neg hsocket]
    show sock_server_bind build_id k8s_env calls = _
    rw [bind_unix_fits hsucceed.fits hsucceed.unlink hsucceed.bind hsucceed.unix_listen,
      create_unix_spec, if_neg hlisten]

theorem socket_path_ne_default : socket_path build_id k8s_env ≠ SOCK_UTIL_DEFAULT_PATH := by
  rw [socket_path]
  split
  · decide
  · intro hsame
    have hlen := congrArg List.length hsame
    have hsensors : (literal "/ipc/sensors-socket").length = 19 := by decide
    rw [List.length_append, hsensors, length_default_path] at hlen
    omega

theorem close_unlinks (server : PathServer) (htype : server.type = .UNIX_SOCK)
    (file : List UInt8) :
    .unlinked file ∈ sock_server_close (some server) ↔ file = c_str server.path := by
  simp [sock_server_close, htype]

-- The file that a server for a socket file makes, and the one that it tells and
-- removes.
theorem unix_server_files (h : sock_server_init .UNIX_SOCK build_id k8s_env calls =
    (.returned (some server), marks)) :
    (socket_path build_id k8s_env).length < SUN_PATH_LEN ∧
      (∀ file, .bound file ∈ marks ↔ file = socket_path build_id k8s_env) ∧
      (∀ file, .unlinked file ∈ marks → file = socket_path build_id k8s_env) ∧
      (∀ ifname ioctl,
        (sock_server_get_addr (some server) ifname ioctl).1 = SOCK_UTIL_DEFAULT_PATH) ∧
      ∀ slots file,
        .unlinked file ∈ sock_server_close (some { server with client_slots := slots }) ↔
          file = SOCK_UTIL_DEFAULT_PATH := by
  obtain ⟨hsucceed, rfl, rfl⟩ := (init_unix_spec build_id k8s_env calls server marks).mp h
  refine ⟨hsucceed.fits, fun file => ?_, fun file => ?_, fun ifname ioctl => ?_,
    fun slots file => ?_⟩
  · rw [file_marks]
    split <;> simp
  · rw [file_marks]
    split <;> simp
  · exact path_server_path calls
  · have hclose := close_unlinks { path_server calls with client_slots := slots } rfl file
    rw [hclose]
    show file = c_str (path_server calls).path ↔ _
    rw [path_server_path]

-- A server for a socket file never records the file that it made.
theorem file_recorded_iff (build_id : PropertyValue) (k8s_env : Option (List UInt8))
    (calls : ServerCalls) :
    (∀ server marks,
      sock_server_init .UNIX_SOCK build_id k8s_env calls = (.returned (some server), marks) →
        FileRecorded server marks (socket_path build_id k8s_env)) ↔
      ¬ calls.Succeed (socket_path build_id k8s_env) := by
  constructor
  · intro hrecorded hsucceed
    have hinit := (init_unix_spec build_id k8s_env calls _ _).mpr ⟨hsucceed, rfl, rfl⟩
    have hpath := (hrecorded _ _ hinit).recorded
    rw [path_server_path] at hpath
    exact socket_path_ne_default hpath.symm
  · intro hfails server marks hinit
    exact absurd ((init_unix_spec build_id k8s_env calls server marks).mp hinit).1 hfails

end Init

-- Without a container id, and where all calls succeed.
theorem display_sock_removed :
    ¬ ∀ server marks,
      sock_server_init .UNIX_SOCK ⟨[], by decide, by decide⟩ none ⟨3, 0, 0, 0, -1, 0, 0, 0, 0⟩ =
          (.returned (some server), marks) →
        FileRecorded server marks (literal "/ipc/sensors-socket") := by
  intro hrecorded
  have hinit := (init_unix_spec ⟨[], by decide, by decide⟩ none ⟨3, 0, 0, 0, -1, 0, 0, 0, 0⟩ _
    _).mpr ⟨⟨by decide, by decide, .inl rfl, by decide, by decide, by decide⟩, rfl, rfl⟩
  have hremoved := (hrecorded _ _ hinit).removed (fun _ => -1) SOCK_UTIL_DEFAULT_PATH
  have hclosed := (unix_server_files hinit).2.2.2.2 (fun _ => -1) SOCK_UTIL_DEFAULT_PATH
  exact absurd (hremoved.mp (hclosed.mpr rfl)) (by decide)

end SensorVhal
