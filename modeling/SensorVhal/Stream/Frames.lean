import Mathlib.Algebra.Group.Nat.Defs
import SensorVhal.Stream.Segmentation

namespace SensorVhal

-- A frame as a client sends it: a type, data_num values, and for the types that
-- the HAL supports the documented number of them.
structure SensorFrame (hdr : SensorsHeader) where
  type : BitVec 32
  timestamp : BitVec 64
  values : List (BitVec 32)
  data_num_nonneg : values.length < 2 ^ 31
  documented : ∀ sensor, sensor_of_type hdr type.toInt = some sensor →
    values.length = sensor.words

variable {hdr : SensorsHeader}

def SensorFrame.data_num (frame : SensorFrame hdr) : BitVec 32 :=
  BitVec.ofNat 32 frame.values.length

-- aic_sensors_event_t in memory, and the values behind it.
def SensorFrame.item (frame : SensorFrame hdr) : Framing.Item UInt8 where
  head := Bytes.ofWord frame.type ++ (Bytes.ofWord frame.data_num ++
    (Bytes.ofWord (frame.timestamp.extractLsb' 0 32) ++
      Bytes.ofWord (frame.timestamp.extractLsb' 32 32)))
  body := frame.values.flatMap Bytes.ofWord

theorem SensorFrame.header_type_head (frame : SensorFrame hdr) :
    header_type frame.item.head = frame.type.toInt :=
  congrArg BitVec.toInt (Bytes.toWord_ofWord_append frame.type _)

theorem length_flatMap_ofWord (words : List (BitVec 32)) :
    (words.flatMap Bytes.ofWord).length = 4 * words.length := by
  induction words with
  | nil => rfl
  | cons word words ih =>
      rw [List.flatMap_cons, List.length_append, ih, Bytes.length_ofWord, List.length_cons]
      omega

theorem SensorFrame.fits (frame : SensorFrame hdr) : (event_format hdr).Fits frame.item := by
  constructor
  · rfl
  · intro hpos
    have hlen : (event_format hdr).bodyLen frame.item.head =
        get_payload_len hdr frame.type.toInt := by
      rw [← frame.header_type_head]
      rfl
    rw [hlen] at hpos ⊢
    cases hsensor : sensor_of_type hdr frame.type.toInt with
    | none =>
        rw [get_payload_len, hsensor] at hpos
        cases hpos
    | some sensor =>
        rw [get_payload_len_of_sensor hsensor, ← frame.documented sensor hsensor]
        exact length_flatMap_ofWord frame.values

variable {Client : Type} [DecidableEq Client]

-- Once a client's frames are in, its messages are the frames of supported types,
-- each from its own place, exactly if the frames of other types keep the
-- callback in step.
theorem messages_of_frames (events : List (ChannelEvent Client)) (ch : Channel Client)
    (hcond : ∀ event ∈ events, Undisturbed event)
    (hrun : Machine.run (Channel.step hdr) Channel.init events = some ch) (client : Client)
    (frames : List (SensorFrame hdr))
    (hsent : ch.history.received client =
      (frames.map SensorFrame.item).flatMap Framing.Item.bytes) :
    ch.frames hdr client = (event_format hdr).sent 0 (frames.map SensorFrame.item) ↔
      (event_format hdr).InStep [] (frames.map SensorFrame.item) := by
  have hfits : ∀ item ∈ frames.map SensorFrame.item, (event_format hdr).Fits item := by
    intro item hmem
    obtain ⟨frame, _, rfl⟩ := List.mem_map.mp hmem
    exact frame.fits
  rw [Channel.frames_of_framed (Channel.framed_run hcond hrun), hsent]
  exact Framing.parse_items_iff hfits 0 []

-- Pressure (type 6) is one of the types that the HAL does not support.
def pressure_frame (value : Option (BitVec 32)) : SensorFrame android_header where
  type := 6
  timestamp := 0
  values := value.toList
  data_num_nonneg := by cases value <;> simp
  documented := by
    intro sensor hsensor
    have hnone : sensor_of_type android_header (6 : BitVec 32).toInt = none := rfl
    rw [hnone] at hsensor
    cases hsensor

def light_frame (value : BitVec 32) : SensorFrame android_header where
  type := 5
  timestamp := 0
  values := [value]
  data_num_nonneg := by simp
  documented := by
    intro sensor hsensor
    cases hsensor
    rfl

theorem messages_of_frames_empty_pressure :
    ∃ ch : Channel Nat, Machine.run (Channel.step android_header) Channel.init
        [.readable 0 (List.replicate 16 7),
          .recv (.data [6, 0, 0, 0, 0, 0, 0, 0, 0, 0, 0, 0, 0, 0, 0, 0]),
          .readable 0 (List.replicate 16 7),
          .recv (.data [5, 0, 0, 0, 1, 0, 0, 0, 0, 0, 0, 0, 0, 0, 0, 0]),
          .recv (.data [9, 0, 0, 0])] = some ch ∧
      ch.frames android_header 0 =
        [⟨16, [5, 0, 0, 0, 1, 0, 0, 0, 0, 0, 0, 0, 0, 0, 0, 0], [9, 0, 0, 0]⟩] := by
  obtain ⟨ch, hrun, hreceived⟩ : ∃ ch : Channel Nat,
      Machine.run (Channel.step android_header) Channel.init
        [.readable 0 (List.replicate 16 7),
          .recv (.data [6, 0, 0, 0, 0, 0, 0, 0, 0, 0, 0, 0, 0, 0, 0, 0]),
          .readable 0 (List.replicate 16 7),
          .recv (.data [5, 0, 0, 0, 1, 0, 0, 0, 0, 0, 0, 0, 0, 0, 0, 0]),
          .recv (.data [9, 0, 0, 0])] = some ch ∧
      ch.history.received 0 = ([pressure_frame none, light_frame 9].map
        SensorFrame.item).flatMap Framing.Item.bytes :=
    Option.map_eq_some_iff.mp (by decide +kernel)
  refine ⟨ch, hrun, ?_⟩
  refine ((messages_of_frames _ ch ?_ hrun 0 _ hreceived).mpr ?_).trans (by decide +kernel)
  · simp [Undisturbed]
  · -- the frame without values is a header of its own
    have hsilent : (event_format android_header).Silent
        ([6, 0, 0, 0, 0, 0, 0, 0, 0, 0, 0, 0, 0, 0, 0, 0] ++ []) :=
      .cons rfl (by decide +kernel) .nil
    exact ⟨hsilent, [], [], rfl, .nil, .inl (by decide)⟩

-- The callback leaves the value of the pressure frame in the stream and takes
-- it for the start of the next header.
theorem pressure_frame_desynchronises :
    ¬ ∀ (events : List (ChannelEvent Nat)) (ch : Channel Nat) (client : Nat)
        (frames : List (SensorFrame android_header)),
      (∀ event ∈ events, Undisturbed event) →
      Machine.run (Channel.step android_header) Channel.init events = some ch →
      ch.history.received client =
        (frames.map SensorFrame.item).flatMap Framing.Item.bytes →
      (ch.frames android_header client).map (fun frame => (frame.head, frame.body)) =
        ((event_format android_header).sent 0 (frames.map SensorFrame.item)).map
          (fun frame => (frame.head, frame.body)) := by
  intro h
  obtain ⟨ch, hrun, hresult⟩ : ∃ ch : Channel Nat,
      Machine.run (Channel.step android_header) Channel.init
        [.readable 0 (List.replicate 16 7),
          .recv (.data [6, 0, 0, 0, 1, 0, 0, 0, 0, 0, 0, 0, 0, 0, 0, 0]),
          .readable 0 (List.replicate 16 7),
          .recv (.data [0, 0, 0, 0, 5, 0, 0, 0, 1, 0, 0, 0, 0, 0, 0, 0]),
          .readable 0 (List.replicate 16 7),
          .recv (.data [0, 0, 0, 0, 9, 0, 0, 0])] = some ch ∧
      (ch.history.received 0, ch.frames android_header 0) =
        (([pressure_frame (some 0), light_frame 9].map
          SensorFrame.item).flatMap Framing.Item.bytes, []) :=
    Option.map_eq_some_iff.mp (by decide +kernel)
  rw [Prod.mk.injEq] at hresult
  have hsame := h _ ch 0 _ (by simp [Undisturbed]) hrun hresult.1
  rw [hresult.2] at hsame
  exact absurd hsame (by decide +kernel)

end SensorVhal
