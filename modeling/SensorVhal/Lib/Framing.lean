import Mathlib.Data.List.Basic
import Mathlib.Tactic.Common

namespace Framing

variable {α : Type*}

-- A stream of headers of fixed length, each of which says how long the body
-- behind it is.
structure Format (α : Type*) where
  headLen : Nat
  headLen_pos : 0 < headLen
  bodyLen : List α → Nat

structure Frame (α : Type*) where
  start : Nat
  head : List α
  body : List α
  deriving DecidableEq

-- The frames with a body in a stream that begins at offset `start`. A header
-- without a body is passed over, and an incomplete tail gives nothing.
def Format.parse (format : Format α) (start : Nat) (stream : List α) : List (Frame α) :=
  if stream.length < format.headLen then []
  else
    let head := stream.take format.headLen
    let rest := stream.drop format.headLen
    let len := format.bodyLen head
    if len = 0 then format.parse (start + format.headLen) rest
    else if rest.length < len then []
    else ⟨start, head, rest.take len⟩ ::
      format.parse (start + format.headLen + len) (rest.drop len)
termination_by stream.length
decreasing_by
  all_goals
    have hpos := format.headLen_pos
    simp only [List.length_drop]
    omega

variable {format : Format α}

section Parse

variable {head body rest : List α}

theorem parse_short {stream : List α} (start : Nat) (h : stream.length < format.headLen) :
    format.parse start stream = [] := by
  rw [Format.parse, if_pos h]

theorem parse_skip (start : Nat) (hhead : head.length = format.headLen)
    (hbody : format.bodyLen head = 0) :
    format.parse start (head ++ rest) = format.parse (start + format.headLen) rest := by
  have hlong : ¬ (head ++ rest).length < format.headLen := by
    rw [List.length_append]
    omega
  rw [Format.parse, if_neg hlong]
  simp only [← hhead, List.take_left, List.drop_left]
  rw [if_pos hbody]

theorem parse_partial (start : Nat) (hhead : head.length = format.headLen)
    (hrest : rest.length < format.bodyLen head) : format.parse start (head ++ rest) = [] := by
  have hlong : ¬ (head ++ rest).length < format.headLen := by
    rw [List.length_append]
    omega
  rw [Format.parse, if_neg hlong]
  simp only [← hhead, List.take_left, List.drop_left]
  rw [if_neg (by omega), if_pos hrest]

theorem parse_frame (start : Nat) (hhead : head.length = format.headLen)
    (hbody : body.length = format.bodyLen head) (hpos : 0 < body.length) :
    format.parse start (head ++ (body ++ rest)) =
      ⟨start, head, body⟩ :: format.parse (start + format.headLen + body.length) rest := by
  have hlong : ¬ (head ++ (body ++ rest)).length < format.headLen := by
    rw [List.length_append]
    omega
  have hfull : ¬ (body ++ rest).length < body.length := by
    rw [List.length_append]
    omega
  rw [Format.parse, if_neg hlong]
  simp only [← hhead, List.take_left, List.drop_left]
  rw [← hbody, if_neg (by omega), if_neg hfull, List.take_left, List.drop_left]

end Parse

variable (format)

-- Whole headers without a body, one after the other.
inductive Format.Silent : List α → Prop
  | nil : Silent []
  | cons {head rest : List α} (hhead : head.length = format.headLen)
      (hbody : format.bodyLen head = 0) (hrest : Silent rest) : Silent (head ++ rest)

-- A stream that ends where a frame ends, and its frames.
inductive Format.Whole : Nat → List α → List (Frame α) → Prop
  | nil (start : Nat) : Whole start [] []
  | skip {start : Nat} {head rest : List α} {frames : List (Frame α)}
      (hhead : head.length = format.headLen) (hbody : format.bodyLen head = 0)
      (hrest : Whole (start + format.headLen) rest frames) : Whole start (head ++ rest) frames
  | frame {start : Nat} {head body rest : List α} {frames : List (Frame α)}
      (hhead : head.length = format.headLen) (hbody : body.length = format.bodyLen head)
      (hpos : 0 < body.length)
      (hrest : Whole (start + format.headLen + body.length) rest frames) :
      Whole start (head ++ (body ++ rest)) (⟨start, head, body⟩ :: frames)

variable {format}

theorem Format.Silent.parse_append {gap rest : List α} (h : format.Silent gap) (start : Nat) :
    format.parse start (gap ++ rest) = format.parse (start + gap.length) rest := by
  induction h generalizing start with
  | nil => rfl
  | cons hhead hbody _ ih =>
      rw [List.append_assoc, parse_skip start hhead hbody, ih, List.length_append, hhead,
        Nat.add_assoc]

theorem Format.Whole.append {start : Nat} {first second : List α} {frames frames' : List (Frame α)}
    (h : format.Whole start first frames)
    (h' : format.Whole (start + first.length) second frames') :
    format.Whole start (first ++ second) (frames ++ frames') := by
  induction h with
  | nil start => exact h'
  | @skip start head rest frames hhead hbody _ ih =>
      rw [List.length_append, hhead, ← Nat.add_assoc] at h'
      rw [List.append_assoc]
      exact .skip hhead hbody (ih h')
  | @frame start head body rest frames hhead hbody hpos _ ih =>
      rw [List.length_append, List.length_append, hhead, ← Nat.add_assoc, ← Nat.add_assoc] at h'
      rw [List.append_assoc, List.append_assoc]
      exact .frame hhead hbody hpos (ih h')

-- Parsing goes on behind a whole stream as if it began there.
theorem Format.Whole.parse_append {start : Nat} {stream rest : List α} {frames : List (Frame α)}
    (h : format.Whole start stream frames) :
    format.parse start (stream ++ rest) =
      frames ++ format.parse (start + stream.length) rest := by
  induction h with
  | nil start => rfl
  | @skip start head middle frames hhead hbody _ ih =>
      rw [List.append_assoc, parse_skip start hhead hbody, ih, List.length_append, hhead,
        Nat.add_assoc]
  | @frame start head body middle frames hhead hbody hpos _ ih =>
      rw [List.append_assoc, List.append_assoc, parse_frame start hhead hbody hpos, ih,
        List.length_append, List.length_append, hhead, List.cons_append]
      simp only [Nat.add_assoc]

section Resync

variable (format)

-- A stream in which nothing is found: silent, up to a header or a body that
-- is not all there.
def Format.Quiet (stream : List α) : Prop :=
  ∃ gap rest, stream = gap ++ rest ∧ format.Silent gap ∧
    (rest.length < format.headLen ∨
      rest.length < format.headLen + format.bodyLen (rest.take format.headLen))

variable {format}

theorem exists_head {n : Nat} {stream : List α} (h : n ≤ stream.length) :
    ∃ head rest, stream = head ++ rest ∧ head.length = n := by
  refine ⟨stream.take n, stream.drop n, (List.take_append_drop n stream).symm, ?_⟩
  rw [List.length_take]
  omega

-- What a stream begins with: an incomplete frame, a header without a body, or
-- a frame.
theorem stream_cases (format : Format α) (stream : List α) :
    (stream.length < format.headLen ∨
      stream.length < format.headLen + format.bodyLen (stream.take format.headLen)) ∨
    (∃ head rest, stream = head ++ rest ∧ head.length = format.headLen ∧
      format.bodyLen head = 0) ∨
    ∃ head body rest, stream = head ++ (body ++ rest) ∧ head.length = format.headLen ∧
      body.length = format.bodyLen head ∧ 0 < body.length := by
  by_cases hshort : stream.length < format.headLen
  · exact .inl (.inl hshort)
  · obtain ⟨head, rest, rfl, hhead⟩ := exists_head (Nat.le_of_not_lt hshort)
    by_cases hbody : format.bodyLen head = 0
    · exact .inr (.inl ⟨head, rest, rfl, hhead, hbody⟩)
    · by_cases hrest : rest.length < format.bodyLen head
      · left; right
        rw [← hhead, List.take_left, List.length_append]
        omega
      · obtain ⟨body, rest, rfl, hlength⟩ := exists_head (Nat.le_of_not_lt hrest)
        exact .inr (.inr ⟨head, body, rest, rfl, hhead, hlength, by omega⟩)

theorem parse_incomplete {stream : List α} (start : Nat)
    (h : stream.length < format.headLen ∨
      stream.length < format.headLen + format.bodyLen (stream.take format.headLen)) :
    format.parse start stream = [] := by
  by_cases hshort : stream.length < format.headLen
  · exact parse_short start hshort
  · obtain ⟨head, rest, rfl, hhead⟩ := exists_head (Nat.le_of_not_lt hshort)
    rcases h with h | h
    · exact absurd h hshort
    · rw [← hhead, List.take_left, List.length_append] at h
      exact parse_partial start hhead (by omega)

theorem parse_quiet {stream : List α} (start : Nat) (h : format.Quiet stream) :
    format.parse start stream = [] := by
  obtain ⟨gap, rest, rfl, hgap, hrest⟩ := h
  rw [hgap.parse_append]
  exact parse_incomplete _ hrest

-- Nothing is found in a stream, or something is behind its silent part.
theorem parse_cases (start : Nat) (stream : List α) :
    (format.Quiet stream ∧ format.parse start stream = []) ∨
    ∃ gap head body rest, stream = gap ++ (head ++ (body ++ rest)) ∧ format.Silent gap ∧
      head.length = format.headLen ∧ body.length = format.bodyLen head ∧ 0 < body.length ∧
      format.parse start stream = ⟨start + gap.length, head, body⟩ ::
        format.parse (start + gap.length + format.headLen + body.length) rest := by
  induction hn : stream.length using Nat.strongRecOn generalizing start stream with
  | _ n ih =>
      rcases stream_cases format stream with hrest | ⟨head, rest, rfl, hhead, hbody⟩ |
        ⟨head, body, rest, rfl, hhead, hbody, hpos⟩
      · exact .inl ⟨⟨[], stream, rfl, .nil, hrest⟩, parse_incomplete start hrest⟩
      · have hlt : rest.length < n := by
          have hpos := format.headLen_pos
          rw [List.length_append] at hn
          omega
        rw [parse_skip start hhead hbody]
        rcases ih _ hlt (start + format.headLen) rest rfl with ⟨hquiet, hparse⟩ |
          ⟨gap, head', body, rest, rfl, hgap, hhead', hbody', hpos, hparse⟩
        · obtain ⟨gap, rest, rfl, hgap, hrest⟩ := hquiet
          refine .inl ⟨⟨head ++ gap, rest, ?_, .cons hhead hbody hgap, hrest⟩, hparse⟩
          rw [List.append_assoc]
        · right
          refine ⟨head ++ gap, head', body, rest, ?_, .cons hhead hbody hgap, hhead', hbody',
            hpos, ?_⟩
          · rw [List.append_assoc]
          · rw [hparse, List.length_append, hhead, ← Nat.add_assoc]
      · exact .inr ⟨[], head, body, rest, rfl, .nil, hhead, hbody, hpos,
          parse_frame start hhead hbody hpos⟩

-- The frames of a sender, who may put a body where the format has none.
structure Item (α : Type*) where
  head : List α
  body : List α

structure Format.Fits (format : Format α) (item : Item α) : Prop where
  head : item.head.length = format.headLen
  body : 0 < format.bodyLen item.head → item.body.length = format.bodyLen item.head

def Item.bytes (item : Item α) : List α := item.head ++ item.body

-- The items that have a body in the format, each at its own place.
def Format.sent (format : Format α) (start : Nat) : List (Item α) → List (Frame α)
  | [] => []
  | item :: items =>
    let rest := format.sent (start + item.bytes.length) items
    if 0 < format.bodyLen item.head then ⟨start, item.head, item.body⟩ :: rest else rest

-- The items without a body in the format do not put the parser out of step:
-- up to the next item with one, and up to the end, nothing is found.
def Format.InStep (format : Format α) (gap : List α) : List (Item α) → Prop
  | [] => format.Quiet gap
  | item :: items =>
    if 0 < format.bodyLen item.head then format.Silent gap ∧ format.InStep [] items
    else format.InStep (gap ++ item.bytes) items

theorem parse_items_iff {items : List (Item α)} (hfits : ∀ item ∈ items, format.Fits item)
    (start : Nat) (gap : List α) :
    format.parse start (gap ++ items.flatMap Item.bytes) =
        format.sent (start + gap.length) items ↔ format.InStep gap items := by
  induction items generalizing start gap with
  | nil =>
      rw [List.flatMap_nil, List.append_nil]
      refine ⟨fun hnil => ?_, fun hquiet => parse_quiet start hquiet⟩
      rcases parse_cases start gap with ⟨hquiet, _⟩ | ⟨gap', head, body, rest, _, _, _, _, _, hparse⟩
      · exact hquiet
      · rw [hnil] at hparse
        cases hparse
  | cons item items ih =>
      obtain ⟨hfit, hfits⟩ := List.forall_mem_cons.mp hfits
      rw [List.flatMap_cons]
      by_cases hpos : 0 < format.bodyLen item.head
      · have hbody := hfit.body hpos
        have hplace : start + gap.length + format.headLen + item.body.length =
            start + gap.length + item.bytes.length := by
          rw [Item.bytes, List.length_append, hfit.head]
          omega
        rw [Format.sent, if_pos hpos, Format.InStep, if_pos hpos]
        have hnext := ih hfits (start + gap.length + item.bytes.length) []
        rw [List.nil_append, List.length_nil, Nat.add_zero] at hnext
        rw [← hnext]
        constructor
        · intro hsent
          rcases parse_cases start (gap ++ (item.bytes ++ items.flatMap Item.bytes)) with
            ⟨_, hparse⟩ | ⟨gap', head, body, rest, hsplit, hgap, hhead, _, _, hparse⟩
          · rw [hparse] at hsent
            cases hsent
          · -- the first frame found stands where the item stands
            rw [hparse, List.cons.injEq, Frame.mk.injEq] at hsent
            obtain ⟨⟨hstart, rfl, rfl⟩, hrest⟩ := hsent
            obtain ⟨rfl, hitem⟩ := List.append_inj hsplit (by omega)
            rw [Item.bytes, List.append_assoc] at hitem
            have htail := List.append_cancel_left (List.append_cancel_left hitem)
            rw [hplace, ← htail] at hrest
            exact ⟨hgap, hrest⟩
        · rintro ⟨hgap, hrest⟩
          rw [hgap.parse_append, Item.bytes, List.append_assoc,
            parse_frame _ hfit.head hbody (by omega), hplace, hrest]
          rfl
      · rw [Format.sent, if_neg hpos, Format.InStep, if_neg hpos, ← List.append_assoc,
          ← ih hfits start (gap ++ item.bytes), List.length_append, Nat.add_assoc]

end Resync

end Framing
