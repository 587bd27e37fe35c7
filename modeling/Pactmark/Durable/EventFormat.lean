import Mathlib

/-!
# Durable — the event stream format

`text/event-stream`, as its reader reads it, unit by unit: lines end at a line feed, a carriage
return or both, a line is a field of an event, and an empty line makes the event a message.  What
is left when the stream ends is discarded.

* `read_encode`: a message is read back.
* `read_prefix`: of a stream that is cut anywhere the messages are read back whose text is there.
-/

namespace Durable.EventFormat

/-- A message. -/
structure Message where
  type : List Nat
  data : List Nat
  lastEventId : List Nat
  deriving DecidableEq

/-- A reader of a stream: what it has of a line, the buffers of an event, the identifier of the
last message, and the messages. -/
structure Reader where
  line : List Nat
  afterReturn : Bool
  data : List Nat
  type : List Nat
  idBuffer : List Nat
  lastEventId : List Nat
  messages : List Message

/-- A reader of a new stream. -/
def Reader.start (lastEventId : List Nat) : Reader :=
  ⟨[], false, [], [], lastEventId, lastEventId, []⟩

/-- `event`, `data`, `id` and `message`. -/
def eventName : List Nat := [101, 118, 101, 110, 116]
def dataName : List Nat := [100, 97, 116, 97]
def idName : List Nat := [105, 100]
def messageName : List Nat := [109, 101, 115, 115, 97, 103, 101]

/-- The name of a field and its value, without a first space. -/
def splitField (line : List Nat) : List Nat × List Nat :=
  match line.dropWhile (· ≠ 58) with
  | [] => (line, [])
  | _ :: 32 :: value => (line.takeWhile (· ≠ 58), value)
  | _ :: value => (line.takeWhile (· ≠ 58), value)

namespace Reader

/-- A field. -/
def field (r : Reader) (name value : List Nat) : Reader :=
  if name = eventName then { r with type := value }
  else if name = dataName then { r with data := r.data ++ value ++ [10] }
  else if name = idName ∧ 0 ∉ value then { r with idBuffer := value }
  else r

/-- An empty line. -/
def dispatch (r : Reader) : Reader :=
  if r.data = [] then { r with lastEventId := r.idBuffer, type := [] }
  else
    { r with
      lastEventId := r.idBuffer
      data := []
      type := []
      messages := r.messages ++
        [⟨if r.type = [] then messageName else r.type, r.data.dropLast, r.idBuffer⟩] }

/-- A line ends. -/
def endLine (r : Reader) : Reader :=
  if r.line = [] then r.dispatch
  else { r.field (splitField r.line).1 (splitField r.line).2 with line := [] }

/-- A unit. -/
def step (r : Reader) (unit : Nat) : Reader :=
  if unit = 10 then if r.afterReturn then { r with afterReturn := false } else r.endLine
  else if unit = 13 then { r.endLine with afterReturn := true }
  else { r with line := r.line ++ [unit], afterReturn := false }

/-- What is read of a stream. -/
def read (r : Reader) (units : List Nat) : Reader :=
  units.foldl step r

end Reader

/-- A line of a field. -/
def fieldLine (name value : List Nat) : List Nat :=
  name ++ [58, 32] ++ value ++ [10]

/-- The text of a message. -/
def encode (m : Message) : List Nat :=
  fieldLine idName m.lastEventId ++ fieldLine eventName m.type ++ fieldLine dataName m.data ++ [10]

/-- A text without the end of a line. -/
def OneLine (text : List Nat) : Prop :=
  10 ∉ text ∧ 13 ∉ text

/-- A message that can be written in one line for each field. -/
structure Message.Plain (m : Message) : Prop where
  type : OneLine m.type ∧ m.type ≠ []
  data : OneLine m.data
  id : OneLine m.lastEventId ∧ 0 ∉ m.lastEventId

/-- The reader is between two events. -/
structure Reader.Between (r : Reader) : Prop where
  line : r.line = []
  afterReturn : r.afterReturn = false
  data : r.data = []
  type : r.type = []

variable {r : Reader} {m : Message} {text : List Nat}

theorem between_start (lastEventId : List Nat) : (Reader.start lastEventId).Between :=
  ⟨rfl, rfl, rfl, rfl⟩

theorem read_append (r : Reader) (text later : List Nat) :
    r.read (text ++ later) = (r.read text).read later :=
  List.foldl_append

/-- **A text without the end of a line** is added to the line. -/
theorem read_oneLine (h : OneLine text) (hreturn : r.afterReturn = false) :
    r.read text = { r with line := r.line ++ text } := by
  induction text generalizing r with
  | nil => simp [Reader.read]
  | cons unit text ih =>
      obtain ⟨hfeed, hret⟩ := h
      rw [List.mem_cons, not_or] at hfeed hret
      have hstep : r.step unit = { r with line := r.line ++ [unit] } := by
        unfold Reader.step
        rw [if_neg (Ne.symm hfeed.1), if_neg (Ne.symm hret.1), hreturn]
      have hrest := ih (r := { r with line := r.line ++ [unit] }) ⟨hfeed.2, hret.2⟩ hreturn
      show (r.step unit).read text = _
      rw [hstep, hrest]
      simp

/-- A field is read. -/
theorem read_line (h : OneLine text) (hne : text ≠ []) (hline : r.line = [])
    (hreturn : r.afterReturn = false) :
    r.read (text ++ [10]) = r.field (splitField text).1 (splitField text).2 := by
  rw [read_append, read_oneLine h hreturn, hline, List.nil_append]
  show Reader.step { r with line := text } 10 = _
  have hstep : Reader.step { r with line := text } 10 = Reader.endLine { r with line := text } := by
    unfold Reader.step
    rw [if_pos rfl]
    exact if_neg (by rw [hreturn]; exact Bool.false_ne_true)
  rw [hstep]
  unfold Reader.endLine
  rw [if_neg hne]
  unfold Reader.field
  split
  · rw [← hline]
  · split
    · rw [← hline]
    · split <;> rw [← hline]

theorem splitField_fieldLine {name : List Nat} (hname : 58 ∉ name) (value : List Nat) :
    splitField (name ++ [58, 32] ++ value) = (name, value) := by
  have hall : ∀ unit ∈ name, decide (unit ≠ 58) = true := by
    intro unit hunit
    exact decide_eq_true fun h => hname (h ▸ hunit)
  unfold splitField
  rw [List.append_assoc, List.dropWhile_append_of_pos hall, List.takeWhile_append_of_pos hall]
  simp

/-- The line of a field. -/
theorem read_fieldLine {name value : List Nat} (hname : OneLine name ∧ 58 ∉ name)
    (hvalue : OneLine value) (hline : r.line = []) (hreturn : r.afterReturn = false) :
    r.read (fieldLine name value) = r.field name value := by
  have hone : OneLine (name ++ [58, 32] ++ value) := by
    simp only [OneLine, List.mem_append, not_or]
    exact ⟨⟨⟨hname.1.1, by decide⟩, hvalue.1⟩, ⟨hname.1.2, by decide⟩, hvalue.2⟩
  have hne : name ++ [58, 32] ++ value ≠ [] := by simp
  rw [fieldLine, read_line hone hne hline hreturn, splitField_fieldLine hname.2]

theorem oneLine_names : (OneLine idName ∧ 58 ∉ idName) ∧ (OneLine eventName ∧ 58 ∉ eventName) ∧
    OneLine dataName ∧ 58 ∉ dataName := by
  unfold OneLine
  decide

/-- What is read of a message up to its empty line. -/
theorem read_fields (hm : m.Plain) (h : r.Between) :
    r.read (fieldLine idName m.lastEventId ++ fieldLine eventName m.type ++
      fieldLine dataName m.data) =
        { r with idBuffer := m.lastEventId, type := m.type, data := m.data ++ [10] } := by
  obtain ⟨hid, hevent, hdata⟩ := oneLine_names
  rw [read_append, read_append, read_fieldLine hid hm.id.1 h.line h.afterReturn]
  have hfirst : r.field idName m.lastEventId = { r with idBuffer := m.lastEventId } := by
    unfold Reader.field
    rw [if_neg (by decide), if_neg (by decide), if_pos ⟨rfl, hm.id.2⟩]
  rw [hfirst, read_fieldLine (r := { r with idBuffer := m.lastEventId }) hevent hm.type.1 h.line
    h.afterReturn]
  have hsecond : Reader.field { r with idBuffer := m.lastEventId } eventName m.type =
      { r with idBuffer := m.lastEventId, type := m.type } := by
    unfold Reader.field
    rw [if_pos rfl]
  rw [hsecond, read_fieldLine (r := { r with idBuffer := m.lastEventId, type := m.type }) hdata
    hm.data h.line h.afterReturn]
  unfold Reader.field
  rw [if_neg (by decide), if_pos rfl]
  simp [h.data]

/-- **A message is read back.** -/
theorem read_encode (hm : m.Plain) (h : r.Between) :
    r.read (encode m) =
      { r with
        idBuffer := m.lastEventId
        lastEventId := m.lastEventId
        messages := r.messages ++ [m] } := by
  rw [encode, read_append, read_fields hm h]
  show Reader.step _ 10 = _
  unfold Reader.step Reader.endLine Reader.dispatch
  simp [h.line, h.afterReturn, hm.type.2, h.data, h.type]

/-- A cut of two texts is in the first, or after it. -/
theorem cut_append {first second : List Nat} (h : text <+: first ++ second) :
    text <+: first ∨ ∃ rest, rest <+: second ∧ text = first ++ rest := by
  by_cases hlen : text.length ≤ first.length
  · exact .inl (List.prefix_of_prefix_length_le h (List.prefix_append first second) hlen)
  · have hfirst : first <+: text :=
      List.prefix_of_prefix_length_le (List.prefix_append first second) h (by omega)
    obtain ⟨rest, rfl⟩ := hfirst
    exact .inr ⟨rest, (List.prefix_append_right_inj first).mp h, rfl⟩

/-- Lines of fields, cut anywhere, make no message. -/
theorem read_prefix_lines {lines : List (List Nat)} (hlines : ∀ l ∈ lines, OneLine l ∧ l ≠ [])
    (htext : text <+: lines.flatMap (· ++ [10])) (hline : r.line = [])
    (hreturn : r.afterReturn = false) :
    (r.read text).messages = r.messages ∧ (r.read text).lastEventId = r.lastEventId := by
  induction lines generalizing r text with
  | nil =>
      rw [List.prefix_nil.mp htext]
      exact ⟨rfl, rfl⟩
  | cons l lines ih =>
      obtain ⟨hone, hne⟩ := hlines l List.mem_cons_self
      rw [List.flatMap_cons, List.append_assoc] at htext
      rcases cut_append htext with hstart | ⟨rest, hrest, rfl⟩
      · have hpart : OneLine text :=
          ⟨fun h => hone.1 (hstart.subset h), fun h => hone.2 (hstart.subset h)⟩
        rw [read_oneLine hpart hreturn]
        exact ⟨rfl, rfl⟩
      · cases rest with
        | nil =>
            rw [List.append_nil, read_oneLine hone hreturn]
            exact ⟨rfl, rfl⟩
        | cons unit rest =>
            obtain ⟨rfl, htail⟩ := List.cons_prefix_cons.mp hrest
            have hread : r.read (l ++ 10 :: rest) =
                (r.field (splitField l).1 (splitField l).2).read rest := by
              rw [← read_line hone hne hline hreturn, ← read_append, List.append_assoc]
              rfl
            have hfield : ∀ name value, (r.field name value).messages = r.messages ∧
                (r.field name value).lastEventId = r.lastEventId ∧
                (r.field name value).line = r.line ∧
                (r.field name value).afterReturn = r.afterReturn := by
              intro name value
              unfold Reader.field
              split
              · exact ⟨rfl, rfl, rfl, rfl⟩
              · split
                · exact ⟨rfl, rfl, rfl, rfl⟩
                · split <;> exact ⟨rfl, rfl, rfl, rfl⟩
            obtain ⟨hmessages, hid, hl, hr⟩ := hfield (splitField l).1 (splitField l).2
            obtain ⟨hmessages', hid'⟩ := ih (fun l' hl' => hlines l' (List.mem_cons_of_mem _ hl'))
              htail (hl.trans hline) (hr.trans hreturn)
            rw [hread]
            exact ⟨hmessages'.trans hmessages, hid'.trans hid⟩

/-- A message that is cut makes none. -/
theorem read_prefix_encode (hm : m.Plain) (h : r.Between) (htext : text <+: encode m)
    (hcut : text ≠ encode m) :
    (r.read text).messages = r.messages ∧ (r.read text).lastEventId = r.lastEventId := by
  obtain ⟨hid, hevent, hdata⟩ := oneLine_names
  have hone : ∀ {name value : List Nat}, OneLine name → OneLine value →
      OneLine (name ++ [58, 32] ++ value) ∧ name ++ [58, 32] ++ value ≠ [] := by
    intro name value hname hvalue
    refine ⟨?_, by simp⟩
    simp only [OneLine, List.mem_append, not_or]
    exact ⟨⟨⟨hname.1, by decide⟩, hvalue.1⟩, ⟨hname.2, by decide⟩, hvalue.2⟩
  have hfields : text <+: [idName ++ [58, 32] ++ m.lastEventId, eventName ++ [58, 32] ++ m.type,
      dataName ++ [58, 32] ++ m.data].flatMap (· ++ [10]) := by
    have hbody : encode m = [idName ++ [58, 32] ++ m.lastEventId,
        eventName ++ [58, 32] ++ m.type, dataName ++ [58, 32] ++ m.data].flatMap (· ++ [10]) ++
          [10] := by
      simp [encode, fieldLine]
    rw [hbody] at htext hcut
    rcases List.prefix_concat_iff.mp htext with heq | hstart
    · exact absurd heq hcut
    · exact hstart
  refine read_prefix_lines (fun l hl => ?_) hfields h.line h.afterReturn
  simp only [List.mem_cons, List.not_mem_nil, or_false] at hl
  rcases hl with rfl | rfl | rfl
  · exact hone hid.1 hm.id.1
  · exact hone hevent.1 hm.type.1
  · exact hone hdata.1 hm.data

/-- **A stream that is cut anywhere**: the messages are read back whose text is there, and the last
identifier is that of the last of them.  Of a stream that is not cut they are all read. -/
theorem read_prefix {ms : List Message} (hms : ∀ m ∈ ms, m.Plain) (h : r.Between)
    (htext : text <+: ms.flatMap encode) :
    ∃ k ≤ ms.length, (r.read text).messages = r.messages ++ ms.take k ∧
      (r.read text).lastEventId =
        (((ms.take k).getLast?).map Message.lastEventId).getD r.lastEventId ∧
      (text = ms.flatMap encode → k = ms.length) := by
  induction ms generalizing r text with
  | nil =>
      rw [List.prefix_nil.mp htext]
      exact ⟨0, le_refl _, by simp [Reader.read], rfl, fun _ => rfl⟩
  | cons m ms ih =>
      have hm := hms m List.mem_cons_self
      rw [List.flatMap_cons] at htext
      by_cases hcut : ∃ rest, text = encode m ++ rest
      · obtain ⟨rest, rfl⟩ := hcut
        have hrest := (List.prefix_append_right_inj (encode m)).mp htext
        have hbetween : (r.read (encode m)).Between := by
          rw [read_encode hm h]
          exact ⟨h.line, h.afterReturn, h.data, h.type⟩
        obtain ⟨k, hk, hmessages, hid, hall⟩ :=
          ih (fun m' hm' => hms m' (List.mem_cons_of_mem _ hm')) hbetween hrest
        refine ⟨k + 1, Nat.succ_le_succ hk, ?_, ?_, fun h => ?_⟩
        · rw [read_append, hmessages, read_encode hm h]
          simp
        · rw [read_append, hid, read_encode hm h, List.take_succ_cons, List.getLast?_cons]
          cases (ms.take k).getLast? <;> rfl
        · rw [List.flatMap_cons] at h
          rw [hall (List.append_cancel_left h), List.length_cons]
      · have hstart : text <+: encode m := by
          rcases cut_append htext with hstart | ⟨rest, -, rfl⟩
          · exact hstart
          · exact absurd ⟨rest, rfl⟩ hcut
        obtain ⟨hmessages, hid⟩ := read_prefix_encode hm h hstart fun heq =>
          hcut ⟨[], by rw [heq, List.append_nil]⟩
        refine ⟨0, Nat.zero_le _, by rw [hmessages]; simp, hid, fun h => ?_⟩
        rw [List.flatMap_cons] at h
        exact absurd ⟨_, h⟩ hcut

end Durable.EventFormat
