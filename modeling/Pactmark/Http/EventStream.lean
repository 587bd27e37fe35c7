import Pactmark.Core.Canonical
import Pactmark.Core.Decimals
import Pactmark.Durable.EventFormat
import Pactmark.Http.Commands
import Pactmark.Stores.EventStream

/-!
# Http — the stream of the events of a run

The events route of `createAgentFetchHandler` of `http/src/handler.ts`, `parseAfter` and
`sseResponse`, with a client that reads the response as `text/event-stream` says and that opens
another one with the last identifier it has when a response ends or breaks off.

A response breaks off anywhere in its text.  The text is sent as UTF-8: a character that is cut
ends up in a line that never ends, which the client discards.

* `sseText_eq`: the text of an event is that of one message, whatever the event holds.
* `received_once`: what the client has received over all its responses is a beginning of the
  stream, each event once and in order.
-/

namespace Pactmark.Http

open Durable
open Durable.EventFormat (Message OneLine)
open JsString (lit joinComma)

variable {Num : Type} (num : NumberFormat Num)

/-! ### `JSON.stringify` -/

/-- The escape of a lone surrogate. -/
def escapeSurrogate (unit : Nat) : JsString :=
  [92, 117, hexDigit (unit / 4096), hexDigit (unit / 256 % 16), hexDigit (unit / 16 % 16),
    hexDigit (unit % 16)]

/-- `JSON.stringify` of a string, between its quotes. -/
def stringifyUnits : JsString → JsString
  | [] => []
  | unit :: rest =>
    if isHighSurrogate unit then
      match rest with
      | next :: rest =>
        if isLowSurrogate next then unit :: next :: stringifyUnits rest
        else escapeSurrogate unit ++ stringifyUnits (next :: rest)
      | [] => escapeSurrogate unit
    else if isLowSurrogate unit then escapeSurrogate unit ++ stringifyUnits rest
    else escapeUnit unit ++ stringifyUnits rest

/-- `JSON.stringify` of a string. -/
def stringifyText (text : JsString) : JsString :=
  34 :: (stringifyUnits text ++ [34])

mutual

/-- `JSON.stringify`. -/
def stringify : Json Num → JsString
  | .null => lit "null"
  | .bool b => if b then lit "true" else lit "false"
  | .number x => if num.isFinite x then num.stringify x else lit "null"
  | .string text => stringifyText text
  | .array items => lit "[" ++ joinComma (stringifyItems items) ++ lit "]"
  | .object members => lit "\x7b" ++ joinComma (stringifyMembers members) ++ lit "\x7d"

def stringifyItems : List (Json Num) → List JsString
  | [] => []
  | v :: items => stringify v :: stringifyItems items

def stringifyMembers : List (JsString × Json Num) → List JsString
  | [] => []
  | (key, v) :: members =>
    (stringifyText key ++ lit ":" ++ stringify v) :: stringifyMembers members

end

/-- A text without control characters. -/
def NoControl (text : JsString) : Prop :=
  ∀ unit ∈ text, 32 ≤ unit

theorem NoControl.append {text rest : JsString} (ht : NoControl text) (hr : NoControl rest) :
    NoControl (text ++ rest) := by
  intro unit hunit
  rcases List.mem_append.mp hunit with h | h
  · exact ht unit h
  · exact hr unit h

theorem NoControl.cons {unit : Nat} {rest : JsString} (hunit : 32 ≤ unit) (hr : NoControl rest) :
    NoControl (unit :: rest) :=
  List.forall_mem_cons.mpr ⟨hunit, hr⟩

theorem NoControl.oneLine {text : JsString} (h : NoControl text) : OneLine text := by
  constructor
  · intro hmem
    exact absurd (h 10 hmem) (by decide)
  · intro hmem
    exact absurd (h 13 hmem) (by decide)

theorem le_hexDigit (n : Nat) : 32 ≤ hexDigit n := by
  unfold hexDigit
  split <;> omega

theorem noControl_escapeUnit (unit : Nat) : NoControl (escapeUnit unit) := by
  intro u hu
  obtain ⟨letter, he, -, hd⟩ | ⟨-, he⟩ | ⟨hle, -, -, he⟩ := escapeUnit_cases unit
  · have hletter : 32 ≤ letter := by
      unfold escapedUnit at hd
      split_ifs at hd <;> omega
    rw [he] at hu
    simp only [List.mem_cons, List.not_mem_nil, or_false] at hu
    omega
  · have h₁ := le_hexDigit (unit / 16)
    have h₂ := le_hexDigit (unit % 16)
    rw [he] at hu
    simp only [List.mem_cons, List.not_mem_nil, or_false] at hu
    omega
  · rw [he, List.mem_singleton] at hu
    omega

theorem noControl_escapeSurrogate (unit : Nat) : NoControl (escapeSurrogate unit) := by
  intro u hu
  have h₁ := le_hexDigit (unit / 4096)
  have h₂ := le_hexDigit (unit / 256 % 16)
  have h₃ := le_hexDigit (unit / 16 % 16)
  have h₄ := le_hexDigit (unit % 16)
  simp only [escapeSurrogate, List.mem_cons, List.not_mem_nil, or_false] at hu
  omega

theorem noControl_stringifyUnits (text : JsString) : NoControl (stringifyUnits text) := by
  induction text using stringifyUnits.induct with
  | case1 =>
      intro unit hunit
      simp [stringifyUnits] at hunit
  | case2 unit hhigh next rest hlow ih =>
      rw [stringifyUnits, if_pos hhigh, if_pos hlow]
      intro u hu
      simp only [isHighSurrogate, isLowSurrogate, Bool.and_eq_true, decide_eq_true_eq]
        at hhigh hlow
      rcases List.mem_cons.mp hu with rfl | hu
      · omega
      · rcases List.mem_cons.mp hu with rfl | hu
        · omega
        · exact ih u hu
  | case3 unit hhigh next rest hlow ih =>
      rw [stringifyUnits, if_pos hhigh, if_neg hlow]
      exact (noControl_escapeSurrogate unit).append ih
  | case4 unit hhigh =>
      rw [stringifyUnits, if_pos hhigh]
      exact noControl_escapeSurrogate unit
  | case5 unit rest hhigh hlow ih =>
      rw [stringifyUnits.eq_def]
      simp only [hhigh, hlow, if_true, if_false, Bool.false_eq_true]
      exact (noControl_escapeSurrogate unit).append ih
  | case6 unit rest hhigh hlow ih =>
      rw [stringifyUnits.eq_def]
      simp only [hhigh, hlow, if_false, Bool.false_eq_true]
      exact (noControl_escapeUnit unit).append ih

theorem noControl_stringifyText (text : JsString) : NoControl (stringifyText text) := by
  have hquote : NoControl [34] := by
    intro unit hunit
    rw [List.mem_singleton.mp hunit]
    decide
  exact .cons (by decide) ((noControl_stringifyUnits text).append hquote)

theorem noControl_digits {digits : JsString} (h : ∀ d ∈ digits, Grammar.Digit d) :
    NoControl digits := by
  intro unit hunit
  have := (h unit hunit).1
  omega

theorem noControl_number {token : JsString} {q : ℚ} (h : Grammar.Number token q) :
    NoControl token := by
  obtain ⟨hminus, hint, hfrac, hexp⟩ := h
  have empty : NoControl [] := by
    intro unit hunit
    cases hunit
  refine .append ?_ (.append ?_ (.append ?_ ?_))
  · cases hminus with
    | absent => exact empty
    | present => exact .cons (by decide) empty
  · cases hint with
    | zero => exact .cons (by decide) empty
    | digits hfirst hdigits =>
        exact .cons (by omega) (noControl_digits hdigits)
  · cases hfrac with
    | absent => exact empty
    | present hne hdigits =>
        exact .cons (by decide) (noControl_digits hdigits)
  · cases hexp with
    | absent => exact empty
    | unsigned he hne hdigits =>
        exact .cons (by omega) (noControl_digits hdigits)
    | plus he hne hdigits =>
        exact .cons (by omega) (.cons (by decide) (noControl_digits hdigits))
    | minus he hne hdigits =>
        exact .cons (by omega) (.cons (by decide) (noControl_digits hdigits))

theorem noControl_joinComma {texts : List JsString} (h : ∀ text ∈ texts, NoControl text) :
    NoControl (joinComma texts) := by
  induction texts with
  | nil =>
      intro unit hunit
      cases hunit
  | cons text texts ih =>
      obtain ⟨htext, htexts⟩ := List.forall_mem_cons.mp h
      cases texts with
      | nil => exact htext
      | cons next texts =>
          intro unit hunit
          rcases List.mem_append.mp hunit with hu | hu
          · exact htext unit hu
          · rcases List.mem_cons.mp hu with rfl | hu
            · decide
            · exact ih htexts unit hu

theorem noControl_of_all {text : JsString} (h : text.all (32 ≤ ·) = true) : NoControl text := by
  intro unit hunit
  exact of_decide_eq_true (List.all_eq_true.mp h unit hunit)

mutual

/-- **`JSON.stringify` prints no control characters.** -/
theorem noControl_stringify : (v : Json Num) → NoControl (stringify num v)
  | .null => noControl_of_all rfl
  | .bool true => noControl_of_all rfl
  | .bool false => noControl_of_all rfl
  | .number x => by
      rw [stringify]
      split
      · rename_i hfinite
        obtain ⟨-, q, hq⟩ := scanNumber_sound (num.scanNumber_stringify x hfinite)
        exact noControl_number hq
      · exact noControl_of_all rfl
  | .string text => by
      rw [stringify]
      exact noControl_stringifyText text
  | .array items => by
      rw [stringify]
      exact .append (.append (noControl_of_all rfl)
        (noControl_joinComma (noControl_stringifyItems items))) (noControl_of_all rfl)
  | .object members => by
      rw [stringify]
      exact .append (.append (noControl_of_all rfl)
        (noControl_joinComma (noControl_stringifyMembers members))) (noControl_of_all rfl)

theorem noControl_stringifyItems :
    (items : List (Json Num)) → ∀ text ∈ stringifyItems num items, NoControl text
  | [] => by
      rw [stringifyItems]
      intro text htext
      cases htext
  | v :: items => by
      rw [stringifyItems]
      exact List.forall_mem_cons.mpr ⟨noControl_stringify v, noControl_stringifyItems items⟩

theorem noControl_stringifyMembers : (members : List (JsString × Json Num)) →
    ∀ text ∈ stringifyMembers num members, NoControl text
  | [] => by
      rw [stringifyMembers]
      intro text htext
      cases htext
  | (key, v) :: members => by
      rw [stringifyMembers]
      exact List.forall_mem_cons.mpr
        ⟨.append (.append (noControl_stringifyText key) (noControl_of_all rfl))
          (noControl_stringify v), noControl_stringifyMembers members⟩

end

/-! ### The response -/

/-- The message of an event.  `wire` is the JSON of an event, as `JsonValueSchema` reads it. -/
def message (wire : RunEvent → Json Num) (e : RunEvent) : Message :=
  ⟨lit e.eventType.text, stringify num (wire e), lit (toString e.sequence)⟩

/-- What `sseResponse` sends for an event of a run. -/
def sseText (wire : RunEvent → Json Num) (e : RunEvent) : JsString :=
  lit "id: " ++ lit (toString e.sequence) ++ lit "\n" ++ lit "event: " ++ lit e.eventType.text ++
    lit "\ndata: " ++ stringify num (wire e) ++ lit "\n\n"

/-- `sseResponse`. -/
def sseResponse (wire : RunEvent → Json Num) (events : List RunEvent) : JsString :=
  events.flatMap (sseText num wire)

/-- `Number(value)`, where it is a safe integer and not negative.  `other` is what it makes of a
text that is not one of digits. -/
def cursorNumber (other : JsString → Option Nat) (value : JsString) : Option Nat :=
  if value ≠ [] ∧ value.all isDigit then
    if digitsValue value ≤ 9007199254740991 then some (digitsValue value) else none
  else other value

/-- `parseAfter`. -/
def parseAfter (other : JsString → Option Nat) (lastEventId after : Option JsString) :
    Except HttpFailure Nat :=
  match cursorNumber other ((lastEventId <|> after).getD (lit "0")) with
  | none => .error (.failure 400 "KAF_HTTP_EVENT_CURSOR_INVALID")
  | some number => .ok number

theorem natText_digits (n : Nat) :
    lit (toString n) = (Nat.toDigits 10 n).map Char.toNat := by
  unfold lit
  rw [show toString n = n.repr from rfl, Nat.repr_eq_ofList_toDigits, String.toList_ofList]

theorem digit_natText {n unit : Nat} (h : unit ∈ lit (toString n)) : isDigit unit = true := by
  rw [natText_digits] at h
  obtain ⟨c, hc, rfl⟩ := List.mem_map.mp h
  have hdigit := Nat.isDigit_of_mem_toDigits (by decide) (by decide) hc
  simp only [Char.isDigit, Bool.and_eq_true, decide_eq_true_eq] at hdigit
  have hlow : 48 ≤ c.toNat := hdigit.1
  have hhigh : c.toNat ≤ 57 := hdigit.2
  simp [isDigit, hlow, hhigh]

theorem natText_ne_nil (n : Nat) : lit (toString n) ≠ [] := by
  rw [natText_digits]
  intro h
  exact Nat.toDigits_ne_nil (List.map_eq_nil_iff.mp h)

theorem digitsValue_natText (n : Nat) : digitsValue (lit (toString n)) = n := by
  unfold digitsValue
  rw [natText_digits, List.foldl_map]
  calc (Nat.toDigits 10 n).foldl (fun m c => 10 * m + (c.toNat - 48)) 0
      = Nat.ofDigitChars 10 (Nat.toDigits 10 n) 0 := Nat.ofDigitChars_eq_foldl.symm
    _ = n := Nat.ofDigitChars_ten_toDigits

theorem noControl_natText (n : Nat) : NoControl (lit (toString n)) := by
  intro unit hunit
  have hdigit := digit_natText hunit
  simp only [isDigit, Bool.and_eq_true, decide_eq_true_eq] at hdigit
  omega

/-- **The identifier of an event is read back** as its sequence number. -/
theorem parseAfter_natText {other : JsString → Option Nat} {after : Option JsString} {m n : Nat}
    (h : parseAfter other (some (lit (toString m))) after = .ok n) : n = m := by
  have hall : (lit (toString m)).all isDigit = true :=
    List.all_eq_true.mpr fun _ hunit => digit_natText hunit
  have htext : ((some (lit (toString m)) <|> after : Option JsString).getD (lit "0")) =
      lit (toString m) := rfl
  unfold parseAfter cursorNumber at h
  rw [htext, if_pos ⟨natText_ne_nil m, hall⟩, digitsValue_natText] at h
  split_ifs at h
  · cases h
    rfl

theorem noControl_eventType (t : RunEventType) :
    NoControl (lit t.text) ∧ lit t.text ≠ [] := by
  have h : (lit t.text).all (32 ≤ ·) = true ∧ lit t.text ≠ [] := by
    cases t <;> decide
  exact ⟨noControl_of_all h.1, h.2⟩

section Response

variable {num} {wire : RunEvent → Json Num} {e : RunEvent}

theorem plain_message (e : RunEvent) : (message num wire e).Plain where
  type := ⟨(noControl_eventType e.eventType).1.oneLine, (noControl_eventType e.eventType).2⟩
  data := (noControl_stringify num (wire e)).oneLine
  id := ⟨(noControl_natText e.sequence).oneLine, fun h =>
    absurd (noControl_natText e.sequence 0 h) (by decide)⟩

/-- **The text of an event is that of its message.** -/
theorem sseText_eq (e : RunEvent) :
    sseText num wire e = EventFormat.encode (message num wire e) := by
  have hid : lit "id: " = [105, 100, 58, 32] := rfl
  have hevent : lit "event: " = [101, 118, 101, 110, 116, 58, 32] := rfl
  have hdata : lit "\ndata: " = [10, 100, 97, 116, 97, 58, 32] := rfl
  have hfeed : lit "\n" = [10] := rfl
  have hend : lit "\n\n" = [10, 10] := rfl
  unfold sseText
  rw [hid, hevent, hdata, hfeed, hend]
  simp [EventFormat.encode, EventFormat.fieldLine, EventFormat.idName, EventFormat.eventName,
    EventFormat.dataName, message]

theorem sseResponse_eq (events : List RunEvent) :
    sseResponse num wire events =
      (events.map (message num wire)).flatMap EventFormat.encode := by
  unfold sseResponse
  rw [List.flatMap_map]
  exact congrArg (events.flatMap ·) (funext sseText_eq)

end Response

/-! ### The client -/

/-- A run, the reader of the last response, the client as it was before that response, and what
it has of the text. -/
structure Session where
  store : EventStore
  served : Reader
  before : EventFormat.Reader
  text : JsString

namespace Session

/-- A first response. -/
def start (store : EventStore) (afterSequence : Nat) : Session :=
  ⟨store, .start afterSequence, .start [], []⟩

/-- The client. -/
def client (x : Session) : EventFormat.Reader :=
  x.before.read x.text

/-- What the client sends as `Last-Event-ID`. -/
def lastEventId (x : Session) : Option JsString :=
  if x.client.lastEventId = [] then none else some x.client.lastEventId

/-- Another response, of the events after `afterSequence`. -/
def reopened (x : Session) (afterSequence : Nat) : Session :=
  { x with
    served := .start afterSequence
    before := { EventFormat.Reader.start x.client.lastEventId with messages := x.client.messages }
    text := [] }

end Session

/-- One step of a client of the events of `key`, of the reader of its response or of a worker.
`after` is what the client's URL asks for. -/
inductive ClientStep (wire : RunEvent → Json Num) (other : JsString → Option Nat)
    (after : Option JsString) (allowed : RunEvent → Bool) (key : StreamKey)
    (scope : RunProjection → Bool) : Session → Session → Prop where
  | serve {x : Session} {store : EventStore} {served : Reader}
      (h : FollowStep allowed key scope (fun _ _ => True) (x.store, x.served) (store, served)) :
      ClientStep wire other after allowed key scope x { x with store, served }
  | receive {x : Session} {text : JsString} (hmore : x.text <+: text)
      (hsent : text <+: sseResponse num wire x.served.yielded) :
      ClientStep wire other after allowed key scope x { x with text }
  | reopen {x : Session} {n : Nat} (h : parseAfter other x.lastEventId after = .ok n) :
      ClientStep wire other after allowed key scope x (x.reopened n)

/-- A run of a client, of the readers of its responses and of workers. -/
abbrev ClientSteps (wire : RunEvent → Json Num) (other : JsString → Option Nat)
    (after : Option JsString) (allowed : RunEvent → Bool) (key : StreamKey)
    (scope : RunProjection → Bool) : Session → Session → Prop :=
  Relation.ReflTransGen (ClientStep num wire other after allowed key scope)

/-- The last identifier of a client that has received `count` events. -/
def lastIdentifier (afterSequence count : Nat) : JsString :=
  if count = 0 then [] else lit (toString (afterSequence + count))

/-- A beginning of the events after `afterSequence` was received before this response, and it is
the rest that is served. -/
structure Delivers (wire : RunEvent → Json Num) (key : StreamKey) (afterSequence : Nat)
    (events : List RunEvent) (x : Session) : Prop where
  received : events <+: (x.store.stream key).drop afterSequence
  follows : Follows key (afterSequence + events.length) (x.store, x.served)
  between : x.before.Between
  messages : x.before.messages = events.map (message num wire)
  identifier : x.before.lastEventId = lastIdentifier afterSequence events.length
  sent : x.text <+: sseResponse num wire x.served.yielded

section Client

variable {num : NumberFormat Num} {wire : RunEvent → Json Num} {other : JsString → Option Nat}
  {after : Option JsString} {allowed : RunEvent → Bool} {key : StreamKey}
  {scope : RunProjection → Bool} {afterSequence : Nat} {events : List RunEvent} {x y : Session}

/-- Neither the stream of a run nor what was yielded gets shorter. -/
theorem follow_grows {may : Reader → RunEvent → Prop} {a b : EventStore × Reader}
    (hsound : EventStoreState.Sound ⟨a.1, []⟩) (h : FollowStep allowed key scope may a b) :
    a.1.stream key <+: b.1.stream key ∧ a.2.yielded <+: b.2.yielded := by
  cases h with
  | append e n hmay => exact ⟨append_grows hsound allowed e n key, List.prefix_refl _⟩
  | @appendFenced s r active lease e n hmay =>
      refine ⟨?_, List.prefix_refl _⟩
      rcases EventStore.appendFenced_cases allowed active lease e n s with ⟨thrown, hs⟩ | hs
      · have hsame :
            EventStoreState.after (EventStore.appendFenced allowed active lease e n) s = s := by
          unfold EventStoreState.after
          rw [hs]
        rw [hsame]
      · have hsame : EventStoreState.after (EventStore.appendFenced allowed active lease e n) s =
            EventStoreState.after (EventStore.appendSynchronous allowed e n) s := by
          unfold EventStoreState.after
          rw [hs]
        rw [hsame]
        exact append_grows hsound allowed e n key
  | read hr => exact ⟨List.prefix_refl _, List.prefix_append _ _⟩
  | «open» | abort | finish | again | abortSleep | throw =>
      exact ⟨List.prefix_refl _, List.prefix_refl _⟩

/-- **What the client has**, in the middle of a response: the events from before it, and those of
the response whose text is there. -/
theorem Delivers.client (h : Delivers num wire key afterSequence events x) :
    ∃ all, events <+: all ∧ all <+: (x.store.stream key).drop afterSequence ∧
      x.client.messages = all.map (message num wire) ∧
      x.client.lastEventId = lastIdentifier afterSequence all.length ∧
      (x.text = sseResponse num wire x.served.yielded →
        x.served.cursor = afterSequence + all.length) := by
  have hplain : ∀ m ∈ x.served.yielded.map (message num wire), m.Plain := by
    intro m hm
    obtain ⟨e, -, rfl⟩ := List.mem_map.mp hm
    exact plain_message e
  have hsent := h.sent
  rw [sseResponse_eq] at hsent
  obtain ⟨k, hk, hmessages, hid, hall⟩ := EventFormat.read_prefix hplain h.between hsent
  rw [List.length_map] at hk hall
  obtain ⟨rest, hrest⟩ := h.received
  have hyielded : x.served.yielded <+: rest := by
    have hdrop := h.follows.yielded
    rw [← List.drop_drop, ← hrest, List.drop_left] at hdrop
    exact hdrop
  refine ⟨events ++ x.served.yielded.take k, List.prefix_append _ _, ?_, ?_, ?_, ?_⟩
  · rw [← hrest]
    exact (List.prefix_append_right_inj events).mpr ((List.take_prefix k _).trans hyielded)
  · show (x.before.read x.text).messages = _
    rw [hmessages, h.messages, List.map_append, List.map_take]
  · show (x.before.read x.text).lastEventId = _
    rw [hid, h.identifier, ← List.map_take, List.length_append, List.length_take, min_eq_left hk]
    cases k with
    | zero => rfl
    | succ k =>
        -- the last of them is the one at `k`, and its sequence number says so
        obtain ⟨e, he⟩ : ∃ e, x.served.yielded[k]? = some e :=
          ⟨_, List.getElem?_eq_getElem (by omega)⟩
        have hsequence := (h.follows.gapless he).1
        have hlast : (x.served.yielded.take (k + 1)).getLast? = some e := by
          rw [List.getLast?_eq_getElem?, List.length_take, min_eq_left hk, Nat.add_sub_cancel,
            List.getElem?_take_of_lt (Nat.lt_succ_self k)]
          exact he
        rw [List.getLast?_map, hlast]
        show lit (toString e.sequence) = _
        unfold lastIdentifier
        rw [if_neg (by omega), hsequence]
        congr 2
        omega
  · intro htext
    rw [sseResponse_eq] at htext
    have hcursor := h.follows.cursor
    rw [List.length_append, List.length_take, hall htext, min_self, ← Nat.add_assoc]
    exact hcursor

theorem Delivers.step (hfirst : parseAfter other none after = .ok afterSequence)
    (h : Delivers num wire key afterSequence events x)
    (hs : ClientStep num wire other after allowed key scope x y) :
    ∃ events', Delivers num wire key afterSequence events' y := by
  cases hs with
  | serve hserve =>
      obtain ⟨hstream, hyielded⟩ := follow_grows h.follows.sound hserve
      refine ⟨events, ?_, h.follows.step hserve, h.between, h.messages, h.identifier, ?_⟩
      · exact h.received.trans (hstream.drop afterSequence)
      · obtain ⟨more, hmore⟩ := hyielded
        refine h.sent.trans ⟨sseResponse num wire more, ?_⟩
        rw [← hmore]
        exact (List.flatMap_append ..).symm
  | receive hmore hsent =>
      exact ⟨events, h.received, h.follows, h.between, h.messages, h.identifier, hsent⟩
  | @reopen n hparse =>
      obtain ⟨all, -, hreceived, hmessages, hid, -⟩ := h.client
      -- the client asks for what comes after the events it has
      have hn : n = afterSequence + all.length := by
        unfold Session.lastEventId at hparse
        rw [hid] at hparse
        unfold lastIdentifier at hparse
        by_cases hzero : all.length = 0
        · rw [if_pos hzero, if_pos rfl, hfirst] at hparse
          cases hparse
          omega
        · rw [if_neg hzero, if_neg (natText_ne_nil _)] at hparse
          exact parseAfter_natText hparse
      subst hn
      exact ⟨all, hreceived, ⟨h.follows.sound, List.nil_prefix, rfl⟩, ⟨rfl, rfl, rfl, rfl⟩,
        hmessages, hid, List.nil_prefix⟩

/-- **Each event once and in order**: over any number of responses that break off anywhere, while
workers append, a client receives a beginning of the stream after the sequence number its URL
asks for.  When it has the whole text of a response it has all that the reader has yielded. -/
theorem received_once (num : NumberFormat Num) (wire : RunEvent → Json Num)
    (other : JsString → Option Nat) (after : Option JsString) (allowed : RunEvent → Bool)
    (key : StreamKey) (scope : RunProjection → Bool) (calls : List EventStoreCall)
    (hcalls : EventStoreState.initial.AllIntact allowed calls)
    (hfirst : parseAfter other none after = .ok afterSequence)
    (h : ClientSteps num wire other after allowed key scope
      (.start (EventStoreState.initial.run allowed calls).store afterSequence) x) :
    ∃ events, events <+: (x.store.stream key).drop afterSequence ∧
      x.client.messages = events.map (message num wire) ∧
      (x.text = sseResponse num wire x.served.yielded →
        x.served.cursor = afterSequence + events.length) := by
  suffices hx : ∃ events, Delivers num wire key afterSequence events x by
    obtain ⟨events, hx⟩ := hx
    obtain ⟨all, -, hreceived, hmessages, -, hwhole⟩ := hx.client
    exact ⟨all, hreceived, hmessages, hwhole⟩
  induction h with
  | refl =>
      have hs := EventStoreState.sound_initial.run hcalls
      exact ⟨[], List.nil_prefix, ⟨⟨hs.coherent, hs.arrays, by rintro _ ⟨⟩⟩, List.nil_prefix, rfl⟩,
        EventFormat.between_start [], rfl, rfl, List.nil_prefix⟩
  | tail _ hs ih =>
      obtain ⟨events, hx⟩ := ih
      exact hx.step hfirst hs

end Client

/-- The names in the JSON of an event. -/
def eventJson (e : RunEvent) : Json SampleNumber :=
  .object [(lit "eventId", .string (lit e.eventId)), (lit "tenantId", .string (lit e.tenantId)),
    (lit "runId", .string (lit e.runId)), (lit "eventType", .string (lit e.eventType.text))]

open EventStoreState in
/-- A response that breaks off in its second event, and another one. -/
theorem received_once_reopened :
    ∃ x events, ClientSteps SampleNumber.format eventJson (fun _ => none) none (fun _ => true)
        ("tenant", "run") (fun _ => true)
        (.start (initial.run (fun _ => true)
          [.append acceptedEvent 0, .append cancelledEvent 1]).store 0) x ∧
      x.text = sseResponse SampleNumber.format eventJson [cancelledEvent] ∧
      events <+: (x.store.stream ("tenant", "run")).drop 0 ∧
      x.client.messages = events.map (message SampleNumber.format eventJson) ∧
      (x.text = sseResponse SampleNumber.format eventJson x.served.yielded →
        x.served.cursor = 0 + events.length) := by
  have hcut : sseText SampleNumber.format eventJson acceptedEvent ++ [105] <+:
      sseResponse SampleNumber.format eventJson [acceptedEvent, cancelledEvent] := by
    decide +kernel
  have hid : (EventFormat.Reader.read (.start [])
      (sseText SampleNumber.format eventJson acceptedEvent ++ [105])).lastEventId = lit "1" := by
    decide +kernel
  have hparse : ∀ store served, parseAfter (fun _ => none) (Session.lastEventId
      ⟨store, served, .start [], sseText SampleNumber.format eventJson acceptedEvent ++ [105]⟩)
        none = .ok 1 := by
    intro store served
    unfold Session.lastEventId Session.client
    dsimp only
    rw [hid]
    rfl
  have hsteps := Relation.ReflTransGen.refl
    (r := ClientStep SampleNumber.format eventJson (fun _ => none) none (fun _ => true)
      ("tenant", "run") fun _ => true)
    (a := Session.start (initial.run (fun _ => true)
      [.append acceptedEvent 0, .append cancelledEvent 1]).store 0)
    |>.tail (.serve (.open rfl rfl rfl)) |>.tail (.serve (.read rfl))
    |>.tail (.receive List.nil_prefix hcut) |>.tail (.reopen (hparse _ _))
    |>.tail (.serve (.open rfl rfl rfl)) |>.tail (.serve (.read rfl))
    |>.tail (.receive List.nil_prefix
      (List.prefix_refl (sseResponse SampleNumber.format eventJson [cancelledEvent])))
  obtain ⟨events, h⟩ := received_once SampleNumber.format eventJson (fun _ => none) none
    (fun _ => true) ("tenant", "run") (fun _ => true)
    [.append acceptedEvent 0, .append cancelledEvent 1] ⟨trivial, trivial, trivial⟩ rfl hsteps
  exact ⟨_, events, hsteps, rfl, h⟩

end Pactmark.Http
