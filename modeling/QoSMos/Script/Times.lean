import Mathlib.Data.List.Chain
import QoSMos.Build.Program
import QoSMos.Lib.Returns
import QoSMos.Wire.Program

/-!
# The times of a script's events

`run_script` walks through the list of events with `get_next_event`, which compares the times of
neighbours, and `adjust_relative_event_times`, which rewrites those times that are not absolute.
A state of the walk is the list, cut at `state->event`; `state->last_event` is the node in front of
the cut.
-/

namespace QoSMos.EventTimes

open Returns Wire

/-! ## The program -/

/-- `struct event`, with what is read of the packet and of the system call it points to. -/
structure Event extends Wire.Event where
  timeUsecsEnd : Int
  offsetUsecs : Int
  /-- `packet_direction`, for a packet event. -/
  direction : Direction
  /-- `syscall->end_usecs`, for a system call. -/
  endUsecs : Int

structure Script where
  scriptPath : String
  eventList : List Event

def SYSCALL_NON_BLOCKING : Int := -1

structure State where
  /-- The nodes in front of `state->event`. -/
  passed : List Event
  /-- The nodes from `state->event` on; none if it is a null pointer. -/
  event : List Event
  scriptStartTimeUsecs : Int
  scriptLastTimeUsecs : Int

def State.lastEvent (state : State) : Option Event := state.passed.getLast?

/-- The script is about to start. -/
def State.initial : State where
  passed := []
  event := []
  scriptStartTimeUsecs := 0
  scriptLastTimeUsecs := 0

/-- `is_event_time_absolute` -/
def isEventTimeAbsolute (event : Event) : Bool := Wire.isEventTimeAbsolute event.toEvent

/-- `is_event_start_time_anchored` -/
def isEventStartTimeAnchored (event : Event) : Bool :=
  event.type = .packet ∧ event.direction = .inbound

def isBlockingSyscall (event : Event) : Bool := event.endUsecs ≠ SYSCALL_NON_BLOCKING

/-- `adjust_relative_event_times` of one event, where `now` is the time since the start. -/
def adjustEvent (lastEvent : Option Event) (now : Int) (event : Event) : Event :=
  if event.timeType ≠ .any ∧ event.timeType ≠ .relative ∧ event.timeType ≠ .relativeRange then event
  else
    let anchor := lastEvent.filter fun last =>
      isEventStartTimeAnchored last && isEventStartTimeAnchored event
    let offsetUsecs := (anchor.map fun last => last.timeUsecs).getD now
    let blocks := event.timeType = .relative ∧ event.type = .syscall ∧ isBlockingSyscall event
    { event with
      offsetUsecs := offsetUsecs
      timeUsecs := event.timeUsecs + offsetUsecs
      timeUsecsEnd :=
        event.timeUsecsEnd + if event.timeType = .relativeRange then offsetUsecs else 0
      endUsecs := event.endUsecs + if blocks then offsetUsecs else 0 }

def adjustRelativeEventTimes (now : Int) (state : State) : State :=
  { state with event := state.event.modifyHead (adjustEvent state.lastEvent now) }

/-- The comparison of two neighbours in `get_next_event`. -/
def goesBackward (scriptLastTimeUsecs : Int) (last event : Event) : Prop :=
  isEventTimeAbsolute last ∧ isEventTimeAbsolute event ∧ event.timeUsecs < scriptLastTimeUsecs

instance (scriptLastTimeUsecs : Int) (last event : Event) :
    Decidable (goesBackward scriptLastTimeUsecs last event) := inferInstanceAs (Decidable (_ ∧ _))

/-- The move of `get_next_event` to the first event, or to the next one. -/
def moveToEvent (script : Script) (state : State) : Except Stop State :=
  match state.event with
  | [] =>
    match script.eventList with
    | [] => .error .crash
    | first :: next =>
      if first.timeUsecs ≠ 0 then
        .error (.error (script.scriptPath ++ ":" ++ toString first.lineNumber ++
          ": first event should be at time 0\n"))
      else .ok { state with event := first :: next, scriptStartTimeUsecs := first.timeUsecs }
  | last :: next =>
    .ok { state with
      passed := state.passed ++ [last]
      event := next
      scriptLastTimeUsecs := last.timeUsecs }

/-- `get_next_event` -/
def getNextEvent (script : Script) (state : State) : Except Stop State := do
  let state ← moveToEvent script state
  match state.event, state.lastEvent with
  | event :: _, some last =>
    if goesBackward state.scriptLastTimeUsecs last event then
      .error (.error (script.scriptPath ++ ":" ++ toString event.lineNumber ++
        ": time goes backward in script from " ++ toString state.scriptLastTimeUsecs ++
        " usec to " ++ toString event.timeUsecs ++ " usec\n"))
    else return state
  | _, _ => return state

/-- The loop of `run_script`; the clock gives `now_usecs` since the start for each turn. -/
def walk (script : Script) : List Int → State → Except Stop State
  | [], state => .ok state
  | now :: clock, state => do
    let state ← getNextEvent script state
    if state.event = [] then return state
    else walk script clock (adjustRelativeEventTimes now state)

/-- The list is walked to the end, and `events` are its nodes then. -/
def WalksTo (script : Script) (clock : List Int) (events : List Event) : Prop :=
  clock ≠ [] ∧ ∃ state, walk script clock State.initial = .ok state ∧ state.event = [] ∧
    state.passed = events

/-! ## The order of the times -/

/-- Two events of absolute time are in order. -/
def InOrder (a b : Event) : Prop :=
  isEventTimeAbsolute a → isEventTimeAbsolute b → a.timeUsecs ≤ b.timeUsecs

/-- In each stretch of the list in which all times are absolute they do not decrease. -/
def StretchesInOrder (events : List Event) : Prop :=
  ∀ before stretch after, events = before ++ stretch ++ after →
    (∀ event ∈ stretch, isEventTimeAbsolute event) →
    (stretch.map fun event => event.timeUsecs).Pairwise (· ≤ ·)

section Order

variable {script : Script} {s t : State} {clock : List Int} {events : List Event} {now : Int}
  {last event : Event} {lastEvent : Option Event}

theorem isEventTimeAbsolute_iff :
    isEventTimeAbsolute event ↔ event.timeType = .absolute ∨ event.timeType = .absoluteRange := by
  simp [isEventTimeAbsolute, Wire.isEventTimeAbsolute]

theorem adjustEvent_of_absolute (h : isEventTimeAbsolute event) :
    adjustEvent lastEvent now event = event := by
  unfold adjustEvent
  rcases isEventTimeAbsolute_iff.mp h with h | h <;> simp [h]

theorem timeType_adjustEvent : (adjustEvent lastEvent now event).timeType = event.timeType := by
  unfold adjustEvent
  split <;> rfl

theorem isEventTimeAbsolute_adjustEvent :
    isEventTimeAbsolute (adjustEvent lastEvent now event) = isEventTimeAbsolute event := by
  simp [isEventTimeAbsolute, Wire.isEventTimeAbsolute, timeType_adjustEvent]

/-- An adjustment moves no absolute time. -/
theorem InOrder.adjustEvent (h : InOrder last event) :
    InOrder last (adjustEvent lastEvent now event) := by
  intro hlast hevent
  rw [isEventTimeAbsolute_adjustEvent] at hevent
  rw [adjustEvent_of_absolute hevent]
  exact h hlast hevent

/-- A call of `get_next_event` that returns goes to the first event, or to a next one that it has
compared with the last. -/
theorem getNextEvent_cases (hok : getNextEvent script s = .ok t) :
    (s.event = [] ∧ t.passed = s.passed ∧ t.event = script.eventList ∧ t.event ≠ []) ∨
    ∃ last, s.event = last :: t.event ∧ t.passed = s.passed ++ [last] ∧
      ∀ event ∈ t.event.head?, InOrder last event := by
  obtain ⟨u, hmove, hok⟩ := bind_eq_ok_iff.mp hok
  have hchecked : t = u ∧ ∀ last ∈ u.lastEvent, ∀ event ∈ u.event.head?,
      ¬ goesBackward u.scriptLastTimeUsecs last event := by
    split at hok
    · rename_i event rest last hevent hlast
      split_ifs at hok with hbackward
      refine ⟨(pure_eq_ok_iff.mp hok).symm, ?_⟩
      simp [hevent, hlast, hbackward]
    · rename_i hnone
      refine ⟨(pure_eq_ok_iff.mp hok).symm, ?_⟩
      intro last hlast event hevent
      cases hrest : u.event with
      | nil => simp [hrest] at hevent
      | cons next rest => exact absurd hlast (hnone next rest last hrest)
  obtain ⟨rfl, hchecked⟩ := hchecked
  unfold moveToEvent at hmove
  cases hevent : s.event with
  | nil =>
    left
    cases hlist : script.eventList with
    | nil => simp [hevent, hlist] at hmove
    | cons first next =>
      simp only [hevent, hlist] at hmove
      split_ifs at hmove
      obtain rfl := Except.ok.inj hmove
      simp
  | cons last next =>
    right
    rw [hevent] at hmove
    obtain rfl := Except.ok.inj hmove
    refine ⟨last, rfl, rfl, ?_⟩
    intro event hmem hlast habsolute
    have hnot := hchecked last (by simp [State.lastEvent]) event hmem
    simp only [goesBackward, hlast, habsolute, true_and, not_lt] at hnot
    exact hnot

/-- In the loop, `state->event` is not `NULL`; the nodes up to it are in order, and the absolute
times are those of the script. -/
structure Walking (script : Script) (s : State) : Prop where
  event : s.event ≠ []
  order : (s.passed ++ s.event.take 1).IsChain InOrder
  absolute : (s.passed ++ s.event).filter isEventTimeAbsolute =
    script.eventList.filter isEventTimeAbsolute

theorem filter_modifyHead_adjustEvent :
    (events.modifyHead (adjustEvent lastEvent now)).filter isEventTimeAbsolute =
      events.filter isEventTimeAbsolute := by
  cases events with
  | nil => rfl
  | cons event rest =>
    by_cases habsolute : isEventTimeAbsolute event = true
    · simp [adjustEvent_of_absolute habsolute]
    · simp [isEventTimeAbsolute_adjustEvent, habsolute]

theorem isChain_snoc {passed : List Event} (h : passed.IsChain InOrder)
    (hlast : ∀ last ∈ passed.getLast?, InOrder last event) :
    (passed ++ [event]).IsChain InOrder := by
  refine List.isChain_append.mpr ⟨h, .singleton event, ?_⟩
  intro last hmem first hfirst
  obtain rfl : event = first := by simpa using hfirst
  exact hlast last hmem

/-- The nodes up to the event that was moved to are in order, also once it is adjusted. -/
theorem Walking.adjust (hevent : s.event ≠ []) (hpassed : s.passed.IsChain InOrder)
    (hlast : ∀ last ∈ s.passed.getLast?, ∀ event ∈ s.event.head?, InOrder last event)
    (habsolute : (s.passed ++ s.event).filter isEventTimeAbsolute =
      script.eventList.filter isEventTimeAbsolute) :
    Walking script (adjustRelativeEventTimes now s) where
  event := by
    simp only [adjustRelativeEventTimes, ne_eq, List.modifyHead_eq_nil_iff]
    exact hevent
  order := by
    obtain ⟨event, rest, hcons⟩ := List.exists_cons_of_ne_nil hevent
    simp only [adjustRelativeEventTimes, hcons, List.modifyHead_cons, List.take_succ_cons,
      List.take_zero]
    apply isChain_snoc hpassed
    intro last hmem
    exact (hlast last hmem event (by simp [hcons])).adjustEvent
  absolute := by
    rw [← habsolute]
    simp only [adjustRelativeEventTimes, List.filter_append, filter_modifyHead_adjustEvent]

/-- A turn of the loop goes on with the next event, or ends behind the last one. -/
theorem Walking.getNextEvent (h : Walking script s) (hok : getNextEvent script s = .ok t) :
    t.passed.IsChain InOrder ∧
      (∀ last ∈ t.passed.getLast?, ∀ event ∈ t.event.head?, InOrder last event) ∧
      (t.passed ++ t.event).filter isEventTimeAbsolute =
        script.eventList.filter isEventTimeAbsolute := by
  obtain ⟨hnil, -⟩ | ⟨last, hcons, hpassed, hnext⟩ := getNextEvent_cases hok
  · exact absurd hnil h.event
  · have horder := h.order
    have habsolute := h.absolute
    rw [hcons] at horder habsolute
    rw [hpassed]
    refine ⟨by simpa using horder, ?_, by simpa using habsolute⟩
    intro node hnode
    obtain rfl : last = node := by simpa using hnode
    exact hnext

/-- The walk keeps the order, and ends with the absolute times of the script. -/
theorem Walking.walk (h : Walking script s) (hok : walk script clock s = .ok t)
    (hend : t.event = []) :
    t.passed.IsChain InOrder ∧
      t.passed.filter isEventTimeAbsolute = script.eventList.filter isEventTimeAbsolute := by
  induction clock generalizing s with
  | nil =>
    obtain rfl := Except.ok.inj hok
    exact absurd hend h.event
  | cons now clock ih =>
    obtain ⟨u, hnext, hok⟩ := bind_eq_ok_iff.mp hok
    obtain ⟨hpassed, hlast, habsolute⟩ := h.getNextEvent hnext
    split_ifs at hok with hnil
    · obtain rfl := pure_eq_ok_iff.mp hok
      rw [hnil, List.append_nil] at habsolute
      exact ⟨hpassed, habsolute⟩
    · exact ih (.adjust hnil hpassed hlast habsolute) hok

theorem WalksTo.order (h : WalksTo script clock events) :
    events.IsChain InOrder ∧
      events.filter isEventTimeAbsolute = script.eventList.filter isEventTimeAbsolute := by
  obtain ⟨hclock, t, hok, hend, rfl⟩ := h
  cases clock with
  | nil => exact absurd rfl hclock
  | cons now clock =>
    obtain ⟨u, hnext, hok⟩ := bind_eq_ok_iff.mp hok
    obtain ⟨-, hpassed, hlist, hne⟩ | ⟨last, hcons, -⟩ := getNextEvent_cases hnext
    · rw [if_neg hne] at hok
      have hwalking : Walking script (adjustRelativeEventTimes now u) := by
        apply Walking.adjust hne <;> simp [hpassed, State.initial, hlist]
      exact hwalking.walk hok hend
    · cases hcons

/-- Between events of absolute time the order of neighbours is that of any two. -/
theorem StretchesInOrder.of_isChain (h : events.IsChain InOrder) : StretchesInOrder events := by
  rintro before stretch after rfl habsolute
  have hstretch : stretch.IsChain InOrder := (List.isChain_append.mp
    (List.isChain_append.mp h).1).2.1
  have hle : (stretch.map fun event => event.timeUsecs).IsChain (· ≤ ·) := by
    rw [List.isChain_map]
    refine hstretch.imp_of_mem_imp ?_
    intro a b ha hb hab
    exact hab (habsolute a ha) (habsolute b hb)
  exact List.isChain_iff_pairwise.mp hle

end Order

/-- A script whose walk goes to its end keeps its absolute times, and these do not decrease
where no event of another kind lies between them. -/
theorem walksTo_stretchesInOrder {script : Script} {clock : List Int} {events : List Event}
    (h : WalksTo script clock events) :
    StretchesInOrder events ∧
      events.filter isEventTimeAbsolute = script.eventList.filter isEventTimeAbsolute := by
  obtain ⟨hchain, habsolute⟩ := h.order
  exact ⟨.of_isChain hchain, habsolute⟩

/-- An event of a script without packets and system calls that block. -/
def testEvent (timeType : EventTimeT) (timeUsecs : Int) : Event where
  lineNumber := 1
  timeUsecs := timeUsecs
  timeType := timeType
  type := .command
  timeUsecsEnd := -1
  offsetUsecs := -1
  direction := .invalid
  endUsecs := SYSCALL_NON_BLOCKING

/-- The time goes back from 10 to 5 behind an event of relative time. -/
def backwardScript : Script where
  scriptPath := ""
  eventList := [testEvent .absolute 0, testEvent .absolute 10, testEvent .relative 1,
    testEvent .absolute 5]

theorem backwardScript_walksTo : ∃ events, WalksTo backwardScript [0, 10, 10, 11, 11] events ∧
    (events.filter isEventTimeAbsolute).map (fun event => event.timeUsecs) = [0, 10, 5] :=
  ⟨_, ⟨by simp, _, rfl, rfl, rfl⟩, rfl⟩

theorem walksTo_stretchesInOrder_backward : ∃ events,
    WalksTo backwardScript [0, 10, 10, 11, 11] events ∧ StretchesInOrder events := by
  obtain ⟨events, hwalk, -⟩ := backwardScript_walksTo
  exact ⟨events, hwalk, (walksTo_stretchesInOrder hwalk).1⟩

/-- An event of another kind hides the time in front of it. -/
theorem not_forall_walksTo_pairwise : ¬ ∀ script clock events, WalksTo script clock events →
    ((events.filter isEventTimeAbsolute).map fun event => event.timeUsecs).Pairwise (· ≤ ·) := by
  intro h
  obtain ⟨events, hwalk, htimes⟩ := backwardScript_walksTo
  have hpairwise := h _ _ _ hwalk
  rw [htimes] at hpairwise
  exact absurd hpairwise (by decide)

/-! ## The walk of the two parties -/

def Script.toWire (script : Script) : Wire.Script where
  scriptPath := script.scriptPath
  eventList := script.eventList.map Event.toEvent

/-- What the loops of the wire client and the wire server keep of a state. -/
def State.cursor (state : State) : Wire.Cursor where
  event := state.event.map Event.toEvent
  lastEvent := state.lastEvent.map Event.toEvent

/-- The loops of the wire client and the wire server move through the script in the same way. -/
theorem getNextEvent_cursor (script : Script) (s : State) (hstart : s.event = [] → s.passed = []) :
    (getNextEvent script s).map State.cursor = Wire.getNextEvent script.toWire s.cursor := by
  obtain ⟨passed, rest, start, lastTime⟩ := s
  cases rest with
  | nil =>
    obtain rfl := hstart rfl
    cases hlist : script.eventList with
    | nil => simp [getNextEvent, moveToEvent, Wire.getNextEvent, Script.toWire, State.cursor, hlist,
        bind, Except.bind, Except.map]
    | cons first next =>
      by_cases hzero : first.timeUsecs = 0 <;>
        simp [getNextEvent, moveToEvent, Wire.getNextEvent, Script.toWire, State.cursor,
          State.lastEvent, hlist, hzero, bind, Except.bind, Except.map, pure, Except.pure]
  | cons last next =>
    cases next with
    | nil => simp [getNextEvent, moveToEvent, Wire.getNextEvent, State.cursor, State.lastEvent,
        bind, Except.bind, Except.map, pure, Except.pure]
    | cons event next =>
      by_cases hbackward : goesBackward last.timeUsecs last event
      · have hwire := hbackward
        simp only [goesBackward, isEventTimeAbsolute] at hwire
        simp [getNextEvent, moveToEvent, Wire.getNextEvent, Script.toWire, State.cursor,
          State.lastEvent, hbackward, hwire, bind, Except.bind, Except.map]
      · have hwire := hbackward
        simp only [goesBackward, isEventTimeAbsolute] at hwire
        simp [getNextEvent, moveToEvent, Wire.getNextEvent, State.cursor,
          State.lastEvent, hbackward, hwire, bind, Except.bind, Except.map, pure, Except.pure]

end QoSMos.EventTimes
