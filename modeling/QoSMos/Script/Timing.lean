import Mathlib.Algebra.BigOperators.Group.List.Basic
import QoSMos.Script.RunLoop

/-!
# When the events of a script are run

An event that is waited for is run at its time or behind it, by no more than the tolerance. The
times of relative inbound packets in a row are added up from the script, whatever the clock says, so
that delays do not accumulate.
-/

namespace QoSMos.EventTimes

open Returns Wire

/-- The time from which on an event, or the end of its range, is late. -/
def Event.latest (event : Event) : Int :=
  if event.timeType = .absoluteRange ∨ event.timeType = .relativeRange then event.timeUsecsEnd
  else event.timeUsecs

/-- An event is not run before its time, nor later than the tolerance allows, unless it is the
first one; a sleep ends in front of its time. -/
structure Fired.Timely (setup : Setup) (fired : Fired) : Prop where
  early : ∀ r ∈ fired.returned, setup.liveStartTimeUsecs + fired.event.timeUsecs ≤ r
  late : ∀ r ∈ fired.returned, 0 < fired.numEvents → fired.event.timeType ≠ .any →
    r ≤ setup.liveStartTimeUsecs + fired.event.latest + setup.config.toleranceUsecs
  sleeps : ∀ t d, (t, d) ∈ fired.sleeps →
    0 < d ∧ t + d < setup.liveStartTimeUsecs + fired.event.timeUsecs
  waits : fired.returned = none →
    fired.event.type = .packet ∧ fired.event.direction = .outbound

/-! ## Waiting -/

section Waiting

variable {setup : Setup} {state : State} {event : Event} {turn : Turn} {fired : Fired}
  {eventUsecs last liveUsecs : Int} {numEvents : Nat} {clock : List Int} {sleeps : List (Int × Int)}

/-- The loop of `wait_for_event` ends with a reading that is not in front of the event. -/
theorem spin_spec (h : spin eventUsecs numEvents clock = some (sleeps, last)) :
    eventUsecs ≤ last ∧ last ∈ clock ∧
      ∀ t d, (t, d) ∈ sleeps → 0 < d ∧ t + d < eventUsecs := by
  induction clock generalizing sleeps with
  | nil => cases h
  | cons now later ih =>
    unfold spin at h
    dsimp only at h
    split at h
    · obtain ⟨rfl, rfl⟩ := Prod.mk.inj (Option.some.inj h)
      refine ⟨by omega, List.mem_cons_self, ?_⟩
      simp
    · obtain ⟨⟨slept, last'⟩, hspin, heq⟩ := Option.map_eq_some_iff.mp h
      obtain ⟨rfl, rfl⟩ := Prod.mk.inj heq
      obtain ⟨hend, hmem, hslept⟩ := ih hspin
      refine ⟨hend, List.mem_cons_of_mem _ hmem, ?_⟩
      intro t d htd
      rcases List.mem_append.mp htd with hnow | hlater
      · unfold MAX_SPIN_USECS at hnow
        split at hnow
        · simp only [List.mem_singleton, Prod.mk.injEq] at hnow
          omega
        · cases hnow
      · exact hslept t d hlater

/-- What `verify_time` lets pass. -/
theorem checkEventTime_late (h : checkEventTime setup state event liveUsecs = .ok ())
    (hany : event.timeType ≠ .any) :
    liveUsecs ≤ scriptTimeToLiveTimeUsecs setup state event.latest +
      setup.config.toleranceUsecs := by
  unfold checkEventTime at h
  cases hverify : verifyTime setup.printing (setup.verifyState state event)
      (EventTimeT.toVerify event.timeType) event.timeUsecs event.timeUsecsEnd liveUsecs
      (eventDescription event) with
  | error failure =>
    rw [hverify] at h
    cases failure <;> cases h
  | ok =>
    unfold verifyTime at hverify
    unfold scriptTimeToLiveTimeUsecs Event.latest
    cases htype : event.timeType <;>
      simp only [htype, EventTimeT.toVerify, check, Setup.verifyState] at hverify ⊢
    case any => exact absurd htype hany
    all_goals
      split_ifs at hverify with htime
      simp only [reduceCtorEq, or_true, true_or, or_self, if_true, if_false]
      omega

/-- The clock does not go back between the loop of `wait_for_event` and the check. -/
theorem waitForEvent_spec (hstart : state.scriptStartTimeUsecs = 0)
    (hclock : turn.readings.Pairwise (· ≤ ·))
    (h : waitForEvent setup state event numEvents turn = .ok fired) :
    fired.event = event ∧ fired.numEvents = numEvents ∧ fired.Timely setup := by
  unfold waitForEvent at h
  dsimp only at h
  cases hspin : spin (scriptTimeToLiveTimeUsecs setup state event.timeUsecs) numEvents
      turn.waiting with
  | none => simp [hspin] at h
  | some result =>
    obtain ⟨sleeps, last⟩ := result
    obtain ⟨hend, hmem, hsleeps⟩ := spin_spec hspin
    have hchecking : last ≤ turn.checking := by
      have hpair : (turn.adjusting :: turn.waiting ++ [turn.checking]).Pairwise (· ≤ ·) := hclock
      exact (List.pairwise_append.mp hpair).2.2 last (List.mem_cons_of_mem _ hmem) _
        (List.mem_singleton_self _)
    simp only [scriptTimeToLiveTimeUsecs, hstart, Int.sub_zero] at hend hsleeps
    rw [hspin] at h
    dsimp only at h
    split_ifs at h with hfirst
    · obtain ⟨_, hcheck, hpure⟩ := bind_eq_ok_iff.mp h
      obtain rfl := pure_eq_ok_iff.mp hpure
      refine ⟨rfl, rfl, ?_, ?_, hsleeps, by simp⟩
      · rintro r ⟨⟩
        exact hend.trans hchecking
      · rintro r ⟨⟩ - hany
        have := checkEventTime_late hcheck hany
        rwa [scriptTimeToLiveTimeUsecs, hstart, Int.sub_zero] at this
    · obtain rfl := pure_eq_ok_iff.mp h
      refine ⟨rfl, rfl, ?_, ?_, hsleeps, by simp⟩
      · rintro r ⟨⟩
        exact hend
      · intro r _ hpos
        exact absurd hpos hfirst

theorem runEvent_spec (hstart : state.scriptStartTimeUsecs = 0)
    (hclock : turn.readings.Pairwise (· ≤ ·))
    (h : runEvent setup state event numEvents turn = .ok fired) :
    fired.event = event ∧ fired.numEvents = numEvents ∧ fired.Timely setup := by
  obtain ⟨fired', hfired, hrest⟩ := bind_eq_ok_iff.mp h
  have heq : fired' = fired := by
    cases herror : turn.error with
    | none => exact pure_eq_ok_iff.mp (by simpa only [herror] using hrest)
    | some text => simp [herror] at hrest
  subst heq
  unfold startEvent at hfired
  split_ifs at hfired with hinvalid houtbound
  · obtain rfl := Except.ok.inj hfired
    refine ⟨rfl, rfl, ?_, ?_, ?_, fun _ => houtbound⟩ <;> simp
  · exact waitForEvent_spec hstart hclock hfired

end Waiting

/-! ## The run -/

/-- Between two turns of the loop. -/
structure Running (setup : Setup) (s : RunState) : Prop where
  start : s.walk.scriptStartTimeUsecs = 0
  count : s.numEvents = s.log.length
  events : s.walk.passed ++ s.walk.event.take 1 = s.log.map Fired.event
  timely : ∀ i (fired : Fired), s.log[i]? = some fired → fired.numEvents = i ∧ fired.Timely setup

section Run

variable {setup : Setup} {script : Script} {s t : RunState} {state state' : State} {turn : Turn}
  {turns : List Turn} {event : Event} {next : List Event} {fired : Fired}

theorem running_initial : Running setup RunState.initial where
  start := rfl
  count := rfl
  events := rfl
  timely := by simp [RunState.initial]

theorem getNextEvent_start (h : getNextEvent script state = .ok state')
    (hstart : state.scriptStartTimeUsecs = 0) : state'.scriptStartTimeUsecs = 0 := by
  obtain ⟨u, hmove, hchecked⟩ := bind_eq_ok_iff.mp h
  have hu : u = state' := by
    split at hchecked
    · split_ifs at hchecked
      exact pure_eq_ok_iff.mp hchecked
    · exact pure_eq_ok_iff.mp hchecked
  subst hu
  unfold moveToEvent at hmove
  split at hmove
  · split at hmove
    · cases hmove
    · split_ifs at hmove with hzero
      obtain rfl := Except.ok.inj hmove
      simpa using hzero
  · obtain rfl := Except.ok.inj hmove
    exact hstart

theorem nextEvent_ok (h : nextEvent script state = .ok state') :
    getNextEvent script state = .ok state' := by
  unfold nextEvent at h
  split at h
  · next heq => rw [heq, Except.ok.inj h]
  · cases h

/-- What has been run are the nodes up to the one that the loop moves away from. -/
theorem Running.passed (hs : Running setup s)
    (hnext : getNextEvent script s.walk = .ok state) :
    state.passed = s.log.map Fired.event := by
  rw [← hs.events]
  obtain ⟨hnil, hpassed, -⟩ | ⟨last, hcons, hpassed, -⟩ := getNextEvent_cases hnext
  · simp [hnil, hpassed]
  · simp [hcons, hpassed]

/-- A turn: the event that is run comes behind the others. -/
theorem Running.fire (hs : Running setup s) (hclock : turn.readings.Pairwise (· ≤ ·))
    (hstart : state.scriptStartTimeUsecs = 0) (hpassed : state.passed = s.log.map Fired.event)
    (hfire : runEvent setup { state with event := event :: next } event s.numEvents turn =
      .ok fired) :
    Running setup
      { walk := { state with event := event :: next }
        numEvents := s.numEvents + 1
        log := s.log ++ [fired] } := by
  obtain ⟨hfired, hnum, htimely⟩ := runEvent_spec (by exact hstart) hclock hfire
  refine ⟨hstart, ?_, ?_, ?_⟩
  · simp [hs.count]
  · simp [hpassed, hfired]
  · intro i f hf
    by_cases hlen : i < s.log.length
    · exact hs.timely i f (by rwa [List.getElem?_append_left hlen] at hf)
    · have hi : i = s.log.length := by
        have := (List.getElem?_eq_some_iff.mp hf).1
        simp only [List.length_append, List.length_singleton] at this
        omega
      obtain rfl : fired = f := by simpa [hi] using hf
      exact ⟨by rw [hnum, hs.count, hi], htimely⟩

/-- The run: the loop keeps its invariant, and leaves the walk where `walk` does. -/
theorem runLoop_spec (hclock : (turns.flatMap Turn.readings).Pairwise (· ≤ ·))
    (hs : Running setup s) (hok : runLoop setup turns s = .ok t) :
    Running setup t ∧
      walk setup.script (turns.map fun turn => turn.adjusting - setup.liveStartTimeUsecs) s.walk =
        .ok t.walk := by
  induction turns generalizing s with
  | nil =>
    obtain rfl := Except.ok.inj hok
    exact ⟨hs, rfl⟩
  | cons turn turns ih =>
    obtain ⟨state, hnext, hok⟩ := bind_eq_ok_iff.mp hok
    have hnext := nextEvent_ok hnext
    have hpassed := hs.passed hnext
    have hstart := getNextEvent_start hnext hs.start
    rw [List.flatMap_cons] at hclock
    obtain ⟨hturn, hlater, -⟩ := List.pairwise_append.mp hclock
    rw [List.map_cons, walk, bind_of_ok hnext]
    cases hevent : state.event with
    | nil =>
      rw [hevent] at hok
      obtain rfl := pure_eq_ok_iff.mp hok
      refine ⟨⟨hstart, hs.count, by simp [hevent, hpassed], hs.timely⟩, ?_⟩
      rw [if_pos rfl]
      rfl
    | cons event next =>
      simp only [hevent] at hok
      obtain ⟨fired, hfire, hok⟩ := bind_eq_ok_iff.mp hok
      have hrunning := hs.fire hturn hstart hpassed hfire
      obtain ⟨hend, hwalk⟩ := ih hlater hrunning hok
      refine ⟨hend, ?_⟩
      rw [if_neg (List.cons_ne_nil _ _), adjustRelativeEventTimes, hevent]
      exact hwalk

end Run

/-! ## What the walk does to the times of the script -/

/-- The events of the script, each adjusted behind the one in front of it. -/
inductive Adjusted : List Event → List Event → Prop where
  | nil : Adjusted [] []
  | snoc {events adjusted : List Event} (now : Int) (event : Event) (h : Adjusted events adjusted) :
    Adjusted (events ++ [event]) (adjusted ++ [adjustEvent adjusted.getLast? now event])

section Adjust

variable {script : Script} {s t : State} {clock : List Int} {events walked : List Event}
  {now : Int} {last event a b : Event} {lastEvent : Option Event} {i j : Nat}

/-- The walk has adjusted the events up to the current one. -/
theorem walk_adjusted (hadjusted : ∃ events, script.eventList = events ++ s.event.drop 1 ∧
      Adjusted events (s.passed ++ s.event.take 1))
    (hevent : s.event ≠ []) (hok : walk script clock s = .ok t) (hend : t.event = []) :
    Adjusted script.eventList t.passed := by
  induction clock generalizing s with
  | nil =>
    obtain rfl := Except.ok.inj hok
    exact absurd hend hevent
  | cons now clock ih =>
    obtain ⟨u, hnext, hok⟩ := bind_eq_ok_iff.mp hok
    obtain ⟨events, hlist, hadjusted⟩ := hadjusted
    obtain ⟨hnil, -⟩ | ⟨last, hcons, hpassed, -⟩ := getNextEvent_cases hnext
    · exact absurd hnil hevent
    · have hadjusted : Adjusted events u.passed := by simpa [hcons, hpassed] using hadjusted
      have hlist : script.eventList = events ++ u.event := by simpa [hcons] using hlist
      split at hok
      · next hnil =>
        obtain rfl := pure_eq_ok_iff.mp hok
        rwa [hlist, hnil, List.append_nil]
      · next hsome =>
        obtain ⟨event, rest, hu⟩ := List.exists_cons_of_ne_nil hsome
        apply ih _ _ hok
        · refine ⟨events ++ [event], ?_, ?_⟩
          · simp [adjustRelativeEventTimes, hu, hlist]
          · simpa [adjustRelativeEventTimes, hu, State.lastEvent] using
            Adjusted.snoc now event hadjusted
        · simp [adjustRelativeEventTimes, hu]

theorem WalksTo.adjusted (h : WalksTo script clock events) : Adjusted script.eventList events := by
  obtain ⟨hclock, t, hok, hend, rfl⟩ := h
  cases clock with
  | nil => exact absurd rfl hclock
  | cons now clock =>
    obtain ⟨u, hnext, hok⟩ := bind_eq_ok_iff.mp hok
    obtain ⟨-, hpassed, hlist, hne⟩ | ⟨last, hcons, -⟩ := getNextEvent_cases hnext
    · rw [if_neg hne] at hok
      obtain ⟨event, rest, hu⟩ := List.exists_cons_of_ne_nil hne
      apply walk_adjusted _ _ hok hend
      · refine ⟨[event], ?_, ?_⟩
        · simp [adjustRelativeEventTimes, hu, ← hlist]
        · simpa [adjustRelativeEventTimes, hu, hpassed, State.initial, State.lastEvent] using
            Adjusted.snoc now event .nil
      · simp [adjustRelativeEventTimes, hu]
    · cases hcons

theorem Adjusted.length_eq (h : Adjusted events walked) : walked.length = events.length := by
  induction h with
  | nil => rfl
  | snoc now event h ih => simp [ih]

/-- Each event is adjusted behind the one in front of it. -/
theorem Adjusted.getElem? (h : Adjusted events walked) (hb : walked[j]? = some b) :
    ∃ now event, events[j]? = some event ∧
      b = adjustEvent (if j = 0 then none else walked[j - 1]?) now event := by
  induction h with
  | nil => simp at hb
  | @snoc events walked now event h ih =>
    have hlength := h.length_eq
    have hj := (List.getElem?_eq_some_iff.mp hb).1
    rw [List.length_append, List.length_singleton] at hj
    by_cases hold : j < walked.length
    · rw [List.getElem?_append_left hold] at hb
      obtain ⟨now, event, hevent, heq⟩ := ih hb
      refine ⟨now, event, ?_, ?_⟩
      · rwa [List.getElem?_append_left (by omega)]
      · rwa [List.getElem?_append_left (by omega)]
    · obtain rfl : j = walked.length := Nat.le_antisymm (Nat.lt_succ_iff.mp hj) (Nat.not_lt.mp hold)
      refine ⟨now, event, by simp [hlength], ?_⟩
      obtain rfl : adjustEvent walked.getLast? now event = b := by simpa using hb
      rw [List.getLast?_eq_getElem?]
      split
      · next hzero => simp [List.length_eq_zero_iff.mp hzero]
      · rw [List.getElem?_append_left (by omega)]

theorem isEventStartTimeAnchored_adjustEvent :
    isEventStartTimeAnchored (adjustEvent lastEvent now event) =
      isEventStartTimeAnchored event := by
  unfold adjustEvent
  split <;> rfl

/-- Behind an inbound packet the clock plays no part in the time of another. -/
theorem timeUsecs_adjustEvent (hrelative : event.timeType = .relative)
    (hlast : isEventStartTimeAnchored last) (hevent : isEventStartTimeAnchored event) :
    (adjustEvent (some last) now event).timeUsecs = event.timeUsecs + last.timeUsecs := by
  simp [adjustEvent, hrelative, hlast, hevent, Option.filter_some]

/-- Relative inbound packets in a row: their times are added up. -/
theorem Adjusted.timeUsecs (h : Adjusted events walked) (hij : i ≤ j)
    (hanchored : ∀ k event, i ≤ k → k ≤ j → events[k]? = some event →
      isEventStartTimeAnchored event)
    (hrelative : ∀ k event, i < k → k ≤ j → events[k]? = some event → event.timeType = .relative)
    (ha : walked[i]? = some a) (hb : walked[j]? = some b) :
    b.timeUsecs = a.timeUsecs +
      (((events.drop (i + 1)).take (j - i)).map fun event => event.timeUsecs).sum := by
  induction j, hij using Nat.le_induction generalizing b with
  | base =>
    obtain rfl : a = b := Option.some.inj (ha.symm.trans hb)
    simp
  | succ j hij ih =>
    obtain ⟨now, event, hevent, rfl⟩ := h.getElem? hb
    have hj : j < walked.length := by
      have := (List.getElem?_eq_some_iff.mp hb).1
      omega
    obtain ⟨last, hlast⟩ : ∃ last, walked[j]? = some last :=
      ⟨_, List.getElem?_eq_getElem hj⟩
    obtain ⟨now', event', hevent', rfl⟩ := h.getElem? hlast
    have hbefore := ih (fun k event hik hkj => hanchored k event hik (by omega))
      (fun k event hik hkj => hrelative k event hik (by omega)) hlast
    have hsum : (events.drop (i + 1)).take (j + 1 - i) =
        (events.drop (i + 1)).take (j - i) ++ [event] := by
      have hnext : (events.drop (i + 1))[j - i]? = some event := by
        rw [List.getElem?_drop, show i + 1 + (j - i) = j + 1 by omega, hevent]
      rw [show j + 1 - i = j - i + 1 by omega, List.take_add_one, hnext]
      rfl
    rw [if_neg (by omega), Nat.add_sub_cancel, hlast, timeUsecs_adjustEvent
      (hrelative (j + 1) event (by omega) le_rfl hevent) _
      (hanchored (j + 1) event (by omega) le_rfl hevent), hbefore, hsum]
    · simp
      omega
    · rw [isEventStartTimeAnchored_adjustEvent]
      exact hanchored j event' hij (by omega) hevent'

end Adjust

/-! ## Whole runs -/

section Results

variable {setup : Setup} {turns : List Turn} {log : List Fired} {i j : Nat} {a b : Fired}

theorem RunsTo.running (h : RunsTo setup turns log) :
    (∀ i (fired : Fired), log[i]? = some fired → fired.numEvents = i ∧ fired.Timely setup) ∧
      Adjusted setup.script.eventList (log.map Fired.event) := by
  obtain ⟨s, hok, hend, rfl⟩ := h.ends
  obtain ⟨hrunning, hwalk⟩ := runLoop_spec h.monotone running_initial hok
  have hevents : s.walk.passed = s.log.map Fired.event := by
    simpa [hend] using hrunning.events
  have hwalks : WalksTo setup.script
      (turns.map fun turn => turn.adjusting - setup.liveStartTimeUsecs)
      (s.log.map Fired.event) :=
    ⟨by simpa using h.begins, s.walk, hwalk, hend, hevents⟩
  exact ⟨hrunning.timely, hwalks.adjusted⟩

theorem RunsTo.getElem? (h : RunsTo setup turns log) (hi : log[i]? = some a) :
    a.numEvents = i ∧ a.Timely setup := h.running.1 i a hi

end Results

/-- Inbound packets in a row, each but the first at a time relative to the one in front of it: the
time between any two of them is that of the script, up to the tolerance, however many lie between
them. -/
theorem runsTo_no_drift {setup : Setup} {turns : List Turn} {log : List Fired} {i j : Nat}
    {a b : Fired} (h : RunsTo setup turns log) (hij : i < j) (ha : log[i]? = some a)
    (hb : log[j]? = some b)
    (hanchored : ∀ k event, i ≤ k → k ≤ j → setup.script.eventList[k]? = some event →
      isEventStartTimeAnchored event)
    (hrelative : ∀ k event, i < k → k ≤ j → setup.script.eventList[k]? = some event →
      event.timeType = .relative) :
    let span := (((setup.script.eventList.drop (i + 1)).take (j - i)).map
      fun event => event.timeUsecs).sum
    b.event.timeUsecs = a.event.timeUsecs + span ∧ ∃ ra rb, a.returned = some ra ∧
      b.returned = some rb ∧ rb ≤ ra + span + setup.config.toleranceUsecs ∧
      (0 < i → a.event.timeType = .absolute ∨ a.event.timeType = .relative →
        ra + span ≤ rb + setup.config.toleranceUsecs) := by
  intro span
  obtain ⟨hai, hta⟩ := h.getElem? ha
  obtain ⟨hbj, htb⟩ := h.getElem? hb
  have hadjusted := h.running.2
  have hwa : (log.map Fired.event)[i]? = some a.event := by simp [ha]
  have hwb : (log.map Fired.event)[j]? = some b.event := by simp [hb]
  have hspan : b.event.timeUsecs = a.event.timeUsecs + span :=
    hadjusted.timeUsecs hij.le hanchored hrelative hwa hwb
  obtain ⟨_, ea, hea, hfa⟩ := hadjusted.getElem? hwa
  obtain ⟨_, eb, heb, hfb⟩ := hadjusted.getElem? hwb
  have hreturned {k : Nat} {fired : Fired} {event : Event} (hik : i ≤ k) (hkj : k ≤ j)
      (hevent : setup.script.eventList[k]? = some event)
      (hfired : isEventStartTimeAnchored fired.event = isEventStartTimeAnchored event)
      (htimely : fired.Timely setup) : ∃ r, fired.returned = some r := by
    apply Option.ne_none_iff_exists'.mp
    intro hnone
    have hanchor := hanchored k event hik hkj hevent
    rw [← hfired] at hanchor
    simp [isEventStartTimeAnchored, htimely.waits hnone] at hanchor
  obtain ⟨ra, hra⟩ := hreturned le_rfl hij.le hea
    (by rw [hfa, isEventStartTimeAnchored_adjustEvent]) hta
  obtain ⟨rb, hrb⟩ := hreturned hij.le le_rfl heb
    (by rw [hfb, isEventStartTimeAnchored_adjustEvent]) htb
  have hbtype : b.event.timeType = .relative := by
    rw [hfb, timeType_adjustEvent]
    exact hrelative j eb hij le_rfl heb
  have hblate := htb.late rb hrb (by omega) (by simp [hbtype])
  have hbearly := htb.early rb hrb
  have haearly := hta.early ra hra
  simp only [Event.latest, hbtype, reduceCtorEq, or_self, if_false] at hblate
  refine ⟨hspan, ra, rb, hra, hrb, by omega, ?_⟩
  intro hpos htype
  have halate := hta.late ra hra (by omega) (by rcases htype with htype | htype <;> simp [htype])
  have hlatest : a.event.latest = a.event.timeUsecs := by
    rcases htype with htype | htype <;> simp [Event.latest, htype]
  omega

/-- An inbound packet at a time relative to the event in front of it. -/
def testPacket (timeUsecs : Int) : Event :=
  { testEvent .relative timeUsecs with type := .packet, direction := .inbound }

/-- A command, and two packets 100 and 50 microseconds later. -/
def testSetup : Setup where
  printing := plainPrinting
  config := { toleranceUsecs := 10, tcpTsTickUsecs := 0, nonFatalPacket := false }
  script :=
    { scriptPath := ""
      eventList := [testEvent .absolute 0, testPacket 100, testPacket 50] }
  liveStartTimeUsecs := 1000

/-- The second packet is adjusted late, yet on time. -/
def testTurns : List Turn :=
  [⟨990, [995, 1003], 1004, none⟩, ⟨1010, [1011, 1095, 1112], 1113, none⟩,
    ⟨1150, [1151, 1161], 1162, none⟩, ⟨1170, [], 1170, none⟩]

theorem testTurns_runsTo : ∃ a b c, RunsTo testSetup testTurns [a, b, c] ∧
    b.sleeps = [(1011, 79)] ∧ b.event.timeUsecs = 110 ∧ c.event.timeUsecs = 160 :=
  ⟨_, _, _, ⟨by decide, by simp [testTurns], _, rfl, rfl, rfl⟩, rfl, rfl, rfl⟩

theorem runsTo_no_drift_test : ∃ a b c, RunsTo testSetup testTurns [a, b, c] ∧
    c.event.timeUsecs = b.event.timeUsecs + 50 := by
  obtain ⟨a, b, c, hruns, -⟩ := testTurns_runsTo
  refine ⟨a, b, c, hruns, (runsTo_no_drift hruns (i := 1) (j := 2) (by decide) rfl rfl ?_ ?_).1⟩
  · intro k event hik hkj hevent
    obtain rfl | rfl : k = 1 ∨ k = 2 := by omega
    all_goals
      obtain rfl := Option.some.inj hevent
      rfl
  · intro k event hik hkj hevent
    obtain rfl : k = 2 := by omega
    obtain rfl := Option.some.inj hevent
    rfl

end QoSMos.EventTimes
