import QoSMos.Wire.Program

/-!
# What the client and the server do together

`transcript` is computed from the script alone. A party's `View.rest` is the part of it that is
ahead of the party; each of the operations that both programs share takes its part of it.
-/

namespace QoSMos.Wire

/-! ## The transcript -/

/-- `get_next_event` fails at the event. -/
def Refused (last : Option Event) (event : Event) : Prop :=
  match last with
  | none => event.timeUsecs ≠ 0
  | some last =>
    isEventTimeAbsolute last ∧ isEventTimeAbsolute event ∧ event.timeUsecs < last.timeUsecs

instance (last : Option Event) (event : Event) : Decidable (Refused last event) :=
  match last with
  | none => inferInstanceAs (Decidable (_ ≠ _))
  | some _ => inferInstanceAs (Decidable (_ ∧ _))

/-- The messages between two events, `isPacket` being said of the second. -/
def exchange (numEvents : Nat) (last : Option EventT) (isPacket : Bool) : List Entry :=
  if isPacket then
    if last = some .packet then [] else [.startSent numEvents, .startReceived numEvents]
  else if last = some .packet then [.doneSent numEvents, .doneReceived numEvents]
  else []

def execution (numEvents : Nat) (event : Event) : Entry :=
  if event.type = .packet then .packet numEvents else .ran numEvents

/-- What is done about the events that come after `last`. -/
def transcript (numEvents : Nat) (last : Option Event) : List Event → List Entry
  | [] => exchange numEvents (last.map Event.type) false
  | event :: next =>
    if Refused last event then []
    else exchange numEvents (last.map Event.type) (event.type = .packet) ++
      execution (numEvents + 1) event :: transcript (numEvents + 1) (some event) next

def Script.transcript (script : Script) : List Entry := Wire.transcript 0 none script.eventList

/-- The entry may be followed by these. -/
inductive Next : Entry → List Entry → Prop where
  | startSent (n : Nat) (l : List Entry) : Next (.startSent n) (.startReceived n :: l)
  | startReceived (n : Nat) (l : List Entry) : Next (.startReceived n) (.packet (n + 1) :: l)
  | packet (n : Nat) (l : List Entry) : Next (.packet n) (.packet (n + 1) :: l)
  | endOfBlock (n : Nat) (l : List Entry) : Next (.packet n) (.doneSent n :: l)
  | refusedPacket (n : Nat) : Next (.packet n) []
  | doneSent (n : Nat) (l : List Entry) : Next (.doneSent n) (.doneReceived n :: l)
  | doneReceived (n : Nat) (l : List Entry) : Next (.doneReceived n) (.ran (n + 1) :: l)
  | endOfPackets (n : Nat) : Next (.doneReceived n) []
  | ran (n : Nat) (l : List Entry) : Next (.ran n) (.ran (n + 1) :: l)
  | startOfBlock (n : Nat) (l : List Entry) : Next (.ran n) (.startSent n :: l)
  | endOfScript (n : Nat) : Next (.ran n) []

def InTurn : List Entry → Prop
  | [] => True
  | entry :: rest => Next entry rest ∧ InTurn rest

/-- The entry is the client's. -/
def Entry.isClient : Entry → Bool
  | .startSent _ | .doneReceived _ | .ran _ => true
  | _ => false

section Transcript

variable {n : Nat} {entry : Entry} {l rest own : List Entry}

theorem inTurn_transcript (last : Event) (n : Nat) (events : List Event) :
    InTurn (execution n last :: transcript n (some last) events) := by
  induction events generalizing last n with
  | nil =>
    by_cases hlast : last.type = .packet
    · simp [transcript, exchange, execution, hlast, InTurn, Next.endOfBlock, Next.doneSent,
        Next.endOfPackets]
    · simp [transcript, exchange, execution, hlast, InTurn, Next.endOfScript]
  | cons event next ih =>
    have hnext := ih event (n + 1)
    by_cases hrefused : Refused (some last) event
    · by_cases hlast : last.type = .packet <;>
        simp [transcript, execution, hrefused, hlast, InTurn, Next.refusedPacket, Next.endOfScript]
    · by_cases hlast : last.type = .packet <;> by_cases hevent : event.type = .packet <;>
        simp_all [transcript, exchange, execution, InTurn, Next.packet, Next.endOfBlock,
          Next.doneSent, Next.doneReceived, Next.ran, Next.startOfBlock, Next.startSent,
          Next.startReceived]

theorem Script.inTurn_transcript (script : Script) : InTurn script.transcript := by
  unfold Script.transcript
  cases script.eventList with
  | nil => simp [Wire.transcript, exchange, InTurn]
  | cons event next =>
    have hnext := Wire.inTurn_transcript event 1 next
    by_cases hrefused : Refused none event
    · simp [Wire.transcript, hrefused, InTurn]
    · by_cases hevent : event.type = .packet <;>
        simp_all [Wire.transcript, exchange, execution, InTurn, Next.startSent,
          Next.startReceived]

theorem InTurn.of_append (h : InTurn (l ++ rest)) : InTurn rest := by
  induction l with
  | nil => exact h
  | cons entry l ih => exact ih h.2

/-- While it is the server's turn, the client's next entry is that it receives a DONE. -/
theorem InTurn.client_first (h : InTurn (entry :: rest)) (hserver : entry.isClient = false)
    {next : Entry} (hown : (entry :: rest).filter Entry.isClient = next :: own) :
    ∃ n, next = .doneReceived n := by
  induction rest generalizing entry with
  | nil => simp [hserver] at hown
  | cons second rest ih =>
    rw [List.filter_cons_of_neg (by simp [hserver])] at hown
    cases hsecond : second.isClient with
    | false => exact ih h.2 hsecond hown
    | true =>
      have hfollows := h.1
      rw [List.filter_cons_of_pos hsecond] at hown
      cases hfollows with
      | doneSent n => exact ⟨n, (List.cons.inj hown).1.symm⟩
      | _ => simp_all [Entry.isClient]

/-- While it is the client's turn, the server's next entry is that it receives a START. -/
theorem InTurn.server_first (h : InTurn (entry :: rest)) (hclient : entry.isClient = true)
    {next : Entry} (hown : (entry :: rest).filter (! Entry.isClient ·) = next :: own) :
    ∃ n, next = .startReceived n := by
  induction rest generalizing entry with
  | nil => simp [hclient] at hown
  | cons second rest ih =>
    rw [List.filter_cons_of_neg (by simp [hclient])] at hown
    cases hsecond : second.isClient with
    | true => exact ih h.2 hsecond hown
    | false =>
      have hfollows := h.1
      rw [List.filter_cons_of_pos (by simp [hsecond])] at hown
      cases hfollows with
      | startSent n => exact ⟨n, (List.cons.inj hown).1.symm⟩
      | _ => simp_all [Entry.isClient]

/-- What the client does without having received a message is what comes next. -/
theorem InTurn.head_of_client (h : InTurn rest) (hown : rest.filter Entry.isClient = entry :: own)
    (hentry : ∀ n, entry ≠ .doneReceived n) : ∃ tail, rest = entry :: tail := by
  cases rest with
  | nil => simp at hown
  | cons first tail =>
    cases hfirst : first.isClient with
    | true =>
      rw [List.filter_cons_of_pos hfirst] at hown
      exact ⟨tail, by rw [(List.cons.inj hown).1]⟩
    | false =>
      obtain ⟨n, rfl⟩ := h.client_first hfirst hown
      exact absurd rfl (hentry n)

theorem InTurn.head_of_server (h : InTurn rest)
    (hown : rest.filter (! Entry.isClient ·) = entry :: own)
    (hentry : ∀ n, entry ≠ .startReceived n) : ∃ tail, rest = entry :: tail := by
  cases rest with
  | nil => simp at hown
  | cons first tail =>
    cases hfirst : first.isClient with
    | false =>
      rw [List.filter_cons_of_pos (by simp [hfirst])] at hown
      exact ⟨tail, by rw [(List.cons.inj hown).1]⟩
    | true =>
      obtain ⟨n, rfl⟩ := h.server_first hfirst hown
      exact absurd rfl (hentry n)

end Transcript

/-! ## One party -/

/-- Where a party is, as far as the script is concerned. -/
inductive Place where
  | getNext | hook | receiving | run | over
  deriving DecidableEq

/-- What both parties keep. -/
structure View where
  place : Place
  state : Cursor
  lastEventType : Option EventT
  numEvents : Nat

/-- The events that `get_next_event` comes to next. -/
def pending (script : Script) (state : Cursor) : List Event :=
  match state.event with
  | [] => script.eventList
  | _ :: next => next

namespace View

/-- The event whose type is `last_event_type`. -/
def last (v : View) : Option Event :=
  match v.place with
  | .hook | .receiving => v.state.lastEvent
  | .getNext | .run | .over => v.state.event.head?

structure Consistent (v : View) : Prop where
  type : v.place ≠ .over → v.lastEventType = v.last.map Event.type
  run : v.place = .run → v.state.event ≠ []
  first : v.state.event = [] → v.place = .getNext → v.state.lastEvent = none

/-- The end of both hooks. -/
def moveOn (v : View) : View :=
  match v.state.event with
  | [] => { v with place := .over }
  | event :: _ =>
    { v with place := .run, lastEventType := some event.type, numEvents := v.numEvents + 1 }

/-- What is behind the event that is run. -/
def behind (numEvents : Nat) : List Event → List Entry
  | [] => []
  | event :: next => execution numEvents event :: transcript numEvents (some event) next

/-- The part of the transcript that is ahead of the party. -/
def rest (script : Script) (v : View) : List Entry :=
  match v.place with
  | .getNext => transcript v.numEvents v.last (pending script v.state)
  | .hook | .receiving =>
    exchange v.numEvents v.lastEventType v.state.isPacket ++
      behind (v.numEvents + 1) v.state.event
  | .run => behind v.numEvents v.state.event
  | .over => []

variable {script : Script} {v : View} {state : Cursor} {stop : Stop}

/-- `get_next_event` fails where the transcript ends. -/
theorem rest_of_error (hv : v.place = .getNext) (h : getNextEvent script v.state = .error stop) :
    v.rest script = [] := by
  obtain ⟨place, ⟨event, lastEvent⟩, lastEventType, n⟩ := v
  obtain rfl : place = .getNext := hv
  simp only [getNextEvent] at h
  simp only [rest, last, pending]
  split at h
  · split at h
    · next hnil => simp [transcript, exchange, hnil]
    · next first next hcons =>
      split at h
      · next htime => simp [transcript, hcons, Refused, htime]
      · cases h
  · cases h
  · split at h
    · next hrefused => simp [transcript, Refused, hrefused]
    · cases h

theorem consistent_hook (hv : v.place = .getNext) (hc : v.Consistent)
    (h : getNextEvent script v.state = .ok state) :
    Consistent { v with place := .hook, state := state } ∧
      rest script { v with place := .hook, state := state } = v.rest script := by
  obtain ⟨htype, -, hfirst⟩ := hc
  obtain ⟨place, ⟨event, lastEvent⟩, lastEventType, n⟩ := v
  obtain rfl : place = .getNext := hv
  have hlast : lastEventType = event.head?.map Event.type := htype (by rintro ⟨⟩)
  simp only [getNextEvent] at h
  simp only [rest, last, pending]
  split at h
  · split at h
    · cases h
    · next first next hcons =>
      split at h
      · cases h
      · next htime =>
        obtain rfl := Except.ok.inj h
        obtain rfl : lastEvent = none := hfirst rfl rfl
        refine ⟨⟨fun _ => hlast, (by rintro ⟨⟩), (by rintro ⟨⟩)⟩, ?_⟩
        simp_all [transcript, Refused, behind, Cursor.isPacket]
  · obtain rfl := Except.ok.inj h
    refine ⟨⟨fun _ => hlast, (by rintro ⟨⟩), (by rintro _ ⟨⟩)⟩, ?_⟩
    simp_all [transcript, behind, Cursor.isPacket]
  · split at h
    · cases h
    · next hrefused =>
      obtain rfl := Except.ok.inj h
      refine ⟨⟨fun _ => hlast, (by rintro ⟨⟩), (by rintro ⟨⟩)⟩, ?_⟩
      simp [transcript, Refused, hrefused, behind, Cursor.isPacket, hlast]

theorem consistent_receiving (script : Script) (hv : v.place = .hook) (hc : v.Consistent) :
    Consistent { v with place := .receiving } ∧
      rest script { v with place := .receiving } = v.rest script := by
  obtain ⟨place, state, lastEventType, n⟩ := v
  obtain rfl : place = .hook := hv
  exact ⟨⟨fun _ => hc.type (by rintro ⟨⟩), by rintro ⟨⟩, by rintro _ ⟨⟩⟩, rfl⟩

theorem consistent_moveOn (hv : v.place = .hook ∨ v.place = .receiving) :
    v.moveOn.Consistent ∧ v.rest script =
      exchange v.numEvents v.lastEventType v.state.isPacket ++ v.moveOn.rest script := by
  obtain ⟨place, ⟨event, lastEvent⟩, lastEventType, n⟩ := v
  have hrest : rest script ⟨place, ⟨event, lastEvent⟩, lastEventType, n⟩ =
      exchange n lastEventType (Cursor.isPacket ⟨event, lastEvent⟩) ++ behind (n + 1) event := by
    obtain rfl | rfl := hv <;> rfl
  rw [hrest]
  cases event with
  | nil => exact ⟨⟨fun hplace => absurd rfl hplace, (by rintro ⟨⟩), (by rintro _ ⟨⟩)⟩, rfl⟩
  | cons event next => exact ⟨⟨fun _ => rfl, fun _ => by simp [moveOn], (by rintro ⟨⟩)⟩, rfl⟩

theorem consistent_getNext (hv : v.place = .run) (hc : v.Consistent) :
    Consistent { v with place := .getNext } ∧
      v.rest script = (if v.state.isPacket then .packet v.numEvents else .ran v.numEvents) ::
        rest script { v with place := .getNext } := by
  have hrun := hc.run hv
  obtain ⟨place, ⟨event, lastEvent⟩, lastEventType, n⟩ := v
  obtain rfl : place = .run := hv
  cases event with
  | nil => exact absurd rfl hrun
  | cons event next =>
    refine ⟨⟨fun _ => hc.type (by rintro ⟨⟩), (by rintro ⟨⟩), (by rintro ⟨⟩)⟩, ?_⟩
    simp [rest, behind, execution, last, pending, Cursor.isPacket]

end View

/-! ## Messages -/

section Messages

variable {n m : Nat} {error : CString}

theorem receivePacketsStart_packetsStart (n : Nat) :
    receivePacketsStart n (packetsStart n) = .ok () := by
  have hnum : be32At (Memory.ofList (be32 n)) 0 = u32 n := by
    simpa [u32] using be32At_ofList [] [] n
  simp [receivePacketsStart, packetsStart, hnum]

/-- The checks of a DONE message see what was put into it. -/
theorem packetsDone_fields (result n : Nat) (error : CString) :
    let buf := (packetsDone result n error).buf
    ¬ buf.length < 8 + 1 ∧ Memory.ofList buf (buf.length - 1) = 0 ∧
      be32At (Memory.ofList buf) 0 = u32 result ∧ be32At (Memory.ofList buf) 4 = u32 n ∧
      (buf.drop 8).takeWhile (· ≠ 0) = error.val := by
  obtain ⟨error, herror⟩ := error
  have hresult := be32At_ofList [] (be32 n ++ error ++ [0]) result
  have hnum := be32At_ofList (be32 result) (error ++ [0]) n
  have hlast : (error ++ [0]).takeWhile (· ≠ 0) = error := by
    rw [List.takeWhile_append_of_pos fun byte hbyte => ?_]
    · simp
    · have hne : byte ≠ 0 := fun h => herror (h ▸ hbyte)
      simpa using hne
  refine ⟨?_, ?_, ?_, ?_, ?_⟩
  · simp [packetsDone]
    omega
  · rw [packetsDone, Memory.ofList, List.length_append, List.length_singleton, Nat.add_sub_cancel,
      List.getD_append_right _ _ _ _ le_rfl, Nat.sub_self]
    rfl
  · simpa [packetsDone, u32] using hresult
  · simpa [packetsDone, u32] using hnum
  · simpa [packetsDone, be32, be16] using hlast

theorem receivePacketsDone_ok (n : Nat) (error : CString) :
    receivePacketsDone n (packetsDone STATUS_OK n error) = .done := by
  obtain ⟨hlength, hlast, hresult, hnum, -⟩ := packetsDone_fields STATUS_OK n error
  have hop : (packetsDone STATUS_OK n error).op = .packetsDone := rfl
  have hok : u32 STATUS_OK ≠ STATUS_ERR := by decide
  simp only [receivePacketsDone, hop, hlength, hlast, hresult, hnum, hok]
  simp

theorem receivePacketsDone_err (n m : Nat) (error : CString) :
    receivePacketsDone n (packetsDone STATUS_ERR m error) = .die (.server error) := by
  obtain ⟨hlength, hlast, hresult, -, hmessage⟩ := packetsDone_fields STATUS_ERR m error
  have hop : (packetsDone STATUS_ERR m error).op = .packetsDone := rfl
  have herr : u32 STATUS_ERR = STATUS_ERR := by decide
  simp only [receivePacketsDone, hop, hlength, hlast, hresult, herr, hmessage]
  simp

theorem receivePacketsDone_packetsWarn (n : Nat) (warning : CString) :
    receivePacketsDone n (packetsWarn warning) = .warning warning := by
  simp [receivePacketsDone, packetsWarn]

end Messages

end QoSMos.Wire
