import Mathlib.Data.List.DropRight
import QoSMos.Lib.Numeral
import QoSMos.Session.Program

/-!
# The interface and its parameters

`configure` of `NativeTunnels.java` with the parser of its parameters. The service keeps an
interface together with the parameters that it was established with; these are separate fields,
and `configure` sets them one after the other.

What the builder refuses is a parameter of the functions, as it is for Android to say.
-/

namespace QoSMos.Configure

open LabelledPath
open Numeral (parseInt parseShort)

/-! ## Parsing -/

/-- `text.split(regex)`, where the expression is a character that stands for itself: empty parts at
the end are left out, but a text without the character is its own part. -/
def split (text : String) (regex : Char) : List String :=
  if regex ∈ text.toList then
    ((text.toList.splitOn regex).rdropWhile List.isEmpty).map String.ofList
  else [text]

/-- A call of the builder. -/
inductive Setting where
  | setMtu (mtu : Int)
  | addAddress (address : String) (prefixLength : Int)
  | addRoute (address : String) (prefixLength : Int)
  | addDnsServer (address : String)
  | addSearchDomain (domain : String)
  deriving DecidableEq, Repr

/-- The body of the `switch`: no setting for another letter, and `none` for an exception. -/
def setting (parameter : String) : Option (List Setting) := do
  let fields := split parameter ','
  let letter ← (← fields[0]?).toList.head?
  match letter with
  | 'm' => return [.setMtu (← parseShort (← fields[1]?))]
  | 'a' => return [.addAddress (← fields[1]?) (← parseInt (← fields[2]?))]
  | 'r' => return [.addRoute (← fields[1]?) (← parseInt (← fields[2]?))]
  | 'd' => return [.addDnsServer (← fields[1]?)]
  | 's' => return [.addSearchDomain (← fields[1]?)]
  | _ => return []

/-- The loop over the parameters. `refuses` says whether the builder, after some calls, throws at
another one. The error is the message of the exception. -/
def addParameters (refuses : List Setting → Setting → Bool) :
    List String → List Setting → Except String (List Setting)
  | [], settings => .ok settings
  | parameter :: parameters, settings =>
    match setting parameter with
    | none => .error ("Bad parameter: " ++ parameter)
    | some added =>
      if added.any (refuses settings) then .error ("Bad parameter: " ++ parameter)
      else addParameters refuses parameters (settings ++ added)

/-- The settings that a string of parameters stands for. -/
def build (refuses : List Setting → Setting → Bool) (parameters : String) :
    Except String (List Setting) := addParameters refuses (split parameters ' ') []

/-! ## The service -/

/-- An interface, by the calls of the builder that established it. -/
structure Interface where
  settings : List Setting
  isClosed : Bool
  deriving DecidableEq, Repr

/-- `close`, which does nothing the second time. -/
def Interface.close (interface : Interface) : Interface := { interface with isClosed := true }

structure Service where
  mInterface : Option Interface
  mParameters : Option String
  deriving DecidableEq, Repr

def initial : Service where
  mInterface := none
  mParameters := none

/-- What `establish` comes to, if it is called. -/
inductive Establish where
  | throws | null | interface
  deriving DecidableEq, Repr

/-- A call of `configure`. -/
structure Call where
  parameters : String
  establish : Establish
  deriving DecidableEq, Repr

inductive Outcome where
  | returns
  | illegalArgument (message : String)
  /-- The exception of `establish`. -/
  | throws
  deriving DecidableEq, Repr

section Configure

variable (refuses : List Setting → Setting → Bool)

def configure (s : Service) (call : Call) : Outcome × Service :=
  if s.mInterface ≠ none ∧ s.mParameters = some call.parameters then (.returns, s)
  else
    match build refuses call.parameters with
    | .error message => (.illegalArgument message, s)
    | .ok settings =>
      -- the old interface is closed before there is a new one
      let s := { s with mInterface := s.mInterface.map Interface.close }
      match call.establish with
      | .throws => (.throws, s)
      | .null => (.returns, { mInterface := none, mParameters := some call.parameters })
      | .interface =>
        (.returns, { mInterface := some ⟨settings, false⟩, mParameters := some call.parameters })

/-- The next call of a history. -/
def Step (s : Service) (call : Call) (t : Service) : Prop := (configure refuses s call).2 = t

/-- The interface, if there is one, is open and has the settings of the parameters. -/
def Matching (s : Service) : Prop :=
  ∀ interface, s.mInterface = some interface → interface.isClosed = false ∧
    ∃ parameters, s.mParameters = some parameters ∧
      build refuses parameters = .ok interface.settings

/-- What a call should come to. -/
structure Atomic (s : Service) (call : Call) : Prop where
  matching : Matching refuses (configure refuses s call).2
  rejected : ∀ message, (configure refuses s call).1 = .illegalArgument message →
    (configure refuses s call).2 = s
  returned : (configure refuses s call).1 = .returns →
    (configure refuses s call).2.mInterface ≠ none

/-- If `establish` is called, it returns an interface, or it throws where there was none before. -/
def Established (s : Service) (call : Call) : Prop :=
  ¬ (s.mInterface ≠ none ∧ s.mParameters = some call.parameters) →
    (∃ settings, build refuses call.parameters = .ok settings) →
      call.establish = .interface ∨ call.establish = .throws ∧ s.mInterface = none

variable {refuses} {s t : Service} {call : Call} {calls : List Call} {settings : List Setting}
  {message : String}

theorem configure_reuse (h : s.mInterface ≠ none ∧ s.mParameters = some call.parameters) :
    configure refuses s call = (.returns, s) := if_pos h

theorem configure_rejected (h : ¬ (s.mInterface ≠ none ∧ s.mParameters = some call.parameters))
    (hbuild : build refuses call.parameters = .error message) :
    configure refuses s call = (.illegalArgument message, s) := by
  rw [configure, if_neg h, hbuild]

theorem configure_built (h : ¬ (s.mInterface ≠ none ∧ s.mParameters = some call.parameters))
    (hbuild : build refuses call.parameters = .ok settings) :
    configure refuses s call =
      match call.establish with
      | .throws => (.throws, { s with mInterface := s.mInterface.map Interface.close })
      | .null => (.returns, { mInterface := none, mParameters := some call.parameters })
      | .interface =>
        (.returns,
          { mInterface := some ⟨settings, false⟩, mParameters := some call.parameters }) := by
  rw [configure, if_neg h, hbuild]

theorem matching_of_none (h : s.mInterface = none) : Matching refuses s := by
  intro interface hinterface
  rw [h] at hinterface
  cases hinterface

/-- A call that does not come to `establish` changes nothing. -/
theorem Atomic.of_eq {outcome : Outcome} (hs : Matching refuses s)
    (h : configure refuses s call = (outcome, s))
    (hreturns : outcome = .returns → s.mInterface ≠ none) : Atomic refuses s call where
  matching := by
    rw [h]
    exact hs
  rejected _ _ := by rw [h]
  returned hreturned := by
    rw [h] at hreturned ⊢
    exact hreturns hreturned

/-- A call that comes to `establish` is atomic unless that returns nothing, or throws when the
old interface is closed already. -/
theorem atomic_built_iff (h : ¬ (s.mInterface ≠ none ∧ s.mParameters = some call.parameters))
    (hbuild : build refuses call.parameters = .ok settings) :
    Atomic refuses s call ↔
      call.establish = .interface ∨ call.establish = .throws ∧ s.mInterface = none := by
  have hconfigure := configure_built h hbuild
  cases hestablish : call.establish with
  | interface =>
    simp only [hestablish] at hconfigure
    refine iff_of_true ⟨?_, ?_, ?_⟩ (.inl rfl)
    · rw [hconfigure]
      rintro interface ⟨⟩
      exact ⟨rfl, _, rfl, hbuild⟩
    · intro message hmessage
      rw [hconfigure] at hmessage
      cases hmessage
    · rw [hconfigure]
      simp
  | null =>
    simp only [hestablish] at hconfigure
    refine iff_of_false ?_ (by simp)
    intro hatomic
    have hreturned := hatomic.returned
    rw [hconfigure] at hreturned
    exact hreturned rfl rfl
  | throws =>
    simp only [hestablish] at hconfigure
    constructor
    · intro hatomic
      cases hold : s.mInterface with
      | none => exact .inr ⟨rfl, rfl⟩
      | some interface =>
        have hmatching := hatomic.matching
        rw [hconfigure] at hmatching
        obtain ⟨hopen, -⟩ := hmatching interface.close (by simp [hold])
        cases hopen
    · rintro (hinterface | ⟨-, hnone⟩)
      · cases hinterface
      · refine ⟨?_, ?_, ?_⟩
        · rw [hconfigure]
          exact matching_of_none (by simp [hnone])
        · intro message hmessage
          rw [hconfigure] at hmessage
          cases hmessage
        · intro hreturned
          rw [hconfigure] at hreturned
          cases hreturned

theorem atomic_iff (hs : Matching refuses s) :
    Atomic refuses s call ↔ Established refuses s call := by
  by_cases hreuse : s.mInterface ≠ none ∧ s.mParameters = some call.parameters
  · refine iff_of_true ?_ fun h => absurd hreuse h
    exact .of_eq hs (configure_reuse hreuse) fun _ => hreuse.1
  · cases hbuild : build refuses call.parameters with
    | error message =>
      refine iff_of_true (.of_eq hs (configure_rejected hreuse hbuild) ?_) ?_
      · intro hreturns
        cases hreturns
      · rintro - ⟨settings, hsettings⟩
        rw [hbuild] at hsettings
        cases hsettings
    | ok settings =>
      rw [atomic_built_iff hreuse hbuild]
      exact ⟨fun h _ _ => h, fun h => h hreuse ⟨settings, hbuild⟩⟩

end Configure

/-! ## Histories -/

/-- The calls of a history are atomic as long as `establish` does what it should: one that returns
nothing breaks it, and so does one that throws when there was an interface before. -/
theorem path_atomic_iff (refuses : List Setting → Setting → Bool) (calls : List Call)
    (t : Service) :
    Path (Restrict (Step refuses) (Atomic refuses)) initial calls t ↔
      Path (Restrict (Step refuses) (Established refuses)) initial calls t := by
  have hall : ∀ s, Matching refuses s →
      (Path (Restrict (Step refuses) (Atomic refuses)) s calls t ↔
        Path (Restrict (Step refuses) (Established refuses)) s calls t) := by
    induction calls with
    | nil => simp [Path.nil_iff]
    | cons call calls ih =>
      intro s hs
      simp only [Path.cons_iff, Restrict, atomic_iff hs]
      refine exists_congr fun u => and_congr_right fun ⟨hstep, hestablished⟩ => ih u ?_
      rw [← hstep]
      exact ((atomic_iff hs).mpr hestablished).matching
  exact hall initial (matching_of_none rfl)

example : build (fun _ _ => false) "m,1400 a,10.0.0.2,32 r,0.0.0.0,0" =
    .ok [.setMtu 1400, .addAddress "10.0.0.2" 32, .addRoute "0.0.0.0" 0] := by decide

/-- New parameters come when there is an interface, and `establish` throws. -/
def refusedCalls : List Call := [⟨"m,1400", .interface⟩, ⟨"m,1280", .throws⟩]

theorem not_forall_path_atomic :
    ¬ ∀ (refuses : List Setting → Setting → Bool) (calls : List Call) (t : Service),
      Path (Step refuses) initial calls t → Path (Restrict (Step refuses) (Atomic refuses)) initial
        calls t := by
  intro h
  have hpath := h (fun _ _ => false) refusedCalls _ (.cons rfl (.cons rfl (.nil _)))
  obtain ⟨u, ⟨rfl, -⟩, hpath⟩ := Path.cons_iff.mp hpath
  obtain ⟨v, ⟨rfl, hatomic⟩, -⟩ := Path.cons_iff.mp hpath
  obtain ⟨hopen, -⟩ := hatomic.matching ⟨[.setMtu 1400], true⟩ (by decide)
  cases hopen

/-! ## The sessions of the service -/

/-- What `Session.configure` is told about a call. -/
def Call.built (refuses : List Setting → Setting → Bool) (call : Call) : Session.Built :=
  match build refuses call.parameters, call.establish with
  | .error _, _ => .badParameter
  | .ok _, .throws => .establishThrows
  | .ok _, .null => .establishNull
  | .ok _, .interface => .established

/-- The fields of a service in a session, without the settings. -/
structure Abstracts (s : Session.State) (service : Service) : Prop where
  interface : s.mInterface.map Session.ParcelFileDescriptor.isClosed =
    service.mInterface.map Interface.isClosed
  parameters : s.mParameters = service.mParameters

section Sessions

variable {refuses : List Setting → Setting → Bool} {s : Session.State} {service : Service}
  {call : Call}

theorem Abstracts.closeInterface (h : Abstracts s service) :
    Abstracts (Session.closeInterface s)
      { service with mInterface := service.mInterface.map Interface.close } := by
  obtain ⟨hinterface, hparameters⟩ := h
  cases hold : s.mInterface with
  | none =>
    have hnone : service.mInterface = none := by simpa [hold] using hinterface.symm
    exact ⟨by simp [Session.closeInterface, hold, hnone], by
      simpa [Session.closeInterface, hold] using hparameters⟩
  | some pfd =>
    obtain ⟨interface, hinterface'⟩ : ∃ interface, service.mInterface = some interface := by
      rw [hold] at hinterface
      exact (Option.map_eq_some_iff.mp hinterface.symm).imp fun _ h => h.1
    by_cases hclosed : pfd.isClosed = true
    · refine ⟨?_, by simpa [Session.closeInterface, hold, hclosed] using hparameters⟩
      simp [Session.closeInterface, hold, hclosed, hinterface', Interface.close]
    · refine ⟨?_, by simpa [Session.closeInterface, hold, hclosed, Session.State.log]
        using hparameters⟩
      simp [Session.closeInterface, hold, hclosed, hinterface', Interface.close]

/-- `configure` of the sessions does the same to the fields, and goes on to `getFd` if and only if
it returns. -/
theorem Abstracts.configure (h : Abstracts s service) :
    Abstracts (Session.configure s call.parameters (call.built refuses))
      (configure refuses service call).2 ∧
    ((Session.configure s call.parameters (call.built refuses)).pc = .getFd ↔
      (configure refuses service call).1 = .returns) := by
  have hnone : s.mInterface = none ↔ service.mInterface = none := by
    rw [← Option.map_eq_none_iff, h.interface, Option.map_eq_none_iff]
  by_cases hreuse : service.mInterface ≠ none ∧ service.mParameters = some call.parameters
  · have hreuse' : s.mInterface ≠ none ∧ s.mParameters = some call.parameters :=
      ⟨mt hnone.mp hreuse.1, h.parameters.trans hreuse.2⟩
    rw [configure_reuse hreuse, Session.configure, if_pos hreuse']
    exact ⟨⟨h.interface, h.parameters⟩, iff_of_true rfl rfl⟩
  · have hreuse' : ¬ (s.mInterface ≠ none ∧ s.mParameters = some call.parameters) := by
      rwa [ne_eq, hnone, h.parameters]
    cases hbuild : build refuses call.parameters with
    | error message =>
      have hbuilt : call.built refuses = .badParameter := by simp [Call.built, hbuild]
      rw [configure_rejected hreuse hbuild, Session.configure, if_neg hreuse', hbuilt, if_pos rfl]
      exact ⟨⟨h.interface, h.parameters⟩, iff_of_false (by simp [Session.State.goto]) (by simp)⟩
    | ok settings =>
      have hclosed := h.closeInterface
      rw [configure_built hreuse hbuild, Session.configure, if_neg hreuse']
      cases hestablish : call.establish with
      | throws =>
        have hbuilt : call.built refuses = .establishThrows := by
          simp [Call.built, hbuild, hestablish]
        rw [hbuilt, if_neg (by decide)]
        exact ⟨⟨hclosed.interface, hclosed.parameters⟩,
          iff_of_false (by simp [Session.State.goto]) (by simp)⟩
      | null =>
        have hbuilt : call.built refuses = .establishNull := by
          simp [Call.built, hbuild, hestablish]
        rw [hbuilt, if_neg (by decide)]
        exact ⟨⟨rfl, rfl⟩, iff_of_true rfl rfl⟩
      | interface =>
        have hbuilt : call.built refuses = .established := by
          simp [Call.built, hbuild, hestablish]
        rw [hbuilt, if_neg (by decide)]
        exact ⟨⟨rfl, rfl⟩, iff_of_true rfl rfl⟩

end Sessions

end QoSMos.Configure
