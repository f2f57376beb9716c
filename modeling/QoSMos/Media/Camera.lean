import QoSMos.Media.Program

/-!
# Cameras in use

What the callbacks say of each camera, against the two fields of the service and the
summary it pushes into the queue. Camera 0 is the one whose id is the number 0.
-/

namespace QoSMos.Media

open LabelledPath
open Numeral (parseInt)

def isCameraZero (cameraId : String) : Bool := parseInt cameraId == some 0

/-- The last callback for a camera with `p`: whether it was then in use. -/
def lastFor (p : String → Bool) (callbacks : List Callback) : Option Bool :=
  (callbacks.filter fun c => p c.cameraId).getLast?.map Callback.unavailable

/-- By the last callback for it, the camera is in use. -/
def InUse (callbacks : List Callback) (cameraId : String) : Prop :=
  lastFor (· == cameraId) callbacks = some true

/-- No callback has failed, the fields are those of the last callbacks, and the value last
pushed says whether any camera is in use. -/
structure Reflects (s : State) : Prop where
  alive : s.crashed = false
  one : s.isCamoneinUse = lastFor isCameraZero s.callbacks
  two : s.isCamtwoinUse = lastFor (fun id => !isCameraZero id) s.callbacks
  summary : s.pushed.getLast? = some true ↔ ∃ cameraId, InUse s.callbacks cameraId

/-- Only camera 0 comes into use, only numbers are ids, and a camera becomes available only
when no other one is in use. -/
def OnlyZero (s : State) : Act → Prop
  | .cameraUnavailable cameraId => parseInt cameraId = some 0
  | .cameraAvailable cameraId =>
    parseInt cameraId ≠ none ∧ ∀ other, InUse s.callbacks other → other = cameraId
  | .tick _ _ _ => True

section Steps

variable {s t : State} {callbacks : List Callback} {cameraId other : String} {p : String → Bool}
  {unavailable : Bool}

@[simp] theorem lastFor_snoc : lastFor p (callbacks ++ [⟨cameraId, unavailable⟩]) =
    if p cameraId then some unavailable else lastFor p callbacks := by
  unfold lastFor
  rw [List.filter_append]
  by_cases hp : p cameraId <;> simp [hp]

theorem inUse_snoc : InUse (callbacks ++ [⟨cameraId, unavailable⟩]) other ↔
    if cameraId = other then unavailable = true else InUse callbacks other := by
  unfold InUse
  rw [lastFor_snoc]
  by_cases h : cameraId = other <;> simp [h]

/-- After a camera came into use one is, and after one became available it is another one. -/
theorem exists_inUse_snoc : (∃ id, InUse (callbacks ++ [⟨cameraId, unavailable⟩]) id) ↔
    unavailable = true ∨ ∃ other, InUse callbacks other ∧ other ≠ cameraId := by
  constructor
  · rintro ⟨id, hid⟩
    rw [inUse_snoc] at hid
    split_ifs at hid with heq
    · exact .inl hid
    · exact .inr ⟨id, hid, Ne.symm heq⟩
  · rintro (hin | ⟨other, hin, hne⟩)
    · exact ⟨cameraId, by rw [inUse_snoc, if_pos rfl]; exact hin⟩
    · exact ⟨other, by rw [inUse_snoc, if_neg (Ne.symm hne)]; exact hin⟩

/-- The state after `onCameraAvailable`. -/
theorem reflects_available_iff (hs : Reflects s) :
    Reflects (onCameraAvailable s cameraId) ↔ OnlyZero s (.cameraAvailable cameraId) := by
  cases hid : parseInt cameraId with
  | none =>
    refine iff_of_false (fun ht => ?_) (fun hc => hc.1 hid)
    have halive := ht.alive
    simp [onCameraAvailable, hid] at halive
  | some id =>
    have hzero : isCameraZero cameraId = (id == 0) := by simp [isCameraZero, hid]
    have hcallbacks : (onCameraAvailable s cameraId).callbacks =
        s.callbacks ++ [⟨cameraId, false⟩] := by
      simp only [onCameraAvailable, hid, pushCamera]
      split_ifs <;> rfl
    have hpushed : (onCameraAvailable s cameraId).pushed = s.pushed ++ [false] := by
      simp only [onCameraAvailable, hid, pushCamera]
      split_ifs <;> rfl
    have hsummary : ((onCameraAvailable s cameraId).pushed.getLast? = some true ↔
        ∃ id, InUse (onCameraAvailable s cameraId).callbacks id) ↔
        ∀ other, InUse s.callbacks other → other = cameraId := by
      rw [hpushed, hcallbacks, exists_inUse_snoc]
      simp
    constructor
    · intro ht
      exact ⟨by simp [hid], hsummary.mp ht.summary⟩
    · rintro ⟨-, hothers⟩
      refine ⟨?_, ?_, ?_, hsummary.mpr hothers⟩
      · have halive := hs.alive
        by_cases h : id = 0 <;> simp [onCameraAvailable, hid, h, pushCamera, halive]
      · have hone := hs.one
        rw [hcallbacks, lastFor_snoc, hzero]
        by_cases h : id = 0 <;> simp [onCameraAvailable, hid, h, pushCamera, hone]
      · have htwo := hs.two
        rw [hcallbacks, lastFor_snoc, hzero]
        by_cases h : id = 0 <;> simp [onCameraAvailable, hid, h, pushCamera, htwo]

/-- The state after `onCameraUnavailable`, which never sets the field of the other camera. -/
theorem reflects_unavailable_iff (hs : Reflects s) (htwo : s.isCamtwoinUse ≠ some true) :
    Reflects (onCameraUnavailable s cameraId) ↔ OnlyZero s (.cameraUnavailable cameraId) := by
  cases hid : parseInt cameraId with
  | none =>
    refine iff_of_false (fun ht => ?_) (fun hc => ?_)
    · have halive := ht.alive
      simp [onCameraUnavailable, hid] at halive
    · simp [OnlyZero, hid] at hc
  | some id =>
    have hzero : isCameraZero cameraId = (id == 0) := by simp [isCameraZero, hid]
    have hcallbacks : (onCameraUnavailable s cameraId).callbacks =
        s.callbacks ++ [⟨cameraId, true⟩] := by
      simp only [onCameraUnavailable, hid, pushCamera]
      split_ifs <;> rfl
    have hpushed : (onCameraUnavailable s cameraId).pushed = s.pushed ++ [true] := by
      simp only [onCameraUnavailable, hid, pushCamera]
      split_ifs <;> rfl
    constructor
    · intro ht
      by_contra hne
      replace hne : id ≠ 0 := by rintro rfl; exact hne hid
      have htwo' := ht.two
      rw [hcallbacks, lastFor_snoc, hzero] at htwo'
      simp [onCameraUnavailable, hid, hne, pushCamera] at htwo'
      exact htwo htwo'
    · intro hc
      obtain rfl : id = 0 := by simpa [OnlyZero, hid] using hc
      refine ⟨?_, ?_, ?_, ?_⟩
      · have halive := hs.alive
        simp [onCameraUnavailable, hid, pushCamera, halive]
      · rw [hcallbacks, lastFor_snoc, hzero]
        simp [onCameraUnavailable, hid, pushCamera]
      · have htwo' := hs.two
        rw [hcallbacks, lastFor_snoc, hzero]
        simp [onCameraUnavailable, hid, pushCamera, htwo']
      · rw [hpushed, hcallbacks, exists_inUse_snoc]
        simp

/-- No step finds out that the other camera is in use. -/
theorem isCamtwoinUse_of_step {a : Act} (hs : s.isCamtwoinUse ≠ some true)
    (h : step s a = some t) : t.isCamtwoinUse ≠ some true := by
  cases a with
  | cameraAvailable cameraId =>
    simp only [step, onCameraAvailable] at h
    grind
  | cameraUnavailable cameraId =>
    simp only [step, onCameraUnavailable] at h
    grind
  | tick voip music now =>
    simp only [step, tick, detectMedia, sample] at h
    grind

/-- A tick does not touch what is known of the cameras. -/
theorem Reflects.tick (hs : Reflects s) (voip music : Bool) (now : Int) :
    Reflects (tick s voip music now) := by
  obtain ⟨halive, hone, htwo, hsummary⟩ := hs
  constructor <;> simp only [Media.tick, detectMedia, sample] <;> grind

/-- A step keeps the cameras in view exactly if it meets the condition. -/
theorem reflects_step_iff {a : Act} (hs : Reflects s) (htwo : s.isCamtwoinUse ≠ some true)
    (h : step s a = some t) : Reflects t ↔ OnlyZero s a := by
  have halive := hs.alive
  cases a with
  | cameraAvailable cameraId =>
    obtain rfl : onCameraAvailable s cameraId = t := by simpa [step, halive] using h
    exact reflects_available_iff hs
  | cameraUnavailable cameraId =>
    obtain rfl : onCameraUnavailable s cameraId = t := by simpa [step, halive] using h
    exact reflects_unavailable_iff hs htwo
  | tick voip music now =>
    obtain rfl : tick s voip music now = t := by simpa [step, halive] using h
    exact iff_of_true (hs.tick voip music now) trivial

end Steps

/-- The cameras are followed throughout exactly the runs in which only camera 0 comes into
use and the others become available while it is not. -/
theorem throughout_reflects_iff (as : List Act) (t : State) :
    Throughout Step Reflects initial as t ↔ Path (Restrict Step OnlyZero) initial as t := by
  refine Throughout.iff_restrict (fun s => Reflects s ∧ s.isCamtwoinUse ≠ some true) ?_ ?_ ?_ ?_
  · rintro s a t ⟨hs, htwo⟩ h hc
    exact ⟨(reflects_step_iff hs htwo h).mpr hc, isCamtwoinUse_of_step htwo h⟩
  · intro s hs
    exact hs.1
  · rintro s a t ⟨hs, htwo⟩ h ht
    exact (reflects_step_iff hs htwo h).mp ht
  · refine ⟨⟨rfl, rfl, rfl, ?_⟩, by simp [initial]⟩
    simp [initial, InUse, lastFor]

/-- The front camera comes into use. -/
theorem not_forall_reflects :
    ¬ ∀ (as : List Act) (t : State), Path Step initial as t → Reflects t := by
  intro h
  have ht := h [.cameraUnavailable "1"] _ (exec_eq_some_iff.mp rfl)
  have htwo := ht.two
  revert htwo
  decide +kernel

end QoSMos.Media
