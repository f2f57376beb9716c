import QoSMos.Media.Program

/-!
# Tracking the media context

`classify` says which context a reading stands for. The runnable looks at its readings
only while its `mediaState` is 0, and from the first activity on this never is again.
-/

namespace QoSMos.Media

open LabelledPath
open Numeral (parseInt)

/-- The context of the activities that a reading shows. -/
def classify (r : Reading) : Int32 :=
  if r.music then 1
  else match r.voip, r.camera with
    | true, true => 7
    | true, false => 3
    | false, true => 6
    | false, false => 0

/-- What was last reported is the context of the last reading, and so is the runnable's
state; no context is reported twice in a row. -/
structure Tracks (s : State) : Prop where
  context : ∀ r, s.readings.getLast? = some r → s.contexts.getLast?.getD 0 = classify r
  state : ∀ r, s.readings.getLast? = some r → s.runnable.mediaState = classify r
  once : s.contexts.IsChain (· ≠ ·)

/-- The reading of a tick. -/
def readingOf (s : State) (voip music : Bool) : Reading :=
  ⟨voip, music, s.pushed.getLast?.getD false⟩

/-- A tick after the first activity finds just this activity again. -/
def Continues (s : State) : Act → Prop
  | .tick voip music _ =>
    s.runnable.mediaState = 0 ∨ classify (readingOf s voip music) = s.runnable.mediaState
  | _ => True

/-! ## One tick -/

section Steps

variable {s t : State} {voip music : Bool} {now : Int}

theorem classify_eq_zero_or_pos (r : Reading) : classify r = 0 ∨ 0 < classify r := by
  obtain ⟨voip, music, camera⟩ := r
  cases voip <;> cases music <;> cases camera <;> decide

theorem detect_eq_classify (r : Runnable) :
    r.detect = classify ⟨r.voipState, r.musicState, r.cameraState⟩ := by
  obtain ⟨voip, music, camera, mediaState, timeer⟩ := r
  cases voip <;> cases music <;> cases camera <;> rfl

/-- What holds between steps: at most one context was reported, and the runnable is to see
the camera state that was last pushed. -/
structure Reported (s : State) : Prop where
  state : s.runnable.mediaState = 0 ∨ 0 < s.runnable.mediaState
  contexts : s.contexts = if s.runnable.mediaState = 0 then [] else [s.runnable.mediaState]
  timeer : s.runnable.mediaState = 0 → s.runnable.timeer = 0
  camera : (s.queue "Camera").getD s.runnable.cameraState = s.pushed.getLast?.getD false

theorem Reported.sample (hs : Reported s) (voip music : Bool) :
    Reported (sample s voip music) := by
  have hcamera := hs.camera
  refine ⟨hs.state, hs.contexts, hs.timeer, ?_⟩
  cases hq : s.queue "Camera" <;>
    simp_all [Media.sample, sampleCamera, SensorQueue.get, SensorQueue.pop]

theorem detect_sample (hs : Reported s) :
    (sample s voip music).runnable.detect = classify (readingOf s voip music) := by
  have hcamera := hs.camera
  have hsampled : (sampleCamera s).1 = s.pushed.getLast?.getD false := by
    cases hq : s.queue "Camera" <;> simp_all [sampleCamera, SensorQueue.get]
  rw [detect_eq_classify, readingOf, ← hsampled]
  rfl

/-- The state after `detectMedia`: the new context if there was none. -/
theorem mediaState_detectMedia (s : State) (now : Int) :
    (detectMedia s now).runnable.mediaState =
      if s.runnable.mediaState = 0 then s.runnable.detect else s.runnable.mediaState := by
  unfold detectMedia
  split_ifs with hidle
  · dsimp only
    split_ifs <;> rfl
  · rfl

theorem Reported.detectMedia (hs : Reported s) (now : Int) : Reported (detectMedia s now) := by
  have hcamera := hs.camera
  by_cases hidle : s.runnable.mediaState = 0
  · have hcontexts := hs.contexts
    have htimeer := hs.timeer hidle
    rw [if_pos hidle] at hcontexts
    have hdetect := classify_eq_zero_or_pos
      ⟨s.runnable.voipState, s.runnable.musicState, s.runnable.cameraState⟩
    rw [← detect_eq_classify] at hdetect
    rcases hdetect with hnone | hsome
    · have hstays : ¬ (0 : Int32) < 0 := by decide
      simp only [Media.detectMedia, hidle, hnone, if_true, gt_iff_lt, hstays, if_false]
      exact ⟨.inl rfl, by simpa using hcontexts, fun _ => htimeer, hcamera⟩
    · have hne : s.runnable.detect ≠ 0 := by
        intro hzero
        rw [hzero] at hsome
        exact absurd hsome (by decide)
      simp only [Media.detectMedia, hidle, if_true, gt_iff_lt, hsome]
      refine ⟨.inr hsome, ?_, fun hzero => absurd hzero hne, hcamera⟩
      simp [setMediaContext, hcontexts, hne]
  · simp only [Media.detectMedia, hidle, if_false]
    exact hs

/-- While an activity is known the context is not over, and before that nothing was timed. -/
theorem Reported.not_over (hs : Reported s) :
    ¬ (s.runnable.timeer > 0 ∧ s.runnable.mediaState = 0) := by
  rintro ⟨htimeer, hidle⟩
  rw [hs.timeer hidle] at htimeer
  exact absurd htimeer (by decide)

/-- The tick after its first half only counts. -/
theorem tick_eq (hs : Reported s) : tick s voip music now =
    let u := detectMedia (sample s voip music) now
    if u.runnable.mediaState > 0 then
      { u with runnable := { u.runnable with timeer := u.runnable.timeer + 1 } }
    else u := by
  have hover := ((hs.sample voip music).detectMedia now).not_over
  simp only [tick, hover, if_false]

theorem Reported.tick (hs : Reported s) (voip music : Bool) (now : Int) :
    Reported (tick s voip music now) := by
  rw [tick_eq hs]
  have hu := (hs.sample voip music).detectMedia now
  by_cases hpos : (Media.detectMedia (Media.sample s voip music) now).runnable.mediaState > 0
  · simp only [hpos, if_true]
    refine ⟨hu.state, hu.contexts, fun hzero => ?_, hu.camera⟩
    replace hzero : (Media.detectMedia (Media.sample s voip music) now).runnable.mediaState = 0 :=
      hzero
    rw [hzero] at hpos
    exact absurd hpos (by decide)
  · simpa only [hpos, if_false] using hu

theorem mediaState_tick (hs : Reported s) : (tick s voip music now).runnable.mediaState =
    if s.runnable.mediaState = 0 then classify (readingOf s voip music)
    else s.runnable.mediaState := by
  have htick : (tick s voip music now).runnable.mediaState =
      (detectMedia (sample s voip music) now).runnable.mediaState := by
    rw [tick_eq hs]
    simp only
    split_ifs <;> rfl
  rw [htick, mediaState_detectMedia, detect_sample hs]
  rfl

theorem readings_tick : (tick s voip music now).readings =
    s.readings ++ [readingOf s voip music] := by
  unfold tick detectMedia
  grind [sample, readingOf]

/-! ## Callbacks -/

/-- What a callback leaves as it is, and what it pushes unless it fails. -/
structure Unreported (s t : State) : Prop where
  runnable : t.runnable = s.runnable
  readings : t.readings = s.readings
  contexts : t.contexts = s.contexts
  camera : t.queue = s.queue ∧ t.pushed = s.pushed ∨
    ∃ data, t.queue = s.queue.push "Camera" data ∧ t.pushed = s.pushed ++ [data]

theorem unreported_available (s : State) (cameraId : String) :
    Unreported s (onCameraAvailable s cameraId) := by
  cases hid : parseInt cameraId with
  | none => constructor <;> simp [onCameraAvailable, hid]
  | some id =>
    by_cases hzero : id = 0 <;>
      constructor <;> simp [onCameraAvailable, hid, hzero, pushCamera]

theorem unreported_unavailable (s : State) (cameraId : String) :
    Unreported s (onCameraUnavailable s cameraId) := by
  cases hid : parseInt cameraId with
  | none => constructor <;> simp [onCameraUnavailable, hid]
  | some id =>
    by_cases hzero : id = 0 <;>
      constructor <;> simp [onCameraUnavailable, hid, hzero, pushCamera]

/-- A step is a tick or leaves the tracking alone. -/
theorem step_cases {a : Act} (h : step s a = some t) :
    (∃ voip music now, a = .tick voip music now ∧ t = tick s voip music now) ∨
      Continues s a ∧ Unreported s t := by
  cases a with
  | cameraAvailable cameraId =>
    simp only [step] at h
    split_ifs at h
    obtain rfl := Option.some.inj h
    exact .inr ⟨trivial, unreported_available s cameraId⟩
  | cameraUnavailable cameraId =>
    simp only [step] at h
    split_ifs at h
    obtain rfl := Option.some.inj h
    exact .inr ⟨trivial, unreported_unavailable s cameraId⟩
  | tick voip music now =>
    simp only [step] at h
    split_ifs at h
    exact .inl ⟨voip, music, now, rfl, (Option.some.inj h).symm⟩

theorem Reported.unreported (hs : Reported s) (h : Unreported s t) : Reported t := by
  obtain ⟨hrunnable, -, hcontexts, hcamera⟩ := h
  constructor
  · rw [hrunnable]
    exact hs.state
  · rw [hrunnable, hcontexts]
    exact hs.contexts
  · rw [hrunnable]
    exact hs.timeer
  · rcases hcamera with ⟨hqueue, hpushed⟩ | ⟨data, hqueue, hpushed⟩
    · rw [hrunnable, hqueue, hpushed]
      exact hs.camera
    · simp [hqueue, hpushed, SensorQueue.push]

theorem Tracks.unreported (hs : Tracks s) (h : Unreported s t) : Tracks t := by
  obtain ⟨hrunnable, hreadings, hcontexts, -⟩ := h
  constructor
  · rw [hreadings, hcontexts]
    exact hs.context
  · rw [hreadings, hrunnable]
    exact hs.state
  · rw [hcontexts]
    exact hs.once

/-! ## Runs -/

/-- With the activity of the reading as its state, the runnable has reported it. -/
theorem Reported.tracks (hs : Reported s)
    (hr : ∀ r, s.readings.getLast? = some r → s.runnable.mediaState = classify r) : Tracks s := by
  refine ⟨fun r hlast => ?_, hr, ?_⟩
  · rw [hs.contexts, ← hr r hlast]
    split_ifs with hidle
    · simp [hidle]
    · simp
  · rw [hs.contexts]
    split_ifs <;> simp

theorem Reported.initial : Reported initial := by
  constructor <;> simp [Media.initial]

/-- A tick keeps track exactly if it continues. -/
theorem tracks_tick_iff (hs : Reported s) :
    Tracks (tick s voip music now) ↔ Continues s (.tick voip music now) := by
  have hlast : (tick s voip music now).readings.getLast? = some (readingOf s voip music) := by
    rw [readings_tick, List.getLast?_concat]
  have hstate : (tick s voip music now).runnable.mediaState = _ := mediaState_tick hs
  constructor
  · intro ht
    have hclass := ht.state _ hlast
    rw [hstate] at hclass
    by_cases hidle : s.runnable.mediaState = 0
    · exact .inl hidle
    · rw [if_neg hidle] at hclass
      exact .inr hclass.symm
  · intro hc
    refine (hs.tick voip music now).tracks fun r hr => ?_
    obtain rfl : readingOf s voip music = r := by simpa [hlast] using hr
    rw [hstate]
    rcases hc with hidle | hsame
    · rw [if_pos hidle]
    · rw [hsame]
      split_ifs <;> rfl

end Steps

/-- The context is tracked throughout exactly the runs whose ticks, from the first activity
on, find the same activity every time. -/
theorem throughout_tracks_iff (as : List Act) (t : State) :
    Throughout Step Tracks initial as t ↔ Path (Restrict Step Continues) initial as t := by
  refine Throughout.iff_restrict (fun s => Reported s ∧ Tracks s) ?_ ?_ ?_ ?_
  · rintro s a t ⟨hs, htracks⟩ h hc
    obtain ⟨voip, music, now, rfl, rfl⟩ | ⟨-, hunreported⟩ := step_cases h
    · exact ⟨hs.tick voip music now, (tracks_tick_iff hs).mpr hc⟩
    · exact ⟨hs.unreported hunreported, htracks.unreported hunreported⟩
  · intro s hs
    exact hs.2
  · rintro s a t ⟨hs, -⟩ h ht
    obtain ⟨voip, music, now, rfl, rfl⟩ | ⟨hc, -⟩ := step_cases h
    · exact (tracks_tick_iff hs).mp ht
    · exact hc
  · exact ⟨Reported.initial, Reported.initial.tracks (by simp [initial])⟩

/-- A call that ends is still the last context reported. -/
theorem not_forall_tracks :
    ¬ ∀ (as : List Act) (t : State), Path Step initial as t → Tracks t := by
  intro h
  have ht := h [.tick true false 0, .tick false false 1] _ (exec_eq_some_iff.mp rfl)
  have hcontext := ht.context ⟨false, false, false⟩ rfl
  revert hcontext
  decide

end QoSMos.Media
