import Mathlib.Data.List.Infix

/-!
# The last run of a list

The last run is the longest suffix of a list whose members all have one key. A member with the
key of the one before it is added to the run, any other starts a new one.
-/

namespace LastRun

variable {α κ : Type*} {key : α → κ} {l run : List α} {x y : α}

/-- All members have one key. -/
def Uniform (key : α → κ) (l : List α) : Prop := ∀ x ∈ l, ∀ y ∈ l, key x = key y

structure IsLastRun (key : α → κ) (l run : List α) : Prop where
  suffix : run <:+ l
  uniform : Uniform key run
  longest : ∀ s, s <:+ l → Uniform key s → s <:+ run

theorem Uniform.of_concat (h : Uniform key (l ++ [x])) : Uniform key l :=
  fun y hy z hz => h y (List.mem_append_left _ hy) z (List.mem_append_left _ hz)

theorem Uniform.concat (h : Uniform key l) (hy : y ∈ l) (hx : key x = key y) :
    Uniform key (l ++ [x]) := by
  have hall : ∀ z ∈ l ++ [x], key z = key y := by
    intro z hz
    rcases List.mem_append.mp hz with hz | hz
    · exact h z hz y hy
    · rwa [List.mem_singleton.mp hz]
  intro z hz w hw
  rw [hall z hz, hall w hw]

theorem isLastRun_singleton (key : α → κ) (x : α) : IsLastRun key [x] [x] :=
  ⟨List.suffix_rfl, by simp [Uniform], fun _ hs _ => hs⟩

theorem IsLastRun.concat (h : IsLastRun key l run) (hy : y ∈ run) (hx : key x = key y) :
    IsLastRun key (l ++ [x]) (run ++ [x]) := by
  refine ⟨?_, h.uniform.concat hy hx, fun s hs huniform => ?_⟩
  · obtain ⟨before, rfl⟩ := h.suffix
    exact ⟨before, by simp⟩
  · rcases List.suffix_concat_iff.mp hs with rfl | ⟨t, rfl, ht⟩
    · exact List.nil_suffix
    · obtain ⟨before, hbefore⟩ := h.longest t ht huniform.of_concat
      exact ⟨before, by rw [← hbefore, List.append_assoc]⟩

theorem IsLastRun.restart (hlast : l.getLast? = some y) (hx : key x ≠ key y) :
    IsLastRun key (l ++ [x]) [x] := by
  refine ⟨List.suffix_append l [x], by simp [Uniform], fun s hs huniform => ?_⟩
  rcases List.suffix_concat_iff.mp hs with rfl | ⟨t, rfl, ht⟩
  · exact List.nil_suffix
  rcases List.eq_nil_or_concat t with rfl | ⟨init, z, rfl⟩
  · exact List.suffix_rfl
  · obtain ⟨before, rfl⟩ := ht
    obtain rfl : z = y := by simpa using hlast
    exact absurd (huniform x (by simp) z (by simp)) hx

end LastRun
