import QoSMos.Lib.Returns
import QoSMos.Syscall.Descriptors

/-!
# The table of descriptors

An entry is open, as `socket_close` sees it, if it has a live descriptor and is not closed. What is
expected of the table: the open entries are told apart by either of their descriptors, and each pair
of descriptors that the script holds is that of one entry. The entry of a connection that was not
accepted yet has no descriptors, that is negative ones.
-/

namespace QoSMos.Syscall

open Returns

/-- The test of `socket_close` -/
def IsOpen (fd : FdState) : Prop := fd.liveFd ≥ 0 ∧ fd.isClosed = false

instance (fd : FdState) : Decidable (IsOpen fd) := inferInstanceAs (Decidable (_ ∧ _))

def openFds (fds : List FdState) : List FdState := fds.filter (IsOpen ·)

/-- The table is right about the pairs of descriptors that the script holds. -/
structure Faithful (fds : List FdState) (held : List (Int × Int)) : Prop where
  scripts : ((openFds fds).map FdState.scriptFd).Nodup
  lives : ((openFds fds).map FdState.liveFd).Nodup
  found : ∀ pair ∈ held, ∃ fd, findByScriptFd fds pair.1 = .ok (some fd) ∧
    findByLiveFd fds pair.2 = .ok (some fd) ∧ fd.scriptFd = pair.1 ∧ fd.liveFd = pair.2

/-- What the operations keep. -/
structure TableInv (fds : List FdState) (held : List (Int × Int)) : Prop where
  ptrs : (fds.map FdState.ptr).Nodup
  fresh : ∀ fd ∈ fds, fd.ptr < fds.length
  both : ∀ fd ∈ fds, fd.isClosed = false → (fd.scriptFd ≥ 0 ↔ fd.liveFd ≥ 0)
  scripts : ∀ fd ∈ fds, ∀ fd' ∈ fds, IsOpen fd → IsOpen fd' → fd.scriptFd = fd'.scriptFd → fd = fd'
  lives : ∀ fd ∈ fds, ∀ fd' ∈ fds, IsOpen fd → IsOpen fd' → fd.liveFd = fd'.liveFd → fd = fd'
  held : ∀ pair ∈ held, ∃ fd ∈ fds, IsOpen fd ∧ fd.scriptFd = pair.1 ∧ fd.liveFd = pair.2

section Table

variable {fds fds' : List FdState} {held : List (Int × Int)} {fd fd' : FdState}
  {scriptFd liveFd : Int}

/-! ## Finding entries -/

theorem foundFd_of_open {function : String} (hopen : IsOpen fd) (hscript : fd.scriptFd ≥ 0) :
    foundFd function (some fd) = .ok (some fd) := by
  have h1 : assert (fd.liveFd ≥ 0) function "fd->live_fd >= 0" = .ok () := if_pos hopen.1
  have h2 : assert (fd.scriptFd ≥ 0) function "fd->script_fd >= 0" = .ok () := if_pos hscript
  simp only [foundFd, h1, h2]
  rfl

theorem TableInv.findByScriptFd (h : TableInv fds held) (hmem : fd ∈ fds) (hopen : IsOpen fd) :
    findByScriptFd fds fd.scriptFd = .ok (some fd) := by
  have hscript := (h.both fd hmem hopen.2).mpr hopen.1
  have hfind : (fds.find? fun e => !e.isClosed && decide (e.scriptFd = fd.scriptFd)) = some fd := by
    cases hfind : fds.find? fun e => !e.isClosed && decide (e.scriptFd = fd.scriptFd) with
    | none => simpa [hopen.2] using List.find?_eq_none.mp hfind fd hmem
    | some e =>
      have he := List.find?_some hfind
      simp only [Bool.and_eq_true, Bool.not_eq_eq_eq_not, Bool.not_true, decide_eq_true_eq] at he
      have hmem' := List.mem_of_find?_eq_some hfind
      have hopen' : IsOpen e := ⟨(h.both e hmem' he.1).mp (he.2 ▸ hscript), he.1⟩
      rw [h.scripts e hmem' fd hmem hopen' hopen he.2]
  rw [Syscall.findByScriptFd, hfind, foundFd_of_open hopen hscript]

theorem TableInv.findByLiveFd (h : TableInv fds held) (hmem : fd ∈ fds) (hopen : IsOpen fd) :
    findByLiveFd fds fd.liveFd = .ok (some fd) := by
  have hfind : (fds.find? fun e => !e.isClosed && decide (e.liveFd = fd.liveFd)) = some fd := by
    cases hfind : fds.find? fun e => !e.isClosed && decide (e.liveFd = fd.liveFd) with
    | none => simpa [hopen.2] using List.find?_eq_none.mp hfind fd hmem
    | some e =>
      have he := List.find?_some hfind
      simp only [Bool.and_eq_true, Bool.not_eq_eq_eq_not, Bool.not_true, decide_eq_true_eq] at he
      have hopen' : IsOpen e := ⟨he.2 ▸ hopen.1, he.1⟩
      rw [h.lives e (List.mem_of_find?_eq_some hfind) fd hmem hopen' hopen he.2]
  rw [Syscall.findByLiveFd, hfind, foundFd_of_open hopen ((h.both fd hmem hopen.2).mpr hopen.1)]

/-- An entry that is found is open. -/
theorem of_findByScriptFd (h : findByScriptFd fds scriptFd = .ok (some fd)) :
    fd ∈ fds ∧ IsOpen fd ∧ fd.scriptFd = scriptFd := by
  unfold Syscall.findByScriptFd at h
  cases hfind : fds.find? fun e => !e.isClosed && decide (e.scriptFd = scriptFd) with
  | none =>
    rw [hfind] at h
    cases h
  | some e =>
    rw [hfind] at h
    obtain ⟨_, hlive, h⟩ := bind_eq_ok_iff.mp h
    obtain ⟨_, -, h⟩ := bind_eq_ok_iff.mp h
    obtain rfl : e = fd := Option.some.inj (pure_eq_ok_iff.mp h)
    have he := List.find?_some hfind
    simp only [Bool.and_eq_true, Bool.not_eq_eq_eq_not, Bool.not_true, decide_eq_true_eq] at he
    have hlive : e.liveFd ≥ 0 := by
      by_contra hneg
      simp [assert, hneg] at hlive
    exact ⟨List.mem_of_find?_eq_some hfind, ⟨hlive, he.1⟩, he.2⟩

theorem foundFd_eq_none {function : String} {found : Option FdState}
    (h : foundFd function found = .ok none) : found = none := by
  cases found with
  | none => rfl
  | some fd =>
    obtain ⟨_, -, h⟩ := bind_eq_ok_iff.mp h
    obtain ⟨_, -, h⟩ := bind_eq_ok_iff.mp h
    cases Option.some_ne_none _ (pure_eq_ok_iff.mp h)

/-- After the check no entry that is not closed has one of the descriptors. -/
theorem of_checkDuplicateFd (h : checkDuplicateFd fds scriptFd liveFd = .ok ()) :
    ∀ fd ∈ fds, fd.isClosed = false → fd.scriptFd ≠ scriptFd ∧ fd.liveFd ≠ liveFd := by
  obtain ⟨found, hscript, h⟩ := bind_eq_ok_iff.mp h
  split at h
  · cases h
  · rename_i hnone
    obtain rfl : found = none := by simpa using hnone
    obtain ⟨found, hlive, h⟩ := bind_eq_ok_iff.mp h
    split at h
    · cases h
    · rename_i hnone
      obtain rfl : found = none := by simpa using hnone
      intro fd hmem hclosed
      have h1 := List.find?_eq_none.mp (foundFd_eq_none hscript) fd hmem
      have h2 := List.find?_eq_none.mp (foundFd_eq_none hlive) fd hmem
      simpa [hclosed] using And.intro h1 h2

theorem TableInv.faithful (h : TableInv fds held) : Faithful fds held := by
  have hnodup : (openFds fds).Nodup := (List.Nodup.of_map _ h.ptrs).filter _
  have hopen : ∀ fd, fd ∈ openFds fds → fd ∈ fds ∧ IsOpen fd := by simp [openFds]
  refine ⟨hnodup.map_on ?_, hnodup.map_on ?_, ?_⟩
  · intro fd hfd fd' hfd'
    exact h.scripts fd (hopen fd hfd).1 fd' (hopen fd' hfd').1 (hopen fd hfd).2 (hopen fd' hfd').2
  · intro fd hfd fd' hfd'
    exact h.lives fd (hopen fd hfd).1 fd' (hopen fd' hfd').1 (hopen fd hfd).2 (hopen fd' hfd').2
  · intro pair hpair
    obtain ⟨fd, hmem, hisopen, hscript, hlive⟩ := h.held pair hpair
    exact ⟨fd, hscript ▸ h.findByScriptFd hmem hisopen, hlive ▸ h.findByLiveFd hmem hisopen,
      hscript, hlive⟩

/-! ## Operations -/

theorem tableInv_nil : TableInv [] [] := by
  constructor <;> simp

/-- A new entry, which no open entry is to be mistaken for. -/
theorem TableInv.add (h : TableInv fds held) {type : FdType}
    (hboth : scriptFd ≥ 0 ↔ liveFd ≥ 0)
    (hscript : ∀ fd ∈ fds, IsOpen fd → liveFd ≥ 0 → fd.scriptFd ≠ scriptFd)
    (hlive : ∀ fd ∈ fds, IsOpen fd → fd.liveFd ≠ liveFd) :
    TableInv (stateAddFd fds type scriptFd liveFd) held := by
  have hnew : ∀ fd ∈ fds, fd.ptr ≠ fds.length := fun fd hmem => (h.fresh fd hmem).ne
  refine ⟨?_, ?_, ?_, ?_, ?_, ?_⟩
  · simpa [stateAddFd, h.ptrs] using hnew
  · simp only [stateAddFd, List.forall_mem_cons, List.length_cons]
    exact ⟨by omega, fun fd hmem => (h.fresh fd hmem).trans (by omega)⟩
  · simp only [stateAddFd, List.forall_mem_cons]
    exact ⟨fun _ => hboth, h.both⟩
  · simp only [stateAddFd, List.forall_mem_cons]
    refine ⟨⟨fun _ _ _ => trivial, fun fd hmem hopen hopen' heq => ?_⟩,
      fun fd hmem => ⟨?_, h.scripts fd hmem⟩⟩
    · exact absurd heq.symm (hscript fd hmem hopen' hopen.1)
    · exact fun hopen hopen' heq => absurd heq (hscript fd hmem hopen hopen'.1)
  · simp only [stateAddFd, List.forall_mem_cons]
    refine ⟨⟨fun _ _ _ => trivial, fun fd hmem hopen hopen' heq => ?_⟩,
      fun fd hmem => ⟨?_, h.lives fd hmem⟩⟩
    · exact absurd heq.symm (hlive fd hmem hopen')
    · exact fun hopen hopen' heq => absurd heq (hlive fd hmem hopen)
  · intro pair hpair
    obtain ⟨fd, hmem, hfd⟩ := h.held pair hpair
    exact ⟨fd, List.mem_cons_of_mem _ hmem, hfd⟩

/-- The script gets to hold the pair of an open entry. -/
theorem TableInv.hold (h : TableInv fds held) (hmem : fd ∈ fds) (hopen : IsOpen fd) :
    TableInv fds ((fd.scriptFd, fd.liveFd) :: held) :=
  { h with held := by simpa using ⟨⟨fd, hmem, hopen, rfl, rfl⟩, by simpa using h.held⟩ }

/-- A new entry for a pair of descriptors that no open entry has. -/
theorem TableInv.grant (h : TableInv fds held) {type : FdType} (hnonneg : scriptFd ≥ 0)
    (hlive : liveFd ≥ 0)
    (hdistinct : ∀ fd ∈ fds, IsOpen fd → fd.scriptFd ≠ scriptFd ∧ fd.liveFd ≠ liveFd) :
    TableInv (stateAddFd fds type scriptFd liveFd) ((scriptFd, liveFd) :: held) :=
  (h.add ⟨fun _ => hlive, fun _ => hnonneg⟩ (fun fd hmem hopen _ => (hdistinct fd hmem hopen).1)
    fun fd hmem hopen => (hdistinct fd hmem hopen).2).hold List.mem_cons_self ⟨hlive, rfl⟩

/-- A packet may create the socket of a connection, which gets its descriptors later. -/
theorem TableInv.addPassive (h : TableInv fds held) {socket : SocketInfo} :
    TableInv (stateAddFd fds (.socket socket) (-1) (-1)) held :=
  h.add (by decide) (fun _ _ _ hneg => absurd hneg (by decide)) fun fd _ hopen heq => by
    have := hopen.1
    omega

/-- What an entry holds besides its descriptors is of no account. -/
theorem TableInv.retype (h : TableInv fds held) (g : FdState → FdType) :
    TableInv (fds.map fun fd => { fd with type := g fd }) held := by
  have hptr : (fds.map fun fd => { fd with type := g fd }).map FdState.ptr =
      fds.map FdState.ptr := by
    simp
  refine ⟨hptr ▸ h.ptrs, ?_, ?_, ?_, ?_, ?_⟩
  · simpa [List.forall_mem_map] using h.fresh
  · simpa only [List.forall_mem_map] using h.both
  · simp only [List.forall_mem_map]
    intro fd hmem fd' hmem' hopen hopen' heq
    rw [h.scripts fd hmem fd' hmem' hopen hopen' heq]
  · simp only [List.forall_mem_map]
    intro fd hmem fd' hmem' hopen hopen' heq
    rw [h.lives fd hmem fd' hmem' hopen hopen' heq]
  · intro pair hpair
    obtain ⟨fd, hmem, hfd⟩ := h.held pair hpair
    exact ⟨_, List.mem_map_of_mem hmem, hfd⟩

theorem TableInv.setSocket (h : TableInv fds held) (ptr : Nat) (socket : SocketInfo) :
    TableInv (Syscall.setSocket fds ptr socket) held := by
  have heq : Syscall.setSocket fds ptr socket =
      fds.map fun fd => { fd with type := if fd.ptr = ptr then .socket socket else fd.type } := by
    refine List.map_congr_left fun fd _ => ?_
    split <;> rfl
  rw [heq]
  exact h.retype _

/-- The entries after one of them was changed. -/
theorem TableInv.mem_updateFd (h : TableInv fds held) (hmem : fd ∈ fds) {f : FdState → FdState} :
    fd' ∈ updateFd fds fd.ptr f ↔ fd' = f fd ∨ fd' ∈ fds ∧ fd' ≠ fd := by
  have hinj : ∀ e ∈ fds, e.ptr = fd.ptr → e = fd := fun e he heq =>
    List.inj_on_of_nodup_map h.ptrs he hmem heq
  simp only [updateFd, List.mem_map]
  constructor
  · rintro ⟨e, he, rfl⟩
    by_cases hptr : e.ptr = fd.ptr
    · rw [if_pos hptr, hinj e he hptr]
      exact .inl rfl
    · rw [if_neg hptr]
      exact .inr ⟨he, fun heq => hptr (heq ▸ rfl)⟩
  · rintro (rfl | ⟨he, hne⟩)
    · exact ⟨fd, hmem, if_pos rfl⟩
    · exact ⟨fd', he, if_neg fun hptr => hne (hinj fd' he hptr)⟩

theorem TableInv.ptrs_updateFd (h : TableInv fds held) {ptr : Nat} {f : FdState → FdState}
    (hf : ∀ fd, (f fd).ptr = fd.ptr) : ((updateFd fds ptr f).map FdState.ptr).Nodup := by
  have heq : (updateFd fds ptr f).map FdState.ptr = fds.map FdState.ptr := by
    rw [updateFd, List.map_map]
    refine List.map_congr_left fun fd _ => ?_
    simp only [Function.comp]
    split
    · exact hf fd
    · rfl
  rw [heq]
  exact h.ptrs

/-- The entry that was closed is that of no pair any more. -/
theorem TableInv.close (h : TableInv fds held) (hmem : fd ∈ fds) (hopen : IsOpen fd) :
    TableInv (updateFd fds fd.ptr fun fd => { fd with isClosed := true })
      (held.filter (· ≠ (fd.scriptFd, fd.liveFd))) := by
  have hof : ∀ e ∈ updateFd fds fd.ptr fun fd => { fd with isClosed := true },
      e.isClosed = false → e ∈ fds := by
    intro e he hclosed
    rcases (h.mem_updateFd hmem).mp he with rfl | ⟨he, -⟩
    · cases hclosed
    · exact he
  refine ⟨h.ptrs_updateFd fun _ => rfl, ?_, ?_, ?_, ?_, ?_⟩
  · intro e he
    rw [updateFd, List.length_map]
    rcases (h.mem_updateFd hmem).mp he with rfl | ⟨he, -⟩
    · exact h.fresh fd hmem
    · exact h.fresh e he
  · exact fun e he hclosed => h.both e (hof e he hclosed) hclosed
  · exact fun e he e' he' hopen hopen' =>
      h.scripts e (hof e he hopen.2) e' (hof e' he' hopen'.2) hopen hopen'
  · exact fun e he e' he' hopen hopen' =>
      h.lives e (hof e he hopen.2) e' (hof e' he' hopen'.2) hopen hopen'
  · intro pair hpair
    obtain ⟨hheld, hne⟩ := List.mem_filter.mp hpair
    obtain ⟨e, he, hopen', hscript, hlive⟩ := h.held pair hheld
    refine ⟨e, (h.mem_updateFd hmem).mpr (.inr ⟨he, ?_⟩), hopen', hscript, hlive⟩
    rintro rfl
    exact of_decide_eq_true hne (Prod.ext hscript.symm hlive.symm)

/-- An entry without descriptors gets a pair that no open entry has. -/
theorem TableInv.assign (h : TableInv fds held) (hmem : fd ∈ fds) (hnone : fd.liveFd < 0)
    (hclosed : fd.isClosed = false) (hnonneg : scriptFd ≥ 0) (hlive : liveFd ≥ 0)
    (hdistinct : ∀ fd ∈ fds, IsOpen fd → fd.scriptFd ≠ scriptFd ∧ fd.liveFd ≠ liveFd) :
    TableInv (updateFd fds fd.ptr fun fd => { fd with scriptFd, liveFd })
      ((scriptFd, liveFd) :: held) := by
  have hnot : ¬ IsOpen fd := fun hopen => by
    have := hopen.1
    omega
  refine ⟨h.ptrs_updateFd fun _ => rfl, ?_, ?_, ?_, ?_, ?_⟩
  · intro e he
    rw [updateFd, List.length_map]
    rcases (h.mem_updateFd hmem).mp he with rfl | ⟨he, -⟩
    · exact h.fresh fd hmem
    · exact h.fresh e he
  · intro e he hc
    rcases (h.mem_updateFd hmem).mp he with rfl | ⟨he, -⟩
    · exact ⟨fun _ => hlive, fun _ => hnonneg⟩
    · exact h.both e he hc
  · intro e he e' he' hopen hopen' heq
    rcases (h.mem_updateFd hmem).mp he with rfl | ⟨he, -⟩ <;>
      rcases (h.mem_updateFd hmem).mp he' with rfl | ⟨he', -⟩
    · rfl
    · exact absurd heq.symm (hdistinct e' he' hopen').1
    · exact absurd heq (hdistinct e he hopen).1
    · exact h.scripts e he e' he' hopen hopen' heq
  · intro e he e' he' hopen hopen' heq
    rcases (h.mem_updateFd hmem).mp he with rfl | ⟨he, -⟩ <;>
      rcases (h.mem_updateFd hmem).mp he' with rfl | ⟨he', -⟩
    · rfl
    · exact absurd heq.symm (hdistinct e' he' hopen').2
    · exact absurd heq (hdistinct e he hopen).2
    · exact h.lives e he e' he' hopen hopen' heq
  · intro pair hpair
    rcases List.mem_cons.mp hpair with rfl | hpair
    · exact ⟨_, (h.mem_updateFd hmem).mpr (.inl rfl), ⟨hlive, hclosed⟩, rfl, rfl⟩
    · obtain ⟨e, he, hopen, heq⟩ := h.held pair hpair
      exact ⟨e, (h.mem_updateFd hmem).mpr (.inr ⟨he, fun hfd => hnot (hfd ▸ hopen)⟩), hopen, heq⟩

end Table

end QoSMos.Syscall
