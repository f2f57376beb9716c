import Mathlib.Data.List.Range
import Mathlib.Data.Nat.Bitwise
import QoSMos.Build.Program
import QoSMos.Lib.Returns

/-!
# Names of flags

`flags_to_string` of `script.c`, by which `pollfds_check` shows the events of a descriptor, and its
table `poll_flags`. The search in the table is to end at an entry without a name, and the last entry
of the table has the empty name.
-/

namespace QoSMos.Script

open Returns

/-! ## The program -/

/-- `struct flag_name`; a null pointer is `none`. -/
structure FlagName where
  flag : UInt64
  name : Option String
  deriving DecidableEq, Repr

/-- The macros of `poll.h`. The ones that `poll_flags` asks for with `#ifdef` may be missing. -/
structure PollMacros where
  pollin : UInt64
  pollpri : UInt64
  pollout : UInt64
  pollrdnorm : Option UInt64
  pollrdband : Option UInt64
  pollwrnorm : Option UInt64
  pollwrband : Option UInt64
  pollmsg : Option UInt64
  pollremove : Option UInt64
  pollrdhup : Option UInt64
  pollinigneof : Option UInt64
  pollerr : UInt64
  pollhup : UInt64
  pollnval : UInt64

/-- The names of `poll_flags`, each with its macro. -/
def PollMacros.named (macros : PollMacros) : List (String × Option UInt64) :=
  [("POLLIN", some macros.pollin), ("POLLPRI", some macros.pollpri),
    ("POLLOUT", some macros.pollout), ("POLLRDNORM", macros.pollrdnorm),
    ("POLLRDBAND", macros.pollrdband), ("POLLWRNORM", macros.pollwrnorm),
    ("POLLWRBAND", macros.pollwrband), ("POLLMSG", macros.pollmsg),
    ("POLLREMOVE", macros.pollremove), ("POLLRDHUP", macros.pollrdhup),
    ("POLLINIGNEOF", macros.pollinigneof), ("POLLERR", some macros.pollerr),
    ("POLLHUP", some macros.pollhup), ("POLLNVAL", some macros.pollnval)]

/-- `poll_flags`, with the entries of the macros that are defined. -/
def pollFlags (macros : PollMacros) : List FlagName :=
  (macros.named.filterMap fun entry => entry.2.map fun flag => ⟨flag, some entry.1⟩) ++
    [⟨0, some ""⟩]

/-- `flag_name` of the entries from `flags_array` on. Behind the array is no entry to read. -/
def flagName : List FlagName → UInt64 → Except Halt (Option String)
  | [], _ => .error (.undefined "flag_name" "flags_array->name")
  | entry :: rest, flag =>
    if entry.name ≠ none ∧ entry.flag ≠ flag then flagName rest flag
    else if entry.flag = flag then .ok entry.name
    else .ok (some "???")

/-- What `asprintf` prints for `%s`. -/
def printedName : Option String → String
  | some name => name
  | none => "(null)"

/-- `n` turns of the loop of `flags_to_string`. -/
def flagsLoop (flagsArray : List FlagName) (flags : UInt64) :
    Nat → UInt64 → String → Except Halt String
  | 0, _, out => .ok out
  | n + 1, bitMask, out =>
    if flags &&& bitMask ≠ 0 then do
      let name ← flagName flagsArray bitMask
      let separator := if out = "" then "" else "|"
      flagsLoop flagsArray flags n (bitMask <<< 1) (out ++ separator ++ printedName name)
    else flagsLoop flagsArray flags n (bitMask <<< 1) out

/-- `flags_to_string` -/
def flagsToString (flagsArray : List FlagName) (flags : UInt64) : Except Halt String :=
  flagsLoop flagsArray flags 64 1 ""

/-! ## The text of a set of flags -/

/-- The first of the table's names for a bit. -/
def nameOfBit (flagsArray : List FlagName) (bit : Nat) : String :=
  match flagsArray.find? fun entry => entry.flag.toNat = 2 ^ bit with
  | some entry => printedName entry.name
  | none => "???"

/-- The bits that are set in `flags`, `n` of them being looked at from the bit `i` on. -/
def setBits (flags : UInt64) (i n : Nat) : List Nat :=
  (List.range' i n).filter fun bit => flags.toNat.testBit bit

/-- The names of the set bits from the lowest to the highest. -/
def flagsText (flagsArray : List FlagName) (flags : UInt64) : String :=
  "|".intercalate ((setBits flags 0 64).map (nameOfBit flagsArray))

/-- No entry is read but those of the table, and the result is the text of the flags. -/
def RendersFlags (flagsArray : List FlagName) (flags : UInt64) : Prop :=
  flagsToString flagsArray flags = .ok (flagsText flagsArray flags)

def HasEntry (flagsArray : List FlagName) (bit : Nat) : Prop :=
  ∃ entry ∈ flagsArray, entry.flag.toNat = 2 ^ bit

/-- Each bit that is set has an entry in the table. -/
def Covered (flagsArray : List FlagName) (flags : UInt64) : Prop :=
  ∀ bit ∈ setBits flags 0 64, HasEntry flagsArray bit

instance (flagsArray : List FlagName) (bit : Nat) : Decidable (HasEntry flagsArray bit) :=
  inferInstanceAs (Decidable (∃ _ ∈ _, _))

instance (flagsArray : List FlagName) (flags : UInt64) : Decidable (Covered flagsArray flags) :=
  inferInstanceAs (Decidable (∀ _ ∈ _, _))

/-- Every entry has a name, and an empty one only where it has no flag. -/
def Named (flagsArray : List FlagName) : Prop :=
  ∀ entry ∈ flagsArray, entry.name ≠ none ∧ (entry.flag ≠ 0 → entry.name ≠ some "")

theorem named_pollFlags (macros : PollMacros) : Named (pollFlags macros) := by
  intro entry hmem
  rw [pollFlags, List.mem_append, List.mem_filterMap, List.mem_singleton] at hmem
  obtain ⟨⟨name, flag⟩, hname, hentry⟩ | rfl := hmem
  · have hnonempty : name ≠ "" := by
      have hall : ∀ n ∈ macros.named.map Prod.fst, n ≠ "" := by
        simp [PollMacros.named]
      exact hall name (List.mem_map_of_mem hname)
    obtain ⟨value, -, rfl⟩ := Option.map_eq_some_iff.mp hentry
    simp [hnonempty]
  · simp

section Rendering

variable {flagsArray : List FlagName} {flags mask : UInt64} {bit i n : Nat} {text : String}

/-- The search ends at an entry of the flag, or behind the table. -/
theorem flagName_eq (hnamed : Named flagsArray) (flag : UInt64) :
    flagName flagsArray flag =
      match flagsArray.find? fun entry => entry.flag = flag with
      | some entry => .ok entry.name
      | none => .error (.undefined "flag_name" "flags_array->name") := by
  induction flagsArray with
  | nil => rfl
  | cons entry rest ih =>
    have hname := (hnamed entry List.mem_cons_self).1
    have hrest := ih fun e he => hnamed e (List.mem_cons_of_mem _ he)
    by_cases hflag : entry.flag = flag
    · simp [flagName, hflag]
    · simp [flagName, hflag, hname, hrest]

theorem hasEntry_iff_find? :
    HasEntry flagsArray bit ↔ ∃ entry,
      (flagsArray.find? fun entry => entry.flag.toNat = 2 ^ bit) = some entry := by
  rw [← Option.isSome_iff_exists, List.find?_isSome]
  simp [HasEntry]

/-- The search for a bit ends inside the table if the bit has an entry there. -/
theorem flagName_eq_ok_iff (hnamed : Named flagsArray) (hmask : mask.toNat = 2 ^ bit)
    {name : Option String} :
    flagName flagsArray mask = .ok name ↔
      HasEntry flagsArray bit ∧ name = some (nameOfBit flagsArray bit) := by
  have hfind : (flagsArray.find? fun entry => entry.flag = mask) =
      flagsArray.find? fun entry => entry.flag.toNat = 2 ^ bit := by
    simp only [← hmask, UInt64.toNat_inj]
  rw [flagName_eq hnamed, hfind, hasEntry_iff_find?, nameOfBit]
  cases hentry : flagsArray.find? fun entry => entry.flag.toNat = 2 ^ bit with
  | none => simp
  | some entry =>
    have hname := (hnamed entry (List.mem_of_find?_eq_some hentry)).1
    obtain ⟨text, htext⟩ := Option.ne_none_iff_exists'.mp hname
    simp [htext, printedName, eq_comm]

theorem nameOfBit_ne_empty (hnamed : Named flagsArray) : nameOfBit flagsArray bit ≠ "" := by
  unfold nameOfBit
  cases hentry : flagsArray.find? fun entry => entry.flag.toNat = 2 ^ bit with
  | none => simp
  | some entry =>
    obtain ⟨hname, hempty⟩ := hnamed entry (List.mem_of_find?_eq_some hentry)
    have hflag : entry.flag.toNat = 2 ^ bit := by simpa using List.find?_some hentry
    have hne : entry.flag ≠ 0 := by
      intro hzero
      rw [hzero] at hflag
      exact absurd hflag.symm (by simp)
    obtain ⟨text, htext⟩ := Option.ne_none_iff_exists'.mp hname
    have hnonempty := hempty hne
    simp only [htext, printedName]
    grind

/-- The separator is left out in front of the first name. -/
theorem intercalate_snoc {names : List String} (hnames : ∀ name ∈ names, name ≠ "")
    (name : String) : "|".intercalate (names ++ [name]) =
      "|".intercalate names ++ (if "|".intercalate names = "" then "" else "|") ++ name := by
  cases names with
  | nil => simp
  | cons first rest =>
    have hne : "|".intercalate (first :: rest) ≠ "" := by
      have hfirst := hnames first List.mem_cons_self
      cases rest <;> simp [hfirst]
    rw [if_neg hne, String.intercalate_append_of_ne_nil (by simp) (by simp),
      String.intercalate_singleton]

theorem and_ne_zero_iff (hi : i < 64) (hmask : mask.toNat = 2 ^ i % 2 ^ 64) :
    flags &&& mask ≠ 0 ↔ flags.toNat.testBit i = true := by
  have hlt : 2 ^ i < 2 ^ 64 := Nat.pow_lt_pow_right (by decide) hi
  rw [ne_eq, ← UInt64.toNat_inj, UInt64.toNat_and, hmask, Nat.mod_eq_of_lt hlt, Nat.and_two_pow]
  cases flags.toNat.testBit i <;> simp

/-- `n` turns of the loop from the bit `i` on add the names of the bits set there. -/
theorem flagsLoop_eq_ok_iff (hnamed : Named flagsArray) (hi : i + n = 64)
    (hmask : mask.toNat = 2 ^ i % 2 ^ 64) {names : List String}
    (hnames : ∀ name ∈ names, name ≠ "") :
    flagsLoop flagsArray flags n mask ("|".intercalate names) = .ok text ↔
      (∀ bit ∈ setBits flags i n, HasEntry flagsArray bit) ∧
      text = "|".intercalate (names ++ (setBits flags i n).map (nameOfBit flagsArray)) := by
  induction n generalizing i mask names with
  | zero => simp [flagsLoop, setBits, eq_comm]
  | succ n ih =>
    have hlt : i < 64 := by omega
    have hnext : (mask <<< 1).toNat = 2 ^ (i + 1) % 2 ^ 64 := by
      rw [UInt64.toNat_shiftLeft, hmask, Nat.mod_eq_of_lt (Nat.pow_lt_pow_right (by decide) hlt)]
      simp [Nat.shiftLeft_eq, pow_succ]
    have hbits : setBits flags i (n + 1) =
        if flags.toNat.testBit i then i :: setBits flags (i + 1) n
        else setBits flags (i + 1) n := by
      simp [setBits, List.range'_succ, List.filter_cons]
    rw [flagsLoop, hbits]
    by_cases hbit : flags.toNat.testBit i = true
    · rw [if_pos ((and_ne_zero_iff hlt hmask).mpr hbit), if_pos hbit]
      have hmask' : mask.toNat = 2 ^ i := by
        rw [hmask, Nat.mod_eq_of_lt (Nat.pow_lt_pow_right (by decide) hlt)]
      have hmore : ∀ name ∈ names ++ [nameOfBit flagsArray i], name ≠ "" := by
        intro name hmem
        rcases List.mem_append.mp hmem with hmem | hmem
        · exact hnames name hmem
        · rw [List.mem_singleton.mp hmem]
          exact nameOfBit_ne_empty hnamed
      have hrest := ih (by omega) hnext hmore
      rw [intercalate_snoc hnames] at hrest
      constructor
      · intro hok
        obtain ⟨name, hname, hok⟩ := bind_eq_ok_iff.mp hok
        obtain ⟨hentry, rfl⟩ := (flagName_eq_ok_iff hnamed hmask').mp hname
        obtain ⟨hall, htext⟩ := hrest.mp hok
        exact ⟨List.forall_mem_cons.mpr ⟨hentry, hall⟩, by simpa using htext⟩
      · rintro ⟨hall, htext⟩
        obtain ⟨hentry, hall⟩ := List.forall_mem_cons.mp hall
        refine bind_eq_ok_iff.mpr ⟨_, (flagName_eq_ok_iff hnamed hmask').mpr ⟨hentry, rfl⟩, ?_⟩
        exact hrest.mpr ⟨hall, by simpa using htext⟩
    · rw [if_neg ((and_ne_zero_iff hlt hmask).not.mpr hbit), if_neg hbit]
      exact ih (by omega) hnext hnames

end Rendering

/-- The flags are shown as they should be if and only if each of them is in the table. -/
theorem rendersFlags_iff (macros : PollMacros) (flags : UInt64) :
    RendersFlags (pollFlags macros) flags ↔ Covered (pollFlags macros) flags := by
  have hstart : "" = "|".intercalate [] := rfl
  rw [RendersFlags, flagsToString, hstart,
    flagsLoop_eq_ok_iff (named_pollFlags macros) rfl rfl (by simp)]
  exact and_iff_left rfl

/-- `poll.h` of Linux. -/
def linuxPoll : PollMacros where
  pollin := 0x1
  pollpri := 0x2
  pollout := 0x4
  pollrdnorm := some 0x40
  pollrdband := some 0x80
  pollwrnorm := some 0x100
  pollwrband := some 0x200
  pollmsg := some 0x400
  pollremove := some 0x1000
  pollrdhup := some 0x2000
  pollinigneof := none
  pollerr := 0x8
  pollhup := 0x10
  pollnval := 0x20

example : flagsText (pollFlags linuxPoll) 0x2811 = "POLLIN|POLLHUP|???|POLLRDHUP" := by decide

/-- No entry is there for the bit 11. -/
theorem not_forall_rendersFlags : ¬ ∀ flags, RendersFlags (pollFlags linuxPoll) flags := by
  intro h
  have hundefined : flagsToString (pollFlags linuxPoll) 0x800 =
      .error (.undefined "flag_name" "flags_array->name") := by decide
  exact absurd (hundefined.symm.trans (h 0x800)) (by simp)

end QoSMos.Script
