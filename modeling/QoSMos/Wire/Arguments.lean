import QoSMos.Build.Program
import QoSMos.Lib.Traced
import QoSMos.Wire.Framing
import QoSMos.Wire.Program

/-!
# The arguments of the client

The client sends its arguments in one message, each with its terminator, and the server makes an
argument vector of it. The server's function notes the positions of the message's buffer that it
reads; behind the message the buffer has some more bytes.
-/

namespace QoSMos.Wire

/-! ## The program -/

/-- `"-wire_client"` -/
def WIRE_CLIENT : List UInt8 :=
  ['-', 'w', 'i', 'r', 'e', '_', 'c', 'l', 'i', 'e', 'n', 't'].map fun c => UInt8.ofNat c.toNat

/-- `"--wire_server"` -/
def WIRE_SERVER : List UInt8 :=
  ['-', '-', 'w', 'i', 'r', 'e', '_', 's', 'e', 'r', 'v', 'e', 'r'].map fun c =>
    UInt8.ofNat c.toNat

/-- `strstr(arg, "-wire_client")` -/
def IsWireClient (arg : CString) : Prop := WIRE_CLIENT <:+: arg.val

instance : DecidablePred IsWireClient := fun arg => inferInstanceAs (Decidable (_ <:+: arg.val))

/-- A string with its terminator. -/
def CString.terminated (arg : CString) : List UInt8 := arg.val ++ [0]

/-- The first loop of `wire_client_serialize_argv`: the length of what is sent. -/
def argsLen : List CString → Nat
  | [] => 0
  | arg :: argv =>
    if IsWireClient arg then argsLen argv else arg.val.length + 1 + argsLen argv

/-- The second loop: what is sent. -/
def serializeArgs : List CString → List UInt8
  | [] => []
  | arg :: argv =>
    if IsWireClient arg then serializeArgs argv else arg.val ++ 0 :: serializeArgs argv

/-- `wire_client_serialize_argv`, whose `args_len` is an `int` -/
def wireClientSerializeArgv (argv : List CString) : Except Halt (List UInt8) := do
  let function := "wire_client_serialize_argv"
  let len := toInt (argsLen argv)
  let args := serializeArgs argv
  if len < args.length then throw (.undefined function "memcpy(end, argv[i], len)")
  require (len = args.length) function "end == args + args_len"
  return args

/-- `strdup(end)`; `strlen(end)` reads the same bytes again. -/
def strdup : List UInt8 → Nat → Traced Nat Halt (List UInt8)
  | [], position => do
    Traced.touch [position]
    Traced.lift (.error (.undefined "wire_server_unserialize_argv" "strdup(end)"))
  | byte :: buf, position => do
    Traced.touch [position]
    if byte = 0 then return []
    else
      let arg ← strdup buf (position + 1)
      return byte :: arg

/-- `n` turns of the second loop of `wire_server_unserialize_argv`, with `end` and its position -/
def unserializeArgs : Nat → List UInt8 → Nat → Traced Nat Halt (List (List UInt8))
  | 0, _, _ => return []
  | n + 1, buf, position => do
    let arg ← strdup buf position
    let argv ← unserializeArgs n (buf.drop (arg.length + 1)) (position + arg.length + 1)
    return arg :: argv

/-- `wire_server_unserialize_argv` of a message behind which the buffer has `rest`; `none` is the
`NULL` at the end. -/
def wireServerUnserializeArgv (args rest : List UInt8) :
    Traced Nat Halt (List (Option (List UInt8))) := do
  Traced.touch (List.range args.length)
  let argc := args.count 0 + 1
  let argv ← unserializeArgs argc (args ++ rest) 0
  return (argv.set (argc - 1) WIRE_SERVER).map some ++ [none]

/-! ## The argument vector -/

/-- The client's arguments as the server is to have them. -/
def serverArgv (argv : List CString) : List (Option (List UInt8)) :=
  (argv.filter fun arg => ¬ IsWireClient arg).map (fun arg => some arg.val) ++
    [some WIRE_SERVER, none]

/-- No byte is read but those of the message. -/
def ReadsInside (args rest : List UInt8) : Prop :=
  (wireServerUnserializeArgv args rest).Within (· < args.length)

/-- The server gets the client's arguments, and gets them from the message alone. -/
def RoundTrip (argv : List CString) (rest : List UInt8) : Prop :=
  ∃ args, wireClientSerializeArgv argv = .ok args ∧
    (wireServerUnserializeArgv args rest).result = .ok (serverArgv argv) ∧ ReadsInside args rest

section Unserialize

variable {arg args buf rest : List UInt8} {argv : List CString} {n position : Nat}

theorem strdup_result (harg : 0 ∉ arg) :
    (strdup (arg ++ 0 :: rest) position).result = .ok arg := by
  induction arg generalizing position with
  | nil => simp [strdup, bind]
  | cons byte arg ih =>
    obtain ⟨hbyte, harg⟩ := not_or.mp (mt List.mem_cons.mpr harg)
    simp [strdup, Ne.symm hbyte, ih harg, bind]

/-- Where no byte of the message is a terminator, the byte behind it is read. -/
theorem not_within_strdup (hargs : 0 ∉ args) :
    ¬ (strdup (args ++ rest) position).Within (· < position + args.length) := by
  intro hwithin
  induction args generalizing position with
  | nil =>
    cases rest with
    | nil => exact Nat.lt_irrefl _ (hwithin position List.mem_cons_self)
    | cons byte rest => exact Nat.lt_irrefl _ (hwithin position List.mem_cons_self)
  | cons byte args ih =>
    obtain ⟨hbyte, hargs⟩ := not_or.mp (mt List.mem_cons.mpr hargs)
    rw [List.cons_append, strdup, if_neg (Ne.symm hbyte), Traced.within_bind] at hwithin
    have hlater := (Traced.within_bind.mp (hwithin.2 _ rfl)).1
    rw [List.length_cons, ← Nat.add_assoc, Nat.add_right_comm] at hlater
    exact ih hargs hlater

/-- As many strings as there are terminators are inside the message; one more is not. -/
theorem not_within_unserializeArgs (hn : args.count 0 < n) :
    ¬ (unserializeArgs n (args ++ rest) position).Within (· < position + args.length) := by
  intro hwithin
  induction n generalizing args position with
  | zero => exact Nat.not_lt_zero _ hn
  | succ n ih =>
    rw [unserializeArgs, Traced.within_bind] at hwithin
    obtain ⟨hfirst, hrest⟩ := hwithin
    by_cases hmem : 0 ∈ args
    · obtain ⟨arg, more, rfl, harg⟩ := List.eq_append_cons_of_mem hmem
      rw [List.append_assoc] at hrest
      have hlater := (Traced.within_bind.mp (hrest arg (strdup_result harg))).1
      have hdrop : (arg ++ (0 :: more ++ rest)).drop (arg.length + 1) = more ++ rest := by simp
      have hlength : position + (arg ++ 0 :: more).length =
          position + arg.length + 1 + more.length := by simp; omega
      rw [hdrop, hlength] at hlater
      refine ih ?_ hlater
      rw [List.count_append, List.count_cons_self] at hn
      omega
    · exact not_within_strdup hmem hfirst

/-- Every message is read beyond its end. -/
theorem not_readsInside : ¬ ReadsInside args rest := by
  intro hinside
  rw [ReadsInside, wireServerUnserializeArgv, Traced.within_bind] at hinside
  have hloop := (Traced.within_bind.mp (hinside.2 _ rfl)).1
  rw [← Nat.zero_add args.length] at hloop
  exact not_within_unserializeArgs (Nat.lt_succ_self _) hloop

/-- The strings at the front of the buffer are taken apart, and so is the one that follows. -/
theorem unserializeArgs_result (strings : List CString) (last : CString) :
    (unserializeArgs (strings.length + 1)
      (strings.flatMap CString.terminated ++ (last.val ++ 0 :: rest)) position).result =
        .ok (strings.map Subtype.val ++ [last.val]) := by
  induction strings generalizing position with
  | nil => simp [unserializeArgs, strdup_result last.property, bind]
  | cons arg strings ih =>
    have hsplit : (arg :: strings).flatMap CString.terminated ++ (last.val ++ 0 :: rest) =
        arg.val ++ 0 :: (strings.flatMap CString.terminated ++ (last.val ++ 0 :: rest)) := by
      simp [CString.terminated]
    have hdrop : (arg.val ++ 0 :: (strings.flatMap CString.terminated ++
        (last.val ++ 0 :: rest))).drop (arg.val.length + 1) =
          strings.flatMap CString.terminated ++ (last.val ++ 0 :: rest) := by simp
    rw [hsplit, List.length_cons, unserializeArgs, Traced.result_bind,
      strdup_result arg.property]
    change (_ >>= _ : Traced Nat Halt _).result = _
    rw [hdrop, Traced.result_bind, ih]
    rfl

/-- What the client sends are its other arguments, each with its terminator. -/
theorem serializeArgs_eq : serializeArgs argv =
    (argv.filter fun arg => ¬ IsWireClient arg).flatMap CString.terminated := by
  induction argv with
  | nil => rfl
  | cons arg argv ih =>
    by_cases h : IsWireClient arg
    · simp [serializeArgs, h, ih]
    · simp [serializeArgs, h, ih, CString.terminated]

theorem count_serializeArgs : (serializeArgs argv).count 0 =
    (argv.filter fun arg => ¬ IsWireClient arg).length := by
  rw [serializeArgs_eq]
  induction argv.filter fun arg => ¬ IsWireClient arg with
  | nil => rfl
  | cons arg strings ih =>
    have harg : arg.terminated.count 0 = 1 := by
      simp [CString.terminated, List.count_eq_zero.mpr arg.property]
    rw [List.flatMap_cons, List.count_append, harg, ih, List.length_cons, Nat.add_comm]

/-- The argument vector is the one meant if the bytes behind the message have a terminator: they
take the place of the last argument until it is replaced. -/
theorem wireServerUnserializeArgv_result (hrest : 0 ∈ rest) :
    (wireServerUnserializeArgv (serializeArgs argv) rest).result = .ok (serverArgv argv) := by
  obtain ⟨last, more, rfl, hlast⟩ := List.eq_append_cons_of_mem hrest
  have hloop := @unserializeArgs_result more 0 (argv.filter fun arg => ¬ IsWireClient arg)
    ⟨last, hlast⟩
  rw [wireServerUnserializeArgv, Traced.result_bind, count_serializeArgs, serializeArgs_eq]
  change (_ >>= _ : Traced Nat Halt _).result = _
  rw [Traced.result_bind, hloop]
  simp [serverArgv, bind, Except.bind]

end Unserialize

/-- No argument vector and no message is read from the message alone. -/
theorem not_roundTrip_not_readsInside (argv : List CString) (args rest : List UInt8) :
    ¬ RoundTrip argv rest ∧ ¬ ReadsInside args rest := by
  refine ⟨?_, not_readsInside⟩
  rintro ⟨sent, -, -, hinside⟩
  exact not_readsInside hinside

theorem not_forall_roundTrip_readsInside :
    ¬ ((∀ argv rest, RoundTrip argv rest) ∧ ∀ args rest, ReadsInside args rest) := by
  rintro ⟨hround, -⟩
  obtain ⟨sent, hsent, -, hinside⟩ := hround [⟨[112], by decide⟩] [0]
  obtain rfl : [112, 0] = sent := Except.ok.inj (Eq.trans (by decide) hsent)
  have hread : 2 ∈ (wireServerUnserializeArgv [112, 0] [0]).touched := by decide
  exact absurd (hinside 2 hread) (by decide)

end QoSMos.Wire
