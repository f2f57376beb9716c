import QoSMos.Options.Iterator
import QoSMos.Parser.Invariants

/-!
# Loops over TCP options

`traceOptions` is `visitOptions` with the bytes that are read and written. A loop looks at an
option before the iterator has checked it, so that the loop is as safe as its visits of the
options that it reaches.
-/

namespace QoSMos

open Returns

/-- `visitOptions` for a visit that notes the bytes it touches. -/
def traceOptions {σ : Type} (buffer : σ → Memory) (visit : Nat → σ → Access σ)
    (optionsEnd : Nat) : Nat → Nat → σ → Access σ
  | 0, _, s => return s
  | n + 1, option, s =>
    if option < optionsEnd then do
      let s ← visit option s
      let next ← readTcpOptionsNext (buffer s) option optionsEnd
      traceOptions buffer visit optionsEnd n next s
    else return s

/-- `forTcpOptions` for such a visit. -/
def traceTcpOptions {σ : Type} (buffer : σ → Memory) (visit : Nat → σ → Access σ)
    (packet : Packet) (s : σ) : Access σ := do
  let (optionsEnd, iteration) ← tcpOptionsBegin packet
  match iteration.option with
  | none => return s
  | some option => traceOptions buffer visit optionsEnd (optionsEnd - option) option s

/-- A visit touches no byte outside of the area and ends in an acceptable way. -/
def Access.Safe {α : Type} (start e : Nat) (good : Failure → Prop) (x : Access α) : Prop :=
  x.Within (fun c => start ≤ c ∧ c < e) ∧ ∀ failure, x.result = .error failure → good failure

/-- From the option at `p` and the state `s`, the loop gets to the option at `q` and `t`. -/
inductive Reached {σ : Type} (buffer : σ → Memory) (visit : Nat → σ → Access σ) (e : Nat) :
    Nat → σ → Nat → σ → Prop where
  | refl (p : Nat) (s : σ) : Reached buffer visit e p s p s
  | head {p q : Nat} {s s' t : σ} (hlt : p < e) (hvisit : (visit p s).result = .ok s')
      (hformed : ¬ Malformed (buffer s') e p)
      (hrest : Reached buffer visit e (p + wireLength (buffer s') p) s' q t) :
      Reached buffer visit e p s q t

section Loop

variable {σ : Type} {buffer : σ → Memory} {visit : Nat → σ → Access σ} {start e n p q : Nat}
  {s s' t : σ} {good : Failure → Prop} {α β : Type} {x : Access α} {f : α → Access β}

theorem safe_bind : (x >>= f : Access β).Safe start e good ↔
    x.Safe start e good ∧ ∀ a, x.result = .ok a → (f a).Safe start e good := by
  unfold Access.Safe
  rw [Traced.within_bind, Traced.result_bind]
  cases hx : x.result with
  | ok a =>
    simp only [Except.ok.injEq, forall_eq', Returns.bind_of_ok rfl, reduceCtorEq, false_implies,
      implies_true, and_true]
    tauto
  | error failure =>
    simp only [reduceCtorEq, false_implies, implies_true, and_true, Except.error.injEq,
      forall_eq']
    simp [bind, Except.bind]

theorem Reached.le (h : Reached buffer visit e p s q t) : p ≤ q := by
  induction h with
  | refl p s => exact le_rfl
  | head hlt hvisit hformed hrest ih => omega

/-- A step of the iterator is safe, whatever the option is. -/
theorem readTcpOptionsNext_safe {b : Memory} (hgood : ∀ message, good (.error message))
    (hle : start ≤ p) (hlt : p < e) : (readTcpOptionsNext b p e).Safe start e good := by
  refine ⟨fun c hc => ?_, fun failure hfailure => ?_⟩
  · have := readTcpOptionsNext_within hlt c hc
    omega
  · rw [readTcpOptionsNext_result] at hfailure
    by_cases hmalformed : Malformed b e p
    · obtain ⟨message, hmessage⟩ := tcpOptionsNext_of_malformed hmalformed
      obtain rfl := Except.error.inj (hfailure.symm.trans hmessage)
      exact hgood message
    · rw [tcpOptionsNext_of_formed hlt hmalformed] at hfailure
      cases hfailure

theorem readTcpOptionsNext_ok_iff {b : Memory} {next : Nat} (hlt : p < e) :
    (readTcpOptionsNext b p e).result = .ok next ↔
      ¬ Malformed b e p ∧ next = p + wireLength b p := by
  rw [readTcpOptionsNext_result]
  by_cases hmalformed : Malformed b e p
  · obtain ⟨message, hmessage⟩ := tcpOptionsNext_of_malformed hmalformed
    simp [hmessage, hmalformed]
  · rw [tcpOptionsNext_of_formed hlt hmalformed]
    simp [hmalformed, eq_comm]

/-- A loop is safe if and only if it is at each option that it reaches. -/
theorem traceOptions_safe_iff (hgood : ∀ message, good (.error message)) (hle : start ≤ p)
    (hn : e - p ≤ n) :
    (traceOptions buffer visit e n p s).Safe start e good ↔
      ∀ q t, Reached buffer visit e p s q t → q < e → (visit q t).Safe start e good := by
  have hpure : (pure s : Access σ).Safe start e good :=
    ⟨Traced.within_pure s, by rintro failure ⟨⟩⟩
  induction n generalizing p s with
  | zero =>
    refine ⟨fun _ q t hreached hlt => ?_, fun _ => hpure⟩
    have := hreached.le
    omega
  | succ n ih =>
    rw [traceOptions]
    by_cases hlt : p < e
    · rw [if_pos hlt]
      simp only [safe_bind, readTcpOptionsNext_ok_iff hlt]
      have hnext (s' : σ) (hformed : ¬ Malformed (buffer s') e p) :=
        @ih (p + wireLength (buffer s') p) s' (by omega)
          (by have := wireLength_pos hformed; omega) ⟨Traced.within_pure s', by rintro failure ⟨⟩⟩
      constructor
      · rintro ⟨hfirst, hlater⟩ q t hreached hq
        cases hreached with
        | refl => exact hfirst
        | head _ hvisit hformed hrest =>
          exact (hnext _ hformed).mp ((hlater _ hvisit).2 _ ⟨hformed, rfl⟩) q t hrest hq
      · intro hall
        refine ⟨hall p s (.refl p s) hlt, fun s' hvisit => ?_⟩
        refine ⟨readTcpOptionsNext_safe hgood hle hlt, ?_⟩
        rintro next ⟨hformed, rfl⟩
        exact (hnext s' hformed).mpr fun q t hreached hq =>
          hall q t (.head hlt hvisit hformed hreached) hq
    · rw [if_neg hlt]
      refine ⟨fun _ q t hreached hq => ?_, fun _ => hpure⟩
      have := hreached.le
      omega

/-- The loop over the options of a packet. -/
theorem traceTcpOptions_safe_iff (hgood : ∀ message, good (.error message)) {packet : Packet}
    {tcp : Nat} (htcp : packet.tcp = some tcp)
    (hdoff : TCP_BYTES ≤ Tcp.doff packet.buffer tcp * 4) :
    (traceTcpOptions buffer visit packet s).Safe (tcp + TCP_BYTES)
        (tcp + Tcp.doff packet.buffer tcp * 4) good ↔
      ∀ q t, Reached buffer visit (tcp + Tcp.doff packet.buffer tcp * 4) (tcp + TCP_BYTES) s q t →
        q < tcp + Tcp.doff packet.buffer tcp * 4 →
          (visit q t).Safe (tcp + TCP_BYTES) (tcp + Tcp.doff packet.buffer tcp * 4) good := by
  obtain ⟨e, he⟩ : ∃ e, e = tcp + Tcp.doff packet.buffer tcp * 4 := ⟨_, rfl⟩
  unfold traceTcpOptions
  rw [tcpOptionsBegin_eq htcp hdoff, ← he]
  by_cases hend : e ≤ tcp + TCP_BYTES
  · have hsafe : (pure s : Access σ).Safe (tcp + TCP_BYTES) e good :=
      ⟨Traced.within_pure s, by rintro failure ⟨⟩⟩
    rw [Iteration.at, if_pos hend]
    refine ⟨fun _ q t hreached hlt => ?_, fun _ => hsafe⟩
    have := hreached.le
    omega
  · rw [Iteration.at, if_neg hend]
    exact traceOptions_safe_iff hgood le_rfl le_rfl

/-- The bytes touched do not change what the loop does. -/
theorem traceOptions_result : (traceOptions buffer visit e n p s).result =
    visitOptions buffer (fun option s => (visit option s).result) e n p s := by
  induction n generalizing p s with
  | zero => rfl
  | succ n ih =>
    rw [traceOptions, visitOptions]
    split
    · simp only [Traced.result_bind, readTcpOptionsNext_result, ih]
    · rfl

theorem visitOptions_mono {visit visit' : Nat → σ → Status σ}
    (hvisit : ∀ option s s', visit option s = .ok s' → visit' option s = .ok s')
    (hok : visitOptions buffer visit e n p s = .ok t) :
    visitOptions buffer visit' e n p s = .ok t := by
  induction n generalizing p s with
  | zero => exact hok
  | succ n ih =>
    rw [visitOptions] at hok ⊢
    split_ifs at hok ⊢
    · obtain ⟨s', hs', hok⟩ := bind_eq_ok_iff.mp hok
      obtain ⟨next, hnext, hok⟩ := bind_eq_ok_iff.mp hok
      rw [bind_of_ok (hvisit _ _ _ hs'), bind_of_ok hnext]
      exact ih hok
    · exact hok

/-- Where one body of the loop ends, another one that ends there in the same way may stand. -/
theorem forTcpOptions_mono {visit visit' : Nat → σ → Status σ} {packet : Packet}
    (hvisit : ∀ option s s', visit option s = .ok s' → visit' option s = .ok s')
    (hok : forTcpOptions buffer visit packet s = .ok t) :
    forTcpOptions buffer visit' packet s = .ok t := by
  unfold forTcpOptions at hok ⊢
  cases htcp : packet.tcp with
  | none => rw [htcp] at hok; exact hok
  | some tcp =>
    rw [htcp] at hok
    obtain ⟨optionsEnd, hend, hok⟩ := bind_eq_ok_iff.mp hok
    obtain ⟨_, hrequire, hok⟩ := bind_eq_ok_iff.mp hok
    dsimp only
    rw [bind_of_ok hend, bind_of_ok hrequire]
    exact visitOptions_mono hvisit hok

theorem traceTcpOptions_result (packet : Packet) : (traceTcpOptions buffer visit packet s).result =
    forTcpOptions buffer (fun option s => (visit option s).result) packet s := by
  unfold traceTcpOptions forTcpOptions tcpOptionsBegin
  cases htcp : packet.tcp with
  | none => rfl
  | some tcp =>
    obtain ⟨e, he⟩ : ∃ e, packetPayload packet = .ok e := by
      rw [packetPayload, htcp]
      exact ⟨_, rfl⟩
    by_cases hle : tcp + TCP_BYTES ≤ e
    · by_cases hend : e ≤ tcp + TCP_BYTES
      · obtain rfl : e = tcp + TCP_BYTES := by omega
        simp [he, ofFault, halting, getCurrentOption, require, visitOptions, pure, bind,
          Except.bind]
      · simp [he, ofFault, halting, getCurrentOption, require, hle, hend, pure, bind, Except.bind,
          traceOptions_result]
    · simp [he, ofFault, halting, getCurrentOption, require, hle, bind, Except.bind]

end Loop

/-! ## Accepted packets -/

/-- A packet that the parser accepts with TCP on top has its option area in the captured bytes. -/
theorem accepted_tcp {b : Memory} {bufferBytes inBytes tcp : Nat} {layer : PacketLayer}
    {s : ParseState} (hrun : runParsePacket b bufferBytes inBytes layer = .ok (.ok, s))
    (htcp : s.packet.tcp = some tcp) :
    TCP_BYTES ≤ Tcp.doff s.packet.buffer tcp * 4 ∧
      tcp + Tcp.doff s.packet.buffer tcp * 4 ≤ inBytes := by
  have hle := le_of_runParsePacket hrun
  obtain ⟨hs, ⟨hd, hlen⟩, hpacket, -⟩ := runParsePacket_ok_stack hle hrun
  obtain ⟨init, last, y, q, rfl, -, hlast, hq, hp, hinit⟩ :=
    exists_last_of_derives hd (layerStart_ne_done b layer)
  have hkept := startPacket_transports b bufferBytes layer hinit hlast.ptr
  rw [← hpacket, Packet.transports, htcp] at hkept
  have htop : last.type = .tcp := by
    by_contra hne
    simp [hne] at hkept
  simp only [htop, if_true, List.cons.injEq, Option.some.injEq] at hkept
  obtain rfl := hkept.1
  have hbuffer : s.packet.buffer = b := by
    rw [hpacket, buffer_afterHeaders]
    rfl
  have hinside := position_le_of_path hp (layerStart_fits b layer) (by simp)
  obtain ⟨sym, p⟩ := y
  rw [hbuffer]
  cases hlast with
  | tcp hmin hmax => exact ⟨hmin, hq ▸ hinside⟩
  | _ => cases htop

/-- An IPv4/TCP packet with four bytes of options. -/
def optionsPacket (options : Vector UInt8 4) : List UInt8 :=
  [0x45, 0x00, 0x00, 0x2c, 0x00, 0x00, 0x00, 0x00, 0x40, 0x06, 0xf9, 0x16, 0xc0, 0xa8, 0x00, 0x01,
   0xc0, 0xa8, 0x00, 0x64, 0x1f, 0x90, 0xdb, 0xcc, 0x00, 0x00, 0x00, 0x00, 0x00, 0x00, 0x00, 0x00,
   0x60, 0x10, 0xff, 0xff, 0x00, 0x00, 0x00, 0x00] ++ options.toList

end QoSMos
