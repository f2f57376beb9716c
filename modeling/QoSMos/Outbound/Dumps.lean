import QoSMos.Dump.Program
import QoSMos.Options.Search
import QoSMos.Outbound.Layers

/-!
# Dumps of packets that were compared

Every message about a packet ends with a short dump, which is printed also of a packet that failed
the comparison. It prints the options, but no address of the innermost headers.
-/

namespace QoSMos

open Returns

section Options

variable {b : Memory} {packet : Packet} {e p q r tcp : Nat} {options visited : List Nat}

/-- No malformed option is reached in an area that well-formed ones cover. -/
theorem Tiles.formed_of_visited (h : Tiles b e p options r) (hr : r = e)
    (hvisited : Tiles b e p visited q) (hq : q < e) : ¬ Malformed b e q := by
  induction hvisited generalizing options with
  | nil p =>
    cases h with
    | nil => omega
    | cons hlt hformed hrest => exact hformed
  | cons hlt hformed hrest ih =>
    cases h with
    | nil => omega
    | cons hlt' hformed' hrest' => exact ih hrest' hq

/-- Well-formed options are printed, or there is a message. -/
theorem OptionsAt.printTotal (h : OptionsAt packet tcp options) : PrintTotal packet tcp := by
  have hbyte := u8At_lt packet.buffer (tcp + 12)
  have hlt : Tcp.doff packet.buffer tcp < 16 := by
    unfold Tcp.doff
    omega
  have hmax : TCP_BYTES + MAX_TCP_OPTION_BYTES = 60 := rfl
  have harea : tcp + Tcp.doff packet.buffer tcp * 4 ≤ tcp + TCP_BYTES + MAX_TCP_OPTION_BYTES := by
    omega
  unfold PrintTotal tcpOptionsToString
  rw [safe_bind]
  simp only [safe_pure, implies_true, and_true]
  refine (traceTcpOptions_safe_iff (fun _ => trivial) h.header h.doff).mpr fun q t hreached hq => ?_
  obtain ⟨visited, htiles, -⟩ := hreached.printed
  have hformed := h.tiles.formed_of_visited rfl htiles hq
  exact (printVisit_safe_iff t).mpr
    ((printOption_safe_iff htiles.le hq harea).mpr (printFits_of_formed hformed))

end Options

/-- A short dump of the packet is printed, perhaps with a message behind it. -/
def IsPrinted (ipToString : IpToString) (packet : FullPacket) : Prop :=
  ∃ dumped, packetToString ipToString packet .short = .ok dumped

section Dump

variable {ipToString : IpToString} {packet : FullPacket} {outer : List Header} {ip last h : Header}
  {p q tcp i k : Nat} {options : List Nat} {len : Int}

theorem optionsToString_ok (h : OptionsAt packet.toPacket tcp options) :
    ∃ dumped, optionsToString packet = .ok dumped := by
  have htotal := h.printTotal
  unfold optionsToString packetTcpOptionsLen
  rw [h.header]
  dsimp only
  rw [bind_of_ok rfl]
  split
  · cases hresult : (tcpOptionsToString packet.toPacket).result with
    | ok text => exact ⟨_, rfl⟩
    | error failure =>
      cases failure with
      | error message => exact ⟨_, rfl⟩
      | halt halt => exact (htotal.2 _ hresult).elim
  · exact ⟨_, rfl⟩

theorem encapHeaderToString_ok (hptr : (packet.headerAt i).ptr = some p)
    (hkind : (packet.headerAt i).type = .ipv4 ∨ (packet.headerAt i).type = .ipv6 ∨
      (packet.headerAt i).type = .gre ∨ (packet.headerAt i).type = .mpls) :
    ∃ text, encapHeaderToString ipToString packet i = .ok text := by
  have hdata (function : String) : (packet.headerAt i).data function = .ok p := by
    rw [Header.data, hptr]
  unfold encapHeaderToString
  rcases hkind with ht | ht | ht | ht <;> rw [ht] <;> dsimp only
  · rw [ipv4HeaderToString, hdata]
    exact ⟨_, rfl⟩
  · rw [ipv6HeaderToString, hdata]
    exact ⟨_, rfl⟩
  · rw [greHeaderToString, hdata]
    exact ⟨_, rfl⟩
  · unfold mplsHeaderToString
    dsimp only
    rw [hdata]
    split
    · exact ⟨_, rfl⟩
    · exact ⟨_, rfl⟩

variable (ipToString) in
theorem encapHeadersToString_ok
    (hall : ∀ j < k, ∃ text, encapHeaderToString ipToString packet (i + j) = .ok text) :
    ∃ text, encapHeadersToString ipToString packet i k = .ok text := by
  induction k generalizing i with
  | zero => exact ⟨_, rfl⟩
  | succ k ih =>
    rw [encapHeadersToString]
    split
    · exact ⟨_, rfl⟩
    · obtain ⟨text, hfirst⟩ := hall 0 (by omega)
      have hnext : ∀ j < k, ∃ text,
          encapHeaderToString ipToString packet (i + 1 + j) = .ok text := by
        intro j hj
        rw [Nat.add_right_comm]
        exact hall (j + 1) (by omega)
      obtain ⟨texts, hrest⟩ := ih hnext
      rw [Nat.add_zero] at hfirst
      rw [bind_of_ok hfirst, bind_of_ok hrest]
      exact ⟨_, rfl⟩

theorem tcpPacketToString_ok (hlen : packetPayloadLen packet.toPacket = .ok len)
    (harea : OptionsAt packet.toPacket tcp options) :
    ∃ dumped, tcpPacketToString ipToString packet tcp .short = .ok dumped := by
  obtain ⟨dumped, hdumped⟩ := optionsToString_ok harea
  have hbuffer : packetBufferToString packet .short = .ok "" := rfl
  have hendpoints : endpointsToString ipToString packet .short = .ok "" := rfl
  unfold tcpPacketToString
  rw [hendpoints, hlen, hdumped, hbuffer]
  exact ⟨_, rfl⟩

theorem udpPacketToString_ok (hlen : packetPayloadLen packet.toPacket = .ok len) :
    ∃ dumped, udpPacketToString ipToString packet .short = .ok dumped := by
  have hbuffer : packetBufferToString packet .short = .ok "" := rfl
  have hendpoints : endpointsToString ipToString packet .short = .ok "" := rfl
  unfold udpPacketToString
  rw [hendpoints, hlen, hbuffer]
  exact ⟨_, rfl⟩

variable (ipToString) in
theorem innermostToString_ok (hl : Layers packet.toPacket outer ip last p q)
    (hlen : packetPayloadLen packet.toPacket = .ok len)
    (hoptions : packet.tcp ≠ none → ∃ tcp options, OptionsAt packet.toPacket tcp options) :
    ∃ dumped, innermostToString ipToString packet .short = .ok dumped := by
  have hip : ¬ (packet.ipv4 = none ∧ packet.ipv6 = none) := by
    rw [hl.ipv4, hl.ipv6]
    rcases hl.ip_cases with ht | ht <;> simp [ht]
  have htcp := hl.tcp
  unfold innermostToString
  rw [if_neg hip, hl.udp, hl.icmpv4, hl.icmpv6]
  rcases hl.last_cases with ht | ht | ht | ht
  · rw [if_pos ht] at htcp
    obtain ⟨tcp, options, harea⟩ := hoptions (by simp [htcp])
    obtain rfl := Option.some.inj (htcp.symm.trans harea.header)
    rw [htcp]
    exact tcpPacketToString_ok hlen harea
  · rw [if_neg (by simp [ht])] at htcp
    rw [htcp, if_pos ht]
    exact udpPacketToString_ok hlen
  · rw [if_neg (by simp [ht])] at htcp
    rw [htcp, if_neg (by simp [ht]), if_pos ht]
    exact ⟨_, rfl⟩
  · rw [if_neg (by simp [ht])] at htcp
    rw [htcp, if_neg (by simp [ht]), if_neg (by simp [ht]), if_pos ht]
    exact ⟨_, rfl⟩

/-- A short dump needs the length of the payload and well-formed options. -/
theorem Layers.isPrinted (hl : Layers packet.toPacket outer ip last p q)
    (hlen : packetPayloadLen packet.toPacket = .ok len)
    (hoptions : packet.tcp ≠ none → ∃ tcp options, OptionsAt packet.toPacket tcp options) :
    IsPrinted ipToString packet := by
  have hcount : packetHeaderCount packet.toPacket - 2 = outer.length := by
    rw [hl.table.count]
    simp
  have hencap : ∃ text, encapHeadersToString ipToString packet 0 outer.length = .ok text := by
    refine encapHeadersToString_ok ipToString fun j hj => ?_
    have hentry : packet.headerAt j = outer[j] := by
      rw [hl.table.headerAt (by simp; omega), List.getElem_append_left hj]
    have hcarrier := hl.carriers outer[j] (List.getElem_mem hj)
    obtain ⟨r, hr⟩ := hcarrier.ptr
    rw [Nat.zero_add]
    exact encapHeaderToString_ok (hentry ▸ hr) (hentry ▸ hcarrier.kind)
  obtain ⟨text, hencap⟩ := hencap
  obtain ⟨innermost, hinnermost⟩ := innermostToString_ok ipToString hl hlen hoptions
  unfold IsPrinted packetToString
  dsimp only
  rw [hcount, bind_of_ok hencap, bind_of_ok hinnermost]
  exact ⟨_, rfl⟩

end Dump

end QoSMos
