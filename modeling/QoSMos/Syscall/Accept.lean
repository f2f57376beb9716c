import QoSMos.Flow.Key
import QoSMos.Outbound.FindSocket

/-!
# The child socket of an accepted connection

The child of a listening socket is made by `handle_listen_for_script_packet`, for an inbound script
packet, or in a wire client by `run_syscall_accept`, which has only the address that `accept`
stores. The one takes the peer from the configuration and the next ephemeral port, the other from
the address.
-/

namespace QoSMos.Syscall

open Returns

/-! ## Addresses of sockets -/

/-- `ip_from_sockaddr`, with the port in host order. -/
def ipFromSockaddr (address : List UInt8) : Except Stop Endpoint :=
  let b := Memory.ofList address
  match le16At b 0 with
  | 2 => do
    assert (address.length = 16) "ipv4_from_sockaddr" "length == sizeof(sa_v4)"
    return ⟨ipFromIpv4 b 4, be16At b 2⟩
  | 10 => do
    assert (address.length = 28) "ipv6_from_sockaddr" "length == sizeof(sa_v6)"
    return ⟨ipFromIpv6 b 8, be16At b 2⟩
  | saFamily => .error (.die (s!"ip_from_sockaddr: bad address family: {saFamily}" ++ "\n"))

/-- `ipv6_map_from_ipv4` -/
def ipv6MapFromIpv4 (ip : IpAddress) : IpAddress := ⟨.inet6, ipv4MappedPrefix ++ ip.bytes.take 4⟩

/-- `run_syscall_accept` of the address that `accept` has stored. -/
def runSyscallAcceptFrom (config : Config) (fds : List FdState)
    (scriptAcceptedFd liveAcceptedFd : Int) (liveAddr : List UInt8) :
    Except Stop (List FdState) := do
  let peer ← ipFromSockaddr liveAddr
  runSyscallAccept config fds scriptAcceptedFd liveAcceptedFd peer

/-- The bytes of a `struct sockaddr_in` or `struct sockaddr_in6`; what stands behind the address,
and in front of an IPv6 one, may be anything. -/
inductive SockaddrOf : IpAddress → Nat → List UInt8 → Prop where
  | inet {quad zero : List UInt8} {port : Nat} : quad.length = 4 → zero.length = 8 →
      SockaddrOf ⟨.inet, quad ++ List.replicate 12 0⟩ port (le16 2 ++ be16 port ++ quad ++ zero)
  | inet6 {flowinfo bytes scope : List UInt8} {port : Nat} : flowinfo.length = 4 →
      bytes.length = 16 → scope.length = 4 →
      SockaddrOf ⟨.inet6, bytes⟩ port (le16 10 ++ be16 port ++ flowinfo ++ bytes ++ scope)

/-- An address under which `accept` reports a peer: its own, or the one that it is mapped to if
the listening socket is an IPv6 one. -/
def PeerAddress (ip : IpAddress) (port : Nat) (address : List UInt8) : Prop :=
  SockaddrOf ip port address ∨
    ip.addressFamily = .inet ∧ SockaddrOf (ipv6MapFromIpv4 ip) port address

/-- An IPv6 address that stands for an IPv4 one. -/
def Mapped (ip : IpAddress) : Prop :=
  ip.addressFamily = .inet6 ∧ ip.bytes.take 12 = ipv4MappedPrefix

instance (ip : IpAddress) : Decidable (Mapped ip) := inferInstanceAs (Decidable (_ ∧ _))

section Addresses

variable {ip : IpAddress} {port : Nat} {address : List UInt8}

theorem ofFn_ofList {n : Nat} (front bytes rest : List UInt8) (hn : bytes.length = n) :
    (List.ofFn fun i : Fin n => Memory.ofList (front ++ bytes ++ rest) (front.length + i)) =
      bytes := by
  subst hn
  apply List.ext_getElem (by simp)
  intro i hi hbytes
  simp [Memory.ofList, List.getD_eq_getElem?_getD, List.getElem?_append_right,
    List.getElem?_append_left hbytes, hbytes]

theorem SockaddrOf.be16At_two (h : SockaddrOf ip port address) (hport : port < 65536) :
    be16At (.ofList address) 2 = port := by
  have hbytes : be16At (.ofList address) 2 =
      256 * (UInt8.ofNat (port / 256)).toNat + (UInt8.ofNat port).toNat := by
    cases h <;> rfl
  rw [hbytes, UInt8.toNat_ofNat', UInt8.toNat_ofNat']
  omega

theorem ipFromSockaddr_eq (h : SockaddrOf ip port address) (hport : port < 65536) :
    ipFromSockaddr address = .ok ⟨ip, port⟩ := by
  have hread := h.be16At_two hport
  cases h with
  | @inet quad zero _ hquad hzero =>
    have hlength : (le16 2 ++ be16 port ++ quad ++ zero).length = 16 := by simp [hquad, hzero]
    have hip : ipFromIpv4 (.ofList (le16 2 ++ be16 port ++ quad ++ zero)) 4 =
        ⟨.inet, quad ++ List.replicate 12 0⟩ := by
      have hquad := ofFn_ofList (le16 2 ++ be16 port) quad zero hquad
      exact congrArg (fun bytes => IpAddress.mk .inet (bytes ++ List.replicate 12 0)) hquad
    change (do
      assert (_ = 16) _ _
      return _) = _
    rw [assert, if_pos hlength, bind_of_ok rfl, hip, hread]
    rfl
  | @inet6 flowinfo bytes scope _ hflowinfo hbytes hscope =>
    have hlength : (le16 10 ++ be16 port ++ flowinfo ++ bytes ++ scope).length = 28 := by
      simp [hflowinfo, hbytes, hscope]
    have hip : ipFromIpv6 (.ofList (le16 10 ++ be16 port ++ flowinfo ++ bytes ++ scope)) 8 =
        ⟨.inet6, bytes⟩ := by
      have hbytes := ofFn_ofList (le16 10 ++ be16 port ++ flowinfo) bytes scope hbytes
      have hfront : (le16 10 ++ be16 port ++ flowinfo).length = 8 := by simp [hflowinfo]
      rw [hfront] at hbytes
      exact congrArg (IpAddress.mk .inet6) hbytes
    change (do
      assert (_ = 28) _ _
      return _) = _
    rw [assert, if_pos hlength, bind_of_ok rfl, hip, hread]
    rfl

theorem ipv6MapToIpv4_of_not_mapped (h : ¬ Mapped ip) : ipv6MapToIpv4 ip = ip := if_neg h

theorem ipv6MapToIpv4_mapFrom (hip : ip.WellFormed) (hinet : ip.addressFamily = .inet) :
    ipv6MapToIpv4 (ipv6MapFromIpv4 ip) = ip := by
  obtain ⟨family, bytes⟩ := ip
  obtain ⟨hlength, hzero⟩ := hip
  obtain rfl : family = .inet := hinet
  rw [ipv6MapToIpv4, if_pos ⟨rfl, rfl⟩, ← hzero rfl]
  exact congrArg (IpAddress.mk .inet) (List.take_append_drop 4 bytes)

/-- The peer is found under both addresses, unless its own address is a mapped one. -/
theorem ipv6MapToIpv4_peer {reported : IpAddress} (hip : ip.WellFormed)
    (h : reported = ip ∨ ip.addressFamily = .inet ∧ reported = ipv6MapFromIpv4 ip) :
    ipv6MapToIpv4 reported = ip ↔ ¬ Mapped ip := by
  have hinet : ip.addressFamily = .inet → ¬ Mapped ip := by
    intro hinet hmapped
    cases hinet.symm.trans hmapped.1
  obtain rfl | ⟨hfamily, rfl⟩ := h
  · constructor
    · intro hsame hmapped
      have hinet : (ipv6MapToIpv4 reported).addressFamily = .inet :=
        congrArg IpAddress.addressFamily (if_pos hmapped)
      rw [hsame, hmapped.1] at hinet
      cases hinet
    · exact ipv6MapToIpv4_of_not_mapped
  · exact iff_of_true (ipv6MapToIpv4_mapFrom hip hfamily) (hinet hfamily)

end Addresses

/-! ## The two children -/

/-- A wire client, where the configuration has these addresses. -/
def wireClientConfig (config : Config) (lookup : LookupConfig) : Config :=
  { config with
    isWireClient := true
    liveBindPort := lookup.liveBindPort.toNat
    liveLocalIp := lookup.liveLocalIp
    liveRemoteIp := lookup.liveRemoteIp }

/-- A port that reads the same in both byte orders. -/
def EqualBytes (port : Nat) : Prop := port / 256 = port % 256

instance (port : Nat) : Decidable (EqualBytes port) := inferInstanceAs (Decidable (_ = _))

section Children

variable {config : Config} {fds : List FdState} {scriptFd liveFd : Int} {fd : FdState}
  {child : SocketInfo} {peer : Endpoint} {address : List UInt8} {port : Nat}
  {ephemeralPort : UInt16} {state state' : LookupState} {packet : FullPacket} {tcp : Nat}
  {direction : Direction} {socket : TrackedSocket}

theorem ntohs_eq_self_iff : ntohs port = port ↔ EqualBytes port := by
  unfold ntohs EqualBytes
  omega

/-- What a wire client knows of the connection. -/
theorem runSyscallAccept_live
    (hok : runSyscallAccept config fds scriptFd liveFd peer = .ok (fd :: fds))
    (hchild : fd.type = .socket child) :
    child.live = ⟨some ⟨config.liveLocalIp, config.liveBindPort⟩,
      some ⟨ipv6MapToIpv4 peer.ip, ntohs peer.port⟩⟩ := by
  obtain ⟨found, -, hok⟩ := bind_eq_ok_iff.mp hok
  cases found with
  | some found =>
    -- no entry is added to the list
    have hlength := congrArg List.length (Except.ok.inj hok)
    simp [updateFd] at hlength
  | none =>
    dsimp only at hok
    by_cases hclient : config.isWireClient = true
    · rw [if_neg (not_not.mpr hclient)] at hok
      obtain ⟨rfl, -⟩ := List.cons.inj (Except.ok.inj hok)
      obtain rfl := FdType.socket.inj hchild
      rfl
    · rw [if_pos hclient] at hok
      cases hok

/-- What the lookup knows of it. -/
theorem handleListenForScriptPacket_live
    (hok : handleListenForScriptPacket ephemeralPort state packet tcp direction =
      .ok (state', some socket)) :
    socket.live = ⟨some ⟨state.config.liveLocalIp, state.config.liveBindPort.toNat⟩,
      some ⟨state.config.liveRemoteIp, (state.takeEphemeralPort ephemeralPort).1.toNat⟩⟩ := by
  unfold handleListenForScriptPacket at hok
  by_cases hmatch : listenMatches state direction = true
  · rw [if_pos hmatch] at hok
    obtain ⟨_, -, hok⟩ := bind_eq_ok_iff.mp hok
    obtain ⟨_, -, hok⟩ := bind_eq_ok_iff.mp hok
    obtain ⟨-, hsocket⟩ := Prod.mk.inj (Except.ok.inj hok)
    obtain rfl := Option.some.inj hsocket
    rfl
  · rw [if_neg hmatch] at hok
    obtain ⟨-, hsocket⟩ := Prod.mk.inj (Except.ok.inj hok)
    cases hsocket

/-- For one peer the two functions store the same endpoints if and only if its port is the same in
both byte orders and its address is not a mapped one. -/
theorem accept_live_eq_iff (hip : state.config.liveRemoteIp.WellFormed)
    (haddress : PeerAddress state.config.liveRemoteIp
      (state.takeEphemeralPort ephemeralPort).1.toNat address)
    (hsocket : handleListenForScriptPacket ephemeralPort state packet tcp direction =
      .ok (state', some socket))
    (haccept : runSyscallAcceptFrom (wireClientConfig config state.config) fds scriptFd liveFd
      address = .ok (fd :: fds))
    (hchild : fd.type = .socket child) :
    child.live = socket.live ↔
      EqualBytes (state.takeEphemeralPort ephemeralPort).1.toNat ∧
        ¬ Mapped state.config.liveRemoteIp := by
  have hport := (state.takeEphemeralPort ephemeralPort).1.toNat_lt
  obtain ⟨reported, hreported, hread⟩ : ∃ reported,
      (reported = state.config.liveRemoteIp ∨ state.config.liveRemoteIp.addressFamily = .inet ∧
        reported = ipv6MapFromIpv4 state.config.liveRemoteIp) ∧
      ipFromSockaddr address =
        .ok ⟨reported, (state.takeEphemeralPort ephemeralPort).1.toNat⟩ := by
    obtain hown | ⟨hinet, hmapped⟩ := haddress
    · exact ⟨_, .inl rfl, ipFromSockaddr_eq hown hport⟩
    · exact ⟨_, .inr ⟨hinet, rfl⟩, ipFromSockaddr_eq hmapped hport⟩
  rw [runSyscallAcceptFrom, bind_of_ok hread] at haccept
  rw [runSyscallAccept_live haccept hchild, handleListenForScriptPacket_live hsocket,
    ← ipv6MapToIpv4_peer hip hreported, ← ntohs_eq_self_iff]
  simp only [wireClientConfig, Endpoints.mk.injEq, Option.some.injEq, Endpoint.mk.injEq, true_and]
  exact and_comm

/-- A run before its first event, with this port in the cache. -/
def listenState (port : UInt16) : LookupState :=
  { firstState true with nextEphemeralPort := some port }

def acceptConfig : Config where
  socketDomain := 2
  wireProtocol := 2
  isWireClient := true
  liveBindIp := (listenState 0).config.liveLocalIp
  liveBindPort := 8080
  liveConnectIp := (listenState 0).config.liveRemoteIp
  liveConnectPort := 8080
  liveLocalIp := (listenState 0).config.liveLocalIp
  liveRemoteIp := (listenState 0).config.liveRemoteIp

/-- The peer of `listenState` with this port. -/
def peerSockaddr (port : Nat) : List UInt8 :=
  le16 2 ++ be16 port ++ [192, 0, 2, 1] ++ List.replicate 8 0

theorem wellFormed_liveRemoteIp {port : UInt16} :
    (listenState port).config.liveRemoteIp.WellFormed := ⟨rfl, fun _ => rfl⟩

theorem peerAddress_peerSockaddr (port : UInt16) :
    PeerAddress (listenState port).config.liveRemoteIp port.toNat (peerSockaddr port.toNat) :=
  .inl (.inet rfl rfl)

/-- A peer that connects from port 40092, which is 0x9c9c. -/
theorem accept_live_eq_iff_syn : ∃ packet state' socket fd child,
    newTcpPacket (fun _ => 0) synArgs = .ok (.ok packet) ∧
    handleListenForScriptPacket 0 (listenState 40092) packet 40 .inbound =
      .ok (state', some socket) ∧
    runSyscallAcceptFrom (wireClientConfig acceptConfig (listenState 40092).config) [] 4 7
      (peerSockaddr 40092) = .ok [fd] ∧ fd.type = .socket child ∧
    (child.live = socket.live ↔
      EqualBytes 40092 ∧ ¬ Mapped (listenState 40092).config.liveRemoteIp) := by
  obtain ⟨packet, state', socket, fd, child, hnew, hsocket, haccept, hchild⟩ :
      ∃ packet state' socket fd child, newTcpPacket (fun _ => 0) synArgs = .ok (.ok packet) ∧
        handleListenForScriptPacket 0 (listenState 40092) packet 40 .inbound =
          .ok (state', some socket) ∧
        runSyscallAcceptFrom (wireClientConfig acceptConfig (listenState 40092).config) [] 4 7
          (peerSockaddr 40092) = .ok [fd] ∧ fd.type = .socket child :=
    ⟨_, _, _, _, _, rfl, rfl, rfl, rfl⟩
  exact ⟨packet, state', socket, fd, child, hnew, hsocket, haccept, hchild,
    accept_live_eq_iff wellFormed_liveRemoteIp (peerAddress_peerSockaddr 40092) hsocket haccept
      hchild⟩

/-- A peer that connects from port 40000, which is 0x9c40. -/
theorem not_forall_accept_live_eq :
    ¬ ∀ (config : Config) (fds : List FdState) (scriptFd liveFd : Int) (fd : FdState)
      (child : SocketInfo) (address : List UInt8) (ephemeralPort : UInt16)
      (state state' : LookupState) (packet : FullPacket) (tcp : Nat) (direction : Direction)
      (socket : TrackedSocket), state.config.liveRemoteIp.WellFormed →
      PeerAddress state.config.liveRemoteIp (state.takeEphemeralPort ephemeralPort).1.toNat
        address →
      handleListenForScriptPacket ephemeralPort state packet tcp direction =
        .ok (state', some socket) →
      runSyscallAcceptFrom (wireClientConfig config state.config) fds scriptFd liveFd address =
        .ok (fd :: fds) →
      fd.type = .socket child → child.live = socket.live := by
  intro h
  obtain ⟨packet, state', socket, fd, child, -, hsocket, haccept, hchild, hports⟩ :
      ∃ packet state' socket fd child,
        newTcpPacket (fun _ => 0) synArgs = .ok (.ok packet) ∧
        handleListenForScriptPacket 0 (listenState 40000) packet 40 .inbound =
          .ok (state', some socket) ∧
        runSyscallAcceptFrom (wireClientConfig acceptConfig (listenState 40000).config) [] 4 7
          (peerSockaddr 40000) = .ok [fd] ∧
        fd.type = .socket child ∧
        (child.live.remoteEnd.map Endpoint.port, socket.live.remoteEnd.map Endpoint.port) =
          (some 16540, some 40000) := ⟨_, _, _, _, _, rfl, rfl, rfl, rfl, rfl⟩
  have hsame := h _ _ _ _ _ _ _ _ _ _ _ _ _ _ wellFormed_liveRemoteIp
    (peerAddress_peerSockaddr 40000) hsocket haccept hchild
  rw [hsame] at hports
  have hport := (Prod.mk.inj hports).1.symm.trans (Prod.mk.inj hports).2
  exact absurd hport (by decide)

end Children

end QoSMos.Syscall
